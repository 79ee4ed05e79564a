import AgentFleet.Text.Basic

namespace AgentFleet.Text

/-- The lines without their ends. A line end at the very end of the text starts no further line. -/
def lines : Text → List Text
  | [] => []
  | .char '\n' :: r => [] :: lines r
  | .char '\r' :: .char '\n' :: r => [] :: lines r
  | .char '\r' :: r => [] :: lines r
  | p :: r =>
    match lines r with
    | l :: ls => (p :: l) :: ls
    | [] => [[p]]

/-- Lines with their numbers, the first being 1. -/
def numbered (ls : List Text) : List (Nat × Text) :=
  ls.zipIdx 1 |>.map fun (l, n) => (n, l)

end AgentFleet.Text

import AgentFleet.Json.Value
import AgentFleet.Text.Quoted

namespace AgentFleet.Json

mutual

def Value.quoted : Value → Text
  | .null => "None"
  | .bool true => "True"
  | .bool false => "False"
  | .number x => x.text
  | .text t => Text.quoted t
  | .array items => "[" ++ Text.join ", " (quotedItems items) ++ "]"
  | .object members => "\x7b" ++ Text.join ", " (quotedMembers members) ++ "\x7d"

def quotedItems : List Value → List Text
  | [] => []
  | v :: vs => v.quoted :: quotedItems vs

def quotedMembers : List (Text × Value) → List Text
  | [] => []
  | (k, v) :: ms => (Text.quoted k ++ ": " ++ v.quoted) :: quotedMembers ms

end

def Value.shown : Value → Text
  | .text t => t
  | v => v.quoted

/-- Values that are stated together: none show nothing, and several stand in parentheses. -/
def shownTogether : List Value → Text
  | [] => ""
  | [v] => v.shown
  | several => "(" ++ Text.join ", " (quotedItems several) ++ ")"

end AgentFleet.Json

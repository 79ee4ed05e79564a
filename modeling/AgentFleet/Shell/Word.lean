import AgentFleet.Text.Basic

namespace AgentFleet.Shell
open Text (Point)

/-- Characters that mean themselves to a shell, outside quotes too. -/
def isPlain : Point → Bool
  | .char c => c.isAlphanum || "_@%+=:,./-".toList.contains c
  | .half _ => false

/-- A single quote ends the quotes, stands between double ones, and starts them anew. -/
def quotedPoint (p : Point) : Text :=
  if p = .char '\'' then "'\"'\"'" else [p]

/-- The word for a text: the text itself if all of it is plain, else in single quotes. -/
def word (t : Text) : Text :=
  if !t.isEmpty && t.all isPlain then t
  else "'" ++ t.flatMap quotedPoint ++ "'"

end AgentFleet.Shell

import AgentFleet.Decimal.Number

namespace AgentFleet.Json
open Decimal

/-- A JSON document. -/
inductive Value
  | null
  | bool (b : Bool)
  | number (x : Number)
  | text (t : Text)
  | array (items : List Value)
  | object (members : List (Text × Value))
  deriving Repr

namespace Value

def whole (n : Int) : Value :=
  .number (.whole n)

def texts (l : List Text) : Value :=
  .array (l.map .text)

/-- A member that is absent when there is no value. -/
def optional (f : α → Value) : Option α → Value
  | some a => f a
  | none => .null

/-- An object from members with plain names. -/
def record (members : List (String × Value)) : Value :=
  .object (members.map fun (k, v) => (k, v))

end Value

end AgentFleet.Json

import AgentFleet.Json.Value
import AgentFleet.Text.Quoted

namespace AgentFleet.Json
open Decimal
open Text (Point)

/-- Floating-point numbers that no JSON number denotes have names. -/
def numberLayout : Layout :=
  { Layout.plain with infinity := "Infinity", notANumber := "NaN" }

/-- An escape for a unit of sixteen bits. -/
def unitEscape (n : Nat) : Text :=
  "\\u" ++ Text.hex 4 n

/-- Printable ASCII stands for itself; a character above 16 bits is escaped as a pair. -/
def escapedPoint (p : Point) : Text :=
  if p = .char '"' then "\\\""
  else if p = .char '\\' then "\\\\"
  else if 0x20 ≤ p.code && p.code < 0x7F then [p]
  else if p = .char '\n' then "\\n"
  else if p = .char '\r' then "\\r"
  else if p = .char '\t' then "\\t"
  else if p = .char '\x08' then "\\b"
  else if p = .char '\x0c' then "\\f"
  else if p.code < 0x10000 then unitEscape p.code
  else unitEscape (0xD800 + (p.code - 0x10000) / 0x400) ++
    unitEscape (0xDC00 + (p.code - 0x10000) % 0x400)

def printText (t : Text) : Text :=
  "\"" ++ t.flatMap escapedPoint ++ "\""

def printMember (name value : Text) : Text :=
  printText name ++ ": " ++ value

/-- Written members in the order of their names. -/
def inOrder (members : List (Text × Text)) : List (Text × Text) :=
  members.mergeSort fun a b => a.1.le b.1

mutual

def Value.print : Value → Text
  | .null => "null"
  | .bool true => "true"
  | .bool false => "false"
  | .number x => x.render numberLayout
  | .text t => printText t
  | .array items => "[" ++ Text.join ", " (printItems items) ++ "]"
  | .object members =>
    "\x7b" ++ Text.join ", " ((inOrder (printMembers members)).map fun (k, v) => printMember k v) ++
      "\x7d"

def printItems : List Value → List Text
  | [] => []
  | v :: vs => v.print :: printItems vs

def printMembers : List (Text × Value) → List (Text × Text)
  | [] => []
  | (k, v) :: ms => (k, v.print) :: printMembers ms

end

end AgentFleet.Json

import AgentFleet.Text.Blank
import AgentFleet.Text.Digit
import AgentFleet.Text.Quoted

namespace AgentFleet.Text

inductive NumeralFault
  | malformed (text : Text)
  | tooLong (digits : Nat)
  deriving DecidableEq, Repr

/-- What is reported of a number with too many digits. -/
def overLimit (detail : Text) : Text :=
  "Exceeds the limit (" ++ ofNat digitLimit ++ " digits) for integer string conversion" ++ detail ++
    "; use sys.set_int_max_str_digits() to increase the limit"

/-- An overlong literal is cut in the report. -/
def NumeralFault.message : NumeralFault → Text
  | .malformed text => "invalid literal for int() with base 10: " ++ (quoted text).take 200
  | .tooLong digits => overLimit (": value has " ++ ofNat digits ++ " digits")

/-- The separators of the C0 controls are blanks of a line, but not of a numeral. -/
def isNumeralBlank (p : Point) : Bool :=
  isBlank p && !(0x1C ≤ p.code && p.code ≤ 0x1F)

/-- The digits at the front, and what follows them. An underscore is passed only before a digit. -/
def digitRun : Text → List Nat × Text
  | .char '_' :: p :: r =>
    match digitValue? p with
    | some d => ((digitRun r).1.cons d, (digitRun r).2)
    | none => ([], .char '_' :: p :: r)
  | p :: r =>
    match digitValue? p with
    | some d => ((digitRun r).1.cons d, (digitRun r).2)
    | none => ([], p :: r)
  | [] => ([], [])

def ofDigits (ds : List Nat) : Nat :=
  ds.foldl (fun n d => 10 * n + d) 0

def sign : Text → Bool × Text
  | .char '+' :: r => (false, r)
  | .char '-' :: r => (true, r)
  | r => (false, r)

/-- The whole number that a text spells: a sign if there is one, and digits of any script, with
single underscores between them and blanks around the whole. -/
def readInteger (t : Text) : Except NumeralFault Int :=
  let (negative, body) := sign (t.dropWhile isNumeralBlank)
  let (ds, rest) := digitRun body
  if body.head? = some (.char '_') || ds.isEmpty || rest.head? = some (.char '_') then
    .error (.malformed t)
  else if ds.length > digitLimit then .error (.tooLong ds.length)
  else if rest.all isNumeralBlank then
    .ok (if negative then -(ofDigits ds : Int) else ofDigits ds)
  else .error (.malformed t)

end AgentFleet.Text

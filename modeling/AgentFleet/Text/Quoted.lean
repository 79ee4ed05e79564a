import AgentFleet.Text.Printable

namespace AgentFleet.Text

def hexDigit (n : Nat) : Point :=
  .char (if n < 10 then Char.ofNat (0x30 + n) else Char.ofNat (0x57 + n))

/-- The last `width` hexadecimal digits of a number. -/
def hex : (width : Nat) → Nat → Text
  | 0, _ => []
  | w + 1, n => hex w (n / 16) ++ [hexDigit (n % 16)]

/-- Double quotes only spare the escape of a single quote. -/
def quoteMark (t : Text) : Point :=
  if t.contains (.char '\'') && !t.contains (.char '"') then .char '"' else .char '\''

def escaped (mark p : Point) : Text :=
  if p = mark || p = .char '\\' then [.char '\\', p]
  else if p = .char '\t' then "\\t"
  else if p = .char '\n' then "\\n"
  else if p = .char '\r' then "\\r"
  else if isPrintable p then [p]
  else if p.code < 0x100 then "\\x" ++ hex 2 p.code
  else if p.code < 0x10000 then "\\u" ++ hex 4 p.code
  else "\\U" ++ hex 8 p.code

def quoted (t : Text) : Text :=
  let mark := quoteMark t
  mark :: t.flatMap (escaped mark) ++ [mark]

end AgentFleet.Text

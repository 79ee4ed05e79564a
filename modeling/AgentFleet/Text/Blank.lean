import AgentFleet.Text.Basic

namespace AgentFleet.Text

/-- Blanks surround a field without belonging to it. A line end is a blank; so are spaces that end
no line. -/
def isBlank (p : Point) : Bool :=
  let n := p.code
  (0x09 ≤ n && n ≤ 0x0D) || (0x1C ≤ n && n ≤ 0x20) || n == 0x85 || n == 0xA0 || n == 0x1680 ||
  (0x2000 ≤ n && n ≤ 0x200A) || n == 0x2028 || n == 0x2029 || n == 0x202F || n == 0x205F ||
  n == 0x3000

/-- What is between the first and the last point that does not satisfy `skip`, with both. -/
def trimBoth (skip : Point → Bool) (t : Text) : Text :=
  ((t.dropWhile skip).reverse.dropWhile skip).reverse

def strip (t : Text) : Text :=
  trimBoth isBlank t

end AgentFleet.Text

import AgentFleet.Text.Encoding

namespace AgentFleet.Text

/-- Bytes are taken from a file so many at a time. -/
def pieceSize : Nat := 8192

def pieces (bytes : List UInt8) : List (List UInt8) :=
  (List.range ((bytes.length + pieceSize - 1) / pieceSize)).map fun n =>
    (bytes.drop (n * pieceSize)).take pieceSize

/-- The text of bytes up to the first that are no character. -/
def front (bytes : List UInt8) : Text :=
  (ofBytes bytes).takeWhile fun
    | .char _ => true
    | .half _ => false

/-- More bytes can make these a character: those that come first in their order do, or those that
come last. -/
def isBegun : List UInt8 → Bool
  | [] => false
  | first :: more =>
    match size? first with
    | none => false
    | some size =>
      let missing := size - (more.length + 1)
      0 < missing && [0x80, 0xBF].any fun trail =>
        (front? (first :: more ++ List.replicate missing trail)).isSome

/-- The text of pieces up to the first that holds bytes which are no character. `begun` is the part
of a character at the end of the piece before. -/
def decodePieces (begun : List UInt8) : List (List UInt8) → Text
  | [] => []
  | piece :: rest =>
    let text := front (begun ++ piece)
    let left := (begun ++ piece).drop ((bytes? text).getD []).length
    if left = [] || isBegun left then text ++ decodePieces left rest else []

/-- The text through its last line end. A carriage return that comes last may be half of one. -/
def wholeLines (t : Text) : Text :=
  let t := if t.getLast? = some (.char '\r') then t.dropLast else t
  (t.reverse.dropWhile fun p => p ≠ .char '\n' && p ≠ .char '\r').reverse

/-- What is read of bytes that are the encoding of no text: the lines that are whole before the
piece comes that cannot be decoded. -/
def legible (bytes : List UInt8) : Text :=
  wholeLines (decodePieces [] (pieces bytes))

end AgentFleet.Text

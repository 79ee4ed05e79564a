import AgentFleet.Fields
import AgentFleet.Text.Encoding

namespace AgentFleet.Disk

/-- What a path is made of: the unit between names, and the one that special names consist of. -/
class PathUnit (α : Type) where
  slash : α
  dot : α

instance : PathUnit Text.Point := ⟨.char '/', .char '.'⟩

instance : PathUnit UInt8 := ⟨0x2F, 0x2E⟩

section Parting

variable [DecidableEq α] [PathUnit α]

open PathUnit

/-- The names of a path, without empty ones. -/
def names (path : List α) : List (List α) :=
  (fields slash path).filter (· ≠ [])

def isAbsolute (path : List α) : Bool :=
  path.head? = some slash

/-- A slash at the end of a path asks for a directory. -/
def asksDirectory (path : List α) : Bool :=
  path.getLast? = some slash

/-- One step along a path: one dot stays, two go up, and a name goes down. -/
def step (here : List (List α)) (name : List α) : List (List α) :=
  if name = [dot] then here
  else if name = [dot, dot] then here.dropLast
  else here ++ [name]

/-- What a path names when every directory on the way exists. -/
def absolute (here : List (List α)) (path : List α) : List (List α) :=
  (names path).foldl step (if isAbsolute path then [] else here)

end Parting

abbrev Name := List UInt8

/-- The names on the way from the root of the disk. -/
abbrev Place := List Name

namespace Place

def texts (p : Place) : List Text :=
  p.map Text.ofBytes

def text (p : Place) : Text :=
  "/" ++ Text.join "/" p.texts

def parent (p : Place) : Place :=
  p.dropLast

end Place

/-- A tilde at the front stands for the home directory of the user. One with a name behind it, which
stands for another user's, is left as it is. -/
def expandHome (home : Place) : Text → Text
  | [.char '~'] => home.text
  | .char '~' :: .char '/' :: rest => (if home = [] then [] else home.text) ++ "/" ++ rest
  | path => path

/-- Greatest size of a name, in bytes. -/
def nameLimit : Nat := 255

/-- Greatest size of a path, in bytes. -/
def pathLimit : Nat := 4095

/-- A place to write at, found from a path by its text alone. Its text keeps a second slash at the
front of the path that names it. -/
structure Target where
  names : List Text
  doubled : Bool
  deriving DecidableEq, Repr

namespace Target

/-- Three slashes or more are one. -/
def isDoubled : Text → Bool
  | .char '/' :: .char '/' :: rest => rest.head? ≠ some (.char '/')
  | _ => false

def ofPath (here : Place) (path : Text) : Target :=
  ⟨absolute here.texts path, isDoubled path⟩

def text (t : Target) : Text :=
  (if t.doubled then "//" else "/") ++ Text.join "/" t.names

/-- Another name in the directory of a target. -/
def beside (t : Target) (name : Text) : Target :=
  { t with names := t.names.dropLast ++ [name] }

end Target

end AgentFleet.Disk

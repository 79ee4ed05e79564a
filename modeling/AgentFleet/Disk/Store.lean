import AgentFleet.Disk.Fault
import AgentFleet.Disk.Path
import AgentFleet.Entries

namespace AgentFleet.Disk

/-- A file holds a text, or bytes that are the encoding of none. -/
inductive Content
  | text (t : Text)
  | bytes (b : List UInt8)
  deriving DecidableEq, Repr

namespace Content

def ofBytes (bytes : List UInt8) : Content :=
  let t := Text.ofBytes bytes
  if Text.isWritable t then .text t else .bytes bytes

/-- Content with a text after it. -/
def add : Content → Text → Content
  | .text t, more => .text (t ++ more)
  | .bytes b, more => .ofBytes (b ++ (Text.bytes? more).getD [])

end Content

inductive Node
  | directory
  | file (content : Content)
  deriving DecidableEq, Repr

/-- What the disk refuses, for reasons of its own, of the steps of one replacement of a file. The
removal of a temporary file that is left over is not among them. -/
structure Upset where
  making : Option Refusal
  filling : Option Refusal
  moving : Option Refusal
  deriving DecidableEq, Repr

def Upset.none : Upset :=
  ⟨.none, .none, .none⟩

/-- Where paths start from: at the home directory after a tilde, and at the working directory if
they are relative. -/
structure Base where
  home : Place
  here : Place
  deriving DecidableEq, Repr

/-- All paths start from the root. -/
def Base.root : Base :=
  ⟨[], []⟩

/-- Nodes by their places. -/
structure Store where
  base : Base
  nodes : List (Place × Node)
  /-- What is going to upset replacements, each in its turn. Without an upset all goes well. -/
  upsets : List Upset
  deriving DecidableEq, Repr

namespace Store

/-- The root is there without an entry. -/
def node? (s : Store) (p : Place) : Option Node :=
  if p = [] then some .directory else s.nodes.lookup p

def put (s : Store) (p : Place) (n : Node) : Store :=
  { s with nodes := setEntry s.nodes p n }

def erase (s : Store) (p : Place) : Store :=
  { s with nodes := eraseEntry s.nodes p }

theorem node?_put (s : Store) (p q : Place) (n : Node) (h : p ≠ []) :
    (s.put p n).node? q = if q = p then some n else s.node? q := by
  by_cases hq : q = [] <;> by_cases hp : q = p <;> simp_all [node?, put, lookup_setEntry]

theorem node?_erase (s : Store) (p q : Place) (h : p ≠ []) :
    (s.erase p).node? q = if q = p then none else s.node? q := by
  by_cases hq : q = [] <;> by_cases hp : q = p <;> simp_all [node?, erase, lookup_eraseEntry]

/-- Directories from the root down to a place. -/
def withDirectories (s : Store) (p : Place) : Store :=
  (List.range (p.length + 1)).foldl (fun s n =>
    if (s.node? (p.take n)).isSome then s else s.put (p.take n) .directory) s

/-- A store with nothing in it but the directories that paths start from. -/
def empty (base : Base) : Store :=
  (withDirectories ⟨base, [], []⟩ base.home).withDirectories base.here

def expand (s : Store) (path : Text) : Text :=
  expandHome s.base.home path

def target (s : Store) (path : Text) : Target :=
  .ofPath s.base.here (s.expand path)

/-- Follow names from a place. All but the last must be directories; the last may be missing. -/
def follow (s : Store) : Place → List Name → Except Refusal Place
  | here, [] => .ok here
  | here, name :: rest =>
    match s.node? here with
    | some .directory =>
      if nameLimit < name.length then .error .nameTooLong
      else s.follow (step here name) rest
    | some (.file _) => .error .notDirectory
    | none => .error .noSuchFile

/-- Follow a path by these names. -/
def walk (s : Store) (path : List UInt8) (names : List Name) : Except Refusal Place :=
  if path = [] then .error .noSuchFile
  else if pathLimit < path.length then .error .nameTooLong
  else s.follow (if isAbsolute path then [] else s.base.here) names

/-- Where a path leads. -/
def locate (s : Store) (path : List UInt8) : Except Refusal Place :=
  s.walk path (names path ++ if asksDirectory path then [[PathUnit.dot]] else [])

/-- Where a path leads at which a file may be made. What asks for a directory is refused, once its
parent is found. -/
def locateFile (s : Store) (path : List UInt8) : Except Refusal Place := do
  if asksDirectory path then
    let _ ← s.walk path ((names path).dropLast ++ [[PathUnit.dot]])
    throw .isDirectory
  s.walk path (names path)

/-- Where a path leads at which a file may be written. -/
def locateWritable (s : Store) (path : List UInt8) : Except Refusal Place := do
  let p ← s.locateFile path
  if s.node? p = some .directory then throw .isDirectory
  return p

def find (s : Store) (path : List UInt8) : Except Refusal Node := do
  match s.node? (← s.locate path) with
  | some n => return n
  | none => throw .noSuchFile

/-- Nothing is at a path that the system does not take. -/
def hasPath (s : Store) (path : Text) : Bool :=
  (answered path s.find).toOption.isSome

def isFile (s : Store) (path : Text) : Bool :=
  match answered path s.find with
  | .ok (.file _) => true
  | _ => false

def read (s : Store) (path : Text) : Except Fault Content := do
  match ← answered path s.find with
  | .file c => return c
  | .directory => throw (.refused .isDirectory path)

/-- Names in a directory, in order. -/
def list (s : Store) (path : Text) : Except Fault (List Text) := do
  let p ← answered path s.locate
  match s.node? p with
  | some .directory =>
    let inside := s.nodes.filterMap fun (q, _) =>
      if q ≠ [] ∧ q.parent = p then q.getLast? else none
    return (inside.map Text.ofBytes).mergeSort Text.le
  | some (.file _) => throw (.refused .notDirectory path)
  | none => throw (.refused .noSuchFile path)

/-- Write a text after the content of a file, which is made if it is missing. -/
def append (s : Store) (path text : Text) : Except Fault Unit × Store :=
  match answered path s.locateWritable with
  | .error f => (.error f, s)
  | .ok p =>
    let before := match s.node? p with
      | some (.file c) => c
      | _ => .text []
    if Text.isWritable text then (.ok (), s.put p (.file (before.add text)))
    else (.error .notEncoded, s.put p (.file before))

/-- Let a file have a content, whether it was there or not. -/
def overwrite (s : Store) (path : Text) (c : Content) : Except Fault Store := do
  return s.put (← answered path s.locateWritable) (.file c)

def remove (s : Store) (path : Text) : Except Fault Store := do
  let p ← answered path s.locate
  match s.node? p with
  | some (.file _) => return s.erase p
  | some .directory => throw (.refused .isDirectory path)
  | none => throw (.refused .noSuchFile path)

def makeDirectory (s : Store) (path : Text) : Except Fault Store := do
  let p ← answered path fun bytes => s.walk bytes (names bytes)
  if (s.node? p).isSome then throw (.refused .exists path)
  return s.put p .directory

/-- Remove a directory with nothing in it, which goes by its own name. -/
def removeDirectory (s : Store) (path : Text) : Except Fault Store := do
  let inside ← s.list path
  if (names path).getLast? = some [PathUnit.dot] then throw (.refused .invalid path)
  if inside ≠ [] then throw (.refused .notEmpty path)
  return s.erase (← answered path s.locate)

/-- The names that temporary files get, in the order in which they are tried. -/
def temporaryName (n : Nat) : Text :=
  ".agents." ++ Text.ofNatPadded 8 n

def temporaryTries : Nat := 10000

/-- The first temporary file beside a target from the `n`th on that is neither there nor the target
itself. -/
def freshTarget? (s : Store) (t : Target) : (tries : Nat) → (n : Nat) → Option Target
  | 0, _ => none
  | k + 1, n =>
    let temporary := t.beside (temporaryName n)
    if temporary ≠ t && !s.hasPath temporary.text then some temporary
    else s.freshTarget? t k (n + 1)

/-- A file that was made for a while. -/
structure Temporary where
  path : Text
  place : Place
  deriving DecidableEq, Repr

/-- Go on, unless there is a refusal. -/
def unlessRefused (refusal : Option Refusal) (fault : Refusal → Fault) : Except Fault Unit :=
  match refusal with
  | some why => .error (fault why)
  | none => .ok ()

/-- Make an empty temporary file beside a target. -/
def makeTemporary (s : Store) (t : Target) (refusal : Option Refusal) :
    Except Fault (Temporary × Store) :=
  match s.freshTarget? t temporaryTries 0 with
  | none => .error .noTemporaryName
  | some temporary => do
    let place ← answered temporary.text s.locate
    unlessRefused refusal (.refused · temporary.text)
    return (⟨temporary.text, place⟩, s.put place (.file (.text [])))

/-- Let a file hold a text. -/
def fill (s : Store) (p : Place) (text : Text) (refusal : Option Refusal) : Except Fault Store := do
  if !Text.isWritable text then throw .notEncoded
  unlessRefused refusal .notWritten
  return s.put p (.file (.text text))

/-- Where a path leads that a file may take. -/
def landing (s : Store) (path : List UInt8) : Except Refusal Place := do
  let p ← s.locate path
  if p = [] then throw .busy
  if s.node? p = some .directory then throw .isDirectory
  return p

/-- Put a node at a place in place of another one, which is left if the places are one. -/
def moveNode (s : Store) (source p : Place) (n : Node) : Store :=
  if p = source then s else (s.put p n).erase source

/-- Let a file take another place, and lose its own. -/
def move (s : Store) (source : Temporary) (target : Text) (refusal : Option Refusal) :
    Except Fault Store := do
  let path ← systemPath target
  match s.landing path, s.node? source.place with
  | .ok p, some n =>
    unlessRefused refusal (.notMoved · source.path target)
    return s.moveNode source.place p n
  | .ok _, none => throw (.notMoved .noSuchFile source.path target)
  | .error why, _ => throw (.notMoved why source.path target)

/-- Replace the content of a file, whichever of its steps may be upset. Where one fails the
temporary file is removed. That is assumed to go well: the system could refuse it, too. -/
def replaceUpset (s : Store) (t : Target) (text : Text) (upset : Upset) :
    Except Fault Unit × Store :=
  match s.makeTemporary t upset.making with
  | .error f => (.error f, s)
  | .ok (temporary, made) =>
    match made.fill temporary.place text upset.filling >>=
        (·.move temporary t.text upset.moving) with
    | .ok s => (.ok (), s)
    | .error f => (.error f, made.erase temporary.place)

/-- Replace the content of a file, as the next upset lets it. -/
def replace (s : Store) (t : Target) (text : Text) : Except Fault Unit × Store :=
  { s with upsets := s.upsets.tail }.replaceUpset t text (s.upsets.head?.getD .none)

end Store

end AgentFleet.Disk

import AgentFleet.SystemError
import AgentFleet.Text.Encoding
import AgentFleet.Text.Quoted

namespace AgentFleet.Disk

/-- Why the disk refuses. -/
inductive Refusal
  | noSuchFile
  | exists
  | notDirectory
  | isDirectory
  | notEmpty
  | busy
  | invalid
  | nameTooLong
  /-- The device is full or broken, or the like. -/
  | other (number : Nat) (words : String)
  deriving DecidableEq, Repr

inductive Fault
  | refused (why : Refusal) (path : Text)
  | notWritten (why : Refusal)
  | notMoved (why : Refusal) (source target : Text)
  | noTemporaryName
  | notReadable (kind path : Text)
  | notFile (path : Text)
  /-- A path with a NUL in it leads nowhere. -/
  | nulInPath
  /-- A half of a pair is no part of a path or a content. -/
  | notEncoded
  deriving DecidableEq, Repr

def Refusal.number : Refusal → Nat
  | .noSuchFile => 2
  | .busy => 16
  | .exists => 17
  | .notDirectory => 20
  | .isDirectory => 21
  | .invalid => 22
  | .nameTooLong => 36
  | .notEmpty => 39
  | .other number _ => number

def Refusal.words : Refusal → String
  | .noSuchFile => "No such file or directory"
  | .busy => "Device or resource busy"
  | .exists => "File exists"
  | .notDirectory => "Not a directory"
  | .isDirectory => "Is a directory"
  | .invalid => "Invalid argument"
  | .nameTooLong => "File name too long"
  | .notEmpty => "Directory not empty"
  | .other _ words => words

def Refusal.message (why : Refusal) (words : Text) (paths : List Text) : Text :=
  SystemError.text (Text.ofNat why.number) words (paths.map Text.quoted)

def Fault.message : Fault → Text
  | .refused why path => why.message why.words [path]
  | .notWritten why => why.message why.words []
  | .notMoved why source target => why.message why.words [source, target]
  | .noTemporaryName => Refusal.exists.message "No usable temporary file name found" []
  | .notReadable kind path =>
    "Unable to access the file (not readable) -- " ++ kind ++ " -- '" ++ path ++ "'"
  | .notFile path => "Path is not to a file -- '" ++ path ++ "'"
  | .nulInPath => "embedded null byte"
  | .notEncoded => "the text has no encoding"

/-- The name of the kind of fault. -/
def Fault.name : Fault → String
  | .refused why _ | .notWritten why | .notMoved why _ _ => SystemError.name why.number
  | .noTemporaryName => SystemError.name Refusal.exists.number
  | .notReadable .. | .notFile _ => SystemError.commonName
  | .nulInPath => "ValueError"
  | .notEncoded => "UnicodeEncodeError"

/-- All faults are the system's but those that keep it from being asked. -/
def Fault.isSystem : Fault → Bool
  | .nulInPath | .notEncoded => false
  | _ => true

/-- A path as the system takes it. -/
def systemPath (path : Text) : Except Fault (List UInt8) :=
  match Text.bytes? path with
  | none => .error .notEncoded
  | some bytes => if bytes.contains 0 then .error .nulInPath else .ok bytes

/-- What comes of a question about a path, from what the system answers. -/
def answered (path : Text) (ask : List UInt8 → Except Refusal α) : Except Fault α := do
  (ask (← systemPath path)).mapError (.refused · path)

end AgentFleet.Disk

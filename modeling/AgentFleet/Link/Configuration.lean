import AgentFleet.Fault
import AgentFleet.Settings

namespace AgentFleet

/-- Accept a path only if it leads to a file. -/
def checkReadable (disk : Disk.Store) (kind path : Text) : Except Fault Unit :=
  match Disk.systemPath path with
  | .error f => .error (.of (.disk f))
  | .ok _ =>
    if !disk.hasPath path then .error (.of (.disk (.notReadable kind path)))
    else if !disk.isFile path then .error (.of (.disk (.notFile path)))
    else .ok ()

/-- The path with its tilde expanded, if it leads to a file. -/
def readableFile (disk : Disk.Store) (kind path : Text) : Except Fault Text := do
  checkReadable disk kind (disk.expand path)
  return disk.expand path

/-- The file of a private key, which need not be given. -/
def identityFile (disk : Disk.Store) (path : Setting) : Except Fault (Option Text) := do
  match ← path.toPath? with
  | none => return none
  | some p => return some (← readableFile disk "identity_file" p)

/-- What the library of connections makes of a configuration, from a file or from where it looks by
default. How it reads one is its own affair, and so is what it fails with. -/
abbrev Link.Loader := Disk.Store → Setting → Except Foreign Unit

/-- The file of a configuration. What was given in its place counts if it names none. -/
def configurationFile (disk : Disk.Store) (path : Setting) : Except Fault Setting := do
  match ← path.toPath? with
  | none => return path
  | some p => return .text (← readableFile disk "ssh_config" p)

/-- Configure connections. A file that is named for it is looked at before it is loaded. -/
def configure (load : Link.Loader) (disk : Disk.Store) (path : Setting) : Except Fault Unit := do
  (load disk (← configurationFile disk path)).mapError fun f => .of f.trouble

end AgentFleet

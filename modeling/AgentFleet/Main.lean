import AgentFleet.CommandLine.Reading

namespace AgentFleet

/-- The content of a file, if it can be read. -/
def contentOf (path : Text) : IO (Option Disk.Content) := do
  try
    let bytes ← IO.FS.readBinFile path.toString
    return some (.ofBytes bytes.toList)
  catch _ => return none

/-- A disk with the files of these paths, whatever directories they are in. -/
def diskOf (paths : List Text) : IO Disk.Store := do
  let mut disk := Disk.Store.empty .root
  for path in paths do
    if let some c ← contentOf path then
      let place : Disk.Place := Disk.absolute [] ((Text.bytes? path).getD [])
      disk := (disk.withDirectories place.parent).put place (.file c)
  return disk

def Invocation.paths (i : Invocation) : List Text :=
  [i.agentsFile.getD Default.agentsFile,
    (i.settingsFile.getD .nothing).getD Default.settingsFile, Default.credentialsFile,
    Default.balancerFile]

/-- The situation at the start, with nobody who answers. -/
def Situation.alone (disk : Disk.Store) : Situation where
  disk := disk
  roster := ⟨Default.agentsFile, []⟩
  service := fun _ => []
  aws := fun _ => []
  sessions := []
  releasable _ := true
  hosts := fun _ => .sound
  configuration := fun _ _ => .ok ()
  cancellation := .never
  level := .info
  history := []

def showEvent : Event → IO Unit
  | .printed line => IO.println line.toString
  | .logged severity text => IO.println (severity.name ++ " - " ++ text.toString)
  | _ => pure ()

/-- Write the files whose texts are not those of the disk before. -/
def writeBack (before after : Disk.Store) (paths : List Text) : IO Unit := do
  for path in paths do
    match after.read path with
    | .ok (.text t) =>
      if (before.read path).toOption ≠ some (.text t) then
        IO.FS.writeFile path.toString t.toString
    | _ => pure ()

def runInvocation (i : Invocation) : IO UInt32 := do
  let disk ← diskOf i.paths
  let (code, after) := match i.run (.alone disk) with
    | .ok code s => (code, s)
    | .error f s => (1, s.record (.printed (f.trouble.name ++ ": " ++ f.message)))
  after.events.forM showEvent
  writeBack disk after.disk i.paths
  return code.toUInt32

end AgentFleet

open AgentFleet in
def main (arguments : List String) : IO UInt32 := do
  match CommandLine.read (arguments.map Text.ofString) with
  | .ok i => runInvocation i
  | .error e =>
    e.report?.forM fun report => IO.eprintln report.toString
    return e.code.toUInt32

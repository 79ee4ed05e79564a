import AgentFleet.Text.Basic

namespace AgentFleet.SystemError

/-- The numbers of errors that go by a name of their own. -/
def names : List (Int × String) := [
  (1, "PermissionError"), (2, "FileNotFoundError"), (3, "ProcessLookupError"),
  (4, "InterruptedError"), (10, "ChildProcessError"), (11, "BlockingIOError"),
  (13, "PermissionError"), (17, "FileExistsError"), (20, "NotADirectoryError"),
  (21, "IsADirectoryError"), (32, "BrokenPipeError"), (103, "ConnectionAbortedError"),
  (104, "ConnectionResetError"), (108, "BrokenPipeError"), (110, "TimeoutError"),
  (111, "ConnectionRefusedError"), (114, "BlockingIOError"), (115, "BlockingIOError")]

/-- The name that all other errors share. -/
def commonName : String := "OSError"

def name (number : Int) : String :=
  (names.lookup number).getD commonName

/-- Paths stand as they are to be shown, what is moved before where to. -/
def text (number words : Text) (paths : List Text) : Text :=
  let about : Text := if paths = [] then [] else ": " ++ Text.join " -> " paths
  "[Errno " ++ number ++ "] " ++ words ++ about

end AgentFleet.SystemError

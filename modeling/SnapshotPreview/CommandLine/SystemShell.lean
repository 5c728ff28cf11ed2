import SnapshotPreview.Environment
import SnapshotPreview.FileTree

/-!
# The shell of the system

What the program asks of the shell that runs the commands of a configuration.
-/

namespace SnapshotPreview

/-- What a command has done that was run: what it has printed, the status it has ended with, and the
files after it. -/
structure CommandOutput where
  files : FileTree
  stdout : String
  stderr : String
  status : Nat
deriving DecidableEq, Repr

/-- A shell that runs commands. -/
class SystemShell where
  /-- What comes of a command, if the shell can be started with it. -/
  output? : Environment → FileTree → String → Option CommandOutput

end SnapshotPreview

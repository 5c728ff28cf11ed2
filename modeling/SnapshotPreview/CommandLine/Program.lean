import SnapshotPreview.CommandLine.Requests
import SnapshotPreview.CommandLine.Shell
import SnapshotPreview.Toml.Parser
import SnapshotPreview.Toml.Printer

/-!
# The program as it runs

The library of documents and the shell that the program runs with.
-/

namespace SnapshotPreview.CommandLine

/-- Documents are written whatever their numbers are. -/
instance : Toml.Library where
  write sheet := some sheet.write
  read := Toml.parse

instance : SystemShell where
  output? e files command :=
    if Shell.isPassable command then some (Shell.run e files command) else none

end SnapshotPreview.CommandLine

import SnapshotPreview.CommandLine.Program

/-!
# The program on the files of a machine

Gathers the files and variables that a request may need, runs it on them, and stores what it has
changed.
-/

namespace SnapshotPreview.CommandLine

/-- What stands at a path. -/
def readEntry? (path : String) : IO (Option FileEntry) := do
  try
    discard (IO.FS.realPath (path ++ "/."))
    return some .directory
  catch _ =>
    try return some (.file (← IO.FS.readBinFile path).data.toList)
    catch _ => return none

/-- The beginnings of a path, the shortest first. -/
def beginnings (path : String) : List String :=
  let steps := Text.splitOn '/' path.toList
  ((List.range steps.length).map fun n =>
    String.ofList (List.intercalate ['/'] (steps.take (n + 1)))).filter (· ≠ "")

/-- Adds what stands on the way to a path and at it. -/
def gather (files : FileTree) (path : String) : IO FileTree := do
  let mut files := files
  for beginning in beginnings path do
    match files.resolve beginning with
    | .error _ => return files
    | .ok place =>
      if (files.entry? place).isNone then
        if let some entry ← readEntry? beginning then
          files := files.put place entry
  return files

/-- Adds what stands in the working directory, which a command that is run can name by patterns. -/
def gatherNames (files : FileTree) : IO FileTree := do
  let mut files := files
  for entry in ← (← IO.currentDir).readDir do
    files ← gather files entry.fileName
  return files

/-- The tree with the working directory and the directories above it. -/
def workingTree : IO FileTree := do
  let path := toString (← IO.currentDir)
  let steps := (Text.splitOn '/' path.toList).filter (· ≠ [])
  let files : FileTree := (List.range steps.length).foldl
    (fun files n => files.put (steps.take (n + 1)) .directory) {}
  return { files with current := steps }

/-- The variables with the given names that are set. -/
def readVariables (names : List String) : IO Environment := do
  let mut values := []
  for name in names do
    if let some value ← IO.getEnv name then
      values := (name, value) :: values
  return { values }

/-- All words of a text that could name a variable. -/
def possibleNames (text : String) : List String :=
  let blanked := text.toList.map fun c => if Environment.isNameChar c then c else ' '
  ((Text.splitOn ' ' blanked).filter (· ≠ [])).map String.ofList

/-- All of the standard input. -/
partial def readInput (input : IO.FS.Stream) (before : String) : IO String := do
  let line ← input.getLine
  if line.isEmpty then return before else readInput input (before ++ line)

/-- Stores what differs from before. -/
def store (before after : FileTree) : IO Unit := do
  for (place, entry) in after.entries do
    if before.entry? place ≠ some entry then
      let path := "/" ++ String.ofList (List.intercalate ['/'] place)
      match entry with
      | .directory => IO.FS.createDirAll path
      | .file bytes => IO.FS.writeBinFile path ⟨bytes.toArray⟩

/-- Runs a request on the files of the machine. -/
def runRequest (r : Request) (arguments : List String) : IO Outcome := do
  let home ← readVariables ["HOME"]
  let files ← (r.paths home).foldlM gather (← workingTree)
  let files ← match r.command with
    | .update _ _ _ true => gatherNames files
    | _ => pure files
  let text := (files.readText (r.configPath home)).toOption.getD ""
  let e ← readVariables ("HOME" :: possibleNames text)
  let input ← match r.command with
    | .live _ => readInput (← IO.getStdin) ""
    | _ => pure ""
  let outcome := run files e input arguments
  store files outcome.files
  return outcome

end SnapshotPreview.CommandLine

open SnapshotPreview.CommandLine in
/-- Runs the program with its arguments. -/
def main (arguments : List String) : IO UInt32 := do
  let outcome ← match parse arguments with
    | .ok r => runRequest r arguments
    | .error stop => pure (stop.outcome {})
  IO.print outcome.stdout
  IO.eprint outcome.stderr
  return outcome.exitCode.toUInt32

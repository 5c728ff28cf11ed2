import SnapshotPreview.CommandLine.Arguments
import SnapshotPreview.CommandLine.SystemShell
import SnapshotPreview.Config
import SnapshotPreview.Json.Printer
import SnapshotPreview.Lens
import SnapshotPreview.Preview.Burst
import SnapshotPreview.Preview.WholeFile
import SnapshotPreview.Session

/-!
# Requests

What each command prints and stores, given the files around it and what it reads from its input. The
library of documents and the shell that runs commands are those of the system.
-/

namespace SnapshotPreview.CommandLine

/-- Why a command fails. -/
inductive Failure where
  | configMissing (path : String)
  | config (cause : ConfigError)
  | sourceUnreadable (path : String)
  | caret (cause : CaretError)
  | update (cause : UpdateError)
  | notStarted (command : String)
  | commandFailed (command : String) (status : Nat)
  | unwritable (cause : FileError)
deriving DecidableEq, Repr

/-- The message of a failure. -/
def Failure.message : Failure → String
  | configMissing path => "Config file '" ++ path ++ "' not found"
  | config cause => cause.message
  | sourceUnreadable path => "Failed to read '" ++ path ++ "'"
  | caret cause => cause.message
  | update cause => cause.message
  | notStarted command => "Failed to run '" ++ command ++ "'"
  | commandFailed command status =>
    "'" ++ command ++ "' exited with exit status: " ++ toString status
  | unwritable cause => (LoadError.unreadable cause).message

/-- Where a command runs. -/
structure Setting where
  environment : Environment
  config : Config
  /-- The directory of the project. -/
  root : String
deriving DecidableEq, Repr

/-- What a command has done: what it has printed, and the files after it. -/
structure Effect where
  files : FileTree
  stdout : String := ""
  stderr : String := ""
  failure : Option Failure := none
deriving DecidableEq, Repr

namespace Setting

/-- The settings of all previews. -/
def options (s : Setting) : PageOptions := s.config.pageOptions s.root

/-- The text of the file that a command is about. -/
def source (files : FileTree) (path : String) : Except Failure String :=
  match files.readText path with
  | .ok text => .ok text
  | .error _ => .error (.sourceUnreadable path)

/-- The test around a caret in a file. -/
def resolve (s : Setting) (files : FileTree) (path : String) (c : Caret) :
    Except Failure Resolution := do
  let text ← source files path
  match c.resolve text with
  | .error cause => throw (.caret cause)
  | .ok offset =>
    let session : Session := { vocabulary := s.config.vocabulary }
    return (session.resolve (Text.bytesOf text) offset).1

/-- A location as JSON. -/
def locationText (l : Location) : String :=
  Json.pretty (.object
    [("test_name",
        match l.testName with
        | some name => .string name
        | none => .null),
      ("folders", .array (l.folders.map .string)),
      ("snapshot_names", .array (l.snapshotNames.map .string))])

/-- Prints a line. -/
def print (files : FileTree) (text : String) : Effect := { files, stdout := text ++ "\n" }

/-- Prints a preview, or stores it in a file. -/
def emit (files : FileTree) (html : String) : Option String → Effect
  | none => print files html
  | some path =>
    let change := files.save path html
    { files := change.files, failure := change.failure.map fun cause => .unwritable cause }

/-- Prints the location of the test around a caret. -/
def showLocation (files : FileTree) (r : Resolution) : Effect :=
  match r.location? with
  | some l => print files (locationText l)
  | none => print files Page.noTestFound

/-- Shows the stored snapshots of a test. -/
def showStored (s : Setting) (files : FileTree) (path : String) (out : Option String)
    (r : Resolution) : Effect :=
  let preview : StoredPreview := { options := s.options, savesPage := s.config.saveHtml }
  let (html, _, files) := preview.view files (some path) r
  emit files html out

/-- Shows all snapshots of a file. -/
def showFile (s : Setting) (files : FileTree) (path : String) (out : Option String) : Effect :=
  let preview : WholeFilePreview := { options := s.options }
  emit files (preview.view files (some path)).1 out

/-- Shows the story of a test. -/
def showStory (s : Setting) (files : FileTree) (r : Resolution) : Effect :=
  let styles := Path.join (s.config.publicDirectory s.root) "styles"
  let preview : StoryPreview :=
    { server := s.config.storyServerUrl, stylesheet := Path.join styles "luis.css" }
  print files (preview.view r)

/-- The location that snapshots are recorded anew for, and the command that does so. -/
def updateCommand (s : Setting) (path : String) (scope : UpdateScope) (r : Resolution) :
    Except Failure (Location × String) := do
  match r.location? with
  | none => throw (.update .unknownTest)
  | some l =>
    match Update.command (s.config.updateTemplate scope) scope l path with
    | .ok command => return (l, command)
    | .error cause => throw (.update cause)

/-- Says how many tests have passed when snapshots were recorded anew. -/
def report (scope : UpdateScope) (l : Location) (output : CommandOutput) : Effect :=
  match Update.target scope l with
  | .error cause => { files := output.files, failure := some (.update cause) }
  | .ok target =>
    match Update.passingCount output.stdout with
    | some passing => print output.files (Update.summary passing target)
    | none => { files := output.files, stdout := output.stdout }

/-- Runs the command that records snapshots anew. -/
def runUpdate [SystemShell] (s : Setting) (files : FileTree) (scope : UpdateScope) (l : Location)
    (command : String) : Effect :=
  match SystemShell.output? s.environment files command with
  | none => { files, failure := some (.notStarted command) }
  | some output =>
    if output.status = 0 then report scope l output
    else
      { files := output.files, stderr := output.stderr,
        failure := some (.commandFailed command output.status) }

/-- A lens on a line of its own. Lines and columns start at one. -/
def lensLine (l : Lens) : String :=
  let kind :=
    match l.kind with
    | .test => "Test"
    | .suite => "SuiteOrStory"
    | .assertion => "NamedAssertion"
  toString (l.line + 1) ++ ":" ++ toString (l.firstColumn + 1) ++ "-" ++
    toString (l.lastColumn + 1) ++ " " ++ kind ++ "\n"

/-- Prints the places of a text where snapshots can be recorded anew. -/
def showLenses (s : Setting) (files : FileTree) (text : String) : Effect :=
  let lenses := Lens.suites text s.config.vocabulary ++ Lens.tests text s.config.vocabulary
  { files, stdout := String.join (lenses.map lensLine) }

/-- A line without the carriage return at its end. -/
def dropReturn (line : List Char) : List Char :=
  if line.getLast? = some '\r' then line.dropLast else line

/-- The lines of an input without their ends. What follows the last line feed is a line of its own
unless it is empty. -/
def inputLines (input : String) : List String :=
  let pieces := Text.splitOn '\n' input.toList
  let lines := pieces.dropLast.map dropReturn ++ (pieces.getLast?.filter (· ≠ [])).toList
  lines.map String.ofList

/-- Shows what running tests send, all of which arrives at once. -/
def showLive (s : Setting) (files : FileTree) (path input : String) : Effect :=
  let session : LiveSession := { preview := { options := s.options }, file := path }
  let (printed, session) := (inputLines input).foldl
    (fun (printed, session) line =>
      let (settled, session) := LiveSession.feed session line 0
      (printed ++ (settled.map (· ++ "\n")).getD "", session))
    ("", session)
  { files, stdout := printed ++ session.finish.1 ++ "\n" }

/-- Runs a command up to a failure before it has done anything. -/
def perform [SystemShell] (s : Setting) (files : FileTree) (input : String) :
    Command → Except Failure Effect
  | .resolve file caret => return showLocation files (← s.resolve files file caret)
  | .render file caret out => return s.showStored files file out (← s.resolve files file caret)
  | .previewSnap file out => return s.showFile files file out
  | .story file caret => return s.showStory files (← s.resolve files file caret)
  | .update file caret suite run => do
    let scope : UpdateScope := if suite then .file else .test
    let (l, command) ← s.updateCommand file scope (← s.resolve files file caret)
    return if run then s.runUpdate files scope l command else print files command
  | .lenses file => return s.showLenses files (← source files file)
  | .live file => return s.showLive files file input

end Setting

/-- The configuration of a request. One that is named must be there. -/
def loadConfig [Toml.Library] (files : FileTree) (e : Environment) :
    Option String → Except Failure Config
  | some path =>
    match Config.load files e path with
    | .ok (some c) => .ok c
    | .ok none => .error (.configMissing path)
    | .error cause => .error (.config cause)
  | none =>
    match Config.load files e (Config.userPath e) with
    | .ok c => .ok (c.getD {})
    | .error cause => .error (.config cause)

/-- Where the configuration of a request is stored. -/
def Request.configPath (r : Request) (e : Environment) : String :=
  r.config.getD (Config.userPath e)

/-- The files that a request may read or write. -/
def Request.paths (r : Request) (e : Environment) : List String :=
  let artifacts := Artifacts.ofSource r.command.file
  [r.configPath e, r.command.file, artifacts.snapshotFile, artifacts.styleFile, artifacts.page] ++
    r.command.out?.toList

/-- What has come of running the program. -/
structure Outcome where
  exitCode : Nat
  stdout : String
  stderr : String
  files : FileTree
deriving DecidableEq, Repr

/-- How the program is used. -/
def usageText : String :=
  "Preview the stored snapshots of the test under a caret.\n\n" ++
    "Usage: snapview [--config <PATH>] [--root <PATH>] <COMMAND> <FILE> [OPTIONS]\n\n" ++
    "Commands: resolve, render, preview-snap, story, update, lenses, live\n"

/-- The name and the version of the program. -/
def versionText : String := "snapview 0.1.0\n"

/-- The outcome of arguments that ask for no command. -/
def Stop.outcome (files : FileTree) : Stop → Outcome
  | .help => { exitCode := 0, stdout := usageText, stderr := "", files }
  | .version => { exitCode := 0, stdout := versionText, stderr := "", files }
  | .usage => { exitCode := 2, stdout := "", stderr := usageText, files }

/-- The outcome of a command. A failure goes to the error output after what the command has said
there. -/
def Effect.outcome (e : Effect) : Outcome :=
  match e.failure with
  | none => { exitCode := 0, stdout := e.stdout, stderr := e.stderr, files := e.files }
  | some failure =>
    { exitCode := 1, stdout := e.stdout
      stderr := e.stderr ++ "Error: " ++ failure.message ++ "\n", files := e.files }

section
variable [Toml.Library] [SystemShell]

/-- Runs a request. -/
def perform (files : FileTree) (e : Environment) (input : String) (r : Request) : Effect :=
  let result := do
    let config ← loadConfig files e r.config
    Setting.perform { environment := e, config, root := r.root } files input r.command
  match result with
  | .ok effect => effect
  | .error failure => { files, failure := some failure }

/-- Runs the program. -/
def run (files : FileTree) (e : Environment) (input : String) (arguments : List String) : Outcome :=
  match parse arguments with
  | .ok r => (perform files e input r).outcome
  | .error stop => stop.outcome files

end

end SnapshotPreview.CommandLine

import SnapshotPreview.CommandLine.Shell.Echo
import SnapshotPreview.CommandLine.Shell.Parser
import SnapshotPreview.CommandLine.Shell.Redirections
import SnapshotPreview.CommandLine.SystemShell

/-!
# A small shell

Runs the commands that configurations are made of. Lists, pipelines, compound commands, functions
and redirections are all there, but of the commands themselves only those that print, end the shell
or do nothing. All others are not found.
-/

namespace SnapshotPreview.Shell

/-! ## Commands that are built in -/

/-- A status to exit with: a number below `2 ^ 31`, of which eight bits count. -/
def exitStatus? (code : List Char) : Option Nat :=
  let (negative, digits) := Arithmetic.splitSign (code.dropWhile Arithmetic.isSpace)
  let n := (digits.takeWhile Char.isDigit).foldl (fun n c => n * 10 + digit c) 0
  if digits.head?.any Char.isDigit &&
      (digits.dropWhile Char.isDigit).all Arithmetic.isSpace &&
      n < Nat.pow 2 31 && (n = 0 || !negative) then
    some (n % 256)
  else none

/-- Ends the shell, with the status of the last command or a given one. -/
def exit : List (List Char) → Action Unit
  | [] => throw ()
  | code :: _ =>
    match exitStatus? code with
    | some status => stop status
    | none => fail ("exit: Illegal number: " ++ toText code)

/-- Prints arguments. -/
def printEcho (arguments : List (List Char)) : Action Unit := do
  if ← write 1 (echo arguments) then setStatus 0
  else
    complain "echo: echo: I/O error"
    setStatus 1

/-- Does nothing but say that a command cannot be run. -/
def refuse (name : List Char) : Action Unit := do
  let isThere := (name.contains '/' && (← get).files.contains (toText name))
  complain (toText name ++
    (if isThere ∨ name.isEmpty then ": Permission denied" else ": not found"))
  setStatus (if isThere then 126 else 127)

/-! ## Commands -/

/-- Sets variables, one after the other. -/
def assignAll (perform : List Command → Action Unit) (assignments : List (List Char × Word)) :
    Action Unit :=
  assignments.forM fun (name, word) => do setVariable name (← expandText perform word)

/-- Runs an action with variables, which are as before after it. -/
def withVariables (perform : List Command → Action Unit) (assignments : List (List Char × Word))
    (action : Action Unit) : Action Unit := do
  let before := (← get).values
  assignAll perform assignments
  action
  assignments.forM fun (name, _) =>
    modify fun s =>
      { s with values :=
          match Assoc.get? name before with
          | some value => Assoc.set name value s.values
          | none => Assoc.erase name s.values }

/-- How many calls of functions can be nested. -/
def maxCalls : Nat := 1000

/-- Runs the body of a function with its arguments. -/
def call (execute : Command → Action Unit) (arguments : List (List Char)) (body : Command) :
    Action Unit := do
  let before ← get
  if before.calls = maxCalls then
    fail ("Maximum function recursion depth (" ++ toString maxCalls ++ ") reached")
  modify fun s => { s with arguments, calls := before.calls + 1 }
  execute body
  modify fun s => { s with arguments := before.arguments, calls := before.calls }

/-- Runs a simple command. A redirection that fails ends the shell for a command that is part of
it. -/
def runSimple (execute : Command → Action Unit) (perform : List Command → Action Unit)
    (assignments : List (List Char × Word)) (words : List Word)
    (redirections : List Redirection) : Action Unit := do
  modify fun s => { s with innerStatus := 0 }
  let fields ← expandAll perform words
  withRedirections perform redirections fun made => do
    match fields with
    | [] =>
      if made then
        assignAll perform assignments
        setStatus (← get).innerStatus
      else setStatus 2
    | name :: arguments =>
      let word := toText name
      if word = "exit" ∨ word = ":" then
        if !made then stop 2
        assignAll perform assignments
        if word = "exit" then exit arguments else setStatus 0
      else if made then
        let s ← get
        withVariables perform assignments
          (match Assoc.get? name s.functions, word with
            | some body, _ => call execute arguments body
            | none, "echo" => printEcho arguments
            | none, "true" => setStatus 0
            | none, "false" => setStatus 1
            | none, _ => refuse name)
      else setStatus 2

/-- Runs the stages of a pipeline, all of which begin with a status. All but the last print for
nobody. -/
def runStages (execute : Command → Action Unit) (status : Nat) : List Command → Action Unit
  | [] => return
  | [last] => do
    setStatus status
    within (execute last)
  | c :: rest => do
    setStatus status
    within (withDescriptor 1 .nowhere (execute c))
    runStages execute status rest

/-- Runs a body while, or until, a test succeeds, at most `fuel` times. The status is that of the
body that has been run last. -/
def runLoop (isUntil : Bool) (test body : Action Unit) : Nat → (last : Nat) → Action Unit
  | 0, last => setStatus last
  | fuel + 1, last => do
    test
    if ((← get).status = 0) = isUntil then setStatus last
    else
      body
      runLoop isUntil test body fuel (← get).status

/-- Runs a body for each value of a variable. The status is that of the body that has been run
last. -/
def runEach (name : List Char) (body : Action Unit) : (last : Nat) → List (List Char) → Action Unit
  | last, [] => setStatus last
  | _, value :: rest => do
    setVariable name value
    body
    runEach name body (← get).status rest

/-- Finds the body of the first case with a pattern that the text matches. -/
def findCase (perform : List Command → Action Unit) (text : List Char) :
    List (List Word × List Command) → Action (List Command)
  | [] => return []
  | (patterns, body) :: rest => do
    let found ← patterns.foldlM
      (fun found pattern => do
        if found then return true else return (← expandPattern perform pattern).isMatch text)
      false
    if found then return body else findCase perform text rest

/-- How often a body is repeated at most. -/
def maxRepetitions : Nat := 100000

/-- Runs a command, given how the commands within it are run. -/
def runCommand (execute : Command → Action Unit) (c : Command) : Action Unit := do
  let perform (commands : List Command) : Action Unit := commands.forM execute
  match c with
  | .simple assignments words redirections =>
    runSimple execute perform assignments words redirections
  | .pipeline stages => runStages execute (← get).status stages
  | .negation c =>
    execute c
    setStatus (if (← get).status = 0 then 1 else 0)
  | .conjunction first second =>
    execute first
    if (← get).status = 0 then execute second
  | .disjunction first second =>
    execute first
    if (← get).status ≠ 0 then execute second
  | .background c => inBackground (execute c)
  | .group body => perform body
  | .subshell body => within (perform body)
  | .conditional test yes no =>
    perform test
    match if (← get).status = 0 then yes else no with
    | [] => setStatus 0
    | body => perform body
  | .loop isUntil test body => runLoop isUntil (perform test) (perform body) maxRepetitions 0
  | .each name words body =>
    let values ← match words with
      | some words => expandAll perform words
      | none => pure (← get).arguments
    runEach name (perform body) 0 values
  | .select subject cases =>
    let text ← expandText perform subject
    match ← findCase perform text cases with
    | [] => setStatus 0
    | body => perform body
  | .function name body =>
    modify fun s => { s with functions := Assoc.set name body s.functions }
    setStatus 0
  | .redirected c redirections =>
    withRedirections perform redirections fun made => if made then execute c else setStatus 2

/-- Runs a command in which at most `depth` are nested. -/
def executeUpTo : Nat → Command → Action Unit
  | 0 => fun _ => return
  | depth + 1 => runCommand (executeUpTo depth)

/-- How deeply commands can be nested, with those of the functions they call. -/
def maxDepth : Nat := 100000

/-- Runs the lines of a text, at most `fuel` of them. A line is only read when those before it have
been run. -/
def runLines : Nat → List Char → Action Unit
  | 0, _ => return
  | fuel + 1, cs =>
    match readLine cs with
    | none => fail "Syntax error"
    | some (commands, rest) => do
      commands.forM (executeUpTo maxDepth)
      if !rest.isEmpty then runLines fuel rest

/-- Runs a text. One that looks like an option is not taken for commands. -/
def run (e : Environment) (files : FileTree) (text : String) : CommandOutput :=
  let start : State := { files, values := initialVariables e }
  let cs := ofText text
  let isOption := cs.head? = some '-' || cs.head? = some '+'
  let after := start.after (if isOption then stop 2 else runLines (cs.length + 1) cs)
  { files := after.files
    stdout := toText (after.printed 0)
    stderr := toText (after.printed 1)
    status := after.status }

/-- A shell can be given the command: it is shorter than 128 KiB and has no NUL. -/
def isPassable (command : String) : Bool :=
  command.utf8ByteSize < 131072 && !command.toList.contains '\x00'

end SnapshotPreview.Shell

import SnapshotPreview.Assoc
import SnapshotPreview.CommandLine.Shell.Syntax
import SnapshotPreview.Environment
import SnapshotPreview.FileTree

/-!
# What a shell knows

The variables, functions and open descriptors of a shell, the files around it, and what it has
printed so far.
-/

namespace SnapshotPreview.Shell

/-- Where a descriptor leads. -/
inductive Sink where
  /-- Text that is kept: that printed by the shell, its errors, and what is printed for words. -/
  | output (number : Nat)
  /-- Where all that is written is lost. -/
  | nowhere
  /-- Where nothing can be written. -/
  | readOnly
  /-- One of the files that have been opened. -/
  | file (number : Nat)
deriving DecidableEq, Repr

/-- A file that has been opened for writing. -/
structure OpenFile where
  place : Place
  /-- Where the next text goes, which otherwise goes to the end. -/
  position : Option Nat
deriving DecidableEq, Repr

/-- The bytes of a file after others have been written to it. What lies between is zero. -/
def OpenFile.written (f : OpenFile) (before more : List UInt8) : List UInt8 :=
  let start := f.position.getD before.length
  before.take start ++ List.replicate (start - before.length) 0 ++ more ++
    before.drop (start + more.length)

/-- What has been printed. -/
structure Output where
  text : List Char := []
  /-- The text that commands in the background print when the shell has nothing else to do. -/
  later : List Char := []
deriving DecidableEq, Repr

/-- All that is printed in the end. -/
def Output.all (o : Output) : List Char := o.text ++ o.later

/-- The output when all commands in the background have ended. -/
def Output.settle (o : Output) : Output := { text := o.all }

/-- The output in which the text since another one is printed later. Commands that have begun last
print first. -/
def Output.postpone (before after : Output) : Output :=
  { text := before.text, later := (after.text.drop before.text.length) ++ after.later }

/-- A shell between two commands. -/
structure State where
  files : FileTree
  values : List (List Char × List Char)
  functions : List (List Char × Command) := []
  /-- The arguments of the function that runs. -/
  arguments : List (List Char) := []
  /-- How many calls of functions are nested. -/
  calls : Nat := 0
  /-- The status of the last command. -/
  status : Nat := 0
  /-- The status of the last commands within a word of this command. -/
  innerStatus : Nat := 0
  descriptors : List (Nat × Sink) := [(0, .readOnly), (1, .output 0), (2, .output 1)]
  /-- The files that have been opened, by their numbers. -/
  opened : List OpenFile := []
  /-- The outputs by their numbers. -/
  outputs : List Output := [{}, {}]

/-- Something a shell does. It may end the shell with the status that it leaves. -/
abbrev Action := EStateM Unit State

/-- Leaves a status. -/
def setStatus (status : Nat) : Action Unit := modify fun s => { s with status }

/-- Ends the shell with a status. -/
def stop {α : Type} (status : Nat) : Action α := do
  setStatus status
  throw ()

/-! ## Output -/

/-- Adds text to where it goes. -/
def State.write (s : State) (text : List Char) : Sink → State
  | .nowhere | .readOnly => s
  | .output number =>
    { s with outputs := s.outputs.modify number fun o => { o with text := o.text ++ text } }
  | .file number =>
    match s.opened[number]? with
    | none => s
    | some f =>
      let before :=
        match s.files.entry? f.place with
        | some (.file bytes) => bytes
        | _ => []
      { s with
        files := s.files.put f.place (.file (f.written before (toBytes text)))
        opened := s.opened.modify number fun f =>
          { f with position := f.position.map (· + text.length) } }

/-- Writes text to a descriptor and says whether that can be done. Nothing at all can be written
anywhere. -/
def write (descriptor : Nat) (text : List Char) : Action Bool := do
  let s ← get
  if text.isEmpty then return true
  match Assoc.get? descriptor s.descriptors with
  | none | some .readOnly => return false
  | some sink => set (s.write text sink); return true

/-- Writes a message to the errors. -/
def complain (message : String) : Action Unit :=
  discard (write 2 (ofText ("sh: 1: " ++ message ++ "\n")))

/-- Ends the shell with a message. -/
def fail {α : Type} (message : String) : Action α := do
  complain message
  stop 2

/-- All that has been printed to an output in the end. -/
def State.printed (s : State) (number : Nat) : List Char :=
  match s.outputs[number]? with
  | some o => o.all
  | none => []

/-! ## Shells within a shell -/

/-- What an action leaves, whether or not it ends the shell. -/
def State.after (s : State) (action : Action Unit) : State :=
  match action s with
  | .ok _ after => after
  | .error _ after => after

/-- Runs an action in a shell of its own, of which only files, outputs and the status remain. While
the shell waits for it, the commands in the background end. -/
def within (action : Action Unit) : Action Unit := fun s =>
  let after := s.after action
  .ok ()
    { s with
      files := after.files, opened := after.opened
      outputs := after.outputs.map Output.settle, status := after.status }

/-- Runs an action in a shell of its own for which nobody waits. -/
def inBackground (action : Action Unit) : Action Unit := fun s =>
  let after := s.after action
  .ok ()
    { s with
      files := after.files, opened := after.opened
      outputs := s.outputs.zipWith Output.postpone after.outputs, status := 0 }

/-- Runs an action with a descriptor that leads elsewhere. -/
def withDescriptor (descriptor : Nat) (sink : Sink) (action : Action Unit) : Action Unit := do
  modify fun s => { s with descriptors := Assoc.set descriptor sink s.descriptors }
  action

/-- What an action prints in a shell of its own. -/
def capture (action : Action Unit) : Action (List Char) := do
  let s ← get
  let number := s.outputs.length
  set { s with outputs := s.outputs ++ [({} : Output)] }
  within (withDescriptor 1 (.output number) action)
  let after ← get
  set { after with
    outputs := after.outputs.take number, status := s.status, innerStatus := after.status }
  return after.printed number

/-! ## Variables -/

/-- The decimal digits of a number. -/
def digitsOf (n : Nat) : List Char := Nat.toDigits 10 n

/-- A number that an argument is known by. -/
def number? (cs : List Char) : Option Nat :=
  if !cs.isEmpty && cs.all Char.isDigit then
    some (cs.foldl (fun n c => n * 10 + digit c) 0)
  else none

/-- The value of a variable, if it is set. -/
def State.value? (s : State) (name : List Char) : Option (List Char) :=
  match name with
  | ['?'] => some (digitsOf s.status)
  | ['#'] => some (digitsOf s.arguments.length)
  | ['$'] => some ['1']
  | ['-'] => some []
  | ['!'] => none
  | ['@'] | ['*'] => some (List.intercalate [' '] s.arguments)
  | _ =>
    match number? name with
    | some 0 => some ['s', 'h']
    | some n => s.arguments[n - 1]?
    | none => Assoc.get? name s.values

/-- Sets a variable. -/
def setVariable (name value : List Char) : Action Unit := do
  if isName name then
    modify fun s => { s with values := Assoc.set name value s.values }
  else fail (toText name ++ ": bad variable name")

/-- The characters at which values are cut into fields. -/
def State.separators (s : State) : List Char :=
  (Assoc.get? "IFS".toList s.values).getD [' ', '\t', '\n']

/-- The variables of a new shell. -/
def initialVariables (e : Environment) : List (List Char × List Char) :=
  let own : List (String × String) :=
    [("IFS", " \t\n"), ("LINENO", "1"), ("OPTIND", "1"), ("PS1", "$ "), ("PS2", "> "),
      ("PS4", "+ ")]
  (e.values ++ own).map fun (name, value) => (ofText name, ofText value)

end SnapshotPreview.Shell

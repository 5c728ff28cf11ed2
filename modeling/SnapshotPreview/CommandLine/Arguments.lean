import SnapshotPreview.Assoc
import SnapshotPreview.Caret

/-!
# Arguments of the command line

Options may stand before and after the other arguments, in a long form `--name value` or
`--name=value` and some in a short one. Each may be given once.
-/

namespace SnapshotPreview.CommandLine

/-! ## Options in general -/

/-- What an option takes. -/
inductive OptionKind where
  /-- Nothing. -/
  | flag
  /-- A path, which is not empty. -/
  | path
  /-- A number below `2 ^ 64`. -/
  | count
deriving DecidableEq, Repr

/-- An option that a command knows. -/
structure OptionSpec where
  name : String
  short : Option Char := none
  kind : OptionKind
deriving DecidableEq, Repr

/-- Why nothing is run. -/
inductive Stop where
  /-- Help was asked for. -/
  | help
  | version
  /-- The arguments do not fit together. -/
  | usage
deriving DecidableEq, Repr

/-- The arguments of one command so far: options with their values, and the rest in order. -/
structure Given where
  options : List (String × String) := []
  words : List String := []
deriving DecidableEq, Repr

namespace Given

/-- The value of an option. -/
def value? (g : Given) (name : String) : Option String := Assoc.get? name g.options

/-- The option is given. -/
def has (g : Given) (name : String) : Bool := (g.value? name).isSome

end Given

/-- A number below `2 ^ 64`, before which a plus sign may stand. -/
def number? (word : String) : Option Nat :=
  let digits :=
    match word.toList with
    | '+' :: rest => rest
    | cs => cs
  if !digits.isEmpty && digits.all Char.isDigit then
    let n := digits.foldl (fun n c => n * 10 + (c.toNat - '0'.toNat)) 0
    if n < Nat.pow 2 64 then some n else none
  else none

/-- A value is of the kind that an option takes. -/
def OptionKind.accepts : OptionKind → String → Bool
  | flag, _ => true
  | path, word => !word.isEmpty
  | count, word => (number? word).isSome

/-- An argument that is the value of the option before it, and no option itself. -/
def isValue (word : String) : Bool := !word.startsWith "-" || word = "-"

/-- Takes an option and its value. -/
def Given.setOption (g : Given) (o : OptionSpec) (value : String) : Except Stop Given :=
  if g.has o.name || !o.kind.accepts value then .error .usage
  else .ok { g with options := Assoc.set o.name value g.options }

/-- A command as far as its arguments go. -/
structure Grammar where
  options : List OptionSpec
  /-- How many arguments there may be besides options. None of them ends the options. -/
  words : Nat
  /-- The option for the version is known. -/
  version : Bool := false
deriving DecidableEq, Repr

/-- The option of a long argument, and the value after its equals sign. -/
def splitLong (body : List Char) : String × Option String :=
  let name := String.ofList (body.takeWhile (· != '='))
  match body.dropWhile (· != '=') with
  | _ :: value => (name, some (String.ofList value))
  | [] => (name, none)

/-- Takes an option that may have a value attached or in the next argument. -/
def Given.takeOption (g : Given) (o : OptionSpec) (attached : Option String)
    (rest : List String) : Except Stop (Given × List String) :=
  match o.kind, attached, rest with
  | .flag, some _, _ => .error .usage
  | .flag, none, rest => (g.setOption o "").map (·, rest)
  | _, some value, rest => (g.setOption o value).map (·, rest)
  | _, none, value :: rest =>
    if isValue value then (g.setOption o value).map (·, rest) else .error .usage
  | _, none, [] => .error .usage

/-- Takes a long option, whose dashes have been read. -/
def Given.takeLong (g : Given) (grammar : Grammar) (body : List Char) (rest : List String) :
    Except Stop (Given × List String) :=
  let (name, attached) := splitLong body
  if name = "help" ∧ attached = none then .error .help
  else if name = "version" ∧ attached = none ∧ grammar.version then .error .version
  else
    match grammar.options.find? fun o => o.name == name with
    | some o => g.takeOption o attached rest
    | none => .error .usage

/-- Takes a short option, whose dash has been read. No flag has a short form. -/
def Given.takeShort (g : Given) (grammar : Grammar) (letter : Char) (body : List Char)
    (rest : List String) : Except Stop (Given × List String) :=
  if letter = 'h' then .error .help
  else if letter = 'V' ∧ grammar.version then .error .version
  else
    match grammar.options.find? fun o => o.short == some letter with
    | some o =>
      let attached :=
        match body with
        | [] => none
        | '=' :: value => some (String.ofList value)
        | value => some (String.ofList value)
      g.takeOption o attached rest
    | none => .error .usage

/-- Takes an argument that is no option. -/
def Given.takeWord (g : Given) (grammar : Grammar) (word : String) : Except Stop Given :=
  if g.words.length < grammar.words && !word.isEmpty then .ok { g with words := g.words ++ [word] }
  else .error .usage

/-- Takes arguments, at most `fuel` times. Gives those that are left: if a command takes no words of
its own, its options end at the first word. -/
def Given.takeAll (grammar : Grammar) :
    Nat → Given → List String → Except Stop (Given × List String)
  | _, g, [] => .ok (g, [])
  | 0, _, _ :: _ => .error .usage
  | fuel + 1, g, argument :: rest =>
    match argument.toList with
    | ['-', '-'] => do
      return (← rest.foldlM (fun g word => g.takeWord grammar word) g, [])
    | '-' :: '-' :: body => do
      let (g, rest) ← g.takeLong grammar body rest
      takeAll grammar fuel g rest
    | '-' :: letter :: body => do
      let (g, rest) ← g.takeShort grammar letter body rest
      takeAll grammar fuel g rest
    | _ =>
      if grammar.words = 0 then .ok (g, argument :: rest)
      else do takeAll grammar fuel (← g.takeWord grammar argument) rest

/-! ## The commands of this program -/

/-- What the program is asked to do. -/
inductive Command where
  | resolve (file : String) (caret : Caret)
  | render (file : String) (caret : Caret) (out : Option String)
  | previewSnap (file : String) (out : Option String)
  | story (file : String) (caret : Caret)
  | update (file : String) (caret : Caret) (suite run : Bool)
  | lenses (file : String)
  | live (file : String)
deriving DecidableEq, Repr

/-- A command with the settings that all commands share. -/
structure Request where
  /-- The configuration file, if it is not the one of the user. -/
  config : Option String
  /-- The directory of the project. -/
  root : String
  command : Command
deriving DecidableEq, Repr

/-- The file that a command is about. -/
def Command.file : Command → String
  | resolve file _ | render file _ _ | previewSnap file _ | story file _ | update file _ _ _
  | lenses file | live file => file

/-- Where a command writes its preview, if not to its output. -/
def Command.out? : Command → Option String
  | render _ _ out | previewSnap _ out => out
  | _ => none

/-- The options that all commands share. -/
def sharedOptions : List OptionSpec :=
  [{ name := "config", kind := .path }, { name := "root", kind := .path }]

/-- The options for a caret. -/
def caretOptions : List OptionSpec :=
  [{ name := "offset", kind := .count }, { name := "line", kind := .count },
    { name := "column", kind := .count }]

/-- The option for a file to write. -/
def outOption : OptionSpec := { name := "out", short := some 'o', kind := .path }

/-- The options of a command, by its name. -/
def optionsOf? (name : String) : Option (List OptionSpec) :=
  if name = "resolve" ∨ name = "story" then some caretOptions
  else if name = "render" then some (outOption :: caretOptions)
  else if name = "preview-snap" then some [outOption]
  else if name = "update" then
    some ({ name := "suite", kind := .flag } :: { name := "run", kind := .flag } :: caretOptions)
  else if name = "lenses" ∨ name = "live" then some []
  else none

/-- The caret given by options. An offset excludes a line, and a column needs one of them. -/
def caretOf (g : Given) : Except Stop Caret :=
  let count (name : String) : Option Nat := (g.value? name).bind number?
  if g.has "offset" && g.has "line" then .error .usage
  else if g.has "column" && !g.has "line" && !g.has "offset" then .error .usage
  else .ok { offset := count "offset", line := count "line", column := (count "column").getD 1 }

/-- The command with a name and arguments. -/
def commandOf (name : String) (g : Given) : Except Stop Command := do
  let file ←
    match g.words with
    | [file] => Except.ok file
    | _ => .error .usage
  let caret ← caretOf g
  let out := g.value? "out"
  if name = "resolve" then return .resolve file caret
  else if name = "render" then return .render file caret out
  else if name = "preview-snap" then return .previewSnap file out
  else if name = "story" then return .story file caret
  else if name = "update" then return .update file caret (g.has "suite") (g.has "run")
  else if name = "lenses" then return .lenses file
  else return .live file

/-- Asking for help on commands by their names. -/
def helpOn (names : List String) : Stop :=
  match names with
  | [] => .help
  | [name] => if (optionsOf? name).isSome || name = "help" then .help else .usage
  | _ => .usage

/-- What the arguments ask for. A shared option after the name of the command comes before the same
one in front of it. -/
def parse (arguments : List String) : Except Stop Request := do
  let (before, rest) ←
    Given.takeAll { options := sharedOptions, words := 0, version := true } arguments.length {}
      arguments
  match rest with
  | [] => throw .usage
  | name :: rest =>
    if name = "help" then throw (helpOn rest)
    match optionsOf? name with
    | none => throw .usage
    | some options =>
      let (after, _) ←
        Given.takeAll { options := sharedOptions ++ options, words := 1 } rest.length {} rest
      return {
        config := (after.value? "config").or (before.value? "config")
        root := ((after.value? "root").or (before.value? "root")).getD "."
        command := ← commandOf name after }

end SnapshotPreview.CommandLine

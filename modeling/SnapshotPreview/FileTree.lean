import SnapshotPreview.Assoc
import SnapshotPreview.Path
import SnapshotPreview.Text.Utf8

/-!
# A tree of files

Files and directories by their places, and the directory from which relative paths lead. A path
through something that is not a directory leads nowhere.
-/

namespace SnapshotPreview

/-- What stands at a place of the tree. -/
inductive FileEntry where
  | file (bytes : List UInt8)
  | directory
deriving DecidableEq, Repr

/-- The names on the way to a place, from the top down. -/
abbrev Place := List (List Char)

/-- The entries below the top directory, which itself is always there. -/
structure FileTree where
  entries : List (Place × FileEntry) := []
  /-- The directory from which relative paths lead. -/
  current : Place := []
deriving DecidableEq, Repr

/-- Why a file cannot be read or written. -/
inductive FileError where
  | missing
  | occupied
  | notDirectory
  | isDirectory
  | nameTooLong
  /-- The path holds a NUL, which no name may. -/
  | invalidName
  | notText
deriving DecidableEq, Repr

/-- The text of an error, as the system gives it. -/
def FileError.message : FileError → String
  | missing => "No such file or directory (os error 2)"
  | occupied => "File exists (os error 17)"
  | notDirectory => "Not a directory (os error 20)"
  | isDirectory => "Is a directory (os error 21)"
  | nameTooLong => "File name too long (os error 36)"
  | invalidName => "file name contained an unexpected NUL byte"
  | notText => "stream did not contain valid UTF-8"

namespace FileTree

/-- The entry at a place. -/
def entry? (t : FileTree) (place : Place) : Option FileEntry :=
  if place = [] then some .directory else Assoc.get? place t.entries

/-- Puts an entry at a place. -/
def put (t : FileTree) (place : Place) (e : FileEntry) : FileTree :=
  { t with entries := Assoc.set place e t.entries }

/-- The tree with one empty directory, from which relative paths lead. -/
def ofDirectory (name : String) : FileTree :=
  { entries := [([name.toList], .directory)], current := [name.toList] }

/-- The most bytes that a name may have. -/
def maxNameLength : Nat := 255

/-- The most bytes that a path may have. -/
def maxPathLength : Nat := 4095

/-- Goes one step on from a place, which must be a directory. The step up from the top directory
leads nowhere else. -/
def step (t : FileTree) (place : Place) (name : List Char) : Except FileError Place :=
  match t.entry? place with
  | none => .error .missing
  | some (.file _) => .error .notDirectory
  | some .directory =>
    if Path.isIdle name then .ok place
    else if name = ['.', '.'] then .ok place.dropLast
    else if maxNameLength < Text.byteLength name then .error .nameTooLong
    else .ok (place ++ [name])

/-- The place to which steps lead from another one. Nothing needs to stand there. -/
def walk (t : FileTree) : Place → List (List Char) → Except FileError Place
  | place, [] => .ok place
  | place, name :: rest => do walk t (← t.step place name) rest

/-- The place at which a path begins: the top directory for a path from the root. -/
def origin (t : FileTree) (path : String) : Place := if path.startsWith "/" then [] else t.current

/-- The steps of a path, if it can be one. -/
def stepsOf (path : String) : Except FileError (List (List Char)) :=
  if path.isEmpty then .error .missing
  else if path.contains '\x00' then .error .invalidName
  else if maxPathLength < path.utf8ByteSize then .error .nameTooLong
  else .ok (Text.splitOn '/' path.toList)

/-- The place to which a path leads. -/
def resolve (t : FileTree) (path : String) : Except FileError Place := do
  t.walk (t.origin path) (← stepsOf path)

/-- Something stands where the path leads. -/
def contains (t : FileTree) (path : String) : Bool :=
  match t.resolve path with
  | .ok place => (t.entry? place).isSome
  | .error _ => false

/-- The names of what stands in a directory. -/
def names (t : FileTree) (directory : Place) : List (List Char) :=
  t.entries.filterMap fun (place, _) =>
    if place.dropLast = directory then place.getLast? else none

/-- The bytes of a file. -/
def readBytes (t : FileTree) (path : String) : Except FileError (List UInt8) := do
  match t.entry? (← t.resolve path) with
  | some (.file bytes) => return bytes
  | some .directory => throw .isDirectory
  | none => throw .missing

/-- The text of a file. -/
def readText (t : FileTree) (path : String) : Except FileError String := do
  match Text.decode? (← t.readBytes path) with
  | some cs => return String.ofList cs
  | none => throw .notText

/-- The directory in which the last step of a path is taken, and that step. -/
def resolveLast (t : FileTree) (path : String) : Except FileError (Place × List Char) := do
  let steps ← stepsOf path
  return (← t.walk (t.origin path) steps.dropLast, steps.getLast?.getD [])

/-- A path without the slashes at its end. -/
def withoutSlashes (path : List Char) : List Char := (path.reverse.dropWhile (· == '/')).reverse

/-- The place of a file to be written. Its directory must be there, and no directory may stand at
the place itself. A slash at the end of the path asks for a directory, too. -/
def placeToWrite (t : FileTree) (path : String) : Except FileError Place := do
  let _ ← stepsOf path
  if path.endsWith "/" then
    let steps := Text.splitOn '/' (withoutSlashes path.toList)
    let _ ← t.step (← t.walk (t.origin path) steps.dropLast) []
    throw .isDirectory
  else
    let (directory, last) ← t.resolveLast path
    let place ← t.step directory last
    if t.entry? place = some .directory then throw .isDirectory else return place

/-- Writes a file. -/
def writeBytes (t : FileTree) (path : String) (bytes : List UInt8) : Except FileError FileTree := do
  return t.put (← t.placeToWrite path) (.file bytes)

/-- Writes a text as a file. -/
def writeText (t : FileTree) (path text : String) : Except FileError FileTree :=
  t.writeBytes path (Text.bytesOf text).toList

/-- Makes a directory. Nothing may stand at its place. -/
def makeDirectory (t : FileTree) (path : String) : Except FileError FileTree := do
  let (directory, last) ← t.resolveLast path
  let place ← t.step directory last
  if Path.isIdle last ∨ last = ['.', '.'] ∨ (t.entry? place).isSome then throw .occupied
  else return t.put place .directory

/-- What has come of changes to a tree: those before the first failure stay. -/
structure Change where
  files : FileTree
  failure : Option FileError := none
deriving DecidableEq, Repr

/-- A directory stands where the path leads. -/
def hasDirectory (t : FileTree) (path : String) : Bool :=
  match t.resolve path with
  | .ok place => t.entry? place == some .directory
  | .error _ => false

/-- Makes a directory unless it is there. -/
def ensureDirectory (t : FileTree) (path : String) : Change :=
  match t.makeDirectory path with
  | .ok files => { files }
  | .error e => { files := t, failure := if t.hasDirectory path then none else some e }

/-- Makes a directory and those above it that are missing, of which there may be `fuel`. -/
def makeDirectoriesUpTo : Nat → FileTree → String → Change
  | 0, t, _ => { files := t }
  | fuel + 1, t, path =>
    match Path.parent? path with
    | none => { files := t }
    | some parent =>
      match t.ensureDirectory path with
      | { files, failure := some .missing } =>
        match makeDirectoriesUpTo fuel files parent with
        | { files, failure := none } => files.ensureDirectory path
        | failed => failed
      | change => change

/-- Makes a directory and those above it that are missing. -/
def makeDirectories (t : FileTree) (path : String) : Change :=
  makeDirectoriesUpTo (path.length + 1) t path

/-- Writes a file and makes the directories above it. -/
def save (t : FileTree) (path text : String) : Change :=
  match t.makeDirectories ((Path.parent? path).getD "") with
  | { files, failure := none } =>
    match files.writeText path text with
    | .ok files => { files }
    | .error e => { files, failure := some e }
  | failed => failed

/-- Removes a file, if it is there. -/
def remove (t : FileTree) (path : String) : FileTree :=
  match t.readBytes path, t.resolve path with
  | .ok _, .ok place => { t with entries := Assoc.erase place t.entries }
  | _, _ => t

end FileTree

end SnapshotPreview

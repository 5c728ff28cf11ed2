import SnapshotPreview.CommandLine.Shell.Expansion

/-!
# Redirections

A redirection lets a descriptor lead to a file, or where another descriptor leads, while a command
runs. What all redirections of a command say is known before the first of them is made.
-/

namespace SnapshotPreview.Shell

/-! ## Opening files -/

/-- Where a path leads that stands for a descriptor, if it is one. -/
def specialPath? (path : List Char) : Option Nat :=
  let path := toText path
  if path = "/dev/stdin" then some 0
  else if path = "/dev/stdout" then some 1
  else if path = "/dev/stderr" then some 2
  else if path.startsWith "/dev/fd/" then number? ((path.drop 8).toString.toList)
  else none

/-- Opens a file at a place for writing. -/
def openPlace (access : Access) (place : Place) : Action Sink := do
  let s ← get
  let files :=
    if access = .write ∨ (s.files.entry? place).isNone then s.files.put place (.file [])
    else s.files
  let opened : OpenFile := { place, position := if access = .append then none else some 0 }
  set { s with files, opened := s.opened ++ [opened] }
  return .file s.opened.length

/-- Opens a file. -/
def openFile (access : Access) (path : List Char) : Action (Except FileError Sink) := do
  let s ← get
  if access = .read then
    if toText path = "/dev/null" ∨ (specialPath? path).isSome then return .ok .readOnly
    return (s.files.resolve (toText path)).bind fun place =>
      if (s.files.entry? place).isSome then .ok .readOnly else .error .missing
  else if toText path = "/dev/null" then return .ok .nowhere
  else
    match specialPath? path with
    | some descriptor =>
      match Assoc.get? descriptor s.descriptors with
      | none => return .error .missing
      | some .readOnly => return .ok .nowhere
      | some (.file number) =>
        match s.opened[number]? with
        | some f => return .ok (← openPlace access f.place)
        | none => return .error .missing
      | some sink => return .ok sink
    | none =>
      match s.files.placeToWrite (toText path) with
      | .error e => return .error e
      | .ok place => return .ok (← openPlace access place)

/-- Why a file cannot be opened. -/
def openingMessage (access : Access) : FileError → String
  | .isDirectory => "Is a directory"
  | .nameTooLong => "File name too long"
  | _ => if access = .read then "No such file" else "Directory nonexistent"

/-! ## Changes of descriptors -/

/-- A change of where a descriptor leads. -/
inductive DescriptorChange where
  | file (descriptor : Nat) (access : Access) (path : List Char)
  | copy (descriptor source : Nat)
  | close (descriptor : Nat)
  | document (descriptor : Nat)
deriving DecidableEq, Repr

/-- The change that a redirection asks for. -/
def expandRedirection (perform : List Command → Action Unit) :
    Redirection → Action DescriptorChange
  | .document descriptor => return .document descriptor
  | .file descriptor access name => return .file descriptor access (← expandText perform name)
  | .copy descriptor source => do
    match ← expandText perform source with
    | ['-'] => return .close descriptor
    | [c] => if c.isDigit then return .copy descriptor (digit c)
    | _ => pure ()
    fail "Syntax error: Bad fd number"

/-- Lets a descriptor lead somewhere. -/
def lead (descriptor : Nat) (sink : Sink) : Action Unit :=
  modify fun s => { s with descriptors := Assoc.set descriptor sink s.descriptors }

/-- Changes where a descriptor leads, and says whether that can be done. A descriptor that is not
open is still a copy of itself. -/
def DescriptorChange.make : DescriptorChange → Action Bool
  | document descriptor => do
    lead descriptor .readOnly
    return true
  | close descriptor => do
    modify fun s => { s with descriptors := Assoc.erase descriptor s.descriptors }
    return true
  | copy descriptor source => do
    if descriptor = source then return true
    match Assoc.get? source (← get).descriptors with
    | some sink => lead descriptor sink; return true
    | none => complain (toString source ++ ": Bad file descriptor"); return false
  | file descriptor access path => do
    match ← openFile access path with
    | .ok sink => lead descriptor sink; return true
    | .error cause =>
      complain ((if access = .read then "cannot open " else "cannot create ") ++ toText path ++
        ": " ++ openingMessage access cause)
      return false

/-- Makes changes up to the first that cannot be made, and says whether there is none. -/
def makeAll : List DescriptorChange → Action Bool
  | [] => return true
  | change :: rest => do if ← change.make then makeAll rest else return false

/-- Runs an action with redirections, which end with it. It is told whether they could be made. -/
def withRedirections (perform : List Command → Action Unit) (redirections : List Redirection)
    (action : Bool → Action Unit) : Action Unit := do
  let changes ← redirections.mapM (expandRedirection perform)
  let before := (← get).descriptors
  action (← makeAll changes)
  modify fun s => { s with descriptors := before }

end SnapshotPreview.Shell

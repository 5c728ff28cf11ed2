import SnapshotPreview.Location
import SnapshotPreview.Text.Affix
import SnapshotPreview.Text.Word

/-!
# Commands that record snapshots anew

A command is a template in which two placeholders stand for the test and its file.
-/

namespace SnapshotPreview

/-- What is recorded anew. -/
inductive UpdateScope where
  /-- One test. -/
  | test
  /-- All tests of the suites around it. -/
  | file
deriving DecidableEq, Repr

/-- Why there is no command. -/
inductive UpdateError where
  | missingTemplate
  | unknownTest
deriving DecidableEq, Repr

/-- The message of an error. -/
def UpdateError.message : UpdateError → String
  | missingTemplate =>
    "You need to specify \"update_test_command\" and \"update_file_command\" in your config. " ++
      "Use $1 for test name placeholder, $2 for file name"
  | unknownTest => "Could not determine the test name"

namespace Update

/-- The name by which a test runner finds what is recorded: the folders, and for a single test its
name, with spaces between them. -/
def target (scope : UpdateScope) (l : Location) : Except UpdateError String :=
  if l.folders.isEmpty then .error .unknownTest
  else
    match scope, l.testName with
    | .file, _ => .ok (String.intercalate " " l.folders)
    | .test, some test => .ok (String.intercalate " " l.folders ++ " " ++ test)
    | .test, none => .error .unknownTest

/-! ## Templates -/

/-- Stands in a template for the target. -/
def targetMark : List Char := ['$', '1']

/-- Stands in a template for the file. -/
def fileMark : List Char := ['$', '2']

/-- A mark that was found in a template, with what it stands for. -/
structure Hit where
  position : Nat
  mark : List Char
  value : List Char
deriving DecidableEq, Repr

/-- A hit that stands no later in the template than another. -/
def Hit.comesFirst (hit later : Hit) : Bool := hit.position ≤ later.position

/-- Where marks first stand in a template, in the order in which the marks are given. -/
def hits (template : List Char) (substitutions : List (List Char × List Char)) : List Hit :=
  substitutions.filterMap fun (mark, value) =>
    (Text.find? mark template).map fun position => { position, mark, value }

/-- Writes a template from a position on, with the values of the hits in the place of their marks. A
hit that begins before the position is left out. -/
def splice (template : List Char) : Nat → List Hit → List Char
  | last, [] => template.drop last
  | last, hit :: rest =>
    if hit.position < last then splice template last rest
    else
      (template.drop last).take (hit.position - last) ++
        (hit.value ++ splice template (hit.position + hit.mark.length) rest)

/-- Replaces the first occurrence of each mark in a template by its value. -/
def substituteFirst (template : List Char) (substitutions : List (List Char × List Char)) :
    List Char :=
  splice template 0 ((hits template substitutions).mergeSort Hit.comesFirst)

/-- The command for a test. A template of white space counts as none. -/
def command (template : Option String) (scope : UpdateScope) (l : Location) (file : String) :
    Except UpdateError String :=
  match template with
  | none => .error .missingTemplate
  | some template =>
    if template.toList.all Text.isBlank then .error .missingTemplate
    else
      (target scope l).map fun target =>
        String.ofList (substituteFirst template.toList
          [(targetMark, target.toList), (fileMark, file.toList)])

/-! ## The output of a test runner -/

/-- The word after the number of passed tests. -/
def passingWord : List Char := " passing".toList

/-- The digits of the first number that is followed by the word, in any script. -/
def passingDigits? : List Char → Option (List Char)
  | [] => none
  | c :: rest =>
    let digits := (c :: rest).takeWhile Text.isDigit
    if !digits.isEmpty &&
        (Text.afterPrefix? passingWord ((c :: rest).dropWhile Text.isDigit)).isSome then
      some digits
    else passingDigits? rest

/-- The value of ASCII digits, if it is below `2 ^ 32`. -/
def smallNumber? (digits : List Char) : Option Nat :=
  if digits.all Char.isDigit then
    let value := digits.foldl (fun n c => n * 10 + (c.toNat - '0'.toNat)) 0
    if value < Nat.pow 2 32 then some value else none
  else none

/-- The number of passed tests in the output of a test runner. -/
def passingCount (output : String) : Option Nat :=
  (passingDigits? output.toList).bind smallNumber?

/-- What is said after snapshots have been recorded. -/
def summary (passing : Nat) (target : String) : String :=
  toString passing ++ " test(s) snapshots updated for \"" ++ target ++ "\""

end Update

end SnapshotPreview

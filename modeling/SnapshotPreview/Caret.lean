import SnapshotPreview.Text.Utf8

/-!
# The place of the caret

A caret is given by its offset in bytes, or by a line and a column that both start at one.
-/

namespace SnapshotPreview

/-- A caret as a user gives it. The column counts characters. -/
structure Caret where
  offset : Option Nat := none
  line : Option Nat := none
  column : Nat := 1
deriving DecidableEq, Repr

/-- Why a caret has no place in a text. -/
inductive CaretError where
  | offsetTooLarge (offset size : Nat)
  | notFromOne
  | lineTooLarge (line : Nat)
  | missing
deriving DecidableEq, Repr

/-- The message of an error. -/
def CaretError.message : CaretError → String
  | offsetTooLarge offset size =>
    "Offset " ++ toString offset ++ " is past the end of the file (" ++ toString size ++ " bytes)"
  | notFromOne => "Lines and columns start at 1"
  | lineTooLarge line => "Line " ++ toString line ++ " is past the end of the file"
  | missing => "Give the caret with --offset or --line"

namespace Caret

/-- A line without its end, and what follows it: nothing, or the line feed and the lines after. -/
def splitLine (cs : List Char) : List Char × List Char := cs.span (· != '\n')

/-- The offset of a character of a line, both counted from zero. Characters after the line lie at
its end. A line feed at the end of the text begins no further line. -/
def offsetAt? : Nat → Nat → List Char → Option Nat
  | _, _, [] => none
  | 0, column, c :: cs => some (Text.byteLength ((splitLine (c :: cs)).1.take column))
  | line + 1, column, c :: cs =>
    let (content, rest) := splitLine (c :: cs)
    match rest with
    | [] => none
    | lineFeed :: rest =>
      (offsetAt? line column rest).map (Text.byteLength content + lineFeed.utf8Size + ·)

/-- The offset of a line and a column, which start at one. -/
def ofLineColumn (text : String) (line column : Nat) : Except CaretError Nat :=
  match line, column with
  | line + 1, column + 1 =>
    match offsetAt? line column text.toList with
    | some offset => .ok offset
    | none => .error (.lineTooLarge (line + 1))
  | _, _ => .error .notFromOne

/-- The offset of a caret. A given offset comes before a line. -/
def resolve (c : Caret) (text : String) : Except CaretError Nat :=
  match c.offset, c.line with
  | some offset, _ =>
    if offset ≤ text.utf8ByteSize then .ok offset
    else .error (.offsetTooLarge offset text.utf8ByteSize)
  | none, some line => ofLineColumn text line c.column
  | none, none => .error .missing

end Caret

end SnapshotPreview

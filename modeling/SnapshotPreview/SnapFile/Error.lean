import SnapshotPreview.Text.Printable

/-!
# What can be wrong with a file of snapshots
-/

namespace SnapshotPreview.SnapFile

/-- What the reader was looking for. -/
inductive Expected where
  | exports
  | accessor
  | closingBracket
  | propertyName
  | equalsSign
  | literal
deriving DecidableEq, Repr

/-- The name of what was looked for, as messages give it. -/
def Expected.text : Expected → String
  | exports => "`exports`"
  | accessor => "`[` or `.`"
  | closingBracket => "`]`"
  | propertyName => "property name"
  | equalsSign => "`=`"
  | literal => "a quoted string"

/-- Why a text is no file of snapshots. Positions are in bytes. -/
inductive Error where
  | unexpected (offset : Nat) (found : Char) (expected : Expected)
  | unexpectedEnd (expected : Expected)
  | unterminatedString (offset : Nat)
  | unterminatedComment (offset : Nat)
deriving DecidableEq, Repr

/-- The message of an error. -/
def Error.message : Error → String
  | unexpected offset found expected =>
    "Unexpected character " ++ Text.quoteChar found ++ " at byte " ++ toString offset ++
      ", expected " ++ expected.text
  | unexpectedEnd expected => "Unexpected end of file, expected " ++ expected.text
  | unterminatedString offset => "Unterminated string starting at byte " ++ toString offset
  | unterminatedComment offset => "Unterminated comment starting at byte " ++ toString offset

end SnapshotPreview.SnapFile

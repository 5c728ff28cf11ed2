import SnapshotPreview.Json.Printer
import SnapshotPreview.Json.Skip
import SnapshotPreview.Record

/-!
# Messages from a running test process

A message is a JSON object, or an array of the same values in a fixed order. It is read from left
to right, and the first thing wrong with it decides what is reported.
-/

namespace SnapshotPreview

/-- What a message carries: one snapshot, or named values. -/
inductive LiveContent where
  | text (snapshot : String)
  | fields (members : List (String × Json))
deriving Repr

/-- A snapshot or a style sheet sent by a running test process. -/
structure LiveMessage where
  /-- The file that the message belongs to. -/
  file : String
  content : LiveContent
  testName : Option String := none
  snapshotName : Option String := none
deriving Repr

namespace LiveContent

/-- The text of a named value. -/
def field? (content : LiveContent) (name : String) : Option String :=
  match content with
  | text _ => none
  | fields members => (Assoc.get? name members).map Json.plainText

/-- The snapshots in a message. -/
def toContent : LiveContent → Content
  | text snapshot => .text snapshot
  | fields members => .record (.ofPairs (members.map fun (name, v) => (name, v.plainText)))

end LiveContent

namespace LiveMessage

open Json (Problem Reader)

/-- Messages about style sheets carry styles, not snapshots. -/
def isStylesheet (m : LiveMessage) : Bool := m.file.endsWith ".css"

/-! ## The values of the fields -/

/-- A string. Any other word or number is read before it is refused. -/
def readText : Reader String := fun cs =>
  match Json.skipSpace cs with
  | [] => .error .truncated
  | c :: rest =>
    if c == '[' || c == '\x7b' then .error .mismatched
    else do
      match ← Json.readScalar c rest with
      | (.string s, rest) => return (s, rest)
      | _ => .error .mismatched

/-- A string or null. -/
def readOptionalText : Reader (Option String) := fun cs =>
  match Json.skipSpace cs with
  | 'n' :: rest => do return (none, ← Json.readWord ['u', 'l', 'l'] rest)
  | cs => do
    let (s, rest) ← readText cs
    return (some s, rest)

/-- A string or an object. The message around it takes one level of nesting. -/
def readContent : Reader LiveContent := fun cs => do
  match ← Json.readValue (Json.maxDepth - 1) cs with
  | (.string s, rest) => return (.text s, rest)
  | (.object members, rest) => return (.fields members, rest)
  | _ => .error .mismatched

/-! ## Objects -/

/-- The fields read so far. -/
structure Draft where
  file : Option String := none
  content : Option LiveContent := none
  testName : Option (Option String) := none
  snapshotName : Option (Option String) := none

/-- The fields of a message. -/
inductive Field where
  | file
  | content
  | testName
  | snapshotName
deriving DecidableEq, Repr

/-- The field that a name stands for. -/
def Field.ofName? (name : String) : Option Field :=
  if name = "file" || name = "testPath" then some .file
  else if name = "content" then some .content
  else if name = "testName" then some .testName
  else if name = "snapshotName" then some .snapshotName
  else none

/-- Whether a field has been read before. -/
def Draft.has (d : Draft) : Field → Bool
  | .file => d.file.isSome
  | .content => d.content.isSome
  | .testName => d.testName.isSome
  | .snapshotName => d.snapshotName.isSome

/-- Reads the value of a field. -/
def Draft.readField (d : Draft) (field : Field) : Reader Draft := fun cs => do
  match field with
  | .file =>
    let (v, rest) ← readText cs
    return ({ d with file := some v }, rest)
  | .content =>
    let (v, rest) ← readContent cs
    return ({ d with content := some v }, rest)
  | .testName =>
    let (v, rest) ← readOptionalText cs
    return ({ d with testName := some v }, rest)
  | .snapshotName =>
    let (v, rest) ← readOptionalText cs
    return ({ d with snapshotName := some v }, rest)

/-- Reads a member whose opening quote has been read. A field given twice is refused as soon as its
name is known, and members that are no fields are skipped. -/
def Draft.readMember (d : Draft) : Reader Draft := fun cs => do
  let (name, rest) ← Json.readString cs
  match Field.ofName? name with
  | some field =>
    if d.has field then .error .mismatched else d.readField field (← Json.readColon rest)
  | none => return (d, ← Json.skipValue (← Json.readColon rest))

/-- Reads the members after the first one, up to the closing brace, at most `fuel` of them. -/
def Draft.readMore : Nat → Draft → Reader Draft
  | 0, _, _ => .error .truncated
  | fuel + 1, d, cs =>
    match Json.skipSpace cs with
    | [] => .error .truncated
    | '\x7d' :: rest => .ok (d, rest)
    | ',' :: rest => do
      let (d, rest) ← d.readMember (← Json.readNextName rest)
      Draft.readMore fuel d rest
    | _ => .error .malformed

/-- Reads the members of an object whose opening brace has been read. -/
def readDraft : Reader Draft := fun cs =>
  match Json.skipSpace cs with
  | [] => .error .truncated
  | '\x7d' :: rest => .ok ({}, rest)
  | '"' :: rest => do
    let (d, rest) ← Draft.readMember {} rest
    Draft.readMore (rest.length + 1) d rest
  | _ => .error .malformed

/-- A message needs a file and a content. -/
def Draft.finish (d : Draft) : Except Problem LiveMessage :=
  match d.file, d.content with
  | some file, some content =>
    .ok { file, content, testName := d.testName.join, snapshotName := d.snapshotName.join }
  | _, _ => .error .mismatched

/-! ## Arrays -/

/-- Finds the item after another one, or none before the closing bracket, which stays. -/
def readNextItem (cs : List Char) : Except Problem (Option (List Char)) :=
  match Json.skipSpace cs with
  | [] => .error .truncated
  | ']' :: _ => .ok none
  | ',' :: rest =>
    match Json.skipSpace rest with
    | [] => .error .truncated
    | ']' :: _ => .error .malformed
    | rest => .ok (some rest)
  | _ => .error .malformed

/-- The item after another one where it may be left out. -/
def readOptionalItem : Reader (Option String) := fun cs => do
  match ← readNextItem cs with
  | some rest => readOptionalText rest
  | none => return (none, cs)

/-- The closing bracket of an array from which nothing more is wanted. -/
def readArrayEnd (cs : List Char) : Except Problem (List Char) :=
  match Json.skipSpace cs with
  | [] => .error .truncated
  | ']' :: rest => .ok rest
  | _ => .error .malformed

/-- Reads the items of an array whose opening bracket has been read. -/
def readItems : Reader LiveMessage := fun cs =>
  match Json.skipSpace cs with
  | [] => .error .truncated
  | ']' :: _ => .error .mismatched
  | cs => do
    let (file, rest) ← readText cs
    match ← readNextItem rest with
    | none => .error .mismatched
    | some rest =>
      let (content, rest) ← readContent rest
      let (testName, rest) ← readOptionalItem rest
      let (snapshotName, rest) ← readOptionalItem rest
      return ({ file, content, testName, snapshotName }, ← readArrayEnd rest)

/-! ## Messages -/

/-- Reads a message. A word, number or string is read before it is refused. -/
def read : Reader LiveMessage := fun cs =>
  match Json.skipSpace cs with
  | [] => .error .truncated
  | c :: rest =>
    if c == '[' then readItems rest
    else if c == '\x7b' then do
      let (d, rest) ← readDraft rest
      return (← d.finish, rest)
    else do
      let _ ← Json.readScalar c rest
      .error .mismatched

/-- Reads a text that is one message. -/
def parse (s : String) : Except Problem LiveMessage := do
  let (m, rest) ← read s.toList
  Json.readEnd rest
  return m

end LiveMessage

end SnapshotPreview

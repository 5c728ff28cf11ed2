import SnapshotPreview.Toml.Scalar

/-!
# Reading a document

A document is a list of entries, and after that tables with a header each. Arrays and tables between
braces may go over several lines and nest up to eighty levels deep.
-/

namespace SnapshotPreview.Toml

/-! ## Keys -/

/-- A key with or without quotes. -/
def readKey : Reader String
  | [] => none
  | c :: rest =>
    if isQuote c then (readLine c rest).map fun (key, rest) => (String.ofList key, rest)
    else
      let key := (c :: rest).takeWhile isBareKeyChar
      if key.isEmpty then none else some (String.ofList key, (c :: rest).dropWhile isBareKeyChar)

/-- The keys on a dotted path after its first key, at most `fuel` of them. -/
def readMoreKeys : Nat → Reader (List String)
  | 0, _ => none
  | fuel + 1, cs =>
    match skipBlanks cs with
    | '.' :: rest => do
      let (key, rest) ← readKey (skipBlanks rest)
      let (keys, rest) ← readMoreKeys fuel rest
      return (key :: keys, rest)
    | rest => some ([], rest)

/-- The path with a first key and the keys after it. -/
def KeyPath.ofKeys : String → List String → KeyPath
  | key, [] => { way := [], key }
  | first, key :: keys =>
    let path := ofKeys key keys
    { path with way := first :: path.way }

/-- How deeply arrays and tables may be nested, be it by brackets or by the keys of a path. -/
def maxDepth : Nat := 80

/-- A dotted path and the blanks after it. -/
def readKeyPath : Reader KeyPath := fun cs => do
  let (key, rest) ← readKey cs
  let (keys, rest) ← readMoreKeys (rest.length + 1) rest
  if keys.length < maxDepth then return (.ofKeys key keys, rest) else failure

/-! ## Values -/

/-- A path and its value. -/
abbrev Entry := KeyPath × Value

/-- An entry: a path, an equals sign and a value, with what may be skipped around the sign. -/
def readEntry (skip : List Char → List Char) (value : Reader Value) : Reader Entry := fun cs => do
  let (path, rest) ← readKeyPath cs
  let (v, rest) ← value (skip (← readChar '=' (skip rest)))
  return ((path, v), rest)

/-- Parts with commas between them and perhaps one at the end, up to the closing character, at most
`fuel` of them. -/
def readParts {α : Type} (closing : Char) (part : Reader α) : Nat → Reader (List α)
  | 0, _ => none
  | fuel + 1, cs =>
    match skipGap cs with
    | [] => none
    | c :: rest =>
      if c = closing then some ([], rest)
      else do
        let (x, rest) ← part (c :: rest)
        match skipGap rest with
        | [] => none
        | c :: rest =>
          if c = closing then some ([x], rest)
          else if c = ',' then do
            let (xs, rest) ← readParts closing part fuel rest
            return (x :: xs, rest)
          else none

/-- A value within which at most `depth` levels of arrays and tables may be open. -/
def readValue (depth : Nat) : Reader Value := fun cs =>
  match cs with
  | [] => none
  | c :: rest =>
    if c = '[' then
      match depth with
      | 0 => none
      | depth + 1 => do
        let (items, rest) ← readParts ']' (readValue depth) (rest.length + 1) rest
        return (.array items, rest)
    else if c = '\x7b' then
      match depth with
      | 0 => none
      | depth + 1 => do
        let entry := readEntry skipGap (readValue depth)
        let (entries, rest) ← readParts '\x7d' entry (rest.length + 1) rest
        return (.table .inline (← Entries.addAll [] entries), rest)
    else if isQuote c then (readString cs).map fun (s, rest) => (.string s, rest)
    else readScalar cs

/-! ## Documents -/

/-- A table with its header. -/
structure HeadedTable where
  path : KeyPath
  /-- The header stands in double brackets. -/
  repeated : Bool
  entries : List Entry

/-- Entries on lines of their own, up to the first header, at most `fuel` of them. -/
def readEntries : Nat → Reader (List Entry)
  | 0, _ => none
  | fuel + 1, cs =>
    match skipGap cs with
    | [] => some ([], [])
    | c :: rest =>
      if c = '[' then some ([], c :: rest)
      else do
        let (entry, rest) ← readEntry skipBlanks (readValue maxDepth) (c :: rest)
        let (entries, rest) ← readEntries fuel (← endLine? rest)
        return (entry :: entries, rest)

/-- A header, whose first bracket has been read, up to the end of its line. -/
def readHeader (cs : List Char) : Option (KeyPath × Bool × List Char) :=
  match cs with
  | '[' :: rest => do
    let (path, rest) ← readKeyPath (skipBlanks rest)
    let rest ← readChar ']' (← readChar ']' rest)
    return (path, true, ← endLine? rest)
  | rest => do
    let (path, rest) ← readKeyPath (skipBlanks rest)
    return (path, false, ← endLine? (← readChar ']' rest))

/-- Tables with their headers up to the end of the text, at most `fuel` of them. -/
def readHeaded : Nat → List Char → Option (List HeadedTable)
  | _, [] => some []
  | 0, _ :: _ => none
  | fuel + 1, c :: rest =>
    if c = '[' then do
      let (path, repeated, rest) ← readHeader rest
      let (entries, rest) ← readEntries (rest.length + 1) rest
      let tables ← readHeaded fuel rest
      return { path, repeated, entries } :: tables
    else none

/-- Adds a table with its header to the tables before it. -/
def Entries.addHeaded (entries : Entries) (s : HeadedTable) : Option Entries :=
  if s.repeated then entries.addElement s.path s.entries else entries.addTable s.path s.entries

/-- The text without a mark of the byte order at its start. -/
def skipMark : List Char → List Char
  | c :: rest => if c = '\ufeff' then rest else c :: rest
  | [] => []

/-- Reads a document: the table of all its entries. -/
def parse (text : String) : Option Entries := do
  let cs := skipMark text.toList
  let (top, rest) ← readEntries (cs.length + 1) cs
  let tables ← readHeaded rest.length rest
  tables.foldlM Entries.addHeaded (← Entries.addAll [] top)

end SnapshotPreview.Toml

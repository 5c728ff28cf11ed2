import SnapshotPreview.Text.Affix
import SnapshotPreview.Toml.Library

/-!
# Writing a document

Each string is written in the first form that can hold it: with as few escapes as possible, and with
its lines as lines.
-/

namespace SnapshotPreview.Toml

/-! ## Strings -/

/-- A character that can only be written as an escape. -/
def isControl (c : Char) : Bool :=
  c.toNat == 0x7f || (c.toNat < 0x20 && c != '\t' && c != '\n')

/-- The hexadecimal digit of a number below sixteen. -/
def upperHexDigit (n : Nat) : Char := (Nat.digitChar n).toUpper

/-- The code point of a control, with four digits. -/
def codeEscape (c : Char) : List Char :=
  ['\\', 'u', '0', '0', upperHexDigit (c.toNat / 16), upperHexDigit (c.toNat % 16)]

/-- A character other than a double quote between double quotes. -/
def escapeChar (c : Char) : List Char :=
  if c = '\x08' then ['\\', 'b']
  else if c = '\t' then ['\\', 't']
  else if c = '\n' then ['\\', 'n']
  else if c = '\x0c' then ['\\', 'f']
  else if c = '\r' then ['\\', 'r']
  else if c = '\\' then ['\\', '\\']
  else if isControl c then codeEscape c
  else [c]

/-- The characters of a string between double quotes on one line. -/
def escapeLine : List Char → List Char
  | [] => []
  | c :: rest => (if c = '"' then ['\\', '"'] else escapeChar c) ++ escapeLine rest

/-- The characters of a string between three double quotes each. Every third quote in a row is
written as an escape; `run` counts the quotes before. -/
def escapeBlock (run : Nat) : List Char → List Char
  | [] => []
  | c :: rest =>
    if c = '"' then
      if run = 2 then '\\' :: '"' :: escapeBlock 0 rest else '"' :: escapeBlock (run + 1) rest
    else if c = '\n' then '\n' :: escapeBlock 0 rest
    else escapeChar c ++ escapeBlock 0 rest

/-- How a string is written. -/
inductive StringForm where
  /-- Between double quotes, with escapes. -/
  | line
  /-- Between single quotes, as it is. -/
  | literalLine
  /-- Between three double quotes each, with escapes. -/
  | block
  /-- Between three single quotes each, as it is. -/
  | literalBlock
deriving DecidableEq, Repr

/-- Three equal characters in a row. -/
def hasTriple (c : Char) (cs : List Char) : Bool := Text.occursIn [c, c, c] cs

/-- The first form that can hold a string without escapes other than for tabs, and else the one with
escapes that keeps its lines. -/
def StringForm.of (cs : List Char) : StringForm :=
  let controls := cs.any isControl
  let lines := cs.contains '\n'
  if !controls && !lines && !cs.contains '\\' && !cs.contains '"' then .line
  else if !controls && !lines && !cs.contains '\x27' then .literalLine
  else if !controls && !cs.contains '\\' && !hasTriple '"' cs then .block
  else if !controls && !hasTriple '\x27' cs then .literalBlock
  else if lines then .block
  else .line

/-- The line feed after three opening quotes. Strings on one line do without it. -/
def openingLine (cs : List Char) : List Char := if cs.contains '\n' then ['\n'] else []

/-- A string with its quotes in a given form. -/
def writeAs (form : StringForm) (cs : List Char) : List Char :=
  match form with
  | .line => '"' :: escapeLine cs ++ ['"']
  | .literalLine => '\x27' :: cs ++ ['\x27']
  | .block => ['"', '"', '"'] ++ openingLine cs ++ escapeBlock 0 cs ++ ['"', '"', '"']
  | .literalBlock =>
    ['\x27', '\x27', '\x27'] ++ openingLine cs ++ cs ++ ['\x27', '\x27', '\x27']

/-- A string with its quotes. -/
def writeString (s : String) : List Char := writeAs (.of s.toList) s.toList

/-! ## Documents -/

/-- A list of strings: on one line with at most one string, else one line for each. -/
def writeTexts : List String → List Char
  | [] => ['[', ']']
  | [s] => '[' :: writeString s ++ [']']
  | l =>
    '[' :: '\n' ::
      l.flatMap (fun s => [' ', ' ', ' ', ' '] ++ writeString s ++ [',', '\n']) ++ [']']

/-- A value. -/
def writeItem : Item → List Char
  | .text s => writeString s
  | .number n => Nat.toDigits 10 n
  | .flag b => if b then "true".toList else "false".toList
  | .texts l => writeTexts l

/-- An entry on a line of its own. The key needs no quotes. -/
def writeEntry (entry : String × Item) : List Char :=
  entry.1.toList ++ " = ".toList ++ writeItem entry.2 ++ ['\n']

/-- A table with its header after an empty line. -/
def writeTable (table : String × List (String × Item)) : List Char :=
  ['\n', '['] ++ table.1.toList ++ [']', '\n'] ++ table.2.flatMap writeEntry

/-- The text of a document. -/
def Sheet.write (s : Sheet) : String :=
  String.ofList (s.entries.flatMap writeEntry ++ s.tables.flatMap writeTable)

end SnapshotPreview.Toml

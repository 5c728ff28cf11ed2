import SnapshotPreview.Text.Utf8

/-!
# What a text of commands says

The commands of a shell and the words they are made of, before anything is run. All text is a
list of bytes, each of which stands as the character with its number.
-/

namespace SnapshotPreview.Shell

/-- The bytes of a text, as characters. -/
def ofText (s : String) : List Char := (Text.bytesOf s).toList.map fun b => Char.ofNat b.toNat

/-- Bytes that stand as characters. -/
def toBytes (cs : List Char) : List UInt8 := cs.map fun c => c.toNat.toUInt8

/-- The text of bytes. -/
def toText (cs : List Char) : String := String.ofList (Text.decodeLossy (toBytes cs))

/-- What a variable with a word beside it stands for. -/
inductive Alternative where
  /-- The word, if the variable is not set. -/
  | whenUnset
  /-- The word, if the variable is set. -/
  | whenSet
  /-- The word, which the variable is set to, if it is not set. -/
  | assigned
  /-- Nothing else: the variable must be set. -/
  | refused
deriving DecidableEq, Repr

/-- How a file is opened. -/
inductive Access where
  | read
  | write
  | append
  | both
deriving DecidableEq, Repr

mutual

/-- A part of a word. What stands between double quotes is marked as quoted. -/
inductive Part where
  | text (quoted : Bool) (cs : List Char)
  /-- A quote, which makes a word even where nothing else does. -/
  | mark
  /-- A tilde for the home directory. -/
  | home
  /-- The value of a variable. -/
  | value (quoted : Bool) (name : List Char)
  /-- The length of a value. -/
  | size (quoted : Bool) (name : List Char)
  /-- A variable with a word beside it. An empty one may count as one that is not set. -/
  | instead (quoted : Bool) (name : List Char) (emptyToo : Bool) (use : Alternative)
      (word : List Part)
  /-- A value without the beginning or the end that matches a pattern. -/
  | trim (quoted : Bool) (name : List Char) (atEnd longest : Bool) (pattern : List Part)
  /-- What commands print. -/
  | output (quoted : Bool) (program : List Command)
  /-- The value of an expression. -/
  | arithmetic (quoted : Bool) (expression : List Part)
  /-- Braces in which no variable stands. -/
  | malformed

/-- A command. -/
inductive Command where
  | simple (assignments : List (List Char × List Part)) (words : List (List Part))
      (redirections : List Redirection)
  | pipeline (stages : List Command)
  | negation (command : Command)
  | conjunction (first second : Command)
  | disjunction (first second : Command)
  | background (command : Command)
  | group (body : List Command)
  | subshell (body : List Command)
  | conditional (test yes no : List Command)
  /-- Repeats a body while, or until, a test succeeds. -/
  | loop (isUntil : Bool) (test body : List Command)
  /-- Runs a body for each of the fields of words, or for each argument. -/
  | each (name : List Char) (words : Option (List (List Part))) (body : List Command)
  /-- Runs the body of the first case with a pattern that a word matches. -/
  | select (subject : List Part) (cases : List (List (List Part) × List Command))
  | function (name : List Char) (body : Command)
  | redirected (command : Command) (redirections : List Redirection)

/-- Where a descriptor leads during a command. -/
inductive Redirection where
  | file (descriptor : Nat) (access : Access) (name : List Part)
  | copy (descriptor : Nat) (source : List Part)
  /-- Input that stands in the text of the commands themselves. -/
  | document (descriptor : Nat)

end

/-- A word. -/
abbrev Word := List Part

/-- Puts a character before parts. -/
def addText (quoted : Bool) (cs : List Char) : List Part → List Part
  | .text q more :: parts =>
    if q = quoted then .text q (cs ++ more) :: parts else .text quoted cs :: .text q more :: parts
  | parts => .text quoted cs :: parts

/-- The value of a digit. -/
def digit (c : Char) : Nat := c.toNat - '0'.toNat

/-! ## Names -/

/-- The first character of a name. -/
def startsName (c : Char) : Bool := c.isAlpha || c == '_'

/-- A character of a name. -/
def isNameChar (c : Char) : Bool := c.isAlphanum || c == '_'

/-- A name of a variable or of a function. -/
def isName (cs : List Char) : Bool := cs.head?.any startsName && cs.all isNameChar

/-- A character that alone names a variable. -/
def isSpecialName (c : Char) : Bool := c.isDigit || "?#$!@*-".contains c

/-- The text of a word without quotes and variables. -/
def plainText? : Word → Option (List Char)
  | [.text false cs] => some cs
  | _ => none

/-! ## Tildes -/

/-- A tilde that text goes on after stands for the home directory. -/
def endsTilde (isLast : Bool) : List Char → Bool
  | [] => isLast
  | c :: _ => c == '/'

/-- Finds the tilde for the home directory at the start of a word. -/
def Word.markTilde : Word → Word
  | .text false ('~' :: cs) :: parts =>
    if endsTilde parts.isEmpty cs then
      .home :: (if cs.isEmpty then parts else .text false cs :: parts)
    else .text false ('~' :: cs) :: parts
  | word => word

/-- Finds the tildes at the start of text and after colons. -/
def markTildesIn (isLast : Bool) : (atStart : Bool) → List Char → Word
  | _, [] => []
  | atStart, c :: cs =>
    if atStart ∧ c = '~' ∧ (endsTilde isLast cs ∨ cs.head? = some ':') then
      .home :: markTildesIn isLast false cs
    else addText false [c] (markTildesIn isLast (c = ':') cs)

/-- Finds the tildes in the value of a variable, at its start and after colons. -/
def Word.markTildes : (atStart : Bool) → Word → Word
  | _, [] => []
  | atStart, .text false cs :: parts =>
    markTildesIn parts.isEmpty atStart cs ++ Word.markTildes (cs.getLast? = some ':') parts
  | _, part :: parts => part :: Word.markTildes false parts

/-! ## Assignments -/

/-- The variable that a word sets and the word it is set to. -/
def assignment? : Word → Option (List Char × Word)
  | .text false cs :: parts =>
    match cs.dropWhile isNameChar with
    | '=' :: value =>
      if isName (cs.takeWhile isNameChar) then
        some (cs.takeWhile isNameChar,
          Word.markTildes true (if value.isEmpty then parts else .text false value :: parts))
      else none
    | _ => none
  | _ => none

end SnapshotPreview.Shell

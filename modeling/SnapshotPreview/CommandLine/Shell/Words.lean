import SnapshotPreview.CommandLine.Shell.Syntax

/-!
# Reading words

A word ends at a blank, an operator or the end of a line, except within quotes, braces and
parentheses. The commands within a word are read by a reader that is given.
-/

namespace SnapshotPreview.Shell

/-- A reader gives what it has read and the text after it, unless the text is not as it must be. -/
abbrev Reader (α : Type) := List Char → Option (α × List Char)

/-- A character that ends a word. -/
def endsWord (c : Char) : Bool := " \t\n;&|<>()".contains c

/-- Where the parts of a word stand, which decides where they end and which characters mean
something. -/
inductive Surround where
  /-- Outside of everything. -/
  | bare
  /-- Between double quotes, which may stand in the braces of a variable. -/
  | quotes (inBraces : Bool)
  /-- In the braces of a variable. -/
  | braces
  /-- In the braces of a variable between double quotes, and perhaps within quotes again. -/
  | quotedBraces (inner : Bool)
  /-- In an expression with so many open parentheses. -/
  | expression (depth : Nat)
deriving DecidableEq, Repr

namespace Surround

/-- Quoted text stands for itself. -/
def isQuoted : Surround → Bool
  | bare | braces => false
  | quotes _ | quotedBraces _ | expression _ => true

/-- Where the braces of a variable put the word in them. -/
def within (s : Surround) : Surround := if s.isQuoted then quotedBraces false else braces

/-- A backslash takes its meaning from the character. -/
def escapes (s : Surround) (c : Char) : Bool :=
  match s with
  | bare | braces => true
  | quotes false | expression _ => "\\\x60$\"".contains c
  | quotes true | quotedBraces _ => "\\\x60$\"\x7d".contains c

end Surround

/-- The text of commands between backquotes. A backslash is kept unless it stands before a
character that means something. -/
def readBackquoted (quoted : Bool) : Reader (List Char)
  | [] => none
  | '\x60' :: rest => some ([], rest)
  | '\\' :: c :: rest =>
    (readBackquoted quoted rest).map fun (cs, rest) =>
      if c = '\n' then (cs, rest)
      else if "\\\x60$".contains c || (quoted && c == '"') then (c :: cs, rest)
      else ('\\' :: c :: cs, rest)
  | c :: rest => (readBackquoted quoted rest).map fun (cs, rest) => (c :: cs, rest)

/-- The name of a variable in braces, and what follows it. -/
def readBracedName : Reader (List Char)
  | [] => none
  | c :: rest =>
    if startsName c then some ((c :: rest).takeWhile isNameChar, (c :: rest).dropWhile isNameChar)
    else if c.isDigit then
      some ((c :: rest).takeWhile Char.isDigit, (c :: rest).dropWhile Char.isDigit)
    else if isSpecialName c then some ([c], rest)
    else none

/-- The name of a variable whose length is asked for. Its closing brace follows. -/
def readSizedName : Reader (List Char)
  | '#' :: rest =>
    match readBracedName rest with
    | some (name, '\x7d' :: rest) => some (name, rest)
    | _ => none
  | _ => none

/-- What a sign after a variable asks for. -/
def alternative? (c : Char) : Option Alternative :=
  match c with
  | '-' => some .whenUnset
  | '+' => some .whenSet
  | '=' => some .assigned
  | '?' => some .refused
  | _ => none

/-- A variable in braces, of which the opening one has been read. The words in the braces are read
by a reader for each place. -/
def readBraced (word : Surround → Reader Word) (s : Surround) (cs : List Char) :
    Option (Part × List Char) :=
  let quoted := s.isQuoted
  let malformed (cs : List Char) : Option (Part × List Char) :=
    (word s.within cs).map fun (_, rest) => (.malformed, rest)
  let instead (name : List Char) (emptyToo : Bool) (sign : Char) (rest : List Char) :=
    match alternative? sign with
    | some use =>
      (word s.within rest).map fun (parts, rest) =>
        (Part.instead quoted name emptyToo use (if quoted then parts else Word.markTilde parts),
          rest)
    | none => malformed rest
  let trim (name : List Char) (atEnd longest : Bool) (rest : List Char) :=
    (word .braces rest).map fun (parts, rest) =>
      (Part.trim quoted name atEnd longest (Word.markTilde parts), rest)
  match readSizedName cs with
  | some (name, rest) => some (.size quoted name, rest)
  | none =>
    match readBracedName cs with
    | none =>
      match cs with
      | '\x7d' :: rest => some (.malformed, rest)
      | cs => malformed (cs.drop 1)
    | some (name, rest) =>
      match rest with
      | '\x7d' :: rest => some (.value quoted name, rest)
      | ':' :: '\x7d' :: rest =>
        (word s.within rest).map fun (_, rest) => (.value quoted name, rest)
      | ':' :: sign :: rest => instead name true sign rest
      | '#' :: '#' :: rest => trim name false true rest
      | '#' :: rest => trim name false false rest
      | '%' :: '%' :: rest => trim name true true rest
      | '%' :: rest => trim name true false rest
      | sign :: rest => instead name false sign rest
      | [] => none

/-- The text after a line that goes on, if one ends here. -/
def skipJoins : List Char → List Char
  | '\\' :: '\n' :: rest => skipJoins rest
  | cs => cs

/-- What a dollar sign begins, which may be nothing but itself. -/
def readDollar (program : Reader (List Command)) (word : Surround → Reader Word) (s : Surround)
    (cs : List Char) : Option (Part × List Char) :=
  let quoted := s.isQuoted
  match cs with
  | [] => some (.text quoted ['$'], [])
  | '(' :: '(' :: rest =>
    (word (.expression 0) rest).map fun (parts, rest) => (.arithmetic quoted parts, rest)
  | '(' :: rest =>
    match program rest with
    | some (commands, ')' :: rest) => some (.output quoted commands, rest)
    | _ => none
  | '\x7b' :: rest => readBraced word s rest
  | c :: rest =>
    if startsName c then
      some (.value quoted (cs.takeWhile isNameChar), cs.dropWhile isNameChar)
    else if isSpecialName c then some (.value quoted [c], rest)
    else some (.text quoted ['$'], cs)

/-- Puts a part before the parts read after it. -/
def Part.before : Part → List Part → List Part
  | .text quoted cs, parts => addText quoted cs parts
  | part, parts => part :: parts

/-- The parts of a word, of which `fuel` may be nested or follow each other. -/
def readParts (program : Reader (List Command)) : Nat → Surround → Reader Word
  | 0, _, _ => none
  | _ + 1, .bare, [] => some ([], [])
  | _ + 1, _, [] => none
  | fuel + 1, s, c :: rest =>
    let more (s : Surround) (cs : List Char) (change : List Part → List Part) :=
      (readParts program fuel s cs).map fun (parts, rest) => (change parts, rest)
    let plain (s : Surround) := more s rest (addText s.isQuoted [c])
    if c = '\\' then
      match rest with
      | [] => more s rest (addText true ['\\'])
      | '\n' :: rest => more s rest id
      | c :: rest => more s rest (addText true (if s.escapes c then [c] else ['\\', c]))
    else if c = '$' then
      (readDollar program (readParts program fuel) s (skipJoins rest)).bind fun (part, rest) =>
        more s rest part.before
    else if c = '\x60' then
      (readBackquoted s.isQuoted rest).bind fun (text, rest) =>
        (program text).bind fun (commands, _) =>
          more s rest (.output s.isQuoted commands :: ·)
    else
      match s with
      | .bare | .braces =>
        if s = .bare ∧ endsWord c then some ([], c :: rest)
        else if s = .braces ∧ c = '\x7d' then some ([], rest)
        else if c = '\x27' then
          match rest.dropWhile (· != '\x27') with
          | [] => none
          | _ :: after =>
            more s after fun parts => .mark :: addText true (rest.takeWhile (· != '\x27')) parts
        else if c = '"' then
          (readParts program fuel (.quotes (s != .bare)) rest).bind fun (quoted, rest) =>
            more s rest fun parts => .mark :: quoted ++ .mark :: parts
        else plain s
      | .quotes _ => if c = '"' then some ([], rest) else plain s
      | .quotedBraces inner =>
        if c = '"' then more (.quotedBraces !inner) rest id
        else if c = '\x7d' ∧ !inner then some ([], rest)
        else plain s
      | .expression depth =>
        if c = '(' then more (.expression (depth + 1)) rest (addText true [c])
        else if c = ')' then
          match depth, rest with
          | depth + 1, rest => more (.expression depth) rest (addText true [c])
          | 0, ')' :: rest => some ([], rest)
          | 0, _ => plain s
        else plain s

/-- A word. -/
def readWord (program : Reader (List Command)) : Reader Word := fun cs =>
  (readParts program (cs.length + 1) .bare cs).map fun (parts, rest) => (Word.markTilde parts, rest)

end SnapshotPreview.Shell

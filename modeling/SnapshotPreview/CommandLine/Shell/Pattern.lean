import SnapshotPreview.CommandLine.Shell.Syntax
import SnapshotPreview.FileTree

/-!
# Patterns

A pattern is matched by texts and by the names of files. Quoted characters stand for themselves.
-/

namespace SnapshotPreview.Shell

/-- A character of a pattern, and whether it is quoted. -/
abbrev Pattern := List (Char × Bool)

namespace Pattern

/-- The text of a pattern. -/
def text (p : Pattern) : List Char := p.map (·.1)

/-! ## Sets of characters -/

/-- An item of a set. -/
inductive SetItem where
  | range (least greatest : Char)
  | named (name : String)
deriving DecidableEq, Repr

/-- A byte as a signed number, by which the ends of a range are compared. -/
def signed (c : Char) : Int := if c.toNat < 128 then c.toNat else Int.ofNat c.toNat - 256

/-- The classes of characters that have names. -/
def classNames : List String :=
  ["alnum", "alpha", "blank", "cntrl", "digit", "graph", "lower", "print", "punct", "space",
    "upper", "xdigit"]

/-- A character belongs to a class. -/
def isOfClass (name : String) (c : Char) : Bool :=
  let shown := '!' ≤ c && c ≤ '~'
  match name with
  | "alnum" => c.isAlphanum
  | "alpha" => c.isAlpha
  | "blank" => c == ' ' || c == '\t'
  | "cntrl" => c < ' ' || c == '\x7f'
  | "digit" => c.isDigit
  | "graph" => shown
  | "lower" => c.isLower
  | "print" => shown || c == ' '
  | "punct" => shown && !c.isAlphanum
  | "space" => c == ' ' || ('\t' ≤ c && c ≤ '\r')
  | "upper" => c.isUpper
  | _ => c.isDigit || ('a' ≤ c && c ≤ 'f') || ('A' ≤ c && c ≤ 'F')

/-- A character belongs to an item. -/
def SetItem.contains (c : Char) : SetItem → Bool
  | range least greatest => signed least ≤ signed c && signed c ≤ signed greatest
  | named name => isOfClass name c

/-- The name of a class after an opening bracket, and the pattern after the class. -/
def readClass? (p : Pattern) : Option (String × Pattern) :=
  classNames.findSome? fun name =>
    let whole := (":" ++ name ++ ":]").toList
    if text (p.take whole.length) = whole then some (name, p.drop whole.length) else none

/-- The items of a set up to its closing bracket, at most `fuel` of them. The first item can be a
closing bracket, too. -/
def readItems : Nat → (first : Bool) → Pattern → Option (List SetItem × Pattern)
  | 0, _, _ | _, _, [] => none
  | fuel + 1, first, (c, quoted) :: rest =>
    let more (item : SetItem) (rest : Pattern) :=
      (readItems fuel false rest).map fun (items, rest) => (item :: items, rest)
    if c = ']' ∧ !quoted ∧ !first then some ([], rest)
    else
      match if c = '[' ∧ !quoted then readClass? rest else none with
      | some (name, rest) => more (.named name) rest
      | none =>
        match rest with
        | ('-', false) :: (last, lastQuoted) :: after =>
          if last = ']' ∧ !lastQuoted then more (.range c c) rest else more (.range c last) after
        | _ => more (.range c c) rest

/-- A set after its opening bracket: whether it is of all other characters, its items, and the
pattern after it. -/
def readSet (p : Pattern) : Option (Bool × List SetItem × Pattern) :=
  match p with
  | ('!', false) :: rest => (readItems p.length true rest).map (true, ·)
  | rest => (readItems (p.length + 1) true rest).map (false, ·)

/-! ## Matching -/

/-- The text matches the pattern. No more than `fuel` characters of both are looked at. -/
def matchesUpTo : Nat → Pattern → List Char → Bool
  | 0, _, _ => false
  | _, [], cs => cs.isEmpty
  | fuel + 1, (p, quoted) :: rest, cs =>
    let one (rest : Pattern) (test : Char → Bool) : Bool :=
      match cs with
      | [] => false
      | c :: cs => test c && matchesUpTo fuel rest cs
    if quoted then one rest (· == p)
    else if p = '*' then
      matchesUpTo fuel rest cs ||
        (rest.head? != some ('*', false) &&
          match cs with
          | [] => false
          | _ :: cs => matchesUpTo fuel ((p, quoted) :: rest) cs)
    else if p = '?' then one rest fun _ => true
    else if p = '[' then
      match readSet rest with
      | some (others, items, after) => one after fun c => items.any (·.contains c) != others
      | none => one rest (· == p)
    else one rest (· == p)

/-- The text matches the pattern. -/
def isMatch (p : Pattern) (cs : List Char) : Bool := matchesUpTo (p.length + cs.length + 1) p cs

/-- A text without the beginning or the end that matches the pattern, the shortest or the longest of
those that do. -/
def trim (p : Pattern) (atEnd longest : Bool) (cs : List Char) : List Char :=
  let cuts := List.range (cs.length + 1)
  let cuts := if atEnd = longest then cuts else cuts.reverse
  if atEnd then
    ((cuts.find? fun n => p.isMatch (cs.drop n)).map cs.take).getD cs
  else
    ((cuts.find? fun n => p.isMatch (cs.take n)).map cs.drop).getD cs

/-! ## Names of files -/

/-- The pattern has a sign that stands for other text. -/
def isOpen : Pattern → Bool
  | [] => false
  | (c, quoted) :: rest =>
    (!quoted && (c == '*' || c == '?')) ||
      (!quoted && c == '[' &&
        let inside := if rest.head? = some ('!', false) then rest.drop 1 else rest
        (inside.drop 1).contains (']', false)) ||
      isOpen rest

/-- The parts of a pattern between slashes. -/
def parts (p : Pattern) : List Pattern :=
  p.foldr
    (fun (c, quoted) parts =>
      match parts with
      | [] => []
      | first :: more =>
        if c = '/' then [] :: first :: more else ((c, quoted) :: first) :: more)
    [[]]

/-- The names in a directory, with those of the directory itself and the one above it. -/
def namesIn (files : FileTree) (directory : String) : List (List Char) :=
  match files.resolve directory with
  | .error _ => []
  | .ok place =>
    if files.entry? place = some .directory then
      ['.'] :: ['.', '.'] :: (files.names place).map fun name => ofText (String.ofList name)
    else []

/-- The paths of files that match the parts of a pattern, after the path of a directory. Names that
begin with a dot must be asked for. -/
def pathsAfter (files : FileTree) (directory : List Char) : List Pattern → List (List Char)
  | [] => []
  | part :: more =>
    let names :=
      if part.isOpen then
        let all := namesIn files (if directory.isEmpty then "." else toText directory)
        all.filter fun name =>
          part.isMatch name && (name.head? != some '.' || part.text.head? == some '.')
      else [part.text]
    match more with
    | [] =>
      (names.map (directory ++ ·)).filter fun path => part.isOpen || files.contains (toText path)
    | _ :: _ => names.flatMap fun name => pathsAfter files (directory ++ name ++ ['/']) more

/-- The order of texts by their bytes. -/
def isBefore : List Char → List Char → Bool
  | [], _ => true
  | _ :: _, [] => false
  | a :: as, b :: bs => a < b || (a == b && isBefore as bs)

/-- The paths of files that match a pattern, or the text of the pattern if there are none. -/
def paths (files : FileTree) (p : Pattern) : List (List Char) :=
  let found := if p.parts.any isOpen then pathsAfter files [] p.parts else []
  if found.isEmpty then [p.text] else found.mergeSort isBefore

end Pattern

end SnapshotPreview.Shell

import SnapshotPreview.Json.Parser

/-!
# The grammar of JSON

A JSON text as a tree: values, with white space around every token. Each tree has the text it stands
for (`text`) and what its strings have between their quotes (`strings`). The grammar bounds neither
the depth of a value nor the size of a number, and does not ask for the halves of a pair to come
together.
-/

namespace SnapshotPreview.Json

/-- White space between two tokens. -/
abbrev Gap := { cs : List Char // ∀ c ∈ cs, isSpace c = true }

/-- No white space. -/
def noGap : Gap := ⟨[], List.forall_mem_nil _⟩

/-- One space. -/
def oneSpace : Gap := ⟨[' '], List.forall_mem_singleton.mpr rfl⟩

/-! ## Strings -/

/-- A digit of a hexadecimal number. -/
abbrev HexDigit := { c : Char // (hexValue? c).isSome = true }

/-- A character of a string, or what is written for one. -/
inductive Piece where
  | plain (c : Char) (inString : c ≠ '"' ∧ c ≠ '\\' ∧ 0x20 ≤ c.toNat)
  | short (c : Char) (known : (shortEscape? c).isSome = true)
  | unicode (a b c d : HexDigit)

/-- The text of a piece. -/
def Piece.text : Piece → List Char
  | plain c _ => [c]
  | short c _ => ['\\', c]
  | unicode a b c d => ['\\', 'u', a, b, c, d]

/-- A string as it is written. -/
abbrev Literal := List Piece

/-- The text between the quotes of a string. -/
def Literal.inner (literal : Literal) : List Char := literal.flatMap Piece.text

@[simp] theorem literal_inner_nil : Literal.inner [] = [] := rfl

@[simp] theorem literal_inner_cons (piece : Piece) (literal : Literal) :
    Literal.inner (piece :: literal) = piece.text ++ Literal.inner literal := List.flatMap_cons

/-- The text of a string with its quotes. -/
def Literal.text (literal : Literal) : List Char := '"' :: (literal.inner ++ ['"'])

/-! ## Numbers -/

/-- Digits, at least one of them. -/
abbrev Digits := { ds : List Char // ds ≠ [] ∧ ∀ d ∈ ds, isDigit d = true }

/-- The exponent of a number. -/
structure Exponent where
  letter : { c : Char // c ∈ ['e', 'E'] }
  sign : { cs : List Char // cs ∈ [[], ['+'], ['-']] }
  digits : Digits

/-- The text of an exponent. -/
def Exponent.text (e : Exponent) : List Char := e.letter.val :: (e.sign.val ++ e.digits.val)

/-- A number as it is written. -/
structure Numeral where
  negative : Bool
  whole : Digits
  noLeadingZero : whole.val.head? = some '0' → whole.val = ['0']
  fraction : Option Digits
  exponent : Option Exponent

/-- The text of the part of a number before its point or exponent. -/
def Numeral.wholeText (n : Numeral) : List Char :=
  if n.negative then '-' :: n.whole.val else n.whole.val

/-- The text of a number. -/
def Numeral.text (n : Numeral) : List Char :=
  n.wholeText ++ (n.fraction.elim [] ('.' :: ·.val) ++ n.exponent.elim [] Exponent.text)

/-! ## Values -/

/-- The words that are values. -/
abbrev Word := { w : List Char // w ∈ ["null".toList, "true".toList, "false".toList] }

/-- The two kinds of values that hold other values. -/
inductive Kind where
  | array
  | object

/-- The bracket before the entries. -/
def Kind.opening : Kind → Char
  | array => '['
  | object => '\x7b'

/-- The bracket behind the entries. -/
def Kind.closing : Kind → Char
  | array => ']'
  | object => '\x7d'

/-- What stands before the value of an entry: the name of a member, nothing before an item. -/
inductive Label : Kind → Type where
  | item : Label .array
  | name (before : Gap) (literal : Literal) (after : Gap) : Label .object

/-- The text of a label with its colon. -/
def Label.text {kind : Kind} : Label kind → List Char
  | item => []
  | name before literal after => before.val ++ (literal.text ++ (after.val ++ [':']))

/-- The strings of a label. -/
def Label.strings {kind : Kind} : Label kind → List (List Char)
  | item => []
  | name _ literal _ => [literal.inner]

/-- What a tree stands for: a value, or the entries between two brackets. -/
inductive Part where
  | value
  | entries (kind : Kind)

/-- The trees of the grammar. Entries are separated by commas, and no comma follows the last. -/
inductive Tree : Part → Type where
  | word (w : Word) : Tree .value
  | numeral (n : Numeral) : Tree .value
  | literal (l : Literal) : Tree .value
  | empty (kind : Kind) (gap : Gap) : Tree .value
  | filled (kind : Kind) (entries : Tree (.entries kind)) : Tree .value
  | last {kind : Kind} (label : Label kind) (before : Gap) (value : Tree .value) (after : Gap) :
      Tree (.entries kind)
  | more {kind : Kind} (label : Label kind) (before : Gap) (value : Tree .value) (after : Gap)
      (rest : Tree (.entries kind)) : Tree (.entries kind)

/-- The text of a tree. -/
def Tree.text {part : Part} : Tree part → List Char
  | word w => w.val
  | numeral n => n.text
  | literal l => l.text
  | empty kind gap => kind.opening :: (gap.val ++ [kind.closing])
  | filled kind entries => kind.opening :: (entries.text ++ [kind.closing])
  | last label before value after => label.text ++ (before.val ++ (value.text ++ after.val))
  | more label before value after rest =>
    label.text ++ (before.val ++ (value.text ++ (after.val ++ ',' :: rest.text)))

/-- What the strings of a tree have between their quotes, names included. -/
def Tree.strings {part : Part} : Tree part → List (List Char)
  | word _ | numeral _ | empty _ _ => []
  | literal l => [l.inner]
  | filled _ entries => entries.strings
  | last label _ value _ => label.strings ++ value.strings
  | more label _ value _ rest => label.strings ++ (value.strings ++ rest.strings)

/-- A whole text. -/
structure Document where
  before : Gap
  value : Tree .value
  after : Gap

/-- The text of a document. -/
def Document.text (d : Document) : List Char := d.before.val ++ (d.value.text ++ d.after.val)

/-- What the strings of a document have between their quotes. -/
def Document.strings (d : Document) : List (List Char) := d.value.strings

end SnapshotPreview.Json

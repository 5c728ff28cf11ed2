import SnapshotPreview.SnapFile.Parser

/-!
# The grammar of files of snapshots

A file as a tree: assignments with the white space and the comments around every token. Each tree
has the text it stands for (`text`) and the pairs it stores (`pairs`). Nothing here reads; what a
reader owes to the grammar is stated in terms of these two.
-/

namespace SnapshotPreview.SnapFile

/-! ## Between tokens -/

/-- White space or a comment that has an end. -/
inductive Trivia where
  | space (c : Char) (blank : Text.isSpace c = true)
  | line (body : List Char) (oneLine : '\n' ∉ body)
  | block (body : List Char) (unclosed : ¬ ['*', '/'] <:+: body)

/-- The text of one piece. -/
def Trivia.text : Trivia → List Char
  | space c _ => [c]
  | line body _ => '/' :: '/' :: (body ++ ['\n'])
  | block body _ => '/' :: '*' :: (body ++ ['*', '/'])

/-- What may stand between two tokens. -/
abbrev Gap := List Trivia

/-- The text of a gap. -/
def Gap.text (gap : Gap) : List Char := gap.flatMap Trivia.text

@[simp] theorem gap_text_nil : Gap.text [] = [] := rfl

@[simp] theorem gap_text_cons (piece : Trivia) (gap : Gap) :
    Gap.text (piece :: gap) = piece.text ++ Gap.text gap := List.flatMap_cons

@[simp] theorem gap_text_append (first second : Gap) :
    Gap.text (first ++ second) = Gap.text first ++ Gap.text second := List.flatMap_append

/-! ## Literals -/

/-- The quotes that can enclose a literal. -/
inductive Quote where
  | backtick
  | single
  | double
deriving DecidableEq, Repr

/-- The character of a quote. -/
def Quote.char : Quote → Char
  | backtick => '\x60'
  | single => '\x27'
  | double => '"'

theorem quote_char_ne_backslash (quote : Quote) : quote.char ≠ '\\' := by cases quote <;> decide

/-- One character of a literal, or a backslash with the character that it escapes. -/
inductive Item (quote : Quote) where
  | plain (c : Char) (notQuote : c ≠ quote.char) (notBackslash : c ≠ '\\')
  | escape (c : Char)

/-- The text of an item. -/
def Item.text {quote : Quote} : Item quote → List Char
  | plain c _ _ => [c]
  | escape c => ['\\', c]

/-- The character that an item stands for. -/
def Item.char {quote : Quote} : Item quote → Char
  | plain c _ _ => c
  | escape 'n' => '\n'
  | escape 't' => '\t'
  | escape 'r' => '\r'
  | escape '0' => '\x00'
  | escape c => c

/-- A quoted literal. -/
structure Literal where
  quote : Quote
  items : List (Item quote)

/-- The text of a literal with its quotes. -/
def Literal.text (literal : Literal) : List Char :=
  literal.quote.char :: (literal.items.flatMap Item.text ++ [literal.quote.char])

/-- What a literal stands for. -/
def Literal.value (literal : Literal) : String := String.ofList (literal.items.map Item.char)

/-! ## Assignments and files -/

/-- How an assignment names its key. -/
inductive Accessor where
  | brackets (before : Gap) (key : Literal) (after : Gap)
  | dot (before : Gap) (key : List Char) (nonempty : key ≠ [])
      (plain : ∀ c ∈ key, isKeyChar c = true)

/-- The text of an accessor. -/
def Accessor.text : Accessor → List Char
  | brackets before key after => '[' :: (before.text ++ (key.text ++ (after.text ++ [']'])))
  | dot before key _ _ => '.' :: (before.text ++ key)

/-- The key that an accessor names. -/
def Accessor.key : Accessor → String
  | brackets _ key _ => key.value
  | dot _ key _ _ => String.ofList key

/-- One assignment, with the gap before its semicolon if it has one. -/
structure Assignment where
  beforeAccessor : Gap
  accessor : Accessor
  beforeEquals : Gap
  beforeValue : Gap
  value : Literal
  semicolon : Option Gap

/-- The text of a semicolon with the gap before it, or nothing. -/
def semicolonText : Option Gap → List Char
  | none => []
  | some before => before.text ++ [';']

/-- The text of an assignment. -/
def Assignment.text (a : Assignment) : List Char :=
  exportsWord ++ (a.beforeAccessor.text ++ (a.accessor.text ++ (a.beforeEquals.text ++
    ('=' :: (a.beforeValue.text ++ (a.value.text ++ semicolonText a.semicolon))))))

/-- The key and the value of an assignment. -/
def Assignment.pair (a : Assignment) : String × String := (a.accessor.key, a.value.value)

/-- A line comment that the end of the file cuts short. -/
def lastLineText : Option { body : List Char // '\n' ∉ body } → List Char
  | none => []
  | some body => '/' :: '/' :: body.val

/-- A file: assignments with gaps between them, and at the end a gap and perhaps a line comment
that has no newline. -/
inductive Source where
  | finish (gap : Gap) (lastLine : Option { body : List Char // '\n' ∉ body })
  | assign (gap : Gap) (assignment : Assignment) (rest : Source)

/-- The text of a file. -/
def Source.text : Source → List Char
  | finish gap lastLine => gap.text ++ lastLineText lastLine
  | assign gap assignment rest => gap.text ++ (assignment.text ++ rest.text)

/-- The pairs that a file stores, in order. -/
def Source.pairs : Source → List (String × String)
  | finish _ _ => []
  | assign _ assignment rest => assignment.pair :: rest.pairs

/-- The same file behind one more gap. -/
def Source.behind (before : Gap) : Source → Source
  | finish gap lastLine => finish (before ++ gap) lastLine
  | assign gap assignment rest => assign (before ++ gap) assignment rest

theorem source_text_behind (before : Gap) (source : Source) :
    (source.behind before).text = before.text ++ source.text := by
  cases source with
  | finish gap lastLine => simp [Source.behind, Source.text]
  | assign gap assignment rest => simp [Source.behind, Source.text]

theorem source_pairs_behind (before : Gap) (source : Source) :
    (source.behind before).pairs = source.pairs := by
  cases source with
  | finish gap lastLine => rfl
  | assign gap assignment rest => rfl

end SnapshotPreview.SnapFile

import SnapshotPreview.Proofs.SnapFile.Reading

/-!
# Writing files of snapshots

Pairs are written with any quotes, any gaps and either form of key, and in a literal only
backslashes and its own quote are escaped. Whatever the layout, reading gives the pairs back
(`parse_print`): what is written is the text of a file of the grammar, and every such file is read.
-/

namespace SnapshotPreview.SnapFile

/-! ## Layouts -/

/-- A character within a literal: a backslash stands before a backslash and before the quote. -/
def escaped (quote : Quote) (c : Char) : List Char :=
  if c = '\\' ∨ c = quote.char then ['\\', c] else [c]

/-- A text between quotes. -/
def quoted (quote : Quote) (s : String) : List Char :=
  quote.char :: (s.toList.flatMap (escaped quote) ++ [quote.char])

/-- The two ways to write a key. Only a plain key can stand after a dot. -/
inductive KeyForm (key : String) where
  | brackets (before : Gap) (quote : Quote) (after : Gap)
  | dot (before : Gap) (nonempty : key.toList ≠ []) (plain : ∀ c ∈ key.toList, isKeyChar c = true)

/-- The text of a key. -/
def KeyForm.text {key : String} : KeyForm key → List Char
  | brackets before quote after => '[' :: (before.text ++ (quoted quote key ++ (after.text ++ [']'])))
  | dot before _ _ => '.' :: (before.text ++ key.toList)

/-- A pair to be written, and everything about its writing that reading must not depend on. -/
structure Entry where
  key : String
  value : String
  before : Gap
  beforeKey : Gap
  form : KeyForm key
  beforeEquals : Gap
  beforeValue : Gap
  quote : Quote
  semicolon : Option Gap

/-- The key and the value of an entry. -/
def Entry.pair (e : Entry) : String × String := (e.key, e.value)

/-- The text of an entry with the gap before it. -/
def Entry.text (e : Entry) : List Char :=
  e.before.text ++ (exportsWord ++ (e.beforeKey.text ++ (e.form.text ++ (e.beforeEquals.text ++
    ('=' :: (e.beforeValue.text ++ (quoted e.quote e.value ++ semicolonText e.semicolon)))))))

/-- The text of a file of entries, with a gap at its end. -/
def print (entries : List Entry) (after : Gap) : String :=
  String.ofList (entries.flatMap Entry.text ++ after.text)

/-! ## What is written belongs to the grammar -/

/-- A character as an item, escaped when it has to be. -/
def Item.ofChar (quote : Quote) (c : Char) : Item quote :=
  if special : c = '\\' ∨ c = quote.char then .escape c
  else .plain c (fun same => special (.inr same)) (fun same => special (.inl same))

theorem item_text_ofChar (quote : Quote) (c : Char) : (Item.ofChar quote c).text = escaped quote c := by
  unfold Item.ofChar escaped
  split <;> rfl

/-- Neither a backslash nor a quote, when escaped, stands for another character. -/
theorem item_char_ofChar (quote : Quote) (c : Char) : (Item.ofChar quote c).char = c := by
  unfold Item.ofChar
  split
  · rename_i special
    rcases special with rfl | rfl
    · rfl
    · cases quote <;> rfl
  · rfl

/-- The literal that is written for a text. -/
def Literal.ofString (quote : Quote) (s : String) : Literal where
  quote := quote
  items := s.toList.map (Item.ofChar quote)

theorem literal_text_ofString (quote : Quote) (s : String) :
    (Literal.ofString quote s).text = quoted quote s := by
  have same : (Item.text ∘ Item.ofChar quote) = escaped quote := funext (item_text_ofChar quote)
  simp [Literal.ofString, Literal.text, quoted, List.flatMap_map, same, ← Function.comp_def]

theorem literal_value_ofString (quote : Quote) (s : String) :
    (Literal.ofString quote s).value = s := by
  have same : (Item.char ∘ Item.ofChar quote) = id := funext (item_char_ofChar quote)
  simp [Literal.ofString, Literal.value, same]

/-- The accessor that is written for a key. -/
def KeyForm.accessor {key : String} : KeyForm key → Accessor
  | brackets before quote after => .brackets before (Literal.ofString quote key) after
  | dot before nonempty plain => .dot before key.toList nonempty plain

theorem accessor_text {key : String} (form : KeyForm key) : form.accessor.text = form.text := by
  cases form with
  | brackets before quote after =>
    simp only [KeyForm.accessor, Accessor.text, KeyForm.text, literal_text_ofString]
  | dot before nonempty plain => rfl

theorem accessor_key {key : String} (form : KeyForm key) : form.accessor.key = key := by
  cases form with
  | brackets before quote after => exact literal_value_ofString quote key
  | dot before nonempty plain => exact String.ofList_toList

/-- The assignment that is written for an entry. -/
def Entry.assignment (e : Entry) : Assignment where
  beforeAccessor := e.beforeKey
  accessor := e.form.accessor
  beforeEquals := e.beforeEquals
  beforeValue := e.beforeValue
  value := Literal.ofString e.quote e.value
  semicolon := e.semicolon

theorem assignment_text (e : Entry) : e.before.text ++ e.assignment.text = e.text := by
  simp only [Assignment.text, Entry.assignment, Entry.text, accessor_text, literal_text_ofString]

theorem assignment_pair (e : Entry) : e.assignment.pair = e.pair := by
  simp only [Assignment.pair, Entry.assignment, Entry.pair, accessor_key, literal_value_ofString]

/-- The file that is written for a list of entries. -/
def Source.ofEntries (after : Gap) : List Entry → Source
  | [] => .finish after none
  | e :: entries => .assign e.before e.assignment (ofEntries after entries)

theorem source_text_ofEntries (entries : List Entry) (after : Gap) :
    (Source.ofEntries after entries).text = entries.flatMap Entry.text ++ after.text := by
  induction entries with
  | nil => simp [Source.ofEntries, Source.text, lastLineText]
  | cons e entries ih =>
    rw [Source.ofEntries, Source.text, ih, ← List.append_assoc, assignment_text,
      List.flatMap_cons, List.append_assoc]

theorem source_pairs_ofEntries (entries : List Entry) (after : Gap) :
    (Source.ofEntries after entries).pairs = entries.map Entry.pair := by
  induction entries with
  | nil => rfl
  | cons e entries ih => rw [Source.ofEntries, Source.pairs, ih, assignment_pair, List.map_cons]

/-! ## Reading back -/

/-- Reading what was written gives the record of the pairs in their order, whatever their text and
whatever the layout. -/
theorem parse_print (entries : List Entry) (after : Gap) :
    parse (print entries after) = .ok (Record.ofPairs (entries.map Entry.pair)) := by
  have accepted := parse_source (Source.ofEntries after entries)
  rwa [source_text_ofEntries, source_pairs_ofEntries] at accepted

example :
    print [{
        key := "a`b 1", value := "it's", before := [], beforeKey := []
        form := .brackets [] .backtick [], beforeEquals := [.block ['x'] (by decide)]
        beforeValue := [.space ' ' rfl], quote := .single, semicolon := some [] }]
      [.space '\n' rfl] = "exports[`a\\`b 1`]/*x*/= 'it\\'s';\n" := by decide

end SnapshotPreview.SnapFile

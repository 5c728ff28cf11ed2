import SnapshotPreview.Proofs.CallSite
import SnapshotPreview.Proofs.SnapFile.Acceptance
import SnapshotPreview.Proofs.SnapFile.Printing

/-!
# Literals read as characters and as bytes

The same literal can stand in source text and in a file of snapshots. The reader of source text walks
through its bytes and drops each backslash that escapes, also before a character of several bytes;
the reader of files takes characters, and to it four escaped letters stand for other characters. Both
end at the same quote, and they agree on the value exactly if none of those letters is escaped
(`read_of_readLiteral`). What is written with a backslash before each quote and each backslash is
read back (`read_quoted`).
-/

namespace SnapshotPreview

namespace SnapFile

variable {quote : Quote}

theorem quote_char_ascii (quote : Quote) : quote.char.toNat < 128 := by cases quote <;> decide

theorem quote_char_width (quote : Quote) : quote.char.utf8Size = 1 := by cases quote <;> decide

theorem quote_char_inj {first second : Quote} (same : first.char = second.char) :
    first = second := by
  revert same
  cases first <;> cases second <;> decide

/-! ## Escapes -/

/-- The characters of a literal before which a backslash stands that is not escaped itself. -/
def escapedChars : List Char → List Char
  | [] => []
  | '\\' :: c :: rest => c :: escapedChars rest
  | _ :: rest => escapedChars rest

theorem escapedChars_plain {c : Char} (plain : c ≠ '\\') (rest : List Char) :
    escapedChars (c :: rest) = escapedChars rest := by
  rw [escapedChars.eq_def]
  split
  · rename_i same
    cases same
  · rename_i same
    exact absurd (List.cons.inj same).1 plain
  · rename_i same
    rw [(List.cons.inj same).2]

theorem mem_escapedChars_iff {c : Char} (items : List (Item quote)) :
    c ∈ escapedChars (items.flatMap Item.text) ↔ .escape c ∈ items := by
  induction items with
  | nil => simp [escapedChars]
  | cons item items ih =>
    cases item with
    | plain d notQuote notBackslash =>
      simp [Item.text, escapedChars_plain notBackslash, ih]
    | escape d => simp [Item.text, escapedChars, ih]

/-- What is left of an item without its backslash. -/
def Item.kept : Item quote → Char
  | plain c _ _ => c
  | escape c => c

theorem unescape_eq_self_iff {c : Char} : unescape c = c ↔ c ∉ ['n', 't', 'r', '0'] := by
  by_cases letter : c ∈ ['n', 't', 'r', '0']
  · simp only [List.mem_cons, List.not_mem_nil, or_false] at letter
    rcases letter with rfl | rfl | rfl | rfl <;> decide
  · simp_all [unescape]

theorem kept_eq_char_iff (items : List (Item quote)) :
    items.map Item.kept = items.map Item.char ↔
      ∀ c ∈ escapedChars (items.flatMap Item.text), c ∉ ['n', 't', 'r', '0'] := by
  rw [List.map_inj_left]
  constructor
  · intro same c isEscaped
    have kept := same _ ((mem_escapedChars_iff items).mp isEscaped)
    rw [← unescape_eq_char] at kept
    exact unescape_eq_self_iff.mp kept.symm
  · intro noLetter item isIn
    cases item with
    | plain c notQuote notBackslash => rfl
    | escape c =>
      have stays := noLetter c ((mem_escapedChars_iff items).mpr isIn)
      rw [← unescape_eq_char, unescape_eq_self_iff.mpr stays]
      rfl

theorem kept_ofChar (c : Char) : (Item.ofChar quote c).kept = c := by
  unfold Item.ofChar
  split <;> rfl

theorem exists_items_of_quoted (quote : Quote) (s : String) :
    ∃ items : List (Item quote),
      (Literal.mk quote items).text = quoted quote s ∧ items.map Item.kept = s.toList := by
  have same : (Item.kept ∘ Item.ofChar quote) = id := funext kept_ofChar
  exact ⟨s.toList.map (Item.ofChar quote), literal_text_ofString quote s, by simp [same]⟩

end SnapFile

/-! ## Walking through the bytes -/

namespace Quoted

open SnapFile

variable {quote : Quote}

theorem scan_plain_item {c : Char} (notQuote : c ≠ quote.char) (notBackslash : c ≠ '\\')
    (rest : List UInt8) :
    scan (Text.byte quote.char) (String.utf8EncodeChar c ++ rest) =
      (String.utf8EncodeChar c ++ (scan (Text.byte quote.char) rest).1,
        (String.utf8EncodeChar c).length + (scan (Text.byte quote.char) rest).2) := by
  refine scan_plain_append ?_ ?_ rest
  · rw [Text.byte_mem_utf8EncodeChar_iff (quote_char_ascii quote)]
    exact Ne.symm notQuote
  · rw [Text.byte_mem_utf8EncodeChar_iff (by decide)]
    exact Ne.symm notBackslash

/-- Only the first byte of the character is jumped over together with the backslash. No other byte
of it can be taken for a quote or a backslash. -/
theorem scan_escape_item (quote : Quote) (c : Char) (rest : List UInt8) :
    scan (Text.byte quote.char) (Text.byte '\\' :: (String.utf8EncodeChar c ++ rest)) =
      (String.utf8EncodeChar c ++ (scan (Text.byte quote.char) rest).1,
        (String.utf8EncodeChar c).length + 1 + (scan (Text.byte quote.char) rest).2) := by
  obtain ⟨lead, more, bytes⟩ := List.exists_cons_of_ne_nil (String.utf8EncodeChar_ne_nil (c := c))
  have notQuote : Text.byte '\\' ≠ Text.byte quote.char := by cases quote <;> decide
  have onward := scan_plain_append (Text.byte_not_mem_tail (quote_char_ascii quote) bytes)
    (Text.byte_not_mem_tail (by decide) bytes) rest
  rw [bytes, List.cons_append, scan.eq_def]
  simp only [if_neg notQuote, if_true, onward, List.cons_append, List.length_cons, Prod.mk.injEq,
    true_and]
  omega

/-- The scan of a literal keeps its characters without the backslashes that escape, and ends at its
closing quote. -/
theorem scan_items (items : List (Item quote)) (rest : List UInt8) :
    scan (Text.byte quote.char) (Text.encode (items.flatMap Item.text) ++ Text.byte quote.char :: rest) =
      (Text.encode (items.map Item.kept), Text.byteLength (items.flatMap Item.text)) := by
  induction items with
  | nil => exact scan_quote _ rest
  | cons item items ih =>
    cases item with
    | plain c notQuote notBackslash =>
      have step := scan_plain_item notQuote notBackslash
        (Text.encode (items.flatMap Item.text) ++ Text.byte quote.char :: rest)
      rw [ih] at step
      simpa [Item.text, Item.kept, Text.byteLength] using step
    | escape c =>
      have step := scan_escape_item quote c
        (Text.encode (items.flatMap Item.text) ++ Text.byte quote.char :: rest)
      rw [ih] at step
      have width : '\\'.utf8Size = 1 := by decide
      rw [List.flatMap_cons, Item.text, List.cons_append, List.singleton_append,
        Text.encode_cons_of_ascii (by decide), Text.encode_cons, List.cons_append, List.append_assoc,
        step]
      simp only [List.map_cons, Item.kept, Text.encode_cons, Text.byteLength, width,
        String.length_utf8EncodeChar, Prod.mk.injEq, true_and]
      omega

/-! ## Literals in a text -/

theorem quoteOf_char (notBacktick : quote ≠ .backtick) :
    quoteOf (some (Text.byte quote.char)) = Text.byte quote.char := by
  cases quote with
  | backtick => exact absurd rfl notBacktick
  | single => decide
  | double => decide

/-- A literal in a text is read from its opening to its closing quote. -/
theorem read_literal {text : String} {before after : List Char} (notBacktick : quote ≠ .backtick)
    (items : List (Item quote))
    (parts : text.toList = before ++ ((Literal.mk quote items).text ++ after)) :
    read (Text.bytesOf text) (Text.byteLength before) =
      { value := String.ofList (items.map Item.kept)
        stop := Text.byteLength (before ++ quote.char :: items.flatMap Item.text) } := by
  have bytes : (Text.bytesOf text).toList = Text.encode before ++ Text.byte quote.char ::
      (Text.encode (items.flatMap Item.text) ++ Text.byte quote.char :: Text.encode after) := by
    rw [Text.toList_bytesOf, parts]
    simp [Literal.text, Text.utf8EncodeChar_of_ascii (quote_char_ascii quote)]
  have size : (Text.bytesOf text).size = Text.byteLength before +
      (Text.byteLength (items.flatMap Item.text) + (Text.byteLength after + 1) + 1) := by
    rw [← Array.length_toList, bytes]
    simp [Text.length_encode]
  rw [← Text.length_encode before, read_of_parts bytes (quoteOf_char notBacktick), scan_items,
    Text.decodeLossy_encode, Text.length_encode, size, Text.byteLength_append, Text.byteLength,
    quote_char_width]
  congr 1
  omega

/-- Where the reader of files accepts a literal in single or double quotes, the reader of source text
ends at the quote that closes it, and it gives the same value exactly if none of the four letters that
stand for other characters is escaped. -/
theorem read_of_readLiteral {text value : String} {pos : Nat} {stop : Cursor}
    (notBacktick : quote ≠ .backtick)
    (here : (Text.bytesOf text)[pos]? = some (Text.byte quote.char))
    (accepted : Cursor.readLiteral { text := Text.bytesOf text, pos } = .ok (value, stop)) :
    ∃ before body after, text.toList = before ++ quote.char :: (body ++ quote.char :: after) ∧
      pos = Text.byteLength before ∧
      (read (Text.bytesOf text) pos).stop = Text.byteLength (before ++ quote.char :: body) ∧
      stop.pos = (read (Text.bytesOf text) pos).stop + 1 ∧
      ((read (Text.bytesOf text) pos).value = value ↔
        ∀ c ∈ escapedChars body, c ∉ ['n', 't', 'r', '0']) := by
  obtain ⟨before, onward, parts, rfl⟩ := Text.exists_parts_of_byte (quote_char_ascii quote) here
  have whole : (Text.bytesOf text).toList = Text.encode (before ++ quote.char :: onward) := by
    rw [Text.toList_bytesOf, parts]
  have start : { text := Text.bytesOf text, pos := Text.byteLength before } =
      Cursor.before (Text.bytesOf text) (quote.char :: onward) :=
    congrArg (Cursor.mk _) (Cursor.pos_before whole).symm
  rw [start, Cursor.readLiteral_before (Cursor.ends_of_parts whole)] at accepted
  obtain ⟨⟨value', after⟩, taken, same⟩ := located_eq_ok.mp accepted
  cases same
  obtain ⟨⟨other, items⟩, written, rfl⟩ := exists_literal_of_readLiteral taken
  obtain rfl : quote = other := quote_char_inj (List.cons.inj written).1
  rw [written] at parts whole
  have closing : before ++ ((Literal.mk quote items).text ++ after) =
      (before ++ quote.char :: items.flatMap Item.text) ++ [quote.char] ++ after := by
    simp [Literal.text]
  rw [closing] at whole
  rw [read_literal notBacktick items parts]
  refine ⟨before, items.flatMap Item.text, after, by simp [parts, Literal.text], rfl, rfl, ?_, ?_⟩
  · refine (Cursor.pos_before whole).trans ?_
    rw [Text.byteLength_append _ [quote.char], Text.byteLength, quote_char_width]
    rfl
  · rw [← kept_eq_char_iff, Literal.value, String.ofList_inj]

/-- A check mark and a quote that are escaped, behind a character of two bytes. -/
def escapedCheckMark : String := "é('a\\✓\\'')"

theorem read_of_escapedCheckMark :
    (Text.bytesOf escapedCheckMark)[3]? = some (Text.byte '\x27') ∧
      Cursor.readLiteral { text := Text.bytesOf escapedCheckMark, pos := 3 } =
        .ok ("a✓'", { text := Text.bytesOf escapedCheckMark, pos := 12 }) ∧
      (read (Text.bytesOf escapedCheckMark) 3).stop = 11 ∧
      (read (Text.bytesOf escapedCheckMark) 3).value = "a✓'" := by
  have here : (Text.bytesOf escapedCheckMark)[3]? = some (Text.byte '\x27') := by decide +kernel
  have accepted : Cursor.readLiteral { text := Text.bytesOf escapedCheckMark, pos := 3 } =
      .ok ("a✓'", { text := Text.bytesOf escapedCheckMark, pos := 12 }) := by decide +kernel
  obtain ⟨before, body, after, parts, start, last, closing, value⟩ :=
    read_of_readLiteral (show Quote.single ≠ .backtick by decide) here accepted
  have stop : (read (Text.bytesOf escapedCheckMark) 3).stop = 11 := (Nat.succ.inj closing).symm
  -- The parts of the text are told by their lengths.
  have written : escapedCheckMark.toList =
      ['é', '('] ++ '\x27' :: (['a', '\\', '✓', '\\', '\x27'] ++ ['\x27', ')']) := by decide +kernel
  obtain rfl : ['é', '('] = before :=
    Text.append_inj_of_byteLength (written.symm.trans parts) (by rw [← start]; decide)
  have inner := (List.cons.inj (List.append_cancel_left (written.symm.trans parts))).2
  obtain rfl : ['a', '\\', '✓', '\\', '\x27'] = body :=
    Text.append_inj_of_byteLength inner (by
      rw [stop, Text.byteLength_append] at last
      have width : Text.byteLength ['é', '('] = 3 := by decide
      have whole : Text.byteLength (Quote.single.char :: body) = 1 + Text.byteLength body := rfl
      have seven : Text.byteLength ['a', '\\', '✓', '\\', '\x27'] = 7 := by decide
      omega)
  exact ⟨here, accepted, stop, value.mpr (by simp [escapedChars])⟩

-- On an escaped letter the two readers differ.
example : Cursor.readLiteral (.ofText "'\\n'") =
      .ok ("\n", { text := Text.bytesOf "'\\n'", pos := 4 }) ∧
    read (Text.bytesOf "'\\n'") 0 = { value := "n", stop := 3 } := by decide +kernel

/-- What is written between single or double quotes, with a backslash before each backslash and each
such quote, is read back wherever it stands. -/
theorem read_quoted (notBacktick : quote ≠ .backtick) (before s after : String) :
    read (Text.bytesOf (before ++ String.ofList (quoted quote s) ++ after)) before.utf8ByteSize =
      { value := s
        stop := (before ++ String.ofList (quoted quote s)).utf8ByteSize - 1 } := by
  obtain ⟨items, written, kept⟩ := exists_items_of_quoted quote s
  have parts : (before ++ String.ofList (quoted quote s) ++ after).toList =
      before.toList ++ ((Literal.mk quote items).text ++ after.toList) := by
    simp [written]
  have closing : (before ++ String.ofList (quoted quote s)).toList =
      before.toList ++ quote.char :: items.flatMap Item.text ++ [quote.char] := by
    simp [← written, Literal.text]
  rw [← Text.byteLength_toList before, read_literal notBacktick items parts, kept,
    String.ofList_toList, ← Text.byteLength_toList, closing, Text.byteLength_append _ [quote.char],
    Text.byteLength, quote_char_width]
  rfl

theorem read_quoted_of_backslashAtEnd :
    Quote.double ≠ .backtick ∧
      read (Text.bytesOf "x(\"é\\\\\\\"\\\\\")") 2 = { value := "é\\\"\\", stop := 11 } := by
  have written : "x(" ++ String.ofList (quoted .double "é\\\"\\") ++ ")" =
      "x(\"é\\\\\\\"\\\\\")" := by decide +kernel
  have start : "x(".utf8ByteSize = 2 := by decide +kernel
  have closing : ("x(" ++ String.ofList (quoted .double "é\\\"\\")).utf8ByteSize - 1 = 11 := by
    decide +kernel
  have back := read_quoted (show Quote.double ≠ .backtick by decide) "x(" "é\\\"\\" ")"
  rw [written, start, closing] at back
  exact ⟨by decide, back⟩

end Quoted

end SnapshotPreview

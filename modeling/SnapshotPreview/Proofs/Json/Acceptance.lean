import Mathlib.Data.List.DropRight
import Mathlib.Data.List.TakeWhile
import SnapshotPreview.Except
import SnapshotPreview.Proofs.Json.Grammar

/-!
# Only JSON is read

A text that is read is the text of a tree of the grammar (`exists_document_of_parse`). Each reader
has one lemma: what it took off the text belongs to a tree of its part.
-/

namespace SnapshotPreview.Json

/-! ## White space and words -/

theorem exists_gap_of_skipSpace (cs : List Char) : ∃ gap : Gap, cs = gap.val ++ skipSpace cs :=
  ⟨⟨cs.takeWhile isSpace, fun _ isIn => List.mem_takeWhile_imp isIn⟩,
    List.takeWhile_append_dropWhile.symm⟩

theorem skipSpace_skipSpace (cs : List Char) : skipSpace (skipSpace cs) = skipSpace cs :=
  List.dropWhile_idempotent _ _

theorem eq_cons_of_readExactly {c : Char} {cs rest : List Char}
    (read : readExactly c cs = .ok rest) : cs = c :: rest := by
  cases cs with
  | nil => cases read
  | cons d cs =>
    rw [readExactly] at read
    split at read
    · rename_i same
      cases read
      rw [same]
    · cases read

theorem eq_append_of_readWord {word cs rest : List Char} (read : readWord word cs = .ok rest) :
    cs = word ++ rest := by
  induction word generalizing cs with
  | nil =>
    cases read
    rfl
  | cons c word ih =>
    obtain ⟨next, first, read⟩ := bind_eq_ok.mp read
    rw [eq_cons_of_readExactly first, ih read]
    rfl

/-! ## Strings -/

theorem exists_digits_of_readHex {cs rest : List Char} {n : Nat}
    (read : readHex cs = .ok (n, rest)) :
    ∃ a b c d : HexDigit, cs = a.val :: b.val :: c.val :: d.val :: rest := by
  unfold readHex at read
  split at read
  · cases read
  · split at read
    · rename_i a b c d rest notShort
      split at read
      · rename_i first second third fourth
        cases read
        exact ⟨⟨a, by rw [first]; rfl⟩, ⟨b, by rw [second]; rfl⟩, ⟨c, by rw [third]; rfl⟩,
          ⟨d, by rw [fourth]; rfl⟩, rfl⟩
      · cases read
    · cases read

/-- One code is read, or the two of a pair. -/
theorem exists_pieces_of_readUnicodeEscape {cs rest : List Char} {c : Char}
    (read : readUnicodeEscape cs = .ok (c, rest)) :
    ∃ l : Literal, '\\' :: 'u' :: cs = l.inner ++ rest := by
  unfold readUnicodeEscape at read
  obtain ⟨⟨high, next⟩, readHigh, afterHigh⟩ := bind_eq_ok.mp read
  obtain ⟨a, b, c, d, rfl⟩ := exists_digits_of_readHex readHigh
  dsimp only at afterHigh
  split at afterHigh
  · cases afterHigh
  · split at afterHigh
    · cases afterHigh
      exact ⟨[.unicode a b c d], rfl⟩
    · obtain ⟨behindSlash, slash, afterSlash⟩ := bind_eq_ok.mp afterHigh
      obtain ⟨behindLetter, letter, afterLetter⟩ := bind_eq_ok.mp afterSlash
      obtain ⟨⟨low, last⟩, readLow, afterLow⟩ := bind_eq_ok.mp afterLetter
      obtain ⟨e, f, g, h, rfl⟩ := exists_digits_of_readHex readLow
      dsimp only at afterLow
      split at afterLow
      · cases afterLow
      · obtain ⟨-, rfl⟩ := Prod.mk.inj (Except.ok.inj afterLow)
        refine ⟨[.unicode a b c d, .unicode e f g h], ?_⟩
        rw [eq_cons_of_readExactly slash, eq_cons_of_readExactly letter]
        rfl

theorem exists_pieces_of_readEscape {cs rest : List Char} {c : Char}
    (read : readEscape cs = .ok (c, rest)) : ∃ l : Literal, '\\' :: cs = l.inner ++ rest := by
  cases cs with
  | nil => cases read
  | cons d cs =>
    rw [readEscape] at read
    split at read
    · rename_i isU
      rw [beq_iff_eq.mp isU]
      exact exists_pieces_of_readUnicodeEscape read
    · split at read
      · rename_i known
        cases read
        exact ⟨[.short d (by rw [known]; rfl)], rfl⟩
      · cases read

theorem inner_append (first second : Literal) :
    Literal.inner (first ++ second) = first.inner ++ second.inner := List.flatMap_append

theorem exists_literal_of_readChars {fuel : Nat} {cs chars rest : List Char}
    (read : readChars fuel cs = .ok (chars, rest)) :
    ∃ l : Literal, cs = l.inner ++ '"' :: rest := by
  induction fuel generalizing cs chars with
  | zero => cases cs <;> cases read
  | succ fuel ih =>
    cases cs with
    | nil => cases read
    | cons c cs =>
      rw [readChars] at read
      split at read
      · rename_i quote
        cases read
        exact ⟨[], by rw [beq_iff_eq.mp quote]; rfl⟩
      · rename_i notQuote
        split at read
        · rename_i backslash
          obtain ⟨⟨d, next⟩, readOne, read⟩ := bind_eq_ok.mp read
          obtain ⟨⟨more, last⟩, readMore, read⟩ := bind_eq_ok.mp read
          cases read
          obtain ⟨first, text⟩ := exists_pieces_of_readEscape readOne
          obtain ⟨l, rfl⟩ := ih readMore
          exact ⟨first ++ l, by rw [beq_iff_eq.mp backslash, text, inner_append, List.append_assoc]⟩
        · rename_i notBackslash
          split at read
          · cases read
          · rename_i printable
            obtain ⟨⟨more, last⟩, readMore, read⟩ := bind_eq_ok.mp read
            cases read
            obtain ⟨l, rfl⟩ := ih readMore
            have inString : c ≠ '"' ∧ c ≠ '\\' ∧ 0x20 ≤ c.toNat := by
              rw [beq_iff_eq] at notQuote notBackslash
              exact ⟨notQuote, notBackslash, Nat.le_of_not_lt printable⟩
            exact ⟨.plain c inString :: l, rfl⟩

theorem exists_literal_of_readString {cs rest : List Char} {s : String}
    (read : readString cs = .ok (s, rest)) : ∃ l : Literal, '"' :: cs = l.text ++ rest := by
  obtain ⟨⟨chars, last⟩, readAll, read⟩ := bind_eq_ok.mp read
  cases read
  obtain ⟨l, rfl⟩ := exists_literal_of_readChars readAll
  exact ⟨l, by simp [Literal.text]⟩

/-! ## Numbers -/

theorem exists_digits_of_readDigits {cs : List Char} (some : ¬ (readDigits cs).1.isEmpty = true) :
    ∃ ds : Digits, cs = ds.val ++ (readDigits cs).2 := by
  have notEmpty : cs.takeWhile isDigit ≠ [] := by
    intro empty
    exact some (by rw [readDigits, empty]; rfl)
  exact ⟨⟨cs.takeWhile isDigit, notEmpty, fun _ isIn => List.mem_takeWhile_imp isIn⟩,
    List.takeWhile_append_dropWhile.symm⟩

theorem exists_exponent_of_readExponent {letter : Char} (isLetter : letter ∈ ['e', 'E'])
    {cs rest : List Char} {n : Int} (read : readExponent cs = .ok (n, rest)) :
    ∃ e : Exponent, letter :: cs = e.text ++ rest := by
  unfold readExponent at read
  split at read
  rename_i negative unsigned sign
  split at read
  · cases read
  dsimp only at read
  split at read
  · cases read
  rename_i digits
  cases read
  obtain ⟨ds, text⟩ := exists_digits_of_readDigits digits
  split at sign
  · obtain ⟨-, rfl⟩ := Prod.mk.inj sign
    exact ⟨⟨⟨letter, isLetter⟩, ⟨['+'], by decide⟩, ds⟩, congrArg (letter :: '+' :: ·) text⟩
  · obtain ⟨-, rfl⟩ := Prod.mk.inj sign
    exact ⟨⟨⟨letter, isLetter⟩, ⟨['-'], by decide⟩, ds⟩, congrArg (letter :: '-' :: ·) text⟩
  · obtain ⟨-, rfl⟩ := Prod.mk.inj sign
    exact ⟨⟨⟨letter, isLetter⟩, ⟨[], by decide⟩, ds⟩, congrArg (letter :: ·) text⟩

theorem exists_exponent_of_exponentLetter {cs rest : List Char} {n : Int}
    (starts : exponentLetter cs = true) (read : readExponent cs.tail = .ok (n, rest)) :
    ∃ e : Exponent, cs = e.text ++ rest := by
  cases cs with
  | nil => cases starts
  | cons letter cs =>
    rw [exponentLetter, Bool.or_eq_true, beq_iff_eq, beq_iff_eq] at starts
    exact exists_exponent_of_readExponent (by simpa using starts) read

/-- What follows the whole part of a number: a fraction, an exponent, both or nothing. -/
theorem exists_tail_of_readAfterWhole {negative : Bool} {significand leftOver : Nat}
    {cs rest : List Char} {n : JsonNumber}
    (read : readAfterWhole negative significand leftOver cs = .ok (n, rest)) :
    ∃ (fraction : Option Digits) (exponent : Option Exponent),
      cs = fraction.elim [] ('.' :: ·.val) ++ (exponent.elim [] Exponent.text ++ rest) := by
  unfold readAfterWhole at read
  split at read
  · dsimp only at read
    split at read
    · cases read
    · rename_i digits
      obtain ⟨ds, text⟩ := exists_digits_of_readDigits digits
      split at read
      · rename_i starts
        obtain ⟨⟨value, last⟩, readPower, read⟩ := bind_eq_ok.mp read
        obtain ⟨float, -, read⟩ := bind_eq_ok.mp read
        cases read
        obtain ⟨e, power⟩ := exists_exponent_of_exponentLetter starts readPower
        exact ⟨some ds, some e, by rw [text, power]; rfl⟩
      · obtain ⟨float, -, read⟩ := bind_eq_ok.mp read
        cases read
        exact ⟨some ds, none, congrArg ('.' :: ·) text⟩
  · split at read
    · rename_i starts
      obtain ⟨⟨value, last⟩, readPower, read⟩ := bind_eq_ok.mp read
      obtain ⟨float, -, read⟩ := bind_eq_ok.mp read
      cases read
      obtain ⟨e, power⟩ := exists_exponent_of_exponentLetter starts readPower
      exact ⟨none, some e, power⟩
    · obtain ⟨whole, -, read⟩ := bind_eq_ok.mp read
      cases read
      exact ⟨none, none, rfl⟩

theorem exists_numeral_of_readUnsigned {negative : Bool} {cs rest : List Char} {n : JsonNumber}
    (read : readUnsigned negative cs = .ok (n, rest)) :
    ∃ numeral : Numeral, (if negative then '-' :: cs else cs) = numeral.text ++ rest := by
  suffices ∃ (whole : Digits) (more : List Char), (whole.val.head? = some '0' → whole.val = ['0']) ∧
      cs = whole.val ++ more ∧ ∃ significand leftOver,
        readAfterWhole negative significand leftOver more = .ok (n, rest) by
    obtain ⟨whole, more, noLeadingZero, rfl, significand, leftOver, readTail⟩ := this
    obtain ⟨fraction, exponent, rfl⟩ := exists_tail_of_readAfterWhole readTail
    refine ⟨⟨negative, whole, noLeadingZero, fraction, exponent⟩, ?_⟩
    cases negative <;> simp [Numeral.text, Numeral.wholeText]
  cases cs with
  | nil => cases read
  | cons c cs =>
    rw [readUnsigned] at read
    split at read
    · rename_i zero
      split at read
      · cases read
      · have digits : ['0'] ≠ [] ∧ ∀ d ∈ ['0'], isDigit d = true :=
          ⟨List.cons_ne_nil _ _, List.forall_mem_singleton.mpr rfl⟩
        refine ⟨⟨['0'], digits⟩, cs, fun _ => rfl, ?_, 0, 0, read⟩
        rw [beq_iff_eq.mp zero]
        rfl
    · rename_i notZero
      split at read
      · rename_i digit
        have digits : ¬ (readDigits (c :: cs)).1.isEmpty = true := by
          simp [readDigits, List.takeWhile_cons_of_pos digit]
        obtain ⟨whole, text⟩ := exists_digits_of_readDigits digits
        refine ⟨whole, (readDigits (c :: cs)).2, ?_, text, _, _, read⟩
        intro zero
        obtain ⟨d, more, front⟩ := List.exists_cons_of_ne_nil whole.property.1
        rw [front, List.head?_cons, Option.some.injEq] at zero
        rw [front, List.cons_append, zero] at text
        exact absurd (beq_iff_eq.mpr (List.cons.inj text).1) notZero
      · cases read

/-! ## Values -/

theorem exists_tree_of_readWord (w : Word) {c : Char} {word cs rest : List Char} {meant v : Json}
    (spelled : w.val = c :: word)
    (read : (do return (meant, ← readWord word cs) : Except Problem (Json × List Char)) =
      .ok (v, rest)) :
    ∃ t : Tree .value, c :: cs = t.text ++ rest := by
  obtain ⟨last, readRest, read⟩ := bind_eq_ok.mp read
  cases read
  refine ⟨.word w, ?_⟩
  rw [eq_append_of_readWord readRest, Tree.text, spelled]
  rfl

theorem exists_tree_of_readScalar {c : Char} {cs rest : List Char} {v : Json}
    (read : readScalar c cs = .ok (v, rest)) : ∃ t : Tree .value, c :: cs = t.text ++ rest := by
  unfold readScalar at read
  split at read
  · rename_i isN
    rw [beq_iff_eq.mp isN]
    exact exists_tree_of_readWord ⟨"null".toList, by decide⟩ rfl read
  split at read
  · rename_i isT
    rw [beq_iff_eq.mp isT]
    exact exists_tree_of_readWord ⟨"true".toList, by decide⟩ rfl read
  split at read
  · rename_i isF
    rw [beq_iff_eq.mp isF]
    exact exists_tree_of_readWord ⟨"false".toList, by decide⟩ rfl read
  split at read
  · rename_i minus
    obtain ⟨⟨n, last⟩, readNumber, read⟩ := bind_eq_ok.mp read
    cases read
    obtain ⟨numeral, text⟩ := exists_numeral_of_readUnsigned readNumber
    rw [beq_iff_eq.mp minus]
    exact ⟨.numeral numeral, text⟩
  split at read
  · obtain ⟨⟨n, last⟩, readNumber, read⟩ := bind_eq_ok.mp read
    cases read
    obtain ⟨numeral, text⟩ := exists_numeral_of_readUnsigned readNumber
    exact ⟨.numeral numeral, text⟩
  split at read
  · rename_i quote
    obtain ⟨⟨s, last⟩, readAll, read⟩ := bind_eq_ok.mp read
    cases read
    obtain ⟨l, text⟩ := exists_literal_of_readString readAll
    rw [beq_iff_eq.mp quote]
    exact ⟨.literal l, text⟩
  · cases read

theorem exists_gap_of_readColon {cs rest : List Char} (read : readColon cs = .ok rest) :
    ∃ gap : Gap, cs = gap.val ++ ':' :: rest := by
  obtain ⟨gap, text⟩ := exists_gap_of_skipSpace cs
  unfold readColon at read
  split at read
  · cases read
  · rename_i colon
    cases read
    exact ⟨gap, by rw [← colon]; exact text⟩
  · cases read

theorem exists_gap_of_readNextName {cs rest : List Char} (read : readNextName cs = .ok rest) :
    ∃ gap : Gap, cs = gap.val ++ '"' :: rest := by
  obtain ⟨gap, text⟩ := exists_gap_of_skipSpace cs
  unfold readNextName at read
  split at read
  · cases read
  · rename_i quote
    cases read
    exact ⟨gap, by rw [← quote]; exact text⟩
  · cases read

/-- What follows a value within brackets: the closing bracket, or a comma and more entries. -/
def GoesOn (kind : Kind) (cs rest : List Char) : Prop :=
  ∃ after : Gap, cs = after.val ++ kind.closing :: rest ∨
    ∃ entries : Tree (.entries kind),
      cs = after.val ++ ',' :: (entries.text ++ kind.closing :: rest)

theorem exists_entries_of_goesOn {kind : Kind} (label : Label kind) (before : Gap)
    (t : Tree .value) {cs rest : List Char} (goesOn : GoesOn kind cs rest) :
    ∃ entries : Tree (.entries kind),
      label.text ++ (before.val ++ (t.text ++ cs)) = entries.text ++ kind.closing :: rest := by
  obtain ⟨after, rfl | ⟨more, rfl⟩⟩ := goesOn
  · exact ⟨.last label before t after, by simp [Tree.text]⟩
  · exact ⟨.more label before t after more, by simp [Tree.text]⟩

/-- What a reader of values takes off a text, the white space before it apart, is a value. -/
def TakesValues (value : Reader Json) : Prop :=
  ∀ {cs rest : List Char} {v : Json}, value cs = .ok (v, rest) →
    ∃ t : Tree .value, skipSpace cs = t.text ++ rest

section
variable {value : Reader Json} (takes : TakesValues value)
include takes

/-- The white space before an item is skipped before the item is read, and once more by it. -/
theorem exists_value_of_read {cs skipped rest : List Char} {v : Json}
    (same : skipSpace skipped = skipSpace cs) (read : value skipped = .ok (v, rest)) :
    ∃ (before : Gap) (t : Tree .value), cs = before.val ++ (t.text ++ rest) := by
  obtain ⟨before, text⟩ := exists_gap_of_skipSpace cs
  obtain ⟨t, valueText⟩ := takes read
  exact ⟨before, t, by rw [← valueText, same]; exact text⟩

/-! ### Arrays -/

theorem goesOn_of_readItems {fuel : Nat} {cs rest : List Char} {vs : List Json}
    (read : readItems value fuel cs = .ok (vs, rest)) : GoesOn .array cs rest := by
  induction fuel generalizing cs vs with
  | zero => cases read
  | succ fuel ih =>
    obtain ⟨after, text⟩ := exists_gap_of_skipSpace cs
    refine ⟨after, ?_⟩
    rw [readItems] at read
    split at read
    · cases read
    · rename_i last closed
      cases read
      exact .inl (by rw [text, closed]; rfl)
    · rename_i next comma
      split at read
      · cases read
      · cases read
      · obtain ⟨⟨v, behind⟩, readOne, read⟩ := bind_eq_ok.mp read
        obtain ⟨⟨more, last⟩, readMore, read⟩ := bind_eq_ok.mp read
        cases read
        obtain ⟨before, t, nextText⟩ := exists_value_of_read takes (skipSpace_skipSpace _) readOne
        obtain ⟨entries, entriesText⟩ := exists_entries_of_goesOn .item before t (ih readMore)
        refine .inr ⟨entries, ?_⟩
        rw [text, comma, nextText, ← entriesText]
        rfl
    · cases read

theorem exists_tree_of_readArray {cs rest : List Char} {vs : List Json}
    (read : readArray value cs = .ok (vs, rest)) :
    ∃ t : Tree .value, '[' :: cs = t.text ++ rest := by
  unfold readArray at read
  split at read
  · cases read
  · rename_i last closed
    cases read
    obtain ⟨gap, text⟩ := exists_gap_of_skipSpace cs
    refine ⟨.empty .array gap, ?_⟩
    rw [text, closed]
    simp [Tree.text, Kind.opening, Kind.closing]
  · obtain ⟨⟨v, behind⟩, readOne, read⟩ := bind_eq_ok.mp read
    obtain ⟨⟨more, last⟩, readMore, read⟩ := bind_eq_ok.mp read
    cases read
    obtain ⟨before, t, text⟩ := exists_value_of_read takes (skipSpace_skipSpace _) readOne
    obtain ⟨entries, entriesText⟩ :=
      exists_entries_of_goesOn .item before t (goesOn_of_readItems takes readMore)
    refine ⟨.filled .array entries, ?_⟩
    rw [Label.text, List.nil_append] at entriesText
    rw [text, entriesText]
    simp [Tree.text, Kind.opening, Kind.closing]

/-! ### Objects -/

/-- A member with the white space before its name. -/
theorem exists_label_of_readMember (gap : Gap) {cs rest : List Char} {m : String × Json}
    (read : readMember value cs = .ok (m, rest)) :
    ∃ (label : Label .object) (before : Gap) (t : Tree .value),
      gap.val ++ '"' :: cs = label.text ++ (before.val ++ (t.text ++ rest)) := by
  obtain ⟨⟨name, behindName⟩, readName, read⟩ := bind_eq_ok.mp read
  obtain ⟨behindColon, colon, read⟩ := bind_eq_ok.mp read
  obtain ⟨⟨v, last⟩, readOne, read⟩ := bind_eq_ok.mp read
  cases read
  obtain ⟨l, nameText⟩ := exists_literal_of_readString readName
  obtain ⟨after, rfl⟩ := exists_gap_of_readColon colon
  obtain ⟨before, t, rfl⟩ := exists_value_of_read takes rfl readOne
  refine ⟨.name gap l after, before, t, ?_⟩
  rw [nameText]
  simp [Label.text]

theorem goesOn_of_readMembers {fuel : Nat} {cs rest : List Char} {ms : List (String × Json)}
    (read : readMembers value fuel cs = .ok (ms, rest)) : GoesOn .object cs rest := by
  induction fuel generalizing cs ms with
  | zero => cases read
  | succ fuel ih =>
    obtain ⟨after, text⟩ := exists_gap_of_skipSpace cs
    refine ⟨after, ?_⟩
    rw [readMembers] at read
    split at read
    · cases read
    · rename_i last closed
      cases read
      exact .inl (by rw [text, closed]; rfl)
    · rename_i next comma
      obtain ⟨behindQuote, quote, read⟩ := bind_eq_ok.mp read
      obtain ⟨⟨m, behind⟩, readOne, read⟩ := bind_eq_ok.mp read
      obtain ⟨⟨more, last⟩, readMore, read⟩ := bind_eq_ok.mp read
      cases read
      obtain ⟨gap, nextText⟩ := exists_gap_of_readNextName quote
      obtain ⟨label, before, t, memberText⟩ := exists_label_of_readMember takes gap readOne
      obtain ⟨entries, entriesText⟩ := exists_entries_of_goesOn label before t (ih readMore)
      refine .inr ⟨entries, ?_⟩
      rw [text, comma, nextText, memberText, entriesText]
    · cases read

theorem exists_tree_of_readObject {cs rest : List Char} {ms : List (String × Json)}
    (read : readObject value cs = .ok (ms, rest)) :
    ∃ t : Tree .value, '\x7b' :: cs = t.text ++ rest := by
  obtain ⟨gap, text⟩ := exists_gap_of_skipSpace cs
  unfold readObject at read
  split at read
  · cases read
  · rename_i last closed
    cases read
    refine ⟨.empty .object gap, ?_⟩
    rw [text, closed]
    simp [Tree.text, Kind.opening, Kind.closing]
  · rename_i next quote
    obtain ⟨⟨m, behind⟩, readOne, read⟩ := bind_eq_ok.mp read
    obtain ⟨⟨more, last⟩, readMore, read⟩ := bind_eq_ok.mp read
    cases read
    obtain ⟨label, before, t, memberText⟩ := exists_label_of_readMember takes gap readOne
    obtain ⟨entries, entriesText⟩ :=
      exists_entries_of_goesOn label before t (goesOn_of_readMembers takes readMore)
    refine ⟨.filled .object entries, ?_⟩
    rw [text, quote, memberText, entriesText]
    simp [Tree.text, Kind.opening, Kind.closing]
  · cases read

end

/-! ### Whole texts -/

theorem takesValues_readValue (depth : Nat) : TakesValues (readValue depth) := by
  induction depth with
  | zero =>
    intro cs rest v read
    rw [readValue] at read
    split at read
    · cases read
    · rename_i c more starts
      rw [starts]
      split at read
      · cases read
      split at read
      · cases read
      · exact exists_tree_of_readScalar read
  | succ depth ih =>
    intro cs rest v read
    rw [readValue] at read
    split at read
    · cases read
    · rename_i c more starts
      rw [starts]
      split at read
      · rename_i bracket
        obtain ⟨⟨items, last⟩, readAll, read⟩ := bind_eq_ok.mp read
        cases read
        rw [beq_iff_eq.mp bracket]
        exact exists_tree_of_readArray ih readAll
      split at read
      · rename_i brace
        obtain ⟨⟨members, last⟩, readAll, read⟩ := bind_eq_ok.mp read
        cases read
        rw [beq_iff_eq.mp brace]
        exact exists_tree_of_readObject ih readAll
      · exact exists_tree_of_readScalar read

theorem skipSpace_of_readEnd {cs : List Char} (read : readEnd cs = .ok ()) : skipSpace cs = [] := by
  unfold readEnd at read
  split at read
  · rename_i nothing
    exact List.isEmpty_iff.mp nothing
  · cases read

/-- Whatever is read is a text of the grammar. -/
theorem exists_document_of_parse {s : String} {v : Json} (read : parse s = .ok v) :
    ∃ d : Document, d.text = s.toList := by
  obtain ⟨⟨v, rest⟩, readOne, read⟩ := bind_eq_ok.mp read
  obtain ⟨⟨⟩, ends, -⟩ := bind_eq_ok.mp read
  obtain ⟨before, t, text⟩ := exists_value_of_read (takesValues_readValue maxDepth) rfl readOne
  obtain ⟨after, restText⟩ := exists_gap_of_skipSpace rest
  rw [skipSpace_of_readEnd ends, List.append_nil] at restText
  exact ⟨⟨before, t, after⟩, by rw [Document.text, ← restText]; exact text.symm⟩

end SnapshotPreview.Json

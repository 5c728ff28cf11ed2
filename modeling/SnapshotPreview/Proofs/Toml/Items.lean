import Mathlib.Algebra.BigOperators.Group.List.Basic
import Mathlib.Data.List.TakeWhile
import SnapshotPreview.Proofs.Json.Reading
import SnapshotPreview.Proofs.Toml.Layout
import SnapshotPreview.Proofs.Toml.Library
import SnapshotPreview.Proofs.Toml.Strings
import SnapshotPreview.Toml.Parser

/-!
# Values that are written and read

A string, a count, a flag or a list of strings that has been written is read again, as long as what
stands behind it does not go on it (`readValue_writeItem`).
-/

namespace SnapshotPreview.Toml

/-! ## Words -/

/-- The characters that part words. -/
def partsWords : List Char :=
  [' ', '\t', '\n', '\r', '#', ',', '[', ']', '\x7b', '\x7d', '=', '"', '\x27']

theorem isWordChar_eq (c : Char) : isWordChar c = !decide (c ∈ partsWords) := by
  rw [isWordChar, String.contains_char_eq]
  rfl

/-- No character of a word stands next, and no blank. -/
def EndsWords (rest : List Char) : Prop :=
  ∀ c ∈ rest.head?, isWordChar c = false ∧ isBlank c = false

theorem readWords_append {word rest : List Char} (isWord : ∀ c ∈ word, isWordChar c = true)
    (ends : EndsWords rest) : readWords (word ++ rest) = (word, rest) := by
  have solid : ∀ c ∈ word.reverse, ¬ isBlank c = true := by
    intro c isIn blank
    have part := isWord c (List.mem_reverse.mp isIn)
    rw [isWordChar_eq] at part
    rw [isBlank, Bool.or_eq_true, beq_iff_eq, beq_iff_eq] at blank
    rcases blank with rfl | rfl <;> exact absurd part (by decide)
  have all : ∀ c ∈ word, (isWordChar c || isBlank c) = true := fun c isIn => by
    rw [isWord c isIn, Bool.true_or]
  have stops : ∀ c ∈ rest.head?, (isWordChar c || isBlank c) = false := fun c isNext => by
    rw [(ends c isNext).1, (ends c isNext).2, Bool.or_false]
  have last : word.reverse.dropWhile isBlank = word.reverse := by
    cases parts : word.reverse with
    | nil => rfl
    | cons c more =>
      rw [parts] at solid
      exact List.dropWhile_cons_of_neg (solid c List.mem_cons_self)
  rw [readWords, Text.takeWhile_append_of_ends all stops, Text.dropWhile_append_of_ends all stops,
    last, List.reverse_reverse]

theorem readScalar_word {word rest : List Char} (isWord : ∀ c ∈ word, isWordChar c = true)
    (ends : EndsWords rest) : readScalar (word ++ rest) = (scalarOf? word).map (·, rest) := by
  rw [readScalar, readWords_append isWord ends]

/-! ## Counts -/

section
variable {c : Char} (digit : c.isDigit = true)
include digit

theorem bounds_of_isDigit : 48 ≤ c.toNat ∧ c.toNat ≤ 57 := by
  simpa [Char.isDigit, UInt32.le_iff_toNat_le] using digit

theorem isWordChar_of_isDigit : isWordChar c = true := by
  have none : ∀ d ∈ partsWords, d.isDigit = false := Text.forall_mem_of_all (by decide)
  rw [isWordChar_eq, Bool.not_eq_true', decide_eq_false_iff_not]
  intro isIn
  rw [none c isIn] at digit
  cases digit

theorem digitValue?_of_isDigit : digitValue? 10 c = some (c.toNat - '0'.toNat) := by
  obtain ⟨low, high⟩ := bounds_of_isDigit digit
  have inside : ('0' ≤ c && c ≤ '9') = true := by
    simpa [Char.le_def, UInt32.le_iff_toNat_le] using And.intro low high
  have small : c.toNat - '0'.toNat < 10 := by
    change c.toNat - 48 < 10
    omega
  rw [digitValue?, if_pos inside, if_pos small]

end

theorem numberOf?_digits {digits : List Char} (all : ∀ c ∈ digits, c.isDigit = true) :
    numberOf? 10 digits = some (Nat.ofDigitChars 10 digits 0) := by
  have step (n : Nat) : digits.foldlM (fun n c => (digitValue? 10 c).map (n * 10 + ·)) n =
      some (Nat.ofDigitChars 10 digits n) := by
    induction digits generalizing n with
    | nil => simp
    | cons c digits ih =>
      rw [List.forall_mem_cons] at all
      rw [List.foldlM_cons, digitValue?_of_isDigit all.1, Option.map_some, Nat.ofDigitChars_cons,
        Nat.mul_comm 10]
      exact ih all.2 _
  exact step 0

theorem barsBetween_of_noBar {digit : Char → Bool} {cs : List Char} (noBar : '_' ∉ cs)
    (afterDigit : Bool) : barsBetween digit afterDigit cs = true := by
  induction cs generalizing afterDigit with
  | nil => rw [barsBetween]
  | cons c cs ih =>
    rw [List.mem_cons, not_or] at noBar
    rw [barsBetween, if_neg (Ne.symm noBar.1), ih noBar.2]

/-- What is known of the digits of a number. -/
theorem toDigits_facts (n : Nat) :
    (∀ c ∈ Nat.toDigits 10 n, c.isDigit = true) ∧
      ∃ c more, Nat.toDigits 10 n = c :: more ∧ (c ≠ '0' ∨ more = []) := by
  refine ⟨fun c => Nat.isDigit_of_mem_toDigits (by decide) (by decide), ?_⟩
  by_cases zero : n = 0
  · exact ⟨'0', [], by rw [zero, Nat.toDigits_zero], .inr rfl⟩
  · obtain ⟨c, more, digits, notZero⟩ := Json.exists_toDigits (Nat.pos_of_ne_zero zero)
    exact ⟨c, more, digits, .inl notZero⟩

theorem isDecimal_toDigits (n : Nat) : isDecimal (Nat.toDigits 10 n) = true := by
  obtain ⟨all, c, more, digits, noZero⟩ := toDigits_facts n
  have none : (Nat.toDigits 10 n).dropWhile isDigit = [] := List.dropWhile_eq_nil_iff.mpr all
  have noBar : '_' ∉ Nat.toDigits 10 n := fun isIn => absurd (all _ isIn) (by decide)
  have first : isDigit c = true := all c (by rw [digits]; exact List.mem_cons_self)
  rw [isDecimal, none, barsBetween_of_noBar noBar, digits]
  rcases noZero with notZero | rfl
  · simp [first, notZero]
  · simp [first]

theorem wholeValue_toDigits {n : Nat} (small : n < 2 ^ 64) :
    wholeValue 10 false (Nat.toDigits 10 n) = .integer n := by
  obtain ⟨all, c, more, digits, -⟩ := toDigits_facts n
  have noBars : withoutBars (Nat.toDigits 10 n) = Nat.toDigits 10 n := by
    refine List.filter_eq_self.mpr fun d isIn => ?_
    exact bne_iff_ne.mpr (ne_of_kind (all d isIn) (by decide))
  have nonempty : (Nat.toDigits 10 n).isEmpty = false := by rw [digits]; rfl
  have inside : fits (Int.ofNat n) = true := by
    have below : n < Nat.pow 2 128 :=
      Nat.lt_of_lt_of_le small (Nat.pow_le_pow_right (by decide) (by decide))
    rw [fits, Bool.and_eq_true, decide_eq_true_iff, decide_eq_true_iff]
    exact ⟨Int.le_trans (Int.neg_nonpos_of_nonneg (Int.natCast_nonneg _)) (Int.natCast_nonneg n),
      Int.ofNat_lt.mpr below⟩
  have whole : wholeOf? 10 false (Nat.toDigits 10 n) = some (Int.ofNat n) := by
    rw [wholeOf?, nonempty, noBars, numberOf?_digits all, Nat.ofDigitChars_ten_toDigits]
    rfl
  rw [wholeValue, whole, Option.filter_some, if_pos inside]
  rfl

theorem integerOf?_toDigits {n : Nat} (small : n < 2 ^ 64) :
    integerOf? (Nat.toDigits 10 n) = some (.integer n) := by
  obtain ⟨all, c, more, digits, noZero⟩ := toDigits_facts n
  have digit : c.isDigit = true := all c (by rw [digits]; exact List.mem_cons_self)
  have unsigned : splitSign (Nat.toDigits 10 n) = (false, Nat.toDigits 10 n) := by
    rw [digits]
    unfold splitSign
    split
    · rename_i same
      exact absurd (List.cons.inj same).1 (ne_of_kind digit (by decide))
    · rename_i same
      exact absurd (List.cons.inj same).1 (ne_of_kind digit (by decide))
    · rfl
  have noBase (d : Char) (rest : List Char) : Nat.toDigits 10 n ≠ '0' :: d :: rest := by
    rw [digits]
    rintro ⟨⟩
    simp at noZero
  unfold integerOf?
  split
  · exact absurd ‹_› (noBase 'x' _)
  · exact absurd ‹_› (noBase 'o' _)
  · exact absurd ‹_› (noBase 'b' _)
  · rw [unsigned]
    dsimp only
    rw [if_pos (isDecimal_toDigits n), wholeValue_toDigits small]

theorem scalarOf?_toDigits {n : Nat} (small : n < 2 ^ 64) :
    scalarOf? (Nat.toDigits 10 n) = some (.integer n) := by
  have all := (toDigits_facts n).1
  have noTrue : Nat.toDigits 10 n ≠ "true".toList := fun same =>
    absurd (all 't' (by rw [same]; decide)) (by decide)
  have noFalse : Nat.toDigits 10 n ≠ "false".toList := fun same =>
    absurd (all 'f' (by rw [same]; decide)) (by decide)
  rw [scalarOf?, if_neg noTrue, if_neg noFalse, integerOf?_toDigits small]
  rfl

/-! ## Values -/

theorem readValue_scalar {c : Char} {word : List Char} (isWord : isWordChar c = true)
    (depth : Nat) : readValue depth (c :: word) = readScalar (c :: word) := by
  rw [isWordChar_eq] at isWord
  have ne (d : Char) (parts : d ∈ partsWords) : c ≠ d := by
    rintro rfl
    simp [parts] at isWord
  have noQuote : isQuote c = false := by
    rw [isQuote, beq_eq_false_iff_ne.mpr (ne '"' (by decide)),
      beq_eq_false_iff_ne.mpr (ne '\x27' (by decide))]
    rfl
  rw [readValue.eq_def]
  simp [ne '[' (by decide), ne '\x7b' (by decide), noQuote]

theorem exists_quote (s : String) :
    ∃ quote more, writeString s = quote :: more ∧ isQuote quote = true := by
  rw [writeString, writeAs.eq_def]
  split
  all_goals exact ⟨_, _, rfl, by decide⟩

theorem readValue_string (depth : Nat) (s : String) {rest : List Char} (ends : EndsString rest) :
    readValue depth (writeString s ++ rest) = some (.string s, rest) := by
  obtain ⟨quote, more, written, isOne⟩ := exists_quote s
  have reads := readString_writeString s ends
  rw [written, List.cons_append] at reads ⊢
  have noBracket : quote ≠ '[' := ne_of_kind isOne (by decide)
  have noBrace : quote ≠ '\x7b' := ne_of_kind isOne (by decide)
  rw [readValue.eq_def]
  simp [noBracket, noBrace, isOne, reads]

/-! ## Lists -/

theorem skipGap_writeString (s : String) (rest : List Char) :
    skipGap (writeString s ++ rest) = writeString s ++ rest := by
  obtain ⟨quote, more, written, isOne⟩ := exists_quote s
  rw [written, List.cons_append, skipGap_solid (isSolid_of_isQuote isOne)]

section
variable {α : Type} {closing : Char} {part : Reader α} {cs more rest : List Char} {c : Char} {x : α}

theorem readParts_close (next : skipGap cs = closing :: rest) (fuel : Nat) :
    readParts closing part (fuel + 1) cs = some ([], rest) := by
  rw [readParts, next]
  simp

theorem readParts_last (next : skipGap cs = c :: more) (goesOn : c ≠ closing)
    (reads : part (c :: more) = some (x, closing :: rest)) (solid : IsSolid closing) (fuel : Nat) :
    readParts closing part (fuel + 1) cs = some ([x], rest) := by
  rw [readParts, next]
  simp [goesOn, reads, skipGap_solid solid]

theorem readParts_comma (next : skipGap cs = c :: more) (goesOn : c ≠ closing)
    (reads : part (c :: more) = some (x, ',' :: rest)) (noComma : closing ≠ ',') (fuel : Nat) :
    readParts closing part (fuel + 1) cs =
      (readParts closing part fuel rest).map fun (xs, rest) => (x :: xs, rest) := by
  rw [readParts, next]
  simp only [goesOn, if_false, reads, Option.bind_eq_bind, Option.bind_some,
    skipGap_solid (show IsSolid ',' by decide), Ne.symm noComma, if_true, Option.map_eq_bind]
  rfl

end

/-- A string on its line of a list. -/
def textLine (s : String) : List Char := [' ', ' ', ' ', ' '] ++ writeString s ++ [',', '\n']

theorem skipGap_textLine (s : String) (rest : List Char) :
    skipGap ('\n' :: (textLine s ++ rest)) = writeString s ++ ',' :: '\n' :: rest := by
  have blank : isBlank ' ' = true := rfl
  rw [skipGap_feed, textLine]
  simp only [List.cons_append, List.nil_append, List.append_assoc]
  rw [skipGap_blank blank, skipGap_blank blank, skipGap_blank blank, skipGap_blank blank,
    skipGap_writeString]

theorem readParts_textLines (depth : Nat) {l : List String} {fuel : Nat}
    (enough : l.length < fuel) (rest : List Char) :
    readParts ']' (readValue depth) fuel ('\n' :: (l.flatMap textLine ++ ']' :: rest)) =
      some (l.map .string, rest) := by
  -- The line feed behind a comma stands before the next line, which makes the text left over one of
  -- the same form.
  obtain ⟨fuel, rfl⟩ := Nat.exists_eq_succ_of_ne_zero (Nat.ne_zero_of_lt enough)
  induction l generalizing fuel with
  | nil =>
    refine readParts_close ?_ fuel
    rw [skipGap_feed]
    exact skipGap_solid (by decide) rest
  | cons s l ih =>
    obtain ⟨quote, more, written, isOne⟩ := exists_quote s
    have next := skipGap_textLine s (l.flatMap textLine ++ ']' :: rest)
    have reads := readValue_string depth s
      (show EndsString (',' :: '\n' :: (l.flatMap textLine ++ ']' :: rest)) from
        fun c same => by cases same; rfl)
    have goesOn : quote ≠ ']' := ne_of_kind isOne (by decide)
    rw [List.length_cons, Nat.add_lt_add_iff_right] at enough
    obtain ⟨fuel, rfl⟩ := Nat.exists_eq_succ_of_ne_zero (Nat.ne_zero_of_lt enough)
    rw [written, List.cons_append] at next reads
    rw [List.flatMap_cons, List.append_assoc,
      readParts_comma next goesOn reads (by decide), ih fuel enough]
    rfl

theorem length_le_flatMap {α β : Type} {f : α → List β} {l : List α}
    (nonempty : ∀ x ∈ l, f x ≠ []) : l.length ≤ (l.flatMap f).length := by
  have least : ∀ n ∈ l.map fun x => (f x).length, 1 ≤ n := by
    intro n counted
    obtain ⟨x, isIn, rfl⟩ := List.mem_map.mp counted
    exact List.length_pos_of_ne_nil (nonempty x isIn)
  have count := List.length_le_sum_of_one_le _ least
  rwa [List.length_map, ← List.length_flatMap] at count

theorem readValue_bracket (depth : Nat) (cs : List Char) :
    readValue (depth + 1) ('[' :: cs) =
      (readParts ']' (readValue depth) (cs.length + 1) cs).map
        fun (items, rest) => (.array items, rest) := by
  rw [readValue.eq_def]
  simp only [if_true, Option.map_eq_bind, Option.bind_eq_bind]
  rfl

theorem readValue_writeTexts (depth : Nat) (l : List String) (rest : List Char) :
    readValue (depth + 1) (writeTexts l ++ rest) = some (.array (l.map .string), rest) := by
  match l with
  | [] =>
    rw [writeTexts, List.cons_append, List.singleton_append, readValue_bracket,
      readParts_close (skipGap_solid (by decide) rest)]
    rfl
  | [s] =>
    obtain ⟨quote, more, written, isOne⟩ := exists_quote s
    have next := skipGap_writeString s (']' :: rest)
    have reads := readValue_string depth s
      (show EndsString (']' :: rest) from fun c same => by cases same; rfl)
    have goesOn : quote ≠ ']' := ne_of_kind isOne (by decide)
    rw [written, List.cons_append] at next reads
    rw [writeTexts, List.append_assoc, List.singleton_append, List.cons_append,
      readValue_bracket, written, List.cons_append,
      readParts_last next goesOn reads (by decide)]
    rfl
  | s :: t :: l =>
    have written : writeTexts (s :: t :: l) ++ rest =
        '[' :: '\n' :: ((s :: t :: l).flatMap textLine ++ ']' :: rest) := by
      simp only [writeTexts, List.cons_append, List.append_assoc]
      rfl
    have enough : (s :: t :: l).length <
        ('\n' :: ((s :: t :: l).flatMap textLine ++ ']' :: rest)).length + 1 := by
      have least := length_le_flatMap (f := textLine) (l := s :: t :: l)
        fun _ _ => List.cons_ne_nil _ _
      simp only [List.length_cons, List.length_append] at least ⊢
      omega
    rw [written, readValue_bracket, readParts_textLines depth enough]
    rfl

/-! ## All values -/

/-- Whether an item can be read: a count must fit 64 bits. -/
def Item.Fits (i : Item) : Prop := ∀ n ∈ i.numbers, n < 2 ^ 64

theorem endsWords_feed (rest : List Char) : EndsWords ('\n' :: rest) := by
  intro c same
  cases same
  exact ⟨by rw [isWordChar_eq]; decide, rfl⟩

theorem readValue_word {word : List Char} {v : Value} (isWord : ∀ c ∈ word, isWordChar c = true)
    (nonempty : word ≠ []) (means : scalarOf? word = some v) (depth : Nat) (rest : List Char) :
    readValue depth (word ++ '\n' :: rest) = some (v, '\n' :: rest) := by
  obtain ⟨c, more, rfl⟩ := List.exists_cons_of_ne_nil nonempty
  rw [List.cons_append, readValue_scalar (isWord c List.mem_cons_self), ← List.cons_append,
    readScalar_word isWord (endsWords_feed rest), means]
  rfl

/-- A value that stands at the end of a line is read as it was written. -/
theorem readValue_writeItem {i : Item} (fits : i.Fits) (rest : List Char) :
    readValue maxDepth (writeItem i ++ '\n' :: rest) = some (i.value, '\n' :: rest) := by
  cases i with
  | text s => exact readValue_string maxDepth s fun c same => by cases same; rfl
  | number n =>
    obtain ⟨all, c, more, digits, -⟩ := toDigits_facts n
    have isWord : ∀ d ∈ Nat.toDigits 10 n, isWordChar d = true :=
      fun d isIn => isWordChar_of_isDigit (all d isIn)
    exact readValue_word isWord (by rw [digits]; exact List.cons_ne_nil c more)
      (scalarOf?_toDigits (fits n List.mem_cons_self)) maxDepth rest
  | flag b =>
    cases b with
    | true =>
      have isWord : ∀ c ∈ "true".toList, isWordChar c = true := by
        simp only [isWordChar_eq]
        exact Text.forall_mem_of_all (by decide)
      exact readValue_word isWord (by decide) (by rw [scalarOf?, if_pos rfl]; rfl) maxDepth rest
    | false =>
      have isWord : ∀ c ∈ "false".toList, isWordChar c = true := by
        simp only [isWordChar_eq]
        exact Text.forall_mem_of_all (by decide)
      exact readValue_word isWord (by decide)
        (by rw [scalarOf?, if_neg (by decide), if_pos rfl]; rfl) maxDepth rest
  | texts l => exact readValue_writeTexts 79 l ('\n' :: rest)

end SnapshotPreview.Toml

import Mathlib.Data.List.TakeWhile
import SnapshotPreview.Json.Printer
import SnapshotPreview.Proofs.Json.Grammar
import SnapshotPreview.Proofs.Records
import SnapshotPreview.Proofs.Text

/-!
# Reading JSON back

Strings, booleans and whole numbers of 64 bits are read as what they are written for, and so are
objects that hold nothing else.
-/

namespace SnapshotPreview.Json

/-! ## Strings -/

/-- The value of a hexadecimal digit. -/
def HexDigit.value (d : HexDigit) : Nat := (hexValue? d.val).get d.property

/-- The code that four hexadecimal digits give. -/
def codeOf (a b c d : HexDigit) : Nat :=
  ((a.value * 16 + b.value) * 16 + c.value) * 16 + d.value

/-- Whether a code is the first half of a pair. -/
def isHigh (n : Nat) : Bool := 0xd800 ≤ n && n ≤ 0xdbff

/-- Whether a code is the second half of a pair. -/
def isLow (n : Nat) : Bool := 0xdc00 ≤ n && n ≤ 0xdfff

/-- The characters that a string is written for. The codes of a pair of halves make up one. -/
inductive Decodes : Literal → List Char → Prop where
  | nil : Decodes [] []
  | plain {c : Char} {inString : c ≠ '"' ∧ c ≠ '\\' ∧ 0x20 ≤ c.toNat} {l : Literal}
      {cs : List Char} : Decodes l cs → Decodes (.plain c inString :: l) (c :: cs)
  | short {c : Char} {known : (shortEscape? c).isSome = true} {l : Literal} {cs : List Char} :
      Decodes l cs → Decodes (.short c known :: l) ((shortEscape? c).get known :: cs)
  | unicode {a b c d : HexDigit} {l : Literal} {cs : List Char} :
      isHigh (codeOf a b c d) = false → isLow (codeOf a b c d) = false →
      Decodes l cs → Decodes (.unicode a b c d :: l) (Char.ofNat (codeOf a b c d) :: cs)
  | pair {a b c d e f g h : HexDigit} {l : Literal} {cs : List Char} :
      isHigh (codeOf a b c d) = true → isLow (codeOf e f g h) = true → Decodes l cs →
      Decodes (.unicode a b c d :: .unicode e f g h :: l)
        (Char.ofNat (0x10000 + (codeOf a b c d - 0xd800) * 0x400 + (codeOf e f g h - 0xdc00)) :: cs)

theorem readHex_digits (a b c d : HexDigit) (rest : List Char) :
    readHex (a.val :: b.val :: c.val :: d.val :: rest) = .ok (codeOf a b c d, rest) := by
  have known (d : HexDigit) : hexValue? d.val = some d.value := (Option.some_get d.property).symm
  have long : ¬ Text.byteLength (a.val :: b.val :: c.val :: d.val :: rest) < 4 := by
    have := a.val.utf8Size_pos
    have := b.val.utf8Size_pos
    have := c.val.utf8Size_pos
    have := d.val.utf8Size_pos
    simp only [Text.byteLength]
    omega
  rw [readHex, if_neg long]
  simp only [known]
  rfl

/-- What follows `\u`, if its code is no half of a pair. -/
theorem readUnicodeEscape_unicode {a b c d : HexDigit} (notHigh : isHigh (codeOf a b c d) = false)
    (notLow : isLow (codeOf a b c d) = false) (rest : List Char) :
    readUnicodeEscape (a.val :: b.val :: c.val :: d.val :: rest) =
      .ok (Char.ofNat (codeOf a b c d), rest) := by
  have single : (codeOf a b c d < 0xd800 || 0xdbff < codeOf a b c d) = true := by
    simp only [isHigh, Bool.and_eq_false_iff, decide_eq_false_iff_not] at notHigh
    simp only [Bool.or_eq_true, decide_eq_true_eq]
    omega
  rw [isLow] at notLow
  simp only [readUnicodeEscape, readHex_digits, bind, Except.bind, notLow, Bool.false_eq_true,
    if_false, single, if_true]

theorem readUnicodeEscape_pair {a b c d e f g h : HexDigit} (high : isHigh (codeOf a b c d) = true)
    (low : isLow (codeOf e f g h) = true) (rest : List Char) :
    readUnicodeEscape (a.val :: b.val :: c.val :: d.val :: ('\\' :: 'u' ::
        e.val :: f.val :: g.val :: h.val :: rest)) =
      .ok (Char.ofNat (0x10000 + (codeOf a b c d - 0xd800) * 0x400 + (codeOf e f g h - 0xdc00)),
        rest) := by
  simp only [isHigh, isLow, Bool.and_eq_true, decide_eq_true_eq] at high low
  have notLow : (0xdc00 ≤ codeOf a b c d && codeOf a b c d ≤ 0xdfff) = false := by
    simp only [Bool.and_eq_false_iff, decide_eq_false_iff_not]
    omega
  have double : (codeOf a b c d < 0xd800 || 0xdbff < codeOf a b c d) = false := by
    simp only [Bool.or_eq_false_iff, decide_eq_false_iff_not]
    omega
  have second : (codeOf e f g h < 0xdc00 || 0xdfff < codeOf e f g h) = false := by
    simp only [Bool.or_eq_false_iff, decide_eq_false_iff_not]
    omega
  simp only [readUnicodeEscape, readHex_digits, bind, Except.bind, notLow, Bool.false_eq_true,
    if_false, double, readExactly, if_true, second]

theorem readEscape_short {c : Char} (known : (shortEscape? c).isSome = true) (rest : List Char) :
    readEscape (c :: rest) = .ok ((shortEscape? c).get known, rest) := by
  have notU : ¬ (c == 'u') = true := by
    intro isU
    rw [beq_iff_eq.mp isU] at known
    cases known
  obtain ⟨d, short⟩ := Option.isSome_iff_exists.mp known
  simp only [readEscape, if_neg notU, short, Option.get_some]

section
variable {fuel : Nat} (enough : 0 < fuel)
include enough

theorem readChars_plain {c : Char} (inString : c ≠ '"' ∧ c ≠ '\\' ∧ 0x20 ≤ c.toNat)
    {more cs rest : List Char} (reads : readChars (fuel - 1) more = .ok (cs, rest)) :
    readChars fuel (c :: more) = .ok (c :: cs, rest) := by
  obtain ⟨fuel, rfl⟩ := Nat.exists_eq_succ_of_ne_zero (Nat.ne_of_gt enough)
  have reads : readChars fuel more = .ok (cs, rest) := reads
  have printable : ¬ c.toNat < 0x20 := by omega
  simp only [readChars, beq_iff_eq, inString.1, inString.2.1, printable, if_false, reads]
  rfl

theorem readChars_escape {c : Char} {escape more cs rest : List Char}
    (escapes : readEscape escape = .ok (c, more))
    (reads : readChars (fuel - 1) more = .ok (cs, rest)) :
    readChars fuel ('\\' :: escape) = .ok (c :: cs, rest) := by
  obtain ⟨fuel, rfl⟩ := Nat.exists_eq_succ_of_ne_zero (Nat.ne_of_gt enough)
  have reads : readChars fuel more = .ok (cs, rest) := reads
  have notQuote : ('\\' == '"') = false := by decide
  simp only [readChars, notQuote, Bool.false_eq_true, if_false, beq_self_eq_true, if_true, escapes,
    bind, Except.bind, reads]
  rfl

end

theorem readChars_of_decodes {l : Literal} {cs : List Char} (decodes : Decodes l cs)
    {fuel : Nat} (enough : l.inner.length < fuel) (rest : List Char) :
    readChars fuel (l.inner ++ '"' :: rest) = .ok (cs, rest) := by
  induction decodes generalizing fuel with
  | nil =>
    obtain ⟨fuel, rfl⟩ := Nat.exists_eq_succ_of_ne_zero (Nat.ne_of_gt enough)
    rfl
  | @plain c inString l cs decodes ih =>
    simp only [literal_inner_cons, Piece.text, List.cons_append, List.length_cons,
      List.nil_append] at enough ⊢
    exact readChars_plain (by omega) inString (ih (by omega))
  | @short c known l cs decodes ih =>
    simp only [literal_inner_cons, Piece.text, List.cons_append, List.length_cons,
      List.nil_append] at enough ⊢
    exact readChars_escape (by omega) (readEscape_short known _) (ih (by omega))
  | @unicode a b c d l cs notHigh notLow decodes ih =>
    simp only [literal_inner_cons, Piece.text, List.cons_append, List.length_cons,
      List.nil_append] at enough ⊢
    exact readChars_escape (by omega) (readUnicodeEscape_unicode notHigh notLow _) (ih (by omega))
  | @pair a b c d e f g h l cs high low decodes ih =>
    simp only [literal_inner_cons, Piece.text, List.cons_append, List.length_cons,
      List.nil_append] at enough ⊢
    exact readChars_escape (by omega) (readUnicodeEscape_pair high low _) (ih (by omega))

/-- A string is read for its characters, up to its closing quote. -/
theorem readString_of_decodes {l : Literal} {cs : List Char} (decodes : Decodes l cs)
    (rest : List Char) :
    readString (l.inner ++ '"' :: rest) = .ok (String.ofList cs, rest) := by
  have enough : l.inner.length < (l.inner ++ '"' :: rest).length := by
    rw [List.length_append, List.length_cons]
    omega
  rw [readString, readChars_of_decodes decodes enough]
  rfl

/-- A brace is written as itself, or by its code. -/
theorem brace_not_mem_inner {l : Literal} {cs : List Char} (decodes : Decodes l cs)
    (noBrace : '\x7d' ∉ cs) : '\x7d' ∉ l.inner := by
  have digit (d : HexDigit) : '\x7d' ≠ d.val := by
    intro same
    have known := d.property
    rw [← same] at known
    cases known
  induction decodes with
  | nil => exact noBrace
  | plain decodes ih =>
    rw [List.mem_cons, not_or] at noBrace
    rw [literal_inner_cons]
    exact List.not_mem_append (by simpa [Piece.text] using noBrace.1) (ih noBrace.2)
  | @short c known l cs decodes ih =>
    have letter : '\x7d' ≠ c := by
      rintro rfl
      cases known
    rw [literal_inner_cons]
    exact List.not_mem_append (by simp [Piece.text, letter])
      (ih (List.not_mem_of_not_mem_cons noBrace))
  | unicode notHigh notLow decodes ih =>
    rw [literal_inner_cons]
    exact List.not_mem_append (by simp [Piece.text, digit])
      (ih (List.not_mem_of_not_mem_cons noBrace))
  | pair high low decodes ih =>
    rw [literal_inner_cons, literal_inner_cons]
    exact List.not_mem_append (by simp [Piece.text, digit])
      (List.not_mem_append (by simp [Piece.text, digit])
        (ih (List.not_mem_of_not_mem_cons noBrace)))

theorem brace_not_mem_literal {l : Literal} {cs : List Char} (decodes : Decodes l cs)
    (noBrace : '\x7d' ∉ cs) : '\x7d' ∉ l.text :=
  List.not_mem_cons_of_ne_of_not_mem (by decide)
    (List.not_mem_append (brace_not_mem_inner decodes noBrace) (by decide))

/-! ## Whole numbers -/

/-- What cannot go on a number stands next, or nothing. -/
def EndsNumber (rest : List Char) : Prop :=
  ∀ c, rest.head? = some c → isDigit c = false ∧ c ≠ '.' ∧ c ≠ 'e' ∧ c ≠ 'E'

theorem isDigit_eq (c : Char) : isDigit c = c.isDigit := by
  simp only [isDigit, Char.isDigit, Char.le_def]

/-- The digits of a number as values. -/
def digitValues (n : Nat) : List Nat := (Nat.toDigits 10 n).map fun c => c.toNat - '0'.toNat

theorem foldl_digitValues (n : Nat) :
    (digitValues n).foldl (fun value d => value * 10 + d) 0 = n := by
  have value := @Nat.ofDigitChars_ten_toDigits n
  rw [digitValues, List.foldl_map]
  rw [Nat.ofDigitChars] at value
  simpa only [Nat.mul_comm] using value

theorem isDigit_of_mem_toDigits {n : Nat} {c : Char} (isIn : c ∈ Nat.toDigits 10 n) :
    isDigit c = true := by
  rw [isDigit_eq]
  exact Nat.isDigit_of_mem_toDigits (by decide) (by decide) isIn

theorem readDigits_toDigits (n : Nat) {rest : List Char} (ends : EndsNumber rest) :
    readDigits (Nat.toDigits 10 n ++ rest) = (digitValues n, rest) := by
  have digits : ∀ c ∈ Nat.toDigits 10 n, isDigit c = true := fun c => isDigit_of_mem_toDigits
  have stops : ∀ c ∈ rest.head?, isDigit c = false := fun c next => (ends c next).1
  rw [readDigits, Text.takeWhile_append_of_ends digits stops,
    Text.dropWhile_append_of_ends digits stops, digitValues]

theorem le_foldl_digits (ds : List Nat) (value : Nat) :
    value ≤ ds.foldl (fun value d => value * 10 + d) value := by
  induction ds generalizing value with
  | nil => exact Nat.le_refl value
  | cons d ds ih =>
    rw [List.foldl_cons]
    have := ih (value * 10 + d)
    omega

/-- Digits of a number that fits are all taken. -/
theorem absorb_eq {ds : List Nat} {value : Nat}
    (fits : ds.foldl (fun value d => value * 10 + d) value < Nat.pow 2 64) :
    absorb value ds = (ds.foldl (fun value d => value * 10 + d) value, 0) := by
  induction ds generalizing value with
  | nil => rfl
  | cons d ds ih =>
    rw [List.foldl_cons] at fits ⊢
    have here := Nat.lt_of_le_of_lt (le_foldl_digits ds (value * 10 + d)) fits
    rw [absorb, if_pos here, ih fits]

theorem readAfterWhole_of_ends (negative : Bool) (n : Nat) {rest : List Char}
    (ends : EndsNumber rest) :
    readAfterWhole negative n 0 rest = (wholeOf negative n 0).map (·, rest) := by
  have noExponent : exponentLetter rest = false := by
    cases rest with
    | nil => rfl
    | cons c rest =>
      obtain ⟨-, -, notE⟩ := ends c rfl
      simp [exponentLetter, notE]
  have noPoint : ∀ more, rest = '.' :: more → False := by
    rintro more rfl
    exact (ends '.' rfl).2.1 rfl
  rw [readAfterWhole.eq_2 _ _ _ _ noPoint]
  simp only [noExponent, Bool.false_eq_true, if_false]
  cases wholeOf negative n 0 <;> rfl

/-- Only zero begins with a zero. -/
theorem exists_toDigits {n : Nat} (positive : 0 < n) :
    ∃ c more, Nat.toDigits 10 n = c :: more ∧ c ≠ '0' := by
  induction n using Nat.strongRecOn with
  | ind n ih =>
    by_cases single : n < 10
    · rw [Nat.toDigits_of_lt_base single]
      have notZero : ∀ d < 10, 0 < d → Nat.digitChar d ≠ '0' := by decide
      exact ⟨_, [], rfl, notZero n single positive⟩
    · obtain ⟨c, more, front, notZero⟩ := ih (n / 10) (by omega) (by omega)
      rw [Nat.toDigits_of_base_le (by decide) (by omega), front]
      exact ⟨c, _, rfl, notZero⟩

theorem readUnsigned_toDigits (negative : Bool) {n : Nat} (fits : n < Nat.pow 2 64)
    {rest : List Char} (ends : EndsNumber rest) :
    readUnsigned negative (Nat.toDigits 10 n ++ rest) = (wholeOf negative n 0).map (·, rest) := by
  by_cases zero : n = 0
  · subst zero
    have noDigit : rest.head?.any isDigit = false := by
      cases rest with
      | nil => rfl
      | cons c rest => exact (ends c rfl).1
    rw [Nat.toDigits_zero, List.singleton_append, readUnsigned]
    simp only [beq_self_eq_true, if_true, noDigit, Bool.false_eq_true, if_false]
    exact readAfterWhole_of_ends negative 0 ends
  · obtain ⟨c, more, digits, notZero⟩ := exists_toDigits (Nat.pos_of_ne_zero zero)
    have digit : isDigit c = true := isDigit_of_mem_toDigits (n := n) (by simp [digits])
    have taken : absorb 0 (digitValues n) = (n, 0) := by
      have value := foldl_digitValues n
      rw [absorb_eq (by rw [value]; exact fits), value]
    have read := readDigits_toDigits n ends
    rw [digits, List.cons_append] at read ⊢
    simp only [readUnsigned, beq_iff_eq, notZero, if_false, digit, if_true, read, taken]
    exact readAfterWhole_of_ends negative n ends

/-! ## Scalars -/

/-- A string, a boolean or a whole number of 64 bits, as it is written. -/
inductive Scalar where
  | string (literal : Literal) (chars : List Char) (decodes : Decodes literal chars)
  | bool (b : Bool)
  | whole (n : Int) (fits : -0x8000000000000000 ≤ n ∧ n < 0x10000000000000000)

/-- The text of a scalar. -/
def Scalar.text : Scalar → List Char
  | string literal _ _ => literal.text
  | bool b => if b then "true".toList else "false".toList
  | whole n _ => (toString n).toList

/-- What a scalar says without quotes and escapes. -/
def Scalar.plain : Scalar → List Char
  | string _ chars _ => chars
  | bool b => if b then "true".toList else "false".toList
  | whole n _ => (toString n).toList

/-- The value that a scalar is written for. -/
def Scalar.json : Scalar → Json
  | string _ chars _ => .string (String.ofList chars)
  | bool b => .bool b
  | whole n _ => .number (.whole n)

theorem plainText_json (s : Scalar) : s.json.plainText.toList = s.plain := by
  cases s with
  | string literal chars decodes => exact String.toList_ofList
  | bool b => cases b <;> rfl
  | whole n fits => rfl

theorem brace_not_mem_scalar (s : Scalar) (noBrace : '\x7d' ∉ s.plain) : '\x7d' ∉ s.text := by
  cases s with
  | string literal chars decodes => exact brace_not_mem_literal decodes noBrace
  | bool b => exact noBrace
  | whole n fits => exact noBrace

theorem readScalar_of_digit {c : Char} (digit : isDigit c = true) (cs : List Char) :
    readScalar c cs = (readUnsigned false (c :: cs)).map fun (n, rest) => (.number n, rest) := by
  have others : ∀ d ∈ ['n', 't', 'f', '-'], c ≠ d := by
    rintro d isIn rfl
    have noDigit : ∀ d ∈ ['n', 't', 'f', '-'], isDigit d = false := Text.forall_mem_of_all (by decide)
    rw [noDigit c isIn] at digit
    cases digit
  simp only [List.forall_mem_cons] at others
  simp only [readScalar, beq_iff_eq, others, if_false, digit, if_true]
  cases readUnsigned false (c :: cs) <;> rfl

theorem readScalar_of_minus (cs : List Char) :
    readScalar '-' cs = (readUnsigned true cs).map fun (n, rest) => (.number n, rest) := by
  have others : ('-' == 'n') = false ∧ ('-' == 't') = false ∧ ('-' == 'f') = false := by decide
  simp only [readScalar, others, Bool.false_eq_true, if_false, beq_self_eq_true, if_true]
  cases readUnsigned true cs <;> rfl

theorem toList_toString_ofNat (n : Nat) : (toString (Int.ofNat n)).toList = Nat.toDigits 10 n :=
  (congrArg String.toList Nat.toString_eq_ofList_toDigits).trans String.toList_ofList

theorem toList_toString_negSucc (n : Nat) :
    (toString (Int.negSucc n)).toList = '-' :: Nat.toDigits 10 (n + 1) := by
  have repr : toString (Int.negSucc n) = "-" ++ toString (n + 1) := rfl
  simp only [repr, Nat.toString_eq_ofList_toDigits, String.toList_append, String.toList_ofList]
  rfl

theorem readScalar_whole {n : Int} (fits : -0x8000000000000000 ≤ n ∧ n < 0x10000000000000000)
    {rest : List Char} (ends : EndsNumber rest) :
    ∃ c more, (toString n).toList = c :: more ∧ (isDigit c = true ∨ c = '-') ∧
      readScalar c (more ++ rest) = .ok (.number (.whole n), rest) := by
  cases n with
  | ofNat n =>
    have small : n < Nat.pow 2 64 := by
      have := fits.2
      simp only [Int.ofNat_eq_natCast, Nat.pow_eq] at this ⊢
      omega
    obtain ⟨c, more, digits⟩ := List.exists_cons_of_ne_nil (@Nat.toDigits_ne_nil n 10)
    have digit : isDigit c = true := isDigit_of_mem_toDigits (n := n) (by simp [digits])
    have read := readUnsigned_toDigits false small ends
    rw [digits, List.cons_append] at read
    exact ⟨c, more, (toList_toString_ofNat n).trans digits, .inl digit,
      by rw [readScalar_of_digit digit, read]; rfl⟩
  | negSucc n =>
    have small : n + 1 ≤ Nat.pow 2 63 := by
      have := fits.1
      simp only [Nat.pow_eq]
      omega
    have read := readUnsigned_toDigits true (Nat.lt_of_le_of_lt small (by decide)) ends
    have whole : wholeOf true (n + 1) 0 = .ok (.whole (Int.negSucc n)) := by
      have inRange : (decide (0 < n + 1) && decide (n + 1 ≤ Nat.pow 2 63)) = true := by
        simp [small]
      simp only [wholeOf, bne_self_eq_false, Bool.false_eq_true, if_false, Bool.not_true, inRange,
        if_true]
      rfl
    rw [whole] at read
    exact ⟨'-', _, toList_toString_negSucc n, .inr rfl,
      by rw [readScalar_of_minus, read]; rfl⟩

/-- A scalar is read for its value, and no array or object begins with it. -/
theorem readScalar_text (s : Scalar) {rest : List Char} (ends : EndsNumber rest) :
    ∃ c more, s.text = c :: more ∧ c ∉ [' ', '\n', '\t', '\r', '[', '\x7b'] ∧
      readScalar c (more ++ rest) = .ok (s.json, rest) := by
  cases s with
  | string literal chars decodes =>
    refine ⟨'"', literal.inner ++ ['"'], rfl, by decide, ?_⟩
    rw [List.append_assoc, List.singleton_append]
    simp only [readScalar, readString_of_decodes decodes rest]
    rfl
  | bool b =>
    cases b with
    | true => exact ⟨'t', "rue".toList, rfl, by decide, rfl⟩
    | false => exact ⟨'f', "alse".toList, rfl, by decide, rfl⟩
  | whole n fits =>
    obtain ⟨c, more, text, first, read⟩ := readScalar_whole fits ends
    refine ⟨c, more, text, ?_, read⟩
    intro isIn
    have other : ∀ c ∈ [' ', '\n', '\t', '\r', '[', '\x7b'], isDigit c = false ∧ c ≠ '-' :=
      Text.forall_mem_of_all (by decide)
    rcases first with digit | sign
    · rw [(other c isIn).1] at digit
      cases digit
    · exact (other c isIn).2 sign

/-- What begins neither with white space nor with an opening bracket is a scalar. -/
theorem readValue_of_scalar (depth : Nat) (gap : Gap) {c : Char}
    (first : c ∉ [' ', '\n', '\t', '\r', '[', '\x7b']) (cs : List Char) :
    readValue depth (gap.val ++ c :: cs) = readScalar c cs := by
  simp only [List.mem_cons, List.not_mem_nil, or_false, not_or] at first
  have begins : skipSpace (gap.val ++ c :: cs) = c :: cs := by
    rw [skipSpace, List.dropWhile_append_of_pos gap.property]
    exact List.dropWhile_cons_of_neg (by simp [isSpace, first])
  rw [readValue, begins]
  simp only [beq_iff_eq, first, if_false]

theorem readValue_scalar (depth : Nat) (gap : Gap) (s : Scalar) {rest : List Char}
    (ends : EndsNumber rest) :
    readValue depth (gap.val ++ (s.text ++ rest)) = .ok (s.json, rest) := by
  obtain ⟨c, more, text, first, read⟩ := readScalar_text s ends
  rw [text, List.cons_append, readValue_of_scalar depth gap first]
  exact read

/-! ## Objects -/

/-- A member of an object, with white space before its name and before its value. -/
structure Member where
  before : Gap
  name : Literal
  chars : List Char
  decodes : Decodes name chars
  between : Gap
  value : Scalar

/-- The text of a member. -/
def Member.text (m : Member) : List Char :=
  m.before.val ++ (m.name.text ++ ':' :: (m.between.val ++ m.value.text))

/-- The name and the value of a member. -/
def Member.pair (m : Member) : String × Json := (String.ofList m.chars, m.value.json)

/-- The text of the members of an object. -/
def membersText : List Member → List Char
  | [] => []
  | m :: ms => m.text ++ ms.flatMap (',' :: ·.text)

theorem membersOf_of_nodup {pairs : List (String × Json)} (distinct : (Assoc.keys pairs).Nodup) :
    membersOf pairs = pairs := by
  have first : (Assoc.keys ([] : List (String × Json))).Nodup := List.nodup_nil
  have whole : Assoc.setAll pairs [] = pairs := by
    rw [Assoc.setAll_eq distinct first]
    simp [Assoc.update, Assoc.get?]
  exact whole

theorem skipSpace_member (m : Member) (rest : List Char) :
    skipSpace (m.text ++ rest) =
      '"' :: (m.name.inner ++ '"' :: ':' :: (m.between.val ++ (m.value.text ++ rest))) := by
  have quote : ¬ isSpace '"' = true := by decide
  simp only [skipSpace, Member.text, Literal.text, List.append_assoc, List.cons_append,
    List.nil_append, List.dropWhile_append_of_pos m.before.property,
    List.dropWhile_cons_of_neg quote]

theorem readMember_inner (depth : Nat) (m : Member) {rest : List Char} (ends : EndsNumber rest) :
    readMember (readValue depth)
        (m.name.inner ++ '"' :: ':' :: (m.between.val ++ (m.value.text ++ rest))) =
      .ok (m.pair, rest) := by
  have colon (more : List Char) : readColon (':' :: more) = .ok more := rfl
  simp only [readMember, readString_of_decodes m.decodes, bind, Except.bind, colon,
    readValue_scalar depth m.between m.value ends]
  rfl

/-- A number ends before the next member and before the brace. -/
theorem endsNumber_more (ms : List Member) (rest : List Char) :
    EndsNumber (ms.flatMap (',' :: ·.text) ++ '\x7d' :: rest) := by
  intro c first
  cases ms with
  | nil =>
    cases first
    decide
  | cons m ms =>
    cases first
    decide

theorem readMembers_more (depth : Nat) (ms : List Member) (rest : List Char) {fuel : Nat}
    (enough : ms.length < fuel) :
    readMembers (readValue depth) fuel (ms.flatMap (',' :: ·.text) ++ '\x7d' :: rest) =
      .ok (ms.map Member.pair, rest) := by
  induction ms generalizing fuel with
  | nil =>
    obtain ⟨fuel, rfl⟩ := Nat.exists_eq_succ_of_ne_zero (Nat.ne_of_gt enough)
    rfl
  | cons m ms ih =>
    obtain ⟨fuel, rfl⟩ := Nat.exists_eq_succ_of_ne_zero (Nat.ne_zero_of_lt enough)
    have comma (more : List Char) : skipSpace (',' :: more) = ',' :: more := rfl
    have later := ih (Nat.lt_of_succ_lt_succ enough)
    simp only [List.flatMap_cons, List.cons_append, List.append_assoc, readMembers, comma,
      readNextName, skipSpace_member, bind, Except.bind,
      readMember_inner depth m (endsNumber_more ms rest), later]
    rfl

theorem length_le_more (ms : List Member) : ms.length ≤ (ms.flatMap (',' :: ·.text)).length := by
  induction ms with
  | nil => exact Nat.le_refl 0
  | cons m ms ih =>
    rw [List.flatMap_cons, List.length_append, List.length_cons, List.length_cons]
    omega

theorem readObject_members (depth : Nat) (ms : List Member) (rest : List Char) :
    readObject (readValue depth) (membersText ms ++ '\x7d' :: rest) =
      .ok (ms.map Member.pair, rest) := by
  cases ms with
  | nil => rfl
  | cons m ms =>
    have enough : ms.length < (ms.flatMap (',' :: ·.text) ++ '\x7d' :: rest).length + 1 := by
      have := length_le_more ms
      rw [List.length_append]
      omega
    simp only [membersText, List.append_assoc, readObject, skipSpace_member, bind, Except.bind,
      readMember_inner depth m (endsNumber_more ms rest), readMembers_more depth ms rest enough]
    rfl

/-- An object of scalars is read for its members, of which the last of a name counts. -/
theorem parse_members (ms : List Member) :
    parse (String.ofList ('\x7b' :: (membersText ms ++ ['\x7d']))) =
      .ok (.object (membersOf (ms.map Member.pair))) := by
  have brace (more : List Char) : skipSpace ('\x7b' :: more) = '\x7b' :: more := rfl
  have notBracket : ('\x7b' == '[') = false := by decide
  rw [parse, String.toList_ofList, maxDepth, readValue, brace]
  simp only [notBracket, Bool.false_eq_true, if_false, beq_self_eq_true, if_true,
    readObject_members, bind, Except.bind]
  rfl

end SnapshotPreview.Json

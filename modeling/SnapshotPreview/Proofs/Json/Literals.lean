import SnapshotPreview.Proofs.Json.Acceptance
import SnapshotPreview.Proofs.Json.Reading

/-!
# What the strings and numbers of a JSON text mean

The characters of a string (`Literal.chars?`) and the value of a number (`Numeral.value?`), if they
have any: halves of pairs that stand alone and numbers that are too large have none. They are read for
what they mean, whatever stands behind them, and refused otherwise.
-/

namespace SnapshotPreview.Json

/-! ## Strings -/

/-- The characters that a string is written for. -/
def Literal.chars? : Literal → Option (List Char)
  | [] => some []
  | .plain c _ :: l => (Literal.chars? l).map (c :: ·)
  | .short c known :: l => (Literal.chars? l).map ((shortEscape? c).get known :: ·)
  | .unicode a b c d :: .unicode e f g h :: l =>
    if isHigh (codeOf a b c d) then
      if isLow (codeOf e f g h) then
        (Literal.chars? l).map (Char.ofNat (0x10000 + (codeOf a b c d - 0xd800) * 0x400 +
          (codeOf e f g h - 0xdc00)) :: ·)
      else none
    else if isLow (codeOf a b c d) then none
    else (Literal.chars? (.unicode e f g h :: l)).map (Char.ofNat (codeOf a b c d) :: ·)
  | .unicode a b c d :: l =>
    if isHigh (codeOf a b c d) || isLow (codeOf a b c d) then none
    else (Literal.chars? l).map (Char.ofNat (codeOf a b c d) :: ·)

theorem chars?_of_decodes {l : Literal} {cs : List Char} (decodes : Decodes l cs) :
    l.chars? = some cs := by
  induction decodes with
  | nil => rfl
  | plain decodes ih => rw [Literal.chars?, ih, Option.map_some]
  | short decodes ih => rw [Literal.chars?, ih, Option.map_some]
  | @unicode a b c d l cs notHigh notLow decodes ih =>
    cases l with
    | nil => simp_all [Literal.chars?]
    | cons piece l => cases piece <;> simp_all [Literal.chars?]
  | pair high low decodes ih => simp_all [Literal.chars?]

theorem decodes_of_chars? {l : Literal} {cs : List Char} (known : l.chars? = some cs) :
    Decodes l cs := by
  fun_induction Literal.chars? l generalizing cs with
  | case1 =>
    cases known
    exact .nil
  | case2 c inString l ih =>
    obtain ⟨rest, later, rfl⟩ := Option.map_eq_some_iff.mp known
    exact .plain (ih later)
  | case3 c short l ih =>
    obtain ⟨rest, later, rfl⟩ := Option.map_eq_some_iff.mp known
    exact .short (ih later)
  | case4 a b c d e f g h l high low ih =>
    obtain ⟨rest, later, rfl⟩ := Option.map_eq_some_iff.mp known
    exact .pair high low (ih later)
  | case5 => cases known
  | case6 => cases known
  | case7 a b c d e f g h l notHigh notLow ih =>
    obtain ⟨rest, later, rfl⟩ := Option.map_eq_some_iff.mp known
    exact .unicode (by simpa using notHigh) (by simpa using notLow) (ih later)
  | case8 => cases known
  | case9 a b c d l other single ih =>
    obtain ⟨rest, later, rfl⟩ := Option.map_eq_some_iff.mp known
    rw [Bool.or_eq_true, not_or, Bool.not_eq_true, Bool.not_eq_true] at single
    exact .unicode single.1 single.2 (ih later)

/-- The first half of a pair is only read with the second half behind it. -/
theorem exists_low_of_readUnicodeEscape {a b c d : HexDigit} {more rest : List Char} {x : Char}
    (read : readUnicodeEscape (a.val :: b.val :: c.val :: d.val :: more) = .ok (x, rest)) :
    isLow (codeOf a b c d) = false ∧ (isHigh (codeOf a b c d) = true → ∃ e f g h : HexDigit,
      more = '\\' :: 'u' :: e.val :: f.val :: g.val :: h.val :: rest ∧
        isLow (codeOf e f g h) = true) := by
  rw [readUnicodeEscape, readHex_digits] at read
  obtain ⟨⟨code, next⟩, first, read⟩ := bind_eq_ok.mp read
  cases first
  dsimp only at read
  split at read
  · cases read
  · rename_i notLow
    refine ⟨by simpa [isLow] using notLow, fun high => ?_⟩
    split at read
    · rename_i single
      simp only [isHigh, Bool.and_eq_true, Bool.or_eq_true, decide_eq_true_eq] at high single
      omega
    · obtain ⟨behindSlash, slash, read⟩ := bind_eq_ok.mp read
      obtain ⟨behindLetter, letter, read⟩ := bind_eq_ok.mp read
      obtain ⟨⟨low, last⟩, readLow, read⟩ := bind_eq_ok.mp read
      obtain ⟨e, f, g, h, digits⟩ := exists_digits_of_readHex readLow
      rw [digits, readHex_digits] at readLow
      cases readLow
      dsimp only at read
      split at read
      · cases read
      · rename_i isLow'
        obtain ⟨-, rfl⟩ := Prod.mk.inj (Except.ok.inj read)
        refine ⟨e, f, g, h, ?_, ?_⟩
        · rw [eq_cons_of_readExactly slash, eq_cons_of_readExactly letter, digits]
        · simp only [Bool.or_eq_true, decide_eq_true_eq, not_or] at isLow'
          simp only [isLow, Bool.and_eq_true, decide_eq_true_eq]
          omega

theorem exists_of_readChars_plain {fuel : Nat} {c : Char}
    (inString : c ≠ '"' ∧ c ≠ '\\' ∧ 0x20 ≤ c.toNat) {cs : List Char}
    {result : List Char × List Char} (read : readChars fuel (c :: cs) = .ok result) :
    ∃ fuel' result', readChars fuel' cs = .ok result' := by
  cases fuel with
  | zero => cases read
  | succ fuel =>
    have printable : ¬ c.toNat < 0x20 := by omega
    simp only [readChars, beq_iff_eq, inString.1, inString.2.1, printable, if_false] at read
    obtain ⟨result', later, -⟩ := bind_eq_ok.mp read
    exact ⟨fuel, result', later⟩

theorem exists_of_readChars_escape {fuel : Nat} {escape : List Char} {result : List Char × List Char}
    (read : readChars fuel ('\\' :: escape) = .ok result) :
    ∃ c next, readEscape escape = .ok (c, next) ∧
      ∃ fuel' result', readChars fuel' next = .ok result' := by
  cases fuel with
  | zero => cases read
  | succ fuel =>
    have notQuote : ('\\' == '"') = false := by decide
    simp only [readChars, notQuote, Bool.false_eq_true, if_false, beq_self_eq_true, if_true] at read
    obtain ⟨⟨c, next⟩, escapes, read⟩ := bind_eq_ok.mp read
    obtain ⟨result', later, -⟩ := bind_eq_ok.mp read
    exact ⟨c, next, escapes, fuel, result', later⟩

theorem readEscape_unicode (cs : List Char) : readEscape ('u' :: cs) = readUnicodeEscape cs := rfl

/-- What is read has a meaning: a half of a pair that stands alone stops the reader. -/
theorem isSome_chars?_of_readChars {l : Literal} {fuel : Nat} {rest : List Char}
    {result : List Char × List Char} (read : readChars fuel (l.inner ++ '"' :: rest) = .ok result) :
    l.chars?.isSome = true := by
  fun_induction Literal.chars? l generalizing fuel result with
  | case1 => rfl
  | case2 c inString l ih =>
    obtain ⟨fuel, result, later⟩ := exists_of_readChars_plain inString read
    rw [Option.isSome_map]
    exact ih later
  | case3 c short l ih =>
    simp only [literal_inner_cons, Piece.text, List.cons_append, List.nil_append] at read
    obtain ⟨d, next, escapes, fuel, result, later⟩ := exists_of_readChars_escape read
    rw [readEscape_short short] at escapes
    cases escapes
    rw [Option.isSome_map]
    exact ih later
  | case4 a b c d e f g h l high low ih =>
    simp only [literal_inner_cons, Piece.text, List.cons_append, List.nil_append] at read
    obtain ⟨x, next, escapes, fuel, result, later⟩ := exists_of_readChars_escape read
    rw [readEscape_unicode, readUnicodeEscape_pair high low] at escapes
    obtain ⟨-, rfl⟩ := Prod.mk.inj (Except.ok.inj escapes)
    rw [Option.isSome_map]
    exact ih later
  | case5 a b c d e f g h l high notLow =>
    simp only [literal_inner_cons, Piece.text, List.cons_append, List.nil_append] at read
    obtain ⟨x, next, escapes, -⟩ := exists_of_readChars_escape read
    rw [readEscape_unicode] at escapes
    obtain ⟨e', f', g', h', same, low⟩ := (exists_low_of_readUnicodeEscape escapes).2 high
    simp only [List.cons.injEq, true_and, Subtype.val_inj] at same
    obtain ⟨rfl, rfl, rfl, rfl, -⟩ := same
    exact absurd low notLow
  | case6 a b c d e f g h l notHigh low =>
    simp only [literal_inner_cons, Piece.text, List.cons_append, List.nil_append] at read
    obtain ⟨x, next, escapes, -⟩ := exists_of_readChars_escape read
    rw [readEscape_unicode] at escapes
    rw [(exists_low_of_readUnicodeEscape escapes).1] at low
    cases low
  | case7 a b c d e f g h l notHigh notLow ih =>
    rw [Bool.not_eq_true] at notHigh notLow
    rw [literal_inner_cons] at read
    simp only [Piece.text, List.cons_append, List.nil_append] at read
    obtain ⟨x, next, escapes, fuel, result, later⟩ := exists_of_readChars_escape read
    rw [readEscape_unicode, readUnicodeEscape_unicode notHigh notLow] at escapes
    obtain ⟨-, rfl⟩ := Prod.mk.inj (Except.ok.inj escapes)
    rw [Option.isSome_map]
    exact ih later
  | case8 a b c d l other half =>
    simp only [literal_inner_cons, Piece.text, List.cons_append, List.nil_append] at read
    obtain ⟨x, next, escapes, -⟩ := exists_of_readChars_escape read
    rw [readEscape_unicode] at escapes
    obtain ⟨notLow, second⟩ := exists_low_of_readUnicodeEscape escapes
    rw [notLow, Bool.or_false] at half
    obtain ⟨e, f, g, h, same, -⟩ := second half
    cases l with
    | nil => cases same
    | cons piece l =>
      cases piece with
      | plain c inString => exact absurd (List.cons.inj same).1 inString.2.1
      | short c known =>
        rw [(List.cons.inj (List.cons.inj same).2).1] at known
        cases known
      | unicode e f g h => exact absurd rfl (other e f g h l)
  | case9 a b c d l other single ih =>
    rw [Bool.or_eq_true, not_or, Bool.not_eq_true, Bool.not_eq_true] at single
    simp only [literal_inner_cons, Piece.text, List.cons_append, List.nil_append] at read
    obtain ⟨x, next, escapes, fuel, result, later⟩ := exists_of_readChars_escape read
    rw [readEscape_unicode, readUnicodeEscape_unicode single.1 single.2] at escapes
    obtain ⟨-, rfl⟩ := Prod.mk.inj (Except.ok.inj escapes)
    rw [Option.isSome_map]
    exact ih later

theorem readString_inner (l : Literal) (rest : List Char) :
    (readString (l.inner ++ '"' :: rest)).toOption =
      l.chars?.map fun cs => (String.ofList cs, rest) := by
  cases known : l.chars? with
  | some cs =>
    rw [readString_of_decodes (decodes_of_chars? known)]
    rfl
  | none =>
    cases read : readString (l.inner ++ '"' :: rest) with
    | error e => rfl
    | ok result =>
      obtain ⟨chars, readAll, -⟩ := bind_eq_ok.mp read
      have some := isSome_chars?_of_readChars readAll
      rw [known] at some
      cases some

/-! ## Numbers -/

/-- No digit stands next. -/
def EndsDigits (rest : List Char) : Prop := ∀ c, rest.head? = some c → isDigit c = false

theorem EndsNumber.endsDigits {rest : List Char} (ends : EndsNumber rest) : EndsDigits rest :=
  fun c first => (ends c first).1

def values (ds : Digits) : List Nat := ds.val.map fun c => c.toNat - '0'.toNat

theorem readDigits_append (ds : Digits) {rest : List Char} (ends : EndsDigits rest) :
    readDigits (ds.val ++ rest) = (values ds, rest) := by
  rw [values, readDigits, Text.takeWhile_append_of_ends ds.property.2 ends,
    Text.dropWhile_append_of_ends ds.property.2 ends]

theorem isEmpty_values (ds : Digits) : (values ds).isEmpty = false := by
  unfold values
  cases same : ds.val with
  | nil => exact absurd same ds.property.1
  | cons d more => rfl

def valueOf (ds : Digits) : Nat := (values ds).foldl (fun n d => n * 10 + d) 0

theorem exists_exponent (e : Exponent) : ∃ value : Int, ∀ rest, EndsDigits rest →
    readExponent (e.sign.val ++ (e.digits.val ++ rest)) = .ok (value, rest) := by
  obtain ⟨letter, ⟨sign, isSign⟩, digits⟩ := e
  obtain ⟨d, more, whole⟩ := List.exists_cons_of_ne_nil digits.property.1
  have digit : isDigit d = true := digits.property.2 d (by rw [whole]; exact List.mem_cons_self)
  have notEmpty (rest : List Char) : (digits.val ++ rest).isEmpty = false := by
    rw [whole]
    rfl
  simp only [List.mem_cons, List.not_mem_nil, or_false] at isSign
  rcases isSign with rfl | rfl | rfl
  · refine ⟨Int.ofNat (valueOf digits), fun rest ends => ?_⟩
    have noSign {c : Char} (sign : isDigit c = false) (cs : List Char) :
        digits.val ++ rest ≠ c :: cs := by
      intro same
      rw [whole] at same
      rw [← (List.cons.inj same).1, digit] at sign
      cases sign
    unfold readExponent
    rw [List.nil_append]
    split
    rename_i negative unsigned parts
    split at parts
    · rename_i cs same
      exact absurd same (noSign (by decide) cs)
    · rename_i cs same
      exact absurd same (noSign (by decide) cs)
    · cases parts
      simp only [notEmpty, readDigits_append digits ends, isEmpty_values, Bool.false_eq_true, if_false]
      rfl
  · refine ⟨Int.ofNat (valueOf digits), fun rest ends => ?_⟩
    simp only [readExponent, List.singleton_append, notEmpty, readDigits_append digits ends,
      isEmpty_values, Bool.false_eq_true, if_false]
    rfl
  · refine ⟨-Int.ofNat (valueOf digits), fun rest ends => ?_⟩
    simp only [readExponent, List.singleton_append, notEmpty, readDigits_append digits ends,
      isEmpty_values, Bool.false_eq_true, if_false]
    rfl

/-- What follows the whole part is read the same, whatever stands behind the number. -/
theorem exists_afterWhole (negative : Bool) (significand leftOver : Nat) (fraction : Option Digits)
    (exponent : Option Exponent) : ∃ value : Option JsonNumber, ∀ rest, EndsNumber rest →
      (readAfterWhole negative significand leftOver
        (fraction.elim [] ('.' :: ·.val) ++ (exponent.elim [] Exponent.text ++ rest))).toOption =
          value.map (·, rest) := by
  have letters : ∀ c ∈ ['e', 'E'], c ≠ '.' ∧ isDigit c = false ∧ (c == 'e' || c == 'E') = true :=
    Text.forall_mem_of_all (by decide)
  have noLetter {rest : List Char} (ends : EndsNumber rest) : exponentLetter rest = false := by
    cases rest with
    | nil => rfl
    | cons c rest =>
      obtain ⟨-, -, notE⟩ := ends c rfl
      simp [exponentLetter, notE]
  cases fraction with
  | none =>
    cases exponent with
    | none =>
      refine ⟨(wholeOf negative significand leftOver).toOption, fun rest ends => ?_⟩
      have noPoint : ∀ more, rest = '.' :: more → False := by
        rintro more rfl
        exact (ends '.' rfl).2.1 rfl
      simp only [Option.elim, List.nil_append]
      rw [readAfterWhole.eq_2 _ _ _ _ noPoint, noLetter ends]
      cases wholeOf negative significand leftOver <;> rfl
    | some e =>
      obtain ⟨value, reads⟩ := exists_exponent e
      obtain ⟨notPoint, -, isLetter⟩ := letters _ e.letter.property
      refine ⟨(floatOf negative significand (leftOver + value)).toOption, fun rest ends => ?_⟩
      have noPoint : ∀ more, e.text ++ rest = '.' :: more → False :=
        fun more same => notPoint (List.cons.inj same).1
      have starts : exponentLetter (e.text ++ rest) = true := isLetter
      have tail : (e.text ++ rest).tail = e.sign.val ++ (e.digits.val ++ rest) := by
        simp [Exponent.text]
      simp only [Option.elim, List.nil_append]
      rw [readAfterWhole.eq_2 _ _ _ _ noPoint, starts, tail, reads rest ends.endsDigits]
      simp only [if_true, bind, Except.bind]
      cases floatOf negative significand (leftOver + value) <;> rfl
  | some ds =>
    cases exponent with
    | none =>
      refine ⟨(floatOf negative (absorb significand (values ds)).1 ((leftOver : Int) -
        (((values ds).length - (absorb significand (values ds)).2 : Nat) : Int))).toOption,
        fun rest ends => ?_⟩
      simp only [Option.elim, List.nil_append, List.cons_append, readAfterWhole,
        readDigits_append ds ends.endsDigits, isEmpty_values, noLetter ends, Bool.false_eq_true,
        if_false, bind, Except.bind]
      cases floatOf negative (absorb significand (values ds)).1 _ <;> rfl
    | some e =>
      obtain ⟨value, reads⟩ := exists_exponent e
      obtain ⟨-, notDigit, isLetter⟩ := letters _ e.letter.property
      refine ⟨(floatOf negative (absorb significand (values ds)).1 ((leftOver : Int) -
        (((values ds).length - (absorb significand (values ds)).2 : Nat) : Int) + value)).toOption,
        fun rest ends => ?_⟩
      have stops : EndsDigits (e.text ++ rest) := by
        intro c first
        cases first
        exact notDigit
      have starts : exponentLetter (e.text ++ rest) = true := isLetter
      have tail : (e.text ++ rest).tail = e.sign.val ++ (e.digits.val ++ rest) := by
        simp [Exponent.text]
      simp only [Option.elim, List.cons_append, readAfterWhole, readDigits_append ds stops,
        isEmpty_values, starts, tail, reads rest ends.endsDigits, Bool.false_eq_true, if_false,
        if_true, bind, Except.bind]
      cases floatOf negative (absorb significand (values ds)).1 _ <;> rfl

theorem endsDigits_tail (fraction : Option Digits) (exponent : Option Exponent) {rest : List Char}
    (ends : EndsNumber rest) :
    EndsDigits (fraction.elim [] ('.' :: ·.val) ++ (exponent.elim [] Exponent.text ++ rest)) := by
  cases fraction with
  | some ds =>
    intro c first
    cases first
    decide
  | none =>
    cases exponent with
    | none => exact ends.endsDigits
    | some e =>
      have letters : ∀ c ∈ ['e', 'E'], isDigit c = false := Text.forall_mem_of_all (by decide)
      intro c first
      cases first
      exact letters _ e.letter.property

/-- The text of a number without its sign. -/
def Numeral.unsigned (n : Numeral) : List Char :=
  n.whole.val ++ (n.fraction.elim [] ('.' :: ·.val) ++ n.exponent.elim [] Exponent.text)

theorem exists_unsigned (n : Numeral) : ∃ value : Option JsonNumber, ∀ rest, EndsNumber rest →
    (readUnsigned n.negative (n.unsigned ++ rest)).toOption = value.map (·, rest) := by
  obtain ⟨d, more, whole⟩ := List.exists_cons_of_ne_nil n.whole.property.1
  have digit : isDigit d = true := n.whole.property.2 d (by rw [whole]; exact List.mem_cons_self)
  by_cases zero : d = '0'
  · have single : n.whole.val = ['0'] := n.noLeadingZero (by rw [whole, zero]; rfl)
    obtain ⟨value, reads⟩ := exists_afterWhole n.negative 0 0 n.fraction n.exponent
    refine ⟨value, fun rest ends => ?_⟩
    have stops := endsDigits_tail n.fraction n.exponent ends
    rw [← reads rest ends, Numeral.unsigned, single, List.append_assoc, List.append_assoc,
      List.singleton_append]
    generalize n.fraction.elim [] ('.' :: ·.val) ++ (n.exponent.elim [] Exponent.text ++ rest) = tail
      at stops
    have noDigit : tail.head?.any isDigit = false := by
      cases tail with
      | nil => rfl
      | cons c tail => exact stops c rfl
    simp only [readUnsigned, beq_self_eq_true, if_true, noDigit, Bool.false_eq_true, if_false]
  · obtain ⟨value, reads⟩ := exists_afterWhole n.negative (absorb 0 (values n.whole)).1
      (absorb 0 (values n.whole)).2 n.fraction n.exponent
    refine ⟨value, fun rest ends => ?_⟩
    have read := readDigits_append n.whole (endsDigits_tail n.fraction n.exponent ends)
    rw [← reads rest ends, Numeral.unsigned, List.append_assoc, List.append_assoc]
    rw [whole, List.cons_append] at read ⊢
    simp only [readUnsigned, beq_iff_eq, zero, if_false, digit, if_true, read]

/-- The value of a number, if it is not too large. -/
def Numeral.value? (n : Numeral) : Option JsonNumber :=
  (readUnsigned n.negative n.unsigned).toOption.map Prod.fst

theorem readUnsigned_append (n : Numeral) {rest : List Char} (ends : EndsNumber rest) :
    (readUnsigned n.negative (n.unsigned ++ rest)).toOption = n.value?.map (·, rest) := by
  obtain ⟨value, reads⟩ := exists_unsigned n
  have alone := reads [] nofun
  rw [List.append_nil] at alone
  rw [Numeral.value?, alone, reads rest ends]
  cases value <;> rfl

end SnapshotPreview.Json

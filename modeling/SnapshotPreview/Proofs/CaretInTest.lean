import SnapshotPreview.Proofs.SuitePath

/-!
# Carets and the test that is found for them

The test found for a caret is the last one before the block around the caret. Its call need not
enclose the caret: it may be closed before the caret, and when the caret stands in front of the
block it may begin only after the caret. It misses the caret in no other way (`spans_iff`), which
tells the carets that get the name of a test around them from those that do not
(`named_test_spans_iff`).
-/

namespace SnapshotPreview

/-! ## Where a call begins -/

namespace Call

/-- The position of the first of the given bytes, which are listed from the last to the first, when
the first `len` bytes of the text end with them and white space before each of them is skipped. -/
def firstOf? (text : Array UInt8) : List UInt8 → Nat → Option Nat
  | [], len => some len
  | expected :: more, len =>
    match trimmedLength text len with
    | 0 => none
    | before + 1 => if text[before]? = some expected then firstOf? text more before else none

theorem trimmedLength_le (text : Array UInt8) (len : Nat) : trimmedLength text len ≤ len := by
  induction len with
  | zero => exact Nat.le_refl 0
  | succ len ih =>
    unfold trimmedLength
    split
    · split <;> omega
    · exact Nat.le_refl _

theorem endsWith_eq_isSome (text : Array UInt8) (bytes : List UInt8) (len : Nat) :
    endsWith text bytes len = (firstOf? text bytes len).isSome := by
  induction bytes generalizing len with
  | nil => rfl
  | cons expected more ih =>
    simp only [endsWith, firstOf?]
    cases trimmedLength text len with
    | zero => rfl
    | succ before =>
      by_cases same : text[before]? = some expected
      · simp [same, ih]
      · simp [same]

theorem firstOf?_le {text : Array UInt8} {bytes : List UInt8} {len first : Nat}
    (found : firstOf? text bytes len = some first) : first ≤ len := by
  induction bytes generalizing len with
  | nil =>
    cases found
    exact Nat.le_refl _
  | cons expected more ih =>
    have shorter := trimmedLength_le text len
    simp only [firstOf?] at found
    split at found
    · cases found
    · split at found
      · have := ih found
        omega
      · cases found

/-- Where the identifier of a call begins whose first argument begins at `pos`. -/
def head? (text : Array UInt8) (ident : String) (pos : Nat) : Option Nat :=
  firstOf? text (Text.bytesOf (opening ident)).toList.reverse (pos + 1)

/-- A call has an identifier that begins before its first argument. -/
theorem exists_head_of_at? {text : Array UInt8} {vocabulary : Vocabulary} {kind : CallKind}
    {pos : Nat} (hit : (at? text vocabulary kind pos).isSome) :
    ∃ ident ∈ vocabulary.identifiers kind, ∃ head ∈ head? text ident pos, head ≤ pos + 1 := by
  unfold at? at hit
  split at hit
  · rename_i known
    obtain ⟨ident, isIdent, opens⟩ := List.any_eq_true.mp known
    have ends := (Bool.and_eq_true_iff.mp opens).2
    rw [endsWith_eq_isSome] at ends
    obtain ⟨head, found⟩ := Option.isSome_iff_exists.mp ends
    exact ⟨ident, isIdent, head, found, firstOf?_le found⟩
  · cases hit

end Call

namespace Locator

/-! ## The block around a caret -/

theorem firstFrom_eq_some_iff {text : Array UInt8} {value : UInt8} {start p : Nat} :
    firstFrom text value start = some p ↔
      start ≤ p ∧ text[p]? = some value ∧ ∀ x, start ≤ x → x < p → text[x]? ≠ some value := by
  have byteAt (n : Nat) : (text.toList.drop start)[n]? = text[start + n]? := by
    rw [List.getElem?_drop, Array.getElem?_toList]
  simp only [firstFrom, Option.map_eq_some_iff, List.findIdx?_eq_some_iff_getElem]
  constructor
  · rintro ⟨n, ⟨inside, here, before⟩, rfl⟩
    refine ⟨by omega, ?_, fun x low high same => ?_⟩
    · rw [← byteAt, List.getElem?_eq_getElem inside, beq_iff_eq.mp here]
    · apply before (x - start) (by omega)
      rw [show x = start + (x - start) by omega, ← byteAt,
        List.getElem?_eq_getElem (by omega)] at same
      exact beq_iff_eq.mpr (Option.some.inj same)
  · rintro ⟨low, here, before⟩
    rw [show p = start + (p - start) by omega, ← byteAt] at here
    obtain ⟨inside, isHere⟩ := List.getElem?_eq_some_iff.mp here
    refine ⟨p - start, ⟨inside, beq_iff_eq.mpr isHere, fun n less same => ?_⟩, by omega⟩
    apply before (start + n) (by omega) (by omega)
    rw [← byteAt, List.getElem?_eq_getElem (by omega), beq_iff_eq.mp same]

/-- The block around a caret, from the byte before its closing brace to its opening brace. -/
theorem contextStart_eq_some_iff {text : Array UInt8} {caret start : Nat} :
    contextStart text caret = some start ↔ ∃ before,
      firstFrom text (Text.byte '\x7d') (min caret text.size) = some (before + 1) ∧
        Bracket.find text before (Text.byte '\x7b') (Text.byte '\x7d') .backward =
          some (start + 1) := by
  unfold contextStart
  constructor
  · intro context
    split at context
    · cases context
    · cases context
    · rename_i before close
      split at context
      · cases context
      · cases context
      · rename_i brace block
        cases context
        exact ⟨before, close, block⟩
  · rintro ⟨before, close, block⟩
    rw [close]
    dsimp only
    rw [block]

/-- Some closing brace ends the block around a caret. -/
theorem lt_size_of_contextStart {text : Array UInt8} {caret start : Nat}
    (context : contextStart text caret = some start) : caret < text.size := by
  obtain ⟨before, close, -⟩ := contextStart_eq_some_iff.mp context
  obtain ⟨le, brace, -⟩ := firstFrom_eq_some_iff.mp close
  have := (Array.getElem?_eq_some_iff.mp brace).1
  omega

/-! ## Calls around a caret -/

/-- The name of the test call whose name begins at a position. -/
def testName? (text : Array UInt8) (vocabulary : Vocabulary) (q : Nat) : Option String :=
  (Call.at? text vocabulary .test q).map Call.name

/-- The test call whose name begins at `q` has its identifier begin at or before the caret. -/
def BeginsBy (text : Array UInt8) (vocabulary : Vocabulary) (q caret : Nat) : Prop :=
  ∃ ident ∈ vocabulary.tests, ∃ head ∈ Call.head? text ident q, head ≤ caret

/-- The caret stands in the test call whose name begins at `q`: from the first character of its
identifier to the parenthesis that closes it, or to the end of the text without one. -/
def Spans (text : Array UInt8) (vocabulary : Vocabulary) (q caret : Nat) : Prop :=
  BeginsBy text vocabulary q caret ∧
    caret ≤ (Bracket.find text q (Text.byte '(') (Text.byte ')') .forward).getD text.size

/-- Up to the caret, no more parentheses have been closed after `q` than have been opened. -/
def StaysOpen (text : Array UInt8) (q caret : Nat) : Prop :=
  ∀ x ≤ caret, q ≤ x → Bracket.depth text (Text.byte '(') (Text.byte ')') q ≤
    Bracket.depth text (Text.byte '(') (Text.byte ')') x

theorem le_end_iff_staysOpen {text : Array UInt8} {q caret : Nat} (inside : caret ≤ text.size) :
    caret ≤ (Bracket.find text q (Text.byte '(') (Text.byte ')') .forward).getD text.size ↔
      StaysOpen text q caret := by
  have distinct : Text.byte '(' ≠ Text.byte ')' := by decide
  cases found : Bracket.find text q (Text.byte '(') (Text.byte ')') .forward with
  | none =>
    rw [Option.getD_none]
    refine ⟨fun _ x le after => ?_, fun _ => inside⟩
    -- The depth cannot have fallen before `x`, as the scan would have ended there.
    by_contra fallen
    have later : x ≠ q := by
      rintro rfl
      exact fallen (Int.le_refl _)
    have below : Bracket.depth text (Text.byte '(') (Text.byte ')') (x - 1 + 1) <
        Bracket.depth text (Text.byte '(') (Text.byte ')') q := by
      rw [Nat.sub_add_cancel (by omega)]
      omega
    obtain ⟨stop, -, stops⟩ :=
      Bracket.exists_find_forward distinct (show q ≤ x - 1 by omega) (by omega) below
    rw [found] at stops
    cases stops
  | some stop =>
    rw [Option.getD_some]
    obtain ⟨after, -, falls, before⟩ := (Bracket.find_forward_iff distinct).mp found
    constructor
    · intro le x bound low
      exact before x low (by omega)
    · intro stays
      by_contra beyond
      have := stays (stop + 1) (by omega) (by omega)
      omega

section
variable {text : Array UInt8} {vocabulary : Vocabulary} {caret start p : Nat}

/-- A test before the block around the caret misses the caret in two ways only: its call is closed
before the caret, or begins after a caret that stands in front of the block. -/
theorem spans_iff (context : contextStart text caret = some start)
    (hit : (Call.at? text vocabulary .test p).isSome) (before : p ≤ start) :
    Spans text vocabulary p caret ↔
      StaysOpen text p caret ∧ (caret ≤ start → BeginsBy text vocabulary p caret) := by
  rw [Spans, le_end_iff_staysOpen (Nat.le_of_lt (lt_size_of_contextStart context))]
  constructor
  · rintro ⟨begins, stays⟩
    exact ⟨stays, fun _ => begins⟩
  · rintro ⟨stays, front⟩
    refine ⟨?_, stays⟩
    -- A caret within the block stands behind every call that begins before the block.
    by_cases inBlock : start < caret
    · obtain ⟨ident, isIdent, head, found, le⟩ := Call.exists_head_of_at? hit
      exact ⟨ident, isIdent, head, found, by omega⟩
    · exact front (by omega)

theorem testName_of_findsTest (found : FindsTest text vocabulary caret p) :
    (locate text vocabulary caret).testName = testName? text vocabulary p := by
  obtain ⟨test, hit, -, located⟩ := locate_of_findsTest found
  rw [located, testName?, hit]
  rfl

/-- The caret gets the name of a test around it exactly when the test that is found is not closed
before the caret and does not begin after it, or another test of the same name is around the
caret. -/
theorem named_test_spans_iff (text : Array UInt8) (vocabulary : Vocabulary) (caret : Nat) :
    (∀ name ∈ (locate text vocabulary caret).testName,
        ∃ q, testName? text vocabulary q = some name ∧ Spans text vocabulary q caret) ↔
      ∀ start, contextStart text caret = some start → ∀ p, FindsTest text vocabulary caret p →
        (StaysOpen text p caret ∧ (caret ≤ start → BeginsBy text vocabulary p caret)) ∨
          ∃ q, q ≠ p ∧ testName? text vocabulary q = testName? text vocabulary p ∧
            Spans text vocabulary q caret := by
  constructor
  · intro around start context p found
    have reported := testName_of_findsTest found
    obtain ⟨_, context', before, hit, -⟩ := found
    rw [context] at context'
    cases context'
    obtain ⟨test, isTest⟩ := Option.isSome_iff_exists.mp hit
    have named : testName? text vocabulary p = some test.name := by rw [testName?, isTest]; rfl
    obtain ⟨q, sameName, spans⟩ := around test.name (by rw [reported, named]; rfl)
    by_cases same : q = p
    · rw [same] at spans
      exact .inl ((spans_iff context hit before).mp spans)
    · exact .inr ⟨q, same, by rw [sameName, named], spans⟩
  · intro condition name reported
    obtain ⟨p, found⟩ := (testName_isSome_iff text vocabulary caret).mp
      (by rw [Option.mem_def.mp reported]; rfl)
    have named : testName? text vocabulary p = some name := by
      rw [← testName_of_findsTest found]
      exact reported
    obtain ⟨start, context, before, hit, -⟩ := id found
    rcases condition start context p found with isAround | ⟨q, -, sameName, spans⟩
    · exact ⟨p, named, (spans_iff context hit before).mpr isAround⟩
    · exact ⟨q, by rw [sameName, named], spans⟩

end

instance (text : Array UInt8) (vocabulary : Vocabulary) (q caret : Nat) :
    Decidable (Spans text vocabulary q caret) :=
  inferInstanceAs (Decidable ((∃ ident ∈ vocabulary.tests, ∃ head ∈ Call.head? text ident q,
      head ≤ caret) ∧
    caret ≤ (Bracket.find text q (Text.byte '(') (Text.byte ')') .forward).getD text.size))

/-- A function after a test. -/
def afterTest : Array UInt8 :=
  Text.bytesOf "it('t', () => \x7b\x7d); function f() \x7b go(); \x7d"

/-- In the function `go` stands in no test, and yet gets the name of the test before it. -/
theorem closed_test_of_afterTest :
    ¬ ∀ name ∈ (locate afterTest .builtIn 34).testName,
        ∃ q, testName? afterTest .builtIn q = some name ∧ Spans afterTest .builtIn q 34 := by
  intro around
  have reported : (locate afterTest .builtIn 34).testName = some "t" := by decide +kernel
  obtain ⟨q, named, spans⟩ := around "t" reported
  obtain ⟨call, hit, -⟩ := Option.map_eq_some_iff.mp named
  have size : afterTest.size = 41 := by decide +kernel
  have inside : q < 41 := size ▸ (Array.getElem?_eq_some_iff.mp (quote_of_at? hit).1).1
  have apart : ∀ r < 41, testName? afterTest .builtIn r = some "t" →
      ¬ Spans afterTest .builtIn r 34 := by
    decide +kernel
  exact apart q inside named spans

/-- A caret before a test gets its name as well. -/
example :
    (locate (Text.bytesOf "go(); it('t', () => \x7b\x7d);") .builtIn 0).testName = some "t" ∧
      ¬ Spans (Text.bytesOf "go(); it('t', () => \x7b\x7d);") .builtIn 9 0 := by
  decide +kernel

end Locator

end SnapshotPreview

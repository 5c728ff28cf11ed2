import SnapshotPreview.Proofs.CaretInTest
import SnapshotPreview.Proofs.Text

/-!
# Text after the test

A text may be a beginning of a longer one, as while someone goes on writing. Whatever has been found
in it is found at the same place in the longer one: looking back never meets what was added, and
looking ahead stops before it, at the brace after the caret, the parenthesis after the test or the
quote after a name. So the test stays where it was (`locate_bytesOf_append`), unless one of the scans
ahead had run to the end of the text.
-/

namespace SnapshotPreview

variable {text : Array UInt8} (more : Array UInt8)

/-! ## Brackets -/

namespace Bracket

variable {opening closing : UInt8}

theorem depth_append_left {n : Nat} (le : n ≤ text.size) :
    depth (text ++ more) opening closing n = depth text opening closing n := by
  rw [depth, depth, Array.toList_append, List.take_append_of_le_length (by simpa using le)]

/-- A scan ahead that ends within a text stops before anything that comes after the text. -/
theorem find_forward_append_left (distinct : opening ≠ closing) {start p : Nat}
    (found : find text start opening closing .forward = some p) :
    find (text ++ more) start opening closing .forward = some p := by
  rw [find_forward_iff distinct] at found ⊢
  obtain ⟨le, inside, falls, before⟩ := found
  refine ⟨le, by rw [Array.size_append]; omega, ?_, fun x low high => ?_⟩
  · rw [depth_append_left more inside, depth_append_left more (by omega), falls]
  · rw [depth_append_left more (by omega), depth_append_left more (by omega)]
    exact before x low high

theorem find_backward_append_left {start : Nat} (inside : start < text.size) :
    find (text ++ more) start opening closing .backward =
      find text start opening closing .backward := by
  have insideLonger : start < (text ++ more).size := by rw [Array.size_append]; omega
  have sameBytes : behind (text ++ more) start = behind text start := by
    rw [behind, behind, Array.toList_append, List.take_append_of_le_length (by simp; omega)]
  simp only [find, if_pos inside, if_pos insideLonger, sameBytes]

end Bracket

/-! ## Calls -/

namespace Quoted

/-- A literal that ends among the given bytes ends there whatever follows them. -/
theorem scan_append_left {quote : UInt8} {bytes : List UInt8} (after : List UInt8)
    (closed : (scan quote bytes).2 < bytes.length) :
    scan quote (bytes ++ after) = scan quote bytes := by
  fun_induction scan quote bytes with
  | case1 => simp at closed
  | case2 rest =>
    unfold scan
    exact if_pos rfl
  | case3 => simp at closed
  | case4 escaped rest value used scanned isOther ih =>
    rw [scanned] at ih
    have scannedLonger := ih (by simpa using closed)
    unfold scan
    simp only [List.cons_append, if_neg isOther, if_true, scannedLonger]
  | case5 b rest isOther notEscape value used scanned ih =>
    rw [scanned] at ih
    have scannedLonger := ih (by simpa using closed)
    unfold scan
    simp only [List.cons_append, if_neg isOther, if_neg notEscape, scannedLonger]

theorem read_append_left {start : Nat} (closed : (read text start).stop < text.size) :
    read (text ++ more) start = read text start := by
  have ends : start + 1 + (scan (quoteOf text[start]?) (text.toList.drop (start + 1))).2 <
      text.size := by
    simp only [read] at closed
    omega
  have sameQuote : (text ++ more)[start]? = text[start]? :=
    Array.getElem?_append_left (by omega)
  have sameRest : (text ++ more).toList.drop (start + 1) =
      text.toList.drop (start + 1) ++ more.toList := by
    rw [Array.toList_append, List.drop_append_of_le_length (by simp; omega)]
  have scanned := scan_append_left more.toList
    (show (scan (quoteOf text[start]?) (text.toList.drop (start + 1))).2 <
      (text.toList.drop (start + 1)).length by simp; omega)
  simp only [read, sameQuote, sameRest, scanned, Array.size_append, Quoted.mk.injEq, true_and]
  omega

end Quoted

namespace Call

theorem trimmedLength_append_left {len : Nat} (le : len ≤ text.size) :
    trimmedLength (text ++ more) len = trimmedLength text len := by
  induction len with
  | zero => rfl
  | succ len ih =>
    simp only [trimmedLength, Array.getElem?_append_left (show len < text.size from le),
      ih (by omega)]

theorem endsWith_append_left {bytes : List UInt8} {len : Nat} (le : len ≤ text.size) :
    endsWith (text ++ more) bytes len = endsWith text bytes len := by
  induction bytes generalizing len with
  | nil => rfl
  | cons expected before ih =>
    simp only [endsWith, trimmedLength_append_left more le]
    have shorter := trimmedLength_le text len
    split
    · rfl
    · rename_i last trimmed
      rw [Array.getElem?_append_left (by omega), ih (by omega)]

theorem opensAt_append_left {literal : String} {pos : Nat} (inside : pos < text.size) :
    opensAt (text ++ more) literal pos = opensAt text literal pos := by
  rw [opensAt, opensAt, Array.getElem?_append_left inside, endsWith_append_left more inside]

/-- The name of each call ends within the text. -/
def AllClosed (text : Array UInt8) (vocabulary : Vocabulary) : Prop :=
  ∀ kind pos call, at? text vocabulary kind pos = some call → call.stop < text.size

/-- A position within the text begins the same call. -/
theorem at?_append_left {vocabulary : Vocabulary} (closed : AllClosed text vocabulary)
    {kind : CallKind} {pos : Nat} (inside : pos < text.size) :
    at? (text ++ more) vocabulary kind pos = at? text vocabulary kind pos := by
  have ends := closed kind pos
  unfold at? at ends ⊢
  simp only [opensAt_append_left more inside]
  split
  · rename_i known
    rw [if_pos known] at ends
    rw [Quoted.read_append_left more (ends _ rfl)]
  · rfl

end Call

theorem assertionNames_append_left {vocabulary : Vocabulary}
    (closed : Call.AllClosed text vocabulary) {start stop : Nat} (inside : stop < text.size) :
    assertionNames (text ++ more) vocabulary start stop =
      assertionNames text vocabulary start stop := by
  have sameBound : min (stop + 1) (text ++ more).size = min (stop + 1) text.size := by
    rw [Array.size_append]
    omega
  simp only [assertionNames, sameBound]
  refine List.filterMap_congr fun pos listed => ?_
  rw [List.mem_reverse, List.mem_range'_1] at listed
  rw [Call.at?_append_left more closed (by omega)]

/-! ## The test around a caret -/

namespace Locator

variable {vocabulary : Vocabulary}

theorem firstFrom_append_left {value : UInt8} {start p : Nat}
    (found : firstFrom text value start = some p) :
    firstFrom (text ++ more) value start = some p := by
  rw [firstFrom_eq_some_iff] at found ⊢
  obtain ⟨le, here, before⟩ := found
  have inside := (Array.getElem?_eq_some_iff.mp here).1
  refine ⟨le, by rw [Array.getElem?_append_left inside, here], fun x low high => ?_⟩
  rw [Array.getElem?_append_left (by omega)]
  exact before x low high

theorem contextStart_append_left {caret start : Nat}
    (context : contextStart text caret = some start) :
    contextStart (text ++ more) caret = some start := by
  have sameCaret : min caret (text ++ more).size = min caret text.size := by
    have := lt_size_of_contextStart context
    rw [Array.size_append]
    omega
  obtain ⟨before, close, block⟩ := contextStart_eq_some_iff.mp context
  have inside : before < text.size := by
    obtain ⟨-, brace, -⟩ := firstFrom_eq_some_iff.mp close
    have := (Array.getElem?_eq_some_iff.mp brace).1
    omega
  refine contextStart_eq_some_iff.mpr ⟨before, ?_, ?_⟩
  · rw [sameCaret, firstFrom_append_left more close]
  · rw [Bracket.find_backward_append_left more inside, block]

theorem boundAfterSuite_append_left {pos : Nat} (inside : pos < text.size) :
    boundAfterSuite (text ++ more) pos = boundAfterSuite text pos := by
  rw [boundAfterSuite, boundAfterSuite, Bracket.find_backward_append_left more inside]

section
variable (closed : Call.AllClosed text vocabulary)
include closed

theorem lastBelow_append_left {kind : CallKind} {bound : Nat} (le : bound ≤ text.size) :
    lastBelow (text ++ more) vocabulary kind bound = lastBelow text vocabulary kind bound := by
  induction bound with
  | zero => rfl
  | succ pos ih => simp only [lastBelow, Call.at?_append_left more closed le, ih (by omega)]

theorem suitesBelow_append_left {bound : Nat} (le : bound ≤ text.size) :
    suitesBelow (text ++ more) vocabulary bound = suitesBelow text vocabulary bound := by
  fun_induction suitesBelow text vocabulary bound with
  | case1 => rw [suitesBelow]
  | case2 pos call hit ih =>
    have bounded := boundAfterSuite_le text pos
    rw [suitesBelow, Call.at?_append_left more closed le, hit]
    dsimp only
    rw [boundAfterSuite_append_left more le, ih (by omega)]
  | case3 pos miss ih =>
    rw [suitesBelow, Call.at?_append_left more closed le, miss]
    exact ih (by omega)

theorem locationOf_append_left {test : Call} {stop : Nat}
    (ends : Bracket.find text test.start (Text.byte '(') (Text.byte ')') .forward = some stop) :
    locationOf (text ++ more) vocabulary test = locationOf text vocabulary test := by
  have distinct : Text.byte '(' ≠ Text.byte ')' := by decide
  obtain ⟨after, inside, -⟩ := (Bracket.find_forward_iff distinct).mp ends
  simp only [locationOf, argumentsEnd, ends, Bracket.find_forward_append_left more distinct ends,
    Option.getD_some, suitesBelow_append_left more closed (show test.start ≤ text.size by omega),
    assertionNames_append_left more closed inside]

/-- More bytes after a text do not change the place of a caret in it. -/
theorem locate_append_left {caret : Nat} (context : (contextStart text caret).isSome)
    (ends : ∀ p, FindsTest text vocabulary caret p →
      (Bracket.find text p (Text.byte '(') (Text.byte ')') .forward).isSome) :
    locate (text ++ more) vocabulary caret = locate text vocabulary caret := by
  obtain ⟨start, context⟩ := Option.isSome_iff_exists.mp context
  have inside : start + 1 ≤ text.size := by
    obtain ⟨before, -, block⟩ := contextStart_eq_some_iff.mp context
    have := (Array.getElem?_eq_some_iff.mp (brace_of_braceAround block)).1
    omega
  have nearest : lastBelow (text ++ more) vocabulary .test (start + 1) = _ :=
    lastBelow_append_left more closed inside
  simp only [locate, context, contextStart_append_left more context, nearest]
  cases found : lastBelow text vocabulary .test (start + 1) with
  | none => rfl
  | some test =>
    obtain ⟨stop, closes⟩ :=
      Option.isSome_iff_exists.mp (ends test.start (findsTest_of_lastBelow context found))
    exact locationOf_append_left more closed closes

end

/-- When the block around a caret is found in a text, the test that is found for it, if any, has its
arguments closed in the text, and so has each call its name, then the place of the caret is the same
whatever follows the text. -/
theorem locate_bytesOf_append (t s : String) (vocabulary : Vocabulary) (caret : Nat)
    (context : (contextStart (Text.bytesOf t) caret).isSome)
    (ends : ∀ p, FindsTest (Text.bytesOf t) vocabulary caret p →
      (Bracket.find (Text.bytesOf t) p (Text.byte '(') (Text.byte ')') .forward).isSome)
    (closed : Call.AllClosed (Text.bytesOf t) vocabulary) :
    locate (Text.bytesOf (t ++ s)) vocabulary caret = locate (Text.bytesOf t) vocabulary caret := by
  rw [Text.bytesOf_append]
  exact locate_append_left (Text.bytesOf s) closed context ends

/-- A file while its first suite is being written. -/
def unfinished : String :=
  "describe('A', () => \x7b it('t', () => \x7b matchSnapshot('s'); \x7d);"

/-- Neither the snapshot comparison nor the suite and its bracket that come later concern `t`. -/
theorem locate_append_of_unfinished :
    locate (Text.bytesOf (unfinished ++ " matchSnapshot('r'); \x7d); describe('B\\', f('"))
        .builtIn 45 = locate (Text.bytesOf unfinished) .builtIn 45 ∧
      locate (Text.bytesOf unfinished) .builtIn 45 =
        { testName := some "t", folders := ["A"], snapshotNames := ["s", "t"] } := by
  have context : contextStart (Text.bytesOf unfinished) 45 = some 35 := by decide +kernel
  have size : (Text.bytesOf unfinished).size = 61 := by decide +kernel
  have ends : ∀ p, FindsTest (Text.bytesOf unfinished) .builtIn 45 p →
      (Bracket.find (Text.bytesOf unfinished) p (Text.byte '(') (Text.byte ')') .forward).isSome := by
    rintro p ⟨start, context', le, hit, -⟩
    rw [context] at context'
    cases context'
    have known : ∀ p ≤ 35, (Call.at? (Text.bytesOf unfinished) .builtIn .test p).isSome →
        (Bracket.find (Text.bytesOf unfinished) p (Text.byte '(') (Text.byte ')')
          .forward).isSome := by
      decide +kernel
    exact known p le hit
  have closed : Call.AllClosed (Text.bytesOf unfinished) .builtIn := by
    intro kind pos call hit
    have inside : pos < 61 := size ▸ (Array.getElem?_eq_some_iff.mp (quote_of_at? hit).1).1
    have known : ∀ kind ∈ [CallKind.test, .suite, .assertion], ∀ pos < 61,
        ∀ call ∈ Call.at? (Text.bytesOf unfinished) .builtIn kind pos, call.stop < 61 := by
      decide +kernel
    rw [size]
    exact known kind (by cases kind <;> decide) pos inside call hit
  exact ⟨locate_bytesOf_append _ _ _ _ (by rw [context]; rfl) ends closed, by decide +kernel⟩

/-- A test that is not closed takes over a snapshot comparison that comes later. -/
example :
    (locate (Text.bytesOf "it('t', () => \x7b go(); \x7d") .builtIn 15).snapshotNames = ["t"] ∧
      (locate (Text.bytesOf "it('t', () => \x7b go(); \x7d matchSnapshot('s')") .builtIn
        15).snapshotNames = ["s", "t"] := by
  decide +kernel

end Locator

end SnapshotPreview

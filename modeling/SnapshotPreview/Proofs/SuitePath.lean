import Mathlib.Data.List.Basic
import SnapshotPreview.Locator
import SnapshotPreview.Proofs.Nesting

/-!
# The path of suites to a test

Looking back from a test, the search jumps from every suite call to the brace of the block that
the call stands in. What it leaves out can be said without the search: a suite call is passed over
exactly when a later one, still before the test, stands in a block that began before it
(`folders_eq`). From this it follows which suites are never lost and when a suite that does not
enclose the test gets into the path.
-/

namespace SnapshotPreview.Locator

/-! ## Calls -/

/-- A call begins at a single quote. -/
theorem quote_of_at? {text : Array UInt8} {vocabulary : Vocabulary} {kind : CallKind} {pos : Nat}
    {call : Call} (hit : Call.at? text vocabulary kind pos = some call) :
    text[pos]? = some (Text.byte '\x27') ∧ call.start = pos := by
  unfold Call.at? at hit
  split at hit
  · rename_i known
    obtain ⟨ident, -, opens⟩ := List.any_eq_true.mp known
    unfold Call.opensAt at opens
    cases hit
    exact ⟨by simpa using (Bool.and_eq_true_iff.mp opens).1, rfl⟩
  · cases hit

/-- The last call below a bound, if there is one. -/
theorem lastBelow_eq_some_iff {text : Array UInt8} {vocabulary : Vocabulary} {kind : CallKind}
    {bound : Nat} {call : Call} :
    lastBelow text vocabulary kind bound = some call ↔
      call.start < bound ∧ Call.at? text vocabulary kind call.start = some call ∧
        ∀ later, call.start < later → later < bound →
          Call.at? text vocabulary kind later = none := by
  induction bound with
  | zero => simp [lastBelow]
  | succ bound ih =>
    unfold lastBelow
    cases hit : Call.at? text vocabulary kind bound with
    | some other =>
      have startsHere := (quote_of_at? hit).2
      constructor
      · intro same
        cases same
        exact ⟨by omega, by rw [startsHere, hit], fun later low high => absurd low (by omega)⟩
      · rintro ⟨low, found, last⟩
        by_cases here : call.start = bound
        · rw [here, hit] at found
          exact found
        · rw [last bound (by omega) (by omega)] at hit
          cases hit
    | none =>
      dsimp only
      rw [ih]
      constructor
      · rintro ⟨low, found, last⟩
        refine ⟨by omega, found, fun later above below => ?_⟩
        by_cases here : later = bound
        · rw [here, hit]
        · exact last later above (by omega)
      · rintro ⟨low, found, last⟩
        have elsewhere : call.start ≠ bound := by
          intro here
          rw [here, hit] at found
          cases found
        exact ⟨by omega, found, fun later above below => last later above (by omega)⟩

theorem lastBelow_eq_none_iff {text : Array UInt8} {vocabulary : Vocabulary} {kind : CallKind}
    {bound : Nat} :
    lastBelow text vocabulary kind bound = none ↔
      ∀ q < bound, Call.at? text vocabulary kind q = none := by
  induction bound with
  | zero => simp [lastBelow]
  | succ bound ih =>
    unfold lastBelow
    cases hit : Call.at? text vocabulary kind bound with
    | some call => exact iff_of_false nofun fun none => by simp [none bound (by omega)] at hit
    | none =>
      dsimp only
      rw [ih]
      constructor
      · intro none q below
        rcases Nat.lt_succ_iff_lt_or_eq.mp below with before | rfl
        · exact none q before
        · exact hit
      · intro none q below
        exact none q (by omega)

/-! ## The test that is found -/

/-- The last test call at or before the start of the block around the caret has its name at `p`. -/
def FindsTest (text : Array UInt8) (vocabulary : Vocabulary) (caret p : Nat) : Prop :=
  ∃ start, contextStart text caret = some start ∧ p ≤ start ∧
    (Call.at? text vocabulary .test p).isSome ∧
    ∀ later ≤ start, p < later → Call.at? text vocabulary .test later = none

theorem locate_of_lastBelow {text : Array UInt8} {vocabulary : Vocabulary} {caret start : Nat}
    {test : Call} (context : contextStart text caret = some start)
    (nearest : lastBelow text vocabulary .test (start + 1) = some test) :
    locate text vocabulary caret = locationOf text vocabulary test := by
  simp only [locate, context, nearest]

theorem locate_of_findsTest {text : Array UInt8} {vocabulary : Vocabulary} {caret p : Nat}
    (found : FindsTest text vocabulary caret p) :
    ∃ test, Call.at? text vocabulary .test p = some test ∧ test.start = p ∧
      locate text vocabulary caret = locationOf text vocabulary test := by
  obtain ⟨start, context, le, hit, last⟩ := found
  obtain ⟨test, hit⟩ := Option.isSome_iff_exists.mp hit
  have startsHere := (quote_of_at? hit).2
  refine ⟨test, hit, startsHere, ?_⟩
  have nearest : lastBelow text vocabulary .test (start + 1) = some test := by
    rw [lastBelow_eq_some_iff, startsHere]
    exact ⟨by omega, hit, fun later above below => last later (by omega) above⟩
  exact locate_of_lastBelow context nearest

theorem findsTest_of_lastBelow {text : Array UInt8} {vocabulary : Vocabulary} {caret start : Nat}
    {test : Call} (context : contextStart text caret = some start)
    (nearest : lastBelow text vocabulary .test (start + 1) = some test) :
    FindsTest text vocabulary caret test.start := by
  obtain ⟨low, hit, last⟩ := lastBelow_eq_some_iff.mp nearest
  exact ⟨start, context, by omega, by rw [hit]; rfl,
    fun later below above => last later above (by omega)⟩

/-- A test is named exactly when one is found. -/
theorem testName_isSome_iff (text : Array UInt8) (vocabulary : Vocabulary) (caret : Nat) :
    (locate text vocabulary caret).testName.isSome ↔ ∃ p, FindsTest text vocabulary caret p := by
  constructor
  · intro named
    unfold locate at named
    split at named
    · cases named
    · rename_i start context
      split at named
      · cases named
      · rename_i test nearest
        exact ⟨test.start, findsTest_of_lastBelow context nearest⟩
  · rintro ⟨p, found⟩
    obtain ⟨test, -, -, located⟩ := locate_of_findsTest found
    rw [located]
    rfl

/-! ## The suites that the search stops at -/

/-- The name of the suite call whose name begins at a position. -/
def suiteName? (text : Array UInt8) (vocabulary : Vocabulary) (q : Nat) : Option String :=
  (Call.at? text vocabulary .suite q).map Call.name

/-- The opening brace of the block in which a position stands. -/
def braceAround (text : Array UInt8) (q : Nat) : Option Nat :=
  Bracket.find text q (Text.byte '\x7b') (Text.byte '\x7d') .backward

theorem braces_distinct : Text.byte '\x7b' ≠ Text.byte '\x7d' := by decide

/-- A later suite call below the bound stands in a block that began before `q`. -/
def IsPassed (text : Array UInt8) (vocabulary : Vocabulary) (bound q : Nat) : Prop :=
  ∃ later < bound, q < later ∧ (suiteName? text vocabulary later).isSome ∧
    ∃ brace ∈ braceAround text later, brace < q

instance (text : Array UInt8) (vocabulary : Vocabulary) (bound q : Nat) :
    Decidable (IsPassed text vocabulary bound q) :=
  inferInstanceAs (Decidable (∃ later < bound, q < later ∧
    (suiteName? text vocabulary later).isSome ∧ ∃ brace ∈ braceAround text later, brace < q))

/-- The name of a suite call that is not passed over. -/
def keptName? (text : Array UInt8) (vocabulary : Vocabulary) (bound q : Nat) : Option String :=
  if IsPassed text vocabulary bound q then none else suiteName? text vocabulary q

/-- The names of the suite calls below a bound that are not passed over, from the outside in. -/
def pathBelow (text : Array UInt8) (vocabulary : Vocabulary) (bound : Nat) : List String :=
  (List.range bound).filterMap (keptName? text vocabulary bound)

section
variable {text : Array UInt8} {vocabulary : Vocabulary}

/-- No suite call begins at a brace. -/
theorem suiteName?_brace (vocabulary : Vocabulary) {q : Nat} (brace : text[q]? = some (Text.byte '\x7b')) :
    suiteName? text vocabulary q = none := by
  unfold suiteName?
  cases hit : Call.at? text vocabulary .suite q with
  | none => rfl
  | some call =>
    rw [(quote_of_at? hit).1] at brace
    exact absurd (Option.some.inj brace) (by decide)

theorem brace_of_braceAround {q brace : Nat} (found : braceAround text q = some brace) :
    text[brace]? = some (Text.byte '\x7b') :=
  Bracket.opening_of_find_backward braces_distinct found

theorem boundAfterSuite_eq (q : Nat) : boundAfterSuite text q = (braceAround text q).getD q := rfl

theorem filterMap_range_cut {α : Type} {m n : Nat} (le : m ≤ n) {f g : Nat → Option α}
    (low : ∀ q < m, f q = g q) (high : ∀ q, m ≤ q → q < n → f q = none) :
    (List.range n).filterMap f = (List.range m).filterMap g := by
  induction n with
  | zero =>
    rw [Nat.le_zero.mp le]
    rfl
  | succ n ih =>
    by_cases whole : m = n + 1
    · rw [whole]
      exact List.filterMap_congr (fun q inside => low q (by rw [whole]; exact List.mem_range.mp inside))
    · have cut := ih (by omega) (fun q above below => high q above (by omega))
      rw [List.range_succ, List.filterMap_append, cut]
      simp [high n (by omega) (by omega)]

/-- One more position changes nothing unless a suite call begins there. -/
theorem pathBelow_succ_of_none {q : Nat} (noSuite : suiteName? text vocabulary q = none) :
    pathBelow text vocabulary (q + 1) = pathBelow text vocabulary q := by
  refine filterMap_range_cut (by omega) ?_ ?_
  · intro r below
    have same : IsPassed text vocabulary (q + 1) r ↔ IsPassed text vocabulary q r := by
      constructor
      · rintro ⟨later, bound, after, named, brace⟩
        have elsewhere : later ≠ q := by
          rintro rfl
          rw [noSuite] at named
          cases named
        exact ⟨later, by omega, after, named, brace⟩
      · rintro ⟨later, bound, rest⟩
        exact ⟨later, by omega, rest⟩
    simp only [keptName?, same]
  · intro r above below
    have here : r = q := by omega
    subst here
    simp [keptName?, noSuite]

/-- What stands before the block of a suite call is passed over by calls before that block only. -/
theorem isPassed_below_block {q r : Nat} (below : r < boundAfterSuite text q) :
    IsPassed text vocabulary (q + 1) r ↔ IsPassed text vocabulary (boundAfterSuite text q) r := by
  have le := boundAfterSuite_le text q
  constructor
  · rintro ⟨later, bound, after, named, brace, found, begins⟩
    refine ⟨later, ?_, after, named, brace, found, begins⟩
    rw [boundAfterSuite_eq] at below ⊢
    cases block : braceAround text q with
    | none =>
      have elsewhere : later ≠ q := by
        rintro rfl
        rw [block] at found
        cases found
      rw [Option.getD_none]
      omega
    | some outer =>
      rw [block, Option.getD_some] at below
      rw [Option.getD_some]
      by_contra inside
      -- Neither the call itself nor one within its block stands in a block that began before `r`.
      by_cases here : later = q
      · rw [here, block] at found
        cases found
        omega
      · by_cases atBrace : later = outer
        · rw [atBrace, suiteName?_brace vocabulary (brace_of_braceAround block)] at named
          cases named
        · have nested := Bracket.nested_of_find_backward braces_distinct (show later < q by omega)
            block (by omega) found
          omega
  · rintro ⟨later, bound, rest⟩
    exact ⟨later, by omega, rest⟩

/-- Within the block of a suite call nothing before it is kept. -/
theorem keptName?_within_block {q : Nat} (isSuite : (suiteName? text vocabulary q).isSome) {r : Nat}
    (inside : boundAfterSuite text q ≤ r) (before : r < q) :
    keptName? text vocabulary (q + 1) r = none := by
  rw [boundAfterSuite_eq] at inside
  cases block : braceAround text q with
  | none =>
    rw [block, Option.getD_none] at inside
    omega
  | some outer =>
    rw [block, Option.getD_some] at inside
    by_cases atBrace : r = outer
    · have noSuite := suiteName?_brace vocabulary (brace_of_braceAround block)
      simp [keptName?, atBrace, noSuite]
    · have passed : IsPassed text vocabulary (q + 1) r :=
        ⟨q, by omega, before, isSuite, outer, block, by omega⟩
      simp [keptName?, passed]

/-- A suite call is kept, and of the calls before it those that begin before its block. -/
theorem pathBelow_succ_of_some {q : Nat} {name : String}
    (named : suiteName? text vocabulary q = some name) :
    pathBelow text vocabulary (q + 1) =
      pathBelow text vocabulary (boundAfterSuite text q) ++ [name] := by
  have kept : keptName? text vocabulary (q + 1) q = some name := by
    have notPassed : ¬ IsPassed text vocabulary (q + 1) q := by
      rintro ⟨later, bound, after, -⟩
      omega
    simp [keptName?, notPassed, named]
  have before : (List.range q).filterMap (keptName? text vocabulary (q + 1)) =
      pathBelow text vocabulary (boundAfterSuite text q) := by
    refine filterMap_range_cut (boundAfterSuite_le text q) ?_ ?_
    · intro r below
      simp only [keptName?, isPassed_below_block below]
    · intro r inside before
      exact keptName?_within_block (by rw [named]; rfl) inside before
  rw [pathBelow, List.range_succ, List.filterMap_append, before]
  simp [kept]

/-- The search finds, from the inside out, the suite calls that are not passed over. -/
theorem suitesBelow_eq (bound : Nat) :
    suitesBelow text vocabulary bound = (pathBelow text vocabulary bound).reverse := by
  fun_induction suitesBelow text vocabulary bound with
  | case1 => rfl
  | case2 q call hit ih =>
    have named : suiteName? text vocabulary q = some call.name := by rw [suiteName?, hit]; rfl
    rw [pathBelow_succ_of_some named, List.reverse_append, ih]
    rfl
  | case3 q miss ih =>
    have noSuite : suiteName? text vocabulary q = none := by rw [suiteName?, miss]; rfl
    rw [pathBelow_succ_of_none noSuite, ih]

/-- The folders of a test are the names of the suite calls before it that are not passed over. -/
theorem folders_eq {caret p : Nat} (found : FindsTest text vocabulary caret p) :
    (locate text vocabulary caret).folders = pathBelow text vocabulary p := by
  obtain ⟨test, -, startsHere, located⟩ := locate_of_findsTest found
  rw [located, locationOf, startsHere, suitesBelow_eq, List.reverse_reverse]

theorem mem_folders_iff {caret p : Nat} (found : FindsTest text vocabulary caret p) (name : String) :
    name ∈ (locate text vocabulary caret).folders ↔
      ∃ q < p, suiteName? text vocabulary q = some name ∧ ¬ IsPassed text vocabulary p q := by
  rw [folders_eq found, pathBelow, List.mem_filterMap]
  constructor
  · rintro ⟨q, inside, kept⟩
    unfold keptName? at kept
    split at kept
    · cases kept
    · rename_i notPassed
      exact ⟨q, List.mem_range.mp inside, kept, notPassed⟩
  · rintro ⟨q, below, named, notPassed⟩
    exact ⟨q, List.mem_range.mpr below, by simp [keptName?, notPassed, named]⟩

end

/-! ## Suites around the test -/

/-- A suite call at `q`, before `p`, whose body opens with a brace that is not yet closed at `p`. -/
def IsOpenAround (text : Array UInt8) (vocabulary : Vocabulary) (p q : Nat) : Prop :=
  (suiteName? text vocabulary q).isSome ∧ ∃ brace < p, q < brace ∧
    text[brace]? = some (Text.byte '\x7b') ∧
    (∀ close ∈ Bracket.find text (brace + 1) (Text.byte '\x7b') (Text.byte '\x7d') .forward,
      p < close) ∧
    ∀ r < brace, q < r → suiteName? text vocabulary r = none

instance (text : Array UInt8) (vocabulary : Vocabulary) (p q : Nat) :
    Decidable (IsOpenAround text vocabulary p q) :=
  inferInstanceAs (Decidable ((suiteName? text vocabulary q).isSome ∧ ∃ brace < p, q < brace ∧
    text[brace]? = some (Text.byte '\x7b') ∧
    (∀ close ∈ Bracket.find text (brace + 1) (Text.byte '\x7b') (Text.byte '\x7d') .forward,
      p < close) ∧
    ∀ r < brace, q < r → suiteName? text vocabulary r = none))

/-- A test beside a suite, both within another suite. -/
def neighbours : Array UInt8 :=
  Text.bytesOf "describe('A', () => \x7b describe('B', () => \x7b\x7d); it('t', () => \x7b go(); \x7d); \x7d);"

theorem neighbours_findsTest : FindsTest neighbours .builtIn 62 50 := ⟨60, by decide +kernel⟩

section
variable {text : Array UInt8} {vocabulary : Vocabulary}

/-- A block that began before an open brace would have that brace closed within it. -/
theorem not_isPassed_of_isOpenAround {p q : Nat} (around : IsOpenAround text vocabulary p q) :
    ¬ IsPassed text vocabulary p q := by
  rintro ⟨later, bound, after, isSuite, block, found, begins⟩
  obtain ⟨-, brace, below, opens, isBrace, unclosed, noneBetween⟩ := around
  have beyond : brace < later := by
    by_contra within
    by_cases atBrace : later = brace
    · rw [atBrace, suiteName?_brace vocabulary isBrace] at isSuite
      cases isSuite
    · rw [noneBetween later (by omega) after] at isSuite
      cases isSuite
  -- Within the block the depth never falls below its end, so it has to fall again after `brace`.
  obtain ⟨-, inside, -, above⟩ := (Bracket.find_backward_iff braces_distinct).mp found
  have atBrace := above brace (by omega) (by omega)
  have here : brace < text.size := by omega
  have step := Bracket.depth_succ braces_distinct here
  have rises : Bracket.weight (Text.byte '\x7b') (Text.byte '\x7d') text[brace] = 1 := by
    rw [Array.getElem?_eq_getElem here] at isBrace
    rw [Option.some.inj isBrace, Bracket.weight_closing]
  obtain ⟨close, le, closes⟩ := Bracket.exists_find_forward braces_distinct
    (show brace + 1 ≤ later by omega) inside (by omega)
  have := unclosed close closes
  omega

theorem filterMap_sublist {α β : Type} {f g : α → Option β} (agree : ∀ a b, f a = some b → g a = some b)
    (l : List α) : (l.filterMap f).Sublist (l.filterMap g) := by
  induction l with
  | nil => exact .slnil
  | cons a l ih =>
    cases first : f a with
    | none =>
      rw [List.filterMap_cons_none first]
      exact ih.trans ((List.sublist_cons_self a l).filterMap g)
    | some b =>
      rw [List.filterMap_cons_some first, List.filterMap_cons_some (agree a b first)]
      exact ih.cons_cons b

/-- The names of all suites whose braces are open around the test are in its folders, in their
order, whatever else the text contains. -/
theorem open_suites_sublist_folders {caret p : Nat} (found : FindsTest text vocabulary caret p) :
    (((List.range p).filter fun q => IsOpenAround text vocabulary p q).filterMap
      (suiteName? text vocabulary)).Sublist (locate text vocabulary caret).folders := by
  rw [folders_eq found, List.filterMap_filter]
  refine filterMap_sublist ?_ (List.range p)
  intro q name named
  split at named
  · rename_i around
    have notPassed := not_isPassed_of_isOpenAround (of_decide_eq_true around)
    rw [keptName?, if_neg notPassed, named]
  · cases named

/-- `A` is open around the test, and `B` is closed before it. -/
theorem open_suite_of_neighbours :
    FindsTest neighbours .builtIn 62 50 ∧
      ["A"].Sublist (locate neighbours .builtIn 62).folders := by
  have around := open_suites_sublist_folders neighbours_findsTest
  have outer : ((List.range 50).filter fun q => IsOpenAround neighbours .builtIn 50 q).filterMap
      (suiteName? neighbours .builtIn) = ["A"] := by decide +kernel
  rw [outer] at around
  exact ⟨neighbours_findsTest, around⟩

/-! ## Suites beside the test -/

/-- The arguments of the call whose name begins at `q` are not yet closed at `p`. -/
def Encloses (text : Array UInt8) (p q : Nat) : Prop :=
  ∀ stop ∈ Bracket.find text q (Text.byte '(') (Text.byte ')') .forward, p < stop

instance (text : Array UInt8) (p q : Nat) : Decidable (Encloses text p q) :=
  inferInstanceAs (Decidable
    (∀ stop ∈ Bracket.find text q (Text.byte '(') (Text.byte ')') .forward, p < stop))

/-- Every folder is the name of a suite call that encloses the test, exactly when each suite call
before the test that does not enclose it is passed over or shares its name with one that does. -/
theorem folders_enclose_iff {caret p : Nat} (found : FindsTest text vocabulary caret p) :
    (∀ name ∈ (locate text vocabulary caret).folders,
        ∃ q < p, suiteName? text vocabulary q = some name ∧ Encloses text p q) ↔
      ∀ q < p, ∀ name ∈ suiteName? text vocabulary q, ¬ Encloses text p q →
        IsPassed text vocabulary p q ∨
          ∃ r < p, suiteName? text vocabulary r = some name ∧ Encloses text p r := by
  constructor
  · intro enclosed q below name named closed
    by_cases passed : IsPassed text vocabulary p q
    · exact .inl passed
    · exact .inr (enclosed name ((mem_folders_iff found name).mpr ⟨q, below, named, passed⟩))
  · intro condition name inside
    obtain ⟨q, below, named, notPassed⟩ := (mem_folders_iff found name).mp inside
    by_cases encloses : Encloses text p q
    · exact ⟨q, below, named, encloses⟩
    · rcases condition q below name named encloses with passed | other
      · exact absurd passed notPassed
      · exact other

end

/-- A test in a suite that has another suite beside it. -/
def nested : Array UInt8 :=
  Text.bytesOf "describe('A', () => \x7b describe('B', f); describe('C', () => \x7b it('t', () => \x7b\x7d); \x7d); \x7d);"

/-- `B` is passed over, as `C` stands in the block of `A` too. -/
theorem folders_enclose_of_nested :
    FindsTest nested .builtIn 76 65 ∧
      ∀ name ∈ (locate nested .builtIn 76).folders,
        ∃ q < 65, suiteName? nested .builtIn q = some name ∧ Encloses nested 65 q := by
  have found : FindsTest nested .builtIn 76 65 := ⟨75, by decide +kernel⟩
  exact ⟨found, (folders_enclose_iff found).mpr (by decide +kernel)⟩

/-- A suite that is closed before the test gets into its folders when no suite call stands between
them: `B` is a folder of the test beside it. -/
theorem closed_suite_of_neighbours :
    FindsTest neighbours .builtIn 62 50 ∧
      "B" ∈ (locate neighbours .builtIn 62).folders ∧
      ∀ q < 50, suiteName? neighbours .builtIn q = some "B" → ¬ Encloses neighbours 50 q :=
  ⟨neighbours_findsTest, by decide +kernel, by decide +kernel⟩

end SnapshotPreview.Locator

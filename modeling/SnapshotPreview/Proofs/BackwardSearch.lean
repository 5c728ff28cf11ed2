import Mathlib.Data.List.Induction
import SnapshotPreview.Proofs.SuitePath

/-!
# The search as nearest calls

What the way back through a text comes to can be said call by call, without the way: the test is the
last one before the block around the caret, each suite the last one before the block of the next,
and the snapshot comparisons are all those within the arguments of the test. These conditions leave
one place only, the one that the search gives (`locate_eq_iff`).
-/

namespace SnapshotPreview.Locator

/-! ## What is searched for -/

/-- A call of one kind begins below a bound, and no other one between it and the bound. -/
def IsLastCall (text : Array UInt8) (vocabulary : Vocabulary) (kind : CallKind) (bound : Nat)
    (call : Call) : Prop :=
  call.start < bound ∧ Call.at? text vocabulary kind call.start = some call ∧
    ∀ later, call.start < later → later < bound → Call.at? text vocabulary kind later = none

/-- Where the search for a suite begins: before the block of the next suite further in, or at the
bound if there is none. -/
def boundBefore (text : Array UInt8) (bound : Nat) (next : Option Call) : Nat :=
  (next.map fun call => boundAfterSuite text call.start).getD bound

/-- The suites that lead to a bound, from the outside in. -/
structure LeadTo (text : Array UInt8) (vocabulary : Vocabulary) (bound : Nat) (suites : List Call) :
    Prop where
  increasing : suites.Pairwise fun outer inner => outer.start < inner.start
  nearest : ∀ i suite, suites[i]? = some suite →
    IsLastCall text vocabulary .suite (boundBefore text bound suites[i + 1]?) suite
  complete : ∀ q < boundBefore text bound suites[0]?, Call.at? text vocabulary .suite q = none

/-- The snapshot comparisons whose name begins from `start` to `stop`, the last one first. -/
structure ComparesBack (text : Array UInt8) (vocabulary : Vocabulary) (start stop : Nat)
    (comparisons : List Call) : Prop where
  decreasing : comparisons.Pairwise fun late early => early.start < late.start
  mem_iff : ∀ call, call ∈ comparisons ↔ start ≤ call.start ∧ call.start ≤ stop ∧
    Call.at? text vocabulary .assertion call.start = some call

/-- No test begins at or before the start of the block around the caret, or there is no such
block. -/
def HasNoTest (text : Array UInt8) (vocabulary : Vocabulary) (caret : Nat) : Prop :=
  ∀ start ∈ contextStart text caret, ∀ q ≤ start, Call.at? text vocabulary .test q = none

/-- The place that the nearest calls make up. -/
inductive IsNearest (text : Array UInt8) (vocabulary : Vocabulary) (caret : Nat) : Location → Prop
  | nowhere (noTest : HasNoTest text vocabulary caret) : IsNearest text vocabulary caret .nowhere
  | inTest (start : Nat) (test : Call) (suites comparisons : List Call)
      (context : contextStart text caret = some start)
      (last : IsLastCall text vocabulary .test (start + 1) test)
      (leads : LeadTo text vocabulary test.start suites)
      (compares : ComparesBack text vocabulary test.start (argumentsEnd text test.start)
        comparisons) :
      IsNearest text vocabulary caret
        { testName := some test.name
          folders := suites.map Call.name
          snapshotNames := comparisons.map Call.name ++ [test.name] }

section
variable {text : Array UInt8} {vocabulary : Vocabulary}

/-! ## Suites -/

theorem boundBefore_concat {bound i : Nat} {outer : List Call} {inner : Call}
    (le : i ≤ outer.length) :
    boundBefore text bound (outer ++ [inner])[i]? =
      boundBefore text (boundAfterSuite text inner.start) outer[i]? := by
  rcases Nat.lt_or_eq_of_le le with lt | rfl
  · rw [List.getElem?_append_left lt, List.getElem?_eq_getElem lt]
    rfl
  · rw [List.getElem?_concat_length, List.getElem?_eq_none (Nat.le_refl _)]
    rfl

theorem LeadTo.start_lt {bound : Nat} {suites : List Call}
    (leads : LeadTo text vocabulary bound suites) {suite : Call} (isIn : suite ∈ suites) :
    suite.start < bound := by
  obtain rfl | ⟨outer, inner, rfl⟩ := List.eq_nil_or_concat suites
  · cases isIn
  rw [List.concat_eq_append] at *
  have innermost : inner.start < bound := by
    have last := (leads.nearest outer.length inner List.getElem?_concat_length).1
    rwa [List.getElem?_eq_none (by simp)] at last
  rcases List.mem_append.mp isIn with before | here
  · have := (List.pairwise_append.mp leads.increasing).2.2 suite before inner List.mem_cons_self
    omega
  · rw [List.mem_singleton.mp here]
    exact innermost

/-- The innermost of the suites that lead to a bound is the last before it, and the others lead to
the block of that one. -/
theorem leadTo_concat_iff {bound : Nat} {outer : List Call} {inner : Call} :
    LeadTo text vocabulary bound (outer ++ [inner]) ↔
      IsLastCall text vocabulary .suite bound inner ∧
        LeadTo text vocabulary (boundAfterSuite text inner.start) outer := by
  constructor
  · intro leads
    refine ⟨?_, (List.pairwise_append.mp leads.increasing).1, fun i suite here => ?_, ?_⟩
    · have last := leads.nearest outer.length inner List.getElem?_concat_length
      rwa [List.getElem?_eq_none (by simp)] at last
    · have inside := (List.getElem?_eq_some_iff.mp here).1
      rw [← boundBefore_concat (by omega)]
      exact leads.nearest i suite (by rw [List.getElem?_append_left inside, here])
    · rw [← boundBefore_concat (Nat.zero_le _)]
      exact leads.complete
  · rintro ⟨last, leads⟩
    refine ⟨?_, fun i suite here => ?_, ?_⟩
    · refine List.pairwise_append.mpr ⟨leads.increasing, List.pairwise_singleton _ _, ?_⟩
      intro suite isOuter _ isInner
      have := leads.start_lt isOuter
      have := boundAfterSuite_le text inner.start
      rw [List.mem_singleton.mp isInner]
      omega
    · rcases Nat.lt_or_ge i outer.length with inside | beyond
      · rw [List.getElem?_append_left inside] at here
        rw [boundBefore_concat (by omega)]
        exact leads.nearest i suite here
      · have inside := (List.getElem?_eq_some_iff.mp here).1
        rw [List.length_append, List.length_singleton] at inside
        obtain rfl : i = outer.length := by omega
        rw [List.getElem?_concat_length] at here
        cases here
        rw [List.getElem?_eq_none (by simp)]
        exact last
    · rw [boundBefore_concat (Nat.zero_le _)]
      exact leads.complete

theorem leadTo_nil_iff {bound : Nat} :
    LeadTo text vocabulary bound [] ↔ ∀ q < bound, Call.at? text vocabulary .suite q = none :=
  ⟨LeadTo.complete, fun none => ⟨.nil, nofun, none⟩⟩

/-- Where no suite begins below a bound, the search finds none. -/
theorem suitesBelow_eq_nil {bound : Nat}
    (none : ∀ q < bound, Call.at? text vocabulary .suite q = none) :
    suitesBelow text vocabulary bound = [] := by
  induction bound with
  | zero => rw [suitesBelow]
  | succ bound ih =>
    rw [suitesBelow, none bound (by omega)]
    exact ih fun q below => none q (by omega)

/-- The search finds the last suite below a bound and goes on before its block. -/
theorem suitesBelow_of_isLastCall {bound : Nat} {suite : Call}
    (last : IsLastCall text vocabulary .suite bound suite) :
    suitesBelow text vocabulary bound =
      suite.name :: suitesBelow text vocabulary (boundAfterSuite text suite.start) := by
  obtain ⟨below, hit, later⟩ := last
  induction bound with
  | zero => omega
  | succ bound ih =>
    by_cases here : suite.start = bound
    · rw [suitesBelow, ← here, hit]
    · rw [suitesBelow, later bound (by omega) (by omega)]
      exact ih (by omega) fun q after before => later q after (by omega)

/-- Exactly the suites found lead to the bound. -/
theorem suitesBelow_of_leadTo {bound : Nat} {suites : List Call}
    (leads : LeadTo text vocabulary bound suites) :
    suitesBelow text vocabulary bound = (suites.map Call.name).reverse := by
  induction suites using List.reverseRecOn generalizing bound with
  | nil => exact suitesBelow_eq_nil (leadTo_nil_iff.mp leads)
  | append_singleton outer inner ih =>
    obtain ⟨last, leads⟩ := leadTo_concat_iff.mp leads
    rw [suitesBelow_of_isLastCall last, ih leads]
    simp

theorem exists_leadTo (text : Array UInt8) (vocabulary : Vocabulary) (bound : Nat) :
    ∃ suites, LeadTo text vocabulary bound suites := by
  induction bound using Nat.strongRecOn with
  | ind bound ih =>
    cases nearest : lastBelow text vocabulary .suite bound with
    | none => exact ⟨[], leadTo_nil_iff.mpr (lastBelow_eq_none_iff.mp nearest)⟩
    | some suite =>
      have last : IsLastCall text vocabulary .suite bound suite := lastBelow_eq_some_iff.mp nearest
      have le := boundAfterSuite_le text suite.start
      obtain ⟨outer, leads⟩ := ih (boundAfterSuite text suite.start) (by have := last.1; omega)
      exact ⟨outer ++ [suite], leadTo_concat_iff.mpr ⟨last, leads⟩⟩

/-! ## Snapshot comparisons -/

/-- The calls whose names the search lists. -/
theorem exists_comparesBack (text : Array UInt8) (vocabulary : Vocabulary) (start stop : Nat) :
    ∃ comparisons, ComparesBack text vocabulary start stop comparisons ∧
      assertionNames text vocabulary start stop = comparisons.map Call.name := by
  refine ⟨(List.range' start (min (stop + 1) text.size - start)).reverse.filterMap
    (Call.at? text vocabulary .assertion), ⟨?_, fun call => ?_⟩, ?_⟩
  · rw [List.pairwise_filterMap, List.pairwise_reverse]
    refine (List.pairwise_lt_range' 1 Nat.one_pos).imp fun before late isLate early isEarly => ?_
    rw [(quote_of_at? isEarly).2, (quote_of_at? isLate).2]
    exact before
  · simp only [List.mem_filterMap, List.mem_reverse, List.mem_range'_1]
    constructor
    · rintro ⟨q, bounds, hit⟩
      rw [(quote_of_at? hit).2]
      exact ⟨by omega, by omega, hit⟩
    · rintro ⟨low, high, hit⟩
      have inside := (Array.getElem?_eq_some_iff.mp (quote_of_at? hit).1).1
      exact ⟨call.start, by omega, hit⟩
  · rw [assertionNames, List.map_filterMap]

/-- There is one list of them only. -/
theorem comparesBack_unique {start stop : Nat} {comparisons others : List Call}
    (compares : ComparesBack text vocabulary start stop comparisons)
    (compares' : ComparesBack text vocabulary start stop others) : comparisons = others := by
  have nodup {calls : List Call}
      (decreasing : calls.Pairwise fun late early => early.start < late.start) : calls.Nodup :=
    decreasing.imp fun before same => by simp [same] at before
  have perm : comparisons.Perm others := by
    rw [List.perm_ext_iff_of_nodup (nodup compares.decreasing) (nodup compares'.decreasing)]
    intro call
    rw [compares.mem_iff, compares'.mem_iff]
  exact perm.eq_of_pairwise (fun _ _ _ _ first second => by omega) compares.decreasing
    compares'.decreasing

/-! ## The place of the test -/

theorem locate_of_hasNoTest {caret : Nat} (noTest : HasNoTest text vocabulary caret) :
    locate text vocabulary caret = .nowhere := by
  unfold locate
  split
  · rfl
  · rename_i start context
    have none : lastBelow text vocabulary .test (start + 1) = none :=
      lastBelow_eq_none_iff.mpr fun q below => noTest start context q (by omega)
    rw [none]

/-- The place that the search gives is made up of the nearest calls. -/
theorem isNearest_locate (text : Array UInt8) (vocabulary : Vocabulary) (caret : Nat) :
    IsNearest text vocabulary caret (locate text vocabulary caret) := by
  by_cases noTest : HasNoTest text vocabulary caret
  · rw [locate_of_hasNoTest noTest]
    exact .nowhere noTest
  · obtain ⟨start, context, test, last⟩ : ∃ start, contextStart text caret = some start ∧
        ∃ test, IsLastCall text vocabulary .test (start + 1) test := by
      simp only [HasNoTest, not_forall] at noTest
      obtain ⟨start, context, q, le, hit⟩ := noTest
      cases nearest : lastBelow text vocabulary .test (start + 1) with
      | none => exact absurd (lastBelow_eq_none_iff.mp nearest q (by omega)) hit
      | some test => exact ⟨start, context, test, lastBelow_eq_some_iff.mp nearest⟩
    obtain ⟨suites, leads⟩ := exists_leadTo text vocabulary test.start
    obtain ⟨comparisons, compares, names⟩ :=
      exists_comparesBack text vocabulary test.start (argumentsEnd text test.start)
    rw [locate_of_lastBelow context (lastBelow_eq_some_iff.mpr last), locationOf, suitesBelow_of_leadTo leads,
      List.reverse_reverse, names]
    exact .inTest start test suites comparisons context last leads compares

/-- No other place is. -/
theorem locate_of_isNearest {caret : Nat} {l : Location}
    (nearest : IsNearest text vocabulary caret l) : locate text vocabulary caret = l := by
  cases nearest with
  | nowhere noTest => exact locate_of_hasNoTest noTest
  | inTest start test suites comparisons context last leads compares =>
    obtain ⟨others, compares', names⟩ :=
      exists_comparesBack text vocabulary test.start (argumentsEnd text test.start)
    rw [locate_of_lastBelow context (lastBelow_eq_some_iff.mpr last), locationOf, suitesBelow_of_leadTo leads,
      List.reverse_reverse, names, comparesBack_unique compares' compares]

/-- A place is the one that the search gives exactly when it is made up of the nearest calls. It is
no place exactly when no test begins before the block around the caret. -/
theorem locate_eq_iff (text : Array UInt8) (vocabulary : Vocabulary) (caret : Nat) :
    (locate text vocabulary caret = .nowhere ↔ HasNoTest text vocabulary caret) ∧
      ∀ l, locate text vocabulary caret = l ↔ IsNearest text vocabulary caret l := by
  refine ⟨⟨fun empty => ?_, locate_of_hasNoTest⟩, fun l => ⟨?_, locate_of_isNearest⟩⟩
  · have nearest := isNearest_locate text vocabulary caret
    rw [empty] at nearest
    generalize isNowhere : Location.nowhere = l at nearest
    cases nearest with
    | nowhere noTest => exact noTest
    | inTest => cases isNowhere
  · rintro rfl
    exact isNearest_locate text vocabulary caret

end

end SnapshotPreview.Locator

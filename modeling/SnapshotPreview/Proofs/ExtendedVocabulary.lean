import Mathlib.Data.List.Induction
import SnapshotPreview.Call
import SnapshotPreview.Config

/-!
# Vocabularies that are extended

However a vocabulary is extended, its lists only get longer: the identifiers in a list stay where
they are, and those that were not known follow, each once, in the order in which they first came
(`identifiers_extendAll`, `addNew_eq`). It makes no difference how the identifiers are spread over
the additions. As a call is read from the text alone once some known identifier opens it, no call is
lost (`at?_of_subset`).
-/

namespace SnapshotPreview

namespace Vocabulary

/-! ## One list -/

theorem addNew_append (known first second : List String) :
    addNew known (first ++ second) = addNew (addNew known first) second := List.foldl_append

theorem addNew_concat (known extra : List String) (ident : String) :
    addNew known (extra ++ [ident]) =
      if ident ∈ addNew known extra then addNew known extra else addNew known extra ++ [ident] :=
  addNew_append known extra [ident]

theorem mem_removeAll_iff {ident : String} {extra known : List String} :
    ident ∈ extra.removeAll known ↔ ident ∈ extra ∧ ident ∉ known := by
  simp [List.removeAll]

theorem removeAll_singleton (ident : String) (known : List String) :
    [ident].removeAll known = if ident ∈ known then [] else [ident] := by
  by_cases isIn : ident ∈ known
  · simp [List.removeAll, isIn]
  · simp [List.removeAll, isIn]

/-- Behind the known identifiers stand the new ones, in the order in which they first came. -/
theorem addNew_eq (known extra : List String) :
    addNew known extra = known ++ (extra.removeAll known).eraseDups := by
  induction extra using List.reverseRecOn with
  | nil => simp [addNew, List.removeAll]
  | append_singleton extra ident ih =>
    have isIn : ident ∈ addNew known extra ↔ ident ∈ known ∨ ident ∈ extra.removeAll known := by
      rw [ih, List.mem_append, List.mem_eraseDups]
    have split : (extra ++ [ident]).removeAll known =
        extra.removeAll known ++ [ident].removeAll known := List.filter_append _ _
    rw [addNew_concat, split, List.eraseDups_append, ← List.append_assoc, ← ih, removeAll_singleton]
    by_cases old : ident ∈ known
    · rw [if_pos (isIn.mpr (.inl old)), if_pos old]
      simp [List.removeAll]
    · rw [if_neg old, removeAll_singleton]
      by_cases came : ident ∈ extra.removeAll known
      · rw [if_pos (isIn.mpr (.inr came)), if_pos came]
        simp
      · rw [if_neg fun listed => (isIn.mp listed).elim old came, if_neg came]
        simp [List.eraseDups_cons]

theorem mem_addNew_iff {ident : String} {known extra : List String} :
    ident ∈ addNew known extra ↔ ident ∈ known ∨ ident ∈ extra := by
  rw [addNew_eq, List.mem_append, List.mem_eraseDups, mem_removeAll_iff]
  by_cases old : ident ∈ known
  · simp [old]
  · simp [old]

theorem addNew_of_known {known extra : List String} (old : ∀ ident ∈ extra, ident ∈ known) :
    addNew known extra = known := by
  have nothing : extra.removeAll known = [] := by
    rw [List.eq_nil_iff_forall_not_mem]
    intro ident isNew
    obtain ⟨isExtra, new⟩ := mem_removeAll_iff.mp isNew
    exact new (old ident isExtra)
  rw [addNew_eq, nothing, List.eraseDups_nil, List.append_nil]

/-! ## Additions -/

/-- Adds identifiers, first those of the first addition. -/
def extendAll (v : Vocabulary) (additions : List (CallKind × List String)) : Vocabulary :=
  additions.foldl (fun v (kind, extra) => v.extend kind extra) v

/-- All identifiers that additions have for a kind, one addition after the other. -/
def extras (kind : CallKind) (additions : List (CallKind × List String)) : List String :=
  (additions.filter fun addition => addition.1 = kind).flatMap Prod.snd

theorem identifiers_extend (v : Vocabulary) (kind k : CallKind) (extra : List String) :
    (v.extend kind extra).identifiers k =
      if kind = k then addNew (v.identifiers k) extra else v.identifiers k := by
  cases kind <;> cases k <;> rfl

theorem eq_of_identifiers {v w : Vocabulary}
    (same : ∀ kind, v.identifiers kind = w.identifiers kind) : v = w := by
  obtain ⟨tests, suites, assertions⟩ := v
  obtain ⟨tests', suites', assertions'⟩ := w
  obtain rfl : tests = tests' := same .test
  obtain rfl : suites = suites' := same .suite
  obtain rfl : assertions = assertions' := same .assertion
  rfl

/-- The additions of one kind come to a single one. -/
theorem identifiers_extendAll (v : Vocabulary) (additions : List (CallKind × List String))
    (kind : CallKind) :
    (v.extendAll additions).identifiers kind =
      addNew (v.identifiers kind) (extras kind additions) := by
  induction additions generalizing v with
  | nil => rfl
  | cons addition additions ih =>
    obtain ⟨k, extra⟩ := addition
    have step : v.extendAll ((k, extra) :: additions) = (v.extend k extra).extendAll additions := rfl
    rw [step, ih, identifiers_extend]
    by_cases same : k = kind
    · have front : extras kind ((k, extra) :: additions) = extra ++ extras kind additions := by
        simp [extras, same]
      rw [if_pos same, front, addNew_append]
    · have others : extras kind ((k, extra) :: additions) = extras kind additions := by
        simp [extras, same]
      rw [if_neg same, others]

theorem extendAll_eq (v : Vocabulary) (additions : List (CallKind × List String)) :
    v.extendAll additions =
      ((v.extend .test (extras .test additions)).extend .suite (extras .suite additions)).extend
        .assertion (extras .assertion additions) := by
  refine eq_of_identifiers fun kind => ?_
  rw [identifiers_extendAll, identifiers_extend, identifiers_extend, identifiers_extend]
  cases kind <;> rfl

/-- What has been added once is known. -/
theorem extend_extendAll_of_mem (v : Vocabulary) {additions : List (CallKind × List String)}
    {kind : CallKind} {extra : List String} (made : (kind, extra) ∈ additions) :
    (v.extendAll additions).extend kind extra = v.extendAll additions := by
  refine eq_of_identifiers fun k => ?_
  rw [identifiers_extend]
  split
  · rename_i same
    subst same
    refine addNew_of_known fun ident isExtra => ?_
    rw [identifiers_extendAll, mem_addNew_iff]
    have among : ident ∈ extras kind additions :=
      List.mem_flatMap.mpr ⟨(kind, extra), List.mem_filter.mpr ⟨made, by simp⟩, isExtra⟩
    exact .inr among
  · rfl

/-! ## Calls -/

/-- A call is found whichever identifier opens it, and so also under further ones. -/
theorem at?_of_subset {v w : Vocabulary} {text : Array UInt8} {kind : CallKind} {pos : Nat}
    {call : Call} (more : ∀ ident ∈ v.identifiers kind, ident ∈ w.identifiers kind)
    (found : Call.at? text v kind pos = some call) : Call.at? text w kind pos = some call := by
  unfold Call.at? at found ⊢
  split at found
  · rename_i opens
    obtain ⟨ident, known, opensHere⟩ := List.any_eq_true.mp opens
    rw [if_pos (List.any_eq_true.mpr ⟨ident, more ident known, opensHere⟩)]
    exact found
  · cases found

theorem at?_extendAll {v : Vocabulary} (additions : List (CallKind × List String))
    {text : Array UInt8} {kind : CallKind} {pos : Nat} {call : Call}
    (found : Call.at? text v kind pos = some call) :
    Call.at? text (v.extendAll additions) kind pos = some call := by
  refine at?_of_subset (fun ident known => ?_) found
  rw [identifiers_extendAll, mem_addNew_iff]
  exact .inl known

/-- What a configuration adds to the identifiers that are always known. -/
def additionsOf (c : Config) : List (CallKind × List String) :=
  [(.test, c.calls.tests), (.suite, c.calls.suites), (.assertion, c.calls.assertions)]

theorem vocabulary_eq (c : Config) : c.vocabulary = builtIn.extendAll (additionsOf c) := rfl

/-- A vocabulary that is extended keeps each list at the front of the longer one and gets the new
identifiers behind it, in the order in which they first came. It is the same as when all identifiers of
a kind are added at once, and making an addition again changes nothing. A call that is found under a
vocabulary is found as the same call under the extended one, in particular a call with an identifier that
is always known under the vocabulary of any configuration. -/
theorem extendAll_only_adds (v : Vocabulary) (additions : List (CallKind × List String)) :
    (∀ kind, (v.extendAll additions).identifiers kind =
      v.identifiers kind ++
        ((extras kind additions).removeAll (v.identifiers kind)).eraseDups) ∧
    (∀ kind, (v.extendAll additions).identifiers kind =
      (v.extend kind (extras kind additions)).identifiers kind) ∧
    v.extendAll additions =
      ((v.extend .test (extras .test additions)).extend .suite (extras .suite additions)).extend
        .assertion (extras .assertion additions) ∧
    (∀ kind extra, (kind, extra) ∈ additions →
      (v.extendAll additions).extend kind extra = v.extendAll additions) ∧
    (∀ text kind pos call, Call.at? text v kind pos = some call →
      Call.at? text (v.extendAll additions) kind pos = some call) ∧
    ∀ (c : Config) text kind pos call, Call.at? text .builtIn kind pos = some call →
      Call.at? text c.vocabulary kind pos = some call := by
  refine ⟨fun kind => ?_, fun kind => ?_, extendAll_eq v additions, fun kind extra made => ?_,
    fun text kind pos call found => ?_, fun c text kind pos call found => ?_⟩
  · rw [identifiers_extendAll, addNew_eq]
  · rw [identifiers_extendAll, identifiers_extend, if_pos rfl]
  · exact extend_extendAll_of_mem v made
  · exact at?_extendAll additions found
  · rw [vocabulary_eq]
    exact at?_extendAll (additionsOf c) found

/-- Additions with identifiers that are known, or that come again in the same or a later one. -/
def repetitive : List (CallKind × List String) :=
  [(.test, ["test", "it", "test"]), (.suite, ["context"]), (.test, ["bench", "test"])]

theorem extendAll_repetitive :
    (builtIn.extendAll repetitive).tests =
        ["it", "itMountsAnd", "itMountsContainerAnd", "test", "bench"] ∧
      (builtIn.extendAll repetitive).extend .test ["bench", "test"] = builtIn.extendAll repetitive ∧
      Call.at? (Text.bytesOf "it('x')") (builtIn.extendAll repetitive) .test 3 =
        some ⟨.test, "x", 3, 5⟩ ∧
      Call.at? (Text.bytesOf "it('x')") { calls := ⟨["t", "it"], [], []⟩ : Config }.vocabulary
        .test 3 = some ⟨.test, "x", 3, 5⟩ := by
  obtain ⟨lists, -, -, again, keeps, keepsOfConfig⟩ := extendAll_only_adds builtIn repetitive
  have found : Call.at? (Text.bytesOf "it('x')") builtIn .test 3 = some ⟨.test, "x", 3, 5⟩ := by
    decide +kernel
  refine ⟨?_, ?_, ?_, ?_⟩
  · exact (lists .test).trans (by decide +kernel)
  · exact again .test ["bench", "test"] (by decide)
  · exact keeps _ _ _ _ found
  · exact keepsOfConfig _ _ _ _ _ found

end Vocabulary

end SnapshotPreview

import Mathlib.Data.List.Basic

/-!
# Runs

A run gives one input after the other to something that has a state and answers each input. What
it remembers at some point is mostly the last thing of one kind that happened before that point, if
nothing has cleared it since (`IsLatest`).
-/

namespace SnapshotPreview.Run

section
variable {State Input Answer : Type} (step : State → Input → Answer × State)

/-- The state after a run. -/
def after (s : State) (inputs : List Input) : State := inputs.foldl (fun s i => (step s i).2) s

/-- The answers of a run, one for each input. -/
def answers : State → List Input → List Answer
  | _, [] => []
  | s, i :: rest => (step s i).1 :: answers (step s i).2 rest

theorem length_answers (s : State) (inputs : List Input) :
    (answers step s inputs).length = inputs.length := by
  induction inputs generalizing s with
  | nil => rfl
  | cons i rest ih => rw [answers, List.length_cons, ih, List.length_cons]

/-- An input is answered in the state after the inputs before it. -/
theorem getElem?_answers (s : State) (inputs : List Input) (k : Nat) :
    (answers step s inputs)[k]? =
      inputs[k]?.map fun i => (step (after step s (inputs.take k)) i).1 := by
  induction inputs generalizing s k with
  | nil => rfl
  | cons i rest ih =>
    cases k with
    | zero => rfl
    | succ k =>
      rw [answers, List.getElem?_cons_succ, ih]
      rfl

theorem after_take_succ (s : State) {inputs : List Input} {k : Nat} {i : Input}
    (here : inputs[k]? = some i) :
    after step s (inputs.take (k + 1)) = (step (after step s (inputs.take k)) i).2 := by
  rw [after, List.take_add_one, here, List.foldl_append]
  rfl

theorem after_take_succ_of_none (s : State) {inputs : List Input} {k : Nat}
    (past : inputs[k]? = none) :
    after step s (inputs.take (k + 1)) = after step s (inputs.take k) := by
  have le := List.getElem?_eq_none_iff.mp past
  rw [List.take_of_length_le le, List.take_of_length_le (by omega)]

/-- What holds at the start and is kept by every input holds at every point of a run. -/
theorem after_take_induction {holds : Nat → State → Prop} {s : State} {inputs : List Input}
    (start : holds 0 s)
    (keeps : ∀ k i, inputs[k]? = some i → holds k (after step s (inputs.take k)) →
      holds (k + 1) (step (after step s (inputs.take k)) i).2) {k : Nat}
    (le : k ≤ inputs.length) : holds k (after step s (inputs.take k)) := by
  induction k with
  | zero => exact start
  | succ k ih =>
    have here := List.getElem?_eq_getElem (show k < inputs.length by omega)
    rw [after_take_succ step s here]
    exact keeps k _ here (ih (by omega))

end

/-! ## What happened last -/

section
variable {α : Type} {set : Nat → Option α} {cleared : Nat → Prop} {k : Nat} {x : α}

/-- Before `k`, the last of the points that set a value sets `x`, and no point after it clears
it. -/
def IsLatest (set : Nat → Option α) (cleared : Nat → Prop) (k : Nat) (x : α) : Prop :=
  ∃ j < k, set j = some x ∧ ∀ i < k, j < i → set i = none ∧ ¬ cleared i

theorem not_isLatest_zero : ¬ IsLatest set cleared 0 x := by
  rintro ⟨j, before, -⟩
  exact absurd before (Nat.not_lt_zero j)

theorem isLatest_succ :
    IsLatest set cleared (k + 1) x ↔
      set k = some x ∨ (set k = none ∧ ¬ cleared k ∧ IsLatest set cleared k x) := by
  constructor
  · rintro ⟨j, before, sets, later⟩
    by_cases last : j = k
    · exact .inl (last ▸ sets)
    · obtain ⟨setsNone, kept⟩ := later k (by omega) (by omega)
      exact .inr ⟨setsNone, kept, j, by omega, sets, fun i bound => later i (by omega)⟩
  · rintro (sets | ⟨setsNone, kept, j, before, sets, later⟩)
    · exact ⟨k, by omega, sets, fun i bound after => absurd after (by omega)⟩
    · refine ⟨j, by omega, sets, fun i bound after => ?_⟩
      by_cases last : i = k
      · rw [last]
        exact ⟨setsNone, kept⟩
      · exact later i (by omega) after

end

/-! ## What is kept -/

section
variable {α : Type} {loads : Nat → α → Prop} {forgets : Nat → Prop} {k : Nat} {x : α}

/-- Some point before `k` loads `x`, and no point after it forgets it. -/
def LoadedSince (loads : Nat → α → Prop) (forgets : Nat → Prop) (k : Nat) (x : α) : Prop :=
  ∃ j < k, loads j x ∧ ∀ i < k, j < i → ¬ forgets i

theorem loadedSince_succ :
    LoadedSince loads forgets (k + 1) x ↔
      loads k x ∨ (¬ forgets k ∧ LoadedSince loads forgets k x) := by
  constructor
  · rintro ⟨j, before, loaded, later⟩
    by_cases last : j = k
    · exact .inl (last ▸ loaded)
    · exact .inr ⟨later k (by omega) (by omega), j, by omega, loaded,
        fun i bound => later i (by omega)⟩
  · rintro (loaded | ⟨kept, j, before, loaded, later⟩)
    · exact ⟨k, by omega, loaded, fun i bound after => absurd after (by omega)⟩
    · refine ⟨j, by omega, loaded, fun i bound after => ?_⟩
      by_cases last : i = k
      · rw [last]
        exact kept
      · exact later i (by omega) after

variable {kept : Nat → Option α}
  (next : ∀ k x, kept (k + 1) = some x ↔
    (¬ forgets k ∧ kept k = some x) ∨ (kept k = none ∧ loads k x))
include next

/-- What is kept was loaded and has not been forgotten. -/
theorem loadedSince_of_kept (start : kept 0 = none) (keeps : kept k = some x) :
    LoadedSince loads forgets k x := by
  induction k with
  | zero =>
    rw [start] at keeps
    cases keeps
  | succ k ih =>
    rcases (next k x).mp keeps with ⟨stays, keeps⟩ | ⟨-, loaded⟩
    · exact loadedSince_succ.mpr (.inr ⟨stays, ih keeps⟩)
    · exact loadedSince_succ.mpr (.inl loaded)

/-- What was loaded and has not been forgotten is kept, unless something else was kept already. -/
theorem kept_of_loadedSince (apart : ∀ k x, loads k x → ¬ forgets k)
    (loaded : LoadedSince loads forgets k x) : (kept k).isSome := by
  induction k with
  | zero =>
    obtain ⟨j, before, -⟩ := loaded
    exact absurd before (Nat.not_lt_zero j)
  | succ k ih =>
    rcases loadedSince_succ.mp loaded with loaded | ⟨stays, loaded⟩
    · cases keeps : kept k with
      | none => exact Option.isSome_iff_exists.mpr ⟨x, (next k x).mpr (.inr ⟨keeps, loaded⟩)⟩
      | some y =>
        exact Option.isSome_iff_exists.mpr ⟨y, (next k y).mpr (.inl ⟨apart k x loaded, keeps⟩)⟩
    · obtain ⟨y, keeps⟩ := Option.isSome_iff_exists.mp (ih loaded)
      exact Option.isSome_iff_exists.mpr ⟨y, (next k y).mpr (.inl ⟨stays, keeps⟩)⟩

end

/-! ## What stays the same -/

section
variable {α : Type} (value : Nat → α) {changes forgets : Nat → Prop} {j k : Nat}

/-- Between a load at `j` and a later point up to which nothing is forgotten, a value stays the same
if each change of it would have had something forgotten. -/
theorem unchanged_of_announced (steps : ∀ i, ¬ changes i → value (i + 1) = value i)
    (before : j ≤ k) (here : ¬ changes j)
    (announced : ∀ i, j < i → i < k → changes i → ∃ m, i < m ∧ m < k ∧ forgets m)
    (kept : ∀ i < k, j < i → ¬ forgets i) : value k = value j := by
  have stays : ∀ i, j ≤ i → i < k → ¬ changes i := by
    intro i after bound changed
    rcases Nat.lt_or_eq_of_le after with later | rfl
    · obtain ⟨m, late, early, forgotten⟩ := announced i later bound changed
      exact kept m early (by omega) forgotten
    · exact here changed
  clear announced kept
  induction k with
  | zero => rw [Nat.le_zero.mp before]
  | succ k ih =>
    by_cases last : j = k + 1
    · rw [last]
    · rw [steps k (stays k (by omega) (by omega))]
      exact ih (by omega) fun i after bound => stays i after (by omega)

end

end SnapshotPreview.Run

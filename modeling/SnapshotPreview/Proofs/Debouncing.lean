import SnapshotPreview.Debouncer
import SnapshotPreview.Proofs.Run

/-!
# Bursts along a run

A debouncer is told of events and asked whether a burst is over, in any order and at any times.
What it keeps is the last event, as long as no burst has been reported over since (`tracks_run`).
So it answers yes once for each burst, and until the window has passed the time that it gives as
remaining leads to the first moment at which it would (`ready_along_run`). After that moment
nothing remains, so that the same sum leads past it (`ready_before_remaining`).
-/

namespace SnapshotPreview.Debouncer

/-! ## One question -/

section
variable (d : Debouncer) (now : Nat)

theorem ready_iff : (d.ready now).1 ↔ ∃ since, d.pending = some since ∧ d.window ≤ now - since := by
  unfold Debouncer.ready
  cases d.pending with
  | none => simp
  | some since => by_cases isOver : d.window ≤ now - since <;> simp [isOver]

theorem ready_snd :
    (d.ready now).2 = { d with pending := if (d.ready now).1 then none else d.pending } := by
  obtain ⟨window, pending⟩ := d
  unfold Debouncer.ready
  cases pending with
  | none => rfl
  | some since =>
    dsimp only
    by_cases isOver : window ≤ now - since <;> simp [isOver]

theorem remaining_eq_none_iff : d.remaining now = none ↔ d.pending = none := Option.map_eq_none_iff

theorem remaining_eq_some_iff (left : Nat) :
    d.remaining now = some left ↔
      ∃ since, d.pending = some since ∧ d.window - (now - since) = left := Option.map_eq_some_iff

theorem remaining_eq_zero_iff : d.remaining now = some 0 ↔ (d.ready now).1 := by
  rw [remaining_eq_some_iff, ready_iff]
  simp only [Nat.sub_eq_zero_iff_le]

end

section
variable {d : Debouncer} {since now left : Nat}

/-- After the time that remains, the burst is over. -/
theorem ready_add_remaining (later : since ≤ now) (pending : d.pending = some since)
    (remains : d.remaining now = some left) : (d.ready (now + left)).1 := by
  obtain ⟨since', pending', rfl⟩ := (remaining_eq_some_iff d now left).mp remains
  obtain rfl : since' = since := Option.some.inj (pending'.symm.trans pending)
  exact (ready_iff d _).mpr ⟨since', pending, by omega⟩

/-- Before the time that remains has passed, the burst is not over, unless the window had passed
already when it was asked for. -/
theorem not_ready_before_iff (later : since ≤ now) (pending : d.pending = some since)
    (remains : d.remaining now = some left) :
    (∀ time, since ≤ time → time < now + left → (d.ready time).1 = false) ↔
      now ≤ since + d.window := by
  obtain ⟨since', pending', rfl⟩ := (remaining_eq_some_iff d now left).mp remains
  obtain rfl : since' = since := Option.some.inj (pending'.symm.trans pending)
  constructor
  · intro early
    by_contra passed
    have isOver := (ready_iff d (since' + d.window)).mpr ⟨since', pending, by omega⟩
    rw [early (since' + d.window) (by omega) (by omega)] at isOver
    cases isOver
  · intro within time after before
    rw [Bool.eq_false_iff, ne_eq, ready_iff]
    rintro ⟨since'', pending'', isOver⟩
    obtain rfl : since'' = since' := Option.some.inj (pending''.symm.trans pending)
    omega

end

/-! ## Runs -/

/-- What a debouncer is told or asked. -/
inductive Call where
  | trigger (now : Nat)
  | ready (now : Nat)
deriving DecidableEq, Repr

/-- The time of an event. -/
def Call.event? : Call → Option Nat
  | trigger now => some now
  | ready _ => none

/-- Does what is asked. An event has no answer. -/
def serve (d : Debouncer) : Call → Option Bool × Debouncer
  | .trigger now => (none, d.trigger now)
  | .ready now => (some (d.ready now).1, (d.ready now).2)

/-- The answers of a new debouncer to a run of calls. -/
def answers (window : Nat) (calls : List Call) : List (Option Bool) :=
  Run.answers serve { window } calls

/-- A new debouncer after a run of calls. -/
def after (window : Nat) (calls : List Call) : Debouncer := Run.after serve { window } calls

/-- The last event before the call at `k` came at the given time, and no answer since has been
yes. -/
def IsPending (window : Nat) (calls : List Call) (k since : Nat) : Prop :=
  Run.IsLatest (fun i => calls[i]?.bind Call.event?)
    (fun i => (answers window calls)[i]? = some (some true)) k since

section
variable {window : Nat} {calls : List Call} {k : Nat}

/-- The state of a debouncer before the call at `k`. -/
structure Tracks (window : Nat) (calls : List Call) (k : Nat) (d : Debouncer) : Prop where
  window_eq : d.window = window
  pending_iff : ∀ since, d.pending = some since ↔ IsPending window calls k since

theorem answer_at (window : Nat) {call : Call} (here : calls[k]? = some call) :
    (answers window calls)[k]? = some (serve (after window (calls.take k)) call).1 := by
  rw [answers, Run.getElem?_answers, here]
  rfl

theorem isPending_succ (window : Nat) {call : Call} (here : calls[k]? = some call) (since : Nat) :
    IsPending window calls (k + 1) since ↔
      call.event? = some since ∨
        (call.event? = none ∧ (serve (after window (calls.take k)) call).1 ≠ some true ∧
          IsPending window calls k since) := by
  rw [IsPending, Run.isLatest_succ, answer_at window here, here, IsPending]
  simp only [Option.bind_some, Option.some.injEq, ne_eq]

/-- An event becomes the pending one, and a question is answered yes at most once for it. -/
theorem tracks_serve {call : Call} (here : calls[k]? = some call)
    (tracks : Tracks window calls k (after window (calls.take k))) :
    Tracks window calls (k + 1) (serve (after window (calls.take k)) call).2 := by
  have pendingIff (since : Nat) := isPending_succ window here since
  generalize after window (calls.take k) = d at tracks pendingIff ⊢
  cases call with
  | trigger now =>
    refine ⟨tracks.window_eq, fun since => ?_⟩
    rw [pendingIff]
    simp [serve, trigger, Call.event?]
  | ready now =>
    have served : (serve d (.ready now)).2 =
        { d with pending := if (d.ready now).1 then none else d.pending } := ready_snd d now
    rw [served]
    refine ⟨tracks.window_eq, fun since => ?_⟩
    rw [pendingIff, ← tracks.pending_iff]
    by_cases isOver : (d.ready now).1 <;> simp [serve, Call.event?, isOver]

theorem tracks_run (window : Nat) {calls : List Call} {k : Nat} (le : k ≤ calls.length) :
    Tracks window calls k (after window (calls.take k)) := by
  refine Run.after_take_induction serve ?_ (fun k call here => tracks_serve here) le
  refine ⟨rfl, fun since => ⟨fun pending => ?_, fun latest => ?_⟩⟩
  · cases pending
  · exact absurd latest Run.not_isLatest_zero

theorem tracks_after (window : Nat) (calls : List Call) :
    Tracks window calls calls.length (after window calls) := by
  have tracks := tracks_run window (Nat.le_refl calls.length)
  rwa [List.take_length] at tracks

theorem answer_ready (window : Nat) {now : Nat} (here : calls[k]? = some (.ready now)) :
    ∃ isOver, (answers window calls)[k]? = some (some isOver) ∧
      (isOver = true ↔ ∃ since, IsPending window calls k since ∧ window ≤ now - since) := by
  have before : k < calls.length := (List.getElem?_eq_some_iff.mp here).1
  have tracks := tracks_run window (Nat.le_of_lt before)
  refine ⟨_, answer_at window here, ?_⟩
  rw [ready_iff, tracks.window_eq]
  simp only [tracks.pending_iff]

/-- Behind an event, something is pending until an answer is yes. -/
theorem exists_isPending {j now : Nat} (before : j < k) (event : calls[j]? = some (.trigger now))
    (quiet : ∀ i, j < i → i < k → (answers window calls)[i]? ≠ some (some true)) :
    ∃ since, IsPending window calls k since := by
  induction k with
  | zero => exact absurd before (Nat.not_lt_zero j)
  | succ k ih =>
    by_cases last : j = k
    · exact ⟨now, Run.isLatest_succ.mpr (.inl (by rw [← last, event]; rfl))⟩
    · obtain ⟨since, pending⟩ := ih (by omega) fun i late early => quiet i late (by omega)
      cases next : calls[k]?.bind Call.event? with
      | some time => exact ⟨time, Run.isLatest_succ.mpr (.inl next)⟩
      | none =>
        exact ⟨since, Run.isLatest_succ.mpr (.inr ⟨next, quiet k (by omega) (by omega), pending⟩)⟩

theorem exists_ready_of_answer {isOver : Bool}
    (answered : (answers window calls)[k]? = some (some isOver)) :
    ∃ now, calls[k]? = some (.ready now) := by
  rw [answers, Run.getElem?_answers, Option.map_eq_some_iff] at answered
  obtain ⟨call, here, same⟩ := answered
  cases call with
  | trigger now => cases same
  | ready now => exact ⟨now, here⟩

/-- Between two answers that are yes there has been an event. -/
theorem exists_event_between {i : Nat} (before : i < k)
    (first : (answers window calls)[i]? = some (some true))
    (second : (answers window calls)[k]? = some (some true)) :
    ∃ j now, i < j ∧ j < k ∧ calls[j]? = some (.trigger now) := by
  obtain ⟨now, here⟩ := exists_ready_of_answer second
  obtain ⟨isOver, answered, isOver_iff⟩ := answer_ready window here
  rw [second, Option.some.injEq, Option.some.injEq] at answered
  obtain ⟨since, ⟨j, early, event, quiet⟩, -⟩ := isOver_iff.mp answered.symm
  obtain ⟨call, called, isEvent⟩ := Option.bind_eq_some_iff.mp event
  have late : i < j := by
    by_contra notLate
    rcases Nat.lt_or_eq_of_le (Nat.le_of_not_lt notLate) with after | same
    · exact (quiet i before after).2 first
    · -- The event itself has no answer.
      obtain ⟨time, asked⟩ := exists_ready_of_answer first
      rw [same, asked] at called
      cases called
      cases isEvent
  cases call with
  | trigger time => exact ⟨j, time, late, early, called⟩
  | ready time => cases isEvent

end

/-- In a run, a question is answered yes exactly when an event has come since the last yes and the
window has passed since the last event. So two such answers have an event between them, and an event
stays pending until there is one. There is a time that remains exactly when an event is pending, and
it is zero exactly when the answer would be yes. From the event on it leads to a moment at which the
answer is yes, and that is the first such moment exactly when the window has not been exceeded. -/
theorem ready_along_run (window : Nat) (calls : List Call) :
    (∀ k now, calls[k]? = some (.ready now) →
      ∃ isOver, (answers window calls)[k]? = some (some isOver) ∧
        (isOver = true ↔ ∃ since, IsPending window calls k since ∧ window ≤ now - since)) ∧
    (∀ i k : Nat, i < k → (answers window calls)[i]? = some (some true) →
      (answers window calls)[k]? = some (some true) →
        ∃ j now : Nat, i < j ∧ j < k ∧ calls[j]? = some (.trigger now)) ∧
    (∀ j k now : Nat, j < k → k ≤ calls.length → calls[j]? = some (.trigger now) →
      (∀ i, j < i → i < k → (answers window calls)[i]? ≠ some (some true)) →
        (after window (calls.take k)).pending.isSome) ∧
    (∀ since, (after window calls).pending = some since ↔
      IsPending window calls calls.length since) ∧
    (∀ now, (after window calls).remaining now = none ↔ (after window calls).pending = none) ∧
    (∀ now, (after window calls).remaining now = some 0 ↔
      ((after window calls).ready now).1 = true) ∧
    (∀ since now left, (after window calls).pending = some since → since ≤ now →
      (after window calls).remaining now = some left →
        ((after window calls).ready (now + left)).1 = true ∧
        ((∀ time, since ≤ time → time < now + left →
          ((after window calls).ready time).1 = false) ↔ now ≤ since + window)) := by
  have tracks := tracks_after window calls
  refine ⟨fun k now here => answer_ready window here, fun i k before => exists_event_between before, ?_,
    tracks.pending_iff, remaining_eq_none_iff _, remaining_eq_zero_iff _, ?_⟩
  · intro j k now before le event quiet
    obtain ⟨since, pending⟩ := exists_isPending before event quiet
    rw [((tracks_run window le).pending_iff since).mpr pending]
    rfl
  · intro since now left pending later remains
    have before_iff := not_ready_before_iff later pending remains
    rw [tracks.window_eq] at before_iff
    exact ⟨ready_add_remaining later pending remains, before_iff⟩

/-- Two events, of which the second came at an earlier time, and a question. -/
def setBack : List Call := [.trigger 100, .trigger 50, .ready 60]

/-- The question comes too early, and 30 later the burst is over. -/
theorem ready_of_setBack :
    (answers 40 setBack)[2]? = some (some false) ∧
      ((after 40 setBack).ready (60 + 30)).1 = true ∧
      ∀ time, 50 ≤ time → time < 60 + 30 → ((after 40 setBack).ready time).1 = false := by
  obtain ⟨answered, -, -, -, -, -, remains⟩ := ready_along_run 40 setBack
  obtain ⟨isOver, isAnswer, isOver_iff⟩ := answered 2 60 rfl
  obtain ⟨isReady, before_iff⟩ := remains 50 60 30 rfl (by decide) rfl
  refine ⟨?_, isReady, before_iff.mpr (by decide)⟩
  cases isOver with
  | false => exact isAnswer
  | true => cases isAnswer

/-- When the window has been exceeded, the time that remains leads past the end of the burst: the
answer would have been yes before. -/
theorem ready_before_remaining :
    ¬ ∀ (window : Nat) (calls : List Call) (since now left time : Nat),
      (after window calls).pending = some since → since ≤ now →
        (after window calls).remaining now = some left → since ≤ time → time < now + left →
          ((after window calls).ready time).1 = false := by
  intro always
  have early := always 10 [.trigger 0] 0 100 0 50 rfl (by decide) rfl (by decide) (by decide)
  cases early

end SnapshotPreview.Debouncer

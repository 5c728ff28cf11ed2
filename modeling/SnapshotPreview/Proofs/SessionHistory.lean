import SnapshotPreview.Proofs.Run
import SnapshotPreview.Proofs.SuitePath
import SnapshotPreview.Session
import SnapshotPreview.Update

/-!
# What a session remembers

Along any history of carets and resets, the place that a session remembers is the one in the last
answer that was resolved, unless the session has been reset since (`tracks_run`). All places that
it answers or remembers are complete, so that there is a command for each of them.
-/

namespace SnapshotPreview

/-! ## Complete places -/

/-- A place with a test and a suite, whose last snapshot name is the name of the test. Snapshots can
be recorded anew for it in either scope. -/
def Location.IsKnown (l : Location) : Prop :=
  ∃ test, l.testName = some test ∧ l.folders ≠ [] ∧ l.snapshotNames.getLast? = some test ∧
    ∀ scope, ∃ target, Update.target scope l = .ok target

theorem Location.isComplete_iff {l : Location} :
    l.isComplete ↔ l.testName.isSome ∧ l.folders ≠ [] := by
  simp [isComplete, List.isEmpty_eq_false_iff]

theorem Update.exists_target {l : Location} {test : String} (named : l.testName = some test)
    (inSuite : l.folders ≠ []) (scope : UpdateScope) :
    ∃ target, Update.target scope l = .ok target := by
  have notEmpty : l.folders.isEmpty = false := List.isEmpty_eq_false_iff.mpr inSuite
  cases scope with
  | test => exact ⟨_, by simp [target, notEmpty, named]; rfl⟩
  | file => exact ⟨_, by simp [target, notEmpty]; rfl⟩

/-- A complete place that is found ends its snapshot names with the name of the test. -/
theorem Locator.isKnown_of_isComplete {text : Array UInt8} {vocabulary : Vocabulary} {caret : Nat}
    (complete : (locate text vocabulary caret).isComplete) :
    (locate text vocabulary caret).IsKnown := by
  obtain ⟨named, inSuite⟩ := Location.isComplete_iff.mp complete
  obtain ⟨p, found⟩ := (testName_isSome_iff text vocabulary caret).mp named
  obtain ⟨test, -, -, located⟩ := locate_of_findsTest found
  have isNamed : (locate text vocabulary caret).testName = some test.name := by rw [located]; rfl
  have endsWith : (locate text vocabulary caret).snapshotNames.getLast? = some test.name := by
    rw [located, locationOf, List.getLast?_append]
    rfl
  exact ⟨test.name, isNamed, inSuite, endsWith, Update.exists_target isNamed inSuite⟩

namespace Session

/-! ## Histories -/

/-- What is asked of a session. -/
inductive Request where
  | resolve (text : Array UInt8) (caret : Nat)
  | reset

/-- Does what is asked. A reset has no answer. -/
def serve (s : Session) : Request → Option Resolution × Session
  | .resolve text caret => (some (s.resolve text caret).1, (s.resolve text caret).2)
  | .reset => (none, s.reset)

/-- The answers of a new session to a history of requests. -/
def answers (vocabulary : Vocabulary) (requests : List Request) : List (Option Resolution) :=
  Run.answers serve { vocabulary } requests

/-- A new session after a history of requests. -/
def after (vocabulary : Vocabulary) (requests : List Request) : Session :=
  Run.after serve { vocabulary } requests

/-- The place in an answer that is resolved. -/
def resolvedBy : Option Resolution → Option Location
  | some (.resolved l) => some l
  | _ => none

/-- The most recent resolved answer before the request at `k` has the place `l`, and no reset has
come since. -/
def Remembers (vocabulary : Vocabulary) (requests : List Request) (k : Nat) (l : Location) : Prop :=
  Run.IsLatest (fun i => (answers vocabulary requests)[i]?.bind resolvedBy)
    (fun i => requests[i]? = some .reset) k l

/-! ## One request -/

section
variable {s : Session} {text : Array UInt8} {caret : Nat}

theorem resolve_of_complete (complete : (Locator.locate text s.vocabulary caret).isComplete) :
    s.resolve text caret =
      (.resolved (Locator.locate text s.vocabulary caret),
        { s with last := some (Locator.locate text s.vocabulary caret) }) := by
  simp only [resolve, complete, if_true]

theorem resolve_of_incomplete (incomplete : ¬ (Locator.locate text s.vocabulary caret).isComplete) :
    s.resolve text caret = (s.last.elim .noTest .fallback, s) := by
  simp only [resolve, incomplete]
  cases s.last <;> rfl

end

/-! ## The remembered place -/

section
variable {vocabulary : Vocabulary} {requests : List Request} {k : Nat}

/-- The state of a session before the request at `k`. -/
structure Tracks (vocabulary : Vocabulary) (requests : List Request) (k : Nat) (s : Session) :
    Prop where
  vocabulary_eq : s.vocabulary = vocabulary
  last_iff : ∀ l, s.last = some l ↔ Remembers vocabulary requests k l
  known : ∀ l ∈ s.last, l.IsKnown

theorem answer_at (vocabulary : Vocabulary) {request : Request}
    (here : requests[k]? = some request) :
    (answers vocabulary requests)[k]? =
      some (serve (after vocabulary (requests.take k)) request).1 := by
  rw [answers, Run.getElem?_answers, here]
  rfl

theorem remembers_succ (vocabulary : Vocabulary) {request : Request}
    (here : requests[k]? = some request) (l : Location) :
    Remembers vocabulary requests (k + 1) l ↔
      resolvedBy (serve (after vocabulary (requests.take k)) request).1 = some l ∨
        (resolvedBy (serve (after vocabulary (requests.take k)) request).1 = none ∧
          request ≠ .reset ∧ Remembers vocabulary requests k l) := by
  rw [Remembers, Run.isLatest_succ, answer_at vocabulary here, here, Remembers]
  simp only [Option.bind_some, Option.some.injEq, ne_eq]

/-- A request keeps the remembered place the last one that was resolved. -/
theorem tracks_serve {request : Request} (here : requests[k]? = some request)
    (tracks : Tracks vocabulary requests k (after vocabulary (requests.take k))) :
    Tracks vocabulary requests (k + 1) (serve (after vocabulary (requests.take k)) request).2 := by
  have remembered (l : Location) := remembers_succ vocabulary here l
  generalize after vocabulary (requests.take k) = s at tracks remembered ⊢
  cases request with
  | reset =>
    refine ⟨tracks.vocabulary_eq, fun l => ?_, fun l isLast => ?_⟩
    · rw [remembered]
      simp [serve, reset, resolvedBy]
    · cases isLast
  | resolve text caret =>
    by_cases complete : (Locator.locate text s.vocabulary caret).isComplete
    · rw [serve, resolve_of_complete complete] at remembered ⊢
      refine ⟨tracks.vocabulary_eq, fun l => ?_, fun l isLast => ?_⟩
      · rw [remembered]
        simp [resolvedBy]
      · cases isLast
        exact Locator.isKnown_of_isComplete complete
    · rw [serve, resolve_of_incomplete complete] at remembered ⊢
      have notResolved : resolvedBy (some (s.last.elim .noTest .fallback)) = none := by
        cases s.last <;> rfl
      refine ⟨tracks.vocabulary_eq, fun l => ?_, tracks.known⟩
      rw [remembered, tracks.last_iff]
      simp [notResolved]

theorem tracks_run (vocabulary : Vocabulary) {requests : List Request} {k : Nat}
    (le : k ≤ requests.length) :
    Tracks vocabulary requests k (after vocabulary (requests.take k)) := by
  refine Run.after_take_induction serve ?_ (fun k request here => tracks_serve here) le
  refine ⟨rfl, fun l => ⟨fun isLast => ?_, fun latest => ?_⟩, fun l isLast => ?_⟩
  · cases isLast
  · exact absurd latest Run.not_isLatest_zero
  · cases isLast

/-- What a caret is answered before the request at `k`. -/
theorem resolve_of_tracks {s : Session} (tracks : Tracks vocabulary requests k s)
    (text : Array UInt8) (caret : Nat) :
    (∀ l, (s.resolve text caret).1 = .resolved l ↔
      Locator.locate text vocabulary caret = l ∧ l.testName.isSome ∧ l.folders ≠ []) ∧
    (∀ l, (s.resolve text caret).1 = .fallback l ↔
      ¬ (Locator.locate text vocabulary caret).isComplete ∧ Remembers vocabulary requests k l) ∧
    ((s.resolve text caret).1 = .noTest ↔
      ¬ (Locator.locate text vocabulary caret).isComplete ∧
        ∀ l, ¬ Remembers vocabulary requests k l) := by
  obtain ⟨rfl, last_iff, -⟩ := tracks
  simp only [← Location.isComplete_iff, ← last_iff]
  by_cases complete : (Locator.locate text s.vocabulary caret).isComplete
  · rw [resolve_of_complete complete]
    refine ⟨fun l => ?_, by simp [complete], by simp [complete]⟩
    constructor
    · intro same
      cases same
      exact ⟨rfl, complete⟩
    · rintro ⟨rfl, -⟩
      rfl
  · rw [resolve_of_incomplete complete]
    refine ⟨fun l => ?_, ?_⟩
    · constructor
      · intro same
        cases last : s.last <;> rw [last] at same <;> cases same
      · rintro ⟨rfl, isComplete⟩
        exact absurd isComplete complete
    · cases s.last <;> simp [complete]

theorem known_of_tracks {s : Session} (tracks : Tracks vocabulary requests k s)
    {text : Array UInt8} {caret : Nat} {l : Location}
    (answered : (s.resolve text caret).1.location? = some l) : l.IsKnown := by
  by_cases complete : (Locator.locate text s.vocabulary caret).isComplete
  · rw [resolve_of_complete complete] at answered
    cases answered
    exact Locator.isKnown_of_isComplete complete
  · rw [resolve_of_incomplete complete] at answered
    apply tracks.known
    cases last : s.last with
    | none =>
      rw [last] at answered
      cases answered
    | some remembered =>
      rw [last] at answered
      exact answered

/-- A caret in a history is answered with the place around it, if that is complete, and else with
the place of the most recent resolved answer since the last reset. All places in answers and in the
memory of a session are known ones. -/
theorem answers_in_history (vocabulary : Vocabulary) (requests : List Request) :
    (answers vocabulary requests).length = requests.length ∧
    (∀ k text caret, requests[k]? = some (.resolve text caret) →
      ∃ answer, (answers vocabulary requests)[k]? = some (some answer) ∧
        (∀ l, answer = .resolved l ↔
          Locator.locate text vocabulary caret = l ∧ l.testName.isSome ∧ l.folders ≠ []) ∧
        (∀ l, answer = .fallback l ↔
          ¬ (Locator.locate text vocabulary caret).isComplete ∧ Remembers vocabulary requests k l) ∧
        (answer = .noTest ↔
          ¬ (Locator.locate text vocabulary caret).isComplete ∧
            ∀ l, ¬ Remembers vocabulary requests k l)) ∧
    (∀ answer l, some answer ∈ answers vocabulary requests → Resolution.location? answer = some l →
      l.IsKnown) ∧
    ∀ l, (after vocabulary requests).last = some l → l.IsKnown := by
  refine ⟨Run.length_answers serve _ requests, ?_, ?_, ?_⟩
  · intro k text caret here
    have before : k < requests.length := (List.getElem?_eq_some_iff.mp here).1
    have tracks := tracks_run vocabulary (Nat.le_of_lt before)
    exact ⟨_, answer_at vocabulary here, resolve_of_tracks tracks text caret⟩
  · intro answer l answered carried
    obtain ⟨k, bound, isAnswer⟩ := List.mem_iff_getElem.mp answered
    have before : k < requests.length := by
      rw [answers, Run.length_answers] at bound
      exact bound
    have here := List.getElem?_eq_getElem before
    have served := answer_at vocabulary here
    rw [List.getElem?_eq_getElem bound, isAnswer, Option.some.injEq] at served
    cases request : requests[k] with
    | reset =>
      rw [request] at served
      cases served
    | resolve text caret =>
      rw [request] at served
      cases served
      exact known_of_tracks (tracks_run vocabulary (Nat.le_of_lt before)) carried
  · intro l isLast
    have tracks := tracks_run vocabulary (Nat.le_refl requests.length)
    rw [List.take_length] at tracks
    exact tracks.known l isLast

end

/-- A caret in an empty text, after one in a test, is answered with the test. -/
theorem fallback_after_neighbours :
    [Request.resolve Locator.neighbours 62, .resolve #[] 0][1]? = some (.resolve #[] 0) ∧
      ∃ l, (answers .builtIn [.resolve Locator.neighbours 62, .resolve #[] 0])[1]? =
        some (some (.fallback l)) ∧ l.IsKnown := by
  obtain ⟨-, answered, known, -⟩ :=
    answers_in_history .builtIn [.resolve Locator.neighbours 62, .resolve #[] 0]
  obtain ⟨answer, isAnswer, -, fallback, -⟩ := answered 1 #[] 0 rfl
  have first : (answers .builtIn [.resolve Locator.neighbours 62, .resolve #[] 0])[0]? =
      some (some (.resolved ⟨some "t", ["A", "B"], ["t"]⟩)) := by decide +kernel
  have remembered : Remembers .builtIn [.resolve Locator.neighbours 62, .resolve #[] 0] 1
      ⟨some "t", ["A", "B"], ["t"]⟩ :=
    ⟨0, by omega, congrArg (·.bind resolvedBy) first, fun i bound after => by omega⟩
  have isFallback := (fallback _).mpr ⟨by decide +kernel, remembered⟩
  rw [isFallback] at isAnswer
  exact ⟨rfl, _, isAnswer, known _ _ (List.mem_of_getElem? isAnswer) rfl⟩

end Session

end SnapshotPreview

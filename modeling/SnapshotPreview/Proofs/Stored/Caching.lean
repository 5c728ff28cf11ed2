import SnapshotPreview.Preview.Stored
import SnapshotPreview.Proofs.Run
import SnapshotPreview.Proofs.Stored.Files

/-!
# Previews that keep what they have read

A preview loads what a view needs and keeps it until the file is said to have changed. Along a run
of views, edits and announcements of changes, a cache holds under a key exactly what has been loaded
and has not been forgotten since (`isSome_keptAt_iff`, `keptAt_after`).
-/

namespace SnapshotPreview

/-! ## Reading through what is kept -/

namespace Cache

section
variable {α : Type} (key : PathKey) (load : Except LoadError α) (kept : List (PathKey × α))

/-- Gives what is kept under a key. If nothing is, loads it and keeps it, unless that fails. -/
def readThrough : Except LoadError α × List (PathKey × α) :=
  match Assoc.get? key kept with
  | some x => (.ok x, kept)
  | none =>
    match load with
    | .ok x => (.ok x, Assoc.set key x kept)
    | .error e => (.error e, kept)

/-- Forgets what is kept for a file, or for all files. -/
def forget : Option String → List (PathKey × α)
  | some path => Assoc.erase (Path.steps path) kept
  | none => []

variable {key load kept}

/-- Reading adds at most what has been loaded. -/
theorem get?_readThrough (other : PathKey) (x : α) :
    Assoc.get? other (readThrough key load kept).2 = some x ↔
      Assoc.get? other kept = some x ∨
        (Assoc.get? other kept = none ∧ key = other ∧ load = .ok x) := by
  unfold readThrough
  cases here : Assoc.get? key kept with
  | some y =>
    refine ⟨.inl, ?_⟩
    rintro (old | ⟨new, rfl, -⟩)
    · exact old
    · rw [here] at new
      cases new
  | none =>
    cases load with
    | error e => simp
    | ok y =>
      dsimp only
      rw [Assoc.get?_set]
      by_cases same : other = key
      · subst same
        simp [here]
      · simp [same, Ne.symm same]

/-- What is kept is as good as loaded if it is what loading gives. -/
theorem readThrough_of_current (current : ∀ x, Assoc.get? key kept = some x → load = .ok x) :
    (readThrough key load kept).1 = load := by
  unfold readThrough
  cases here : Assoc.get? key kept with
  | some x => exact (current x here).symm
  | none => cases load <;> rfl

/-- Afterwards that is kept which has been read, unless reading has failed. -/
theorem get?_readThrough_self :
    Assoc.get? key (readThrough key load kept).2 = (readThrough key load kept).1.toOption := by
  unfold readThrough
  cases here : Assoc.get? key kept with
  | some x => exact here
  | none =>
    cases load with
    | error e => exact here
    | ok x => simp [Assoc.get?_set, Except.toOption]

/-- What is forgotten is no longer kept. -/
theorem get?_forget {named : Option String} (x : α) :
    Assoc.get? key (forget kept named) = some x ↔
      (¬ ∀ path, named = some path → Path.steps path = key) ∧ Assoc.get? key kept = some x := by
  cases named with
  | none => simp [forget, Assoc.get?]
  | some path =>
    rw [forget, Assoc.get?_erase]
    by_cases same : key = Path.steps path
    · simp [same]
    · simp [same, Ne.symm same]

end

end Cache

/-! ## Runs -/

/-- What happens to a preview and to the files that it reads. -/
inductive CacheRequest (View : Type) where
  | edit (e : FileTree.Edit)
  /-- A file, or every file, is said to have changed. -/
  | invalidate (path : Option String)
  | view (v : View)

/-- A preview that keeps what it has read. -/
class CachedPreview (P : Type) (Settings View : outParam Type) where
  /-- A preview that has read nothing. -/
  new : Settings → P
  /-- Forgets what has been read from a file, or from all files. -/
  invalidate : P → Option String → P
  /-- What is shown, with the preview and the files after it. -/
  view : P → FileTree → View → String × P × FileTree

section
variable {P Settings View α : Type} [CachedPreview P Settings View]

open CachedPreview (new invalidate view)

/-- A run of requests to a new preview. -/
structure CachedRun (P : Type) {Settings View : Type} [CachedPreview P Settings View] where
  settings : Settings
  /-- The files at the beginning. -/
  files : FileTree
  requests : List (CacheRequest View)

/-- One of the caches of a preview. -/
structure Cache (P α : Type) {Settings View : Type} [CachedPreview P Settings View] where
  /-- What is kept. -/
  kept : P → List (PathKey × α)
  /-- What a view reads through the cache, if it gets so far. -/
  reads : P → FileTree → View → Option (PathKey × Except LoadError α)
  kept_new : ∀ settings, kept (new settings) = []
  kept_invalidate : ∀ p named, kept (invalidate p named) = Cache.forget (kept p) named
  kept_view : ∀ p files v, kept (view p files v).2.1 =
    (reads p files v).elim (kept p) fun (key, load) => (Cache.readThrough key load (kept p)).2

/-- Serves a request. Only a view has an answer. -/
def CachedPreview.serve (s : P × FileTree) : CacheRequest View → Option String × (P × FileTree)
  | .edit e => (none, s.1, s.2.edit e)
  | .invalidate path => (none, invalidate s.1 path, s.2)
  | .view v =>
    let (html, p, files) := view s.1 s.2 v
    (some html, p, files)

namespace CachedRun

variable (h : CachedRun P) (k : Nat)

/-- A new preview. -/
def fresh : P := new h.settings

/-- The preview and the files before the request at `k`. -/
def stateAt : P × FileTree :=
  Run.after CachedPreview.serve (h.fresh, h.files) (h.requests.take k)

/-- The preview before the request at `k`. -/
def previewAt : P := (h.stateAt k).1

/-- The files before the request at `k`. -/
def filesAt : FileTree := (h.stateAt k).2

/-- The answers to the requests. -/
def answers : List (Option String) :=
  Run.answers CachedPreview.serve (h.fresh, h.files) h.requests

/-- The request at `k` is a view. -/
def Views (v : View) : Prop := h.requests[k]? = some (.view v)

/-- The request at `k` says that a file, or every file, has changed. -/
def Forgets (key : PathKey) (k : Nat) : Prop :=
  ∃ named, h.requests[k]? = some (.invalidate named) ∧
    ∀ path, named = some path → Path.steps path = key

/-- The request at `k` changes what stands at a path. -/
def Changes (path : String) : Prop :=
  ∃ e, h.requests[k]? = some (.edit e) ∧
    (h.filesAt (k + 1)).found? path ≠ (h.filesAt k).found? path

variable {h k} {v : View}

theorem stateAt_succ {request : CacheRequest View} (here : h.requests[k]? = some request) :
    h.stateAt (k + 1) = (CachedPreview.serve (h.stateAt k) request).2 :=
  Run.after_take_succ _ _ here

theorem stateAt_succ_of_none (here : h.requests[k]? = none) : h.stateAt (k + 1) = h.stateAt k :=
  Run.after_take_succ_of_none _ _ here

theorem answer_of_views (viewed : h.Views k v) :
    h.answers[k]? = some (some (view (h.previewAt k) (h.filesAt k) v).1) := by
  rw [Views] at viewed
  rw [answers, Run.getElem?_answers, viewed]
  rfl

theorem previewAt_succ_of_views (viewed : h.Views k v) :
    h.previewAt (k + 1) = (view (h.previewAt k) (h.filesAt k) v).2.1 := by
  rw [previewAt, stateAt_succ viewed]
  rfl

theorem filesAt_succ_of_views (viewed : h.Views k v) :
    h.filesAt (k + 1) = (view (h.previewAt k) (h.filesAt k) v).2.2 := by
  rw [filesAt, stateAt_succ viewed]
  rfl

theorem views_inj {w : View} (viewed : h.Views k v) (viewed' : h.Views k w) : v = w := by
  rw [Views] at viewed viewed'
  rw [viewed] at viewed'
  cases viewed'
  rfl

theorem not_forgets_of_views (viewed : h.Views k v) (key : PathKey) : ¬ h.Forgets key k := by
  rintro ⟨named, forgets, -⟩
  rw [Views] at viewed
  rw [viewed] at forgets
  cases forgets

theorem not_changes_of_views (viewed : h.Views k v) (path : String) : ¬ h.Changes k path := by
  rintro ⟨e, edits, -⟩
  rw [Views] at viewed
  rw [viewed] at edits
  cases edits

theorem forgets_iff {named : Option String} (here : h.requests[k]? = some (.invalidate named))
    (key : PathKey) : h.Forgets key k ↔ ∀ path, named = some path → Path.steps path = key := by
  unfold Forgets
  rw [here]
  simp

/-- What a request does to a preview. -/
theorem previewAt_succ (h : CachedRun P) (k : Nat) :
    ((∀ v, ¬ h.Views k v) ∧ (∀ key, ¬ h.Forgets key k) ∧ h.previewAt (k + 1) = h.previewAt k) ∨
    (∃ named, h.requests[k]? = some (.invalidate named) ∧ (∀ v, ¬ h.Views k v) ∧
      h.previewAt (k + 1) = invalidate (h.previewAt k) named) ∨
    ∃ v, h.Views k v := by
  unfold Views Forgets previewAt
  cases here : h.requests[k]? with
  | none => exact .inl ⟨nofun, nofun, by rw [stateAt_succ_of_none here]⟩
  | some request =>
    rw [stateAt_succ here]
    cases request with
    | edit e => exact .inl ⟨nofun, nofun, rfl⟩
    | invalidate named => exact .inr (.inl ⟨named, rfl, nofun, rfl⟩)
    | view v => exact .inr (.inr ⟨v, rfl⟩)

/-- What holds of a new preview and is kept by every request holds along a run. -/
theorem previewAt_induction (h : CachedRun P) (holds : P → Prop) (start : holds h.fresh)
    (forgets : ∀ p named, holds p → holds (invalidate p named))
    (views : ∀ p files v, holds p → holds (view p files v).2.1) (k : Nat) :
    holds (h.previewAt k) := by
  induction k with
  | zero => exact start
  | succ k ih =>
    rcases h.previewAt_succ k with ⟨-, -, same⟩ | ⟨named, -, -, same⟩ | ⟨v, viewed⟩
    · rwa [same]
    · rw [same]
      exact forgets _ named ih
    · rw [previewAt_succ_of_views viewed]
      exact views _ _ v ih

/-- Only edits change files, if views do not. -/
theorem found?_filesAt_succ {path : String}
    (views : ∀ v, h.Views k v → (view (h.previewAt k) (h.filesAt k) v).2.2.found? path =
      (h.filesAt k).found? path)
    (kept : ¬ h.Changes k path) : (h.filesAt (k + 1)).found? path = (h.filesAt k).found? path := by
  cases here : h.requests[k]? with
  | none => rw [filesAt, stateAt_succ_of_none here, filesAt]
  | some request =>
    cases request with
    | edit e =>
      by_contra changed
      exact kept ⟨e, here, changed⟩
    | invalidate named =>
      rw [filesAt, stateAt_succ here]
      rfl
    | view v => rw [filesAt_succ_of_views here, views v here]

/-! ## What is kept -/

variable (h) (c : Cache P α)

/-- What a cache keeps under a key before the request at `k`. -/
def keptAt (key : PathKey) (k : Nat) : Option α := Assoc.get? key (c.kept (h.previewAt k))

/-- The request at `k` reads something through a cache that can be loaded. -/
def Loads (key : PathKey) (k : Nat) (x : α) : Prop :=
  ∃ v, h.Views k v ∧ c.reads (h.previewAt k) (h.filesAt k) v = some (key, .ok x)

variable {h c} {key : PathKey} {x : α}

theorem not_forgets_of_loads (loads : h.Loads c key k x) : ¬ h.Forgets key k := by
  obtain ⟨v, viewed, -⟩ := loads
  exact not_forgets_of_views viewed key

/-- A view that reads something through a cache leaves there what reading has given. -/
theorem keptAt_succ_of_reads {load : Except LoadError α} (viewed : h.Views k v)
    (reads : c.reads (h.previewAt k) (h.filesAt k) v = some (key, load)) (other : PathKey) :
    h.keptAt c other (k + 1) =
      Assoc.get? other (Cache.readThrough key load (c.kept (h.previewAt k))).2 := by
  rw [keptAt, previewAt_succ_of_views viewed, c.kept_view, reads]
  rfl

/-- The step law of what is kept. -/
theorem keptAt_succ (h : CachedRun P) (c : Cache P α) (key : PathKey) (k : Nat) (x : α) :
    h.keptAt c key (k + 1) = some x ↔
      (¬ h.Forgets key k ∧ h.keptAt c key k = some x) ∨
        (h.keptAt c key k = none ∧ h.Loads c key k x) := by
  rcases h.previewAt_succ k with ⟨idle, kept, same⟩ | ⟨named, here, idle, same⟩ | ⟨v, viewed⟩
  · simp [keptAt, Loads, same, idle, kept]
  · rw [keptAt, same, c.kept_invalidate, Cache.get?_forget, forgets_iff here]
    simp [keptAt, Loads, idle]
  · have kept := not_forgets_of_views viewed key
    have loads : h.Loads c key k x ↔
        c.reads (h.previewAt k) (h.filesAt k) v = some (key, .ok x) := by
      constructor
      · rintro ⟨other, viewed', reads⟩
        rwa [views_inj viewed viewed']
      · exact fun reads => ⟨v, viewed, reads⟩
    rw [loads]
    cases reads : c.reads (h.previewAt k) (h.filesAt k) v with
    | none =>
      rw [keptAt, previewAt_succ_of_views viewed, c.kept_view, reads]
      simp [keptAt, kept]
    | some read =>
      rw [keptAt_succ_of_reads viewed reads, Cache.get?_readThrough]
      simp [keptAt, kept, Prod.ext_iff]

/-- What is kept was loaded and has not been forgotten since. -/
theorem loadedSince_of_keptAt (keeps : h.keptAt c key k = some x) :
    Run.LoadedSince (h.Loads c key) (h.Forgets key) k x := by
  refine Run.loadedSince_of_kept (h.keptAt_succ c key) ?_ keeps
  change Assoc.get? key (c.kept (new h.settings)) = none
  rw [c.kept_new]
  rfl

/-- Something is kept exactly while it has been loaded and has not been forgotten since. -/
theorem isSome_keptAt_iff (h : CachedRun P) (c : Cache P α) (key : PathKey) (k : Nat) :
    (h.keptAt c key k).isSome ↔ ∃ x, Run.LoadedSince (h.Loads c key) (h.Forgets key) k x := by
  constructor
  · intro keeps
    obtain ⟨x, keeps⟩ := Option.isSome_iff_exists.mp keeps
    exact ⟨x, loadedSince_of_keptAt keeps⟩
  · rintro ⟨x, loaded⟩
    exact Run.kept_of_loadedSince (h.keptAt_succ c key) (fun _ _ => not_forgets_of_loads) loaded

/-- After a view that has read something through a cache, it is kept, unless it could not be loaded.
What was kept before must be what loading gives. -/
theorem keptAt_after {load : Except LoadError α} (viewed : h.Views k v)
    (reads : c.reads (h.previewAt k) (h.filesAt k) v = some (key, load))
    (current : ∀ x, h.keptAt c key k = some x → load = .ok x) :
    h.keptAt c key (k + 1) = load.toOption := by
  rw [keptAt_succ_of_reads viewed reads, Cache.get?_readThrough_self,
    Cache.readThrough_of_current current]

end CachedRun

end

end SnapshotPreview

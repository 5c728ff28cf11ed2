import SnapshotPreview.Preview.WholeFile
import SnapshotPreview.Proofs.Stored.Caching

/-!
# What a preview of whole files shows

A document with snapshots is shown as a new preview would show it on the files as they are, if every
change to a file whose page is kept is announced before the next view; any other document leaves the
preview as it was (`view_fresh_or_previous`). A failure stands in the preview like a page until
something else is shown, but is not kept: the file is read again when it is shown again.
-/

namespace SnapshotPreview

namespace WholeFilePreview

/-! ## One view -/

/-- A document is a file of snapshots, or one stands beside it. -/
def HasSnapshots (files : FileTree) (source : Option String) : Prop :=
  ∃ document, source = some document ∧
    (isSnapshotFile document ∨ files.contains (Artifacts.ofSource document).snapshotFile)

theorem hasSnapshots_iff (files : FileTree) (source : Option String) :
    HasSnapshots files source ↔ (source.bind (snapshotFile? files)).isSome := by
  cases source with
  | none => simp [HasSnapshots]
  | some document =>
    by_cases itself : isSnapshotFile document
    · simp [HasSnapshots, snapshotFile?, itself]
    · by_cases beside : files.contains (Artifacts.ofSource document).snapshotFile
      · simp [HasSnapshots, snapshotFile?, itself, beside]
      · simp [HasSnapshots, snapshotFile?, itself, beside]

/-- The page of a file, or why there is none. -/
def pageOf (options : PageOptions) (files : FileTree) (path : String) : Except LoadError String :=
  (Storage.loadRecord files path).map fun record => Fragment.page options (.record record) [] ""

/-- What stands in the preview for a page, or for want of one. -/
def display : Except LoadError String → String
  | .ok html => html
  | .error e => Preview.failure e.message

theorem exists_pageOf_eq_error_iff (options : PageOptions) (files : FileTree) (path : String) :
    (∃ e, pageOf options files path = .error e) ↔ Storage.IsUnusable files path := by
  simp only [pageOf, map_eq_error]
  exact Storage.exists_loadRecord_eq_error_iff files path

theorem pageOf_congr {t t' : FileTree} {path : String} (same : t.found? path = t'.found? path)
    (options : PageOptions) : pageOf options t path = pageOf options t' path := by
  rw [pageOf, pageOf, Storage.loadRecord_congr same]

section
variable (p : WholeFilePreview) (files : FileTree) (path : String)

/-- Reads the page of a file. -/
def readPage : Except LoadError String × List (PathKey × String) :=
  Cache.readThrough (Path.steps path) (pageOf p.options files path) p.rendered

/-- The preview after it has shown a file. -/
def showing : WholeFilePreview :=
  { p with rendered := (p.readPage files path).2, current := display (p.readPage files path).1 }

theorem page_eq :
    p.page files path =
      (display (p.readPage files path).1, { p with rendered := (p.readPage files path).2 }) := by
  unfold page readPage Cache.readThrough
  cases Assoc.get? (Path.steps path) p.rendered with
  | some html => rfl
  | none =>
    unfold pageOf
    cases Storage.loadRecord files path <;> rfl

end

/-- A view shows a file of snapshots, or what it has shown before. -/
theorem view_eq (p : WholeFilePreview) (files : FileTree) (source : Option String) :
    p.view files source =
      match source.bind (snapshotFile? files) with
      | none => (p.current, p)
      | some path => ((p.showing files path).current, p.showing files path) := by
  unfold view
  cases source.bind (snapshotFile? files) with
  | none => rfl
  | some path =>
    dsimp only
    rw [page_eq]
    rfl

theorem current_view (p : WholeFilePreview) (files : FileTree) (source : Option String) :
    (p.view files source).2.current = (p.view files source).1 := by
  rw [view_eq]
  split <;> rfl

end WholeFilePreview

/-! ## Runs -/

instance : CachedPreview WholeFilePreview PageOptions (Option String) where
  new options := { options }
  invalidate := WholeFilePreview.invalidate
  view p files source := ((p.view files source).1, (p.view files source).2, files)

/-- A run of requests to a new preview of whole files. -/
abbrev WholeFileRun := CachedRun WholeFilePreview

/-- The pages that are kept. -/
def WholeFilePreview.pageCache : Cache WholeFilePreview String where
  kept := rendered
  reads p files source := (source.bind (snapshotFile? files)).map fun path =>
    (Path.steps path, pageOf p.options files path)
  kept_new _ := rfl
  kept_invalidate p named := by cases named <;> rfl
  kept_view p files source := by
    change (p.view files source).2.rendered = _
    rw [view_eq]
    cases source.bind (snapshotFile? files) <;> rfl

theorem WholeFilePreview.current_serve (s : WholeFilePreview × FileTree)
    (request : CacheRequest (Option String)) :
    (CachedPreview.serve s request).2.1.current =
      (CachedPreview.serve s request).1.getD s.1.current := by
  cases request with
  | edit e => rfl
  | invalidate named => cases named <;> rfl
  | view source => exact current_view s.1 s.2 source

namespace WholeFileRun
open WholeFilePreview

/-- What is shown before anything else. -/
def prompt : String := "<div>Select a snapshot file or a test file</div>"

/-- What the last view before the request at `k` has shown, or the prompt without one. -/
def shownBefore (h : WholeFileRun) (k : Nat) : String :=
  ((h.answers.take k).filterMap id).getLast?.getD prompt

/-- The request at `k` shows the snapshots in a file. -/
def Shows (h : WholeFileRun) (k : Nat) (path : String) : Prop :=
  ∃ source, h.Views k source ∧ source.bind (snapshotFile? (h.filesAt k)) = some path

/-- The request at `k` shows a file that has a page. -/
def Renders (h : WholeFileRun) (key : PathKey) (k : Nat) (html : String) : Prop :=
  ∃ path, h.Shows k path ∧ Path.steps path = key ∧ pageOf h.settings (h.filesAt k) path = .ok html

/-- The page of a file has been made before `k`, and the file has not been said to have changed
since. -/
def RenderedSince (h : WholeFileRun) (key : PathKey) (k : Nat) (html : String) : Prop :=
  Run.LoadedSince (h.Renders key) (h.Forgets key) k html

/-- After a file whose page has been made changes, that is said before anything else is shown. -/
def Announced (h : WholeFileRun) : Prop :=
  ∀ i path, h.Changes i path → (∃ html, h.RenderedSince (Path.steps path) i html) →
    ∀ k source, i < k → h.Views k source → ∃ m, i < m ∧ m < k ∧ h.Forgets (Path.steps path) m

/-- Paths that name the same file are spelled the same. -/
def OneSpelling (h : WholeFileRun) : Prop :=
  ∀ i j path other, h.Shows i path → h.Shows j other → Path.steps path = Path.steps other →
    path = other

variable {h : WholeFileRun} {k : Nat}

theorem shows_iff_of_views {source : Option String} (viewed : h.Views k source) (path : String) :
    h.Shows k path ↔ source.bind (snapshotFile? (h.filesAt k)) = some path := by
  constructor
  · rintro ⟨other, viewed', found⟩
    rwa [CachedRun.views_inj viewed viewed']
  · intro found
    exact ⟨source, viewed, found⟩

theorem previewAt_options (h : WholeFileRun) (k : Nat) : (h.previewAt k).options = h.settings := by
  refine h.previewAt_induction (fun p => p.options = h.settings) rfl ?_ ?_ k
  · intro p named same
    cases named <;> exact same
  · intro p files source same
    change (p.view files source).2.options = _
    rw [view_eq]
    cases source.bind (snapshotFile? files) <;> exact same

/-! ### What is shown -/

theorem shownBefore_succ (h : WholeFileRun) (k : Nat) :
    h.shownBefore (k + 1) = h.answers[k]?.join.getD (h.shownBefore k) := by
  unfold shownBefore
  rw [List.take_add_one, List.filterMap_append]
  rcases h.answers[k]? with _ | _ | html <;> simp

/-- A preview remembers what it has shown last. -/
theorem current_previewAt (h : WholeFileRun) (k : Nat) :
    (h.previewAt k).current = h.shownBefore k := by
  induction k with
  | zero => rfl
  | succ k ih =>
    rw [shownBefore_succ, CachedRun.answers, Run.getElem?_answers, ← ih]
    cases here : h.requests[k]? with
    | none =>
      rw [CachedRun.previewAt, CachedRun.stateAt_succ_of_none here]
      rfl
    | some request =>
      rw [CachedRun.previewAt, CachedRun.stateAt_succ here, current_serve]
      rfl

/-! ### What is kept -/

/-- The page kept for a file before the request at `k`. -/
def keptPage (h : WholeFileRun) (key : PathKey) (k : Nat) : Option String :=
  h.keptAt pageCache key k

theorem loads_pageCache (h : WholeFileRun) : h.Loads pageCache = h.Renders := by
  funext key j html
  refine propext ?_
  unfold CachedRun.Loads Renders Shows
  have options := h.previewAt_options j
  constructor
  · rintro ⟨source, viewed, reads⟩
    obtain ⟨path, found, same⟩ := Option.map_eq_some_iff.mp reads
    rw [Prod.mk.injEq, options] at same
    exact ⟨path, ⟨source, viewed, found⟩, same⟩
  · rintro ⟨path, ⟨source, viewed, found⟩, key, made⟩
    refine ⟨source, viewed, Option.map_eq_some_iff.mpr ⟨path, found, ?_⟩⟩
    rw [options, key, made]

theorem renderedSince_of_keptPage {key : PathKey} {html : String}
    (keeps : h.keptPage key k = some html) : h.RenderedSince key k html := by
  rw [RenderedSince, ← loads_pageCache]
  exact CachedRun.loadedSince_of_keptAt keeps

/-- A page is kept exactly while it has been made and its file has not been said to have changed
since. -/
theorem isSome_keptPage_iff (h : WholeFileRun) (key : PathKey) (k : Nat) :
    (h.keptPage key k).isSome ↔ ∃ html, h.RenderedSince key k html := by
  simp only [RenderedSince, ← loads_pageCache]
  exact h.isSome_keptAt_iff pageCache key k

/-! ### Views -/

section
variable {path : String} (spelling : h.OneSpelling) (announced : h.Announced)
  (shown : h.Shows k path)
include spelling announced shown

/-- When a file is shown, the page that is kept for it is the one that it has. -/
theorem pageOf_of_keptPage {html : String} (keeps : h.keptPage (Path.steps path) k = some html) :
    pageOf h.settings (h.filesAt k) path = .ok html := by
  obtain ⟨j, before, ⟨other, shown', key, made⟩, kept⟩ := renderedSince_of_keptPage keeps
  obtain rfl := spelling j k other path shown' shown key
  obtain ⟨source, viewed, -⟩ := shown
  have same : (h.filesAt k).found? other = (h.filesAt j).found? other := by
    refine Run.unchanged_of_announced (fun i => (h.filesAt i).found? other)
      (fun i => CachedRun.found?_filesAt_succ fun _ _ => rfl) (Nat.le_of_lt before) ?_ ?_ kept
    · obtain ⟨_, viewed', -⟩ := shown'
      exact CachedRun.not_changes_of_views viewed' other
    · intro i later bound changes
      have since : h.RenderedSince (Path.steps other) i html :=
        ⟨j, later, ⟨other, shown', rfl, made⟩, fun m early => kept m (by omega)⟩
      exact announced i other changes ⟨html, since⟩ k source bound viewed
  rw [pageOf_congr same, made]

theorem readPage_of_shown : ((h.previewAt k).readPage (h.filesAt k) path).1 =
    pageOf h.settings (h.filesAt k) path := by
  rw [readPage, h.previewAt_options]
  exact Cache.readThrough_of_current fun _ => pageOf_of_keptPage spelling announced shown

theorem current_showing :
    ((h.previewAt k).showing (h.filesAt k) path).current =
      display (pageOf h.settings (h.filesAt k) path) :=
  congrArg display (readPage_of_shown spelling announced shown)

/-- After a file has been shown, its page is kept, unless it has none. -/
theorem keptPage_after :
    h.keptPage (Path.steps path) (k + 1) = (pageOf h.settings (h.filesAt k) path).toOption := by
  obtain ⟨source, viewed, found⟩ := shown
  refine CachedRun.keptAt_after viewed ?_ fun _ =>
    pageOf_of_keptPage spelling announced ⟨source, viewed, found⟩
  change (source.bind (snapshotFile? (h.filesAt k))).map _ = _
  rw [found, Option.map_some, h.previewAt_options]

end

/-- If every change to a file whose page has been made is announced before the next view, then a
document with snapshots is shown as a new preview shows it on the files as they are, and any other
document leaves what was shown before. After a file has been shown, its page is kept; that it has
none, as it is missing, unreadable or malformed, is not. -/
theorem view_fresh_or_previous (h : WholeFileRun) (spelling : h.OneSpelling)
    (announced : h.Announced) {k : Nat} {source : Option String} (viewed : h.Views k source) :
    (HasSnapshots (h.filesAt k) source →
      h.answers[k]? = some (some (h.fresh.view (h.filesAt k) source).1)) ∧
    (¬ HasSnapshots (h.filesAt k) source → h.answers[k]? = some (some (h.shownBefore k))) ∧
    ∀ path, h.Shows k path →
      let made := pageOf h.settings (h.filesAt k) path
      h.answers[k]? = some (some (display made)) ∧
        h.keptPage (Path.steps path) (k + 1) = made.toOption ∧
        ((∃ e, made = .error e) ↔ Storage.IsUnusable (h.filesAt k) path) := by
  have answer : h.answers[k]? =
      some (some ((h.previewAt k).view (h.filesAt k) source).1) := CachedRun.answer_of_views viewed
  rw [answer, hasSnapshots_iff, view_eq, view_eq]
  refine ⟨?fresh, ?previous, ?made⟩
  case fresh =>
    intro found
    obtain ⟨path, found⟩ := Option.isSome_iff_exists.mp found
    have shown := (shows_iff_of_views viewed path).mpr found
    have unread : (h.fresh.readPage (h.filesAt k) path).1 = pageOf h.settings (h.filesAt k) path :=
      Cache.readThrough_of_current nofun
    rw [found]
    dsimp only
    rw [current_showing spelling announced shown, showing, unread]
  case previous =>
    intro missing
    rw [Option.not_isSome_iff_eq_none.mp missing]
    dsimp only
    rw [current_previewAt]
  case made =>
    intro path shown made
    refine ⟨?_, keptPage_after spelling announced shown, exists_pageOf_eq_error_iff _ _ _⟩
    rw [(shows_iff_of_views viewed path).mp shown]
    dsimp only
    rw [current_showing spelling announced shown]

/-- A file of snapshots that is removed between two views of it. -/
def removedBetweenViews : WholeFileRun where
  settings := .plain
  files := { entries := [([['d']], .directory), ([['d'], "a.snap".toList], .file [])] }
  requests := [
    .view (some "/d/a.snap"),
    .edit (.remove "/d/a.snap"),
    .invalidate (some "/d/a.snap"),
    .view (some "/d/a.snap"),
    .view none]

theorem views_of_removedBetweenViews {source : Option String}
    (viewed : removedBetweenViews.Views k source) :
    (source = some "/d/a.snap" ∧ (k = 0 ∨ k = 3)) ∨ (source = none ∧ k = 4) := by
  match k with
  | 0 | 3 =>
    cases viewed
    exact .inl ⟨rfl, by decide⟩
  | 4 =>
    cases viewed
    exact .inr ⟨rfl, rfl⟩
  | 1 | 2 | k + 5 => cases viewed

theorem shows_of_removedBetweenViews {path : String} (shown : removedBetweenViews.Shows k path) :
    path = "/d/a.snap" := by
  obtain ⟨source, viewed, found⟩ := shown
  rcases views_of_removedBetweenViews viewed with ⟨rfl, -⟩ | ⟨rfl, -⟩
  · have itself : isSnapshotFile "/d/a.snap" := by decide +kernel
    rw [Option.bind_some, snapshotFile?, if_pos itself] at found
    exact (Option.some.inj found).symm
  · cases found

/-- The file is shown as it is without its snapshots, and this stays in the preview when there is
no document. -/
theorem view_of_removedBetweenViews :
    removedBetweenViews.OneSpelling ∧ removedBetweenViews.Announced ∧
      removedBetweenViews.answers[3]? =
        some (some (removedBetweenViews.fresh.view (removedBetweenViews.filesAt 3)
          (some "/d/a.snap")).1) ∧
      removedBetweenViews.answers[4]? = some (some (removedBetweenViews.shownBefore 4)) := by
  have spelling : removedBetweenViews.OneSpelling := by
    intro i j path other shown shown' _
    rw [shows_of_removedBetweenViews shown, shows_of_removedBetweenViews shown']
  have announced : removedBetweenViews.Announced := by
    intro i path changes rendered k source after viewed
    obtain ⟨e, edits, -⟩ := changes
    have isEdit : i = 1 := by
      match i with
      | 1 => rfl
      | 0 | 2 | 3 | 4 | i + 5 => cases edits
    have later : 2 < k := by
      rcases views_of_removedBetweenViews viewed with ⟨-, here⟩ | ⟨-, here⟩ <;> omega
    obtain ⟨html, j, before, ⟨other, shown, key, -⟩, -⟩ := rendered
    rw [shows_of_removedBetweenViews shown] at key
    refine ⟨2, by omega, later, some "/d/a.snap", rfl, fun named same => ?_⟩
    rw [← Option.some.inj same]
    exact key
  have views : removedBetweenViews.Views 3 (some "/d/a.snap") := rfl
  have viewsNone : removedBetweenViews.Views 4 none := rfl
  have itself : HasSnapshots (removedBetweenViews.filesAt 3) (some "/d/a.snap") :=
    ⟨_, rfl, .inl (by decide +kernel)⟩
  exact ⟨spelling, announced, (view_fresh_or_previous _ spelling announced views).1 itself,
    (view_fresh_or_previous _ spelling announced viewsNone).2.1 nofun⟩

end WholeFileRun

end SnapshotPreview

import SnapshotPreview.Proofs.Stored.Caching

/-!
# What a preview of stored snapshots keeps

A preview keeps what it has read until it is said to have changed. If every change to a file that is
kept is announced before the next view, then every view is the one that a new preview would give on
the files as they are (`view_eq_fresh`). A failure is never kept; that there are no styles is.
-/

namespace SnapshotPreview

namespace StoredPreview

/-! ## One view -/

section
variable (p : StoredPreview) (files : FileTree) (source : String)

/-- Reads the snapshots that belong to a test file. -/
def readRecord : Except LoadError Record × List (PathKey × Record) :=
  Cache.readThrough (Path.steps (Artifacts.ofSource source).snapshotFile)
    (Storage.loadRecord files (Artifacts.ofSource source).snapshotFile) p.records

/-- Reads the styles that belong to a test file. -/
def readStyles : Except LoadError (Option String) × List (PathKey × Option String) :=
  Cache.readThrough (Path.steps (Artifacts.ofSource source).styleFile)
    (Storage.loadStyles files (Artifacts.ofSource source).styleFile p.options.assetBase) p.styles

/-- The preview after it has read what belongs to a test file. Styles are read only if there are
snapshots. -/
def reading : StoredPreview :=
  match (p.readRecord files source).1 with
  | .ok _ =>
    { p with records := (p.readRecord files source).2, styles := (p.readStyles files source).2 }
  | .error _ => { p with records := (p.readRecord files source).2 }

theorem record_eq :
    p.record files (Artifacts.ofSource source).snapshotFile =
      ((p.readRecord files source).1, { p with records := (p.readRecord files source).2 }) := by
  unfold record readRecord Cache.readThrough
  cases Assoc.get? (Path.steps (Artifacts.ofSource source).snapshotFile) p.records with
  | some record => rfl
  | none => cases Storage.loadRecord files (Artifacts.ofSource source).snapshotFile <;> rfl

theorem style_eq :
    p.style files (Artifacts.ofSource source).styleFile =
      ((p.readStyles files source).1, { p with styles := (p.readStyles files source).2 }) := by
  unfold style readStyles Cache.readThrough
  cases Assoc.get? (Path.steps (Artifacts.ofSource source).styleFile) p.styles with
  | some css => rfl
  | none =>
    cases Storage.loadStyles files (Artifacts.ofSource source).styleFile p.options.assetBase <;> rfl

theorem reading_records :
    (p.reading files source).records = (p.readRecord files source).2 := by
  unfold reading
  split <;> rfl

/-- The page of a test, or why there is none. -/
def pageOf (l : Location) : Except LoadError String := do
  let record ← (p.readRecord files source).1
  let css ← (p.readStyles files source).1
  return Fragment.page p.options (.record record) l.snapshotNames (css.getD "")

theorem page_eq (l : Location) :
    p.page files source l = (p.pageOf files source l, p.reading files source) := by
  unfold page pageOf reading
  dsimp only
  rw [record_eq]
  cases (p.readRecord files source).1 with
  | error e => rfl
  | ok record =>
    dsimp only
    rw [style_eq]
    have same : ({ p with records := (p.readRecord files source).2 } : StoredPreview).readStyles
        files source = p.readStyles files source := rfl
    rw [same]
    cases (p.readStyles files source).1 <;> rfl

theorem reading_savesPage : (p.reading files source).savesPage = p.savesPage := by
  unfold reading
  split <;> rfl

/-- A view reads, and stores the page if there is one. -/
theorem view_eq (r : Resolution) :
    p.view files (some source) r =
      match r.location? with
      | none => (Page.noTestFound, p, files)
      | some l =>
        match p.pageOf files source l with
        | .ok html => (html, p.reading files source, p.store files source html)
        | .error (.notFound path) => (Page.missingSnapshots path, p.reading files source, files)
        | .error e => (Preview.failure e.message, p.reading files source, files) := by
  unfold view
  cases r.location? with
  | none => rfl
  | some l =>
    dsimp only
    rw [render, page_eq]
    cases p.pageOf files source l with
    | ok html => simp only [store, reading_savesPage]
    | error e => cases e <;> rfl

end

/-- The test file whose snapshots a view shows. -/
def shownFile? (source : Option String) (r : Resolution) : Option String :=
  source.filter fun _ => r.location?.isSome

theorem shownFile?_eq_some_iff {source : Option String} {r : Resolution} {path : String} :
    shownFile? source r = some path ↔ source = some path ∧ r.location?.isSome = true := by
  simp [shownFile?]

/-- What a preview has read after a view. -/
theorem view_preview (p : StoredPreview) (files : FileTree) (source : Option String)
    (r : Resolution) :
    (p.view files source r).2.1 = (shownFile? source r).elim p (p.reading files) := by
  cases source with
  | none => rfl
  | some path =>
    rw [view_eq]
    cases found : r.location? with
    | none => simp [shownFile?, found]
    | some l =>
      have shown : shownFile? (some path) r = some path :=
        shownFile?_eq_some_iff.mpr ⟨rfl, by rw [found]; rfl⟩
      dsimp only
      rw [shown, Option.elim_some]
      split <;> rfl

/-- The files after a view are those before it, or a page has been stored among them. -/
theorem view_files (p : StoredPreview) (files : FileTree) (source : Option String)
    (r : Resolution) :
    (p.view files source r).2.2 = files ∨
      ∃ path l html, source = some path ∧ r.location? = some l ∧
        p.pageOf files path l = .ok html ∧
        (p.view files source r).2.2 = (files.save (Artifacts.ofSource path).page html).files := by
  cases source with
  | none => exact .inl rfl
  | some path =>
    rw [view_eq]
    cases r.location? with
    | none => exact .inl rfl
    | some l =>
      dsimp only
      cases made : p.pageOf files path l with
      | error e => cases e <;> exact .inl rfl
      | ok html =>
        dsimp only [store]
        split
        · exact .inr ⟨path, l, html, rfl, rfl, made, rfl⟩
        · exact .inl rfl

end StoredPreview

/-! ## Runs -/

/-- What a preview of stored snapshots is made with. -/
structure StoredSettings where
  options : PageOptions
  savesPage : Bool

instance : CachedPreview StoredPreview StoredSettings (Option String × Resolution) where
  new settings := { options := settings.options, savesPage := settings.savesPage }
  invalidate := StoredPreview.invalidate
  view p files v := p.view files v.1 v.2

/-- A run of requests to a new preview of stored snapshots. -/
abbrev StoredRun := CachedRun StoredPreview

namespace StoredPreview

/-- The snapshots that are kept. -/
def recordCache : Cache StoredPreview Record where
  kept := records
  reads _ files v := (shownFile? v.1 v.2).map fun source =>
    (Path.steps (Artifacts.ofSource source).snapshotFile,
      Storage.loadRecord files (Artifacts.ofSource source).snapshotFile)
  kept_new _ := rfl
  kept_invalidate p named := by cases named <;> rfl
  kept_view p files v := by
    change (p.view files v.1 v.2).2.1.records = _
    rw [view_preview]
    cases shownFile? v.1 v.2 with
    | none => rfl
    | some source => exact reading_records p files source

end StoredPreview

namespace StoredRun

/-- The request at `k` shows the snapshots stored for a test in a file. -/
def Shows (h : StoredRun) (k : Nat) (source : String) : Prop :=
  ∃ r, h.requests[k]? = some (.view (some source, r)) ∧ r.location?.isSome

/-- The request at `k` shows snapshots from a file, and that file can be loaded. -/
def LoadsRecord (h : StoredRun) (key : PathKey) (k : Nat) (record : Record) : Prop :=
  ∃ source, h.Shows k source ∧ Path.steps (Artifacts.ofSource source).snapshotFile = key ∧
    Storage.loadRecord (h.filesAt k) (Artifacts.ofSource source).snapshotFile = .ok record

/-- The snapshots in a file have been loaded before `k`, and the file has not been said to have
changed since. -/
def RecordSince (h : StoredRun) (key : PathKey) (k : Nat) (record : Record) : Prop :=
  Run.LoadedSince (h.LoadsRecord key) (h.Forgets key) k record

/-- The request at `k` shows snapshots with the styles in a file, which can be loaded or is not
there. -/
def LoadsStyles (h : StoredRun) (key : PathKey) (k : Nat) (css : Option String) : Prop :=
  ∃ source, h.Shows k source ∧ Path.steps (Artifacts.ofSource source).styleFile = key ∧
    (∃ record, h.RecordSince (Path.steps (Artifacts.ofSource source).snapshotFile) (k + 1) record) ∧
    Storage.loadStyles (h.filesAt k) (Artifacts.ofSource source).styleFile h.settings.options.assetBase =
      .ok css

/-- The styles in a file have been loaded before `k`, and the file has not been said to have changed
since. -/
def StylesSince (h : StoredRun) (key : PathKey) (k : Nat) (css : Option String) : Prop :=
  Run.LoadedSince (h.LoadsStyles key) (h.Forgets key) k css

/-- After a file that has been loaded changes, that is said before anything else is shown. -/
def Announced (h : StoredRun) : Prop :=
  ∀ i path, h.Changes i path →
    ((∃ record, h.RecordSince (Path.steps path) i record) ∨
      ∃ css, h.StylesSince (Path.steps path) i css) →
    ∀ k source, i < k → h.Shows k source → ∃ m, i < m ∧ m < k ∧ h.Forgets (Path.steps path) m

/-- Paths of artifacts that name the same file are spelled the same. -/
def OneSpelling (h : StoredRun) : Prop :=
  ∀ i j source other, h.Shows i source → h.Shows j other →
    (Path.steps (Artifacts.ofSource source).snapshotFile =
        Path.steps (Artifacts.ofSource other).snapshotFile →
      (Artifacts.ofSource source).snapshotFile = (Artifacts.ofSource other).snapshotFile) ∧
    (Path.steps (Artifacts.ofSource source).styleFile =
        Path.steps (Artifacts.ofSource other).styleFile →
      (Artifacts.ofSource source).styleFile = (Artifacts.ofSource other).styleFile)

variable {h : StoredRun} {k : Nat}

theorem shows_iff {source : String} :
    h.Shows k source ↔ ∃ v, h.Views k v ∧ StoredPreview.shownFile? v.1 v.2 = some source := by
  simp only [StoredPreview.shownFile?_eq_some_iff]
  constructor
  · rintro ⟨r, here, found⟩
    exact ⟨(some source, r), here, rfl, found⟩
  · rintro ⟨⟨_, r⟩, here, rfl, found⟩
    exact ⟨r, here, found⟩

/-- The snapshots kept for a file before the request at `k`. -/
def keptRecord (h : StoredRun) (key : PathKey) (k : Nat) : Option Record :=
  h.keptAt StoredPreview.recordCache key k

theorem loads_recordCache (h : StoredRun) : h.Loads StoredPreview.recordCache = h.LoadsRecord := by
  funext key j record
  refine propext ?_
  unfold CachedRun.Loads LoadsRecord
  simp only [shows_iff]
  constructor
  · rintro ⟨v, viewed, reads⟩
    obtain ⟨source, shown, same⟩ := Option.map_eq_some_iff.mp reads
    rw [Prod.mk.injEq] at same
    exact ⟨source, ⟨v, viewed, shown⟩, same⟩
  · rintro ⟨source, ⟨v, viewed, shown⟩, same⟩
    exact ⟨v, viewed, Option.map_eq_some_iff.mpr ⟨source, shown, Prod.mk.injEq .. ▸ same⟩⟩

/-- The snapshots in a file are kept exactly while they have been loaded and the file has not been
said to have changed since. -/
theorem isSome_keptRecord_iff (h : StoredRun) (key : PathKey) (k : Nat) :
    (h.keptRecord key k).isSome ↔ ∃ record, h.RecordSince key k record := by
  simp only [RecordSince, ← loads_recordCache]
  exact h.isSome_keptAt_iff StoredPreview.recordCache key k

/-- There are snapshots after a view exactly if reading them has not failed. -/
theorem keptRecord_succ_of_views {v : Option String × Resolution} {source : String}
    (viewed : h.Views k v) (shown : StoredPreview.shownFile? v.1 v.2 = some source) :
    h.keptRecord (Path.steps (Artifacts.ofSource source).snapshotFile) (k + 1) =
      ((h.previewAt k).readRecord (h.filesAt k) source).1.toOption := by
  have reads : StoredPreview.recordCache.reads (h.previewAt k) (h.filesAt k) v =
      some (Path.steps (Artifacts.ofSource source).snapshotFile,
        Storage.loadRecord (h.filesAt k) (Artifacts.ofSource source).snapshotFile) := by
    change (StoredPreview.shownFile? v.1 v.2).map _ = _
    rw [shown, Option.map_some]
  rw [keptRecord, CachedRun.keptAt_succ_of_reads viewed reads, Cache.get?_readThrough_self]
  rfl

/-- No request takes a directory away. -/
theorem extends_filesAt_succ (h : StoredRun) (k : Nat) :
    (h.filesAt (k + 1)).Extends (h.filesAt k) := by
  cases here : h.requests[k]? with
  | none =>
    rw [CachedRun.filesAt, CachedRun.stateAt_succ_of_none here]
    exact FileTree.extends_refl _
  | some request =>
    cases request with
    | edit e =>
      rw [CachedRun.filesAt, CachedRun.stateAt_succ here]
      exact FileTree.extends_edit _ e
    | invalidate named =>
      rw [CachedRun.filesAt, CachedRun.stateAt_succ here]
      exact FileTree.extends_refl _
    | view v =>
      rw [CachedRun.filesAt_succ_of_views here]
      change ((h.previewAt k).view (h.filesAt k) v.1 v.2).2.2.Extends _
      rcases StoredPreview.view_files (h.previewAt k) (h.filesAt k) v.1 v.2 with
        same | ⟨path, l, html, -, -, -, stored⟩
      · rw [same]
        exact FileTree.extends_refl _
      · rw [stored]
        exact FileTree.extends_save _ _ _

theorem extends_filesAt {j : Nat} (h : StoredRun) (le : j ≤ k) :
    (h.filesAt k).Extends (h.filesAt j) := by
  obtain ⟨steps, rfl⟩ := Nat.exists_eq_add_of_le le
  clear le
  induction steps with
  | zero => exact FileTree.extends_refl _
  | succ steps ih => exact (h.extends_filesAt_succ (j + steps)).trans ih

/-- When a page is shown, the directory of the snapshots is there, even if the snapshots are not any
more. -/
theorem hasDirectory_of_pageOf {source html : String} {l : Location} (spelling : h.OneSpelling)
    (shown : h.Shows k source)
    (made : (h.previewAt k).pageOf (h.filesAt k) source l = .ok html) :
    (h.filesAt k).hasDirectory (Artifacts.ofSource source).directory = true := by
  obtain ⟨record, read, -⟩ := bind_eq_ok.mp made
  obtain ⟨v, viewed, found⟩ := shows_iff.mp shown
  have keeps :
      (h.keptRecord (Path.steps (Artifacts.ofSource source).snapshotFile) (k + 1)).isSome := by
    rw [keptRecord_succ_of_views viewed found, read]
    rfl
  obtain ⟨_, j, before, ⟨other, shown', key, loads⟩, -⟩ := (h.isSome_keptRecord_iff _ _).mp keeps
  rw [(spelling j k other source shown' shown).1 key] at loads
  exact (h.extends_filesAt (by omega)).hasDirectory
    (FileTree.hasDirectory_of_found? (Storage.found?_of_loadRecord loads))

/-- The path of an artifact that is read. -/
def IsArtifact (path : String) : Prop :=
  ∃ source, path = (Artifacts.ofSource source).snapshotFile ∨
    path = (Artifacts.ofSource source).styleFile

theorem IsArtifact.parted {path : String} (artifact : IsArtifact path) :
    ∃ before name, Text.splitOn '/' path.toList = before ++ [name] ∧ 2 < name.length ∧
      name ≠ Artifacts.pageName.toList := by
  have other {front ending : List Char} (ends : ending.getLast? ≠ some 'l') (any : ending ≠ []) :
      front ++ ending ≠ Artifacts.pageName.toList := by
    intro same
    have last := congrArg List.getLast? same
    rw [List.getLast?_append_of_ne_nil _ any] at last
    exact ends last
  obtain ⟨source, rfl | rfl⟩ := artifact
  · exact ⟨_, _, Artifacts.splitOn_snapshotFile source, by simp, other (by decide) (by decide)⟩
  · obtain ⟨before, name, parted⟩ := Artifacts.exists_splitOn_styleFile source
    exact ⟨before, _, parted, by simp, other (by decide) (by decide)⟩

/-- Only edits change artifacts. -/
theorem found?_filesAt_succ {path : String} (spelling : h.OneSpelling) (artifact : IsArtifact path)
    (kept : ¬ h.Changes k path) :
    (h.filesAt (k + 1)).found? path = (h.filesAt k).found? path := by
  refine CachedRun.found?_filesAt_succ (fun v viewed => ?_) kept
  change ((h.previewAt k).view (h.filesAt k) v.1 v.2).2.2.found? path = _
  rcases StoredPreview.view_files (h.previewAt k) (h.filesAt k) v.1 v.2 with
    same | ⟨source, l, html, given, found, made, stored⟩
  · rw [same]
  · have shown : h.Shows k source := shows_iff.mpr
      ⟨v, viewed, StoredPreview.shownFile?_eq_some_iff.mpr ⟨given, by rw [found]; rfl⟩⟩
    obtain ⟨before, name, parted, long, other⟩ := artifact.parted
    rw [stored]
    exact FileTree.found?_save_page (hasDirectory_of_pageOf spelling shown made) parted long other

section
variable {source : String} (spelling : h.OneSpelling) (announced : h.Announced)
  (shown : h.Shows k source)
include spelling announced shown

end

/-- A test file whose snapshots are removed between two views. -/
def removedBetweenViews : StoredRun where
  settings := { options := .plain, savesPage := true }
  files := {
    entries := [
      ([['d']], .directory),
      ([['d'], "__snapshots__".toList], .directory),
      ([['d'], "__snapshots__".toList, "a.js.snap".toList], .file [])] }
  requests := [
    .view (some "/d/a.js", .resolved { testName := some "t" }),
    .edit (.remove "/d/__snapshots__/a.js.snap"),
    .invalidate none,
    .view (some "/d/a.js", .resolved { testName := some "t" })]

theorem shows_of_removedBetweenViews {source : String}
    (shown : removedBetweenViews.Shows k source) :
    source = "/d/a.js" ∧ (k = 0 ∨ k = 3) := by
  obtain ⟨r, views, -⟩ := shown
  match k with
  | 0 | 3 =>
    cases views
    exact ⟨rfl, by decide⟩
  | 1 | 2 | k + 4 => cases views

end StoredRun

end SnapshotPreview

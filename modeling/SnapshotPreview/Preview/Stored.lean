import SnapshotPreview.Artifacts
import SnapshotPreview.Fragment
import SnapshotPreview.Preview.Message
import SnapshotPreview.Session
import SnapshotPreview.Storage

/-!
# Stored snapshots of one test

The preview shows the snapshots stored for the test around the caret, with the styles stored beside
them. What has been read from a file is kept until the file is said to have changed.
-/

namespace SnapshotPreview

/-- Paths that differ only in idle steps name the same file. -/
abbrev PathKey := List (List Char)

/-- A preview of stored snapshots with what it has read. -/
structure StoredPreview where
  options : PageOptions
  /-- Whether every page is also stored beside the snapshots. -/
  savesPage : Bool := false
  records : List (PathKey × Record) := []
  styles : List (PathKey × Option String) := []
deriving DecidableEq, Repr

namespace StoredPreview

/-- The snapshots in a file, read once. -/
def record (p : StoredPreview) (files : FileTree) (path : String) :
    Except LoadError Record × StoredPreview :=
  match Assoc.get? (Path.steps path) p.records with
  | some record => (.ok record, p)
  | none =>
    match Storage.loadRecord files path with
    | .ok record => (.ok record, { p with records := Assoc.set (Path.steps path) record p.records })
    | .error e => (.error e, p)

/-- The styles in a file, read once. That there are none counts as read, too. -/
def style (p : StoredPreview) (files : FileTree) (path : String) :
    Except LoadError (Option String) × StoredPreview :=
  match Assoc.get? (Path.steps path) p.styles with
  | some css => (.ok css, p)
  | none =>
    match Storage.loadStyles files path p.options.assetBase with
    | .ok css => (.ok css, { p with styles := Assoc.set (Path.steps path) css p.styles })
    | .error e => (.error e, p)

/-- The page with the snapshots of a test, found beside its file. -/
def page (p : StoredPreview) (files : FileTree) (source : String) (l : Location) :
    Except LoadError String × StoredPreview :=
  let artifacts := Artifacts.ofSource source
  match p.record files artifacts.snapshotFile with
  | (.error e, p) => (.error e, p)
  | (.ok record, p) =>
    match p.style files artifacts.styleFile with
    | (.error e, p) => (.error e, p)
    | (.ok css, p) =>
      (.ok (Fragment.page p.options (.record record) l.snapshotNames (css.getD "")), p)

/-- Stores a page if that is wanted and possible. -/
def store (p : StoredPreview) (files : FileTree) (source html : String) : FileTree :=
  if p.savesPage then (files.save (Artifacts.ofSource source).page html).files else files

/-- The page with the snapshots of a test, and the files after it has been stored. -/
def render (p : StoredPreview) (files : FileTree) (source : String) (l : Location) :
    Except LoadError String × StoredPreview × FileTree :=
  match p.page files source l with
  | (.ok html, p) => (.ok html, p, p.store files source html)
  | (.error e, p) => (.error e, p, files)

/-- The preview for a document and its resolved caret. -/
def view (p : StoredPreview) (files : FileTree) (source : Option String) (r : Resolution) :
    String × StoredPreview × FileTree :=
  match source, r.location? with
  | some source, some l =>
    match p.render files source l with
    | (.ok html, p, files) => (html, p, files)
    | (.error (.notFound path), p, files) => (Page.missingSnapshots path, p, files)
    | (.error e, p, files) => (Preview.failure e.message, p, files)
  | _, _ => (Page.noTestFound, p, files)

/-- Forgets what has been read from a file, or from all files. -/
def invalidate (p : StoredPreview) : Option String → StoredPreview
  | some path =>
    { p with
      records := Assoc.erase (Path.steps path) p.records
      styles := Assoc.erase (Path.steps path) p.styles }
  | none => { p with records := [], styles := [] }

end StoredPreview

end SnapshotPreview

import SnapshotPreview.Preview.Stored

/-!
# All snapshots of a file

The preview shows every snapshot of a file of snapshots, or of the one that belongs to a test file.
For any other document it stays as it is.
-/

namespace SnapshotPreview

/-- A preview of whole files with the pages it has made. -/
structure WholeFilePreview where
  options : PageOptions
  rendered : List (PathKey × String) := []
  /-- What was shown last. -/
  current : String := "<div>Select a snapshot file or a test file</div>"
deriving DecidableEq, Repr

namespace WholeFilePreview

/-- The file of snapshots for a document: the document itself, or the file stored beside it. -/
def snapshotFile? (files : FileTree) (source : String) : Option String :=
  if isSnapshotFile source then some source
  else
    let path := (Artifacts.ofSource source).snapshotFile
    if files.contains path then some path else none

/-- The page of a file, made once. Failures are not kept. -/
def page (p : WholeFilePreview) (files : FileTree) (path : String) : String × WholeFilePreview :=
  match Assoc.get? (Path.steps path) p.rendered with
  | some html => (html, p)
  | none =>
    match Storage.loadRecord files path with
    | .ok record =>
      let html := Fragment.page p.options (.record record) [] ""
      (html, { p with rendered := Assoc.set (Path.steps path) html p.rendered })
    | .error e => (Preview.failure e.message, p)

/-- The preview for a document. -/
def view (p : WholeFilePreview) (files : FileTree) (source : Option String) :
    String × WholeFilePreview :=
  match source.bind (snapshotFile? files) with
  | some path =>
    let (html, p) := p.page files path
    (html, { p with current := html })
  | none => (p.current, p)

/-- Forgets the page of a file, or all pages. -/
def invalidate (p : WholeFilePreview) : Option String → WholeFilePreview
  | some path => { p with rendered := Assoc.erase (Path.steps path) p.rendered }
  | none => { p with rendered := [] }

end WholeFilePreview

end SnapshotPreview

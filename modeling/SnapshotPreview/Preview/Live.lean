import SnapshotPreview.Artifacts
import SnapshotPreview.Fragment
import SnapshotPreview.LiveMessage

/-!
# Snapshots of running tests

Running tests send their snapshots one by one. The preview shows the latest ones of a test file:
when a snapshot arrives, those of the same file that came too long before it are dropped, so that a
new run takes the place of the one before.
-/

namespace SnapshotPreview

/-- A snapshot that has been received. -/
structure LiveSnapshot where
  received : Nat
  name : String
  html : String
deriving DecidableEq, Repr

/-- What running tests have sent, by test file. -/
structure LivePreview where
  options : PageOptions
  /-- How long a snapshot outlives its successors, in milliseconds. -/
  expiry : Nat := 1500
  /-- The test file that is shown. -/
  active : Option String := none
  snapshots : List (String × List LiveSnapshot) := []
  styles : List (String × String) := []
deriving DecidableEq, Repr

namespace LivePreview

/-- The styles that a message carries. -/
def stylesOf : LiveContent → Option String
  | .text css => some css
  | content => content.field? "styles"

/-- Puts a snapshot in the place of the one with its name, or at the end. -/
def replace (s : LiveSnapshot) : List LiveSnapshot → List LiveSnapshot
  | [] => [s]
  | old :: rest => if old.name = s.name then s :: rest else old :: replace s rest

/-- Takes a message that arrives at a given time. -/
def receive (p : LivePreview) (m : LiveMessage) (now : Nat) : LivePreview :=
  let key := testFileKey m.file
  if m.isStylesheet then
    match stylesOf m.content with
    | some css =>
      { p with styles := Assoc.set key (Markup.relocateUrls css p.options.assetBase) p.styles }
    | none => p
  else
    let kept := ((Assoc.get? key p.snapshots).getD []).filter fun s => now - s.received < p.expiry
    let s : LiveSnapshot :=
      { received := now
        name := m.snapshotName.getD ""
        html := Fragment.render p.options m.content.toContent [] }
    { p with snapshots := Assoc.set key (replace s kept) p.snapshots }

/-- Shown before a test file has been selected. -/
def selectTestFile : String := "<div>Please select a test file (*.test.*)</div>"

/-- Shown for a test file that has sent nothing. -/
def noSnapshots : String := "<div>No snapshots recorded for this test file</div>"

/-- The label of a test file. -/
def fileLabel (key : String) : String :=
  "<div class=\"ui fluid blue label\" style=\"margin: 3px\">Test: " ++ Html.escapeText key ++
    "</div>"

/-- A snapshot under its name. -/
def block (s : LiveSnapshot) : String :=
  "<div class=\"ui fluid label\" style=\"margin: 3px\">" ++ Html.escapeText s.name ++ "</div>" ++
    s.html

/-- The page for a test file. -/
def page (p : LivePreview) (key : String) : String :=
  match Assoc.get? key p.snapshots with
  | some (s :: rest) =>
    Page.renderWithCss p.options ((Assoc.get? key p.styles).getD "")
      (fileLabel key ++ String.join ((s :: rest).map block))
  | _ => noSnapshots

/-- The preview for a document. A test file becomes the one that is shown. -/
def view (p : LivePreview) (source : Option String) : String × LivePreview :=
  let p :=
    match source with
    | some path => if isTestFile path then { p with active := some (testFileKey path) } else p
    | none => p
  match p.active with
  | some key => (p.page key, p)
  | none => (selectTestFile, p)

/-- Forgets what a file, or every file, has sent. -/
def invalidate (p : LivePreview) : Option String → LivePreview
  | some path =>
    { p with
      snapshots := Assoc.erase (testFileKey path) p.snapshots
      styles := Assoc.erase (testFileKey path) p.styles }
  | none => { p with snapshots := [], styles := [] }

end LivePreview

end SnapshotPreview

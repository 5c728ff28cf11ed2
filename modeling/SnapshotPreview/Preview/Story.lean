import SnapshotPreview.Html
import SnapshotPreview.Session

/-!
# Stories of a component explorer

The preview is the page that a running component explorer has for the test.
-/

namespace SnapshotPreview

/-- Where the component explorer runs, and the styles around its page. -/
structure StoryPreview where
  server : String
  stylesheet : String
deriving DecidableEq, Repr

namespace StoryPreview

/-- Where a component explorer runs unless something else is said. -/
def defaultServer : String := "http://localhost:9001"

/-- The address of a test, if it has a name and a story. -/
def url? (p : StoryPreview) (l : Location) : Option String :=
  match l.testSlug with
  | some test =>
    if l.storyId.isEmpty then none
    else some (p.server ++ "?story=" ++ l.storyId ++ "&test=" ++ test)
  | none => none

/-- The link to the styles. -/
def styleLink (p : StoryPreview) : String :=
  "\n<link href='file://" ++ p.stylesheet ++ "' rel='stylesheet' type='text/css'>\n"

/-- Shown without an address. -/
def hint (p : StoryPreview) : String :=
  p.styleLink ++
    "<span class=\"ui fluid info red label\" style=\"margin: 6px\">" ++
    "Please place your cursor in a test function to select the test</span>\n"

/-- The page at an address within a frame, below a bar that shows the address. -/
def frame (p : StoryPreview) (url : String) : String :=
  let url := Html.escapeAttribute url
  "<style>iframe \x7b background-color: white \x7d </style>" ++ p.styleLink ++
    "<div class=\"ui grey inverted pointing secondary menu\" style=\"margin-bottom: 0px\">\n" ++
    "  <a title=\"Refresh\" class=\"icon item\" onclick=\"" ++
    "document.getElementById('frame').src = document.getElementById('frame').src\">" ++
    "<i aria-hidden=\"true\" class=\"refresh icon\"></i></a>\n  <div class=\"item\">" ++ url ++
    "</div>\n</div>\n<iframe id=\"frame\" src=\"" ++ url ++
    "\" frameBorder=\"0\" width=\"100%\" height=\"1000px\"></iframe>"

/-- The preview for a resolved caret. -/
def view (p : StoryPreview) (r : Resolution) : String :=
  match r.location?.bind p.url? with
  | some url => p.frame url
  | none => p.hint

end StoryPreview

end SnapshotPreview

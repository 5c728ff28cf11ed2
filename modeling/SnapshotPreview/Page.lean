import SnapshotPreview.Html
import SnapshotPreview.Path
import SnapshotPreview.Structured

/-!
# The preview page

The settings of all previews, and the HTML page around rendered snapshots.
-/

namespace SnapshotPreview

/-- The settings of a preview. -/
structure PageOptions where
  /-- The directory of assets, without a slash at its end. -/
  assetBase : String
  /-- Files of styles linked into the page. -/
  stylesheets : List String
  /-- Styles from elsewhere linked into the page. -/
  externalStylesheets : List String
  /-- Styles put into the page. -/
  extraCss : String := ""
  structured : StructuredMode := .verbatim
  /-- How many snapshots are shown at most; zero stands for all. -/
  maxEntries : Nat := 0
deriving DecidableEq, Repr

namespace PageOptions

/-- The settings of a page without styles and assets. -/
def plain : PageOptions := { assetBase := "", stylesheets := [], externalStylesheets := [] }

/-- The styles that every page takes from elsewhere. -/
def defaultExternal : List String :=
  ["http://fonts.googleapis.com/css?family=Lato:400,700",
    "https://cdnjs.cloudflare.com/ajax/libs/semantic-ui/2.2.13/semantic.min.css"]

/-- The files of styles below the directory of assets. -/
def localStylesheets : List String := ["luis.css", "bundle.css"]

/-- A path without slashes at its end. -/
def trimSlashes (path : String) : String :=
  String.ofList (path.toList.reverse.dropWhile (· == '/')).reverse

/-- The settings for a directory of assets. -/
def ofAssetBase (base : String) : PageOptions :=
  let assetBase := trimSlashes base
  let styles := Path.join (if assetBase.isEmpty then "/" else assetBase) "styles"
  { assetBase
    stylesheets := localStylesheets.map (Path.join styles)
    externalStylesheets := defaultExternal }

/-- The settings with more styles put into the page, on lines of their own. -/
def addCss (o : PageOptions) (css : String) : PageOptions :=
  if css.isEmpty then o
  else { o with extraCss := if o.extraCss.isEmpty then css else o.extraCss ++ "\n" ++ css }

end PageOptions

namespace Page

/-- The link to a style sheet. -/
def stylesheetLink (address : String) : String :=
  "\n    <link href='" ++ address ++ "' rel='stylesheet' type='text/css'>"

/-- The page around rendered snapshots. -/
def render (o : PageOptions) (body : String) : String :=
  "<!DOCTYPE html>\n<html>\n\n<head>\n    <title></title>\n</head>\n\n" ++
  "<body style=\"background: transparent; background-image: none!important\">" ++
  String.join (o.externalStylesheets.map stylesheetLink) ++
  "\n    <style type='text/css'>\n" ++ o.extraCss ++ "\n    </style>" ++
  String.join (o.stylesheets.map fun path => stylesheetLink ("file://" ++ path)) ++
  "\n    <div style=\"background: white\">\n        <div style=\"padding: 6px\">\n" ++ body ++
  "\n        </div>\n    </div>\n</body>\n\n</html>"

/-- The page with more styles than the settings have. -/
def renderWithCss (o : PageOptions) (css body : String) : String := render (o.addCss css) body

/-- Shown when there is no test at the caret. -/
def noTestFound : String := "<div>No test found!</div>"

/-- Shown when a file of snapshots is missing. -/
def missingSnapshots (path : String) : String :=
  "There are no snapshots for: " ++ Html.escapeText path

end Page

end SnapshotPreview

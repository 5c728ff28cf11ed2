import SnapshotPreview.Markup.Assets
import SnapshotPreview.Markup.Attributes
import SnapshotPreview.Page
import SnapshotPreview.Record

/-!
# Rendered snapshots

Each snapshot becomes a block of its own under its name. The attributes of all blocks together are
turned into HTML at the end.
-/

namespace SnapshotPreview.Fragment

open Text

/-- The place in a decorator that the snapshot takes. -/
def placeholder : List Char := "$snapshot".toList

/-- Writes a text in place of the first occurrence of another. -/
def replaceFirst (needle replacement : List Char) : List Char → List Char
  | [] => if needle.isEmpty then replacement else []
  | c :: rest =>
    match afterPrefix? needle (c :: rest) with
    | some after => replacement ++ after
    | none => c :: replaceFirst needle replacement rest

/-- A snapshot within its decorator. -/
def decorate (decorator snapshot : String) : String :=
  String.ofList (replaceFirst placeholder snapshot.toList decorator.toList)

/-- Whether a name has one of the terms in it. Without terms every name passes. -/
def passesFilter (name : String) (terms : List String) : Bool :=
  terms.isEmpty || terms.any fun term => occursIn term.toList name.toList

/-- The name shown for a snapshot: a counter of one is left out. -/
def displayLabel (name : String) : String :=
  match name.toList.reverse with
  | '1' :: ' ' :: rest => String.ofList rest.reverse
  | _ => name

/-- The block of one snapshot. It has no label without a name. -/
def entry (o : PageOptions) (name value : String) (cssClass decorator : Option String) : String :=
  let shown :=
    if Structured.isData value then Structured.render o.structured value
    else Markup.relocateAssets value o.assetBase
  let decorated := (decorator.map fun template => decorate template shown).getD shown
  let label :=
    if name.isEmpty then ""
    else
      "\n<div class=\"ui fluid label\">" ++ Html.escapeText (displayLabel name) ++ "</div>"
  let classes := (cssClass.map fun names => " class=\"" ++ names ++ "\"").getD ""
  label ++ "\n<div" ++ classes ++ " style=\"padding: 6px\">" ++ decorated ++ "</div>"

/-- The snapshots of a record that are shown, in order. -/
def shownEntries (o : PageOptions) (r : Record) (terms : List String) : List (String × String) :=
  let passing := r.entries.filter fun (name, _) => passesFilter name terms
  if o.maxEntries = 0 then passing else passing.take o.maxEntries

/-- The blocks of all shown snapshots before their attributes are turned into HTML. -/
def blocks (o : PageOptions) (terms : List String) : Content → String
  | .text snapshot => entry o "" snapshot none none
  | .record r =>
    String.join ((shownEntries o r terms).map fun (name, value) =>
      entry o name value r.cssClassName r.decorator)

/-- Rendered snapshots without the page around them. -/
def render (o : PageOptions) (content : Content) (terms : List String) : String :=
  Markup.normalizeAttributes (blocks o terms content)

/-- A page of snapshots, with more styles than the settings have. -/
def page (o : PageOptions) (content : Content) (terms : List String) (css : String) : String :=
  Page.renderWithCss o css (render o content terms)

end SnapshotPreview.Fragment

/-!
# Text within HTML
-/

namespace SnapshotPreview.Html

/-- A character of a text. -/
def textChar (c : Char) : List Char :=
  if c == '&' then "&amp;".toList
  else if c == '<' then "&lt;".toList
  else if c == '>' then "&gt;".toList
  else [c]

/-- A character of a quoted attribute. -/
def attributeChar (c : Char) : List Char :=
  if c == '"' then "&quot;".toList
  else if c == '\x27' then "&#x27;".toList
  else textChar c

/-- A text as it stands between tags. -/
def escapeText (s : String) : String := String.ofList (s.toList.flatMap textChar)

/-- A text as it stands in a quoted attribute. -/
def escapeAttribute (s : String) : String := String.ofList (s.toList.flatMap attributeChar)

end SnapshotPreview.Html

import SnapshotPreview.Html

/-!
# Failures shown in the preview
-/

namespace SnapshotPreview.Preview

/-- A failure in place of a preview. -/
def failure (message : String) : String :=
  "<div class=\"ui red label\">" ++ Html.escapeText message ++ "</div>"

end SnapshotPreview.Preview

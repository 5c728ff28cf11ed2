import SnapshotPreview.Debouncer
import SnapshotPreview.Preview.Live

/-!
# Live previews from lines of text

Messages arrive line by line. When a line arrives after a pause, the preview of the messages before
it is due.
-/

namespace SnapshotPreview

/-- A live preview of one file, with the burst of messages that is going on. -/
structure LiveSession where
  preview : LivePreview
  file : String
  debouncer : Debouncer := {}
deriving DecidableEq, Repr

namespace LiveSession

/-- The preview now. -/
def finish (s : LiveSession) : String × LiveSession :=
  let (html, preview) := s.preview.view (some s.file)
  (html, { s with preview })

/-- Takes the message in a line. Other lines are passed over. -/
def receive (s : LiveSession) (line : String) (now : Nat) : LiveSession :=
  match LiveMessage.parse line with
  | .ok message =>
    { s with preview := s.preview.receive message now, debouncer := s.debouncer.trigger now }
  | .error _ => s

/-- Takes a line and gives the preview of the burst that ended before it. Blank lines do not
count. -/
def feed (s : LiveSession) (line : String) (now : Nat) : Option String × LiveSession :=
  if line.toList.all Text.isBlank then (none, s)
  else
    let (due, debouncer) := s.debouncer.ready now
    let s := { s with debouncer }
    if due then
      let (html, s) := s.finish
      (some html, s.receive line now)
    else (none, s.receive line now)

end LiveSession

end SnapshotPreview

/-!
# Bursts of events

Events that follow each other closely are answered once, when a window of time has passed since
the last of them. Times are whole milliseconds from any start and may go backward; the time since a
later event is zero.
-/

namespace SnapshotPreview

/-- Waits for the end of a burst. -/
structure Debouncer where
  /-- How long no event may come before the burst is over. -/
  window : Nat := 400
  /-- The time of the last event that has not been answered. -/
  pending : Option Nat := none
deriving DecidableEq, Repr

namespace Debouncer

/-- An event. -/
def trigger (d : Debouncer) (now : Nat) : Debouncer := { d with pending := some now }

/-- Whether a burst is over. It is reported once. -/
def ready (d : Debouncer) (now : Nat) : Bool × Debouncer :=
  match d.pending with
  | some since => if d.window ≤ now - since then (true, { d with pending := none }) else (false, d)
  | none => (false, d)

/-- The time until the burst is over. -/
def remaining (d : Debouncer) (now : Nat) : Option Nat :=
  d.pending.map fun since => d.window - (now - since)

end Debouncer

end SnapshotPreview

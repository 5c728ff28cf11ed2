import SnapshotPreview.Text.Utf8

/-!
# Matching brackets

Finding the delimiter that balances one already passed. Only single bytes count: a bracket
inside a string or a comment is a bracket like any other.
-/

namespace SnapshotPreview

/-- The way a scan walks through the text. -/
inductive Direction where
  | forward
  | backward
deriving DecidableEq, Repr

namespace Bracket

/-- How many bytes stand before the one at which `depth` open brackets are closed. A byte that
closes counts down, one that nests counts up; the closing byte is looked at first. -/
def balance (closing nesting : UInt8) : Nat → List UInt8 → Option Nat
  | _, [] => none
  | depth, b :: rest =>
    if b = closing then
      if depth ≤ 1 then some 0 else (balance closing nesting (depth - 1) rest).map (· + 1)
    else if b = nesting then (balance closing nesting (depth + 1) rest).map (· + 1)
    else (balance closing nesting depth rest).map (· + 1)

/-- The bytes from a position on. -/
def ahead (text : Array UInt8) (start : Nat) : List UInt8 := text.toList.drop start

/-- The bytes from a position back to the start of the text, nearest first. -/
def behind (text : Array UInt8) (start : Nat) : List UInt8 := (text.toList.take (start + 1)).reverse

/-- The position of the delimiter that balances one bracket passed before `start`, where the
scan begins with the byte at `start` itself. Forward it ends on `closing` and nests on
`opening`, backward the other way round. -/
def find (text : Array UInt8) (start : Nat) (opening closing : UInt8) : Direction → Option Nat
  | .forward => (balance closing opening 1 (ahead text start)).map (start + ·)
  | .backward =>
    if start < text.size then
      (balance opening closing 1 (behind text start)).map (start - ·)
    else none

theorem find_backward_le {text : Array UInt8} {start p : Nat} {opening closing : UInt8}
    (h : find text start opening closing .backward = some p) : p ≤ start := by
  simp only [find] at h
  split at h
  · obtain ⟨n, _, rfl⟩ := Option.map_eq_some_iff.1 h
    omega
  · simp at h

end Bracket

end SnapshotPreview

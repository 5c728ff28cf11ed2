import SnapshotPreview.Locator

/-!
# Editing sessions

A session remembers the last complete place it found, so that a caret outside every test keeps
showing the snapshots of the previous test.
-/

namespace SnapshotPreview

/-- What a caret leads to. -/
inductive Resolution where
  /-- A test and its suites stand around the caret. -/
  | resolved (location : Location)
  /-- Nothing was found, and this is the last place that was. -/
  | fallback (location : Location)
  /-- Nothing was found, now or before. -/
  | noTest
deriving DecidableEq, Repr

namespace Resolution

/-- The place that a resolution carries. -/
def location? : Resolution → Option Location
  | .resolved l | .fallback l => some l
  | .noTest => none

/-- No place is known. -/
def isNoTest : Resolution → Bool
  | .noTest => true
  | _ => false

end Resolution

/-- The carets of one editor are resolved against a fixed vocabulary. -/
structure Session where
  vocabulary : Vocabulary
  /-- The last complete place since the session began or was reset. -/
  last : Option Location := none
deriving DecidableEq, Repr

namespace Session

/-- Resolves a caret. Only a complete place is remembered. -/
def resolve (s : Session) (text : Array UInt8) (caret : Nat) : Resolution × Session :=
  let found := Locator.locate text s.vocabulary caret
  if found.isComplete then (.resolved found, { s with last := some found })
  else
    match s.last with
    | some last => (.fallback last, s)
    | none => (.noTest, s)

/-- Forgets the remembered place. -/
def reset (s : Session) : Session := { s with last := none }

end Session

end SnapshotPreview

import SnapshotPreview.Bracket
import SnapshotPreview.Call
import SnapshotPreview.Location

/-!
# The test around a caret

The block around a caret ends at the first closing brace from the caret on. Looking back from
the start of that block, the nearest test call gives the test. Looking back from there, suite
calls give its folders: after each of them the search goes on before the brace of the block that
the suite stands in, so that earlier neighbours are passed over.
-/

namespace SnapshotPreview

namespace Locator

/-- The position of the first byte with a value, from `start` on. -/
def firstFrom (text : Array UInt8) (value : UInt8) (start : Nat) : Option Nat :=
  ((text.toList.drop start).findIdx? (· == value)).map (start + ·)

/-- The position just before the opening brace of the block around the caret. There is none when
no closing brace follows, or when its opening brace is missing or begins the text. -/
def contextStart (text : Array UInt8) (caret : Nat) : Option Nat :=
  match firstFrom text (Text.byte '\x7d') (min caret text.size) with
  | none | some 0 => none
  | some (before + 1) =>
    match Bracket.find text before (Text.byte '\x7b') (Text.byte '\x7d') .backward with
    | none | some 0 => none
    | some (start + 1) => some start

/-- The last call of one kind whose name begins below a bound. -/
def lastBelow (text : Array UInt8) (vocabulary : Vocabulary) (kind : CallKind) : Nat → Option Call
  | 0 => none
  | pos + 1 =>
    match Call.at? text vocabulary kind pos with
    | some call => some call
    | none => lastBelow text vocabulary kind pos

/-- Where the search for further suites goes on after a suite call at `pos`: below the brace of
the block that it stands in, or just below the call itself when it stands in none. -/
def boundAfterSuite (text : Array UInt8) (pos : Nat) : Nat :=
  (Bracket.find text pos (Text.byte '\x7b') (Text.byte '\x7d') .backward).getD pos

theorem boundAfterSuite_le (text : Array UInt8) (pos : Nat) : boundAfterSuite text pos ≤ pos := by
  unfold boundAfterSuite
  cases h : Bracket.find text pos (Text.byte '\x7b') (Text.byte '\x7d') .backward with
  | none => simp
  | some p => simpa using Bracket.find_backward_le h

/-- The names of the suites found below a bound, from the inside out. -/
def suitesBelow (text : Array UInt8) (vocabulary : Vocabulary) : Nat → List String
  | 0 => []
  | pos + 1 =>
    match Call.at? text vocabulary .suite pos with
    | some call => call.name :: suitesBelow text vocabulary (boundAfterSuite text pos)
    | none => suitesBelow text vocabulary pos
termination_by bound => bound
decreasing_by
  · have := boundAfterSuite_le text pos; omega
  · omega

/-- The position at which the arguments of a call end, or the last byte of the text. -/
def argumentsEnd (text : Array UInt8) (start : Nat) : Nat :=
  (Bracket.find text start (Text.byte '(') (Text.byte ')') .forward).getD (text.size - 1)

/-- The place of a test that has been found: its folders from the outside in, the names of its
snapshot comparisons from the last to the first, and its own name. -/
def locationOf (text : Array UInt8) (vocabulary : Vocabulary) (test : Call) : Location where
  testName := some test.name
  folders := (suitesBelow text vocabulary test.start).reverse
  snapshotNames :=
    assertionNames text vocabulary test.start (argumentsEnd text test.start) ++ [test.name]

/-- The place of the test around a caret, or of none. -/
def locate (text : Array UInt8) (vocabulary : Vocabulary) (caret : Nat) : Location :=
  match contextStart text caret with
  | none => .nowhere
  | some start =>
    match lastBelow text vocabulary .test (start + 1) with
    | none => .nowhere
    | some test => locationOf text vocabulary test

end Locator

end SnapshotPreview

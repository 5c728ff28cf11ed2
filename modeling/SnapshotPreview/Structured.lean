import SnapshotPreview.Json.Parser
import SnapshotPreview.Json.Printer
import SnapshotPreview.Text.Ranges
import SnapshotPreview.Text.Rule
import SnapshotPreview.Text.Word

/-!
# Snapshots that are data

A snapshot that begins with a brace or a bracket is shown as data: as it was stored, or read as
JSON and printed again. Serializers decorate JSON with the names of types and with commas after the
last item, which are taken off before reading.
-/

namespace SnapshotPreview

/-- How data is shown. -/
inductive StructuredMode where
  /-- As it was stored. -/
  | verbatim
  /-- Printed again, or as it was stored if it cannot be read. -/
  | reserialize
deriving DecidableEq, Repr

namespace Structured

open Text

/-- Whether a snapshot is data. -/
def isData (value : String) : Bool :=
  match trimStart value.toList with
  | c :: _ => c == '\x7b' || c == '['
  | [] => false

/-- An opening bracket. -/
def isOpening (c : Char) : Bool := c == '\x7b' || c == '['

/-- A closing bracket. -/
def isClosing (c : Char) : Bool := c == '\x7d' || c == ']'

/-- The text after the name of a type, from the opening bracket on. -/
def afterTypeName? (cs : List Char) : Option (List Char) :=
  match (afterPrefix? "Object ".toList cs).or (afterPrefix? "Array ".toList cs) with
  | some (c :: rest) => if isOpening c then some (c :: rest) else none
  | _ => none

theorem length_lt_of_afterTypeName? {cs rest : List Char} (h : afterTypeName? cs = some rest) :
    rest.length < cs.length := by
  unfold afterTypeName? at h
  split at h
  · rename_i c r hr
    split at h
    · cases h
      rcases Option.or_eq_some_iff.1 hr with h | ⟨_, h⟩
      · have := length_of_afterPrefix? h; simp at this ⊢; omega
      · have := length_of_afterPrefix? h; simp at this ⊢; omega
    · cases h
  · cases h

/-- Takes the names of types off brackets, unless they are the end of a longer word. The flag says
whether the character before the text belongs to a word. -/
def dropTypeNames (withinWord : Bool) (cs : List Char) : List Char :=
  match _h : if withinWord then none else afterTypeName? cs with
  | some rest => dropTypeNames true rest
  | none =>
    match cs with
    | [] => []
    | c :: rest => c :: dropTypeNames (isWord c) rest
termination_by cs.length
decreasing_by
  · split at _h
    · cases _h
    · exact length_lt_of_afterTypeName? _h
  · exact Nat.lt_succ_self _

/-- A comma before a closing bracket, with only white space between them. -/
def lastCommaStep (cs : List Char) : Option (List Char × List Char) :=
  (afterPrefix? [','] cs).bind fun rest =>
    match rest.dropWhile isBlank with
    | c :: after =>
      if isClosing c then some (rest.takeWhile isBlank ++ [c], after) else none
    | [] => none

/-- Commas after the last item are dropped. -/
def lastCommaRule : Rule where
  step := lastCommaStep
  shorter := by
    intro cs out rest h
    obtain ⟨r, hr, h⟩ := Option.bind_eq_some_iff.1 h
    have := length_of_afterPrefix? hr
    have := length_dropWhile_le isBlank r
    split at h
    · rename_i hd
      split at h
      · cases h
        simp only [hd, List.length_cons] at *
        omega
      · cases h
    · cases h

/-- The text without the decorations of a serializer. -/
def undecorate (value : String) : String :=
  String.ofList (lastCommaRule.replaceAll (dropTypeNames false (trim value.toList)))

/-- Reads data and prints it over several lines. -/
def reserialize (value : String) : Except Json.Problem String :=
  (Json.parse (undecorate value)).map Json.pretty

/-- Data as it is shown. -/
def render (mode : StructuredMode) (value : String) : String :=
  let body :=
    match mode with
    | .verbatim => value
    | .reserialize =>
      match reserialize value with
      | .ok text => text
      | .error _ => value
  "<pre>" ++ body ++ "</pre>"

end Structured

end SnapshotPreview

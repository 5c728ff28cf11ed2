import SnapshotPreview.Quoted
import SnapshotPreview.Vocabulary

/-!
# Calls whose first argument is a quoted name

A call is recognised at the quote that opens its first argument by looking back: the text before
the quote, white space aside, ends with an identifier and an opening parenthesis. Identifiers
are not separated from what stands before them.
-/

namespace SnapshotPreview

/-- A call found in source text. -/
structure Call where
  kind : CallKind
  /-- The first argument. -/
  name : String
  /-- The position of its opening quote. -/
  start : Nat
  /-- The position of its closing quote. -/
  stop : Nat
deriving DecidableEq, Repr

namespace Call

/-- The length of the first `len` bytes of the text without the white space at their end. -/
def trimmedLength (text : Array UInt8) : Nat → Nat
  | 0 => 0
  | len + 1 =>
    match text[len]? with
    | some b => if Text.isSpaceByte b then trimmedLength text len else len + 1
    | none => len + 1

/-- Whether the first `len` bytes of the text end with the given bytes, which are listed from the
last to the first, when white space before each of them is skipped. -/
def endsWith (text : Array UInt8) : List UInt8 → Nat → Bool
  | [], _ => true
  | expected :: more, len =>
    match trimmedLength text len with
    | 0 => false
    | before + 1 => text[before]? == some expected && endsWith text more before

/-- Whether a single quote stands at `pos` and the text up to it ends with `literal`. -/
def opensAt (text : Array UInt8) (literal : String) (pos : Nat) : Bool :=
  text[pos]? == some (Text.byte '\x27') &&
    endsWith text (Text.bytesOf literal).toList.reverse (pos + 1)

/-- An identifier with the parenthesis and the quote that make it a call. -/
def opening (ident : String) : String := ident ++ "('"

/-- The call of one kind whose first argument begins at `pos`. -/
def at? (text : Array UInt8) (vocabulary : Vocabulary) (kind : CallKind) (pos : Nat) :
    Option Call :=
  if (vocabulary.identifiers kind).any fun ident => opensAt text (opening ident) pos then
    let literal := Quoted.read text pos
    some { kind, name := literal.value, start := pos, stop := literal.stop }
  else none

/-- All calls of one kind, in order. -/
def all (text : Array UInt8) (vocabulary : Vocabulary) (kind : CallKind) : List Call :=
  (List.range (text.size + 1)).filterMap (at? text vocabulary kind)

end Call

/-- The names of the snapshot comparisons whose name begins from `start` to `stop`, the last one
first. -/
def assertionNames (text : Array UInt8) (vocabulary : Vocabulary) (start stop : Nat) :
    List String :=
  let bound := min (stop + 1) text.size
  (List.range' start (bound - start)).reverse.filterMap fun pos =>
    (Call.at? text vocabulary .assertion pos).map Call.name

end SnapshotPreview

import SnapshotPreview.Bracket
import SnapshotPreview.Text.Affix
import SnapshotPreview.Text.Ranges
import SnapshotPreview.Vocabulary

/-!
# Anchors for inline actions

The places in a file where an editor offers to update snapshots: the openings of test and suite
calls. They are looked for line by line in the first bytes of each line.
-/

namespace SnapshotPreview

/-- A call opening to which an editor can attach an action. -/
structure Lens where
  kind : CallKind
  /-- The line, counted from zero. -/
  line : Nat
  /-- The column just after the opening parenthesis, in bytes. -/
  firstColumn : Nat
  /-- The column at which the part of the line that was looked at ends. -/
  lastColumn : Nat
  /-- A position just inside the first argument. -/
  offset : Nat
deriving DecidableEq, Repr

namespace Lens

/-- How many bytes of a line are looked at. -/
def scannedBytes : Nat := 1000

/-- The longest run of first characters that takes at most `limit` bytes. -/
def takeBytes : Nat → List Char → List Char
  | _, [] => []
  | limit, c :: rest =>
    if c.utf8Size ≤ limit then c :: takeBytes (limit - c.utf8Size) rest else []

/-- What follows the opening parenthesis if the text begins with one of the identifiers, white
space, and an opening parenthesis. The identifiers are tried in order. -/
def afterOpening? (idents : List (List Char)) (cs : List Char) : Option (List Char) :=
  idents.findSome? fun ident =>
    match Text.afterPrefix? ident cs with
    | some rest =>
      match rest.dropWhile Text.isBlank with
      | '(' :: rest => some rest
      | _ => none
    | none => none

theorem length_lt_of_afterOpening? {idents : List (List Char)} {cs rest : List Char}
    (h : afterOpening? idents cs = some rest) : rest.length < cs.length := by
  obtain ⟨ident, _, h⟩ := List.exists_of_findSome?_eq_some h
  split at h
  · rename_i tail htail
    split at h
    · rename_i found hfound
      cases h
      have whole := Text.length_of_afterPrefix? htail
      have shorter : (tail.dropWhile Text.isBlank).length ≤ tail.length :=
        (List.dropWhile_sublist _).length_le
      simp only [hfound, List.length_cons] at shorter
      omega
    · simp at h
  · simp at h

/-- The texts that follow the call openings of a line, from left to right. -/
def openings (idents : List (List Char)) (cs : List Char) : List (List Char) :=
  match _h : afterOpening? idents cs with
  | some rest => rest :: openings idents rest
  | none =>
    match cs with
    | [] => []
    | _ :: cs => openings idents cs
termination_by cs.length
decreasing_by
  · exact length_lt_of_afterOpening? _h
  · simp

/-- The first argument of a call begins after white space and an opening quote, if there is one. -/
def argumentOffset (text : Array UInt8) (afterParen : Nat) : Nat :=
  let rest := text.toList.drop afterParen
  let offset := afterParen + (rest.takeWhile Text.isSpaceByte).length
  match text[offset]? with
  | some b =>
    if b = Text.byte '\x27' || b = Text.byte '"' || b = Text.byte '\x60' then offset + 1 else offset
  | none => offset

/-- The anchors of one line, which begins at a given position of the text, each with the position
of its parenthesis. -/
def ofLine (text : Array UInt8) (kind : CallKind) (idents : List (List Char)) (line start : Nat)
    (content : List Char) : List (Lens × Nat) :=
  let scanned := takeBytes scannedBytes content
  let width := Text.byteLength scanned
  (openings idents scanned).map fun rest =>
    let column := width - Text.byteLength rest
    ({ kind, line, firstColumn := column, lastColumn := width
       offset := argumentOffset text (start + column) }, start + column - 1)

/-- The anchors of all lines from a given line and position on. -/
def ofLines (text : Array UInt8) (kind : CallKind) (idents : List (List Char)) :
    Nat → Nat → List (List Char) → List (Lens × Nat)
  | _, _, [] => []
  | line, start, content :: rest =>
    ofLine text kind idents line start content ++
      ofLines text kind idents (line + 1) (start + Text.byteLength content + 1) rest

/-- All anchors for one kind of call, each with the position of its parenthesis. -/
def anchors (s : String) (vocabulary : Vocabulary) (kind : CallKind) : List (Lens × Nat) :=
  ofLines (Text.bytesOf s) kind ((vocabulary.identifiers kind).map String.toList) 0 0
    (Text.splitOn '\n' s.toList)

/-- The text of a call from its opening parenthesis through the closing one, or to the end. -/
def argumentsText (text : Array UInt8) (paren : Nat) : List UInt8 :=
  let rest := text.toList.drop paren
  match Bracket.find text (paren + 1) (Text.byte '(') (Text.byte ')') .forward with
  | some close => rest.take (close + 1 - paren)
  | none => rest

/-- Every suite or story call. -/
def suites (s : String) (vocabulary : Vocabulary) : List Lens :=
  (anchors s vocabulary .suite).map (·.1)

/-- The test calls whose arguments contain a comparison with a named snapshot. -/
def tests (s : String) (vocabulary : Vocabulary) : List Lens :=
  let text := Text.bytesOf s
  let names := vocabulary.assertions.map fun ident => (Text.bytesOf ident).toList
  ((anchors s vocabulary .test).filter fun (_, paren) =>
    names.any fun ident => Text.occursIn ident (argumentsText text paren)).map (·.1)

end Lens

end SnapshotPreview

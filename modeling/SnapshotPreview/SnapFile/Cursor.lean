import SnapshotPreview.Text.Utf8

/-!
# Walking through a text

A position in the bytes of a text that moves by bytes or by whole characters. Nothing keeps it from
standing within a character, or beyond the end.
-/

namespace SnapshotPreview.SnapFile

/-- A position in the bytes of a text. -/
structure Cursor where
  text : Array UInt8
  pos : Nat := 0
deriving DecidableEq, Repr

/-- A character of a plain key. -/
def isKeyChar (c : Char) : Bool := c.isAlphanum || c == '_' || c == '$'

/-- A byte of a plain key. -/
def isKeyByte (b : UInt8) : Bool := b < 0x80 && isKeyChar (Char.ofNat b.toNat)

namespace Cursor

/-- The start of a text. -/
def ofText (s : String) : Cursor := { text := Text.bytesOf s }

/-- The number of bytes from the position on. -/
def left (c : Cursor) : Nat := c.text.size - c.pos

/-- No byte is left. -/
def atEnd (c : Cursor) : Bool := c.text.size ≤ c.pos

/-- The next byte. -/
def peek (c : Cursor) : Option UInt8 := c.text[c.pos]?

/-- The next bytes, up to a number of them. -/
def ahead (c : Cursor) (n : Nat) : List UInt8 := (c.text.extract c.pos (c.pos + n)).toList

/-- Whether the bytes from the position on begin with the given ones. There are none, not even an
empty run, beyond the end. -/
def startsWith (c : Cursor) (expected : List UInt8) : Bool :=
  c.pos ≤ c.text.size && c.ahead expected.length == expected

/-- Moves on by a number of bytes. -/
def advance (c : Cursor) (n : Nat) : Cursor := { c with pos := c.pos + n }

/-- Takes the next byte. -/
def next (c : Cursor) : Option UInt8 × Cursor :=
  match c.peek with
  | some b => (some b, c.advance 1)
  | none => (none, c)

/-- The character that begins at the position. Within a character there is none. -/
def char? (c : Cursor) : Option Char :=
  if Text.isBoundary c.text c.pos then Text.firstChar? (c.ahead 4) else none

/-- Takes the next character. -/
def nextChar (c : Cursor) : Option Char × Cursor :=
  match c.char? with
  | some ch => (some ch, c.advance ch.utf8Size)
  | none => (none, c)

theorem left_advance_lt {c : Cursor} {b : UInt8} (here : c.peek = some b) {n : Nat} (moves : 0 < n) :
    (c.advance n).left < c.left := by
  obtain ⟨within, -⟩ := Array.getElem?_eq_some_iff.1 here
  simp only [left, advance]
  omega

/-- Moves on over the longest run of bytes of a class. -/
def skipWhile (p : UInt8 → Bool) (c : Cursor) : Cursor :=
  match _here : c.peek with
  | some b => if p b then skipWhile p (c.advance 1) else c
  | none => c
termination_by c.left
decreasing_by exact left_advance_lt _here Nat.one_pos

/-- Moves on over ASCII white space. -/
def skipSpace (c : Cursor) : Cursor := c.skipWhile Text.isSpaceByte

/-- Moves on behind the end of the line. -/
def skipLine (c : Cursor) : Cursor := (c.skipWhile (· != Text.byte '\n')).next.2

/-- Takes the longest run of bytes that can make up a plain key. -/
def takeKey (c : Cursor) : String × Cursor :=
  let stop := c.skipWhile isKeyByte
  (String.ofList (Text.decodeLossy (c.text.extract c.pos stop.pos).toList), stop)

/-- Moves on to the next place where the given bytes stand, or else to the end. -/
def seek (needle : List UInt8) (c : Cursor) : Except Cursor Cursor :=
  if c.startsWith needle then .ok c
  else
    match _here : c.peek with
    | some _ => seek needle (c.advance 1)
    | none => .error c
termination_by c.left
decreasing_by exact left_advance_lt _here Nat.one_pos

/-! ## Moving on -/

/-- A cursor that moved on in the same text, or stayed. -/
structure Follows (c c' : Cursor) : Prop where
  text : c'.text = c.text
  pos : c.pos ≤ c'.pos

namespace Follows

theorem refl (c : Cursor) : c.Follows c := ⟨rfl, Nat.le_refl _⟩

theorem trans {c c' c'' : Cursor} (first : c.Follows c') (second : c'.Follows c'') : c.Follows c'' :=
  ⟨second.text.trans first.text, Nat.le_trans first.pos second.pos⟩

theorem advance (c : Cursor) (n : Nat) : c.Follows (c.advance n) := ⟨rfl, Nat.le_add_right _ _⟩

theorem left_le {c c' : Cursor} (follows : c.Follows c') : c'.left ≤ c.left := by
  have moved := follows.pos
  simp only [left, follows.text]
  omega

/-- Whoever moved on behind a byte has fewer of them left. -/
theorem left_lt {c c' : Cursor} (behind : (c.advance 1).Follows c') (more : c.pos < c.text.size) :
    c'.left < c.left := by
  have moved := behind.pos
  simp only [left, behind.text, Cursor.advance] at *
  omega

end Follows

theorem follows_skipWhile (p : UInt8 → Bool) (c : Cursor) : c.Follows (c.skipWhile p) := by
  fun_induction skipWhile p c with
  | case1 c b here holds ih => exact (Follows.advance c 1).trans ih
  | case2 c b here fails => exact .refl c
  | case3 c here => exact .refl c

theorem follows_next (c : Cursor) : c.Follows c.next.2 := by
  unfold next
  split
  · exact .advance c 1
  · exact .refl c

/-- The end of a line is behind its first byte. -/
theorem follows_skipLine {c : Cursor} {b : UInt8} (here : c.peek = some b) :
    (c.advance 1).Follows c.skipLine := by
  by_cases newline : b = Text.byte '\n'
  · have stays : c.skipWhile (· != Text.byte '\n') = c := by
      rw [skipWhile.eq_def]
      split
      · rename_i b' same
        obtain rfl : b = b' := Option.some.inj (here.symm.trans same)
        simp [newline]
      · rfl
    rw [skipLine, stays, next, here]
    exact .refl _
  · have moves : c.skipWhile (· != Text.byte '\n') =
        (c.advance 1).skipWhile (· != Text.byte '\n') := by
      rw [skipWhile.eq_def]
      split
      · rename_i b' same
        obtain rfl : b = b' := Option.some.inj (here.symm.trans same)
        simp [newline]
      · rename_i none
        rw [here] at none
        cases none
    rw [skipLine, moves]
    exact (follows_skipWhile _ _).trans (follows_next _)

theorem follows_of_seek {needle : List UInt8} {c c' : Cursor} (found : c.seek needle = .ok c') :
    c.Follows c' := by
  fun_induction seek needle c with
  | case1 c here => cases found; exact .refl _
  | case2 c later b here ih => exact (Follows.advance c 1).trans (ih found)
  | case3 c later none => cases found

theorem follows_nextChar (c : Cursor) : c.Follows c.nextChar.2 := by
  unfold nextChar
  split
  · exact .advance c _
  · exact .refl c

/-- Where more than nothing stands, a byte is left. -/
theorem exists_peek_of_startsWith {c : Cursor} {b : UInt8} {expected : List UInt8}
    (starts : c.startsWith (b :: expected) = true) : c.peek = some b := by
  simp only [startsWith, Bool.and_eq_true, beq_iff_eq, ahead] at starts
  have first := congrArg List.head? starts.2
  have within : c.pos < c.text.size := by
    refine Nat.lt_of_not_le fun beyond => ?_
    have none := congrArg List.length starts.2
    simp only [Array.length_toList, Array.size_extract, List.length_cons] at none
    omega
  rw [peek, Array.getElem?_eq_getElem within]
  rw [List.head?_eq_getElem?, Array.getElem?_toList, Array.getElem?_extract] at first
  have both : 0 < min (c.pos + (expected.length + 1)) c.text.size - c.pos ∧ c.text[c.pos] = b := by
    simpa [within] using first
  rw [both.2]

end Cursor

end SnapshotPreview.SnapFile

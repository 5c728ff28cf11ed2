/-!
# Space between the parts of a document

Blanks, ends of lines and comments. Nothing here makes the text longer.
-/

namespace SnapshotPreview.Toml

/-- A reader gives what it read and the text after it, unless the text is not as it must be. -/
abbrev Reader (α : Type) := List Char → Option (α × List Char)

/-- A space or a tab. -/
def isBlank (c : Char) : Bool := c == ' ' || c == '\t'

/-- A character that may stand for itself in comments and strings: a tab, and all but controls. -/
def isPlain (c : Char) : Bool := c == '\t' || (0x20 ≤ c.toNat && c.toNat != 0x7f)

/-- The text after blanks. -/
def skipBlanks (cs : List Char) : List Char := cs.dropWhile isBlank

/-- The text after the end of a line: a line feed, which a carriage return may precede. -/
def afterNewline? : List Char → Option (List Char)
  | '\n' :: rest => some rest
  | '\r' :: '\n' :: rest => some rest
  | _ => none

/-- The text after a comment, if there is one. It goes on to the end of the line. -/
def skipComment : List Char → List Char
  | '#' :: rest => rest.dropWhile isPlain
  | cs => cs

theorem length_skipBlanks_le (cs : List Char) : (skipBlanks cs).length ≤ cs.length :=
  (List.dropWhile_sublist (l := cs) isBlank).length_le

theorem length_lt_of_afterNewline? {cs rest : List Char} (h : afterNewline? cs = some rest) :
    rest.length < cs.length := by
  unfold afterNewline? at h
  split at h
  · cases h; simp
  · cases h; simp only [List.length_cons]; omega
  · cases h

theorem length_skipComment_le (cs : List Char) : (skipComment cs).length ≤ cs.length := by
  unfold skipComment
  split
  · rename_i rest
    have := (List.dropWhile_sublist (l := rest) isPlain).length_le
    simp only [List.length_cons]
    omega
  · exact Nat.le_refl _

/-- The text after a line of which nothing counts any more. -/
def endLine? (cs : List Char) : Option (List Char) :=
  match skipComment (skipBlanks cs) with
  | [] => some []
  | rest => afterNewline? rest

/-- The text after blanks and ends of lines. -/
def skipLines (cs : List Char) : List Char :=
  match _h : afterNewline? (skipBlanks cs) with
  | some rest => skipLines rest
  | none => skipBlanks cs
termination_by cs.length
decreasing_by
  have := length_lt_of_afterNewline? _h
  have := length_skipBlanks_le cs
  omega

/-- The text after blanks, ends of lines and comments. -/
def skipGap (cs : List Char) : List Char :=
  match _h : skipComment (skipBlanks cs) with
  | [] => []
  | c :: rest =>
    match _hn : afterNewline? (c :: rest) with
    | some rest => skipGap rest
    | none => skipBlanks cs
termination_by cs.length
decreasing_by
  have := length_lt_of_afterNewline? _hn
  have := length_skipBlanks_le cs
  have h := length_skipComment_le (skipBlanks cs)
  rw [_h] at h
  omega

end SnapshotPreview.Toml

import SnapshotPreview.Except
import SnapshotPreview.Record
import SnapshotPreview.SnapFile.Cursor
import SnapshotPreview.SnapFile.Error

/-!
# Reading a file of snapshots

A file of snapshots is a list of assignments to `exports`, each with a quoted key in brackets or a
plain key after a dot, and a quoted value. White space and comments may stand between any two
tokens. One cursor goes through the text: by bytes over white space, comments and plain keys, and by
whole characters within quotes. Every reader gives the cursor behind what it read.
-/

namespace SnapshotPreview.SnapFile

/-- Why a reader stopped, with the cursor as it then stood. -/
structure Failure where
  error : Error
  cursor : Cursor
deriving DecidableEq, Repr

/-- The character that a backslash and another one stand for. -/
def unescape (c : Char) : Char :=
  if c = 'n' then '\n'
  else if c = 't' then '\t'
  else if c = 'r' then '\r'
  else if c = '0' then '\x00'
  else c

/-- The byte of a backtick, a single quote or a double quote. -/
def isQuoteByte (b : UInt8) : Bool :=
  b == Text.byte '\x60' || b == Text.byte '\x27' || b == Text.byte '"'

/-- The word that begins every assignment. -/
def exportsWord : List Char := ['e', 'x', 'p', 'o', 'r', 't', 's']

namespace Cursor

/-- What is wrong where something else was expected: the character that stands there, or else the
end of the text. -/
def unexpected (c : Cursor) (expected : Expected) : Failure where
  error :=
    match c.char? with
    | some found => .unexpected c.pos found expected
    | none => .unexpectedEnd expected
  cursor := c

/-! ## Comments and white space -/

/-- Goes on to what is neither white space nor a comment. -/
def skipTrivia (c : Cursor) : Except Failure Cursor :=
  let start := c.skipSpace
  if _line : start.startsWith [Text.byte '/', Text.byte '/'] then skipTrivia start.skipLine
  else if _block : start.startsWith [Text.byte '/', Text.byte '*'] then
    match _closed : (start.advance 2).seek [Text.byte '*', Text.byte '/'] with
    | .ok stop => skipTrivia (stop.advance 2)
    | .error stop => .error { error := .unterminatedComment start.pos, cursor := stop }
  else .ok start
termination_by c.left
decreasing_by
  · have here := exists_peek_of_startsWith _line
    have behind : (start.advance 1).Follows start.skipLine := follows_skipLine here
    have moved := behind.left_lt (Array.getElem?_eq_some_iff.1 here).1
    have before := (follows_skipWhile Text.isSpaceByte c).left_le
    exact Nat.lt_of_lt_of_le moved before
  · have here := exists_peek_of_startsWith _block
    have found : (start.advance 2).Follows stop := follows_of_seek _closed
    have behind : (start.advance 1).Follows (stop.advance 2) :=
      ((Follows.advance (start.advance 1) 1).trans found).trans (.advance stop 2)
    have moved := behind.left_lt (Array.getElem?_eq_some_iff.1 here).1
    have before := (follows_skipWhile Text.isSpaceByte c).left_le
    exact Nat.lt_of_lt_of_le moved before

/-! ## Literals -/

theorem left_lt_of_nextChar {c c' : Cursor} {ch : Char} (taken : c.nextChar = (some ch, c')) :
    c'.left < c.left := by
  unfold nextChar at taken
  split at taken
  · rename_i found here
    cases taken
    have more : c.pos < c.text.size := by
      refine Nat.lt_of_not_le fun beyond => ?_
      have nothing : c.ahead 4 = [] := by
        simp only [ahead, Array.toList_eq_nil_iff, Array.extract_eq_empty_iff]
        omega
      simp [char?, nothing, Text.firstChar?] at here
    have wide := ch.utf8Size_pos
    simp only [left, advance]
    omega
  · cases taken

/-- The characters of a literal up to its closing quote, with escapes undone. -/
def readChars (quote : UInt8) (c : Cursor) : Except Cursor (List Char × Cursor) :=
  match _first : c.nextChar with
  | (none, stop) => .error stop
  | (some ch, c₁) =>
    if ch = '\\' then
      match _second : c₁.nextChar with
      | (none, stop) => .error stop
      | (some escaped, c₂) =>
        (readChars quote c₂).map fun (cs, stop) => (unescape escaped :: cs, stop)
    else if ch.toNat = quote.toNat then .ok ([], c₁)
    else (readChars quote c₁).map fun (cs, stop) => (ch :: cs, stop)
termination_by c.left
decreasing_by
  · exact Nat.lt_trans (left_lt_of_nextChar _second) (left_lt_of_nextChar _first)
  · exact left_lt_of_nextChar _first

/-- A quoted literal. -/
def readLiteral (c : Cursor) : Except Failure (String × Cursor) :=
  match c.peek with
  | none => .error (c.unexpected .literal)
  | some quote =>
    if isQuoteByte quote then
      match (c.advance 1).readChars quote with
      | .ok (value, stop) => .ok (String.ofList value, stop)
      | .error stop => .error { error := .unterminatedString c.pos, cursor := stop }
    else .error (c.unexpected .literal)

/-! ## Assignments -/

/-- One given byte. -/
def expect (b : UInt8) (expected : Expected) (c : Cursor) : Except Failure Cursor :=
  if c.peek = some b then .ok (c.advance 1) else .error (c.unexpected expected)

/-- The key of an assignment, in brackets or after a dot. -/
def readKey (c : Cursor) : Except Failure (String × Cursor) :=
  if c.peek = some (Text.byte '[') then do
    let (key, c) ← readLiteral (← skipTrivia (c.advance 1))
    return (key, ← expect (Text.byte ']') .closingBracket (← skipTrivia c))
  else if c.peek = some (Text.byte '.') then do
    let (key, stop) := (← skipTrivia (c.advance 1)).takeKey
    if key.isEmpty then .error (stop.unexpected .propertyName) else return (key, stop)
  else .error (c.unexpected .accessor)

/-- Moves on behind a semicolon, if there is one. -/
def skipSemicolon (c : Cursor) : Cursor :=
  if c.peek = some (Text.byte ';') then c.advance 1 else c

/-- An assignment: its key and its value. -/
def readAssignment (c : Cursor) : Except Failure ((String × String) × Cursor) :=
  if c.startsWith (exportsWord.map Text.byte) then do
    let (key, c) ← readKey (← skipTrivia (c.advance exportsWord.length))
    let c ← expect (Text.byte '=') .equalsSign (← skipTrivia c)
    let (value, c) ← readLiteral (← skipTrivia c)
    return ((key, value), skipSemicolon (← skipTrivia c))
  else .error (c.unexpected .exports)

/-! ## Moving on -/

theorem follows_of_skipTrivia {c c' : Cursor} (read : c.skipTrivia = .ok c') : c.Follows c' := by
  fun_induction skipTrivia c with
  | case1 c start line ih =>
    have behind := follows_skipLine (exists_peek_of_startsWith line)
    exact (follows_skipWhile _ c).trans (((Follows.advance start 1).trans behind).trans (ih read))
  | case2 c start line block stop closed ih =>
    have found := (Follows.advance start 2).trans (follows_of_seek closed)
    exact (follows_skipWhile _ c).trans ((found.trans (.advance stop 2)).trans (ih read))
  | case3 => cases read
  | case4 c start line block =>
    rw [← Except.ok.inj read]
    exact follows_skipWhile _ c

theorem follows_of_nextChar {c c' : Cursor} {found : Option Char} (taken : c.nextChar = (found, c')) :
    c.Follows c' := by
  have follows := follows_nextChar c
  rwa [taken] at follows

theorem follows_of_readChars {quote : UInt8} {c c' : Cursor} {value : List Char}
    (read : c.readChars quote = .ok (value, c')) : c.Follows c' := by
  fun_induction readChars quote c generalizing value with
  | case1 => cases read
  | case2 => cases read
  | case3 c c₁ escaped c₂ second first ih =>
    obtain ⟨⟨more, stop⟩, later, same⟩ := map_eq_ok.1 read
    cases same
    exact ((follows_of_nextChar first).trans (follows_of_nextChar second)).trans (ih later)
  | case4 c ch c₁ first =>
    cases read
    exact follows_of_nextChar first
  | case5 c ch c₁ first plain notQuote ih =>
    obtain ⟨⟨more, stop⟩, later, same⟩ := map_eq_ok.1 read
    cases same
    exact (follows_of_nextChar first).trans (ih later)

theorem follows_of_readLiteral {c c' : Cursor} {value : String}
    (read : c.readLiteral = .ok (value, c')) : c.Follows c' := by
  unfold readLiteral at read
  split at read
  · cases read
  · split at read
    · split at read
      · rename_i chars stop closed
        cases read
        exact (Follows.advance c 1).trans (follows_of_readChars closed)
      · cases read
    · cases read

theorem follows_of_expect {b : UInt8} {expected : Expected} {c c' : Cursor}
    (read : c.expect b expected = .ok c') : c.Follows c' := by
  unfold expect at read
  split at read
  · cases read
    exact .advance c 1
  · cases read

theorem follows_of_readKey {c c' : Cursor} {key : String} (read : c.readKey = .ok (key, c')) :
    c.Follows c' := by
  unfold readKey at read
  split at read
  · obtain ⟨c₁, skipped, read⟩ := bind_eq_ok.1 read
    obtain ⟨⟨value, c₂⟩, readValue, read⟩ := bind_eq_ok.1 read
    obtain ⟨c₃, skipped', read⟩ := bind_eq_ok.1 read
    obtain ⟨c₄, closed, read⟩ := bind_eq_ok.1 read
    cases read
    have before := (Follows.advance c 1).trans (follows_of_skipTrivia skipped)
    have behind := (follows_of_skipTrivia skipped').trans (follows_of_expect closed)
    exact (before.trans (follows_of_readLiteral readValue)).trans behind
  split at read
  · obtain ⟨c₁, skipped, read⟩ := bind_eq_ok.1 read
    dsimp only at read
    split at read
    · cases read
    · cases read
      have before := (Follows.advance c 1).trans (follows_of_skipTrivia skipped)
      exact before.trans (follows_skipWhile _ c₁)
  · cases read

theorem follows_skipSemicolon (c : Cursor) : c.Follows c.skipSemicolon := by
  unfold skipSemicolon
  split
  · exact .advance c 1
  · exact .refl c

/-- Behind an assignment the cursor stands behind its first byte. -/
theorem follows_of_readAssignment {c c' : Cursor} {pair : String × String}
    (read : c.readAssignment = .ok (pair, c')) : (c.advance 1).Follows c' := by
  unfold readAssignment at read
  split at read
  · obtain ⟨c₁, skipped₁, read⟩ := bind_eq_ok.1 read
    obtain ⟨⟨key, c₂⟩, readKey, read⟩ := bind_eq_ok.1 read
    obtain ⟨c₃, skipped₃, read⟩ := bind_eq_ok.1 read
    obtain ⟨c₄, equals, read⟩ := bind_eq_ok.1 read
    obtain ⟨c₅, skipped₅, read⟩ := bind_eq_ok.1 read
    obtain ⟨⟨value, c₆⟩, readValue, read⟩ := bind_eq_ok.1 read
    obtain ⟨c₇, skipped₇, read⟩ := bind_eq_ok.1 read
    cases read
    have word : (c.advance 1).Follows (c.advance exportsWord.length) :=
      ⟨rfl, by simp [advance, exportsWord]⟩
    have key := (word.trans (follows_of_skipTrivia skipped₁)).trans (follows_of_readKey readKey)
    have sign := (follows_of_skipTrivia skipped₃).trans (follows_of_expect equals)
    have value := (follows_of_skipTrivia skipped₅).trans (follows_of_readLiteral readValue)
    have semicolon := (follows_of_skipTrivia skipped₇).trans (follows_skipSemicolon c₇)
    exact ((key.trans sign).trans value).trans semicolon
  · cases read

/-! ## Files -/

/-- All assignments of a text, in order. -/
def readAll (c : Cursor) : Except Failure (List (String × String)) :=
  match _skipped : c.skipTrivia with
  | .error failure => .error failure
  | .ok start =>
    if _ended : start.atEnd then .ok []
    else
      match _read : start.readAssignment with
      | .error failure => .error failure
      | .ok (pair, stop) => (readAll stop).map (pair :: ·)
termination_by c.left
decreasing_by
  have more : start.pos < start.text.size := by simpa [atEnd] using _ended
  have behind := (follows_of_readAssignment _read).left_lt more
  exact Nat.lt_of_lt_of_le behind (follows_of_skipTrivia _skipped).left_le

end Cursor

/-- Reads a file of snapshots. Assignments take effect in order. -/
def parse (text : String) : Except Error Record :=
  match (Cursor.ofText text).readAll with
  | .ok pairs => .ok (.ofPairs pairs)
  | .error failure => .error failure.error

end SnapshotPreview.SnapFile

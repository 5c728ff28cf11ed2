import SnapshotPreview.SnapFile.Parser
import SnapshotPreview.Text.Affix

/-!
# Files of snapshots as characters

The same readers over the characters of a text. Each gives the characters after what it read, which
end the text it was given. They know nothing of bytes and positions; what a cursor in the bytes does
is told by them.
-/

namespace SnapshotPreview.SnapFile

/-- Why a reader stopped, with the text at which the trouble begins. -/
inductive Stop where
  | unexpected (rest : List Char) (expected : Expected)
  | unterminatedString (rest : List Char)
  | unterminatedComment (rest : List Char)
deriving DecidableEq, Repr

/-! ## Comments and white space -/

/-- The text after the end of a line. -/
def afterLine : List Char → List Char
  | [] => []
  | c :: rest => if c = '\n' then rest else afterLine rest

/-- The text after the end of a block comment. -/
def afterComment? : List Char → Option (List Char)
  | '*' :: '/' :: rest => some rest
  | _ :: rest => afterComment? rest
  | [] => none

theorem suffix_afterLine (cs : List Char) : afterLine cs <:+ cs := by
  induction cs with
  | nil => exact List.suffix_rfl
  | cons c rest ih =>
    rw [afterLine]
    split
    · exact List.suffix_cons c rest
    · exact ih.trans (List.suffix_cons c rest)

theorem afterLine_eq_tail (cs : List Char) : afterLine cs = (cs.dropWhile (· != '\n')).tail := by
  induction cs with
  | nil => rfl
  | cons c rest ih =>
    by_cases isEnd : c = '\n'
    · simp [afterLine, isEnd]
    · simp [afterLine, isEnd, ih]

theorem suffix_closed_of_afterComment? {cs rest : List Char}
    (closed : afterComment? cs = some rest) : '*' :: '/' :: rest <:+ cs := by
  fun_induction afterComment? cs with
  | case1 r =>
    cases closed
    exact List.suffix_rfl
  | case2 c r _ ih => exact (ih closed).trans (List.suffix_cons c r)
  | case3 => cases closed

theorem suffix_of_afterComment? {cs rest : List Char} (closed : afterComment? cs = some rest) :
    rest <:+ cs :=
  List.IsSuffix.trans ⟨['*', '/'], rfl⟩ (suffix_closed_of_afterComment? closed)

/-- The text after white space and comments. -/
def skipTrivia (cs : List Char) : Except Stop (List Char) :=
  match _h : cs.dropWhile Text.isSpace with
  | '/' :: '/' :: rest => skipTrivia (afterLine rest)
  | '/' :: '*' :: rest =>
    match _hc : afterComment? rest with
    | some rest => skipTrivia rest
    | none => .error (.unterminatedComment ('/' :: '*' :: rest))
  | rest => .ok rest
termination_by cs.length
decreasing_by
  · have blank := (List.dropWhile_suffix (l := cs) Text.isSpace).length_le
    have line := (suffix_afterLine rest).length_le
    simp only [_h, List.length_cons] at *
    omega
  · have blank := (List.dropWhile_suffix (l := cs) Text.isSpace).length_le
    have block := (suffix_of_afterComment? _hc).length_le
    simp only [_h, List.length_cons] at *
    omega

theorem suffix_of_skipTrivia {cs rest : List Char} (skipped : skipTrivia cs = .ok rest) :
    rest <:+ cs := by
  fun_induction skipTrivia cs with
  | case1 cs comment starts ih =>
    have mark : comment <:+ '/' :: '/' :: comment := ⟨['/', '/'], rfl⟩
    exact ((ih skipped).trans ((suffix_afterLine comment).trans mark)).trans
      (starts ▸ List.dropWhile_suffix _)
  | case2 cs comment starts after closed ih =>
    have mark : comment <:+ '/' :: '*' :: comment := ⟨['/', '*'], rfl⟩
    exact ((ih skipped).trans ((suffix_of_afterComment? closed).trans mark)).trans
      (starts ▸ List.dropWhile_suffix _)
  | case3 => cases skipped
  | case4 cs =>
    cases skipped
    exact List.dropWhile_suffix _

/-! ## Literals -/

/-- A backtick, a single quote or a double quote. -/
def isQuote (c : Char) : Bool := c == '\x60' || c == '\x27' || c == '"'

/-- The characters of a literal up to its closing quote, with escapes undone. -/
def readChars (quote : Char) : List Char → Option (List Char × List Char)
  | [] => none
  | c :: rest =>
    if c = '\\' then
      match rest with
      | [] => none
      | escaped :: rest =>
        (readChars quote rest).map fun (cs, rest) => (unescape escaped :: cs, rest)
    else if c = quote then some ([], rest)
    else (readChars quote rest).map fun (cs, rest) => (c :: cs, rest)

theorem suffix_of_readChars {quote : Char} {cs value rest : List Char}
    (read : readChars quote cs = some (value, rest)) : rest <:+ cs := by
  fun_induction readChars quote cs generalizing value with
  | case1 => cases read
  | case2 => cases read
  | case3 c cs ih =>
    obtain ⟨⟨more, left⟩, later, same⟩ := Option.map_eq_some_iff.1 read
    cases same
    exact (ih later).trans ⟨['\\', c], rfl⟩
  | case4 =>
    cases read
    exact List.suffix_cons _ _
  | case5 c cs _ _ ih =>
    obtain ⟨⟨more, left⟩, later, same⟩ := Option.map_eq_some_iff.1 read
    cases same
    exact (ih later).trans (List.suffix_cons c cs)

/-- A quoted literal. -/
def readLiteral (cs : List Char) : Except Stop (String × List Char) :=
  match cs with
  | [] => .error (.unexpected cs .literal)
  | quote :: rest =>
    if isQuote quote then
      match readChars quote rest with
      | some (value, rest) => .ok (String.ofList value, rest)
      | none => .error (.unterminatedString cs)
    else .error (.unexpected cs .literal)

theorem suffix_of_readLiteral {cs rest : List Char} {value : String}
    (read : readLiteral cs = .ok (value, rest)) : rest <:+ cs := by
  cases cs with
  | nil => cases read
  | cons quote cs =>
    simp only [readLiteral] at read
    split at read
    · split at read
      · rename_i closed
        cases read
        exact (suffix_of_readChars closed).trans (List.suffix_cons quote cs)
      · cases read
    · cases read

/-! ## Assignments -/

/-- One given character. -/
def expect (c : Char) (expected : Expected) (cs : List Char) : Except Stop (List Char) :=
  match cs with
  | d :: rest => if d = c then .ok rest else .error (.unexpected cs expected)
  | [] => .error (.unexpected cs expected)

theorem eq_cons_of_expect {c : Char} {expected : Expected} {cs rest : List Char}
    (read : expect c expected cs = .ok rest) : cs = c :: rest := by
  cases cs with
  | nil => cases read
  | cons d cs =>
    simp only [expect] at read
    split at read
    · rename_i same
      cases read
      rw [same]
    · cases read

theorem suffix_of_expect {c : Char} {expected : Expected} {cs rest : List Char}
    (read : expect c expected cs = .ok rest) : rest <:+ cs := by
  rw [eq_cons_of_expect read]
  exact List.suffix_cons c rest

/-- The key of an assignment, in brackets or after a dot. -/
def readKey (cs : List Char) : Except Stop (String × List Char) :=
  match cs with
  | '[' :: rest => do
    let (key, rest) ← readLiteral (← skipTrivia rest)
    return (key, ← expect ']' .closingBracket (← skipTrivia rest))
  | '.' :: rest => do
    let rest ← skipTrivia rest
    let key := rest.takeWhile isKeyChar
    if key.isEmpty then .error (.unexpected rest .propertyName)
    else return (String.ofList key, rest.dropWhile isKeyChar)
  | _ => .error (.unexpected cs .accessor)

theorem suffix_of_readKey {cs rest : List Char} {key : String}
    (read : readKey cs = .ok (key, rest)) : rest <:+ cs := by
  unfold readKey at read
  split at read
  · rename_i tail
    obtain ⟨r₁, skipped₁, read⟩ := bind_eq_ok.1 read
    obtain ⟨⟨value, r₂⟩, readValue, read⟩ := bind_eq_ok.1 read
    obtain ⟨r₃, skipped₂, read⟩ := bind_eq_ok.1 read
    obtain ⟨r₄, closed, read⟩ := bind_eq_ok.1 read
    cases read
    have before := (suffix_of_skipTrivia skipped₁).trans (List.suffix_cons '[' tail)
    have behind := (suffix_of_expect closed).trans (suffix_of_skipTrivia skipped₂)
    exact (behind.trans (suffix_of_readLiteral readValue)).trans before
  · rename_i tail
    obtain ⟨next, skipped, read⟩ := bind_eq_ok.1 read
    dsimp only at read
    split at read
    · cases read
    · cases read
      have before := (suffix_of_skipTrivia skipped).trans (List.suffix_cons '.' tail)
      exact (List.dropWhile_suffix _).trans before
  · cases read

/-- The text after a semicolon, if there is one. -/
def skipSemicolon : List Char → List Char
  | ';' :: rest => rest
  | cs => cs

theorem suffix_skipSemicolon (cs : List Char) : skipSemicolon cs <:+ cs := by
  unfold skipSemicolon
  split
  · exact List.suffix_cons ';' _
  · exact List.suffix_rfl

/-- An assignment: its key and its value. -/
def readAssignment (cs : List Char) : Except Stop ((String × String) × List Char) := do
  match Text.afterPrefix? exportsWord cs with
  | none => .error (.unexpected cs .exports)
  | some rest =>
    let (key, rest) ← readKey (← skipTrivia rest)
    let rest ← expect '=' .equalsSign (← skipTrivia rest)
    let (value, rest) ← readLiteral (← skipTrivia rest)
    return ((key, value), skipSemicolon (← skipTrivia rest))

theorem suffix_of_readAssignment {cs rest : List Char} {pair : String × String}
    (read : readAssignment cs = .ok (pair, rest)) :
    ∃ tail, cs = exportsWord ++ tail ∧ rest <:+ tail := by
  unfold readAssignment at read
  split at read
  · cases read
  · rename_i tail begins
    obtain ⟨r₁, skipped₁, read⟩ := bind_eq_ok.1 read
    obtain ⟨⟨key, r₂⟩, readKey, read⟩ := bind_eq_ok.1 read
    obtain ⟨r₃, skipped₃, read⟩ := bind_eq_ok.1 read
    obtain ⟨r₄, equals, read⟩ := bind_eq_ok.1 read
    obtain ⟨r₅, skipped₅, read⟩ := bind_eq_ok.1 read
    obtain ⟨⟨value, r₆⟩, readValue, read⟩ := bind_eq_ok.1 read
    obtain ⟨r₇, skipped₇, read⟩ := bind_eq_ok.1 read
    cases read
    have key := (suffix_of_readKey readKey).trans (suffix_of_skipTrivia skipped₁)
    have sign := (suffix_of_expect equals).trans (suffix_of_skipTrivia skipped₃)
    have value := (suffix_of_readLiteral readValue).trans (suffix_of_skipTrivia skipped₅)
    have semicolon := (suffix_skipSemicolon r₇).trans (suffix_of_skipTrivia skipped₇)
    exact ⟨tail, Text.afterPrefix?_eq_some_iff.1 begins,
      semicolon.trans (value.trans (sign.trans key))⟩

/-! ## Files -/

/-- All assignments of a text, in order. -/
def readAll (cs : List Char) : Except Stop (List (String × String)) :=
  match _hs : skipTrivia cs with
  | .error stop => .error stop
  | .ok [] => .ok []
  | .ok (c :: rest) =>
    match _h : readAssignment (c :: rest) with
    | .error stop => .error stop
    | .ok (pair, rest) => (readAll rest).map (pair :: ·)
termination_by cs.length
decreasing_by
  have skipped := (suffix_of_skipTrivia _hs).length_le
  obtain ⟨tail, whole, isSuffix⟩ := suffix_of_readAssignment _h
  have read := isSuffix.length_le
  have width : exportsWord.length = 7 := rfl
  rw [whole, List.length_append] at skipped
  omega

end SnapshotPreview.SnapFile

import SnapshotPreview.Proofs.SnapFile.Boundaries

/-!
# Reading by bytes and by characters

Each reader over the bytes of a text does what the reader over its characters does, and where it is
called, ends or gives up its cursor stands before the characters that are left. So does the reader of
files (`readAll_ofText`).
-/

namespace SnapshotPreview.SnapFile

open Text (encode)

/-- The failure of a cursor where a reader over characters stops. What has no end was read to the end
of the text. -/
def Stop.failure (text : Array UInt8) : Stop → Failure
  | unexpected rest expected => (Cursor.before text rest).unexpected expected
  | unterminatedString rest =>
    { error := .unterminatedString (Cursor.before text rest).pos, cursor := .before text [] }
  | unterminatedComment rest =>
    { error := .unterminatedComment (Cursor.before text rest).pos, cursor := .before text [] }

/-- What a reader over characters gives, as a cursor in the bytes gives it. -/
def located {α β : Type} (text : Array UInt8) (f : α → β) : Except Stop α → Except Failure β
  | .ok a => .ok (f a)
  | .error stop => .error (stop.failure text)

theorem located_eq_ok {α β : Type} {text : Array UInt8} {f : α → β} {x : Except Stop α} {b : β} :
    located text f x = .ok b ↔ ∃ a, x = .ok a ∧ f a = b := by
  cases x with
  | ok a => simp [located]
  | error stop => simp [located]

/-- Two steps are one after the other in both. -/
theorem located_bind {α β γ δ : Type} {text : Array UInt8} {f : α → β} {f' : γ → δ}
    {x : Except Stop α} {g : α → Except Stop γ} {g' : β → Except Failure δ}
    (onward : ∀ a, x = .ok a → g' (f a) = located text f' (g a)) :
    (located text f x >>= g') = located text f' (x >>= g) := by
  cases x with
  | error stop => rfl
  | ok a => exact onward a rfl

/-- A value with the cursor behind it. -/
def behind {α : Type} (text : Array UInt8) (read : α × List Char) : α × Cursor :=
  (read.1, .before text read.2)

namespace Cursor

/-! ## Comments and white space -/

section
variable {c stop : Cursor}

theorem skipTrivia_of_line
    (line : c.skipSpace.startsWith [Text.byte '/', Text.byte '/'] = true) :
    c.skipTrivia = c.skipSpace.skipLine.skipTrivia := by
  rw [skipTrivia.eq_def]
  dsimp only
  rw [dif_pos line]

theorem skipTrivia_of_token
    (noLine : ¬ c.skipSpace.startsWith [Text.byte '/', Text.byte '/'] = true)
    (noBlock : ¬ c.skipSpace.startsWith [Text.byte '/', Text.byte '*'] = true) :
    c.skipTrivia = .ok c.skipSpace := by
  rw [skipTrivia.eq_def]
  dsimp only
  rw [dif_neg noLine, dif_neg noBlock]

section
variable (noLine : ¬ c.skipSpace.startsWith [Text.byte '/', Text.byte '/'] = true)
  (block : c.skipSpace.startsWith [Text.byte '/', Text.byte '*'] = true)
include noLine block

theorem skipTrivia_of_block
    (closed : (c.skipSpace.advance 2).seek [Text.byte '*', Text.byte '/'] = .ok stop) :
    c.skipTrivia = (stop.advance 2).skipTrivia := by
  rw [skipTrivia.eq_def]
  dsimp only
  rw [dif_neg noLine, dif_pos block, closed]

theorem skipTrivia_of_unclosed
    (unclosed : (c.skipSpace.advance 2).seek [Text.byte '*', Text.byte '/'] = .error stop) :
    c.skipTrivia = .error { error := .unterminatedComment c.skipSpace.pos, cursor := stop } := by
  rw [skipTrivia.eq_def]
  dsimp only
  rw [dif_neg noLine, dif_pos block, unclosed]

end

end

theorem block_before {text : Array UInt8} {comment : List Char}
    (ends : encode ('/' :: '*' :: comment) <:+ text.toList) :
    (¬ (before text ('/' :: '*' :: comment)).startsWith [Text.byte '/', Text.byte '/'] = true) ∧
      (before text ('/' :: '*' :: comment)).startsWith [Text.byte '/', Text.byte '*'] = true ∧
      (before text ('/' :: '*' :: comment)).advance 2 = before text comment ∧
      encode comment <:+ text.toList := by
  refine ⟨?_, (startsWith_before_iff ends (by decide)).mpr ⟨comment, rfl⟩,
    advance_before ['/', '*'] ends, ends_of_suffix ends ⟨['/', '*'], rfl⟩⟩
  rw [startsWith_before_iff ends (by decide)]
  simp

section
variable {text : Array UInt8} {rest : List Char} (ends : encode rest <:+ text.toList)
include ends

/-- Behind white space the cursor is before what follows there. -/
theorem skipSpace_before_of {next : List Char} (starts : rest.dropWhile Text.isSpace = next) :
    (before text rest).skipSpace = before text next ∧ encode next <:+ text.toList := by
  subst starts
  exact ⟨skipSpace_before ends, ends_of_suffix ends (List.dropWhile_suffix Text.isSpace)⟩

theorem skipTrivia_before :
    (before text rest).skipTrivia = located text (before text) (SnapFile.skipTrivia rest) := by
  fun_induction SnapFile.skipTrivia rest with
  | case1 rest comment starts ih =>
    obtain ⟨space, onward⟩ := skipSpace_before_of ends starts
    have line := (startsWith_before_iff onward (by decide)).mpr ⟨comment, rfl⟩
    rw [← space] at line
    rw [skipTrivia_of_line line, space, skipLine_before onward]
    exact ih (ends_of_suffix onward (suffix_afterLine ('/' :: '/' :: comment)))
  | case2 rest comment starts after closed ih =>
    obtain ⟨space, onward⟩ := skipSpace_before_of ends starts
    obtain ⟨noLine, block, mark, inside⟩ := block_before onward
    rw [← space] at noLine block mark
    have found := seek_before inside closed
    have last := ends_of_suffix inside (suffix_closed_of_afterComment? closed)
    have closing : (before text ('*' :: '/' :: after)).advance 2 = before text after :=
      advance_before ['*', '/'] last
    rw [← mark] at found
    rw [skipTrivia_of_block noLine block found, closing]
    exact ih (ends_of_suffix inside (suffix_of_afterComment? closed))
  | case3 rest comment starts unclosed =>
    obtain ⟨space, onward⟩ := skipSpace_before_of ends starts
    obtain ⟨noLine, block, mark, inside⟩ := block_before onward
    rw [← space] at noLine block mark
    have endless := seek_before_of_unclosed inside unclosed
    rw [← mark] at endless
    rw [skipTrivia_of_unclosed noLine block endless, space]
    rfl
  | case4 rest noLine noBlock =>
    obtain ⟨space, onward⟩ := skipSpace_before_of ends rfl
    rw [skipTrivia_of_token, space]
    · rfl
    · rw [space, startsWith_before_iff onward (by decide)]
      rintro ⟨comment, starts⟩
      exact noLine comment starts
    · rw [space, startsWith_before_iff onward (by decide)]
      rintro ⟨comment, starts⟩
      exact noBlock comment starts

end

/-! ## Literals -/

theorem isQuoteByte_eq {b : UInt8} {c : Char} (isIn : b ∈ String.utf8EncodeChar c) :
    isQuoteByte b = isQuote c := by
  have same (d : Char) (ascii : d.toNat < 128) : (b == Text.byte d) = (c == d) := by
    rw [Bool.eq_iff_iff, beq_iff_eq, beq_iff_eq]
    exact Text.eq_byte_iff isIn ascii
  rw [isQuoteByte, isQuote, same _ (by decide), same _ (by decide), same _ (by decide)]

theorem lt_of_isQuote {c : Char} (quotes : isQuote c = true) : c.toNat < 128 := by
  simp only [isQuote, Bool.or_eq_true, beq_iff_eq] at quotes
  rcases quotes with (rfl | rfl) | rfl
  all_goals decide

section
variable {text : Array UInt8} {rest : List Char} (ends : encode rest <:+ text.toList)
include ends

theorem readChars_before {quote : Char} (ascii : quote.toNat < 128) :
    (before text rest).readChars (Text.byte quote) =
      (SnapFile.readChars quote rest).elim (.error (before text []))
        (fun read => .ok (behind text read)) := by
  fun_induction SnapFile.readChars quote rest with
  | case1 =>
    rw [readChars.eq_def, nextChar_before_nil]
    rfl
  | case2 =>
    rw [readChars.eq_def, nextChar_before_cons ends]
    dsimp only
    rw [if_pos rfl, nextChar_before_nil]
    rfl
  | case3 c rest ih =>
    have inside := ends_of_suffix ends (List.suffix_cons '\\' (c :: rest))
    have onward := ih (ends_of_suffix inside (List.suffix_cons c rest))
    rw [readChars.eq_def, nextChar_before_cons ends]
    dsimp only
    rw [if_pos rfl, nextChar_before_cons inside]
    dsimp only
    rw [onward]
    cases SnapFile.readChars quote rest <;> rfl
  | case4 rest notBackslash =>
    rw [readChars.eq_def, nextChar_before_cons ends]
    dsimp only
    rw [if_neg notBackslash, if_pos (Text.toNat_byte ascii).symm]
    rfl
  | case5 c rest notBackslash notQuote ih =>
    have onward := ih (ends_of_suffix ends (List.suffix_cons c rest))
    have other : ¬ c.toNat = (Text.byte quote).toNat := by
      rw [Text.toNat_byte ascii, Char.toNat_inj]
      exact notQuote
    rw [readChars.eq_def, nextChar_before_cons ends]
    dsimp only
    rw [if_neg notBackslash, if_neg other, onward]
    cases SnapFile.readChars quote rest <;> rfl

theorem readLiteral_before :
    (before text rest).readLiteral = located text (behind text) (SnapFile.readLiteral rest) := by
  cases rest with
  | nil =>
    rw [readLiteral, (sees_before ends).peek]
    rfl
  | cons c rest =>
    obtain ⟨lead, more, bytes⟩ := List.exists_cons_of_ne_nil (String.utf8EncodeChar_ne_nil (c := c))
    have isIn : lead ∈ String.utf8EncodeChar c := by
      rw [bytes]
      exact List.mem_cons_self
    have peek := (sees_before ends).peek
    rw [Text.encode_cons, bytes, List.cons_append, List.head?_cons] at peek
    rw [readLiteral, peek]
    dsimp only
    rw [isQuoteByte_eq isIn, SnapFile.readLiteral]
    by_cases quotes : isQuote c = true
    · have ascii := lt_of_isQuote quotes
      have onward := ends_of_suffix ends (List.suffix_cons c rest)
      rw [if_pos quotes, if_pos quotes, (Text.eq_byte_iff isIn ascii).mpr rfl,
        advance_before_ascii ascii ends, readChars_before onward ascii]
      cases SnapFile.readChars c rest <;> rfl
    · rw [if_neg quotes, if_neg quotes]
      rfl

/-! ## Assignments -/

theorem expect_before {c : Char} (ascii : c.toNat < 128) (expected : Expected) :
    (before text rest).expect (Text.byte c) expected =
      located text (before text) (SnapFile.expect c expected rest) := by
  by_cases here : ∃ later, rest = c :: later
  · have peek := (peek_before_iff ends ascii).mpr here
    obtain ⟨later, rfl⟩ := here
    rw [expect, if_pos peek, advance_before_ascii ascii ends, SnapFile.expect, if_pos rfl]
    rfl
  · have peek := mt (peek_before_iff ends ascii).mp here
    rw [expect, if_neg peek]
    cases rest with
    | nil => rfl
    | cons d later =>
      have other : d ≠ c := fun same => here ⟨later, by rw [same]⟩
      rw [SnapFile.expect, if_neg other]
      rfl

theorem skipSemicolon_before :
    (before text rest).skipSemicolon = before text (SnapFile.skipSemicolon rest) := by
  by_cases here : ∃ later, rest = ';' :: later
  · have peek := (peek_before_iff ends (by decide)).mpr here
    obtain ⟨later, rfl⟩ := here
    rw [skipSemicolon, if_pos peek, advance_before_ascii (by decide) ends]
    rfl
  · have peek := mt (peek_before_iff ends (by decide)).mp here
    rw [skipSemicolon, if_neg peek, SnapFile.skipSemicolon]
    exact fun later starts => here ⟨later, starts⟩

end

theorem readKey_before_bracket {text : Array UInt8} {later : List Char}
    (ends : encode ('[' :: later) <:+ text.toList) :
    (before text ('[' :: later)).readKey =
      located text (behind text) (SnapFile.readKey ('[' :: later)) := by
  have peek := (peek_before_iff ends (by decide)).mpr ⟨later, rfl⟩
  have inside := ends_of_suffix ends (List.suffix_cons '[' later)
  rw [readKey, if_pos peek, advance_before_ascii (by decide) ends, skipTrivia_before inside]
  refine located_bind fun r₁ skipped₁ => ?_
  have ends₁ := ends_of_suffix inside (suffix_of_skipTrivia skipped₁)
  rw [readLiteral_before ends₁]
  refine located_bind fun (key, r₂) readValue => ?_
  have ends₂ := ends_of_suffix ends₁ (suffix_of_readLiteral readValue)
  dsimp only [behind]
  rw [skipTrivia_before ends₂]
  refine located_bind fun r₃ skipped₃ => ?_
  rw [expect_before (ends_of_suffix ends₂ (suffix_of_skipTrivia skipped₃)) (by decide)]
  exact located_bind fun r₄ _ => rfl

theorem readKey_before_dot {text : Array UInt8} {later : List Char}
    (ends : encode ('.' :: later) <:+ text.toList) :
    (before text ('.' :: later)).readKey =
      located text (behind text) (SnapFile.readKey ('.' :: later)) := by
  have peek := (peek_before_iff ends (by decide)).mpr ⟨later, rfl⟩
  have noBracket : (before text ('.' :: later)).peek ≠ some (Text.byte '[') := by
    rw [peek]
    decide
  have inside := ends_of_suffix ends (List.suffix_cons '.' later)
  rw [readKey, if_neg noBracket, if_pos peek, advance_before_ascii (by decide) ends,
    skipTrivia_before inside]
  refine located_bind fun r₁ skipped => ?_
  have ends₁ := ends_of_suffix inside (suffix_of_skipTrivia skipped)
  rw [takeKey_before ends₁]
  dsimp only
  by_cases nothing : r₁.takeWhile isKeyChar = []
  · have stays : r₁.dropWhile isKeyChar = r₁ := by
      have parts := List.takeWhile_append_dropWhile (p := isKeyChar) (l := r₁)
      rwa [nothing, List.nil_append] at parts
    simp only [nothing, stays]
    rfl
  · have found : (String.ofList (r₁.takeWhile isKeyChar)).isEmpty = false := by
      simpa using nothing
    rw [found, if_neg Bool.false_ne_true, if_neg (by simpa using nothing)]
    rfl

section
variable {text : Array UInt8} {rest : List Char} (ends : encode rest <:+ text.toList)
include ends

theorem readKey_before :
    (before text rest).readKey = located text (behind text) (SnapFile.readKey rest) := by
  by_cases bracket : ∃ later, rest = '[' :: later
  · obtain ⟨later, rfl⟩ := bracket
    exact readKey_before_bracket ends
  by_cases dot : ∃ later, rest = '.' :: later
  · obtain ⟨later, rfl⟩ := dot
    exact readKey_before_dot ends
  have noBracket := mt (peek_before_iff ends (c := '[') (by decide)).mp bracket
  have noDot := mt (peek_before_iff ends (c := '.') (by decide)).mp dot
  rw [readKey, if_neg noBracket, if_neg noDot, SnapFile.readKey]
  · rfl
  · exact fun later starts => bracket ⟨later, starts⟩
  · exact fun later starts => dot ⟨later, starts⟩

theorem readAssignment_before :
    (before text rest).readAssignment =
      located text (behind text) (SnapFile.readAssignment rest) := by
  have word : exportsWord.map Text.byte = encode exportsWord := by decide +kernel
  have starts : (before text rest).startsWith (encode exportsWord) = true ↔ exportsWord <+: rest :=
    (sees_before ends).startsWith_iff.trans Text.encode_prefix_iff
  rw [readAssignment, word]
  cases begins : Text.afterPrefix? exportsWord rest with
  | none =>
    have other : ¬ exportsWord <+: rest := by
      rintro ⟨later, parts⟩
      rw [Text.afterPrefix?_eq_some_iff.mpr parts.symm] at begins
      cases begins
    rw [if_neg (mt starts.mp other), SnapFile.readAssignment, begins]
    rfl
  | some later =>
    obtain rfl := Text.afterPrefix?_eq_some_iff.mp begins
    have onward :
        (before text (exportsWord ++ later)).advance exportsWord.length = before text later :=
      advance_before exportsWord ends
    have inside := ends_of_suffix ends (List.suffix_append exportsWord later)
    rw [if_pos (starts.mpr (List.prefix_append _ _)), onward, SnapFile.readAssignment, begins]
    rw [skipTrivia_before inside]
    refine located_bind fun r₁ skipped₁ => ?_
    have ends₁ := ends_of_suffix inside (suffix_of_skipTrivia skipped₁)
    rw [readKey_before ends₁]
    refine located_bind fun (key, r₂) readKey => ?_
    have ends₂ := ends_of_suffix ends₁ (suffix_of_readKey readKey)
    dsimp only [behind]
    rw [skipTrivia_before ends₂]
    refine located_bind fun r₃ skipped₃ => ?_
    have ends₃ := ends_of_suffix ends₂ (suffix_of_skipTrivia skipped₃)
    rw [expect_before ends₃ (by decide)]
    refine located_bind fun r₄ equals => ?_
    have ends₄ := ends_of_suffix ends₃ (suffix_of_expect equals)
    rw [skipTrivia_before ends₄]
    refine located_bind fun r₅ skipped₅ => ?_
    have ends₅ := ends_of_suffix ends₄ (suffix_of_skipTrivia skipped₅)
    rw [readLiteral_before ends₅]
    refine located_bind fun (value, r₆) readValue => ?_
    have ends₆ := ends_of_suffix ends₅ (suffix_of_readLiteral readValue)
    dsimp only [behind]
    rw [skipTrivia_before ends₆]
    refine located_bind fun r₇ skipped₇ => ?_
    rw [skipSemicolon_before (ends_of_suffix ends₆ (suffix_of_skipTrivia skipped₇))]
    rfl

/-! ## Files -/

theorem atEnd_before_iff : (before text rest).atEnd = true ↔ rest = [] := by
  have size : text.size = (before text rest).pos + (encode rest).length := (sees_before ends).size
  have here : (before text rest).text.size = text.size := rfl
  rw [Text.length_encode] at size
  rw [atEnd, decide_eq_true_iff, here]
  constructor
  · intro ended
    exact Text.eq_nil_of_byteLength (by omega)
  · rintro rfl
    rw [Text.byteLength] at size
    omega

theorem readAll_before :
    (before text rest).readAll = located text id (SnapFile.readAll rest) := by
  fun_induction SnapFile.readAll rest with
  | case1 rest stop skips =>
    rw [readAll.eq_def, skipTrivia_before ends, skips]
    rfl
  | case2 rest skipped =>
    have ended := (atEnd_before_iff (ends_nil text)).mpr rfl
    rw [readAll.eq_def, skipTrivia_before ends, skipped]
    dsimp only [located]
    rw [dif_pos ended]
    rfl
  | case3 rest c tail skipped stop stops =>
    have onward := ends_of_suffix ends (suffix_of_skipTrivia skipped)
    have more := mt (atEnd_before_iff onward).mp (List.cons_ne_nil c tail)
    rw [readAll.eq_def, skipTrivia_before ends, skipped]
    dsimp only [located]
    rw [dif_neg more, readAssignment_before onward, stops]
    rfl
  | case4 rest c tail skipped pair later read ih =>
    have onward := ends_of_suffix ends (suffix_of_skipTrivia skipped)
    have more := mt (atEnd_before_iff onward).mp (List.cons_ne_nil c tail)
    obtain ⟨front, whole, isSuffix⟩ := suffix_of_readAssignment read
    have inside := ends_of_suffix onward (whole ▸ List.suffix_append exportsWord front)
    have step := ih (ends_of_suffix inside isSuffix)
    rw [readAll.eq_def, skipTrivia_before ends, skipped]
    dsimp only [located]
    rw [dif_neg more, readAssignment_before onward, read]
    dsimp only [located, behind]
    rw [step]
    cases SnapFile.readAll later <;> rfl

end

end Cursor

/-- A cursor goes through the bytes of a text as the reader over characters goes through the text. -/
theorem readAll_ofText (text : String) :
    (Cursor.ofText text).readAll = located (Text.bytesOf text) id (readAll text.toList) := by
  have whole : (Text.bytesOf text).toList = encode ([] ++ text.toList) := Text.toList_bytesOf text
  have start : Cursor.ofText text = .before (Text.bytesOf text) text.toList :=
    congrArg (Cursor.mk _) (Cursor.pos_before whole).symm
  rw [start, Cursor.readAll_before (Cursor.ends_of_parts whole)]

theorem parse_eq_ok_iff_readAll {text : String} {record : Record} :
    parse text = .ok record ↔
      ∃ pairs, readAll text.toList = .ok pairs ∧ record = Record.ofPairs pairs := by
  rw [parse, readAll_ofText]
  cases readAll text.toList with
  | ok pairs => simp [located, eq_comm]
  | error stop => simp [located]

theorem parse_eq_error_iff_readAll {text : String} {error : Error} :
    parse text = .error error ↔
      ∃ stop, readAll text.toList = .error stop ∧
        error = (stop.failure (Text.bytesOf text)).error := by
  rw [parse, readAll_ofText]
  cases readAll text.toList with
  | ok pairs => simp [located]
  | error stop => simp [located, eq_comm]

end SnapshotPreview.SnapFile

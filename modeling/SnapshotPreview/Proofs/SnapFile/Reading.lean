import Mathlib.Tactic.ByContra
import SnapshotPreview.Proofs.SnapFile.ByteReading
import SnapshotPreview.Proofs.SnapFile.Grammar

/-!
# Every file of the grammar is read

Each reader, set before the text of a tree, gives what the tree stands for and the text after it.
The readers are taken in the order in which they call each other. Only the plain key and the
missing semicolon ask something of the text that follows.
-/

namespace SnapshotPreview.SnapFile

/-! ## Gaps -/

/-- One round of skipping, without the proofs that it ends. -/
theorem skipTrivia_eq (cs : List Char) : skipTrivia cs =
    match cs.dropWhile Text.isSpace with
    | '/' :: '/' :: rest => skipTrivia (afterLine rest)
    | '/' :: '*' :: rest =>
      match afterComment? rest with
      | some rest => skipTrivia rest
      | none => .error (.unterminatedComment ('/' :: '*' :: rest))
    | rest => .ok rest := by
  rw [skipTrivia]
  split
  · simp [*]
  · split <;> simp [*]
  · split <;> simp_all

theorem skipTrivia_space {c : Char} (blank : Text.isSpace c = true) (rest : List Char) :
    skipTrivia (c :: rest) = skipTrivia rest := by
  rw [skipTrivia_eq, List.dropWhile_cons_of_pos blank, ← skipTrivia_eq]

theorem skipTrivia_line (rest : List Char) :
    skipTrivia ('/' :: '/' :: rest) = skipTrivia (afterLine rest) := by
  rw [skipTrivia_eq, List.dropWhile_cons_of_neg (by decide)]
  rfl

theorem skipTrivia_block {body rest : List Char} (closed : afterComment? body = some rest) :
    skipTrivia ('/' :: '*' :: body) = skipTrivia rest := by
  rw [skipTrivia_eq, List.dropWhile_cons_of_neg (by decide)]
  simp [closed]

theorem skipTrivia_nil : skipTrivia [] = .ok [] := by
  rw [skipTrivia_eq]
  rfl

/-- Nothing is skipped before a token. -/
theorem skipTrivia_token {c : Char} (visible : Text.isSpace c = false) (noSlash : c ≠ '/')
    (rest : List Char) : skipTrivia (c :: rest) = .ok (c :: rest) := by
  rw [skipTrivia_eq, List.dropWhile_cons_of_neg (by simp [visible])]
  split
  · rename_i starts; exact absurd (List.cons.inj starts).1 noSlash
  · rename_i starts; exact absurd (List.cons.inj starts).1 noSlash
  · rfl

theorem afterLine_append {body : List Char} (oneLine : '\n' ∉ body) (rest : List Char) :
    afterLine (body ++ '\n' :: rest) = rest := by
  induction body with
  | nil => simp [afterLine]
  | cons c body ih =>
    rw [List.mem_cons, not_or] at oneLine
    simp [afterLine, Ne.symm oneLine.1, ih oneLine.2]

theorem afterLine_eq_nil {body : List Char} (oneLine : '\n' ∉ body) : afterLine body = [] := by
  induction body with
  | nil => rfl
  | cons c body ih =>
    rw [List.mem_cons, not_or] at oneLine
    simp [afterLine, Ne.symm oneLine.1, ih oneLine.2]

/-- A block comment ends where it is first closed, also when its body ends in a star. -/
theorem afterComment?_append {body : List Char} (unclosed : ¬ ['*', '/'] <:+: body)
    (rest : List Char) : afterComment? (body ++ '*' :: '/' :: rest) = some rest := by
  induction body with
  | nil => simp [afterComment?]
  | cons c body ih =>
    have later := ih (fun inside => unclosed (inside.trans (List.suffix_cons c body).isInfix))
    rw [List.cons_append, afterComment?]
    · exact later
    · intro more star slash
      cases body with
      | nil => exact absurd (List.cons.inj slash).1 (by decide)
      | cons d body =>
        have closes : d = '/' := (List.cons.inj slash).1
        exact unclosed ⟨[], body, by rw [star, closes]; rfl⟩

theorem skipTrivia_piece (piece : Trivia) (rest : List Char) :
    skipTrivia (piece.text ++ rest) = skipTrivia rest := by
  cases piece with
  | space c blank => exact skipTrivia_space blank rest
  | line body oneLine =>
    simp only [Trivia.text, List.cons_append, List.append_assoc, List.nil_append]
    rw [skipTrivia_line, afterLine_append oneLine]
  | block body unclosed =>
    simp only [Trivia.text, List.cons_append, List.append_assoc, List.nil_append]
    rw [skipTrivia_block (afterComment?_append unclosed rest)]

theorem skipTrivia_gap (gap : Gap) (rest : List Char) :
    skipTrivia (gap.text ++ rest) = skipTrivia rest := by
  induction gap with
  | nil => rfl
  | cons piece gap ih => rw [gap_text_cons, List.append_assoc, skipTrivia_piece, ih]

/-- A gap is skipped up to the token behind it. -/
theorem skipTrivia_gap_token (gap : Gap) {c : Char} (visible : Text.isSpace c = false)
    (noSlash : c ≠ '/') (rest : List Char) :
    skipTrivia (gap.text ++ c :: rest) = .ok (c :: rest) := by
  rw [skipTrivia_gap, skipTrivia_token visible noSlash]

theorem skipTrivia_lastLine (lastLine : Option { body : List Char // '\n' ∉ body }) :
    skipTrivia (lastLineText lastLine) = .ok [] := by
  cases lastLine with
  | none => exact skipTrivia_nil
  | some body => rw [lastLineText, skipTrivia_line, afterLine_eq_nil body.property, skipTrivia_nil]

/-! ## Literals -/

theorem quote_char_isQuote (quote : Quote) : isQuote quote.char = true := by cases quote <;> decide

theorem quote_char_visible (quote : Quote) : Text.isSpace quote.char = false := by
  cases quote <;> decide

theorem quote_char_ne_slash (quote : Quote) : quote.char ≠ '/' := by cases quote <;> decide

/-- The reader and the grammar agree on what an escaped character stands for. -/
theorem unescape_eq_char (quote : Quote) (c : Char) :
    unescape c = (Item.escape c : Item quote).char := by
  by_cases isN : c = 'n'
  · subst isN; rfl
  by_cases isT : c = 't'
  · subst isT; rfl
  by_cases isR : c = 'r'
  · subst isR; rfl
  by_cases isZero : c = '0'
  · subst isZero; rfl
  simp [unescape, Item.char, isN, isT, isR, isZero]

theorem readChars_close {quote : Char} (notBackslash : quote ≠ '\\') (rest : List Char) :
    readChars quote (quote :: rest) = some ([], rest) := by
  rw [readChars.eq_def]
  simp [notBackslash]

theorem readChars_plain {quote c : Char} (notQuote : c ≠ quote) (notBackslash : c ≠ '\\')
    (rest : List Char) : readChars quote (c :: rest) =
      (readChars quote rest).map fun (cs, rest) => (c :: cs, rest) := by
  rw [readChars.eq_def]
  simp [notBackslash, notQuote]

theorem readChars_escape (quote c : Char) (rest : List Char) :
    readChars quote ('\\' :: c :: rest) =
      (readChars quote rest).map fun (cs, rest) => (unescape c :: cs, rest) := by
  rw [readChars.eq_def]
  simp

theorem readChars_items {quote : Quote} (items : List (Item quote)) (rest : List Char) :
    readChars quote.char (items.flatMap Item.text ++ quote.char :: rest) =
      some (items.map Item.char, rest) := by
  induction items with
  | nil => exact readChars_close (quote_char_ne_backslash quote) rest
  | cons item items ih =>
    cases item with
    | plain c notQuote notBackslash =>
      have read := readChars_plain notQuote notBackslash (items.flatMap Item.text ++ quote.char :: rest)
      rw [ih] at read
      simpa [Item.text, Item.char] using read
    | escape c =>
      have read := readChars_escape quote.char c (items.flatMap Item.text ++ quote.char :: rest)
      rw [ih, unescape_eq_char quote] at read
      simpa [Item.text] using read

theorem readLiteral_text (literal : Literal) (rest : List Char) :
    readLiteral (literal.text ++ rest) = .ok (literal.value, rest) := by
  have read := readChars_items literal.items rest
  simp only [Literal.text, List.cons_append, List.append_assoc, List.nil_append, readLiteral,
    quote_char_isQuote, if_true, read, Literal.value]

theorem skipTrivia_gap_literal (gap : Gap) (literal : Literal) (rest : List Char) :
    skipTrivia (gap.text ++ (literal.text ++ rest)) = .ok (literal.text ++ rest) :=
  skipTrivia_gap_token gap (quote_char_visible literal.quote) (quote_char_ne_slash literal.quote) _

/-! ## Assignments -/

theorem isKeyChar_visible {c : Char} (plain : isKeyChar c = true) : Text.isSpace c = false := by
  by_contra blank
  simp only [Text.isSpace, Bool.not_eq_false, Bool.or_eq_true, beq_iff_eq] at blank
  rcases blank with (((rfl | rfl) | rfl) | rfl) | rfl <;> revert plain <;> decide

theorem isKeyChar_ne_slash {c : Char} (plain : isKeyChar c = true) : c ≠ '/' := by
  rintro rfl
  revert plain
  decide

/-- A plain key cannot run on into what stands before the equals sign. -/
theorem gap_equals_not_key (gap : Gap) (rest : List Char) :
    (gap.text ++ '=' :: rest).head?.all (fun c => !isKeyChar c) = true := by
  cases gap with
  | nil => rfl
  | cons piece gap =>
    cases piece with
    | space c blank =>
      have notKey : isKeyChar c = false := by
        by_contra plain
        rw [isKeyChar_visible (by simpa using plain)] at blank
        cases blank
      simp [Trivia.text, notKey]
    | line body oneLine => rfl
    | block body unclosed => rfl

theorem expect_token (c : Char) (expected : Expected) (rest : List Char) :
    expect c expected (c :: rest) = .ok rest := by simp [expect]

theorem takeWhile_key {key rest : List Char} (plain : ∀ c ∈ key, isKeyChar c = true)
    (ends : rest.head?.all (fun c => !isKeyChar c) = true) :
    (key ++ rest).takeWhile isKeyChar = key ∧ (key ++ rest).dropWhile isKeyChar = rest := by
  rw [List.takeWhile_append_of_pos plain, List.dropWhile_append_of_pos plain]
  cases rest with
  | nil => simp
  | cons c rest =>
    have notKey : isKeyChar c = false := by simpa using ends
    simp [notKey]

theorem readKey_text (accessor : Accessor) {rest : List Char}
    (ends : rest.head?.all (fun c => !isKeyChar c) = true) :
    readKey (accessor.text ++ rest) = .ok (accessor.key, rest) := by
  cases accessor with
  | brackets before key after =>
    simp only [Accessor.text, List.cons_append, List.append_assoc, List.nil_append, readKey]
    refine bind_eq_ok.mpr ⟨_, skipTrivia_gap_literal before key _, ?_⟩
    refine bind_eq_ok.mpr ⟨_, readLiteral_text key _, ?_⟩
    refine bind_eq_ok.mpr ⟨_, skipTrivia_gap_token after (by decide) (by decide) rest, ?_⟩
    exact bind_eq_ok.mpr ⟨_, expect_token ']' _ rest, rfl⟩
  | dot before key nonempty plain =>
    simp only [Accessor.text, List.cons_append, List.append_assoc, readKey]
    obtain ⟨taken, dropped⟩ := takeWhile_key plain ends
    refine bind_eq_ok.mpr ⟨key ++ rest, ?_, ?_⟩
    · cases key with
      | nil => exact absurd rfl nonempty
      | cons c key =>
        have first := plain c List.mem_cons_self
        exact skipTrivia_gap_token before (isKeyChar_visible first) (isKeyChar_ne_slash first) _
    · simp [taken, dropped, nonempty, Accessor.key, pure, Except.pure]

theorem skipTrivia_gap_accessor (gap : Gap) (accessor : Accessor) (rest : List Char) :
    skipTrivia (gap.text ++ (accessor.text ++ rest)) = .ok (accessor.text ++ rest) := by
  cases accessor with
  | brackets before key after => exact skipTrivia_gap_token gap (by decide) (by decide) _
  | dot before key nonempty plain => exact skipTrivia_gap_token gap (by decide) (by decide) _

/-- An assignment without a semicolon is read together with the gap after it, since the reader
looks for the semicolon behind that gap. -/
theorem readAssignment_text (a : Assignment) {rest next : List Char}
    (skipped : skipTrivia rest = .ok next) (noSemicolon : next.head? ≠ some ';') :
    readAssignment (a.text ++ rest) =
      .ok (a.pair, if a.semicolon.isSome then rest else next) := by
  have begins := Text.afterPrefix?_eq_some_iff (p := exportsWord) (l := a.text ++ rest).mpr
    (by rw [Assignment.text, List.append_assoc])
  rw [readAssignment, begins]
  simp only [List.append_assoc, List.cons_append]
  refine bind_eq_ok.mpr ⟨_, skipTrivia_gap_accessor a.beforeAccessor a.accessor _, ?_⟩
  refine bind_eq_ok.mpr ⟨_, readKey_text a.accessor (gap_equals_not_key a.beforeEquals _), ?_⟩
  refine bind_eq_ok.mpr ⟨_, skipTrivia_gap_token a.beforeEquals (by decide) (by decide) _, ?_⟩
  refine bind_eq_ok.mpr ⟨_, expect_token '=' _ _, ?_⟩
  refine bind_eq_ok.mpr ⟨_, skipTrivia_gap_literal a.beforeValue a.value _, ?_⟩
  refine bind_eq_ok.mpr ⟨_, readLiteral_text a.value _, ?_⟩
  cases a.semicolon with
  | some before =>
    simp only [semicolonText, List.append_assoc, List.cons_append, List.nil_append]
    exact bind_eq_ok.mpr ⟨_, skipTrivia_gap_token before (by decide) (by decide) rest, rfl⟩
  | none =>
    refine bind_eq_ok.mpr ⟨next, skipped, ?_⟩
    have kept : skipSemicolon next = next := by
      unfold skipSemicolon
      split
      · exact absurd rfl noSemicolon
      · rfl
    rw [kept]
    rfl

/-! ## Files -/

/-- What is left of a file after its first gap. -/
def Source.body : Source → List Char
  | .finish _ _ => []
  | .assign _ assignment rest => assignment.text ++ rest.text

theorem source_body_head (source : Source) :
    source.body = [] ∨ ∃ tail, source.body = 'e' :: tail := by
  cases source with
  | finish gap lastLine => exact .inl rfl
  | assign gap assignment rest => exact .inr ⟨_, rfl⟩

theorem skipTrivia_body (source : Source) : skipTrivia source.body = .ok source.body := by
  rcases source_body_head source with empty | ⟨tail, starts⟩
  · rw [empty, skipTrivia_nil]
  · rw [starts, skipTrivia_token (by decide) (by decide)]

theorem skipTrivia_source (source : Source) : skipTrivia source.text = .ok source.body := by
  cases source with
  | finish gap lastLine => rw [Source.text, skipTrivia_gap, skipTrivia_lastLine]; rfl
  | assign gap assignment rest =>
    rw [Source.text, skipTrivia_gap]
    exact skipTrivia_body (.assign gap assignment rest)

/-- One round of reading, without the proofs that it ends. -/
theorem readAll_eq (cs : List Char) : readAll cs =
    match skipTrivia cs with
    | .error stop => .error stop
    | .ok [] => .ok []
    | .ok (c :: rest) =>
      match readAssignment (c :: rest) with
      | .error stop => .error stop
      | .ok (pair, rest) => (readAll rest).map (pair :: ·) := by
  rw [readAll]
  split
  · simp [*]
  · simp [*]
  · split <;> simp [*]

/-- Reading starts by skipping, so texts that skip to the same place read the same. -/
theorem readAll_congr {first second : List Char} (same : skipTrivia first = skipTrivia second) :
    readAll first = readAll second := by rw [readAll_eq, readAll_eq second, same]

theorem readAll_source (source : Source) : readAll source.text = .ok source.pairs := by
  induction source with
  | finish gap lastLine =>
    rw [readAll_eq, skipTrivia_source]
    rfl
  | assign gap assignment rest ih =>
    have noSemicolon : rest.body.head? ≠ some ';' := by
      rcases source_body_head rest with empty | ⟨tail, starts⟩
      · simp [empty]
      · simp [starts]
    have read := readAssignment_text assignment (skipTrivia_source rest) noSemicolon
    -- With or without a semicolon, what the reader left reads like the rest of the file.
    have onward : readAll (if assignment.semicolon.isSome then rest.text else rest.body) =
        .ok rest.pairs := by
      split
      · exact ih
      · rw [← ih]
        exact readAll_congr (by rw [skipTrivia_body, skipTrivia_source])
    rw [readAll_eq, skipTrivia_source]
    have starts : (Source.assign gap assignment rest).body = assignment.text ++ rest.text := rfl
    obtain ⟨tail, head⟩ : ∃ tail, assignment.text ++ rest.text = 'e' :: tail := ⟨_, rfl⟩
    rw [head] at read
    simp only [starts, head, read, onward]
    rfl

/-- Every file of the grammar is accepted, with the pairs it stores. -/
theorem parse_source (source : Source) :
    parse (String.ofList source.text) = .ok (Record.ofPairs source.pairs) :=
  parse_eq_ok_iff_readAll.mpr ⟨_, by rw [String.toList_ofList, readAll_source], rfl⟩

end SnapshotPreview.SnapFile

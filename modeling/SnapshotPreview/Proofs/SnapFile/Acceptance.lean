import SnapshotPreview.Proofs.SnapFile.Reading

/-!
# Only files of the grammar are read

What each reader took, and what it left, make up the text before it, and what it took is the text
of a tree. Together with the other direction, a text is accepted exactly when it is the text of a
file of the grammar, and the record holds the pairs of that file (`parse_eq_ok_iff`).
-/

namespace SnapshotPreview.SnapFile

/-! ## Gaps -/

/-- What is passed over before `rest`: a gap, or at the end of a file a gap and a line comment that
no newline ends. -/
def PassedOver (cs rest : List Char) : Prop :=
  (∃ gap : Gap, cs = gap.text ++ rest) ∨
    (rest = [] ∧ ∃ (gap : Gap) (lastLine : { body : List Char // '\n' ∉ body }),
      cs = gap.text ++ lastLineText (some lastLine))

theorem passedOver_refl (cs : List Char) : PassedOver cs cs := .inl ⟨[], rfl⟩

theorem passedOver_behind (before : Gap) {cs rest : List Char} (passed : PassedOver cs rest) :
    PassedOver (before.text ++ cs) rest := by
  rcases passed with ⟨gap, rfl⟩ | ⟨empty, gap, lastLine, rfl⟩
  · exact .inl ⟨before ++ gap, by simp⟩
  · exact .inr ⟨empty, before ++ gap, lastLine, by simp⟩

/-- Only at the end of a file can a line comment lack its newline. -/
theorem gap_of_passedOver {cs rest : List Char} (passed : PassedOver cs rest) (more : rest ≠ []) :
    ∃ gap : Gap, cs = gap.text ++ rest := by
  rcases passed with closed | ⟨empty, -⟩
  · exact closed
  · exact absurd empty more

/-- White space is a gap of its own. -/
theorem exists_gap_of_blank (cs : List Char) :
    ∃ gap : Gap, cs = gap.text ++ cs.dropWhile Text.isSpace := by
  induction cs with
  | nil => exact ⟨[], rfl⟩
  | cons c cs ih =>
    by_cases blank : Text.isSpace c = true
    · obtain ⟨gap, same⟩ := ih
      refine ⟨.space c blank :: gap, ?_⟩
      rw [List.dropWhile_cons_of_pos blank, gap_text_cons, List.append_assoc, ← same]
      rfl
    · exact ⟨[], by rw [List.dropWhile_cons_of_neg blank]; rfl⟩

theorem exists_line_of_afterLine (cs : List Char) :
    (∃ body, '\n' ∉ body ∧ cs = body ++ '\n' :: afterLine cs) ∨ ('\n' ∉ cs ∧ afterLine cs = []) := by
  by_cases ends : '\n' ∈ cs
  · obtain ⟨body, rest, rfl, oneLine⟩ := List.eq_append_cons_of_mem ends
    exact .inl ⟨body, oneLine, by rw [afterLine_append oneLine]⟩
  · exact .inr ⟨ends, afterLine_eq_nil ends⟩

theorem exists_block_of_afterComment? {cs rest : List Char} (closed : afterComment? cs = some rest) :
    ∃ body, ¬ ['*', '/'] <:+: body ∧ cs = body ++ '*' :: '/' :: rest := by
  fun_induction afterComment? cs with
  | case1 cs =>
    cases closed
    exact ⟨[], by simp, rfl⟩
  | case2 c cs later ih =>
    obtain ⟨body, unclosed, same⟩ := ih closed
    refine ⟨c :: body, ?_, by rw [same]; rfl⟩
    rintro inside
    rcases List.infix_cons_iff.mp inside with starts | inner
    · obtain ⟨more, begins⟩ := starts
      obtain ⟨star, begins⟩ := List.cons.inj begins
      refine later (more ++ '*' :: '/' :: rest) star.symm ?_
      rw [same, ← begins]
      rfl
    · exact unclosed inner
  | case3 => cases closed

theorem passedOver_of_skipTrivia {cs rest : List Char} (skipped : skipTrivia cs = .ok rest) :
    PassedOver cs rest := by
  fun_induction skipTrivia cs with
  | case1 cs comment starts ih =>
    obtain ⟨gap, same⟩ := exists_gap_of_blank cs
    rw [same, starts]
    refine passedOver_behind gap ?_
    rcases exists_line_of_afterLine comment with ⟨body, oneLine, split⟩ | ⟨oneLine, empty⟩
    · have onward := passedOver_behind [.line body oneLine] (ih skipped)
      rw [split]
      simpa [Trivia.text] using onward
    · rw [empty, skipTrivia_nil] at skipped
      cases skipped
      exact .inr ⟨rfl, [], ⟨comment, oneLine⟩, rfl⟩
  | case2 cs comment starts after closed ih =>
    obtain ⟨gap, same⟩ := exists_gap_of_blank cs
    obtain ⟨body, unclosed, split⟩ := exists_block_of_afterComment? closed
    rw [same, starts, split]
    refine passedOver_behind gap ?_
    have onward := passedOver_behind [.block body unclosed] (ih skipped)
    simpa [Trivia.text] using onward
  | case3 => cases skipped
  | case4 cs =>
    cases skipped
    exact .inl (exists_gap_of_blank cs)

/-! ## Literals -/

theorem exists_quote_of_isQuote {c : Char} (quotes : isQuote c = true) :
    ∃ quote : Quote, quote.char = c := by
  simp only [isQuote, Bool.or_eq_true, beq_iff_eq] at quotes
  rcases quotes with (rfl | rfl) | rfl
  · exact ⟨.backtick, rfl⟩
  · exact ⟨.single, rfl⟩
  · exact ⟨.double, rfl⟩

theorem exists_items_of_readChars {quote : Quote} {cs value rest : List Char}
    (read : readChars quote.char cs = some (value, rest)) :
    ∃ items : List (Item quote), cs = items.flatMap Item.text ++ quote.char :: rest ∧
      value = items.map Item.char := by
  generalize quoteChar : quote.char = q at read
  fun_induction readChars q cs generalizing value with
  | case1 => cases read
  | case2 => cases read
  | case3 c cs ih =>
    obtain ⟨⟨inner, left⟩, readInner, same⟩ := Option.map_eq_some_iff.mp read
    cases same
    obtain ⟨items, rfl, rfl⟩ := ih readInner
    exact ⟨.escape c :: items, rfl, by rw [unescape_eq_char quote]; rfl⟩
  | case4 cs =>
    cases read
    exact ⟨[], rfl, rfl⟩
  | case5 c cs notBackslash notQuote ih =>
    obtain ⟨⟨inner, left⟩, readInner, same⟩ := Option.map_eq_some_iff.mp read
    cases same
    obtain ⟨items, rfl, rfl⟩ := ih readInner
    exact ⟨.plain c (quoteChar ▸ notQuote) notBackslash :: items, rfl, rfl⟩

theorem exists_literal_of_readLiteral {cs rest : List Char} {value : String}
    (read : readLiteral cs = .ok (value, rest)) :
    ∃ literal : Literal, cs = literal.text ++ rest ∧ value = literal.value := by
  cases cs with
  | nil => cases read
  | cons c cs =>
    simp only [readLiteral] at read
    split at read
    · rename_i quotes
      obtain ⟨quote, rfl⟩ := exists_quote_of_isQuote quotes
      split at read
      · rename_i chars left readInner
        cases read
        obtain ⟨items, rfl, rfl⟩ := exists_items_of_readChars readInner
        exact ⟨⟨quote, items⟩, by simp [Literal.text], rfl⟩
      · cases read
    · cases read

/-! ## Assignments -/

/-- A gap and the literal behind it. -/
theorem exists_gap_literal {cs next rest : List Char} {value : String}
    (skipped : skipTrivia cs = .ok next) (read : readLiteral next = .ok (value, rest)) :
    ∃ (gap : Gap) (literal : Literal),
      cs = gap.text ++ (literal.text ++ rest) ∧ value = literal.value := by
  obtain ⟨literal, rfl, same⟩ := exists_literal_of_readLiteral read
  obtain ⟨gap, rfl⟩ := gap_of_passedOver (passedOver_of_skipTrivia skipped) (by simp [Literal.text])
  exact ⟨gap, literal, rfl, same⟩

/-- A gap and the character that was expected behind it. -/
theorem exists_gap_expect {c : Char} {expected : Expected} {cs next rest : List Char}
    (skipped : skipTrivia cs = .ok next) (read : expect c expected next = .ok rest) :
    ∃ gap : Gap, cs = gap.text ++ c :: rest := by
  obtain rfl := eq_cons_of_expect read
  exact gap_of_passedOver (passedOver_of_skipTrivia skipped) (List.cons_ne_nil c rest)

theorem exists_accessor_of_readKey {cs rest : List Char} {key : String}
    (read : readKey cs = .ok (key, rest)) :
    ∃ accessor : Accessor, cs = accessor.text ++ rest ∧ key = accessor.key := by
  unfold readKey at read
  split at read
  · rename_i tail
    obtain ⟨r₁, skipped₁, read⟩ := bind_eq_ok.mp read
    obtain ⟨⟨value, r₂⟩, readValue, read⟩ := bind_eq_ok.mp read
    obtain ⟨r₃, skipped₂, read⟩ := bind_eq_ok.mp read
    obtain ⟨r₄, closed, read⟩ := bind_eq_ok.mp read
    cases read
    obtain ⟨before, literal, rfl, rfl⟩ := exists_gap_literal skipped₁ readValue
    obtain ⟨after, rfl⟩ := exists_gap_expect skipped₂ closed
    exact ⟨.brackets before literal after, by simp [Accessor.text], rfl⟩
  · rename_i tail
    obtain ⟨next, skipped, read⟩ := bind_eq_ok.mp read
    dsimp only at read
    split at read
    · cases read
    · rename_i nonempty
      cases read
      have found : next.takeWhile isKeyChar ≠ [] := by simpa using nonempty
      have more : next ≠ [] := by
        rintro rfl
        exact found rfl
      obtain ⟨before, same⟩ := gap_of_passedOver (passedOver_of_skipTrivia skipped) more
      refine ⟨.dot before (next.takeWhile isKeyChar) found ?_, ?_, rfl⟩
      · intro c inside
        exact List.all_eq_true.mp List.all_takeWhile c inside
      · rw [same]
        simp [Accessor.text]
  · cases read

/-- A semicolon with the gap before it, or else what was passed over in search of it. -/
theorem exists_semicolon {cs next : List Char} (skipped : skipTrivia cs = .ok next) :
    ∃ (semicolon : Option Gap) (after : List Char),
      cs = semicolonText semicolon ++ after ∧ PassedOver after (skipSemicolon next) := by
  have passed := passedOver_of_skipTrivia skipped
  unfold skipSemicolon
  split
  · rename_i rest
    obtain ⟨before, rfl⟩ := gap_of_passedOver passed (List.cons_ne_nil ';' rest)
    exact ⟨some before, rest, by simp [semicolonText], passedOver_refl rest⟩
  · exact ⟨none, cs, rfl, passed⟩

/-- The assignment that was read, and the gap that was passed over behind it when it has no
semicolon. -/
theorem exists_assignment_of_readAssignment {cs rest : List Char} {pair : String × String}
    (read : readAssignment cs = .ok (pair, rest)) :
    ∃ (assignment : Assignment) (after : List Char),
      cs = assignment.text ++ after ∧ PassedOver after rest ∧ pair = assignment.pair := by
  unfold readAssignment at read
  split at read
  · cases read
  · rename_i tail begins
    obtain ⟨r₁, skipped₁, read⟩ := bind_eq_ok.mp read
    obtain ⟨⟨key, r₂⟩, readAccessor, read⟩ := bind_eq_ok.mp read
    obtain ⟨r₃, skipped₂, read⟩ := bind_eq_ok.mp read
    obtain ⟨r₄, equals, read⟩ := bind_eq_ok.mp read
    obtain ⟨r₅, skipped₃, read⟩ := bind_eq_ok.mp read
    obtain ⟨⟨value, r₆⟩, readValue, read⟩ := bind_eq_ok.mp read
    obtain ⟨r₇, skipped₄, finished⟩ := bind_eq_ok.mp read
    obtain rfl := Text.afterPrefix?_eq_some_iff.mp begins
    obtain ⟨accessor, rfl, rfl⟩ := exists_accessor_of_readKey readAccessor
    obtain ⟨beforeAccessor, rfl⟩ := gap_of_passedOver (passedOver_of_skipTrivia skipped₁)
      (by cases accessor <;> simp [Accessor.text])
    obtain ⟨beforeEquals, rfl⟩ := exists_gap_expect skipped₂ equals
    obtain ⟨beforeValue, literal, rfl, rfl⟩ := exists_gap_literal skipped₃ readValue
    obtain ⟨semicolon, after, rfl, passed⟩ := exists_semicolon skipped₄
    cases finished
    refine ⟨⟨beforeAccessor, accessor, beforeEquals, beforeValue, literal, semicolon⟩, after, ?_,
      passed, rfl⟩
    simp [Assignment.text]

/-! ## Files -/

/-- What was passed over before a file belongs to the file. -/
theorem exists_source_behind {cs : List Char} (source : Source) (passed : PassedOver cs source.text) :
    ∃ whole : Source, whole.text = cs ∧ whole.pairs = source.pairs := by
  rcases passed with ⟨gap, rfl⟩ | ⟨empty, gap, lastLine, rfl⟩
  · exact ⟨source.behind gap, source_text_behind gap source, source_pairs_behind gap source⟩
  · refine ⟨.finish gap (some lastLine), rfl, ?_⟩
    cases source with
    | finish gap lastLine => rfl
    | assign gap assignment rest => simp [Source.text, Assignment.text, exportsWord] at empty

theorem exists_source_of_readAll {cs : List Char} {pairs : List (String × String)}
    (read : readAll cs = .ok pairs) :
    ∃ source : Source, source.text = cs ∧ source.pairs = pairs := by
  fun_induction readAll cs generalizing pairs with
  | case1 => cases read
  | case2 cs skipped =>
    cases read
    exact exists_source_behind (.finish [] none) (passedOver_of_skipTrivia skipped)
  | case3 => cases read
  | case4 cs c tail skipped pair rest readFirst ih =>
    obtain ⟨later, readLater, same⟩ : ∃ later, readAll rest = .ok later ∧ pair :: later = pairs := by
      cases readRest : readAll rest with
      | error stop => simp [readRest, Except.map] at read
      | ok later => exact ⟨later, rfl, by simpa [readRest, Except.map] using read⟩
    obtain ⟨source, rfl, rfl⟩ := ih readLater
    obtain ⟨assignment, after, split, passed, rfl⟩ := exists_assignment_of_readAssignment readFirst
    obtain ⟨onward, rfl, pairsOnward⟩ := exists_source_behind source passed
    obtain ⟨gap, whole⟩ := gap_of_passedOver (passedOver_of_skipTrivia skipped)
      (List.cons_ne_nil c tail)
    refine ⟨.assign gap assignment onward, ?_, ?_⟩
    · rw [whole, split]
      rfl
    · rw [← same, ← pairsOnward]
      rfl

/-- A text is accepted exactly when it is the text of a file of the grammar, and then the record
is made of the pairs of that file in their order. -/
theorem parse_eq_ok_iff (text : String) (record : Record) :
    parse text = .ok record ↔
      ∃ source : Source, source.text = text.toList ∧ record = Record.ofPairs source.pairs := by
  constructor
  · intro accepted
    obtain ⟨pairs, read, rfl⟩ := parse_eq_ok_iff_readAll.mp accepted
    obtain ⟨source, same, rfl⟩ := exists_source_of_readAll read
    exact ⟨source, same, rfl⟩
  · rintro ⟨source, same, rfl⟩
    have accepted := parse_source source
    rwa [same, String.ofList_toList] at accepted

end SnapshotPreview.SnapFile

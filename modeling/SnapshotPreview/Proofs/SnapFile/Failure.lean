import SnapshotPreview.Proofs.SnapFile.Acceptance
import SnapshotPreview.Proofs.Text

/-!
# What errors say about a text

A text that is refused is read up to the place of the error, and up to there it is the beginning of
a file of the grammar: something can be put behind it so that the whole is accepted. What the error
says about the place is so: the character found is the one that stands there, an end of the text is
reported only where nothing is left, and what is said to have no end has none (`error_of_parse`).
-/

namespace SnapshotPreview.SnapFile

/-! ## Quotes that do not close -/

/-- How many backslashes stand at the end of a text. -/
def backslashesAtEnd (cs : List Char) : Nat := (cs.reverse.takeWhile (· == '\\')).length

/-- Behind these characters of a literal a character is escaped: an odd number of backslashes stands
right before it. -/
def Escapes (before : List Char) : Prop := backslashesAtEnd before % 2 = 1

/-- No quote in the text can close a literal, as all of them are escaped. -/
def NeverCloses (quote : Char) (body : List Char) : Prop :=
  ∀ before after, body = before ++ quote :: after → Escapes before

theorem backslashesAtEnd_cons (c : Char) (cs : List Char) :
    backslashesAtEnd (c :: cs) =
      if c = '\\' ∧ backslashesAtEnd cs = cs.length then cs.length + 1 else backslashesAtEnd cs := by
  unfold backslashesAtEnd
  rw [List.reverse_cons, List.takeWhile_append, List.length_reverse]
  by_cases all : (cs.reverse.takeWhile (· == '\\')).length = cs.length
  · by_cases backslash : c = '\\'
    · simp [all, backslash]
    · simp [all, backslash]
  · simp [all]

theorem escapes_cons {c : Char} (plain : c ≠ '\\') (cs : List Char) :
    Escapes (c :: cs) ↔ Escapes cs := by
  rw [Escapes, Escapes, backslashesAtEnd_cons, if_neg (fun both => plain both.1)]

/-- A backslash and the character that it escapes make no difference to what comes later. -/
theorem escapes_pair (c : Char) {cs : List Char} (escapes : Escapes cs) :
    Escapes ('\\' :: c :: cs) := by
  unfold Escapes at *
  rw [backslashesAtEnd_cons]
  by_cases all : backslashesAtEnd (c :: cs) = (c :: cs).length
  · rw [if_pos ⟨rfl, all⟩]
    rw [backslashesAtEnd_cons] at all
    split at all
    · rename_i both
      rw [List.length_cons, ← both.2]
      omega
    · have bound := (List.takeWhile_sublist (l := cs.reverse) (· == '\\')).length_le
      rw [List.length_cons] at all
      rw [List.length_reverse] at bound
      unfold backslashesAtEnd at all
      omega
  · rw [if_neg (fun both => all both.2), backslashesAtEnd_cons]
    split
    · rename_i both
      rw [backslashesAtEnd_cons, if_pos both] at all
      exact absurd rfl all
    · exact escapes

/-- A literal that does not end has no quote that could close it. -/
theorem neverCloses_of_readChars {quote : Char} {body : List Char} (notBackslash : quote ≠ '\\')
    (fails : readChars quote body = none) : NeverCloses quote body := by
  fun_induction readChars quote body with
  | case1 =>
    intro before after parts
    simp at parts
  | case2 =>
    intro before after parts
    cases before with
    | nil => exact absurd (List.cons.inj parts).1.symm notBackslash
    | cons c before => simp at parts
  | case3 c body ih =>
    intro before after parts
    rcases before with _ | ⟨first, _ | ⟨second, before⟩⟩
    · exact absurd (List.cons.inj parts).1.symm notBackslash
    · rw [← (List.cons.inj parts).1]
      rfl
    · obtain ⟨rfl, tail⟩ := List.cons.inj parts
      obtain ⟨rfl, later⟩ := List.cons.inj tail
      exact escapes_pair c (ih (Option.map_eq_none_iff.mp fails) before after later)
  | case4 => cases fails
  | case5 c body plain notQuote ih =>
    intro before after parts
    cases before with
    | nil => exact absurd (List.cons.inj parts).1 notQuote
    | cons d before =>
      obtain ⟨rfl, later⟩ := List.cons.inj parts
      exact (escapes_cons plain before).mpr (ih (Option.map_eq_none_iff.mp fails) before after later)

/-! ## Where readers stop -/

/-- The text at which a reader stopped. -/
def Stop.rest : Stop → List Char
  | unexpected rest _ => rest
  | unterminatedString rest => rest
  | unterminatedComment rest => rest

/-- What is said to have no end begins there and has none. -/
def Stop.Holds : Stop → Prop
  | unexpected _ _ => True
  | unterminatedString rest =>
    ∃ quote body, rest = quote :: body ∧ isQuote quote = true ∧ NeverCloses quote body
  | unterminatedComment rest => ∃ body, rest = '/' :: '*' :: body ∧ ¬ ['*', '/'] <:+: body

/-- A reader stopped, for the reason that it gives, behind the beginning of a text of some kind. -/
def StopsIn {α : Type} (text : α → List Char) (cs : List Char) (stop : Stop) : Prop :=
  stop.Holds ∧ ∃ taken a, cs = taken ++ stop.rest ∧ taken <+: text a

section
variable {α β : Type} {text : α → List Char} {longer : β → List Char} {cs next : List Char}
  {stop : Stop}

/-- A reader stopped at once. -/
theorem stopsIn_of_rest (a : α) (holds : stop.Holds) (here : stop.rest = cs) :
    StopsIn text cs stop :=
  ⟨holds, [], a, here.symm, List.nil_prefix⟩

/-- What stands before is part of a longer text. -/
theorem StopsIn.behind (stops : StopsIn text cs stop) (front : List Char) (f : α → β)
    (begins : ∀ a, front ++ text a <+: longer (f a)) : StopsIn longer (front ++ cs) stop := by
  obtain ⟨holds, taken, a, parts, isPrefix⟩ := stops
  refine ⟨holds, front ++ taken, f a, ?_, ?_⟩
  · rw [List.append_assoc, ← parts]
  · exact ((List.prefix_append_right_inj front).mpr isPrefix).trans (begins a)

/-- So is what is passed over before. At the end of the text that may be a line comment, which goes
on with a newline. -/
theorem StopsIn.behindGap (stops : StopsIn text next stop) (skipped : skipTrivia cs = .ok next)
    (front : List Char) (f : Gap → α → β)
    (begins : ∀ gap a, front ++ (Gap.text gap ++ text a) <+: longer (f gap a)) :
    StopsIn longer (front ++ cs) stop := by
  rcases passedOver_of_skipTrivia skipped with ⟨gap, rfl⟩ | ⟨empty, gap, lastLine, rfl⟩
  · rw [← List.append_assoc]
    exact stops.behind (front ++ gap.text) (f gap) (fun a => by simpa using begins gap a)
  · obtain ⟨holds, taken, a, parts, -⟩ := stops
    rw [empty] at parts
    obtain ⟨-, ends⟩ := List.append_eq_nil_iff.mp parts.symm
    refine ⟨holds, front ++ (gap.text ++ lastLineText (some lastLine)),
      f (gap ++ [.line lastLine.val lastLine.property]) a, by rw [ends, List.append_nil], ?_⟩
    refine List.IsPrefix.trans ⟨'\n' :: text a, ?_⟩ (begins _ a)
    simp [Trivia.text, lastLineText]

end

/-! ## Gaps and literals -/

theorem unclosed_of_afterComment? {cs : List Char} (unclosed : afterComment? cs = none) :
    ¬ ['*', '/'] <:+: cs := by
  fun_induction afterComment? cs with
  | case1 => cases unclosed
  | case2 c cs later ih =>
    intro inside
    rcases List.infix_cons_iff.mp inside with ⟨more, begins⟩ | inner
    · obtain ⟨star, slash⟩ := List.cons.inj begins
      exact later more star.symm slash.symm
    · exact ih unclosed inner
  | case3 => simp

theorem stopsIn_of_skipTrivia {cs : List Char} {stop : Stop} (fails : skipTrivia cs = .error stop) :
    StopsIn Gap.text cs stop := by
  fun_induction skipTrivia cs with
  | case1 cs comment starts ih =>
    obtain ⟨gap, same⟩ := exists_gap_of_blank cs
    rw [same, starts]
    rcases exists_line_of_afterLine comment with ⟨body, oneLine, parts⟩ | ⟨-, empty⟩
    · have onward : StopsIn Gap.text
          (Gap.text (gap ++ [.line body oneLine]) ++ afterLine comment) stop :=
        (ih fails).behind _ (gap ++ [.line body oneLine] ++ ·) (fun later => by simp)
      rw [parts]
      simpa [Trivia.text] using onward
    · rw [empty, skipTrivia_nil] at fails
      cases fails
  | case2 cs comment starts after closed ih =>
    obtain ⟨gap, same⟩ := exists_gap_of_blank cs
    obtain ⟨body, unclosed, parts⟩ := exists_block_of_afterComment? closed
    have onward : StopsIn Gap.text (Gap.text (gap ++ [.block body unclosed]) ++ after) stop :=
      (ih fails).behind _ (gap ++ [.block body unclosed] ++ ·) (fun later => by simp)
    rw [same, starts, parts]
    simpa [Trivia.text] using onward
  | case3 cs comment starts unclosed =>
    cases fails
    obtain ⟨gap, same⟩ := exists_gap_of_blank cs
    refine ⟨⟨comment, rfl, unclosed_of_afterComment? unclosed⟩, gap.text, gap, ?_, List.prefix_rfl⟩
    rw [same, starts]
    rfl
  | case4 => cases fails

/-- A literal with nothing in it. -/
def Literal.empty : Literal := ⟨.single, []⟩

theorem stopsIn_of_readLiteral {cs : List Char} {stop : Stop}
    (fails : readLiteral cs = .error stop) : StopsIn Literal.text cs stop := by
  cases cs with
  | nil =>
    cases fails
    exact stopsIn_of_rest .empty trivial rfl
  | cons c cs =>
    simp only [readLiteral] at fails
    split at fails
    · rename_i quotes
      obtain ⟨quote, rfl⟩ := exists_quote_of_isQuote quotes
      split at fails
      · cases fails
      · rename_i endless
        cases fails
        have never := neverCloses_of_readChars (quote_char_ne_backslash quote) endless
        exact stopsIn_of_rest .empty ⟨_, _, rfl, quotes, never⟩ rfl
    · cases fails
      exact stopsIn_of_rest .empty trivial rfl

theorem stopsIn_of_expect {c : Char} {expected : Expected} {cs : List Char} {stop : Stop}
    (fails : expect c expected cs = .error stop) : StopsIn (fun _ : Unit => [c]) cs stop := by
  cases cs with
  | nil =>
    cases fails
    exact stopsIn_of_rest () trivial rfl
  | cons d cs =>
    simp only [expect] at fails
    split at fails
    · cases fails
    · cases fails
      exact stopsIn_of_rest () trivial rfl

/-! ## Assignments -/

/-- A short plain key behind a dot. -/
def Accessor.short (before : Gap) : Accessor :=
  .dot before ['x'] (List.cons_ne_nil _ _) (List.forall_mem_singleton.mpr (by decide))

theorem Accessor.short_text (before : Gap) :
    (Accessor.short before).text = '.' :: (before.text ++ ['x']) := rfl

theorem stopsIn_of_readKey {cs : List Char} {stop : Stop} (fails : readKey cs = .error stop) :
    StopsIn Accessor.text cs stop := by
  unfold readKey at fails
  split at fails
  · rename_i tail
    rcases bind_eq_error.mp fails with fails₁ | ⟨r₁, skipped₁, fails₁⟩
    · exact (stopsIn_of_skipTrivia fails₁).behind ['['] (.brackets · .empty [])
        (fun before => by simp [Accessor.text])
    rcases bind_eq_error.mp fails₁ with fails₂ | ⟨⟨key, r₂⟩, readKey, fails₂⟩
    · exact (stopsIn_of_readLiteral fails₂).behindGap skipped₁ ['['] (.brackets · · [])
        (fun before key => by simp [Accessor.text])
    obtain ⟨before, literal, rfl, -⟩ := exists_gap_literal skipped₁ readKey
    have front (rest : List Char) : '[' :: (before.text ++ (literal.text ++ rest)) =
        '[' :: (before.text ++ literal.text) ++ rest := by simp
    rw [front]
    rcases bind_eq_error.mp fails₂ with fails₃ | ⟨r₃, skipped₃, fails₃⟩
    · exact (stopsIn_of_skipTrivia fails₃).behind _ (.brackets before literal ·)
        (fun after => by simp [Accessor.text])
    rcases bind_eq_error.mp fails₃ with fails₄ | ⟨r₄, -, fails₄⟩
    · exact (stopsIn_of_expect fails₄).behindGap skipped₃ _
        (fun after _ => .brackets before literal after) (fun after _ => by simp [Accessor.text])
    · cases fails₄
  · rename_i tail
    rcases bind_eq_error.mp fails with fails | ⟨next, skipped, fails⟩
    · exact (stopsIn_of_skipTrivia fails).behind ['.'] Accessor.short
        (fun before => by simp [Accessor.short_text])
    · dsimp only at fails
      split at fails
      · cases fails
        have here : StopsIn (fun _ : Unit => ['x']) next (.unexpected next .propertyName) :=
          stopsIn_of_rest () trivial rfl
        exact here.behindGap skipped ['.'] (fun before _ => .short before)
          (fun before _ => by simp [Accessor.short_text])
      · cases fails
  · cases fails
    exact stopsIn_of_rest (.short []) trivial rfl

/-- An assignment of nothing. -/
def Assignment.ofAccessor (before : Gap) (accessor : Accessor) (after : Gap) : Assignment :=
  ⟨before, accessor, after, [], .empty, none⟩

theorem stopsIn_of_readAssignment {cs : List Char} {stop : Stop}
    (fails : readAssignment cs = .error stop) : StopsIn Assignment.text cs stop := by
  unfold readAssignment at fails
  split at fails
  · cases fails
    exact stopsIn_of_rest (.ofAccessor [] (.short []) []) trivial rfl
  · rename_i tail begins
    obtain rfl := Text.afterPrefix?_eq_some_iff.mp begins
    rcases bind_eq_error.mp fails with fails₁ | ⟨r₁, skipped₁, fails₁⟩
    · exact (stopsIn_of_skipTrivia fails₁).behind exportsWord (.ofAccessor · (.short []) [])
        (fun before => by simp [Assignment.text, Assignment.ofAccessor])
    rcases bind_eq_error.mp fails₁ with fails₂ | ⟨⟨key, r₂⟩, readAccessor, fails₂⟩
    · exact (stopsIn_of_readKey fails₂).behindGap skipped₁ exportsWord (.ofAccessor · · [])
        (fun before accessor => by simp [Assignment.text, Assignment.ofAccessor])
    obtain ⟨accessor, rfl, -⟩ := exists_accessor_of_readKey readAccessor
    obtain ⟨before, rfl⟩ := gap_of_passedOver (passedOver_of_skipTrivia skipped₁)
      (by cases accessor <;> simp [Accessor.text])
    rw [← List.append_assoc before.text, ← List.append_assoc exportsWord]
    rcases bind_eq_error.mp fails₂ with fails₃ | ⟨r₃, skipped₃, fails₃⟩
    · exact (stopsIn_of_skipTrivia fails₃).behind _ (.ofAccessor before accessor ·)
        (fun after => by simp [Assignment.text, Assignment.ofAccessor])
    rcases bind_eq_error.mp fails₃ with fails₄ | ⟨r₄, equals, fails₄⟩
    · exact (stopsIn_of_expect fails₄).behindGap skipped₃ _
        (fun after _ => .ofAccessor before accessor after)
        (fun after _ => by simp [Assignment.text, Assignment.ofAccessor])
    obtain ⟨after, rfl⟩ := exists_gap_expect skipped₃ equals
    have front (rest : List Char) :
        exportsWord ++ (before.text ++ accessor.text) ++ (after.text ++ '=' :: rest) =
          exportsWord ++ (before.text ++ accessor.text) ++ after.text ++ ['='] ++ rest := by simp
    rw [front]
    rcases bind_eq_error.mp fails₄ with fails₅ | ⟨r₅, skipped₅, fails₅⟩
    · exact (stopsIn_of_skipTrivia fails₅).behind _ (⟨before, accessor, after, ·, .empty, none⟩)
        (fun beforeValue => by simp [Assignment.text])
    rcases bind_eq_error.mp fails₅ with fails₆ | ⟨⟨value, r₆⟩, readValue, fails₆⟩
    · exact (stopsIn_of_readLiteral fails₆).behindGap skipped₅ _
        (⟨before, accessor, after, ·, ·, none⟩) (fun beforeValue value => by simp [Assignment.text])
    obtain ⟨beforeValue, literal, rfl, -⟩ := exists_gap_literal skipped₅ readValue
    rcases bind_eq_error.mp fails₆ with fails₇ | ⟨r₇, -, fails₇⟩
    · have stops : StopsIn Assignment.text (exportsWord ++ (before.text ++ accessor.text) ++
          after.text ++ ['='] ++ beforeValue.text ++ literal.text ++ r₆) stop :=
        (stopsIn_of_skipTrivia fails₇).behind _
          (⟨before, accessor, after, beforeValue, literal, some ·⟩)
          (fun beforeSemicolon => by simp [Assignment.text, semicolonText])
      simpa using stops
    · cases fails₇

/-! ## Files -/

theorem stopsIn_of_readAll {cs : List Char} {stop : Stop} (fails : readAll cs = .error stop) :
    StopsIn Source.text cs stop := by
  fun_induction readAll cs with
  | case1 cs stop' skips =>
    cases fails
    exact (stopsIn_of_skipTrivia skips).behind [] (.finish · none)
      (fun gap => by simp [Source.text, lastLineText])
  | case2 => cases fails
  | case3 cs c tail skipped stop' stops =>
    cases fails
    exact (stopsIn_of_readAssignment stops).behindGap skipped [] (.assign · · (.finish [] none))
      (fun gap assignment => by simp [Source.text, lastLineText])
  | case4 cs c tail skipped pair rest readFirst ih =>
    have failsLater : readAll rest = .error stop := by
      cases later : readAll rest with
      | error stop' => simpa [later, Except.map] using fails
      | ok pairs => simp [later, Except.map] at fails
    obtain ⟨assignment, after, parts, passed, -⟩ := exists_assignment_of_readAssignment readFirst
    obtain ⟨gap, whole⟩ := gap_of_passedOver (passedOver_of_skipTrivia skipped)
      (List.cons_ne_nil c tail)
    -- Nothing can fail at the end of a file, so that gap is closed, too.
    have more : rest ≠ [] := by
      rintro rfl
      rw [readAll_eq, skipTrivia_nil] at failsLater
      cases failsLater
    obtain ⟨gap', rfl⟩ := gap_of_passedOver passed more
    have stops : StopsIn Source.text
        (gap.text ++ assignment.text ++ gap'.text ++ rest) stop :=
      (ih failsLater).behind _ (fun source => .assign gap assignment (source.behind gap'))
        (fun source => by simp [Source.text, source_text_behind])
    rw [whole, parts]
    simpa using stops

/-! ## What errors say -/

/-- Something can be put behind a text so that the whole is accepted. -/
def CanBeCompleted (cs : List Char) : Prop :=
  ∃ more record, parse (String.ofList (cs ++ more)) = .ok record

theorem canBeCompleted_of_prefix {cs : List Char} {source : Source} (begins : cs <+: source.text) :
    CanBeCompleted cs := by
  obtain ⟨more, whole⟩ := begins
  exact ⟨more, _, by rw [whole, parse_source]⟩

/-- What an error says about a text that was read up to the end of `before`, with `rest` left. -/
def Error.Holds (before rest : List Char) : Error → Prop
  | unexpected offset found _ => offset = Text.byteLength before ∧ ∃ after, rest = found :: after
  | unexpectedEnd _ => rest = []
  | unterminatedString offset =>
    offset = Text.byteLength before ∧
      ∃ quote body, rest = quote :: body ∧ isQuote quote = true ∧ NeverCloses quote body
  | unterminatedComment offset =>
    offset = Text.byteLength before ∧
      ∃ body, rest = '/' :: '*' :: body ∧ ¬ ['*', '/'] <:+: body

/-- Where a cursor stands when this has gone wrong in a text of so many bytes: at the character that
was not expected, and otherwise at the end. -/
def Error.stopsAt (size : Nat) : Error → Nat
  | unexpected offset _ _ => offset
  | _ => size

section
variable {bytes : Array UInt8} {stop : Stop} {before : List Char}
  (whole : bytes.toList = Text.encode (before ++ stop.rest))
include whole

/-- What a reader says about the place where it stopped, its error says about the whole text. The
character that was not expected is found, as the cursor stands within none. -/
theorem Stop.Holds.failure (holds : stop.Holds) :
    (stop.failure bytes).error.Holds before stop.rest := by
  have offset := Cursor.pos_before whole
  have ends := Cursor.ends_of_parts whole
  cases stop with
  | unexpected rest expected =>
    have found := Cursor.char?_before ends
    simp only [Stop.rest] at found offset
    cases rest with
    | nil => simp only [Stop.failure, Cursor.unexpected, found, List.head?_nil]; rfl
    | cons c rest =>
      simp only [Stop.failure, Cursor.unexpected, found, List.head?_cons]
      exact ⟨offset, rest, rfl⟩
  | unterminatedString rest => exact ⟨offset, holds⟩
  | unterminatedComment rest => exact ⟨offset, holds⟩

theorem stop_failure_cursor :
    (stop.failure bytes).cursor.text = bytes ∧
      (stop.failure bytes).cursor.pos = (stop.failure bytes).error.stopsAt bytes.size ∧
      Text.isBoundary bytes (stop.failure bytes).cursor.pos = true := by
  have ends := Cursor.ends_of_parts whole
  have last : (Cursor.before bytes []).pos = bytes.size := rfl
  cases stop with
  | unexpected rest expected =>
    refine ⟨rfl, ?_, Cursor.isBoundary_before ends⟩
    have found := Cursor.char?_before ends
    simp only [Stop.rest] at found
    cases rest with
    | nil => simp only [Stop.failure, Cursor.unexpected, found, List.head?_nil]; exact last
    | cons c rest => simp only [Stop.failure, Cursor.unexpected, found, List.head?_cons]; rfl
  | unterminatedString rest => exact ⟨rfl, last, Cursor.isBoundary_before (Cursor.ends_nil bytes)⟩
  | unterminatedComment rest => exact ⟨rfl, last, Cursor.isBoundary_before (Cursor.ends_nil bytes)⟩

end

/-- A text that is refused has been read up to where the cursor gave up, between two characters or at
the end. Up to there it can be completed, and what the error says about that place is so. -/
theorem error_of_parse {text : String} {error : Error} (fails : parse text = .error error) :
    ∃ cursor before rest, (Cursor.ofText text).readAll = .error { error, cursor } ∧
      text.toList = before ++ rest ∧ CanBeCompleted before ∧ error.Holds before rest ∧
      cursor.text = Text.bytesOf text ∧ cursor.pos = error.stopsAt text.utf8ByteSize ∧
      Text.isBoundary cursor.text cursor.pos = true := by
  obtain ⟨stop, read, rfl⟩ := parse_eq_error_iff_readAll.mp fails
  obtain ⟨holds, before, source, parts, begins⟩ := stopsIn_of_readAll read
  have whole : (Text.bytesOf text).toList = Text.encode (before ++ stop.rest) := by
    rw [Text.toList_bytesOf, parts]
  obtain ⟨sameText, stands, boundary⟩ := stop_failure_cursor whole
  refine ⟨(stop.failure (Text.bytesOf text)).cursor, before, stop.rest, ?_, parts,
    canBeCompleted_of_prefix begins, holds.failure whole, sameText, stands, ?_⟩
  · rw [readAll_ofText, read]
    rfl
  · rw [sameText]
    exact boundary

/-- A colon after a key in a text with wide characters. -/
def colonAfterKey : String := "/* é */ exports['ü'] : 'v';"

theorem error_of_colonAfterKey :
    parse colonAfterKey = .error (.unexpected 23 ':' .equalsSign) ∧
      ∃ cursor before rest,
        (Cursor.ofText colonAfterKey).readAll =
          .error { error := .unexpected 23 ':' .equalsSign, cursor } ∧
        colonAfterKey.toList = before ++ rest ∧ CanBeCompleted before ∧
        (Error.unexpected 23 ':' .equalsSign).Holds before rest ∧
        cursor.text = Text.bytesOf colonAfterKey ∧
        cursor.pos = (Error.unexpected 23 ':' .equalsSign).stopsAt colonAfterKey.utf8ByteSize ∧
        Text.isBoundary cursor.text cursor.pos = true := by
  have skipped : skipTrivia colonAfterKey.toList = .ok "exports['ü'] : 'v';".toList := by cbv
  have read : readAll colonAfterKey.toList =
      .error (.unexpected [':', ' ', '\x27', 'v', '\x27', ';'] .equalsSign) := by
    rw [readAll_eq, skipped]
    cbv
  have fails : parse colonAfterKey = .error (.unexpected 23 ':' .equalsSign) :=
    parse_eq_error_iff_readAll.mpr ⟨_, read, by decide +kernel⟩
  exact ⟨fails, error_of_parse fails⟩

end SnapshotPreview.SnapFile

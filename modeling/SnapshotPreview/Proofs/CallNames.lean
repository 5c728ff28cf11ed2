import SnapshotPreview.Proofs.BracketPairs
import SnapshotPreview.Proofs.QuotedLiterals

/-!
# The names of calls

The first argument of a call is read byte by byte, and each backslash is taken together with the byte
behind it, even where that is only the first byte of a character. What is read can be said position by
position, without the walk: a backslash escapes unless it is escaped itself (`escapesAt`), the literal
ends at the first quote that is not escaped, and its bytes are those in between without the backslashes
that escape. As only ASCII is left out, these are the bytes of a text, so that reading them as one
replaces nothing (`name_exact`).
-/

namespace SnapshotPreview

namespace Quoted

/-! ## Literals by positions -/

/-- Whether the byte at a position behind the opening quote at `start` is a backslash that escapes the
next one. A backslash does unless it is escaped itself, also as the last byte of the text. -/
def escapesAt (text : Array UInt8) (start : Nat) : Nat → Bool
  | 0 => false
  | before + 1 =>
    decide (start ≤ before) && text[before + 1]? == some (Text.byte '\\') &&
      !escapesAt text start before

/-- From `pos` on, the literal that opens at `start` ends at `stop`: with the text or at a quote that is
not escaped, and all quotes before it are escaped. -/
structure EndsFrom (text : Array UInt8) (quote : UInt8) (start pos stop : Nat) : Prop where
  le : pos ≤ stop
  closes : stop = text.size ∨ text[stop]? = some quote ∧ escapesAt text start (stop - 1) = false
  first : ∀ q, pos ≤ q → q < stop → text[q]? = some quote → escapesAt text start (q - 1) = true

/-- The bytes from `pos` up to `stop` without the backslashes that escape. -/
def keptFrom (text : Array UInt8) (start pos stop : Nat) : List UInt8 :=
  (List.range' pos (stop - pos)).filterMap fun p =>
    if escapesAt text start p then none else text[p]?

section
variable {text : Array UInt8} {quote b : UInt8} {start pos stop : Nat} {rest : List UInt8}

theorem escapesAt_eq (after : start < pos) :
    escapesAt text start pos =
      (text[pos]? == some (Text.byte '\\') && !escapesAt text start (pos - 1)) := by
  obtain ⟨before, rfl⟩ := Nat.exists_eq_add_one.mpr (show 0 < pos by omega)
  simp [escapesAt, Nat.le_of_lt_succ after]

theorem escapesAt_start (text : Array UInt8) (start : Nat) : escapesAt text start start = false := by
  cases start with
  | zero => rfl
  | succ before =>
    have outside : ¬ before + 1 ≤ before := by omega
    simp [escapesAt, outside]

theorem escapesAt_backslash (after : start < pos) (unescaped : escapesAt text start (pos - 1) = false)
    (here : text[pos]? = some (Text.byte '\\')) : escapesAt text start pos = true := by
  simp [escapesAt_eq after, here, unescaped]

theorem byte_of_drop (here : text.toList.drop pos = b :: rest) :
    text[pos]? = some b ∧ text.toList.drop (pos + 1) = rest := by
  constructor
  · rw [← Array.getElem?_toList, ← Nat.add_zero pos, ← List.getElem?_drop, here]
    rfl
  · rw [← List.drop_drop, here]
    rfl

theorem eq_size_of_drop (inside : pos ≤ text.size) (nothing : text.toList.drop pos = []) :
    pos = text.size := by
  have le := List.drop_eq_nil_iff.mp nothing
  rw [Array.length_toList] at le
  omega

/-! ## One step of the walk -/

theorem endsFrom_self
    (closes : pos = text.size ∨ text[pos]? = some quote ∧ escapesAt text start (pos - 1) = false) :
    EndsFrom text quote start pos pos := by
  refine ⟨Nat.le_refl pos, closes, fun q low high => ?_⟩
  omega

theorem EndsFrom.plain (here : text[pos]? = some b) (other : b ≠ quote)
    (onward : EndsFrom text quote start (pos + 1) stop) : EndsFrom text quote start pos stop := by
  obtain ⟨le, closes, first⟩ := onward
  refine ⟨by omega, closes, fun q low high isQuote => ?_⟩
  by_cases same : q = pos
  · rw [same, here] at isQuote
    exact absurd (Option.some.inj isQuote) other
  · exact first q (by omega) high isQuote

theorem EndsFrom.escape (here : text[pos]? = some b) (other : b ≠ quote)
    (escapes : escapesAt text start pos = true)
    (onward : EndsFrom text quote start (pos + 2) stop) : EndsFrom text quote start pos stop := by
  obtain ⟨le, closes, first⟩ := onward
  refine EndsFrom.plain here other ⟨by omega, closes, fun q low high isQuote => ?_⟩
  by_cases same : q = pos + 1
  · rw [same]
    exact escapes
  · exact first q (by omega) high isQuote

theorem keptFrom_self : keptFrom text start pos pos = [] := by
  simp [keptFrom]

theorem keptFrom_of_lt (before : pos < stop) :
    keptFrom text start pos stop =
      (if escapesAt text start pos then none else text[pos]?).toList ++
        keptFrom text start (pos + 1) stop := by
  obtain ⟨left, length⟩ := Nat.exists_eq_add_one.mpr (show 0 < stop - pos by omega)
  have later : stop - (pos + 1) = left := by omega
  simp only [keptFrom, length, later, List.range'_succ, List.filterMap_cons]
  cases (if escapesAt text start pos then none else text[pos]?) with
  | none => rfl
  | some b => rfl

/-- A walk that has come to `pos` without an escape there ends at the first quote that is not escaped,
and what it reads on the way are the bytes that are kept. -/
theorem scan_spec (notBackslash : quote ≠ Text.byte '\\') (here : text.toList.drop pos = rest)
    (inside : pos ≤ text.size) (after : start < pos)
    (unescaped : escapesAt text start (pos - 1) = false) :
    EndsFrom text quote start pos (min (pos + (scan quote rest).2) text.size) ∧
      keptFrom text start pos (min (pos + (scan quote rest).2) text.size) = (scan quote rest).1 := by
  fun_induction scan quote rest generalizing pos with
  | case1 =>
    rw [Nat.add_zero, Nat.min_eq_left inside]
    exact ⟨endsFrom_self (.inl (eq_size_of_drop inside here)), keptFrom_self⟩
  | case2 =>
    obtain ⟨isQuote, -⟩ := byte_of_drop here
    rw [Nat.add_zero, Nat.min_eq_left inside]
    exact ⟨endsFrom_self (.inr ⟨isQuote, unescaped⟩), keptFrom_self⟩
  | case3 =>
    -- The backslash is the last byte of the text.
    obtain ⟨isBackslash, nothing⟩ := byte_of_drop here
    have escapes := escapesAt_backslash after unescaped isBackslash
    have bound : pos + 1 ≤ text.size := (Array.getElem?_eq_some_iff.mp isBackslash).1
    have last := eq_size_of_drop bound nothing
    rw [Nat.min_eq_left bound]
    refine ⟨(endsFrom_self (.inl last)).plain isBackslash (Ne.symm notBackslash), ?_⟩
    rw [keptFrom_of_lt (Nat.lt_succ_self pos), if_pos escapes, keptFrom_self]
    rfl
  | case4 escaped rest bytes used scanned other ih =>
    obtain ⟨isBackslash, next⟩ := byte_of_drop here
    obtain ⟨isEscaped, later⟩ := byte_of_drop next
    have escapes := escapesAt_backslash after unescaped isBackslash
    have spared : escapesAt text start (pos + 1) = false := by
      simp [escapesAt_eq (Nat.lt_succ_of_lt after), escapes]
    have bound := (Array.getElem?_eq_some_iff.mp isEscaped).1
    obtain ⟨ends, kept⟩ := ih later (by omega) (by omega) spared
    rw [scanned] at ends kept
    have le := ends.le
    rw [show pos + (used + 2) = pos + 2 + used by omega]
    refine ⟨ends.escape isBackslash (Ne.symm notBackslash) escapes, ?_⟩
    rw [keptFrom_of_lt (show pos < _ by omega), if_pos escapes,
      keptFrom_of_lt (show pos + 1 < _ by omega), spared, isEscaped, kept]
    rfl
  | case5 b rest notQuote other bytes used scanned ih =>
    obtain ⟨isHere, later⟩ := byte_of_drop here
    have spared : escapesAt text start pos = false := by
      simp [escapesAt_eq after, isHere, other]
    have bound := (Array.getElem?_eq_some_iff.mp isHere).1
    obtain ⟨ends, kept⟩ := ih later (by omega) (by omega) spared
    rw [scanned] at ends kept
    have le := ends.le
    rw [show pos + (used + 1) = pos + 1 + used by omega]
    refine ⟨ends.plain isHere notQuote, ?_⟩
    rw [keptFrom_of_lt (show pos < _ by omega), spared, isHere, kept]
    rfl

end

/-! ## Literals of a text -/

open SnapFile

variable {quote : Quote}

theorem byte_char_ne_backslash (quote : Quote) : Text.byte quote.char ≠ Text.byte '\\' := by
  cases quote <;> decide

/-- What is left of characters without the backslashes that escape are characters again. -/
theorem exists_chars_of_scan (quote : Quote) (cs : List Char) :
    ∃ kept, (scan (Text.byte quote.char) (Text.encode cs)).1 = Text.encode kept := by
  induction cs using escapedChars.induct with
  | case1 => exact ⟨[], rfl⟩
  | case2 c rest ih =>
    obtain ⟨kept, same⟩ := ih
    refine ⟨c :: kept, ?_⟩
    rw [Text.encode_cons_of_ascii (by decide), Text.encode_cons, scan_escape_item, same,
      Text.encode_cons]
  | case3 c rest notPair ih =>
    by_cases isQuote : c = quote.char
    · refine ⟨[], ?_⟩
      rw [isQuote, Text.encode_cons_of_ascii (quote_char_ascii quote), scan_quote]
      rfl
    · by_cases isBackslash : c = '\\'
      · cases rest with
        | nil =>
          -- The backslash is the last character.
          refine ⟨[], ?_⟩
          subst isBackslash
          cases quote <;> decide
        | cons d rest => exact absurd rfl (notPair d rest isBackslash)
      · obtain ⟨kept, same⟩ := ih
        refine ⟨c :: kept, ?_⟩
        rw [Text.encode_cons, scan_plain_item isQuote isBackslash, same, Text.encode_cons]

/-- Behind a quote the text goes on with a character. -/
theorem exists_parts_of_quote {text : String} {pos : Nat}
    (here : (Text.bytesOf text)[pos]? = some (Text.byte quote.char)) :
    ∃ front onward,
      (Text.bytesOf text).toList = front ++ Text.byte quote.char :: Text.encode onward ∧
        pos = front.length := by
  obtain ⟨before, onward, whole, rfl⟩ := Text.exists_parts_of_byte (quote_char_ascii quote) here
  refine ⟨Text.encode before, onward, ?_, (Text.length_encode before).symm⟩
  rw [Text.toList_bytesOf, whole, Text.encode_append,
    Text.encode_cons_of_ascii (quote_char_ascii quote)]

/-- A literal that opens at a quote is read up to its end, and its value has the bytes that are kept. -/
theorem exists_read_of_quote {text : String} {pos : Nat} (notBacktick : quote ≠ .backtick)
    (here : (Text.bytesOf text)[pos]? = some (Text.byte quote.char)) :
    ∃ chars, (read (Text.bytesOf text) pos).value = String.ofList chars ∧
      EndsFrom (Text.bytesOf text) (Text.byte quote.char) pos (pos + 1)
        (read (Text.bytesOf text) pos).stop ∧
      keptFrom (Text.bytesOf text) pos (pos + 1) (read (Text.bytesOf text) pos).stop =
        Text.encode chars := by
  obtain ⟨front, onward, parts, rfl⟩ := exists_parts_of_quote here
  obtain ⟨chars, same⟩ := exists_chars_of_scan quote onward
  have inside := (Array.getElem?_eq_some_iff.mp here).1
  obtain ⟨ends, kept⟩ := scan_spec (byte_char_ne_backslash quote) (Bracket.ahead_of_parts parts)
    inside (Nat.lt_succ_self _) (escapesAt_start _ _)
  rw [read_of_parts parts (quoteOf_char notBacktick), same, Text.decodeLossy_encode]
  exact ⟨chars, rfl, ends, kept.trans same⟩

end Quoted

namespace Call

theorem read_of_at? {text : Array UInt8} {vocabulary : Vocabulary} {kind : CallKind} {pos : Nat}
    {call : Call} (hit : at? text vocabulary kind pos = some call) :
    call.name = (Quoted.read text pos).value ∧ call.stop = (Quoted.read text pos).stop := by
  unfold at? at hit
  split at hit
  · cases hit
    exact ⟨rfl, rfl⟩
  · cases hit

/-- The name of a call opens at its single quote, ends at the next one that is not escaped or with the
text, and has the bytes in between but the backslashes that escape. They are the bytes of a text, so
that reading them replaces nothing. -/
theorem name_exact {text : String} {vocabulary : Vocabulary} {kind : CallKind} {pos : Nat} {call : Call}
    (hit : at? (Text.bytesOf text) vocabulary kind pos = some call) :
    call.start = pos ∧ (Text.bytesOf text)[pos]? = some (Text.byte '\x27') ∧
      Quoted.EndsFrom (Text.bytesOf text) (Text.byte '\x27') pos (pos + 1) call.stop ∧
      (Text.bytesOf call.name).toList =
        Quoted.keptFrom (Text.bytesOf text) pos (pos + 1) call.stop ∧
      Text.decode? (Quoted.keptFrom (Text.bytesOf text) pos (pos + 1) call.stop) =
        some call.name.toList := by
  obtain ⟨quote, start⟩ := Locator.quote_of_at? hit
  obtain ⟨name, stop⟩ := read_of_at? hit
  obtain ⟨chars, value, ends, kept⟩ :=
    Quoted.exists_read_of_quote (show SnapFile.Quote.single ≠ .backtick by decide) quote
  rw [← stop] at ends kept
  refine ⟨start, quote, ends, ?_, ?_⟩
  · rw [kept, name, value, Text.toList_bytesOf, String.toList_ofList]
  · rw [kept, Text.decode?_encode, name, value, String.toList_ofList]

/-- Two calls: the name of the first has three escapes, the second is cut off behind a backslash. -/
def escapedNames : String := "é it('\\✓\\'\\\\', it('é\\"

theorem names_of_escapedNames :
    at? (Text.bytesOf escapedNames) .builtIn .test 6 =
        some { kind := .test, name := "✓'\\", start := 6, stop := 15 } ∧
      Quoted.EndsFrom (Text.bytesOf escapedNames) (Text.byte '\x27') 6 7 15 ∧
      (Text.bytesOf "✓'\\").toList = Quoted.keptFrom (Text.bytesOf escapedNames) 6 7 15 ∧
      at? (Text.bytesOf escapedNames) .builtIn .test 21 =
        some { kind := .test, name := "é", start := 21, stop := 25 } ∧
      (Text.bytesOf "é").toList = Quoted.keptFrom (Text.bytesOf escapedNames) 21 22 25 := by
  have first : at? (Text.bytesOf escapedNames) .builtIn .test 6 =
      some { kind := .test, name := "✓'\\", start := 6, stop := 15 } := by decide +kernel
  have second : at? (Text.bytesOf escapedNames) .builtIn .test 21 =
      some { kind := .test, name := "é", start := 21, stop := 25 } := by decide +kernel
  obtain ⟨-, -, ends, kept, -⟩ := name_exact first
  obtain ⟨-, -, -, keptSecond, -⟩ := name_exact second
  exact ⟨first, ends, kept, second, keptSecond⟩

end Call

end SnapshotPreview

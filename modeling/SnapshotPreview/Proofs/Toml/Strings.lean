import SnapshotPreview.Proofs.Text
import SnapshotPreview.Toml.Printer
import SnapshotPreview.Toml.Strings

/-!
# Strings that are written and read

Reading a string that has been written gives the string back, whatever its characters are and
whichever of the four forms has been chosen for it (`readString_writeString`). Of the quotes in a
string on several lines no three that come one after the other are written as they are, and those
at its end are told from the closing ones.
-/

namespace SnapshotPreview.Toml

/-! ## Escapes -/

/-- What follows the backslash of an escape for a character. It does not look like the end of a
line. -/
structure IsEscape (c : Char) (code : List Char) : Prop where
  reads : ∀ rest, readEscape (code ++ rest) = some (c, rest)
  sameLine : ∀ rest, afterNewline? (skipBlanks (code ++ rest)) = none

theorem isEscape_of_short {c letter : Char} (short : shortEscape? letter = some c)
    (solid : isBlank letter = false) (noFeed : letter ≠ '\n') (noReturn : letter ≠ '\r') :
    IsEscape c [letter] where
  reads rest := by rw [List.singleton_append, readEscape, short]
  sameLine rest := by
    rw [List.singleton_append, skipBlanks, List.dropWhile_cons_of_neg (by simp [solid])]
    unfold afterNewline?
    split
    · simp_all
    · simp_all
    · rfl

/-- The code of a control reads as the control. -/
theorem numberOf?_codeEscape : ∀ n < 128,
    numberOf? 16 ['0', '0', upperHexDigit (n / 16), upperHexDigit (n % 16)] = some n := by
  decide

theorem isEscape_code {c : Char} (ascii : c.toNat < 128) :
    IsEscape c ['u', '0', '0', upperHexDigit (c.toNat / 16), upperHexDigit (c.toNat % 16)] where
  reads rest := by
    have code := numberOf?_codeEscape c.toNat ascii
    have char : charOf? c.toNat = some c := by
      rw [charOf?, if_pos (by simp; omega), Char.ofNat_toNat]
    simp only [readEscape, List.cons_append, List.nil_append]
    rw [show shortEscape? 'u' = none from rfl, show codeWidth? 'u' = some 4 from rfl]
    simp [readCode, code, char]
  sameLine rest := rfl

/-- A character that is not a double quote is written as an escape, or as it is if it may stand for
itself. -/
theorem escapeChar_cases (c : Char) :
    (∃ code, escapeChar c = '\\' :: code ∧ IsEscape c code) ∨
      (escapeChar c = [c] ∧ isPlain c = true ∧ c ≠ '\\' ∧ c ≠ '\r') := by
  by_cases short : c ∈ ['\x08', '\t', '\n', '\x0c', '\r', '\\']
  · simp only [List.mem_cons, List.not_mem_nil, or_false] at short
    rcases short with rfl | rfl | rfl | rfl | rfl | rfl
    all_goals exact .inl ⟨_, rfl, isEscape_of_short rfl (by decide) (by decide) (by decide)⟩
  · simp only [List.mem_cons, List.not_mem_nil, or_false, not_or] at short
    obtain ⟨noBackspace, noTab, noFeed, noPage, noReturn, noBackslash⟩ := short
    rw [escapeChar, if_neg noBackspace, if_neg noTab, if_neg noFeed, if_neg noPage,
      if_neg noReturn, if_neg noBackslash]
    split
    · rename_i control
      have ascii : c.toNat < 128 := by
        simp only [isControl, Bool.or_eq_true, Bool.and_eq_true, beq_iff_eq,
          decide_eq_true_eq] at control
        omega
      exact .inl ⟨_, rfl, isEscape_code ascii⟩
    · rename_i free
      refine .inr ⟨rfl, ?_, noBackslash, noReturn⟩
      simp only [isControl, isPlain] at free ⊢
      simp_all

/-! ## Strings on one line -/

/-- No quote stands next. -/
def EndsString (rest : List Char) : Prop := ∀ c ∈ rest.head?, isQuote c = false

theorem readLine_escape {c : Char} {code : List Char} (escape : IsEscape c code)
    (rest : List Char) :
    readLine '"' ('\\' :: code ++ rest) = prepend c (readLine '"' rest) := by
  rw [List.cons_append, readLine, if_neg (by decide), if_pos ⟨rfl, rfl⟩]
  split
  · rename_i escaped behind reads
    rw [escape.reads] at reads
    cases reads
    rfl
  · rename_i fails
    rw [escape.reads] at fails
    cases fails

theorem readLine_plain {quote c : Char} (other : c ≠ quote) (noEscape : ¬ (c = '\\' ∧ quote = '"'))
    (plain : isPlain c = true) (rest : List Char) :
    readLine quote (c :: rest) = prepend c (readLine quote rest) := by
  rw [readLine, if_neg other, if_neg noEscape, if_pos plain]

theorem readLine_close (quote : Char) (rest : List Char) :
    readLine quote (quote :: rest) = some ([], rest) := by
  rw [readLine, if_pos rfl]

theorem readLine_escapeLine (cs rest : List Char) :
    readLine '"' (escapeLine cs ++ '"' :: rest) = some (cs, rest) := by
  induction cs with
  | nil => exact readLine_close '"' rest
  | cons c cs ih =>
    rw [escapeLine, List.append_assoc]
    split
    · rename_i same
      have escape : IsEscape '"' ['"'] :=
        isEscape_of_short rfl (by decide) (by decide) (by decide)
      have reads := readLine_escape escape (escapeLine cs ++ '"' :: rest)
      rw [ih] at reads
      rw [same]
      exact reads
    · rename_i other
      rcases escapeChar_cases c with ⟨code, written, escape⟩ | ⟨written, plain, noEscape, -⟩
      · rw [written, readLine_escape escape, ih]
        rfl
      · rw [written, List.singleton_append,
          readLine_plain other (fun both => noEscape both.1) plain, ih]
        rfl

theorem readLine_literal {cs : List Char} (plain : ∀ c ∈ cs, isPlain c = true)
    (noQuote : '\x27' ∉ cs) (rest : List Char) :
    readLine '\x27' (cs ++ '\x27' :: rest) = some (cs, rest) := by
  induction cs with
  | nil => exact readLine_close '\x27' rest
  | cons c cs ih =>
    rw [List.forall_mem_cons] at plain
    rw [List.mem_cons, not_or] at noQuote
    rw [List.cons_append,
      readLine_plain (Ne.symm noQuote.1) (fun both => absurd both.2 (by decide)) plain.1,
      ih plain.2 noQuote.2]
    rfl

/-! ## Strings on several lines -/

theorem closeBlock?_of_not_prefix {quote : Char} {cs : List Char}
    (open_ : ¬ [quote, quote, quote] <+: cs) : closeBlock? quote cs = none := by
  rw [closeBlock?, Option.map_eq_none_iff]
  cases closes : Text.afterPrefix? [quote, quote, quote] cs with
  | none => rfl
  | some rest => exact absurd ⟨rest, (Text.afterPrefix?_eq_some_iff.mp closes).symm⟩ open_

/-- The three closing quotes and up to two quotes before them. -/
theorem readBlock_close {quote : Char} (count : Nat) (few : count ≤ 2) {rest : List Char}
    (ends : rest.head? ≠ some quote) :
    readBlock quote (List.replicate count quote ++ ([quote, quote, quote] ++ rest)) =
      some (List.replicate count quote, rest) := by
  have cut : List.replicate count quote ++ ([quote, quote, quote] ++ rest) =
      [quote, quote, quote] ++ (List.replicate count quote ++ rest) := by
    rw [← List.append_assoc, ← List.append_assoc, show [quote, quote, quote] =
      List.replicate 3 quote from rfl, List.replicate_append_replicate,
      List.replicate_append_replicate, Nat.add_comm]
  have more : (List.replicate count quote ++ rest).takeWhile (· == quote) =
      List.replicate count quote := by
    rw [List.takeWhile_append_of_pos (by simp)]
    cases rest with
    | nil => simp
    | cons c rest =>
      rw [List.takeWhile_cons_of_neg (by simpa using ends), List.append_nil]
  have closes : closeBlock? quote (List.replicate count quote ++ ([quote, quote, quote] ++ rest)) =
      some (List.replicate count quote, rest) := by
    rw [closeBlock?, cut, Text.afterPrefix?_eq_some_iff.mpr rfl, Option.map_some, more]
    simp [few, List.take_replicate]
  rw [readBlock.eq_def, closes]

theorem readBlock_plain {quote c : Char} {rest : List Char}
    (open_ : ¬ [quote, quote, quote] <+: c :: rest) (noEscape : ¬ (c = '\\' ∧ quote = '"'))
    (stands : isBlockChar c rest = true) :
    readBlock quote (c :: rest) = prepend c (readBlock quote rest) := by
  rw [readBlock, closeBlock?_of_not_prefix open_]
  simp only [noEscape, stands, if_false, if_true]

theorem readBlock_escape {c : Char} {code : List Char} (escape : IsEscape c code)
    (rest : List Char) :
    readBlock '"' ('\\' :: code ++ rest) = prepend c (readBlock '"' rest) := by
  have open_ : ¬ ['"', '"', '"'] <+: '\\' :: (code ++ rest) := by
    rintro ⟨more, parts⟩
    cases parts
  rw [List.cons_append, readBlock, closeBlock?_of_not_prefix open_]
  simp only [true_and, if_true]
  split
  · rename_i next feeds
    rw [escape.sameLine] at feeds
    cases feeds
  · split
    · rename_i escaped behind reads
      rw [escape.reads] at reads
      cases reads
      rfl
    · rename_i fails
      rw [escape.reads] at fails
      cases fails

/-- A quote that two others do not follow is read as itself, also right before the closing
quotes. -/
theorem readBlock_quote {quote : Char} {body cs rest : List Char}
    (stands : isPlain quote = true) (noEscape : quote ≠ '\\') (few : ¬ [quote, quote] <+: body)
    (ends : rest.head? ≠ some quote)
    (reads : readBlock quote (body ++ ([quote, quote, quote] ++ rest)) = some (cs, rest)) :
    readBlock quote (quote :: (body ++ ([quote, quote, quote] ++ rest))) =
      some (quote :: cs, rest) := by
  by_cases closes : [quote, quote, quote] <+: quote :: (body ++ ([quote, quote, quote] ++ rest))
  · -- Only quotes stand before the closing ones.
    rw [List.cons_prefix_cons] at closes
    match body, closes.2 with
    | [], _ =>
      have none := readBlock_close 0 (by decide) ends
      rw [show List.replicate 0 quote = [] from rfl] at none
      rw [none] at reads
      cases reads
      exact readBlock_close 1 (by decide) ends
    | [d], begins =>
      obtain rfl : quote = d := (List.cons_prefix_cons.mp begins).1
      have one := readBlock_close 1 (by decide) ends
      rw [show List.replicate 1 quote = [quote] from rfl] at one
      rw [one] at reads
      cases reads
      exact readBlock_close 2 (by decide) ends
    | d :: e :: body, begins =>
      obtain ⟨first, begins⟩ := List.cons_prefix_cons.mp begins
      obtain ⟨second, -⟩ := List.cons_prefix_cons.mp begins
      exact absurd ⟨body, by rw [← first, ← second]; rfl⟩ few
  · rw [readBlock_plain closes (fun both => noEscape both.1) (by rw [isBlockChar, stands]; rfl),
      reads]
    rfl

theorem not_prefix_of_ne {quote c : Char} (other : c ≠ quote) (quotes cs : List Char) :
    ¬ quote :: quotes <+: c :: cs := fun begins => other (List.cons_prefix_cons.mp begins).1.symm

theorem readBlock_literal {cs : List Char} (plain : ∀ c ∈ cs, isPlain c = true ∨ c = '\n')
    (noTriple : ¬ ['\x27', '\x27', '\x27'] <:+: cs) {rest : List Char}
    (ends : rest.head? ≠ some '\x27') :
    readBlock '\x27' (cs ++ (['\x27', '\x27', '\x27'] ++ rest)) = some (cs, rest) := by
  induction cs with
  | nil => exact readBlock_close 0 (by decide) ends
  | cons c cs ih =>
    rw [List.forall_mem_cons] at plain
    have reads := ih plain.2 fun isIn => noTriple (isIn.trans (List.suffix_cons c cs).isInfix)
    rw [List.cons_append]
    by_cases same : c = '\x27'
    · subst same
      refine readBlock_quote (by decide) (by decide) (fun begins => noTriple ?_) ends reads
      exact (List.cons_prefix_cons.mpr ⟨rfl, begins⟩).isInfix
    · have stands : isBlockChar c (cs ++ (['\x27', '\x27', '\x27'] ++ rest)) = true := by
        rcases plain.1 with plain | feed
        · rw [isBlockChar, plain]
          rfl
        · rw [feed]
          rfl
      rw [readBlock_plain (not_prefix_of_ne same _ _) (fun both => absurd both.2 (by decide))
        stands, reads]
      rfl

/-- What is written for a character other than a quote does not begin with one. -/
theorem head_escapeChar {c : Char} (other : c ≠ '"') :
    ∃ d more, escapeChar c = d :: more ∧ d ≠ '"' ∧ d ≠ '\n' ∧ d ≠ '\r' := by
  rcases escapeChar_cases c with ⟨code, written, -⟩ | ⟨written, plain, -, noReturn⟩
  · exact ⟨_, _, written, by decide, by decide, by decide⟩
  · refine ⟨_, _, written, other, ?_, noReturn⟩
    rintro rfl
    cases plain

theorem head_escapeBlock {c : Char} (other : c ≠ '"') (run : Nat) (cs : List Char) :
    ∃ d more, escapeBlock run (c :: cs) = d :: more ∧ d ≠ '"' := by
  rw [escapeBlock, if_neg other]
  split
  · exact ⟨_, _, rfl, by decide⟩
  · obtain ⟨d, more, written, noQuote, -⟩ := head_escapeChar other
    exact ⟨d, _, by rw [written]; rfl, noQuote⟩

/-- After two quotes, a third is not written as it is. -/
theorem not_prefix_escapeBlock_two (cs : List Char) : ¬ ['"'] <+: escapeBlock 2 cs := by
  cases cs with
  | nil => exact fun begins => absurd (List.prefix_nil.mp begins) (List.cons_ne_nil _ _)
  | cons c cs =>
    by_cases same : c = '"'
    · rw [same, escapeBlock, if_pos rfl, if_pos rfl]
      exact not_prefix_of_ne (by decide) _ _
    · obtain ⟨d, more, written, other⟩ := head_escapeBlock same 2 cs
      rw [written]
      exact not_prefix_of_ne other _ _

/-- After a quote, two more are not both written as they are. -/
theorem not_prefix_escapeBlock {run : Nat} (few : run < 2) (cs : List Char) :
    ¬ ['"', '"'] <+: escapeBlock (run + 1) cs := by
  cases cs with
  | nil => exact fun begins => absurd (List.prefix_nil.mp begins) (List.cons_ne_nil _ _)
  | cons c cs =>
    by_cases same : c = '"'
    · rw [same, escapeBlock, if_pos rfl]
      split
      · exact not_prefix_of_ne (by decide) _ _
      · rename_i notThird
        obtain rfl : run = 0 := by omega
        exact fun begins =>
          not_prefix_escapeBlock_two cs (List.cons_prefix_cons.mp begins).2
    · obtain ⟨d, more, written, other⟩ := head_escapeBlock same (run + 1) cs
      rw [written]
      exact not_prefix_of_ne other _ _

theorem readBlock_escapeBlock {run : Nat} (few : run ≤ 2) (cs : List Char) {rest : List Char}
    (ends : rest.head? ≠ some '"') :
    readBlock '"' (escapeBlock run cs ++ (['"', '"', '"'] ++ rest)) = some (cs, rest) := by
  induction cs generalizing run with
  | nil => exact readBlock_close 0 (by decide) ends
  | cons c cs ih =>
    rw [escapeBlock]
    split
    · rename_i same
      subst same
      split
      · have escape : IsEscape '"' ['"'] :=
          isEscape_of_short rfl (by decide) (by decide) (by decide)
        have reads := readBlock_escape escape (escapeBlock 0 cs ++ (['"', '"', '"'] ++ rest))
        rw [ih (by decide)] at reads
        exact reads
      · rename_i notThird
        exact readBlock_quote (by decide) (by decide) (not_prefix_escapeBlock (by omega) cs) ends
          (ih (show run + 1 ≤ 2 by omega))
    · rename_i other
      split
      · rename_i feed
        rw [feed, List.cons_append, readBlock_plain (not_prefix_of_ne (by decide) _ _)
          (fun both => absurd both.1 (by decide)) rfl, ih (by decide)]
        rfl
      · rename_i noFeed
        rw [List.append_assoc]
        rcases escapeChar_cases c with ⟨code, written, escape⟩ | ⟨written, plain, noEscape, -⟩
        · rw [written, readBlock_escape escape, ih (by decide)]
          rfl
        · rw [written, List.singleton_append, readBlock_plain (not_prefix_of_ne other _ _)
            (fun both => noEscape both.1) (by rw [isBlockChar, plain]; rfl), ih (by decide)]
          rfl

/-! ## All forms -/

theorem isPlain_of_not_isControl {c : Char} (free : isControl c = false) :
    isPlain c = true ∨ c = '\n' := by
  by_cases feed : c = '\n'
  · exact .inr feed
  · left
    simp only [isControl, isPlain] at free ⊢
    simp_all
    rcases Nat.lt_or_ge c.toNat 32 with low | high
    · exact .inl (free.2 low)
    · exact .inr high

theorem not_mem_of_literalLine {cs : List Char} (form : StringForm.of cs = .literalLine) :
    (∀ c ∈ cs, isControl c = false) ∧ '\n' ∉ cs ∧ '\x27' ∉ cs ∧ cs ≠ [] := by
  simp only [StringForm.of] at form
  split at form
  · cases form
  · rename_i escapes
    split at form
    · rename_i free
      simp only [Bool.and_eq_true, Bool.not_eq_true', List.any_eq_false, List.contains_eq_mem,
        decide_eq_false_iff_not, Bool.not_eq_true] at free
      refine ⟨free.1.1, free.1.2, free.2, ?_⟩
      rintro rfl
      exact escapes rfl
    · split at form
      · cases form
      · split at form
        · cases form
        · split at form <;> cases form

theorem not_infix_of_literalBlock {cs : List Char} (form : StringForm.of cs = .literalBlock) :
    (∀ c ∈ cs, isControl c = false) ∧ ¬ ['\x27', '\x27', '\x27'] <:+: cs := by
  simp only [StringForm.of] at form
  split at form
  · cases form
  · split at form
    · cases form
    · split at form
      · cases form
      · split at form
        · rename_i free
          simp only [Bool.and_eq_true, Bool.not_eq_true', List.any_eq_false,
            Bool.not_eq_true, hasTriple] at free
          refine ⟨free.1, fun isIn => ?_⟩
          rw [Text.occursIn_iff.mpr isIn] at free
          cases free.2
        · split at form <;> cases form

/-- The line feed after the opening quotes is passed over, and nothing else is. -/
theorem afterNewline?_openingLine {cs body : List Char}
    (same : '\n' ∉ cs → ∀ c ∈ body.head?, c ≠ '\n' ∧ c ≠ '\r') :
    (afterNewline? (openingLine cs ++ body)).getD (openingLine cs ++ body) = body := by
  rw [openingLine]
  split
  · rfl
  · rename_i noFeed
    have first := same (by simpa using noFeed)
    rw [List.nil_append]
    cases body with
    | nil => rfl
    | cons c body =>
      obtain ⟨notFeed, notReturn⟩ := first c rfl
      unfold afterNewline?
      split
      · simp_all
      · simp_all
      · rfl

section
variable {quote : Char} {cs body rest : List Char} (isOne : isQuote quote = true)
include isOne

theorem EndsString.head?_ne (ends : EndsString rest) : rest.head? ≠ some quote := by
  intro first
  rw [ends quote first] at isOne
  cases isOne

/-- The quotes of a string on one line are not taken for those of a string on several, even if the
string is empty. -/
theorem readString_line (ends : EndsString rest) (first : body.head? ≠ some quote)
    (reads : readLine quote (body ++ quote :: rest) = some (cs, rest)) :
    readString (quote :: (body ++ quote :: rest)) = some (String.ofList cs, rest) := by
  have single : ¬ [quote, quote] <+: body ++ quote :: rest := by
    intro begins
    cases body with
    | nil =>
      obtain ⟨more, parts⟩ := (List.cons_prefix_cons.mp begins).2
      exact ends.head?_ne isOne (by rw [← parts]; rfl)
    | cons c body => exact first (by rw [(List.cons_prefix_cons.mp begins).1]; rfl)
  have none : Text.afterPrefix? [quote, quote] (body ++ quote :: rest) = none := by
    cases found : Text.afterPrefix? [quote, quote] (body ++ quote :: rest) with
    | none => rfl
    | some more => exact absurd ⟨more, (Text.afterPrefix?_eq_some_iff.mp found).symm⟩ single
  rw [readString, if_pos isOne, none]
  dsimp only
  rw [reads, Option.map_some]

theorem readString_block
    (first : '\n' ∉ cs →
      ∀ c ∈ (body ++ ([quote, quote, quote] ++ rest)).head?, c ≠ '\n' ∧ c ≠ '\r')
    (reads : readBlock quote (body ++ ([quote, quote, quote] ++ rest)) = some (cs, rest)) :
    readString ([quote, quote, quote] ++ openingLine cs ++ body ++ [quote, quote, quote] ++ rest) =
      some (String.ofList cs, rest) := by
  have cut : [quote, quote, quote] ++ openingLine cs ++ body ++ [quote, quote, quote] ++ rest =
      quote :: ([quote, quote] ++
        (openingLine cs ++ (body ++ ([quote, quote, quote] ++ rest)))) := by
    simp
  rw [cut, readString, if_pos isOne, Text.afterPrefix?_eq_some_iff.mpr rfl]
  dsimp only
  rw [afterNewline?_openingLine first, reads, Option.map_some]

end

theorem head?_escapeLine (cs : List Char) : (escapeLine cs).head? ≠ some '"' := by
  cases cs with
  | nil => exact nofun
  | cons c cs =>
    rw [escapeLine]
    split
    · simp
    · rename_i other
      obtain ⟨d, more, written, noQuote, -⟩ := head_escapeChar other
      rw [written]
      simpa using noQuote

theorem head?_escapeBlock (cs : List Char) (noFeed : '\n' ∉ cs) (rest : List Char) :
    ∀ c ∈ (escapeBlock 0 cs ++ ('"' :: rest)).head?, c ≠ '\n' ∧ c ≠ '\r' := by
  cases cs with
  | nil => simp [escapeBlock]
  | cons c cs =>
    rw [List.mem_cons, not_or] at noFeed
    rw [escapeBlock]
    split
    · simp
    · rename_i other
      obtain ⟨d, more, written, -, notFeed, notReturn⟩ := head_escapeChar other
      rw [if_neg (Ne.symm noFeed.1), written]
      rintro _ ⟨rfl⟩
      exact ⟨notFeed, notReturn⟩

/-- A string that has been written is read again. -/
theorem readString_writeString (s : String) {rest : List Char} (ends : EndsString rest) :
    readString (writeString s ++ rest) = some (s, rest) := by
  obtain ⟨cs, rfl⟩ : ∃ cs, s = String.ofList cs := ⟨s.toList, String.ofList_toList.symm⟩
  rw [writeString, String.toList_ofList]
  cases form : StringForm.of cs with
  | line =>
    have reads := readLine_escapeLine cs rest
    have read := readString_line (by decide) ends (head?_escapeLine cs) reads
    rwa [writeAs, List.append_assoc, List.cons_append, List.singleton_append]
  | literalLine =>
    obtain ⟨free, noFeed, noQuote, nonempty⟩ := not_mem_of_literalLine form
    have plain : ∀ c ∈ cs, isPlain c = true := fun c isIn =>
      (isPlain_of_not_isControl (free c isIn)).resolve_right fun same => noFeed (same ▸ isIn)
    have first : cs.head? ≠ some '\x27' := fun first => noQuote (List.mem_of_head? first)
    have read := readString_line (by decide) ends first (readLine_literal plain noQuote rest)
    rwa [writeAs, List.append_assoc, List.cons_append, List.singleton_append]
  | block =>
    have reads := readBlock_escapeBlock (show 0 ≤ 2 by decide) cs (ends.head?_ne (by decide))
    exact readString_block (by decide) (fun noFeed => head?_escapeBlock cs noFeed _) reads
  | literalBlock =>
    obtain ⟨free, noTriple⟩ := not_infix_of_literalBlock form
    have plain : ∀ c ∈ cs, isPlain c = true ∨ c = '\n' := fun c isIn =>
      isPlain_of_not_isControl (free c isIn)
    have reads := readBlock_literal plain noTriple (ends.head?_ne (by decide))
    refine readString_block (by decide) (fun noFeed => ?_) reads
    cases cs with
    | nil => simp
    | cons c cs =>
      rintro _ ⟨rfl⟩
      have notFeed : c ≠ '\n' := fun same => noFeed (by simp [same])
      refine ⟨notFeed, ?_⟩
      rintro rfl
      exact absurd ((plain _ List.mem_cons_self).resolve_right notFeed) (by decide)

end SnapshotPreview.Toml

import SnapshotPreview.Proofs.Decorations
import SnapshotPreview.Proofs.Json.Thinning

/-!
# What is printed again for JSON

Names of types and last commas are taken off the text of a JSON value before it is read, wherever
they stand, so also within its strings. What is left is JSON, with nothing but plain characters of
its strings missing, and is printed as the value itself exactly if no string has a decoration in it
(`reserialize_of_parse`).
-/

namespace SnapshotPreview.Structured

open Text
open Json (Gap Literal Piece HexDigit Numeral Kind Label Tree Document noGap oneSpace)

/-! ## Names of types in a text -/

/-- Whether a word goes on behind a text. -/
def inWord (within : Bool) : List Char → Bool
  | [] => within
  | c :: cs => inWord (isWord c) cs

theorem inWord_append (within : Bool) (first second : List Char) :
    inWord within (first ++ second) = inWord (inWord within first) second := by
  induction first generalizing within with
  | nil => rfl
  | cons c first ih => exact ih (isWord c)

/-- A name of a type stands before a bracket, and is not the end of a longer word. -/
def HasTypeName (cs : List Char) : Prop :=
  ∃ before name c after, cs = before ++ (name ++ c :: after) ∧ name ∈ typeNames ∧
    isOpening c = true ∧ inWord false before = false

/-- No name of a type is taken off a text. -/
def Nameless (within : Bool) (cs : List Char) : Prop :=
  ∀ before rest, cs = before ++ rest → inWord within before = false → afterTypeName? rest = none

theorem nameless_iff {cs : List Char} : Nameless false cs ↔ ¬ HasTypeName cs := by
  constructor
  · rintro nameless ⟨before, name, c, after, rfl, isName, opening, apart⟩
    have idle := nameless before _ rfl apart
    rw [afterTypeName?_eq_some_iff.mpr ⟨name, isName, c, after, rfl, opening, rfl⟩] at idle
    cases idle
  · rintro absent before rest rfl apart
    refine Option.eq_none_iff_forall_ne_some.mpr fun left found => ?_
    obtain ⟨name, isName, c, after, rfl, opening, -⟩ := afterTypeName?_eq_some_iff.mp found
    exact absent ⟨before, name, c, after, rfl, isName, opening, apart⟩

theorem Nameless.of_append {within : Bool} {front cs : List Char}
    (nameless : Nameless within (front ++ cs)) : Nameless (inWord within front) cs := by
  intro before rest parted apart
  rw [← inWord_append] at apart
  exact nameless (front ++ before) rest (by rw [parted, List.append_assoc]) apart

theorem length_dropTypeNames_le (within : Bool) (cs : List Char) :
    (dropTypeNames within cs).length ≤ cs.length := by
  fun_induction dropTypeNames within cs with
  | case1 within cs rest found ih =>
    have shorter : rest.length < cs.length := by
      split at found
      · cases found
      · exact length_lt_of_afterTypeName? found
    omega
  | case2 => exact Nat.le_refl _
  | case3 within c rest found ih =>
    have ih : (dropTypeNames (isWord c) rest).length ≤ rest.length := ih
    simp only [List.length_cons]
    omega

theorem afterTypeName?_of_length {cs : List Char}
    (same : (dropTypeNames false cs).length = cs.length) : afterTypeName? cs = none := by
  refine Option.eq_none_iff_forall_ne_some.mpr fun left found => ?_
  have shorter := length_lt_of_afterTypeName? found
  obtain ⟨name, isName, c, after, rfl, opening, rfl⟩ := afterTypeName?_eq_some_iff.mp found
  have noLonger := length_dropTypeNames_le true (c :: after)
  rw [dropTypeNames_name isName opening] at same
  omega

/-- If no character is lost, no name is taken off: what is lost does not come back. -/
theorem nameless_of_length {within : Bool} {cs : List Char}
    (same : (dropTypeNames within cs).length = cs.length) : Nameless within cs := by
  rintro before rest rfl apart
  induction before generalizing within with
  | nil =>
    obtain rfl : within = false := apart
    exact afterTypeName?_of_length same
  | cons c before ih =>
    have idle : within = true ∨ afterTypeName? (c :: (before ++ rest)) = none := by
      cases within with
      | true => exact .inl rfl
      | false => exact .inr (afterTypeName?_of_length same)
    rw [List.cons_append, dropTypeNames_cons idle, List.length_cons, List.length_cons] at same
    exact ih (Nat.succ.inj same) apart

theorem dropTypeNames_of_nameless {within : Bool} {cs : List Char} (nameless : Nameless within cs) :
    dropTypeNames within cs = cs := by
  induction cs generalizing within with
  | nil => exact dropTypeNames_nil within
  | cons c cs ih =>
    have idle : within = true ∨ afterTypeName? (c :: cs) = none := by
      cases within with
      | true => exact .inl rfl
      | false => exact .inr (nameless [] _ rfl rfl)
    have later : Nameless (inWord within [c]) cs := nameless.of_append
    rw [dropTypeNames_cons idle]
    exact congrArg (c :: ·) (ih later)

/-! ## Names of types in a string -/

theorem quote_not_mem_name {name : List Char} {c : Char} (isName : name ∈ typeNames)
    (opening : isOpening c = true) : '"' ∉ name ++ [c] := by
  have names : ∀ name ∈ typeNames, '"' ∉ name := by
    simp [typeNames]
  refine List.not_mem_append (names name isName) fun isLast => ?_
  rw [← List.mem_singleton.mp isLast] at opening
  cases opening

/-- No name goes on behind the end of a string. -/
theorem afterTypeName?_quote {cs : List Char} (idle : afterTypeName? cs = none) (rest : List Char) :
    afterTypeName? (cs ++ '"' :: rest) = none := by
  refine Option.eq_none_iff_forall_ne_some.mpr fun left found => ?_
  obtain ⟨name, isName, c, after, parts, opening, -⟩ := afterTypeName?_eq_some_iff.mp found
  rw [List.append_cons name] at parts
  obtain ⟨more, rfl, -⟩ := exists_of_append_cons parts (quote_not_mem_name isName opening)
  rw [List.append_assoc, List.singleton_append] at idle
  rw [afterTypeName?_eq_some_iff.mpr ⟨name, isName, c, more, rfl, opening, rfl⟩] at idle
  cases idle

/-- Pieces of a string whose text has no escapes in it. -/
theorem exists_plain_front {cs : List Char} (plain : '\\' ∉ cs) {l : Literal} {more : List Char}
    (begins : l.inner = cs ++ more) : ∃ front back : Literal, l = front ++ back ∧
      front.inner = cs ∧ back.inner = more ∧ front.Thins [] := by
  induction cs generalizing l with
  | nil => exact ⟨[], l, rfl, rfl, begins, .nil⟩
  | cons c cs ih =>
    rw [List.mem_cons, not_or] at plain
    cases l with
    | nil => cases begins
    | cons piece l =>
      rw [Json.literal_inner_cons] at begins
      cases piece with
      | plain d inString =>
        obtain ⟨rfl, later⟩ := List.cons.inj begins
        obtain ⟨front, back, rfl, rfl, behind, thins⟩ := @ih plain.2 l later
        exact ⟨.plain d inString :: front, back, rfl, rfl, behind, .drop thins⟩
      | short d known => exact absurd (List.cons.inj begins).1 plain.1
      | unicode a b c d => exact absurd (List.cons.inj begins).1 plain.1

theorem toNat_hexDigit_lt (d : HexDigit) : d.val.toNat < 128 := by
  obtain ⟨c, known⟩ := d
  simp only [Json.hexValue?, Bool.and_eq_true, decide_eq_true_eq, Char.le_def,
    UInt32.le_iff_toNat_le] at known
  show c.val.toNat < 128
  split at known
  · rename_i upTo
    exact Nat.lt_of_le_of_lt upTo.2 (by decide)
  split at known
  · rename_i upTo
    exact Nat.lt_of_le_of_lt upTo.2 (by decide)
  split at known
  · rename_i upTo
    exact Nat.lt_of_le_of_lt upTo.2 (by decide)
  · cases known

theorem isWord_hexDigit (d : HexDigit) : isWord d.val = true := by
  have upTo : ∀ n < 128, (Json.hexValue? (Char.ofNat n)).isSome = true →
      isWord (Char.ofNat n) = true := by decide +kernel
  have here := upTo d.val.toNat (toNat_hexDigit_lt d)
  rw [Char.ofNat_toNat] at here
  exact here d.property

theorem dropTypeNames_cons_of_other {c : Char} (other : c ∉ ['O', 'A']) (within : Bool)
    (cs : List Char) : dropTypeNames within (c :: cs) = c :: dropTypeNames (isWord c) cs :=
  @dropTypeNames_append [] c (by simpa using other) within cs

/-- Within a piece no name begins. -/
theorem dropTypeNames_piece (piece : Piece) {within : Bool} {cs : List Char}
    (idle : within = true ∨ afterTypeName? (piece.text ++ cs) = none) :
    dropTypeNames within (piece.text ++ cs) =
      piece.text ++ dropTypeNames (inWord within piece.text) cs := by
  cases piece with
  | plain c inString => exact dropTypeNames_cons idle
  | short c known =>
    have letter : c ∉ ['O', 'A'] := by
      have names : ∀ c ∈ ['O', 'A'], (Json.shortEscape? c).isSome = false :=
        forall_mem_of_all (by decide)
      intro isIn
      rw [names c isIn] at known
      cases known
    exact @dropTypeNames_append ['\\'] c (by simpa using letter) within cs
  | unicode a b c d =>
    have front := @dropTypeNames_append ['\\'] 'u' (forall_mem_of_all (by decide)) within
    have digit (e : HexDigit) (cs : List Char) :
        dropTypeNames true (e.val :: cs) = e.val :: dropTypeNames true cs := by
      rw [dropTypeNames_cons (.inl rfl), isWord_hexDigit]
    have letter : isWord 'u' = true := by decide
    simp only [Piece.text, List.cons_append, List.nil_append] at front ⊢
    simp only [front, letter, digit, inWord, isWord_hexDigit]

/-- A name at the beginning of a string is taken off it, and the bracket behind it is not. -/
theorem exists_of_typeName {l : Literal} (found : (afterTypeName? l.inner).isSome) :
    ∃ front back : Literal, l = front ++ back ∧ back.length < l.length ∧ front.Thins [] ∧
      ∀ rest, dropTypeNames false (l.inner ++ rest) = dropTypeNames true (back.inner ++ rest) := by
  obtain ⟨left, found⟩ := Option.isSome_iff_exists.mp found
  obtain ⟨name, isName, c, after, parts, opening, -⟩ := afterTypeName?_eq_some_iff.mp found
  have noEscape : '\\' ∉ name ∧ name ≠ [] := by
    have names : ∀ name ∈ typeNames, '\\' ∉ name ∧ name ≠ [] := by simp [typeNames]
    exact names name isName
  obtain ⟨front, back, rfl, text, behind, plain⟩ := exists_plain_front noEscape.1 parts
  have nonempty : 0 < front.length := by
    refine List.length_pos_iff.mpr ?_
    rintro rfl
    exact noEscape.2 text.symm
  refine ⟨front, back, rfl, ?_, plain, fun rest => ?_⟩
  · rw [List.length_append]
    omega
  · rw [Json.inner_append, text, behind, List.append_assoc, List.cons_append,
      dropTypeNames_name isName opening]

/-- Taking the names off a string takes plain characters off it. The induction is on how much of the
string is left, since the bracket behind a name is not taken off with it. -/
theorem exists_thins_names (l : Literal) (within : Bool) : ∃ l' : Literal, l.Thins l' ∧
    (∀ rest, dropTypeNames within (l.inner ++ '"' :: rest) =
      l'.inner ++ '"' :: dropTypeNames false rest) ∧
    (Nameless within l.inner → l' = l) := by
  induction size : l.length using Nat.strongRecOn generalizing l within with
  | ind n ih =>
    by_cases name : within = false ∧ (afterTypeName? l.inner).isSome
    · obtain ⟨rfl, found⟩ := name
      obtain ⟨front, back, parted, shorter, plain, taken⟩ := exists_of_typeName found
      obtain ⟨l', thins, dropped, -⟩ := ih back.length (by rwa [← size]) back true rfl
      refine ⟨l', ?_, fun rest => ?_, fun nameless => ?_⟩
      · rw [parted]
        exact plain.append thins
      · rw [taken, dropped]
      · rw [nameless [] l.inner rfl rfl] at found
        cases found
    · cases l with
      | nil =>
        refine ⟨[], .nil, fun rest => ?_, fun _ => rfl⟩
        exact dropTypeNames_cons_of_other (by decide) within rest
      | cons piece l =>
        have idle (rest : List Char) : within = true ∨
            afterTypeName? (piece.text ++ (Literal.inner l ++ '"' :: rest)) = none := by
          cases within with
          | true => exact .inl rfl
          | false =>
            have here : afterTypeName? (Literal.inner (piece :: l)) = none := by
              simpa using name
            rw [← List.append_assoc]
            exact .inr (afterTypeName?_quote here rest)
        obtain ⟨l', thins, dropped, same⟩ :=
          ih l.length (by rw [← size]; exact Nat.lt_succ_self _) l (inWord within piece.text) rfl
        refine ⟨piece :: l', .keep thins, fun rest => ?_, fun nameless => ?_⟩
        · rw [Json.literal_inner_cons, Json.literal_inner_cons, List.append_assoc,
            dropTypeNames_piece piece (idle rest), dropped, List.append_assoc]
        · rw [same nameless.of_append]

/-! ## Last commas in a string -/

/-- A comma stands before a closing bracket, with nothing but white space between them. -/
def HasLastComma (cs : List Char) : Prop :=
  ∃ before gap c after, cs = before ++ ',' :: (gap ++ c :: after) ∧
    (∀ b ∈ gap, isBlank b = true) ∧ isClosing c = true

theorem lastComma_idle_iff {cs : List Char} : lastCommaRule.Idle cs ↔ ¬ HasLastComma cs := by
  constructor
  · rintro idle ⟨before, gap, c, after, rfl, blank, closing⟩
    have here := idle before _ rfl
    rw [lastCommaStep_eq_some_iff.mpr ⟨gap, c, blank, closing, rfl, rfl⟩] at here
    cases here
  · rintro absent before rest rfl
    refine Option.eq_none_iff_forall_ne_some.mpr ?_
    rintro ⟨out, left⟩ applies
    obtain ⟨gap, c, blank, closing, rfl, -⟩ := lastCommaStep_eq_some_iff.mp applies
    exact absent ⟨before, gap, c, left, rfl, blank, closing⟩

theorem lastCommaRule_loses : lastCommaRule.Loses fun _ => 1 := by
  intro cs out rest applies
  obtain ⟨gap, c, -, -, rfl, rfl⟩ := lastCommaStep_eq_some_iff.mp applies
  simp only [Rule.weight_one, List.length_cons, List.length_append, List.length_nil]
  omega

/-- Between a comma and a bracket stands neither a quote nor a backslash. -/
theorem not_mem_gap {gap : List Char} {c d : Char} (blank : ∀ b ∈ gap, isBlank b = true)
    (closing : isClosing c = true) (mark : d ∈ ['"', '\\']) : d ∉ gap ++ [c] := by
  have marks : ∀ d ∈ ['"', '\\'], isBlank d = false ∧ isClosing d = false :=
    forall_mem_of_all (by decide)
  refine List.not_mem_append (fun isIn => ?_) fun isLast => ?_
  · have isBlank := blank d isIn
    rw [(marks d mark).1] at isBlank
    cases isBlank
  · rw [← List.mem_singleton.mp isLast, (marks d mark).2] at closing
    cases closing

theorem lastCommaStep_quote {cs : List Char} (idle : lastCommaRule.step cs = none)
    (rest : List Char) : lastCommaRule.step (cs ++ '"' :: rest) = none := by
  refine Option.eq_none_iff_forall_ne_some.mpr ?_
  rintro ⟨out, left⟩ applies
  obtain ⟨gap, c, blank, closing, parts, -⟩ := lastCommaStep_eq_some_iff.mp applies
  rw [List.append_cons gap, ← List.cons_append] at parts
  have noQuote : '"' ∉ ',' :: (gap ++ [c]) :=
    List.not_mem_cons_of_ne_of_not_mem (by decide) (not_mem_gap blank closing (by decide))
  obtain ⟨more, rfl, -⟩ := exists_of_append_cons parts noQuote
  rw [List.cons_append, List.append_assoc, List.singleton_append] at idle
  rw [lastCommaStep_eq_some_iff.mpr ⟨gap, c, blank, closing, rfl, rfl⟩] at idle
  cases idle

theorem eq_plain_of_comma_mem {piece : Piece} (isIn : ',' ∈ piece.text) :
    ∃ inString, piece = .plain ',' inString := by
  cases piece with
  | plain c inString =>
    obtain rfl := List.mem_singleton.mp isIn
    exact ⟨inString, rfl⟩
  | short c known =>
    have letter : ',' ≠ c := by
      rintro rfl
      cases known
    simp [Piece.text, letter] at isIn
  | unicode a b c d =>
    have digit (e : HexDigit) : ',' ≠ e.val := by
      intro same
      have known := e.property
      rw [← same] at known
      cases known
    simp [Piece.text, digit] at isIn

/-- A last comma at the beginning of a string is taken off it. -/
theorem exists_of_lastComma {l : Literal} (comma : (lastCommaRule.step l.inner).isSome) :
    ∃ first front back : Literal, l = first ++ (front ++ back) ∧ back.length < l.length ∧
      first.Thins [] ∧
        ∀ rest, lastCommaRule.step (l.inner ++ rest) = some (front.inner, back.inner ++ rest) := by
  obtain ⟨⟨out, left⟩, applies⟩ := Option.isSome_iff_exists.mp comma
  obtain ⟨gap, c, blank, closing, parts, -⟩ := lastCommaStep_eq_some_iff.mp applies
  obtain ⟨first, others, rfl, commaText, behindComma, plain⟩ :=
    @exists_plain_front [','] (by decide) l (gap ++ c :: left) parts
  rw [List.append_cons] at behindComma
  obtain ⟨front, back, rfl, text, rfl, -⟩ :=
    exists_plain_front (not_mem_gap blank closing (by decide)) behindComma
  have nonempty : 0 < first.length := by
    refine List.length_pos_iff.mpr ?_
    rintro rfl
    cases commaText
  refine ⟨first, front, back, rfl, ?_, plain, fun rest => ?_⟩
  · rw [List.length_append, List.length_append]
    omega
  · rw [Json.inner_append, Json.inner_append, commaText, text]
    exact lastCommaStep_eq_some_iff.mpr ⟨gap, c, blank, closing, by simp, rfl⟩

/-- Taking the last commas off a string takes plain characters off it. -/
theorem exists_thins_commas (l : Literal) : ∃ l' : Literal, l.Thins l' ∧
    lastCommaRule.Sends (l.inner ++ ['"']) (l'.inner ++ ['"']) ∧
    (lastCommaRule.Idle l.inner → l' = l) := by
  induction size : l.length using Nat.strongRecOn generalizing l with
  | ind n ih =>
    by_cases comma : (lastCommaRule.step l.inner).isSome
    · obtain ⟨first, front, back, parted, shorter, plain, applies⟩ := exists_of_lastComma comma
      obtain ⟨l', thins, sends, -⟩ := ih back.length (by rwa [← size]) back rfl
      refine ⟨front ++ l', ?_, ?_, fun idle => ?_⟩
      · rw [parted]
        exact plain.append (front.thins_refl.append thins)
      · rw [Json.inner_append, List.append_assoc]
        refine Rule.sends_of_step (fun after => ?_) sends
        rw [List.append_assoc, List.append_assoc]
        exact applies (['"'] ++ after)
      · rw [idle [] l.inner rfl] at comma
        cases comma
    · have idle : lastCommaRule.step l.inner = none := by simpa using comma
      cases l with
      | nil =>
        refine ⟨[], .nil, ?_, fun _ => rfl⟩
        exact Rule.sends_of_not_mem lastCommaRule_needs (by decide)
      | cons piece l =>
        obtain ⟨l', thins, sends, same⟩ :=
          ih l.length (by rw [← size]; exact Nat.lt_succ_self _) l rfl
        refine ⟨piece :: l', .keep thins, ?_, fun idle => ?_⟩
        · rw [Json.literal_inner_cons, Json.literal_inner_cons, List.append_assoc,
            List.append_assoc]
          by_cases isIn : ',' ∈ piece.text
          · obtain ⟨inString, rfl⟩ := eq_plain_of_comma_mem isIn
            refine Rule.sends_cons (fun after => ?_) sends
            have here := lastCommaStep_quote idle after
            rwa [Json.literal_inner_cons, List.append_cons] at here
          · exact (Rule.sends_of_not_mem lastCommaRule_needs isIn).append sends
        · have later : lastCommaRule.Idle (Literal.inner l) := by
            intro before rest parted
            refine idle (piece.text ++ before) rest ?_
            rw [Json.literal_inner_cons, parted, List.append_assoc]
          rw [same later]

/-! ## Whole texts -/

/-- A way to change texts part by part, that leaves everything outside strings alone. -/
structure ChangesStrings (changes : List Char → List Char → Prop) : Prop where
  nil : changes [] []
  append {cs cs' ds ds' : List Char} : changes cs cs' → changes ds ds' →
    changes (cs ++ ds) (cs' ++ ds')
  other {c : Char} : c ∉ ['O', 'A', ','] → changes [c] [c]
  comma {kind : Kind} (entries : Tree (.entries kind)) {cs : List Char} :
    changes entries.text cs → changes (',' :: entries.text) (',' :: cs)

section
variable {changes : List Char → List Char → Prop} (only : ChangesStrings changes)
include only

theorem ChangesStrings.refl {cs : List Char} (others : ∀ c ∈ cs, c ∉ ['O', 'A', ',']) :
    changes cs cs := by
  induction cs with
  | nil => exact only.nil
  | cons c cs ih =>
    rw [List.forall_mem_cons] at others
    exact only.append (only.other others.1) (ih others.2)

theorem ChangesStrings.gap (gap : Gap) : changes gap.val gap.val := by
  refine only.refl fun c isIn => ?_
  have space := gap.property c isIn
  simp only [Json.isSpace, Bool.or_eq_true, beq_iff_eq] at space
  rcases space with ((rfl | rfl) | rfl) | rfl <;> decide

theorem ChangesStrings.brackets (kind : Kind) {cs cs' : List Char} (inside : changes cs cs') :
    changes (kind.opening :: (cs ++ [kind.closing])) (kind.opening :: (cs' ++ [kind.closing])) := by
  have opening : changes [kind.opening] [kind.opening] := only.other (by cases kind <;> decide)
  have closing : changes [kind.closing] [kind.closing] := only.other (by cases kind <;> decide)
  exact only.append opening (only.append inside closing)

variable {f : Literal → Literal} (strings : ∀ l : Literal, changes l.text (f l).text)
include strings

theorem ChangesStrings.label {kind : Kind} (label : Label kind) :
    changes label.text (label.map f).text := by
  cases label with
  | item => exact only.nil
  | name before literal after =>
    exact only.append (only.gap before) (only.append (strings literal)
      (only.append (only.gap after) (only.other (by decide))))

/-- The whole text changes by its strings. -/
theorem ChangesStrings.tree {part : Json.Part} (t : Tree part) : changes t.text (t.map f).text := by
  induction t with
  | word w =>
    have words : ∀ cs ∈ ["null".toList, "true".toList, "false".toList],
        ∀ c ∈ cs, c ∉ ['O', 'A', ','] := by
      simp
    exact only.refl (words _ w.property)
  | numeral n =>
    refine only.refl (forall_mem_numeral (fun c digit isIn => ?_) (forall_mem_of_all (by decide)) n)
    have marks : ∀ c ∈ ['O', 'A', ','], Json.isDigit c = false := forall_mem_of_all (by decide)
    rw [marks c isIn] at digit
    cases digit
  | literal l => exact strings l
  | empty kind gap => exact only.brackets kind (only.gap gap)
  | filled kind entries ih => exact only.brackets kind ih
  | last label before value after ih =>
    exact only.append (only.label strings label) (only.append (only.gap before)
      (only.append ih (only.gap after)))
  | more label before value after rest ih ihRest =>
    exact only.append (only.label strings label) (only.append (only.gap before)
      (only.append ih (only.append (only.gap after) (only.comma rest ihRest))))

end

/-- Without its names of types a text becomes another one, whatever stands around it. -/
def DropsNames (cs cs' : List Char) : Prop :=
  ∀ within rest, ∃ within', dropTypeNames within (cs ++ rest) = cs' ++ dropTypeNames within' rest

theorem changesStrings_dropsNames : ChangesStrings DropsNames where
  nil within rest := ⟨within, rfl⟩
  append first second within rest := by
    obtain ⟨between, front⟩ := first within _
    obtain ⟨behind, back⟩ := second between rest
    exact ⟨behind, by rw [List.append_assoc, front, back, List.append_assoc]⟩
  other := by
    intro c other within rest
    have noName : c ∉ ['O', 'A'] := fun isIn => other (List.mem_append_left [','] isIn)
    exact ⟨isWord c, dropTypeNames_cons_of_other noName within rest⟩
  comma := by
    intro kind entries cs drops within rest
    obtain ⟨behind, dropped⟩ := drops (isWord ',') rest
    have comma := @dropTypeNames_cons_of_other ',' (by decide) within (entries.text ++ rest)
    exact ⟨behind, comma.trans (congrArg (',' :: ·) dropped)⟩

/-- A value begins and ends with characters that are not white space, and it begins with no bracket
that closes. -/
theorem exists_ends (t : Tree .value) :
    (∃ c more, t.text = c :: more ∧ isBlank c = false ∧ isClosing c = false) ∧
      ∃ front c, t.text = front ++ [c] ∧ isBlank c = false := by
  have plainEnds {cs : List Char} (nonempty : cs ≠ []) (plain : ∀ c ∈ cs, isPlain c = true) :
      (∃ c more, cs = c :: more ∧ isBlank c = false ∧ isClosing c = false) ∧
        ∃ front c, cs = front ++ [c] ∧ isBlank c = false := by
    simp only [isPlain, notBracket, Bool.and_eq_true, Bool.not_eq_true'] at plain
    refine ⟨⟨_, _, (List.cons_head_tail nonempty).symm, ?_⟩,
      ⟨_, _, (List.dropLast_concat_getLast nonempty).symm, ?_⟩⟩
    · have first := plain _ (List.head_mem nonempty)
      exact ⟨first.1.2, first.1.1.2⟩
    · exact (plain _ (List.getLast_mem nonempty)).1.2
  cases t with
  | word w =>
    have words : ∀ cs ∈ ["null".toList, "true".toList, "false".toList],
        cs ≠ [] ∧ ∀ c ∈ cs, isPlain c = true := by
      simp
      decide
    exact plainEnds (words _ w.property).1 (words _ w.property).2
  | numeral n => exact plainEnds (numeral_ne_nil n) (isPlain_numeral n)
  | literal l => exact ⟨⟨'"', _, rfl, by decide, by decide⟩, '"' :: l.inner, '"', rfl, by decide⟩
  | empty kind gap =>
    exact ⟨⟨kind.opening, _, rfl, by cases kind <;> decide⟩, kind.opening :: gap.val, kind.closing,
      rfl, by cases kind <;> decide⟩
  | filled kind entries =>
    exact ⟨⟨kind.opening, _, rfl, by cases kind <;> decide⟩, kind.opening :: entries.text,
      kind.closing, rfl, by cases kind <;> decide⟩

theorem exists_entry_head {kind : Kind} (label : Label kind) (before : Gap) (value : Tree .value)
    (cs : List Char) : ∃ (gap : Gap) (c : Char) (more : List Char),
      label.text ++ (before.val ++ (value.text ++ cs)) = gap.val ++ c :: more ∧
        isBlank c = false ∧ isClosing c = false := by
  cases label with
  | item =>
    obtain ⟨c, more, text, solid⟩ := (exists_ends value).1
    exact ⟨before, c, more ++ cs, by rw [text]; rfl, solid⟩
  | name gap literal colon =>
    refine ⟨gap, '"', literal.inner ++ '"' :: (colon.val ++ ':' ::
      (before.val ++ (value.text ++ cs))), ?_, by decide, by decide⟩
    simp [Label.text, Literal.text]

/-- No comma before an entry is a last one. -/
theorem lastCommaStep_entries {kind : Kind} (entries : Tree (.entries kind)) (after : List Char) :
    lastCommaRule.step (',' :: (entries.text ++ after)) = none := by
  obtain ⟨gap, c, more, text, notBlank, notClosing⟩ : ∃ (gap : Gap) (c : Char) (more : List Char),
      entries.text ++ after = gap.val ++ c :: more ∧ isBlank c = false ∧ isClosing c = false := by
    cases entries with
    | last label before value gap =>
      have head := exists_entry_head label before value (gap.val ++ after)
      simpa only [Tree.text, List.append_assoc] using head
    | more label before value gap rest =>
      have head := exists_entry_head label before value (gap.val ++ ',' :: (rest.text ++ after))
      simpa only [Tree.text, List.append_assoc, List.cons_append] using head
  refine Option.eq_none_iff_forall_ne_some.mpr ?_
  rintro ⟨out, left⟩ applies
  obtain ⟨gap', d, blank, closing, parts, -⟩ := lastCommaStep_eq_some_iff.mp applies
  rw [text] at parts
  have same := congrArg (List.dropWhile isBlank) (List.cons.inj parts).2
  have spaces : ∀ b ∈ gap.val, isBlank b = true :=
    fun b isIn => isBlank_of_isSpace (gap.property b isIn)
  have notBlank' : ¬ isBlank d = true := by simp [not_isBlank_of_bracket (.inr closing)]
  rw [List.dropWhile_append_of_pos spaces, List.dropWhile_append_of_pos blank,
    List.dropWhile_cons_of_neg (by simp [notBlank]), List.dropWhile_cons_of_neg notBlank'] at same
  rw [(List.cons.inj same).1, closing] at notClosing
  cases notClosing

theorem changesStrings_lastComma : ChangesStrings lastCommaRule.Sends where
  nil := Rule.sends_nil
  append first second := first.append second
  other := by
    intro c other
    have noComma : ',' ∉ [c] := fun isIn => other (by simp [← List.mem_singleton.mp isIn])
    exact Rule.sends_of_not_mem lastCommaRule_needs noComma
  comma := by
    intro kind entries cs sends
    exact Rule.sends_cons (lastCommaStep_entries entries) sends

theorem exists_dropsNames : ∃ f : Literal → Literal, ∀ l : Literal, l.Thins (f l) ∧
    DropsNames l.text (f l).text ∧ (¬ HasTypeName l.inner → f l = l) := by
  choose f thins dropped same using fun l => exists_thins_names l false
  refine ⟨f, fun l => ⟨thins l, fun within rest => ⟨false, ?_⟩, fun absent => ?_⟩⟩
  · have opening := @dropTypeNames_cons_of_other '"' (by decide) within (l.inner ++ '"' :: rest)
    have notWord : isWord '"' = false := by decide
    simp only [notWord, dropped] at opening
    simpa [Literal.text] using opening
  · exact same l (nameless_iff.mpr absent)

theorem exists_dropsCommas : ∃ g : Literal → Literal, ∀ l : Literal, l.Thins (g l) ∧
    lastCommaRule.Sends l.text (g l).text ∧ (¬ HasLastComma l.inner → g l = l) := by
  choose g thins sends same using exists_thins_commas
  refine ⟨g, fun l => ⟨thins l, ?_, fun absent => ?_⟩⟩
  · have opening : lastCommaRule.Sends ['"'] ['"'] :=
      Rule.sends_of_not_mem lastCommaRule_needs (by decide)
    exact opening.append (sends l)
  · exact same l (lastComma_idle_iff.mpr absent)

/-- Something stands in a text that is taken off as a decoration. -/
def HasDecoration (cs : List Char) : Prop := HasTypeName cs ∨ HasLastComma cs

theorem trim_text (d : Document) : trim d.text = d.value.text := by
  obtain ⟨⟨c, more, text, notBlank, -⟩, front, e, text', notBlank'⟩ := exists_ends d.value
  have blank (gap : Gap) : ∀ c ∈ gap.val, isBlank c = true :=
    fun c isIn => isBlank_of_isSpace (gap.property c isIn)
  have behind : trimEnd d.after.val = [] := by
    have all : ∀ c ∈ d.after.val.reverse, isBlank c = true :=
      fun c isIn => blank d.after c (List.mem_reverse.mp isIn)
    rw [trimEnd, List.dropWhile_eq_nil_iff.mpr all]
    rfl
  rw [trim, trimStart, Document.text, List.dropWhile_append_of_pos (blank d.before), text,
    List.cons_append, List.dropWhile_cons_of_neg (by simp [notBlank]), ← List.cons_append, ← text,
    text', List.append_assoc, List.singleton_append, trimEnd_append_cons notBlank', behind]

/-- Taking off what is taken for a decoration takes plain characters off the strings. -/
theorem exists_undecorate : ∃ h : Literal → Literal, (∀ l : Literal, l.Thins (h l)) ∧
    (∀ l : Literal, ¬ HasDecoration l.inner → h l = l) ∧
    ∀ (d : Document) (s : String), d.text = s.toList →
      undecorate s = String.ofList (d.value.map h).text := by
  obtain ⟨f, names⟩ := exists_dropsNames
  obtain ⟨g, commas⟩ := exists_dropsCommas
  refine ⟨fun l => g (f l), fun l => (names l).1.trans (commas (f l)).1, fun l absent => ?_,
    fun d s written => ?_⟩
  · rw [HasDecoration, not_or] at absent
    have kept := (names l).2.2 absent.1
    show g (f l) = l
    rw [kept, (commas l).2.2 absent.2]
  · obtain ⟨within, dropped⟩ :=
      changesStrings_dropsNames.tree (fun l => (names l).2.1) d.value false []
    have sent := changesStrings_lastComma.tree (fun l => (commas l).2.1) (d.value.map f) []
    rw [List.append_nil, dropTypeNames_nil, List.append_nil] at dropped
    rw [List.append_nil, Rule.replaceAll_nil, List.append_nil, Json.map_map] at sent
    rw [undecorate, ← written, trim_text, dropped, sent]

/-- Where nothing is taken off a text, no string in it has a decoration. -/
theorem not_hasDecoration_of_length {t : Tree .value}
    (kept : t.text.length ≤ (lastCommaRule.replaceAll (dropTypeNames false t.text)).length)
    {inner : List Char} (isIn : inner ∈ t.strings) : ¬ HasDecoration inner := by
  obtain ⟨before, after, text⟩ := Json.infix_of_mem_strings isIn
  have names := length_dropTypeNames_le false t.text
  have commas := Rule.weight_replaceAll_le lastCommaRule_loses.noGain (dropTypeNames false t.text)
  rw [Rule.weight_one, Rule.weight_one] at commas
  have nameless : Nameless false t.text := nameless_of_length (by omega)
  rw [dropTypeNames_of_nameless nameless] at commas kept
  have idle : lastCommaRule.Idle t.text := by
    refine Rule.idle_of_weight lastCommaRule_loses ?_
    rw [Rule.weight_one, Rule.weight_one]
    omega
  rintro (hasName | hasComma)
  · obtain ⟨front, name, c, back, rfl, isName, opening, apart⟩ := hasName
    refine nameless_iff.mp nameless
      ⟨before ++ '"' :: front, name, c, back ++ after, ?_, isName, opening, ?_⟩
    · rw [← text]
      simp
    · have notWord : isWord '"' = false := by decide
      rw [inWord_append, inWord, notWord, apart]
  · obtain ⟨front, gap, c, back, rfl, blank, closing⟩ := hasComma
    refine lastComma_idle_iff.mp idle
      ⟨before ++ '"' :: front, gap, c, back ++ after, ?_, blank, closing⟩
    rw [← text]
    simp

/-- JSON is read and printed again, as its value exactly if no string has a decoration in it. Only
where an object repeats a name, what is taken off may not show. -/
theorem reserialize_of_parse {s : String} {v : Json} (read : Json.parse s = .ok v) :
    (∃ d : Document, d.text = s.toList) ∧ ∀ d : Document, d.text = s.toList →
      (∃ (h : Literal → Literal) (w : Json), (∀ l : Literal, l.Thins (h l)) ∧
        (d.map h).meaning? = some w ∧ reserialize s = .ok (Json.pretty w)) ∧
      ((∀ inner ∈ d.strings, ¬ HasDecoration inner) → reserialize s = .ok (Json.pretty v)) ∧
      (d.value.DistinctNames → reserialize s = .ok (Json.pretty v) →
        ∀ inner ∈ d.strings, ¬ HasDecoration inner) := by
  obtain ⟨h, thins, fixed, undecorated⟩ := exists_undecorate
  refine ⟨Json.exists_document_of_parse read, fun d written => ?_⟩
  have meant : d.value.meaning? Json.maxDepth = some v :=
    (Json.parse_eq_ok_iff_meaning written).mp read
  obtain ⟨w, meant', shrinks⟩ := Json.exists_meaning_map thins d.value meant
  have text := congrArg String.toList (undecorated d s written)
  rw [String.toList_ofList] at text
  have printed : reserialize s = .ok (Json.pretty w) := by
    have whole : (Document.mk noGap (d.value.map h) noGap).text = (undecorate s).toList := by
      rw [text, Document.text]
      exact List.append_nil _
    rw [reserialize, (Json.parse_eq_ok_iff_meaning whole).mpr meant']
    rfl
  refine ⟨⟨h, w, thins, meant', printed⟩, fun absent => ?_, fun distinct same inner isIn => ?_⟩
  · have kept : d.value.map h = d.value :=
      Json.map_of_fixed fun l isIn => fixed l (absent l.inner isIn)
    rw [kept, meant] at meant'
    cases meant'
    exact printed
  · -- What is missing in the text is missing in what is printed.
    rw [printed] at same
    have lengths := shrinks distinct 0
    rw [show Json.prettyAt 0 w = Json.prettyAt 0 v from Except.ok.inj same] at lengths
    refine not_hasDecoration_of_length (t := d.value) ?_ isIn
    rw [undecorate, String.toList_ofList, ← written, trim_text] at text
    rw [text]
    omega

/-- An array of two strings. -/
def twoStrings (first second : Literal) : Document where
  before := noGap
  value := .filled .array (.more .item noGap (.literal first) noGap
    (.last .item oneSpace (.literal second) noGap))
  after := noGap

theorem reserialize_of_brackets_in_strings :
    Json.parse "[\"x]\", \",\"]" = .ok (.array [.string "x]", .string ","]) ∧
      reserialize "[\"x]\", \",\"]" = .ok (Json.pretty (.array [.string "x]", .string ","])) := by
  have written : (twoStrings [.plain 'x' (by decide), .plain ']' (by decide)]
      [.plain ',' (by decide)]).text = "[\"x]\", \",\"]".toList := by decide
  have read : Json.parse "[\"x]\", \",\"]" = .ok (.array [.string "x]", .string ","]) :=
    (Json.parse_eq_ok_iff_meaning written).mpr rfl
  refine ⟨read, ((reserialize_of_parse read).2 _ written).2.1 fun inner isIn => ?_⟩
  exact not_hasDecoration_of_length (by decide +kernel) isIn

/-- An array of one string. -/
def oneString (l : Literal) : Document where
  before := noGap
  value := .filled .array (.last .item noGap (.literal l) noGap)
  after := noGap

/-- A comma before a bracket is taken off within a string, and the value is another one. -/
theorem reserialize_comma_in_string :
    Json.parse "[\"a,]\"]" = .ok (.array [.string "a,]"]) ∧
      reserialize "[\"a,]\"]" = .ok (Json.pretty (.array [.string "a]"])) ∧
      reserialize "[\"a,]\"]" ≠ .ok (Json.pretty (.array [.string "a,]"])) := by
  have written : (oneString [.plain 'a' (by decide), .plain ',' (by decide),
      .plain ']' (by decide)]).text = "[\"a,]\"]".toList := by decide
  have left : (oneString [.plain 'a' (by decide), .plain ']' (by decide)]).text =
      "[\"a]\"]".toList := by decide
  have taken : undecorate "[\"a,]\"]" = "[\"a]\"]" := by decide +kernel
  have printed : reserialize "[\"a,]\"]" = .ok (Json.pretty (.array [.string "a]"])) := by
    rw [reserialize, taken, (Json.parse_eq_ok_iff_meaning left).mpr rfl]
    rfl
  refine ⟨(Json.parse_eq_ok_iff_meaning written).mpr rfl, printed, ?_⟩
  rw [printed]
  intro same
  have texts := Except.ok.inj same
  exact absurd texts (by decide +kernel)

end SnapshotPreview.Structured

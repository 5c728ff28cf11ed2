import Mathlib.Data.List.DropRight
import Mathlib.Data.List.Infix
import Mathlib.Data.List.TakeWhile
import SnapshotPreview.Structured
import SnapshotPreview.Proofs.Json.Grammar
import SnapshotPreview.Proofs.Markup.Rules
import SnapshotPreview.Proofs.Text

/-!
# The decorations of a serializer

Names of types and commas behind last items can be put anywhere into a JSON text whose strings have
no brackets in them: what is left when they are taken off is the text without the white space around
it (`undecorate_of_decorated`), so that it reads and prints as the text does.
-/

namespace SnapshotPreview.Structured

open Text
open Json (Gap Literal Digits Exponent Numeral Word Kind Label Tree Document noGap oneSpace)

/-! ## Decorated texts -/

/-- What is written for the names of types. -/
def typeNames : List (List Char) := ["Object ".toList, "Array ".toList]

/-- A text, and the same text with names before some opening brackets and a comma before the white
space in front of some closing brackets. -/
inductive Decorated : List Char → List Char → Prop where
  | nil : Decorated [] []
  | keep {c : Char} {cs ds : List Char} : Decorated cs ds → Decorated (c :: cs) (c :: ds)
  | name {name : List Char} {c : Char} {cs ds : List Char} : name ∈ typeNames → isOpening c = true →
      Decorated cs ds → Decorated (c :: cs) (name ++ c :: ds)
  | comma {gap : List Char} {c : Char} {cs ds : List Char} : (∀ b ∈ gap, isBlank b = true) →
      isClosing c = true → Decorated cs ds → Decorated (gap ++ c :: cs) (',' :: (gap ++ c :: ds))

theorem decorated_refl (cs : List Char) : Decorated cs cs := by
  induction cs with
  | nil => exact .nil
  | cons c cs ih => exact ih.keep

/-! ## Where brackets stand -/

/-- The last character before a place that is not white space, after one more character. -/
def solid (last : Option Char) (c : Char) : Option Char := if isBlank c then last else some c

/-- Whether a bracket may open behind a character. -/
def MayOpen (last : Option Char) : Prop := ∀ c, last = some c → c ∈ [',', ':', '\x7b', '[']

/-- Whether a bracket may close behind a character. -/
def MayClose (last : Option Char) : Prop := last ≠ none ∧ last ≠ some ','

/-- Every bracket stands where it may, white space apart. -/
def WellPlaced : Option Char → List Char → Prop
  | _, [] => True
  | last, c :: cs =>
    (isOpening c = true → MayOpen last) ∧ (isClosing c = true → MayClose last) ∧
      WellPlaced (solid last c) cs

theorem not_isBlank_of_bracket {c : Char} (bracket : isOpening c = true ∨ isClosing c = true) :
    isBlank c = false := by
  simp only [isOpening, isClosing, Bool.or_eq_true, beq_iff_eq] at bracket
  rcases bracket with (rfl | rfl) | (rfl | rfl) <;> decide

theorem wellPlaced_append {last : Option Char} {first second : List Char} :
    WellPlaced last (first ++ second) ↔
      WellPlaced last first ∧ WellPlaced (first.foldl solid last) second := by
  induction first generalizing last with
  | nil => simp [WellPlaced]
  | cons c first ih => simp [WellPlaced, ih, and_assoc]

theorem foldl_solid_of_blank {gap : List Char} (blank : ∀ c ∈ gap, isBlank c = true)
    (last : Option Char) : gap.foldl solid last = last := by
  induction gap with
  | nil => rfl
  | cons c gap ih =>
    rw [List.foldl_cons, solid, if_pos (blank c List.mem_cons_self),
      ih fun d isIn => blank d (List.mem_cons_of_mem c isIn)]

theorem foldl_solid_concat {c : Char} (notBlank : isBlank c = false) (front : List Char)
    (last : Option Char) : (front ++ [c]).foldl solid last = some c := by
  rw [List.foldl_append, List.foldl_cons, List.foldl_nil, solid, if_neg (by simp [notBlank])]

/-- Whether a character is none of the brackets. -/
def notBracket (c : Char) : Bool := !isOpening c && !isClosing c

theorem wellPlaced_of_noBracket {cs : List Char} (free : ∀ c ∈ cs, notBracket c = true)
    (last : Option Char) : WellPlaced last cs := by
  induction cs generalizing last with
  | nil => trivial
  | cons c cs ih =>
    have here := free c List.mem_cons_self
    rw [notBracket, Bool.and_eq_true, Bool.not_eq_true', Bool.not_eq_true'] at here
    refine ⟨?_, ?_, ih (fun d isIn => free d (List.mem_cons_of_mem c isIn)) _⟩
    · intro opening
      rw [here.1] at opening
      cases opening
    · intro closing
      rw [here.2] at closing
      cases closing

theorem isBlank_of_isSpace {c : Char} (space : Json.isSpace c = true) : isBlank c = true := by
  simp only [Json.isSpace, Bool.or_eq_true, beq_iff_eq] at space
  rcases space with ((rfl | rfl) | rfl) | rfl <;> decide

theorem notBracket_of_isSpace {c : Char} (space : Json.isSpace c = true) : notBracket c = true := by
  simp only [Json.isSpace, Bool.or_eq_true, beq_iff_eq] at space
  rcases space with ((rfl | rfl) | rfl) | rfl <;> decide

theorem foldl_solid_gap (gap : Gap) (last : Option Char) : gap.val.foldl solid last = last :=
  foldl_solid_of_blank (fun c isIn => isBlank_of_isSpace (gap.property c isIn)) last

theorem wellPlaced_gap (gap : Gap) (last : Option Char) : WellPlaced last gap.val :=
  wellPlaced_of_noBracket (fun c isIn => notBracket_of_isSpace (gap.property c isIn)) last

/-! ## The brackets of a JSON text -/

/-- A text whose brackets stand where they may, and behind which a bracket may close. -/
def Fits (last : Option Char) (cs : List Char) : Prop :=
  WellPlaced last cs ∧ MayClose (cs.foldl solid last)

/-- A character that is neither a bracket nor white space nor a comma. -/
def isPlain (c : Char) : Bool := notBracket c && !isBlank c && c != ','

theorem fits_concat {front : List Char} {c : Char} (free : ∀ d ∈ front ++ [c], notBracket d = true)
    (notBlank : isBlank c = false) (notComma : c ≠ ',') (last : Option Char) :
    Fits last (front ++ [c]) := by
  refine ⟨wellPlaced_of_noBracket free last, ?_⟩
  rw [foldl_solid_concat notBlank]
  exact ⟨by simp, by simpa using notComma⟩

theorem fits_of_plain {cs : List Char} (nonempty : cs ≠ []) (plain : ∀ c ∈ cs, isPlain c = true)
    (last : Option Char) : Fits last cs := by
  rw [← List.dropLast_concat_getLast nonempty] at plain ⊢
  have here := plain _ (List.mem_append_right _ List.mem_cons_self)
  simp only [isPlain, Bool.and_eq_true, Bool.not_eq_true', bne_iff_ne] at here plain
  exact fits_concat (fun c isIn => (plain c isIn).1.1) here.1.2 here.2 last

theorem isPlain_of_isDigit {c : Char} (digit : Json.isDigit c = true) : isPlain c = true := by
  simp only [Json.isDigit, Bool.and_eq_true, decide_eq_true_eq, Char.le_def,
    UInt32.le_iff_toNat_le] at digit
  have upTo : ∀ n < 58, 48 ≤ n → isPlain (Char.ofNat n) = true := by decide
  have here := upTo c.toNat (Nat.lt_succ_of_le digit.2) digit.1
  rwa [Char.ofNat_toNat] at here

theorem forall_mem_numeral {p : Char → Prop} (digits : ∀ c, Json.isDigit c = true → p c)
    (others : ∀ c ∈ ['-', '+', '.', 'e', 'E'], p c) (n : Numeral) : ∀ c ∈ n.text, p c := by
  have digits (ds : Digits) : ∀ c ∈ ds.val, p c := fun c isIn => digits c (ds.property.2 c isIn)
  simp only [List.forall_mem_cons] at others
  obtain ⟨minus, plus, point, lower, upper, -⟩ := others
  have whole : ∀ c ∈ n.wholeText, p c := by
    unfold Numeral.wholeText
    split
    · exact List.forall_mem_cons.mpr ⟨minus, digits n.whole⟩
    · exact digits n.whole
  have fraction : ∀ c ∈ n.fraction.elim [] ('.' :: ·.val), p c := by
    cases n.fraction with
    | none => simp
    | some ds => exact List.forall_mem_cons.mpr ⟨point, digits ds⟩
  have exponent : ∀ c ∈ n.exponent.elim [] Exponent.text, p c := by
    cases n.exponent with
    | none => simp
    | some e =>
      have letter : ∀ c ∈ ['e', 'E'], p c := by simp [lower, upper]
      have sign : ∀ cs ∈ [[], ['+'], ['-']], ∀ c ∈ cs, p c := by simp [plus, minus]
      refine List.forall_mem_cons.mpr ⟨letter _ e.letter.property, ?_⟩
      exact List.forall_mem_append.mpr ⟨sign _ e.sign.property, digits e.digits⟩
  exact List.forall_mem_append.mpr ⟨whole, List.forall_mem_append.mpr ⟨fraction, exponent⟩⟩

theorem isPlain_numeral (n : Numeral) : ∀ c ∈ n.text, isPlain c = true :=
  forall_mem_numeral (fun _ => isPlain_of_isDigit) (forall_mem_of_all (by decide)) n

theorem numeral_ne_nil (n : Numeral) : n.text ≠ [] := by
  intro empty
  have whole := (List.append_eq_nil_iff.mp empty).1
  unfold Numeral.wholeText at whole
  split at whole
  · cases whole
  · exact n.whole.property.1 whole

theorem fits_word (w : Word) (last : Option Char) : Fits last w.val := by
  have all : ∀ cs ∈ ["null".toList, "true".toList, "false".toList],
      cs ≠ [] ∧ ∀ c ∈ cs, isPlain c = true := by
    simp
    decide
  exact fits_of_plain (all _ w.property).1 (all _ w.property).2 last

theorem fits_literal {l : Literal} (free : ∀ c ∈ l.inner, notBracket c = true)
    (last : Option Char) : Fits last l.text := by
  have inside : ∀ c ∈ l.inner ++ ['"'], notBracket c = true :=
    List.forall_mem_append.mpr ⟨free, List.forall_mem_singleton.mpr rfl⟩
  have quoted : ∀ c ∈ '"' :: l.inner ++ ['"'], notBracket c = true :=
    List.forall_mem_cons.mpr ⟨by decide, inside⟩
  exact fits_concat quoted (by decide) (by decide) last

/-- Before a value a bracket may open. -/
theorem wellPlaced_label {kind : Kind} (label : Label kind) {last : Option Char}
    (free : ∀ inner ∈ label.strings, ∀ c ∈ inner, notBracket c = true) (opens : MayOpen last) :
    WellPlaced last label.text ∧ MayOpen (label.text.foldl solid last) := by
  cases label with
  | item => exact ⟨trivial, opens⟩
  | name before l after =>
    have name := fits_literal (free _ (List.mem_singleton.mpr rfl)) last
    have colon := foldl_solid_concat (c := ':') (by decide)
      (before.val ++ (l.text ++ after.val)) last
    simp only [List.append_assoc] at colon
    refine ⟨?_, ?_⟩
    · simp only [Label.text, wellPlaced_append, foldl_solid_gap, wellPlaced_gap, name.1, true_and]
      exact wellPlaced_of_noBracket (List.forall_mem_singleton.mpr rfl) _
    · rw [Label.text, colon]
      intro c same
      cases same
      decide

theorem mayOpen_opening (kind : Kind) : MayOpen (some kind.opening) := by
  cases kind <;> simp [MayOpen, Kind.opening]

/-- Brackets around what fits between them. -/
theorem fits_brackets (kind : Kind) {last : Option Char} {cs : List Char} (opens : MayOpen last)
    (inside : Fits (some kind.opening) cs) :
    Fits last (kind.opening :: (cs ++ [kind.closing])) := by
  have opening : solid last kind.opening = some kind.opening := by cases kind <;> rfl
  have closing (before : Option Char) : solid before kind.closing = some kind.closing := by
    cases kind <;> rfl
  have notClosing : isClosing kind.opening = false := by cases kind <;> rfl
  have notOpening : isOpening kind.closing = false := by cases kind <;> rfl
  simp only [Fits, WellPlaced, wellPlaced_append, List.foldl_cons, List.foldl_append,
    List.foldl_nil, opening, closing, notClosing, notOpening]
  refine ⟨⟨fun _ => opens, nofun, inside.1, nofun, fun _ => inside.2, trivial⟩, ?_⟩
  cases kind <;> simp [MayClose, Kind.closing]

/-- In a JSON text whose strings have no brackets, every bracket stands where it may. -/
theorem fits_tree {part : Json.Part} (tree : Tree part) {last : Option Char}
    (free : ∀ inner ∈ tree.strings, ∀ c ∈ inner, notBracket c = true) (opens : MayOpen last) :
    Fits last tree.text := by
  induction tree generalizing last with
  | word w => exact fits_word w last
  | numeral n => exact fits_of_plain (numeral_ne_nil n) (isPlain_numeral n) last
  | literal l => exact fits_literal (free _ (List.mem_singleton.mpr rfl)) last
  | empty kind gap =>
    refine fits_brackets kind opens ⟨wellPlaced_gap gap _, ?_⟩
    rw [foldl_solid_gap]
    cases kind <;> simp [MayClose, Kind.opening]
  | filled kind entries ih =>
    exact fits_brackets kind opens (ih free (mayOpen_opening kind))
  | last label before value after ih =>
    simp only [Tree.strings, List.forall_mem_append] at free
    have labels := wellPlaced_label label free.1 opens
    have values := ih free.2 labels.2
    simp only [Fits, Tree.text, wellPlaced_append, List.foldl_append, foldl_solid_gap,
      wellPlaced_gap, labels.1, true_and, and_true]
    exact values
  | more label before value after rest ih ihRest =>
    simp only [Tree.strings, List.forall_mem_append] at free
    have labels := wellPlaced_label label free.1 opens
    have values := ih free.2.1 labels.2
    have comma : MayOpen (some ',') := by simp [MayOpen]
    have others := ihRest free.2.2 comma
    have comma : solid ((value.text.foldl solid (label.text.foldl solid last))) ',' = some ',' := rfl
    simp only [Fits, Tree.text, wellPlaced_append, List.foldl_append, foldl_solid_gap,
      wellPlaced_gap, labels.1, values.1, true_and, List.foldl_cons, WellPlaced, comma]
    exact ⟨⟨nofun, nofun, others.1⟩, others.2⟩

/-! ## Taking the decorations off -/

theorem afterTypeName?_eq_some_iff {cs rest : List Char} :
    afterTypeName? cs = some rest ↔ ∃ name ∈ typeNames, ∃ c after,
      cs = name ++ c :: after ∧ isOpening c = true ∧ rest = c :: after := by
  unfold afterTypeName?
  constructor
  · intro found
    split at found
    · rename_i c after begins
      split at found
      · rename_i opening
        cases found
        rcases Option.or_eq_some_iff.mp begins with isObject | ⟨-, isArray⟩
        · exact ⟨_, by simp [typeNames], c, after, afterPrefix?_eq_some_iff.mp isObject, opening, rfl⟩
        · exact ⟨_, by simp [typeNames], c, after, afterPrefix?_eq_some_iff.mp isArray, opening, rfl⟩
      · cases found
    · cases found
  · rintro ⟨name, isName, c, after, rfl, opening, rfl⟩
    have begins : (afterPrefix? "Object ".toList (name ++ c :: after)).or
        (afterPrefix? "Array ".toList (name ++ c :: after)) = some (c :: after) := by
      simp only [typeNames, List.mem_cons, List.not_mem_nil, or_false] at isName
      rcases isName with rfl | rfl
      · rw [afterPrefix?_eq_some_iff.mpr rfl, Option.some_or]
      · rw [afterPrefix?_eq_some_iff.mpr rfl]
        rfl
    rw [begins]
    exact if_pos opening

theorem dropTypeNames_name {name : List Char} {c : Char} (isName : name ∈ typeNames)
    (opening : isOpening c = true) (cs : List Char) :
    dropTypeNames false (name ++ c :: cs) = dropTypeNames true (c :: cs) := by
  have found : afterTypeName? (name ++ c :: cs) = some (c :: cs) :=
    afterTypeName?_eq_some_iff.mpr ⟨name, isName, c, cs, rfl, opening, rfl⟩
  rw [dropTypeNames]
  split
  · rename_i here
    rw [if_neg Bool.false_ne_true, found] at here
    cases here
    rfl
  · rename_i here
    rw [if_neg Bool.false_ne_true, found] at here
    cases here

theorem dropTypeNames_cons {within : Bool} {c : Char} {cs : List Char}
    (idle : within = true ∨ afterTypeName? (c :: cs) = none) :
    dropTypeNames within (c :: cs) = c :: dropTypeNames (isWord c) cs := by
  have here : (if within then none else afterTypeName? (c :: cs)) = none := by
    rcases idle with rfl | idle
    · rfl
    · rw [idle, ite_self]
  rw [dropTypeNames]
  split
  · rename_i found
    rw [here] at found
    cases found
  · rfl

/-- Every name of a type begins with an `O` or an `A`. -/
theorem dropTypeNames_append {front : List Char} {d : Char}
    (other : ∀ c ∈ front ++ [d], c ∉ ['O', 'A']) (within : Bool) (cs : List Char) :
    dropTypeNames within (front ++ d :: cs) = front ++ d :: dropTypeNames (isWord d) cs := by
  have step {c : Char} (other : c ∉ ['O', 'A']) (within : Bool) (cs : List Char) :
      dropTypeNames within (c :: cs) = c :: dropTypeNames (isWord c) cs := by
    refine dropTypeNames_cons (.inr (Option.eq_none_iff_forall_ne_some.mpr ?_))
    intro rest found
    obtain ⟨name, isName, d, after, parts, -⟩ := afterTypeName?_eq_some_iff.mp found
    have heads : ∀ name ∈ typeNames, ∃ first ∈ ['O', 'A'], name.head? = some first := by
      simp [typeNames]
    obtain ⟨first, isIn, begins⟩ := heads name isName
    have same := congrArg List.head? parts
    rw [List.head?_append, begins] at same
    cases same
    exact other isIn
  induction front generalizing within with
  | nil => exact step (other d List.mem_cons_self) within cs
  | cons c front ih =>
    rw [List.cons_append, step (other c List.mem_cons_self),
      ih fun e isIn => other e (List.mem_cons_of_mem c isIn)]
    rfl

theorem lastCommaStep_eq_some_iff {cs out rest : List Char} :
    lastCommaRule.step cs = some (out, rest) ↔ ∃ gap c, (∀ b ∈ gap, isBlank b = true) ∧
      isClosing c = true ∧ cs = ',' :: (gap ++ c :: rest) ∧ out = gap ++ [c] := by
  constructor
  · intro applies
    obtain ⟨tail, begins, applies⟩ := Option.bind_eq_some_iff.mp applies
    split at applies
    · rename_i c after behind
      split at applies
      · rename_i closing
        cases applies
        refine ⟨tail.takeWhile isBlank, c, fun b isIn => List.mem_takeWhile_imp isIn, closing, ?_, rfl⟩
        rw [← behind, List.takeWhile_append_dropWhile, afterPrefix?_eq_some_iff.mp begins]
        rfl
      · cases applies
    · cases applies
  · rintro ⟨gap, c, blank, closing, rfl, rfl⟩
    have notBlank : ∀ d ∈ (c :: rest).head?, isBlank d = false := by
      rintro d ⟨⟩
      simp [not_isBlank_of_bracket (.inr closing)]
    have begins : afterPrefix? [','] (',' :: (gap ++ c :: rest)) = some (gap ++ c :: rest) :=
      afterPrefix?_eq_some_iff.mpr rfl
    have behind := Text.dropWhile_append_of_ends blank notBlank
    have before := Text.takeWhile_append_of_ends blank notBlank
    have applies : lastCommaStep (',' :: (gap ++ c :: rest)) = some (gap ++ [c], rest) := by
      rw [lastCommaStep, begins, Option.bind_some, behind, before]
      exact if_pos closing
    exact applies

theorem lastCommaRule_needs : lastCommaRule.Needs [','] := by
  intro cs applies
  obtain ⟨⟨out, rest⟩, applies⟩ := Option.isSome_iff_exists.mp applies
  obtain ⟨gap, c, -, -, rfl, -⟩ := lastCommaStep_eq_some_iff.mp applies
  exact ⟨gap ++ c :: rest, rfl⟩

/-- No name of a type stands in a text whose brackets stand where they may. -/
theorem not_wellPlaced_name {name : List Char} {c : Char} (isName : name ∈ typeNames)
    (opening : isOpening c = true) (last : Option Char) (cs : List Char) :
    ¬ WellPlaced last (name ++ c :: cs) := by
  intro placed
  have opens := (wellPlaced_append.mp placed).2.1 opening
  simp only [typeNames, List.mem_cons, List.not_mem_nil, or_false] at isName
  rcases isName with rfl | rfl
  · exact absurd (opens 't' rfl) (by decide)
  · exact absurd (opens 'y' rfl) (by decide)

theorem exists_range {ranges : List (Nat × Nat)} {n : Nat} (inside : inRanges ranges n = true) :
    ∃ range ∈ ranges, range.1 ≤ n ∧ n ≤ range.2 := by
  induction ranges with
  | nil => cases inside
  | cons range ranges ih =>
    rw [inRanges] at inside
    by_cases below : n < range.1
    · rw [if_pos below] at inside
      cases inside
    · by_cases here : n ≤ range.2
      · exact ⟨range, List.mem_cons_self, by omega, here⟩
      · rw [if_neg below, if_neg here] at inside
        obtain ⟨range, isIn, within⟩ := ih inside
        exact ⟨range, List.mem_cons_of_mem _ isIn, within⟩

theorem isWord_of_isBlank {c : Char} (blank : isBlank c = true) : isWord c = false := by
  have apart : ∀ range ∈ blankRanges, range.2 < range.1 + 11 ∧
      ∀ k < 11, inRanges wordRanges (range.1 + k) = false ∨ range.2 < range.1 + k := by
    decide +kernel
  obtain ⟨range, isIn, above, below⟩ := exists_range blank
  obtain ⟨short, noWord⟩ := apart range isIn
  have here := noWord (c.toNat - range.1) (by omega)
  rw [Nat.add_sub_cancel' above] at here
  exact here.resolve_right (by omega)

@[simp] theorem dropTypeNames_nil (within : Bool) : dropTypeNames within [] = [] := by
  rw [dropTypeNames]
  split
  · rename_i found
    cases within <;> cases found
  · rfl

/-- With brackets and white space neither a name nor a decoration begins. -/
theorem ne_of_mark {c : Char}
    (mark : isOpening c = true ∨ isClosing c = true ∨ isBlank c = true) :
    c ∉ ['O', 'A'] ∧ c ≠ ',' := by
  have unmarked : ∀ c ∈ ['O', 'A', ','],
      isOpening c = false ∧ isClosing c = false ∧ isBlank c = false := forall_mem_of_all (by decide)
  constructor
  · intro isIn
    simp [unmarked c (List.mem_append_left [','] isIn)] at mark
  · rintro rfl
    simp [unmarked ',' (by simp)] at mark

section
variable {last : Option Char} {c : Char} {cs : List Char} (placed : WellPlaced last (c :: cs))
include placed

/-- What is left of a name and its bracket, from the second letter on, is all of it. -/
theorem afterTypeName?_of_left {within : Bool} {ds : List Char}
    (left : lastCommaRule.replaceAll (dropTypeNames within ds) = cs) :
    afterTypeName? (c :: ds) = none := by
  refine Option.eq_none_iff_forall_ne_some.mpr ?_
  intro rest found
  obtain ⟨name, isName, d, after, parts, opening, -⟩ := afterTypeName?_eq_some_iff.mp found
  have tails : ∀ name ∈ typeNames, ∃ first tail, name = first :: tail ∧
      ∀ e ∈ tail, e ∉ ['O', 'A'] ∧ e ≠ ',' := by
    simp [typeNames]
  obtain ⟨first, tail, rfl, tails⟩ := tails name isName
  rw [List.cons_append] at parts
  obtain ⟨rfl, rfl⟩ := List.cons.inj parts
  have kept : ∀ e ∈ tail ++ [d], e ∉ ['O', 'A'] ∧ e ≠ ',' :=
    List.forall_mem_append.mpr ⟨tails, List.forall_mem_singleton.mpr (ne_of_mark (.inl opening))⟩
  have noComma : ',' ∉ tail ++ [d] := fun isIn => (kept ',' isIn).2 rfl
  rw [dropTypeNames_append fun e isIn => (kept e isIn).1,
    List.append_cons, Rule.replaceAll_append_of_not_mem lastCommaRule_needs noComma,
    List.append_assoc] at left
  rw [← left] at placed
  exact not_wellPlaced_name isName opening last _ placed

/-- What is left of a closing bracket and the white space before it is all of it. -/
theorem lastCommaStep_of_left {ms : List Char} (left : lastCommaRule.replaceAll ms = cs) :
    lastCommaRule.step (c :: ms) = none := by
  refine Option.eq_none_iff_forall_ne_some.mpr ?_
  rintro ⟨out, rest⟩ applies
  obtain ⟨gap, d, blank, closing, parts, -⟩ := lastCommaStep_eq_some_iff.mp applies
  obtain ⟨rfl, rfl⟩ := List.cons.inj parts
  have noComma : ',' ∉ gap ++ [d] := by
    intro isIn
    rcases List.mem_append.mp isIn with inGap | isLast
    · exact (ne_of_mark (.inr (.inr (blank _ inGap)))).2 rfl
    · exact (ne_of_mark (.inr (.inl closing))).2 (List.mem_singleton.mp isLast).symm
  rw [List.append_cons, Rule.replaceAll_append_of_not_mem lastCommaRule_needs noComma,
    List.append_assoc] at left
  rw [← left] at placed
  have closes := (wellPlaced_append.mp placed.2.2).2.2.1 closing
  rw [foldl_solid_of_blank blank] at closes
  exact closes.2 rfl

end

/-- What is left without the decorations. The induction is on the decorated text: whatever would be
taken off beyond the decorations would stand in the text itself. -/
theorem clean_of_decorated {cs ds : List Char} (decorated : Decorated cs ds) {last : Option Char}
    {within : Bool} (placed : WellPlaced last cs)
    (word : within = true → ∃ c, last = some c ∧ isWord c = true) :
    lastCommaRule.replaceAll (dropTypeNames within ds) = cs := by
  have wordAfter (last : Option Char) (c : Char) :
      isWord c = true → ∃ d, solid last c = some d ∧ isWord d = true := by
    intro word
    refine ⟨c, if_neg fun blank => ?_, word⟩
    rw [isWord_of_isBlank blank] at word
    cases word
  induction decorated generalizing last within with
  | nil => simp
  | @keep c cs ds decorated ih =>
    have left := ih placed.2.2 (wordAfter last c)
    rw [dropTypeNames_cons (.inr (afterTypeName?_of_left placed left)),
      Rule.replaceAll_cons_of_none (lastCommaStep_of_left placed left), left]
  | @name name c cs ds isName opening decorated ih =>
    have notWithin : within = false := by
      refine Bool.eq_false_iff.mpr fun isWithin => ?_
      obtain ⟨d, same, word⟩ := word isWithin
      have noWord : ∀ d ∈ [',', ':', '\x7b', '['], isWord d = false := forall_mem_of_all (by decide)
      rw [noWord d (placed.1 opening d same)] at word
      cases word
    have left := ih placed.2.2 (wordAfter last c)
    have notComma : ',' ≠ c := by
      rintro rfl
      cases opening
    rw [notWithin, dropTypeNames_name isName opening, dropTypeNames_cons (.inl rfl),
      Rule.replaceAll_cons_of_ne lastCommaRule_needs notComma, left]
  | @comma gap c cs ds blank closing decorated ih =>
    have behind := (wellPlaced_append.mp placed).2
    have left := ih behind.2.2 (wordAfter _ c)
    have others : ∀ d ∈ ',' :: gap ++ [c], d ∉ ['O', 'A'] := by
      intro d isIn inNames
      simp only [List.cons_append, List.mem_cons, List.mem_append, List.not_mem_nil, or_false] at isIn
      rcases isIn with rfl | inGap | rfl
      · simp at inNames
      · exact (ne_of_mark (.inr (.inr (blank d inGap)))).1 inNames
      · exact (ne_of_mark (.inr (.inl closing))).1 inNames
    have applies : lastCommaRule.step (',' :: (gap ++ c :: dropTypeNames (isWord c) ds)) =
        some (gap ++ [c], dropTypeNames (isWord c) ds) :=
      lastCommaStep_eq_some_iff.mpr ⟨gap, c, blank, closing, rfl, rfl⟩
    rw [← List.cons_append, dropTypeNames_append others, List.cons_append,
      Rule.replaceAll_of_step applies, left, List.append_assoc]
    rfl

/-! ## Around a text -/

theorem trimEnd_append_cons {c : Char} (notBlank : isBlank c = false) (front rest : List Char) :
    trimEnd (front ++ c :: rest) = front ++ c :: trimEnd rest := by
  have kept : (c :: front.reverse).dropWhile isBlank = c :: front.reverse :=
    List.dropWhile_cons_of_neg (by simp [notBlank])
  rw [trimEnd, List.reverse_append, List.reverse_cons, List.append_assoc, List.singleton_append,
    List.dropWhile_append]
  split
  · rename_i empty
    rw [kept, trimEnd, List.isEmpty_iff.mp empty]
    simp
  · rw [trimEnd]
    simp

theorem trimEnd_cons_of_blank {c : Char} (blank : isBlank c = true) (rest : List Char) :
    trimEnd (c :: rest) = if trimEnd rest = [] then [] else c :: trimEnd rest := by
  rw [trimEnd, List.reverse_cons, List.dropWhile_append]
  simp only [List.dropWhile_cons_of_pos blank, List.dropWhile_nil, trimEnd, List.reverse_eq_nil_iff,
    List.isEmpty_iff]
  split <;> simp

theorem trimEnd_prefix (cs : List Char) : trimEnd cs <+: cs :=
  List.rdropWhile_prefix isBlank cs

theorem decorated_nil_iff {cs ds : List Char} (decorated : Decorated cs ds) :
    cs = [] ↔ ds = [] := by
  cases decorated <;> simp

theorem decorated_trimEnd {cs ds : List Char} (decorated : Decorated cs ds) :
    Decorated (trimEnd cs) (trimEnd ds) := by
  induction decorated with
  | nil => exact .nil
  | @keep c cs ds decorated ih =>
    by_cases blank : isBlank c = true
    · rw [trimEnd_cons_of_blank blank, trimEnd_cons_of_blank blank]
      simp only [decorated_nil_iff ih]
      split
      · exact .nil
      · exact ih.keep
    · rw [← List.nil_append (c :: cs), ← List.nil_append (c :: ds),
        trimEnd_append_cons (by simpa using blank), trimEnd_append_cons (by simpa using blank)]
      exact ih.keep
  | name isName opening decorated ih =>
    have notBlank := not_isBlank_of_bracket (.inl opening)
    rw [trimEnd_append_cons notBlank, ← List.nil_append (_ :: _), trimEnd_append_cons notBlank]
    exact ih.name isName opening
  | comma blank closing decorated ih =>
    have notBlank := not_isBlank_of_bracket (.inr closing)
    rw [trimEnd_append_cons notBlank, ← List.cons_append, trimEnd_append_cons notBlank]
    exact ih.comma blank closing

/-- The white space before a text is not decorated, since no bracket closes behind it. -/
theorem decorated_trimStart {cs ds : List Char} (decorated : Decorated cs ds)
    (placed : WellPlaced none cs) :
    Decorated (trimStart cs) (trimStart ds) ∧ WellPlaced none (trimStart cs) := by
  induction decorated with
  | nil => exact ⟨.nil, placed⟩
  | @keep c cs ds decorated ih =>
    by_cases blank : isBlank c = true
    · have behind := placed.2.2
      rw [solid, if_pos blank] at behind
      rw [trimStart, trimStart, List.dropWhile_cons_of_pos blank, List.dropWhile_cons_of_pos blank]
      exact ih behind
    · rw [trimStart, trimStart, List.dropWhile_cons_of_neg blank, List.dropWhile_cons_of_neg blank]
      exact ⟨decorated.keep, placed⟩
  | @name name c cs ds isName opening decorated ih =>
    have solidName : trimStart (name ++ c :: ds) = name ++ c :: ds := by
      simp only [typeNames, List.mem_cons, List.not_mem_nil, or_false] at isName
      rcases isName with rfl | rfl <;> exact List.dropWhile_cons_of_neg (by decide)
    have solidBracket : trimStart (c :: cs) = c :: cs :=
      List.dropWhile_cons_of_neg (by simp [not_isBlank_of_bracket (.inl opening)])
    rw [solidName, solidBracket]
    exact ⟨decorated.name isName opening, placed⟩
  | comma blank closing decorated ih =>
    have closes := (wellPlaced_append.mp placed).2.2.1 closing
    rw [foldl_solid_of_blank blank] at closes
    exact absurd rfl closes.1

/-- Taking the decorations off leaves the text without the white space around it. -/
theorem undecorate_of_decorated {t d : String} (placed : WellPlaced none t.toList)
    (decorated : Decorated t.toList d.toList) : undecorate d = String.ofList (trim t.toList) := by
  obtain ⟨decorated, placed⟩ := decorated_trimStart decorated placed
  obtain ⟨behind, whole⟩ := trimEnd_prefix (trimStart t.toList)
  rw [← whole] at placed
  have clean : lastCommaRule.replaceAll (dropTypeNames false (trim d.toList)) = trim t.toList :=
    clean_of_decorated (decorated_trimEnd decorated) (wellPlaced_append.mp placed).1 nofun
  rw [undecorate, clean]

theorem wellPlaced_document {document : Document}
    (free : ∀ inner ∈ document.strings, ∀ c ∈ inner, notBracket c = true) :
    WellPlaced none document.text := by
  have inside : Fits none document.value.text := fits_tree document.value free nofun
  simp only [Document.text, wellPlaced_append, wellPlaced_gap, foldl_solid_gap, inside.1, and_self]

/-- The decorations of a JSON text change neither how it is read and printed nor why it is refused. -/
theorem reserialize_of_decorated {document : Document} {t d : String}
    (written : t.toList = document.text)
    (noBrackets : ∀ inner ∈ document.strings, ∀ c ∈ inner, notBracket c = true)
    (decorated : Decorated t.toList d.toList) : reserialize d = reserialize t := by
  have placed : WellPlaced none t.toList := written ▸ wellPlaced_document noBrackets
  rw [reserialize, reserialize, undecorate_of_decorated placed decorated,
    undecorate_of_decorated placed (decorated_refl _)]

/-- The number one. -/
def one : Numeral where
  negative := false
  whole := ⟨['1'], by simp, List.forall_mem_singleton.mpr rfl⟩
  noLeadingZero := by decide
  fraction := none
  exponent := none

/-- A number, and an array with nothing but white space in it. -/
def nestedItems : Tree (.entries .array) :=
  .more .item noGap (.numeral one) noGap (.last .item oneSpace (.empty .array oneSpace) noGap)

/-- A member with a comma in its name, and brackets that close next to each other. -/
def nested : Document where
  before := oneSpace
  value := .filled .object (.last
    (.name noGap [.plain 'x' (by decide), .plain ',' (by decide)] noGap)
    oneSpace (.filled .array nestedItems) noGap)
  after := oneSpace

theorem decorated_nested : Decorated " \x7b\"x,\": [1, [ ]]\x7d ".toList
    " Object \x7b\"x,\": Array [1, Array [, ],],\x7d ".toList := by
  refine .keep (@Decorated.name "Object ".toList '\x7b' _ _ (by simp [typeNames]) rfl ?_)
  refine .keep (.keep (.keep (.keep (.keep (.keep ?_)))))
  refine @Decorated.name "Array ".toList '[' _ _ (by simp [typeNames]) rfl (.keep (.keep (.keep ?_)))
  refine @Decorated.name "Array ".toList '[' _ _ (by simp [typeNames]) rfl ?_
  refine @Decorated.comma [' '] ']' _ _ (List.forall_mem_singleton.mpr rfl) rfl ?_
  refine @Decorated.comma [] ']' _ _ (by simp) rfl ?_
  exact @Decorated.comma [] '\x7d' _ _ (by simp) rfl (decorated_refl [' '])

theorem reserialize_of_nested :
    reserialize " Object \x7b\"x,\": Array [1, Array [, ],],\x7d " =
      reserialize " \x7b\"x,\": [1, [ ]]\x7d " :=
  @reserialize_of_decorated nested _ _ (by rfl)
    (List.forall_mem_singleton.mpr (forall_mem_of_all (by decide))) decorated_nested

end SnapshotPreview.Structured

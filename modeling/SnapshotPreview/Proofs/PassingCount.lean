import Mathlib.Data.List.DropRight
import Mathlib.Data.Nat.Digits.Defs
import SnapshotPreview.Proofs.Text
import SnapshotPreview.Update

/-!
# The number of passed tests

The output of a test runner is searched for the first place where the word stands directly behind
a digit. All digits before that place are the number, and nothing behind it is looked at any more:
if the digits are not ASCII or their number is too large, there is no count
(`passingCount_eq_some_iff`).
-/

namespace SnapshotPreview.Update

/-- The digits, of any script, that stand directly before a position. -/
def digitsBefore (output : List Char) (i : Nat) : List Char :=
  (output.take i).rtakeWhile Text.isDigit

/-- The word stands directly behind a digit. -/
def FollowsDigit (output : List Char) (i : Nat) : Prop :=
  digitsBefore output i ≠ [] ∧ passingWord <+: output.drop i

/-- The word stands directly behind a digit, and does so nowhere before. -/
def IsFirstSummary (output : List Char) (i : Nat) : Prop :=
  FollowsDigit output i ∧ ∀ j < i, ¬ FollowsDigit output j

/-- The number that ASCII digits write. -/
def decimalValue (digits : List Char) : Nat :=
  Nat.ofDigits 10 (digits.reverse.map fun c => c.toNat - '0'.toNat)

theorem not_followsDigit_zero (cs : List Char) : ¬ FollowsDigit cs 0 := fun follows => follows.1 rfl

theorem isFirstSummary_unique {output : List Char} {i j : Nat} (first : IsFirstSummary output i)
    (other : IsFirstSummary output j) : i = j := by
  by_contra apart
  rcases Nat.lt_or_gt_of_ne apart with before | before
  · exact other.2 i before first.1
  · exact first.2 j before other.1

/-! ## One character more in front -/

theorem rtakeWhile_cons {α : Type} (p : α → Bool) (x : α) (l : List α) :
    (x :: l).rtakeWhile p = if ∀ y ∈ x :: l, p y = true then x :: l else l.rtakeWhile p := by
  split
  · rename_i all
    exact List.rtakeWhile_eq_self_iff.mpr all
  · rename_i other
    induction l using List.reverseRecOn with
    | nil => simp_all [List.rtakeWhile]
    | append_singleton l y ih =>
      rw [← List.cons_append, List.rtakeWhile_concat, List.rtakeWhile_concat]
      split
      · rename_i last
        have later : ¬ ∀ z ∈ x :: l, p z = true := fun all => other fun z isIn => by
          rcases List.mem_append.mp (show z ∈ (x :: l) ++ [y] from isIn) with isIn | isIn
          · exact all z isIn
          · rwa [List.mem_singleton.mp isIn]
        rw [ih later]
      · rfl

/-- The text is digits and the word behind them, and whatever comes then. -/
def BeginsWithSummary (cs digits : List Char) : Prop :=
  digits ≠ [] ∧ (∀ d ∈ digits, Text.isDigit d = true) ∧ ∃ rest, cs = digits ++ (passingWord ++ rest)

theorem isDigit_space : Text.isDigit ' ' = false := rfl

theorem takeWhile_isDigit_append {digits : List Char} (all : ∀ d ∈ digits, Text.isDigit d = true)
    (rest : List Char) :
    (digits ++ (passingWord ++ rest)).takeWhile Text.isDigit = digits ∧
      (digits ++ (passingWord ++ rest)).dropWhile Text.isDigit = passingWord ++ rest := by
  have stops : ∀ c ∈ (passingWord ++ rest).head?, Text.isDigit c = false := by
    rintro c ⟨⟩
    exact isDigit_space
  exact ⟨Text.takeWhile_append_of_ends all stops, Text.dropWhile_append_of_ends all stops⟩

section
variable {c : Char} {cs digits : List Char}

theorem passingDigits?_of_begins (begins : BeginsWithSummary (c :: cs) digits) :
    passingDigits? (c :: cs) = some digits := by
  obtain ⟨nonempty, all, rest, parts⟩ := begins
  obtain ⟨front, back⟩ := takeWhile_isDigit_append all rest
  have here : (Text.afterPrefix? passingWord (passingWord ++ rest)).isSome := by
    rw [Text.afterPrefix?_eq_some_iff.mpr rfl]
    rfl
  rw [passingDigits?, parts, front, back]
  simp [nonempty, here]

theorem isFirstSummary_of_begins (begins : BeginsWithSummary cs digits) :
    IsFirstSummary cs digits.length ∧ digitsBefore cs digits.length = digits := by
  obtain ⟨nonempty, all, rest, rfl⟩ := begins
  have before : digitsBefore (digits ++ (passingWord ++ rest)) digits.length = digits := by
    rw [digitsBefore, List.take_left]
    exact List.rtakeWhile_eq_self_iff.mpr all
  refine ⟨⟨⟨by rwa [before], by rw [List.drop_left]; exact List.prefix_append _ _⟩, ?_⟩, before⟩
  -- Before the end of the digits there is a digit where the word would begin.
  rintro j inside ⟨-, more, word⟩
  have isDigit := all digits[j] (List.getElem_mem inside)
  rw [List.drop_append_of_le_length (Nat.le_of_lt inside), List.drop_eq_getElem_cons inside] at word
  have space : digits[j] = ' ' := (List.cons.inj word).1.symm
  rw [space, isDigit_space] at isDigit
  cases isDigit

section
variable (other : ¬ ∃ digits, BeginsWithSummary (c :: cs) digits)
include other

theorem passingDigits?_of_not_begins :
    passingDigits? (c :: cs) = passingDigits? cs := by
  rw [passingDigits?]
  refine if_neg fun here => ?_
  rw [Bool.and_eq_true, Option.isSome_iff_exists] at here
  obtain ⟨nonempty, rest, follows⟩ := here
  refine other ⟨(c :: cs).takeWhile Text.isDigit, by simpa using nonempty,
    fun d => List.mem_takeWhile_imp, rest, ?_⟩
  rw [← Text.afterPrefix?_eq_some_iff.mp follows, List.takeWhile_append_dropWhile]

/-- Where the text does not begin with a summary, its summaries are those behind the first
character. -/
theorem digitsBefore_cons {i : Nat} (word : passingWord <+: cs.drop i) :
    digitsBefore (c :: cs) (i + 1) = digitsBefore cs i := by
  rw [digitsBefore, List.take_succ_cons, rtakeWhile_cons]
  refine if_neg fun all => other ⟨c :: cs.take i, List.cons_ne_nil _ _, all, ?_⟩
  obtain ⟨rest, parts⟩ := word
  exact ⟨rest, by rw [parts, List.cons_append, List.take_append_drop]⟩

theorem followsDigit_cons (i : Nat) :
    FollowsDigit (c :: cs) (i + 1) ↔ FollowsDigit cs i := by
  rw [FollowsDigit, FollowsDigit, List.drop_succ_cons]
  exact and_congr_left fun word => by rw [digitsBefore_cons other word]

theorem isFirstSummary_cons (i : Nat) :
    IsFirstSummary (c :: cs) (i + 1) ↔ IsFirstSummary cs i := by
  rw [IsFirstSummary, IsFirstSummary, followsDigit_cons other]
  refine and_congr_right fun _ => ⟨fun none j before => ?_, fun none j before => ?_⟩
  · rw [← followsDigit_cons other]
    exact none (j + 1) (by omega)
  · cases j with
    | zero => exact not_followsDigit_zero _
    | succ j =>
      rw [followsDigit_cons other]
      exact none j (by omega)

end

end

/-- The digits that are found are those before the first place where the word follows a digit. -/
theorem passingDigits?_eq_some_iff {cs digits : List Char} :
    passingDigits? cs = some digits ↔ ∃ i, IsFirstSummary cs i ∧ digitsBefore cs i = digits := by
  induction cs with
  | nil =>
    refine iff_of_false nofun ?_
    rintro ⟨i, ⟨⟨nonempty, -⟩, -⟩, -⟩
    simp [digitsBefore] at nonempty
  | cons c cs ih =>
    by_cases here : ∃ digits, BeginsWithSummary (c :: cs) digits
    · obtain ⟨found, begins⟩ := here
      obtain ⟨first, before⟩ := isFirstSummary_of_begins begins
      rw [passingDigits?_of_begins begins, Option.some.injEq]
      constructor
      · rintro rfl
        exact ⟨_, first, before⟩
      · rintro ⟨i, isFirst, rfl⟩
        rw [isFirstSummary_unique isFirst first, before]
    · rw [passingDigits?_of_not_begins here, ih]
      constructor
      · rintro ⟨i, first, rfl⟩
        exact ⟨i + 1, (isFirstSummary_cons here i).mpr first, digitsBefore_cons here first.1.2⟩
      · rintro ⟨i, first, rfl⟩
        cases i with
        | zero => exact absurd first.1 (not_followsDigit_zero _)
        | succ i =>
          have first := (isFirstSummary_cons here i).mp first
          exact ⟨i, first, (digitsBefore_cons here first.1.2).symm⟩

/-! ## The number -/

theorem foldl_digits (digits : List Char) :
    digits.foldl (fun n c => n * 10 + (c.toNat - '0'.toNat)) 0 = decimalValue digits := by
  rw [decimalValue, Nat.ofDigits_eq_foldr, List.map_reverse, List.foldr_reverse, List.foldl_map]
  congr 1
  funext n c
  simp only [Nat.cast_id]
  omega

theorem smallNumber?_eq_some_iff {digits : List Char} {n : Nat} :
    smallNumber? digits = some n ↔
      (∀ d ∈ digits, d.isDigit = true) ∧ decimalValue digits = n ∧ n < 2 ^ 32 := by
  rw [smallNumber?, foldl_digits]
  dsimp only
  split
  · rename_i ascii
    rw [List.all_eq_true] at ascii
    split
    · rename_i small
      rw [Option.some.injEq]
      constructor
      · rintro rfl
        exact ⟨ascii, rfl, small⟩
      · exact fun number => number.2.1
    · rename_i large
      refine iff_of_false nofun ?_
      rintro ⟨-, rfl, small⟩
      exact large small
  · rename_i other
    exact iff_of_false nofun fun number => other (List.all_eq_true.mpr number.1)

/-- The number of passed tests, exactly: the value of the digits before the first place where the
word follows a digit, if they are ASCII and their value is below `2 ^ 32`. Else there is none, be
there other numbers behind it or not. -/
theorem passingCount_eq_some_iff (output : String) (n : Nat) :
    passingCount output = some n ↔
      ∃ i, IsFirstSummary output.toList i ∧
        (∀ d ∈ digitsBefore output.toList i, d.isDigit = true) ∧
        decimalValue (digitsBefore output.toList i) = n ∧ n < 2 ^ 32 := by
  rw [passingCount, Option.bind_eq_some_iff]
  constructor
  · rintro ⟨digits, found, number⟩
    obtain ⟨i, first, rfl⟩ := passingDigits?_eq_some_iff.mp found
    exact ⟨i, first, smallNumber?_eq_some_iff.mp number⟩
  · rintro ⟨i, first, number⟩
    exact ⟨_, passingDigits?_eq_some_iff.mpr ⟨i, first, rfl⟩, smallNumber?_eq_some_iff.mpr number⟩

/-- Of two summaries the first one counts, though its number is not ASCII. -/
example : passingCount "٣ passing, 3 passing" = none := rfl

end SnapshotPreview.Update

import Mathlib.Tactic.ByContra
import SnapshotPreview.Bracket

/-!
# How deep brackets nest

The depth at a position is the number of opening brackets before it less the number of closing
ones; it may be negative, as a text need not be balanced. A forward scan ends where the depth first
falls below what it was at the start, a backward scan at the last position that is less deep than
the end of the stretch. From then on a bracket match is a statement about depths.
-/

namespace SnapshotPreview.Bracket

variable {text : Array UInt8} {opening closing : UInt8}

/-! ## Scanning a list -/

/-- By how many bytes that close outnumber those that nest. -/
def surplus (closing nesting : UInt8) (bytes : List UInt8) : Int :=
  bytes.count closing - bytes.count nesting

/-- What one byte adds to the surplus. -/
def weight (closing nesting b : UInt8) : Int :=
  if b = closing then 1 else if b = nesting then -1 else 0

theorem neg_one_le_weight (closing nesting b : UInt8) : -1 ≤ weight closing nesting b := by
  unfold weight
  split
  · omega
  · split <;> omega

theorem weight_le_one (closing nesting b : UInt8) : weight closing nesting b ≤ 1 := by
  unfold weight
  split
  · omega
  · split <;> omega

theorem weight_closing (closing nesting : UInt8) : weight closing nesting closing = 1 := by
  simp [weight]

theorem weight_le_zero {closing b : UInt8} (other : b ≠ closing) (nesting : UInt8) :
    weight closing nesting b ≤ 0 := by
  unfold weight
  rw [if_neg other]
  split <;> omega

theorem surplus_cons {closing nesting : UInt8} (distinct : closing ≠ nesting) (b : UInt8)
    (bytes : List UInt8) :
    surplus closing nesting (b :: bytes) = weight closing nesting b + surplus closing nesting bytes := by
  unfold surplus weight
  by_cases closes : b = closing
  · subst closes
    simp [distinct]
    omega
  · by_cases nests : b = nesting
    · subst nests
      simp [closes]
      omega
    · simp [closes, nests]

theorem surplus_singleton {closing nesting : UInt8} (distinct : closing ≠ nesting) (b : UInt8) :
    surplus closing nesting [b] = weight closing nesting b := by
  rw [surplus_cons distinct]
  simp [surplus]

theorem surplus_append (closing nesting : UInt8) (first second : List UInt8) :
    surplus closing nesting (first ++ second) =
      surplus closing nesting first + surplus closing nesting second := by
  simp only [surplus, List.count_append]
  omega

theorem surplus_reverse (closing nesting : UInt8) (bytes : List UInt8) :
    surplus closing nesting bytes.reverse = surplus closing nesting bytes := by
  simp only [surplus, List.count_reverse]

/-- A scan ends at a byte that closes the last open bracket, and else goes on at the depth that
the byte leaves. -/
theorem balance_cons {closing nesting : UInt8} (distinct : closing ≠ nesting) {d : Nat}
    (positive : 0 < d) (b : UInt8) (bytes : List UInt8) :
    (weight closing nesting b = d ∧ balance closing nesting d (b :: bytes) = some 0) ∨
      ∃ after : Nat, 0 < after ∧ (after : Int) = d - weight closing nesting b ∧
        balance closing nesting d (b :: bytes) =
          (balance closing nesting after bytes).map (· + 1) := by
  by_cases closes : b = closing
  · by_cases last : d ≤ 1
    · have one : d = 1 := by omega
      exact .inl ⟨by simp [weight, closes, one], by simp [balance, closes, last]⟩
    · exact .inr ⟨d - 1, by omega, by simp [weight, closes]; omega, by simp [balance, closes, last]⟩
  · by_cases nests : b = nesting
    · exact .inr ⟨d + 1, by omega, by simp [weight, nests, Ne.symm distinct],
        by simp [balance, nests, Ne.symm distinct]⟩
    · exact .inr ⟨d, positive, by simp [weight, closes, nests], by simp [balance, closes, nests]⟩

/-- A scan at depth `d` ends at the first byte with which the closing bytes outnumber the nesting
ones by `d`. -/
theorem balance_eq_some_iff {closing nesting : UInt8} (distinct : closing ≠ nesting)
    (bytes : List UInt8) {d : Nat} (positive : 0 < d) (n : Nat) :
    balance closing nesting d bytes = some n ↔
      n < bytes.length ∧ surplus closing nesting (bytes.take (n + 1)) = d ∧
        ∀ m ≤ n, surplus closing nesting (bytes.take m) < d := by
  induction bytes generalizing d n with
  | nil => simp [balance]
  | cons b bytes ih =>
    have first := surplus_singleton distinct b
    rcases balance_cons distinct positive b bytes with ⟨whole, ends⟩ | ⟨after, left, afterIs, goesOn⟩
    · rw [ends]
      constructor
      · intro same
        cases same
        refine ⟨by simp, by simpa [first] using whole, ?_⟩
        intro m le
        rw [Nat.le_zero.mp le]
        simpa [surplus] using positive
      · rintro ⟨-, -, before⟩
        by_contra later
        have := before 1 (by rcases n with _ | n <;> simp_all)
        simp [first, whole] at this
    · rw [goesOn, Option.map_eq_some_iff]
      constructor
      · rintro ⟨k, found, rfl⟩
        obtain ⟨inside, total, before⟩ := (ih left k).mp found
        refine ⟨by simpa using inside, ?_, ?_⟩
        · rw [List.take_succ_cons, surplus_cons distinct, total, afterIs]
          omega
        · intro m le
          cases m with
          | zero => simpa [surplus] using positive
          | succ m =>
            have := before m (by omega)
            rw [List.take_succ_cons, surplus_cons distinct]
            omega
      · rintro ⟨inside, total, before⟩
        cases n with
        | zero =>
          rw [List.take_succ_cons, List.take_zero, first] at total
          omega
        | succ k =>
          refine ⟨k, (ih left k).mpr ⟨by simpa using inside, ?_, ?_⟩, rfl⟩
          · rw [List.take_succ_cons, surplus_cons distinct] at total
            omega
          · intro m le
            have := before (m + 1) (by omega)
            rw [List.take_succ_cons, surplus_cons distinct] at this
            omega

/-! ## Depth in a text -/

/-- How many brackets are open after the first `n` bytes. -/
def depth (text : Array UInt8) (opening closing : UInt8) (n : Nat) : Int :=
  surplus opening closing (text.toList.take n)

/-- What closes in a stretch is what the depth falls by. -/
theorem surplus_ahead (start n : Nat) :
    surplus closing opening ((ahead text start).take n) =
      depth text opening closing start - depth text opening closing (start + n) := by
  unfold depth ahead
  rw [List.take_add, surplus_append]
  simp only [surplus]
  omega

/-- What opens in a stretch, read backward, is what the depth rises by. -/
theorem surplus_behind {start : Nat} (inside : start < text.size) {n : Nat} (le : n ≤ start + 1) :
    surplus opening closing ((behind text start).take n) =
      depth text opening closing (start + 1) - depth text opening closing (start + 1 - n) := by
  have split : text.toList.take (start + 1) =
      text.toList.take (start + 1 - n) ++ (text.toList.take (start + 1)).drop (start + 1 - n) := by
    conv_lhs => rw [← List.take_append_drop (start + 1 - n) (text.toList.take (start + 1))]
    rw [List.take_take, Nat.min_eq_left (by omega)]
  have length : (text.toList.take (start + 1)).length = start + 1 := by simp; omega
  have total := congrArg (surplus opening closing) split
  rw [surplus_append] at total
  unfold depth behind
  rw [List.take_reverse, surplus_reverse, length]
  omega

theorem depth_succ (distinct : opening ≠ closing) {n : Nat} (inside : n < text.size) :
    depth text opening closing (n + 1) =
      depth text opening closing n + weight opening closing text[n] := by
  unfold depth
  rw [List.take_add_one, surplus_append]
  simp [inside, surplus_singleton distinct]

theorem depth_succ_of_opening (distinct : opening ≠ closing) {n : Nat}
    (here : text[n]? = some opening) :
    depth text opening closing (n + 1) = depth text opening closing n + 1 := by
  obtain ⟨inside, isOpening⟩ := Array.getElem?_eq_some_iff.mp here
  rw [depth_succ distinct inside, isOpening, weight_closing]

theorem depth_succ_of_closing (distinct : opening ≠ closing) {n : Nat}
    (here : text[n]? = some closing) :
    depth text opening closing (n + 1) = depth text opening closing n - 1 := by
  obtain ⟨inside, isClosing⟩ := Array.getElem?_eq_some_iff.mp here
  rw [depth_succ distinct inside, isClosing, weight, if_neg (Ne.symm distinct), if_pos rfl]
  omega

/-! ## Matches -/

/-- A forward scan ends with the byte that first makes the text less deep than at the start. -/
theorem find_forward_iff (distinct : opening ≠ closing) {start p : Nat} :
    find text start opening closing .forward = some p ↔
      start ≤ p ∧ p < text.size ∧
        depth text opening closing (p + 1) = depth text opening closing start - 1 ∧
        ∀ x, start ≤ x → x ≤ p → depth text opening closing start ≤ depth text opening closing x := by
  have scan := fun n => balance_eq_some_iff (Ne.symm distinct) (ahead text start) Nat.one_pos n
  have length : (ahead text start).length = text.size - start := by simp [ahead]
  simp only [find, Option.map_eq_some_iff, scan, surplus_ahead, length]
  constructor
  · rintro ⟨n, ⟨inside, total, before⟩, rfl⟩
    refine ⟨by omega, by omega, by rw [Nat.add_assoc]; omega, ?_⟩
    intro x low high
    have := before (x - start) (by omega)
    rw [show start + (x - start) = x by omega] at this
    omega
  · rintro ⟨low, inside, total, before⟩
    refine ⟨p - start, ⟨by omega, ?_, ?_⟩, by omega⟩
    · rw [show start + (p - start + 1) = p + 1 by omega]
      omega
    · intro m le
      have := before (start + m) (by omega) (by omega)
      omega

/-- A backward scan ends at the last position that is less deep than the end of the stretch. -/
theorem find_backward_iff (distinct : opening ≠ closing) {start p : Nat} :
    find text start opening closing .backward = some p ↔
      p ≤ start ∧ start < text.size ∧
        depth text opening closing p = depth text opening closing (start + 1) - 1 ∧
        ∀ x, p < x → x ≤ start →
          depth text opening closing (start + 1) ≤ depth text opening closing x := by
  by_cases inside : start < text.size
  · have scan := fun n => balance_eq_some_iff distinct (behind text start) Nat.one_pos n
    have length : (behind text start).length = start + 1 := by simp [behind]; omega
    simp only [find, inside, if_true, Option.map_eq_some_iff, scan, length]
    constructor
    · rintro ⟨n, ⟨bound, total, before⟩, rfl⟩
      rw [surplus_behind inside (by omega)] at total
      refine ⟨by omega, trivial, ?_, ?_⟩
      · rw [show start + 1 - (n + 1) = start - n by omega] at total
        omega
      · intro x low high
        have := before (start + 1 - x) (by omega)
        rw [surplus_behind inside (by omega), show start + 1 - (start + 1 - x) = x by omega] at this
        omega
    · rintro ⟨le, -, total, before⟩
      refine ⟨start - p, ⟨by omega, ?_, ?_⟩, by omega⟩
      · rw [surplus_behind inside (by omega), show start + 1 - (start - p + 1) = p by omega]
        omega
      · intro m bound
        rw [surplus_behind inside (by omega)]
        cases m with
        | zero => simp
        | succ m =>
          have := before (start + 1 - (m + 1)) (by omega) (by omega)
          omega
  · simp [find, inside]

/-- A backward scan ends on an opening bracket. -/
theorem opening_of_find_backward (distinct : opening ≠ closing) {start p : Nat}
    (found : find text start opening closing .backward = some p) : text[p]? = some opening := by
  obtain ⟨le, inside, total, before⟩ := (find_backward_iff distinct).mp found
  have here : p < text.size := by omega
  have step := depth_succ distinct here
  have next : depth text opening closing (start + 1) ≤ depth text opening closing (p + 1) := by
    rcases Nat.lt_or_eq_of_le le with lt | same
    · exact before (p + 1) (by omega) (by omega)
    · exact Int.le_of_eq (by rw [same])
  rw [Array.getElem?_eq_getElem here]
  by_contra other
  have falls := weight_le_zero (fun same => other (congrArg some same)) closing
  omega

/-- Blocks do not cross: a position within the block of a later one has its own block there too. -/
theorem nested_of_find_backward (distinct : opening ≠ closing) {early late outer inner : Nat}
    (order : early < late) (foundLate : find text late opening closing .backward = some outer)
    (inside : outer < early) (foundEarly : find text early opening closing .backward = some inner) :
    outer ≤ inner := by
  obtain ⟨-, -, fallen, aboveLate⟩ := (find_backward_iff distinct).mp foundLate
  obtain ⟨-, -, -, aboveEarly⟩ := (find_backward_iff distinct).mp foundEarly
  by_contra overlap
  have first := aboveEarly outer (by omega) (by omega)
  have second := aboveLate (early + 1) (by omega) (by omega)
  omega

/-- Where the depth falls below that of the start, a forward scan has ended. -/
theorem exists_find_forward (distinct : opening ≠ closing) {start stop : Nat} (le : start ≤ stop)
    (inside : stop < text.size)
    (below : depth text opening closing (stop + 1) < depth text opening closing start) :
    ∃ p ≤ stop, find text start opening closing .forward = some p := by
  induction stop using Nat.strongRecOn with
  | ind stop ih =>
    -- Take the first position where the depth is below that of the start.
    by_cases earlier : ∃ x, start ≤ x ∧ x < stop ∧
        depth text opening closing (x + 1) < depth text opening closing start
    · obtain ⟨x, low, high, fallen⟩ := earlier
      obtain ⟨p, bound, found⟩ := ih x high low (by omega) fallen
      exact ⟨p, by omega, found⟩
    · have before : ∀ x, start ≤ x → x ≤ stop →
          depth text opening closing start ≤ depth text opening closing x := by
        intro x low high
        rcases Nat.lt_or_eq_of_le low with lt | same
        · by_contra fallen
          exact earlier ⟨x - 1, by omega, by omega, by rw [Nat.sub_add_cancel (by omega)]; omega⟩
        · exact Int.le_of_eq (by rw [same])
      refine ⟨stop, Nat.le_refl stop, (find_forward_iff distinct).mpr ⟨le, inside, ?_, before⟩⟩
      have := before stop le (Nat.le_refl stop)
      have step := depth_succ distinct inside
      have := neg_one_le_weight opening closing text[stop]
      omega

end SnapshotPreview.Bracket

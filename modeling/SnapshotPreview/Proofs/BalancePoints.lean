import SnapshotPreview.Proofs.Nesting

/-!
# Balance points

A scan for a bracket that matches counts, and ends where its counter comes to zero. Without the
counter: a position balances the scan when, from where the scan begins up to there, the bytes that
end it outnumber those that nest by one. The scan finds the nearest such position and finds nothing
only where there is none, in both directions alike, and its counter is never lowered at zero
(`find_nearest_balance_point`).
-/

namespace SnapshotPreview

/-- A scan passes one position before it comes to another. -/
def Direction.Passes : Direction → Nat → Nat → Prop
  | .forward, earlier, later => earlier < later
  | .backward, earlier, later => later < earlier

namespace Bracket

/-! ## What balances a scan -/

/-- The byte that lowers the counter of a scan. -/
def endsOn (opening closing : UInt8) : Direction → UInt8
  | .forward => closing
  | .backward => opening

/-- The byte that raises it. -/
def nestsOn (opening closing : UInt8) : Direction → UInt8
  | .forward => opening
  | .backward => closing

/-- The bytes from one position to another, both included, whichever of them comes first. -/
def between (text : Array UInt8) (a b : Nat) : List UInt8 :=
  (text.toList.take (max a b + 1)).drop (min a b)

/-- A scan that begins within the text can come to this position. -/
def Reaches (text : Array UInt8) (start : Nat) : Direction → Nat → Prop
  | .forward, p => start ≤ p ∧ p < text.size
  | .backward, p => p ≤ start ∧ start < text.size

/-- From `start` to `p`, the bytes that end the scan outnumber those that nest by one. -/
def IsBalancePoint (text : Array UInt8) (start : Nat) (opening closing : UInt8) (way : Direction)
    (p : Nat) : Prop :=
  Reaches text start way p ∧
    (between text start p).count (endsOn opening closing way) =
      (between text start p).count (nestsOn opening closing way) + 1

/-- The counter of a scan was lowered at zero. -/
inductive Underflow where
  | belowZero
deriving DecidableEq, Repr

/-- The counter after a byte that ends the scan. -/
def lower : Nat → Except Underflow Nat
  | 0 => .error .belowZero
  | depth + 1 => .ok depth

/-- The same count as `balance`, where the counter is first lowered and then compared with zero, and
cannot be lowered at zero. -/
def balanceChecked (closing nesting : UInt8) : Nat → List UInt8 → Except Underflow (Option Nat)
  | _, [] => .ok none
  | depth, b :: rest =>
    if b = closing then
      match lower depth with
      | .error failure => .error failure
      | .ok 0 => .ok (some 0)
      | .ok (left + 1) => (balanceChecked closing nesting (left + 1) rest).map (·.map (· + 1))
    else if b = nesting then
      (balanceChecked closing nesting (depth + 1) rest).map (·.map (· + 1))
    else (balanceChecked closing nesting depth rest).map (·.map (· + 1))

/-! ## The bytes on the way -/

/-- The bytes that a scan may look at, in its order. -/
def onTheWay (text : Array UInt8) (start : Nat) : Direction → List UInt8
  | .forward => ahead text start
  | .backward => if start < text.size then behind text start else []

/-- The position of the byte that comes after `n` others. -/
def place (start : Nat) : Direction → Nat → Nat
  | .forward, n => start + n
  | .backward, n => start - n

/-- The scan of a text with the counter that cannot be lowered at zero. -/
def findChecked (text : Array UInt8) (start : Nat) (opening closing : UInt8) (way : Direction) :
    Except Underflow (Option Nat) :=
  (balanceChecked (endsOn opening closing way) (nestsOn opening closing way) 1
    (onTheWay text start way)).map (·.map (place start way))

section
variable {text : Array UInt8} {start : Nat} {opening closing : UInt8} {way : Direction}

theorem find_eq_balance :
    find text start opening closing way =
      (balance (endsOn opening closing way) (nestsOn opening closing way) 1
        (onTheWay text start way)).map (place start way) := by
  cases way with
  | forward => rfl
  | backward =>
    simp only [find, onTheWay]
    split
    · rfl
    · rfl

theorem endsOn_ne_nestsOn (distinct : opening ≠ closing) (way : Direction) :
    endsOn opening closing way ≠ nestsOn opening closing way := by
  cases way with
  | forward => exact Ne.symm distinct
  | backward => exact distinct

/-- The places on the way are those that the scan reaches. -/
theorem reaches_iff {p : Nat} :
    Reaches text start way p ↔ ∃ n < (onTheWay text start way).length, p = place start way n := by
  cases way with
  | forward =>
    have length : (ahead text start).length = text.size - start := by simp [ahead]
    simp only [Reaches, onTheWay, place, length]
    constructor
    · rintro ⟨low, inside⟩
      exact ⟨p - start, by omega, by omega⟩
    · rintro ⟨n, inside, rfl⟩
      omega
  | backward =>
    simp only [Reaches, onTheWay, place]
    by_cases inside : start < text.size
    · have length : (behind text start).length = start + 1 := by simp [behind]; omega
      rw [if_pos inside, length]
      constructor
      · rintro ⟨low, -⟩
        exact ⟨start - p, by omega, by omega⟩
      · rintro ⟨n, -, rfl⟩
        omega
    · simp [inside]

theorem passes_place_iff {m n : Nat} (inside : n < (onTheWay text start way).length) :
    way.Passes (place start way m) (place start way n) ↔ m < n := by
  cases way with
  | forward => simp [Direction.Passes, place]
  | backward =>
    have bound : n ≤ start := by
      by_cases within : start < text.size
      · simp only [onTheWay, within, if_true, behind, List.length_reverse, List.length_take] at inside
        omega
      · simp [onTheWay, within] at inside
    simp only [Direction.Passes, place]
    omega

/-- Up to a place, the same bytes stand on the way as in the text, though perhaps in the other
order. -/
theorem count_between {n : Nat} (inside : n < (onTheWay text start way).length) (b : UInt8) :
    (between text start (place start way n)).count b = ((onTheWay text start way).take (n + 1)).count b := by
  cases way with
  | forward =>
    have stretch : between text start (start + n) = (ahead text start).take (n + 1) := by
      rw [between, Nat.max_eq_right (by omega), Nat.min_eq_left (by omega), ahead, List.drop_take]
      congr 1
      omega
    rw [place, stretch, onTheWay]
  | backward =>
    by_cases within : start < text.size
    · simp only [onTheWay, within, if_true] at inside ⊢
      have length : (text.toList.take (start + 1)).length = start + 1 := by simp; omega
      rw [behind, List.length_reverse, length] at inside
      rw [place, between, Nat.max_eq_left (by omega), Nat.min_eq_right (by omega), behind,
        List.take_reverse, List.count_reverse, length, Nat.add_sub_add_right]
    · simp [onTheWay, within] at inside

theorem isBalancePoint_iff {p : Nat} :
    IsBalancePoint text start opening closing way p ↔
      ∃ n < (onTheWay text start way).length, p = place start way n ∧
        surplus (endsOn opening closing way) (nestsOn opening closing way)
          ((onTheWay text start way).take (n + 1)) = 1 := by
  rw [IsBalancePoint, reaches_iff]
  constructor
  · rintro ⟨⟨n, inside, rfl⟩, counts⟩
    rw [count_between inside, count_between inside] at counts
    exact ⟨n, inside, rfl, by unfold surplus; omega⟩
  · rintro ⟨n, inside, rfl, counts⟩
    unfold surplus at counts
    exact ⟨⟨n, inside, rfl⟩, by rw [count_between inside, count_between inside]; omega⟩

end

/-! ## The first time a count is reached -/

section
variable {closing nesting : UInt8} {bytes : List UInt8}

theorem surplus_take_succ_le (distinct : closing ≠ nesting) (bytes : List UInt8) (n : Nat) :
    surplus closing nesting (bytes.take (n + 1)) ≤ surplus closing nesting (bytes.take n) + 1 := by
  rw [List.take_add_one, surplus_append]
  cases bytes[n]? with
  | none =>
    rw [Option.toList_none, show surplus closing nesting [] = 0 from rfl]
    omega
  | some b =>
    have := weight_le_one closing nesting b
    simp only [Option.toList_some, surplus_singleton distinct]
    omega

/-- As the surplus grows by at most one with each byte, it stays below `d` until it is `d`. -/
theorem surplus_take_lt (distinct : closing ≠ nesting) {d n : Nat} (positive : 0 < d)
    (never : ∀ m < n, surplus closing nesting (bytes.take (m + 1)) ≠ d) {m : Nat} (le : m ≤ n) :
    surplus closing nesting (bytes.take m) < d := by
  induction m with
  | zero => simpa [surplus] using positive
  | succ m ih =>
    have below := ih (by omega)
    have step := surplus_take_succ_le distinct bytes m
    have other := never m (by omega)
    omega

/-- A scan at depth `d` ends at the first byte with which the surplus is `d`. -/
theorem balance_eq_some_iff_first (distinct : closing ≠ nesting) (bytes : List UInt8) {d : Nat}
    (positive : 0 < d) (n : Nat) :
    balance closing nesting d bytes = some n ↔
      n < bytes.length ∧ surplus closing nesting (bytes.take (n + 1)) = d ∧
        ∀ m < n, surplus closing nesting (bytes.take (m + 1)) ≠ d := by
  rw [balance_eq_some_iff distinct bytes positive n]
  constructor
  · rintro ⟨inside, total, before⟩
    refine ⟨inside, total, fun m earlier => ?_⟩
    have := before (m + 1) (by omega)
    omega
  · rintro ⟨inside, total, never⟩
    exact ⟨inside, total, fun m le => surplus_take_lt distinct positive never le⟩

theorem balance_eq_none_iff (distinct : closing ≠ nesting) {d : Nat} (positive : 0 < d) :
    balance closing nesting d bytes = none ↔
      ∀ n < bytes.length, surplus closing nesting (bytes.take (n + 1)) ≠ d := by
  constructor
  · intro unfound n
    induction n using Nat.strongRecOn with
    | ind n ih =>
      intro inside total
      -- None of the positions before `n` has the surplus, so the scan would have ended at `n`.
      have found := (balance_eq_some_iff_first distinct bytes positive n).mpr
        ⟨inside, total, fun m earlier => ih m earlier (by omega)⟩
      rw [unfound] at found
      cases found
  · intro never
    cases found : balance closing nesting d bytes with
    | none => rfl
    | some n =>
      obtain ⟨inside, total, -⟩ := (balance_eq_some_iff_first distinct bytes positive n).mp found
      exact absurd total (never n inside)

/-- As long as a scan goes on its counter is positive, so it can be lowered. -/
theorem balanceChecked_eq {d : Nat} (positive : 0 < d) :
    balanceChecked closing nesting d bytes = .ok (balance closing nesting d bytes) := by
  induction bytes generalizing d with
  | nil => rfl
  | cons b bytes ih =>
    obtain ⟨left, rfl⟩ := Nat.exists_eq_add_one.mpr positive
    by_cases closes : b = closing
    · cases left with
      | zero => simp [balanceChecked, balance, lower, closes]
      | succ left =>
        have later := ih (Nat.succ_pos left)
        simp [balanceChecked, balance, lower, closes, later, Except.map]
    · by_cases nests : b = nesting
      · have later := ih (Nat.succ_pos (left + 1))
        rw [balanceChecked, if_neg closes, if_pos nests, later, balance, if_neg closes, if_pos nests]
        rfl
      · simp [balanceChecked, balance, closes, nests, ih positive, Except.map]

end

/-! ## Scans of a text -/

section
variable {text : Array UInt8} {start : Nat} {opening closing : UInt8} {way : Direction}
  (distinct : opening ≠ closing)
include distinct

theorem find_eq_some_iff_nearest {p : Nat} :
    find text start opening closing way = some p ↔
      IsBalancePoint text start opening closing way p ∧
        ∀ q, way.Passes q p → ¬ IsBalancePoint text start opening closing way q := by
  have first := balance_eq_some_iff_first (endsOn_ne_nestsOn distinct way)
    (onTheWay text start way) Nat.one_pos
  rw [find_eq_balance, Option.map_eq_some_iff]
  constructor
  · rintro ⟨n, found, rfl⟩
    obtain ⟨inside, total, never⟩ := (first n).mp found
    refine ⟨isBalancePoint_iff.mpr ⟨n, inside, rfl, total⟩, fun q passes isPoint => ?_⟩
    obtain ⟨m, -, rfl, early⟩ := isBalancePoint_iff.mp isPoint
    exact never m ((passes_place_iff inside).mp passes) early
  · rintro ⟨isPoint, nearest⟩
    obtain ⟨n, inside, rfl, total⟩ := isBalancePoint_iff.mp isPoint
    refine ⟨n, (first n).mpr ⟨inside, total, fun m earlier early => ?_⟩, rfl⟩
    exact nearest _ ((passes_place_iff inside).mpr earlier)
      (isBalancePoint_iff.mpr ⟨m, by omega, rfl, early⟩)

theorem find_eq_none_iff :
    find text start opening closing way = none ↔
      ∀ p, ¬ IsBalancePoint text start opening closing way p := by
  rw [find_eq_balance, Option.map_eq_none_iff,
    balance_eq_none_iff (endsOn_ne_nestsOn distinct way) Nat.one_pos]
  constructor
  · intro never p isPoint
    obtain ⟨n, inside, -, total⟩ := isBalancePoint_iff.mp isPoint
    exact never n inside total
  · intro noPoint n inside total
    exact noPoint _ (isBalancePoint_iff.mpr ⟨n, inside, rfl, total⟩)

/-- No position is reached from outside the text. -/
theorem find_of_outside (outside : text.size ≤ start) :
    find text start opening closing way = none := by
  refine (find_eq_none_iff distinct).mpr fun p isPoint => ?_
  have reached := isPoint.1
  cases way with
  | forward =>
    obtain ⟨low, inside⟩ := reached
    omega
  | backward =>
    obtain ⟨-, inside⟩ := reached
    omega

omit distinct in
theorem findChecked_eq :
    findChecked text start opening closing way = .ok (find text start opening closing way) := by
  rw [findChecked, balanceChecked_eq Nat.one_pos, find_eq_balance]
  rfl

/-- A scan ends at its nearest balance point. It finds nothing exactly if it has none, as when it
begins outside the text, and its counter is never lowered at zero. -/
theorem find_nearest_balance_point (text : Array UInt8) (start : Nat) (way : Direction) :
    (∀ p, find text start opening closing way = some p ↔
        IsBalancePoint text start opening closing way p ∧
          ∀ q, way.Passes q p → ¬ IsBalancePoint text start opening closing way q) ∧
      (find text start opening closing way = none ↔
        ∀ p, ¬ IsBalancePoint text start opening closing way p) ∧
      (text.size ≤ start → find text start opening closing way = none) ∧
      findChecked text start opening closing way = .ok (find text start opening closing way) :=
  ⟨fun _ => find_eq_some_iff_nearest distinct, find_eq_none_iff distinct, find_of_outside distinct,
    findChecked_eq⟩

end

/-- A call behind a parenthesis that nothing closes. -/
def callBehindUnclosed : Array UInt8 := Text.bytesOf "(é(f(x), g())"

/-- With its own closing parenthesis the call is balanced by the one that nothing closes, and ahead
of that one nothing balances it. -/
theorem balance_points_of_callBehindUnclosed :
    Text.byte '(' ≠ Text.byte ')' ∧ callBehindUnclosed.size ≤ 14 ∧
      IsBalancePoint callBehindUnclosed 13 (Text.byte '(') (Text.byte ')') .backward 0 ∧
      (∀ p, ¬ IsBalancePoint callBehindUnclosed 0 (Text.byte '(') (Text.byte ')') .forward p) ∧
      find callBehindUnclosed 14 (Text.byte '(') (Text.byte ')') .backward = none := by
  have distinct : Text.byte '(' ≠ Text.byte ')' := by decide
  have size : callBehindUnclosed.size ≤ 14 := by decide
  obtain ⟨back, -, -, -⟩ := find_nearest_balance_point distinct callBehindUnclosed 13 .backward
  obtain ⟨-, ahead, -, -⟩ := find_nearest_balance_point distinct callBehindUnclosed 0 .forward
  obtain ⟨-, -, outside, -⟩ := find_nearest_balance_point distinct callBehindUnclosed 14 .backward
  exact ⟨distinct, size, ((back 0).mp (by decide)).1, ahead.mp (by decide), outside size⟩

end Bracket

end SnapshotPreview

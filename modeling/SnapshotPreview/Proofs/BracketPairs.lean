import SnapshotPreview.Proofs.Text
import SnapshotPreview.Proofs.Nesting

/-!
# Pairs of brackets

Two brackets match when the stretch between them is level: as much is opened in it as is closed, and
no beginning of it closes more than it opens. That does not depend on the end from which the stretch
is read (`isLevel_reverse`), so the bracket found ahead of an opening one finds it back, and the other
way round (`find_forward_iff_find_backward`).
-/

namespace SnapshotPreview.Bracket

variable {opening closing nesting : UInt8} {stretch : List UInt8}

/-! ## Level stretches -/

/-- A stretch in which all that is opened is closed, and nothing else. -/
def IsLevel (closing nesting : UInt8) (stretch : List UInt8) : Prop :=
  surplus closing nesting stretch = 0 ∧
    ∀ before after, stretch = before ++ after → surplus closing nesting before ≤ 0

theorem surplus_swap (bytes : List UInt8) :
    surplus nesting closing bytes = - surplus closing nesting bytes := by
  unfold surplus
  omega

theorem IsLevel.reverse (level : IsLevel closing nesting stretch) :
    IsLevel nesting closing stretch.reverse := by
  obtain ⟨total, beginnings⟩ := level
  refine ⟨?_, ?_⟩
  · rw [surplus_reverse, surplus_swap, total]
    rfl
  · intro before after parts
    -- A beginning of the reversed stretch is an end of the stretch, and what stands before that end
    -- closes as much too little as the end closes too much.
    have mirrored : stretch = after.reverse ++ before.reverse := by
      rw [← List.reverse_append, ← parts, List.reverse_reverse]
    have start := beginnings _ _ mirrored
    rw [mirrored, surplus_append] at total
    rw [surplus_swap, ← surplus_reverse]
    omega

theorem isLevel_reverse :
    IsLevel nesting closing stretch.reverse ↔ IsLevel closing nesting stretch := by
  constructor
  · intro level
    simpa using level.reverse
  · exact IsLevel.reverse

/-! ## The end of a scan -/

/-- A scan goes on to the end of a stretch exactly if the stretch is level. -/
theorem balance_stretch_iff (distinct : closing ≠ nesting) (rest : List UInt8) :
    balance closing nesting 1 (stretch ++ closing :: rest) = some stretch.length ↔
      IsLevel closing nesting stretch := by
  have whole : (stretch ++ closing :: rest).take (stretch.length + 1) = stretch ++ [closing] := by
    rw [List.take_append, List.take_of_length_le (Nat.le_succ _)]
    simp
  have last := surplus_singleton distinct closing
  rw [weight_closing] at last
  rw [balance_eq_some_iff distinct _ Nat.one_pos, whole, surplus_append, last]
  constructor
  · rintro ⟨-, total, before⟩
    refine ⟨by omega, ?_⟩
    rintro beginning after rfl
    have found := before beginning.length (by simp)
    rw [List.append_assoc, List.take_left] at found
    omega
  · rintro ⟨total, beginnings⟩
    refine ⟨by simp, by omega, ?_⟩
    intro m le
    have start := beginnings _ _ (List.take_append_drop m stretch).symm
    rw [List.take_append_of_le_length le]
    omega

/-- Where one byte both opens and closes, a scan ends at the first such byte. -/
theorem balance_same_stretch_iff (rest : List UInt8) :
    balance closing closing 1 (stretch ++ closing :: rest) = some stretch.length ↔
      closing ∉ stretch := by
  induction stretch with
  | nil => simp [balance]
  | cons b stretch ih =>
    by_cases closes : b = closing
    · simp [balance, closes]
    · simp [balance, closes, Ne.symm closes, ih]

/-- Reading a stretch from its other end, with the roles of the brackets exchanged, the scan ends at
the other end too. -/
theorem balance_reverse_iff (before after : List UInt8) :
    balance opening closing 1 (stretch.reverse ++ opening :: before) = some stretch.length ↔
      balance closing opening 1 (stretch ++ closing :: after) = some stretch.length := by
  rw [← List.length_reverse]
  by_cases same : opening = closing
  · subst same
    rw [balance_same_stretch_iff, List.length_reverse, balance_same_stretch_iff, List.mem_reverse]
  · rw [balance_stretch_iff same, List.length_reverse, balance_stretch_iff (Ne.symm same),
      isLevel_reverse]

/-- A scan passes over what is no bracket. -/
theorem balance_append_of_not_mem {bytes : List UInt8}
    (noClosing : closing ∉ bytes) (noNesting : nesting ∉ bytes) (depth : Nat) (rest : List UInt8) :
    balance closing nesting depth (bytes ++ rest) =
      (balance closing nesting depth rest).map (bytes.length + ·) := by
  induction bytes with
  | nil => simp
  | cons b bytes ih =>
    rw [List.mem_cons, not_or] at noClosing noNesting
    rw [List.cons_append, balance, if_neg (Ne.symm noClosing.1), if_neg (Ne.symm noNesting.1),
      ih noClosing.2 noNesting.2, Option.map_map]
    congr 1
    funext n
    simp only [Function.comp_apply, List.length_cons]
    omega

theorem balance_append {bytes : List UInt8} (noClosing : closing ∉ bytes)
    (noNesting : nesting ∉ bytes) (rest : List UInt8) :
    balance closing nesting 1 (bytes ++ closing :: rest) = some bytes.length := by
  rw [balance_append_of_not_mem noClosing noNesting]
  simp [balance]

theorem lt_length_of_balance {depth n : Nat} {bytes : List UInt8}
    (found : balance closing nesting depth bytes = some n) : n < bytes.length := by
  fun_induction balance closing nesting depth bytes generalizing n with
  | case1 => cases found
  | case2 => cases found; simp
  | case3 _ _ _ ih | case4 _ _ _ ih | case5 _ _ _ _ _ ih =>
    obtain ⟨m, later, rfl⟩ := Option.map_eq_some_iff.mp found
    simpa using ih later

/-! ## Brackets in a text -/

variable {text : Array UInt8} {front back : List UInt8}

theorem ahead_of_parts (parts : text.toList = front ++ opening :: back) :
    ahead text (front.length + 1) = back := by
  rw [ahead, parts, ← List.drop_drop, List.drop_left]
  rfl

theorem behind_of_parts (parts : text.toList = front ++ opening :: (stretch ++ back)) :
    behind text (front.length + stretch.length) = stretch.reverse ++ opening :: front.reverse := by
  have whole : text.toList = (front ++ opening :: stretch) ++ back := by simpa using parts
  rw [behind, whole, List.take_left' (by simp; omega)]
  simp

/-- Looking back from the end of a stretch without brackets, the bracket before it is found. -/
theorem find_backward_of_parts (parts : text.toList = front ++ opening :: (stretch ++ back))
    (noOpening : opening ∉ stretch) (noClosing : closing ∉ stretch) :
    find text (front.length + stretch.length) opening closing .backward = some front.length := by
  have size : text.size = front.length + (stretch.length + back.length + 1) := by
    rw [← Array.length_toList, parts]
    simp
  have scanned := balance_append (List.mem_reverse.not.mpr noOpening)
    (List.mem_reverse.not.mpr noClosing) front.reverse
  rw [find, if_pos (by omega), behind_of_parts parts, scanned]
  simp

theorem exists_parts_between {first last : Nat} (order : first < last)
    (opens : text[first]? = some opening) (closes : text[last]? = some closing) :
    ∃ front stretch back, text.toList = front ++ opening :: (stretch ++ closing :: back) ∧
      first = front.length ∧ last = front.length + 1 + stretch.length := by
  rw [← Array.getElem?_toList] at opens closes
  obtain ⟨front, onward, parts, rfl⟩ := Text.exists_parts_of_getElem? opens
  have later : onward[last - front.length - 1]? = some closing := by
    rw [parts, List.getElem?_append_right (by omega), List.getElem?_cons, if_neg (by omega)] at closes
    exact closes
  obtain ⟨stretch, back, rfl, length⟩ := Text.exists_parts_of_getElem? later
  exact ⟨front, stretch, back, parts, rfl, by omega⟩

/-- A bracket is found ahead of the one that it closes exactly if that one is found behind it, also
where a single byte serves as both. -/
theorem find_forward_iff_find_backward {first last : Nat} (order : first < last)
    (opens : text[first]? = some opening) (closes : text[last]? = some closing) :
    find text (first + 1) opening closing .forward = some last ↔
      find text (last - 1) opening closing .backward = some first := by
  obtain ⟨front, stretch, back, parts, rfl, rfl⟩ := exists_parts_between order opens closes
  have size : text.size = front.length + (stretch.length + (back.length + 1) + 1) := by
    rw [← Array.length_toList, parts]
    simp
  have forward : find text (front.length + 1) opening closing .forward =
        some (front.length + 1 + stretch.length) ↔
      balance closing opening 1 (stretch ++ closing :: back) = some stretch.length := by
    simp [find, ahead_of_parts parts]
  have backward : find text (front.length + stretch.length) opening closing .backward =
        some front.length ↔
      balance opening closing 1 (stretch.reverse ++ opening :: front.reverse) =
        some stretch.length := by
    rw [find, if_pos (by omega), behind_of_parts parts, Option.map_eq_some_iff]
    constructor
    · rintro ⟨n, found, start⟩
      have bound := lt_length_of_balance found
      simp only [List.length_append, List.length_reverse, List.length_cons] at bound
      rw [found, show n = stretch.length by omega]
    · intro found
      exact ⟨stretch.length, found, by omega⟩
  rw [show front.length + 1 + stretch.length - 1 = front.length + stretch.length by omega, forward,
    backward, balance_reverse_iff]

/-- A call behind a parenthesis that nothing closes. -/
def callInUnclosed : Array UInt8 := Text.bytesOf ")(é(f(x), g())"

theorem find_backward_of_callInUnclosed :
    callInUnclosed[4]? = some (Text.byte '(') ∧ callInUnclosed[14]? = some (Text.byte ')') ∧
      find callInUnclosed 13 (Text.byte '(') (Text.byte ')') .backward = some 4 := by
  have opens : callInUnclosed[4]? = some (Text.byte '(') := by decide
  have closes : callInUnclosed[14]? = some (Text.byte ')') := by decide
  have ahead : find callInUnclosed 5 (Text.byte '(') (Text.byte ')') .forward = some 14 := by decide
  exact ⟨opens, closes, (find_forward_iff_find_backward (by decide) opens closes).mp ahead⟩

end SnapshotPreview.Bracket

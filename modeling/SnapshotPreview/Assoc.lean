/-!
# Association lists

Values under distinct keys, in the order in which the keys first came.
-/

namespace SnapshotPreview.Assoc

variable {α β : Type} [DecidableEq α]

/-- Sets the value of a key, in its place if the key is there and else at the end. -/
def set (key : α) (value : β) : List (α × β) → List (α × β)
  | [] => [(key, value)]
  | (k, v) :: rest => if k = key then (k, value) :: rest else (k, v) :: set key value rest

/-- The value of a key. -/
def get? (key : α) : List (α × β) → Option β
  | [] => none
  | (k, v) :: rest => if k = key then some v else get? key rest

/-- Removes a key. -/
def erase (key : α) (pairs : List (α × β)) : List (α × β) := pairs.filter fun (k, _) => k ≠ key

theorem get?_set (key k : α) (value : β) (pairs : List (α × β)) :
    get? k (set key value pairs) = if k = key then some value else get? k pairs := by
  induction pairs with
  | nil => simp [set, get?, eq_comm]
  | cons pair rest ih =>
    obtain ⟨first, v⟩ := pair
    by_cases here : first = key
    · subst here
      by_cases same : first = k
      · simp [set, get?, same]
      · simp [set, get?, same, Ne.symm same]
    · by_cases same : first = k
      · subst same
        simp [set, get?, here]
      · simp [set, get?, here, same, ih]

theorem erase_cons (key k : α) (v : β) (rest : List (α × β)) :
    erase key ((k, v) :: rest) = if k = key then erase key rest else (k, v) :: erase key rest := by
  by_cases here : k = key
  · simp [erase, here]
  · simp [erase, here]

theorem get?_erase (key k : α) (pairs : List (α × β)) :
    get? k (erase key pairs) = if k = key then none else get? k pairs := by
  induction pairs with
  | nil => simp [erase, get?]
  | cons pair rest ih =>
    obtain ⟨first, v⟩ := pair
    rw [erase_cons]
    by_cases here : first = key
    · rw [if_pos here, ih, here]
      by_cases same : k = key
      · rw [if_pos same, if_pos same]
      · simp [same, get?, Ne.symm same]
    · by_cases same : first = k
      · subst same
        simp [get?, here]
      · simp [get?, here, same, ih]

end SnapshotPreview.Assoc

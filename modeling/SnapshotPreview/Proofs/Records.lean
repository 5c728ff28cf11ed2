import Mathlib.Data.List.Induction
import Mathlib.Data.List.Nodup
import SnapshotPreview.Record

/-!
# Records, and one record stored over another

In a record that pairs were stored in, no key stands twice and none is set apart (`proper_ofPairs`).
Storing further pairs comes to the same as making a record of them first and storing that over the
other one (`insertAll_eq_merge`): keys that are known keep their places and take the later value, and
the new keys follow in their own order (`entries_merge`).
-/

namespace SnapshotPreview

namespace Assoc

variable {α β : Type}

/-! ## Keys -/

/-- The keys, in their order. -/
def keys (pairs : List (α × β)) : List α := pairs.map Prod.fst

@[simp] theorem keys_nil : keys ([] : List (α × β)) = [] := rfl

@[simp] theorem keys_cons (key : α) (value : β) (rest : List (α × β)) :
    keys ((key, value) :: rest) = key :: keys rest := rfl

theorem mem_keys {key : α} {value : β} {pairs : List (α × β)} (isIn : (key, value) ∈ pairs) :
    key ∈ keys pairs := List.mem_map_of_mem isIn

theorem keys_map_value {γ : Type} (f : β → γ) (pairs : List (α × β)) :
    keys (pairs.map fun (key, value) => (key, f value)) = keys pairs := by
  rw [keys, List.map_map]
  rfl

theorem keys_append (first second : List (α × β)) :
    keys (first ++ second) = keys first ++ keys second := List.map_append

variable [DecidableEq α]

theorem get?_append (key : α) (first second : List (α × β)) :
    get? key (first ++ second) = (get? key first).or (get? key second) := by
  induction first with
  | nil => rfl
  | cons pair first ih =>
    obtain ⟨k, v⟩ := pair
    by_cases here : k = key
    · simp [get?, here]
    · simp [get?, here, ih]

theorem get?_map_value {γ : Type} (f : β → γ) (key : α) (pairs : List (α × β)) :
    get? key (pairs.map fun (key, value) => (key, f value)) = (get? key pairs).map f := by
  induction pairs with
  | nil => rfl
  | cons pair pairs ih =>
    obtain ⟨k, v⟩ := pair
    by_cases here : k = key
    · simp [get?, here]
    · simp [get?, here, ih]

/-- Of distinct keys each has the value that stands with it. -/
theorem get?_of_mem {key : α} {value : β} {pairs : List (α × β)} (distinct : (keys pairs).Nodup)
    (isIn : (key, value) ∈ pairs) : get? key pairs = some value := by
  induction pairs with
  | nil => cases isIn
  | cons pair pairs ih =>
    obtain ⟨k, v⟩ := pair
    rw [keys_cons, List.nodup_cons] at distinct
    rcases List.mem_cons.mp isIn with same | later
    · cases same
      simp [get?]
    · have other : k ≠ key := by
        rintro rfl
        exact distinct.1 (mem_keys later)
      rw [get?, if_neg other]
      exact ih distinct.2 later

theorem get?_eq_none_iff {key : α} {pairs : List (α × β)} :
    get? key pairs = none ↔ key ∉ keys pairs := by
  induction pairs with
  | nil => simp [get?]
  | cons pair rest ih =>
    obtain ⟨first, v⟩ := pair
    by_cases here : first = key
    · simp [get?, here]
    · simp [get?, here, Ne.symm here, ih]

/-- A new key comes last. -/
theorem set_of_new {key : α} (value : β) {pairs : List (α × β)} (new : key ∉ keys pairs) :
    set key value pairs = pairs ++ [(key, value)] := by
  induction pairs with
  | nil => rfl
  | cons pair rest ih =>
    obtain ⟨first, v⟩ := pair
    rw [keys_cons, List.mem_cons, not_or] at new
    rw [set, if_neg (Ne.symm new.1), ih new.2, List.cons_append]

/-- A known key keeps its place. -/
theorem keys_set_of_known {key : α} (value : β) {pairs : List (α × β)} (known : key ∈ keys pairs) :
    keys (set key value pairs) = keys pairs := by
  induction pairs with
  | nil => simp at known
  | cons pair rest ih =>
    obtain ⟨first, v⟩ := pair
    by_cases here : first = key
    · simp [set, here]
    · rw [keys_cons, List.mem_cons] at known
      simp [set, here, ih (known.resolve_left (Ne.symm here))]

theorem keys_set (key : α) (value : β) (pairs : List (α × β)) :
    keys (set key value pairs) =
      if key ∈ keys pairs then keys pairs else keys pairs ++ [key] := by
  split
  · rename_i known
    exact keys_set_of_known value known
  · rename_i new
    rw [set_of_new value new]
    simp [keys]

/-- Of distinct keys, only the one that is set gets another value. -/
theorem set_of_known {key : α} (value : β) {pairs : List (α × β)} (distinct : (keys pairs).Nodup)
    (known : key ∈ keys pairs) :
    set key value pairs = pairs.map fun (k, v) => (k, if key = k then value else v) := by
  induction pairs with
  | nil => simp at known
  | cons pair rest ih =>
    obtain ⟨first, v⟩ := pair
    rw [keys_cons, List.nodup_cons] at distinct
    by_cases here : first = key
    · subst here
      have others : rest.map (fun (k, v) => (k, if first = k then value else v)) = rest := by
        refine (List.map_congr_left ?_).trans (List.map_id rest)
        rintro ⟨k, v⟩ isIn
        have differ : first ≠ k := fun same => distinct.1 (same ▸ mem_keys isIn)
        simp [differ]
      simp [set, others]
    · rw [keys_cons, List.mem_cons] at known
      simp [set, here, Ne.symm here, ih distinct.2 (known.resolve_left (Ne.symm here))]

theorem mem_keys_set_iff {k key : α} {value : β} {pairs : List (α × β)} :
    k ∈ keys (set key value pairs) ↔ k = key ∨ k ∈ keys pairs := by
  rw [keys_set]
  split
  · rename_i known
    constructor
    · exact .inr
    · rintro (rfl | isIn)
      · exact known
      · exact isIn
  · rw [List.mem_append, List.mem_singleton, or_comm]

theorem nodup_keys_set {pairs : List (α × β)} (distinct : (keys pairs).Nodup) (key : α) (value : β) :
    (keys (set key value pairs)).Nodup := by
  rw [keys_set]
  split
  · exact distinct
  · rename_i new
    exact List.nodup_append.mpr ⟨distinct, List.nodup_singleton key, by
      intro k isIn k' same
      rw [List.mem_singleton.mp same]
      rintro rfl
      exact new isIn⟩

/-! ## Setting all keys of a list -/

/-- Sets the values of all keys of a list, in its order. -/
def setAll (news pairs : List (α × β)) : List (α × β) :=
  news.foldl (fun pairs (key, value) => set key value pairs) pairs

theorem setAll_cons (key : α) (value : β) (news pairs : List (α × β)) :
    setAll ((key, value) :: news) pairs = setAll news (set key value pairs) := rfl

/-- Setting a known key may come before or after setting another one. -/
theorem set_comm_of_known {key other : α} (value v : β) {pairs : List (α × β)}
    (known : key ∈ keys pairs) (differ : other ≠ key) :
    set key value (set other v pairs) = set other v (set key value pairs) := by
  induction pairs with
  | nil => simp at known
  | cons pair rest ih =>
    obtain ⟨first, w⟩ := pair
    by_cases isKey : first = key
    · subst isKey
      simp [set, Ne.symm differ]
    · rw [keys_cons, List.mem_cons] at known
      have later := ih (known.resolve_left (Ne.symm isKey))
      by_cases isOther : first = other
      · simp [set, isOther, differ]
      · simp [set, isKey, isOther, later]

theorem set_setAll_of_known {key : α} (value : β) {news pairs : List (α × β)}
    (known : key ∈ keys pairs) (absent : key ∉ keys news) :
    set key value (setAll news pairs) = setAll news (set key value pairs) := by
  induction news generalizing pairs with
  | nil => rfl
  | cons pair news ih =>
    obtain ⟨other, v⟩ := pair
    rw [keys_cons, List.mem_cons, not_or] at absent
    rw [setAll_cons, setAll_cons, ih (mem_keys_set_iff.mpr (.inr known)) absent.2,
      set_comm_of_known value v known (Ne.symm absent.1)]

/-- The last value wins. -/
theorem set_set (key : α) (v value : β) (pairs : List (α × β)) :
    set key value (set key v pairs) = set key value pairs := by
  induction pairs with
  | nil => simp [set]
  | cons pair rest ih =>
    obtain ⟨first, w⟩ := pair
    by_cases here : first = key
    · simp [set, here]
    · simp [set, here, ih]

/-- Setting one more key of the list that is stored is setting it in the result. -/
theorem setAll_set {news : List (α × β)} (distinct : (keys news).Nodup) (key : α) (value : β)
    (pairs : List (α × β)) :
    setAll (set key value news) pairs = set key value (setAll news pairs) := by
  induction news generalizing pairs with
  | nil => rfl
  | cons pair news ih =>
    obtain ⟨first, v⟩ := pair
    rw [keys_cons, List.nodup_cons] at distinct
    by_cases here : first = key
    · subst here
      have known : first ∈ keys (set first v pairs) := mem_keys_set_iff.mpr (.inl rfl)
      rw [set, if_pos rfl, setAll_cons, setAll_cons, set_setAll_of_known value known distinct.1,
        set_set]
    · rw [set, if_neg here, setAll_cons, setAll_cons, ih distinct.2]

/-- The pairs with the values that another list has for their keys. -/
def update (news pairs : List (α × β)) : List (α × β) :=
  pairs.map fun (key, value) => (key, (get? key news).getD value)

theorem update_set_of_known {key : α} (value : β) {news pairs : List (α × β)}
    (absent : key ∉ keys news) (distinct : (keys pairs).Nodup) (known : key ∈ keys pairs) :
    update news (set key value pairs) = update ((key, value) :: news) pairs := by
  rw [set_of_known value distinct known, update, update, List.map_map]
  refine List.map_congr_left ?_
  rintro ⟨k, v⟩ -
  by_cases here : key = k
  · subst here
    simp [get?, get?_eq_none_iff.mpr absent]
  · simp [get?, here]

theorem update_cons_of_new {key : α} (value : β) (news : List (α × β)) {pairs : List (α × β)}
    (new : key ∉ keys pairs) : update ((key, value) :: news) pairs = update news pairs := by
  refine List.map_congr_left ?_
  rintro ⟨k, v⟩ isIn
  have differ : key ≠ k := fun same => new (same ▸ mem_keys isIn)
  simp [get?, differ]

/-- Known keys keep their places and take the later value, new keys follow in their own order. -/
theorem setAll_eq {news pairs : List (α × β)} (distinctNews : (keys news).Nodup)
    (distinct : (keys pairs).Nodup) :
    setAll news pairs =
      update news pairs ++ news.filter (fun pair => (get? pair.1 pairs).isNone) := by
  induction news generalizing pairs with
  | nil => simp [setAll, update, get?]
  | cons pair news ih =>
    obtain ⟨key, value⟩ := pair
    rw [keys_cons, List.nodup_cons] at distinctNews
    have sameNew : news.filter (fun pair => (get? pair.1 (set key value pairs)).isNone) =
        news.filter (fun pair => (get? pair.1 pairs).isNone) := by
      refine List.filter_congr ?_
      intro pair isIn
      have differ : pair.1 ≠ key := fun same => distinctNews.1 (same ▸ mem_keys isIn)
      simp only [get?_set, if_neg differ]
    rw [setAll_cons, ih distinctNews.2 (nodup_keys_set distinct key value), sameNew]
    by_cases known : key ∈ keys pairs
    · have stored : (get? key pairs).isNone = false := by
        rw [Option.isNone_eq_false_iff, Option.isSome_iff_ne_none]
        exact fun none => get?_eq_none_iff.mp none known
      rw [update_set_of_known value distinctNews.1 distinct known,
        List.filter_cons_of_neg (by simp [stored])]
    · have new : (get? key pairs).isNone = true := by simp [get?_eq_none_iff.mpr known]
      have last : (get? key news).getD value = value := by
        simp [get?_eq_none_iff.mpr distinctNews.1]
      rw [set_of_new value known, update_cons_of_new value news known,
        List.filter_cons_of_pos (by simp [new])]
      simp [update, last]

end Assoc

namespace Record

/-! ## What is in a record -/

/-- No key stands twice, and none is set apart. -/
structure IsProper (r : Record) : Prop where
  distinct : (Assoc.keys r.entries).Nodup
  plain : ∀ key ∈ Assoc.keys r.entries, isSidecarKey key = false

theorem insert_of_plain (r : Record) {key : String} (plain : isSidecarKey key = false)
    (value : String) : r.insert key value = { r with entries := Assoc.set key value r.entries } := by
  simp only [isSidecarKey, Bool.or_eq_false_iff, beq_eq_false_iff_ne] at plain
  rw [insert, if_neg plain.1, if_neg plain.2]

theorem entries_insert_of_sidecar (r : Record) {key : String} (apart : isSidecarKey key = true)
    (value : String) : (r.insert key value).entries = r.entries := by
  simp only [isSidecarKey, Bool.or_eq_true, beq_iff_eq] at apart
  rcases apart with rfl | rfl
  · rfl
  · rfl

theorem IsProper.insert {r : Record} (proper : r.IsProper) (key value : String) :
    (r.insert key value).IsProper := by
  cases apart : isSidecarKey key with
  | true =>
    constructor
    · rw [entries_insert_of_sidecar r apart]
      exact proper.distinct
    · rw [entries_insert_of_sidecar r apart]
      exact proper.plain
  | false =>
    rw [insert_of_plain r apart]
    constructor
    · exact Assoc.nodup_keys_set proper.distinct key value
    · intro k isIn
      rcases Assoc.mem_keys_set_iff.mp isIn with rfl | old
      · exact apart
      · exact proper.plain k old

theorem insertAll_cons (r : Record) (key value : String) (pairs : List (String × String)) :
    r.insertAll ((key, value) :: pairs) = (r.insert key value).insertAll pairs := rfl

theorem insertAll_concat (r : Record) (pairs : List (String × String)) (key value : String) :
    r.insertAll (pairs ++ [(key, value)]) = (r.insertAll pairs).insert key value := by
  simp [insertAll]

theorem ofPairs_concat (pairs : List (String × String)) (key value : String) :
    ofPairs (pairs ++ [(key, value)]) = (ofPairs pairs).insert key value :=
  insertAll_concat empty pairs key value

theorem proper_ofPairs (pairs : List (String × String)) : (ofPairs pairs).IsProper := by
  induction pairs using List.reverseRecOn with
  | nil => exact ⟨List.nodup_nil, by simp [ofPairs, insertAll, empty]⟩
  | append_singleton pairs pair ih =>
    obtain ⟨key, value⟩ := pair
    rw [ofPairs_concat]
    exact ih.insert key value

/-! ## One record over another -/

/-- The entries of the later record are stored in order, and the settings that it has replace the
others. -/
def merge (r later : Record) : Record :=
  { r.insertAll later.entries with
    cssClassName := later.cssClassName.or r.cssClassName
    decorator := later.decorator.or r.decorator }

theorem insertAll_of_plain (r : Record) {pairs : List (String × String)}
    (plain : ∀ key ∈ Assoc.keys pairs, isSidecarKey key = false) :
    r.insertAll pairs = { r with entries := Assoc.setAll pairs r.entries } := by
  induction pairs generalizing r with
  | nil => rfl
  | cons pair pairs ih =>
    obtain ⟨key, value⟩ := pair
    rw [Assoc.keys_cons, List.forall_mem_cons] at plain
    rw [insertAll_cons, ih _ plain.2, insert_of_plain r plain.1, Assoc.setAll_cons]

theorem merge_of_proper (r : Record) {later : Record} (proper : later.IsProper) :
    r.merge later =
      { entries := Assoc.setAll later.entries r.entries
        cssClassName := later.cssClassName.or r.cssClassName
        decorator := later.decorator.or r.decorator } := by
  rw [merge, insertAll_of_plain r proper.plain]

/-- Storing one more pair in the later record is storing it in the result. -/
theorem merge_insert (r : Record) {later : Record} (proper : later.IsProper) (key value : String) :
    r.merge (later.insert key value) = (r.merge later).insert key value := by
  rw [merge_of_proper r (proper.insert key value), merge_of_proper r proper]
  by_cases isClass : key = cssClassKey
  · simp [insert, isClass]
  · by_cases isDecorator : key = decoratorKey
    · simp [insert, isDecorator, show decoratorKey ≠ cssClassKey by decide]
    · simp [insert, isClass, isDecorator, Assoc.setAll_set proper.distinct]

/-- Storing pairs is storing the record that they make. -/
theorem insertAll_eq_merge (r : Record) (pairs : List (String × String)) :
    r.insertAll pairs = r.merge (ofPairs pairs) := by
  induction pairs using List.reverseRecOn with
  | nil => simp [ofPairs, insertAll, merge, empty]
  | append_singleton pairs pair ih =>
    obtain ⟨key, value⟩ := pair
    rw [insertAll_concat, ih, ← merge_insert r (proper_ofPairs pairs), ofPairs_concat]

theorem ofPairs_append (first second : List (String × String)) :
    ofPairs (first ++ second) = (ofPairs first).merge (ofPairs second) := by
  rw [← insertAll_eq_merge, ofPairs, ofPairs, insertAll, insertAll, insertAll, List.foldl_append]

/-- Known keys keep their places and take the later value, new keys follow in their own order. -/
theorem entries_merge {r later : Record} (proper : r.IsProper) (properLater : later.IsProper) :
    (r.merge later).entries =
      r.entries.map (fun (key, value) => (key, (later.get? key).getD value)) ++
        later.entries.filter (fun (key, _) => (r.get? key).isNone) := by
  rw [merge_of_proper r properLater, Assoc.setAll_eq properLater.distinct proper.distinct]
  rfl

end Record

end SnapshotPreview

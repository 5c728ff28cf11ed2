import Mathlib.Data.Finset.Card
import Mathlib.Data.Finset.Dedup
import Mathlib.Data.List.Induction
import SnapshotPreview.Proofs.Records

/-!
# What a record remembers

A record does not keep the pairs that were stored in it, but what it holds is determined by them: its
keys are the plain ones among theirs, in the order in which they first came, and under each of them, as
in each of the two settings, is what was stored there last. Storing one more pair keeps this up
(`Reflects.insert`), so it holds after any number of them (`reflects_ofPairs`).
-/

namespace SnapshotPreview.Record

/-- The values that were stored under a key, in their order. -/
def valuesUnder (key : String) (pairs : List (String × String)) : List String :=
  (pairs.filter fun pair => pair.1 = key).map Prod.snd

/-- The record holds what is left of the pairs when they have been stored one after the other. -/
structure Reflects (r : Record) (pairs : List (String × String)) : Prop extends r.IsProper where
  mem_keys_iff : ∀ key,
    key ∈ Assoc.keys r.entries ↔ key ∈ Assoc.keys pairs ∧ isSidecarKey key = false
  inOrder : (Assoc.keys r.entries).Pairwise fun earlier later =>
    (Assoc.keys pairs).idxOf earlier < (Assoc.keys pairs).idxOf later
  get?_eq : ∀ key,
    r.get? key = if isSidecarKey key then none else (valuesUnder key pairs).getLast?
  cssClassName_eq : r.cssClassName = (valuesUnder cssClassKey pairs).getLast?
  decorator_eq : r.decorator = (valuesUnder decoratorKey pairs).getLast?

variable {r : Record} {pairs : List (String × String)}

/-! ## One more pair -/

theorem getLast?_valuesUnder_concat (k : String) (pairs : List (String × String))
    (key value : String) :
    (valuesUnder k (pairs ++ [(key, value)])).getLast? =
      if key = k then some value else (valuesUnder k pairs).getLast? := by
  by_cases same : key = k
  · simp [valuesUnder, same]
  · simp [valuesUnder, same]

/-- What one more pair changes: the setting that its key stands for, or the entries. -/
theorem insert_eq (r : Record) (key value : String) :
    r.insert key value =
      { entries := if isSidecarKey key then r.entries else Assoc.set key value r.entries
        cssClassName := if key = cssClassKey then some value else r.cssClassName
        decorator := if key = decoratorKey then some value else r.decorator } := by
  by_cases isClass : key = cssClassKey
  · simp [insert, isSidecarKey, isClass, show cssClassKey ≠ decoratorKey by decide]
  · by_cases isDecorator : key = decoratorKey
    · simp [insert, isSidecarKey, isDecorator, show decoratorKey ≠ cssClassKey by decide]
    · simp [insert, isSidecarKey, isClass, isDecorator]

theorem keys_insert (r : Record) (key value : String) :
    Assoc.keys (r.insert key value).entries =
      if isSidecarKey key = true ∨ key ∈ Assoc.keys r.entries then Assoc.keys r.entries
      else Assoc.keys r.entries ++ [key] := by
  rw [insert_eq]
  cases isSidecarKey key with
  | true => simp
  | false => simp [Assoc.keys_set]

theorem get?_insert (r : Record) (key value : String) {k : String} (plain : isSidecarKey k = false) :
    (r.insert key value).get? k = if key = k then some value else r.get? k := by
  rw [insert_eq, get?]
  cases apart : isSidecarKey key with
  | true =>
    have other : key ≠ k := by
      rintro rfl
      rw [plain] at apart
      cases apart
    rw [if_neg other]
    rfl
  | false =>
    simp only [Bool.false_eq_true, if_false, Assoc.get?_set, get?, eq_comm]

theorem IsProper.get?_of_sidecar (proper : r.IsProper) {key : String}
    (apart : isSidecarKey key = true) : r.get? key = none := by
  refine Assoc.get?_eq_none_iff.mpr fun isIn => ?_
  rw [proper.plain key isIn] at apart
  cases apart

/-! ## The record after one more pair -/

namespace Reflects

variable (reflects : r.Reflects pairs)
include reflects

theorem mem_keys_insert_iff (key value k : String) :
    k ∈ Assoc.keys (r.insert key value).entries ↔
      k ∈ Assoc.keys pairs ++ [key] ∧ isSidecarKey k = false := by
  rw [keys_insert, List.mem_append, List.mem_singleton]
  split
  · rename_i stays
    rw [reflects.mem_keys_iff]
    constructor
    · rintro ⟨came, plain⟩
      exact ⟨.inl came, plain⟩
    · rintro ⟨came | rfl, plain⟩
      · exact ⟨came, plain⟩
      · exact (reflects.mem_keys_iff k).mp (stays.resolve_left (by simp [plain]))
  · rename_i new
    rw [List.mem_append, List.mem_singleton, reflects.mem_keys_iff]
    constructor
    · rintro (⟨came, plain⟩ | rfl)
      · exact ⟨.inl came, plain⟩
      · exact ⟨.inr rfl, by simpa using fun apart => new (.inl apart)⟩
    · rintro ⟨came | rfl, plain⟩
      · exact .inl ⟨came, plain⟩
      · exact .inr rfl

/-- A key that is not new stays in its place, and a new one is later than all others. -/
theorem inOrder_insert (key value : String) :
    (Assoc.keys (r.insert key value).entries).Pairwise fun earlier later =>
      (Assoc.keys pairs ++ [key]).idxOf earlier < (Assoc.keys pairs ++ [key]).idxOf later := by
  have came (k : String) (isIn : k ∈ Assoc.keys r.entries) : k ∈ Assoc.keys pairs :=
    ((reflects.mem_keys_iff k).mp isIn).1
  have old : (Assoc.keys r.entries).Pairwise fun earlier later =>
      (Assoc.keys pairs ++ [key]).idxOf earlier < (Assoc.keys pairs ++ [key]).idxOf later := by
    refine reflects.inOrder.imp_of_mem fun earlierIn laterIn before => ?_
    rw [List.idxOf_append_of_mem (came _ earlierIn), List.idxOf_append_of_mem (came _ laterIn)]
    exact before
  rw [keys_insert]
  split
  · exact old
  · rename_i new
    rw [not_or, Bool.not_eq_true] at new
    have unseen : key ∉ Assoc.keys pairs := fun isIn =>
      new.2 ((reflects.mem_keys_iff key).mpr ⟨isIn, new.1⟩)
    refine List.pairwise_append.mpr ⟨old, List.pairwise_singleton _ _, ?_⟩
    intro earlier earlierIn later isKey
    rw [List.mem_singleton.mp isKey, List.idxOf_append_of_mem (came _ earlierIn),
      List.idxOf_append_of_notMem unseen]
    have := List.idxOf_lt_length_of_mem (came _ earlierIn)
    omega

theorem insert (key value : String) :
    (r.insert key value).Reflects (pairs ++ [(key, value)]) := by
  have pairKeys : Assoc.keys (pairs ++ [(key, value)]) = Assoc.keys pairs ++ [key] :=
    Assoc.keys_append pairs [(key, value)]
  have proper := reflects.toIsProper.insert key value
  refine { toIsProper := proper, mem_keys_iff := ?_, inOrder := ?_, get?_eq := ?_,
           cssClassName_eq := ?_, decorator_eq := ?_ }
  · intro k
    rw [pairKeys]
    exact reflects.mem_keys_insert_iff key value k
  · rw [pairKeys]
    exact reflects.inOrder_insert key value
  · intro k
    cases apart : isSidecarKey k with
    | true => rw [if_pos rfl, proper.get?_of_sidecar apart]
    | false =>
      rw [if_neg Bool.false_ne_true, get?_insert r key value apart, reflects.get?_eq, apart,
        if_neg Bool.false_ne_true, getLast?_valuesUnder_concat]
  · rw [insert_eq, getLast?_valuesUnder_concat, ← reflects.cssClassName_eq]
  · rw [insert_eq, getLast?_valuesUnder_concat, ← reflects.decorator_eq]

/-! ## What follows -/

theorem get?_eq_none_iff (key : String) :
    r.get? key = none ↔ isSidecarKey key = true ∨ key ∉ Assoc.keys pairs := by
  rw [get?, Assoc.get?_eq_none_iff, reflects.mem_keys_iff]
  cases isSidecarKey key <;> simp

theorem size_eq :
    r.size = ((Assoc.keys pairs).filter fun key => !isSidecarKey key).toFinset.card := by
  have sameKeys : (Assoc.keys r.entries).toFinset =
      ((Assoc.keys pairs).filter fun key => !isSidecarKey key).toFinset := by
    ext key
    simp [reflects.mem_keys_iff]
  rw [← sameKeys, List.toFinset_card_of_nodup reflects.distinct, Assoc.keys, List.length_map]
  rfl

end Reflects

/-! ## Any number of pairs -/

theorem reflects_empty : empty.Reflects [] where
  distinct := List.nodup_nil
  plain := fun _ isIn => absurd isIn List.not_mem_nil
  mem_keys_iff := by simp [empty]
  inOrder := List.Pairwise.nil
  get?_eq := by simp [get?, empty, Assoc.get?, valuesUnder]
  cssClassName_eq := rfl
  decorator_eq := rfl

theorem reflects_ofPairs (pairs : List (String × String)) : (ofPairs pairs).Reflects pairs := by
  induction pairs using List.reverseRecOn with
  | nil => exact reflects_empty
  | append_singleton pairs pair ih =>
    obtain ⟨key, value⟩ := pair
    rw [ofPairs_concat]
    exact ih.insert key value

/-- However pairs are stored one after the other in a new record, what it holds is determined by them:
its keys are the plain ones among theirs, each once, in the order in which they first came, the values
are the last ones, and its size is the number of different plain keys. -/
theorem ofPairs_reflects_history (pairs : List (String × String)) :
    (ofPairs pairs).Reflects pairs ∧
      (∀ key, (ofPairs pairs).get? key = none ↔
        isSidecarKey key = true ∨ key ∉ Assoc.keys pairs) ∧
      (ofPairs pairs).size =
        ((Assoc.keys pairs).filter fun key => !isSidecarKey key).toFinset.card :=
  ⟨reflects_ofPairs pairs, (reflects_ofPairs pairs).get?_eq_none_iff, (reflects_ofPairs pairs).size_eq⟩

example : ofPairs [("b", "1"), ("decorator", "d"), ("a", "2"), ("b", "3")] =
    { entries := [("b", "3"), ("a", "2")], cssClassName := none, decorator := some "d" } := by decide

end SnapshotPreview.Record

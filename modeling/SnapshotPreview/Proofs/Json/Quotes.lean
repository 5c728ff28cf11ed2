import SnapshotPreview.Proofs.Json.Reading

/-!
# Quotes in the text of a value

Numbers and words have no quotes. The compact text of a value has some exactly if there is a string
in it or an object with a member (`quote_mem_compact_iff`).
-/

namespace SnapshotPreview

/-! ## Numbers -/

theorem quote_not_mem_digits (n : Nat) : '"' ∉ decimalDigits n := by
  intro isIn
  have digit : '"'.isDigit = true := Nat.isDigit_of_mem_toDigits (by decide) (by decide) isIn
  cases digit

theorem Binary64.Decimal.quote_not_mem_text (style : PointStyle) (d : Binary64.Decimal) :
    '"' ∉ d.text style := by
  have digits := quote_not_mem_digits d.digits
  unfold Binary64.Decimal.text
  generalize decimalDigits d.digits = ds at digits ⊢
  have before (k : Nat) : '"' ∉ ds.take k := fun isIn => digits (List.mem_of_mem_take isIn)
  have behind (k : Nat) : '"' ∉ ds.drop k := fun isIn => digits (List.mem_of_mem_drop isIn)
  dsimp only
  split
  · split
    · simp [digits]
    · split
      · simp [before, behind]
      · simp [digits]
  · have sign (p : Prop) [Decidable p] : '"' ≠ if p then '-' else '+' := by split <;> decide
    have exponent := quote_not_mem_digits
    split
    · simp only [List.mem_cons, not_or] at digits
      simp [digits, exponent, sign]
    · simp [digits, exponent, sign]

theorem JsonNumber.quote_not_mem_text (n : JsonNumber) : '"' ∉ n.text.toList := by
  cases n with
  | whole n =>
    cases n with
    | ofNat n =>
      rw [JsonNumber.text, Json.toList_toString_ofNat]
      exact quote_not_mem_digits n
    | negSucc n =>
      rw [JsonNumber.text, Json.toList_toString_negSucc]
      exact List.not_mem_cons_of_ne_of_not_mem (by decide) (quote_not_mem_digits (n + 1))
  | float x =>
    have shortest := Binary64.Decimal.quote_not_mem_text pointStyle x.shortest
    unfold JsonNumber.text
    dsimp only
    rw [String.toList_ofList]
    split <;> split <;> simp [shortest]

namespace Json

/-- There is a string in a value, or an object with a member. -/
inductive HoldsString : Json → Prop where
  | string (s : String) : HoldsString (.string s)
  | item {v : Json} {items : List Json} : v ∈ items → HoldsString v → HoldsString (.array items)
  | member {members : List (String × Json)} : members ≠ [] → HoldsString (.object members)

theorem mem_intercalate_iff {c : Char} {separator : String} (apart : c ∉ separator.toList)
    (parts : List String) :
    c ∈ (String.intercalate separator parts).toList ↔ ∃ part ∈ parts, c ∈ part.toList := by
  induction parts with
  | nil => simp
  | cons part parts ih =>
    cases parts with
    | nil => simp
    | cons next parts =>
      rw [String.intercalate_cons_cons, String.toList_append, String.toList_append, List.mem_append,
        List.mem_append, ih]
      simp [apart]

theorem quote_mem_quote (s : String) : '"' ∈ (quote s).toList := by
  simp [quote]

mutual

/-- The compact text of a value has a quote exactly if it holds a string. -/
theorem quote_mem_compact_iff (v : Json) : '"' ∈ v.compact.toList ↔ v.HoldsString := by
  cases v with
  | null =>
    refine iff_of_false ?_ (fun holds => by cases holds)
    rw [compact]
    decide
  | bool b =>
    refine iff_of_false ?_ (fun holds => by cases holds)
    rw [compact]
    cases b <;> decide
  | number n =>
    refine iff_of_false ?_ (fun holds => by cases holds)
    rw [compact]
    exact n.quote_not_mem_text
  | string s =>
    rw [compact]
    exact iff_of_true (quote_mem_quote s) (.string s)
  | array items =>
    have bracketed : '"' ∈ (array items).compact.toList ↔
        '"' ∈ (String.intercalate "," (compactItems items)).toList := by
      rw [compact, String.toList_append, String.toList_append]
      simp
    rw [bracketed, mem_intercalate_iff (by decide), quote_mem_items_iff items]
    constructor
    · rintro ⟨v, isItem, holds⟩
      exact .item isItem holds
    · intro holds
      cases holds with
      | item isItem holds => exact ⟨_, isItem, holds⟩
  | object members =>
    cases members with
    | nil =>
      constructor
      · intro shown
        rw [compact, compactMembers] at shown
        exact absurd shown (by decide)
      · intro holds
        cases holds with
        | member nonempty => exact absurd rfl nonempty
    | cons m members =>
      obtain ⟨name, v⟩ := m
      refine iff_of_true ?_ (.member (List.cons_ne_nil _ _))
      have inFirst : '"' ∈ (String.intercalate "," (compactMembers ((name, v) :: members))).toList := by
        rw [mem_intercalate_iff (by decide), compactMembers]
        exact ⟨_, List.mem_cons_self, by simp [quote_mem_quote]⟩
      rw [compact, String.toList_append, String.toList_append, List.mem_append, List.mem_append]
      exact .inl (.inr inFirst)

theorem quote_mem_items_iff (items : List Json) :
    (∃ part ∈ compactItems items, '"' ∈ part.toList) ↔ ∃ v ∈ items, HoldsString v := by
  cases items with
  | nil => simp [compactItems]
  | cons v items =>
    have first := quote_mem_compact_iff v
    have others := quote_mem_items_iff items
    rw [compactItems, List.exists_mem_cons_iff, first, others, List.exists_mem_cons_iff]

end

/-- A value that is shown with a quote: a string that has one, or another value that holds a
string. -/
def ShowsQuote : Json → Prop
  | string s => '"' ∈ s.toList
  | v => v.HoldsString

theorem quote_mem_plainText_iff (v : Json) : '"' ∈ v.plainText.toList ↔ v.ShowsQuote := by
  cases v with
  | string s => exact Iff.rfl
  | _ => exact quote_mem_compact_iff _

end Json

end SnapshotPreview

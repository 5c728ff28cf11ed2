import SnapshotPreview.Proofs.Text
import SnapshotPreview.Toml.Strings

/-!
# Space that is skipped

What stands between the parts of a document is skipped up to the first character that counts, and
that character is left.
-/

namespace SnapshotPreview.Toml

/-- A character that is not skipped between the parts of a document. -/
def IsSolid (c : Char) : Prop := isBlank c = false ∧ c ≠ '#' ∧ c ≠ '\n' ∧ c ≠ '\r'

instance (c : Char) : Decidable (IsSolid c) := inferInstanceAs (Decidable (_ ∧ _))

theorem ne_of_kind {kind : Char → Bool} {c d : Char} (inside : kind c = true)
    (outside : kind d = false) : c ≠ d := by
  rintro rfl
  rw [inside] at outside
  cases outside

/-- The characters of a kind count if none that is skipped is one of them. -/
theorem isSolid_of_kind {kind : Char → Bool} {c : Char} (inside : kind c = true)
    (outside : ∀ d ∈ [' ', '\t', '#', '\n', '\r'], kind d = false) : IsSolid c := by
  have ne (d : Char) (isIn : d ∈ [' ', '\t', '#', '\n', '\r']) : c ≠ d :=
    ne_of_kind inside (outside d isIn)
  refine ⟨?_, ne '#' (by decide), ne '\n' (by decide), ne '\r' (by decide)⟩
  rw [isBlank, beq_eq_false_iff_ne.mpr (ne ' ' (by decide)),
    beq_eq_false_iff_ne.mpr (ne '\t' (by decide))]
  rfl

theorem isSolid_of_isQuote {c : Char} (isOne : isQuote c = true) : IsSolid c :=
  isSolid_of_kind isOne (Text.forall_mem_of_all (by decide))

section
variable {c : Char} (solid : IsSolid c) (rest : List Char)
include solid

theorem skipBlanks_solid : skipBlanks (c :: rest) = c :: rest := by
  rw [skipBlanks, List.dropWhile_cons_of_neg (by simp [solid.1])]

theorem skipComment_solid : skipComment (c :: rest) = c :: rest := by
  unfold skipComment
  split
  · rename_i same
    cases same
    exact absurd rfl solid.2.1
  · rfl

theorem afterNewline?_solid : afterNewline? (c :: rest) = none := by
  unfold afterNewline?
  split
  · rename_i same
    cases same
    exact absurd rfl solid.2.2.1
  · rename_i same
    cases same
    exact absurd rfl solid.2.2.2
  · rfl

theorem skipGap_solid : skipGap (c :: rest) = c :: rest := by
  rw [skipGap, skipBlanks_solid solid]
  split
  · rename_i none
    rw [skipComment_solid solid] at none
    cases none
  · rename_i d more same
    rw [skipComment_solid solid] at same
    cases same
    split
    · rename_i feeds
      rw [afterNewline?_solid solid] at feeds
      cases feeds
    · rfl

end

theorem skipBlanks_blank {c : Char} (blank : isBlank c = true) (rest : List Char) :
    skipBlanks (c :: rest) = skipBlanks rest := by
  rw [skipBlanks, List.dropWhile_cons_of_pos blank, skipBlanks]

theorem skipGap_blank {c : Char} (blank : isBlank c = true) (rest : List Char) :
    skipGap (c :: rest) = skipGap rest := by
  rw [skipGap, skipGap, skipBlanks_blank blank]

theorem skipGap_feed (rest : List Char) : skipGap ('\n' :: rest) = skipGap rest := by
  rw [skipGap]
  rfl

theorem endLine?_feed (rest : List Char) : endLine? ('\n' :: rest) = some rest := rfl

end SnapshotPreview.Toml

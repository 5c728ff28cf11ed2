import SnapshotPreview.Proofs.CallSite

/-!
# Calls as ends of the visible text

Looking back from a quote compares a literal with the end of the text in front of it, white space
left out (`endsWith_iff_suffix`). How a call is spaced therefore never decides whether it is
recognised, and a literal with white space of its own is never found.
-/

namespace SnapshotPreview.Call

variable {text : Array UInt8}

/-- The bytes of a text that are no ASCII white space. -/
def visible (bytes : List UInt8) : List UInt8 := bytes.filter fun b => !Text.isSpaceByte b

theorem visible_append (first second : List UInt8) :
    visible (first ++ second) = visible first ++ visible second :=
  List.filter_append first second

theorem visible_singleton {b : UInt8} (solid : Text.isSpaceByte b = false) : visible [b] = [b] := by
  simp [visible, solid]

/-- Only white space is cut off the end of a text. -/
theorem visible_take_trimmedLength {len : Nat} (inside : len ≤ text.size) :
    visible (text.toList.take (trimmedLength text len)) = visible (text.toList.take len) := by
  induction len with
  | zero => rfl
  | succ len ih =>
    have here : text[len]? = some text[len] := Array.getElem?_eq_getElem inside
    unfold trimmedLength
    simp only [here]
    by_cases space : Text.isSpaceByte text[len] = true
    · rw [if_pos space, ih (by omega), List.take_add_one, visible_append, Array.getElem?_toList, here]
      simp [visible, space]
    · rw [if_neg space]

/-- What is left of a text without the white space at its end has a last byte that is visible. -/
theorem exists_last_of_trimmedLength {len before : Nat} (inside : len ≤ text.size)
    (trimmed : trimmedLength text len = before + 1) :
    ∃ b, text[before]? = some b ∧ Text.isSpaceByte b = false := by
  induction len with
  | zero => cases trimmed
  | succ len ih =>
    have here : text[len]? = some text[len] := Array.getElem?_eq_getElem inside
    unfold trimmedLength at trimmed
    simp only [here] at trimmed
    by_cases space : Text.isSpaceByte text[len] = true
    · rw [if_pos space] at trimmed
      exact ih (by omega) trimmed
    · rw [if_neg space] at trimmed
      cases trimmed
      exact ⟨_, here, by simpa using space⟩

/-- Looking back finds the expected bytes, the last of them first, exactly if the visible bytes end
with them. -/
theorem endsWith_iff_suffix {len : Nat} (inside : len ≤ text.size) (expected : List UInt8) :
    endsWith text expected len = true ↔ expected.reverse <:+ visible (text.toList.take len) := by
  induction expected generalizing len with
  | nil => simp [endsWith]
  | cons b more ih =>
    have bound := trimmedLength_le text len
    rw [← visible_take_trimmedLength inside]
    unfold endsWith
    cases trimmed : trimmedLength text len with
    | zero => simp [visible]
    | succ before =>
      obtain ⟨last, here, solid⟩ := exists_last_of_trimmedLength inside trimmed
      have split : visible (text.toList.take (before + 1)) =
          visible (text.toList.take before) ++ [last] := by
        rw [List.take_add_one, visible_append, Array.getElem?_toList, here, Option.toList_some,
          visible_singleton solid]
      have later := @ih before (by omega)
      rw [split, List.reverse_cons, ← List.reverse_prefix, List.reverse_append, List.reverse_append]
      rw [← List.reverse_prefix] at later
      simp only [here, List.reverse_singleton, List.singleton_append, List.cons_prefix_cons,
        Bool.and_eq_true, later, beq_iff_eq, Option.some.injEq]
      rw [eq_comm]

theorem opensAt_iff_suffix (text : Array UInt8) (literal : String) (pos : Nat) :
    opensAt text literal pos = true ↔ text[pos]? = some (Text.byte '\x27') ∧
      (Text.bytesOf literal).toList <:+ visible (text.toList.take (pos + 1)) := by
  rw [opensAt, Bool.and_eq_true, beq_iff_eq]
  constructor
  · rintro ⟨quote, ends⟩
    obtain ⟨inside, -⟩ := Array.getElem?_eq_some_iff.mp quote
    exact ⟨quote, by simpa using (endsWith_iff_suffix inside _).mp ends⟩
  · rintro ⟨quote, ends⟩
    obtain ⟨inside, -⟩ := Array.getElem?_eq_some_iff.mp quote
    exact ⟨quote, (endsWith_iff_suffix inside _).mpr (by simpa using ends)⟩

/-- Where the same byte stands behind texts of the same visible bytes, a literal is found in both or
in neither. -/
theorem opensAt_congr {other : Array UInt8} {pos p : Nat} (same : other[p]? = text[pos]?)
    (alike : visible (other.toList.take p) = visible (text.toList.take pos)) (literal : String) :
    opensAt other literal p = opensAt text literal pos := by
  rw [Bool.eq_iff_iff, opensAt_iff_suffix, opensAt_iff_suffix, List.take_add_one, List.take_add_one,
    visible_append, visible_append, Array.getElem?_toList, Array.getElem?_toList, same, alike]

theorem not_opensAt_of_space {literal : String} (spaced : ∃ c ∈ literal.toList, Text.isSpace c = true)
    (pos : Nat) : opensAt text literal pos = false := by
  rw [← Bool.not_eq_true, opensAt_iff_suffix]
  rintro ⟨-, ends⟩
  obtain ⟨c, isIn, space⟩ := spaced
  obtain ⟨b, more, bytes⟩ := List.exists_cons_of_ne_nil (String.utf8EncodeChar_ne_nil (c := c))
  have isByte : b ∈ String.utf8EncodeChar c := by rw [bytes]; exact List.mem_cons_self
  have inLiteral : b ∈ (Text.bytesOf literal).toList := by
    rw [Text.toList_bytesOf]
    exact List.mem_flatMap.mpr ⟨c, isIn, isByte⟩
  have solid := (List.mem_filter.mp (ends.subset inLiteral)).2
  rw [Text.isSpaceByte_eq isByte, space] at solid
  cases solid

/-- A literal is found at a position exactly if a single quote stands there and the visible bytes up
to it end with the literal. White space before the quote makes no difference, and a literal with white
space in it is found nowhere. -/
theorem opensAt_up_to_space (text : Array UInt8) (literal : String) (pos : Nat) :
    (opensAt text literal pos = true ↔ text[pos]? = some (Text.byte '\x27') ∧
      (Text.bytesOf literal).toList <:+ visible (text.toList.take (pos + 1))) ∧
    (∀ (other : Array UInt8) (p : Nat), other[p]? = text[pos]? →
      visible (other.toList.take p) = visible (text.toList.take pos) →
      opensAt other literal p = opensAt text literal pos) ∧
    ((∃ c ∈ literal.toList, Text.isSpace c = true) → opensAt text literal pos = false) :=
  ⟨opensAt_iff_suffix text literal pos, fun _ _ same alike => opensAt_congr same alike literal,
    fun spaced => not_opensAt_of_space spaced pos⟩

/-- A call with white space within the identifier and around the parenthesis. -/
def spacedOut : Array UInt8 := Text.bytesOf "é i\tt\n (\r'x')"

theorem opensAt_of_spacedOut :
    spacedOut[10]? = (Text.bytesOf "éit('x')")[5]? ∧
      visible (spacedOut.toList.take 10) = visible ((Text.bytesOf "éit('x')").toList.take 5) ∧
      opensAt spacedOut "it('" 10 = opensAt (Text.bytesOf "éit('x')") "it('" 5 ∧
      opensAt (Text.bytesOf "éit('x')") "it('" 5 = true ∧ opensAt spacedOut "it\n('" 10 = false := by
  have same : spacedOut[10]? = (Text.bytesOf "éit('x')")[5]? := by decide
  have alike : visible (spacedOut.toList.take 10) =
      visible ((Text.bytesOf "éit('x')").toList.take 5) := by decide
  refine ⟨same, alike, ?_, ?_, ?_⟩
  · exact (opensAt_up_to_space _ "it('" 5).2.1 spacedOut 10 same alike
  · exact (opensAt_up_to_space _ "it('" 5).1.mpr (by decide)
  · exact (opensAt_up_to_space spacedOut "it\n('" 10).2.2 ⟨'\n', by decide, by decide⟩

end SnapshotPreview.Call

import SnapshotPreview.Text.Affix

/-!
# Replacement rules

A rule looks at the start of a text. Where it applies, it gives what to write and the text that
is left, which is shorter. A rule is applied to a text from left to right: what has been written
is not looked at again, and characters at which the rule does not apply stay.
-/

namespace SnapshotPreview.Text

/-- A rule that replaces the start of a text. -/
structure Rule where
  /-- What to write and the text that is left, if the rule applies. -/
  step : List Char → Option (List Char × List Char)
  shorter : ∀ {cs out rest}, step cs = some (out, rest) → rest.length < cs.length

/-- Replaces every place of a text at which the rule applies. -/
def Rule.replaceAll (rule : Rule) (cs : List Char) : List Char :=
  match _h : rule.step cs with
  | some (out, rest) => out ++ rule.replaceAll rest
  | none =>
    match cs with
    | [] => []
    | c :: rest => c :: rule.replaceAll rest
termination_by cs.length
decreasing_by
  · exact rule.shorter _h
  · exact Nat.lt_succ_self _

/-- The text with the rule applied. -/
def Rule.apply (rule : Rule) (s : String) : String := String.ofList (rule.replaceAll s.toList)

theorem length_dropWhile_le {α : Type} (p : α → Bool) (l : List α) :
    (l.dropWhile p).length ≤ l.length := (List.dropWhile_sublist p).length_le

/-- Writes one text for another, which has a first character and more. -/
def literalStep (first : Char) (more replacement cs : List Char) :
    Option (List Char × List Char) :=
  (afterPrefix? (first :: more) cs).map fun rest => (replacement, rest)

/-- Writes one text for every occurrence of another. -/
def Rule.literal (first : Char) (more replacement : List Char) : Rule where
  step := literalStep first more replacement
  shorter := by
    intro cs out rest h
    obtain ⟨r, hr, heq⟩ := Option.map_eq_some_iff.1 h
    cases heq
    have := length_of_afterPrefix? hr
    simp only [List.length_cons] at this
    omega

/-- The text without one character, if it begins with it. -/
def dropOne (c : Char) (cs : List Char) : List Char :=
  match cs with
  | d :: rest => if d = c then rest else cs
  | [] => []

theorem length_dropOne_le (c : Char) (cs : List Char) : (dropOne c cs).length ≤ cs.length := by
  cases cs with
  | nil => simp [dropOne]
  | cons d rest => simp only [dropOne]; split <;> simp

end SnapshotPreview.Text

/-!
# Parts of a text

Taking a known beginning off a text, looking for one text within another, and cutting a text at a
separator.
-/

namespace SnapshotPreview.Text

variable {α : Type} [DecidableEq α]

/-- What follows a beginning, if the list begins with it. -/
def afterPrefix? : List α → List α → Option (List α)
  | [], l => some l
  | _ :: _, [] => none
  | p :: ps, x :: xs => if p = x then afterPrefix? ps xs else none

theorem afterPrefix?_eq_some_iff {p l rest : List α} :
    afterPrefix? p l = some rest ↔ l = p ++ rest := by
  induction p generalizing l with
  | nil => simp [afterPrefix?]
  | cons a p ih =>
    cases l with
    | nil => simp [afterPrefix?]
    | cons x xs =>
      by_cases h : a = x
      · simp [afterPrefix?, h, ih]
      · simp [afterPrefix?, h, Ne.symm h]

theorem length_of_afterPrefix? {p l rest : List α} (h : afterPrefix? p l = some rest) :
    l.length = p.length + rest.length := by
  rw [afterPrefix?_eq_some_iff.1 h, List.length_append]

/-- Whether one list occurs within another. -/
def occursIn (needle : List α) : List α → Bool
  | [] => needle.isEmpty
  | x :: xs => (afterPrefix? needle (x :: xs)).isSome || occursIn needle xs

/-- Where one list first occurs within another. -/
def find? (needle : List α) : List α → Option Nat
  | [] => if needle.isEmpty then some 0 else none
  | x :: xs =>
    if (afterPrefix? needle (x :: xs)).isSome then some 0 else (find? needle xs).map (· + 1)

/-- The parts between the separators. There is always one more of them than separators. -/
def splitOn (separator : α) : List α → List (List α)
  | [] => [[]]
  | x :: xs =>
    if x = separator then [] :: splitOn separator xs
    else
      match splitOn separator xs with
      | part :: parts => (x :: part) :: parts
      | [] => [[x]]

end SnapshotPreview.Text

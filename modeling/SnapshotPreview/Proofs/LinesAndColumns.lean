import Mathlib.Data.List.SplitBy
import Mathlib.Data.List.TakeDrop
import Mathlib.Data.List.TakeWhile
import SnapshotPreview.Caret
import SnapshotPreview.Proofs.Text

/-!
# Lines and columns

A place in a text is named by the number of its line and its column within the line. Looking up the
line and the column of a place leads back to the place, from wherever a character stands behind it
and from the end of a line that has characters (`ofLineColumn_reaches_iff`). The line that begins
at the end of a text has no character and is not found.

Any line of the text can be looked up with any column, and the place found lies on that line
(`ofLineColumn_on_line`).
-/

namespace SnapshotPreview.Caret

open Text

/-! ## The line and the column of a place -/

/-- The line of the place behind some characters. -/
def lineOf (before : List Char) : Nat := before.count '\n' + 1

/-- The column of the place behind some characters. -/
def columnOf (before : List Char) : Nat := (before.reverse.takeWhile (· != '\n')).length + 1

/-- What stands before a place are whole lines and the characters before it on its own line. -/
theorem exists_lines (before : List Char) :
    ∃ lines front, before = terminated '\n' lines ++ front ∧ (∀ l ∈ lines, '\n' ∉ l) ∧
      '\n' ∉ front := by
  rcases List.eq_nil_or_concat (splitOn '\n' before) with none | ⟨lines, front, parted⟩
  · rw [splitOn_eq] at none
    exact absurd none (List.splitOn_ne_nil '\n' before)
  · rw [List.concat_eq_append] at parted
    have noFeed : ∀ part ∈ lines ++ [front], '\n' ∉ part := by
      intro part isPart
      rw [← parted] at isPart
      exact not_mem_of_mem_splitOn isPart
    refine ⟨lines, front, ?_, fun l isLine => noFeed l (List.mem_append_left _ isLine),
      noFeed front (by simp)⟩
    have whole : ['\n'].intercalate (splitOn '\n' before) = before := intercalate_splitOn before
    rw [parted, intercalate_append_cons] at whole
    simpa using whole.symm

section
variable {lines : List (List Char)} {front : List Char}

theorem lineOf_lines (noFeeds : ∀ l ∈ lines, '\n' ∉ l) (noFeed : '\n' ∉ front) :
    lineOf (terminated '\n' lines ++ front) = lines.length + 1 := by
  rw [lineOf, List.count_append, count_terminated noFeeds, List.count_eq_zero_of_not_mem noFeed]

theorem getLast?_terminated (lines : List (List Char)) :
    lines = [] ∨ (terminated '\n' lines).getLast? = some '\n' := by
  rcases List.eq_nil_or_concat lines with empty | ⟨others, last, rfl⟩
  · exact .inl empty
  · right
    rw [terminated, List.concat_eq_append, List.flatMap_append]
    simp

theorem columnOf_lines (lines : List (List Char)) (noFeed : '\n' ∉ front) :
    columnOf (terminated '\n' lines ++ front) = front.length + 1 := by
  have passed := forall_bne_of_not_mem (mt List.mem_reverse.mp noFeed)
  have stops : (terminated '\n' lines).reverse.takeWhile (· != '\n') = [] := by
    rcases getLast?_terminated lines with rfl | feed
    · rfl
    · obtain ⟨more, parts⟩ := List.getLast?_eq_some_iff.mp feed
      rw [parts]
      simp
  rw [columnOf, List.reverse_append, List.takeWhile_append_of_pos passed, stops, List.append_nil,
    List.length_reverse]

/-- A place has no character on its line: nothing stands behind it, and before it nothing or a line
feed. -/
def HasEmptyLine (before after : List Char) : Prop :=
  after = [] ∧ (before = [] ∨ before.getLast? = some '\n')

theorem hasEmptyLine_lines (lines : List (List Char)) (noFeed : '\n' ∉ front)
    (after : List Char) :
    HasEmptyLine (terminated '\n' lines ++ front) after ↔ front ++ after = [] := by
  constructor
  · rintro ⟨rfl, empty | feed⟩
    · rw [List.append_nil]
      exact (List.append_eq_nil_iff.mp empty).2
    · rw [List.append_nil]
      by_contra nonempty
      obtain ⟨more, last, rfl⟩ := List.eq_nil_or_concat front |>.resolve_left nonempty
      rw [List.concat_eq_append, ← List.append_assoc, List.getLast?_concat] at feed
      exact noFeed (by simp [Option.some.inj feed])
  · intro empty
    obtain ⟨rfl, rfl⟩ := List.append_eq_nil_iff.mp empty
    refine ⟨rfl, ?_⟩
    rw [List.append_nil]
    rcases getLast?_terminated lines with rfl | feed
    · exact .inl rfl
    · exact .inr feed

end

/-! ## Looking up a place -/

section
variable {content : List Char} (column : Nat)

theorem splitLine_append (noFeed : '\n' ∉ content) (rest : List Char) :
    splitLine (content ++ '\n' :: rest) = (content, '\n' :: rest) := by
  rw [splitLine, List.span_eq_takeWhile_dropWhile, takeWhile_bne_append noFeed,
    dropWhile_bne_append noFeed]

theorem offsetAt?_nil (line : Nat) : offsetAt? line column [] = none := by
  rw [offsetAt?]

theorem offsetAt?_zero {cs : List Char} (nonempty : cs ≠ []) :
    offsetAt? 0 column cs = some (byteLength ((cs.takeWhile (· != '\n')).take column)) := by
  obtain ⟨c, cs, rfl⟩ := List.exists_cons_of_ne_nil nonempty
  rw [offsetAt?, splitLine, List.span_eq_takeWhile_dropWhile]

theorem offsetAt?_succ (line : Nat) (noFeed : '\n' ∉ content) (rest : List Char) :
    offsetAt? (line + 1) column (content ++ '\n' :: rest) =
      (offsetAt? line column rest).map (byteLength (content ++ ['\n']) + ·) := by
  obtain ⟨c, cs, parts⟩ := List.exists_cons_of_ne_nil
    (List.append_ne_nil_of_right_ne_nil content (List.cons_ne_nil '\n' rest))
  rw [parts, offsetAt?, ← parts, splitLine_append noFeed, byteLength_append]
  rfl

/-- The lines before a line add their bytes. -/
theorem offsetAt?_lines {lines : List (List Char)} (noFeeds : ∀ l ∈ lines, '\n' ∉ l)
    (line : Nat) (rest : List Char) :
    offsetAt? (lines.length + line) column (terminated '\n' lines ++ rest) =
      (offsetAt? line column rest).map (byteLength (terminated '\n' lines) + ·) := by
  induction lines with
  | nil => cases found : offsetAt? line column rest <;> simp [terminated, byteLength, found]
  | cons l lines ih =>
    rw [List.forall_mem_cons] at noFeeds
    have cut : terminated '\n' (l :: lines) ++ rest =
        l ++ '\n' :: (terminated '\n' lines ++ rest) := by
      simp [terminated]
    have bytes : byteLength (terminated '\n' (l :: lines)) =
        byteLength (l ++ ['\n']) + byteLength (terminated '\n' lines) := by
      rw [terminated, List.flatMap_cons, byteLength_append]
      rfl
    rw [cut, List.length_cons, Nat.succ_add, offsetAt?_succ column _ noFeeds.1, ih noFeeds.2, bytes]
    cases offsetAt? line column rest with
    | none => rfl
    | some offset => simp only [Option.map_some, Nat.add_assoc]

end

/-! ## From a place to its line and column and back -/

/-- At a place without a line, that is at the beginning of a line without any character, nothing
is found. -/
theorem offsetAt?_place {lines : List (List Char)} (noFeeds : ∀ l ∈ lines, '\n' ∉ l)
    {front : List Char} (noFeed : '\n' ∉ front) (after : List Char) :
    offsetAt? lines.length front.length (terminated '\n' lines ++ front ++ after) =
      if front ++ after = [] then none else some (byteLength (terminated '\n' lines ++ front)) := by
  have found := offsetAt?_lines front.length noFeeds 0 (front ++ after)
  rw [List.append_assoc, ← Nat.add_zero lines.length, found]
  by_cases empty : front ++ after = []
  · rw [if_pos empty, empty, offsetAt?_nil]
    rfl
  · rw [if_neg empty, offsetAt?_zero _ empty,
      List.takeWhile_append_of_pos (forall_bne_of_not_mem noFeed), List.take_left,
      Option.map_some, byteLength_append]

section
variable {text : String} {before after : List Char} (parts : text.toList = before ++ after)
include parts

theorem ofLineColumn_of_line (hasLine : ¬ HasEmptyLine before after) :
    ofLineColumn text (lineOf before) (columnOf before) = .ok (byteLength before) := by
  obtain ⟨lines, front, rfl, noFeeds, noFeed⟩ := exists_lines before
  rw [hasEmptyLine_lines lines noFeed] at hasLine
  have found := offsetAt?_place noFeeds noFeed after
  rw [← parts, if_neg hasLine] at found
  rw [lineOf_lines noFeeds noFeed, columnOf_lines lines noFeed, ofLineColumn, found]

theorem ofLineColumn_of_emptyLine (noLine : HasEmptyLine before after) :
    ofLineColumn text (lineOf before) (columnOf before) =
      .error (.lineTooLarge (lineOf before)) := by
  obtain ⟨lines, front, rfl, noFeeds, noFeed⟩ := exists_lines before
  rw [hasEmptyLine_lines lines noFeed] at noLine
  have found := offsetAt?_place noFeeds noFeed after
  rw [← parts, if_pos noLine] at found
  rw [lineOf_lines noFeeds noFeed, columnOf_lines lines noFeed, ofLineColumn, found]

/-- The line and the column of a place lead back to its offset in bytes exactly if there is a
character on its line or behind it. Else the line is past the end of the text. -/
theorem ofLineColumn_reaches_iff :
    (ofLineColumn text (lineOf before) (columnOf before) = .ok (byteLength before) ↔
      ¬ HasEmptyLine before after) ∧
    (HasEmptyLine before after →
      ofLineColumn text (lineOf before) (columnOf before) =
        .error (.lineTooLarge (lineOf before))) := by
  refine ⟨⟨?_, ofLineColumn_of_line parts⟩, ofLineColumn_of_emptyLine parts⟩
  intro reaches noLine
  rw [ofLineColumn_of_emptyLine parts noLine] at reaches
  cases reaches

end

/-- A place on the second line, behind a letter of two bytes. -/
theorem ofLineColumn_reaches_secondLine :
    "a\nçb".toList = ['a', '\n', 'ç'] ++ ['b'] ∧ ofLineColumn "a\nçb" 2 2 = .ok 4 := by
  have parts : "a\nçb".toList = ['a', '\n', 'ç'] ++ ['b'] := rfl
  have hasLine : ¬ HasEmptyLine ['a', '\n', 'ç'] ['b'] := fun noLine => by cases noLine.1
  exact ⟨parts, (ofLineColumn_reaches_iff parts).1.mpr hasLine⟩

/-- Behind the line feed of a text of one line is a place on the second line, which is past the
end. -/
theorem ofLineColumn_lastFeed :
    "a\n".toList = ['a', '\n'] ++ [] ∧
      ofLineColumn "a\n" (lineOf ['a', '\n']) (columnOf ['a', '\n']) ≠
        .ok (byteLength ['a', '\n']) := by
  have past : ofLineColumn "a\n" (lineOf ['a', '\n']) (columnOf ['a', '\n']) =
      .error (.lineTooLarge 2) := rfl
  refine ⟨rfl, fun reaches => ?_⟩
  rw [past] at reaches
  cases reaches

/-! ## From a line and a column to a place -/

/-- The pieces of a text that is cut behind each line feed. -/
def pieces (cs : List Char) : List (List Char) := cs.splitBy fun c _ => c != '\n'

/-- A line without its line feed. -/
def lineContent (piece : List Char) : List Char := piece.takeWhile (· != '\n')

theorem isChain_of_dropLast {piece : List Char} (inner : '\n' ∉ piece.dropLast) :
    piece.IsChain fun c _ => (c != '\n') = true := by
  induction piece with
  | nil => exact .nil
  | cons c piece ih =>
    cases piece with
    | nil => exact .singleton c
    | cons d piece =>
      rw [List.dropLast_cons_cons, List.mem_cons, not_or] at inner
      exact .cons_cons (bne_iff_ne.mpr (Ne.symm inner.1)) (ih inner.2)

/-- The first line is the first piece. -/
theorem pieces_append {line : List Char} (noFeed : '\n' ∉ line) (rest : List Char) :
    pieces (line ++ '\n' :: rest) = (line ++ ['\n']) :: pieces rest := by
  have cut : line ++ '\n' :: rest = (line ++ ['\n']) ++ rest := by simp
  have apart : ∀ c ∈ (line ++ ['\n']).getLast?, ∀ d ∈ rest.head?, (c != '\n') = false := by simp
  have inner : '\n' ∉ (line ++ ['\n']).dropLast := by rwa [List.dropLast_concat]
  have single : (line ++ ['\n']).splitBy (fun c _ => c != '\n') = [line ++ ['\n']] :=
    List.splitBy_of_isChain (by simp) (isChain_of_dropLast inner)
  rw [pieces, cut, List.splitBy_append apart, single]
  rfl

theorem pieces_of_noFeed {line : List Char} (nonempty : line ≠ []) (noFeed : '\n' ∉ line) :
    pieces line = [line] :=
  List.splitBy_of_isChain nonempty
    (isChain_of_dropLast fun inner => noFeed (List.dropLast_subset line inner))

/-- A line that is there begins behind the lines before it, with some character. -/
theorem exists_lines_of_piece {cs piece : List Char} {line : Nat}
    (here : (pieces cs)[line]? = some piece) :
    ∃ lines rest, cs = terminated '\n' lines ++ rest ∧ (∀ l ∈ lines, '\n' ∉ l) ∧
      lines.length = line ∧ rest ≠ [] ∧ lineContent piece = rest.takeWhile (· != '\n') := by
  induction line generalizing cs with
  | zero =>
    have nonempty : cs ≠ [] := by
      rintro rfl
      cases here
    refine ⟨[], cs, rfl, by simp, rfl, nonempty, ?_⟩
    by_cases feed : '\n' ∈ cs
    · obtain ⟨first, rest, rfl, noFeed⟩ := List.eq_append_cons_of_mem feed
      rw [pieces_append noFeed, List.getElem?_cons_zero, Option.some.injEq] at here
      rw [← here, lineContent, takeWhile_bne_append noFeed, takeWhile_bne_append noFeed]
    · rw [pieces_of_noFeed nonempty feed, List.getElem?_cons_zero, Option.some.injEq] at here
      rw [← here, lineContent]
  | succ line ih =>
    by_cases feed : '\n' ∈ cs
    · obtain ⟨first, rest, rfl, noFeed⟩ := List.eq_append_cons_of_mem feed
      rw [pieces_append noFeed, List.getElem?_cons_succ] at here
      obtain ⟨lines, rest, rfl, noFeeds, count, nonempty, same⟩ := ih here
      refine ⟨first :: lines, rest, by simp [terminated], ?_, by simp [count], nonempty, same⟩
      exact List.forall_mem_cons.mpr ⟨noFeed, noFeeds⟩
    · cases cs with
      | nil => cases here
      | cons c cs =>
        rw [pieces_of_noFeed (List.cons_ne_nil c cs) feed] at here
        cases here

theorem offsetAt?_eq_none {cs : List Char} {line : Nat} (past : (pieces cs)[line]? = none)
    (column : Nat) : offsetAt? line column cs = none := by
  induction line generalizing cs with
  | zero =>
    have empty : cs = [] := by simpa [pieces] using past
    rw [empty, offsetAt?_nil]
  | succ line ih =>
    by_cases feed : '\n' ∈ cs
    · obtain ⟨first, rest, rfl, noFeed⟩ := List.eq_append_cons_of_mem feed
      rw [pieces_append noFeed, List.getElem?_cons_succ] at past
      rw [offsetAt?_succ column line noFeed, ih past, Option.map_none]
    · cases cs with
      | nil => rw [offsetAt?_nil]
      | cons c cs =>
        rw [offsetAt?, splitLine, List.span_eq_takeWhile_dropWhile,
          List.dropWhile_eq_nil_iff.mpr (forall_bne_of_not_mem feed)]

/-- On a line that is there, every column leads to a place. -/
theorem exists_place_of_piece {cs piece : List Char} {line : Nat}
    (here : (pieces cs)[line]? = some piece) (column : Nat) :
    ∃ before after, cs = before ++ after ∧ offsetAt? line column cs = some (byteLength before) ∧
      lineOf before = line + 1 ∧ columnOf before = min column (lineContent piece).length + 1 := by
  obtain ⟨lines, rest, rfl, noFeeds, rfl, nonempty, same⟩ := exists_lines_of_piece here
  have noFeed : '\n' ∉ (lineContent piece).take column := by
    rw [same]
    intro isIn
    simpa using List.mem_takeWhile_imp (List.mem_of_mem_take isIn)
  have isFront : (lineContent piece).take column <+: rest := by
    rw [same]
    exact (List.take_prefix _ _).trans (List.takeWhile_prefix _)
  obtain ⟨after, parts⟩ := isFront
  refine ⟨terminated '\n' lines ++ (lineContent piece).take column, after, ?_, ?_, ?_, ?_⟩
  · rw [List.append_assoc, parts]
  · have found := offsetAt?_lines column noFeeds 0 rest
    rw [Nat.add_zero] at found
    rw [found, offsetAt?_zero _ nonempty, Option.map_some, byteLength_append, same]
  · rw [lineOf_lines noFeeds noFeed]
  · rw [columnOf_lines lines noFeed, List.length_take]

section
variable {text : String} {line column : Nat} (fromOne : 1 ≤ line ∧ 1 ≤ column)
include fromOne

/-- A line and a column have no place exactly if the text has fewer lines. Else they lead to a place
between two characters that lies on the line: at the column, or at the end of the line if it is
shorter. -/
theorem ofLineColumn_on_line :
    ((∃ e, ofLineColumn text line column = .error e) ↔ (pieces text.toList).length < line) ∧
    ∀ piece, (pieces text.toList)[line - 1]? = some piece →
      ∃ before after, text.toList = before ++ after ∧
        ofLineColumn text line column = .ok (byteLength before) ∧
        lineOf before = line ∧ columnOf before = min column ((lineContent piece).length + 1) := by
  obtain ⟨line, rfl⟩ := Nat.exists_eq_add_of_le' fromOne.1
  obtain ⟨column, rfl⟩ := Nat.exists_eq_add_of_le' fromOne.2
  rw [Nat.add_sub_cancel]
  cases found : (pieces text.toList)[line]? with
  | none =>
    have past : (pieces text.toList).length ≤ line := List.getElem?_eq_none_iff.mp found
    have refused : ofLineColumn text (line + 1) (column + 1) =
        .error (.lineTooLarge (line + 1)) := by
      rw [ofLineColumn, offsetAt?_eq_none found]
    exact ⟨iff_of_true ⟨_, refused⟩ (by omega), nofun⟩
  | some piece =>
    obtain ⟨before, after, parts, offset, onLine, atColumn⟩ := exists_place_of_piece found column
    have accepted : ofLineColumn text (line + 1) (column + 1) = .ok (byteLength before) := by
      rw [ofLineColumn, offset]
    have within : line < (pieces text.toList).length := List.getElem?_eq_some_iff.mp found |>.1
    refine ⟨iff_of_false ?_ (by omega), ?_⟩
    · rintro ⟨e, refused⟩
      rw [accepted] at refused
      cases refused
    · rintro _ ⟨rfl⟩
      exact ⟨before, after, parts, accepted, onLine, by omega⟩

end

/-- Behind the end of the second line, which has two characters and three bytes. -/
theorem ofLineColumn_on_secondLine :
    (1 ≤ 2 ∧ 1 ≤ 9) ∧ (pieces "ab\nçd\n\nlast".toList)[1]? = some "çd\n".toList ∧
      ∃ before after, "ab\nçd\n\nlast".toList = before ++ after ∧
        ofLineColumn "ab\nçd\n\nlast" 2 9 = .ok (byteLength before) ∧
        lineOf before = 2 ∧ columnOf before = 3 := by
  have fromOne : 1 ≤ 2 ∧ 1 ≤ 9 := by decide
  have second : (pieces "ab\nçd\n\nlast".toList)[1]? = some "çd\n".toList := rfl
  exact ⟨fromOne, second, (ofLineColumn_on_line fromOne).2 _ second⟩

end SnapshotPreview.Caret

import SnapshotPreview.Proofs.Text
import SnapshotPreview.Update

/-!
# Filled templates

A command is its template in which the first mark of the target and the first mark of the file have
been replaced, both at once: what becomes of a character hangs on its place in the template alone
(`written`), and never on what is filled in. One pass over the template that keeps in two flags which
of the marks it has not met does that (`fill_drop`), and splicing the values in at the marks that were
found, in the order of their places, writes the same (`splice_eq_fill`).
-/

namespace SnapshotPreview.Update

/-! ## Marks -/

/-- A mark stands at a position of a text, and nowhere before it. -/
def IsFirstAt (mark cs : List Char) (i : Nat) : Prop :=
  mark <+: cs.drop i ∧ ∀ j < i, ¬ mark <+: cs.drop j

instance (mark cs : List Char) (i : Nat) : Decidable (IsFirstAt mark cs i) :=
  inferInstanceAs (Decidable (_ ∧ _))

/-- The first mark of the target or of the file stands at a position. -/
def IsReplaced (template : List Char) (i : Nat) : Prop :=
  IsFirstAt targetMark template i ∨ IsFirstAt fileMark template i

instance (template : List Char) (i : Nat) : Decidable (IsReplaced template i) :=
  inferInstanceAs (Decidable (_ ∨ _))

/-- What stands in the command for a character of the template: the values at the first
characters of the two marks, nothing for their second ones, and any other character itself. -/
def written (template target file : List Char) : Char × Nat → List Char
  | (c, i) =>
    if IsFirstAt targetMark template i then target
    else if IsFirstAt fileMark template i then file
    else if 0 < i ∧ IsReplaced template (i - 1) then []
    else [c]

/-- What stands in the command for the template from a position on. -/
def writtenFrom (template target file : List Char) (i : Nat) : List Char :=
  ((template.drop i).zipIdx i).flatMap (written template target file)

/-- The template with both marks replaced at once. -/
def filled (template target file : List Char) : List Char :=
  template.zipIdx.flatMap (written template target file)

/-- Whether a mark has not been met before a position. -/
def wants (mark cs : List Char) (i : Nat) : Bool := decide (∀ j < i, ¬ mark <+: cs.drop j)

section
variable {mark cs : List Char} {i : Nat}

theorem isFirstAt_iff : IsFirstAt mark cs i ↔ wants mark cs i ∧ mark <+: cs.drop i := by
  rw [IsFirstAt, wants, decide_eq_true_iff, and_comm]

theorem wants_zero (mark cs : List Char) : wants mark cs 0 = true :=
  decide_eq_true fun j before => absurd before (Nat.not_lt_zero j)

/-- A mark that is met is wanted no more, and nothing else changes what is wanted. -/
theorem wants_succ :
    wants mark cs (i + 1) = (wants mark cs i && !decide (mark <+: cs.drop i)) := by
  rw [Bool.eq_iff_iff]
  simp only [wants, decide_eq_true_iff, Bool.and_eq_true, Bool.not_eq_true', decide_eq_false_iff_not]
  constructor
  · intro absent
    exact ⟨fun j before => absent j (by omega), absent i (by omega)⟩
  · rintro ⟨absent, here⟩ j before
    by_cases last : j = i
    · rw [last]
      exact here
    · exact absent j (by omega)

theorem wants_succ_of_not_isFirstAt (notFirst : ¬ IsFirstAt mark cs i) :
    wants mark cs (i + 1) = wants mark cs i := by
  rw [isFirstAt_iff] at notFirst
  rw [wants_succ]
  by_cases wanted : wants mark cs i
  · have absent : ¬ mark <+: cs.drop i := fun here => notFirst ⟨wanted, here⟩
    simp [wanted, absent]
  · simp [wanted]

theorem wants_succ_of_isFirstAt (first : IsFirstAt mark cs i) : wants mark cs (i + 1) = false := by
  rw [wants_succ]
  simp [(isFirstAt_iff.mp first).2]

end

section
variable {template : List Char} {i : Nat} {digit other : Char}

theorem exists_of_isFirstAt (first : IsFirstAt ['$', digit] template i) :
    ∃ rest, template.drop i = '$' :: digit :: rest ∧ template.drop (i + 1) = digit :: rest ∧
      template.drop (i + 2) = rest := by
  obtain ⟨rest, parts⟩ := first.1
  have here : template.drop i = '$' :: digit :: rest := parts.symm
  refine ⟨rest, here, ?_, ?_⟩
  · rw [← List.drop_drop, here]
    rfl
  · rw [← List.drop_drop, here]
    rfl

/-- No mark begins within another. -/
theorem not_isFirstAt_succ (notDollar : digit ≠ '$') (first : IsFirstAt ['$', digit] template i) :
    ¬ IsFirstAt ['$', other] template (i + 1) := by
  obtain ⟨rest, -, within, -⟩ := exists_of_isFirstAt first
  rintro ⟨⟨more, parts⟩, -⟩
  rw [within, List.cons_append, List.cons.injEq] at parts
  exact notDollar parts.1.symm

/-- Two marks do not stand at one place. -/
theorem not_isFirstAt_of_isFirstAt (differs : other ≠ digit)
    (first : IsFirstAt ['$', digit] template i) : ¬ IsFirstAt ['$', other] template i := by
  obtain ⟨rest, here, -, -⟩ := exists_of_isFirstAt first
  rintro ⟨⟨more, parts⟩, -⟩
  rw [here] at parts
  cases parts
  exact differs rfl

end

/-! ## One pass over a template -/

/-- Fills a template from left to right. The first `$1` becomes the target and the first `$2` the
file, unless they have been written before; what is filled in is not looked at again. -/
def fill (target file : List Char) : Bool → Bool → List Char → List Char
  | wantTarget, wantFile, '$' :: c :: rest =>
    if wantTarget && c == '1' then target ++ fill target file false wantFile rest
    else if wantFile && c == '2' then file ++ fill target file wantTarget false rest
    else '$' :: fill target file wantTarget wantFile (c :: rest)
  | wantTarget, wantFile, c :: rest => c :: fill target file wantTarget wantFile rest
  | _, _, [] => []
termination_by _ _ cs => cs.length

section
variable (target file : List Char) (wantTarget wantFile : Bool)

theorem fill_target (rest : List Char) :
    fill target file true wantFile ('$' :: '1' :: rest) =
      target ++ fill target file false wantFile rest := by
  rw [fill]
  rfl

theorem fill_file (rest : List Char) :
    fill target file wantTarget true ('$' :: '2' :: rest) =
      file ++ fill target file wantTarget false rest := by
  rw [fill]
  simp

theorem fill_cons {c : Char} {rest : List Char}
    (noTarget : ¬ (wantTarget ∧ targetMark <+: c :: rest))
    (noFile : ¬ (wantFile ∧ fileMark <+: c :: rest)) :
    fill target file wantTarget wantFile (c :: rest) =
      c :: fill target file wantTarget wantFile rest := by
  by_cases dollar : c = '$'
  · subst dollar
    cases rest with
    | nil => simp [fill]
    | cons d rest =>
      have isTarget : targetMark <+: '$' :: d :: rest ↔ d = '1' := by simp [targetMark, eq_comm]
      have isFile : fileMark <+: '$' :: d :: rest ↔ d = '2' := by simp [fileMark, eq_comm]
      rw [isTarget] at noTarget
      rw [isFile] at noFile
      rw [fill]
      simp [noTarget, noFile]
  · rw [fill]
    simp [dollar]

end

section
variable {template : List Char} (target file : List Char) {i : Nat}

/-- A mark that is replaced stands as its value. -/
theorem writtenFrom_mark {digit : Char} {value : List Char} (notDollar : digit ≠ '$')
    (first : IsFirstAt ['$', digit] template i) (replaced : IsReplaced template i)
    (isValue : written template target file ('$', i) = value) :
    writtenFrom template target file i = value ++ writtenFrom template target file (i + 2) := by
  obtain ⟨rest, here, -, behind⟩ := exists_of_isFirstAt first
  have noTarget : ¬ IsFirstAt targetMark template (i + 1) := not_isFirstAt_succ notDollar first
  have noFile : ¬ IsFirstAt fileMark template (i + 1) := not_isFirstAt_succ notDollar first
  have second : written template target file (digit, i + 1) = [] := by
    rw [written, if_neg noTarget, if_neg noFile, if_pos ⟨Nat.succ_pos i, replaced⟩]
  unfold writtenFrom
  rw [behind, here, List.zipIdx_cons, List.zipIdx_cons, List.flatMap_cons, List.flatMap_cons,
    isValue, second, List.nil_append]

theorem writtenFrom_self {c : Char} {rest : List Char} (here : template.drop i = c :: rest)
    (kept : ¬ IsReplaced template i) (apart : ¬ (0 < i ∧ IsReplaced template (i - 1))) :
    writtenFrom template target file i = c :: writtenFrom template target file (i + 1) := by
  have behind : template.drop (i + 1) = rest := by
    rw [← List.drop_drop, here]
    rfl
  have self : written template target file (c, i) = [c] := by
    rw [IsReplaced, not_or] at kept
    rw [written, if_neg kept.1, if_neg kept.2, if_neg apart]
  unfold writtenFrom
  rw [behind, here, List.zipIdx_cons, List.flatMap_cons, self]
  rfl

/-- Behind a mark that is replaced, this mark is wanted no more and another one as before. -/
theorem wants_behind {digit : Char} (other : Char) (notDollar : digit ≠ '$')
    (differs : other ≠ digit) (first : IsFirstAt ['$', digit] template i) :
    wants ['$', digit] template (i + 2) = false ∧
      wants ['$', other] template (i + 2) = wants ['$', other] template i := by
  have noneAt := not_isFirstAt_of_isFirstAt differs first
  have noneWithin (d : Char) : ¬ IsFirstAt ['$', d] template (i + 1) :=
    not_isFirstAt_succ notDollar first
  constructor
  · rw [wants_succ_of_not_isFirstAt (noneWithin digit), wants_succ_of_isFirstAt first]
  · rw [wants_succ_of_not_isFirstAt (noneWithin other), wants_succ_of_not_isFirstAt noneAt]

/-! ### One step of the pass -/

/-- At the first mark of the target, the target is written and the mark passed over. -/
theorem fill_at_target (isTarget : IsFirstAt targetMark template i) :
    fill target file (wants targetMark template i) (wants fileMark template i) (template.drop i) =
      target ++ fill target file (wants targetMark template (i + 2)) (wants fileMark template (i + 2))
        (template.drop (i + 2)) := by
  obtain ⟨rest, here, -, behind⟩ := exists_of_isFirstAt isTarget
  obtain ⟨met, same⟩ := wants_behind '2' (by decide) (by decide) isTarget
  have wanted := (isFirstAt_iff.mp isTarget).1
  rw [targetMark] at wanted ⊢
  rw [fileMark, met, same, wanted, here, behind, fill_target]

/-- At the first mark of the file, the file is written and the mark passed over. -/
theorem fill_at_file (isFile : IsFirstAt fileMark template i) :
    fill target file (wants targetMark template i) (wants fileMark template i) (template.drop i) =
      file ++ fill target file (wants targetMark template (i + 2)) (wants fileMark template (i + 2))
        (template.drop (i + 2)) := by
  obtain ⟨rest, here, -, behind⟩ := exists_of_isFirstAt isFile
  obtain ⟨met, same⟩ := wants_behind '1' (by decide) (by decide) isFile
  have wanted := (isFirstAt_iff.mp isFile).1
  rw [fileMark] at wanted ⊢
  rw [targetMark, met, same, wanted, here, behind, fill_file]

/-- Anywhere else, the character is kept. -/
theorem fill_at_other {c : Char} {rest : List Char} (here : template.drop i = c :: rest)
    (kept : ¬ IsReplaced template i) :
    fill target file (wants targetMark template i) (wants fileMark template i) (template.drop i) =
      c :: fill target file (wants targetMark template (i + 1)) (wants fileMark template (i + 1))
        (template.drop (i + 1)) := by
  obtain ⟨noTarget, noFile⟩ := not_or.mp kept
  rw [wants_succ_of_not_isFirstAt noTarget, wants_succ_of_not_isFirstAt noFile, ← List.drop_drop,
    here]
  rw [isFirstAt_iff, here] at noTarget noFile
  exact fill_cons target file _ _ noTarget noFile

/-! ### The whole pass -/

theorem apart_behind {digit : Char} (notDollar : digit ≠ '$')
    (first : IsFirstAt ['$', digit] template i) :
    ¬ (0 < i + 2 ∧ IsReplaced template (i + 2 - 1)) := by
  rintro ⟨-, isTarget | isFile⟩
  · exact not_isFirstAt_succ notDollar first isTarget
  · exact not_isFirstAt_succ notDollar first isFile

/-- From a position that is not within a mark that is replaced, the pass writes what stands in the
command for the rest of the template. -/
theorem fill_drop (template target file : List Char) (i : Nat)
    (apart : ¬ (0 < i ∧ IsReplaced template (i - 1))) :
    fill target file (wants targetMark template i) (wants fileMark template i) (template.drop i) =
      writtenFrom template target file i := by
  cases here : template.drop i with
  | nil => simp [fill, writtenFrom, here]
  | cons c rest =>
    have inside : i < template.length := by
      have length := congrArg List.length here
      rw [List.length_drop, List.length_cons] at length
      omega
    rw [← here]
    by_cases isTarget : IsFirstAt targetMark template i
    · have later := fill_drop template target file (i + 2) (apart_behind (by decide) isTarget)
      rw [fill_at_target target file isTarget, later]
      exact (writtenFrom_mark target file (by decide) isTarget (.inl isTarget)
        (if_pos isTarget)).symm
    · by_cases isFile : IsFirstAt fileMark template i
      · have later := fill_drop template target file (i + 2) (apart_behind (by decide) isFile)
        rw [fill_at_file target file isFile, later]
        exact (writtenFrom_mark target file (by decide) isFile (.inr isFile)
          ((if_neg isTarget).trans (if_pos isFile))).symm
      · have kept : ¬ IsReplaced template i := not_or.mpr ⟨isTarget, isFile⟩
        have later := fill_drop template target file (i + 1) fun replaced => kept replaced.2
        rw [fill_at_other target file here kept, later]
        exact (writtenFrom_self target file here kept apart).symm
termination_by template.length - i

theorem fill_eq_filled (template : List Char) :
    fill target file true true template = filled template target file := by
  have whole := fill_drop template target file 0 (by simp)
  rwa [wants_zero, wants_zero] at whole

end

/-! ## Splicing at the marks that were found -/

section
variable {template target file : List Char}

theorem mem_hits_iff {substitutions : List (List Char × List Char)} {hit : Hit} :
    hit ∈ hits template substitutions ↔
      (hit.mark, hit.value) ∈ substitutions ∧ IsFirstAt hit.mark template hit.position := by
  simp only [hits, List.mem_filterMap, Option.map_eq_some_iff, Text.find?_eq_some_iff, IsFirstAt]
  constructor
  · rintro ⟨⟨mark, value⟩, given, position, found, rfl⟩
    exact ⟨given, found⟩
  · rintro ⟨given, found⟩
    exact ⟨(hit.mark, hit.value), given, hit.position, found, rfl⟩

/-- From one position to another, where no mark is replaced in between, the pass keeps what stands
there. -/
theorem fill_kept (template target file : List Char) {i : Nat} (n : Nat)
    (inside : i + n ≤ template.length) (kept : ∀ k, i ≤ k → k < i + n → ¬ IsReplaced template k) :
    fill target file (wants targetMark template i) (wants fileMark template i) (template.drop i) =
      (template.drop i).take n ++
        fill target file (wants targetMark template (i + n)) (wants fileMark template (i + n))
          (template.drop (i + n)) := by
  induction n generalizing i with
  | zero => rfl
  | succ n ih =>
    have here := List.drop_eq_getElem_cons (show i < template.length by omega)
    have later := ih (i := i + 1) (by omega) fun k low high => kept k (by omega) (by omega)
    rw [fill_at_other target file here (kept i (Nat.le_refl i) (by omega)), later, here,
      List.take_succ_cons, Nat.add_right_comm]
    rfl

/-- A mark that is to be replaced, with the value that is written for it. -/
structure Hit.Fits (template target file : List Char) (hit : Hit) : Prop where
  first : IsFirstAt hit.mark template hit.position
  value : hit.mark = targetMark ∧ hit.value = target ∨ hit.mark = fileMark ∧ hit.value = file

section
variable {hit : Hit} (fits : hit.Fits template target file)
include fits

theorem Hit.Fits.width : hit.mark.length = 2 := by
  rcases fits.value with ⟨isMark, -⟩ | ⟨isMark, -⟩
  · rw [isMark]; rfl
  · rw [isMark]; rfl

theorem Hit.Fits.inside : hit.position + hit.mark.length ≤ template.length := by
  have bound := fits.first.1.length_le
  have width := fits.width
  rw [List.length_drop] at bound
  omega

/-- No mark begins within the mark of a hit. -/
theorem Hit.Fits.apart : ¬ IsReplaced template (hit.position + 1) := by
  obtain ⟨first, ⟨isMark, -⟩ | ⟨isMark, -⟩⟩ := fits
  · rw [isMark] at first
    exact not_or.mpr ⟨not_isFirstAt_succ (by decide) first, not_isFirstAt_succ (by decide) first⟩
  · rw [isMark] at first
    exact not_or.mpr ⟨not_isFirstAt_succ (by decide) first, not_isFirstAt_succ (by decide) first⟩

theorem Hit.Fits.isReplaced : IsReplaced template hit.position := by
  obtain ⟨first, ⟨isMark, -⟩ | ⟨isMark, -⟩⟩ := fits
  · exact .inl (isMark ▸ first)
  · exact .inr (isMark ▸ first)

theorem fill_at_hit :
    fill target file (wants targetMark template hit.position) (wants fileMark template hit.position)
        (template.drop hit.position) =
      hit.value ++ fill target file (wants targetMark template (hit.position + hit.mark.length))
        (wants fileMark template (hit.position + hit.mark.length))
        (template.drop (hit.position + hit.mark.length)) := by
  rw [fits.width]
  obtain ⟨first, ⟨isMark, isValue⟩ | ⟨isMark, isValue⟩⟩ := fits
  · rw [isMark] at first
    rw [isValue]
    exact fill_at_target target file first
  · rw [isMark] at first
    rw [isValue]
    exact fill_at_file target file first

end

/-- The marks that are to be replaced from a position on, in the order of their places. -/
structure Covers (template target file : List Char) (last : Nat) (found : List Hit) : Prop where
  fits : ∀ hit ∈ found, hit.Fits template target file
  behind : ∀ hit ∈ found, last ≤ hit.position
  ordered : found.Pairwise fun hit later => hit.position < later.position
  complete : ∀ i, last ≤ i → IsReplaced template i → ∃ hit ∈ found, hit.position = i

theorem Covers.none {last : Nat} (covers : Covers template target file last []) {k : Nat}
    (low : last ≤ k) : ¬ IsReplaced template k := by
  intro replaced
  obtain ⟨hit, isIn, -⟩ := covers.complete k low replaced
  exact List.not_mem_nil isIn

section
variable {last : Nat} {hit : Hit} {rest : List Hit}
  (covers : Covers template target file last (hit :: rest))
include covers

/-- No mark is replaced before the first one. -/
theorem Covers.kept {k : Nat} (low : last ≤ k) (high : k < hit.position) :
    ¬ IsReplaced template k := by
  intro replaced
  obtain ⟨other, isIn, rfl⟩ := covers.complete k low replaced
  rcases List.mem_cons.mp isIn with rfl | isIn
  · exact Nat.lt_irrefl _ high
  · exact Nat.lt_asymm high ((List.pairwise_cons.mp covers.ordered).1 other isIn)

/-- Behind the first mark the others are left, as none begins within it. -/
theorem Covers.tail : Covers template target file (hit.position + hit.mark.length) rest where
  fits other isIn := covers.fits other (List.mem_cons_of_mem hit isIn)
  behind other isIn := by
    have order := (List.pairwise_cons.mp covers.ordered).1 other isIn
    have here := covers.fits hit List.mem_cons_self
    have apart : other.position ≠ hit.position + 1 := fun same =>
      here.apart (same ▸ (covers.fits other (List.mem_cons_of_mem hit isIn)).isReplaced)
    have width := here.width
    omega
  ordered := (List.pairwise_cons.mp covers.ordered).2
  complete i low replaced := by
    have width := (covers.fits hit List.mem_cons_self).width
    have before := covers.behind hit List.mem_cons_self
    obtain ⟨other, isIn, rfl⟩ := covers.complete i (by omega) replaced
    rcases List.mem_cons.mp isIn with rfl | isIn
    · omega
    · exact ⟨other, isIn, rfl⟩

end

/-- Splicing at the marks that are to be replaced from a position on writes what the pass writes from
there. No hit is left out. -/
theorem splice_eq_fill {found : List Hit} {last : Nat} (bound : last ≤ template.length)
    (covers : Covers template target file last found) :
    splice template last found =
      fill target file (wants targetMark template last) (wants fileMark template last)
        (template.drop last) := by
  induction found generalizing last with
  | nil =>
    have whole := fill_kept template target file (template.length - last) (by omega)
      fun k low _ => covers.none low
    have upTo : last + (template.length - last) = template.length := by omega
    rw [upTo, List.drop_length, fill, List.append_nil,
      List.take_of_length_le (Nat.le_of_eq List.length_drop)] at whole
    exact whole.symm
  | cons hit rest ih =>
    have here := covers.fits hit List.mem_cons_self
    have low := covers.behind hit List.mem_cons_self
    have inside := here.inside
    have upTo : last + (hit.position - last) = hit.position := by omega
    have stretch := fill_kept template target file (hit.position - last) (by omega)
      fun k low high => covers.kept low (by omega)
    rw [upTo, fill_at_hit here, ← ih inside covers.tail] at stretch
    rw [splice, if_neg (by omega), stretch]

theorem comesFirst_trans (first second third : Hit) (before : first.comesFirst second = true)
    (after : second.comesFirst third = true) : first.comesFirst third = true := by
  simp only [Hit.comesFirst, decide_eq_true_iff] at *
  omega

theorem comesFirst_total (first second : Hit) :
    (first.comesFirst second || second.comesFirst first) = true := by
  simp only [Hit.comesFirst, Bool.or_eq_true, decide_eq_true_iff]
  omega

/-- The marks are found at different places, so the hits have one order. -/
theorem ordered_hits (template target file : List Char) :
    ((hits template [(targetMark, target), (fileMark, file)]).mergeSort Hit.comesFirst).Pairwise
      fun hit later => hit.position < later.position := by
  have apart : (hits template [(targetMark, target), (fileMark, file)]).Pairwise
      fun hit later => hit.position ≠ later.position := by
    rw [hits, List.pairwise_filterMap, List.pairwise_pair]
    intro hit isTarget later isFile same
    obtain ⟨i, foundTarget, rfl⟩ := Option.map_eq_some_iff.mp isTarget
    obtain ⟨j, foundFile, rfl⟩ := Option.map_eq_some_iff.mp isFile
    cases same
    exact not_isFirstAt_of_isFirstAt (by decide) (Text.find?_eq_some_iff.mp foundTarget)
      (Text.find?_eq_some_iff.mp foundFile)
  have distinct := (List.mergeSort_perm _ Hit.comesFirst).symm.pairwise apart Ne.symm
  have sorted := List.pairwise_mergeSort comesFirst_trans comesFirst_total
    (hits template [(targetMark, target), (fileMark, file)])
  refine (sorted.and distinct).imp fun {hit later} both => ?_
  exact Nat.lt_of_le_of_ne (decide_eq_true_iff.mp both.1) both.2

theorem covers_hits (template target file : List Char) :
    Covers template target file 0
      ((hits template [(targetMark, target), (fileMark, file)]).mergeSort Hit.comesFirst) := by
  have found {hit : Hit} : hit ∈ (hits template [(targetMark, target), (fileMark, file)]).mergeSort
      Hit.comesFirst ↔ hit.Fits template target file := by
    rw [List.mem_mergeSort, mem_hits_iff]
    simp only [List.mem_cons, List.not_mem_nil, or_false, Prod.mk.injEq]
    exact ⟨fun both => ⟨both.2, both.1⟩, fun fits => ⟨fits.value, fits.first⟩⟩
  refine ⟨fun hit isIn => found.mp isIn, fun hit _ => Nat.zero_le hit.position,
    ordered_hits template target file, ?_⟩
  rintro i - (isTarget | isFile)
  · exact ⟨⟨i, targetMark, target⟩, found.mpr ⟨isTarget, .inl ⟨rfl, rfl⟩⟩, rfl⟩
  · exact ⟨⟨i, fileMark, file⟩, found.mpr ⟨isFile, .inr ⟨rfl, rfl⟩⟩, rfl⟩

/-- Finding the marks, sorting them by their places and splicing the values in comes to one pass over
the template. -/
theorem substituteFirst_eq_fill (template target file : List Char) :
    substituteFirst template [(targetMark, target), (fileMark, file)] =
      fill target file true true template := by
  have whole := splice_eq_fill (Nat.zero_le template.length) (covers_hits template target file)
  rwa [wants_zero, wants_zero] at whole

end

/-- The command for a template that is not blank and a place that has a target is the template in
which the first mark of the target and the first mark of the file are replaced at once. -/
theorem command_eq_filled {template target : String} {scope : UpdateScope} {l : Location}
    (file : String) (visible : ∃ c ∈ template.toList, ¬ Text.isBlank c)
    (named : Update.target scope l = .ok target) :
    command (some template) scope l file =
      .ok (String.ofList (filled template.toList target.toList file.toList)) := by
  have notBlank : ¬ template.toList.all Text.isBlank := by
    obtain ⟨c, isIn, visible⟩ := visible
    intro blank
    exact visible (List.all_eq_true.mp blank c isIn)
  unfold command
  dsimp only
  rw [if_neg notBlank, named, ← fill_eq_filled, ← substituteFirst_eq_fill]
  rfl

/-- A test whose name holds a mark. -/
def priced : Location := ⟨some "costs $2", ["Shop"], ["costs $2"]⟩

/-- The mark in the name of the test stays, and so does the second mark of the template. -/
theorem command_of_priced :
    target .test priced = .ok "Shop costs $2" ∧
      command (some "$2: $$1 ($1)") .test priced "a$1.js" = .ok "a$1.js: $Shop costs $2 ($1)" := by
  have visible : ∃ c ∈ "$2: $$1 ($1)".toList, ¬ Text.isBlank c := ⟨'$', by decide, by decide⟩
  have named : target .test priced = .ok "Shop costs $2" := rfl
  have whole : filled "$2: $$1 ($1)".toList "Shop costs $2".toList "a$1.js".toList =
      "a$1.js: $Shop costs $2 ($1)".toList := by decide
  refine ⟨named, ?_⟩
  rw [command_eq_filled "a$1.js" visible named, whole, String.ofList_toList]

end SnapshotPreview.Update

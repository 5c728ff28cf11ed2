import SnapshotPreview.Artifacts
import SnapshotPreview.Proofs.Text

/-!
# The paths of artifacts

The snapshots and the page of a test file stand in one directory, which is the parent of the page
(`parent?_page`). The paths of snapshots and styles end with a name of their own, which is never the
name of the page.
-/

namespace SnapshotPreview

namespace Path

theorem trimIdle_suffix (segments : List (List Char)) : trimIdle segments <:+ segments := by
  fun_induction trimIdle segments with
  | case1 s t rest _ ih => exact ih.trans (List.suffix_cons s (t :: rest))
  | case2 s t rest _ => exact List.suffix_refl _
  | case3 segments => exact List.suffix_refl _

theorem trimIdle_of_not_isIdle {name : List Char} (named : isIdle name = false)
    (before : List (List Char)) : trimIdle (name :: before) = name :: before := by
  cases before with
  | nil => rfl
  | cons t rest => simp [trimIdle, named]

theorem slash_not_mem_of_fileName? {path name : String} (named : fileName? path = some name) :
    '/' ∉ name.toList := by
  unfold fileName? at named
  split at named
  · rename_i s rest segments
    split at named
    · cases named
    · cases named
      have isSegment : s ∈ (Text.splitOn '/' path.toList).reverse :=
        (trimIdle_suffix _).subset (by rw [← segmentsBack, segments]; exact List.mem_cons_self)
      rw [String.toList_ofList]
      exact Text.not_mem_of_mem_splitOn (List.mem_reverse.mp isSegment)
  · cases named

/-- A joined path is the name behind nothing, or behind something that ends with a slash. -/
theorem exists_toList_join (directory name : String) :
    ∃ before, (join directory name).toList = before ++ name.toList ∧
      (before = [] ∨ ∃ front, before = front ++ ['/']) := by
  unfold join
  split
  · exact ⟨[], rfl, .inl rfl⟩
  · split
    · rename_i slash
      rw [← String.endsWith_toSlice, String.Slice.endsWith_string_iff] at slash
      obtain ⟨front, ends⟩ := slash
      refine ⟨directory.toList, String.toList_append, .inr ⟨front, ?_⟩⟩
      simpa using ends.symm
    · exact ⟨directory.toList ++ ['/'], by simp, .inr ⟨_, rfl⟩⟩

/-- A path within a directory whose own name does not end with a slash. -/
theorem toList_join {directory name : String} {front last : List Char}
    (ends : directory.toList = front ++ last) (named : last ≠ []) (noSlash : '/' ∉ last)
    (relative : name.toList.head? ≠ some '/') :
    (join directory name).toList = directory.toList ++ '/' :: name.toList := by
  have noRoot : name.startsWith "/" = false := by
    rw [String.startsWith_string_eq_false_iff]
    rintro ⟨rest, begins⟩
    rw [← begins] at relative
    exact relative rfl
  have notEmpty : directory.isEmpty = false := by
    rw [Bool.eq_false_iff, ne_eq, String.isEmpty_iff]
    rintro rfl
    simp [named] at ends
  have open_ : directory.endsWith "/" = false := by
    rw [← String.endsWith_toSlice, String.Slice.endsWith_string_eq_false_iff]
    rintro ⟨before, slash⟩
    have isLast : (before ++ ['/']).getLast? = last.getLast? := by
      rw [show before ++ ['/'] = directory.toList by simpa using slash, ends]
      obtain ⟨start, c, rfl⟩ := (List.eq_nil_or_concat last).resolve_left named
      simp
    rw [List.getLast?_concat] at isLast
    exact noSlash (List.mem_of_getLast? isLast.symm)
  simp [join, noRoot, notEmpty, open_]

end Path

namespace Artifacts

theorem stripTags_subset (cs : List Char) : stripTags cs ⊆ cs := by
  fun_induction stripTags cs with
  | case1 => exact List.Subset.refl _
  | case2 c rest tail isTag =>
    rename_i ih
    exact fun x isIn => List.mem_cons_of_mem c ((List.dropWhile_sublist _).subset (ih isIn))
  | case3 c rest tail noTag =>
    rename_i ih
    exact List.cons_subset_cons c ih

/-- The name of a test file without its variant tags. -/
def baseName (source : String) : String := stripVariantTags ((Path.fileName? source).getD "")

theorem slash_not_mem_baseName (source : String) : '/' ∉ (baseName source).toList := by
  unfold baseName stripVariantTags
  rw [String.toList_ofList]
  intro isIn
  have isIn := stripTags_subset _ isIn
  cases named : Path.fileName? source with
  | none => simp [named] at isIn
  | some name =>
    rw [named] at isIn
    exact Path.slash_not_mem_of_fileName? named isIn

variable (source : String)

theorem exists_toList_directory :
    ∃ front, (ofSource source).directory.toList = front ++ directoryName.toList := by
  obtain ⟨before, whole, -⟩ := Path.exists_toList_join ((Path.parent? source).getD "") directoryName
  exact ⟨before, whole⟩

theorem toList_snapshotFile :
    (ofSource source).snapshotFile.toList =
      (ofSource source).directory.toList ++
        '/' :: ((baseName source).toList ++ ".snap".toList) := by
  obtain ⟨front, ends⟩ := exists_toList_directory source
  have noSlash := slash_not_mem_baseName source
  have name : (baseName source ++ "." ++ snapshotExtension).toList =
      (baseName source).toList ++ ".snap".toList := by
    simp [snapshotExtension]
  have relative : (baseName source ++ "." ++ snapshotExtension).toList.head? ≠ some '/' := by
    rw [name]
    cases chars : (baseName source).toList with
    | nil => decide
    | cons c rest =>
      rw [chars] at noSlash
      simp only [List.cons_append, List.head?_cons, ne_eq, Option.some.injEq]
      rintro rfl
      exact noSlash List.mem_cons_self
  have joined := Path.toList_join ends (by decide) (by decide) relative
  rw [name] at joined
  exact joined

theorem toList_page :
    (ofSource source).page.toList =
      (ofSource source).directory.toList ++ '/' :: pageName.toList := by
  obtain ⟨front, ends⟩ := exists_toList_directory source
  exact Path.toList_join ends (by decide) (by decide) (by decide)

theorem splitOn_snapshotFile :
    Text.splitOn '/' (ofSource source).snapshotFile.toList =
      Text.splitOn '/' (ofSource source).directory.toList ++
        [(baseName source).toList ++ ".snap".toList] := by
  have noSlash : '/' ∉ (baseName source).toList ++ ".snap".toList := by
    simp [slash_not_mem_baseName source]
  rw [toList_snapshotFile, Text.splitOn_append_cons, Text.splitOn_of_not_mem noSlash]

theorem splitOn_page :
    Text.splitOn '/' (ofSource source).page.toList =
      Text.splitOn '/' (ofSource source).directory.toList ++ [pageName.toList] := by
  rw [toList_page, Text.splitOn_append_cons]
  rfl

theorem exists_toList_styleFile :
    ∃ front, (ofSource source).styleFile.toList = front ++ ".css".toList := by
  obtain ⟨front, whole, -⟩ := Path.exists_toList_join (ofSource source).directory
    ((Path.fileStem? (baseName source)).getD "" ++ ".css")
  refine ⟨front ++ ((Path.fileStem? (baseName source)).getD "").toList, ?_⟩
  rw [List.append_assoc, ← String.toList_append]
  exact whole

/-- The path of styles ends with a name of its own. -/
theorem exists_splitOn_styleFile :
    ∃ before name, Text.splitOn '/' (ofSource source).styleFile.toList =
      before ++ [name ++ ".css".toList] := by
  obtain ⟨front, whole⟩ := exists_toList_styleFile source
  rw [whole]
  exact Text.exists_splitOn_append _ (by decide)

/-- A name with more than two characters leads on to a place of its own. -/
theorem named_of_length {name : List Char} (long : 2 < name.length) :
    Path.isIdle name = false ∧ name ≠ ['.', '.'] := by
  refine ⟨?_, fun same => by simp [same] at long⟩
  rw [Path.isIdle, Bool.or_eq_false_iff]
  exact ⟨beq_false_of_ne fun same => by simp [same] at long,
    beq_false_of_ne fun same => by simp [same] at long⟩

/-- The page stands in the directory of the snapshots. -/
theorem parent?_page : Path.parent? (ofSource source).page = some (ofSource source).directory := by
  obtain ⟨front, ends⟩ := exists_toList_directory source
  obtain ⟨before, last, parted⟩ :=
    Text.exists_splitOn_append front (show '/' ∉ directoryName.toList by decide)
  rw [← ends] at parted
  have named : Path.isIdle (last ++ directoryName.toList) = false :=
    (named_of_length (by simp [directoryName])).1
  have segments : Path.segmentsBack (ofSource source).page =
      pageName.toList :: (Text.splitOn '/' (ofSource source).directory.toList).reverse := by
    rw [Path.segmentsBack, splitOn_page, List.reverse_append, List.reverse_singleton,
      List.singleton_append, Path.trimIdle_of_not_isIdle (by decide)]
  have notRoot : (last ++ directoryName.toList) :: before.reverse ≠ [[]] := by
    simp [directoryName]
  unfold Path.parent?
  rw [segments, parted, List.reverse_append, List.reverse_singleton, List.singleton_append]
  dsimp only
  rw [Path.trimIdle_of_not_isIdle named, Path.ofSegmentsBack, if_neg notRoot, List.reverse_cons,
    List.reverse_reverse, ← parted, Text.splitOn_eq, List.intercalate_splitOn, String.ofList_toList]

end Artifacts

end SnapshotPreview

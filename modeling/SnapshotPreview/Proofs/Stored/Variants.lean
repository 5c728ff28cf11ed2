import Mathlib.Data.List.TakeWhile
import SnapshotPreview.Preview.Live
import SnapshotPreview.Proofs.Stored.Paths

/-!
# Variants of a test file

The variants of a test file differ in the tags of their names only. Without its tags a name has none
left (`isUntagged_stripTags`), and all characters that end tags are still there. What is stored for
a variant is what is stored for the file without tags, and the styles stored there belong, when a
message brings them, to the key of that file (`artifacts_of_variant`).
-/

namespace SnapshotPreview

namespace Artifacts

/-! ## Tags -/

/-- Behind every at sign stands a character that ends tags, or nothing. -/
def IsUntagged (cs : List Char) : Prop :=
  ∀ rest, '@' :: rest <:+ cs → ∀ c ∈ rest.head?, endsTag c = true

theorem IsUntagged.of_cons {c : Char} {cs : List Char} (untagged : IsUntagged (c :: cs)) :
    IsUntagged cs :=
  fun rest isIn => untagged rest (isIn.trans (List.suffix_cons c cs))

/-- Nothing is dropped exactly if the first character ends tags. -/
theorem dropWhile_endsTag_iff {cs : List Char} :
    (cs.dropWhile fun c => !endsTag c).length < cs.length ↔ ∃ c ∈ cs.head?, endsTag c = false := by
  cases cs with
  | nil => simp
  | cons c cs =>
    have shorter := Text.length_dropWhile_le (fun c => !endsTag c) cs
    cases ends : endsTag c with
    | true => simp [ends]
    | false =>
      simp only [List.dropWhile_cons, ends, Bool.not_false, if_true, List.length_cons]
      simp [ends]
      omega

theorem stripTags_of_isUntagged {cs : List Char} (untagged : IsUntagged cs) :
    stripTags cs = cs := by
  induction cs with
  | nil => rw [stripTags]
  | cons c cs ih =>
    rw [stripTags, if_neg, ih untagged.of_cons]
    rw [Bool.and_eq_true, decide_eq_true_iff, decide_eq_true_iff, dropWhile_endsTag_iff]
    rintro ⟨rfl, d, first, stays⟩
    have ends := untagged cs (List.suffix_refl _) d first
    rw [stays] at ends
    cases ends

theorem isUntagged_stripTags (cs : List Char) : IsUntagged (stripTags cs) := by
  fun_induction stripTags cs with
  | case1 => exact fun rest isIn => by simpa using List.eq_nil_of_suffix_nil isIn
  | case2 c rest tail isTag ih => exact ih
  | case3 c rest tail noTag ih =>
    intro behind isIn d first
    rcases List.suffix_cons_iff.mp isIn with here | later
    · -- What follows an at sign that stays has stayed, too.
      obtain ⟨rfl, rfl⟩ := List.cons.inj here
      rw [Bool.and_eq_true, decide_eq_true_iff, decide_eq_true_iff, dropWhile_endsTag_iff] at noTag
      cases rest with
      | nil =>
        rw [stripTags] at first
        cases first
      | cons e rest =>
        have ends : endsTag e = true := by
          by_contra stays
          exact noTag ⟨rfl, e, rfl, Bool.eq_false_iff.mpr stays⟩
        have notAt : e ≠ '@' := by
          rintro rfl
          cases ends
        rw [stripTags, if_neg (by simp [notAt])] at first
        rwa [← Option.some.inj first]
    · exact ih behind later d first

theorem filter_stripTags (cs : List Char) : (stripTags cs).filter endsTag = cs.filter endsTag := by
  fun_induction stripTags cs with
  | case1 => rfl
  | case2 c rest tail isTag ih =>
    rw [Bool.and_eq_true, decide_eq_true_iff] at isTag
    have isAt : ¬ endsTag c = true := by
      rw [isTag.1]
      decide
    have dropped : (rest.takeWhile fun c => !endsTag c).filter endsTag = [] := by
      refine List.filter_eq_nil_iff.mpr fun d isIn => ?_
      simpa using List.mem_takeWhile_imp isIn
    have kept : rest.filter endsTag = tail.filter endsTag := by
      have parts : (rest.takeWhile fun c => !endsTag c) ++ tail = rest :=
        List.takeWhile_append_dropWhile
      have split := congrArg (List.filter endsTag) parts
      rwa [List.filter_append, dropped, List.nil_append, eq_comm] at split
    rw [ih, List.filter_cons_of_neg isAt, kept]
  | case3 c rest tail noTag ih => rw [List.filter_cons, List.filter_cons, ih]

end Artifacts

namespace Path

/-! ## Names -/

/-- A name that a file may have. -/
def IsName (name : String) : Prop :=
  '/' ∉ name.toList ∧ name ≠ "" ∧ name ≠ "." ∧ name ≠ ".."

instance (name : String) : Decidable (IsName name) := inferInstanceAs (Decidable (_ ∧ _))

section
variable {name : String} (named : IsName name)
include named

theorem isIdle_of_isName : isIdle name.toList = false := by
  obtain ⟨-, nonempty, notDot, -⟩ := named
  rw [isIdle, Bool.or_eq_false_iff, beq_eq_false_iff_ne, beq_eq_false_iff_ne]
  exact ⟨by simpa using nonempty, fun same => notDot (String.toList_inj.mp same)⟩

/-- The directory above a name that stands alone is the current one. -/
theorem parent?_of_isName : parent? name = some "" := by
  have segments : segmentsBack name = [name.toList] := by
    rw [segmentsBack, Text.splitOn_of_not_mem named.1]
    rfl
  rw [parent?, segments]
  exact if_neg (by simpa using named.2.1)

theorem fileName?_of_segments {path : String} {before : List (List Char)}
    (segments : segmentsBack path = name.toList :: before) : fileName? path = some name := by
  obtain ⟨-, nonempty, notDot, notUp⟩ := named
  have isName : ¬ ((name.toList = [] ∨ name.toList = ['.']) ∨ name.toList = ['.', '.']) := by
    rintro ((same | same) | same)
    · exact nonempty (String.toList_inj.mp same)
    · exact notDot (String.toList_inj.mp same)
    · exact notUp (String.toList_inj.mp same)
  rw [fileName?, segments]
  dsimp only
  rw [if_neg (by simpa using isName), String.ofList_toList]

end

/-- What stands before a name in a path within a directory depends on the directory only. -/
theorem exists_front_of_join (directory : String) :
    ∃ front : List Char, (front = [] ∨ ∃ start, front = start ++ ['/']) ∧
      ∀ name : String, '/' ∉ name.toList → (join directory name).toList = front ++ name.toList := by
  have relative {name : String} (noSlash : '/' ∉ name.toList) : name.startsWith "/" = false := by
    rw [String.startsWith_string_eq_false_iff]
    rintro ⟨rest, begins⟩
    exact noSlash (by rw [← begins]; exact List.mem_cons_self)
  by_cases empty : directory.isEmpty = true
  · refine ⟨[], .inl rfl, fun name noSlash => ?_⟩
    simp [join, relative noSlash, empty]
  · by_cases slash : directory.endsWith "/" = true
    · have ends := slash
      rw [← String.endsWith_toSlice, String.Slice.endsWith_string_iff] at ends
      obtain ⟨start, whole⟩ := ends
      refine ⟨directory.toList, .inr ⟨start, by simpa using whole.symm⟩, fun name noSlash => ?_⟩
      simp [join, relative noSlash, empty, slash]
    · refine ⟨directory.toList ++ ['/'], .inr ⟨_, rfl⟩, fun name noSlash => ?_⟩
      simp [join, relative noSlash, empty, slash]

theorem exists_segmentsBack_join (directory : String) :
    ∃ before, ∀ name, IsName name → segmentsBack (join directory name) = name.toList :: before := by
  obtain ⟨front, shape, whole⟩ := exists_front_of_join directory
  rcases shape with rfl | ⟨start, rfl⟩
  · refine ⟨[], fun name named => ?_⟩
    rw [segmentsBack, whole name named.1, List.nil_append, Text.splitOn_of_not_mem named.1]
    rfl
  · refine ⟨(Text.splitOn '/' start).reverse, fun name named => ?_⟩
    rw [segmentsBack, whole name named.1, List.append_assoc, List.singleton_append,
      Text.splitOn_append_cons, Text.splitOn_of_not_mem named.1, List.reverse_append,
      List.reverse_singleton, List.singleton_append,
      trimIdle_of_not_isIdle (isIdle_of_isName named)]

theorem fileName?_join {name : String} (named : IsName name) (directory : String) :
    fileName? (join directory name) = some name := by
  obtain ⟨before, segments⟩ := exists_segmentsBack_join directory
  exact fileName?_of_segments named (segments name named)

/-- Names in one directory have the same parent. -/
theorem parent?_join_congr {name other : String} (named : IsName name) (named' : IsName other)
    (directory : String) : parent? (join directory name) = parent? (join directory other) := by
  obtain ⟨before, segments⟩ := exists_segmentsBack_join directory
  have nonempty {name : String} (named : IsName name) : name.toList ≠ [] := by
    simpa using named.2.1
  rw [parent?, parent?, segments name named, segments other named']
  cases before with
  | nil =>
    dsimp only
    rw [if_neg (nonempty named), if_neg (nonempty named')]
  | cons s before => rfl

/-! ## Extensions -/

theorem splitExtension_append {stem extension : List Char} (nonempty : stem ≠ [])
    (single : '.' ∉ extension) :
    splitExtension (stem ++ '.' :: extension) = (stem, some extension) := by
  obtain ⟨last, before, parted⟩ := List.exists_cons_of_ne_nil
    (List.reverse_ne_nil_iff.mpr (List.splitOn_ne_nil '.' stem))
  rw [← Text.splitOn_eq] at parted
  have whole : List.intercalate ['.'] (last :: before).reverse = stem := by
    rw [← parted, List.reverse_reverse, Text.intercalate_splitOn]
  rw [splitExtension, Text.splitOn_append_cons, Text.splitOn_of_not_mem single,
    List.reverse_append, parted, List.reverse_singleton, List.singleton_append]
  dsimp only
  rw [whole, if_neg nonempty]

/-- A name is its stem, or the stem with a dot and the extension behind it. -/
theorem splitExtension_cases (name : List Char) :
    splitExtension name = (name, none) ∨
      ∃ stem extension, stem ≠ [] ∧ name = stem ++ '.' :: extension ∧
        splitExtension name = (stem, some extension) := by
  by_cases dot : '.' ∈ name
  · obtain ⟨back, front, whole, single⟩ := List.eq_append_cons_of_mem (List.mem_reverse.mpr dot)
    have parts : name = front.reverse ++ '.' :: back.reverse := by
      rw [← List.reverse_reverse name, whole]
      simp
    have single : '.' ∉ back.reverse := by rwa [List.mem_reverse]
    cases front with
    | nil =>
      left
      rw [parts, splitExtension, Text.splitOn_append_cons, Text.splitOn_of_not_mem single]
      rfl
    | cons c front =>
      right
      refine ⟨_, _, ?_, parts, ?_⟩
      · simp
      · rw [parts]
        exact splitExtension_append (by simp) single
  · left
    rw [splitExtension, Text.splitOn_of_not_mem dot]
    rfl

/-- The stem of a name. -/
def stem (name : String) : String := String.ofList (splitExtension name.toList).1

theorem stem_ne_empty {name : String} (nonempty : name ≠ "") : stem name ≠ "" := by
  rw [stem, ne_eq, ← String.toList_inj, String.toList_ofList]
  rcases splitExtension_cases name.toList with whole | ⟨stem, extension, some, -, parts⟩
  · rw [whole]
    simpa using nonempty
  · rw [parts]
    exact some

theorem slash_not_mem_stem {name : String} (noSlash : '/' ∉ name.toList) :
    '/' ∉ (stem name).toList := by
  rw [stem, String.toList_ofList]
  rcases splitExtension_cases name.toList with whole | ⟨stem, extension, -, parts, split⟩
  · rwa [whole]
  · rw [split]
    rw [parts] at noSlash
    exact fun isIn => noSlash (List.mem_append_left _ isIn)

theorem fileStem?_join {name : String} (named : IsName name) (directory : String) :
    fileStem? (join directory name) = some (stem name) := by
  rw [fileStem?, fileName?_join named, Option.map_some, stem]

theorem fileStem?_of_isName {name : String} (named : IsName name) :
    fileStem? name = some (stem name) := by
  have alone := fileStem?_join named ""
  rwa [show join "" name = name by simp [join]] at alone

/-- With an extension of two letters or more, anything is a name. -/
theorem isName_extended {name extension : String} (noSlash : '/' ∉ name.toList)
    (noSlash' : '/' ∉ extension.toList) (long : 2 ≤ extension.toList.length) :
    IsName (name ++ "." ++ extension) := by
  have chars : (name ++ "." ++ extension).toList = name.toList ++ '.' :: extension.toList := by simp
  have apart {other : String} (short : other.toList.length ≤ 2) :
      name ++ "." ++ extension ≠ other := by
    rintro rfl
    rw [chars, List.length_append, List.length_cons] at short
    omega
  refine ⟨?_, apart (by decide), apart (by decide), apart (by decide)⟩
  rw [chars]
  simp [noSlash, noSlash']

theorem splitExtension_extended {name extension : String} (nonempty : name ≠ "")
    (single : '.' ∉ extension.toList) :
    splitExtension (name ++ "." ++ extension).toList = (name.toList, some extension.toList) := by
  have chars : (name ++ "." ++ extension).toList = name.toList ++ '.' :: extension.toList := by simp
  rw [chars]
  exact splitExtension_append (by simpa using nonempty) single

end Path

/-! ## The artifacts of a variant -/

namespace Artifacts

theorem stripVariantTags_stripVariantTags (name : String) :
    stripVariantTags (stripVariantTags name) = stripVariantTags name := by
  rw [stripVariantTags, stripVariantTags, String.toList_ofList,
    stripTags_of_isUntagged (isUntagged_stripTags name.toList)]

section
variable {name : String} (named : Path.IsName name)
  (untagged : Path.IsName (stripVariantTags name)) (directory : String)
include named

/-- The directory of artifacts beside the files of a directory. -/
theorem ofSource_join :
    ofSource (Path.join directory name) =
      let place := Path.join ((Path.parent? (Path.join directory name)).getD "") directoryName
      { directory := place
        snapshotFile := Path.join place (stripVariantTags name ++ "." ++ snapshotExtension)
        styleFile :=
          Path.join place ((Path.fileStem? (stripVariantTags name)).getD "" ++ ".css") } := by
  rw [ofSource, Path.fileName?_join named]
  rfl

include untagged

theorem ofSource_variant :
    ofSource (Path.join directory name) =
      ofSource (Path.join directory (stripVariantTags name)) := by
  rw [ofSource_join named, ofSource_join untagged, stripVariantTags_stripVariantTags,
    Path.parent?_join_congr named untagged]

theorem snapshotFile_variant :
    isSnapshotFile (ofSource (Path.join directory name)).snapshotFile = true ∧
      Path.fileStem? (ofSource (Path.join directory name)).snapshotFile =
        some (stripVariantTags name) := by
  have isName : Path.IsName (stripVariantTags name ++ "." ++ snapshotExtension) :=
    Path.isName_extended untagged.1 (by decide) (by decide)
  have parts : Path.splitExtension (stripVariantTags name ++ "." ++ snapshotExtension).toList =
      ((stripVariantTags name).toList, some snapshotExtension.toList) :=
    Path.splitExtension_extended untagged.2.1 (by decide)
  rw [ofSource_join named]
  dsimp only
  constructor
  · rw [isSnapshotFile, Path.extension?, Path.fileName?_join isName, Option.bind_some, parts,
      Option.map_some, String.ofList_toList, beq_self_eq_true]
  · rw [Path.fileStem?_join isName, Path.stem, parts, String.ofList_toList]

theorem styleFile_variant :
    testFileKey (ofSource (Path.join directory name)).styleFile =
      testFileKey (Path.join directory (stripVariantTags name)) := by
  have nonempty : Path.stem (stripVariantTags name) ≠ "" := Path.stem_ne_empty untagged.2.1
  have isName : Path.IsName (Path.stem (stripVariantTags name) ++ "." ++ "css") :=
    Path.isName_extended (Path.slash_not_mem_stem untagged.1) (by decide) (by decide)
  have parts : Path.splitExtension (Path.stem (stripVariantTags name) ++ "." ++ "css").toList =
      ((Path.stem (stripVariantTags name)).toList, some "css".toList) :=
    Path.splitExtension_extended nonempty (by decide)
  have written : Path.stem (stripVariantTags name) ++ ".css" =
      Path.stem (stripVariantTags name) ++ "." ++ "css" := by
    rw [String.append_assoc]
    rfl
  rw [ofSource_join named]
  dsimp only
  rw [Path.fileStem?_of_isName untagged, Option.getD_some, written, testFileKey, testFileKey,
    Path.fileStem?_join isName, Path.fileStem?_join untagged, Option.getD_some, Option.getD_some,
    Path.stem, parts, String.ofList_toList]

end

theorem endsWith_styleFile (source : String) :
    (ofSource source).styleFile.endsWith ".css" = true := by
  obtain ⟨front, whole⟩ := exists_toList_styleFile source
  rw [← String.endsWith_toSlice, String.Slice.endsWith_string_iff]
  exact ⟨front, by simpa using whole.symm⟩

/-- Variants of a test file share its artifacts. Without its tags a name has no more tags, and none
of the characters that end tags is missing. What belongs to the variant in a directory belongs to
the file without tags there: the snapshots are named for it, and styles that a message brings for
the style file are kept under its key. -/
theorem artifacts_of_variant (name : String) :
    stripVariantTags (stripVariantTags name) = stripVariantTags name ∧
    (stripVariantTags name).toList.filter endsTag = name.toList.filter endsTag ∧
    ∀ directory, Path.IsName name → Path.IsName (stripVariantTags name) →
      let a := ofSource (Path.join directory name)
      let untagged := Path.join directory (stripVariantTags name)
      a = ofSource untagged ∧
      isSnapshotFile a.snapshotFile = true ∧
      Path.fileStem? a.snapshotFile = some (stripVariantTags name) ∧
      testFileKey a.styleFile = testFileKey untagged ∧
      ∀ (p : LivePreview) (m : LiveMessage) (now : Nat) (css : String),
        m.file = a.styleFile → LivePreview.stylesOf m.content = some css →
        p.receive m now =
          { p with
            styles := Assoc.set (testFileKey untagged)
              (Markup.relocateUrls css p.options.assetBase) p.styles } := by
  refine ⟨stripVariantTags_stripVariantTags name, ?_, fun directory named untagged => ?_⟩
  · rw [stripVariantTags, String.toList_ofList, filter_stripTags]
  · obtain ⟨isSnapshot, stem⟩ := snapshotFile_variant named untagged directory
    have key := styleFile_variant named untagged directory
    refine ⟨ofSource_variant named untagged directory, isSnapshot, stem, key, ?_⟩
    intro p m now css sidecar styles
    have isStyles : m.isStylesheet = true := by
      rw [LiveMessage.isStylesheet, sidecar]
      exact endsWith_styleFile _
    rw [LivePreview.receive, if_pos isStyles, styles, sidecar, key]

/-- A variant with two tags, whose styles arrive. -/
theorem artifacts_of_darkWide :
    let name := "Widget@dark@wide.test.tsx"
    let a := ofSource (Path.join "src" name)
    let p : LivePreview := { options := PageOptions.ofAssetBase "/pub" }
    let m : LiveMessage := { file := a.styleFile, content := .text "a \x7b\x7d" }
    Path.IsName name ∧ Path.IsName (stripVariantTags name) ∧
      stripVariantTags name = "Widget.test.tsx" ∧
      a = ofSource (Path.join "src" "Widget.test.tsx") ∧
      Path.fileStem? a.snapshotFile = some "Widget.test.tsx" ∧
      (p.receive m 0).styles =
        [(testFileKey (Path.join "src" "Widget.test.tsx"),
          Markup.relocateUrls "a \x7b\x7d" p.options.assetBase)] := by
  intro name a p m
  have stripped : stripVariantTags name = "Widget.test.tsx" := by
    simp [name, stripVariantTags, stripTags, endsTag]
  have named : Path.IsName name := by decide
  have untagged : Path.IsName (stripVariantTags name) := by
    rw [stripped]
    decide
  obtain ⟨-, -, shared⟩ := artifacts_of_variant name
  obtain ⟨same, -, stem, -, receives⟩ := shared "src" named untagged
  rw [stripped] at same stem receives
  exact ⟨named, untagged, stripped, same, stem, by rw [receives p m 0 _ rfl rfl]; rfl⟩

end Artifacts

end SnapshotPreview

import SnapshotPreview.Proofs.Stored.Files
import SnapshotPreview.Proofs.Stored.Variants

/-!
# Files that are saved

Whether a file can be saved is decided by its path alone. One that was saved can be read again, and
a failure leaves what was there (`failure_save`, `readText_save`, `readBytes_save_of_failure`). Under
a name of its own, a file can be saved in the current directory (`failure_save_of_isFileName`).
-/

namespace SnapshotPreview.FileTree

variable {t : FileTree} {path text : String}

/-- A file is written where its path leads. -/
theorem resolve_of_placeToWrite {place : Place} (writes : t.placeToWrite path = .ok place) :
    t.resolve path = .ok place := by
  obtain ⟨_, -, writes⟩ := bind_eq_ok.mp writes
  split at writes
  · obtain ⟨_, -, writes⟩ := bind_eq_ok.mp writes
    obtain ⟨_, -, writes⟩ := bind_eq_ok.mp writes
    cases writes
  · obtain ⟨⟨directory, last⟩, resolves, writes⟩ := bind_eq_ok.mp writes
    obtain ⟨found, step, writes⟩ := bind_eq_ok.mp writes
    split at writes
    · cases writes
    · cases writes
      exact resolve_eq_ok_iff.mpr ⟨directory, last, resolves, step⟩

/-- Either no text can be saved at a path, or every text is put at one place. Until then,
directories are all that is made. -/
theorem save_cases (t : FileTree) (path : String) : ∃ made : FileTree, made.Keeps t ∧
    ((∃ e, ∀ text, t.save path text = { files := made, failure := some e }) ∨
      ∃ place, made.placeToWrite path = .ok place ∧
        ∀ text, t.save path text =
          { files := made.put place (.file (Text.bytesOf text).toList) }) := by
  have kept : (t.makeDirectories ((Path.parent? path).getD "")).files.Keeps t :=
    keeps_makeDirectoriesUpTo _ _ _
  cases above : t.makeDirectories ((Path.parent? path).getD "") with
  | mk made failure =>
    rw [above] at kept
    refine ⟨made, kept, ?_⟩
    cases failure with
    | some e => exact .inl ⟨e, fun text => by rw [save, above]⟩
    | none =>
      cases writes : made.placeToWrite path with
      | error e =>
        refine .inl ⟨e, fun text => ?_⟩
        simp only [save, above, writeText, writeBytes, writes]
        rfl
      | ok place =>
        refine .inr ⟨place, rfl, fun text => ?_⟩
        simp only [save, above, writeText, writeBytes, writes]
        rfl

/-- Whether a file can be saved does not depend on its text. -/
theorem failure_save (t : FileTree) (path text other : String) :
    (t.save path text).failure = (t.save path other).failure := by
  obtain ⟨made, -, ⟨e, fails⟩ | ⟨place, -, saves⟩⟩ := save_cases t path
  · rw [fails, fails]
  · rw [saves, saves]

/-- What was saved is what stands at its path. -/
theorem found?_save (saved : (t.save path text).failure = none) :
    (t.save path text).files.found? path = some (.file (Text.bytesOf text).toList) := by
  obtain ⟨made, -, ⟨e, fails⟩ | ⟨place, writes, saves⟩⟩ := save_cases t path
  · rw [fails] at saved
    cases saved
  · have free := free_of_placeToWrite writes
    have leads := (extends_put free (.file (Text.bytesOf text).toList)).resolve
      (resolve_of_placeToWrite writes)
    rw [saves, found?_of_resolve leads, lookup_put made place place _ (ne_top_of_free free),
      if_pos rfl]

theorem readBytes_eq_ok_iff {bytes : List UInt8} :
    t.readBytes path = .ok bytes ↔ t.found? path = some (.file bytes) := by
  constructor
  · intro reads
    obtain ⟨place, leads, reads⟩ := bind_eq_ok.mp reads
    rw [found?_of_resolve leads]
    split at reads
    · rename_i entry
      cases reads
      exact entry
    · cases reads
    · cases reads
  · intro found
    obtain ⟨place, leads⟩ := exists_resolve_of_found? (by rw [found]; rfl)
    rw [found?_of_resolve leads] at found
    refine bind_eq_ok.mpr ⟨place, leads, ?_⟩
    rw [found]
    rfl

/-- What was saved can be read. -/
theorem readText_save (saved : (t.save path text).failure = none) :
    (t.save path text).files.readText path = .ok text := by
  refine bind_eq_ok.mpr ⟨_, readBytes_eq_ok_iff.mpr (found?_save saved), ?_⟩
  rw [Text.toList_bytesOf, Text.decode?_encode]
  exact congrArg Except.ok String.ofList_toList

/-- Making directories leaves all files as they were. -/
theorem readBytes_makeDirectories (t : FileTree) (path : String) {other : String}
    {bytes : List UInt8} (old : t.readBytes other = .ok bytes) :
    (t.makeDirectories path).files.readBytes other = .ok bytes :=
  readBytes_eq_ok_iff.mpr
    ((keeps_makeDirectoriesUpTo _ t path).found? (readBytes_eq_ok_iff.mp old))

/-- Where a file could not be saved, all files are left as they were. -/
theorem readBytes_save_of_failure (failed : (t.save path text).failure ≠ none) {other : String}
    {bytes : List UInt8} (old : t.readBytes other = .ok bytes) :
    (t.save path text).files.readBytes other = .ok bytes := by
  obtain ⟨made, kept, ⟨e, fails⟩ | ⟨place, -, saves⟩⟩ := save_cases t path
  · rw [fails, readBytes_eq_ok_iff]
    exact kept.found? (readBytes_eq_ok_iff.mp old)
  · rw [saves] at failed
    exact absurd rfl failed

/-! ## Names in the current directory -/

/-- A name that a file of the tree may have. -/
structure IsFileName (name : String) : Prop where
  isName : Path.IsName name
  noNul : '\x00' ∉ name.toList
  short : Text.byteLength name.toList ≤ maxNameLength

section
variable {name : String} (named : IsFileName name)
include named

theorem stepsOf_of_isFileName : stepsOf name = .ok [name.toList] := by
  obtain ⟨⟨noSlash, nonempty, -, -⟩, noNul, short⟩ := named
  rw [Text.byteLength_toList] at short
  exact stepsOf_eq_ok_iff.mpr ⟨by simpa using nonempty, noNul, Nat.le_trans short (by decide),
    (Text.splitOn_of_not_mem noSlash).symm⟩

theorem resolveLast_of_isFileName (t : FileTree) :
    t.resolveLast name = .ok (t.current, name.toList) := by
  have relative : name.startsWith "/" = false := by
    rw [String.startsWith_string_eq_false_iff]
    rintro ⟨rest, begins⟩
    exact named.isName.1 (by rw [← begins]; exact List.mem_cons_self)
  refine bind_eq_ok.mpr ⟨_, stepsOf_of_isFileName named, ?_⟩
  refine bind_eq_ok.mpr ⟨t.current, ?_, rfl⟩
  rw [origin, relative]
  rfl

variable (here : t.entry? t.current = some .directory)
include here

theorem step_of_isFileName :
    t.step t.current name.toList = .ok (t.current ++ [name.toList]) := by
  obtain ⟨isName, -, short⟩ := named
  have notUp : name.toList ≠ ['.', '.'] := fun same => isName.2.2.2 (String.toList_inj.mp same)
  unfold step
  rw [here]
  dsimp only
  rw [if_neg (by simp [Path.isIdle_of_isName isName]), if_neg notUp,
    if_neg (Nat.not_lt.mpr short)]

theorem found?_of_isFileName : t.found? name = t.entry? (t.current ++ [name.toList]) :=
  found?_of_resolve (resolve_eq_ok_iff.mpr
    ⟨t.current, name.toList, resolveLast_of_isFileName named t, step_of_isFileName named here⟩)

/-- Where no directory has the name, a file can be saved under it. -/
theorem failure_save_of_isFileName
    (free : t.entry? (t.current ++ [name.toList]) ≠ some .directory) (text : String) :
    (t.save name text).failure = none := by
  have noSlash : name.endsWith "/" = false := by
    rw [← String.endsWith_toSlice, String.Slice.endsWith_string_eq_false_iff]
    rintro ⟨start, ends⟩
    rw [String.copy_toSlice] at ends
    exact named.isName.1 (by rw [← ends]; simp)
  have writes : t.placeToWrite name = .ok (t.current ++ [name.toList]) := by
    refine bind_eq_ok.mpr ⟨_, stepsOf_of_isFileName named, ?_⟩
    rw [if_neg (by simp [noSlash])]
    refine bind_eq_ok.mpr ⟨_, resolveLast_of_isFileName named t, ?_⟩
    refine bind_eq_ok.mpr ⟨_, step_of_isFileName named here, ?_⟩
    exact if_neg free
  have above : t.makeDirectories ((Path.parent? name).getD "") = { files := t } := by
    rw [Path.parent?_of_isName named.isName]
    rfl
  simp only [save, above, writeText, writeBytes, writes]
  rfl

end

end SnapshotPreview.FileTree

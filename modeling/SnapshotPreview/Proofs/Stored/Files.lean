import SnapshotPreview.Proofs.Stored.Paths
import SnapshotPreview.Storage

/-!
# What stands at a path

Loading reads nothing of a tree of files but what stands where the path leads (`readText_eq`). Edits
never take a directory away, so a path that leads somewhere goes on leading there, and a file that
is written changes what stands at its own place only (`found?_put`).
-/

namespace SnapshotPreview

namespace FileTree

/-- What stands where a path leads. -/
def found? (t : FileTree) (path : String) : Option FileEntry :=
  (t.resolve path).toOption.bind t.entry?

theorem found?_of_resolve {t : FileTree} {path : String} {place : Place}
    (leads : t.resolve path = .ok place) : t.found? path = t.entry? place := by
  rw [found?, leads]
  rfl

theorem exists_resolve_of_found? {t : FileTree} {path : String} (found : (t.found? path).isSome) :
    ∃ place, t.resolve path = .ok place := by
  unfold found? at found
  cases leads : t.resolve path with
  | error e =>
    rw [leads] at found
    cases found
  | ok place => exact ⟨place, rfl⟩

theorem contains_eq (t : FileTree) (path : String) : t.contains path = (t.found? path).isSome := by
  unfold contains found?
  cases t.resolve path <;> rfl

/-! ## Walking -/

theorem walk_append (t : FileTree) (place : Place) (first second : List (List Char)) :
    t.walk place (first ++ second) = (t.walk place first).bind fun next => t.walk next second := by
  induction first generalizing place with
  | nil => rfl
  | cons name rest ih =>
    simp only [List.cons_append, walk]
    cases t.step place name with
    | error e => rfl
    | ok next => exact ih next

/-- A step that is taken is taken from a directory. -/
theorem directory_of_step {t : FileTree} {place next : Place} {name : List Char}
    (steps : t.step place name = .ok next) : t.entry? place = some .directory := by
  unfold step at steps
  split at steps
  · cases steps
  · cases steps
  · assumption

/-- A step with a name of its own leads to the place of that name in the directory. -/
theorem place_of_step {t : FileTree} {place next : Place} {name : List Char}
    (named : Path.isIdle name = false) (forth : name ≠ ['.', '.'])
    (steps : t.step place name = .ok next) : next = place ++ [name] := by
  unfold step at steps
  split at steps
  · cases steps
  · cases steps
  · rw [if_neg (by simp [named]), if_neg forth] at steps
    split at steps
    · cases steps
    · cases steps
      rfl

/-! ## Edits -/

/-- A tree in which every directory of another one is still there. -/
structure Extends (t old : FileTree) : Prop where
  current_eq : t.current = old.current
  directories : ∀ place, old.entry? place = some .directory → t.entry? place = some .directory

theorem extends_refl (t : FileTree) : t.Extends t := ⟨rfl, fun _ here => here⟩

theorem Extends.trans {t mid old : FileTree} (late : t.Extends mid) (early : mid.Extends old) :
    t.Extends old :=
  ⟨late.current_eq.trans early.current_eq,
    fun place here => late.directories place (early.directories place here)⟩

section
variable {t old : FileTree} (grown : t.Extends old)
include grown

theorem Extends.step {place next : Place} {name : List Char}
    (steps : old.step place name = .ok next) :
    t.step place name = .ok next := by
  have here := directory_of_step steps
  have there := grown.directories place here
  simp only [FileTree.step, here, there] at steps ⊢
  exact steps

theorem Extends.walk {place next : Place} {names : List (List Char)}
    (walks : old.walk place names = .ok next) : t.walk place names = .ok next := by
  induction names generalizing place with
  | nil => exact walks
  | cons name rest ih =>
    simp only [FileTree.walk] at walks ⊢
    cases steps : old.step place name with
    | error e =>
      rw [steps] at walks
      cases walks
    | ok mid =>
      rw [steps] at walks
      rw [grown.step steps]
      exact ih walks

/-- A path that leads somewhere goes on leading there. -/
theorem Extends.resolve {path : String} {place : Place} (leads : old.resolve path = .ok place) :
    t.resolve path = .ok place := by
  unfold FileTree.resolve at leads ⊢
  cases names : stepsOf path with
  | error e =>
    rw [names] at leads
    cases leads
  | ok names =>
    rw [names] at leads
    have origin : t.origin path = old.origin path := by
      unfold FileTree.origin
      rw [grown.current_eq]
    rw [origin]
    exact grown.walk leads

end

theorem lookup_put (t : FileTree) (place other : Place) (e : FileEntry) (below : place ≠ []) :
    FileTree.entry? (t.put place e) other = if other = place then some e else t.entry? other := by
  unfold entry? put
  rw [Assoc.get?_set]
  by_cases top : other = []
  · simp [top, Ne.symm below]
  · simp [top]

theorem ne_top_of_free {t : FileTree} {place : Place} (free : t.entry? place ≠ some .directory) :
    place ≠ [] := by
  rintro rfl
  exact free rfl

/-- Something new may be put where no directory stands. -/
theorem extends_put {t : FileTree} {place : Place} (free : t.entry? place ≠ some .directory)
    (e : FileEntry) : (t.put place e).Extends t := by
  refine ⟨rfl, fun other here => ?_⟩
  rw [lookup_put t place other e (ne_top_of_free free)]
  split
  · rename_i same
    rw [same] at here
    exact absurd here free
  · exact here

/-- A tree in which all that stood in another one still stands. -/
structure Keeps (t old : FileTree) : Prop where
  current_eq : t.current = old.current
  entries : ∀ place e, old.entry? place = some e → t.entry? place = some e

theorem Keeps.extends {t old : FileTree} (kept : t.Keeps old) : t.Extends old :=
  ⟨kept.current_eq, fun place here => kept.entries place .directory here⟩

theorem keeps_refl (t : FileTree) : t.Keeps t := ⟨rfl, fun _ _ here => here⟩

theorem Keeps.trans {t mid old : FileTree} (late : t.Keeps mid) (early : mid.Keeps old) :
    t.Keeps old :=
  ⟨late.current_eq.trans early.current_eq,
    fun place e here => late.entries place e (early.entries place e here)⟩

/-- What can be seen on a path can still be seen. -/
theorem Keeps.found? {t old : FileTree} (kept : t.Keeps old) {path : String} {e : FileEntry}
    (found : old.found? path = some e) : t.found? path = some e := by
  obtain ⟨place, leads⟩ := exists_resolve_of_found? (by rw [found]; rfl)
  rw [found?_of_resolve leads] at found
  rw [found?_of_resolve (kept.extends.resolve leads), kept.entries place e found]

/-- A directory is made only where nothing stands. -/
theorem keeps_of_makeDirectory {t made : FileTree} {path : String}
    (makes : t.makeDirectory path = .ok made) : made.Keeps t := by
  obtain ⟨⟨directory, name⟩, -, makes⟩ := bind_eq_ok.mp makes
  obtain ⟨place, -, makes⟩ := bind_eq_ok.mp makes
  split at makes
  · cases makes
  · rename_i free
    cases makes
    have nothing : t.entry? place = none :=
      Option.not_isSome_iff_eq_none.mp fun some => free (.inr (.inr some))
    refine ⟨rfl, fun other e here => ?_⟩
    rw [lookup_put t place other .directory (ne_top_of_free (by rw [nothing]; nofun)), if_neg]
    · exact here
    · rintro rfl
      rw [nothing] at here
      cases here

theorem keeps_ensureDirectory (t : FileTree) (path : String) :
    (t.ensureDirectory path).files.Keeps t := by
  unfold ensureDirectory
  cases makes : t.makeDirectory path with
  | error e => exact keeps_refl t
  | ok made => exact keeps_of_makeDirectory makes

theorem keeps_makeDirectoriesUpTo (fuel : Nat) (t : FileTree) (path : String) :
    (makeDirectoriesUpTo fuel t path).files.Keeps t := by
  induction fuel generalizing t path with
  | zero => exact keeps_refl t
  | succ fuel ih =>
    unfold makeDirectoriesUpTo
    split
    · exact keeps_refl t
    · rename_i parent _
      have first := keeps_ensureDirectory t path
      split
      · rename_i files made
        rw [made] at first
        have above := ih files parent
        split
        · rename_i files' made'
          rw [made'] at above
          exact (keeps_ensureDirectory files' path).trans (above.trans first)
        · exact above.trans first
      · exact first

/-- A file is written only where no directory stands. -/
theorem free_of_placeToWrite {t : FileTree} {path : String} {place : Place}
    (writes : t.placeToWrite path = .ok place) : t.entry? place ≠ some .directory := by
  unfold placeToWrite at writes
  obtain ⟨_, -, writes⟩ := bind_eq_ok.mp writes
  split at writes
  · obtain ⟨_, -, writes⟩ := bind_eq_ok.mp writes
    obtain ⟨_, -, writes⟩ := bind_eq_ok.mp writes
    cases writes
  · obtain ⟨⟨directory, last⟩, -, writes⟩ := bind_eq_ok.mp writes
    obtain ⟨found, -, writes⟩ := bind_eq_ok.mp writes
    split at writes
    · cases writes
    · rename_i free
      cases writes
      exact free

theorem extends_of_writeBytes {t written : FileTree} {path : String} {bytes : List UInt8}
    (writes : t.writeBytes path bytes = .ok written) : written.Extends t := by
  obtain ⟨place, found, writes⟩ := bind_eq_ok.mp writes
  cases writes
  exact extends_put (free_of_placeToWrite found) (.file bytes)

/-- Only files are removed. -/
theorem extends_remove (t : FileTree) (path : String) : (t.remove path).Extends t := by
  unfold remove
  split
  · rename_i bytes place reads leads
    refine ⟨rfl, fun other here => ?_⟩
    obtain ⟨_, leads', reads⟩ := bind_eq_ok.mp reads
    rw [leads] at leads'
    cases leads'
    have elsewhere : other ≠ place := by
      rintro rfl
      rw [here] at reads
      cases reads
    by_cases top : other = []
    · rw [top]
      rfl
    · unfold entry? at here ⊢
      rw [if_neg top] at here ⊢
      rw [Assoc.get?_erase, if_neg elsewhere, here]
  · exact extends_refl t

/-- A change that somebody makes to a tree of files. -/
inductive Edit where
  | makeDirectories (path : String)
  | write (path : String) (bytes : List UInt8)
  | remove (path : String)

/-- The tree after an edit. One that is not possible changes nothing, but for directories that were
made on the way. -/
def edit (t : FileTree) : Edit → FileTree
  | .makeDirectories path => (t.makeDirectories path).files
  | .write path bytes => (t.writeBytes path bytes).toOption.getD t
  | .remove path => t.remove path

theorem extends_edit (t : FileTree) (e : Edit) : (t.edit e).Extends t := by
  cases e with
  | makeDirectories path => exact (keeps_makeDirectoriesUpTo _ t path).extends
  | write path bytes =>
    rw [edit]
    cases writes : t.writeBytes path bytes with
    | error e => exact extends_refl t
    | ok written => exact extends_of_writeBytes writes
  | remove path => exact extends_remove t path

/-- A file that is written can be seen on paths to its own place only. -/
theorem found?_put {t : FileTree} {place : Place} {bytes : List UInt8} {path : String}
    (free : t.entry? place ≠ some .directory)
    (elsewhere : ∀ other, t.resolve path = .ok other → other ≠ place) :
    (t.put place (.file bytes)).found? path = t.found? path := by
  have below := ne_top_of_free free
  have grown := extends_put free (.file bytes)
  have back : t.Extends (t.put place (.file bytes)) := by
    refine ⟨rfl, fun other here => ?_⟩
    rw [lookup_put t place other _ below] at here
    split at here
    · cases here
    · exact here
  cases leads : t.resolve path with
  | ok other =>
    rw [found?_of_resolve leads, found?_of_resolve (grown.resolve leads),
      lookup_put t place other _ below, if_neg (elsewhere other leads)]
  | error e =>
    cases leads' : (t.put place (.file bytes)).resolve path with
    | ok other =>
      rw [back.resolve leads'] at leads
      cases leads
    | error e' =>
      unfold found?
      rw [leads, leads']
      rfl

/-! ## Paths that end with a name -/

theorem stepsOf_eq_ok_iff {path : String} {names : List (List Char)} :
    stepsOf path = .ok names ↔
      path.toList ≠ [] ∧ '\x00' ∉ path.toList ∧ path.utf8ByteSize ≤ maxPathLength ∧
        names = Text.splitOn '/' path.toList := by
  unfold stepsOf
  rw [String.contains_char_eq]
  simp only [String.isEmpty_iff, decide_eq_true_eq, ne_eq, String.toList_eq_nil_iff]
  split
  · simp_all
  · split
    · simp_all
    · split
      · rename_i long
        exact iff_of_false nofun fun ⟨_, _, short, _⟩ => absurd long (by omega)
      · rw [Except.ok.injEq]
        simp_all [eq_comm]

/-- What is the start of a path is a path with the same beginning. -/
theorem stepsOf_of_append {path longer : String} {rest : List Char} {names : List (List Char)}
    (whole : longer.toList = path.toList ++ rest) (nonempty : path.toList ≠ [])
    (steps : stepsOf longer = .ok names) :
    stepsOf path = .ok (Text.splitOn '/' path.toList) := by
  obtain ⟨-, named, short, -⟩ := stepsOf_eq_ok_iff.mp steps
  have whole' : longer = path ++ String.ofList rest := by
    rw [← String.toList_inj, whole, String.toList_append, String.toList_ofList]
  rw [whole] at named
  rw [whole', String.utf8ByteSize_append] at short
  exact stepsOf_eq_ok_iff.mpr
    ⟨nonempty, fun isIn => named (List.mem_append_left _ isIn), by omega, rfl⟩

theorem origin_of_append {t : FileTree} {path longer : String} {rest : List Char}
    (whole : longer.toList = path.toList ++ rest) (nonempty : path.toList ≠ []) :
    t.origin longer = t.origin path := by
  have same : longer.startsWith "/" = path.startsWith "/" := by
    rw [Bool.eq_iff_iff, String.startsWith_string_iff, String.startsWith_string_iff, whole]
    obtain ⟨c, cs, chars⟩ := List.exists_cons_of_ne_nil nonempty
    simp [chars]
  unfold origin
  rw [same]

/-- A path that leads somewhere and ends with a name leads to the place of that name in the
directory to which the rest of the path leads. -/
theorem exists_directory_of_resolve {t : FileTree} {path : String} {place : Place}
    {before : List (List Char)} {name : List Char} (leads : t.resolve path = .ok place)
    (parted : Text.splitOn '/' path.toList = before ++ [name]) (long : 2 < name.length) :
    ∃ directory, t.walk (t.origin path) before = .ok directory ∧
      t.entry? directory = some .directory ∧ place = directory ++ [name] := by
  obtain ⟨names, steps, walks⟩ := bind_eq_ok.mp leads
  rw [(stepsOf_eq_ok_iff.mp steps).2.2.2, parted, walk_append] at walks
  obtain ⟨directory, first, last⟩ := bind_eq_ok.mp walks
  obtain ⟨next, step, done⟩ := bind_eq_ok.mp last
  cases done
  obtain ⟨named, forth⟩ := Artifacts.named_of_length long
  exact ⟨directory, first, directory_of_step step, place_of_step named forth step⟩

/-! ## Directories that are there -/

theorem hasDirectory_iff {t : FileTree} {path : String} :
    t.hasDirectory path = true ↔
      ∃ place, t.resolve path = .ok place ∧ t.entry? place = some .directory := by
  unfold hasDirectory
  split
  · rename_i place leads
    simp [leads]
  · rename_i e leads
    simp [leads]

theorem Extends.hasDirectory {t old : FileTree} (grown : t.Extends old) {path : String}
    (here : old.hasDirectory path = true) : t.hasDirectory path = true := by
  obtain ⟨place, leads, entry⟩ := hasDirectory_iff.mp here
  exact hasDirectory_iff.mpr ⟨place, grown.resolve leads, grown.directories place entry⟩

/-- A path leads where its last step leads from the directory before it. -/
theorem resolve_eq_ok_iff {t : FileTree} {path : String} {place : Place} :
    t.resolve path = .ok place ↔
      ∃ directory last, t.resolveLast path = .ok (directory, last) ∧
        t.step directory last = .ok place := by
  have parted {names : List (List Char)} (steps : stepsOf path = .ok names) :
      ∃ before last, names = before ++ [last] := by
    have nonempty : names ≠ [] := by
      rw [(stepsOf_eq_ok_iff.mp steps).2.2.2, Text.splitOn_eq]
      exact List.splitOn_ne_nil _ _
    obtain ⟨before, last, parts⟩ := (List.eq_nil_or_concat names).resolve_left nonempty
    exact ⟨before, last, by rw [parts, List.concat_eq_append]⟩
  constructor
  · intro leads
    obtain ⟨names, steps, walks⟩ := bind_eq_ok.mp leads
    obtain ⟨before, last, rfl⟩ := parted steps
    rw [walk_append] at walks
    obtain ⟨directory, first, walks⟩ := bind_eq_ok.mp walks
    obtain ⟨next, step, done⟩ := bind_eq_ok.mp walks
    cases done
    refine ⟨directory, last, ?_, step⟩
    refine bind_eq_ok.mpr ⟨_, steps, bind_eq_ok.mpr ⟨directory, ?_, ?_⟩⟩
    · rwa [List.dropLast_concat]
    · rw [List.getLast?_concat]
      rfl
  · rintro ⟨directory, last, resolves, step⟩
    obtain ⟨names, steps, resolves⟩ := bind_eq_ok.mp resolves
    obtain ⟨found, first, same⟩ := bind_eq_ok.mp resolves
    obtain ⟨before, final, rfl⟩ := parted steps
    rw [List.getLast?_concat] at same
    cases same
    rw [List.dropLast_concat] at first
    refine bind_eq_ok.mpr ⟨_, steps, ?_⟩
    rw [walk_append, first]
    exact bind_eq_ok.mpr ⟨_, rfl, bind_eq_ok.mpr ⟨place, step, rfl⟩⟩

/-- A directory that is there is not made again. -/
theorem makeDirectory_of_hasDirectory {t : FileTree} {path : String}
    (here : t.hasDirectory path = true) : t.makeDirectory path = .error .occupied := by
  obtain ⟨place, leads, entry⟩ := hasDirectory_iff.mp here
  obtain ⟨directory, last, resolves, step⟩ := resolve_eq_ok_iff.mp leads
  simp only [makeDirectory, resolves, step, bind, Except.bind, entry, Option.isSome_some,
    or_true, if_true]
  rfl

theorem makeDirectories_of_hasDirectory {t : FileTree} {path : String}
    (here : t.hasDirectory path = true) : t.makeDirectories path = { files := t } := by
  have ensured : t.ensureDirectory path = { files := t } := by
    simp [ensureDirectory, makeDirectory_of_hasDirectory here, here]
  unfold makeDirectories makeDirectoriesUpTo
  split
  · rfl
  · rw [ensured]

theorem extends_save (t : FileTree) (path text : String) : (t.save path text).files.Extends t := by
  unfold save
  have made : (t.makeDirectories ((Path.parent? path).getD "")).files.Extends t :=
    (keeps_makeDirectoriesUpTo _ _ _).extends
  split
  · rename_i files change
    rw [change] at made
    split
    · rename_i written writes
      exact (extends_of_writeBytes writes).trans made
    · exact made
  · exact made

/-! ## The page of a test file -/

section
variable {t : FileTree} {source : String}

/-- Where snapshots can be seen, their directory is there. -/
theorem hasDirectory_of_found?
    (found : (t.found? (Artifacts.ofSource source).snapshotFile).isSome) :
    t.hasDirectory (Artifacts.ofSource source).directory = true := by
  obtain ⟨place, leads⟩ := exists_resolve_of_found? found
  obtain ⟨directory, walks, entry, -⟩ :=
    exists_directory_of_resolve leads (Artifacts.splitOn_snapshotFile source) (by simp)
  obtain ⟨names, steps, -⟩ := bind_eq_ok.mp leads
  have whole := Artifacts.toList_snapshotFile source
  have nonempty : (Artifacts.ofSource source).directory.toList ≠ [] := by
    obtain ⟨front, ends⟩ := Artifacts.exists_toList_directory source
    simp [ends, Artifacts.directoryName]
  rw [origin_of_append whole nonempty] at walks
  refine hasDirectory_iff.mpr ⟨directory, ?_, entry⟩
  exact bind_eq_ok.mpr ⟨_, stepsOf_of_append whole nonempty steps, walks⟩

/-- A file is written at the place of the last name of its path. -/
theorem exists_of_placeToWrite {path : String} {place : Place} {before : List (List Char)}
    {name : List Char} (writes : t.placeToWrite path = .ok place)
    (parted : Text.splitOn '/' path.toList = before ++ [name]) (long : 2 < name.length) :
    ∃ directory, place = directory ++ [name] := by
  unfold placeToWrite at writes
  obtain ⟨_, -, writes⟩ := bind_eq_ok.mp writes
  split at writes
  · obtain ⟨_, -, writes⟩ := bind_eq_ok.mp writes
    obtain ⟨_, -, writes⟩ := bind_eq_ok.mp writes
    cases writes
  · obtain ⟨⟨directory, last⟩, resolves, writes⟩ := bind_eq_ok.mp writes
    obtain ⟨found, step, writes⟩ := bind_eq_ok.mp writes
    split at writes
    · cases writes
    · cases writes
      obtain ⟨names, steps, resolves⟩ := bind_eq_ok.mp resolves
      obtain ⟨_, -, resolves⟩ := bind_eq_ok.mp resolves
      cases resolves
      rw [(stepsOf_eq_ok_iff.mp steps).2.2.2, parted, List.getLast?_concat,
        Option.getD_some] at step
      obtain ⟨named, forth⟩ := Artifacts.named_of_length long
      exact ⟨_, place_of_step named forth step⟩

/-- Where the directory of the artifacts is there, storing the page changes nothing that can be
seen on paths with another name at their end. -/
theorem found?_save_page {path html : String} {before : List (List Char)} {name : List Char}
    (here : t.hasDirectory (Artifacts.ofSource source).directory = true)
    (parted : Text.splitOn '/' path.toList = before ++ [name]) (long : 2 < name.length)
    (other : name ≠ Artifacts.pageName.toList) :
    (t.save (Artifacts.ofSource source).page html).files.found? path = t.found? path := by
  have made : t.makeDirectories ((Path.parent? (Artifacts.ofSource source).page).getD "") =
      { files := t } := by
    rw [Artifacts.parent?_page, Option.getD_some, makeDirectories_of_hasDirectory here]
  unfold save
  rw [made]
  dsimp only
  split
  · rename_i written writes
    obtain ⟨place, found, writes⟩ := bind_eq_ok.mp writes
    cases writes
    obtain ⟨directory, rfl⟩ :=
      exists_of_placeToWrite found (Artifacts.splitOn_page source) (by decide)
    refine found?_put (free_of_placeToWrite found) fun elsewhere leads same => ?_
    obtain ⟨_, -, -, rfl⟩ := exists_directory_of_resolve leads parted long
    exact other (by simpa using (List.append_inj' same rfl).2)
  · rfl

end

end FileTree

/-! ## Reading -/

namespace FileTree

theorem readBytes_congr {t t' : FileTree} {path : String} (same : t.found? path = t'.found? path)
    (found : (t.found? path).isSome) : t.readBytes path = t'.readBytes path := by
  obtain ⟨place, leads⟩ := exists_resolve_of_found? found
  obtain ⟨place', leads'⟩ := exists_resolve_of_found? (same ▸ found)
  rw [found?_of_resolve leads, found?_of_resolve leads'] at same
  simp only [readBytes, leads, leads', bind, Except.bind, same]

end FileTree

namespace Storage
variable {t t' : FileTree} {path : String}

/-- Loading depends only on what stands where the path leads. -/
theorem readText_congr (same : t.found? path = t'.found? path) :
    readText t path = readText t' path := by
  unfold readText
  rw [FileTree.contains_eq, FileTree.contains_eq, same]
  split
  · rename_i found
    have reads : t.readText path = t'.readText path := by
      rw [FileTree.readText, FileTree.readText, FileTree.readBytes_congr same (same ▸ found)]
    rw [reads]
  · rfl

theorem loadRecord_congr (same : t.found? path = t'.found? path) :
    loadRecord t path = loadRecord t' path := by
  unfold loadRecord
  rw [readText_congr same]

/-- Snapshots are loaded only from what is there. -/
theorem found?_of_loadRecord {record : Record} (loads : loadRecord t path = .ok record) :
    (t.found? path).isSome := by
  obtain ⟨text, reads, -⟩ := bind_eq_ok.mp loads
  unfold readText at reads
  split at reads
  · rw [← FileTree.contains_eq]
    assumption
  · cases reads

/-! ### Failures -/

/-- A file holds no snapshots: nothing stands at the path, it cannot be read as text, or its text is
malformed. -/
def IsUnusable (t : FileTree) (path : String) : Prop :=
  t.contains path = false ∨ (∃ cause, t.readText path = .error cause) ∨
    ∃ text cause, t.readText path = .ok text ∧ SnapFile.parse text = .error cause

theorem readText_eq_error_iff {e : LoadError} :
    readText t path = .error e ↔
      (t.contains path = false ∧ e = .notFound path) ∨
        t.contains path = true ∧ ∃ cause, t.readText path = .error cause ∧ e = .unreadable cause := by
  unfold readText
  cases t.contains path with
  | false => simp [eq_comm]
  | true => cases t.readText path <;> simp [eq_comm]

theorem readText_eq_ok_iff {text : String} :
    readText t path = .ok text ↔ t.contains path = true ∧ t.readText path = .ok text := by
  unfold readText
  cases t.contains path with
  | false => simp
  | true => cases t.readText path <;> simp

/-- Loading snapshots fails for a file that is missing, cannot be read or is malformed, and says
which. -/
theorem loadRecord_eq_error_iff {e : LoadError} :
    loadRecord t path = .error e ↔
      (t.contains path = false ∧ e = .notFound path) ∨
        (t.contains path = true ∧ ∃ cause, t.readText path = .error cause ∧ e = .unreadable cause) ∨
        t.contains path = true ∧ ∃ text cause, t.readText path = .ok text ∧
          SnapFile.parse text = .error cause ∧ e = .invalid path cause := by
  rw [loadRecord, bind_eq_error, readText_eq_error_iff, or_assoc]
  refine or_congr_right (or_congr_right ?_)
  constructor
  · rintro ⟨text, reads, fails⟩
    obtain ⟨there, reads⟩ := readText_eq_ok_iff.mp reads
    cases parsed : SnapFile.parse text with
    | ok record => simp [parsed, pure, Except.pure] at fails
    | error cause =>
      simp only [parsed] at fails
      cases fails
      exact ⟨there, text, cause, reads, parsed, rfl⟩
  · rintro ⟨there, text, cause, reads, malformed, rfl⟩
    refine ⟨text, readText_eq_ok_iff.mpr ⟨there, reads⟩, ?_⟩
    simp only [malformed]
    rfl

theorem exists_loadRecord_eq_error_iff (t : FileTree) (path : String) :
    (∃ e, loadRecord t path = .error e) ↔ IsUnusable t path := by
  simp only [loadRecord_eq_error_iff]
  constructor
  · rintro ⟨e, ⟨missing, -⟩ | ⟨-, cause, unreadable, -⟩ | ⟨-, text, cause, reads, malformed, -⟩⟩
    · exact .inl missing
    · exact .inr (.inl ⟨cause, unreadable⟩)
    · exact .inr (.inr ⟨text, cause, reads, malformed⟩)
  · intro unusable
    cases there : t.contains path with
    | false => exact ⟨_, .inl ⟨rfl, rfl⟩⟩
    | true =>
      rcases unusable with missing | ⟨cause, unreadable⟩ | ⟨text, cause, reads, malformed⟩
      · rw [there] at missing
        cases missing
      · exact ⟨_, .inr (.inl ⟨rfl, cause, unreadable, rfl⟩)⟩
      · exact ⟨_, .inr (.inr ⟨rfl, text, cause, reads, malformed, rfl⟩)⟩

end Storage

end SnapshotPreview

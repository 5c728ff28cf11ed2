import Mathlib.Data.Option.Basic
import SnapshotPreview.Config
import SnapshotPreview.Proofs.Stored.Saving
import SnapshotPreview.Proofs.Toml.Documents

/-!
# Configurations that are saved and loaded

Whatever library writes and reads the documents, all settings are found again in what the document
of a configuration says (`holds_table`). So a configuration that was saved is loaded again as it was,
unless its directory of assets names variables or the home directory, which are expanded when it is
loaded. Saving fails for a count above `2 ^ 63 - 1`, for a directory that is no text, and where the
file cannot be written, and then leaves all files as they were (`load_after_save`).
-/

namespace SnapshotPreview

namespace Environment

/-- Without a dollar sign, no variable is named. -/
theorem expandVariables_of_noDollar (e : Environment) {cs : List Char} (noDollar : '$' ∉ cs) :
    e.expandVariables cs = some cs := by
  induction cs with
  | nil => rw [expandVariables]
  | cons c cs ih =>
    rw [List.mem_cons, not_or] at noDollar
    unfold expandVariables
    split
    · rename_i same
      cases same
    · rename_i same
      cases same
      exact absurd rfl noDollar.1
    · rename_i same
      cases same
      exact absurd rfl noDollar.1
    · rename_i same
      cases same
      exact absurd rfl noDollar.1
    · rename_i same
      cases same
      rw [ih noDollar.2]
      rfl

/-- Without a dollar sign, and without a tilde at its start, a path stays as it is. -/
theorem expand_of_plain (e : Environment) {path : String} (noDollar : '$' ∉ path.toList)
    (noTilde : path.toList.head? ≠ some '~') : e.expand path = some path := by
  have stays : e.expandHome path.toList = path.toList := by
    unfold expandHome
    split
    · rename_i begins
      rw [begins] at noTilde
      exact absurd rfl noTilde
    · rfl
  rw [expand, expandVariables_of_noDollar e noDollar, Option.map_some]
  simp [stays]

end Environment

namespace OsPath

theorem text?_eq_some_iff {p : OsPath} {s : String} : p.text? = some s ↔ p = ofText s := by
  obtain ⟨bytes⟩ := p
  rw [text?, String.fromUTF8?]
  constructor
  · intro isText
    split at isText
    · cases isText
      rfl
    · cases isText
  · intro same
    cases same
    exact dif_pos s.isValidUTF8

theorem display_ofText (s : String) : (ofText s).display = s := by
  rw [display, ofText, Text.toList_bytesOf, Text.decodeLossy_encode, String.ofList_toList]

end OsPath

namespace Config

open Toml (Item Library bodyOf get?_bodyOf entriesSound_iff entriesSound_bodyOf)

/-! ## The document of a configuration -/

/-- The names of the settings, in the order in which they are written. -/
def settingNames : List String :=
  ["update_test_command", "update_file_command", "save_html", "preview_count", "css",
    "public_path", "story_server_url", "reserialize_structured"]

/-- The names of the kinds of calls. -/
def callNames : List String := ["tests", "suites", "assertions"]

theorem keys_optionalEntry_sublist (key : String) (value : Option String) :
    (Assoc.keys (optionalEntry key value)).Sublist [key] := by
  cases value with
  | none => exact List.nil_sublist _
  | some s => exact List.Sublist.refl _

theorem keys_entries_sublist (c : Config) (publicPath : Option String) :
    (Assoc.keys (c.toSheet publicPath).entries).Sublist settingNames := by
  simp only [Assoc.keys, toSheet, List.map_append]
  exact ((((keys_optionalEntry_sublist _ _).append (keys_optionalEntry_sublist _ _)).append
    (List.Sublist.refl _)).append (keys_optionalEntry_sublist _ _)).append (List.Sublist.refl _)

theorem isProper_toSheet (c : Config) (publicPath : Option String) :
    (c.toSheet publicPath).IsProper where
  bare entry isIn := by
    have bare : ∀ key ∈ settingNames, Toml.IsBareKey key := Text.forall_mem_of_all (by decide)
    exact bare entry.1 ((keys_entries_sublist c publicPath).subset (List.mem_map_of_mem isIn))
  headers table isIn := by
    obtain rfl := List.mem_singleton.mp isIn
    exact (by decide : Toml.IsBareKey "calls")
  bareBodies table isIn entry inBody := by
    obtain rfl := List.mem_singleton.mp isIn
    have bare : ∀ key ∈ callNames, Toml.IsBareKey key := Text.forall_mem_of_all (by decide)
    exact bare entry.1 (List.mem_map_of_mem inBody)
  distinct := by
    have names : Assoc.keys (c.toSheet publicPath).table =
        Assoc.keys (c.toSheet publicPath).entries ++ ["calls"] := by
      rw [Toml.Sheet.table, Assoc.keys_append, Toml.keys_bodyOf]
      rfl
    have distinct : (settingNames ++ ["calls"]).Nodup := by decide
    rw [names]
    exact distinct.sublist ((keys_entries_sublist c publicPath).append (List.Sublist.refl _))
  distinctBodies table isIn := by
    obtain rfl := List.mem_singleton.mp isIn
    have distinct : callNames.Nodup := by decide
    rwa [Toml.keys_bodyOf]

theorem numbers_optionalEntry (key : String) (value : Option String) :
    (optionalEntry key value).flatMap (·.2.numbers) = [] := by
  cases value with
  | none => rfl
  | some s => rfl

/-- The only number of a configuration is its count. -/
theorem numbers_toSheet (c : Config) (publicPath : Option String) :
    (c.toSheet publicPath).numbers = [c.previewCount] := by
  have tables : (c.toSheet publicPath).tables.flatMap (·.2) =
      [("tests", .texts c.calls.tests), ("suites", .texts c.calls.suites),
        ("assertions", .texts c.calls.assertions)] := rfl
  rw [Toml.Sheet.numbers, tables, toSheet]
  simp only [List.flatMap_append, numbers_optionalEntry]
  rfl

/-! ## Settings that are found again -/

theorem entriesSound_table (c : Config) (publicPath : Option String) :
    Toml.entriesSound ((c.toSheet publicPath).table.filter (·.1 != "calls")) = true := by
  refine entriesSound_iff.mpr fun entry isIn => ?_
  rcases List.mem_append.mp (List.mem_filter.mp isIn).1 with isEntry | isTable
  · exact entriesSound_iff.mp (entriesSound_bodyOf _) entry isEntry
  · obtain ⟨table, -, rfl⟩ := List.mem_map.mp isTable
    exact entriesSound_bodyOf table.2

theorem text?_string (s : String) : text? (.string s) = some s := rfl

theorem flag?_boolean (b : Bool) : flag? (.boolean b) = some b := rfl

theorem texts?_map (l : List String) : texts? (.array (l.map .string)) = some l := by
  rw [texts?]
  induction l with
  | nil => rfl
  | cons s l ih => rw [List.map_cons, List.mapM_cons, ih]; rfl

theorem get?_optionalEntry (key k : String) (value : Option String) :
    Assoc.get? key (optionalEntry k value) = if k = key then value.map .text else none := by
  cases value with
  | none => simp [optionalEntry, Assoc.get?]
  | some s => simp [optionalEntry, Assoc.get?]

theorem setting_of_get? {α : Type} {entries : Toml.Entries} {key : String} {v : Toml.Value}
    (found : Assoc.get? key entries = some v) (usual : α) (read : Toml.Value → Option α) :
    setting entries key usual read = read v := by
  rw [setting, found]

theorem optional_of_get? {entries : Toml.Entries} {key : String} {value : Option String}
    (found : Assoc.get? key entries = value.map .string) :
    setting entries key none (fun v => (text? v).map some) = some value := by
  rw [setting, found]
  cases value with
  | none => rfl
  | some s => rfl

/-- The table of calls. -/
def callsValue (calls : Vocabulary) : Toml.Value :=
  .table .header (bodyOf [("tests", .texts calls.tests), ("suites", .texts calls.suites),
    ("assertions", .texts calls.assertions)])

/-- A table in which all settings of a configuration are found, its directory of assets by its
text. -/
structure Holds (entries : Toml.Entries) (c : Config) (publicPath : Option String) : Prop where
  updateTestCommand :
    Assoc.get? "update_test_command" entries = c.updateTestCommand.map .string
  updateFileCommand :
    Assoc.get? "update_file_command" entries = c.updateFileCommand.map .string
  saveHtml : Assoc.get? "save_html" entries = some (.boolean c.saveHtml)
  previewCount : Assoc.get? "preview_count" entries = some (.integer c.previewCount)
  css : Assoc.get? "css" entries = some (.string c.css)
  publicPath : Assoc.get? "public_path" entries = publicPath.map .string
  storyServerUrl : Assoc.get? "story_server_url" entries = some (.string c.storyServerUrl)
  reserializeStructured :
    Assoc.get? "reserialize_structured" entries = some (.boolean c.reserializeStructured)
  calls : Assoc.get? "calls" entries = some (callsValue c.calls)

theorem holds_table (c : Config) (publicPath : Option String) :
    Holds (c.toSheet publicPath).table c publicPath := by
  have get (key : String) : Assoc.get? key (c.toSheet publicPath).table =
      ((Assoc.get? key (c.toSheet publicPath).entries).map Item.value).or
        (if "calls" = key then some (callsValue c.calls) else none) := by
    rw [Toml.Sheet.table, Assoc.get?_append, get?_bodyOf]
    rfl
  -- The keys are told apart by their names, whichever of the settings are there.
  constructor
  all_goals
    rw [get]
    simp [toSheet, Assoc.get?_append, get?_optionalEntry, Assoc.get?, Item.value, Function.comp_def]

theorem calls?_callsValue (calls : Vocabulary) : calls? (callsValue calls) = some calls := by
  rw [callsValue, calls?, entriesSound_bodyOf]
  simp [setting, get?_bodyOf, Assoc.get?, Item.value, texts?_map]

theorem ofEntries?_of_holds {entries : Toml.Entries} {c : Config} {publicPath : Option String}
    (holds : Holds entries c publicPath) (small : c.previewCount < 2 ^ 64)
    (sound : Toml.entriesSound (entries.filter (·.1 != "calls")) = true) :
    ofEntries? entries = some { c with publicPath := publicPath.map .ofText } := by
  have count : count? (.integer c.previewCount) = some c.previewCount := by
    have bounds : 0 ≤ (c.previewCount : Int) ∧ (c.previewCount : Int) < Int.ofNat (Nat.pow 2 64) :=
      ⟨Int.natCast_nonneg _, Int.ofNat_lt.mpr small⟩
    rw [count?, if_pos bounds, Int.toNat_natCast]
  simp only [ofEntries?, sound, guard_true, optional_of_get? holds.updateTestCommand,
    optional_of_get? holds.updateFileCommand, setting_of_get? holds.saveHtml,
    setting_of_get? holds.previewCount, setting_of_get? holds.css,
    optional_of_get? holds.publicPath, setting_of_get? holds.storyServerUrl,
    setting_of_get? holds.reserializeStructured, setting_of_get? holds.calls,
    calls?_callsValue, count, text?_string, flag?_boolean, Option.pure_def, Option.bind_eq_bind,
    Option.bind_some]

/-! ## Directories of assets -/

/-- The directory of assets, if there is one, is a text. -/
def HasTextPath (c : Config) : Prop := ∀ path ∈ c.publicPath, ∃ s, path = .ofText s

/-- The directory of assets, if there is one, names neither variables nor the home directory: it has
no dollar sign, and no tilde at its start. -/
def HasPlainPath (c : Config) : Prop :=
  ∀ path ∈ c.publicPath, Text.byte '$' ∉ path.bytes ∧ path.bytes.head? ≠ some (Text.byte '~')

theorem expandPaths_of_hasPlainPath {c : Config} (isText : c.HasTextPath) (plain : c.HasPlainPath)
    (e : Environment) : c.expandPaths e = c := by
  unfold expandPaths
  cases given : c.publicPath with
  | none => rw [Option.map_none, ← given]
  | some path =>
    obtain ⟨s, rfl⟩ := isText path given
    obtain ⟨noDollar, noTilde⟩ := plain _ given
    rw [OsPath.ofText, Text.toList_bytesOf] at noDollar noTilde
    have stays : e.expand s = some s := by
      refine e.expand_of_plain (fun isIn => noDollar ?_) (fun begins => noTilde ?_)
      · exact (Text.byte_mem_encode_iff (by decide)).mpr isIn
      · obtain ⟨rest, parts⟩ := List.head?_eq_some_iff.mp begins
        rw [parts, Text.encode_cons_of_ascii (by decide), List.head?_cons]
    rw [Option.map_some, OsPath.display_ofText, stays, Option.map_some, Option.getD_some, ← given]

/-! ## Texts of configurations -/

theorem mapM_text?_eq_some_iff {path : Option OsPath} {text : Option String} :
    path.mapM OsPath.text? = some text ↔ path = text.map .ofText := by
  cases path with
  | none => cases text <;> simp
  | some p => cases text <;> simp [OsPath.text?_eq_some_iff]

theorem hasTextPath_iff {c : Config} :
    c.HasTextPath ↔ ∃ publicPath : Option String, c.publicPath = publicPath.map .ofText := by
  unfold HasTextPath
  constructor
  · intro isText
    cases given : c.publicPath with
    | none => exact ⟨none, rfl⟩
    | some path =>
      obtain ⟨s, rfl⟩ := isText path given
      exact ⟨some s, rfl⟩
  · rintro ⟨publicPath, same⟩ path given
    rw [same] at given
    obtain ⟨s, -, rfl⟩ := Option.map_eq_some_iff.mp given
    exact ⟨s, rfl⟩

theorem toSheet?_of_eq {c : Config} {publicPath : Option String}
    (same : c.publicPath = publicPath.map .ofText) : c.toSheet? = some (c.toSheet publicPath) := by
  rw [toSheet?, mapM_text?_eq_some_iff.mpr same, Option.map_some]

theorem toSheet?_eq_none_iff {c : Config} : c.toSheet? = none ↔ ¬ c.HasTextPath := by
  rw [toSheet?, Option.map_eq_none_iff, Option.eq_none_iff_forall_ne_some, hasTextPath_iff,
    not_exists]
  exact forall_congr' fun text => not_congr mapM_text?_eq_some_iff

section
variable [Library]

/-- The text of a configuration says what the configuration is. -/
theorem exists_encode? (lawful : Library.IsLawful) {c : Config}
    (small : c.previewCount < 2 ^ 63) (isText : c.HasTextPath) :
    ∃ text, c.encode? = some text ∧ parse? text = some c := by
  obtain ⟨publicPath, same⟩ := hasTextPath_iff.mp isText
  have numbers : ∀ n ∈ (c.toSheet publicPath).numbers, n < 2 ^ 63 := by
    intro n isIn
    rw [numbers_toSheet, List.mem_singleton] at isIn
    rwa [isIn]
  obtain ⟨text, written, reads⟩ := lawful.read_of_written _ (isProper_toSheet c publicPath) numbers
  refine ⟨text, by rw [encode?, toSheet?_of_eq same, Option.bind_some, written], ?_⟩
  rw [parse?, reads, Option.bind_some, ofEntries?_of_holds (holds_table c publicPath)
    (Nat.lt_trans small (by decide)) (entriesSound_table c publicPath), ← same]

theorem encode?_of_large (lawful : Library.IsLawful) {c : Config}
    (large : 2 ^ 63 ≤ c.previewCount) : c.encode? = none := by
  rw [encode?, Option.bind_eq_none_iff]
  intro sheet given
  obtain ⟨publicPath, -, rfl⟩ := Option.map_eq_some_iff.mp given
  refine lawful.write_of_large _ c.previewCount ?_ large
  rw [numbers_toSheet]
  exact List.mem_cons_self

theorem encode?_eq_none_iff (lawful : Library.IsLawful) {c : Config} :
    c.encode? = none ↔ 2 ^ 63 ≤ c.previewCount ∨ ¬ c.HasTextPath := by
  constructor
  · intro refused
    by_contra other
    rw [not_or, not_not, Nat.not_le] at other
    obtain ⟨text, encoded, -⟩ := exists_encode? lawful other.1 other.2
    rw [refused] at encoded
    cases encoded
  · rintro (large | noText)
    · exact encode?_of_large lawful large
    · rw [encode?, toSheet?_eq_none_iff.mpr noText, Option.bind_none]

/-! ## Saving and loading -/

/-- A configuration that can be written down is saved as its text is. -/
theorem save_of_encode? {c : Config} {text : String} (encoded : c.encode? = some text)
    (files : FileTree) (path : String) :
    ((c.save files path).failure = none ↔ (files.save path text).failure = none) ∧
      (c.save files path).files = (files.save path text).files := by
  rw [save, FileTree.save]
  cases files.makeDirectories ((Path.parent? path).getD "") with
  | mk made failure =>
    cases failure with
    | some cause => exact ⟨by simp, rfl⟩
    | none =>
      simp only [encoded]
      cases made.writeText path text with
      | ok files => exact ⟨by simp, rfl⟩
      | error cause => exact ⟨by simp, rfl⟩

/-- One that cannot is not saved. All that is made are directories above the file. -/
theorem save_of_refused {c : Config} (refused : c.encode? = none) (files : FileTree)
    (path : String) :
    (c.save files path).failure ≠ none ∧
      (c.save files path).files =
        (files.makeDirectories ((Path.parent? path).getD "")).files := by
  rw [save]
  cases files.makeDirectories ((Path.parent? path).getD "") with
  | mk made failure =>
    cases failure with
    | some cause => exact ⟨nofun, rfl⟩
    | none =>
      rw [refused]
      exact ⟨nofun, rfl⟩

/-- Where a configuration could not be saved, all files are left as they were. -/
theorem readBytes_save_of_failure {c : Config} {files : FileTree} {path : String}
    (failed : (c.save files path).failure ≠ none) {other : String} {bytes : List UInt8}
    (old : files.readBytes other = .ok bytes) :
    (c.save files path).files.readBytes other = .ok bytes := by
  cases encoded : c.encode? with
  | none =>
    rw [(save_of_refused encoded files path).2]
    exact FileTree.readBytes_makeDirectories files _ old
  | some text =>
    obtain ⟨fails, same⟩ := save_of_encode? encoded files path
    rw [Ne, fails] at failed
    rw [same]
    exact FileTree.readBytes_save_of_failure failed old

/-- What was saved is loaded again as it was. -/
theorem load_of_saved (lawful : Library.IsLawful) {c : Config} (plain : c.HasPlainPath)
    {files : FileTree} {path : String} (saved : (c.save files path).failure = none)
    (e : Environment) : load (c.save files path).files e path = .ok (some c) := by
  have encodes : c.encode? ≠ none := fun refused => (save_of_refused refused files path).1 saved
  rw [Ne, encode?_eq_none_iff lawful, not_or, not_not, Nat.not_le] at encodes
  obtain ⟨text, encoded, parses⟩ := exists_encode? lawful encodes.1 encodes.2
  obtain ⟨fails, same⟩ := save_of_encode? encoded files path
  rw [fails] at saved
  have there : (files.save path text).files.contains path = true := by
    rw [FileTree.contains_eq, FileTree.found?_save saved]
    rfl
  rw [load, same, if_pos there, FileTree.readText_save saved]
  simp only [parses, expandPaths_of_hasPlainPath encodes.2 plain]

/-- A configuration whose count a signed number of 64 bits can hold is saved unless its directory of
assets is no text or no file can be saved at the path, and is then loaded again as it was. With a
larger count saving fails. Where saving fails, all files are left as they were. -/
theorem load_after_save (lawful : Library.IsLawful) (c : Config) (files : FileTree)
    (path : String) :
    (c.previewCount < 2 ^ 63 →
      ((c.save files path).failure = none ↔
        c.HasTextPath ∧ ∀ text, (files.save path text).failure = none) ∧
      ((c.save files path).failure = none → c.HasPlainPath →
        ∀ e, load (c.save files path).files e path = .ok (some c))) ∧
      (2 ^ 63 ≤ c.previewCount → (c.save files path).failure ≠ none) ∧
      ((c.save files path).failure ≠ none → ∀ other bytes, files.readBytes other = .ok bytes →
        (c.save files path).files.readBytes other = .ok bytes) := by
  refine ⟨fun small => ⟨⟨fun saved => ?_, fun ⟨isText, takes⟩ => ?_⟩, fun saved plain e => ?_⟩,
    fun large => ?_, fun failed other bytes old => ?_⟩
  · cases encoded : c.encode? with
    | none => exact absurd saved (save_of_refused encoded files path).1
    | some text =>
      have isText : c.HasTextPath := by
        by_contra noText
        rw [(encode?_eq_none_iff lawful).mpr (.inr noText)] at encoded
        cases encoded
      rw [(save_of_encode? encoded files path).1] at saved
      exact ⟨isText, fun other => (files.failure_save path other text).trans saved⟩
  · obtain ⟨text, encoded, -⟩ := exists_encode? lawful small isText
    exact (save_of_encode? encoded files path).1.mpr (takes text)
  · exact load_of_saved lawful plain saved e
  · exact (save_of_refused (encode?_of_large lawful large) files path).1
  · exact readBytes_save_of_failure failed old

end

/-- The largest count is loaded again. With a larger one, the file that was there stays. -/
theorem load_after_save_of_largestCount :
    letI := Library.signed
    let c : Config := { previewCount := 2 ^ 63 - 1, publicPath := some (.ofText "assets") }
    let larger : Config := { c with previewCount := 2 ^ 63 }
    let files :=
      (FileTree.ofDirectory "home").put ["home".toList, "config.toml".toList] (.file [120])
    ((c.save files "config.toml").failure = none ∧
      load (c.save files "config.toml").files {} "config.toml" = .ok (some c)) ∧
      (larger.save files "config.toml").failure ≠ none ∧
      (larger.save files "config.toml").files.readBytes "config.toml" = .ok [120] := by
  let := Library.signed
  intro c larger files
  have lawful : Library.IsLawful := Toml.isLawful_signed
  have named : FileTree.IsFileName "config.toml" := ⟨by decide, by decide, by decide⟩
  have isText : c.HasTextPath := by
    rintro path ⟨⟩
    exact ⟨"assets", rfl⟩
  have plain : c.HasPlainPath := by
    rintro path ⟨⟩
    decide
  have takes : ∀ text, (files.save "config.toml" text).failure = none :=
    FileTree.failure_save_of_isFileName named rfl (by decide)
  have old : files.readBytes "config.toml" = .ok [120] := by
    rw [FileTree.readBytes_eq_ok_iff, FileTree.found?_of_isFileName named rfl]
    rfl
  obtain ⟨saves, loads⟩ := (load_after_save lawful c files "config.toml").1 (by decide)
  obtain ⟨-, refused, kept⟩ := load_after_save lawful larger files "config.toml"
  have saved := saves.mpr ⟨isText, takes⟩
  have failed := refused (Nat.le_refl _)
  exact ⟨⟨saved, loads saved plain {}⟩, failed, kept failed "config.toml" [120] old⟩

end Config

end SnapshotPreview

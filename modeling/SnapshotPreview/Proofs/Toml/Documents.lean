import SnapshotPreview.Proofs.Records
import SnapshotPreview.Proofs.Toml.Items

/-!
# Documents that are written and read

A document that has been written is read as the table of its entries, followed by the tables with a
header (`parse_write`), provided that its keys need no quotes and differ from each other. With large
numbers refused, that makes a library as it is relied on (`isLawful_signed`).
-/

namespace SnapshotPreview.Toml

open Assoc (keys keys_append get?_eq_none_iff set_of_new)

/-! ## Keys -/

/-- No character of a key without quotes stands next. -/
def EndsKey (rest : List Char) : Prop := ∀ c ∈ rest.head?, isBareKeyChar c = false

theorem isSolid_of_isBareKeyChar {c : Char} (isPart : isBareKeyChar c = true) : IsSolid c :=
  isSolid_of_kind isPart (Text.forall_mem_of_all (by decide))

theorem isQuote_of_isBareKeyChar {c : Char} (isPart : isBareKeyChar c = true) :
    isQuote c = false := by
  have noDouble : c ≠ '"' := ne_of_kind isPart (by decide)
  have noSingle : c ≠ '\x27' := ne_of_kind isPart (by decide)
  rw [isQuote, beq_eq_false_iff_ne.mpr noDouble, beq_eq_false_iff_ne.mpr noSingle]
  rfl

section
variable {key : String} (bare : IsBareKey key) {rest : List Char}
include bare

/-- A key begins with a character that is not skipped. -/
theorem IsBareKey.exists_head :
    ∃ c more, key.toList = c :: more ∧ isBareKeyChar c = true := by
  obtain ⟨c, more, parts⟩ := List.exists_cons_of_ne_nil bare.1
  exact ⟨c, more, parts, bare.2 c (by rw [parts]; exact List.mem_cons_self)⟩

theorem readKey_bare (ends : EndsKey rest) : readKey (key.toList ++ rest) = some (key, rest) := by
  have taken := Text.takeWhile_append_of_ends bare.2 ends
  have dropped := Text.dropWhile_append_of_ends bare.2 ends
  have nonempty : key.toList.isEmpty = false := List.isEmpty_eq_false_iff.mpr bare.1
  obtain ⟨c, more, parts, isPart⟩ := bare.exists_head
  have string : String.ofList (c :: more) = key := by rw [← parts, String.ofList_toList]
  rw [parts, List.cons_append] at taken dropped ⊢
  rw [parts] at nonempty
  simp [readKey, isQuote_of_isBareKeyChar isPart, taken, dropped, string]

theorem readKeyPath_bare (ends : EndsKey rest) (noDot : (skipBlanks rest).head? ≠ some '.') :
    readKeyPath (key.toList ++ rest) = some (⟨[], key⟩, skipBlanks rest) := by
  have noMore (fuel : Nat) : readMoreKeys (fuel + 1) rest = some ([], skipBlanks rest) := by
    rw [readMoreKeys]
    split
    · rename_i dotted
      rw [dotted] at noDot
      exact absurd rfl noDot
    · rfl
  have reads := readKey_bare bare ends
  simp only [readKeyPath, reads, noMore, Option.bind_eq_bind, Option.bind_some]
  rfl

end

/-! ## Entries -/

/-- What is read for an entry that was written. -/
def entryOf (entry : String × Item) : Entry := (⟨[], entry.1⟩, entry.2.value)

theorem exists_head_writeItem (i : Item) : ∃ c more, writeItem i = c :: more ∧ IsSolid c := by
  match i with
  | .text s =>
    obtain ⟨quote, more, written, isOne⟩ := exists_quote s
    exact ⟨quote, more, written, isSolid_of_isQuote isOne⟩
  | .number n =>
    obtain ⟨all, c, more, digits, -⟩ := toDigits_facts n
    have digit : c.isDigit = true := all c (by rw [digits]; exact List.mem_cons_self)
    exact ⟨c, more, digits, isSolid_of_kind digit (Text.forall_mem_of_all (by decide))⟩
  | .flag true => exact ⟨_, _, rfl, by decide⟩
  | .flag false => exact ⟨_, _, rfl, by decide⟩
  | .texts [] => exact ⟨_, _, rfl, by decide⟩
  | .texts [s] => exact ⟨_, _, rfl, by decide⟩
  | .texts (s :: t :: l) => exact ⟨_, _, rfl, by decide⟩

theorem readEntry_writeEntry {entry : String × Item} (bare : IsBareKey entry.1)
    (fits : entry.2.Fits) (rest : List Char) :
    readEntry skipBlanks (readValue maxDepth) (writeEntry entry ++ rest) =
      some (entryOf entry, '\n' :: rest) := by
  obtain ⟨c, more, begins, solid⟩ := exists_head_writeItem entry.2
  have value := readValue_writeItem fits rest
  rw [begins, List.cons_append] at value
  have written : writeEntry entry ++ rest =
      entry.1.toList ++ ' ' :: '=' :: ' ' :: c :: (more ++ '\n' :: rest) := by
    simp [writeEntry, begins]
  have equals (cs : List Char) : skipBlanks (' ' :: '=' :: cs) = '=' :: cs := by
    rw [skipBlanks_blank rfl, skipBlanks_solid (by decide)]
  have behind : skipBlanks (' ' :: c :: (more ++ '\n' :: rest)) = c :: (more ++ '\n' :: rest) := by
    rw [skipBlanks_blank rfl, skipBlanks_solid solid]
  have path : readKeyPath (writeEntry entry ++ rest) =
      some (⟨[], entry.1⟩, '=' :: ' ' :: c :: (more ++ '\n' :: rest)) := by
    rw [written, readKeyPath_bare bare (fun d same => by cases same; decide), equals]
    rw [equals]
    exact fun same => absurd (Option.some.inj same) (by decide)
  rw [readEntry, path]
  simp [readChar, skipBlanks_solid (show IsSolid '=' by decide), behind, value, entryOf]

theorem exists_head_writeEntry {entry : String × Item} (bare : IsBareKey entry.1)
    (rest : List Char) :
    ∃ c more, writeEntry entry ++ rest = c :: more ∧ isBareKeyChar c = true := by
  obtain ⟨c, more, parts, isPart⟩ := bare.exists_head
  refine ⟨c, more ++ (" = ".toList ++ (writeItem entry.2 ++ '\n' :: rest)), ?_, isPart⟩
  simp [writeEntry, parts]

/-- Entries are read up to the end of the document, or up to a header. -/
theorem readEntries_write {entries : List (String × Item)}
    (bare : ∀ entry ∈ entries, IsBareKey entry.1) (fits : ∀ entry ∈ entries, entry.2.Fits)
    {fuel : Nat} (enough : entries.length < fuel) {rest tail : List Char}
    (next : skipGap rest = tail) (stops : tail = [] ∨ ∃ more, tail = '[' :: more) :
    readEntries fuel (entries.flatMap writeEntry ++ rest) = some (entries.map entryOf, tail) := by
  obtain ⟨fuel, rfl⟩ := Nat.exists_eq_succ_of_ne_zero (Nat.ne_zero_of_lt enough)
  induction entries generalizing fuel with
  | nil =>
    rw [List.flatMap_nil, List.nil_append, readEntries, next]
    rcases stops with rfl | ⟨more, rfl⟩
    · rfl
    · rfl
  | cons entry entries ih =>
    -- The end of its line is taken with each entry.
    rw [List.forall_mem_cons] at bare fits
    rw [List.length_cons, Nat.add_lt_add_iff_right] at enough
    obtain ⟨fuel, rfl⟩ := Nat.exists_eq_succ_of_ne_zero (Nat.ne_zero_of_lt enough)
    obtain ⟨c, more, begins, isPart⟩ :=
      exists_head_writeEntry bare.1 (entries.flatMap writeEntry ++ rest)
    have reads := readEntry_writeEntry bare.1 fits.1 (entries.flatMap writeEntry ++ rest)
    have goesOn : c ≠ '[' := ne_of_kind isPart (by decide)
    rw [begins] at reads
    rw [List.flatMap_cons, List.append_assoc, begins, readEntries,
      skipGap_solid (isSolid_of_isBareKeyChar isPart)]
    simp only [goesOn, if_false, reads, endLine?_feed, Option.bind_eq_bind, Option.bind_some,
      ih bare.2 fits.2 fuel enough]
    rfl

/-! ## Headers -/

/-- What is read for a table with its header. -/
def headedOf (table : String × List (String × Item)) : HeadedTable where
  path := ⟨[], table.1⟩
  repeated := false
  entries := table.2.map entryOf

/-- A table with its header that can be read: no key needs quotes, its own included, and all numbers
fit. -/
structure IsReadable (table : String × List (String × Item)) : Prop where
  header : IsBareKey table.1
  bare : ∀ entry ∈ table.2, IsBareKey entry.1
  fits : ∀ entry ∈ table.2, entry.2.Fits

theorem writeTable_append (table : String × List (String × Item)) (rest : List Char) :
    writeTable table ++ rest =
      '\n' :: '[' :: (table.1.toList ++ ']' :: '\n' :: (table.2.flatMap writeEntry ++ rest)) := by
  simp [writeTable]

/-- Tables begin with a header, after an empty line. -/
theorem writeTables_cases (tables : List (String × List (String × Item))) :
    tables.flatMap writeTable = [] ∨ ∃ more, tables.flatMap writeTable = '\n' :: '[' :: more := by
  cases tables with
  | nil => exact .inl rfl
  | cons table tables =>
    rw [List.flatMap_cons, writeTable_append]
    exact .inr ⟨_, rfl⟩

theorem skipGap_writeTables (tables : List (String × List (String × Item))) :
    skipGap (tables.flatMap writeTable) = (tables.flatMap writeTable).drop 1 := by
  rcases writeTables_cases tables with none | ⟨more, begins⟩
  · rw [none, skipGap]
    rfl
  · rw [begins, skipGap_feed, skipGap_solid (by decide)]
    rfl

/-- Entries with tables after them are read up to the first header. -/
theorem readEntries_writeTables {entries : List (String × Item)}
    (bare : ∀ entry ∈ entries, IsBareKey entry.1) (fits : ∀ entry ∈ entries, entry.2.Fits)
    (tables : List (String × List (String × Item))) :
    readEntries ((entries.flatMap writeEntry ++ tables.flatMap writeTable).length + 1)
        (entries.flatMap writeEntry ++ tables.flatMap writeTable) =
      some (entries.map entryOf, (tables.flatMap writeTable).drop 1) := by
  have least : entries.length ≤ (entries.flatMap writeEntry).length := by
    refine length_le_flatMap fun entry isIn none => ?_
    obtain ⟨c, more, begins, -⟩ := exists_head_writeEntry (bare entry isIn) []
    rw [none] at begins
    cases begins
  refine readEntries_write bare fits (by rw [List.length_append]; omega)
    (skipGap_writeTables tables) ?_
  rcases writeTables_cases tables with none | ⟨more, begins⟩
  · exact .inl (by rw [none]; rfl)
  · exact .inr ⟨more, by rw [begins]; rfl⟩

theorem readHeader_write {name : String} (bare : IsBareKey name) (rest : List Char) :
    readHeader (name.toList ++ ']' :: '\n' :: rest) = some (⟨[], name⟩, false, rest) := by
  have bracket : skipBlanks (']' :: '\n' :: rest) = ']' :: '\n' :: rest :=
    skipBlanks_solid (by decide) _
  have path := readKeyPath_bare bare (show EndsKey (']' :: '\n' :: rest) from
    fun c same => by cases same; decide) (by rw [bracket]; exact fun same => by cases same)
  obtain ⟨c, more, begins, isPart⟩ := bare.exists_head
  rw [begins, List.cons_append] at path ⊢
  unfold readHeader
  split
  · rename_i same
    cases same
    cases isPart
  · rw [skipBlanks_solid (isSolid_of_isBareKeyChar isPart), path, bracket]
    simp [readChar, endLine?_feed]

theorem readHeaded_write {tables : List (String × List (String × Item))}
    (bare : ∀ table ∈ tables, IsReadable table) {fuel : Nat} (enough : tables.length ≤ fuel) :
    readHeaded fuel ((tables.flatMap writeTable).drop 1) = some (tables.map headedOf) := by
  induction tables generalizing fuel with
  | nil =>
    rw [List.flatMap_nil, List.drop_nil, readHeaded]
    rfl
  | cons table tables ih =>
    rw [List.forall_mem_cons] at bare
    obtain ⟨fuel, rfl⟩ := Nat.exists_eq_succ_of_ne_zero (Nat.ne_zero_of_lt enough)
    rw [List.length_cons, Nat.add_le_add_iff_right] at enough
    rw [List.flatMap_cons, writeTable_append, List.drop_one, List.tail_cons, readHeaded,
      if_pos rfl, readHeader_write bare.1.header]
    simp only [Option.bind_eq_bind, Option.bind_some,
      readEntries_writeTables bare.1.bare bare.1.fits, ih bare.2 enough]
    rfl

/-! ## Tables -/

theorem new_of_distinct {old new : Entries} {key : String} {v : Value}
    (distinct : (keys (old ++ (key, v) :: new)).Nodup) : key ∉ keys old := by
  intro isIn
  rw [keys_append, Assoc.keys_cons] at distinct
  exact (List.nodup_append.mp distinct).2.2 key isIn key List.mem_cons_self rfl

theorem add_of_new {old : Entries} {key : String} (new : key ∉ keys old) (v : Value) :
    old.add ⟨[], key⟩ v = some (old ++ [(key, v)]) := by
  simp [Entries.add, Entries.descend, get?_eq_none_iff.mpr new, set_of_new v new]

theorem addAll_cons (old : Entries) (entry : Entry) (more : List Entry) :
    Entries.addAll old (entry :: more) =
      (old.add entry.1 entry.2).bind fun old => Entries.addAll old more := rfl

theorem addAll_of_new {old : Entries} {entries : List (String × Item)}
    (distinct : (keys (old ++ bodyOf entries)).Nodup) :
    Entries.addAll old (entries.map entryOf) = some (old ++ bodyOf entries) := by
  induction entries generalizing old with
  | nil =>
    rw [show bodyOf [] = [] from rfl, List.append_nil]
    rfl
  | cons entry entries ih =>
    have cut : old ++ bodyOf (entry :: entries) =
        (old ++ [(entry.1, entry.2.value)]) ++ bodyOf entries := by
      rw [List.append_assoc]
      rfl
    have first := add_of_new (new_of_distinct distinct) entry.2.value
    rw [cut] at distinct ⊢
    rw [List.map_cons, addAll_cons, entryOf, first, Option.bind_some, ih distinct]

theorem addHeaded_of_new {old : Entries} {table : String × List (String × Item)}
    (new : table.1 ∉ keys old) (distinct : (keys (bodyOf table.2)).Nodup) :
    old.addHeaded (headedOf table) =
      some (old ++ [(table.1, .table .header (bodyOf table.2))]) := by
  have body : Entries.addAll [] (table.2.map entryOf) = some (bodyOf table.2) :=
    addAll_of_new distinct
  simp [Entries.addHeaded, headedOf, Entries.addTable, Entries.descend,
    get?_eq_none_iff.mpr new, body, set_of_new _ new]

theorem addAllHeaded_of_new {old : Entries} {tables : List (String × List (String × Item))}
    (distinct : (keys (old ++ tablesOf tables)).Nodup)
    (bodies : ∀ table ∈ tables, (keys (bodyOf table.2)).Nodup) :
    (tables.map headedOf).foldlM Entries.addHeaded old = some (old ++ tablesOf tables) := by
  induction tables generalizing old with
  | nil =>
    rw [show tablesOf [] = [] from rfl, List.append_nil]
    rfl
  | cons table tables ih =>
    rw [List.forall_mem_cons] at bodies
    have cut : old ++ tablesOf (table :: tables) =
        (old ++ [(table.1, .table .header (bodyOf table.2))]) ++ tablesOf tables := by
      rw [List.append_assoc]
      rfl
    have first := addHeaded_of_new (new_of_distinct distinct) bodies.1
    rw [cut] at distinct ⊢
    rw [← ih distinct bodies.2, List.map_cons, List.foldlM_cons, first]
    rfl

theorem skipMark_of_ne {c : Char} (other : c ≠ '\ufeff') (rest : List Char) :
    skipMark (c :: rest) = c :: rest := by
  rw [skipMark, if_neg other]

/-- A document does not begin with a mark of the byte order. -/
theorem skipMark_write {entries : List (String × Item)}
    (bare : ∀ entry ∈ entries, IsBareKey entry.1)
    (tables : List (String × List (String × Item))) :
    skipMark (entries.flatMap writeEntry ++ tables.flatMap writeTable) =
      entries.flatMap writeEntry ++ tables.flatMap writeTable := by
  cases entries with
  | nil =>
    rcases writeTables_cases tables with none | ⟨more, begins⟩
    · rw [List.flatMap_nil, List.nil_append, none, skipMark]
    · rw [List.flatMap_nil, List.nil_append, begins, skipMark_of_ne (by decide)]
  | cons entry entries =>
    rw [List.forall_mem_cons] at bare
    obtain ⟨c, more, begins, isPart⟩ := exists_head_writeEntry bare.1
      (entries.flatMap writeEntry ++ tables.flatMap writeTable)
    rw [List.flatMap_cons, List.append_assoc, begins,
      skipMark_of_ne (ne_of_kind isPart (by decide))]

theorem length_le_writeTables (tables : List (String × List (String × Item))) :
    tables.length ≤ ((tables.flatMap writeTable).drop 1).length := by
  cases tables with
  | nil => exact Nat.le_refl 0
  | cons table tables =>
    have least := length_le_flatMap (f := writeTable) (l := tables) fun table _ none => by
      have begins := writeTable_append table []
      rw [none] at begins
      cases begins
    rw [List.flatMap_cons, writeTable_append]
    simp only [List.drop_one, List.tail_cons, List.length_cons, List.length_append]
    omega

/-- A document that was written is read as the table of its entries. -/
theorem parse_write {s : Sheet} (proper : s.IsProper) (fits : ∀ n ∈ s.numbers, n < 2 ^ 64) :
    parse s.write = some s.table := by
  have fitsAll : ∀ entry ∈ s.entries ++ s.tables.flatMap (·.2), entry.2.Fits :=
    fun entry isIn n isNumber => fits n (List.mem_flatMap.mpr ⟨entry, isIn, isNumber⟩)
  have fitsTop (entry : String × Item) (isIn : entry ∈ s.entries) : entry.2.Fits :=
    fitsAll entry (List.mem_append_left _ isIn)
  have readable : ∀ table ∈ s.tables, IsReadable table := fun table isIn =>
    { header := proper.headers table isIn
      bare := proper.bareBodies table isIn
      fits := fun entry inBody =>
        fitsAll entry (List.mem_append_right _ (List.mem_flatMap.mpr ⟨table, isIn, inBody⟩)) }
  have reads := readEntries_writeTables proper.bare fitsTop s.tables
  have headed := readHeaded_write readable (length_le_writeTables s.tables)
  have distinct : (keys (bodyOf s.entries)).Nodup := by
    have distinct := proper.distinct
    rw [Sheet.table, keys_append] at distinct
    exact distinct.of_append_left
  have top : Entries.addAll [] (s.entries.map entryOf) = some (bodyOf s.entries) :=
    addAll_of_new distinct
  rw [parse, Sheet.write, String.toList_ofList, skipMark_write proper.bare]
  simp only [Option.bind_eq_bind, Option.bind_some, reads, headed, top]
  exact addAllHeaded_of_new proper.distinct proper.distinctBodies

/-! ## A library -/

/-- The library that writes and reads documents as they stand here, but no number that a signed one
of 64 bits cannot hold. -/
@[reducible] def Library.signed : Library where
  write s := if ∀ n ∈ s.numbers, n < 2 ^ 63 then some s.write else none
  read := parse

theorem isLawful_signed : letI := Library.signed; Library.IsLawful :=
  letI := Library.signed
  { read_of_written := fun s proper small =>
      ⟨s.write, if_pos small,
        parse_write proper fun n isIn => Nat.lt_trans (small n isIn) (by decide)⟩
    write_of_large := fun _ n isIn large =>
      if_neg fun small => Nat.not_lt.mpr large (small n isIn) }

end SnapshotPreview.Toml

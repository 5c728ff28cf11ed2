import SnapshotPreview.Proofs.Json.Thinning

/-!
# What compact texts say

The compact text of a value is a JSON text without white space between its tokens, whatever floats
it holds (`printed`). It is read as the value it was printed for if all numbers are whole, no object
repeats a name and the value is not nested too deeply (`parse_compact`).
-/

namespace SnapshotPreview

namespace Binary64

/-! ## Digits of floats -/

theorem digits_of_candidate? {i : Interval} {exponent : Int} {d : Decimal}
    (found : candidate? i exponent = some d) : d.digits ≠ 0 := by
  have passed := List.find?_some found
  rw [Bool.and_eq_true, bne_iff_ne] at passed
  exact passed.1

theorem Decimal.digits_trim {d : Decimal} (positive : d.digits ≠ 0) (n : Nat) :
    (d.trim n).digits ≠ 0 := by
  induction n generalizing d with
  | zero => exact positive
  | succ n ih =>
    rw [Decimal.trim]
    split
    · rename_i zero
      rw [beq_iff_eq] at zero
      refine ih ?_
      show d.digits / 10 ≠ 0
      omega
    · exact positive

/-- The digits of a float do not begin with a zero, or nothing was found that reads back. -/
theorem digits_shortest (x : Binary64) : x.shortest.digits ≠ 0 ∨ x.shortest = ⟨0, 20⟩ := by
  unfold shortest
  dsimp only
  cases found : ((List.range 20).map fun n : Nat => x.magnitude - (n : Int)).findSome?
      (candidate? x.interval) with
  | none => exact .inr (by decide)
  | some d =>
    obtain ⟨exponent, -, isCandidate⟩ := List.exists_of_findSome?_eq_some found
    exact .inl (Decimal.digits_trim (digits_of_candidate? isCandidate) 20)

end Binary64

namespace Json

/-! ## Numbers -/

/-- The digits of a whole number. -/
def digitsOf (n : Nat) : Digits :=
  ⟨decimalDigits n, Nat.toDigits_ne_nil, fun _ => isDigit_of_mem_toDigits⟩

theorem head?_decimalDigits {n : Nat} (positive : n ≠ 0) : (decimalDigits n).head? ≠ some '0' := by
  obtain ⟨c, more, digits, notZero⟩ := exists_toDigits (Nat.pos_of_ne_zero positive)
  rw [decimalDigits, digits, List.head?_cons]
  exact fun same => notZero (Option.some.inj same)

/-- A whole number as it is written. -/
def numeralOf (n : Int) : Numeral where
  negative := n < 0
  whole := digitsOf n.natAbs
  noLeadingZero := by
    intro zero
    by_cases isZero : n.natAbs = 0
    · rw [isZero]
      rfl
    · exact absurd zero (head?_decimalDigits isZero)
  fraction := none
  exponent := none

theorem text_numeralOf (n : Int) : (numeralOf n).text = (toString n).toList := by
  cases n with
  | ofNat n =>
    rw [toList_toString_ofNat]
    simp [numeralOf, Numeral.text, Numeral.wholeText, digitsOf, decimalDigits]
  | negSucc n =>
    rw [toList_toString_negSucc]
    simp [numeralOf, Numeral.text, Numeral.wholeText, digitsOf, decimalDigits]

theorem value?_numeralOf {n : Int} (fits : -0x8000000000000000 ≤ n ∧ n < 0x10000000000000000) :
    (numeralOf n).value? = some (.whole n) := by
  have ends : EndsNumber [] := nofun
  obtain ⟨c, more, text, -, read⟩ := readScalar_numeral (numeralOf n) ends
  obtain ⟨c', more', text', -, read'⟩ := readScalar_whole fits ends
  rw [text_numeralOf, text', List.cons.injEq] at text
  rw [← text.1, ← text.2, read'] at read
  obtain ⟨x, known, same⟩ := Option.map_eq_some_iff.mp read.symm
  cases same
  exact known

/-- Digits that do not begin with a zero, or a single zero. -/
structure IsWhole (cs : List Char) : Prop where
  nonempty : cs ≠ []
  digits : ∀ c ∈ cs, isDigit c = true
  noLeadingZero : cs.head? = some '0' → cs = ['0']

theorem isWhole_single {c : Char} (digit : isDigit c = true) : IsWhole [c] := by
  refine ⟨List.cons_ne_nil _ _, List.forall_mem_singleton.mpr digit, fun zero => ?_⟩
  rw [Option.some.inj zero]

theorem isWhole_zero : IsWhole ['0'] := isWhole_single (by decide)

theorem isWhole_of_head? {cs : List Char} (nonempty : cs ≠ []) (digits : ∀ c ∈ cs, isDigit c = true)
    (notZero : cs.head? ≠ some '0') : IsWhole cs :=
  ⟨nonempty, digits, fun zero => absurd zero notZero⟩

theorem exists_unsigned_of_isWhole {whole : List Char} (isWhole : IsWhole whole)
    (fraction : Option Digits) (exponent : Option Exponent) :
    ∃ n : Numeral, n.unsigned =
      whole ++ (fraction.elim [] ('.' :: ·.val) ++ exponent.elim [] Exponent.text) :=
  ⟨{ negative := false
     whole := ⟨whole, isWhole.nonempty, isWhole.digits⟩
     noLeadingZero := isWhole.noLeadingZero
     fraction
     exponent }, rfl⟩

/-- The exponent of a number as it is written, with its sign. -/
def exponentOf (n : Int) : Exponent where
  letter := ⟨'e', by decide⟩
  sign := ⟨[if n < 0 then '-' else '+'], by split <;> decide⟩
  digits := digitsOf n.natAbs

/-- Digits with a point behind the first of them, if there are others. -/
def pointed : List Char → List Char
  | first :: second :: rest => first :: '.' :: second :: rest
  | ds => ds

theorem exists_unsigned_pointed {ds : List Char} (nonempty : ds ≠ [])
    (digits : ∀ c ∈ ds, isDigit c = true) (exponent : Int) :
    ∃ n : Numeral, n.unsigned = pointed ds ++ (exponentOf exponent).text := by
  cases ds with
  | nil => exact absurd rfl nonempty
  | cons first others =>
    rw [List.forall_mem_cons] at digits
    cases others with
    | nil => exact exists_unsigned_of_isWhole (isWhole_single digits.1) none (some (exponentOf exponent))
    | cons second rest =>
      exact exists_unsigned_of_isWhole (isWhole_single digits.1)
        (some ⟨second :: rest, List.cons_ne_nil _ _, digits.2⟩) (some (exponentOf exponent))

/-- The text of a positive decimal is that of a number without a sign. -/
theorem exists_unsigned_of_decimal {d : Binary64.Decimal} (positive : d.digits ≠ 0)
    (style : PointStyle) : ∃ n : Numeral, n.unsigned = d.text style := by
  have notZero := head?_decimalDigits positive
  have digits : ∀ c ∈ decimalDigits d.digits, isDigit c = true := (digitsOf d.digits).property.2
  have nonempty : decimalDigits d.digits ≠ [] := (digitsOf d.digits).property.1
  have zeros (n : Nat) : ∀ c ∈ List.replicate n '0', isDigit c = true := by
    intro c isIn
    rw [List.eq_of_mem_replicate isIn]
    decide
  unfold Binary64.Decimal.text
  generalize decimalDigits d.digits = ds at notZero digits nonempty
  dsimp only
  split
  · split
    · -- Zeros up to the point, and one behind it.
      have isWhole : IsWhole (ds ++ List.replicate d.exponent.toNat '0') := by
        refine isWhole_of_head? (by simp [nonempty]) ?_ ?_
        · exact List.forall_mem_append.mpr ⟨digits, zeros _⟩
        · rwa [List.head?_append_of_ne_nil _ nonempty]
      exact exists_unsigned_of_isWhole isWhole (some (digitsOf 0)) none
    · split
      · -- The point stands between two digits.
        have isWhole : IsWhole (ds.take (ds.length + d.exponent).toNat) := by
          refine isWhole_of_head? ?_ (fun c isIn => digits c (List.mem_of_mem_take isIn)) ?_
          · simp [nonempty]
            omega
          · rwa [List.head?_take, if_neg (by omega)]
        have more : ds.drop (ds.length + d.exponent).toNat ≠ [] := by
          simp
          omega
        obtain ⟨n, text⟩ := exists_unsigned_of_isWhole isWhole
          (some ⟨_, more, fun c isIn => digits c (List.mem_of_mem_drop isIn)⟩) none
        exact ⟨n, by simpa using text⟩
      · -- Zeros behind the point.
        obtain ⟨n, text⟩ := exists_unsigned_of_isWhole isWhole_zero
          (some ⟨List.replicate (-(ds.length + d.exponent)).toNat '0' ++ ds, by simp [nonempty],
            List.forall_mem_append.mpr ⟨zeros _, digits⟩⟩) none
        exact ⟨n, by simpa using text⟩
  · exact exists_unsigned_pointed nonempty digits (ds.length + d.exponent - 1)

/-- Every number is printed as one. -/
theorem exists_numeral (x : JsonNumber) : ∃ n : Numeral, n.text = x.text.toList := by
  cases x with
  | whole n => exact ⟨numeralOf n, text_numeralOf n⟩
  | float x =>
    have unsigned : ∃ n : Numeral, n.unsigned =
        if x.mantissa = 0 then ['0', '.', '0'] else x.shortest.text JsonNumber.pointStyle := by
      split
      · exact exists_unsigned_of_isWhole isWhole_zero (some (digitsOf 0)) none
      · rcases x.digits_shortest with positive | nothing
        · exact exists_unsigned_of_decimal positive _
        · rw [nothing]
          exact exists_unsigned_of_isWhole isWhole_zero none (some (exponentOf 20))
    obtain ⟨n, same⟩ := unsigned
    refine ⟨{ n with negative := x.negative }, ?_⟩
    rw [text_eq_unsigned, JsonNumber.text, String.toList_ofList, ← same]
    rfl

/-! ## Strings -/

/-- What stands for a character in a string, and how it is read on. -/
def Stands (l : Literal) (c : Char) : Prop :=
  l.inner = escapeChar c ∧ ∀ more cs, Decodes more cs → Decodes (l ++ more) (c :: cs)

theorem stands_short (letter : Char) {c : Char} (known : shortEscape? letter = some c)
    (escapes : escapeChar c = ['\\', letter]) : ∃ l, Stands l c := by
  have isSome : (shortEscape? letter).isSome = true := by rw [known]; rfl
  have value : (shortEscape? letter).get isSome = c := Option.get_of_eq_some isSome known
  refine ⟨[.short letter isSome], escapes.symm, fun more cs decodes => ?_⟩
  rw [← value]
  exact .short decodes

theorem hexValue?_hexDigit : ∀ k < 16, hexValue? (hexDigit k) = some k := by decide

/-- A number below sixteen as a digit. -/
def hexOf (k : Fin 16) : HexDigit :=
  ⟨hexDigit k, by rw [hexValue?_hexDigit k k.isLt]; rfl⟩

theorem value_hexOf (k : Fin 16) : (hexOf k).value = k :=
  Option.get_of_eq_some _ (hexValue?_hexDigit k k.isLt)

/-- Control characters are written by a letter, or by their codes. -/
theorem escapeChar_control : ∀ n < 0x20,
    (['b', 'f', 'n', 'r', 't'].any fun letter => shortEscape? letter == some (Char.ofNat n) &&
      escapeChar (Char.ofNat n) == ['\\', letter]) = true ∨
    escapeChar (Char.ofNat n) = ['\\', 'u', '0', '0', hexDigit (n / 16), hexDigit (n % 16)] := by
  decide

theorem exists_stands (c : Char) : ∃ l, Stands l c := by
  by_cases control : c.toNat < 0x20
  · have written := escapeChar_control c.toNat control
    rw [Char.ofNat_toNat] at written
    rcases written with byLetter | escapes
    · obtain ⟨letter, -, isLetter⟩ := List.any_eq_true.mp byLetter
      rw [Bool.and_eq_true, beq_iff_eq, beq_iff_eq] at isLetter
      exact stands_short letter isLetter.1 isLetter.2
    · have high : c.toNat / 16 < 16 := by omega
      have low : c.toNat % 16 < 16 := by omega
      have code : codeOf (hexOf 0) (hexOf 0) (hexOf ⟨_, high⟩) (hexOf ⟨_, low⟩) = c.toNat := by
        simp only [codeOf, value_hexOf]
        simp
        omega
      refine ⟨[.unicode (hexOf 0) (hexOf 0) (hexOf ⟨_, high⟩) (hexOf ⟨_, low⟩)], escapes.symm,
        fun more cs decodes => ?_⟩
      have read := Decodes.unicode (by rw [code, isHigh]; simp; omega)
        (by rw [code, isLow]; simp; omega) decodes
      rw [code, Char.ofNat_toNat] at read
      exact read
  · by_cases quote : c = '"'
    · exact stands_short '"' (by rw [quote]; rfl) (by rw [quote]; rfl)
    · by_cases backslash : c = '\\'
      · exact stands_short '\\' (by rw [backslash]; rfl) (by rw [backslash]; rfl)
      · have inString : c ≠ '"' ∧ c ≠ '\\' ∧ 0x20 ≤ c.toNat :=
          ⟨quote, backslash, Nat.le_of_not_lt control⟩
        exact ⟨[.plain c inString], (escapeChar_plain inString).symm, fun _ _ => .plain⟩

/-- A string is printed as one that is read for its characters. -/
theorem exists_literal_of_quote (s : String) :
    ∃ l : Literal, l.text = (quote s).toList ∧ Decodes l s.toList := by
  have inner : ∀ cs : List Char, ∃ l : Literal, l.inner = cs.flatMap escapeChar ∧ Decodes l cs := by
    intro cs
    induction cs with
    | nil => exact ⟨[], rfl, .nil⟩
    | cons c cs ih =>
      obtain ⟨l, text, reads⟩ := exists_stands c
      obtain ⟨more, textMore, decodes⟩ := ih
      exact ⟨l ++ more, by rw [inner_append, text, textMore, List.flatMap_cons], reads more cs decodes⟩
  obtain ⟨l, text, decodes⟩ := inner s.toList
  refine ⟨l, ?_, decodes⟩
  simp [Literal.text, quote, text]

/-! ## Values -/

/-- No white space stands before the name of an entry or between it and its colon. -/
def Label.IsTight {kind : Kind} : Label kind → Prop
  | item => True
  | name before _ after => before = noGap ∧ after = noGap

/-- No white space stands between two tokens. -/
def Tree.IsTight : {part : Part} → Tree part → Prop
  | _, word _ | _, numeral _ | _, literal _ => True
  | _, empty _ gap => gap = noGap
  | _, filled _ entries => entries.IsTight
  | _, last label before value after =>
    label.IsTight ∧ before = noGap ∧ value.IsTight ∧ after = noGap
  | _, more label before value after rest =>
    label.IsTight ∧ before = noGap ∧ value.IsTight ∧ after = noGap ∧ rest.IsTight

/-- A value without floats, as it can be read where some levels of arrays and objects may still be
open: whole numbers have 64 bits, and no object repeats a name. -/
inductive IsExact : Nat → Json → Prop where
  | null (depth : Nat) : IsExact depth .null
  | bool (depth : Nat) (b : Bool) : IsExact depth (.bool b)
  | whole (depth : Nat) {n : Int} (fits : -0x8000000000000000 ≤ n ∧ n < 0x10000000000000000) :
      IsExact depth (.number (.whole n))
  | string (depth : Nat) (s : String) : IsExact depth (.string s)
  | array {depth : Nat} {items : List Json} :
      (∀ v ∈ items, IsExact depth v) → IsExact (depth + 1) (.array items)
  | object {depth : Nat} {members : List (String × Json)} (distinct : (Assoc.keys members).Nodup) :
      (∀ m ∈ members, IsExact depth m.2) → IsExact (depth + 1) (.object members)

/-- A text has a tree without white space, which means what was printed where that is exact. -/
def PrintedAs (part : Part) (s : List Char) (exact : Nat → Prop) (meaning : part.Meaning) : Prop :=
  ∃ t : Tree part, t.IsTight ∧ t.text = s ∧ ∀ depth, exact depth → t.meaning? depth = some meaning

/-- The compact text of a value is a JSON text that means the value where that is exact. -/
def Printed (v : Json) : Prop :=
  PrintedAs .value v.compact.toList (IsExact · v) v

/-! ## Entries -/

/-- What stands before the value of an entry. -/
def Kind.labelText : Kind → String → String
  | array, _ => ""
  | object, name => quote name ++ ":"

/-- Items have no names. -/
def Kind.MayName : Kind → String → Prop
  | array, name => name = ""
  | object, _ => True

/-- The compact texts of some entries. -/
def Kind.compactParts (kind : Kind) (entries : List (String × Json)) : List String :=
  entries.map fun (name, v) => kind.labelText name ++ v.compact

theorem compactItems_eq (items : List Json) :
    compactItems items = Kind.array.compactParts (items.map ("", ·)) := by
  induction items with
  | nil => rfl
  | cons v items ih =>
    rw [compactItems, ih]
    simp [Kind.compactParts, Kind.labelText]

theorem compactMembers_eq (members : List (String × Json)) :
    compactMembers members = Kind.object.compactParts members := by
  induction members with
  | nil => rfl
  | cons m members ih =>
    obtain ⟨name, v⟩ := m
    rw [compactMembers, ih]
    rfl

theorem exists_label {kind : Kind} {name : String} (mayName : kind.MayName name) :
    ∃ label : Label kind, label.IsTight ∧ label.text = (kind.labelText name).toList ∧
      label.name? = some name := by
  cases kind with
  | array =>
    obtain rfl : name = "" := mayName
    exact ⟨.item, trivial, rfl, rfl⟩
  | object =>
    obtain ⟨l, text, decodes⟩ := exists_literal_of_quote name
    refine ⟨.name noGap l noGap, ⟨rfl, rfl⟩, ?_, ?_⟩
    · rw [Label.text, text, Kind.labelText, String.toList_append]
      rfl
    · rw [Label.name?, chars?_of_decodes decodes, Option.map_some, String.ofList_toList]

theorem printed_entries {kind : Kind} {entries : List (String × Json)} (nonempty : entries ≠ [])
    (mayName : ∀ e ∈ entries, kind.MayName e.1) (printed : ∀ e ∈ entries, e.2.Printed) :
    PrintedAs (.entries kind) (String.intercalate "," (kind.compactParts entries)).toList
      (fun depth => ∀ e ∈ entries, IsExact depth e.2) entries := by
  induction entries with
  | nil => exact absurd rfl nonempty
  | cons e entries ih =>
    obtain ⟨name, v⟩ := e
    rw [List.forall_mem_cons] at mayName printed
    obtain ⟨label, tightLabel, labelText, named⟩ := exists_label mayName.1
    obtain ⟨t, tight, text, means⟩ := printed.1
    cases entries with
    | nil =>
      refine ⟨.last label noGap t noGap, ⟨tightLabel, rfl, tight, rfl⟩, ?_, fun depth exact => ?_⟩
      · simp [Tree.text, labelText, text, noGap, Kind.compactParts]
      · rw [Tree.meaning?, named, Option.bind_some, means depth (exact _ List.mem_cons_self),
          Option.map_some]
    | cons next entries =>
      obtain ⟨more, tightMore, textMore, meansMore⟩ := ih (List.cons_ne_nil _ _) mayName.2 printed.2
      refine ⟨.more label noGap t noGap more, ⟨tightLabel, rfl, tight, rfl, tightMore⟩, ?_,
        fun depth exact => ?_⟩
      · rw [Tree.text, labelText, text, textMore]
        simp [noGap, Kind.compactParts, String.intercalate_cons_cons]
      · obtain ⟨here, later⟩ := List.forall_mem_cons.mp exact
        rw [Tree.meaning?, named, Option.bind_some, means depth here, Option.bind_some,
          meansMore depth later, Option.map_some]

/-! ## Arrays and objects -/

/-- Entries between two brackets, where they are exact one level further in. -/
theorem printed_brackets (kind : Kind) {entries : List (String × Json)}
    (mayName : ∀ e ∈ entries, kind.MayName e.1) (printed : ∀ e ∈ entries, e.2.Printed) :
    PrintedAs .value
      (kind.opening :: ((String.intercalate "," (kind.compactParts entries)).toList ++ [kind.closing]))
      (fun depth => ∃ d, depth = d + 1 ∧ ∀ e ∈ entries, IsExact d e.2) (kind.json entries) := by
  by_cases nothing : entries = []
  · subst nothing
    refine ⟨.empty kind noGap, rfl, by simp [Tree.text, noGap, Kind.compactParts], ?_⟩
    rintro depth ⟨d, rfl, -⟩
    rfl
  · obtain ⟨t, tight, text, means⟩ := printed_entries nothing mayName printed
    refine ⟨.filled kind t, tight, by rw [Tree.text, text], ?_⟩
    rintro depth ⟨d, rfl, exact⟩
    rw [Tree.meaning?, means d exact, Option.map_some]

theorem printed_array {items : List Json} (printed : ∀ v ∈ items, v.Printed) :
    (array items).Printed := by
  have mayName : ∀ e ∈ items.map ("", ·), Kind.array.MayName e.1 := by simp [Kind.MayName]
  obtain ⟨t, tight, text, means⟩ := printed_brackets .array mayName (by simpa using printed)
  refine ⟨t, tight, ?_, fun depth exact => ?_⟩
  · rw [text, compact, compactItems_eq]
    simp [Kind.opening, Kind.closing]
  · cases exact with
    | array exact =>
      rw [means _ ⟨_, rfl, by simpa using exact⟩, Kind.json, List.map_map]
      exact congrArg _ (congrArg _ (List.map_id items))

theorem printed_object {members : List (String × Json)} (printed : ∀ m ∈ members, m.2.Printed) :
    (object members).Printed := by
  obtain ⟨t, tight, text, means⟩ := printed_brackets .object (fun _ _ => trivial) printed
  refine ⟨t, tight, ?_, fun depth exact => ?_⟩
  · rw [text, compact, compactMembers_eq]
    simp [Kind.opening, Kind.closing]
  · cases exact with
    | object distinct exact =>
      rw [means _ ⟨_, rfl, exact⟩, Kind.json, membersOf_of_nodup distinct]

theorem printed_word {w : Word} (text : w.json.compact.toList = w.val) : w.json.Printed :=
  ⟨.word w, trivial, text.symm, fun _ _ => rfl⟩

theorem printed_number (n : JsonNumber) : (number n).Printed := by
  cases n with
  | whole n =>
    refine ⟨.numeral (numeralOf n), trivial, ?_, fun depth exact => ?_⟩
    · rw [Tree.text, text_numeralOf, compact, JsonNumber.text]
    · cases exact with
      | whole _ fits => rw [Tree.meaning?, value?_numeralOf fits, Option.map_some]
  | float x =>
    obtain ⟨n, text⟩ := exists_numeral (.float x)
    exact ⟨.numeral n, trivial, by rw [Tree.text, text, compact], fun depth exact => by cases exact⟩

theorem printed_string (s : String) : (string s).Printed := by
  obtain ⟨l, text, decodes⟩ := exists_literal_of_quote s
  refine ⟨.literal l, trivial, by rw [Tree.text, text, compact], fun depth _ => ?_⟩
  rw [Tree.meaning?, chars?_of_decodes decodes, Option.map_some, String.ofList_toList]

/-- Every value is printed as a JSON text without white space. -/
theorem printed (v : Json) : v.Printed := by
  match v with
  | null => exact printed_word (w := ⟨"null".toList, by decide⟩) rfl
  | bool true => exact printed_word (w := ⟨"true".toList, by decide⟩) rfl
  | bool false => exact printed_word (w := ⟨"false".toList, by decide⟩) rfl
  | number n => exact printed_number n
  | string s => exact printed_string s
  | array items => exact printed_array fun v isItem => printed v
  | object members => exact printed_object fun m isMember => printed m.2
termination_by sizeOf v
decreasing_by
  · have := List.sizeOf_lt_of_mem isItem
    simp
    omega
  · have := List.sizeOf_lt_of_mem isMember
    obtain ⟨name, v⟩ := m
    simp at this ⊢
    omega

/-! ## Reading back -/

theorem parse_compact {v : Json} (exact : IsExact maxDepth v) : parse v.compact = .ok v := by
  obtain ⟨t, -, text, means⟩ := v.printed
  have written : (Document.mk noGap t noGap).text = v.compact.toList := by
    simp [Document.text, noGap, text]
  exact (parse_eq_ok_iff_meaning written).mpr (means maxDepth exact)

/-- How a value is shown as plain text: a string as it is, and any other value as its compact text,
which is JSON without white space and is read as the value where that is exact. -/
inductive ShownAs : Json → String → Prop where
  | string (s : String) : ShownAs (.string s) s
  | other {v : Json} (notString : ∀ s, v ≠ .string s)
      (isJson : ∃ t : Tree .value, t.IsTight ∧ t.text = v.compact.toList)
      (readBack : IsExact maxDepth v → parse v.compact = .ok v) : ShownAs v v.compact

theorem shownAs_compact {v : Json} (notString : ∀ s, v ≠ .string s) : v.ShownAs v.compact := by
  obtain ⟨t, tight, text, -⟩ := v.printed
  exact .other notString ⟨t, tight, text⟩ parse_compact

theorem shownAs_plainText (v : Json) : v.ShownAs v.plainText := by
  cases v with
  | string s => exact .string s
  | _ => exact shownAs_compact nofun

end Json

end SnapshotPreview

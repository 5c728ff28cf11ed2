import SnapshotPreview.Proofs.Json.Literals

/-!
# What a JSON text means

The value of a tree of the grammar, if it has one (`Tree.meaning?`): strings and numbers must have a
meaning, and values must not be nested too deeply. The parser gives the value of a text that has one
and refuses the others (`parse_text`).
-/

namespace SnapshotPreview.Json

/-! ## Values -/

/-- The value that a word is written for. -/
def Word.json (w : Word) : Json :=
  if w.val = "null".toList then .null else .bool (w.val = "true".toList)

/-- What a tree is read as: a value, or the entries between two brackets with their names. -/
abbrev Part.Meaning : Part → Type
  | .value => Json
  | .entries _ => List (String × Json)

/-- The name of an entry, if it can be read. Items have none. -/
def Label.name? {kind : Kind} : Label kind → Option String
  | item => some ""
  | name _ literal _ => literal.chars?.map String.ofList

/-- The value that holds some entries. -/
def Kind.json : Kind → List (String × Json) → Json
  | array, entries => .array (entries.map Prod.snd)
  | object, entries => .object (membersOf entries)

/-- What a tree means where some levels of arrays and objects may still be open. -/
def Tree.meaning? : {part : Part} → Tree part → Nat → Option part.Meaning
  | _, .word w, _ => some w.json
  | _, .numeral n, _ => n.value?.map .number
  | _, .literal l, _ => l.chars?.map fun cs => .string (String.ofList cs)
  | _, .empty _ _, 0 => none
  | _, .empty kind _, _ + 1 => some (kind.json [])
  | _, .filled _ _, 0 => none
  | _, .filled kind entries, depth + 1 => (entries.meaning? depth).map kind.json
  | _, .last label _ value _, depth =>
    label.name?.bind fun name => (value.meaning? depth).map fun v => [(name, v)]
  | _, .more label _ value _ rest, depth =>
    label.name?.bind fun name => (value.meaning? depth).bind fun v =>
      (rest.meaning? depth).map ((name, v) :: ·)

theorem readScalar_word (w : Word) (rest : List Char) : ∃ c more, w.val = c :: more ∧
    c ∉ [' ', '\n', '\t', '\r', '[', '\x7b'] ∧ readScalar c (more ++ rest) = .ok (w.json, rest) := by
  obtain ⟨w, isWord⟩ := w
  simp only [List.mem_cons, List.not_mem_nil, or_false] at isWord
  rcases isWord with rfl | rfl | rfl
  · exact ⟨'n', "ull".toList, rfl, by decide, rfl⟩
  · exact ⟨'t', "rue".toList, rfl, by decide, rfl⟩
  · exact ⟨'f', "alse".toList, rfl, by decide, rfl⟩

theorem text_eq_unsigned (n : Numeral) :
    n.text = if n.negative then '-' :: n.unsigned else n.unsigned := by
  cases sign : n.negative <;> simp [Numeral.text, Numeral.wholeText, Numeral.unsigned, sign]

theorem readScalar_numeral (n : Numeral) {rest : List Char} (ends : EndsNumber rest) :
    ∃ c more, n.text = c :: more ∧ c ∉ [' ', '\n', '\t', '\r', '[', '\x7b'] ∧
      (readScalar c (more ++ rest)).toOption = n.value?.map fun x => (.number x, rest) := by
  have read := readUnsigned_append n ends
  rw [text_eq_unsigned]
  cases sign : n.negative with
  | true =>
    rw [sign] at read
    refine ⟨'-', n.unsigned, rfl, by decide, ?_⟩
    rw [readScalar_of_minus, toOption_map, read, Option.map_map]
    rfl
  | false =>
    rw [sign] at read
    obtain ⟨d, more, whole⟩ := List.exists_cons_of_ne_nil n.whole.property.1
    have digit : isDigit d = true := n.whole.property.2 d (by rw [whole]; exact List.mem_cons_self)
    have text : n.unsigned = d :: (more ++
        (n.fraction.elim [] ('.' :: ·.val) ++ n.exponent.elim [] Exponent.text)) := by
      rw [Numeral.unsigned, whole, List.cons_append]
    have others : ∀ c ∈ [' ', '\n', '\t', '\r', '[', '\x7b'], isDigit c = false :=
      Text.forall_mem_of_all (by decide)
    refine ⟨d, _, text, fun isIn => ?_, ?_⟩
    · rw [others d isIn] at digit
      cases digit
    · rw [readScalar_of_digit digit, toOption_map, ← List.cons_append, ← text, read, Option.map_map]
      rfl

theorem skipSpace_gap (gap : Gap) {c : Char} (solid : isSpace c = false) (cs : List Char) :
    skipSpace (gap.val ++ c :: cs) = c :: cs := by
  rw [skipSpace, List.dropWhile_append_of_pos gap.property]
  exact List.dropWhile_cons_of_neg (by simp [solid])

theorem endsNumber_gap (gap : Gap) {c : Char}
    (ends : isDigit c = false ∧ c ≠ '.' ∧ c ≠ 'e' ∧ c ≠ 'E') (cs : List Char) :
    EndsNumber (gap.val ++ c :: cs) := by
  intro d first
  cases same : gap.val with
  | nil =>
    rw [same] at first
    cases first
    exact ends
  | cons e more =>
    rw [same] at first
    cases first
    have space := gap.property d (by rw [same]; exact List.mem_cons_self)
    simp only [isSpace, Bool.or_eq_true, beq_iff_eq] at space
    rcases space with ((rfl | rfl) | rfl) | rfl <;> decide

/-- With what a value begins no white space, no entry and no bracket ends. -/
theorem exists_head (t : Tree .value) : ∃ c more, t.text = c :: more ∧ isSpace c = false ∧
    c ∉ [',', ':', ']', '\x7d'] := by
  cases t with
  | word w =>
    obtain ⟨w, isWord⟩ := w
    simp only [List.mem_cons, List.not_mem_nil, or_false] at isWord
    rcases isWord with rfl | rfl | rfl <;> exact ⟨_, _, rfl, by decide, by decide⟩
  | numeral n =>
    rw [Tree.text, text_eq_unsigned]
    cases n.negative with
    | true => exact ⟨'-', _, rfl, by decide, by decide⟩
    | false =>
      obtain ⟨d, more, whole⟩ := List.exists_cons_of_ne_nil n.whole.property.1
      have digit : isDigit d = true := n.whole.property.2 d (by rw [whole]; exact List.mem_cons_self)
      have others : ∀ c ∈ [' ', '\n', '\t', '\r', ',', ':', ']', '\x7d'], isDigit c = false :=
        Text.forall_mem_of_all (by decide)
      have notIn : d ∉ [' ', '\n', '\t', '\r', ',', ':', ']', '\x7d'] := by
        intro isIn
        rw [others d isIn] at digit
        cases digit
      simp only [List.mem_cons, List.not_mem_nil, or_false, not_or] at notIn
      refine ⟨d, _, by simp only [Numeral.unsigned, whole]; rfl, ?_, ?_⟩
      · simp [isSpace, notIn]
      · simp [notIn]
  | literal l => exact ⟨'"', _, rfl, by decide, by decide⟩
  | empty kind gap => cases kind <;> exact ⟨_, _, rfl, by decide, by decide⟩
  | filled kind entries => cases kind <;> exact ⟨_, _, rfl, by decide, by decide⟩

/-- The items from the first one on. -/
def itemsFrom (value : Reader Json) (fuel : List Char → Nat) : Reader (List Json) := fun cs => do
  let (v, rest) ← value cs
  let (vs, rest) ← readItems value (fuel rest) rest
  return (v :: vs, rest)

/-- The members from the first one on. -/
def membersFrom (value : Reader Json) (fuel : List Char → Nat) : Reader (List (String × Json)) :=
  fun cs => do
    let (m, rest) ← readMember value (← readNextName cs)
    let (ms, rest) ← readMembers value (fuel rest) rest
    return (m :: ms, rest)

section
variable (value : Reader Json) {cs more : List Char}

theorem readItems_close (fuel : Nat) (gap : Gap) (rest : List Char) :
    readItems value (fuel + 1) (gap.val ++ ']' :: rest) = .ok ([], rest) := by
  rw [readItems, skipSpace_gap gap (by decide)]
  rfl

theorem readItems_comma (fuel : Nat) (gap : Gap) {c : Char} (first : skipSpace cs = c :: more)
    (other : c ≠ ']') :
    readItems value (fuel + 1) (gap.val ++ ',' :: cs) =
      itemsFrom value (fun _ => fuel) (c :: more) := by
  rw [readItems, skipSpace_gap gap (by decide)]
  simp only [first]
  split
  · rename_i nothing
    cases nothing
  · rename_i closed
    exact absurd (List.cons.inj closed).1 other
  · rfl

theorem readArray_eq {c : Char} (first : skipSpace cs = c :: more) (other : c ≠ ']') :
    readArray value cs = itemsFrom value (fun cs => cs.length + 1) (c :: more) := by
  unfold readArray
  rw [first]
  split
  · rename_i nothing
    cases nothing
  · rename_i closed
    exact absurd (List.cons.inj closed).1 other
  · rfl

theorem readMembers_close (fuel : Nat) (gap : Gap) (rest : List Char) :
    readMembers value (fuel + 1) (gap.val ++ '\x7d' :: rest) = .ok ([], rest) := by
  rw [readMembers, skipSpace_gap gap (by decide)]
  rfl

theorem readMembers_comma (fuel : Nat) (gap : Gap) :
    readMembers value (fuel + 1) (gap.val ++ ',' :: cs) = membersFrom value (fun _ => fuel) cs := by
  rw [readMembers, skipSpace_gap gap (by decide)]
  rfl

theorem readObject_eq (first : skipSpace cs = '"' :: more) :
    readObject value cs = membersFrom value (fun cs => cs.length + 1) cs := by
  unfold readObject membersFrom readNextName
  rw [first]
  rfl

end

theorem itemsFrom_eq {value : Reader Json} (fuel : List Char → Nat) {cs tail : List Char}
    {meant : Option Json} (read : (value cs).toOption = meant.map (·, tail)) :
    (itemsFrom value fuel cs).toOption = meant.bind fun v =>
      (readItems value (fuel tail) tail).toOption.map fun (vs, rest) => (v :: vs, rest) := by
  rw [itemsFrom, toOption_bind, read]
  cases meant with
  | none => rfl
  | some v =>
    rw [Option.map_some, Option.bind_some, Option.bind_some]
    dsimp only
    cases readItems value (fuel tail) tail <;> rfl

theorem readColon_gap (gap : Gap) (cs : List Char) : readColon (gap.val ++ ':' :: cs) = .ok cs := by
  rw [readColon, skipSpace_gap gap (by decide)]
  rfl

theorem readNextName_gap (gap : Gap) (cs : List Char) :
    readNextName (gap.val ++ '"' :: cs) = .ok cs := by
  rw [readNextName, skipSpace_gap gap (by decide)]
  rfl

theorem membersFrom_eq {value : Reader Json} (fuel : List Char → Nat) (gap : Gap) (l : Literal)
    (colon : Gap) {cs tail : List Char} {meant : Option Json}
    (read : (value cs).toOption = meant.map (·, tail)) :
    (membersFrom value fuel (gap.val ++ (l.text ++ (colon.val ++ ':' :: cs)))).toOption =
      (l.chars?.map String.ofList).bind fun name => meant.bind fun v =>
        (readMembers value (fuel tail) tail).toOption.map fun (ms, rest) =>
          ((name, v) :: ms, rest) := by
  have text : l.text ++ (colon.val ++ ':' :: cs) =
      '"' :: (l.inner ++ '"' :: (colon.val ++ ':' :: cs)) := by
    simp [Literal.text]
  have name := readString_inner l (colon.val ++ ':' :: cs)
  have named : (readMember value (l.inner ++ '"' :: (colon.val ++ ':' :: cs))).toOption =
      (l.chars?.map String.ofList).bind fun name => meant.map fun v => ((name, v), tail) := by
    rw [readMember, toOption_bind, name]
    cases l.chars? with
    | none => rfl
    | some chars =>
      rw [Option.map_some, Option.bind_some]
      dsimp only
      rw [readColon_gap]
      show (value cs >>= fun read => pure ((String.ofList chars, read.1), read.2)).toOption = _
      rw [toOption_bind, read]
      cases meant <;> rfl
  rw [membersFrom, text, readNextName_gap]
  show (readMember value (l.inner ++ '"' :: (colon.val ++ ':' :: cs)) >>= fun first =>
    readMembers value (fuel first.2) first.2 >>= fun more =>
      pure (first.1 :: more.1, more.2)).toOption = _
  rw [toOption_bind, named]
  cases l.chars? with
  | none => rfl
  | some chars =>
    cases meant with
    | none => rfl
    | some v =>
      simp only [Option.map_some, Option.bind_some]
      cases readMembers value (fuel tail) tail <;> rfl

/-- Each text up to a length has more fuel than characters. -/
def Enough (fuel : List Char → Nat) (length : Nat) : Prop :=
  ∀ cs, cs.length ≤ length → cs.length < fuel cs

/-- A tree is read for what it means. -/
def Reads : (part : Part) → Tree part → Prop
  | .value, t => ∀ depth (gap : Gap) rest, EndsNumber rest →
      (readValue depth (gap.val ++ (t.text ++ rest))).toOption = (t.meaning? depth).map (·, rest)
  | .entries .array, t => ∀ depth fuel rest, Enough fuel (t.text ++ ']' :: rest).length →
      (itemsFrom (readValue depth) fuel (t.text ++ ']' :: rest)).toOption =
        (t.meaning? depth).map fun es => (es.map Prod.snd, rest)
  | .entries .object, t => ∀ depth fuel rest, Enough fuel (t.text ++ '\x7d' :: rest).length →
      (membersFrom (readValue depth) fuel (t.text ++ '\x7d' :: rest)).toOption =
        (t.meaning? depth).map (·, rest)

theorem readValue_skipSpace (depth : Nat) (cs : List Char) :
    readValue depth (skipSpace cs) = readValue depth cs := by
  unfold readValue
  rw [skipSpace_skipSpace]

theorem itemsFrom_skipSpace (depth : Nat) (fuel : List Char → Nat) (cs : List Char) :
    itemsFrom (readValue depth) fuel (skipSpace cs) = itemsFrom (readValue depth) fuel cs := by
  unfold itemsFrom
  rw [readValue_skipSpace]

theorem exists_item_head (t : Tree (.entries .array)) (cs : List Char) :
    ∃ c more, skipSpace (t.text ++ cs) = c :: more ∧ c ≠ ']' := by
  have head (gap : Gap) (v : Tree .value) (cs : List Char) :
      ∃ c more, skipSpace (gap.val ++ (v.text ++ cs)) = c :: more ∧ c ≠ ']' := by
    obtain ⟨c, more, text, solid, others⟩ := exists_head v
    rw [text, List.cons_append, skipSpace_gap gap solid]
    exact ⟨c, _, rfl, fun same => others (by simp [same])⟩
  cases t with
  | last label before value after =>
    cases label
    rw [Tree.text, Label.text, List.nil_append, List.append_assoc, List.append_assoc]
    exact head before value _
  | more label before value after rest =>
    cases label
    rw [Tree.text, Label.text, List.nil_append, List.append_assoc, List.append_assoc]
    exact head before value _

theorem exists_member_head (t : Tree (.entries .object)) (cs : List Char) :
    ∃ more, skipSpace (t.text ++ cs) = '"' :: more := by
  cases t with
  | last label before value after =>
    cases label with
    | name gap literal colon =>
      simp only [Tree.text, Label.text, Literal.text, List.append_assoc, List.cons_append]
      exact ⟨_, skipSpace_gap gap (by decide) _⟩
  | more label before value after rest =>
    cases label with
    | name gap literal colon =>
      simp only [Tree.text, Label.text, Literal.text, List.append_assoc, List.cons_append]
      exact ⟨_, skipSpace_gap gap (by decide) _⟩

theorem readValue_opening_zero (kind : Kind) (gap : Gap) (cs : List Char) :
    (readValue 0 (gap.val ++ kind.opening :: cs)).toOption = none := by
  cases kind
  · rw [readValue, Kind.opening, skipSpace_gap gap (by decide)]
    rfl
  · rw [readValue, Kind.opening, skipSpace_gap gap (by decide)]
    rfl

theorem readValue_bracket (depth : Nat) (gap : Gap) (cs : List Char) :
    (readValue (depth + 1) (gap.val ++ '[' :: cs)).toOption =
      (readArray (readValue depth) cs).toOption.map fun (items, rest) => (.array items, rest) := by
  rw [readValue, skipSpace_gap gap (by decide)]
  simp only [beq_self_eq_true, if_true]
  cases readArray (readValue depth) cs <;> rfl

theorem readValue_brace (depth : Nat) (gap : Gap) (cs : List Char) :
    (readValue (depth + 1) (gap.val ++ '\x7b' :: cs)).toOption =
      (readObject (readValue depth) cs).toOption.map fun (members, rest) =>
        (.object (membersOf members), rest) := by
  have notBracket : ('\x7b' == '[') = false := by decide
  rw [readValue, skipSpace_gap gap (by decide)]
  simp only [notBracket, Bool.false_eq_true, if_false, beq_self_eq_true, if_true]
  cases readObject (readValue depth) cs <;> rfl

/-- Fuel that is enough is enough for what is shorter, with one step less. -/
theorem Enough.exists_succ {fuel : List Char → Nat} {length : Nat} (enough : Enough fuel length)
    (cs : List Char) (short : cs.length ≤ length) :
    ∃ left, fuel cs = left + 1 ∧ ∀ n < cs.length, Enough (fun _ => left) n := by
  have here := enough cs short
  obtain ⟨left, same⟩ := Nat.exists_eq_succ_of_ne_zero (Nat.ne_zero_of_lt here)
  refine ⟨left, same, fun n fewer ds few => ?_⟩
  show ds.length < left
  omega

theorem enough_length (n : Nat) : Enough (fun cs => cs.length + 1) n := fun _ _ => Nat.lt_succ_self _

theorem reads_word (w : Word) : Reads .value (.word w) := by
  intro depth gap rest ends
  obtain ⟨c, more, text, first, read⟩ := readScalar_word w rest
  rw [Tree.text, text, List.cons_append, readValue_of_scalar depth gap first, read]
  rfl

theorem reads_numeral (n : Numeral) : Reads .value (.numeral n) := by
  intro depth gap rest ends
  obtain ⟨c, more, text, first, read⟩ := readScalar_numeral n ends
  rw [Tree.text, text, List.cons_append, readValue_of_scalar depth gap first, read, Tree.meaning?,
    Option.map_map]
  rfl

theorem reads_literal (l : Literal) : Reads .value (.literal l) := by
  intro depth gap rest ends
  have text : l.text ++ rest = '"' :: (l.inner ++ '"' :: rest) := by simp [Literal.text]
  rw [Tree.text, text, readValue_of_scalar depth gap (by decide), Tree.meaning?, Option.map_map]
  have read : readScalar '"' (l.inner ++ '"' :: rest) =
      readString (l.inner ++ '"' :: rest) >>= fun r => pure (.string r.1, r.2) := rfl
  rw [read, toOption_bind, readString_inner]
  cases l.chars? <;> rfl

theorem reads_empty (kind : Kind) (inside : Gap) : Reads .value (.empty kind inside) := by
  intro depth gap rest ends
  cases depth with
  | zero => exact readValue_opening_zero kind gap _
  | succ depth =>
    cases kind with
    | array =>
      have read : readArray (readValue depth) (inside.val ++ ([']'] ++ rest)) = .ok ([], rest) := by
        unfold readArray
        rw [List.singleton_append, skipSpace_gap inside (by decide)]
        rfl
      rw [Tree.text, Kind.opening, Kind.closing, List.cons_append, List.append_assoc,
        readValue_bracket, read]
      rfl
    | object =>
      have read : readObject (readValue depth) (inside.val ++ (['\x7d'] ++ rest)) = .ok ([], rest) := by
        unfold readObject
        rw [List.singleton_append, skipSpace_gap inside (by decide)]
        rfl
      rw [Tree.text, Kind.opening, Kind.closing, List.cons_append, List.append_assoc,
        readValue_brace, read]
      rfl

theorem reads_filled {kind : Kind} {entries : Tree (.entries kind)}
    (ih : Reads (.entries kind) entries) : Reads .value (.filled kind entries) := by
  intro depth gap rest ends
  cases depth with
  | zero => exact readValue_opening_zero kind gap _
  | succ depth =>
    cases kind with
    | array =>
      obtain ⟨c, more, first, other⟩ := exists_item_head entries (']' :: rest)
      have read := ih depth _ rest (enough_length _)
      rw [← itemsFrom_skipSpace, first, ← readArray_eq (readValue depth) first other] at read
      rw [Tree.text, Kind.opening, Kind.closing, List.cons_append, List.append_assoc,
        List.singleton_append, readValue_bracket, read, Tree.meaning?]
      cases entries.meaning? depth <;> rfl
    | object =>
      obtain ⟨more, first⟩ := exists_member_head entries ('\x7d' :: rest)
      have read := ih depth _ rest (enough_length _)
      rw [← readObject_eq (readValue depth) first] at read
      rw [Tree.text, Kind.opening, Kind.closing, List.cons_append, List.append_assoc,
        List.singleton_append, readValue_brace, read, Tree.meaning?]
      cases entries.meaning? depth <;> rfl

theorem reads_last {kind : Kind} (label : Label kind) (before : Gap) {value : Tree .value}
    (after : Gap) (ih : Reads .value value) : Reads (.entries kind) (.last label before value after) := by
  cases label with
  | item =>
    intro depth fuel rest enough
    have ends : EndsNumber (after.val ++ ']' :: rest) := endsNumber_gap after (by decide) rest
    have text : Tree.text (.last .item before value after) ++ ']' :: rest =
        before.val ++ (value.text ++ (after.val ++ ']' :: rest)) := by
      simp [Tree.text, Label.text]
    obtain ⟨left, same, -⟩ := enough.exists_succ (after.val ++ ']' :: rest)
      (by rw [text]; simp; omega)
    rw [text, itemsFrom_eq fuel (ih depth before _ ends), same, readItems_close, Tree.meaning?]
    cases value.meaning? depth <;> rfl
  | name gap literal colon =>
    intro depth fuel rest enough
    have ends : EndsNumber (after.val ++ '\x7d' :: rest) := endsNumber_gap after (by decide) rest
    have text : Tree.text (.last (.name gap literal colon) before value after) ++ '\x7d' :: rest =
        gap.val ++ (literal.text ++ (colon.val ++ ':' ::
          (before.val ++ (value.text ++ (after.val ++ '\x7d' :: rest))))) := by
      simp [Tree.text, Label.text]
    obtain ⟨left, same, -⟩ := enough.exists_succ (after.val ++ '\x7d' :: rest)
      (by rw [text]; simp; omega)
    rw [text, membersFrom_eq fuel gap literal colon (ih depth before _ ends), same,
      readMembers_close, Tree.meaning?, Label.name?]
    cases literal.chars? with
    | none => rfl
    | some cs => cases value.meaning? depth <;> rfl

theorem reads_more {kind : Kind} (label : Label kind) (before : Gap) {value : Tree .value}
    (after : Gap) {more : Tree (.entries kind)} (ih : Reads .value value)
    (ihMore : Reads (.entries kind) more) :
    Reads (.entries kind) (.more label before value after more) := by
  cases label with
  | item =>
    intro depth fuel rest enough
    have ends : EndsNumber (after.val ++ ',' :: (more.text ++ ']' :: rest)) :=
      endsNumber_gap after (by decide) _
    have text : Tree.text (.more .item before value after more) ++ ']' :: rest =
        before.val ++ (value.text ++ (after.val ++ ',' :: (more.text ++ ']' :: rest))) := by
      simp [Tree.text, Label.text]
    obtain ⟨left, same, later⟩ := enough.exists_succ
      (after.val ++ ',' :: (more.text ++ ']' :: rest)) (by rw [text]; simp; omega)
    have fewer : (more.text ++ ']' :: rest).length <
        (after.val ++ ',' :: (more.text ++ ']' :: rest)).length := by
      simp
      omega
    obtain ⟨c, behind, first, other⟩ := exists_item_head more (']' :: rest)
    have read := ihMore depth _ rest (later _ fewer)
    rw [← itemsFrom_skipSpace, first,
      ← readItems_comma (readValue depth) left after first other] at read
    rw [text, itemsFrom_eq fuel (ih depth before _ ends), same, read, Tree.meaning?]
    cases value.meaning? depth with
    | none => rfl
    | some v => cases more.meaning? depth <;> rfl
  | name gap literal colon =>
    intro depth fuel rest enough
    have ends : EndsNumber (after.val ++ ',' :: (more.text ++ '\x7d' :: rest)) :=
      endsNumber_gap after (by decide) _
    have text : Tree.text (.more (.name gap literal colon) before value after more) ++ '\x7d' :: rest =
        gap.val ++ (literal.text ++ (colon.val ++ ':' ::
          (before.val ++ (value.text ++ (after.val ++ ',' :: (more.text ++ '\x7d' :: rest)))))) := by
      simp [Tree.text, Label.text]
    obtain ⟨left, same, later⟩ := enough.exists_succ
      (after.val ++ ',' :: (more.text ++ '\x7d' :: rest)) (by rw [text]; simp; omega)
    have fewer : (more.text ++ '\x7d' :: rest).length <
        (after.val ++ ',' :: (more.text ++ '\x7d' :: rest)).length := by
      simp
      omega
    have read := ihMore depth _ rest (later _ fewer)
    rw [← readMembers_comma (readValue depth) left after] at read
    rw [text, membersFrom_eq fuel gap literal colon (ih depth before _ ends), same, read,
      Tree.meaning?, Label.name?]
    cases literal.chars? with
    | none => rfl
    | some cs =>
      cases value.meaning? depth with
      | none => rfl
      | some v => cases more.meaning? depth <;> rfl

theorem reads_tree {part : Part} (t : Tree part) : Reads part t := by
  induction t with
  | word w => exact reads_word w
  | numeral n => exact reads_numeral n
  | literal l => exact reads_literal l
  | empty kind inside => exact reads_empty kind inside
  | filled kind entries ih => exact reads_filled ih
  | last label before value after ih => exact reads_last label before after ih
  | more label before value after rest ih ihRest => exact reads_more label before after ih ihRest

/-- What a document means. -/
def Document.meaning? (d : Document) : Option Json := d.value.meaning? maxDepth

/-- A text of the grammar is read for what it means, and refused if it means nothing. -/
theorem parse_text {d : Document} {s : String} (written : d.text = s.toList) :
    (parse s).toOption = d.meaning? := by
  have ends : EndsNumber d.after.val := by
    intro c first
    have space := d.after.property c (List.mem_of_head? first)
    simp only [isSpace, Bool.or_eq_true, beq_iff_eq] at space
    rcases space with ((rfl | rfl) | rfl) | rfl <;> decide
  have value : Reads .value d.value := reads_tree d.value
  have nothing : skipSpace d.after.val = [] := List.dropWhile_eq_nil_iff.mpr d.after.property
  rw [parse, ← written, Document.text, toOption_bind, value maxDepth d.before _ ends,
    Document.meaning?]
  cases d.value.meaning? maxDepth with
  | none => rfl
  | some v =>
    rw [Option.map_some, Option.bind_some]
    dsimp only
    rw [readEnd, nothing]
    rfl

theorem parse_eq_ok_iff_meaning {d : Document} {s : String} (written : d.text = s.toList) {v : Json} :
    parse s = .ok v ↔ d.meaning? = some v := by
  rw [← parse_text written]
  cases parse s <;> simp [Except.toOption]

end SnapshotPreview.Json

import SnapshotPreview.Json.Printer
import SnapshotPreview.Proofs.Json.Meaning

/-!
# JSON with characters missing in its strings

Where plain characters are left out of the strings of a text, it still means something, and what is
printed for it is shorter by at least as many characters, if no object of the text repeats a name
(`exists_meaning_map`).
-/

namespace SnapshotPreview.Json

/-! ## The length of what is printed -/

theorem length_newLine (depth : Nat) : (newLine depth).length = 2 * depth + 1 := by
  have blanks : (String.ofList (List.replicate (2 * depth) ' ')).length = 2 * depth := by
    rw [String.length_ofList, List.length_replicate]
  rw [newLine, String.length_append, blanks]
  exact Nat.add_comm 1 _

/-- The length of some lines at a depth of nesting, each with a comma and the start of the next. -/
def linesLength (depth : Nat) : List String → Nat
  | [] => 0
  | part :: parts => part.length + (2 * depth + 2) + linesLength depth parts

/-- Behind each part but the last stands a comma, and a line begins. -/
theorem length_intercalate (depth : Nat) {parts : List String} (nonempty : parts ≠ []) :
    (String.intercalate ("," ++ newLine depth) parts).length + (2 * depth + 2) =
      linesLength depth parts := by
  induction parts with
  | nil => exact absurd rfl nonempty
  | cons part parts ih =>
    cases parts with
    | nil => simp [linesLength]
    | cons next parts =>
      have comma : ("," ++ newLine depth).length = 2 * depth + 2 := by
        rw [String.length_append, length_newLine]
        exact Nat.add_comm 1 _
      rw [String.intercalate_cons_cons, String.length_append, String.length_append, comma,
        linesLength, ← ih (List.cons_ne_nil _ _)]
      omega

theorem length_block {opening closing : String} (one : opening.length = 1 ∧ closing.length = 1)
    (depth : Nat) {parts : List String} (nonempty : parts ≠ []) :
    (block opening closing depth parts).length = 2 * depth + 2 + linesLength (depth + 1) parts := by
  rw [block, if_neg (by simpa using nonempty), ← length_intercalate (depth + 1) nonempty]
  simp only [String.length_append, length_newLine, one]
  omega

/-- The texts of some entries at a depth of nesting. -/
def Kind.parts (kind : Kind) (depth : Nat) (entries : List (String × Json)) : List String :=
  match kind with
  | array => prettyItems depth (entries.map Prod.snd)
  | object => prettyMembers depth entries

/-- The length of some entries at a depth of nesting. -/
def Kind.printedLength (kind : Kind) (depth : Nat) (entries : List (String × Json)) : Nat :=
  linesLength depth (kind.parts depth entries)

/-- The length of what stands before the value of an entry. -/
def Kind.nameLength : Kind → String → Nat
  | array, _ => 0
  | object, name => (quote name).length + 2

theorem printedLength_cons (kind : Kind) (depth : Nat) (name : String) (v : Json)
    (entries : List (String × Json)) :
    kind.printedLength depth ((name, v) :: entries) = kind.nameLength name +
      (prettyAt depth v).length + (2 * depth + 2) + kind.printedLength depth entries := by
  have colon : (": " : String).length = 2 := rfl
  cases kind with
  | array =>
    simp only [Kind.printedLength, Kind.parts, List.map_cons, prettyItems, linesLength,
      Kind.nameLength, Nat.zero_add]
  | object =>
    simp only [Kind.printedLength, Kind.parts, prettyMembers, linesLength, Kind.nameLength,
      String.length_append, colon]

theorem parts_ne_nil (kind : Kind) (depth : Nat) {entries : List (String × Json)}
    (nonempty : entries ≠ []) : kind.parts depth entries ≠ [] := by
  obtain ⟨⟨name, v⟩, entries, rfl⟩ := List.exists_cons_of_ne_nil nonempty
  cases kind <;> exact List.cons_ne_nil _ _

theorem length_array (depth : Nat) {entries : List (String × Json)} (nonempty : entries ≠ []) :
    (prettyAt depth (Kind.array.json entries)).length =
      2 * depth + 2 + Kind.array.printedLength (depth + 1) entries :=
  length_block ⟨rfl, rfl⟩ depth (parts_ne_nil .array (depth + 1) nonempty)

theorem length_object (depth : Nat) {members : List (String × Json)} (nonempty : members ≠ []) :
    (prettyAt depth (.object members)).length =
      2 * depth + 2 + Kind.object.printedLength (depth + 1) members :=
  length_block ⟨rfl, rfl⟩ depth (parts_ne_nil .object (depth + 1) nonempty)

/-! ## Names that come again -/

theorem printedLength_set (depth : Nat) (name : String) (v : Json) (members : List (String × Json)) :
    Kind.object.printedLength depth (Assoc.set name v members) ≤
      Kind.object.printedLength depth ((name, v) :: members) := by
  induction members with
  | nil => exact Nat.le_refl _
  | cons m members ih =>
    obtain ⟨first, w⟩ := m
    rw [Assoc.set]
    rw [printedLength_cons] at ih
    split
    · rename_i same
      rw [same]
      simp only [printedLength_cons]
      omega
    · simp only [printedLength_cons]
      omega

theorem printedLength_setAll (depth : Nat) (news members : List (String × Json)) :
    Kind.object.printedLength depth (Assoc.setAll news members) ≤
      Kind.object.printedLength depth news + Kind.object.printedLength depth members := by
  induction news generalizing members with
  | nil => exact Nat.le_add_left _ _
  | cons m news ih =>
    obtain ⟨name, v⟩ := m
    have later := ih (Assoc.set name v members)
    have here := printedLength_set depth name v members
    rw [printedLength_cons] at here ⊢
    rw [Assoc.setAll_cons]
    omega

theorem printedLength_membersOf (depth : Nat) (entries : List (String × Json)) :
    Kind.object.printedLength depth (membersOf entries) ≤
      Kind.object.printedLength depth entries :=
  printedLength_setAll depth entries []

theorem set_ne_nil (name : String) (v : Json) (members : List (String × Json)) :
    Assoc.set name v members ≠ [] := by
  cases members with
  | nil => exact List.cons_ne_nil _ _
  | cons m members =>
    obtain ⟨first, w⟩ := m
    rw [Assoc.set]
    split <;> exact List.cons_ne_nil _ _

theorem membersOf_ne_nil {entries : List (String × Json)} (nonempty : entries ≠ []) :
    membersOf entries ≠ [] := by
  obtain ⟨front, ⟨name, v⟩, rfl⟩ := (List.eq_nil_or_concat entries).resolve_left nonempty
  rw [membersOf, List.concat_eq_append, List.foldl_append]
  exact set_ne_nil name v _

/-! ## Strings with characters missing -/

/-- A string, and the same string with plain characters missing. -/
inductive Literal.Thins : Literal → Literal → Prop where
  | nil : Thins [] []
  | keep {piece : Piece} {l l' : Literal} : Thins l l' → Thins (piece :: l) (piece :: l')
  | drop {c : Char} {inString : c ≠ '"' ∧ c ≠ '\\' ∧ 0x20 ≤ c.toNat} {l l' : Literal} :
      Thins l l' → Thins (.plain c inString :: l) l'

theorem Literal.thins_refl (l : Literal) : l.Thins l := by
  induction l with
  | nil => exact .nil
  | cons piece l ih => exact .keep ih

theorem Literal.Thins.trans {l l' l'' : Literal} (first : l.Thins l') (second : l'.Thins l'') :
    l.Thins l'' := by
  induction first generalizing l'' with
  | nil => exact second
  | keep first ih =>
    cases second with
    | keep second => exact .keep (ih second)
    | drop second => exact .drop (ih second)
  | drop first ih => exact .drop (ih second)

theorem Literal.Thins.append {front front' back back' : Literal} (first : front.Thins front')
    (second : back.Thins back') : Literal.Thins (front ++ back) (front' ++ back') := by
  induction first with
  | nil => exact second
  | keep first ih => exact .keep ih
  | drop first ih => exact .drop ih

theorem escapeChar_plain {c : Char} (inString : c ≠ '"' ∧ c ≠ '\\' ∧ 0x20 ≤ c.toNat) :
    escapeChar c = [c] := by
  have others : ∀ d ∈ ['\x08', '\x0c', '\n', '\r', '\t'], c ≠ d := by
    rintro d isIn rfl
    have control : ∀ d ∈ ['\x08', '\x0c', '\n', '\r', '\t'], d.toNat < 0x20 :=
      Text.forall_mem_of_all (by decide)
    have := control c isIn
    omega
  have printable : ¬ c.toNat < 0x20 := by omega
  simp only [List.forall_mem_cons] at others
  simp only [escapeChar, beq_iff_eq, inString.1, inString.2.1, others, printable, if_false]

theorem length_quote (cs : List Char) :
    (quote (String.ofList cs)).length = (cs.flatMap escapeChar).length + 2 := by
  have inside : (String.ofList (cs.flatMap escapeChar)).length = (cs.flatMap escapeChar).length :=
    String.length_ofList
  rw [quote, String.length_append, String.length_append, String.toList_ofList, inside]
  exact congrArg (· + 1) (Nat.add_comm 1 _)

/-- A string with plain characters missing is written for as many characters less. -/
theorem exists_decodes_of_thins {l l' : Literal} {cs : List Char} (decodes : Decodes l cs)
    (thins : l.Thins l') : ∃ cs', Decodes l' cs' ∧
      (cs'.flatMap escapeChar).length + l.inner.length =
        (cs.flatMap escapeChar).length + l'.inner.length := by
  induction decodes generalizing l' with
  | nil =>
    cases thins
    exact ⟨[], .nil, rfl⟩
  | @plain c inString l cs decodes ih =>
    cases thins with
    | keep thins =>
      obtain ⟨cs', decodes', lengths⟩ := ih thins
      refine ⟨c :: cs', .plain decodes', ?_⟩
      simp only [List.flatMap_cons, literal_inner_cons, List.length_append]
      omega
    | drop thins =>
      obtain ⟨cs', decodes', lengths⟩ := ih thins
      refine ⟨cs', decodes', ?_⟩
      simp only [List.flatMap_cons, literal_inner_cons, List.length_append,
        escapeChar_plain inString, Piece.text]
      omega
  | short decodes ih =>
    cases thins with
    | keep thins =>
      obtain ⟨cs', decodes', lengths⟩ := ih thins
      refine ⟨_ :: cs', .short decodes', ?_⟩
      simp only [List.flatMap_cons, literal_inner_cons, List.length_append]
      omega
  | unicode notHigh notLow decodes ih =>
    cases thins with
    | keep thins =>
      obtain ⟨cs', decodes', lengths⟩ := ih thins
      refine ⟨_ :: cs', .unicode notHigh notLow decodes', ?_⟩
      simp only [List.flatMap_cons, literal_inner_cons, List.length_append]
      omega
  | pair high low decodes ih =>
    cases thins with
    | keep thins =>
      cases thins with
      | keep thins =>
        obtain ⟨cs', decodes', lengths⟩ := ih thins
        refine ⟨_ :: cs', .pair high low decodes', ?_⟩
        simp only [List.flatMap_cons, literal_inner_cons, List.length_append]
        omega

/-! ## Texts with other strings -/

/-- A label with another name. -/
def Label.map (f : Literal → Literal) {kind : Kind} : Label kind → Label kind
  | item => item
  | name before literal after => name before (f literal) after

/-- A tree with other strings. -/
def Tree.map (f : Literal → Literal) : {part : Part} → Tree part → Tree part
  | _, word w => word w
  | _, numeral n => numeral n
  | _, literal l => literal (f l)
  | _, empty kind gap => empty kind gap
  | _, filled kind entries => filled kind (entries.map f)
  | _, last label before value after => last (label.map f) before (value.map f) after
  | _, more label before value after rest =>
    more (label.map f) before (value.map f) after (rest.map f)

theorem map_map (f g : Literal → Literal) {part : Part} (t : Tree part) :
    (t.map f).map g = t.map fun l => g (f l) := by
  have labels {kind : Kind} (label : Label kind) :
      (label.map f).map g = label.map fun l => g (f l) := by cases label <;> rfl
  induction t with
  | word | numeral | literal | empty => rfl
  | filled kind entries ih => rw [Tree.map, Tree.map, ih, Tree.map]
  | last label before value after ih => rw [Tree.map, Tree.map, labels, ih, Tree.map]
  | more label before value after rest ih ihRest =>
    rw [Tree.map, Tree.map, labels, ih, ihRest, Tree.map]

theorem map_of_fixed {f : Literal → Literal} {part : Part} {t : Tree part}
    (fixed : ∀ l : Literal, l.inner ∈ t.strings → f l = l) : t.map f = t := by
  have labels {kind : Kind} {label : Label kind}
      (fixed : ∀ l : Literal, l.inner ∈ label.strings → f l = l) : label.map f = label := by
    cases label with
    | item => rfl
    | name before l after => rw [Label.map, fixed l (List.mem_singleton.mpr rfl)]
  induction t with
  | word | numeral | empty => rfl
  | literal l => rw [Tree.map, fixed l (List.mem_singleton.mpr rfl)]
  | filled kind entries ih => rw [Tree.map, ih fixed]
  | last label before value after ih =>
    simp only [Tree.strings, List.mem_append] at fixed
    rw [Tree.map, labels fun l isIn => fixed l (.inl isIn), ih fun l isIn => fixed l (.inr isIn)]
  | more label before value after rest ih ihRest =>
    simp only [Tree.strings, List.mem_append] at fixed
    rw [Tree.map, labels fun l isIn => fixed l (.inl isIn),
      ih fun l isIn => fixed l (.inr (.inl isIn)), ihRest fun l isIn => fixed l (.inr (.inr isIn))]

/-- A document with other strings. -/
def Document.map (f : Literal → Literal) (d : Document) : Document :=
  ⟨d.before, d.value.map f, d.after⟩

/-- The strings of a tree stand in its text, with their quotes. -/
theorem infix_of_mem_strings {part : Part} {t : Tree part} {inner : List Char}
    (isIn : inner ∈ t.strings) : '"' :: inner <:+: t.text := by
  have literals (l : Literal) : '"' :: l.inner <:+: l.text := ⟨[], ['"'], rfl⟩
  have labels {kind : Kind} {label : Label kind} (isIn : inner ∈ label.strings) :
      '"' :: inner <:+: label.text := by
    cases label with
    | item => cases isIn
    | name before l after =>
      obtain rfl := List.mem_singleton.mp isIn
      exact (literals l).trans ⟨before.val, after.val ++ [':'], by simp [Label.text]⟩
  induction t with
  | word | numeral | empty => cases isIn
  | literal l =>
    obtain rfl := List.mem_singleton.mp isIn
    exact literals l
  | filled kind entries ih => exact (ih isIn).trans ⟨[kind.opening], [kind.closing], rfl⟩
  | last label before value after ih =>
    rcases List.mem_append.mp isIn with inLabel | inValue
    · exact (labels inLabel).trans (List.prefix_append _ _).isInfix
    · exact (ih inValue).trans ⟨label.text ++ before.val, after.val, by simp [Tree.text]⟩
  | more label before value after rest ih ihRest =>
    simp only [Tree.strings, List.mem_append] at isIn
    rcases isIn with inLabel | inValue | inRest
    · exact (labels inLabel).trans (List.prefix_append _ _).isInfix
    · exact (ih inValue).trans ⟨label.text ++ before.val, after.val ++ ',' :: rest.text,
        by simp [Tree.text]⟩
    · exact (ihRest inRest).trans
        ⟨label.text ++ (before.val ++ (value.text ++ (after.val ++ [',']))), [], by simp [Tree.text]⟩

/-- The names of some entries. -/
def Tree.names : {part : Part} → Tree part → List (Option String)
  | _, last label _ _ _ => [label.name?]
  | _, more label _ _ _ rest => label.name? :: rest.names
  | _, _ => []

/-- No object of a tree repeats a name. -/
def Tree.DistinctNames : {part : Part} → Tree part → Prop
  | _, filled kind entries => (kind = .object → entries.names.Nodup) ∧ entries.DistinctNames
  | _, last _ _ value _ => value.DistinctNames
  | _, more _ _ value _ rest => value.DistinctNames ∧ rest.DistinctNames
  | _, _ => True

/-- As many characters as are missing in a tree are missing in what is printed for it, or more. -/
def Shrinks : {part : Part} → (t t' : Tree part) → (m m' : part.Meaning) → Prop
  | .value, t, t', v, v' => ∀ depth,
      (prettyAt depth v').length + t.text.length ≤ (prettyAt depth v).length + t'.text.length
  | .entries kind, t, t', es, es' => ∀ depth,
      kind.printedLength depth es' + t.text.length ≤ kind.printedLength depth es + t'.text.length

theorem entries_ne_nil {kind : Kind} {entries : Tree (.entries kind)} {depth : Nat}
    {es : List (String × Json)} (meant : entries.meaning? depth = some es) : es ≠ [] := by
  cases entries with
  | last label before value after =>
    obtain ⟨name, -, single⟩ := Option.bind_eq_some_iff.mp meant
    obtain ⟨v, -, rfl⟩ := Option.map_eq_some_iff.mp single
    exact List.cons_ne_nil _ _
  | more label before value after rest =>
    obtain ⟨name, -, first⟩ := Option.bind_eq_some_iff.mp meant
    obtain ⟨v, -, others⟩ := Option.bind_eq_some_iff.mp first
    obtain ⟨es, -, rfl⟩ := Option.map_eq_some_iff.mp others
    exact List.cons_ne_nil _ _

theorem names_of_meaning? {kind : Kind} {depth : Nat} {es : List (String × Json)} :
    (entries : Tree (.entries kind)) → entries.meaning? depth = some es →
      entries.names = (Assoc.keys es).map some
  | .last label before value after, meant => by
    obtain ⟨name, named, single⟩ := Option.bind_eq_some_iff.mp meant
    obtain ⟨v, -, rfl⟩ := Option.map_eq_some_iff.mp single
    rw [Tree.names, named]
    rfl
  | .more label before value after rest, meant => by
    obtain ⟨name, named, first⟩ := Option.bind_eq_some_iff.mp meant
    obtain ⟨v, -, others⟩ := Option.bind_eq_some_iff.mp first
    obtain ⟨es, meantRest, rfl⟩ := Option.map_eq_some_iff.mp others
    rw [Tree.names, named, names_of_meaning? rest meantRest]
    rfl

theorem exists_label_map {f : Literal → Literal} (thins : ∀ l : Literal, l.Thins (f l)) {kind : Kind}
    {label : Label kind} {name : String} (named : label.name? = some name) :
    ∃ name', (label.map f).name? = some name' ∧
      kind.nameLength name' + label.text.length =
        kind.nameLength name + (label.map f).text.length := by
  cases label with
  | item => exact ⟨name, named, rfl⟩
  | name before literal after =>
    obtain ⟨cs, known, rfl⟩ := Option.map_eq_some_iff.mp named
    obtain ⟨cs', decodes, lengths⟩ :=
      exists_decodes_of_thins (decodes_of_chars? known) (thins literal)
    refine ⟨String.ofList cs', by rw [Label.map, Label.name?, chars?_of_decodes decodes]; rfl, ?_⟩
    simp only [Kind.nameLength, length_quote, Label.map, Label.text, Literal.text,
      List.length_append, List.length_cons]
    omega

theorem shrinks_filled {kind : Kind} {entries entries' : Tree (.entries kind)}
    {es es' : List (String × Json)} (nonempty : es ≠ []) (nonempty' : es' ≠ [])
    (distinct : kind = .object → (Assoc.keys es).Nodup)
    (shrinks : Shrinks entries entries' es es') :
    Shrinks (.filled kind entries) (.filled kind entries') (kind.json es) (kind.json es') := by
  intro depth
  have lengths := shrinks (depth + 1)
  cases kind with
  | array =>
    rw [length_array depth nonempty, length_array depth nonempty']
    simp only [Tree.text, List.length_cons, List.length_append]
    omega
  | object =>
    have merged := printedLength_membersOf (depth + 1) es'
    rw [Kind.json, Kind.json, length_object depth (membersOf_ne_nil nonempty'),
      membersOf_of_nodup (distinct rfl), length_object depth nonempty]
    simp only [Tree.text, List.length_cons, List.length_append]
    omega

/-- A tree with plain characters missing in its strings still means something. -/
theorem exists_meaning_map {f : Literal → Literal} (thins : ∀ l : Literal, l.Thins (f l)) {part : Part}
    (t : Tree part) {depth : Nat} {m : part.Meaning} (meant : t.meaning? depth = some m) :
    ∃ m', (t.map f).meaning? depth = some m' ∧ (t.DistinctNames → Shrinks t (t.map f) m m') := by
  induction t generalizing depth with
  | word w => exact ⟨m, meant, fun _ depth => Nat.le_refl _⟩
  | numeral n => exact ⟨m, meant, fun _ depth => Nat.le_refl _⟩
  | literal l =>
    obtain ⟨cs, known, rfl⟩ := Option.map_eq_some_iff.mp meant
    obtain ⟨cs', decodes, lengths⟩ := exists_decodes_of_thins (decodes_of_chars? known) (thins l)
    refine ⟨.string (String.ofList cs'), ?_, fun _ depth => ?_⟩
    · rw [Tree.map, Tree.meaning?, chars?_of_decodes decodes]
      rfl
    · simp only [prettyAt, length_quote, Tree.map, Tree.text, Literal.text, List.length_append,
        List.length_cons]
      omega
  | empty kind gap =>
    exact ⟨m, by cases depth <;> exact meant, fun _ depth => Nat.le_refl _⟩
  | filled kind entries ih =>
    cases depth with
    | zero => cases meant
    | succ depth =>
      obtain ⟨es, inside, rfl⟩ := Option.map_eq_some_iff.mp meant
      obtain ⟨es', inside', shrinks⟩ := ih inside
      refine ⟨kind.json es', by rw [Tree.map, Tree.meaning?, inside']; rfl, fun distinct => ?_⟩
      refine shrinks_filled (entries_ne_nil inside) (entries_ne_nil inside') (fun isObject => ?_)
        (shrinks distinct.2)
      have names := distinct.1 isObject
      rw [names_of_meaning? entries inside] at names
      exact names.of_map some
  | last label before value after ih =>
    obtain ⟨name, named, single⟩ := Option.bind_eq_some_iff.mp meant
    obtain ⟨v, inside, rfl⟩ := Option.map_eq_some_iff.mp single
    obtain ⟨name', named', names⟩ := exists_label_map thins named
    obtain ⟨v', inside', shrinks⟩ := ih inside
    refine ⟨[(name', v')], by rw [Tree.map, Tree.meaning?, named', inside']; rfl,
      fun distinct depth => ?_⟩
    have lengths := shrinks distinct depth
    simp only [Tree.map, Tree.text, List.length_append, printedLength_cons]
    omega
  | more label before value after rest ih ihRest =>
    obtain ⟨name, named, first⟩ := Option.bind_eq_some_iff.mp meant
    obtain ⟨v, inside, others⟩ := Option.bind_eq_some_iff.mp first
    obtain ⟨es, behind, rfl⟩ := Option.map_eq_some_iff.mp others
    obtain ⟨name', named', names⟩ := exists_label_map thins named
    obtain ⟨v', inside', shrinks⟩ := ih inside
    obtain ⟨es', behind', shrinksRest⟩ := ihRest behind
    refine ⟨(name', v') :: es', ?_, fun distinct depth => ?_⟩
    · rw [Tree.map, Tree.meaning?, named', inside', behind']
      rfl
    · have lengths := shrinks distinct.1 depth
      have lengthsRest := shrinksRest distinct.2 depth
      simp only [Tree.map, Tree.text, List.length_append, List.length_cons, printedLength_cons]
      omega

end SnapshotPreview.Json

import SnapshotPreview.Proofs.CallSite
import SnapshotPreview.Proofs.LensOpenings

/-!
# From anchors to tests

An anchor of a test call and the test found for a caret come from two readers: one goes forward
through a line and admits white space of any script and three kinds of quotes, the other goes back
from a single quote and passes over ASCII white space only. Where the first argument stands in
single quotes, the identifier of the call has no ASCII white space in it and that behind the
identifier is ASCII, the anchor leads to its own test (`Locator.testName_of_lens`).
-/

namespace SnapshotPreview

/-! ## Scans over a stretch -/

namespace Locator

theorem firstFrom_of_parts {text : Array UInt8} {value : UInt8} {front stretch back : List UInt8}
    (parts : text.toList = front ++ (stretch ++ value :: back)) (absent : value ∉ stretch) :
    firstFrom text value front.length = some (front.length + stretch.length) := by
  have none : stretch.findIdx? (· == value) = none := by
    rw [List.findIdx?_eq_none_iff]
    intro b isIn
    exact beq_eq_false_iff_ne.mpr (fun same => absent (same ▸ isIn))
  simp [firstFrom, parts, List.findIdx?_append, none, List.findIdx?_cons]

end Locator

/-! ## A quoted argument and the block behind it -/

/-- A character that is no backslash, quote or bracket. -/
def isPlain (c : Char) : Bool :=
  c ∉ ['\\', '\x27', '"', '\x60', '(', ')', '[', ']', '\x7b', '\x7d']

/-- A first argument in single quotes, without backslashes, quotes and brackets, and the first block
behind it, in which no other block stands. -/
structure QuotedThenBlock (s : String) where
  before : List Char
  literal : List Char
  between : List Char
  body : List Char
  after : List Char
  parts : s.toList = before ++ '\x27' :: (literal ++ '\x27' :: (between ++ '\x7b' :: (body ++
    '\x7d' :: after)))
  plain : literal.all isPlain = true
  noBraces : '\x7b' ∉ between ++ body ∧ '\x7d' ∉ between ++ body

namespace QuotedThenBlock

variable {s : String} (arg : QuotedThenBlock s)

/-- The position of the opening quote. -/
def opening : Nat := Text.byteLength arg.before

/-- The position of the closing quote. -/
def closing : Nat := arg.opening + 1 + Text.byteLength arg.literal

/-- The position of the opening brace. -/
def brace : Nat := arg.closing + 1 + Text.byteLength arg.between

theorem toList_bytesOf : (Text.bytesOf s).toList =
    Text.encode arg.before ++ Text.byte '\x27' :: (Text.encode arg.literal ++
      Text.byte '\x27' :: (Text.encode arg.between ++ Text.byte '\x7b' :: (Text.encode arg.body ++
        Text.byte '\x7d' :: Text.encode arg.after))) := by
  have ascii (c : Char) (narrow : c.toNat < 128) : String.utf8EncodeChar c = [Text.byte c] :=
    Text.utf8EncodeChar_of_ascii narrow
  rw [Text.toList_bytesOf, arg.parts]
  simp only [Text.encode_append, Text.encode_cons, ascii '\x27' (by decide),
    ascii '\x7b' (by decide), ascii '\x7d' (by decide), List.singleton_append]

theorem not_mem_literal {c : Char} (excluded : isPlain c = false) : c ∉ arg.literal := by
  intro isIn
  rw [List.all_eq_true.mp arg.plain c isIn] at excluded
  cases excluded

theorem byte_not_mem_literal {c : Char} (ascii : c.toNat < 128) (excluded : isPlain c = false) :
    Text.byte c ∉ Text.encode arg.literal := by
  rw [Text.byte_mem_encode_iff ascii]
  exact arg.not_mem_literal excluded

/-! ## What the locator finds -/

theorem length_before : (Text.encode arg.before).length = arg.opening :=
  Text.length_encode arg.before

theorem quote_at_opening : (Text.bytesOf s)[arg.opening]? = some (Text.byte '\x27') := by
  rw [← arg.length_before]
  exact Call.getElem?_of_parts arg.toList_bytesOf

theorem brace_not_mem {cs : List Char} (within : cs ⊆ arg.between ++ arg.body) :
    Text.byte '\x7b' ∉ Text.encode cs ∧ Text.byte '\x7d' ∉ Text.encode cs := by
  rw [Text.byte_mem_encode_iff (by decide), Text.byte_mem_encode_iff (by decide)]
  exact ⟨fun isIn => arg.noBraces.1 (within isIn), fun isIn => arg.noBraces.2 (within isIn)⟩

/-- The first closing brace behind the opening quote ends the block. -/
theorem firstFrom_opening :
    Locator.firstFrom (Text.bytesOf s) (Text.byte '\x7d') (arg.opening + 1) =
      some (arg.brace + Text.byteLength arg.body + 1) := by
  have split : (Text.bytesOf s).toList = (Text.encode arg.before ++ [Text.byte '\x27']) ++
      ((Text.encode arg.literal ++ Text.byte '\x27' :: (Text.encode arg.between ++
        Text.byte '\x7b' :: Text.encode arg.body)) ++
          Text.byte '\x7d' :: Text.encode arg.after) := by
    rw [arg.toList_bytesOf]
    simp
  have inLiteral := arg.byte_not_mem_literal (c := '\x7d') (by decide) (by decide)
  have inBetween := (arg.brace_not_mem (List.subset_append_left _ _)).2
  have inBody := (arg.brace_not_mem (List.subset_append_right _ _)).2
  have found := Locator.firstFrom_of_parts split (by
    simp only [List.mem_append, List.mem_cons, not_or]
    exact ⟨inLiteral, by decide, inBetween, by decide, inBody⟩)
  simp only [List.length_append, List.length_cons, List.length_nil, arg.length_before,
    Text.length_encode] at found
  rw [found, brace, closing]
  congr 1
  omega

/-- Looking back from the end of the block, its opening brace is found. -/
theorem find_body : Bracket.find (Text.bytesOf s) (arg.brace + Text.byteLength arg.body)
    (Text.byte '\x7b') (Text.byte '\x7d') .backward = some arg.brace := by
  have split : (Text.bytesOf s).toList =
      (Text.encode arg.before ++ Text.byte '\x27' :: (Text.encode arg.literal ++
        Text.byte '\x27' :: Text.encode arg.between)) ++ Text.byte '\x7b' ::
          (Text.encode arg.body ++ Text.byte '\x7d' :: Text.encode arg.after) := by
    rw [arg.toList_bytesOf]
    simp
  have flat := arg.brace_not_mem (List.subset_append_right _ _)
  have found := Bracket.find_backward_of_parts split flat.1 flat.2
  have length : (Text.encode arg.before ++ Text.byte '\x27' :: (Text.encode arg.literal ++
      Text.byte '\x27' :: Text.encode arg.between)).length = arg.brace := by
    simp only [List.length_append, List.length_cons, arg.length_before, Text.length_encode, brace,
      closing]
    omega
  rwa [length, Text.length_encode] at found

/-- The block around a caret just behind the opening quote is the one behind the argument. -/
theorem contextStart_eq :
    Locator.contextStart (Text.bytesOf s) (arg.opening + 1) = some (arg.brace - 1) := by
  have inside : arg.opening + 1 ≤ (Text.bytesOf s).size :=
    (Array.getElem?_eq_some_iff.mp arg.quote_at_opening).1
  have close := arg.firstFrom_opening
  have block := arg.find_body
  obtain ⟨start, next⟩ : ∃ start, arg.brace = start + 1 :=
    ⟨_, (Nat.succ_pred (by simp [brace])).symm⟩
  rw [next] at close block ⊢
  simp only [Locator.contextStart, Nat.min_eq_left inside, close, block, Nat.add_sub_cancel]

/-- A byte of the literal. -/
theorem exists_getElem?_literal {q : Nat} (after : arg.opening < q) (before : q < arg.closing) :
    ∃ b ∈ Text.encode arg.literal, (Text.bytesOf s)[q]? = some b := by
  have length : (Text.encode arg.before ++ [Text.byte '\x27']).length = arg.opening + 1 := by
    rw [List.length_append, arg.length_before]
    rfl
  have inLiteral : q - (arg.opening + 1) < (Text.encode arg.literal).length := by
    rw [Text.length_encode]
    rw [closing] at before
    omega
  refine ⟨(Text.encode arg.literal)[q - (arg.opening + 1)], List.getElem_mem _, ?_⟩
  rw [← Array.getElem?_toList, arg.toList_bytesOf, List.append_cons,
    List.getElem?_append_right (by omega), length, List.getElem?_append_left inLiteral,
    List.getElem?_eq_getElem inLiteral]

/-- No call begins in the literal or at its closing quote. -/
theorem at?_literal (vocabulary : Vocabulary) (kind : CallKind) {q : Nat} (after : arg.opening < q)
    (before : q ≤ arg.closing) : Call.at? (Text.bytesOf s) vocabulary kind q = none := by
  rcases Nat.lt_or_eq_of_le before with inside | atClosing
  · obtain ⟨b, isIn, here⟩ := arg.exists_getElem?_literal after inside
    cases hit : Call.at? (Text.bytesOf s) vocabulary kind q with
    | none => rfl
    | some call =>
      have quote := (Locator.quote_of_at? hit).1
      rw [here] at quote
      rw [Option.some.inj quote] at isIn
      exact absurd isIn (arg.byte_not_mem_literal (by decide) (by decide))
  · refine Call.at?_eq_none_of_noParen arg.quote_at_opening (by decide) after ?_
    intro r low high paren
    rcases Nat.lt_or_eq_of_le low with beyond | atOpening
    · obtain ⟨b, isIn, here⟩ := arg.exists_getElem?_literal beyond (by omega)
      rw [here] at paren
      rw [Option.some.inj paren] at isIn
      exact absurd isIn (arg.byte_not_mem_literal (by decide) (by decide))
    · rw [← atOpening, arg.quote_at_opening] at paren
      exact absurd (Option.some.inj paren) (by decide)

/-! ## The call of an anchor -/

/-- The text before the argument of an anchor's call ends with the parenthesis of the call and white
space. -/
theorem before_of_opening {idents : List String} (o : Lens.Opening s idents)
    (inside : (o.lens .test).offset = arg.opening + 1) :
    ∃ spaces, (∀ c ∈ spaces, Text.isSpace c = true) ∧
      arg.before = o.above ++ o.head ++ '(' :: spaces := by
  have isSpace : ∀ c ∈ o.after.takeWhile Text.isSpace, Text.isSpace c = true :=
    List.all_eq_true.mp List.all_takeWhile
  refine ⟨o.after.takeWhile Text.isSpace, isSpace, ?_⟩
  have split : s.toList = (o.above ++ o.head ++ '(' :: o.after.takeWhile Text.isSpace) ++
      o.after.dropWhile Text.isSpace := by
    rw [o.split, List.append_assoc _ ('(' :: _), List.cons_append, List.takeWhile_append_dropWhile]
  have width : Text.byteLength (o.above ++ o.head ++ '(' :: o.after.takeWhile Text.isSpace) =
      o.paren + 1 + Text.byteLength (o.after.takeWhile Text.isSpace) := by
    rw [List.append_cons, Text.byteLength_append, Text.byteLength_append]
    rfl
  simp only [Lens.Opening.lens, ← width] at inside
  split at inside
  · exact Text.append_inj_of_byteLength (arg.parts.symm.trans split) (Nat.succ.inj inside).symm
  · -- Behind white space or the parenthesis: then the quote of the argument would be one of them.
    have joined : (arg.before ++ ['\x27']) ++ (arg.literal ++ '\x27' :: (arg.between ++ '\x7b' ::
          (arg.body ++ '\x7d' :: arg.after))) =
        (o.above ++ o.head ++ '(' :: o.after.takeWhile Text.isSpace) ++
          o.after.dropWhile Text.isSpace := by
      rw [← split, arg.parts]
      simp
    have same : arg.before ++ ['\x27'] =
        o.above ++ o.head ++ '(' :: o.after.takeWhile Text.isSpace := by
      refine Text.append_inj_of_byteLength joined ?_
      rw [Text.byteLength_append]
      exact inside.symm
    have last : '\x27' ∈ '(' :: o.after.takeWhile Text.isSpace := by
      have ends := congrArg List.getLast? same
      rw [List.getLast?_concat, List.getLast?_append_of_ne_nil _ (List.cons_ne_nil _ _)] at ends
      exact List.mem_of_getLast? ends.symm
    rcases List.mem_cons.mp last with paren | space
    · exact absurd paren (by decide)
    · exact absurd (isSpace _ space) (by decide)

/-- The argument of an anchor's call is the name of a test call. -/
theorem testName?_of_opening {vocabulary : Vocabulary} (o : Lens.Opening s vocabulary.tests)
    (inside : (o.lens .test).offset = arg.opening + 1)
    (word : ∀ c ∈ o.ident.toList, Text.isSpace c = false)
    (asciiGap : ∀ c ∈ o.gap, Text.isSpace c = true) :
    Locator.testName? (Text.bytesOf s) vocabulary arg.opening =
      some (String.ofList arg.literal) := by
  obtain ⟨spaces, isSpace, before⟩ := arg.before_of_opening o inside
  have asciiRun : ∀ b ∈ Text.encode o.gap, Text.isSpaceByte b = true := fun b isIn =>
    Text.isSpaceByte_of_mem_encode asciiGap isIn
  have asciiSpaces : ∀ b ∈ Text.encode spaces, Text.isSpaceByte b = true := fun b isIn =>
    Text.isSpaceByte_of_mem_encode isSpace isIn
  have bytes : Text.encode arg.before = Text.encode (o.above ++ o.front) ++
      Text.encode o.ident.toList ++ Text.encode o.gap ++ [Text.byte '('] ++ Text.encode spaces := by
    rw [before, Lens.Opening.head]
    simp [Text.utf8EncodeChar_of_ascii (c := '(') (by decide)]
  have split := arg.toList_bytesOf
  rw [bytes] at split
  have opens := Call.opensAt_of_parts split word asciiRun asciiSpaces
  rw [← bytes, arg.length_before] at opens
  rw [Locator.testName?, Call.name_of_opensAt o.known opens, ← arg.length_before]
  exact congrArg some (Quoted.value_read arg.toList_bytesOf
    (arg.not_mem_literal (by decide)) (arg.not_mem_literal (by decide)))

end QuotedThenBlock

/-! ## Anchors and their tests -/

namespace Lens

theorem exists_opening_of_lens {s : String} {vocabulary : Vocabulary} {lens : Lens}
    (isLens : lens ∈ tests s vocabulary) :
    ∃ o : Opening s vocabulary.tests, o.lens .test = lens := by
  obtain ⟨anchor, isAnchor, rfl⟩ := List.mem_map.mp isLens
  obtain ⟨o, same⟩ := exists_opening_of_mem (List.mem_filter.mp isAnchor).1
  exact ⟨o, congrArg Prod.fst same⟩

end Lens

namespace Locator

/-- An anchor stands behind an identifier and white space. It leads to its own test where its first
argument stands in single quotes, no test call begins between that and the block behind it, the
identifier has no ASCII white space in it, and the white space behind the identifier is ASCII. -/
theorem testName_of_lens {s : String} {vocabulary : Vocabulary} {lens : Lens}
    (isLens : lens ∈ Lens.tests s vocabulary) (arg : QuotedThenBlock s)
    (inside : lens.offset = arg.opening + 1)
    (noTest : ∀ q, arg.closing < q → q < arg.brace →
      Call.at? (Text.bytesOf s) vocabulary .test q = none) :
    (∃ o : Lens.Opening s vocabulary.tests, o.lens .test = lens) ∧
      ∀ o : Lens.Opening s vocabulary.tests, o.lens .test = lens →
        (∀ c ∈ o.ident.toList, Text.isSpace c = false) →
        (∀ c ∈ o.gap, Text.isSpace c = true) →
        (locate (Text.bytesOf s) vocabulary lens.offset).testName =
          some (String.ofList arg.literal) := by
  refine ⟨Lens.exists_opening_of_lens isLens, ?_⟩
  rintro o rfl word asciiGap
  have named := arg.testName?_of_opening o inside word asciiGap
  have found : FindsTest (Text.bytesOf s) vocabulary (o.lens .test).offset arg.opening := by
    refine ⟨arg.brace - 1, by rw [inside, arg.contextStart_eq], ?_, ?_, ?_⟩
    · simp only [QuotedThenBlock.brace, QuotedThenBlock.closing]
      omega
    · obtain ⟨call, hit, -⟩ := Option.map_eq_some_iff.mp named
      rw [hit]
      rfl
    · intro later le after
      by_cases inLiteral : later ≤ arg.closing
      · exact arg.at?_literal vocabulary .test after inLiteral
      · have : 0 < arg.brace := by
          rw [QuotedThenBlock.brace]
          omega
        exact noTest later (by omega) (by omega)
  rw [testName_of_findsTest found, named]

/-- A test with a block. -/
def singleQuoted : String := "it ( 'x', () => \x7b matchSnapshot('a') \x7d);"

/-- Identifiers of which one has a space in it. -/
def spacedTests : Vocabulary := { Vocabulary.builtIn with tests := ["my test", "it"] }

/-- The argument of the test, and the block behind it. -/
def argumentOfSingleQuoted : QuotedThenBlock singleQuoted where
  before := "it ( ".toList
  literal := "x".toList
  between := ", () => ".toList
  body := " matchSnapshot('a') ".toList
  after := ");".toList
  parts := by decide +kernel
  plain := by decide +kernel
  noBraces := by decide +kernel

/-- Where the test opens. -/
def openingOfSingleQuoted : Lens.Opening singleQuoted spacedTests.tests where
  above := []
  front := []
  ident := "it"
  gap := [' ']
  seen := " 'x', () => \x7b matchSnapshot('a') \x7d);".toList
  unseen := []
  below := []
  parts := by decide +kernel
  known := by decide
  blank := Text.forall_mem_of_all (by decide)
  begins := .inl rfl
  oneLine := by decide +kernel
  ends := .inl rfl
  within := by decide +kernel
  full := nofun

theorem testName_of_singleQuoted :
    (⟨.test, 0, 4, 40, 6⟩ : Lens) ∈ Lens.tests singleQuoted spacedTests ∧
      (locate (Text.bytesOf singleQuoted) spacedTests 6).testName = some "x" := by
  have isLens : (⟨.test, 0, 4, 40, 6⟩ : Lens) ∈ Lens.tests singleQuoted spacedTests := by
    decide +kernel
  have noTest : ∀ q, argumentOfSingleQuoted.closing < q → q < argumentOfSingleQuoted.brace →
      Call.at? (Text.bytesOf singleQuoted) spacedTests .test q = none := by
    have closing : argumentOfSingleQuoted.closing = 7 := by decide
    have brace : argumentOfSingleQuoted.brace = 16 := by decide
    have none : ∀ q < 16, 7 < q →
        Call.at? (Text.bytesOf singleQuoted) spacedTests .test q = none := by decide +kernel
    rw [closing, brace]
    exact fun q low high => none q high low
  obtain ⟨-, leads⟩ :=
    testName_of_lens isLens argumentOfSingleQuoted (by decide +kernel) noTest
  exact ⟨isLens, leads openingOfSingleQuoted (by decide +kernel)
    (Text.forall_mem_of_all (by decide)) (Text.forall_mem_of_all (by decide))⟩

/-- The anchor at a position does not lead to a test of the given name. -/
def LeadsAstray (s : String) (vocabulary : Vocabulary) (offset : Nat) (name : String) : Prop :=
  (∃ lens ∈ Lens.tests s vocabulary, lens.offset = offset) ∧
    (locate (Text.bytesOf s) vocabulary offset).testName ≠ some name

instance (s : String) (vocabulary : Vocabulary) (offset : Nat) (name : String) :
    Decidable (LeadsAstray s vocabulary offset name) :=
  inferInstanceAs (Decidable ((∃ lens ∈ Lens.tests s vocabulary, lens.offset = offset) ∧
    (locate (Text.bytesOf s) vocabulary offset).testName ≠ some name))

/-- None of the conditions can be left out: other quotes, an identifier with a space, other white
space behind the identifier, a test call before the block. -/
theorem leadsAstray_otherwise :
    LeadsAstray "it(\"x\", () => \x7b matchSnapshot('a') \x7d)" .builtIn 4 "x" ∧
      LeadsAstray "it(\x60x\x60, () => \x7b matchSnapshot('a') \x7d)" .builtIn 4 "x" ∧
      LeadsAstray "my test('x', () => \x7b matchSnapshot('a') \x7d)"
        { Vocabulary.builtIn with tests := ["my test"] } 9 "x" ∧
      LeadsAstray "it\u00a0('x', () => \x7b matchSnapshot('a') \x7d)" .builtIn 6 "x" ∧
      LeadsAstray "it('x', it('y'), () => \x7b matchSnapshot('a') \x7d)" .builtIn 4 "x" := by
  decide +kernel

end Locator

end SnapshotPreview

import SnapshotPreview.Proofs.Json.Quotes
import SnapshotPreview.Proofs.Markup.StyleObjects

/-!
# The quotes of a style attribute

A style object that can be read becomes an attribute whose value stands between two quotes as it is:
names and strings are decoded and written without any escape. So for a text that is a style object
from end to end (`at?_whole_iff`) the attribute is whole exactly if no name has a quote and no value
shows one (`inlineStyles_whole_iff`); a quoted font ends it early (`inlineStyles_fontStyle`).
-/

namespace SnapshotPreview.Markup

open Text

/-! ## The lines of a style object -/

theorem afterLastObject?_of_append {front rest : List Char} (oneLine : '\n' ∉ front)
    (absent : afterLastObject? (front ++ rest) = none) : afterLastObject? rest = none := by
  induction front with
  | nil => exact absent
  | cons c front ih =>
    rw [List.mem_cons, not_or] at oneLine
    rw [List.cons_append, afterLastObject?, if_neg (Ne.symm oneLine.1),
      Option.or_eq_none_iff] at absent
    exact ih oneLine.2 absent.1

theorem afterLastObject?_word (rest : List Char) :
    afterLastObject? ("Object \x7b".toList ++ rest) ≠ none := by
  intro absent
  have word : "Object \x7b".toList ++ rest = 'O' :: ("bject \x7b".toList ++ rest) := rfl
  have begins : afterPrefix? "Object \x7b".toList ("Object \x7b".toList ++ rest) = some rest :=
    afterPrefix?_eq_some_iff.mpr rfl
  rw [word, afterLastObject?, if_neg (by decide), Option.or_eq_none_iff, ← word, begins] at absent
  cases absent.2

/-- What stands behind the last opening of an object on the first line. -/
theorem parts_of_afterLastObject? {cs rest : List Char} (found : afterLastObject? cs = some rest) :
    ∃ gap, '\n' ∉ gap ∧ cs = gap ++ ("Object \x7b".toList ++ rest) ∧
      afterLastObject? rest = none := by
  induction cs with
  | nil => cases found
  | cons c cs ih =>
    by_cases newline : c = '\n'
    · rw [newline, afterLastObject?_newline] at found
      cases found
    · rw [afterLastObject?, if_neg newline] at found
      rcases Option.or_eq_some_iff.mp found with later | ⟨noneLater, here⟩
      · obtain ⟨gap, oneLine, parts, last⟩ := ih later
        exact ⟨c :: gap, by simp [Ne.symm newline, oneLine], congrArg (c :: ·) parts, last⟩
      · have begins := afterPrefix?_eq_some_iff.mp here
        obtain ⟨-, behind⟩ := List.cons.inj begins
        rw [behind] at noneLater
        exact ⟨[], List.not_mem_nil, begins, afterLastObject?_of_append (by decide) noneLater⟩

theorem parts_of_afterLastBrace? {cs rest : List Char} (found : afterLastBrace? cs = some rest) :
    ∃ gap, '\n' ∉ gap ∧ cs = gap ++ '\x7d' :: rest := by
  induction cs with
  | nil => cases found
  | cons c cs ih =>
    by_cases newline : c = '\n'
    · rw [afterLastBrace?, if_pos newline] at found
      cases found
    · rw [afterLastBrace?, if_neg newline] at found
      rcases Option.or_eq_some_iff.mp found with later | ⟨-, here⟩
      · obtain ⟨gap, oneLine, rfl⟩ := ih later
        exact ⟨c :: gap, by simp [Ne.symm newline, oneLine], rfl⟩
      · by_cases brace : c = '\x7d'
        · rw [if_pos brace, Option.some.injEq] at here
          exact ⟨[], List.not_mem_nil, by rw [brace, here]; rfl⟩
        · rw [if_neg brace] at here
          cases here

theorem afterLastObject?_eq_none_iff {cs : List Char} :
    afterLastObject? cs = none ↔ ¬ "Object \x7b".toList <:+: cs.takeWhile (· != '\n') := by
  constructor
  · rintro absent ⟨front, back, parts⟩
    have oneLine : '\n' ∉ front := by
      intro isIn
      have isInLine : '\n' ∈ cs.takeWhile (· != '\n') := by
        rw [← parts]
        simp [isIn]
      cases List.mem_takeWhile_imp isInLine
    rw [← List.takeWhile_append_dropWhile (p := (· != '\n')) (l := cs), ← parts, List.append_assoc,
      List.append_assoc] at absent
    exact afterLastObject?_word _ (afterLastObject?_of_append oneLine absent)
  · intro absent
    rw [Option.eq_none_iff_forall_ne_some]
    intro rest found
    obtain ⟨gap, oneLine, parts, -⟩ := parts_of_afterLastObject? found
    rw [parts, List.takeWhile_append_of_pos (forall_bne_of_not_mem oneLine),
      List.takeWhile_append_of_pos (forall_bne_of_not_mem (by decide)), ← List.append_assoc] at absent
    exact absent ⟨gap, rest.takeWhile (· != '\n'), rfl⟩

/-! ## A style object alone -/

/-- A style object with nothing before it and nothing behind it. What stands on the lines of its
braces besides is free, but the word before the first brace is the last of its line. -/
structure SerializedStyle where
  opening : List Char
  body : List Char
  closing : List Char
  openingLine : '\n' ∉ opening
  lastWord : ¬ "Object \x7b".toList <:+: body.takeWhile (· != '\n')
  noBrace : '\x7d' ∉ body
  closingLine : '\n' ∉ closing

namespace SerializedStyle

/-- The text of a style object. -/
def text (s : SerializedStyle) : List Char :=
  "style=\x7b\n".toList ++ (s.opening ++ ("Object \x7b".toList ++ (s.body ++
    '\x7d' :: '\n' :: (s.closing ++ ['\x7d']))))

/-- The object in its braces, without a comma behind its last property. -/
def object (s : SerializedStyle) : String :=
  String.ofList (dropLastComma ('\x7b' :: s.body ++ ['\x7d']))

end SerializedStyle

/-- The closing brace of the object adds no word to the line on which it stands. -/
theorem SerializedStyle.lastObject (s : SerializedStyle) (rest : List Char) :
    afterLastObject? (s.body ++ '\x7d' :: '\n' :: rest) = none := by
  rw [afterLastObject?_eq_none_iff]
  have absent := s.lastWord
  rw [List.takeWhile_append]
  split
  · rename_i whole
    rw [(List.takeWhile_sublist _).eq_of_length whole] at absent
    have line : ('\x7d' :: '\n' :: rest).takeWhile (· != '\n') = ['\x7d'] := by simp
    rw [line, List.infix_concat_iff]
    rintro (atEnd | inside)
    · obtain none | ⟨front, word, -⟩ := List.suffix_concat_iff.mp atEnd
      · cases none
      · have last := congrArg List.getLast? word
        rw [List.getLast?_concat] at last
        cases last
    · exact absent inside
  · exact absent

theorem at?_serialized (s : SerializedStyle) :
    ∃ inside, StyleObject.at? s.text = some ⟨s.body, inside, []⟩ :=
  ⟨_, at?_of_lines s.openingLine (s.lastObject _) s.noBrace s.closingLine rfl⟩

theorem takeWhile_prefix_append (p : Char → Bool) (front rest : List Char) :
    front.takeWhile p <+: (front ++ rest).takeWhile p := by
  rw [List.takeWhile_append]
  split
  · rename_i whole
    rw [(List.takeWhile_sublist _).eq_of_length whole]
    exact List.prefix_append _ _
  · exact List.prefix_rfl

theorem exists_serialized {cs body inside : List Char}
    (found : StyleObject.at? cs = some ⟨body, inside, []⟩) :
    ∃ s : SerializedStyle, s.text = cs ∧ s.body = body := by
  obtain ⟨lines, begins, found⟩ := Option.bind_eq_some_iff.mp found
  obtain ⟨inside', opened, found⟩ := Option.bind_eq_some_iff.mp found
  obtain ⟨last, closed, found⟩ := Option.bind_eq_some_iff.mp found
  obtain ⟨rest, ended, same⟩ := Option.map_eq_some_iff.mp found
  obtain ⟨isBody, rfl, rfl⟩ := StyleObject.mk.inj same
  obtain ⟨opening, openingLine, rfl, noWord⟩ := parts_of_afterLastObject? opened
  obtain ⟨closing, closingLine, rfl⟩ := parts_of_afterLastBrace? ended
  have whole := List.takeWhile_append_dropWhile (p := (· != '\x7d')) (l := inside')
  rw [isBody, afterPrefix?_eq_some_iff.mp closed] at whole
  have noBrace : '\x7d' ∉ body := by
    intro isIn
    rw [← isBody] at isIn
    cases List.mem_takeWhile_imp isIn
  have lastWord : ¬ "Object \x7b".toList <:+: body.takeWhile (· != '\n') := by
    intro isIn
    rw [afterLastObject?_eq_none_iff, ← whole] at noWord
    exact noWord (isIn.trans (takeWhile_prefix_append _ _ _).isInfix)
  refine ⟨⟨opening, body, closing, openingLine, lastWord, noBrace, closingLine⟩, ?_, rfl⟩
  rw [afterPrefix?_eq_some_iff.mp begins, ← whole]
  rfl

/-- The texts that are one style object from end to end. -/
theorem at?_whole_iff {cs body : List Char} :
    (∃ inside, StyleObject.at? cs = some ⟨body, inside, []⟩) ↔
      ∃ s : SerializedStyle, s.text = cs ∧ s.body = body := by
  constructor
  · rintro ⟨inside, found⟩
    exact exists_serialized found
  · rintro ⟨s, rfl, rfl⟩
    exact at?_serialized s

/-- A style object alone becomes its attribute. -/
theorem inlineStyles_serialized (s : SerializedStyle) {out : String} :
    inlineStyles (String.ofList s.text) = .ok out ↔ styleAttribute s.body = .ok out := by
  obtain ⟨inside, found⟩ := at?_serialized s
  rw [inlineStyles, String.toList_ofList, inlineStylesFrom_at found]
  cases styleAttribute s.body with
  | error problem => exact iff_of_false (by rintro ⟨⟩) (by rintro ⟨⟩)
  | ok style =>
    dsimp only
    rw [inlineStylesFrom_nil, Except.map, Except.map, List.append_nil, String.ofList_toList,
      Except.ok.injEq, Except.ok.injEq]

/-! ## Quotes -/

theorem toLower_ne_quote {c : Char} (upper : c.isUpper) : c.toLower ≠ '"' := by
  have bounds : 65 ≤ c.toNat ∧ c.toNat ≤ 90 := by
    have range : c.val ≥ 65 ∧ c.val ≤ 90 := of_decide_eq_true upper
    simpa [UInt32.le_iff_toNat_le] using range
  have value : c.toLower.val = c.val + 32 := by
    delta Char.toLower
    rw [dif_pos (of_decide_eq_true upper)]
    rfl
  intro same
  rw [same] at value
  have code := congrArg UInt32.toNat value
  rw [UInt32.toNat_add] at code
  change 34 = (c.toNat + 32) % 4294967296 at code
  omega

theorem quote_mem_hyphenated_iff (name : List Char) : '"' ∈ hyphenated name ↔ '"' ∈ name := by
  have each (c : Char) : ('"' ∈ if c.isUpper then ['-', c.toLower] else [c]) ↔ '"' = c := by
    by_cases upper : c.isUpper
    · rw [if_pos upper]
      have differs : '"' ≠ c := by
        rintro rfl
        cases upper
      simp [differs, (toLower_ne_quote upper).symm]
    · rw [if_neg upper, List.mem_singleton]
  simp only [hyphenated, List.mem_flatMap, each, exists_eq_right']

/-- A property is shown without a quote. -/
def IsUnquoted (property : String × Json) : Prop :=
  '"' ∉ property.1.toList ∧ ¬ property.2.ShowsQuote

theorem quote_not_mem_declaration_iff (property : String × Json) :
    '"' ∉ declaration property ↔ IsUnquoted property := by
  have name := quote_mem_hyphenated_iff property.1.toList
  have value := Json.quote_mem_plainText_iff property.2
  simp [declaration, IsUnquoted, name, value]

/-- The value of an attribute as a reader of HTML takes it: from the first quote to the next. -/
def quotedValue (markup : List Char) : List Char :=
  (markup.dropWhile (· != '"')).tail.takeWhile (· != '"')

theorem quotedValue_eq_iff (value : List Char) :
    quotedValue ("style=\"".toList ++ (value ++ ['"'])) = value ↔ '"' ∉ value := by
  have behind : ("style=\"".toList ++ (value ++ ['"'])).dropWhile (· != '"') =
      '"' :: (value ++ ['"']) := rfl
  rw [quotedValue, behind, List.tail_cons]
  constructor
  · intro whole isIn
    have passed := List.mem_takeWhile_imp (whole ▸ isIn)
    cases passed
  · intro absent
    exact takeWhile_bne_append absent []

/-- A style object alone that can be read becomes an attribute of its declarations between two
quotes. There is no other quote, and a reader of HTML takes all of the declarations for the value,
exactly if every property is shown without a quote. -/
theorem inlineStyles_whole_iff (s : SerializedStyle) {out : String}
    (converts : inlineStyles (String.ofList s.text) = .ok out) :
    ∃ properties, Json.parse s.object = .ok (.object properties) ∧
      out.toList = "style=\"".toList ++ (properties.flatMap declaration ++ ['"']) ∧
      ('"' ∉ properties.flatMap declaration ↔ ∀ p ∈ properties, IsUnquoted p) ∧
      (quotedValue out.toList = properties.flatMap declaration ↔
        ∀ p ∈ properties, IsUnquoted p) := by
  obtain ⟨properties, read, rfl⟩ :=
    styleAttribute_eq_ok_iff.mp ((inlineStyles_serialized s).mp converts)
  have written : ("style=\"" ++ declarations properties ++ "\"").toList =
      "style=\"".toList ++ (properties.flatMap declaration ++ ['"']) := by
    rw [String.toList_append, String.toList_append, toList_declarations, List.append_assoc]
    rfl
  have whole : '"' ∉ properties.flatMap declaration ↔ ∀ p ∈ properties, IsUnquoted p := by
    simp only [List.mem_flatMap, not_exists, not_and, quote_not_mem_declaration_iff]
  refine ⟨properties, read, written, whole, ?_⟩
  rw [written, quotedValue_eq_iff, whole]

/-- A style with an array of numbers and a string with a semicolon. -/
def marginStyle : SerializedStyle where
  opening := "  ".toList
  body := "\n    \"margin\": [1, 2],\n    \"content\": \"a;b\",\n  ".toList
  closing := []
  openingLine := by decide
  lastWord := by decide
  noBrace := by decide
  closingLine := by decide

/-- The array and the string are shown without quotes, and all of the attribute is read. -/
theorem inlineStyles_marginStyle :
    ∃ out, inlineStyles (String.ofList marginStyle.text) = .ok out ∧
      quotedValue out.toList = "margin: [1,2]; content: a;b; ".toList := by
  have converts : inlineStyles (String.ofList marginStyle.text) =
      .ok "style=\"margin: [1,2]; content: a;b; \"" := by
    rw [inlineStyles_serialized]
    decide +kernel
  obtain ⟨properties, -, written, unquoted_iff, whole_iff⟩ :=
    inlineStyles_whole_iff marginStyle converts
  have parts : "style=\"margin: [1,2]; content: a;b; \"".toList =
      "style=\"".toList ++ ("margin: [1,2]; content: a;b; ".toList ++ ['"']) := rfl
  have shown := List.append_cancel_right (List.append_cancel_left (parts.symm.trans written))
  rw [← shown] at unquoted_iff whole_iff
  exact ⟨_, converts, whole_iff.mpr (unquoted_iff.mp (by decide))⟩

/-- A style with the name of a font between quotes. -/
def fontStyle : SerializedStyle where
  opening := "  ".toList
  body := "\n    \"fontFamily\": \"\\\"Arial\\\"\",\n  ".toList
  closing := []
  openingLine := by decide
  lastWord := by decide
  noBrace := by decide
  closingLine := by decide

/-- The quote before the name of the font ends the attribute. -/
theorem inlineStyles_fontStyle :
    ∃ out, inlineStyles (String.ofList fontStyle.text) = .ok out ∧
      quotedValue out.toList = "font-family: ".toList ∧
      ¬ ∃ value, '"' ∉ value ∧ out.toList = "style=\"".toList ++ (value ++ ['"']) := by
  have converts : inlineStyles (String.ofList fontStyle.text) =
      .ok "style=\"font-family: \"Arial\"; \"" := by
    rw [inlineStyles_serialized]
    decide +kernel
  refine ⟨_, converts, by decide, ?_⟩
  rintro ⟨value, noQuote, written⟩
  have whole := (quotedValue_eq_iff value).mpr noQuote
  rw [← written] at whole
  have short : value = "font-family: ".toList := whole.symm.trans (by decide)
  rw [short] at written
  exact absurd written (by decide)

example : String.ofList fontStyle.text =
    "style=\x7b\n  Object \x7b\n    \"fontFamily\": \"\\\"Arial\\\"\",\n  \x7d\n\x7d" := rfl

end SnapshotPreview.Markup

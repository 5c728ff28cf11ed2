import SnapshotPreview.Proofs.Json.Reading
import SnapshotPreview.Proofs.Markup.Unchanged
import SnapshotPreview.Proofs.Records

/-!
# Style objects become attributes

A text in which plain pieces and printed style objects take turns is converted piece by piece
(`inlineStyles_text`): the pieces stay, and each object becomes a style attribute with a declaration
for each of its properties.
-/

namespace SnapshotPreview.Markup

open Text
open Json (Gap Literal Decodes Scalar Member)

/-! ## Printed style objects -/

/-- A property of a style as it is printed: on a line of its own, with spaces before it. -/
structure Property where
  indent : Nat
  name : Literal
  chars : List Char
  decodes : Decodes name chars
  value : Scalar
  noBrace : '\x7d' ∉ chars ∧ '\x7d' ∉ value.plain

/-- The spaces before something on a line. -/
def spaces (n : Nat) : List Char := List.replicate n ' '

/-- The line of a property. -/
def Property.line (p : Property) : List Char :=
  spaces p.indent ++ (p.name.text ++ (": ".toList ++ (p.value.text ++ [','])))

/-- A name with a dash and the small letter for each ASCII capital. -/
def hyphenated (name : List Char) : List Char :=
  name.flatMap fun c => if c.isUpper then ['-', c.toLower] else [c]

/-- The declaration for a property. -/
def Property.declaration (p : Property) : List Char :=
  hyphenated p.chars ++ (": ".toList ++ (p.value.plain ++ "; ".toList))

/-- A style with properties of different names, and the indents of its braces. -/
structure PrintedStyle where
  properties : List Property
  distinct : (properties.map Property.chars).Nodup
  opening : Nat
  inner : Nat
  outer : Nat

/-- What a style has between its braces: nothing, or a line for each property. -/
def PrintedStyle.body (o : PrintedStyle) : List Char :=
  if o.properties.isEmpty then []
  else o.properties.flatMap (fun p => '\n' :: p.line) ++ '\n' :: spaces o.inner

/-- The text of a style. -/
def PrintedStyle.text (o : PrintedStyle) : List Char :=
  "style=\x7b\n".toList ++ (spaces o.opening ++ ("Object \x7b".toList ++ (o.body ++
    ("\x7d\n".toList ++ (spaces o.outer ++ ['\x7d'])))))

/-- The attribute for a style. -/
def PrintedStyle.attribute (o : PrintedStyle) : List Char :=
  "style=\"".toList ++ (o.properties.flatMap Property.declaration ++ ['"'])

/-- A text of pieces and styles that take turns. -/
structure StyledText where
  first : List Char
  parts : List (PrintedStyle × List Char)
  plain : ∀ piece ∈ first :: parts.map Prod.snd, ¬ "style=\x7b".toList <:+: piece
  closed : ∀ piece ∈ parts.map Prod.snd, '\x7d' ∉ piece.takeWhile (· != '\n')

/-- Styles with the pieces behind them. -/
def partsText (parts : List (PrintedStyle × List Char)) : List Char :=
  parts.flatMap fun (o, piece) => o.text ++ piece

/-- Attributes with the pieces behind them. -/
def partsConverted (parts : List (PrintedStyle × List Char)) : List Char :=
  parts.flatMap fun (o, piece) => o.attribute ++ piece

theorem partsText_cons (o : PrintedStyle) (piece : List Char)
    (parts : List (PrintedStyle × List Char)) :
    partsText ((o, piece) :: parts) = o.text ++ (piece ++ partsText parts) := by
  simp [partsText]

theorem partsConverted_cons (o : PrintedStyle) (piece : List Char)
    (parts : List (PrintedStyle × List Char)) :
    partsConverted ((o, piece) :: parts) = o.attribute ++ (piece ++ partsConverted parts) := by
  simp [partsConverted]

/-- The text as it was printed. -/
def StyledText.text (t : StyledText) : List Char := t.first ++ partsText t.parts

/-- The text with an attribute for each style. -/
def StyledText.converted (t : StyledText) : List Char := t.first ++ partsConverted t.parts

/-! ## The lines of a style object -/

theorem afterLastBrace?_eq_none {cs : List Char} (noBrace : '\x7d' ∉ cs.takeWhile (· != '\n')) :
    afterLastBrace? cs = none := by
  induction cs with
  | nil => rfl
  | cons c cs ih =>
    by_cases newline : c = '\n'
    · rw [afterLastBrace?, if_pos newline]
    · rw [List.takeWhile_cons_of_pos (by simpa using newline), List.mem_cons, not_or] at noBrace
      rw [afterLastBrace?, if_neg newline, ih noBrace.2, Option.none_or, if_neg (Ne.symm noBrace.1)]

/-- What is on the first line of neither of two texts is not on the first line of both together. -/
theorem not_mem_line_append {c : Char} {front rest : List Char}
    (absent : c ∉ front.takeWhile (· != '\n')) (absentRest : c ∉ rest.takeWhile (· != '\n')) :
    c ∉ (front ++ rest).takeWhile (· != '\n') := by
  rw [List.takeWhile_append]
  split
  · rename_i whole
    rw [(List.takeWhile_sublist _).eq_of_length whole] at absent
    exact List.not_mem_append absent absentRest
  · exact absent

theorem not_mem_line {c : Char} {front : List Char} (absent : c ∉ front) (rest : List Char) :
    c ∉ (front ++ '\n' :: rest).takeWhile (· != '\n') :=
  not_mem_line_append (fun isIn => absent ((List.takeWhile_sublist _).subset isIn)) (by simp)

theorem afterLastBrace?_append {gap rest : List Char} (oneLine : '\n' ∉ gap)
    (last : afterLastBrace? rest = none) :
    afterLastBrace? (gap ++ '\x7d' :: rest) = some rest := by
  induction gap with
  | nil =>
    rw [List.nil_append, afterLastBrace?, if_neg (by decide), last, if_pos rfl, Option.none_or]
  | cons c gap ih =>
    rw [List.mem_cons, not_or] at oneLine
    rw [List.cons_append, afterLastBrace?, if_neg (Ne.symm oneLine.1), ih oneLine.2, Option.some_or]

theorem afterLastObject?_newline (rest : List Char) : afterLastObject? ('\n' :: rest) = none :=
  if_pos rfl

theorem afterLastObject?_append {gap rest : List Char} (oneLine : '\n' ∉ gap)
    (last : afterLastObject? rest = none) :
    afterLastObject? (gap ++ ("Object \x7b".toList ++ rest)) = some rest := by
  induction gap with
  | nil =>
    have word : "Object \x7b".toList = ['O', 'b', 'j', 'e', 'c', 't', ' ', '\x7b'] := rfl
    simp [word, afterLastObject?, afterPrefix?, last]
  | cons c gap ih =>
    rw [List.mem_cons, not_or] at oneLine
    rw [List.cons_append, afterLastObject?, if_neg (Ne.symm oneLine.1), ih oneLine.2, Option.some_or]

/-- The comma behind the last property goes, with the rest of its line and the next. -/
theorem dropLastComma_append {front gap : List Char} (noBrace : '\x7d' ∉ front)
    (oneLine : '\n' ∉ gap) :
    dropLastComma (front ++ ',' :: '\n' :: (gap ++ ['\x7d'])) = front ++ ['\x7d'] := by
  induction front with
  | nil =>
    have begins (rest : List Char) : afterPrefix? ",\n".toList (',' :: '\n' :: rest) = some rest :=
      afterPrefix?_eq_some_iff.mpr rfl
    rw [List.nil_append, dropLastComma, begins, Option.bind_some,
      afterLastBrace?_append oneLine rfl]
    rfl
  | cons c front ih =>
    rw [List.mem_cons, not_or] at noBrace
    have kept : (afterPrefix? ",\n".toList
        (c :: (front ++ ',' :: '\n' :: (gap ++ ['\x7d'])))).bind afterLastBrace? = none := by
      rw [Option.bind_eq_none_iff]
      intro tail begins
      have parts := afterPrefix?_eq_some_iff.mp begins
      cases front with
      | nil => cases parts
      | cons d front =>
        obtain ⟨-, -, rfl⟩ : c = ',' ∧ d = '\n' ∧ front ++ ',' :: '\n' :: (gap ++ ['\x7d']) = tail := by
          simpa using parts
        have noBraceLine : '\x7d' ∉ front ++ [','] :=
          List.not_mem_append (List.not_mem_of_not_mem_cons noBrace.2) (by decide)
        rw [List.append_cons]
        exact afterLastBrace?_eq_none (not_mem_line noBraceLine _)
    rw [List.cons_append, dropLastComma, kept, ih noBrace.2]
    rfl

/-- A style object from its first line to its last, with what stands on these lines besides. -/
theorem at?_of_lines {opening body closing after : List Char} (openingLine : '\n' ∉ opening)
    (lastObject : afterLastObject? (body ++ '\x7d' :: '\n' :: (closing ++ '\x7d' :: after)) = none)
    (noBrace : '\x7d' ∉ body) (closingLine : '\n' ∉ closing)
    (last : afterLastBrace? after = none) :
    StyleObject.at? ("style=\x7b\n".toList ++ (opening ++ ("Object \x7b".toList ++ (body ++
        '\x7d' :: '\n' :: (closing ++ '\x7d' :: after))))) =
      some ⟨body, body ++ '\x7d' :: '\n' :: (closing ++ '\x7d' :: after), after⟩ := by
  refine Option.bind_eq_some_iff.mpr ⟨_, afterPrefix?_eq_some_iff.mpr rfl, ?_⟩
  refine Option.bind_eq_some_iff.mpr ⟨_, afterLastObject?_append openingLine lastObject, ?_⟩
  refine Option.bind_eq_some_iff.mpr ⟨closing ++ '\x7d' :: after, ?_, ?_⟩
  · rw [dropWhile_bne_append noBrace]
    exact afterPrefix?_eq_some_iff.mpr rfl
  · rw [afterLastBrace?_append closingLine last, Option.map_some, takeWhile_bne_append noBrace]

/-! ## One style object -/

theorem newline_not_mem_spaces (n : Nat) : '\n' ∉ spaces n := by
  intro isIn
  have space := List.eq_of_mem_replicate isIn
  cases space

theorem brace_not_mem_spaces (n : Nat) : '\x7d' ∉ spaces n := by
  intro isIn
  have space := List.eq_of_mem_replicate isIn
  cases space

/-- Behind its opening brace, a style goes on with a new line or with its closing brace. -/
theorem afterLastObject?_body (o : PrintedStyle) (rest : List Char) :
    afterLastObject? (o.body ++ '\x7d' :: '\n' :: rest) = none := by
  have closing : afterLastObject? ('\x7d' :: '\n' :: rest) = none := by
    simp [afterLastObject?, afterPrefix?]
  rw [PrintedStyle.body]
  split
  · exact closing
  · rename_i nonempty
    obtain ⟨p, ps, lines⟩ := List.exists_cons_of_ne_nil (by simpa using nonempty)
    rw [lines]
    exact afterLastObject?_newline _

/-- A style ends at its last brace, if none stands behind it on the line. -/
theorem at?_text (o : PrintedStyle) (noBrace : '\x7d' ∉ o.body) {after : List Char}
    (last : afterLastBrace? after = none) :
    ∃ inside, StyleObject.at? (o.text ++ after) = some ⟨o.body, inside, after⟩ := by
  have found := at?_of_lines (newline_not_mem_spaces o.opening) (afterLastObject?_body o _) noBrace
    (newline_not_mem_spaces o.outer) last
  refine ⟨_, Eq.trans (congrArg StyleObject.at? ?_) found⟩
  unfold PrintedStyle.text
  simp only [List.append_assoc]
  rfl

/-! ## Its properties -/

/-- A property as a member of an object, its line break before its name. -/
def Property.member (p : Property) : Member where
  before := ⟨'\n' :: spaces p.indent, List.forall_mem_cons.mpr ⟨by decide, fun c isIn => by
    rw [List.eq_of_mem_replicate isIn]; decide⟩⟩
  name := p.name
  chars := p.chars
  decodes := p.decodes
  between := Json.oneSpace
  value := p.value

theorem line_eq_member (p : Property) : '\n' :: p.line = p.member.text ++ [','] := by
  simp only [Property.line, Property.member, Member.text, List.append_assoc, List.cons_append]
  rfl

/-- A comma behind each member is a comma before each but the first, and one more. -/
theorem flatMap_comma (m : Member) (ms : List Member) :
    (m :: ms).flatMap (fun m => m.text ++ [',']) = Json.membersText (m :: ms) ++ [','] := by
  induction ms generalizing m with
  | nil => simp [Json.membersText]
  | cons n ms ih =>
    rw [List.flatMap_cons, ih]
    simp [Json.membersText]

theorem styleBody_eq {o : PrintedStyle} (nonempty : o.properties ≠ []) :
    o.body = Json.membersText (o.properties.map Property.member) ++
      ',' :: '\n' :: spaces o.inner := by
  obtain ⟨p, ps, properties⟩ := List.exists_cons_of_ne_nil nonempty
  have lines : (fun p : Property => '\n' :: p.line) = fun p => p.member.text ++ [','] :=
    funext line_eq_member
  have commas := flatMap_comma p.member (ps.map Property.member)
  rw [← List.map_cons, List.flatMap_map] at commas
  rw [PrintedStyle.body, if_neg (by simpa using nonempty), lines, properties, commas,
    List.append_assoc]
  rfl

theorem brace_not_mem_member (p : Property) : '\x7d' ∉ p.member.text := by
  have name := Json.brace_not_mem_literal p.decodes p.noBrace.1
  have value := Json.brace_not_mem_scalar p.value p.noBrace.2
  have before : '\x7d' ∉ '\n' :: spaces p.indent :=
    List.not_mem_cons_of_ne_of_not_mem (by decide) (brace_not_mem_spaces _)
  have between : '\x7d' ∉ [':', ' '] ++ p.value.text := List.not_mem_append (by decide) value
  exact List.not_mem_append before (List.not_mem_append name between)

theorem brace_not_mem_members (ps : List Property) :
    '\x7d' ∉ Json.membersText (ps.map Property.member) := by
  cases ps with
  | nil => exact List.not_mem_nil
  | cons p ps =>
    refine List.not_mem_append (brace_not_mem_member p) ?_
    rw [List.mem_flatMap]
    rintro ⟨m, isMember, isIn⟩
    obtain ⟨q, -, rfl⟩ := List.mem_map.mp isMember
    exact List.not_mem_cons_of_ne_of_not_mem (by decide) (brace_not_mem_member q) isIn

theorem brace_not_mem_body (o : PrintedStyle) : '\x7d' ∉ o.body := by
  by_cases empty : o.properties = []
  · simp [PrintedStyle.body, empty]
  · rw [styleBody_eq empty]
    exact List.not_mem_append (brace_not_mem_members _)
      (List.not_mem_cons_of_ne_of_not_mem (by decide)
        (List.not_mem_cons_of_ne_of_not_mem (by decide) (brace_not_mem_spaces _)))

/-- Without its last comma, the body of a style is an object. -/
theorem dropLastComma_body (o : PrintedStyle) :
    dropLastComma ('\x7b' :: o.body ++ ['\x7d']) =
      '\x7b' :: (Json.membersText (o.properties.map Property.member) ++ ['\x7d']) := by
  by_cases empty : o.properties = []
  · rw [PrintedStyle.body, empty]
    rfl
  · have noBrace : '\x7d' ∉ '\x7b' :: Json.membersText (o.properties.map Property.member) :=
      List.not_mem_cons_of_ne_of_not_mem (by decide) (brace_not_mem_members _)
    have dropped := dropLastComma_append noBrace (newline_not_mem_spaces o.inner)
    rw [styleBody_eq empty]
    simpa only [List.cons_append, List.append_assoc] using dropped

theorem kebabChars_eq (name : List Char) : kebabChars name = hyphenated name := by
  induction name with
  | nil => rfl
  | cons c name ih =>
    have parted : hyphenated (c :: name) =
        (if c.isUpper then ['-', c.toLower] else [c]) ++ hyphenated name := List.flatMap_cons
    rw [kebabChars, ih, parted]
    split
    · rfl
    · rfl

/-- The declaration for a name and a value. -/
def declaration (property : String × Json) : List Char :=
  hyphenated property.1.toList ++ (": ".toList ++ (property.2.plainText.toList ++ "; ".toList))

theorem toList_declarations (properties : List (String × Json)) :
    (declarations properties).toList = properties.flatMap declaration := by
  have each : (fun p : String × Json => (kebabCase p.1 ++ ": " ++ p.2.plainText ++ "; ").toList) =
      declaration := by
    funext p
    simp only [kebabCase, kebabChars_eq, String.toList_append, String.toList_ofList, declaration,
      List.append_assoc]
  rw [declarations, String.toList_join, List.flatMap_map]
  exact congrArg (properties.flatMap ·) each

theorem declaration_pair (p : Property) : declaration p.member.pair = p.declaration := by
  have name : p.member.pair.1.toList = p.chars := by
    simp only [Property.member, Member.pair, String.toList_ofList]
  have value : p.member.pair.2.plainText.toList = p.value.plain := Json.plainText_json p.value
  rw [declaration, name, value, Property.declaration]

theorem declarations_eq (ps : List Property) :
    (declarations (ps.map fun p => p.member.pair)).toList = ps.flatMap Property.declaration := by
  rw [toList_declarations, List.flatMap_map]
  exact congrArg (ps.flatMap ·) (funext declaration_pair)

theorem styleAttribute_body (o : PrintedStyle) :
    ∃ style, styleAttribute o.body = .ok style ∧ style.toList = o.attribute := by
  have names : Assoc.keys ((o.properties.map Property.member).map Member.pair) =
      (o.properties.map Property.chars).map String.ofList := by
    simp only [Assoc.keys, List.map_map]
    rfl
  have distinct : (Assoc.keys ((o.properties.map Property.member).map Member.pair)).Nodup := by
    rw [names]
    exact o.distinct.map fun _ _ same => String.ofList_injective same
  have read := Json.parse_members (o.properties.map Property.member)
  rw [Json.membersOf_of_nodup distinct, List.map_map] at read
  rw [styleAttribute, dropLastComma_body, read]
  refine ⟨_, rfl, ?_⟩
  have lines : (declarations (o.properties.map (Member.pair ∘ Property.member))).toList =
      o.properties.flatMap Property.declaration := declarations_eq o.properties
  unfold PrintedStyle.attribute
  simp only [String.toList_append, lines, List.append_assoc]
  rfl

/-! ## The whole text -/

theorem inlineStylesFrom_style (size : Nat) (o : PrintedStyle) {after converted : List Char}
    (last : afterLastBrace? after = none) (converts : inlineStylesFrom size after = .ok converted) :
    inlineStylesFrom size (o.text ++ after) = .ok (o.attribute ++ converted) := by
  obtain ⟨inside, found⟩ := at?_text o (brace_not_mem_body o) last
  obtain ⟨style, written, chars⟩ := styleAttribute_body o
  rw [inlineStylesFrom_at found, written]
  dsimp only
  rw [converts, chars]
  rfl

theorem inlineStylesFrom_piece (size : Nat) {piece after converted : List Char}
    (plain : ¬ "style=\x7b".toList <:+: piece)
    (begins : ∀ c, after.head? = some c → c = 's')
    (converts : inlineStylesFrom size after = .ok converted) :
    inlineStylesFrom size (piece ++ after) = .ok (piece ++ converted) := by
  have cut : ∀ c, after.head? = some c → c ∉ "tyle=\x7b".toList := by
    intro c first
    rw [begins c first]
    decide
  have idle : ∀ before c rest, piece = before ++ c :: rest →
      StyleObject.at? (c :: rest ++ after) = none := by
    intro before c rest parted
    rw [Option.eq_none_iff_forall_ne_some]
    intro o found
    obtain ⟨lines, opening, -⟩ := Option.bind_eq_some_iff.mp found
    refine not_prefix_of_cut plain cut parted ⟨'\n' :: lines, ?_⟩
    rw [afterPrefix?_eq_some_iff.mp opening]
    rfl
  rw [inlineStylesFrom_append_of_idle after idle, converts]
  rfl

/-- Behind a piece the text ends, or the next style begins. -/
theorem partsText_cases (parts : List (PrintedStyle × List Char)) :
    partsText parts = [] ∨ ∃ more, partsText parts = "style=\x7b\n".toList ++ more := by
  cases parts with
  | nil => exact .inl rfl
  | cons part parts =>
    obtain ⟨o, piece⟩ := part
    obtain ⟨more, text⟩ : ∃ more, o.text = "style=\x7b\n".toList ++ more := ⟨_, rfl⟩
    refine .inr ⟨more ++ (piece ++ partsText parts), ?_⟩
    rw [partsText_cons, text, List.append_assoc]

theorem head?_partsText (parts : List (PrintedStyle × List Char)) :
    ∀ c, (partsText parts).head? = some c → c = 's' := by
  intro c first
  rcases partsText_cases parts with empty | ⟨more, text⟩
  · rw [empty] at first
    cases first
  · rw [text] at first
    cases first
    rfl

theorem brace_not_mem_nextLine (parts : List (PrintedStyle × List Char)) :
    '\x7d' ∉ (partsText parts).takeWhile (· != '\n') := by
  rcases partsText_cases parts with empty | ⟨more, text⟩
  · rw [empty]
    exact List.not_mem_nil
  · rw [text]
    have absent : '\x7d' ∉ "style=\x7b".toList := by decide
    exact not_mem_line absent more

theorem inlineStylesFrom_parts (size : Nat) {parts : List (PrintedStyle × List Char)}
    (plain : ∀ piece ∈ parts.map Prod.snd, ¬ "style=\x7b".toList <:+: piece)
    (closed : ∀ piece ∈ parts.map Prod.snd, '\x7d' ∉ piece.takeWhile (· != '\n')) :
    inlineStylesFrom size (partsText parts) = .ok (partsConverted parts) := by
  induction parts with
  | nil => exact inlineStylesFrom_nil size
  | cons part parts ih =>
    obtain ⟨o, piece⟩ := part
    rw [List.map_cons, List.forall_mem_cons] at plain closed
    have behind := inlineStylesFrom_piece size plain.1 (head?_partsText parts)
      (ih plain.2 closed.2)
    have last := afterLastBrace?_eq_none
      (not_mem_line_append closed.1 (brace_not_mem_nextLine parts))
    rw [partsText_cons, partsConverted_cons]
    exact inlineStylesFrom_style size o last behind

/-- Every style becomes an attribute with a declaration for each of its properties, and all else
stays as it is. -/
theorem inlineStyles_text (t : StyledText) :
    inlineStyles (String.ofList t.text) = .ok (String.ofList t.converted) := by
  have plain := List.forall_mem_cons.mp t.plain
  have parts := inlineStylesFrom_parts (String.ofList t.text).utf8ByteSize plain.2 t.closed
  have converts := inlineStylesFrom_piece _ plain.1 (head?_partsText t.parts) parts
  rw [inlineStyles, String.toList_ofList]
  exact congrArg (Except.map String.ofList) converts

/-- A name with a capital, and a value with a semicolon and an escaped quote. -/
def quotedProperty : Property where
  indent := 4
  name := [.plain 'a' (by decide), .plain 'B' (by decide)]
  chars := ['a', 'B']
  decodes := .plain (.plain .nil)
  value := .string [.plain ';' (by decide), .short '"' rfl] [';', '"'] (.plain (.short .nil))
  noBrace := by decide

/-- A negative number. -/
def numberProperty : Property where
  indent := 4
  name := [.plain 'c' (by decide)]
  chars := ['c']
  decodes := .plain .nil
  value := .whole (-7) (by decide)
  noBrace := by decide

/-- A style of both. -/
def twoProperties : PrintedStyle where
  properties := [quotedProperty, numberProperty]
  distinct := by decide
  opening := 2
  inner := 2
  outer := 0

/-- A tag with that style. -/
def styledTag : StyledText where
  first := "<b ".toList
  parts := [(twoProperties, ">".toList)]
  plain := by decide
  closed := by decide

example : styledTag.text =
      "<b style=\x7b\n  Object \x7b\n    \"aB\": \";\\\"\",\n    \"c\": -7,\n  \x7d\n\x7d>".toList ∧
    styledTag.converted = "<b style=\"a-b: ;\"; c: -7; \">".toList := by
  decide

end SnapshotPreview.Markup

import SnapshotPreview.Markup.Attributes
import SnapshotPreview.Proofs.Markup.Unchanged
import SnapshotPreview.Proofs.Text

/-!
# Markup of components

Trees of elements as a serializer of components prints them, and the same trees in HTML. The rules
for attributes, applied one after the other to a whole text, turn the one print into the other
(`normalizeAttributes_print`). Each rule takes the print in one dialect to the print in the next.
-/

namespace SnapshotPreview.Markup

open Text

/-! ## Trees -/

/-- The attribute of class names in components. -/
def className : List Char := 'c' :: "lassName".toList

/-- White space within a tag. -/
structure Spaces where
  chars : List Char
  blank : ∀ c ∈ chars, isBlank c = true ∧ c.toNat < 128

/-- Text without anything that belongs to markup. -/
structure Plain where
  chars : List Char
  noMarkup : ∀ c ∈ chars, c ∉ "<>\x7b\x7d\"".toList
  noClassName : ¬ className <:+: chars

/-- The name of an element. -/
structure Name where
  chars : List Char
  nonempty : chars ≠ []
  alphanumeric : ∀ c ∈ chars, c.isAlphanum = true
  noClassName : ¬ className <:+: chars

/-- The key of an attribute. -/
structure Key where
  chars : List Char
  nonempty : chars ≠ []
  letters : ∀ c ∈ chars, c.isAlpha = true
  noClassName : chars = className ∨ ¬ className <:+: chars

/-- The value of an attribute. -/
inductive Value where
  | quoted (text : Plain)
  | yes
  | no
  | number (chars : List Char) (digits : ∀ c ∈ chars, c.isDigit = true ∨ c = '.')

/-- An attribute with the white space before it. -/
structure Attribute where
  before : Spaces
  apart : before.chars ≠ []
  key : Key
  value : Value

/-- What stands between the brackets of an opening tag. -/
structure Tag where
  name : Name
  attributes : List Attribute
  /-- The white space before the end of the tag. -/
  gap : Spaces

/-- A text and then elements, each with the text after it. -/
inductive Components where
  | text (before : Plain)
  /-- An element without content. -/
  | empty (before : Plain) (tag : Tag) (rest : Components)
  /-- An element with content, and the white space in its closing tag. -/
  | full (before : Plain) (tag : Tag) (content : Components) (gap : Spaces) (rest : Components)

/-! ## Dialects -/

/-- How attributes and elements without content are written. -/
structure Dialect where
  classKey : List Char
  yes : List Char
  no : List Char
  /-- What stands around a number. -/
  openNumber : List Char
  closeNumber : List Char
  /-- Elements without content are one tag. -/
  closesItself : Bool

/-- The dialect of components. -/
def Dialect.jsx : Dialect where
  classKey := className
  yes := "=\x7btrue\x7d".toList
  no := "=\x7bfalse\x7d".toList
  openNumber := "=\x7b".toList
  closeNumber := "\x7d".toList
  closesItself := true

/-- The dialect of HTML. -/
def Dialect.html : Dialect where
  classKey := "class".toList
  yes := []
  no := "__never".toList
  openNumber := "=\"".toList
  closeNumber := "\"".toList
  closesItself := false

/-- The text of a key. -/
def Key.print (d : Dialect) (k : Key) : List Char :=
  if k.chars = className then d.classKey else k.chars

/-- The text of a value, with the equals sign before it. -/
def Value.print (d : Dialect) : Value → List Char
  | quoted text => "=\"".toList ++ text.chars ++ ['"']
  | yes => d.yes
  | no => d.no
  | number chars _ => d.openNumber ++ chars ++ d.closeNumber

/-- The text of an attribute. -/
def Attribute.print (d : Dialect) (a : Attribute) : List Char :=
  a.before.chars ++ a.key.print d ++ a.value.print d

/-- The text between the opening bracket of a tag and its end. -/
def Tag.print (d : Dialect) (t : Tag) : List Char :=
  t.name.chars ++ t.attributes.flatMap (Attribute.print d) ++ t.gap.chars

/-- The text of a closing tag. -/
def Name.close (n : Name) (gap : List Char) : List Char := "</".toList ++ n.chars ++ gap ++ ['>']

/-- The text of an element without content. -/
def Tag.printEmpty (d : Dialect) (t : Tag) : List Char :=
  '<' :: t.print d ++ if d.closesItself then "/>".toList else '>' :: t.name.close []

/-- The text of elements. -/
def Components.print (d : Dialect) : Components → List Char
  | text before => before.chars
  | empty before tag rest => before.chars ++ tag.printEmpty d ++ rest.print d
  | full before tag content gap rest =>
    before.chars ++ ('<' :: tag.print d ++ ['>']) ++ content.print d ++
      tag.name.close gap.chars ++ rest.print d

/-! ## Rules on attributes -/

/-- Nothing follows, or a tag. -/
def AtTag (after : List Char) : Prop := ∀ c, after.head? = some c → c = '<'

/-- What follows in a tag after a name or an attribute: white space or the end of the tag. -/
def AtCut (after : List Char) : Prop :=
  ∀ c, after.head? = some c → (isBlank c = true ∧ c.toNat < 128) ∨ c = '/' ∨ c = '>'

/-- The rule takes what is printed in one dialect to what is printed in another. -/
structure Translates (rule : Rule) (d d' : Dialect) : Prop where
  text : ∀ (text : Plain) (after), AtTag after →
    rule.replaceAll (text.chars ++ after) = text.chars ++ rule.replaceAll after
  bracket : ∀ c ∈ "</>".toList, ∀ after,
    rule.replaceAll (c :: after) = c :: rule.replaceAll after
  name : ∀ (n : Name) (after), AtCut after →
    rule.replaceAll (n.chars ++ after) = n.chars ++ rule.replaceAll after
  spaces : ∀ (s : Spaces) (after),
    rule.replaceAll (s.chars ++ after) = s.chars ++ rule.replaceAll after
  item : ∀ (a : Attribute) (after), AtCut after →
    rule.replaceAll (a.print d ++ after) = a.print d' ++ rule.replaceAll after
  closesItself : d.closesItself = d'.closesItself

theorem atCut_spaces (s : Spaces) {after : List Char} (cut : AtCut after) :
    AtCut (s.chars ++ after) := by
  cases chars : s.chars with
  | nil => exact cut
  | cons c rest =>
    intro d first
    cases first
    exact .inl (s.blank _ (by rw [chars]; exact List.mem_cons_self))

theorem atCut_attributes (d : Dialect) (attributes : List Attribute) {after : List Char}
    (cut : AtCut after) : AtCut (attributes.flatMap (Attribute.print d) ++ after) := by
  cases attributes with
  | nil => exact cut
  | cons a rest =>
    obtain ⟨c, chars, spaces⟩ := List.exists_cons_of_ne_nil a.apart
    intro e first
    rw [List.flatMap_cons, Attribute.print, spaces] at first
    cases first
    exact .inl (a.before.blank _ (by rw [spaces]; exact List.mem_cons_self))

section
variable {rule : Rule} {d d' : Dialect} (translates : Translates rule d d')
include translates

theorem replaceAll_attributes (attributes : List Attribute) {after : List Char}
    (cut : AtCut after) :
    rule.replaceAll (attributes.flatMap (Attribute.print d) ++ after) =
      attributes.flatMap (Attribute.print d') ++ rule.replaceAll after := by
  induction attributes with
  | nil => rfl
  | cons a rest ih =>
    rw [List.flatMap_cons, List.append_assoc,
      translates.item a _ (atCut_attributes d rest cut), ih, List.flatMap_cons,
      List.append_assoc]

theorem replaceAll_tag (t : Tag) {after : List Char} (cut : AtCut after) :
    rule.replaceAll (t.print d ++ after) = t.print d' ++ rule.replaceAll after := by
  unfold Tag.print
  simp only [List.append_assoc]
  rw [translates.name _ _ (atCut_attributes d _ (atCut_spaces _ cut)),
    replaceAll_attributes translates _ (atCut_spaces _ cut), translates.spaces]

theorem replaceAll_close (n : Name) (gap : Spaces) (after : List Char) :
    rule.replaceAll (n.close gap.chars ++ after) = n.close gap.chars ++ rule.replaceAll after := by
  have cut : AtCut ('>' :: after) := by
    rintro c ⟨⟩
    exact .inr (.inr rfl)
  have bracket := translates.bracket
  unfold Name.close
  simp only [String.reduceToList, List.cons_append, List.nil_append, List.append_assoc]
  rw [bracket _ (by decide), bracket _ (by decide), translates.name _ _ (atCut_spaces gap cut),
    translates.spaces, bracket _ (by decide)]

theorem replaceAll_print (m : Components) {after : List Char} (atTag : AtTag after) :
    rule.replaceAll (m.print d ++ after) = m.print d' ++ rule.replaceAll after := by
  have bracket := translates.bracket
  have opens (cs : List Char) : AtTag ('<' :: cs) := by
    rintro c ⟨⟩
    rfl
  have atEnd (cs : List Char) : AtCut ('>' :: cs) := by
    rintro c ⟨⟩
    exact .inr (.inr rfl)
  have atSlash (cs : List Char) : AtCut ('/' :: cs) := by
    rintro c ⟨⟩
    exact .inr (.inl rfl)
  induction m generalizing after with
  | text before => exact translates.text before after atTag
  | empty before tag rest ih =>
    simp only [Components.print, Tag.printEmpty, ← translates.closesItself, List.append_assoc,
      List.cons_append]
    rw [translates.text _ _ (opens _), bracket _ (by decide)]
    cases d.closesItself with
    | true =>
      simp only [if_true, String.reduceToList, List.cons_append, List.nil_append]
      rw [replaceAll_tag translates _ (atSlash _), bracket _ (by decide), bracket _ (by decide),
        ih atTag]
    | false =>
      have close := replaceAll_close translates tag.name ⟨[], nofun⟩
      simp only [Bool.false_eq_true, if_false, List.cons_append]
      rw [replaceAll_tag translates _ (atEnd _), bracket _ (by decide), close, ih atTag]
  | full before tag content gap rest ihContent ihRest =>
    simp only [Components.print, List.append_assoc, List.cons_append, List.nil_append]
    rw [translates.text _ _ (opens _), bracket _ (by decide), replaceAll_tag translates _ (atEnd _),
      bracket _ (by decide), ihContent, replaceAll_close translates, ihRest atTag]
    exact opens _

theorem replaceAll_whole (m : Components) : rule.replaceAll (m.print d) = m.print d' := by
  have whole : rule.replaceAll (m.print d ++ []) = m.print d' ++ rule.replaceAll [] :=
    replaceAll_print translates m nofun
  rwa [Rule.replaceAll_nil, List.append_nil, List.append_nil] at whole

end

/-! ## One rule after the other -/

/-- Class names have the key they have in HTML. -/
def Dialect.classed : Dialect := { Dialect.jsx with classKey := "class".toList }

/-- Every element has a closing tag, too. -/
def Dialect.closed : Dialect := { Dialect.classed with closesItself := false }

/-- What is true has no value, too. -/
def Dialect.flagged : Dialect := { Dialect.closed with yes := [] }

/-- What is false has no value, too. -/
def Dialect.valueless : Dialect := { Dialect.flagged with no := "__never".toList }

theorem alphanumeric_of_isAlpha {c : Char} (letter : c.isAlpha = true) : c.isAlphanum = true := by
  simp [Char.isAlphanum, letter]

/-- Letters and digits are neither white space nor marks. -/
theorem Name.not_mem (n : Name) {c : Char} (mark : c.isAlphanum = false) : c ∉ n.chars := by
  intro isIn
  rw [n.alphanumeric c isIn] at mark
  cases mark

theorem Key.not_mem (k : Key) {c : Char} (mark : c.isAlphanum = false) : c ∉ k.chars := by
  intro isIn
  rw [alphanumeric_of_isAlpha (k.letters c isIn)] at mark
  cases mark

theorem Spaces.not_mem (s : Spaces) {c : Char} (mark : isBlank c = false) : c ∉ s.chars := by
  intro isIn
  rw [(s.blank c isIn).1] at mark
  cases mark

theorem Plain.not_mem (text : Plain) {c : Char} (mark : c ∈ "<>\x7b\x7d\"".toList) :
    c ∉ text.chars :=
  fun isIn => text.noMarkup c isIn mark

/-- What follows a name or an attribute in a tag is neither a letter nor a digit, nor a mark of
another kind. -/
theorem not_mem_of_atCut {after pattern : List Char} (cut : AtCut after)
    (marks : pattern.all (fun c => !isBlank c && c != '/' && c != '>') = true) :
    ∀ c, after.head? = some c → c ∉ pattern := by
  intro c first isIn
  obtain ⟨⟨solid, noSlash⟩, noEnd⟩ : (isBlank c = false ∧ c ≠ '/') ∧ c ≠ '>' := by
    simpa using List.all_eq_true.mp marks c isIn
  rcases cut c first with ⟨blank, -⟩ | slash | theEnd
  · rw [solid] at blank
    cases blank
  · exact noSlash slash
  · exact noEnd theEnd

/-- A number in braces, which is how components write it. -/
theorem number_not_mem {chars : List Char} (digits : ∀ c ∈ chars, c.isDigit = true ∨ c = '.')
    {c : Char} (other : c.isDigit = false) (noDot : c ≠ '.') : c ∉ chars := by
  intro isIn
  rcases digits c isIn with digit | rfl
  · rw [other] at digit
    cases digit
  · exact noDot rfl

theorem classNameRule_needs : classNameRule.Needs className := literal_needs _ _ _

theorem classNameRule_key (k : Key) (value : Value) (after : List Char) :
    classNameRule.replaceAll (k.print .jsx ++ (value.print .jsx ++ after)) =
      k.print .classed ++ classNameRule.replaceAll (value.print .jsx ++ after) := by
  unfold Key.print
  split
  · exact literal_replaceAll _ _ _ _
  · rename_i other
    refine Rule.replaceAll_append_of_cut classNameRule_needs (k.noClassName.resolve_left other) ?_
    have equals : (value.print .jsx ++ after).head? = some '=' := by cases value <;> rfl
    intro c first
    rw [equals] at first
    cases first
    decide

theorem classNameRule_value (value : Value) (after : List Char) :
    classNameRule.replaceAll (value.print .jsx ++ after) =
      value.print .classed ++ classNameRule.replaceAll after := by
  have noC {cs : List Char} (absent : 'c' ∉ cs) (after : List Char) :
      classNameRule.replaceAll (cs ++ after) = cs ++ classNameRule.replaceAll after :=
    Rule.replaceAll_append_of_not_mem classNameRule_needs absent after
  cases value with
  | quoted text =>
    simp only [Value.print, List.append_assoc]
    rw [noC (by decide), Rule.replaceAll_append_of_cut classNameRule_needs text.noClassName,
      noC (by decide)]
    rintro c ⟨⟩
    decide
  | yes => exact noC (by decide) after
  | no => exact noC (by decide) after
  | number chars digits =>
    simp only [Value.print, List.append_assoc]
    rw [noC (by decide), noC (number_not_mem digits (by decide) (by decide)), noC (by decide)]
    rfl

theorem translates_className : Translates classNameRule .jsx .classed where
  text text after atTag := by
    refine Rule.replaceAll_append_of_cut classNameRule_needs text.noClassName fun c first => ?_
    rw [atTag c first]
    decide
  bracket c isBracket after := by
    refine Rule.replaceAll_cons_of_ne classNameRule_needs ?_ after
    rintro rfl
    exact absurd isBracket (by decide)
  name n after cut := by
    refine Rule.replaceAll_append_of_cut classNameRule_needs n.noClassName ?_
    exact not_mem_of_atCut cut (by decide)
  spaces s after :=
    Rule.replaceAll_append_of_not_mem classNameRule_needs (s.not_mem (by decide)) after
  item a after cut := by
    simp only [Attribute.print, List.append_assoc]
    rw [Rule.replaceAll_append_of_not_mem classNameRule_needs (a.before.not_mem (by decide)),
      classNameRule_key, classNameRule_value]
  closesItself := rfl

/-! ### Values in braces -/

/-- A rule for values in braces has to care for those only. -/
theorem translates_of_braces {rule : Rule} {d d' : Dialect} (both : rule.Needs ['=', '\x7b'])
    (keys : d.classKey = d'.classKey) (noEquals : '=' ∉ d.classKey)
    (closesItself : d.closesItself = d'.closesItself)
    (values : ∀ (value : Value) (after), (∀ text, value ≠ .quoted text) → AtCut after →
      rule.replaceAll (value.print d ++ after) = value.print d' ++ rule.replaceAll after) :
    Translates rule d d' where
  text text after atTag := by
    refine Rule.replaceAll_append_of_cut both ?_ fun c first => ?_
    · exact fun within => text.not_mem (c := '\x7b') (by decide) (within.subset (by decide))
    · rw [atTag c first]
      decide
  bracket c isBracket after := by
    refine Rule.replaceAll_cons_of_ne both ?_ after
    rintro rfl
    exact absurd isBracket (by decide)
  name n after cut := Rule.replaceAll_append_of_not_mem both (n.not_mem (by decide)) after
  spaces s after := Rule.replaceAll_append_of_not_mem both (s.not_mem (by decide)) after
  item a after cut := by
    have key : '=' ∉ a.key.print d := by
      unfold Key.print
      split
      · exact noEquals
      · exact a.key.not_mem (by decide)
    have sameKey : a.key.print d = a.key.print d' := by
      unfold Key.print
      rw [keys]
    have value : rule.replaceAll (a.value.print d ++ after) =
        a.value.print d' ++ rule.replaceAll after := by
      cases kind : a.value with
      | quoted text =>
        refine Rule.replaceAll_append_of_cut both ?_ (not_mem_of_atCut cut (by decide))
        intro within
        have brace : '\x7b' ∈ "=\"".toList ++ text.chars ++ ['"'] := within.subset (by decide)
        rw [List.mem_append, List.mem_append] at brace
        rcases brace with (brace | brace) | brace
        · exact absurd brace (by decide)
        · exact text.not_mem (c := '\x7b') (by decide) brace
        · exact absurd brace (by decide)
      | yes | no | number chars digits => exact values _ _ nofun cut
    simp only [Attribute.print, List.append_assoc]
    rw [Rule.replaceAll_append_of_not_mem both (a.before.not_mem (by decide)),
      Rule.replaceAll_append_of_not_mem both key, value, sameKey]
  closesItself := closesItself

/-- A rule that does not apply to a value in braces leaves it alone. -/
theorem replaceAll_value {rule : Rule} (needs : rule.Needs "=\x7b".toList) {tail after : List Char}
    (idle : rule.step ('=' :: (tail ++ after)) = none) (noEquals : '=' ∉ tail) :
    rule.replaceAll ('=' :: tail ++ after) = '=' :: tail ++ rule.replaceAll after := by
  rw [List.cons_append, Rule.replaceAll_cons_of_none idle,
    Rule.replaceAll_append_of_not_mem needs noEquals]
  rfl

/-- A number in braces begins with a digit, a dot or the brace at its end. -/
theorem head_number {chars : List Char} (digits : ∀ c ∈ chars, c.isDigit = true ∨ c = '.')
    (after : List Char) : ∃ c rest, chars ++ ("\x7d".toList ++ after) = c :: rest ∧
      (c.isDigit = true ∨ c = '.' ∨ c = '\x7d') := by
  cases chars with
  | nil => exact ⟨_, _, rfl, .inr (.inr rfl)⟩
  | cons c rest =>
    refine ⟨_, _, rfl, ?_⟩
    rcases digits c List.mem_cons_self with digit | dot
    · exact .inl digit
    · exact .inr (.inl dot)

/-- A rule for one word in braces does not apply to numbers. -/
theorem literalStep_number {first : Char} {more replacement chars : List Char}
    (digits : ∀ c ∈ chars, c.isDigit = true ∨ c = '.') (after : List Char)
    (word : first.isDigit = false ∧ first ≠ '.' ∧ first ≠ '\x7d') :
    literalStep '=' ('\x7b' :: first :: more) replacement
      ('=' :: '\x7b' :: (chars ++ ("\x7d".toList ++ after))) = none := by
  obtain ⟨c, rest, begins, kind⟩ := head_number digits after
  have other : first ≠ c := by
    rintro rfl
    rcases kind with digit | dot | brace
    · rw [word.1] at digit
      cases digit
    · exact word.2.1 dot
    · exact word.2.2 brace
  rw [begins]
  simp [literalStep, afterPrefix?, other]

theorem replaceAll_number {rule : Rule} (needs : rule.Needs "=\x7b".toList)
    {chars after : List Char} (digits : ∀ c ∈ chars, c.isDigit = true ∨ c = '.')
    (idle : rule.step ('=' :: '\x7b' :: (chars ++ ("\x7d".toList ++ after))) = none) :
    rule.replaceAll ("=\x7b".toList ++ chars ++ "\x7d".toList ++ after) =
      "=\x7b".toList ++ chars ++ "\x7d".toList ++ rule.replaceAll after := by
  have noEquals : '=' ∉ '\x7b' :: chars ++ "\x7d".toList := by
    have absent := number_not_mem digits (c := '=') (by decide) (by decide)
    simp [absent]
  have idle : rule.step ('=' :: (('\x7b' :: chars ++ "\x7d".toList) ++ after)) = none := by
    simpa using idle
  have value := replaceAll_value needs idle noEquals
  simpa using value

theorem literal_needs_braces (word replacement : List Char) :
    (Rule.literal '=' ('\x7b' :: word) replacement).Needs "=\x7b".toList :=
  fun cs applies => (List.prefix_append _ word).trans (literal_needs _ _ _ cs applies)

theorem translates_style : Translates styleRule .classed .classed := by
  have needs : styleRule.Needs "=\x7b".toList := literal_needs_braces ['\n'] []
  refine translates_of_braces needs rfl (by decide) rfl fun value after unquoted cut => ?_
  cases value with
  | quoted text => exact absurd rfl (unquoted text)
  | yes | no => exact replaceAll_value needs rfl (by decide)
  | number chars digits =>
    exact replaceAll_number needs digits (literalStep_number digits after (by decide))

theorem translates_true : Translates trueRule .closed .flagged := by
  have needs : trueRule.Needs "=\x7b".toList := literal_needs_braces "true\x7d".toList []
  refine translates_of_braces needs rfl (by decide) rfl fun value after unquoted cut => ?_
  cases value with
  | quoted text => exact absurd rfl (unquoted text)
  | yes => exact literal_replaceAll _ _ _ after
  | no => exact replaceAll_value needs rfl (by decide)
  | number chars digits =>
    exact replaceAll_number needs digits (literalStep_number digits after (by decide))

theorem translates_false : Translates falseRule .flagged .valueless := by
  have needs : falseRule.Needs "=\x7b".toList :=
    literal_needs_braces "false\x7d".toList "__never".toList
  refine translates_of_braces needs rfl (by decide) rfl fun value after unquoted cut => ?_
  cases value with
  | quoted text => exact absurd rfl (unquoted text)
  | yes => rfl
  | no => exact literal_replaceAll _ _ _ after
  | number chars digits =>
    exact replaceAll_number needs digits (literalStep_number digits after (by decide))

theorem isNumberChar_of_digits {chars : List Char}
    (digits : ∀ c ∈ chars, c.isDigit = true ∨ c = '.') :
    ∀ c ∈ chars, isNumberChar c = true := by
  intro c isIn
  rcases digits c isIn with digit | rfl
  · have bounds : 48 ≤ c.toNat ∧ c.toNat ≤ 57 := by
      simpa [Char.isDigit, UInt32.le_iff_toNat_le] using digit
    have isDigit : Text.isDigit c = true := by
      rw [Text.isDigit, digitRanges, inRanges, if_neg (by omega), if_pos (by omega)]
    rw [isNumberChar, isDigit, Bool.true_or]
  · exact Bool.or_true _

theorem numberStep_number {chars : List Char} (digits : ∀ c ∈ chars, c.isDigit = true ∨ c = '.')
    (after : List Char) :
    numberStep ("=\x7b".toList ++ chars ++ "\x7d".toList ++ after) =
      some ("=\"".toList ++ chars ++ ['"'], after) := by
  have run := isNumberChar_of_digits digits
  have stop : ∀ c ∈ ('\x7d' :: after).head?, isNumberChar c = false := by
    rintro c ⟨⟩
    decide
  have begins : afterPrefix? "=\x7b".toList ("=\x7b".toList ++ chars ++ "\x7d".toList ++ after) =
      some (chars ++ '\x7d' :: after) := afterPrefix?_eq_some_iff.mpr (by simp)
  have drop := Text.dropWhile_append_of_ends run stop
  have take := Text.takeWhile_append_of_ends run stop
  have ends : afterPrefix? ['\x7d'] ('\x7d' :: after) = some after :=
    afterPrefix?_eq_some_iff.mpr rfl
  rw [numberStep, begins, Option.bind_some, drop, take, ends]
  rfl

theorem translates_number : Translates numberRule .valueless .html := by
  have needs : numberRule.Needs "=\x7b".toList := by
    intro cs applies
    obtain ⟨result, applies⟩ := Option.isSome_iff_exists.mp applies
    obtain ⟨rest, begins, -⟩ := Option.bind_eq_some_iff.mp applies
    rw [afterPrefix?_eq_some_iff.mp begins]
    exact List.prefix_append _ _
  refine translates_of_braces needs rfl (by decide) rfl fun value after unquoted cut => ?_
  cases value with
  | quoted text => exact absurd rfl (unquoted text)
  | yes => rfl
  | no => exact Rule.replaceAll_append_of_not_mem needs (by decide) after
  | number chars digits =>
    exact Rule.replaceAll_of_step (numberStep_number digits after)

/-! ### Elements without content -/

theorem not_isBlank_of_isAlphanum {c : Char} (alphanumeric : c.isAlphanum = true) :
    isBlank c = false := by
  have bounds := bounds_of_isAlphanum alphanumeric
  rw [isBlank, blankRanges, inRanges, if_neg (by omega), if_neg (by omega), inRanges,
    if_neg (by omega), if_neg (by omega), inRanges, if_pos (by omega)]

/-- A name does not end a tag by itself. -/
theorem Name.exists_last (n : Name) :
    ∃ front c, n.chars = front ++ [c] ∧ isBlank c = false ∧ c ≠ '/' := by
  obtain ⟨front, c, ends⟩ := (List.eq_nil_or_concat n.chars).resolve_left n.nonempty
  rw [List.concat_eq_append] at ends
  have alphanumeric := n.alphanumeric c (by rw [ends]; simp)
  refine ⟨front, c, ends, not_isBlank_of_isAlphanum alphanumeric, ?_⟩
  rintro rfl
  exact absurd alphanumeric (by decide)

theorem Value.exists_last (value : Value) :
    ∃ front c, value.print .classed = front ++ [c] ∧ isBlank c = false ∧ c ≠ '/' := by
  cases value with
  | quoted text => exact ⟨"=\"".toList ++ text.chars, '"', rfl, by decide, by decide⟩
  | yes => exact ⟨"=\x7btrue".toList, '\x7d', rfl, by decide, by decide⟩
  | no => exact ⟨"=\x7bfalse".toList, '\x7d', rfl, by decide, by decide⟩
  | number chars digits => exact ⟨"=\x7b".toList ++ chars, '\x7d', rfl, by decide, by decide⟩

/-- Before the white space at its end, a tag ends with a name or a value. -/
theorem Tag.exists_last (t : Tag) :
    ∃ front c, t.print .classed = front ++ c :: t.gap.chars ∧ isBlank c = false ∧ c ≠ '/' := by
  rcases List.eq_nil_or_concat t.attributes with noAttributes | ⟨before, a, attributes⟩
  · obtain ⟨front, c, ends, solid, noSlash⟩ := t.name.exists_last
    exact ⟨front, c, by simp [Tag.print, noAttributes, ends], solid, noSlash⟩
  · obtain ⟨front, c, ends, solid, noSlash⟩ := a.value.exists_last
    exact ⟨t.name.chars ++ before.flatMap (Attribute.print .classed) ++ a.before.chars ++
      a.key.print .classed ++ front, c, by simp [Tag.print, attributes, Attribute.print, ends],
      solid, noSlash⟩

theorem bracket_cases {c : Char} (bracket : c ∈ "<>".toList) : c = '<' ∨ c = '>' := by
  rcases List.mem_cons.mp bracket with left | bracket
  · exact .inl left
  · exact .inr (List.mem_singleton.mp bracket)

/-- No bracket of a tag stands within a tag. -/
theorem Attribute.not_mem_print (a : Attribute) {c : Char} (bracket : c ∈ "<>".toList) :
    c ∉ a.print .classed := by
  have mark : isBlank c = false ∧ c.isAlphanum = false ∧ c.isDigit = false ∧ c ≠ '.' ∧
      c ∈ "<>\x7b\x7d\"".toList ∧ c ∉ "=\x7btrue\x7dfalse\"class".toList := by
    rcases bracket_cases bracket with rfl | rfl <;> decide
  obtain ⟨solid, other, noDigit, noDot, noText, noWord⟩ := mark
  have absent {cs : List Char} (within : cs ⊆ "=\x7btrue\x7dfalse\"class".toList) : c ∉ cs :=
    fun isIn => noWord (within isIn)
  have key : c ∉ a.key.print .classed := by
    unfold Key.print
    split
    · exact absent (by decide)
    · exact a.key.not_mem other
  have value : c ∉ a.value.print .classed := by
    cases a.value with
    | quoted text =>
      rw [Value.print, List.mem_append, List.mem_append, not_or, not_or]
      exact ⟨⟨absent (by decide), text.not_mem noText⟩, absent (by decide)⟩
    | yes => exact absent (by decide)
    | no => exact absent (by decide)
    | number chars digits =>
      rw [Value.print, List.mem_append, List.mem_append, not_or, not_or]
      exact ⟨⟨absent (by decide), number_not_mem digits noDigit noDot⟩, absent (by decide)⟩
  rw [Attribute.print, List.mem_append, List.mem_append, not_or, not_or]
  exact ⟨⟨a.before.not_mem solid, key⟩, value⟩

theorem Tag.not_mem_print (t : Tag) {c : Char} (bracket : c ∈ "<>".toList) :
    c ∉ t.print .classed := by
  have mark : isBlank c = false ∧ c.isAlphanum = false := by
    rcases bracket_cases bracket with rfl | rfl <;> decide
  rw [Tag.print, List.mem_append, List.mem_append, List.mem_flatMap, not_or, not_or]
  refine ⟨⟨t.name.not_mem mark.2, ?_⟩, t.gap.not_mem mark.1⟩
  rintro ⟨a, -, isIn⟩
  exact a.not_mem_print bracket isIn

theorem selfClosingRule_needs : selfClosingRule.Needs ['<'] := by
  intro cs applies
  obtain ⟨result, applies⟩ := Option.isSome_iff_exists.mp applies
  obtain ⟨rest, begins, -⟩ := Option.bind_eq_some_iff.mp applies
  rw [afterPrefix?_eq_some_iff.mp begins]
  exact List.prefix_append _ _

/-- What stands between the brackets of a tag decides whether it closes itself. -/
theorem selfClosingStep_tag {inner : List Char} (noEnd : '>' ∉ inner) (after : List Char) :
    selfClosingStep ('<' :: (inner ++ '>' :: after)) =
      (splitSelfClosing inner).map fun (name, attributes) =>
        ('<' :: name ++ attributes ++ "></".toList ++ name ++ ['>'], after) := by
  have begins (c : Char) (cs : List Char) : afterPrefix? [c] (c :: cs) = some cs :=
    afterPrefix?_eq_some_iff.mpr rfl
  rw [selfClosingStep, begins, Option.bind_some, dropWhile_bne_append noEnd,
    takeWhile_bne_append noEnd, begins, Option.bind_some]

/-- A tag is cut at its first white space, and closes itself if a slash stands at its end. -/
theorem splitSelfClosing_eq {front gap : List Char} {c : Char} (solid : isBlank c = false)
    (blank : ∀ d ∈ gap, isBlank d = true)
    (begins : ∀ d, (front ++ [c]).head? = some d → isBlank d = false) :
    splitSelfClosing (front ++ c :: gap) =
      if c = '/' then
        if (front.takeWhile fun c => !isBlank c).isEmpty then none
        else some (front.takeWhile fun c => !isBlank c, front.dropWhile fun c => !isBlank c)
      else none := by
  have start : trimStart (front ++ c :: gap) = front ++ c :: gap := by
    unfold trimStart
    cases front with
    | nil => exact List.dropWhile_cons_of_neg (by simp [solid])
    | cons d rest => exact List.dropWhile_cons_of_neg (by simp [begins d rfl])
  have ends : (trimEnd (front ++ c :: gap)).reverse = c :: front.reverse := by
    rw [trimEnd, List.reverse_reverse, List.reverse_append, List.reverse_cons, List.append_assoc,
      List.dropWhile_append_of_pos fun d isIn => blank d (List.mem_reverse.mp isIn)]
    exact List.dropWhile_cons_of_neg (by simp [solid])
  rw [splitSelfClosing, start, ends]
  by_cases slash : c = '/'
  · subst slash
    simp
  · simp [slash]

theorem Tag.head_print (d : Dialect) (t : Tag) (after : List Char) :
    ∀ c, (t.print d ++ after).head? = some c → isBlank c = false := by
  intro c first
  obtain ⟨e, rest, chars⟩ := List.exists_cons_of_ne_nil t.name.nonempty
  simp only [Tag.print, chars, List.cons_append, List.head?_cons, Option.some.injEq] at first
  subst first
  exact not_isBlank_of_isAlphanum (t.name.alphanumeric e (by rw [chars]; exact List.mem_cons_self))

theorem splitSelfClosing_open (t : Tag) : splitSelfClosing (t.print .classed) = none := by
  obtain ⟨front, c, ends, solid, noSlash⟩ := t.exists_last
  have begins := t.head_print .classed []
  rw [ends, splitSelfClosing_eq solid (fun d isIn => (t.gap.blank d isIn).1), if_neg noSlash]
  intro d first
  refine begins d ?_
  rw [List.append_nil, ends]
  cases front with
  | nil => exact first
  | cons e rest => exact first

theorem splitSelfClosing_close (n : Name) (gap : Spaces) :
    splitSelfClosing ('/' :: (n.chars ++ gap.chars)) = none := by
  obtain ⟨front, c, ends, solid, noSlash⟩ := n.exists_last
  have parted : '/' :: (n.chars ++ gap.chars) = '/' :: front ++ c :: gap.chars := by simp [ends]
  rw [parted, splitSelfClosing_eq solid (fun d isIn => (gap.blank d isIn).1), if_neg noSlash]
  rintro d ⟨⟩
  decide

theorem Tag.isBlank_of_behind (d : Dialect) (t : Tag) {c : Char} {rest : List Char}
    (behind : t.attributes.flatMap (Attribute.print d) ++ t.gap.chars = c :: rest) :
    isBlank c = true := by
  cases attributes : t.attributes with
  | nil =>
    rw [attributes] at behind
    exact (t.gap.blank c (by rw [show t.gap.chars = c :: rest from behind]; simp)).1
  | cons a more =>
    obtain ⟨e, chars, spaces⟩ := List.exists_cons_of_ne_nil a.apart
    rw [attributes, List.flatMap_cons, Attribute.print, spaces] at behind
    cases behind
    exact (a.before.blank _ (by rw [spaces]; exact List.mem_cons_self)).1

theorem splitSelfClosing_empty (t : Tag) :
    splitSelfClosing (t.print .classed ++ ['/']) =
      some (t.name.chars, t.attributes.flatMap (Attribute.print .classed) ++ t.gap.chars) := by
  have solid : ∀ c ∈ t.name.chars, (!isBlank c) = true := by
    intro c isIn
    rw [not_isBlank_of_isAlphanum (t.name.alphanumeric c isIn)]
    rfl
  have cut : (t.attributes.flatMap (Attribute.print .classed) ++ t.gap.chars).takeWhile
        (fun c => !isBlank c) = [] ∧
      (t.attributes.flatMap (Attribute.print .classed) ++ t.gap.chars).dropWhile
        (fun c => !isBlank c) =
        t.attributes.flatMap (Attribute.print .classed) ++ t.gap.chars := by
    cases behind : t.attributes.flatMap (Attribute.print .classed) ++ t.gap.chars with
    | nil => exact ⟨rfl, rfl⟩
    | cons c rest =>
      have blank := t.isBlank_of_behind .classed behind
      exact ⟨List.takeWhile_cons_of_neg (by simp [blank]),
        List.dropWhile_cons_of_neg (by simp [blank])⟩
  rw [splitSelfClosing_eq (by decide) (by simp) (t.head_print .classed ['/']), if_pos rfl,
    Tag.print, List.append_assoc, List.takeWhile_append_of_pos solid,
    List.dropWhile_append_of_pos solid, cut.1, cut.2, List.append_nil,
    if_neg (by simp [t.name.nonempty])]

theorem Tag.print_closed (t : Tag) : t.print .closed = t.print .classed := rfl

/-- The rule for tags that close themselves opens and closes exactly the elements without
content. -/
theorem replaceAll_selfClosing (m : Components) (after : List Char) :
    selfClosingRule.replaceAll (m.print .classed ++ after) =
      m.print .closed ++ selfClosingRule.replaceAll after := by
  have quiet {cs : List Char} (absent : '<' ∉ cs) (after : List Char) :
      selfClosingRule.replaceAll (cs ++ after) = cs ++ selfClosingRule.replaceAll after :=
    Rule.replaceAll_append_of_not_mem selfClosingRule_needs absent after
  -- A tag that does not close itself is left alone.
  have tag {inner : List Char} (noMark : ∀ c ∈ "<>".toList, c ∉ inner)
      (stays : splitSelfClosing inner = none) (after : List Char) :
      selfClosingRule.replaceAll ('<' :: (inner ++ '>' :: after)) =
        '<' :: (inner ++ '>' :: selfClosingRule.replaceAll after) := by
    have idle : selfClosingRule.step ('<' :: (inner ++ '>' :: after)) = none := by
      have step := selfClosingStep_tag (noMark '>' (by decide)) after
      rw [stays] at step
      exact step
    have theEnd := Rule.replaceAll_cons_of_ne selfClosingRule_needs
      (show '<' ≠ '>' by decide) after
    rw [Rule.replaceAll_cons_of_none idle, quiet (noMark '<' (by decide)), theEnd]
  have text (before : Plain) := quiet (before.not_mem (c := '<') (by decide))
  induction m generalizing after with
  | text before => exact text before after
  | empty before t rest ih =>
    have noEnd : '>' ∉ t.print .classed ++ ['/'] := by
      rw [List.mem_append, not_or]
      exact ⟨t.not_mem_print (by decide), by decide⟩
    have applies : selfClosingRule.step (t.printEmpty .classed ++ (rest.print .classed ++ after)) =
        some (t.printEmpty .closed, rest.print .classed ++ after) := by
      have step := selfClosingStep_tag noEnd (rest.print .classed ++ after)
      rw [splitSelfClosing_empty] at step
      have whole : t.printEmpty .classed ++ (rest.print .classed ++ after) =
          '<' :: (t.print .classed ++ ['/'] ++ '>' :: (rest.print .classed ++ after)) := by
        simp [Tag.printEmpty, Dialect.classed, Dialect.jsx]
      have parts : t.printEmpty .closed =
          '<' :: t.name.chars ++ (t.attributes.flatMap (Attribute.print .classed) ++ t.gap.chars) ++
            "></".toList ++ t.name.chars ++ ['>'] := by
        have closesItself : Dialect.closed.closesItself = false := rfl
        rw [Tag.printEmpty, Tag.print_closed, Tag.print]
        simp [Name.close, closesItself]
      rw [whole, parts]
      exact step
    simp only [Components.print, List.append_assoc]
    rw [text, Rule.replaceAll_of_step applies, ih]
  | full before t content gap rest ihContent ihRest =>
    have noMark : ∀ c ∈ "<>".toList, c ∉ '/' :: (t.name.chars ++ gap.chars) := by
      intro c bracket
      obtain ⟨solid, other, noSlash⟩ :
          isBlank c = false ∧ c.isAlphanum = false ∧ c ≠ '/' := by
        rcases bracket_cases bracket with rfl | rfl <;> decide
      rw [List.mem_cons, List.mem_append, not_or, not_or]
      exact ⟨noSlash, t.name.not_mem other, gap.not_mem solid⟩
    have opening := tag (fun c mark => t.not_mem_print mark) (splitSelfClosing_open t)
    have closing := tag noMark (splitSelfClosing_close t.name gap)
    simp only [Components.print, Name.close, String.reduceToList, List.append_assoc,
      List.cons_append, List.nil_append] at closing ⊢
    rw [text, opening, ihContent, closing, ihRest, Tag.print_closed]

/-! ### Whole texts -/

theorem hasNoStyleObject_print (m : Components) : HasNoStyleObject (m.print .classed) := by
  have same := replaceAll_whole translates_style m
  have loses : styleRule.Loses fun _ => 1 := literal_loses (by decide)
  exact hasNoStyleObject_of_idle (Rule.idle_of_weight loses (congrArg _ same))

/-- Turning the attributes of printed components into HTML gives the print of the same components
in HTML: elements without content have an opening and a closing tag, class names have the key
`class`, what is true has no value, what is false the end of a name instead, and numbers stand in
quotes. Nothing else changes. -/
theorem normalizeAttributes_print (m : Components) :
    normalizeAttributes (String.ofList (m.print .jsx)) = String.ofList (m.print .html) := by
  have closed : selfClosingRule.replaceAll (m.print .classed) = m.print .closed := by
    have whole := replaceAll_selfClosing m []
    rwa [Rule.replaceAll_nil, List.append_nil, List.append_nil] at whole
  have classed : classNameRule.apply (String.ofList (m.print .jsx)) =
      String.ofList (m.print .classed) := by
    rw [Rule.apply, String.toList_ofList, replaceAll_whole translates_className]
  have styled : inlineStylesOrKeep (String.ofList (m.print .classed)) =
      String.ofList (m.print .classed) := by
    refine inlineStylesOrKeep_of_noStyleObject ?_
    rw [String.toList_ofList]
    exact hasNoStyleObject_print m
  unfold normalizeAttributes
  dsimp only
  rw [classed, styled, String.toList_ofList, closed, replaceAll_whole translates_true,
    replaceAll_whole translates_false, replaceAll_whole translates_number]

end SnapshotPreview.Markup

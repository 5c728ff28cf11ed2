import SnapshotPreview.Markup.Attributes
import SnapshotPreview.Proofs.Markup.Rules

/-!
# Texts that stay as they are

Turning the attributes of a text into HTML leaves the text alone exactly if none of the rules
applies to it (`normalizeAttributes_eq_self_iff`): what one rule changes, no later one changes back.
-/

namespace SnapshotPreview.Markup

open Text

/-! ## Style objects -/

/-- No style object begins in a text. -/
def HasNoStyleObject (cs : List Char) : Prop :=
  ∀ before rest, cs = before ++ rest → StyleObject.at? rest = none

/-- The beginning of a style object. -/
def styleRule : Rule := .literal '=' "\x7b\n".toList []

/-- Without its beginning there is no style object. -/
theorem hasNoStyleObject_of_idle {cs : List Char} (idle : styleRule.Idle cs) :
    HasNoStyleObject cs := by
  intro before rest parted
  rw [Option.eq_none_iff_forall_ne_some]
  intro o found
  obtain ⟨lines, begins, -⟩ := Option.bind_eq_some_iff.mp found
  have whole : cs = before ++ "style".toList ++ ("=\x7b\n".toList ++ lines) := by
    rw [parted, afterPrefix?_eq_some_iff.mp begins]
    simp
  have here := idle _ _ whole
  rw [show styleRule.step ("=\x7b\n".toList ++ lines) = _ from literal_step _ _ _ _] at here
  cases here

theorem inlineStylesFrom_nil (size : Nat) : inlineStylesFrom size [] = .ok [] := by
  rw [inlineStylesFrom]
  split
  · rename_i found
    cases found
  · rfl

/-- A text at no character of which a style object begins is left alone. -/
theorem inlineStylesFrom_append_of_idle {size : Nat} {cs : List Char} (after : List Char)
    (idle : ∀ before c rest, cs = before ++ c :: rest → StyleObject.at? (c :: rest ++ after) = none) :
    inlineStylesFrom size (cs ++ after) = (inlineStylesFrom size after).map (cs ++ ·) := by
  induction cs with
  | nil =>
    rw [List.nil_append]
    cases inlineStylesFrom size after <;> rfl
  | cons c cs ih =>
    have here : StyleObject.at? (c :: (cs ++ after)) = none := idle [] c cs rfl
    rw [List.cons_append, inlineStylesFrom]
    split
    · rename_i found
      rw [here] at found
      cases found
    · dsimp only
      rw [ih fun before d rest parted => idle (c :: before) d rest (by rw [parted]; rfl)]
      cases inlineStylesFrom size after <;> rfl

theorem inlineStylesFrom_of_noStyleObject {cs : List Char} (plain : HasNoStyleObject cs)
    (size : Nat) : inlineStylesFrom size cs = .ok cs := by
  have whole : inlineStylesFrom size (cs ++ []) = (inlineStylesFrom size []).map (cs ++ ·) := by
    refine inlineStylesFrom_append_of_idle [] fun before c rest parted => ?_
    rw [List.append_nil]
    exact plain before (c :: rest) parted
  rw [List.append_nil, inlineStylesFrom_nil, Except.map, List.append_nil] at whole
  exact whole

/-- Without style objects, converting them changes nothing. -/
theorem inlineStylesOrKeep_of_noStyleObject {markup : String}
    (plain : HasNoStyleObject markup.toList) : inlineStylesOrKeep markup = markup := by
  rw [inlineStylesOrKeep, inlineStyles, inlineStylesFrom_of_noStyleObject plain]
  exact String.ofList_toList

theorem styleAttribute_eq_ok_iff {body : List Char} {style : String} :
    styleAttribute body = .ok style ↔
      ∃ properties,
        Json.parse (String.ofList (dropLastComma ('\x7b' :: body ++ ['\x7d']))) =
          .ok (.object properties) ∧
        "style=\"" ++ declarations properties ++ "\"" = style := by
  unfold styleAttribute
  split
  · rename_i properties read
    rw [read]
    constructor
    · intro written
      exact ⟨properties, rfl, Except.ok.inj written⟩
    · rintro ⟨properties', same, written⟩
      cases same
      rw [written]
  · rename_i v notObject read
    rw [read]
    constructor
    · intro written
      cases written
    · rintro ⟨properties, same, -⟩
      exact absurd (Except.ok.inj same) (notObject properties)
  · rename_i problem read
    rw [read]
    constructor
    · intro written
      cases written
    · rintro ⟨properties, same, -⟩
      cases same

theorem begins_of_styleAttribute {body : List Char} {style : String}
    (converts : styleAttribute body = .ok style) :
    ∃ rest, style.toList = "style=\"".toList ++ rest := by
  obtain ⟨properties, -, rfl⟩ := styleAttribute_eq_ok_iff.mp converts
  exact ⟨_, by rw [String.toList_append, String.toList_append, List.append_assoc]⟩

/-- A style object with which a text begins becomes its attribute. -/
theorem inlineStylesFrom_at {size : Nat} {cs : List Char} {o : StyleObject}
    (found : StyleObject.at? cs = some o) :
    inlineStylesFrom size cs =
      match styleAttribute o.body with
      | .ok style => (inlineStylesFrom size o.rest).map (style.toList ++ ·)
      | .error problem =>
        .error { offset := size - Text.byteLength ('\x7b' :: o.inside), problem } := by
  rw [inlineStylesFrom]
  split
  · rename_i o' found'
    rw [found] at found'
    cases found'
    rfl
  · rename_i idle
    rw [found] at idle
    cases idle

/-- Converting styles changes nothing, or its first change writes a quote for a brace. -/
theorem inlineStylesFrom_eq_ok {size : Nat} {cs out : List Char}
    (converts : inlineStylesFrom size cs = .ok out) :
    HasNoStyleObject cs ∧ out = cs ∨
      ∃ front rest rest', cs = front ++ '\x7b' :: rest ∧ out = front ++ '"' :: rest' := by
  fun_induction inlineStylesFrom size cs generalizing out with
  | case1 cs o found style converted ih =>
    obtain ⟨lines, begins, -⟩ := Option.bind_eq_some_iff.mp found
    obtain ⟨more, written⟩ := begins_of_styleAttribute converted
    cases after : inlineStylesFrom size o.rest with
    | error e =>
      rw [after] at converts
      cases converts
    | ok tail =>
      rw [after] at converts
      cases converts
      refine .inr ⟨"style=".toList, '\n' :: lines, more ++ tail, ?_, by simp [written]⟩
      exact (afterPrefix?_eq_some_iff.mp begins).trans (by simp)
  | case2 cs o found problem failed => cases converts
  | case3 idle =>
    cases converts
    refine .inl ⟨fun before rest parted => ?_, rfl⟩
    obtain ⟨-, rfl⟩ := List.nil_eq_append_iff.mp parted
    exact idle
  | case4 c rest idle ih =>
    cases after : inlineStylesFrom size rest with
    | error e =>
      rw [after] at converts
      cases converts
    | ok tail =>
      rw [after] at converts
      cases converts
      rcases ih after with ⟨plain, rfl⟩ | ⟨front, more, more', parted, parted'⟩
      · refine .inl ⟨fun before rest' parted => ?_, rfl⟩
        cases before with
        | nil =>
          obtain rfl : c :: _ = rest' := parted
          exact idle
        | cons d before => exact plain before rest' (List.cons.inj parted).2
      · exact .inr ⟨c :: front, more, more', by rw [parted]; rfl, by rw [parted']; rfl⟩

/-! ## The first change -/

/-- A mark that comes too early in one of two texts tells them apart. -/
theorem append_cons_ne {c : Char} {front back first rest : List Char}
    (early : front.length < first.length) (many : first.count c ≤ front.count c) :
    front ++ c :: back ≠ first ++ rest := by
  intro same
  have parted : front ++ [c] <+: first := by
    have begins : front ++ [c] <+: first ++ rest := ⟨back, by rw [← same, List.append_assoc]; rfl⟩
    refine List.prefix_of_prefix_length_le begins (List.prefix_append _ _) ?_
    rw [List.length_append, List.length_singleton]
    exact early
  have more := parted.sublist.count_le c
  rw [List.count_append, List.count_singleton_self] at more
  omega

/-- The rule does not reach over a mark, and writes no more than it reads. -/
def StopsAt (rule : Rule) (c : Char) : Prop :=
  ∀ cs out rest, rule.step cs = some (out, rest) →
    ∃ used, cs = used ++ rest ∧ c ∉ used ∧ out.length ≤ used.length

/-- What stands before a mark becomes no longer, and no mark in it is lost. -/
theorem exists_replaceAll_mark {rule : Rule} {c : Char} (stops : StopsAt rule c)
    (front back : List Char) :
    ∃ front' back', rule.replaceAll (front ++ c :: back) = front' ++ c :: back' ∧
      front'.length ≤ front.length ∧ front.count c ≤ front'.count c := by
  cases applies : rule.step (front ++ c :: back) with
  | some result =>
    obtain ⟨out, rest⟩ := result
    obtain ⟨used, parted, noMark, short⟩ := stops _ _ _ applies
    have shorter := rule.shorter applies
    obtain ⟨more, rfl, rfl⟩ := exists_of_append_cons parted noMark
    have : more.length < (used ++ more).length := by
      simp only [List.length_append, List.length_cons] at shorter ⊢
      omega
    obtain ⟨front', back', written, le, many⟩ := exists_replaceAll_mark stops more back
    refine ⟨out ++ front', back', ?_, ?_, ?_⟩
    · rw [Rule.replaceAll_of_step applies, written, List.append_assoc]
    · simp only [List.length_append]
      omega
    · rw [List.count_append, List.count_append, List.count_eq_zero_of_not_mem noMark]
      omega
  | none =>
    cases front with
    | nil => exact ⟨[], _, Rule.replaceAll_cons_of_none applies, Nat.le_refl _, Nat.le_refl _⟩
    | cons d front =>
      obtain ⟨front', back', written, le, many⟩ := exists_replaceAll_mark stops front back
      refine ⟨d :: front', back', ?_, Nat.succ_le_succ le, ?_⟩
      · rw [List.cons_append] at applies ⊢
        rw [Rule.replaceAll_cons_of_none applies, written]
        rfl
      · rw [List.count_cons, List.count_cons]
        omega
termination_by front.length

/-- What stands before a mark in the result was no shorter before, and had no more of another mark.
-/
theorem exists_of_literal_mark {first c m : Char} {more replacement : List Char}
    (noMark : m ∉ replacement) (noCount : c ∉ first :: more)
    (short : replacement.length ≤ more.length) {cs front back : List Char}
    (written : (Rule.literal first more replacement).replaceAll cs = front ++ m :: back) :
    ∃ front' back', cs = front' ++ m :: back' ∧ front.length ≤ front'.length ∧
      front'.count c ≤ front.count c := by
  cases applies : (Rule.literal first more replacement).step cs with
  | some result =>
    obtain ⟨rest, begins, same⟩ := Option.map_eq_some_iff.mp applies
    cases same
    rw [Rule.replaceAll_of_step applies] at written
    obtain ⟨behind, rfl, tail⟩ := exists_of_append_cons written.symm noMark
    have : rest.length < cs.length := Rule.shorter _ applies
    obtain ⟨front', back', whole, le, many⟩ := exists_of_literal_mark noMark noCount short tail
    refine ⟨first :: more ++ front', back', ?_, ?_, ?_⟩
    · rw [afterPrefix?_eq_some_iff.mp begins, whole, List.append_assoc]
    · simp only [List.length_append, List.length_cons]
      omega
    · rw [List.count_append, List.count_append, List.count_eq_zero_of_not_mem noCount]
      omega
  | none =>
    cases cs with
    | nil =>
      rw [Rule.replaceAll_nil] at written
      exact absurd written (by simp)
    | cons d cs =>
      rw [Rule.replaceAll_cons_of_none applies] at written
      cases front with
      | nil =>
        cases written
        exact ⟨[], cs, rfl, Nat.le_refl _, Nat.le_refl _⟩
      | cons e front =>
        rw [List.cons_append, List.cons.injEq] at written
        obtain ⟨rfl, written⟩ := written
        obtain ⟨front', back', whole, le, many⟩ :=
          exists_of_literal_mark noMark noCount short written
        refine ⟨d :: front', back', by rw [whole]; rfl, Nat.succ_le_succ le, ?_⟩
        rw [List.count_cons, List.count_cons]
        omega
termination_by cs.length

/-! ## Tags that close themselves -/

/-- A tag that closes itself consists of its name, its attributes, a slash and white space. -/
theorem trimStart_of_splitSelfClosing {inner name attributes : List Char}
    (split : splitSelfClosing inner = some (name, attributes)) :
    ∃ gap, trimStart inner = name ++ attributes ++ '/' :: gap ∧ ∀ c ∈ gap, isBlank c = true := by
  have parted : trimStart inner = trimEnd (trimStart inner) ++
      ((trimStart inner).reverse.takeWhile isBlank).reverse := by
    rw [trimEnd, ← List.reverse_append, List.takeWhile_append_dropWhile, List.reverse_reverse]
  unfold splitSelfClosing at split
  split at split
  · rename_i content ends
    dsimp only at split
    split at split
    · cases split
    · cases split
      refine ⟨((trimStart inner).reverse.takeWhile isBlank).reverse, ?_, fun c isIn => ?_⟩
      · rw [List.takeWhile_append_dropWhile]
        rw [List.reverse_eq_iff, List.reverse_cons] at ends
        rw [ends, List.append_assoc] at parted
        exact parted
      · exact List.all_eq_true.mp List.all_takeWhile c (List.mem_reverse.mp isIn)
  · cases split

theorem count_trimStart {c : Char} (solid : isBlank c = false) (cs : List Char) :
    (trimStart cs).count c = cs.count c := by
  have blank : (cs.takeWhile isBlank).count c = 0 := by
    rw [List.count_eq_zero]
    intro isIn
    rw [List.all_eq_true.mp List.all_takeWhile c isIn] at solid
    cases solid
  have whole := congrArg (List.count c) (List.takeWhile_append_dropWhile (p := isBlank) (l := cs))
  rw [List.count_append, blank, Nat.zero_add] at whole
  exact whole

theorem trimStart_append_cons {c : Char} (solid : isBlank c = false) (front back : List Char) :
    trimStart (front ++ c :: back) = trimStart front ++ c :: back := by
  induction front with
  | nil => exact List.dropWhile_cons_of_neg (by simp [solid])
  | cons d front ih =>
    unfold trimStart at ih ⊢
    rw [List.cons_append]
    by_cases blank : isBlank d = true
    · rw [List.dropWhile_cons_of_pos blank, List.dropWhile_cons_of_pos blank, ih]
    · rw [List.dropWhile_cons_of_neg blank, List.dropWhile_cons_of_neg blank]
      rfl

/-- A quote within a tag that closes itself belongs to its name or its attributes. -/
theorem exists_of_splitSelfClosing_quote {front back name attributes : List Char}
    (split : splitSelfClosing (front ++ '"' :: back) = some (name, attributes)) :
    ∃ more, name ++ attributes = trimStart front ++ '"' :: more := by
  obtain ⟨gap, whole, blank⟩ := trimStart_of_splitSelfClosing split
  rw [trimStart_append_cons (by decide)] at whole
  rcases List.append_eq_append_iff.mp whole with ⟨more, kept, ends⟩ | ⟨more, -, ends⟩
  · cases more with
    | nil => cases ends
    | cons c more =>
      cases ends
      exact ⟨more, kept⟩
  · have quote : '"' ∈ '/' :: gap := by
      rw [ends]
      simp
    rcases List.mem_cons.mp quote with slash | isGap
    · exact absurd slash (by decide)
    · exact absurd (blank _ isGap) (by decide)

/-- The parts of a tag that closes itself. -/
theorem exists_of_selfClosingStep {cs out after : List Char}
    (applies : selfClosingRule.step cs = some (out, after)) :
    ∃ inner name attributes, cs = '<' :: (inner ++ '>' :: after) ∧ '>' ∉ inner ∧
      splitSelfClosing inner = some (name, attributes) ∧
      out = '<' :: (name ++ attributes) ++ '>' :: ("</".toList ++ name ++ ['>']) := by
  obtain ⟨rest, begins, applies⟩ := Option.bind_eq_some_iff.mp applies
  obtain ⟨after', ends, applies⟩ := Option.bind_eq_some_iff.mp applies
  obtain ⟨⟨name, attributes⟩, split, same⟩ := Option.map_eq_some_iff.mp applies
  cases same
  have parted : rest = rest.takeWhile (· != '>') ++ '>' :: after := by
    have whole := List.takeWhile_append_dropWhile (p := (· != '>')) (l := rest)
    rw [afterPrefix?_eq_some_iff.mp ends] at whole
    exact whole.symm
  refine ⟨rest.takeWhile (· != '>'), name, attributes, ?_, fun isIn => ?_, split, by simp⟩
  · rw [← parted]
    exact afterPrefix?_eq_some_iff.mp begins
  · exact absurd (List.all_eq_true.mp List.all_takeWhile '>' isIn) (by decide)

variable (rule : Rule) in
/-- A rule that applies somewhere applies somewhere first. -/
theorem exists_first (cs : List Char) :
    rule.Idle cs ∨ ∃ before rest out after, cs = before ++ rest ∧
      rule.step rest = some (out, after) ∧
      rule.replaceAll cs = before ++ (out ++ rule.replaceAll after) := by
  induction cs with
  | nil => exact .inl Rule.idle_nil
  | cons c cs ih =>
    cases applies : rule.step (c :: cs) with
    | some result =>
      exact .inr ⟨[], c :: cs, result.1, result.2, rfl, applies, Rule.replaceAll_of_step applies⟩
    | none =>
      rcases ih with idle | ⟨before, rest, out, after, parted, applies', written⟩
      · exact .inl (Rule.idle_cons_iff.mpr ⟨applies, idle⟩)
      · refine .inr ⟨c :: before, rest, out, after, by rw [parted]; rfl, applies', ?_⟩
        rw [Rule.replaceAll_cons_of_none applies, written]
        rfl

/-- No tag closes itself, or there is a first one. -/
theorem exists_first_tag (cs : List Char) :
    selfClosingRule.Idle cs ∨ ∃ before inner name attributes after rest,
      cs = before ++ '<' :: (inner ++ '>' :: after) ∧ '>' ∉ inner ∧
        splitSelfClosing inner = some (name, attributes) ∧
        selfClosingRule.replaceAll cs = before ++ '<' :: (name ++ attributes) ++ '>' :: rest := by
  rcases exists_first selfClosingRule cs with
    idle | ⟨before, rest, out, after, parted, applies, written⟩
  · exact .inl idle
  · obtain ⟨inner, name, attributes, rfl, noEnd, split, rfl⟩ := exists_of_selfClosingStep applies
    refine .inr ⟨before, inner, name, attributes, after,
      "</".toList ++ name ++ ['>'] ++ selfClosingRule.replaceAll after, parted, noEnd, split, ?_⟩
    rw [written]
    simp only [List.append_assoc, List.cons_append]

/-- Before a quote, some tag closes itself, or what stands there becomes no longer. -/
theorem selfClosing_before_quote (front back : List Char) :
    (∃ before inner name attributes behind rest, front = before ++ '<' :: (inner ++ '>' :: behind) ∧
        '>' ∉ inner ∧ splitSelfClosing inner = some (name, attributes) ∧
        selfClosingRule.replaceAll (front ++ '"' :: back) =
          before ++ '<' :: (name ++ attributes) ++ '>' :: rest) ∨
      ∃ front' back', selfClosingRule.replaceAll (front ++ '"' :: back) = front' ++ '"' :: back' ∧
        front'.length ≤ front.length ∧ front.count '"' ≤ front'.count '"' := by
  rcases exists_first_tag (front ++ '"' :: back) with
    idle | ⟨before, inner, name, attributes, after, rest, parted, noEnd, split, written⟩
  · exact .inr ⟨front, back, Rule.replaceAll_of_idle idle, Nat.le_refl _, Nat.le_refl _⟩
  · rw [written]
    rcases List.append_eq_append_iff.mp parted with ⟨more, rfl, behind⟩ | ⟨more, rfl, behind⟩
    · -- The tag stands behind the quote.
      cases more with
      | nil => cases behind
      | cons c more =>
        cases behind
        refine .inr ⟨front, more ++ '<' :: (name ++ attributes) ++ '>' :: rest, ?_, Nat.le_refl _,
          Nat.le_refl _⟩
        simp only [List.append_assoc, List.cons_append]
    · cases more with
      | nil => cases behind
      | cons c more =>
        rw [List.cons_append, List.cons.injEq] at behind
        obtain ⟨rfl, behind⟩ := behind
        rcases List.append_eq_append_iff.mp behind with ⟨tail, rfl, ends⟩ | ⟨tail, rfl, ends⟩
        · -- The tag ends before the quote.
          cases tail with
          | nil => cases ends
          | cons d tail =>
            cases ends
            exact .inl ⟨before, inner, name, attributes, tail, rest, rfl, noEnd, split, rfl⟩
        · -- The quote stands within the tag.
          cases tail with
          | nil => cases ends
          | cons d tail =>
            cases ends
            obtain ⟨more', kept⟩ := exists_of_splitSelfClosing_quote split
            refine .inr ⟨before ++ '<' :: trimStart more, more' ++ '>' :: rest, ?_, ?_, ?_⟩
            · rw [kept]
              simp only [List.append_assoc, List.cons_append]
            · have shorter := length_dropWhile_le isBlank more
              simp only [List.length_append, List.length_cons, trimStart]
              omega
            · refine Nat.le_of_eq ?_
              rw [List.count_append, List.count_append, List.count_cons_of_ne (by decide),
                List.count_cons_of_ne (by decide), count_trimStart (by decide)]

/-! ## Whole texts -/

theorem stopsAt_literal {first c : Char} {more replacement : List Char} (noMark : c ∉ first :: more)
    (short : replacement.length ≤ more.length) :
    StopsAt (Rule.literal first more replacement) c := by
  intro cs out rest applies
  obtain ⟨rest', begins, same⟩ := Option.map_eq_some_iff.mp applies
  cases same
  exact ⟨first :: more, afterPrefix?_eq_some_iff.mp begins, noMark, Nat.le_succ_of_le short⟩

theorem exists_of_numberStep {cs out rest : List Char}
    (applies : numberRule.step cs = some (out, rest)) :
    ∃ digits, (∀ c ∈ digits, isNumberChar c = true) ∧
      cs = "=\x7b".toList ++ digits ++ "\x7d".toList ++ rest ∧
      out = "=\"".toList ++ digits ++ "\"".toList := by
  obtain ⟨inner, begins, applies⟩ := Option.bind_eq_some_iff.mp applies
  obtain ⟨after, ends, same⟩ := Option.map_eq_some_iff.mp applies
  cases same
  have whole := List.takeWhile_append_dropWhile (p := isNumberChar) (l := inner)
  rw [afterPrefix?_eq_some_iff.mp ends] at whole
  refine ⟨inner.takeWhile isNumberChar, List.all_eq_true.mp List.all_takeWhile, ?_, rfl⟩
  rw [afterPrefix?_eq_some_iff.mp begins, List.append_assoc, List.append_assoc]
  exact congrArg _ whole.symm

theorem stopsAt_number {c : Char} (noMark : isNumberChar c = false ∧ c ∉ "=\x7b\x7d".toList) :
    StopsAt numberRule c := by
  intro cs out rest applies
  obtain ⟨digits, run, whole, rfl⟩ := exists_of_numberStep applies
  refine ⟨"=\x7b".toList ++ digits ++ "\x7d".toList, whole, fun isIn => ?_, by simp⟩
  rw [List.mem_append, List.mem_append] at isIn
  rcases isIn with (isIn | isIn) | isIn
  · exact noMark.2 (List.mem_append_left "\x7d".toList isIn)
  · rw [run c isIn] at noMark
    cases noMark.1
  · exact noMark.2 (List.mem_append_right "=\x7b".toList isIn)

/-- The rules for values, which come after those for tags. -/
def replaceValues (cs : List Char) : List Char :=
  numberRule.replaceAll (falseRule.replaceAll (trueRule.replaceAll cs))

/-- No rule for values makes up for a mark that comes too early. -/
theorem replaceValues_ne {c : Char} (mark : c = '>' ∨ c = '"') {front back first rest : List Char}
    (early : front.length < first.length) (many : first.count c ≤ front.count c) :
    replaceValues (front ++ c :: back) ≠ first ++ rest := by
  have noMark : c ∉ '=' :: "\x7btrue\x7d".toList ∧ c ∉ '=' :: "\x7bfalse\x7d".toList ∧
      isNumberChar c = false ∧ c ∉ "=\x7b\x7d".toList := by
    rcases mark with rfl | rfl <;> decide
  have yes : StopsAt trueRule c := stopsAt_literal noMark.1 (by decide)
  have no : StopsAt falseRule c := stopsAt_literal noMark.2.1 (by decide)
  obtain ⟨front₁, back₁, written₁, le₁, many₁⟩ := exists_replaceAll_mark yes front back
  obtain ⟨front₂, back₂, written₂, le₂, many₂⟩ := exists_replaceAll_mark no front₁ back₁
  obtain ⟨front₃, back₃, written₃, le₃, many₃⟩ :=
    exists_replaceAll_mark (stopsAt_number noMark.2.2) front₂ back₂
  rw [replaceValues, written₁, written₂, written₃]
  exact append_cons_ne (by omega) (by omega)

/-- A tag that closes itself loses its slash for good. -/
theorem replaceValues_tag_ne {cs before inner name attributes behind rest : List Char}
    (classed : classNameRule.replaceAll cs = before ++ '<' :: (inner ++ '>' :: behind))
    (noEnd : '>' ∉ inner) (split : splitSelfClosing inner = some (name, attributes)) :
    replaceValues (before ++ '<' :: (name ++ attributes) ++ '>' :: rest) ≠ cs := by
  obtain ⟨gap, whole, -⟩ := trimStart_of_splitSelfClosing split
  have shorter : (name ++ attributes).length < inner.length := by
    have le := length_dropWhile_le isBlank inner
    rw [show inner.dropWhile isBlank = _ from whole, List.length_append, List.length_cons] at le
    omega
  have parted : classNameRule.replaceAll cs = (before ++ '<' :: inner) ++ '>' :: behind := by
    rw [classed, List.append_assoc, List.cons_append]
  obtain ⟨front, back, rfl, le, few⟩ := exists_of_literal_mark (c := '>') (m := '>') (by decide)
    (by decide) (by decide) parted
  refine replaceValues_ne (.inl rfl) ?_ ?_
  · rw [List.length_append, List.length_cons] at le ⊢
    omega
  · rw [List.count_append, List.count_cons_of_ne (by decide),
      List.count_eq_zero_of_not_mem noEnd] at few
    rw [List.count_append]
    omega

/-- A style object loses its brace for good. -/
theorem replaceValues_style_ne {cs front front' back back' : List Char}
    (classed : classNameRule.replaceAll cs = front ++ '\x7b' :: back)
    (short : front'.length ≤ front.length) (many : front.count '"' ≤ front'.count '"') :
    replaceValues (front' ++ '"' :: back') ≠ cs := by
  obtain ⟨first, rest, rfl, le, few⟩ := exists_of_literal_mark (c := '"') (m := '\x7b') (by decide)
    (by decide) (by decide) classed
  have parted : first ++ '\x7b' :: rest = (first ++ ['\x7b']) ++ rest := by simp
  rw [parted]
  refine replaceValues_ne (.inr rfl) ?_ ?_
  · rw [List.length_append, List.length_singleton]
    omega
  · rw [List.count_append, List.count_singleton, if_neg (by decide)]
    omega

/-- Nothing in a text is what the rules look for. Style objects may stand in it if one of them
cannot be read. -/
structure LeftAlone (markup : String) : Prop where
  className : classNameRule.Idle markup.toList
  styles : HasNoStyleObject markup.toList ∨ ∃ e, inlineStyles markup = .error e
  tags : selfClosingRule.Idle markup.toList
  yes : trueRule.Idle markup.toList
  no : falseRule.Idle markup.toList
  numbers : numberRule.Idle markup.toList

theorem inlineStylesOrKeep_of_leftAlone {markup : String} (alone : LeftAlone markup) :
    inlineStylesOrKeep markup = markup := by
  rcases alone.styles with plain | ⟨e, fails⟩
  · exact inlineStylesOrKeep_of_noStyleObject plain
  · rw [inlineStylesOrKeep, fails]

theorem normalizeAttributes_eq (markup : String) :
    normalizeAttributes markup = String.ofList (replaceValues (selfClosingRule.replaceAll
      (inlineStylesOrKeep (String.ofList (classNameRule.replaceAll markup.toList))).toList)) := rfl

/-- If a text comes out as it went in, no style object has been converted. -/
theorem styles_of_replaceValues_eq {cs : List Char}
    (same : replaceValues (selfClosingRule.replaceAll
      (inlineStylesOrKeep (String.ofList (classNameRule.replaceAll cs))).toList) = cs) :
    (inlineStylesOrKeep (String.ofList (classNameRule.replaceAll cs))).toList =
        classNameRule.replaceAll cs ∧
      (HasNoStyleObject (classNameRule.replaceAll cs) ∨
        ∃ e, inlineStyles (String.ofList (classNameRule.replaceAll cs)) = .error e) := by
  cases converts : inlineStyles (String.ofList (classNameRule.replaceAll cs)) with
  | error e =>
    rw [inlineStylesOrKeep, converts]
    exact ⟨String.toList_ofList, .inr ⟨e, rfl⟩⟩
  | ok converted =>
    rw [inlineStylesOrKeep, converts] at same ⊢
    dsimp only at same ⊢
    rw [inlineStyles, String.toList_ofList] at converts
    cases result : inlineStylesFrom (String.ofList (classNameRule.replaceAll cs)).utf8ByteSize
        (classNameRule.replaceAll cs) with
    | error e =>
      rw [result] at converts
      cases converts
    | ok out =>
      rw [result] at converts
      cases converts
      rw [String.toList_ofList] at same ⊢
      rcases inlineStylesFrom_eq_ok result with
        ⟨plain, kept⟩ | ⟨front, rest, rest', parted, rfl⟩
      · exact ⟨kept, .inl plain⟩
      · rcases selfClosing_before_quote front rest' with
          ⟨before, inner, name, attributes, behind, more, rfl, noEnd, split, written⟩ |
            ⟨front', back', written, short, many⟩
        · rw [written] at same
          have within : classNameRule.replaceAll cs =
              before ++ '<' :: (inner ++ '>' :: (behind ++ '\x7b' :: rest)) := by
            rw [parted, List.append_assoc, List.cons_append, List.append_assoc, List.cons_append]
          exact absurd same (replaceValues_tag_ne within noEnd split)
        · rw [written] at same
          exact absurd same (replaceValues_style_ne parted short many)

/-- Two quotes stand for two braces. -/
theorem weight_of_numberStep (w : Char → Int) {cs out rest : List Char}
    (applies : numberRule.step cs = some (out, rest)) :
    Rule.weight w out + Rule.weight w rest + w '\x7b' + w '\x7d' =
      Rule.weight w cs + w '"' + w '"' := by
  obtain ⟨digits, -, rfl, rfl⟩ := exists_of_numberStep applies
  simp only [Rule.weight_append, Rule.weight, String.reduceToList]
  omega

theorem numberRule_loses : numberRule.Loses fun c => if c = '\x7b' then 1 else 0 := by
  intro cs out rest applies
  have weights := weight_of_numberStep (fun c => if c = '\x7b' then 1 else 0) applies
  simp only [if_true, Char.reduceEq, if_false] at weights
  omega

theorem numberRule_noGain : numberRule.NoGain fun _ => 1 := by
  intro cs out rest applies
  have weights := weight_of_numberStep (fun _ => 1) applies
  omega

/-- Without tags and styles, no rule makes up for the length that another one takes. -/
theorem idle_of_replaceValues_eq {cs : List Char}
    (same : replaceValues (classNameRule.replaceAll cs) = cs) :
    classNameRule.Idle cs ∧ trueRule.Idle cs ∧ falseRule.Idle cs ∧ numberRule.Idle cs := by
  have classLoses : classNameRule.Loses fun _ => 1 := literal_loses (by decide)
  have trueLoses : trueRule.Loses fun _ => 1 := literal_loses (by decide)
  have falseLoses : falseRule.Loses fun _ => 1 := literal_loses (by decide)
  have le₁ := Rule.weight_replaceAll_le classLoses.noGain cs
  have le₂ := Rule.weight_replaceAll_le trueLoses.noGain (classNameRule.replaceAll cs)
  have le₃ := Rule.weight_replaceAll_le falseLoses.noGain
    (trueRule.replaceAll (classNameRule.replaceAll cs))
  have le₄ := Rule.weight_replaceAll_le numberRule_noGain
    (falseRule.replaceAll (trueRule.replaceAll (classNameRule.replaceAll cs)))
  rw [show numberRule.replaceAll _ = cs from same] at le₄
  have className : classNameRule.Idle cs := Rule.idle_of_weight classLoses (by omega)
  rw [Rule.replaceAll_of_idle className] at same le₂ le₃ le₄
  have yes : trueRule.Idle cs := Rule.idle_of_weight trueLoses (by omega)
  rw [replaceValues, Rule.replaceAll_of_idle yes] at same
  rw [Rule.replaceAll_of_idle yes] at le₃ le₄
  have no : falseRule.Idle cs := Rule.idle_of_weight falseLoses (by omega)
  rw [Rule.replaceAll_of_idle no] at same
  exact ⟨className, yes, no, Rule.idle_of_weight numberRule_loses (congrArg _ same)⟩

/-- Turning the attributes of a text into HTML leaves the text alone exactly if nothing in it is
what the rules look for. -/
theorem normalizeAttributes_eq_self_iff (markup : String) :
    normalizeAttributes markup = markup ↔ LeftAlone markup := by
  constructor
  · intro same
    have same : replaceValues (selfClosingRule.replaceAll (inlineStylesOrKeep
        (String.ofList (classNameRule.replaceAll markup.toList))).toList) = markup.toList := by
      rw [normalizeAttributes_eq] at same
      rw [← String.toList_inj, String.toList_ofList] at same
      exact same
    obtain ⟨kept, styles⟩ := styles_of_replaceValues_eq same
    rw [kept] at same
    have tags : selfClosingRule.Idle (classNameRule.replaceAll markup.toList) := by
      rcases exists_first_tag (classNameRule.replaceAll markup.toList) with
        idle | ⟨before, inner, name, attributes, behind, rest, parted, noEnd, split, written⟩
      · exact idle
      · rw [written] at same
        exact absurd same (replaceValues_tag_ne parted noEnd split)
    rw [Rule.replaceAll_of_idle tags] at same
    obtain ⟨className, yes, no, numbers⟩ := idle_of_replaceValues_eq same
    rw [Rule.replaceAll_of_idle className] at styles tags
    rw [String.ofList_toList] at styles
    exact { className, styles, tags, yes, no, numbers }
  · intro alone
    have classed := Rule.replaceAll_of_idle alone.className
    rw [normalizeAttributes_eq, classed, String.ofList_toList,
      inlineStylesOrKeep_of_leftAlone alone, Rule.replaceAll_of_idle alone.tags, replaceValues,
      Rule.replaceAll_of_idle alone.yes, Rule.replaceAll_of_idle alone.no,
      Rule.replaceAll_of_idle alone.numbers, String.ofList_toList]

end SnapshotPreview.Markup

import SnapshotPreview.Text.Rule

/-!
# Where rules apply

A rule that needs a pattern leaves alone what the pattern does not occur in, unless the pattern
reaches into the text behind it.
-/

namespace SnapshotPreview.Text

/-- A pattern that is not in a text does not begin there, if it cannot go on into the text behind. -/
theorem not_prefix_of_cut {first : Char} {more cs after : List Char}
    (absent : ¬ (first :: more) <:+: cs) (cut : ∀ c, after.head? = some c → c ∉ more)
    {before rest : List Char} {c : Char} (parted : cs = before ++ c :: rest) :
    ¬ (first :: more) <+: c :: rest ++ after := by
  intro begins
  rcases List.prefix_or_prefix_of_prefix begins
    (List.prefix_append (c :: rest) after) with within | beyond
  · -- The pattern would stand in the text.
    obtain ⟨behind, ends⟩ := within
    exact absent ⟨before, behind, by rw [parted, ← ends, List.append_assoc]⟩
  · -- The pattern would go on into the text behind.
    obtain ⟨missing, pattern⟩ := beyond
    rw [← pattern] at begins
    obtain ⟨behind, whole⟩ := begins
    rw [List.append_assoc, List.append_cancel_left_eq] at whole
    cases missing with
    | nil =>
      rw [List.append_nil] at pattern
      exact absent ⟨before, [], by rw [parted, pattern, List.append_nil]⟩
    | cons d missing =>
      refine cut d (by rw [← whole]; rfl) ?_
      rw [List.cons_append, List.cons.injEq] at pattern
      rw [← pattern.2]
      simp

/-- What ends before a mark is a part of what stands before it. -/
theorem exists_of_append_cons {c : Char} {front back used rest : List Char}
    (same : front ++ c :: back = used ++ rest) (noMark : c ∉ used) :
    ∃ more, front = used ++ more ∧ rest = more ++ c :: back := by
  rcases List.append_eq_append_iff.mp same with ⟨more, whole, behind⟩ | ⟨more, whole, behind⟩
  · cases more with
    | nil => exact ⟨[], by simp [whole], by simpa using behind.symm⟩
    | cons d more =>
      cases behind
      rw [whole] at noMark
      exact absurd (by simp) noMark
  · exact ⟨more, whole, behind⟩

theorem append_cons_inj {c : Char} {front back front' back' : List Char}
    (same : front ++ c :: back = front' ++ c :: back') (noMark : c ∉ front) (noMark' : c ∉ front') :
    front = front' ∧ back = back' := by
  obtain ⟨more, rfl, behind⟩ := exists_of_append_cons same noMark'
  cases more with
  | nil =>
    cases behind
    exact ⟨List.append_nil front', rfl⟩
  | cons d more =>
    cases behind
    exact absurd (by simp) noMark

theorem suffix_of_append_cons {c : Char} {pattern front back : List Char} (noMark : c ∉ pattern)
    (ends : pattern <:+ front ++ c :: back) : pattern <:+ back := by
  rcases List.suffix_or_suffix_of_suffix ends (List.suffix_append front (c :: back)) with
    within | beyond
  · rcases List.suffix_cons_iff.mp within with whole | within
    · rw [whole] at noMark
      exact absurd List.mem_cons_self noMark
    · exact within
  · exact absurd (beyond.subset List.mem_cons_self) noMark

/-- A pattern without a mark stands before it or behind it. -/
theorem infix_of_append_cons {c : Char} {pattern front back : List Char} (noMark : c ∉ pattern)
    (within : pattern <:+: front ++ c :: back) : pattern <:+: front ∨ pattern <:+: back := by
  obtain ⟨before, behind, parted⟩ := within
  rcases List.append_eq_append_iff.mp parted with ⟨more, rfl, -⟩ | ⟨more, front_eq, rest⟩
  · exact .inl ⟨before, more, rfl⟩
  · cases more with
    | nil => exact .inl ⟨before, [], by rw [List.append_nil, front_eq, List.append_nil]⟩
    | cons d more =>
      obtain ⟨rfl, rfl⟩ := List.cons.inj rest
      have ends : pattern <:+ front ++ c :: more := ⟨before, front_eq⟩
      exact .inr ((suffix_of_append_cons noMark ends).isInfix.trans
        (List.prefix_append more behind).isInfix)

namespace Rule

variable (rule : Rule)

theorem step_nil : rule.step [] = none := by
  cases applies : rule.step [] with
  | none => rfl
  | some result => exact absurd (rule.shorter applies) (Nat.not_lt_zero _)

@[simp] theorem replaceAll_nil : rule.replaceAll [] = [] := by
  rw [replaceAll]
  split
  · rename_i applies
    rw [step_nil] at applies
    cases applies
  · rfl

variable {rule}

theorem replaceAll_of_step {cs out rest : List Char} (applies : rule.step cs = some (out, rest)) :
    rule.replaceAll cs = out ++ rule.replaceAll rest := by
  rw [replaceAll]
  split
  · rename_i applies'
    rw [applies] at applies'
    cases applies'
    rfl
  · rename_i idle
    rw [applies] at idle
    cases idle

theorem replaceAll_cons_of_none {c : Char} {cs : List Char} (idle : rule.step (c :: cs) = none) :
    rule.replaceAll (c :: cs) = c :: rule.replaceAll cs := by
  rw [replaceAll]
  split
  · rename_i applies
    rw [idle] at applies
    cases applies
  · rfl

/-- A rule that applies at no character of a text leaves it alone. -/
theorem replaceAll_append_of_idle {cs : List Char} (after : List Char)
    (idle : ∀ before c rest, cs = before ++ c :: rest → rule.step (c :: rest ++ after) = none) :
    rule.replaceAll (cs ++ after) = cs ++ rule.replaceAll after := by
  induction cs with
  | nil => rfl
  | cons c cs ih =>
    have here : rule.step (c :: (cs ++ after)) = none := idle [] c cs rfl
    rw [List.cons_append, replaceAll_cons_of_none here,
      ih fun before d rest parted => idle (c :: before) d rest (by rw [parted]; rfl)]
    rfl

variable (rule) in
/-- The rule applies only where a pattern stands. -/
def Needs (pattern : List Char) : Prop := ∀ cs, (rule.step cs).isSome → pattern <+: cs

section
variable {first : Char} {more : List Char} (needs : rule.Needs (first :: more)) {cs : List Char}
include needs

theorem replaceAll_append_of_not_mem (absent : first ∉ cs) (after : List Char) :
    rule.replaceAll (cs ++ after) = cs ++ rule.replaceAll after := by
  refine replaceAll_append_of_idle after fun before c rest parted => ?_
  rw [Option.eq_none_iff_forall_ne_some]
  intro result applies
  obtain ⟨behind, begins⟩ := needs _ (by rw [applies]; rfl)
  rw [List.cons_append, List.cons_append, List.cons.injEq] at begins
  rw [parted, ← begins.1] at absent
  exact absent (by simp)

theorem replaceAll_cons_of_ne {c : Char} (other : first ≠ c) (after : List Char) :
    rule.replaceAll (c :: after) = c :: rule.replaceAll after :=
  replaceAll_append_of_not_mem needs (fun isIn => other (List.mem_singleton.mp isIn)) after

theorem replaceAll_append_of_cut (absent : ¬ (first :: more) <:+: cs) {after : List Char}
    (cut : ∀ c, after.head? = some c → c ∉ more) :
    rule.replaceAll (cs ++ after) = cs ++ rule.replaceAll after := by
  refine replaceAll_append_of_idle after fun before c rest parted => ?_
  rw [Option.eq_none_iff_forall_ne_some]
  intro result applies
  exact not_prefix_of_cut absent cut parted (needs _ (by rw [applies]; rfl))

end

/-! ## Rules that change a part of a text -/

variable (rule) in
/-- A text becomes another one, whatever stands behind it. -/
def Sends (cs cs' : List Char) : Prop :=
  ∀ after, rule.replaceAll (cs ++ after) = cs' ++ rule.replaceAll after

theorem sends_nil : rule.Sends [] [] := fun _ => rfl

theorem Sends.append {cs cs' ds ds' : List Char} (first : rule.Sends cs cs')
    (second : rule.Sends ds ds') : rule.Sends (cs ++ ds) (cs' ++ ds') := by
  intro after
  rw [List.append_assoc, first, second, List.append_assoc]

theorem sends_of_step {cs out rest rest' : List Char}
    (applies : ∀ after, rule.step (cs ++ after) = some (out, rest ++ after))
    (later : rule.Sends rest rest') : rule.Sends cs (out ++ rest') := by
  intro after
  rw [replaceAll_of_step (applies after), later, List.append_assoc]

theorem sends_cons {c : Char} {cs cs' : List Char}
    (idle : ∀ after, rule.step (c :: (cs ++ after)) = none) (later : rule.Sends cs cs') :
    rule.Sends (c :: cs) (c :: cs') := by
  intro after
  rw [List.cons_append, replaceAll_cons_of_none (idle after), later, List.cons_append]

/-- A rule that applies neither at a mark nor at a character before it leaves all of them alone. -/
theorem sends_of_mark {cs : List Char} {d : Char} (here : ∀ after, rule.step (d :: after) = none)
    (idle : ∀ c rest, c :: rest <:+ cs → ∀ after, rule.step (c :: rest ++ d :: after) = none) :
    rule.Sends (cs ++ [d]) (cs ++ [d]) := by
  intro after
  have before : rule.replaceAll (cs ++ d :: after) = cs ++ rule.replaceAll (d :: after) :=
    replaceAll_append_of_idle (d :: after) fun before c rest parted =>
      idle c rest ⟨before, parted.symm⟩ after
  rw [List.append_assoc, List.singleton_append, before, replaceAll_cons_of_none (here after)]
  simp

section
variable {first : Char} {more : List Char} (needs : rule.Needs (first :: more)) {cs : List Char}
include needs

theorem sends_of_not_mem (absent : first ∉ cs) : rule.Sends cs cs :=
  replaceAll_append_of_not_mem needs absent

theorem step_cons_of_ne {c : Char} (other : c ≠ first) (cs : List Char) :
    rule.step (c :: cs) = none := by
  refine Option.eq_none_iff_forall_ne_some.mpr fun result applies => ?_
  obtain ⟨rest, begins⟩ := needs (c :: cs) (by rw [applies]; rfl)
  exact other (List.cons.inj begins).1.symm

theorem sends_of_not_infix {d : Char} (noMark : d ∉ first :: more)
    (absent : ¬ (first :: more) <:+: cs) : rule.Sends (cs ++ [d]) (cs ++ [d]) := by
  rw [List.mem_cons, not_or] at noMark
  refine sends_of_mark (step_cons_of_ne needs noMark.1) fun c rest within after => ?_
  refine Option.eq_none_iff_forall_ne_some.mpr fun result applies => ?_
  obtain ⟨before, parted⟩ := within
  have begins : first :: more <+: c :: rest ++ d :: after := needs _ (by rw [applies]; rfl)
  refine not_prefix_of_cut absent ?_ parted.symm begins
  intro e same
  cases same
  exact noMark.2

/-- A text before a mark is left alone if the pattern ends with the mark and the text does not end
with what stands before it there. -/
theorem sends_of_not_suffix (opening : List Char) {d : Char} (ends : first :: more = opening ++ [d])
    (noMark : d ∉ opening) (nonempty : opening ≠ []) (closed : ¬ opening <:+ cs) (absent : d ∉ cs) :
    rule.Sends (cs ++ [d]) (cs ++ [d]) := by
  have isIn : first ∈ opening := by
    cases opening with
    | nil => exact absurd rfl nonempty
    | cons e opening =>
      rw [(List.cons.inj ends).1]
      exact List.mem_cons_self
  have other : d ≠ first := fun same => noMark (same ▸ isIn)
  refine sends_of_mark (step_cons_of_ne needs other) fun c rest within after => ?_
  refine Option.eq_none_iff_forall_ne_some.mpr fun result applies => ?_
  obtain ⟨behind, begins⟩ := needs (c :: rest ++ d :: after) (by rw [applies]; rfl)
  rw [ends, List.append_assoc, List.singleton_append] at begins
  have outside : d ∉ c :: rest := fun isIn => absent (within.subset isIn)
  obtain ⟨same, -⟩ := append_cons_inj begins noMark outside
  exact closed (same ▸ within)

theorem replaceAll_of_not_infix (absent : ¬ (first :: more) <:+: cs) : rule.replaceAll cs = cs := by
  have whole : rule.replaceAll (cs ++ []) = cs ++ rule.replaceAll [] :=
    replaceAll_append_of_cut needs absent nofun
  rwa [List.append_nil, replaceAll_nil, List.append_nil] at whole

end

/-! ## Rules that change a text -/

/-- The sum of the weights of all characters. -/
def weight (w : Char → Int) : List Char → Int
  | [] => 0
  | c :: cs => w c + weight w cs

@[simp] theorem weight_append (w : Char → Int) (first second : List Char) :
    weight w (first ++ second) = weight w first + weight w second := by
  induction first with
  | nil => simp [weight]
  | cons c cs ih => simp [weight, ih, Int.add_assoc]

theorem weight_one (cs : List Char) : weight (fun _ => 1) cs = cs.length := by
  induction cs with
  | nil => rfl
  | cons c cs ih =>
    rw [weight, ih, List.length_cons]
    omega

variable (rule) in
/-- Where the rule applies, no weight is won. -/
def NoGain (w : Char → Int) : Prop :=
  ∀ cs out rest, rule.step cs = some (out, rest) → weight w out + weight w rest ≤ weight w cs

variable (rule) in
/-- Where the rule applies, weight is lost. -/
def Loses (w : Char → Int) : Prop :=
  ∀ cs out rest, rule.step cs = some (out, rest) → weight w out + weight w rest < weight w cs

theorem Loses.noGain {w : Char → Int} (loses : rule.Loses w) : rule.NoGain w :=
  fun cs out rest applies => Int.le_of_lt (loses cs out rest applies)

theorem weight_replaceAll_le {w : Char → Int} (noGain : rule.NoGain w) (cs : List Char) :
    weight w (rule.replaceAll cs) ≤ weight w cs := by
  fun_induction rule.replaceAll cs with
  | case1 cs out rest applies ih =>
    rw [weight_append]
    have := noGain _ _ _ applies
    omega
  | case2 idle => exact Int.le_refl _
  | case3 c rest idle ih =>
    have ih : weight w (rule.replaceAll rest) ≤ weight w rest := ih
    rw [weight, weight]
    omega

theorem step_eq_none_of_weight {w : Char → Int} (loses : rule.Loses w) {cs : List Char}
    (same : weight w (rule.replaceAll cs) = weight w cs) : rule.step cs = none := by
  cases applies : rule.step cs with
  | none => rfl
  | some result =>
    have lost := loses _ _ _ applies
    have noGain := weight_replaceAll_le loses.noGain result.2
    rw [replaceAll_of_step applies, weight_append] at same
    omega

variable (rule) in
/-- The rule applies nowhere in a text. -/
def Idle (cs : List Char) : Prop := ∀ before rest, cs = before ++ rest → rule.step rest = none

theorem idle_cons_iff {c : Char} {cs : List Char} :
    rule.Idle (c :: cs) ↔ rule.step (c :: cs) = none ∧ rule.Idle cs := by
  constructor
  · intro idle
    exact ⟨idle [] _ rfl, fun before rest parted => idle (c :: before) rest (by rw [parted]; rfl)⟩
  · rintro ⟨here, later⟩ before rest parted
    cases before with
    | nil =>
      obtain rfl : c :: cs = rest := parted
      exact here
    | cons d before => exact later before rest (List.cons.inj parted).2

theorem idle_nil : rule.Idle [] := by
  intro before rest parted
  obtain ⟨-, rfl⟩ := List.nil_eq_append_iff.mp parted
  exact rule.step_nil

/-- Whether a rule applies somewhere can be found out character by character. -/
instance decidableIdle : (cs : List Char) → Decidable (rule.Idle cs)
  | [] => isTrue idle_nil
  | c :: cs =>
    haveI := decidableIdle cs
    decidable_of_iff (rule.step (c :: cs) = none ∧ rule.Idle cs) idle_cons_iff.symm

/-- If no weight is lost, the rule applies nowhere: what is lost cannot be won back. -/
theorem idle_of_weight {w : Char → Int} (loses : rule.Loses w) {cs : List Char}
    (same : weight w (rule.replaceAll cs) = weight w cs) : rule.Idle cs := by
  rintro before rest rfl
  induction before with
  | nil => exact step_eq_none_of_weight loses same
  | cons c before ih =>
    rw [List.cons_append] at same
    rw [replaceAll_cons_of_none (step_eq_none_of_weight loses same), weight, weight] at same
    exact ih (by omega)

theorem replaceAll_of_idle {cs : List Char} (idle : rule.Idle cs) : rule.replaceAll cs = cs := by
  have nowhere : ∀ before c rest, cs = before ++ c :: rest →
      rule.step (c :: rest ++ []) = none := by
    intro before c rest parted
    rw [List.append_nil]
    exact idle before (c :: rest) parted
  have whole := replaceAll_append_of_idle [] nowhere
  rwa [List.append_nil, replaceAll_nil, List.append_nil] at whole

end Rule

theorem literal_needs (first : Char) (more replacement : List Char) :
    (Rule.literal first more replacement).Needs (first :: more) := by
  intro cs applies
  obtain ⟨result, applies⟩ := Option.isSome_iff_exists.mp applies
  obtain ⟨rest, found, -⟩ := Option.map_eq_some_iff.mp applies
  rw [afterPrefix?_eq_some_iff.mp found]
  exact List.prefix_append _ _

theorem literal_step (first : Char) (more replacement after : List Char) :
    (Rule.literal first more replacement).step (first :: more ++ after) =
      some (replacement, after) := by
  have found : afterPrefix? (first :: more) (first :: more ++ after) = some after :=
    afterPrefix?_eq_some_iff.mpr rfl
  exact congrArg (Option.map fun rest => (replacement, rest)) found

theorem literal_replaceAll (first : Char) (more replacement after : List Char) :
    (Rule.literal first more replacement).replaceAll (first :: more ++ after) =
      replacement ++ (Rule.literal first more replacement).replaceAll after :=
  Rule.replaceAll_of_step (literal_step first more replacement after)

/-- A text for a longer one loses length. -/
theorem literal_loses {first : Char} {more replacement : List Char}
    (shorter : replacement.length ≤ more.length) :
    (Rule.literal first more replacement).Loses fun _ => 1 := by
  intro cs out rest applies
  obtain ⟨rest', begins, same⟩ := Option.map_eq_some_iff.mp applies
  cases same
  rw [afterPrefix?_eq_some_iff.mp begins, Rule.weight_append, Rule.weight_one,
    Rule.weight_one, Rule.weight_one, List.length_cons]
  omega

end SnapshotPreview.Text

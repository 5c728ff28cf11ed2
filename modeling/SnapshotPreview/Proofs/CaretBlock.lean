import SnapshotPreview.Proofs.CaretInTest

/-!
# The block that a caret is in

The block around a caret is looked for in two steps: ahead for its closing brace, and from there back
for its opening one. Seen from the opening brace it is an ordinary pair of braces, the one that the
first closing brace from the caret on belongs to (`contextStart_eq_some_iff_opens`). So the caret
matters only up to that brace: all carets between two closing braces are in the same block and get
the same location (`contextStart_of_closing_brace`).
-/

namespace SnapshotPreview.Locator

/-! ## Braces -/

/-- The first closing brace from the caret on, or from the end of the text on if the caret is past
it. -/
structure IsFirstClosing (text : Array UInt8) (caret close : Nat) : Prop where
  fromCaret : min caret text.size ≤ close
  closes : text[close]? = some (Text.byte '\x7d')
  first : ∀ x, min caret text.size ≤ x → x < close → text[x]? ≠ some (Text.byte '\x7d')

/-- The brace at `brace` opens the block that is closed at `close`. -/
def Opens (text : Array UInt8) (brace close : Nat) : Prop :=
  text[brace]? = some (Text.byte '\x7b') ∧
    Bracket.find text (brace + 1) (Text.byte '\x7b') (Text.byte '\x7d') .forward = some close

/-- No closing brace stands between two carets. -/
def SameSide (text : Array UInt8) (caret other : Nat) : Prop :=
  ∀ x, min caret other ≤ x → x < max caret other → text[x]? ≠ some (Text.byte '\x7d')

section
variable {text : Array UInt8} {caret other close : Nat}

theorem firstFrom_closing_iff :
    firstFrom text (Text.byte '\x7d') (min caret text.size) = some close ↔
      IsFirstClosing text caret close := by
  rw [firstFrom_eq_some_iff]
  constructor
  · rintro ⟨fromCaret, closes, first⟩
    exact ⟨fromCaret, closes, first⟩
  · rintro ⟨fromCaret, closes, first⟩
    exact ⟨fromCaret, closes, first⟩

theorem IsFirstClosing.unique (here : IsFirstClosing text caret close)
    (there : IsFirstClosing text caret other) : close = other :=
  Option.some.inj ((firstFrom_closing_iff.mpr here).symm.trans (firstFrom_closing_iff.mpr there))

theorem Opens.lt {brace : Nat} (opens : Opens text brace close) : brace < close :=
  ((Bracket.find_forward_iff braces_distinct).mp opens.2).1

/-- The brace that opens a block is the one found back from the end of the block. Either scan says that
the text is as deep behind the opening brace as in front of the closing one, and nowhere in between less
deep. -/
theorem find_backward_eq_some_iff_opens {before brace : Nat}
    (closes : text[before + 1]? = some (Text.byte '\x7d')) :
    Bracket.find text before (Text.byte '\x7b') (Text.byte '\x7d') .backward = some brace ↔
      Opens text brace (before + 1) := by
  have falls := Bracket.depth_succ_of_closing braces_distinct closes
  have inside := (Array.getElem?_eq_some_iff.mp closes).1
  constructor
  · intro found
    have opens := Bracket.opening_of_find_backward braces_distinct found
    have rises := Bracket.depth_succ_of_opening braces_distinct opens
    obtain ⟨le, -, lower, above⟩ := (Bracket.find_backward_iff braces_distinct).mp found
    refine ⟨opens, (Bracket.find_forward_iff braces_distinct).mpr
      ⟨by omega, inside, by omega, fun x low high => ?_⟩⟩
    by_cases last : x = before + 1
    · rw [last]
      omega
    · have := above x (by omega) (by omega)
      omega
  · rintro ⟨opens, found⟩
    have rises := Bracket.depth_succ_of_opening braces_distinct opens
    obtain ⟨le, -, lower, above⟩ := (Bracket.find_forward_iff braces_distinct).mp found
    refine (Bracket.find_backward_iff braces_distinct).mpr
      ⟨by omega, by omega, by omega, fun x low high => ?_⟩
    have := above x (by omega) (by omega)
    omega

theorem Opens.unique {brace brace' : Nat} (closes : text[close]? = some (Text.byte '\x7d'))
    (here : Opens text brace close) (there : Opens text brace' close) : brace = brace' := by
  obtain ⟨before, rfl⟩ := Nat.exists_eq_add_one.mpr (Nat.zero_lt_of_lt here.lt)
  have back := (find_backward_eq_some_iff_opens closes).mpr here
  rw [(find_backward_eq_some_iff_opens closes).mpr there] at back
  exact (Option.some.inj back).symm

/-! ## The block -/

/-- The block begins where the brace stands that belongs to the first closing one. -/
theorem contextStart_eq_some_iff_opens {start : Nat} :
    contextStart text caret = some start ↔
      ∃ close, IsFirstClosing text caret close ∧ Opens text (start + 1) close := by
  rw [contextStart_eq_some_iff]
  constructor
  · rintro ⟨before, first, block⟩
    have isFirst := firstFrom_closing_iff.mp first
    exact ⟨before + 1, isFirst, (find_backward_eq_some_iff_opens isFirst.closes).mp block⟩
  · rintro ⟨close, isFirst, opens⟩
    obtain ⟨before, rfl⟩ := Nat.exists_eq_add_one.mpr (Nat.zero_lt_of_lt opens.lt)
    exact ⟨before, firstFrom_closing_iff.mpr isFirst,
      (find_backward_eq_some_iff_opens isFirst.closes).mpr opens⟩

/-- There is no block without a closing brace, and none if nothing opens it or its opening brace
begins the text. -/
theorem contextStart_eq_none_iff :
    contextStart text caret = none ↔
      (∀ close, ¬ IsFirstClosing text caret close) ∨
        ∃ close, IsFirstClosing text caret close ∧
          ((∀ brace, ¬ Opens text brace close) ∨ Opens text 0 close) := by
  rw [Option.eq_none_iff_forall_ne_some]
  constructor
  · intro noBlock
    by_cases closed : ∃ close, IsFirstClosing text caret close
    · obtain ⟨close, isFirst⟩ := closed
      refine .inr ⟨close, isFirst, ?_⟩
      by_cases atStart : Opens text 0 close
      · exact .inr atStart
      · refine .inl fun brace opens => ?_
        cases brace with
        | zero => exact atStart opens
        | succ start =>
          exact noBlock start (contextStart_eq_some_iff_opens.mpr ⟨close, isFirst, opens⟩)
    · exact .inl fun close isFirst => closed ⟨close, isFirst⟩
  · intro lacks start block
    obtain ⟨close, isFirst, opens⟩ := contextStart_eq_some_iff_opens.mp block
    rcases lacks with unclosed | ⟨close', isFirst', lacks⟩
    · exact unclosed close isFirst
    · obtain rfl := isFirst.unique isFirst'
      rcases lacks with unopened | atStart
      · exact unopened _ opens
      · exact Nat.succ_ne_zero start (opens.unique isFirst.closes atStart)

/-! ## Carets in the same block -/

theorem SameSide.symm (sameSide : SameSide text caret other) : SameSide text other caret := by
  intro x low high
  exact sameSide x (by omega) (by omega)

theorem IsFirstClosing.of_sameSide (sameSide : SameSide text caret other)
    (isFirst : IsFirstClosing text caret close) : IsFirstClosing text other close := by
  obtain ⟨fromCaret, closes, first⟩ := isFirst
  have inside := (Array.getElem?_eq_some_iff.mp closes).1
  refine ⟨?_, closes, fun x low high => ?_⟩
  · -- Otherwise the brace would stand between the carets.
    by_contra before
    exact sameSide close (by omega) (by omega) closes
  · by_cases between : x < caret
    · exact sameSide x (by omega) (by omega)
    · exact first x (by omega) high

theorem contextStart_of_sameSide (sameSide : SameSide text caret other) :
    contextStart text caret = contextStart text other := by
  refine Option.ext fun start => ?_
  rw [contextStart_eq_some_iff_opens, contextStart_eq_some_iff_opens]
  constructor
  · rintro ⟨close, isFirst, opens⟩
    exact ⟨close, isFirst.of_sameSide sameSide, opens⟩
  · rintro ⟨close, isFirst, opens⟩
    exact ⟨close, isFirst.of_sameSide sameSide.symm, opens⟩

end

/-- The block around a caret is the one that the first closing brace from the caret on closes, and
there is none only without that brace, without a brace that opens it, or with that brace at the
start of the text. So carets that have no closing brace between them have the same block and the same
location. -/
theorem contextStart_of_closing_brace (text : Array UInt8) (caret : Nat) :
    (∀ start, contextStart text caret = some start ↔
        ∃ close, IsFirstClosing text caret close ∧ Opens text (start + 1) close) ∧
      (contextStart text caret = none ↔
        (∀ close, ¬ IsFirstClosing text caret close) ∨
          ∃ close, IsFirstClosing text caret close ∧
            ((∀ brace, ¬ Opens text brace close) ∨ Opens text 0 close)) ∧
      ∀ other, SameSide text caret other →
        contextStart text caret = contextStart text other ∧
          ∀ vocabulary, locate text vocabulary caret = locate text vocabulary other := by
  refine ⟨fun _ => contextStart_eq_some_iff_opens, contextStart_eq_none_iff, ?_⟩
  intro other sameSide
  have sameBlock := contextStart_of_sameSide sameSide
  refine ⟨sameBlock, fun vocabulary => ?_⟩
  rw [locate, locate, sameBlock]

/-- A test behind a brace that closes nothing. -/
def testBehindBrace : Array UInt8 :=
  Text.bytesOf "é \x7d it('t', () => \x7b f(\x7b a: 1 \x7d); \x7d);"

/-- A caret before the test and one in its innermost block get the same location. -/
theorem location_of_testBehindBrace :
    (∃ close, IsFirstClosing testBehindBrace 26 close ∧ Opens testBehindBrace 23 close) ∧
      ((∀ close, ¬ IsFirstClosing testBehindBrace 1 close) ∨
        ∃ close, IsFirstClosing testBehindBrace 1 close ∧
          ((∀ brace, ¬ Opens testBehindBrace brace close) ∨ Opens testBehindBrace 0 close)) ∧
      SameSide testBehindBrace 26 5 ∧
      locate testBehindBrace .builtIn 26 = locate testBehindBrace .builtIn 5 := by
  have before : ∀ x < 26, testBehindBrace[x]? = some (Text.byte '\x7d') → x < 5 := by
    decide +kernel
  have sameSide : SameSide testBehindBrace 26 5 := by
    intro x low high brace
    have := before x (by omega) brace
    omega
  obtain ⟨block, -, same⟩ := contextStart_of_closing_brace testBehindBrace 26
  obtain ⟨-, noBlock, -⟩ := contextStart_of_closing_brace testBehindBrace 1
  exact ⟨(block 22).mp (by decide +kernel), noBlock.mp (by decide +kernel), sameSide,
    (same 5 sameSide).2 .builtIn⟩

end SnapshotPreview.Locator

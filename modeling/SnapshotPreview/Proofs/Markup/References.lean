import SnapshotPreview.Markup.Assets
import SnapshotPreview.Proofs.Markup.Rules
import SnapshotPreview.Proofs.Markup.Urls

/-!
# References in markup

Markup is taken as pieces of other text, each with a reference behind it. If the closing quote of no
value is read as the opening quote of another one, every reference is turned into a file on its own,
and at most once (`relocateAssets_markup`).
-/

namespace SnapshotPreview.Markup

open Text

/-- A piece of markup and the reference behind it. -/
structure Entry where
  piece : List Char
  /-- The reference is a link, and not a source. -/
  isLink : Bool
  value : List Char

def Entry.opening (e : Entry) : List Char :=
  if e.isLink then "href=\"".toList else "src=\"".toList

def Entry.text (e : Entry) : List Char := e.piece ++ [' '] ++ (e.opening ++ (e.value ++ ['"']))

/-- Pieces with a reference behind each, and a last piece. -/
def markup (entries : List Entry) (last : List Char) : List Char :=
  entries.flatMap Entry.text ++ last

/-! ## What becomes of a reference -/

/-- A value that names a path from the root of the site or of a server. -/
def FromRoot (value path : List Char) : Prop :=
  value = '/' :: path ∨ ∃ scheme ∈ ["http://", "https://"], ∃ host, '/' ∉ host ∧
    value = scheme.toList ++ (host ++ '/' :: path)

def SourceBecomes (base : String) (value value' : List Char) : Prop :=
  (∃ path, FromRoot value path ∧ value' = fileRoot base ++ path) ∨
    (¬ ∃ path, FromRoot value path) ∧ value' = value

/-- An address that does not depend on where it stands. -/
def IsAbsolute (value : List Char) : Prop :=
  "//".toList <+: value ∨
    ∃ scheme rest, scheme ≠ [] ∧ (∀ c ∈ scheme, isSchemeChar c = true) ∧ value = scheme ++ ':' :: rest

def LinkBecomes (base : String) (value value' : List Char) : Prop :=
  IsAbsolute value ∧ value' = value ∨
    ¬ IsAbsolute value ∧ value' = fileRoot base ++ dropOne '/' value

def RootLinkBecomes (base : String) (value value' : List Char) : Prop :=
  (∃ c path, c ≠ '/' ∧ value = '/' :: c :: path ∧ value' = fileRoot base ++ c :: path) ∨
    (¬ ∃ c path, c ≠ '/' ∧ value = '/' :: c :: path) ∧ value' = value

/-- The tags whose links belong to the page. -/
inductive IsLinkTag : List Char → Prop
  | link : IsLinkTag "link".toList
  | image : IsLinkTag "image".toList
  | classes {names : List Char} (some : names ≠ []) (classes : ∀ c ∈ names, isClassChar c = true) :
      IsLinkTag ("image class=\"".toList ++ names ++ ['"'])

theorem IsLinkTag.ne_nil {tag : List Char} (isTag : IsLinkTag tag) : tag ≠ [] := by
  cases isTag with
  | link => decide
  | image => decide
  | classes some classes => simp

def EndsInLinkTag (piece : List Char) : Prop := ∃ tag, IsLinkTag tag ∧ tag <:+ piece

/-- The reference keeps its piece and its kind, and its value becomes that of a file. -/
structure Entry.Becomes (base : String) (e e' : Entry) : Prop where
  piece : e'.piece = e.piece
  isLink : e'.isLink = e.isLink
  source : e.isLink = false → SourceBecomes base e.value e'.value
  link : e.isLink = true → EndsInLinkTag e.piece → LinkBecomes base e.value e'.value
  rootLink : e.isLink = true → ¬ EndsInLinkTag e.piece → RootLinkBecomes base e.value e'.value

theorem FromRoot.suffix {value path : List Char} (root : FromRoot value path) : path <:+ value := by
  rcases root with same | ⟨scheme, -, host, -, same⟩
  · exact ⟨['/'], same.symm⟩
  · exact ⟨scheme.toList ++ (host ++ ['/']), by rw [same]; simp⟩

/-! ## Which references stand apart -/

/-- Nothing in a piece of markup is what the rules look for. -/
structure IsPlain (piece : List Char) : Prop where
  noMark : ∀ mark ∈ ["src=\"", "href=\"", "url(", "-webkit-", "-moz-", "-ms-"],
    ¬ mark.toList <:+: piece
  noSpace : piece.getLast? ≠ some ' '

instance (piece : List Char) : Decidable (IsPlain piece) :=
  decidable_of_iff ((∀ mark ∈ ["src=\"", "href=\"", "url(", "-webkit-", "-moz-", "-ms-"],
      ¬ mark.toList <:+: piece) ∧ piece.getLast? ≠ some ' ')
    ⟨fun holds => ⟨holds.1, holds.2⟩, fun plain => ⟨plain.noMark, plain.noSpace⟩⟩

/-- What a value may hold. -/
def IsQuotable (cs : List Char) : Prop := ∀ c ∈ cs, c ∉ ['"', ',', '(']

instance (cs : List Char) : Decidable (IsQuotable cs) :=
  decidable_of_iff (cs.all (fun c => decide (c ∉ ['"', ',', '('])) = true) (by simp [IsQuotable])

/-- The quote behind a value is not the opening one of another value. -/
def IsClosed (value : List Char) : Prop :=
  ∀ opening ∈ ["src=", "href=", "image class="], ¬ opening.toList <:+ value

instance (value : List Char) : Decidable (IsClosed value) :=
  inferInstanceAs (Decidable (∀ opening ∈ ["src=", "href=", "image class="],
    ¬ opening.toList <:+ value))

/-- An entry no rule mistakes for something else. -/
structure Entry.IsApart (e : Entry) : Prop where
  piece : IsPlain e.piece
  value : IsQuotable e.value
  closed : IsClosed e.value

theorem IsPlain.of_suffix {cs ds : List Char} (suffix : cs <:+ ds) (plain : IsPlain ds) :
    IsPlain cs where
  noMark := fun mark isIn within => plain.noMark mark isIn (within.trans suffix.isInfix)
  noSpace := by
    obtain ⟨front, rfl⟩ := suffix
    intro last
    have nonempty : cs ≠ [] := by
      rintro rfl
      cases last
    refine plain.noSpace ?_
    rw [List.getLast?_append_of_ne_nil _ nonempty]
    exact last

theorem IsQuotable.append {cs ds : List Char} (first : IsQuotable cs) (second : IsQuotable ds) :
    IsQuotable (cs ++ ds) := fun c isIn => (List.mem_append.mp isIn).elim (first c) (second c)

theorem IsQuotable.of_suffix {cs ds : List Char} (suffix : cs <:+ ds) (quotable : IsQuotable ds) :
    IsQuotable cs := fun c isIn => quotable c (suffix.subset isIn)

theorem IsQuotable.noQuote {cs : List Char} (quotable : IsQuotable cs) : '"' ∉ cs :=
  fun isIn => quotable '"' isIn (by decide)

theorem isQuotable_fileRoot {base : String} (quotable : IsQuotable base.toList) :
    IsQuotable (fileRoot base) := by
  have scheme : IsQuotable "file://".toList := by decide
  exact (scheme.append quotable).append (by decide)

theorem IsClosed.of_suffix {cs ds : List Char} (suffix : cs <:+ ds) (closed : IsClosed ds) :
    IsClosed cs := fun opening isIn ends => closed opening isIn (ends.trans suffix)

theorem fileRoot_append (base : String) (path : List Char) :
    fileRoot base ++ path = ("file://".toList ++ base.toList) ++ '/' :: path := by
  exact List.append_assoc ("file://".toList ++ base.toList) ['/'] path

/-- What follows a directory ends as it did. -/
theorem isClosed_fileRoot {base : String} {path : List Char} (closed : IsClosed path) :
    IsClosed (fileRoot base ++ path) := by
  intro opening isIn ends
  have noSlash : ∀ opening ∈ ["src=", "href=", "image class="], '/' ∉ opening.toList := by simp
  rw [fileRoot_append] at ends
  exact closed opening isIn (suffix_of_append_cons (noSlash opening isIn) ends)

/-- A path that was the end of a value can be put below the asset base. -/
theorem Entry.IsApart.relocate {base : String} {e : Entry} (apart : e.IsApart)
    (quotable : IsQuotable base.toList) {path : List Char} (suffix : path <:+ e.value) :
    Entry.IsApart { e with value := fileRoot base ++ path } where
  piece := apart.piece
  value := (isQuotable_fileRoot quotable).append (apart.value.of_suffix suffix)
  closed := isClosed_fileRoot (apart.closed.of_suffix suffix)

/-! ## Sources -/

theorem dropWhile_host {host rest : List Char} {d : Char} (noSlash : '/' ∉ host) (noQuote : '"' ∉ host)
    (stops : d = '/' ∨ d = '"') :
    (host ++ d :: rest).dropWhile (fun c => c != '/' && c != '"') = d :: rest := by
  rw [List.dropWhile_append_of_pos]
  · rcases stops with rfl | rfl <;> rfl
  · intro c isIn
    have slash : c ≠ '/' := fun same => noSlash (same ▸ isIn)
    have quote : c ≠ '"' := fun same => noQuote (same ▸ isIn)
    simp [slash, quote]

theorem skipServer_append (scheme : String) (isScheme : scheme ∈ ["http://", "https://"]) (host : List Char) :
    skipServer (scheme.toList ++ host) = host.dropWhile fun c => c != '/' && c != '"' := by
  simp only [List.mem_cons, List.not_mem_nil, or_false] at isScheme
  rcases isScheme with rfl | rfl <;> simp [skipServer, afterPrefix?]

theorem skipServer_cases (cs : List Char) :
    (∃ scheme ∈ ["http://", "https://"], ∃ host, cs = scheme.toList ++ host) ∨ skipServer cs = cs := by
  unfold skipServer
  split
  · rename_i host found
    rcases Option.or_eq_some_iff.mp found with begins | ⟨-, begins⟩
    · exact .inl ⟨_, List.mem_cons_self, host, afterPrefix?_eq_some_iff.mp begins⟩
    · exact .inl ⟨_, .tail _ List.mem_cons_self, host, afterPrefix?_eq_some_iff.mp begins⟩
  · exact .inr rfl

/-- A path from the root of a server is found where it begins in the value. -/
theorem afterPrefix?_skipServer_iff {value after path : List Char} (noQuote : '"' ∉ value) :
    afterPrefix? ['/'] (skipServer (value ++ '"' :: after)) = some path ↔
      ∃ path', FromRoot value path' ∧ path = path' ++ '"' :: after := by
  rw [afterPrefix?_eq_some_iff]
  constructor
  · intro begins
    rcases skipServer_cases (value ++ '"' :: after) with ⟨scheme, isScheme, host, whole⟩ | plain
    · have noMark : '"' ∉ scheme.toList := by
        simp only [List.mem_cons, List.not_mem_nil, or_false] at isScheme
        rcases isScheme with rfl | rfl <;> decide
      obtain ⟨host, rfl, rfl⟩ := exists_of_append_cons whole noMark
      rw [whole, skipServer_append scheme isScheme] at begins
      rw [List.mem_append, not_or] at noQuote
      by_cases slash : '/' ∈ host
      · obtain ⟨front, path', rfl, noSlash⟩ := List.eq_append_cons_of_mem slash
        have outside : '"' ∉ front := fun isIn => noQuote.2 (List.mem_append_left _ isIn)
        rw [List.append_assoc, List.cons_append, dropWhile_host noSlash outside (.inl rfl)] at begins
        exact ⟨path', .inr ⟨scheme, isScheme, front, noSlash, rfl⟩, (List.cons.inj begins).2.symm⟩
      · rw [dropWhile_host slash noQuote.2 (.inr rfl)] at begins
        cases begins
    · rw [plain] at begins
      cases value with
      | nil => cases begins
      | cons c path' =>
        cases begins
        exact ⟨path', .inl rfl, rfl⟩
  · rintro ⟨path', root | ⟨scheme, isScheme, host, noSlash, rfl⟩, rfl⟩
    · rw [root]
      rfl
    · have outside : '"' ∉ host := by
        intro isIn
        exact noQuote (by simp [isIn])
      rw [List.append_assoc, skipServer_append scheme isScheme, List.append_assoc, List.cons_append,
        dropWhile_host noSlash outside (.inl rfl)]
      rfl

theorem sourceRule_needs (base : String) : (sourceRule base).Needs ['s', 'r', 'c', '=', '"'] := by
  intro cs applies
  obtain ⟨result, applies⟩ := Option.isSome_iff_exists.mp applies
  obtain ⟨value, begins, -⟩ := Option.bind_eq_some_iff.mp applies
  rw [afterPrefix?_eq_some_iff.mp begins]
  exact List.prefix_append "src=\"".toList value

theorem sourceRule_step (base : String) (cs after : List Char) :
    (sourceRule base).step ("src=\"".toList ++ cs ++ after) =
      (afterPrefix? ['/'] (skipServer (cs ++ after))).map fun path =>
        ("src=\"".toList ++ fileRoot base, path) := by
  have opening : afterPrefix? "src=\"".toList ("src=\"".toList ++ cs ++ after) = some (cs ++ after) :=
    afterPrefix?_eq_some_iff.mpr (List.append_assoc _ _ _)
  show sourceStep base ("src=\"".toList ++ cs ++ after) = _
  rw [sourceStep, opening, Option.bind_some]

section
variable {base : String} {value value' : List Char}

theorem sends_source_value (quotable : IsQuotable value) (closed : IsClosed value) :
    (sourceRule base).Sends (value ++ ['"']) (value ++ ['"']) :=
  Rule.sends_of_not_suffix (sourceRule_needs base) ['s', 'r', 'c', '='] rfl (by decide)
    (by decide) (closed "src=" (by simp)) quotable.noQuote

/-- A source becomes that of a file, or stays. -/
theorem sends_source (quotable : IsQuotable value) (closed : IsClosed value)
    (becomes : SourceBecomes base value value') :
    (sourceRule base).Sends ("src=\"".toList ++ (value ++ ['"'])) ("src=\"".toList ++ (value' ++ ['"'])) := by
  rcases becomes with ⟨path, root, rfl⟩ | ⟨noRoot, same⟩
  · have suffix := root.suffix
    have applies : ∀ after,
        (sourceRule base).step ("src=\"".toList ++ (value ++ ['"']) ++ after) =
          some ("src=\"".toList ++ fileRoot base, path ++ ['"'] ++ after) := by
      intro after
      have found : afterPrefix? ['/'] (skipServer (value ++ '"' :: after)) =
          some (path ++ '"' :: after) :=
        (afterPrefix?_skipServer_iff quotable.noQuote).mpr ⟨path, root, rfl⟩
      rw [sourceRule_step, List.append_assoc, List.singleton_append, found, Option.map_some,
        List.append_assoc, List.singleton_append]
    have sends := Rule.sends_of_step applies
      (sends_source_value (quotable.of_suffix suffix) (closed.of_suffix suffix))
    rw [List.append_assoc, ← List.append_assoc (fileRoot base)] at sends
    exact sends
  · have idle : ∀ after, (sourceRule base).step ("src=\"".toList ++ (value ++ ['"']) ++ after) = none := by
      intro after
      rw [sourceRule_step, List.append_assoc, List.singleton_append, Option.map_eq_none_iff,
        Option.eq_none_iff_forall_ne_some]
      intro rest found
      obtain ⟨path, root, -⟩ := (afterPrefix?_skipServer_iff quotable.noQuote).mp found
      exact noRoot ⟨path, root⟩
    have later : (sourceRule base).Sends "rc=\"".toList "rc=\"".toList :=
      Rule.sends_of_not_mem (sourceRule_needs base) (by decide)
    rw [same]
    exact Rule.sends_cons idle (later.append (sends_source_value quotable closed))

end

/-! ## Links from the root -/

theorem rootLinkRule_needs (base : String) :
    (rootLinkRule base).Needs ['h', 'r', 'e', 'f', '=', '"'] := by
  intro cs applies
  obtain ⟨result, applies⟩ := Option.isSome_iff_exists.mp applies
  obtain ⟨rest, begins, -⟩ := Option.bind_eq_some_iff.mp applies
  rw [afterPrefix?_eq_some_iff.mp begins]
  exact List.prefix_append "href=\"".toList ('/' :: rest)

theorem rootLinkRule_step (base : String) (cs after : List Char) :
    (rootLinkRule base).step ("href=\"".toList ++ cs ++ after) =
      rootLinkStep base ("href=\"".toList ++ (cs ++ after)) := by
  rw [List.append_assoc]
  rfl

theorem rootLinkStep_of_root (base : String) {c : Char} (other : c ≠ '/' ∧ c ≠ '"') (rest : List Char) :
    rootLinkStep base ("href=\"".toList ++ '/' :: c :: rest) =
      some ("href=\"".toList ++ fileRoot base ++ [c], rest) := by
  have begins : afterPrefix? "href=\"/".toList ("href=\"".toList ++ '/' :: c :: rest) = some (c :: rest) :=
    afterPrefix?_eq_some_iff.mpr rfl
  rw [rootLinkStep, begins, Option.bind_some]
  simp [other]

theorem exists_of_rootLinkStep {base : String} {cs : List Char} {result : List Char × List Char}
    (applies : rootLinkStep base ("href=\"".toList ++ cs) = some result) :
    ∃ c rest, c ≠ '/' ∧ c ≠ '"' ∧ cs = '/' :: c :: rest := by
  obtain ⟨rest, begins, applies⟩ := Option.bind_eq_some_iff.mp applies
  have whole : "href=\"".toList ++ cs = "href=\"".toList ++ '/' :: rest :=
    (afterPrefix?_eq_some_iff.mp begins).trans rfl
  rw [List.append_cancel_left_eq] at whole
  cases rest with
  | nil => cases applies
  | cons c rest =>
    dsimp only at applies
    split at applies
    · cases applies
    · rename_i other
      simp only [Bool.or_eq_true, decide_eq_true_eq, not_or] at other
      exact ⟨c, rest, other.1, other.2, whole⟩

section
variable {base : String} {value value' : List Char}

theorem sends_rootLink_value (quotable : IsQuotable value) (closed : IsClosed value) :
    (rootLinkRule base).Sends (value ++ ['"']) (value ++ ['"']) :=
  Rule.sends_of_not_suffix (rootLinkRule_needs base) ['h', 'r', 'e', 'f', '='] rfl
    (by decide) (by decide) (closed "href=" (by simp)) quotable.noQuote

theorem sends_rootLink (quotable : IsQuotable value) (closed : IsClosed value)
    (becomes : RootLinkBecomes base value value') :
    (rootLinkRule base).Sends ("href=\"".toList ++ (value ++ ['"']))
      ("href=\"".toList ++ (value' ++ ['"'])) := by
  rcases becomes with ⟨c, path, noSlash, rfl, rfl⟩ | ⟨noRoot, same⟩
  · have suffix : path <:+ '/' :: c :: path := ⟨['/', c], rfl⟩
    have noQuote : c ≠ '"' := fun same => quotable.noQuote (by simp [same])
    have applies : ∀ after,
        (rootLinkRule base).step ("href=\"".toList ++ ('/' :: c :: path ++ ['"']) ++ after) =
          some ("href=\"".toList ++ fileRoot base ++ [c], path ++ ['"'] ++ after) := by
      intro after
      rw [rootLinkRule_step]
      exact rootLinkStep_of_root base ⟨noSlash, noQuote⟩ (path ++ ['"'] ++ after)
    have sends := Rule.sends_of_step applies
      (sends_rootLink_value (quotable.of_suffix suffix) (closed.of_suffix suffix))
    rw [List.append_assoc, List.append_assoc, List.singleton_append] at sends
    rw [List.append_assoc, List.cons_append]
    exact sends
  · have idle : ∀ after,
        (rootLinkRule base).step ("href=\"".toList ++ (value ++ ['"']) ++ after) = none := by
      intro after
      rw [rootLinkRule_step, Option.eq_none_iff_forall_ne_some]
      intro result applies
      obtain ⟨c, rest, noSlash, noQuote, whole⟩ := exists_of_rootLinkStep applies
      rw [List.append_assoc, List.singleton_append] at whole
      obtain ⟨path, root, -⟩ := @exists_of_append_cons _ _ _ ['/', c] _ whole
        (by simp [noQuote.symm])
      exact noRoot ⟨c, path, noSlash, root⟩
    have later : (rootLinkRule base).Sends "ref=\"".toList "ref=\"".toList :=
      Rule.sends_of_not_mem (rootLinkRule_needs base) (by decide)
    rw [same]
    exact Rule.sends_cons idle (later.append (sends_rootLink_value quotable closed))

end

/-! ## Links of tags -/

theorem isAbsoluteUrl_iff (target : List Char) : isAbsoluteUrl target = true ↔ IsAbsolute target := by
  have begins : (afterPrefix? ['/', '/'] target).isSome = true ↔ "//".toList <+: target := by
    constructor
    · intro found
      obtain ⟨rest, found⟩ := Option.isSome_iff_exists.mp found
      exact ⟨rest, (afterPrefix?_eq_some_iff.mp found).symm⟩
    · rintro ⟨rest, rfl⟩
      rfl
  have scheme : ((target.takeWhile (· != ':')).length < target.length &&
      !(target.takeWhile (· != ':')).isEmpty && (target.takeWhile (· != ':')).all isSchemeChar) = true ↔
      ∃ scheme rest, scheme ≠ [] ∧ (∀ c ∈ scheme, isSchemeChar c = true) ∧
        target = scheme ++ ':' :: rest := by
    constructor
    · intro holds
      simp only [Bool.and_eq_true, decide_eq_true_eq, Bool.not_eq_true', List.isEmpty_eq_false_iff,
        List.all_eq_true] at holds
      obtain ⟨⟨shorter, nonempty⟩, chars⟩ := holds
      have whole := List.takeWhile_append_dropWhile (p := (· != ':')) (l := target)
      cases behind : target.dropWhile (· != ':') with
      | nil =>
        rw [behind, List.append_nil] at whole
        rw [whole] at shorter
        exact absurd shorter (Nat.lt_irrefl _)
      | cons c rest =>
        have colon : c = ':' := by
          have stops := List.head?_dropWhile_not (· != ':') target
          rw [behind] at stops
          simpa using stops
        rw [behind, colon] at whole
        exact ⟨_, rest, nonempty, chars, whole.symm⟩
    · rintro ⟨scheme, rest, nonempty, chars, rfl⟩
      have noColon : ':' ∉ scheme := fun isIn => absurd (chars ':' isIn) (by decide)
      rw [takeWhile_bne_append noColon]
      simp [nonempty]
      exact chars
  rw [IsAbsolute, ← begins, ← scheme, isAbsoluteUrl]
  by_cases slashes : (afterPrefix? ['/', '/'] target).isSome = true
  · simp [slashes]
  · simp [slashes]

/-- A tag that the rule reads stands in front of spaces. -/
theorem exists_of_splitLinkTag {cs tag rest : List Char} (found : splitLinkTag cs = some (tag, rest)) :
    ∃ tag spaces, IsLinkTag tag ∧ (∀ c ∈ spaces, c = ' ') ∧ cs = tag ++ (spaces ++ rest) := by
  have areSpaces (cs : List Char) : ∀ c ∈ cs.takeWhile (· == ' '), c = ' ' := by
    intro c isIn
    exact beq_iff_eq.mp (List.all_eq_true.mp List.all_takeWhile c isIn)
  have whole (cs : List Char) := List.takeWhile_append_dropWhile (p := (· == ' ')) (l := cs)
  unfold splitLinkTag at found
  split at found
  · rename_i rest' begins
    cases found
    refine ⟨_, [' '], .link, by simp, ?_⟩
    exact (afterPrefix?_eq_some_iff.mp begins).trans rfl
  · obtain ⟨behind, begins, found⟩ := Option.map_eq_some_iff.mp found
    rw [afterPrefix?_eq_some_iff] at begins
    split at found
    · rename_i classes behind' split
      cases found
      obtain ⟨value, opening, split⟩ := Option.bind_eq_some_iff.mp split
      dsimp only at split
      split at split
      · cases split
      · rename_i some
        obtain ⟨rest', closing, same⟩ := Option.map_eq_some_iff.mp split
        cases same
        rw [afterPrefix?_eq_some_iff] at opening closing
        have names := List.takeWhile_append_dropWhile (p := isClassChar) (l := value)
        rw [closing] at names
        refine ⟨_, behind'.takeWhile (· == ' '),
          .classes (by simpa using some) (List.all_eq_true.mp List.all_takeWhile),
          areSpaces behind', ?_⟩
        rw [whole, begins, opening]
        conv_lhs => rw [← names]
        simp
    · cases found
      refine ⟨_, ' ' :: behind.takeWhile (· == ' '), .image, ?_, ?_⟩
      · intro c isIn
        exact (List.mem_cons.mp isIn).elim id (areSpaces behind c)
      · rw [List.cons_append, whole, begins]
        rfl

theorem splitClass_of_names {names : List Char} (some : names ≠ [])
    (classes : ∀ c ∈ names, isClassChar c = true) (rest : List Char) :
    splitClass ("class=\"".toList ++ (names ++ '"' :: rest)) =
      .some ("class=\"".toList ++ names ++ ['"'], rest) := by
  have begins : afterPrefix? "class=\"".toList ("class=\"".toList ++ (names ++ '"' :: rest)) =
      .some (names ++ '"' :: rest) := afterPrefix?_eq_some_iff.mpr rfl
  have quote : ∀ c ∈ ('"' :: rest).head?, isClassChar c = false := by
    rintro c ⟨⟩
    decide
  have taken := Text.takeWhile_append_of_ends classes quote
  have left := Text.dropWhile_append_of_ends classes quote
  unfold splitClass
  rw [begins, Option.bind_some, taken, left]
  simp [some, afterPrefix?]

theorem splitLinkTag_image (rest : List Char) :
    splitLinkTag ("image ".toList ++ rest) =
      match splitClass rest with
      | some (classes, rest) => some ("image ".toList ++ classes ++ [' '], rest.dropWhile (· == ' '))
      | none => some ("image ".toList, rest.dropWhile (· == ' ')) := by
  have noLink : afterPrefix? "link ".toList ("image ".toList ++ rest) = none := by simp [afterPrefix?]
  have begins : afterPrefix? "image ".toList ("image ".toList ++ rest) = some rest :=
    afterPrefix?_eq_some_iff.mpr rfl
  rw [splitLinkTag, noLink]
  dsimp only
  rw [begins, Option.map_some]
  cases splitClass rest <;> rfl

theorem splitLinkTag_of_tag {tag : List Char} (isTag : IsLinkTag tag) (rest : List Char) :
    splitLinkTag (tag ++ ' ' :: 'h' :: rest) = some (tag ++ [' '], 'h' :: rest) := by
  have noSpace : ('h' :: rest).dropWhile (· == ' ') = 'h' :: rest := rfl
  cases isTag with
  | link =>
    have begins : afterPrefix? "link ".toList ("link".toList ++ ' ' :: 'h' :: rest) = some ('h' :: rest) :=
      afterPrefix?_eq_some_iff.mpr rfl
    rw [splitLinkTag, begins]
    rfl
  | image =>
    have noClass : splitClass ('h' :: rest) = none := by
      have other : afterPrefix? "class=\"".toList ('h' :: rest) = none := by simp [afterPrefix?]
      rw [splitClass, other, Option.bind_none]
    have text : "image".toList ++ ' ' :: 'h' :: rest = "image ".toList ++ 'h' :: rest := rfl
    rw [text, splitLinkTag_image, noClass]
    rfl
  | @classes names some classes =>
    have text : "image class=\"".toList ++ names ++ ['"'] ++ ' ' :: 'h' :: rest =
        "image ".toList ++ ("class=\"".toList ++ (names ++ '"' :: ' ' :: 'h' :: rest)) := by
      rw [List.append_assoc, List.append_assoc]
      rfl
    have tag : "image class=\"".toList ++ names ++ ['"'] =
        "image ".toList ++ ("class=\"".toList ++ names ++ ['"']) := by
      rw [List.append_assoc, List.append_assoc]
      rfl
    rw [text, splitLinkTag_image, splitClass_of_names some classes, tag]
    rfl

theorem exists_of_linkStep {base : String} {cs : List Char} {result : List Char × List Char}
    (applies : linkStep base cs = some result) :
    ∃ tag spaces rest, IsLinkTag tag ∧ (∀ c ∈ spaces, c = ' ') ∧
      cs = tag ++ (spaces ++ ("href=\"".toList ++ rest)) := by
  obtain ⟨⟨tag, rest⟩, split, applies⟩ := Option.bind_eq_some_iff.mp applies
  obtain ⟨value, begins, -⟩ := Option.bind_eq_some_iff.mp applies
  obtain ⟨tag, spaces, isTag, areSpaces, whole⟩ := exists_of_splitLinkTag split
  rw [afterPrefix?_eq_some_iff.mp begins] at whole
  exact ⟨tag, spaces, value, isTag, areSpaces, whole⟩

theorem splitQuote_of_quote {value : List Char} (noQuote : '"' ∉ value) (after : List Char) :
    splitQuote (value ++ '"' :: after) = some (value, after) := by
  simp [splitQuote, takeWhile_bne_append noQuote, dropWhile_bne_append noQuote]

theorem linkStep_of_tag {base : String} {tag value value' : List Char} (isTag : IsLinkTag tag)
    (noQuote : '"' ∉ value) (becomes : LinkBecomes base value value') (after : List Char) :
    (linkRule base).step (tag ++ [' '] ++ ("href=\"".toList ++ (value ++ ['"'])) ++ after) =
      some (tag ++ [' '] ++ ("href=\"".toList ++ (value' ++ ['"'])), after) := by
  have read : splitLinkTag (tag ++ [' '] ++ ("href=\"".toList ++ (value ++ ['"'])) ++ after) =
      some (tag ++ [' '], "href=\"".toList ++ (value ++ '"' :: after)) := by
    have text : tag ++ [' '] ++ ("href=\"".toList ++ (value ++ ['"'])) ++ after =
        tag ++ ' ' :: 'h' :: ("ref=\"".toList ++ (value ++ '"' :: after)) := by
      simp
    rw [text]
    exact splitLinkTag_of_tag isTag _
  have begins : afterPrefix? "href=\"".toList ("href=\"".toList ++ (value ++ '"' :: after)) =
      some (value ++ '"' :: after) := afterPrefix?_eq_some_iff.mpr rfl
  have kept : (tag ++ [' '] ++ ("href=\"".toList ++ (value ++ ['"'])) ++ after).take
      ((tag ++ [' '] ++ ("href=\"".toList ++ (value ++ ['"'])) ++ after).length - after.length) =
        tag ++ [' '] ++ ("href=\"".toList ++ (value ++ ['"'])) := by
    rw [List.length_append, Nat.add_sub_cancel, List.take_left']
    rfl
  show linkStep base (tag ++ [' '] ++ ("href=\"".toList ++ (value ++ ['"'])) ++ after) = _
  rw [linkStep, read, Option.bind_some]
  dsimp only
  rw [begins, Option.bind_some, splitQuote_of_quote noQuote, Option.map_some]
  dsimp only
  rcases becomes with ⟨absolute, same⟩ | ⟨relative, same⟩
  · rw [if_pos ((isAbsoluteUrl_iff _).mpr absolute), kept, same]
  · rw [if_neg fun holds => relative ((isAbsoluteUrl_iff _).mp holds), same]
    simp

theorem linkStep_of_ne (base : String) {c : Char} (other : c ≠ 'l' ∧ c ≠ 'i') (cs : List Char) :
    (linkRule base).step (c :: cs) = none := by
  refine Option.eq_none_iff_forall_ne_some.mpr fun result applies => ?_
  obtain ⟨tag, spaces, rest, isTag, -, whole⟩ := exists_of_linkStep applies
  cases isTag with
  | link => exact other.1 (List.cons.inj whole).1
  | image => exact other.2 (List.cons.inj whole).1
  | classes some classes => exact other.2 (List.cons.inj whole).1

/-- Within a value, no tag begins that the rule could read. -/
theorem linkStep_of_closed (base : String) {cs : List Char} (closed : IsClosed cs) (noQuote : '"' ∉ cs)
    (after : List Char) : (linkRule base).step (cs ++ '"' :: after) = none := by
  refine Option.eq_none_iff_forall_ne_some.mpr fun result applies => ?_
  obtain ⟨tag, spaces, rest, isTag, areSpaces, whole⟩ := exists_of_linkStep applies
  -- A tag without classes has its first quote behind the name of its link.
  have plain (tag : List Char) (noMark : '"' ∉ tag)
      (whole : cs ++ '"' :: after = tag ++ (spaces ++ ("href=\"".toList ++ rest))) : False := by
    have text : tag ++ (spaces ++ ("href=\"".toList ++ rest)) =
        tag ++ spaces ++ "href=".toList ++ '"' :: rest := by simp
    have noSpaces : '"' ∉ spaces := fun isIn => absurd (areSpaces '"' isIn) (by decide)
    rw [text] at whole
    obtain ⟨same, -⟩ := append_cons_inj whole noQuote (by simp [noMark, noSpaces])
    exact closed "href=" (by simp) ⟨tag ++ spaces, same.symm⟩
  cases isTag with
  | link => exact plain _ (by decide) whole
  | image => exact plain _ (by decide) whole
  | @classes names some classes =>
    have text : "image class=\"".toList ++ names ++ ['"'] ++ (spaces ++ ("href=\"".toList ++ rest)) =
        "image class=".toList ++ '"' :: (names ++ ['"'] ++ (spaces ++ ("href=\"".toList ++ rest))) := by
      simp
    rw [text] at whole
    obtain ⟨same, -⟩ := append_cons_inj whole noQuote (by decide)
    exact closed "image class=" (by simp) ⟨[], same.symm⟩

/-- Behind a space stands the name of the link. -/
theorem isLink_of_spaces {e : Entry} {spaces rest rest' : List Char} (areSpaces : ∀ c ∈ spaces, c = ' ')
    (whole : ' ' :: (e.opening ++ rest) = spaces ++ ("href=\"".toList ++ rest')) : e.isLink = true := by
  cases spaces with
  | nil => exact absurd (List.cons.inj whole).1 (by decide)
  | cons c spaces =>
    have opening := (List.cons.inj whole).2
    cases isSource : e.isLink with
    | true => rfl
    | false =>
      rw [Entry.opening, isSource] at opening
      cases spaces with
      | nil => exact absurd (List.cons.inj opening).1 (by decide)
      | cons d spaces =>
        have space : d = ' ' := areSpaces d (by simp)
        rw [space] at opening
        exact absurd (List.cons.inj opening).1 (by decide)

theorem Entry.exists_name (e : Entry) :
    ∃ name, '"' ∉ name ∧ '=' ∈ name ∧ e.opening = name ++ ['"'] := by
  cases kind : e.isLink with
  | true => exact ⟨"href=".toList, by decide, by decide, by rw [Entry.opening, kind]; rfl⟩
  | false => exact ⟨"src=".toList, by decide, by decide, by rw [Entry.opening, kind]; rfl⟩

/-- No reference stands within the class names of an image. -/
theorem classes_ne {e : Entry} {names front back rest rest' : List Char}
    (classes : ∀ c ∈ names, isClassChar c = true)
    (parted : "image class=\"".toList ++ names ++ ['"'] = front ++ ' ' :: back)
    (whole : e.opening ++ rest = back ++ rest') : False := by
  obtain ⟨name, noQuote, equals, opening⟩ := e.exists_name
  have parted : front ++ ' ' :: back = "image".toList ++ ' ' :: ("class=\"".toList ++ (names ++ ['"'])) := by
    rw [← parted, List.append_assoc]
    rfl
  obtain ⟨more, -, behind⟩ := exists_of_append_cons parted (by decide)
  cases more with
  | nil =>
    obtain rfl := (List.cons.inj behind).2
    rw [Entry.opening] at whole
    split at whole
    · exact absurd (List.cons.inj whole).1 (by decide)
    · exact absurd (List.cons.inj whole).1 (by decide)
  | cons c more =>
    obtain ⟨more', -, tail⟩ := exists_of_append_cons (List.cons.inj behind).2.symm (by decide)
    rcases List.append_eq_append_iff.mp tail with ⟨last, -, ends⟩ | ⟨last, rfl, ends⟩
    · cases last with
      | nil => exact absurd (List.cons.inj ends).1 (by decide)
      | cons d last => exact absurd (List.cons.inj ends).2 (by simp)
    · cases last with
      | nil => exact absurd (List.cons.inj ends).1 (by decide)
      | cons d last =>
        obtain rfl : back = last ++ ['"'] := (List.cons.inj ends).2
        have outside : '"' ∉ last := fun isIn => absurd (classes '"' (by simp [isIn])) (by decide)
        rw [opening, List.append_assoc, List.append_assoc] at whole
        obtain ⟨rfl, -⟩ := append_cons_inj whole noQuote outside
        exact absurd (classes '=' (by simp [equals])) (by decide)

/-- Where the rule applies in front of a reference, a tag stands before its link. -/
theorem linkStep_of_piece (base : String) {e : Entry} {cs : List Char} (plain : IsPlain cs)
    (noTag : e.isLink = true → ¬ IsLinkTag cs) (after : List Char) :
    (linkRule base).step (cs ++ ' ' :: (e.opening ++ after)) = none := by
  refine Option.eq_none_iff_forall_ne_some.mpr fun result applies => ?_
  obtain ⟨tag, spaces, rest, isTag, areSpaces, whole⟩ := exists_of_linkStep applies
  rcases List.append_eq_append_iff.mp whole with ⟨more, rfl, behind⟩ | ⟨more, rfl, behind⟩
  · -- The tag would reach over the space.
    cases more with
    | nil =>
      rw [List.append_nil] at isTag
      exact noTag (isLink_of_spaces areSpaces behind) isTag
    | cons c more =>
      obtain ⟨rfl, tail⟩ := List.cons.inj behind
      generalize parted : cs ++ ' ' :: more = tag at isTag
      have space : ' ' ∈ tag := by
        rw [← parted]
        simp
      cases isTag with
      | link => exact absurd space (by decide)
      | image => exact absurd space (by decide)
      | classes some classes => exact classes_ne classes parted.symm tail
  · rcases List.append_eq_append_iff.mp behind with ⟨more', rfl, name⟩ | ⟨more', rfl, name⟩
    · -- The name of the link would stand before the space.
      obtain ⟨last, rfl, -⟩ := exists_of_append_cons name.symm (by decide)
      exact plain.noMark "href=\"" (by simp) ⟨tag ++ spaces, last, by simp⟩
    · rcases List.eq_nil_or_concat more with rfl | ⟨front, c, rfl⟩
      · rw [List.append_nil] at noTag
        exact noTag (isLink_of_spaces areSpaces name) isTag
      · have space : c = ' ' := areSpaces c (by simp)
        exact plain.noSpace (by simp [space])

theorem sends_link_of_not_mem (base : String) {cs : List Char} (noLink : 'l' ∉ cs) (noImage : 'i' ∉ cs) :
    (linkRule base).Sends cs cs := by
  intro after
  refine Rule.replaceAll_append_of_idle after fun before c rest parted => ?_
  have isIn : c ∈ cs := by
    rw [parted]
    simp
  exact linkStep_of_ne base ⟨fun same => noLink (same ▸ isIn), fun same => noImage (same ▸ isIn)⟩ _

theorem sends_link_self (base : String) {e : Entry} (apart : e.IsApart)
    (noTag : e.isLink = true → ¬ EndsInLinkTag e.piece) : (linkRule base).Sends e.text e.text := by
  have space : (linkRule base).Sends [' '] [' '] := sends_link_of_not_mem base (by decide) (by decide)
  have opening : (linkRule base).Sends e.opening e.opening := by
    unfold Entry.opening
    split
    · exact sends_link_of_not_mem base (by decide) (by decide)
    · exact sends_link_of_not_mem base (by decide) (by decide)
  have value : (linkRule base).Sends (e.value ++ ['"']) (e.value ++ ['"']) := by
    refine Rule.sends_of_mark (linkStep_of_ne base (by decide)) fun c rest within after => ?_
    exact linkStep_of_closed base (apart.closed.of_suffix within)
      (apart.value.of_suffix within).noQuote after
  intro after
  have piece := @Rule.replaceAll_append_of_idle (linkRule base) e.piece
    ([' '] ++ (e.opening ++ (e.value ++ ['"'])) ++ after) fun before c rest parted => by
      have within : c :: rest <:+ e.piece := ⟨before, parted.symm⟩
      rw [List.append_assoc, List.append_assoc]
      exact linkStep_of_piece base (apart.piece.of_suffix within)
        (fun isLink isTag => noTag isLink ⟨_, isTag, within⟩) _
  rw [(space.append (opening.append value)) after] at piece
  rw [Entry.text, List.append_assoc e.piece, List.append_assoc e.piece, piece, List.append_assoc e.piece]

theorem sends_link {base : String} {piece value value' : List Char} (plain : IsPlain piece)
    (ends : EndsInLinkTag piece) (noQuote : '"' ∉ value) (becomes : LinkBecomes base value value') :
    (linkRule base).Sends (piece ++ [' '] ++ ("href=\"".toList ++ (value ++ ['"'])))
      (piece ++ [' '] ++ ("href=\"".toList ++ (value' ++ ['"']))) := by
  induction piece with
  | nil =>
    obtain ⟨tag, isTag, within⟩ := ends
    exact absurd (List.suffix_nil.mp within) isTag.ne_nil
  | cons c piece ih =>
    by_cases isTag : IsLinkTag (c :: piece)
    · have sends := @Rule.sends_of_step _ _ _ [] _ (linkStep_of_tag isTag noQuote becomes) Rule.sends_nil
      rw [List.append_nil] at sends
      exact sends
    · have plain' : IsPlain piece := plain.of_suffix (List.suffix_cons c piece)
      have ends : EndsInLinkTag piece := by
        obtain ⟨tag, isTag', within⟩ := ends
        rcases List.suffix_cons_iff.mp within with rfl | within
        · exact absurd isTag' isTag
        · exact ⟨tag, isTag', within⟩
      refine Rule.sends_cons (fun after => ?_) (ih plain' ends)
      have idle := linkStep_of_piece base (e := ⟨piece, true, value⟩) plain (fun _ => isTag)
        (value ++ '"' :: after)
      simpa [Entry.opening] using idle

/-! ## Styles -/

theorem infix_of_urlStep {base : String} {cs : List Char} {result : List Char × List Char}
    (applies : (urlRule base).step cs = some result) : "url(".toList <:+: cs := by
  obtain ⟨a, after, rfl, -, -⟩ := urlStep_eq_some_iff.mp applies
  exact ⟨':' :: (a.spaces ++ optional a.quoted '\x27'), a.inside after, by simp [Address.behindColon]⟩

theorem replaceAll_of_noUrl {base : String} {cs : List Char} (noUrl : ¬ "url(".toList <:+: cs) :
    (urlRule base).replaceAll cs = cs := by
  refine Rule.replaceAll_of_idle fun before rest parted => ?_
  refine Option.eq_none_iff_forall_ne_some.mpr fun result applies => noUrl ?_
  exact (infix_of_urlStep applies).trans ⟨before, [], by rw [parted, List.append_nil]⟩

theorem noUrl_markup {entries : List Entry} (apart : ∀ e ∈ entries, e.IsApart) {last : List Char}
    (plain : IsPlain last) : ¬ "url(".toList <:+: markup entries last := by
  induction entries with
  | nil => exact plain.noMark "url(" (by simp)
  | cons e entries ih =>
    have here := apart e List.mem_cons_self
    have later := ih fun e isIn => apart e (List.mem_cons_of_mem _ isIn)
    have noParen {cs : List Char} (absent : '(' ∉ cs) : ¬ "url(".toList <:+: cs :=
      fun within => absent (within.subset (by decide))
    have text : markup (e :: entries) last =
        e.piece ++ ' ' :: (e.opening ++ (e.value ++ '"' :: markup entries last)) := by
      simp [markup, Entry.text]
    have opening : '(' ∉ e.opening := by
      unfold Entry.opening
      split <;> decide
    have value : '(' ∉ e.value := fun isIn => here.value '(' isIn (by decide)
    rw [text, ← List.append_assoc e.opening]
    intro within
    rcases infix_of_append_cons (by decide) within with within | within
    · exact here.piece.noMark "url(" (by simp) within
    · rcases infix_of_append_cons (by decide) within with within | within
      · refine noParen ?_ within
        rw [List.mem_append, not_or]
        exact ⟨opening, value⟩
      · exact later within

/-! ## Values for one browser -/

theorem exists_of_vendorStep {cs : List Char} {result : List Char × List Char}
    (applies : vendorRule.step cs = some result) :
    ∃ vendor ∈ ["-webkit-", "-moz-", "-ms-"], ∃ word rest, (∀ c ∈ word, isWord c = true) ∧
      cs = vendor.toList ++ (word ++ ',' :: rest) := by
  obtain ⟨behind, found, applies⟩ := Option.bind_eq_some_iff.mp applies
  obtain ⟨vendor, isVendor, begins⟩ := List.exists_of_findSome?_eq_some found
  split at applies
  · cases applies
  · obtain ⟨rest, comma, -⟩ := Option.map_eq_some_iff.mp applies
    have whole := List.takeWhile_append_dropWhile (p := isWord) (l := behind)
    rw [afterPrefix?_eq_some_iff.mp comma] at whole
    refine ⟨vendor, isVendor, behind.takeWhile isWord, rest,
      List.all_eq_true.mp List.all_takeWhile, ?_⟩
    rw [afterPrefix?_eq_some_iff.mp begins]
    exact congrArg _ whole.symm

theorem vendor_marks {vendor : String} (isVendor : vendor ∈ ["-webkit-", "-moz-", "-ms-"]) :
    ' ' ∉ vendor.toList ∧ '"' ∉ vendor.toList ∧ ∃ more, vendor.toList = '-' :: more := by
  simp only [List.mem_cons, List.not_mem_nil, or_false] at isVendor
  rcases isVendor with rfl | rfl | rfl <;> exact ⟨by decide, by decide, _, rfl⟩

theorem vendorStep_of_ne {c : Char} (other : c ≠ '-') (cs : List Char) :
    vendorRule.step (c :: cs) = none := by
  refine Option.eq_none_iff_forall_ne_some.mpr fun result applies => ?_
  obtain ⟨vendor, isVendor, word, rest, -, whole⟩ := exists_of_vendorStep applies
  obtain ⟨-, -, more, begins⟩ := vendor_marks isVendor
  rw [begins] at whole
  exact other (List.cons.inj whole).1

theorem IsPlain.noVendor {piece : List Char} (plain : IsPlain piece) {vendor : String}
    (isVendor : vendor ∈ ["-webkit-", "-moz-", "-ms-"]) : ¬ vendor.toList <:+: piece :=
  plain.noMark vendor (by simp_all)

theorem sends_vendor_piece {piece : List Char} (plain : IsPlain piece) :
    vendorRule.Sends (piece ++ [' ']) (piece ++ [' ']) := by
  refine Rule.sends_of_mark (vendorStep_of_ne (by decide)) fun c rest within after => ?_
  refine Option.eq_none_iff_forall_ne_some.mpr fun result applies => ?_
  obtain ⟨vendor, isVendor, word, rest, -, whole⟩ := exists_of_vendorStep applies
  obtain ⟨more, begins, -⟩ := exists_of_append_cons whole (vendor_marks isVendor).1
  refine plain.noVendor isVendor (.trans ?_ within.isInfix)
  rw [begins]
  exact (List.prefix_append _ _).isInfix

theorem replaceAll_of_noVendor {piece : List Char} (plain : IsPlain piece) :
    vendorRule.replaceAll piece = piece := by
  refine Rule.replaceAll_of_idle fun before rest parted => ?_
  refine Option.eq_none_iff_forall_ne_some.mpr fun result applies => ?_
  obtain ⟨vendor, isVendor, word, behind, -, rfl⟩ := exists_of_vendorStep applies
  exact plain.noVendor isVendor ⟨before, word ++ ',' :: behind, by rw [parted, List.append_assoc]⟩

/-- Without a comma before a quote, no value is left out before it. -/
theorem sends_vendor_of_noComma {cs : List Char} (noComma : ',' ∉ cs) :
    vendorRule.Sends (cs ++ ['"']) (cs ++ ['"']) := by
  refine Rule.sends_of_mark (vendorStep_of_ne (by decide)) fun c rest within after => ?_
  refine Option.eq_none_iff_forall_ne_some.mpr fun result applies => ?_
  obtain ⟨vendor, isVendor, word, rest', isWord, whole⟩ := exists_of_vendorStep applies
  have noWord : '"' ∉ word := fun isIn => absurd (isWord '"' isIn) (by decide)
  have text : vendor.toList ++ (word ++ ',' :: rest') = vendor.toList ++ word ++ [','] ++ rest' := by
    simp
  rw [text] at whole
  obtain ⟨more, begins, -⟩ := exists_of_append_cons whole
    (by simp [(vendor_marks isVendor).2.1, noWord])
  refine noComma (within.subset ?_)
  rw [begins]
  simp

theorem sends_vendor {e : Entry} (apart : e.IsApart) : vendorRule.Sends e.text e.text := by
  have opening : vendorRule.Sends e.opening e.opening := by
    unfold Entry.opening
    split
    · exact @sends_vendor_of_noComma "href=".toList (by decide)
    · exact @sends_vendor_of_noComma "src=".toList (by decide)
  have value : vendorRule.Sends (e.value ++ ['"']) (e.value ++ ['"']) :=
    sends_vendor_of_noComma fun isIn => apart.value ',' isIn (by decide)
  exact (sends_vendor_piece apart.piece).append (opening.append value)

/-! ## Whole markup -/

theorem exists_becomes (base : String) (e : Entry) : ∃ e', e.Becomes base e' := by
  have source : ∃ value, SourceBecomes base e.value value := by
    by_cases root : ∃ path, FromRoot e.value path
    · obtain ⟨path, root⟩ := root
      exact ⟨_, .inl ⟨path, root, rfl⟩⟩
    · exact ⟨_, .inr ⟨root, rfl⟩⟩
  have link : ∃ value, LinkBecomes base e.value value := by
    by_cases absolute : IsAbsolute e.value
    · exact ⟨_, .inl ⟨absolute, rfl⟩⟩
    · exact ⟨_, .inr ⟨absolute, rfl⟩⟩
  have rootLink : ∃ value, RootLinkBecomes base e.value value := by
    by_cases root : ∃ c path, c ≠ '/' ∧ e.value = '/' :: c :: path
    · obtain ⟨c, path, noSlash, same⟩ := root
      exact ⟨_, .inl ⟨c, path, noSlash, same, rfl⟩⟩
    · exact ⟨_, .inr ⟨root, rfl⟩⟩
  cases kind : e.isLink with
  | false =>
    obtain ⟨value, source⟩ := source
    exact ⟨{ e with value }, rfl, rfl, fun _ => source, by simp [kind], by simp [kind]⟩
  | true =>
    by_cases tag : EndsInLinkTag e.piece
    · obtain ⟨value, link⟩ := link
      exact ⟨{ e with value }, rfl, rfl, by simp [kind], fun _ _ => link, fun _ noTag => absurd tag noTag⟩
    · obtain ⟨value, rootLink⟩ := rootLink
      exact ⟨{ e with value }, rfl, rfl, by simp [kind], fun _ isTag => absurd isTag tag,
        fun _ _ => rootLink⟩

theorem dropOne_suffix (c : Char) (cs : List Char) : dropOne c cs <:+ cs := by
  obtain ⟨present, whole, -⟩ := exists_optional c cs
  exact ⟨_, whole.symm⟩

/-- The value stays, or its end is put below the asset base. -/
theorem Entry.Becomes.cases {base : String} {e e' : Entry} (becomes : e.Becomes base e') :
    e'.value = e.value ∨ ∃ path, path <:+ e.value ∧ e'.value = fileRoot base ++ path := by
  cases kind : e.isLink with
  | false =>
    rcases becomes.source kind with ⟨path, root, same⟩ | ⟨-, same⟩
    · exact .inr ⟨path, root.suffix, same⟩
    · exact .inl same
  | true =>
    by_cases tag : EndsInLinkTag e.piece
    · rcases becomes.link kind tag with ⟨-, same⟩ | ⟨-, same⟩
      · exact .inl same
      · exact .inr ⟨_, dropOne_suffix '/' e.value, same⟩
    · rcases becomes.rootLink kind tag with ⟨c, path, -, whole, same⟩ | ⟨-, same⟩
      · exact .inr ⟨c :: path, ⟨['/'], whole.symm⟩, same⟩
      · exact .inl same

theorem Entry.IsApart.becomes {base : String} {e e' : Entry} (apart : e.IsApart)
    (quotable : IsQuotable base.toList) (becomes : e.Becomes base e') : e'.IsApart := by
  have plain : IsPlain e'.piece := becomes.piece ▸ apart.piece
  rcases becomes.cases with same | ⟨path, suffix, same⟩
  · exact ⟨plain, same ▸ apart.value, same ▸ apart.closed⟩
  · have moved := apart.relocate quotable suffix
    exact ⟨plain, same ▸ moved.value, same ▸ moved.closed⟩

/-- What the rule for links of tags writes is no link from the root any more. -/
theorem rootLinkBecomes_of_link {base : String} {value value' : List Char}
    (becomes : LinkBecomes base value value') : RootLinkBecomes base value' value' := by
  refine .inr ⟨?_, rfl⟩
  rintro ⟨c, path, noSlash, root⟩
  rcases becomes with ⟨⟨rest, slashes⟩ | ⟨scheme, rest, some, chars, whole⟩, rfl⟩ | ⟨-, rfl⟩
  · rw [root] at slashes
    exact noSlash (List.cons.inj (List.cons.inj slashes).2).1.symm
  · cases scheme with
    | nil => exact some rfl
    | cons d scheme =>
      rw [root] at whole
      have isChar := chars d List.mem_cons_self
      rw [← (List.cons.inj whole).1] at isChar
      exact absurd isChar (by decide)
  · exact absurd (List.cons.inj root).1 (by decide)

/-- The first three rules together turn an entry into what becomes of it. -/
theorem sends_entry {base : String} (quotable : IsQuotable base.toList) {e e' : Entry}
    (apart : e.IsApart) (becomes : e.Becomes base e') :
    ∃ mid₁ mid₂, (sourceRule base).Sends e.text mid₁ ∧ (linkRule base).Sends mid₁ mid₂ ∧
      (rootLinkRule base).Sends mid₂ e'.text := by
  have apart' := apart.becomes quotable becomes
  have sourcePiece : (sourceRule base).Sends (e.piece ++ [' ']) (e.piece ++ [' ']) :=
    Rule.sends_of_not_infix (sourceRule_needs base) (by decide) (apart.piece.noMark "src=\"" (by simp))
  have rootPiece : (rootLinkRule base).Sends (e.piece ++ [' ']) (e.piece ++ [' ']) :=
    Rule.sends_of_not_infix (rootLinkRule_needs base) (by decide)
      (apart.piece.noMark "href=\"" (by simp))
  cases kind : e.isLink with
  | false =>
    have opening : e.opening = "src=\"".toList := by
      rw [Entry.opening, kind]
      rfl
    have opening' : e'.opening = "src=\"".toList := by
      rw [Entry.opening, becomes.isLink, kind]
      rfl
    have source : (sourceRule base).Sends e.text e'.text := by
      rw [Entry.text, Entry.text, opening, opening', becomes.piece]
      exact sourcePiece.append (sends_source apart.value apart.closed (becomes.source kind))
    have link : (linkRule base).Sends e'.text e'.text := by
      refine sends_link_self base apart' fun isLink => ?_
      rw [becomes.isLink, kind] at isLink
      cases isLink
    have root : (rootLinkRule base).Sends e'.text e'.text := by
      have name : (rootLinkRule base).Sends "src=\"".toList "src=\"".toList :=
        Rule.sends_of_not_mem (rootLinkRule_needs base) (by decide)
      rw [Entry.text, opening', becomes.piece]
      exact rootPiece.append (name.append (sends_rootLink_value apart'.value apart'.closed))
    exact ⟨e'.text, e'.text, source, link, root⟩
  | true =>
    have opening : e.opening = "href=\"".toList := by
      rw [Entry.opening, kind]
      rfl
    have opening' : e'.opening = "href=\"".toList := by
      rw [Entry.opening, becomes.isLink, kind]
      rfl
    have source : (sourceRule base).Sends e.text e.text := by
      have name : (sourceRule base).Sends "href=\"".toList "href=\"".toList :=
        Rule.sends_of_not_mem (sourceRule_needs base) (by decide)
      rw [Entry.text, opening]
      exact sourcePiece.append (name.append (sends_source_value apart.value apart.closed))
    by_cases tag : EndsInLinkTag e.piece
    · have link : (linkRule base).Sends e.text e'.text := by
        rw [Entry.text, Entry.text, opening, opening', becomes.piece]
        exact sends_link apart.piece tag apart.value.noQuote (becomes.link kind tag)
      have root : (rootLinkRule base).Sends e'.text e'.text := by
        have stays := rootLinkBecomes_of_link (becomes.link kind tag)
        rw [Entry.text, opening', becomes.piece]
        exact rootPiece.append (sends_rootLink apart'.value apart'.closed stays)
      exact ⟨e.text, e'.text, source, link, root⟩
    · have link : (linkRule base).Sends e.text e.text := sends_link_self base apart fun _ => tag
      have root : (rootLinkRule base).Sends e.text e'.text := by
        rw [Entry.text, Entry.text, opening, opening', becomes.piece]
        exact rootPiece.append (sends_rootLink apart.value apart.closed (becomes.rootLink kind tag))
      exact ⟨e.text, e.text, source, link, root⟩

theorem sends_entries {base : String} (quotable : IsQuotable base.toList) {entries : List Entry}
    (apart : ∀ e ∈ entries, e.IsApart) :
    ∃ entries', List.Forall₂ (Entry.Becomes base) entries entries' ∧
      (∀ e ∈ entries', e.IsApart) ∧ ∃ mid₁ mid₂,
        (sourceRule base).Sends (entries.flatMap Entry.text) mid₁ ∧ (linkRule base).Sends mid₁ mid₂ ∧
          (rootLinkRule base).Sends mid₂ (entries'.flatMap Entry.text) := by
  induction entries with
  | nil => exact ⟨[], .nil, by simp, [], [], Rule.sends_nil, Rule.sends_nil, Rule.sends_nil⟩
  | cons e entries ih =>
    have here := apart e List.mem_cons_self
    obtain ⟨e', becomes⟩ := exists_becomes base e
    obtain ⟨first₁, first₂, source, link, root⟩ := sends_entry quotable here becomes
    obtain ⟨entries', all, apart', mid₁, mid₂, sources, links, roots⟩ :=
      ih fun e isIn => apart e (List.mem_cons_of_mem _ isIn)
    refine ⟨e' :: entries', .cons becomes all, ?_, first₁ ++ mid₁, first₂ ++ mid₂, ?_, ?_, ?_⟩
    · intro e isIn
      rcases List.mem_cons.mp isIn with rfl | isIn
      · exact here.becomes quotable becomes
      · exact apart' e isIn
    · exact source.append sources
    · exact link.append links
    · exact root.append roots

theorem sends_vendor_entries {entries : List Entry} (apart : ∀ e ∈ entries, e.IsApart) :
    vendorRule.Sends (entries.flatMap Entry.text) (entries.flatMap Entry.text) := by
  induction entries with
  | nil => exact Rule.sends_nil
  | cons e entries ih =>
    have here := sends_vendor (apart e List.mem_cons_self)
    exact here.append (ih fun e isIn => apart e (List.mem_cons_of_mem _ isIn))

/-- Each reference becomes that of a file on its own, and all pieces stay. -/
theorem relocateAssets_markup {base : String} (quotable : IsQuotable base.toList)
    {entries : List Entry} (apart : ∀ e ∈ entries, e.IsApart) {last : List Char}
    (plain : IsPlain last) :
    ∃ entries', List.Forall₂ (Entry.Becomes base) entries entries' ∧
      relocateAssets (String.ofList (markup entries last)) base =
        String.ofList (markup entries' last) := by
  obtain ⟨entries', becomes, apart', mid₁, mid₂, source, link, root⟩ := sends_entries quotable apart
  have lastSource : (sourceRule base).replaceAll last = last :=
    Rule.replaceAll_of_not_infix (sourceRule_needs base) (plain.noMark "src=\"" (by simp))
  have lastLink : (linkRule base).replaceAll last = last := by
    refine Rule.replaceAll_of_idle fun before rest parted => ?_
    refine Option.eq_none_iff_forall_ne_some.mpr fun result applies => ?_
    obtain ⟨tag, spaces, behind, -, -, rfl⟩ := exists_of_linkStep applies
    exact plain.noMark "href=\"" (by simp) ⟨before ++ tag ++ spaces, behind, by simp [parted]⟩
  have lastRoot : (rootLinkRule base).replaceAll last = last :=
    Rule.replaceAll_of_not_infix (rootLinkRule_needs base) (plain.noMark "href=\"" (by simp))
  refine ⟨entries', becomes, ?_⟩
  unfold relocateAssets
  dsimp only
  rw [String.toList_ofList, markup, source, lastSource, link, lastLink, root, lastRoot]
  rw [show (urlRule base).replaceAll (entries'.flatMap Entry.text ++ last) = _ from
    replaceAll_of_noUrl (noUrl_markup apart' plain), markup, sends_vendor_entries apart',
    replaceAll_of_noVendor plain]

/-- A style sheet and an image of a server, and a link to another page. -/
def threeReferences : List Entry := [
  ⟨"<link".toList, true, "/a.css".toList⟩,
  ⟨"><img".toList, false, "http://h:3/b.png".toList⟩,
  ⟨"><a".toList, true, "//c/?href".toList⟩]

theorem relocateAssets_markup_of_three : IsQuotable "/pub".toList ∧
    (∀ e ∈ threeReferences, e.IsApart) ∧ IsPlain ">".toList ∧
    ∃ entries', List.Forall₂ (Entry.Becomes "/pub") threeReferences entries' ∧
      relocateAssets (String.ofList (markup threeReferences ">".toList)) "/pub" =
        String.ofList (markup entries' ">".toList) := by
  have quotable : IsQuotable "/pub".toList := by decide
  have apart : ∀ e ∈ threeReferences, e.IsApart := by
    intro e isIn
    simp only [threeReferences, List.mem_cons, List.not_mem_nil, or_false] at isIn
    rcases isIn with rfl | rfl | rfl <;>
      exact ⟨by decide +kernel, by decide +kernel, by decide +kernel⟩
  have plain : IsPlain ">".toList := by decide +kernel
  exact ⟨quotable, apart, plain, relocateAssets_markup quotable apart plain⟩

/-- A link whose value ends like the name of a source. -/
def searchLink : Entry := ⟨"<a".toList, true, "/search?src=".toList⟩

theorem value_of_searchLink {e : Entry} (becomes : searchLink.Becomes "/pub" e) :
    e = { searchLink with value := "file:///pub/search?src=".toList } := by
  have noTag : ¬ EndsInLinkTag searchLink.piece := by
    rintro ⟨tag, isTag, within⟩
    have short : tag.length ≤ 2 := within.length_le
    cases isTag with
    | link => exact absurd short (by decide)
    | image => exact absurd short (by decide)
    | classes some classes =>
      simp only [List.length_append, String.reduceToList, List.length_cons] at short
      omega
  have root : searchLink.value = '/' :: 's' :: "earch?src=".toList := by decide
  have value : e.value = "file:///pub/search?src=".toList := by
    rcases becomes.rootLink rfl noTag with ⟨c, path, -, whole, same⟩ | ⟨noRoot, -⟩
    · rw [root] at whole
      obtain ⟨-, rfl, rfl⟩ : '/' = '/' ∧ 's' = c ∧ "earch?src=".toList = path := by
        simpa only [List.cons.injEq] using whole
      rw [same]
      decide
    · exact absurd ⟨'s', _, by decide, root⟩ noRoot
  calc e = ⟨e.piece, e.isLink, e.value⟩ := rfl
    _ = _ := by rw [becomes.piece, becomes.isLink, value]

/-- The quote behind such a value opens a source for the rule: what stands behind it is moved too. -/
theorem relocateAssets_searchLink : IsPlain searchLink.piece ∧ IsQuotable searchLink.value ∧
    IsPlain "/>".toList ∧ IsQuotable "/pub".toList ∧
    relocateAssets (String.ofList (markup [searchLink] "/>".toList)) "/pub" =
      "<a href=\"file:///pub/search?src=\"file:///pub/>" ∧
    ¬ ∃ e', searchLink.Becomes "/pub" e' ∧
      relocateAssets (String.ofList (markup [searchLink] "/>".toList)) "/pub" =
        String.ofList (markup [e'] "/>".toList) := by
  have moved : relocateAssets (String.ofList (markup [searchLink] "/>".toList)) "/pub" =
      "<a href=\"file:///pub/search?src=\"file:///pub/>" := by
    decide +kernel
  refine ⟨by decide +kernel, by decide +kernel, by decide +kernel, by decide, moved, ?_⟩
  rintro ⟨e', becomes, same⟩
  rw [moved, value_of_searchLink becomes] at same
  revert same
  decide +kernel

end SnapshotPreview.Markup

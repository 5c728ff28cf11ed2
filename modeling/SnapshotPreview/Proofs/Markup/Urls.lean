import Mathlib.Data.List.Infix
import Mathlib.Data.List.TakeWhile
import SnapshotPreview.Markup.Assets
import SnapshotPreview.Proofs.Markup.Rules
import SnapshotPreview.Proofs.Text

/-!
# Addresses in styles

The rule for styles applies exactly where an address is written as a value (`urlStep_eq_some_iff`).
What it writes is not such a value again, unless the asset base holds one, so that a second
application changes nothing (`relocateUrls_relocateUrls`). A path of ASCII characters is reached
exactly if it has no hyphen (`relocateUrls_pathUrl_iff`).
-/

namespace SnapshotPreview.Markup

open Text

/-! ## Characters that may be missing -/

/-- A character that is there or not. -/
def optional (present : Bool) (c : Char) : List Char := if present then [c] else []

theorem mem_optional {present : Bool} {c d : Char} (isIn : d ∈ optional present c) : d = c := by
  cases present
  · cases isIn
  · exact List.mem_singleton.mp isIn

theorem dropOne_cons (c d : Char) (rest : List Char) :
    dropOne c (d :: rest) = if d = c then rest else d :: rest := rfl

theorem dropOne_optional {present : Bool} {c : Char} {rest : List Char}
    (absent : present = false → rest.head? ≠ some c) :
    dropOne c (optional present c ++ rest) = rest := by
  cases present with
  | true => simp [optional, dropOne]
  | false =>
    cases rest with
    | nil => rfl
    | cons d rest =>
      have other : d ≠ c := fun same => absent rfl (congrArg some same)
      simp [optional, dropOne, other]

theorem exists_optional (c : Char) (cs : List Char) : ∃ present,
    cs = optional present c ++ dropOne c cs ∧
      (present = false → (dropOne c cs).head? ≠ some c) := by
  cases cs with
  | nil => exact ⟨false, rfl, fun _ => nofun⟩
  | cons d cs =>
    by_cases same : d = c
    · exact ⟨true, by simp [optional, dropOne, same], nofun⟩
    · exact ⟨false, by simp [optional, dropOne, same], fun _ => by simp [dropOne, same]⟩

/-! ## Where the rule applies -/

/-- An address as the value of a style. -/
structure Address where
  /-- The spaces behind the colon. -/
  spaces : List Char
  areSpaces : ∀ c ∈ spaces, (c == ' ') = true
  /-- A single quote stands before it. -/
  quoted : Bool
  /-- A double quote stands before the path. -/
  opened : Bool
  /-- The path begins at the root. -/
  rooted : Bool
  path : List Char
  isPath : ∀ c ∈ path, isUrlChar c = true
  /-- A double quote stands behind the path. -/
  closed : Bool
  noSlash : rooted = false → path.head? ≠ some '/'
  noQuote : opened = false → (optional rooted '/' ++ (path ++ optional closed '"')).head? ≠ some '"'

/-- The end of an address, in front of what follows it. -/
def Address.close (a : Address) (after : List Char) : List Char :=
  optional a.closed '"' ++ ')' :: after

/-- What stands between the parentheses, with the closing one. -/
def Address.inside (a : Address) (after : List Char) : List Char :=
  optional a.opened '"' ++ (optional a.rooted '/' ++ (a.path ++ a.close after))

/-- The text of an address behind its colon, in front of what follows it. -/
def Address.behindColon (a : Address) (after : List Char) : List Char :=
  a.spaces ++ (optional a.quoted '\x27' ++ ("url(".toList ++ a.inside after))

theorem behindColon_eq_append (a : Address) (after : List Char) :
    a.behindColon after = a.behindColon [] ++ after := by
  simp [Address.behindColon, Address.inside, Address.close]

/-- A path as the address of a file, as the value of a style. -/
def fileUrl (base : String) (path : List Char) : List Char :=
  ": url('".toList ++ fileRoot base ++ path ++ "')".toList

/-! Each reader stops in front of what the next one takes. -/

theorem dropOne_behindColon (a : Address) (after : List Char) :
    dropOne '\x27' ((a.behindColon after).dropWhile (· == ' ')) =
      "url(".toList ++ a.inside after := by
  have spaces : (a.behindColon after).dropWhile (· == ' ') =
      optional a.quoted '\x27' ++ ("url(".toList ++ a.inside after) := by
    rw [Address.behindColon, List.dropWhile_append_of_pos a.areSpaces]
    cases a.quoted <;> simp [optional]
  rw [spaces]
  exact dropOne_optional fun _ => by simp

theorem dropOne_inside (a : Address) (after : List Char) :
    dropOne '/' (dropOne '"' (a.inside after)) = a.path ++ a.close after := by
  have mark {cs : List Char} {c : Char} (absent : cs.head? ≠ some c) (other : c ≠ ')') :
      (cs ++ ')' :: after).head? ≠ some c := by
    cases cs with
    | nil => simpa using other.symm
    | cons d cs => exact absent
  rw [Address.inside, Address.close, dropOne_optional, dropOne_optional]
  · intro absent
    have noSlash : (a.path ++ optional a.closed '"').head? ≠ some '/' := by
      have first := a.noSlash absent
      cases path : a.path with
      | nil => cases a.closed <;> simp [optional]
      | cons c path => rwa [path] at first
    simpa using mark noSlash (by decide)
  · intro absent
    simpa using mark (a.noQuote absent) (by decide)

theorem path_close (a : Address) (after : List Char) :
    (a.path ++ a.close after).takeWhile isUrlChar = a.path ∧
      (a.path ++ a.close after).dropWhile isUrlChar = a.close after := by
  have other : ∀ c ∈ (a.close after).head?, isUrlChar c = false := by
    unfold Address.close
    cases a.closed
    · rintro c ⟨⟩
      decide
    · rintro c ⟨⟩
      decide
  exact ⟨Text.takeWhile_append_of_ends a.isPath other,
    Text.dropWhile_append_of_ends a.isPath other⟩

theorem urlStep_behindColon (base : String) (a : Address) (after : List Char) :
    urlStep base (':' :: a.behindColon after) =
      some (fileUrl base a.path, dropOne '\x27' after) := by
  have colon : afterPrefix? [':'] (':' :: a.behindColon after) = some (a.behindColon after) :=
    afterPrefix?_eq_some_iff.mpr rfl
  have word : afterPrefix? "url(".toList ("url(".toList ++ a.inside after) = some (a.inside after) :=
    afterPrefix?_eq_some_iff.mpr rfl
  have paren : dropOne '"' (a.close after) = ')' :: after := dropOne_optional fun _ => by simp
  have close : afterPrefix? [')'] (')' :: after) = some after := afterPrefix?_eq_some_iff.mpr rfl
  rw [urlStep, colon, Option.bind_some, dropOne_behindColon, word, Option.bind_some]
  dsimp only
  rw [dropOne_inside, (path_close a after).1, (path_close a after).2, paren, close]
  rfl

theorem exists_address_of_urlStep {base : String} {cs out rest : List Char}
    (applies : urlStep base cs = some (out, rest)) : ∃ (a : Address) (after : List Char),
      cs = ':' :: a.behindColon after ∧ out = fileUrl base a.path ∧ rest = dropOne '\x27' after := by
  obtain ⟨value, colon, applies⟩ := Option.bind_eq_some_iff.mp applies
  obtain ⟨inside, word, applies⟩ := Option.bind_eq_some_iff.mp applies
  obtain ⟨after, close, same⟩ := Option.map_eq_some_iff.mp applies
  obtain ⟨rfl, rfl⟩ := Prod.mk.inj same
  rw [afterPrefix?_eq_some_iff] at colon word close
  obtain ⟨quoted, outside, -⟩ := exists_optional '\x27' (value.dropWhile (· == ' '))
  obtain ⟨opened, opening, noQuote⟩ := exists_optional '"' inside
  obtain ⟨rooted, slash, noSlash⟩ := exists_optional '/' (dropOne '"' inside)
  obtain ⟨closed, closing, -⟩ :=
    exists_optional '"' ((dropOne '/' (dropOne '"' inside)).dropWhile isUrlChar)
  have spaces := List.takeWhile_append_dropWhile (p := (· == ' ')) (l := value)
  have path :=
    List.takeWhile_append_dropWhile (p := isUrlChar) (l := dropOne '/' (dropOne '"' inside))
  rw [closing, close] at path
  rw [← path] at slash
  rw [outside, word, opening, slash] at spaces
  refine ⟨{
    spaces := value.takeWhile (· == ' ')
    areSpaces := fun c isIn => List.mem_takeWhile_imp (p := (· == ' ')) isIn
    quoted, opened, rooted, closed
    path := (dropOne '/' (dropOne '"' inside)).takeWhile isUrlChar
    isPath := fun c isIn => List.mem_takeWhile_imp isIn
    noSlash := fun absent first => ?_
    noQuote := fun absent first => ?_ }, after, ?_, rfl, rfl⟩
  · rw [List.head?_takeWhile, Option.filter_eq_some_iff] at first
    exact noSlash absent first.1
  · obtain ⟨more, begins⟩ := List.head?_eq_some_iff.mp first
    refine noQuote absent ?_
    rw [slash, ← List.append_assoc _ (optional closed '"'), ← List.append_assoc, begins]
    rfl
  · exact colon.trans (congrArg (':' :: ·) spaces.symm)

/-- The rule applies exactly where an address is the value of a style. -/
theorem urlStep_eq_some_iff {base : String} {cs out rest : List Char} :
    urlStep base cs = some (out, rest) ↔ ∃ (a : Address) (after : List Char),
      cs = ':' :: a.behindColon after ∧ out = fileUrl base a.path ∧ rest = dropOne '\x27' after := by
  constructor
  · exact exists_address_of_urlStep
  · rintro ⟨a, after, rfl, rfl, rfl⟩
    exact urlStep_behindColon base a after

theorem urlRule_needs (base : String) : (urlRule base).Needs [':'] := by
  intro cs applies
  obtain ⟨⟨out, rest⟩, applies⟩ := Option.isSome_iff_exists.mp applies
  obtain ⟨a, after, rfl, -, -⟩ := urlStep_eq_some_iff.mp applies
  exact ⟨a.behindColon after, rfl⟩

/-! ## A second application -/

theorem colon_not_mem_behindColon (a : Address) : ':' ∉ a.behindColon [] := by
  have spaces : ':' ∉ a.spaces := fun isIn => absurd (a.areSpaces ':' isIn) (by decide)
  have path : ':' ∉ a.path := fun isIn => absurd (a.isPath ':' isIn) (by decide)
  have others (present : Bool) : ∀ c ∈ ['\x27', '"', '/'], ':' ∉ optional present c := by
    intro c isMark isIn
    rw [← mem_optional isIn] at isMark
    exact absurd isMark (by decide)
  simp only [List.forall_mem_cons] at others
  simp [Address.behindColon, Address.inside, Address.close, spaces, path, others]

/-- What is written without a colon has been there before. -/
theorem exists_of_replaceAll {base : String} {used rest : List Char} (noColon : ':' ∉ used)
    {cs : List Char} (written : (urlRule base).replaceAll cs = used ++ rest) :
    ∃ rest', cs = used ++ rest' := by
  induction used generalizing cs with
  | nil => exact ⟨cs, rfl⟩
  | cons c used ih =>
    rw [List.mem_cons, not_or] at noColon
    cases applies : (urlRule base).step cs with
    | some result =>
      obtain ⟨a, after, -, out, -⟩ := urlStep_eq_some_iff.mp applies
      rw [Rule.replaceAll_of_step applies, out] at written
      exact absurd (List.cons.inj written).1 noColon.1
    | none =>
      cases cs with
      | nil => simp at written
      | cons d cs =>
        rw [Rule.replaceAll_cons_of_none applies, List.cons_append, List.cons.injEq] at written
        obtain ⟨rest', rfl⟩ := ih noColon.2 written.2
        exact ⟨rest', by rw [written.1]; rfl⟩

/-- A colon behind which no address stands gets none by the rule. -/
theorem urlStep_replaceAll {base : String} {cs : List Char} (idle : urlStep base (':' :: cs) = none) :
    urlStep base (':' :: (urlRule base).replaceAll cs) = none := by
  refine Option.eq_none_iff_forall_ne_some.mpr ?_
  rintro ⟨out, rest⟩ applies
  obtain ⟨a, after, written, -, -⟩ := urlStep_eq_some_iff.mp applies
  rw [List.cons.injEq, behindColon_eq_append] at written
  obtain ⟨after', rfl⟩ := exists_of_replaceAll (colon_not_mem_behindColon a) written.2
  rw [← behindColon_eq_append, urlStep_behindColon] at idle
  cases idle

/-- No address stands behind a colon if no `url(` begins before a mark that no address has there. -/
theorem urlStep_of_mark {base : String} {cs : List Char} (noUrl : ¬ "url(".toList <:+: cs) {d : Char}
    (mark : d ∉ " '".toList ++ "url(".toList) (after : List Char) :
    urlStep base (':' :: (cs ++ d :: after)) = none := by
  have other : d ≠ ' ' ∧ d ≠ '\x27' ∧ d ∉ "url(".toList := by
    rw [List.mem_append, not_or] at mark
    simpa [and_assoc] using mark
  -- What is skipped leaves an end of the text before the mark.
  have skipped : ∃ behind, behind <:+ cs ∧
      dropOne '\x27' ((cs ++ d :: after).dropWhile (· == ' ')) = behind ++ d :: after := by
    have spaces : (cs ++ d :: after).dropWhile (· == ' ') =
        cs.dropWhile (· == ' ') ++ d :: after := by
      rw [List.dropWhile_append]
      split
      · rename_i empty
        rw [List.isEmpty_iff.mp empty, List.nil_append, List.dropWhile_cons_of_neg (by simp [other])]
      · rfl
    have suffix := List.dropWhile_suffix (l := cs) (· == ' ')
    rw [spaces]
    cases rest : cs.dropWhile (· == ' ') with
    | nil => exact ⟨[], List.nil_suffix, by simp [dropOne, other]⟩
    | cons e rest' =>
      rw [rest] at suffix
      by_cases quote : e = '\x27'
      · exact ⟨rest', (List.suffix_cons e rest').trans suffix, by simp [dropOne, quote]⟩
      · exact ⟨e :: rest', suffix, by simp [dropOne, quote]⟩
  obtain ⟨behind, suffix, skipped⟩ := skipped
  refine Option.eq_none_iff_forall_ne_some.mpr fun result applies => ?_
  obtain ⟨value, colon, applies⟩ := Option.bind_eq_some_iff.mp applies
  obtain ⟨inside, word, -⟩ := Option.bind_eq_some_iff.mp applies
  rw [afterPrefix?_eq_some_iff] at colon word
  obtain rfl := (List.cons.inj colon).2
  rw [skipped] at word
  obtain ⟨more, rfl, -⟩ := exists_of_append_cons word other.2.2
  exact noUrl ((List.prefix_append _ more).isInfix.trans suffix.isInfix)

theorem idle_cons_of_ne {base : String} {c : Char} {cs : List Char} (other : c ≠ ':')
    (idle : (urlRule base).Idle cs) : (urlRule base).Idle (c :: cs) :=
  Rule.idle_cons_iff.mpr ⟨Rule.step_cons_of_ne (urlRule_needs base) other cs, idle⟩

theorem idle_append_of_noColon {base : String} {front cs : List Char} (noColon : ':' ∉ front)
    (idle : (urlRule base).Idle cs) : (urlRule base).Idle (front ++ cs) := by
  induction front with
  | nil => exact idle
  | cons c front ih =>
    rw [List.mem_cons, not_or] at noColon
    exact idle_cons_of_ne (Ne.symm noColon.1) (ih noColon.2)

theorem idle_append_of_mark {base : String} {front : List Char} (noUrl : ¬ "url(".toList <:+: front)
    {d : Char} (mark : d ∉ " '".toList ++ "url(".toList) {after : List Char}
    (idle : (urlRule base).Idle (d :: after)) : (urlRule base).Idle (front ++ d :: after) := by
  induction front with
  | nil => exact idle
  | cons c front ih =>
    have noUrl : ¬ "url(".toList <:+: front := fun within =>
      noUrl (within.trans (List.suffix_cons c front).isInfix)
    by_cases colon : c = ':'
    · rw [colon]
      exact Rule.idle_cons_iff.mpr ⟨urlStep_of_mark noUrl mark after, ih noUrl⟩
    · exact idle_cons_of_ne colon (ih noUrl)

/-- The address of a file is none that the rule applies to. -/
theorem idle_fileUrl {base : String} (noUrl : ¬ "url(".toList <:+: base.toList) (a : Address)
    {cs : List Char} (idle : (urlRule base).Idle cs) :
    (urlRule base).Idle (fileUrl base a.path ++ cs) := by
  have noPath : ':' ∉ a.path := fun isIn => absurd (a.isPath ':' isIn) (by decide)
  have text : fileUrl base a.path ++ cs = ':' :: (" url('".toList ++
      (("file://".toList ++ base.toList) ++ '/' :: (a.path ++ ("')".toList ++ cs)))) := by
    have begins : ": url('".toList = ':' :: " url('".toList := by decide
    unfold fileUrl fileRoot
    rw [begins]
    simp only [List.append_assoc, List.cons_append, List.nil_append]
  have first (rest : List Char) :
      (urlRule base).step (':' :: (" url('".toList ++ rest)) = none := by
    have quote : isUrlChar '\x27' = false := by decide
    simp [urlRule, urlStep, afterPrefix?, dropOne, quote]
  -- An address could only stand in the base.
  have noRoot : ¬ "url(".toList <:+: "file://".toList ++ base.toList := by
    rintro ⟨front, back, within⟩
    rw [List.append_assoc] at within
    obtain ⟨more, -, inBase⟩ :=
      @exists_of_append_cons 'u' front _ "file://".toList _ within (by decide)
    exact noUrl ⟨more, back, by rw [inBase, List.append_assoc]; rfl⟩
  have path : (urlRule base).Idle ('/' :: (a.path ++ ("')".toList ++ cs))) :=
    idle_cons_of_ne (by decide)
      (idle_append_of_noColon noPath (idle_append_of_noColon (by decide) idle))
  have root : (urlRule base).Idle (" url('".toList ++
      (("file://".toList ++ base.toList) ++ '/' :: (a.path ++ ("')".toList ++ cs)))) :=
    idle_append_of_noColon (by decide) (idle_append_of_mark noRoot (by decide) path)
  rw [text]
  exact Rule.idle_cons_iff.mpr ⟨first _, root⟩

/-- Where the rule has been applied, it applies nowhere any more. -/
theorem idle_replaceAll {base : String} (noUrl : ¬ "url(".toList <:+: base.toList)
    (cs : List Char) : (urlRule base).Idle ((urlRule base).replaceAll cs) := by
  fun_induction (urlRule base).replaceAll cs with
  | case1 cs out rest applies ih =>
    obtain ⟨a, after, -, rfl, -⟩ := urlStep_eq_some_iff.mp applies
    exact idle_fileUrl noUrl a ih
  | case2 idle => exact Rule.idle_nil
  | case3 c rest idle ih =>
    by_cases colon : c = ':'
    · subst colon
      exact Rule.idle_cons_iff.mpr ⟨urlStep_replaceAll idle, ih⟩
    · exact idle_cons_of_ne colon ih

/-- A second application changes nothing. -/
theorem relocateUrls_relocateUrls {base : String} (noUrl : ¬ "url(".toList <:+: base.toList)
    (css : String) : relocateUrls (relocateUrls css base) base = relocateUrls css base := by
  have idle := idle_replaceAll noUrl css.toList
  simp only [relocateUrls, Rule.apply, String.toList_ofList, Rule.replaceAll_of_idle idle]

theorem relocateUrls_relocateUrls_of_twoUrls : ¬ "url(".toList <:+: "C: url/$1".toList ∧
    relocateUrls (relocateUrls "a::url(/b.png)'x:'url(\"c\")" "C: url/$1") "C: url/$1" =
      relocateUrls "a::url(/b.png)'x:'url(\"c\")" "C: url/$1" := by
  have noUrl : ¬ "url(".toList <:+: "C: url/$1".toList := by decide
  exact ⟨noUrl, relocateUrls_relocateUrls noUrl _⟩

/-! ## Which paths are reached -/

/-- The characters of a path of a server, as far as they are ASCII. -/
def isPathChar (c : Char) : Bool := c.isAlphanum || c ∈ ['/', '.', '_', '-']

/-- A path as the value of a style, in double quotes or not. -/
def pathUrl (quoted : Bool) (path : List Char) : List Char :=
  ':' :: ' ' :: ("url(".toList ++ (optional quoted '"' ++ (path ++ (optional quoted '"' ++ [')']))))

theorem isUrlChar_of_isPathChar {c : Char} (isPath : isPathChar c = true) (noHyphen : c ≠ '-') :
    isUrlChar c = true := by
  have ascii : ∀ n < 128, isPathChar (Char.ofNat n) = true → Char.ofNat n ≠ '-' →
      isUrlChar (Char.ofNat n) = true := by
    decide +kernel
  have small : c.toNat < 128 := by
    rw [isPathChar, Bool.or_eq_true, decide_eq_true_eq] at isPath
    rcases isPath with alphanumeric | mark
    · have := bounds_of_isAlphanum alphanumeric
      omega
    · have marks : ∀ c ∈ ['/', '.', '_', '-'], c.toNat < 128 := forall_mem_of_all (by decide)
      exact marks c mark
  have here := ascii c.toNat small
  rw [Char.ofNat_toNat] at here
  exact here isPath noHyphen

section
variable {path : List Char} (isPath : ∀ c ∈ path, isPathChar c = true) (quoted : Bool)
include isPath

/-- The address that a path without a hyphen is. -/
theorem exists_address_of_path (noHyphen : '-' ∉ path) :
    ∃ a : Address, pathUrl quoted path = ':' :: a.behindColon [] ∧ a.path = dropOne '/' path := by
  obtain ⟨rooted, slash, noSlash⟩ := exists_optional '/' path
  have isUrl : ∀ c ∈ dropOne '/' path, isUrlChar c = true := by
    intro c isIn
    have isIn : c ∈ path := by
      rw [slash]
      exact List.mem_append_right _ isIn
    exact isUrlChar_of_isPathChar (isPath c isIn) fun same => noHyphen (same ▸ isIn)
  refine ⟨{
    spaces := [' ']
    areSpaces := List.forall_mem_singleton.mpr rfl
    quoted := false
    opened := quoted
    rooted
    path := dropOne '/' path
    isPath := isUrl
    closed := quoted
    noSlash
    noQuote := fun absent first => ?_ }, ?_, rfl⟩
  · have nothing : optional quoted '"' = [] := by
      rw [absent]
      rfl
    rw [nothing, List.append_nil, ← slash] at first
    exact absurd (isPath '"' (List.mem_of_head? first)) (by decide)
  · simp only [Address.behindColon, Address.inside, Address.close]
    rw [← List.append_assoc (optional rooted '/'), ← slash]
    rfl

/-- What is read for the path ends before a hyphen, where no address ends. -/
theorem urlStep_of_hyphen (hyphen : '-' ∈ path) (base : String) :
    urlStep base (pathUrl quoted path) = none := by
  obtain ⟨rooted, slash, noSlash⟩ := exists_optional '/' path
  have behindSlash : '-' ∈ dropOne '/' path := by
    rw [slash, List.mem_append] at hyphen
    exact hyphen.resolve_left fun isIn => absurd (mem_optional isIn) (by decide)
  obtain ⟨front, back, parted, noHyphen⟩ := List.eq_append_cons_of_mem behindSlash
  have isUrl : ∀ c ∈ front, isUrlChar c = true := by
    intro c isIn
    have inPath : c ∈ path := by
      rw [slash, parted]
      simp [isIn]
    exact isUrlChar_of_isPathChar (isPath c inPath) fun same => noHyphen (same ▸ isIn)
  rw [parted] at slash noSlash
  have notQuote : path.head? ≠ some '"' := fun first =>
    absurd (isPath '"' (List.mem_of_head? first)) (by decide)
  have opening (rest : List Char) :
      dropOne '"' (optional quoted '"' ++ (path ++ rest)) = path ++ rest := by
    refine dropOne_optional fun _ => ?_
    rw [List.head?_append_of_ne_nil _ (List.ne_nil_of_mem hyphen)]
    exact notQuote
  have root (rest : List Char) : dropOne '/' (path ++ rest) = front ++ '-' :: (back ++ rest) := by
    rw [slash, List.append_assoc, dropOne_optional]
    · simp
    · intro absent
      rw [List.head?_append_of_ne_nil _ (by simp)]
      exact noSlash absent
  have other : isUrlChar '-' = false := by decide
  simp [urlStep, pathUrl, afterPrefix?, dropOne_cons, opening, root,
    List.dropWhile_append_of_pos isUrl, other]

theorem colon_not_mem_path : ':' ∉ optional quoted '"' ++ (path ++ (optional quoted '"' ++ [')'])) := by
  have noQuote : ':' ∉ optional quoted '"' := fun isIn => absurd (mem_optional isIn) (by decide)
  have noPath : ':' ∉ path := fun isIn => absurd (isPath ':' isIn) (by decide)
  simp [noQuote, noPath]

theorem replaceAll_pathUrl {front : List Char} (noColon : ':' ∉ front) (base : String) :
    (urlRule base).replaceAll (front ++ pathUrl quoted path) =
      front ++ if '-' ∈ path then pathUrl quoted path else fileUrl base (dropOne '/' path) := by
  rw [Rule.replaceAll_append_of_not_mem (urlRule_needs base) noColon]
  split
  · rename_i hyphen
    have noColon : ':' ∉ ' ' :: ("url(".toList ++
        (optional quoted '"' ++ (path ++ (optional quoted '"' ++ [')'])))) := by
      have inside := colon_not_mem_path isPath quoted
      simp only [List.mem_cons, List.mem_append, not_or] at inside ⊢
      exact ⟨by decide, by decide, inside⟩
    have rest := Rule.replaceAll_append_of_not_mem (urlRule_needs base) noColon []
    rw [List.append_nil, Rule.replaceAll_nil, List.append_nil] at rest
    have idle : (urlRule base).step (pathUrl quoted path) = none :=
      urlStep_of_hyphen isPath quoted hyphen base
    rw [pathUrl, Rule.replaceAll_cons_of_none idle, rest]
  · rename_i noHyphen
    obtain ⟨a, text, path_eq⟩ := exists_address_of_path isPath quoted noHyphen
    have applies : (urlRule base).step (':' :: a.behindColon []) = some (fileUrl base a.path, []) :=
      urlStep_behindColon base a []
    rw [text, Rule.replaceAll_of_step applies, path_eq, Rule.replaceAll_nil, List.append_nil]

/-- A path of ASCII characters becomes the address of a file exactly if it has no hyphen. -/
theorem relocateUrls_pathUrl_iff {front : List Char} (noColon : ':' ∉ front) (base : String) :
    relocateUrls (String.ofList (front ++ pathUrl quoted path)) base =
        String.ofList (front ++ fileUrl base (dropOne '/' path)) ↔ '-' ∉ path := by
  rw [relocateUrls, Rule.apply, String.toList_ofList, String.ofList_inj,
    replaceAll_pathUrl isPath quoted noColon, List.append_cancel_left_eq]
  constructor
  · intro same hyphen
    rw [if_pos hyphen] at same
    -- Only the address of a file has a single quote behind its parenthesis.
    have begins : ": url('".toList = ':' :: ' ' :: ("url(".toList ++ ['\x27']) := by decide
    unfold fileUrl at same
    rw [pathUrl, begins] at same
    simp only [List.cons_append, List.append_assoc, List.cons.injEq, true_and,
      List.append_cancel_left_eq] at same
    have quote : '\x27' ∈ optional quoted '"' ++ (path ++ (optional quoted '"' ++ [')'])) := by
      rw [same]
      exact List.mem_cons_self
    rw [List.mem_append, List.mem_append, List.mem_append, List.mem_singleton] at quote
    rcases quote with isIn | isIn | isIn | isIn
    · exact absurd (mem_optional isIn) (by decide)
    · exact absurd (isPath _ isIn) (by decide)
    · exact absurd (mem_optional isIn) (by decide)
    · exact absurd isIn (by decide)
  · intro noHyphen
    exact if_neg noHyphen

end

theorem relocateUrls_pathUrl_of_root : ':' ∉ "a".toList ∧
    (∀ c ∈ "/img/bg_1.png".toList, isPathChar c = true) ∧
    relocateUrls "a: url(\"/img/bg_1.png\")" "/pub" = "a: url('file:///pub/img/bg_1.png')" := by
  have noColon : ':' ∉ "a".toList := by decide
  have isPath : ∀ c ∈ "/img/bg_1.png".toList, isPathChar c = true :=
    forall_mem_of_all (by decide)
  exact ⟨noColon, isPath, (relocateUrls_pathUrl_iff isPath true noColon "/pub").mpr (by decide)⟩

/-- A hyphen in the name of a file keeps its address as it was. -/
theorem relocateUrls_hyphen : relocateUrls "a: url(b-c.png)" "/pub" = "a: url(b-c.png)" ∧
    relocateUrls "a: url(b-c.png)" "/pub" ≠ "a: url('file:///pub/b-c.png')" := by
  have isPath : ∀ c ∈ "b-c.png".toList, isPathChar c = true := forall_mem_of_all (by decide)
  have noColon : ':' ∉ "a".toList := by decide
  have kept : relocateUrls "a: url(b-c.png)" "/pub" = "a: url(b-c.png)" :=
    congrArg String.ofList (replaceAll_pathUrl isPath false noColon "/pub")
  exact ⟨kept, by rw [kept]; decide⟩

end SnapshotPreview.Markup

import Mathlib.Data.List.Infix
import Mathlib.Data.Set.List
import SnapshotPreview.Lens
import SnapshotPreview.Proofs.BracketPairs

/-!
# Where calls open

Anchors are found by trying the identifiers at every character of the part of each line that is
looked at, and going on behind what was found. As long as no identifier has a parenthesis in it, that
comes to this: an anchor stands at every parenthesis with an identifier and white space before it, in
the order of the text (`anchors_eq_openings`). Its caret is behind ASCII white space and an opening
quote, if there is one (`argumentOffset_eq`).
-/

namespace SnapshotPreview.Lens

open Text (byteLength byte bytesOf encode)

/-! ## The part of a line that is looked at -/

theorem takeBytes_prefix (limit : Nat) (cs : List Char) : takeBytes limit cs <+: cs := by
  induction cs generalizing limit with
  | nil => exact List.nil_prefix
  | cons c rest ih =>
    rw [takeBytes]
    split
    · exact (List.prefix_cons_inj c).mpr (ih _)
    · exact List.nil_prefix

/-- As many characters as fit, and no more fit. -/
theorem takeBytes_eq_iff {limit : Nat} {cs part : List Char} :
    takeBytes limit cs = part ↔ ∃ rest, cs = part ++ rest ∧ byteLength part ≤ limit ∧
      ∀ c, rest.head? = some c → limit < byteLength part + c.utf8Size := by
  constructor
  · rintro rfl
    induction cs generalizing limit with
    | nil => exact ⟨[], rfl, Nat.zero_le _, by simp⟩
    | cons c cs ih =>
      rw [takeBytes]
      by_cases fits : c.utf8Size ≤ limit
      · obtain ⟨rest, parts, within, full⟩ := @ih (limit - c.utf8Size)
        rw [if_pos fits]
        refine ⟨rest, by rw [List.cons_append, ← parts], ?_, ?_⟩
        · rw [byteLength]
          omega
        · intro d first
          have := full d first
          rw [byteLength]
          omega
      · rw [if_neg fits]
        refine ⟨c :: cs, rfl, Nat.zero_le _, ?_⟩
        intro d first
        cases first
        rw [byteLength]
        omega
  · rintro ⟨rest, rfl, within, full⟩
    induction part generalizing limit with
    | nil =>
      cases rest with
      | nil => rfl
      | cons c rest =>
        have beyond := full c rfl
        rw [byteLength] at beyond
        exact if_neg (by omega)
    | cons c part ih =>
      rw [byteLength] at within
      rw [List.cons_append, takeBytes, if_pos (by omega), ih (by omega)]
      intro d first
      have := full d first
      rw [byteLength] at this
      omega

/-! ## Openings in a line -/

section
variable {idents : List (List Char)}

/-- Before what follows an opening stand an identifier, white space and a parenthesis. -/
theorem parts_of_afterOpening? {cs rest : List Char}
    (found : afterOpening? idents cs = some rest) :
    ∃ ident ∈ idents, ∃ run, (∀ c ∈ run, Text.isBlank c = true) ∧
      cs = ident ++ run ++ '(' :: rest := by
  obtain ⟨ident, isIdent, found⟩ := List.exists_of_findSome?_eq_some found
  refine ⟨ident, isIdent, ?_⟩
  split at found
  · rename_i tail taken
    split at found
    · rename_i rest' stops
      cases found
      refine ⟨tail.takeWhile Text.isBlank, List.all_eq_true.mp List.all_takeWhile, ?_⟩
      rw [Text.afterPrefix?_eq_some_iff.mp taken, List.append_assoc, ← stops,
        List.takeWhile_append_dropWhile]
    · cases found
  · cases found

theorem parts_of_mem_openings {cs rest : List Char}
    (isIn : rest ∈ openings idents cs) :
    ∃ front, ∃ ident ∈ idents, ∃ run, (∀ c ∈ run, Text.isBlank c = true) ∧
      cs = front ++ ident ++ run ++ '(' :: rest := by
  fun_induction openings idents cs with
  | case1 cs found first ih =>
    obtain ⟨ident, isIdent, run, blank, parts⟩ := parts_of_afterOpening? first
    rcases List.mem_cons.mp isIn with rfl | later
    · exact ⟨[], ident, isIdent, run, blank, parts⟩
    · obtain ⟨front, ident', isIdent', run', blank', parts'⟩ := ih later
      refine ⟨ident ++ run ++ '(' :: front, ident', isIdent', run', blank', ?_⟩
      rw [parts, parts']
      simp
  | case2 => cases isIn
  | case3 c cs first ih =>
    obtain ⟨front, ident, isIdent, run, blank, parts⟩ := ih isIn
    exact ⟨c :: front, ident, isIdent, run, blank, by rw [parts]; simp⟩

theorem isSome_afterOpening? {ident gap : List Char} (known : ident ∈ idents)
    (blank : ∀ c ∈ gap, Text.isBlank c = true) (rest : List Char) :
    (afterOpening? idents (ident ++ gap ++ '(' :: rest)).isSome = true := by
  have found : Text.afterPrefix? ident (ident ++ gap ++ '(' :: rest) = some (gap ++ '(' :: rest) :=
    Text.afterPrefix?_eq_some_iff.mpr (List.append_assoc _ _ _)
  have paren : (gap ++ '(' :: rest).dropWhile Text.isBlank = '(' :: rest := by
    rw [List.dropWhile_append_of_pos blank, List.dropWhile_cons_of_neg (by decide)]
  rw [afterOpening?, List.findSome?_isSome_iff]
  refine ⟨ident, known, ?_⟩
  simp only [found, paren, Option.isSome_some]

/-- What stands behind a parenthesis with an identifier and white space before it is found, even if
other openings are found first. -/
theorem mem_openings_of_parts (noParen : ∀ ident ∈ idents, '(' ∉ ident)
    {cs front ident gap rest : List Char}
    (known : ident ∈ idents) (blank : ∀ c ∈ gap, Text.isBlank c = true)
    (parts : cs = front ++ (ident ++ gap ++ '(' :: rest)) : rest ∈ openings idents cs := by
  have noParenIn {word spaces : List Char} (isIdent : word ∈ idents)
      (isBlank : ∀ c ∈ spaces, Text.isBlank c = true) : '(' ∉ word ++ spaces := by
    intro isIn
    rcases List.mem_append.mp isIn with inWord | inSpaces
    · exact noParen word isIdent inWord
    · exact absurd (isBlank _ inSpaces) (by decide)
  fun_induction openings idents cs generalizing front with
  | case1 cs found first ih =>
    obtain ⟨word, isWord, spaces, isBlank, parts'⟩ := parts_of_afterOpening? first
    -- What is found first ends at the first parenthesis, which may be ours or stand before it.
    have first := congrArg (List.dropWhile (· != '(')) (parts.symm.trans parts')
    rw [Text.dropWhile_bne_append (noParenIn isWord isBlank)] at first
    by_cases earlier : '(' ∈ front
    · obtain ⟨start, more, rfl, noParenStart⟩ := List.eq_append_cons_of_mem earlier
      rw [List.append_assoc, List.cons_append, Text.dropWhile_bne_append noParenStart] at first
      exact List.mem_cons_of_mem _ (ih (List.cons.inj first).2.symm)
    · have noParenHead : '(' ∉ front ++ (ident ++ gap) := by
        rw [List.mem_append, not_or]
        exact ⟨earlier, noParenIn known blank⟩
      rw [← List.append_assoc, Text.dropWhile_bne_append noParenHead] at first
      rw [(List.cons.inj first).2]
      exact List.mem_cons_self
  | case2 none =>
    simp at parts
  | case3 c cs none ih =>
    cases front with
    | nil =>
      have found := isSome_afterOpening? known blank rest
      rw [List.nil_append] at parts
      rw [← parts, none] at found
      cases found
    | cons d front =>
      rw [List.cons_append] at parts
      exact ih (List.cons.inj parts).2

/-- From left to right, less and less of the line is left. -/
theorem openings_shrink (cs : List Char) :
    (openings idents cs).Pairwise fun first later => byteLength later < byteLength first := by
  fun_induction openings idents cs with
  | case1 cs rest first ih =>
    refine List.pairwise_cons.mpr ⟨?_, ih⟩
    intro later isIn
    obtain ⟨front, ident, -, run, -, parts⟩ := parts_of_mem_openings isIn
    rw [parts, Text.byteLength_append, byteLength]
    have := Char.utf8Size_pos '('
    omega
  | case2 => exact List.Pairwise.nil
  | case3 c cs none ih => exact ih

end

/-! ## First arguments -/

/-- A quote that may open a literal. -/
def isQuote (c : Char) : Bool := c = '\x27' || c = '"' || c = '\x60'

/-- The first argument begins behind white space, and behind a quote if one follows. -/
theorem argumentOffset_eq {s : String} {front rest : List Char} (parts : s.toList = front ++ rest) :
    argumentOffset (bytesOf s) (byteLength front) =
      byteLength front + Text.byteLength (rest.takeWhile Text.isSpace) +
        if (rest.dropWhile Text.isSpace).head?.any isQuote then 1 else 0 := by
  have behind : (bytesOf s).toList.drop (byteLength front) = Text.encode rest := by
    rw [Text.toList_bytesOf, parts, Text.encode_append,
      List.drop_left' (Text.length_encode front)]
  have width : ((Text.encode rest).takeWhile Text.isSpaceByte).length =
      Text.byteLength (rest.takeWhile Text.isSpace) := by
    rw [Text.takeWhile_isSpaceByte_encode, Text.length_encode]
  have here : (bytesOf s)[byteLength front +
      Text.byteLength (rest.takeWhile Text.isSpace)]? =
        (Text.encode (rest.dropWhile Text.isSpace)).head? := by
    rw [← Text.byteLength_append, ← Array.getElem?_toList, Text.toList_bytesOf, parts,
      ← List.takeWhile_append_dropWhile (p := Text.isSpace) (l := rest), ← List.append_assoc,
      Text.encode_append, ← Text.length_encode, List.takeWhile_append_dropWhile,
      List.getElem?_append_right (Nat.le_refl _), Nat.sub_self, List.head?_eq_getElem?]
  simp only [argumentOffset, behind, width, here]
  cases onward : rest.dropWhile Text.isSpace with
  | nil => rfl
  | cons c more =>
    obtain ⟨lead, tail, bytes⟩ := List.exists_cons_of_ne_nil (String.utf8EncodeChar_ne_nil (c := c))
    have isByte : lead ∈ String.utf8EncodeChar c := by rw [bytes]; exact List.mem_cons_self
    have same : (lead = Text.byte '\x27' || lead = Text.byte '"' || lead = Text.byte '\x60') =
        isQuote c := by
      rw [isQuote, decide_eq_decide.mpr (Text.eq_byte_iff isByte (show '\x27'.toNat < 128 by decide)),
        decide_eq_decide.mpr (Text.eq_byte_iff isByte (show '"'.toNat < 128 by decide)),
        decide_eq_decide.mpr (Text.eq_byte_iff isByte (show '\x60'.toNat < 128 by decide))]
    rw [Text.encode_cons, bytes, List.cons_append, List.head?_cons, List.head?_cons, Option.any_some]
    dsimp only
    rw [same]
    cases isQuote c
    · rfl
    · rfl

/-! ## Openings in a text -/

/-- A place in a text where a call opens: a parenthesis in the part of its line that is looked at,
behind an identifier and white space. -/
structure Opening (s : String) (idents : List String) where
  /-- The lines above, with their line ends. -/
  above : List Char
  front : List Char
  ident : String
  gap : List Char
  /-- What is looked at behind the parenthesis. -/
  seen : List Char
  /-- The rest of the line. -/
  unseen : List Char
  below : List Char
  parts : s.toList = above ++ (front ++ ident.toList ++ gap ++ '(' :: (seen ++ unseen)) ++ below
  known : ident ∈ idents
  blank : ∀ c ∈ gap, Text.isBlank c = true
  begins : above = [] ∨ above.getLast? = some '\n'
  oneLine : '\n' ∉ front ++ ident.toList ++ gap ++ '(' :: (seen ++ unseen)
  ends : below = [] ∨ below.head? = some '\n'
  within : byteLength (front ++ ident.toList ++ gap ++ '(' :: seen) ≤ scannedBytes
  full : ∀ c, unseen.head? = some c →
    scannedBytes < byteLength (front ++ ident.toList ++ gap ++ '(' :: seen) + c.utf8Size

/-- Whether so many more parentheses are closed than opened. -/
def closesBy (excess : Nat) (cs : List Char) : Bool := cs.count ')' == cs.count '(' + excess

namespace Opening

variable {s : String} {idents : List String} (o : Opening s idents)

/-- The line up to the parenthesis. -/
def head : List Char := o.front ++ o.ident.toList ++ o.gap

/-- The text behind the parenthesis. -/
def after : List Char := o.seen ++ o.unseen ++ o.below

/-- The position of the parenthesis. -/
def paren : Nat := byteLength (o.above ++ o.head)

/-- The anchor that stands there. -/
def lens (kind : CallKind) : Lens where
  kind := kind
  line := o.above.count '\n'
  firstColumn := byteLength o.head + 1
  lastColumn := byteLength o.head + 1 + byteLength o.seen
  offset := o.paren + 1 + byteLength (o.after.takeWhile Text.isSpace) +
    if (o.after.dropWhile Text.isSpace).head?.any isQuote then 1 else 0

/-- The text of the call from its parenthesis to where one more has been closed than opened behind
it, or to the end. -/
def arguments : List Char := '(' :: (o.after.inits.find? (closesBy 1)).getD o.after

theorem split : s.toList = (o.above ++ o.head) ++ '(' :: o.after := by
  rw [o.parts, head, after]
  simp

theorem oneByte : byteLength ['('] = 1 := rfl

theorem width : byteLength (o.head ++ '(' :: o.seen) = byteLength o.head + 1 + byteLength o.seen := by
  rw [List.append_cons, Text.byteLength_append, Text.byteLength_append, oneByte]

theorem takeBytes_line :
    takeBytes scannedBytes (o.head ++ '(' :: (o.seen ++ o.unseen)) = o.head ++ '(' :: o.seen :=
  takeBytes_eq_iff.mpr ⟨o.unseen, by simp, o.within, o.full⟩

end Opening

/-! ## The anchors of a text -/

theorem mem_ofLines_iff {text : Array UInt8} {kind : CallKind} {idents : List (List Char)}
    {line start : Nat} {lines : List (List Char)} {anchor : Lens × Nat} :
    anchor ∈ ofLines text kind idents line start lines ↔
      ∃ before content after, lines = before ++ content :: after ∧
        anchor ∈ ofLine text kind idents (line + before.length)
          (start + byteLength (Text.terminated '\n' before)) content := by
  induction lines generalizing line start with
  | nil => simp [ofLines]
  | cons first lines ih =>
    have width (before : List (List Char)) : byteLength (Text.terminated '\n' (first :: before)) =
        byteLength first + 1 + byteLength (Text.terminated '\n' before) := by
      change byteLength (first ++ ['\n'] ++ Text.terminated '\n' before) = _
      rw [Text.byteLength_append, Text.byteLength_append]
      rfl
    rw [ofLines, List.mem_append, ih]
    constructor
    · rintro (here | ⟨before, content, after, rfl, later⟩)
      · exact ⟨[], first, lines, rfl, here⟩
      · refine ⟨first :: before, content, after, rfl, ?_⟩
        rw [width, List.length_cons, show line + (before.length + 1) = line + 1 + before.length by omega,
          ← Nat.add_assoc, ← Nat.add_assoc]
        exact later
    · rintro ⟨before, content, after, parts, isIn⟩
      cases before with
      | nil =>
        cases parts
        exact .inl isIn
      | cons _ before =>
        cases parts
        refine .inr ⟨before, content, after, rfl, ?_⟩
        rw [width, List.length_cons, show line + (before.length + 1) = line + 1 + before.length by omega,
          ← Nat.add_assoc, ← Nat.add_assoc] at isIn
        exact isIn

/-- The parenthesis of an anchor stands in its line. -/
theorem paren_of_mem_ofLine {text : Array UInt8} {kind : CallKind} {idents : List (List Char)}
    {line start : Nat} {content : List Char} {anchor : Lens × Nat}
    (isIn : anchor ∈ ofLine text kind idents line start content) :
    start ≤ anchor.2 ∧ anchor.2 < start + byteLength content := by
  obtain ⟨rest, isOpening, rfl⟩ := List.mem_map.mp isIn
  obtain ⟨front, ident, -, run, -, parts⟩ := parts_of_mem_openings isOpening
  obtain ⟨more, whole⟩ := takeBytes_prefix scannedBytes content
  have scanned : byteLength (takeBytes scannedBytes content) =
      byteLength (front ++ ident ++ run) + 1 + byteLength rest := by
    rw [parts, List.append_cons, Text.byteLength_append, Text.byteLength_append]
    rfl
  have length : byteLength content =
      byteLength (takeBytes scannedBytes content) + byteLength more := by
    rw [← Text.byteLength_append, whole]
  constructor
  · dsimp only
    omega
  · dsimp only
    omega

theorem ofLine_increases (text : Array UInt8) (kind : CallKind) (idents : List (List Char))
    (line start : Nat) (content : List Char) :
    (ofLine text kind idents line start content).Pairwise fun first later => first.2 < later.2 := by
  rw [ofLine, List.pairwise_map]
  refine List.Pairwise.imp_of_mem ?_ (openings_shrink (takeBytes scannedBytes content))
  intro first later isFirst _ shorter
  obtain ⟨front, ident, -, run, -, parts⟩ := parts_of_mem_openings isFirst
  have scanned : byteLength (takeBytes scannedBytes content) =
      byteLength (front ++ ident ++ run) + 1 + byteLength first := by
    rw [parts, List.append_cons, Text.byteLength_append, Text.byteLength_append]
    rfl
  dsimp only
  omega

theorem ofLines_increases (text : Array UInt8) (kind : CallKind) (idents : List (List Char))
    (line start : Nat) (lines : List (List Char)) :
    (ofLines text kind idents line start lines).Pairwise fun first later => first.2 < later.2 := by
  induction lines generalizing line start with
  | nil => exact List.Pairwise.nil
  | cons content lines ih =>
    refine List.pairwise_append.mpr ⟨ofLine_increases _ _ _ _ _ _, ih _ _, ?_⟩
    intro first isFirst later isLater
    obtain ⟨before, content', after, -, isLater⟩ := mem_ofLines_iff.mp isLater
    have := paren_of_mem_ofLine isFirst
    have := paren_of_mem_ofLine isLater
    omega

/-- The anchor behind whose parenthesis so much is left of the part of the line that is looked at. -/
def anchorBefore (text : Array UInt8) (kind : CallKind) (line start : Nat) (scanned rest : List Char) :
    Lens × Nat :=
  let column := byteLength scanned - byteLength rest
  ({ kind, line, firstColumn := column, lastColumn := byteLength scanned
     offset := argumentOffset text (start + column) }, start + column - 1)

theorem ofLine_eq (text : Array UInt8) (kind : CallKind) (idents : List (List Char))
    (line start : Nat) (content : List Char) :
    ofLine text kind idents line start content =
      (openings idents (takeBytes scannedBytes content)).map
        (anchorBefore text kind line start (takeBytes scannedBytes content)) := rfl

section
variable {s : String} {idents : List String}

theorem anchorBefore_seen (o : Opening s idents) (kind : CallKind) {before : List (List Char)}
    (absent : ∀ line ∈ before, '\n' ∉ line) (above : Text.terminated '\n' before = o.above) :
    anchorBefore (bytesOf s) kind before.length (byteLength o.above) (o.head ++ '(' :: o.seen) o.seen =
      (o.lens kind, o.paren) := by
  have column : byteLength (o.head ++ '(' :: o.seen) - byteLength o.seen = byteLength o.head + 1 := by
    rw [o.width, Nat.add_sub_cancel]
  have behind : byteLength o.above + (byteLength o.head + 1) = o.paren + 1 := by
    rw [Opening.paren, Text.byteLength_append, Nat.add_assoc]
  have front : byteLength (o.above ++ o.head ++ ['(']) = o.paren + 1 := by
    rw [Text.byteLength_append]
    rfl
  have parts : s.toList = (o.above ++ o.head ++ ['(']) ++ o.after := by
    rw [o.split, List.append_cons]
  have offset := argumentOffset_eq parts
  rw [front] at offset
  have line : o.above.count '\n' = before.length := by
    rw [← above, Text.count_terminated absent]
  unfold anchorBefore
  simp only [column, behind, offset, Nat.add_sub_cancel]
  rw [o.width, Opening.lens, line]

theorem exists_opening_of_mem {vocabulary : Vocabulary} {kind : CallKind} {anchor : Lens × Nat}
    (isIn : anchor ∈ anchors s vocabulary kind) :
    ∃ o : Opening s (vocabulary.identifiers kind), (o.lens kind, o.paren) = anchor := by
  obtain ⟨before, content, after, parted, isIn⟩ := mem_ofLines_iff.mp isIn
  have absent : ∀ line ∈ before ++ content :: after, '\n' ∉ line := by
    intro line isLine
    rw [← parted] at isLine
    exact Text.not_mem_of_mem_splitOn isLine
  obtain ⟨below, whole, ends⟩ := Text.exists_of_splitOn parted
  rw [ofLine_eq] at isIn
  obtain ⟨seen, isOpening, rfl⟩ := List.mem_map.mp isIn
  obtain ⟨front, word, isWord, gap, blank, parts⟩ := parts_of_mem_openings isOpening
  obtain ⟨ident, known, rfl⟩ := List.mem_map.mp isWord
  obtain ⟨unseen, line, within, full⟩ := takeBytes_eq_iff.mp parts
  rw [List.append_assoc, List.cons_append] at line
  subst line
  have begins : Text.terminated '\n' before = [] ∨
      (Text.terminated '\n' before).getLast? = some '\n' := by
    rcases List.eq_nil_or_concat before with rfl | ⟨first, last, rfl⟩
    · exact .inl rfl
    · exact .inr (by simp [Text.terminated])
  refine ⟨{ above := Text.terminated '\n' before, front, ident, gap, seen, unseen, below,
            parts := whole, known, blank, begins, oneLine := absent _ (by simp), ends, within, full },
    ?_⟩
  rw [Nat.zero_add, Nat.zero_add, parts]
  exact (anchorBefore_seen _ kind (fun line isLine => absent line (List.mem_append_left _ isLine))
    rfl).symm

theorem mem_anchors_of_opening {vocabulary : Vocabulary} {kind : CallKind}
    (noParen : ∀ ident ∈ vocabulary.identifiers kind, '(' ∉ ident.toList)
    (o : Opening s (vocabulary.identifiers kind)) :
    (o.lens kind, o.paren) ∈ anchors s vocabulary kind := by
  obtain ⟨before, after, parted, above⟩ :=
    Text.exists_splitOn_of_parts o.begins o.oneLine o.ends
  rw [← o.parts] at parted
  have absent : ∀ line ∈ before, '\n' ∉ line := by
    intro line isLine
    refine Text.not_mem_of_mem_splitOn (l := s.toList) ?_
    rw [parted]
    exact List.mem_append_left _ isLine
  refine mem_ofLines_iff.mpr ⟨before, _, after, parted, ?_⟩
  rw [ofLine_eq, Nat.zero_add, Nat.zero_add, above, ← anchorBefore_seen o kind absent above]
  have scanned := o.takeBytes_line
  rw [Opening.head] at scanned
  rw [scanned]
  refine List.mem_map_of_mem ?_
  refine @mem_openings_of_parts _ ?_ _ o.front _ _ _ (List.mem_map_of_mem o.known) o.blank (by simp)
  intro word isWord
  obtain ⟨ident, known, rfl⟩ := List.mem_map.mp isWord
  exact noParen ident known

end

/-! ## The text of a call -/

/-- Counting down from the parenthesis through the bytes of a text ends with its shortest beginning in
which so many more parentheses are closed than opened. -/
theorem length_find?_closesBy (cs : List Char) {depth : Nat} (positive : 0 < depth) :
    (cs.inits.find? (closesBy depth)).map (fun q => (encode q).length) =
      (Bracket.balance (byte ')') (byte '(') depth (encode cs)).map (· + 1) := by
  induction cs generalizing depth with
  | nil =>
    have notYet : closesBy depth [] = false := by simp [closesBy]; omega
    simp [notYet, Bracket.balance]
  | cons c cs ih =>
    have notYet : ¬ closesBy depth [] = true := by simp [closesBy]; omega
    rw [List.inits_cons, List.find?_cons_of_neg notYet, List.find?_map, Option.map_map]
    -- Where a character does not end the scan, both go on at the depth that it leaves.
    have goesOn {left : Nat} (more : 0 < left)
        (counts : ∀ q, closesBy depth (c :: q) = closesBy left q)
        (scan : Bracket.balance (byte ')') (byte '(') depth (encode (c :: cs)) =
          (Bracket.balance (byte ')') (byte '(') left (encode cs)).map
            ((String.utf8EncodeChar c).length + ·)) :
        (cs.inits.find? (closesBy depth ∘ fun q => c :: q)).map
            ((fun q => (encode q).length) ∘ fun q => c :: q) =
          (Bracket.balance (byte ')') (byte '(') depth (encode (c :: cs))).map (· + 1) := by
      have step : (closesBy depth ∘ fun q => c :: q) = closesBy left := funext counts
      have later := congrArg (Option.map ((String.utf8EncodeChar c).length + ·)) (ih more)
      rw [Option.map_map, Option.map_map] at later
      rw [step, scan, Option.map_map]
      refine Eq.trans ?_ (later.trans ?_)
      · simp only [Function.comp_def, Text.encode_cons, List.length_append]
      · rfl
    by_cases closes : c = ')'
    · subst closes
      have counts (q : List Char) : closesBy depth (')' :: q) = closesBy (depth - 1) q := by
        rw [Bool.eq_iff_iff]
        simp only [closesBy, List.count_cons_self, beq_iff_eq,
          List.count_cons_of_ne (show (')' : Char) ≠ '(' by decide)]
        omega
      by_cases last : depth ≤ 1
      · have found : cs.inits.find? (closesBy depth ∘ fun q => ')' :: q) = some [] := by
          have done : (closesBy depth ∘ fun q => ')' :: q) [] = true := by
            rw [Function.comp_apply, counts]
            simp [closesBy]
            omega
          cases cs with
          | nil => exact List.find?_cons_of_pos done
          | cons d cs => exact List.find?_cons_of_pos done
        rw [found, Text.encode_cons_of_ascii (by decide), Bracket.balance, if_pos rfl, if_pos last]
        rfl
      · refine goesOn (by omega) counts ?_
        rw [Text.encode_cons_of_ascii (by decide), Bracket.balance, if_pos rfl, if_neg last,
          Text.utf8EncodeChar_of_ascii (by decide)]
        simp only [List.length_singleton, Nat.add_comm]
    · by_cases opens : c = '('
      · subst opens
        refine @goesOn (depth + 1) (by omega) ?_ ?_
        · intro q
          rw [Bool.eq_iff_iff]
          simp only [closesBy, List.count_cons_self, beq_iff_eq,
            List.count_cons_of_ne (show ('(' : Char) ≠ ')' by decide)]
          omega
        · rw [Text.encode_cons_of_ascii (by decide), Bracket.balance, if_neg (by decide), if_pos rfl,
            Text.utf8EncodeChar_of_ascii (by decide)]
          simp only [List.length_singleton, Nat.add_comm]
      · refine goesOn positive ?_ ?_
        · intro q
          rw [closesBy, List.count_cons_of_ne closes, List.count_cons_of_ne opens]
          rfl
        · rw [Text.encode_cons]
          refine Bracket.balance_append_of_not_mem ?_ ?_ depth _
          · rw [Text.byte_mem_utf8EncodeChar_iff (by decide)]
            exact Ne.symm closes
          · rw [Text.byte_mem_utf8EncodeChar_iff (by decide)]
            exact Ne.symm opens

section
variable {s : String} {idents : List String}

/-- The bytes cut out for a call are those of its characters. -/
theorem argumentsText_eq (o : Opening s idents) :
    argumentsText (bytesOf s) o.paren = encode o.arguments := by
  have parts : (bytesOf s).toList = encode (o.above ++ o.head) ++ byte '(' :: encode o.after := by
    rw [Text.toList_bytesOf, o.split, Text.encode_append, Text.encode_cons_of_ascii (by decide)]
  have start : o.paren = (encode (o.above ++ o.head)).length := (Text.length_encode _).symm
  have onward : (bytesOf s).toList.drop o.paren = byte '(' :: encode o.after := by
    rw [parts, start, List.drop_left]
  have scan := length_find?_closesBy o.after Nat.one_pos
  have found : Bracket.find (bytesOf s) (o.paren + 1) (byte '(') (byte ')') .forward =
      (Bracket.balance (byte ')') (byte '(') 1 (encode o.after)).map (o.paren + 1 + ·) := by
    rw [Bracket.find, start, Bracket.ahead_of_parts parts]
  have whole (cs : List Char) : encode ('(' :: cs) = byte '(' :: encode cs :=
    Text.encode_cons_of_ascii (by decide) cs
  rw [argumentsText, onward, found, Opening.arguments, whole]
  cases closed : o.after.inits.find? (closesBy 1) with
  | none =>
    rw [closed, Option.map_none] at scan
    rw [Option.map_eq_none_iff.mp scan.symm]
    rfl
  | some q =>
    obtain ⟨rest, behind⟩ := (List.mem_inits q o.after).mp (List.mem_of_find?_eq_some closed)
    rw [closed, Option.map_some] at scan
    obtain ⟨n, ends, length⟩ := Option.map_eq_some_iff.mp scan.symm
    rw [ends]
    have stop : o.paren + 1 + n + 1 - o.paren = (encode q).length + 1 := by omega
    simp only [Option.map_some, Option.getD_some, stop, List.take_succ_cons]
    rw [← behind, Text.encode_append, List.take_left]

/-- Whether a snapshot is compared in the text of the call. -/
def Opening.compares (o : Opening s idents) (assertions : List String) : Bool :=
  assertions.any fun ident => decide (ident.toList <:+: o.arguments)

theorem any_occursIn_eq (o : Opening s idents) (assertions : List String) :
    ((assertions.map fun ident => (bytesOf ident).toList).any fun ident =>
      Text.occursIn ident (argumentsText (bytesOf s) o.paren)) = o.compares assertions := by
  rw [Opening.compares, List.any_map, argumentsText_eq]
  congr 1
  funext ident
  rw [Bool.eq_iff_iff, Function.comp_apply, Text.occursIn_iff, Text.toList_bytesOf,
    Text.encode_infix_iff, decide_eq_true_iff]

/-- The anchors of a kind stand at the openings of its calls, each once and in the order of the text.
All suites are kept, and of the tests those in whose text a snapshot is compared. -/
theorem anchors_eq_openings (s : String) (vocabulary : Vocabulary) (kind : CallKind)
    (noParen : ∀ ident ∈ vocabulary.identifiers kind, '(' ∉ ident.toList) :
    ∃ openings : List (Opening s (vocabulary.identifiers kind)),
      (openings.Pairwise fun first later => first.paren < later.paren) ∧
      (∀ o : Opening s (vocabulary.identifiers kind), ∃ o' ∈ openings, o'.paren = o.paren) ∧
      anchors s vocabulary kind = openings.map (fun o => (o.lens kind, o.paren)) ∧
      (kind = .suite → suites s vocabulary = openings.map (Opening.lens · .suite)) ∧
      (kind = .test → tests s vocabulary =
        (openings.filter (Opening.compares · vocabulary.assertions)).map (Opening.lens · .test)) ∧
      ∀ o ∈ openings, argumentsText (bytesOf s) o.paren = encode o.arguments := by
  obtain ⟨openings, found⟩ : anchors s vocabulary kind ∈ Set.range (List.map
      fun o : Opening s (vocabulary.identifiers kind) => (o.lens kind, o.paren)) := by
    rw [Set.range_list_map]
    exact fun anchor isAnchor => exists_opening_of_mem isAnchor
  refine ⟨openings, ?_, ?_, found.symm, ?_, ?_, fun o _ => argumentsText_eq o⟩
  · have increases := ofLines_increases (bytesOf s) kind
      ((vocabulary.identifiers kind).map String.toList) 0 0 (Text.splitOn '\n' s.toList)
    change (anchors s vocabulary kind).Pairwise _ at increases
    rw [← found, List.pairwise_map] at increases
    exact increases
  · intro o
    have isIn := mem_anchors_of_opening noParen o
    rw [← found] at isIn
    obtain ⟨o', listed, same⟩ := List.mem_map.mp isIn
    exact ⟨o', listed, congrArg Prod.snd same⟩
  · rintro rfl
    rw [suites, ← found, List.map_map]
    rfl
  · rintro rfl
    rw [tests, ← found, List.filter_map, List.map_map]
    have same : ((fun anchor : Lens × Nat =>
        (vocabulary.assertions.map fun ident => (bytesOf ident).toList).any fun ident =>
          Text.occursIn ident (argumentsText (bytesOf s) anchor.2)) ∘
        fun o : Opening s (vocabulary.identifiers .test) => (o.lens .test, o.paren)) =
          (Opening.compares · vocabulary.assertions) :=
      funext fun o => any_occursIn_eq o vocabulary.assertions
    rw [same]
    rfl

/-- A test whose identifier is the end of a longer word, with its argument on the next line. -/
def splitLines : String := "é\nsplit (\n 'x', matchSnapshot('a'))"

theorem opening_of_splitLines :
    (∀ ident ∈ Vocabulary.builtIn.identifiers .test, '(' ∉ ident.toList) ∧
      tests splitLines .builtIn = [⟨.test, 1, 7, 7, 13⟩] ∧
      ∃ o : Opening splitLines (Vocabulary.builtIn.identifiers .test),
        o.compares Vocabulary.builtIn.assertions = true ∧ o.lens .test = ⟨.test, 1, 7, 7, 13⟩ := by
  have noParen : ∀ ident ∈ Vocabulary.builtIn.identifiers .test, '(' ∉ ident.toList := by
    decide +kernel
  have listed : tests splitLines .builtIn = [⟨.test, 1, 7, 7, 13⟩] := by decide +kernel
  refine ⟨noParen, listed, ?_⟩
  obtain ⟨openings, -, -, -, -, kept, -⟩ := anchors_eq_openings splitLines .builtIn .test noParen
  rw [kept rfl] at listed
  have isIn : (⟨.test, 1, 7, 7, 13⟩ : Lens) ∈ (openings.filter
      (Opening.compares · Vocabulary.builtIn.assertions)).map (Opening.lens · .test) := by
    rw [listed]
    exact List.mem_singleton_self _
  obtain ⟨o, isOpening, same⟩ := List.mem_map.mp isIn
  exact ⟨o, (List.mem_filter.mp isOpening).2, same⟩

end

end SnapshotPreview.Lens

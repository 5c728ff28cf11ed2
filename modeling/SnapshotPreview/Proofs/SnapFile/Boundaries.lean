import SnapshotPreview.Proofs.SnapFile.Characters
import SnapshotPreview.Proofs.Text

/-!
# The cursor keeps to characters

Over white space, comments and plain keys the cursor goes by bytes, and it looks for a character only
when something is wrong. An ASCII byte never stands within another character, so each move of the
cursor leads from before some characters to before later ones, and there it is on a boundary
(`isBoundary_before`).
-/

namespace SnapshotPreview.SnapFile

open Text (encode byteLength)

namespace Cursor

/-! ## Bytes ahead -/

@[simp] theorem advance_zero (c : Cursor) : c.advance 0 = c := rfl

theorem advance_advance (c : Cursor) (m n : Nat) : (c.advance m).advance n = c.advance (m + n) := by
  simp only [advance, Nat.add_assoc]

/-- A cursor with these bytes ahead of it. -/
def Sees (c : Cursor) (bytes : List UInt8) : Prop :=
  ∃ front, c.text.toList = front ++ bytes ∧ c.pos = front.length

namespace Sees

variable {c : Cursor} {front bytes : List UInt8}

theorem advance (front : List UInt8) (sees : c.Sees (front ++ bytes)) :
    (c.advance front.length).Sees bytes := by
  obtain ⟨before, whole, here⟩ := sees
  refine ⟨before ++ front, by rw [List.append_assoc]; exact whole, ?_⟩
  rw [List.length_append, ← here]
  rfl

theorem peek (sees : c.Sees bytes) : c.peek = bytes.head? := by
  obtain ⟨before, whole, here⟩ := sees
  rw [Cursor.peek, ← Array.getElem?_toList, whole, here, List.getElem?_append_right (Nat.le_refl _),
    Nat.sub_self, List.head?_eq_getElem?]

theorem ahead (sees : c.Sees bytes) (n : Nat) : c.ahead n = bytes.take n := by
  obtain ⟨before, whole, here⟩ := sees
  rw [Cursor.ahead, Array.toList_extract, whole, here, List.extract_eq_take_drop]
  simp

theorem size (sees : c.Sees bytes) : c.text.size = c.pos + bytes.length := by
  obtain ⟨before, whole, here⟩ := sees
  rw [← Array.length_toList, whole, here, List.length_append]

theorem startsWith_iff (sees : c.Sees bytes) {expected : List UInt8} :
    c.startsWith expected = true ↔ expected <+: bytes := by
  have within : c.pos ≤ c.text.size := by rw [sees.size]; exact Nat.le_add_right _ _
  rw [Cursor.startsWith, sees.ahead, Bool.and_eq_true, beq_iff_eq, List.prefix_iff_eq_take]
  simp [within, eq_comm]

theorem skipWhile (sees : c.Sees bytes) (p : UInt8 → Bool) :
    c.skipWhile p = c.advance (bytes.takeWhile p).length := by
  induction bytes generalizing c with
  | nil =>
    rw [skipWhile.eq_def, sees.peek]
    rfl
  | cons b bytes ih =>
    have onward := ih (Sees.advance [b] sees)
    rw [skipWhile.eq_def, sees.peek, List.head?_cons]
    by_cases holds : p b = true
    · rw [List.takeWhile_cons_of_pos holds, List.length_cons, Nat.add_comm, ← advance_advance]
      simpa [holds] using onward
    · rw [List.takeWhile_cons_of_neg holds]
      simp [holds]

/-- Looking for bytes the cursor passes over all that their first one does not stand in. -/
theorem seek {b : UInt8} (sees : c.Sees (front ++ bytes)) (absent : b ∉ front)
    (needle : List UInt8) :
    c.seek (b :: needle) = (c.advance front.length).seek (b :: needle) := by
  induction front generalizing c with
  | nil => rfl
  | cons d front ih =>
    rw [List.mem_cons, not_or] at absent
    have later : ¬ c.startsWith (b :: needle) = true := by
      rw [sees.startsWith_iff, List.cons_append, List.cons_prefix_cons]
      exact fun both => absent.1 both.1
    have onward := ih (Sees.advance [d] sees) absent.2
    rw [seek.eq_def, if_neg later, sees.peek, List.cons_append, List.head?_cons, List.length_cons,
      Nat.add_comm, ← advance_advance]
    exact onward

end Sees

/-! ## Characters ahead -/

/-- The cursor in a text that ends in these characters, before them. -/
def before (text : Array UInt8) (rest : List Char) : Cursor where
  text := text
  pos := text.size - byteLength rest

section
variable {text : Array UInt8} {front rest : List Char} (whole : text.toList = encode (front ++ rest))
include whole

theorem ends_of_parts : encode rest <:+ text.toList := by
  rw [whole, Text.encode_append]
  exact List.suffix_append _ _

theorem pos_before : (before text rest).pos = byteLength front := by
  have size := congrArg List.length whole
  rw [Array.length_toList, Text.length_encode, Text.byteLength_append] at size
  rw [before, size]
  exact Nat.add_sub_cancel _ _

end

theorem ends_nil (text : Array UInt8) : encode [] <:+ text.toList := List.nil_suffix

section
variable {text : Array UInt8} {rest : List Char} (ends : encode rest <:+ text.toList)
include ends

theorem sees_before : (before text rest).Sees (encode rest) := by
  obtain ⟨front, whole⟩ := ends
  refine ⟨front, whole.symm, ?_⟩
  rw [before, ← Array.length_toList, ← whole, List.length_append, Text.length_encode]
  exact Nat.add_sub_cancel _ _

theorem ends_of_suffix {later : List Char} (isSuffix : later <:+ rest) :
    encode later <:+ text.toList := by
  obtain ⟨front, rfl⟩ := isSuffix
  rw [Text.encode_append] at ends
  exact (List.suffix_append _ _).trans ends

theorem peek_before_iff {c : Char} (ascii : c.toNat < 128) :
    (before text rest).peek = some (Text.byte c) ↔ ∃ later, rest = c :: later := by
  rw [(sees_before ends).peek]
  cases rest with
  | nil => simp
  | cons d later =>
    obtain ⟨lead, more, bytes⟩ := List.exists_cons_of_ne_nil (String.utf8EncodeChar_ne_nil (c := d))
    rw [Text.encode_cons, bytes, List.cons_append, List.head?_cons, Option.some.injEq,
      Text.eq_byte_iff (c := d) (by rw [bytes]; exact List.mem_cons_self) ascii]
    simp

theorem startsWith_before_iff {first second : Char}
    (ascii : first.toNat < 128 ∧ second.toNat < 128) :
    (before text rest).startsWith [Text.byte first, Text.byte second] = true ↔
      ∃ later, rest = first :: second :: later := by
  have bytes : [Text.byte first, Text.byte second] = encode [first, second] := by
    rw [Text.encode_cons_of_ascii ascii.1, Text.encode_cons_of_ascii ascii.2]
    rfl
  rw [bytes, (sees_before ends).startsWith_iff, Text.encode_prefix_iff]
  constructor
  · rintro ⟨later, parts⟩
    exact ⟨later, parts.symm⟩
  · rintro ⟨later, parts⟩
    exact ⟨later, parts.symm⟩

/-- Before characters a character begins, or the text has ended. -/
theorem isBoundary_before : Text.isBoundary text (before text rest).pos = true := by
  have here : text[(before text rest).pos]? = (encode rest).head? := (sees_before ends).peek
  rw [Text.isBoundary, here]
  cases rest with
  | nil => simp [before, byteLength]
  | cons c later =>
    obtain ⟨lead, more, bytes⟩ := List.exists_cons_of_ne_nil (String.utf8EncodeChar_ne_nil (c := c))
    rw [Text.encode_cons, bytes, List.cons_append, List.head?_cons]
    simp [(Text.isContinuation_utf8EncodeChar bytes).1]

/-- Before characters the next one is found: the cursor is within none. -/
theorem char?_before : (before text rest).char? = rest.head? := by
  have boundary : Text.isBoundary (before text rest).text (before text rest).pos = true :=
    isBoundary_before ends
  rw [char?, if_pos boundary, (sees_before ends).ahead]
  cases rest with
  | nil => rfl
  | cons c later =>
    have short : (String.utf8EncodeChar c).length ≤ 4 := by
      rw [String.length_utf8EncodeChar]
      exact c.utf8Size_le_four
    rw [Text.encode_cons, List.take_append, List.take_of_length_le short,
      Text.firstChar?_utf8EncodeChar, List.head?_cons]

end

theorem advance_before {text : Array UInt8} (front : List Char) {rest : List Char}
    (ends : encode (front ++ rest) <:+ text.toList) :
    (before text (front ++ rest)).advance (byteLength front) = before text rest := by
  have size := (sees_before ends).size
  rw [Text.length_encode, Text.byteLength_append] at size
  simp only [advance, before, Cursor.mk.injEq, true_and, Text.byteLength_append] at *
  omega

theorem advance_before_ascii {text : Array UInt8} {c : Char} {rest : List Char}
    (ascii : c.toNat < 128) (ends : encode (c :: rest) <:+ text.toList) :
    (before text (c :: rest)).advance 1 = before text rest := by
  have width : byteLength [c] = 1 := by
    rw [← Text.length_encode, Text.encode_cons_of_ascii ascii]
    rfl
  have moved := advance_before [c] ends
  rwa [width] at moved

theorem nextChar_before_nil (text : Array UInt8) :
    (before text []).nextChar = (none, before text []) := by
  have nothing : (before text []).char? = none := char?_before (ends_nil text)
  rw [nextChar, nothing]

theorem nextChar_before_cons {text : Array UInt8} {c : Char} {rest : List Char}
    (ends : encode (c :: rest) <:+ text.toList) :
    (before text (c :: rest)).nextChar = (some c, before text rest) := by
  have found : (before text (c :: rest)).char? = some c := char?_before ends
  have moved := advance_before [c] ends
  rw [byteLength, byteLength, Nat.add_zero] at moved
  rw [nextChar, found]
  exact congrArg (Prod.mk _) moved

/-! ## Runs of bytes -/

theorem lt_of_isKeyChar {c : Char} (plain : isKeyChar c = true) : c.toNat < 128 := by
  simp only [isKeyChar, Bool.or_eq_true, beq_iff_eq] at plain
  rcases plain with (alphanumeric | rfl) | rfl
  · have := Text.bounds_of_isAlphanum alphanumeric
    omega
  all_goals decide

/-- A run of bytes of a class is a run of characters. -/
theorem skipWhile_before {text : Array UInt8} {rest : List Char} {p : UInt8 → Bool}
    {q : Char → Bool} (ends : encode rest <:+ text.toList)
    (same : ∀ c, ∀ b ∈ String.utf8EncodeChar c, p b = q c) :
    (before text rest).skipWhile p = before text (rest.dropWhile q) := by
  have whole : rest.takeWhile q ++ rest.dropWhile q = rest := List.takeWhile_append_dropWhile
  have parts : encode (rest.takeWhile q ++ rest.dropWhile q) <:+ text.toList := by
    rw [whole]
    exact ends
  have moved := advance_before _ parts
  rw [whole] at moved
  rw [(sees_before ends).skipWhile, Text.takeWhile_encode same, Text.length_encode]
  exact moved

theorem isKeyByte_eq {b : UInt8} {c : Char} (isIn : b ∈ String.utf8EncodeChar c) :
    isKeyByte b = isKeyChar c := by
  by_cases ascii : c.toNat < 128
  · rw [Text.utf8EncodeChar_of_ascii ascii, List.mem_singleton] at isIn
    have low : Text.byte c < 0x80 := by
      rw [UInt8.lt_iff_toNat_lt, Text.toNat_byte ascii]
      exact ascii
    rw [isIn, isKeyByte, Text.toNat_byte ascii, Char.ofNat_toNat]
    simp [low]
  · have high := Text.le_of_mem_utf8EncodeChar (by omega) isIn
    have noKey : isKeyChar c = false :=
      Bool.eq_false_iff.mpr fun plain => ascii (lt_of_isKeyChar plain)
    have notLow : ¬ b < 0x80 := by
      rw [UInt8.lt_iff_toNat_lt]
      exact Nat.not_lt.mpr high
    rw [noKey, isKeyByte]
    simp [notLow]

/-- A comment does not end at a character that is no star or has no slash behind it, and not within
the character. -/
theorem seek_before_cons {text : Array UInt8} {c : Char} {rest : List Char}
    (ends : encode (c :: rest) <:+ text.toList)
    (goesOn : ∀ later, c = '*' → rest = '/' :: later → False) :
    (before text (c :: rest)).seek [Text.byte '*', Text.byte '/'] =
      (before text rest).seek [Text.byte '*', Text.byte '/'] := by
  obtain ⟨lead, more, bytes⟩ := List.exists_cons_of_ne_nil (String.utf8EncodeChar_ne_nil (c := c))
  have sees := sees_before ends
  have later : ¬ (before text (c :: rest)).startsWith [Text.byte '*', Text.byte '/'] = true := by
    rw [startsWith_before_iff ends (by decide)]
    rintro ⟨later, parts⟩
    exact goesOn later (List.cons.inj parts).1 (List.cons.inj parts).2
  rw [Text.encode_cons, bytes, List.cons_append] at sees
  have within := (Sees.advance [lead] sees).seek
    (Text.byte_not_mem_tail (d := '*') (by decide) bytes) [Text.byte '/']
  have width : 1 + more.length = byteLength [c] := by
    rw [← Text.length_encode, Text.encode_cons, bytes]
    simp [Nat.add_comm]
  have moved : (before text (c :: rest)).advance (byteLength [c]) = before text rest :=
    advance_before [c] ends
  rw [← width, ← advance_advance] at moved
  rw [seek.eq_def, if_neg later, sees.peek, List.head?_cons]
  exact within.trans (by rw [List.length_singleton, moved])

section
variable {text : Array UInt8} {rest : List Char} (ends : encode rest <:+ text.toList)
include ends

theorem skipSpace_before : (before text rest).skipSpace = before text (rest.dropWhile Text.isSpace) :=
  skipWhile_before ends fun _ _ isIn => Text.isSpaceByte_eq isIn

theorem skipLine_before : (before text rest).skipLine = before text (afterLine rest) := by
  have same (c : Char) (b : UInt8) (isIn : b ∈ String.utf8EncodeChar c) :
      (b != Text.byte '
') = (c != '
') := by
    rw [Bool.eq_iff_iff, bne_iff_ne, bne_iff_ne]
    exact not_congr (Text.eq_byte_iff isIn (by decide))
  have onward : encode (rest.dropWhile (· != '\n')) <:+ text.toList :=
    ends_of_suffix ends (List.dropWhile_suffix _)
  rw [skipLine, skipWhile_before ends same, afterLine_eq_tail]
  cases line : rest.dropWhile (· != '\n') with
  | nil =>
    have none : (before text []).peek = none := (sees_before (ends_nil text)).peek
    rw [next, none, List.tail_nil]
  | cons c later =>
    have isEnd : c = '\n' := by
      have stops := List.head?_dropWhile_not (· != '\n') rest
      simpa [line] using stops
    rw [line, isEnd] at onward
    have found : (before text (c :: later)).peek = some (Text.byte '\n') := by
      rw [isEnd]
      exact (peek_before_iff onward (by decide)).mpr ⟨later, rfl⟩
    rw [next, found, isEnd, List.tail_cons]
    exact advance_before_ascii (by decide) onward

theorem takeKey_before : (before text rest).takeKey =
    (String.ofList (rest.takeWhile isKeyChar), before text (rest.dropWhile isKeyChar)) := by
  have same (c : Char) (b : UInt8) (isIn : b ∈ String.utf8EncodeChar c) :
      isKeyByte b = isKeyChar c := isKeyByte_eq isIn
  have key := Text.takeWhile_encode same rest
  have run := (sees_before ends).skipWhile isKeyByte
  have bytes : (text.extract (before text rest).pos
      ((before text rest).skipWhile isKeyByte).pos).toList = encode (rest.takeWhile isKeyChar) := by
    rw [run, key]
    refine ((sees_before ends).ahead _).trans ?_
    rw [← key]
    exact (List.prefix_iff_eq_take.mp (List.takeWhile_prefix _)).symm
  have stop := skipWhile_before ends same
  exact Prod.ext (congrArg String.ofList ((congrArg Text.decodeLossy bytes).trans
    (Text.decodeLossy_encode _))) stop

/-- The end of a comment is looked for by bytes, and found where it stands in the characters. -/
theorem seek_before {after : List Char} (closed : afterComment? rest = some after) :
    (before text rest).seek [Text.byte '*', Text.byte '/'] =
      .ok (before text ('*' :: '/' :: after)) := by
  fun_induction afterComment? rest with
  | case1 rest =>
    cases closed
    have here := (startsWith_before_iff ends (by decide)).mpr ⟨after, rfl⟩
    rw [seek.eq_def, if_pos here]
  | case2 c rest goesOn ih =>
    rw [seek_before_cons ends goesOn]
    exact ih (ends_of_suffix ends (List.suffix_cons c rest)) closed
  | case3 => cases closed

theorem seek_before_of_unclosed (unclosed : afterComment? rest = none) :
    (before text rest).seek [Text.byte '*', Text.byte '/'] = .error (before text []) := by
  fun_induction afterComment? rest with
  | case1 => cases unclosed
  | case2 c rest goesOn ih =>
    rw [seek_before_cons ends goesOn]
    exact ih (ends_of_suffix ends (List.suffix_cons c rest)) unclosed
  | case3 =>
    have none : (before text []).peek = none := (sees_before ends).peek
    have nothing : ¬ (before text []).startsWith [Text.byte '*', Text.byte '/'] = true := by
      rw [startsWith_before_iff ends (by decide)]
      simp
    rw [seek.eq_def, if_neg nothing, none]

end

end Cursor

end SnapshotPreview.SnapFile

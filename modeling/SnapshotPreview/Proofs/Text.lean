import SnapshotPreview.Text.Affix
import SnapshotPreview.Text.Utf8

/-!
# Texts, their parts and their bytes

Cutting a text at a separator is undone by joining. The bytes of a text are those of its characters
one after the other: ASCII bytes stand for themselves, reading the bytes of a text gives the text
back (`decodeLossy_encode`), and a text occurs in another where its bytes do (`encode_infix_iff`).
-/

namespace SnapshotPreview.Text

/-- What holds of all parts of a list can be found out one by one. -/
theorem forall_mem_of_all {α : Type} {cs : List α} {p : α → Prop} [DecidablePred p]
    (all : cs.all (fun c => decide (p c)) = true) : ∀ c ∈ cs, p c := by
  simpa using all

theorem bounds_of_isAlphanum {c : Char} (alphanumeric : c.isAlphanum = true) :
    (65 ≤ c.toNat ∧ c.toNat ≤ 90 ∨ 97 ≤ c.toNat ∧ c.toNat ≤ 122) ∨
      48 ≤ c.toNat ∧ c.toNat ≤ 57 := by
  have ranges : (decide (c.val ≥ 65 ∧ c.val ≤ 90) ||
      (decide (c.val ≥ 97) && decide (c.val ≤ 122)) ||
      (decide (c.val ≥ 48) && decide (c.val ≤ 57))) = true := alphanumeric
  simpa [UInt32.le_iff_toNat_le] using ranges

/-! ## Up to a character -/

section
variable {p : Char → Bool} {front rest : List Char} (all : ∀ c ∈ front, p c = true)
  (ends : ∀ c ∈ rest.head?, p c = false)
include all ends

theorem takeWhile_append_of_ends : (front ++ rest).takeWhile p = front := by
  rw [List.takeWhile_append_of_pos all]
  cases rest with
  | nil => rw [List.takeWhile_nil, List.append_nil]
  | cons c rest => rw [List.takeWhile_cons_of_neg (by simp [ends c rfl]), List.append_nil]

theorem dropWhile_append_of_ends : (front ++ rest).dropWhile p = rest := by
  rw [List.dropWhile_append_of_pos all]
  cases rest with
  | nil => rfl
  | cons c rest => exact List.dropWhile_cons_of_neg (by simp [ends c rfl])

end

section
variable {c : Char} {front : List Char} (absent : c ∉ front)
include absent

theorem forall_bne_of_not_mem : ∀ d ∈ front, (d != c) = true := by
  intro d isIn
  exact bne_iff_ne.mpr fun same => absent (same ▸ isIn)

theorem takeWhile_bne_append (rest : List Char) :
    (front ++ c :: rest).takeWhile (· != c) = front :=
  takeWhile_append_of_ends (forall_bne_of_not_mem absent) fun d next => by cases next; simp

theorem dropWhile_bne_append (rest : List Char) :
    (front ++ c :: rest).dropWhile (· != c) = c :: rest :=
  dropWhile_append_of_ends (forall_bne_of_not_mem absent) fun d next => by cases next; simp

end

/-! ## Cutting and joining -/

section
variable {α : Type} [DecidableEq α] {separator : α}

theorem splitOn_eq (l : List α) : splitOn separator l = l.splitOn separator := by
  induction l with
  | nil => rfl
  | cons x xs ih =>
    obtain ⟨part, parts, parted⟩ := List.exists_cons_of_ne_nil (List.splitOn_ne_nil separator xs)
    simp [splitOn, List.splitOn_cons_eq_if_modifyHead, ih, parted]

theorem intercalate_splitOn (l : List α) : [separator].intercalate (splitOn separator l) = l := by
  rw [splitOn_eq, List.intercalate_splitOn]

theorem splitOn_append_cons (first second : List α) :
    splitOn separator (first ++ separator :: second) =
      splitOn separator first ++ splitOn separator second := by
  simp only [splitOn_eq, List.splitOn_append_cons_self]

theorem splitOn_of_not_mem {l : List α} (absent : separator ∉ l) : splitOn separator l = [l] := by
  rw [splitOn_eq, List.splitOn_eq_singleton absent]

/-- What is appended without a separator belongs to the last part. -/
theorem exists_splitOn_append (first : List α) {second : List α} (absent : separator ∉ second) :
    ∃ before last, splitOn separator (first ++ second) = before ++ [last ++ second] := by
  induction first with
  | nil => exact ⟨[], [], splitOn_of_not_mem absent⟩
  | cons x xs ih =>
    obtain ⟨before, last, parted⟩ := ih
    by_cases here : x = separator
    · exact ⟨[] :: before, last, by simp [splitOn, here, parted]⟩
    · cases before with
      | nil => exact ⟨[], x :: last, by simp [splitOn, here, parted]⟩
      | cons part parts => exact ⟨(x :: part) :: parts, last, by simp [splitOn, here, parted]⟩

theorem not_mem_of_mem_splitOn {l part : List α} (isPart : part ∈ splitOn separator l) :
    separator ∉ part := by
  induction l generalizing part with
  | nil => simp_all [splitOn]
  | cons x xs ih =>
    obtain ⟨first, parts, parted⟩ := List.exists_cons_of_ne_nil (List.splitOn_ne_nil separator xs)
    rw [← splitOn_eq] at parted
    rw [parted] at ih
    simp only [splitOn, parted] at isPart
    split at isPart
    · rcases List.mem_cons.mp isPart with rfl | isPart
      · exact List.not_mem_nil
      · exact ih isPart
    · rename_i other
      rcases List.mem_cons.mp isPart with rfl | isPart
      · simp only [List.mem_cons, not_or]
        exact ⟨Ne.symm other, ih List.mem_cons_self⟩
      · exact ih (List.mem_cons_of_mem _ isPart)

/-- The parts one after the other, each ended by a separator. -/
def terminated (separator : α) (parts : List (List α)) : List α := parts.flatMap (· ++ [separator])

theorem count_terminated {parts : List (List α)} (absent : ∀ part ∈ parts, separator ∉ part) :
    (terminated separator parts).count separator = parts.length := by
  induction parts with
  | nil => rfl
  | cons part parts ih =>
    have none := List.count_eq_zero_of_not_mem (absent part List.mem_cons_self)
    have later := ih fun p isIn => absent p (List.mem_cons_of_mem _ isIn)
    rw [terminated] at later
    rw [terminated, List.flatMap_cons, List.count_append, List.count_append, none, later]
    simp
    omega

omit [DecidableEq α] in
theorem intercalate_append_cons (before : List (List α)) (part : List α) (after : List (List α)) :
    [separator].intercalate (before ++ part :: after) =
      terminated separator before ++ [separator].intercalate (part :: after) := by
  induction before with
  | nil => rfl
  | cons first before ih =>
    obtain ⟨second, others, more⟩ := List.exists_cons_of_ne_nil
      (List.append_ne_nil_of_right_ne_nil before (List.cons_ne_nil part after))
    rw [List.cons_append, more, List.intercalate_cons_cons, ← more, ih]
    simp [terminated]

theorem terminated_splitOn (l : List α) :
    terminated separator (splitOn separator l) = l ++ [separator] := by
  have whole : [separator].intercalate (splitOn separator (l ++ [separator])) = l ++ [separator] :=
    intercalate_splitOn _
  rw [splitOn_append_cons, show splitOn separator ([] : List α) = [[]] from rfl,
    intercalate_append_cons] at whole
  simpa using whole

/-- What stands before a part are the parts before it, and what stands behind it begins with a
separator. -/
theorem exists_of_splitOn {l part : List α} {before after : List (List α)}
    (parted : splitOn separator l = before ++ part :: after) :
    ∃ rest, l = terminated separator before ++ part ++ rest ∧
      (rest = [] ∨ rest.head? = some separator) := by
  have whole : [separator].intercalate (splitOn separator l) = l := intercalate_splitOn l
  rw [parted, intercalate_append_cons] at whole
  cases after with
  | nil => exact ⟨[], by simpa using whole.symm, .inl rfl⟩
  | cons next after =>
    refine ⟨separator :: [separator].intercalate (next :: after), ?_, .inr rfl⟩
    rw [← whole, List.intercalate_cons_cons]
    simp

/-- A stretch without separators between two of them, or between one and an end of the text, is a
part. -/
theorem exists_splitOn_of_parts {above part below : List α}
    (begins : above = [] ∨ above.getLast? = some separator) (absent : separator ∉ part)
    (ends : below = [] ∨ below.head? = some separator) :
    ∃ before after, splitOn separator (above ++ part ++ below) = before ++ part :: after ∧
      terminated separator before = above := by
  have behind : ∃ after, splitOn separator (part ++ below) = part :: after := by
    rcases ends with rfl | first
    · exact ⟨[], by rw [List.append_nil, splitOn_of_not_mem absent]⟩
    · obtain ⟨more, rfl⟩ := List.head?_eq_some_iff.mp first
      exact ⟨_, by rw [splitOn_append_cons, splitOn_of_not_mem absent]; rfl⟩
  obtain ⟨after, behind⟩ := behind
  rw [List.append_assoc]
  rcases begins with rfl | last
  · exact ⟨[], after, behind, rfl⟩
  · obtain ⟨lines, rfl⟩ := List.getLast?_eq_some_iff.mp last
    refine ⟨splitOn separator lines, after, ?_, terminated_splitOn lines⟩
    rw [List.append_assoc, List.singleton_append, splitOn_append_cons, behind]

/-- What stands at a place has something before it and something behind it. -/
theorem exists_parts_of_getElem? {α : Type} {l : List α} {x : α} {n : Nat} (here : l[n]? = some x) :
    ∃ front back, l = front ++ x :: back ∧ n = front.length := by
  obtain ⟨inside, rfl⟩ := List.getElem?_eq_some_iff.mp here
  refine ⟨l.take n, l.drop (n + 1), ?_, ?_⟩
  · rw [← List.drop_eq_getElem_cons inside, List.take_append_drop]
  · rw [List.length_take, Nat.min_eq_left (by omega)]

/-! ## Occurrences -/

theorem isSome_afterPrefix?_iff {needle l : List α} :
    (afterPrefix? needle l).isSome = true ↔ needle <+: l := by
  rw [Option.isSome_iff_exists]
  constructor
  · rintro ⟨rest, found⟩
    exact ⟨rest, (afterPrefix?_eq_some_iff.mp found).symm⟩
  · rintro ⟨rest, parts⟩
    exact ⟨rest, afterPrefix?_eq_some_iff.mpr parts.symm⟩

theorem occursIn_iff {needle l : List α} : occursIn needle l = true ↔ needle <:+: l := by
  induction l with
  | nil => simp [occursIn, List.isEmpty_iff]
  | cons x xs ih =>
    rw [occursIn, Bool.or_eq_true, isSome_afterPrefix?_iff, ih, List.infix_cons_iff]

/-- The place that is found is the first one. -/
theorem find?_eq_some_iff {needle l : List α} {i : Nat} :
    find? needle l = some i ↔ needle <+: l.drop i ∧ ∀ j < i, ¬ needle <+: l.drop j := by
  induction l generalizing i with
  | nil =>
    simp only [find?, List.isEmpty_iff, List.drop_nil, List.prefix_nil]
    by_cases empty : needle = []
    · simp only [empty, if_true, Option.some.injEq, not_true_eq_false, true_and]
      exact ⟨fun zero j before => by omega, fun none => (Nat.eq_zero_of_not_pos (none 0)).symm⟩
    · simp [empty]
  | cons x xs ih =>
    by_cases begins : needle <+: x :: xs
    · rw [find?, if_pos (isSome_afterPrefix?_iff.mpr begins), Option.some.injEq]
      constructor
      · rintro rfl
        exact ⟨begins, fun j before => absurd before (Nat.not_lt_zero j)⟩
      · rintro ⟨-, earlier⟩
        exact (Nat.eq_zero_of_not_pos fun more => earlier 0 more begins).symm
    · rw [find?, if_neg (mt isSome_afterPrefix?_iff.mp begins)]
      cases i with
      | zero => simp [begins]
      | succ i =>
        simp only [Option.map_eq_some_iff, Nat.succ.injEq, exists_eq_right, ih, List.drop_succ_cons]
        refine and_congr_right fun _ => ⟨fun later j before => ?_, fun earlier j before => ?_⟩
        · cases j with
          | zero => exact begins
          | succ j => exact later j (by omega)
        · exact earlier (j + 1) (by omega)

end

/-! ## Characters and bytes -/

/-- The UTF-8 form of characters. -/
def encode (cs : List Char) : List UInt8 := cs.flatMap String.utf8EncodeChar

@[simp] theorem encode_nil : encode [] = [] := rfl

@[simp] theorem encode_cons (c : Char) (cs : List Char) :
    encode (c :: cs) = String.utf8EncodeChar c ++ encode cs := List.flatMap_cons

@[simp] theorem encode_append (first second : List Char) :
    encode (first ++ second) = encode first ++ encode second := List.flatMap_append

theorem toList_bytesOf (s : String) : (bytesOf s).toList = encode s.toList := by
  have bytes : s.toByteArray = (encode s.toList).toByteArray := by
    rw [← String.ofList_toList (s := s), String.toByteArray_ofList, String.toList_ofList]
    rfl
  rw [bytesOf, String.toUTF8, bytes, List.data_toByteArray]

theorem bytesOf_append (s t : String) : bytesOf (s ++ t) = bytesOf s ++ bytesOf t := by
  rw [← Array.toList_inj, Array.toList_append]
  simp only [toList_bytesOf, String.toList_append, encode_append]

theorem length_encode (cs : List Char) : (encode cs).length = byteLength cs := by
  induction cs with
  | nil => rfl
  | cons c cs ih =>
    rw [encode_cons, List.length_append, String.length_utf8EncodeChar, ih]
    rfl

theorem byteLength_toList (s : String) : byteLength s.toList = s.utf8ByteSize := by
  rw [← length_encode, ← toList_bytesOf, Array.length_toList]
  rfl

@[simp] theorem byteLength_append (first second : List Char) :
    byteLength (first ++ second) = byteLength first + byteLength second := by
  rw [← length_encode, encode_append, List.length_append, length_encode, length_encode]

theorem eq_nil_of_byteLength {cs : List Char} (nothing : byteLength cs = 0) : cs = [] := by
  cases cs with
  | nil => rfl
  | cons c cs =>
    have := c.utf8Size_pos
    rw [byteLength] at nothing
    omega

/-- Two beginnings of a text that take as many bytes are the same. -/
theorem append_inj_of_byteLength {first second rest rest' : List Char}
    (same : first ++ rest = second ++ rest') (length : byteLength first = byteLength second) :
    first = second := by
  rcases List.append_eq_append_iff.mp same with ⟨more, longer, -⟩ | ⟨more, longer, -⟩
  · rw [longer, byteLength_append] at length
    rw [longer, eq_nil_of_byteLength (show byteLength more = 0 by omega), List.append_nil]
  · rw [longer, byteLength_append] at length
    rw [longer, eq_nil_of_byteLength (show byteLength more = 0 by omega), List.append_nil]

/-! ## ASCII -/

/-- A byte that continues a character, with the lowest six bits of a number. -/
def continuation (n : Nat) : UInt8 := UInt8.ofNat (n % 64 + 0x80)

theorem toNat_continuation (n : Nat) : (continuation n).toNat = n % 64 + 0x80 := by
  rw [continuation, UInt8.toNat_ofNat']
  omega

/-- The bytes of a character, by the number of them. -/
theorem utf8EncodeChar_cases (c : Char) :
    c.toNat < 0x80 ∧ String.utf8EncodeChar c = [UInt8.ofNat c.toNat] ∨
    0x80 ≤ c.toNat ∧ c.toNat < 0x800 ∧
      String.utf8EncodeChar c =
        [UInt8.ofNat (c.toNat / 64 % 32 + 0xc0), continuation c.toNat] ∨
    0x800 ≤ c.toNat ∧ c.toNat < 0x10000 ∧
      String.utf8EncodeChar c =
        [UInt8.ofNat (c.toNat / 4096 % 16 + 0xe0), continuation (c.toNat / 64),
          continuation c.toNat] ∨
    0x10000 ≤ c.toNat ∧
      String.utf8EncodeChar c =
        [UInt8.ofNat (c.toNat / 262144 % 8 + 0xf0), continuation (c.toNat / 4096),
          continuation (c.toNat / 64), continuation c.toNat] := by
  have same : c.val.toNat = c.toNat := rfl
  unfold String.utf8EncodeChar
  simp only [same]
  by_cases one : c.toNat ≤ 127
  · exact .inl ⟨by omega, if_pos one⟩
  rw [if_neg one]
  by_cases two : c.toNat ≤ 2047
  · exact .inr (.inl ⟨by omega, by omega, if_pos two⟩)
  rw [if_neg two]
  by_cases three : c.toNat ≤ 65535
  · exact .inr (.inr (.inl ⟨by omega, by omega, if_pos three⟩))
  · exact .inr (.inr (.inr ⟨by omega, if_neg three⟩))

theorem utf8EncodeChar_of_ascii {c : Char} (ascii : c.toNat < 128) :
    String.utf8EncodeChar c = [byte c] := by
  rcases utf8EncodeChar_cases c with ⟨-, one⟩ | ⟨wide, -⟩ | ⟨wide, -⟩ | ⟨wide, -⟩
  · exact one
  all_goals omega

theorem encode_cons_of_ascii {c : Char} (ascii : c.toNat < 128) (cs : List Char) :
    encode (c :: cs) = byte c :: encode cs := by
  rw [encode_cons, utf8EncodeChar_of_ascii ascii, List.singleton_append]

theorem toNat_byte {c : Char} (ascii : c.toNat < 128) : (byte c).toNat = c.toNat := by
  change c.toNat % 256 = c.toNat
  omega

theorem byte_inj {c d : Char} (asciiC : c.toNat < 128) (asciiD : d.toNat < 128) :
    byte c = byte d ↔ c = d := by
  constructor
  · intro same
    have codes : c.toNat = d.toNat := by rw [← toNat_byte asciiC, same, toNat_byte asciiD]
    rw [← Char.ofNat_toNat c, codes, Char.ofNat_toNat]
  · rintro rfl
    rfl

/-- The bytes of a character that is not ASCII are not either. -/
theorem le_of_mem_utf8EncodeChar {c : Char} (wide : 128 ≤ c.toNat) {b : UInt8}
    (isIn : b ∈ String.utf8EncodeChar c) : 128 ≤ b.toNat := by
  rcases utf8EncodeChar_cases c with ⟨narrow, -⟩ | ⟨-, -, bytes⟩ | ⟨-, -, bytes⟩ | ⟨-, bytes⟩
  · omega
  all_goals
    rw [bytes] at isIn
    simp only [List.mem_cons, List.not_mem_nil, or_false] at isIn
  · rcases isIn with rfl | rfl
    · rw [UInt8.toNat_ofNat']; omega
    · rw [toNat_continuation]; omega
  · rcases isIn with rfl | rfl | rfl
    · rw [UInt8.toNat_ofNat']; omega
    all_goals rw [toNat_continuation]; omega
  · rcases isIn with rfl | rfl | rfl | rfl
    · rw [UInt8.toNat_ofNat']; omega
    all_goals rw [toNat_continuation]; omega

/-- Behind the first byte of a character no byte stands for an ASCII character. -/
theorem byte_not_mem_tail {c d : Char} (ascii : d.toNat < 128) {lead : UInt8} {more : List UInt8}
    (bytes : String.utf8EncodeChar c = lead :: more) : byte d ∉ more := by
  intro isIn
  by_cases wide : 128 ≤ c.toNat
  · have large := le_of_mem_utf8EncodeChar wide (by rw [bytes]; exact List.mem_cons_of_mem lead isIn)
    rw [toNat_byte ascii] at large
    omega
  · rw [utf8EncodeChar_of_ascii (by omega)] at bytes
    rw [← (List.cons.inj bytes).2] at isIn
    exact List.not_mem_nil isIn

/-- A byte of a character is that of an ASCII character only if they are the same. -/
theorem byte_mem_utf8EncodeChar_iff {c d : Char} (ascii : c.toNat < 128) :
    byte c ∈ String.utf8EncodeChar d ↔ c = d := by
  by_cases wide : 128 ≤ d.toNat
  · constructor
    · intro isIn
      have := le_of_mem_utf8EncodeChar wide isIn
      rw [toNat_byte ascii] at this
      omega
    · rintro rfl
      omega
  · rw [utf8EncodeChar_of_ascii (by omega), List.mem_singleton]
    exact byte_inj ascii (by omega)

/-- An ASCII byte stands for its character. -/
theorem byte_mem_encode_iff {c : Char} (ascii : c.toNat < 128) {cs : List Char} :
    byte c ∈ encode cs ↔ c ∈ cs := by
  simp only [encode, List.mem_flatMap, byte_mem_utf8EncodeChar_iff ascii, exists_eq_right']

theorem eq_byte_iff {b : UInt8} {c d : Char} (isIn : b ∈ String.utf8EncodeChar c)
    (ascii : d.toNat < 128) : b = byte d ↔ c = d := by
  constructor
  · rintro rfl
    exact ((byte_mem_utf8EncodeChar_iff ascii).mp isIn).symm
  · rintro rfl
    rw [utf8EncodeChar_of_ascii ascii] at isIn
    exact List.mem_singleton.mp isIn

/-- A byte of an ASCII character stands where the character does. -/
theorem exists_rest_of_byte {text : String} {before rest : List Char} {c : Char}
    (ascii : c.toNat < 128) (parts : text.toList = before ++ rest)
    (here : (bytesOf text)[byteLength before]? = some (byte c)) :
    ∃ onward, rest = c :: onward := by
  rw [← Array.getElem?_toList, toList_bytesOf, parts, encode_append,
    ← length_encode, List.getElem?_append_right (Nat.le_refl _), Nat.sub_self] at here
  cases rest with
  | nil => simp at here
  | cons d onward =>
    obtain ⟨lead, more, bytes⟩ := List.exists_cons_of_ne_nil (String.utf8EncodeChar_ne_nil (c := d))
    rw [encode_cons, bytes, List.cons_append, List.getElem?_cons_zero] at here
    have isIn : lead ∈ String.utf8EncodeChar d := by rw [bytes]; exact List.mem_cons_self
    exact ⟨onward, by rw [(eq_byte_iff isIn ascii).mp (Option.some.inj here)]⟩

/-- The bytes of a character are white space if it is. -/
theorem isSpaceByte_eq {b : UInt8} {c : Char} (isIn : b ∈ String.utf8EncodeChar c) :
    isSpaceByte b = isSpace c := by
  have same (d : Char) (ascii : d.toNat < 128) : (b == byte d) = (c == d) := by
    rw [Bool.eq_iff_iff, beq_iff_eq, beq_iff_eq]
    exact eq_byte_iff isIn ascii
  rw [isSpace, ← same ' ' (by decide), ← same '\t' (by decide), ← same '\n' (by decide),
    ← same '\x0c' (by decide), ← same '\r' (by decide)]
  rfl

theorem isSpaceByte_of_mem_encode {cs : List Char} {value : Bool}
    (each : ∀ c ∈ cs, isSpace c = value) {b : UInt8} (isIn : b ∈ encode cs) :
    isSpaceByte b = value := by
  obtain ⟨c, isChar, isByte⟩ := List.mem_flatMap.mp isIn
  rw [isSpaceByte_eq isByte, each c isChar]

/-- A class of bytes that holds of all bytes of a character or of none ends where the characters of
that kind do. -/
theorem takeWhile_encode {p : UInt8 → Bool} {q : Char → Bool}
    (same : ∀ c, ∀ b ∈ String.utf8EncodeChar c, p b = q c) (cs : List Char) :
    (encode cs).takeWhile p = encode (cs.takeWhile q) := by
  induction cs with
  | nil => rfl
  | cons c cs ih =>
    rw [encode_cons, List.takeWhile_cons]
    split
    · rename_i holds
      rw [List.takeWhile_append_of_pos (fun b isIn => by rw [same c b isIn, holds]), ih, encode_cons]
    · rename_i fails
      obtain ⟨lead, more, bytes⟩ :=
        List.exists_cons_of_ne_nil (String.utf8EncodeChar_ne_nil (c := c))
      have stops : ¬ p lead = true := by
        rw [same c lead (by rw [bytes]; exact List.mem_cons_self)]
        exact fails
      rw [bytes, List.cons_append, List.takeWhile_cons, if_neg stops, encode_nil]

/-- The white space before a text is that before its bytes. -/
theorem takeWhile_isSpaceByte_encode (cs : List Char) :
    (encode cs).takeWhile isSpaceByte = encode (cs.takeWhile isSpace) :=
  takeWhile_encode (fun _ _ isIn => isSpaceByte_eq isIn) cs

/-! ## Reading text back -/

/-- Two bytes: the second is any continuation. -/
theorem sequenceOf_two : ∀ n < 30,
    sequenceOf (UInt8.ofNat (n + 2 + 0xc0)) = some (0x80, 0xbf, 0, n + 2) := by
  decide

/-- Three bytes: the second is bounded where the code point would be too small or a surrogate. -/
theorem sequenceOf_three : ∀ n < 16, sequenceOf (UInt8.ofNat (n + 0xe0)) =
    some (if n = 0 then 0xa0 else 0x80, if n = 0xd then 0x9f else 0xbf, 1, n) := by
  decide

/-- Four bytes: the second is bounded where the code point would be too small or too large. -/
theorem sequenceOf_four : ∀ n < 5, sequenceOf (UInt8.ofNat (n + 0xf0)) =
    some (if n = 0 then 0x90 else 0x80, if n = 4 then 0x8f else 0xbf, 2, n) := by
  decide

theorem isContinuation_continuation (n : Nat) : isContinuation (continuation n) = true := by
  have value := toNat_continuation n
  simp only [isContinuation, Bool.and_eq_true, decide_eq_true_eq, UInt8.le_iff_toNat_le]
  change 128 ≤ (continuation n).toNat ∧ (continuation n).toNat ≤ 191
  omega

theorem readContinuations_zero (bits : Nat) (rest : List UInt8) :
    readContinuations 0 bits rest = (some bits, 0) := by
  rw [readContinuations]

theorem readContinuations_continuation (more bits n : Nat) (rest : List UInt8) :
    readContinuations (more + 1) bits (continuation n :: rest) =
      ((readContinuations more (bits * 64 + n % 64) rest).1,
        (readContinuations more (bits * 64 + n % 64) rest).2 + 1) := by
  have low : (continuation n).toNat % 64 = n % 64 := by
    rw [toNat_continuation]
    omega
  rw [readContinuations, if_pos (isContinuation_continuation n), low]

/-- A first byte and a second one within its bounds leave the continuations to be read. -/
theorem readSequence_of_second {lead : UInt8} {lo hi : UInt8} {more bits n : Nat}
    (wide : 128 ≤ lead.toNat) (announces : sequenceOf lead = some (lo, hi, more, bits))
    (low : lo.toNat ≤ n % 64 + 0x80) (high : n % 64 + 0x80 ≤ hi.toNat) (rest : List UInt8) :
    readSequence lead (continuation n :: rest) =
      ((readContinuations more (bits * 64 + n % 64) rest).1,
        (readContinuations more (bits * 64 + n % 64) rest).2 + 1) := by
  have notAscii : ¬ lead < 0x80 := by
    rw [UInt8.lt_iff_toNat_lt]
    change ¬ lead.toNat < 128
    omega
  have within : (lo ≤ continuation n && continuation n ≤ hi) = true := by
    simp only [Bool.and_eq_true, decide_eq_true_eq, UInt8.le_iff_toNat_le, toNat_continuation]
    exact ⟨low, high⟩
  have bitsOf : (continuation n).toNat % 64 = n % 64 := by
    rw [toNat_continuation]
    omega
  unfold readSequence
  rw [if_neg notAscii, announces]
  dsimp only
  rw [if_pos within, bitsOf]

/-- The bytes of a character read as its code point, whatever comes after them. -/
theorem readSequence_utf8EncodeChar (c : Char) (rest : List UInt8) :
    ∃ lead more, String.utf8EncodeChar c = lead :: more ∧
      readSequence lead (more ++ rest) = (some c.toNat, more.length) := by
  have valid : c.toNat < 0xd800 ∨ 0xdfff < c.toNat ∧ c.toNat < 0x110000 := c.valid
  rcases utf8EncodeChar_cases c with
    ⟨narrow, bytes⟩ | ⟨low, high, bytes⟩ | ⟨low, high, bytes⟩ | ⟨low, bytes⟩
  · refine ⟨_, _, bytes, ?_⟩
    have value : (UInt8.ofNat c.toNat).toNat = c.toNat := by
      rw [UInt8.toNat_ofNat']
      omega
    have ascii : UInt8.ofNat c.toNat < 0x80 := by
      rw [UInt8.lt_iff_toNat_lt, value]
      exact narrow
    unfold readSequence
    rw [if_pos ascii, value]
    rfl
  · refine ⟨_, _, bytes, ?_⟩
    have announces := sequenceOf_two (c.toNat / 64 % 32 - 2) (by omega)
    rw [Nat.sub_add_cancel (show 2 ≤ c.toNat / 64 % 32 by omega)] at announces
    rw [List.cons_append, readSequence_of_second
      (by rw [UInt8.toNat_ofNat']; omega) announces (by change 128 ≤ _; omega)
      (by change _ ≤ 191; omega)]
    simp only [readContinuations_zero, List.length_cons, List.length_nil, Prod.mk.injEq,
      Option.some.injEq, and_true]
    omega
  · refine ⟨_, _, bytes, ?_⟩
    have announces := sequenceOf_three (c.toNat / 4096 % 16) (by omega)
    rw [List.cons_append, readSequence_of_second
      (by rw [UInt8.toNat_ofNat']; omega) announces ?least ?greatest]
    case least =>
      split
      · change 160 ≤ _; omega
      · change 128 ≤ _; omega
    case greatest =>
      split
      · change _ ≤ 159; omega
      · change _ ≤ 191; omega
    simp only [List.cons_append, readContinuations_continuation, readContinuations_zero,
      List.length_cons, List.length_nil, Prod.mk.injEq, Option.some.injEq, and_true]
    omega
  · refine ⟨_, _, bytes, ?_⟩
    rw [show c.toNat / 262144 % 8 = c.toNat / 262144 by omega]
    have announces := sequenceOf_four (c.toNat / 262144) (by omega)
    rw [List.cons_append, readSequence_of_second
      (by rw [UInt8.toNat_ofNat']; omega) announces ?least' ?greatest']
    case least' =>
      split
      · change 144 ≤ _; omega
      · change 128 ≤ _; omega
    case greatest' =>
      split
      · change _ ≤ 143; omega
      · change _ ≤ 191; omega
    simp only [List.cons_append, readContinuations_continuation, readContinuations_zero,
      List.length_cons, List.length_nil, Prod.mk.injEq, Option.some.injEq, and_true]
    omega

theorem firstChar?_utf8EncodeChar (c : Char) (rest : List UInt8) :
    firstChar? (String.utf8EncodeChar c ++ rest) = some c := by
  obtain ⟨lead, more, bytes, reads⟩ := readSequence_utf8EncodeChar c rest
  rw [bytes, List.cons_append, firstChar?, reads, Option.map_some, Char.ofNat_toNat]

/-- Reading the bytes of characters gives the characters back. -/
theorem decodeLossy_encode (cs : List Char) : decodeLossy (encode cs) = cs := by
  induction cs with
  | nil => rw [encode_nil, decodeLossy]
  | cons c cs ih =>
    obtain ⟨lead, more, bytes, reads⟩ := readSequence_utf8EncodeChar c (encode cs)
    rw [encode_cons, bytes, List.cons_append, decodeLossy]
    simp only [reads, Option.map_some, Option.getD_some, Char.ofNat_toNat, List.drop_left, ih]

theorem decode?_encode (cs : List Char) : decode? (encode cs) = some cs := by
  induction cs with
  | nil => rw [encode_nil, decode?]
  | cons c cs ih =>
    obtain ⟨lead, more, bytes, reads⟩ := readSequence_utf8EncodeChar c (encode cs)
    rw [encode_cons, bytes, List.cons_append, decode?]
    simp only [reads, List.drop_left, ih, Option.map_some, Char.ofNat_toNat]

/-! ## Texts within texts -/

theorem utf8EncodeChar_append_inj {c d : Char} {rest rest' : List UInt8}
    (same : String.utf8EncodeChar c ++ rest = String.utf8EncodeChar d ++ rest') :
    c = d ∧ rest = rest' := by
  obtain ⟨lead, more, bytes, reads⟩ := readSequence_utf8EncodeChar c rest
  obtain ⟨lead', more', bytes', reads'⟩ := readSequence_utf8EncodeChar d rest'
  have whole := same
  rw [bytes, bytes', List.cons_append, List.cons_append, List.cons.injEq] at whole
  rw [whole.1, whole.2, reads', Prod.mk.injEq, Option.some.injEq] at reads
  have chars : c = d := by rw [← Char.ofNat_toNat c, ← reads.1, Char.ofNat_toNat]
  subst chars
  exact ⟨rfl, List.append_cancel_left same⟩

theorem encode_prefix_iff {first cs : List Char} : encode first <+: encode cs ↔ first <+: cs := by
  constructor
  · intro begins
    induction first generalizing cs with
    | nil => exact List.nil_prefix
    | cons c first ih =>
      obtain ⟨rest, parts⟩ := begins
      cases cs with
      | nil =>
        have nonempty := String.utf8EncodeChar_ne_nil (c := c)
        simp_all
      | cons d cs =>
        rw [encode_cons, encode_cons, List.append_assoc] at parts
        obtain ⟨rfl, later⟩ := utf8EncodeChar_append_inj parts
        exact (List.prefix_cons_inj c).mpr (ih ⟨rest, later⟩)
  · rintro ⟨rest, rfl⟩
    exact ⟨encode rest, (encode_append first rest).symm⟩

/-- The first byte of a character continues none, all others do. -/
theorem isContinuation_utf8EncodeChar {c : Char} {lead : UInt8} {more : List UInt8}
    (bytes : String.utf8EncodeChar c = lead :: more) :
    isContinuation lead = false ∧ ∀ b ∈ more, isContinuation b = true := by
  have below {n : Nat} (small : n < 256) (outside : n < 0x80 ∨ 0xbf < n) :
      isContinuation (UInt8.ofNat n) = false := by
    have value : (UInt8.ofNat n).toNat = n := by
      rw [UInt8.toNat_ofNat']
      omega
    simp only [isContinuation, Bool.and_eq_false_iff, decide_eq_false_iff_not, UInt8.le_iff_toNat_le,
      value]
    change ¬ 128 ≤ n ∨ ¬ n ≤ 191
    omega
  rcases utf8EncodeChar_cases c with
    ⟨narrow, bytes'⟩ | ⟨low, high, bytes'⟩ | ⟨low, high, bytes'⟩ | ⟨low, bytes'⟩
  all_goals
    rw [bytes, List.cons.injEq] at bytes'
    obtain ⟨rfl, rfl⟩ := bytes'
    refine ⟨below (by omega) (by omega), ?_⟩
    simp [isContinuation_continuation]

/-- The first byte of a character stands where a character begins. -/
theorem exists_parts_of_lead {cs : List Char} {front rest : List UInt8} {lead : UInt8}
    (parts : encode cs = front ++ lead :: rest) (begins : isContinuation lead = false) :
    ∃ before after, cs = before ++ after ∧ encode before = front := by
  induction cs generalizing front with
  | nil => simp at parts
  | cons d cs ih =>
    obtain ⟨first, more, bytes⟩ :=
      List.exists_cons_of_ne_nil (String.utf8EncodeChar_ne_nil (c := d))
    cases front with
    | nil => exact ⟨[], d :: cs, rfl, rfl⟩
    | cons b front =>
      rw [encode_cons, bytes, List.cons_append, List.cons_append, List.cons.injEq] at parts
      obtain ⟨rfl, parts⟩ := parts
      rcases List.append_eq_append_iff.mp parts with ⟨onward, rfl, behind⟩ | ⟨onward, whole, behind⟩
      · obtain ⟨before, after, rfl, same⟩ := ih behind
        exact ⟨d :: before, after, rfl, by rw [encode_cons, bytes, same]; rfl⟩
      · cases onward with
        | nil =>
          rw [List.append_nil] at whole
          exact ⟨[d], cs, rfl, by rw [encode_cons, bytes, whole]; simp⟩
        | cons b' onward =>
          -- The byte would stand within the character.
          cases behind
          have inside := (isContinuation_utf8EncodeChar bytes).2 lead (by rw [whole]; simp)
          rw [inside] at begins
          cases begins

theorem isContinuation_byte {c : Char} (ascii : c.toNat < 128) : isContinuation (byte c) = false :=
  (isContinuation_utf8EncodeChar (utf8EncodeChar_of_ascii ascii)).1

/-- A byte of an ASCII character stands where that character does. -/
theorem exists_parts_of_byte {text : String} {pos : Nat} {c : Char} (ascii : c.toNat < 128)
    (here : (bytesOf text)[pos]? = some (byte c)) :
    ∃ before rest, text.toList = before ++ c :: rest ∧ pos = byteLength before := by
  obtain ⟨front, back, parts, rfl⟩ := exists_parts_of_getElem? (Array.getElem?_toList.trans here)
  rw [toList_bytesOf] at parts
  obtain ⟨before, after, whole, rfl⟩ := exists_parts_of_lead parts (isContinuation_byte ascii)
  rw [length_encode] at here
  obtain ⟨rest, rfl⟩ := exists_rest_of_byte ascii whole here
  exact ⟨before, rest, whole, length_encode before⟩

/-- A text occurs in another exactly if its bytes do. -/
theorem encode_infix_iff {needle cs : List Char} : encode needle <:+: encode cs ↔ needle <:+: cs := by
  constructor
  · rintro ⟨front, back, parts⟩
    cases needle with
    | nil => exact List.nil_infix
    | cons c needle =>
      obtain ⟨lead, more, bytes⟩ :=
        List.exists_cons_of_ne_nil (String.utf8EncodeChar_ne_nil (c := c))
      have split : encode cs = front ++ lead :: (more ++ encode needle ++ back) := by
        rw [← parts, encode_cons, bytes]
        simp
      obtain ⟨before, after, rfl, rfl⟩ :=
        exists_parts_of_lead split (isContinuation_utf8EncodeChar bytes).1
      rw [encode_append, List.append_assoc, List.append_cancel_left_eq] at parts
      exact (encode_prefix_iff.mp ⟨back, parts⟩).isInfix.trans (List.suffix_append _ _).isInfix
  · rintro ⟨front, back, rfl⟩
    exact ⟨encode front, encode back, by simp⟩

end SnapshotPreview.Text

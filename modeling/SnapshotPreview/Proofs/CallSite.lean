import Mathlib.Data.List.Induction
import SnapshotPreview.Proofs.CaretInTest
import SnapshotPreview.Proofs.Text

/-!
# The text of a call

What has to stand in a text for a call to be recognised at the quote of its first argument, and for
that argument to be read: the identifier, the parenthesis and the quote with nothing but ASCII white
space between them (`opensAt_of_parts`), then a literal without escapes (`value_read`).
-/

namespace SnapshotPreview

namespace Call

variable {text : Array UInt8} {front back : List UInt8}

theorem getElem?_of_parts {b : UInt8} (parts : text.toList = front ++ b :: back) :
    text[front.length]? = some b := by
  rw [← Array.getElem?_toList, parts, List.getElem?_append_right (Nat.le_refl _), Nat.sub_self]
  rfl

/-! ## Looking back -/

theorem trimmedLength_succ {b : UInt8} (parts : text.toList = front ++ b :: back) :
    trimmedLength text (front.length + 1) =
      if Text.isSpaceByte b then trimmedLength text front.length else front.length + 1 := by
  simp only [trimmedLength, getElem?_of_parts parts]

theorem trimmedLength_append {spaces : List UInt8} (parts : text.toList = front ++ spaces ++ back)
    (blank : ∀ b ∈ spaces, Text.isSpaceByte b = true) :
    trimmedLength text (front ++ spaces).length = trimmedLength text front.length := by
  induction spaces using List.reverseRecOn generalizing back with
  | nil => rw [List.append_nil]
  | append_singleton spaces b ih =>
    have isSpace : Text.isSpaceByte b = true := blank b (by simp)
    have last : text.toList = (front ++ spaces) ++ b :: back := by simpa using parts
    rw [← List.append_assoc, List.length_append, List.length_singleton,
      trimmedLength_succ last, if_pos isSpace]
    exact ih last (fun b isIn => blank b (List.mem_append_left _ isIn))

/-- White space before the place looked back from makes no difference. -/
theorem endsWith_append_spaces {spaces : List UInt8}
    (parts : text.toList = front ++ spaces ++ back)
    (blank : ∀ b ∈ spaces, Text.isSpaceByte b = true) (expected : List UInt8) :
    endsWith text expected (front ++ spaces).length = endsWith text expected front.length := by
  cases expected with
  | nil => rfl
  | cons b more => simp only [endsWith, trimmedLength_append parts blank]

/-- Looking back passes over a word that is expected. -/
theorem endsWith_append_word {word : List UInt8} (parts : text.toList = front ++ word ++ back)
    (solid : ∀ b ∈ word, Text.isSpaceByte b = false) (more : List UInt8) :
    endsWith text (word.reverse ++ more) (front ++ word).length =
      endsWith text more front.length := by
  induction word using List.reverseRecOn generalizing back with
  | nil => simp
  | append_singleton word b ih =>
    have notSpace : ¬ Text.isSpaceByte b = true := by simp [solid b (by simp)]
    have last : text.toList = (front ++ word) ++ b :: back := by simpa using parts
    rw [← List.append_assoc, List.length_append, List.length_singleton,
      List.reverse_append, List.reverse_singleton, List.append_assoc, List.singleton_append,
      endsWith, trimmedLength_succ last, if_neg notSpace]
    simp only [getElem?_of_parts last, BEq.rfl, Bool.true_and]
    exact ih last (fun b isIn => solid b (List.mem_append_left _ isIn))

/-- What is looked back at from behind a byte that is not white space begins with that byte or
stands behind it. -/
theorem lt_trimmedLength {b : UInt8} {p len : Nat} (here : text[p]? = some b)
    (solid : Text.isSpaceByte b = false) (before : p < len) : p < trimmedLength text len := by
  induction len with
  | zero => omega
  | succ len ih =>
    unfold trimmedLength
    by_cases last : p = len
    · rw [← last, here]
      simp [solid]
    · split
      · split
        · exact ih (by omega)
        · omega
      · omega

/-! ## Openings -/

theorem toList_bytesOf_opening (ident : String) :
    (Text.bytesOf (opening ident)).toList =
      Text.encode ident.toList ++ [Text.byte '(', Text.byte '\x27'] := by
  rw [Text.toList_bytesOf, opening, String.toList_append, Text.encode_append]
  rfl

/-- An identifier, a parenthesis and a single quote, with white space between them. -/
theorem opensAt_of_parts {ident : String} {run spaces : List UInt8}
    (parts : text.toList = front ++ Text.encode ident.toList ++ run ++ [Text.byte '('] ++ spaces ++
      Text.byte '\x27' :: back)
    (solid : ∀ c ∈ ident.toList, Text.isSpace c = false)
    (blankRun : ∀ b ∈ run, Text.isSpaceByte b = true)
    (blankSpaces : ∀ b ∈ spaces, Text.isSpaceByte b = true) :
    opensAt text (opening ident) (front ++ Text.encode ident.toList ++ run ++ [Text.byte '('] ++
      spaces).length = true := by
  have quote := getElem?_of_parts parts
  have notSpace : ¬ Text.isSpaceByte (Text.byte '\x27') = true := by decide
  have solidWord : ∀ b ∈ Text.encode ident.toList, Text.isSpaceByte b = false :=
    fun b isIn => Text.isSpaceByte_of_mem_encode solid isIn
  have solidParen : ∀ b ∈ [Text.byte '('], Text.isSpaceByte b = false := by
    intro b isIn
    rw [List.mem_singleton.mp isIn]
    decide
  have word : (Text.bytesOf (opening ident)).toList.reverse = Text.byte '\x27' ::
      ([Text.byte '('].reverse ++ ((Text.encode ident.toList).reverse ++ [])) := by
    rw [toList_bytesOf_opening]
    simp
  -- From right to left: the space, the parenthesis, the space before it, the identifier.
  have toParen : text.toList = front ++ Text.encode ident.toList ++ run ++ [Text.byte '('] ++
      (spaces ++ Text.byte '\x27' :: back) := by simpa using parts
  have toRun : text.toList = front ++ Text.encode ident.toList ++ run ++
      (Text.byte '(' :: (spaces ++ Text.byte '\x27' :: back)) := by simpa using parts
  have toWord : text.toList = front ++ Text.encode ident.toList ++
      (run ++ Text.byte '(' :: (spaces ++ Text.byte '\x27' :: back)) := by simpa using parts
  rw [opensAt, quote, word, endsWith, trimmedLength_succ parts, if_neg notSpace]
  simp only [quote, BEq.rfl, Bool.true_and]
  rw [endsWith_append_spaces parts blankSpaces, endsWith_append_word toParen solidParen,
    endsWith_append_spaces toRun blankRun, endsWith_append_word toWord solidWord]
  rfl

theorem name_of_opensAt {vocabulary : Vocabulary} {kind : CallKind} {ident : String} {pos : Nat}
    (known : ident ∈ vocabulary.identifiers kind)
    (opens : opensAt text (opening ident) pos = true) :
    (at? text vocabulary kind pos).map name = some (Quoted.read text pos).value := by
  have hit : (vocabulary.identifiers kind).any
      (fun ident => opensAt text (opening ident) pos) = true :=
    List.any_eq_true.mpr ⟨ident, known, opens⟩
  rw [at?, if_pos hit]
  rfl

/-- No call begins at a quote between which and an earlier byte no parenthesis stands. -/
theorem at?_eq_none_of_noParen {vocabulary : Vocabulary} {kind : CallKind} {b : UInt8} {p pos : Nat}
    (here : text[p]? = some b) (solid : Text.isSpaceByte b = false) (before : p < pos)
    (noParen : ∀ q, p ≤ q → q < pos → text[q]? ≠ some (Text.byte '(')) :
    at? text vocabulary kind pos = none := by
  have noOpening (ident : String) : opensAt text (opening ident) pos = false := by
    have notSpace : ¬ Text.isSpaceByte (Text.byte '\x27') = true := by decide
    have word : (Text.bytesOf (opening ident)).toList.reverse =
        Text.byte '\x27' :: Text.byte '(' :: (Text.encode ident.toList).reverse := by
      rw [toList_bytesOf_opening]
      simp
    rw [opensAt, word]
    by_cases quote : text[pos]? = some (Text.byte '\x27')
    · have last : trimmedLength text (pos + 1) = pos + 1 := by
        simp [trimmedLength, quote, notSpace]
      have found := lt_trimmedLength here solid before
      have bound := trimmedLength_le text pos
      simp only [endsWith, last]
      obtain ⟨q, length⟩ : ∃ q, trimmedLength text pos = q + 1 :=
        ⟨_, (Nat.succ_pred (by omega)).symm⟩
      have other := noParen q (by omega) (by omega)
      simp [length, other]
    · simp [quote]
  rw [at?, if_neg]
  simp [noOpening]

end Call

namespace Quoted

/-- Bytes that are neither a quote nor a backslash are kept, and the scan goes on behind them. -/
theorem scan_plain_append {quote : UInt8} {bytes : List UInt8} (noQuote : quote ∉ bytes)
    (noEscape : Text.byte '\\' ∉ bytes) (rest : List UInt8) :
    scan quote (bytes ++ rest) =
      (bytes ++ (scan quote rest).1, bytes.length + (scan quote rest).2) := by
  induction bytes with
  | nil => simp
  | cons b bytes ih =>
    rw [List.mem_cons, not_or] at noQuote noEscape
    rw [List.cons_append, scan.eq_def]
    simp only [if_neg (Ne.symm noQuote.1), if_neg (Ne.symm noEscape.1), ih noQuote.2 noEscape.2,
      List.cons_append, List.length_cons, Prod.mk.injEq, true_and]
    omega

theorem scan_quote (quote : UInt8) (rest : List UInt8) : scan quote (quote :: rest) = ([], 0) := by
  rw [scan.eq_def]
  exact if_pos rfl

/-- A literal without escapes ends at the first quote. -/
theorem scan_append {quote : UInt8} {bytes : List UInt8} (noQuote : quote ∉ bytes)
    (noEscape : Text.byte '\\' ∉ bytes) (rest : List UInt8) :
    scan quote (bytes ++ quote :: rest) = (bytes, bytes.length) := by
  rw [scan_plain_append noQuote noEscape, scan_quote, List.append_nil, Nat.add_zero]

theorem read_of_parts {text : Array UInt8} {front rest : List UInt8} {quote : UInt8}
    (parts : text.toList = front ++ quote :: rest) (closes : quoteOf (some quote) = quote) :
    read text front.length =
      { value := String.ofList (Text.decodeLossy (scan quote rest).1)
        stop := min (front.length + 1 + (scan quote rest).2) text.size } := by
  have here := Call.getElem?_of_parts parts
  have after : text.toList.drop (front.length + 1) = rest := by
    rw [parts, ← List.drop_drop, List.drop_left]
    rfl
  simp only [read, here, closes, after]

/-- A literal without quotes and escapes is read as it stands. -/
theorem value_read {text : Array UInt8} {front back : List UInt8} {literal : List Char}
    (parts : text.toList =
      front ++ Text.byte '\x27' :: (Text.encode literal ++ Text.byte '\x27' :: back))
    (noQuote : '\x27' ∉ literal) (noEscape : '\\' ∉ literal) :
    (read text front.length).value = String.ofList literal := by
  have noQuoteByte : Text.byte '\x27' ∉ Text.encode literal :=
    fun isIn => noQuote ((Text.byte_mem_encode_iff (by decide)).mp isIn)
  have noEscapeByte : Text.byte '\\' ∉ Text.encode literal :=
    fun isIn => noEscape ((Text.byte_mem_encode_iff (by decide)).mp isIn)
  rw [read_of_parts parts (by decide), scan_append noQuoteByte noEscapeByte back,
    Text.decodeLossy_encode]

end Quoted

end SnapshotPreview

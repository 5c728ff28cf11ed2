import SnapshotPreview.Text.Affix
import SnapshotPreview.Toml.Layout

/-!
# Reading strings

A string stands between single or double quotes on one line, or between three of them on several.
Backslashes are escapes between double quotes only.
-/

namespace SnapshotPreview.Toml

/-! ## Digits -/

/-- The value of a digit, for bases up to sixteen. -/
def digitValue? (base : Nat) (c : Char) : Option Nat :=
  let value :=
    if '0' ≤ c && c ≤ '9' then c.toNat - '0'.toNat
    else if 'a' ≤ c && c ≤ 'f' then c.toNat - 'a'.toNat + 10
    else if 'A' ≤ c && c ≤ 'F' then c.toNat - 'A'.toNat + 10
    else base
  if value < base then some value else none

/-- The number that digits write. -/
def numberOf? (base : Nat) (digits : List Char) : Option Nat :=
  digits.foldlM (fun n c => (digitValue? base c).map (n * base + ·)) 0

/-! ## Escapes -/

/-- The character that a letter after a backslash stands for. -/
def shortEscape? (c : Char) : Option Char :=
  if c == '"' || c == '\\' then some c
  else if c == 'b' then some '\x08'
  else if c == 't' then some '\t'
  else if c == 'n' then some '\n'
  else if c == 'f' then some '\x0c'
  else if c == 'r' then some '\r'
  else if c == 'e' then some '\x1b'
  else none

/-- The number of hexadecimal digits after a letter that begins a code point. -/
def codeWidth? (c : Char) : Option Nat :=
  if c == 'x' then some 2
  else if c == 'u' then some 4
  else if c == 'U' then some 8
  else none

/-- The character of a code point, unless it is a surrogate or too large. -/
def charOf? (code : Nat) : Option Char :=
  if code < 0xd800 || (0xdfff < code && code < 0x110000) then some (Char.ofNat code) else none

/-- The character written by digits of a code point, all of which must be there. -/
def readCode (width : Nat) : Reader Char := fun cs =>
  if (cs.take width).length = width then
    ((numberOf? 16 (cs.take width)).bind charOf?).map (·, cs.drop width)
  else none

/-- The character that an escape stands for. Its backslash has been read. -/
def readEscape : Reader Char
  | [] => none
  | c :: rest =>
    match shortEscape? c with
    | some escaped => some (escaped, rest)
    | none => (codeWidth? c).bind (readCode · rest)

theorem length_le_of_readCode {width : Nat} {cs rest : List Char} {c : Char}
    (h : readCode width cs = some (c, rest)) : rest.length ≤ cs.length := by
  unfold readCode at h
  split at h
  · obtain ⟨_, _, heq⟩ := Option.map_eq_some_iff.1 h
    cases heq
    simp
  · cases h

theorem length_lt_of_readEscape {cs rest : List Char} {c : Char}
    (h : readEscape cs = some (c, rest)) : rest.length < cs.length := by
  unfold readEscape at h
  split at h
  · cases h
  · split at h
    · cases h; simp
    · obtain ⟨width, _, h⟩ := Option.bind_eq_some_iff.1 h
      have := length_le_of_readCode h
      simp only [List.length_cons]
      omega

/-! ## Strings on one line -/

/-- Puts a character before what has been read. -/
def prepend (c : Char) (read : Option (List Char × List Char)) : Option (List Char × List Char) :=
  read.map fun (cs, rest) => (c :: cs, rest)

/-- The characters of a string up to its closing quote on the same line. -/
def readLine (quote : Char) (cs : List Char) : Option (List Char × List Char) :=
  match cs with
  | [] => none
  | c :: rest =>
    if c = quote then some ([], rest)
    else if c = '\\' ∧ quote = '"' then
      match _h : readEscape rest with
      | some (escaped, rest) => prepend escaped (readLine quote rest)
      | none => none
    else if isPlain c then prepend c (readLine quote rest)
    else none
termination_by cs.length
decreasing_by
  · have := length_lt_of_readEscape _h
    simp only [List.length_cons]
    omega
  · exact Nat.lt_succ_self _

/-! ## Strings on several lines -/

/-- The end of a string on several lines: three quotes, before which up to two belong to it. -/
def closeBlock? (quote : Char) (cs : List Char) : Option (List Char × List Char) :=
  (Text.afterPrefix? [quote, quote, quote] cs).map fun rest =>
    let more := (rest.takeWhile (· == quote)).take 2
    (more, rest.drop more.length)

/-- Whether a character may stand for itself in a string on several lines. -/
def isBlockChar (c : Char) (rest : List Char) : Bool :=
  isPlain c || c == '\n' || (c == '\r' && rest.head? == some '\n')

theorem length_skipLines_le (cs : List Char) : (skipLines cs).length ≤ cs.length := by
  fun_induction skipLines cs with
  | case1 cs rest h ih =>
    have := length_lt_of_afterNewline? h
    have := length_skipBlanks_le cs
    omega
  | case2 cs => exact length_skipBlanks_le cs

/-- The characters of a string up to its three closing quotes. A backslash at the end of a line
joins it with the next line that is not empty. -/
def readBlock (quote : Char) (cs : List Char) : Option (List Char × List Char) :=
  match closeBlock? quote cs with
  | some closed => some closed
  | none =>
    match cs with
    | [] => none
    | c :: rest =>
      if c = '\\' ∧ quote = '"' then
        match _hn : afterNewline? (skipBlanks rest) with
        | some next => readBlock quote (skipLines next)
        | none =>
          match _h : readEscape rest with
          | some (escaped, rest) => prepend escaped (readBlock quote rest)
          | none => none
      else if isBlockChar c rest then prepend c (readBlock quote rest)
      else none
termination_by cs.length
decreasing_by
  · have := length_lt_of_afterNewline? _hn
    have := length_skipBlanks_le rest
    have := length_skipLines_le next
    simp only [List.length_cons]
    omega
  · have := length_lt_of_readEscape _h
    simp only [List.length_cons]
    omega
  · exact Nat.lt_succ_self _

/-! ## All strings -/

/-- A single or a double quote. -/
def isQuote (c : Char) : Bool := c == '"' || c == '\x27'

/-- A string with its quotes. The end of a line directly after three quotes does not count. -/
def readString : Reader String
  | [] => none
  | quote :: rest =>
    if isQuote quote then
      let read :=
        match Text.afterPrefix? [quote, quote] rest with
        | some rest => readBlock quote ((afterNewline? rest).getD rest)
        | none => readLine quote rest
      read.map fun (cs, rest) => (String.ofList cs, rest)
    else none

end SnapshotPreview.Toml

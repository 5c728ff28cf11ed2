import SnapshotPreview.CommandLine.Shell.Syntax

/-!
# Printing arguments

What `echo` prints: its arguments with blanks between them, in which a backslash begins an escape.
-/

namespace SnapshotPreview.Shell

/-- An octal digit. -/
def isOctal (c : Char) : Bool := '0' ≤ c && c ≤ '7'

/-- The byte that octal digits write. -/
def octalByte (digits : List Char) : Char :=
  Char.ofNat (digits.foldl (fun n c => n * 8 + digit c) 0 % 256)

/-- The octal digits at the start of a text, at most `count` of them, and what follows them. -/
def splitOctal : Nat → List Char → List Char × List Char
  | count + 1, c :: rest =>
    if isOctal c then
      let (digits, rest) := splitOctal count rest
      (c :: digits, rest)
    else ([], c :: rest)
  | _, rest => ([], rest)

theorem length_splitOctal_le (count : Nat) (cs : List Char) :
    (splitOctal count cs).2.length ≤ cs.length := by
  fun_induction splitOctal count cs with
  | case1 count c rest _ _ _ h ih =>
    rw [h] at ih
    exact Nat.le_succ_of_le ih
  | case2 => exact Nat.le_refl _
  | case3 => exact Nat.le_refl _

/-- Where the digits of an octal escape begin: after a zero, or with any other digit. -/
def octalDigits (c : Char) (rest : List Char) : List Char := if c = '0' then rest else c :: rest

theorem length_octalDigits_le (c : Char) (rest : List Char) :
    (octalDigits c rest).length ≤ rest.length + 1 := by
  unfold octalDigits
  split
  · exact Nat.le_succ _
  · exact Nat.le_refl _

/-- What a letter after a backslash writes. -/
def echoEscape? (c : Char) : Option Char :=
  match c with
  | 'a' => some '\x07'
  | 'b' => some '\x08'
  | 'e' => some '\x1b'
  | 'f' => some '\x0c'
  | 'n' => some '\n'
  | 'r' => some '\r'
  | 't' => some '\t'
  | 'v' => some '\x0b'
  | '\\' => some '\\'
  | _ => none

/-- The text that is written for arguments, with its escapes, and whether it goes on after them.
Octal digits may follow a zero. -/
def echoText (cs : List Char) : List Char × Bool :=
  match cs with
  | '\\' :: c :: rest =>
    if c = 'c' then ([], false)
    else if isOctal c then
      let digits := splitOctal 3 (octalDigits c rest)
      let (more, goesOn) := echoText digits.2
      (octalByte digits.1 :: more, goesOn)
    else
      match echoEscape? c with
      | some escaped =>
        let (more, goesOn) := echoText rest
        (escaped :: more, goesOn)
      | none =>
        let (more, goesOn) := echoText (c :: rest)
        ('\\' :: more, goesOn)
  | c :: rest =>
    let (more, goesOn) := echoText rest
    (c :: more, goesOn)
  | [] => ([], true)
termination_by cs.length
decreasing_by
  · have := length_splitOctal_le 3 (octalDigits c rest)
    have := length_octalDigits_le c rest
    simp only [List.length_cons]
    omega
  · simp only [List.length_cons]; omega
  · simp only [List.length_cons]; omega
  · exact Nat.lt_succ_self _

/-- What `echo` prints. -/
def echo (arguments : List (List Char)) : List Char :=
  let (ends, arguments) :=
    match arguments with
    | ['-', 'n'] :: rest => (false, rest)
    | all => (true, all)
  let (cs, goesOn) := echoText (List.intercalate [' '] arguments)
  if ends && goesOn then cs ++ ['\n'] else cs

end SnapshotPreview.Shell

import SnapshotPreview.CommandLine.Shell.Arithmetic
import SnapshotPreview.CommandLine.Shell.Pattern

/-!
# What words stand for

A word stands for text in which its variables, commands and expressions have been replaced. What
they have brought is cut into fields, and fields are patterns for the names of files.
-/

namespace SnapshotPreview.Shell

/-- A piece of the text of a word. -/
inductive Glyph where
  /-- A character as it was written. -/
  | plain (c : Char)
  /-- A character at which fields may be cut. -/
  | loose (c : Char)
  /-- A character that stands for itself. -/
  | quoted (c : Char)
  /-- A quote. -/
  | mark
  /-- The end of an argument. -/
  | edge
deriving DecidableEq, Repr

namespace Glyph

/-- The glyphs of text that a variable or a command has brought. -/
def ofValue (isQuoted : Bool) (cs : List Char) : List Glyph :=
  cs.map (if isQuoted then quoted else loose)

/-- The text of glyphs. -/
def textOf (gs : List Glyph) : List Char :=
  gs.filterMap fun
    | plain c | loose c | quoted c => some c
    | mark => none
    | edge => some ' '

/-- The pattern that glyphs are. -/
def patternOf (gs : List Glyph) : Pattern :=
  gs.filterMap fun
    | plain c | loose c => some (c, false)
    | quoted c => some (c, true)
    | mark => none
    | edge => some (' ', false)

/-- A blank, several of which separate fields only once. -/
def isBlank (c : Char) : Bool := c == ' ' || c == '\t' || c == '\n'

/-- Cuts glyphs into fields. The field so far is given backwards, and so is what the last cut
allows to be skipped: blanks, and perhaps one other separator. -/
def fields (separators : List Char) : (skips : Option Bool) → (field : List Glyph) →
    List Glyph → List (List Glyph)
  | _, [], [] => []
  | _, field, [] => [field.reverse]
  | skips, field, g :: rest =>
    let cut (skips : Option Bool) : List (List Glyph) :=
      field.reverse :: fields separators skips [] rest
    match g with
    | edge => if field.isEmpty then fields separators none [] rest else cut none
    | loose c =>
      if separators.contains c then
        match skips with
        | some allowed =>
          if isBlank c then fields separators skips [] rest
          else if allowed then fields separators (some false) [] rest
          else cut (some false)
        | none =>
          if !isBlank c then cut (some false)
          else if field.isEmpty then fields separators none [] rest
          else cut (some true)
      else fields separators none (g :: field) rest
    | _ => fields separators none (g :: field) rest

end Glyph

/-! ## Parts -/

/-- The glyphs of all arguments. -/
def argumentGlyphs (isQuoted : Bool) (arguments : List (List Char)) : List Glyph :=
  List.intercalate [Glyph.edge]
    (arguments.map fun a => (if isQuoted then [Glyph.mark] else []) ++ Glyph.ofValue isQuoted a)

/-- The glyphs of the value of a variable. -/
def valueGlyphs (s : State) (isQuoted : Bool) (name : List Char) : List Glyph :=
  if name = ['@'] ∨ (name = ['*'] ∧ !isQuoted) then argumentGlyphs isQuoted s.arguments
  else if name = ['*'] then
    Glyph.ofValue true (List.intercalate (s.separators.take 1) s.arguments)
  else Glyph.ofValue isQuoted ((s.value? name).getD [])

/-- The text without the line ends after it, and without NUL. -/
def chomp (cs : List Char) : List Char :=
  ((cs.filter (· != '\x00')).reverse.dropWhile (· == '\n')).reverse

mutual

/-- The glyphs of a part of a word. Within the braces of a variable, written text may be cut into
fields. -/
def expandPart (perform : List Command → Action Unit) (inBraces : Bool) :
    Part → Action (List Glyph)
  | .text isQuoted cs =>
    return cs.map (if isQuoted then .quoted else if inBraces then .loose else .plain)
  | .mark => return [.mark]
  | .home => return Glyph.ofValue true ((Assoc.get? "HOME".toList (← get).values).getD ['~'])
  | .value isQuoted name => return valueGlyphs (← get) isQuoted name
  | .size isQuoted name => do
    let size := (((← get).value? name).getD []).length
    return Glyph.ofValue isQuoted (digitsOf size)
  | .instead isQuoted name emptyToo use word => do
    let value := (← get).value? name
    let isMissing := value.isNone || (emptyToo && value == some [])
    match use, isMissing with
    | .whenUnset, true => expandParts perform true word
    | .whenSet, true => return []
    | .whenSet, false => expandParts perform true word
    | .assigned, true =>
      let gs ← expandParts perform true word
      setVariable name (Glyph.textOf gs)
      return valueGlyphs (← get) isQuoted name
    | .refused, true =>
      let gs ← expandParts perform true word
      fail (toText name ++ ": " ++
        (if !word.isEmpty then toText (Glyph.textOf gs)
          else if emptyToo then "parameter not set or null"
          else "parameter not set"))
    | _, false => return valueGlyphs (← get) isQuoted name
  | .trim isQuoted name atEnd longest pattern => do
    match (← get).value? name with
    | none => return []
    | some value =>
      let gs ← expandParts perform false pattern
      return Glyph.ofValue isQuoted ((Glyph.patternOf gs).trim atEnd longest value)
  | .output _ [] => do
    modify fun s => { s with innerStatus := 0 }
    return []
  | .output isQuoted program => do
    return Glyph.ofValue isQuoted (chomp (← capture (perform program)))
  | .arithmetic isQuoted expression => do
    let gs ← expandParts perform false expression
    return Glyph.ofValue isQuoted (← Arithmetic.evaluate (Glyph.textOf gs))
  | .malformed => fail "Bad substitution"

/-- The glyphs of parts. Arguments between quotes are nothing at all if there are none. -/
def expandParts (perform : List Command → Action Unit) (inBraces : Bool) :
    List Part → Action (List Glyph)
  | [] => return []
  | .mark :: .value true ['@'] :: .mark :: parts => do
    let gs := argumentGlyphs true (← get).arguments
    return gs ++ (← expandParts perform inBraces parts)
  | part :: parts => do
    let gs ← expandPart perform inBraces part
    return gs ++ (← expandParts perform inBraces parts)

end

/-! ## Words -/

/-- The text of a word. -/
def expandText (perform : List Command → Action Unit) (w : Word) : Action (List Char) := do
  return Glyph.textOf (← expandParts perform false w)

/-- The pattern that a word is. -/
def expandPattern (perform : List Command → Action Unit) (w : Word) : Action Pattern := do
  return Glyph.patternOf (← expandParts perform false w)

/-- The fields of a word: the paths of the files that match them, or they themselves. -/
def expandFields (perform : List Command → Action Unit) (w : Word) :
    Action (List (List Char)) := do
  let gs ← expandParts perform false w
  let s ← get
  return (Glyph.fields s.separators none [] gs).flatMap fun field =>
    (Glyph.patternOf field).paths s.files

/-- The fields of words. -/
def expandAll (perform : List Command → Action Unit) (words : List Word) :
    Action (List (List Char)) := do
  return (← words.mapM (expandFields perform)).flatten

end SnapshotPreview.Shell

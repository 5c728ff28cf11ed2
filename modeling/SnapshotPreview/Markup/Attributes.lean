import SnapshotPreview.Markup.StyleObject
import SnapshotPreview.Text.Ranges
import SnapshotPreview.Text.Rule
import SnapshotPreview.Text.Word

/-!
# Attributes of component markup

Serialized components use names and values that are not HTML. Here they are turned into HTML, one
form after the other over the whole text.
-/

namespace SnapshotPreview.Markup

open Text

/-- The attribute for class names. -/
def classNameRule : Rule := .literal 'c' "lassName".toList "class".toList

/-- An attribute that is true needs no value. -/
def trueRule : Rule := .literal '=' "\x7btrue\x7d".toList []

/-- An attribute that is false gets a name without meaning. -/
def falseRule : Rule := .literal '=' "\x7bfalse\x7d".toList "__never".toList

/-! ## Tags without content -/

/-- The name and the attributes of a tag that closes itself, from the text between its brackets.
White space before the name and after the slash is dropped. -/
def splitSelfClosing (inner : List Char) : Option (List Char × List Char) :=
  match (trimEnd (trimStart inner)).reverse with
  | '/' :: content =>
    let content := content.reverse
    let name := content.takeWhile fun c => !isBlank c
    if name.isEmpty then none else some (name, content.dropWhile fun c => !isBlank c)
  | _ => none

/-- A tag that closes itself. -/
def selfClosingStep (cs : List Char) : Option (List Char × List Char) :=
  (afterPrefix? ['<'] cs).bind fun rest =>
    (afterPrefix? ['>'] (rest.dropWhile (· != '>'))).bind fun after =>
      (splitSelfClosing (rest.takeWhile (· != '>'))).map fun (name, attributes) =>
        ('<' :: name ++ attributes ++ "></".toList ++ name ++ ['>'], after)

/-- A tag that closes itself becomes an opening and a closing tag. -/
def selfClosingRule : Rule where
  step := selfClosingStep
  shorter := by
    intro cs out rest h
    obtain ⟨r₁, h₁, h⟩ := Option.bind_eq_some_iff.1 h
    obtain ⟨r₂, h₂, h⟩ := Option.bind_eq_some_iff.1 h
    obtain ⟨parts, _, heq⟩ := Option.map_eq_some_iff.1 h
    cases heq
    have := length_of_afterPrefix? h₁
    have := length_of_afterPrefix? h₂
    have := length_dropWhile_le (· != '>') r₁
    simp only [List.length_cons, List.length_nil] at *
    omega

/-! ## Numbers -/

/-- A character of a number. -/
def isNumberChar (c : Char) : Bool := isDigit c || c == '.'

/-- A number in braces, which may be empty. -/
def numberStep (cs : List Char) : Option (List Char × List Char) :=
  (afterPrefix? "=\x7b".toList cs).bind fun rest =>
    (afterPrefix? ['\x7d'] (rest.dropWhile isNumberChar)).map fun after =>
      ("=\"".toList ++ rest.takeWhile isNumberChar ++ ['"'], after)

/-- A number in braces becomes a quoted one. -/
def numberRule : Rule where
  step := numberStep
  shorter := by
    intro cs out rest h
    obtain ⟨r₁, h₁, h⟩ := Option.bind_eq_some_iff.1 h
    obtain ⟨r₂, h₂, heq⟩ := Option.map_eq_some_iff.1 h
    cases heq
    have := length_of_afterPrefix? h₁
    have := length_of_afterPrefix? h₂
    have := length_dropWhile_le isNumberChar r₁
    simp only [List.length_cons, List.length_nil] at *
    omega

/-! ## Whole texts -/

/-- Turns the attributes of component markup into HTML. -/
def normalizeAttributes (markup : String) : String :=
  let styled := inlineStylesOrKeep (classNameRule.apply markup)
  let tags := selfClosingRule.replaceAll styled.toList
  let flags := falseRule.replaceAll (trueRule.replaceAll tags)
  String.ofList (numberRule.replaceAll flags)

end SnapshotPreview.Markup

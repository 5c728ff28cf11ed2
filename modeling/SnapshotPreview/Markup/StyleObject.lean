import SnapshotPreview.Json.Parser
import SnapshotPreview.Json.Printer
import SnapshotPreview.Text.Affix

/-!
# Style objects

A serializer prints a style as an object over several lines: `style=` and a brace, on the next line
`Object` with one property a line, and a closing brace on a line of its own. Such an object becomes
a style attribute with one declaration for each property.
-/

namespace SnapshotPreview.Markup

open Text

/-- A style object that cannot be read, with the position of its opening brace in bytes. -/
structure MalformedStyle where
  offset : Nat
  problem : Json.Problem
deriving DecidableEq, Repr

/-- A property name with a dash and a small letter for each ASCII capital. -/
def kebabChars : List Char → List Char
  | [] => []
  | c :: rest => if c.isUpper then '-' :: c.toLower :: kebabChars rest else c :: kebabChars rest

/-- The name of the style for the name of a property. -/
def kebabCase (name : String) : String := String.ofList (kebabChars name.toList)

/-! ## Finding style objects -/

/-- The text after the last opening brace that follows the word `Object` on the first line. -/
def afterLastObject? : List Char → Option (List Char)
  | [] => none
  | c :: rest =>
    if c = '\n' then none
    else (afterLastObject? rest).or (afterPrefix? "Object \x7b".toList (c :: rest))

/-- The text after the last closing brace on the first line. -/
def afterLastBrace? : List Char → Option (List Char)
  | [] => none
  | c :: rest =>
    if c = '\n' then none
    else (afterLastBrace? rest).or (if c = '\x7d' then some rest else none)

/-- A style object within a text. -/
structure StyleObject where
  /-- The text within its braces. -/
  body : List Char
  /-- The text after its opening brace. -/
  inside : List Char
  /-- The text after the whole attribute. -/
  rest : List Char

/-- The style object with which a text begins. It ends at the first closing brace, and the line
after it holds the closing brace of the attribute. -/
def StyleObject.at? (cs : List Char) : Option StyleObject :=
  (afterPrefix? "style=\x7b\n".toList cs).bind fun lines =>
    (afterLastObject? lines).bind fun inside =>
      (afterPrefix? "\x7d\n".toList (inside.dropWhile (· != '\x7d'))).bind fun last =>
        (afterLastBrace? last).map fun rest =>
          { body := inside.takeWhile (· != '\x7d'), inside, rest }

theorem length_lt_of_afterLastObject? {cs rest : List Char}
    (h : afterLastObject? cs = some rest) : rest.length < cs.length := by
  induction cs with
  | nil => cases h
  | cons c tail ih =>
    simp only [afterLastObject?] at h
    split at h
    · cases h
    · rcases Option.or_eq_some_iff.1 h with h | ⟨_, h⟩
      · have := ih h; simp only [List.length_cons]; omega
      · have := length_of_afterPrefix? h; simp at this; simp only [List.length_cons]; omega

theorem length_lt_of_afterLastBrace? {cs rest : List Char}
    (h : afterLastBrace? cs = some rest) : rest.length < cs.length := by
  induction cs with
  | nil => cases h
  | cons c tail ih =>
    simp only [afterLastBrace?] at h
    split at h
    · cases h
    · rcases Option.or_eq_some_iff.1 h with h | ⟨_, h⟩
      · have := ih h; simp only [List.length_cons]; omega
      · split at h
        · cases h; simp
        · cases h

theorem StyleObject.length_rest_lt {cs : List Char} {o : StyleObject} (h : at? cs = some o) :
    o.rest.length < cs.length := by
  unfold StyleObject.at? at h
  obtain ⟨lines, h₁, h⟩ := Option.bind_eq_some_iff.1 h
  obtain ⟨inside, h₂, h⟩ := Option.bind_eq_some_iff.1 h
  obtain ⟨last, h₃, h⟩ := Option.bind_eq_some_iff.1 h
  obtain ⟨rest, h₄, heq⟩ := Option.map_eq_some_iff.1 h
  cases heq
  have := length_of_afterPrefix? h₁
  have := length_lt_of_afterLastObject? h₂
  have := length_of_afterPrefix? h₃
  have := length_lt_of_afterLastBrace? h₄
  have := (List.dropWhile_sublist (l := inside) (· != '\x7d')).length_le
  dsimp only
  omega

/-! ## Converting them -/

/-- Removes the first comma at the end of a line that is followed by a line with a closing brace,
and all of that line up to its last closing brace. -/
def dropLastComma : List Char → List Char
  | [] => []
  | c :: rest =>
    match (afterPrefix? ",\n".toList (c :: rest)).bind afterLastBrace? with
    | some tail => '\x7d' :: tail
    | none => c :: dropLastComma rest

/-- The declarations for the properties of an object. -/
def declarations (properties : List (String × Json)) : String :=
  String.join (properties.map fun (name, v) => kebabCase name ++ ": " ++ v.plainText ++ "; ")

/-- The style attribute for the text within the braces of a style object. -/
def styleAttribute (body : List Char) : Except Json.Problem String :=
  match Json.parse (String.ofList (dropLastComma ('\x7b' :: body ++ ['\x7d']))) with
  | .ok (.object properties) => .ok ("style=\"" ++ declarations properties ++ "\"")
  | .ok _ => .error .mismatched
  | .error problem => .error problem

/-- Converts every style object of a text whose end is the end of a text of so many bytes. -/
def inlineStylesFrom (size : Nat) (cs : List Char) : Except MalformedStyle (List Char) :=
  match _h : StyleObject.at? cs with
  | some o =>
    match styleAttribute o.body with
    | .ok style => (inlineStylesFrom size o.rest).map (style.toList ++ ·)
    | .error problem =>
      .error { offset := size - Text.byteLength ('\x7b' :: o.inside), problem }
  | none =>
    match cs with
    | [] => .ok []
    | c :: rest => (inlineStylesFrom size rest).map (c :: ·)
termination_by cs.length
decreasing_by
  · exact StyleObject.length_rest_lt _h
  · exact Nat.lt_succ_self _

/-- Converts every style object, or fails at the first that cannot be read. -/
def inlineStyles (markup : String) : Except MalformedStyle String :=
  (inlineStylesFrom markup.utf8ByteSize markup.toList).map String.ofList

/-- Converts every style object, or none if one of them cannot be read. -/
def inlineStylesOrKeep (markup : String) : String :=
  match inlineStyles markup with
  | .ok converted => converted
  | .error _ => markup

end SnapshotPreview.Markup

import SnapshotPreview.Assoc
import SnapshotPreview.Text.Affix
import SnapshotPreview.Text.Alphanumeric

/-!
# Variables in paths

A path of the configuration may name variables of the environment, and the home directory by a tilde
at its start.
-/

namespace SnapshotPreview

/-- The variables that are set. -/
structure Environment where
  values : List (String × String) := []
deriving DecidableEq, Repr

namespace Environment

/-- The value of a variable. A variable and its value stand together as `name=value`, and a name may
go on past the first equals sign. -/
def get? (e : Environment) (name : List Char) : Option (List Char) :=
  e.values.findSome? fun (key, value) =>
    Text.afterPrefix? (name ++ ['=']) (key.toList ++ '=' :: value.toList)

/-- The home directory. An empty name counts as none. -/
def home? (e : Environment) : Option (List Char) :=
  (e.get? "HOME".toList).filter fun home => !home.isEmpty

/-! ## Variables -/

/-- A character of the name of a variable. -/
def isNameChar (c : Char) : Bool := Text.isAlphanumeric c || c == '_'

/-- A name between braces and the default after it. A default needs a name before it. -/
def splitDefault (cs : List Char) : List Char × Option (List Char) :=
  go [] cs
where
  /-- Looks for the first mark of a default; `before` holds what came before, backwards. -/
  go (before : List Char) : List Char → List Char × Option (List Char)
    | ':' :: '-' :: rest =>
      if before.isEmpty then (':' :: '-' :: rest, none) else (before.reverse, some rest)
    | c :: rest => go (c :: before) rest
    | [] => (before.reverse, none)

/-- The text with the values of its variables. There is none if a variable without a default is not
set. Two dollar signs are one, and a dollar sign without a name stays. -/
def expandVariables (e : Environment) (cs : List Char) : Option (List Char) :=
  match cs with
  | [] => some []
  | '$' :: '\x7b' :: rest =>
    if '\x7d' ∈ rest then
      let (name, fallback) := splitDefault (rest.takeWhile (· != '\x7d'))
      match (e.get? name).or fallback with
      | some value =>
        (e.expandVariables ((rest.dropWhile (· != '\x7d')).drop 1)).map (value ++ ·)
      | none => none
    else (e.expandVariables rest).map ('$' :: '\x7b' :: ·)
  | '$' :: '$' :: rest => (e.expandVariables rest).map ('$' :: ·)
  | '$' :: c :: rest =>
    if isNameChar c then
      match e.get? (c :: rest.takeWhile isNameChar) with
      | some value => (e.expandVariables (rest.dropWhile isNameChar)).map (value ++ ·)
      | none => none
    else (e.expandVariables (c :: rest)).map ('$' :: ·)
  | c :: rest => (e.expandVariables rest).map (c :: ·)
termination_by cs.length
decreasing_by
  · have := (List.dropWhile_sublist (l := rest) (· != '\x7d')).length_le
    simp only [List.length_cons, List.length_drop]
    omega
  · simp only [List.length_cons]; omega
  · simp only [List.length_cons]; omega
  · have := (List.dropWhile_sublist (l := rest) isNameChar).length_le
    simp only [List.length_cons]
    omega
  · simp only [List.length_cons]; omega
  · exact Nat.lt_succ_self _

/-! ## The home directory -/

/-- The path with the home directory for a tilde that is its first step. -/
def expandHome (e : Environment) (cs : List Char) : List Char :=
  match cs with
  | '~' :: rest =>
    if rest.isEmpty || rest.head? == some '/' then
      match e.home? with
      | some home => home ++ rest
      | none => cs
    else cs
  | _ => cs

/-- The path with its variables and the home directory. A tilde that comes out of a variable stands
for itself. -/
def expand (e : Environment) (path : String) : Option String :=
  (e.expandVariables path.toList).map fun cs =>
    let fromVariable := cs.head? == some '~' && path.toList.head? != some '~'
    String.ofList (if fromVariable then cs else e.expandHome cs)

end Environment

end SnapshotPreview

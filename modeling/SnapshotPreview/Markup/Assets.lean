import SnapshotPreview.Text.Rule
import SnapshotPreview.Text.Word

/-!
# References to assets

Markup and styles refer to images and style sheets of a server. Here such references are turned
into files below a directory, the asset base, by one rule for each form of reference.
-/

namespace SnapshotPreview.Markup

open Text

/-- The address of the files below an asset base, which does not end with a slash. -/
def fileRoot (base : String) : List Char := "file://".toList ++ base.toList ++ ['/']

/-! ## Sources -/

/-- The text after the name of a server, if it begins with one. -/
def skipServer (cs : List Char) : List Char :=
  match (afterPrefix? "http://".toList cs).or (afterPrefix? "https://".toList cs) with
  | some host => host.dropWhile fun c => c != '/' && c != '"'
  | none => cs

theorem length_skipServer_le (cs : List Char) : (skipServer cs).length ≤ cs.length := by
  unfold skipServer
  split
  · rename_i host h
    have := length_dropWhile_le (fun c => c != '/' && c != '"') host
    rcases Option.or_eq_some_iff.1 h with h | ⟨_, h⟩
    · have := length_of_afterPrefix? h; omega
    · have := length_of_afterPrefix? h; omega
  · exact Nat.le_refl _

/-- A source from the root of the site or of a server. -/
def sourceStep (base : String) (cs : List Char) : Option (List Char × List Char) :=
  (afterPrefix? "src=\"".toList cs).bind fun value =>
    (afterPrefix? ['/'] (skipServer value)).map fun path =>
      ("src=\"".toList ++ fileRoot base, path)

/-- Sources become files. -/
def sourceRule (base : String) : Rule where
  step := sourceStep base
  shorter := by
    intro cs out rest h
    obtain ⟨value, hv, h⟩ := Option.bind_eq_some_iff.1 h
    obtain ⟨path, hp, heq⟩ := Option.map_eq_some_iff.1 h
    cases heq
    have := length_of_afterPrefix? hv
    have := length_of_afterPrefix? hp
    have := length_skipServer_le value
    simp only [List.length_cons, List.length_nil] at *
    omega

/-! ## Links and images -/

/-- The text up to a double quote and the text after it. -/
def splitQuote (cs : List Char) : Option (List Char × List Char) :=
  match cs.dropWhile (· != '"') with
  | _ :: rest => some (cs.takeWhile (· != '"'), rest)
  | [] => none

theorem length_lt_of_splitQuote {cs value rest : List Char}
    (h : splitQuote cs = some (value, rest)) : rest.length < cs.length := by
  unfold splitQuote at h
  split at h
  · rename_i hd
    have := length_dropWhile_le (· != '"') cs
    cases h
    simp only [hd, List.length_cons] at this
    omega
  · cases h

/-- A character of the class names of an image. -/
def isClassChar (c : Char) : Bool := isWord c || c == ' '

/-- The text of a class attribute with at least one character, and the text after it. -/
def splitClass (cs : List Char) : Option (List Char × List Char) :=
  (afterPrefix? "class=\"".toList cs).bind fun value =>
    let names := value.takeWhile isClassChar
    if names.isEmpty then none
    else
      (afterPrefix? ['"'] (value.dropWhile isClassChar)).map fun rest =>
        ("class=\"".toList ++ names ++ ['"'], rest)

theorem length_lt_of_splitClass {cs value rest : List Char}
    (h : splitClass cs = some (value, rest)) : rest.length < cs.length := by
  unfold splitClass at h
  obtain ⟨r, hr, h⟩ := Option.bind_eq_some_iff.1 h
  dsimp only at h
  split at h
  · cases h
  · obtain ⟨r', hr', heq⟩ := Option.map_eq_some_iff.1 h
    cases heq
    have := length_of_afterPrefix? hr
    have := length_of_afterPrefix? hr'
    have := length_dropWhile_le isClassChar r
    simp only [List.length_cons, List.length_nil] at *
    omega

/-- The start of a tag that can carry a link, with single spaces, and the text after it: a link, or
an image with or without class names, and any number of spaces. -/
def splitLinkTag (cs : List Char) : Option (List Char × List Char) :=
  match afterPrefix? "link ".toList cs with
  | some rest => some ("link ".toList, rest)
  | none =>
    (afterPrefix? "image ".toList cs).map fun rest =>
      match splitClass rest with
      | some (names, rest) => ("image ".toList ++ names ++ [' '], rest.dropWhile (· == ' '))
      | none => ("image ".toList, rest.dropWhile (· == ' '))

theorem length_lt_of_splitLinkTag {cs tag rest : List Char}
    (h : splitLinkTag cs = some (tag, rest)) : rest.length < cs.length := by
  unfold splitLinkTag at h
  split at h
  · rename_i r hr
    cases h
    have := length_of_afterPrefix? hr
    simp at this
    omega
  · obtain ⟨r, hr, heq⟩ := Option.map_eq_some_iff.1 h
    have := length_of_afterPrefix? hr
    split at heq
    · rename_i names r' hc
      cases heq
      have := length_lt_of_splitClass hc
      have := length_dropWhile_le (· == ' ') r'
      omega
    · cases heq
      have := length_dropWhile_le (· == ' ') r
      simp at *
      omega

/-- A character of the scheme of an address. -/
def isSchemeChar (c : Char) : Bool := c.isAlphanum || c == '+' || c == '-' || c == '.'

/-- An address with a scheme before its first colon, or one that begins with two slashes. -/
def isAbsoluteUrl (target : List Char) : Bool :=
  if (afterPrefix? ['/', '/'] target).isSome then true
  else
    let scheme := target.takeWhile (· != ':')
    scheme.length < target.length && !scheme.isEmpty && scheme.all isSchemeChar

/-- The link of a link or image tag. Absolute addresses stay, with the tag as it was written. -/
def linkStep (base : String) (cs : List Char) : Option (List Char × List Char) :=
  (splitLinkTag cs).bind fun (tag, rest) =>
    (afterPrefix? "href=\"".toList rest).bind fun value =>
      (splitQuote value).map fun (target, rest) =>
        if isAbsoluteUrl target then (cs.take (cs.length - rest.length), rest)
        else
          (tag ++ "href=\"".toList ++ fileRoot base ++ dropOne '/' target ++ ['"'], rest)

/-- Links of link and image tags become files. -/
def linkRule (base : String) : Rule where
  step := linkStep base
  shorter := by
    intro cs out rest h
    obtain ⟨⟨tag, r₁⟩, h₁, h⟩ := Option.bind_eq_some_iff.1 h
    obtain ⟨r₂, h₂, h⟩ := Option.bind_eq_some_iff.1 h
    obtain ⟨⟨target, r₃⟩, h₃, heq⟩ := Option.map_eq_some_iff.1 h
    have := length_lt_of_splitLinkTag h₁
    have := length_of_afterPrefix? h₂
    have := length_lt_of_splitQuote h₃
    dsimp only at heq
    split at heq <;> cases heq <;> omega

/-- A link from the root of the site, but not from the root of another server. -/
def rootLinkStep (base : String) (cs : List Char) : Option (List Char × List Char) :=
  (afterPrefix? "href=\"/".toList cs).bind fun rest =>
    match rest with
    | [] => none
    | c :: rest =>
      if c = '/' || c = '"' then none else some ("href=\"".toList ++ fileRoot base ++ [c], rest)

theorem length_lt_of_rootLinkStep {base : String} {cs out rest : List Char}
    (h : rootLinkStep base cs = some (out, rest)) : rest.length < cs.length := by
  obtain ⟨r, hr, h⟩ := Option.bind_eq_some_iff.1 h
  have := length_of_afterPrefix? hr
  split at h
  · cases h
  · split at h
    · cases h
    · cases h
      simp only [List.length_cons] at this
      omega

/-- Links from the root become files. -/
def rootLinkRule (base : String) : Rule where
  step := rootLinkStep base
  shorter := length_lt_of_rootLinkStep

/-! ## Styles -/

/-- A character of an address in a style. -/
def isUrlChar (c : Char) : Bool := c == '/' || isWord c || c == '.' || c == '_'

/-- An address as the value of a style, quoted or not, from the root or not. -/
def urlStep (base : String) (cs : List Char) : Option (List Char × List Char) :=
  (afterPrefix? [':'] cs).bind fun rest =>
    (afterPrefix? "url(".toList (dropOne '\x27' (rest.dropWhile (· == ' ')))).bind fun rest =>
      let path := dropOne '/' (dropOne '"' rest)
      (afterPrefix? [')'] (dropOne '"' (path.dropWhile isUrlChar))).map fun rest =>
        (": url('".toList ++ fileRoot base ++ path.takeWhile isUrlChar ++ "')".toList,
          dropOne '\x27' rest)

/-- Addresses in styles become files. -/
def urlRule (base : String) : Rule where
  step := urlStep base
  shorter := by
    intro cs out rest h
    obtain ⟨r₁, h₁, h⟩ := Option.bind_eq_some_iff.1 h
    obtain ⟨r₂, h₂, h⟩ := Option.bind_eq_some_iff.1 h
    obtain ⟨r₃, h₃, heq⟩ := Option.map_eq_some_iff.1 h
    cases heq
    have := length_of_afterPrefix? h₁
    have := length_of_afterPrefix? h₂
    have := length_of_afterPrefix? h₃
    have := length_dropWhile_le (· == ' ') r₁
    have := length_dropOne_le '\x27' (r₁.dropWhile (· == ' '))
    have := length_dropOne_le '"' r₂
    have := length_dropOne_le '/' (dropOne '"' r₂)
    have := length_dropWhile_le isUrlChar (dropOne '/' (dropOne '"' r₂))
    have := length_dropOne_le '"' ((dropOne '/' (dropOne '"' r₂)).dropWhile isUrlChar)
    have := length_dropOne_le '\x27' r₃
    simp only [List.length_cons, List.length_nil] at *
    omega

/-- A value for one browser only, in a list of values. -/
def vendorStep (cs : List Char) : Option (List Char × List Char) :=
  (["-webkit-", "-moz-", "-ms-"].findSome? fun vendor => afterPrefix? vendor.toList cs).bind
    fun rest =>
      if (rest.takeWhile isWord).isEmpty then none
      else (afterPrefix? [','] (rest.dropWhile isWord)).map fun rest => ([], rest)

/-- Values for one browser only are left out. -/
def vendorRule : Rule where
  step := vendorStep
  shorter := by
    intro cs out rest h
    obtain ⟨r₁, h₁, h⟩ := Option.bind_eq_some_iff.1 h
    obtain ⟨vendor, _, h₁⟩ := List.exists_of_findSome?_eq_some h₁
    split at h
    · cases h
    · obtain ⟨r₂, h₂, heq⟩ := Option.map_eq_some_iff.1 h
      cases heq
      have := length_of_afterPrefix? h₁
      have := length_of_afterPrefix? h₂
      have := length_dropWhile_le isWord r₁
      simp only [List.length_cons, List.length_nil] at *
      omega

/-! ## Whole texts -/

/-- Turns the addresses in styles into files below the asset base. -/
def relocateUrls (css base : String) : String := (urlRule base).apply css

/-- Turns all references to assets into files below the asset base. -/
def relocateAssets (markup base : String) : String :=
  let sources := (sourceRule base).replaceAll markup.toList
  let links := (linkRule base).replaceAll sources
  let rootLinks := (rootLinkRule base).replaceAll links
  let urls := (urlRule base).replaceAll rootLinks
  String.ofList (vendorRule.replaceAll urls)

end SnapshotPreview.Markup

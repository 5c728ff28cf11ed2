import SnapshotPreview.LiveMessage
import SnapshotPreview.Proofs.Json.Compact
import SnapshotPreview.Proofs.RecordHistory

/-!
# Named values of live messages

The named values of a message can be looked up one by one, or made a record of. Both say the same,
as no name stands twice in what a message carries (`namesDistinct_of_parse`): storing pairs of
distinct keys leaves each plain one in its place (`entries_ofPairs_of_nodup`) and has under each key
what the pairs have (`getLast?_valuesUnder_of_nodup`).
-/

namespace SnapshotPreview

/-! ## Pairs with distinct keys -/

namespace Record

/-- Of distinct keys none takes the place of another, and the settings are left out. -/
theorem entries_ofPairs_of_nodup {pairs : List (String × String)}
    (distinct : (Assoc.keys pairs).Nodup) :
    (ofPairs pairs).entries = pairs.filter fun pair => !isSidecarKey pair.1 := by
  induction pairs using List.reverseRecOn with
  | nil => rfl
  | append_singleton pairs pair ih =>
    obtain ⟨key, value⟩ := pair
    rw [Assoc.keys_append, List.nodup_append] at distinct
    obtain ⟨others, -, apart⟩ := distinct
    have new : key ∉ Assoc.keys pairs := fun isIn => apart key isIn key List.mem_cons_self rfl
    have stored := ih others
    rw [ofPairs_concat, List.filter_append, ← stored]
    cases sidecar : isSidecarKey key with
    | true =>
      rw [entries_insert_of_sidecar _ sidecar]
      simp [sidecar]
    | false =>
      have newEntry : key ∉ Assoc.keys (ofPairs pairs).entries := fun isIn =>
        new (((reflects_ofPairs pairs).mem_keys_iff key).mp isIn).1
      rw [insert_of_plain _ sidecar]
      simp [sidecar, Assoc.set_of_new value newEntry]

theorem valuesUnder_of_absent {key : String} {pairs : List (String × String)}
    (absent : key ∉ Assoc.keys pairs) : valuesUnder key pairs = [] := by
  have nothing : pairs.filter (fun pair => pair.1 = key) = [] := by
    refine List.filter_eq_nil_iff.mpr ?_
    rintro ⟨k, value⟩ isIn same
    exact absent (of_decide_eq_true same ▸ Assoc.mem_keys isIn)
  rw [valuesUnder, nothing, List.map_nil]

/-- Under one of distinct keys a single value was stored. -/
theorem getLast?_valuesUnder_of_nodup {pairs : List (String × String)}
    (distinct : (Assoc.keys pairs).Nodup) (key : String) :
    (valuesUnder key pairs).getLast? = Assoc.get? key pairs := by
  induction pairs with
  | nil => rfl
  | cons pair pairs ih =>
    obtain ⟨k, value⟩ := pair
    rw [Assoc.keys_cons, List.nodup_cons] at distinct
    by_cases same : k = key
    · subst same
      have single : valuesUnder k ((k, value) :: pairs) = value :: valuesUnder k pairs := by
        simp [valuesUnder]
      rw [single, valuesUnder_of_absent distinct.1]
      simp [Assoc.get?]
    · have other : valuesUnder key ((k, value) :: pairs) = valuesUnder key pairs := by
        simp [valuesUnder, same]
      rw [other, ih distinct.2, Assoc.get?, if_neg same]

end Record

/-! ## What is read -/

namespace Json

theorem nodup_keys_membersOf (pairs : List (String × Json)) :
    (Assoc.keys (membersOf pairs)).Nodup := by
  induction pairs using List.reverseRecOn with
  | nil => exact List.nodup_nil
  | append_singleton pairs pair ih =>
    obtain ⟨name, value⟩ := pair
    rw [membersOf, List.foldl_append]
    exact Assoc.nodup_keys_set ih name value

theorem readScalar_ne_object {c : Char} {cs rest : List Char} {members : List (String × Json)} :
    readScalar c cs ≠ .ok (.object members, rest) := by
  intro read
  unfold readScalar at read
  -- A word, a number or a string, as the first character says.
  iterate 6
    split at read
    · obtain ⟨_, -, same⟩ := bind_eq_ok.mp read
      cases same
  cases read

/-- In an object that is read no name stands twice, as a repeated one takes the earlier place. -/
theorem nodup_keys_of_readValue {depth : Nat} {cs rest : List Char}
    {members : List (String × Json)} (read : readValue depth cs = .ok (.object members, rest)) :
    (Assoc.keys members).Nodup := by
  unfold readValue at read
  split at read
  · cases read
  · split at read
    · split at read
      · cases read
      · obtain ⟨_, -, same⟩ := bind_eq_ok.mp read
        cases same
    · split at read
      · split at read
        · cases read
        · obtain ⟨_, -, same⟩ := bind_eq_ok.mp read
          cases same
          exact nodup_keys_membersOf _
      · exact absurd read readScalar_ne_object

end Json

namespace LiveContent

/-- No name stands twice. -/
def NamesDistinct : LiveContent → Prop
  | text _ => True
  | fields members => (Assoc.keys members).Nodup

end LiveContent

namespace LiveMessage

open LiveContent (NamesDistinct)

theorem namesDistinct_of_readContent {cs rest : List Char} {content : LiveContent}
    (read : readContent cs = .ok (content, rest)) : content.NamesDistinct := by
  obtain ⟨⟨v, after⟩, value, read⟩ := bind_eq_ok.mp read
  cases v with
  | string s =>
    cases read
    trivial
  | object members =>
    cases read
    exact Json.nodup_keys_of_readValue value
  | _ => cases read

/-- The content that has been read has distinct names, if there is one. -/
def Draft.NamesDistinct (d : Draft) : Prop :=
  ∀ content, d.content = some content → content.NamesDistinct

namespace Draft

variable {d d' : Draft} {cs rest : List Char}

theorem namesDistinct_readField (distinct : d.NamesDistinct) {field : Field}
    (read : d.readField field cs = .ok (d', rest)) : d'.NamesDistinct := by
  cases field with
  | content =>
    obtain ⟨⟨content, after⟩, value, read⟩ := bind_eq_ok.mp read
    cases read
    rintro _ ⟨⟩
    exact namesDistinct_of_readContent value
  | _ =>
    -- The content is as it was.
    obtain ⟨_, -, read⟩ := bind_eq_ok.mp read
    cases read
    exact distinct

theorem namesDistinct_readMember (distinct : d.NamesDistinct)
    (read : d.readMember cs = .ok (d', rest)) : d'.NamesDistinct := by
  obtain ⟨⟨name, afterName⟩, -, read⟩ := bind_eq_ok.mp read
  dsimp only at read
  split at read
  · split at read
    · cases read
    · obtain ⟨afterColon, -, read⟩ := bind_eq_ok.mp read
      exact namesDistinct_readField distinct read
  · obtain ⟨afterColon, -, read⟩ := bind_eq_ok.mp read
    obtain ⟨afterValue, -, read⟩ := bind_eq_ok.mp read
    cases read
    exact distinct

theorem namesDistinct_readMore {fuel : Nat} (distinct : d.NamesDistinct)
    (read : readMore fuel d cs = .ok (d', rest)) : d'.NamesDistinct := by
  induction fuel generalizing d cs with
  | zero => cases read
  | succ fuel ih =>
    unfold readMore at read
    split at read
    · cases read
    · cases read
      exact distinct
    · obtain ⟨inName, -, read⟩ := bind_eq_ok.mp read
      obtain ⟨⟨next, afterMember⟩, member, read⟩ := bind_eq_ok.mp read
      exact ih (namesDistinct_readMember distinct member) read
    · cases read

end Draft

theorem namesDistinct_of_readDraft {cs rest : List Char} {d : Draft}
    (read : readDraft cs = .ok (d, rest)) : d.NamesDistinct := by
  have nothing : Draft.NamesDistinct {} := nofun
  unfold readDraft at read
  split at read
  · cases read
  · cases read
    exact nothing
  · obtain ⟨⟨next, afterMember⟩, member, read⟩ := bind_eq_ok.mp read
    exact Draft.namesDistinct_readMore (Draft.namesDistinct_readMember nothing member) read
  · cases read

theorem namesDistinct_of_finish {d : Draft} (distinct : d.NamesDistinct) {m : LiveMessage}
    (finished : d.finish = .ok m) : m.content.NamesDistinct := by
  unfold Draft.finish at finished
  split at finished
  · rename_i known
    cases finished
    exact distinct _ known
  · cases finished

theorem namesDistinct_of_readItems {cs rest : List Char} {m : LiveMessage}
    (read : readItems cs = .ok (m, rest)) : m.content.NamesDistinct := by
  unfold readItems at read
  split at read
  · cases read
  · cases read
  · obtain ⟨⟨file, afterFile⟩, -, read⟩ := bind_eq_ok.mp read
    obtain ⟨next, -, read⟩ := bind_eq_ok.mp read
    cases next with
    | none => cases read
    | some item =>
      obtain ⟨⟨content, afterContent⟩, value, read⟩ := bind_eq_ok.mp read
      obtain ⟨⟨testName, afterTest⟩, -, read⟩ := bind_eq_ok.mp read
      obtain ⟨⟨snapshotName, afterName⟩, -, read⟩ := bind_eq_ok.mp read
      obtain ⟨after, -, read⟩ := bind_eq_ok.mp read
      cases read
      exact namesDistinct_of_readContent value

/-- No name stands twice in what a message carries. -/
theorem namesDistinct_of_parse {s : String} {m : LiveMessage} (parsed : parse s = .ok m) :
    m.content.NamesDistinct := by
  obtain ⟨⟨m, rest⟩, read, parsed⟩ := bind_eq_ok.mp parsed
  obtain ⟨-, -, parsed⟩ := bind_eq_ok.mp parsed
  cases parsed
  unfold LiveMessage.read at read
  split at read
  · cases read
  · split at read
    · exact namesDistinct_of_readItems read
    · split at read
      · obtain ⟨⟨d, after⟩, draft, read⟩ := bind_eq_ok.mp read
        obtain ⟨m, finished, read⟩ := bind_eq_ok.mp read
        cases read
        exact namesDistinct_of_finish (namesDistinct_of_readDraft draft) finished
      · obtain ⟨_, -, refused⟩ := bind_eq_ok.mp read
        cases refused

end LiveMessage

/-! ## Names and the record -/

namespace LiveContent

/-- The named values as the pairs that a record is made of. -/
def pairs (members : List (String × Json)) : List (String × String) :=
  members.map fun (name, v) => (name, v.plainText)

theorem keys_pairs (members : List (String × Json)) :
    Assoc.keys (pairs members) = Assoc.keys members := Assoc.keys_map_value Json.plainText members

theorem field?_fields (members : List (String × Json)) (name : String) :
    (fields members).field? name = Assoc.get? name (pairs members) :=
  (Assoc.get?_map_value Json.plainText name members).symm

theorem field?_eq_none_iff (members : List (String × Json)) (name : String) :
    (fields members).field? name = none ↔ name ∉ Assoc.keys members := by
  rw [field?_fields, Assoc.get?_eq_none_iff, keys_pairs]

/-- The record that named values make has their names in order, the two settings left out. -/
theorem keys_ofPairs_pairs {members : List (String × Json)}
    (distinct : (Assoc.keys members).Nodup) :
    Assoc.keys (Record.ofPairs (pairs members)).entries =
      (Assoc.keys members).filter fun name => !Record.isSidecarKey name := by
  rw [← keys_pairs] at distinct ⊢
  rw [Record.entries_ofPairs_of_nodup distinct, Assoc.keys, Assoc.keys, List.filter_map]
  rfl

/-- Looking up the named values of a message says the same as the record made of them: each plain name
has the snapshot that is stored under it, in the order of the names, and the two names that are set
apart have the settings. A name is missing exactly if the message has no value for it, strings are shown
as they are and all other values as their compact JSON text. In every message that is read, names are
distinct. -/
theorem field?_agrees_with_record :
    (∀ members, (Assoc.keys members).Nodup →
      ∃ r, (fields members).toContent = .record r ∧
        Assoc.keys r.entries =
          (Assoc.keys members).filter (fun name => !Record.isSidecarKey name) ∧
        (∀ name, Record.isSidecarKey name = false → (fields members).field? name = r.get? name) ∧
        (fields members).field? Record.cssClassKey = r.cssClassName ∧
        (fields members).field? Record.decoratorKey = r.decorator ∧
        (∀ name, (fields members).field? name = none ↔ name ∉ Assoc.keys members) ∧
        ∀ name v, (name, v) ∈ members →
          ∃ s, (fields members).field? name = some s ∧ v.ShownAs s) ∧
    ∀ text m members, LiveMessage.parse text = .ok m → m.content = .fields members →
      (Assoc.keys members).Nodup := by
  constructor
  · intro members distinct
    have distinctPairs : (Assoc.keys (pairs members)).Nodup := by rwa [keys_pairs]
    have stored := Record.reflects_ofPairs (pairs members)
    have last (name : String) : (Record.valuesUnder name (pairs members)).getLast? =
        (fields members).field? name := by
      rw [field?_fields, Record.getLast?_valuesUnder_of_nodup distinctPairs]
    refine ⟨Record.ofPairs (pairs members), rfl, keys_ofPairs_pairs distinct, ?_, ?_, ?_,
      field?_eq_none_iff members, ?_⟩
    · intro name plain
      rw [stored.get?_eq, plain, if_neg Bool.false_ne_true, last]
    · rw [stored.cssClassName_eq, last]
    · rw [stored.decorator_eq, last]
    · intro name v isIn
      refine ⟨v.plainText, ?_, v.shownAs_plainText⟩
      rw [field?, Assoc.get?_of_mem distinct isIn, Option.map_some]
  · intro text m members parsed isObject
    have distinct := LiveMessage.namesDistinct_of_parse parsed
    rw [isObject] at distinct
    exact distinct

/-- What a message carries that sets the class and has a value that is no string. -/
def mixed : List (String × Json) :=
  [("b", .string "<i/>"), ("cssClassName", .string "x"),
    ("n", .array [.number (.whole 3), .string "\n"])]

/-- A message with these values, of which one replaces another. -/
def mixedText : String :=
  "\x7b\"file\": \"a.test.js\", \"content\": \x7b\"b\": \"1\", \"cssClassName\": \"x\", " ++
    "\"n\": [3, \"\\n\"], \"b\": \"<i/>\"\x7d\x7d"

theorem record_of_mixed :
    (∃ r, (fields mixed).toContent = .record r ∧ Assoc.keys r.entries = ["b", "n"] ∧
      r.get? "b" = some "<i/>" ∧ r.cssClassName = some "x" ∧ r.decorator = none ∧
      ∃ s, r.get? "n" = some s ∧ (Json.array [.number (.whole 3), .string "\n"]).ShownAs s) ∧
    ∃ m members, LiveMessage.parse mixedText = .ok m ∧ m.content = .fields members ∧
      (fields members).toContent = (fields mixed).toContent ∧ (Assoc.keys members).Nodup := by
  obtain ⟨agrees, distinct⟩ := field?_agrees_with_record
  constructor
  · obtain ⟨r, isRecord, keys, plain, cssClass, decorator, -, shown⟩ := agrees mixed (by decide)
    refine ⟨r, isRecord, keys.trans (by decide), ?_, ?_, ?_, ?_⟩
    · rw [← plain "b" (by decide)]
      rfl
    · rw [← cssClass]
      rfl
    · rw [← decorator]
      rfl
    · rw [← plain "n" (by decide)]
      exact shown "n" _ (List.mem_cons_of_mem _ (List.mem_cons_of_mem _ List.mem_cons_self))
  · have shown : (LiveMessage.parse mixedText).toOption.map (·.content.toContent) =
        some (fields mixed).toContent := by decide +kernel
    cases parsed : LiveMessage.parse mixedText with
    | error problem =>
      rw [parsed] at shown
      cases shown
    | ok m =>
      rw [parsed] at shown
      have same : m.content.toContent = (fields mixed).toContent := Option.some.inj shown
      cases isObject : m.content with
      | text snapshot =>
        rw [isObject] at same
        cases same
      | fields members =>
        rw [isObject] at same
        exact ⟨m, members, rfl, isObject, same, distinct mixedText m members parsed isObject⟩

end LiveContent

end SnapshotPreview

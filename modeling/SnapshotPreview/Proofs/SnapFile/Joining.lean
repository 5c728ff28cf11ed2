import SnapshotPreview.Proofs.Records
import SnapshotPreview.Proofs.SnapFile.Acceptance

/-!
# Files one after the other

Two files of the grammar with a newline between them are again one (`Source.join`): the newline is
white space, or it ends the comment that the end of the first file had cut short. So texts that are
accepted can be put one after the other, and the record of the whole is that of the second text
stored over that of the first (`parse_append`).
-/

namespace SnapshotPreview.SnapFile

/-- A file, a newline and a file. -/
def Source.join : Source → Source → Source
  | finish gap none, second => second.behind (gap ++ [.space '\n' rfl])
  | finish gap (some lastLine), second => second.behind (gap ++ [.line lastLine.val lastLine.property])
  | assign gap assignment rest, second => assign gap assignment (rest.join second)

theorem source_text_join (first second : Source) :
    (first.join second).text = first.text ++ '\n' :: second.text := by
  induction first with
  | finish gap lastLine =>
    cases lastLine with
    | none => simp [Source.join, source_text_behind, Source.text, lastLineText, Trivia.text]
    | some body => simp [Source.join, source_text_behind, Source.text, lastLineText, Trivia.text]
  | assign gap assignment rest ih => simp [Source.join, Source.text, ih]

theorem source_pairs_join (first second : Source) :
    (first.join second).pairs = first.pairs ++ second.pairs := by
  induction first with
  | finish gap lastLine =>
    cases lastLine with
    | none => exact source_pairs_behind _ second
    | some body => exact source_pairs_behind _ second
  | assign gap assignment rest ih => simp [Source.join, Source.pairs, ih]

theorem readAll_append {first second : List Char} {pairs more : List (String × String)}
    (readFirst : readAll first = .ok pairs) (readSecond : readAll second = .ok more) :
    readAll (first ++ '\n' :: second) = .ok (pairs ++ more) := by
  obtain ⟨source, rfl, rfl⟩ := exists_source_of_readAll readFirst
  obtain ⟨later, rfl, rfl⟩ := exists_source_of_readAll readSecond
  rw [← source_text_join, ← source_pairs_join]
  exact readAll_source (source.join later)

/-- Two accepted texts with a newline between them are accepted, and the second record is stored over
the first: its keys keep the places that they have in the first, and the others follow in order. -/
theorem parse_append {first second : String} {r later : Record} (readFirst : parse first = .ok r)
    (readSecond : parse second = .ok later) :
    parse (first ++ "\n" ++ second) = .ok (r.merge later) ∧
      (r.merge later).entries =
        r.entries.map (fun (key, value) => (key, (later.get? key).getD value)) ++
          later.entries.filter (fun (key, _) => (r.get? key).isNone) := by
  obtain ⟨pairs, read, rfl⟩ := parse_eq_ok_iff_readAll.mp readFirst
  obtain ⟨more, readMore, rfl⟩ := parse_eq_ok_iff_readAll.mp readSecond
  refine ⟨?_, Record.entries_merge (Record.proper_ofPairs pairs) (Record.proper_ofPairs more)⟩
  have whole : (first ++ "\n" ++ second).toList = first.toList ++ '\n' :: second.toList := by simp
  rw [← Record.ofPairs_append]
  exact parse_eq_ok_iff_readAll.mpr ⟨_, by rw [whole, readAll_append read readMore], rfl⟩

/-- A file that ends within a comment, behind a value without a semicolon. -/
def cutComment : String := "exports['a'] = '1';\nexports.b = '2' // end"

/-- A file with a key of the other one, a new key and a setting. -/
def repeatedKey : String := "exports.b = '3'\nexports.decorator = 'd'; exports['c']='4'"

theorem parse_append_of_cutComment :
    parse cutComment = .ok { entries := [("a", "1"), ("b", "2")] } ∧
      parse repeatedKey = .ok { entries := [("b", "3"), ("c", "4")], decorator := some "d" } ∧
      parse (cutComment ++ "\n" ++ repeatedKey) =
        .ok { entries := [("a", "1"), ("b", "3"), ("c", "4")], decorator := some "d" } := by
  have first : parse cutComment = .ok { entries := [("a", "1"), ("b", "2")] } := by
    decide +kernel
  have second : parse repeatedKey =
      .ok { entries := [("b", "3"), ("c", "4")], decorator := some "d" } := by
    decide +kernel
  have merged : Record.merge { entries := [("a", "1"), ("b", "2")] }
      { entries := [("b", "3"), ("c", "4")], decorator := some "d" } =
        { entries := [("a", "1"), ("b", "3"), ("c", "4")], decorator := some "d" } := by
    decide
  exact ⟨first, second, by rw [(parse_append first second).1, merged]⟩

end SnapshotPreview.SnapFile

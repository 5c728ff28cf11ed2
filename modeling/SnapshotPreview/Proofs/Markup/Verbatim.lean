import SnapshotPreview.Fragment
import SnapshotPreview.Proofs.Markup.Unchanged

/-!
# Data shown as it was stored

The attributes of rendered snapshots are turned into HTML whether they are markup or data. Names and
data come out as they were stored exactly if nothing in them, or across them, looks like the markup
of components (`render_verbatim_iff`).
-/

namespace SnapshotPreview.Fragment

/-- The block of data under its name, with nothing changed but the characters that HTML needs in a
label. -/
def verbatimBlock (name value : String) : String :=
  let label :=
    if name.isEmpty then ""
    else "\n<div class=\"ui fluid label\">" ++ Html.escapeText (displayLabel name) ++ "</div>"
  label ++ "\n<div style=\"padding: 6px\"><pre>" ++ value ++ "</pre></div>"

/-- The blocks of all data of a record. -/
def verbatimBlocks (r : Record) : String :=
  String.join (r.entries.map fun (name, value) => verbatimBlock name value)

/-- Nothing is left out of a record or put around its data. -/
structure IsVerbatim (o : PageOptions) (r : Record) : Prop where
  structured : o.structured = .verbatim
  noLimit : o.maxEntries = 0
  noClass : r.cssClassName = none
  noDecorator : r.decorator = none
  isData : ∀ name value, (name, value) ∈ r.entries → Structured.isData value = true

section
variable {o : PageOptions} {r : Record} (verbatim : IsVerbatim o r)
include verbatim

theorem entry_verbatim {name value : String} (isEntry : (name, value) ∈ r.entries) :
    entry o name value r.cssClassName r.decorator = verbatimBlock name value := by
  unfold entry verbatimBlock Structured.render
  rw [verbatim.noClass, verbatim.noDecorator, verbatim.isData name value isEntry,
    verbatim.structured]
  rw [← String.toList_inj]
  simp

theorem blocks_verbatim : blocks o [] (.record r) = verbatimBlocks r := by
  have shown : shownEntries o r [] = r.entries := by
    simp [shownEntries, verbatim.noLimit, passesFilter]
  unfold blocks verbatimBlocks
  dsimp only
  rw [shown]
  refine congrArg _ (List.map_congr_left fun e isEntry => ?_)
  exact entry_verbatim verbatim isEntry

theorem render_eq_normalize :
    render o (.record r) [] = Markup.normalizeAttributes (verbatimBlocks r) := by
  rw [render, blocks_verbatim verbatim]

/-- The names and the data of a record are shown as they are stored exactly if no rule for the
markup of components applies to them. -/
theorem render_verbatim_iff :
    render o (.record r) [] = verbatimBlocks r ↔ Markup.LeftAlone (verbatimBlocks r) := by
  rw [render_eq_normalize verbatim]
  exact Markup.normalizeAttributes_eq_self_iff _

end

theorem isVerbatim_single {name value : String} (isData : Structured.isData value = true) :
    IsVerbatim .plain { entries := [(name, value)] } where
  structured := rfl
  noLimit := rfl
  noClass := rfl
  noDecorator := rfl
  isData := by
    intro name' value' isEntry
    cases List.mem_singleton.mp isEntry
    exact isData

/-- A record of one empty object. -/
def emptyObject : Record := { entries := [("a", "\x7b\x7d")] }

theorem render_emptyObject :
    IsVerbatim .plain emptyObject ∧
      render .plain (.record emptyObject) [] = verbatimBlocks emptyObject := by
  have verbatim : IsVerbatim .plain emptyObject := isVerbatim_single (by decide)
  refine ⟨verbatim, (render_verbatim_iff verbatim).mpr ?_⟩
  have text : verbatimBlocks emptyObject = "\n<div class=\"ui fluid label\">a</div>" ++
      "\n<div style=\"padding: 6px\"><pre>\x7b\x7d</pre></div>" := by
    decide +kernel
  rw [text]
  exact {
    className := by decide +kernel
    styles := .inl (Markup.hasNoStyleObject_of_idle (by decide +kernel))
    tags := by decide +kernel
    yes := by decide +kernel
    no := by decide +kernel
    numbers := by decide +kernel }

/-- A record of data with the key of class names in it. -/
def classNameInData : Record := { entries := [("a", "\x7b\"className\": \"b\"\x7d")] }

theorem render_classNameInData :
    IsVerbatim .plain classNameInData ∧
      render .plain (.record classNameInData) [] ≠ verbatimBlocks classNameInData := by
  have verbatim : IsVerbatim .plain classNameInData := isVerbatim_single (by decide)
  refine ⟨verbatim, ?_⟩
  rw [render_eq_normalize verbatim]
  intro same
  have alone := (Markup.normalizeAttributes_eq_self_iff _).mp same
  have notIdle : ¬ Markup.classNameRule.Idle (verbatimBlocks classNameInData).toList := by
    decide +kernel
  exact notIdle alone.className

end SnapshotPreview.Fragment

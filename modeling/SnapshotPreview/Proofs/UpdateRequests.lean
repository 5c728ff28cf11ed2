import SnapshotPreview.CommandLine.Requests
import SnapshotPreview.Except

/-!
# Requests that run a command

Whatever the shell is, only a request that runs an update asks it (`perform_of_not_runsUpdate`), and
only for the command that the same request prints when nothing is to be run (`perform_run`). What
the program then stores and says comes from the answer of the shell.
-/

namespace SnapshotPreview

/-- A command for a location names its target. -/
theorem Update.exists_target_of_command {template : Option String} {scope : UpdateScope}
    {l : Location} {file command : String}
    (filled : Update.command template scope l file = .ok command) :
    ∃ target, Update.target scope l = .ok target := by
  unfold Update.command at filled
  split at filled
  · cases filled
  · split at filled
    · cases filled
    · obtain ⟨target, named, -⟩ := map_eq_ok.mp filled
      exact ⟨target, named⟩

namespace CommandLine

/-- The request asks for an update that is run. -/
def Command.RunsUpdate : Command → Prop
  | .update _ _ _ run => run = true
  | _ => False

namespace Setting

variable (s : Setting) (files : FileTree) (input : String)

/-- No other request asks the shell. -/
theorem perform_of_not_runsUpdate (shell other : SystemShell) {c : Command}
    (quiet : ¬ c.RunsUpdate) : @perform shell s files input c = @perform other s files input c := by
  cases c with
  | update file caret suite run =>
    have quiet : run = false := Bool.eq_false_iff.mpr quiet
    subst quiet
    rfl
  | _ => rfl

/-- What a shell has answered is what an update has come to. -/
structure ComesTo (scope : UpdateScope) (l : Location) (command : String) (output : CommandOutput)
    (effect : Effect) : Prop where
  files : effect.files = output.files
  failed : output.status ≠ 0 →
    effect.failure = some (.commandFailed command output.status) ∧ effect.stdout = "" ∧
      effect.stderr = output.stderr
  passed : output.status = 0 → effect.failure = none ∧
    ∃ target, Update.target scope l = .ok target ∧
      effect.stdout = (Update.passingCount output.stdout).elim output.stdout
        fun passing => Update.summary passing target ++ "\n"

variable [SystemShell]

theorem comesTo_runUpdate {scope : UpdateScope} {l : Location} {command target : String}
    (named : Update.target scope l = .ok target) {output : CommandOutput}
    (answers : SystemShell.output? s.environment files command = some output) :
    ComesTo scope l command output (s.runUpdate files scope l command) := by
  rw [runUpdate, answers]
  by_cases passed : output.status = 0
  · simp only [if_pos passed, report, named]
    refine ⟨?_, fun failed => absurd passed failed, fun _ => ⟨?_, target, named, ?_⟩⟩
    all_goals
      cases Update.passingCount output.stdout with
      | none => rfl
      | some passing => rfl
  · simp only [if_neg passed]
    exact ⟨rfl, fun _ => ⟨rfl, rfl, rfl⟩, fun same => absurd same passed⟩

variable {s files input} {file : String} {caret : Caret} {suite : Bool}

/-- The command that is run is the one that is printed when nothing is to be run. -/
theorem perform_run {effect : Effect}
    (done : s.perform files input (.update file caret suite true) = .ok effect) :
    ∃ l command,
      s.perform files input (.update file caret suite false) = .ok (print files command) ∧
      (SystemShell.output? s.environment files command = none →
        effect = { files, failure := some (.notStarted command) }) ∧
      ∀ output, SystemShell.output? s.environment files command = some output →
        ComesTo (if suite then .file else .test) l command output effect := by
  obtain ⟨r, resolved, done⟩ := bind_eq_ok.mp done
  obtain ⟨⟨l, command⟩, filled, done⟩ := bind_eq_ok.mp done
  cases done
  refine ⟨l, command, ?_, fun silent => ?_, fun output answers => ?_⟩
  · exact bind_eq_ok.mpr ⟨r, resolved, bind_eq_ok.mpr ⟨_, filled, rfl⟩⟩
  · rw [if_pos rfl, runUpdate, silent]
  · unfold updateCommand at filled
    split at filled
    · cases filled
    · split at filled
      · rename_i found command' named
        cases filled
        obtain ⟨target, named⟩ := Update.exists_target_of_command named
        exact comesTo_runUpdate s files named answers
      · cases filled

/-- Until a command is run, an update fails as it does when nothing is to be run. -/
theorem perform_run_eq_error_iff {failure : Failure} :
    s.perform files input (.update file caret suite true) = .error failure ↔
      s.perform files input (.update file caret suite false) = .error failure := by
  simp only [perform]
  cases s.resolve files file caret with
  | error e => rfl
  | ok r =>
    cases updated : s.updateCommand file (if suite then .file else .test) r with
    | error e => simp [updated, bind, Except.bind]
    | ok parts => simp [updated, bind, Except.bind, pure, Except.pure]

end Setting

end CommandLine

end SnapshotPreview

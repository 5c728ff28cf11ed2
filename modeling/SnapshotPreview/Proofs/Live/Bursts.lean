import SnapshotPreview.Preview.Burst
import SnapshotPreview.Proofs.Debouncing
import SnapshotPreview.Proofs.Live.Log
import SnapshotPreview.Except

/-!
# Bursts of messages

A session of live messages answers a line with a preview exactly when a burst has ended before it:
the last message came long enough ago and has not been answered yet. The preview is that of all
messages before the line. Lines without a message may bring out an answer, but they neither begin a
burst nor prolong one (`answers_in_run`).
-/

namespace SnapshotPreview

/-! ## Lines with a message -/

/-- A message begins with a bracket or a brace. -/
theorem LiveMessage.exists_opening_of_read {cs rest : List Char} {m : LiveMessage}
    (found : LiveMessage.read cs = .ok (m, rest)) : '[' ∈ cs ∨ '\x7b' ∈ cs := by
  unfold LiveMessage.read at found
  split at found
  · cases found
  · rename_i c after nonSpace
    have isChar : c ∈ cs := by
      apply (List.dropWhile_sublist Json.isSpace).subset
      change c ∈ Json.skipSpace cs
      rw [nonSpace]
      exact List.mem_cons_self
    by_cases bracket : c = '['
    · exact .inl (bracket ▸ isChar)
    · by_cases brace : c = '\x7b'
      · exact .inr (brace ▸ isChar)
      · simp only [beq_iff_eq, bracket, brace, if_false] at found
        obtain ⟨_, -, refused⟩ := bind_eq_ok.mp found
        cases refused

/-- No blank line has a message. -/
theorem LiveMessage.not_blank_of_parse {line : String} {m : LiveMessage}
    (parsed : LiveMessage.parse line = .ok m) : ¬ line.toList.all Text.isBlank := by
  obtain ⟨⟨m', rest⟩, found, -⟩ := bind_eq_ok.mp parsed
  rw [List.all_eq_true]
  intro blank
  rcases LiveMessage.exists_opening_of_read found with bracket | brace
  · exact absurd (blank _ bracket) (by decide)
  · exact absurd (blank _ brace) (by decide)

/-! ## Previews that have been shown -/

namespace LivePreview

/-- Showing a preview commutes with receiving a message. -/
theorem receive_view (p : LivePreview) (source : Option String) (m : LiveMessage) (now : Nat) :
    (p.view source).2.receive m now = ((p.receive m now).view source).2 := by
  have received := receive_eq p p.active m now
  have same : (p.receive m now).activeAfter source = p.activeAfter source := by
    rw [received]
    rfl
  rw [view_eq, view_eq, receive_eq, same]
  dsimp only
  rw [received]

theorem view_view (p : LivePreview) (source : Option String) :
    (p.view source).2.view source = p.view source := by
  have same : ({ p with active := p.activeAfter source } : LivePreview).activeAfter source =
      p.activeAfter source := by
    unfold activeAfter
    cases source with
    | none => rfl
    | some path =>
      by_cases isTest : isTestFile path
      · simp [isTest]
      · simp [isTest]
  rw [view_eq, view_eq, same]
  rfl

end LivePreview

namespace LiveSession

open Debouncer

/-! ## Runs -/

/-- The message in a line, with the time of the line. -/
def messageOf? (line : String × Nat) : Option (LiveMessage × Nat) :=
  match LiveMessage.parse line.1 with
  | .ok m => some (m, line.2)
  | .error _ => none

/-- A preview that receives messages. -/
def receiveAll (p : LivePreview) (messages : List (LiveMessage × Nat)) : LivePreview :=
  messages.foldl (fun p m => p.receive m.1 m.2) p

/-- A preview that receives the messages in lines. -/
def receiveLines (p : LivePreview) (lines : List (String × Nat)) : LivePreview :=
  receiveAll p (lines.filterMap messageOf?)

/-- Feeds a line with its time. -/
def serve (s : LiveSession) (line : String × Nat) : Option String × LiveSession :=
  s.feed line.1 line.2

/-- The answers of a new session to a run of lines. -/
def answers (preview : LivePreview) (file : String) (window : Nat) (lines : List (String × Nat)) :
    List (Option String) :=
  Run.answers serve { preview, file, debouncer := { window } } lines

/-- A new session after a run of lines. -/
def after (preview : LivePreview) (file : String) (window : Nat) (lines : List (String × Nat)) :
    LiveSession :=
  Run.after serve { preview, file, debouncer := { window } } lines

/-- The last message before the line at `k` came at the given time, and no line after it and before
that one has been answered. -/
def IsPending (preview : LivePreview) (file : String) (window : Nat) (lines : List (String × Nat))
    (k since : Nat) : Prop :=
  Run.IsLatest (fun i => (lines[i]?.bind messageOf?).map Prod.snd)
    (fun i => ∃ html, (answers preview file window lines)[i]? = some (some html)) k since

/-! ## One line -/

section
variable (s : LiveSession) (line : String × Nat)

theorem serve_blank (blank : line.1.toList.all Text.isBlank) : s.serve line = (none, s) := by
  simp only [serve, feed, blank, if_true]

/-- The session after a line that is not blank. -/
theorem serve_eq (notBlank : ¬ line.1.toList.all Text.isBlank) :
    s.serve line =
      (if (s.debouncer.ready line.2).1 then some (s.preview.view (some s.file)).1 else none,
        { s with
          preview :=
            receiveAll
              (if (s.debouncer.ready line.2).1 then (s.preview.view (some s.file)).2 else s.preview)
              (messageOf? line).toList
          debouncer :=
            { s.debouncer with
              pending :=
                ((messageOf? line).map Prod.snd).or
                  (if (s.debouncer.ready line.2).1 then none else s.debouncer.pending) } }) := by
  unfold serve feed
  rw [if_neg notBlank]
  have debounced := ready_snd s.debouncer line.2
  rcases ready : s.debouncer.ready line.2 with ⟨due, debouncer⟩
  rw [ready] at debounced
  dsimp only at debounced ⊢
  rw [debounced]
  unfold messageOf? receive
  cases due <;> cases LiveMessage.parse line.1 <;> rfl

end

/-! ## The state of a session in a run -/

section
variable {preview : LivePreview} {file : String} {window : Nat} {lines : List (String × Nat)}
  {k : Nat}

/-- The state of a session before the line at `k`. The preview that it keeps may have been shown
before. -/
structure Tracks (preview : LivePreview) (file : String) (window : Nat)
    (lines : List (String × Nat)) (k : Nat) (s : LiveSession) : Prop where
  file_eq : s.file = file
  window_eq : s.debouncer.window = window
  preview_eq : s.preview = receiveLines preview (lines.take k) ∨
    s.preview = ((receiveLines preview (lines.take k)).view (some file)).2
  pending_iff : ∀ since,
    s.debouncer.pending = some since ↔ IsPending preview file window lines k since

theorem receiveLines_take_succ (preview : LivePreview) {line : String × Nat}
    (here : lines[k]? = some line) :
    receiveLines preview (lines.take (k + 1)) =
      receiveAll (receiveLines preview (lines.take k)) (messageOf? line).toList := by
  unfold receiveLines
  rw [List.take_add_one, here, List.filterMap_append, receiveAll, List.foldl_append]
  cases h : messageOf? line <;> simp [receiveAll, h]

theorem receiveAll_view (p : LivePreview) (source : Option String)
    (messages : List (LiveMessage × Nat)) :
    receiveAll (p.view source).2 messages = ((receiveAll p messages).view source).2 := by
  induction messages generalizing p with
  | nil => rfl
  | cons m rest ih =>
    unfold receiveAll at ih ⊢
    rw [List.foldl_cons, LivePreview.receive_view, ih]
    rfl

theorem answer_at {line : String × Nat} (here : lines[k]? = some line) :
    (answers preview file window lines)[k]? =
      some (serve (after preview file window (lines.take k)) line).1 := by
  rw [answers, Run.getElem?_answers, here]
  rfl

theorem after_take_succ {line : String × Nat} (here : lines[k]? = some line) :
    after preview file window (lines.take (k + 1)) =
      (serve (after preview file window (lines.take k)) line).2 :=
  Run.after_take_succ serve _ here

/-- What a session shows is the preview of all messages so far. -/
theorem view_of_tracks {s : LiveSession} (tracks : Tracks preview file window lines k s) :
    (s.preview.view (some s.file)).1 =
      ((receiveLines preview (lines.take k)).view (some file)).1 := by
  rw [tracks.file_eq]
  rcases tracks.preview_eq with same | shown
  · rw [same]
  · rw [shown, LivePreview.view_view]

/-- Whether or not a session shows the preview that it keeps, this stays the one of all messages. -/
theorem preview_of_tracks {s : LiveSession} (tracks : Tracks preview file window lines k s)
    (shows : Bool) :
    (if shows then (s.preview.view (some s.file)).2 else s.preview) =
        receiveLines preview (lines.take k) ∨
      (if shows then (s.preview.view (some s.file)).2 else s.preview) =
        ((receiveLines preview (lines.take k)).view (some file)).2 := by
  cases shows with
  | false => exact tracks.preview_eq
  | true =>
    rw [if_pos rfl, tracks.file_eq]
    rcases tracks.preview_eq with same | shown
    · exact .inr (by rw [same])
    · exact .inr (by rw [shown, LivePreview.view_view])

theorem isPending_succ (preview : LivePreview) (file : String) (window : Nat)
    {line : String × Nat} (here : lines[k]? = some line) (since : Nat) :
    IsPending preview file window lines (k + 1) since ↔
      (messageOf? line).map Prod.snd = some since ∨
        ((messageOf? line).map Prod.snd = none ∧
          (serve (after preview file window (lines.take k)) line).1 = none ∧
          IsPending preview file window lines k since) := by
  rw [IsPending, Run.isLatest_succ, answer_at here, here, IsPending]
  simp only [Option.bind_some, Option.some.injEq, not_exists, Option.eq_none_iff_forall_ne_some,
    ne_eq]

theorem messageOf?_of_blank {line : String × Nat} (blank : line.1.toList.all Text.isBlank) :
    messageOf? line = none := by
  unfold messageOf?
  cases parsed : LiveMessage.parse line.1 with
  | error problem => rfl
  | ok m => exact absurd blank (LiveMessage.not_blank_of_parse parsed)

/-- A line adds its message to the preview and to the burst. Before that, a burst that has ended is
over. -/
theorem tracks_serve {line : String × Nat} (here : lines[k]? = some line)
    (tracks : Tracks preview file window lines k (after preview file window (lines.take k))) :
    Tracks preview file window lines (k + 1)
      (serve (after preview file window (lines.take k)) line).2 := by
  have pendingIff (since : Nat) := isPending_succ preview file window here since
  have received := receiveLines_take_succ preview here
  generalize after preview file window (lines.take k) = s at tracks pendingIff ⊢
  by_cases blank : line.1.toList.all Text.isBlank
  · rw [messageOf?_of_blank blank] at pendingIff received
    rw [serve_blank s line blank] at pendingIff ⊢
    refine ⟨tracks.file_eq, tracks.window_eq, ?_, fun since => ?_⟩
    · rw [received]
      exact tracks.preview_eq
    · rw [pendingIff, tracks.pending_iff]
      simp
  · rw [serve_eq s line blank] at pendingIff ⊢
    refine ⟨tracks.file_eq, tracks.window_eq, ?_, fun since => ?_⟩
    · rw [received]
      rcases preview_of_tracks tracks (s.debouncer.ready line.2).1 with same | shown
      · exact .inl (by rw [same])
      · exact .inr (by rw [shown, receiveAll_view])
    · rw [pendingIff, ← tracks.pending_iff]
      cases (messageOf? line).map Prod.snd with
      | some time => simp
      | none => cases (s.debouncer.ready line.2).1 <;> simp

theorem tracks_run (preview : LivePreview) (file : String) (window : Nat)
    {lines : List (String × Nat)} {k : Nat} (le : k ≤ lines.length) :
    Tracks preview file window lines k (after preview file window (lines.take k)) := by
  refine Run.after_take_induction serve ?_ (fun k line here => tracks_serve here) le
  refine ⟨rfl, rfl, .inl rfl, fun since => ⟨fun pending => ?_, fun latest => ?_⟩⟩
  · cases pending
  · exact absurd latest Run.not_isLatest_zero

/-- In a run, a blank line has no answer and changes nothing. Any other line is answered exactly
when the last message before it has not been answered and came at least the window before, with the
preview of all messages before the line. Lines without a message neither begin nor prolong a burst,
and no message is lost at the end. -/
theorem answers_in_run (preview : LivePreview) (file : String) (window : Nat)
    (lines : List (String × Nat)) :
    (answers preview file window lines).length = lines.length ∧
    (∀ k line now, lines[k]? = some (line, now) → line.toList.all Text.isBlank →
      (answers preview file window lines)[k]? = some none ∧
        after preview file window (lines.take (k + 1)) =
          after preview file window (lines.take k)) ∧
    (∀ k line now, lines[k]? = some (line, now) → ¬ line.toList.all Text.isBlank →
      ∃ answer, (answers preview file window lines)[k]? = some answer ∧
        (answer.isSome ↔
          ∃ since, IsPending preview file window lines k since ∧ window ≤ now - since) ∧
        ∀ html ∈ answer, html = ((receiveLines preview (lines.take k)).view (some file)).1) ∧
    (∀ k line now, lines[k]? = some (line, now) → messageOf? (line, now) = none → ∀ since,
      (after preview file window (lines.take (k + 1))).debouncer.pending = some since →
        (after preview file window (lines.take k)).debouncer.pending = some since) ∧
    (after preview file window lines).finish.1 =
      ((receiveLines preview lines).view (some file)).1 := by
  refine ⟨Run.length_answers serve _ lines, ?_, ?_, ?_, ?_⟩
  · intro k line now here blank
    rw [answer_at here, after_take_succ here, serve_blank _ (line, now) blank]
    exact ⟨rfl, rfl⟩
  · intro k line now here notBlank
    have before : k < lines.length := (List.getElem?_eq_some_iff.mp here).1
    have tracks := tracks_run preview file window (Nat.le_of_lt before)
    have due := ready_iff (after preview file window (lines.take k)).debouncer now
    rw [tracks.window_eq] at due
    simp only [tracks.pending_iff] at due
    refine ⟨_, answer_at here, ?_, ?_⟩
    · rw [serve_eq _ (line, now) notBlank, ← due]
      simp
    · intro html answered
      rw [serve_eq _ (line, now) notBlank] at answered
      rw [← view_of_tracks tracks]
      split at answered
      · exact (Option.some.inj answered).symm
      · cases answered
  · intro k line now here noMessage since pending
    rw [after_take_succ here] at pending
    by_cases blank : line.toList.all Text.isBlank
    · rwa [serve_blank _ (line, now) blank] at pending
    · rw [serve_eq _ (line, now) blank, noMessage] at pending
      simp only [Option.map_none, Option.none_or] at pending
      split at pending
      · cases pending
      · exact pending
  · have tracks := tracks_run preview file window (Nat.le_refl lines.length)
    rw [List.take_length] at tracks
    have shown := view_of_tracks tracks
    rwa [List.take_length] at shown

end

/-- A message, a blank line and a line that is no message. -/
def pause : List (String × Nat) :=
  [("\x7b\"file\": \"a.test.js\", \"content\": \"\"\x7d", 0), (" ", 200), ("end", 500)]

/-- After the window, a line that is no message brings out the preview of the message before. -/
theorem answer_after_pause :
    pause[2]? = some ("end", 500) ∧
      (answers { options := .plain } "a.test.js" 400 pause)[2]? =
        some (some ((receiveLines { options := .plain } (pause.take 2)).view
          (some "a.test.js")).1) := by
  obtain ⟨-, blank, other, -⟩ :=
    answers_in_run { options := .plain } "a.test.js" 400 pause
  obtain ⟨answer, isAnswer, due, isPreview⟩ := other 2 "end" 500 rfl (by decide +kernel)
  have pending : IsPending { options := .plain } "a.test.js" 400 pause 2 0 := by
    refine ⟨0, by omega, by decide +kernel, fun i bound after => ?_⟩
    obtain rfl : i = 1 := by omega
    refine ⟨by decide +kernel, ?_⟩
    rintro ⟨html, answered⟩
    rw [(blank 1 " " 200 rfl (by decide +kernel)).1] at answered
    cases answered
  obtain ⟨html, rfl⟩ := Option.isSome_iff_exists.mp (due.mpr ⟨0, pending, by omega⟩)
  rw [isAnswer, isPreview html rfl]
  exact ⟨rfl, rfl⟩

end LiveSession

end SnapshotPreview

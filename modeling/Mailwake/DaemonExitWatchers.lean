import Mailwake.CatchUp
import Mailwake.DaemonExit

/-!
# What a watcher tells the daemon

One step of a mailbox or Gmail watcher, seen from outside: what it does with the
initial-ready sender, and with which result the watcher ends.
-/
namespace DaemonExit
open Transition
/-- Whether the watcher still holds its initial-ready sender. -/
def Watcher.holdsReady : Watcher → Bool
  | .mailbox _ _ w =>
    match w.pc with
    | .session idle => idle.initialReady
    | _ => w.initialReady
  | .gmail _ _ w => w.initialReady
  | .fsState => false
  | .systemResume => false

/-- The session is not on its way to a shutdown. -/
def CalmIdle : ImapIdle.Pc → Prop
  | .sendingDone _ stopping => stopping = false
  | .completion _ stopping _ => stopping = false
  | .ended result => result ≠ .ok .shutdown
  | _ => True

/-- The watcher was not told of a shutdown. -/
def Watcher.Calm : Watcher → Prop
  | .mailbox _ _ w =>
    match w.pc with
    | .session idle => CalmIdle idle.pc
    | .stopped => False
    | _ => True
  | .gmail _ _ w => w.pc ≠ .ended (.ok ())
  | .fsState => True
  | .systemResume => True

/-- What one step does with the initial-ready sender and the end of the watcher. -/
structure Turn (w v : Watcher) (calm : Prop) (reports : List Report) : Prop where
  reported : reports = [] ∧ v.holdsReady = w.holdsReady ∨
    w.holdsReady = true ∧ v.holdsReady = false ∧ ∃ report, reports = [report]
  failed : ∀ permanent, v.ending = some (.failed permanent) →
    permanent = true ∧ (w.holdsReady = true → reports = [.authFailed])
  told : .authFailed ∈ reports → v.ending = some (.failed true)
  calm : calm → v.Calm

theorem Watcher.Calm.unstopped {w : Watcher} (h : w.Calm) : w.ending ≠ some .stopped := by
  cases w with
  | mailbox account folder w =>
    simp only [Watcher.Calm] at h
    simp only [Watcher.ending]
    cases hpc : w.pc <;> simp [hpc] at h ⊢
  | gmail source labelIds w =>
    simp only [Watcher.Calm] at h
    simp only [Watcher.ending]
    split
    · rename_i hpc
      exact absurd hpc h
    · simp
    · simp
  | fsState | systemResume => simp [Watcher.ending]

theorem calmIdle_fail {idle : ImapIdle.State} (error : ImapLine.ImapError) :
    CalmIdle (ImapIdle.fail idle false error).1.pc := by
  simp [ImapIdle.fail, ImapIdle.finish, CalmIdle]

theorem calmIdle_finish {idle : ImapIdle.State} (error : ImapLine.ImapError) :
    CalmIdle (ImapIdle.finish idle (.error error)).1.pc := by
  simp [ImapIdle.finish, CalmIdle]

/-- Only a notification of the shutdown watch sets a session on its way to the end. -/
theorem calmIdle_step {idle next : ImapIdle.State} {label : ImapIdle.Label}
    {es : List ImapIdle.Event} (h : ImapIdle.step idle label = some (next, es))
    (untold : label ≠ .shutdownChanged true) (calm : CalmIdle idle.pc) : CalmIdle next.pc := by
  cases label with
  | wrote result =>
    simp only [ImapIdle.step] at h
    split at h
    · cases h
      trivial
    · cases h
      exact calmIdle_fail _
    · rename_i tag stopping hpc
      cases h
      rw [hpc] at calm
      exact calm
    · rename_i tag stopping error hpc
      rw [hpc] at calm
      obtain rfl : stopping = false := calm
      cases h
      exact calmIdle_fail _
    · cases h
  | line line =>
    simp only [ImapIdle.step] at h
    split at h
    · rename_i tag hpc
      cases h
      simp only [ImapIdle.waitIdleContinuation, ImapIdle.continued]
      split
      · split <;> trivial
      · split
        · exact calmIdle_finish _
        · exact calm
    · rename_i tag hpc
      cases h
      simp only [ImapIdle.idleLine]
      split
      · exact calmIdle_finish _
      · trivial
      · exact calm
      · exact calm
    · rename_i tag stopping queued hpc
      have running := calm
      rw [hpc] at running
      obtain rfl : stopping = false := running
      cases h
      simp only [ImapIdle.waitIdleCompletion]
      split
      · exact calmIdle_fail _
      · trivial
      · split
        · exact calm
        · rfl
      · exact calm
    · cases h
  | readFailed error =>
    simp only [ImapIdle.step] at h
    split at h
    · cases h
      exact calmIdle_fail _
    · cases h
      exact calmIdle_fail _
    · rename_i tag stopping queued hpc
      rw [hpc] at calm
      obtain rfl : stopping = false := calm
      cases h
      exact calmIdle_fail _
    · cases h
  | timedOut =>
    simp only [ImapIdle.step] at h
    split at h
    · cases h
      exact calmIdle_fail _
    · cases h
      exact calmIdle_fail _
    · rename_i tag stopping hpc
      rw [hpc] at calm
      obtain rfl : stopping = false := calm
      cases h
      exact calmIdle_fail _
    · rename_i tag stopping queued hpc
      rw [hpc] at calm
      obtain rfl : stopping = false := calm
      cases h
      exact calmIdle_fail _
    · cases h
  | refresh =>
    simp only [ImapIdle.step] at h
    split at h
    · cases h
      rfl
    · cases h
  | shutdownChanged stop =>
    have unstopped : stop = false := by
      cases stop with
      | false => rfl
      | true => exact absurd rfl untold
    subst unstopped
    simp only [ImapIdle.step] at h
    split at h
    · cases h
      exact calm
    · cases h

section Mailbox
open MailboxWatcher (follow conclude)

variable {account folder : String} {w v : MailboxWatcher.State} {idle next : ImapIdle.State}
  {es : List ImapIdle.Event}

theorem holdsReady_follow :
    (Watcher.mailbox account folder (follow w next)).holdsReady = next.initialReady := by
  rw [follow]
  split
  · rename_i result _
    rcases result with error | stop
    · rfl
    · cases stop <;> rfl
  · rfl

theorem ending_follow (permanent : Bool) :
    (Watcher.mailbox account folder (follow w next)).ending ≠ some (.failed permanent) := by
  rw [follow]
  split
  · rename_i result _
    rcases result with error | stop
    · simp [conclude, Watcher.ending]
    · cases stop <;> simp [conclude, Watcher.ending]
  · simp [Watcher.ending]

theorem calm_follow (calm : CalmIdle next.pc) :
    (Watcher.mailbox account folder (follow w next)).Calm := by
  rw [follow]
  split
  · rename_i result hpc
    rw [hpc] at calm
    rcases result with error | stop
    · trivial
    · cases stop with
      | shutdown => exact absurd rfl calm
      | reconnect => trivial
  · exact calm

theorem reports_of_kept (silent : .initialReady ∉ es) :
    (es.map MailboxWatcher.Event.session).filterMap mailboxReport = [] := by
  rw [List.filterMap_eq_nil_iff]
  intro x hx
  obtain ⟨e, he, rfl⟩ := List.mem_map.mp hx
  cases e with
  | initialReady => exact absurd he silent
  | entered | read | queued | ended => rfl

/-- The first continuation of a session is what the sender is used for. -/
theorem reports_of_continued (tag : Nat) (line : ImapLine.Line) :
    ((ImapIdle.Event.read line :: (ImapIdle.continued idle tag).2).map
        MailboxWatcher.Event.session).filterMap mailboxReport = [] ∧
      (ImapIdle.continued idle tag).1.initialReady = idle.initialReady ∨
    idle.initialReady = true ∧ (ImapIdle.continued idle tag).1.initialReady = false ∧
      ∃ report, ((ImapIdle.Event.read line :: (ImapIdle.continued idle tag).2).map
        MailboxWatcher.Event.session).filterMap mailboxReport = [report] := by
  rw [ImapIdle.continued]
  by_cases established : idle.established = true
  · rw [if_pos established]
    exact Or.inl ⟨rfl, rfl⟩
  · rw [if_neg established]
    cases held : idle.initialReady with
    | true =>
      refine Or.inr ⟨rfl, rfl, .ready, ?_⟩
      cases idle.notifyOnConnect <;> rfl
    | false =>
      refine Or.inl ⟨?_, rfl⟩
      cases idle.notifyOnConnect <;> rfl

theorem not_authFailed_session :
    Report.authFailed ∉ (es.map MailboxWatcher.Event.session).filterMap mailboxReport := by
  intro h
  obtain ⟨x, hx, he⟩ := List.mem_filterMap.mp h
  obtain ⟨e, -, rfl⟩ := List.mem_map.mp hx
  cases e <;> cases he

/-- A step that neither reports nor ends the watcher. -/
theorem turn_quiet {calm : Prop} (unheld : (Watcher.mailbox account folder v).holdsReady =
      (Watcher.mailbox account folder w).holdsReady)
    (unfailed : ∀ permanent, (Watcher.mailbox account folder v).ending ≠ some (.failed permanent))
    (kept : calm → (Watcher.mailbox account folder v).Calm) :
    Turn (.mailbox account folder w) (.mailbox account folder v) calm [] :=
  ⟨Or.inl ⟨rfl, unheld⟩, fun permanent h => absurd h (unfailed permanent), by simp, kept⟩

theorem turn_mailbox {label : MailboxWatcher.Label} {events : List MailboxWatcher.Event}
    (h : MailboxWatcher.step w label = some (v, events)) :
    Turn (.mailbox account folder w) (.mailbox account folder v)
      ((Watcher.mailbox account folder w).Calm ∧
        (WatcherLabel.mailbox label).hearsShutdown = false)
      (events.filterMap mailboxReport) := by
  cases MailboxWatcher.turn_of_step h with
  | checked shutdown hpc =>
    refine turn_quiet ?_ ?_ ?_
    · cases shutdown <;> simp [Watcher.holdsReady, hpc]
    · cases shutdown <;> simp [Watcher.ending]
    · rintro ⟨-, untold⟩
      obtain rfl : shutdown = false := untold
      trivial
  | examined tags hpc =>
    refine turn_quiet ?_ ?_ fun _ => trivial
    · simp [Watcher.holdsReady, hpc, ImapIdle.State.start, ImapIdle.issue]
    · simp [Watcher.ending]
  | crashed hpc =>
    have held : (Watcher.mailbox account folder w).holdsReady = w.initialReady := by
      simp [Watcher.holdsReady, hpc]
    refine ⟨?_, ?_, ?_, fun _ => trivial⟩
    · rw [held]
      cases w.initialReady with
      | true => exact Or.inr ⟨rfl, rfl, .authFailed, rfl⟩
      | false => exact Or.inl ⟨rfl, rfl⟩
    · intro permanent hend
      rw [held]
      simp only [Watcher.ending, Option.some.injEq, Ending.failed.injEq] at hend
      refine ⟨hend.symm, ?_⟩
      intro ready
      rw [ready]
      rfl
    · intro _
      rfl
  | failed hpc =>
    refine turn_quiet ?_ ?_ fun _ => trivial
    · simp [Watcher.holdsReady, hpc]
    · simp [Watcher.ending]
  | @session label idle next es hpc step =>
    have held : (Watcher.mailbox account folder w).holdsReady = idle.initialReady := by
      simp [Watcher.holdsReady, hpc]
    refine ⟨?_, fun permanent hend => absurd hend (ending_follow permanent),
      fun told => absurd told not_authFailed_session, ?_⟩
    · rw [held, holdsReady_follow]
      rcases CatchUp.session_cases step with ⟨-, kept⟩ | ⟨-, tag, line, rfl, rfl⟩
      · exact Or.inl ⟨reports_of_kept kept.ready, kept.initialReady⟩
      · exact reports_of_continued tag line
    · rintro ⟨calm, untold⟩
      simp only [Watcher.Calm, hpc] at calm
      refine calm_follow (calmIdle_step step ?_ calm)
      rintro rfl
      cases untold
  | dropped hpc =>
    refine turn_quiet ?_ ?_ fun _ => trivial
    · rcases hpc with hpc | hpc <;> simp [Watcher.holdsReady, hpc]
    · simp [Watcher.ending]
  | cut hpc =>
    refine turn_quiet ?_ ?_ fun _ => trivial
    · simp [Watcher.holdsReady, hpc, MailboxWatcher.State.after]
    · simp [Watcher.ending]
  | slept retry hpc =>
    refine turn_quiet ?_ ?_ ?_
    · cases retry <;> simp [Watcher.holdsReady, hpc]
    · cases retry <;> simp [Watcher.ending]
    · rintro ⟨-, untold⟩
      have goOn : retry = true := by simpa [WatcherLabel.hearsShutdown] using untold
      subst goOn
      trivial

end Mailbox

section Gmail
open GmailApiPoll (fail accept baselined)

variable {source : String} {labelIds : List String} {w v : GmailApiPoll.State}

theorem turn_gmail_quiet {calm : Prop} (unheld : v.initialReady = w.initialReady)
    (unfailed : ∀ error, v.pc ≠ .ended (.error error))
    (kept : calm → v.pc ≠ .ended (.ok ())) {es : List GmailApiPoll.Event}
    (silent : es.filterMap gmailReport = []) :
    Turn (.gmail source labelIds w) (.gmail source labelIds v) calm (es.filterMap gmailReport) := by
  refine ⟨Or.inl ⟨silent, unheld⟩, ?_, by simp [silent], kept⟩
  intro permanent h
  simp only [Watcher.ending] at h
  split at h
  · cases h
  · rename_i error hpc
    exact absurd hpc (unfailed error)
  · cases h

theorem turn_gmail_fail {calm : Prop} (error : GmailApiPoll.GmailApiPollError) :
    Turn (.gmail source labelIds w) (.gmail source labelIds (fail w error).1) calm
      ((fail w error).2.filterMap gmailReport) := by
  by_cases permanent : error.isPermanentAuthFailure = true
  · simp only [fail, permanent, if_true]
    have held : (Watcher.gmail source labelIds w).holdsReady = w.initialReady := rfl
    refine ⟨?_, ?_, ?_, ?_⟩
    · rw [held]
      cases w.initialReady with
      | true => exact Or.inr ⟨rfl, rfl, .authFailed, rfl⟩
      | false => exact Or.inl ⟨rfl, rfl⟩
    · intro p hend
      simp only [Watcher.ending, Option.some.injEq, Ending.failed.injEq, permanent] at hend
      refine ⟨hend.symm, ?_⟩
      intro ready
      rw [held] at ready
      rw [ready]
      rfl
    · intro _
      simp [Watcher.ending, permanent]
    · intro _
      simp [Watcher.Calm]
  · simp only [fail, permanent]
    refine turn_gmail_quiet ?_ ?_ ?_ rfl <;> simp

theorem turn_gmail {label : GmailApiPoll.Label} {events : List GmailApiPoll.Event}
    (h : GmailApiPoll.step labelIds w label = some (v, events)) :
    Turn (.gmail source labelIds w) (.gmail source labelIds v)
      ((Watcher.gmail source labelIds w).Calm ∧ (WatcherLabel.gmail label).hearsShutdown = false)
      (events.filterMap gmailReport) := by
  cases GmailApiPoll.turn_of_step h with
  | checked shutdown hpc =>
    refine turn_gmail_quiet ?_ ?_ ?_ rfl
    · rfl
    · intro error
      simp only
      split
      · simp
      · split <;> simp
    · rintro ⟨-, untold⟩
      obtain rfl : shutdown = false := untold
      simp only [Bool.false_eq_true, if_false]
      split <;> simp
  | failed error hpc => exact turn_gmail_fail error
  | @baselined id n hpc parsed =>
    have held : (Watcher.gmail source labelIds w).holdsReady = w.initialReady := rfl
    refine ⟨?_, ?_, ?_, ?_⟩
    · rw [held, baselined]
      cases w.initialReady with
      | true => exact Or.inr ⟨rfl, rfl, .ready, rfl⟩
      | false => exact Or.inl ⟨rfl, rfl⟩
    · intro permanent hend
      simp [Watcher.ending, baselined] at hend
    · intro told
      simp only [baselined] at told
      cases w.initialReady <;> simp [gmailReport] at told
    · intro _
      simp [Watcher.Calm, baselined]
  | slept goOn hpc =>
    refine turn_gmail_quiet ?_ ?_ ?_ rfl
    · rfl
    · intro error
      cases goOn <;> simp
    · rintro ⟨-, untold⟩
      have on : goOn = true := by simpa [WatcherLabel.hearsShutdown] using untold
      simp [on]
  | retried goOn hpc =>
    refine turn_gmail_quiet ?_ ?_ ?_ rfl
    · cases goOn <;> rfl
    · intro error
      cases goOn <;> simp
    · rintro ⟨-, untold⟩
      have on : goOn = true := by simpa [WatcherLabel.hearsShutdown] using untold
      simp [on]
  | changed | stale | noChange | advanced =>
    refine turn_gmail_quiet ?_ ?_ ?_ ?_ <;> simp [accept, gmailReport]
  | baselineToken | pollToken | unchanged | listing | nextPage | nextLabel =>
    refine turn_gmail_quiet ?_ ?_ ?_ rfl <;> simp

end Gmail

/-- What every watcher does with its sender in one step. -/
theorem watcher_turn {w v : Watcher} {label : WatcherLabel} {reports : List Report}
    (h : w.step label = some (v, reports)) :
    Turn w v (w.Calm ∧ label.hearsShutdown = false) reports := by
  cases w with
  | mailbox account folder w =>
    cases label with
    | mailbox label =>
      obtain ⟨⟨next, events⟩, hs, he⟩ := Option.map_eq_some_iff.mp h
      cases he
      exact turn_mailbox hs
    | gmail label => cases h
  | gmail source labelIds w =>
    cases label with
    | mailbox label => cases h
    | gmail label =>
      obtain ⟨⟨next, events⟩, hs, he⟩ := Option.map_eq_some_iff.mp h
      cases he
      exact turn_gmail hs
  | fsState => cases label <;> cases h
  | systemResume => cases label <;> cases h

end DaemonExit

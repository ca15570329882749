import Mailwake.GmailApiPoll
import Mailwake.MailboxWatcher
import Mailwake.StartupEvent

/-!
# The start-up gap of IMAP and Gmail sources

Both watchers call for no event before their first establishment: the first IDLE
continuation, or the first history baseline. A change after the start-up event and before
that is followed by nothing.
-/
namespace StartupGap
open Transition StartupEvent

section Mailbox
open MailboxWatcher

def mailboxNotice : MailboxWatcher.Event → Option Notice
  | .session .queued => some .queued
  | .session .initialReady => some .ready
  | _ => none

def mailboxEstablished (w : MailboxWatcher.State) : Bool :=
  w.connectedOnce ||
    match w.pc with
    | .session idle => idle.established
    | _ => false

def mailboxStep (w : MailboxWatcher.State) (label : MailboxWatcher.Label) :
    Option (MailboxWatcher.State × List Notice) :=
  (MailboxWatcher.step w label).map fun (v, es) => (v, es.filterMap mailboxNotice)

/-- A session has been told whether to announce a reconnect. -/
def MailboxSound (w : MailboxWatcher.State) : Prop :=
  ∀ idle, w.pc = .session idle → Reached idle ∧ idle.notifyOnConnect = w.connectedOnce

/-- What a step of the watcher does to all that the start-up event depends on. -/
structure MailboxTurn (w v : MailboxWatcher.State) (ns : List Notice) : Prop where
  sound : MailboxSound v
  established : mailboxEstablished w = true → mailboxEstablished v = true
  queued : Notice.queued ∈ ns → mailboxEstablished w = true
  ready : Notice.ready ∈ ns → mailboxEstablished v = true

/-- A step that is not the session's, and leaves no session behind. -/
theorem mailboxTurn_outside {w v : MailboxWatcher.State} {ns : List Notice}
    (outside : ∀ idle, v.pc ≠ .session idle)
    (established : mailboxEstablished w = true → mailboxEstablished v = true)
    (quiet : ns = []) : MailboxTurn w v ns :=
  ⟨fun idle hpc => absurd hpc (outside idle), established, by simp [quiet], by simp [quiet]⟩

theorem queued_of_notice {es : List ImapIdle.Event}
    (h : Notice.queued ∈ (es.map MailboxWatcher.Event.session).filterMap mailboxNotice) :
    ImapIdle.Event.queued ∈ es := by
  obtain ⟨x, hx, he⟩ := List.mem_filterMap.mp h
  obtain ⟨e, mem, rfl⟩ := List.mem_map.mp hx
  cases e <;> simp [mailboxNotice] at he
  exact mem

theorem ready_of_notice {es : List ImapIdle.Event}
    (h : Notice.ready ∈ (es.map MailboxWatcher.Event.session).filterMap mailboxNotice) :
    ImapIdle.Event.initialReady ∈ es := by
  obtain ⟨x, hx, he⟩ := List.mem_filterMap.mp h
  obtain ⟨e, mem, rfl⟩ := List.mem_map.mp hx
  cases e <;> simp [mailboxNotice] at he
  exact mem

theorem mailboxTurn_session {w : MailboxWatcher.State} {idle next : ImapIdle.State}
    {es : List ImapIdle.Event} (sound : MailboxSound w) (hpc : w.pc = .session idle)
    (steady : Steady idle next es) :
    MailboxTurn w (follow w next) ((es.map .session).filterMap mailboxNotice) := by
  obtain ⟨-, notify⟩ := sound idle hpc
  have before : mailboxEstablished w = (w.connectedOnce || idle.established) := by
    simp only [mailboxEstablished, hpc]
  have after : mailboxEstablished (follow w next) = (w.connectedOnce || next.established) := by
    rw [follow]
    split
    · rename_i result _
      rcases result with error | stop
      · simp [conclude, MailboxWatcher.State.after, mailboxEstablished]
      · cases stop <;> simp [conclude, MailboxWatcher.State.after, mailboxEstablished]
    · simp [mailboxEstablished]
  refine ⟨?_, ?_, ?_, ?_⟩
  · intro last hlast
    rw [follow] at hlast ⊢
    split at hlast
    · rename_i result _
      rcases result with error | stop
      · simp [conclude] at hlast
      · cases stop <;> simp [conclude] at hlast
    · obtain rfl := Pc.session.inj hlast
      exact ⟨steady.reached, steady.notify.trans notify⟩
  · rw [before, after]
    intro h
    rcases Bool.or_eq_true_iff.mp h with once | established
    · rw [once, Bool.true_or]
    · rw [steady.established established, Bool.or_true]
  · intro h
    rw [before]
    rcases steady.queued (queued_of_notice h) with established | connect
    · rw [established, Bool.or_true]
    · rw [← notify, connect, Bool.true_or]
  · intro h
    rw [after, steady.ready (ready_of_notice h), Bool.or_true]

theorem mailboxStep_turn {w v : MailboxWatcher.State} {label : MailboxWatcher.Label}
    {ns : List Notice} (sound : MailboxSound w) (h : mailboxStep w label = some (v, ns)) :
    MailboxTurn w v ns := by
  obtain ⟨⟨u, es⟩, hs, he⟩ := Option.map_eq_some_iff.mp h
  obtain ⟨rfl, rfl⟩ := Prod.mk.inj he
  cases MailboxWatcher.turn_of_step hs with
  | checked shutdown hpc =>
    cases shutdown <;> exact mailboxTurn_outside (by simp) (by simp [mailboxEstablished, hpc]) rfl
  | examined tags hpc =>
    refine ⟨?_, by simp only [mailboxEstablished, hpc]; simp +contextual, by simp, by simp⟩
    intro idle hidle
    obtain rfl := Pc.session.inj hidle
    exact ⟨trivial, rfl⟩
  | crashed hpc =>
    refine mailboxTurn_outside (by simp) (by simp [mailboxEstablished, hpc]) ?_
    split <;> rfl
  | failed hpc => exact mailboxTurn_outside (by simp) (by simp [mailboxEstablished, hpc]) rfl
  | session hpc hi => exact mailboxTurn_session sound hpc (steady_step (sound _ hpc).1 hi)
  | dropped hpc =>
    rcases hpc with hpc | hpc <;>
      exact mailboxTurn_outside (by simp) (by simp [mailboxEstablished, hpc]) rfl
  | cut hpc =>
    exact mailboxTurn_outside (by simp)
      (by simp [mailboxEstablished, hpc, MailboxWatcher.State.after]) rfl
  | slept retry hpc =>
    cases retry <;> exact mailboxTurn_outside (by simp) (by simp [mailboxEstablished, hpc]) rfl

def mailbox : Watcher MailboxWatcher.State MailboxWatcher.Label where
  step := mailboxStep
  established := mailboxEstablished
  Sound := MailboxSound
  sound_step _ _ _ _ sound h := (mailboxStep_turn sound h).sound
  established_step _ _ _ _ sound h := (mailboxStep_turn sound h).established
  queued_step _ _ _ _ sound h := (mailboxStep_turn sound h).queued
  ready_step _ _ _ _ sound h := (mailboxStep_turn sound h).ready

end Mailbox

section Gmail
open GmailApiPoll

def gmailNotice : GmailApiPoll.Event → Option Notice
  | .queued => some .queued
  | .initialReady => some .ready
  | _ => none

def gmailEstablished (w : GmailApiPoll.State) : Bool := w.tracker.hasBaseline

def gmailStep (labelIds : List String) (w : GmailApiPoll.State) (label : GmailApiPoll.Label) :
    Option (GmailApiPoll.State × List Notice) :=
  (GmailApiPoll.step labelIds w label).map fun (v, es) => (v, es.filterMap gmailNotice)

/-- Past the head of the loop there is a baseline, unless it is being fetched. -/
def GmailSound (w : GmailApiPoll.State) : Prop :=
  match w.pc with
  | .pollToken => gmailEstablished w = true
  | .pollProfile => gmailEstablished w = true
  | .pollHistory _ _ _ _ _ => gmailEstablished w = true
  | .interval => gmailEstablished w = true
  | _ => True

structure GmailTurn (w v : GmailApiPoll.State) (ns : List Notice) : Prop where
  sound : GmailSound v
  established : gmailEstablished w = true → gmailEstablished v = true
  queued : Notice.queued ∈ ns → gmailEstablished w = true
  ready : Notice.ready ∈ ns → gmailEstablished v = true

variable {w : GmailApiPoll.State}

theorem gmailTurn_quiet {v : GmailApiPoll.State} (sound : GmailSound v)
    (tracker : v.tracker = w.tracker) : GmailTurn w v [] :=
  ⟨sound, fun h => by rwa [gmailEstablished, tracker], by simp, by simp⟩

theorem gmailTurn_fail (error : GmailApiPollError) :
    GmailTurn w (fail w error).1 ((fail w error).2.filterMap gmailNotice) := by
  rw [fail]
  split
  · have quiet : (if w.initialReady then [Event.initialReadyFailed] else []).filterMap gmailNotice
        = [] := by split <;> rfl
    rw [quiet]
    exact gmailTurn_quiet trivial rfl
  · exact gmailTurn_quiet trivial rfl

theorem gmailTurn_accept (established : gmailEstablished w = true) (since last : Nat)
    (shouldTrigger : Bool) : GmailTurn w (accept w since last shouldTrigger).1
      ((accept w since last shouldTrigger).2.filterMap gmailNotice) :=
  ⟨trivial, fun _ => rfl, fun _ => established, fun _ => rfl⟩

theorem gmailTurn_baselined (id : Nat) :
    GmailTurn w (baselined w id).1 ((baselined w id).2.filterMap gmailNotice) := by
  refine ⟨rfl, fun _ => rfl, ?_, fun _ => rfl⟩
  intro h
  rw [baselined] at h
  split at h <;> simp [gmailNotice] at h

theorem gmailStep_turn {v : GmailApiPoll.State} {labelIds : List String}
    {label : GmailApiPoll.Label} {ns : List Notice} (sound : GmailSound w)
    (h : gmailStep labelIds w label = some (v, ns)) : GmailTurn w v ns := by
  obtain ⟨⟨u, es⟩, hs, he⟩ := Option.map_eq_some_iff.mp h
  obtain ⟨rfl, rfl⟩ := Prod.mk.inj he
  cases turn_of_step hs with
  | checked shutdown hpc =>
    refine gmailTurn_quiet ?_ rfl
    cases shutdown with
    | true => trivial
    | false =>
      cases hb : w.tracker.hasBaseline with
      | true => exact hb
      | false => trivial
  | baselineToken | unchanged => exact gmailTurn_quiet trivial rfl
  | failed error => exact gmailTurn_fail error
  | baselined => exact gmailTurn_baselined _
  | advanced hpc | changed hpc | stale hpc | noChange hpc =>
    simp only [GmailSound, hpc] at sound
    exact gmailTurn_accept sound _ _ _
  | pollToken hpc | listing hpc | nextPage hpc | nextLabel hpc =>
    simp only [GmailSound, hpc] at sound
    exact gmailTurn_quiet sound rfl
  | slept goOn hpc =>
    simp only [GmailSound, hpc] at sound
    cases goOn with
    | true => exact gmailTurn_quiet sound rfl
    | false => exact gmailTurn_quiet trivial rfl
  | retried goOn => cases goOn <;> exact gmailTurn_quiet trivial rfl

def gmail (labelIds : List String) : Watcher GmailApiPoll.State GmailApiPoll.Label where
  step := gmailStep labelIds
  established := gmailEstablished
  Sound := GmailSound
  sound_step _ _ _ _ sound h := (gmailStep_turn sound h).sound
  established_step _ _ _ _ sound h := (gmailStep_turn sound h).established
  queued_step _ _ _ _ sound h := (gmailStep_turn sound h).queued
  ready_step _ _ _ _ sound h := (gmailStep_turn sound h).ready

end Gmail

/-- For an IMAP and for a Gmail source, with and without `--initial-connect-required`, the
gap is closed throughout a run if and only if, should the run establish the source, no
change comes after the start-up event and before the establishment. -/
theorem startup_gap_is_closed_iff_attended {bound : Nat} (hb : 0 < bound) (required : Bool) :
    (∀ labels s tr,
      exec (step mailbox bound required) (State.start (.start required)) labels = some (s, tr) →
        (ClosedThroughout mailbox bound required (.start required) labels ↔
          (mailbox.established s.watcher = true → Meets (step mailbox bound required)
            (Attended mailbox) (State.start (.start required)) labels))) ∧
    ∀ labelIds labels s tr,
      exec (step (gmail labelIds) bound required) (State.start (.start required)) labels
        = some (s, tr) →
        (ClosedThroughout (gmail labelIds) bound required (.start required) labels ↔
          ((gmail labelIds).established s.watcher = true → Meets (step (gmail labelIds) bound required)
            (Attended (gmail labelIds)) (State.start (.start required)) labels)) := by
  refine ⟨?_, ?_⟩
  · intro labels s tr run
    have start : mailbox.Sound (.start required) := by
      intro idle hpc
      cases hpc
    exact closed_iff_attended hb start run
  · intro labelIds labels s tr run
    have start : (gmail labelIds).Sound (.start required) := trivial
    exact closed_iff_attended hb start run

/-- An IMAP source whose first attempt fails; the mail arrives before the second. -/
private def exampleAttempts (before after : List (Label MailboxWatcher.Label)) :
    List (Label MailboxWatcher.Label) :=
  .watcher (.check false) :: .watcher (.attemptFailed false) :: before ++
    [.changed, .watcher (.slept true), .watcher (.check false), .watcher (.examined 2),
      .watcher (.session (.wrote (.ok ()))), .watcher (.session (.line "+ idling".toList))] ++ after

theorem example_late_signal_closes_gap :
    ClosedThroughout mailbox 64 false (.start false)
      (exampleAttempts [] [.broadcast, .check]) := by
  have run := (Option.some_get (by decide +kernel : (exec (step mailbox 64 false)
    (State.start (.start false)) (exampleAttempts [] [.broadcast, .check])).isSome = true)).symm
  exact ((startup_gap_is_closed_iff_attended (by decide : 0 < 64) false).1 _ _ _ run).mpr
    fun _ => by decide +kernel

/-- The start-up event comes first, and nothing follows the change. -/
theorem early_signal_leaves_gap :
    ¬ ClosedThroughout mailbox 64 false (.start false)
      (exampleAttempts [.broadcast, .check, .consume] []) := by
  intro closed
  have run := (Option.some_get (by decide +kernel : (exec (step mailbox 64 false)
    (State.start (.start false))
      (exampleAttempts [.broadcast, .check, .consume] [])).isSome = true)).symm
  have trace : ((exec (step mailbox 64 false) (State.start (.start false))
      (exampleAttempts [.broadcast, .check, .consume] [])).get (by decide +kernel)).2
        = [.put] ++ .changed true :: [] := by decide +kernel
  have answered := closed _ [] _ _ (List.append_nil _).symm run (by decide +kernel)
    (by decide +kernel)
  obtain ⟨y, hy, -⟩ := answered [.put] (.changed true) [] trace rfl
  cases hy

end StartupGap

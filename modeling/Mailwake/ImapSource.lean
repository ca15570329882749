import Mailwake.CatchUp
import Mailwake.SourceFeed

/-!
# An IMAP source from the server's line to its command

The watcher of a mailbox beside its receiver of the resume broadcast and the start-up event of
its source, and these tasks beside the pipeline of the command. What a line of the server asks
for is read off the line and the place it is read at; that the code queues an event for it, and
that the event is not lost on its way to the lane, is shown.
-/
namespace ImapSource
open Channel Transition ImapLine
universe u v

structure State where
  watcher : MailboxWatcher.State
  /-- The receiver of the resume broadcast. -/
  resume : Watch Unit
  /-- Whether `spawn_startup_event` still runs. -/
  startup : Bool

inductive Label where
  | watcher (label : MailboxWatcher.Label)
  | broadcast
  | dropBroadcaster
  | startup (queue : Bool)

inductive Event where
  /-- A connection attempt begins. -/
  | attempt
  /-- A line that announces a change was read inside IDLE, or as the first such line after
  DONE. -/
  | change (line : Line)
  /-- The first continuation of a session that is not the first one to get there. -/
  | reestablished
  | watcher (event : MailboxWatcher.Event)
  | startup
  /-- A resume signal, and whether the source had been established by then. -/
  | broadcast (established : Bool)

def State.start (initialReady startup : Bool) : State := ⟨.start initialReady, .start (), startup⟩

def announces (tag : Nat) (line : Line) : Bool :=
  match classifyIdleResponse line (formatTag tag) with
  | .ok .mailboxChange => true
  | _ => false

def noticed (w : MailboxWatcher.State) (idle : ImapIdle.State) (line : Line) : List Event :=
  match idle.pc with
  | .continuation _ =>
    if startsWith line ['+'] && !idle.established && w.connectedOnce then [.reestablished] else []
  | .idling tag => if announces tag line then [.change line] else []
  | .completion tag _ eventQueued =>
    if announces tag line && !eventQueued then [.change line] else []
  | _ => []

def seen (w : MailboxWatcher.State) : MailboxWatcher.Label → List Event
  | .check false => [.attempt]
  | .session (.line line) =>
    match w.pc with
    | .session idle => noticed w idle line
    | _ => []
  | _ => []

/-- `wait_for_resume`: a closed channel never resumes anything. -/
def heed (resume : Watch Unit) : MailboxWatcher.Label → Option (Watch Unit)
  | .resumed =>
    match resume.changed with
    | some (true, resume) => some resume
    | _ => none
  | _ => some resume

/-- Some session has reached its first continuation. -/
def onceEstablished (w : MailboxWatcher.State) : Bool :=
  match w.pc with
  | .session idle => w.connectedOnce || idle.established
  | _ => w.connectedOnce

def ended (w : MailboxWatcher.State) : Bool :=
  match w.pc with
  | .crashed => true
  | .stopped => true
  | _ => false

def step (s : State) : Label → Option (State × List Event)
  | .watcher label =>
    (MailboxWatcher.step s.watcher label).bind fun (w, es) =>
      (heed s.resume label).map fun resume =>
        ({ s with watcher := w, resume := resume }, seen s.watcher label ++ es.map .watcher)
  | .broadcast =>
    if s.resume.senderAlive then
      some ({ s with resume := s.resume.send () }, [.broadcast (onceEstablished s.watcher)])
    else none
  | .dropBroadcaster => some ({ s with resume := s.resume.dropSender }, [])
  | .startup queue =>
    if s.startup then some ({ s with startup := false }, if queue then [.startup] else [])
    else none

/-- The calls of `try_send`. -/
def emits : Event → Bool
  | .watcher (.session .queued) => true
  | .startup => true
  | _ => false

/-- No task holds a sender of the event queue. -/
def finished (s : State) : Bool := ended s.watcher && !s.startup

variable {s t : State} {w v : MailboxWatcher.State}

theorem watcher_some {label : MailboxWatcher.Label} {es : List Event} :
    step s (.watcher label) = some (t, es) ↔ t.startup = s.startup ∧
      heed s.resume label = some t.resume ∧
      ∃ fs, MailboxWatcher.step s.watcher label = some (t.watcher, fs) ∧
        es = seen s.watcher label ++ fs.map .watcher := by
  obtain ⟨watcher, resume, startup⟩ := t
  simp only [step, Option.bind_eq_some_iff, Option.map_eq_some_iff, Prod.exists, Prod.mk.injEq,
    State.mk.injEq]
  constructor
  · rintro ⟨v, fs, hs, resume', heeded, ⟨rfl, rfl, rfl⟩, rfl⟩
    exact ⟨rfl, heeded, fs, hs, rfl⟩
  · rintro ⟨rfl, heeded, fs, hs, rfl⟩
    exact ⟨watcher, fs, hs, resume, heeded, ⟨rfl, rfl, rfl⟩, rfl⟩

section Notices

/-- A line that the source has to answer by an execution of its command. -/
def Event.Asks : Event → Prop
  | .change _ => True
  | .reestablished => True
  | _ => False

/-- The session knows whether it is the first to be established. -/
def Notifies (w : MailboxWatcher.State) : Prop :=
  ∀ idle, w.pc = .session idle →
    MailboxWatcher.Reached idle ∧ idle.notifyOnConnect = w.connectedOnce

theorem notifies_follow {idle : ImapIdle.State} (reached : MailboxWatcher.Reached idle)
    (notify : idle.notifyOnConnect = w.connectedOnce) :
    Notifies (MailboxWatcher.follow w idle) := by
  intro next hpc
  rw [MailboxWatcher.follow] at hpc ⊢
  split at hpc
  · rename_i result _
    rcases result with error | stop
    · simp [MailboxWatcher.conclude] at hpc
    · cases stop <;> simp [MailboxWatcher.conclude] at hpc
  · obtain rfl : idle = next := by simpa using hpc
    exact ⟨reached, notify⟩

theorem notifies_step {label : MailboxWatcher.Label} {es : List MailboxWatcher.Event}
    (old : Notifies w) (h : MailboxWatcher.step w label = some (v, es)) : Notifies v := by
  cases MailboxWatcher.turn_of_step h with
  | checked shutdown hpc => intro idle h; cases shutdown <;> simp at h
  | examined tags hpc =>
    intro idle h
    obtain rfl : _ = idle := by simpa using h
    exact ⟨trivial, rfl⟩
  | crashed hpc => intro idle h; simp at h
  | failed hpc => intro idle h; simp at h
  | session hpc hi =>
    obtain ⟨reached, notify⟩ := old _ hpc
    have steady := MailboxWatcher.steady_step reached hi
    exact notifies_follow steady.reached (steady.notify.trans notify)
  | dropped hpc => intro idle h; simp at h
  | cut hpc => intro idle h; simp at h
  | slept retry hpc => intro idle h; cases retry <;> simp at h

/-- The code queues an event for each line that asks for one. -/
theorem asked_is_queued {label : MailboxWatcher.Label} {es : List MailboxWatcher.Event}
    (notifies : Notifies w) (h : MailboxWatcher.step w label = some (v, es)) {x : Event}
    (mem : x ∈ seen w label) (asks : x.Asks) : .session .queued ∈ es := by
  cases label with
  | check shutdown =>
    cases shutdown with
    | true => cases mem
    | false =>
      obtain rfl : x = .attempt := by simpa [seen] using mem
      exact asks.elim
  | session label =>
    cases label with
    | line line =>
      cases MailboxWatcher.turn_of_step h with
      | session hpc hi =>
        rename_i idle next fs
        have notify := (notifies idle hpc).2
        simp only [seen, hpc] at mem
        have queued : ImapIdle.Event.queued ∈ fs := by
          rw [noticed] at mem
          split at mem
          · rename_i tag hidle
            split at mem
            · rename_i first
              simp only [Bool.and_eq_true, Bool.not_eq_true'] at first
              simp only [ImapIdle.step, hidle, ImapIdle.waitIdleContinuation, first.1.1,
                ImapIdle.continued, first.1.2, notify, first.2] at hi
              cases hi
              simp
            · cases mem
          · rename_i tag hidle
            split at mem
            · rename_i change
              simp only [ImapIdle.step, hidle, ImapIdle.idleLine] at hi
              rw [announces] at change
              split at change
              · rename_i classified
                rw [classified] at hi
                cases hi
                simp
              · cases change
            · cases mem
          · rename_i tag stopping eventQueued hidle
            split at mem
            · rename_i change
              simp only [Bool.and_eq_true, Bool.not_eq_true'] at change
              obtain ⟨change, rfl⟩ := change
              simp only [ImapIdle.step, hidle, ImapIdle.waitIdleCompletion] at hi
              rw [announces] at change
              split at change
              · rename_i classified
                rw [classified] at hi
                cases hi
                simp
              · cases change
            · cases mem
          · cases mem
        exact List.mem_map.mpr ⟨.queued, queued, rfl⟩
    | _ => cases mem
  | _ => cases mem

theorem not_asks_watcher {x : Event} {fs : List MailboxWatcher.Event}
    (mem : x ∈ fs.map Event.watcher) : ¬ x.Asks := by
  obtain ⟨e, -, rfl⟩ := List.mem_map.mp mem
  exact id

theorem notifies_run {initialReady startup : Bool} {labels : List Label} {tr : List Event}
    (run : exec step (.start initialReady startup) labels = some (t, tr)) :
    FollowedBy Event.Asks (fun e => emits e = true) tr := by
  have start : FollowedBy Event.Asks (fun e => emits e = true) [] ∧
      Notifies (State.start initialReady startup).watcher :=
    ⟨followedBy_nil, fun idle h => by simp [State.start, MailboxWatcher.State.start] at h⟩
  refine (exec_invariant (P := fun tr s => FollowedBy Event.Asks (fun e => emits e = true) tr ∧
    Notifies s.watcher) ?_ start run).1
  rintro tr s label t es ⟨old, notifies⟩ h
  cases label with
  | watcher label =>
    obtain ⟨-, -, fs, hs, rfl⟩ := watcher_some.mp h
    refine ⟨old.append_followed ?_, notifies_step notifies hs⟩
    intro before x after he asks
    rcases List.append_eq_append_iff.mp he with ⟨mid, -, hm⟩ | ⟨mid, hseen, hm⟩
    · exact absurd asks (not_asks_watcher (by rw [hm]; simp))
    · cases mid with
      | nil =>
        have mem : x ∈ fs.map Event.watcher := by
          rw [← List.nil_append (fs.map _), ← hm]
          exact List.mem_cons_self
        exact absurd asks (not_asks_watcher mem)
      | cons y mid =>
        obtain ⟨rfl, rfl⟩ := List.cons_eq_cons.mp hm
        have queued := asked_is_queued notifies hs (x := x) (by simp [hseen]) asks
        exact ⟨.watcher (.session .queued), by simp [queued], rfl⟩
  | broadcast =>
    simp only [step] at h
    split at h
    · cases h
      exact ⟨old.append (by simp [Event.Asks]), notifies⟩
    · cases h
  | dropBroadcaster =>
    cases h
    exact ⟨old.append (by simp), notifies⟩
  | startup queue =>
    simp only [step] at h
    split at h
    · cases h
      cases queue <;> exact ⟨old.append (by simp [Event.Asks]), notifies⟩
    · cases h

end Notices

section Resumes

def Event.Resumes : Event → Prop
  | .broadcast _ => True
  | _ => False

/-- A resume signal to a source that had been established. -/
def Event.ResumesEstablished : Event → Prop
  | .broadcast established => established = true
  | _ => False

def Event.Attempt : Event → Prop
  | .attempt => True
  | _ => False

def Event.Reestablished : Event → Prop
  | .reestablished => True
  | _ => False

/-- The watcher tries, holds or awaits a connection. -/
def trying (w : MailboxWatcher.State) : Bool :=
  match w.pc with
  | .connecting => true
  | .session _ => true
  | .backoff => true
  | _ => false

def established (w : MailboxWatcher.State) : Bool :=
  match w.pc with
  | .session idle => idle.established
  | _ => false

/-- No session has been established since the last one was left. -/
def renewing (w : MailboxWatcher.State) : Bool :=
  match w.pc with
  | .head => true
  | .connecting => true
  | .session idle => !idle.established
  | .backoff => true
  | _ => false

theorem heed_cases {resume after : Watch Unit} {label : MailboxWatcher.Label}
    (h : heed resume label = some after) :
    label = .resumed ∧ resume.unseen = true ∨ after = resume := by
  cases label with
  | resumed =>
    simp only [heed] at h
    split at h
    · rename_i told
      rcases Watch.changed_cases told with ⟨-, unseen, -⟩ | ⟨bad, -⟩
      · exact Or.inl ⟨rfl, unseen⟩
      · cases bad
    · cases h
  | _ => exact Or.inr (Option.some.inj h).symm

theorem not_broadcast_seen {label : MailboxWatcher.Label} {known : Bool} :
    Event.broadcast known ∉ seen w label := by
  intro mem
  cases label with
  | check shutdown => cases shutdown <;> simp [seen] at mem
  | session label =>
    cases label with
    | line line =>
      simp only [seen] at mem
      split at mem
      · rw [noticed] at mem
        split at mem <;> try split at mem
        all_goals simp at mem
      · cases mem
    | _ => cases mem
  | _ => cases mem

theorem not_resumes {label : MailboxWatcher.Label} {fs : List MailboxWatcher.Event} {x : Event}
    (mem : x ∈ seen w label ++ fs.map .watcher) : ¬ x.Resumes := by
  intro resumes
  cases x with
  | broadcast known => simp [not_broadcast_seen] at mem
  | _ => exact resumes

section Watcher
variable {label : MailboxWatcher.Label} {es : List MailboxWatcher.Event}

theorem not_ended_of_step (h : MailboxWatcher.step w label = some (v, es)) : ended w = false := by
  cases MailboxWatcher.turn_of_step h with
  | checked _ hpc | examined _ hpc | crashed hpc | failed hpc | session hpc _ | cut hpc
  | slept _ hpc => simp [ended, hpc]
  | dropped hpc => rcases hpc with hpc | hpc <;> simp [ended, hpc]

theorem resumed_head (h : MailboxWatcher.step w .resumed = some (v, es)) : v.pc = .head := by
  cases MailboxWatcher.turn_of_step h with
  | dropped hpc => rfl
  | cut hpc => rfl

/-- Only the look at the shutdown watch leaves the head of the loop. -/
theorem head_step (head : w.pc = .head) (h : MailboxWatcher.step w label = some (v, es)) :
    .attempt ∈ seen w label ∨ ended v = true := by
  cases MailboxWatcher.turn_of_step h with
  | checked shutdown hpc =>
    cases shutdown with
    | true => exact Or.inr rfl
    | false => exact Or.inl List.mem_cons_self
  | examined _ hpc | crashed hpc | failed hpc | session hpc _ | cut hpc | slept _ hpc =>
    rw [head] at hpc
    cases hpc
  | dropped hpc => rcases hpc with hpc | hpc <;> rw [head] at hpc <;> cases hpc

theorem once_follow (idle : ImapIdle.State) :
    onceEstablished (MailboxWatcher.follow w idle) = (w.connectedOnce || idle.established) := by
  rw [MailboxWatcher.follow]
  split
  · rename_i result _
    rcases result with error | stop
    · rfl
    · cases stop <;> rfl
  · rfl

theorem renewing_follow {idle : ImapIdle.State} (fresh : idle.established = false) :
    renewing (MailboxWatcher.follow w idle) = true ∨
      ended (MailboxWatcher.follow w idle) = true := by
  rw [MailboxWatcher.follow]
  split
  · rename_i result _
    rcases result with error | stop
    · exact Or.inl rfl
    · cases stop with
      | shutdown => exact Or.inr rfl
      | reconnect => exact Or.inl rfl
  · exact Or.inl (by simp [renewing, fresh])

theorem once_step (once : onceEstablished w = true)
    (h : MailboxWatcher.step w label = some (v, es)) : onceEstablished v = true := by
  cases MailboxWatcher.turn_of_step h with
  | checked shutdown hpc =>
    simp only [onceEstablished, hpc] at once
    cases shutdown <;> exact once
  | examined tags hpc =>
    simp only [onceEstablished, hpc] at once
    simp [onceEstablished, once]
  | crashed hpc =>
    simp only [onceEstablished, hpc] at once
    exact once
  | failed hpc =>
    simp only [onceEstablished, hpc] at once
    exact once
  | session hpc hi =>
    simp only [onceEstablished, hpc] at once
    rw [once_follow]
    rcases CatchUp.session_cases hi with ⟨-, kept⟩ | ⟨-, tag, line, -, rfl⟩
    · rw [kept.established]
      exact once
    · rw [ImapIdle.continued]
      split
      · exact once
      · simp
  | dropped hpc =>
    rcases hpc with hpc | hpc
    all_goals
      simp only [onceEstablished, hpc] at once
      exact once
  | cut hpc =>
    simp only [onceEstablished, hpc] at once
    exact once
  | slept retry hpc =>
    simp only [onceEstablished, hpc] at once
    cases retry <;> exact once

/-- A source that was established leaves this state only with a catch-up. -/
theorem renewing_step (once : onceEstablished w = true) (renews : renewing w = true)
    (h : MailboxWatcher.step w label = some (v, es)) :
    renewing v = true ∨ ended v = true ∨ .reestablished ∈ seen w label := by
  cases MailboxWatcher.turn_of_step h with
  | checked shutdown hpc =>
    cases shutdown with
    | true => exact Or.inr (Or.inl rfl)
    | false => exact Or.inl rfl
  | examined tags hpc => exact Or.inl rfl
  | crashed hpc => exact Or.inr (Or.inl rfl)
  | failed hpc => exact Or.inl rfl
  | session hpc hi =>
    rename_i label idle next fs
    have fresh : idle.established = false := by simpa [renewing, hpc] using renews
    have connected : w.connectedOnce = true := by simpa [onceEstablished, hpc, fresh] using once
    rcases CatchUp.session_cases hi with ⟨-, kept⟩ | ⟨going, -⟩
    · rcases renewing_follow (w := w) (kept.established.trans fresh) with renews | gone
      · exact Or.inl renews
      · exact Or.inr (Or.inl gone)
    · refine Or.inr (Or.inr ?_)
      cases label with
      | line line =>
        simp only [CatchUp.isContinuation] at going
        split at going
        · rename_i tag hidle
          simp [seen, hpc, noticed, hidle, going, fresh, connected]
        · cases going
      | _ => cases going
  | dropped hpc => exact Or.inl rfl
  | cut hpc => exact Or.inl rfl
  | slept retry hpc =>
    cases retry with
    | true => exact Or.inl rfl
    | false => exact Or.inr (Or.inl rfl)

end Watcher

/-- Between a resume signal and the next attempt the watcher has still to be told, or it is back
at the head of its loop. -/
def Untold (s : State) : Prop :=
  s.resume.unseen = true ∨ s.watcher.pc = .head ∨ ended s.watcher = true

theorem untold_step {tr es : List Event} {label : Label}
    (old : FollowedBy Event.Resumes Event.Attempt tr ∨ Untold s)
    (h : step s label = some (t, es)) :
    FollowedBy Event.Resumes Event.Attempt (tr ++ es) ∨ Untold t := by
  cases label with
  | watcher label =>
    obtain ⟨-, heeded, fs, hs, rfl⟩ := watcher_some.mp h
    rcases old with followed | unseen | head | gone
    · exact Or.inl (followed.append fun x hx => not_resumes hx)
    · rcases heed_cases heeded with ⟨rfl, -⟩ | same
      · exact Or.inr (Or.inr (Or.inl (resumed_head hs)))
      · exact Or.inr (Or.inl (by rwa [same]))
    · rcases head_step head hs with attempt | gone
      · refine Or.inl (followedBy_append_answer ⟨.attempt, ?_, trivial⟩ fun x hx => not_resumes hx)
        exact List.mem_append_left _ attempt
      · exact Or.inr (Or.inr (Or.inr gone))
    · rw [not_ended_of_step hs] at gone
      cases gone
  | broadcast =>
    simp only [step] at h
    split at h
    · cases h
      exact Or.inr (Or.inl rfl)
    · cases h
  | dropBroadcaster =>
    cases h
    rw [List.append_nil]
    exact old
  | startup queue =>
    simp only [step] at h
    split at h
    · cases h
      rcases old with followed | untold
      · refine Or.inl (followed.append ?_)
        cases queue <;> simp [Event.Resumes]
      · exact Or.inr untold
    · cases h

/-- Of a resume signal after the first establishment, the catch-up is still to come. -/
def Renewing (s : State) : Prop :=
  onceEstablished s.watcher = true ∧ (s.resume.unseen = true ∨ renewing s.watcher = true) ∨
    ended s.watcher = true

theorem renewing_run_step {tr es : List Event} {label : Label}
    (old : FollowedBy Event.ResumesEstablished Event.Reestablished tr ∨ Renewing s)
    (h : step s label = some (t, es)) :
    FollowedBy Event.ResumesEstablished Event.Reestablished (tr ++ es) ∨ Renewing t := by
  cases label with
  | watcher label =>
    obtain ⟨-, heeded, fs, hs, rfl⟩ := watcher_some.mp h
    have quiet : ∀ x ∈ seen s.watcher label ++ fs.map .watcher, ¬ x.ResumesEstablished := by
      intro x hx resumes
      refine not_resumes hx ?_
      cases x with
      | broadcast known => trivial
      | _ => exact resumes
    rcases old with followed | ⟨once, unseen | renews⟩ | gone
    · exact Or.inl (followed.append quiet)
    · refine Or.inr (Or.inl ⟨once_step once hs, ?_⟩)
      rcases heed_cases heeded with ⟨rfl, -⟩ | same
      · exact Or.inr (by simp [renewing, resumed_head hs])
      · exact Or.inl (by rwa [same])
    · rcases renewing_step once renews hs with renews | gone | caughtUp
      · exact Or.inr (Or.inl ⟨once_step once hs, Or.inr renews⟩)
      · exact Or.inr (Or.inr gone)
      · refine Or.inl (followedBy_append_answer ⟨.reestablished, ?_, trivial⟩ quiet)
        exact List.mem_append_left _ caughtUp
    · rw [not_ended_of_step hs] at gone
      cases gone
  | broadcast =>
    simp only [step] at h
    split at h
    · cases h
      cases once : onceEstablished s.watcher with
      | true => exact Or.inr (Or.inl ⟨once, Or.inl rfl⟩)
      | false =>
        rcases old with followed | ⟨known, -⟩ | gone
        · exact Or.inl (followed.append (by simp [Event.ResumesEstablished]))
        · rw [once] at known
          cases known
        · exact Or.inr (Or.inr gone)
    · cases h
  | dropBroadcaster =>
    cases h
    rw [List.append_nil]
    exact old
  | startup queue =>
    simp only [step] at h
    split at h
    · cases h
      rcases old with followed | renews
      · refine Or.inl (followed.append ?_)
        cases queue <;> simp [Event.ResumesEstablished]
      · exact Or.inr renews
    · cases h

section Producer
variable {initialReady startup : Bool} {labels : List Label} {tr : List Event}

/-- Whoever has been told of every resume signal and tries, holds or awaits a connection has
begun its last attempt after the last signal. -/
theorem every_resume_is_followed_by_an_attempt
    (run : exec step (.start initialReady startup) labels = some (t, tr))
    (told : t.resume.unseen = false)
    (going : trying t.watcher = true) : FollowedBy Event.Resumes Event.Attempt tr := by
  have last : FollowedBy Event.Resumes Event.Attempt tr ∨ Untold t :=
    exec_invariant (P := fun tr s => FollowedBy Event.Resumes Event.Attempt tr ∨ Untold s)
      (fun _ _ _ _ _ old h => untold_step old h) (Or.inl followedBy_nil) run
  rcases last with followed | unseen | head | gone
  · exact followed
  · rw [told] at unseen
    cases unseen
  · simp [trying, head] at going
  · rw [trying] at going
    rw [ended] at gone
    split at gone <;> simp_all

/-- In an established session that knows of every resume signal, a catch-up has come since the
last signal that found the source established. -/
theorem resumes_reestablish (run : exec step (.start initialReady startup) labels = some (t, tr))
    (told : t.resume.unseen = false) (stands : established t.watcher = true) :
    FollowedBy Event.ResumesEstablished Event.Reestablished tr := by
  have last : FollowedBy Event.ResumesEstablished Event.Reestablished tr ∨ Renewing t :=
    exec_invariant
      (P := fun tr s => FollowedBy Event.ResumesEstablished Event.Reestablished tr ∨ Renewing s)
      (fun _ _ _ _ _ old h => renewing_run_step old h) (Or.inl followedBy_nil) run
  rcases last with followed | ⟨-, unseen | renews⟩ | gone
  · exact followed
  · rw [told] at unseen
    cases unseen
  · rw [established] at stands
    split at stands
    · rename_i idle hpc
      simp [renewing, hpc, stands] at renews
    · cases stands
  · rw [established] at stands
    split at stands
    · rename_i idle hpc
      simp [ended, hpc] at gone
    · cases stands

end Producer

end Resumes

section Pipeline
variable {κ : Type u} {ω : Type v} [DecidableEq κ] {bound : Nat} {loop : EventRunner.Loop ω}
  {runner : Lane.CommandLaneRunner κ} {command : κ} {initialReady startup : Bool}
  {labels : List (Feed.Label Label (Pipeline.Label κ))}
  {tr : List (Feed.Event Event (Pipeline.Event κ))} {last : State × Pipeline.State κ ω}

theorem finishes : SourceFeed.Finishes step emits finished := by
  have quiet : ∀ s label t es, step s label = some (t, es) → finished s = true →
      finished t = true ∧ ∀ e ∈ es, emits e = false := by
    intro s label t es h done
    obtain ⟨gone, startup⟩ : ended s.watcher = true ∧ s.startup = false := by
      simpa [finished] using done
    cases label with
    | watcher label =>
      obtain ⟨-, -, fs, hs, -⟩ := watcher_some.mp h
      rw [not_ended_of_step hs] at gone
      cases gone
    | broadcast =>
      simp only [step] at h
      split at h
      · cases h
        exact ⟨done, by simp [emits]⟩
      · cases h
    | dropBroadcaster =>
      cases h
      exact ⟨done, by simp⟩
    | startup queue => simp [step, startup] at h
  exact ⟨fun s a t es h done => (quiet s a t es h done).1,
    fun s a t es h done => (quiet s a t es h done).2⟩

/-- The pipeline never keeps the session from reading on. -/
theorem pipeline_never_holds_up_the_watcher
    (run : exec (SourceFeed.step step emits finished bound loop runner command)
      (.start initialReady startup, Pipeline.State.start) labels = some (last, tr)) {label : Label}
    (able : (step last.1 label).isSome = true) :
    (SourceFeed.step step emits finished bound loop runner command last
      (.produce label)).isSome = true :=
  SourceFeed.never_held_up finishes run able

theorem asked_answered (slots : 0 < bound) (known : runner.command command ≠ none)
    (run : exec (SourceFeed.step step emits finished bound loop runner command)
      (.start initialReady startup, Pipeline.State.start) labels = some (last, tr))
    (quiet : Pipeline.Quiescent last.2) :
    FollowedBy (Feed.Event.Produced Event.Asks) (SourceFeed.Executing command) tr := by
  obtain ⟨as, produced⟩ := Feed.producer_run run
  exact (Feed.produced_followed (notifies_run produced)).trans
    (SourceFeed.queued_runs_the_command slots known run quiet)

private def exampleLane : Lane.CommandLaneRunner Bool := ⟨[⟨true, 0⟩], 64⟩

/-- From a queued event to the end of the execution that answers it. -/
private def exampleRound : List (Feed.Label Label (Pipeline.Label Bool)) :=
  [.source .recv, .advance 1, .source .timer, .submit, .lane .recv, .lane .proceed, .lane .proceed,
    .lane (.finish (.ok (.ofExitStatus (some 0) none))), .lane .proceed, .lane .proceed,
    .lane .proceed, .lane .proceed,
    .completed (.outcome (.ofExitStatus (some 0) none))].map .consume

private def exampleConnect : List (Feed.Label Label (Pipeline.Label Bool)) :=
  [.check false, .examined 2, .session (.wrote (.ok ())),
    .session (.line "+ idling".toList)].map fun label => .produce (.watcher label)

/-- A change is announced and answered, then a resume signal cuts the session. -/
private def exampleDay : List (Feed.Label Label (Pipeline.Label Bool)) :=
  .consume (.lane .proceed) :: exampleConnect ++
    [.produce (.watcher (.session (.line "* 4 EXISTS".toList)))] ++ exampleRound ++
    [.produce .broadcast, .produce (.watcher .resumed)] ++ exampleConnect ++ exampleRound

private abbrev exampleStep := SourceFeed.step step emits finished 64
  (EventRunner.DebounceRunner.mk 1 0).loop exampleLane true

private def exampleLast : (State × Pipeline.State Bool EventRunner.DebounceRunner.Wait) ×
    List (Feed.Event Event (Pipeline.Event Bool)) :=
  (exec exampleStep (.start false false, Pipeline.State.start) exampleDay).get (by decide +kernel)

private theorem example_day_runs :
    exec exampleStep (.start false false, Pipeline.State.start) exampleDay =
      some (exampleLast.1, exampleLast.2) :=
  (Option.some_get (by decide +kernel :
    (exec exampleStep (.start false false, Pipeline.State.start) exampleDay).isSome = true)).symm

private theorem example_day_ends_quiet : Pipeline.Quiescent exampleLast.1.2 :=
  ⟨by decide +kernel, by decide +kernel, by decide +kernel, by decide +kernel, by decide +kernel⟩

/-- In an established session that knows of every resume signal, and whenever the pipeline is
quiescent, an execution of the command has started after each signal that came once the source
had been established. -/
theorem resumes_run_the_command (slots : 0 < bound) (known : runner.command command ≠ none)
    (run : exec (SourceFeed.step step emits finished bound loop runner command)
      (.start initialReady startup, Pipeline.State.start) labels = some (last, tr))
    (told : last.1.resume.unseen = false) (stands : established last.1.watcher = true)
    (quiet : Pipeline.Quiescent last.2) :
    FollowedBy (Feed.Event.Produced Event.ResumesEstablished) (SourceFeed.Executing command)
      tr := by
  obtain ⟨as, produced⟩ := Feed.producer_run run
  have reestablished : FollowedBy (Feed.Event.Produced Event.ResumesEstablished)
      (Feed.Event.Produced Event.Reestablished) tr :=
    Feed.produced_followed (resumes_reestablish produced told stands)
  refine reestablished.trans ((asked_answered slots known run quiet).imp ?_ fun _ hx => hx)
  intro x hx
  cases x with
  | produced e =>
    cases e with
    | reestablished => trivial
    | _ => exact hx.elim
  | consumed e => exact hx

end Pipeline

end ImapSource

import Mailwake.ImapIdle

/-!
# The sessions of an IMAP watcher

`watch_mailbox_forever` around the IDLE cycle: one connection attempt after another, with a
backoff between them. A resume signal drops an attempt or a session at any point, and cuts
the backoff short. Durations are whole seconds.
-/
namespace MailboxWatcher
open Transition

def initialBackoff : Nat := 1

def maxBackoff : Nat := 300

inductive Pc where
  | head
  /-- Everything in `run_mailbox_once` before IDLE. -/
  | connecting
  | session (idle : ImapIdle.State)
  | backoff
  | crashed
  | stopped

structure State where
  connectedOnce : Bool
  /-- Whether the initial-ready sender is still there. -/
  initialReady : Bool
  backoff : Nat
  pc : Pc

inductive Label where
  | check (shutdown : Bool)
  /-- EXAMINE has succeeded with this many tags. -/
  | examined (tags : Nat)
  /-- An error before IDLE; it may be a permanent authentication failure. -/
  | attemptFailed (permanent : Bool)
  | session (label : ImapIdle.Label)
  | resumed
  | slept (retry : Bool)

inductive Event where
  | session (event : ImapIdle.Event)
  | initialReadyFailed

def State.start (initialReady : Bool) : State := ⟨false, initialReady, initialBackoff, .head⟩

/-- What `run_mailbox_once` leaves behind in the variables of the loop. -/
def State.after (s : State) (idle : ImapIdle.State) : State :=
  { s with connectedOnce := s.connectedOnce || idle.established, initialReady := idle.initialReady }

/-- The session has ended on its own. -/
def conclude (s : State) (idle : ImapIdle.State) (result : Except ImapLine.ImapError ImapIdle.RunEnd) :
    State :=
  let s := s.after idle
  match result with
  | .ok .shutdown => { s with pc := .stopped }
  | .ok .reconnect => { s with backoff := initialBackoff, pc := .head }
  | .error _ =>
    { s with backoff := if idle.established then initialBackoff else s.backoff, pc := .backoff }

def follow (s : State) (idle : ImapIdle.State) : State :=
  match idle.pc with
  | .ended result => conclude s idle result
  | _ => { s with pc := .session idle }

def step (s : State) : Label → Option (State × List Event)
  | .check shutdown =>
    match s.pc with
    | .head => some ({ s with pc := if shutdown then .stopped else .connecting }, [])
    | _ => none
  | .examined tags =>
    match s.pc with
    | .connecting =>
      some ({ s with pc := .session (.start tags s.connectedOnce s.initialReady) }, [])
    | _ => none
  | .attemptFailed permanent =>
    match s.pc with
    | .connecting =>
      if permanent then
        some ({ s with initialReady := false, pc := .crashed },
          if s.initialReady then [.initialReadyFailed] else [])
      else some ({ s with pc := .backoff }, [])
    | _ => none
  | .session label =>
    match s.pc with
    | .session idle =>
      (ImapIdle.step idle label).map fun (idle, es) => (follow s idle, es.map .session)
    | _ => none
  | .resumed =>
    match s.pc with
    | .connecting => some ({ s with backoff := initialBackoff, pc := .head }, [])
    | .session idle => some ({ s.after idle with backoff := initialBackoff, pc := .head }, [])
    | .backoff => some ({ s with backoff := initialBackoff, pc := .head }, [])
    | _ => none
  | .slept retry =>
    match s.pc with
    | .backoff =>
      some (if retry then { s with backoff := min (s.backoff * 2) maxBackoff, pc := .head }
        else { s with pc := .stopped }, [])
    | _ => none

/-- What each step does, one case for each branch of the source. -/
inductive Turn (s : State) : Label → State → List Event → Prop where
  | checked (shutdown : Bool) : s.pc = .head → Turn s (.check shutdown)
      { s with pc := if shutdown then .stopped else .connecting } []
  | examined (tags : Nat) : s.pc = .connecting → Turn s (.examined tags)
      { s with pc := .session (.start tags s.connectedOnce s.initialReady) } []
  | crashed : s.pc = .connecting → Turn s (.attemptFailed true)
      { s with initialReady := false, pc := .crashed }
      (if s.initialReady then [.initialReadyFailed] else [])
  | failed : s.pc = .connecting → Turn s (.attemptFailed false) { s with pc := .backoff } []
  | session {label : ImapIdle.Label} {idle next : ImapIdle.State} {es : List ImapIdle.Event} :
      s.pc = .session idle → ImapIdle.step idle label = some (next, es) →
      Turn s (.session label) (follow s next) (es.map .session)
  | dropped : s.pc = .connecting ∨ s.pc = .backoff →
      Turn s .resumed { s with backoff := initialBackoff, pc := .head } []
  | cut {idle : ImapIdle.State} : s.pc = .session idle →
      Turn s .resumed { s.after idle with backoff := initialBackoff, pc := .head } []
  | slept (retry : Bool) : s.pc = .backoff → Turn s (.slept retry)
      (if retry then { s with backoff := min (s.backoff * 2) maxBackoff, pc := .head }
        else { s with pc := .stopped }) []

theorem turn_of_step {s t : State} {label : Label} {es : List Event}
    (h : step s label = some (t, es)) : Turn s label t es := by
  cases label with
  | check shutdown =>
    simp only [step] at h
    split at h
    · rename_i hpc
      obtain ⟨rfl, rfl⟩ := Prod.mk.inj (Option.some.inj h)
      exact .checked shutdown hpc
    · cases h
  | examined tags =>
    simp only [step] at h
    split at h
    · rename_i hpc
      obtain ⟨rfl, rfl⟩ := Prod.mk.inj (Option.some.inj h)
      exact .examined tags hpc
    · cases h
  | attemptFailed permanent =>
    simp only [step] at h
    split at h
    · rename_i hpc
      cases permanent with
      | true =>
        obtain ⟨rfl, rfl⟩ := Prod.mk.inj (Option.some.inj h)
        exact .crashed hpc
      | false =>
        obtain ⟨rfl, rfl⟩ := Prod.mk.inj (Option.some.inj h)
        exact .failed hpc
    · cases h
  | session label =>
    simp only [step] at h
    split at h
    · rename_i idle hpc
      obtain ⟨⟨next, fs⟩, hi, hn⟩ := Option.map_eq_some_iff.mp h
      obtain ⟨rfl, rfl⟩ := Prod.mk.inj hn
      exact .session hpc hi
    · cases h
  | resumed =>
    simp only [step] at h
    split at h
    · rename_i hpc
      obtain ⟨rfl, rfl⟩ := Prod.mk.inj (Option.some.inj h)
      exact .dropped (Or.inl hpc)
    · rename_i idle hpc
      obtain ⟨rfl, rfl⟩ := Prod.mk.inj (Option.some.inj h)
      exact .cut hpc
    · rename_i hpc
      obtain ⟨rfl, rfl⟩ := Prod.mk.inj (Option.some.inj h)
      exact .dropped (Or.inr hpc)
    · cases h
  | slept retry =>
    simp only [step] at h
    split at h
    · rename_i hpc
      obtain ⟨rfl, rfl⟩ := Prod.mk.inj (Option.some.inj h)
      exact .slept retry hpc
    · cases h

/-- Inside IDLE the session is established. -/
def Reached (idle : ImapIdle.State) : Prop :=
  match idle.pc with
  | .idling _ => idle.established = true
  | .sendingDone _ _ => idle.established = true
  | .completion _ _ _ => idle.established = true
  | _ => True

/-- What every step of a session does with the variables its watcher shares with it. -/
structure Steady (s t : ImapIdle.State) (es : List ImapIdle.Event) : Prop where
  reached : Reached t
  established : s.established = true → t.established = true
  notify : t.notifyOnConnect = s.notifyOnConnect
  queued : ImapIdle.Event.queued ∈ es → s.established = true ∨ s.notifyOnConnect = true
  ready : ImapIdle.Event.initialReady ∈ es → t.established = true

section Sessions
variable {s t : ImapIdle.State} {es : List ImapIdle.Event}

theorem steady_finish (result : Except ImapLine.ImapError ImapIdle.RunEnd) :
    Steady s (ImapIdle.finish s result).1 (ImapIdle.finish s result).2 :=
  ⟨trivial, id, rfl, by simp [ImapIdle.finish], by simp [ImapIdle.finish]⟩

theorem steady_issue : Steady s (ImapIdle.issue s) [] :=
  ⟨trivial, id, rfl, by simp, by simp⟩

theorem steady_stay (reached : Reached s) : Steady s s [] :=
  ⟨reached, id, rfl, by simp, by simp⟩

theorem steady_queued (established : s.established = true) (pc : ImapIdle.Pc) :
    Steady s { s with pc := pc } [.queued] := by
  refine ⟨?_, id, rfl, fun _ => Or.inl established, by simp⟩
  cases pc <;> trivial

theorem steady_emitFirst {first : List ImapIdle.Event} {next : ImapIdle.State × List ImapIdle.Event}
    (silent : ∀ x ∈ first, x ≠ .queued ∧ x ≠ .initialReady) (h : Steady s next.1 next.2) :
    Steady s (ImapIdle.emitFirst first next).1 (ImapIdle.emitFirst first next).2 := by
  refine ⟨h.reached, h.established, h.notify, ?_, ?_⟩
  · intro hx
    rcases List.mem_append.mp hx with hx | hx
    · exact absurd rfl (silent _ hx).1
    · exact h.queued hx
  · intro hx
    rcases List.mem_append.mp hx with hx | hx
    · exact absurd rfl (silent _ hx).2
    · exact h.ready hx

theorem steady_continued (tag : Nat) :
    Steady s (ImapIdle.continued s tag).1 (ImapIdle.continued s tag).2 := by
  rw [ImapIdle.continued]
  by_cases established : s.established = true
  · rw [if_pos established]
    exact ⟨established, id, rfl, by simp, by simp⟩
  · rw [if_neg established]
    refine ⟨rfl, fun _ => rfl, rfl, ?_, fun _ => rfl⟩
    intro hx
    rcases List.mem_append.mp hx with hx | hx
    · split at hx
      · rename_i connect
        exact Or.inr connect
      · cases hx
    · split at hx <;> simp at hx

theorem steady_waitIdleContinuation (reached : Reached s) (tag : Nat) (line : ImapLine.Line) :
    Steady s (ImapIdle.waitIdleContinuation s tag line).1
      (ImapIdle.waitIdleContinuation s tag line).2 := by
  rw [ImapIdle.waitIdleContinuation]
  split
  · exact steady_continued tag
  split
  · exact steady_finish _
  · exact steady_stay reached

theorem steady_idleLine (reached : Reached s) (established : s.established = true) (tag : Nat)
    (line : ImapLine.Line) :
    Steady s (ImapIdle.idleLine s tag line).1 (ImapIdle.idleLine s tag line).2 := by
  rw [ImapIdle.idleLine]
  split
  · exact steady_finish _
  · exact steady_issue
  · exact steady_queued established s.pc
  · exact steady_stay reached

theorem steady_waitIdleCompletion (reached : Reached s) (established : s.established = true)
    (tag : Nat) (stopping eventQueued : Bool) (line : ImapLine.Line) :
    Steady s (ImapIdle.waitIdleCompletion s tag stopping eventQueued line).1
      (ImapIdle.waitIdleCompletion s tag stopping eventQueued line).2 := by
  rw [ImapIdle.waitIdleCompletion]
  split
  · exact steady_finish _
  · split
    · exact steady_finish _
    · exact steady_issue
  · split
    · exact steady_stay reached
    · exact steady_queued established _
  · exact steady_stay reached

theorem steady_step {label : ImapIdle.Label} (reached : Reached s)
    (h : ImapIdle.step s label = some (t, es)) : Steady s t es := by
  cases label with
  | wrote result =>
    simp only [ImapIdle.step] at h
    split at h
    · cases h
      exact ⟨trivial, id, rfl, by simp, by simp⟩
    · cases h
      exact steady_finish _
    · rename_i tag stopping hpc
      cases h
      simp only [Reached, hpc] at reached
      exact ⟨reached, id, rfl, by simp, by simp⟩
    · cases h
      exact steady_finish _
    · cases h
  | line line =>
    simp only [ImapIdle.step] at h
    split at h
    · cases h
      exact steady_emitFirst (by simp) (steady_waitIdleContinuation reached _ line)
    · rename_i tag hpc
      cases h
      have established : s.established = true := by simpa only [Reached, hpc] using reached
      exact steady_emitFirst (by simp) (steady_idleLine reached established _ line)
    · rename_i tag stopping eventQueued hpc
      cases h
      have established : s.established = true := by simpa only [Reached, hpc] using reached
      exact steady_emitFirst (by simp)
        (steady_waitIdleCompletion reached established _ stopping eventQueued line)
    · cases h
  | readFailed | timedOut =>
    simp only [ImapIdle.step] at h
    split at h <;> cases h <;> exact steady_finish _
  | refresh =>
    simp only [ImapIdle.step] at h
    split at h
    · rename_i tag hpc
      cases h
      simp only [Reached, hpc] at reached
      exact ⟨reached, id, rfl, by simp, by simp⟩
    · cases h
  | shutdownChanged stop =>
    simp only [ImapIdle.step] at h
    split at h
    · rename_i tag hpc
      cases h
      have established : s.established = true := by simpa only [Reached, hpc] using reached
      cases stop with
      | true => exact ⟨established, id, rfl, by simp, by simp⟩
      | false => exact steady_stay reached
    · cases h

end Sessions

end MailboxWatcher

import Mailwake.Lane

/-!
# The steps of a lane, branch by branch

Where a move says what becomes of the waiters, a turn gives the whole next state: one case for
each branch of the source.
-/
namespace Lane
open Channel CommandReport
universe u
variable {κ : Type u} [DecidableEq κ]

/-- The state after a command has been taken from the pending set. -/
def taken (s : State κ) (name : κ) (pending : PendingRequests κ) : State κ :=
  { s with pending := (pending.takeWaiters name).2 }

inductive Turn (runner : CommandLaneRunner κ) (s : State κ) :
    Label κ → State κ → List (Event κ) → Prop where
  | sent (command : κ) (requests : Mpsc (CommandRequest κ)) : s.pc ≠ .returned →
      s.requests.send runner.capacity ⟨command, s.nextLifecycle⟩ = some requests →
      Turn runner s (.send command)
        { s with requests := requests, nextLifecycle := s.nextLifecycle + 1 } []
  | sendersDropped : Turn runner s .dropSenders
      { s with requests := { s.requests with sendersAlive := false } } []
  | shutdownSet (value : Bool) : Turn runner s (.setShutdown value)
      { s with shutdown := s.shutdown.send value } []
  | shutdownDropped : Turn runner s .dropShutdown { s with shutdown := s.shutdown.dropSender } []
  | advanced (duration : Nat) : Turn runner s (.advance duration)
      { s with now := s.now + duration } []
  | headed : s.pc = .outer → Turn runner s .proceed
      { s with pc := if s.pending.isEmpty then .idle else .dispatch } []
  | emptied (pending : PendingRequests κ) : s.pc = .dispatch →
      s.pending.popNextCommand = (none, pending) →
      Turn runner s .proceed { s with pending := pending, pc := .outer } []
  | rejected (name : κ) (pending : PendingRequests κ) : s.pc = .dispatch →
      s.pending.popNextCommand = (some name, pending) → runner.command name = none →
      Turn runner s .proceed { taken s name pending with pc := .dispatch }
        (finishWaiters (pending.takeWaiters name).1 (.error "unknown command"))
  | picked (name : κ) (pending : PendingRequests κ) (command : LaneCommand κ) :
      s.pc = .dispatch → s.pending.popNextCommand = (some name, pending) →
      runner.command name = some command → coolUntil s command = none →
      Turn runner s .proceed
        { taken s name pending with pc := .starting name (pending.takeWaiters name).1 } []
  | cooled (name : κ) (pending : PendingRequests κ) (command : LaneCommand κ) (runAt : Nat) :
      s.pc = .dispatch → s.pending.popNextCommand = (some name, pending) →
      runner.command name = some command → coolUntil s command = some runAt →
      Turn runner s .proceed
        { taken s name pending with
          phase := .coolingDown
          pc := .cooling name (pending.takeWaiters name).1 runAt } []
  | executed (command : κ) (waiters : List Nat) : s.pc = .starting command waiters →
      Turn runner s .proceed { s with phase := .running, pc := .running command waiters }
        (startWaiters waiters ++ [.executionStarted command])
  | drained (request : CommandRequest κ) (rest : List (CommandRequest κ)) : s.pc = .draining →
      s.requests.items = request :: rest →
      Turn runner s .proceed
        { s with
          requests := { s.requests with items := rest }
          pending := s.pending.push request } [.received request.lifecycle request.command]
  | drainEnded : s.pc = .draining → s.requests.items = [] →
      Turn runner s .proceed { s with pc := .checkShutdown } []
  | stopped : s.pc = .checkShutdown → s.shutdown.value = true →
      Turn runner s .proceed (retire s []).1 (retire s []).2
  | resumed : s.pc = .checkShutdown → s.shutdown.value = false →
      Turn runner s .proceed { s with pc := .dispatch } []
  | shutDown (ok : Bool) (shutdown : Watch Bool) : s.shutdown.changed = some (ok, shutdown) →
      s.pc = .idle → (ok && shutdown.value) = true →
      Turn runner s .shutdownChanged (retire { s with shutdown := shutdown } []).1
        (retire { s with shutdown := shutdown } []).2
  | notified (ok : Bool) (shutdown : Watch Bool) : s.shutdown.changed = some (ok, shutdown) →
      s.pc = .idle → (ok && shutdown.value) = false →
      Turn runner s .shutdownChanged { s with shutdown := shutdown, pc := .dispatch } []
  | coolingShutDown (command : κ) (waiters : List Nat) (runAt : Nat) (ok : Bool)
      (shutdown : Watch Bool) : s.shutdown.changed = some (ok, shutdown) →
      s.pc = .cooling command waiters runAt → (ok && shutdown.value) = true →
      Turn runner s .shutdownChanged
        (retire { s with shutdown := shutdown } (finishWaiters waiters .cancelled)).1
        (retire { s with shutdown := shutdown } (finishWaiters waiters .cancelled)).2
  | coolingNotified (command : κ) (waiters : List Nat) (runAt : Nat) (ok : Bool)
      (shutdown : Watch Bool) : s.shutdown.changed = some (ok, shutdown) →
      s.pc = .cooling command waiters runAt → (ok && shutdown.value) = false →
      Turn runner s .shutdownChanged
        { s with shutdown := shutdown, pc := .starting command waiters } []
  | received (request : CommandRequest κ) (requests : Mpsc (CommandRequest κ)) : s.pc = .idle →
      s.requests.items = request :: requests.items →
      requests.sendersAlive = s.requests.sendersAlive →
      Turn runner s .recv
        { s with requests := requests, pending := s.pending.push request, pc := .dispatch }
        [.received request.lifecycle request.command]
  | closed : s.pc = .idle → s.requests.items = [] →
      Turn runner s .recv (retire s []).1 (retire s []).2
  | joined (request : CommandRequest κ) (waiters : List Nat) (runAt : Nat)
      (requests : Mpsc (CommandRequest κ)) : s.pc = .cooling request.command waiters runAt →
      s.requests.items = request :: requests.items →
      requests.sendersAlive = s.requests.sendersAlive →
      Turn runner s .recv
        { s with
          requests := requests
          pc := .cooling request.command (waiters ++ [request.lifecycle]) runAt }
        [.received request.lifecycle request.command]
  | absorbed (request : CommandRequest κ) (command : κ) (waiters : List Nat) (runAt : Nat)
      (requests : Mpsc (CommandRequest κ)) : s.pc = .cooling command waiters runAt →
      request.command ≠ command → s.requests.items = request :: requests.items →
      requests.sendersAlive = s.requests.sendersAlive →
      Turn runner s .recv { s with requests := requests, pending := s.pending.push request }
        [.received request.lifecycle request.command]
  | coolingClosed (command : κ) (waiters : List Nat) (runAt : Nat) :
      s.pc = .cooling command waiters runAt → s.requests.items = [] →
      Turn runner s .recv (retire s (finishWaiters waiters .cancelled)).1
        (retire s (finishWaiters waiters .cancelled)).2
  | timed (command : κ) (waiters : List Nat) (runAt : Nat) :
      s.pc = .cooling command waiters runAt → runAt ≤ s.now →
      Turn runner s .timer { s with pc := .starting command waiters } []
  | finished (command : κ) (waiters : List Nat) (result : Except String CommandOutcome) :
      s.pc = .running command waiters →
      Turn runner s (.finish result)
        { s with
          lastFinished := Function.update s.lastFinished command (some s.now)
          phase := .idle
          pc := .draining }
        ([.executionEnded command (executorReport result)] ++
          finishWaiters waiters (executorReport result))

variable {runner : CommandLaneRunner κ} {s t : State κ} {label : Label κ} {es : List (Event κ)}

theorem turn_dispatch (hpc : s.pc = .dispatch) (h : dispatch runner s = (t, es)) :
    Turn runner s .proceed t es := by
  unfold dispatch at h
  split at h
  · rename_i pending hpop
    cases h
    exact .emptied pending hpc hpop
  · rename_i name pending hpop
    simp only at h
    split at h
    · rename_i unknown
      cases h
      exact .rejected name pending hpc hpop unknown
    · rename_i command known
      split at h
      · rename_i cool
        cases h
        exact .picked name pending command hpc hpop known cool
      · rename_i runAt cool
        cases h
        exact .cooled name pending command runAt hpc hpop known cool

theorem turn_proceed (h : proceed runner s = some (t, es)) : Turn runner s .proceed t es := by
  unfold proceed at h
  split at h
  · rename_i hpc
    cases h
    exact .headed hpc
  · rename_i hpc
    exact turn_dispatch hpc (Option.some.inj h)
  · rename_i command waiters hpc
    cases h
    exact .executed command waiters hpc
  · rename_i hpc
    split at h
    · rename_i request rest hq
      cases h
      exact .drained request rest hpc hq
    · rename_i hq
      cases h
      exact .drainEnded hpc hq
  · rename_i hpc
    split at h
    · rename_i down
      cases h
      exact .stopped hpc down
    · rename_i up
      cases h
      exact .resumed hpc (by simpa using up)
  · cases h

theorem turn_shutdownChanged (h : shutdownChanged s = some (t, es)) :
    Turn runner s .shutdownChanged t es := by
  unfold shutdownChanged at h
  split at h
  · cases h
  rename_i ok shutdown hc
  split at h
  · rename_i hpc
    split at h
    · rename_i down
      cases h
      exact .shutDown ok shutdown hc hpc down
    · rename_i up
      cases h
      exact .notified ok shutdown hc hpc (by simpa using up)
  · rename_i command waiters runAt hpc
    split at h
    · rename_i down
      cases h
      exact .coolingShutDown command waiters runAt ok shutdown hc hpc down
    · rename_i up
      cases h
      exact .coolingNotified command waiters runAt ok shutdown hc hpc (by simpa using up)
  · cases h

theorem turn_recv (h : recv s = some (t, es)) : Turn runner s .recv t es := by
  unfold recv at h
  split at h
  · rename_i hpc
    split at h
    · cases h
    · rename_i hr
      rcases Mpsc.recv_cases hr with ⟨x, hx, -⟩ | ⟨-, hitems, -⟩
      · cases hx
      · cases h
        exact .closed hpc hitems
    · rename_i request requests hr
      rcases Mpsc.recv_cases hr with ⟨x, hx, hitems, alive⟩ | ⟨hx, -⟩
      · obtain rfl := Option.some.inj hx
        cases h
        exact .received request requests hpc hitems alive
      · cases hx
  · rename_i command waiters runAt hpc
    split at h
    · cases h
    · rename_i hr
      rcases Mpsc.recv_cases hr with ⟨x, hx, -⟩ | ⟨-, hitems, -⟩
      · cases hx
      · cases h
        exact .coolingClosed command waiters runAt hpc hitems
    · rename_i request requests hr
      rcases Mpsc.recv_cases hr with ⟨x, hx, hitems, alive⟩ | ⟨hx, -⟩
      · obtain rfl := Option.some.inj hx
        split at h
        · rename_i same
          cases h
          subst same
          exact .joined request waiters runAt requests hpc hitems alive
        · rename_i other
          cases h
          exact .absorbed request command waiters runAt requests hpc other hitems alive
      · cases hx
  · cases h

theorem turn_of_step (h : step runner s label = some (t, es)) : Turn runner s label t es := by
  cases label with
  | send command =>
    simp only [step, send] at h
    split at h
    · cases h
    · rename_i alive
      obtain ⟨requests, sent, ht⟩ := Option.map_eq_some_iff.mp h
      cases ht
      exact .sent command requests (fun gone => alive (Or.inl gone)) sent
  | dropSenders => cases h; exact .sendersDropped
  | setShutdown value => cases h; exact .shutdownSet value
  | dropShutdown => cases h; exact .shutdownDropped
  | advance duration => cases h; exact .advanced duration
  | proceed => exact turn_proceed h
  | shutdownChanged => exact turn_shutdownChanged h
  | recv => exact turn_recv h
  | timer =>
    simp only [step, timer] at h
    split at h
    · rename_i command waiters runAt hpc
      split at h
      · rename_i due
        cases h
        exact .timed command waiters runAt hpc due
      · cases h
    · cases h
  | finish result =>
    simp only [step, finish] at h
    split at h
    · rename_i command waiters hpc
      cases h
      exact .finished command waiters result hpc
    · cases h

end Lane

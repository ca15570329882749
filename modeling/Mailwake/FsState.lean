import Mathlib.Algebra.Ring.Nat
import Mailwake.Transition
import Mailwake.Channel
import Mailwake.CommandReport

/-!
# The filesystem-state source

`FsStateRunner::run_inner` as a step function over the states between two awaits.
What `state_cmd` prints is a value of an arbitrary type; what a read returns, what
becomes of a submission and when a notification arrives are labels. The trace
records reads, submissions, consumed events and each return to `recv_work`.
-/
namespace FsState
open Channel CommandReport
universe u
variable {V : Type u}

inductive StateReadError where
  | start (source : String)
  | wait (source : String)
  | output (source : String)
  | failed (status : String)
  | timedOut (seconds : Nat)
  | cancelled
  | outputTooLarge (limit : Nat)
  | utf8
  deriving DecidableEq

inductive FsStateEvent where
  | changed
  | overflow
  deriving DecidableEq

inductive Baseline (V : Type u) where
  | known (value : V)
  | unknown
  deriving DecidableEq

structure EventBatch where
  first : Nat
  last : Nat
  deriving DecidableEq

structure DirtyTracker where
  first : Option Nat
  last : Option Nat
  deriving DecidableEq

namespace DirtyTracker

def clean : DirtyTracker := ⟨none, none⟩

def noteNow (now : Nat) (d : DirtyTracker) : DirtyTracker :=
  ⟨some (d.first.getD now), some now⟩

/-- `into_operation_result` and `into_batch` together: a tracker without a first event
is `Idle`, any other one is `DirtyAgain` and becomes the next batch. -/
def intoBatch (d : DirtyTracker) : Option EventBatch :=
  d.first.map fun first => ⟨first, d.last.getD first⟩

@[simp] theorem noteNow_first (now : Nat) (d : DirtyTracker) :
    (d.noteNow now).first ≠ none := by simp [noteNow]

end DirtyTracker

structure FsStateRunner where
  debounce : Nat
  maxDebounce : Nat
  selfSettle : Nat
  /-- Whether the source has a `state_cmd`. -/
  stateReader : Bool
  /-- Whether readiness waits for the start-up baseline. -/
  initialReady : Bool
  /-- Bound of the event queue. -/
  capacity : Nat

/-- What a submission follows: a settled batch, or the start-up signal. -/
inductive Origin where
  | batch
  | startup
  deriving DecidableEq

inductive Purpose where
  | start
  | compare
  | rebaseline
  deriving DecidableEq

/-- Where the runner is. The heads are the checks a loop makes before its `select!`. -/
inductive Pc where
  | boot
  | startRead
  | recvHead
  | recvWait
  | settleHead (batch : EventBatch)
  | settling (batch : EventBatch)
  | comparing (dirty : DirtyTracker)
  | submitting (origin : Origin) (dirty : DirtyTracker)
  | ownRun (origin : Origin) (dirty : DirtyTracker) (running : Bool)
  | ownSettle (origin : Origin) (dirty : DirtyTracker) (deadline : Nat)
  | rebaselining (origin : Origin) (dirty : DirtyTracker)
  | ended
  deriving DecidableEq

structure State (V : Type u) where
  now : Nat
  events : Mpsc FsStateEvent
  shutdown : Watch Bool
  startup : Option (Watch Bool)
  baseline : Option (Baseline V)
  pc : Pc

/-- `runOnStartup` is whether the runner was given the start-up signal. -/
def State.start (runOnStartup : Bool) : State V :=
  ⟨0, .empty, .start false, if runOnStartup then some (.start false) else none, none, .boot⟩

inductive Label (V : Type u) where
  | notify (event : FsStateEvent)
  | closeEvents
  | setShutdown (value : Bool)
  | dropShutdown
  | setStartup (value : Bool)
  | dropStartup
  | advance (duration : Nat)
  | proceed
  | shutdownChanged
  | startupChanged
  | recv
  | timer
  | readDone (result : Except StateReadError V)
  | startDone (accepted : Bool)
  | lifecycle (message : Option CommandLifecycle)

inductive Event (V : Type u) where
  | startupSignal (value : Bool)
  | consumed (suppressed : Bool)
  | settled
  | signalled
  | readStarted (purpose : Purpose)
  | readDone (purpose : Purpose) (result : Except StateReadError V)
  | unchanged (value : V)
  | submitted (origin : Origin)
  | rejected (origin : Origin)
  | completionLost (origin : Origin)
  | finished (origin : Origin) (report : CommandRunReport) (time : Nat)
  | ownSettled (origin : Origin) (time : Nat)
  | initialReady (ok : Bool)
  | awaitingWork

/-- Where an operation goes on, and what that emits. -/
abbrev Next (V : Type u) := Pc × List (Event V)

def emit (event : Event V) (next : Next V) : Next V := (next.1, event :: next.2)

def State.goto (s : State V) (next : Next V) : State V × List (Event V) :=
  ({ s with pc := next.1 }, next.2)

/-- The operation is over: back to `recv_work`, or on to the batch of its dirty tracker. -/
def conclude (dirty : DirtyTracker) : Next V :=
  match dirty.intoBatch with
  | none => (.recvHead, [.awaitingWork])
  | some batch => (.settleHead batch, [])

/-- A clean tracker leads back to `recv_work`, a dirty one to the next batch. -/
theorem conclude_cases (dirty : DirtyTracker) :
    (dirty.first = none ∧ conclude (V := V) dirty = (.recvHead, [.awaitingWork])) ∨
      ∃ batch, dirty.first ≠ none ∧ conclude (V := V) dirty = (.settleHead batch, []) := by
  cases h : dirty.first with
  | none => exact Or.inl ⟨rfl, by simp [conclude, DirtyTracker.intoBatch, h]⟩
  | some first =>
    exact Or.inr ⟨⟨first, dirty.last.getD first⟩, by simp,
      by simp [conclude, DirtyTracker.intoBatch, h]⟩

@[simp] theorem mem_conclude {dirty : DirtyTracker} {x : Event V} :
    x ∈ (conclude dirty).2 ↔ dirty.first = none ∧ x = .awaitingWork := by
  rcases conclude_cases (V := V) dirty with ⟨clean, hc⟩ | ⟨batch, noted, hc⟩
  · simp [hc, clean]
  · simp [hc, noted]

def submit (origin : Origin) : Next V := (.submitting origin .clean, [.submitted origin])

/-- `CheckNow`: the batch is compared, or submitted at once where there is no reader. -/
def checkNow (runner : FsStateRunner) : Next V :=
  if runner.stateReader then (.comparing .clean, [.settled, .readStarted .compare])
  else emit .settled (submit .batch)

/-- A batch that failed notes itself; the start-up trigger keeps its tracker as it is. -/
def runFailed (now : Nat) (origin : Origin) (dirty : DirtyTracker) : Next V :=
  match origin with
  | .batch => conclude (dirty.noteNow now)
  | .startup => conclude dirty

def afterSettle (runner : FsStateRunner) (now : Nat) (origin : Origin) (dirty : DirtyTracker) :
    Next V :=
  if runner.stateReader then
    (.rebaselining origin dirty, [.ownSettled origin now, .readStarted .rebaseline])
  else emit (.ownSettled origin now) (conclude dirty)

def runSucceeded (runner : FsStateRunner) (now : Nat) (origin : Origin) (dirty : DirtyTracker) :
    Next V :=
  if runner.selfSettle = 0 then afterSettle runner now origin dirty
  else (.ownSettle origin dirty (now + runner.selfSettle), [])

def due (runner : FsStateRunner) (batch : EventBatch) : Nat :=
  min (batch.last + runner.debounce) (batch.first + runner.maxDebounce)

/-- No instant of the clock is so many nanoseconds after its zero. -/
def clockEnd : Nat := 2 ^ 63 * 10 ^ 9

/-- With times in nanoseconds, both sums that `due` compares are instants. `Instant + Duration`
panics where one is not. -/
def DueFits (runner : FsStateRunner) (batch : EventBatch) : Prop :=
  batch.last + runner.debounce < clockEnd ∧ batch.first + runner.maxDebounce < clockEnd

instance (runner : FsStateRunner) (batch : EventBatch) : Decidable (DueFits runner batch) :=
  inferInstanceAs (Decidable (_ ∧ _))

def startupTrigger (s : State V) : State V × List (Event V) :=
  { s with startup := none }.goto (emit .signalled (submit .startup))

def proceed (runner : FsStateRunner) (s : State V) : Option (State V × List (Event V)) :=
  match s.pc with
  | .boot =>
    if runner.stateReader then some (s.goto (.startRead, [.readStarted .start]))
    else some (s.goto (.recvHead, [.initialReady true, .awaitingWork]))
  | .recvHead =>
    if s.startup.any (·.value) then some (startupTrigger s)
    else some (s.goto (.recvWait, []))
  | .settleHead batch =>
    if due runner batch ≤ s.now then some (s.goto (checkNow runner))
    else some (s.goto (.settling batch, []))
  | _ => none

/-- Every `select!` of the runner ends it on a notification that carries `true`. -/
def shutdownChanged (s : State V) : Option (State V × List (Event V)) :=
  match s.shutdown.changed with
  | none => none
  | some (ok, shutdown) =>
    let next : Pc := if ok && shutdown.value then .ended else s.pc
    match s.pc with
    | .recvWait =>
      some ({ s with
          shutdown := shutdown
          pc := if ok && shutdown.value then .ended else .recvHead }, [])
    | .settling batch =>
      some ({ s with
          shutdown := shutdown
          pc := if ok && shutdown.value then .ended else .settleHead batch }, [])
    | .comparing _ | .submitting _ _ | .ownRun _ _ _ | .ownSettle _ _ _ | .rebaselining _ _ =>
      some ({ s with shutdown := shutdown, pc := next }, [])
    | _ => none

def startupChanged (s : State V) : Option (State V × List (Event V)) :=
  match s.pc, s.startup with
  | .recvWait, some startup =>
    match startup.changed with
    | none => none
    | some (true, startup) =>
      if startup.value then some (startupTrigger s)
      else some ({ s with startup := some startup, pc := .recvHead }, [])
    | some (false, _) => some ({ s with startup := none, pc := .recvHead }, [])
  | _, _ => none

/-- Where an event finds the runner decides whether it is tracked or suppressed. A closed
channel ends the two waits for work; elsewhere it only switches the branch off. -/
def recv (s : State V) : Option (State V × List (Event V)) :=
  match s.events.recv with
  | none => none
  | some (none, _) =>
    match s.pc with
    | .recvWait => some ({ s with pc := .ended }, [])
    | .settling _ => some ({ s with pc := .ended }, [])
    | _ => none
  | some (some _, events) =>
    match s.pc with
    | .recvWait => some ({ s with events := events, pc := .settleHead ⟨s.now, s.now⟩ },
        [.consumed false])
    | .settling batch => some ({ s with events := events, pc := .settleHead ⟨batch.first, s.now⟩ },
        [.consumed false])
    | .comparing dirty => some ({ s with events := events, pc := .comparing (dirty.noteNow s.now) },
        [.consumed false])
    | .submitting origin dirty =>
      some ({ s with events := events, pc := .submitting origin (dirty.noteNow s.now) },
        [.consumed false])
    | .ownRun origin dirty running =>
      if running then some ({ s with events := events }, [.consumed true])
      else some ({ s with events := events, pc := .ownRun origin (dirty.noteNow s.now) false },
        [.consumed false])
    | .ownSettle _ _ _ => some ({ s with events := events }, [.consumed true])
    | .rebaselining _ _ => some ({ s with events := events }, [.consumed true])
    | _ => none

def timer (runner : FsStateRunner) (s : State V) : Option (State V × List (Event V)) :=
  match s.pc with
  | .settling batch => if due runner batch ≤ s.now then some (s.goto (checkNow runner)) else none
  | .ownSettle origin dirty deadline =>
    if deadline ≤ s.now then some (s.goto (afterSettle runner s.now origin dirty)) else none
  | _ => none

def startDone (s : State V) (accepted : Bool) : Option (State V × List (Event V)) :=
  match s.pc with
  | .submitting origin dirty =>
    if accepted then some (s.goto (.ownRun origin dirty false, []))
    else some (s.goto (emit (.rejected origin) (runFailed s.now origin dirty)))
  | _ => none

def lifecycle (runner : FsStateRunner) (s : State V) (message : Option CommandLifecycle) :
    Option (State V × List (Event V)) :=
  match s.pc with
  | .ownRun origin dirty _ =>
    match message with
    | some .started => some (s.goto (.ownRun origin dirty true, []))
    | some (.finished report) =>
      some (s.goto (emit (.finished origin report s.now)
        (if report.success then runSucceeded runner s.now origin dirty
          else runFailed s.now origin dirty)))
    | none => some (s.goto (emit (.completionLost origin) (runFailed s.now origin dirty)))
  | _ => none

section
variable [DecidableEq V]

/-- The end of `process_dirty_batch`'s comparing read. -/
def compared (baseline : Option (Baseline V)) (dirty : DirtyTracker) (value : V) : Next V :=
  if baseline = some (.known value) then emit (.unchanged value) (conclude dirty)
  else submit .batch

def readDone (runner : FsStateRunner) (s : State V) (result : Except StateReadError V) :
    Option (State V × List (Event V)) :=
  match s.pc with
  | .startRead =>
    match result with
    | .ok value =>
      some ({ s with baseline := some (.known value) }.goto
        (.recvHead, [.readDone .start result, .initialReady true, .awaitingWork]))
    | .error .cancelled => some (s.goto (.ended, [.readDone .start result]))
    | .error _ =>
      if runner.initialReady then
        some (s.goto (.ended, [.readDone .start result, .initialReady false]))
      else
        some ({ s with baseline := some .unknown }.goto
          (.recvHead, [.readDone .start result, .awaitingWork]))
  | .comparing dirty =>
    match result with
    | .ok value =>
      some (s.goto (emit (.readDone .compare result) (compared s.baseline dirty value)))
    | .error .cancelled => some (s.goto (.ended, [.readDone .compare result]))
    | .error _ => some (s.goto (emit (.readDone .compare result) (conclude dirty)))
  | .rebaselining _ dirty =>
    match result with
    | .ok value =>
      some ({ s with baseline := some (.known value) }.goto
        (emit (.readDone .rebaseline result) (conclude dirty)))
    | .error .cancelled => some (s.goto (.ended, [.readDone .rebaseline result]))
    | .error _ => some (s.goto (emit (.readDone .rebaseline result) (conclude dirty)))
  | _ => none

def step (runner : FsStateRunner) (s : State V) : Label V → Option (State V × List (Event V))
  | .notify event =>
    if s.events.sendersAlive then
      some ({ s with events := s.events.trySend runner.capacity event }, [])
    else none
  | .closeEvents => some ({ s with events := { s.events with sendersAlive := false } }, [])
  | .setShutdown value => some ({ s with shutdown := s.shutdown.send value }, [])
  | .dropShutdown => some ({ s with shutdown := s.shutdown.dropSender }, [])
  | .setStartup value =>
    some ({ s with startup := s.startup.map (·.send value) }, [.startupSignal value])
  | .dropStartup => some ({ s with startup := s.startup.map (·.dropSender) }, [])
  | .advance duration => some ({ s with now := s.now + duration }, [])
  | .proceed => proceed runner s
  | .shutdownChanged => shutdownChanged s
  | .startupChanged => startupChanged s
  | .recv => recv s
  | .timer => timer runner s
  | .readDone result => readDone runner s result
  | .startDone accepted => startDone s accepted
  | .lifecycle message => lifecycle runner s message

end

end FsState

import Mathlib.Logic.Function.Basic
import Mailwake.Channel
import Mailwake.RuntimeEntries
import Mailwake.Transition

/-!
# The status task

`run_status_task` beside the lanes, their supervisors and the other tasks that mark the runtime
state. An operation changes the state while it holds the mutex; its bump of the revision is a
step of its own. A status is sent when it is handed to the notifier.
-/
namespace StatusTask
open Transition RuntimeState Channel CommandReport

def sanitizeField (value : String) : String :=
  String.ofList (value.toList.map fun c => if c = '\r' ∨ c = '\n' then ' ' else c)

def unhealthyStatusMessage (s : RuntimeState.State) : String := s.statusMessage ++ "; unhealthy"

/-- Where a lane stands between its marks. -/
inductive LanePc where
  | registered
  | resting
  /-- `mark_command_started` is done and the executor runs. -/
  | executing
  /-- The executor returned an error and `mark_command_error` is done. -/
  | failing
  | ended
  deriving DecidableEq

def LanePc.busy : LanePc → Bool
  | .executing | .failing => true
  | .registered | .resting | .ended => false

/-- What a lane, or its supervisor, marks. -/
inductive LaneMark where
  | idle
  | coolingDown
  | started
  | finished (outcome : CommandOutcome)
  | error
  | stopped
  | crashed
  deriving DecidableEq

def LaneMark.operation (lane : String) : LaneMark → Operation
  | .idle => .markCommandRunner lane .idle
  | .coolingDown => .markCommandRunner lane .coolingDown
  | .started => .markCommandStarted lane
  | .finished outcome => .markCommandFinished lane outcome
  | .error => .markCommandError
  | .stopped => .markCommandRunner lane .stopped
  | .crashed => .markCommandRunner lane .crashed

/-- The order of the marks: `run` and `run_command`, then `stopped` once the lane has returned.
A lane can panic at any point. -/
def LanePc.next : LanePc → LaneMark → Option LanePc
  | .ended, _ => none
  | _, .crashed => some .ended
  | .registered, .idle => some .resting
  | .resting, .coolingDown => some .resting
  | .resting, .started => some .executing
  | .resting, .stopped => some .ended
  | .executing, .finished _ => some .resting
  | .executing, .error => some .failing
  | .failing, .idle => some .resting
  | _, _ => none

/-- The operations of the tasks that are not lanes. -/
def general : Operation → Bool
  | .registerWatcher _ | .markWatcher _ _ | .markWatcherProgress _ | .markEvent
  | .markCommandOutcome _ => true
  | .registerCommandRunner _ | .markCommandRunner _ _ | .markCommandStarted _
  | .markCommandFinished _ _ | .markCommandError => false

inductive Actor where
  /-- The lane, or its supervisor after it. -/
  | lane (name : String)
  | other (task : Nat)
  deriving DecidableEq

/-- Why the task sends a status: for a change, for a tick, or for a failed health check. -/
inductive Purpose where
  | change
  | tick
  | unhealthy
  deriving DecidableEq

inductive TaskPc where
  | absent
  | reading (purpose : Purpose)
  | sending (purpose : Purpose) (status : String)
  | checking
  | selecting
  | ended
  deriving DecidableEq

/-- The task has subscribed and has not left its loop. -/
def TaskPc.live : TaskPc → Bool
  | .absent | .ended => false
  | .reading _ | .sending _ _ | .checking | .selecting => true

structure State where
  runtime : RuntimeState.State
  now : Nat
  lanes : AList (fun _ : String => LanePc)
  /-- The actor has changed the state and not bumped the revision yet. -/
  owes : Actor → Bool
  revision : Watch Nat
  shutdown : Watch Bool
  task : TaskPc

inductive Label where
  | advance (elapsed : Nat)
  | register (lane : String)
  | markLane (lane : String) (mark : LaneMark)
  | mark (task : Nat) (operation : Operation)
  | bump (actor : Actor)
  | shutDown
  | dropShutdown
  | subscribe
  | read
  | send
  | check
  | shutdownChanged
  | tick
  | statusChanged

inductive Event where
  | status (text : String)
  | watchdog
  deriving DecidableEq

namespace State

def start (runtime : RuntimeState.State) : State :=
  ⟨runtime, 0, ∅, fun _ => false, .start 0, .start false, .absent⟩

/-- The part of an operation that holds the mutex. An actor completes one operation before the
next. -/
def perform (s : State) (actor : Actor) (operation : Operation) : Option State :=
  if s.owes actor then none
  else
    let (runtime, bumps) := s.runtime.apply s.now operation
    some { s with runtime := runtime, owes := Function.update s.owes actor bumps }

/-- `notify_status_changed`. -/
def notifyStatusChanged (s : State) (actor : Actor) : State :=
  { s with
    owes := Function.update s.owes actor false
    revision := s.revision.send ((s.revision.value + 1) % 18446744073709551616) }

def text (s : State) : Purpose → String
  | .change | .tick => s.runtime.statusMessage
  | .unhealthy => unhealthyStatusMessage s.runtime

/-- How many lanes are between `mark_command_started` and the mark that completes the run. -/
def busyLanes (s : State) : Nat := s.lanes.entries.countP (·.2.busy)

end State

/-- With a watchdog, the status of a tick is followed by the health check. -/
def Purpose.afterwards (watchdog : Bool) : Purpose → TaskPc
  | .tick => if watchdog then .checking else .selecting
  | .change | .unhealthy => .selecting

def step (watchdog : Bool) (s : State) : Label → Option (State × List Event)
  | .advance elapsed => some ({ s with now := s.now + elapsed }, [])
  | .register lane =>
    if lane ∈ s.lanes then none
    else
      some ({ s with
        runtime := (s.runtime.registerCommandRunner s.now lane).1
        lanes := s.lanes.insert lane .registered }, [])
  | .markLane lane mark => do
    let pc ← s.lanes.lookup lane
    let next ← pc.next mark
    let t ← s.perform (.lane lane) (mark.operation lane)
    some ({ t with lanes := t.lanes.insert lane next }, [])
  | .mark task operation =>
    if general operation then (s.perform (.other task) operation).map fun t => (t, []) else none
  | .bump actor => if s.owes actor then some (s.notifyStatusChanged actor, []) else none
  | .shutDown => some ({ s with shutdown := s.shutdown.send true }, [])
  | .dropShutdown => some ({ s with shutdown := s.shutdown.dropSender }, [])
  | .subscribe =>
    if s.task = .absent then
      some ({ s with
        revision := { s.revision with unseen := false }
        task := .reading .change }, [])
    else none
  | .read =>
    match s.task with
    | .reading purpose => some ({ s with task := .sending purpose (s.text purpose) }, [])
    | _ => none
  | .send =>
    match s.task with
    | .sending purpose status =>
      some ({ s with task := purpose.afterwards watchdog }, [.status (sanitizeField status)])
    | _ => none
  | .check =>
    if s.task = .checking then
      match s.runtime.healthProblem s.now with
      | some _ => some ({ s with task := .reading .unhealthy }, [])
      | none => some ({ s with task := .selecting }, [.watchdog])
    else none
  | .shutdownChanged =>
    if s.task = .selecting then do
      let (changed, shutdown) ← s.shutdown.changed
      let task : TaskPc := if changed && shutdown.value then .ended else .selecting
      some ({ s with shutdown := shutdown, task := task }, [])
    else none
  -- The selection is biased: the two arms after the first wait until it has nothing to report.
  | .tick =>
    if s.task = .selecting ∧ s.shutdown.changed = none then
      some ({ s with task := .reading .tick }, [])
    else none
  | .statusChanged =>
    if s.task = .selecting ∧ s.shutdown.changed = none then do
      let (changed, revision) ← s.revision.changed
      let task : TaskPc := if changed then .reading .change else .ended
      some ({ s with revision := revision, task := task }, [])
    else none

end StatusTask

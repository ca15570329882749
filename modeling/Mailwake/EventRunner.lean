import Mailwake.Transition
import Mailwake.Channel
import Mailwake.CommandReport

/-!
# The runners between an event queue and a command

`DebounceRunner` and `SystemResumeRunner` share their outer loop, `drain_events` and
`run_once`; they differ in what they wait for between an event and the submission.
The shared machine takes that part as a parameter. A wait ends when its deadline is
due, or early on a shutdown notification that does not carry `true`.
-/
namespace EventRunner
open Channel CommandReport
universe u
variable {ω : Type u}

/-- How a wait goes on: drain the queue or not, then another wait or the submission. -/
structure Next (ω : Type u) where
  drain : Bool
  wait : Option ω

/-- The part of the inner loop before `run_once`. -/
structure Loop (ω : Type u) where
  /-- Entered at `now`, with the end of the last run if there was one. -/
  enter : Nat → Option Nat → Next ω
  deadline : ω → Nat
  /-- The wait is over at `now`. -/
  wake : ω → Nat → Option Nat → Next ω
  /-- An event arrives at `now` during the wait, if the wait receives any. -/
  heard : ω → Nat → Option ω

inductive Pc (ω : Type u) where
  | recv
  | waiting (wait : ω)
  | submitting
  | awaiting (lifecycle : Nat)
  | ended
  deriving DecidableEq

structure State (ω : Type u) where
  now : Nat
  events : Mpsc Unit
  shutdown : Watch Bool
  /-- Only `DebounceRunner` looks at it. -/
  lastCommandFinished : Option Nat
  pc : Pc ω

def State.start : State ω := ⟨0, .empty, .start false, none, .recv⟩

inductive Label where
  | emit
  | closeEvents
  | setShutdown (value : Bool)
  | dropShutdown
  | advance (duration : Nat)
  | shutdownChanged
  | recv
  | timer
  | accepted (lifecycle : Nat)
  | rejected
  | completed (report : Option CommandRunReport)
  deriving DecidableEq

inductive Event where
  | emitted
  | consumed (time : Nat)
  | submitted (time : Nat)
  | rejected (time : Nat)
  | completed (report : Option CommandRunReport) (time : Nat)
  | abandoned (time : Nat)
  deriving DecidableEq

def drainEvents (s : State ω) : State ω × List Event :=
  ({ s with events := s.events.drain.2 }, s.events.drain.1.map fun _ => .consumed s.now)

def follow (s : State ω) (next : Next ω) : State ω × List Event :=
  let (s, es) := if next.drain then drainEvents s else (s, [])
  match next.wait with
  | some wait => ({ s with pc := .waiting wait }, es)
  | none => ({ s with pc := .submitting }, es ++ [.submitted s.now])

/-- `run_once` has returned `true`: what is queued by now starts the inner loop again. -/
def runOver (loop : Loop ω) (s : State ω) (event : Event) : State ω × List Event :=
  let s := { s with lastCommandFinished := some s.now }
  match s.events.items with
  | [] => ({ s with pc := .recv }, [event])
  | _ :: _ =>
    let (s, es) := drainEvents s
    let (s, fs) := follow s (loop.enter s.now s.lastCommandFinished)
    (s, event :: es ++ fs)

def recv (loop : Loop ω) (s : State ω) : Option (State ω × List Event) :=
  match s.events.recv with
  | none => none
  | some (none, _) =>
    match s.pc with
    | .recv => some ({ s with pc := .ended }, [])
    | .waiting wait =>
      (loop.heard wait s.now).map fun _ => follow s ⟨false, none⟩
    | _ => none
  | some (some _, events) =>
    match s.pc with
    | .recv =>
      let (t, es) := follow { s with events := events } (loop.enter s.now s.lastCommandFinished)
      some (t, .consumed s.now :: es)
    | .waiting wait =>
      (loop.heard wait s.now).map fun wait =>
        ({ s with events := events, pc := .waiting wait }, [.consumed s.now])
    | _ => none

def timer (loop : Loop ω) (s : State ω) : Option (State ω × List Event) :=
  match s.pc with
  | .waiting wait =>
    if loop.deadline wait ≤ s.now then some (follow s (loop.wake wait s.now s.lastCommandFinished))
    else none
  | _ => none

def shutdownChanged (loop : Loop ω) (s : State ω) : Option (State ω × List Event) :=
  match s.shutdown.changed with
  | none => none
  | some (ok, shutdown) =>
    let s := { s with shutdown := shutdown }
    let stop := ok && shutdown.value
    match s.pc with
    | .recv => some (if stop then { s with pc := .ended } else s, [])
    | .waiting wait =>
      some (if stop then ({ s with pc := .ended }, [])
        else follow s (loop.wake wait s.now s.lastCommandFinished))
    | .submitting =>
      some (if stop then ({ s with pc := .ended }, []) else runOver loop s (.abandoned s.now))
    | .awaiting _ =>
      some (if stop then ({ s with pc := .ended }, []) else runOver loop s (.abandoned s.now))
    | .ended => none

/-- `bound` is the capacity of the event queue. -/
def step (bound : Nat) (loop : Loop ω) (s : State ω) : Label → Option (State ω × List Event)
  | .emit =>
    if s.events.sendersAlive then
      some ({ s with events := s.events.trySend bound () }, [.emitted])
    else none
  | .closeEvents => some ({ s with events := { s.events with sendersAlive := false } }, [])
  | .setShutdown value => some ({ s with shutdown := s.shutdown.send value }, [])
  | .dropShutdown => some ({ s with shutdown := s.shutdown.dropSender }, [])
  | .advance duration => some ({ s with now := s.now + duration }, [])
  | .shutdownChanged => shutdownChanged loop s
  | .recv => recv loop s
  | .timer => timer loop s
  | .accepted lifecycle =>
    match s.pc with
    | .submitting => some ({ s with pc := .awaiting lifecycle }, [])
    | _ => none
  | .rejected =>
    match s.pc with
    | .submitting => some (runOver loop s (.rejected s.now))
    | _ => none
  | .completed report =>
    match s.pc with
    | .awaiting _ => some (runOver loop s (.completed report s.now))
    | _ => none

structure DebounceRunner where
  debounce : Nat
  cooldown : Nat

namespace DebounceRunner

inductive Wait where
  | pausing (deadline : Nat)
  | cooling (deadline : Nat)
  deriving DecidableEq

/-- The deadline of `wait_for_cooldown`, if there is anything to wait for. -/
def waitForCooldown (runner : DebounceRunner) (now : Nat) (lastCommandFinished : Option Nat) :
    Option Nat :=
  match lastCommandFinished with
  | none => none
  | some finished =>
    if runner.cooldown = 0 then none
    else if finished + runner.cooldown ≤ now then none
    else some (finished + runner.cooldown)

/-- After the debounce: `drain_events`, then the rest of the cooldown. -/
def afterDebounce (runner : DebounceRunner) (now : Nat) (lastCommandFinished : Option Nat) :
    Next Wait :=
  ⟨true, (runner.waitForCooldown now lastCommandFinished).map .cooling⟩

def loop (runner : DebounceRunner) : Loop Wait where
  enter now last :=
    if runner.debounce = 0 then runner.afterDebounce now last
    else ⟨false, some (.pausing (now + runner.debounce))⟩
  deadline
    | .pausing deadline => deadline
    | .cooling deadline => deadline
  wake
    | .pausing _, now, last => runner.afterDebounce now last
    | .cooling _, _, _ => ⟨true, none⟩
  heard _ _ := none

end DebounceRunner

structure SystemResumeRunner where
  settle : Nat

namespace SystemResumeRunner

inductive Wait where
  | quiet (settleUntil : Nat)
  deriving DecidableEq

/-- `wait_for_quiet`: every further event starts the settle period again. -/
def loop (runner : SystemResumeRunner) : Loop Wait where
  enter now _ :=
    if runner.settle = 0 then ⟨true, none⟩ else ⟨false, some (.quiet (now + runner.settle))⟩
  deadline
    | .quiet settleUntil => settleUntil
  wake _ _ _ := ⟨false, none⟩
  heard _ now := some (.quiet (now + runner.settle))

end SystemResumeRunner

end EventRunner

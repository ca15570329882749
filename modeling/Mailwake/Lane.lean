import Mathlib.Data.List.AList
import Mathlib.Logic.Function.Basic
import Mailwake.Transition
import Mailwake.Channel
import Mailwake.CommandReport

/-!
# The command lane

`CommandLaneRunner::run` as a step function. A label is a step of the environment
(a request, a shutdown notification, time passing, the executor's result), the
branch a `select!` takes, or `proceed`, the straight-line code up to the next
place where the task can be interleaved with others. A lifecycle channel is
named by a number; each request opens its own.
-/
namespace Lane
open Channel CommandReport
universe u
variable {κ : Type u}

structure LaneCommand (κ : Type u) where
  name : κ
  minInterval : Nat

structure CommandLaneRunner (κ : Type u) where
  commands : List (LaneCommand κ)
  /-- Bound of the request channel. -/
  capacity : Nat

structure CommandRequest (κ : Type u) where
  command : κ
  lifecycle : Nat
  deriving DecidableEq

section
variable [DecidableEq κ]

/-- The command map is collected from a list: of two entries of one name the later stays. -/
def CommandLaneRunner.command (runner : CommandLaneRunner κ) (name : κ) :
    Option (LaneCommand κ) :=
  runner.commands.reverse.find? (fun c => c.name = name)

structure PendingRequests (κ : Type u) where
  order : List κ
  waiters : AList (fun _ : κ => List Nat)

namespace PendingRequests

def empty : PendingRequests κ := ⟨[], ∅⟩

def isEmpty (p : PendingRequests κ) : Bool := p.waiters.entries.isEmpty

def push (p : PendingRequests κ) (request : CommandRequest κ) : PendingRequests κ :=
  match p.waiters.lookup request.command with
  | some waiters =>
    { p with waiters := p.waiters.insert request.command (waiters ++ [request.lifecycle]) }
  | none =>
    { order := p.order ++ [request.command]
      waiters := p.waiters.insert request.command [request.lifecycle] }

/-- Names without waiters are dropped on the way to the first one that has some. -/
def popOrder (waiters : AList (fun _ : κ => List Nat)) : List κ → Option κ × List κ
  | [] => (none, [])
  | command :: rest =>
    if (waiters.lookup command).isSome then (some command, rest) else popOrder waiters rest

def popNextCommand (p : PendingRequests κ) : Option κ × PendingRequests κ :=
  ((popOrder p.waiters p.order).1, { p with order := (popOrder p.waiters p.order).2 })

def takeWaiters (p : PendingRequests κ) (command : κ) : List Nat × PendingRequests κ :=
  ((p.waiters.lookup command).getD [], { p with waiters := p.waiters.erase command })

/-- Everyone who waits, in whatever order the map yields its values. -/
def everyone (p : PendingRequests κ) : List Nat := p.waiters.entries.flatMap (fun e => e.2)

end PendingRequests
end

/-- Phases of the lane as it reports them to the runtime state. -/
inductive CommandRunnerPhase where
  | idle
  | coolingDown
  | running
  deriving DecidableEq

/-- Where the lane task is. -/
inductive Pc (κ : Type u) where
  | outer
  | idle
  | dispatch
  | cooling (command : κ) (waiters : List Nat) (runAt : Nat)
  | starting (command : κ) (waiters : List Nat)
  | running (command : κ) (waiters : List Nat)
  | draining
  | checkShutdown
  | returned
  deriving DecidableEq

structure State (κ : Type u) where
  now : Nat
  requests : Mpsc (CommandRequest κ)
  shutdown : Watch Bool
  pending : PendingRequests κ
  lastFinished : κ → Option Nat
  phase : CommandRunnerPhase
  nextLifecycle : Nat
  pc : Pc κ

/-- The lane as `run_daemon` spawns it. -/
def State.start : State κ :=
  ⟨0, .empty, .start false, ⟨[], ∅⟩, fun _ => none, .idle, 0, .outer⟩

inductive Label (κ : Type u) where
  | send (command : κ)
  | dropSenders
  | setShutdown (value : Bool)
  | dropShutdown
  | advance (duration : Nat)
  | proceed
  | shutdownChanged
  | recv
  | timer
  | finish (result : Except String CommandOutcome)

/-- What can be observed of the lane: messages on the lifecycle channels, their
closing without a further message, and the executions. -/
inductive Event (κ : Type u) where
  | received (lifecycle : Nat) (command : κ)
  | started (lifecycle : Nat)
  | finished (lifecycle : Nat) (report : CommandRunReport)
  | closed (lifecycle : Nat)
  | executionStarted (command : κ)
  | executionEnded (command : κ) (report : CommandRunReport)
  deriving DecidableEq

def startWaiters (waiters : List Nat) : List (Event κ) := waiters.map .started

def finishWaiters (waiters : List Nat) (report : CommandRunReport) : List (Event κ) :=
  waiters.map (fun w => .finished w report)

section
variable [DecidableEq κ]

def cancelPending (p : PendingRequests κ) : List (Event κ) := finishWaiters p.everyone .cancelled

/-- The task returns: `events` were sent, the pending requests are cancelled, and the
request channel goes with everything still queued in it. -/
def retire (s : State κ) (events : List (Event κ)) : State κ × List (Event κ) :=
  ({ s with
      pending := .empty
      requests := { s.requests with items := [] }
      pc := .returned },
    events ++ cancelPending s.pending ++ s.requests.items.map (fun r => .closed r.lifecycle))

/-- The check at the head of `wait_for_min_interval`: the time to wait for, if any. -/
def coolUntil (s : State κ) (command : LaneCommand κ) : Option Nat :=
  match s.lastFinished command.name with
  | none => none
  | some finished =>
    if command.minInterval = 0 then none
    else if finished + command.minInterval ≤ s.now then none
    else some (finished + command.minInterval)

/-- One turn of `while let Some(command_name) = pending.pop_next_command()`. -/
def dispatch (runner : CommandLaneRunner κ) (s : State κ) : State κ × List (Event κ) :=
  match s.pending.popNextCommand with
  | (none, pending) => ({ s with pending := pending, pc := .outer }, [])
  | (some name, pending) =>
    let (waiters, pending) := pending.takeWaiters name
    match runner.command name with
    | none =>
      ({ s with pending := pending, pc := .dispatch },
        finishWaiters waiters (.error "unknown command"))
    | some command =>
      match coolUntil s command with
      | none => ({ s with pending := pending, pc := .starting name waiters }, [])
      | some runAt =>
        ({ s with
            pending := pending
            phase := .coolingDown
            pc := .cooling name waiters runAt }, [])

def proceed (runner : CommandLaneRunner κ) (s : State κ) : Option (State κ × List (Event κ)) :=
  match s.pc with
  | .outer => some ({ s with pc := if s.pending.isEmpty then .idle else .dispatch }, [])
  | .dispatch => some (dispatch runner s)
  | .starting command waiters =>
    some ({ s with phase := .running, pc := .running command waiters },
      startWaiters waiters ++ [.executionStarted command])
  | .draining =>
    match s.requests.items with
    | request :: rest =>
      some ({ s with
          requests := { s.requests with items := rest }
          pending := s.pending.push request },
        [.received request.lifecycle request.command])
    | [] => some ({ s with pc := .checkShutdown }, [])
  | .checkShutdown =>
    if s.shutdown.value then some (retire s []) else some ({ s with pc := .dispatch }, [])
  | _ => none

def shutdownChanged (s : State κ) : Option (State κ × List (Event κ)) :=
  match s.shutdown.changed with
  | none => none
  | some (ok, shutdown) =>
    match s.pc with
    | .idle =>
      if ok && shutdown.value then some (retire { s with shutdown := shutdown } [])
      else some ({ s with shutdown := shutdown, pc := .dispatch }, [])
    | .cooling command waiters _ =>
      if ok && shutdown.value then
        some (retire { s with shutdown := shutdown } (finishWaiters waiters .cancelled))
      else some ({ s with shutdown := shutdown, pc := .starting command waiters }, [])
    | _ => none

def recv (s : State κ) : Option (State κ × List (Event κ)) :=
  match s.pc with
  | .idle =>
    match s.requests.recv with
    | none => none
    | some (none, _) => some (retire s [])
    | some (some request, requests) =>
      some ({ s with requests := requests, pending := s.pending.push request, pc := .dispatch },
        [.received request.lifecycle request.command])
  | .cooling command waiters runAt =>
    match s.requests.recv with
    | none => none
    | some (none, _) => some (retire s (finishWaiters waiters .cancelled))
    | some (some request, requests) =>
      if request.command = command then
        some ({ s with
            requests := requests
            pc := .cooling command (waiters ++ [request.lifecycle]) runAt },
          [.received request.lifecycle request.command])
      else
        some ({ s with requests := requests, pending := s.pending.push request },
          [.received request.lifecycle request.command])
  | _ => none

def timer (s : State κ) : Option (State κ × List (Event κ)) :=
  match s.pc with
  | .cooling command waiters runAt =>
    if runAt ≤ s.now then some ({ s with pc := .starting command waiters }, []) else none
  | _ => none

def finish (s : State κ) (result : Except String CommandOutcome) :
    Option (State κ × List (Event κ)) :=
  match s.pc with
  | .running command waiters =>
    some ({ s with
        lastFinished := Function.update s.lastFinished command (some s.now)
        phase := .idle
        pc := .draining },
      [.executionEnded command (executorReport result)] ++
        finishWaiters waiters (executorReport result))
  | _ => none

/-- A requester's `start`: a fresh lifecycle channel and one message, once there is room
in the queue. The receiver of a returned lane is gone, and nothing is sent. -/
def send (runner : CommandLaneRunner κ) (s : State κ) (command : κ) :
    Option (State κ × List (Event κ)) :=
  if s.pc = .returned ∨ s.requests.sendersAlive = false then none
  else
    (s.requests.send runner.capacity ⟨command, s.nextLifecycle⟩).map fun requests =>
      ({ s with requests := requests, nextLifecycle := s.nextLifecycle + 1 }, [])

def step (runner : CommandLaneRunner κ) (s : State κ) :
    Label κ → Option (State κ × List (Event κ))
  | .send command => send runner s command
  | .dropSenders => some ({ s with requests := { s.requests with sendersAlive := false } }, [])
  | .setShutdown value => some ({ s with shutdown := s.shutdown.send value }, [])
  | .dropShutdown => some ({ s with shutdown := s.shutdown.dropSender }, [])
  | .advance duration => some ({ s with now := s.now + duration }, [])
  | .proceed => proceed runner s
  | .shutdownChanged => shutdownChanged s
  | .recv => recv s
  | .timer => timer s
  | .finish result => finish s result

end

end Lane

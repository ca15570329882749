import Mailwake.ImapLine
import Mailwake.Transition

/-!
# The IDLE cycle of an IMAP session

`idle_forever` from a completed EXAMINE on, line by line. A label is a finished write,
a line (without its line end), a failed read, an expired operation timeout, the refresh
timer or a notification of the shutdown watch. Three loops read lines: the wait for the
continuation, the `select!` inside IDLE, and the wait for the tagged completion.
-/
namespace ImapIdle
open ImapLine Transition

inductive RunEnd where
  | shutdown
  | reconnect
  deriving DecidableEq

/-- A stretch of reading; every line inside IDLE is a phase of its own. -/
inductive Phase where
  | continuation (reissued : Bool)
  | idleLine
  | completion
  deriving DecidableEq

inductive Pc where
  | sendingIdle (tag : Nat)
  | continuation (tag : Nat)
  | idling (tag : Nat)
  | sendingDone (tag : Nat) (stopping : Bool)
  | completion (tag : Nat) (stopping eventQueued : Bool)
  | ended (result : Except ImapError RunEnd)

structure State where
  /-- The counter of `Tags`. -/
  tags : Nat
  established : Bool
  notifyOnConnect : Bool
  /-- Whether the initial-ready sender is still there. -/
  initialReady : Bool
  pc : Pc

inductive Label where
  | wrote (result : Except ImapError Unit)
  | line (line : Line)
  | readFailed (error : ImapError)
  | timedOut
  | refresh
  | shutdownChanged (stop : Bool)

inductive Event where
  | entered (phase : Phase)
  | read (line : Line)
  /-- A call of `queue_mailbox_event`. -/
  | queued
  | initialReady
  | ended (result : Except ImapError RunEnd)

/-- The head of the outer loop: the next tag, then the IDLE command. -/
def issue (s : State) : State :=
  { s with tags := s.tags + 1, pc := .sendingIdle (s.tags + 1) }

/-- After EXAMINE; `tags` were used up by the handshake. -/
def State.start (tags : Nat) (notifyOnConnect initialReady : Bool) : State :=
  issue ⟨tags, false, notifyOnConnect, initialReady, .sendingIdle tags⟩

def finish (s : State) (result : Except ImapError RunEnd) : State × List Event :=
  ({ s with pc := .ended result }, [.ended result])

/-- An error ends the session, except that `finish_idle`'s result is ignored on shutdown. -/
def fail (s : State) (stopping : Bool) (error : ImapError) : State × List Event :=
  finish s (if stopping then .ok .shutdown else .error error)

/-- The first continuation establishes the session. -/
def continued (s : State) (tag : Nat) : State × List Event :=
  if s.established then ({ s with pc := .idling tag }, [])
  else
    ({ s with established := true, initialReady := false, pc := .idling tag },
      (if s.notifyOnConnect then [.queued] else []) ++
        if s.initialReady then [.initialReady] else [])

/-- One turn of the loop of `wait_idle_continuation`. -/
def waitIdleContinuation (s : State) (tag : Nat) (line : Line) : State × List Event :=
  if startsWith line ['+'] then continued s tag
  else if isTaggedCompletion line (formatTag tag) then finish s (.error (.commandRejected "IDLE"))
  else (s, [])

/-- A line inside IDLE. -/
def idleLine (s : State) (tag : Nat) (line : Line) : State × List Event :=
  match classifyIdleResponse line (formatTag tag) with
  | .error error => finish s (.error error)
  | .ok .completed => (issue s, [])
  | .ok .mailboxChange => (s, [.queued])
  | .ok .other => (s, [])

/-- One turn of the loop of `wait_idle_completion`. -/
def waitIdleCompletion (s : State) (tag : Nat) (stopping eventQueued : Bool) (line : Line) :
    State × List Event :=
  match classifyIdleResponse line (formatTag tag) with
  | .error error => fail s stopping error
  | .ok .completed => if stopping then finish s (.ok .shutdown) else (issue s, [])
  | .ok .mailboxChange =>
    if eventQueued then (s, [])
    else ({ s with pc := .completion tag stopping true }, [.queued])
  | .ok .other => (s, [])

def emitFirst (events : List Event) (next : State × List Event) : State × List Event :=
  (next.1, events ++ next.2)

def step (s : State) : Label → Option (State × List Event)
  | .wrote result =>
    match s.pc, result with
    | .sendingIdle tag, .ok () =>
      some ({ s with pc := .continuation tag }, [.entered (.continuation s.established)])
    | .sendingIdle _, .error error => some (fail s false error)
    | .sendingDone tag stopping, .ok () =>
      some ({ s with pc := .completion tag stopping false }, [.entered .completion])
    | .sendingDone _ stopping, .error error => some (fail s stopping error)
    | _, _ => none
  | .line line =>
    match s.pc with
    | .continuation tag => some (emitFirst [.read line] (waitIdleContinuation s tag line))
    | .idling tag => some (emitFirst [.entered .idleLine, .read line] (idleLine s tag line))
    | .completion tag stopping eventQueued =>
      some (emitFirst [.read line] (waitIdleCompletion s tag stopping eventQueued line))
    | _ => none
  | .readFailed error =>
    match s.pc with
    | .continuation _ => some (fail s false error)
    | .idling _ => some (fail s false error)
    | .completion _ stopping _ => some (fail s stopping error)
    | _ => none
  | .timedOut =>
    match s.pc with
    | .sendingIdle _ => some (fail s false (.operationTimedOut "IDLE command"))
    | .continuation _ => some (fail s false (.operationTimedOut "IDLE continuation"))
    | .sendingDone _ stopping => some (fail s stopping (.operationTimedOut "IDLE DONE"))
    | .completion _ stopping _ =>
      some (fail s stopping (.operationTimedOut "IDLE tagged response"))
    | _ => none
  | .refresh =>
    match s.pc with
    | .idling tag => some ({ s with pc := .sendingDone tag false }, [])
    | _ => none
  | .shutdownChanged stop =>
    match s.pc with
    | .idling tag => some (if stop then { s with pc := .sendingDone tag true } else s, [])
    | _ => none

end ImapIdle

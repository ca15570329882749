import Mailwake.DaemonConfig
import Mailwake.GmailApiPoll
import Mailwake.MailboxWatcher

/-!
# How the daemon ends

`run_daemon` from its sequential wait over the initial receivers on, beside the watcher
tasks and their supervisors. A watcher reports through its initial-ready sender, its
supervisor through the fatal channel; `run_daemon` itself keeps a sender of that channel,
so it never closes. The trace records what `run_daemon` returns.
-/
namespace DaemonExit
open Transition
universe u
variable {ι : Type u}

def reauthRequiredExitCode : Nat := 78

structure CodedExitError where
  code : Nat
  message : String
  deriving DecidableEq

def CodedExitError.permanentAuth (message : String) : CodedExitError :=
  ⟨reauthRequiredExitCode, message⟩

inductive Exit where
  | ok
  | coded (error : CodedExitError)
  /-- Any other error; the process exits with the plain failure code. -/
  | failed (text : String)
  deriving DecidableEq

inductive Watcher where
  | mailbox (account folder : String) (watcher : MailboxWatcher.State)
  | gmail (source : String) (labelIds : List String) (watcher : GmailApiPoll.State)
  | fsState
  | systemResume

inductive Source where
  | mailbox (account folder : String)
  | gmail (source : String) (labelIds : List String)
  | fsState
  | systemResume

/-- The watcher of a source as it is spawned, with or without an initial-ready sender. -/
def Source.spawn (initialReady : Bool) : Source → Watcher
  | .mailbox account folder => .mailbox account folder (.start initialReady)
  | .gmail source labelIds => .gmail source labelIds (.start initialReady)
  | .fsState => .fsState
  | .systemResume => .systemResume

/-- What a watcher says through its initial-ready sender. -/
inductive Report where
  | ready
  | authFailed
  deriving DecidableEq

inductive Ending where
  | stopped
  | failed (permanent : Bool)
  deriving DecidableEq

inductive WatcherLabel where
  | mailbox (label : MailboxWatcher.Label)
  | gmail (label : GmailApiPoll.Label)

def mailboxReport : MailboxWatcher.Event → Option Report
  | .session .initialReady => some .ready
  | .initialReadyFailed => some .authFailed
  | _ => none

def gmailReport : GmailApiPoll.Event → Option Report
  | .initialReady => some .ready
  | .initialReadyFailed => some .authFailed
  | _ => none

namespace Watcher

def step : Watcher → WatcherLabel → Option (Watcher × List Report)
  | .mailbox account folder w, .mailbox label =>
    (MailboxWatcher.step w label).map fun next =>
      (.mailbox account folder next.1, next.2.filterMap mailboxReport)
  | .gmail source labelIds w, .gmail label =>
    (GmailApiPoll.step labelIds w label).map fun next =>
      (.gmail source labelIds next.1, next.2.filterMap gmailReport)
  | _, _ => none

/-- What the task returns, once it has ended by itself. -/
def ending : Watcher → Option Ending
  | .mailbox _ _ w =>
    match w.pc with
    | .crashed => some (.failed true)
    | .stopped => some .stopped
    | _ => none
  | .gmail _ _ w =>
    match w.pc with
    | .ended (.ok ()) => some .stopped
    | .ended (.error error) => some (.failed error.isPermanentAuthFailure)
    | _ => none
  | .fsState => none
  | .systemResume => none

/-- `INITIAL_AUTH_FAILURE_PREFIX` of the two kinds that have one, and the beginning of the
set-up errors of the other two. -/
def errorPrefix : Watcher → String
  | .mailbox _ _ _ => "IMAP watcher authentication failed"
  | .gmail _ _ _ => "Gmail API poller authentication failed"
  | .fsState => "fs_state source "
  | .systemResume => "system_resume source "

/-- What the supervisor sends on the fatal channel for an error of its task. -/
def fatalError : Watcher → Bool → String → Option CodedExitError
  | .mailbox account folder _, _, text =>
    some (.permanentAuth
      s!"IMAP watcher for account {DaemonConfig.debug account} mailbox {DaemonConfig.debug folder} stopped after an authentication failure: {text}")
  | .gmail source _ _, true, text =>
    some (.permanentAuth
      s!"Gmail API poller for source {DaemonConfig.debug source} stopped after an authentication or permission failure: {text}")
  | _, _, _ => none

end Watcher

/-- The oneshot of a source, seen from its receiver. -/
inductive Ready where
  /-- Readiness is not awaited. -/
  | absent
  | waiting
  | sent (result : Except String Unit)
  | dropped

/-- How a watcher task ended; `crashed` leaves no error for its supervisor to report. -/
inductive Outcome where
  | stopped
  | failed (permanent : Bool) (text : String)
  | crashed
  deriving DecidableEq

structure Task where
  watcher : Watcher
  ready : Ready
  outcome : Option Outcome
  /-- The supervisor has seen the end of the task. -/
  supervised : Bool

def Ready.send (result : Except String Unit) : Ready → Ready
  | .waiting => .sent result
  | ready => ready

/-- The sender goes with its task. -/
def Ready.close : Ready → Ready
  | .waiting => .dropped
  | ready => ready

def Task.report (text : String) (task : Task) : Report → Ready
  | .ready => task.ready.send (.ok ())
  | .authFailed => task.ready.send (.error s!"{task.watcher.errorPrefix}: {text}")

def outcomeOf (text : String) : Ending → Outcome
  | .stopped => .stopped
  | .failed permanent => .failed permanent text

/-- The task after a step of its watcher; `text` is that of the error it may end with. -/
def Task.moved (text : String) (task : Task) (next : Watcher × List Report) : Task :=
  let ready := next.2.foldl (fun ready report => { task with ready := ready }.report text report)
    task.ready
  { task with
    watcher := next.1
    ready := if next.1.ending.isSome then ready.close else ready
    outcome := next.1.ending.map (outcomeOf text) }

def Task.setUp (result : Except String Unit) (task : Task) : Task :=
  let told := result.mapError fun text => task.watcher.errorPrefix ++ text
  { task with ready := task.ready.send told }

def Task.crash (task : Task) : Task :=
  { task with ready := task.ready.close, outcome := some .crashed }

def Task.fatal (task : Task) : List CodedExitError :=
  match task.outcome with
  | some (.failed permanent text) => (task.watcher.fatalError permanent text).toList
  | _ => []

inductive Pc (ι : Type u) where
  /-- The receivers still to be awaited; the first one is awaited now. -/
  | waiting (next : ι) (rest : List ι)
  | running
  /-- `await_task_shutdown`, after the shutdown signal was passed on. -/
  | stopping (exit : Exit)
  | returned (exit : Exit)

structure State (ι : Type u) where
  task : ι → Task
  fatal : List CodedExitError
  pc : Pc ι

/-- The wait for initial set-up, or what follows it. -/
def awaiting : List ι → Pc ι
  | [] => .running
  | next :: rest => .waiting next rest

inductive Label (ι : Type u) where
  | watch (i : ι) (label : WatcherLabel) (text : String)
  /-- A filesystem or resume source reports its set-up. -/
  | setUp (i : ι) (result : Except String Unit)
  /-- The task panics, or ends before its watcher's loop is entered. -/
  | crash (i : ι)
  | supervise (i : ι)
  | ready
  | fatal
  | signal
  | shutdownDone

/-- Whether the watcher is told of a shutdown. -/
def WatcherLabel.hearsShutdown : WatcherLabel → Bool
  | .mailbox (.check shutdown) => shutdown
  | .mailbox (.slept retry) => !retry
  | .mailbox (.session (.shutdownChanged stop)) => stop
  | .gmail (.check shutdown) => shutdown
  | .gmail (.slept goOn) => !goOn
  | _ => false

def State.shutdownSent (s : State ι) : Bool :=
  match s.pc with
  | .waiting _ _ => false
  | .running => false
  | .stopping _ => true
  | .returned _ => true

def startsWith (text start : String) : Bool := start.toList.isPrefixOf text.toList

/-- An error of the initial wait is known by its text. -/
def setupExit (error : String) : Exit :=
  if startsWith error "IMAP watcher authentication failed" then
    .coded (.permanentAuth s!"initial watcher setup failed: {error}")
  else if startsWith error "Gmail API poller authentication failed" then
    .coded (.permanentAuth s!"initial watcher setup failed: {error}")
  else .failed s!"initial watcher setup failed: {error}"

def State.leave (s : State ι) (exit : Exit) : State ι × List Exit :=
  ({ s with pc := .returned exit }, [exit])

def ready (s : State ι) (i : ι) (rest : List ι) : Option (State ι × List Exit) :=
  match (s.task i).ready with
  | .sent (.ok ()) => some ({ s with pc := awaiting rest }, [])
  | .sent (.error error) => some (s.leave (setupExit error))
  | .dropped => some (s.leave (.failed "watcher stopped before initial setup completed"))
  | .waiting => none
  | .absent => none

section
variable [DecidableEq ι]

def State.put (i : ι) (task : Task) (s : State ι) : State ι :=
  { s with task := fun j => if j = i then task else s.task j }

/-- With `--initial-connect-required` every source is awaited, without it none. -/
def State.start (source : ι → Source) (awaited : List ι) : State ι :=
  ⟨fun i => ⟨(source i).spawn (decide (i ∈ awaited)), if i ∈ awaited then .waiting else .absent,
    none, false⟩, [], awaiting awaited⟩

def watch (s : State ι) (i : ι) (label : WatcherLabel) (text : String) :
    Option (State ι × List Exit) :=
  if (s.task i).outcome.isSome || (label.hearsShutdown && !s.shutdownSent) then none
  else
    ((s.task i).watcher.step label).map fun next => (s.put i ((s.task i).moved text next), [])

def setUp (s : State ι) (i : ι) (result : Except String Unit) : Option (State ι × List Exit) :=
  match (s.task i).watcher with
  | .fsState | .systemResume =>
    some (s.put i ((s.task i).setUp result), [])
  | _ => none

def supervise (s : State ι) (i : ι) : Option (State ι × List Exit) :=
  if (s.task i).outcome.isSome && !(s.task i).supervised then
    some ({ s with fatal := s.fatal ++ (s.task i).fatal }.put i
      { s.task i with supervised := true }, [])
  else none

def step (s : State ι) : Label ι → Option (State ι × List Exit)
  | .watch i label text => watch s i label text
  | .setUp i result => setUp s i result
  | .crash i =>
    if (s.task i).outcome.isSome then none else some (s.put i (s.task i).crash, [])
  | .supervise i => supervise s i
  | .ready =>
    match s.pc with
    | .waiting i rest => ready s i rest
    | _ => none
  | .fatal =>
    match s.pc, s.fatal with
    | .waiting _ _, error :: rest =>
      some ({ s with fatal := rest, pc := .stopping (.coded error) }, [])
    | .running, error :: rest => some ({ s with fatal := rest, pc := .stopping (.coded error) }, [])
    | _, _ => none
  | .signal =>
    match s.pc with
    | .waiting _ _ => some ({ s with pc := .stopping .ok }, [])
    | .running => some ({ s with pc := .stopping .ok }, [])
    | _ => none
  | .shutdownDone =>
    match s.pc with
    | .stopping exit => some (s.leave exit)
    | _ => none

end

end DaemonExit

import Mailwake.Transition
import Mailwake.Channel
import Mailwake.ProcessGroup
import Mathlib.Logic.Function.Basic

/-!
# One shell run

`run_shell_process_with_streams` after a successful spawn: the wait for the shell, the
collection after its exit, `terminate_process_group` and the two `read_pipe` tasks, over
the processes that the shell starts. Times are milliseconds since the spawn. Time passes
only while none of these tasks can go on, and never beyond the next timer.
-/
namespace ShellProcess
open Channel Transition ProcessGroup

def terminateGrace : Nat := 2000

def waitPollInterval : Nat := 10

inductive ShellStreamMode where
  | null
  | capture
  | inherit
  deriving DecidableEq

/-- The streams that may be captured; each is also the handle of its pipe. -/
inductive Stream where
  | stdout
  | stderr
  deriving DecidableEq

structure ExitStatus where
  code : Option Int
  signal : Option Int
  deriving DecidableEq

structure ShellCapturedOutput where
  stdout : List UInt8
  stderr : List UInt8
  stdoutTruncated : Bool
  stderrTruncated : Bool
  deriving DecidableEq

structure PipeLimitExceeded where
  stream : Stream
  limit : Nat
  output : List UInt8
  deriving DecidableEq

inductive PipeReadError where
  | io (source : String)
  | tooLarge (exceeded : PipeLimitExceeded)
  deriving DecidableEq

inductive PipeOutput where
  | data (output : List UInt8)
  | tooLarge (exceeded : PipeLimitExceeded)
  deriving DecidableEq

inductive CollectedOutput where
  | captured (output : ShellCapturedOutput)
  | tooLarge (first : PipeLimitExceeded) (output : ShellCapturedOutput)
  deriving DecidableEq

inductive End where
  | completed (status : ExitStatus)
  | timedOut
  | cancelled
  | outputLimitExceeded (first : PipeLimitExceeded)
  deriving DecidableEq

inductive ShellRun where
  | completed (status : ExitStatus) (output : ShellCapturedOutput)
  | timedOut (output : ShellCapturedOutput)
  | cancelled (output : ShellCapturedOutput)
  | outputLimitExceeded (stream : Stream) (limit : Nat) (output : ShellCapturedOutput)
  deriving DecidableEq

inductive ShellProcessError where
  | wait (source : String)
  | output (source : String)
  deriving DecidableEq

/-- How the call stops being in progress: it returns, or its caller drops it. -/
inductive Outcome where
  | returned (result : Except ShellProcessError ShellRun)
  | dropped

def Outcome.isCompleted : Outcome → Bool
  | .returned (.ok (.completed _ _)) => true
  | _ => false

/-- A `read_pipe` task, if the stream is captured. -/
inductive PipeTask where
  | absent
  | reading (output : List UInt8)
  | finished (result : Except PipeReadError (List UInt8))
  | panicked (source : String)

structure Pipe where
  unread : List UInt8
  task : PipeTask

/-- The points inside `terminate_process_group`. -/
inductive Stage where
  | term
  | grace (limit : Nat)
  | kill
  | reap
  | last
  deriving DecidableEq

inductive Pc where
  | waiting
  | selecting (wakeAt : Nat)
  | terminating (stage : Stage) (reason : End)
  | afterExit (status : ExitStatus)
  | collecting (reason : End)
  | gone (outcome : Outcome)

def Pc.isGone : Pc → Bool
  | .gone _ => true
  | _ => false

structure State where
  now : Nat
  deadline : Nat
  tree : ProcessTree Stream
  /-- Of the shell, once it has exited. -/
  status : Option ExitStatus
  pipes : Stream → Pipe
  /-- `SharedOutputLimit`. -/
  limit : Option Nat
  used : Nat
  limitSent : List PipeLimitExceeded
  /-- Whether `limit_rx` is still there. -/
  limitRx : Bool
  shutdown : Option (Watch Bool)
  pc : Pc

/-- The steps of the call and of its reader tasks. -/
inductive Task where
  | check
  | checkFailed (source : String)
  | timer
  | shutdownChanged
  | limitReceived
  | signal (error : Option String)
  | reaped
  | waitFailed (source : String)
  | collected
  | read (stream : Stream) (count : Nat)
  | eof (stream : Stream)
  | readFailed (stream : Stream) (source : String)
  | readPanicked (stream : Stream) (source : String)

inductive Label where
  | task (task : Task)
  | drop
  | process (move : Move Stream)
  | write (who : Option Nat) (stream : Stream) (bytes : List UInt8)
  | shellExits (status : ExitStatus)
  | setShutdown (value : Bool)
  | dropShutdown
  | advance (duration : Nat)

inductive Event where
  | read (stream : Stream) (bytes : List UInt8)
  | ended (outcome : Outcome)

def captures (stream : Stream) (stdoutMode stderrMode : ShellStreamMode) : Bool :=
  match stream with
  | .stdout => stdoutMode = .capture
  | .stderr => stderrMode = .capture

/-- Right after the spawn. -/
def State.start (stdoutMode stderrMode : ShellStreamMode) (commandTimeout : Nat)
    (outputLimit : Option Nat) (shutdown : Option (Watch Bool)) : State where
  now := 0
  deadline := commandTimeout
  tree := .start ([.stdout, .stderr].filter fun s => captures s stdoutMode stderrMode)
  status := none
  pipes := fun s => ⟨[], if captures s stdoutMode stderrMode then .reading [] else .absent⟩
  limit := outputLimit
  used := 0
  limitSent := []
  limitRx := outputLimit.isSome
  shutdown := shutdown
  pc := .waiting

/-- `none` while the reader task is running. -/
def collectPipe : PipeTask → Option (Except ShellProcessError PipeOutput)
  | .absent => some (.ok (.data []))
  | .reading _ => none
  | .finished (.ok output) => some (.ok (.data output))
  | .finished (.error (.tooLarge exceeded)) => some (.ok (.tooLarge exceeded))
  | .finished (.error (.io source)) => some (.error (.output source))
  | .panicked source => some (.error (.output s!"pipe reader task failed: {source}"))

def PipeOutput.bytes : PipeOutput → List UInt8
  | .data output => output
  | .tooLarge exceeded => exceeded.output

def PipeOutput.truncated : PipeOutput → Bool
  | .data _ => false
  | .tooLarge _ => true

def mergeOutputs (stdout stderr : PipeOutput) : CollectedOutput :=
  let captured := ⟨stdout.bytes, stderr.bytes, stdout.truncated, stderr.truncated⟩
  match stdout, stderr with
  | .tooLarge exceeded, _ => .tooLarge exceeded captured
  | .data _, .tooLarge exceeded => .tooLarge exceeded captured
  | .data _, .data _ => .captured captured

/-- An error of the first stream does not wait for the second. -/
def collectCapturedOutput (stdout stderr : PipeTask) :
    Option (Except ShellProcessError CollectedOutput) :=
  match collectPipe stdout with
  | none => none
  | some (.error error) => some (.error error)
  | some (.ok out) => (collectPipe stderr).map fun result => result.map (mergeOutputs out)

def finishShellRun : End → CollectedOutput → ShellRun
  | .outputLimitExceeded first, .captured captured =>
    .outputLimitExceeded first.stream first.limit captured
  | .outputLimitExceeded first, .tooLarge _ captured =>
    .outputLimitExceeded first.stream first.limit captured
  | .completed _, .tooLarge first captured =>
    .outputLimitExceeded first.stream first.limit captured
  | .timedOut, .tooLarge first captured =>
    .outputLimitExceeded first.stream first.limit captured
  | .cancelled, .tooLarge first captured =>
    .outputLimitExceeded first.stream first.limit captured
  | .completed status, .captured captured => .completed status captured
  | .timedOut, .captured captured => .timedOut captured
  | .cancelled, .captured captured => .cancelled captured

namespace State

def collect (s : State) : Option (Except ShellProcessError CollectedOutput) :=
  collectCapturedOutput (s.pipes .stdout).task (s.pipes .stderr).task

def reads (s : State) (stream : Stream) : Bool :=
  match (s.pipes stream).task with
  | .reading _ => true
  | _ => false

def setPipe (s : State) (stream : Stream) (pipe : Pipe) : State :=
  { s with pipes := Function.update s.pipes stream pipe }

def setTask (s : State) (stream : Stream) (task : PipeTask) : State :=
  s.setPipe stream ⟨(s.pipes stream).unread, task⟩

def terminate (s : State) (reason : End) : State := { s with pc := .terminating .term reason }

/-- A SIGKILL gives a shell that is still running its exit status. -/
def killedStatus (s : State) : Option ExitStatus := s.status.or (some ⟨none, some 9⟩)

def killGroup (s : State) : State := { s with tree := s.tree.kill, status := s.killedStatus }

/-- The call is over and drops its child, which kills the shell if it still runs. -/
def leave (s : State) (outcome : Outcome) : State × List Event :=
  ({ s with tree := s.tree.killLeader, status := s.killedStatus, pc := .gone outcome },
    [.ended outcome])

def fail (s : State) (error : ShellProcessError) : State × List Event :=
  s.leave (.returned (.error error))

end State

/-- One turn of the loop of `wait_for_child`, up to its select. -/
def check (s : State) : State :=
  match s.status with
  | some status => { s with pc := .afterExit status }
  | none =>
    if s.shutdown.any (·.value) then s.terminate .cancelled
    else if s.deadline ≤ s.now then s.terminate .timedOut
    else { s with pc := .selecting (s.now + min waitPollInterval (s.deadline - s.now)) }

def timer (s : State) : Option State :=
  match s.pc with
  | .selecting wakeAt => if wakeAt ≤ s.now then some { s with pc := .waiting } else none
  | .terminating (.grace limit) reason =>
    if limit ≤ s.now then some { s with pc := .terminating .kill reason } else none
  | .afterExit _ => if s.deadline ≤ s.now then some (s.terminate .timedOut) else none
  | _ => none

def shutdownChanged (s : State) : Option State :=
  match s.pc, s.shutdown with
  | .selecting _, some watch =>
    watch.changed.map fun (ok, watch) =>
      let s := { s with shutdown := some watch }
      if ok && watch.value then s.terminate .cancelled else { s with pc := .waiting }
  | .afterExit _, some watch =>
    if watch.value then some (s.terminate .cancelled)
    else
      watch.changed.map fun (ok, watch) =>
        if ok then
          let s := { s with shutdown := some watch }
          if watch.value then s.terminate .cancelled else s
        else { s with shutdown := none }
  | _, _ => none

/-- `recv` of `limit_rx`; the senders are the running reader tasks. -/
def receiveLimit (s : State) : Option (Option PipeLimitExceeded × State) :=
  if s.limitRx then
    match s.limitSent with
    | exceeded :: rest => some (some exceeded, { s with limitSent := rest })
    | [] =>
      if s.reads .stdout || s.reads .stderr then none
      else some (none, { s with limitRx := false })
  else none

def limitReceived (s : State) : Option State :=
  match s.pc with
  | .selecting _ =>
    (receiveLimit s).map fun (exceeded, s) =>
      match exceeded with
      | some exceeded => s.terminate (.outputLimitExceeded exceeded)
      | none => { s with pc := .waiting }
  | .afterExit _ =>
    (receiveLimit s).map fun (exceeded, s) =>
      match exceeded with
      | some exceeded => s.terminate (.outputLimitExceeded exceeded)
      | none => s
  | _ => none

/-- What follows a call of `signal_process_group` that succeeds. -/
def signalled (s : State) : Option State :=
  match s.pc with
  | .terminating .term reason =>
    some { s with pc := .terminating (.grace (s.now + terminateGrace)) reason }
  | .terminating .kill reason => some { s.killGroup with pc := .terminating .reap reason }
  | .terminating .last reason => some { s.killGroup with pc := .collecting reason }
  | _ => none

/-- `signal_process_group`; a group that is gone already is no error. -/
def signal (s : State) (error : Option String) : Option (State × List Event) :=
  (signalled s).map fun next =>
    match error with
    | some source => s.fail (.wait source)
    | none => (next, [])

/-- The end of `child.wait()` inside `terminate_process_group`. -/
def reaped (s : State) : Option State :=
  match s.pc, s.status with
  | .terminating (.grace _) reason, some _ => some { s with pc := .terminating .last reason }
  | .terminating .reap reason, some _ => some { s with pc := .terminating .last reason }
  | _, _ => none

def waitFailed (s : State) (source : String) : Option (State × List Event) :=
  match s.pc with
  | .terminating (.grace _) _ => some (s.fail (.wait source))
  | .terminating .reap _ => some (s.fail (.wait source))
  | _ => none

def collected (s : State) : Option (State × List Event) :=
  match s.pc with
  | .afterExit status =>
    s.collect.map fun result => s.leave (.returned (result.map (finishShellRun (.completed status))))
  | .collecting reason =>
    s.collect.map fun result => s.leave (.returned (result.map (finishShellRun reason)))
  | _ => none

/-- `reserve`: what the shared limit still allows of a read. -/
def reserve (s : State) (requested : Nat) : Nat :=
  match s.limit with
  | none => requested
  | some limit => min (limit - s.used) requested

/-- A read of up to 8192 bytes by a reader task. -/
def readPipe (s : State) (stream : Stream) (count : Nat) : Option (State × List Event) :=
  match s.pipes stream with
  | ⟨unread, .reading output⟩ =>
    if 0 < count ∧ count ≤ 8192 ∧ count ≤ unread.length then
      let bytes := unread.take count
      let allowed := reserve s count
      let output := output ++ bytes.take allowed
      let s := { s with used := s.used + allowed }
      let rest := unread.drop count
      if allowed < count then
        let exceeded := ⟨stream, s.limit.getD 0, output⟩
        some ({ s.setPipe stream ⟨rest, .finished (.error (.tooLarge exceeded))⟩ with
          limitSent := s.limitSent ++ [exceeded] }, [.read stream bytes])
      else some (s.setPipe stream ⟨rest, .reading output⟩, [.read stream bytes])
    else none
  | _ => none

/-- The pipe is at its end when it is empty and no process can write to it any more. -/
def eof (s : State) (stream : Stream) : Option State :=
  match s.pipes stream with
  | ⟨[], .reading output⟩ =>
    if s.tree.held stream then none else some (s.setTask stream (.finished (.ok output)))
  | _ => none

def quiet (next : Option State) : Option (State × List Event) := next.map fun s => (s, [])

def taskStep (s : State) : Task → Option (State × List Event)
  | .check => match s.pc with
    | .waiting => some (check s, [])
    | _ => none
  | .checkFailed source => match s.pc with
    | .waiting => some (s.fail (.wait source))
    | _ => none
  | .timer => quiet (timer s)
  | .shutdownChanged => quiet (shutdownChanged s)
  | .limitReceived => quiet (limitReceived s)
  | .signal error => signal s error
  | .reaped => quiet (reaped s)
  | .waitFailed source => waitFailed s source
  | .collected => collected s
  | .read stream count => readPipe s stream count
  | .eof stream => quiet (eof s stream)
  | .readFailed stream source =>
    if s.reads stream then some (s.setTask stream (.finished (.error (.io source))), []) else none
  | .readPanicked stream source =>
    if s.reads stream then some (s.setTask stream (.panicked source), []) else none

/-- The tasks that run before time passes. A notification of the shutdown watch is among
them, but not the wake-ups of a watch whose sender is gone, which never cease. -/
def prompt (s : State) : List Task :=
  [.check, .timer, .limitReceived, .signal none, .reaped, .collected, .read .stdout 1,
    .read .stderr 1, .eof .stdout, .eof .stderr] ++
    if s.shutdown.any (fun watch => watch.unseen || watch.senderAlive) then [.shutdownChanged] else []

def settled (s : State) : Bool := (prompt s).all fun task => (taskStep s task).isNone

/-- The timer that the call awaits. -/
def timerDue (s : State) : Option Nat :=
  match s.pc with
  | .selecting wakeAt => some wakeAt
  | .terminating (.grace limit) _ => some limit
  | .afterExit _ => some s.deadline
  | _ => none

/-- The points at which the call awaits something, and can be dropped. -/
def awaits : Pc → Bool
  | .selecting _ => true
  | .terminating (.grace _) _ => true
  | .terminating .reap _ => true
  | .afterExit _ => true
  | .collecting _ => true
  | _ => false

def writes (s : State) (who : Option Nat) (stream : Stream) : Bool :=
  s.reads stream && (s.tree.find who).any fun p => p.alive && stream ∈ p.holds

def step (s : State) : Label → Option (State × List Event)
  | .task task => taskStep s task
  | .drop => if awaits s.pc then some (s.leave .dropped) else none
  | .process move => (s.tree.move move).map fun tree => ({ s with tree := tree }, [])
  | .write who stream bytes =>
    if writes s who stream then
      let pipe := s.pipes stream
      some (s.setPipe stream { pipe with unread := pipe.unread ++ bytes }, [])
    else none
  | .shellExits status =>
    match s.status with
    | none => some ({ s with tree := s.tree.killLeader, status := some status }, [])
    | some _ => none
  | .setShutdown value => some ({ s with shutdown := s.shutdown.map (Watch.send value) }, [])
  | .dropShutdown => some ({ s with shutdown := s.shutdown.map Watch.dropSender }, [])
  | .advance duration =>
    if settled s && (timerDue s).all (fun due => s.now + duration ≤ due) then
      some ({ s with now := s.now + duration }, [])
    else none

end ShellProcess

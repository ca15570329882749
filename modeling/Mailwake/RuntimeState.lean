import Mathlib.Data.List.AList
import Mailwake.CommandReport
import Mailwake.DaemonConfig

/-!
# The runtime state of the daemon

`RuntimeState` with its operations. Each returns the state it leaves when it releases the
mutex and whether it goes on to bump the status revision. Times are milliseconds.
-/
namespace RuntimeState
open CommandReport DaemonConfig

inductive WatcherPhase where
  | starting
  | connecting
  | idling
  | reconnecting
  | stopped
  | crashed
  deriving DecidableEq

def WatcherPhase.display : WatcherPhase → String
  | .starting => "starting"
  | .connecting => "connecting"
  | .idling => "idling"
  | .reconnecting => "reconnecting"
  | .stopped => "stopped"
  | .crashed => "crashed"

def WatcherPhase.terminal (phase : WatcherPhase) : Bool := phase = .crashed || phase = .stopped

inductive CommandRunnerPhase where
  | starting
  | idle
  | debouncing
  | coolingDown
  | running
  | stopped
  | crashed
  deriving DecidableEq

def CommandRunnerPhase.display : CommandRunnerPhase → String
  | .starting => "starting"
  | .idle => "idle"
  | .debouncing => "debouncing"
  | .coolingDown => "cooling_down"
  | .running => "running"
  | .stopped => "stopped"
  | .crashed => "crashed"

def CommandRunnerPhase.terminal (phase : CommandRunnerPhase) : Bool :=
  phase = .crashed || phase = .stopped

structure WatcherStatus where
  phase : WatcherPhase
  lastProgress : Nat
  deriving DecidableEq

structure CommandRunnerStatus where
  phase : CommandRunnerPhase
  lastProgress : Nat
  commandStarted : Option Nat
  deriving DecidableEq

structure State where
  totalAccounts : Nat
  totalSources : Nat
  totalCommandLanes : Nat
  watcherStale : Nat
  commandTimeout : Nat
  watchers : AList (fun _ : String => WatcherStatus)
  commandRunners : AList (fun _ : String => CommandRunnerStatus)
  lastEventSeen : Bool
  lastCommandSuccess : Option Bool

def State.new (totalAccounts totalSources totalCommandLanes watcherStale commandTimeout : Nat) :
    State :=
  ⟨totalAccounts, totalSources, totalCommandLanes, watcherStale, commandTimeout, ∅, ∅, false, none⟩

inductive Operation where
  | registerWatcher (id : String)
  | registerCommandRunner (id : String)
  | markWatcher (id : String) (phase : WatcherPhase)
  | markWatcherProgress (id : String)
  | markCommandRunner (id : String) (phase : CommandRunnerPhase)
  | markCommandStarted (id : String)
  | markCommandFinished (id : String) (outcome : CommandOutcome)
  | markEvent
  | markCommandOutcome (outcome : CommandOutcome)
  | markCommandError
  deriving DecidableEq

namespace State
variable (s : State) (now : Nat)

/-- `entry(id).or_insert_with(..)`. -/
def runner (id : String) : CommandRunnerStatus :=
  (s.commandRunners.lookup id).getD ⟨.starting, now, none⟩

def registerWatcher (id : String) : State × Bool :=
  ({ s with watchers := s.watchers.insert id ⟨.starting, now⟩ }, false)

def registerCommandRunner (id : String) : State × Bool :=
  ({ s with commandRunners := s.commandRunners.insert id ⟨.starting, now, none⟩ }, false)

def markWatcher (id : String) (phase : WatcherPhase) : State × Bool :=
  ({ s with watchers := s.watchers.insert id ⟨phase, now⟩ }, false)

def markWatcherProgress (id : String) : State × Bool :=
  match s.watchers.lookup id with
  | none => (s, false)
  | some entry =>
    if entry.phase.terminal then (s, false)
    else ({ s with watchers := s.watchers.insert id { entry with lastProgress := now } }, false)

def markCommandRunner (id : String) (phase : CommandRunnerPhase) : State × Bool :=
  let entry := s.runner now id
  let started := if phase = .running then entry.commandStarted else none
  ({ s with commandRunners := s.commandRunners.insert id ⟨phase, now, started⟩ },
    decide (entry.phase = .running) != decide (phase = .running))

def markCommandStarted (id : String) : State × Bool :=
  ({ s with commandRunners := s.commandRunners.insert id ⟨.running, now, some now⟩ }, true)

def markCommandFinished (id : String) (outcome : CommandOutcome) : State × Bool :=
  ({ s with
      commandRunners := s.commandRunners.insert id ⟨.idle, now, none⟩
      lastCommandSuccess := some outcome.success }, true)

def markEvent : State × Bool := ({ s with lastEventSeen := true }, !s.lastEventSeen)

def markCommandOutcome (outcome : CommandOutcome) : State × Bool :=
  ({ s with lastCommandSuccess := some outcome.success },
    decide (s.lastCommandSuccess ≠ some outcome.success))

def markCommandError : State × Bool :=
  ({ s with lastCommandSuccess := some false }, decide (s.lastCommandSuccess ≠ some false))

def apply : Operation → State × Bool
  | .registerWatcher id => s.registerWatcher now id
  | .registerCommandRunner id => s.registerCommandRunner now id
  | .markWatcher id phase => s.markWatcher now id phase
  | .markWatcherProgress id => s.markWatcherProgress now id
  | .markCommandRunner id phase => s.markCommandRunner now id phase
  | .markCommandStarted id => s.markCommandStarted now id
  | .markCommandFinished id outcome => s.markCommandFinished now id outcome
  | .markEvent => s.markEvent
  | .markCommandOutcome outcome => s.markCommandOutcome outcome
  | .markCommandError => s.markCommandError

def watcherHeartbeatInterval : Nat :=
  min (if s.watcherStale / 2 = 0 then 1 else s.watcherStale / 2) 60000

def runningCommandCount : Nat :=
  s.commandRunners.entries.countP (·.2.phase = .running)

def statusMessage : String :=
  let eventText := if s.lastEventSeen then "last event received" else "no events yet"
  let commandText := match s.lastCommandSuccess with
    | some true => "last command ok"
    | some false => "last command failed"
    | none => "no command runs yet"
  s!"watching {s.totalAccounts} account(s), {s.totalSources} source(s); " ++
    s!"running commands: {s.runningCommandCount}; {eventText}; {commandText}"

end State

inductive HealthProblem where
  | watcherCount (found expected : Nat)
  | watcherPhase (id : String) (phase : WatcherPhase)
  | watcherStale (id : String) (elapsed limit : Nat)
  | commandRunnerCount (found expected : Nat)
  | commandRunnerPhase (id : String) (phase : CommandRunnerPhase)
  | commandRunnerOverrun (id : String) (elapsed limit : Nat)
  deriving DecidableEq

def HealthProblem.display : HealthProblem → String
  | .watcherCount found expected => s!"watcher count is {found}, expected {expected}"
  | .watcherPhase id phase => s!"watcher {debug id} is {phase.display}"
  | .watcherStale id elapsed limit =>
    s!"watcher {debug id} stale for {elapsed / 1000}s, limit {limit / 1000}s"
  | .commandRunnerCount found expected => s!"command runner count is {found}, expected {expected}"
  | .commandRunnerPhase id phase => s!"command runner {debug id} is {phase.display}"
  | .commandRunnerOverrun id elapsed limit =>
    s!"command runner {debug id} running for {elapsed / 1000}s, limit {limit / 1000}s"

namespace State
variable (s : State) (now : Nat)

def watcherProblem (id : String) (watcher : WatcherStatus) : Option HealthProblem :=
  if watcher.phase.terminal then some (.watcherPhase id watcher.phase)
  else if s.watcherStale < now - watcher.lastProgress then
    some (.watcherStale id (now - watcher.lastProgress) s.watcherStale)
  else none

/-- The map may be walked in any order; here it is that of its entries. -/
def watchersHealthProblem : Option HealthProblem :=
  if s.watchers.entries.length ≠ s.totalSources then
    some (.watcherCount s.watchers.entries.length s.totalSources)
  else s.watchers.entries.findSome? fun entry => s.watcherProblem now entry.1 entry.2

def commandRunnerProblem (id : String) (runner : CommandRunnerStatus) : Option HealthProblem :=
  if runner.phase.terminal then some (.commandRunnerPhase id runner.phase)
  else
    match runner.commandStarted with
    | some started =>
      if s.commandTimeout < now - started then
        some (.commandRunnerOverrun id (now - started) s.commandTimeout)
      else none
    | none => none

def commandRunnersHealthProblem : Option HealthProblem :=
  if s.commandRunners.entries.length ≠ s.totalCommandLanes then
    some (.commandRunnerCount s.commandRunners.entries.length s.totalCommandLanes)
  else s.commandRunners.entries.findSome? fun entry => s.commandRunnerProblem now entry.1 entry.2

def healthProblem : Option HealthProblem :=
  (s.watchersHealthProblem now).or (s.commandRunnersHealthProblem now)

/-- What `health_problem` may report. -/
inductive Problem : HealthProblem → Prop where
  | watcherCount : s.watchers.entries.length ≠ s.totalSources →
      Problem (.watcherCount s.watchers.entries.length s.totalSources)
  | watcher {id : String} {entry : WatcherStatus} {problem : HealthProblem} :
      s.watchers.lookup id = some entry → s.watcherProblem now id entry = some problem →
      Problem problem
  | commandRunnerCount : s.commandRunners.entries.length ≠ s.totalCommandLanes →
      Problem (.commandRunnerCount s.commandRunners.entries.length s.totalCommandLanes)
  | commandRunner {id : String} {entry : CommandRunnerStatus} {problem : HealthProblem} :
      s.commandRunners.lookup id = some entry → s.commandRunnerProblem now id entry = some problem →
      Problem problem

variable {s now}

theorem problem_of_healthProblem {problem : HealthProblem}
    (h : s.healthProblem now = some problem) : Problem s now problem := by
  rw [healthProblem, Option.or_eq_some_iff] at h
  rcases h with watchers | ⟨-, runners⟩
  · rw [watchersHealthProblem] at watchers
    split at watchers
    · rename_i differs
      obtain rfl := Option.some.inj watchers
      exact .watcherCount differs
    · obtain ⟨entry, mem, found⟩ := List.exists_of_findSome?_eq_some watchers
      exact .watcher (AList.mem_lookup_iff.mpr mem) found
  · rw [commandRunnersHealthProblem] at runners
    split at runners
    · rename_i differs
      obtain rfl := Option.some.inj runners
      exact .commandRunnerCount differs
    · obtain ⟨entry, mem, found⟩ := List.exists_of_findSome?_eq_some runners
      exact .commandRunner (AList.mem_lookup_iff.mpr mem) found

/-- Whatever may be reported, something is. -/
theorem healthProblem_isSome {problem : HealthProblem} (h : Problem s now problem) :
    (s.healthProblem now).isSome = true := by
  rw [healthProblem, Option.isSome_or, Bool.or_eq_true]
  cases h with
  | watcherCount differs =>
    rw [watchersHealthProblem, if_pos differs]
    exact Or.inl rfl
  | watcher held found =>
    refine Or.inl ?_
    rw [watchersHealthProblem]
    split
    · rfl
    · exact List.findSome?_isSome_iff.mpr
        ⟨_, AList.mem_lookup_iff.mp held, Option.isSome_of_eq_some found⟩
  | commandRunnerCount differs =>
    rw [commandRunnersHealthProblem, if_pos differs]
    exact Or.inr rfl
  | commandRunner held found =>
    refine Or.inr ?_
    rw [commandRunnersHealthProblem]
    split
    · rfl
    · exact List.findSome?_isSome_iff.mpr
        ⟨_, AList.mem_lookup_iff.mp held, Option.isSome_of_eq_some found⟩

/-- The problems of an entry are its phase and its age. -/
theorem watcherProblem_cases {id : String} {entry : WatcherStatus} {problem : HealthProblem}
    (h : s.watcherProblem now id entry = some problem) :
    entry.phase.terminal = true ∧ problem = .watcherPhase id entry.phase ∨
      s.watcherStale < now - entry.lastProgress ∧
        problem = .watcherStale id (now - entry.lastProgress) s.watcherStale := by
  rw [watcherProblem] at h
  split at h
  · rename_i terminal
    exact Or.inl ⟨terminal, (Option.some.inj h).symm⟩
  · split at h
    · rename_i stale
      exact Or.inr ⟨stale, (Option.some.inj h).symm⟩
    · cases h

theorem commandRunnerProblem_cases {id : String} {entry : CommandRunnerStatus}
    {problem : HealthProblem} (h : s.commandRunnerProblem now id entry = some problem) :
    entry.phase.terminal = true ∧ problem = .commandRunnerPhase id entry.phase ∨
      ∃ started, entry.commandStarted = some started ∧ s.commandTimeout < now - started ∧
        problem = .commandRunnerOverrun id (now - started) s.commandTimeout := by
  rw [commandRunnerProblem] at h
  split at h
  · rename_i terminal
    exact Or.inl ⟨terminal, (Option.some.inj h).symm⟩
  · split at h
    · rename_i started hs
      split at h
      · rename_i late
        exact Or.inr ⟨started, hs, late, (Option.some.inj h).symm⟩
      · cases h
    · cases h

end State

end RuntimeState

import Mailwake.Wiring
import Mailwake.Transition
import Mathlib.Logic.Function.Basic

/-!
# Crashed tasks and the watchdog

The tasks that share a runtime state, in any order of their operations. A task that panics is
joined by its supervisor, which marks its entry as crashed. The watcher of a source and the
runner behind it share one entry, so each can write over what was marked for the other.
-/
namespace Supervision
open Transition DaemonConfig Daemon RuntimeState

inductive Task where
  | watcher (watcher : RegisteredWatcher)
  /-- The debounce or resume runner of a source. -/
  | runner (id : String)
  | heartbeat (id : String)
  | lane (name : String)
  deriving DecidableEq

/-- The tasks of a source. An `fs_state` watcher runs its runner itself. -/
def tasksOf (watcher : RegisteredWatcher) : List Task :=
  .watcher watcher :: match watcher.task with
    | .imap _ _ => [.runner watcher.id]
    | .gmailApiPoll _ => [.runner watcher.id]
    | .fsState _ => [.heartbeat watcher.id]
    | .systemResume _ => [.runner watcher.id, .heartbeat watcher.id]

def tasks (setup : Setup) : List Task :=
  setup.laneNames.map .lane ++ setup.watchers.flatMap tasksOf

/-- The phases that a watcher task marks. -/
def marks : WatcherTask → WatcherPhase → Bool
  | _, .starting => false
  | .fsState _, .reconnecting => false
  | .systemResume _, .reconnecting => false
  | _, _ => true

/-- The operations of a task itself, without those of its supervisor. -/
def Task.performs : Task → Operation → Bool
  | .watcher w, .markWatcher id phase => id = w.id && marks w.task phase
  | .watcher w, .markWatcherProgress id => id = w.id
  | .watcher _, .markEvent => true
  | .runner _, .markEvent => true
  | .heartbeat id, .markWatcherProgress other => other = id
  | .lane name, .markCommandRunner id phase =>
    id = name && (phase = .idle || phase = .coolingDown)
  | .lane name, .markCommandStarted id => id = name
  | .lane name, .markCommandFinished id _ => id = name
  | .lane _, .markCommandError => true
  | _, _ => false

/-- What the supervisor of a task that panicked, or returned an error, does. -/
def Task.crashMark : Task → Option Operation
  | .watcher w => some (.markWatcher w.id .crashed)
  | .runner id => some (.markWatcher id .crashed)
  | .heartbeat _ => none
  | .lane name => some (.markCommandRunner name .crashed)

/-- What the supervisor of a task that returned does. -/
def Task.stopMark : Task → Option Operation
  | .lane name => some (.markCommandRunner name .stopped)
  | _ => none

inductive Status where
  | absent
  | running
  | returned
  | failed
  /-- Failed, and marked as crashed by its supervisor. -/
  | crashed
  deriving DecidableEq

structure State where
  runtime : RuntimeState.State
  status : Task → Status

def State.start (setup : Setup) : State :=
  ⟨setup.state, fun task => if task ∈ tasks setup then .running else .absent⟩

inductive Label where
  | operate (now : Nat) (task : Task) (operation : Operation)
  | finish (task : Task)
  | fail (task : Task)
  | supervise (now : Nat) (task : Task)
  /-- A tick of the status task. -/
  | tick (now : Nat)

inductive Event where
  | crashMarked (task : Task)
  | watchdog
  | unhealthy
  deriving DecidableEq

def State.mark (s : State) (now : Nat) (task : Task) (status : Status) (operation : Operation) :
    State :=
  ⟨(s.runtime.apply now operation).1, Function.update s.status task status⟩

def step (s : State) : Label → Option (State × List Event)
  | .operate now task operation =>
    if s.status task = .running ∧ task.performs operation = true then
      some (⟨(s.runtime.apply now operation).1, s.status⟩, [])
    else none
  | .finish task =>
    if s.status task = .running then
      some ({ s with status := Function.update s.status task .returned }, [])
    else none
  | .fail task =>
    if s.status task = .running then
      some ({ s with status := Function.update s.status task .failed }, [])
    else none
  | .supervise now task =>
    match s.status task with
    | .failed => task.crashMark.map fun mark => (s.mark now task .crashed mark, [.crashMarked task])
    | .returned => task.stopMark.map fun mark => (s.mark now task .absent mark, [])
    | _ => none
  | .tick now =>
    some (s, [match s.runtime.healthProblem now with
      | none => .watchdog
      | some _ => .unhealthy])

/-- A watcher whose runner has crashed marks no phase but a terminal one. -/
def Respects (s : State) : Label → Prop
  | .operate _ (.watcher watcher) (.markWatcher _ phase) =>
    s.status (.runner watcher.id) = .crashed → phase.terminal = true
  | _ => True

instance (s : State) : ∀ label, Decidable (Respects s label)
  | .operate _ (.watcher watcher) (.markWatcher _ phase) =>
    inferInstanceAs (Decidable (s.status (.runner watcher.id) = .crashed → phase.terminal = true))
  | .operate _ (.watcher _) (.registerWatcher _) | .operate _ (.watcher _) (.registerCommandRunner _)
  | .operate _ (.watcher _) (.markWatcherProgress _) | .operate _ (.watcher _) (.markCommandRunner _ _)
  | .operate _ (.watcher _) (.markCommandStarted _) | .operate _ (.watcher _) (.markCommandFinished _ _)
  | .operate _ (.watcher _) .markEvent | .operate _ (.watcher _) (.markCommandOutcome _)
  | .operate _ (.watcher _) .markCommandError | .operate _ (.runner _) _
  | .operate _ (.heartbeat _) _ | .operate _ (.lane _) _ | .finish _ | .fail _ | .supervise _ _
  | .tick _ => isTrue trivial

/-- The entry of a watcher is in a terminal phase. -/
def Down (s : RuntimeState.State) (id : String) : Prop :=
  ∃ phase, s.watcherPhase id = some phase ∧ phase.terminal = true

/-- The entries of all tasks marked as crashed are still in a terminal phase. -/
structure Unmasked (setup : Setup) (tr : List Event) (s : State) : Prop where
  listed : ∀ task, s.status task ≠ .absent → task ∈ tasks setup
  history : ∀ task, .crashMarked task ∈ tr → s.status task = .crashed
  watcher : ∀ watcher, s.status (.watcher watcher) = .crashed → Down s.runtime watcher.id
  runner : ∀ id, s.status (.runner id) = .crashed → Down s.runtime id
  heartbeat : ∀ id, s.status (.heartbeat id) ≠ .crashed
  lane : ∀ name, s.status (.lane name) = .crashed → s.runtime.runnerPhase name = some .crashed

variable {setup : Setup} {s t : State} {label : Label} {tr es : List Event}

theorem mem_of_watcher_mem {watcher : RegisteredWatcher} (h : .watcher watcher ∈ tasks setup) :
    watcher ∈ setup.watchers := by
  rcases List.mem_append.mp h with lane | watchers
  · obtain ⟨name, -, other⟩ := List.mem_map.mp lane
    cases other
  · obtain ⟨owner, listed, mem⟩ := List.mem_flatMap.mp watchers
    rcases List.mem_cons.mp mem with same | other
    · obtain rfl := Task.watcher.inj same
      exact listed
    · split at other <;> simp at other

/-- Two watchers of one id are one. -/
theorem watcher_unique (ids : setup.watcherIds.Nodup) {one other : RegisteredWatcher}
    (h : .watcher one ∈ tasks setup) (h' : .watcher other ∈ tasks setup) (same : one.id = other.id) :
    one = other :=
  List.inj_on_of_nodup_map ids (mem_of_watcher_mem h) (mem_of_watcher_mem h') same

theorem down_apply {runtime : RuntimeState.State} {id : String} (down : Down runtime id)
    {operation : Operation} (now : Nat)
    (keeps : ∀ phase, operation.watcherPhase id = some phase → phase.terminal = true) :
    Down (runtime.apply now operation).1 id := by
  obtain ⟨phase, held, terminal⟩ := down
  rw [Down, State.watcherPhase_apply]
  cases written : operation.watcherPhase id with
  | none => exact ⟨phase, held, terminal⟩
  | some other => exact ⟨other, rfl, keeps other written⟩

/-- The operation leaves every entry of a crashed task in a terminal phase. -/
structure Harmless (s : State) (operation : Operation) : Prop where
  watcher : ∀ watcher phase, s.status (.watcher watcher) = .crashed →
    operation.watcherPhase watcher.id = some phase → phase.terminal = true
  runner : ∀ id phase, s.status (.runner id) = .crashed →
    operation.watcherPhase id = some phase → phase.terminal = true
  lane : ∀ name phase, s.status (.lane name) = .crashed →
    operation.runnerPhase name = some phase → phase = .crashed

theorem unmasked_apply (old : Unmasked setup tr s) {operation : Operation}
    (harmless : Harmless s operation) (now : Nat) :
    Unmasked setup tr ⟨(s.runtime.apply now operation).1, s.status⟩ := by
  refine ⟨old.listed, old.history, ?_, ?_, old.heartbeat, ?_⟩
  · intro watcher crashed
    exact down_apply (old.watcher watcher crashed) now fun phase =>
      harmless.watcher watcher phase crashed
  · intro id crashed
    exact down_apply (old.runner id crashed) now fun phase => harmless.runner id phase crashed
  · intro name crashed
    rw [State.runnerPhase_apply]
    cases written : operation.runnerPhase name with
    | none => exact old.lane name crashed
    | some phase => rw [harmless.lane name phase crashed written]; rfl

/-- What a running task does is harmless if it respects a crash of its runner. -/
theorem harmless_operate (ids : setup.watcherIds.Nodup) (old : Unmasked setup tr s) {now : Nat}
    {task : Task} {operation : Operation} (running : s.status task = .running)
    (performs : task.performs operation = true)
    (respects : Respects s (.operate now task operation)) : Harmless s operation := by
  have silent : (∀ id, operation.watcherPhase id = none) →
      (∀ name, operation.runnerPhase name = none) →
      Harmless s operation := fun watchers lanes =>
    ⟨by simp [watchers], by simp [watchers], by simp [lanes]⟩
  cases task with
  | watcher w =>
    cases operation with
    | markWatcher id phase =>
      obtain ⟨rfl, -⟩ : id = w.id ∧ marks w.task phase = true := by
        simpa [Task.performs] using performs
      refine ⟨?_, ?_, nofun⟩
      · intro other written crashed hw
        simp only [Operation.watcherPhase, Option.ite_none_right_eq_some] at hw
        have listed : Task.watcher w ∈ tasks setup := old.listed _ (by simp [running])
        have listed' : Task.watcher other ∈ tasks setup := old.listed _ (by simp [crashed])
        obtain rfl := watcher_unique ids listed listed' hw.1
        rw [running] at crashed
        cases crashed
      · intro id written crashed hw
        simp only [Operation.watcherPhase, Option.ite_none_right_eq_some] at hw
        obtain ⟨rfl, same⟩ := hw
        rw [← Option.some.inj same]
        exact respects crashed
    | markWatcherProgress | markEvent => exact silent (fun _ => rfl) fun _ => rfl
    | registerWatcher | registerCommandRunner | markCommandRunner | markCommandStarted |
      markCommandFinished | markCommandOutcome | markCommandError => cases performs
  | runner id =>
    cases operation with
    | markEvent => exact silent (fun _ => rfl) fun _ => rfl
    | _ => cases performs
  | heartbeat id =>
    cases operation with
    | markWatcherProgress => exact silent (fun _ => rfl) fun _ => rfl
    | _ => cases performs
  | lane name =>
    have own : ∀ other phase, operation.runnerPhase other = some phase → other = name := by
      intro other phase written
      cases operation with
      | markCommandRunner id | markCommandStarted id | markCommandFinished id =>
        simp only [Operation.runnerPhase, Option.ite_none_right_eq_some] at written
        obtain ⟨rfl, -⟩ := written
        simp [Task.performs] at performs
        tauto
      | registerCommandRunner => cases performs
      | _ => cases written
    have watchers : ∀ id, operation.watcherPhase id = none := by
      intro id
      cases operation with
      | registerWatcher | markWatcher => cases performs
      | _ => rfl
    refine ⟨by simp [watchers], by simp [watchers], ?_⟩
    intro other phase crashed written
    obtain rfl := own other phase written
    rw [running] at crashed
    cases crashed

theorem harmless_crashMark {task : Task} {operation : Operation}
    (mark : task.crashMark = some operation) : Harmless s operation := by
  have watchers : ∀ id phase, operation.watcherPhase id = some phase → phase = .crashed := by
    intro id phase written
    cases task with
    | watcher _ | runner _ =>
      obtain rfl := Option.some.inj mark
      simp only [Operation.watcherPhase, Option.ite_none_right_eq_some] at written
      exact (Option.some.inj written.2).symm
    | heartbeat _ => cases mark
    | lane _ =>
      obtain rfl := Option.some.inj mark
      cases written
  have lanes : ∀ name phase, operation.runnerPhase name = some phase → phase = .crashed := by
    intro name phase written
    cases task with
    | watcher _ | runner _ =>
      obtain rfl := Option.some.inj mark
      cases written
    | heartbeat _ => cases mark
    | lane _ =>
      obtain rfl := Option.some.inj mark
      simp only [Operation.runnerPhase, Option.ite_none_right_eq_some] at written
      exact (Option.some.inj written.2).symm
  refine ⟨?_, ?_, fun name phase _ written => lanes name phase written⟩
  · intro watcher phase _ written
    rw [watchers _ phase written]
    rfl
  · intro id phase _ written
    rw [watchers id phase written]
    rfl

theorem harmless_stopMark {task : Task} {operation : Operation} (returned : s.status task = .returned)
    (mark : task.stopMark = some operation) : Harmless s operation := by
  cases task with
  | lane name =>
    obtain rfl := Option.some.inj mark
    refine ⟨fun _ _ _ written => ?_, fun _ _ _ written => ?_, ?_⟩
    · cases written
    · cases written
    intro other phase crashed written
    simp only [Operation.runnerPhase, Option.ite_none_right_eq_some] at written
    obtain ⟨rfl, -⟩ := written
    rw [returned] at crashed
    cases crashed
  | _ => cases mark

/-- A task that has not crashed changes its status. -/
theorem unmasked_status (old : Unmasked setup tr s) {task : Task} {status : Status}
    (before : s.status task ≠ .crashed) (present : s.status task ≠ .absent)
    (after : status ≠ .crashed) :
    Unmasked setup tr ⟨s.runtime, Function.update s.status task status⟩ := by
  have kept : ∀ other, Function.update s.status task status other = .crashed ↔
      s.status other = .crashed := by
    intro other
    by_cases same : other = task
    · subst same
      simp [after, before]
    · rw [Function.update_of_ne same]
  refine ⟨?_, ?_, ?_, ?_, ?_, ?_⟩
  · intro other there
    dsimp only at there
    by_cases same : other = task
    · rw [same]
      exact old.listed task present
    · rw [Function.update_of_ne same] at there
      exact old.listed other there
  · exact fun other mem => (kept other).mpr (old.history other mem)
  · exact fun watcher crashed => old.watcher watcher ((kept _).mp crashed)
  · exact fun id crashed => old.runner id ((kept _).mp crashed)
  · exact fun id crashed => old.heartbeat id ((kept _).mp crashed)
  · exact fun name crashed => old.lane name ((kept _).mp crashed)

/-- The entry of the task is in a terminal phase, and the task is now known to have crashed. -/
theorem unmasked_crashed (old : Unmasked setup tr s) {task : Task}
    (present : s.status task ≠ .absent)
    (watcher : ∀ w, task = .watcher w → Down s.runtime w.id)
    (runner : ∀ id, task = .runner id → Down s.runtime id)
    (heartbeat : ∀ id, task ≠ .heartbeat id)
    (lane : ∀ name, task = .lane name → s.runtime.runnerPhase name = some .crashed) :
    Unmasked setup (tr ++ [.crashMarked task])
      ⟨s.runtime, Function.update s.status task .crashed⟩ := by
  have either : ∀ other, Function.update s.status task .crashed other = .crashed →
      other = task ∨ s.status other = .crashed := by
    intro other crashed
    by_cases same : other = task
    · exact Or.inl same
    · rw [Function.update_of_ne same] at crashed
      exact Or.inr crashed
  refine ⟨?_, ?_, ?_, ?_, ?_, ?_⟩
  · intro other there
    dsimp only at there
    by_cases same : other = task
    · rw [same]
      exact old.listed task present
    · rw [Function.update_of_ne same] at there
      exact old.listed other there
  · intro other mem
    dsimp only
    by_cases same : other = task
    · rw [same, Function.update_self]
    · rw [Function.update_of_ne same]
      rcases List.mem_append.mp mem with past | now
      · exact old.history other past
      · exact absurd (Event.crashMarked.inj (List.mem_singleton.mp now)) same
  · intro w crashed
    rcases either _ crashed with same | past
    · exact watcher w same.symm
    · exact old.watcher w past
  · intro id crashed
    rcases either _ crashed with same | past
    · exact runner id same.symm
    · exact old.runner id past
  · intro id crashed
    rcases either _ crashed with same | past
    · exact heartbeat id same.symm
    · exact old.heartbeat id past
  · intro name crashed
    rcases either _ crashed with same | past
    · exact lane name same.symm
    · exact old.lane name past

theorem unmasked_mark (old : Unmasked setup tr s) {now : Nat} {task : Task} {operation : Operation}
    (failed : s.status task = .failed) (mark : task.crashMark = some operation) :
    Unmasked setup (tr ++ [.crashMarked task]) (s.mark now task .crashed operation) := by
  have applied := unmasked_apply old (harmless_crashMark mark) now
  have down : ∀ id, operation.watcherPhase id = some .crashed →
      Down (s.runtime.apply now operation).1 id := by
    intro id written
    refine ⟨.crashed, ?_, rfl⟩
    rw [State.watcherPhase_apply, written, Option.some_or]
  refine unmasked_crashed applied (by simp [failed]) ?_ ?_ ?_ ?_
  · rintro w rfl
    obtain rfl := Option.some.inj mark
    exact down w.id (by simp [Operation.watcherPhase])
  · rintro id rfl
    obtain rfl := Option.some.inj mark
    exact down id (by simp [Operation.watcherPhase])
  · rintro id rfl
    cases mark
  · rintro name rfl
    obtain rfl := Option.some.inj mark
    rw [State.runnerPhase_apply]
    simp [Operation.runnerPhase]

theorem unmasked_step (ids : setup.watcherIds.Nodup) (old : Unmasked setup tr s)
    (respects : Respects s label) (h : step s label = some (t, es)) : Unmasked setup (tr ++ es) t := by
  cases label with
  | operate now task operation =>
    simp only [step] at h
    split at h
    · rename_i allowed
      obtain ⟨rfl, rfl⟩ := Prod.mk.inj (Option.some.inj h)
      rw [List.append_nil]
      exact unmasked_apply old (harmless_operate ids old allowed.1 allowed.2 respects) now
    · cases h
  | finish task | fail task =>
    simp only [step] at h
    split at h
    · rename_i running
      obtain ⟨rfl, rfl⟩ := Prod.mk.inj (Option.some.inj h)
      rw [List.append_nil]
      exact unmasked_status old (by simp [running]) (by simp [running]) (by simp)
    · cases h
  | supervise now task =>
    simp only [step] at h
    split at h
    · rename_i failed
      obtain ⟨mark, hm, ht⟩ := Option.map_eq_some_iff.mp h
      obtain ⟨rfl, rfl⟩ := Prod.mk.inj ht
      exact unmasked_mark old failed hm
    · rename_i returned
      obtain ⟨mark, hm, ht⟩ := Option.map_eq_some_iff.mp h
      obtain ⟨rfl, rfl⟩ := Prod.mk.inj ht
      rw [List.append_nil]
      exact unmasked_status (unmasked_apply old (harmless_stopMark returned hm) now)
        (by simp [returned]) (by simp [returned]) (by simp)
    · cases h
  | tick now =>
    obtain ⟨rfl, rfl⟩ := Prod.mk.inj (Option.some.inj h)
    refine ⟨old.listed, ?_, old.watcher, old.runner, old.heartbeat, old.lane⟩
    intro task mem
    rcases List.mem_append.mp mem with past | now
    · exact old.history task past
    · split at now <;> simp at now

theorem down_is_reported {s : RuntimeState.State} {id : String} (down : Down s id) (now : Nat) :
    (s.healthProblem now).isSome = true := by
  obtain ⟨phase, held, terminal⟩ := down
  obtain ⟨entry, hentry, rfl⟩ := Option.map_eq_some_iff.mp held
  have found : s.watcherProblem now id entry = some (.watcherPhase id entry.phase) := by
    rw [State.watcherProblem, if_pos terminal]
  exact State.healthProblem_isSome (.watcher hentry found)

theorem crashed_lane_is_reported {s : RuntimeState.State} {name : String}
    (held : s.runnerPhase name = some .crashed) (now : Nat) :
    (s.healthProblem now).isSome = true := by
  obtain ⟨entry, hentry, crashed⟩ := Option.map_eq_some_iff.mp held
  have found : s.commandRunnerProblem now name entry = some (.commandRunnerPhase name entry.phase) := by
    rw [State.commandRunnerProblem, if_pos (by simp [crashed, CommandRunnerPhase.terminal])]
  exact State.healthProblem_isSome (.commandRunner hentry found)

/-- Once some task is marked as crashed, there is a health problem at every instant. -/
theorem Unmasked.reported (unmasked : Unmasked setup tr s) {task : Task}
    (marked : .crashMarked task ∈ tr) (now : Nat) :
    (s.runtime.healthProblem now).isSome = true := by
  have crashed := unmasked.history task marked
  cases task with
  | watcher watcher => exact down_is_reported (unmasked.watcher watcher crashed) now
  | runner id => exact down_is_reported (unmasked.runner id crashed) now
  | heartbeat id => exact absurd crashed (unmasked.heartbeat id)
  | lane name => exact crashed_lane_is_reported (unmasked.lane name crashed) now

/-- No watchdog ping comes after a crash mark. -/
def Withheld (before : List Event) : Event → Prop
  | .watchdog => ∀ task, .crashMarked task ∉ before
  | _ => True

theorem withheld_step (unmasked : Unmasked setup tr s) (h : step s label = some (t, es))
    (old : AtEach Withheld tr) : AtEach Withheld (tr ++ es) := by
  cases label with
  | operate | finish | fail =>
    simp only [step] at h
    split at h
    · obtain ⟨rfl, rfl⟩ := Prod.mk.inj (Option.some.inj h)
      rwa [List.append_nil]
    · cases h
  | supervise now task =>
    simp only [step] at h
    split at h
    · obtain ⟨mark, hm, ht⟩ := Option.map_eq_some_iff.mp h
      obtain ⟨rfl, rfl⟩ := Prod.mk.inj ht
      exact old.append_one trivial
    · obtain ⟨mark, hm, ht⟩ := Option.map_eq_some_iff.mp h
      obtain ⟨rfl, rfl⟩ := Prod.mk.inj ht
      rwa [List.append_nil]
    · cases h
  | tick now =>
    obtain ⟨rfl, rfl⟩ := Prod.mk.inj (Option.some.inj h)
    refine old.append_one ?_
    cases healthy : s.runtime.healthProblem now with
    | some problem => trivial
    | none =>
      intro task marked
      have reported := unmasked.reported marked now
      rw [healthy] at reported
      cases reported

theorem unmasked_start (setup : Setup) : Unmasked setup [] (.start setup) := by
  have running : ∀ task, (State.start setup).status task ≠ .crashed := by
    intro task
    simp only [State.start]
    split <;> simp
  refine ⟨?_, by simp, fun _ crashed => absurd crashed (running _),
    fun _ crashed => absurd crashed (running _), fun _ => running _,
    fun _ crashed => absurd crashed (running _)⟩
  intro task there
  by_contra missing
  simp [State.start, missing] at there

variable {config : Config} {lanes : List LaneCommands} {begun : Nat} {labels : List Label}

/-- The entries of the crashed tasks are terminal. -/
structure Standing (s : State) : Prop where
  watcher : ∀ watcher, s.status (.watcher watcher) = .crashed → Down s.runtime watcher.id
  runner : ∀ id, s.status (.runner id) = .crashed → Down s.runtime id
  lane : ∀ name, s.status (.lane name) = .crashed → s.runtime.runnerPhase name = some .crashed

theorem Unmasked.standing (unmasked : Unmasked setup tr s) : Standing s :=
  ⟨unmasked.watcher, unmasked.runner, unmasked.lane⟩

/-- A step that keeps every entry terminal respects the crashes. -/
theorem respects_of_standing (after : Standing t) (h : step s label = some (t, es)) :
    Respects s label := by
  cases label with
  | operate now task operation =>
    cases task with
    | watcher w =>
      cases operation with
      | markWatcher id phase =>
        intro crashed
        simp only [step] at h
        split at h
        · rename_i allowed
          obtain ⟨rfl, -⟩ := Prod.mk.inj (Option.some.inj h)
          obtain ⟨rfl, -⟩ : id = w.id ∧ marks w.task phase = true := by
            simpa [Task.performs] using allowed.2
          obtain ⟨held, hheld, terminal⟩ := after.runner w.id crashed
          rw [State.watcherPhase_apply] at hheld
          simp only [Operation.watcherPhase, if_true, Option.some_or] at hheld
          rwa [Option.some.inj hheld]
        · cases h
      | _ => trivial
    | _ => trivial
  | _ => trivial

theorem unmasked_run (ids : setup.watcherIds.Nodup)
    (respects : Meets step Respects (.start setup) labels)
    (run : exec step (.start setup) labels = some (t, tr)) :
    Unmasked setup tr t ∧ AtEach Withheld tr := by
  have both : Unmasked setup ([] ++ tr) t ∧ AtEach Withheld ([] ++ tr) :=
    exec_invariant_of_meets (P := fun tr s => Unmasked setup tr s ∧ AtEach Withheld tr)
      (fun _ _ _ _ _ old respect h =>
        ⟨unmasked_step ids old.1 respect h, withheld_step old.1 h old.2⟩)
      ⟨unmasked_start setup, atEach_nil⟩ respects run
  exact both

/-- The crash marks stand as long as no watcher writes over that of its runner, and then every
crash that was marked is reported at every later instant and withholds the watchdog. -/
theorem crashes_stand_iff_respected (valid : config.validate = .ok ())
    (order : lanes.Perm (commandsByLane (runtimeCommandSpecs config)))
    (done : setUp config lanes begun = .ok setup)
    (run : exec step (.start setup) labels = some (t, tr)) :
    (Throughout step (fun _ s => Standing s) (.start setup) labels ↔
        Meets step Respects (.start setup) labels) ∧
      (Meets step Respects (.start setup) labels →
        (∀ task, .crashMarked task ∈ tr → ∀ now, (t.runtime.healthProblem now).isSome = true) ∧
          AtEach Withheld tr) := by
  have accepted := accepted_of_validate valid
  have grouped := (grouped_commandsByLane (runtimeCommandSpecs config)).perm order
  have ids := (wired_of_setUp accepted grouped done).watcherIds.1
  refine ⟨⟨?_, ?_⟩, ?_⟩
  · exact meets_of_throughout (fun _ _ _ _ _ _ after h => respects_of_standing after h) run
  · exact throughout_of_meets (fun _ _ _ _ _ old respect h => unmasked_step ids old respect h)
      (fun _ _ unmasked => unmasked.standing) (unmasked_start setup)
  · intro respects
    obtain ⟨unmasked, withheld⟩ := unmasked_run ids respects run
    exact ⟨fun task marked now => unmasked.reported marked now, withheld⟩

/-- The daemon of one mailbox, with its lanes in the order of the specs. -/
def mailSetUp : Except String Setup :=
  setUp mailConfig (commandsByLane (runtimeCommandSpecs mailConfig)) 0

def inbox : Task :=
  .watcher ⟨"home/INBOX", .imap ⟨"home", "imap.example.org", none, "me", .passwordCmd, none,
    some "pass", none, false, [⟨"INBOX", "sync inbox", none⟩]⟩ "INBOX",
    ⟨"home/INBOX", "home/INBOX", "home/INBOX"⟩⟩

/-- The debounce runner of the mailbox panics, then the watcher refreshes IDLE. -/
def maskingRun : List Label :=
  [.operate 0 inbox (.markWatcher "home/INBOX" .connecting),
    .operate 1 inbox (.markWatcher "home/INBOX" .idling), .fail (.runner "home/INBOX"),
    .supervise 2 (.runner "home/INBOX"), .operate 3 inbox (.markWatcher "home/INBOX" .idling),
    .tick 4]

theorem refresh_masks_crash : mailConfig.validate = .ok () ∧ ∃ setup t,
    mailSetUp = .ok setup ∧
      exec step (.start setup) maskingRun =
        some (t, [.crashMarked (.runner "home/INBOX"), .watchdog]) ∧
      t.runtime.healthProblem 4 = none := by
  refine ⟨by decide +kernel, ?_⟩
  have evaluated : (mailSetUp.toOption.bind fun setup => exec step (.start setup) maskingRun).map
      (fun last => (last.2, last.1.runtime.healthProblem 4)) =
        some ([.crashMarked (.runner "home/INBOX"), .watchdog], none) := by decide +kernel
  obtain ⟨⟨t, tr⟩, hbind, heq⟩ := Option.map_eq_some_iff.mp evaluated
  obtain ⟨setup, hs, hexec⟩ := Option.bind_eq_some_iff.mp hbind
  obtain ⟨rfl, healthy⟩ := Prod.mk.inj heq
  exact ⟨setup, t, Fallible.ok_of_toOption hs, hexec, healthy⟩

/-- A lane panics and its mark stands. -/
theorem lane_crash_stands : ∃ setup t tr, mailSetUp = .ok setup ∧
    exec step (.start setup) [.fail (.lane "mail"), .supervise 5 (.lane "mail"), .tick 6] =
      some (t, tr) ∧
    (Throughout step (fun _ s => Standing s) (.start setup)
        [.fail (.lane "mail"), .supervise 5 (.lane "mail"), .tick 6] ↔
      Meets step Respects (.start setup)
        [.fail (.lane "mail"), .supervise 5 (.lane "mail"), .tick 6]) ∧
    (∀ task, .crashMarked task ∈ tr → ∀ now, (t.runtime.healthProblem now).isSome = true) ∧
      AtEach Withheld tr := by
  have evaluated : (mailSetUp.toOption.bind fun setup => exec step (.start setup)
      [.fail (.lane "mail"), .supervise 5 (.lane "mail"), .tick 6]).isSome = true := by
    decide +kernel
  obtain ⟨⟨t, tr⟩, hbind⟩ := Option.isSome_iff_exists.mp evaluated
  obtain ⟨setup, hs, run⟩ := Option.bind_eq_some_iff.mp hbind
  have done := Fallible.ok_of_toOption hs
  have valid : mailConfig.validate = .ok () := by decide +kernel
  obtain ⟨standing, kept⟩ := crashes_stand_iff_respected valid (List.Perm.refl _) done run
  exact ⟨setup, t, tr, done, run, standing,
    kept ⟨trivial, fun _ _ _ => ⟨trivial, fun _ _ _ => ⟨trivial, fun _ _ _ => trivial⟩⟩⟩⟩

end Supervision

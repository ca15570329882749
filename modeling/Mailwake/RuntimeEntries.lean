import Mathlib.Data.List.Perm.Basic
import Mailwake.RuntimeState

/-!
# The entries of the runtime state

An operation writes the phase of at most one entry. The sizes of the two maps, and the number
of running commands, are counted over the names that have an entry. An operation that leaves the
revision as it is changes nothing that the status message displays.
-/
namespace RuntimeState

/-- The phase that the operation gives a watcher, if it writes one. -/
def Operation.watcherPhase (id : String) : Operation → Option WatcherPhase
  | .registerWatcher other => if other = id then some .starting else none
  | .markWatcher other phase => if other = id then some phase else none
  | _ => none

/-- The phase that the operation gives a command runner, if it writes one. -/
def Operation.runnerPhase (id : String) : Operation → Option CommandRunnerPhase
  | .registerCommandRunner other => if other = id then some .starting else none
  | .markCommandRunner other phase => if other = id then some phase else none
  | .markCommandStarted other => if other = id then some .running else none
  | .markCommandFinished other _ => if other = id then some .idle else none
  | _ => none

namespace State

def watcherPhase (s : State) (id : String) : Option WatcherPhase :=
  (s.watchers.lookup id).map (·.phase)

def runnerPhase (s : State) (id : String) : Option CommandRunnerPhase :=
  (s.commandRunners.lookup id).map (·.phase)

section Maps
variable {β : Type} {m : AList fun _ : String => β} {names : List String}

theorem lookup_insert_phase {γ : Type} (f : β → γ) (m : AList fun _ : String => β)
    (other id : String) (entry : β) : ((m.insert other entry).lookup id).map f =
      (if other = id then some (f entry) else none).or ((m.lookup id).map f) := by
  by_cases same : other = id
  · simp [same]
  · simp [same, AList.lookup_insert_ne (Ne.symm same)]

theorem keys_perm (same : ∀ id, id ∈ m ↔ id ∈ names) (distinct : names.Nodup) :
    m.keys.Perm names :=
  (List.perm_ext_iff_of_nodup m.keys_nodup distinct).mpr same

theorem entries_length (same : ∀ id, id ∈ m ↔ id ∈ names) (distinct : names.Nodup) :
    m.entries.length = names.length := by
  have keys := (keys_perm same distinct).length_eq
  simpa [AList.keys, List.keys] using keys

/-- The names of the entries that satisfy `p`. -/
def namesWith (p : β → Bool) (m : AList fun _ : String => β) : List String :=
  (m.entries.filter fun entry => p entry.2).map (·.1)

theorem namesWith_nodup (p : β → Bool) (m : AList fun _ : String => β) : (namesWith p m).Nodup :=
  m.keys_nodup.sublist (List.filter_sublist.map _)

theorem mem_namesWith {p : β → Bool} {id : String} :
    id ∈ namesWith p m ↔ (m.lookup id).any p = true := by
  simp only [namesWith, List.mem_map, List.mem_filter, Option.any_eq_true]
  constructor
  · rintro ⟨entry, ⟨mem, holds⟩, rfl⟩
    exact ⟨entry.2, AList.mem_lookup_iff.mpr mem, holds⟩
  · rintro ⟨value, held, holds⟩
    exact ⟨⟨id, value⟩, ⟨AList.mem_lookup_iff.mp held, holds⟩, rfl⟩

/-- Entries are counted by name, whatever they hold. -/
theorem countP_entries_congr {γ : Type} {n : AList fun _ : String => γ} {p : β → Bool}
    {q : γ → Bool} (same : ∀ id, (m.lookup id).any p = (n.lookup id).any q) :
    m.entries.countP (fun entry => p entry.2) = n.entries.countP fun entry => q entry.2 := by
  have perm : (namesWith p m).Perm (namesWith q n) := by
    refine (List.perm_ext_iff_of_nodup (namesWith_nodup p m) (namesWith_nodup q n)).mpr ?_
    intro id
    rw [mem_namesWith, mem_namesWith, same id]
  simpa [namesWith, List.countP_eq_length_filter] using perm.length_eq

end Maps

variable {s : State} {now : Nat} {id : String}

theorem watcherPhase_apply (s : State) (now : Nat) (operation : Operation) (id : String) :
    (s.apply now operation).1.watcherPhase id =
      (operation.watcherPhase id).or (s.watcherPhase id) := by
  cases operation with
  | registerWatcher other => exact lookup_insert_phase _ _ _ _ _
  | markWatcher other phase => exact lookup_insert_phase _ _ _ _ _
  | markWatcherProgress other =>
    simp only [apply, markWatcherProgress]
    split
    · rfl
    · rename_i entry held
      split
      · rfl
      · rw [watcherPhase, lookup_insert_phase]
        by_cases same : other = id
        · subst same
          simp [Operation.watcherPhase, watcherPhase, held]
        · simp [Operation.watcherPhase, watcherPhase, same]
  | registerCommandRunner | markCommandRunner | markCommandStarted | markCommandFinished |
    markEvent | markCommandOutcome | markCommandError => rfl

theorem runnerPhase_apply (s : State) (now : Nat) (operation : Operation) (id : String) :
    (s.apply now operation).1.runnerPhase id =
      (operation.runnerPhase id).or (s.runnerPhase id) := by
  cases operation with
  | registerCommandRunner other => exact lookup_insert_phase _ _ _ _ _
  | markCommandRunner other phase => exact lookup_insert_phase _ _ _ _ _
  | markCommandStarted other => exact lookup_insert_phase _ _ _ _ _
  | markCommandFinished other outcome => exact lookup_insert_phase _ _ _ _ _
  | markWatcherProgress other =>
    simp only [apply, markWatcherProgress]
    split
    · rfl
    · split <;> rfl
  | registerWatcher | markWatcher | markEvent | markCommandOutcome | markCommandError => rfl

theorem mem_watchers_iff : id ∈ s.watchers ↔ (s.watcherPhase id).isSome = true := by
  rw [watcherPhase, Option.isSome_map, AList.lookup_isSome]

theorem mem_commandRunners_iff : id ∈ s.commandRunners ↔ (s.runnerPhase id).isSome = true := by
  rw [runnerPhase, Option.isSome_map, AList.lookup_isSome]

theorem any_running (s : State) (id : String) :
    (s.commandRunners.lookup id).any (fun runner => decide (runner.phase = .running)) =
      decide (s.runnerPhase id = some .running) := by
  rw [runnerPhase]
  cases s.commandRunners.lookup id <;> simp

theorem runningCommandCount_congr {s t : State}
    (same : ∀ id, s.runnerPhase id = some .running ↔ t.runnerPhase id = some .running) :
    s.runningCommandCount = t.runningCommandCount := by
  have values : ∀ id, (s.commandRunners.lookup id).any (fun r => decide (r.phase = .running)) =
      (t.commandRunners.lookup id).any fun r => decide (r.phase = .running) := by
    intro id
    rw [any_running, any_running, decide_eq_decide.mpr (same id)]
  exact countP_entries_congr values

theorem statusMessage_congr {s t : State} (accounts : s.totalAccounts = t.totalAccounts)
    (sources : s.totalSources = t.totalSources)
    (count : s.runningCommandCount = t.runningCommandCount)
    (event : s.lastEventSeen = t.lastEventSeen)
    (success : s.lastCommandSuccess = t.lastCommandSuccess) :
    s.statusMessage = t.statusMessage := by
  simp only [statusMessage, accounts, sources, count, event, success]

/-- An operation that does not bump the revision changes nothing that is displayed, unless it
registers a lane whose command is running. -/
theorem statusMessage_apply {operation : Operation} (quiet : (s.apply now operation).2 = false)
    (fresh : ∀ id, operation = .registerCommandRunner id → s.runnerPhase id ≠ some .running) :
    (s.apply now operation).1.statusMessage = s.statusMessage := by
  cases operation with
  | registerWatcher | markWatcher => rfl
  | markWatcherProgress other =>
    simp only [apply, markWatcherProgress]
    split
    · rfl
    · split <;> rfl
  | registerCommandRunner other =>
    refine statusMessage_congr rfl rfl (runningCommandCount_congr fun id => ?_) rfl rfl
    rw [runnerPhase_apply]
    by_cases same : other = id
    · subst same
      simp [Operation.runnerPhase, fresh other rfl]
    · simp [Operation.runnerPhase, same]
  | markCommandRunner other phase =>
    refine statusMessage_congr rfl rfl (runningCommandCount_congr fun id => ?_) rfl rfl
    have unchanged : (s.runner now other).phase = .running ↔ phase = .running := by
      simpa [apply, markCommandRunner] using quiet
    rw [runnerPhase_apply]
    by_cases same : other = id
    · subst same
      have held : (s.runner now other).phase = .running ↔ s.runnerPhase other = some .running := by
        rw [runner, runnerPhase]
        cases s.commandRunners.lookup other <;> simp
      simpa [Operation.runnerPhase] using unchanged.symm.trans held
    · simp [Operation.runnerPhase, same]
  | markCommandStarted | markCommandFinished => cases quiet
  | markEvent =>
    have seen : s.lastEventSeen = true := by simpa [apply, markEvent] using quiet
    exact statusMessage_congr rfl rfl rfl seen.symm rfl
  | markCommandOutcome outcome =>
    have known : s.lastCommandSuccess = some outcome.success := by
      simpa [apply, markCommandOutcome] using quiet
    exact statusMessage_congr rfl rfl rfl rfl known.symm
  | markCommandError =>
    have known : s.lastCommandSuccess = some false := by
      simpa [apply, markCommandError] using quiet
    exact statusMessage_congr rfl rfl rfl rfl known.symm

/-- The totals never change. -/
theorem totals_apply (s : State) (now : Nat) (operation : Operation) :
    (s.apply now operation).1.totalAccounts = s.totalAccounts ∧
      (s.apply now operation).1.totalSources = s.totalSources ∧
      (s.apply now operation).1.totalCommandLanes = s.totalCommandLanes ∧
      (s.apply now operation).1.watcherStale = s.watcherStale ∧
      (s.apply now operation).1.commandTimeout = s.commandTimeout := by
  cases operation with
  | markWatcherProgress other =>
    simp only [apply, markWatcherProgress]
    split
    · simp
    · split <;> simp
  | registerWatcher | registerCommandRunner | markWatcher | markCommandRunner |
    markCommandStarted | markCommandFinished | markEvent | markCommandOutcome |
    markCommandError => exact ⟨rfl, rfl, rfl, rfl, rfl⟩

/-- The state after the operations, each at its instant. -/
def after (s : State) (operations : List (Nat × Operation)) : State :=
  operations.foldl (fun s operation => (s.apply operation.1 operation.2).1) s

theorem mem_watchers_after {s : State} {operations : List (Nat × Operation)} {id : String} :
    id ∈ (s.after operations).watchers ↔ id ∈ s.watchers ∨
      ∃ operation ∈ operations, (operation.2.watcherPhase id).isSome = true := by
  induction operations generalizing s with
  | nil => simp [after]
  | cons operation rest ih =>
    rw [after, List.foldl_cons, ← after, ih, mem_watchers_iff, watcherPhase_apply,
      Option.isSome_or, Bool.or_eq_true, ← mem_watchers_iff, List.exists_mem_cons_iff]
    tauto

theorem mem_commandRunners_after {s : State} {operations : List (Nat × Operation)} {id : String} :
    id ∈ (s.after operations).commandRunners ↔ id ∈ s.commandRunners ∨
      ∃ operation ∈ operations, (operation.2.runnerPhase id).isSome = true := by
  induction operations generalizing s with
  | nil => simp [after]
  | cons operation rest ih =>
    rw [after, List.foldl_cons, ← after, ih, mem_commandRunners_iff, runnerPhase_apply,
      Option.isSome_or, Bool.or_eq_true, ← mem_commandRunners_iff, List.exists_mem_cons_iff]
    tauto

theorem totals_after (s : State) (operations : List (Nat × Operation)) :
    (s.after operations).totalSources = s.totalSources ∧
      (s.after operations).totalCommandLanes = s.totalCommandLanes ∧
      (s.after operations).watcherStale = s.watcherStale := by
  induction operations generalizing s with
  | nil => exact ⟨rfl, rfl, rfl⟩
  | cons operation rest ih =>
    obtain ⟨-, sources, lanes, stale, -⟩ := totals_apply s operation.1 operation.2
    obtain ⟨sources', lanes', stale'⟩ := ih (s.apply operation.1 operation.2).1
    exact ⟨sources'.trans sources, lanes'.trans lanes, stale'.trans stale⟩

/-- The maps hold these names, as many as there should be. -/
structure Holds (s : State) (watchers lanes : List String) : Prop where
  watcher : ∀ id, id ∈ s.watchers ↔ id ∈ watchers
  lane : ∀ id, id ∈ s.commandRunners ↔ id ∈ lanes
  totalSources : s.totalSources = watchers.length
  totalCommandLanes : s.totalCommandLanes = lanes.length

end State

/-- The operation writes no entry of another name. -/
structure Operation.Within (operation : Operation) (watchers lanes : List String) : Prop where
  watcher : ∀ id, (operation.watcherPhase id).isSome = true → id ∈ watchers
  lane : ∀ id, (operation.runnerPhase id).isSome = true → id ∈ lanes

namespace State
variable {s : State} {now : Nat} {watchers lanes : List String}

theorem holds_apply (holds : s.Holds watchers lanes) {operation : Operation}
    (within : operation.Within watchers lanes) (now : Nat) :
    (s.apply now operation).1.Holds watchers lanes := by
  obtain ⟨-, sources, commandLanes, -, -⟩ := totals_apply s now operation
  refine ⟨?_, ?_, sources.trans holds.totalSources, commandLanes.trans holds.totalCommandLanes⟩
  · intro id
    rw [mem_watchers_iff, watcherPhase_apply, Option.isSome_or, Bool.or_eq_true,
      ← mem_watchers_iff, holds.watcher id]
    exact or_iff_right_of_imp (within.watcher id)
  · intro id
    rw [mem_commandRunners_iff, runnerPhase_apply, Option.isSome_or, Bool.or_eq_true,
      ← mem_commandRunners_iff, holds.lane id]
    exact or_iff_right_of_imp (within.lane id)

theorem holds_after (holds : s.Holds watchers lanes) {operations : List (Nat × Operation)}
    (within : ∀ operation ∈ operations, operation.2.Within watchers lanes) :
    (s.after operations).Holds watchers lanes := by
  induction operations generalizing s with
  | nil => exact holds
  | cons operation rest ih =>
    have next := holds_apply holds (within operation List.mem_cons_self) operation.1
    exact ih next fun later mem => within later (List.mem_cons_of_mem _ mem)

theorem watcher_count_passes (holds : s.Holds watchers lanes) (distinct : watchers.Nodup)
    (found expected : Nat) : s.healthProblem now ≠ some (.watcherCount found expected) := by
  intro reported
  have count : s.watchers.entries.length = s.totalSources :=
    (entries_length holds.watcher distinct).trans holds.totalSources.symm
  cases problem_of_healthProblem reported with
  | watcherCount differs => exact differs count
  | watcher _ problem =>
    rcases watcherProblem_cases problem with ⟨-, other⟩ | ⟨-, other⟩ <;> cases other
  | commandRunner _ problem =>
    rcases commandRunnerProblem_cases problem with ⟨-, other⟩ | ⟨_, -, -, other⟩ <;> cases other

theorem lane_count_passes (holds : s.Holds watchers lanes) (distinct : lanes.Nodup)
    (found expected : Nat) : s.healthProblem now ≠ some (.commandRunnerCount found expected) := by
  intro reported
  have count : s.commandRunners.entries.length = s.totalCommandLanes :=
    (entries_length holds.lane distinct).trans holds.totalCommandLanes.symm
  cases problem_of_healthProblem reported with
  | commandRunnerCount differs => exact differs count
  | watcher _ problem =>
    rcases watcherProblem_cases problem with ⟨-, other⟩ | ⟨-, other⟩ <;> cases other
  | commandRunner _ problem =>
    rcases commandRunnerProblem_cases problem with ⟨-, other⟩ | ⟨_, -, -, other⟩ <;> cases other

end State

end RuntimeState

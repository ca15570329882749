import Mailwake.Supervision

/-!
# Commands that run too long

The lanes of a daemon beside its runtime state. A lane marks the beginning and the end of each
execution under its own name; the health check compares how long an execution has been in
progress with one limit for all commands.
-/
namespace Overrun
open Transition DaemonConfig Daemon RuntimeState CommandReport

/-- A lane task that has crashed has dropped its receiver and the execution it was in. -/
inductive Life where
  | spawned
  | entered
  | crashed
  deriving DecidableEq

structure State where
  now : Nat
  runtime : RuntimeState.State
  lane : String → Lane.State String
  life : String → Life
  /-- The execution in progress in each lane, and since when. -/
  progress : String → Option (String × Nat)

inductive Label where
  | advance (duration : Nat)
  /-- One of the tasks of a source, or the supervisor of one. -/
  | operate (watcher : RegisteredWatcher) (operation : Operation)
  | request (watcher : RegisteredWatcher)
  /-- `run` marks the lane as idle before its loop. -/
  | enter (name : String)
  | lane (name : String) (label : Lane.Label String)
  | crash (name : String)
  | supervise (name : String)

/-- The runner of the lane of this name. -/
def runnerOf (setup : Setup) (name : String) : Lane.CommandLaneRunner String :=
  laneRunner (name, ((setup.lanes.find? (·.1 = name)).map (·.2)).getD [])

def State.start (setup : Setup) (now : Nat) : State :=
  ⟨now, setup.state, fun _ => { Lane.State.start with now := now }, fun _ => .spawned, fun _ => none⟩

/-- Requests come from the sources, and time passes for all alike. -/
def ownLabel : Lane.Label String → Bool
  | .send _ => false
  | .advance _ => false
  | _ => true

/-- What `run_command` and `mark_runner` tell the runtime state in a step of the lane. -/
def marks (name : String) (next : Lane.State String) : Lane.Label String → List Operation
  | .proceed =>
    match next.pc with
    | .running _ _ => [.markCommandStarted name]
    | .cooling _ _ _ => [.markCommandRunner name .coolingDown]
    | _ => []
  | .finish result =>
    match executorReport result with
    | .outcome outcome => [.markCommandFinished name outcome]
    | .error _ => [.markCommandError, .markCommandRunner name .idle]
    | .cancelled => [.markCommandRunner name .idle]
  | _ => []

def progressAfter (now : Nat) (progress : Option (String × Nat)) :
    Lane.Event String → Option (String × Nat)
  | .executionStarted command => some (command, now)
  | .executionEnded _ _ => none
  | _ => progress

def State.perform (s : State) (operations : List Operation) : State :=
  { s with runtime := s.runtime.after (operations.map fun operation => (s.now, operation)) }

def laneStep (setup : Setup) (s : State) (name : String) (label : Lane.Label String) :
    Option (State × List (String × Lane.Event String)) :=
  (Lane.step (runnerOf setup name) (s.lane name) label).map fun next =>
    ({ s with
        lane := Function.update s.lane name next.1
        progress := Function.update s.progress name
          (next.2.foldl (progressAfter s.now) (s.progress name)) }.perform (marks name next.1 label),
      next.2.map (name, ·))

def step (setup : Setup) (s : State) :
    Label → Option (State × List (String × Lane.Event String))
  | .advance duration =>
    some ({ s with
        now := s.now + duration
        lane := fun name => { s.lane name with now := (s.lane name).now + duration } }, [])
  | .operate watcher operation =>
    if watcher ∈ setup.watchers ∧
        ((Supervision.tasksOf watcher).any (·.performs operation)) = true then
      some (s.perform [operation], [])
    else none
  | .request watcher =>
    if watcher ∈ setup.watchers ∧ s.life watcher.trigger.sender ≠ .crashed then
      laneStep setup s watcher.trigger.sender (.send watcher.trigger.command)
    else none
  | .enter name =>
    if name ∈ setup.laneNames ∧ s.life name = .spawned then
      some ({ s with life := Function.update s.life name .entered }.perform
        [.markCommandRunner name .idle], [])
    else none
  | .lane name label =>
    if s.life name = .entered ∧ ownLabel label = true then laneStep setup s name label else none
  | .crash name =>
    if s.life name = .crashed then none
    else
      some ({ s with
          life := Function.update s.life name .crashed
          progress := Function.update s.progress name none }, [])
  | .supervise name =>
    if s.life name = .crashed then some (s.perform [.markCommandRunner name .crashed], [])
    else if (s.lane name).pc = .returned then
      some (s.perform [.markCommandRunner name .stopped], [])
    else none

/-- An execution of the command has been in progress for longer than its own timeout. -/
def Overruns (s : State) (spec : RuntimeCommandSpec) : Prop :=
  ∃ since, s.progress spec.lane = some (spec.name, since) ∧ spec.timeout * 1000 < s.now - since

/-- `health_problem` returns one. -/
def Noticed (s : State) : Prop := (s.runtime.healthProblem s.now).isSome = true

section Started
open RuntimeState.State
variable {runtime : RuntimeState.State} {name other : String} {now : Nat} {operation : Operation}

/-- When the execution in progress under the name began, as the runtime state has it. -/
def startedAt (runtime : RuntimeState.State) (name : String) : Option Nat :=
  (runtime.commandRunners.lookup name).bind (·.commandStarted)

/-- An operation that writes another entry does not touch this one. -/
theorem startedAt_apply (apart : operation.runnerPhase name = none) :
    startedAt (runtime.apply now operation).1 name = startedAt runtime name := by
  cases operation with
  | registerCommandRunner other | markCommandRunner other | markCommandStarted other
  | markCommandFinished other =>
    have differs : name ≠ other := by
      rintro rfl
      simp [Operation.runnerPhase] at apart
    simp [startedAt, apply, registerCommandRunner, markCommandRunner, markCommandStarted,
      markCommandFinished, AList.lookup_insert_ne differs]
  | markWatcherProgress other =>
    simp only [apply, markWatcherProgress]
    split
    · rfl
    · split <;> rfl
  | registerWatcher | markWatcher | markEvent | markCommandOutcome | markCommandError => rfl

theorem startedAt_markCommandStarted :
    startedAt (runtime.apply now (.markCommandStarted name)).1 name = some now := by
  simp [startedAt, apply, markCommandStarted]

theorem startedAt_after {operations : List (Nat × Operation)}
    (apart : ∀ operation ∈ operations, operation.2.runnerPhase name = none) :
    startedAt (runtime.after operations) name = startedAt runtime name := by
  induction operations generalizing runtime with
  | nil => rfl
  | cons operation rest ih =>
    have first : startedAt (runtime.apply operation.1 operation.2).1 name = startedAt runtime name :=
      startedAt_apply (apart operation List.mem_cons_self)
    exact (ih fun later mem => apart later (List.mem_cons_of_mem _ mem)).trans first

theorem commandTimeout_after (operations : List (Nat × Operation)) :
    (runtime.after operations).commandTimeout = runtime.commandTimeout := by
  induction operations generalizing runtime with
  | nil => rfl
  | cons operation rest ih =>
    exact ih.trans (totals_apply runtime operation.1 operation.2).2.2.2.2

end Started

section Executions
open Lane (Turn)
variable {runner : Lane.CommandLaneRunner String} {s t : Lane.State String}
  {label : Lane.Label String} {es : List (Lane.Event String)} {now : Nat}

/-- Only these two events are about an execution. -/
def aboutExecution : Lane.Event String → Bool
  | .executionStarted _ => true
  | .executionEnded _ _ => true
  | _ => false

theorem progress_quiet {progress : Option (String × Nat)}
    (quiet : ∀ e ∈ es, aboutExecution e = false) :
    es.foldl (progressAfter now) progress = progress := by
  induction es with
  | nil => rfl
  | cons e rest ih =>
    have same : progressAfter now progress e = progress := by
      have unrelated := quiet e List.mem_cons_self
      cases e <;> first | rfl | cases unrelated
    rw [List.foldl_cons, same]
    exact ih fun later mem => quiet later (List.mem_cons_of_mem _ mem)

theorem quiet_startWaiters (waiters : List Nat) :
    ∀ e ∈ (Lane.startWaiters waiters : List (Lane.Event String)), aboutExecution e = false := by
  intro e mem
  obtain ⟨w, -, rfl⟩ := List.mem_map.mp mem
  rfl

theorem quiet_finishWaiters (waiters : List Nat) (report : CommandRunReport) :
    ∀ e ∈ (Lane.finishWaiters waiters report : List (Lane.Event String)),
      aboutExecution e = false := by
  intro e mem
  obtain ⟨w, -, rfl⟩ := List.mem_map.mp mem
  rfl

theorem quiet_retire {events : List (Lane.Event String)}
    (quiet : ∀ e ∈ events, aboutExecution e = false) :
    ∀ e ∈ (Lane.retire s events).2, aboutExecution e = false := by
  intro e mem
  simp only [Lane.retire, List.mem_append] at mem
  rcases mem with (mem | mem) | mem
  · exact quiet e mem
  · exact quiet_finishWaiters _ _ e mem
  · obtain ⟨r, -, rfl⟩ := List.mem_map.mp mem
    rfl

/-- What a step of a lane does about the execution in progress. -/
inductive Execution (now : Nat) (s t : Lane.State String) (es : List (Lane.Event String)) :
    Lane.Label String → Prop where
  | started (command : String) (waiters : List Nat) : t.pc = .running command waiters →
      (∀ progress, es.foldl (progressAfter now) progress = some (command, now)) →
      Execution now s t es .proceed
  | ended (result : Except String CommandOutcome) :
      (∀ progress, es.foldl (progressAfter now) progress = none) →
      Execution now s t es (.finish result)
  | still {label : Lane.Label String} :
      (∀ progress, es.foldl (progressAfter now) progress = progress) →
      (∀ command waiters, s.pc = .running command waiters →
        t.pc = .running command waiters ∧ ∀ name, marks name t label = []) →
      Execution now s t es label

theorem execution_of_turn (turn : Turn runner s label t es) : Execution now s t es label := by
  have idle {label : Lane.Label String} (quiet : ∀ e ∈ es, aboutExecution e = false)
      (apart : ∀ command waiters, s.pc ≠ .running command waiters) :
      Execution now s t es label :=
    .still (fun _ => progress_quiet quiet) fun command waiters hpc => absurd hpc (apart command waiters)
  cases turn with
  | executed command waiters hpc =>
    refine .started command waiters rfl ?_
    intro progress
    rw [List.foldl_append, progress_quiet (quiet_startWaiters waiters)]
    rfl
  | finished command waiters result hpc =>
    refine .ended result ?_
    intro progress
    rw [List.foldl_append]
    exact progress_quiet (quiet_finishWaiters _ _)
  | sent | sendersDropped | shutdownSet | shutdownDropped | advanced =>
    exact .still (fun _ => rfl) fun _ _ hpc => ⟨hpc, fun _ => rfl⟩
  | headed hpc | emptied _ hpc | picked _ _ _ hpc | cooled _ _ _ _ hpc | drainEnded hpc
  | resumed hpc | notified _ _ _ hpc | coolingNotified _ _ _ _ _ _ hpc | timed _ _ _ hpc =>
    exact idle (by simp) (by simp [hpc])
  | rejected name pending hpc => exact idle (quiet_finishWaiters _ _) (by simp [hpc])
  | drained _ _ hpc | received _ _ hpc | joined _ _ _ _ hpc | absorbed _ _ _ _ _ hpc =>
    refine idle ?_ (by simp [hpc])
    intro e mem
    rw [List.mem_singleton.mp mem]
    rfl
  | stopped hpc | shutDown _ _ _ hpc | closed hpc =>
    exact idle (quiet_retire (by simp)) (by simp [hpc])
  | coolingShutDown _ _ _ _ _ _ hpc | coolingClosed _ _ _ hpc =>
    exact idle (quiet_retire (quiet_finishWaiters _ _)) (by simp [hpc])

end Executions

section Tracking
variable {setup : Setup} {s t : State} {label : Label} {name : String}
  {es : List (String × Lane.Event String)}

/-- Some source triggers the command. -/
def Triggered (setup : Setup) (command : String) : Prop :=
  ∃ watcher ∈ setup.watchers, watcher.trigger.command = command

/-- The runtime state knows of every execution in progress. -/
structure Tracks (setup : Setup) (s : State) : Prop where
  limit : s.runtime.commandTimeout = setup.state.commandTimeout
  entered : ∀ name, s.progress name ≠ none → s.life name = .entered
  running : ∀ name command since, s.progress name = some (command, since) →
    (∃ waiters, (s.lane name).pc = .running command waiters) ∧
      startedAt s.runtime name = some since
  held : ∀ name, Lane.Holding (Triggered setup) (s.lane name)

theorem tracks_start (setup : Setup) (now : Nat) : Tracks setup (.start setup now) := by
  refine ⟨rfl, by simp [State.start], by simp [State.start], ?_⟩
  intro name
  have fresh : Lane.Holding (Triggered setup) (.start : Lane.State String) := Lane.holding_start
  exact ⟨fresh.queued, fresh.pending, fresh.current⟩

/-- Operations on other entries than those of lanes that execute something. -/
theorem tracks_perform (old : Tracks setup s) {operations : List Operation}
    (apart : ∀ name, s.progress name ≠ none →
      ∀ operation ∈ operations, operation.runnerPhase name = none) :
    Tracks setup (s.perform operations) := by
  refine ⟨(commandTimeout_after _).trans old.limit, old.entered, ?_, old.held⟩
  intro name command since progress
  have progress : s.progress name = some (command, since) := progress
  obtain ⟨executing, started⟩ := old.running name command since progress
  refine ⟨executing, ?_⟩
  have kept := apart name (by simp [progress])
  refine (startedAt_after ?_).trans started
  intro operation mem
  obtain ⟨o, ho, rfl⟩ := List.mem_map.mp mem
  exact kept o ho

/-- The operations of a lane are about its own entry. -/
theorem marks_own {next : Lane.State String} {label : Lane.Label String} {other : String}
    (differs : other ≠ name) : ∀ operation ∈ marks name next label,
      operation.runnerPhase other = none := by
  have apart : name ≠ other := fun same => differs same.symm
  intro operation mem
  cases label with
  | proceed =>
    simp only [marks] at mem
    split at mem
    · rw [List.mem_singleton.mp mem]
      exact if_neg apart
    · rw [List.mem_singleton.mp mem]
      exact if_neg apart
    · cases mem
  | finish result =>
    simp only [marks] at mem
    split at mem
    · rw [List.mem_singleton.mp mem]
      exact if_neg apart
    · rcases List.mem_pair.mp mem with rfl | rfl
      · rfl
      · exact if_neg apart
    · rw [List.mem_singleton.mp mem]
      exact if_neg apart
  | send | dropSenders | setShutdown | dropShutdown | advance | shutdownChanged | recv | timer =>
    cases mem

theorem tracks_lane (old : Tracks setup s) {own : Lane.Label String}
    (entered : own = .proceed → s.life name = .entered)
    (asks : Lane.Asks (Triggered setup) own) (h : laneStep setup s name own = some (t, es)) :
    Tracks setup t := by
  obtain ⟨next, hn, heq⟩ := Option.map_eq_some_iff.mp h
  cases heq
  have turn := Lane.turn_of_step hn
  have execution : Execution s.now (s.lane name) next.1 next.2 own := execution_of_turn turn
  have others {other : String} (differs : other ≠ name) (command : String) (since : Nat)
      (progress : s.progress other = some (command, since)) :
      startedAt (s.runtime.after ((marks name next.1 own).map fun o => (s.now, o))) other =
        some since := by
    refine (startedAt_after ?_).trans (old.running other command since progress).2
    intro operation mem
    obtain ⟨o, ho, rfl⟩ := List.mem_map.mp mem
    exact marks_own differs o ho
  refine ⟨(commandTimeout_after _).trans old.limit, ?_, ?_, ?_⟩
  · intro other progress
    by_cases same : other = name
    · subst same
      simp only [State.perform, Function.update_self] at progress
      cases execution with
      | started => exact entered rfl
      | ended result none => exact absurd (none _) progress
      | still kept =>
        rw [kept] at progress
        exact old.entered other progress
    · simp only [State.perform, Function.update_of_ne same] at progress
      exact old.entered other progress
  · intro other command since progress
    by_cases same : other = name
    · subst same
      simp only [State.perform, Function.update_self] at progress ⊢
      cases execution with
      | started c waiters hpc now =>
        rw [now] at progress
        cases progress
        refine ⟨⟨waiters, hpc⟩, ?_⟩
        simp only [marks, hpc]
        exact startedAt_markCommandStarted
      | ended result none =>
        rw [none] at progress
        cases progress
      | still kept moves =>
        rw [kept] at progress
        obtain ⟨⟨waiters, hpc⟩, started⟩ := old.running other command since progress
        obtain ⟨next_pc, silent⟩ := moves command waiters hpc
        refine ⟨⟨waiters, next_pc⟩, ?_⟩
        rw [silent]
        exact started
    · simp only [State.perform, Function.update_of_ne same] at progress ⊢
      exact ⟨(old.running other command since progress).1, others same command since progress⟩
  · intro other
    by_cases same : other = name
    · subst same
      simp only [State.perform, Function.update_self]
      exact Lane.holding_turn (old.held other) asks turn
    · simp only [State.perform, Function.update_of_ne same]
      exact old.held other

/-- The tasks of a source write no entry of a lane. -/
theorem operate_apart {watcher : RegisteredWatcher} {operation : Operation}
    (performs : ((Supervision.tasksOf watcher).any (·.performs operation)) = true) :
    operation.runnerPhase name = none := by
  obtain ⟨task, mem, performs⟩ := List.any_eq_true.mp performs
  have kind : ∀ lane, task ≠ .lane lane := by
    rintro lane rfl
    rcases List.mem_cons.mp mem with same | mem
    · cases same
    · split at mem <;> simp at mem
  cases task with
  | lane lane => exact absurd rfl (kind lane)
  | watcher w => cases operation <;> first | rfl | cases performs
  | runner id => cases operation <;> first | rfl | cases performs
  | heartbeat id => cases operation <;> first | rfl | cases performs

theorem tracks_step (old : Tracks setup s) (h : step setup s label = some (t, es)) :
    Tracks setup t := by
  have vacant {name : String} (life : s.life name ≠ .entered) : s.progress name = none := by
    by_contra progress
    exact life (old.entered name progress)
  cases label with
  | advance duration =>
    cases h
    refine ⟨old.limit, old.entered, old.running, ?_⟩
    intro name
    exact ⟨(old.held name).queued, (old.held name).pending, (old.held name).current⟩
  | operate watcher operation =>
    simp only [step] at h
    split at h
    · rename_i allowed
      cases h
      refine tracks_perform old fun name _ o mem => ?_
      rw [List.mem_singleton.mp mem]
      exact operate_apart allowed.2
    · cases h
  | request watcher =>
    simp only [step] at h
    split at h
    · rename_i allowed
      have asks : Lane.Asks (Triggered setup) (.send watcher.trigger.command) :=
        ⟨watcher, allowed.1, rfl⟩
      exact tracks_lane old (by simp) asks h
    · cases h
  | enter name =>
    simp only [step] at h
    split at h
    · rename_i allowed
      cases h
      have idle : s.progress name = none := vacant (by simp [allowed.2])
      have entered : Tracks setup { s with life := Function.update s.life name .entered } := by
        refine ⟨old.limit, ?_, old.running, old.held⟩
        intro other progress
        by_cases same : other = name
        · subst same
          exact absurd idle progress
        · simp only [Function.update_of_ne same]
          exact old.entered other progress
      refine tracks_perform entered fun other progress o mem => ?_
      rw [List.mem_singleton.mp mem]
      refine if_neg ?_
      rintro rfl
      exact progress idle
    · cases h
  | lane name own =>
    simp only [step] at h
    split at h
    · rename_i allowed
      refine tracks_lane old (fun _ => allowed.1) ?_ h
      have asked := allowed.2
      cases own with
      | send => cases asked
      | _ => trivial
    · cases h
  | crash name =>
    simp only [step] at h
    split at h
    · cases h
    · cases h
      refine ⟨old.limit, ?_, ?_, old.held⟩
      · intro other progress
        by_cases same : other = name
        · subst same
          simp at progress
        · simp only [Function.update_of_ne same] at progress ⊢
          exact old.entered other progress
      · intro other command since progress
        by_cases same : other = name
        · subst same
          simp at progress
        · simp only [Function.update_of_ne same] at progress
          exact old.running other command since progress
  | supervise name =>
    simp only [step] at h
    split at h
    · rename_i crashed
      cases h
      refine tracks_perform old fun other progress o mem => ?_
      rw [List.mem_singleton.mp mem]
      refine if_neg ?_
      rintro rfl
      exact progress (vacant (by simp [crashed]))
    · split at h
      · rename_i returned
        cases h
        refine tracks_perform old fun other progress o mem => ?_
        rw [List.mem_singleton.mp mem]
        refine if_neg ?_
        rintro rfl
        obtain ⟨⟨command, since⟩, executing⟩ := Option.ne_none_iff_exists'.mp progress
        obtain ⟨waiters, hpc⟩ := (old.running name command since executing).1
        rw [returned] at hpc
        cases hpc
      · cases h

theorem tracks_run {now : Nat} {labels : List Label}
    (run : exec (step setup) (.start setup now) labels = some (s, es)) : Tracks setup s :=
  exec_state_invariant (fun _ _ _ _ old h => tracks_step old h) (tracks_start setup now) run

/-- An execution beyond the limit is noticed. -/
theorem noticed_of_late (tracks : Tracks setup s) {command : String} {since : Nat}
    (progress : s.progress name = some (command, since))
    (late : setup.state.commandTimeout < s.now - since) : Noticed s := by
  have started := (tracks.running name command since progress).2
  obtain ⟨entry, held, began⟩ := Option.bind_eq_some_iff.mp started
  have problem : ∃ problem, s.runtime.commandRunnerProblem s.now name entry = some problem := by
    rw [State.commandRunnerProblem]
    split
    · exact ⟨_, rfl⟩
    · rw [began]
      dsimp only
      rw [tracks.limit, if_pos late]
      exact ⟨_, rfl⟩
  obtain ⟨problem, found⟩ := problem
  exact RuntimeState.State.healthProblem_isSome (.commandRunner held found)

end Tracking

section Missed
variable {setup : Setup} {s : State} {name : String}

/-- A lane that is asked for a command for the first time executes it at once. -/
theorem first_execution {runner : Lane.CommandLaneRunner String} {command : String}
    (known : runner.command command ≠ none) (room : 0 < runner.capacity) (now : Nat) :
    ∃ asked idle got picked running : Lane.State String,
      Lane.step runner { Lane.State.start with now := now } (.send command) = some (asked, []) ∧
      Lane.step runner asked .proceed = some (idle, []) ∧ idle.pc = .idle ∧
      Lane.step runner idle .recv = some (got, [.received 0 command]) ∧
      Lane.step runner got .proceed = some (picked, []) ∧ picked.pc = .starting command [0] ∧
      Lane.step runner picked .proceed = some (running, [.started 0, .executionStarted command]) ∧
      running.pc = .running command [0] := by
  obtain ⟨found, known⟩ := Option.ne_none_iff_exists'.mp known
  let start : Lane.State String := { Lane.State.start with now := now }
  let asked : Lane.State String :=
    { start with requests := ⟨[⟨command, 0⟩], true⟩, nextLifecycle := 1 }
  let got : Lane.State String :=
    { asked with
      requests := ⟨[], true⟩
      pending := start.pending.push ⟨command, 0⟩
      pc := .dispatch }
  let picked : Lane.State String :=
    { got with
      pending := (got.pending.popNextCommand.2.takeWaiters command).2
      pc := .starting command [0] }
  have held : ((∅ : AList fun _ : String => List Nat).insert command [0]).lookup command = some [0] :=
    AList.lookup_insert _
  rw [AList.insert_empty] at held
  have pops : got.pending.popNextCommand = (some command, got.pending.popNextCommand.2) := by
    simp [got, start, Lane.State.start, Lane.PendingRequests.push,
      Lane.PendingRequests.popNextCommand, Lane.PendingRequests.popOrder, held]
  have takes : (got.pending.popNextCommand.2.takeWaiters command).1 = [0] := by
    simp [got, start, Lane.State.start, Lane.PendingRequests.push,
      Lane.PendingRequests.popNextCommand, Lane.PendingRequests.takeWaiters, held]
  have dispatches : Lane.dispatch runner got = (picked, []) := by
    simp only [Lane.dispatch]
    rw [pops]
    dsimp only
    rw [known]
    dsimp only
    have uncooled : Lane.coolUntil got found = none := rfl
    rw [uncooled, takes]
  refine ⟨asked, { asked with pc := .idle }, got, picked,
    { picked with phase := .running, pc := .running command [0] }, ?_, rfl, rfl, rfl, ?_, rfl, rfl, rfl⟩
  · simp [Lane.step, Lane.send, Lane.State.start, Channel.Mpsc.empty, Channel.Mpsc.send, room, asked,
      start]
  · exact congrArg some dispatches

theorem laneStep_of {own : Lane.Label String} {next : Lane.State String}
    {es : List (Lane.Event String)}
    (h : Lane.step (runnerOf setup name) (s.lane name) own = some (next, es)) :
    laneStep setup s name own = some
      (({ s with
          lane := Function.update s.lane name next
          progress := Function.update s.progress name
            (es.foldl (progressAfter s.now) (s.progress name)) } : State).perform
        (marks name next own), es.map (name, ·)) := by
  rw [laneStep, h]
  rfl

/-- The operations of one instant after those of another. -/
theorem perform_append (s : State) (first second : List Operation) :
    (s.perform first).perform second = s.perform (first ++ second) := by
  simp [State.perform, RuntimeState.State.after, List.foldl_append]

/-- Every watcher tells that it is idling. -/
def idlings (watchers : List RegisteredWatcher) : List Operation :=
  watchers.map fun watcher => .markWatcher watcher.id .idling

theorem exec_idlings {watchers : List RegisteredWatcher}
    (listed : ∀ watcher ∈ watchers, watcher ∈ setup.watchers) :
    exec (step setup) s (watchers.map fun w => .operate w (.markWatcher w.id .idling)) =
      some (s.perform (idlings watchers), []) := by
  induction watchers generalizing s with
  | nil => rfl
  | cons watcher rest ih =>
    have performs : ((Supervision.tasksOf watcher).any
        (·.performs (.markWatcher watcher.id .idling))) = true := by
      have own : Supervision.Task.performs (.watcher watcher) (.markWatcher watcher.id .idling) =
          true := by
        simp [Supervision.Task.performs, Supervision.marks]
      rw [Supervision.tasksOf, List.any_cons, own, Bool.true_or]
    have first : step setup s (.operate watcher (.markWatcher watcher.id .idling)) =
        some (s.perform [.markWatcher watcher.id .idling], []) :=
      if_pos ⟨listed watcher List.mem_cons_self, performs⟩
    have later := ih (s := s.perform [.markWatcher watcher.id .idling])
      fun w mem => listed w (List.mem_cons_of_mem _ mem)
    rw [perform_append] at later
    exact exec_cons_some.mpr ⟨_, [], [], first, later, rfl⟩

/-- What is known of a run that only concerns one lane. -/
structure At (name : String) (now : Nat) (lane : Lane.State String) (runtime : RuntimeState.State)
    (progress : Option (String × Nat)) (s : State) : Prop where
  now : s.now = now
  life : s.life name = .entered
  lane : s.lane name = lane
  runtime : s.runtime = runtime
  progress : s.progress name = progress

theorem at_laneStep {now : Nat} {lane next : Lane.State String} {runtime : RuntimeState.State}
    {progress : Option (String × Nat)} {own : Lane.Label String} {es : List (Lane.Event String)}
    (h : At name now lane runtime progress s)
    (moves : Lane.step (runnerOf setup name) lane own = some (next, es)) :
    ∃ t, laneStep setup s name own = some (t, es.map (name, ·)) ∧
      At name now next (runtime.after ((marks name next own).map fun operation => (now, operation)))
        (es.foldl (progressAfter now) progress) t := by
  refine ⟨_, laneStep_of (by rw [h.lane]; exact moves), h.now, h.life, ?_, ?_, ?_⟩
  · simp [State.perform]
  · simp [State.perform, h.now, h.runtime]
  · simp [State.perform, h.now, h.progress]

/-- A triggered command is executed for `duration`, and all watchers have just been idling. -/
theorem exec_missed {watcher : RegisteredWatcher} (listed : watcher ∈ setup.watchers)
    (lane : watcher.trigger.sender ∈ setup.laneNames)
    (known : (runnerOf setup watcher.trigger.sender).command watcher.trigger.command ≠ none)
    (now duration : Nat) :
    ∃ labels s tr, exec (step setup) (.start setup now) labels = some (s, tr) ∧
      s.now = now + duration ∧
      s.progress watcher.trigger.sender = some (watcher.trigger.command, now) ∧
      s.runtime = setup.state.after
        ([(now, .markCommandRunner watcher.trigger.sender .idle),
            (now, .markCommandStarted watcher.trigger.sender)] ++
          (idlings setup.watchers).map fun operation => (now + duration, operation)) := by
  obtain ⟨asked, idle, got, picked, running, sends, heads, hidle, gets, picks, hpicked, runs, hrunning⟩ :=
    first_execution known (by simp [runnerOf, laneRunner]) now
  let entered : State :=
    { State.start setup now with
      life := Function.update (fun _ => Life.spawned) watcher.trigger.sender .entered }
  let begun := entered.perform [.markCommandRunner watcher.trigger.sender .idle]
  have enters : step setup (.start setup now) (.enter watcher.trigger.sender) = some (begun, []) :=
    if_pos ⟨lane, rfl⟩
  have at1 : At watcher.trigger.sender now { Lane.State.start with now := now }
      (setup.state.after [(now, .markCommandRunner watcher.trigger.sender .idle)]) none begun :=
    ⟨rfl, by simp [begun, entered, State.perform], rfl, rfl, rfl⟩
  obtain ⟨s2, h2, at2⟩ := at_laneStep at1 sends
  obtain ⟨s3, h3, at3⟩ := at_laneStep at2 heads
  obtain ⟨s4, h4, at4⟩ := at_laneStep at3 gets
  obtain ⟨s5, h5, at5⟩ := at_laneStep at4 picks
  obtain ⟨s6, h6, at6⟩ := at_laneStep at5 runs
  have requests : step setup begun (.request watcher) = some (s2, []) :=
    (if_pos ⟨listed, by rw [at1.life]; simp⟩).trans h2
  have moves {s t : State} {own : Lane.Label String} {es : List (String × Lane.Event String)}
      (life : s.life watcher.trigger.sender = .entered) (mine : ownLabel own = true)
      (h : laneStep setup s watcher.trigger.sender own = some (t, es)) :
      step setup s (.lane watcher.trigger.sender own) = some (t, es) :=
    (if_pos ⟨life, mine⟩).trans h
  let late : State :=
    { s6 with
      now := s6.now + duration
      lane := fun name => { s6.lane name with now := (s6.lane name).now + duration } }
  have waits : step setup s6 (.advance duration) = some (late, []) := rfl
  have idles : exec (step setup) late
      (setup.watchers.map fun w => .operate w (.markWatcher w.id .idling)) =
        some (late.perform (idlings setup.watchers), []) := exec_idlings fun _ h => h
  refine ⟨_, late.perform (idlings setup.watchers), _, exec_cons_some.mpr ⟨_, _, _, enters,
    exec_cons_some.mpr ⟨_, _, _, requests, exec_cons_some.mpr ⟨_, _, _, moves at2.life rfl h3,
      exec_cons_some.mpr ⟨_, _, _, moves at3.life rfl h4, exec_cons_some.mpr ⟨_, _, _,
        moves at4.life rfl h5, exec_cons_some.mpr ⟨_, _, _, moves at5.life rfl h6,
          exec_cons_some.mpr ⟨_, _, _, waits, idles, rfl⟩, rfl⟩, rfl⟩, rfl⟩, rfl⟩, rfl⟩, rfl⟩, ?_, ?_, ?_⟩
  · exact congrArg (· + duration) at6.now
  · exact at6.progress
  · have before := at6.runtime
    have after_now : late.now = now + duration := congrArg (· + duration) at6.now
    simp only [marks, hidle, hpicked, hrunning] at before
    have kept : late.runtime = s6.runtime := rfl
    rw [State.perform, kept, before, after_now]
    simp [RuntimeState.State.after]

section Unnoticed
open RuntimeState.State
variable {runtime : RuntimeState.State} {id : String}

/-- Afterwards the watchers have just made progress. -/
theorem lookup_idlings (watchers : List RegisteredWatcher) (now : Nat) (id : String) :
    ((runtime.after ((idlings watchers).map fun operation => (now, operation))).watchers).lookup id =
      if id ∈ watchers.map (·.id) then some ⟨.idling, now⟩ else runtime.watchers.lookup id := by
  induction watchers generalizing runtime with
  | nil => simp [idlings, RuntimeState.State.after]
  | cons watcher rest ih =>
    have first : (runtime.apply now (.markWatcher watcher.id .idling)).1.watchers.lookup id =
        if id = watcher.id then some ⟨.idling, now⟩ else runtime.watchers.lookup id := by
      by_cases same : id = watcher.id
      · subst same
        simp [apply, markWatcher]
      · simp [apply, markWatcher, same, AList.lookup_insert_ne same]
    refine ih.trans ?_
    rw [first]
    by_cases same : id = watcher.id <;> by_cases mem : id ∈ rest.map (·.id) <;> simp [same, mem]

theorem runners_idlings (watchers : List RegisteredWatcher) (now : Nat) :
    (runtime.after ((idlings watchers).map fun operation => (now, operation))).commandRunners =
      runtime.commandRunners := by
  induction watchers generalizing runtime with
  | nil => rfl
  | cons watcher rest ih => exact ih

/-- Registered lanes execute nothing. -/
theorem fresh_after {now : Nat} {operations : List (Nat × Operation)}
    (registers : ∀ operation ∈ operations, (∃ lane, operation = (now, .registerCommandRunner lane)) ∨
      ∃ watcher, operation = (now, .registerWatcher watcher))
    (fresh : ∀ id entry, runtime.commandRunners.lookup id = some entry →
      entry = ⟨.starting, now, none⟩) {entry : CommandRunnerStatus}
    (held : (runtime.after operations).commandRunners.lookup id = some entry) :
    entry = ⟨.starting, now, none⟩ := by
  induction operations generalizing runtime with
  | nil => exact fresh id entry held
  | cons operation rest ih =>
    refine ih (fun later mem => registers later (List.mem_cons_of_mem _ mem)) ?_ held
    intro other found hfound
    rcases registers operation List.mem_cons_self with ⟨lane, rfl⟩ | ⟨watcher, rfl⟩
    · by_cases same : other = lane
      · subst same
        simp only [apply, registerCommandRunner, AList.lookup_insert, Option.some.injEq] at hfound
        exact hfound.symm
      · simp only [apply, registerCommandRunner, AList.lookup_insert_ne same] at hfound
        exact fresh other found hfound
    · exact fresh other found hfound

theorem fresh_runners {config : Config} {lanes : List LaneCommands} {now : Nat}
    (h : setUp config lanes now = .ok setup) {entry : CommandRunnerStatus}
    (held : setup.state.commandRunners.lookup id = some entry) : entry = ⟨.starting, now, none⟩ := by
  obtain ⟨-, -, -, state⟩ := setUp_ok h
  rw [state] at held
  refine fresh_after ?_ (by simp [initialState, State.new]) held
  intro operation mem
  rcases List.mem_append.mp mem with lane | watcher
  · obtain ⟨registered, -, rfl⟩ := List.mem_map.mp lane
    exact Or.inl ⟨registered, rfl⟩
  · obtain ⟨registered, -, rfl⟩ := List.mem_map.mp watcher
    exact Or.inr ⟨registered, rfl⟩

/-- A long execution below the limit, and nothing else to complain about. -/
theorem unnoticed {config : Config} {lanes : List LaneCommands} {now duration : Nat}
    (ids : setup.watcherIds.Nodup) (distinct : setup.laneNames.Nodup)
    (grouped : Grouped (runtimeCommandSpecs config) lanes)
    (h : setUp config lanes now = .ok setup) (lane : name ∈ setup.laneNames)
    (short : duration ≤ setup.state.commandTimeout) :
    ((setup.state.after ([(now, .markCommandRunner name .idle), (now, .markCommandStarted name)] ++
      (idlings setup.watchers).map fun operation => (now + duration, operation))).healthProblem
        (now + duration)) = none := by
  let marked := setup.state.after
    [(now, .markCommandRunner name .idle), (now, .markCommandStarted name)]
  have split : setup.state.after
      ([(now, .markCommandRunner name .idle), (now, .markCommandStarted name)] ++
        (idlings setup.watchers).map fun operation => (now + duration, operation)) =
      marked.after ((idlings setup.watchers).map fun operation => (now + duration, operation)) := by
    simp [marked, RuntimeState.State.after]
  have holds : (marked.after ((idlings setup.watchers).map fun o => (now + duration, o))).Holds
      setup.watcherIds setup.laneNames := by
    rw [← split]
    refine holds_after (holds_setUp grouped h) ?_
    intro operation mem
    rcases List.mem_append.mp mem with mem | mem
    · rcases List.mem_pair.mp mem with rfl | rfl
      · refine ⟨fun _ writes => absurd writes (by simp [Operation.watcherPhase]), fun id writes => ?_⟩
        have same : name = id := by simpa [Operation.runnerPhase] using writes
        rwa [← same]
      · refine ⟨fun _ writes => absurd writes (by simp [Operation.watcherPhase]), fun id writes => ?_⟩
        have same : name = id := by simpa [Operation.runnerPhase] using writes
        rwa [← same]
    · obtain ⟨o, ho, rfl⟩ := List.mem_map.mp mem
      obtain ⟨watcher, listed, rfl⟩ := List.mem_map.mp ho
      refine ⟨fun id writes => ?_, fun _ writes => absurd writes (by simp [Operation.runnerPhase])⟩
      have same : watcher.id = id := by simpa [Operation.watcherPhase] using writes
      rw [← same]
      exact List.mem_map_of_mem listed
  rw [split]
  by_contra complains
  obtain ⟨problem, reported⟩ := Option.ne_none_iff_exists'.mp complains
  cases problem_of_healthProblem reported with
  | watcherCount => exact watcher_count_passes holds ids _ _ reported
  | commandRunnerCount => exact lane_count_passes holds distinct _ _ reported
  | @watcher id entry problem held found =>
    have listed : id ∈ setup.watchers.map (·.id) := by
      refine (holds.watcher id).mp (AList.lookup_isSome.mp ?_)
      rw [held]
      rfl
    rw [lookup_idlings, if_pos listed] at held
    cases held
    simp [watcherProblem, WatcherPhase.terminal] at found
  | @commandRunner id entry problem held found =>
    have limit : (marked.after ((idlings setup.watchers).map fun o =>
        (now + duration, o))).commandTimeout = setup.state.commandTimeout :=
      (commandTimeout_after _).trans (commandTimeout_after _)
    rw [runners_idlings] at held
    rw [commandRunnerProblem, limit] at found
    by_cases own : id = name
    · subst own
      have entry_now : entry = ⟨.running, now, some now⟩ := by
        have last : marked.commandRunners.lookup id = some ⟨.running, now, some now⟩ := by
          simp [marked, RuntimeState.State.after, apply, markCommandStarted]
        exact Option.some.inj (held.symm.trans last)
      subst entry_now
      simp [CommandRunnerPhase.terminal] at found
      omega
    · have before : marked.commandRunners.lookup id = setup.state.commandRunners.lookup id := by
        simp [marked, RuntimeState.State.after, apply, markCommandStarted, markCommandRunner,
          AList.lookup_insert_ne own]
      rw [before] at held
      obtain rfl := fresh_runners h held
      simp [CommandRunnerPhase.terminal] at found

end Unnoticed

end Missed

section Limits
variable {config : Config} {lanes : List LaneCommands} {setup : Setup} {now : Nat}

theorem commandTimeout_setUp (h : setUp config lanes now = .ok setup) :
    setup.state.commandTimeout = maxCommandTimeout config * 1000 := by
  obtain ⟨-, -, -, state⟩ := setUp_ok h
  rw [state, commandTimeout_after]
  rfl

/-- The lane of a command knows it. -/
theorem known_in_lane (grouped : Grouped (runtimeCommandSpecs config) lanes)
    (h : setUp config lanes now = .ok setup) {spec : RuntimeCommandSpec}
    (listed : spec ∈ runtimeCommandSpecs config) :
    spec.lane ∈ setup.laneNames ∧ (runnerOf setup spec.lane).command spec.name ≠ none := by
  obtain ⟨rfl, -, -, -⟩ := setUp_ok h
  obtain ⟨group, hgroup, mem⟩ := grouped.each spec listed
  have own : spec.lane = group.1 := ((grouped.own group hgroup).2 spec mem).1
  refine ⟨List.mem_map.mpr ⟨group, hgroup, own.symm⟩, ?_⟩
  have exists_group : (setup.lanes.find? (·.1 = spec.lane)).isSome = true :=
    List.find?_isSome.mpr ⟨group, hgroup, by simp [own]⟩
  obtain ⟨found, hfound⟩ := Option.isSome_iff_exists.mp exists_group
  have lane : found.1 = spec.lane := by simpa using List.find?_some hfound
  rw [runnerOf, hfound]
  exact command_laneRunner
    (grouped.mem_of_lane (List.mem_of_find?_eq_some hfound) listed lane.symm)

/-- The health check notices every execution that overruns its own timeout if and only if every
command that a source triggers has the longest timeout of all commands. -/
theorem overruns_are_noticed_iff (valid : config.validate = .ok ())
    (order : lanes.Perm (commandsByLane (runtimeCommandSpecs config)))
    (h : setUp config lanes now = .ok setup) :
    (∀ labels s tr, exec (step setup) (.start setup now) labels = some (s, tr) →
        ∀ spec ∈ runtimeCommandSpecs config, Overruns s spec → Noticed s) ↔
      ∀ spec ∈ runtimeCommandSpecs config, Triggered setup spec.name →
        spec.timeout = maxCommandTimeout config := by
  have accepted := accepted_of_validate valid
  have grouped := (grouped_commandsByLane (runtimeCommandSpecs config)).perm order
  have limit := commandTimeout_setUp h
  constructor
  · intro notices spec listed triggered
    by_contra differs
    have shorter : spec.timeout < maxCommandTimeout config :=
      lt_of_le_of_ne (timeout_le_max listed) differs
    obtain ⟨watcher, mem, same⟩ := triggered
    obtain ⟨lane, known⟩ := known_in_lane grouped h listed
    obtain ⟨-, -, registers, -⟩ := setUp_ok h
    obtain ⟨other, hother, command, sender⟩ :=
      trigger_of_watches accepted grouped (registers.watches mem)
    obtain rfl : other = spec :=
      List.inj_on_of_nodup_map (specNames_nodup accepted) hother listed (command.symm.trans same)
    rw [← sender] at lane
    rw [← sender, ← command] at known
    obtain ⟨labels, s, tr, run, late, progress, runtime⟩ :=
      exec_missed mem lane known now (other.timeout * 1000 + 1)
    have overruns : Overruns s other := by
      refine ⟨now, ?_, by omega⟩
      rw [← sender, ← command]
      exact progress
    have noticed := notices labels s tr run other listed overruns
    have wired := wired_of_setUp accepted grouped h
    have short : other.timeout * 1000 + 1 ≤ setup.state.commandTimeout := by omega
    have missed := unnoticed wired.watcherIds.1 wired.laneNames.1 grouped h lane short
    rw [Noticed, runtime, late, missed] at noticed
    cases noticed
  · rintro all labels s tr run spec listed ⟨since, progress, late⟩
    have tracks := tracks_run run
    obtain ⟨waiters, executing⟩ := (tracks.running _ _ _ progress).1
    have triggered := (tracks.held spec.lane).current spec.name waiters (Or.inr (Or.inl executing))
    refine noticed_of_late tracks progress ?_
    rw [limit, ← all spec listed triggered]
    exact late

/-- One command may take a minute, the other one an hour. -/
def twoTimeouts : Config :=
  { Config.empty with
    commands := [⟨"refresh", none, "refresh", some 60, none, none, none, none⟩,
      ⟨"backup", none, "backup", some 3600, none, none, none, none⟩]
    sources := [.systemResume ⟨"resume", "refresh", none⟩] }

private def resumeWatcher : RegisteredWatcher :=
  ⟨"resume", .systemResume ⟨"resume", "refresh", none⟩, ⟨"refresh", "resume", "refresh"⟩⟩

/-- The shorter command runs for more than its minute. -/
def exampleOverrun : List Label :=
  [.enter "refresh", .request resumeWatcher, .lane "refresh" .proceed, .lane "refresh" .recv,
    .lane "refresh" .proceed, .lane "refresh" .proceed, .advance 60001,
    .operate resumeWatcher (.markWatcher "resume" .idling)]

theorem short_overrun_goes_unnoticed : twoTimeouts.validate = .ok () ∧ ∃ setup s tr,
    setUp twoTimeouts (commandsByLane (runtimeCommandSpecs twoTimeouts)) 0 = .ok setup ∧
      exec (step setup) (.start setup 0) exampleOverrun = some (s, tr) ∧
      ∃ spec ∈ runtimeCommandSpecs twoTimeouts, Overruns s spec ∧ ¬ Noticed s := by
  have valid : twoTimeouts.validate = .ok () := by decide +kernel
  have checked : (setUp twoTimeouts (commandsByLane (runtimeCommandSpecs twoTimeouts)) 0).toOption.any
      (fun setup => (exec (step setup) (.start setup 0) exampleOverrun).any fun r =>
        decide (r.1.progress "refresh" = some ("refresh", 0) ∧ r.1.now = 60001 ∧
          r.1.runtime.healthProblem r.1.now = none)) = true := by
    decide +kernel
  obtain ⟨setup, hsetup, checked⟩ := (Option.any_eq_true ..).mp checked
  obtain ⟨⟨s, tr⟩, run, facts⟩ := (Option.any_eq_true ..).mp checked
  obtain ⟨progress, now, healthy⟩ := of_decide_eq_true facts
  refine ⟨valid, setup, s, tr, Fallible.ok_of_toOption hsetup, run,
    commandSpec twoTimeouts ⟨"refresh", none, "refresh", some 60, none, none, none, none⟩,
    by decide +kernel, ⟨0, progress, ?_⟩, ?_⟩
  · rw [show s.now = 60001 from now]
    decide
  · rw [Noticed, show s.runtime.healthProblem s.now = none from healthy]
    simp

/-- With one timeout for all commands nothing is missed. -/
theorem equal_timeouts_are_noticed : mailConfig.validate = .ok () ∧ ∃ setup,
    setUp mailConfig (commandsByLane (runtimeCommandSpecs mailConfig)) 0 = .ok setup ∧
      ∀ labels s tr, exec (step setup) (.start setup 0) labels = some (s, tr) →
        ∀ spec ∈ runtimeCommandSpecs mailConfig, Overruns s spec → Noticed s := by
  have valid : mailConfig.validate = .ok () := by decide +kernel
  have equal : ∀ spec ∈ runtimeCommandSpecs mailConfig,
      spec.timeout = maxCommandTimeout mailConfig := by
    decide +kernel
  obtain ⟨setup, done, -⟩ := accepted_config_is_wired valid (List.Perm.refl _) 0
  exact ⟨valid, setup, done,
    (overruns_are_noticed_iff valid (List.Perm.refl _) done).mpr fun spec listed _ => equal spec listed⟩

end Limits

end Overrun

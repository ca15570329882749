import Mailwake.EventRunner
import Mailwake.LaneCompletion

/-!
# From an event to an execution

A source's event queue, its runner and its trigger, composed with the lane of its
command. Other sources send what they like to the lane. The steps are those of a
daemon that is not shutting down: the shutdown watch is quiet and the request channel
open. An event that nothing has answered yet is queued, owed by the runner, or carried
by the runner's request, which no execution has taken up.
-/
namespace Pipeline
open Channel CommandReport Transition EventRunner
universe u v
variable {κ : Type u} {ω : Type v}

structure State (κ : Type u) (ω : Type v) where
  source : EventRunner.State ω
  lane : Lane.State κ
  /-- All the lane has done; what it sent is still in the lifecycle channels. -/
  log : List (Lane.Event κ)

def State.start : State κ ω := ⟨EventRunner.State.start, Lane.State.start, []⟩

inductive Label (κ : Type u) where
  | source (label : EventRunner.Label)
  | submit
  | refused
  | completed (report : CommandRunReport)
  | lost
  | lane (label : Lane.Label κ)
  | advance (duration : Nat)

inductive Event (κ : Type u) where
  | source (event : EventRunner.Event)
  | lane (event : Lane.Event κ)

/-- The steps the runner takes by itself while the daemon runs. -/
def ofSource : EventRunner.Label → Bool
  | .emit => true
  | .closeEvents => true
  | .recv => true
  | .timer => true
  | _ => false

/-- The steps of the lane and of its other requesters while the daemon runs. -/
def ofLane : Lane.Label κ → Bool
  | .send _ => true
  | .proceed => true
  | .recv => true
  | .timer => true
  | .finish _ => true
  | _ => false

section
variable [DecidableEq κ]

/-- `CommandTrigger::start` puts the request into the lane's channel and hands its
lifecycle to the runner. The runner learns of its end from the lifecycle channel. -/
def step (bound : Nat) (loop : Loop ω) (runner : Lane.CommandLaneRunner κ) (command : κ)
    (p : State κ ω) : Label κ → Option (State κ ω × List (Event κ))
  | .source label =>
    if ofSource label then
      (EventRunner.step bound loop p.source label).map fun next =>
        ({ p with source := next.1 }, next.2.map .source)
    else none
  | .submit =>
    (Lane.step runner p.lane (.send command)).bind fun sent =>
      (EventRunner.step bound loop p.source (.accepted p.lane.nextLifecycle)).map fun next =>
        ({ source := next.1, lane := sent.1, log := p.log ++ sent.2 },
          sent.2.map .lane ++ next.2.map .source)
  | .refused =>
    if p.lane.pc = .returned then
      (EventRunner.step bound loop p.source .rejected).map fun next =>
        ({ p with source := next.1 }, next.2.map .source)
    else none
  | .completed report =>
    match p.source.pc with
    | .awaiting lifecycle =>
      if .finished lifecycle report ∈ p.log then
        (EventRunner.step bound loop p.source (.completed (some report))).map fun next =>
          ({ p with source := next.1 }, next.2.map .source)
      else none
    | _ => none
  | .lost =>
    match p.source.pc with
    | .awaiting lifecycle =>
      if .closed lifecycle ∈ p.log then
        (EventRunner.step bound loop p.source (.completed none)).map fun next =>
          ({ p with source := next.1 }, next.2.map .source)
      else none
    | _ => none
  | .lane label =>
    if ofLane label then
      (Lane.step runner p.lane label).map fun next =>
        ({ p with lane := next.1, log := p.log ++ next.2 }, next.2.map .lane)
    else none
  | .advance duration =>
    (EventRunner.step bound loop p.source (.advance duration)).bind fun next =>
      (Lane.step runner p.lane (.advance duration)).map fun after =>
        ({ source := next.1, lane := after.1, log := p.log ++ after.2 },
          next.2.map .source ++ after.2.map .lane)

end

def Event.Emission : Event κ → Prop
  | .source .emitted => True
  | _ => False

def Event.Execution (command : κ) : Event κ → Prop
  | .lane (.executionStarted name) => name = command
  | _ => False

/-- The runner has consumed an event and not yet submitted a request for it. -/
def owing : EventRunner.Pc ω → Bool
  | .waiting _ => true
  | .submitting => true
  | _ => false

theorem follow_owing (s : EventRunner.State ω) (next : Next ω) :
    owing (follow s next).1.pc = true := by
  cases hw : next.wait with
  | none => simp [follow, hw, owing]
  | some wait => simp [follow, hw, owing]

/-- After a run the runner listens again only if nothing was queued meanwhile. -/
theorem runOver_cases (loop : Loop ω) (s : EventRunner.State ω) (event : EventRunner.Event) :
    (s.events.items = [] ∧ runOver loop s event =
      ({ s with lastCommandFinished := some s.now, pc := .recv }, [event])) ∨
    owing (runOver loop s event).1.pc = true := by
  cases hq : s.events.items with
  | nil => exact Or.inl ⟨rfl, by simp [runOver, hq]⟩
  | cons x rest =>
    right
    simp only [runOver, hq]
    exact follow_owing _ _

/-- A received event leads to a wait or a submission; only a closed queue ends the task. -/
theorem recv_owing {loop : Loop ω} {s t : EventRunner.State ω} {es : List EventRunner.Event}
    (h : EventRunner.recv loop s = some (t, es)) : owing t.pc = true ∨ t.pc = .ended := by
  simp only [EventRunner.recv] at h
  split at h
  · cases h
  · split at h
    · cases h
      exact Or.inr rfl
    · obtain ⟨wait, -, heq⟩ := Option.map_eq_some_iff.mp h
      cases heq
      exact Or.inl rfl
    · cases h
  · split at h
    · cases h
      exact Or.inl (follow_owing _ _)
    · obtain ⟨wait, -, heq⟩ := Option.map_eq_some_iff.mp h
      cases heq
      exact Or.inl rfl
    · cases h

theorem timer_owing {loop : Loop ω} {s t : EventRunner.State ω} {es : List EventRunner.Event}
    (h : EventRunner.timer loop s = some (t, es)) : owing t.pc = true := by
  simp only [EventRunner.timer] at h
  split at h
  · rename_i wait hpc
    by_cases due : loop.deadline wait ≤ s.now
    · rw [if_pos due] at h
      have owed := follow_owing s (loop.wake wait s.now s.lastCommandFinished)
      rwa [Option.some.inj h] at owed
    · rw [if_neg due] at h
      cases h
  · cases h

section
variable [DecidableEq κ]

/-- Nothing is queued and nobody is at work. -/
structure Quiescent (p : State κ ω) : Prop where
  events : p.source.events.items = []
  listening : p.source.pc = .recv
  requests : p.lane.requests.items = []
  pending : p.lane.pending.isEmpty = true
  idle : p.lane.pc = .idle

/-- Where the last event is on its way to an execution. The last two cases end the
task of the lane or of the runner. -/
inductive Carried (command : κ) (p : State κ ω) : Prop where
  | queued (h : p.source.events.items ≠ [])
  | owed (h : owing p.source.pc = true)
  | requested (lifecycle : Nat) (awaiting : p.source.pc = .awaiting lifecycle)
      (h : Lane.Unstarted command lifecycle p.lane)
  | returned (h : p.lane.pc = .returned)
  | ended (h : p.source.pc = .ended)

/-- The joint invariant: the lane's accounts, and every event answered or on its way. -/
structure Wakes (runner : Lane.CommandLaneRunner κ) (command : κ) (tr : List (Event κ))
    (p : State κ ω) : Prop where
  accounts : Lane.Accounts runner p.log p.lane
  carried : FollowedBy Event.Emission (Event.Execution command) tr ∨ Carried command p

variable {bound : Nat} {loop : Loop ω} {runner : Lane.CommandLaneRunner κ} {command : κ}
  {p q : State κ ω} {tr es : List (Event κ)}

/-- Whatever keeps the queue, the runner's place and the request in the lane. -/
theorem Carried.frame (carried : Carried command p)
    (items : q.source.events.items = p.source.events.items) (pc : q.source.pc = p.source.pc)
    (request : ∀ lifecycle, Lane.Unstarted command lifecycle p.lane →
      Lane.Unstarted command lifecycle q.lane)
    (returned : p.lane.pc = .returned → q.lane.pc = .returned) : Carried command q := by
  cases carried with
  | queued h => exact .queued (by rwa [items])
  | owed h => exact .owed (by rwa [pc])
  | requested lifecycle awaiting h =>
    exact .requested lifecycle (pc.trans awaiting) (request lifecycle h)
  | returned h => exact .returned (returned h)
  | ended h => exact .ended (pc.trans h)

theorem source_step (slots : 0 < bound) (old : Wakes runner command tr p)
    {label : EventRunner.Label} (h : step bound loop runner command p (.source label) = some (q, es)) :
    Wakes runner command (tr ++ es) q := by
  simp only [step] at h
  split at h
  · rename_i allowed
    obtain ⟨next, hs, heq⟩ := Option.map_eq_some_iff.mp h
    cases heq
    refine ⟨old.accounts, ?_⟩
    cases label with
    | emit =>
      simp only [EventRunner.step] at hs
      split at hs
      · cases hs
        exact Or.inr (.queued (Mpsc.trySend_nonempty slots () p.source.events))
      · cases hs
    | closeEvents =>
      cases hs
      rcases old.carried with followed | carried
      · exact Or.inl (followed.append (by simp))
      · exact Or.inr (carried.frame rfl rfl (fun _ h => h) (fun h => h))
    | recv =>
      rcases recv_owing hs with owed | ended
      · exact Or.inr (.owed owed)
      · exact Or.inr (.ended ended)
    | timer => exact Or.inr (.owed (timer_owing hs))
    | setShutdown | dropShutdown | advance | shutdownChanged | accepted | rejected | completed =>
      cases allowed
  · cases h

theorem submit_step (old : Wakes runner command tr p)
    (h : step bound loop runner command p .submit = some (q, es)) :
    Wakes runner command (tr ++ es) q := by
  simp only [step, Option.bind_eq_some_iff] at h
  obtain ⟨sent, hl, h⟩ := h
  obtain ⟨next, hs, heq⟩ := Option.map_eq_some_iff.mp h
  cases heq
  refine ⟨Lane.accounts_step old.accounts (Lane.step_move hl), Or.inr ?_⟩
  have awaiting : next.1.pc = .awaiting p.lane.nextLifecycle := by
    simp only [EventRunner.step] at hs
    split at hs
    · cases hs
      rfl
    · cases hs
  refine .requested p.lane.nextLifecycle awaiting (.queued ?_)
  simp only [Lane.step, Lane.send] at hl
  split at hl
  · cases hl
  · obtain ⟨requests, hsend, heq⟩ := Option.map_eq_some_iff.mp hl
    cases heq
    simp [(Mpsc.send_some hsend).1]

/-- The run of the awaited request is over; the request itself is in the lane no more. -/
theorem over_step (old : Wakes runner command tr p) {lifecycle : Nat}
    (awaiting : p.source.pc = .awaiting lifecycle)
    (answered : 0 < Lane.finishedCount p.log lifecycle + Lane.closedCount p.log lifecycle)
    (event : EventRunner.Event) (quiet : event ≠ .emitted) :
    Wakes runner command (tr ++ (runOver loop p.source event).2.map .source)
      { p with source := (runOver loop p.source event).1 } := by
  refine ⟨old.accounts, ?_⟩
  rcases runOver_cases loop p.source event with ⟨empty, hrun⟩ | owed
  · rcases old.carried with followed | carried
    · refine Or.inl (followed.append ?_)
      intro x hx
      rw [hrun] at hx
      obtain rfl : x = .source event := by simpa using hx
      cases event with
      | emitted => exact absurd rfl quiet
      | consumed | submitted | rejected | completed | abandoned => exact id
    · cases carried with
      | queued h => exact absurd empty h
      | owed h => rw [awaiting] at h; cases h
      | requested other hawait h =>
        obtain rfl : lifecycle = other := by simpa [awaiting] using hawait
        exact absurd h (old.accounts.not_unstarted answered)
      | returned h => exact Or.inr (.returned h)
      | ended h => rw [awaiting] at h; cases h
  · exact Or.inr (.owed owed)

theorem lane_step (known : runner.command command ≠ none) (old : Wakes runner command tr p)
    {label : Lane.Label κ} (h : step bound loop runner command p (.lane label) = some (q, es)) :
    Wakes runner command (tr ++ es) q := by
  simp only [step] at h
  split at h
  · obtain ⟨next, hl, heq⟩ := Option.map_eq_some_iff.mp h
    cases heq
    have move := Lane.step_move hl
    have quiet : ∀ x ∈ next.2.map Event.lane, ¬ x.Emission := by
      intro x hx
      obtain ⟨e, -, rfl⟩ := List.mem_map.mp hx
      exact id
    refine ⟨Lane.accounts_step old.accounts move, ?_⟩
    rcases old.carried with followed | carried
    · exact Or.inl (followed.append quiet)
    · cases carried with
      | queued h => exact Or.inr (.queued h)
      | owed h => exact Or.inr (.owed h)
      | requested lifecycle awaiting h =>
        rcases Lane.unstarted_move known h move with returned | started | waiting
        · exact Or.inr (.returned returned)
        · refine Or.inl (followedBy_append_answer ⟨.lane (.executionStarted command), ?_, rfl⟩ quiet)
          exact List.mem_map.mpr ⟨_, started, rfl⟩
        · exact Or.inr (.requested lifecycle awaiting waiting)
      | returned h => exact Or.inr (.returned (Lane.returned_move h move))
      | ended h => exact Or.inr (.ended h)
  · cases h

theorem wakes_step (slots : 0 < bound) (known : runner.command command ≠ none)
    (old : Wakes runner command tr p) {label : Label κ}
    (h : step bound loop runner command p label = some (q, es)) :
    Wakes runner command (tr ++ es) q := by
  cases label with
  | source label => exact source_step slots old h
  | submit => exact submit_step old h
  | refused =>
    simp only [step] at h
    split at h
    · rename_i returned
      obtain ⟨next, -, heq⟩ := Option.map_eq_some_iff.mp h
      cases heq
      exact ⟨old.accounts, Or.inr (.returned returned)⟩
    · cases h
  | completed report =>
    simp only [step] at h
    split at h
    · rename_i lifecycle awaiting
      split at h
      · rename_i finished
        simp only [EventRunner.step, awaiting, Option.map_some, Option.some.injEq] at h
        obtain ⟨rfl, rfl⟩ := Prod.mk.inj h
        have pos : 0 < Lane.finishedCount p.log lifecycle :=
          List.countP_pos_iff.mpr ⟨_, finished, by simp [Lane.Event.isFinished]⟩
        exact over_step old awaiting (by omega) _ (by simp)
      · cases h
    · cases h
  | lost =>
    simp only [step] at h
    split at h
    · rename_i lifecycle awaiting
      split at h
      · rename_i closed
        simp only [EventRunner.step, awaiting, Option.map_some, Option.some.injEq] at h
        obtain ⟨rfl, rfl⟩ := Prod.mk.inj h
        have pos : 0 < Lane.closedCount p.log lifecycle :=
          List.countP_pos_iff.mpr ⟨_, closed, by simp [Lane.Event.isClosed]⟩
        exact over_step old awaiting (by omega) _ (by simp)
      · cases h
    · cases h
  | lane label => exact lane_step known old h
  | advance duration =>
    simp only [step, EventRunner.step, Lane.step, Option.bind_some, Option.map_some,
      Option.some.injEq] at h
    obtain ⟨rfl, rfl⟩ := Prod.mk.inj h
    have same : Lane.Quiet p.lane { p.lane with now := p.lane.now + duration } :=
      ⟨rfl, rfl, rfl, rfl, rfl, Iff.rfl⟩
    refine ⟨Lane.accounts_step old.accounts (.quiet same), ?_⟩
    rcases old.carried with followed | carried
    · exact Or.inl (followed.append (by simp))
    · exact Or.inr (carried.frame rfl rfl (fun _ h => h.quiet same) (fun h => h))

theorem wakes_run (slots : 0 < bound) (known : runner.command command ≠ none)
    {labels : List (Label κ)}
    (run : exec (step bound loop runner command) State.start labels = some (p, tr)) :
    Wakes runner command tr p :=
  exec_invariant (fun _ _ _ _ _ old h => wakes_step slots known old h)
    ⟨Lane.accounts_start, Or.inl followedBy_nil⟩ run

/-- A quiescent pipeline carries nothing. -/
theorem not_carried_of_quiescent (quiet : Quiescent p) : ¬ Carried command p := by
  intro carried
  cases carried with
  | queued h => exact h quiet.events
  | owed h => rw [quiet.listening] at h; cases h
  | requested lifecycle awaiting h => rw [quiet.listening] at awaiting; cases awaiting
  | returned h => rw [quiet.idle] at h; cases h
  | ended h => rw [quiet.listening] at h; cases h

/-- In every quiescent state, each emission is followed by the start of an execution. -/
def NoLostWakeup (bound : Nat) (loop : Loop ω) (runner : Lane.CommandLaneRunner κ)
    (command : κ) : Prop :=
  ∀ labels p tr, exec (step bound loop runner command) State.start labels = some (p, tr) →
    Quiescent p → FollowedBy Event.Emission (Event.Execution command) tr

theorem noLostWakeup (slots : 0 < bound) (known : runner.command command ≠ none) :
    NoLostWakeup bound loop runner command := by
  intro labels p tr run quiet
  rcases (wakes_run slots known run).carried with followed | carried
  · exact followed
  · exact absurd carried (not_carried_of_quiescent quiet)

/-- Neither runner loses a wake-up: whenever the pipeline is quiescent, an execution of the
command has started after the last emission, be it queued or dropped by a full queue. -/
theorem no_wakeup_is_lost (slots : 0 < bound) (known : runner.command command ≠ none)
    (debounce : DebounceRunner) (systemResume : SystemResumeRunner) :
    NoLostWakeup bound debounce.loop runner command ∧
      NoLostWakeup bound systemResume.loop runner command :=
  ⟨noLostWakeup slots known, noLostWakeup slots known⟩

private def exampleSyncLane : Lane.CommandLaneRunner Bool := ⟨[⟨true, 5⟩, ⟨false, 0⟩], 64⟩

/-- The second event arrives while the lane runs the command for the first one, and the
third finds the queue full. -/
private def exampleWakeups : List (Label Bool) :=
  [.source .emit, .source .recv, .advance 3, .source .timer, .submit, .lane .proceed, .lane .recv,
    .lane .proceed, .lane .proceed, .source .emit, .source .emit,
    .lane (.finish (.ok (.ofExitStatus (some 0) none))), .lane .proceed, .lane .proceed,
    .lane .proceed, .lane .proceed,
    .completed (.outcome (.ofExitStatus (some 0) none)), .advance 5, .source .timer, .submit,
    .lane .recv, .lane .proceed, .lane .proceed,
    .lane (.finish (.ok (.ofExitStatus (some 0) none))), .lane .proceed, .lane .proceed,
    .lane .proceed, .lane .proceed, .completed (.outcome (.ofExitStatus (some 0) none))]

theorem example_wakeups_are_answered :
    let step := step 1 (DebounceRunner.mk 3 0).loop exampleSyncLane true
    let r := (exec step State.start exampleWakeups).get (by decide +kernel)
    r.2.countP (fun e => e matches .source .emitted) = 3 ∧
      FollowedBy Event.Emission (Event.Execution true) r.2 := by
  intro step r
  have run := (Option.some_get
    (by decide +kernel : (exec step State.start exampleWakeups).isSome = true)).symm
  refine ⟨by decide +kernel, ?_⟩
  exact (no_wakeup_is_lost (by decide) (by decide) ⟨3, 0⟩ ⟨15⟩).1 exampleWakeups _ _ run
    ⟨by decide +kernel, by decide +kernel, by decide +kernel, by decide +kernel, by decide +kernel⟩

end

end Pipeline

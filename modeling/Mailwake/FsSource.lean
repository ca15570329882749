import Mailwake.FsStateProvenance
import Mailwake.LaneCompletion

/-!
# A filesystem source from an event to its command

The runner of a filesystem source beside the lane of its command. An event it takes up outside
the time it attributes to its own command is answered before it waits for work again: by a
comparing read where there is a `state_cmd`, or by an execution of the command.
-/
namespace FsSource
open Channel CommandReport Transition
open FsState (FsStateRunner Origin DirtyTracker Pc)
universe u v
variable {V : Type u} {κ : Type v}

structure State (V : Type u) (κ : Type v) where
  source : FsState.State V
  lane : Lane.State κ
  /-- All the lane has done; what it sent is still in the lifecycle channels. -/
  log : List (Lane.Event κ)
  /-- The channel of the latest submission, and how many of its messages the runner has heard. -/
  lifecycle : Nat
  heard : Nat

def State.start (runOnStartup : Bool) : State V κ :=
  ⟨.start runOnStartup, .start, [], 0, 0⟩

inductive Label (V : Type u) (κ : Type v) where
  | source (label : FsState.Label V)
  | submit
  | refused
  | hear
  | lane (label : Lane.Label κ)
  | advance (duration : Nat)

inductive Event (V : Type u) (κ : Type v) where
  | notified
  | source (event : FsState.Event V)
  | lane (event : Lane.Event κ)

def message (lifecycle : Nat) : Lane.Event κ → Option CommandLifecycle
  | .started id => if id = lifecycle then some .started else none
  | .finished id report => if id = lifecycle then some (.finished report) else none
  | _ => none

/-- The steps that concern the runner alone. -/
def ofSource : FsState.Label V → Bool
  | .advance _ => false
  | .startDone _ => false
  | .lifecycle _ => false
  | _ => true

def ofLane : Lane.Label κ → Bool
  | .advance _ => false
  | _ => true

def notified : FsState.Label V → List (Event V κ)
  | .notify _ => [.notified]
  | _ => []

section
variable [DecidableEq V] [DecidableEq κ]

def sourceStep (runner : FsStateRunner) (p : State V κ) (label : FsState.Label V) :
    Option (State V κ × List (Event V κ)) :=
  (FsState.step runner p.source label).map fun next =>
    ({ p with source := next.1 }, next.2.map .source)

/-- `CommandTrigger::start` puts the request into the lane's channel and hands its lifecycle to
the runner. -/
def step (runner : FsStateRunner) (commands : Lane.CommandLaneRunner κ) (command : κ)
    (p : State V κ) : Label V κ → Option (State V κ × List (Event V κ))
  | .source label =>
    if ofSource label then
      (sourceStep runner p label).map fun next => (next.1, notified label ++ next.2)
    else none
  | .submit =>
    (Lane.step commands p.lane (.send command)).bind fun sent =>
      (FsState.step runner p.source (.startDone true)).map fun next =>
        (⟨next.1, sent.1, p.log ++ sent.2, p.lane.nextLifecycle, 0⟩,
          sent.2.map .lane ++ next.2.map .source)
  | .refused =>
    if p.lane.pc = .returned then sourceStep runner p (.startDone false) else none
  | .hear =>
    match (p.log.filterMap (message p.lifecycle))[p.heard]? with
    | some message => sourceStep runner { p with heard := p.heard + 1 } (.lifecycle (some message))
    | none =>
      if p.log.contains (.closed p.lifecycle) then sourceStep runner p (.lifecycle none) else none
  | .lane label =>
    if ofLane label then
      (Lane.step commands p.lane label).map fun next =>
        ({ p with lane := next.1, log := p.log ++ next.2 }, next.2.map .lane)
    else none
  | .advance duration =>
    (FsState.step runner p.source (.advance duration)).bind fun next =>
      (Lane.step commands p.lane (.advance duration)).map fun after =>
        ({ p with source := next.1, lane := after.1, log := p.log ++ after.2 },
          next.2.map .source ++ after.2.map .lane)

end

def Event.Notified : Event V κ → Prop
  | .notified => True
  | _ => False

/-- The runner takes an event up. -/
def Event.Taken : Event V κ → Prop
  | .source (.consumed _) => True
  | _ => False

/-- The runner takes an event up that it does not attribute to its own command. -/
def Event.Attended : Event V κ → Prop
  | .source (.consumed false) => True
  | _ => False

/-- The state is read again, which only a `state_cmd` can do, or the command is executed. -/
def Event.Answers (runner : FsStateRunner) (command : κ) : Event V κ → Prop
  | .source (.readStarted .compare) => runner.stateReader = true
  | .lane (.executionStarted name) => name = command
  | _ => False

/-- The runner is bound to read or to submit before it waits for work again. -/
def owes : Pc → Bool
  | .settleHead _ => true
  | .settling _ => true
  | .comparing dirty => dirty.first.isSome
  | .submitting .batch _ => true
  | .submitting .startup dirty => dirty.first.isSome
  | .ownRun _ dirty _ => dirty.first.isSome
  | .ownSettle _ dirty _ => dirty.first.isSome
  | .rebaselining _ dirty => dirty.first.isSome
  | _ => false

theorem owes_head (pc : Pc) : owes pc.head = owes pc := by cases pc <;> rfl

theorem owes_of_head {pc next : Pc} (same : next.head = pc.head) : owes next = owes pc := by
  rw [← owes_head next, same, owes_head]

theorem owes_conclude {dirty : DirtyTracker} (noted : dirty.first.isSome = true) :
    owes (FsState.conclude (V := V) dirty).1 = true := by
  rcases FsState.conclude_cases (V := V) dirty with ⟨clean, -⟩ | ⟨batch, -, next⟩
  · rw [clean] at noted
    cases noted
  · rw [next]
    rfl

theorem noteNow_isSome (now : Nat) (dirty : DirtyTracker) :
    (dirty.noteNow now).first.isSome = true :=
  Option.isSome_iff_ne_none.mpr (dirty.noteNow_first now)

theorem owes_afterSettle {runner : FsStateRunner} {now : Nat} {origin : Origin}
    {dirty : DirtyTracker} (noted : dirty.first.isSome = true) :
    owes (FsState.afterSettle (V := V) runner now origin dirty).1 = true := by
  rw [FsState.afterSettle]
  split
  · exact noted
  · exact owes_conclude noted

theorem owes_runSucceeded {runner : FsStateRunner} {now : Nat} {origin : Origin}
    {dirty : DirtyTracker} (noted : dirty.first.isSome = true) :
    owes (FsState.runSucceeded (V := V) runner now origin dirty).1 = true := by
  rw [FsState.runSucceeded]
  split
  · exact owes_afterSettle noted
  · exact noted

/-- A failed batch is tried again, whatever was noted beside it. -/
theorem owes_runFailed {now : Nat} {origin : Origin} {dirty : DirtyTracker}
    (noted : origin = .startup → dirty.first.isSome = true) :
    owes (FsState.runFailed (V := V) now origin dirty).1 = true := by
  cases origin with
  | batch => exact owes_conclude (noteNow_isSome now dirty)
  | startup => exact owes_conclude (noted rfl)

section Runner
variable [DecidableEq V] {runner : FsStateRunner} {s t : FsState.State V} {label : FsState.Label V}
  {es : List (FsState.Event V)}

/-- A submission goes out only through the trigger. -/
theorem submitting_stays (own : ofSource label = true) {origin : Origin} {dirty : DirtyTracker}
    (hpc : s.pc = .submitting origin dirty) (h : FsState.step runner s label = some (t, es)) :
    ∀ o d r, t.pc ≠ .ownRun o d r := by
  intro o d r after
  cases label with
  | advance | startDone | lifecycle => cases own
  | notify event =>
    simp only [FsState.step] at h
    split at h <;> cases h
    rw [hpc] at after
    cases after
  | closeEvents | setShutdown | dropShutdown | setStartup | dropStartup =>
    cases h
    rw [hpc] at after
    cases after
  | proceed | timer | startupChanged | readDone =>
    simp [FsState.step, FsState.proceed, FsState.timer, FsState.startupChanged, FsState.readDone,
      hpc] at h
  | shutdownChanged =>
    simp only [FsState.step, FsState.shutdownChanged, hpc] at h
    split at h
    · cases h
    · cases h
      dsimp only at after
      split at after <;> cases after
  | recv =>
    simp only [FsState.step, FsState.recv, hpc] at h
    split at h <;> cases h
    cases after

omit [DecidableEq V] in
theorem finished_move (move : FsState.Move runner s t es) {origin : Origin}
    {report : CommandRunReport} {time : Nat} (mem : .finished origin report time ∈ es) :
    ∃ o d r, s.pc = .ownRun o d r := by
  cases move with
  | fail o d event failing =>
    rcases List.mem_cons.mp mem with rfl | mem
    · generalize s.pc = pc at failing
      cases failing with
      | finished => exact ⟨_, _, _, rfl⟩
    · cases FsState.mem_runFailed mem
  | succeed o d r report good before => exact ⟨o, d, r, before⟩
  | startStopped error ready why before =>
    rcases why with ⟨-, rfl⟩ | rfl <;> simp at mem
  | settleOwn o d deadline before due =>
    rcases FsState.mem_afterSettle mem with mem | mem | mem <;> cases mem
  | quiet | stop => cases mem
  | _ => simp at mem

/-- Only the lifecycle channel tells of an end. -/
theorem not_finished (own : ofSource label = true) (h : FsState.step runner s label = some (t, es))
    (origin : Origin) (report : CommandRunReport) (time : Nat) :
    .finished origin report time ∉ es := by
  intro mem
  obtain ⟨o, d, r, hpc⟩ := finished_move (FsState.step_move h) mem
  cases label with
  | advance | startDone | lifecycle => cases own
  | notify event =>
    simp only [FsState.step] at h
    split at h <;> cases h
    cases mem
  | closeEvents | setShutdown | dropShutdown | setStartup | dropStartup =>
    cases h
    simp at mem
  | proceed | timer | startupChanged | readDone =>
    simp [FsState.step, FsState.proceed, FsState.timer, FsState.startupChanged, FsState.readDone,
      hpc] at h
  | shutdownChanged =>
    simp only [FsState.step, FsState.shutdownChanged, hpc] at h
    split at h <;> cases h
    cases mem
  | recv =>
    simp only [FsState.step, FsState.recv, hpc] at h
    split at h
    · cases h
    · cases h
    · split at h <;> cases h <;> simp at mem

end Runner

section Invariant
variable [DecidableEq κ] {runner : FsStateRunner} {commands : Lane.CommandLaneRunner κ}
  {command : κ} {p q : State V κ} {tr : List (Event V κ)}

/-- Where an event that was taken up and not yet answered is on its way. -/
inductive Carried (command : κ) (p : State V κ) : Prop where
  | owed (h : owes p.source.pc = true)
  | requested (dirty : DirtyTracker) (running : Bool)
      (own : p.source.pc = .ownRun .batch dirty running)
      (waiting : Lane.Unstarted command p.lifecycle p.lane ∨ p.lane.pc = .returned)
      (failed : ∀ report, .finished p.lifecycle report ∈ p.log → report.success = false)
  | ended (h : p.source.pc = .ended)

/-- Every event the source is notified of is taken up or queued, and every one it has attended
to is answered or on its way. -/
structure Heeds (runner : FsStateRunner) (commands : Lane.CommandLaneRunner κ) (command : κ)
    (tr : List (Event V κ)) (p : State V κ) : Prop where
  accounts : Lane.Accounts commands p.log p.lane
  taken : FollowedBy Event.Notified Event.Taken tr ∨ p.source.events.items ≠ [] ∨
    p.source.pc = .ended
  answered : FollowedBy Event.Attended (Event.Answers runner command) tr ∨ Carried command p

variable {s t : FsState.State V} {es : List (FsState.Event V)}

omit [DecidableEq κ] in
theorem not_notified_source {x : Event V κ} (mem : x ∈ es.map .source) : ¬ x.Notified := by
  obtain ⟨e, -, rfl⟩ := List.mem_map.mp mem
  exact id

theorem ended_move (move : FsState.Move runner s t es) (h : s.pc = .ended) : t.pc = .ended := by
  cases move with
  | quiet same =>
    have kept := same.pc
    rw [h] at kept
    generalize t.pc = pc at kept
    cases pc <;> cases kept
    rfl
  | signal => exact h
  | stop after => exact after
  | startRead before | unread before | started _ before | startFailed _ _ before
  | startStopped _ _ _ before | unchanged _ _ before | changed _ _ before | compareFailed _ _ before
  | compareStopped _ before | succeed _ _ _ _ _ before | settleOwn _ _ _ before
  | rebaselined _ _ _ before | rebaselineFailed _ _ _ before | rebaselineStopped _ _ before =>
    cases h.symm.trans before
  | startupTrigger _ before | compare _ before | submitUnread _ before =>
    rw [h] at before
    cases before
  | take _ _ _ _ before =>
    rw [h] at before
    rcases before with before | ⟨old, before⟩ <;> cases before
  | progress _ _ _ before =>
    rw [h] at before
    rcases before with before | ⟨old, before⟩ <;> cases before
  | note _ _ _ _ tracking =>
    rw [h] at tracking
    cases tracking
  | suppress => exact h
  | fail _ _ _ failing =>
    rw [h] at failing
    cases failing

/-- Only taking an event up shortens the queue, and only the end of the task gives it up. -/
theorem taken_move (move : FsState.Move runner s t es)
    (waits : s.events.items ≠ [] ∨ s.pc = .ended) :
    (∃ suppressed, .consumed suppressed ∈ es) ∨ t.events.items ≠ [] ∨ t.pc = .ended := by
  rcases waits with waits | ended
  · cases move with
    | quiet same => exact Or.inr (Or.inl (same.items waits))
    | stop after => exact Or.inr (Or.inr after)
    | take | note => exact Or.inl ⟨false, by simp⟩
    | suppress => exact Or.inl ⟨true, by simp⟩
    | _ => exact Or.inr (Or.inl waits)
  · exact Or.inr (Or.inr (ended_move move ended))

omit [DecidableEq κ] in
theorem not_attended_source {x : Event V κ} (quiet : .consumed false ∉ es)
    (mem : x ∈ es.map .source) : ¬ x.Attended := by
  obtain ⟨e, he, rfl⟩ := List.mem_map.mp mem
  intro attended
  cases e with
  | consumed suppressed =>
    cases suppressed with
    | false => exact quiet he
    | true => exact attended
  | _ => exact attended

/-- While no submission of a batch is out, only the place of the runner carries anything. -/
theorem Carried.owes_at (carried : Carried command p)
    (unsent : ∀ dirty running, p.source.pc ≠ .ownRun .batch dirty running)
    (live : p.source.pc ≠ .ended) : owes p.source.pc = true := by
  cases carried with
  | owed h => exact h
  | requested dirty running own => exact absurd own (unsent dirty running)
  | ended h => exact absurd h live

/-- What is on its way stays there while the runner stays where it is. -/
theorem Carried.stays (carried : Carried command p) (heard : Nat)
    (same : t.pc.head = p.source.pc.head) :
    Carried command { p with source := t, heard := heard } := by
  cases carried with
  | owed h => exact .owed ((owes_of_head same).trans h)
  | requested dirty running own waiting failed =>
    refine .requested dirty running ?_ waiting failed
    rw [own] at same
    generalize t.pc = pc at same
    cases pc <;> cases same
    rfl
  | ended h =>
    refine .ended ?_
    rw [h] at same
    generalize t.pc = pc at same
    cases pc <;> cases same
    rfl

theorem failing_pc {now : Nat} {pc : Pc} {origin : Origin} {dirty : DirtyTracker}
    {event : FsState.Event V} (failing : FsState.Failing now pc origin dirty event) :
    event ≠ .consumed false ∧
      (pc = .submitting origin dirty ∨ ∃ running, pc = .ownRun origin dirty running) := by
  cases failing with
  | rejected => exact ⟨by simp, Or.inl rfl⟩
  | lost _ _ running => exact ⟨by simp, Or.inr ⟨running, rfl⟩⟩
  | finished _ _ running => exact ⟨by simp, Or.inr ⟨running, rfl⟩⟩

theorem owes_tracking {now : Nat} {pc next : Pc} (tracking : FsState.Tracking now pc next) :
    owes next = true := by
  cases tracking with
  | comparing dirty => exact noteNow_isSome now dirty
  | submitting origin dirty =>
    cases origin with
    | batch => rfl
    | startup => exact noteNow_isSome now dirty
  | ownRun origin dirty => exact noteNow_isSome now dirty

/-- The runner by itself: `begun` says that no submission goes out in this step, `told` that the
lane has sent what the runner hears. -/
theorem answered_move
    (old : FollowedBy Event.Attended (Event.Answers runner command) tr ∨ Carried command p)
    (move : FsState.Move runner p.source t es) (heard : Nat)
    (begun : ∀ origin dirty, p.source.pc = .submitting origin dirty →
      ∀ o d r, t.pc ≠ .ownRun o d r)
    (told : ∀ origin report time, .finished origin report time ∈ es →
      .finished p.lifecycle report ∈ p.log) :
    FollowedBy Event.Attended (Event.Answers runner command) (tr ++ es.map .source) ∨
      Carried command { p with source := t, heard := heard } := by
  -- where no event is attended to, what was on its way has to go on
  have keep (quiet : .consumed false ∉ es)
      (carries : Carried command p → Carried command { p with source := t, heard := heard }) :
      FollowedBy Event.Attended (Event.Answers runner command) (tr ++ es.map .source) ∨
        Carried command { p with source := t, heard := heard } := by
    rcases old with followed | carried
    · exact Or.inl (followed.append fun x mem => not_attended_source quiet mem)
    · exact Or.inr (carries carried)
  have moved (quiet : .consumed false ∉ es)
      (unsent : ∀ dirty running, p.source.pc ≠ .ownRun .batch dirty running)
      (live : p.source.pc ≠ .ended) (owed : owes p.source.pc = true → owes t.pc = true) :
      FollowedBy Event.Attended (Event.Answers runner command) (tr ++ es.map .source) ∨
        Carried command { p with source := t, heard := heard } :=
    keep quiet fun carried => .owed (owed (carried.owes_at unsent live))
  cases move with
  | quiet same => exact keep (by simp) fun carried => carried.stays heard same.pc
  | signal => exact keep (by simp) fun carried => carried.stays heard rfl
  | suppress => exact keep (by simp) fun carried => carried.stays heard rfl
  | stop after => exact Or.inr (.ended after)
  | startStopped | compareStopped | rebaselineStopped => exact Or.inr (.ended rfl)
  | startRead before | unread before | started _ before | startFailed _ _ before =>
    exact moved (by simp) (by simp [before]) (by simp [before]) (by simp [before, owes])
  | startupTrigger signal before =>
    refine moved (by simp) ?_ ?_ ?_
    · intro dirty running own
      rw [own] at before
      cases before
    · intro ended
      rw [ended] at before
      cases before
    · intro owed
      rw [← owes_head, before] at owed
      cases owed
  | take => exact Or.inr (.owed rfl)
  | note event rest pc items tracking => exact Or.inr (.owed (owes_tracking tracking))
  | compare batch before reader =>
    refine Or.inl (followedBy_append_answer ⟨.source (.readStarted .compare), by simp, reader⟩ ?_)
    intro x mem
    exact not_attended_source (by simp) mem
  | submitUnread => exact Or.inr (.owed rfl)
  | changed => exact Or.inr (.owed rfl)
  | unchanged dirty value before | compareFailed dirty value before =>
    refine moved (by simp) (by simp [before]) (by simp [before]) ?_
    intro owed
    rw [before] at owed
    exact owes_conclude owed
  | rebaselined origin dirty value before | rebaselineFailed origin dirty value before =>
    refine moved (by simp) (by simp [before]) (by simp [before]) ?_
    intro owed
    rw [before] at owed
    exact owes_conclude owed
  | settleOwn origin dirty deadline before =>
    refine moved ?_ (by simp [before]) (by simp [before]) ?_
    · intro mem
      rcases FsState.mem_afterSettle mem with mem | mem | mem <;> cases mem
    · intro owed
      rw [before] at owed
      exact owes_afterSettle owed
  | progress origin dirty running before =>
    rcases before with before | ⟨was, before⟩
    · exact absurd rfl (begun origin dirty before origin dirty running)
    · refine keep (by simp) ?_
      intro carried
      cases carried with
      | owed h =>
        rw [before] at h
        exact .owed h
      | requested held _ own waiting failed =>
        obtain ⟨rfl, rfl, -⟩ := Pc.ownRun.inj (before.symm.trans own)
        exact .requested dirty running rfl waiting failed
      | ended h => cases before.symm.trans h
  | fail origin dirty event failing =>
    obtain ⟨other, place⟩ := failing_pc failing
    have quiet : .consumed false ∉
        event :: (FsState.runFailed (V := V) p.source.now origin dirty).2 := by
      intro mem
      rcases List.mem_cons.mp mem with same | mem
      · exact other same.symm
      · cases FsState.mem_runFailed mem
    cases origin with
    | batch => exact Or.inr (.owed (owes_runFailed (by simp)))
    | startup =>
      refine moved quiet ?_ ?_ ?_
      · intro d r own
        rcases place with before | ⟨running, before⟩ <;> cases before.symm.trans own
      · intro ended
        rcases place with before | ⟨running, before⟩ <;> cases before.symm.trans ended
      · intro owed
        refine owes_runFailed fun _ => ?_
        rcases place with before | ⟨running, before⟩ <;> rw [before] at owed <;> exact owed
  | succeed origin dirty running report good before =>
    refine keep ?_ ?_
    · intro mem
      rcases List.mem_cons.mp mem with mem | mem
      · cases mem
      · rcases FsState.mem_runSucceeded mem with mem | mem | mem <;> cases mem
    · intro carried
      cases carried with
      | owed h =>
        rw [before] at h
        exact .owed (owes_runSucceeded h)
      | requested held _ own waiting failed =>
        have bad := failed report (told origin report p.source.now (by simp))
        rw [good] at bad
        cases bad
      | ended h => cases before.symm.trans h

theorem heeds_move (old : Heeds runner commands command tr p)
    (move : FsState.Move runner p.source t es) (heard : Nat)
    (begun : ∀ origin dirty, p.source.pc = .submitting origin dirty →
      ∀ o d r, t.pc ≠ .ownRun o d r)
    (told : ∀ origin report time, .finished origin report time ∈ es →
      .finished p.lifecycle report ∈ p.log) :
    Heeds runner commands command (tr ++ es.map .source)
      { p with source := t, heard := heard } := by
  refine ⟨old.accounts, ?_, answered_move old.answered move heard begun told⟩
  rcases old.taken with followed | waits
  · exact Or.inl (followed.append fun x mem => not_notified_source mem)
  · rcases taken_move move waits with ⟨suppressed, mem⟩ | waits
    · refine Or.inl (followedBy_append_answer ⟨.source (.consumed suppressed), ?_, trivial⟩ ?_)
      · exact List.mem_map_of_mem mem
      · exact fun x mem => not_notified_source mem
    · exact Or.inr waits

end Invariant

section Steps
variable [DecidableEq V] [DecidableEq κ] {runner : FsStateRunner}
  {commands : Lane.CommandLaneRunner κ} {command : κ} {p q : State V κ}
  {tr es : List (Event V κ)}

omit [DecidableEq κ] in
theorem sourceStep_some {label : FsState.Label V} (h : sourceStep runner p label = some (q, es)) :
    ∃ next made, FsState.step runner p.source label = some (next, made) ∧
      q = { p with source := next } ∧ es = made.map .source := by
  obtain ⟨⟨next, made⟩, hs, heq⟩ := Option.map_eq_some_iff.mp h
  obtain ⟨rfl, rfl⟩ := Prod.mk.inj heq
  exact ⟨next, made, hs, rfl, rfl⟩

/-- The event is in the queue now, or it is dropped before a full one. -/
theorem heeds_notify (slots : 0 < runner.capacity) (old : Heeds runner commands command tr p)
    {event : FsState.FsStateEvent} {next : FsState.State V} {made : List (FsState.Event V)}
    (h : FsState.step runner p.source (.notify event) = some (next, made)) :
    Heeds runner commands command (tr ++ (.notified :: made.map .source))
      { p with source := next } := by
  have move := FsState.step_move h
  simp only [FsState.step] at h
  split at h
  · obtain ⟨rfl, rfl⟩ := Prod.mk.inj (Option.some.inj h)
    refine ⟨old.accounts, Or.inr (Or.inl (Mpsc.trySend_nonempty slots event p.source.events)), ?_⟩
    rcases old.answered with followed | carried
    · exact Or.inl (followed.append (by simp [Event.Attended]))
    · exact Or.inr (carried.stays p.heard rfl)
  · cases h

theorem heeds_source (slots : 0 < runner.capacity) (old : Heeds runner commands command tr p)
    {label : FsState.Label V}
    (h : step runner commands command p (.source label) = some (q, es)) :
    Heeds runner commands command (tr ++ es) q := by
  simp only [step] at h
  split at h
  · rename_i own
    obtain ⟨⟨m, made⟩, hs, heq⟩ := Option.map_eq_some_iff.mp h
    obtain ⟨rfl, rfl⟩ := Prod.mk.inj heq
    obtain ⟨next, made, ran, rfl, rfl⟩ := sourceStep_some hs
    have moved : Heeds runner commands command (tr ++ made.map .source)
        { p with source := next } := by
      refine heeds_move old (FsState.step_move ran) p.heard ?_ ?_
      · intro origin dirty before
        exact submitting_stays own before ran
      · intro origin report time mem
        exact absurd mem (not_finished own ran origin report time)
    cases label with
    | notify event => exact heeds_notify slots old ran
    | _ => exact moved
  · cases h

omit [DecidableEq V] [DecidableEq κ] in
theorem not_attended_lane {x : Event V κ} {made : List (Lane.Event κ)}
    (mem : x ∈ made.map .lane) : ¬ x.Attended ∧ ¬ x.Notified := by
  obtain ⟨e, -, rfl⟩ := List.mem_map.mp mem
  exact ⟨id, id⟩

/-- A lane that returns, or has returned, reports nothing but cancellations. -/
theorem returned_reports {l m : Lane.State κ} {made : List (Lane.Event κ)}
    (move : Lane.Move commands l m made) (after : m.pc = .returned) {id : Nat}
    {report : CommandRunReport} (mem : .finished id report ∈ made) : report = .cancelled := by
  cases move with
  | quiet | send | take => cases mem
  | absorb | join => simp at mem
  | execute name waiters before running =>
    rw [after] at running
    cases running
  | reject name waiters unknown held left items next before dispatch =>
    rw [after] at dispatch
    cases dispatch
  | complete name waiters report genuine before draining =>
    rw [after] at draining
    cases draining
  | retire held =>
    simp only [Lane.finishWaiters, Lane.cancelPending, List.mem_append, List.mem_map] at mem
    rcases mem with (⟨w, -, same⟩ | ⟨w, -, same⟩) | ⟨r, -, other⟩
    · exact (Lane.Event.finished.inj same).2.symm
    · exact (Lane.Event.finished.inj same).2.symm
    · cases other

theorem unstarted_unreported {l : Lane.State κ} {log : List (Lane.Event κ)}
    (accounts : Lane.Accounts commands log l) {id : Nat} (waiting : Lane.Unstarted command id l)
    (report : CommandRunReport) : .finished id report ∉ log := by
  intro mem
  have counted : 0 < Lane.finishedCount log id :=
    List.countP_pos_iff.mpr ⟨_, mem, by simp [Lane.Event.isFinished]⟩
  exact accounts.not_unstarted (by omega) waiting

omit [DecidableEq V] in
theorem heeds_lane (known : commands.command command ≠ none)
    (old : Heeds runner commands command tr p) {m : Lane.State κ} {made : List (Lane.Event κ)}
    (move : Lane.Move commands p.lane m made) :
    Heeds runner commands command (tr ++ made.map .lane)
      { p with lane := m, log := p.log ++ made } := by
  have accounts := Lane.accounts_step old.accounts move
  refine ⟨accounts, ?_, ?_⟩
  · rcases old.taken with followed | waits
    · exact Or.inl (followed.append fun x mem => (not_attended_lane mem).2)
    · exact Or.inr waits
  · have quiet : ∀ x ∈ made.map (Event.lane : _ → Event V κ), ¬ x.Attended :=
      fun x mem => (not_attended_lane mem).1
    rcases old.answered with followed | carried
    · exact Or.inl (followed.append quiet)
    · cases carried with
      | owed h => exact Or.inr (.owed h)
      | ended h => exact Or.inr (.ended h)
      | requested dirty running own waiting failed =>
        -- a lane that has returned can only have cancelled the request
        have gone (after : m.pc = .returned) : Carried command
            { p with lane := m, log := p.log ++ made } := by
          refine .requested dirty running own (Or.inr after) ?_
          intro report mem
          rcases List.mem_append.mp mem with mem | mem
          · exact failed report mem
          · rw [returned_reports move after mem]
            rfl
        rcases waiting with waiting | returned
        · rcases Lane.unstarted_move known waiting move with after | started | still
          · exact Or.inr (gone after)
          · refine Or.inl (followedBy_append_answer ⟨.lane (.executionStarted command), ?_, rfl⟩
              quiet)
            exact List.mem_map_of_mem started
          · refine Or.inr (.requested dirty running own (Or.inl still) ?_)
            intro report mem
            exact absurd mem (unstarted_unreported accounts still report)
        · exact Or.inr (gone (Lane.returned_move returned move))

theorem heeds_submit (old : Heeds runner commands command tr p)
    (h : step runner commands command p .submit = some (q, es)) :
    Heeds runner commands command (tr ++ es) q := by
  simp only [step, Option.bind_eq_some_iff] at h
  obtain ⟨⟨m, sent⟩, hl, h⟩ := h
  obtain ⟨⟨next, made⟩, hs, heq⟩ := Option.map_eq_some_iff.mp h
  obtain ⟨rfl, rfl⟩ := Prod.mk.inj heq
  have accounts := Lane.accounts_step old.accounts (Lane.step_move hl)
  simp only [Lane.step, Lane.send] at hl
  split at hl
  · cases hl
  · obtain ⟨requests, hsend, heq⟩ := Option.map_eq_some_iff.mp hl
    obtain ⟨rfl, rfl⟩ := Prod.mk.inj heq
    rw [List.append_nil] at accounts
    have waiting : Lane.Unstarted command p.lane.nextLifecycle
        { p.lane with requests := requests, nextLifecycle := p.lane.nextLifecycle + 1 } :=
      .queued (by simp [(Mpsc.send_some hsend).1])
    simp only [FsState.step, FsState.startDone] at hs
    split at hs
    · rename_i origin dirty before
      simp only [↓reduceIte, Option.some.injEq] at hs
      obtain ⟨rfl, rfl⟩ := Prod.mk.inj hs
      simp only [List.map_nil, List.append_nil]
      refine ⟨by simpa using accounts, ?_, ?_⟩
      · rcases old.taken with followed | queued | ended
        · exact Or.inl followed
        · exact Or.inr (Or.inl queued)
        · cases before.symm.trans ended
      · rcases old.answered with followed | carried
        · exact Or.inl followed
        · have owed := carried.owes_at (by simp [before]) (by simp [before])
          rw [before] at owed
          cases origin with
          | startup => exact Or.inr (.owed owed)
          | batch =>
            refine Or.inr (.requested dirty false rfl (Or.inl waiting) ?_)
            intro report mem
            exact absurd (by simpa using mem) (unstarted_unreported accounts waiting report)
    · cases hs

omit [DecidableEq V] in
theorem conclude_pc (dirty : DirtyTracker) (o : Origin) (d : DirtyTracker) (r : Bool) :
    (FsState.conclude (V := V) dirty).1 ≠ .ownRun o d r := by
  rcases FsState.conclude_cases (V := V) dirty with ⟨-, next⟩ | ⟨batch, -, next⟩ <;> simp [next]

theorem heeds_refused (old : Heeds runner commands command tr p)
    (h : step runner commands command p .refused = some (q, es)) :
    Heeds runner commands command (tr ++ es) q := by
  simp only [step] at h
  split at h
  · obtain ⟨next, made, ran, rfl, rfl⟩ := sourceStep_some h
    refine heeds_move old (FsState.step_move ran) p.heard ?_ ?_
    · intro origin dirty before o d r
      simp only [FsState.step, FsState.startDone, before, Bool.false_eq_true, ↓reduceIte,
        Option.some.injEq] at ran
      obtain ⟨rfl, -⟩ := Prod.mk.inj ran
      cases origin with
      | batch => exact conclude_pc _ o d r
      | startup => exact conclude_pc _ o d r
    · intro origin report time mem
      obtain ⟨o, d, r, running⟩ := finished_move (FsState.step_move ran) mem
      simp [FsState.step, FsState.startDone, running] at ran
  · cases h

/-- What the runner hears the lane has sent. -/
theorem heeds_lifecycle (old : Heeds runner commands command tr p)
    {message : Option CommandLifecycle} {next : FsState.State V} {made : List (FsState.Event V)}
    (sent : ∀ report, message = some (.finished report) → .finished p.lifecycle report ∈ p.log)
    (ran : FsState.step runner p.source (.lifecycle message) = some (next, made)) (heard : Nat) :
    Heeds runner commands command (tr ++ made.map .source)
      { p with source := next, heard := heard } := by
  refine heeds_move old (FsState.step_move ran) heard ?_ ?_
  · intro origin dirty before
    simp [FsState.step, FsState.lifecycle, before] at ran
  · intro origin report time mem
    obtain ⟨o, d, r, running⟩ := finished_move (FsState.step_move ran) mem
    simp only [FsState.step, FsState.lifecycle, running] at ran
    split at ran
    · cases ran
      cases mem
    · rename_i told
      obtain ⟨rfl, rfl⟩ := Prod.mk.inj (Option.some.inj ran)
      refine sent report ?_
      rcases List.mem_cons.mp mem with same | mem
      · rw [(FsState.Event.finished.inj same).2.1]
      · split at mem
        · rcases FsState.mem_runSucceeded mem with mem | mem | mem <;> cases mem
        · cases FsState.mem_runFailed mem
    · obtain ⟨rfl, rfl⟩ := Prod.mk.inj (Option.some.inj ran)
      rcases List.mem_cons.mp mem with same | mem
      · cases same
      · cases FsState.mem_runFailed mem

theorem heeds_hear (old : Heeds runner commands command tr p)
    (h : step runner commands command p .hear = some (q, es)) :
    Heeds runner commands command (tr ++ es) q := by
  simp only [step] at h
  split at h
  · rename_i told next_told
    obtain ⟨next, made, ran, rfl, rfl⟩ := sourceStep_some h
    refine heeds_lifecycle old ?_ ran (p.heard + 1)
    rintro report same
    obtain ⟨x, mem, shown⟩ := List.mem_filterMap.mp (List.mem_of_getElem? next_told)
    rw [Option.some.inj same] at shown
    cases x with
    | finished id other =>
      simp only [message] at shown
      split at shown
      · rename_i here
        obtain rfl := CommandLifecycle.finished.inj (Option.some.inj shown)
        rwa [here] at mem
      · cases shown
    | started id =>
      simp only [message] at shown
      split at shown <;> cases shown
    | _ => cases shown
  · split at h
    · obtain ⟨next, made, ran, rfl, rfl⟩ := sourceStep_some h
      exact heeds_lifecycle old (by simp) ran p.heard
    · cases h

theorem heeds_step (slots : 0 < runner.capacity) (known : commands.command command ≠ none)
    (old : Heeds runner commands command tr p) {label : Label V κ}
    (h : step runner commands command p label = some (q, es)) :
    Heeds runner commands command (tr ++ es) q := by
  cases label with
  | source label => exact heeds_source slots old h
  | submit => exact heeds_submit old h
  | refused => exact heeds_refused old h
  | hear => exact heeds_hear old h
  | lane label =>
    simp only [step] at h
    split at h
    · obtain ⟨⟨m, made⟩, hl, heq⟩ := Option.map_eq_some_iff.mp h
      obtain ⟨rfl, rfl⟩ := Prod.mk.inj heq
      exact heeds_lane known old (Lane.step_move hl)
    · cases h
  | advance duration =>
    simp only [step, Option.bind_eq_some_iff] at h
    obtain ⟨⟨next, made⟩, hs, h⟩ := h
    obtain ⟨⟨m, laid⟩, hl, heq⟩ := Option.map_eq_some_iff.mp h
    obtain ⟨rfl, rfl⟩ := Prod.mk.inj heq
    have moved := heeds_move old (FsState.step_move hs) p.heard ?_ ?_
    · rw [← List.append_assoc]
      exact heeds_lane known moved (Lane.step_move hl)
    · intro origin dirty before o d r after
      cases hs
      cases before.symm.trans after
    · intro origin report time mem
      cases hs
      cases mem

theorem heeds_run (slots : 0 < runner.capacity) (known : commands.command command ≠ none)
    {runOnStartup : Bool} {labels : List (Label V κ)}
    (run : exec (step runner commands command) (.start runOnStartup) labels = some (p, tr)) :
    Heeds runner commands command tr p :=
  exec_invariant (fun _ _ _ _ _ old h => heeds_step slots known old h)
    ⟨Lane.accounts_start, Or.inl followedBy_nil, Or.inl followedBy_nil⟩ run

/-- Waiting for work with nothing queued, the source has taken up an event since the last
notification. -/
theorem taken_at_rest (slots : 0 < runner.capacity) (known : commands.command command ≠ none)
    {runOnStartup : Bool} {labels : List (Label V κ)}
    (run : exec (step runner commands command) (.start runOnStartup) labels = some (p, tr))
    (waits : p.source.pc.head = .recvHead) (empty : p.source.events.items = []) :
    FollowedBy Event.Notified Event.Taken tr := by
  rcases (heeds_run slots known run).taken with followed | queued | ended
  · exact followed
  · exact absurd empty queued
  · rw [ended] at waits
    cases waits

theorem answered_at_rest (slots : 0 < runner.capacity) (known : commands.command command ≠ none)
    {runOnStartup : Bool} {labels : List (Label V κ)}
    (run : exec (step runner commands command) (.start runOnStartup) labels = some (p, tr))
    (waits : p.source.pc.head = .recvHead) :
    FollowedBy Event.Attended (Event.Answers runner command) tr := by
  rcases (heeds_run slots known run).answered with followed | carried
  · exact followed
  · have owed := carried.owes_at ?_ ?_
    · rw [← owes_head, waits] at owed
      cases owed
    · intro dirty running own
      rw [own] at waits
      cases waits
    · intro ended
      rw [ended] at waits
      cases waits

/-- Whenever the source waits for work with nothing queued, it has taken up an event since the last
notification, and each event it attended to has been followed by a new look at the state or by an
execution of the command. -/
theorem attended_events_are_answered (slots : 0 < runner.capacity)
    (known : commands.command command ≠ none) {runOnStartup : Bool} {labels : List (Label V κ)}
    (run : exec (step runner commands command) (.start runOnStartup) labels = some (p, tr))
    (waits : p.source.pc.head = .recvHead) (empty : p.source.events.items = []) :
    FollowedBy Event.Notified Event.Taken tr ∧
      FollowedBy Event.Attended (Event.Answers runner command) tr :=
  ⟨taken_at_rest slots known run waits empty, answered_at_rest slots known run waits⟩

private def exampleRunner : FsStateRunner := ⟨1, 5, 1, false, false, 64⟩

private def exampleLane : Lane.CommandLaneRunner Bool := ⟨[⟨true, 0⟩], 64⟩

/-- A request and its execution, during which a file is written. -/
private def exampleExecution : List (Label Unit Bool) :=
  [.submit, .lane .recv, .lane .proceed, .lane .proceed, .hear, .source (.notify .changed),
    .source .recv, .lane (.finish (.ok (.ofExitStatus (some 0) none))), .lane .proceed,
    .lane .proceed, .lane .proceed, .lane .proceed, .hear, .advance 1, .source .timer]

/-- The second event comes between the end of its batch and the request for it. -/
private def exampleDay : List (Label Unit Bool) :=
  [.lane .proceed, .source .proceed, .source .proceed, .source (.notify .changed), .source .recv,
    .source .proceed, .advance 1, .source .timer, .source (.notify .changed), .source .recv] ++
    exampleExecution ++ [.source .proceed] ++ exampleExecution

private abbrev exampleStep := step (V := Unit) exampleRunner exampleLane true

theorem example_events_are_answered :
    let r := (exec exampleStep (.start false) exampleDay).get (by decide +kernel)
    r.2.countP (fun e => e matches .source (.consumed _)) = 4 ∧
      r.2.countP (fun e => e matches .source (.consumed false)) = 2 ∧
      FollowedBy Event.Attended (Event.Answers exampleRunner true) r.2 := by
  intro r
  have run := (Option.some_get
    (by decide +kernel : (exec exampleStep (.start false) exampleDay).isSome = true)).symm
  refine ⟨by decide +kernel, by decide +kernel, ?_⟩
  exact (attended_events_are_answered (by decide) (by decide) run (by decide +kernel)
    (by decide +kernel)).2

end Steps

end FsSource

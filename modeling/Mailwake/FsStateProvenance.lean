import Mailwake.FsStateMoves

/-!
# Where the baseline of a filesystem-state source comes from

The baseline is what the start-up read and the reads after a successful own run leave
behind, and nothing else writes it. A submission is the start-up trigger or follows a
comparing read that differed from the baseline.
-/
namespace FsState
open Channel CommandReport Transition
universe u
variable {V : Type u}

/-- The effect of an event on the baseline. A source that stops at its start-up read
keeps none. -/
def replayEvent (baseline : Option (Baseline V)) : Event V → Option (Baseline V)
  | .readDone .start (.ok value) => some (.known value)
  | .readDone .start (.error .cancelled) => none
  | .readDone .start (.error _) => some .unknown
  | .initialReady false => none
  | .readDone .rebaseline (.ok value) => some (.known value)
  | _ => baseline

def replay (tr : List (Event V)) : Option (Baseline V) := tr.foldl replayEvent none

@[simp] theorem replay_append (tr es : List (Event V)) :
    replay (tr ++ es) = es.foldl replayEvent (replay tr) :=
  List.foldl_append

/-- A consumed event or a start-up signal may pass while an operation waits. -/
def Event.Passing : Event V → Prop
  | .consumed _ => True
  | .startupSignal _ => True
  | _ => False

def Starting : List (Event V) → Prop :=
  Since Event.Passing fun before => ∃ past, before = past ++ [.readStarted .start]

/-- A comparing read is open, and it started on a settled batch. -/
def Comparing : List (Event V) → Prop :=
  Since Event.Passing fun before => ∃ past, before = past ++ [.settled, .readStarted .compare]

/-- The submission is open: nothing but passing events since it was made. -/
def Opened (origin : Origin) : List (Event V) → Prop :=
  Since Event.Passing fun before => ∃ past, before = past ++ [.submitted origin]

/-- The open submission was answered by a successful report at `time`. -/
def Succeeded (origin : Origin) (time : Nat) : List (Event V) → Prop :=
  Since Event.Passing fun before => ∃ past report,
    before = past ++ [.finished origin report time] ∧ report.success = true ∧ Opened origin past

/-- The settle period after a successful own submission has just elapsed. -/
def Settled (runner : FsStateRunner) (tr : List (Event V)) : Prop :=
  ∃ past origin time settledAt, tr = past ++ [.ownSettled origin settledAt] ∧
    time + runner.selfSettle ≤ settledAt ∧ Succeeded origin time past

/-- A rebaseline read is open, and it started directly after the settle period of a
successful own submission. -/
def Rebaselining (runner : FsStateRunner) : List (Event V) → Prop :=
  Since Event.Passing fun before =>
    ∃ past, before = past ++ [.readStarted .rebaseline] ∧ Settled runner past

/-- What must have come before an event. Only a source without a reader submits a batch
that it did not compare. -/
def Justified (runner : FsStateRunner) (before : List (Event V)) : Event V → Prop
  | .readStarted .start => runner.stateReader = true
  | .readStarted .compare => runner.stateReader = true ∧ ∃ past, before = past ++ [.settled]
  | .readStarted .rebaseline => runner.stateReader = true ∧ Settled runner before
  | .readDone .start _ => Starting before
  | .readDone .compare _ => Comparing before
  | .readDone .rebaseline _ => Rebaselining runner before
  | .rejected origin => Opened origin before
  | .completionLost origin => Opened origin before
  | .finished origin _ _ => Opened origin before
  | .unchanged value => ∃ past, before = past ++ [.readDone .compare (.ok value)] ∧
      Comparing past ∧ replay past = some (.known value)
  | .submitted .startup => (∃ past, before = past ++ [.signalled]) ∧
      .startupSignal true ∈ before ∧ .submitted .startup ∉ before ∧
      (runner.stateReader = true → ∃ result, .readDone .start result ∈ before)
  | .submitted .batch =>
    (∃ past value, before = past ++ [.readDone .compare (.ok value)] ∧
      Comparing past ∧ replay past ≠ some (.known value)) ∨
    runner.stateReader = false ∧ ∃ past, before = past ++ [.settled]
  | _ => True

/-- What the trace ends in, given where the operation stands. -/
def History (runner : FsStateRunner) (tr : List (Event V)) : Pc → Prop
  | .startRead => Starting tr
  | .comparing _ => Comparing tr
  | .submitting origin _ => Opened origin tr
  | .ownRun origin _ _ => Opened origin tr
  | .ownSettle origin _ deadline =>
    ∃ time, deadline = time + runner.selfSettle ∧ Succeeded origin time tr
  | .rebaselining _ _ => Rebaselining runner tr
  | _ => True

variable {runner : FsStateRunner} {s t : State V} {tr es : List (Event V)}

theorem history_head (pc : Pc) : History runner tr pc.head = History runner tr pc := by
  cases pc <;> rfl

theorem history_passing {pc : Pc} (h : History runner tr pc) (passing : ∀ x ∈ es, x.Passing) :
    History runner (tr ++ es) pc := by
  cases pc with
  | startRead => exact Since.append h passing
  | comparing dirty => exact Since.append h passing
  | submitting origin dirty => exact Since.append h passing
  | ownRun origin dirty running => exact Since.append h passing
  | ownSettle origin dirty deadline =>
    obtain ⟨time, hd, hs⟩ := h
    exact ⟨time, hd, Since.append hs passing⟩
  | rebaselining origin dirty => exact Since.append h passing
  | boot | recvHead | recvWait | settleHead | settling | ended => trivial

theorem history_tracking {now : Nat} {pc next : Pc} (h : History runner tr pc)
    (tracking : Tracking now pc next) : History runner tr next := by
  cases tracking with
  | comparing dirty => exact h
  | submitting origin dirty => exact h
  | ownRun origin dirty => exact h

theorem history_conclude (dirty : DirtyTracker) :
    History runner tr (conclude (V := V) dirty).1 := by
  rcases conclude_cases (V := V) dirty with ⟨-, hc⟩ | ⟨batch, -, hc⟩ <;> rw [hc] <;> trivial

theorem history_runFailed (now : Nat) (origin : Origin) (dirty : DirtyTracker) :
    History runner tr (runFailed (V := V) now origin dirty).1 := by
  cases origin with
  | batch => exact history_conclude _
  | startup => exact history_conclude _

/-- After the settle period the rebaseline read starts, or the operation is over. -/
theorem history_afterSettle {origin : Origin} {time now : Nat} (dirty : DirtyTracker)
    (due : time + runner.selfSettle ≤ now) (succeeded : Succeeded origin time tr) :
    History runner (tr ++ (afterSettle runner now origin dirty).2)
      (afterSettle (V := V) runner now origin dirty).1 := by
  by_cases reader : runner.stateReader = true
  · simp only [afterSettle, reader, if_true]
    refine Since.now ⟨tr ++ [.ownSettled origin now], by simp, ?_⟩
    exact ⟨tr, origin, time, now, rfl, due, succeeded⟩
  · simp only [afterSettle, reader]
    exact history_conclude dirty

theorem history_runSucceeded {origin : Origin} {now : Nat} (dirty : DirtyTracker)
    (succeeded : Succeeded origin now tr) :
    History runner (tr ++ (runSucceeded runner now origin dirty).2)
      (runSucceeded (V := V) runner now origin dirty).1 := by
  by_cases settle : runner.selfSettle = 0
  · simp only [runSucceeded, settle, if_true]
    exact history_afterSettle dirty (by omega) succeeded
  · simp only [runSucceeded, settle, if_false, List.append_nil]
    exact ⟨now, rfl, succeeded⟩

theorem history_move (old : History runner tr s.pc) (move : Move runner s t es) :
    History runner (tr ++ es) t.pc := by
  cases move with
  | quiet same =>
    have head : History runner tr t.pc := by
      rw [← history_head, same.pc, history_head]
      exact old
    simpa using head
  | signal value => exact history_passing old (by simp [Event.Passing])
  | stop after => rw [after]; trivial
  | startRead before => exact Since.now ⟨tr, rfl⟩
  | startupTrigger signal before =>
    exact Since.now ⟨tr ++ [.signalled], by simp⟩
  | note event rest pc items tracking =>
    exact history_tracking (history_passing old (by simp [Event.Passing])) tracking
  | suppress event rest items suppressing => exact history_passing old (by simp [Event.Passing])
  | compare batch before reader => exact Since.now ⟨tr, rfl⟩
  | submitUnread batch before reader => exact Since.now ⟨tr ++ [.settled], by simp⟩
  | unchanged dirty value before same => exact history_conclude dirty
  | changed dirty value before other =>
    exact Since.now ⟨tr ++ [.readDone .compare (.ok value)], by simp⟩
  | compareFailed dirty error before => exact history_conclude dirty
  | progress origin dirty running before =>
    have opened : Opened origin tr := by
      rcases before with hpc | ⟨running, hpc⟩ <;> simpa only [hpc, History] using old
    simpa [History] using opened
  | fail origin dirty event failing => exact history_runFailed s.now origin dirty
  | succeed origin dirty running report good before =>
    have opened : Opened origin tr := by simpa only [before, History] using old
    have succeeded : Succeeded origin s.now (tr ++ [.finished origin report s.now]) :=
      Since.now ⟨tr, report, rfl, good, opened⟩
    simpa using history_runSucceeded dirty succeeded
  | settleOwn origin dirty deadline before due =>
    obtain ⟨time, rfl, succeeded⟩ :
        ∃ time, deadline = time + runner.selfSettle ∧ Succeeded origin time tr := by
      simpa only [before, History] using old
    exact history_afterSettle dirty due succeeded
  | rebaselined origin dirty value before => exact history_conclude dirty
  | rebaselineFailed origin dirty error before => exact history_conclude dirty
  | unread | started | startFailed | startStopped | take | compareStopped | rebaselineStopped =>
    trivial

section Baseline

@[simp] theorem replay_conclude (baseline : Option (Baseline V)) (dirty : DirtyTracker) :
    (conclude dirty).2.foldl replayEvent baseline = baseline := by
  rcases conclude_cases (V := V) dirty with ⟨-, hc⟩ | ⟨batch, -, hc⟩ <;> rw [hc] <;> rfl

@[simp] theorem replay_runFailed (baseline : Option (Baseline V)) (now : Nat) (origin : Origin)
    (dirty : DirtyTracker) :
    (runFailed now origin dirty).2.foldl replayEvent baseline = baseline := by
  cases origin <;> simp [runFailed]

@[simp] theorem replay_afterSettle (baseline : Option (Baseline V)) (now : Nat) (origin : Origin)
    (dirty : DirtyTracker) :
    (afterSettle runner now origin dirty).2.foldl replayEvent baseline = baseline := by
  by_cases reader : runner.stateReader = true <;> simp [afterSettle, emit, reader, replayEvent]

@[simp] theorem replay_runSucceeded (baseline : Option (Baseline V)) (now : Nat) (origin : Origin)
    (dirty : DirtyTracker) :
    (runSucceeded runner now origin dirty).2.foldl replayEvent baseline = baseline := by
  by_cases settle : runner.selfSettle = 0 <;> simp [runSucceeded, settle]

theorem replayEvent_failing {now : Nat} {pc : Pc} {origin : Origin} {dirty : DirtyTracker}
    {event : Event V} (failing : Failing now pc origin dirty event)
    (baseline : Option (Baseline V)) : replayEvent baseline event = baseline := by
  cases failing <;> rfl

/-- The events of a move have on the baseline exactly the effect of the move. -/
theorem replay_move (unread : s.pc = .startRead → s.baseline = none) (move : Move runner s t es) :
    es.foldl replayEvent s.baseline = t.baseline := by
  cases move with
  | quiet same => exact same.baseline.symm
  | stop after baseline startup => exact baseline.symm
  | startFailed error kept before =>
    cases error with
    | cancelled => exact absurd rfl kept
    | start | wait | output | failed | timedOut | outputTooLarge | utf8 => rfl
  | startStopped error ready why before =>
    have none : s.baseline = none := unread before
    rcases why with ⟨rfl, rfl⟩ | rfl
    · exact none.symm
    · exact none.symm
  | fail origin dirty event failing => simp [replayEvent_failing failing]
  | unchanged | compareFailed | succeed | settleOwn | rebaselined | rebaselineFailed =>
    simp [replayEvent]
  | signal | startRead | unread | started | startupTrigger | take | note | suppress | compare
  | submitUnread | changed | compareStopped | progress | rebaselineStopped => rfl

end Baseline

section Startup

/-- The runner has not yet finished its start-up read, or is over. -/
def Pc.early : Pc → Bool
  | .boot => true
  | .startRead => true
  | .ended => true
  | _ => false

/-- The runner has not yet finished its start-up read. -/
def Pc.reading : Pc → Bool
  | .boot => true
  | .startRead => true
  | _ => false

@[simp] theorem reading_head (pc : Pc) : pc.head.reading = pc.reading := by
  cases pc <;> rfl

@[simp] theorem early_head (pc : Pc) : pc.head.early = pc.early := by
  cases pc <;> rfl

@[simp] theorem conclude_reading (dirty : DirtyTracker) :
    (conclude (V := V) dirty).1.reading = false := by
  rcases conclude_cases (V := V) dirty with ⟨-, hc⟩ | ⟨batch, -, hc⟩ <;> rw [hc] <;> rfl

@[simp] theorem runFailed_reading (now : Nat) (origin : Origin) (dirty : DirtyTracker) :
    (runFailed (V := V) now origin dirty).1.reading = false := by
  cases origin <;> simp [runFailed]

@[simp] theorem afterSettle_reading (now : Nat) (origin : Origin) (dirty : DirtyTracker) :
    (afterSettle (V := V) runner now origin dirty).1.reading = false := by
  by_cases reader : runner.stateReader = true
  · simp only [afterSettle, reader, if_true]
    rfl
  · simp [afterSettle, emit, reader]

@[simp] theorem runSucceeded_reading (now : Nat) (origin : Origin) (dirty : DirtyTracker) :
    (runSucceeded (V := V) runner now origin dirty).1.reading = false := by
  by_cases settle : runner.selfSettle = 0
  · simp [runSucceeded, settle]
  · simp only [runSucceeded, settle, if_false]
    rfl

theorem Tracking.reading {now : Nat} {pc next : Pc} (tracking : Tracking now pc next) :
    next.reading = false := by
  cases tracking <;> rfl

theorem Tracking.early {now : Nat} {pc next : Pc} (tracking : Tracking now pc next) :
    pc.early = false := by
  cases tracking <;> rfl

theorem Failing.event_cases {now : Nat} {pc : Pc} {origin : Origin} {dirty : DirtyTracker}
    {event : Event V} (failing : Failing now pc origin dirty event) :
    event = .rejected origin ∨ event = .completionLost origin ∨
      ∃ report, event = .finished origin report now ∧ report.success = false := by
  cases failing with
  | rejected => exact Or.inl rfl
  | lost => exact Or.inr (Or.inl rfl)
  | finished origin dirty running report bad => exact Or.inr (Or.inr ⟨report, rfl, bad⟩)

theorem Failing.early {now : Nat} {pc : Pc} {origin : Origin} {dirty : DirtyTracker}
    {event : Event V} (failing : Failing now pc origin dirty event) : pc.early = false := by
  cases failing <;> rfl

theorem reading_move (move : Move runner s t es) (h : t.pc.reading = true) :
    s.pc.reading = true ∧ t.baseline = s.baseline ∧
      ∀ x ∈ es, x.Passing ∨ x = .readStarted .start := by
  cases move with
  | quiet same =>
    refine ⟨?_, same.baseline, by simp⟩
    rw [← reading_head, ← same.pc, reading_head]
    exact h
  | signal value => exact ⟨h, rfl, by simp [Event.Passing]⟩
  | stop after => simp [after, Pc.reading] at h
  | startRead before => exact ⟨by simp [before, Pc.reading], rfl, by simp⟩
  | note event rest pc items tracking => simp [tracking.reading] at h
  | suppress event rest items suppressing => exact ⟨h, rfl, by simp [Event.Passing]⟩
  | unchanged | compareFailed | fail | succeed | settleOwn | rebaselined | rebaselineFailed =>
    simp at h
  | unread | started | startFailed | startStopped | startupTrigger | take | compare | submitUnread
  | changed | compareStopped | progress | rebaselineStopped => cases h

/-- With a reader, the early states are only left by finishing the start-up read. -/
theorem early_move (reader : runner.stateReader = true) (move : Move runner s t es)
    (h : s.pc.early = true) :
    t.pc.early = true ∨ ∃ result, .readDone .start result ∈ es := by
  have clash {pc : Pc} (before : s.pc.head = pc) (late : pc.early = false) : False := by
    rw [← early_head, before, late] at h
    cases h
  cases move with
  | quiet same =>
    refine Or.inl ?_
    rw [← early_head, same.pc, early_head]
    exact h
  | signal value => exact Or.inl h
  | stop after => exact Or.inl (by rw [after]; rfl)
  | startRead before => exact Or.inl rfl
  | unread before unread => simp [reader] at unread
  | started value before => exact Or.inr ⟨.ok value, by simp⟩
  | startFailed error kept before => exact Or.inr ⟨.error error, by simp⟩
  | startStopped error ready why before => exact Or.inl rfl
  | startupTrigger signal before => exact (clash before rfl).elim
  | take event rest batch items before =>
    rcases before with before | ⟨old, before⟩
    · exact (clash before rfl).elim
    · exact (clash before rfl).elim
  | note event rest pc items tracking =>
    rw [tracking.early] at h
    cases h
  | suppress event rest items suppressing => exact Or.inl h
  | compare batch before => exact (clash before rfl).elim
  | submitUnread batch before => exact (clash before rfl).elim
  | progress origin dirty running before =>
    rcases before with before | ⟨old, before⟩
    · rw [before] at h
      cases h
    · rw [before] at h
      cases h
  | fail origin dirty event failing =>
    rw [failing.early] at h
    cases h
  | unchanged dirty value before => rw [before] at h; cases h
  | changed dirty value before => rw [before] at h; cases h
  | compareFailed dirty error before => rw [before] at h; cases h
  | compareStopped dirty before => rw [before] at h; cases h
  | succeed origin dirty running report good before => rw [before] at h; cases h
  | settleOwn origin dirty deadline before => rw [before] at h; cases h
  | rebaselined origin dirty value before => rw [before] at h; cases h
  | rebaselineFailed origin dirty error before => rw [before] at h; cases h
  | rebaselineStopped origin dirty before => rw [before] at h; cases h

end Startup

section Emitted

theorem mem_runFailed {now : Nat} {origin : Origin} {dirty : DirtyTracker} {x : Event V}
    (h : x ∈ (runFailed now origin dirty).2) : x = .awaitingWork := by
  cases origin with
  | batch => exact (mem_conclude.mp h).2
  | startup => exact (mem_conclude.mp h).2

theorem mem_afterSettle {now : Nat} {origin : Origin} {dirty : DirtyTracker} {x : Event V}
    (h : x ∈ (afterSettle runner now origin dirty).2) :
    x = .ownSettled origin now ∨ x = .readStarted .rebaseline ∨ x = .awaitingWork := by
  by_cases reader : runner.stateReader = true
  · simp only [afterSettle, reader, if_true, List.mem_cons, List.not_mem_nil, or_false] at h
    rcases h with h | h
    · exact Or.inl h
    · exact Or.inr (Or.inl h)
  · simp only [afterSettle, emit, reader, Bool.false_eq_true, if_false, List.mem_cons,
      mem_conclude] at h
    rcases h with h | ⟨-, h⟩
    · exact Or.inl h
    · exact Or.inr (Or.inr h)

theorem mem_runSucceeded {now : Nat} {origin : Origin} {dirty : DirtyTracker} {x : Event V}
    (h : x ∈ (runSucceeded runner now origin dirty).2) :
    x = .ownSettled origin now ∨ x = .readStarted .rebaseline ∨ x = .awaitingWork := by
  by_cases settle : runner.selfSettle = 0
  · simp only [runSucceeded, settle, if_true] at h
    exact mem_afterSettle h
  · simp [runSucceeded, settle] at h

/-- A successful rebaseline read is the end of a rebaseline, and its value is kept. -/
theorem rebaselined_move {value : V} (move : Move runner s t es)
    (h : .readDone .rebaseline (.ok value) ∈ es) : t.baseline = some (.known value) := by
  cases move with
  | rebaselined origin dirty other before =>
    have heq : value = other := by simpa using h
    rw [heq]
  | fail origin dirty event failing =>
    rcases List.mem_cons.mp h with rfl | h
    · rcases failing.event_cases with h | h | ⟨report, h, -⟩ <;> cases h
    · cases mem_runFailed h
  | succeed origin dirty running report good before =>
    rcases List.mem_cons.mp h with h | h
    · cases h
    · rcases mem_runSucceeded h with h | h | h <;> cases h
  | settleOwn origin dirty deadline before due =>
    rcases mem_afterSettle h with h | h | h <;> cases h
  | startStopped error ready why before =>
    rcases why with ⟨-, rfl⟩ | rfl <;> simp at h
  | quiet | signal | stop | startRead | unread | started | startFailed | startupTrigger | take
  | note | suppress | compare | submitUnread | unchanged | changed | compareFailed
  | compareStopped | progress | rebaselineFailed | rebaselineStopped => simp at h

/-- A move makes the baseline unknown only where the start-up read failed. -/
theorem unknown_move (move : Move runner s t es) (h : t.baseline = some .unknown) :
    s.baseline = some .unknown ∨
      s.pc.reading = true ∧ ∃ error, .readDone .start (.error error) ∈ es := by
  cases move with
  | quiet same => exact Or.inl (same.baseline ▸ h)
  | stop after baseline startup => exact Or.inl (baseline ▸ h)
  | startFailed error kept before => exact Or.inr ⟨by rw [before]; rfl, error, by simp⟩
  | started value before => simp at h
  | rebaselined origin dirty value before => simp at h
  | signal | startRead | unread | startStopped | startupTrigger | take | note | suppress | compare
  | submitUnread | unchanged | changed | compareFailed | compareStopped | progress | fail | succeed
  | settleOwn | rebaselineFailed | rebaselineStopped => exact Or.inl h

/-- Whatever does not take the start-up signal leaves it as it is, or sets it. -/
theorem startup_move {w : Watch Bool} (move : Move runner s t es) (h : t.startup = some w) :
    .submitted .startup ∉ es ∧ ∃ v, s.startup = some v ∧
      (w.value = true → v.value = true ∨ .startupSignal true ∈ es) := by
  cases move with
  | quiet same =>
    obtain ⟨v, hv, hw⟩ := same.startup w h
    exact ⟨by simp, v, hv, fun set => Or.inl (hw ▸ set)⟩
  | signal value =>
    obtain ⟨v, hv, rfl⟩ := Option.map_eq_some_iff.mp h
    refine ⟨by simp, v, hv, ?_⟩
    intro set
    have hvalue : value = true := set
    exact Or.inr (by simp [hvalue])
  | stop after baseline startup => exact ⟨by simp, w, startup ▸ h, Or.inl⟩
  | startupTrigger signal before => cases h
  | startStopped error ready why before =>
    refine ⟨?_, w, h, Or.inl⟩
    rcases why with ⟨-, rfl⟩ | rfl <;> simp
  | fail origin dirty event failing =>
    refine ⟨?_, w, h, Or.inl⟩
    intro hm
    rcases List.mem_cons.mp hm with rfl | hm
    · rcases failing.event_cases with h | h | ⟨report, h, -⟩ <;> cases h
    · cases mem_runFailed hm
  | succeed origin dirty running report good before =>
    refine ⟨?_, w, h, Or.inl⟩
    intro hm
    rcases List.mem_cons.mp hm with hm | hm
    · cases hm
    · rcases mem_runSucceeded hm with hm | hm | hm <;> cases hm
  | settleOwn origin dirty deadline before due =>
    refine ⟨?_, w, h, Or.inl⟩
    intro hm
    rcases mem_afterSettle hm with hm | hm | hm <;> cases hm
  | startRead | unread | started | startFailed | take | note | suppress | compare | submitUnread
  | unchanged | changed | compareFailed | compareStopped | progress | rebaselined
  | rebaselineFailed | rebaselineStopped => exact ⟨by simp, w, h, Or.inl⟩

end Emitted

/-- The joint invariant of the state and the trace. -/
structure Provenance (runner : FsStateRunner) (tr : List (Event V)) (s : State V) : Prop where
  baseline : s.baseline = replay tr
  reading : s.pc.reading = true →
    s.baseline = none ∧ ∀ x ∈ tr, x.Passing ∨ x = .readStarted .start
  history : History runner tr s.pc
  unknown : s.baseline = some .unknown → (∃ error, .readDone .start (.error error) ∈ tr) ∧
    ∀ value, .readDone .rebaseline (.ok value) ∉ tr
  attempted : runner.stateReader = true →
    s.pc.early = true ∨ ∃ result, .readDone .start result ∈ tr
  startup : ∀ w, s.startup = some w →
    .submitted .startup ∉ tr ∧ (w.value = true → .startupSignal true ∈ tr)
  justified : AtEach (Justified runner) tr

theorem justified_conclude (dirty : DirtyTracker) (h : AtEach (Justified runner) tr) :
    AtEach (Justified runner) (tr ++ (conclude dirty).2) := by
  refine h.append_quiet ?_
  intro x hx before
  obtain ⟨-, rfl⟩ := mem_conclude.mp hx
  trivial

theorem justified_afterSettle {origin : Origin} {time now : Nat} (dirty : DirtyTracker)
    (h : AtEach (Justified runner) tr) (due : time + runner.selfSettle ≤ now)
    (succeeded : Succeeded origin time tr) :
    AtEach (Justified runner) (tr ++ (afterSettle runner now origin dirty).2) := by
  have settled : AtEach (Justified runner) (tr ++ [.ownSettled origin now]) :=
    h.append_one trivial
  by_cases reader : runner.stateReader = true
  · have started : AtEach (Justified runner)
        ((tr ++ [.ownSettled origin now]) ++ [.readStarted .rebaseline]) :=
      settled.append_one ⟨reader, tr, origin, time, now, rfl, due, succeeded⟩
    simpa [afterSettle, reader] using started
  · simpa [afterSettle, emit, reader] using justified_conclude dirty settled

theorem justified_runSucceeded {origin : Origin} {now : Nat} (dirty : DirtyTracker)
    (h : AtEach (Justified runner) tr) (succeeded : Succeeded origin now tr) :
    AtEach (Justified runner) (tr ++ (runSucceeded runner now origin dirty).2) := by
  by_cases settle : runner.selfSettle = 0
  · simp only [runSucceeded, settle, if_true]
    exact justified_afterSettle dirty h (by omega) succeeded
  · simpa [runSucceeded, settle] using h

theorem justified_move (old : Provenance runner tr s)
    (move : Move runner s t es) : AtEach (Justified runner) (tr ++ es) := by
  have history := old.history
  cases move with
  | quiet same => simpa using old.justified
  | signal value => exact old.justified.append_one trivial
  | stop after baseline startup => simpa using old.justified
  | startRead before reader => exact old.justified.append_one reader
  | unread before unread => exact old.justified.append_quiet (by simp [Justified])
  | started value before =>
    have starting : Starting tr := by simpa only [before, History] using history
    have done : AtEach (Justified runner) (tr ++ [.readDone .start (.ok value)]) :=
      old.justified.append_one starting
    have ready : AtEach (Justified runner)
        ((tr ++ [.readDone .start (.ok value)]) ++ [.initialReady true, .awaitingWork]) :=
      done.append_quiet (by simp [Justified])
    simpa using ready
  | startFailed error kept before =>
    have starting : Starting tr := by simpa only [before, History] using history
    exact old.justified.append_two starting trivial
  | startStopped error ready why before =>
    have starting : Starting tr := by simpa only [before, History] using history
    rcases why with ⟨-, rfl⟩ | rfl
    · exact old.justified.append_one starting
    · exact old.justified.append_two starting trivial
  | startupTrigger signal before given set =>
    obtain ⟨fresh, sent⟩ := old.startup signal given
    have attempted : runner.stateReader = true →
        ∃ result, .readDone .start result ∈ tr ++ [.signalled] := by
      intro reader
      rcases old.attempted reader with early | ⟨result, hr⟩
      · rw [← early_head, before] at early
        cases early
      · exact ⟨result, by simp [hr]⟩
    have submitted : Justified runner (tr ++ [.signalled]) (.submitted .startup) :=
      ⟨⟨tr, rfl⟩, by simp [sent set], by simp [fresh], attempted⟩
    exact old.justified.append_two trivial submitted
  | take event rest batch items before => exact old.justified.append_one trivial
  | note event rest pc items tracking => exact old.justified.append_one trivial
  | suppress event rest items suppressing => exact old.justified.append_one trivial
  | compare batch before reader =>
    exact old.justified.append_two trivial ⟨reader, tr, rfl⟩
  | submitUnread batch before unread =>
    exact old.justified.append_two trivial (Or.inr ⟨unread, tr, rfl⟩)
  | unchanged dirty value before same =>
    have comparing : Comparing tr := by simpa only [before, History] using history
    have unchanged : AtEach (Justified runner)
        (tr ++ [.readDone .compare (.ok value), .unchanged value]) :=
      old.justified.append_two comparing ⟨tr, rfl, comparing, old.baseline ▸ same⟩
    simpa using justified_conclude dirty unchanged
  | changed dirty value before other =>
    have comparing : Comparing tr := by simpa only [before, History] using history
    have differs : replay tr ≠ some (.known value) := old.baseline ▸ other
    exact old.justified.append_two comparing (Or.inl ⟨tr, value, rfl, comparing, differs⟩)
  | compareFailed dirty error before =>
    have comparing : Comparing tr := by simpa only [before, History] using history
    have done : AtEach (Justified runner) (tr ++ [.readDone .compare (.error error)]) :=
      old.justified.append_one comparing
    simpa using justified_conclude dirty done
  | compareStopped dirty before =>
    have comparing : Comparing tr := by simpa only [before, History] using history
    exact old.justified.append_one comparing
  | progress origin dirty running before => simpa using old.justified
  | fail origin dirty event failing =>
    have done : AtEach (Justified runner) (tr ++ [event]) := by
      refine old.justified.append_one ?_
      generalize hpc : s.pc = pc at failing
      rw [hpc] at history
      cases failing with
      | rejected => exact history
      | lost => exact history
      | finished => exact history
    rw [List.append_cons]
    refine done.append_quiet ?_
    intro x hx before
    obtain rfl := mem_runFailed hx
    trivial
  | succeed origin dirty running report good before =>
    have opened : Opened origin tr := by simpa only [before, History] using history
    have done : AtEach (Justified runner) (tr ++ [.finished origin report s.now]) :=
      old.justified.append_one opened
    have succeeded : Succeeded origin s.now (tr ++ [.finished origin report s.now]) :=
      Since.now ⟨tr, report, rfl, good, opened⟩
    simpa using justified_runSucceeded dirty done succeeded
  | settleOwn origin dirty deadline before due =>
    obtain ⟨time, rfl, succeeded⟩ :
        ∃ time, deadline = time + runner.selfSettle ∧ Succeeded origin time tr := by
      simpa only [before, History] using history
    exact justified_afterSettle dirty old.justified due succeeded
  | rebaselined origin dirty value before =>
    have rebaselining : Rebaselining runner tr := by simpa only [before, History] using history
    have done : AtEach (Justified runner) (tr ++ [.readDone .rebaseline (.ok value)]) :=
      old.justified.append_one rebaselining
    simpa using justified_conclude dirty done
  | rebaselineFailed origin dirty error before =>
    have rebaselining : Rebaselining runner tr := by simpa only [before, History] using history
    have done : AtEach (Justified runner) (tr ++ [.readDone .rebaseline (.error error)]) :=
      old.justified.append_one rebaselining
    simpa using justified_conclude dirty done
  | rebaselineStopped origin dirty before =>
    have rebaselining : Rebaselining runner tr := by simpa only [before, History] using history
    exact old.justified.append_one rebaselining

theorem provenance_step (old : Provenance runner tr s)
    (move : Move runner s t es) : Provenance runner (tr ++ es) t := by
  constructor
  case baseline =>
    have unread : s.pc = .startRead → s.baseline = none := by
      intro hpc
      exact (old.reading (by rw [hpc]; rfl)).1
    rw [replay_append, ← old.baseline, replay_move unread move]
  case reading =>
    intro h
    obtain ⟨before, same, new⟩ := reading_move move h
    obtain ⟨none, events⟩ := old.reading before
    refine ⟨same.trans none, ?_⟩
    intro x hx
    rcases List.mem_append.mp hx with hx | hx
    · exact events x hx
    · exact new x hx
  case history => exact history_move old.history move
  case unknown =>
    intro h
    have kept : ∀ value, .readDone .rebaseline (.ok value) ∉ es := by
      intro value hm
      rw [rebaselined_move move hm] at h
      cases h
    rcases unknown_move move h with before | ⟨before, error, hm⟩
    · obtain ⟨⟨error, he⟩, none⟩ := old.unknown before
      exact ⟨⟨error, by simp [he]⟩, fun value => by simp [none value, kept value]⟩
    · refine ⟨⟨error, by simp [hm]⟩, ?_⟩
      intro value hv
      rcases List.mem_append.mp hv with hv | hv
      · rcases (old.reading before).2 _ hv with hp | he
        · exact hp
        · cases he
      · exact kept value hv
  case attempted =>
    intro reader
    rcases old.attempted reader with early | ⟨result, hr⟩
    · rcases early_move reader move early with early | ⟨result, hr⟩
      · exact Or.inl early
      · exact Or.inr ⟨result, by simp [hr]⟩
    · exact Or.inr ⟨result, by simp [hr]⟩
  case startup =>
    intro w hw
    obtain ⟨new, v, hv, set⟩ := startup_move move hw
    obtain ⟨fresh, sent⟩ := old.startup v hv
    refine ⟨by simp [fresh, new], ?_⟩
    intro hvalue
    rcases set hvalue with hvalue | hm
    · simp [sent hvalue]
    · simp [hm]
  case justified => exact justified_move old move

section
variable [DecidableEq V]

theorem provenance_run {runOnStartup : Bool} {labels : List (Label V)}
    (run : exec (step runner) (State.start runOnStartup) labels = some (s, tr)) :
    Provenance runner tr s := by
  refine exec_invariant (fun _ _ _ _ _ old h => provenance_step old (step_move h)) ?_ run
  constructor
  case baseline => rfl
  case reading => exact fun _ => ⟨rfl, by simp⟩
  case history => trivial
  case unknown => intro h; cases h
  case attempted => exact fun _ => Or.inl rfl
  case startup =>
    intro w hw
    refine ⟨by simp, ?_⟩
    intro set
    cases runOnStartup with
    | true =>
      obtain rfl : Watch.start false = w := by simpa [State.start] using hw
      cases set
    | false => simp [State.start] at hw
  case justified => exact atEach_nil

end

/-- The events that write the baseline. -/
def Event.Stores : Event V → Prop
  | .readDone .start _ => True
  | .readDone .rebaseline (.ok _) => True
  | .initialReady false => True
  | _ => False

theorem replayEvent_of_not_stores {x : Event V} (h : ¬ x.Stores)
    (baseline : Option (Baseline V)) : replayEvent baseline x = baseline := by
  cases x with
  | readDone purpose result =>
    cases purpose with
    | start => exact absurd trivial h
    | compare => rfl
    | rebaseline =>
      cases result with
      | ok value => exact absurd trivial h
      | error => rfl
  | initialReady ok =>
    cases ok with
    | true => rfl
    | false => exact absurd trivial h
  | startupSignal | consumed | settled | signalled | readStarted | unchanged | submitted | rejected
  | completionLost | finished | ownSettled | awaitingWork => rfl

/-- A known baseline is the value of the last event that wrote one. -/
theorem replay_known {value : V} (h : replay tr = some (.known value)) :
    ∃ before purpose after, tr = before ++ .readDone purpose (.ok value) :: after ∧
      purpose ≠ .compare ∧ ∀ x ∈ after, ¬ x.Stores := by
  induction tr using List.reverseRecOn with
  | nil => simp [replay] at h
  | append_singleton tr x ih =>
    by_cases stores : x.Stores
    · refine ⟨tr, ?_⟩
      cases x with
      | readDone purpose result =>
        cases purpose with
        | start =>
          cases result with
          | ok other =>
            obtain rfl : other = value := by simpa [replayEvent] using h
            exact ⟨.start, [], rfl, by simp, by simp⟩
          | error error => cases error <;> simp [replayEvent] at h
        | compare => exact absurd stores id
        | rebaseline =>
          cases result with
          | ok other =>
            obtain rfl : other = value := by simpa [replayEvent] using h
            exact ⟨.rebaseline, [], rfl, by simp, by simp⟩
          | error => exact absurd stores id
      | initialReady ok =>
        cases ok with
        | true => exact absurd stores id
        | false => simp [replayEvent] at h
      | startupSignal | consumed | settled | signalled | readStarted | unchanged | submitted
      | rejected | completionLost | finished | ownSettled | awaitingWork => exact absurd stores id
    · have kept : replay tr = some (.known value) := by
        simpa [replayEvent_of_not_stores stores] using h
      obtain ⟨before, purpose, after, rfl, hp, hafter⟩ := ih kept
      refine ⟨before, purpose, after ++ [x], by simp, hp, ?_⟩
      intro y hy
      rcases List.mem_append.mp hy with hy | hy
      · exact hafter y hy
      · obtain rfl := List.mem_singleton.mp hy
        exact stores

/-- The value of the start-up read, or of a read that began after the settle period of a
successful own run, that nothing has overwritten since. -/
def KnownFrom (runner : FsStateRunner) (tr : List (Event V)) (value : V) : Prop :=
  ∃ before purpose after, tr = before ++ .readDone purpose (.ok value) :: after ∧
    (purpose = .start ∧ Starting before ∨ purpose = .rebaseline ∧ Rebaselining runner before) ∧
    ∀ x ∈ after, ¬ x.Stores

theorem knownFrom_of_justified {value : V} (justified : AtEach (Justified runner) tr)
    (h : replay tr = some (.known value)) : KnownFrom runner tr value := by
  obtain ⟨before, purpose, after, rfl, hp, hafter⟩ := replay_known h
  have why := justified before _ after rfl
  refine ⟨before, purpose, after, rfl, ?_, hafter⟩
  cases purpose with
  | start => exact Or.inl ⟨rfl, why⟩
  | compare => exact absurd rfl hp
  | rebaseline => exact Or.inr ⟨rfl, why⟩

/-- Every read among the events returned `value`. -/
def OnlyReads (value : V) (es : List (Event V)) : Prop :=
  ∀ purpose result, .readDone purpose result ∈ es → result = .ok value

theorem onlyReads_move {value : V} (known : s.baseline = some (.known value))
    (move : Move runner s t es) (reads : OnlyReads value es) :
    t.baseline = some (.known value) ∧ (runner.stateReader = true → .submitted .batch ∉ es) := by
  cases move with
  | quiet same => exact ⟨same.baseline.trans known, by simp⟩
  | stop after baseline startup => exact ⟨baseline.trans known, by simp⟩
  | started other before =>
    obtain rfl : other = value := by simpa using reads .start (.ok other) (by simp)
    exact ⟨rfl, by simp⟩
  | startFailed error kept before => cases reads .start (.error error) (by simp)
  | startStopped error ready why before => cases reads .start (.error error) (by simp)
  | rebaselined origin dirty other before =>
    obtain rfl : other = value := by simpa using reads .rebaseline (.ok other) (by simp)
    exact ⟨rfl, by simp⟩
  | submitUnread batch before unread => exact ⟨known, by simp [unread]⟩
  | changed dirty other before differs =>
    obtain rfl : other = value := by simpa using reads .compare (.ok other) (by simp)
    exact absurd known differs
  | fail origin dirty event failing =>
    refine ⟨known, fun _ hm => ?_⟩
    rcases List.mem_cons.mp hm with rfl | hm
    · rcases failing.event_cases with h | h | ⟨report, h, -⟩ <;> cases h
    · cases mem_runFailed hm
  | succeed origin dirty running report good before =>
    refine ⟨known, fun _ hm => ?_⟩
    rcases List.mem_cons.mp hm with hm | hm
    · cases hm
    · rcases mem_runSucceeded hm with hm | hm | hm <;> cases hm
  | settleOwn origin dirty deadline before due =>
    refine ⟨known, fun _ hm => ?_⟩
    rcases mem_afterSettle hm with hm | hm | hm <;> cases hm
  | signal | startRead | unread | startupTrigger | take | note | suppress | compare | unchanged
  | compareFailed | compareStopped | progress | rebaselineFailed | rebaselineStopped =>
    exact ⟨known, by simp⟩

variable [DecidableEq V]

/-- While reads keep returning the baseline, no batch is submitted. -/
theorem no_submission_while_unchanged {value : V} {labels : List (Label V)}
    (reader : runner.stateReader = true) (known : s.baseline = some (.known value))
    (run : exec (step runner) s labels = some (t, es)) (reads : OnlyReads value es) :
    .submitted .batch ∉ es := by
  have kept : OnlyReads value es →
      t.baseline = some (.known value) ∧ .submitted .batch ∉ es := by
    refine exec_invariant (P := fun es t => OnlyReads value es →
      t.baseline = some (.known value) ∧ .submitted .batch ∉ es) ?_ ?_ run
    · intro past m a n new old h reads
      have before := old fun purpose result hm => reads purpose result (by simp [hm])
      have after := onlyReads_move before.1 (step_move h)
        fun purpose result hm => reads purpose result (by simp [hm])
      exact ⟨after.1, by simp [before.2, after.2 reader]⟩
    · exact fun _ => ⟨known, by simp⟩
  exact (kept reads).2

/-- The baseline is what the start-up read and the rebaseline reads leave behind, a known
one comes from such a read, and an unknown one from a failed start-up read that no
rebaseline followed; every submission is the start-up trigger or follows a settled batch
whose comparing read differed from the baseline. -/
theorem baseline_and_submissions_are_justified {runOnStartup : Bool} {labels : List (Label V)}
    (reader : runner.stateReader = true)
    (run : exec (step runner) (State.start runOnStartup) labels = some (s, tr)) :
    s.baseline = replay tr ∧
    (∀ value, s.baseline = some (.known value) → KnownFrom runner tr value) ∧
    (s.baseline = some .unknown → (∃ error, .readDone .start (.error error) ∈ tr) ∧
      ∀ value, .readDone .rebaseline (.ok value) ∉ tr) ∧
    AtEach (Justified runner) tr ∧
    ∀ value more t es, s.baseline = some (.known value) →
      exec (step runner) s more = some (t, es) → OnlyReads value es → .submitted .batch ∉ es := by
  have proven := provenance_run run
  refine ⟨proven.baseline, ?_, proven.unknown, proven.justified, ?_⟩
  · intro value known
    exact knownFrom_of_justified proven.justified (proven.baseline ▸ known)
  · intro value more t es known more_run reads
    exact no_submission_while_unchanged reader known more_run reads

private def exampleSource : FsStateRunner := ⟨2, 10, 1, true, false, 64⟩

private def exampleRun : List (Label Nat) :=
  [.proceed, .readDone (.ok 0), .notify .changed, .proceed, .recv, .advance 2, .proceed,
    .readDone (.ok 1), .startDone true, .lifecycle (some .started),
    .lifecycle (some (.finished (.outcome (.ofExitStatus (some 0) none)))), .advance 1, .timer,
    .readDone (.ok 1)]

theorem example_rebaseline_is_justified :
    let r := (exec (step exampleSource) (State.start false) exampleRun).get rfl
    r.1.baseline = some (.known 1) ∧ KnownFrom exampleSource r.2 1 := by
  have run := (Option.some_get
    (rfl : (exec (step exampleSource) (State.start false) exampleRun).isSome = true)).symm
  exact ⟨rfl, (baseline_and_submissions_are_justified rfl run).2.1 1 rfl⟩

end FsState

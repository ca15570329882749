import Mailwake.FsStateUnreconciled

/-!
# Quiescent consistency of a filesystem-state source

The watched state is a variable that the environment may change at any step; a change
leaves an event to be delivered. A read of `state_cmd` takes one snapshot at some step
after its start and completes at a later one. The invariant says where a difference
between the variable and what the runner knows is still on its way to the runner.
-/
namespace FsState
open Channel CommandReport Transition
universe u
variable {V : Type u}

structure Watched (V : Type u) where
  source : State V
  value : V
  /-- Changes whose event has not reached the queue yet. -/
  undelivered : Nat
  snapshot : Option V

inductive WatchedLabel (V : Type u) where
  | change (value : V)
  | deliver (event : FsStateEvent)
  | snap
  | complete
  | inner (label : Label V)

def Watched.start (runOnStartup : Bool) (value : V) : Watched V :=
  ⟨State.start runOnStartup, value, 0, none⟩

/-- A read of the state is running. -/
def Pc.isRead : Pc → Bool
  | .startRead => true
  | .comparing _ => true
  | .rebaselining _ _ => true
  | _ => false

def Label.isReadDone : Label V → Bool
  | .readDone _ => true
  | _ => false

section
variable [DecidableEq V]

/-- Reads complete with their snapshot; every other label is the runner's own. -/
def Watched.step (runner : FsStateRunner) (w : Watched V) :
    WatchedLabel V → Option (Watched V × List (Event V))
  | .change value => some ({ w with value := value, undelivered := w.undelivered + 1 }, [])
  | .deliver event =>
    if 0 < w.undelivered then
      (FsState.step runner w.source (.notify event)).map fun next =>
        ({ w with source := next.1, undelivered := w.undelivered - 1 }, next.2)
    else none
  | .snap =>
    if w.source.pc.isRead && w.snapshot.isNone then some ({ w with snapshot := some w.value }, [])
    else none
  | .complete =>
    match w.snapshot with
    | none => none
    | some value =>
      (FsState.step runner w.source (.readDone (.ok value))).map fun next =>
        ({ w with source := next.1, snapshot := none }, next.2)
  | .inner label =>
    if label.isReadDone then none
    else (FsState.step runner w.source label).map fun next =>
      ({ w with source := next.1 }, next.2)

/-- The events that are delivered or about to be. -/
def Watched.outstanding (w : Watched V) : Nat := w.undelivered + w.source.events.items.length

/-- A rebaseline read does not consume, after its snapshot, the last event outstanding
while the state differs from that snapshot. -/
def Watched.spares (w : Watched V) : WatchedLabel V → Bool
  | .inner .recv =>
    match w.source.pc, w.snapshot with
    | .rebaselining _ _, some value => value = w.value || 1 < w.outstanding
    | _, _ => true
  | _ => true

end

/-- Something is still on its way to the runner. -/
def Outstanding (undelivered : Nat) (s : State V) : Prop :=
  0 < undelivered ∨ s.events.items ≠ []

/-- What the snapshot of the open read misses is outstanding. -/
def Covered (value : V) (undelivered : Nat) (snapshot : Option V) (s : State V) : Prop :=
  ∀ v, snapshot = some v → v = value ∨ Outstanding undelivered s

/-- A snapshot may be held: a read is open, or the task ended within one. -/
def Pc.holding : Pc → Bool
  | .startRead => true
  | .comparing _ => true
  | .rebaselining _ _ => true
  | .ended => true
  | _ => false

/-- What the snapshot misses is noted as dirty, or of no interest any more. -/
def Pc.excused : Pc → Bool
  | .comparing dirty => dirty.first.isSome
  | .ended => true
  | _ => false

structure Tracked (value : V) (undelivered : Nat) (snapshot : Option V) (s : State V) :
    Prop where
  closed : snapshot = none ∨ s.pc.holding = true
  covered : s.pc.excused = true ∨ Covered value undelivered snapshot s
  current : s.pc.head = .recvHead →
    s.baseline = some (.known value) ∨ Outstanding undelivered s

variable {runner : FsStateRunner} {s t : State V} {es : List (Event V)}
  {value : V} {undelivered : Nat} {snapshot : Option V}

@[simp] theorem holding_head (pc : Pc) : pc.head.holding = pc.holding := by
  cases pc <;> rfl

@[simp] theorem excused_head (pc : Pc) : pc.head.excused = pc.excused := by
  cases pc <;> rfl

/-- Once something is outstanding, nothing the invariant says can fail. -/
theorem tracked_of_outstanding {other : V} {next : Nat}
    (old : Tracked value undelivered snapshot s) (pc : t.pc = s.pc) (out : Outstanding next t) :
    Tracked other next snapshot t := by
  refine ⟨?_, Or.inr fun v h => Or.inr out, fun h => Or.inr out⟩
  rw [pc]
  exact old.closed

/-- Outside a read there is no snapshot to cover. -/
theorem tracked_of_none (none : snapshot = none)
    (current : t.pc.head = .recvHead →
      t.baseline = some (.known value) ∨ Outstanding undelivered t) :
    Tracked value undelivered snapshot t := by
  refine ⟨Or.inl none, Or.inr ?_, current⟩
  intro v h
  rw [none] at h
  cases h

theorem Tracked.none (old : Tracked value undelivered snapshot s) (h : s.pc.holding = false) :
    snapshot = none := by
  rcases old.closed with none | holding
  · exact none
  · rw [h] at holding
    cases holding

theorem tracked_ended (h : t.pc = .ended) : Tracked value undelivered snapshot t := by
  refine ⟨Or.inr (by rw [h]; rfl), Or.inl (by rw [h]; rfl), ?_⟩
  intro hpc
  rw [h] at hpc
  cases hpc

/-- The frame of the invariant: same place, same baseline, and nothing outstanding lost. -/
theorem tracked_frame (old : Tracked value undelivered snapshot s) (pc : t.pc.head = s.pc.head)
    (baseline : t.baseline = s.baseline)
    (out : Outstanding undelivered s → Outstanding undelivered t) :
    Tracked value undelivered snapshot t := by
  constructor
  case closed =>
    rw [← holding_head, pc, holding_head]
    exact old.closed
  case covered =>
    rw [← excused_head, pc, excused_head]
    rcases old.covered with excused | covered
    · exact Or.inl excused
    · exact Or.inr fun v h => (covered v h).imp id out
  case current =>
    intro h
    rw [baseline]
    exact (old.current (pc ▸ h)).imp id out

theorem tracked_afterSettle (reader : runner.stateReader = true) (none : snapshot = none)
    (origin : Origin) (dirty : DirtyTracker) :
    Tracked value undelivered snapshot
      { s with pc := (afterSettle (V := V) runner s.now origin dirty).1 } := by
  refine tracked_of_none none ?_
  simp only [afterSettle, reader, if_true]
  intro h
  cases h

theorem tracked_runSucceeded (reader : runner.stateReader = true) (none : snapshot = none)
    (origin : Origin) (dirty : DirtyTracker) :
    Tracked value undelivered snapshot
      { s with pc := (runSucceeded (V := V) runner s.now origin dirty).1 } := by
  by_cases settle : runner.selfSettle = 0
  · simp only [runSucceeded, settle, if_true]
    exact tracked_afterSettle reader none origin dirty
  · refine tracked_of_none none ?_
    simp only [runSucceeded, settle, if_false]
    intro h
    cases h

/-- A move of the runner that completes no read. Only a suppressed event can remove what
covers a snapshot, and `spared` says that it does not remove the last one. -/
theorem tracked_move (reader : runner.stateReader = true)
    (old : Tracked value undelivered snapshot s) (move : Move runner s t es)
    (unread : ∀ purpose result, .readDone purpose result ∉ es)
    (succeeded : ∀ x ∈ es, ¬ x.RunFailed)
    (spared : .consumed true ∈ es → Covered value undelivered snapshot t) :
    Tracked value undelivered snapshot t := by
  have none {pc : Pc} (before : s.pc.head = pc) (h : pc.holding = false) : snapshot = none := by
    refine old.none ?_
    rw [← holding_head, before, h]
  cases move with
  | quiet same =>
    exact tracked_frame old same.pc same.baseline fun out => out.imp id same.items
  | signal value => exact tracked_frame old rfl rfl id
  | stop after => exact tracked_ended after
  | startRead before => exact tracked_of_none (none (by rw [before]) rfl) nofun
  | unread before absent => simp [reader] at absent
  | startupTrigger signal before => exact tracked_of_none (none before rfl) nofun
  | take event rest batch items before =>
    rcases before with before | ⟨old, before⟩
    · exact tracked_of_none (none before rfl) nofun
    · exact tracked_of_none (none before rfl) nofun
  | note event rest pc items tracking =>
    generalize hpc : s.pc = before at tracking
    cases tracking with
    | comparing dirty =>
      refine ⟨Or.inr rfl, Or.inl ?_, nofun⟩
      rfl
    | submitting origin dirty => exact tracked_of_none (none (by rw [hpc]) rfl) nofun
    | ownRun origin dirty => exact tracked_of_none (none (by rw [hpc]) rfl) nofun
  | suppress event rest items suppressing =>
    refine ⟨old.closed, Or.inr (spared (by simp)), ?_⟩
    intro h
    have away : s.pc.head ≠ .recvHead := by
      generalize s.pc = pc at suppressing
      cases suppressing <;> nofun
    exact absurd h away
  | compare batch before => exact tracked_of_none (none before rfl) nofun
  | submitUnread batch before => exact tracked_of_none (none before rfl) nofun
  | progress origin dirty running before =>
    refine tracked_of_none ?_ nofun
    rcases before with before | ⟨old, before⟩
    · exact none (by rw [before]) rfl
    · exact none (by rw [before]) rfl
  | fail origin dirty event failing =>
    refine absurd ?_ (succeeded event (by simp))
    rcases failing.event_cases with rfl | rfl | ⟨report, rfl, bad⟩
    · trivial
    · trivial
    · exact bad
  | succeed origin dirty running report good before =>
    exact tracked_runSucceeded reader (none (by rw [before]) rfl) origin dirty
  | settleOwn origin dirty deadline before =>
    exact tracked_afterSettle reader (none (by rw [before]) rfl) origin dirty
  | started value => exact absurd (by simp) (unread .start (.ok value))
  | startFailed error => exact absurd (by simp) (unread .start (.error error))
  | startStopped error => exact absurd (by simp) (unread .start (.error error))
  | unchanged dirty value => exact absurd (by simp) (unread .compare (.ok value))
  | changed dirty value => exact absurd (by simp) (unread .compare (.ok value))
  | compareFailed dirty error => exact absurd (by simp) (unread .compare (.error error))
  | compareStopped dirty => exact absurd (by simp) (unread .compare (.error .cancelled))
  | rebaselined origin dirty value => exact absurd (by simp) (unread .rebaseline (.ok value))
  | rebaselineFailed origin dirty error =>
    exact absurd (by simp) (unread .rebaseline (.error error))
  | rebaselineStopped origin dirty =>
    exact absurd (by simp) (unread .rebaseline (.error .cancelled))

section Emitted

/-- The labels that emit an event: a read is reported by its completion, and an event is
consumed by a receive. -/
def Event.Fits (label : Label V) : Event V → Prop
  | .readDone _ _ => label.isReadDone = true
  | .consumed _ => label = .recv
  | _ => True

variable {x : Event V} {label : Label V}

theorem fits_checkNow (h : x ∈ (checkNow runner).2) : x.Fits label := by
  by_cases reader : runner.stateReader = true
  · simp only [checkNow, reader, if_true, List.mem_cons, List.not_mem_nil, or_false] at h
    rcases h with rfl | rfl <;> trivial
  · simp only [checkNow, emit, submit, reader, Bool.false_eq_true, if_false, List.mem_cons,
      List.not_mem_nil, or_false] at h
    rcases h with rfl | rfl <;> trivial

theorem fits_conclude {dirty : DirtyTracker} (h : x ∈ (conclude dirty).2) : x.Fits label := by
  obtain ⟨-, rfl⟩ := mem_conclude.mp h
  trivial

theorem fits_runFailed {now : Nat} {origin : Origin} {dirty : DirtyTracker}
    (h : x ∈ (runFailed now origin dirty).2) : x.Fits label := by
  rw [mem_runFailed h]
  trivial

theorem fits_runSucceeded {now : Nat} {origin : Origin} {dirty : DirtyTracker}
    (h : x ∈ (runSucceeded runner now origin dirty).2) : x.Fits label := by
  rcases mem_runSucceeded h with rfl | rfl | rfl <;> trivial

theorem fits_emit {event : Event V} {next : Next V} (h : x ∈ (emit event next).2)
    (first : event.Fits label) (rest : ∀ x ∈ next.2, x.Fits label) : x.Fits label := by
  rcases List.mem_cons.mp h with rfl | h
  · exact first
  · exact rest x h

theorem proceed_fits (h : proceed runner s = some (t, es)) (hx : x ∈ es) : x.Fits label := by
  cases hpc : s.pc with
  | boot =>
    simp only [proceed, hpc] at h
    split at h
    · cases h
      rw [List.mem_singleton.mp hx]
      trivial
    · cases h
      simp only [List.mem_cons, List.not_mem_nil, or_false] at hx
      rcases hx with rfl | rfl <;> trivial
  | recvHead =>
    simp only [proceed, hpc] at h
    split at h
    · cases h
      simp only [emit, submit, List.mem_cons, List.not_mem_nil, or_false] at hx
      rcases hx with rfl | rfl <;> trivial
    · cases h
      cases hx
  | settleHead batch =>
    simp only [proceed, hpc] at h
    split at h
    · cases h
      exact fits_checkNow hx
    · cases h
      cases hx
  | startRead | recvWait | settling | comparing | submitting | ownRun | ownSettle
  | rebaselining | ended => simp [proceed, hpc] at h

theorem startupChanged_fits (h : startupChanged s = some (t, es)) (hx : x ∈ es) :
    x.Fits label := by
  simp only [startupChanged] at h
  split at h
  · split at h
    · cases h
    · split at h
      · cases h
        simp only [emit, submit, List.mem_cons, List.not_mem_nil, or_false] at hx
        rcases hx with rfl | rfl <;> trivial
      · cases h
        cases hx
    · cases h
      cases hx
  · cases h

theorem recv_fits (h : recv s = some (t, es)) (hx : x ∈ es) : x.Fits (.recv : Label V) := by
  simp only [recv] at h
  split at h
  · cases h
  · split at h <;> cases h <;> cases hx
  · have kind : ∃ suppressed, x = .consumed suppressed := by
      split at h <;> (try split at h) <;> cases h <;> exact ⟨_, List.mem_singleton.mp hx⟩
    obtain ⟨suppressed, rfl⟩ := kind
    rfl

variable [DecidableEq V]

theorem fits_compared {baseline : Option (Baseline V)} {dirty : DirtyTracker}
    (h : x ∈ (compared baseline dirty value).2) : x.Fits label := by
  by_cases same : baseline = some (.known value)
  · rw [compared, if_pos same] at h
    exact fits_emit h trivial fun y hy => fits_conclude hy
  · rw [compared, if_neg same] at h
    rw [List.mem_singleton.mp h]
    trivial

theorem readDone_fits {result : Except StateReadError V}
    (h : readDone runner s result = some (t, es)) (hx : x ∈ es) :
    x.Fits (.readDone result : Label V) := by
  simp only [readDone] at h
  split at h
  · split at h
    · cases h
      simp only [List.mem_cons, List.not_mem_nil, or_false] at hx
      rcases hx with rfl | rfl | rfl <;> trivial
    · cases h
      rw [List.mem_singleton.mp hx]
      rfl
    · split at h
      · cases h
        simp only [List.mem_cons, List.not_mem_nil, or_false] at hx
        rcases hx with rfl | rfl <;> trivial
      · cases h
        simp only [List.mem_cons, List.not_mem_nil, or_false] at hx
        rcases hx with rfl | rfl <;> trivial
  · split at h
    · cases h
      exact fits_emit hx rfl fun y hy => fits_compared hy
    · cases h
      rw [List.mem_singleton.mp hx]
      rfl
    · cases h
      exact fits_emit hx rfl fun y hy => fits_conclude hy
  · split at h
    · cases h
      exact fits_emit hx rfl fun y hy => fits_conclude hy
    · cases h
      rw [List.mem_singleton.mp hx]
      rfl
    · cases h
      exact fits_emit hx rfl fun y hy => fits_conclude hy
  · cases h

theorem step_fits (h : step runner s label = some (t, es)) (hx : x ∈ es) : x.Fits label := by
  cases label with
  | readDone result => exact readDone_fits h hx
  | proceed => exact proceed_fits h hx
  | shutdownChanged =>
    simp only [step, shutdownChanged] at h
    split at h
    · cases h
    · split at h <;> cases h <;> cases hx
  | startupChanged => exact startupChanged_fits h hx
  | recv => exact recv_fits h hx
  | timer =>
    simp only [step, timer] at h
    split at h
    · split at h
      · cases h
        exact fits_checkNow hx
      · cases h
    · split at h
      · cases h
        rcases mem_afterSettle hx with rfl | rfl | rfl <;> trivial
      · cases h
    · cases h
  | startDone accepted =>
    simp only [step, startDone] at h
    split at h
    · split at h
      · cases h
        cases hx
      · cases h
        exact fits_emit hx trivial fun y hy => fits_runFailed hy
    · cases h
  | lifecycle message =>
    simp only [step, lifecycle] at h
    split at h
    · split at h
      · cases h
        cases hx
      · cases h
        refine fits_emit hx trivial ?_
        intro y hy
        split at hy
        · exact fits_runSucceeded hy
        · exact fits_runFailed hy
      · cases h
        exact fits_emit hx trivial fun y hy => fits_runFailed hy
    · cases h
  | setStartup value =>
    cases h
    rw [List.mem_singleton.mp hx]
    trivial
  | notify event =>
    simp only [step] at h
    split at h <;> cases h
    cases hx
  | closeEvents => cases h; cases hx
  | setShutdown value => cases h; cases hx
  | dropShutdown => cases h; cases hx
  | dropStartup => cases h; cases hx
  | advance duration => cases h; cases hx

end Emitted

theorem suppressed_move (move : Move runner s t es) (h : .consumed true ∈ es) :
    ∃ event, s.events.items = event :: t.events.items ∧ Suppressing s.pc := by
  cases move with
  | suppress event rest items suppressing => exact ⟨event, items, suppressing⟩
  | fail origin dirty event failing =>
    rcases List.mem_cons.mp h with rfl | h
    · rcases failing.event_cases with h | h | ⟨report, h, -⟩ <;> cases h
    · cases mem_runFailed h
  | succeed origin dirty running report good before =>
    rcases List.mem_cons.mp h with h | h
    · cases h
    · rcases mem_runSucceeded h with h | h | h <;> cases h
  | settleOwn origin dirty deadline before due =>
    rcases mem_afterSettle h with h | h | h <;> cases h
  | startStopped error ready why before =>
    rcases why with ⟨-, rfl⟩ | rfl <;> simp at h
  | quiet | signal | stop | startRead | unread | started | startFailed | startupTrigger | take
  | note | compare | submitUnread | unchanged | changed | compareFailed | compareStopped | progress
  | rebaselined | rebaselineFailed | rebaselineStopped => simp at h

/-- An operation that ends clean returns to `recv_work`, which needs a current baseline. -/
theorem tracked_conclude {dirty : DirtyTracker}
    (clean : dirty.first = none → s.baseline = some (.known value) ∨ Outstanding undelivered s) :
    Tracked value undelivered none { s with pc := (conclude (V := V) dirty).1 } := by
  refine tracked_of_none rfl ?_
  rcases conclude_cases (V := V) dirty with ⟨none, -⟩ | ⟨batch, -, hc⟩
  · exact fun _ => clean none
  · rw [hc]
    nofun

section
variable [DecidableEq V] {w u : Watched V}

theorem tracked_complete {v : V} (old : Tracked value undelivered (some v) s)
    (h : readDone runner s (.ok v) = some (t, es)) : Tracked value undelivered none t := by
  have covered : s.pc.excused = false → v = value ∨ Outstanding undelivered s := by
    intro unexcused
    rcases old.covered with excused | covered
    · rw [unexcused] at excused
      cases excused
    · exact covered v rfl
  simp only [readDone] at h
  split at h
  · rename_i hpc
    cases h
    refine tracked_of_none rfl fun _ => ?_
    rcases covered (by rw [hpc]; rfl) with rfl | out
    · exact Or.inl rfl
    · exact Or.inr out
  · rename_i dirty hpc
    cases h
    by_cases same : s.baseline = some (.known v)
    · rw [compared, if_pos same]
      refine tracked_conclude fun clean => ?_
      rcases covered (by rw [hpc]; simp [Pc.excused, clean]) with rfl | out
      · exact Or.inl same
      · exact Or.inr out
    · rw [compared, if_neg same]
      refine tracked_of_none rfl fun h => ?_
      cases h
  · rename_i origin dirty hpc
    cases h
    refine tracked_conclude (s := { s with baseline := some (.known v) }) fun _ => ?_
    rcases covered (by rw [hpc]; rfl) with rfl | out
    · exact Or.inl rfl
    · exact Or.inr out
  · cases h

/-- Where the step consumes a suppressed event, what the snapshot misses stays covered. -/
theorem covered_of_spares (w : Watched V) {label : Label V}
    (old : Tracked w.value w.undelivered w.snapshot w.source)
    (spares : w.spares (.inner label) = true) (h : step runner w.source label = some (t, es))
    (suppressed : .consumed true ∈ es) :
    Covered w.value w.undelivered w.snapshot t := by
  intro v hv
  obtain rfl : label = .recv := step_fits h suppressed
  obtain ⟨event, items, suppressing⟩ := suppressed_move (step_move h) suppressed
  generalize hpc : w.source.pc = pc at suppressing
  cases suppressing with
  | ownRun origin dirty =>
    rw [old.none (by rw [hpc]; rfl)] at hv
    cases hv
  | ownSettle origin dirty deadline =>
    rw [old.none (by rw [hpc]; rfl)] at hv
    cases hv
  | rebaselining origin dirty =>
    have more : v = w.value ∨ 1 < w.outstanding := by
      simpa [Watched.spares, hpc, hv] using spares
    rcases more with same | more
    · exact Or.inl same
    · right
      by_cases empty : t.events.items = []
      · have one : w.source.events.items.length = 1 := by simp [items, empty]
        simp only [Watched.outstanding, one] at more
        exact Or.inl (by omega)
      · exact Or.inr empty

theorem tracked_step (reader : runner.stateReader = true) (slots : 0 < runner.capacity)
    {label : WatchedLabel V} (old : Tracked w.value w.undelivered w.snapshot w.source)
    (h : Watched.step runner w label = some (u, es)) (succeeded : ∀ x ∈ es, ¬ x.RunFailed)
    (spares : w.spares label = true) : Tracked u.value u.undelivered u.snapshot u.source := by
  cases label with
  | change value =>
    cases h
    exact tracked_of_outstanding old rfl (Or.inl (Nat.succ_pos _))
  | deliver event =>
    simp only [Watched.step] at h
    split at h
    · obtain ⟨next, hs, heq⟩ := Option.map_eq_some_iff.mp h
      cases heq
      simp only [step] at hs
      split at hs
      · cases hs
        exact tracked_of_outstanding old rfl
          (Or.inr (Mpsc.trySend_nonempty slots event w.source.events))
      · cases hs
    · cases h
  | snap =>
    simp only [Watched.step] at h
    split at h
    · rename_i reading
      cases h
      obtain ⟨isRead, -⟩ := Bool.and_eq_true_iff.mp reading
      have holding : w.source.pc.holding = true := by
        cases hpc : w.source.pc <;> rw [hpc] at isRead <;> first | rfl | cases isRead
      refine ⟨Or.inr holding, Or.inr ?_, old.current⟩
      rintro v ⟨⟩
      exact Or.inl rfl
    · cases h
  | complete =>
    simp only [Watched.step] at h
    split at h
    · cases h
    · rename_i v hv
      obtain ⟨next, hs, heq⟩ := Option.map_eq_some_iff.mp h
      cases heq
      have done : readDone runner w.source (.ok v) = some (next.1, next.2) := hs
      exact tracked_complete (hv ▸ old) done
  | inner label =>
    simp only [Watched.step] at h
    split at h
    · cases h
    · rename_i other
      obtain ⟨next, hs, heq⟩ := Option.map_eq_some_iff.mp h
      cases heq
      refine tracked_move reader old (step_move hs) ?_ succeeded
        fun suppressed => covered_of_spares w old spares hs suppressed
      intro purpose result hm
      exact other (step_fits hs hm)

theorem tracked_run {runOnStartup : Bool} {labels : List (WatchedLabel V)} {tr : List (Event V)}
    (reader : runner.stateReader = true) (slots : 0 < runner.capacity)
    (spares : Meets (Watched.step runner) (fun w label => w.spares label = true)
      (Watched.start runOnStartup value) labels)
    (run : exec (Watched.step runner) (Watched.start runOnStartup value) labels = some (w, tr))
    (succeeded : ∀ x ∈ tr, ¬ x.RunFailed) :
    Tracked w.value w.undelivered w.snapshot w.source := by
  have kept : (∀ x ∈ [] ++ tr, ¬ x.RunFailed) →
      Tracked w.value w.undelivered w.snapshot w.source := by
    refine exec_invariant_of_meets (P := fun tr w => (∀ x ∈ tr, ¬ x.RunFailed) →
      Tracked w.value w.undelivered w.snapshot w.source) ?_ ?_ spares run
    · intro past m label n new old spared h good
      exact tracked_step reader slots (old fun x hx => good x (by simp [hx])) h
        (fun x hx => good x (by simp [hx])) spared
    · exact fun _ => tracked_of_none rfl nofun
  exact kept succeeded

/-- Whenever the runner is blocked in `recv_work` with no event queued or undelivered, its
baseline is the current value of the watched state, if every own run succeeded and no
rebaseline read suppressed the last event of a change that its snapshot misses. -/
theorem quiescent_baseline_is_current {runOnStartup : Bool} {labels : List (WatchedLabel V)}
    {tr : List (Event V)} (reader : runner.stateReader = true) (slots : 0 < runner.capacity)
    (run : exec (Watched.step runner) (Watched.start runOnStartup value) labels = some (w, tr))
    (succeeded : ∀ x ∈ tr, ¬ x.RunFailed)
    (spares : Meets (Watched.step runner) (fun w label => w.spares label = true)
      (Watched.start runOnStartup value) labels)
    (blocked : w.source.pc = .recvWait) (drained : w.source.events.items = [])
    (delivered : w.undelivered = 0) : w.source.baseline = some (.known w.value) := by
  have tracked := tracked_run reader slots spares run succeeded
  rcases tracked.current (by rw [blocked]; rfl) with known | out
  · exact known
  · rcases out with out | out
    · omega
    · exact absurd drained out

private def watchedSource : FsStateRunner := ⟨2, 10, 1, true, false, 64⟩

private def goodReport : CommandRunReport := .outcome (.ofExitStatus (some 0) none)

/-- A change is compared, its run succeeds, and the rebaseline read takes its snapshot. -/
private def snapshotTaken : List (WatchedLabel Nat) :=
  [.inner .proceed, .snap, .complete, .change 1, .deliver .changed, .inner .proceed, .inner .recv,
    .inner (.advance 2), .inner .proceed, .snap, .complete, .inner (.startDone true),
    .inner (.lifecycle (some .started)), .inner (.lifecycle (some (.finished goodReport))),
    .inner (.advance 1), .inner .timer, .snap]

theorem example_baseline_is_current :
    let labels := snapshotTaken ++ [.complete, .inner .proceed]
    let r := (exec (Watched.step watchedSource) (Watched.start false 0) labels).get rfl
    r.1.source.baseline = some (.known r.1.value) := by
  have run := (Option.some_get (rfl : (exec (Watched.step watchedSource) (Watched.start false 0)
    (snapshotTaken ++ [.complete, .inner .proceed])).isSome = true)).symm
  exact quiescent_baseline_is_current rfl (by decide) run (by decide) (by decide) rfl rfl rfl

/-- A change after that snapshot whose event the read suppresses is lost: the runner waits
for work, nothing is outstanding, and the baseline is not the current value. -/
theorem suppressed_change_is_lost :
    let labels := snapshotTaken ++
      [.change 2, .deliver .changed, .inner .recv, .complete, .inner .proceed]
    let r := (exec (Watched.step watchedSource) (Watched.start false 0) labels).get rfl
    (∀ x ∈ r.2, ¬ x.RunFailed) ∧
      r.1.source.pc = .recvWait ∧ r.1.source.events.items = [] ∧ r.1.undelivered = 0 ∧
      r.1.source.baseline = some (.known 1) ∧ r.1.value = 2 :=
  ⟨by decide, rfl, rfl, rfl, rfl, rfl⟩

end

end FsState

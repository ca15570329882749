import Mailwake.FsState

/-!
# Moves of the filesystem-state source

Every step of the runner is one of the moves below. A move says where the operation
stands before and after it, what becomes of the baseline and the queued events, and
what is emitted; later invariants are proved of moves.
-/
namespace FsState
open Channel CommandReport
universe u
variable {V : Type u}

/-- A wait counts as the head of its loop. -/
def Pc.head : Pc → Pc
  | .recvWait => .recvHead
  | .settling batch => .settleHead batch
  | pc => pc

/-- The states in which an event is noted in the operation's dirty tracker. -/
inductive Tracking (now : Nat) : Pc → Pc → Prop where
  | comparing (dirty : DirtyTracker) :
      Tracking now (.comparing dirty) (.comparing (dirty.noteNow now))
  | submitting (origin : Origin) (dirty : DirtyTracker) :
      Tracking now (.submitting origin dirty) (.submitting origin (dirty.noteNow now))
  | ownRun (origin : Origin) (dirty : DirtyTracker) :
      Tracking now (.ownRun origin dirty false) (.ownRun origin (dirty.noteNow now) false)

/-- The states in which an event is attributed to the own command. -/
inductive Suppressing : Pc → Prop where
  | ownRun (origin : Origin) (dirty : DirtyTracker) : Suppressing (.ownRun origin dirty true)
  | ownSettle (origin : Origin) (dirty : DirtyTracker) (deadline : Nat) :
      Suppressing (.ownSettle origin dirty deadline)
  | rebaselining (origin : Origin) (dirty : DirtyTracker) :
      Suppressing (.rebaselining origin dirty)

/-- How a submission fails: it is refused, its lifecycle ends early, or its report is bad. -/
inductive Failing (now : Nat) : Pc → Origin → DirtyTracker → Event V → Prop where
  | rejected (origin : Origin) (dirty : DirtyTracker) :
      Failing now (.submitting origin dirty) origin dirty (.rejected origin)
  | lost (origin : Origin) (dirty : DirtyTracker) (running : Bool) :
      Failing now (.ownRun origin dirty running) origin dirty (.completionLost origin)
  | finished (origin : Origin) (dirty : DirtyTracker) (running : Bool)
      (report : CommandRunReport) (bad : report.success = false) :
      Failing now (.ownRun origin dirty running) origin dirty (.finished origin report now)

/-- The step moves neither the operation nor a queued event. -/
structure Quiet (s t : State V) : Prop where
  pc : t.pc.head = s.pc.head
  baseline : t.baseline = s.baseline
  items : s.events.items ≠ [] → t.events.items ≠ []
  startup : ∀ w, t.startup = some w → ∃ v, s.startup = some v ∧ w.value = v.value

inductive Move (runner : FsStateRunner) (s : State V) : State V → List (Event V) → Prop where
  | quiet {t : State V} (same : Quiet s t) : Move runner s t []
  | signal (value : Bool) :
      Move runner s { s with startup := s.startup.map (·.send value) } [.startupSignal value]
  | stop {t : State V} (after : t.pc = .ended) (baseline : t.baseline = s.baseline)
      (startup : t.startup = s.startup) : Move runner s t []
  | startRead (before : s.pc = .boot) (reader : runner.stateReader = true) :
      Move runner s { s with pc := .startRead } [.readStarted .start]
  | unread (before : s.pc = .boot) (reader : runner.stateReader = false) :
      Move runner s { s with pc := .recvHead } [.initialReady true, .awaitingWork]
  | started (value : V) (before : s.pc = .startRead) :
      Move runner s { s with baseline := some (.known value), pc := .recvHead }
        [.readDone .start (.ok value), .initialReady true, .awaitingWork]
  | startFailed (error : StateReadError) (kept : error ≠ .cancelled) (before : s.pc = .startRead) :
      Move runner s { s with baseline := some .unknown, pc := .recvHead }
        [.readDone .start (.error error), .awaitingWork]
  | startStopped (error : StateReadError) (ready : List (Event V))
      (why : error = .cancelled ∧ ready = [] ∨ ready = [.initialReady false])
      (before : s.pc = .startRead) :
      Move runner s { s with pc := .ended } (.readDone .start (.error error) :: ready)
  | startupTrigger (signal : Watch Bool) (before : s.pc.head = .recvHead)
      (given : s.startup = some signal) (set : signal.value = true) :
      Move runner s { s with startup := none, pc := .submitting .startup .clean }
        [.signalled, .submitted .startup]
  | take (event : FsStateEvent) (rest : List FsStateEvent) (batch : EventBatch)
      (items : s.events.items = event :: rest)
      (before : s.pc.head = .recvHead ∨ ∃ old, s.pc.head = .settleHead old) :
      Move runner s { s with events := { s.events with items := rest }, pc := .settleHead batch }
        [.consumed false]
  | note (event : FsStateEvent) (rest : List FsStateEvent) (pc : Pc)
      (items : s.events.items = event :: rest) (tracking : Tracking s.now s.pc pc) :
      Move runner s { s with events := { s.events with items := rest }, pc := pc }
        [.consumed false]
  | suppress (event : FsStateEvent) (rest : List FsStateEvent)
      (items : s.events.items = event :: rest) (suppressing : Suppressing s.pc) :
      Move runner s { s with events := { s.events with items := rest } } [.consumed true]
  | compare (batch : EventBatch) (before : s.pc.head = .settleHead batch)
      (reader : runner.stateReader = true) :
      Move runner s { s with pc := .comparing .clean } [.settled, .readStarted .compare]
  | submitUnread (batch : EventBatch) (before : s.pc.head = .settleHead batch)
      (reader : runner.stateReader = false) :
      Move runner s { s with pc := .submitting .batch .clean } [.settled, .submitted .batch]
  | unchanged (dirty : DirtyTracker) (value : V) (before : s.pc = .comparing dirty)
      (same : s.baseline = some (.known value)) :
      Move runner s { s with pc := (conclude (V := V) dirty).1 }
        (.readDone .compare (.ok value) :: .unchanged value :: (conclude dirty).2)
  | changed (dirty : DirtyTracker) (value : V) (before : s.pc = .comparing dirty)
      (other : s.baseline ≠ some (.known value)) :
      Move runner s { s with pc := .submitting .batch .clean }
        [.readDone .compare (.ok value), .submitted .batch]
  | compareFailed (dirty : DirtyTracker) (error : StateReadError)
      (before : s.pc = .comparing dirty) :
      Move runner s { s with pc := (conclude (V := V) dirty).1 }
        (.readDone .compare (.error error) :: (conclude dirty).2)
  | compareStopped (dirty : DirtyTracker) (before : s.pc = .comparing dirty) :
      Move runner s { s with pc := .ended } [.readDone .compare (.error .cancelled)]
  | progress (origin : Origin) (dirty : DirtyTracker) (running : Bool)
      (before : s.pc = .submitting origin dirty ∨ ∃ old, s.pc = .ownRun origin dirty old) :
      Move runner s { s with pc := .ownRun origin dirty running } []
  | fail (origin : Origin) (dirty : DirtyTracker) (event : Event V)
      (failing : Failing s.now s.pc origin dirty event) :
      Move runner s { s with pc := (runFailed (V := V) s.now origin dirty).1 }
        (event :: (runFailed s.now origin dirty).2)
  | succeed (origin : Origin) (dirty : DirtyTracker) (running : Bool)
      (report : CommandRunReport) (good : report.success = true)
      (before : s.pc = .ownRun origin dirty running) :
      Move runner s { s with pc := (runSucceeded (V := V) runner s.now origin dirty).1 }
        (.finished origin report s.now :: (runSucceeded runner s.now origin dirty).2)
  | settleOwn (origin : Origin) (dirty : DirtyTracker) (deadline : Nat)
      (before : s.pc = .ownSettle origin dirty deadline) (due : deadline ≤ s.now) :
      Move runner s { s with pc := (afterSettle (V := V) runner s.now origin dirty).1 }
        (afterSettle runner s.now origin dirty).2
  | rebaselined (origin : Origin) (dirty : DirtyTracker) (value : V)
      (before : s.pc = .rebaselining origin dirty) :
      Move runner s
        { s with baseline := some (.known value), pc := (conclude (V := V) dirty).1 }
        (.readDone .rebaseline (.ok value) :: (conclude dirty).2)
  | rebaselineFailed (origin : Origin) (dirty : DirtyTracker) (error : StateReadError)
      (before : s.pc = .rebaselining origin dirty) :
      Move runner s { s with pc := (conclude (V := V) dirty).1 }
        (.readDone .rebaseline (.error error) :: (conclude dirty).2)
  | rebaselineStopped (origin : Origin) (dirty : DirtyTracker)
      (before : s.pc = .rebaselining origin dirty) :
      Move runner s { s with pc := .ended } [.readDone .rebaseline (.error .cancelled)]

variable {runner : FsStateRunner} {s t : State V} {es : List (Event V)}

theorem Quiet.of_pc {pc : Pc} (h : pc.head = s.pc.head) : Quiet s { s with pc := pc } :=
  ⟨h, rfl, fun h => h, fun w h => ⟨w, h, rfl⟩⟩

theorem checkNow_move (batch : EventBatch) (hpc : s.pc.head = .settleHead batch)
    (h : s.goto (checkNow runner) = (t, es)) : Move runner s t es := by
  by_cases reader : runner.stateReader = true
  · simp only [checkNow, reader, if_true] at h
    cases h
    exact .compare batch hpc reader
  · simp only [checkNow, reader] at h
    cases h
    exact .submitUnread batch hpc (by simpa using reader)

theorem proceed_move (h : proceed runner s = some (t, es)) : Move runner s t es := by
  cases hpc : s.pc with
  | boot =>
    simp only [proceed, hpc] at h
    split at h
    · rename_i reader
      cases h
      exact .startRead hpc reader
    · rename_i reader
      cases h
      exact .unread hpc (by simpa using reader)
  | recvHead =>
    simp only [proceed, hpc] at h
    split at h
    · rename_i set
      obtain ⟨signal, given, value⟩ := (Option.any_eq_true _ _).mp set
      cases h
      exact .startupTrigger signal (by simp [hpc, Pc.head]) given value
    · cases h
      exact .quiet (.of_pc (by simp [hpc, Pc.head]))
  | settleHead batch =>
    simp only [proceed, hpc] at h
    split at h
    · exact checkNow_move batch (by simp [hpc, Pc.head]) (Option.some.inj h)
    · cases h
      exact .quiet (.of_pc (by simp [hpc, Pc.head]))
  | startRead | recvWait | settling | comparing | submitting | ownRun | ownSettle
  | rebaselining | ended => simp [proceed, hpc] at h

/-- Inside an operation a notification ends the runner or changes nothing. -/
theorem watch_move (shutdown : Watch Bool) (ended : Bool) :
    Move runner s
      { s with shutdown := shutdown, pc := if ended then .ended else s.pc } [] := by
  by_cases he : ended = true
  · exact .stop (by simp [he]) rfl rfl
  · exact .quiet ⟨by simp [he], rfl, fun h => h, fun w h => ⟨w, h, rfl⟩⟩

theorem shutdownChanged_move (h : shutdownChanged s = some (t, es)) : Move runner s t es := by
  simp only [shutdownChanged] at h
  split at h
  · cases h
  rename_i ok shutdown _
  cases hpc : s.pc with
  | recvWait =>
    simp only [hpc, Option.some.injEq, Prod.mk.injEq] at h
    obtain ⟨rfl, rfl⟩ := h
    by_cases hs : (ok && shutdown.value) = true
    · exact .stop (by simp [hs]) rfl rfl
    · exact .quiet ⟨by simp [hs, hpc, Pc.head], rfl, fun h => h, fun w h => ⟨w, h, rfl⟩⟩
  | settling batch =>
    simp only [hpc, Option.some.injEq, Prod.mk.injEq] at h
    obtain ⟨rfl, rfl⟩ := h
    by_cases hs : (ok && shutdown.value) = true
    · exact .stop (by simp [hs]) rfl rfl
    · exact .quiet ⟨by simp [hs, hpc, Pc.head], rfl, fun h => h, fun w h => ⟨w, h, rfl⟩⟩
  | comparing | submitting | ownRun | ownSettle | rebaselining =>
    simp only [hpc, Option.some.injEq, Prod.mk.injEq] at h
    obtain ⟨rfl, rfl⟩ := h
    have move : Move runner s _ [] := watch_move shutdown (ok && shutdown.value)
    simpa only [hpc] using move
  | boot | startRead | recvHead | settleHead | ended => simp [hpc] at h

theorem startupChanged_move (h : startupChanged s = some (t, es)) : Move runner s t es := by
  simp only [startupChanged] at h
  split at h
  · rename_i startup hpc given
    split at h
    · cases h
    · rename_i next changed
      have same := Watch.changed_value changed
      split at h
      · rename_i set
        cases h
        exact .startupTrigger startup (by simp [hpc, Pc.head]) given (by rw [← same, set])
      · cases h
        refine .quiet ⟨by simp [hpc, Pc.head], rfl, fun h => h, ?_⟩
        rintro w ⟨⟩
        exact ⟨startup, given, same⟩
    · cases h
      refine .quiet ⟨by simp [hpc, Pc.head], rfl, fun h => h, ?_⟩
      rintro w ⟨⟩
  · cases h

theorem recv_move (h : recv s = some (t, es)) : Move runner s t es := by
  simp only [recv] at h
  split at h
  · cases h
  · split at h
    · cases h
      exact .stop rfl rfl rfl
    · cases h
      exact .stop rfl rfl rfl
    · cases h
  · rename_i event events hrecv
    obtain ⟨rest, items, rfl⟩ :
        ∃ rest, s.events.items = event :: rest ∧ events = { s.events with items := rest } := by
      rcases Mpsc.recv_cases hrecv with ⟨x, hx, hitems, halive⟩ | ⟨hx, -⟩
      · obtain rfl := Option.some.inj hx
        exact ⟨events.items, hitems, by cases events; cases halive; rfl⟩
      · cases hx
    split at h
    · rename_i hpc
      cases h
      exact .take event rest _ items (Or.inl (by simp [hpc, Pc.head]))
    · rename_i batch hpc
      cases h
      exact .take event rest _ items (Or.inr ⟨batch, by simp [hpc, Pc.head]⟩)
    · rename_i dirty hpc
      cases h
      exact .note event rest _ items (by rw [hpc]; exact .comparing dirty)
    · rename_i origin dirty hpc
      cases h
      exact .note event rest _ items (by rw [hpc]; exact .submitting origin dirty)
    · rename_i origin dirty running hpc
      by_cases hr : running = true
      · simp only [hr, if_true] at h
        cases h
        exact .suppress event rest items (by rw [hpc, hr]; exact .ownRun origin dirty)
      · simp only [hr] at h
        cases h
        refine .note event rest _ items ?_
        rw [hpc, Bool.not_eq_true running |>.mp hr]
        exact .ownRun origin dirty
    · rename_i origin dirty deadline hpc
      cases h
      exact .suppress event rest items (by rw [hpc]; exact .ownSettle origin dirty deadline)
    · rename_i origin dirty hpc
      cases h
      exact .suppress event rest items (by rw [hpc]; exact .rebaselining origin dirty)
    · cases h

theorem timer_move (h : timer runner s = some (t, es)) : Move runner s t es := by
  simp only [timer] at h
  split at h
  · rename_i batch hpc
    split at h
    · exact checkNow_move batch (by simp [hpc, Pc.head]) (Option.some.inj h)
    · cases h
  · rename_i origin dirty deadline hpc
    split at h
    · rename_i hdue
      obtain ⟨rfl, rfl⟩ := Prod.mk.inj (Option.some.inj h)
      exact .settleOwn origin dirty deadline hpc hdue
    · cases h
  · cases h

theorem startDone_move {accepted : Bool} (h : startDone s accepted = some (t, es)) :
    Move runner s t es := by
  simp only [startDone] at h
  split at h
  · rename_i origin dirty hpc
    split at h
    · cases h
      exact .progress origin dirty false (Or.inl hpc)
    · cases h
      exact .fail origin dirty _ (by rw [hpc]; exact .rejected origin dirty)
  · cases h

theorem lifecycle_move {message : Option CommandLifecycle}
    (h : lifecycle runner s message = some (t, es)) : Move runner s t es := by
  simp only [lifecycle] at h
  split at h
  · rename_i origin dirty running hpc
    split at h
    · cases h
      exact .progress origin dirty true (Or.inr ⟨running, hpc⟩)
    · rename_i report
      by_cases good : report.success = true
      · simp only [good, if_true] at h
        cases h
        exact .succeed origin dirty running report good hpc
      · simp only [good] at h
        cases h
        refine .fail origin dirty _ ?_
        rw [hpc]
        exact .finished origin dirty running report (by simpa using good)
    · cases h
      exact .fail origin dirty _ (by rw [hpc]; exact .lost origin dirty running)
  · cases h

section
variable [DecidableEq V]

theorem readDone_move {result : Except StateReadError V}
    (h : readDone runner s result = some (t, es)) : Move runner s t es := by
  simp only [readDone] at h
  split at h
  · rename_i hpc
    split at h
    · cases h
      exact .started _ hpc
    · cases h
      exact .startStopped _ [] (Or.inl ⟨rfl, rfl⟩) hpc
    · rename_i error kept
      split at h
      · cases h
        exact .startStopped _ _ (Or.inr rfl) hpc
      · cases h
        exact .startFailed error (fun he => kept (by rw [he])) hpc
  · rename_i dirty hpc
    split at h
    · rename_i value
      by_cases same : s.baseline = some (.known value)
      · simp only [compared, same, if_true] at h
        cases h
        exact .unchanged dirty value hpc same
      · simp only [compared, same, if_false] at h
        cases h
        exact .changed dirty value hpc same
    · cases h
      exact .compareStopped dirty hpc
    · cases h
      exact .compareFailed dirty _ hpc
  · rename_i origin dirty hpc
    split at h
    · cases h
      exact .rebaselined origin dirty _ hpc
    · cases h
      exact .rebaselineStopped origin dirty hpc
    · cases h
      exact .rebaselineFailed origin dirty _ hpc
  · cases h

/-- Every step of the runner is one of the moves. -/
theorem step_move {label : Label V} (h : step runner s label = some (t, es)) :
    Move runner s t es := by
  cases label with
  | notify event =>
    simp only [step] at h
    split at h
    · cases h
      exact .quiet ⟨rfl, rfl, Mpsc.trySend_keeps, fun w h => ⟨w, h, rfl⟩⟩
    · cases h
  | closeEvents => cases h; exact .quiet ⟨rfl, rfl, fun h => h, fun w h => ⟨w, h, rfl⟩⟩
  | setShutdown value => cases h; exact .quiet ⟨rfl, rfl, fun h => h, fun w h => ⟨w, h, rfl⟩⟩
  | dropShutdown => cases h; exact .quiet ⟨rfl, rfl, fun h => h, fun w h => ⟨w, h, rfl⟩⟩
  | setStartup value => cases h; exact .signal value
  | dropStartup =>
    cases h
    refine .quiet ⟨rfl, rfl, fun h => h, ?_⟩
    intro w hw
    obtain ⟨v, hv, rfl⟩ := Option.map_eq_some_iff.mp hw
    exact ⟨v, hv, rfl⟩
  | advance duration => cases h; exact .quiet ⟨rfl, rfl, fun h => h, fun w h => ⟨w, h, rfl⟩⟩
  | proceed => exact proceed_move h
  | shutdownChanged => exact shutdownChanged_move h
  | startupChanged => exact startupChanged_move h
  | recv => exact recv_move h
  | timer => exact timer_move h
  | readDone result => exact readDone_move h
  | startDone accepted => exact startDone_move h
  | lifecycle message => exact lifecycle_move h

end

end FsState

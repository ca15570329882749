import Mailwake.FsStateProvenance

/-!
# A failed run stays unreconciled

A batch whose submission failed notes itself, so the runner settles and compares again.
It returns to `recv_work` only after a successful own run, a comparing read that equals
the baseline, or a comparing read that failed.
-/
namespace FsState
open Channel CommandReport Transition
universe u
variable {V : Type u}

namespace Event

/-- The own submission of a settled batch was refused, lost or unsuccessful. -/
def BatchFailed : Event V → Prop
  | .rejected .batch => True
  | .completionLost .batch => True
  | .finished .batch report _ => report.success = false
  | _ => False

/-- An own submission of either origin was refused, lost or unsuccessful. -/
def RunFailed : Event V → Prop
  | .rejected _ => True
  | .completionLost _ => True
  | .finished _ report _ => report.success = false
  | _ => False

instance : DecidablePred (RunFailed (V := V))
  | .rejected _ => isTrue trivial
  | .completionLost _ => isTrue trivial
  | .finished _ report _ => inferInstanceAs (Decidable (report.success = false))
  | .startupSignal _ | .consumed _ | .settled | .signalled | .readStarted _ | .readDone _ _
  | .unchanged _ | .submitted _ | .ownSettled _ _ | .initialReady _ | .awaitingWork => isFalse id

/-- An own submission succeeded, or a comparing read returned the known baseline. -/
def Reconciled : Event V → Prop
  | .finished _ report _ => report.success = true
  | .unchanged _ => True
  | _ => False

/-- Reconciled, or the comparing read failed and the source waits for later work. -/
def Released : Event V → Prop
  | .readDone .compare (.error _) => True
  | x => x.Reconciled

end Event

/-- Work is only awaited when every `failed` event was answered. -/
def Remembers (failed answer : Event V → Prop) (before : List (Event V)) : Event V → Prop
  | .awaitingWork => FollowedBy failed answer before
  | _ => True

/-- The states a failed batch is carried through, and the end of the task. -/
def Pc.carrying : Pc → Bool
  | .settleHead _ => true
  | .settling _ => true
  | .comparing _ => true
  | .submitting .batch _ => true
  | .ownRun .batch _ _ => true
  | .ended => true
  | _ => false

structure Carried (tr : List (Event V)) (s : State V) : Prop where
  owed : FollowedBy Event.BatchFailed Event.Released tr ∨ s.pc.carrying = true
  told : AtEach (Remembers Event.BatchFailed Event.Released) tr

variable {runner : FsStateRunner} {s t : State V} {tr es : List (Event V)}

@[simp] theorem carrying_head (pc : Pc) : pc.head.carrying = pc.carrying := by
  cases pc <;> rfl

theorem Tracking.carrying {now : Nat} {pc next : Pc} (tracking : Tracking now pc next) :
    next.carrying = pc.carrying := by
  cases tracking with
  | comparing dirty => rfl
  | submitting origin dirty => cases origin <;> rfl
  | ownRun origin dirty => cases origin <;> rfl

theorem Carried.followed (old : Carried tr s) (h : s.pc.carrying = false) :
    FollowedBy Event.BatchFailed Event.Released tr := by
  rcases old.owed with followed | carrying
  · exact followed
  · rw [h] at carrying
    cases carrying

theorem carried_of_carrying (told : AtEach (Remembers Event.BatchFailed Event.Released) tr)
    (carrying : t.pc.carrying = true) (silent : .awaitingWork ∉ es) : Carried (tr ++ es) t := by
  refine ⟨Or.inr carrying, told.append_quiet ?_⟩
  intro x hx before
  cases x with
  | awaitingWork => exact absurd hx silent
  | startupSignal | consumed | settled | signalled | readStarted | readDone | unchanged | submitted
  | rejected | completionLost | finished | ownSettled | initialReady => trivial

/-- Once everything is answered, events that fail nothing leave it so. -/
theorem carried_of_followed (told : AtEach (Remembers Event.BatchFailed Event.Released) tr)
    (followed : FollowedBy Event.BatchFailed Event.Released tr)
    (quiet : ∀ x ∈ es, ¬ x.BatchFailed) : Carried (tr ++ es) t := by
  refine ⟨Or.inl (followed.append quiet), told.append ?_⟩
  intro before x after he
  cases x with
  | awaitingWork =>
    refine followed.append ?_
    intro y hy
    exact quiet y (by simp [he, hy])
  | startupSignal | consumed | settled | signalled | readStarted | readDone | unchanged | submitted
  | rejected | completionLost | finished | ownSettled | initialReady => trivial

theorem carried_of_answer {x : Event V}
    (told : AtEach (Remembers Event.BatchFailed Event.Released) tr) (answer : x.Released)
    (silent : Remembers Event.BatchFailed Event.Released tr x)
    (quiet : ∀ y ∈ x :: es, ¬ y.BatchFailed) : Carried (tr ++ x :: es) t := by
  have followed : FollowedBy Event.BatchFailed Event.Released (tr ++ [x]) :=
    followedBy_append_answer ⟨x, by simp, answer⟩ fun y hy => quiet y (by simp_all)
  rw [List.append_cons]
  exact carried_of_followed (told.append_one silent) followed
    fun y hy => quiet y (List.mem_cons_of_mem x hy)

theorem not_batchFailed_conclude {dirty : DirtyTracker} {x : Event V}
    (h : x ∈ (conclude dirty).2) : ¬ x.BatchFailed := by
  obtain ⟨-, rfl⟩ := mem_conclude.mp h
  exact id

theorem not_batchFailed_afterSettle {now : Nat} {origin : Origin} {dirty : DirtyTracker}
    {x : Event V} (h : x ∈ (afterSettle runner now origin dirty).2) : ¬ x.BatchFailed := by
  rcases mem_afterSettle h with rfl | rfl | rfl <;> exact id

theorem not_batchFailed_runSucceeded {now : Nat} {origin : Origin} {dirty : DirtyTracker}
    {x : Event V} (h : x ∈ (runSucceeded runner now origin dirty).2) : ¬ x.BatchFailed := by
  rcases mem_runSucceeded h with rfl | rfl | rfl <;> exact id

/-- The failed batch is the next batch; a failed start-up run concerns no batch. -/
theorem carried_fail {origin : Origin} {dirty : DirtyTracker} {event : Event V}
    (old : Carried tr s) (failing : Failing s.now s.pc origin dirty event) :
    Carried (tr ++ event :: (runFailed s.now origin dirty).2)
      { s with pc := (runFailed (V := V) s.now origin dirty).1 } := by
  have kind := failing.event_cases
  cases origin with
  | batch =>
    refine carried_of_carrying old.told ?_ ?_
    · rcases conclude_cases (V := V) (dirty.noteNow s.now) with ⟨clean, -⟩ | ⟨batch, -, hc⟩
      · exact absurd clean (DirtyTracker.noteNow_first s.now dirty)
      · simp only [runFailed, hc]
        rfl
    · intro hm
      rcases List.mem_cons.mp hm with rfl | hm
      · rcases kind with h | h | ⟨report, h, -⟩ <;> cases h
      · exact DirtyTracker.noteNow_first s.now dirty (mem_conclude.mp hm).1
  | startup =>
    have followed := old.followed (by
      generalize s.pc = pc at failing
      cases failing <;> rfl)
    refine carried_of_followed old.told followed ?_
    intro x hx
    rcases List.mem_cons.mp hx with rfl | hx
    · rcases kind with rfl | rfl | ⟨report, rfl, -⟩ <;> exact id
    · exact not_batchFailed_conclude hx

theorem carried_move (old : Carried tr s) (move : Move runner s t es) :
    Carried (tr ++ es) t := by
  have same {pc : Pc} (h : s.pc.head = pc) : s.pc.carrying = pc.carrying := by
    rw [← carrying_head, h]
  cases move with
  | quiet quiet =>
    refine ⟨?_, by simpa using old.told⟩
    rw [List.append_nil, ← carrying_head, quiet.pc, carrying_head]
    exact old.owed
  | signal value =>
    rcases old.owed with followed | carrying
    · exact carried_of_followed old.told followed (by simp [Event.BatchFailed])
    · exact carried_of_carrying old.told carrying (by simp)
  | stop after => exact carried_of_carrying old.told (by rw [after]; rfl) (by simp)
  | startRead before =>
    exact carried_of_followed old.told (old.followed (by rw [before]; rfl))
      (by simp [Event.BatchFailed])
  | unread before =>
    exact carried_of_followed old.told (old.followed (by rw [before]; rfl))
      (by simp [Event.BatchFailed])
  | started value before =>
    exact carried_of_followed old.told (old.followed (by rw [before]; rfl))
      (by simp [Event.BatchFailed])
  | startFailed error kept before =>
    exact carried_of_followed old.told (old.followed (by rw [before]; rfl))
      (by simp [Event.BatchFailed])
  | startStopped error ready why before =>
    refine carried_of_carrying old.told rfl ?_
    rcases why with ⟨-, rfl⟩ | rfl <;> simp
  | startupTrigger signal before =>
    exact carried_of_followed old.told (old.followed (same before))
      (by simp [Event.BatchFailed])
  | take event rest batch items before => exact carried_of_carrying old.told rfl (by simp)
  | note event rest pc items tracking =>
    rcases old.owed with followed | carrying
    · exact carried_of_followed old.told followed (by simp [Event.BatchFailed])
    · exact carried_of_carrying old.told (tracking.carrying.trans carrying) (by simp)
  | suppress event rest items suppressing =>
    rcases old.owed with followed | carrying
    · exact carried_of_followed old.told followed (by simp [Event.BatchFailed])
    · exact carried_of_carrying old.told carrying (by simp)
  | compare batch before => exact carried_of_carrying old.told rfl (by simp)
  | submitUnread batch before => exact carried_of_carrying old.told rfl (by simp)
  | unchanged dirty value before known =>
    have told : AtEach (Remembers Event.BatchFailed Event.Released)
        (tr ++ [.readDone .compare (.ok value)]) := old.told.append_one trivial
    have carried : Carried ((tr ++ [.readDone .compare (.ok value)]) ++
        .unchanged value :: (conclude dirty).2) { s with pc := (conclude (V := V) dirty).1 } :=
      carried_of_answer told trivial trivial (by simp [Event.BatchFailed])
    simpa using carried
  | changed dirty value before other => exact carried_of_carrying old.told rfl (by simp)
  | compareFailed dirty error before =>
    exact carried_of_answer old.told trivial trivial (by simp [Event.BatchFailed])
  | compareStopped dirty before => exact carried_of_carrying old.told rfl (by simp)
  | progress origin dirty running before =>
    have kept : Pc.carrying (.ownRun origin dirty running) = s.pc.carrying := by
      rcases before with hpc | ⟨old, hpc⟩ <;> rw [hpc] <;> cases origin <;> rfl
    refine ⟨?_, by simpa using old.told⟩
    rw [List.append_nil, kept]
    exact old.owed
  | fail origin dirty event failing => exact carried_fail old failing
  | succeed origin dirty running report good before =>
    refine carried_of_answer old.told good trivial ?_
    intro y hy
    rcases List.mem_cons.mp hy with rfl | hy
    · cases origin with
      | batch =>
        intro bad
        rw [show report.success = false from bad] at good
        cases good
      | startup => exact id
    · exact not_batchFailed_runSucceeded hy
  | settleOwn origin dirty deadline before =>
    exact carried_of_followed old.told (old.followed (by rw [before]; rfl))
      fun x hx => not_batchFailed_afterSettle hx
  | rebaselined origin dirty value before =>
    exact carried_of_followed old.told (old.followed (by rw [before]; rfl))
      (by simp [Event.BatchFailed])
  | rebaselineFailed origin dirty error before =>
    exact carried_of_followed old.told (old.followed (by rw [before]; rfl))
      (by simp [Event.BatchFailed])
  | rebaselineStopped origin dirty before =>
    exact carried_of_followed old.told (old.followed (by rw [before]; rfl))
      (by simp [Event.BatchFailed])

variable [DecidableEq V]

/-- After the submission of a batch failed, the runner returns to `recv_work` only once an
own run has succeeded, a comparing read has returned the known baseline or a comparing
read has failed; without a `state_cmd` there are no reads, and only a successful run does. -/
theorem failed_batch_is_not_forgotten {runOnStartup : Bool} {labels : List (Label V)}
    (run : exec (step runner) (State.start runOnStartup) labels = some (s, tr)) :
    AtEach (Remembers Event.BatchFailed Event.Released) tr ∧
    (∀ before value after, tr = before ++ .unchanged value :: after →
      ∃ past, before = past ++ [.readDone .compare (.ok value)] ∧
        replay past = some (.known value)) ∧
    (runner.stateReader = false → ∀ result, .readDone .compare result ∉ tr) := by
  have carried : Carried tr s :=
    exec_invariant (fun _ _ _ _ _ old h => carried_move old (step_move h))
      ⟨Or.inl followedBy_nil, atEach_nil⟩ run
  have proven := provenance_run run
  refine ⟨carried.told, ?_, ?_⟩
  · intro before value after he
    obtain ⟨past, hp, -, known⟩ := proven.justified before (.unchanged value) after he
    exact ⟨past, hp, known⟩
  · intro unread result hm
    obtain ⟨before, after, he⟩ := List.append_of_mem hm
    obtain ⟨first, rest, hb, ⟨past, hp⟩, -⟩ := proven.justified before _ after he
    have started := (proven.justified (past ++ [.settled]) (.readStarted .compare)
      (rest ++ .readDone .compare result :: after) (by simp [he, hb, hp])).1
    rw [unread] at started
    cases started

private def retrySource : FsStateRunner := ⟨2, 10, 1, true, false, 64⟩

private def failedReport : CommandRunReport := .outcome (.ofExitStatus (some 1) none)

/-- A changed state is submitted, the run fails, and the batch is about to be compared. -/
private def failedRun : List (Label Nat) :=
  [.proceed, .readDone (.ok 0), .notify .changed, .proceed, .recv, .advance 2, .proceed,
    .readDone (.ok 1), .startDone true, .lifecycle (some .started),
    .lifecycle (some (.finished failedReport)), .advance 2, .proceed]

theorem failed_example_batch_is_not_forgotten :
    let r := (exec (step retrySource) (State.start false) failedRun).get rfl
    r.1.pc = .comparing .clean ∧ AtEach (Remembers Event.BatchFailed Event.Released) r.2 := by
  have run := (Option.some_get
    (rfl : (exec (step retrySource) (State.start false) failedRun).isSome = true)).symm
  exact ⟨rfl, (failed_batch_is_not_forgotten run).1⟩

/-- The channels of the runner are left open and no shutdown is sent. -/
def Label.Undisturbed : Label V → Bool
  | .setShutdown _ => false
  | .dropShutdown => false
  | .closeEvents => false
  | _ => true

/-- The next comparing read fails, and the runner awaits work with nothing reconciled. -/
theorem failed_comparing_read_forgets_failed_run :
    let labels := failedRun ++ [.readDone (.error (.failed "exit status: 1"))]
    let r := (exec (step retrySource) (State.start false) labels).get rfl
    labels.all Label.Undisturbed = true ∧ r.1.pc = .recvHead ∧
      ¬ AtEach (Remembers Event.RunFailed Event.Reconciled) r.2 := by
  refine ⟨rfl, rfl, ?_⟩
  intro remembered
  have followed : FollowedBy Event.RunFailed Event.Reconciled
      [.readStarted .start, .readDone .start (.ok 0), .initialReady true, .awaitingWork,
        .consumed false, .settled, .readStarted .compare, .readDone .compare (.ok 1),
        .submitted .batch, .finished .batch failedReport 2, .settled, .readStarted .compare,
        .readDone .compare (.error (.failed "exit status: 1"))] :=
    remembered _ .awaitingWork [] rfl
  obtain ⟨y, hy, reconciled⟩ := followed
    [.readStarted .start, .readDone .start (.ok 0), .initialReady true, .awaitingWork,
      .consumed false, .settled, .readStarted .compare, .readDone .compare (.ok 1),
      .submitted .batch]
    (.finished .batch failedReport 2)
    [.settled, .readStarted .compare, .readDone .compare (.error (.failed "exit status: 1"))]
    rfl rfl
  simp only [List.mem_cons, List.not_mem_nil, or_false] at hy
  rcases hy with rfl | rfl | rfl <;> exact reconciled

end FsState

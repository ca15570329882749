import Mailwake.RunnerRounds

/-!
# The settle period after a resume

`wait_for_quiet` is left when the settle period is over, and at once when the resume listener
has ended and nothing is queued any more.
-/
namespace EventRunner.SystemResumeRunner
open Channel Transition
variable {runner : SystemResumeRunner} {bound : Nat} {labels : List Label} {tr : List Event}
  {s t : State Wait}

/-- A submission comes `settle` after the last event consumed before it, or later. -/
def Settled (runner : SystemResumeRunner) (r : Record) (time : Nat) : Prop :=
  ∀ last, r.last = some last → last + runner.settle ≤ time

/-- The wait ends `settle` after the last event. -/
def Settling (runner : SystemResumeRunner) (r : Record) (_ : Nat) : Wait → Prop
  | .quiet settleUntil => ∃ last, r.last = some last ∧ settleUntil = last + runner.settle

/-- The settle period of the wait is over. -/
def Over : Wait → Nat → Prop
  | .quiet settleUntil, now => settleUntil ≤ now

instance : ∀ wait now, Decidable (Over wait now)
  | .quiet settleUntil, now => inferInstanceAs (Decidable (settleUntil ≤ now))

theorem settling_enter (settles : 0 < runner.settle) {Q : Record → Nat → Prop} {r : Record}
    {now : Nat} (last : r.last = some now) :
    Outcome (Settling runner) Q r now (runner.loop.enter now r.finished) := by
  have waits : runner.loop.enter now r.finished = ⟨false, some (.quiet (now + runner.settle))⟩ :=
    if_neg (by omega)
  rw [waits]
  intro same hsame
  exact ⟨now, (hsame rfl).trans last, rfl⟩

theorem settling_heard {r : Record} {now : Nat} {wait next : Wait}
    (h : runner.loop.heard wait now = some next) : Settling runner (r.note (.consumed now)) now next := by
  cases h
  exact ⟨now, rfl, rfl⟩

theorem settled_of_over {r : Record} {now : Nat} {wait : Wait} (settling : Settling runner r now wait)
    (elapsed : Over wait now) : Settled runner r now := by
  cases wait with
  | quiet settleUntil =>
    obtain ⟨last, hlast, rfl⟩ := settling
    intro other hother
    rw [hlast] at hother
    cases hother
    exact elapsed

/-- If no wait is cut short, every submission has settled. -/
theorem settled_rule (settles : 0 < runner.settle) :
    Rule runner.loop (Settling runner) (Settled runner) (fun _ _ => True) Over where
  entered _ _ _ last _ := settling_enter settles last
  later _ _ _ wait settling _ := by
    cases wait
    exact settling
  heard _ _ _ _ _ h := settling_heard h
  cut _ _ _ settling _ elapsed := settled_of_over settling elapsed
  woken r now wait settling due := by
    have elapsed : Over wait now := by
      cases wait
      exact due
    intro last same
    rw [show last = r.last from same rfl]
    exact settled_of_over settling elapsed

/-- What the waits are for does not depend on how they end. -/
theorem settling_rule (settles : 0 < runner.settle) :
    Rule runner.loop (Settling runner) (fun _ _ => True) (fun _ _ => True) (fun _ _ => True) where
  entered _ _ _ last _ := settling_enter settles last
  later _ _ _ wait settling _ := by
    cases wait
    exact settling
  heard _ _ _ _ _ h := settling_heard h
  cut _ _ _ _ _ _ := trivial
  woken _ _ _ _ _ := fun _ _ => trivial

/-- The end of the queue ends a wait with a submission. -/
theorem cut_submits {wait : Wait} {es : List Event} (hpc : s.pc = .waiting wait)
    (empty : s.events.items = []) (h : step bound runner.loop s .recv = some (t, es)) :
    es = [.submitted s.now] := by
  cases alive : s.events.sendersAlive with
  | true => simp [step, recv, Mpsc.recv, empty, alive] at h
  | false =>
    simp [step, recv, Mpsc.recv, empty, alive, hpc, loop, follow] at h
    exact h.2.symm

theorem over_of_settled {wait : Wait} {r : Record} {now : Nat}
    (settling : Settling runner r now wait) (settled : Settled runner r now) : Over wait now := by
  cases wait with
  | quiet settleUntil =>
    obtain ⟨last, hlast, rfl⟩ := settling
    exact settled last hlast

/-- A resume command waits for the settle period if and only if the end of the event queue is
never received before the period is over. -/
theorem resume_settles_iff_uncut (settles : 0 < runner.settle)
    (only : Meets (step bound runner.loop) OnlyTrue State.start labels)
    (run : exec (step bound runner.loop) State.start labels = some (t, tr)) :
    Submits (Settled runner) tr ↔
      Meets (step bound runner.loop) (Closing Over) State.start labels := by
  have paced : Meets (step bound runner.loop) (Paced fun _ _ => True) State.start labels :=
    meets_of_forall unpaced _ _
  constructor
  · intro settled
    refine meets_of_each run ?_
    rintro taken label rest s es rfl reached
    cases label with
    | recv =>
      intro empty wait waiting
      have lawful := lawful_run (settling_rule settles) (meets_append_left only)
        (meets_append_left paced) (meets_of_forall unclosing _ _) reached
      have hpc : s.pc = .waiting wait := by
        simp only [State.wait?] at waiting
        split at waiting
        · cases waiting
          assumption
        · cases waiting
      have phase := lawful.phase
      simp only [Phase, hpc] at phase
      obtain ⟨m, fs, gs, hm, hr, rfl⟩ := exec_append_some.mp run
      obtain ⟨rfl, rfl⟩ := Prod.mk.inj (Option.some.inj (reached.symm.trans hm))
      obtain ⟨n, hs, ks, hn, -, rfl⟩ := exec_cons_some.mp hr
      obtain rfl := cut_submits hpc empty hn
      exact over_of_settled phase.2.2 (settled es (.submitted s.now) ks rfl s.now rfl)
    | emit | closeEvents | setShutdown | dropShutdown | advance | shutdownChanged | timer | accepted
    | rejected | completed => trivial
  · intro closing
    have lawful := lawful_run (settled_rule settles) only paced closing run
    intro before x after he time hx
    exact (lawful.submits before x after he time hx).law

/-- The listener ends right after a resume signal. -/
private def exampleClosing : List Label := [.emit, .recv, .closeEvents, .recv]

theorem closed_queue_cuts_settling : ∃ t tr,
    exec (step 64 (SystemResumeRunner.loop ⟨15⟩)) State.start exampleClosing = some (t, tr) ∧
      Meets (step 64 (SystemResumeRunner.loop ⟨15⟩)) OnlyTrue State.start exampleClosing ∧
      ¬ Submits (Settled ⟨15⟩) tr := by
  refine ⟨_, _, rfl, by decide +kernel, ?_⟩
  intro settled
  have late := settled [.emitted, .consumed 0] (.submitted 0) [] rfl 0 rfl 0 rfl
  cases late

private def exampleSettling : List Label :=
  [.emit, .recv, .advance 10, .emit, .recv, .advance 15, .closeEvents, .recv]

theorem restarted_settling_is_waited_for : ∃ t tr,
    exec (step 64 (SystemResumeRunner.loop ⟨15⟩)) State.start exampleSettling = some (t, tr) ∧
      .submitted 25 ∈ tr ∧ Submits (Settled ⟨15⟩) tr := by
  have only : Meets (step 64 (SystemResumeRunner.loop ⟨15⟩)) OnlyTrue State.start exampleSettling := by
    decide +kernel
  have uncut : Meets (step 64 (SystemResumeRunner.loop ⟨15⟩)) (Closing Over) State.start
      exampleSettling := by
    decide +kernel
  refine ⟨_, _, rfl, by decide +kernel, ?_⟩
  exact (resume_settles_iff_uncut (by decide) only rfl).mpr uncut

end EventRunner.SystemResumeRunner

import Mailwake.RunnerRounds

/-!
# When the debounced command is submitted

A round of `DebounceRunner` has one pause after its first event, then the rest of the cooldown
of the run before it. Further events of the round are drained and change neither of the two.
-/
namespace EventRunner.DebounceRunner
open Channel Transition
variable {runner : DebounceRunner} {bound : Nat} {labels : List Label} {tr : List Event}
  {t : State Wait} {r : Record} {now : Nat}

/-- The pause after the first event and the cooldown of the last run are over. -/
def Timed (runner : DebounceRunner) (r : Record) (time : Nat) : Prop :=
  (∀ first, r.first = some first → first + runner.debounce ≤ time) ∧
    ∀ finished, r.finished = some finished → finished + runner.cooldown ≤ time

/-- The first instant at which both are over. -/
def due (runner : DebounceRunner) (first : Nat) (finished : Option Nat) : Nat :=
  match finished with
  | none => first + runner.debounce
  | some finished => max (first + runner.debounce) (finished + runner.cooldown)

def OnTime (runner : DebounceRunner) (r : Record) (time : Nat) : Prop :=
  ∀ first, r.first = some first → time = runner.due first r.finished

/-- The deadline of a wait is missed by no timer. -/
def Prompt (runner : DebounceRunner) (wait : Wait) (now : Nat) : Prop :=
  now ≤ runner.loop.deadline wait

instance (runner : DebounceRunner) (wait : Wait) (now : Nat) : Decidable (runner.Prompt wait now) :=
  inferInstanceAs (Decidable (now ≤ runner.loop.deadline wait))

/-- What a wait is for. -/
def Waits (runner : DebounceRunner) (r : Record) (now : Nat) : Wait → Prop
  | .pausing deadline => ∃ first, r.first = some first ∧ deadline = first + runner.debounce ∧
      ∀ finished, r.finished = some finished → finished ≤ first
  | .cooling deadline => ∃ first finished, r.first = some first ∧ r.finished = some finished ∧
      deadline = finished + runner.cooldown ∧ first + runner.debounce ≤ now

/-- With timers on time, the two waits follow on each other without a gap. -/
def Punctual (runner : DebounceRunner) (r : Record) (now : Nat) (wait : Wait) : Prop :=
  now ≤ runner.loop.deadline wait ∧
    match wait with
    | .pausing _ => Waits runner r now wait
    | .cooling deadline => ∃ first finished, r.first = some first ∧ r.finished = some finished ∧
        deadline = finished + runner.cooldown ∧ first + runner.debounce ≤ deadline

theorem deadline_le_due {wait : Wait} (h : Waits runner r now wait) :
    ∃ first, r.first = some first ∧ runner.loop.deadline wait ≤ runner.due first r.finished := by
  cases wait with
  | pausing deadline =>
    obtain ⟨first, hfirst, rfl, -⟩ := h
    refine ⟨first, hfirst, ?_⟩
    cases r.finished with
    | none => exact le_refl _
    | some finished => exact le_max_left ..
  | cooling deadline =>
    obtain ⟨first, finished, hfirst, hfinished, rfl, -⟩ := h
    refine ⟨first, hfirst, ?_⟩
    rw [hfinished]
    exact le_max_right ..

/-- There is nothing to wait for, or the cooldown is not over yet. -/
theorem waitForCooldown_cases (runner : DebounceRunner) (now : Nat) (last : Option Nat) :
    (runner.waitForCooldown now last = none ∧
        ∀ finished, last = some finished → finished ≤ now → finished + runner.cooldown ≤ now) ∨
      ∃ finished, last = some finished ∧ now < finished + runner.cooldown ∧
        runner.waitForCooldown now last = some (finished + runner.cooldown) := by
  cases last with
  | none => exact Or.inl ⟨rfl, nofun⟩
  | some finished =>
    simp only [waitForCooldown]
    split
    · refine Or.inl ⟨rfl, ?_⟩
      rintro e ⟨⟩ past
      omega
    · split
      · rename_i elapsed
        refine Or.inl ⟨rfl, ?_⟩
        rintro e ⟨⟩ -
        exact elapsed
      · refine Or.inr ⟨finished, rfl, ?_, rfl⟩
        omega

/-- What comes after the pause. -/
theorem outcome_afterDebounce {I : Record → Nat → Wait → Prop} {Q : Record → Nat → Prop}
    (elapsed : ∀ last, (∀ finished, r.finished = some finished → finished ≤ now →
      finished + runner.cooldown ≤ now) → Q { r with last := last } now)
    (cools : ∀ last finished, r.finished = some finished → now < finished + runner.cooldown →
      I { r with last := last } now (.cooling (finished + runner.cooldown))) :
    Outcome I Q r now (runner.afterDebounce now r.finished) := by
  intro last same
  rcases runner.waitForCooldown_cases now r.finished with ⟨none, passed⟩ | ⟨finished, hf, early, some⟩
  · simp only [afterDebounce, none]
    exact elapsed last passed
  · simp only [afterDebounce, some]
    exact cools last finished hf early

/-- The pause is over, at whatever instant. -/
theorem timed_afterDebounce {first : Nat} (hfirst : r.first = some first)
    (past : ∀ finished, r.finished = some finished → finished ≤ first)
    (paused : first + runner.debounce ≤ now) :
    Outcome (Waits runner) (Timed runner) r now (runner.afterDebounce now r.finished) := by
  refine outcome_afterDebounce ?_ ?_
  · intro last cooled
    refine ⟨?_, ?_⟩
    · intro f hf
      cases hfirst.symm.trans hf
      exact paused
    · intro finished hfinished
      have before := past finished hfinished
      exact cooled finished hfinished (by omega)
  · intro last finished hfinished early
    exact ⟨first, finished, hfirst, hfinished, rfl, paused⟩

theorem timed_rule (runner : DebounceRunner) :
    Rule runner.loop (Waits runner) (Timed runner) (fun _ _ => True) (fun _ _ => True) where
  entered r now first _ past := by
    by_cases none : runner.debounce = 0
    · have entered : runner.loop.enter now r.finished = runner.afterDebounce now r.finished :=
        if_pos none
      rw [entered]
      exact timed_afterDebounce first past (by omega)
    · have entered : runner.loop.enter now r.finished =
          ⟨false, some (.pausing (now + runner.debounce))⟩ := if_neg none
      rw [entered]
      intro last same
      exact ⟨now, first, rfl, past⟩
  later r now duration wait waits _ := by
    cases wait with
    | pausing deadline => exact waits
    | cooling deadline =>
      obtain ⟨first, finished, hfirst, hfinished, hdeadline, paused⟩ := waits
      exact ⟨first, finished, hfirst, hfinished, hdeadline, by omega⟩
  heard _ _ _ _ _ h := by cases h
  cut _ _ _ _ hears _ := by cases hears
  woken r now wait waits elapsed := by
    cases wait with
    | pausing deadline =>
      obtain ⟨first, hfirst, rfl, past⟩ := waits
      exact timed_afterDebounce hfirst past elapsed
    | cooling deadline =>
      obtain ⟨first, finished, hfirst, hfinished, rfl, paused⟩ := waits
      intro last same
      refine ⟨?_, ?_⟩
      · intro f hf
        cases hfirst.symm.trans hf
        exact paused
      · intro e he
        cases hfinished.symm.trans he
        exact elapsed

/-- The pause is over, at the instant it is due. -/
theorem onTime_afterDebounce {first : Nat} (hfirst : r.first = some first)
    (past : ∀ finished, r.finished = some finished → finished ≤ first)
    (paused : now = first + runner.debounce) :
    Outcome (Punctual runner) (OnTime runner) r now (runner.afterDebounce now r.finished) := by
  refine outcome_afterDebounce ?_ ?_
  · intro last cooled f hf
    cases hfirst.symm.trans hf
    cases hfinished : r.finished with
    | none => exact paused
    | some finished =>
      have before := past finished hfinished
      have elapsed := cooled finished hfinished (by omega)
      simp only [due]
      omega
  · intro last finished hfinished early
    refine ⟨le_of_lt early, first, finished, hfirst, hfinished, rfl, ?_⟩
    omega

theorem onTime_rule (runner : DebounceRunner) :
    Rule runner.loop (Punctual runner) (OnTime runner) (Prompt runner) (fun _ _ => True) where
  entered r now first _ past := by
    by_cases none : runner.debounce = 0
    · have entered : runner.loop.enter now r.finished = runner.afterDebounce now r.finished :=
        if_pos none
      rw [entered]
      exact onTime_afterDebounce first past (by omega)
    · have entered : runner.loop.enter now r.finished =
          ⟨false, some (.pausing (now + runner.debounce))⟩ := if_neg none
      rw [entered]
      intro last same
      exact ⟨Nat.le_add_right .., now, first, rfl, past⟩
  later r now duration wait punctual prompt := by
    refine ⟨prompt, ?_⟩
    cases wait <;> exact punctual.2
  heard _ _ _ _ _ h := by cases h
  cut _ _ _ _ hears _ := by cases hears
  woken r now wait punctual elapsed := by
    obtain ⟨prompt, waits⟩ := punctual
    have exact_now : now = runner.loop.deadline wait := le_antisymm prompt elapsed
    cases wait with
    | pausing deadline =>
      obtain ⟨first, hfirst, rfl, past⟩ := waits
      exact onTime_afterDebounce hfirst past exact_now
    | cooling deadline =>
      obtain ⟨first, finished, hfirst, hfinished, rfl, paused⟩ := waits
      intro last same f hf
      cases hfirst.symm.trans hf
      simp only [due, hfinished]
      rw [exact_now]
      exact (max_eq_right paused).symm

theorem timed_run (only : Meets (step bound runner.loop) OnlyTrue State.start labels)
    (run : exec (step bound runner.loop) State.start labels = some (t, tr)) :
    Lawful (Waits runner) (Timed runner) tr t :=
  lawful_run (timed_rule runner) only (meets_of_forall unpaced _ _) (meets_of_forall unclosing _ _) run

/-- Both runners submit one command after another, each for an event of its own. That of
`DebounceRunner` is not submitted before it is due; no wait goes on after that instant, whatever
arrives meanwhile, and with timers on time this is when the command is submitted. -/
theorem runners_submit_in_rounds (debounce : DebounceRunner) (resume : SystemResumeRunner)
    (bound : Nat) :
    (∀ labels t tr, Meets (step bound debounce.loop) OnlyTrue State.start labels →
      exec (step bound debounce.loop) State.start labels = some (t, tr) →
        InRounds tr ∧ Submits (Timed debounce) tr ∧
        (∀ wait, t.pc = .waiting wait → ∃ first, (record tr).first = some first ∧
          debounce.loop.deadline wait ≤ debounce.due first (record tr).finished) ∧
        (Meets (step bound debounce.loop) (Paced debounce.Prompt) State.start labels →
          Submits (OnTime debounce) tr)) ∧
    ∀ labels t tr, Meets (step bound resume.loop) OnlyTrue State.start labels →
      exec (step bound resume.loop) State.start labels = some (t, tr) → InRounds tr := by
  refine ⟨?_, fun labels t tr only run => inRounds_run only run⟩
  intro labels t tr only run
  have timed := timed_run only run
  refine ⟨inRounds_run only run, ?_, ?_, ?_⟩
  · intro before x after he time hx
    exact (timed.submits before x after he time hx).law
  · intro wait hpc
    have phase := timed.phase
    simp only [Phase, hpc] at phase
    exact deadline_le_due phase.2.2
  · intro prompt before x after he time hx
    have lawful := lawful_run (onTime_rule debounce) only prompt (meets_of_forall unclosing _ _) run
    exact (lawful.submits before x after he time hx).law

/-- A second event inside the pause, and two more while the command runs and in the next round. -/
private def exampleRounds : List Label :=
  [.emit, .recv, .advance 1, .emit, .advance 1, .timer, .accepted 0, .emit, .advance 3,
    .completed none, .advance 2, .emit, .timer, .advance 8, .timer]

theorem example_rounds_are_on_time : ∃ t tr,
    exec (step 64 (DebounceRunner.loop ⟨2, 10⟩)) State.start exampleRounds = some (t, tr) ∧
      .submitted 2 ∈ tr ∧ .submitted 15 ∈ tr ∧ InRounds tr ∧ Submits (OnTime ⟨2, 10⟩) tr := by
  have only : Meets (step 64 (DebounceRunner.loop ⟨2, 10⟩)) OnlyTrue State.start exampleRounds := by
    decide +kernel
  have prompt : Meets (step 64 (DebounceRunner.loop ⟨2, 10⟩)) (Paced (Prompt ⟨2, 10⟩)) State.start
      exampleRounds := by
    decide +kernel
  have checked : (exec (step 64 (DebounceRunner.loop ⟨2, 10⟩)) State.start exampleRounds).any
      (fun r => decide (.submitted 2 ∈ r.2 ∧ .submitted 15 ∈ r.2)) = true := by
    decide +kernel
  obtain ⟨⟨t, tr⟩, run, submitted⟩ := (Option.any_eq_true ..).mp checked
  obtain ⟨first, second⟩ := of_decide_eq_true submitted
  obtain ⟨rounds, -, -, onTime⟩ :=
    (runners_submit_in_rounds ⟨2, 10⟩ ⟨15⟩ 64).1 exampleRounds t tr only run
  exact ⟨t, tr, run, first, second, rounds, onTime prompt⟩

end EventRunner.DebounceRunner

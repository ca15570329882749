import Mailwake.RunnerAlarm
import Mailwake.LaneAlarm

/-!
# Only the value true is a shutdown

`wait_for_cooldown`, `sleep_or_shutdown`, `wait_for_quiet`, `run_once` and
`wait_for_min_interval` take every notification for the end of what they wait for. The heads of
the outer loops do not.
-/
namespace FalseAlarm
open Transition Channel
universe u

theorem restless_debounce (runner : EventRunner.DebounceRunner) :
    EventRunner.Restless runner.loop := by
  intro wait now last
  cases wait with
  | pausing deadline =>
    cases cooldown : runner.waitForCooldown now last <;>
      simp [EventRunner.DebounceRunner.loop, EventRunner.DebounceRunner.afterDebounce, cooldown]
  | cooling deadline => simp [EventRunner.DebounceRunner.loop]

theorem restless_resume (runner : EventRunner.SystemResumeRunner) :
    EventRunner.Restless runner.loop := by
  intro wait now last
  simp [EventRunner.SystemResumeRunner.loop]

/-- In each of the three runners, the notifications of a run that are no shutdown are inert if
and only if none of them comes during a wait or a submission. Then the run without them has the
same trace. -/
theorem false_alarms_are_inert_iff_spared {κ : Type u} [DecidableEq κ]
    (debounce : EventRunner.DebounceRunner) (resume : EventRunner.SystemResumeRunner)
    (lane : Lane.CommandLaneRunner κ) (bound : Nat) :
    (∀ labels t tr, exec (EventRunner.step bound debounce.loop) .start labels = some (t, tr) →
        (EventRunner.Inert bound debounce.loop labels ↔
          Meets (EventRunner.step bound debounce.loop) EventRunner.Spared .start labels) ∧
        (Meets (EventRunner.step bound debounce.loop) EventRunner.Spared .start labels →
          EventRunner.Unheard bound debounce.loop labels tr t)) ∧
      (∀ labels t tr, exec (EventRunner.step bound resume.loop) .start labels = some (t, tr) →
        (EventRunner.Inert bound resume.loop labels ↔
          Meets (EventRunner.step bound resume.loop) EventRunner.Spared .start labels) ∧
        (Meets (EventRunner.step bound resume.loop) EventRunner.Spared .start labels →
          EventRunner.Unheard bound resume.loop labels tr t)) ∧
      ∀ labels t tr, exec (Lane.step lane) .start labels = some (t, tr) →
        (Lane.Inert lane labels ↔ Meets (Lane.step lane) Lane.Spared .start labels) ∧
        (Meets (Lane.step lane) Lane.Spared .start labels → Lane.Unheard lane labels tr t) := by
  refine ⟨?_, ?_, ?_⟩
  · intro labels t tr run
    exact EventRunner.inert_iff_spared (restless_debounce debounce) run
  · intro labels t tr run
    exact EventRunner.inert_iff_spared (restless_resume resume) run
  · intro labels t tr run
    exact Lane.inert_iff_spared run

/-- An event, and ten milliseconds later the sender of the watch is gone. -/
def closedWatch : List EventRunner.Label :=
  [.emit, .recv, .advance 10, .dropShutdown, .shutdownChanged]

/-- A request is answered, a second one waits for its minimum interval, and the sender of the
watch is gone. -/
def closedLane : List (Lane.Label Unit) :=
  [.send (), .proceed, .recv, .proceed, .proceed, .finish (.ok .wasCancelled), .proceed, .proceed,
    .proceed, .proceed, .send (), .recv, .proceed, .dropShutdown, .shutdownChanged, .proceed]

/-- A watch without its sender ends a debounce and a settle period at once, gives up a
submission, and lets a command run within its minimum interval. -/
theorem closed_watch_ends_waits :
    (∃ t, exec (EventRunner.step 1 (EventRunner.DebounceRunner.loop ⟨5000, 0⟩)) .start closedWatch =
        some (t, [.emitted, .consumed 0, .submitted 10])) ∧
      (∃ t, exec (EventRunner.step 1 (EventRunner.DebounceRunner.loop ⟨5000, 0⟩)) .start
          (closedWatch ++ [.shutdownChanged]) =
        some (t, [.emitted, .consumed 0, .submitted 10, .abandoned 10])) ∧
      (∃ t, exec (EventRunner.step 1 (EventRunner.SystemResumeRunner.loop ⟨15000⟩)) .start
          closedWatch = some (t, [.emitted, .consumed 0, .submitted 10])) ∧
      ¬ EventRunner.Inert 1 (EventRunner.DebounceRunner.loop ⟨5000, 0⟩) closedWatch ∧
      ∃ t tr, exec (Lane.step ⟨[⟨(), 60000⟩], 64⟩) .start closedLane = some (t, tr) ∧
        t.now = 0 ∧ t.lastFinished () = some 0 ∧ Lane.executions () tr = 2 := by
  refine ⟨⟨_, rfl⟩, ⟨_, rfl⟩, ⟨_, rfl⟩, ?_, ⟨_, _, rfl, rfl, rfl, rfl⟩⟩
  intro inert
  obtain ⟨quiet, -⟩ := inert [.emit, .recv, .advance 10, .dropShutdown] [] _ _ _ _ rfl rfl rfl rfl
  cases quiet

/-- The sender goes while the runner waits for an event. -/
theorem quiet_closed_watch_is_inert :
    ∃ t, exec (EventRunner.step 1 (EventRunner.DebounceRunner.loop ⟨5000, 0⟩)) .start
        [.dropShutdown, .shutdownChanged, .emit, .recv] = some (t, [.emitted, .consumed 0]) ∧
      EventRunner.Inert 1 (EventRunner.DebounceRunner.loop ⟨5000, 0⟩)
        [.dropShutdown, .shutdownChanged, .emit, .recv] := by
  refine ⟨_, rfl, ?_⟩
  have debounced := (false_alarms_are_inert_iff_spared ⟨5000, 0⟩ ⟨15000⟩
    (⟨[⟨(), 60000⟩], 64⟩ : Lane.CommandLaneRunner Unit) 1).1
  refine (debounced _ _ _ rfl).1.mpr ?_
  refine ⟨trivial, fun _ _ h => ?_⟩
  cases h
  refine ⟨fun _ => rfl, fun _ _ h => ?_⟩
  cases h
  refine ⟨trivial, fun _ _ h => ?_⟩
  cases h
  exact ⟨trivial, fun _ _ _ => trivial⟩

end FalseAlarm

import Mailwake.Pace

/-!
# How long a watcher with a heartbeat goes without a progress mark

`watch_fs_state_forever` and `watch_system_resume_forever` on a clock, up to shutdown. Once the
set-up is done, a task of its own marks progress after each interval, whatever the watcher
itself is doing. Times are milliseconds.
-/
namespace HeartbeatPace
open Transition Pace

structure Settings where
  setup : Nat
  interval : Nat
  /-- Whether every signal of the listener is a mark as well. -/
  marksEvents : Bool

def Settings.longestGap (settings : Settings) : Nat := max settings.setup settings.interval

inductive State where
  | setup
  | idling
  | stopped
  | crashed
  deriving DecidableEq

inductive Label where
  | setUp (ok : Bool)
  | beat
  | event
  | ended (crashed : Bool)
  deriving DecidableEq

def step (settings : Settings) : State → Label → Option State
  | .setup, .setUp ok => some (if ok then .idling else .crashed)
  | .idling, .beat => some .idling
  | .idling, .event => if settings.marksEvents then some .idling else none
  | .idling, .ended crashed => some (if crashed then .crashed else .stopped)
  | _, _ => none

def limit (settings : Settings) : State → Nat
  | .setup => settings.setup
  | .idling => settings.interval
  | _ => 0

/-- Every step is a mark; an event leaves the sleep of the heartbeat alone. -/
def clock (settings : Settings) : Clockwork State Label where
  step := step settings
  limit := limit settings
  onTime := fun _ label => label = .beat
  stays := fun _ label _ => label = .event
  progress := fun _ _ _ => true

variable {settings : Settings} {s t : State}

theorem idling_of_event (h : step settings s .event = some t) : s = .idling ∧ t = .idling := by
  cases s with
  | idling =>
    simp only [step] at h
    split at h
    · exact ⟨rfl, (Option.some.inj h).symm⟩
    · cases h
  | setup | stopped | crashed => cases h

theorem limit_le (settings : Settings) (s : State) : limit settings s ≤ settings.longestGap := by
  cases s with
  | setup => exact le_max_left _ _
  | idling => exact le_max_right _ _
  | stopped => exact Nat.zero_le _
  | crashed => exact Nat.zero_le _

def pace (settings : Settings) : Pace.Budget (clock settings) settings.longestGap where
  budget := fun _ => 0
  Sound := fun _ => True
  sound_step _ _ _ _ _ := trivial
  fits s _ := by
    rw [Nat.zero_add]
    exact limit_le settings s
  same_wait s label t _ h stays := by
    obtain rfl : label = .event := of_decide_eq_true stays
    obtain ⟨rfl, rfl⟩ := idling_of_event h
    exact ⟨rfl, le_refl 0⟩
  carries _ _ _ _ _ quiet := by cases quiet

end HeartbeatPace

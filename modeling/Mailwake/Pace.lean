import Mathlib.Algebra.Ring.Nat
import Mailwake.Transition

/-!
# Waits with limits, and the time since the last progress

A machine whose every state may be held only for a limited time, with a clock laid over it.
Some steps make progress. A budget says how long the last progress may be past when a state
is entered; it bounds the time since the last progress over whole runs.
-/
namespace Pace
open Transition
universe u v
variable {σ : Type u} {α : Type v}

structure Clockwork (σ : Type u) (α : Type v) where
  step : σ → α → Option σ
  /-- How long a state may be held. -/
  limit : σ → Nat
  /-- The step is taken exactly when the limit is reached. -/
  onTime : σ → α → Bool
  /-- The step leaves the machine in the same wait. -/
  stays : σ → α → σ → Bool
  progress : σ → α → σ → Bool

structure State (σ : Type u) where
  inner : σ
  now : Nat
  entered : Nat
  lastProgress : Nat

inductive Label (α : Type v) where
  | act (label : α)
  | advance (duration : Nat)

def State.start (inner : σ) (now : Nat) : State σ := ⟨inner, now, now, now⟩

def moved (c : Clockwork σ α) (s : State σ) (label : α) (next : σ) : State σ where
  inner := next
  now := s.now
  entered := if c.stays s.inner label next then s.entered else s.now
  lastProgress := if c.progress s.inner label next then s.now else s.lastProgress

/-- The events are the instants of progress. -/
def step (c : Clockwork σ α) (s : State σ) : Label α → Option (State σ × List Nat)
  | .advance duration =>
    if s.now + duration ≤ s.entered + c.limit s.inner then
      some ({ s with now := s.now + duration }, [])
    else none
  | .act label =>
    if c.onTime s.inner label && decide (s.now ≠ s.entered + c.limit s.inner) then none
    else
      (c.step s.inner label).map fun next =>
        (moved c s label next, if c.progress s.inner label next then [s.now] else [])

/-- The longest time that the last progress can be past when a state is entered. -/
structure Budget (c : Clockwork σ α) (bound : Nat) where
  budget : σ → Nat
  Sound : σ → Prop
  sound_step : ∀ s label t, Sound s → c.step s label = some t → Sound t
  fits : ∀ s, Sound s → budget s + c.limit s ≤ bound
  same_wait : ∀ s label t, Sound s → c.step s label = some t → c.stays s label t = true →
    c.limit t = c.limit s ∧ budget s ≤ budget t
  carries : ∀ s label t, Sound s → c.step s label = some t → c.progress s label t = false →
    c.stays s label t = false → budget s + c.limit s ≤ budget t

variable {c : Clockwork σ α} {bound : Nat} {s t : State σ} {labels : List (Label α)}
  {tr : List Nat}

/-- The wait is within its limit and was entered within its budget. -/
structure Timely (b : Budget c bound) (s : State σ) : Prop where
  sound : b.Sound s.inner
  begun : s.entered ≤ s.now
  within : s.now ≤ s.entered + c.limit s.inner
  spent : s.entered ≤ s.lastProgress + b.budget s.inner

theorem timely_moved (b : Budget c bound) (timely : Timely b s) {label : α} {next : σ}
    (h : c.step s.inner label = some next) : Timely b (moved c s label next) := by
  obtain ⟨sound, begun, within, spent⟩ := timely
  have next_sound := b.sound_step _ _ _ sound h
  by_cases stays : c.stays s.inner label next = true
  · obtain ⟨same, grows⟩ := b.same_wait _ _ _ sound h stays
    refine ⟨next_sound, ?_, ?_, ?_⟩
    · simpa only [moved, if_pos stays] using begun
    · simpa only [moved, if_pos stays, same] using within
    · simp only [moved, if_pos stays]
      split <;> omega
  · refine ⟨next_sound, ?_, ?_, ?_⟩
    · simp only [moved, if_neg stays, le_refl]
    · simp only [moved, if_neg stays]
      omega
    · simp only [moved, if_neg stays]
      split
      · omega
      · rename_i quiet
        have carried := b.carries _ _ _ sound h (by simpa using quiet) (by simpa using stays)
        omega

theorem timely_step (b : Budget c bound) (timely : Timely b s) {label : Label α} {es : List Nat}
    (h : step c s label = some (t, es)) : Timely b t := by
  cases label with
  | advance duration =>
    simp only [step] at h
    split at h
    · rename_i allowed
      obtain ⟨rfl, -⟩ := Prod.mk.inj (Option.some.inj h)
      exact ⟨timely.sound, Nat.le_add_right_of_le timely.begun, allowed, timely.spent⟩
    · cases h
  | act label =>
    simp only [step] at h
    split at h
    · cases h
    · obtain ⟨next, hn, he⟩ := Option.map_eq_some_iff.mp h
      obtain ⟨rfl, -⟩ := Prod.mk.inj he
      exact timely_moved b timely hn

theorem timely_start (b : Budget c bound) {inner : σ} (sound : b.Sound inner) (now : Nat) :
    Timely b (.start inner now) :=
  ⟨sound, le_refl now, Nat.le_add_right now _, Nat.le_add_right now _⟩

theorem Timely.gap_le {b : Budget c bound} (timely : Timely b s) :
    s.now - s.lastProgress ≤ bound := by
  have fits := b.fits s.inner timely.sound
  have within := timely.within
  have spent := timely.spent
  omega

/-- The last progress is never further past than the bound. -/
theorem gap_le_of_budget (b : Budget c bound) {inner : σ} (sound : b.Sound inner) {now : Nat}
    (run : exec (step c) (.start inner now) labels = some (t, tr)) :
    t.now - t.lastProgress ≤ bound := by
  have timely : Timely b t :=
    exec_state_invariant (fun _ _ _ _ timely h => timely_step b timely h)
      (timely_start b sound now) run
  exact timely.gap_le

section Reaching

/-- Time may pass up to the limit of the wait. -/
theorem reaches_advance {duration : Nat}
    (allowed : s.now + duration ≤ s.entered + c.limit s.inner) :
    Reaches (step c) s { s with now := s.now + duration } := by
  have taken : step c s (.advance duration) = some ({ s with now := s.now + duration }, []) := by
    simp [step, allowed]
  exact .single taken

/-- A step after some of the wait; a timed one after all of it. -/
theorem reaches_act (duration : Nat) (label : α) {next : σ}
    (allowed : s.now + duration ≤ s.entered + c.limit s.inner)
    (timing : c.onTime s.inner label = true → s.now + duration = s.entered + c.limit s.inner)
    (h : c.step s.inner label = some next)
    (after : moved c { s with now := s.now + duration } label next = t) :
    Reaches (step c) s t := by
  have punctual : ¬ (c.onTime s.inner label &&
      decide (s.now + duration ≠ s.entered + c.limit s.inner)) = true := by
    simpa using timing
  have taken : step c { s with now := s.now + duration } (.act label) =
      some (t, if c.progress s.inner label next then [s.now + duration] else []) := by
    rw [step, if_neg punctual, h, Option.map_some, after]
  exact (reaches_advance allowed).trans (.single taken)

/-- A step that may come at any time of the wait. -/
theorem reaches_free (duration : Nat) (label : α) {next : σ}
    (allowed : s.now + duration ≤ s.entered + c.limit s.inner)
    (free : c.onTime s.inner label = false) (h : c.step s.inner label = some next)
    (after : moved c { s with now := s.now + duration } label next = t) :
    Reaches (step c) s t := by
  refine reaches_act duration label allowed ?_ h after
  intro timed
  cases free.symm.trans timed

end Reaching

end Pace

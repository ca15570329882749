import Mathlib.Algebra.Order.Ring.Nat
import Mathlib.Tactic.Ring
import Mailwake.Pace

/-!
# Doubling delays with a cap

A delay that doubles after each wait until it reaches its cap. A machine whose counted steps
each wait out the current delay, and whose other steps leave it alone, takes few counted steps
in a given time.
-/
namespace Backoff
open Transition
universe u v w
variable {σ : Type u} {α : Type v} {ε : Type w}

structure Policy where
  initial : Nat
  cap : Nat

variable (policy : Policy)

def Policy.next (delay : Nat) : Nat := min (delay * 2) policy.cap

/-- The time of so many waits, the first of which is the given delay. -/
def Policy.waited : Nat → Nat → Nat
  | _, 0 => 0
  | delay, n + 1 => delay + Policy.waited (policy.next delay) n

variable {policy}

/-- A delay the policy can be at. -/
structure Policy.Sound (policy : Policy) (delay : Nat) : Prop where
  least : policy.initial ≤ delay
  most : delay ≤ policy.cap

/-- After `k` doublings every wait takes the whole cap. -/
theorem waited_ge {delay k : Nat} (most : delay ≤ policy.cap) (reach : policy.cap ≤ delay * 2 ^ k)
    (n : Nat) : (n - k) * policy.cap ≤ policy.waited delay n := by
  induction n generalizing delay k with
  | zero => simp
  | succ n ih =>
    rw [Policy.waited]
    cases k with
    | zero =>
      obtain rfl : delay = policy.cap := by
        apply Nat.le_antisymm most
        simpa using reach
      have still : policy.next policy.cap = policy.cap := by
        rw [Policy.next]
        omega
      have rest := ih (Nat.le_refl policy.cap) (by simp : policy.cap ≤ policy.cap * 2 ^ 0)
      rw [still]
      calc (n + 1 - 0) * policy.cap = policy.cap + (n - 0) * policy.cap := by
            simp only [Nat.sub_zero]
            ring
        _ ≤ policy.cap + policy.waited policy.cap n := Nat.add_le_add_left rest _
    | succ k =>
      have closer : policy.cap ≤ policy.next delay * 2 ^ k := by
        rw [Policy.next]
        rcases min_cases (delay * 2) policy.cap with ⟨same, -⟩ | ⟨same, -⟩
        · rw [same]
          calc policy.cap ≤ delay * 2 ^ (k + 1) := reach
            _ = delay * 2 * 2 ^ k := by ring
        · rw [same]
          exact Nat.le_mul_of_pos_right _ (Nat.two_pow_pos k)
      have below : policy.next delay ≤ policy.cap := min_le_right _ _
      have rest := ih below closer
      rw [Nat.add_sub_add_right]
      omega

/-- So many waits fit into the time: `k` to reach the cap, and one in each cap of the time. -/
theorem waits_le {delay k time n : Nat} (sound : policy.Sound delay)
    (reach : policy.cap ≤ policy.initial * 2 ^ k) (positive : 0 < policy.cap)
    (within : policy.waited delay n ≤ time) : n ≤ k + time / policy.cap := by
  have closer : policy.cap ≤ delay * 2 ^ k :=
    reach.trans (Nat.mul_le_mul_right _ sound.least)
  have whole := (waited_ge sound.most closer n).trans within
  have fits : n - k ≤ time / policy.cap := (Nat.le_div_iff_mul_le positive).mpr whole
  omega

section Machine
variable (step : σ → α → Option (σ × List ε))

/-- How many steps of the run are marked. -/
def tally (mark : σ → α → Bool) : σ → List α → Nat
  | _, [] => 0
  | s, a :: rest =>
    (if mark s a then 1 else 0) + ((step s a).map fun next => tally mark next.1 rest).getD 0

variable {step}

theorem tally_cons {mark : σ → α → Bool} {s t : σ} {a : α} {rest : List α} {es : List ε}
    (h : step s a = some (t, es)) : tally step mark s (a :: rest) =
      (if mark s a then 1 else 0) + tally step mark t rest := by
  rw [tally, h]
  rfl

/-- What one step does to the clock, to the delay and to the steps that are paid for. -/
structure Spends (policy : Policy) (clock delay credit : σ → Nat) (counted paying : σ → α → Bool)
    (s : σ) (a : α) (t : σ) : Prop where
  clock : clock s + (if counted s a then delay s else 0) ≤ clock t
  delay : delay t = if counted s a then policy.next (delay s) else delay s
  credit : (if paying s a then 1 else 0) + credit t ≤ credit s + if counted s a then 1 else 0

variable {clock delay credit : σ → Nat} {counted paying : σ → α → Bool} {inv : σ → Prop}
  {cond : σ → α → Prop} {s t : σ} {as : List α} {tr : List ε}

/-- The counted steps of a run wait out their delays one after the other, and the paying steps
are hardly more than these. -/
theorem exec_spends (kept : ∀ s a t es, inv s → step s a = some (t, es) → inv t)
    (spends : ∀ s a t es, inv s → cond s a → step s a = some (t, es) →
      Spends policy clock delay credit counted paying s a t)
    (start : inv s) (meets : Meets step cond s as) (run : exec step s as = some (t, tr)) :
    clock s + policy.waited (delay s) (tally step counted s as) ≤ clock t ∧
      tally step paying s as + credit t ≤ credit s + tally step counted s as := by
  induction as generalizing s tr with
  | nil =>
    obtain ⟨rfl, -⟩ : s = t ∧ [] = tr := by simpa using run
    simp [tally, Policy.waited]
  | cons a rest ih =>
    obtain ⟨m, es, fs, hs, hr, rfl⟩ := exec_cons_some.mp run
    obtain ⟨first, after, paid⟩ := spends s a m es start meets.1 hs
    obtain ⟨later, rest_paid⟩ := ih (kept s a m es start hs) (meets.2 m es hs) hr
    rw [after] at later
    rw [tally_cons hs, tally_cons hs]
    by_cases waited : counted s a = true
    · rw [if_pos waited, Nat.add_comm 1, Policy.waited]
      rw [if_pos waited] at first later paid
      omega
    · rw [if_neg waited, Nat.zero_add]
      rw [if_neg waited] at first later paid
      omega

/-- The paying steps of a run are few for the time it takes. -/
theorem paying_le {k : Nat} (kept : ∀ s a t es, inv s → step s a = some (t, es) → inv t)
    (spends : ∀ s a t es, inv s → cond s a → step s a = some (t, es) →
      Spends policy clock delay credit counted paying s a t)
    (start : inv s) (sound : policy.Sound (delay s)) (reach : policy.cap ≤ policy.initial * 2 ^ k)
    (positive : 0 < policy.cap) (meets : Meets step cond s as)
    (run : exec step s as = some (t, tr)) :
    tally step paying s as ≤ credit s + k + (clock t - clock s) / policy.cap := by
  obtain ⟨waited, paid⟩ := exec_spends kept spends start meets run
  have few := waits_le sound reach positive (Nat.le_sub_of_add_le' waited)
  omega

end Machine

section Clockwork
open Pace
variable {c : Clockwork σ α} {cond : σ → α → Prop} {delay credit : σ → Nat}
  {counted paying : σ → α → Bool}

def acts (mark : σ → α → Bool) (s : Pace.State σ) : Pace.Label α → Bool
  | .act label => mark s.inner label
  | .advance _ => false

def Acting (cond : σ → α → Prop) (s : Pace.State σ) : Pace.Label α → Prop
  | .act label => cond s.inner label
  | .advance _ => True

instance [∀ s a, Decidable (cond s a)] (s : Pace.State σ) :
    (label : Pace.Label α) → Decidable (Acting cond s label)
  | .act label => inferInstanceAs (Decidable (cond s.inner label))
  | .advance _ => isTrue trivial

/-- A counted step ends a wait of the current delay; no other step of the condition changes it. -/
structure Retrying (c : Clockwork σ α) (policy : Policy) (cond : σ → α → Prop)
    (delay credit : σ → Nat) (counted paying : σ → α → Bool) : Prop where
  waits : ∀ s a t, c.step s a = some t → counted s a = true →
    c.onTime s a = true ∧ c.limit s = delay s ∧ c.stays s a t = false
  delay : ∀ s a t, cond s a → c.step s a = some t →
    delay t = if counted s a then policy.next (delay s) else delay s
  credit : ∀ s a t, cond s a → c.step s a = some t →
    (if paying s a then 1 else 0) + credit t ≤ credit s + if counted s a then 1 else 0

variable {s t : Pace.State σ} {labels : List (Pace.Label α)} {tr es : List Nat}

theorem begun_step {label : Pace.Label α} (begun : s.entered ≤ s.now)
    (h : Pace.step c s label = some (t, es)) : t.entered ≤ t.now := by
  cases label with
  | advance duration =>
    simp only [Pace.step] at h
    split at h
    · obtain ⟨rfl, -⟩ := Prod.mk.inj (Option.some.inj h)
      exact Nat.le_add_right_of_le begun
    · cases h
  | act label =>
    simp only [Pace.step] at h
    split at h
    · cases h
    · obtain ⟨next, -, he⟩ := Option.map_eq_some_iff.mp h
      obtain ⟨rfl, -⟩ := Prod.mk.inj he
      simp only [moved]
      split
      · exact begun
      · exact Nat.le_refl _

/-- What the machine keeps it keeps on its clock. -/
theorem inner_step {P : σ → Prop} (keeps : ∀ s a t, P s → c.step s a = some t → P t)
    {label : Pace.Label α} (old : P s.inner) (h : Pace.step c s label = some (t, es)) :
    P t.inner := by
  cases label with
  | advance duration =>
    simp only [Pace.step] at h
    split at h
    · obtain ⟨rfl, -⟩ := Prod.mk.inj (Option.some.inj h)
      exact old
    · cases h
  | act label =>
    simp only [Pace.step] at h
    split at h
    · cases h
    · obtain ⟨next, hn, he⟩ := Option.map_eq_some_iff.mp h
      obtain ⟨rfl, -⟩ := Prod.mk.inj he
      exact keeps _ _ _ old hn

theorem Retrying.spends (retrying : Retrying c policy cond delay credit counted paying)
    {label : Pace.Label α} (begun : s.entered ≤ s.now) (allowed : Acting cond s label)
    (h : Pace.step c s label = some (t, es)) :
    Spends policy Pace.State.entered (fun s => delay s.inner) (fun s => credit s.inner)
      (acts counted) (acts paying) s label t := by
  cases label with
  | advance duration =>
    simp only [Pace.step] at h
    split at h
    · obtain ⟨rfl, -⟩ := Prod.mk.inj (Option.some.inj h)
      exact ⟨Nat.le_refl _, rfl, Nat.le_of_eq (by simp [acts])⟩
    · cases h
  | act label =>
    simp only [Pace.step] at h
    split at h
    · cases h
    · rename_i punctual
      obtain ⟨next, hn, he⟩ := Option.map_eq_some_iff.mp h
      obtain ⟨rfl, -⟩ := Prod.mk.inj he
      refine ⟨?_, retrying.delay _ _ _ allowed hn, retrying.credit _ _ _ allowed hn⟩
      cases waited : counted s.inner label with
      | false =>
        simp only [acts, waited, moved, Bool.false_eq_true, ↓reduceIte, Nat.add_zero]
        split <;> omega
      | true =>
        -- the step is taken when the whole delay has been waited out
        obtain ⟨timed, whole, left⟩ := retrying.waits _ _ _ hn waited
        have due : s.now = s.entered + delay s.inner := by simpa [timed, whole] using punctual
        simp only [acts, waited, moved, left, Bool.false_eq_true, ↓reduceIte]
        omega

theorem Retrying.paying_le (retrying : Retrying c policy cond delay credit counted paying) {k : Nat}
    (begun : s.entered ≤ s.now) (sound : policy.Sound (delay s.inner))
    (reach : policy.cap ≤ policy.initial * 2 ^ k) (positive : 0 < policy.cap)
    (meets : Meets (Pace.step c) (Acting cond) s labels)
    (run : exec (Pace.step c) s labels = some (t, tr)) :
    tally (Pace.step c) (acts paying) s labels ≤
      credit s.inner + k + (t.now - s.entered) / policy.cap := by
  have begins : ∀ s a t es, s.entered ≤ s.now → Pace.step c s a = some (t, es) →
      t.entered ≤ t.now := fun _ _ _ _ begun h => begun_step begun h
  have few := Backoff.paying_le begins
    (fun _ _ _ _ begun allowed h => retrying.spends begun allowed h) begun sound reach positive
    meets run
  have later : t.entered ≤ t.now :=
    exec_state_invariant (P := fun s => s.entered ≤ s.now) begins begun run
  exact few.trans (Nat.add_le_add_left (Nat.div_le_div_right (by omega)) _)

end Clockwork

end Backoff

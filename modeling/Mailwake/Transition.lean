import Mathlib.Data.List.Basic
import Mathlib.Data.List.Infix

/-!
# Partial labelled steps, their runs and their traces

A step is a partial function of a state and a label: it is unavailable, or it
gives the next state and the events it emits. A run is a finite list of labels
executed one after the other, so a concrete run can be computed. Every invariant
is stated of a state together with the events emitted on the way to it.
-/
namespace Transition
universe u v w
variable {σ : Type u} {α : Type v} {ε : Type w}

/-- Execute the labels in order and collect what they emit. -/
def exec (step : σ → α → Option (σ × List ε)) : σ → List α → Option (σ × List ε)
  | s, [] => some (s, [])
  | s, a :: rest =>
    (step s a).bind fun next =>
      (exec step next.1 rest).map fun last => (last.1, next.2 ++ last.2)

variable {step : σ → α → Option (σ × List ε)}

@[simp] theorem exec_nil (s : σ) : exec step s [] = some (s, []) := rfl

theorem exec_cons_some {s t : σ} {a : α} {rest : List α} {tr : List ε} :
    exec step s (a :: rest) = some (t, tr) ↔
      ∃ m es fs, step s a = some (m, es) ∧ exec step m rest = some (t, fs) ∧ tr = es ++ fs := by
  simp only [exec, Option.bind_eq_some_iff, Option.map_eq_some_iff, Prod.exists, Prod.mk.injEq]
  constructor
  · rintro ⟨m, es, hs, t', fs, hr, rfl, rfl⟩
    exact ⟨m, es, fs, hs, hr, rfl⟩
  · rintro ⟨m, es, fs, hs, hr, rfl⟩
    exact ⟨m, es, hs, t, fs, hr, rfl, rfl⟩

/-- A run splits at any point into two runs whose traces concatenate. -/
theorem exec_append_some {s t : σ} {as bs : List α} {tr : List ε} :
    exec step s (as ++ bs) = some (t, tr) ↔
      ∃ m es fs, exec step s as = some (m, es) ∧ exec step m bs = some (t, fs) ∧ tr = es ++ fs := by
  induction as generalizing s tr with
  | nil => simp
  | cons a rest ih =>
    simp only [List.cons_append, exec_cons_some, ih]
    constructor
    · rintro ⟨m, es, fs, hs, ⟨n, gs, ks, hr, hb, rfl⟩, rfl⟩
      exact ⟨n, es ++ gs, ks, ⟨m, es, gs, hs, hr, rfl⟩, hb, (List.append_assoc ..).symm⟩
    · rintro ⟨n, es, fs, ⟨m, gs, ks, hs, hr, rfl⟩, hb, rfl⟩
      exact ⟨m, gs, ks ++ fs, hs, ⟨n, ks, fs, hr, hb, rfl⟩, List.append_assoc ..⟩

/-- Every label of the run satisfies the condition in the state it is taken from. -/
def Meets (step : σ → α → Option (σ × List ε)) (cond : σ → α → Prop) : σ → List α → Prop
  | _, [] => True
  | s, a :: rest => cond s a ∧ ∀ t es, step s a = some (t, es) → Meets step cond t rest

/-- A condition that can be decided can be checked along a run. -/
instance decidableMeets {cond : σ → α → Prop} [∀ s a, Decidable (cond s a)] :
    ∀ s as, Decidable (Meets step cond s as)
  | _, [] => isTrue trivial
  | s, a :: rest =>
    have : ∀ t, Decidable (Meets step cond t rest) := fun t => decidableMeets t rest
    decidable_of_iff (cond s a ∧ ∀ next ∈ step s a, Meets step cond next.1 rest)
      (and_congr_right fun _ => ⟨fun h t es ht => h (t, es) ht, fun h next hn => h next.1 next.2 hn⟩)

theorem meets_append_left {cond : σ → α → Prop} {s : σ} {as bs : List α}
    (h : Meets step cond s (as ++ bs)) : Meets step cond s as := by
  induction as generalizing s with
  | nil => trivial
  | cons a rest ih => exact ⟨h.1, fun t es ht => ih (h.2 t es ht)⟩

/-- The condition holds of each label where the run has come to. -/
theorem meets_at {cond : σ → α → Prop} {s t : σ} {as rest : List α} {a : α} {es : List ε}
    (h : Meets step cond s (as ++ a :: rest)) (run : exec step s as = some (t, es)) : cond t a := by
  induction as generalizing s es with
  | nil =>
    obtain ⟨rfl, -⟩ : s = t ∧ [] = es := by simpa using run
    exact h.1
  | cons b bs ih =>
    obtain ⟨m, fs, gs, hs, hr, rfl⟩ := exec_cons_some.mp run
    exact ih (h.2 m fs hs) hr

theorem meets_of_forall {cond : σ → α → Prop} (h : ∀ s a, cond s a) (s : σ) (as : List α) :
    Meets step cond s as := by
  induction as generalizing s with
  | nil => trivial
  | cons a rest ih => exact ⟨h s a, fun t _ _ => ih t⟩

theorem meets_and {first second : σ → α → Prop} {s : σ} {as : List α}
    (h : Meets step first s as) (k : Meets step second s as) :
    Meets step (fun s a => first s a ∧ second s a) s as := by
  induction as generalizing s with
  | nil => trivial
  | cons a rest ih => exact ⟨⟨h.1, k.1⟩, fun t es ht => ih (h.2 t es ht) (k.2 t es ht)⟩

/-- The induction every conditional invariant uses: one step from a state that
satisfies it, under the condition on that step, keeps it. -/
theorem exec_invariant_of_meets {cond : σ → α → Prop} {P : List ε → σ → Prop}
    (preserves : ∀ tr s a t es, P tr s → cond s a → step s a = some (t, es) → P (tr ++ es) t)
    {s t : σ} {as : List α} {past tr : List ε} (start : P past s)
    (meets : Meets step cond s as) (run : exec step s as = some (t, tr)) : P (past ++ tr) t := by
  induction as generalizing s past tr with
  | nil =>
    obtain ⟨rfl, rfl⟩ : s = t ∧ [] = tr := by simpa using run
    simpa using start
  | cons a rest ih =>
    obtain ⟨m, es, fs, hs, hr, rfl⟩ := exec_cons_some.mp run
    have next := preserves past s a m es start meets.1 hs
    simpa [List.append_assoc] using ih next (meets.2 m es hs) hr

/-- The unconditional case, from a start with an empty trace. -/
theorem exec_invariant {P : List ε → σ → Prop}
    (preserves : ∀ tr s a t es, P tr s → step s a = some (t, es) → P (tr ++ es) t)
    {s t : σ} {as : List α} {tr : List ε} (start : P [] s)
    (run : exec step s as = some (t, tr)) : P tr t := by
  have meets : Meets step (fun _ _ => True) s as := meets_of_forall (fun _ _ => trivial) s as
  exact exec_invariant_of_meets (fun tr s a t es hp _ hs => preserves tr s a t es hp hs)
    start meets run

/-- An invariant that does not look at the trace. -/
theorem exec_state_invariant_of_meets {cond : σ → α → Prop} {P : σ → Prop}
    (preserves : ∀ s a t es, P s → cond s a → step s a = some (t, es) → P t)
    {s t : σ} {as : List α} {tr : List ε} (start : P s)
    (meets : Meets step cond s as) (run : exec step s as = some (t, tr)) : P t := by
  induction as generalizing s tr with
  | nil =>
    obtain ⟨rfl, -⟩ : s = t ∧ [] = tr := by simpa using run
    exact start
  | cons a rest ih =>
    obtain ⟨m, es, fs, hs, hr, rfl⟩ := exec_cons_some.mp run
    exact ih (preserves s a m es start meets.1 hs) (meets.2 m es hs) hr

/-- A run meets a condition that holds before each of its steps. -/
theorem meets_of_each {cond : σ → α → Prop} {s t : σ} {as : List α} {tr : List ε}
    (run : exec step s as = some (t, tr))
    (h : ∀ taken a rest m es, as = taken ++ a :: rest → exec step s taken = some (m, es) →
      cond m a) : Meets step cond s as := by
  induction as generalizing s tr with
  | nil => trivial
  | cons a rest ih =>
    obtain ⟨m, es, fs, hs, hr, rfl⟩ := exec_cons_some.mp run
    refine ⟨h [] a rest s [] rfl rfl, ?_⟩
    intro n gs hn
    obtain ⟨rfl, rfl⟩ := Prod.mk.inj (Option.some.inj (hs.symm.trans hn))
    refine ih hr ?_
    rintro taken b after k ks rfl hk
    exact h (a :: taken) b after k (es ++ ks) rfl (exec_cons_some.mpr ⟨m, es, ks, hs, hk, rfl⟩)

theorem exec_state_invariant {P : σ → Prop}
    (preserves : ∀ s a t es, P s → step s a = some (t, es) → P t)
    {s t : σ} {as : List α} {tr : List ε} (start : P s)
    (run : exec step s as = some (t, tr)) : P t := by
  have meets : Meets step (fun _ _ => True) s as := meets_of_forall (fun _ _ => trivial) s as
  exact exec_state_invariant_of_meets (fun s a t es hp _ hs => preserves s a t es hp hs)
    start meets run

/-- An invariant that looks at the labels as well. -/
theorem exec_history {P : List α → List ε → σ → Prop}
    (preserves : ∀ as tr s a t es, P as tr s → step s a = some (t, es) → P (as ++ [a]) (tr ++ es) t)
    {s t : σ} {past as : List α} {before tr : List ε} (start : P past before s)
    (run : exec step s as = some (t, tr)) : P (past ++ as) (before ++ tr) t := by
  induction as generalizing s past before tr with
  | nil =>
    obtain ⟨rfl, rfl⟩ : s = t ∧ [] = tr := by simpa using run
    simpa using start
  | cons a rest ih =>
    obtain ⟨m, es, fs, hs, hr, rfl⟩ := exec_cons_some.mp run
    simpa [List.append_assoc] using ih (preserves past before s a m es start hs) hr

/-- `P` holds of the trace and the state after every part of the run. -/
def Throughout (step : σ → α → Option (σ × List ε)) (P : List ε → σ → Prop) (s : σ)
    (as : List α) : Prop :=
  ∀ taken rest t es, as = taken ++ rest → exec step s taken = some (t, es) → P es t

/-- An invariant under a condition, and what follows from it, hold throughout. -/
theorem throughout_of_meets {cond : σ → α → Prop} {P Q : List ε → σ → Prop}
    (preserves : ∀ tr s a t es, P tr s → cond s a → step s a = some (t, es) → P (tr ++ es) t)
    (implies : ∀ tr s, P tr s → Q tr s) {s : σ} {as : List α} (start : P [] s)
    (meets : Meets step cond s as) : Throughout step Q s as := by
  rintro taken rest t es rfl run
  have last : P ([] ++ es) t :=
    exec_invariant_of_meets preserves start (meets_append_left meets) run
  exact implies es t last

/-- If `P` holds throughout a run, and on both sides of a step only when the condition does,
then the run meets the condition. -/
theorem meets_of_throughout {cond : σ → α → Prop} {P : List ε → σ → Prop}
    (forced : ∀ tr s a t es, P tr s → P (tr ++ es) t → step s a = some (t, es) → cond s a)
    {s t : σ} {as : List α} {tr : List ε} (run : exec step s as = some (t, tr))
    (h : Throughout step P s as) : Meets step cond s as := by
  refine meets_of_each run ?_
  rintro taken a rest m es rfl hm
  obtain ⟨n, fs, gs, hn, hr, -⟩ := exec_append_some.mp run
  obtain ⟨rfl, rfl⟩ := Prod.mk.inj (Option.some.inj (hm.symm.trans hn))
  obtain ⟨k, hs, ks, ha, -, -⟩ := exec_cons_some.mp hr
  have one : exec step m [a] = some (k, hs) := by simp [exec, ha]
  have next : exec step s (taken ++ [a]) = some (k, es ++ hs) :=
    exec_append_some.mpr ⟨m, es, hs, hm, one, rfl⟩
  exact forced es m a k hs (h taken (a :: rest) m es rfl hm)
    (h (taken ++ [a]) rest k (es ++ hs) (by simp) next) ha

/-- If each counted label costs one of a measure that never grows, the measure bounds their
number. -/
theorem exec_measure (counted : α → Bool) (measure : σ → Nat)
    (spent : ∀ s a t es, step s a = some (t, es) →
      (if counted a then 1 else 0) + measure t ≤ measure s)
    {s t : σ} {as : List α} {tr : List ε} (run : exec step s as = some (t, tr)) :
    (as.filter counted).length + measure t ≤ measure s := by
  induction as generalizing s tr with
  | nil =>
    obtain ⟨rfl, -⟩ : s = t ∧ [] = tr := by simpa using run
    simp
  | cons a rest ih =>
    obtain ⟨m, es, fs, hs, hr, rfl⟩ := exec_cons_some.mp run
    have first := spent s a m es hs
    have later := ih hr
    cases h : counted a <;> simp [h] at first ⊢ <;> omega

/-- What is seen of the states before and after each step of a run. -/
def noted {β : Type*} (step : σ → α → Option (σ × List ε)) (see : σ → σ → List β) :
    σ → List α → List β
  | _, [] => []
  | s, a :: rest =>
    match step s a with
    | none => []
    | some next => see s next.1 ++ noted step see next.1 rest

@[simp] theorem noted_cons {β : Type*} {see : σ → σ → List β} {s t : σ} {a : α} {rest : List α}
    {es : List ε} (h : step s a = some (t, es)) :
    noted step see s (a :: rest) = see s t ++ noted step see t rest := by
  rw [noted, h]

/-- If every step moves one component, with the same events, or leaves it alone and emits
nothing, then every run is a run of that component. -/
theorem exec_component {τ β : Type*} {inner : τ → β → Option (τ × List ε)} (component : σ → τ)
    (moves : ∀ s a t es, step s a = some (t, es) →
      (∃ b, inner (component s) b = some (component t, es)) ∨
        component t = component s ∧ es = [])
    {s t : σ} {as : List α} {tr : List ε} (run : exec step s as = some (t, tr)) :
    ∃ bs, exec inner (component s) bs = some (component t, tr) := by
  induction as generalizing s tr with
  | nil =>
    obtain ⟨rfl, rfl⟩ : s = t ∧ [] = tr := by simpa using run
    exact ⟨[], rfl⟩
  | cons a rest ih =>
    obtain ⟨m, es, fs, hs, hr, rfl⟩ := exec_cons_some.mp run
    obtain ⟨bs, hb⟩ := ih hr
    rcases moves s a m es hs with ⟨b, moved⟩ | ⟨same, rfl⟩
    · exact ⟨b :: bs, exec_cons_some.mpr ⟨component m, es, fs, moved, hb, rfl⟩⟩
    · rw [same] at hb
      exact ⟨bs, hb⟩

/-- If every step is a run of one component, as far as `view` shows it, then so is every run. -/
theorem exec_projection {τ β η : Type*} {inner : τ → β → Option (τ × List η)} (component : σ → τ)
    (view : ε → Option η)
    (moves : ∀ s a t es, step s a = some (t, es) →
      ∃ bs, exec inner (component s) bs = some (component t, es.filterMap view))
    {s t : σ} {as : List α} {tr : List ε} (run : exec step s as = some (t, tr)) :
    ∃ bs, exec inner (component s) bs = some (component t, tr.filterMap view) := by
  induction as generalizing s tr with
  | nil =>
    obtain ⟨rfl, rfl⟩ : s = t ∧ [] = tr := by simpa using run
    exact ⟨[], rfl⟩
  | cons a rest ih =>
    obtain ⟨m, es, fs, hs, hr, rfl⟩ := exec_cons_some.mp run
    obtain ⟨bs, first⟩ := moves s a m es hs
    obtain ⟨cs, later⟩ := ih hr
    rw [List.filterMap_append]
    exact ⟨bs ++ cs, exec_append_some.mpr ⟨component m, _, _, first, later, rfl⟩⟩

section Clock
variable {τ : Type*} {clock : σ → τ}

/-- The same steps, with each event marked by the time it is emitted at. -/
def stamped (clock : σ → τ) (step : σ → α → Option (σ × List ε)) :
    σ → α → Option (σ × List (τ × ε)) :=
  fun s a => (step s a).map fun next => (next.1, next.2.map fun e => (clock s, e))

theorem stamped_some {s t : σ} {a : α} {es : List (τ × ε)} :
    stamped clock step s a = some (t, es) ↔
      ∃ fs, step s a = some (t, fs) ∧ es = fs.map fun e => (clock s, e) := by
  simp only [stamped, Option.map_eq_some_iff, Prod.exists, Prod.mk.injEq]
  constructor
  · rintro ⟨m, fs, h, rfl, rfl⟩
    exact ⟨fs, h, rfl⟩
  · rintro ⟨fs, h, rfl⟩
    exact ⟨t, fs, h, rfl, rfl⟩

theorem mem_stamps {time x : τ} {e : ε} {es : List ε} (mem : (x, e) ∈ es.map fun e => (time, e)) :
    x = time ∧ e ∈ es := by
  obtain ⟨f, hf, same⟩ := List.mem_map.mp mem
  obtain ⟨rfl, rfl⟩ := Prod.mk.inj same
  exact ⟨rfl, hf⟩

/-- The marks neither allow nor forbid a run. -/
theorem exec_stamped (s : σ) (as : List α) :
    (exec (stamped clock step) s as).map (fun last => (last.1, last.2.map Prod.snd)) =
      exec step s as := by
  induction as generalizing s with
  | nil => rfl
  | cons a rest ih =>
    cases h : step s a with
    | none => simp [exec, stamped, h]
    | some next =>
      have later := ih next.1
      cases hr : exec (stamped clock step) next.1 rest with
      | none => simp [exec, stamped, h, hr, ← later]
      | some last => simp [exec, stamped, h, hr, ← later, Function.comp_def]

end Clock

section Thinning

/-- Some of the labels of a run are left out. -/
inductive Thinned (gone : α → Prop) : List α → List α → Prop where
  | nil : Thinned gone [] []
  | keep {a : α} {as bs : List α} : Thinned gone as bs → Thinned gone (a :: as) (a :: bs)
  | drop {a : α} {as bs : List α} : gone a → Thinned gone as bs → Thinned gone as (a :: bs)

/-- A simulation whose steps are matched or left out turns a run into a thinner one of the same
trace. -/
theorem exec_thinned (like : σ → σ → Prop) (cond kept : σ → α → Prop) (gone : α → Prop)
    (matched : ∀ u s a t es, like u s → cond s a → step s a = some (t, es) →
      (gone a ∧ es = [] ∧ like u t) ∨ ∃ v, kept u a ∧ step u a = some (v, es) ∧ like v t)
    {u s t : σ} {labels : List α} {tr : List ε} (start : like u s)
    (meets : Meets step cond s labels) (run : exec step s labels = some (t, tr)) :
    ∃ as v, Thinned gone as labels ∧ Meets step kept u as ∧ exec step u as = some (v, tr) ∧
      like v t := by
  induction labels generalizing u s tr with
  | nil =>
    obtain ⟨rfl, rfl⟩ : s = t ∧ [] = tr := by simpa using run
    exact ⟨[], u, .nil, trivial, rfl, start⟩
  | cons a rest ih =>
    obtain ⟨m, es, fs, hs, hr, rfl⟩ := exec_cons_some.mp run
    rcases matched u s a m es start meets.1 hs with ⟨left, rfl, same⟩ | ⟨n, allowed, hn, same⟩
    · obtain ⟨as, v, thin, keeps, hv, last⟩ := ih same (meets.2 m [] hs) hr
      exact ⟨as, v, .drop left thin, keeps, hv, last⟩
    · obtain ⟨as, v, thin, keeps, hv, last⟩ := ih same (meets.2 m es hs) hr
      refine ⟨a :: as, v, .keep thin, ⟨allowed, ?_⟩, ?_, last⟩
      · intro k ks hk
        obtain ⟨rfl, -⟩ := Prod.mk.inj (Option.some.inj (hn.symm.trans hk))
        exact keeps
      · exact exec_cons_some.mpr ⟨n, es, fs, hn, hv, rfl⟩

end Thinning

section Reaching

def Reaches (step : σ → α → Option (σ × List ε)) (s t : σ) : Prop :=
  ∃ as tr, exec step s as = some (t, tr)

theorem Reaches.refl (s : σ) : Reaches step s s := ⟨[], [], rfl⟩

theorem Reaches.trans {s m t : σ} (first : Reaches step s m) (second : Reaches step m t) :
    Reaches step s t := by
  obtain ⟨as, es, hs⟩ := first
  obtain ⟨bs, fs, hm⟩ := second
  exact ⟨as ++ bs, es ++ fs, exec_append_some.mpr ⟨m, es, fs, hs, hm, rfl⟩⟩

theorem Reaches.single {s t : σ} {a : α} {es : List ε} (h : step s a = some (t, es)) :
    Reaches step s t :=
  ⟨[a], es ++ [], exec_cons_some.mpr ⟨t, es, [], h, rfl, rfl⟩⟩

end Reaching

section Traces

/-- Each event is justified by the events before it. -/
def AtEach (Q : List ε → ε → Prop) (tr : List ε) : Prop :=
  ∀ before x after, tr = before ++ x :: after → Q before x

/-- Each `p` has a later `q`. -/
def FollowedBy (p q : ε → Prop) (tr : List ε) : Prop :=
  ∀ before x after, tr = before ++ x :: after → p x → ∃ y ∈ after, q y

/-- The trace satisfied `R` at some point, and only `p` events came since. -/
def Since (p : ε → Prop) (R : List ε → Prop) (tr : List ε) : Prop :=
  ∃ before rest, tr = before ++ rest ∧ R before ∧ ∀ x ∈ rest, p x

variable {Q : List ε → ε → Prop} {p q : ε → Prop} {R : List ε → Prop}

theorem Since.now {tr : List ε} (h : R tr) : Since p R tr :=
  ⟨tr, [], (List.append_nil tr).symm, h, by simp⟩

theorem Since.append {tr es : List ε} (h : Since p R tr) (quiet : ∀ x ∈ es, p x) :
    Since p R (tr ++ es) := by
  obtain ⟨before, rest, rfl, hR, hrest⟩ := h
  refine ⟨before, rest ++ es, List.append_assoc .., hR, ?_⟩
  intro x hx
  rcases List.mem_append.mp hx with hx | hx
  · exact hrest x hx
  · exact quiet x hx

@[simp] theorem atEach_nil : AtEach Q [] := by
  intro before x after h
  simp at h

theorem atEach_append {tr es : List ε} :
    AtEach Q (tr ++ es) ↔
      AtEach Q tr ∧ ∀ before x after, es = before ++ x :: after → Q (tr ++ before) x := by
  constructor
  · intro h
    refine ⟨fun before x after he => h before x (after ++ es) (by simp [he]), ?_⟩
    intro before x after he
    exact h (tr ++ before) x after (by simp [he])
  · rintro ⟨hold, hnew⟩ before x after he
    rcases List.append_eq_append_iff.mp he with ⟨mid, hb, hm⟩ | ⟨mid, hb, hm⟩
    · rw [hb]
      exact hnew mid x after hm
    · cases mid with
      | nil =>
        have hn := hnew [] x after (by simpa using hm.symm)
        have hbt : before = tr := by simpa using hb.symm
        simpa [hbt] using hn
      | cons y mid =>
        obtain ⟨rfl, rfl⟩ : x = y ∧ after = mid ++ es := by simpa using hm
        exact hold before x mid hb

/-- The usual step: the new events are justified one by one after the old trace. -/
theorem AtEach.append {tr es : List ε} (h : AtEach Q tr)
    (new : ∀ before x after, es = before ++ x :: after → Q (tr ++ before) x) :
    AtEach Q (tr ++ es) :=
  atEach_append.mpr ⟨h, new⟩

theorem AtEach.append_one {tr : List ε} {x : ε} (h : AtEach Q tr) (new : Q tr x) :
    AtEach Q (tr ++ [x]) := by
  refine h.append ?_
  intro before y after he
  rcases before with _ | ⟨z, before⟩
  · obtain ⟨rfl, -⟩ : x = y ∧ after = [] := by simpa using he
    simpa using new
  · simp at he

/-- Two events, the second of which may rest on the first. -/
theorem AtEach.append_two {tr : List ε} {x y : ε} (h : AtEach Q tr) (first : Q tr x)
    (second : Q (tr ++ [x]) y) : AtEach Q (tr ++ [x, y]) := by
  rw [List.append_cons]
  exact (h.append_one first).append_one second

/-- Events that `Q` says nothing about are justified whatever came before. -/
theorem AtEach.append_quiet {tr es : List ε} (h : AtEach Q tr)
    (quiet : ∀ x ∈ es, ∀ before, Q before x) : AtEach Q (tr ++ es) :=
  h.append fun before x after he => quiet x (by simp [he]) (tr ++ before)

@[simp] theorem followedBy_nil : FollowedBy p q ([] : List ε) := by
  intro before x after h
  simp at h

/-- Appending events that raise no new obligation keeps the old ones answered. -/
theorem FollowedBy.append {tr es : List ε} (h : FollowedBy p q tr) (quiet : ∀ x ∈ es, ¬ p x) :
    FollowedBy p q (tr ++ es) := by
  intro before x after he hp
  rcases List.append_eq_append_iff.mp he with ⟨mid, hb, hm⟩ | ⟨mid, hb, hm⟩
  · exact absurd hp (quiet x (by simp [hm]))
  · cases mid with
    | nil => exact absurd hp (quiet x (by simp [show es = x :: after by simpa using hm.symm]))
    | cons y mid =>
      obtain ⟨rfl, rfl⟩ : x = y ∧ after = mid ++ es := by simpa using hm
      obtain ⟨z, hz, hq⟩ := h before x mid hb hp
      exact ⟨z, List.mem_append_left es hz, hq⟩

/-- One answering event discharges every obligation raised before it. -/
theorem followedBy_append_answer {tr es : List ε} (answer : ∃ y ∈ es, q y)
    (quiet : ∀ x ∈ es, ¬ p x) : FollowedBy p q (tr ++ es) := by
  intro before x after he hp
  rcases List.append_eq_append_iff.mp he with ⟨mid, hb, hm⟩ | ⟨mid, hb, hm⟩
  · exact absurd hp (quiet x (by simp [hm]))
  · cases mid with
    | nil => exact absurd hp (quiet x (by simp [show es = x :: after by simpa using hm.symm]))
    | cons y mid =>
      obtain ⟨rfl, rfl⟩ : x = y ∧ after = mid ++ es := by simpa using hm
      obtain ⟨z, hz, hq⟩ := answer
      exact ⟨z, List.mem_append_right mid hz, hq⟩

theorem FollowedBy.trans {r : ε → Prop} {tr : List ε} (first : FollowedBy p q tr)
    (second : FollowedBy q r tr) : FollowedBy p r tr := by
  rintro before x after rfl hx
  obtain ⟨y, hy, asked⟩ := first before x after rfl hx
  obtain ⟨mid, rest, rfl⟩ := List.append_of_mem hy
  obtain ⟨z, hz, answer⟩ := second (before ++ x :: mid) y rest (by simp) asked
  exact ⟨z, by simp [hz], answer⟩

theorem FollowedBy.imp {p' q' : ε → Prop} {tr : List ε} (h : FollowedBy p q tr)
    (asks : ∀ x, p' x → p x) (answers : ∀ x, q x → q' x) : FollowedBy p' q' tr := by
  intro before x after he hx
  obtain ⟨y, hy, answer⟩ := h before x after he (asks x hx)
  exact ⟨y, hy, answers y answer⟩

/-- What is followed in a part of the trace is followed in the whole of it. -/
theorem followedBy_of_filterMap {η : Type*} {view : ε → Option η} {p q : η → Prop} {tr : List ε}
    (h : FollowedBy p q (tr.filterMap view)) :
    FollowedBy (fun x => ∃ y, view x = some y ∧ p y) (fun x => ∃ y, view x = some y ∧ q y) tr := by
  rintro before x after rfl ⟨y, seen, asked⟩
  obtain ⟨z, hz, answer⟩ := h (before.filterMap view) y (after.filterMap view)
    (by rw [List.filterMap_append, List.filterMap_cons_some seen]) asked
  obtain ⟨w, hw, shown⟩ := List.mem_filterMap.mp hz
  exact ⟨w, hw, z, shown, answer⟩

/-- If each `p` among the new events has a later `q` among them, the old answers stay. -/
theorem FollowedBy.append_followed {tr es : List ε} (h : FollowedBy p q tr)
    (new : FollowedBy p q es) : FollowedBy p q (tr ++ es) := by
  intro before x after he hx
  rcases List.append_eq_append_iff.mp he with ⟨mid, rfl, hm⟩ | ⟨mid, rfl, hm⟩
  · exact new mid x after hm hx
  · cases mid with
    | nil => exact new [] x after hm.symm hx
    | cons y mid =>
      obtain ⟨rfl, rfl⟩ : x = y ∧ after = mid ++ es := by simpa using hm
      obtain ⟨z, hz, answer⟩ := h before x mid rfl hx
      exact ⟨z, List.mem_append_left es hz, answer⟩

end Traces

end Transition

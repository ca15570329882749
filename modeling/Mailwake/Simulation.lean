import Mailwake.Transition

/-!
# Two machines side by side

A relation of states and traces that every step keeps, carried over to whole runs: in lockstep,
for labels that are alike, or with a run of the second machine for each step of the first one.
-/
namespace Simulation
open Transition
universe u v w x y z
variable {σ : Type u} {α : Type v} {ε : Type w} {τ : Type x} {β : Type y} {η : Type z}
  {first : σ → α → Option (σ × List ε)} {second : τ → β → Option (τ × List η)}

/-- Labels that are alike take the second machine where the first one goes. -/
theorem exec_lockstep (R : List ε → List η → σ → τ → Prop) (like : α → β → Prop)
    (matched : ∀ tr tr' s s' a b t es, R tr tr' s s' → like a b → first s a = some (t, es) →
      ∃ t' es', second s' b = some (t', es') ∧ R (tr ++ es) (tr' ++ es') t t')
    {s t : σ} {s' : τ} {past tr : List ε} {past' : List η} {as : List α} {bs : List β}
    (start : R past past' s s') (alike : List.Forall₂ like as bs)
    (run : exec first s as = some (t, tr)) :
    ∃ t' tr', exec second s' bs = some (t', tr') ∧ R (past ++ tr) (past' ++ tr') t t' := by
  induction alike generalizing s s' past past' tr with
  | nil =>
    obtain ⟨rfl, rfl⟩ : s = t ∧ [] = tr := by simpa using run
    exact ⟨s', [], rfl, by simpa using start⟩
  | cons same _ ih =>
    obtain ⟨m, es, fs, hs, hr, rfl⟩ := exec_cons_some.mp run
    obtain ⟨m', es', hs', related⟩ := matched _ _ _ _ _ _ _ _ start same hs
    obtain ⟨t', fs', hr', last⟩ := ih related hr
    refine ⟨t', es' ++ fs', exec_cons_some.mpr ⟨m', es', fs', hs', hr', rfl⟩, ?_⟩
    simpa only [List.append_assoc] using last

/-- Each step of the first machine is some run of the second one that shows the same. -/
theorem exec_simulated {ζ : Type*} (R : σ → τ → Prop) (view : ε → List ζ) (view' : η → List ζ)
    (matched : ∀ s s' a t es, R s s' → first s a = some (t, es) →
      ∃ bs t' es', exec second s' bs = some (t', es') ∧ es.flatMap view = es'.flatMap view' ∧
        R t t')
    {s t : σ} {s' : τ} {tr : List ε} {as : List α} (start : R s s')
    (run : exec first s as = some (t, tr)) :
    ∃ bs t' tr', exec second s' bs = some (t', tr') ∧ tr.flatMap view = tr'.flatMap view' ∧
      R t t' := by
  induction as generalizing s s' tr with
  | nil =>
    obtain ⟨rfl, rfl⟩ : s = t ∧ [] = tr := by simpa using run
    exact ⟨[], s', [], rfl, rfl, start⟩
  | cons a rest ih =>
    obtain ⟨m, es, fs, hs, hr, rfl⟩ := exec_cons_some.mp run
    obtain ⟨bs, m', es', taken, shown, related⟩ := matched s s' a m es start hs
    obtain ⟨cs, t', fs', later, told, last⟩ := ih related hr
    refine ⟨bs ++ cs, t', es' ++ fs', exec_append_some.mpr ⟨m', _, _, taken, later, rfl⟩, ?_, last⟩
    rw [List.flatMap_append, List.flatMap_append, shown, told]

end Simulation

import Mathlib.Data.List.Nodup
import Mailwake.Fallible

/-!
# Folds that register names

A fold along a list in which every element must be good in itself and bring only names that
nobody has brought before, in any number of name spaces. It succeeds just if every element is
good and no name comes twice.
-/
namespace Registry
open Fallible
universe u v w
variable {ε : Type u} {α β : Type v} {ι : Type w} {name : Type*}

section Checks

theorem then_ok_iff {x : Except ε PUnit} {y : Except ε β} {b : β} :
    (x >>= fun _ => y) = .ok b ↔ x = .ok ⟨⟩ ∧ y = .ok b := by
  refine ⟨then_ok, ?_⟩
  rintro ⟨rfl, rfl⟩
  rfl

theorem bind_ok_iff {x : Except ε α} {f : α → Except ε β} {b : β} :
    (x >>= f) = .ok b ↔ ∃ a, x = .ok a ∧ f a = .ok b := by
  refine ⟨bind_ok, ?_⟩
  rintro ⟨a, rfl, h⟩
  exact h

theorem bind_total_iff {x : Except ε α} {f : α → Except ε β} :
    (∃ b, (x >>= f) = .ok b) ↔ ∃ a, x = .ok a ∧ ∃ b, f a = .ok b := by
  simp only [bind_ok_iff]
  exact ⟨fun ⟨b, a, ha, hb⟩ => ⟨a, ha, b, hb⟩, fun ⟨a, ha, b, hb⟩ => ⟨b, a, ha, hb⟩⟩

theorem then_total_iff {x : Except ε PUnit} {y : Except ε β} :
    (∃ b, (x >>= fun _ => y) = .ok b) ↔ x = .ok ⟨⟩ ∧ ∃ b, y = .ok b := by
  simp only [then_ok_iff, exists_and_left]

theorem forM_ok_iff {f : α → Except ε PUnit} {xs : List α} :
    xs.forM f = .ok ⟨⟩ ↔ ∀ x ∈ xs, f x = .ok ⟨⟩ := by
  induction xs with
  | nil => simp [pure, Except.pure]
  | cons x xs ih =>
    change (f x >>= fun _ => xs.forM f) = _ ↔ _
    rw [then_ok_iff, ih, List.forall_mem_cons]

end Checks

/-- The keys are new, and none comes twice. -/
structure Fresh (keys known : List name) : Prop where
  distinct : keys.Nodup
  unknown : ∀ key ∈ keys, key ∉ known

theorem fresh_nil (known : List name) : Fresh [] known := ⟨List.nodup_nil, by simp⟩

theorem fresh_nil_iff {keys : List name} : Fresh keys [] ↔ keys.Nodup :=
  ⟨Fresh.distinct, fun distinct => ⟨distinct, by simp⟩⟩

theorem fresh_append {first second known : List name} :
    Fresh (first ++ second) known ↔
      Fresh first known ∧ Fresh second (first.reverse ++ known) := by
  constructor
  · rintro ⟨distinct, unknown⟩
    obtain ⟨one, two, apart⟩ := List.nodup_append.mp distinct
    refine ⟨⟨one, fun key hk => unknown key (List.mem_append_left _ hk)⟩, two, ?_⟩
    intro key hk known
    rcases List.mem_append.mp known with again | old
    · exact apart key (List.mem_reverse.mp again) key hk rfl
    · exact unknown key (List.mem_append_right _ hk) old
  · rintro ⟨⟨one, old⟩, two, new⟩
    refine ⟨List.nodup_append.mpr ⟨one, two, ?_⟩, ?_⟩
    · rintro key hk other ho rfl
      exact new key ho (List.mem_append_left _ (List.mem_reverse.mpr hk))
    · intro key hk
      rcases List.mem_append.mp hk with hk | hk
      · exact old key hk
      · exact fun known => new key hk (List.mem_append_right _ known)

/-- A step of the fold: it succeeds for a good element with fresh names, and registers them. -/
structure Registers (f : β → α → Except ε β) (Good : α → Prop) (keys : ι → α → List name)
    (names : ι → β → List name) : Prop where
  accepts : ∀ b x, (∃ c, f b x = .ok c) ↔ Good x ∧ ∀ i, Fresh (keys i x) (names i b)
  enters : ∀ b x c, f b x = .ok c → ∀ i, names i c = (keys i x).reverse ++ names i b

variable {f : β → α → Except ε β} {Good : α → Prop} {keys : ι → α → List name}
  {names : ι → β → List name}

theorem Registers.entered (step : Registers f Good keys names) {b c : β} {xs : List α}
    (h : xs.foldlM f b = .ok c) (i : ι) :
    names i c = (xs.flatMap (keys i)).reverse ++ names i b := by
  induction xs generalizing b with
  | nil =>
    obtain rfl : b = c := Except.ok.inj h
    rfl
  | cons x xs ih =>
    obtain ⟨d, hd, rest⟩ := bind_ok (by simpa only [List.foldlM_cons] using h)
    rw [ih rest, step.enters b x d hd, List.flatMap_cons, List.reverse_append, List.append_assoc]

/-- The fold succeeds just if every element is good and no name comes twice. -/
theorem Registers.accepts_all (step : Registers f Good keys names) (b : β) (xs : List α) :
    (∃ c, xs.foldlM f b = .ok c) ↔
      (∀ x ∈ xs, Good x) ∧ ∀ i, Fresh (xs.flatMap (keys i)) (names i b) := by
  induction xs generalizing b with
  | nil => exact ⟨fun _ => ⟨by simp, fun i => fresh_nil _⟩, fun _ => ⟨b, rfl⟩⟩
  | cons x xs ih =>
    simp only [List.foldlM_cons, bind_total_iff, ih, List.forall_mem_cons, List.flatMap_cons,
      fresh_append]
    constructor
    · rintro ⟨c, hc, later, fresh⟩
      obtain ⟨good, new⟩ := (step.accepts b x).mp ⟨c, hc⟩
      refine ⟨⟨good, later⟩, fun i => ⟨new i, ?_⟩⟩
      rw [← step.enters b x c hc i]
      exact fresh i
    · rintro ⟨⟨good, later⟩, fresh⟩
      obtain ⟨c, hc⟩ := (step.accepts b x).mpr ⟨good, fun i => (fresh i).1⟩
      refine ⟨c, hc, later, fun i => ?_⟩
      rw [step.enters b x c hc i]
      exact (fresh i).2

end Registry

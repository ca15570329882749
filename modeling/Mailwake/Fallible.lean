import Mathlib.Data.List.Forall2

/-!
# Computations that may fail

What is known when a chain of fallible steps, or a fold of one along a list, has succeeded.
-/
namespace Fallible
universe u v
variable {ε : Type u} {α β : Type v}

theorem bind_ok {x : Except ε α} {f : α → Except ε β} {b : β} (h : (x >>= f) = .ok b) :
    ∃ a, x = .ok a ∧ f a = .ok b := by
  cases x with
  | error e => cases h
  | ok a => exact ⟨a, rfl, h⟩

theorem then_ok {x : Except ε PUnit} {y : Except ε β} {b : β} (h : (x >>= fun _ => y) = .ok b) :
    x = .ok ⟨⟩ ∧ y = .ok b := by
  obtain ⟨_, hx, hy⟩ := bind_ok h
  exact ⟨hx, hy⟩

theorem then_error {x : Except ε PUnit} {y : Except ε β} {error : ε}
    (h : (x >>= fun _ => y) = .error error) : x = .error error ∨ y = .error error := by
  cases x with
  | error e =>
    cases h
    exact Or.inl rfl
  | ok _ => exact Or.inr h

/-- A traversal that fails fails at one of the elements. -/
theorem forM_error {f : α → Except ε PUnit} {xs : List α} {error : ε}
    (h : xs.forM f = .error error) : ∃ x ∈ xs, f x = .error error := by
  induction xs with
  | nil => cases h
  | cons x xs ih =>
    rcases then_error (x := f x) (y := xs.forM f) h with first | rest
    · exact ⟨x, List.mem_cons_self, first⟩
    · obtain ⟨y, mem, failed⟩ := ih rest
      exact ⟨y, List.mem_cons_of_mem x mem, failed⟩

theorem ok_of_isOk {x : Except ε α} (h : x.isOk = true) : ∃ a, x = .ok a := by
  cases x with
  | error e => cases h
  | ok a => exact ⟨a, rfl⟩

theorem ok_of_toOption {x : Except ε α} {a : α} (h : x.toOption = some a) : x = .ok a := by
  cases x with
  | error e => cases h
  | ok b => rw [Option.some.inj h]

/-- What one step of a fold keeps holds of everything folded so far. -/
theorem foldlM_ok {f : β → α → Except ε β} {P : List α → β → Prop} {init last : β}
    {past xs : List α} (start : P past init)
    (each : ∀ seen x b c, x ∈ xs → P seen b → f b x = .ok c → P (seen ++ [x]) c)
    (h : xs.foldlM f init = .ok last) : P (past ++ xs) last := by
  induction xs generalizing past init with
  | nil =>
    obtain rfl : init = last := Except.ok.inj h
    simpa using start
  | cons x xs ih =>
    obtain ⟨c, hc, rest⟩ := bind_ok (by simpa only [List.foldlM_cons] using h)
    have next : P (past ++ [x]) c := each past x init c List.mem_cons_self start hc
    have later := ih next (fun seen y b c hy => each seen y b c (List.mem_cons_of_mem x hy)) rest
    rwa [List.append_assoc] at later

/-- Every element of a successful fold has been accepted. -/
theorem foldlM_each {f : β → α → Except ε β} {init last : β} {xs : List α}
    (h : xs.foldlM f init = .ok last) : ∀ x ∈ xs, ∃ b c, f b x = .ok c := by
  have all : ∀ x ∈ [] ++ xs, ∃ b c, f b x = .ok c := by
    refine foldlM_ok (P := fun seen _ => ∀ x ∈ seen, ∃ b c, f b x = .ok c) (by simp) ?_ h
    intro seen x b c _ before hc y hy
    rcases List.mem_append.mp hy with hy | hy
    · exact before y hy
    · obtain rfl := List.mem_singleton.mp hy
      exact ⟨b, c, hc⟩
  simpa using all

/-- A traversal that succeeds evaluates every element, in order. -/
theorem mapM_ok {f : α → Except ε β} {xs : List α} {ys : List β} (h : xs.mapM f = .ok ys) :
    List.Forall₂ (fun x y => f x = .ok y) xs ys := by
  induction xs generalizing ys with
  | nil =>
    obtain rfl : [] = ys := Except.ok.inj h
    exact .nil
  | cons x xs ih =>
    rw [List.mapM_cons] at h
    obtain ⟨y, hy, h⟩ := bind_ok h
    obtain ⟨rest, hrest, h⟩ := bind_ok h
    obtain rfl : y :: rest = ys := Except.ok.inj h
    exact .cons hy (ih hrest)

theorem mapM_total {f : α → Except ε β} {xs : List α} (h : ∀ x ∈ xs, ∃ y, f x = .ok y) :
    ∃ ys, xs.mapM f = .ok ys := by
  induction xs with
  | nil => exact ⟨[], rfl⟩
  | cons x xs ih =>
    obtain ⟨y, hy⟩ := h x List.mem_cons_self
    obtain ⟨ys, hys⟩ := ih fun z hz => h z (List.mem_cons_of_mem x hz)
    exact ⟨y :: ys, by rw [List.mapM_cons, hy, hys]; rfl⟩

section Pairs
variable {R : α → β → Prop} {xs : List α} {ys : List β}

theorem forall₂_left (h : List.Forall₂ R xs ys) : ∀ x ∈ xs, ∃ y ∈ ys, R x y := by
  induction h with
  | nil => simp
  | cons head _ ih =>
    intro x hx
    rcases List.mem_cons.mp hx with rfl | hx
    · exact ⟨_, List.mem_cons_self, head⟩
    · obtain ⟨y, hy, related⟩ := ih x hx
      exact ⟨y, List.mem_cons_of_mem _ hy, related⟩

theorem forall₂_right (h : List.Forall₂ R xs ys) : ∀ y ∈ ys, ∃ x ∈ xs, R x y :=
  forall₂_left (R := flip R) h.flip

theorem map_eq_of_forall₂ {γ : Type v} {f : α → γ} {g : β → γ} (h : List.Forall₂ R xs ys)
    (same : ∀ x y, R x y → g y = f x) : ys.map g = xs.map f := by
  induction h with
  | nil => rfl
  | cons head _ ih => rw [List.map_cons, List.map_cons, same _ _ head, ih]

end Pairs

end Fallible

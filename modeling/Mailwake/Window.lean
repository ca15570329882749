import Mathlib.Data.List.DropRight
import Mathlib.Data.List.Nodup

/-!
# A bounded history of what was accepted

The history keeps the latest entries up to a bound; an offered entry is accepted
unless the history still holds it.
-/
namespace Window
universe u
variable {α : Type u}

/-- Append an entry, and forget the oldest one of a full history. -/
def push (bound : Nat) (x : α) (recent : List α) : List α :=
  (if recent.length = bound then recent.tail else recent) ++ [x]

/-- The history after an entry was offered, and whether it was accepted. -/
def offer [DecidableEq α] (bound : Nat) (x : α) (recent : List α) : List α × Bool :=
  if x ∈ recent then (recent, false) else (push bound x recent, true)

theorem rtake_length_le (n : Nat) (l : List α) : (l.rtake n).length ≤ n := by
  rw [List.rtake, List.length_drop]
  omega

theorem mem_rtake {n : Nat} {l : List α} {x : α} :
    x ∈ l.rtake n ↔ ∃ past later, l = past ++ x :: later ∧ later.length < n := by
  constructor
  · intro h
    obtain ⟨before, after, he⟩ := List.append_of_mem h
    have split : l = l.take (l.length - n) ++ l.rtake n := (List.take_append_drop _ l).symm
    have bound := rtake_length_le n l
    rw [he] at split bound
    simp only [List.length_append, List.length_cons] at bound
    exact ⟨l.take (l.length - n) ++ before, after, (List.append_assoc ..).symm ▸ split,
      by omega⟩
  · rintro ⟨past, later, rfl, short⟩
    have before : (past ++ x :: later).length - n ≤ past.length := by
      rw [List.length_append, List.length_cons]
      omega
    rw [List.rtake, List.drop_append_of_le_length before]
    simp

/-- The history is the latest part of all that was accepted, and pushing keeps it so. -/
theorem push_rtake (n : Nat) (l : List α) (x : α) :
    push (n + 1) x (l.rtake (n + 1)) = (l ++ [x]).rtake (n + 1) := by
  rw [List.rtake_concat_succ, push]
  congr 1
  by_cases long : n + 1 ≤ l.length
  · have full : (l.rtake (n + 1)).length = n + 1 := by
      rw [List.rtake, List.length_drop]
      omega
    rw [if_pos full, List.rtake, List.tail_drop, List.rtake]
    congr 1
    omega
  · have short : (l.rtake (n + 1)).length ≠ n + 1 := by
      rw [List.rtake, List.length_drop]
      omega
    rw [if_neg short, List.rtake, List.rtake]
    congr 1
    omega

theorem push_nodup {bound : Nat} {x : α} {recent : List α} (distinct : recent.Nodup)
    (new : x ∉ recent) : (push bound x recent).Nodup := by
  have kept : (if recent.length = bound then recent.tail else recent).Sublist recent := by
    split
    · exact List.tail_sublist recent
    · exact List.Sublist.refl recent
  rw [push, List.nodup_append]
  refine ⟨distinct.sublist kept, by simp, ?_⟩
  rintro a ha b hb rfl
  obtain rfl := List.mem_singleton.mp hb
  exact new (kept.subset ha)

end Window

import Mathlib.Algebra.Order.Monoid.Defs
import Mathlib.Order.Bounds.Basic

/-!
# When a set of times falls quiet

A set of times is quiet after `t` if none of them falls within a fixed distance of `t`. Whoever
waits for this, restarting the wait at each new time and giving up at a limit, is followed here up
to the moment at which the wait ends.
-/
namespace QuietTime
universe u
variable {τ : Type u} [LinearOrder τ] [Add τ] [AddRightMono τ]

/-- No time of the set lies in `(t, t + distance]`. -/
def QuietAfter (distance : τ) (times : Set τ) (t : τ) : Prop :=
  ∀ a ∈ times, t < a → t + distance < a

/-- The moments at which it has been quiet for the distance, since the start or a time of the
set. -/
def quietEnds (distance start : τ) (times : Set τ) : Set τ :=
  {q | ∃ t, (t = start ∨ t ∈ times) ∧ QuietAfter distance times t ∧ q = t + distance}

/-- Every time before `x` is followed by another one within the distance. -/
def Linked (distance start : τ) (times : Set τ) (x : τ) : Prop :=
  ∀ t, (t = start ∨ t ∈ times) → t < x → ∃ a ∈ times, t < a ∧ a ≤ t + distance

/-- The wait ends at `time`: at the first quiet moment, but not after the limit nor before the
entry. -/
structure EndsAt (entry limit : τ) (ends : Set τ) (time : τ) : Prop where
  quiet : ∀ q, IsLeast ends q → time = max entry (min limit q)
  never : ends = ∅ → time = max entry limit

variable {distance start x entry limit time : τ} {times future : Set τ}

omit [AddRightMono τ] in
theorem linked_start : Linked distance start ∅ start := by
  rintro t (rfl | mem) before
  · exact absurd before (lt_irrefl t)
  · exact mem.elim

omit [AddRightMono τ] in
theorem Linked.mono (h : Linked distance start times x) {more : Set τ}
    (new : ∀ a ∈ more, a ∈ times ∨ x ≤ a) (sub : times ⊆ more) : Linked distance start more x := by
  intro t point before
  have old : t = start ∨ t ∈ times := by
    rcases point with same | mem
    · exact Or.inl same
    · rcases new t mem with mem | after
      · exact Or.inr mem
      · exact absurd before (not_lt.mpr after)
  obtain ⟨a, mem, later, near⟩ := h t old before
  exact ⟨a, sub mem, later, near⟩

/-- The wait is restarted at a time within the distance. -/
theorem Linked.next (h : Linked distance start times x) {y : τ} (mem : y ∈ times)
    (near : y ≤ x + distance) : Linked distance start times y := by
  intro t point before
  rcases lt_or_ge t x with earlier | later
  · exact h t point earlier
  · exact ⟨y, mem, before, near.trans (add_le_add_left later distance)⟩

/-- No quiet moment comes before that of the last restart. -/
theorem Linked.le_end (h : Linked distance start times x)
    (agree : ∀ a, a ≤ time → (a ∈ future ↔ a ∈ times)) (past : x ≤ time)
    (seen : ∀ a ∈ times, a ≤ time) {q : τ} (hq : q ∈ quietEnds distance start future) :
    x + distance ≤ q := by
  obtain ⟨t, point, quiet, rfl⟩ := hq
  rcases lt_or_ge t x with earlier | later
  · have old : t = start ∨ t ∈ times :=
      point.imp_right fun mem => (agree t (earlier.le.trans past)).mp mem
    obtain ⟨a, mem, after, near⟩ := h t old earlier
    have gap := quiet a ((agree a (seen a mem)).mpr mem) after
    exact absurd gap (not_lt.mpr near)
  · exact add_le_add_left later distance

omit [AddRightMono τ] in
/-- The last restart itself is followed by a quiet moment, if that has come. -/
theorem mem_quietEnds (agree : ∀ a, a ≤ time → (a ∈ future ↔ a ∈ times)) (past : x ≤ time)
    (latest : ∀ a ∈ times, a ≤ x) (point : x = start ∨ x ∈ times) (come : x + distance ≤ time) :
    x + distance ∈ quietEnds distance start future := by
  refine ⟨x, point.imp_right (agree x past).mpr, ?_, rfl⟩
  intro a mem after
  by_contra near
  have known := (agree a ((not_lt.mp near).trans come)).mp mem
  exact absurd after (not_lt.mpr (latest a known))

/-- A wait that has been restarted at each time, and ends when the last restart is a distance ago
or the limit is reached, ends when the whole set falls quiet, whatever times are still to come. -/
theorem Linked.endsAt (h : Linked distance start times x)
    (agree : ∀ a, a ≤ time → (a ∈ future ↔ a ∈ times)) (past : x ≤ time)
    (latest : ∀ a ∈ times, a ≤ x) (point : x = start ∨ x ∈ times)
    (elapsed : time = max entry (min limit (x + distance))) :
    EndsAt entry limit (quietEnds distance start future) time := by
  have seen : ∀ a ∈ times, a ≤ time := fun a mem => (latest a mem).trans past
  rcases le_or_gt (x + distance) time with come | ahead
  · have mem := mem_quietEnds agree past latest point come
    refine ⟨?_, ?_⟩
    · intro q least
      have same : q = x + distance :=
        le_antisymm (least.2 mem) (h.le_end agree past seen least.1)
      rw [same]
      exact elapsed
    · intro none
      rw [none] at mem
      exact mem.elim
  · have short : limit < x + distance := by
      by_contra long
      rw [min_eq_right (not_lt.mp long)] at elapsed
      exact absurd ahead (not_lt.mpr (elapsed ▸ le_max_right entry (x + distance)))
    rw [min_eq_left short.le] at elapsed
    refine ⟨?_, fun _ => elapsed⟩
    intro q least
    rw [min_eq_left (short.le.trans (h.le_end agree past seen least.1))]
    exact elapsed

end QuietTime

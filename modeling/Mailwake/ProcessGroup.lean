import Mathlib.Data.List.Basic

/-!
# A process group and the handles its processes hold

The leader of a group and every process that descends from it. A process may fork, give up
handles, exit, or leave the group; only the leader cannot leave. A kill ends exactly the
members of the group. A group without a live member never gains one.
-/
namespace ProcessGroup
universe u
variable {η : Type u}

structure Process (η : Type u) where
  member : Bool
  alive : Bool
  holds : List η
  deriving DecidableEq

structure ProcessTree (η : Type u) where
  leader : Process η
  others : List (Process η)
  leads : leader.member = true
  deriving DecidableEq

/-- What the processes do on their own; `none` is the leader. -/
inductive Move (η : Type u) where
  | fork (parent : Option Nat) (keeps : List η)
  | leave (who : Nat)
  | close (who : Option Nat) (handle : η)
  | exit (who : Nat)
  deriving DecidableEq

namespace Process

def killed (p : Process η) : Process η := { p with alive := !p.member && p.alive }

def close [DecidableEq η] (handle : η) (p : Process η) : Process η :=
  { p with holds := p.holds.filter (· ≠ handle) }

def liveMember (p : Process η) : Bool := p.member && p.alive

@[simp] theorem liveMember_killed (p : Process η) : p.killed.liveMember = false := by
  cases hm : p.member <;> simp [killed, liveMember, hm]

end Process

namespace ProcessTree

def start (holds : List η) : ProcessTree η := ⟨⟨true, true, holds⟩, [], rfl⟩

def find (t : ProcessTree η) : Option Nat → Option (Process η)
  | none => some t.leader
  | some i => t.others[i]?

def adjust (t : ProcessTree η) (i : Nat) (f : Process η → Process η) : ProcessTree η :=
  { t with others := t.others.modify i f }

variable [DecidableEq η]

/-- Only a live process forks; the child has the parent's group and some of its handles. -/
def move (t : ProcessTree η) : Move η → Option (ProcessTree η)
  | .fork parent keeps =>
    match t.find parent with
    | some p =>
      if p.alive then
        some { t with others := t.others ++ [⟨p.member, true, p.holds.filter (· ∈ keeps)⟩] }
      else none
    | none => none
  | .leave who => some (t.adjust who fun p => { p with member := false })
  | .close none handle => some { t with leader := t.leader.close handle, leads := t.leads }
  | .close (some who) handle => some (t.adjust who (Process.close handle))
  | .exit who => some (t.adjust who fun p => { p with alive := false })

/-- SIGKILL to the group. -/
def kill (t : ProcessTree η) : ProcessTree η := ⟨t.leader.killed, t.others.map Process.killed, t.leads⟩

/-- SIGKILL to the leader alone. -/
def killLeader (t : ProcessTree η) : ProcessTree η :=
  { t with leader := { t.leader with alive := false }, leads := t.leads }

/-- A live member of the group other than the leader. -/
def othersAlive (t : ProcessTree η) : Bool := t.others.any Process.liveMember

def anyAlive (t : ProcessTree η) : Bool := t.leader.liveMember || t.othersAlive

/-- Some live process has the handle open. -/
def held (t : ProcessTree η) (handle : η) : Bool :=
  (t.leader :: t.others).any fun p => p.alive && handle ∈ p.holds

/-- Some live process that has left the group has the handle open. -/
def heldOutside (t : ProcessTree η) (handle : η) : Bool :=
  t.others.any fun p => !p.member && p.alive && handle ∈ p.holds

omit [DecidableEq η] in
@[simp] theorem anyAlive_kill (t : ProcessTree η) : t.kill.anyAlive = false := by
  simp [anyAlive, othersAlive, kill]

omit [DecidableEq η] in
@[simp] theorem anyAlive_killLeader (t : ProcessTree η) : t.killLeader.anyAlive = t.othersAlive := by
  simp [anyAlive, othersAlive, killLeader, Process.liveMember]

omit [DecidableEq η] in
theorem othersAlive_of_anyAlive {t : ProcessTree η} (h : t.anyAlive = false) : t.othersAlive = false := by
  simpa [anyAlive] using (Bool.or_eq_false_iff.mp h).2

omit [DecidableEq η] in
/-- Changing one process in place wakes no member of the group. -/
theorem anyAlive_adjust {t : ProcessTree η} (i : Nat) {f : Process η → Process η}
    (quiet : ∀ p, p.liveMember = false → (f p).liveMember = false) (h : t.anyAlive = false) :
    (t.adjust i f).anyAlive = false := by
  obtain ⟨leader, others⟩ := Bool.or_eq_false_iff.mp h
  refine Bool.or_eq_false_iff.mpr ⟨leader, ?_⟩
  simp only [othersAlive, List.any_eq_false, Bool.not_eq_true] at others
  simp only [othersAlive, adjust, List.any_eq_false, Bool.not_eq_true]
  intro p hp
  obtain ⟨j, hj, rfl⟩ := List.mem_iff_getElem.mp hp
  rw [List.getElem_modify]
  have old := others _ (List.getElem_mem (List.length_modify .. ▸ hj))
  split
  · exact quiet _ old
  · exact old

/-- No move brings a group back whose members are all gone. -/
theorem anyAlive_move {t u : ProcessTree η} {m : Move η} (hm : t.move m = some u)
    (h : t.anyAlive = false) : u.anyAlive = false := by
  cases m with
  | fork parent keeps =>
    simp only [move] at hm
    split at hm
    · rename_i p hp
      split at hm
      · rename_i alive
        obtain rfl := Option.some.inj hm
        obtain ⟨leader, others⟩ := Bool.or_eq_false_iff.mp h
        have quiet : p.liveMember = false := by
          cases parent with
          | none => exact Option.some.inj hp ▸ leader
          | some i =>
            simp only [othersAlive, List.any_eq_false, Bool.not_eq_true] at others
            exact others p (List.mem_of_getElem? hp)
        have outside : p.member = false := by simpa [Process.liveMember, alive] using quiet
        refine Bool.or_eq_false_iff.mpr ⟨leader, ?_⟩
        simp only [othersAlive, List.any_append] at others ⊢
        rw [others, outside]
        rfl
      · cases hm
    · cases hm
  | leave who =>
    obtain rfl := Option.some.inj hm
    exact anyAlive_adjust who (fun p _ => by simp [Process.liveMember]) h
  | close who handle =>
    cases who with
    | none =>
      obtain rfl := Option.some.inj hm
      exact h
    | some i =>
      obtain rfl := Option.some.inj hm
      exact anyAlive_adjust i (fun p hp => hp) h
  | exit who =>
    obtain rfl := Option.some.inj hm
    exact anyAlive_adjust who (fun p _ => by simp [Process.liveMember]) h

/-- What is still held after the group is gone, is held by a process that left it. -/
theorem heldOutside_of_held {t : ProcessTree η} {handle : η} (h : t.anyAlive = false)
    (held : t.held handle = true) : t.heldOutside handle = true := by
  obtain ⟨leader, others⟩ := Bool.or_eq_false_iff.mp h
  simp only [othersAlive, List.any_eq_false, Bool.not_eq_true] at others
  simp only [ProcessTree.held, List.any_eq_true, Bool.and_eq_true] at held
  obtain ⟨p, hp, alive, holds⟩ := held
  rcases List.mem_cons.mp hp with rfl | hp
  · simp [Process.liveMember, t.leads, alive] at leader
  · refine List.any_eq_true.mpr ⟨p, hp, ?_⟩
    have outside : p.member = false := by simpa [Process.liveMember, alive] using others p hp
    simp only [outside, alive, Bool.not_false, Bool.and_self, holds]

end ProcessTree

end ProcessGroup

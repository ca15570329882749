import Mathlib.Data.List.Basic

/-!
# Channels between tasks

`Mpsc` is a queue with one receiver and any number of senders; its bound is an
argument of the sending operations. `Watch` is one receiver's view of a
single-value channel: `unseen` says that a value was sent since the receiver
last awaited a change. An operation that would block returns `none`.
-/
namespace Channel
universe u
variable {α : Type u}

structure Mpsc (α : Type u) where
  items : List α
  sendersAlive : Bool
  deriving DecidableEq

namespace Mpsc

def empty : Mpsc α := ⟨[], true⟩

/-- A full queue refuses the message and stays as it is. -/
def trySend (bound : Nat) (x : α) (q : Mpsc α) : Mpsc α :=
  if q.items.length < bound then { q with items := q.items ++ [x] } else q

/-- The awaited send blocks on a full queue. -/
def send (bound : Nat) (x : α) (q : Mpsc α) : Option (Mpsc α) :=
  if q.items.length < bound then some { q with items := q.items ++ [x] } else none

/-- `some none` is the end of the channel: no message left and no sender alive. -/
def recv (q : Mpsc α) : Option (Option α × Mpsc α) :=
  match q.items with
  | x :: rest => some (some x, { q with items := rest })
  | [] => if q.sendersAlive then none else some (none, q)

/-- Take every queued message, as a loop over `try_recv` does. -/
def drain (q : Mpsc α) : List α × Mpsc α := (q.items, { q with items := [] })

theorem trySend_nonempty {bound : Nat} (hb : 0 < bound) (x : α) (q : Mpsc α) :
    (q.trySend bound x).items ≠ [] := by
  unfold trySend
  split
  · simp
  · rename_i full
    intro empty
    simp only [empty, List.length_nil] at full
    omega

theorem trySend_keeps {bound : Nat} {x : α} {q : Mpsc α} (h : q.items ≠ []) :
    (q.trySend bound x).items ≠ [] := by
  unfold trySend
  split
  · simp
  · exact h

theorem send_some {bound : Nat} {x : α} {q r : Mpsc α} (h : q.send bound x = some r) :
    r.items = q.items ++ [x] ∧ r.sendersAlive = q.sendersAlive := by
  unfold send at h
  split at h
  · cases h
    exact ⟨rfl, rfl⟩
  · cases h

/-- What a completed receive did: it took the oldest message, or saw the end. -/
theorem recv_cases {q r : Mpsc α} {m : Option α} (h : q.recv = some (m, r)) :
    (∃ x, m = some x ∧ q.items = x :: r.items ∧ r.sendersAlive = q.sendersAlive) ∨
      (m = none ∧ q.items = [] ∧ q.sendersAlive = false ∧ r = q) := by
  unfold recv at h
  split at h
  · rename_i x rest hq
    cases h
    exact Or.inl ⟨x, rfl, hq, rfl⟩
  · rename_i hq
    split at h
    · cases h
    · rename_i dead
      cases h
      exact Or.inr ⟨rfl, hq, by simpa using dead, rfl⟩

end Mpsc

structure Watch (α : Type u) where
  value : α
  unseen : Bool
  senderAlive : Bool
  deriving DecidableEq

namespace Watch

/-- A receiver that has seen the initial value. -/
def start (x : α) : Watch α := ⟨x, false, true⟩

def send (x : α) (w : Watch α) : Watch α := { w with value := x, unseen := true }

def dropSender (w : Watch α) : Watch α := { w with senderAlive := false }

/-- An awaited change: `true` for a new value, `false` once the sender is gone. -/
def changed (w : Watch α) : Option (Bool × Watch α) :=
  if w.unseen then some (true, { w with unseen := false })
  else if w.senderAlive then none
  else some (false, w)

theorem changed_cases {w r : Watch α} {ok : Bool} (h : w.changed = some (ok, r)) :
    (ok = true ∧ w.unseen = true ∧ r = { w with unseen := false }) ∨
      (ok = false ∧ w.unseen = false ∧ w.senderAlive = false ∧ r = w) := by
  unfold changed at h
  split at h
  · rename_i hu
    cases h
    exact Or.inl ⟨rfl, hu, rfl⟩
  · rename_i hu
    split at h
    · cases h
    · rename_i ha
      cases h
      exact Or.inr ⟨rfl, by simpa using hu, by simpa using ha, rfl⟩

/-- Awaiting a change never alters the value that is read afterwards. -/
theorem changed_value {w r : Watch α} {ok : Bool} (h : w.changed = some (ok, r)) :
    r.value = w.value := by
  rcases changed_cases h with ⟨-, -, rfl⟩ | ⟨-, -, -, rfl⟩ <;> rfl

/-- The next notification does not carry `true`: nothing is new, or the new value is `false`. -/
def untrue (w : Watch Bool) : Bool := !(w.unseen && w.value)

/-- The same watch, of which this receiver may have seen less. -/
structure Behind (w r : Watch α) : Prop where
  value : w.value = r.value
  sender : w.senderAlive = r.senderAlive
  unseen : r.unseen = true → w.unseen = true

theorem Behind.refl (w : Watch α) : Behind w w := ⟨rfl, rfl, id⟩

theorem Behind.send {w r : Watch α} (h : Behind w r) (x : α) : Behind (w.send x) (r.send x) :=
  ⟨rfl, h.sender, id⟩

theorem Behind.dropSender {w r : Watch α} (h : Behind w r) : Behind w.dropSender r.dropSender :=
  ⟨h.value, rfl, h.unseen⟩

/-- What a change says, in terms of the watch before it. -/
theorem changed_untrue {w r : Watch Bool} {ok : Bool} (h : w.changed = some (ok, r)) :
    (ok && r.value) = !w.untrue := by
  rcases changed_cases h with ⟨rfl, unseen, rfl⟩ | ⟨rfl, unseen, -, rfl⟩ <;>
    simp [untrue, unseen]

theorem untrue_changed {w r : Watch Bool} {ok : Bool} (h : w.changed = some (ok, r)) :
    r.untrue = true := by
  rcases changed_cases h with ⟨-, -, rfl⟩ | ⟨-, seen, -, rfl⟩
  · simp [untrue]
  · simp [untrue, seen]

/-- A receiver that is behind does not notice what the other one is told in vain. -/
theorem Behind.changed {w r q : Watch α} {ok : Bool} (h : Behind w r)
    (change : r.changed = some (ok, q)) : Behind w q := by
  rcases changed_cases change with ⟨-, unseen, rfl⟩ | ⟨-, -, -, rfl⟩
  · exact ⟨h.value, h.sender, nofun⟩
  · exact h

/-- Both are told that the value is `true`. -/
theorem Behind.true_changed {w r q : Watch Bool} {ok : Bool} (h : Behind w r)
    (new : r.untrue = false) (change : r.changed = some (ok, q)) :
    w.untrue = false ∧ w.changed = some (true, { w with unseen := false }) ∧
      Behind { w with unseen := false } q := by
  have told : r.unseen = true ∧ r.value = true := by simpa [untrue] using new
  have unseen := h.unseen told.1
  refine ⟨by simp [untrue, unseen, h.value.trans told.2], by simp [Watch.changed, unseen], ?_⟩
  rcases changed_cases change with ⟨-, -, rfl⟩ | ⟨-, seen, -⟩
  · exact ⟨h.value, h.sender, nofun⟩
  · cases told.1.symm.trans seen

/-- Nothing but `true` is ever sent, and the sender stays. -/
structure Heeded (w : Watch Bool) : Prop where
  sender : w.senderAlive = true
  unseen : w.unseen = true → w.value = true

theorem heeded_start (value : Bool) : Heeded (.start value) := ⟨rfl, nofun⟩

theorem Heeded.send_true {w : Watch Bool} (h : w.Heeded) : (w.send true).Heeded :=
  ⟨h.sender, fun _ => rfl⟩

/-- Every change then says `true`. -/
theorem Heeded.changed {w r : Watch Bool} {ok : Bool} (h : w.Heeded)
    (change : w.changed = some (ok, r)) : w.untrue = false ∧ r.Heeded := by
  rcases changed_cases change with ⟨-, unseen, rfl⟩ | ⟨-, -, dead, -⟩
  · exact ⟨by simp [untrue, unseen, h.unseen unseen], h.sender, nofun⟩
  · rw [h.sender] at dead
    cases dead

end Watch

end Channel

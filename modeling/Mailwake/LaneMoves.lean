import Mathlib.Data.List.Perm.Basic
import Mailwake.LaneTurns

/-!
# What one step of a lane can do

Every step falls under one of eight moves. Only five of them touch a waiter, and
each of these says where the waiter came from and where it went. The invariants
of the lane are derived from the moves and never from the step function.
-/
namespace Lane
open Channel CommandReport
universe u
variable {κ : Type u} [DecidableEq κ]

namespace PendingRequests

omit [DecidableEq κ] in
theorem everyone_empty : (empty : PendingRequests κ).everyone = [] := rfl

/-- An entry of the map and the map without it make up the map. -/
theorem entries_perm {p : PendingRequests κ} {command : κ} {waiters : List Nat}
    (h : p.waiters.lookup command = some waiters) :
    p.waiters.entries.Perm (⟨command, waiters⟩ :: (p.waiters.erase command).entries) := by
  have hmem : (⟨command, waiters⟩ : Sigma fun _ : κ => List Nat) ∈ p.waiters.entries :=
    AList.mem_lookup_iff.mp h
  obtain ⟨other, left, right, hleft, hsplit, herase⟩ :=
    List.exists_of_kerase (List.mem_keys_of_mem hmem)
  have hsame : other = waiters := by
    have hother : (⟨command, other⟩ : Sigma fun _ : κ => List Nat) ∈ p.waiters.entries := by
      simp [hsplit]
    exact p.waiters.nodupKeys.eq_of_mk_mem hother hmem
  subst hsame
  have he : (p.waiters.erase command).entries = left ++ right := herase
  rw [he, hsplit]
  exact List.perm_middle

theorem everyone_perm {p : PendingRequests κ} {command : κ} {waiters : List Nat}
    (h : p.waiters.lookup command = some waiters) :
    p.everyone.Perm (waiters ++ (p.takeWaiters command).2.everyone) := by
  have hp := (entries_perm h).flatMap_right (fun e => e.2)
  simpa [everyone, takeWaiters] using hp

/-- Pushing a request adds its lifecycle once and touches no other. -/
theorem everyone_push (p : PendingRequests κ) (request : CommandRequest κ) :
    (p.push request).everyone.Perm (request.lifecycle :: p.everyone) := by
  cases h : p.waiters.lookup request.command with
  | none =>
    have hnot : request.command ∉ p.waiters := AList.lookup_eq_none.mp h
    have hkeep : List.kerase request.command p.waiters.entries = p.waiters.entries :=
      List.kerase_of_notMem_keys hnot
    simp [push, h, everyone, hkeep]
  | some waiters =>
    have hold : (p.waiters.entries.flatMap fun e => e.2).Perm
        (waiters ++ (List.kerase request.command p.waiters.entries).flatMap fun e => e.2) :=
      everyone_perm h
    simp only [push, h, everyone, AList.entries_insert, List.flatMap_cons]
    have hmove : ∀ rest : List Nat, (waiters ++ [request.lifecycle] ++ rest).Perm
        (request.lifecycle :: (waiters ++ rest)) := by
      intro rest
      simp
    exact (hmove _).trans (hold.symm.cons request.lifecycle)

theorem lookup_push_self (p : PendingRequests κ) (request : CommandRequest κ) :
    (p.push request).waiters.lookup request.command =
      some ((p.waiters.lookup request.command).getD [] ++ [request.lifecycle]) := by
  cases h : p.waiters.lookup request.command <;> simp [push, h]

theorem lookup_push_ne (p : PendingRequests κ) (request : CommandRequest κ) {command : κ}
    (h : command ≠ request.command) :
    (p.push request).waiters.lookup command = p.waiters.lookup command := by
  cases hl : p.waiters.lookup request.command <;>
    simp [push, hl, AList.lookup_insert_ne h]

theorem mem_everyone {p : PendingRequests κ} {id : Nat} :
    id ∈ p.everyone ↔ ∃ command waiters, p.waiters.lookup command = some waiters ∧ id ∈ waiters := by
  simp only [everyone, List.mem_flatMap, Sigma.exists]
  constructor
  · rintro ⟨command, waiters, hm, hid⟩
    exact ⟨command, waiters, AList.mem_lookup_iff.mpr hm, hid⟩
  · rintro ⟨command, waiters, hl, hid⟩
    exact ⟨command, waiters, AList.mem_lookup_iff.mp hl, hid⟩

theorem popOrder_some {waiters : AList (fun _ : κ => List Nat)} {order : List κ} {command : κ}
    (h : (popOrder waiters order).1 = some command) :
    (waiters.lookup command).isSome := by
  induction order with
  | nil => simp [popOrder] at h
  | cons head rest ih =>
    by_cases hs : (waiters.lookup head).isSome
    · simp only [popOrder, hs, if_true, Option.some.injEq] at h
      exact h ▸ hs
    · exact ih (by simpa [popOrder, hs] using h)

theorem popNextCommand_some {p q : PendingRequests κ} {command : κ}
    (h : p.popNextCommand = (some command, q)) :
    q.waiters = p.waiters ∧ ∃ waiters, p.waiters.lookup command = some waiters := by
  simp only [popNextCommand, Prod.mk.injEq] at h
  refine ⟨by rw [← h.2], ?_⟩
  exact Option.isSome_iff_exists.mp (popOrder_some h.1)

/-- What taking the waiters of the popped command gives and leaves. -/
theorem taken_of_pop {p q : PendingRequests κ} {command : κ}
    (h : p.popNextCommand = (some command, q)) : ∃ waiters,
      p.waiters.lookup command = some waiters ∧ (q.takeWaiters command).1 = waiters ∧
      (q.takeWaiters command).2.waiters = p.waiters.erase command := by
  obtain ⟨hw, waiters, hl⟩ := popNextCommand_some h
  exact ⟨waiters, hl, by simp [takeWaiters, hw, hl], by simp [takeWaiters, hw]⟩

theorem popNextCommand_waiters (p : PendingRequests κ) :
    (p.popNextCommand).2.waiters = p.waiters := rfl

end PendingRequests
/-- The command the task has taken from the pending set, with its waiters. -/
def Pc.claim : Pc κ → Option (κ × List Nat)
  | .cooling command waiters _ => some (command, waiters)
  | .starting command waiters => some (command, waiters)
  | .running command waiters => some (command, waiters)
  | _ => none

def Pc.begun : Pc κ → Bool
  | .running _ _ => true
  | _ => false

/-- The step moves no waiter. -/
structure Quiet (s t : State κ) : Prop where
  items : t.requests.items = s.requests.items
  waiters : t.pending.waiters = s.pending.waiters
  next : t.nextLifecycle = s.nextLifecycle
  claim : t.pc.claim = s.pc.claim
  begun : t.pc.begun = s.pc.begun
  returned : t.pc = .returned ↔ s.pc = .returned

inductive Move (runner : CommandLaneRunner κ) (s t : State κ) : List (Event κ) → Prop where
  | quiet (same : Quiet s t) : Move runner s t []
  /-- A request enters the channel. -/
  | send (command : κ) (alive : s.pc ≠ .returned)
      (items : t.requests.items = s.requests.items ++ [⟨command, s.nextLifecycle⟩])
      (next : t.nextLifecycle = s.nextLifecycle + 1)
      (pending : t.pending = s.pending) (pc : t.pc = s.pc) : Move runner s t []
  /-- A request leaves the channel for the pending set. -/
  | absorb (request : CommandRequest κ) (items : s.requests.items = request :: t.requests.items)
      (next : t.nextLifecycle = s.nextLifecycle) (pending : t.pending = s.pending.push request)
      (claim : t.pc.claim = s.pc.claim) (begun : t.pc.begun = s.pc.begun)
      (before : s.pc ≠ .returned) (after : t.pc ≠ .returned) :
      Move runner s t [.received request.lifecycle request.command]
  /-- A request joins the waiters of the command that is cooling down. -/
  | join (request : CommandRequest κ) (waiters : List Nat) (runAt : Nat)
      (items : s.requests.items = request :: t.requests.items)
      (next : t.nextLifecycle = s.nextLifecycle) (pending : t.pending = s.pending)
      (before : s.pc = .cooling request.command waiters runAt)
      (after : t.pc = .cooling request.command (waiters ++ [request.lifecycle]) runAt) :
      Move runner s t [.received request.lifecycle request.command]
  /-- The waiters of a name the lane does not know are turned away. -/
  | reject (name : κ) (waiters : List Nat) (unknown : runner.command name = none)
      (held : s.pending.waiters.lookup name = some waiters)
      (left : t.pending.waiters = s.pending.waiters.erase name)
      (items : t.requests.items = s.requests.items) (next : t.nextLifecycle = s.nextLifecycle)
      (before : s.pc = .dispatch) (after : t.pc = .dispatch) :
      Move runner s t (finishWaiters waiters (.error "unknown command"))
  /-- A known command is taken with all its waiters. -/
  | take (name : κ) (waiters : List Nat) (known : runner.command name ≠ none)
      (held : s.pending.waiters.lookup name = some waiters)
      (left : t.pending.waiters = s.pending.waiters.erase name)
      (items : t.requests.items = s.requests.items) (next : t.nextLifecycle = s.nextLifecycle)
      (before : s.pc = .dispatch) (claim : t.pc.claim = some (name, waiters))
      (begun : t.pc.begun = false) (after : t.pc ≠ .returned) : Move runner s t []
  | execute (command : κ) (waiters : List Nat) (before : s.pc = .starting command waiters)
      (after : t.pc = .running command waiters) (items : t.requests.items = s.requests.items)
      (next : t.nextLifecycle = s.nextLifecycle) (pending : t.pending = s.pending) :
      Move runner s t (startWaiters waiters ++ [.executionStarted command])
  | complete (command : κ) (waiters : List Nat) (report : CommandRunReport)
      (genuine : report ≠ .cancelled) (before : s.pc = .running command waiters)
      (after : t.pc = .draining) (items : t.requests.items = s.requests.items)
      (next : t.nextLifecycle = s.nextLifecycle) (pending : t.pending = s.pending) :
      Move runner s t ([.executionEnded command report] ++ finishWaiters waiters report)
  /-- The task returns; `held` are the waiters of a command in its cooldown. -/
  | retire (held : List Nat)
      (origin : (s.pc.claim = none ∧ held = []) ∨ ∃ command, s.pc.claim = some (command, held))
      (before : s.pc.begun = false) (alive : s.pc ≠ .returned) (after : t.pc = .returned)
      (pending : t.pending = .empty)
      (items : t.requests.items = []) (next : t.nextLifecycle = s.nextLifecycle) :
      Move runner s t (finishWaiters held .cancelled ++ cancelPending s.pending ++
        s.requests.items.map (fun r => .closed r.lifecycle))

variable {runner : CommandLaneRunner κ} {s t : State κ} {es : List (Event κ)}

theorem move_of_turn {label : Label κ} (turn : Turn runner s label t es) : Move runner s t es := by
  cases turn with
  | sent command requests alive sent =>
    exact .send command alive (Mpsc.send_some sent).1 rfl rfl rfl
  | sendersDropped => exact .quiet ⟨rfl, rfl, rfl, rfl, rfl, Iff.rfl⟩
  | shutdownSet value => exact .quiet ⟨rfl, rfl, rfl, rfl, rfl, Iff.rfl⟩
  | shutdownDropped => exact .quiet ⟨rfl, rfl, rfl, rfl, rfl, Iff.rfl⟩
  | advanced duration => exact .quiet ⟨rfl, rfl, rfl, rfl, rfl, Iff.rfl⟩
  | headed hpc =>
    cases s.pending.isEmpty <;>
      exact .quiet ⟨rfl, rfl, rfl, by simp [hpc, Pc.claim], by simp [hpc, Pc.begun], by simp [hpc]⟩
  | emptied pending hpc hpop =>
    have hw := PendingRequests.popNextCommand_waiters s.pending
    rw [hpop] at hw
    exact .quiet ⟨rfl, hw, rfl, by simp [hpc, Pc.claim], by simp [hpc, Pc.begun], by simp [hpc]⟩
  | rejected name pending hpc hpop unknown =>
    obtain ⟨waiters, hl, hheld, hleft⟩ := PendingRequests.taken_of_pop hpop
    rw [hheld]
    exact .reject name waiters unknown hl hleft rfl rfl hpc rfl
  | picked name pending command hpc hpop known _ =>
    obtain ⟨waiters, hl, hheld, hleft⟩ := PendingRequests.taken_of_pop hpop
    exact .take name waiters (by simp [known]) hl hleft rfl rfl hpc (by simp [Pc.claim, hheld])
      rfl (by simp)
  | cooled name pending command runAt hpc hpop known _ =>
    obtain ⟨waiters, hl, hheld, hleft⟩ := PendingRequests.taken_of_pop hpop
    exact .take name waiters (by simp [known]) hl hleft rfl rfl hpc (by simp [Pc.claim, hheld])
      rfl (by simp)
  | executed command waiters hpc => exact .execute command waiters hpc rfl rfl rfl rfl
  | drained request rest hpc hq =>
    exact .absorb request hq rfl rfl rfl rfl (by simp [hpc]) (by simp [hpc])
  | drainEnded hpc _ =>
    exact .quiet ⟨rfl, rfl, rfl, by simp [hpc, Pc.claim], by simp [hpc, Pc.begun], by simp [hpc]⟩
  | stopped hpc _ =>
    exact .retire [] (Or.inl ⟨by simp [hpc, Pc.claim], rfl⟩) (by simp [hpc, Pc.begun])
      (by simp [hpc]) rfl rfl rfl rfl
  | resumed hpc _ =>
    exact .quiet ⟨rfl, rfl, rfl, by simp [hpc, Pc.claim], by simp [hpc, Pc.begun], by simp [hpc]⟩
  | shutDown ok shutdown _ hpc _ =>
    exact .retire [] (Or.inl ⟨by simp [hpc, Pc.claim], rfl⟩) (by simp [hpc, Pc.begun])
      (by simp [hpc]) rfl rfl rfl rfl
  | notified ok shutdown _ hpc _ =>
    exact .quiet ⟨rfl, rfl, rfl, by simp [hpc, Pc.claim], by simp [hpc, Pc.begun], by simp [hpc]⟩
  | coolingShutDown command waiters runAt ok shutdown _ hpc _ =>
    exact .retire waiters (Or.inr ⟨command, by simp [hpc, Pc.claim]⟩) (by simp [hpc, Pc.begun])
      (by simp [hpc]) rfl rfl rfl rfl
  | coolingNotified command waiters runAt ok shutdown _ hpc _ =>
    exact .quiet ⟨rfl, rfl, rfl, by simp [hpc, Pc.claim], by simp [hpc, Pc.begun], by simp [hpc]⟩
  | received request requests hpc items _ =>
    exact .absorb request items rfl rfl (by simp [hpc, Pc.claim]) (by simp [hpc, Pc.begun])
      (by simp [hpc]) (by simp)
  | closed hpc _ =>
    exact .retire [] (Or.inl ⟨by simp [hpc, Pc.claim], rfl⟩) (by simp [hpc, Pc.begun])
      (by simp [hpc]) rfl rfl rfl rfl
  | joined request waiters runAt requests hpc items _ =>
    exact .join request waiters runAt items rfl rfl hpc rfl
  | absorbed request command waiters runAt requests hpc _ items _ =>
    exact .absorb request items rfl rfl rfl rfl (by simp [hpc]) (by simp [hpc])
  | coolingClosed command waiters runAt hpc _ =>
    exact .retire waiters (Or.inr ⟨command, by simp [hpc, Pc.claim]⟩) (by simp [hpc, Pc.begun])
      (by simp [hpc]) rfl rfl rfl rfl
  | timed command waiters runAt hpc _ =>
    exact .quiet ⟨rfl, rfl, rfl, by simp [hpc, Pc.claim], by simp [hpc, Pc.begun], by simp [hpc]⟩
  | finished command waiters result hpc =>
    exact .complete command waiters _ (executorReport_ne_cancelled result) hpc rfl rfl rfl rfl

/-- Every step of the lane is one of the moves. -/
theorem step_move {label : Label κ} (h : step runner s label = some (t, es)) :
    Move runner s t es :=
  move_of_turn (turn_of_step h)

/-- The request is in the lane, and no execution has begun to answer it. -/
inductive Unstarted (command : κ) (id : Nat) (s : State κ) : Prop where
  | queued (h : ⟨command, id⟩ ∈ s.requests.items)
  | pending (waiters : List Nat) (held : s.pending.waiters.lookup command = some waiters)
      (h : id ∈ waiters)
  | claimed (waiters : List Nat) (claim : s.pc.claim = some (command, waiters))
      (begun : s.pc.begun = false) (h : id ∈ waiters)

theorem Unstarted.quiet {command : κ} {id : Nat} (old : Unstarted command id s)
    (same : Quiet s t) : Unstarted command id t := by
  cases old with
  | queued h => exact .queued (by rwa [same.items])
  | pending waiters held h => exact .pending waiters (by rwa [same.waiters]) h
  | claimed waiters claim begun h =>
    exact .claimed waiters (by rwa [same.claim]) (by rwa [same.begun]) h

theorem unstarted_push {command : κ} {id : Nat} {request : CommandRequest κ}
    (pending : t.pending = s.pending.push request)
    (h : ⟨command, id⟩ = request ∨ ∃ waiters, s.pending.waiters.lookup command = some waiters ∧
      id ∈ waiters) : Unstarted command id t := by
  by_cases same : command = request.command
  · refine .pending _ (by rw [pending, same, PendingRequests.lookup_push_self]) ?_
    rcases h with rfl | ⟨waiters, hl, hid⟩
    · simp
    · rw [same] at hl
      simp [hl, hid]
  · rcases h with rfl | ⟨waiters, hl, hid⟩
    · exact absurd rfl same
    · exact .pending waiters (by rw [pending, PendingRequests.lookup_push_ne _ _ same, hl]) hid

/-- A request for a command the lane knows stays in the lane until an execution of that
command begins, unless the task returns. -/
theorem unstarted_move {command : κ} {id : Nat} (known : runner.command command ≠ none)
    (old : Unstarted command id s) (move : Move runner s t es) :
    t.pc = .returned ∨ .executionStarted command ∈ es ∨ Unstarted command id t := by
  cases move with
  | quiet same => exact Or.inr (Or.inr (old.quiet same))
  | send other alive items next pending pc =>
    refine Or.inr (Or.inr ?_)
    cases old with
    | queued h => exact .queued (by simp [items, h])
    | pending waiters held h => exact .pending waiters (by rwa [pending]) h
    | claimed waiters claim begun h => exact .claimed waiters (by rwa [pc]) (by rwa [pc]) h
  | absorb request items next pending claim begun before after =>
    refine Or.inr (Or.inr ?_)
    cases old with
    | queued h =>
      rw [items] at h
      rcases List.mem_cons.mp h with h | h
      · exact unstarted_push pending (Or.inl h)
      · exact .queued h
    | pending waiters held h => exact unstarted_push pending (Or.inr ⟨waiters, held, h⟩)
    | claimed waiters hclaim hbegun h =>
      exact .claimed waiters (by rwa [claim]) (by rwa [begun]) h
  | join request waiters runAt items next pending before after =>
    refine Or.inr (Or.inr ?_)
    have claim : t.pc.claim = some (request.command, waiters ++ [request.lifecycle]) := by
      rw [after]
      rfl
    have begun : t.pc.begun = false := by
      rw [after]
      rfl
    cases old with
    | queued h =>
      rw [items] at h
      rcases List.mem_cons.mp h with rfl | h
      · exact .claimed _ claim begun (by simp)
      · exact .queued h
    | pending others held h => exact .pending others (by rwa [pending]) h
    | claimed others hclaim hbegun h =>
      rw [before] at hclaim
      cases hclaim
      exact .claimed _ claim begun (by simp [h])
  | reject name waiters unknown held left items next before after =>
    refine Or.inr (Or.inr ?_)
    have other : command ≠ name := fun same => known (same ▸ unknown)
    cases old with
    | queued h => exact .queued (by rwa [items])
    | pending others hl h =>
      exact .pending others (by rw [left, AList.lookup_erase_ne other, hl]) h
    | claimed others claim begun h =>
      rw [before] at claim
      cases claim
  | take name waiters _ held left items next before claim begun after =>
    refine Or.inr (Or.inr ?_)
    cases old with
    | queued h => exact .queued (by rwa [items])
    | pending others hl h =>
      by_cases same : command = name
      · subst same
        obtain rfl : waiters = others := Option.some.inj (held.symm.trans hl)
        exact .claimed waiters claim begun h
      · exact .pending others (by rw [left, AList.lookup_erase_ne same, hl]) h
    | claimed others hclaim hbegun h =>
      rw [before] at hclaim
      cases hclaim
  | execute name waiters before after items next pending =>
    cases old with
    | queued h => exact Or.inr (Or.inr (.queued (by rwa [items])))
    | pending others hl h => exact Or.inr (Or.inr (.pending others (by rwa [pending]) h))
    | claimed others claim begun h =>
      rw [before] at claim
      cases claim
      exact Or.inr (Or.inl (by simp))
  | complete name waiters report genuine before after items next pending =>
    refine Or.inr (Or.inr ?_)
    cases old with
    | queued h => exact .queued (by rwa [items])
    | pending others hl h => exact .pending others (by rwa [pending]) h
    | claimed others claim begun h =>
      rw [before] at begun
      cases begun
  | retire held origin before alive after pending items next => exact Or.inl after

theorem returned_move (h : s.pc = .returned) (move : Move runner s t es) : t.pc = .returned := by
  cases move with
  | quiet same => exact same.returned.mpr h
  | send command alive items next pending pc => exact absurd h alive
  | absorb request items next pending claim begun before after => exact absurd h before
  | join request waiters runAt items next pending before after => rw [h] at before; cases before
  | reject name waiters unknown held left items next before after => rw [h] at before; cases before
  | take name waiters known held left items next before claim begun after =>
    rw [h] at before
    cases before
  | execute command waiters before after items next pending => rw [h] at before; cases before
  | complete command waiters report genuine before after items next pending =>
    rw [h] at before
    cases before
  | retire held origin before alive after pending items next => exact after

end Lane

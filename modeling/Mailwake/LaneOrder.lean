import Mailwake.LaneMoves

/-!
# The order of the pending commands

The order queue and the waiter map are kept apart in the source. They agree in every state: a
command is queued once if it has waiters, and not while the lane works on it. So commands leave
in the order in which they came, and none is bypassed twice by another.
-/
namespace Lane
open Channel Transition
universe u
variable {κ : Type u} [DecidableEq κ]

/-- The queue and the map agree, and the claimed command is in neither. -/
structure Ordered (s : State κ) : Prop where
  distinct : s.pending.order.Nodup
  agree : ∀ command, command ∈ s.pending.order ↔
    (s.pending.waiters.lookup command).isSome = true
  apart : ∀ command waiters, s.pc.claim = some (command, waiters) → command ∉ s.pending.order

variable {runner : CommandLaneRunner κ} {s t : State κ} {label : Label κ} {es : List (Event κ)}

namespace PendingRequests

/-- A name that has no waiters yet goes to the end of the queue. -/
theorem order_push (p : PendingRequests κ) (request : CommandRequest κ) :
    (p.push request).order =
      if (p.waiters.lookup request.command).isSome then p.order
      else p.order ++ [request.command] := by
  cases held : p.waiters.lookup request.command <;> simp [push, held]

theorem isSome_lookup_push (p : PendingRequests κ) (request : CommandRequest κ) (command : κ) :
    ((p.push request).waiters.lookup command).isSome = true ↔
      command = request.command ∨ (p.waiters.lookup command).isSome = true := by
  by_cases same : command = request.command
  · rw [same, lookup_push_self]
    simp
  · simp [lookup_push_ne _ _ same, same]

/-- With every queued name in the map, the head of the queue is popped. -/
theorem order_of_pop {p q : PendingRequests κ} {name : κ}
    (agree : ∀ command ∈ p.order, (p.waiters.lookup command).isSome = true)
    (h : p.popNextCommand = (some name, q)) : p.order = name :: q.order := by
  simp only [popNextCommand, Prod.mk.injEq] at h
  obtain ⟨popped, rfl⟩ := h
  cases order : p.order with
  | nil => simp [order, popOrder] at popped
  | cons head rest =>
    have held := agree head (by simp [order])
    simp only [order, popOrder, held, if_true, Option.some.injEq] at popped
    simp [popOrder, held, popped]

theorem order_of_no_pop {p q : PendingRequests κ}
    (agree : ∀ command ∈ p.order, (p.waiters.lookup command).isSome = true)
    (h : p.popNextCommand = (none, q)) : p.order = [] ∧ q.order = [] := by
  simp only [popNextCommand, Prod.mk.injEq] at h
  obtain ⟨popped, rfl⟩ := h
  cases order : p.order with
  | nil => exact ⟨rfl, by simp [popOrder]⟩
  | cons head rest =>
    have held := agree head (by simp [order])
    simp [order, popOrder, held] at popped

end PendingRequests

theorem Ordered.held (ordered : Ordered s) (command : κ) (h : command ∈ s.pending.order) :
    (s.pending.waiters.lookup command).isSome = true :=
  (ordered.agree command).mp h

/-- The pending set and the claim stay. -/
theorem Ordered.keep (ordered : Ordered s) (pending : t.pending = s.pending)
    (claim : ∀ command waiters, t.pc.claim = some (command, waiters) →
      ∃ others, s.pc.claim = some (command, others)) : Ordered t := by
  refine ⟨pending ▸ ordered.distinct, pending ▸ ordered.agree, ?_⟩
  intro command waiters claimed
  obtain ⟨others, before⟩ := claim command waiters claimed
  rw [pending]
  exact ordered.apart command others before

theorem Ordered.push (ordered : Ordered s) {request : CommandRequest κ}
    (pending : t.pending = s.pending.push request)
    (claim : ∀ command waiters, t.pc.claim = some (command, waiters) →
      s.pc.claim = some (command, waiters) ∧ request.command ≠ command) : Ordered t := by
  have order := PendingRequests.order_push s.pending request
  refine ⟨?_, ?_, ?_⟩
  · rw [pending, order]
    split
    · exact ordered.distinct
    · rename_i fresh
      refine List.nodup_append.mpr ⟨ordered.distinct, List.nodup_singleton _, ?_⟩
      rintro command queued other new rfl
      exact fresh (List.mem_singleton.mp new ▸ ordered.held command queued)
  · intro command
    rw [pending, PendingRequests.isSome_lookup_push, order]
    split
    · rename_i held
      rw [ordered.agree]
      refine ⟨Or.inr, ?_⟩
      rintro (rfl | queued)
      · exact held
      · exact queued
    · rw [List.mem_append, List.mem_singleton, or_comm, ordered.agree]
  · intro command waiters claimed
    obtain ⟨before, other⟩ := claim command waiters claimed
    rw [pending, order]
    have absent := ordered.apart command waiters before
    split
    · exact absent
    · simp [absent, other.symm]

/-- The head of the queue leaves with its waiters. -/
theorem Ordered.taken (ordered : Ordered s) {name : κ} {q : PendingRequests κ}
    (popped : s.pending.popNextCommand = (some name, q))
    (pending : t.pending = (q.takeWaiters name).2)
    (claim : ∀ command waiters, t.pc.claim = some (command, waiters) → command = name) :
    Ordered t := by
  have order := PendingRequests.order_of_pop ordered.held popped
  obtain ⟨_, -, -, left⟩ := PendingRequests.taken_of_pop popped
  have distinct := ordered.distinct
  rw [order, List.nodup_cons] at distinct
  refine ⟨?_, ?_, ?_⟩
  · rw [pending]
    exact distinct.2
  · intro command
    rw [pending, left]
    change command ∈ q.order ↔ _
    by_cases same : command = name
    · rw [same, AList.lookup_erase]
      simp [distinct.1]
    · rw [AList.lookup_erase_ne same, ← ordered.agree, order]
      simp [same]
  · intro command waiters claimed
    rw [claim command waiters claimed, pending]
    exact distinct.1

theorem ordered_retire (s : State κ) (events : List (Event κ)) :
    Ordered (retire s events).1 :=
  ⟨List.nodup_nil, fun command => by simp [retire, PendingRequests.empty], fun _ _ => nofun⟩

theorem ordered_start : Ordered (State.start : State κ) :=
  ⟨List.nodup_nil, fun command => by simp [State.start], fun _ _ => nofun⟩

theorem ordered_turn (ordered : Ordered s) (turn : Turn runner s label t es) : Ordered t := by
  cases turn with
  | sent | sendersDropped | shutdownSet | shutdownDropped | advanced =>
    exact ordered.keep rfl fun _ waiters claimed => ⟨waiters, claimed⟩
  | headed hpc =>
    refine ordered.keep rfl fun command waiters claimed => ?_
    dsimp only at claimed
    split at claimed <;> cases claimed
  | emptied pending hpc popped =>
    obtain ⟨before, after⟩ := PendingRequests.order_of_no_pop ordered.held popped
    have waiters : pending.waiters = s.pending.waiters := by
      rw [← PendingRequests.popNextCommand_waiters s.pending, popped]
    refine ⟨?_, ?_, fun _ _ => nofun⟩
    · exact after ▸ List.nodup_nil
    · intro command
      rw [waiters, ← ordered.agree, after, before]
  | rejected name pending hpc popped => exact ordered.taken popped rfl fun _ _ => nofun
  | picked name pending command hpc popped =>
    refine ordered.taken popped rfl fun other waiters claimed => ?_
    cases claimed
    rfl
  | cooled name pending command runAt hpc popped =>
    refine ordered.taken popped rfl fun other waiters claimed => ?_
    cases claimed
    rfl
  | executed command waiters hpc =>
    refine ordered.keep rfl fun other others claimed => ⟨others, ?_⟩
    rw [hpc]
    exact claimed
  | drained request rest hpc =>
    refine ordered.push rfl fun command waiters claimed => ?_
    dsimp only at claimed
    rw [hpc] at claimed
    cases claimed
  | drainEnded hpc => exact ordered.keep rfl fun _ _ => nofun
  | stopped | shutDown | coolingShutDown | closed | coolingClosed => exact ordered_retire _ _
  | resumed hpc => exact ordered.keep rfl fun _ _ => nofun
  | notified ok shutdown _ hpc => exact ordered.keep rfl fun _ _ => nofun
  | coolingNotified command waiters runAt ok shutdown _ hpc =>
    refine ordered.keep rfl fun other others claimed => ⟨others, ?_⟩
    rw [hpc]
    exact claimed
  | received request requests hpc => exact ordered.push rfl fun _ _ => nofun
  | joined request waiters runAt requests hpc =>
    refine ordered.keep rfl fun other others claimed => ⟨waiters, ?_⟩
    cases claimed
    rw [hpc]
    rfl
  | absorbed request command waiters runAt requests hpc other =>
    refine ordered.push rfl fun name others claimed => ⟨claimed, ?_⟩
    dsimp only at claimed
    rw [hpc] at claimed
    cases claimed
    exact other
  | timed command waiters runAt hpc =>
    refine ordered.keep rfl fun other others claimed => ⟨others, ?_⟩
    rw [hpc]
    exact claimed
  | finished command waiters result hpc => exact ordered.keep rfl fun _ _ => nofun

/-- The command has waiters in the pending set. -/
def State.isPending (s : State κ) (command : κ) : Bool :=
  (s.pending.waiters.lookup command).isSome

/-- The commands that become pending with a step, and those that are taken. -/
def becomePending (s t : State κ) : List κ :=
  t.pending.order.filter fun command => !s.isPending command

def takenPending (s t : State κ) : List κ :=
  if t.pc = .returned then [] else s.pending.order.filter fun command => !t.isPending command

theorem Ordered.isPending_iff (ordered : Ordered s) (command : κ) :
    s.isPending command = true ↔ command ∈ s.pending.order :=
  (ordered.agree command).symm

theorem filter_pending (ordered : Ordered s) :
    (s.pending.order.filter fun command => !s.isPending command) = [] := by
  refine List.filter_eq_nil_iff.mpr ?_
  intro command queued
  simp [(ordered.isPending_iff command).mpr queued]

/-- One step of the queue: what leaves is its head, and what comes goes to its end. -/
inductive Queueing (s t : State κ) : Prop where
  | kept : t.pending.order = s.pending.order → Queueing s t
  | entered (command : κ) : command ∉ s.pending.order →
      t.pending.order = s.pending.order ++ [command] → Queueing s t
  | left (command : κ) : s.pending.order = command :: t.pending.order → s.pc = .dispatch →
      (t.pc = .dispatch ∨ t.pc.claim.map (·.1) = some command ∧ t.pc.begun = false) → Queueing s t
  | dismissed : t.pc = .returned → t.pending.order = [] → Queueing s t

theorem queueing_push (ordered : Ordered s) {request : CommandRequest κ}
    (pending : t.pending = s.pending.push request) : Queueing s t := by
  have order := PendingRequests.order_push s.pending request
  by_cases held : (s.pending.waiters.lookup request.command).isSome = true
  · exact .kept (by rw [pending, order, if_pos held])
  · exact .entered request.command (fun queued => held (ordered.held _ queued))
      (by rw [pending, order, if_neg held])

theorem queueing_turn (ordered : Ordered s) (turn : Turn runner s label t es) : Queueing s t := by
  cases turn with
  | emptied pending hpc popped =>
    obtain ⟨before, after⟩ := PendingRequests.order_of_no_pop ordered.held popped
    exact .kept (after.trans before.symm)
  | rejected name pending hpc popped =>
    have order := PendingRequests.order_of_pop ordered.held popped
    exact .left name order hpc (Or.inl rfl)
  | picked name pending command hpc popped =>
    have order := PendingRequests.order_of_pop ordered.held popped
    exact .left name order hpc (Or.inr ⟨rfl, rfl⟩)
  | cooled name pending command runAt hpc popped =>
    have order := PendingRequests.order_of_pop ordered.held popped
    exact .left name order hpc (Or.inr ⟨rfl, rfl⟩)
  | drained => exact queueing_push ordered rfl
  | received => exact queueing_push ordered rfl
  | absorbed => exact queueing_push ordered rfl
  | stopped | shutDown | coolingShutDown | closed | coolingClosed => exact .dismissed rfl rfl
  | sent | sendersDropped | shutdownSet | shutdownDropped | advanced | headed | executed
  | drainEnded | resumed | notified | coolingNotified | joined | timed | finished =>
    exact .kept rfl

/-- What is queued before a step and what comes are what is taken and what is queued after. -/
theorem queue_balance (before : Ordered s) (after : Ordered t) (queueing : Queueing s t)
    (running : t.pc ≠ .returned) :
    s.pending.order ++ becomePending s t = takenPending s t ++ t.pending.order := by
  have pendings := before.isPending_iff
  have pendingt := after.isPending_iff
  rw [takenPending, if_neg running, becomePending]
  cases queueing with
  | kept same =>
    have both : ∀ command, s.isPending command = t.isPending command := by
      intro command
      rw [Bool.eq_iff_iff, pendings, pendingt, same]
    have none := filter_pending after
    simp only [same, both] at none ⊢
    rw [none, List.append_nil, List.nil_append]
  | entered command fresh order =>
    have stays : (s.pending.order.filter fun other => !t.isPending other) = [] := by
      refine List.filter_eq_nil_iff.mpr ?_
      intro other queued
      simp [(pendingt other).mpr (order ▸ List.mem_append_left _ queued)]
    have new : s.isPending command = false :=
      Bool.eq_false_iff.mpr fun held => fresh ((pendings command).mp held)
    rw [stays, order, List.filter_append, filter_pending before]
    simp [new]
  | left command order _ _ =>
    have distinct := before.distinct
    rw [order, List.nodup_cons] at distinct
    have gone : t.isPending command = false :=
      Bool.eq_false_iff.mpr fun held => distinct.1 ((pendingt command).mp held)
    have none : (t.pending.order.filter fun other => !s.isPending other) = [] := by
      refine List.filter_eq_nil_iff.mpr ?_
      intro other queued
      simp [(pendings other).mpr (order ▸ List.mem_cons_of_mem _ queued)]
    rw [none, order, List.filter_cons_of_pos (by simp [gone]), filter_pending after]
    simp
  | dismissed returned => exact absurd returned running

section Bypass

def Event.isExecution (command : κ) : Event κ → Bool
  | .executionStarted other => other = command
  | _ => false

/-- How many executions of the command start. -/
def executions (command : κ) (tr : List (Event κ)) : Nat := tr.countP (Event.isExecution command)

@[simp] theorem executions_append (command : κ) (tr fs : List (Event κ)) :
    executions command (tr ++ fs) = executions command tr + executions command fs :=
  List.countP_append

@[simp] theorem executions_finishWaiters (command : κ) (waiters : List Nat)
    (report : CommandReport.CommandRunReport) :
    executions command (finishWaiters waiters report) = 0 := by
  simp [executions, finishWaiters, Event.isExecution]

@[simp] theorem executions_startWaiters (command : κ) (waiters : List Nat) :
    executions command (startWaiters waiters) = 0 := by
  simp [executions, startWaiters, Event.isExecution]

@[simp] theorem executions_ended (command other : κ) (report : CommandReport.CommandRunReport) :
    executions command [.executionEnded other report] = 0 := rfl

theorem executions_started (command other : κ) :
    executions command [.executionStarted other] = if other = command then 1 else 0 := by
  by_cases same : other = command <;> simp [executions, Event.isExecution, same]

theorem executions_retire (command : κ) (s : State κ) {events : List (Event κ)}
    (quiet : executions command events = 0) : executions command (retire s events).2 = 0 := by
  simp only [retire, cancelPending, executions_append, executions_finishWaiters, quiet]
  simp [executions, Event.isExecution]

/-- The lane holds the command and has not started it. -/
def Pc.unbegun (pc : Pc κ) (command : κ) : Bool :=
  pc.claim.any (fun claim => claim.1 = command) && !pc.begun

/-- The other command may still be executed before this one, which is pending. -/
def State.ahead (s : State κ) (command other : κ) : Bool :=
  s.pc.unbegun other || other ∈ s.pending.order.takeWhile (fun name => !decide (name = command))

theorem takeWhile_append_of_mem {command : κ} {order : List κ} (h : command ∈ order)
    (rest : List κ) :
    (order ++ rest).takeWhile (fun name => !decide (name = command)) =
      order.takeWhile (fun name => !decide (name = command)) := by
  induction order with
  | nil => cases h
  | cons head tail ih =>
    by_cases same : head = command
    · simp [same]
    · have later : command ∈ tail := (List.mem_cons.mp h).resolve_left fun eq => same eq.symm
      simp [same, ih later]

variable {command other : κ}

/-- What a step may add to the executions of another command, it takes from what is ahead. -/
def Bypass (command other : κ) (s t : State κ) (es : List (Event κ)) : Prop :=
  executions other es + (if command ∈ t.pending.order then (t.ahead command other).toNat else 0) ≤
    (s.ahead command other).toNat

theorem bypass_of_quiet (quiet : executions other es = 0)
    (less : command ∈ t.pending.order → t.ahead command other = true →
      s.ahead command other = true) : Bypass command other s t es := by
  rw [Bypass, quiet, Nat.zero_add]
  split
  · rename_i queued
    cases after : t.ahead command other with
    | false => exact Nat.zero_le _
    | true => rw [less queued after]
  · exact Nat.zero_le _

/-- The queue stays or grows at its end. -/
theorem bypass_of_order (quiet : executions other es = 0)
    (waits : command ∈ s.pending.order) (order : ∃ rest, t.pending.order = s.pending.order ++ rest)
    (claim : t.pc.unbegun other = true → s.pc.unbegun other = true) :
    Bypass command other s t es := by
  refine bypass_of_quiet quiet fun _ after => ?_
  obtain ⟨rest, order⟩ := order
  rw [State.ahead, order, takeWhile_append_of_mem waits, Bool.or_eq_true] at after
  rw [State.ahead, Bool.or_eq_true]
  exact after.imp_left claim

theorem exists_order_push (p : PendingRequests κ) (request : CommandRequest κ) :
    ∃ rest, (p.push request).order = p.order ++ rest := by
  rw [PendingRequests.order_push]
  split
  · exact ⟨[], (List.append_nil _).symm⟩
  · exact ⟨[request.command], rfl⟩

theorem bypass_of_left {name : κ} (quiet : executions other es = 0) (ordered : Ordered s)
    (order : s.pending.order = name :: t.pending.order)
    (claim : t.pc.unbegun other = true → name = other) : Bypass command other s t es := by
  refine bypass_of_quiet quiet fun queued after => ?_
  have distinct := ordered.distinct
  rw [order, List.nodup_cons] at distinct
  have differs : name ≠ command := fun same => distinct.1 (same ▸ queued)
  rw [State.ahead, Bool.or_eq_true, decide_eq_true_eq] at after
  rw [State.ahead, Bool.or_eq_true, decide_eq_true_eq, order,
    List.takeWhile_cons_of_pos (by simpa using differs), List.mem_cons]
  rcases after with claimed | before
  · exact Or.inr (Or.inl (claim claimed).symm)
  · exact Or.inr (Or.inr before)

theorem bypass_turn (ordered : Ordered s) (waits : command ∈ s.pending.order)
    (turn : Turn runner s label t es) : Bypass command other s t es := by
  have same : s.pending.order = s.pending.order ++ [] := (List.append_nil _).symm
  have retired : ∀ {u : State κ} {events : List (Event κ)}, executions other events = 0 →
      Bypass command other s (retire u events).1 (retire u events).2 :=
    fun {u} {events} quiet => bypass_of_quiet (executions_retire other u quiet) nofun
  cases turn with
  | sent | sendersDropped | shutdownSet | shutdownDropped | advanced =>
    exact bypass_of_order rfl waits ⟨[], same⟩ id
  | headed hpc =>
    refine bypass_of_order rfl waits ⟨[], same⟩ fun claimed => ?_
    dsimp only at claimed
    split at claimed <;> cases claimed
  | emptied pending hpc popped =>
    have none := (PendingRequests.order_of_no_pop ordered.held popped).1
    rw [none] at waits
    cases waits
  | rejected name pending hpc popped =>
    have order := PendingRequests.order_of_pop ordered.held popped
    exact bypass_of_left (executions_finishWaiters _ _ _) ordered order (by simp [Pc.unbegun, Pc.claim])
  | picked name pending held hpc popped =>
    have order := PendingRequests.order_of_pop ordered.held popped
    refine bypass_of_left rfl ordered order fun claimed => ?_
    simpa [Pc.unbegun, Pc.claim, Pc.begun] using claimed
  | cooled name pending held runAt hpc popped =>
    have order := PendingRequests.order_of_pop ordered.held popped
    refine bypass_of_left rfl ordered order fun claimed => ?_
    simpa [Pc.unbegun, Pc.claim, Pc.begun] using claimed
  | executed name waiters hpc =>
    -- The one step that adds an execution: its command was claimed, so it is not queued.
    have absent := ordered.apart name waiters (by rw [hpc]; rfl)
    rw [Bypass, executions_append, executions_startWaiters, executions_started, Nat.zero_add,
      if_pos waits]
    by_cases own : name = other
    · subst own
      have before : s.ahead command name = true := by
        simp [State.ahead, hpc, Pc.unbegun, Pc.claim, Pc.begun]
      have gone : name ∉ s.pending.order.takeWhile (fun name => !decide (name = command)) :=
        fun mem => absent ((List.takeWhile_prefix _).subset mem)
      simp [State.ahead, Pc.unbegun, Pc.claim, Pc.begun, gone, hpc]
    · simp [State.ahead, Pc.unbegun, Pc.claim, Pc.begun, own, hpc]
  | drained request rest hpc =>
    refine bypass_of_order rfl waits (exists_order_push _ _) id
  | drainEnded => exact bypass_of_order rfl waits ⟨[], same⟩ (by simp [Pc.unbegun, Pc.claim])
  | stopped => exact retired rfl
  | resumed => exact bypass_of_order rfl waits ⟨[], same⟩ (by simp [Pc.unbegun, Pc.claim])
  | shutDown => exact retired rfl
  | notified => exact bypass_of_order rfl waits ⟨[], same⟩ (by simp [Pc.unbegun, Pc.claim])
  | coolingShutDown => exact retired (executions_finishWaiters _ _ _)
  | coolingNotified name waiters runAt ok shutdown _ hpc =>
    refine bypass_of_order rfl waits ⟨[], same⟩ fun claimed => ?_
    rw [hpc]
    exact claimed
  | received => exact bypass_of_order rfl waits (exists_order_push _ _) (by simp [Pc.unbegun, Pc.claim])
  | closed => exact retired rfl
  | joined request waiters runAt requests hpc =>
    refine bypass_of_order rfl waits ⟨[], same⟩ fun claimed => ?_
    rw [hpc]
    exact claimed
  | absorbed => exact bypass_of_order rfl waits (exists_order_push _ _) id
  | coolingClosed => exact retired (executions_finishWaiters _ _ _)
  | timed name waiters runAt hpc =>
    refine bypass_of_order rfl waits ⟨[], same⟩ fun claimed => ?_
    rw [hpc]
    exact claimed
  | finished name waiters result hpc =>
    refine bypass_of_order ?_ waits ⟨[], same⟩ (by simp [Pc.unbegun, Pc.claim])
    rw [executions_append, executions_finishWaiters, executions_ended]

end Bypass

section Runs
variable {labels : List (Label κ)} {tr : List (Event κ)}

theorem ordered_run (run : exec (step runner) State.start labels = some (s, tr)) : Ordered s :=
  exec_state_invariant (fun _ _ _ _ old h => ordered_turn old (turn_of_step h)) ordered_start run

theorem returned_run (returned : s.pc = .returned)
    (run : exec (step runner) s labels = some (t, tr)) : t.pc = .returned :=
  exec_state_invariant (P := fun v => v.pc = .returned)
    (fun _ _ _ _ old h => returned_move old (step_move h)) returned run

theorem taken_returned (returned : s.pc = .returned)
    (run : exec (step runner) s labels = some (t, tr)) :
    noted (step runner) takenPending s labels = [] := by
  induction labels generalizing s tr with
  | nil => rfl
  | cons label rest ih =>
    obtain ⟨m, es, fs, hs, hr, rfl⟩ := exec_cons_some.mp run
    have still : m.pc = .returned := returned_move returned (step_move hs)
    rw [noted_cons hs, takenPending, if_pos still, List.nil_append]
    exact ih still hr

/-- The commands are taken in the order in which they became pending. -/
theorem taken_in_order (ordered : Ordered s) (run : exec (step runner) s labels = some (t, tr)) :
    noted (step runner) takenPending s labels <+:
        s.pending.order ++ noted (step runner) becomePending s labels ∧
      (t.pc ≠ .returned →
        s.pending.order ++ noted (step runner) becomePending s labels =
          noted (step runner) takenPending s labels ++ t.pending.order) := by
  induction labels generalizing s tr with
  | nil =>
    obtain ⟨rfl, -⟩ : s = t ∧ [] = tr := by simpa using run
    exact ⟨List.nil_prefix, fun _ => by simp [noted]⟩
  | cons label rest ih =>
    obtain ⟨m, es, fs, hs, hr, rfl⟩ := exec_cons_some.mp run
    have next := ordered_turn ordered (turn_of_step hs)
    rw [noted_cons hs, noted_cons hs]
    by_cases gone : m.pc = .returned
    · rw [taken_returned gone hr, takenPending, if_pos gone]
      exact ⟨List.nil_prefix, fun running => absurd (returned_run gone hr) running⟩
    · have balance := queue_balance ordered next (queueing_turn ordered (turn_of_step hs)) gone
      obtain ⟨first, all⟩ := ih next hr
      rw [← List.append_assoc, balance, List.append_assoc]
      refine ⟨(List.prefix_append_right_inj _).mpr first, fun running => ?_⟩
      rw [all running, List.append_assoc]

/-- While a command is pending, another one is executed at most as often as it was ahead. -/
theorem bypass_run {command : κ} (other : κ) (ordered : Ordered s)
    (waits : Meets (step runner) (fun v _ => v.isPending command = true) s labels)
    (run : exec (step runner) s labels = some (t, tr)) :
    executions other tr ≤ (s.ahead command other).toNat := by
  have both : Ordered t ∧ executions other ([] ++ tr) +
      (if command ∈ t.pending.order then (t.ahead command other).toNat else 0) ≤
        (s.ahead command other).toNat := by
    refine exec_invariant_of_meets (P := fun tr v => Ordered v ∧ executions other tr +
      (if command ∈ v.pending.order then (v.ahead command other).toNat else 0) ≤
        (s.ahead command other).toNat) ?_ ⟨ordered, ?_⟩ waits run
    · rintro past v label w es ⟨ordered, bound⟩ pending h
      have queued := (ordered.isPending_iff command).mp pending
      have added : Bypass command other v w es := bypass_turn ordered queued (turn_of_step h)
      refine ⟨ordered_turn ordered (turn_of_step h), ?_⟩
      rw [if_pos queued] at bound
      rw [Bypass] at added
      rw [executions_append]
      omega
    · split
      · exact Nat.le_of_eq (Nat.zero_add _)
      · exact Nat.zero_le _
  rw [List.nil_append] at both
  omega

end Runs

end Lane

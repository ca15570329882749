import Mailwake.LaneAlarm

/-!
# Progress of the lane loop

The order queue and the waiter map of the pending set agree, no list of waiters is empty, and the
command the lane works on is in neither. So the head of the queue is popped each time, the lane is
at the head of its outer loop only with nothing pending, and it waits there. Between two awaits it
takes finitely many steps.
-/
namespace Lane
open Channel CommandReport Transition
universe u
variable {κ : Type u} [DecidableEq κ]

/-- Every list of waiters in the map has a member. -/
def Attended (s : State κ) : Prop :=
  ∀ command waiters, s.pending.waiters.lookup command = some waiters → waiters ≠ []

/-- The representation invariant of the pending set. -/
structure Represented (s : State κ) : Prop extends Ordered s where
  attended : Attended s

/-- At the head of the outer loop nothing is queued. -/
def Headed (s : State κ) : Prop := s.pc = .outer → s.pending.order = []

/-- A lane that has returned has nothing pending. -/
def Cleared (s : State κ) : Prop := s.pc = .returned → s.pending = .empty

/-- The places where the task awaits. -/
def Pc.awaits : Pc κ → Bool
  | .idle | .cooling _ _ _ | .running _ _ => true
  | _ => false

/-- The labels that end an await. -/
def Label.resumes : Label κ → Bool
  | .shutdownChanged | .recv | .timer | .finish _ => true
  | _ => false

def Label.proceeds : Label κ → Bool
  | .proceed => true
  | _ => false

def Label.sends : Label κ → Bool
  | .send _ => true
  | _ => false

/-- Bounds the steps the lane takes before it awaits or returns, if nothing is sent to it. -/
def State.straight (s : State κ) : Nat :=
  match s.pc with
  | .outer | .starting _ _ => 1
  | .dispatch => s.pending.order.length + 2
  | .checkShutdown => s.pending.order.length + 3
  | .draining => 2 * s.requests.items.length + s.pending.order.length + 4
  | .idle | .cooling _ _ _ | .running _ _ | .returned => 0

variable {runner : CommandLaneRunner κ} {s t : State κ} {label : Label κ} {es : List (Event κ)}

section Representation

theorem Attended.push {request : CommandRequest κ} (old : Attended s)
    (pending : t.pending = s.pending.push request) : Attended t := by
  intro command waiters held
  rw [pending] at held
  by_cases same : command = request.command
  · rw [same, PendingRequests.lookup_push_self, Option.some.injEq] at held
    simp [← held]
  · rw [PendingRequests.lookup_push_ne _ _ same] at held
    exact old command waiters held

theorem Attended.erase {name : κ} (old : Attended s)
    (left : t.pending.waiters = s.pending.waiters.erase name) : Attended t := by
  intro command waiters held
  rw [left] at held
  by_cases same : command = name
  · rw [same, AList.lookup_erase] at held
    cases held
  · rw [AList.lookup_erase_ne same] at held
    exact old command waiters held

theorem attended_move (old : Attended s) (move : Move runner s t es) : Attended t := by
  cases move with
  | quiet same => exact fun command waiters held => old command waiters (same.waiters ▸ held)
  | send _ _ _ _ pending | join _ _ _ _ _ pending | execute _ _ _ _ _ _ pending
  | complete _ _ _ _ _ _ _ _ pending =>
    exact fun command waiters held => old command waiters (pending ▸ held)
  | absorb request _ _ pending => exact old.push pending
  | reject name _ _ _ left | take name _ _ _ left => exact old.erase left
  | retire _ _ _ _ _ pending =>
    intro command waiters held
    rw [pending] at held
    cases held

theorem attended_start : Attended (State.start : State κ) := fun _ _ => nofun

theorem headed_turn (ordered : Ordered s) (old : Headed s) (turn : Turn runner s label t es) :
    Headed t := by
  intro outer
  cases turn with
  | sent | sendersDropped | shutdownSet | shutdownDropped | advanced => exact old outer
  | headed hpc =>
    dsimp only at outer
    split at outer <;> cases outer
  | emptied pending hpc popped => exact (PendingRequests.order_of_no_pop ordered.held popped).2
  | absorbed request command waiters runAt requests hpc => cases hpc.symm.trans outer
  | drained request rest hpc => cases hpc.symm.trans outer
  | rejected | picked | cooled | executed | drainEnded | stopped | resumed | shutDown
  | notified | coolingShutDown | coolingNotified | received | closed | joined | coolingClosed
  | timed | finished => cases outer

theorem cleared_turn (old : Cleared s) (turn : Turn runner s label t es) : Cleared t := by
  intro returned
  cases turn with
  | sent _ _ alive => exact absurd returned alive
  | sendersDropped | shutdownSet | shutdownDropped | advanced => exact old returned
  | headed hpc =>
    dsimp only at returned
    split at returned <;> cases returned
  | stopped | shutDown | coolingShutDown | closed | coolingClosed => rfl
  | absorbed _ _ _ _ _ hpc => cases hpc.symm.trans returned
  | drained _ _ hpc => cases hpc.symm.trans returned
  | emptied | rejected | picked | cooled | executed | drainEnded | resumed | notified
  | coolingNotified | received | joined | timed | finished => cases returned

/-- With nothing queued the map is empty, and the other way round. -/
theorem Ordered.isEmpty_iff (ordered : Ordered s) :
    s.pending.isEmpty = true ↔ s.pending.order = [] := by
  rw [PendingRequests.isEmpty, List.isEmpty_iff]
  refine ⟨ordered.order_nil, fun none => ?_⟩
  refine List.eq_nil_iff_forall_not_mem.mpr fun entry mem => ?_
  have held : (s.pending.waiters.lookup entry.1).isSome = true :=
    AList.lookup_isSome.mpr (AList.mem_keys.mpr (List.mem_map_of_mem mem))
  have queued := (ordered.agree entry.1).mpr held
  rw [none] at queued
  cases queued

/-- The queue is popped at its head, and none of its names is skipped. -/
theorem Ordered.popNextCommand (ordered : Ordered s) :
    s.pending.popNextCommand =
      (s.pending.order.head?, ⟨s.pending.order.tail, s.pending.waiters⟩) := by
  cases order : s.pending.order with
  | nil => simp [PendingRequests.popNextCommand, order, PendingRequests.popOrder]
  | cons head rest =>
    have held := ordered.held head (by simp [order])
    simp [PendingRequests.popNextCommand, order, PendingRequests.popOrder, held]

end Representation

section Claims

/-- A command becomes pending only when a request for it is received. -/
theorem pending_move {command : κ} (move : Move runner s t es)
    (later : t.isPending command = true) :
    s.isPending command = true ∨ ∃ id, .received id command ∈ es := by
  unfold State.isPending at later ⊢
  cases move with
  | quiet same => exact Or.inl (same.waiters ▸ later)
  | send _ _ _ _ pending | join _ _ _ _ _ pending | execute _ _ _ _ _ _ pending
  | complete _ _ _ _ _ _ _ _ pending => exact Or.inl (pending ▸ later)
  | absorb request _ _ pending =>
    rw [pending, PendingRequests.isSome_lookup_push] at later
    rcases later with rfl | before
    · exact Or.inr ⟨request.lifecycle, List.mem_singleton_self _⟩
    · exact Or.inl before
  | reject name _ _ _ left | take name _ _ _ left =>
    rw [left] at later
    by_cases same : command = name
    · rw [same, AList.lookup_erase] at later
      cases later
    · rw [AList.lookup_erase_ne same] at later
      exact Or.inl later
  | retire _ _ _ _ _ pending =>
    rw [pending] at later
    cases later

/-- The lane keeps the command it has taken until its execution ends or the lane returns. -/
theorem claim_move {command : κ} {waiters : List Nat}
    (claimed : s.pc.claim = some (command, waiters)) (move : Move runner s t es) :
    (∃ others, t.pc.claim = some (command, others)) ∨ t.pc = .returned ∨
      ∃ report rest, es = .executionEnded command report :: rest ∧ t.pending = s.pending := by
  cases move with
  | quiet same => exact Or.inl ⟨waiters, same.claim.trans claimed⟩
  | send _ _ _ _ _ pc => exact Or.inl ⟨waiters, pc ▸ claimed⟩
  | absorb _ _ _ _ claim => exact Or.inl ⟨waiters, claim.trans claimed⟩
  | join request others runAt _ _ _ before after =>
    rw [before] at claimed
    cases claimed
    exact Or.inl ⟨_, by rw [after]; rfl⟩
  | reject _ _ _ _ _ _ _ before | take _ _ _ _ _ _ _ before =>
    rw [before] at claimed
    cases claimed
  | execute _ _ before after =>
    rw [before] at claimed
    cases claimed
    exact Or.inl ⟨_, by rw [after]; rfl⟩
  | complete _ _ report _ before _ _ _ pending =>
    rw [before] at claimed
    cases claimed
    exact Or.inr (Or.inr ⟨report, _, rfl, pending⟩)
  | retire _ _ _ _ after => exact Or.inr (Or.inl after)

/-- Since the lane took the command, its execution goes on, the lane has returned, or the execution
has ended, and then the command is pending only because of a request received afterwards. -/
inductive Apart (command : κ) (tr : List (Event κ)) (t : State κ) : Prop where
  | claimed (waiters : List Nat) : t.pc.claim = some (command, waiters) → Apart command tr t
  | returned : t.pc = .returned → Apart command tr t
  | ended (before after : List (Event κ)) (report : CommandRunReport) :
      tr = before ++ .executionEnded command report :: after →
      (t.isPending command = true → ∃ id, .received id command ∈ after) → Apart command tr t

/-- While the lane works on a command, the command is not pending. -/
theorem Ordered.absent (ordered : Ordered s) {command : κ} {waiters : List Nat}
    (claimed : s.pc.claim = some (command, waiters)) : s.isPending command = false :=
  Bool.eq_false_iff.mpr fun held =>
    ordered.apart command waiters claimed ((ordered.isPending_iff command).mp held)

theorem apart_move {command : κ} {tr : List (Event κ)} (ordered : Ordered s)
    (old : Apart command tr s) (move : Move runner s t es) : Apart command (tr ++ es) t := by
  cases old with
  | claimed waiters claimed =>
    rcases claim_move claimed move with ⟨others, still⟩ | returned | ⟨report, rest, rfl, pending⟩
    · exact .claimed others still
    · exact .returned returned
    · refine .ended tr rest report rfl fun held => ?_
      have absent := ordered.absent claimed
      rw [State.isPending, ← pending] at absent
      exact absurd held (Bool.eq_false_iff.mp absent)
  | returned returned => exact .returned (returned_move returned move)
  | ended before after report split known =>
    refine .ended before (after ++ es) report (by simp [split]) fun held => ?_
    rcases pending_move move held with earlier | ⟨id, received⟩
    · obtain ⟨id, mem⟩ := known earlier
      exact ⟨id, List.mem_append_left _ mem⟩
    · exact ⟨id, List.mem_append_right _ received⟩

end Claims

section Progress

theorem proceed_outer (empty : s.pending.isEmpty = true) (hpc : s.pc = .outer) :
    step runner s .proceed = some ({ s with pc := .idle }, []) := by
  simp only [step, proceed, hpc, empty, if_true]

/-- The straight-line code goes on exactly where the lane neither awaits nor has returned. -/
theorem isSome_proceed (runner : CommandLaneRunner κ) (s : State κ) :
    (step runner s .proceed).isSome = true ↔ s.pc.awaits = false ∧ s.pc ≠ .returned := by
  simp only [step, proceed]
  cases hpc : s.pc with
  | outer | dispatch | starting => simp [Pc.awaits]
  | draining => cases s.requests.items <;> simp [Pc.awaits]
  | checkShutdown => cases s.shutdown.value <;> simp [Pc.awaits]
  | idle | cooling | running | returned => simp [Pc.awaits]

theorem length_push (p : PendingRequests κ) (request : CommandRequest κ) :
    (p.push request).order.length ≤ p.order.length + 1 := by
  rw [PendingRequests.order_push]
  split
  · exact Nat.le_succ _
  · simp

omit [DecidableEq κ] in
/-- A request that is sent to a draining lane costs it two steps at most: one to take it from the
channel, and one to look at its command. -/
theorem straight_sent {requests : Mpsc (CommandRequest κ)} {request : CommandRequest κ} {next : Nat}
    (sent : s.requests.send runner.capacity request = some requests) :
    State.straight { s with requests := requests, nextLifecycle := next } ≤ s.straight + 2 := by
  have length : requests.items.length = s.requests.items.length + 1 := by
    simp [(Mpsc.send_some sent).1]
  unfold State.straight
  cases s.pc <;> dsimp only <;> omega

theorem straight_turn (ordered : Ordered s) (headed : Headed s) (straight : label.resumes = false)
    (turn : Turn runner s label t es) :
    (if label.proceeds then 1 else 0) + t.straight ≤
      s.straight + if label.sends then 2 else 0 := by
  cases turn with
  | sent command requests _ sent =>
    have cost : State.straight
        { s with requests := requests, nextLifecycle := s.nextLifecycle + 1 } ≤ s.straight + 2 :=
      straight_sent sent
    simpa [Label.proceeds, Label.sends] using cost
  | sendersDropped | shutdownSet | shutdownDropped | advanced =>
    exact Nat.le_of_eq (Nat.zero_add _)
  | headed hpc =>
    have empty := ordered.isEmpty_iff.mpr (headed hpc)
    simp [State.straight, hpc, empty, Label.proceeds]
  | emptied _ hpc | picked _ _ _ hpc | cooled _ _ _ _ hpc | executed _ _ hpc | drainEnded hpc
  | stopped hpc | resumed hpc =>
    simp only [State.straight, hpc, Label.proceeds, retire, if_true]
    omega
  | rejected name pending hpc popped =>
    have order := congrArg List.length (PendingRequests.order_of_pop ordered.held popped)
    rw [List.length_cons] at order
    simp only [State.straight, hpc, taken, PendingRequests.takeWaiters, Label.proceeds, if_true]
    omega
  | drained request rest hpc items =>
    have order := length_push s.pending request
    simp only [State.straight, hpc, items, List.length_cons, Label.proceeds, if_true]
    omega
  | shutDown | notified | coolingShutDown | coolingNotified | received | closed | joined
  | absorbed | coolingClosed | timed | finished => cases straight

/-- Of the steps of a run, one ends an await. -/
def Awaited (runner : CommandLaneRunner κ) (s : State κ) (labels : List (Label κ)) : Prop :=
  ∃ before label after u es, labels = before ++ label :: after ∧
    exec (step runner) s before = some (u, es) ∧ u.pc.awaits = true ∧ label.resumes = true

theorem Awaited.later {m : State κ} {labels : List (Label κ)}
    (h : step runner s label = some (m, es)) (awaited : Awaited runner m labels) :
    Awaited runner s (label :: labels) := by
  obtain ⟨before, last, after, u, fs, rfl, run, awaits, resumes⟩ := awaited
  have later := exec_cons_some.mpr ⟨m, es, fs, h, run, rfl⟩
  exact ⟨label :: before, last, after, u, es ++ fs, rfl, later, awaits, resumes⟩

/-- An idle lane that is somewhere else later has ended its await. -/
theorem awaited_of_idle {labels : List (Label κ)} {tr : List (Event κ)} (idle : s.pc = .idle)
    (run : exec (step runner) s labels = some (t, tr)) (gone : t.pc ≠ .idle) :
    Awaited runner s labels := by
  induction labels generalizing s tr with
  | nil =>
    obtain ⟨rfl, -⟩ : s = t ∧ [] = tr := by simpa using run
    exact absurd idle gone
  | cons label rest ih =>
    obtain ⟨m, es, fs, hs, hr, rfl⟩ := exec_cons_some.mp run
    cases resumes : label.resumes with
    | true => exact ⟨[], label, rest, s, [], rfl, rfl, by rw [idle]; rfl, resumes⟩
    | false =>
      refine (ih ?_ hr).later hs
      cases turn_of_step hs with
      | sent | sendersDropped | shutdownSet | shutdownDropped | advanced => exact idle
      | headed hpc | emptied _ hpc | rejected _ _ hpc | picked _ _ _ hpc | cooled _ _ _ _ hpc
      | executed _ _ hpc | drained _ _ hpc | drainEnded hpc | stopped hpc | resumed hpc =>
        cases hpc.symm.trans idle
      | shutDown | notified | coolingShutDown | coolingNotified | received | closed | joined
      | absorbed | coolingClosed | timed | finished => cases resumes

/-- From the head of the outer loop back to it, the lane awaits. -/
theorem awaited_of_outer {labels : List (Label κ)} {tr : List (Event κ)} (ordered : Ordered s)
    (headed : Headed s) (outer : s.pc = .outer) (goes : .proceed ∈ labels)
    (run : exec (step runner) s labels = some (t, tr)) (back : t.pc = .outer) :
    Awaited runner s labels := by
  induction labels generalizing s tr with
  | nil => cases goes
  | cons label rest ih =>
    obtain ⟨m, es, fs, hs, hr, rfl⟩ := exec_cons_some.mp run
    have turn := turn_of_step hs
    have next := ordered_turn ordered turn
    have still := headed_turn ordered headed turn
    have off (other : label ≠ .proceed) : .proceed ∈ rest :=
      (List.mem_cons.mp goes).resolve_left other.symm
    refine Awaited.later hs ?_
    cases turn with
    | sent | sendersDropped | shutdownSet | shutdownDropped | advanced =>
      exact ih next still outer (off nofun) hr
    | headed hpc =>
      have empty := ordered.isEmpty_iff.mpr (headed hpc)
      exact awaited_of_idle (if_pos empty) hr (by simp [back])
    | emptied _ hpc | rejected _ _ hpc | picked _ _ _ hpc | cooled _ _ _ _ hpc | executed _ _ hpc
    | drained _ _ hpc | drainEnded hpc | stopped hpc | resumed hpc | shutDown _ _ _ hpc
    | notified _ _ _ hpc | coolingShutDown _ _ _ _ _ _ hpc | coolingNotified _ _ _ _ _ _ hpc
    | received _ _ hpc | closed hpc | joined _ _ _ _ hpc | absorbed _ _ _ _ _ hpc
    | coolingClosed _ _ _ hpc | timed _ _ _ hpc | finished _ _ _ hpc => cases hpc.symm.trans outer

end Progress

section Runs
variable {labels : List (Label κ)} {tr : List (Event κ)}

/-- Between two awaits the lane takes finitely many steps: a number known at the first one, and two
for each request sent since. -/
theorem straight_run (ordered : Ordered s) (headed : Headed s)
    (straight : ∀ label ∈ labels, label.resumes = false)
    (run : exec (step runner) s labels = some (t, tr)) :
    (labels.filter Label.proceeds).length + t.straight ≤
      s.straight + 2 * (labels.filter Label.sends).length := by
  induction labels generalizing s tr with
  | nil =>
    obtain ⟨rfl, -⟩ : s = t ∧ [] = tr := by simpa using run
    simp
  | cons label rest ih =>
    obtain ⟨m, es, fs, hs, hr, rfl⟩ := exec_cons_some.mp run
    have turn := turn_of_step hs
    have first := straight_turn ordered headed (straight label List.mem_cons_self) turn
    have later := ih (ordered_turn ordered turn) (headed_turn ordered headed turn)
      (fun other mem => straight other (List.mem_cons_of_mem _ mem)) hr
    cases hp : label.proceeds <;> cases hq : label.sends <;> simp [hp, hq] at first ⊢ <;> omega

theorem apart_run {command : κ} {waiters : List Nat} (ordered : Ordered s)
    (claimed : s.pc.claim = some (command, waiters))
    (run : exec (step runner) s labels = some (t, tr)) : Apart command tr t := by
  have both : Ordered t ∧ Apart command tr t := by
    refine exec_invariant (P := fun past u => Ordered u ∧ Apart command past u) ?_
      ⟨ordered, .claimed waiters claimed⟩ run
    rintro past u label v es ⟨ordered, old⟩ h
    exact ⟨ordered_turn ordered (turn_of_step h), apart_move ordered old (step_move h)⟩
  exact both.2

theorem represented_run (run : exec (step runner) State.start labels = some (s, tr)) :
    Represented s ∧ Headed s ∧ Cleared s := by
  have attended : Attended s :=
    exec_state_invariant (fun _ _ _ _ old h => attended_move old (step_move h)) attended_start run
  have cleared : Cleared s :=
    exec_state_invariant (fun _ _ _ _ old h => cleared_turn old (turn_of_step h))
      (fun returned => absurd returned (by simp [State.start])) run
  have both : Ordered s ∧ Headed s := by
    refine exec_state_invariant (P := fun u => Ordered u ∧ Headed u) ?_ ⟨ordered_start, ?_⟩ run
    · rintro u label v es ⟨ordered, headed⟩ h
      exact ⟨ordered_turn ordered (turn_of_step h), headed_turn ordered headed (turn_of_step h)⟩
    · exact fun _ => rfl
  exact ⟨⟨both.1, attended⟩, both.2, cleared⟩

/-- In every reachable state the pending set is well formed, its map is empty exactly if nothing can
be popped, and the queue is popped at its head. At the head of the outer loop nothing is pending and
the next step awaits. A command the lane has taken is pending again only by a request received
after its execution. The lane does not come back to the head of its outer loop without an await,
and between awaits its steps are bounded. -/
theorem pending_set_and_progress (run : exec (step runner) State.start labels = some (s, tr)) :
    Represented s ∧
      (s.pending.isEmpty = true ↔ s.pending.popNextCommand.1 = none) ∧
      s.pending.popNextCommand =
        (s.pending.order.head?, ⟨s.pending.order.tail, s.pending.waiters⟩) ∧
      (s.pc = .outer → s.pending.isEmpty = true ∧
        step runner s .proceed = some ({ s with pc := .idle }, [])) ∧
      ((step runner s .proceed).isSome = true ↔ s.pc.awaits = false ∧ s.pc ≠ .returned) ∧
      ∀ later t fs, exec (step runner) s later = some (t, fs) →
        (∀ command waiters, s.pc.claim = some (command, waiters) → t.isPending command = true →
          ∃ before after report id, fs = before ++ .executionEnded command report :: after ∧
            .received id command ∈ after) ∧
        (s.pc = .outer → t.pc = .outer → .proceed ∈ later → Awaited runner s later) ∧
        ((∀ label ∈ later, label.resumes = false) →
          (later.filter Label.proceeds).length + t.straight ≤
            s.straight + 2 * (later.filter Label.sends).length) := by
  obtain ⟨represented, headed, -⟩ := represented_run run
  have ordered : Ordered s := represented.toOrdered
  have popped := ordered.popNextCommand
  refine ⟨represented, ?_, popped, ?_, isSome_proceed runner s, ?_⟩
  · rw [popped, ordered.isEmpty_iff]
    exact List.head?_eq_none_iff.symm
  · intro outer
    have empty := ordered.isEmpty_iff.mpr (headed outer)
    exact ⟨empty, proceed_outer empty outer⟩
  · intro later t fs next
    refine ⟨?_, ?_, ?_⟩
    · intro command waiters claimed held
      have last := represented_run (exec_append_some.mpr ⟨s, tr, fs, run, next, rfl⟩)
      cases apart_run ordered claimed next with
      | claimed others still =>
        rw [last.1.toOrdered.absent still] at held
        cases held
      | returned returned =>
        rw [State.isPending, last.2.2 returned] at held
        cases held
      | ended before after report split known =>
        obtain ⟨id, received⟩ := known held
        exact ⟨before, after, report, id, split, received⟩
    · exact fun outer back goes => awaited_of_outer ordered headed outer goes next back
    · exact fun straight => straight_run ordered headed straight next

end Runs

private def quickLane : CommandLaneRunner Bool := ⟨[⟨true, 0⟩], 64⟩

/-- A request is received and its execution starts. -/
private def executing : List (Label Bool) := [.proceed, .send true, .recv, .proceed, .proceed]

/-- Another request comes during the execution and is drained after it. -/
private def askedAgain : List (Label Bool) := [.send true, .finish (.ok .wasCancelled), .proceed]

theorem drained_request_is_pending :
    let s := ((exec (step quickLane) State.start executing).get rfl).1
    let r := (exec (step quickLane) s askedAgain).get rfl
    s.isPending true = false ∧ r.1.isPending true = true ∧
      ∃ before after report id, r.2 = before ++ .executionEnded true report :: after ∧
        .received id true ∈ after := by
  intro s r
  have run : exec (step quickLane) State.start executing = some (s, _) := (Option.some_get rfl).symm
  have next : exec (step quickLane) s askedAgain = some r := (Option.some_get rfl).symm
  obtain ⟨-, -, -, -, -, later⟩ := pending_set_and_progress run
  exact ⟨rfl, rfl, (later askedAgain r.1 r.2 next).1 true [0] rfl rfl⟩

end Lane

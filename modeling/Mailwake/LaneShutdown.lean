import Mailwake.LaneExecutions
import Mailwake.Transition

/-!
# Shutdown of a lane

Once the shutdown watch is `true`, the lane starts at most one more execution, and none if one is
already in progress. As soon as the lane reads the watch it returns.
-/
namespace Lane
open Channel CommandReport Transition
universe u
variable {κ : Type u} [DecidableEq κ]

/-- How many executions may still start before the lane reads the watch. -/
def Pc.room : Pc κ → Nat
  | .running _ _ | .draining | .checkShutdown | .returned => 0
  | _ => 1

/-- The watch is `true`, and the lane has returned or will be notified of it. -/
structure Told (s : State κ) : Prop where
  value : s.shutdown.value = true
  unheard : s.pc = .returned ∨ s.shutdown.unseen = true

/-- A step in which the lane looks at the watch: it is notified of a change, or it checks the
value after an execution. -/
def ReadsShutdown (s : State κ) : Label κ → Prop
  | .shutdownChanged => True
  | .proceed => s.pc = .checkShutdown
  | _ => False

variable {runner : CommandLaneRunner κ} {s t : State κ} {label : Label κ} {es : List (Event κ)}

omit [DecidableEq κ] in
/-- A lane that has been told has no notification in vain. -/
theorem Told.changed (told : Told s) (running : s.pc ≠ .returned) {shutdown : Watch Bool}
    {ok : Bool} (change : s.shutdown.changed = some (ok, shutdown)) :
    (ok && shutdown.value) = true := by
  have unseen := told.unheard.resolve_left running
  rw [Watch.changed_untrue change, Watch.untrue, unseen, told.value]
  rfl

omit [DecidableEq κ] in
theorem told_retire {shutdown : Watch Bool} (value : shutdown.value = true)
    (events : List (Event κ)) : Told (retire { s with shutdown := shutdown } events).1 :=
  ⟨value, Or.inl rfl⟩

theorem told_turn (told : Told s) (kept : label ≠ .setShutdown false)
    (turn : Turn runner s label t es) : Told t ∧ t.pc.room ≤ s.pc.room := by
  have still (running : s.pc ≠ .returned) : s.shutdown.unseen = true :=
    told.unheard.resolve_left running
  cases turn with
  | sent | sendersDropped | shutdownDropped | advanced => exact ⟨⟨told.value, told.unheard⟩, le_rfl⟩
  | shutdownSet value =>
    cases value with
    | false => exact absurd rfl kept
    | true => exact ⟨⟨rfl, Or.inr rfl⟩, le_rfl⟩
  | headed hpc =>
    refine ⟨⟨told.value, Or.inr (still (by simp [hpc]))⟩, ?_⟩
    rw [hpc]
    dsimp only
    split <;> exact le_rfl
  | emptied _ hpc | rejected _ _ hpc | picked _ _ _ hpc | cooled _ _ _ _ hpc | executed _ _ hpc
  | drained _ _ hpc | drainEnded hpc | received _ _ hpc | joined _ _ _ _ hpc
  | absorbed _ _ _ _ _ hpc | timed _ _ _ hpc | finished _ _ _ hpc =>
    exact ⟨⟨told.value, Or.inr (still (by simp [hpc]))⟩, by simp [hpc, Pc.room]⟩
  | stopped hpc | closed hpc | coolingClosed _ _ _ hpc =>
    exact ⟨told_retire told.value _, Nat.zero_le _⟩
  | resumed hpc up =>
    rw [told.value] at up
    cases up
  | shutDown ok shutdown change | coolingShutDown _ _ _ ok shutdown change =>
    exact ⟨told_retire ((Watch.changed_value change).trans told.value) _, Nat.zero_le _⟩
  | notified ok shutdown change hpc vain =>
    rw [told.changed (by simp [hpc]) change] at vain
    cases vain
  | coolingNotified _ _ _ ok shutdown change hpc vain =>
    rw [told.changed (by simp [hpc]) change] at vain
    cases vain

/-- An execution that starts takes the room for it. -/
theorem starts_turn (told : Told s) (kept : label ≠ .setShutdown false)
    (turn : Turn runner s label t es) : executionStarts es + t.pc.room ≤ s.pc.room := by
  have shrinks := (told_turn told kept turn).2
  cases executes_turn turn with
  | none unstarted =>
    rw [executionStarts_eq_zero unstarted]
    omega
  | started command waiters hpc ht hes =>
    subst ht hes
    have quiet : executionStarts (startWaiters waiters : List (Event κ)) = 0 :=
      executionStarts_eq_zero (by simp [startWaiters])
    rw [executionStarts_append, quiet, hpc]
    exact le_rfl
  | ended command waiters report hpc ht hes =>
    subst ht hes
    have quiet : executionStarts ([.executionEnded command report] ++
        finishWaiters waiters report) = 0 :=
      executionStarts_eq_zero (by simp [finishWaiters])
    rw [quiet, hpc]
    exact le_rfl

/-- After the signal, a lane that reads the watch returns. -/
theorem returned_of_reads (told : Told s) (reads : ReadsShutdown s label)
    (turn : Turn runner s label t es) : t.pc = .returned := by
  cases turn with
  | sent | sendersDropped | shutdownSet | shutdownDropped | advanced => exact reads.elim
  | received | closed | joined | absorbed | coolingClosed | timed | finished => exact reads.elim
  | headed hpc | emptied _ hpc | rejected _ _ hpc | picked _ _ _ hpc | cooled _ _ _ _ hpc
  | executed _ _ hpc | drained _ _ hpc | drainEnded hpc => cases hpc.symm.trans reads
  | stopped | shutDown | coolingShutDown => rfl
  | resumed hpc up =>
    rw [told.value] at up
    cases up
  | notified ok shutdown change hpc vain =>
    rw [told.changed (by simp [hpc]) change] at vain
    cases vain
  | coolingNotified _ _ _ ok shutdown change hpc vain =>
    rw [told.changed (by simp [hpc]) change] at vain
    cases vain

theorem starts_of_returned (turn : Turn runner s label t es) (returned : t.pc = .returned) :
    executionStarts es = 0 := by
  cases executes_turn turn with
  | none unstarted => exact executionStarts_eq_zero unstarted
  | started command waiters _ ht _ | ended command waiters report _ ht _ =>
    subst ht
    cases returned

section Runs
variable {labels : List (Label κ)} {tr : List (Event κ)}

theorem starts_run (told : Told s) (kept : ∀ label ∈ labels, label ≠ .setShutdown false)
    (run : exec (step runner) s labels = some (t, tr)) :
    Told t ∧ executionStarts tr + t.pc.room ≤ s.pc.room := by
  have meets : Meets (step runner) (fun _ label => label ≠ .setShutdown false) s labels :=
    meets_of_each run fun taken label rest m es split _ => kept label (by simp [split])
  have start : Told s ∧ executionStarts ([] : List (Event κ)) + s.pc.room ≤ s.pc.room :=
    ⟨told, by simp [executionStarts]⟩
  refine exec_invariant_of_meets (P := fun past u =>
    Told u ∧ executionStarts past + u.pc.room ≤ s.pc.room) ?_ start meets run
  rintro past u label v es ⟨told, room⟩ kept h
  have turn := turn_of_step h
  have spent := starts_turn told kept turn
  refine ⟨(told_turn told kept turn).1, ?_⟩
  rw [executionStarts_append]
  omega

/-- Once the shutdown watch has become `true` and stays so, at most one more execution starts, none
if one is in progress, and none from the moment at which the lane reads the watch. -/
theorem shutdown_starts_at_most_one {m : State κ}
    (signalled : step runner s (.setShutdown true) = some (m, es))
    (kept : ∀ label ∈ labels, label ≠ .setShutdown false)
    (run : exec (step runner) m labels = some (t, tr)) :
    executionStarts tr ≤ 1 ∧
      (∀ command waiters, s.pc = .running command waiters → executionStarts tr = 0) ∧
      ∀ before label after u v fs gs hs, labels = before ++ label :: after →
        exec (step runner) m before = some (u, fs) → ReadsShutdown u label →
        step runner u label = some (v, gs) → exec (step runner) v after = some (t, hs) →
        v.pc = .returned ∧ executionStarts (gs ++ hs) = 0 := by
  cases signalled
  have told : Told { s with shutdown := s.shutdown.send true } := ⟨rfl, Or.inr rfl⟩
  have room := (starts_run told kept run).2
  refine ⟨?_, ?_, ?_⟩
  · have one : s.pc.room ≤ 1 := by
      cases s.pc <;> simp [Pc.room]
    dsimp only at room
    omega
  · intro command waiters running
    dsimp only at room
    rw [running] at room
    simp only [Pc.room] at room
    omega
  · rintro before label after u v fs gs hs rfl first reads h rest
    have here := (starts_run told (fun label mem => kept label (by simp [mem])) first).1
    have turn := turn_of_step h
    have returned := returned_of_reads here reads turn
    have later := (told_turn here (kept label (by simp)) turn).1
    have none := (starts_run later (fun label mem => kept label (by simp [mem])) rest).2
    rw [returned] at none
    simp only [Pc.room] at none
    refine ⟨returned, ?_⟩
    rw [executionStarts_append, starts_of_returned turn returned]
    omega

end Runs

private def oneCommandLane : CommandLaneRunner Bool := ⟨[⟨true, 0⟩], 64⟩

/-- The lane is idle, and a request is in its queue. -/
private def requested : List (Label Bool) := [.proceed, .send true]

/-- The request is received before the notification, and a second one during the execution. -/
private def lastExecution : List (Label Bool) :=
  [.recv, .proceed, .proceed, .send true, .finish (.ok .wasCancelled), .proceed, .proceed, .proceed]

theorem request_beside_signal_runs_once :
    let s := ((exec (step oneCommandLane) State.start requested).get rfl).1
    let m : State Bool := { s with shutdown := s.shutdown.send true }
    let r := (exec (step oneCommandLane) m lastExecution).get rfl
    Event.executionStarted true ∈ r.2 ∧ r.1.pc = .returned ∧ executionStarts r.2 ≤ 1 := by
  intro s m r
  have run : exec (step oneCommandLane) m lastExecution = some r := (Option.some_get rfl).symm
  have signalled : step oneCommandLane s (.setShutdown true) = some (m, []) := rfl
  have kept : ∀ label ∈ lastExecution, label ≠ .setShutdown false := by simp [lastExecution]
  exact ⟨by decide, rfl, (shutdown_starts_at_most_one signalled kept run).1⟩

end Lane

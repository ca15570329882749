import Mailwake.LaneTurns

/-!
# What a step of the lane has to do with executions

A step starts one execution, ends one, or has nothing to do with any.
-/
namespace Lane
open Channel CommandReport
universe u
variable {κ : Type u} [DecidableEq κ]

/-- What a step has to do with executions. -/
inductive Executes (s t : State κ) (es : List (Event κ)) : Prop where
  | none : (∀ command, .executionStarted command ∉ es) →
      (∀ command report, .executionEnded command report ∉ es) → t.lastFinished = s.lastFinished →
      (∀ command waiters, s.pc = .running command waiters → t.pc = .running command waiters) →
      Executes s t es
  | started (command : κ) (waiters : List Nat) : s.pc = .starting command waiters →
      t = { s with phase := .running, pc := .running command waiters } →
      es = startWaiters waiters ++ [.executionStarted command] → Executes s t es
  | ended (command : κ) (waiters : List Nat) (report : CommandRunReport) :
      s.pc = .running command waiters →
      t = { s with
        lastFinished := Function.update s.lastFinished command (some s.now)
        phase := .idle
        pc := .draining } →
      es = [.executionEnded command report] ++ finishWaiters waiters report → Executes s t es

variable {runner : CommandLaneRunner κ} {s t : State κ} {label : Label κ} {es : List (Event κ)}

omit [DecidableEq κ] in
theorem not_started_finishWaiters (waiters : List Nat) (report : CommandRunReport) (command : κ) :
    .executionStarted command ∉ finishWaiters waiters report := by
  simp [finishWaiters]

omit [DecidableEq κ] in
theorem not_ended_finishWaiters (waiters : List Nat) (report answer : CommandRunReport)
    (command : κ) : .executionEnded command answer ∉ finishWaiters waiters report := by
  simp [finishWaiters]

theorem executes_retire {u : State κ} {events : List (Event κ)}
    (remembered : u.lastFinished = s.lastFinished)
    (unstarted : ∀ command, .executionStarted command ∉ events)
    (unended : ∀ command report, .executionEnded command report ∉ events)
    (idle : ∀ command waiters, s.pc ≠ .running command waiters) :
    Executes s (retire u events).1 (retire u events).2 := by
  refine .none ?_ ?_ remembered fun command waiters running => absurd running (idle command waiters)
  · intro command
    simp [retire, cancelPending, finishWaiters, unstarted command]
  · intro command report
    simp [retire, cancelPending, finishWaiters, unended command report]

theorem executes_turn (turn : Turn runner s label t es) : Executes s t es := by
  cases turn with
  | executed command waiters hpc => exact .started command waiters hpc rfl rfl
  | finished command waiters result hpc => exact .ended command waiters _ hpc rfl rfl
  | stopped hpc | shutDown _ _ _ hpc | closed hpc =>
    exact executes_retire rfl (by simp) (by simp) (by simp [hpc])
  | coolingShutDown _ _ _ _ _ _ hpc | coolingClosed _ _ _ hpc =>
    exact executes_retire rfl (not_started_finishWaiters _ _)
      (fun command answer => not_ended_finishWaiters _ _ answer command) (by simp [hpc])
  | rejected _ _ hpc =>
    exact .none (not_started_finishWaiters _ _)
      (fun command answer => not_ended_finishWaiters _ _ answer command) rfl (by simp [hpc])
  | sent | sendersDropped | shutdownSet | shutdownDropped | advanced =>
    exact .none (by simp) (by simp) rfl fun _ _ running => running
  | headed hpc | emptied _ hpc | picked _ _ _ hpc | cooled _ _ _ _ hpc | drained _ _ hpc
  | drainEnded hpc | resumed hpc | notified _ _ _ hpc | received _ _ hpc | joined _ _ _ _ hpc
  | absorbed _ _ _ _ _ hpc | timed _ _ _ hpc | coolingNotified _ _ _ _ _ _ hpc =>
    exact .none (by simp) (by simp) rfl (by simp [hpc])

def Event.startsExecution : Event κ → Bool
  | .executionStarted _ => true
  | _ => false

/-- How many executions start. -/
def executionStarts (tr : List (Event κ)) : Nat := tr.countP Event.startsExecution

omit [DecidableEq κ] in
@[simp] theorem executionStarts_append (tr fs : List (Event κ)) :
    executionStarts (tr ++ fs) = executionStarts tr + executionStarts fs :=
  List.countP_append

omit [DecidableEq κ] in
theorem executionStarts_eq_zero (none : ∀ command, .executionStarted command ∉ es) :
    executionStarts es = 0 := by
  refine List.countP_eq_zero.mpr ?_
  intro event mem starts
  cases event with
  | executionStarted command => exact none command mem
  | _ => cases starts

end Lane

import Mailwake.LaneMoves

/-!
# A lane that is only asked for its own commands

If every request names a command of the lane, no name without a command is ever taken from
the pending set.
-/
namespace Lane
open Channel Transition
universe u
variable {κ : Type u} [DecidableEq κ]

/-- Whatever waits in the lane waits for one of its commands. -/
structure AllKnown (runner : CommandLaneRunner κ) (s : State κ) : Prop where
  queued : ∀ request ∈ s.requests.items, runner.command request.command ≠ none
  pending : ∀ command waiters, s.pending.waiters.lookup command = some waiters →
    runner.command command ≠ none

/-- A request that is sent names a command of the lane. -/
def AsksKnown (runner : CommandLaneRunner κ) : Label κ → Prop
  | .send command => runner.command command ≠ none
  | _ => True

variable {runner : CommandLaneRunner κ} {s t : State κ} {label : Label κ} {es : List (Event κ)}

/-- Whatever the lane holds, waits for or runs was asked of it. -/
structure Holding (asked : κ → Prop) (s : State κ) : Prop where
  queued : ∀ request ∈ s.requests.items, asked request.command
  pending : ∀ command waiters, s.pending.waiters.lookup command = some waiters → asked command
  current : ∀ command waiters, s.pc = .starting command waiters ∨ s.pc = .running command waiters ∨
    (∃ runAt, s.pc = .cooling command waiters runAt) → asked command

/-- What is asked of the lane. -/
def Asks (asked : κ → Prop) : Label κ → Prop
  | .send command => asked command
  | _ => True

section Holds
variable {asked : κ → Prop}

theorem holding_push (holds : Holding asked s) {request : CommandRequest κ}
    (wanted : asked request.command) {command : κ} {waiters : List Nat}
    (held : (s.pending.push request).waiters.lookup command = some waiters) : asked command := by
  by_cases same : command = request.command
  · rwa [same]
  · rw [PendingRequests.lookup_push_ne _ _ same] at held
    exact holds.pending command waiters held

theorem holding_pop (holds : Holding asked s) {name : κ} {pending : PendingRequests κ}
    (popped : s.pending.popNextCommand = (some name, pending)) {command : κ} {waiters : List Nat}
    (held : (pending.takeWaiters name).2.waiters.lookup command = some waiters) :
    asked command := by
  obtain ⟨_, -, -, left⟩ := PendingRequests.taken_of_pop popped
  rw [left] at held
  by_cases same : command = name
  · rw [same, AList.lookup_erase] at held
    cases held
  · rw [AList.lookup_erase_ne same] at held
    exact holds.pending command waiters held

theorem asked_of_pop (holds : Holding asked s) {name : κ} {pending : PendingRequests κ}
    (popped : s.pending.popNextCommand = (some name, pending)) : asked name := by
  obtain ⟨-, waiters, held⟩ := PendingRequests.popNextCommand_some popped
  exact holds.pending name waiters held

theorem holding_retire (s : State κ) (events : List (Event κ)) :
    Holding asked (retire s events).1 :=
  ⟨by simp [retire], by simp [retire, PendingRequests.empty], by simp [retire]⟩

theorem holding_turn (holds : Holding asked s) (asks : Asks asked label)
    (turn : Turn runner s label t es) : Holding asked t := by
  obtain ⟨queued, pending, current⟩ := holds
  have holds : Holding asked s := ⟨queued, pending, current⟩
  cases turn with
  | sent command requests _ sent =>
    refine ⟨?_, pending, current⟩
    intro request mem
    rw [(Mpsc.send_some sent).1] at mem
    rcases List.mem_append.mp mem with old | new
    · exact queued request old
    · obtain rfl := List.mem_singleton.mp new
      exact asks
  | headed =>
    refine ⟨queued, pending, ?_⟩
    intro command waiters
    dsimp only
    split <;> simp
  | emptied left _ popped =>
    have same := PendingRequests.popNextCommand_waiters s.pending
    rw [popped] at same
    exact ⟨queued, by rw [same]; exact pending, by simp⟩
  | rejected name left _ popped _ =>
    exact ⟨queued, fun _ _ => holding_pop holds popped, by simp⟩
  | picked name left command _ popped _ _ =>
    refine ⟨queued, fun _ _ => holding_pop holds popped, ?_⟩
    rintro c waiters (hpc | hpc | ⟨runAt, hpc⟩) <;> cases hpc
    exact asked_of_pop holds popped
  | cooled name left command runAt _ popped _ _ =>
    refine ⟨queued, fun _ _ => holding_pop holds popped, ?_⟩
    rintro c waiters (hpc | hpc | ⟨again, hpc⟩) <;> cases hpc
    exact asked_of_pop holds popped
  | executed command waiters hpc =>
    refine ⟨queued, pending, ?_⟩
    rintro c ws (h | h | ⟨runAt, h⟩) <;> cases h
    exact current command waiters (Or.inl hpc)
  | drained request rest _ items =>
    rw [items] at queued
    exact ⟨fun r mem => queued r (List.mem_cons_of_mem _ mem),
      fun _ _ => holding_push holds (queued request List.mem_cons_self), current⟩
  | received request requests _ items _ =>
    rw [items] at queued
    exact ⟨fun r mem => queued r (List.mem_cons_of_mem _ mem),
      fun _ _ => holding_push holds (queued request List.mem_cons_self), by simp⟩
  | joined request waiters runAt requests hpc items _ =>
    rw [items] at queued
    refine ⟨fun r mem => queued r (List.mem_cons_of_mem _ mem), pending, ?_⟩
    rintro c ws (h | h | ⟨again, h⟩) <;> cases h
    exact current request.command waiters (Or.inr (Or.inr ⟨runAt, hpc⟩))
  | absorbed request command waiters runAt requests _ _ items _ =>
    rw [items] at queued
    exact ⟨fun r mem => queued r (List.mem_cons_of_mem _ mem),
      fun _ _ => holding_push holds (queued request List.mem_cons_self), current⟩
  | stopped | shutDown | coolingShutDown | closed | coolingClosed => exact holding_retire _ _
  | coolingNotified command waiters runAt ok shutdown _ hpc _ =>
    refine ⟨queued, pending, ?_⟩
    rintro c ws (h | h | ⟨again, h⟩) <;> cases h
    exact current command waiters (Or.inr (Or.inr ⟨runAt, hpc⟩))
  | timed command waiters runAt hpc _ =>
    refine ⟨queued, pending, ?_⟩
    rintro c ws (h | h | ⟨again, h⟩) <;> cases h
    exact current command waiters (Or.inr (Or.inr ⟨runAt, hpc⟩))
  | sendersDropped | shutdownSet | shutdownDropped | advanced => exact ⟨queued, pending, current⟩
  | drainEnded | resumed | notified | finished => exact ⟨queued, pending, by simp⟩

theorem holding_start : Holding asked (.start : State κ) :=
  ⟨by simp [State.start, Mpsc.empty], by simp [State.start], by simp [State.start]⟩

end Holds

/-- The branch for an unknown command is never taken. -/
theorem known_of_pop {labels : List (Label κ)} {tr : List (Event κ)}
    (asks : ∀ label ∈ labels, AsksKnown runner label)
    (run : exec (step runner) .start labels = some (t, tr)) {name : κ}
    {pending : PendingRequests κ} (popped : t.pending.popNextCommand = (some name, pending)) :
    runner.command name ≠ none := by
  have held : Holding (fun command => runner.command command ≠ none) t := by
    have meets : Meets (step runner) (fun _ label => AsksKnown runner label) .start labels :=
      meets_of_each run fun taken label rest m es split _ => asks label (by simp [split])
    refine exec_state_invariant_of_meets ?_ holding_start meets run
    intro s label t es old asked h
    refine holding_turn old ?_ (turn_of_step h)
    cases label <;> exact asked
  have known : AllKnown runner t := ⟨held.queued, held.pending⟩
  obtain ⟨-, waiters, held⟩ := PendingRequests.popNextCommand_some popped
  exact known.pending name waiters held

end Lane

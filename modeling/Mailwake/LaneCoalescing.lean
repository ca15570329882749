import Mailwake.LaneCompletion
import Mailwake.LaneOrder

/-!
# Requests that one execution answers

Whoever has asked for a command before its execution starts is answered by it. What is in the
channel when an execution ends is drained before the lane goes on, so it is answered together.
-/
namespace Lane
open Channel CommandReport Transition
universe u
variable {κ : Type u} [DecidableEq κ]
variable {runner : CommandLaneRunner κ} {s t : State κ} {label : Label κ}
  {tr more es : List (Event κ)} {command : κ} {waiters : List Nat}

/-- A request is received for one command. -/
theorem received_unique (acc : Accounts runner tr s) {id : Nat} {one other : κ}
    (h : .received id one ∈ tr) (h' : .received id other ∈ tr) : one = other := by
  by_contra differs
  obtain ⟨before, after, rfl⟩ := List.append_of_mem h
  have rest : .received id other ∈ before ++ after := by
    rcases List.mem_append.mp h' with mem | mem
    · exact List.mem_append_left _ mem
    · rcases List.mem_cons.mp mem with same | mem
      · cases same
        exact absurd rfl differs
      · exact List.mem_append_right _ mem
  have again := receivedCount_pos rest
  have entry := acc.entry id
  have split : receivedCount (before ++ .received id one :: after) id =
      receivedCount (before ++ after) id + 1 := by
    simp [receivedCount, Event.isReceived]
    omega
  split at entry <;> omega

theorem started_turn (turn : Turn runner s label t es) (h : .executionStarted command ∈ es) :
    ∃ waiters, s.pc = .starting command waiters ∧ t.pc = .running command waiters ∧
      es = startWaiters waiters ++ [.executionStarted command] := by
  have lane : ∀ (waiters : List Nat) (report : CommandRunReport),
      .executionStarted command ∉ finishWaiters waiters report := by
    intro waiters report mem
    obtain ⟨_, -, other⟩ := List.mem_map.mp mem
    cases other
  have retired : ∀ (u : State κ) (events : List (Event κ)), .executionStarted command ∉ events →
      .executionStarted command ∉ (retire u events).2 := by
    intro u events absent mem
    rcases List.mem_append.mp mem with mem | closed
    · rcases List.mem_append.mp mem with mem | cancelled
      · exact absent mem
      · exact lane _ _ cancelled
    · obtain ⟨_, -, other⟩ := List.mem_map.mp closed
      cases other
  cases turn with
  | executed name waiters hpc =>
    rcases List.mem_append.mp h with mem | mem
    · obtain ⟨_, -, other⟩ := List.mem_map.mp mem
      cases other
    · cases List.mem_singleton.mp mem
      exact ⟨waiters, hpc, rfl, rfl⟩
  | sent | sendersDropped | shutdownSet | shutdownDropped | advanced | headed | emptied | picked
  | cooled | drainEnded | resumed | notified | coolingNotified | timed => cases h
  | drained | received | joined | absorbed => cases List.mem_singleton.mp h
  | rejected => exact absurd h (lane _ _)
  | stopped | shutDown | closed => exact absurd h (retired _ _ List.not_mem_nil)
  | coolingShutDown | coolingClosed => exact absurd h (retired _ _ (lane _ _))
  | finished name waiters result hpc =>
    rcases List.mem_append.mp h with mem | mem
    · cases List.mem_singleton.mp mem
    · exact absurd mem (lane _ _)

/-- Every request for a command that was received and not answered is among the waiters of its
execution. -/
theorem execution_takes_all (acc : Accounts runner tr s) (ordered : Ordered s)
    (hpc : s.pc = .starting command waiters) {id : Nat} (received : .received id command ∈ tr)
    (unanswered : finishedCount tr id = 0) : id ∈ waiters := by
  have claim : s.pc.claim = some (command, waiters) := by rw [hpc]; rfl
  have place := acc.place id
  have entry := acc.entry id
  have pos := receivedCount_pos received
  have here : 0 < s.pending.everyone.count id + s.pc.held.count id := by
    by_cases known : id < s.nextLifecycle
    · rw [if_pos known] at place entry
      omega
    · rw [if_neg known] at entry
      omega
  by_cases held : 0 < s.pc.held.count id
  · rw [held_of_claim claim] at held
    exact List.count_pos_iff.mp held
  · have mem : id ∈ s.pending.everyone := List.count_pos_iff.mp (by omega)
    obtain ⟨other, others, found, mem⟩ := PendingRequests.mem_everyone.mp mem
    have same : command = other :=
      received_unique acc received (acc.pendingOrigin other others id found mem)
    have queued : command ∈ s.pending.order :=
      (ordered.agree command).mpr (by rw [same, found]; rfl)
    exact absurd queued (ordered.apart command waiters claim)

/-- How far an execution has come: it runs, or it has answered all its waiters. -/
inductive Answering (command : κ) (waiters : List Nat) : List (Event κ) → State κ → Prop where
  | running {v : State κ} : v.pc = .running command waiters → Answering command waiters [] v
  | answered {v : State κ} (report : CommandRunReport) (after : List (Event κ)) :
      Answering command waiters
        (.executionEnded command report :: (finishWaiters waiters report ++ after)) v

theorem answering_turn (old : Answering command waiters more s) (turn : Turn runner s label t es) :
    Answering command waiters (more ++ es) t := by
  cases old with
  | answered report after =>
    rw [List.cons_append, List.append_assoc]
    exact .answered report (after ++ es)
  | running running =>
    rw [List.nil_append]
    cases turn with
    | sent | sendersDropped | shutdownSet | shutdownDropped | advanced => exact .running running
    | finished name others result hpc =>
      cases hpc.symm.trans running
      rw [← List.append_nil (finishWaiters waiters (executorReport result))]
      exact .answered (executorReport result) []
    | headed hpc | emptied _ hpc | rejected _ _ hpc | picked _ _ _ hpc | cooled _ _ _ _ hpc
    | executed _ _ hpc | drained _ _ hpc | drainEnded hpc | stopped hpc | resumed hpc
    | shutDown _ _ _ hpc | notified _ _ _ hpc | coolingShutDown _ _ _ _ _ _ hpc
    | coolingNotified _ _ _ _ _ _ hpc | received _ _ hpc | closed hpc | joined _ _ _ _ hpc
    | absorbed _ _ _ _ _ hpc | coolingClosed _ _ _ hpc | timed _ _ _ hpc =>
      cases hpc.symm.trans running

/-- No report has gone to any of them. -/
def Untouched (ids : List Nat) (more : List (Event κ)) : Prop :=
  ∀ id ∈ ids, finishedCount more id = 0

/-- What becomes of requests for a command that were in the channel when an execution ended:
they wait until the next execution of their command starts, and that one answers them all. -/
inductive FollowUp (command : κ) (ids : List Nat) : List (Event κ) → State κ → Prop where
  | waiting {more : List (Event κ)} {v : State κ} : executions command more = 0 →
      Untouched ids more → (∀ id ∈ ids, Unstarted command id v) →
      (v.pc = .draining ∨ ∀ id ∈ ids, ⟨command, id⟩ ∉ v.requests.items) →
      FollowUp command ids more v
  | started {before more : List (Event κ)} {waiters : List Nat} {v : State κ} :
      executions command before = 0 → Untouched ids before → (∀ id ∈ ids, id ∈ waiters) →
      Answering command waiters more v →
      FollowUp command ids
        (before ++ (startWaiters waiters ++ [.executionStarted command]) ++ more) v
  | dismissed {more : List (Event κ)} {v : State κ} : executions command more = 0 →
      v.pc = .returned → FollowUp command ids more v

theorem executions_eq_zero (h : .executionStarted command ∉ es) : executions command es = 0 := by
  refine List.countP_eq_zero.mpr ?_
  intro event mem started
  cases event with
  | executionStarted other =>
    have same : other = command := by simpa [Event.isExecution] using started
    exact h (same ▸ mem)
  | received | started | finished | closed | executionEnded => cases started

/-- Only `drain_requests` leaves the channel unread while requests of the past are in it. -/
theorem drained_turn {ids : List Nat} (fresh : ∀ id ∈ ids, id < s.nextLifecycle)
    (old : s.pc = .draining ∨ ∀ id ∈ ids, ⟨command, id⟩ ∉ s.requests.items)
    (turn : Turn runner s label t es) :
    t.pc = .draining ∨ ∀ id ∈ ids, ⟨command, id⟩ ∉ t.requests.items := by
  have fewer : (∀ request ∈ t.requests.items, request ∈ s.requests.items) → s.pc ≠ .draining →
      t.pc = .draining ∨ ∀ id ∈ ids, ⟨command, id⟩ ∉ t.requests.items := by
    intro subset running
    refine Or.inr fun id mem left => ?_
    exact (old.resolve_left running) id mem (subset _ left)
  cases turn with
  | sent name requests alive sent =>
    refine old.imp_right fun absent id mem left => ?_
    rw [(Mpsc.send_some sent).1] at left
    rcases List.mem_append.mp left with left | new
    · exact absent id mem left
    · cases List.mem_singleton.mp new
      exact absurd (fresh _ mem) (Nat.lt_irrefl _)
  | sendersDropped | shutdownSet | shutdownDropped | advanced => exact old
  | drained request rest hpc => exact Or.inl hpc
  | drainEnded hpc items =>
    refine Or.inr fun id mem left => ?_
    dsimp only at left
    rw [items] at left
    cases left
  | finished name waiters result hpc => exact Or.inl rfl
  | headed hpc | emptied _ hpc | rejected _ _ hpc | picked _ _ _ hpc | cooled _ _ _ _ hpc
  | executed _ _ hpc | resumed hpc | notified _ _ _ hpc
  | coolingNotified _ _ _ _ _ _ hpc | timed _ _ _ hpc =>
    exact fewer (fun _ mem => mem) (by simp [hpc])
  | received request requests hpc items | absorbed request _ _ _ requests hpc _ items
  | joined request _ _ requests hpc items =>
    exact fewer (fun _ mem => items ▸ List.mem_cons_of_mem _ mem) (by simp [hpc])
  | stopped | shutDown | coolingShutDown | closed | coolingClosed => exact Or.inr fun _ _ => nofun

/-- The waiters of the command that is about to start are all who wait for it. -/
theorem all_claimed {ids : List Nat} (ordered : Ordered s) (hpc : s.pc = .starting command waiters)
    (waits : ∀ id ∈ ids, Unstarted command id s)
    (drained : s.pc = .draining ∨ ∀ id ∈ ids, ⟨command, id⟩ ∉ s.requests.items) :
    ∀ id ∈ ids, id ∈ waiters := by
  intro id mem
  have claim : s.pc.claim = some (command, waiters) := by rw [hpc]; rfl
  cases waits id mem with
  | queued h => exact absurd h (drained.resolve_left (by simp [hpc]) id mem)
  | pending others held h =>
    have queued : command ∈ s.pending.order := (ordered.agree command).mpr (by rw [held]; rfl)
    exact absurd queued (ordered.apart command waiters claim)
  | claimed others claimed begun h =>
    cases claim.symm.trans claimed
    exact h

theorem followUp_turn {ids : List Nat} (known : runner.command command ≠ none)
    (acc : Accounts runner (tr ++ more) s) (ordered : Ordered s)
    (old : FollowUp command ids more s) (turn : Turn runner s label t es) :
    FollowUp command ids (more ++ es) t := by
  cases old with
  | waiting none untouched waits drained =>
    by_cases started : .executionStarted command ∈ es
    · obtain ⟨waiters, hpc, running, rfl⟩ := started_turn turn started
      rw [← List.append_nil (more ++ _)]
      exact .started none untouched (all_claimed ordered hpc waits drained) (.running running)
    · have quiet : executions command (more ++ es) = 0 := by
        rw [executions_append, none, executions_eq_zero started]
      by_cases returned : t.pc = .returned
      · exact .dismissed quiet returned
      · have next : Accounts runner (tr ++ (more ++ es)) t := by
          rw [← List.append_assoc]
          exact accounts_step acc (move_of_turn turn)
        have waits' : ∀ id ∈ ids, Unstarted command id t := fun id mem =>
          ((unstarted_move known (waits id mem) (move_of_turn turn)).resolve_left
            returned).resolve_left started
        refine .waiting quiet ?_ waits' ?_
        · intro id mem
          by_contra answered
          refine next.not_unstarted ?_ (waits' id mem)
          rw [finishedCount_append]
          omega
        · exact drained_turn (fun id mem => acc.lt_of_unstarted (waits id mem)) drained turn
  | started none untouched all answering =>
    rw [List.append_assoc]
    exact .started none untouched all (answering_turn answering turn)
  | dismissed none returned =>
    have quiet : .executionStarted command ∉ es := by
      intro started
      obtain ⟨waiters, hpc, -⟩ := started_turn turn started
      cases returned.symm.trans hpc
    refine .dismissed ?_ (returned_move returned (move_of_turn turn))
    rw [executions_append, none, executions_eq_zero quiet]

/-- The requests for a command that are in the channel. -/
def inChannel (s : State κ) (command : κ) : List Nat :=
  lifecycles (s.requests.items.filter fun request => request.command = command)

theorem mem_inChannel {id : Nat} : id ∈ inChannel s command ↔ ⟨command, id⟩ ∈ s.requests.items := by
  simp only [inChannel, lifecycles, List.mem_map, List.mem_filter, decide_eq_true_eq]
  constructor
  · rintro ⟨request, ⟨mem, rfl⟩, rfl⟩
    exact mem
  · exact fun mem => ⟨_, ⟨mem, rfl⟩, rfl⟩

section Runs
variable {labels : List (Label κ)}

theorem answering_run (start : Answering command waiters more s)
    (run : exec (step runner) s labels = some (t, es)) :
    Answering command waiters (more ++ es) t := by
  have meets : Meets (step runner) (fun _ _ => True) s labels :=
    meets_of_forall (fun _ _ => trivial) s labels
  exact exec_invariant_of_meets (P := fun more v => Answering command waiters more v)
    (fun _ _ _ _ _ old _ h => answering_turn old (turn_of_step h)) start meets run

theorem followUp_run (known : runner.command command ≠ none) (acc : Accounts runner tr s)
    (ordered : Ordered s) (hpc : s.pc = .draining)
    (run : exec (step runner) s labels = some (t, more)) :
    FollowUp command (inChannel s command) more t := by
  have start : FollowUp command (inChannel s command) [] s :=
    .waiting rfl (fun _ _ => rfl) (fun _ mem => .queued (mem_inChannel.mp mem)) (Or.inl hpc)
  have all : Accounts runner (tr ++ more) t ∧ Ordered t ∧
      FollowUp command (inChannel s command) more t := by
    refine exec_invariant (P := fun more v => Accounts runner (tr ++ more) v ∧ Ordered v ∧
      FollowUp command (inChannel s command) more v) ?_ ⟨?_, ordered, start⟩ run
    · rintro past u label v es ⟨acc, ordered, old⟩ h
      have turn := turn_of_step h
      refine ⟨?_, ordered_turn ordered turn, followUp_turn known acc ordered old turn⟩
      rw [← List.append_assoc]
      exact accounts_step acc (move_of_turn turn)
    · rwa [List.append_nil]
  exact all.2.2

/-- An execution answers everyone who has asked for its command before its start. What is in the
channel when an execution ends waits for one and the same execution. Commands are taken in the
order in which they became pending, and while one is pending no other starts twice. -/
theorem lane_coalesces_in_order (run : exec (step runner) State.start labels = some (s, tr)) :
    (∀ command label t es, step runner s label = some (t, es) → .executionStarted command ∈ es →
        ∃ waiters, (∀ id, .received id command ∈ tr → finishedCount tr id = 0 → id ∈ waiters) ∧
          ∀ after u more, exec (step runner) t after = some (u, more) →
            Answering command waiters more u) ∧
      (∀ command, runner.command command ≠ none → s.pc = .draining →
        ∀ after t more, exec (step runner) s after = some (t, more) →
          FollowUp command (inChannel s command) more t) ∧
      (noted (step runner) takenPending State.start labels <+:
          noted (step runner) becomePending State.start labels ∧
        (s.pc ≠ .returned → noted (step runner) becomePending State.start labels =
          noted (step runner) takenPending State.start labels ++ s.pending.order)) ∧
      ∀ command other after t more,
        Meets (step runner) (fun v _ => v.isPending command = true) s after →
          exec (step runner) s after = some (t, more) → executions other more ≤ 1 := by
  have acc := accounts_run run
  have ordered := ordered_run run
  refine ⟨?_, ?_, ?_, ?_⟩
  · intro command label t es h started
    obtain ⟨waiters, hpc, running, -⟩ := started_turn (turn_of_step h) started
    refine ⟨waiters, fun id received unanswered =>
      execution_takes_all acc ordered hpc received unanswered, ?_⟩
    intro after u more hm
    exact answering_run (.running running) hm
  · intro command known hpc after t more hm
    exact followUp_run known acc ordered hpc hm
  · exact taken_in_order ordered_start run
  · intro command other after t more waits hm
    exact (bypass_run other ordered waits hm).trans (Bool.toNat_le _)

end Runs

private def twoCommandLane : CommandLaneRunner Bool := ⟨[⟨true, 0⟩, ⟨false, 0⟩], 64⟩

/-- While a command runs, it is requested twice more, with another one in between. -/
private def busyLabels : List (Label Bool) :=
  [.send true, .proceed, .recv, .proceed, .proceed, .send true, .send false, .send true,
    .finish (.ok .wasCancelled)]

theorem busy_lane_coalesces :
    let r := (exec (step twoCommandLane) State.start busyLabels).get rfl
    inChannel r.1 true = [1, 3] ∧
      ∀ after t more, exec (step twoCommandLane) r.1 after = some (t, more) →
        FollowUp true [1, 3] more t := by
  have run := (Option.some_get
    (rfl : (exec (step twoCommandLane) State.start busyLabels).isSome = true)).symm
  exact ⟨rfl, (lane_coalesces_in_order run).2.1 true (by decide) rfl⟩

end Lane

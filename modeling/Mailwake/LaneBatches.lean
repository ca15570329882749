import Mailwake.Batching
import Mailwake.LaneProgress
import Mailwake.Simulation

/-!
# The lane as a server that works in batches

The order queue and the waiter map together stand for one queue of batches, and what a lane says
to its requesters is what a server of that queue says to them. Only the closing of channels whose
request was never received is the lane's own.
-/
namespace Lane
open CommandReport Transition
universe u
variable {κ : Type u} [DecidableEq κ]

/-- The lane knows the command. -/
def CommandLaneRunner.knows (runner : CommandLaneRunner κ) (name : κ) : Bool :=
  (runner.command name).isSome

/-- What the server has in hand at each place of the lane. -/
def Pc.job : Pc κ → Batching.Job κ Nat
  | .cooling command waiters _ | .starting command waiters => .held command waiters
  | .running command waiters => .serving command waiters
  | .returned => .closed
  | .outer | .idle | .dispatch | .draining | .checkShutdown => .free

/-- The order queue and the waiter map are the batches, apart. -/
structure Represents (p : PendingRequests κ) (q : Batching.Queue κ Nat) : Prop where
  order : q.keys = p.order
  waiters : ∀ command, q.find command = p.waiters.lookup command

structure Abstracts (s : State κ) (server : Batching.Server κ Nat) : Prop where
  queue : Represents s.pending server.queue
  job : server.job = s.pc.job

/-- A step of the server that the lane stands for. -/
def serve (runner : CommandLaneRunner κ) :
    Batching.Server κ Nat → Batching.Act κ Nat CommandRunReport →
      Option (Batching.Server κ Nat × List (Batching.Event κ Nat CommandRunReport)) :=
  Batching.Server.step runner.knows

/-- What a lane and the server it stands for both say. -/
def Event.visible : Event κ → List (Event κ)
  | .closed _ => []
  | event => [event]

def shown : Batching.Event κ Nat CommandRunReport → List (Event κ)
  | .opened command id | .joined command id => [.received id command]
  | .taken _ => []
  | .refused _ ids => finishWaiters ids (.error "unknown command")
  | .began command ids => startWaiters ids ++ [.executionStarted command]
  | .ended command ids report => [.executionEnded command report] ++ finishWaiters ids report
  | .withdrawn _ ids => finishWaiters ids .cancelled

variable {runner : CommandLaneRunner κ} {s t : State κ} {server : Batching.Server κ Nat}
  {label : Label κ} {es : List (Event κ)} {p q : PendingRequests κ}
  {batches : Batching.Queue κ Nat} {request : CommandRequest κ}

section Visible

omit [DecidableEq κ] in
theorem visible_finishWaiters (waiters : List Nat) (report : CommandRunReport) :
    (finishWaiters waiters report : List (Event κ)).flatMap Event.visible =
      finishWaiters waiters report := by
  induction waiters with
  | nil => rfl
  | cons id rest ih =>
    change _ :: _ = _
    exact congrArg _ ih

omit [DecidableEq κ] in
theorem visible_startWaiters (waiters : List Nat) :
    (startWaiters waiters : List (Event κ)).flatMap Event.visible = startWaiters waiters := by
  induction waiters with
  | nil => rfl
  | cons id rest ih => exact congrArg _ ih

omit [DecidableEq κ] in
theorem visible_closed (requests : List (CommandRequest κ)) :
    (requests.map fun r => (.closed r.lifecycle : Event κ)).flatMap Event.visible = [] := by
  induction requests with
  | nil => rfl
  | cons request rest ih => exact ih

end Visible

section Representation

theorem represents_empty : Represents (.empty : PendingRequests κ) .empty :=
  ⟨rfl, fun _ => rfl⟩

theorem Represents.held (h : Represents p batches) (command : κ) (queued : command ∈ p.order) :
    (p.waiters.lookup command).isSome = true := by
  rw [← h.waiters, batches.isSome_find, h.order]
  exact queued

theorem Represents.push (h : Represents p batches) (request : CommandRequest κ) :
    Represents (p.push request) (batches.join request.command request.lifecycle) := by
  refine ⟨?_, ?_⟩
  · rw [PendingRequests.order_push, batches.keys_join, ← h.waiters]
    simp only [batches.isSome_find, h.order]
  · intro command
    by_cases same : command = request.command
    · rw [same, PendingRequests.lookup_push_self, batches.find_join_self, h.waiters]
    · rw [PendingRequests.lookup_push_ne _ _ same, batches.find_join_ne same, h.waiters]

/-- The lane takes what the server takes. -/
theorem Represents.pop (h : Represents p batches) {name : κ}
    (popped : p.popNextCommand = (some name, q)) :
    ∃ rest, batches.pop = some (name, (q.takeWaiters name).1, rest) ∧
      Represents (q.takeWaiters name).2 rest := by
  have order := PendingRequests.order_of_pop h.held popped
  obtain ⟨waiters, held, taken, left⟩ := PendingRequests.taken_of_pop popped
  obtain ⟨ids, rest, first⟩ := Batching.Queue.pop_of_keys (h.order.trans order)
  obtain ⟨keys, found, absent, other⟩ := Batching.Queue.pop_some first
  rw [h.waiters, held] at found
  obtain rfl := Option.some.inj found
  refine ⟨rest, by rw [first, taken], ?_, ?_⟩
  · rw [h.order, order] at keys
    exact (List.cons.inj keys).2.symm
  · intro command
    rw [left]
    by_cases same : command = name
    · rw [same, AList.lookup_erase]
      refine Option.not_isSome_iff_eq_none.mp fun found => ?_
      exact absent ((rest.isSome_find name).mp found)
    · rw [AList.lookup_erase_ne same, other command same, h.waiters]

theorem Represents.everyone (h : Represents p batches) : p.everyone.Perm batches.everyone := by
  refine List.Perm.flatMap_right _ (List.lookup_ext p.waiters.nodupKeys batches.distinct ?_)
  intro command waiters
  have same := h.waiters command
  simp only [Batching.Queue.find, AList.lookup] at same
  rw [same]

end Representation

section Steps

/-- What one step of the lane is for the server. -/
def Served (runner : CommandLaneRunner κ) (server : Batching.Server κ Nat) (t : State κ)
    (es : List (Event κ)) : Prop :=
  ∃ acts server' es', exec (serve runner) server acts = some (server', es') ∧
    es.flatMap Event.visible = es'.flatMap shown ∧ Abstracts t server'

/-- The step moves nothing the server knows of. -/
theorem Served.still (h : Abstracts s server) (pending : t.pending = s.pending)
    (job : t.pc.job = s.pc.job) : Served runner server t [] :=
  ⟨[], server, [], rfl, rfl, pending ▸ h.queue, h.job.trans job.symm⟩

theorem Served.act {act : Batching.Act κ Nat CommandRunReport}
    {server' : Batching.Server κ Nat} {es' : List (Batching.Event κ Nat CommandRunReport)}
    (taken : serve runner server act = some (server', es'))
    (same : es.flatMap Event.visible = es'.flatMap shown) (h : Abstracts t server') :
    Served runner server t es :=
  ⟨[act], server', es' ++ [], exec_cons_some.mpr ⟨server', es', [], taken, rfl, rfl⟩,
    by rw [same, List.append_nil], h⟩

theorem served_enqueue (h : Abstracts s server)
    (spare : serve runner server (.arrive request.command request.lifecycle) =
      some (server.enqueue request.command request.lifecycle))
    (pending : t.pending = s.pending.push request) (job : t.pc.job = s.pc.job) :
    Served runner server t [.received request.lifecycle request.command] := by
  refine .act spare ?_ ⟨?_, h.job.trans job.symm⟩
  · by_cases waiting : request.command ∈ server.queue.keys
    · simp [waiting, shown, Event.visible]
    · simp [waiting, shown, Event.visible]
  · rw [pending]
    exact h.queue.push request

/-- With nothing in hand a request goes to the queue. -/
theorem served_received (h : Abstracts s server) (free : s.pc.job = .free)
    (pending : t.pending = s.pending.push request) (job : t.pc.job = .free) :
    Served runner server t [.received request.lifecycle request.command] := by
  refine served_enqueue h ?_ pending (job.trans free.symm)
  simp only [serve, Batching.Server.step, Batching.Server.arrive, h.job, free]

/-- The waiters of a command in its cooldown are told first, the others after them. -/
theorem served_retire (h : Abstracts s server) (held : List Nat)
    (hand : (s.pc.job = .free ∧ held = []) ∨ ∃ command, s.pc.job = .held command held) :
    Served runner server (retire s (finishWaiters held .cancelled)).1
      (retire s (finishWaiters held .cancelled)).2 := by
  have closes : serve runner server (.close (held ++ s.pending.everyone)) =
      some (⟨.empty, .closed⟩,
        [.withdrawn server.queue.keys (held ++ s.pending.everyone)]) := by
    rcases hand with ⟨free, rfl⟩ | ⟨command, claimed⟩
    · have everyone : ([] ++ s.pending.everyone).Perm server.waiting := by
        simpa [Batching.Server.waiting, h.job, free] using h.queue.everyone
      simp only [serve, Batching.Server.step, h.job, free, if_pos everyone]
    · have everyone : (held ++ s.pending.everyone).Perm server.waiting := by
        simp only [Batching.Server.waiting, h.job, claimed]
        exact h.queue.everyone.append_left held
      simp only [serve, Batching.Server.step, h.job, claimed, if_pos everyone]
  refine .act closes ?_ ⟨represents_empty, rfl⟩
  simp only [retire, cancelPending, List.flatMap_append, visible_finishWaiters, visible_closed]
  simp [shown, finishWaiters]

theorem served_take (h : Abstracts s server) {name : κ} {pending : PendingRequests κ}
    {command : LaneCommand κ} (hpc : s.pc = .dispatch)
    (popped : s.pending.popNextCommand = (some name, pending))
    (known : runner.command name = some command)
    (left : t.pending = (pending.takeWaiters name).2)
    (job : t.pc.job = .held name (pending.takeWaiters name).1) : Served runner server t [] := by
  obtain ⟨rest, first, batches⟩ := h.queue.pop popped
  have takes : serve runner server .take =
      some (⟨rest, .held name (pending.takeWaiters name).1⟩, [.taken name]) := by
    simp [serve, Batching.Server.step, Batching.Server.serveNext, h.job, hpc, Pc.job, first,
      CommandLaneRunner.knows, known]
  exact .act takes rfl ⟨left ▸ batches, job.symm⟩

theorem served_turn (h : Abstracts s server) (turn : Turn runner s label t es) :
    Served runner server t es := by
  have inHand := h.job
  cases turn with
  | sent | sendersDropped | shutdownSet | shutdownDropped | advanced => exact .still h rfl rfl
  | headed hpc =>
    refine .still h rfl ?_
    rw [hpc]
    cases s.pending.isEmpty <;> rfl
  | emptied pending hpc popped =>
    have none := PendingRequests.order_of_no_pop h.queue.held popped
    have kept := PendingRequests.popNextCommand_waiters s.pending
    rw [popped] at kept
    rw [hpc] at inHand
    refine ⟨[], server, [], rfl, rfl, ⟨?_, ?_⟩, inHand⟩
    · rw [h.queue.order, none.1, none.2]
    · intro command
      rw [h.queue.waiters, kept]
  | rejected name pending hpc popped unknown =>
    obtain ⟨rest, first, left⟩ := h.queue.pop popped
    have refuses : serve runner server .refuse =
        some (⟨rest, .free⟩, [.refused name (pending.takeWaiters name).1]) := by
      simp [serve, Batching.Server.step, Batching.Server.serveNext, inHand, hpc, Pc.job, first,
        CommandLaneRunner.knows, unknown]
    refine .act refuses ?_ ⟨left, rfl⟩
    rw [visible_finishWaiters]
    simp [shown]
  | picked name pending command hpc popped known _ =>
    exact served_take h hpc popped known rfl rfl
  | cooled name pending command runAt hpc popped known _ =>
    exact served_take h hpc popped known rfl rfl
  | executed command waiters hpc =>
    have begins : serve runner server .begin =
        some ({ server with job := .serving command waiters }, [.began command waiters]) := by
      simp only [serve, Batching.Server.step, inHand, hpc, Pc.job]
    refine .act begins ?_ ⟨h.queue, rfl⟩
    rw [List.flatMap_append, visible_startWaiters]
    simp [shown, Event.visible]
  | drained request rest hpc _ =>
    have free : s.pc.job = .free := by rw [hpc]; rfl
    exact served_received h free rfl free
  | drainEnded hpc _ | resumed hpc _ | notified _ _ _ hpc _ =>
    refine .still h rfl ?_
    rw [hpc]
    rfl
  | stopped hpc _ | closed hpc _ => exact served_retire h [] (Or.inl ⟨by rw [hpc]; rfl, rfl⟩)
  | shutDown ok shutdown _ hpc _ =>
    have free : s.pc.job = .free := by rw [hpc]; rfl
    have heard : Abstracts { s with shutdown := shutdown } server := ⟨h.queue, h.job⟩
    exact served_retire heard [] (Or.inl ⟨free, rfl⟩)
  | coolingShutDown command waiters runAt ok shutdown _ hpc _ =>
    have held : s.pc.job = .held command waiters := by rw [hpc]; rfl
    have heard : Abstracts { s with shutdown := shutdown } server := ⟨h.queue, h.job⟩
    exact served_retire heard waiters (Or.inr ⟨command, held⟩)
  | coolingClosed command waiters runAt hpc _ =>
    exact served_retire h waiters (Or.inr ⟨command, by rw [hpc]; rfl⟩)
  | coolingNotified command waiters runAt _ _ _ hpc _ | timed command waiters runAt hpc _ =>
    refine .still h rfl ?_
    rw [hpc]
    rfl
  | received request requests hpc _ _ => exact served_received h (by rw [hpc]; rfl) rfl rfl
  | joined request waiters runAt requests hpc _ _ =>
    have joins : serve runner server (.arrive request.command request.lifecycle) =
        some ({ server with job := .held request.command (waiters ++ [request.lifecycle]) },
          [.joined request.command request.lifecycle]) := by
      simp [serve, Batching.Server.step, Batching.Server.arrive, inHand, hpc, Pc.job]
    exact .act joins rfl ⟨h.queue, rfl⟩
  | absorbed request command waiters runAt requests hpc other _ _ =>
    refine served_enqueue h ?_ rfl rfl
    simp only [serve, Batching.Server.step, Batching.Server.arrive, inHand, hpc, Pc.job,
      if_neg other]
  | finished command waiters result hpc =>
    have completes : serve runner server (.complete (executorReport result)) =
        some ({ server with job := .free },
          [.ended command waiters (executorReport result)]) := by
      simp only [serve, Batching.Server.step, inHand, hpc, Pc.job]
    refine .act completes ?_ ⟨h.queue, rfl⟩
    rw [List.flatMap_append, visible_finishWaiters]
    simp [shown, Event.visible]

end Steps

/-- Every run of a lane is a run of the server: the batches leave in the order in which they were
opened, and the requesters are told the same, in the same order. -/
theorem lane_serves_batches_in_order {labels : List (Label κ)} {tr : List (Event κ)}
    (run : exec (step runner) .start labels = some (t, tr)) :
    ∃ acts server tr', exec (serve runner) .empty acts = some (server, tr') ∧
      tr.flatMap Event.visible = tr'.flatMap shown ∧ Abstracts t server ∧
      tr'.flatMap Batching.opening = tr'.flatMap Batching.leaving ++ t.pending.order := by
  obtain ⟨acts, server, tr', served, same, related⟩ :=
    Simulation.exec_simulated Abstracts Event.visible shown
      (fun _ _ _ _ _ related h => served_turn related (turn_of_step h))
      (⟨represents_empty, rfl⟩ : Abstracts .start .empty) run
  refine ⟨acts, server, tr', served, same, related, ?_⟩
  rw [← related.queue.order]
  exact Batching.opened_in_order served

private def exampleBatches : CommandLaneRunner Bool := ⟨[⟨true, 0⟩, ⟨false, 0⟩], 8⟩

/-- Two commands, of which one is asked for again while it waits. -/
private def exampleBatchLabels : List (Label Bool) :=
  [.send true, .proceed, .recv, .send false, .send true, .proceed, .proceed,
    .finish (.ok .wasCancelled), .proceed, .proceed, .proceed, .proceed]

theorem example_batches_leave_in_order : ∃ acts server tr',
    exec (serve exampleBatches) .empty acts = some (server, tr') ∧
      tr'.flatMap Batching.opening = tr'.flatMap Batching.leaving ++ [false, true] := by
  have ends : ((exec (step exampleBatches) .start exampleBatchLabels).map
      fun last => last.1.pending.order) = some [false, true] := by decide +kernel
  obtain ⟨⟨t, tr⟩, run, order⟩ := Option.map_eq_some_iff.mp ends
  obtain ⟨acts, server, tr', served, -, -, leave⟩ := lane_serves_batches_in_order run
  rw [order] at leave
  exact ⟨acts, server, tr', served, leave⟩

end Lane

import Mailwake.LaneExecutions
import Mailwake.LaneMoves

/-!
# The cooldown between two executions of a command

The lane remembers for each command when its last execution ended, and waits until the command's
interval has passed since then. What it receives meanwhile joins the wait or the pending set.
-/
namespace Lane
open Channel CommandReport Transition
universe u
variable {κ : Type u} [DecidableEq κ]

/-- Nothing but `true` is sent on the shutdown watch, and its sender stays alive. -/
def KeepsWatch : Label κ → Prop
  | .setShutdown value => value = true
  | .dropShutdown => False
  | _ => True

/-- The executions of one command keep its interval: one that starts again does so after the
earlier one has ended, and no sooner than the interval after that. -/
def KeepsInterval (runner : CommandLaneRunner κ) (before : List (Nat × Event κ)) :
    Nat × Event κ → Prop
  | (time, .executionStarted name) =>
    ∃ command, runner.command name = some command ∧
      ∀ earlier began between, before = earlier ++ (began, .executionStarted name) :: between →
        (∃ ended report, (ended, .executionEnded name report) ∈ between) ∧
          ∀ ended report, (ended, .executionEnded name report) ∈ between →
            ended + command.minInterval ≤ time
  | _ => True

def startsExecution (command : κ) (event : Nat × Event κ) : Prop :=
  event.2 = .executionStarted command

def endsExecution (command : κ) (event : Nat × Event κ) : Prop :=
  ∃ report, event.2 = .executionEnded command report

/-- The lane remembers every execution by the time at which the last of its command ended. -/
structure Remembers (tr : List (Nat × Event κ)) (s : State κ) : Prop where
  ended : ∀ ended command report, (ended, .executionEnded command report) ∈ tr →
    ∃ last, s.lastFinished command = some last ∧ ended ≤ last
  last : ∀ command last, s.lastFinished command = some last →
    last ≤ s.now ∧ ∃ report, (last, .executionEnded command report) ∈ tr
  alone : ∀ command, (∃ waiters, s.pc = .running command waiters) ∨
    FollowedBy (startsExecution command) (endsExecution command) tr

/-- The command that the lane waits for, or is about to start, has its interval. -/
structure Paced (runner : CommandLaneRunner κ) (s : State κ) : Prop where
  cooling : ∀ name waiters runAt, s.pc = .cooling name waiters runAt →
    ∃ command last, runner.command name = some command ∧ s.lastFinished name = some last ∧
      runAt = last + command.minInterval
  starting : ∀ name waiters, s.pc = .starting name waiters →
    ∃ command, runner.command name = some command ∧
      ∀ last, s.lastFinished name = some last → last + command.minInterval ≤ s.now

def Pc.isCooling : Pc κ → Bool
  | .cooling _ _ _ => true
  | _ => false

/-- The requests that are sent, with the lifecycle channels that they open. -/
def sentRequests : Nat → List (Label κ) → List (CommandRequest κ)
  | _, [] => []
  | next, .send command :: rest => ⟨command, next⟩ :: sentRequests (next + 1) rest
  | next, _ :: rest => sentRequests next rest

/-- The requests that the lane has taken from its queue. -/
def receipts (tr : List (Nat × Event κ)) : List (CommandRequest κ) :=
  tr.filterMap fun e =>
    match e.2 with
    | .received lifecycle command => some ⟨command, lifecycle⟩
    | _ => none

def lifecyclesOf (name : κ) (got : List (CommandRequest κ)) : List Nat :=
  (got.filter fun request => request.command = name).map (·.lifecycle)

/-- After a wait for `name` in which `got` was received, the pending set `p` has become `q`. -/
structure Kept (name : κ) (got : List (CommandRequest κ)) (p q : PendingRequests κ) : Prop where
  pushed : q = (got.filter fun request => request.command ≠ name).foldl .push p
  waiting : ∀ other, other ≠ name → (q.waiters.lookup other).getD [] =
    (p.waiters.lookup other).getD [] ++ lifecyclesOf other got
  order : ∃ new, q.order = p.order ++ new ∧ new.Sublist (got.map (·.command))

/-- What a wait has come to: it goes on with the deadline it began with, it is over at or after
that deadline, or the lane has returned. -/
inductive Waited (runner : CommandLaneRunner κ) (m : State κ) (name : κ) (waiters : List Nat)
    (runAt : Nat) (sent got : List (CommandRequest κ)) (t : State κ) : Prop where
  | cooling : t.pc = .cooling name (waiters ++ lifecyclesOf name got) runAt →
      Kept name got m.pending t.pending → m.requests.items ++ sent = got ++ t.requests.items →
      (runAt ≤ t.now → (step runner t .timer).isSome) →
      Waited runner m name waiters runAt sent got t
  | elapsed : t.pc = .starting name (waiters ++ lifecyclesOf name got) → runAt ≤ t.now →
      Kept name got m.pending t.pending → m.requests.items ++ sent = got ++ t.requests.items →
      Waited runner m name waiters runAt sent got t
  | returned : t.pc = .returned → Waited runner m name waiters runAt sent got t

variable {runner : CommandLaneRunner κ} {s t : State κ} {label : Label κ} {es : List (Event κ)}

theorem heeded_turn (old : s.shutdown.Heeded) (keeps : KeepsWatch label)
    (turn : Turn runner s label t es) : t.shutdown.Heeded := by
  cases turn with
  | shutdownSet value =>
    obtain rfl : value = true := keeps
    exact old.send_true
  | shutdownDropped => exact keeps.elim
  | shutDown ok shutdown change | notified ok shutdown change => exact (old.changed change).2
  | coolingShutDown command waiters runAt ok shutdown change
  | coolingNotified command waiters runAt ok shutdown change => exact (old.changed change).2
  | _ => exact old

theorem clock_turn (turn : Turn runner s label t es) : s.now ≤ t.now := by
  cases turn with
  | advanced duration => exact Nat.le_add_right _ _
  | _ => exact le_rfl

theorem command_name {name : κ} {command : LaneCommand κ}
    (known : runner.command name = some command) : command.name = name := by
  simpa using List.find?_some known

omit [DecidableEq κ] in
theorem coolUntil_some {command : LaneCommand κ} {runAt : Nat}
    (wait : coolUntil s command = some runAt) :
    ∃ last, s.lastFinished command.name = some last ∧ runAt = last + command.minInterval := by
  unfold coolUntil at wait
  split at wait
  · cases wait
  · rename_i last remembered
    split at wait
    · cases wait
    · split at wait
      · cases wait
      · exact ⟨last, remembered, (Option.some.inj wait).symm⟩

omit [DecidableEq κ] in
theorem coolUntil_none {command : LaneCommand κ} {last : Nat} (free : coolUntil s command = none)
    (remembered : s.lastFinished command.name = some last) (past : last ≤ s.now) :
    last + command.minInterval ≤ s.now := by
  rw [coolUntil, remembered] at free
  dsimp only at free
  split at free
  · omega
  · split at free
    · assumption
    · cases free

theorem paced_idle (cooling : ∀ name waiters runAt, s.pc ≠ .cooling name waiters runAt)
    (starting : ∀ name waiters, s.pc ≠ .starting name waiters) : Paced runner s :=
  ⟨fun name waiters runAt hpc => absurd hpc (cooling name waiters runAt),
    fun name waiters hpc => absurd hpc (starting name waiters)⟩

/-- The task stays where it is, while time may pass. -/
theorem Paced.still (old : Paced runner s) (pc : t.pc = s.pc)
    (remembered : t.lastFinished = s.lastFinished) (later : s.now ≤ t.now) : Paced runner t := by
  constructor
  · intro name waiters runAt hpc
    rw [remembered]
    exact old.cooling name waiters runAt (pc ▸ hpc)
  · intro name waiters hpc
    obtain ⟨command, known, passed⟩ := old.starting name waiters (pc ▸ hpc)
    refine ⟨command, known, ?_⟩
    intro last ended
    exact (passed last (remembered ▸ ended)).trans later

theorem paced_turn (old : Paced runner s) (heeded : s.shutdown.Heeded)
    (past : ∀ command last, s.lastFinished command = some last → last ≤ s.now)
    (turn : Turn runner s label t es) : Paced runner t := by
  cases turn with
  | picked name pending command hpc popped known free =>
    refine ⟨by simp, ?_⟩
    intro other waiters same
    cases same
    obtain rfl := command_name known
    exact ⟨command, known, fun last ended => coolUntil_none free ended (past _ _ ended)⟩
  | cooled name pending command runAt hpc popped known wait =>
    refine ⟨?_, by simp⟩
    intro other waiters due same
    cases same
    obtain rfl := command_name known
    obtain ⟨last, ended, sum⟩ := coolUntil_some wait
    exact ⟨command, last, known, ended, sum⟩
  | joined request waiters runAt requests hpc =>
    refine ⟨?_, by simp⟩
    intro name others due same
    cases same
    exact old.cooling request.command waiters runAt hpc
  | timed command waiters runAt hpc due =>
    refine ⟨by simp, ?_⟩
    intro name others same
    cases same
    obtain ⟨entry, last, known, ended, rfl⟩ := old.cooling command waiters runAt hpc
    refine ⟨entry, known, ?_⟩
    intro other again
    obtain rfl := Option.some.inj (ended.symm.trans again)
    exact due
  | coolingNotified command waiters runAt ok shutdown change hpc vain =>
    rw [Watch.changed_untrue change, (heeded.changed change).1] at vain
    cases vain
  | sent | sendersDropped | shutdownSet | shutdownDropped => exact old.still rfl rfl le_rfl
  | advanced duration => exact old.still rfl rfl (Nat.le_add_right _ _)
  | absorbed | drained => exact old.still rfl rfl le_rfl
  | headed => apply paced_idle <;> (intros; dsimp only; split <;> simp)
  | stopped | shutDown | coolingShutDown | closed | coolingClosed =>
    exact paced_idle (by simp [retire]) (by simp [retire])
  | emptied | rejected | executed | drainEnded | resumed | notified | received | finished =>
    exact paced_idle (by simp) (by simp)

section Stamps
variable {tr : List (Nat × Event κ)}

theorem remembered_turn (old : Remembers tr s) (turn : Turn runner s label t es) {ended : Nat}
    {name : κ} {answer : CommandRunReport}
    (mem : (ended, .executionEnded name answer) ∈ tr ++ es.map fun e => (s.now, e)) :
    ∃ last, t.lastFinished name = some last ∧ ended ≤ last := by
  cases executes_turn turn with
  | none _ unended remembered _ =>
    rw [remembered]
    rcases List.mem_append.mp mem with mem | new
    · exact old.ended ended name answer mem
    · exact absurd (mem_stamps new).2 (unended name answer)
  | started command waiters hpc ht hes =>
    subst ht hes
    rcases List.mem_append.mp mem with mem | new
    · exact old.ended ended name answer mem
    · simp [startWaiters] at new
  | ended command waiters report hpc ht hes =>
    subst ht hes
    by_cases same : name = command
    · refine ⟨s.now, by simp [same], ?_⟩
      rcases List.mem_append.mp mem with mem | new
      · obtain ⟨last, remembered, before⟩ := old.ended ended name answer mem
        exact before.trans (old.last name last remembered).1
      · exact (mem_stamps new).1.le
    · rcases List.mem_append.mp mem with mem | new
      · simpa [same] using old.ended ended name answer mem
      · simp [finishWaiters, same] at new

theorem last_turn (old : Remembers tr s) (turn : Turn runner s label t es) {name : κ} {last : Nat}
    (remembered : t.lastFinished name = some last) :
    last ≤ t.now ∧
      ∃ report, (last, .executionEnded name report) ∈ tr ++ es.map fun e => (s.now, e) := by
  have kept : s.lastFinished name = some last → last ≤ t.now ∧
      ∃ report, (last, .executionEnded name report) ∈ tr ++ es.map fun e => (s.now, e) := by
    intro before
    obtain ⟨past, report, mem⟩ := old.last name last before
    exact ⟨past.trans (clock_turn turn), report, List.mem_append_left _ mem⟩
  cases executes_turn turn with
  | none _ _ same _ =>
    rw [same] at remembered
    exact kept remembered
  | started command waiters hpc ht _ =>
    subst ht
    exact kept remembered
  | ended command waiters report hpc ht hes =>
    subst ht hes
    by_cases same : name = command
    · obtain rfl : s.now = last := by simpa [same] using remembered
      exact ⟨le_rfl, report, by simp [same]⟩
    · exact kept (by simpa [same] using remembered)

theorem alone_turn (old : Remembers tr s) (turn : Turn runner s label t es) (name : κ) :
    (∃ waiters, t.pc = .running name waiters) ∨
      FollowedBy (startsExecution name) (endsExecution name)
        (tr ++ es.map fun e => (s.now, e)) := by
  cases executes_turn turn with
  | none unstarted _ _ running =>
    rcases old.alone name with ⟨waiters, now⟩ | answered
    · exact Or.inl ⟨waiters, running name waiters now⟩
    · refine Or.inr (answered.append ?_)
      rintro ⟨time, event⟩ mem rfl
      exact unstarted name (mem_stamps mem).2
  | started command waiters hpc ht hes =>
    subst ht hes
    by_cases same : name = command
    · exact Or.inl ⟨waiters, by rw [same]⟩
    · rcases old.alone name with ⟨others, now⟩ | answered
      · rw [hpc] at now
        cases now
      · refine Or.inr (answered.append ?_)
        rintro ⟨time, event⟩ mem rfl
        simp [startWaiters, same] at mem
  | ended command waiters report hpc ht hes =>
    subst ht hes
    have silent : ∀ x ∈ ([Event.executionEnded command report] ++
        finishWaiters waiters report).map (fun e => (s.now, e)), ¬ startsExecution name x := by
      rintro ⟨time, event⟩ mem rfl
      simp [finishWaiters] at mem
    by_cases same : name = command
    · exact Or.inr (followedBy_append_answer
        ⟨(s.now, .executionEnded command report), by simp, report, by rw [same]⟩ silent)
    · rcases old.alone name with ⟨others, now⟩ | answered
      · rw [hpc] at now
        cases now
        exact absurd rfl same
      · exact Or.inr (answered.append silent)

theorem remembers_turn (old : Remembers tr s) (turn : Turn runner s label t es) :
    Remembers (tr ++ es.map fun e => (s.now, e)) t :=
  ⟨fun _ _ _ mem => remembered_turn old turn mem, fun _ _ remembered => last_turn old turn remembered,
    fun name => alone_turn old turn name⟩

theorem keepsInterval_of_ne {before : List (Nat × Event κ)} {time : Nat} {event : Event κ}
    (other : ∀ command, event ≠ .executionStarted command) :
    KeepsInterval runner before (time, event) := by
  cases event with
  | executionStarted command => exact absurd rfl (other command)
  | _ => trivial

/-- Whatever the lane remembers, a command that is about to start has its interval. -/
theorem keepsInterval_start (old : Remembers tr s) (paced : Paced runner s) {name : κ}
    {waiters : List Nat} (hpc : s.pc = .starting name waiters) {before : List (Nat × Event κ)}
    (silent : ∀ x ∈ before, ∃ waiter, x = (s.now, .started waiter)) :
    KeepsInterval runner (tr ++ before) (s.now, .executionStarted name) := by
  obtain ⟨command, known, passed⟩ := paced.starting name waiters hpc
  refine ⟨command, known, ?_⟩
  intro earlier began between split
  constructor
  · rcases old.alone name with ⟨others, now⟩ | answered
    · rw [hpc] at now
      cases now
    · have all : FollowedBy (startsExecution name) (endsExecution name) (tr ++ before) := by
        refine answered.append ?_
        intro x mem starts
        obtain ⟨waiter, rfl⟩ := silent x mem
        cases starts
      obtain ⟨⟨ended, event⟩, mem, report, rfl⟩ := all earlier _ between split rfl
      exact ⟨ended, report, mem⟩
  · intro ended report mem
    have seen : (ended, .executionEnded name report) ∈ tr ++ before := by
      rw [split]
      exact List.mem_append_right _ (List.mem_cons_of_mem _ mem)
    rcases List.mem_append.mp seen with seen | new
    · obtain ⟨last, remembered, sooner⟩ := old.ended ended name report seen
      have due := passed last remembered
      omega
    · obtain ⟨waiter, same⟩ := silent _ new
      cases same

theorem keepsInterval_turn (all : AtEach (KeepsInterval runner) tr) (old : Remembers tr s)
    (paced : Paced runner s) (turn : Turn runner s label t es) :
    AtEach (KeepsInterval runner) (tr ++ es.map fun e => (s.now, e)) := by
  cases executes_turn turn with
  | none unstarted =>
    refine all.append_quiet ?_
    intro x mem before
    obtain ⟨e, he, rfl⟩ := List.mem_map.mp mem
    exact keepsInterval_of_ne fun command same => unstarted command (same ▸ he)
  | started command waiters hpc ht hes =>
    subst hes
    have silent : ∀ x ∈ (startWaiters waiters).map (fun e : Event κ => (s.now, e)),
        ∃ waiter, x = (s.now, .started waiter) := by
      intro x mem
      simp only [startWaiters, List.map_map, List.mem_map] at mem
      obtain ⟨waiter, -, rfl⟩ := mem
      exact ⟨waiter, rfl⟩
    have told : AtEach (KeepsInterval runner)
        (tr ++ (startWaiters waiters).map fun e : Event κ => (s.now, e)) := by
      refine all.append_quiet ?_
      intro x mem before
      obtain ⟨waiter, rfl⟩ := silent x mem
      exact keepsInterval_of_ne (by simp)
    rw [List.map_append, ← List.append_assoc]
    exact told.append_one (keepsInterval_start old paced hpc silent)
  | ended command waiters report hpc ht hes =>
    subst hes
    refine all.append_quiet ?_
    intro x mem before
    obtain ⟨e, he, rfl⟩ := List.mem_map.mp mem
    refine keepsInterval_of_ne ?_
    rintro name rfl
    simp [finishWaiters] at he

end Stamps

section Waiting

omit [DecidableEq κ] in
@[simp] theorem receipts_append (one two : List (Nat × Event κ)) :
    receipts (one ++ two) = receipts one ++ receipts two :=
  List.filterMap_append ..

@[simp] theorem lifecyclesOf_append (name : κ) (one two : List (CommandRequest κ)) :
    lifecyclesOf name (one ++ two) = lifecyclesOf name one ++ lifecyclesOf name two := by
  simp [lifecyclesOf]

theorem lookup_foldl_push (p : PendingRequests κ) (got : List (CommandRequest κ)) (name : κ) :
    ((got.foldl .push p).waiters.lookup name).getD [] =
      (p.waiters.lookup name).getD [] ++ lifecyclesOf name got := by
  induction got generalizing p with
  | nil => simp [lifecyclesOf]
  | cons request rest ih =>
    rw [List.foldl_cons, ih (p.push request)]
    by_cases same : request.command = name
    · subst same
      simp [PendingRequests.lookup_push_self, lifecyclesOf]
    · rw [PendingRequests.lookup_push_ne p request (Ne.symm same)]
      simp [lifecyclesOf, same]

theorem order_foldl_push (p : PendingRequests κ) (got : List (CommandRequest κ)) :
    ∃ new, (got.foldl .push p).order = p.order ++ new ∧ new.Sublist (got.map (·.command)) := by
  induction got generalizing p with
  | nil => exact ⟨[], by simp, .slnil⟩
  | cons request rest ih =>
    obtain ⟨new, appended, sub⟩ := ih (p.push request)
    rw [List.foldl_cons, appended]
    cases held : p.waiters.lookup request.command with
    | none =>
      exact ⟨request.command :: new, by simp [PendingRequests.push, held], sub.cons_cons _⟩
    | some waiters => exact ⟨new, by simp [PendingRequests.push, held], sub.cons _⟩

theorem kept_of_pushed {name : κ} {got : List (CommandRequest κ)} {p q : PendingRequests κ}
    (pushed : q = (got.filter fun request => request.command ≠ name).foldl .push p) :
    Kept name got p q := by
  refine ⟨pushed, ?_, ?_⟩
  · intro other ne
    have same : lifecyclesOf other (got.filter fun request => request.command ≠ name) =
        lifecyclesOf other got := by
      rw [lifecyclesOf, lifecyclesOf, List.filter_filter]
      congr 1
      refine List.filter_congr ?_
      intro request _
      by_cases wanted : request.command = other <;> simp [wanted, ne]
    rw [pushed, lookup_foldl_push, same]
  · obtain ⟨new, appended, sub⟩ := order_foldl_push p
      (got.filter fun request => request.command ≠ name)
    exact ⟨new, by rw [pushed, appended], sub.trans (List.filter_sublist.map _)⟩

theorem Kept.trans {name : κ} {one two : List (CommandRequest κ)} {p q r : PendingRequests κ}
    (first : Kept name one p q) (second : Kept name two q r) : Kept name (one ++ two) p r := by
  apply kept_of_pushed
  rw [List.filter_append, List.foldl_append, ← first.pushed]
  exact second.pushed

theorem sentRequests_cons (turn : Turn runner s label t es) (rest : List (Label κ)) :
    sentRequests s.nextLifecycle (label :: rest) =
      sentRequests s.nextLifecycle [label] ++ sentRequests t.nextLifecycle rest := by
  cases turn <;> simp [sentRequests, retire, taken]

variable {m : State κ} {name : κ} {waiters : List Nat} {runAt : Nat}
  {sent got more : List (CommandRequest κ)}

theorem timer_enabled (hpc : s.pc = .cooling name waiters runAt) (due : runAt ≤ s.now) :
    (step runner s .timer).isSome := by
  simp [step, timer, hpc, due]

/-- A wait that has not ended goes on as one wait. -/
theorem Waited.trans {asked : List (CommandRequest κ)} (kept : Kept name got s.pending m.pending)
    (queue : s.requests.items ++ sent = got ++ m.requests.items)
    (rest : Waited runner m name (waiters ++ lifecyclesOf name got) runAt asked more t) :
    Waited runner s name waiters runAt (sent ++ asked) (got ++ more) t := by
  have joined : (waiters ++ lifecyclesOf name got) ++ lifecyclesOf name more =
      waiters ++ lifecyclesOf name (got ++ more) := by
    simp
  have queued (h : m.requests.items ++ asked = more ++ t.requests.items) :
      s.requests.items ++ (sent ++ asked) = (got ++ more) ++ t.requests.items := by
    rw [← List.append_assoc, queue, List.append_assoc, h, List.append_assoc]
  cases rest with
  | cooling hpc later items enabled =>
    exact .cooling (joined ▸ hpc) (kept.trans later) (queued items) enabled
  | elapsed hpc due later items => exact .elapsed (joined ▸ hpc) due (kept.trans later) (queued items)
  | returned hpc => exact .returned hpc

theorem waited_still (pc : t.pc = s.pc) (pending : t.pending = s.pending)
    (hpc : s.pc = .cooling name waiters runAt)
    (queue : s.requests.items ++ sent = t.requests.items) :
    Waited runner s name waiters runAt sent [] t := by
  have here : t.pc = .cooling name waiters runAt := pc.trans hpc
  refine .cooling (by simpa [lifecyclesOf] using here) (kept_of_pushed pending) queue ?_
  exact timer_enabled here

/-- One step of a lane that waits. -/
theorem waited_turn (heeded : s.shutdown.Heeded) (hpc : s.pc = .cooling name waiters runAt)
    (turn : Turn runner s label t es) :
    Waited runner s name waiters runAt (sentRequests s.nextLifecycle [label])
      (receipts (es.map fun e => (s.now, e))) t := by
  cases turn with
  | sent command requests _ sent => exact waited_still rfl rfl hpc (Mpsc.send_some sent).1.symm
  | sendersDropped | shutdownSet | shutdownDropped | advanced =>
    exact waited_still rfl rfl hpc (List.append_nil _)
  | joined request others due requests here items _ =>
    cases here.symm.trans hpc
    refine .cooling ?_ (kept_of_pushed ?_) ?_ ?_
    · simp [receipts, lifecyclesOf]
    · simp [receipts]
    · simp [receipts, sentRequests, items]
    · exact timer_enabled rfl
  | absorbed request command others due requests here other items _ =>
    cases here.symm.trans hpc
    refine .cooling ?_ (kept_of_pushed ?_) ?_ ?_
    · simp [receipts, lifecyclesOf, other, hpc]
    · simp [receipts, other]
    · simp [receipts, sentRequests, items]
    · exact timer_enabled hpc
  | timed command others due here passed =>
    cases here.symm.trans hpc
    exact .elapsed (by simp [receipts, lifecyclesOf]) passed (kept_of_pushed rfl)
      (by simp [receipts, sentRequests])
  | coolingNotified command others due ok shutdown change here vain =>
    rw [Watch.changed_untrue change, (heeded.changed change).1] at vain
    cases vain
  | coolingShutDown | coolingClosed => exact .returned rfl
  | headed here | emptied _ here | rejected _ _ here | picked _ _ _ here | cooled _ _ _ _ here
  | executed _ _ here | drained _ _ here | drainEnded here | stopped here | resumed here
  | shutDown _ _ _ here | notified _ _ _ here | received _ _ here | closed here
  | finished _ _ _ here => cases here.symm.trans hpc

theorem waited_run {labels : List (Label κ)} {fs : List (Nat × Event κ)}
    (heeded : s.shutdown.Heeded) (keeps : ∀ label ∈ labels, KeepsWatch label)
    (hpc : s.pc = .cooling name waiters runAt)
    (waits : Meets (stamped State.now (step runner)) (fun u _ => u.pc.isCooling = true) s labels)
    (run : exec (stamped State.now (step runner)) s labels = some (t, fs)) :
    Waited runner s name waiters runAt (sentRequests s.nextLifecycle labels) (receipts fs) t := by
  induction labels generalizing s waiters fs with
  | nil =>
    obtain ⟨rfl, rfl⟩ : s = t ∧ [] = fs := by simpa using run
    exact waited_still rfl rfl hpc (List.append_nil _)
  | cons label rest ih =>
    obtain ⟨m, marked, later, hm, hr, rfl⟩ := exec_cons_some.mp run
    have still := waits.2 m marked hm
    obtain ⟨es, h, rfl⟩ := stamped_some.mp hm
    have turn := turn_of_step h
    have first := waited_turn heeded hpc turn
    have stays := heeded_turn heeded (keeps label List.mem_cons_self) turn
    rw [sentRequests_cons turn, receipts_append]
    -- A lane that has left the wait has no further step to take here.
    have ended (left : m.pc.isCooling = false) : rest = [] := by
      cases rest with
      | nil => rfl
      | cons label rest =>
        have cooling : m.pc.isCooling = true := still.1
        rw [left] at cooling
        cases cooling
    cases first with
    | cooling here kept queue _ =>
      exact .trans kept queue
        (ih stays (fun label mem => keeps label (List.mem_cons_of_mem _ mem)) here still hr)
    | elapsed here due kept queue =>
      obtain rfl := ended (by rw [here]; rfl)
      obtain ⟨rfl, rfl⟩ : m = t ∧ [] = later := by simpa using hr
      exact .elapsed (by simpa [receipts] using here) due (by simpa [receipts] using kept)
        (by simpa [receipts, sentRequests] using queue)
    | returned here =>
      obtain rfl := ended (by rw [here]; rfl)
      obtain ⟨rfl, rfl⟩ : m = t ∧ [] = later := by simpa using hr
      exact .returned here

end Waiting

/-- What a lane keeps while only `true` is sent on its shutdown watch. -/
structure Cooldown (runner : CommandLaneRunner κ) (tr : List (Nat × Event κ)) (s : State κ) :
    Prop where
  heeded : s.shutdown.Heeded
  paced : Paced runner s
  remembers : Remembers tr s
  intervals : AtEach (KeepsInterval runner) tr

theorem cooldown_start : Cooldown runner [] (.start : State κ) := by
  refine ⟨Watch.heeded_start false, paced_idle (by simp [State.start]) (by simp [State.start]),
    ⟨by simp, ?_, fun _ => Or.inr followedBy_nil⟩, atEach_nil⟩
  intro command last remembered
  cases remembered

theorem cooldown_run {labels : List (Label κ)} {tr : List (Nat × Event κ)}
    (keeps : ∀ label ∈ labels, KeepsWatch label)
    (run : exec (stamped State.now (step runner)) .start labels = some (t, tr)) :
    Cooldown runner tr t := by
  have meets : Meets (stamped State.now (step runner)) (fun _ label => KeepsWatch label) .start
      labels :=
    meets_of_each run fun taken label rest m es split _ => keeps label (by simp [split])
  have kept : Cooldown runner ([] ++ tr) t := by
    refine exec_invariant_of_meets ?_ cooldown_start meets run
    intro past s label u es old keeps hs
    obtain ⟨fs, h, rfl⟩ := stamped_some.mp hs
    have turn := turn_of_step h
    have past : ∀ command last, s.lastFinished command = some last → last ≤ s.now :=
      fun command last ended => (old.remembers.last command last ended).1
    exact ⟨heeded_turn old.heeded keeps turn, paced_turn old.paced old.heeded past turn,
      remembers_turn old.remembers turn,
      keepsInterval_turn old.intervals old.remembers old.paced turn⟩
  exact kept

/-- While nothing but `true` is sent on the shutdown watch, the executions of a command keep its
interval. A wait is for the end of the interval after the last execution, whatever is received
meanwhile, and what is received for other commands is pending when the wait is over. -/
theorem cooldown_law {labels : List (Label κ)} {tr : List (Nat × Event κ)}
    (keeps : ∀ label ∈ labels, KeepsWatch label)
    (run : exec (stamped State.now (step runner)) .start labels = some (t, tr)) :
    AtEach (KeepsInterval runner) tr ∧
      ∀ taken waiting rest m es n fs name waiters runAt, labels = taken ++ waiting ++ rest →
        exec (stamped State.now (step runner)) .start taken = some (m, es) →
        m.pc = .cooling name waiters runAt →
        exec (stamped State.now (step runner)) m waiting = some (n, fs) →
        Meets (stamped State.now (step runner)) (fun u _ => u.pc.isCooling = true) m waiting →
        (∃ command ended report, runner.command name = some command ∧
          (ended, .executionEnded name report) ∈ es ∧
          (∀ before answer, (before, .executionEnded name answer) ∈ es → before ≤ ended) ∧
          runAt = ended + command.minInterval) ∧
        Waited runner m name waiters runAt (sentRequests m.nextLifecycle waiting) (receipts fs)
          n := by
  refine ⟨(cooldown_run keeps run).intervals, ?_⟩
  rintro taken waiting rest m es n fs name waiters runAt rfl first hpc wait waits
  have reached : Cooldown runner es m :=
    cooldown_run (fun label mem => keeps label (by simp [mem])) first
  constructor
  · obtain ⟨command, ended, known, remembered, due⟩ := reached.paced.cooling name waiters runAt hpc
    obtain ⟨-, report, mem⟩ := reached.remembers.last name ended remembered
    refine ⟨command, ended, report, known, mem, ?_, due⟩
    intro before answer earlier
    obtain ⟨last, same, sooner⟩ := reached.remembers.ended before name answer earlier
    rw [remembered] at same
    cases same
    exact sooner
  · exact waited_run reached.heeded (fun label mem => keeps label (by simp [mem])) hpc waits wait

private def slowLane : CommandLaneRunner Bool := ⟨[⟨true, 5⟩, ⟨false, 0⟩], 64⟩

/-- A command has run for two units of time and is asked for again. -/
private def firstExecution : List (Label Bool) :=
  [.send true, .proceed, .recv, .proceed, .proceed, .advance 2, .finish (.ok .wasCancelled),
    .proceed, .proceed, .proceed, .proceed, .send true, .recv, .proceed]

/-- Both commands are asked for during the wait. -/
private def askedMeanwhile : List (Label Bool) :=
  [.send false, .send true, .recv, .recv, .advance 5, .timer]

theorem asked_meanwhile_waits : ∃ m es n fs,
    exec (stamped State.now (step slowLane)) .start firstExecution = some (m, es) ∧
      exec (stamped State.now (step slowLane)) m askedMeanwhile = some (n, fs) ∧
      n.pc = .starting true [1, 3] ∧
      Waited slowLane m true [1] 7 [⟨false, 2⟩, ⟨true, 3⟩] [⟨false, 2⟩, ⟨true, 3⟩] n := by
  have checked : (exec (stamped State.now (step slowLane)) .start firstExecution).any (fun r =>
      (exec (stamped State.now (step slowLane)) r.1 askedMeanwhile).any (fun q =>
        decide (r.1.pc = .cooling true [1] 7 ∧ q.1.pc = .starting true [1, 3] ∧
          sentRequests r.1.nextLifecycle askedMeanwhile = [⟨false, 2⟩, ⟨true, 3⟩] ∧
          receipts q.2 = [⟨false, 2⟩, ⟨true, 3⟩] ∧
          Meets (stamped State.now (step slowLane)) (fun u _ => u.pc.isCooling = true) r.1
            askedMeanwhile))) = true := by
    decide +kernel
  obtain ⟨⟨m, es⟩, first, inner⟩ := (Option.any_eq_true ..).mp checked
  obtain ⟨⟨n, fs⟩, wait, facts⟩ := (Option.any_eq_true ..).mp inner
  obtain ⟨cooling, elapsed, sent, got, waits⟩ := of_decide_eq_true facts
  have run := exec_append_some.mpr ⟨m, es, fs, first, wait, rfl⟩
  have keeps : ∀ label ∈ firstExecution ++ askedMeanwhile, KeepsWatch label := by
    simp [firstExecution, askedMeanwhile, KeepsWatch]
  have waited := ((cooldown_law keeps run).2 firstExecution askedMeanwhile [] m es n fs true [1] 7
    (List.append_nil _).symm first cooling wait waits).2
  rw [sent, got] at waited
  exact ⟨m, es, n, fs, first, wait, elapsed, waited⟩

end Lane

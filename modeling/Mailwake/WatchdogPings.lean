import Mailwake.PublishedStatus

/-!
# The watchdog pings of the status task

`run_status_task` with the interval that its ticks come from. The selection is biased: while a
tick is due no status change is taken, so a change that comes again and again cannot postpone
the ping. A late tick is followed by a whole period, as `MissedTickBehavior::Delay` has it. Times
are nanoseconds.
-/
namespace WatchdogPings
open Transition StatusTask Channel

/-- Half of the watchdog interval, or a minute without one. -/
def periodOf (watchdogInterval : Option Nat) : Nat :=
  match watchdogInterval with
  | some interval => interval / 2
  | none => 60000000000

structure State where
  inner : StatusTask.State
  /-- When the interval is due next. -/
  deadline : Nat
  /-- When the task subscribed. -/
  began : Nat
  /-- When the task last left its selection. -/
  left : Nat

def State.start (runtime : RuntimeState.State) : State := ⟨.start runtime, 0, 0, 0⟩

/-- A tick that comes later than the tolerance counts as missed. -/
def nextDeadline (tolerance period deadline now : Nat) : Nat :=
  if deadline + tolerance < now then now + period else deadline + period

def moved (s : State) (inner : StatusTask.State) : Label → State
  | .subscribe => { s with inner := inner, began := s.inner.now, left := s.inner.now }
  | .tick => { s with inner := inner, left := s.inner.now }
  | .statusChanged => { s with inner := inner, left := s.inner.now }
  | _ => { s with inner := inner }

/-- Whether the interval lets the task take the step. -/
def onTime (s : State) : Label → Bool
  | .tick => s.deadline ≤ s.inner.now
  | .statusChanged => s.inner.now < s.deadline
  | _ => true

def deadlineAfter (tolerance period : Nat) (s : State) : Label → Nat
  | .subscribe => s.inner.now + period
  | .tick => nextDeadline tolerance period s.deadline s.inner.now
  | _ => s.deadline

/-- Every event is marked with its time. -/
def step (watchdogInterval : Option Nat) (tolerance : Nat) (s : State) (label : Label) :
    Option (State × List (Nat × Event)) :=
  if onTime s label then
    (StatusTask.step watchdogInterval.isSome s.inner label).map fun (inner, es) =>
      ({ moved s inner label with
          deadline := deadlineAfter tolerance (periodOf watchdogInterval) s label },
        es.map fun e => (s.inner.now, e))
  else none

/-- The time of the last ping, or of the subscription. -/
def lastFed (began : Nat) (tr : List (Nat × Event)) : Nat :=
  tr.foldl (fun last e => if e.2 = .watchdog then e.1 else last) began

/-- How long the task may go on waiting: up to the latency after what it waits for. -/
def limit (latency : Nat) (s : State) : Nat :=
  (if s.inner.task = .selecting then s.deadline else s.left) + latency

/-- The task is scheduled within the latency, every health check finds nothing, and the shutdown
watch is left alone. -/
def Healthy (latency : Nat) (s : State) : Label → Prop
  | .advance elapsed => s.inner.task.live = true → s.inner.now + elapsed ≤ limit latency s
  | .check => s.inner.runtime.healthProblem s.inner.now = none
  | .shutDown => False
  | .dropShutdown => False
  | _ => True

instance (latency : Nat) (s : State) : ∀ label, Decidable (Healthy latency s label)
  | .advance elapsed =>
    inferInstanceAs (Decidable (_ = true → s.inner.now + elapsed ≤ limit latency s))
  | .check => inferInstanceAs (Decidable (s.inner.runtime.healthProblem s.inner.now = none))
  | .shutDown | .dropShutdown => isFalse id
  | .register _ | .markLane _ _ | .mark _ _ | .bump _ | .subscribe | .read | .send
  | .shutdownChanged | .tick | .statusChanged => isTrue trivial

section Fed
variable {began : Nat} {tr : List (Nat × Event)} {now : Nat}

@[simp] theorem lastFed_nil : lastFed began [] = began := rfl

theorem lastFed_append (es : List (Nat × Event)) :
    lastFed began (tr ++ es) = lastFed (lastFed began tr) es :=
  List.foldl_append

@[simp] theorem lastFed_status (text : String) :
    lastFed began (tr ++ [(now, .status text)]) = lastFed began tr := by
  rw [lastFed_append]
  rfl

@[simp] theorem lastFed_watchdog : lastFed began (tr ++ [(now, .watchdog)]) = now := by
  rw [lastFed_append]
  rfl

end Fed

variable {watchdogInterval : Option Nat} {tolerance latency : Nat} {s t : State} {label : Label}
  {tr es : List (Nat × Event)}

theorem step_some (h : step watchdogInterval tolerance s label = some (t, es)) :
    onTime s label = true ∧ ∃ inner fs,
      StatusTask.step watchdogInterval.isSome s.inner label = some (inner, fs) ∧
      t = { moved s inner label with
        deadline := deadlineAfter tolerance (periodOf watchdogInterval) s label } ∧
      es = fs.map fun e => (s.inner.now, e) := by
  rw [step] at h
  split at h
  · rename_i due
    obtain ⟨⟨inner, fs⟩, hs, he⟩ := Option.map_eq_some_iff.mp h
    obtain ⟨rfl, rfl⟩ := Prod.mk.inj he
    exact ⟨due, inner, fs, hs, rfl, rfl⟩
  · cases h

/-- The steps of the other tasks leave the status task and the clock alone. -/
theorem other_frame {watchdog : Bool} {s t : StatusTask.State} {es : List Event}
    (other : (∃ lane, label = .register lane) ∨ (∃ lane mark, label = .markLane lane mark) ∨
      (∃ task operation, label = .mark task operation) ∨ ∃ actor, label = .bump actor)
    (h : StatusTask.step watchdog s label = some (t, es)) :
    t.task = s.task ∧ t.now = s.now ∧ t.shutdown = s.shutdown ∧
      t.revision.senderAlive = s.revision.senderAlive ∧ es = [] := by
  rcases other with ⟨lane, rfl⟩ | ⟨lane, mark, rfl⟩ | ⟨task, operation, rfl⟩ | ⟨actor, rfl⟩
  · simp only [StatusTask.step] at h
    split at h
    · cases h
    · cases h
      exact ⟨rfl, rfl, rfl, rfl, rfl⟩
  · simp only [StatusTask.step, bind, Option.bind_eq_some_iff] at h
    obtain ⟨pc, -, next, -, u, performed, last⟩ := h
    obtain ⟨rfl, rfl⟩ : { u with lanes := u.lanes.insert lane next } = t ∧ [] = es := by
      simpa using last
    obtain ⟨-, rfl⟩ := perform_cases performed
    exact ⟨rfl, rfl, rfl, rfl, rfl⟩
  · simp only [StatusTask.step] at h
    split at h
    · obtain ⟨u, performed, last⟩ := Option.map_eq_some_iff.mp h
      obtain ⟨rfl, rfl⟩ := Prod.mk.inj last
      obtain ⟨-, rfl⟩ := perform_cases performed
      exact ⟨rfl, rfl, rfl, rfl, rfl⟩
    · cases h
  · simp only [StatusTask.step] at h
    split at h
    · cases h
      exact ⟨rfl, rfl, rfl, rfl, rfl⟩
    · cases h

/-- What the clock, the interval and the last ping have to do with each other at each place of
the task. -/
def Place (latency period last : Nat) (s : State) : Prop :=
  match s.inner.task with
  | .absent => True
  | .ended => False
  | .selecting => s.deadline ≤ last + period
  | .checking => s.left ≤ last + period + latency ∧ s.deadline ≤ s.left + period
  | .reading purpose => At purpose
  | .sending purpose _ => At purpose
where
  At : Purpose → Prop
  | .change => s.deadline ≤ last + period
  | .tick => s.left ≤ last + period + latency ∧ s.deadline ≤ s.left + period
  | .unhealthy => False

/-- The invariant of a run that is scheduled and healthy. -/
structure Fed (latency period : Nat) (tr : List (Nat × Event)) (s : State) : Prop where
  place : Place latency period (lastFed s.began tr) s
  ahead : s.inner.task.live = true → s.left ≤ s.deadline ∨ s.inner.task = .selecting
  begun : s.inner.task.live = true → s.left ≤ s.inner.now
  within : s.inner.task.live = true → s.inner.now ≤ limit latency s
  fresh : s.inner.task = .absent → tr = []
  shutdown : s.inner.shutdown = .start false
  subscribed : s.inner.revision.senderAlive = true

theorem Fed.of_live {period : Nat} (live : s.inner.task.live = true)
    (place : Place latency period (lastFed s.began tr) s)
    (ahead : s.left ≤ s.deadline ∨ s.inner.task = .selecting) (begun : s.left ≤ s.inner.now)
    (within : s.inner.now ≤ limit latency s) (shutdown : s.inner.shutdown = .start false)
    (subscribed : s.inner.revision.senderAlive = true) : Fed latency period tr s := by
  refine ⟨place, fun _ => ahead, fun _ => begun, fun _ => within, ?_, shutdown, subscribed⟩
  intro absent
  rw [absent] at live
  cases live

theorem Fed.now_le {period : Nat} (fed : Fed latency period tr s)
    (live : s.inner.task.live = true) :
    s.inner.now ≤ lastFed s.began tr + period + 2 * latency := by
  have place := fed.place
  have within := fed.within live
  have ahead := fed.ahead live
  rw [Place] at place
  rw [limit] at within
  split at place
  · rename_i task
    rw [task] at live
    cases live
  · exact place.elim
  · rename_i task
    rw [if_pos task] at within
    omega
  · rename_i task
    simp only [task, reduceCtorEq, ↓reduceIte] at within
    omega
  · rename_i purpose task
    simp only [task, reduceCtorEq, ↓reduceIte, or_false] at within ahead
    cases purpose with
    | change =>
      simp only [Place.At] at place
      omega
    | tick =>
      simp only [Place.At] at place
      omega
    | unhealthy => exact place.elim
  · rename_i purpose status task
    simp only [task, reduceCtorEq, ↓reduceIte, or_false] at within ahead
    cases purpose with
    | change =>
      simp only [Place.At] at place
      omega
    | tick =>
      simp only [Place.At] at place
      omega
    | unhealthy => exact place.elim

/-- Steps that leave the task and its times alone. -/
theorem Fed.frame {period : Nat} (fed : Fed latency period tr s) {inner : StatusTask.State}
    (task : inner.task = s.inner.task) (now : inner.now = s.inner.now)
    (shutdown : inner.shutdown = s.inner.shutdown)
    (subscribed : inner.revision.senderAlive = s.inner.revision.senderAlive) :
    Fed latency period tr { s with inner := inner } := by
  refine ⟨?_, ?_, ?_, ?_, ?_, ?_, ?_⟩
  · have place := fed.place
    simp only [Place, task] at place ⊢
    exact place
  · simp only [task]
    exact fed.ahead
  · simp only [task, now]
    exact fed.begun
  · simp only [limit, task, now]
    exact fed.within
  · simp only [task]
    exact fed.fresh
  · exact shutdown.trans fed.shutdown
  · exact subscribed.trans fed.subscribed

section Steps
variable {interval : Nat}

theorem fed_subscribe (fed : Fed latency (interval / 2) tr s)
    (h : step (some interval) tolerance s .subscribe = some (t, es)) :
    Fed latency (interval / 2) (tr ++ es) t := by
  obtain ⟨-, inner, fs, hs, rfl, rfl⟩ := step_some h
  simp only [StatusTask.step] at hs
  split at hs
  · rename_i absent
    obtain ⟨rfl, rfl⟩ := Prod.mk.inj (Option.some.inj hs)
    obtain rfl := fed.fresh absent
    exact .of_live rfl (le_refl _) (Or.inl (Nat.le_add_right _ _)) (le_refl _)
      (Nat.le_add_right _ _) fed.shutdown fed.subscribed
  · cases hs

theorem fed_advance {elapsed : Nat} (fed : Fed latency (interval / 2) tr s)
    (scheduled : Healthy latency s (.advance elapsed))
    (h : step (some interval) tolerance s (.advance elapsed) = some (t, es)) :
    Fed latency (interval / 2) (tr ++ es) t := by
  obtain ⟨-, inner, fs, hs, rfl, rfl⟩ := step_some h
  obtain ⟨rfl, rfl⟩ := Prod.mk.inj (Option.some.inj hs)
  rw [List.map_nil, List.append_nil]
  exact ⟨fed.place, fed.ahead, fun live => Nat.le_add_right_of_le (fed.begun live), scheduled,
    fed.fresh, fed.shutdown, fed.subscribed⟩

theorem fed_read (fed : Fed latency (interval / 2) tr s)
    (h : step (some interval) tolerance s .read = some (t, es)) :
    Fed latency (interval / 2) (tr ++ es) t := by
  obtain ⟨-, inner, fs, hs, rfl, rfl⟩ := step_some h
  simp only [StatusTask.step] at hs
  split at hs
  · rename_i purpose task
    obtain ⟨rfl, rfl⟩ := Prod.mk.inj (Option.some.inj hs)
    have live : s.inner.task.live = true := by rw [task]; rfl
    have place := fed.place
    have ahead := fed.ahead live
    have within := fed.within live
    simp only [Place, task] at place
    simp only [task, reduceCtorEq, or_false] at ahead
    simp only [limit, task, reduceCtorEq, ↓reduceIte] at within
    rw [List.map_nil, List.append_nil]
    exact .of_live rfl place (Or.inl ahead) (fed.begun live) within fed.shutdown fed.subscribed
  · cases hs

theorem fed_send (fed : Fed latency (interval / 2) tr s)
    (h : step (some interval) tolerance s .send = some (t, es)) :
    Fed latency (interval / 2) (tr ++ es) t := by
  obtain ⟨-, inner, fs, hs, rfl, rfl⟩ := step_some h
  simp only [StatusTask.step] at hs
  split at hs
  · rename_i purpose status task
    obtain ⟨rfl, rfl⟩ := Prod.mk.inj (Option.some.inj hs)
    have live : s.inner.task.live = true := by rw [task]; rfl
    have place := fed.place
    have ahead := fed.ahead live
    have within := fed.within live
    simp only [Place, task] at place
    simp only [task, reduceCtorEq, or_false] at ahead
    simp only [limit, task, reduceCtorEq, ↓reduceIte] at within
    have same : lastFed s.began (tr ++ [(s.inner.now, .status (sanitizeField status))]) =
        lastFed s.began tr := lastFed_status _
    cases purpose with
    | change =>
      have later : s.inner.now ≤ s.deadline + latency := by omega
      exact .of_live rfl (same ▸ place) (Or.inr rfl) (fed.begun live) later fed.shutdown
        fed.subscribed
    | tick =>
      exact .of_live rfl (same ▸ place) (Or.inl ahead) (fed.begun live) within fed.shutdown
        fed.subscribed
    | unhealthy => exact place.elim
  · cases hs

theorem fed_check (fed : Fed latency (interval / 2) tr s) (healthy : Healthy latency s .check)
    (h : step (some interval) tolerance s .check = some (t, es)) :
    Fed latency (interval / 2) (tr ++ es) t := by
  obtain ⟨-, inner, fs, hs, rfl, rfl⟩ := step_some h
  have none : s.inner.runtime.healthProblem s.inner.now = none := healthy
  simp only [StatusTask.step] at hs
  split at hs
  · rename_i task
    rw [none] at hs
    obtain ⟨rfl, rfl⟩ := Prod.mk.inj (Option.some.inj hs)
    have live : s.inner.task.live = true := by rw [task]; rfl
    have place := fed.place
    have ahead := fed.ahead live
    have begun := fed.begun live
    have within := fed.within live
    simp only [Place, task] at place
    simp only [task, reduceCtorEq, or_false] at ahead
    simp only [limit, task, reduceCtorEq, ↓reduceIte] at within
    have pinged : lastFed s.began (tr ++ [(s.inner.now, .watchdog)]) = s.inner.now :=
      lastFed_watchdog
    have next : s.deadline ≤ s.inner.now + interval / 2 := by omega
    have later : s.inner.now ≤ s.deadline + latency := by omega
    refine .of_live rfl ?_ (Or.inr rfl) begun later fed.shutdown fed.subscribed
    simpa only [Place, List.map_cons, List.map_nil, moved, deadlineAfter, pinged] using next
  · cases hs

/-- The next tick is due within a period, and never before the one that was taken. -/
theorem nextDeadline_cases {period deadline now : Nat} (long : tolerance ≤ period)
    (due : deadline ≤ now) : now ≤ nextDeadline tolerance period deadline now ∧
      nextDeadline tolerance period deadline now ≤ now + period := by
  rw [nextDeadline]
  split <;> omega

theorem fed_tick (long : tolerance ≤ interval / 2) (fed : Fed latency (interval / 2) tr s)
    (h : step (some interval) tolerance s .tick = some (t, es)) :
    Fed latency (interval / 2) (tr ++ es) t := by
  obtain ⟨due, inner, fs, hs, rfl, rfl⟩ := step_some h
  have due : s.deadline ≤ s.inner.now := of_decide_eq_true due
  simp only [StatusTask.step] at hs
  split at hs
  · rename_i ready
    obtain ⟨rfl, rfl⟩ := Prod.mk.inj (Option.some.inj hs)
    have live : s.inner.task.live = true := by rw [ready.1]; rfl
    have place := fed.place
    have within := fed.within live
    simp only [Place, ready.1] at place
    simp only [limit, ready.1, ↓reduceIte] at within
    rw [List.map_nil, List.append_nil]
    have latest : s.inner.now ≤ lastFed s.began tr + interval / 2 + latency := by omega
    have next := nextDeadline_cases long due
    exact .of_live rfl ⟨latest, next.2⟩ (Or.inl next.1) (le_refl _) (Nat.le_add_right _ _)
      fed.shutdown fed.subscribed
  · cases hs

theorem fed_statusChanged (fed : Fed latency (interval / 2) tr s)
    (h : step (some interval) tolerance s .statusChanged = some (t, es)) :
    Fed latency (interval / 2) (tr ++ es) t := by
  obtain ⟨due, inner, fs, hs, rfl, rfl⟩ := step_some h
  have due : s.inner.now < s.deadline := of_decide_eq_true due
  simp only [StatusTask.step] at hs
  split at hs
  · rename_i ready
    simp only [bind, Option.bind_eq_some_iff, Prod.exists] at hs
    obtain ⟨changed, revision, noticed, last⟩ := hs
    obtain ⟨rfl, rfl⟩ := Prod.mk.inj (Option.some.inj last)
    have place := fed.place
    simp only [Place, ready.1] at place
    rw [List.map_nil, List.append_nil]
    rcases Watch.changed_cases noticed with ⟨rfl, -, rfl⟩ | ⟨-, -, dead, -⟩
    · exact .of_live rfl place (Or.inl (Nat.le_of_lt due)) (le_refl _) (Nat.le_add_right _ _)
        fed.shutdown fed.subscribed
    · cases fed.subscribed.symm.trans dead
  · cases hs

theorem fed_other (fed : Fed latency (interval / 2) tr s)
    (other : (∃ lane, label = .register lane) ∨ (∃ lane mark, label = .markLane lane mark) ∨
      (∃ task operation, label = .mark task operation) ∨ ∃ actor, label = .bump actor)
    (h : step (some interval) tolerance s label = some (t, es)) :
    Fed latency (interval / 2) (tr ++ es) t := by
  obtain ⟨-, inner, fs, hs, rfl, rfl⟩ := step_some h
  obtain ⟨task, now, shutdown, subscribed, rfl⟩ := other_frame other hs
  have frame := fed.frame task now shutdown subscribed
  rw [List.map_nil, List.append_nil]
  rcases other with ⟨lane, rfl⟩ | ⟨lane, mark, rfl⟩ | ⟨task, operation, rfl⟩ | ⟨actor, rfl⟩
  all_goals exact frame

theorem fed_step (long : tolerance ≤ interval / 2) (fed : Fed latency (interval / 2) tr s)
    (healthy : Healthy latency s label)
    (h : step (some interval) tolerance s label = some (t, es)) :
    Fed latency (interval / 2) (tr ++ es) t := by
  cases label with
  | advance elapsed => exact fed_advance fed healthy h
  | register lane => exact fed_other fed (Or.inl ⟨lane, rfl⟩) h
  | markLane lane mark => exact fed_other fed (Or.inr (Or.inl ⟨lane, mark, rfl⟩)) h
  | mark task operation =>
    exact fed_other fed (Or.inr (Or.inr (Or.inl ⟨task, operation, rfl⟩))) h
  | bump actor => exact fed_other fed (Or.inr (Or.inr (Or.inr ⟨actor, rfl⟩))) h
  | shutDown => exact healthy.elim
  | dropShutdown => exact healthy.elim
  | subscribe => exact fed_subscribe fed h
  | read => exact fed_read fed h
  | send => exact fed_send fed h
  | check => exact fed_check fed healthy h
  | shutdownChanged =>
    obtain ⟨-, inner, fs, hs, -, -⟩ := step_some h
    simp [StatusTask.step, fed.shutdown, Watch.changed, Watch.start] at hs
  | tick => exact fed_tick long fed h
  | statusChanged => exact fed_statusChanged fed h

/-- Between two ticks the task waits; otherwise it can take its next step by itself. -/
theorem not_stuck (fed : Fed latency (interval / 2) tr s) (live : s.inner.task.live = true) :
    s.inner.task = .selecting ∧ s.inner.now < s.deadline ∨
      ∃ label ∈ [Label.read, .send, .check, .tick],
        (step (some interval) tolerance s label).isSome = true := by
  cases task : s.inner.task with
  | absent | ended =>
    rw [task] at live
    cases live
  | selecting =>
    by_cases due : s.deadline ≤ s.inner.now
    · refine Or.inr ⟨.tick, by simp, ?_⟩
      simp [step, onTime, due, StatusTask.step, task, fed.shutdown, Watch.changed, Watch.start]
    · exact Or.inl ⟨rfl, by omega⟩
  | reading purpose => exact Or.inr ⟨.read, by simp, by simp [step, onTime, StatusTask.step, task]⟩
  | sending purpose status =>
    exact Or.inr ⟨.send, by simp, by simp [step, onTime, StatusTask.step, task]⟩
  | checking =>
    refine Or.inr ⟨.check, by simp, ?_⟩
    cases found : s.inner.runtime.healthProblem s.inner.now with
    | none => simp [step, onTime, StatusTask.step, task, found]
    | some problem => simp [step, onTime, StatusTask.step, task, found]

/-- A status task that is scheduled within a quarter of the watchdog interval, and finds the
runtime healthy at each of its checks, never lets the interval pass without a ping, whatever the
status changes are. -/
theorem healthy_daemon_feeds_the_watchdog {runtime : RuntimeState.State} {labels : List Label}
    (long : tolerance ≤ interval / 2) (quick : 4 * latency ≤ interval)
    (meets : Meets (step (some interval) tolerance) (Healthy latency) (.start runtime) labels)
    (run : exec (step (some interval) tolerance) (.start runtime) labels = some (t, tr))
    (live : t.inner.task.live = true) :
    t.inner.now ≤ lastFed t.began tr + interval ∧
      (t.inner.task = .selecting ∧ t.inner.now < t.deadline ∨
        ∃ label ∈ [Label.read, .send, .check, .tick],
          (step (some interval) tolerance t label).isSome = true) := by
  have start : Fed latency (interval / 2) [] (.start runtime) :=
    ⟨trivial, fun h => (by cases h), fun h => (by cases h), fun h => (by cases h), fun _ => rfl,
      rfl, rfl⟩
  have fed : Fed latency (interval / 2) ([] ++ tr) t :=
    exec_invariant_of_meets (fun _ _ _ _ _ fed healthy h => fed_step long fed healthy h) start
      meets run
  have gap := fed.now_le live
  exact ⟨by simp only [List.nil_append] at gap; omega, not_stuck fed live⟩

/-- A status change comes in shortly before the tick is due. -/
private def examplePings : List Label :=
  [.register "inbox", .markLane "inbox" .idle, .subscribe, .read, .send, .advance 4,
    .markLane "inbox" .started, .bump (.lane "inbox"), .statusChanged, .advance 1, .read, .send,
    .tick, .advance 1, .read, .send, .check, .advance 5, .tick, .read, .send, .check, .advance 5]

theorem example_pings_feed_the_watchdog :
    let last := (exec (step (some 10) 1) (.start (.new 0 0 1 60000 60000)) examplePings).get
      (by decide +kernel)
    last.2.countP (fun e => decide (e.2 = .watchdog)) = 2 ∧
      last.1.inner.now ≤ lastFed last.1.began last.2 + 10 := by
  intro last
  have run := (Option.some_get (by decide +kernel : (exec (step (some 10) 1)
    (.start (.new 0 0 1 60000 60000)) examplePings).isSome = true)).symm
  have meets : Meets (step (some 10) 1) (Healthy 2) (.start (.new 0 0 1 60000 60000))
      examplePings := by decide +kernel
  exact ⟨by decide +kernel, (healthy_daemon_feeds_the_watchdog (by decide) (by decide) meets run
    (by decide +kernel)).1⟩

end Steps

end WatchdogPings

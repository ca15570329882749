import Mailwake.Transition
import Mailwake.Channel
import Mailwake.Window

/-!
# The resume broadcast of several logind listeners

Every listener delivers the same sequence of signals in order, at its own pace, to one
shared broadcaster; the mutex makes one broadcast a single step. A delivery also queues
the listener's own command event. The trace records the `Resumed` deliveries and whether
each was sent on to the mailbox watchers.
-/
namespace ResumeBroadcast
open Channel Transition
universe u
variable {ι : Type u}

def recentResumeEvents : Nat := 64

inductive ResumeSignal where
  | suspending
  | resumed
  deriving DecidableEq

structure ResumeEventId where
  sender : Option String
  serial : UInt32
  deriving DecidableEq

structure ResumeEvent where
  signal : ResumeSignal
  id : ResumeEventId

/-- `ResumeBroadcaster::broadcast`: the new history, and whether the watchers are notified. -/
def broadcast (recent : List ResumeEventId) (event : ResumeEvent) : List ResumeEventId × Bool :=
  match event.signal with
  | .suspending => (recent, false)
  | .resumed => Window.offer recentResumeEvents event.id recent

structure Listener where
  /-- How many signals it has delivered or missed. -/
  position : Nat
  running : Bool
  queue : Mpsc Unit
  /-- Whether its runner still holds the other end of the queue. -/
  receiverAlive : Bool

/-- A full queue coalesces the event, a closed one ends the listener. -/
def Listener.queueEvent (capacity : Nat) (listener : Listener) : Listener :=
  if listener.receiverAlive then { listener with queue := listener.queue.trySend capacity () }
  else { listener with running := false }

structure State (ι : Type u) where
  /-- What logind has signalled so far. -/
  signals : List ResumeEvent
  recent : List ResumeEventId
  listener : ι → Listener

/-- Each listener subscribes at some place of the sequence. -/
def State.start (joined : ι → Nat) : State ι :=
  ⟨[], [], fun i => ⟨joined i, true, .empty, true⟩⟩

inductive Label (ι : Type u) where
  | signal (event : ResumeEvent)
  | deliver (i : ι)
  /-- The signal stream ended or failed, or the listener noticed shutdown. -/
  | stop (i : ι)
  /-- The listener's runner takes an event. -/
  | take (i : ι)
  | closeQueue (i : ι)

/-- A `Resumed` signal some listener delivered. -/
structure Delivery (ι : Type u) where
  listener : ι
  id : ResumeEventId
  notified : Bool

section
variable [DecidableEq ι]

def State.put (i : ι) (listener : Listener) (s : State ι) : State ι :=
  { s with listener := fun j => if j = i then listener else s.listener j }

/-- The signal the listener delivers next. -/
def State.due (s : State ι) (i : ι) : Option ResumeEvent :=
  if (s.listener i).running then s.signals[(s.listener i).position]? else none

def deliver (capacity : Nat) (s : State ι) (i : ι) (event : ResumeEvent) :
    State ι × List (Delivery ι) :=
  let listener := { s.listener i with position := (s.listener i).position + 1 }
  match event.signal with
  | .suspending => (s.put i listener, [])
  | .resumed =>
    let sent := broadcast s.recent event
    ({ s with recent := sent.1 }.put i (listener.queueEvent capacity), [⟨i, event.id, sent.2⟩])

def step (capacity : Nat) (s : State ι) : Label ι → Option (State ι × List (Delivery ι))
  | .signal event => some ({ s with signals := s.signals ++ [event] }, [])
  | .deliver i => (s.due i).map (deliver capacity s i)
  | .stop i => some (s.put i { s.listener i with running := false }, [])
  | .take i =>
    ((s.listener i).queue.recv).map fun next =>
      (s.put i { s.listener i with queue := next.2 }, [])
  | .closeQueue i => some (s.put i { s.listener i with receiverAlive := false }, [])

end

/-- The ids the broadcaster accepted, in the order of its notifications. -/
def accepted (tr : List (Delivery ι)) : List ResumeEventId :=
  (tr.filter (·.notified)).map (·.id)

/-- A delivery is suppressed exactly if its id is among the latest accepted ones. -/
def Judged (before : List (Delivery ι)) (d : Delivery ι) : Prop :=
  d.notified = false ↔ d.id ∈ (accepted before).rtake recentResumeEvents

/-- The delivery does not come after 64 later ids were accepted. -/
def Timely (before : List (Delivery ι)) (d : Delivery ι) : Prop :=
  ∀ past later, accepted before = past ++ d.id :: later → later.length < recentResumeEvents

/-- Some listener has delivered a `Resumed` signal of this id. -/
def Passed (joined : ι → Nat) (s : State ι) (id : ResumeEventId) : Prop :=
  ∃ i p event, joined i ≤ p ∧ p < (s.listener i).position ∧ s.signals[p]? = some event ∧
    event.signal = .resumed ∧ event.id = id

variable {tr es : List (Delivery ι)} {d : Delivery ι}

@[simp] theorem accepted_nil : accepted ([] : List (Delivery ι)) = [] := rfl

@[simp] theorem accepted_append : accepted (tr ++ es) = accepted tr ++ accepted es := by
  simp [accepted]

theorem accepted_one : accepted [d] = if d.notified then [d.id] else [] := by
  by_cases h : d.notified = true <;> simp [accepted, h]

theorem delivered_of_accepted {id : ResumeEventId} (h : id ∈ accepted tr) :
    ∃ d ∈ tr, d.id = id := by
  obtain ⟨d, hd, rfl⟩ := List.mem_map.mp h
  exact ⟨d, (List.mem_filter.mp hd).1, rfl⟩

/-- While at most 64 ids were accepted, no delivery is stale. -/
theorem timely_of_few (few : (accepted tr).length ≤ recentResumeEvents) : AtEach Timely tr := by
  rintro before d after rfl past later he
  have length : (accepted before).length ≤ (accepted (before ++ d :: after)).length := by
    rw [accepted_append, List.length_append]
    omega
  rw [he, List.length_append, List.length_cons] at length
  omega

/-- Where the broadcaster judges by its latest ids and no delivery is stale, nothing is accepted
twice and everything delivered is accepted. -/
theorem accepted_once (judged : AtEach Judged tr) (timely : AtEach Timely tr) :
    (accepted tr).Nodup ∧ ∀ d ∈ tr, d.id ∈ accepted tr := by
  induction tr using List.reverseRecOn with
  | nil => simp
  | append_singleton tr d ih =>
    obtain ⟨distinct, delivered⟩ := ih (atEach_append.mp judged).1 (atEach_append.mp timely).1
    have verdict : Judged tr d := judged tr d [] rfl
    have fresh : Timely tr d := timely tr d [] rfl
    have known : d.id ∈ accepted tr ↔ d.id ∈ (accepted tr).rtake recentResumeEvents := by
      constructor
      · intro h
        obtain ⟨past, later, he⟩ := List.append_of_mem h
        exact Window.mem_rtake.mpr ⟨past, later, he, fresh past later he⟩
      · intro h
        exact List.mem_of_mem_drop h
    rw [accepted_append, accepted_one]
    cases h : d.notified with
    | false =>
      have old : d.id ∈ accepted tr := known.mpr (verdict.mp h)
      refine ⟨by simpa using distinct, ?_⟩
      intro e he
      rcases List.mem_append.mp he with he | he
      · simpa using delivered e he
      · obtain rfl := List.mem_singleton.mp he
        simpa using old
    | true =>
      have new : d.id ∉ accepted tr := by
        intro old
        have suppressed := verdict.mpr (known.mp old)
        rw [h] at suppressed
        cases suppressed
      refine ⟨?_, ?_⟩
      · rw [if_pos rfl, List.nodup_append]
        refine ⟨distinct, by simp, ?_⟩
        rintro a ha b hb rfl
        obtain rfl := List.mem_singleton.mp hb
        exact new ha
      · intro e he
        rcases List.mem_append.mp he with he | he
        · exact List.mem_append_left _ (delivered e he)
        · obtain rfl := List.mem_singleton.mp he
          simp

section Running
variable [DecidableEq ι] {capacity : Nat} {joined : ι → Nat} {s t : State ι}

@[simp] theorem put_recent (i : ι) (listener : Listener) (s : State ι) :
    (s.put i listener).recent = s.recent := rfl

@[simp] theorem put_signals (i : ι) (listener : Listener) (s : State ι) :
    (s.put i listener).signals = s.signals := rfl

@[simp] theorem put_same (i : ι) (listener : Listener) (s : State ι) :
    (s.put i listener).listener i = listener := if_pos rfl

theorem put_other {i j : ι} (h : j ≠ i) (listener : Listener) (s : State ι) :
    (s.put i listener).listener j = s.listener j := if_neg h

/-- Replacing a listener by one of the same position moves no position. -/
theorem put_position {i : ι} {listener : Listener}
    (same : listener.position = (s.listener i).position) (j : ι) :
    ((s.put i listener).listener j).position = (s.listener j).position := by
  by_cases h : j = i
  · subst h
    rw [put_same, same]
  · rw [put_other h]

@[simp] theorem queueEvent_position (listener : Listener) :
    (listener.queueEvent capacity).position = listener.position := by
  unfold Listener.queueEvent
  split <;> rfl

/-- The delivery took one signal of one listener. -/
structure Took (s t : State ι) (i : ι) (event : ResumeEvent) : Prop where
  due : s.signals[(s.listener i).position]? = some event
  signals : t.signals = s.signals
  moved : (t.listener i).position = (s.listener i).position + 1
  others : ∀ j, j ≠ i → (t.listener j).position = (s.listener j).position

/-- What a step does to the history and the positions. -/
inductive Moved (s t : State ι) : List (Delivery ι) → Prop where
  | still (recent : t.recent = s.recent) (signals : s.signals <+: t.signals)
      (positions : ∀ j, (t.listener j).position = (s.listener j).position) : Moved s t []
  | suspending (i : ι) (event : ResumeEvent) (took : Took s t i event)
      (signal : event.signal = .suspending) (recent : t.recent = s.recent) : Moved s t []
  | resumed (i : ι) (event : ResumeEvent) (took : Took s t i event)
      (signal : event.signal = .resumed)
      (recent : t.recent = (Window.offer recentResumeEvents event.id s.recent).1) :
      Moved s t [⟨i, event.id, (Window.offer recentResumeEvents event.id s.recent).2⟩]

theorem took_put {i : ι} {event : ResumeEvent} {listener : Listener}
    (due : s.signals[(s.listener i).position]? = some event) (recent : List ResumeEventId)
    (moved : listener.position = (s.listener i).position + 1) :
    Took s ({ s with recent := recent }.put i listener) i event := by
  refine ⟨due, rfl, by rw [put_same, moved], ?_⟩
  intro j hj
  rw [put_other hj]

theorem moved_of_step {label : Label ι} (h : step capacity s label = some (t, es)) :
    Moved s t es := by
  cases label with
  | signal event =>
    cases h
    exact .still rfl (List.prefix_append s.signals [event]) fun _ => rfl
  | deliver i =>
    obtain ⟨event, hdue, heq⟩ := Option.map_eq_some_iff.mp h
    have due : s.signals[(s.listener i).position]? = some event := by
      unfold State.due at hdue
      split at hdue
      · exact hdue
      · cases hdue
    cases hs : event.signal with
    | suspending =>
      simp only [deliver, hs] at heq
      cases heq
      exact .suspending i event (took_put due s.recent rfl) hs rfl
    | resumed =>
      simp only [deliver, hs, broadcast] at heq
      cases heq
      exact .resumed i event (took_put due _ (queueEvent_position _)) hs rfl
  | stop i =>
    cases h
    exact .still rfl (List.prefix_refl _) (put_position rfl)
  | take i =>
    obtain ⟨next, -, heq⟩ := Option.map_eq_some_iff.mp h
    cases heq
    exact .still rfl (List.prefix_refl _) (put_position rfl)
  | closeQueue i =>
    cases h
    exact .still rfl (List.prefix_refl _) (put_position rfl)

/-- The joint invariant of the history, the positions and the deliveries. -/
structure Remembered (joined : ι → Nat) (tr : List (Delivery ι)) (s : State ι) : Prop where
  recent : s.recent = (accepted tr).rtake recentResumeEvents
  distinct : s.recent.Nodup
  judged : AtEach Judged tr
  subscribed : ∀ i, joined i ≤ (s.listener i).position
  read : ∀ i p, joined i ≤ p → p < (s.listener i).position → p < s.signals.length
  passed : ∀ id, (∃ d ∈ tr, d.id = id) ↔ Passed joined s id

omit [DecidableEq ι] in
/-- Later signals and idle listeners pass nothing. -/
theorem passed_still (signals : s.signals <+: t.signals)
    (positions : ∀ j, (t.listener j).position = (s.listener j).position)
    (read : ∀ i p, joined i ≤ p → p < (s.listener i).position → p < s.signals.length)
    (id : ResumeEventId) : Passed joined t id ↔ Passed joined s id := by
  obtain ⟨more, hm⟩ := signals
  have same : ∀ p, p < s.signals.length → t.signals[p]? = s.signals[p]? := by
    intro p hp
    rw [← hm, List.getElem?_append_left hp]
  constructor
  · rintro ⟨i, p, event, from', before, at', rest⟩
    rw [positions i] at before
    exact ⟨i, p, event, from', before, by rw [← same p (read i p from' before), at'], rest⟩
  · rintro ⟨i, p, event, from', before, at', rest⟩
    refine ⟨i, p, event, from', by rwa [positions i], ?_, rest⟩
    rw [same p (read i p from' before), at']

/-- A delivery passes its own signal beside those passed before. -/
theorem passed_took {i : ι} {event : ResumeEvent} (took : Took s t i event)
    (subscribed : joined i ≤ (s.listener i).position) (id : ResumeEventId) :
    Passed joined t id ↔ Passed joined s id ∨ event.signal = .resumed ∧ event.id = id := by
  constructor
  · rintro ⟨j, p, found, from', before, at', rest⟩
    rw [took.signals] at at'
    by_cases own : j = i
    · subst own
      rw [took.moved] at before
      by_cases last : p = (s.listener j).position
      · subst last
        obtain rfl := Option.some.inj (took.due.symm.trans at')
        exact Or.inr rest
      · exact Or.inl ⟨j, p, found, from', by omega, at', rest⟩
    · rw [took.others j own] at before
      exact Or.inl ⟨j, p, found, from', before, at', rest⟩
  · rintro (⟨j, p, found, from', before, at', rest⟩ | now)
    · refine ⟨j, p, found, from', ?_, by rw [took.signals, at'], rest⟩
      by_cases own : j = i
      · subst own
        rw [took.moved]
        omega
      · rwa [took.others j own]
    · exact ⟨i, (s.listener i).position, event, subscribed, by rw [took.moved]; omega,
        by rw [took.signals, took.due], now⟩

theorem read_took {i : ι} {event : ResumeEvent} (took : Took s t i event)
    (read : ∀ i p, joined i ≤ p → p < (s.listener i).position → p < s.signals.length) :
    ∀ j p, joined j ≤ p → p < (t.listener j).position → p < t.signals.length := by
  intro j p from' before
  rw [took.signals]
  by_cases own : j = i
  · subst own
    rw [took.moved] at before
    by_cases last : p = (s.listener j).position
    · subst last
      exact (List.getElem?_eq_some_iff.mp took.due).1
    · exact read j p from' (by omega)
  · rw [took.others j own] at before
    exact read j p from' before

theorem subscribed_took {i : ι} {event : ResumeEvent} (took : Took s t i event)
    (subscribed : ∀ i, joined i ≤ (s.listener i).position) :
    ∀ j, joined j ≤ (t.listener j).position := by
  intro j
  have old := subscribed j
  by_cases own : j = i
  · subst own
    rw [took.moved]
    omega
  · rwa [took.others j own]

/-- One step keeps the invariant: a delivery is judged by the history before it. -/
theorem remembered_move (old : Remembered joined tr s) (move : Moved s t es) :
    Remembered joined (tr ++ es) t := by
  cases move with
  | still recent signals positions =>
    rw [List.append_nil]
    refine ⟨recent.trans old.recent, recent ▸ old.distinct, old.judged, ?_, ?_, ?_⟩
    · intro i
      rw [positions i]
      exact old.subscribed i
    · intro i p from' before
      rw [positions i] at before
      exact Nat.lt_of_lt_of_le (old.read i p from' before) signals.length_le
    · intro id
      rw [old.passed id, passed_still signals positions old.read id]
  | suspending i event took signal recent =>
    rw [List.append_nil]
    refine ⟨recent.trans old.recent, recent ▸ old.distinct, old.judged,
      subscribed_took took old.subscribed, read_took took old.read, ?_⟩
    intro id
    rw [old.passed id, passed_took took (old.subscribed i) id]
    simp [signal]
  | resumed i event took signal recent =>
    have judged : Judged tr ⟨i, event.id, (Window.offer recentResumeEvents event.id s.recent).2⟩ := by
      rw [Judged, ← old.recent, Window.offer]
      split
      · rename_i known
        simp [known]
      · rename_i new
        simp [new]
    have told : AtEach Judged (tr ++ [_]) := old.judged.append_one judged
    have passed : ∀ id, (∃ d ∈ tr ++ [(⟨i, event.id,
        (Window.offer recentResumeEvents event.id s.recent).2⟩ : Delivery ι)], d.id = id) ↔
        Passed joined t id := by
      intro id
      rw [passed_took took (old.subscribed i) id, ← old.passed id]
      simp [signal, or_and_right, exists_or]
    refine ⟨?_, ?_, told, subscribed_took took old.subscribed, read_took took old.read, passed⟩
    · rw [recent, accepted_append, accepted_one, Window.offer]
      split
      · simpa using old.recent
      · simp only [if_true]
        rw [old.recent]
        exact Window.push_rtake 63 (accepted tr) event.id
    · rw [recent, Window.offer]
      split
      · exact old.distinct
      · rename_i new
        exact Window.push_nodup old.distinct new

omit [DecidableEq ι] in
theorem remembered_start (joined : ι → Nat) : Remembered joined [] (State.start joined) := by
  refine ⟨rfl, List.nodup_nil, atEach_nil, fun _ => Nat.le_refl _, ?_, ?_⟩
  · intro i p from' before
    exact absurd before (Nat.not_lt.mpr from')
  · intro id
    constructor
    · rintro ⟨d, hd, -⟩
      cases hd
    · rintro ⟨i, p, event, from', before, -⟩
      exact absurd before (Nat.not_lt.mpr from')

/-- A delivery queues the listener's own event, suppressed or not. -/
theorem deliver_queues (room : 0 < capacity) {i : ι} {event : ResumeEvent}
    (due : s.due i = some event) (signal : event.signal = .resumed)
    (alive : (s.listener i).receiverAlive = true) :
    ∃ next d, step capacity s (.deliver i) = some (next, [d]) ∧ d.listener = i ∧
      d.id = event.id ∧ (next.listener i).queue.items ≠ [] := by
  simp only [step, due, Option.map_some, deliver, signal]
  refine ⟨_, _, rfl, rfl, rfl, ?_⟩
  simp only [put_same, Listener.queueEvent, alive, if_true]
  exact Mpsc.trySend_nonempty room () _

/-- The history holds the latest 64 accepted ids without repetition and a delivery is suppressed
exactly by them. If no delivery comes after 64 later acceptances, an id is notified once if any
listener has passed it and never otherwise. Every delivery queues the listener's own event. -/
theorem passed_resume_is_notified_once {labels : List (Label ι)} (room : 0 < capacity)
    (run : exec (step capacity) (State.start joined) labels = some (s, tr)) :
    s.recent.length ≤ recentResumeEvents ∧ s.recent.Nodup ∧ AtEach Judged tr ∧
    (AtEach Timely tr → ∀ id, (Passed joined s id → (accepted tr).count id = 1) ∧
      (¬ Passed joined s id → (accepted tr).count id = 0)) ∧
    (∀ i event, s.due i = some event → event.signal = .resumed →
      (s.listener i).receiverAlive = true →
      ∃ next d, step capacity s (.deliver i) = some (next, [d]) ∧ d.listener = i ∧
        d.id = event.id ∧ (next.listener i).queue.items ≠ []) := by
  have kept : Remembered joined tr s :=
    exec_invariant (fun _ _ _ _ _ old h => remembered_move old (moved_of_step h))
      (remembered_start joined) run
  refine ⟨?_, kept.distinct, kept.judged, ?_, fun i event => deliver_queues room⟩
  · rw [kept.recent]
    exact Window.rtake_length_le _ _
  · intro timely id
    obtain ⟨distinct, delivered⟩ := accepted_once kept.judged timely
    constructor
    · intro passed
      obtain ⟨d, hd, rfl⟩ := (kept.passed id).mpr passed
      exact List.count_eq_one_of_mem distinct (delivered d hd)
    · intro unseen
      refine List.count_eq_zero.mpr ?_
      intro h
      exact unseen ((kept.passed id).mp (delivered_of_accepted h))

end Running

private def resumedAs (serial : UInt32) : ResumeEvent := ⟨.resumed, ⟨some ":1.42", serial⟩⟩

/-- One listener delivers both resumes and stops, the other one delivers the first later. -/
private def laggingRun : List (Label Bool) :=
  [.signal ⟨.suspending, ⟨some ":1.42", 9⟩⟩, .signal (resumedAs 10), .deliver true, .deliver true,
    .signal (resumedAs 11), .deliver true, .stop true, .deliver false, .deliver false]

theorem lagging_resume_is_notified_once :
    let r := (exec (step 64) (State.start fun _ => 0) laggingRun).get rfl
    r.2.map (·.notified) = [true, true, false] ∧
      (accepted r.2).count (resumedAs 10).id = 1 := by
  have run := (Option.some_get
    (rfl : (exec (step 64) (State.start fun _ : Bool => 0) laggingRun).isSome = true)).symm
  have once := (passed_resume_is_notified_once (by decide) run).2.2.2.1
    (timely_of_few (by decide +kernel)) (resumedAs 10).id
  refine ⟨by decide +kernel, once.1 ⟨true, 1, resumedAs 10, by decide, ?_, rfl, rfl, rfl⟩⟩
  decide +kernel

end ResumeBroadcast

import Mathlib.Algebra.Order.Ring.Nat
import Mailwake.FsStatePast
import Mailwake.QuietTime

/-!
# When a batch of filesystem events has settled

`wait_for_settled_batch` with timers that fire when they are due and a runner that takes an event
when it arrives. The wait ends when the events fall quiet, or at the limit of the batch.
-/
namespace FsState
open Channel CommandReport Transition QuietTime
universe u
variable {V : Type u}

/-- When the batch that the runner waits for is due. -/
def Pc.deadline (runner : FsStateRunner) : Pc → Option Nat
  | .settleHead batch | .settling batch => some (due runner batch)
  | _ => none

def Pc.isSettling : Pc → Bool
  | .settling _ => true
  | _ => false

/-- The runner waits for its batch. Time passes while it sleeps with nothing to take, and not
beyond the deadline. Events come after the entry and at no deadline; the channel stays open, and
no shutdown is signalled. -/
def Prompt (runner : FsStateRunner) (entry : Nat) (s : State V) (label : Label V) : Prop :=
  (s.pc.deadline runner).isSome = true ∧
    match label with
    | .advance duration => s.pc.isSettling = true ∧ s.events.items = [] ∧
        (s.pc.deadline runner).all (fun time => s.now + duration ≤ time) = true
    | .notify _ => entry < s.now ∧ s.pc.deadline runner ≠ some s.now
    | .closeEvents => False
    | .setShutdown value => value = false
    | _ => True

instance (runner : FsStateRunner) (entry : Nat) (s : State V) :
    ∀ label, Decidable (Prompt runner entry s label)
  | .advance duration => inferInstanceAs (Decidable ((s.pc.deadline runner).isSome = true ∧
      s.pc.isSettling = true ∧ s.events.items = [] ∧
        (s.pc.deadline runner).all (fun time => s.now + duration ≤ time) = true))
  | .notify _ => inferInstanceAs (Decidable ((s.pc.deadline runner).isSome = true ∧
      entry < s.now ∧ s.pc.deadline runner ≠ some s.now))
  | .closeEvents => isFalse fun h => h.2
  | .setShutdown value =>
    inferInstanceAs (Decidable ((s.pc.deadline runner).isSome = true ∧ value = false))
  | .dropShutdown | .setStartup _ | .dropStartup | .proceed | .shutdownChanged | .startupChanged
  | .recv | .timer | .readDone _ | .startDone _ | .lifecycle _ =>
    inferInstanceAs (Decidable ((s.pc.deadline runner).isSome = true ∧ True))

/-- The times of the events that a step adds to the queue. -/
def arrived (s t : State V) : List Nat :=
  List.replicate (t.events.items.length - s.events.items.length) s.now

def Event.isConsumed : Event V → Bool
  | .consumed _ => true
  | _ => false

def consumptions (tr : List (Event V)) : Nat := tr.countP Event.isConsumed

/-- The wait for `batch`, which began at `entry`, stands at `held`: what it has consumed and what
has arrived since then. -/
structure Settling (runner : FsStateRunner) (entry : Nat) (batch : EventBatch)
    (arrivals : List Nat) (tr : List (Event V)) (s : State V) (held : EventBatch) : Prop where
  head : s.pc.head = .settleHead held
  alive : s.events.sendersAlive = true
  undisturbed : s.shutdown.untrue = true
  entered : entry ≤ s.now
  first : held.first = batch.first
  last : held.last ≤ s.now
  point : held.last = batch.last ∨ held.last ∈ arrivals
  linked : Linked runner.debounce batch.last {a | a ∈ arrivals} held.last
  latest : s.events.items = [] → ∀ a ∈ arrivals, a ≤ held.last
  within : ∀ a ∈ arrivals, entry < a ∧ a ≤ s.now
  inTime : s.now ≤ due runner held ∨ s.now = entry
  sleeping : s.pc = .settling held → s.now ≤ due runner held
  queued : s.events.items ≠ [] → s.now ∈ arrivals ∧ s.now < due runner held
  ahead : held.last ∈ arrivals → held.last < due runner held
  consumed : arrivals.length = consumptions tr + s.events.items.length

variable {runner : FsStateRunner} {entry : Nat} {batch held : EventBatch} {arrivals : List Nat}
  {s t : State V} {tr es : List (Event V)}

theorem deadline_of_head (h : s.pc.head = .settleHead held) :
    s.pc.deadline runner = some (due runner held) := by
  cases hpc : s.pc <;> rw [hpc] at h <;> cases h <;> rfl

theorem arrived_nil (h : t.events.items.length ≤ s.events.items.length) : arrived s t = [] := by
  rw [arrived, Nat.sub_eq_zero_of_le h, List.replicate_zero]

theorem settling_start (hpc : s.pc = .settleHead batch) (past : batch.last ≤ s.now)
    (empty : s.events.items = []) (alive : s.events.sendersAlive = true)
    (undisturbed : s.shutdown.untrue = true) :
    Settling runner s.now batch [] [] s batch where
  head := by rw [hpc]; rfl
  alive := alive
  undisturbed := undisturbed
  entered := le_rfl
  first := rfl
  last := past
  point := Or.inl rfl
  linked := linked_start.mono (by simp) (by simp)
  latest := by simp
  within := by simp
  inTime := Or.inr rfl
  sleeping := by simp [hpc]
  queued := fun full => absurd empty full
  ahead := by simp
  consumed := by simp [empty, consumptions]

/-- Neither time nor the queue moves. -/
theorem Settling.still (old : Settling runner entry batch arrivals tr s held)
    (head : t.pc.head = .settleHead held) (events : t.events = s.events) (now : t.now = s.now)
    (undisturbed : t.shutdown.untrue = true)
    (sleeping : t.pc = .settling held → s.now ≤ due runner held) (silent : consumptions es = 0) :
    Settling runner entry batch (arrivals ++ arrived s t) (tr ++ es) t held := by
  rw [arrived_nil (by rw [events]), List.append_nil]
  exact {
    head := head
    alive := by rw [events]; exact old.alive
    undisturbed := undisturbed
    entered := by rw [now]; exact old.entered
    first := old.first
    last := by rw [now]; exact old.last
    point := old.point
    linked := old.linked
    latest := by rw [events]; exact old.latest
    within := by rw [now]; exact old.within
    inTime := by rw [now]; exact old.inTime
    sleeping := by rw [now]; exact sleeping
    queued := by rw [events, now]; exact old.queued
    ahead := old.ahead
    consumed := by
      have sum := old.consumed
      simp only [consumptions, List.countP_append] at silent sum ⊢
      rw [events, silent]
      exact sum }

theorem Settling.advance (old : Settling runner entry batch arrivals tr s held) {duration : Nat}
    (empty : s.events.items = []) (undue : s.now + duration ≤ due runner held) :
    Settling runner entry batch arrivals tr { s with now := s.now + duration } held :=
  { old with
    entered := Nat.le_add_right_of_le old.entered
    last := Nat.le_add_right_of_le old.last
    within := by
      intro a mem
      have seen := old.within a mem
      exact ⟨seen.1, Nat.le_add_right_of_le seen.2⟩
    inTime := Or.inl undue
    sleeping := fun _ => undue
    queued := fun full => absurd empty full }

/-- An event arrives before the deadline. -/
theorem Settling.arrive (old : Settling runner entry batch arrivals tr s held)
    (later : entry < s.now) (other : s.now ≠ due runner held) (event : FsStateEvent) :
    Settling runner entry batch (arrivals ++ [s.now]) tr
      { s with events := { s.events with items := s.events.items ++ [event] } } held := by
  have early : s.now < due runner held := by
    rcases old.inTime with inTime | here <;> omega
  exact { old with
    point := old.point.imp_right fun mem => List.mem_append_left _ mem
    linked := by
      refine old.linked.mono ?_ fun a mem => List.mem_append_left _ mem
      intro a mem
      rcases List.mem_append.mp mem with mem | new
      · exact Or.inl mem
      · rw [List.mem_singleton.mp new]
        exact Or.inr old.last
    latest := by simp
    within := by
      intro a mem
      rcases List.mem_append.mp mem with mem | new
      · exact old.within a mem
      · rw [List.mem_singleton.mp new]
        exact ⟨later, le_rfl⟩
    queued := fun _ => ⟨by simp, early⟩
    ahead := fun _ => old.last.trans_lt early
    consumed := by
      have sum := old.consumed
      simp only [List.length_append, List.length_singleton]
      omega }

/-- The runner takes the oldest event and begins to wait again. -/
theorem Settling.take (old : Settling runner entry batch arrivals tr s held) {event : FsStateEvent}
    {events : Mpsc FsStateEvent} (items : s.events.items = event :: events.items)
    (alive : events.sendersAlive = s.events.sendersAlive) :
    Settling runner entry batch arrivals (tr ++ [.consumed false])
      { s with events := events, pc := .settleHead ⟨held.first, s.now⟩ } ⟨held.first, s.now⟩ := by
  obtain ⟨fresh, early⟩ := old.queued (by rw [items]; exact List.cons_ne_nil _ _)
  have last := old.last
  simp only [due, lt_min_iff] at early
  have still : s.now < due runner ⟨held.first, s.now⟩ := by
    simp only [due, lt_min_iff]
    omega
  exact {
    head := rfl
    alive := alive.trans old.alive
    undisturbed := old.undisturbed
    entered := old.entered
    first := old.first
    last := le_rfl
    point := Or.inr fresh
    linked := old.linked.next fresh early.1.le
    latest := fun _ a mem => (old.within a mem).2
    within := old.within
    inTime := Or.inl still.le
    sleeping := fun _ => still.le
    queued := fun _ => ⟨fresh, still⟩
    ahead := fun _ => still
    consumed := by
      have sum := old.consumed
      rw [items, List.length_cons] at sum
      simp only [consumptions, List.countP_append, List.countP_singleton, Event.isConsumed,
        if_true] at sum ⊢
      omega }

section
variable [DecidableEq V] {label : Label V}

/-- A step of the wait goes on with it, or ends it with a check as soon as the batch is due. -/
theorem settling_step (old : Settling runner entry batch arrivals tr s held)
    (prompt : Prompt runner entry s label) (h : step runner s label = some (t, es)) :
    (∃ next, Settling runner entry batch (arrivals ++ arrived s t) (tr ++ es) t next) ∨
      (due runner held ≤ s.now ∧ s.events.items = [] ∧
        (t, es) = s.goto (checkNow (V := V) runner)) := by
  have undue (late : due runner held ≤ s.now) : s.events.items = [] := by
    by_contra full
    exact absurd (old.queued full).2 (not_lt.mpr late)
  have head := old.head
  obtain ⟨-, how⟩ := prompt
  cases label with
  | notify event =>
    rw [deadline_of_head head] at how
    simp only [step, old.alive, if_true] at h
    cases h
    left
    refine ⟨held, ?_⟩
    by_cases room : s.events.items.length < runner.capacity
    · have one : arrived s { s with events := s.events.trySend runner.capacity event } =
          [s.now] := by
        simp [arrived, Mpsc.trySend, room]
      rw [List.append_nil, one, Mpsc.trySend, if_pos room]
      exact old.arrive how.1 (fun same => how.2 (by rw [← same])) event
    · rw [Mpsc.trySend, if_neg room]
      exact old.still head rfl rfl old.undisturbed old.sleeping rfl
  | closeEvents => exact how.elim
  | setShutdown value =>
    obtain rfl : value = false := how
    cases h
    left
    exact ⟨held, old.still head rfl rfl (by simp [Watch.send, Watch.untrue]) old.sleeping rfl⟩
  | dropShutdown =>
    cases h
    left
    exact ⟨held, old.still head rfl rfl old.undisturbed old.sleeping rfl⟩
  | setStartup value | dropStartup =>
    cases h
    left
    exact ⟨held, old.still head rfl rfl old.undisturbed old.sleeping rfl⟩
  | advance duration =>
    obtain ⟨-, empty, before⟩ := how
    rw [deadline_of_head head] at before
    cases h
    left
    refine ⟨held, ?_⟩
    have none : arrived s { s with now := s.now + duration } = [] := arrived_nil le_rfl
    rw [List.append_nil, none, List.append_nil]
    exact old.advance empty (by simpa using before)
  | proceed =>
    rcases head_cases head with hpc | hpc
    · simp only [step, proceed, hpc] at h
      split at h
      · rename_i late
        right
        exact ⟨late, undue late, (Option.some.inj h).symm⟩
      · rename_i early
        cases h
        left
        exact ⟨held, old.still rfl rfl rfl old.undisturbed (fun _ => (not_le.mp early).le) rfl⟩
    · simp [step, proceed, hpc] at h
  | shutdownChanged =>
    rcases head_cases head with hpc | hpc
    · cases change : s.shutdown.changed <;> simp [step, shutdownChanged, hpc, change] at h
    · cases change : s.shutdown.changed with
      | none => simp [step, shutdownChanged, change] at h
      | some next =>
        obtain ⟨ok, shutdown⟩ := next
        have vain := Watch.changed_untrue change
        rw [old.undisturbed] at vain
        simp only [step, shutdownChanged, hpc, change, vain, Bool.not_true, Bool.false_eq_true,
          if_false] at h
        cases h
        left
        exact ⟨held, old.still rfl rfl rfl (Watch.untrue_changed change) (by simp) rfl⟩
  | startupChanged =>
    rcases head_cases head with hpc | hpc <;> simp [step, startupChanged, hpc] at h
  | recv =>
    cases got : s.events.recv with
    | none => simp [step, recv, got] at h
    | some next =>
      obtain ⟨message, events⟩ := next
      rcases Mpsc.recv_cases got with ⟨event, rfl, items, alive⟩ | ⟨-, -, gone, -⟩
      · rcases head_cases head with hpc | hpc
        · simp [step, recv, got, hpc] at h
        · simp only [step, recv, got, hpc] at h
          cases h
          left
          refine ⟨⟨held.first, s.now⟩, ?_⟩
          rw [arrived_nil (by simp [items]), List.append_nil]
          exact old.take items alive
      · rw [old.alive] at gone
        cases gone
  | timer =>
    rcases head_cases head with hpc | hpc
    · simp [step, timer, hpc] at h
    · simp only [step, timer, hpc] at h
      split at h
      · rename_i late
        right
        exact ⟨late, undue late, (Option.some.inj h).symm⟩
      · cases h
  | readDone result =>
    rcases head_cases head with hpc | hpc <;> simp [step, readDone, hpc] at h
  | startDone accepted =>
    rcases head_cases head with hpc | hpc <;> simp [step, startDone, hpc] at h
  | lifecycle message =>
    rcases head_cases head with hpc | hpc <;> simp [step, lifecycle, hpc] at h

omit [DecidableEq V] in
theorem deadline_checkNow : (checkNow (V := V) runner).1.deadline runner = none := by
  unfold checkNow
  split <;> rfl

/-- After the wait there is no further step of it. -/
theorem nil_of_elapsed {labels : List (Label V)} (elapsed : s.pc.deadline runner = none)
    (prompt : Meets (step runner) (Prompt runner entry) s labels) : labels = [] := by
  cases labels with
  | nil => rfl
  | cons label rest =>
    have waits := prompt.1.1
    rw [elapsed] at waits
    cases waits

/-- A wait that still goes on has kept its batch. -/
theorem settling_run {labels : List (Label V)}
    (start : Settling runner entry batch arrivals tr s held)
    (prompt : Meets (step runner) (Prompt runner entry) s labels)
    (run : exec (step runner) s labels = some (t, es))
    (waits : (t.pc.deadline runner).isSome = true) :
    ∃ next, Settling runner entry batch (arrivals ++ noted (step runner) arrived s labels)
      (tr ++ es) t next := by
  induction labels generalizing s held arrivals tr es with
  | nil =>
    obtain ⟨rfl, rfl⟩ : s = t ∧ [] = es := by simpa using run
    exact ⟨held, by simpa [noted] using start⟩
  | cons label rest ih =>
    obtain ⟨m, first, later, h, hr, rfl⟩ := exec_cons_some.mp run
    have onward := prompt.2 m first h
    rcases settling_step start prompt.1 h with ⟨next, kept⟩ | ⟨-, -, left⟩
    · rw [noted_cons h, ← List.append_assoc, ← List.append_assoc]
      exact ih kept onward hr
    · have elapsed : m.pc.deadline runner = none := by
        rw [(Prod.mk.inj left).1]
        exact deadline_checkNow
      obtain rfl := nil_of_elapsed elapsed onward
      obtain ⟨rfl, -⟩ : m = t ∧ [] = later := by simpa using hr
      rw [elapsed] at waits
      cases waits

section Return

/-- Without further events the wait ends with a check. -/
def Returns (runner : FsStateRunner) (entry : Nat) (s : State V) : Prop :=
  ∃ labels t es, noted (step runner) arrived s labels = [] ∧
    Meets (step runner) (Prompt runner entry) s labels ∧
    exec (step runner) s labels = some (t, es) ∧ .settled ∈ es

theorem Returns.cons (prompt : Prompt runner entry s label)
    (h : step runner s label = some (t, es)) (none : arrived s t = [])
    (rest : Returns runner entry t) : Returns runner entry s := by
  obtain ⟨labels, u, fs, quiet, meets, run, settled⟩ := rest
  refine ⟨label :: labels, u, es ++ fs, by rw [noted_cons h, none, quiet, List.append_nil],
    ⟨prompt, ?_⟩, exec_cons_some.mpr ⟨t, es, fs, h, run, rfl⟩, List.mem_append_right _ settled⟩
  intro m gs hm
  obtain ⟨rfl, -⟩ := Prod.mk.inj (Option.some.inj (h.symm.trans hm))
  exact meets

omit [DecidableEq V] in
theorem settled_mem_checkNow : .settled ∈ (checkNow (V := V) runner).2 := by
  unfold checkNow
  split <;> simp [emit]

theorem returns_of_check (prompt : Prompt runner entry s label)
    (h : step runner s label = some (s.goto (checkNow runner))) : Returns runner entry s := by
  refine ⟨[label], _, _, ?_, ⟨prompt, fun _ _ _ => trivial⟩,
    exec_cons_some.mpr ⟨_, _, [], h, rfl, rfl⟩, ?_⟩
  · rw [noted_cons h, arrived_nil (by exact le_rfl)]
    rfl
  exact List.mem_append_left _ settled_mem_checkNow

theorem returns_asleep (hpc : s.pc = .settling held) (empty : s.events.items = [])
    (undue : s.now ≤ due runner held) : Returns runner entry s := by
  have wake : s.now + (due runner held - s.now) = due runner held := by omega
  have sleep : Prompt runner entry s (.advance (due runner held - s.now)) := by
    simp [Prompt, hpc, Pc.deadline, Pc.isSettling, empty, wake]
  have wait : Prompt runner entry { s with now := s.now + (due runner held - s.now) } .timer := by
    simp [Prompt, hpc, Pc.deadline]
  exact .cons sleep rfl (arrived_nil le_rfl)
    (returns_of_check wait (by simp [step, timer, hpc, wake]))

theorem returns_taking (hpc : s.pc = .settling held) {event : FsStateEvent}
    {rest : List FsStateEvent} (items : s.events.items = event :: rest)
    (next : Returns runner entry
      { s with events := { s.events with items := rest }, pc := .settleHead ⟨held.first, s.now⟩ }) :
    Returns runner entry s := by
  have wait : Prompt runner entry s .recv := by simp [Prompt, hpc, Pc.deadline]
  have taken : step runner s .recv =
      some ({ s with
        events := { s.events with items := rest }
        pc := .settleHead ⟨held.first, s.now⟩ }, [.consumed false]) := by
    simp [step, recv, Mpsc.recv, items, hpc]
  exact .cons wait taken (arrived_nil (by simp [items])) next

theorem returns_proceeding (hpc : s.pc = .settleHead held)
    (next : s.now < due runner held → Returns runner entry { s with pc := .settling held }) :
    Returns runner entry s := by
  have wait : Prompt runner entry s .proceed := by simp [Prompt, hpc, Pc.deadline]
  by_cases late : due runner held ≤ s.now
  · exact returns_of_check wait (by simp [step, proceed, hpc, late])
  · have sleeps : step runner s .proceed = some ({ s with pc := .settling held }, []) := by
      simp [step, proceed, hpc, late, State.goto]
    exact .cons wait sleeps (arrived_nil le_rfl) (next (not_le.mp late))

theorem settling_returns (old : Settling runner entry batch arrivals tr s held) :
    Returns runner entry s := by
  induction n : s.events.items.length generalizing s held tr with
  | zero =>
    have empty : s.events.items = [] := List.length_eq_zero_iff.mp n
    rcases head_cases old.head with hpc | hpc
    · exact returns_proceeding hpc fun early => returns_asleep rfl empty early.le
    · exact returns_asleep hpc empty (old.sleeping hpc)
  | succ n ih =>
    obtain ⟨event, rest, items⟩ := List.exists_cons_of_length_eq_add_one n
    have later : Returns runner entry
        { s with
          events := { s.events with items := rest }
          pc := .settleHead ⟨held.first, s.now⟩ } :=
      ih (old.take items rfl) (by simpa [items] using n)
    rcases head_cases old.head with hpc | hpc
    · refine returns_proceeding hpc fun _ => ?_
      have asleep : ({ s with pc := .settling held } : State V).pc = .settling held := rfl
      exact returns_taking asleep items later
    · exact returns_taking hpc items later

end Return

/-- The wait for `batch` is over, and `held` is what became of the batch. -/
structure WaitedOut (runner : FsStateRunner) (entry : Nat) (batch : EventBatch)
    (arrivals : List Nat) (tr : List (Event V)) (s : State V) (held : EventBatch) : Prop where
  first : held.first = batch.first
  last : arrivals = [] ∧ held.last = batch.last ∨ IsGreatest {a | a ∈ arrivals} held.last
  before : ∀ a ∈ arrivals, entry < a ∧ a < s.now
  consumed : consumptions tr = arrivals.length ∧ s.events.items = []
  quiet : ∀ future : Set Nat, (∀ a, a ≤ s.now → (a ∈ future ↔ a ∈ arrivals)) →
    EndsAt entry (batch.first + runner.maxDebounce)
      (quietEnds runner.debounce batch.last future) s.now

omit [DecidableEq V] in
theorem waitedOut_of_due (old : Settling runner entry batch arrivals tr s held)
    (past : batch.last ≤ entry) (late : due runner held ≤ s.now) (empty : s.events.items = []) :
    WaitedOut runner entry batch arrivals tr s held := by
  have latest := old.latest empty
  have entered := old.entered
  have now : s.now = due runner held ∨ s.now = entry := old.inTime.imp_left (le_antisymm · late)
  have restarted (a : Nat) (mem : a ∈ arrivals) : held.last ∈ arrivals := by
    rcases old.point with same | mem'
    · have after := (old.within a mem).1
      have before := latest a mem
      omega
    · exact mem'
  refine ⟨old.first, ?_, ?_, ?_, ?_⟩
  · cases arrivals with
    | nil => exact Or.inl ⟨rfl, old.point.resolve_right (List.not_mem_nil)⟩
    | cons a rest => exact Or.inr ⟨restarted a List.mem_cons_self, latest⟩
  · intro a mem
    have within := old.within a mem
    have ahead := old.ahead (restarted a mem)
    have before := latest a mem
    omega
  · have sum := old.consumed
    rw [empty] at sum
    exact ⟨sum.symm, empty⟩
  · intro future agree
    have elapsed : s.now = max entry (min (batch.first + runner.maxDebounce)
        (held.last + runner.debounce)) := by
      have split : due runner held =
          min (batch.first + runner.maxDebounce) (held.last + runner.debounce) := by
        rw [due, old.first, min_comm]
      rw [split] at late now
      rcases now with same | same
      · rw [max_eq_right (same ▸ entered)]
        exact same
      · rw [max_eq_left (same ▸ late)]
        exact same
    exact old.linked.endsAt agree old.last latest old.point elapsed

/-- With timers that fire when they are due, a wait for a batch goes on no longer than the limit
and can always end, and it ends with a check when the events have fallen quiet, or at the limit. -/
theorem settles_when_quiet {labels : List (Label V)} {m : State V}
    (hpc : s.pc = .settleHead batch) (past : batch.last ≤ s.now) (empty : s.events.items = [])
    (alive : s.events.sendersAlive = true) (undisturbed : s.shutdown.untrue = true)
    (prompt : Meets (step runner) (Prompt runner s.now) s labels)
    (run : exec (step runner) s labels = some (m, tr)) (waits : m.pc.head = .settleHead held) :
    m.now ≤ max s.now (batch.first + runner.maxDebounce) ∧ Returns runner s.now m ∧
      ∀ label t es, Prompt runner s.now m label → step runner m label = some (t, es) →
        t.pc.deadline runner = none →
        (t, es) = m.goto (checkNow (V := V) runner) ∧
          WaitedOut runner s.now batch (noted (step runner) arrived s labels) tr m held := by
  obtain ⟨next, kept⟩ := settling_run (settling_start hpc past empty alive undisturbed) prompt run
    (by rw [deadline_of_head waits]; rfl)
  have same : next = held := by
    have head := kept.head
    rw [waits] at head
    cases head
    rfl
  subst same
  refine ⟨?_, settling_returns kept, ?_⟩
  · rcases kept.inTime with inTime | here
    · have limit : due runner next ≤ next.first + runner.maxDebounce := min_le_right _ _
      rw [kept.first] at limit
      exact (inTime.trans limit).trans (le_max_right _ _)
    · exact here ▸ le_max_left _ _
  · intro label t es prompt h elapsed
    rcases settling_step kept prompt h with ⟨held, on⟩ | ⟨late, none, left⟩
    · rw [deadline_of_head on.head] at elapsed
      cases elapsed
    · exact ⟨left, waitedOut_of_due kept past late none⟩

end

end FsState

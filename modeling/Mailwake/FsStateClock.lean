import Mailwake.DaemonConfig
import Mailwake.FsStateSettling

/-!
# The wait for a batch on a clock that ends

`batch.last + self.debounce` and `batch.first + self.max_debounce` are computed at the head of the
wait. The source panics there when one of them is no instant; up to then, it takes the steps that it
would take on a clock without an end.
-/
namespace FsState
open Transition QuietTime
universe u
variable {V : Type u}

/-- The due time of a batch is computed by this step, and cannot be. -/
def panics (runner : FsStateRunner) (s : State V) : Label V → Bool
  | .proceed =>
    match s.pc with
    | .settleHead batch => !decide (DueFits runner batch)
    | _ => false
  | _ => false

/-- A runner that has panicked has no state. -/
def onClock (runner : FsStateRunner) (entry : Nat) : Option (State V) → Label V → Prop
  | some s, label => Prompt runner entry s label
  | none, _ => False

variable [DecidableEq V]

def clockStep (runner : FsStateRunner) :
    Option (State V) → Label V → Option (Option (State V) × List (Event V))
  | none, _ => none
  | some s, label =>
    if panics runner s label then some (none, [])
    else (step runner s label).map fun next => (some next.1, next.2)

/-- Without further events the wait ends with a check. -/
def ReturnsOnClock (runner : FsStateRunner) (entry : Nat) (s : State V) : Prop :=
  ∃ labels t es, noted (step runner) arrived s labels = [] ∧
    Meets (clockStep runner) (onClock runner entry) (some s) labels ∧
    exec (clockStep runner) (some s) labels = some (t, es) ∧ .settled ∈ es

/-- The wait for `batch` goes on to `m` as it would on a clock without an end. It has lasted no
longer than the limit and can always end, and its next step goes on with it or ends it with a check
when the events have fallen quiet, or at the limit. -/
structure Settles (runner : FsStateRunner) (s : State V) (batch : EventBatch)
    (labels : List (Label V)) (m : State V) (tr : List (Event V)) (held : EventBatch) : Prop where
  run : exec (clockStep runner) (some s) labels = some (some m, tr)
  bounded : m.now ≤ max s.now (batch.first + runner.maxDebounce)
  returns : ReturnsOnClock runner s.now m
  leaves : ∀ label next es, Prompt runner s.now m label →
    clockStep runner (some m) label = some (next, es) →
    ∃ t, next = some t ∧ (t.pc.deadline runner = none →
      (t, es) = m.goto (checkNow (V := V) runner) ∧
        WaitedOut runner s.now batch (noted (step runner) arrived s labels) tr m held)

section Steps
variable {runner : FsStateRunner} {entry : Nat} {batch held : EventBatch} {arrivals : List Nat}
  {s t : State V} {label : Label V} {tr es : List (Event V)} {next : Option (State V)}

omit [DecidableEq V] in
theorem not_panics_of_fits (head : s.pc.head = .settleHead held) (fits : DueFits runner held) :
    panics runner s label = false := by
  cases label with
  | proceed =>
    rcases head_cases head with hpc | hpc
    · simp [panics, hpc, fits]
    · simp [panics, hpc]
  | _ => rfl

theorem clockStep_some : clockStep runner (some s) label = some (next, es) ↔
    (panics runner s label = true ∧ next = none ∧ es = []) ∨
      (panics runner s label = false ∧
        ∃ t, step runner s label = some (t, es) ∧ next = some t) := by
  rw [clockStep]
  cases panics runner s label with
  | true => simp [eq_comm]
  | false => simp [Prod.ext_iff, eq_comm, and_comm]

/-- Only the check at its head leads out of the head of the wait. -/
theorem step_settleHead (hpc : s.pc = .settleHead held)
    (h : step runner s label = some (t, es)) : label = .proceed ∨ t.pc = .settleHead held := by
  cases label with
  | proceed => exact Or.inl rfl
  | notify event =>
    simp only [step] at h
    split at h
    · cases h
      exact Or.inr hpc
    · cases h
  | closeEvents | setShutdown | dropShutdown | setStartup | dropStartup | advance =>
    cases h
    exact Or.inr hpc
  | shutdownChanged =>
    cases change : s.shutdown.changed <;> simp [step, shutdownChanged, hpc, change] at h
  | recv =>
    cases got : s.events.recv with
    | none => simp [step, recv, got] at h
    | some next =>
      obtain ⟨message, events⟩ := next
      cases message <;> simp [step, recv, got, hpc] at h
  | startupChanged | timer | readDone | startDone | lifecycle =>
    simp [step, startupChanged, timer, readDone, startDone, lifecycle, hpc] at h

/-- A runner that is asleep has been asleep for the same batch, or has just gone to sleep. -/
theorem settling_from {batch : EventBatch} (head : s.pc.head = .settleHead held)
    (h : step runner s label = some (t, es)) (asleep : t.pc = .settling batch) :
    s.pc = .settling batch ∨ label = .proceed ∧ s.pc = .settleHead batch := by
  have checked : (checkNow (V := V) runner).1 ≠ .settling batch := by
    unfold checkNow
    split <;> nofun
  rcases head_cases head with hpc | hpc
  · rcases step_settleHead hpc h with rfl | same
    · simp only [step, proceed, hpc] at h
      split at h
      · cases h
        exact absurd asleep checked
      · cases h
        cases asleep
        exact Or.inr ⟨rfl, hpc⟩
    · rw [same] at asleep
      cases asleep
  · left
    cases label with
    | notify event =>
      simp only [step] at h
      split at h
      · cases h
        exact asleep
      · cases h
    | closeEvents | setShutdown | dropShutdown | setStartup | dropStartup | advance =>
      cases h
      exact asleep
    | shutdownChanged =>
      cases change : s.shutdown.changed with
      | none => simp [step, shutdownChanged, change] at h
      | some next =>
        simp only [step, shutdownChanged, change, hpc] at h
        cases h
        dsimp only at asleep
        split at asleep <;> cases asleep
    | recv =>
      cases got : s.events.recv with
      | none => simp [step, recv, got] at h
      | some next =>
        obtain ⟨message, events⟩ := next
        cases message <;> simp only [step, recv, got, hpc] at h <;> cases h <;> cases asleep
    | timer =>
      simp only [step, timer, hpc] at h
      split at h
      · cases h
        exact absurd asleep checked
      · cases h
    | proceed | startupChanged | readDone | startDone | lifecycle =>
      simp [step, proceed, startupChanged, readDone, startDone, lifecycle, hpc] at h

/-- The deadlines of every batch that a wait can come to have a place on the clock. -/
structure DeadlinesFit (runner : FsStateRunner) (batch : EventBatch) (arrivals : List Nat) :
    Prop where
  limit : batch.first + runner.maxDebounce < clockEnd
  start : batch.last + runner.debounce < clockEnd
  later : ∀ a ∈ arrivals, a + runner.debounce < clockEnd

omit [DecidableEq V] in
theorem DeadlinesFit.due (fits : DeadlinesFit runner batch arrivals)
    (old : Settling runner entry batch arrivals tr s held) : DueFits runner held := by
  refine ⟨?_, old.first ▸ fits.limit⟩
  rcases old.point with same | mem
  · exact same ▸ fits.start
  · exact fits.later _ mem

omit [DecidableEq V] in
/-- The due time of the last batch is the latest. -/
theorem deadlinesFit_of_due (old : Settling runner entry batch arrivals tr s held)
    (past : batch.last ≤ entry) (empty : s.events.items = []) (fits : DueFits runner held) :
    DeadlinesFit runner batch arrivals := by
  have latest := old.latest empty
  obtain ⟨quiet, limit⟩ := fits
  refine ⟨old.first ▸ limit, ?_, fun a mem => ?_⟩
  · have before : batch.last ≤ held.last := by
      rcases old.point with same | mem
      · exact same.ge
      · exact past.trans (old.within _ mem).1.le
    omega
  · have before := latest a mem
    omega

theorem DeadlinesFit.mono {more : List Nat} (fits : DeadlinesFit runner batch (arrivals ++ more)) :
    DeadlinesFit runner batch arrivals :=
  ⟨fits.limit, fits.start, fun a mem => fits.later a (List.mem_append_left _ mem)⟩

/-- With the batch that has settled the wait is over. -/
theorem elapsed_of_settled (head : s.pc.head = .settleHead held)
    (h : step runner s label = some (t, es)) (settled : .settled ∈ es) :
    t.pc.deadline runner = none := by
  cases step_move h with
  | compare | submitUnread => rfl
  | quiet | stop | signal | take | note | suppress | progress => simp at settled
  | fail origin dirty event failing =>
    rcases head_cases head with hpc | hpc <;> (rw [hpc] at failing; cases failing)
  | _ => simp_all [Pc.head]

/-- The wait goes on, and the due time that a sleep waits for has been computed. -/
structure Waiting (runner : FsStateRunner) (entry : Nat) (batch : EventBatch)
    (arrivals : List Nat) (tr : List (Event V)) (s : State V) (held : EventBatch) : Prop where
  settling : Settling runner entry batch arrivals tr s held
  computed : s.pc = .settling held → DueFits runner held

omit [DecidableEq V] in
theorem fits_of_proceed (hpc : s.pc = .settleHead held)
    (clear : panics runner s .proceed = false) : DueFits runner held := by
  simpa [panics, hpc] using clear

/-- A step that does not panic goes on with the wait, or ends it after a due time that fits. -/
theorem waiting_step (old : Waiting runner entry batch arrivals tr s held)
    (prompt : Prompt runner entry s label) (clear : panics runner s label = false)
    (h : step runner s label = some (t, es)) :
    (∃ new, Waiting runner entry batch (arrivals ++ arrived s t) (tr ++ es) t new) ∨
      (DueFits runner held ∧ s.events.items = [] ∧
        (t, es) = s.goto (checkNow (V := V) runner)) := by
  have head := old.settling.head
  rcases settling_step old.settling prompt h with ⟨new, kept⟩ | ⟨-, empty, left⟩
  · left
    refine ⟨new, kept, fun asleep => ?_⟩
    rcases settling_from head h asleep with same | ⟨rfl, before⟩
    · rw [same] at head
      cases head
      exact old.computed same
    · exact fits_of_proceed before clear
  · right
    refine ⟨?_, empty, left⟩
    rcases head_cases head with hpc | hpc
    · rcases step_settleHead hpc h with rfl | same
      · exact fits_of_proceed hpc clear
      · have elapsed : (checkNow (V := V) runner).1.deadline runner = none := deadline_checkNow
        have there : t.pc = (checkNow (V := V) runner).1 := congrArg (·.1.pc) left
        rw [← there, same] at elapsed
        cases elapsed
    · exact old.computed hpc

end Steps

section Runs
variable {runner : FsStateRunner} {entry : Nat} {batch held : EventBatch} {arrivals : List Nat}
  {s t m : State V} {tr es : List (Event V)} {labels : List (Label V)} {next : Option (State V)}

theorem exec_panicked {next : Option (State V)}
    (run : exec (clockStep runner) none labels = some (next, es)) : next = none ∧ es = [] := by
  cases labels with
  | nil =>
    obtain ⟨rfl, rfl⟩ : none = next ∧ [] = es := by simpa using run
    exact ⟨rfl, rfl⟩
  | cons label rest =>
    obtain ⟨_, _, _, h, -, -⟩ := exec_cons_some.mp run
    cases h

/-- A check comes only after due times that fit. -/
theorem fits_of_settled (old : Waiting runner entry batch arrivals tr s held)
    (past : batch.last ≤ entry)
    (prompt : Meets (clockStep runner) (onClock runner entry) (some s) labels)
    (run : exec (clockStep runner) (some s) labels = some (next, es)) (settled : .settled ∈ es) :
    DeadlinesFit runner batch arrivals := by
  induction labels generalizing s held arrivals tr es with
  | nil =>
    obtain ⟨-, rfl⟩ : some s = next ∧ [] = es := by simpa using run
    cases settled
  | cons label rest ih =>
    obtain ⟨m, first, later, h, hr, rfl⟩ := exec_cons_some.mp run
    rcases clockStep_some.mp h with ⟨-, rfl, rfl⟩ | ⟨clear, u, ran, rfl⟩
    · obtain ⟨-, rfl⟩ := exec_panicked hr
      cases settled
    · rcases waiting_step old prompt.1 clear ran with ⟨new, kept⟩ | ⟨fits, empty, -⟩
      · rcases List.mem_append.mp settled with now | after
        · have elapsed := elapsed_of_settled old.settling.head ran now
          rw [deadline_of_head kept.settling.head] at elapsed
          cases elapsed
        · exact (ih kept (prompt.2 _ _ h) hr after).mono
      · exact deadlinesFit_of_due old.settling past empty fits

/-- A wait that goes on has computed the due time of each batch it has slept for. -/
theorem waiting_run (old : Waiting runner entry batch arrivals tr s held)
    (prompt : Meets (step runner) (Prompt runner entry) s labels)
    (run : exec (clockStep runner) (some s) labels = some (some m, es))
    (waits : (m.pc.deadline runner).isSome = true) :
    ∃ new, Waiting runner entry batch (arrivals ++ noted (step runner) arrived s labels)
      (tr ++ es) m new := by
  induction labels generalizing s held arrivals tr es with
  | nil =>
    obtain ⟨same, rfl⟩ : some s = some m ∧ [] = es := by simpa using run
    cases same
    exact ⟨held, by simpa [noted] using old⟩
  | cons label rest ih =>
    obtain ⟨next, first, later, h, hr, rfl⟩ := exec_cons_some.mp run
    rcases clockStep_some.mp h with ⟨-, rfl, -⟩ | ⟨clear, u, ran, rfl⟩
    · cases (exec_panicked hr).1
    · rcases waiting_step old prompt.1 clear ran with ⟨new, kept⟩ | ⟨-, -, left⟩
      · rw [noted_cons ran, ← List.append_assoc, ← List.append_assoc]
        exact ih kept (prompt.2 _ _ ran) hr
      · have elapsed : u.pc.deadline runner = none := by
          rw [(Prod.mk.inj left).1]
          exact deadline_checkNow
        obtain rfl := nil_of_elapsed elapsed (prompt.2 _ _ ran)
        obtain ⟨same, -⟩ : some u = some m ∧ [] = later := by simpa using hr
        cases same
        rw [elapsed] at waits
        cases waits

/-- While the due times fit, the wait takes the steps of a clock without an end. -/
theorem run_on_clock (old : Settling runner entry batch arrivals tr s held)
    (prompt : Meets (step runner) (Prompt runner entry) s labels)
    (run : exec (step runner) s labels = some (t, es))
    (fits : DeadlinesFit runner batch (arrivals ++ noted (step runner) arrived s labels)) :
    Meets (clockStep runner) (onClock runner entry) (some s) labels ∧
      exec (clockStep runner) (some s) labels = some (some t, es) := by
  induction labels generalizing s held arrivals tr es with
  | nil =>
    obtain ⟨rfl, rfl⟩ : s = t ∧ [] = es := by simpa using run
    exact ⟨trivial, rfl⟩
  | cons label rest ih =>
    obtain ⟨m, first, later, h, hr, rfl⟩ := exec_cons_some.mp run
    have onward := prompt.2 m first h
    rw [noted_cons h, ← List.append_assoc] at fits
    have clear : panics runner s label = false :=
      not_panics_of_fits old.head (fits.mono.mono.due old)
    have same : clockStep runner (some s) label = some (some m, first) :=
      clockStep_some.mpr (Or.inr ⟨clear, m, h, rfl⟩)
    have next : Meets (clockStep runner) (onClock runner entry) (some m) rest ∧
        exec (clockStep runner) (some m) rest = some (some t, later) := by
      rcases settling_step old prompt.1 h with ⟨new, kept⟩ | ⟨-, -, left⟩
      · exact ih kept onward hr fits
      · have elapsed : m.pc.deadline runner = none := by
          rw [(Prod.mk.inj left).1]
          exact deadline_checkNow
        obtain rfl := nil_of_elapsed elapsed onward
        obtain ⟨rfl, rfl⟩ : m = t ∧ [] = later := by simpa using hr
        exact ⟨trivial, rfl⟩
    refine ⟨⟨prompt.1, ?_⟩, exec_cons_some.mpr ⟨_, _, _, same, next.2, rfl⟩⟩
    intro u fs hu
    obtain ⟨rfl, -⟩ := Prod.mk.inj (Option.some.inj (same.symm.trans hu))
    exact next.1

/-- A wait for a batch goes on and ends as it should on the clock if and only if the limit of the
batch, and the deadlines after its last event and after every further event, are instants. -/
theorem settles_iff_deadlines_fit (hpc : s.pc = .settleHead batch) (past : batch.last ≤ s.now)
    (empty : s.events.items = []) (alive : s.events.sendersAlive = true)
    (undisturbed : s.shutdown.untrue = true)
    (prompt : Meets (step runner) (Prompt runner s.now) s labels)
    (run : exec (step runner) s labels = some (m, tr)) (waits : m.pc.head = .settleHead held) :
    Settles runner s batch labels m tr held ↔
      DeadlinesFit runner batch (noted (step runner) arrived s labels) := by
  have start : Settling runner s.now batch [] [] s batch :=
    settling_start hpc past empty alive undisturbed
  have going : (m.pc.deadline runner).isSome = true := by
    rw [deadline_of_head waits]
    rfl
  constructor
  · intro settles
    have awake : s.pc = .settling batch → DueFits runner batch := by
      intro asleep
      rw [hpc] at asleep
      cases asleep
    obtain ⟨new, kept⟩ := waiting_run ⟨start, awake⟩ prompt settles.run going
    obtain ⟨rest, t, es, -, onward, ran, settled⟩ := settles.returns
    simpa using fits_of_settled kept past onward ran settled
  · intro fits
    obtain ⟨bounded, returns, leaves⟩ :=
      settles_when_quiet hpc past empty alive undisturbed prompt run waits
    obtain ⟨new, kept⟩ := settling_run start prompt run going
    rw [List.nil_append] at kept
    refine ⟨(run_on_clock start prompt run (by simpa using fits)).2, bounded, ?_, ?_⟩
    · obtain ⟨rest, t, es, quiet, onward, ran, settled⟩ := returns
      obtain ⟨meets, ends⟩ := run_on_clock kept onward ran (by rwa [quiet, List.append_nil])
      exact ⟨rest, some t, es, quiet, meets, ends, settled⟩
    · intro label next es here h
      rcases clockStep_some.mp h with ⟨panicked, -, -⟩ | ⟨-, t, ran, rfl⟩
      · rw [not_panics_of_fits kept.head (fits.due kept)] at panicked
        cases panicked
      · exact ⟨t, rfl, leaves label t es here ran⟩

end Runs

private def patientRunner : FsStateRunner := ⟨5, 20, 0, false, false, 8⟩

/-- The first event has come at once. -/
private def firstEvent : List (Label Unit) := [.proceed, .proceed, .notify .changed, .recv]

/-- Two more events come, each before the runner has waited long enough. -/
private def moreEvents : List (Label Unit) :=
  [.proceed, .advance 3, .notify .changed, .recv, .proceed, .advance 4, .notify .overflow, .recv,
    .proceed, .advance 5]

/-- The wait ends five units after the third event, though a fourth one comes later. -/
theorem two_events_are_waited_out :
    let s := ((exec (step patientRunner) (.start false) firstEvent).get rfl).1
    let m := (exec (step patientRunner) s moreEvents).get rfl
    Settles patientRunner s ⟨0, 0⟩ moreEvents m.1 m.2 ⟨0, 7⟩ ∧
      m.1.now = 12 ∧ EndsAt 0 20 (quietEnds 5 0 {a | a = 3 ∨ a = 7 ∨ a = 40}) m.1.now := by
  intro s m
  have first := (Option.some_get
    (rfl : (exec (step patientRunner) (.start false) firstEvent).isSome = true)).symm
  have more := (Option.some_get
    (rfl : (exec (step patientRunner) s moreEvents).isSome = true)).symm
  have entry : s.pc.head = .settleHead ⟨0, 0⟩ := rfl
  have fits : DeadlinesFit patientRunner ⟨0, 0⟩ [3, 7] :=
    ⟨by decide, by decide, by decide⟩
  have settles : Settles patientRunner s ⟨0, 0⟩ moreEvents m.1 m.2 ⟨0, 7⟩ :=
    (settles_iff_deadlines_fit rfl (batch_is_past first entry).2 rfl rfl rfl (by decide) more
      rfl).mpr fits
  have prompt : Prompt patientRunner 0 m.1 .timer := by decide
  obtain ⟨t, same, left⟩ := settles.leaves .timer _ _ prompt rfl
  have elapsed : WaitedOut patientRunner 0 ⟨0, 0⟩ [3, 7] m.2 m.1 ⟨0, 7⟩ :=
    (left (by cases same; rfl)).2
  refine ⟨settles, rfl, elapsed.quiet _ ?_⟩
  intro a early
  have before : a ≤ 12 := early
  simp only [Set.mem_ofPred_eq, List.mem_cons, List.not_mem_nil, or_false]
  omega

open DaemonConfig

private def endlessSource : FsStateSourceConfig :=
  ⟨"drafts", ["/mail/drafts"], none, "sync", false, some (2 ^ 63 - 1), none⟩

private def endlessConfig : Config :=
  { Config.empty with
    commands := [⟨"sync", none, "sync", none, none, none, none, none⟩]
    sources := [.fsState endlessSource] }

private def endlessRunner : FsStateRunner :=
  ⟨endlessSource.debounce endlessConfig * 10 ^ 9, endlessSource.maxDebounce endlessConfig * 10 ^ 9,
    10 ^ 9, false, false, 64⟩

/-- An event comes one second after the zero of the clock. -/
private def earlyEvent : List (Label Unit) :=
  [.advance (10 ^ 9), .proceed, .proceed, .notify .changed, .recv]

/-- With the longest debounce that a configuration can give, the first event of such a source is its
last: the due time is no instant, and the runner panics. -/
theorem endless_debounce_panics : endlessConfig.validate = .ok () ∧
    exec (clockStep endlessRunner) (some (.start false)) (earlyEvent ++ [.proceed]) =
      some (none, [.initialReady true, .awaitingWork, .consumed false]) ∧
    ¬ ∀ (runner : FsStateRunner) (s m : State Unit) (batch held : EventBatch)
      (labels : List (Label Unit)) (tr : List (Event Unit)), s.pc = .settleHead batch →
      batch.first ≤ batch.last → batch.last ≤ s.now → s.events.items = [] →
      s.events.sendersAlive = true → s.shutdown.untrue = true →
      Meets (step runner) (Prompt runner s.now) s labels →
      exec (step runner) s labels = some (m, tr) → m.pc.head = .settleHead held →
      Settles runner s batch labels m tr held := by
  refine ⟨by decide +kernel, rfl, fun all => ?_⟩
  let s : State Unit := ((exec (step endlessRunner) (.start false) earlyEvent).get rfl).1
  have settles : Settles endlessRunner s ⟨10 ^ 9, 10 ^ 9⟩ [] s [] ⟨10 ^ 9, 10 ^ 9⟩ :=
    all endlessRunner s s _ _ [] [] rfl le_rfl le_rfl rfl rfl rfl trivial rfl rfl
  obtain ⟨labels, t, es, -, onward, ran, settled⟩ := settles.returns
  have waiting : Waiting endlessRunner s.now ⟨10 ^ 9, 10 ^ 9⟩ [] [] s ⟨10 ^ 9, 10 ^ 9⟩ :=
    ⟨settling_start rfl le_rfl rfl rfl rfl, nofun⟩
  have fits := fits_of_settled waiting le_rfl onward ran settled
  exact absurd fits.start (by decide)

end FsState

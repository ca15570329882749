import Mailwake.FsStateProvenance

/-!
# The own command of a filesystem-state source

The runner stands beside the lane that serves its submission. The lane sends on the
submission's lifecycle channel, and filesystem events come through the other queue; a
`select!` hears either first. Without a `state_cmd` nothing compares what an event led
to, so only its attribution keeps the source from triggering itself.
-/
namespace SelfTrigger
open Channel CommandReport Transition
open FsState (FsStateRunner Origin DirtyTracker Pc Event)
universe u
variable {V : Type u}

/-- How far the lane has come with the latest submission. -/
inductive Served where
  | nothing
  | accepted
  | running
  | done
  deriving DecidableEq

structure State (V : Type u) where
  source : FsState.State V
  served : Served
  lifecycle : Mpsc CommandLifecycle
  /-- Whether a command was submitted yet. -/
  submitted : Bool

def State.start (runOnStartup : Bool) : State V :=
  ⟨.start runOnStartup, .nothing, .empty, false⟩

inductive Label (V : Type u) where
  | source (label : FsState.Label V)
  /-- The lane takes the request, or refuses it. -/
  | accept (accepted : Bool)
  | started
  | finished (report : CommandRunReport)
  /-- The lane drops the request without a report. -/
  | lose
  /-- The runner's `select!` takes the lifecycle message. -/
  | hear

def submission : Event V → Bool
  | .submitted _ => true
  | _ => false

/-- The lane's end of the lifecycle channel: the last message closes it. -/
def finish (report : CommandRunReport) (lifecycle : Mpsc CommandLifecycle) :
    Mpsc CommandLifecycle :=
  ⟨lifecycle.items ++ [.finished report], false⟩

section
variable [DecidableEq V]

def sourceStep (runner : FsStateRunner) (s : State V) (label : FsState.Label V) :
    Option (State V × List (Event V)) :=
  (FsState.step runner s.source label).map fun next =>
    ({ s with source := next.1, submitted := s.submitted || next.2.any submission }, next.2)

def step (runner : FsStateRunner) (s : State V) : Label V → Option (State V × List (Event V))
  | .source (.startDone _) => none
  | .source (.lifecycle _) => none
  | .source label => sourceStep runner s label
  | .accept accepted =>
    (sourceStep runner s (.startDone accepted)).map fun next =>
      ({ next.1 with
          served := if accepted then .accepted else .done
          lifecycle := .empty }, next.2)
  | .started =>
    if s.served = .accepted then
      some ({ s with
          served := .running
          lifecycle := { s.lifecycle with items := s.lifecycle.items ++ [.started] } }, [])
    else none
  | .finished report =>
    if s.served = .accepted ∨ s.served = .running then
      some ({ s with served := .done, lifecycle := finish report s.lifecycle }, [])
    else none
  | .lose =>
    if s.served = .accepted ∨ s.served = .running then
      some ({ s with
          served := .done
          lifecycle := { s.lifecycle with sendersAlive := false } }, [])
    else none
  | .hear =>
    match s.lifecycle.recv with
    | none => none
    | some (message, rest) =>
      (sourceStep runner s (.lifecycle message)).map fun next =>
        ({ next.1 with lifecycle := rest }, next.2)

/-- What the own command causes is all that happens in the filesystem: no event is left over
at the first submission, and later ones are enqueued while a command runs. Every command
is accepted and succeeds. -/
def OwnEvents (runner : FsStateRunner) (s : State V) : Label V → Prop
  | .source (.notify _) => s.submitted = true → s.served = .running
  | .source label =>
    s.submitted = false →
      (FsState.step runner s.source label).any (fun next => next.2.any submission) = true →
      s.source.events.items = []
  | .accept accepted => accepted = true
  | .started => True
  | .finished report => s.served = .running ∧ report.success = true
  | .lose => False
  | .hear => True

instance (runner : FsStateRunner) (s : State V) : (a : Label V) → Decidable (OwnEvents runner s a)
  | .source (.notify _) => inferInstanceAs (Decidable (_ → _))
  | .source .closeEvents | .source (.setShutdown _) | .source .dropShutdown
  | .source (.setStartup _) | .source .dropStartup | .source (.advance _) | .source .proceed
  | .source .shutdownChanged | .source .startupChanged | .source .recv | .source .timer
  | .source (.readDone _) | .source (.startDone _) | .source (.lifecycle _) =>
    inferInstanceAs (Decidable (_ → _ → _))
  | .accept accepted => inferInstanceAs (Decidable (accepted = true))
  | .started => isTrue trivial
  | .finished report => inferInstanceAs (Decidable (_ ∧ report.success = true))
  | .lose => isFalse id
  | .hear => isTrue trivial

end

def isFinished : CommandLifecycle → Bool
  | .started => false
  | .finished _ => true

def inOwnSettle : Pc → Bool
  | .ownSettle _ _ _ => true
  | _ => false

/-- Every event is received while the runner attributes it to its own command: `Started` is
heard before an event is, and the queue is empty when the suppression ends. -/
def Attributed (runner : FsStateRunner) (s : State V) : Label V → Prop
  | .source .recv => .started ∉ s.lifecycle.items
  | .source .timer => inOwnSettle s.source.pc = true → s.source.events.items = []
  | .hear =>
    runner.selfSettle = 0 → s.lifecycle.items.head?.any isFinished = true →
      s.source.events.items = []
  | _ => True

instance (runner : FsStateRunner) (s : State V) : (a : Label V) → Decidable (Attributed runner s a)
  | .source .recv => inferInstanceAs (Decidable (.started ∉ s.lifecycle.items))
  | .source .timer => inferInstanceAs (Decidable (_ → _))
  | .hear => inferInstanceAs (Decidable (_ → _ → _))
  | .source (.notify _) | .source .closeEvents | .source (.setShutdown _) | .source .dropShutdown
  | .source (.setStartup _) | .source .dropStartup | .source (.advance _) | .source .proceed
  | .source .shutdownChanged | .source .startupChanged | .source (.readDone _)
  | .source (.startDone _) | .source (.lifecycle _) | .accept _ | .started | .finished _
  | .lose => isTrue trivial

/-- Only a start-up trigger may follow another submission, and there is one of them. -/
def First (before : List (Event V)) : Event V → Prop
  | .submitted .batch => ∀ origin, .submitted origin ∉ before
  | .submitted .startup => .submitted .startup ∉ before
  | _ => True

/-- What the lane still says after `Started`, by how far it is. -/
inductive Ending : Served → Bool → List CommandLifecycle → Prop where
  | running : Ending .running true []
  | done (report : CommandRunReport) (good : report.success = true) (sendersAlive : Bool) :
      Ending .done sendersAlive [.finished report]

theorem Ending.ne_accepted {served : Served} {alive : Bool} {said : List CommandLifecycle}
    (h : Ending served alive said) : served ≠ .accepted := by
  rintro rfl
  cases h

theorem Ending.running_nil {served : Served} {alive : Bool} {said : List CommandLifecycle}
    (h : Ending served alive said) (running : served = .running) : said = [] := by
  subst running
  cases h
  rfl

/-- After a submission, the dirty tracker is clean, and a queued event is one of a command
whose `Started` is on its way or was heard. -/
inductive Accounted : Served → Mpsc CommandLifecycle → List FsState.FsStateEvent → Pc → Prop where
  | submitting (origin : Origin) {served : Served} (idle : served = .nothing ∨ served = .done)
      (lifecycle : Mpsc CommandLifecycle) :
      Accounted served lifecycle [] (.submitting origin .clean)
  | accepted (origin : Origin) :
      Accounted .accepted .empty [] (.ownRun origin .clean false)
  | untold (origin : Origin) {served : Served} {lifecycle : Mpsc CommandLifecycle}
      {rest : List CommandLifecycle} (ending : Ending served lifecycle.sendersAlive rest)
      (said : lifecycle.items = .started :: rest) (items : List FsState.FsStateEvent) :
      Accounted served lifecycle items (.ownRun origin .clean false)
  | told (origin : Origin) {served : Served} {lifecycle : Mpsc CommandLifecycle}
      (ending : Ending served lifecycle.sendersAlive lifecycle.items) (items : List FsState.FsStateEvent) :
      Accounted served lifecycle items (.ownRun origin .clean true)
  | settling (origin : Origin) (deadline : Nat) (lifecycle : Mpsc CommandLifecycle)
      (items : List FsState.FsStateEvent) :
      Accounted .done lifecycle items (.ownSettle origin .clean deadline)
  | awaiting {pc : Pc} (head : pc = .recvHead ∨ pc = .recvWait)
      (lifecycle : Mpsc CommandLifecycle) : Accounted .done lifecycle [] pc
  | ended (served : Served) (lifecycle : Mpsc CommandLifecycle)
      (items : List FsState.FsStateEvent) : Accounted served lifecycle items .ended

/-- The states before any submission of a source that reads no state. -/
def untriggered : Pc → Bool
  | .boot => true
  | .recvHead => true
  | .recvWait => true
  | .settleHead _ => true
  | .settling _ => true
  | .ended => true
  | _ => false

variable {runner : FsStateRunner} {s t : FsState.State V} {served : Served}
  {lifecycle : Mpsc CommandLifecycle} {tr es : List (Event V)}

@[simp] theorem untriggered_head (pc : Pc) : untriggered pc.head = untriggered pc := by
  cases pc <;> rfl

theorem conclude_clean : FsState.conclude (V := V) .clean = (.recvHead, [.awaitingWork]) := rfl

section Notifying
variable [DecidableEq V]

theorem accounted_notify {event : FsState.FsStateEvent}
    (h : FsState.step runner s (.notify event) = some (t, es)) (running : served = .running)
    (old : Accounted served lifecycle s.events.items s.pc) :
    Accounted served lifecycle t.events.items t.pc := by
  simp only [FsState.step] at h
  split at h
  · cases h
    subst running
    generalize s.events.items = items at old
    generalize s.pc = pc at old ⊢
    cases old with
    | submitting origin idle => rcases idle with h | h <;> cases h
    | untold origin ending said items => exact .untold origin ending said _
    | told origin ending items => exact .told origin ending _
    | ended => exact .ended _ _ _
  · cases h

end Notifying

theorem accounted_proceed (h : FsState.proceed runner s = some (t, es))
    (old : Accounted served lifecycle s.events.items s.pc) :
    Accounted served lifecycle t.events.items t.pc := by
  generalize hi : s.events.items = items at old
  generalize hpc : s.pc = pc at old
  cases old with
  | awaiting head =>
    rcases head with rfl | rfl
    · simp only [FsState.proceed, hpc] at h
      split at h
      · cases h
        simp only [hi]
        exact .submitting .startup (Or.inr rfl) lifecycle
      · cases h
        simp only [hi]
        exact .awaiting (Or.inr rfl) lifecycle
    · simp [FsState.proceed, hpc] at h
  | submitting | accepted | untold | told | settling | ended => simp [FsState.proceed, hpc] at h

theorem accounted_shutdownChanged (h : FsState.shutdownChanged s = some (t, es))
    (old : Accounted served lifecycle s.events.items s.pc) :
    Accounted served lifecycle t.events.items t.pc := by
  simp only [FsState.shutdownChanged] at h
  split at h
  · cases h
  rename_i ok shutdown _
  generalize hi : s.events.items = items at old
  generalize hpc : s.pc = pc at old
  have stop : ∀ served lifecycle items again, Accounted served lifecycle items again →
      Accounted served lifecycle items (if (ok && shutdown.value) = true then .ended else again) := by
    intro served lifecycle items again old
    split
    · exact .ended served lifecycle items
    · exact old
  cases old with
  | awaiting head =>
    rcases head with rfl | rfl
    · simp [hpc] at h
    · simp only [hpc, Option.some.injEq, Prod.mk.injEq] at h
      obtain ⟨rfl, -⟩ := h
      simp only [hi]
      exact stop _ _ _ _ (.awaiting (Or.inl rfl) lifecycle)
  | ended => simp [hpc] at h
  | submitting | accepted | untold | told | settling =>
    simp only [hpc, Option.some.injEq, Prod.mk.injEq] at h
    obtain ⟨rfl, -⟩ := h
    simp only [hi]
    refine stop _ _ _ _ ?_
    constructor <;> assumption

theorem accounted_startupChanged (h : FsState.startupChanged s = some (t, es))
    (old : Accounted served lifecycle s.events.items s.pc) :
    Accounted served lifecycle t.events.items t.pc := by
  simp only [FsState.startupChanged] at h
  split at h
  · rename_i hpc _
    rw [hpc] at old
    generalize hi : s.events.items = items at old
    cases old with
    | awaiting head =>
      split at h
      · cases h
      · split at h
        · cases h
          simp only [hi]
          exact .submitting .startup (Or.inr rfl) lifecycle
        · cases h
          simp only [hi]
          exact .awaiting (Or.inl rfl) lifecycle
      · cases h
        simp only [hi]
        exact .awaiting (Or.inl rfl) lifecycle
  · cases h

/-- An event is received where it is suppressed, once `Started` was heard. -/
theorem accounted_recv (h : FsState.recv s = some (t, es))
    (heard : .started ∉ lifecycle.items)
    (old : Accounted served lifecycle s.events.items s.pc) :
    Accounted served lifecycle t.events.items t.pc := by
  simp only [FsState.recv] at h
  split at h
  · cases h
  · split at h
    · cases h
      exact .ended served lifecycle s.events.items
    · cases h
      exact .ended served lifecycle s.events.items
    · cases h
  · rename_i event events hrecv
    have queued : s.events.items ≠ [] := by
      rcases Mpsc.recv_cases hrecv with ⟨x, -, hx, -⟩ | ⟨hx, -⟩
      · simp [hx]
      · cases hx
    generalize s.events.items = items at old queued
    generalize hpc : s.pc = pc at old
    cases old with
    | submitting | accepted | awaiting => exact absurd rfl queued
    | untold origin ending said => exact absurd (by simp [said]) heard
    | told origin ending =>
      simp only [hpc] at h
      cases h
      exact .told origin ending events.items
    | settling origin deadline =>
      simp only [hpc] at h
      cases h
      exact .settling origin deadline lifecycle events.items
    | ended => simp [hpc] at h

/-- The suppression ends on an empty queue. -/
theorem accounted_timer (reader : runner.stateReader = false)
    (h : FsState.timer runner s = some (t, es))
    (quiet : inOwnSettle s.pc = true → s.events.items = [])
    (old : Accounted served lifecycle s.events.items s.pc) :
    Accounted served lifecycle t.events.items t.pc := by
  generalize hi : s.events.items = items at old quiet
  generalize hpc : s.pc = pc at old quiet
  cases old with
  | settling origin deadline =>
    simp only [FsState.timer, hpc] at h
    split at h
    · cases h
      obtain rfl := quiet rfl
      simp only [FsState.afterSettle, reader, FsState.emit, conclude_clean, hi]
      exact .awaiting (Or.inl rfl) lifecycle
    · cases h
  | awaiting head => rcases head with rfl | rfl <;> simp [FsState.timer, hpc] at h
  | submitting | accepted | untold | told | ended => simp [FsState.timer, hpc] at h

/-- The lane starts the command it took. -/
theorem accounted_started {items : List FsState.FsStateEvent} {pc : Pc}
    (taken : served = .accepted) (old : Accounted served lifecycle items pc) :
    Accounted .running { lifecycle with items := lifecycle.items ++ [.started] } items pc := by
  cases old with
  | submitting origin idle => rcases idle with rfl | rfl <;> cases taken
  | accepted origin => exact .untold origin .running rfl []
  | untold origin ending => exact absurd taken ending.ne_accepted
  | told origin ending => exact absurd taken ending.ne_accepted
  | settling | awaiting => cases taken
  | ended => exact .ended _ _ _

theorem accounted_finished {items : List FsState.FsStateEvent} {pc : Pc}
    {report : CommandRunReport} (running : served = .running) (good : report.success = true)
    (old : Accounted served lifecycle items pc) :
    Accounted .done (finish report lifecycle) items pc := by
  cases old with
  | submitting origin idle => rcases idle with rfl | rfl <;> cases running
  | accepted | settling | awaiting => cases running
  | untold origin ending said =>
    obtain rfl := ending.running_nil running
    exact .untold origin (.done report good false) (by simp [finish, said]) items
  | told origin ending =>
    refine .told origin ?_ items
    simp only [finish, ending.running_nil running]
    exact .done report good false
  | ended => exact .ended _ _ _

/-- The request is taken: the lane has said nothing about it yet. -/
theorem accounted_accept (h : FsState.startDone s true = some (t, es))
    (old : Accounted served lifecycle s.events.items s.pc) :
    Accounted .accepted .empty t.events.items t.pc := by
  generalize hi : s.events.items = items at old
  generalize hpc : s.pc = pc at old
  cases old with
  | submitting origin idle =>
    simp only [FsState.startDone, hpc, if_true] at h
    cases h
    simp only [hi]
    exact .accepted origin
  | awaiting head => rcases head with rfl | rfl <;> simp [FsState.startDone, hpc] at h
  | accepted | untold | told | settling | ended => simp [FsState.startDone, hpc] at h

/-- `Finished` starts the own settling; without one it ends the suppression on an empty queue. -/
theorem accounted_hear (reader : runner.stateReader = false) {message : Option CommandLifecycle}
    {rest : Mpsc CommandLifecycle} (recv : lifecycle.recv = some (message, rest))
    (h : FsState.lifecycle runner s message = some (t, es))
    (quiet : runner.selfSettle = 0 → lifecycle.items.head?.any isFinished = true →
      s.events.items = [])
    (old : Accounted served lifecycle s.events.items s.pc) :
    Accounted served rest t.events.items t.pc := by
  generalize hi : s.events.items = items at old quiet
  generalize hpc : s.pc = pc at old
  cases old with
  | accepted origin => simp [Mpsc.recv, Mpsc.empty] at recv
  | untold origin ending said =>
    rcases Mpsc.recv_cases recv with ⟨x, rfl, items, alive⟩ | ⟨-, items, -⟩
    · rw [said] at items
      obtain ⟨rfl, rfl⟩ := List.cons.inj items
      simp only [FsState.lifecycle, hpc] at h
      cases h
      rw [← alive] at ending
      exact .told origin ending s.events.items
    · rw [said] at items
      cases items
  | told origin ending =>
    generalize hl : lifecycle.items = said at ending quiet
    generalize ha : lifecycle.sendersAlive = alive at ending
    cases ending with
    | running =>
      rcases Mpsc.recv_cases recv with ⟨x, -, items, -⟩ | ⟨-, -, dead, -⟩
      · rw [hl] at items
        cases items
      · rw [ha] at dead
        cases dead
    | done report good =>
      rcases Mpsc.recv_cases recv with ⟨x, rfl, items, -⟩ | ⟨-, items, -⟩
      · rw [hl] at items
        obtain ⟨rfl, -⟩ := List.cons.inj items
        simp only [FsState.lifecycle, hpc, good, if_true, FsState.runSucceeded] at h
        cases h
        by_cases zero : runner.selfSettle = 0
        · obtain rfl := quiet zero rfl
          simp only [zero, if_true, FsState.afterSettle, reader, FsState.emit, conclude_clean, hi]
          exact .awaiting (Or.inl rfl) rest
        · simp only [zero, if_false, FsState.emit]
          exact .settling origin _ rest s.events.items
      · rw [hl] at items
        cases items
  | awaiting head => rcases head with rfl | rfl <;> simp [FsState.lifecycle, hpc] at h
  | submitting | settling | ended => simp [FsState.lifecycle, hpc] at h

open FsState (Move Tracking Failing conclude runFailed afterSettle runSucceeded)

/-- A source that was never triggered stays so, or settles a batch or takes the start-up signal. -/
theorem untriggered_move (reader : runner.stateReader = false)
    (early : untriggered s.pc = true) (move : Move runner s t es) :
    (untriggered t.pc = true ∧ ∀ origin, .submitted origin ∉ es) ∨
      ∃ origin before, es = [before, .submitted origin] ∧ submission before = false ∧
        t.pc = .submitting origin .clean ∧ t.events = s.events := by
  have head := untriggered_head s.pc
  cases move with
  | quiet same =>
    refine Or.inl ⟨?_, by simp⟩
    rw [← untriggered_head, same.pc, head, early]
  | signal value => exact Or.inl ⟨early, by simp⟩
  | stop after => exact Or.inl ⟨by rw [after]; rfl, by simp⟩
  | startRead before given =>
    rw [reader] at given
    cases given
  | unread before => exact Or.inl ⟨rfl, by simp⟩
  | startupTrigger signal before given set =>
    exact Or.inr ⟨.startup, .signalled, rfl, rfl, rfl, rfl⟩
  | take event rest batch items before => exact Or.inl ⟨rfl, by simp⟩
  | note event rest pc items tracking =>
    generalize s.pc = old at tracking early
    cases tracking <;> cases early
  | suppress event rest items suppressing =>
    generalize s.pc = old at suppressing early
    cases suppressing <;> cases early
  | compare batch before given =>
    rw [reader] at given
    cases given
  | submitUnread batch before => exact Or.inr ⟨.batch, .settled, rfl, rfl, rfl, rfl⟩
  | progress origin dirty running before =>
    rcases before with before | ⟨old, before⟩ <;> simp [before, untriggered] at early
  | fail origin dirty event failing =>
    generalize s.pc = old at failing early
    cases failing <;> cases early
  | started | startFailed | startStopped | unchanged | changed | compareFailed | compareStopped
  | succeed | settleOwn | rebaselined | rebaselineFailed | rebaselineStopped =>
    simp [*, untriggered] at early

/-- A batch is submitted from its settling, or from its comparing read. -/
theorem batch_move (move : Move runner s t es) (h : .submitted .batch ∈ es) :
    (∃ batch, s.pc.head = .settleHead batch) ∨ ∃ dirty, s.pc = .comparing dirty := by
  cases move with
  | submitUnread batch before => exact Or.inl ⟨batch, before⟩
  | changed dirty value before => exact Or.inr ⟨dirty, before⟩
  | startStopped error ready why before => rcases why with ⟨-, rfl⟩ | rfl <;> simp at h
  | fail origin dirty event failing =>
    rcases List.mem_cons.mp h with rfl | hm
    · rcases failing.event_cases with h | h | ⟨report, h, -⟩ <;> cases h
    · cases FsState.mem_runFailed hm
  | succeed origin dirty running report good before =>
    rcases List.mem_cons.mp h with hm | hm
    · cases hm
    · rcases FsState.mem_runSucceeded hm with hm | hm | hm <;> cases hm
  | settleOwn origin dirty deadline before due =>
    rcases FsState.mem_afterSettle h with hm | hm | hm <;> cases hm
  | quiet | signal | stop | startRead | unread | started | startFailed | startupTrigger | take | note
  | suppress | compare | unchanged | compareFailed | compareStopped | progress | rebaselined
  | rebaselineFailed | rebaselineStopped => simp at h

theorem accounted_no_batch {items : List FsState.FsStateEvent}
    (old : Accounted served lifecycle items s.pc) (move : Move runner s t es) :
    .submitted .batch ∉ es := by
  intro h
  rcases batch_move move h with ⟨batch, head⟩ | ⟨dirty, before⟩
  · generalize s.pc = pc at old head
    cases old with
    | awaiting later => rcases later with rfl | rfl <;> cases head
    | submitting | accepted | untold | told | settling | ended => cases head
  · rw [before] at old
    cases old with
    | awaiting later => rcases later with h | h <;> cases h

/-- Before the first submission nothing was submitted, after it every event is accounted for. -/
inductive Stage (tr : List (Event V)) (s : State V) : Prop where
  | before (unsubmitted : s.submitted = false) (served : s.served = .nothing)
      (early : untriggered s.source.pc = true) (silent : ∀ origin, .submitted origin ∉ tr)
  | after (submitted : s.submitted = true)
      (accounted : Accounted s.served s.lifecycle s.source.events.items s.source.pc)

theorem Stage.submitted_of_late {joint : State V} (stage : Stage tr joint)
    (late : untriggered joint.source.pc = false) : joint.submitted = true := by
  cases stage with
  | before unsubmitted served early =>
    rw [late] at early
    cases early
  | after submitted => exact submitted

/-- A batch is only submitted where nothing was submitted before. -/
def BatchFirst (before : List (Event V)) : Event V → Prop
  | .submitted .batch => ∀ origin, .submitted origin ∉ before
  | _ => True

theorem batchFirst_of_ne {x : Event V} (h : x ≠ .submitted .batch) (before : List (Event V)) :
    BatchFirst before x := by
  cases x with
  | submitted origin =>
    cases origin with
    | batch => exact absurd rfl h
    | startup => trivial
  | startupSignal | consumed | settled | signalled | readStarted | readDone | unchanged | rejected
  | completionLost | finished | ownSettled | initialReady | awaitingWork => trivial

theorem any_submission : es.any submission = true ↔ ∃ origin, .submitted origin ∈ es := by
  rw [List.any_eq_true]
  constructor
  · rintro ⟨x, hx, hs⟩
    cases x with
    | submitted origin => exact ⟨origin, hx⟩
    | startupSignal | consumed | settled | signalled | readStarted | readDone | unchanged
    | rejected | completionLost | finished | ownSettled | initialReady | awaitingWork => cases hs
  · rintro ⟨origin, hx⟩
    exact ⟨.submitted origin, hx, rfl⟩

/-- A step of the source keeps the stage, wherever the lane's messages then are. -/
theorem stage_source (reader : runner.stateReader = false) {joint : State V} {u : FsState.State V}
    (move : Move runner joint.source u es)
    (queue : joint.submitted = false → es.any submission = true →
      joint.source.events.items = [])
    {servedNext : Served} {lifecycleNext : Mpsc CommandLifecycle}
    (accounted : joint.submitted = true →
      Accounted joint.served joint.lifecycle joint.source.events.items joint.source.pc →
      Accounted servedNext lifecycleNext u.events.items u.pc)
    (unserved : joint.submitted = false → servedNext = joint.served)
    (old : Stage tr joint ∧ AtEach BatchFirst tr) :
    Stage (tr ++ es) ⟨u, servedNext, lifecycleNext, joint.submitted || es.any submission⟩ ∧
      AtEach BatchFirst (tr ++ es) := by
  obtain ⟨stage, first⟩ := old
  cases stage with
  | before unsubmitted served early silent =>
    rcases untriggered_move reader early move with ⟨later, none⟩ | ⟨origin, x, rfl, quiet, pc, events⟩
    · have nothing : es.any submission = false := by
        rw [Bool.eq_false_iff, Ne, any_submission]
        rintro ⟨origin, hm⟩
        exact none origin hm
      refine ⟨.before (by simp [unsubmitted, nothing]) ((unserved unsubmitted).trans served) later ?_, ?_⟩
      · intro origin hm
        rcases List.mem_append.mp hm with hm | hm
        · exact silent origin hm
        · exact none origin hm
      · refine first.append_quiet ?_
        intro y hy
        exact batchFirst_of_ne fun hb => none .batch (hb ▸ hy)
    · have empty := queue unsubmitted (by simp [submission])
      refine ⟨.after (by simp [submission]) ?_, ?_⟩
      · simp only [pc, events, empty]
        exact .submitting origin (Or.inl ((unserved unsubmitted).trans served)) lifecycleNext
      · have one : ∀ before, BatchFirst before x := by
          refine batchFirst_of_ne ?_
          rintro rfl
          cases quiet
        have unsaid : ∀ origin, .submitted origin ∉ tr ++ [x] := by
          intro other hm
          rcases List.mem_append.mp hm with hm | hm
          · exact silent other hm
          · obtain rfl := List.mem_singleton.mp hm
            cases quiet
        have both := (first.append_one (one tr)).append_one (x := .submitted origin)
          (by cases origin with
            | batch => exact unsaid
            | startup => trivial)
        simpa using both
  | after submitted kept =>
    refine ⟨.after (by simp [submitted]) (accounted submitted kept), first.append_quiet ?_⟩
    intro y hy
    exact batchFirst_of_ne fun hb => accounted_no_batch kept move (hb ▸ hy)

section Running
variable [DecidableEq V]

/-- What the scenario and the attribution say of a source step after the first submission. -/
theorem accounted_source (reader : runner.stateReader = false) {joint : State V}
    {label : FsState.Label V} (h : FsState.step runner joint.source label = some (t, es))
    (submitted : joint.submitted = true) (own : OwnEvents runner joint (.source label))
    (attributed : Attributed runner joint (.source label))
    (plain : step runner joint (.source label) ≠ none)
    (old : Accounted joint.served joint.lifecycle joint.source.events.items joint.source.pc) :
    Accounted joint.served joint.lifecycle t.events.items t.pc := by
  cases label with
  | notify event => exact accounted_notify h (own submitted) old
  | closeEvents | setShutdown | dropShutdown | setStartup | dropStartup | advance =>
    cases h
    exact old
  | proceed => exact accounted_proceed h old
  | shutdownChanged => exact accounted_shutdownChanged h old
  | startupChanged => exact accounted_startupChanged h old
  | recv => exact accounted_recv h attributed old
  | timer => exact accounted_timer reader h attributed old
  | readDone result =>
    generalize joint.served = served, joint.lifecycle = lifecycle,
      joint.source.events.items = items at old
    generalize hpc : joint.source.pc = pc at old
    cases old with
    | awaiting head => rcases head with rfl | rfl <;> simp [FsState.step, FsState.readDone, hpc] at h
    | submitting | accepted | untold | told | settling | ended =>
      simp [FsState.step, FsState.readDone, hpc] at h
  | startDone | lifecycle => exact absurd rfl plain

/-- At the first submission no event is queued. -/
theorem own_queue {joint : State V} {label : FsState.Label V}
    (h : FsState.step runner joint.source label = some (t, es))
    (unsubmitted : joint.submitted = false) (own : OwnEvents runner joint (.source label))
    (submits : es.any submission = true) : joint.source.events.items = [] := by
  cases label with
  | notify event =>
    simp only [FsState.step] at h
    split at h
    · cases h
      cases submits
    · cases h
  | closeEvents | setShutdown | dropShutdown | setStartup | dropStartup | advance | proceed
  | shutdownChanged | startupChanged | recv | timer | readDone | startDone | lifecycle =>
    exact own unsubmitted (by simp [h, submits])

theorem sourceStep_some {joint next : State V} {label : FsState.Label V}
    (h : sourceStep runner joint label = some (next, es)) :
    ∃ u, FsState.step runner joint.source label = some (u, es) ∧
      next = { joint with source := u, submitted := joint.submitted || es.any submission } := by
  obtain ⟨⟨u, fs⟩, hu, heq⟩ := Option.map_eq_some_iff.mp h
  cases heq
  exact ⟨u, hu, rfl⟩

/-- The step keeps the stage under the scenario and the attribution. -/
theorem stage_step (reader : runner.stateReader = false) {joint next : State V} {label : Label V}
    (old : Stage tr joint ∧ AtEach BatchFirst tr)
    (allowed : OwnEvents runner joint label ∧ Attributed runner joint label)
    (h : step runner joint label = some (next, es)) :
    Stage (tr ++ es) next ∧ AtEach BatchFirst (tr ++ es) := by
  obtain ⟨own, attributed⟩ := allowed
  cases label with
  | source label =>
    have plain : step runner joint (.source label) ≠ none := by simp [h]
    have taken : sourceStep runner joint label = some (next, es) := by
      cases label with
      | startDone | lifecycle => cases h
      | notify | closeEvents | setShutdown | dropShutdown | setStartup | dropStartup | advance
      | proceed | shutdownChanged | startupChanged | recv | timer | readDone => exact h
    obtain ⟨u, hu, rfl⟩ := sourceStep_some taken
    exact stage_source reader (FsState.step_move hu)
      (fun unsubmitted submits => own_queue hu unsubmitted own submits)
      (fun submitted kept => accounted_source reader hu submitted own attributed plain kept)
      (fun _ => rfl) old
  | accept accepted =>
    obtain rfl : accepted = true := own
    obtain ⟨⟨mid, fs⟩, hm, heq⟩ := Option.map_eq_some_iff.mp h
    cases heq
    obtain ⟨u, hu, rfl⟩ := sourceStep_some hm
    have start : FsState.startDone joint.source true = some (u, fs) := hu
    have submitted := old.1.submitted_of_late (by
      cases hpc : joint.source.pc with
      | submitting => rfl
      | boot | startRead | recvHead | recvWait | settleHead | settling | comparing | ownRun
      | ownSettle | rebaselining | ended => simp [FsState.startDone, hpc] at start)
    exact stage_source reader (FsState.step_move hu) (fun no => by simp [no] at submitted)
      (fun _ kept => accounted_accept start kept) (fun no => by simp [no] at submitted) old
  | started =>
    simp only [step] at h
    split at h
    · rename_i accepted
      cases h
      simp only [List.append_nil]
      refine ⟨?_, old.2⟩
      cases old.1 with
      | before unsubmitted served => cases served.symm.trans accepted
      | after submitted kept => exact .after submitted (accounted_started accepted kept)
    · cases h
  | finished report =>
    simp only [step] at h
    split at h
    · cases h
      simp only [List.append_nil]
      refine ⟨?_, old.2⟩
      cases old.1 with
      | before unsubmitted served => cases served.symm.trans own.1
      | after submitted kept => exact .after submitted (accounted_finished own.1 own.2 kept)
    · cases h
  | lose => exact own.elim
  | hear =>
    simp only [step] at h
    split at h
    · cases h
    · rename_i message rest recv
      obtain ⟨⟨mid, fs⟩, hm, heq⟩ := Option.map_eq_some_iff.mp h
      cases heq
      obtain ⟨u, hu, rfl⟩ := sourceStep_some hm
      have heard : FsState.lifecycle runner joint.source message = some (u, fs) := hu
      have submitted := old.1.submitted_of_late (by
        cases hpc : joint.source.pc with
        | ownRun => rfl
        | boot | startRead | recvHead | recvWait | settleHead | settling | comparing | submitting
        | ownSettle | rebaselining | ended => simp [FsState.lifecycle, hpc] at heard)
      exact stage_source reader (FsState.step_move hu) (fun no => by simp [no] at submitted)
        (fun _ kept => accounted_hear reader recv heard attributed kept)
        (fun no => by simp [no] at submitted) old

/-- A step moves the source by one of its own steps, or leaves it where it is. -/
theorem source_of_step {joint next : State V} {label : Label V}
    (h : step runner joint label = some (next, es)) :
    (∃ own, FsState.step runner joint.source own = some (next.source, es)) ∨
      (next.source = joint.source ∧ es = []) := by
  cases label with
  | source own =>
    have taken : sourceStep runner joint own = some (next, es) := by
      cases own with
      | startDone | lifecycle => cases h
      | notify | closeEvents | setShutdown | dropShutdown | setStartup | dropStartup | advance
      | proceed | shutdownChanged | startupChanged | recv | timer | readDone => exact h
    obtain ⟨u, hu, rfl⟩ := sourceStep_some taken
    exact Or.inl ⟨own, hu⟩
  | accept accepted =>
    obtain ⟨⟨mid, fs⟩, hm, heq⟩ := Option.map_eq_some_iff.mp h
    cases heq
    obtain ⟨u, hu, rfl⟩ := sourceStep_some hm
    exact Or.inl ⟨.startDone accepted, hu⟩
  | hear =>
    simp only [step] at h
    split at h
    · cases h
    · rename_i message rest recv
      obtain ⟨⟨mid, fs⟩, hm, heq⟩ := Option.map_eq_some_iff.mp h
      cases heq
      obtain ⟨u, hu, rfl⟩ := sourceStep_some hm
      exact Or.inl ⟨.lifecycle message, hu⟩
  | started | finished | lose =>
    simp only [step] at h
    split at h
    · cases h
      exact Or.inr ⟨rfl, rfl⟩
    · cases h

/-- A run beside the lane is a run of the source. -/
theorem source_run {joint next : State V} {labels : List (Label V)}
    (run : exec (step runner) joint labels = some (next, tr)) :
    ∃ own, exec (FsState.step runner) joint.source own = some (next.source, tr) :=
  exec_component State.source (fun _ _ _ _ hs => source_of_step hs) run

/-- Without a `state_cmd`, a source whose events all come from its own successful commands
submits no further one, as long as every event is received while it is attributed to them. -/
theorem attributed_source_does_not_trigger_itself {runOnStartup : Bool} {labels : List (Label V)}
    {joint : State V} (reader : runner.stateReader = false)
    (own : Meets (step runner) (OwnEvents runner) (State.start runOnStartup) labels)
    (attributed : Meets (step runner) (Attributed runner) (State.start runOnStartup) labels)
    (run : exec (step runner) (State.start runOnStartup) labels = some (joint, tr)) :
    AtEach First tr := by
  have kept : Stage tr joint ∧ AtEach BatchFirst tr := by
    have start : Stage [] (State.start (V := V) runOnStartup) ∧ AtEach (BatchFirst (V := V)) [] :=
      ⟨.before rfl rfl rfl (by simp), atEach_nil⟩
    have both : Meets (step runner) (fun s a => OwnEvents runner s a ∧ Attributed runner s a)
        (State.start runOnStartup) labels := meets_and own attributed
    exact exec_invariant_of_meets (P := fun tr s => Stage tr s ∧ AtEach BatchFirst tr)
      (fun _ _ _ _ _ old allowed h => stage_step reader old allowed h) start both run
  obtain ⟨labels, source⟩ := source_run run
  have proven := FsState.provenance_run source
  intro before x after he
  cases x with
  | submitted origin =>
    cases origin with
    | batch => exact kept.2 before (.submitted .batch) after he
    | startup => exact (proven.justified before (.submitted .startup) after he).2.2.1
  | startupSignal | consumed | settled | signalled | readStarted | readDone | unchanged | rejected
  | completionLost | finished | ownSettled | initialReady | awaitingWork => trivial

/-- A source with a queue of 256 and the settling of one second after its command. -/
private def plainSource : FsStateRunner := ⟨2, 10, 1, false, true, 256⟩

private def succeeded : CommandRunReport := .outcome (.ofExitStatus (some 0) none)

/-- One settled batch is submitted, and its command starts. -/
private def startedBatch : List (Label Unit) :=
  [.source .proceed, .source .proceed, .source (.notify .changed), .source .recv, .source .proceed,
    .source (.advance 2), .source .timer, .accept true, .started]

/-- The event of the command is taken before `Started` is heard. -/
private def eventFirst : List (Label Unit) :=
  startedBatch ++ [.source (.notify .changed), .source .recv, .hear, .finished succeeded, .hear,
    .source (.advance 1), .source .timer, .source (.advance 2), .source .proceed]

private def startedFirst : List (Label Unit) :=
  startedBatch ++ [.source (.notify .changed), .hear, .source .recv, .finished succeeded, .hear,
    .source (.advance 1), .source .timer, .source (.advance 2), .source .proceed]

theorem heard_source_does_not_trigger_itself :
    ∃ joint : State Unit, ∃ tr,
      exec (step plainSource) (State.start false) startedFirst = some (joint, tr) ∧
        joint.source.pc = .recvWait ∧ AtEach First tr := by
  have checked : (exec (step plainSource) (State.start (V := Unit) false) startedFirst).any
      (fun r => decide (r.1.source.pc = .recvWait)) = true := by decide +kernel
  obtain ⟨⟨joint, tr⟩, run, facts⟩ := (Option.any_eq_true ..).mp checked
  have own : Meets (step plainSource) (OwnEvents plainSource) (State.start false) startedFirst := by
    decide +kernel
  have attributed :
      Meets (step plainSource) (Attributed plainSource) (State.start false) startedFirst := by
    decide +kernel
  exact ⟨joint, tr, run, of_decide_eq_true facts,
    attributed_source_does_not_trigger_itself rfl own attributed run⟩

/-- The lane has sent `Started`, but the runner's `select!` takes the event of the command
first; the event makes the next batch, and the command is submitted again. -/
theorem event_before_started_is_heard_triggers_source :
    ¬ ∀ (runner : FsStateRunner) (runOnStartup : Bool) (labels : List (Label Unit))
      (joint : State Unit) (tr : List (Event Unit)), runner.stateReader = false →
      Meets (step runner) (OwnEvents runner) (State.start runOnStartup) labels →
      exec (step runner) (State.start runOnStartup) labels = some (joint, tr) →
      AtEach First tr := by
  intro all
  have own : Meets (step plainSource) (OwnEvents plainSource) (State.start false) eventFirst := by
    decide +kernel
  have run := (Option.some_get
    (rfl : (exec (step plainSource) (State.start (V := Unit) false) eventFirst).isSome = true)).symm
  have again := all plainSource false eventFirst _ _ rfl own run
    [.initialReady true, .awaitingWork, .consumed false, .settled, .submitted .batch,
      .consumed false, .finished .batch succeeded 2, .ownSettled .batch 3, .settled]
    (.submitted .batch) [] rfl
  exact again .batch (by simp)

end Running

end SelfTrigger

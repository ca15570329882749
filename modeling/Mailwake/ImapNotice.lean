import Mailwake.ImapIdle

/-!
# Mailbox changes announced during the IDLE cycle

A phase that consumes a mailbox change calls `queue_mailbox_event` after it and before
the next phase begins. The select inside IDLE and the wait for the tagged completion do
so. The wait for the continuation of a re-issued IDLE does not look at untagged data.
-/
namespace ImapIdle
open ImapLine Transition

namespace Event

def changes : Event → Bool
  | .read line => isMailboxChange line
  | _ => false

def isQueued : Event → Bool
  | .queued => true
  | _ => false

/-- The end of a phase: the next one begins, or the session ends without an error. -/
def Boundary : Event → Prop
  | .entered _ => True
  | .ended (.ok _) => True
  | _ => False

end Event

/-- The phase so far, after one more event. -/
def extend : Option (Phase × List Event) → Event → Option (Phase × List Event)
  | _, .entered phase => some (phase, [])
  | some (phase, body), x => some (phase, body ++ [x])
  | none, _ => none

/-- The phase a trace is in, with its events. -/
def current (tr : List Event) : Option (Phase × List Event) := tr.foldl extend none

@[simp] theorem current_append (tr es : List Event) :
    current (tr ++ es) = es.foldl extend (current tr) :=
  List.foldl_append

/-- A call of `queue_mailbox_event` comes after the first change of the phase. -/
def heard (body : List Event) : Bool := (body.dropWhile fun x => !x.changes).any Event.isQueued

def answered (body : List Event) : Bool := !body.any Event.changes || heard body

/-- No phase but the wait for the very first continuation ends with a change unanswered. -/
def NothingDropped : List Event → Prop :=
  AtEach fun before x => x.Boundary → ∀ phase body, current before = some (phase, body) →
    phase ≠ .continuation false → answered body = true

/-- A wait for the continuation of a re-issued IDLE that ends without an error consumes no
mailbox change, and no first change of a wait for the tagged completion is a BYE. -/
def Attended : List Event → Prop :=
  AtEach fun before x => x.Boundary →
    (∀ body, current before = some (.continuation true, body) →
      body.any Event.changes = false) ∧
    ∀ body line, current before = some (.completion, body ++ [Event.read line]) →
      body.any Event.changes = false → isBye line = true → isMailboxChange line = false

/-- The current phase, if it counts, answers its changes. -/
def Settled (tr : List Event) : Prop :=
  ∀ phase body, current tr = some (phase, body) →
    phase = .continuation false ∨ phase ≠ .continuation true ∧ answered body = true

/-- The current phase is a re-issued continuation, in which nothing is ever queued. -/
def Silent (tr : List Event) : Prop :=
  ∃ body, current tr = some (.continuation true, body) ∧ body.any Event.isQueued = false

/-- The wait for the tagged completion ends with a BYE as its first possible change. -/
def Farewell (tr : List Event) : Prop :=
  ∃ body line, current tr = some (.completion, body ++ [Event.read line]) ∧
    body.any Event.changes = false ∧ (isBye line = true ∨ isMailboxChange line = false)

def Bounded (before : List Event) (x : Event) : Prop :=
  x.Boundary → Settled before ∨ Silent before ∨ Farewell before

/-- What the current phase has seen, given where the session stands. -/
def Standing (tr : List Event) (established : Bool) : Pc → Prop
  | .sendingIdle _ => Settled tr
  | .continuation _ => ∃ body, current tr = some (.continuation established, body) ∧
      body.any Event.isQueued = false
  | .idling _ => Settled tr ∨ Silent tr
  | .sendingDone _ _ => Settled tr ∨ Silent tr
  | .completion _ _ eventQueued => ∃ body, current tr = some (.completion, body) ∧
      if eventQueued then heard body = true else body.any Event.changes = false
  | .ended _ => True

theorem heard_append {body : List Event} (h : heard body = true) (es : List Event) :
    heard (body ++ es) = true := by
  rw [heard] at h ⊢
  cases hd : body.dropWhile fun x => !x.changes with
  | nil =>
    rw [hd] at h
    cases h
  | cons x rest =>
    rw [hd] at h
    rw [List.dropWhile_append, hd, if_neg (by simp), List.any_append, h, Bool.true_or]

/-- Without any call, an answered phase has seen no change. -/
theorem quiet_of_answered {body : List Event} (h : answered body = true)
    (silent : body.any Event.isQueued = false) : body.any Event.changes = false := by
  have deaf : heard body = false := by
    simp only [heard, List.any_eq_false] at silent ⊢
    intro x hx
    exact silent x (List.dropWhile_sublist _ |>.mem hx)
  simpa [answered, deaf] using h

theorem dropWhile_of_quiet {body : List Event} (quiet : body.any Event.changes = false) :
    body.dropWhile (fun x => !x.changes) = [] := by
  rw [List.dropWhile_eq_nil_iff]
  intro x hx
  rw [Bool.not_eq_true _ |>.mp (List.any_eq_false.mp quiet x hx)]
  rfl

/-- The first change of a phase, and the call right after it. -/
theorem heard_first {body : List Event} {line : Line} (quiet : body.any Event.changes = false)
    (change : isMailboxChange line = true) : heard (body ++ [Event.read line, .queued]) = true := by
  have first : (!(Event.read line).changes) = false := by
    rw [Event.changes, change]
    rfl
  rw [heard, List.dropWhile_append, dropWhile_of_quiet quiet, List.isEmpty_nil, if_pos rfl,
    List.dropWhile_cons, first]
  rfl

theorem answered_of_quiet {body : List Event} (quiet : body.any Event.changes = false) :
    answered body = true := by
  rw [answered, quiet]
  rfl

theorem answered_of_heard {body : List Event} (h : heard body = true) : answered body = true := by
  rw [answered, h, Bool.or_true]

variable {s t : State} {tr es : List Event} {n : Nat} {line : Line}

theorem settled_of_current {phase : Phase} {body : List Event}
    (h : current tr = some (phase, body))
    (counts : phase = .continuation false ∨ phase ≠ .continuation true ∧ answered body = true) :
    Settled tr := by
  intro other others ho
  obtain ⟨rfl, rfl⟩ := Prod.mk.inj (Option.some.inj (h.symm.trans ho))
  exact counts

/-- The joint invariant. -/
structure Noticed (tr : List Event) (s : State) : Prop where
  standing : Standing tr s.established s.pc
  bounded : AtEach Bounded tr

/-- Events that bound no phase need no justification. -/
theorem bounded_append (h : AtEach Bounded tr) (inner : ∀ x ∈ es, ¬ x.Boundary) :
    AtEach Bounded (tr ++ es) :=
  h.append_quiet fun x hx _ boundary => absurd boundary (inner x hx)

theorem bounded_read (h : AtEach Bounded tr) (line : Line) : AtEach Bounded (tr ++ [.read line]) :=
  bounded_append h (by simp [Event.Boundary])

theorem noticed_fail (old : AtEach Bounded tr) (stopping : Bool) (error : ImapError)
    (standing : stopping = true → Settled tr ∨ Silent tr ∨ Farewell tr) :
    Noticed (tr ++ (fail s stopping error).2) (fail s stopping error).1 := by
  refine ⟨trivial, old.append_one ?_⟩
  intro boundary
  cases stopping with
  | true => exact standing rfl
  | false => exact absurd boundary id

/-- Leaving the wait for the continuation: an established session queues nothing. -/
theorem noticed_continuation {tag : Nat} (old : Noticed tr s) (hpc : s.pc = .continuation tag)
    (h : emitFirst [.read line] (waitIdleContinuation s tag line) = (t, es)) :
    Noticed (tr ++ es) t := by
  obtain ⟨body, hc, silent⟩ :
      ∃ body, current tr = some (.continuation s.established, body) ∧
        body.any Event.isQueued = false := by
    simpa only [hpc, Standing] using old.standing
  have read := bounded_read old.bounded line
  have next : current (tr ++ [.read line]) =
      some (.continuation s.established, body ++ [Event.read line]) := by simp [hc, extend]
  have still : (body ++ [Event.read line]).any Event.isQueued = false := by
    rw [List.any_append, silent]
    rfl
  simp only [emitFirst, waitIdleContinuation] at h
  split at h
  · simp only [continued] at h
    cases he : s.established with
    | true =>
      rw [he] at h next
      cases h
      exact ⟨Or.inr ⟨_, next, still⟩, read⟩
    | false =>
      rw [he] at h next
      cases h
      refine ⟨Or.inl ?_, ?_⟩
      · have first : ∃ body, current (tr ++ ([Event.read line] ++
            ((if s.notifyOnConnect then [Event.queued] else []) ++
              if s.initialReady then [Event.initialReady] else []))) =
              some (.continuation false, body) := by
          rw [← List.append_assoc, current_append, next]
          cases s.notifyOnConnect <;> cases s.initialReady <;> exact ⟨_, rfl⟩
        obtain ⟨body, hb⟩ := first
        exact settled_of_current hb (Or.inl rfl)
      · refine bounded_append old.bounded ?_
        cases s.notifyOnConnect <;> cases s.initialReady <;> simp [Event.Boundary]
  · split at h
    · cases h
      refine ⟨trivial, bounded_append old.bounded ?_⟩
      simp [finish, Event.Boundary]
    · cases h
      refine ⟨?_, by simpa using read⟩
      simp only [List.append_nil, hpc]
      exact ⟨_, next, still⟩

/-- A line inside IDLE is a phase of its own, and a change queues an event at once. -/
theorem noticed_idleLine (old : Noticed tr s) (hpc : s.pc = .idling n)
    (h : emitFirst [.entered .idleLine, .read line] (idleLine s n line) = (t, es)) :
    Noticed (tr ++ es) t := by
  have standing : Settled tr ∨ Silent tr := by simpa only [hpc, Standing] using old.standing
  have opened : AtEach Bounded (tr ++ [.entered .idleLine]) :=
    old.bounded.append_one fun _ => standing.imp id Or.inl
  have read : AtEach Bounded (tr ++ [.entered .idleLine, .read line]) := by
    rw [List.append_cons]
    exact bounded_read opened line
  have next : current (tr ++ [.entered .idleLine, .read line]) =
      some (.idleLine, [.read line]) := by simp [extend]
  have settled : isMailboxChange line = false →
      Settled (tr ++ [.entered .idleLine, .read line]) := by
    intro quiet
    exact settled_of_current next
      (Or.inr ⟨by simp, answered_of_quiet (by simp [Event.changes, quiet])⟩)
  simp only [emitFirst, idleLine] at h
  split at h
  · cases h
    refine ⟨trivial, ?_⟩
    rw [finish, ← List.append_assoc]
    exact bounded_append read (by simp [Event.Boundary])
  · rename_i completed
    cases h
    exact ⟨settled (not_change_of_classify completed (by simp)), read⟩
  · rename_i found
    cases h
    have change := change_of_classify found
    refine ⟨?_, ?_⟩
    · rw [hpc]
      have queued : current (tr ++ [.entered .idleLine, .read line, .queued]) =
          some (.idleLine, [.read line, .queued]) := by simp [extend]
      have answers : heard ([] ++ [.read line, .queued]) = true := heard_first rfl change
      exact Or.inl (settled_of_current queued (Or.inr ⟨by simp, answered_of_heard answers⟩))
    · rw [← List.append_assoc]
      exact bounded_append read (by simp [Event.Boundary])
  · rename_i other
    cases h
    refine ⟨?_, read⟩
    rw [hpc]
    exact Or.inl (settled (not_change_of_classify other (by simp)))

/-- The wait for the tagged completion queues an event at its first change. -/
theorem noticed_completion {stopping eventQueued : Bool} (old : Noticed tr s)
    (hpc : s.pc = .completion n stopping eventQueued)
    (h : emitFirst [.read line] (waitIdleCompletion s n stopping eventQueued line) = (t, es)) :
    Noticed (tr ++ es) t := by
  obtain ⟨body, hc, progress⟩ : ∃ body, current tr = some (.completion, body) ∧
      if eventQueued then heard body = true else body.any Event.changes = false := by
    simpa only [hpc, Standing] using old.standing
  have read := bounded_read old.bounded line
  have next : current (tr ++ [.read line]) = some (.completion, body ++ [Event.read line]) := by
    simp [hc, extend]
  have kept : isMailboxChange line = false ∨ eventQueued = true →
      if eventQueued then heard (body ++ [Event.read line]) = true
        else (body ++ [Event.read line]).any Event.changes = false := by
    intro calm
    cases eventQueued with
    | true => exact heard_append progress _
    | false =>
      rcases calm with calm | calm
      · simpa [Event.changes, calm] using progress
      · cases calm
  have settled : isMailboxChange line = false ∨ eventQueued = true →
      Settled (tr ++ [.read line]) := by
    intro calm
    refine settled_of_current next (Or.inr ⟨by simp, ?_⟩)
    have progress := kept calm
    cases eventQueued with
    | true => exact answered_of_heard progress
    | false => exact answered_of_quiet progress
  simp only [emitFirst, waitIdleCompletion] at h
  split at h
  · rename_i error failed
    cases h
    rw [← List.append_assoc]
    refine noticed_fail read stopping error fun _ => ?_
    cases eventQueued with
    | true => exact Or.inl (settled (Or.inr rfl))
    | false => exact Or.inr (Or.inr ⟨body, line, next, progress, bye_of_classify failed⟩)
  · rename_i completed
    have calm := Or.inl (b := eventQueued = true) (not_change_of_classify completed (by simp))
    split at h
    · cases h
      refine ⟨trivial, ?_⟩
      rw [finish, ← List.append_assoc]
      exact read.append_one fun _ => Or.inl (settled calm)
    · cases h
      exact ⟨settled calm, read⟩
  · rename_i found
    split at h
    · rename_i already
      cases h
      refine ⟨?_, read⟩
      rw [hpc]
      exact ⟨_, next, kept (Or.inr already)⟩
    · rename_i first
      cases h
      refine ⟨⟨body ++ [Event.read line, .queued], by simp [hc, extend], ?_⟩, ?_⟩
      · have quiet : body.any Event.changes = false := by simpa [first] using progress
        exact heard_first quiet (change_of_classify found)
      · rw [← List.append_assoc]
        exact bounded_append read (by simp [Event.Boundary])
  · rename_i other
    cases h
    refine ⟨?_, read⟩
    rw [hpc]
    exact ⟨_, next, kept (Or.inl (not_change_of_classify other (by simp)))⟩

theorem settled_completion {stopping eventQueued : Bool} (old : Noticed tr s)
    (hpc : s.pc = .completion n stopping eventQueued) : Settled tr := by
  obtain ⟨body, hc, progress⟩ : ∃ body, current tr = some (.completion, body) ∧
      if eventQueued then heard body = true else body.any Event.changes = false := by
    simpa only [hpc, Standing] using old.standing
  refine settled_of_current hc (Or.inr ⟨by simp, ?_⟩)
  cases eventQueued with
  | true => exact answered_of_heard progress
  | false => exact answered_of_quiet progress

theorem noticed_step {label : Label} (old : Noticed tr s) (h : step s label = some (t, es)) :
    Noticed (tr ++ es) t := by
  have standing := old.standing
  cases label with
  | line line =>
    simp only [step] at h
    split at h
    · rename_i tag hpc
      exact noticed_continuation old hpc (Option.some.inj h)
    · rename_i tag hpc
      exact noticed_idleLine old hpc (Option.some.inj h)
    · rename_i tag stopping eventQueued hpc
      exact noticed_completion old hpc (Option.some.inj h)
    · cases h
  | wrote result =>
    simp only [step] at h
    split at h
    · rename_i tag hpc
      cases h
      have settled : Settled tr := by simpa only [hpc, Standing] using standing
      exact ⟨⟨[], by simp [extend], rfl⟩, old.bounded.append_one fun _ => Or.inl settled⟩
    · cases h
      exact noticed_fail old.bounded false _ (by simp)
    · rename_i tag stopping hpc
      cases h
      have standing : Settled tr ∨ Silent tr := by simpa only [hpc, Standing] using standing
      exact ⟨⟨[], by simp [extend], rfl⟩,
        old.bounded.append_one fun _ => standing.imp id Or.inl⟩
    · rename_i tag stopping error hpc
      cases h
      have standing : Settled tr ∨ Silent tr := by simpa only [hpc, Standing] using standing
      exact noticed_fail old.bounded stopping error fun _ => standing.imp id Or.inl
    · cases h
  | readFailed error =>
    simp only [step] at h
    split at h
    · cases h
      exact noticed_fail old.bounded false error (by simp)
    · cases h
      exact noticed_fail old.bounded false error (by simp)
    · rename_i tag stopping eventQueued hpc
      cases h
      exact noticed_fail old.bounded stopping error fun _ => Or.inl (settled_completion old hpc)
    · cases h
  | timedOut =>
    simp only [step] at h
    split at h
    · cases h
      exact noticed_fail old.bounded false _ (by simp)
    · cases h
      exact noticed_fail old.bounded false _ (by simp)
    · rename_i tag stopping hpc
      cases h
      have standing : Settled tr ∨ Silent tr := by simpa only [hpc, Standing] using standing
      exact noticed_fail old.bounded stopping _ fun _ => standing.imp id Or.inl
    · rename_i tag stopping eventQueued hpc
      cases h
      exact noticed_fail old.bounded stopping _ fun _ => Or.inl (settled_completion old hpc)
    · cases h
  | refresh =>
    simp only [step] at h
    split at h
    · rename_i tag hpc
      cases h
      refine ⟨?_, by simpa using old.bounded⟩
      simpa only [hpc, Standing, List.append_nil] using standing
    · cases h
  | shutdownChanged stop =>
    simp only [step] at h
    split at h
    · rename_i tag hpc
      cases stop with
      | true =>
        rw [if_pos rfl] at h
        cases h
        refine ⟨?_, by simpa using old.bounded⟩
        simpa only [hpc, Standing, List.append_nil] using standing
      | false =>
        rw [if_neg (by simp)] at h
        cases h
        simpa using old
    · cases h

/-- Without a call after it, a change that comes last is not answered. -/
theorem calm_of_answered {body : List Event} {line : Line}
    (h : answered (body ++ [Event.read line]) = true) (quiet : body.any Event.changes = false) :
    isMailboxChange line = false := by
  have deaf : heard (body ++ [Event.read line]) = false := by
    rw [heard, List.dropWhile_append, dropWhile_of_quiet quiet, List.isEmpty_nil, if_pos rfl,
      List.dropWhile_cons]
    cases (!(Event.read line).changes) <;> rfl
  rw [answered, deaf, Bool.or_false, List.any_append, quiet, Bool.false_or] at h
  simpa [Event.changes] using h

theorem noticed_run {tags : Nat} {notifyOnConnect initialReady : Bool} {labels : List Label}
    (run : exec step (State.start tags notifyOnConnect initialReady) labels = some (s, tr)) :
    Noticed tr s := by
  refine exec_invariant (fun _ _ _ _ _ old h => noticed_step old h) ⟨?_, atEach_nil⟩ run
  intro phase body h
  cases h

/-- Every mailbox change a phase consumes is answered before the phase ends, if and only if
no wait for a re-issued continuation consumes one and succeeds (and none is a BYE). -/
theorem changes_are_queued_iff_attended {tags : Nat} {notifyOnConnect initialReady : Bool}
    {labels : List Label}
    (run : exec step (State.start tags notifyOnConnect initialReady) labels = some (s, tr)) :
    NothingDropped tr ↔ Attended tr := by
  have bounded := (noticed_run run).bounded
  constructor
  · intro answers before x after he boundary
    refine ⟨?_, ?_⟩
    · intro body hc
      have known := answers before x after he boundary _ body hc (by simp)
      rcases bounded before x after he boundary with settled | ⟨silent, hs, quiet⟩ |
        ⟨rest, line, hf, -⟩
      · rcases settled _ body hc with first | ⟨other, -⟩
        · cases first
        · exact absurd rfl other
      · obtain ⟨-, rfl⟩ := Prod.mk.inj (Option.some.inj (hs.symm.trans hc))
        exact quiet_of_answered known quiet
      · obtain ⟨clash, -⟩ := Prod.mk.inj (Option.some.inj (hf.symm.trans hc))
        cases clash
    · intro body line hc quiet bye
      exact calm_of_answered (answers before x after he boundary _ _ hc (by simp)) quiet
  · intro attended before x after he boundary phase body hc counts
    obtain ⟨continuations, farewells⟩ := attended before x after he boundary
    rcases bounded before x after he boundary with settled | ⟨silent, hs, -⟩ |
      ⟨rest, line, hf, quiet, last⟩
    · rcases settled phase body hc with first | ⟨-, answers⟩
      · exact absurd first counts
      · exact answers
    · obtain ⟨rfl, rfl⟩ := Prod.mk.inj (Option.some.inj (hs.symm.trans hc))
      exact answered_of_quiet (continuations _ hc)
    · obtain ⟨rfl, rfl⟩ := Prod.mk.inj (Option.some.inj (hf.symm.trans hc))
      have calm : isMailboxChange line = false := by
        rcases last with bye | calm
        · exact farewells rest line hc quiet bye
        · exact calm
      refine answered_of_quiet ?_
      rw [List.any_append, quiet]
      simpa [Event.changes] using calm

/-- A refresh whose wait for the next continuation reads one more line. -/
private def exampleCycle (notice : Line) : List Label :=
  [.wrote (.ok ()), .line "+ idling".toList, .refresh, .wrote (.ok ()),
    .line "* 1 EXISTS".toList, .line "A0003 OK IDLE terminated".toList, .wrote (.ok ()),
    .line notice, .line "+ idling".toList, .line "* 2 EXISTS".toList]

theorem example_cycle_queues_changes :
    let r := (exec step (State.start 2 false true) (exampleCycle "* OK still here".toList)).get
      (by decide +kernel)
    (r.2.countP Event.isQueued = 2) ∧ (NothingDropped r.2 ↔ Attended r.2) := by
  intro r
  have run := (Option.some_get (by decide +kernel : (exec step (State.start 2 false true)
    (exampleCycle "* OK still here".toList)).isSome = true)).symm
  exact ⟨by decide +kernel, changes_are_queued_iff_attended run⟩

/-- `* 7 EXISTS` between a re-issued IDLE and its continuation queues no event. -/
theorem reissued_continuation_drops_change :
    let r := (exec step (State.start 2 false true) (exampleCycle "* 7 EXISTS".toList)).get
      (by decide +kernel)
    ¬ NothingDropped r.2 := by
  intro r answers
  have missed : answered [Event.read "* 7 EXISTS".toList, .read "+ idling".toList] = true :=
    answers [.entered (.continuation false), .read "+ idling".toList, .initialReady,
      .entered .completion, .read "* 1 EXISTS".toList, .queued,
      .read "A0003 OK IDLE terminated".toList, .entered (.continuation true),
      .read "* 7 EXISTS".toList, .read "+ idling".toList] (.entered .idleLine)
      [.read "* 2 EXISTS".toList, .queued] rfl trivial _ _ rfl (by simp)
  exact absurd missed (by decide +kernel)

end ImapIdle

import Mailwake.MailboxWatcher

/-!
# The catch-up event of a re-established session

What a run of `watch_mailbox_forever` says about its sessions: that EXAMINE has succeeded,
that a continuation has come, and the events queued on the way. The call of
`queue_mailbox_event` beside the continuation is the reconnect catch-up; the others announce
changes noticed inside IDLE.
-/
namespace CatchUp
open Transition MailboxWatcher

inductive Mark where
  | examined
  | continuation
  | caughtUp
  | noticed
  /-- The initial-ready message `Ok`. -/
  | ready
  deriving DecidableEq

def isContinuation (idle : ImapIdle.State) : ImapIdle.Label → Bool
  | .line line =>
    match idle.pc with
    | .continuation _ => ImapLine.startsWith line ['+']
    | _ => false
  | _ => false

def continues (w : State) (label : Label) : Bool :=
  match w.pc, label with
  | .session idle, .session label => isContinuation idle label
  | _, _ => false

def mark (continuation : Bool) : Event → Option Mark
  | .session .queued => some (if continuation then .caughtUp else .noticed)
  | .session .initialReady => some .ready
  | _ => none

def marks (w : State) (label : Label) (es : List Event) : List Mark :=
  match label with
  | .examined _ => [.examined]
  | label =>
    (if continues w label then [.continuation] else []) ++ es.filterMap (mark (continues w label))

def step (w : State) (label : Label) : Option (State × List Mark) :=
  (MailboxWatcher.step w label).map fun (v, es) => (v, marks w label es)

/-- The sessions that have reached their first continuation, and whether the current one has
still to. -/
structure Tally where
  established : Nat
  awaiting : Bool
  deriving DecidableEq

def Tally.note (tally : Tally) : Mark → Tally
  | .examined => { tally with awaiting := true }
  | .continuation => if tally.awaiting then ⟨tally.established + 1, false⟩ else tally
  | _ => tally

def tally (tr : List Mark) : Tally := tr.foldl Tally.note ⟨0, false⟩

@[simp] theorem tally_nil : tally [] = ⟨0, false⟩ := rfl

theorem tally_append (tr es : List Mark) : tally (tr ++ es) = es.foldl Tally.note (tally tr) :=
  List.foldl_append ..

/-- The first continuation of a session, and what the code does beside it. -/
def AtEstablishment (before : List Mark) : Mark → Prop
  | .caughtUp => ∃ earlier, before = earlier ++ [.continuation] ∧
      (tally earlier).awaiting = true ∧ 0 < (tally earlier).established
  | .ready => ∃ earlier, before = earlier ++ [.continuation] ∧
      (tally earlier).awaiting = true ∧ (tally earlier).established = 0
  | _ => True

section Session
variable {idle next : ImapIdle.State} {label : ImapIdle.Label} {es : List ImapIdle.Event}

/-- The variables that the session shares with its watcher are as before. -/
structure Kept (idle next : ImapIdle.State) (es : List ImapIdle.Event) : Prop where
  established : next.established = idle.established
  notify : next.notifyOnConnect = idle.notifyOnConnect
  initialReady : next.initialReady = idle.initialReady
  ready : ImapIdle.Event.initialReady ∉ es

theorem kept_finish (result : Except ImapLine.ImapError ImapIdle.RunEnd) :
    Kept idle (ImapIdle.finish idle result).1 (ImapIdle.finish idle result).2 :=
  ⟨rfl, rfl, rfl, by simp [ImapIdle.finish]⟩

theorem kept_pc (pc : ImapIdle.Pc) (silent : ImapIdle.Event.initialReady ∉ es) :
    Kept idle { idle with pc := pc } es :=
  ⟨rfl, rfl, rfl, silent⟩

theorem kept_issue : Kept idle (ImapIdle.issue idle) [] :=
  ⟨rfl, rfl, rfl, by simp⟩

theorem Kept.emitFirst {first : List ImapIdle.Event} {after : ImapIdle.State × List ImapIdle.Event}
    (kept : Kept idle after.1 after.2) (silent : ImapIdle.Event.initialReady ∉ first) :
    Kept idle (ImapIdle.emitFirst first after).1 (ImapIdle.emitFirst first after).2 := by
  refine ⟨kept.established, kept.notify, kept.initialReady, ?_⟩
  intro h
  rcases List.mem_append.mp h with h | h
  · exact silent h
  · exact kept.ready h

theorem kept_idleLine (tag : Nat) (line : ImapLine.Line) :
    Kept idle (ImapIdle.idleLine idle tag line).1 (ImapIdle.idleLine idle tag line).2 := by
  rw [ImapIdle.idleLine]
  split
  · exact kept_finish _
  · exact kept_issue
  · exact kept_pc idle.pc (by simp)
  · exact kept_pc idle.pc (by simp)

theorem kept_waitIdleCompletion (tag : Nat) (stopping eventQueued : Bool) (line : ImapLine.Line) :
    Kept idle (ImapIdle.waitIdleCompletion idle tag stopping eventQueued line).1
      (ImapIdle.waitIdleCompletion idle tag stopping eventQueued line).2 := by
  rw [ImapIdle.waitIdleCompletion]
  split
  · exact kept_finish _
  · split
    · exact kept_finish _
    · exact kept_issue
  · split
    · exact kept_pc idle.pc (by simp)
    · exact kept_pc _ (by simp)
  · exact kept_pc idle.pc (by simp)

/-- A step of a session keeps the variables, or it takes a continuation. -/
theorem session_cases (h : ImapIdle.step idle label = some (next, es)) :
    isContinuation idle label = false ∧ Kept idle next es ∨
      isContinuation idle label = true ∧ ∃ tag line, es = .read line :: (ImapIdle.continued idle tag).2 ∧
        next = (ImapIdle.continued idle tag).1 := by
  cases label with
  | wrote result =>
    refine Or.inl ⟨rfl, ?_⟩
    simp only [ImapIdle.step] at h
    split at h
    · cases h
      exact kept_pc _ (by simp)
    · cases h
      exact kept_finish _
    · cases h
      exact kept_pc _ (by simp)
    · cases h
      exact kept_finish _
    · cases h
  | line line =>
    simp only [ImapIdle.step] at h
    split at h
    · rename_i tag hpc
      cases h
      by_cases plus : ImapLine.startsWith line ['+'] = true
      · refine Or.inr ⟨by simp [isContinuation, hpc, plus], tag, line, ?_, ?_⟩
        · simp [ImapIdle.waitIdleContinuation, plus]
        · simp [ImapIdle.waitIdleContinuation, plus]
      · refine Or.inl ⟨by simp [isContinuation, hpc, plus], Kept.emitFirst ?_ (by simp)⟩
        rw [ImapIdle.waitIdleContinuation, if_neg plus]
        split
        · exact kept_finish _
        · exact kept_pc idle.pc (by simp)
    · rename_i tag hpc
      cases h
      exact Or.inl ⟨by simp [isContinuation, hpc], (kept_idleLine tag line).emitFirst (by simp)⟩
    · rename_i tag stopping eventQueued hpc
      cases h
      exact Or.inl ⟨by simp [isContinuation, hpc],
        (kept_waitIdleCompletion tag stopping eventQueued line).emitFirst (by simp)⟩
    · cases h
  | readFailed | timedOut =>
    refine Or.inl ⟨rfl, ?_⟩
    simp only [ImapIdle.step] at h
    split at h <;> cases h <;> exact kept_finish _
  | refresh =>
    refine Or.inl ⟨rfl, ?_⟩
    simp only [ImapIdle.step] at h
    split at h
    · cases h
      exact kept_pc _ (by simp)
    · cases h
  | shutdownChanged stop =>
    refine Or.inl ⟨rfl, ?_⟩
    simp only [ImapIdle.step] at h
    split at h
    · cases h
      cases stop with
      | true => exact kept_pc _ (by simp)
      | false => exact kept_pc idle.pc (by simp)
    · cases h

end Session

/-- The variables of the loop and of its session against the tally of the trace. -/
structure InSession (initialReady : Bool) (t : Tally) (connectedOnce : Bool)
    (idle : ImapIdle.State) : Prop where
  notify : idle.notifyOnConnect = connectedOnce
  awaiting : t.awaiting = !idle.established
  counted : (connectedOnce || idle.established) = decide (0 < t.established)
  ready : idle.initialReady = (initialReady && decide (t.established = 0))

def Agrees (initialReady : Bool) (t : Tally) (w : State) : Prop :=
  match w.pc with
  | .session idle => InSession initialReady t w.connectedOnce idle
  | .crashed => True
  | .stopped => True
  | _ => w.connectedOnce = decide (0 < t.established) ∧
    w.initialReady = (initialReady && decide (t.established = 0))

structure Counts (initialReady : Bool) (tr : List Mark) (w : State) : Prop where
  caughtUp : tr.count .caughtUp = (tally tr).established - 1
  ready : tr.count .ready = if initialReady && decide (0 < (tally tr).established) then 1 else 0
  placed : AtEach AtEstablishment tr
  agrees : Agrees initialReady (tally tr) w

variable {initialReady : Bool} {tr : List Mark} {w v : State}

theorem Counts.moved (counts : Counts initialReady tr w)
    (agrees : Agrees initialReady (tally tr) v) : Counts initialReady tr v :=
  ⟨counts.caughtUp, counts.ready, counts.placed, agrees⟩

/-- Marks that are neither a first continuation nor anything beside one. -/
theorem Counts.quiet {es : List Mark} (counts : Counts initialReady tr w)
    (silent : ∀ x ∈ es, x ≠ .caughtUp ∧ x ≠ .ready)
    (same : (tally (tr ++ es)).established = (tally tr).established)
    (agrees : Agrees initialReady (tally (tr ++ es)) v) : Counts initialReady (tr ++ es) v := by
  have noCatchUp : es.count .caughtUp = 0 := List.count_eq_zero.mpr fun h => (silent _ h).1 rfl
  have noReady : es.count .ready = 0 := List.count_eq_zero.mpr fun h => (silent _ h).2 rfl
  refine ⟨?_, ?_, ?_, agrees⟩
  · rw [List.count_append, noCatchUp, same, counts.caughtUp, Nat.add_zero]
  · rw [List.count_append, noReady, same, counts.ready, Nat.add_zero]
  · refine counts.placed.append_quiet ?_
    intro x hx before
    have h := silent x hx
    cases x with
    | caughtUp => exact absurd rfl h.1
    | ready => exact absurd rfl h.2
    | _ => trivial

theorem agrees_follow {t : Tally} {next : ImapIdle.State}
    (session : InSession initialReady t w.connectedOnce next) :
    Agrees initialReady t (follow w next) := by
  rw [follow]
  split
  · rename_i result _
    have after : (w.after next).connectedOnce = decide (0 < t.established) ∧
        (w.after next).initialReady = (initialReady && decide (t.established = 0)) :=
      ⟨session.counted, session.ready⟩
    rcases result with error | stop
    · exact after
    · cases stop with
      | shutdown => trivial
      | reconnect => exact after
  · exact session

/-- The first continuation of a session: the first of all makes the source ready, a later one
queues the catch-up. -/
theorem counts_established {idle next : ImapIdle.State} {tag : Nat}
    (counts : Counts initialReady tr w)
    (session : InSession initialReady (tally tr) w.connectedOnce idle)
    (fresh : idle.established = false) (hnext : next = (ImapIdle.continued idle tag).1) :
    Counts initialReady (tr ++ (.continuation ::
      ((ImapIdle.continued idle tag).2.map Event.session).filterMap (mark true)))
      (follow w next) := by
  have awaiting : (tally tr).awaiting = true := by rw [session.awaiting, fresh, Bool.not_false]
  have once : w.connectedOnce = decide (0 < (tally tr).established) := by
    rw [← session.counted, fresh, Bool.or_false]
  have established : tally (tr ++ [.continuation]) = ⟨(tally tr).established + 1, false⟩ := by
    rw [tally_append]
    simp [Tally.note, awaiting]
  have carried : InSession initialReady (tally (tr ++ [.continuation])) w.connectedOnce next := by
    rw [established, hnext, ImapIdle.continued, if_neg (by simp [fresh])]
    exact ⟨session.notify, rfl, by simp, by simp⟩
  have emitted : ((ImapIdle.continued idle tag).2.map Event.session).filterMap (mark true) =
      (if 0 < (tally tr).established then [.caughtUp] else []) ++
        if initialReady && decide ((tally tr).established = 0) then [.ready] else [] := by
    rw [ImapIdle.continued, if_neg (by simp [fresh]), session.notify, once, session.ready]
    by_cases first : (tally tr).established = 0
    · cases initialReady <;> simp [first, mark]
    · have later : 0 < (tally tr).established := by omega
      simp [first, later, mark]
  have placed : AtEach AtEstablishment (tr ++ [.continuation]) := counts.placed.append_one trivial
  have caughtUp := counts.caughtUp
  have ready := counts.ready
  rw [emitted, List.append_cons]
  by_cases first : (tally tr).established = 0
  · simp only [first, Nat.lt_irrefl, ↓reduceIte, List.nil_append, decide_true, Bool.and_true,
      decide_false, Bool.and_false, Bool.false_eq_true] at established caughtUp ready ⊢
    cases initialReady with
    | false =>
      simp only [Bool.false_eq_true, ↓reduceIte, List.append_nil]
      exact ⟨by simp [established, caughtUp], by simp [ready], placed, agrees_follow carried⟩
    | true =>
      simp only [↓reduceIte]
      have same : tally (tr ++ [.continuation] ++ [.ready]) = tally (tr ++ [.continuation]) := by
        rw [tally_append]
        rfl
      refine ⟨?_, ?_, ?_, ?_⟩
      · rw [same, established]
        simp [caughtUp]
      · rw [same, established]
        simp [ready]
      · exact placed.append_one ⟨tr, rfl, awaiting, first⟩
      · rw [same]
        exact agrees_follow carried
  · have later : 0 < (tally tr).established := by omega
    simp only [later, ↓reduceIte, first, decide_false, Bool.and_false, Bool.false_eq_true,
      List.append_nil, decide_true, Bool.and_true] at ready ⊢
    have same : tally (tr ++ [.continuation] ++ [.caughtUp]) = tally (tr ++ [.continuation]) := by
      rw [tally_append]
      rfl
    refine ⟨?_, ?_, ?_, ?_⟩
    · rw [same, established, List.count_append, List.count_append, caughtUp]
      simp
      omega
    · rw [same, established]
      simp [ready]
    · exact placed.append_one ⟨tr, rfl, awaiting, later⟩
    · rw [same]
      exact agrees_follow carried

theorem marks_outside {es : List Event} {label : Label} (outside : ∀ idle, w.pc ≠ .session idle)
    (other : ∀ tags, label ≠ .examined tags) : marks w label es = es.filterMap (mark false) := by
  have still : continues w label = false := by
    cases hpc : w.pc with
    | session idle => exact absurd hpc (outside idle)
    | _ => simp [continues, hpc]
  cases label with
  | examined tags => exact absurd rfl (other tags)
  | _ => simp [marks, still]

theorem foldl_noticed {ms : List Mark} (all : ∀ x ∈ ms, x = .noticed) (t : Tally) :
    ms.foldl Tally.note t = t := by
  induction ms with
  | nil => rfl
  | cons x ms ih =>
    obtain rfl := all x List.mem_cons_self
    exact ih fun y hy => all y (List.mem_cons_of_mem _ hy)

section Session
variable {idle next : ImapIdle.State} {label : ImapIdle.Label} {es : List ImapIdle.Event}

/-- Away from a continuation only changes are announced. -/
theorem counts_kept (counts : Counts initialReady tr w) (hpc : w.pc = .session idle)
    (session : InSession initialReady (tally tr) w.connectedOnce idle)
    (still : isContinuation idle label = false) (kept : Kept idle next es) :
    Counts initialReady (tr ++ marks w (.session label) (es.map .session)) (follow w next) := by
  have quiet : ∀ x ∈ marks w (.session label) (es.map .session), x = .noticed := by
    intro x hx
    simp only [marks, continues, hpc, still, Bool.false_eq_true, ↓reduceIte,
      List.nil_append] at hx
    obtain ⟨e, he, hm⟩ := List.mem_filterMap.mp hx
    obtain ⟨e, mem, rfl⟩ := List.mem_map.mp he
    cases e with
    | queued => simpa [mark] using hm.symm
    | initialReady => exact absurd mem kept.ready
    | _ => simp [mark] at hm
  have unchanged : tally (tr ++ marks w (.session label) (es.map .session)) = tally tr := by
    rw [tally_append, foldl_noticed quiet]
  refine counts.quiet ?_ (by rw [unchanged]) ?_
  · intro x hx
    simp [quiet x hx]
  · rw [unchanged]
    refine agrees_follow ⟨kept.notify.trans session.notify, ?_, ?_, ?_⟩
    · rw [kept.established, session.awaiting]
    · rw [kept.established, session.counted]
    · rw [kept.initialReady, session.ready]

theorem counts_continued {tag : Nat} {line : ImapLine.Line} (counts : Counts initialReady tr w)
    (hpc : w.pc = .session idle)
    (session : InSession initialReady (tally tr) w.connectedOnce idle)
    (going : isContinuation idle label = true) :
    Counts initialReady (tr ++ marks w (.session label)
      ((ImapIdle.Event.read line :: (ImapIdle.continued idle tag).2).map .session))
      (follow w (ImapIdle.continued idle tag).1) := by
  have emitted : marks w (.session label)
      ((ImapIdle.Event.read line :: (ImapIdle.continued idle tag).2).map .session) =
        .continuation ::
          ((ImapIdle.continued idle tag).2.map Event.session).filterMap (mark true) := by
    have none : mark true (.session (.read line)) = none := rfl
    simp only [marks, continues, hpc, going, ↓reduceIte, List.map_cons,
      List.filterMap_cons_none none, List.cons_append, List.nil_append]
  rw [emitted]
  by_cases established : idle.established = true
  · -- the session has only reissued IDLE
    have settled : (tally tr).awaiting = false := by
      rw [session.awaiting, established, Bool.not_true]
    have unchanged : tally (tr ++ [.continuation]) = tally tr := by
      rw [tally_append]
      simp [Tally.note, settled]
    rw [ImapIdle.continued, if_pos established]
    refine counts.quiet (by simp) ?_ ?_
    · simp [unchanged]
    · simp only [List.map_nil, List.filterMap_nil, unchanged]
      exact agrees_follow ⟨session.notify, session.awaiting, session.counted, session.ready⟩
  · exact counts_established counts session (by simpa using established) rfl

end Session

theorem counts_step {label : Label} {es : List Mark} (counts : Counts initialReady tr w)
    (h : step w label = some (v, es)) : Counts initialReady (tr ++ es) v := by
  obtain ⟨⟨u, fs⟩, hs, he⟩ := Option.map_eq_some_iff.mp h
  obtain ⟨rfl, rfl⟩ := Prod.mk.inj he
  have agrees := counts.agrees
  cases MailboxWatcher.turn_of_step hs with
  | checked shutdown hpc =>
    rw [marks_outside (by simp [hpc]) (by simp), List.filterMap_nil, List.append_nil]
    refine counts.moved ?_
    simp only [Agrees, hpc] at agrees
    cases shutdown with
    | true => trivial
    | false => exact agrees
  | examined tags hpc =>
    simp only [Agrees, hpc] at agrees
    have noted : tally (tr ++ [.examined]) = ⟨(tally tr).established, true⟩ := by
      rw [tally_append]
      rfl
    refine counts.quiet (by simp [marks]) ?_ ?_
    · simp only [marks, noted]
    · simp only [marks, noted]
      refine ⟨rfl, rfl, ?_, agrees.2⟩
      simpa [ImapIdle.State.start, ImapIdle.issue] using agrees.1
  | crashed hpc =>
    have none : (if w.initialReady then [Event.initialReadyFailed] else []).filterMap
        (mark false) = [] := by split <;> rfl
    rw [marks_outside (by simp [hpc]) (by simp), none, List.append_nil]
    exact counts.moved trivial
  | failed hpc =>
    rw [marks_outside (by simp [hpc]) (by simp), List.filterMap_nil, List.append_nil]
    simp only [Agrees, hpc] at agrees
    exact counts.moved agrees
  | session hpc hi =>
    simp only [Agrees, hpc] at agrees
    rcases session_cases hi with ⟨still, kept⟩ | ⟨going, tag, line, rfl, rfl⟩
    · exact counts_kept counts hpc agrees still kept
    · exact counts_continued counts hpc agrees going
  | dropped hpc =>
    rcases hpc with hpc | hpc
    all_goals
      rw [marks_outside (by simp [hpc]) (by simp), List.filterMap_nil, List.append_nil]
      simp only [Agrees, hpc] at agrees
      exact counts.moved agrees
  | cut hpc =>
    have nothing : marks w .resumed [] = [] := by simp [marks, continues]
    rw [nothing, List.append_nil]
    simp only [Agrees, hpc] at agrees
    exact counts.moved ⟨agrees.counted, agrees.ready⟩
  | slept retry hpc =>
    rw [marks_outside (by simp [hpc]) (by simp), List.filterMap_nil, List.append_nil]
    simp only [Agrees, hpc] at agrees
    refine counts.moved ?_
    cases retry with
    | true => exact agrees
    | false => trivial

/-- With `E` sessions that reached their first continuation there are `E - 1` catch-ups, each
beside the first continuation of a session that is not the first; the initial-ready message
stands beside the very first one. -/
theorem one_catch_up_per_reestablishment {labels : List Label}
    (run : exec step (.start initialReady) labels = some (w, tr)) :
    tr.count .caughtUp = (tally tr).established - 1 ∧
      tr.count .ready = (if initialReady ∧ 0 < (tally tr).established then 1 else 0) ∧
      AtEach AtEstablishment tr := by
  have start : Counts initialReady [] (.start initialReady) :=
    ⟨rfl, by simp, atEach_nil, by simp [Agrees, State.start]⟩
  have counts : Counts initialReady tr w :=
    exec_invariant (P := Counts initialReady) (fun _ _ _ _ _ counts h => counts_step counts h)
      start run
  refine ⟨counts.caughtUp, ?_, counts.placed⟩
  simpa using counts.ready

/-- A failed attempt, a session that reissues IDLE, a handshake and a session cut by a resume,
and a second session. -/
private def exampleSessions : List Label :=
  [.check false, .attemptFailed false, .slept true, .check false, .examined 2,
    .session (.wrote (.ok ())), .session (.line "+ idling".toList), .session .refresh,
    .session (.wrote (.ok ())), .session (.line "A0003 OK done".toList), .session (.wrote (.ok ())),
    .session (.line "+ idling".toList), .session (.line "* 4 EXISTS".toList), .resumed,
    .check false, .resumed, .check false, .examined 2, .session (.wrote (.ok ())), .resumed,
    .check false, .examined 2, .session (.wrote (.ok ())), .session (.line "+ idling".toList)]

theorem example_sessions_catch_up_once :
    ((exec step (.start true) exampleSessions).get (by decide +kernel)).2.count .caughtUp =
      (tally ((exec step (.start true) exampleSessions).get (by decide +kernel)).2).established - 1 :=
  (one_catch_up_per_reestablishment (Option.some_get (by decide +kernel :
    (exec step (.start true) exampleSessions).isSome = true)).symm).1

end CatchUp

import Mailwake.LaneOrder

/-!
# Notifications of a lane that are no shutdown

An idle lane looks at its empty pending set once more and is idle again. In a cooldown, the
command runs early.
-/
namespace Lane
open Channel Transition
universe u
variable {κ : Type u} [DecidableEq κ]
variable {runner : CommandLaneRunner κ} {s t u : State κ} {label : Label κ}
  {labels : List (Label κ)} {tr es : List (Event κ)}

omit [DecidableEq κ] in
/-- The same state with another receiver of the watch. -/
def State.watching (s : State κ) (w : Watch Bool) : State κ := { s with shutdown := w }

/-- A notification that is no shutdown comes only while the lane is idle. -/
def Spared (s : State κ) : Label κ → Prop
  | .shutdownChanged => s.shutdown.untrue = true → s.pc = .idle
  | _ => True

/-- Each notification that is no shutdown leads straight back to the state it came in. -/
def Inert (runner : CommandLaneRunner κ) (labels : List (Label κ)) : Prop :=
  ∀ before rest s t es fs, labels = before ++ .shutdownChanged :: rest →
    exec (step runner) State.start before = some (s, es) → s.shutdown.untrue = true →
    step runner s .shutdownChanged = some (t, fs) →
    fs = [] ∧ exec (step runner) t [.proceed, .proceed] = some (s.watching t.shutdown, [])

/-- No notification but that of a shutdown. -/
def Silent (s : State κ) : Label κ → Prop
  | .shutdownChanged => s.shutdown.untrue = false
  | _ => True

/-- The lane has nothing pending and is on its way back to its idle state. -/
structure Woken (s : State κ) : Prop where
  order : s.pending.order = []
  waiters : s.pending.waiters.entries = []
  pc : s.pc = .dispatch ∨ s.pc = .outer

/-- One lane has heard less of the watch than the other. Otherwise they are in the same state,
or the other one is on its way back to it. -/
structure Like (u s : State κ) : Prop where
  behind : u.shutdown.Behind s.shutdown
  same : u = s.watching u.shutdown ∨
    Woken s ∧ u = { s with shutdown := u.shutdown, pc := .idle }

/-- The run without the notifications that are no shutdown, and without the steps back from
them, has the same trace and ends in the same state. -/
def Unheard (runner : CommandLaneRunner κ) (labels : List (Label κ)) (tr : List (Event κ))
    (t : State κ) : Prop :=
  ∃ as v, Thinned (fun label => label = .shutdownChanged ∨ label = .proceed) as labels ∧
    Meets (step runner) Silent State.start as ∧
    exec (step runner) State.start as = some (v, tr) ∧ Like v t

def rewatch (w : Watch Bool) (r : State κ × List (Event κ)) : State κ × List (Event κ) :=
  (r.1.watching w, r.2)

theorem dispatch_watching (s : State κ) (w : Watch Bool) :
    dispatch runner (s.watching w) = rewatch w (dispatch runner s) := by
  unfold dispatch
  have pending : (s.watching w).pending = s.pending := rfl
  have cool : ∀ command, coolUntil (s.watching w) command = coolUntil s command := fun _ => rfl
  simp only [pending, cool]
  split
  · rfl
  · split
    · rfl
    · split <;> rfl

theorem proceed_watching {w : Watch Bool} (value : w.value = s.shutdown.value) :
    proceed runner (s.watching w) = (proceed runner s).map (rewatch w) := by
  unfold proceed
  have pc : (s.watching w).pc = s.pc := rfl
  have items : (s.watching w).requests.items = s.requests.items := rfl
  have told : (s.watching w).shutdown.value = s.shutdown.value := value
  simp only [pc, items, told]
  cases s.pc with
  | outer => rfl
  | dispatch => exact congrArg some (dispatch_watching s w)
  | starting => rfl
  | draining => cases s.requests.items <;> rfl
  | checkShutdown => cases s.shutdown.value <;> rfl
  | idle | cooling | running | returned => rfl

theorem recv_watching (s : State κ) (w : Watch Bool) :
    recv (s.watching w) = (recv s).map (rewatch w) := by
  unfold recv
  have pc : (s.watching w).pc = s.pc := rfl
  have requests : (s.watching w).requests = s.requests := rfl
  simp only [pc, requests]
  cases s.pc with
  | idle =>
    cases s.requests.recv with
    | none => rfl
    | some received =>
      obtain ⟨message, rest⟩ := received
      cases message <;> rfl
  | cooling command waiters runAt =>
    cases s.requests.recv with
    | none => rfl
    | some received =>
      obtain ⟨message, rest⟩ := received
      cases message with
      | none => rfl
      | some request =>
        dsimp only
        split <;> rfl
  | outer | dispatch | starting | running | draining | checkShutdown | returned => rfl

/-- A step that does not concern the watch is the same with any receiver of the same value. -/
theorem step_watching {w : Watch Bool} (told : w.value = s.shutdown.value)
    (value : ∀ b, label ≠ .setShutdown b) (sender : label ≠ .dropShutdown)
    (change : label ≠ .shutdownChanged) :
    step runner (s.watching w) label = (step runner s label).map (rewatch w) := by
  cases label with
  | send command =>
    simp only [step, send]
    have pc : (s.watching w).pc = s.pc := rfl
    have requests : (s.watching w).requests = s.requests := rfl
    have next : (s.watching w).nextLifecycle = s.nextLifecycle := rfl
    rw [pc, requests, next]
    split
    · rfl
    · cases s.requests.send runner.capacity ⟨command, s.nextLifecycle⟩ <;> rfl
  | dropSenders => rfl
  | setShutdown b => exact absurd rfl (value b)
  | dropShutdown => exact absurd rfl sender
  | advance duration => rfl
  | proceed => exact proceed_watching told
  | shutdownChanged => exact absurd rfl change
  | recv => exact recv_watching s w
  | timer =>
    simp only [step, timer]
    have pc : (s.watching w).pc = s.pc := rfl
    have now : (s.watching w).now = s.now := rfl
    rw [pc, now]
    cases s.pc with
    | cooling command waiters runAt =>
      dsimp only
      split <;> rfl
    | outer | idle | dispatch | starting | running | draining | checkShutdown | returned => rfl
  | finish result =>
    simp only [step, finish]
    have pc : (s.watching w).pc = s.pc := rfl
    rw [pc]
    cases s.pc <;> rfl

/-- A step that does not concern the watch leaves the receiver as it is. -/
theorem shutdown_kept (value : ∀ b, label ≠ .setShutdown b) (sender : label ≠ .dropShutdown)
    (change : label ≠ .shutdownChanged) (h : step runner s label = some (t, es)) :
    t.shutdown = s.shutdown := by
  have same : step runner s label = (step runner s label).map (rewatch s.shutdown) :=
    step_watching rfl value sender change
  rw [h] at same
  have kept : t = t.watching s.shutdown := (Prod.mk.inj (Option.some.inj same)).1
  rw [kept]
  rfl

/-- An idle lane has nothing pending. -/
def Rested (s : State κ) : Prop := s.pc = .idle → s.pending.waiters.entries = []

theorem rested_turn (old : Rested s) (turn : Turn runner s label t es) : Rested t := by
  intro idle
  cases turn with
  | sent | sendersDropped | shutdownSet | shutdownDropped | advanced => exact old idle
  | headed hpc =>
    dsimp only at idle
    split at idle
    · rename_i empty
      simpa [PendingRequests.isEmpty] using empty
    · cases idle
  | absorbed request command waiters runAt requests hpc => cases hpc.symm.trans idle
  | drained request rest hpc => cases hpc.symm.trans idle
  | emptied | rejected | picked | cooled | executed | drainEnded | stopped | resumed | shutDown
  | notified | coolingShutDown | coolingNotified | received | closed | joined | coolingClosed
  | timed | finished => cases idle

theorem Ordered.order_nil (ordered : Ordered s) (empty : s.pending.waiters.entries = []) :
    s.pending.order = [] := by
  refine List.eq_nil_iff_forall_not_mem.mpr fun command queued => ?_
  have held := ordered.held command queued
  rw [AList.lookup, empty] at held
  cases held

theorem woken_of_idle (ordered : Ordered s) (rested : Rested s) (idle : s.pc = .idle)
    (q : Watch Bool) : Woken { s with shutdown := q, pc := .dispatch } :=
  ⟨ordered.order_nil (rested idle), rested idle, Or.inl rfl⟩

/-- A lane with nothing pending goes on to the head of its loop and to its idle state. -/
theorem Woken.proceed_dispatch (woken : Woken s) (hpc : s.pc = .dispatch) :
    step runner s .proceed = some ({ s with pc := .outer }, []) := by
  have popped : s.pending.popNextCommand = (none, s.pending) := by
    have same : s.pending = ⟨[], s.pending.waiters⟩ := by rw [← woken.order]
    rw [same]
    rfl
  simp only [step, proceed, hpc, dispatch, popped]

theorem Woken.proceed_outer (woken : Woken s) (hpc : s.pc = .outer) :
    step runner s .proceed = some ({ s with pc := .idle }, []) := by
  have empty : s.pending.isEmpty = true := by
    rw [PendingRequests.isEmpty, woken.waiters]
    rfl
  simp only [step, proceed, hpc, empty, if_true]

theorem heard_in_vain {q : Watch Bool} {ok : Bool} (change : s.shutdown.changed = some (ok, q))
    (vain : s.shutdown.untrue = true) (idle : s.pc = .idle) :
    step runner s .shutdownChanged = some ({ s with shutdown := q, pc := .dispatch }, []) := by
  have stop := Watch.changed_untrue change
  rw [vain, Bool.not_true] at stop
  simp [step, shutdownChanged, change, idle, stop]

/-- A shutdown makes the lane return, with what it holds cancelled. -/
theorem stop_of_true {q w : Watch Bool} {ok : Bool} (change : s.shutdown.changed = some (ok, q))
    (new : s.shutdown.untrue = false) (told : w.changed = some (true, { w with unseen := false }))
    (silent : w.untrue = false) (h : step runner s .shutdownChanged = some (t, es)) :
    step runner (s.watching w) .shutdownChanged =
      some (t.watching { w with unseen := false }, es) ∧ t.shutdown = q := by
  have stop := Watch.changed_untrue change
  have stops := Watch.changed_untrue told
  rw [new, Bool.not_false] at stop
  rw [silent, Bool.not_false] at stops
  simp only [step, shutdownChanged, change, stop, if_true] at h
  simp only [step, shutdownChanged]
  have pc : (s.watching w).pc = s.pc := rfl
  have again : (s.watching w).shutdown.changed = some (true, { w with unseen := false }) := told
  simp only [pc, again, stops, if_true]
  cases hpc : s.pc with
  | idle =>
    simp only [hpc, Option.some.injEq] at h
    cases h
    exact ⟨rfl, rfl⟩
  | cooling command waiters runAt =>
    simp only [hpc, Option.some.injEq] at h
    cases h
    exact ⟨rfl, rfl⟩
  | outer | dispatch | starting | running | draining | checkShutdown | returned =>
    simp only [hpc] at h
    cases h

/-- Two lanes in the same state stay so, or one of them is woken in vain. -/
theorem like_same (ordered : Ordered s) (rested : Rested s) (behind : u.shutdown.Behind s.shutdown)
    (same : u = s.watching u.shutdown) (spared : Spared s label)
    (h : step runner s label = some (t, es)) :
    ((label = .shutdownChanged ∨ label = .proceed) ∧ es = [] ∧ Like u t) ∨
      ∃ v, Silent u label ∧ step runner u label = some (v, es) ∧ Like v t := by
  have other : (∀ b, label ≠ .setShutdown b) → label ≠ .dropShutdown →
      label ≠ .shutdownChanged → Silent u label →
      ∃ v, Silent u label ∧ step runner u label = some (v, es) ∧ Like v t := by
    intro value sender change silent
    refine ⟨t.watching u.shutdown, silent, ?_, ?_, Or.inl rfl⟩
    · rw [same, step_watching behind.value value sender change, h]
      rfl
    · rw [shutdown_kept value sender change h]
      exact behind
  cases label with
  | setShutdown b =>
    cases h
    refine Or.inr ⟨{ u with shutdown := u.shutdown.send b }, trivial, rfl, behind.send b, Or.inl ?_⟩
    rw [same]
    rfl
  | dropShutdown =>
    cases h
    refine Or.inr ⟨{ u with shutdown := u.shutdown.dropSender }, trivial, rfl, behind.dropSender,
      Or.inl ?_⟩
    rw [same]
    rfl
  | shutdownChanged =>
    cases change : s.shutdown.changed with
    | none =>
      simp only [step, shutdownChanged, change] at h
      cases h
    | some told =>
      obtain ⟨ok, q⟩ := told
      cases new : s.shutdown.untrue with
      | true =>
        have idle := spared new
        rw [heard_in_vain change new idle] at h
        cases h
        refine Or.inl ⟨Or.inl rfl, rfl, behind.changed change,
          Or.inr ⟨woken_of_idle ordered rested idle q, ?_⟩⟩
        rw [same, State.watching, ← idle]
      | false =>
        obtain ⟨silent, again, level⟩ := behind.true_changed new change
        obtain ⟨stops, seen⟩ := stop_of_true change new again silent h
        rw [← same] at stops
        exact Or.inr ⟨_, silent, stops, seen ▸ level, Or.inl rfl⟩
  | send | dropSenders | advance | proceed | recv | timer | finish =>
    exact Or.inr (other (by simp) (by simp) (by simp) trivial)

/-- A woken lane goes back on its own, while the other one stays idle. -/
theorem like_woken (behind : u.shutdown.Behind s.shutdown) (woken : Woken s)
    (same : u = { s with shutdown := u.shutdown, pc := .idle })
    (h : step runner s label = some (t, es)) :
    ((label = .shutdownChanged ∨ label = .proceed) ∧ es = [] ∧ Like u t) ∨
      ∃ v, Silent u label ∧ step runner u label = some (v, es) ∧ Like v t := by
  cases label with
  | send command =>
    simp only [step, send] at h
    split at h
    · cases h
    rename_i free
    obtain ⟨requests, sent, ht⟩ := Option.map_eq_some_iff.mp h
    cases ht
    have alive : ¬ (u.pc = .returned ∨ u.requests.sendersAlive = false) := by
      rw [same]
      rintro (gone | closed)
      · cases gone
      · exact free (Or.inr closed)
    have sent' : u.requests.send runner.capacity ⟨command, u.nextLifecycle⟩ = some requests := by
      rw [same]
      exact sent
    refine Or.inr ⟨{ u with requests := requests, nextLifecycle := u.nextLifecycle + 1 }, trivial,
      ?_, behind, Or.inr ⟨⟨woken.order, woken.waiters, woken.pc⟩, ?_⟩⟩
    · simp only [step, send, if_neg alive, sent', Option.map_some]
    · rw [same]
  | dropSenders =>
    cases h
    refine Or.inr ⟨_, trivial, rfl, behind, Or.inr ⟨⟨woken.order, woken.waiters, woken.pc⟩, ?_⟩⟩
    rw [same]
  | setShutdown b =>
    cases h
    refine Or.inr ⟨_, trivial, rfl, behind.send b,
      Or.inr ⟨⟨woken.order, woken.waiters, woken.pc⟩, ?_⟩⟩
    rw [same]
  | dropShutdown =>
    cases h
    refine Or.inr ⟨_, trivial, rfl, behind.dropSender,
      Or.inr ⟨⟨woken.order, woken.waiters, woken.pc⟩, ?_⟩⟩
    rw [same]
  | advance duration =>
    cases h
    refine Or.inr ⟨_, trivial, rfl, behind, Or.inr ⟨⟨woken.order, woken.waiters, woken.pc⟩, ?_⟩⟩
    rw [same]
  | proceed =>
    rcases woken.pc with hpc | hpc
    · rw [woken.proceed_dispatch hpc] at h
      cases h
      exact Or.inl ⟨Or.inr rfl, rfl, behind, Or.inr
        ⟨⟨woken.order, woken.waiters, Or.inr rfl⟩, same⟩⟩
    · rw [woken.proceed_outer hpc] at h
      cases h
      exact Or.inl ⟨Or.inr rfl, rfl, behind, Or.inl same⟩
  | shutdownChanged =>
    simp only [step, shutdownChanged] at h
    split at h
    · cases h
    · rcases woken.pc with hpc | hpc <;> simp [hpc] at h
  | recv => rcases woken.pc with hpc | hpc <;> simp [step, recv, hpc] at h
  | timer => rcases woken.pc with hpc | hpc <;> simp [step, timer, hpc] at h
  | finish result => rcases woken.pc with hpc | hpc <;> simp [step, finish, hpc] at h

theorem like_matched (before : Like u s ∧ Ordered s ∧ Rested s) (spared : Spared s label)
    (h : step runner s label = some (t, es)) :
    ((label = .shutdownChanged ∨ label = .proceed) ∧ es = [] ∧ Like u t ∧ Ordered t ∧ Rested t) ∨
      ∃ v, Silent u label ∧ step runner u label = some (v, es) ∧ Like v t ∧ Ordered t ∧
        Rested t := by
  obtain ⟨⟨behind, same⟩, ordered, rested⟩ := before
  have kept := And.intro (ordered_turn ordered (turn_of_step h))
    (rested_turn rested (turn_of_step h))
  have one : ((label = .shutdownChanged ∨ label = .proceed) ∧ es = [] ∧ Like u t) ∨
      ∃ v, Silent u label ∧ step runner u label = some (v, es) ∧ Like v t := by
    rcases same with same | ⟨woken, same⟩
    · exact like_same ordered rested behind same spared h
    · exact like_woken behind woken same h
  rcases one with ⟨gone, quiet, like⟩ | ⟨v, silent, hv, like⟩
  · exact Or.inl ⟨gone, quiet, like, kept⟩
  · exact Or.inr ⟨v, silent, hv, like, kept⟩

/-- What a cooldown does with a notification that is no shutdown is more than to hear it. -/
theorem idle_of_inert (vain : s.shutdown.untrue = true)
    (h : step runner s .shutdownChanged = some (t, es))
    (inert : exec (step runner) t [.proceed, .proceed] = some (u, [])) : s.pc = .idle := by
  cases turn_of_step h with
  | shutDown ok shutdown change hpc => exact hpc
  | notified ok shutdown change hpc => exact hpc
  | coolingShutDown command waiters runAt ok shutdown change hpc down =>
    have stop := Watch.changed_untrue change
    rw [vain, down] at stop
    cases stop
  | coolingNotified command waiters runAt ok shutdown change hpc =>
    obtain ⟨m, fs, gs, hm, -, split⟩ := exec_cons_some.mp inert
    cases hm
    simp at split

/-- Notifications that are no shutdown are inert if and only if they come while the lane is idle;
then the run goes on as if there had been none. -/
theorem inert_iff_spared (run : exec (step runner) State.start labels = some (t, tr)) :
    (Inert runner labels ↔ Meets (step runner) Spared State.start labels) ∧
      (Meets (step runner) Spared State.start labels → Unheard runner labels tr t) := by
  refine ⟨⟨?_, ?_⟩, ?_⟩
  · intro inert
    refine meets_of_each run ?_
    intro before label rest s es split reached
    cases label with
    | shutdownChanged =>
      intro vain
      obtain ⟨m, fs, gs, hm, hr, -⟩ := exec_append_some.mp (split ▸ run)
      obtain ⟨rfl, rfl⟩ := Prod.mk.inj (Option.some.inj (reached.symm.trans hm))
      obtain ⟨n, ks, _, hn, -, -⟩ := exec_cons_some.mp hr
      exact idle_of_inert vain hn (inert before rest s n es ks split reached vain hn).2
    | send | dropSenders | setShutdown | dropShutdown | advance | proceed | recv | timer
    | finish => trivial
  · rintro spared before rest s t es fs rfl reached vain h
    have idle := meets_at spared reached vain
    have ordered := ordered_run reached
    have rested : Rested s := exec_state_invariant
      (fun _ _ _ _ old h => rested_turn old (turn_of_step h)) (fun _ => rfl) reached
    cases change : s.shutdown.changed with
    | none =>
      simp only [step, shutdownChanged, change] at h
      cases h
    | some told =>
      rw [heard_in_vain change vain idle] at h
      cases h
      have woken := woken_of_idle ordered rested idle told.2
      refine ⟨rfl, exec_cons_some.mpr ⟨_, [], [], woken.proceed_dispatch rfl, ?_, rfl⟩⟩
      have outer : Woken { s with shutdown := told.2, pc := .outer } :=
        ⟨woken.order, woken.waiters, Or.inr rfl⟩
      refine exec_cons_some.mpr ⟨_, [], [], outer.proceed_outer rfl, ?_, rfl⟩
      rw [exec_nil, State.watching, ← idle]
  · intro spared
    obtain ⟨as, v, thin, silent, hv, like, -⟩ := exec_thinned
      (fun u s => Like u s ∧ Ordered s ∧ Rested s) Spared Silent
      (fun label => label = .shutdownChanged ∨ label = .proceed)
      (fun _ _ _ _ _ before spared h => like_matched before spared h)
      ⟨⟨.refl _, Or.inl rfl⟩, ordered_start, fun _ => rfl⟩ spared run
    exact ⟨as, v, thin, silent, hv, like⟩

end Lane

import Mailwake.EventRunner

/-!
# Notifications of a runner that are no shutdown

A change of the shutdown watch that does not carry `true` is harmless while the runner waits
for an event. Everywhere else it ends a wait or gives a submission up.
-/
namespace EventRunner
open Channel Transition
universe u
variable {ω : Type u} {bound : Nat} {loop : Loop ω} {s t : State ω} {label : Label}
  {labels : List Label} {tr es : List Event}

/-- The same state with another receiver of the watch. -/
def State.watching (s : State ω) (w : Watch Bool) : State ω := { s with shutdown := w }

/-- A notification that is no shutdown comes only while the runner waits for an event. -/
def Spared (s : State ω) : Label → Prop
  | .shutdownChanged => s.shutdown.untrue = true → s.pc = .recv
  | _ => True

/-- Each notification that is no shutdown changes nothing but what its receiver has seen. -/
def Inert (bound : Nat) (loop : Loop ω) (labels : List Label) : Prop :=
  ∀ before rest s t es fs, labels = before ++ .shutdownChanged :: rest →
    exec (step bound loop) State.start before = some (s, es) → s.shutdown.untrue = true →
    step bound loop s .shutdownChanged = some (t, fs) → fs = [] ∧ t = s.watching t.shutdown

/-- No notification but that of a shutdown. -/
def Silent (s : State ω) : Label → Prop
  | .shutdownChanged => s.shutdown.untrue = false
  | _ => True

/-- The run without the notifications that are no shutdown has the same trace and ends in the
same state. -/
def Unheard (bound : Nat) (loop : Loop ω) (labels : List Label) (tr : List Event)
    (t : State ω) : Prop :=
  ∃ as v, Thinned (· = Label.shutdownChanged) as labels ∧
    Meets (step bound loop) Silent State.start as ∧
    exec (step bound loop) State.start as = some (v, tr) ∧ v = t.watching v.shutdown

/-- A result with another receiver. -/
def rewatch (w : Watch Bool) (r : State ω × List Event) : State ω × List Event :=
  (r.1.watching w, r.2)

theorem follow_watching (s : State ω) (w : Watch Bool) (next : Next ω) :
    follow (s.watching w) next = rewatch w (follow s next) := by
  obtain ⟨drain, wait⟩ := next
  cases drain <;> cases wait <;> rfl

theorem runOver_watching (s : State ω) (w : Watch Bool) (event : Event) :
    runOver loop (s.watching w) event = rewatch w (runOver loop s event) := by
  unfold runOver
  have items : (s.watching w).events.items = s.events.items := rfl
  simp only [items]
  cases s.events.items with
  | nil => rfl
  | cons first rest =>
    simp only [rewatch]
    have follows := follow_watching
      (drainEvents { s with lastCommandFinished := some s.now }).1 w (loop.enter s.now (some s.now))
    rw [Prod.ext_iff] at follows
    refine Prod.ext ?_ ?_
    · exact follows.1
    · exact congrArg (event :: _ ++ ·) follows.2

theorem recv_watching (s : State ω) (w : Watch Bool) :
    recv loop (s.watching w) = (recv loop s).map (rewatch w) := by
  unfold recv
  have events : (s.watching w).events = s.events := rfl
  have pc : (s.watching w).pc = s.pc := rfl
  simp only [events, pc]
  cases s.events.recv with
  | none => rfl
  | some received =>
    obtain ⟨message, rest⟩ := received
    cases message with
    | none =>
      cases s.pc with
      | recv => rfl
      | waiting wait =>
        cases heard : loop.heard wait s.now <;> simp [State.watching, heard, rewatch, follow]
      | submitting | awaiting | ended => rfl
    | some message =>
      cases s.pc with
      | recv =>
        have follows := follow_watching { s with events := rest, pc := .recv } w
          (loop.enter s.now s.lastCommandFinished)
        simp only [Option.map_some, rewatch, Option.some.injEq]
        rw [Prod.ext_iff] at follows
        exact Prod.ext follows.1 (congrArg (_ :: ·) follows.2)
      | waiting wait => cases heard : loop.heard wait s.now <;> simp [State.watching, heard, rewatch]
      | submitting | awaiting | ended => rfl

/-- A step that does not concern the watch is the same with any receiver. -/
theorem step_watching (w : Watch Bool) (value : ∀ b, label ≠ .setShutdown b)
    (sender : label ≠ .dropShutdown) (change : label ≠ .shutdownChanged) :
    step bound loop (s.watching w) label = (step bound loop s label).map (rewatch w) := by
  cases label with
  | emit => cases alive : s.events.sendersAlive <;> simp [step, State.watching, alive, rewatch]
  | closeEvents => rfl
  | setShutdown b => exact absurd rfl (value b)
  | dropShutdown => exact absurd rfl sender
  | advance duration => rfl
  | shutdownChanged => exact absurd rfl change
  | recv => exact recv_watching s w
  | timer =>
    simp only [step, timer]
    have pc : (s.watching w).pc = s.pc := rfl
    rw [pc]
    cases s.pc with
    | waiting wait =>
      dsimp only
      have now : (s.watching w).now = s.now := rfl
      rw [now]
      split
      · exact congrArg some (follow_watching s w _)
      · rfl
    | recv | submitting | awaiting | ended => rfl
  | accepted lifecycle =>
    simp only [step]
    have pc : (s.watching w).pc = s.pc := rfl
    rw [pc]
    cases s.pc <;> rfl
  | rejected =>
    simp only [step]
    have pc : (s.watching w).pc = s.pc := rfl
    rw [pc]
    cases s.pc with
    | submitting => exact congrArg some (runOver_watching s w _)
    | recv | waiting | awaiting | ended => rfl
  | completed report =>
    simp only [step]
    have pc : (s.watching w).pc = s.pc := rfl
    rw [pc]
    cases s.pc with
    | awaiting lifecycle => exact congrArg some (runOver_watching s w _)
    | recv | waiting | submitting | ended => rfl

/-- One runner has heard less of the watch than the other, and is in the same state. -/
structure Like (u s : State ω) : Prop where
  behind : u.shutdown.Behind s.shutdown
  same : u = s.watching u.shutdown

theorem stop_of_true {q : Watch Bool} {ok : Bool} (change : s.shutdown.changed = some (ok, q))
    (new : s.shutdown.untrue = false) (h : shutdownChanged loop s = some (t, es)) :
    t = { s with shutdown := q, pc := .ended } ∧ es = [] ∧ s.pc ≠ .ended := by
  have stop := Watch.changed_untrue change
  rw [new, Bool.not_false] at stop
  simp only [shutdownChanged, change, stop, if_true] at h
  cases hpc : s.pc with
  | recv | waiting | submitting | awaiting =>
    simp only [hpc] at h
    cases h
    exact ⟨rfl, rfl, nofun⟩
  | ended =>
    simp only [hpc] at h
    cases h

theorem stops_of_true {q : Watch Bool} {ok : Bool} (change : s.shutdown.changed = some (ok, q))
    (new : s.shutdown.untrue = false) (running : s.pc ≠ .ended) :
    shutdownChanged loop s = some ({ s with shutdown := q, pc := .ended }, []) := by
  have stop := Watch.changed_untrue change
  rw [new, Bool.not_false] at stop
  simp only [shutdownChanged, change, stop, if_true]
  cases hpc : s.pc with
  | recv | waiting | submitting | awaiting => rfl
  | ended => exact absurd hpc running

theorem heard_in_vain {q : Watch Bool} {ok : Bool} (change : s.shutdown.changed = some (ok, q))
    (vain : s.shutdown.untrue = true) (hpc : s.pc = .recv) :
    shutdownChanged loop s = some ({ s with shutdown := q }, []) := by
  have stop := Watch.changed_untrue change
  rw [vain, Bool.not_true] at stop
  simp [shutdownChanged, change, hpc, stop]

/-- A step that does not concern the watch leaves the receiver as it is. -/
theorem shutdown_kept (value : ∀ b, label ≠ .setShutdown b) (sender : label ≠ .dropShutdown)
    (change : label ≠ .shutdownChanged) (h : step bound loop s label = some (t, es)) :
    t.shutdown = s.shutdown := by
  have same : step bound loop s label = (step bound loop s label).map (rewatch s.shutdown) :=
    step_watching s.shutdown value sender change
  rw [h] at same
  have kept : t = t.watching s.shutdown := (Prod.mk.inj (Option.some.inj same)).1
  rw [kept]
  rfl

theorem like_matched {u : State ω} (like : Like u s) (spared : Spared s label)
    (h : step bound loop s label = some (t, es)) :
    (label = .shutdownChanged ∧ es = [] ∧ Like u t) ∨
      ∃ v, Silent u label ∧ step bound loop u label = some (v, es) ∧ Like v t := by
  obtain ⟨behind, same⟩ := like
  have other : (∀ b, label ≠ .setShutdown b) → label ≠ .dropShutdown →
      label ≠ .shutdownChanged → Silent u label →
      ∃ v, Silent u label ∧ step bound loop u label = some (v, es) ∧ Like v t := by
    intro value sender change silent
    refine ⟨t.watching u.shutdown, silent, ?_, ?_, rfl⟩
    · rw [same, step_watching _ value sender change, h]
      rfl
    · rw [shutdown_kept value sender change h]
      exact behind
  cases label with
  | setShutdown b =>
    cases h
    refine Or.inr ⟨{ u with shutdown := u.shutdown.send b }, trivial, rfl, behind.send b, ?_⟩
    rw [same]
    rfl
  | dropShutdown =>
    cases h
    refine Or.inr ⟨{ u with shutdown := u.shutdown.dropSender }, trivial, rfl, behind.dropSender, ?_⟩
    rw [same]
    rfl
  | shutdownChanged =>
    have h : shutdownChanged loop s = some (t, es) := h
    cases change : s.shutdown.changed with
    | none =>
      simp only [shutdownChanged, change] at h
      cases h
    | some told =>
      obtain ⟨ok, q⟩ := told
      cases new : s.shutdown.untrue with
      | true =>
        rw [heard_in_vain change new (spared new)] at h
        cases h
        refine Or.inl ⟨rfl, rfl, behind.changed change, ?_⟩
        rw [same]
        rfl
      | false =>
        obtain ⟨rfl, rfl, running⟩ := stop_of_true change new h
        obtain ⟨silent, told, level⟩ := behind.true_changed new change
        have alike : u.pc ≠ .ended := by
          rw [same]
          exact running
        refine Or.inr ⟨_, silent, stops_of_true told silent alike, level, ?_⟩
        rw [same]
        rfl
  | emit | closeEvents | advance | recv | timer | accepted | rejected | completed =>
    exact Or.inr (other nofun nofun nofun trivial)

/-- A wait does not go on as itself once it is over. -/
def Restless (loop : Loop ω) : Prop :=
  ∀ wait now last, (loop.wake wait now last).wait ≠ some wait

theorem follow_pc (s : State ω) (next : Next ω) :
    (follow s next).1.pc = next.wait.elim .submitting .waiting := by
  obtain ⟨drain, wait⟩ := next
  cases drain <;> cases wait <;> rfl

theorem mem_runOver (s : State ω) (event : Event) : event ∈ (runOver loop s event).2 := by
  simp only [runOver]
  split
  · exact List.mem_cons_self
  · exact List.mem_cons_self

/-- Where a notification in vain is inert. -/
theorem recv_of_inert (restless : Restless loop) (vain : s.shutdown.untrue = true)
    (h : shutdownChanged loop s = some (t, es)) (inert : es = [] ∧ t = s.watching t.shutdown) :
    s.pc = .recv := by
  obtain ⟨rfl, same⟩ := inert
  cases change : s.shutdown.changed with
  | none =>
    simp only [shutdownChanged, change] at h
    cases h
  | some told =>
    obtain ⟨ok, q⟩ := told
    have stop := Watch.changed_untrue change
    rw [vain, Bool.not_true] at stop
    simp only [shutdownChanged, change, stop, Bool.false_eq_true, if_false] at h
    cases hpc : s.pc with
    | recv => rfl
    | waiting wait =>
      simp only [hpc, Option.some.injEq] at h
      have pc := follow_pc { s with shutdown := q } (loop.wake wait s.now s.lastCommandFinished)
      rw [hpc] at pc
      rw [h, same, State.watching] at pc
      dsimp only at pc
      rw [hpc] at pc
      have moved := restless wait s.now s.lastCommandFinished
      cases next : (loop.wake wait s.now s.lastCommandFinished).wait with
      | none =>
        rw [next] at pc
        cases pc
      | some other =>
        rw [next] at pc moved
        cases pc
        exact absurd rfl moved
    | submitting =>
      simp only [hpc, Option.some.injEq] at h
      have given : .abandoned s.now ∈
          (runOver loop { s with shutdown := q, pc := .submitting } (.abandoned s.now)).2 :=
        mem_runOver ..
      rw [h] at given
      cases given
    | awaiting lifecycle =>
      simp only [hpc, Option.some.injEq] at h
      have given : .abandoned s.now ∈
          (runOver loop { s with shutdown := q, pc := .awaiting lifecycle } (.abandoned s.now)).2 :=
        mem_runOver ..
      rw [h] at given
      cases given
    | ended =>
      simp only [hpc] at h
      cases h

/-- Notifications that are no shutdown are inert if and only if they come while the runner waits
for an event; then the run goes on as if there had been none. -/
theorem inert_iff_spared (restless : Restless loop)
    (run : exec (step bound loop) State.start labels = some (t, tr)) :
    (Inert bound loop labels ↔ Meets (step bound loop) Spared State.start labels) ∧
      (Meets (step bound loop) Spared State.start labels → Unheard bound loop labels tr t) := by
  refine ⟨⟨?_, ?_⟩, ?_⟩
  · intro inert
    refine meets_of_each run ?_
    intro before label rest s es split reached
    cases label with
    | shutdownChanged =>
      intro vain
      obtain ⟨m, fs, gs, hm, hr, -⟩ := exec_append_some.mp (split ▸ run)
      obtain ⟨rfl, rfl⟩ := Prod.mk.inj (Option.some.inj (reached.symm.trans hm))
      obtain ⟨n, ks, _, hn, -, -⟩ := exec_cons_some.mp hr
      exact recv_of_inert restless vain hn (inert before rest s n es ks split reached vain hn)
    | emit | closeEvents | setShutdown | dropShutdown | advance | recv | timer | accepted | rejected
    | completed => trivial
  · rintro spared before rest s t es fs rfl reached vain h
    have hpc := meets_at spared reached vain
    have h : shutdownChanged loop s = some (t, fs) := h
    cases change : s.shutdown.changed with
    | none =>
      simp only [shutdownChanged, change] at h
      cases h
    | some told =>
      rw [heard_in_vain change vain hpc] at h
      cases h
      exact ⟨rfl, rfl⟩
  · intro spared
    obtain ⟨as, v, thin, silent, hv, like⟩ := exec_thinned Like Spared Silent (· = .shutdownChanged)
      (fun _ _ _ _ _ like spared h => like_matched like spared h) ⟨.refl _, rfl⟩ spared run
    exact ⟨as, v, thin, silent, hv, like.same⟩

end EventRunner

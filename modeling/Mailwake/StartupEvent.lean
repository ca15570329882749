import Mailwake.Channel
import Mailwake.Transition

/-!
# The start-up event beside a watcher

`spawn_startup_event` for a source with `run_on_startup`, and `run_daemon`'s broadcast of the
start-up signal, which waits for the initial-ready messages under
`--initial-connect-required`. The remote mailbox changes at any time. Of the watcher only
this matters: it calls for an event only after its first establishment.
-/
namespace StartupEvent
open Channel Transition

/-- What a watcher does outside itself: a `try_send` of an event, the initial-ready Ok. -/
inductive Notice where
  | queued
  | ready
  deriving DecidableEq

structure Watcher (ω μ : Type) where
  step : ω → μ → Option (ω × List Notice)
  /-- Established at least once. -/
  established : ω → Bool
  Sound : ω → Prop
  sound_step : ∀ w m v ns, Sound w → step w m = some (v, ns) → Sound v
  established_step : ∀ w m v ns, Sound w → step w m = some (v, ns) → established w = true →
    established v = true
  queued_step : ∀ w m v ns, Sound w → step w m = some (v, ns) → Notice.queued ∈ ns →
    established w = true
  ready_step : ∀ w m v ns, Sound w → step w m = some (v, ns) → Notice.ready ∈ ns →
    established v = true

/-- The task of `spawn_startup_event`. -/
inductive TaskPc where
  | looping
  | selecting
  | done
  | returned
  deriving DecidableEq

structure State (ω : Type) where
  watcher : ω
  startup : Watch Bool
  shutdown : Watch Bool
  task : TaskPc
  /-- The length of the source's event queue. -/
  queue : Nat
  /-- Whether the initial-ready Ok has been sent. -/
  ready : Bool

inductive Label (μ : Type) where
  | watcher (move : μ)
  | changed
  | broadcast
  | dropStartup
  | setShutdown (value : Bool)
  | dropShutdown
  | check
  | startupChanged
  | shutdownChanged
  | consume

inductive Event where
  /-- A remote change; early before the first establishment. -/
  | changed (early : Bool)
  | put
  deriving DecidableEq

variable {ω μ : Type}

def State.start (watcher : ω) : State ω :=
  ⟨watcher, .start false, .start false, .looping, 0, false⟩

/-- `try_send` of an event; a full queue coalesces it. -/
def offer (bound : Nat) (s : State ω) : State ω × List Event :=
  if s.queue < bound then ({ s with queue := s.queue + 1 }, [.put]) else (s, [])

def deliver (bound : Nat) : State ω → List Notice → State ω × List Event
  | s, [] => (s, [])
  | s, .queued :: rest =>
    let next := offer bound s
    let last := deliver bound next.1 rest
    (last.1, next.2 ++ last.2)
  | s, .ready :: rest => deliver bound { s with ready := true } rest

def step (W : Watcher ω μ) (bound : Nat) (required : Bool) (s : State ω) :
    Label μ → Option (State ω × List Event)
  | .watcher move =>
    (W.step s.watcher move).map fun (watcher, notices) =>
      deliver bound { s with watcher := watcher } notices
  | .changed => some (s, [.changed !W.established s.watcher])
  | .broadcast =>
    if required && !s.ready then none else some ({ s with startup := s.startup.send true }, [])
  | .dropStartup => some ({ s with startup := s.startup.dropSender }, [])
  | .setShutdown value => some ({ s with shutdown := s.shutdown.send value }, [])
  | .dropShutdown => some ({ s with shutdown := s.shutdown.dropSender }, [])
  | .check =>
    match s.task with
    | .looping =>
      some (if s.startup.value then offer bound { s with task := .done }
        else ({ s with task := .selecting }, []))
    | _ => none
  | .startupChanged =>
    match s.task with
    | .selecting =>
      s.startup.changed.map fun (ok, startup) =>
        ({ s with startup := startup, task := if ok then .looping else .returned }, [])
    | _ => none
  | .shutdownChanged =>
    match s.task with
    | .selecting =>
      s.shutdown.changed.map fun (ok, shutdown) =>
        ({ s with shutdown := shutdown,
                  task := if ok && shutdown.value then .returned else .looping }, [])
    | _ => none
  | .consume => if 0 < s.queue then some ({ s with queue := s.queue - 1 }, []) else none

/-- Every change before the first establishment is followed by an event in the queue, as
far as the start-up event is not still to come. -/
def Closed (W : Watcher ω μ) (tr : List Event) (s : State ω) : Prop :=
  W.established s.watcher = true → s.task = .done →
    FollowedBy (fun x => x = .changed true) (fun x => x = .put) tr

/-- No change comes between the start-up event and the first establishment. -/
def Attended (W : Watcher ω μ) (s : State ω) : Label μ → Prop
  | .changed => s.task = .done → W.established s.watcher = true
  | _ => True

instance (W : Watcher ω μ) (s : State ω) : ∀ label, Decidable (Attended W s label)
  | .changed => inferInstanceAs (Decidable (_ → _))
  | .watcher _ | .broadcast | .dropStartup | .setShutdown _ | .dropShutdown | .check
  | .startupChanged | .shutdownChanged | .consume => isTrue trivial

section Delivery
variable {bound : Nat}

theorem deliver_frame (bound : Nat) (s : State ω) (ns : List Notice) :
    (deliver bound s ns).1.watcher = s.watcher ∧ (deliver bound s ns).1.task = s.task ∧
      (deliver bound s ns).1.startup = s.startup := by
  induction ns generalizing s with
  | nil => exact ⟨rfl, rfl, rfl⟩
  | cons n rest ih =>
    cases n with
    | ready => exact ih _
    | queued =>
      simp only [deliver, offer]
      split
      · exact ih _
      · exact ih _

theorem offer_ready (s : State ω) : (offer bound s).1.ready = s.ready := by
  rw [offer]
  split <;> rfl

theorem deliver_keeps_ready {s : State ω} (ns : List Notice) (h : s.ready = true) :
    (deliver bound s ns).1.ready = true := by
  induction ns generalizing s with
  | nil => exact h
  | cons n rest ih =>
    cases n with
    | ready => exact ih rfl
    | queued => exact ih ((offer_ready s).trans h)

theorem deliver_ready (s : State ω) (ns : List Notice) (h : (deliver bound s ns).1.ready = true) :
    s.ready = true ∨ Notice.ready ∈ ns := by
  induction ns generalizing s with
  | nil => exact Or.inl h
  | cons n rest ih =>
    cases n with
    | ready => exact Or.inr (List.mem_cons_self ..)
    | queued =>
      rcases ih (offer bound s).1 h with old | new
      · exact Or.inl ((offer_ready s).symm.trans old)
      · exact Or.inr (List.mem_cons_of_mem _ new)

/-- A delivery puts events into the queue, or leaves it as it is. -/
theorem deliver_cases (bound : Nat) (s : State ω) (ns : List Notice) :
    (deliver bound s ns).2 = [] ∧ (deliver bound s ns).1.queue = s.queue ∨
      Notice.queued ∈ ns ∧ Event.put ∈ (deliver bound s ns).2 ∧
        ∀ x ∈ (deliver bound s ns).2, x = .put := by
  induction ns generalizing s with
  | nil => exact Or.inl ⟨rfl, rfl⟩
  | cons n rest ih =>
    cases n with
    | ready =>
      rcases ih { s with ready := true } with quiet | ⟨called, put, only⟩
      · exact Or.inl quiet
      · exact Or.inr ⟨List.mem_cons_of_mem _ called, put, only⟩
    | queued =>
      have called : Notice.queued ∈ Notice.queued :: rest := List.mem_cons_self ..
      simp only [deliver, offer]
      split
      · refine Or.inr ⟨called, by simp, ?_⟩
        intro x hx
        rcases List.mem_append.mp hx with hx | hx
        · exact List.mem_singleton.mp hx
        · rcases ih { s with queue := s.queue + 1 } with ⟨quiet, -⟩ | ⟨-, -, only⟩
          · rw [quiet] at hx
            cases hx
          · exact only x hx
      · simp only [List.nil_append]
        rcases ih s with quiet | ⟨-, put, only⟩
        · exact Or.inl quiet
        · exact Or.inr ⟨called, put, only⟩

end Delivery

abbrev Answered (tr : List Event) : Prop :=
  FollowedBy (fun x => x = .changed true) (fun x => x = .put) tr

theorem answered_append_puts {tr es : List Event} (put : Event.put ∈ es)
    (only : ∀ x ∈ es, x = .put) : Answered (tr ++ es) := by
  refine followedBy_append_answer ⟨.put, put, rfl⟩ ?_
  rintro x hx rfl
  cases only _ hx

/-- Before the start-up event only an established source has events in its queue, and they
came after every early change. -/
structure Sound (W : Watcher ω μ) (tr : List Event) (s : State ω) : Prop where
  watcher : W.Sound s.watcher
  answered : s.task = .done → Answered tr
  idle : W.established s.watcher = false → s.task ≠ .done → s.queue = 0
  queued : s.task ≠ .done → 0 < s.queue → Answered tr

variable {W : Watcher ω μ} {bound : Nat} {required : Bool} {s t : State ω} {label : Label μ}
  {tr es : List Event}

/-- A step that emits nothing and touches neither the watcher nor the end of the task. -/
theorem sound_quiet (old : Sound W tr s) (watcher : t.watcher = s.watcher)
    (task : t.task = .done ↔ s.task = .done) (queue : t.queue ≤ s.queue) :
    Sound W (tr ++ []) t := by
  rw [List.append_nil]
  refine ⟨watcher ▸ old.watcher, fun h => old.answered (task.mp h), ?_, ?_⟩
  · intro unestablished running
    have zero := old.idle (watcher ▸ unestablished) (fun h => running (task.mpr h))
    omega
  · intro running filled
    exact old.queued (fun h => running (task.mpr h)) (by omega)

theorem sound_watcher (old : Sound W tr s) {move : μ} {watcher : ω} {ns : List Notice}
    (h : W.step s.watcher move = some (watcher, ns)) :
    Sound W (tr ++ (deliver bound { s with watcher := watcher } ns).2)
      (deliver bound { s with watcher := watcher } ns).1 := by
  obtain ⟨same, task, -⟩ := deliver_frame bound { s with watcher := watcher } ns
  have sound := W.sound_step _ _ _ _ old.watcher h
  have earlier : W.established watcher = false → W.established s.watcher = false := by
    intro unestablished
    by_contra hw
    have stays := W.established_step _ _ _ _ old.watcher h (Bool.not_eq_false _ |>.mp hw)
    rw [stays] at unestablished
    cases unestablished
  rcases deliver_cases bound { s with watcher := watcher } ns with ⟨silent, queue⟩ |
    ⟨called, put, only⟩
  · rw [silent, List.append_nil]
    refine ⟨same ▸ sound, fun h => old.answered (task ▸ h), ?_, ?_⟩
    · intro unestablished running
      rw [same] at unestablished
      rw [queue]
      exact old.idle (earlier unestablished) (task ▸ running)
    · intro running filled
      rw [queue] at filled
      exact old.queued (task ▸ running) filled
  · have all : Answered (tr ++ (deliver bound { s with watcher := watcher } ns).2) :=
      answered_append_puts put only
    refine ⟨same ▸ sound, fun _ => all, ?_, fun _ _ => all⟩
    intro unestablished
    rw [same] at unestablished
    have established := W.queued_step _ _ _ _ old.watcher h called
    rw [earlier unestablished] at established
    cases established

/-- The start-up event goes into the queue, or meets one that answers as well. -/
theorem sound_startup (hb : 0 < bound) (old : Sound W tr s) (running : s.task ≠ .done) :
    Sound W (tr ++ (offer bound { s with task := .done }).2)
      (offer bound { s with task := .done }).1 := by
  rw [offer]
  split
  · have all : Answered (tr ++ [Event.put]) := answered_append_puts (by simp) (by simp)
    exact ⟨old.watcher, fun _ => all, fun _ h => absurd rfl h, fun _ _ => all⟩
  · rename_i full
    have all := old.queued running (by simp only at full; omega)
    rw [List.append_nil]
    exact ⟨old.watcher, fun _ => all, fun _ h => absurd rfl h, fun _ _ => all⟩

theorem sound_changed (old : Sound W tr s) (attended : s.task = .done →
    W.established s.watcher = true) :
    Sound W (tr ++ [.changed !W.established s.watcher]) s := by
  cases he : W.established s.watcher with
  | true =>
    have keeps : Answered tr → Answered (tr ++ [.changed false]) := by
      intro h
      exact h.append (by simp)
    refine ⟨old.watcher, fun h => keeps (old.answered h), ?_, fun h hq => keeps (old.queued h hq)⟩
    intro unestablished
    rw [he] at unestablished
    cases unestablished
  | false =>
    have running : s.task ≠ .done := by
      intro h
      rw [attended h] at he
      cases he
    have empty := old.idle he running
    exact ⟨old.watcher, fun h => absurd h running, fun _ _ => empty, fun _ hq => by omega⟩

theorem sound_step (hb : 0 < bound) (old : Sound W tr s) (attended : Attended W s label)
    (h : step W bound required s label = some (t, es)) : Sound W (tr ++ es) t := by
  cases label with
  | watcher move =>
    obtain ⟨⟨watcher, ns⟩, hw, he⟩ := Option.map_eq_some_iff.mp h
    obtain ⟨rfl, rfl⟩ := Prod.mk.inj he
    exact sound_watcher old hw
  | changed =>
    obtain ⟨rfl, rfl⟩ := Prod.mk.inj (Option.some.inj h)
    exact sound_changed old attended
  | broadcast =>
    simp only [step] at h
    split at h
    · cases h
    · obtain ⟨rfl, rfl⟩ := Prod.mk.inj (Option.some.inj h)
      exact sound_quiet old rfl Iff.rfl le_rfl
  | dropStartup | setShutdown | dropShutdown =>
    obtain ⟨rfl, rfl⟩ := Prod.mk.inj (Option.some.inj h)
    exact sound_quiet old rfl Iff.rfl le_rfl
  | check =>
    simp only [step] at h
    split at h
    · rename_i task
      have running : s.task ≠ .done := by simp [task]
      split at h
      · obtain ⟨rfl, rfl⟩ := Prod.mk.inj (Option.some.inj h)
        exact sound_startup hb old running
      · obtain ⟨rfl, rfl⟩ := Prod.mk.inj (Option.some.inj h)
        exact sound_quiet old rfl (by simp [task]) le_rfl
    · cases h
  | startupChanged =>
    simp only [step] at h
    split at h
    · rename_i task
      obtain ⟨⟨ok, startup⟩, -, he⟩ := Option.map_eq_some_iff.mp h
      obtain ⟨rfl, rfl⟩ := Prod.mk.inj he
      exact sound_quiet old rfl (by cases ok <;> simp [task]) le_rfl
    · cases h
  | shutdownChanged =>
    simp only [step] at h
    split at h
    · rename_i task
      obtain ⟨⟨ok, shutdown⟩, -, he⟩ := Option.map_eq_some_iff.mp h
      obtain ⟨rfl, rfl⟩ := Prod.mk.inj he
      refine sound_quiet old rfl ?_ le_rfl
      dsimp only
      split <;> simp [task]
    · cases h
  | consume =>
    simp only [step] at h
    split at h
    · obtain ⟨rfl, rfl⟩ := Prod.mk.inj (Option.some.inj h)
      exact sound_quiet old rfl Iff.rfl (Nat.sub_le ..)
    · cases h

/-- An early change that no event has followed. -/
def Lost (tr : List Event) : Prop :=
  ∃ before after, tr = before ++ .changed true :: after ∧ Event.put ∉ after

theorem Lost.not_answered (h : Lost tr) : ¬ Answered tr := by
  obtain ⟨before, after, he, silent⟩ := h
  intro answered
  obtain ⟨y, hy, rfl⟩ := answered before _ after he rfl
  exact silent hy

theorem Lost.append (h : Lost tr) (silent : Event.put ∉ es) : Lost (tr ++ es) := by
  obtain ⟨before, after, rfl, quiet⟩ := h
  refine ⟨before, after ++ es, by simp, ?_⟩
  intro hy
  rcases List.mem_append.mp hy with hy | hy
  · exact quiet hy
  · exact silent hy

/-- A watcher stays sound and established, whatever the task does. -/
theorem watcher_step (sound : W.Sound s.watcher)
    (h : step W bound required s label = some (t, es)) :
    W.Sound t.watcher ∧ (W.established s.watcher = true → W.established t.watcher = true) := by
  cases label with
  | watcher move =>
    obtain ⟨⟨watcher, ns⟩, hw, he⟩ := Option.map_eq_some_iff.mp h
    obtain ⟨rfl, -⟩ := Prod.mk.inj he
    rw [(deliver_frame _ _ ns).1]
    exact ⟨W.sound_step _ _ _ _ sound hw, W.established_step _ _ _ _ sound hw⟩
  | changed | dropStartup | setShutdown | dropShutdown =>
    obtain ⟨rfl, -⟩ := Prod.mk.inj (Option.some.inj h)
    exact ⟨sound, id⟩
  | broadcast =>
    simp only [step] at h
    split at h
    · cases h
    · obtain ⟨rfl, -⟩ := Prod.mk.inj (Option.some.inj h)
      exact ⟨sound, id⟩
  | check =>
    simp only [step, offer] at h
    split at h
    · split at h
      · split at h
        · obtain ⟨rfl, -⟩ := Prod.mk.inj (Option.some.inj h)
          exact ⟨sound, id⟩
        · obtain ⟨rfl, -⟩ := Prod.mk.inj (Option.some.inj h)
          exact ⟨sound, id⟩
      · obtain ⟨rfl, -⟩ := Prod.mk.inj (Option.some.inj h)
        exact ⟨sound, id⟩
    · cases h
  | startupChanged | shutdownChanged =>
    simp only [step] at h
    split at h
    · obtain ⟨_, -, he⟩ := Option.map_eq_some_iff.mp h
      obtain ⟨rfl, -⟩ := Prod.mk.inj he
      exact ⟨sound, id⟩
    · cases h
  | consume =>
    simp only [step] at h
    split at h
    · obtain ⟨rfl, -⟩ := Prod.mk.inj (Option.some.inj h)
      exact ⟨sound, id⟩
    · cases h

/-- After the start-up event, a source that is not established puts nothing. -/
theorem silent_step (sound : W.Sound s.watcher) (unestablished : W.established s.watcher = false)
    (done : s.task = .done) (h : step W bound required s label = some (t, es)) :
    Event.put ∉ es ∧ t.task = .done := by
  cases label with
  | watcher move =>
    obtain ⟨⟨watcher, ns⟩, hw, he⟩ := Option.map_eq_some_iff.mp h
    obtain ⟨rfl, rfl⟩ := Prod.mk.inj he
    refine ⟨?_, (deliver_frame _ _ ns).2.1.trans done⟩
    rcases deliver_cases bound { s with watcher := watcher } ns with ⟨silent, -⟩ |
      ⟨called, -, -⟩
    · rw [silent]
      simp
    · rw [W.queued_step _ _ _ _ sound hw called] at unestablished
      cases unestablished
  | changed | dropStartup | setShutdown | dropShutdown =>
    obtain ⟨rfl, rfl⟩ := Prod.mk.inj (Option.some.inj h)
    exact ⟨by simp, done⟩
  | broadcast =>
    simp only [step] at h
    split at h
    · cases h
    · obtain ⟨rfl, rfl⟩ := Prod.mk.inj (Option.some.inj h)
      exact ⟨by simp, done⟩
  | check | startupChanged | shutdownChanged => simp [step, done] at h
  | consume =>
    simp only [step] at h
    split at h
    · obtain ⟨rfl, rfl⟩ := Prod.mk.inj (Option.some.inj h)
      exact ⟨by simp, done⟩
    · cases h

/-- A change lost before the establishment is still lost right at it. -/
theorem lost_at_establishment {labels : List (Label μ)} {past : List Event}
    (sound : W.Sound s.watcher) (unestablished : W.established s.watcher = false)
    (done : s.task = .done) (lost : Lost past)
    (run : exec (step W bound required) s labels = some (t, tr))
    (established : W.established t.watcher = true) :
    ∃ taken rest v es, labels = taken ++ rest ∧
      exec (step W bound required) s taken = some (v, es) ∧
        W.established v.watcher = true ∧ v.task = .done ∧ Lost (past ++ es) := by
  induction labels generalizing s tr past with
  | nil =>
    obtain ⟨rfl, -⟩ : s = t ∧ [] = tr := by simpa using run
    rw [established] at unestablished
    cases unestablished
  | cons label rest ih =>
    obtain ⟨m, es, fs, hs, hr, rfl⟩ := exec_cons_some.mp run
    obtain ⟨silent, still⟩ := silent_step sound unestablished done hs
    have later := lost.append silent
    cases hm : W.established m.watcher with
    | true =>
      have one : exec (step W bound required) s [label] = some (m, es) := by simp [exec, hs]
      exact ⟨[label], rest, m, es, rfl, one, hm, still, later⟩
    | false =>
      obtain ⟨taken, after, v, gs, rfl, hv, reached, last, gone⟩ :=
        ih (watcher_step sound hs).1 hm still later hr
      exact ⟨label :: taken, after, v, es ++ gs, rfl,
        exec_cons_some.mpr ⟨m, es, gs, hs, hv, rfl⟩, reached, last, by rwa [← List.append_assoc]⟩

/-- The gap is closed in every state of a run. -/
def ClosedThroughout (W : Watcher ω μ) (bound : Nat) (required : Bool) (watcher : ω)
    (labels : List (Label μ)) : Prop :=
  Throughout (step W bound required) (Closed W) (State.start watcher) labels

/-- The gap is closed in every state of a run, if and only if, should the run establish the
source, no change comes after the start-up event and before the first establishment. -/
theorem closed_iff_attended (hb : 0 < bound) {watcher : ω} (start : W.Sound watcher)
    {labels : List (Label μ)}
    (run : exec (step W bound required) (State.start watcher) labels = some (t, tr)) :
    ClosedThroughout W bound required watcher labels ↔
      (W.established t.watcher = true →
        Meets (step W bound required) (Attended W) (State.start watcher) labels) := by
  constructor
  · intro closed established
    refine meets_of_each run ?_
    rintro taken label rest m es rfl hm
    cases label with
    | changed =>
      intro done
      by_contra unestablished
      have sound : W.Sound m.watcher := exec_state_invariant (P := fun u => W.Sound u.watcher)
        (fun _ _ _ _ old hs => (watcher_step old hs).1) start hm
      have unestablished : W.established m.watcher = false := Bool.not_eq_true _ |>.mp unestablished
      obtain ⟨n, gs, fs, hn, hr, -⟩ := exec_append_some.mp run
      obtain ⟨rfl, rfl⟩ := Prod.mk.inj (Option.some.inj (hm.symm.trans hn))
      have lost : Lost (es ++ [.changed true]) := ⟨es, [], rfl, by simp⟩
      obtain ⟨k, ks, ls, hk, after, -⟩ := exec_cons_some.mp hr
      obtain ⟨rfl, rfl⟩ := Prod.mk.inj (Option.some.inj hk)
      obtain ⟨between, others, v, vs, rfl, hv, reached, still, gone⟩ :=
        lost_at_establishment sound unestablished done lost after established
      have reaches : exec (step W bound required) m (.changed :: between)
          = some (v, .changed true :: vs) :=
        exec_cons_some.mpr ⟨m, [.changed true], vs, by simp [step, unestablished], hv, rfl⟩
      have whole := exec_append_some.mpr ⟨m, es, _, hm, reaches, rfl⟩
      have answered := closed (taken ++ .changed :: between) others v _ (by simp) whole reached still
      rw [List.append_assoc] at gone
      exact gone.not_answered answered
    | watcher | broadcast | dropStartup | setShutdown | dropShutdown | check | startupChanged
    | shutdownChanged | consume => trivial
  · rintro attended taken rest v es rfl hv established done
    obtain ⟨n, gs, fs, hn, hr, -⟩ := exec_append_some.mp run
    obtain ⟨rfl, rfl⟩ := Prod.mk.inj (Option.some.inj (hv.symm.trans hn))
    have watched : W.Sound v.watcher := exec_state_invariant (P := fun u => W.Sound u.watcher)
      (fun _ _ _ _ old hs => (watcher_step old hs).1) start hv
    have last : W.Sound t.watcher ∧ W.established t.watcher = true :=
      exec_state_invariant (P := fun u => W.Sound u.watcher ∧ W.established u.watcher = true)
        (fun _ _ _ _ old hs => (watcher_step old.1 hs).imp_right fun stays => stays old.2)
        ⟨watched, established⟩ hr
    have sound : Sound W [] (State.start watcher) :=
      ⟨start, by simp [State.start], fun _ _ => rfl, by simp [State.start]⟩
    exact (exec_invariant_of_meets (fun _ _ _ _ _ old attended hs => sound_step hb old attended hs)
      sound (meets_append_left (attended last.2)) hv).answered done

section Required

/-- Under `--initial-connect-required` the start-up signal waits for this source. -/
structure Gated (W : Watcher ω μ) (s : State ω) : Prop where
  watcher : W.Sound s.watcher
  ready : s.ready = true → W.established s.watcher = true
  signalled : s.startup.value = true → s.ready = true
  done : s.task = .done → s.startup.value = true

theorem gated_step (old : Gated W s) (h : step W bound true s label = some (t, es)) :
    Gated W t := by
  obtain ⟨watcher, ready, signalled, done⟩ := old
  cases label with
  | watcher move =>
    obtain ⟨⟨next, ns⟩, hw, he⟩ := Option.map_eq_some_iff.mp h
    obtain ⟨rfl, -⟩ := Prod.mk.inj he
    obtain ⟨same, task, startup⟩ := deliver_frame bound { s with watcher := next } ns
    refine ⟨?_, ?_, ?_, ?_⟩
    · rw [same]
      exact W.sound_step _ _ _ _ watcher hw
    · intro hr
      rw [same]
      rcases deliver_ready _ ns hr with known | sent
      · exact W.established_step _ _ _ _ watcher hw (ready known)
      · exact W.ready_step _ _ _ _ watcher hw sent
    · intro hv
      rw [startup] at hv
      exact deliver_keeps_ready ns (signalled hv)
    · rw [task, startup]
      exact done
  | changed | dropStartup | setShutdown | dropShutdown =>
    obtain ⟨rfl, -⟩ := Prod.mk.inj (Option.some.inj h)
    exact ⟨watcher, ready, signalled, done⟩
  | broadcast =>
    simp only [step] at h
    split at h
    · cases h
    · rename_i allowed
      obtain ⟨rfl, -⟩ := Prod.mk.inj (Option.some.inj h)
      exact ⟨watcher, ready, fun _ => by simpa using allowed, fun _ => rfl⟩
  | check =>
    simp only [step, offer] at h
    split at h
    · split at h
      · rename_i value
        split at h
        · obtain ⟨rfl, -⟩ := Prod.mk.inj (Option.some.inj h)
          exact ⟨watcher, ready, signalled, fun _ => value⟩
        · obtain ⟨rfl, -⟩ := Prod.mk.inj (Option.some.inj h)
          exact ⟨watcher, ready, signalled, fun _ => value⟩
      · obtain ⟨rfl, -⟩ := Prod.mk.inj (Option.some.inj h)
        exact ⟨watcher, ready, signalled, by simp⟩
    · cases h
  | startupChanged =>
    simp only [step] at h
    split at h
    · obtain ⟨⟨ok, startup⟩, hc, he⟩ := Option.map_eq_some_iff.mp h
      obtain ⟨rfl, -⟩ := Prod.mk.inj he
      have same : startup.value = s.startup.value := Watch.changed_value hc
      exact ⟨watcher, ready, fun hv => signalled (same.symm.trans hv), by cases ok <;> simp⟩
    · cases h
  | shutdownChanged =>
    simp only [step] at h
    split at h
    · obtain ⟨⟨ok, shutdown⟩, -, he⟩ := Option.map_eq_some_iff.mp h
      obtain ⟨rfl, -⟩ := Prod.mk.inj he
      refine ⟨watcher, ready, signalled, ?_⟩
      dsimp only
      split <;> simp
    · cases h
  | consume =>
    simp only [step] at h
    split at h
    · obtain ⟨rfl, -⟩ := Prod.mk.inj (Option.some.inj h)
      exact ⟨watcher, ready, signalled, done⟩
    · cases h

/-- Under `--initial-connect-required` the start-up event comes after the establishment. -/
theorem closed_when_required (hb : 0 < bound) {watcher : ω} (start : W.Sound watcher)
    {labels : List (Label μ)}
    (run : exec (step W bound true) (State.start watcher) labels = some (t, tr)) :
    ClosedThroughout W bound true watcher labels := by
  refine (closed_iff_attended hb start run).mpr fun _ => meets_of_each run ?_
  rintro taken label rest m es rfl hm
  have gated : Gated W m := exec_state_invariant (P := Gated W)
    (fun _ _ _ _ old hs => gated_step old hs)
    ⟨start, by simp [State.start], by simp [State.start, Watch.start], by simp [State.start]⟩ hm
  cases label with
  | changed => exact fun done => gated.ready (gated.signalled (gated.done done))
  | watcher | broadcast | dropStartup | setShutdown | dropShutdown | check | startupChanged
  | shutdownChanged | consume => trivial

end Required

end StartupEvent

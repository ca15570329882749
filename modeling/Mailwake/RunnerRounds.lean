import Mailwake.RunnerAlarm

/-!
# The rounds of a runner

A round goes from the first event consumed after a submission to the end of the next one.
What a law about submissions looks at is folded over the trace into a `Record`. While the
shutdown watch carries nothing but `true`, a wait is only left when it is due or when the
queue has come to its end, so a law holds of a loop once it holds for these two ways out.
-/
namespace EventRunner
open Channel CommandReport Transition
universe u
variable {ω : Type u} {bound : Nat} {loop : Loop ω} {s t : State ω} {label : Label}
  {labels : List Label} {tr es : List Event}

structure Record where
  /-- A submission has started and not ended. -/
  running : Bool
  /-- The first event consumed since the last submission. -/
  first : Option Nat
  last : Option Nat
  /-- The end of the last submission. -/
  finished : Option Nat
  deriving DecidableEq

/-- A submission that was given up has not ended. -/
def Record.note (r : Record) : Event → Record
  | .emitted => r
  | .consumed time => { r with first := some (r.first.getD time), last := some time }
  | .submitted _ => { r with running := true, first := none }
  | .rejected time => { r with running := false, finished := some time }
  | .completed _ time => { r with running := false, finished := some time }
  | .abandoned _ => r

def record (tr : List Event) : Record := tr.foldl Record.note ⟨false, none, none, none⟩

/-- Every submission satisfies `Q` with what was recorded before it and its time. -/
def Submits (Q : Record → Nat → Prop) (tr : List Event) : Prop :=
  AtEach (fun before x => ∀ time, x = .submitted time → Q (record before) time) tr

/-- The shutdown watch carries nothing but `true`, and its sender stays. -/
def OnlyTrue (_ : State ω) : Label → Prop
  | .setShutdown value => value = true
  | .dropShutdown => False
  | _ => True

instance (s : State ω) : ∀ label, Decidable (OnlyTrue s label)
  | .setShutdown value => inferInstanceAs (Decidable (value = true))
  | .dropShutdown => isFalse id
  | .emit | .closeEvents | .advance _ | .shutdownChanged | .recv | .timer | .accepted _
  | .rejected | .completed _ => isTrue trivial

section Records

@[simp] theorem record_nil : record [] = ⟨false, none, none, none⟩ := rfl

theorem record_append (tr es : List Event) : record (tr ++ es) = es.foldl Record.note (record tr) :=
  List.foldl_append

@[simp] theorem record_concat (tr : List Event) (x : Event) :
    record (tr ++ [x]) = (record tr).note x :=
  record_append tr [x]

def drained (items : List Unit) (now : Nat) : List Event := items.map fun _ => .consumed now

/-- Within a round, the events drained at one instant only move the last consumption. -/
theorem note_drained {r : Record} {first : Nat} (h : r.first = some first) (items : List Unit)
    (now : Nat) : ∃ last, (drained items now).foldl Record.note r = { r with last := last } := by
  induction items generalizing r with
  | nil => exact ⟨r.last, rfl⟩
  | cons item rest ih =>
    have noted : r.note (.consumed now) = { r with last := some now } := by
      simp [Record.note, h]
    obtain ⟨last, hlast⟩ := ih (r := { r with last := some now }) h
    refine ⟨last, ?_⟩
    calc (drained (item :: rest) now).foldl Record.note r
        = (drained rest now).foldl Record.note (r.note (.consumed now)) := rfl
      _ = { r with last := last } := by rw [noted, hlast]

/-- Once the last consumption is this instant, more of them change nothing. -/
theorem note_same {r : Record} {first now : Nat} (h : r.first = some first)
    (last : r.last = some now) (items : List Unit) :
    (drained items now).foldl Record.note r = r := by
  induction items with
  | nil => rfl
  | cons item rest ih =>
    have noted : r.note (.consumed now) = r := by
      cases r
      simp only at h last
      subst h last
      rfl
    calc (drained (item :: rest) now).foldl Record.note r
        = (drained rest now).foldl Record.note (r.note (.consumed now)) := rfl
      _ = r := by rw [noted, ih]

/-- Between rounds, the first drained event starts one. -/
theorem note_round {r : Record} (h : r.first = none) (item : Unit) (items : List Unit) (now : Nat) :
    (drained (item :: items) now).foldl Record.note r =
      { r with first := some now, last := some now } := by
  have noted : r.note (.consumed now) = { r with first := some now, last := some now } := by
    simp [Record.note, h]
  calc (drained (item :: items) now).foldl Record.note r
      = (drained items now).foldl Record.note (r.note (.consumed now)) := rfl
    _ = { r with first := some now, last := some now } := by
      rw [noted]
      exact note_same rfl rfl items

variable {Q : Record → Nat → Prop}

theorem submits_nil : Submits Q [] := atEach_nil

theorem Submits.quiet (h : Submits Q tr) (quiet : ∀ time, .submitted time ∉ es) :
    Submits Q (tr ++ es) :=
  h.append_quiet fun _ hx _ time he => absurd (he ▸ hx) (quiet time)

theorem Submits.submitted {now : Nat} (h : Submits Q tr) (allowed : Q (record tr) now) :
    Submits Q (tr ++ [.submitted now]) := by
  refine h.append_one ?_
  intro time he
  cases he
  exact allowed

theorem not_submitted_drained (items : List Unit) (now time : Nat) :
    .submitted time ∉ drained items now := by
  intro h
  obtain ⟨item, -, he⟩ := List.mem_map.mp h
  cases he

end Records

section Moves

/-- What a step does while the watch carries nothing but `true`. -/
inductive Move (loop : Loop ω) (s : State ω) : Label → State ω → List Event → Prop where
  | still {label : Label} {t : State ω} {es : List Event} (pc : t.pc = s.pc) (now : t.now = s.now)
      (last : t.lastCommandFinished = s.lastCommandFinished)
      (queue : es = [] ∧ t.events.items = s.events.items ∨
        es = [.emitted] ∧ t.events.items.length ≤ s.events.items.length + 1) : Move loop s label t es
  | advanced (duration : Nat) :
      Move loop s (.advance duration) { s with now := s.now + duration } []
  | accepted (lifecycle : Nat) (hpc : s.pc = .submitting) :
      Move loop s (.accepted lifecycle) { s with pc := .awaiting lifecycle } []
  | ended {label : Label} (shutdown : Watch Bool) :
      Move loop s label { s with shutdown := shutdown, pc := .ended } []
  | entered {events : Mpsc Unit} (hpc : s.pc = .recv) (items : s.events.items = () :: events.items) :
      Move loop s .recv
        (follow { s with events := events } (loop.enter s.now s.lastCommandFinished)).1
        (.consumed s.now ::
          (follow { s with events := events } (loop.enter s.now s.lastCommandFinished)).2)
  | heard {wait next : ω} {events : Mpsc Unit} (hpc : s.pc = .waiting wait)
      (hears : loop.heard wait s.now = some next) (items : s.events.items = () :: events.items) :
      Move loop s .recv { s with events := events, pc := .waiting next } [.consumed s.now]
  | cut {wait : ω} (hpc : s.pc = .waiting wait) (hears : (loop.heard wait s.now).isSome = true)
      (items : s.events.items = []) (closed : s.events.sendersAlive = false) :
      Move loop s .recv (follow s ⟨false, none⟩).1 (follow s ⟨false, none⟩).2
  | woken {wait : ω} (hpc : s.pc = .waiting wait) (due : loop.deadline wait ≤ s.now) :
      Move loop s .timer (follow s (loop.wake wait s.now s.lastCommandFinished)).1
        (follow s (loop.wake wait s.now s.lastCommandFinished)).2
  | done {label : Label} {event : Event} (hpc : s.pc = .submitting ∨ ∃ n, s.pc = .awaiting n)
      (event_now : event = .rejected s.now ∨ ∃ report, event = .completed report s.now) :
      Move loop s label (runOver loop s event).1 (runOver loop s event).2

theorem move_of_recv (h : recv loop s = some (t, es)) : Move loop s .recv t es := by
  cases received : s.events.recv with
  | none =>
    simp only [recv, received] at h
    cases h
  | some message =>
    obtain ⟨got, events⟩ := message
    rcases Mpsc.recv_cases received with ⟨⟨⟩, rfl, items, -⟩ | ⟨rfl, empty, closed, rfl⟩
    · cases hpc : s.pc with
      | recv =>
        simp only [recv, received, hpc, Option.some.injEq, Prod.mk.injEq] at h
        obtain ⟨rfl, rfl⟩ := h
        have entered : Move loop s .recv _ _ := .entered hpc items
        rwa [hpc] at entered
      | waiting wait =>
        simp only [recv, received, hpc] at h
        obtain ⟨next, hears, heq⟩ := Option.map_eq_some_iff.mp h
        cases heq
        exact .heard hpc hears items
      | submitting | awaiting | ended =>
        simp only [recv, received, hpc] at h
        cases h
    · cases hpc : s.pc with
      | recv =>
        simp only [recv, received, hpc] at h
        cases h
        exact .ended s.shutdown
      | waiting wait =>
        simp only [recv, received, hpc] at h
        obtain ⟨next, hears, heq⟩ := Option.map_eq_some_iff.mp h
        cases heq
        exact .cut hpc (by rw [hears]; rfl) empty closed
      | submitting | awaiting | ended =>
        simp only [recv, received, hpc] at h
        cases h

theorem move_of_step (heeded : s.shutdown.Heeded) (h : step bound loop s label = some (t, es)) :
    Move loop s label t es := by
  cases label with
  | emit =>
    simp only [step] at h
    split at h
    · cases h
      refine .still rfl rfl rfl (Or.inr ⟨rfl, ?_⟩)
      simp only [Mpsc.trySend]
      split
      · simp
      · omega
    · cases h
  | closeEvents | setShutdown | dropShutdown =>
    cases h
    exact .still rfl rfl rfl (Or.inl ⟨rfl, rfl⟩)
  | advance duration =>
    cases h
    exact .advanced duration
  | shutdownChanged =>
    have h : shutdownChanged loop s = some (t, es) := h
    cases change : s.shutdown.changed with
    | none =>
      simp only [shutdownChanged, change] at h
      cases h
    | some told =>
      obtain ⟨ok, q⟩ := told
      obtain ⟨rfl, rfl, -⟩ := stop_of_true change (heeded.changed change).1 h
      exact .ended q
  | recv => exact move_of_recv h
  | timer =>
    simp only [step, timer] at h
    split at h
    · rename_i wait hpc
      split at h
      · rename_i due
        rw [Option.some.injEq, Prod.ext_iff] at h
        obtain ⟨rfl, rfl⟩ := h
        exact .woken hpc due
      · cases h
    · cases h
  | accepted lifecycle =>
    simp only [step] at h
    split at h
    · rename_i hpc
      cases h
      exact .accepted lifecycle hpc
    · cases h
  | rejected =>
    simp only [step] at h
    split at h
    · rename_i hpc
      rw [Option.some.injEq, Prod.ext_iff] at h
      obtain ⟨rfl, rfl⟩ := h
      exact .done (Or.inl hpc) (Or.inl rfl)
    · cases h
  | completed report =>
    simp only [step] at h
    split at h
    · rename_i n hpc
      rw [Option.some.injEq, Prod.ext_iff] at h
      obtain ⟨rfl, rfl⟩ := h
      exact .done (Or.inr ⟨n, hpc⟩) (Or.inr ⟨report, rfl⟩)
    · cases h

/-- The watch stays as it is described. -/
theorem heeded_step (heeded : s.shutdown.Heeded) (only : OnlyTrue s label)
    (h : step bound loop s label = some (t, es)) : t.shutdown.Heeded := by
  cases label with
  | setShutdown value =>
    cases h
    obtain rfl : value = true := only
    exact heeded.send_true
  | dropShutdown => exact only.elim
  | shutdownChanged =>
    have h : shutdownChanged loop s = some (t, es) := h
    cases change : s.shutdown.changed with
    | none =>
      simp only [shutdownChanged, change] at h
      cases h
    | some told =>
      obtain ⟨ok, q⟩ := told
      obtain ⟨new, kept⟩ := heeded.changed change
      obtain ⟨rfl, -, -⟩ := stop_of_true change new h
      exact kept
  | emit | closeEvents | advance | recv | timer | accepted | rejected | completed =>
    rw [shutdown_kept (by simp) (by simp) (by simp) h]
    exact heeded

end Moves

section Rules
variable {I : Record → Nat → ω → Prop} {Q : Record → Nat → Prop} {late cut : ω → Nat → Prop}

/-- What a wait or a submission finds recorded when the loop goes on at `now`. -/
def Outcome (I : Record → Nat → ω → Prop) (Q : Record → Nat → Prop) (r : Record) (now : Nat)
    (next : Next ω) : Prop :=
  ∀ last, (next.drain = false → last = r.last) →
    match next.wait with
    | some wait => I { r with last := last } now wait
    | none => Q { r with last := last } now

/-- What is shown of a loop so that `I` holds during its waits and `Q` of its submissions.
`late` bounds the time that passes during a wait, `cut` is known where the queue ends one. -/
structure Rule (loop : Loop ω) (I : Record → Nat → ω → Prop) (Q : Record → Nat → Prop)
    (late cut : ω → Nat → Prop) : Prop where
  entered : ∀ r now, r.first = some now → r.last = some now →
    (∀ finished, r.finished = some finished → finished ≤ now) →
    Outcome I Q r now (loop.enter now r.finished)
  later : ∀ r now duration wait, I r now wait → late wait (now + duration) →
    I r (now + duration) wait
  heard : ∀ r now wait next, I r now wait → loop.heard wait now = some next →
    I (r.note (.consumed now)) now next
  cut : ∀ r now wait, I r now wait → (loop.heard wait now).isSome = true → cut wait now → Q r now
  woken : ∀ r now wait, I r now wait → loop.deadline wait ≤ now →
    Outcome I Q r now (loop.wake wait now r.finished)

def State.wait? (s : State ω) : Option ω :=
  match s.pc with
  | .waiting wait => some wait
  | _ => none

/-- Time passes during a wait only as far as `late` says. -/
def Paced (late : ω → Nat → Prop) (s : State ω) : Label → Prop
  | .advance duration => ∀ wait ∈ s.wait?, late wait (s.now + duration)
  | _ => True

/-- Where the end of the queue is received during a wait, `cut` holds. -/
def Closing (cut : ω → Nat → Prop) (s : State ω) : Label → Prop
  | .recv => s.events.items = [] → ∀ wait ∈ s.wait?, cut wait s.now
  | _ => True

instance [∀ wait now, Decidable (late wait now)] (s : State ω) :
    ∀ label, Decidable (Paced late s label)
  | .advance duration => inferInstanceAs (Decidable (∀ wait ∈ s.wait?, late wait (s.now + duration)))
  | .emit | .closeEvents | .setShutdown _ | .dropShutdown | .shutdownChanged | .recv | .timer
  | .accepted _ | .rejected | .completed _ => isTrue trivial

instance [∀ wait now, Decidable (cut wait now)] (s : State ω) :
    ∀ label, Decidable (Closing cut s label)
  | .recv => inferInstanceAs (Decidable (s.events.items = [] → ∀ wait ∈ s.wait?, cut wait s.now))
  | .emit | .closeEvents | .setShutdown _ | .dropShutdown | .advance _ | .shutdownChanged | .timer
  | .accepted _ | .rejected | .completed _ => isTrue trivial

theorem unpaced (s : State ω) (label : Label) : Paced (fun _ _ => True) s label := by
  cases label <;> simp [Paced]

theorem unclosing (s : State ω) (label : Label) : Closing (fun _ _ => True) s label := by
  cases label <;> simp [Closing]

theorem mem_wait {wait : ω} (hpc : s.pc = .waiting wait) : wait ∈ s.wait? := by
  simp [State.wait?, hpc]

/-- Where the runner is in its round. -/
def Phase (I : Record → Nat → ω → Prop) (r : Record) (s : State ω) : Prop :=
  match s.pc with
  | .recv => r.running = false ∧ r.first = none
  | .waiting wait => r.running = false ∧ r.first.isSome = true ∧ I r s.now wait
  | .submitting => r.first = none
  | .awaiting _ => r.first = none
  | .ended => True

/-- A submission of a round comes after the end of the one before it. -/
structure InRound (Q : Record → Nat → Prop) (r : Record) (time : Nat) : Prop where
  ended : r.running = false
  consumed : r.first.isSome = true
  law : Q r time

structure Lawful (I : Record → Nat → ω → Prop) (Q : Record → Nat → Prop) (tr : List Event)
    (s : State ω) : Prop where
  heeded : s.shutdown.Heeded
  finished : s.lastCommandFinished = (record tr).finished
  past : ∀ finished, (record tr).finished = some finished → finished ≤ s.now
  phase : Phase I (record tr) s
  submits : Submits (InRound Q) tr

theorem lawful_start : Lawful I Q [] (State.start : State ω) :=
  ⟨Watch.heeded_start false, rfl, nofun, ⟨rfl, rfl⟩, submits_nil⟩

theorem drainEvents_snd (s : State ω) : (drainEvents s).2 = drained s.events.items s.now := rfl

theorem runOver_nil {event : Event} (items : s.events.items = []) : runOver loop s event =
    ({ s with lastCommandFinished := some s.now, pc := .recv }, [event]) := by
  simp only [runOver, items]

theorem runOver_cons {event : Event} {item : Unit} {rest : List Unit}
    (items : s.events.items = item :: rest) : runOver loop s event =
      ((follow (drainEvents { s with lastCommandFinished := some s.now }).1
          (loop.enter s.now (some s.now))).1,
        [event] ++ (drained (item :: rest) s.now ++
          (follow (drainEvents { s with lastCommandFinished := some s.now }).1
            (loop.enter s.now (some s.now))).2)) := by
  simp [runOver, items, drainEvents, drained, Mpsc.drain]

/-- The loop goes on within a round. -/
theorem lawful_follow {u : State ω} {next : Next ω} (heeded : u.shutdown.Heeded)
    (finished : u.lastCommandFinished = (record tr).finished)
    (past : ∀ finished, (record tr).finished = some finished → finished ≤ u.now)
    (ended : (record tr).running = false) (consumed : (record tr).first.isSome = true)
    (submits : Submits (InRound Q) tr) (outcome : Outcome I Q (record tr) u.now next) :
    Lawful I Q (tr ++ (follow u next).2) (follow u next).1 := by
  obtain ⟨drain, wait⟩ := next
  -- what is drained before the wait or the submission
  obtain ⟨m, fs, hm, pc, now, watch, left, last, same, unmoved, silent⟩ : ∃ m fs,
      (if drain then drainEvents u else (u, [])) = (m, fs) ∧ m.pc = u.pc ∧ m.now = u.now ∧
      m.shutdown = u.shutdown ∧ m.lastCommandFinished = u.lastCommandFinished ∧
      ∃ last, record (tr ++ fs) = { record tr with last := last } ∧
        (drain = false → last = (record tr).last) ∧ ∀ time, .submitted time ∉ fs := by
    cases drain with
    | false => exact ⟨u, [], rfl, rfl, rfl, rfl, rfl, (record tr).last, by simp, fun _ => rfl, by simp⟩
    | true =>
      obtain ⟨first, hfirst⟩ := Option.isSome_iff_exists.mp consumed
      obtain ⟨last, hlast⟩ := note_drained hfirst u.events.items u.now
      refine ⟨_, _, rfl, rfl, rfl, rfl, rfl, last, ?_, nofun, not_submitted_drained _ _⟩
      rw [record_append]
      exact hlast
  have holds := outcome last unmoved
  have drained : Submits (InRound Q) (tr ++ fs) := submits.quiet silent
  cases wait with
  | some wait =>
    have out : follow u ⟨drain, some wait⟩ = ({ m with pc := .waiting wait }, fs) := by
      simp only [follow, hm]
    rw [out]
    refine ⟨watch ▸ heeded, ?_, ?_, ?_, drained⟩
    · rw [same]
      exact left.trans finished
    · rw [same]
      intro e he
      exact now ▸ past e he
    · rw [same]
      refine ⟨ended, consumed, ?_⟩
      exact now ▸ holds
  | none =>
    have out : follow u ⟨drain, none⟩ = ({ m with pc := .submitting }, fs ++ [.submitted m.now]) := by
      simp only [follow, hm]
    have noted : record (tr ++ (fs ++ [.submitted m.now])) =
        { record tr with running := true, first := none, last := last } := by
      rw [← List.append_assoc, record_concat, same]
      rfl
    rw [out]
    refine ⟨watch ▸ heeded, ?_, ?_, ?_, ?_⟩
    · rw [noted]
      exact left.trans finished
    · rw [noted]
      intro e he
      exact now ▸ past e he
    · rw [noted]
      rfl
    · rw [← List.append_assoc]
      refine drained.submitted ?_
      rw [same]
      exact ⟨ended, consumed, now ▸ holds⟩

/-- A run is over: what is queued by then starts the next round. -/
theorem lawful_over (rule : Rule loop I Q late cut) (old : Lawful I Q tr s) {event : Event}
    (idle : (record tr).first = none)
    (event_now : event = .rejected s.now ∨ ∃ report, event = .completed report s.now) :
    Lawful I Q (tr ++ (runOver loop s event).2) (runOver loop s event).1 := by
  have noted : record (tr ++ [event]) =
      { record tr with running := false, finished := some s.now } := by
    rcases event_now with rfl | ⟨report, rfl⟩ <;> exact record_concat ..
  have submits : Submits (InRound Q) (tr ++ [event]) := by
    refine old.submits.quiet ?_
    rcases event_now with rfl | ⟨report, rfl⟩ <;> simp
  cases items : s.events.items with
  | nil =>
    rw [runOver_nil items]
    refine ⟨old.heeded, by rw [noted], ?_, ?_, submits⟩
    · rw [noted]
      rintro finished ⟨⟩
      exact le_refl s.now
    · rw [noted]
      exact ⟨rfl, idle⟩
  | cons item rest =>
    have more : record ((tr ++ [event]) ++ drained (item :: rest) s.now) =
        { record tr with running := false, first := some s.now, last := some s.now,
                         finished := some s.now } := by
      rw [record_append, noted]
      exact note_round (r := { record tr with running := false, finished := some s.now }) idle item
        rest s.now
    rw [runOver_cons items, ← List.append_assoc, ← List.append_assoc]
    refine lawful_follow old.heeded ?_ ?_ ?_ ?_ ?_ ?_
    · rw [more]
      rfl
    · rw [more]
      rintro finished ⟨⟩
      exact le_refl s.now
    · rw [more]
    · rw [more]
      rfl
    · exact submits.quiet (not_submitted_drained _ _)
    · rw [more]
      refine rule.entered _ s.now rfl rfl ?_
      rintro finished ⟨⟩
      exact le_refl s.now

/-- Nothing of the round changes. -/
theorem Phase.frame {r : Record} (h : Phase I r s) (pc : t.pc = s.pc) (now : t.now = s.now) :
    Phase I r t := by
  simp only [Phase, pc, now] at h ⊢
  exact h

theorem lawful_step (rule : Rule loop I Q late cut) (old : Lawful I Q tr s)
    (only : OnlyTrue s label) (paced : Paced late s label) (closing : Closing cut s label)
    (h : step bound loop s label = some (t, es)) : Lawful I Q (tr ++ es) t := by
  have heeded := heeded_step old.heeded only h
  cases move_of_step old.heeded h with
  | still pc now last queue =>
    have same : record (tr ++ es) = record tr := by
      rcases queue with ⟨rfl, -⟩ | ⟨rfl, -⟩
      · simp
      · exact record_concat ..
    have silent : ∀ time, .submitted time ∉ es := by
      rcases queue with ⟨rfl, -⟩ | ⟨rfl, -⟩ <;> simp
    refine ⟨heeded, ?_, ?_, ?_, old.submits.quiet silent⟩
    · rw [same, last]
      exact old.finished
    · rw [same, now]
      exact old.past
    · rw [same]
      exact old.phase.frame pc now
  | advanced duration =>
    rw [List.append_nil]
    refine ⟨heeded, old.finished, ?_, ?_, old.submits⟩
    · intro finished he
      exact le_trans (old.past finished he) (Nat.le_add_right ..)
    · have phase := old.phase
      simp only [Phase] at phase ⊢
      cases hpc : s.pc with
      | waiting wait =>
        simp only [hpc] at phase
        exact ⟨phase.1, phase.2.1, rule.later _ _ _ _ phase.2.2 (paced wait (mem_wait hpc))⟩
      | recv | submitting | awaiting | ended =>
        simp only [hpc] at phase
        exact phase
  | accepted lifecycle hpc =>
    rw [List.append_nil]
    have phase := old.phase
    simp only [Phase, hpc] at phase
    exact ⟨heeded, old.finished, old.past, phase, old.submits⟩
  | ended shutdown =>
    rw [List.append_nil]
    exact ⟨heeded, old.finished, old.past, trivial, old.submits⟩
  | @entered events hpc items =>
    have phase := old.phase
    simp only [Phase, hpc] at phase
    have noted : record (tr ++ [.consumed s.now]) =
        { record tr with first := some s.now, last := some s.now } := by
      rw [record_concat, Record.note, phase.2]
      rfl
    rw [← List.singleton_append, ← List.append_assoc]
    refine lawful_follow old.heeded ?_ ?_ ?_ ?_ ?_ ?_
    · rw [noted]
      exact old.finished
    · rw [noted]
      exact old.past
    · rw [noted]
      exact phase.1
    · rw [noted]
      rfl
    · exact old.submits.quiet (by simp)
    · rw [noted, old.finished]
      exact rule.entered { record tr with first := some s.now, last := some s.now } s.now rfl rfl
        old.past
  | @heard wait next events hpc hears items =>
    have phase := old.phase
    simp only [Phase, hpc] at phase
    obtain ⟨ended, consumed, holds⟩ := phase
    refine ⟨heeded, ?_, ?_, ?_, old.submits.quiet (by simp)⟩
    · rw [record_concat]
      exact old.finished
    · rw [record_concat]
      exact old.past
    · rw [record_concat]
      exact ⟨ended, rfl, rule.heard _ _ _ _ holds hears⟩
  | @cut wait hpc hears items closed =>
    have phase := old.phase
    simp only [Phase, hpc] at phase
    obtain ⟨ended, consumed, holds⟩ := phase
    have allowed := rule.cut _ _ _ holds hears (closing items wait (mem_wait hpc))
    refine lawful_follow old.heeded old.finished old.past ended consumed old.submits ?_
    intro last same
    rw [same rfl]
    exact allowed
  | @woken wait hpc due =>
    have phase := old.phase
    simp only [Phase, hpc] at phase
    obtain ⟨ended, consumed, holds⟩ := phase
    refine lawful_follow old.heeded old.finished old.past ended consumed old.submits ?_
    rw [old.finished]
    exact rule.woken _ _ _ holds due
  | done hpc event_now =>
    refine lawful_over rule old ?_ event_now
    have phase := old.phase
    rcases hpc with hpc | ⟨n, hpc⟩ <;> simpa only [Phase, hpc] using phase

/-- The rule over a whole run. -/
theorem lawful_run (rule : Rule loop I Q late cut)
    (only : Meets (step bound loop) OnlyTrue State.start labels)
    (paced : Meets (step bound loop) (Paced late) State.start labels)
    (closing : Meets (step bound loop) (Closing cut) State.start labels)
    (run : exec (step bound loop) State.start labels = some (t, tr)) : Lawful I Q tr t :=
  exec_invariant_of_meets (P := Lawful I Q)
    (fun _ _ _ _ _ old allowed h => lawful_step rule old allowed.1 allowed.2.1 allowed.2.2 h)
    lawful_start (meets_and only (meets_and paced closing)) run

end Rules

section Counts

def isConsumed : Event → Bool
  | .consumed _ => true
  | _ => false

def isSubmitted : Event → Bool
  | .submitted _ => true
  | _ => false

/-- Since each submission needs an event of its own, there are no more of them than events. -/
theorem submitted_le_consumed {Q : Record → Nat → Prop} (h : Submits (InRound Q) tr) :
    tr.countP isSubmitted + (record tr).first.isSome.toNat ≤ tr.countP isConsumed := by
  induction tr using List.reverseRecOn with
  | nil => simp
  | append_singleton before x ih =>
    obtain ⟨old, new⟩ := atEach_append.mp h
    have counted := ih old
    rw [record_concat, List.countP_append, List.countP_append]
    cases x with
    | submitted time =>
      have round := new [] (.submitted time) [] rfl time rfl
      rw [List.append_nil] at round
      simp only [round.consumed, Bool.toNat_true] at counted
      simp [Record.note, isSubmitted, isConsumed]
      omega
    | consumed time =>
      have one := Bool.toNat_le (record before).first.isSome
      simp [Record.note, isSubmitted, isConsumed]
      omega
    | emitted | rejected | completed | abandoned =>
      simpa [Record.note, isSubmitted, isConsumed] using counted

def isEmitted : Event → Bool
  | .emitted => true
  | _ => false

@[simp] theorem consumed_drained (items : List Unit) (now : Nat) :
    (drained items now).countP isConsumed = items.length := by
  simp [drained, isConsumed, List.countP_replicate]

@[simp] theorem emitted_drained (items : List Unit) (now : Nat) :
    (drained items now).countP isEmitted = 0 := by
  simp [drained, isEmitted, List.countP_replicate]

/-- What is consumed has been queued before; a full queue drops what is emitted. -/
def Stocked (tr : List Event) (s : State ω) : Prop :=
  tr.countP isConsumed + s.events.items.length ≤ tr.countP isEmitted

theorem stocked_drain (old : Stocked tr s) :
    Stocked (tr ++ (drainEvents s).2) (drainEvents s).1 := by
  have empty : (drainEvents s).1.events.items = [] := rfl
  rw [Stocked, drainEvents_snd, empty, List.countP_append, List.countP_append, consumed_drained,
    emitted_drained]
  exact old

theorem Stocked.submitted {now : Nat} {pc : Pc ω} (h : Stocked tr s) :
    Stocked (tr ++ [.submitted now]) { s with pc := pc } := by
  simpa [Stocked, isConsumed, isEmitted] using h

theorem stocked_follow {next : Next ω} (old : Stocked tr s) :
    Stocked (tr ++ (follow s next).2) (follow s next).1 := by
  obtain ⟨drain, wait⟩ := next
  have waits (fs : List Event) (m : State ω) (h : Stocked (tr ++ fs) m) :
      Stocked (tr ++ (fs ++ [.submitted m.now])) { m with pc := (Pc.submitting : Pc ω) } := by
    rw [← List.append_assoc]
    exact h.submitted
  have same : Stocked (tr ++ []) s := by simpa using old
  cases drain with
  | false =>
    cases wait with
    | some wait => exact same
    | none => exact waits [] s same
  | true =>
    cases wait with
    | some wait => exact stocked_drain old
    | none => exact waits _ _ (stocked_drain old)

theorem stocked_step (heeded : s.shutdown.Heeded) (old : Stocked tr s)
    (h : step bound loop s label = some (t, es)) : Stocked (tr ++ es) t := by
  cases move_of_step heeded h with
  | still pc now last queue =>
    simp only [Stocked] at old ⊢
    rcases queue with ⟨rfl, items⟩ | ⟨rfl, items⟩
    · simpa [items] using old
    · simp [isConsumed, isEmitted]
      omega
  | advanced | accepted | ended => simpa [Stocked] using old
  | @entered events hpc items =>
    have received : Stocked (tr ++ [.consumed s.now]) { s with events := events } := by
      simp only [Stocked, items, List.length_cons] at old
      simp [Stocked, isConsumed, isEmitted]
      omega
    rw [← List.singleton_append, ← List.append_assoc]
    exact stocked_follow received
  | heard hpc hears items =>
    simp only [Stocked, items, List.length_cons] at old
    simp [Stocked, isConsumed, isEmitted]
    omega
  | cut => exact stocked_follow old
  | woken => exact stocked_follow old
  | @done label event hpc event_now =>
    have quiet : isConsumed event = false ∧ isEmitted event = false := by
      rcases event_now with rfl | ⟨report, rfl⟩ <;> exact ⟨rfl, rfl⟩
    have ended : Stocked (tr ++ [event]) { s with lastCommandFinished := some s.now } := by
      simpa [Stocked, quiet] using old
    cases items : s.events.items with
    | nil =>
      rw [runOver_nil items]
      exact ended
    | cons item rest =>
      rw [runOver_cons items, ← List.append_assoc, ← List.append_assoc]
      refine stocked_follow ?_
      rw [← items]
      exact stocked_drain ended

theorem stocked_run (only : Meets (step bound loop) OnlyTrue State.start labels)
    (run : exec (step bound loop) State.start labels = some (t, tr)) :
    tr.countP isConsumed ≤ tr.countP isEmitted := by
  have start : (State.start : State ω).shutdown.Heeded ∧ Stocked [] (State.start : State ω) :=
    ⟨Watch.heeded_start false, le_refl 0⟩
  have last : t.shutdown.Heeded ∧ Stocked tr t := by
    refine exec_invariant_of_meets (P := fun tr s => s.shutdown.Heeded ∧ Stocked tr s) ?_ start
      only run
    rintro tr s a t es ⟨heeded, old⟩ allowed h
    exact ⟨heeded_step heeded allowed h, stocked_step heeded old h⟩
  exact le_trans (Nat.le_add_right ..) last.2

/-- No submission comes before the end of the one before it, and each has an event of its own. -/
structure InRounds (tr : List Event) : Prop where
  separate : Submits (fun r _ => r.running = false) tr
  renewed : Submits (fun r _ => r.first.isSome = true) tr
  submitted : tr.countP isSubmitted ≤ tr.countP isConsumed
  consumed : tr.countP isConsumed ≤ tr.countP isEmitted

/-- Nothing has to be known of the waits for this. -/
theorem inRounds_run (only : Meets (step bound loop) OnlyTrue State.start labels)
    (run : exec (step bound loop) State.start labels = some (t, tr)) : InRounds tr := by
  have rule : Rule loop (fun _ _ _ => True) (fun _ _ => True) (fun _ _ => True) fun _ _ => True := by
    have any {r : Record} {now : Nat} {next : Next ω} :
        Outcome (fun _ _ _ => True) (fun _ _ => True) r now next := by
      intro last _
      cases next.wait <;> trivial
    exact ⟨fun _ _ _ _ _ => any, fun _ _ _ _ _ _ => trivial, fun _ _ _ _ _ _ => trivial,
      fun _ _ _ _ _ _ => trivial, fun _ _ _ _ _ => any⟩
  have rounds := (lawful_run rule only (meets_of_forall unpaced _ _)
    (meets_of_forall unclosing _ _) run).submits
  have counted := submitted_le_consumed rounds
  refine ⟨?_, ?_, by omega, stocked_run only run⟩
  · intro before x after he time hx
    exact (rounds before x after he time hx).ended
  · intro before x after he time hx
    exact (rounds before x after he time hx).consumed

end Counts

end EventRunner

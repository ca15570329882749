import Mailwake.Feed
import Mailwake.Pipeline

/-!
# The tasks of a source beside the pipeline of its command

Some tasks hold senders of a source's event queue. Every event of theirs that `emits` goes into
the queue as `try_send` has it, and the queue is closed only when they have all `finished`.
What they do is left open here.
-/
namespace SourceFeed
open Channel Transition EventRunner
universe u v w x y
variable {σ : Type u} {α : Type v} {ε : Type w} {κ : Type x} {ω : Type y}

def handed (emits : ε → Bool) (event : ε) : List (Pipeline.Label κ) :=
  if emits event then [.source .emit] else []

def admits (finished : σ → Bool) (s : σ) : Pipeline.Label κ → Bool
  | .source .emit => false
  | .source .closeEvents => finished s
  | _ => true

section
variable [DecidableEq κ]

abbrev step (producer : σ → α → Option (σ × List ε)) (emits : ε → Bool) (finished : σ → Bool)
    (bound : Nat) (loop : Loop ω) (runner : Lane.CommandLaneRunner κ) (command : κ) :
    σ × Pipeline.State κ ω → Feed.Label α (Pipeline.Label κ) →
      Option ((σ × Pipeline.State κ ω) × List (Feed.Event ε (Pipeline.Event κ))) :=
  Feed.step producer (Pipeline.step bound loop runner command) (handed emits) (admits finished)

end

section Senders
variable {bound : Nat} {loop : Loop ω} {s t : EventRunner.State ω} {es : List EventRunner.Event}

theorem follow_senders (s : EventRunner.State ω) (next : Next ω) :
    (follow s next).1.events.sendersAlive = s.events.sendersAlive := by
  cases hd : next.drain <;> cases hw : next.wait <;> simp [follow, hd, hw, drainEvents, Mpsc.drain]

theorem runOver_senders (s : EventRunner.State ω) (event : EventRunner.Event) :
    (runOver loop s event).1.events.sendersAlive = s.events.sendersAlive := by
  cases hq : s.events.items with
  | nil => simp [runOver, hq]
  | cons x rest => simp [runOver, hq, follow_senders, drainEvents, Mpsc.drain]

theorem recv_senders (h : EventRunner.recv loop s = some (t, es)) :
    t.events.sendersAlive = s.events.sendersAlive := by
  simp only [EventRunner.recv] at h
  split at h
  · cases h
  · split at h
    · cases h
      rfl
    · obtain ⟨wait, -, heq⟩ := Option.map_eq_some_iff.mp h
      cases heq
      exact follow_senders s ⟨false, none⟩
    · cases h
  · rename_i events received
    have kept : events.sendersAlive = s.events.sendersAlive := by
      rcases Mpsc.recv_cases received with ⟨-, -, -, same⟩ | ⟨none, -⟩
      · exact same
      · cases none
    split at h
    · cases h
      rw [follow_senders]
      exact kept
    · obtain ⟨wait, -, heq⟩ := Option.map_eq_some_iff.mp h
      cases heq
      exact kept
    · cases h

private def senders (next : EventRunner.State ω × List EventRunner.Event) : Bool :=
  next.1.events.sendersAlive

/-- Only dropping the senders closes the queue. -/
theorem senders_step {label : EventRunner.Label} (stays : label ≠ .closeEvents)
    (h : EventRunner.step bound loop s label = some (t, es)) :
    t.events.sendersAlive = s.events.sendersAlive := by
  cases label with
  | closeEvents => exact absurd rfl stays
  | emit =>
    simp only [EventRunner.step] at h
    split at h
    · cases h
      simp only [Mpsc.trySend]
      split <;> rfl
    · cases h
  | setShutdown | dropShutdown | advance =>
    cases h
    rfl
  | recv => exact recv_senders h
  | timer =>
    simp only [EventRunner.step, EventRunner.timer] at h
    split at h
    · split at h
      · exact (congrArg senders (Option.some.inj h)).symm.trans (follow_senders s _)
      · cases h
    · cases h
  | shutdownChanged =>
    have h : EventRunner.shutdownChanged loop s = some (t, es) := h
    simp only [EventRunner.shutdownChanged] at h
    split at h
    · cases h
    · split at h
      · split at h <;> cases h <;> rfl
      · split at h
        · cases h
          rfl
        · exact (congrArg senders (Option.some.inj h)).symm.trans (follow_senders _ _)
      · split at h
        · cases h
          rfl
        · exact (congrArg senders (Option.some.inj h)).symm.trans (runOver_senders _ _)
      · split at h
        · cases h
          rfl
        · exact (congrArg senders (Option.some.inj h)).symm.trans (runOver_senders _ _)
      · cases h
  | accepted lifecycle =>
    simp only [EventRunner.step] at h
    split at h
    · cases h
      rfl
    · cases h
  | rejected =>
    simp only [EventRunner.step] at h
    split at h
    · exact (congrArg senders (Option.some.inj h)).symm.trans (runOver_senders s _)
    · cases h
  | completed report =>
    simp only [EventRunner.step] at h
    split at h
    · exact (congrArg senders (Option.some.inj h)).symm.trans (runOver_senders s _)
    · cases h

end Senders

section Runs
variable [DecidableEq κ] {producer : σ → α → Option (σ × List ε)} {emits : ε → Bool}
  {finished : σ → Bool} {bound : Nat} {loop : Loop ω} {runner : Lane.CommandLaneRunner κ}
  {command : κ} {s t : σ × Pipeline.State κ ω}

def Emitting (emits : ε → Bool) : Feed.Event ε (Pipeline.Event κ) → Prop :=
  Feed.Event.Produced fun event => emits event = true

def Executing (command : κ) : Feed.Event ε (Pipeline.Event κ) → Prop :=
  Feed.Event.Consumed (Pipeline.Event.Execution command)

theorem emit_emits {p q : Pipeline.State κ ω} {fs : List (Pipeline.Event κ)}
    (h : Pipeline.step bound loop runner command p (.source .emit) = some (q, fs)) :
    ∃ y ∈ fs, Pipeline.Event.Emission y := by
  simp only [Pipeline.step, Pipeline.ofSource, ↓reduceIte] at h
  obtain ⟨next, hs, heq⟩ := Option.map_eq_some_iff.mp h
  cases heq
  simp only [EventRunner.step] at hs
  split at hs
  · cases hs
    exact ⟨.source .emitted, by simp, trivial⟩
  · cases hs

/-- Whenever the pipeline is quiescent, an execution of the command has started since the last
event that the source has queued. -/
theorem queued_runs_the_command (slots : 0 < bound) (known : runner.command command ≠ none)
    {start : σ} {labels : List (Feed.Label α (Pipeline.Label κ))}
    {tr : List (Feed.Event ε (Pipeline.Event κ))}
    (run : exec (step producer emits finished bound loop runner command)
      (start, Pipeline.State.start) labels = some (t, tr)) (quiet : Pipeline.Quiescent t.2) :
    FollowedBy (Emitting emits) (Executing command) tr := by
  obtain ⟨bs, consumed⟩ := Feed.consumer_run run
  have answers := Pipeline.noLostWakeup slots known bs t.2 _ consumed quiet
  refine Feed.answered (q := Pipeline.Event.Emission) (Feed.handed_over ?_ run) answers
  intro e emitting
  exact ⟨.source .emit, by simp [handed, emitting], fun _ _ _ h => emit_emits h⟩

/-- While a task still holds a sender the queue is open. -/
def Open (finished : σ → Bool) (s : σ × Pipeline.State κ ω) : Prop :=
  finished s.1 = false → s.2.source.events.sendersAlive = true

theorem pipeline_senders {p q : Pipeline.State κ ω} {label : Pipeline.Label κ}
    {fs : List (Pipeline.Event κ)} (stays : ∀ l, label = .source l → l ≠ .closeEvents)
    (h : Pipeline.step bound loop runner command p label = some (q, fs)) :
    q.source.events.sendersAlive = p.source.events.sendersAlive := by
  cases label with
  | source label =>
    simp only [Pipeline.step] at h
    split at h
    · obtain ⟨next, hs, heq⟩ := Option.map_eq_some_iff.mp h
      cases heq
      exact senders_step (stays label rfl) hs
    · cases h
  | submit =>
    simp only [Pipeline.step, Option.bind_eq_some_iff] at h
    obtain ⟨sent, -, h⟩ := h
    obtain ⟨next, hs, heq⟩ := Option.map_eq_some_iff.mp h
    cases heq
    exact senders_step (by simp) hs
  | refused =>
    simp only [Pipeline.step] at h
    split at h
    · obtain ⟨next, hs, heq⟩ := Option.map_eq_some_iff.mp h
      cases heq
      exact senders_step (by simp) hs
    · cases h
  | completed report =>
    simp only [Pipeline.step] at h
    split at h
    · split at h
      · obtain ⟨next, hs, heq⟩ := Option.map_eq_some_iff.mp h
        cases heq
        exact senders_step (by simp) hs
      · cases h
    · cases h
  | lost =>
    simp only [Pipeline.step] at h
    split at h
    · split at h
      · obtain ⟨next, hs, heq⟩ := Option.map_eq_some_iff.mp h
        cases heq
        exact senders_step (by simp) hs
      · cases h
    · cases h
  | lane label =>
    simp only [Pipeline.step] at h
    split at h
    · obtain ⟨next, -, heq⟩ := Option.map_eq_some_iff.mp h
      cases heq
      rfl
    · cases h
  | advance duration =>
    simp only [Pipeline.step, Option.bind_eq_some_iff] at h
    obtain ⟨next, hs, h⟩ := h
    obtain ⟨after, -, heq⟩ := Option.map_eq_some_iff.mp h
    cases heq
    exact senders_step (by simp) hs

/-- An open queue takes any number of events, and stays open. -/
theorem emissions_taken (es : List ε) {p : Pipeline.State κ ω}
    (alive : p.source.events.sendersAlive = true) :
    ∃ q fs, exec (Pipeline.step bound loop runner command) p (es.flatMap (handed emits)) =
      some (q, fs) ∧ q.source.events.sendersAlive = true := by
  induction es generalizing p with
  | nil => exact ⟨p, [], rfl, alive⟩
  | cons e rest ih =>
    by_cases emitting : emits e = true
    · obtain ⟨q, first, taken⟩ : ∃ q,
          Pipeline.step bound loop runner command p (.source .emit) =
            some (q, [.source .emitted]) ∧ q.source.events.sendersAlive = true := by
        refine ⟨{ p with source := { p.source with events := p.source.events.trySend bound () } },
          ?_, ?_⟩
        · simp [Pipeline.step, Pipeline.ofSource, EventRunner.step, alive]
        · simp only [Mpsc.trySend]
          split <;> exact alive
      obtain ⟨r, fs, later, last⟩ := ih taken
      refine ⟨r, .source .emitted :: fs, ?_, last⟩
      rw [List.flatMap_cons, handed, if_pos emitting]
      exact exec_cons_some.mpr ⟨q, _, fs, first, later, rfl⟩
    · obtain ⟨q, fs, later, last⟩ := ih alive
      refine ⟨q, fs, ?_, last⟩
      rw [List.flatMap_cons, handed, if_neg emitting]
      exact later

/-- A finished producer stays finished and queues nothing. -/
structure Finishes (producer : σ → α → Option (σ × List ε)) (emits : ε → Bool)
    (finished : σ → Bool) : Prop where
  stays : ∀ s a t es, producer s a = some (t, es) → finished s = true → finished t = true
  silent : ∀ s a t es, producer s a = some (t, es) → finished s = true →
    ∀ e ∈ es, emits e = false

theorem open_run (finishes : Finishes producer emits finished) {start : σ}
    {labels : List (Feed.Label α (Pipeline.Label κ))} {tr : List (Feed.Event ε (Pipeline.Event κ))}
    (run : exec (step producer emits finished bound loop runner command)
      (start, Pipeline.State.start) labels = some (t, tr)) : Open finished t := by
  refine exec_state_invariant (P := Open finished) ?_ (fun _ => rfl) run
  intro s label t es alive h going
  cases label with
  | produce label =>
    obtain ⟨made, taken, hm, hn, -⟩ := Feed.produce_some.mp h
    have before : finished s.1 = false := by
      cases ended : finished s.1 with
      | false => rfl
      | true => exact (finishes.stays s.1 label t.1 made hm ended).symm.trans going
    have taken : ∃ q fs, exec (Pipeline.step bound loop runner command) s.2
        (made.flatMap (handed emits)) = some (q, fs) ∧ q.source.events.sendersAlive = true :=
      emissions_taken made (alive before)
    obtain ⟨q, fs, ran, last⟩ := taken
    obtain ⟨same, -⟩ := Prod.mk.inj (Option.some.inj (ran.symm.trans hn))
    rwa [← same]
  | consume label =>
    obtain ⟨allowed, same, taken, hn, -⟩ := Feed.consume_some.mp h
    rw [same] at going
    rw [pipeline_senders ?_ hn]
    · exact alive going
    · rintro l rfl rfl
      rw [admits, going] at allowed
      cases allowed

/-- The pipeline never holds up the tasks of the source. -/
theorem never_held_up (finishes : Finishes producer emits finished) {start : σ}
    {labels : List (Feed.Label α (Pipeline.Label κ))} {tr : List (Feed.Event ε (Pipeline.Event κ))}
    (run : exec (step producer emits finished bound loop runner command)
      (start, Pipeline.State.start) labels = some (t, tr)) {label : α}
    (able : (producer t.1 label).isSome = true) :
    (step producer emits finished bound loop runner command t (.produce label)).isSome = true := by
  obtain ⟨⟨m, made⟩, hm⟩ := Option.isSome_iff_exists.mp able
  obtain ⟨q, fs, ran⟩ : ∃ q fs, exec (Pipeline.step bound loop runner command) t.2
      (made.flatMap (handed emits)) = some (q, fs) := by
    cases ended : finished t.1 with
    | false =>
      have taken : ∃ q fs, exec (Pipeline.step bound loop runner command) t.2
          (made.flatMap (handed emits)) = some (q, fs) ∧ q.source.events.sendersAlive = true :=
        emissions_taken made (open_run finishes run ended)
      obtain ⟨q, fs, ran, -⟩ := taken
      exact ⟨q, fs, ran⟩
    | true =>
      have nothing : made.flatMap (handed emits : ε → List (Pipeline.Label κ)) = [] := by
        refine List.flatMap_eq_nil_iff.mpr ?_
        intro e he
        simp [handed, finishes.silent t.1 label m made hm ended e he]
      rw [nothing]
      exact ⟨t.2, [], rfl⟩
  exact Option.isSome_iff_exists.mpr
    ⟨((m, q), _), Feed.produce_some.mpr ⟨made, fs, hm, ran, rfl⟩⟩

end Runs

end SourceFeed

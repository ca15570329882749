import Mailwake.GmailHistory
import Mailwake.SourceFeed

/-!
# A Gmail source from a history record to its command

The poller and the start-up event of its source beside the pipeline of the command. A record of
the mailbox that matters is either newer than the tracked history id, or covered by the baseline
of a poller that began after it, or answered by an execution of the command.
-/
namespace GmailSource
open Transition GmailHistory
universe u v

structure State where
  history : GmailHistory.State
  /-- Whether `spawn_startup_event` still runs. -/
  startup : Bool

inductive Label where
  | history (label : GmailHistory.Label)
  | startup (queue : Bool)

inductive Event where
  | appeared (record : Record)
  | poll (event : GmailApiPoll.Event)
  | startup
  deriving DecidableEq

def State.start (visible : List Record) (initialReady startup : Bool) : State :=
  ⟨.start visible initialReady, startup⟩

def appears : GmailHistory.Label → List Event
  | .appeared record => [.appeared record]
  | _ => []

def step (labelIds : List String) (s : State) : Label → Option (State × List Event)
  | .history label =>
    (GmailHistory.step labelIds s.history label).map fun (history, es) =>
      ({ s with history := history }, appears label ++ es.map .poll)
  | .startup queue =>
    if s.startup then some ({ s with startup := false }, if queue then [.startup] else [])
    else none

/-- The calls of `try_send`. -/
def emits : Event → Bool
  | .poll .queued => true
  | .startup => true
  | _ => false

def ended (w : GmailApiPoll.State) : Bool :=
  match w.pc with
  | .ended _ => true
  | _ => false

/-- No task holds a sender of the event queue. -/
def finished (s : State) : Bool := ended s.history.watcher && !s.startup

variable {labelIds : List String} {s t : State} {tr : List Event}

theorem history_some {label : GmailHistory.Label} {es : List Event} :
    step labelIds s (.history label) = some (t, es) ↔ t.startup = s.startup ∧
      ∃ fs, GmailHistory.step labelIds s.history label = some (t.history, fs) ∧
        es = appears label ++ fs.map .poll := by
  obtain ⟨history, startup⟩ := t
  simp only [step, Option.map_eq_some_iff, Prod.exists, Prod.mk.injEq, State.mk.injEq]
  constructor
  · rintro ⟨h, fs, hs, ⟨rfl, rfl⟩, rfl⟩
    exact ⟨rfl, fs, hs, rfl⟩
  · rintro ⟨rfl, fs, hs, rfl⟩
    exact ⟨history, fs, hs, ⟨rfl, rfl⟩, rfl⟩

/-- The tracked history id is one that getProfile has answered. -/
def TracksAnswer (h : GmailHistory.State) : Prop :=
  ∀ id, h.watcher.tracker.lastHistoryId = some id → id ∈ h.answered

theorem fail_tracker (w : GmailApiPoll.State) (error : GmailApiPoll.GmailApiPollError) :
    (GmailApiPoll.fail w error).1.tracker = w.tracker := by
  rw [GmailApiPoll.fail]
  split <;> rfl

theorem tracksAnswer_move {h k : GmailHistory.State} {label : GmailHistory.Label}
    {es : List GmailApiPoll.Event} (sound : Sound labelIds h) (old : TracksAnswer h)
    (move : Move labelIds h label k es) : TracksAnswer k := by
  intro id tracked
  cases move with
  | appeared fresh => exact old id tracked
  | watcher other turn =>
    cases turn with
    | failed error _ =>
      rw [fail_tracker] at tracked
      exact List.mem_append_right _ (old id tracked)
    | baselined hpc parsed =>
      obtain rfl := Option.some.inj tracked
      simp [answer, parsed]
    | advanced hpc parsed =>
      obtain rfl := Option.some.inj tracked
      simp [answer, parsed]
    | stale hpc =>
      obtain rfl := Option.some.inj tracked
      exact List.mem_append_right _ (sound.searched hpc).answered
    | retried goOn hpc => cases goOn <;> exact List.mem_append_right _ (old id tracked)
    | changed => cases other
    | nextPage => cases other
    | nextLabel => cases other
    | noChange => cases other
    | _ => exact List.mem_append_right _ (old id tracked)
  | listed hpc complete turn =>
    have answered := (sound.searched hpc).answered
    cases turn with
    | failed error _ =>
      rw [fail_tracker] at tracked
      exact old id tracked
    | changed hpc' changes =>
      obtain ⟨rfl, rfl, -, -, -⟩ := GmailApiPoll.Pc.pollHistory.inj (hpc.symm.trans hpc')
      obtain rfl := Option.some.inj tracked
      exact answered
    | noChange hpc' =>
      obtain ⟨rfl, rfl, -, -, -⟩ := GmailApiPoll.Pc.pollHistory.inj (hpc.symm.trans hpc')
      obtain rfl := Option.some.inj tracked
      exact answered
    | nextPage => exact old id tracked
    | nextLabel => exact old id tracked

/-- What becomes of a record: it is covered by a later baseline, or an event is queued for it. -/
def Settles (record : Record) : Event → Prop
  | .poll (.baselined id) => record.id ≤ id
  | event => emits event = true

/-- Every record that matters is still ahead of the tracker, or it is settled. -/
structure Covered (labelIds : List String) (tr : List Event) (s : State) : Prop where
  sound : Sound labelIds s.history
  answer : TracksAnswer s.history
  visible : ∀ record, .appeared record ∈ tr → record ∈ s.history.visible
  settled : ∀ before record after, tr = before ++ .appeared record :: after →
    record.Relevant labelIds →
    (∃ y ∈ after, Settles record y) ∨
      ∀ id, s.history.watcher.tracker.lastHistoryId = some id → id < record.id

/-- Events without a new record: what was settled stays so, and each record that falls behind the
tracker is settled now. -/
theorem Covered.append {es : List Event} (old : Covered labelIds tr s)
    (sound : Sound labelIds t.history) (answer : TracksAnswer t.history)
    (visible : ∀ record ∈ s.history.visible, record ∈ t.history.visible)
    (quiet : ∀ record, .appeared record ∉ es)
    (behind : ∀ record ∈ s.history.visible, record.Relevant labelIds →
      (∀ id, s.history.watcher.tracker.lastHistoryId = some id → id < record.id) →
      (∃ y ∈ es, Settles record y) ∨
        ∀ id, t.history.watcher.tracker.lastHistoryId = some id → id < record.id) :
    Covered labelIds (tr ++ es) t := by
  refine ⟨sound, answer, ?_, ?_⟩
  · intro record mem
    rcases List.mem_append.mp mem with mem | mem
    · exact visible record (old.visible record mem)
    · exact absurd mem (quiet record)
  · intro before record after he relevant
    rcases List.append_eq_append_iff.mp he with ⟨mid, rfl, hm⟩ | ⟨mid, rfl, hm⟩
    · exact absurd (by rw [hm]; simp) (quiet record)
    · cases mid with
      | nil => exact absurd (by rw [← show _ = es from hm]; simp) (quiet record)
      | cons y mid =>
        obtain ⟨rfl, rfl⟩ := List.cons_eq_cons.mp hm
        rcases old.settled before record mid rfl relevant with ⟨y, hy, settles⟩ | ahead
        · exact Or.inl ⟨y, List.mem_append_left _ hy, settles⟩
        · have seen := old.visible record (by simp)
          rcases behind record seen relevant ahead with ⟨y, hy, settles⟩ | ahead
          · exact Or.inl ⟨y, List.mem_append_right _ hy, settles⟩
          · exact Or.inr ahead

/-- A step of the poller by what it emits. -/
theorem covered_emission {h : GmailHistory.State} {fs : List GmailApiPoll.Event}
    (old : Covered labelIds tr s) (sound : Sound labelIds h) (answer : TracksAnswer h)
    (visible : h.visible = s.history.visible) (emission : Emission labelIds s.history h fs) :
    Covered labelIds (tr ++ fs.map .poll) { s with history := h } := by
  refine old.append sound answer (fun record seen => visible ▸ seen) (by simp) ?_
  intro record seen relevant ahead
  cases emission with
  | accepted since last trigger accepting _ =>
    obtain ⟨before, -, after⟩ := accepting.tracker
    by_cases upto : record.id ≤ last
    · have queued := accepting.queued record seen (ahead since before) upto relevant
      exact Or.inl ⟨.poll .queued, List.mem_map.mpr ⟨_, queued, rfl⟩, rfl⟩
    · refine Or.inr ?_
      intro id tracked
      obtain rfl : last = id := Option.some.inj (after.symm.trans tracked)
      omega
  | baselined id ready _ _ tracker emitted =>
    by_cases upto : record.id ≤ id
    · exact Or.inl ⟨.poll (.baselined id), by simp [emitted], upto⟩
    · refine Or.inr ?_
      intro other tracked
      obtain rfl : id = other := Option.some.inj (tracker.symm.trans tracked)
      omega
  | quiet same _ =>
    refine Or.inr ?_
    rw [same]
    exact ahead

theorem covered_appeared {record : Record} (old : Covered labelIds tr s)
    (fresh : ∀ id ∈ s.history.answered, id < record.id)
    (sound : Sound labelIds { s.history with visible := record :: s.history.visible }) :
    Covered labelIds (tr ++ [.appeared record])
      { s with history := { s.history with visible := record :: s.history.visible } } := by
  refine ⟨sound, old.answer, ?_, ?_⟩
  · intro other mem
    rcases List.mem_append.mp mem with mem | mem
    · exact List.mem_cons_of_mem _ (old.visible other mem)
    · obtain rfl : other = record := by simpa using mem
      exact List.mem_cons_self
  · intro before other after he relevant
    rcases List.append_eq_append_iff.mp he with ⟨mid, rfl, hm⟩ | ⟨mid, rfl, hm⟩
    · obtain ⟨rfl, rfl, rfl⟩ : mid = [] ∧ record = other ∧ after = [] := by
        cases mid <;> simp_all
      exact Or.inr fun id tracked => fresh id (old.answer id tracked)
    · cases mid with
      | nil =>
        obtain ⟨rfl, rfl⟩ : other = record ∧ after = [] := by simpa using hm
        exact Or.inr fun id tracked => fresh id (old.answer id tracked)
      | cons y mid =>
        obtain ⟨rfl, rfl⟩ := List.cons_eq_cons.mp hm
        rcases old.settled before other mid rfl relevant with ⟨y, hy, settles⟩ | ahead
        · exact Or.inl ⟨y, List.mem_append_left _ hy, settles⟩
        · exact Or.inr ahead

theorem covered_step {label : Label} {es : List Event} (old : Covered labelIds tr s)
    (h : step labelIds s label = some (t, es)) : Covered labelIds (tr ++ es) t := by
  cases label with
  | history label =>
    obtain ⟨same, fs, hs, rfl⟩ := history_some.mp h
    obtain ⟨history, startup⟩ := t
    obtain rfl : startup = s.startup := same
    have move := move_of_step hs
    have sound := sound_move old.sound move
    have answer := tracksAnswer_move old.sound old.answer move
    have emission := emission_move old.sound move
    cases move with
    | appeared fresh => exact covered_appeared old fresh sound
    | watcher other turn => exact covered_emission old sound answer rfl emission
    | listed hpc complete turn => exact covered_emission old sound answer rfl emission
  | startup queue =>
    simp only [step] at h
    split at h
    · cases h
      refine old.append old.sound old.answer (fun _ h => h) ?_ fun _ _ _ ahead => Or.inr ahead
      intro record mem
      cases queue <;> simp at mem
    · cases h

theorem covered_run {visible : List Record} {initialReady startup : Bool} {labels : List Label}
    (run : exec (step labelIds) (.start visible initialReady startup) labels = some (t, tr)) :
    Covered labelIds tr t := by
  have untracked : TracksAnswer (State.start visible initialReady startup).history := by
    intro id tracked
    cases tracked
  have start : Covered labelIds [] (.start visible initialReady startup) :=
    ⟨trivial, untracked, by simp, by simp⟩
  exact exec_invariant (P := Covered labelIds) (fun _ _ _ _ _ old h => covered_step old h) start run

section Pipeline
variable {κ : Type u} {ω : Type v} [DecidableEq κ] {bound : Nat} {loop : EventRunner.Loop ω}
  {runner : Lane.CommandLaneRunner κ} {command : κ} {visible : List Record}
  {initialReady startup : Bool} {labels : List (Feed.Label Label (Pipeline.Label κ))}
  {tr : List (Feed.Event Event (Pipeline.Event κ))} {last : State × Pipeline.State κ ω}

theorem not_ended_of_turn {w v : GmailApiPoll.State} {label : GmailApiPoll.Label}
    {es : List GmailApiPoll.Event} (turn : GmailApiPoll.Turn labelIds w label v es) :
    ended w = false := by
  cases turn with
  | checked _ hpc | baselined hpc | unchanged hpc | advanced hpc | listing hpc | changed hpc
  | stale hpc | nextPage hpc | nextLabel hpc | noChange hpc | slept _ hpc | retried _ hpc
  | baselineToken hpc | pollToken hpc => simp [ended, hpc]
  | failed error place =>
    rcases place with hpc | hpc | polling
    · simp [ended, hpc]
    · simp [ended, hpc]
    · rw [GmailApiPoll.State.polling] at polling
      rw [ended]
      split at polling <;> simp_all

theorem finishes : SourceFeed.Finishes (step labelIds) emits finished := by
  have quiet : ∀ s label t es, step labelIds s label = some (t, es) → finished s = true →
      finished t = true ∧ ∀ e ∈ es, emits e = false := by
    intro s label t es h done
    obtain ⟨gone, startup⟩ : ended s.history.watcher = true ∧ s.startup = false := by
      simpa [finished] using done
    cases label with
    | history label =>
      obtain ⟨same, fs, hs, rfl⟩ := history_some.mp h
      obtain ⟨history, startup'⟩ := t
      obtain rfl : startup' = s.startup := same
      cases move_of_step hs with
      | appeared fresh => exact ⟨done, by simp [appears, emits]⟩
      | watcher other turn =>
        rw [not_ended_of_turn turn] at gone
        cases gone
      | listed hpc complete turn =>
        rw [not_ended_of_turn turn] at gone
        cases gone
    | startup queue => simp [step, startup] at h
  exact ⟨fun s a t es h done => (quiet s a t es h done).1,
    fun s a t es h done => (quiet s a t es h done).2⟩

/-- The pipeline never keeps the poller from going on. -/
theorem pipeline_never_holds_up_the_poller
    (run : exec (SourceFeed.step (step labelIds) emits finished bound loop runner command)
      (.start visible initialReady startup, Pipeline.State.start) labels = some (last, tr))
    {label : Label} (able : (step labelIds last.1 label).isSome = true) :
    (SourceFeed.step (step labelIds) emits finished bound loop runner command last
      (.produce label)).isSome = true :=
  SourceFeed.never_held_up finishes run able

/-- A record is covered by a later baseline, or the command has been executed since. -/
def Answered (command : κ) (record : Record) : Feed.Event Event (Pipeline.Event κ) → Prop
  | .produced (.poll (.baselined id)) => record.id ≤ id
  | .produced _ => False
  | .consumed event => event.Execution command

/-- Whenever the pipeline is quiescent, every record that matters and is no newer than the tracked
history id has been answered after it appeared. -/
theorem tracked_history_runs_the_command (slots : 0 < bound)
    (known : runner.command command ≠ none)
    (run : exec (SourceFeed.step (step labelIds) emits finished bound loop runner command)
      (.start visible initialReady startup, Pipeline.State.start) labels = some (last, tr))
    (quiet : Pipeline.Quiescent last.2) {id : Nat}
    (tracked : last.1.history.watcher.tracker.lastHistoryId = some id) :
    ∀ before record after, tr = before ++ .produced (.appeared record) :: after →
      record.Relevant labelIds → record.id ≤ id → ∃ y ∈ after, Answered command record y := by
  rintro before record after rfl relevant upto
  obtain ⟨as, produced⟩ := Feed.producer_run run
  rw [List.filterMap_append,
    List.filterMap_cons_some (show Feed.Event.product _ = some (Event.appeared record) from rfl)]
    at produced
  rcases (covered_run produced).settled _ record _ rfl relevant with ⟨y, hy, settles⟩ | ahead
  · obtain ⟨z, hz, shown⟩ := List.mem_filterMap.mp hy
    cases z with
    | consumed event => cases shown
    | produced event =>
      obtain rfl : event = y := by simpa [Feed.Event.product] using shown
      by_cases emitting : emits event = true
      · have answered := SourceFeed.queued_runs_the_command slots known run quiet
        obtain ⟨mid, rest, rfl⟩ := List.append_of_mem hz
        obtain ⟨x, hx, executes⟩ := answered
          (before ++ .produced (.appeared record) :: mid) (.produced event) rest (by simp) emitting
        refine ⟨x, by simp [hx], ?_⟩
        cases x with
        | produced other => exact executes.elim
        | consumed other => exact executes
      · refine ⟨.produced event, hz, ?_⟩
        cases event with
        | poll event =>
          cases event with
          | baselined id => exact settles
          | _ => exact absurd settles emitting
        | _ => exact absurd settles emitting
  · exact absurd (ahead id tracked) (by omega)

private def exampleLane : Lane.CommandLaneRunner Bool := ⟨[⟨true, 0⟩], 64⟩

/-- A record appears after the baseline, the next poll notices it and the command runs. -/
private def exampleDay : List (Feed.Label Label (Pipeline.Label Bool)) :=
  ([.watcher (.check false), .watcher (.helper (.ok ())), .watcher (.profile (.ok "7".toList)),
    .appeared ⟨9, ["INBOX"]⟩, .watcher (.slept true), .watcher (.helper (.ok ())),
    .watcher (.profile (.ok "9".toList)), .listed [⟨9, ["INBOX"]⟩] none].map
      fun label => .produce (.history label)) ++
  [.lane .proceed, .source .recv, .advance 1, .source .timer, .submit, .lane .recv, .lane .proceed,
    .lane .proceed, .lane (.finish (.ok (.ofExitStatus (some 0) none))), .lane .proceed,
    .lane .proceed, .lane .proceed, .lane .proceed,
    .completed (.outcome (.ofExitStatus (some 0) none))].map .consume

theorem example_record_runs_the_command :
    let step := SourceFeed.step (step ["INBOX"]) emits finished 64
      (EventRunner.DebounceRunner.mk 1 0).loop exampleLane true
    let last := (exec step (.start [] false false, Pipeline.State.start) exampleDay).get
      (by decide +kernel)
    ∀ before record after, last.2 = before ++ .produced (.appeared record) :: after →
      record.Relevant ["INBOX"] → record.id ≤ 9 → ∃ y ∈ after, Answered true record y := by
  intro step last
  have run := (Option.some_get (by decide +kernel :
    (exec step (.start [] false false, Pipeline.State.start) exampleDay).isSome = true)).symm
  exact tracked_history_runs_the_command (by decide) (by decide) run
    ⟨by decide +kernel, by decide +kernel, by decide +kernel, by decide +kernel, by decide +kernel⟩
    (by decide +kernel)

end Pipeline

end GmailSource

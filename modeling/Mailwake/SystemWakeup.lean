import Mailwake.ImapSource
import Mailwake.ResumeBroadcast

/-!
# From the end of sleep to a mailbox's command

The logind listeners beside a mailbox source and the pipeline of its command. What the listeners'
broadcaster sends on reaches the receiver of the source in the same step. `run_daemon` keeps a
broadcaster of its own, so that the channel stays open.
-/
namespace SystemWakeup
open Transition ResumeBroadcast
universe u v w
variable {ι : Type u} {κ : Type v} {ω : Type w}

def handed (d : Delivery ι) : List (Feed.Label ImapSource.Label (Pipeline.Label κ)) :=
  if d.notified then [.produce .broadcast] else []

def admits (_ : ResumeBroadcast.State ι) :
    Feed.Label ImapSource.Label (Pipeline.Label κ) → Bool
  | .produce .broadcast => false
  | .produce .dropBroadcaster => false
  | _ => true

section
variable [DecidableEq ι] [DecidableEq κ]

abbrev mailbox (bound : Nat) (loop : EventRunner.Loop ω) (runner : Lane.CommandLaneRunner κ)
    (command : κ) :=
  SourceFeed.step ImapSource.step ImapSource.emits ImapSource.finished bound loop runner command

abbrev State (ι : Type u) (κ : Type v) (ω : Type w) :=
  ResumeBroadcast.State ι × ImapSource.State × Pipeline.State κ ω

def State.start (joined : ι → Nat) (initialReady startup : Bool) : State ι κ ω :=
  (.start joined, .start initialReady startup, .start)

abbrev Label (ι : Type u) (κ : Type v) :=
  Feed.Label (ResumeBroadcast.Label ι) (Feed.Label ImapSource.Label (Pipeline.Label κ))

abbrev Event (ι : Type u) (κ : Type v) :=
  Feed.Event (Delivery ι) (Feed.Event ImapSource.Event (Pipeline.Event κ))

/-- `capacity` is that of the listeners' own queues, `bound` that of the source's queue. -/
abbrev step (capacity bound : Nat) (loop : EventRunner.Loop ω)
    (runner : Lane.CommandLaneRunner κ) (command : κ) :
    State ι κ ω → Label ι κ → Option (State ι κ ω × List (Event ι κ)) :=
  Feed.step (ResumeBroadcast.step capacity) (mailbox bound loop runner command) handed admits

end

/-- The source begins an attempt to connect. -/
def Attempts : Event ι κ → Prop :=
  Feed.Event.Consumed (Feed.Event.Produced ImapSource.Event.Attempt)

def Executes (command : κ) : Event ι κ → Prop :=
  Feed.Event.Consumed (SourceFeed.Executing command)

theorem seen_consumed {p : Feed.Event ImapSource.Event (Pipeline.Event κ) → Prop}
    {tr : List (Event ι κ)} (seen : ∃ y ∈ tr.filterMap Feed.Event.consumption, p y) :
    ∃ y ∈ tr, Feed.Event.Consumed p y := by
  obtain ⟨y, hy, hp⟩ := seen
  obtain ⟨x, hx, shown⟩ := List.mem_filterMap.mp hy
  cases x with
  | produced d => cases shown
  | consumed event =>
    obtain rfl : event = y := by simpa [Feed.Event.consumption] using shown
    exact ⟨_, hx, hp⟩

section Runs
variable [DecidableEq ι] [DecidableEq κ] {capacity bound : Nat} {loop : EventRunner.Loop ω}
  {runner : Lane.CommandLaneRunner κ} {command : κ} {joined : ι → Nat}
  {initialReady startup : Bool} {s t m n last : State ι κ ω} {labels later : List (Label ι κ)}
  {past es tr : List (Event ι κ)} {i : ι}

/-- Only the broadcaster's end closes its channel. -/
theorem sender_step {s t : ImapSource.State} {label : ImapSource.Label}
    {es : List ImapSource.Event} (stays : label ≠ .dropBroadcaster)
    (h : ImapSource.step s label = some (t, es)) :
    t.resume.senderAlive = s.resume.senderAlive := by
  cases label with
  | watcher label =>
    obtain ⟨-, heeded, -⟩ := ImapSource.watcher_some.mp h
    cases label with
    | resumed =>
      simp only [ImapSource.heed] at heeded
      split at heeded
      · rename_i told
        cases heeded
        rcases Channel.Watch.changed_cases told with ⟨-, -, same⟩ | ⟨bad, -⟩
        · rw [same]
        · cases bad
      · cases heeded
    | _ => rw [← Option.some.inj heeded]
  | broadcast =>
    simp only [ImapSource.step] at h
    split at h
    · cases h
      rfl
    · cases h
  | dropBroadcaster => exact absurd rfl stays
  | startup queue =>
    simp only [ImapSource.step] at h
    split at h
    · cases h
      rfl
    · cases h

theorem signal_taken {p : ImapSource.State × Pipeline.State κ ω}
    (alive : p.1.resume.senderAlive = true) :
    ∃ q es, mailbox bound loop runner command p (.produce .broadcast) = some (q, es) ∧
      q.1.resume.senderAlive = true := by
  let heard : ImapSource.State := { p.1 with resume := p.1.resume.send () }
  let event : ImapSource.Event := .broadcast (ImapSource.onceEstablished p.1.watcher)
  have sent : ImapSource.step p.1 .broadcast = some (heard, [event]) := by
    rw [ImapSource.step, if_pos alive]
  exact ⟨(heard, p.2), [.produced event], Feed.produce_some.mpr ⟨[event], [], sent, rfl, rfl⟩,
    alive⟩

omit [DecidableEq ι] in
/-- A source with an open channel takes any number of signals, and its channel stays open. -/
theorem signals_taken (made : List (Delivery ι)) {p : ImapSource.State × Pipeline.State κ ω}
    (alive : p.1.resume.senderAlive = true) :
    ∃ q fs, exec (mailbox bound loop runner command) p (made.flatMap handed) = some (q, fs) ∧
      q.1.resume.senderAlive = true := by
  induction made generalizing p with
  | nil => exact ⟨p, [], rfl, alive⟩
  | cons d rest ih =>
    by_cases sent : d.notified = true
    · obtain ⟨q, es, first, stays⟩ := signal_taken alive
      obtain ⟨r, fs, more, last⟩ := ih stays
      refine ⟨r, es ++ fs, ?_, last⟩
      rw [List.flatMap_cons, handed, if_pos sent]
      exact exec_cons_some.mpr ⟨q, es, fs, first, more, rfl⟩
    · obtain ⟨q, fs, more, stays⟩ := ih alive
      refine ⟨q, fs, ?_, stays⟩
      rw [List.flatMap_cons, handed, if_neg sent]
      exact more

theorem open_step (alive : s.2.1.resume.senderAlive = true) {label : Label ι κ}
    (h : step capacity bound loop runner command s label = some (t, es)) :
    t.2.1.resume.senderAlive = true := by
  cases label with
  | produce label =>
    obtain ⟨made, taken, -, hn, -⟩ := Feed.produce_some.mp h
    have takes : ∃ q fs, exec (mailbox bound loop runner command) s.2 (made.flatMap handed) =
        some (q, fs) ∧ q.1.resume.senderAlive = true := signals_taken made alive
    obtain ⟨q, fs, ran, stays⟩ := takes
    obtain ⟨same, -⟩ := Prod.mk.inj (Option.some.inj (ran.symm.trans hn))
    rwa [← same]
  | consume label =>
    obtain ⟨allowed, -, taken, hn, -⟩ := Feed.consume_some.mp h
    cases label with
    | produce label =>
      obtain ⟨made, -, hm, -, -⟩ := Feed.produce_some.mp hn
      rw [sender_step ?_ hm]
      · exact alive
      · rintro rfl
        cases allowed
    | consume label =>
      obtain ⟨-, same, -⟩ := Feed.consume_some.mp hn
      rwa [same]

/-- No mailbox source keeps a listener from going on. -/
theorem listeners_never_held_up
    (run : exec (step capacity bound loop runner command) (.start joined initialReady startup)
      labels = some (t, tr)) {label : ResumeBroadcast.Label ι}
    (able : (ResumeBroadcast.step capacity t.1 label).isSome = true) :
    (step capacity bound loop runner command t (.produce label)).isSome = true := by
  have alive : t.2.1.resume.senderAlive = true :=
    exec_state_invariant (P := fun s : State ι κ ω => s.2.1.resume.senderAlive = true)
      (fun _ _ _ _ alive h => open_step alive h) rfl run
  obtain ⟨⟨m, made⟩, hm⟩ := Option.isSome_iff_exists.mp able
  have takes : ∃ q fs, exec (mailbox bound loop runner command) t.2 (made.flatMap handed) =
      some (q, fs) ∧ q.1.resume.senderAlive = true := signals_taken made alive
  obtain ⟨q, fs, ran, -⟩ := takes
  exact Option.isSome_iff_exists.mpr
    ⟨((m, q), _), Feed.produce_some.mpr ⟨made, fs, hm, ran, rfl⟩⟩

/-- A signal that no listener has delivered before is sent on. -/
theorem new_is_notified {labels : List (ResumeBroadcast.Label ι)} {t : ResumeBroadcast.State ι}
    {tr : List (Delivery ι)} {event : ResumeEvent}
    (run : exec (ResumeBroadcast.step capacity) (.start joined) labels = some (t, tr))
    (signal : event.signal = .resumed) (new : ∀ d ∈ tr, d.id ≠ event.id) :
    (broadcast t.recent event).2 = true := by
  have kept : Remembered joined tr t :=
    exec_invariant (fun _ _ _ _ _ old h => remembered_move old (moved_of_step h))
      (remembered_start joined) run
  have unknown : event.id ∉ t.recent := by
    rw [kept.recent]
    intro known
    obtain ⟨d, hd, same⟩ := delivered_of_accepted (List.mem_of_mem_drop known)
    exact new d hd same
  simp [broadcast, signal, Window.offer, unknown]

/-- The delivery of such a signal is a signal to the source. -/
theorem delivery_of_new {event : ResumeEvent} (due : m.1.due i = some event)
    (signal : event.signal = .resumed) (new : (broadcast m.1.recent event).2 = true)
    (delivered : step capacity bound loop runner command m (.produce (.deliver i)) =
      some (n, es)) :
    es.filterMap Feed.Event.consumption =
      [.produced (.broadcast (ImapSource.onceEstablished m.2.1.watcher))] := by
  obtain ⟨made, taken, hm, hn, rfl⟩ := Feed.produce_some.mp delivered
  simp only [ResumeBroadcast.step, due, Option.map_some, deliver, signal] at hm
  obtain ⟨-, rfl⟩ := Prod.mk.inj (Option.some.inj hm)
  simp only [List.flatMap_cons, List.flatMap_nil, List.append_nil, handed, new, ↓reduceIte] at hn
  obtain ⟨q, first, none, hq, rest, rfl⟩ := exec_cons_some.mp hn
  obtain ⟨-, rfl⟩ := Prod.mk.inj (Option.some.inj (show some (q, []) = some (n.2, none) from rest))
  obtain ⟨event', taken', hb, hp, rfl⟩ := Feed.produce_some.mp hq
  simp only [ImapSource.step] at hb
  split at hb
  · obtain ⟨-, rfl⟩ := Prod.mk.inj (Option.some.inj hb)
    obtain ⟨-, rfl⟩ := Prod.mk.inj (Option.some.inj
      (show some (m.2.2, []) = some (q.2, taken') from hp))
    rfl
  · cases hb

/-- When a listener delivers the first news of a wake-up, the mailbox watcher makes a new attempt
before it next holds or awaits a connection and has noted every signal. A source that had been
established then has its command executed before it stands again with nothing to do. -/
theorem first_news_of_a_wakeup_reaches_the_mailbox (slots : 0 < bound)
    (known : runner.command command ≠ none)
    (before : exec (step capacity bound loop runner command)
      (.start joined initialReady startup) labels = some (m, past))
    {event : ResumeEvent} (due : m.1.due i = some event) (signal : event.signal = .resumed)
    (new : ∀ d, .produced d ∈ past → d.id ≠ event.id)
    (delivered : step capacity bound loop runner command m (.produce (.deliver i)) =
      some (n, es))
    (after : exec (step capacity bound loop runner command) n later = some (last, tr))
    (told : last.2.1.resume.unseen = false) :
    (ImapSource.trying last.2.1.watcher = true → ∃ y ∈ tr, Attempts y) ∧
    (ImapSource.onceEstablished m.2.1.watcher = true →
      ImapSource.established last.2.1.watcher = true → Pipeline.Quiescent last.2.2 →
      ∃ y ∈ tr, Executes command y) := by
  have whole : exec (step capacity bound loop runner command)
      (.start joined initialReady startup) (labels ++ .produce (.deliver i) :: later) =
        some (last, past ++ (es ++ tr)) :=
    exec_append_some.mpr ⟨m, past, _, before, exec_cons_some.mpr ⟨n, es, tr, delivered, after, rfl⟩,
      rfl⟩
  obtain ⟨as, listened⟩ := Feed.producer_run before
  have notified := new_is_notified listened signal ?_
  · have shown := delivery_of_new due signal notified delivered
    obtain ⟨bs, source⟩ := Feed.consumer_run whole
    rw [List.filterMap_append, List.filterMap_append, shown] at source
    constructor
    · intro going
      obtain ⟨cs, watcher⟩ := Feed.producer_run source
      have attempted :=
        Feed.produced_followed (ImapSource.every_resume_is_followed_by_an_attempt watcher told going)
      exact seen_consumed (attempted _ _ _ rfl trivial)
    · intro once stands quiet
      have executed := ImapSource.resumes_run_the_command slots known source told stands quiet
      exact seen_consumed (executed _ _ _ rfl once)
  · intro d hd
    obtain ⟨x, hx, shown⟩ := List.mem_filterMap.mp hd
    cases x with
    | produced e =>
      obtain rfl : e = d := by simpa [Feed.Event.product] using shown
      exact new e hx
    | consumed e => cases shown

end Runs

section Example

private def exampleLane : Lane.CommandLaneRunner Bool := ⟨[⟨true, 0⟩], 64⟩

private def exampleSleep : ResumeEvent := ⟨.resumed, ⟨some ":1.42", 10⟩⟩

private def exampleConnect : List (Label Bool Bool) :=
  [.check false, .examined 2, .session (.wrote (.ok ())),
    .session (.line "+ idling".toList)].map fun label => .consume (.produce (.watcher label))

/-- From a queued event to the end of the execution that answers it. -/
private def exampleRound : List (Label Bool Bool) :=
  [.source .recv, .advance 1, .source .timer, .submit, .lane .recv, .lane .proceed, .lane .proceed,
    .lane (.finish (.ok (.ofExitStatus (some 0) none))), .lane .proceed, .lane .proceed,
    .lane .proceed, .lane .proceed,
    .completed (.outcome (.ofExitStatus (some 0) none))].map fun label => .consume (.consume label)

private abbrev ExampleState := State Bool Bool EventRunner.DebounceRunner.Wait

private abbrev exampleStep :
    ExampleState → Label Bool Bool → Option (ExampleState × List (Event Bool Bool)) :=
  step 64 64 (EventRunner.DebounceRunner.mk 1 0).loop exampleLane true

/-- The mailbox is connected, and logind tells two listeners of the end of a sleep. -/
private def exampleEvening : List (Label Bool Bool) :=
  .consume (.consume (.lane .proceed)) :: exampleConnect ++ [.produce (.signal exampleSleep)]

private def exampleAwake : ExampleState × List (Event Bool Bool) :=
  (exec exampleStep (.start (fun _ => 0) false false) exampleEvening).get (by decide +kernel)

private def exampleHeard : ExampleState × List (Event Bool Bool) :=
  (exampleStep exampleAwake.1 (.produce (.deliver true))).get (by decide +kernel)

/-- The other listener is late; meanwhile the mailbox is connected again and its command runs. -/
private def exampleMorning : List (Label Bool Bool) :=
  .consume (.produce (.watcher .resumed)) :: exampleConnect ++
    [.produce (.deliver false)] ++ exampleRound

private def exampleLast : ExampleState × List (Event Bool Bool) :=
  (exec exampleStep exampleHeard.1 exampleMorning).get (by decide +kernel)

theorem example_wakeup_reaches_the_mailbox :
    (∃ y ∈ exampleLast.2, Attempts y) ∧ ∃ y ∈ exampleLast.2, Executes true y := by
  have evening : exec exampleStep (.start (fun _ => 0) false false) exampleEvening =
      some (exampleAwake.1, exampleAwake.2) := (Option.some_get (by decide +kernel :
    (exec exampleStep (.start (fun _ => 0) false false) exampleEvening).isSome = true)).symm
  have heard : exampleStep exampleAwake.1 (.produce (.deliver true)) =
      some (exampleHeard.1, exampleHeard.2) := (Option.some_get (by decide +kernel :
    (exampleStep exampleAwake.1 (.produce (.deliver true))).isSome = true)).symm
  have morning : exec exampleStep exampleHeard.1 exampleMorning =
      some (exampleLast.1, exampleLast.2) := (Option.some_get (by decide +kernel :
    (exec exampleStep exampleHeard.1 exampleMorning).isSome = true)).symm
  have due : exampleAwake.1.1.due true = some exampleSleep := rfl
  have none : exampleAwake.2.filterMap Feed.Event.product = [] := rfl
  have new : ∀ d, .produced d ∈ exampleAwake.2 → d.id ≠ exampleSleep.id := by
    intro d mem
    have shown : d ∈ exampleAwake.2.filterMap Feed.Event.product :=
      List.mem_filterMap.mpr ⟨_, mem, rfl⟩
    rw [none] at shown
    cases shown
  have quiet : Pipeline.Quiescent exampleLast.1.2.2 :=
    ⟨by decide +kernel, by decide +kernel, by decide +kernel, by decide +kernel, by decide +kernel⟩
  have reached := first_news_of_a_wakeup_reaches_the_mailbox (by decide) (by decide) evening due
    rfl new heard morning (by decide +kernel)
  exact ⟨reached.1 (by decide +kernel), reached.2 (by decide +kernel) (by decide +kernel) quiet⟩

end Example

end SystemWakeup

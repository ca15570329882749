import Mailwake.StatusTask

/-!
# The published status

What the status task has sent last, against what it would send now.
-/
namespace StatusTask
open Transition RuntimeState Channel

section Text

/-- No character of the text breaks a line. -/
def OneLine (value : String) : Prop := ∀ c ∈ value.toList, c ≠ '\r' ∧ c ≠ '\n'

instance (value : String) : Decidable (OneLine value) :=
  decidable_of_iff (value.toList.all fun c => decide (c ≠ '\r' ∧ c ≠ '\n')) (by simp [OneLine])

theorem sanitizeField_eq_self {value : String} (h : OneLine value) :
    sanitizeField value = value := by
  have same : value.toList.map (fun c => if c = '\r' ∨ c = '\n' then ' ' else c) =
      value.toList.map id := by
    refine List.map_congr_left ?_
    intro c mem
    obtain ⟨cr, lf⟩ := h c mem
    simp [cr, lf]
  rw [sanitizeField, same, List.map_id, String.ofList_toList]

theorem OneLine.append {a b : String} (ha : OneLine a) (hb : OneLine b) : OneLine (a ++ b) := by
  intro c mem
  rw [String.toList_append, List.mem_append] at mem
  exact mem.elim (ha c) (hb c)

theorem oneLine_toString (n : Nat) : OneLine (toString n) := by
  intro c mem
  rw [Nat.toString_eq_repr, Nat.toList_repr] at mem
  have digit : c.isDigit = true := Nat.isDigit_of_mem_toDigits (by decide) (by decide) mem
  constructor
  · rintro rfl
    cases digit
  · rintro rfl
    cases digit

theorem oneLine_statusMessage (s : RuntimeState.State) : OneLine s.statusMessage := by
  have counts (a b c : String) (ha : OneLine a) (hb : OneLine b) (hc : OneLine c) (m n : Nat) :
      OneLine (a ++ toString m ++ b ++ toString n ++ c) :=
    ((((ha.append (oneLine_toString m)).append hb).append (oneLine_toString n)).append hc)
  have event : OneLine (if s.lastEventSeen then "last event received" else "no events yet") := by
    split <;> decide
  refine (counts _ _ _ (by decide) (by decide) (by decide) _ _).append ?_
  refine ((((OneLine.append (by decide) (oneLine_toString _)).append (by decide)).append
    event).append (by decide)).append ?_
  split <;> decide

/-- The text says that `n` commands are running. -/
def Announces (text : String) (n : Nat) : Prop :=
  ∃ head tail, text = head ++ (s!"running commands: {n}; " ++ tail)

theorem announces_statusMessage (s : RuntimeState.State) :
    Announces s.statusMessage s.runningCommandCount := by
  refine ⟨s!"watching {s.totalAccounts} account(s), {s.totalSources} source(s); ", ?_, ?_⟩
  rotate_left
  · rw [RuntimeState.State.statusMessage]
    simp only [String.append_assoc]
    rfl

theorem Announces.append {text : String} {n : Nat} (h : Announces text n) (more : String) :
    Announces (text ++ more) n := by
  obtain ⟨head, tail, rfl⟩ := h
  exact ⟨head, tail ++ more, by simp only [String.append_assoc]⟩

end Text

/-- The status of this state, possibly with what a failed health check adds. -/
def Shows (s : RuntimeState.State) (text : String) : Prop :=
  text = s.statusMessage ∨ text = unhealthyStatusMessage s

instance (s : RuntimeState.State) (text : String) : Decidable (Shows s text) :=
  inferInstanceAs (Decidable (_ ∨ _))

theorem shows_text (s : State) (purpose : Purpose) : Shows s.runtime (s.text purpose) := by
  cases purpose with
  | change | tick => exact Or.inl rfl
  | unhealthy => exact Or.inr rfl

theorem Shows.oneLine {s : RuntimeState.State} {text : String} (h : Shows s text) :
    OneLine text := by
  rcases h with rfl | rfl
  · exact oneLine_statusMessage s
  · exact (oneLine_statusMessage s).append (by decide)

theorem Shows.announces {s : RuntimeState.State} {text : String} (h : Shows s text) :
    Announces text s.runningCommandCount := by
  rcases h with rfl | rfl
  · exact announces_statusMessage s
  · exact (announces_statusMessage s).append _

def Event.text? : Event → Option String
  | .status text => some text
  | .watchdog => none

/-- The last status that the task has sent. -/
def lastStatus (tr : List Event) : Option String := (tr.filterMap Event.text?).getLast?

@[simp] theorem lastStatus_status (tr : List Event) (text : String) :
    lastStatus (tr ++ [.status text]) = some text := by
  simp [lastStatus, Event.text?]

@[simp] theorem lastStatus_watchdog (tr : List Event) :
    lastStatus (tr ++ [.watchdog]) = lastStatus tr := by
  simp [lastStatus, Event.text?]

/-- Why the status that was sent last need not be sent again. -/
inductive Fresh (tr : List Event) (s : State) : Prop where
  | owed {actor : Actor} (owes : s.owes actor = true) : Fresh tr s
  | unseen (pending : s.revision.unseen = true) : Fresh tr s
  | reading {purpose : Purpose} (task : s.task = .reading purpose) : Fresh tr s
  | sending {purpose : Purpose} (task : s.task = .sending purpose (s.text purpose)) : Fresh tr s
  | sent {text : String} (task : s.task = .checking ∨ s.task = .selecting)
      (last : lastStatus tr = some text) (shows : Shows s.runtime text) : Fresh tr s

/-- The phases of the command runners are those of the lanes. -/
def Tracks (s : State) : Prop :=
  ∀ lane, s.runtime.runnerPhase lane = some .running ↔
    (s.lanes.lookup lane).any LanePc.busy = true

structure Published (tr : List Event) (s : State) : Prop where
  tracks : Tracks s
  fresh : s.task.live = true → Fresh tr s
  subscribed : s.revision.senderAlive = true
  ended : s.task = .ended → s.shutdown.value = true

section Operations
variable {s t : State} {tr : List Event} {actor : Actor} {operation : Operation}

theorem runningCommandCount_eq (h : Tracks s) : s.runtime.runningCommandCount = s.busyLanes := by
  have values : ∀ id, (s.runtime.commandRunners.lookup id).any
      (fun r => decide (r.phase = .running)) = (s.lanes.lookup id).any LanePc.busy := by
    intro id
    rw [RuntimeState.State.any_running, Bool.eq_iff_iff, decide_eq_true_iff]
    exact h id
  exact RuntimeState.State.countP_entries_congr values

theorem perform_cases (h : s.perform actor operation = some t) : s.owes actor = false ∧
    t = { s with
      runtime := (s.runtime.apply s.now operation).1
      owes := Function.update s.owes actor (s.runtime.apply s.now operation).2 } := by
  rw [State.perform] at h
  split at h
  · cases h
  · rename_i owes
    exact ⟨by simpa using owes, (Option.some.inj h).symm⟩

theorem text_congr (message : t.runtime.statusMessage = s.runtime.statusMessage)
    (purpose : Purpose) : t.text purpose = s.text purpose := by
  cases purpose with
  | change | tick => exact message
  | unhealthy => exact congrArg (· ++ "; unhealthy") message

/-- What is fresh stays so while the displayed data and the task stay. -/
theorem Fresh.congr (h : Fresh tr s) (owes : ∀ actor, s.owes actor = true → t.owes actor = true)
    (unseen : s.revision.unseen = true → t.revision.unseen = true) (task : t.task = s.task)
    (message : t.runtime.statusMessage = s.runtime.statusMessage) : Fresh tr t := by
  cases h with
  | owed h => exact .owed (owes _ h)
  | unseen h => exact .unseen (unseen h)
  | reading h => exact .reading (task.trans h)
  | sending h =>
    rw [← text_congr message] at h
    exact .sending (task.trans h)
  | sent h last shows =>
    refine .sent (task ▸ h) last ?_
    rwa [Shows, unhealthyStatusMessage, message]

/-- An operation that changes what is displayed leaves its actor owing a bump. -/
theorem fresh_perform (h : s.perform actor operation = some t) (fresh : Fresh tr s)
    (known : ∀ id, operation ≠ .registerCommandRunner id) : Fresh tr t := by
  obtain ⟨settled, rfl⟩ := perform_cases h
  cases quiet : (s.runtime.apply s.now operation).2 with
  | true => exact .owed (Function.update_self actor ..)
  | false =>
    have same := RuntimeState.State.statusMessage_apply quiet fun id named =>
      absurd named (known id)
    refine fresh.congr ?_ id rfl same
    intro other owes
    have differs : other ≠ actor := by
      rintro rfl
      cases settled.symm.trans owes
    exact (Function.update_of_ne differs _ _).trans owes

theorem not_register_of_general (h : general operation = true) (id : String) :
    operation ≠ .registerCommandRunner id := by
  rintro rfl
  cases h

theorem runnerPhase_general (h : general operation = true) (lane : String) :
    operation.runnerPhase lane = none := by
  cases operation with
  | registerWatcher | markWatcher | markWatcherProgress | markEvent | markCommandOutcome => rfl
  | registerCommandRunner | markCommandRunner | markCommandStarted | markCommandFinished |
    markCommandError => cases h

theorem not_register_operation (lane : String) (mark : LaneMark) (id : String) :
    mark.operation lane ≠ .registerCommandRunner id := by
  cases mark <;> rintro ⟨⟩

/-- The phase that a mark writes is `running` exactly if the lane is busy after it. -/
theorem next_busy {pc next : LanePc} {mark : LaneMark} (h : pc.next mark = some next)
    (lane : String) : next.busy =
      match (mark.operation lane).runnerPhase lane with
      | some phase => decide (phase = .running)
      | none => pc.busy := by
  cases mark <;> cases pc <;> cases h <;>
    simp [LaneMark.operation, Operation.runnerPhase, LanePc.busy]

theorem runnerPhase_other {lane id : String} (differs : lane ≠ id) (mark : LaneMark) :
    (mark.operation lane).runnerPhase id = none := by
  cases mark <;> simp [LaneMark.operation, Operation.runnerPhase, differs]

end Operations

section Steps
variable {watchdog : Bool} {s t : State} {tr es : List Event} {actor : Actor}
  {operation : Operation}

theorem tracks_perform (h : s.perform actor operation = some t) (tracks : Tracks s)
    (silent : ∀ lane, operation.runnerPhase lane = none) : Tracks t := by
  obtain ⟨-, rfl⟩ := perform_cases h
  intro lane
  rw [RuntimeState.State.runnerPhase_apply, silent lane]
  exact tracks lane

theorem tracks_register {lane : String} (tracks : Tracks s) :
    Tracks { s with
      runtime := (s.runtime.registerCommandRunner s.now lane).1
      lanes := s.lanes.insert lane .registered } := by
  intro id
  have phase : (s.runtime.registerCommandRunner s.now lane).1.runnerPhase id =
      ((Operation.registerCommandRunner lane).runnerPhase id).or (s.runtime.runnerPhase id) :=
    RuntimeState.State.runnerPhase_apply s.runtime s.now (.registerCommandRunner lane) id
  rw [phase]
  by_cases same : lane = id
  · subst same
    simp [Operation.runnerPhase, LanePc.busy]
  · simpa [Operation.runnerPhase, same, AList.lookup_insert_ne (Ne.symm same)] using tracks id

theorem tracks_markLane {lane : String} {mark : LaneMark} {pc next : LanePc}
    (held : s.lanes.lookup lane = some pc) (move : pc.next mark = some next)
    (h : s.perform (.lane lane) (mark.operation lane) = some t) (tracks : Tracks s) :
    Tracks { t with lanes := t.lanes.insert lane next } := by
  obtain ⟨-, rfl⟩ := perform_cases h
  intro id
  rw [RuntimeState.State.runnerPhase_apply]
  by_cases same : lane = id
  · subst same
    have before := tracks lane
    have after := next_busy move lane
    rw [held] at before
    cases writes : (mark.operation lane).runnerPhase lane with
    | none =>
      rw [writes] at after
      simpa [after] using before
    | some phase =>
      rw [writes] at after
      simp [after]
  · simpa [runnerPhase_other same mark, AList.lookup_insert_ne (Ne.symm same)] using tracks id

theorem perform_frame (h : s.perform actor operation = some t) :
    t.lanes = s.lanes ∧ t.revision = s.revision ∧ t.shutdown = s.shutdown ∧ t.task = s.task := by
  obtain ⟨-, rfl⟩ := perform_cases h
  exact ⟨rfl, rfl, rfl, rfl⟩

theorem published_markLane {lane : String} {mark : LaneMark} (published : Published tr s)
    (h : step watchdog s (.markLane lane mark) = some (t, es)) : Published (tr ++ es) t := by
  simp only [step, bind, Option.bind_eq_some_iff] at h
  obtain ⟨pc, held, next, move, u, performed, last⟩ := h
  obtain ⟨rfl, rfl⟩ : { u with lanes := u.lanes.insert lane next } = t ∧ [] = es := by
    simpa using last
  obtain ⟨-, revision, shutdown, task⟩ := perform_frame performed
  rw [List.append_nil]
  refine ⟨tracks_markLane held move performed published.tracks, ?_, ?_, ?_⟩
  · intro live
    have fresh := fresh_perform performed (published.fresh (task ▸ live))
      (not_register_operation lane mark)
    exact fresh.congr (fun _ => id) id rfl rfl
  · exact (congrArg Watch.senderAlive revision).trans published.subscribed
  · intro ended
    rw [shutdown]
    exact published.ended (task.symm.trans ended)

theorem published_mark {task : Nat} (published : Published tr s)
    (h : step watchdog s (.mark task operation) = some (t, es)) : Published (tr ++ es) t := by
  simp only [step] at h
  split at h
  · rename_i other
    obtain ⟨u, performed, last⟩ := Option.map_eq_some_iff.mp h
    obtain ⟨rfl, rfl⟩ := Prod.mk.inj last
    obtain ⟨-, revision, shutdown, same⟩ := perform_frame performed
    rw [List.append_nil]
    refine ⟨tracks_perform performed published.tracks (runnerPhase_general other), ?_, ?_, ?_⟩
    · intro live
      exact fresh_perform performed (published.fresh (same ▸ live)) (not_register_of_general other)
    · exact (congrArg Watch.senderAlive revision).trans published.subscribed
    · intro ended
      rw [shutdown]
      exact published.ended (same.symm.trans ended)
  · cases h

theorem published_register {lane : String} (published : Published tr s)
    (h : step watchdog s (.register lane) = some (t, es)) : Published (tr ++ es) t := by
  simp only [step] at h
  split at h
  · cases h
  · rename_i new
    cases h
    rw [List.append_nil]
    refine ⟨tracks_register published.tracks, ?_, published.subscribed, published.ended⟩
    intro live
    have silent : s.runtime.runnerPhase lane ≠ some .running := by
      intro running
      have busy := (published.tracks lane).mp running
      rw [AList.lookup_eq_none.mpr new] at busy
      cases busy
    have same : (s.runtime.apply s.now (.registerCommandRunner lane)).1.statusMessage =
        s.runtime.statusMessage := by
      refine RuntimeState.State.statusMessage_apply rfl ?_
      rintro id ⟨rfl⟩
      exact silent
    exact (published.fresh live).congr (fun _ => id) id rfl same

theorem published_read (published : Published tr s)
    (h : step watchdog s .read = some (t, es)) : Published (tr ++ es) t := by
  simp only [step] at h
  split at h
  · cases h
    rw [List.append_nil]
    exact ⟨published.tracks, fun _ => .sending rfl, published.subscribed, nofun⟩
  · cases h

theorem afterwards_cases (purpose : Purpose) (watchdog : Bool) :
    purpose.afterwards watchdog = .checking ∨ purpose.afterwards watchdog = .selecting := by
  cases purpose with
  | change | unhealthy => exact Or.inr rfl
  | tick =>
    cases watchdog with
    | true => exact Or.inl rfl
    | false => exact Or.inr rfl

theorem published_send (published : Published tr s)
    (h : step watchdog s .send = some (t, es)) : Published (tr ++ es) t := by
  simp only [step] at h
  split at h
  · rename_i purpose status task
    cases h
    have idle := afterwards_cases purpose watchdog
    refine ⟨published.tracks, ?_, published.subscribed, ?_⟩
    · intro _
      have fresh := published.fresh (by rw [task]; rfl)
      cases fresh with
      | owed owes => exact .owed owes
      | unseen pending => exact .unseen pending
      | reading other => cases task.symm.trans other
      | sending same =>
        obtain ⟨rfl, rfl⟩ : purpose = _ ∧ status = _ := by simpa using task.symm.trans same
        have shows := shows_text s purpose
        refine .sent idle (lastStatus_status ..) ?_
        rwa [sanitizeField_eq_self shows.oneLine]
      | sent other => simp [task] at other
    · intro ended
      rcases idle with same | same <;> cases same.symm.trans ended
  · cases h

theorem published_check (published : Published tr s)
    (h : step watchdog s .check = some (t, es)) : Published (tr ++ es) t := by
  simp only [step] at h
  split at h
  · rename_i task
    split at h
    · cases h
      rw [List.append_nil]
      exact ⟨published.tracks, fun _ => .reading rfl, published.subscribed, nofun⟩
    · cases h
      refine ⟨published.tracks, ?_, published.subscribed, nofun⟩
      intro _
      have fresh := published.fresh (by rw [task]; rfl)
      cases fresh with
      | owed owes => exact .owed owes
      | unseen pending => exact .unseen pending
      | reading other => cases task.symm.trans other
      | sending other => cases task.symm.trans other
      | sent _ last shows => exact .sent (Or.inr rfl) (by rwa [lastStatus_watchdog]) shows
  · cases h

/-- The task leaves its loop for a shutdown only. -/
theorem published_shutdownChanged (published : Published tr s)
    (h : step watchdog s .shutdownChanged = some (t, es)) : Published (tr ++ es) t := by
  simp only [step] at h
  split at h
  · rename_i task
    simp only [bind, Option.bind_eq_some_iff, Prod.exists] at h
    obtain ⟨changed, shutdown, noticed, last⟩ := h
    cases told : changed && shutdown.value with
    | true =>
      simp only [told, if_true, Option.some.injEq, Prod.mk.injEq] at last
      obtain ⟨rfl, rfl⟩ := last
      rw [List.append_nil]
      refine ⟨published.tracks, nofun, published.subscribed, fun _ => ?_⟩
      exact ((Bool.and_eq_true ..).mp told).2
    | false =>
      simp only [told, Bool.false_eq_true, if_false, Option.some.injEq, Prod.mk.injEq] at last
      obtain ⟨rfl, rfl⟩ := last
      rw [List.append_nil]
      refine ⟨published.tracks, fun _ => ?_, published.subscribed, nofun⟩
      have fresh := published.fresh (by rw [task]; rfl)
      exact fresh.congr (fun _ => id) id task.symm rfl
  · cases h

theorem published_statusChanged (published : Published tr s)
    (h : step watchdog s .statusChanged = some (t, es)) : Published (tr ++ es) t := by
  simp only [step] at h
  split at h
  · simp only [bind, Option.bind_eq_some_iff, Prod.exists] at h
    obtain ⟨changed, revision, noticed, last⟩ := h
    obtain ⟨rfl, rfl⟩ := Prod.mk.inj (Option.some.inj last)
    rw [List.append_nil]
    rcases Watch.changed_cases noticed with ⟨rfl, -, rfl⟩ | ⟨-, -, dead, -⟩
    · exact ⟨published.tracks, fun _ => .reading rfl, published.subscribed, nofun⟩
    · cases published.subscribed.symm.trans dead
  · cases h

theorem published_step (tr : List Event) (s : State) (label : Label) (t : State) (es : List Event)
    (published : Published tr s) (h : step watchdog s label = some (t, es)) :
    Published (tr ++ es) t := by
  cases label with
  | advance elapsed =>
    cases h
    rw [List.append_nil]
    refine ⟨published.tracks, fun live => ?_, published.subscribed, published.ended⟩
    exact (published.fresh live).congr (fun _ => id) id rfl rfl
  | register lane => exact published_register published h
  | markLane lane mark => exact published_markLane published h
  | mark task operation => exact published_mark published h
  | bump actor =>
    simp only [step] at h
    split at h
    · cases h
      rw [List.append_nil]
      exact ⟨published.tracks, fun _ => .unseen rfl, published.subscribed, published.ended⟩
    · cases h
  | shutDown =>
    cases h
    rw [List.append_nil]
    refine ⟨published.tracks, fun live => ?_, published.subscribed, fun _ => rfl⟩
    exact (published.fresh live).congr (fun _ => id) id rfl rfl
  | dropShutdown =>
    cases h
    rw [List.append_nil]
    refine ⟨published.tracks, fun live => ?_, published.subscribed, published.ended⟩
    exact (published.fresh live).congr (fun _ => id) id rfl rfl
  | subscribe =>
    simp only [step] at h
    split at h
    · cases h
      rw [List.append_nil]
      exact ⟨published.tracks, fun _ => .reading rfl, published.subscribed, nofun⟩
    · cases h
  | read => exact published_read published h
  | send => exact published_send published h
  | check => exact published_check published h
  | shutdownChanged => exact published_shutdownChanged published h
  | tick =>
    simp only [step] at h
    split at h
    · cases h
      rw [List.append_nil]
      exact ⟨published.tracks, fun _ => .reading rfl, published.subscribed, nofun⟩
    · cases h
  | statusChanged => exact published_statusChanged published h

theorem published_start (accounts sources commandLanes stale timeout : Nat) :
    Published [] (.start (.new accounts sources commandLanes stale timeout)) := by
  refine ⟨fun lane => ?_, nofun, rfl, nofun⟩
  simp [State.start, RuntimeState.State.new, RuntimeState.State.runnerPhase]

end Steps

/-- No operation is between its state change and its bump. -/
def Quiescent (s : State) : Prop := ∀ actor, s.owes actor = false

/-- The task has not seen the last revision, or is about to send this status, or has sent it. -/
def UpToDate (tr : List Event) (s : State) : Prop :=
  (s.task.live = true ∧ s.revision.unseen = true) ∨
    (∃ purpose, s.task = .reading purpose ∨ s.task = .sending purpose (s.text purpose)) ∨
    ∃ text, lastStatus tr = some text ∧ Shows s.runtime text ∧ Announces text s.busyLanes

theorem published_status_is_up_to_date (watchdog : Bool)
    (accounts sources commandLanes stale timeout : Nat) {labels : List Label} {s : State}
    {tr : List Event} (run : exec (step watchdog)
      (.start (.new accounts sources commandLanes stale timeout)) labels = some (s, tr)) :
    s.runtime.runningCommandCount = s.busyLanes ∧
      (s.task = .ended → s.shutdown.value = true) ∧
      (Quiescent s → s.task.live = true → UpToDate tr s) := by
  have published : Published tr s := exec_invariant published_step (published_start ..) run
  have count := runningCommandCount_eq published.tracks
  refine ⟨count, published.ended, ?_⟩
  intro quiescent live
  cases published.fresh live with
  | owed owes => cases (quiescent _).symm.trans owes
  | unseen pending => exact Or.inl ⟨live, pending⟩
  | reading task => exact Or.inr (Or.inl ⟨_, Or.inl task⟩)
  | sending task => exact Or.inr (Or.inl ⟨_, Or.inr task⟩)
  | sent _ last shows => exact Or.inr (Or.inr ⟨_, last, shows, count ▸ shows.announces⟩)

section Runs
variable {watchdog : Bool} {s t : State} {es tr : List Event} {label : Label}

/-- Whose operation the step belongs to. -/
def Label.actor? : Label → Option Actor
  | .markLane lane _ => some (.lane lane)
  | .mark task _ => some (.other task)
  | .bump actor => some actor
  | .advance _ | .register _ | .shutDown | .dropShutdown | .subscribe | .read | .send | .check
  | .shutdownChanged | .tick | .statusChanged => none

theorem owes_perform {actor : Actor} {operation : Operation}
    (h : s.perform actor operation = some t) {other : Actor} (differs : other ≠ actor) :
    t.owes other = s.owes other := by
  obtain ⟨-, rfl⟩ := perform_cases h
  exact Function.update_of_ne differs _ _

theorem owes_step (h : step watchdog s label = some (t, es)) {actor : Actor}
    (differs : label.actor? ≠ some actor) : t.owes actor = s.owes actor := by
  cases label with
  | markLane lane mark =>
    simp only [step, bind, Option.bind_eq_some_iff] at h
    obtain ⟨_, _, _, _, u, performed, last⟩ := h
    obtain ⟨rfl, -⟩ := Prod.mk.inj (Option.some.inj last)
    exact owes_perform performed fun same => differs (congrArg some same.symm)
  | mark task operation =>
    simp only [step] at h
    split at h
    · obtain ⟨u, performed, last⟩ := Option.map_eq_some_iff.mp h
      obtain ⟨rfl, -⟩ := Prod.mk.inj last
      exact owes_perform performed fun same => differs (congrArg some same.symm)
    · cases h
  | bump other =>
    simp only [step] at h
    split at h
    · cases h
      exact Function.update_of_ne (fun same => differs (congrArg some same.symm)) _ _
    · cases h
  | advance | shutDown | dropShutdown =>
    cases h
    rfl
  | register | subscribe | tick =>
    simp only [step] at h
    split at h <;> cases h
    rfl
  | read | send =>
    simp only [step] at h
    split at h <;> cases h
    rfl
  | check =>
    simp only [step] at h
    split at h
    · split at h <;> cases h <;> rfl
    · cases h
  | shutdownChanged | statusChanged =>
    simp only [step] at h
    split at h
    · simp only [bind, Option.bind_eq_some_iff, Prod.exists] at h
      obtain ⟨_, _, _, last⟩ := h
      obtain ⟨rfl, -⟩ := Prod.mk.inj (Option.some.inj last)
      rfl
    · cases h

/-- An actor that does not act owes what it owed. -/
theorem owes_run {actor : Actor} {labels : List Label}
    (run : exec (step watchdog) s labels = some (t, tr))
    (idle : actor ∉ labels.filterMap Label.actor?) : t.owes actor = s.owes actor := by
  induction labels generalizing s tr with
  | nil =>
    obtain ⟨rfl, -⟩ : s = t ∧ [] = tr := by simpa using run
    rfl
  | cons label rest ih =>
    obtain ⟨m, fs, gs, first, later, rfl⟩ := exec_cons_some.mp run
    have other : label.actor? ≠ some actor := by
      intro same
      exact idle (List.mem_filterMap.mpr ⟨label, List.mem_cons_self, same⟩)
    have rests : actor ∉ rest.filterMap Label.actor? := by
      intro mem
      obtain ⟨acts, held, same⟩ := List.mem_filterMap.mp mem
      exact idle (List.mem_filterMap.mpr ⟨acts, List.mem_cons_of_mem label held, same⟩)
    exact (ih later rests).trans (owes_step first other)

theorem quiescent_of_settled {runtime : RuntimeState.State} {labels : List Label}
    (run : exec (step watchdog) (.start runtime) labels = some (t, tr))
    (settled : ∀ actor ∈ labels.filterMap Label.actor?, t.owes actor = false) : Quiescent t := by
  intro actor
  by_cases acts : actor ∈ labels.filterMap Label.actor?
  · exact settled actor acts
  · exact owes_run run acts

end Runs

/-- A lane starts a command after the first status. -/
private def exampleStart : List Label :=
  [.register "inbox", .markLane "inbox" .idle, .subscribe, .read, .send,
    .markLane "inbox" .started, .bump (.lane "inbox"), .statusChanged, .read, .send]

theorem started_command_is_published : ∃ s tr,
    exec (step false) (.start (.new 1 1 1 60000 60000)) exampleStart = some (s, tr) ∧
      s.revision.unseen = false ∧ lastStatus tr = some ("watching 1 account(s), 1 source(s); " ++
        "running commands: 1; no events yet; no command runs yet") ∧ UpToDate tr s := by
  have checked : (exec (step false) (.start (.new 1 1 1 60000 60000)) exampleStart).any
      (fun r => decide (r.1.revision.unseen = false ∧
        lastStatus r.2 = some ("watching 1 account(s), 1 source(s); " ++
          "running commands: 1; no events yet; no command runs yet") ∧
        r.1.task = .selecting ∧
        ∀ actor ∈ exampleStart.filterMap Label.actor?, r.1.owes actor = false)) = true := by
    decide +kernel
  obtain ⟨⟨s, tr⟩, run, facts⟩ := (Option.any_eq_true ..).mp checked
  obtain ⟨seen, last, task, settled⟩ := of_decide_eq_true facts
  have live : s.task.live = true := congrArg TaskPc.live task
  exact ⟨s, tr, run, seen, last, (published_status_is_up_to_date false 1 1 1 60000 60000 run).2.2
    (quiescent_of_settled run settled) live⟩

/-- The command ends once the task has left its loop. -/
private def exampleShutdown : List Label :=
  exampleStart ++ [.shutDown, .shutdownChanged,
    .markLane "inbox" (.finished ⟨true, some 0, none, false, false, none, false, none⟩),
    .bump (.lane "inbox")]

/-- The status that the task sent last stays as it is after a shutdown. -/
theorem ended_task_leaves_its_status : ¬ ∀ (watchdog : Bool)
    (accounts sources commandLanes stale timeout : Nat) (labels : List Label) (s : State)
    (tr : List Event), exec (step watchdog)
      (.start (.new accounts sources commandLanes stale timeout)) labels = some (s, tr) →
      Quiescent s → s.task ≠ .absent → UpToDate tr s := by
  intro claim
  have checked : (exec (step false) (.start (.new 1 1 1 60000 60000)) exampleShutdown).any
      (fun r => decide ((∀ actor ∈ exampleShutdown.filterMap Label.actor?, r.1.owes actor = false) ∧
        r.1.task = .ended ∧ ∀ text ∈ lastStatus r.2, ¬ Shows r.1.runtime text)) = true := by
    decide +kernel
  obtain ⟨⟨s, tr⟩, run, facts⟩ := (Option.any_eq_true ..).mp checked
  obtain ⟨settled, ended, stale⟩ := of_decide_eq_true facts
  dsimp only at settled ended stale
  have spawned : s.task ≠ .absent := by
    rw [ended]
    nofun
  rcases claim false 1 1 1 60000 60000 _ s tr run (quiescent_of_settled run settled) spawned with
    ⟨live, -⟩ | ⟨purpose, task | task⟩ | ⟨text, last, shows, -⟩
  · rw [ended] at live
    cases live
  · cases ended.symm.trans task
  · cases ended.symm.trans task
  · exact stale text last shows

end StatusTask

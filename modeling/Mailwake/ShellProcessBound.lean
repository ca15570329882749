import Mailwake.ShellProcessTurns

/-!
# The time a shell run takes

Up to the last kill every wait of the call has a timer: the next poll, the deadline, or the
grace after SIGTERM. The collection of the output has none. It lasts as long as some process
holds a captured pipe open, and after the kill that is a process that has left the group.
-/
namespace ShellProcess
open Channel Transition ProcessGroup

/-- Some captured pipe that is still read is held open from outside the group. -/
def withheld (s : State) : Bool :=
  [Stream.stdout, .stderr].any fun stream => s.reads stream && s.tree.heldOutside stream

/-- Once the deadline and the grace are over, the call is gone. -/
def Bounded (s : State) : Prop :=
  s.deadline + terminateGrace < s.now → s.pc.isGone = true

/-- No time passes beyond the deadline and the grace while the call is in progress and a
process outside the group holds a pipe that is still read. -/
def Released (s : State) : Label → Prop
  | .advance duration =>
    s.deadline + terminateGrace < s.now + duration → s.pc.isGone = true ∨ withheld s = false
  | _ => True

instance (s : State) : ∀ label, Decidable (Released s label)
  | .advance _ => inferInstanceAs (Decidable (_ → _ ∨ _))
  | .task _ | .drop | .process _ | .write _ _ _ | .shellExits _ | .setShutdown _ | .dropShutdown =>
    isTrue trivial

/-- How late it can be at a program point. -/
def Punctual (s : State) : Prop :=
  match s.pc with
  | .waiting => s.now ≤ s.deadline
  | .selecting wakeAt => s.now ≤ wakeAt ∧ wakeAt ≤ s.deadline
  | .afterExit _ => s.now ≤ s.deadline
  | .terminating .term _ => s.now ≤ s.deadline
  | .terminating (.grace limit) _ => s.now ≤ limit ∧ limit ≤ s.deadline + terminateGrace
  | .terminating .kill _ => s.now ≤ s.deadline + terminateGrace
  | .terminating .reap _ => s.now ≤ s.deadline + terminateGrace ∧ s.status.isSome = true
  | .terminating .last _ => s.now ≤ s.deadline + terminateGrace
  | .collecting _ => s.now ≤ s.deadline + terminateGrace ∧ s.tree.anyAlive = false
  | .gone _ => True

variable {s t : State} {label : Label} {es : List Event}

theorem Punctual.bounded (h : Punctual s) : Bounded s := by
  intro late
  cases hpc : s.pc with
  | gone outcome => rfl
  | terminating stage reason =>
    cases stage <;> simp only [Punctual, hpc] at h <;> omega
  | waiting | selecting | afterExit | collecting =>
    simp only [Punctual, hpc] at h
    omega

theorem blocked_of_settled (rests : settled s = true) {task : Task} (mem : task ∈ prompt s) :
    taskStep s task = none := by
  simpa using List.all_eq_true.mp rests task mem

/-- A reader that cannot go on waits for a process that holds its pipe. -/
theorem held_of_settled (rests : settled s = true) {stream : Stream}
    (reading : s.reads stream = true) : s.tree.held stream = true := by
  have readPrompt : Task.read stream 1 ∈ prompt s := by cases stream <;> simp [prompt]
  have eofPrompt : Task.eof stream ∈ prompt s := by cases stream <;> simp [prompt]
  have noRead : readPipe s stream 1 = none := blocked_of_settled rests readPrompt
  have noEof : quiet (eof s stream) = none := blocked_of_settled rests eofPrompt
  obtain ⟨⟨unread, task⟩, hp⟩ : ∃ pipe, s.pipes stream = pipe := ⟨_, rfl⟩
  cases task with
  | reading output =>
    cases unread with
    | nil =>
      simp only [quiet, eof, hp, Option.map_eq_none_iff] at noEof
      split at noEof
      · assumption
      · cases noEof
    | cons byte rest =>
      simp only [readPipe, hp] at noRead
      rw [if_pos (by simp)] at noRead
      split at noRead <;> cases noRead
  | absent | finished | panicked => simp [State.reads, hp] at reading

/-- A collection that cannot go on waits for a reader. -/
theorem reads_of_collect (h : s.collect = none) : ∃ stream, s.reads stream = true := by
  have pending : ∀ stream, collectPipe (s.pipes stream).task = none → s.reads stream = true := by
    intro stream hc
    rw [State.reads]
    split
    · rfl
    · rename_i other
      cases ht : (s.pipes stream).task with
      | reading output => exact absurd ht (other output)
      | absent | panicked => simp [ht, collectPipe] at hc
      | finished result =>
        rcases result with (_ | _) | _ <;> simp [ht, collectPipe] at hc
  simp only [State.collect, collectCapturedOutput] at h
  split at h
  · exact ⟨.stdout, pending .stdout ‹_›⟩
  · cases h
  · exact ⟨.stderr, pending .stderr (Option.map_eq_none_iff.mp h)⟩

theorem withheld_of_settled {reason : End} (rests : settled s = true)
    (hpc : s.pc = .collecting reason) (dead : s.tree.anyAlive = false) : withheld s = true := by
  have last : Task.collected ∈ prompt s := by simp [prompt]
  have blocked : collected s = none := blocked_of_settled rests last
  simp only [collected, hpc, Option.map_eq_none_iff] at blocked
  obtain ⟨stream, reading⟩ := reads_of_collect blocked
  have outside := ProcessTree.heldOutside_of_held dead (held_of_settled rests reading)
  cases stream <;> simp [withheld, reading, outside]

/-- Where the call can go on at once, time does not pass. -/
theorem not_settled_of_enabled {task : Task} (mem : task ∈ prompt s)
    (enabled : taskStep s task ≠ none) : settled s = false := by
  cases rests : settled s with
  | false => rfl
  | true => exact absurd (blocked_of_settled rests mem) enabled

theorem punctual_waited {duration : Nat} (old : Punctual s)
    (released : Released s (.advance duration)) (rests : settled s = true)
    (due : (timerDue s).all (fun due => s.now + duration ≤ due) = true) :
    Punctual { s with now := s.now + duration } := by
  have stuck : ∀ {task : Task}, task ∈ prompt s → taskStep s task ≠ none → False := by
    intro task mem enabled
    rw [not_settled_of_enabled mem enabled] at rests
    cases rests
  cases hpc : s.pc with
  | waiting => exact (stuck (by simp [prompt] : Task.check ∈ prompt s) (by simp [taskStep, hpc])).elim
  | selecting wakeAt =>
    simp only [Punctual, hpc] at old ⊢
    simp only [timerDue, hpc, Option.all_some, decide_eq_true_eq] at due
    exact ⟨due, old.2⟩
  | afterExit status =>
    simp only [Punctual]
    simpa only [timerDue, hpc, Option.all_some, decide_eq_true_eq] using due
  | terminating stage reason =>
    cases stage with
    | grace limit =>
      simp only [Punctual, hpc] at old ⊢
      simp only [timerDue, hpc, Option.all_some, decide_eq_true_eq] at due
      exact ⟨due, old.2⟩
    | reap =>
      simp only [Punctual, hpc] at old
      obtain ⟨status, hs⟩ := Option.isSome_iff_exists.mp old.2
      exact (stuck (by simp [prompt] : Task.reaped ∈ prompt s)
        (by simp [taskStep, reaped, hpc, hs, quiet])).elim
    | term | kill | last =>
      exact (stuck (by simp [prompt] : Task.signal none ∈ prompt s)
        (by simp [taskStep, signal, signalled, hpc])).elim
  | collecting reason =>
    simp only [Punctual, hpc] at old ⊢
    refine ⟨?_, old.2⟩
    by_contra late
    rcases released (by omega) with gone | free
    · rw [hpc] at gone
      cases gone
    · rw [withheld_of_settled rests hpc old.2] at free
      cases free
  | gone outcome => simp only [Punctual]

theorem punctual_frame (old : Punctual s) (frame : Frame s t) : Punctual t := by
  obtain ⟨hpc, now, deadline, group, status⟩ := frame
  rw [Punctual] at old ⊢
  rw [hpc, now, deadline]
  split at old
  · exact old
  · exact old
  · exact old
  · exact old
  · exact old
  · exact old
  · exact ⟨old.1, status old.2⟩
  · exact old
  · exact ⟨old.1, group old.2⟩
  · trivial

/-- Every turn of the call is made in time. -/
theorem punctual_step (old : Punctual s) (released : Released s label)
    (h : step s label = some (t, es)) : Punctual t := by
  cases step_turn h with
  | exited hpc next same =>
    simp only [Punctual, hpc] at old
    simp only [Punctual, next, same.now, same.deadline]
    exact old
  | selected hpc early next same =>
    simp only [Punctual, next, same.now, same.deadline]
    omega
  | resumed hpc next same =>
    simp only [Punctual, hpc] at old
    simp only [Punctual, next, same.now, same.deadline]
    omega
  | stayed hpc next same =>
    simp only [Punctual, hpc] at old
    simp only [Punctual, next, same.now, same.deadline]
    exact old
  | ending origin next same =>
    simp only [Punctual, next, same.now, same.deadline]
    rcases origin with hpc | ⟨wakeAt, hpc⟩ | ⟨status, hpc⟩
    · simpa only [Punctual, hpc] using old
    · simp only [Punctual, hpc] at old
      omega
    · simpa only [Punctual, hpc] using old
  | termed hpc next same =>
    simp only [Punctual, hpc] at old
    simp only [Punctual, next, same.now, same.deadline]
    omega
  | expired hpc next same =>
    simp only [Punctual, hpc] at old
    simp only [Punctual, next, same.now, same.deadline]
    omega
  | killed hpc next =>
    subst next
    simp only [Punctual, hpc] at old
    exact ⟨old, by simp [State.killGroup, State.killedStatus]⟩
  | reaped hpc stage next same =>
    simp only [Punctual, next, same.now, same.deadline]
    rcases stage with rfl | ⟨limit, rfl⟩
    · simp only [Punctual, hpc] at old
      exact old.1
    · simp only [Punctual, hpc] at old
      omega
  | swept hpc next =>
    subst next
    simp only [Punctual, hpc] at old
    exact ⟨old, ProcessTree.anyAlive_kill _⟩
  | left next =>
    subst next
    trivial
  | beside frame => exact punctual_frame old frame
  | waited next rests due =>
    subst next
    exact punctual_waited old released rests due

variable {stdoutMode stderrMode : ShellStreamMode} {commandTimeout : Nat}
  {outputLimit : Option Nat} {shutdown : Option (Watch Bool)} {labels : List Label}
  {tr : List Event}

/-- Once the deadline and the grace are over the call is gone, if and only if no time passes
beyond them while a process outside the group keeps a collection waiting. -/
theorem run_is_bounded_iff_released (run : exec step
    (State.start stdoutMode stderrMode commandTimeout outputLimit shutdown) labels
      = some (s, tr)) :
    Throughout step (fun _ v => Bounded v)
        (State.start stdoutMode stderrMode commandTimeout outputLimit shutdown) labels ↔
      Meets step Released
        (State.start stdoutMode stderrMode commandTimeout outputLimit shutdown) labels := by
  constructor
  · intro bounded
    refine meets_of_throughout ?_ run bounded
    intro past u label v es _ after hs
    cases label with
    | advance duration =>
      simp only [step] at hs
      split at hs
      · obtain ⟨rfl, -⟩ := Prod.mk.inj (Option.some.inj hs)
        exact fun late => Or.inl (after late)
      · cases hs
    | task | drop | process | write | shellExits | setShutdown | dropShutdown => trivial
  · intro meets
    have start : Punctual
        (State.start stdoutMode stderrMode commandTimeout outputLimit shutdown) :=
      Nat.zero_le _
    exact throughout_of_meets (P := fun _ v => Punctual v)
      (fun _ _ _ _ _ old released hs => punctual_step old released hs)
      (fun _ _ punctual => punctual.bounded) start meets

/-- A shell starts a background process that leaves the group, and the run times out. -/
private def exampleEscape (keeps : List Stream) : List Label :=
  [.task .check, .process (.fork none keeps), .process (.leave 0), .advance 5, .task .timer,
    .task .check, .task (.signal none), .shellExits ⟨none, some 15⟩, .task .reaped,
    .task (.signal none)]

theorem example_escape_without_pipe_is_bounded :
    let r := (exec step (State.start .capture .null 5 none none)
      (exampleEscape [] ++ [.task (.eof .stdout), .task .collected, .advance 5000])).get
        (by decide +kernel)
    r.1.now = 5005 ∧ Bounded r.1 := by
  intro r
  have run := (Option.some_get (by decide +kernel : (exec step
    (State.start .capture .null 5 none none)
      (exampleEscape [] ++ [.task (.eof .stdout), .task .collected, .advance 5000])).isSome
        = true)).symm
  have released : Meets step Released (State.start .capture .null 5 none none)
      (exampleEscape [] ++ [.task (.eof .stdout), .task .collected, .advance 5000]) := by
    decide +kernel
  exact ⟨by decide +kernel, (run_is_bounded_iff_released run).mpr released _ [] _ _
    (List.append_nil _).symm run⟩

/-- The escaped process keeps the stdout pipe open, and the call waits for its end. -/
theorem escaped_holder_outlasts_deadline :
    let r := (exec step (State.start .capture .null 5 none none)
      (exampleEscape [.stdout] ++ [.advance 5000])).get (by decide +kernel)
    ¬ Bounded r.1 := by
  intro r bounded
  have late : r.1.deadline + terminateGrace < r.1.now := by decide +kernel
  exact absurd (bounded late) (by decide +kernel)

end ShellProcess

import Mailwake.ShellProcess

/-!
# What a shell run captures

The two reader tasks draw on one budget, and the call learns of an excess from the channel or
from the task that stopped. A ledger relates what they keep to what was written to the pipes
and to what was read from them.
-/
namespace ShellProcess
open Channel Transition ProcessGroup

/-- What has been read from a stream. -/
def readBytes (tr : List Event) (stream : Stream) : List UInt8 :=
  tr.flatMap fun
    | .read other bytes => if other = stream then bytes else []
    | .ended _ => []

def readTotal (tr : List Event) : Nat :=
  (readBytes tr .stdout).length + (readBytes tr .stderr).length

/-- What has been written to a stream. -/
def written (labels : List Label) (stream : Stream) : List UInt8 :=
  labels.flatMap fun
    | .write _ other bytes => if other = stream then bytes else []
    | _ => []

/-- More has been read than the limit allows. -/
def Exceeds (limit : Option Nat) (tr : List Event) : Prop :=
  ∃ most, limit = some most ∧ most < readTotal tr

section Streams
variable (tr es : List Event) (labels : List Label) (label : Label) (stream other : Stream)
  (bytes : List UInt8)

@[simp] theorem readBytes_append :
    readBytes (tr ++ es) stream = readBytes tr stream ++ readBytes es stream :=
  List.flatMap_append

@[simp] theorem readBytes_read :
    readBytes [.read other bytes] stream = if other = stream then bytes else [] := by
  simp [readBytes]

theorem readTotal_read : readTotal (tr ++ [.read other bytes]) = readTotal tr + bytes.length := by
  cases other <;> simp [readTotal] <;> omega

@[simp] theorem written_append :
    written (labels ++ [label]) stream = written labels stream ++ written [label] stream :=
  List.flatMap_append

@[simp] theorem written_task (task : Task) : written [.task task] stream = [] := rfl

@[simp] theorem written_write (who : Option Nat) :
    written [.write who other bytes] stream = if other = stream then bytes else [] := by
  simp [written]

end Streams

theorem readBytes_quiet {es : List Event} (quiet : ∀ stream bytes, .read stream bytes ∉ es)
    (stream : Stream) : readBytes es stream = [] := by
  refine List.flatMap_eq_nil_iff.mpr ?_
  intro event mem
  cases event with
  | read other bytes => exact absurd mem (quiet other bytes)
  | ended outcome => rfl

theorem written_silent {label : Label} (silent : ∀ who stream bytes, label ≠ .write who stream bytes)
    (stream : Stream) : written [label] stream = [] := by
  cases label with
  | write who other bytes => exact absurd rfl (silent who other bytes)
  | _ => rfl

/-- The bytes that a reader task keeps. -/
def PipeTask.kept : PipeTask → List UInt8
  | .reading output => output
  | .finished (.ok output) => output
  | .finished (.error (.tooLarge exceeded)) => exceeded.output
  | _ => []

/-- The reader task has failed without an excess. -/
def PipeTask.broken : PipeTask → Bool
  | .finished (.error (.io _)) => true
  | .panicked _ => true
  | _ => false

/-- Before the end of the run is decided. -/
def Pc.early : Pc → Bool
  | .waiting => true
  | .selecting _ => true
  | .afterExit _ => true
  | _ => false

def Pc.reason : Pc → Option End
  | .terminating _ reason => some reason
  | .collecting reason => some reason
  | _ => none

/-- What `terminate_process_group` is called for: never a completion, and an excess only as
received. -/
def Justified (s : State) : End → Prop
  | .completed _ => False
  | .outputLimitExceeded exceeded => exceeded ∈ s.limitSent
  | .timedOut | .cancelled => True

/-- Where the call goes on after a step. -/
inductive Steer (s : State) : Pc → Prop where
  | same : Steer s s.pc
  | looped {pc : Pc} : s.pc.early = true → (pc = .waiting ∨ ∃ wakeAt, pc = .selecting wakeAt) →
      Steer s pc
  | exited {status : ExitStatus} : s.pc.early = true → s.status = some status →
      Steer s (.afterExit status)
  | ending {reason : End} : s.pc.early = true → Justified s reason →
      Steer s (.terminating .term reason)
  | further {reason : End} {pc : Pc} : s.pc.reason = some reason → pc.reason = some reason →
      Steer s pc
  | finished {reason : End} {output : CollectedOutput} :
      (s.pc = .collecting reason ∨ ∃ status, s.pc = .afterExit status ∧ reason = .completed status) →
      s.collect = some (.ok output) →
      Steer s (.gone (.returned (.ok (finishShellRun reason output))))
  | failed {error : ShellProcessError} : Steer s (.gone (.returned (.error error)))
  | dropped : Steer s (.gone .dropped)

/-- The step leaves the pipes and the budget alone. -/
structure Still (s t : State) : Prop where
  pipes : t.pipes = s.pipes
  limit : t.limit = s.limit
  used : t.used = s.used
  sent : ∀ exceeded ∈ t.limitSent, exceeded ∈ s.limitSent
  status : t.pc.early = true → t.status = s.status
  steer : Steer s t.pc

/-- What a step does to the pipes. -/
inductive Flow (s : State) : Label → State → List Event → Prop where
  | still {label : Label} {t : State} {es : List Event} : Still s t →
      (∀ stream bytes, .read stream bytes ∉ es) →
      (∀ who stream bytes, label ≠ .write who stream bytes) → Flow s label t es
  | exited {status : ExitStatus} :
      Flow s (.shellExits status) { s with tree := s.tree.killLeader, status := some status } []
  | kept {stream : Stream} {count : Nat} {unread output : List UInt8} :
      s.pipes stream = ⟨unread, .reading output⟩ → 0 < count → count ≤ unread.length →
      reserve s count = count →
      Flow s (.task (.read stream count))
        ({ s with used := s.used + count }.setPipe stream
          ⟨unread.drop count, .reading (output ++ unread.take count)⟩)
        [.read stream (unread.take count)]
  | exceeded {stream : Stream} {count : Nat} {unread output : List UInt8} :
      s.pipes stream = ⟨unread, .reading output⟩ → count ≤ unread.length →
      reserve s count < count →
      Flow s (.task (.read stream count))
        { { s with used := s.used + reserve s count }.setPipe stream
            ⟨unread.drop count, .finished (.error (.tooLarge
              ⟨stream, s.limit.getD 0, output ++ (unread.take count).take (reserve s count)⟩))⟩ with
          limitSent := s.limitSent ++
            [⟨stream, s.limit.getD 0, output ++ (unread.take count).take (reserve s count)⟩] }
        [.read stream (unread.take count)]
  | ended {stream : Stream} {output : List UInt8} : s.pipes stream = ⟨[], .reading output⟩ →
      Flow s (.task (.eof stream)) (s.setTask stream (.finished (.ok output))) []
  | broke {task : Task} {stream : Stream} {after : PipeTask} : s.reads stream = true →
      after.broken = true → Flow s (.task task) (s.setTask stream after) []
  | wrote {who : Option Nat} {stream : Stream} {bytes : List UInt8} : s.reads stream = true →
      Flow s (.write who stream bytes)
        (s.setPipe stream ⟨(s.pipes stream).unread ++ bytes, (s.pipes stream).task⟩) []

variable {s t : State} {label : Label} {es : List Event}

/-- Only the program point changes. -/
theorem still_goto {pc : Pc} (steer : Steer s pc) : Still s { s with pc := pc } :=
  ⟨rfl, rfl, rfl, fun _ mem => mem, fun _ => rfl, steer⟩

theorem still_leave {outcome : Outcome} (steer : Steer s (.gone outcome)) :
    Still s (s.leave outcome).1 :=
  ⟨rfl, rfl, rfl, fun _ mem => mem, nofun, steer⟩

theorem still_check (hpc : s.pc = .waiting) : Still s (check s) := by
  have early : s.pc.early = true := by rw [hpc]; rfl
  rw [check]
  split
  · rename_i status exited
    exact still_goto (.exited early exited)
  split
  · exact still_goto (.ending early trivial)
  split
  · exact still_goto (.ending early trivial)
  · exact still_goto (.looped early (Or.inr ⟨_, rfl⟩))

theorem still_timer (h : timer s = some t) : Still s t := by
  simp only [timer] at h
  split at h
  · rename_i wakeAt hpc
    split at h <;> cases h
    exact still_goto (.looped (by rw [hpc]; rfl) (Or.inl rfl))
  · rename_i limit reason hpc
    split at h <;> cases h
    exact still_goto (.further (by rw [hpc]; rfl) rfl)
  · rename_i status hpc
    split at h <;> cases h
    exact still_goto (.ending (by rw [hpc]; rfl) trivial)
  · cases h

/-- The call can use up a notification, or give up the receiver, on the way. -/
theorem still_watch {shutdown : Option (Watch Bool)} (steer : Steer s t.pc)
    (same : t = { s with shutdown := shutdown, pc := t.pc }) : Still s t := by
  rw [same]
  exact ⟨rfl, rfl, rfl, fun _ mem => mem, fun _ => rfl, steer⟩

theorem still_shutdownChanged (h : shutdownChanged s = some t) : Still s t := by
  simp only [shutdownChanged] at h
  split at h
  · rename_i wakeAt watch hpc _
    have early : s.pc.early = true := by rw [hpc]; rfl
    obtain ⟨⟨ok, next⟩, -, rfl⟩ := Option.map_eq_some_iff.mp h
    dsimp only
    split
    · exact still_watch (.ending early trivial) rfl
    · exact still_watch (.looped early (Or.inl rfl)) rfl
  · rename_i status watch hpc _
    have early : s.pc.early = true := by rw [hpc]; rfl
    split at h
    · cases h
      exact still_goto (.ending early trivial)
    · obtain ⟨⟨ok, next⟩, -, rfl⟩ := Option.map_eq_some_iff.mp h
      dsimp only
      split
      · split
        · exact still_watch (.ending early trivial) rfl
        · exact still_watch .same rfl
      · exact still_watch .same rfl
  · cases h

/-- What is received was sent, and the receiver is all that changes. -/
theorem receiveLimit_frame {exceeded : Option PipeLimitExceeded}
    (h : receiveLimit s = some (exceeded, t)) :
    t = { s with limitSent := t.limitSent, limitRx := t.limitRx } ∧
      (∀ e ∈ t.limitSent, e ∈ s.limitSent) ∧ ∀ e, exceeded = some e → e ∈ s.limitSent := by
  simp only [receiveLimit] at h
  split at h
  · split at h
    · rename_i first rest sent
      obtain ⟨rfl, rfl⟩ := Prod.mk.inj (Option.some.inj h)
      refine ⟨rfl, fun e mem => by rw [sent]; exact List.mem_cons_of_mem _ mem, ?_⟩
      intro e same
      obtain rfl := Option.some.inj same
      rw [sent]
      exact List.mem_cons_self
    · split at h
      · cases h
      · obtain ⟨rfl, rfl⟩ := Prod.mk.inj (Option.some.inj h)
        exact ⟨rfl, fun _ mem => mem, nofun⟩
  · cases h

theorem still_receive {m : State} {pc : Pc} {exceeded : Option PipeLimitExceeded}
    (h : receiveLimit s = some (exceeded, m)) (steer : Steer s pc) :
    Still s { m with pc := pc } := by
  obtain ⟨same, sent, -⟩ := receiveLimit_frame h
  rw [same]
  exact ⟨rfl, rfl, rfl, sent, fun _ => rfl, steer⟩

theorem still_limitReceived (h : limitReceived s = some t) : Still s t := by
  simp only [limitReceived] at h
  split at h
  · rename_i wakeAt hpc
    have early : s.pc.early = true := by rw [hpc]; rfl
    obtain ⟨⟨exceeded, m⟩, hm, rfl⟩ := Option.map_eq_some_iff.mp h
    cases exceeded with
    | some exceeded =>
      exact still_receive hm (.ending early ((receiveLimit_frame hm).2.2 exceeded rfl))
    | none => exact still_receive hm (.looped early (Or.inl rfl))
  · rename_i status hpc
    have early : s.pc.early = true := by rw [hpc]; rfl
    obtain ⟨⟨exceeded, m⟩, hm, rfl⟩ := Option.map_eq_some_iff.mp h
    cases exceeded with
    | some exceeded =>
      exact still_receive hm (.ending early ((receiveLimit_frame hm).2.2 exceeded rfl))
    | none =>
      have same : m = { m with pc := s.pc } := by rw [(receiveLimit_frame hm).1]
      dsimp only
      rw [same]
      exact still_receive hm .same
  · cases h

theorem still_signalled (h : signalled s = some t) : Still s t := by
  simp only [signalled] at h
  split at h
  · rename_i reason hpc
    cases h
    exact still_goto (.further (by rw [hpc]; rfl) rfl)
  · rename_i reason hpc
    cases h
    exact ⟨rfl, rfl, rfl, fun _ mem => mem, nofun, .further (by rw [hpc]; rfl) rfl⟩
  · rename_i reason hpc
    cases h
    exact ⟨rfl, rfl, rfl, fun _ mem => mem, nofun, .further (by rw [hpc]; rfl) rfl⟩
  · cases h

theorem still_reaped (h : reaped s = some t) : Still s t := by
  simp only [reaped] at h
  split at h
  · rename_i limit reason _ hpc _
    cases h
    exact still_goto (.further (by rw [hpc]; rfl) rfl)
  · rename_i reason _ hpc _
    cases h
    exact still_goto (.further (by rw [hpc]; rfl) rfl)
  · cases h

theorem still_collected (h : collected s = some (t, es)) :
    Still s t ∧ ∃ outcome, es = [.ended outcome] := by
  simp only [collected] at h
  split at h
  · rename_i status hpc
    obtain ⟨result, hc, he⟩ := Option.map_eq_some_iff.mp h
    obtain ⟨rfl, rfl⟩ := Prod.mk.inj he
    refine ⟨?_, _, rfl⟩
    cases result with
    | error error => exact still_leave .failed
    | ok output => exact still_leave (.finished (Or.inr ⟨status, hpc, rfl⟩) hc)
  · rename_i reason hpc
    obtain ⟨result, hc, he⟩ := Option.map_eq_some_iff.mp h
    obtain ⟨rfl, rfl⟩ := Prod.mk.inj he
    refine ⟨?_, _, rfl⟩
    cases result with
    | error error => exact still_leave .failed
    | ok output => exact still_leave (.finished (Or.inl hpc) hc)
  · cases h

theorem flow_readPipe {stream : Stream} {count : Nat}
    (h : readPipe s stream count = some (t, es)) : Flow s (.task (.read stream count)) t es := by
  simp only [readPipe] at h
  split at h
  · rename_i unread output pipe
    split at h
    · rename_i fits
      split at h
      · rename_i short
        obtain ⟨rfl, rfl⟩ := Prod.mk.inj (Option.some.inj h)
        exact .exceeded pipe fits.2.2 short
      · rename_i enough
        have whole : reserve s count = count := by
          have bound : reserve s count ≤ count := by
            rw [reserve]
            split
            · exact Nat.le_refl _
            · exact Nat.min_le_right _ _
          omega
        rw [whole, List.take_of_length_le (List.length_take_le count unread)] at h
        obtain ⟨rfl, rfl⟩ := Prod.mk.inj (Option.some.inj h)
        exact .kept pipe fits.1 fits.2.2 whole
    · cases h
  · cases h

theorem flow_eof {stream : Stream} (h : eof s stream = some t) :
    Flow s (.task (.eof stream)) t [] := by
  simp only [eof] at h
  split at h
  · rename_i output pipe
    split at h
    · cases h
    · cases h
      exact .ended pipe
  · cases h

/-- A step that reads and writes nothing. -/
theorem Flow.of_still {task : Task} (still : Still s t)
    (quiet : es = [] ∨ ∃ outcome, es = [.ended outcome]) : Flow s (.task task) t es := by
  refine .still still ?_ (fun _ _ _ => nofun)
  intro stream bytes mem
  rcases quiet with rfl | ⟨outcome, rfl⟩
  · cases mem
  · cases List.mem_singleton.mp mem

theorem flow_task {task : Task} (h : taskStep s task = some (t, es)) :
    Flow s (.task task) t es := by
  have silent : ∀ {next : Option State}, quiet next = some (t, es) → next = some t ∧ es = [] := by
    intro next hq
    obtain ⟨m, hm, he⟩ := Option.map_eq_some_iff.mp hq
    obtain ⟨rfl, rfl⟩ := Prod.mk.inj he
    exact ⟨hm, rfl⟩
  cases task with
  | check =>
    simp only [taskStep] at h
    split at h
    · rename_i hpc
      obtain ⟨rfl, rfl⟩ := Prod.mk.inj (Option.some.inj h)
      exact .of_still (still_check hpc) (Or.inl rfl)
    · cases h
  | checkFailed source =>
    simp only [taskStep] at h
    split at h
    · obtain ⟨rfl, rfl⟩ := Prod.mk.inj (Option.some.inj h)
      exact .of_still (still_leave .failed) (Or.inr ⟨_, rfl⟩)
    · cases h
  | timer => exact .of_still (still_timer (silent h).1) (Or.inl (silent h).2)
  | shutdownChanged => exact .of_still (still_shutdownChanged (silent h).1) (Or.inl (silent h).2)
  | limitReceived => exact .of_still (still_limitReceived (silent h).1) (Or.inl (silent h).2)
  | signal error =>
    obtain ⟨m, hm, he⟩ := Option.map_eq_some_iff.mp h
    cases error with
    | some source =>
      obtain ⟨rfl, rfl⟩ := Prod.mk.inj he
      exact .of_still (still_leave .failed) (Or.inr ⟨_, rfl⟩)
    | none =>
      obtain ⟨rfl, rfl⟩ := Prod.mk.inj he
      exact .of_still (still_signalled hm) (Or.inl rfl)
  | reaped => exact .of_still (still_reaped (silent h).1) (Or.inl (silent h).2)
  | waitFailed source =>
    simp only [taskStep, waitFailed] at h
    split at h
    · obtain ⟨rfl, rfl⟩ := Prod.mk.inj (Option.some.inj h)
      exact .of_still (still_leave .failed) (Or.inr ⟨_, rfl⟩)
    · obtain ⟨rfl, rfl⟩ := Prod.mk.inj (Option.some.inj h)
      exact .of_still (still_leave .failed) (Or.inr ⟨_, rfl⟩)
    · cases h
  | collected => exact .of_still (still_collected h).1 (Or.inr (still_collected h).2)
  | read stream count => exact flow_readPipe h
  | eof stream =>
    obtain ⟨done, rfl⟩ := silent h
    exact flow_eof done
  | readFailed stream source =>
    simp only [taskStep] at h
    split at h
    · rename_i reading
      obtain ⟨rfl, rfl⟩ := Prod.mk.inj (Option.some.inj h)
      exact .broke reading rfl
    · cases h
  | readPanicked stream source =>
    simp only [taskStep] at h
    split at h
    · rename_i reading
      obtain ⟨rfl, rfl⟩ := Prod.mk.inj (Option.some.inj h)
      exact .broke reading rfl
    · cases h

theorem flow_of_step (h : step s label = some (t, es)) : Flow s label t es := by
  have beside : ∀ {u : State}, u.pipes = s.pipes → u.limit = s.limit → u.used = s.used →
      u.limitSent = s.limitSent → u.status = s.status → u.pc = s.pc → Still s u :=
    fun pipes limit used sent status pc =>
      ⟨pipes, limit, used, fun _ mem => sent ▸ mem, fun _ => status, pc ▸ .same⟩
  cases label with
  | task task => exact flow_task h
  | drop =>
    simp only [step] at h
    split at h
    · obtain ⟨rfl, rfl⟩ := Prod.mk.inj (Option.some.inj h)
      refine .still (still_leave .dropped) (fun _ _ mem => ?_) (fun _ _ _ => nofun)
      cases List.mem_singleton.mp mem
    · cases h
  | process move =>
    obtain ⟨tree, hm, he⟩ := Option.map_eq_some_iff.mp h
    obtain ⟨rfl, rfl⟩ := Prod.mk.inj he
    exact .still (beside rfl rfl rfl rfl rfl rfl) nofun (fun _ _ _ => nofun)
  | write who stream bytes =>
    simp only [step] at h
    split at h
    · rename_i allowed
      obtain ⟨rfl, rfl⟩ := Prod.mk.inj (Option.some.inj h)
      exact .wrote (Bool.and_eq_true_iff.mp allowed).1
    · cases h
  | shellExits status =>
    simp only [step] at h
    split at h
    · obtain ⟨rfl, rfl⟩ := Prod.mk.inj (Option.some.inj h)
      exact .exited
    · cases h
  | setShutdown value =>
    obtain ⟨rfl, rfl⟩ := Prod.mk.inj (Option.some.inj h)
    exact .still (beside rfl rfl rfl rfl rfl rfl) nofun (fun _ _ _ => nofun)
  | dropShutdown =>
    obtain ⟨rfl, rfl⟩ := Prod.mk.inj (Option.some.inj h)
    exact .still (beside rfl rfl rfl rfl rfl rfl) nofun (fun _ _ _ => nofun)
  | advance duration =>
    simp only [step] at h
    split at h
    · obtain ⟨rfl, rfl⟩ := Prod.mk.inj (Option.some.inj h)
      exact .still (beside rfl rfl rfl rfl rfl rfl) nofun (fun _ _ _ => nofun)
    · cases h

/-- What the shared budget grants of all that is read. -/
def granted (limit : Option Nat) (total : Nat) : Nat :=
  match limit with
  | none => total
  | some most => min most total

/-- How a pipe and its reader task stand to what was read and written. -/
inductive Tape (captured : Bool) (limit : Option Nat) (labels : List Label) (tr : List Event)
    (stream : Stream) : Pipe → Prop where
  | absent {unread : List UInt8} : captured = false → readBytes tr stream = [] →
      written labels stream = [] → Tape captured limit labels tr stream ⟨unread, .absent⟩
  | reading {unread output : List UInt8} : readBytes tr stream = output →
      written labels stream = output ++ unread →
      Tape captured limit labels tr stream ⟨unread, .reading output⟩
  | complete {unread output : List UInt8} : readBytes tr stream = output →
      written labels stream = output → .task (.eof stream) ∈ labels →
      Tape captured limit labels tr stream ⟨unread, .finished (.ok output)⟩
  | truncated {unread : List UInt8} {exceeded : PipeLimitExceeded} :
      exceeded.output <+: readBytes tr stream → readBytes tr stream <+: written labels stream →
      Exceeds limit tr →
      Tape captured limit labels tr stream ⟨unread, .finished (.error (.tooLarge exceeded))⟩
  | broken {unread : List UInt8} {task : PipeTask} : task.broken = true →
      Tape captured limit labels tr stream ⟨unread, task⟩

def State.keptTotal (s : State) : Nat :=
  (s.pipes .stdout).task.kept.length + (s.pipes .stderr).task.kept.length

/-- The books of the reader tasks. -/
structure Ledger (captured : Stream → Bool) (limit : Option Nat) (labels : List Label)
    (tr : List Event) (s : State) : Prop where
  shared : s.limit = limit
  used : s.used = granted limit (readTotal tr)
  sent : ∀ exceeded ∈ s.limitSent, Exceeds limit tr
  tape : ∀ stream, Tape (captured stream) limit labels tr stream (s.pipes stream)
  kept : (∀ stream, (s.pipes stream).task.broken = false) → s.keptTotal = s.used
  stopped : Exceeds limit tr →
    ∃ stream exceeded, (s.pipes stream).task = .finished (.error (.tooLarge exceeded))

variable {captured : Stream → Bool} {limit : Option Nat} {labels : List Label} {tr : List Event}
  {stream other : Stream} {pipe : Pipe} {total : Nat}

@[simp] theorem setPipe_pipes (s : State) (stream : Stream) (pipe : Pipe) (other : Stream) :
    (s.setPipe stream pipe).pipes other = if other = stream then pipe else s.pipes other := by
  simp [State.setPipe, Function.update_apply]

theorem keptTotal_setPipe (s : State) (stream : Stream) (pipe : Pipe) :
    (s.setPipe stream pipe).keptTotal + (s.pipes stream).task.kept.length
      = s.keptTotal + pipe.task.kept.length := by
  cases stream <;> simp [State.keptTotal] <;> omega

theorem Exceeds.append (h : Exceeds limit tr) : Exceeds limit (tr ++ es) := by
  obtain ⟨most, same, more⟩ := h
  refine ⟨most, same, ?_⟩
  simp only [readTotal, readBytes_append, List.length_append] at more ⊢
  omega

theorem readTotal_quiet (quiet : ∀ stream, readBytes es stream = []) :
    readTotal (tr ++ es) = readTotal tr := by
  simp [readTotal, quiet]

/-- What the budget still grants is what it grants of one read more. -/
theorem granted_add (hl : s.limit = limit) (hu : s.used = granted limit total) (count : Nat) :
    granted limit (total + count) = s.used + reserve s count := by
  rw [reserve, hl, hu]
  cases limit with
  | none => rfl
  | some most =>
    simp only [granted]
    omega

theorem reserve_lt_iff (hl : s.limit = limit) (hu : s.used = granted limit total) {count : Nat}
    (pos : 0 < count) :
    reserve s count < count ↔ ∃ most, limit = some most ∧ most < total + count := by
  rw [reserve, hl, hu]
  cases limit with
  | none => simp
  | some most =>
    simp only [granted, Option.some.injEq, exists_eq_left']
    omega

theorem Tape.carry (h : Tape (captured stream) limit labels tr stream pipe)
    (read : readBytes (tr ++ es) stream = readBytes tr stream)
    (wrote : written (labels ++ [label]) stream = written labels stream) :
    Tape (captured stream) limit (labels ++ [label]) (tr ++ es) stream pipe := by
  cases h with
  | absent off none unwritten => exact .absent off (read.trans none) (wrote.trans unwritten)
  | reading same rest => exact .reading (read.trans same) (wrote.trans rest)
  | complete same rest closed =>
    exact .complete (read.trans same) (wrote.trans rest) (List.mem_append_left _ closed)
  | truncated part rest more =>
    exact .truncated (read ▸ part) (read.symm ▸ wrote.symm ▸ rest) more.append
  | broken h => exact .broken h

/-- The reader task of an open pipe is reading. -/
theorem Tape.of_reads (h : Tape (captured stream) limit labels tr stream (s.pipes stream))
    (reading : s.reads stream = true) :
    ∃ unread, s.pipes stream = ⟨unread, .reading (readBytes tr stream)⟩ ∧
      written labels stream = readBytes tr stream ++ unread := by
  simp only [State.reads] at reading
  generalize hp : s.pipes stream = pipe at h reading
  cases h with
  | reading same rest => exact ⟨_, by rw [same], same ▸ rest⟩
  | absent => cases reading
  | complete => cases reading
  | truncated => cases reading
  | broken h =>
    split at reading
    · rename_i eq
      obtain rfl : _ = PipeTask.reading _ := eq
      cases h
    · cases reading

/-- Only one pipe changes, and only its stream is read from or written to. -/
theorem tape_setPipe
    (old : ∀ stream, Tape (captured stream) limit labels tr stream (s.pipes stream))
    (new : Tape (captured other) limit (labels ++ [label]) (tr ++ es) other pipe)
    (read : ∀ stream, stream ≠ other → readBytes es stream = [])
    (wrote : ∀ stream, stream ≠ other → written [label] stream = []) (stream : Stream) :
    Tape (captured stream) limit (labels ++ [label]) (tr ++ es) stream
      ((s.setPipe other pipe).pipes stream) := by
  rw [setPipe_pipes]
  split
  · rename_i same
    exact same ▸ new
  · rename_i differs
    exact (old stream).carry (by rw [readBytes_append, read stream differs, List.append_nil])
      (by rw [written_append, wrote stream differs, List.append_nil])

/-- A reader task that has stopped at the limit is not the one that reads. -/
theorem stopped_setPipe (old : ∃ stream exceeded,
      (s.pipes stream).task = .finished (.error (.tooLarge exceeded)))
    (reading : s.reads other = true) : ∃ stream exceeded,
      ((s.setPipe other pipe).pipes stream).task = .finished (.error (.tooLarge exceeded)) := by
  obtain ⟨stream, exceeded, stopped⟩ := old
  refine ⟨stream, exceeded, ?_⟩
  rw [setPipe_pipes]
  split
  · rename_i same
    subst same
    simp [State.reads, stopped] at reading
  · exact stopped

theorem reads_of_pipe {unread output : List UInt8} (h : s.pipes stream = ⟨unread, .reading output⟩) :
    s.reads stream = true := by
  simp [State.reads, h]

theorem unbroken_before (reading : s.reads other = true)
    (sound : ∀ stream, ((s.setPipe other pipe).pipes stream).task.broken = false)
    (stream : Stream) : (s.pipes stream).task.broken = false := by
  have now := sound stream
  rw [setPipe_pipes] at now
  split at now
  · rename_i same
    subst same
    simp only [State.reads] at reading
    split at reading
    · rename_i task
      rw [task]
      rfl
    · cases reading
  · exact now

variable (old : Ledger captured limit labels tr s)
include old

theorem ledger_still (pipes : t.pipes = s.pipes) (shared : t.limit = s.limit)
    (used : t.used = s.used) (sent : ∀ exceeded ∈ t.limitSent, exceeded ∈ s.limitSent)
    (quiet : ∀ stream, readBytes es stream = []) (silent : ∀ stream, written [label] stream = []) :
    Ledger captured limit (labels ++ [label]) (tr ++ es) t where
  shared := shared.trans old.shared
  used := by rw [used, old.used, readTotal_quiet quiet]
  sent := fun exceeded mem => (old.sent exceeded (sent exceeded mem)).append
  tape := by
    intro stream
    rw [pipes]
    exact (old.tape stream).carry (by simp [quiet]) (by simp [silent])
  kept := by
    rw [pipes, used, State.keptTotal, pipes]
    exact old.kept
  stopped := by
    rintro ⟨most, same, more⟩
    rw [readTotal_quiet quiet] at more
    rw [pipes]
    exact old.stopped ⟨most, same, more⟩

theorem ledger_kept {count : Nat} {unread output : List UInt8}
    (hp : s.pipes stream = ⟨unread, .reading output⟩) (pos : 0 < count)
    (fits : count ≤ unread.length) (whole : reserve s count = count) :
    Ledger captured limit (labels ++ [.task (.read stream count)])
      (tr ++ [.read stream (unread.take count)])
      ({ s with used := s.used + count }.setPipe stream
        ⟨unread.drop count, .reading (output ++ unread.take count)⟩) := by
  have total : readTotal (tr ++ [.read stream (unread.take count)]) = readTotal tr + count := by
    rw [readTotal_read, List.length_take_of_le fits]
  obtain ⟨rest, same, wrote⟩ := (old.tape stream).of_reads (reads_of_pipe hp)
  obtain ⟨rfl, rfl⟩ : unread = rest ∧ output = readBytes tr stream := by
    simpa using hp.symm.trans same
  refine ⟨old.shared, ?_, fun e mem => (old.sent e mem).append, ?_, ?_, ?_⟩
  · change s.used + count = _
    rw [total, granted_add old.shared old.used, whole]
  · refine tape_setPipe (s := { s with used := s.used + count }) old.tape (.reading ?_ ?_) ?_ ?_
    · simp
    · simp [wrote]
    · intro other differs
      simp [differs.symm]
    · intro other differs
      rfl
  · intro sound
    have before := unbroken_before (reads_of_pipe hp) sound
    have sum := keptTotal_setPipe { s with used := s.used + count } stream
      ⟨unread.drop count, .reading (readBytes tr stream ++ unread.take count)⟩
    have hk := old.kept before
    simp only [hp, PipeTask.kept, List.length_append, List.length_take_of_le fits] at sum
    change _ = s.used + count
    have same : State.keptTotal { s with used := s.used + count } = s.keptTotal := rfl
    omega
  · rintro ⟨most, hl, more⟩
    rw [total] at more
    have short := (reserve_lt_iff old.shared old.used pos).mpr ⟨most, hl, more⟩
    omega

theorem ledger_exceeded {count : Nat} {unread output : List UInt8} {exceeded : PipeLimitExceeded}
    (hp : s.pipes stream = ⟨unread, .reading output⟩) (fits : count ≤ unread.length)
    (short : reserve s count < count)
    (kept : exceeded.output = output ++ (unread.take count).take (reserve s count)) :
    Ledger captured limit (labels ++ [.task (.read stream count)])
      (tr ++ [.read stream (unread.take count)])
      { { s with used := s.used + reserve s count }.setPipe stream
          ⟨unread.drop count, .finished (.error (.tooLarge exceeded))⟩ with
        limitSent := s.limitSent ++ [exceeded] } := by
  have total : readTotal (tr ++ [.read stream (unread.take count)]) = readTotal tr + count := by
    rw [readTotal_read, List.length_take_of_le fits]
  have more : Exceeds limit (tr ++ [.read stream (unread.take count)]) := by
    obtain ⟨most, hl, more⟩ := (reserve_lt_iff old.shared old.used (by omega)).mp short
    exact ⟨most, hl, total ▸ more⟩
  obtain ⟨rest, same, wrote⟩ := (old.tape stream).of_reads (reads_of_pipe hp)
  obtain ⟨rfl, rfl⟩ : unread = rest ∧ output = readBytes tr stream := by
    simpa using hp.symm.trans same
  refine ⟨old.shared, ?_, fun _ _ => more, ?_, ?_, fun _ => ⟨stream, exceeded, ?_⟩⟩
  · change s.used + reserve s count = _
    rw [total, granted_add old.shared old.used]
  · refine tape_setPipe (s := { s with used := s.used + reserve s count }) old.tape
      (.truncated ?_ ?_ more) ?_ ?_
    · rw [kept, readBytes_append, readBytes_read, if_pos rfl]
      exact List.prefix_append_right_inj _ |>.mpr (List.take_prefix _ _)
    · simp only [readBytes_append, readBytes_read, if_pos, written_append, written_task, wrote,
        List.append_nil]
      exact List.prefix_append_right_inj _ |>.mpr (List.take_prefix _ _)
    · intro other differs
      simp [differs.symm]
    · intro other differs
      rfl
  · intro sound
    have hk := old.kept (unbroken_before (reads_of_pipe hp) sound)
    have sum := keptTotal_setPipe { s with used := s.used + reserve s count } stream
      ⟨unread.drop count, .finished (.error (.tooLarge exceeded))⟩
    have part : ((unread.take count).take (reserve s count)).length = reserve s count := by
      simp only [List.length_take]
      omega
    simp only [hp, PipeTask.kept, kept, List.length_append, part] at sum
    change State.keptTotal (State.setPipe _ _ _) = s.used + reserve s count
    have same : State.keptTotal { s with used := s.used + reserve s count } = s.keptTotal := rfl
    omega
  · change ((State.setPipe _ _ _).pipes stream).task = _
    rw [setPipe_pipes, if_pos rfl]

/-- One pipe changes without a read. -/
theorem ledger_setPipe (reading : s.reads stream = true)
    (silent : ∀ other, other ≠ stream → written [label] other = [])
    (tape : Tape (captured stream) limit (labels ++ [label]) (tr ++ []) stream pipe)
    (kept : pipe.task.broken = false → pipe.task.kept = (s.pipes stream).task.kept) :
    Ledger captured limit (labels ++ [label]) (tr ++ []) (s.setPipe stream pipe) := by
  refine ⟨old.shared, ?_, fun e mem => (old.sent e mem).append,
    tape_setPipe old.tape tape (fun _ _ => rfl) silent, ?_, ?_⟩
  · rw [List.append_nil]
    exact old.used
  · intro sound
    have own := sound stream
    rw [setPipe_pipes, if_pos rfl] at own
    have hk := old.kept (unbroken_before reading sound)
    have sum := keptTotal_setPipe s stream pipe
    have same : pipe.task.kept.length = (s.pipes stream).task.kept.length := by rw [kept own]
    change (s.setPipe stream pipe).keptTotal = s.used
    omega
  · intro more
    rw [List.append_nil] at more
    exact stopped_setPipe (old.stopped more) reading

theorem ledger_flow (flow : Flow s label t es) :
    Ledger captured limit (labels ++ [label]) (tr ++ es) t := by
  cases flow with
  | still still quiet silent =>
    exact ledger_still old still.pipes still.limit still.used still.sent
      (readBytes_quiet quiet) (written_silent silent)
  | exited => exact ledger_still old rfl rfl rfl (fun _ mem => mem) (fun _ => rfl) (fun _ => rfl)
  | kept hp pos fits whole => exact ledger_kept old hp pos fits whole
  | exceeded hp fits short => exact ledger_exceeded old hp fits short rfl
  | ended hp =>
    obtain ⟨unread, same, wrote⟩ := (old.tape _).of_reads (reads_of_pipe hp)
    obtain ⟨rfl, rfl⟩ : [] = unread ∧ _ = readBytes tr _ := by simpa using hp.symm.trans same
    refine ledger_setPipe old (reads_of_pipe hp) (fun _ _ => rfl) (.complete ?_ ?_ ?_) ?_
    · rw [List.append_nil]
    · simp [wrote]
    · exact List.mem_append_right _ (List.mem_singleton.mpr rfl)
    · intro _
      rw [hp]
      rfl
  | broke reading broken =>
    refine ledger_setPipe old reading (fun _ _ => rfl) (.broken broken) ?_
    intro sound
    cases broken.symm.trans sound
  | @wrote who stream bytes reading =>
    obtain ⟨unread, same, wrote⟩ := (old.tape stream).of_reads reading
    rw [same]
    refine ledger_setPipe old reading ?_ (.reading ?_ ?_) ?_
    · intro other differs
      simp [differs.symm]
    · rw [List.append_nil]
    · simp [wrote]
    · intro _
      rw [same]

omit old

def ShellCapturedOutput.bytes (output : ShellCapturedOutput) : Stream → List UInt8
  | .stdout => output.stdout
  | .stderr => output.stderr

def ShellCapturedOutput.truncated (output : ShellCapturedOutput) : Stream → Bool
  | .stdout => output.stdoutTruncated
  | .stderr => output.stderrTruncated

def ShellRun.output : ShellRun → ShellCapturedOutput
  | .completed _ output => output
  | .timedOut output => output
  | .cancelled output => output
  | .outputLimitExceeded _ _ output => output

def ShellRun.isExcess : ShellRun → Bool
  | .outputLimitExceeded _ _ _ => true
  | _ => false

/-- What the result of a run says about what was read and written. -/
structure Classified (captured : Stream → Bool) (limit : Option Nat) (labels : List Label)
    (tr : List Event) (result : ShellRun) : Prop where
  prefixes : ∀ stream, result.output.bytes stream <+: readBytes tr stream ∧
    readBytes tr stream <+: written labels stream
  accounted : result.output.stdout.length + result.output.stderr.length
    = granted limit (readTotal tr)
  excess : result.isExcess = true ↔ Exceeds limit tr
  complete : ∀ stream, result.output.truncated stream = false →
    result.output.bytes stream = written labels stream ∧
      (captured stream = true → .task (.eof stream) ∈ labels)
  completed : ∀ status output, result = .completed status output →
    .shellExits status ∈ labels ∧ ∀ stream, output.truncated stream = false
  unlimited : limit = none → ∀ stream, result.output.truncated stream = false

/-- What is collected of one pipe. -/
structure Collected (captured : Bool) (limit : Option Nat) (labels : List Label) (tr : List Event)
    (stream : Stream) (task : PipeTask) (output : PipeOutput) : Prop where
  kept : task.kept = output.bytes
  unbroken : task.broken = false
  prefixes : output.bytes <+: readBytes tr stream ∧ readBytes tr stream <+: written labels stream
  truncated : output.truncated = true → Exceeds limit tr
  stopped : (∃ exceeded, task = .finished (.error (.tooLarge exceeded))) → output.truncated = true
  complete : output.truncated = false → output.bytes = written labels stream ∧
    (captured = true → .task (.eof stream) ∈ labels)

theorem collected_of_tape {output : PipeOutput}
    (tape : Tape (captured stream) limit labels tr stream pipe)
    (h : collectPipe pipe.task = some (.ok output)) :
    Collected (captured stream) limit labels tr stream pipe.task output := by
  cases tape with
  | absent off none unwritten =>
    cases h
    exact ⟨rfl, rfl, by simp [PipeOutput.bytes, none], nofun, nofun,
      fun _ => ⟨unwritten.symm, fun on => absurd (off.symm.trans on) nofun⟩⟩
  | reading => cases h
  | complete same rest closed =>
    cases h
    exact ⟨rfl, rfl, by simp [PipeOutput.bytes, same, rest], nofun, nofun,
      fun _ => ⟨rest.symm, fun _ => closed⟩⟩
  | truncated part rest more =>
    cases h
    exact ⟨rfl, rfl, ⟨part, rest⟩, fun _ => more, fun _ => rfl, nofun⟩
  | @broken unread task broken =>
    dsimp only at h
    cases task with
    | absent => cases broken
    | reading output => cases broken
    | panicked source => cases h
    | finished result =>
      cases result with
      | ok output => cases broken
      | error error =>
        cases error with
        | io source => cases h
        | tooLarge exceeded => cases broken

theorem collect_parts {output : CollectedOutput} (h : s.collect = some (.ok output)) :
    ∃ out err, collectPipe (s.pipes .stdout).task = some (.ok out) ∧
      collectPipe (s.pipes .stderr).task = some (.ok err) ∧ output = mergeOutputs out err := by
  rw [State.collect, collectCapturedOutput] at h
  cases first : collectPipe (s.pipes .stdout).task with
  | none =>
    rw [first] at h
    cases h
  | some result =>
    rw [first] at h
    cases result with
    | error error => cases h
    | ok out =>
      obtain ⟨second, hs, same⟩ := Option.map_eq_some_iff.mp h
      cases second with
      | error error => cases same
      | ok err =>
        cases same
        exact ⟨out, err, rfl, hs, rfl⟩

def CollectedOutput.output : CollectedOutput → ShellCapturedOutput
  | .captured output => output
  | .tooLarge _ output => output

@[simp] theorem mergeOutputs_output (out err : PipeOutput) :
    (mergeOutputs out err).output = ⟨out.bytes, err.bytes, out.truncated, err.truncated⟩ := by
  cases out <;> cases err <;> rfl

@[simp] theorem finishShellRun_output (reason : End) (output : CollectedOutput) :
    (finishShellRun reason output).output = output.output := by
  cases reason <;> cases output <;> rfl

/-- An excess is reported for its own sake, or since a task was stopped by it. -/
theorem finishShellRun_isExcess (reason : End) (out err : PipeOutput) :
    (finishShellRun reason (mergeOutputs out err)).isExcess = true ↔
      (∃ first, reason = .outputLimitExceeded first) ∨ out.truncated = true ∨
        err.truncated = true := by
  cases reason <;> cases out <;> cases err <;>
    simp [mergeOutputs, finishShellRun, ShellRun.isExcess, PipeOutput.truncated]

theorem finishShellRun_completed {reason : End} {out err : PipeOutput} {status : ExitStatus}
    {output : ShellCapturedOutput}
    (h : finishShellRun reason (mergeOutputs out err) = .completed status output) :
    reason = .completed status ∧ out.truncated = false ∧ err.truncated = false ∧
      output = (mergeOutputs out err).output := by
  cases reason <;> cases out <;> cases err <;> cases h
  exact ⟨rfl, rfl, rfl, rfl⟩

/-- A reason to end the run with. -/
def Backed (limit : Option Nat) (labels : List Label) (tr : List Event) : End → Prop
  | .completed status => .shellExits status ∈ labels
  | .outputLimitExceeded _ => Exceeds limit tr
  | .timedOut | .cancelled => True

theorem classified_of_collect {reason : End} {output : CollectedOutput}
    (old : Ledger captured limit labels tr s) (h : s.collect = some (.ok output))
    (backed : Backed limit labels tr reason) :
    Classified captured limit labels tr (finishShellRun reason output) := by
  obtain ⟨out, err, first, second, rfl⟩ := collect_parts h
  have one := collected_of_tape (old.tape .stdout) first
  have two := collected_of_tape (old.tape .stderr) second
  have stops : Exceeds limit tr → out.truncated = true ∨ err.truncated = true := by
    intro more
    obtain ⟨stream, exceeded, stopped⟩ := old.stopped more
    cases stream with
    | stdout => exact Or.inl (one.stopped ⟨exceeded, stopped⟩)
    | stderr => exact Or.inr (two.stopped ⟨exceeded, stopped⟩)
  refine ⟨?_, ?_, ?_, ?_, ?_, ?_⟩
  · intro stream
    rw [finishShellRun_output, mergeOutputs_output]
    cases stream with
    | stdout => exact one.prefixes
    | stderr => exact two.prefixes
  · have sum := old.kept fun stream => by
      cases stream with
      | stdout => exact one.unbroken
      | stderr => exact two.unbroken
    rw [State.keptTotal, one.kept, two.kept, old.used] at sum
    rw [finishShellRun_output, mergeOutputs_output]
    exact sum
  · rw [finishShellRun_isExcess]
    constructor
    · rintro (⟨first, rfl⟩ | cut | cut)
      · exact backed
      · exact one.truncated cut
      · exact two.truncated cut
    · exact fun more => Or.inr (stops more)
  · intro stream whole
    rw [finishShellRun_output, mergeOutputs_output] at whole ⊢
    cases stream with
    | stdout => exact one.complete whole
    | stderr => exact two.complete whole
  · intro status output same
    obtain ⟨rfl, full, also, rfl⟩ := finishShellRun_completed same
    refine ⟨backed, fun stream => ?_⟩
    rw [mergeOutputs_output]
    cases stream with
    | stdout => exact full
    | stderr => exact also
  · intro unlimited stream
    have never : ¬ Exceeds limit tr := by
      rintro ⟨most, same, -⟩
      cases unlimited.symm.trans same
    rw [finishShellRun_output, mergeOutputs_output]
    cases stream with
    | stdout => exact Bool.eq_false_iff.mpr fun cut => never (one.truncated cut)
    | stderr => exact Bool.eq_false_iff.mpr fun cut => never (two.truncated cut)

theorem Classified.carry {result : ShellRun} (h : Classified captured limit labels tr result)
    (read : ∀ stream, readBytes es stream = []) (wrote : ∀ stream, written [label] stream = []) :
    Classified captured limit (labels ++ [label]) (tr ++ es) result := by
  have same : readTotal (tr ++ es) = readTotal tr := readTotal_quiet read
  refine ⟨?_, ?_, ?_, ?_, ?_, h.unlimited⟩
  · intro stream
    rw [readBytes_append, read, written_append, wrote, List.append_nil, List.append_nil]
    exact h.prefixes stream
  · rw [same]
    exact h.accounted
  · rw [h.excess, Exceeds, Exceeds, same]
  · intro stream whole
    obtain ⟨all, closed⟩ := h.complete stream whole
    rw [written_append, wrote, List.append_nil]
    exact ⟨all, fun on => List.mem_append_left _ (closed on)⟩
  · intro status output eq
    obtain ⟨exits, full⟩ := h.completed status output eq
    exact ⟨List.mem_append_left _ exits, full⟩

/-- How far the run has come, with what backs it. -/
structure Course (captured : Stream → Bool) (limit : Option Nat) (labels : List Label)
    (tr : List Event) (s : State) : Prop where
  early : s.pc.early = true → ∀ status, s.status = some status → .shellExits status ∈ labels
  exit : ∀ status, s.pc = .afterExit status → .shellExits status ∈ labels
  reason : ∀ reason, s.pc.reason = some reason → Backed limit labels tr reason
  finished : ∀ result, s.pc = .gone (.returned (.ok result)) →
    Classified captured limit labels tr result ∧ ∀ stream, s.reads stream = false

theorem Backed.append {reason : End} (h : Backed limit labels tr reason) :
    Backed limit (labels ++ [label]) (tr ++ es) reason := by
  cases reason with
  | completed status => exact List.mem_append_left _ h
  | outputLimitExceeded first => exact Exceeds.append h
  | timedOut => trivial
  | cancelled => trivial

theorem reads_of_collect_ok {output : CollectedOutput} (h : s.collect = some (.ok output))
    (stream : Stream) : s.reads stream = false := by
  obtain ⟨out, err, first, second, -⟩ := collect_parts h
  have collected : ∃ result, collectPipe (s.pipes stream).task = some (.ok result) := by
    cases stream with
    | stdout => exact ⟨out, first⟩
    | stderr => exact ⟨err, second⟩
  obtain ⟨result, done⟩ := collected
  cases task : (s.pipes stream).task with
  | reading output =>
    rw [task] at done
    cases done
  | absent | finished | panicked => simp [State.reads, task]

theorem early_of_steer {pc : Pc} (steer : Steer s pc) (early : pc.early = true) :
    s.pc.early = true := by
  cases steer with
  | same => exact early
  | looped before => exact before
  | exited before => exact before
  | ending before => exact before
  | @further reason pc before after =>
    cases pc with
    | waiting | selecting | afterExit => cases after
    | terminating | collecting | gone => cases early
  | finished => cases early
  | failed => cases early
  | dropped => cases early

theorem reason_of_steer {pc : Pc} {reason : End} (ledger : Ledger captured limit labels tr s)
    (old : Course captured limit labels tr s) (steer : Steer s pc)
    (h : pc.reason = some reason) : Backed limit labels tr reason := by
  cases steer with
  | same => exact old.reason reason h
  | looped before after => rcases after with rfl | ⟨wakeAt, rfl⟩ <;> cases h
  | exited => cases h
  | ending before justified =>
    cases h
    cases reason with
    | completed status => exact justified.elim
    | outputLimitExceeded first => exact ledger.sent first justified
    | timedOut => trivial
    | cancelled => trivial
  | further before after =>
    cases after.symm.trans h
    exact old.reason reason before
  | finished => cases h
  | failed => cases h
  | dropped => cases h

theorem exit_of_steer {pc : Pc} {status : ExitStatus} (old : Course captured limit labels tr s)
    (steer : Steer s pc) (h : pc = .afterExit status) : .shellExits status ∈ labels := by
  cases steer with
  | same => exact old.exit status h
  | looped before after => rcases after with rfl | ⟨wakeAt, rfl⟩ <;> cases h
  | exited before exited =>
    cases h
    exact old.early before status exited
  | ending => cases h
  | further before after => rw [h] at after; cases after
  | finished => cases h
  | failed => cases h
  | dropped => cases h

theorem finished_of_steer {pc : Pc} {result : ShellRun}
    (ledger : Ledger captured limit labels tr s) (old : Course captured limit labels tr s)
    (steer : Steer s pc) (h : pc = .gone (.returned (.ok result))) :
    Classified captured limit labels tr result ∧ ∀ stream, s.reads stream = false := by
  cases steer with
  | same => exact old.finished result h
  | looped before after => rcases after with rfl | ⟨wakeAt, rfl⟩ <;> cases h
  | exited => cases h
  | ending => cases h
  | further before after => rw [h] at after; cases after
  | @finished reason output before collect =>
    cases h
    refine ⟨classified_of_collect ledger collect ?_, reads_of_collect_ok collect⟩
    rcases before with at_ | ⟨status, at_, rfl⟩
    · exact old.reason reason (by rw [at_]; rfl)
    · exact old.exit status at_
  | failed => cases h
  | dropped => cases h

theorem course_still (ledger : Ledger captured limit labels tr s)
    (old : Course captured limit labels tr s) (still : Still s t)
    (quiet : ∀ stream, readBytes es stream = []) (silent : ∀ stream, written [label] stream = []) :
    Course captured limit (labels ++ [label]) (tr ++ es) t where
  early := by
    intro early status exited
    rw [still.status early] at exited
    exact List.mem_append_left _ (old.early (early_of_steer still.steer early) status exited)
  exit := fun status h => List.mem_append_left _ (exit_of_steer old still.steer h)
  reason := fun reason h => (reason_of_steer ledger old still.steer h).append
  finished := by
    intro result h
    obtain ⟨classified, stopped⟩ := finished_of_steer ledger old still.steer h
    refine ⟨classified.carry quiet silent, fun stream => ?_⟩
    rw [State.reads, still.pipes]
    exact stopped stream

/-- While a task reads, the run is not over with a result. -/
theorem course_reading (old : Course captured limit labels tr s)
    (reading : s.reads stream = true) (hpc : t.pc = s.pc) (status : t.status = s.status) :
    Course captured limit (labels ++ [label]) (tr ++ es) t := by
  refine ⟨?_, ?_, ?_, ?_⟩
  · rw [hpc, status]
    exact fun early now exited => List.mem_append_left _ (old.early early now exited)
  · rw [hpc]
    exact fun now h => List.mem_append_left _ (old.exit now h)
  · rw [hpc]
    exact fun reason h => (old.reason reason h).append
  · rw [hpc]
    intro result h
    cases ((old.finished result h).2 stream).symm.trans reading

theorem course_flow (ledger : Ledger captured limit labels tr s)
    (old : Course captured limit labels tr s) (flow : Flow s label t es) :
    Course captured limit (labels ++ [label]) (tr ++ es) t := by
  cases flow with
  | still still quiet silent =>
    exact course_still ledger old still (readBytes_quiet quiet) (written_silent silent)
  | @exited status =>
    refine ⟨?_, ?_, ?_, ?_⟩
    · rintro - now exited
      cases exited
      exact List.mem_append_right _ (List.mem_singleton.mpr rfl)
    · exact fun now h => List.mem_append_left _ (old.exit now h)
    · exact fun reason h => (old.reason reason h).append
    · intro result h
      obtain ⟨classified, stopped⟩ := old.finished result h
      exact ⟨classified.carry (fun _ => rfl) (fun _ => rfl), stopped⟩
  | kept hp => exact course_reading old (reads_of_pipe hp) rfl rfl
  | exceeded hp => exact course_reading old (reads_of_pipe hp) rfl rfl
  | ended hp => exact course_reading old (reads_of_pipe hp) rfl rfl
  | broke reading => exact course_reading old reading rfl rfl
  | wrote reading => exact course_reading old reading rfl rfl

section Runs
variable {stdoutMode stderrMode : ShellStreamMode} {commandTimeout : Nat}
  {shutdown : Option (Watch Bool)}

theorem ledger_start (stdoutMode stderrMode : ShellStreamMode) (commandTimeout : Nat)
    (limit : Option Nat) (shutdown : Option (Watch Bool)) :
    Ledger (captures · stdoutMode stderrMode) limit [] []
      (State.start stdoutMode stderrMode commandTimeout limit shutdown) where
  shared := rfl
  used := by cases limit <;> simp [State.start, granted, readTotal, readBytes]
  sent := nofun
  tape := by
    intro stream
    cases on : captures stream stdoutMode stderrMode with
    | true =>
      simp only [State.start, on, if_true]
      exact .reading rfl rfl
    | false =>
      simp only [State.start, on, Bool.false_eq_true, if_false]
      exact .absent rfl rfl rfl
  kept := by
    have empty : ∀ captured : Bool,
        (if captured = true then PipeTask.reading [] else .absent).kept = [] := by
      intro captured
      cases captured <;> rfl
    intro _
    simp [State.keptTotal, State.start, empty]
  stopped := by
    rintro ⟨most, -, more⟩
    exact absurd more (Nat.not_lt_zero most)

theorem course_start (stdoutMode stderrMode : ShellStreamMode) (commandTimeout : Nat)
    (limit : Option Nat) (shutdown : Option (Watch Bool)) :
    Course (captures · stdoutMode stderrMode) limit [] []
      (State.start stdoutMode stderrMode commandTimeout limit shutdown) :=
  ⟨fun _ _ => nofun, fun _ => nofun, fun _ => nofun, fun _ => nofun⟩

theorem books_of_run (run : exec step
      (State.start stdoutMode stderrMode commandTimeout limit shutdown) labels = some (s, tr)) :
    Ledger (captures · stdoutMode stderrMode) limit labels tr s ∧
      Course (captures · stdoutMode stderrMode) limit labels tr s := by
  have all : Ledger (captures · stdoutMode stderrMode) limit ([] ++ labels) ([] ++ tr) s ∧
      Course (captures · stdoutMode stderrMode) limit ([] ++ labels) ([] ++ tr) s := by
    refine exec_history (P := fun as es v =>
      Ledger (captures · stdoutMode stderrMode) limit as es v ∧
        Course (captures · stdoutMode stderrMode) limit as es v) ?_
      ⟨ledger_start .., course_start ..⟩ run
    rintro as tr u label v es ⟨ledger, course⟩ hs
    exact ⟨ledger_flow ledger (flow_of_step hs), course_flow ledger course (flow_of_step hs)⟩
  exact all

end Runs

end ShellProcess

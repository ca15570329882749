import Mailwake.DaemonExitTasks

/-!
# What holds of the whole daemon

The code 78 is only used for a permanent failure, in every run; while no set-up fails,
a permanent failure is on its way to the exit code.
-/
namespace DaemonExit
open Transition
universe u
variable {ι : Type u} {s t : State ι} {tr es : List Exit} {i : ι}

/-- An exit code of 78 has a permanent failure behind it. -/
def Founded (s : State ι) (error : CodedExitError) : Prop :=
  error.code = reauthRequiredExitCode ∧ ∃ i, PermanentFailure (s.task i)

/-- Whatever the other sources do, the code 78 is only used for permanent failures. -/
structure Sound (tr : List Exit) (s : State ι) : Prop where
  tasks : ∀ i, TaskSound (s.task i)
  queued : ∀ error ∈ s.fatal, Founded s error
  leaving : ∀ error, s.pc = .stopping (.coded error) ∨ .coded error ∈ tr → Founded s error

/-- No set-up fails and no shutdown is requested. -/
def SetUpKept (s : State ι) : Label ι → Prop
  | .setUp i result => (s.task i).ready = .waiting → result = .ok ()
  | .crash i => (s.task i).ready ≠ .waiting
  | .signal => False
  | _ => True

/-- While no set-up fails, a permanent failure is on its way to the exit code. -/
structure Kept (tr : List Exit) (s : State ι) : Prop where
  tasks : s.shutdownSent = false → ∀ i, TaskKept (s.task i)
  reported : s.shutdownSent = false → ∀ i, (s.task i).supervised = true →
    PermanentFailure (s.task i) → s.fatal ≠ []
  exits : ∀ exit, s.pc = .stopping exit ∨ exit ∈ tr → ∃ error, exit = .coded error

theorem Founded.mono {error : CodedExitError} (h : Founded s error)
    (kept : ∀ j, PermanentFailure (s.task j) → PermanentFailure (t.task j)) : Founded t error := by
  obtain ⟨code, j, failure⟩ := h
  exact ⟨code, j, kept j failure⟩

theorem not_permanent_of_running {task : Task} (running : task.outcome = none) :
    ¬ PermanentFailure task := by
  rintro ⟨text, h⟩
  rw [running] at h
  cases h

/-- A step of the daemon alone. -/
theorem sound_daemon {fatal : List CodedExitError} {pc : Pc ι} (old : Sound tr s)
    (queued : ∀ error ∈ fatal, error ∈ s.fatal)
    (leaving : ∀ error, pc = .stopping (.coded error) ∨ .coded error ∈ es →
      Founded s error) : Sound (tr ++ es) { s with fatal := fatal, pc := pc } := by
  refine ⟨old.tasks, fun error h => old.queued error (queued error h), ?_⟩
  rintro error (h | h)
  · exact leaving error (Or.inl h)
  · rcases List.mem_append.mp h with h | h
    · exact old.leaving error (Or.inr h)
    · exact leaving error (Or.inr h)

theorem sound_fatal {error : CodedExitError} {rest : List CodedExitError} (old : Sound tr s)
    (queued : s.fatal = error :: rest) :
    Sound tr { s with fatal := rest, pc := .stopping (.coded error) } := by
  have founded := old.queued error (by simp [queued])
  have next : Sound (tr ++ []) { s with fatal := rest, pc := .stopping (.coded error) } := by
    refine sound_daemon old (fun e h => by simp [queued, h]) ?_
    rintro e (h | h)
    · cases h
      exact founded
    · cases h
  simpa using next

theorem sound_leave {exit : Exit} (old : Sound tr s)
    (founded : ∀ error, exit = .coded error → Founded s error) :
    Sound (tr ++ [exit]) (s.leave exit).1 := by
  refine sound_daemon old (fun _ h => h) ?_
  rintro error (h | h)
  · cases h
  · exact founded error (List.mem_singleton.mp h).symm

theorem sound_signal (old : Sound tr s) : Sound tr { s with pc := .stopping .ok } := by
  have next : Sound (tr ++ []) { s with pc := .stopping .ok } := by
    refine sound_daemon old (fun _ h => h) ?_
    rintro error (h | h) <;> cases h
  simpa using next

theorem awaiting_ne_stopping {rest : List ι} {exit : Exit} : awaiting rest ≠ .stopping exit := by
  cases rest <;> simp [awaiting]

theorem sound_ready {rest : List ι} (old : Sound tr s) (h : ready s i rest = some (t, es)) :
    Sound (tr ++ es) t := by
  simp only [ready] at h
  split at h
  · cases h
    refine sound_daemon old (fun _ h => h) ?_
    rintro error (h | h)
    · exact absurd h awaiting_ne_stopping
    · cases h
  · rename_i error hready
    cases h
    refine sound_leave old ?_
    intro coded hcoded
    obtain ⟨exit, he, code⟩ := setupExit_of_authText (authText_of_setupExit hcoded)
    rw [he] at hcoded
    cases hcoded
    exact ⟨code, i, (old.tasks i).refused error hready (authText_of_setupExit he)⟩
  · cases h
    exact sound_leave old (by simp)
  · cases h
  · cases h

/-- The daemon has turned to its shutdown, or leaves. -/
theorem kept_sent {fatal : List CodedExitError} {pc : Pc ι} (old : Kept tr s)
    (sent : (∃ exit, pc = .stopping exit) ∨ ∃ exit, pc = .returned exit)
    (exits : ∀ exit, pc = .stopping exit ∨ exit ∈ es → ∃ error, exit = .coded error) :
    Kept (tr ++ es) { s with fatal := fatal, pc := pc } := by
  have told : ({ s with fatal := fatal, pc := pc } : State ι).shutdownSent = true := by
    rcases sent with ⟨exit, rfl⟩ | ⟨exit, rfl⟩ <;> rfl
  refine ⟨fun unsent => ?_, fun unsent => ?_, ?_⟩
  · rw [told] at unsent
    cases unsent
  · rw [told] at unsent
    cases unsent
  · rintro exit (h | h)
    · exact exits exit (Or.inl h)
    · rcases List.mem_append.mp h with h | h
      · exact old.exits exit (Or.inr h)
      · exact exits exit (Or.inr h)

theorem kept_fatal {error : CodedExitError} {rest : List CodedExitError} (old : Kept tr s) :
    Kept tr { s with fatal := rest, pc := .stopping (.coded error) } := by
  have next : Kept (tr ++ []) { s with fatal := rest, pc := .stopping (.coded error) } := by
    refine kept_sent old (Or.inl ⟨_, rfl⟩) ?_
    rintro exit (h | h)
    · cases h
      exact ⟨error, rfl⟩
    · cases h
  simpa using next

theorem kept_ready {rest : List ι} (old : Kept tr s) (unsent : s.shutdownSent = false)
    (h : ready s i rest = some (t, es)) : Kept (tr ++ es) t := by
  have unspoiled := (old.tasks unsent i).unspoiled
  simp only [ready] at h
  split at h
  · cases h
    rw [List.append_nil]
    refine ⟨fun _ => old.tasks unsent, fun _ => old.reported unsent, ?_⟩
    rintro exit (h | h)
    · exact absurd h awaiting_ne_stopping
    · exact old.exits exit (Or.inr h)
  · rename_i error hready
    cases h
    obtain ⟨coded, he, -⟩ := setupExit_of_authText (unspoiled.2 error hready)
    refine kept_sent old (Or.inr ⟨_, rfl⟩) ?_
    rintro exit (h | h)
    · cases h
    · exact ⟨coded, (List.mem_singleton.mp h).trans he⟩
  · rename_i hready
    exact absurd hready unspoiled.1
  · cases h
  · cases h

section Steps
variable [DecidableEq ι]

@[simp] theorem put_task_same (task : Task) : (s.put i task).task i = task := if_pos rfl

@[simp] theorem put_task_other {j : ι} (h : j ≠ i) (task : Task) :
    (s.put i task).task j = s.task j := if_neg h

/-- A property of every task survives the change of one that has it. -/
theorem forall_put {P : Task → Prop} {task : Task} (all : ∀ j, P (s.task j)) (one : P task) :
    ∀ j, P ((s.put i task).task j) := by
  intro j
  by_cases h : j = i
  · subst h
    rwa [put_task_same]
  · rw [put_task_other h]
    exact all j

/-- A task that has failed stays as it has. -/
theorem permanent_put {task : Task} (kept : PermanentFailure (s.task i) → PermanentFailure task)
    {j : ι} (h : PermanentFailure (s.task j)) : PermanentFailure ((s.put i task).task j) := by
  by_cases own : j = i
  · subst own
    rw [put_task_same]
    exact kept h
  · rwa [put_task_other own]

/-- A step of the tasks alone. -/
theorem sound_put {task : Task} (old : Sound tr s) (sound : TaskSound task)
    (kept : PermanentFailure (s.task i) → PermanentFailure task) : Sound tr (s.put i task) := by
  have mono (j : ι) : PermanentFailure (s.task j) → PermanentFailure ((s.put i task).task j) :=
    permanent_put kept
  exact ⟨forall_put old.tasks sound, fun error h => (old.queued error h).mono mono,
    fun error h => (old.leaving error h).mono mono⟩

theorem sound_supervise (old : Sound tr s) (h : supervise s i = some (t, es)) :
    Sound (tr ++ es) t := by
  simp only [supervise] at h
  split at h
  · rename_i guard
    cases h
    have grown : Sound tr { s with fatal := s.fatal ++ (s.task i).fatal } := by
      refine ⟨old.tasks, ?_, old.leaving⟩
      intro error he
      rcases List.mem_append.mp he with he | he
      · exact old.queued error he
      · cases hout : (s.task i).outcome with
        | none => simp [Task.fatal, hout] at he
        | some outcome =>
          cases outcome with
          | stopped | crashed => simp [Task.fatal, hout] at he
          | failed permanent text =>
            obtain ⟨rfl, found, hf, code⟩ := (old.tasks i).failed permanent text hout
            rw [hf] at he
            obtain rfl := List.mem_singleton.mp he
            exact ⟨code, i, text, hout⟩
    have seen : TaskSound { s.task i with supervised := true } := by
      refine ⟨(old.tasks i).failed, (old.tasks i).refused, ?_⟩
      rintro - none
      rw [show (s.task i).outcome = .none from none] at guard
      cases guard
    rw [List.append_nil]
    exact sound_put (i := i) grown seen id
  · cases h

theorem sound_step {label : Label ι} (old : Sound tr s) (h : step s label = some (t, es)) :
    Sound (tr ++ es) t := by
  cases label with
  | watch i label text =>
    simp only [step, watch] at h
    split at h
    · cases h
    · rename_i guard
      obtain ⟨next, hn, heq⟩ := Option.map_eq_some_iff.mp h
      cases heq
      have running : (s.task i).outcome = none := by
        cases ho : (s.task i).outcome <;> simp [ho] at guard ⊢
      rw [List.append_nil]
      exact sound_put old (taskSound_moved (old.tasks i) running hn)
        fun failure => absurd failure (not_permanent_of_running running)
  | setUp i result =>
    simp only [step, setUp] at h
    split at h
    · rename_i plain
      cases h
      rw [List.append_nil]
      exact sound_put old (taskSound_setUp (old.tasks i) (Or.inl plain)) id
    · rename_i plain
      cases h
      rw [List.append_nil]
      exact sound_put old (taskSound_setUp (old.tasks i) (Or.inr plain)) id
    · cases h
  | crash i =>
    simp only [step] at h
    split at h
    · cases h
    · rename_i guard
      have running : (s.task i).outcome = none := by simpa using guard
      cases h
      rw [List.append_nil]
      exact sound_put old (taskSound_crash (old.tasks i) running)
        fun failure => absurd failure (not_permanent_of_running running)
  | supervise i => exact sound_supervise old h
  | ready =>
    simp only [step] at h
    split at h
    · exact sound_ready old h
    · cases h
  | fatal =>
    simp only [step] at h
    split at h
    · rename_i queued
      cases h
      rw [List.append_nil]
      exact sound_fatal old queued
    · rename_i queued
      cases h
      rw [List.append_nil]
      exact sound_fatal old queued
    · cases h
  | signal =>
    simp only [step] at h
    split at h
    · cases h
      rw [List.append_nil]
      exact sound_signal old
    · cases h
      rw [List.append_nil]
      exact sound_signal old
    · cases h
  | shutdownDone =>
    simp only [step] at h
    split at h
    · rename_i exit hpc
      cases h
      refine sound_leave old ?_
      rintro error rfl
      exact old.leaving error (Or.inl hpc)
    · cases h

theorem taskSound_start (source : Source) (held : Bool) {ready : Ready}
    (unsent : ∀ error, ready ≠ .sent (.error error)) :
    TaskSound ⟨source.spawn held, ready, none, false⟩ := by
  refine ⟨?_, fun error h => absurd h (unsent error), ?_⟩
  · intro permanent text h
    cases h
  · intro h
    cases h

theorem taskKept_start (source : Source) (held : Bool) :
    TaskKept ⟨source.spawn held, if held then .waiting else .absent, none, false⟩ := by
  refine ⟨?_, ?_, ?_⟩
  · cases held <;> simp
  · intro waiting
    refine ⟨rfl, ?_⟩
    have awaited : held = true := by
      cases held with
      | true => rfl
      | false => cases waiting
    subst awaited
    cases source with
    | mailbox | gmail => exact Or.inl rfl
    | fsState => exact Or.inr (Or.inl rfl)
    | systemResume => exact Or.inr (Or.inr rfl)
  · cases source <;> simp [Source.spawn, Watcher.Calm, MailboxWatcher.State.start,
      GmailApiPoll.State.start]

theorem sound_start (source : ι → Source) (awaited : List ι) :
    Sound [] (State.start source awaited) := by
  refine ⟨?_, by simp [State.start], ?_⟩
  · intro i
    refine taskSound_start (source i) _ ?_
    intro error
    split <;> simp
  · rintro error (h | h)
    · exact absurd h awaiting_ne_stopping
    · cases h

theorem kept_start (source : ι → Source) (awaited : List ι) :
    Kept [] (State.start source awaited) := by
  refine ⟨?_, ?_, ?_⟩
  · intro _ i
    have fresh := taskKept_start (source i) (decide (i ∈ awaited))
    by_cases h : i ∈ awaited <;> simpa [State.start, h] using fresh
  · intro _ i seen
    cases seen
  · rintro exit (h | h)
    · exact absurd h awaiting_ne_stopping
    · cases h

/-- A step of one task that is not yet seen by its supervisor, or has not failed. -/
theorem kept_put {task : Task} (old : Kept tr s)
    (kept : s.shutdownSent = false → TaskKept task)
    (reported : task.supervised = true → PermanentFailure task →
      (s.task i).supervised = true ∧ PermanentFailure (s.task i)) : Kept tr (s.put i task) := by
  refine ⟨?_, ?_, old.exits⟩
  · intro unsent
    exact forall_put (old.tasks unsent) (kept unsent)
  · intro unsent j seen failed
    by_cases own : j = i
    · subst own
      rw [put_task_same] at seen failed
      obtain ⟨before, failure⟩ := reported seen failed
      exact old.reported unsent j before failure
    · rw [put_task_other own] at seen failed
      exact old.reported unsent j seen failed

theorem kept_supervise (sound : Sound tr s) (old : Kept tr s) (h : supervise s i = some (t, es)) :
    Kept (tr ++ es) t := by
  simp only [supervise] at h
  split at h
  · cases h
    rw [List.append_nil]
    refine ⟨?_, ?_, old.exits⟩
    · intro unsent
      exact forall_put (old.tasks unsent)
        ⟨(old.tasks unsent i).unspoiled, (old.tasks unsent i).held, (old.tasks unsent i).calm⟩
    · intro unsent j seen failed none
      obtain ⟨before, own⟩ := List.append_eq_nil_iff.mp none
      by_cases same : j = i
      · subst same
        rw [put_task_same] at failed
        obtain ⟨text, hout⟩ := failed
        obtain ⟨-, error, he, -⟩ := (sound.tasks j).failed true text hout
        rw [he] at own
        cases own
      · rw [put_task_other same] at seen failed
        exact old.reported unsent j seen failed before
  · cases h

theorem kept_step {label : Label ι} (sound : Sound tr s) (old : Kept tr s)
    (scope : SetUpKept s label) (h : step s label = some (t, es)) : Kept (tr ++ es) t := by
  cases label with
  | watch i label text =>
    simp only [step, watch] at h
    split at h
    · cases h
    · rename_i guard
      obtain ⟨next, hn, heq⟩ := Option.map_eq_some_iff.mp h
      cases heq
      rw [List.append_nil]
      refine kept_put old ?_ ?_
      · intro unsent
        refine taskKept_moved (old.tasks unsent i) hn ?_
        cases hears : label.hearsShutdown <;> simp [hears, unsent] at guard ⊢
      · intro seen
        have ended := (sound.tasks i).seen seen
        cases ho : (s.task i).outcome <;> simp [ho] at guard ended
  | setUp i result =>
    simp only [step, setUp] at h
    split at h
    · cases h
      rw [List.append_nil]
      exact kept_put old (fun unsent => taskKept_setUp (old.tasks unsent i) scope) fun seen failed =>
        ⟨seen, failed⟩
    · cases h
      rw [List.append_nil]
      exact kept_put old (fun unsent => taskKept_setUp (old.tasks unsent i) scope) fun seen failed =>
        ⟨seen, failed⟩
    · cases h
  | crash i =>
    simp only [step] at h
    split at h
    · cases h
    · cases h
      rw [List.append_nil]
      refine kept_put old (fun unsent => taskKept_crash (old.tasks unsent i) scope) ?_
      rintro - ⟨text, hout⟩
      cases hout
  | supervise i => exact kept_supervise sound old h
  | ready =>
    simp only [step] at h
    split at h
    · rename_i i rest hpc
      exact kept_ready old (by rw [State.shutdownSent, hpc]) h
    · cases h
  | fatal =>
    simp only [step] at h
    split at h
    · cases h
      rw [List.append_nil]
      exact kept_fatal old
    · cases h
      rw [List.append_nil]
      exact kept_fatal old
    · cases h
  | signal => exact scope.elim
  | shutdownDone =>
    simp only [step] at h
    split at h
    · rename_i exit hpc
      cases h
      refine kept_sent old (Or.inr ⟨_, rfl⟩) ?_
      rintro last (h | h)
      · cases h
      · rw [List.mem_singleton.mp h]
        exact old.exits exit (Or.inl hpc)
    · cases h

end Steps

end DaemonExit

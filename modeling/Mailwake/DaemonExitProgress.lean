import Mailwake.DaemonExitInvariant

/-!
# A permanent failure ends the daemon

How many steps are left to bring a failure to the exit, and that the next of them is
always enabled.
-/
namespace DaemonExit
open Transition
universe u
variable {ι : Type u} {s t : State ι} {tr es : List Exit} {i : ι}

def Pc.remaining : Pc ι → Nat
  | .waiting _ _ => 2
  | .running => 2
  | .stopping _ => 1
  | .returned _ => 0

/-- How many steps are left at most to bring a failure of the task to the exit. -/
def State.remaining (i : ι) (s : State ι) : Nat :=
  (if (s.task i).supervised then 0 else 1) + s.pc.remaining

theorem remaining_le (i : ι) (s : State ι) : s.remaining i ≤ 3 := by
  have pc : s.pc.remaining ≤ 2 := by
    cases s.pc <;> simp [Pc.remaining]
  rw [State.remaining]
  split <;> omega

theorem remaining_awaiting (rest : List ι) : (awaiting rest).remaining = 2 := by
  cases rest <;> rfl

theorem remaining_ready {j : ι} {rest : List ι} (waits : s.pc.remaining = 2)
    (h : ready s j rest = some (t, es)) : t.remaining i ≤ s.remaining i := by
  simp only [ready] at h
  split at h
  · cases h
    simp [State.remaining, remaining_awaiting, waits]
  · cases h
    simp [State.remaining, Pc.remaining]
  · cases h
    simp [State.remaining, Pc.remaining]
  · cases h
  · cases h

variable [DecidableEq ι]

/-- The steps that bring a failure of the task to the exit. -/
def carries (i : ι) : Label ι → Bool
  | .supervise j => decide (j = i)
  | .fatal => true
  | .shutdownDone => true
  | _ => false

theorem remaining_put {j : ι} {task : Task} (seen : task.supervised = (s.task j).supervised) :
    (s.put j task).remaining i = s.remaining i := by
  have same : ((s.put j task).task i).supervised = (s.task i).supervised := by
    by_cases own : i = j
    · subst own
      rw [put_task_same, seen]
    · rw [put_task_other own]
  rw [State.remaining, same]
  rfl

theorem remaining_supervise {j : ι} (h : supervise s j = some (t, es)) :
    (if j = i then 1 else 0) + t.remaining i ≤ s.remaining i := by
  simp only [supervise] at h
  split at h
  · rename_i guard
    cases h
    by_cases own : j = i
    · subst own
      have unseen : (s.task j).supervised = false := by
        cases hs : (s.task j).supervised <;> simp [hs] at guard ⊢
      simp [State.remaining, unseen, State.put]
    · have other : i ≠ j := fun same => own same.symm
      simp [State.remaining, own, other, State.put]
  · cases h

theorem remaining_step {label : Label ι} (h : step s label = some (t, es)) :
    (if carries i label then 1 else 0) + t.remaining i ≤ s.remaining i := by
  cases label with
  | watch j label text =>
    simp only [step, watch] at h
    split at h
    · cases h
    · obtain ⟨next, -, heq⟩ := Option.map_eq_some_iff.mp h
      cases heq
      have same : (s.put j ((s.task j).moved text next)).remaining i = s.remaining i :=
        remaining_put rfl
      simp [carries, same]
  | setUp j result =>
    have same : (s.put j ((s.task j).setUp result)).remaining i = s.remaining i := remaining_put rfl
    simp only [step, setUp] at h
    split at h
    · cases h
      simp [carries, same]
    · cases h
      simp [carries, same]
    · cases h
  | crash j =>
    have same : (s.put j (s.task j).crash).remaining i = s.remaining i := remaining_put rfl
    simp only [step] at h
    split at h
    · cases h
    · cases h
      simp [carries, same]
  | supervise j =>
    have spent := remaining_supervise (i := i) h
    by_cases own : j = i <;> simpa [carries, own] using spent
  | ready =>
    simp only [step] at h
    split at h
    · rename_i hpc
      have spent := remaining_ready (i := i) (by rw [hpc]; rfl) h
      simpa [carries] using spent
    · cases h
  | fatal =>
    simp only [step] at h
    split at h
    · rename_i hpc _
      cases h
      simp only [carries, if_true, State.remaining, hpc, Pc.remaining]
      omega
    · rename_i hpc _
      cases h
      simp only [carries, if_true, State.remaining, hpc, Pc.remaining]
      omega
    · cases h
  | signal =>
    simp only [step] at h
    split at h
    · rename_i hpc
      cases h
      simp [carries, State.remaining, hpc, Pc.remaining]
    · rename_i hpc
      cases h
      simp [carries, State.remaining, hpc, Pc.remaining]
    · cases h
  | shutdownDone =>
    simp only [step] at h
    split at h
    · rename_i exit hpc
      cases h
      simp only [carries, if_true, State.remaining, hpc, Pc.remaining]
      omega
    · cases h

/-- Until the daemon has returned, one of these steps can be taken. -/
theorem carried_on (kept : Kept tr s) (failure : PermanentFailure (s.task i)) :
    (∃ exit, s.pc = .returned exit) ∨ ∃ label, carries i label = true ∧ (step s label).isSome := by
  have ended : (s.task i).outcome.isSome = true := by
    obtain ⟨text, hout⟩ := failure
    rw [hout]
    rfl
  have open_ (unsent : s.shutdownSent = false)
      (reading : ∀ error rest, s.fatal = error :: rest → (step s .fatal).isSome = true) :
      ∃ label, carries i label = true ∧ (step s label).isSome = true := by
    by_cases seen : (s.task i).supervised = true
    · have queued := kept.reported unsent i seen failure
      obtain ⟨error, rest, he⟩ := List.exists_cons_of_ne_nil queued
      exact ⟨.fatal, rfl, reading error rest he⟩
    · refine ⟨.supervise i, by simp [carries], ?_⟩
      simp [step, supervise, ended, seen]
  cases hpc : s.pc with
  | waiting next rest =>
    refine Or.inr (open_ (by rw [State.shutdownSent, hpc]) ?_)
    intro error rest he
    simp [step, hpc, he]
  | running =>
    refine Or.inr (open_ (by rw [State.shutdownSent, hpc]) ?_)
    intro error rest he
    simp [step, hpc, he]
  | stopping exit =>
    refine Or.inr ⟨.shutdownDone, rfl, ?_⟩
    simp [step, hpc]
  | returned exit => exact Or.inl ⟨exit, rfl⟩

theorem permanent_step {label : Label ι} (h : step s label = some (t, es))
    (failure : PermanentFailure (s.task i)) : PermanentFailure (t.task i) := by
  cases label with
  | watch j label text =>
    simp only [step, watch] at h
    split at h
    · cases h
    · rename_i guard
      obtain ⟨next, -, heq⟩ := Option.map_eq_some_iff.mp h
      cases heq
      have running : (s.task j).outcome = none := by
        cases ho : (s.task j).outcome <;> simp [ho] at guard ⊢
      exact permanent_put (fun failed => absurd failed (not_permanent_of_running running)) failure
  | setUp j result =>
    have kept : PermanentFailure (s.task j) → PermanentFailure ((s.task j).setUp result) := id
    simp only [step, setUp] at h
    split at h
    · cases h
      exact permanent_put kept failure
    · cases h
      exact permanent_put kept failure
    · cases h
  | crash j =>
    simp only [step] at h
    split at h
    · cases h
    · rename_i guard
      have running : (s.task j).outcome = none := by simpa using guard
      cases h
      exact permanent_put (fun failed => absurd failed (not_permanent_of_running running)) failure
  | supervise j =>
    simp only [step, supervise] at h
    split at h
    · cases h
      have failed : PermanentFailure (s.task j) → PermanentFailure { s.task j with supervised := true } :=
        id
      exact permanent_put (s := { s with fatal := s.fatal ++ (s.task j).fatal }) failed failure
    · cases h
  | ready =>
    simp only [step] at h
    split at h
    · simp only [ready] at h
      split at h <;> cases h <;> exact failure
    · cases h
  | fatal | signal | shutdownDone =>
    simp only [step] at h
    split at h <;> cases h <;> exact failure

/-- What `run_daemon` has returned is in the trace. -/
def Recorded (tr : List Exit) (s : State ι) : Prop :=
  ∀ exit, s.pc = .returned exit → exit ∈ tr

theorem recorded_step {label : Label ι} (old : Recorded tr s) (h : step s label = some (t, es)) :
    Recorded (tr ++ es) t := by
  have same (pc : t.pc = s.pc) : Recorded (tr ++ es) t := fun exit left =>
    List.mem_append_left es (old exit (pc ▸ left))
  have going (pc : ∀ exit, t.pc ≠ .returned exit) : Recorded (tr ++ es) t := fun exit left =>
    absurd left (pc exit)
  have left {exit : Exit} (now : (t, es) = s.leave exit) : Recorded (tr ++ es) t := by
    cases now
    rintro last ⟨⟩
    simp
  cases label with
  | watch j label text =>
    simp only [step, watch] at h
    split at h
    · cases h
    · obtain ⟨next, -, heq⟩ := Option.map_eq_some_iff.mp h
      cases heq
      exact same rfl
  | setUp j result =>
    simp only [step, setUp] at h
    split at h <;> cases h <;> exact same rfl
  | crash j =>
    simp only [step] at h
    split at h <;> cases h
    exact same rfl
  | supervise j =>
    simp only [step, supervise] at h
    split at h <;> cases h
    exact same rfl
  | ready =>
    simp only [step] at h
    split at h
    · rename_i j rest _
      simp only [ready] at h
      split at h
      · cases h
        refine going fun exit => ?_
        cases rest <;> simp [awaiting]
      · exact left (Option.some.inj h).symm
      · exact left (Option.some.inj h).symm
      · cases h
      · cases h
    · cases h
  | fatal =>
    simp only [step] at h
    split at h <;> cases h <;> exact going (by simp)
  | signal =>
    simp only [step] at h
    split at h <;> cases h <;> exact going (by simp)
  | shutdownDone =>
    simp only [step] at h
    split at h
    · exact left (Option.some.inj h).symm
    · cases h

theorem sound_run {source : ι → Source} {awaited : List ι} {labels : List (Label ι)}
    (run : exec step (State.start source awaited) labels = some (s, tr)) : Sound tr s :=
  exec_invariant (fun _ _ _ _ _ => sound_step) (sound_start source awaited) run

theorem recorded_run {source : ι → Source} {awaited : List ι} {labels : List (Label ι)}
    (run : exec step (State.start source awaited) labels = some (s, tr)) : Recorded tr s := by
  refine exec_invariant (fun _ _ _ _ _ => recorded_step) ?_ run
  intro exit left
  cases awaited <;> cases left

theorem kept_run {source : ι → Source} {awaited : List ι} {labels : List (Label ι)}
    (scope : Meets step SetUpKept (State.start source awaited) labels)
    (run : exec step (State.start source awaited) labels = some (s, tr)) : Kept tr s := by
  have both : Sound tr s ∧ Kept tr s := by
    have start : Sound [] (State.start source awaited) ∧ Kept [] (State.start source awaited) :=
      ⟨sound_start source awaited, kept_start source awaited⟩
    refine exec_invariant_of_meets (P := fun tr s => Sound tr s ∧ Kept tr s) ?_ start scope run
    rintro past s label t es ⟨sound, kept⟩ allowed h
    exact ⟨sound_step sound h, kept_step sound kept allowed h⟩
  exact both.2

/-- The code 78 means a permanent authentication failure. After one, when no set-up fails and
no shutdown is requested, the daemon returns nothing else, and it does return: at most three of
the steps that carry the failure on are left, and until it has returned one of them can be
taken, whichever receiver it waits for. -/
theorem permanent_failure_exits_78 (source : ι → Source) (awaited : List ι)
    {before after : List (Label ι)} {fs : List Exit}
    (run : exec step (State.start source awaited) before = some (s, es))
    (more : exec step s after = some (t, fs)) :
    (∀ error, .coded error ∈ es ++ fs →
      error.code = reauthRequiredExitCode ∧ ∃ i, PermanentFailure (t.task i)) ∧
    (Meets step SetUpKept (State.start source awaited) (before ++ after) →
      ∀ i, PermanentFailure (s.task i) →
        (∀ exit, t.pc = .returned exit →
          ∃ error, exit = .coded error ∧ error.code = reauthRequiredExitCode) ∧
        (after.filter (carries i)).length ≤ 3 ∧
        ((∃ exit, t.pc = .returned exit) ∨
          ∃ label, carries i label = true ∧ (step t label).isSome = true)) := by
  have whole : exec step (State.start source awaited) (before ++ after) = some (t, es ++ fs) :=
    exec_append_some.mpr ⟨s, es, fs, run, more, rfl⟩
  have sound := sound_run whole
  refine ⟨fun error h => sound.leaving error (Or.inr h), ?_⟩
  intro scope i failure
  have kept := kept_run scope whole
  have still : PermanentFailure (t.task i) :=
    exec_state_invariant (P := fun s => PermanentFailure (s.task i))
      (fun _ _ _ _ failed h => permanent_step h failed) failure more
  refine ⟨?_, ?_, carried_on kept still⟩
  · intro exit left
    have returned := recorded_run whole exit left
    obtain ⟨error, rfl⟩ := kept.exits exit (Or.inr returned)
    exact ⟨error, rfl, (sound.leaving error (Or.inr returned)).1⟩
  · have spent := exec_measure (carries i) (State.remaining i)
      (fun _ _ _ _ h => remaining_step h) more
    have bound := remaining_le i s
    omega

/-- An awaited mailbox that has not connected yet, and a Gmail source whose helper is refused. -/
private def exampleSource : Bool → Source
  | true => .mailbox "personal" "INBOX"
  | false => .gmail "gmail" []

private def exampleFailure : List (Label Bool) :=
  [.watch false (.gmail (.check false)) "",
    .watch false (.gmail (.helper (.error .helperReauthRequired))) "reauthorization is required"]

theorem failure_beside_waiting_exits_78 :
    ∃ s t es fs, exec step (State.start exampleSource [true, false]) exampleFailure = some (s, es) ∧
      exec step s [.supervise false, .fatal, .shutdownDone] = some (t, fs) ∧
      ∃ error, t.pc = .returned (.coded error) ∧ error.code = reauthRequiredExitCode := by
  have ended : (exec step (State.start exampleSource [true, false]) exampleFailure).any
      (fun r => decide ((r.1.task false).outcome =
        some (.failed true "reauthorization is required"))) = true := by
    decide +kernel
  have left : (exec step (State.start exampleSource [true, false])
      (exampleFailure ++ [.supervise false, .fatal, .shutdownDone])).any
      (fun r => decide (r.1.pc.remaining = 0)) = true := by
    decide +kernel
  obtain ⟨⟨t, tr⟩, whole, none⟩ := (Option.any_eq_true ..).mp left
  obtain ⟨s, es, fs, run, more, rfl⟩ := exec_append_some.mp whole
  rw [run] at ended
  have failure : PermanentFailure (s.task false) := ⟨_, of_decide_eq_true ended⟩
  have scope : Meets step SetUpKept (State.start exampleSource [true, false])
      (exampleFailure ++ [.supervise false, .fatal, .shutdownDone]) :=
    ⟨trivial, fun _ _ _ => ⟨trivial, fun _ _ _ => ⟨trivial, fun _ _ _ => ⟨trivial, fun _ _ _ =>
      ⟨trivial, fun _ _ _ => trivial⟩⟩⟩⟩⟩
  have exits := ((permanent_failure_exits_78 exampleSource [true, false] run more).2 scope false
    failure).1
  refine ⟨s, t, es, fs, run, more, ?_⟩
  have done : t.pc.remaining = 0 := of_decide_eq_true none
  cases hpc : t.pc with
  | returned exit =>
    obtain ⟨error, rfl, code⟩ := exits exit hpc
    exact ⟨error, rfl, code⟩
  | waiting | running | stopping =>
    rw [hpc] at done
    cases done

end DaemonExit

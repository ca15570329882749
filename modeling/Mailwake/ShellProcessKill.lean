import Mailwake.ShellProcessTurns

/-!
# The process group when a shell run is over

After `terminate_process_group` no member of the group is alive. Every other way out, but
for a completed run, kills at most the shell: a dropped future, an error on the way, and an
exceeded output limit that only the collection after the shell's exit notices.
-/
namespace ShellProcess
open Channel Transition ProcessGroup

/-- A call that is gone, other than as completed, leaves no live member of the group. -/
def GroupGone (s : State) : Prop :=
  ∀ outcome, s.pc = .gone outcome → outcome.isCompleted = false → s.tree.anyAlive = false

/-- The call has sent SIGKILL to the group and awaits the shell or its output. -/
def Pc.swept : Pc → Bool
  | .terminating .reap _ => true
  | .collecting _ => true
  | _ => false

/-- Where a step abandons the run, the group has been killed or holds only the shell. -/
def Emptied (s : State) (label : Label) : Prop :=
  abandons s label = true → s.pc.swept = true ∨ s.tree.othersAlive = false

instance (s : State) (label : Label) : Decidable (Emptied s label) :=
  inferInstanceAs (Decidable (_ → _))

structure Cleared (s : State) : Prop where
  swept : s.pc.swept = true → s.tree.anyAlive = false
  gone : GroupGone s

variable {s t : State} {label : Label} {es : List Event}

theorem Cleared.of_pc (running : t.pc.isGone = false) (early : t.pc.swept = false) :
    Cleared t := by
  refine ⟨?_, ?_⟩
  · intro swept
    rw [early] at swept
    cases swept
  · intro outcome hpc
    rw [hpc] at running
    cases running

theorem Cleared.of_dead (h : t.tree.anyAlive = false) : Cleared t :=
  ⟨fun _ => h, fun _ _ _ => h⟩

theorem cleared_leave (old : Cleared s) {outcome : Outcome}
    (empty : outcome.isCompleted = false → s.pc.swept = true ∨ s.tree.othersAlive = false) :
    Cleared (s.leave outcome).1 := by
  refine ⟨by simp [State.leave, Pc.swept], ?_⟩
  intro last hpc other
  obtain rfl : outcome = last := Pc.gone.inj hpc
  refine (ProcessTree.anyAlive_killLeader _).trans ?_
  rcases empty other with swept | alone
  · exact ProcessTree.othersAlive_of_anyAlive (old.swept swept)
  · exact alone

/-- The group stays dead once it has been killed, and is dead when the run is abandoned. -/
theorem cleared_step (old : Cleared s) (emptied : Emptied s label)
    (h : step s label = some (t, es)) : Cleared t := by
  cases step_turn h with
  | exited _ next | selected _ _ next | resumed _ next | stayed _ next | ending _ next
  | termed _ next | expired _ next | reaped _ _ next =>
    exact .of_pc (by rw [next]; rfl) (by rw [next]; rfl)
  | killed _ next =>
    subst next
    exact .of_dead (ProcessTree.anyAlive_kill _)
  | swept _ next =>
    subst next
    exact .of_dead (ProcessTree.anyAlive_kill _)
  | left next why =>
    subst next
    refine cleared_leave old fun other => ?_
    rcases why with abandoned | completed | ⟨reason, hpc⟩
    · exact emptied abandoned
    · rw [other] at completed
      cases completed
    · exact Or.inl (by rw [hpc]; rfl)
  | beside frame =>
    refine ⟨fun swept => ?_, fun outcome hpc other => ?_⟩
    · exact frame.group (old.swept (frame.pc ▸ swept))
    · exact frame.group (old.gone outcome (frame.pc ▸ hpc) other)
  | waited next =>
    subst next
    exact ⟨old.swept, old.gone⟩

theorem fail_not_completed (error : ShellProcessError) :
    (Outcome.returned (.error error)).isCompleted = false := rfl

/-- A step that abandons the run ends it, and kills at most the shell. -/
theorem leaves_of_abandons (abandoned : abandons s label = true)
    (h : step s label = some (t, es)) :
    ∃ outcome, t = (s.leave outcome).1 ∧ outcome.isCompleted = false := by
  cases label with
  | drop =>
    simp only [step] at h
    split at h
    · exact ⟨.dropped, (congrArg Prod.fst (Option.some.inj h)).symm, rfl⟩
    · cases h
  | task task =>
    cases task with
    | checkFailed source =>
      simp only [step, taskStep] at h
      split at h
      · exact ⟨_, (congrArg Prod.fst (Option.some.inj h)).symm, fail_not_completed _⟩
      · cases h
    | signal error =>
      cases error with
      | some source =>
        obtain ⟨m, -, he⟩ := Option.map_eq_some_iff.mp h
        exact ⟨_, (congrArg Prod.fst he).symm, fail_not_completed _⟩
      | none => cases abandoned
    | waitFailed source =>
      simp only [step, taskStep, waitFailed] at h
      split at h
      · exact ⟨_, (congrArg Prod.fst (Option.some.inj h)).symm, fail_not_completed _⟩
      · exact ⟨_, (congrArg Prod.fst (Option.some.inj h)).symm, fail_not_completed _⟩
      · cases h
    | collected =>
      simp only [step, taskStep, collected] at h
      split at h
      · rename_i status hpc
        obtain ⟨result, hc, he⟩ := Option.map_eq_some_iff.mp h
        refine ⟨_, (congrArg Prod.fst he).symm, ?_⟩
        cases result with
        | error error => rfl
        | ok collected =>
          cases collected with
          | captured output => simp [abandons, hpc, hc] at abandoned
          | tooLarge first output => rfl
      · rename_i reason hpc
        simp [abandons, hpc] at abandoned
      · cases h
    | check | timer | shutdownChanged | limitReceived | reaped | read | eof | readFailed
    | readPanicked => cases abandoned
  | process | write | shellExits | setShutdown | dropShutdown | advance => cases abandoned

variable {stdoutMode stderrMode : ShellStreamMode} {commandTimeout : Nat}
  {outputLimit : Option Nat} {shutdown : Option (Watch Bool)} {labels : List Label}
  {tr : List Event}

/-- Every way the call can be gone, but as completed, leaves no live member of its process
group, if and only if each step that abandons the run finds the group killed or without
any live member other than the shell. -/
theorem group_is_gone_iff_emptied (run : exec step
    (State.start stdoutMode stderrMode commandTimeout outputLimit shutdown) labels
      = some (s, tr)) :
    Throughout step (fun _ v => GroupGone v)
        (State.start stdoutMode stderrMode commandTimeout outputLimit shutdown) labels ↔
      Meets step Emptied
        (State.start stdoutMode stderrMode commandTimeout outputLimit shutdown) labels := by
  constructor
  · intro gone
    refine meets_of_throughout ?_ run gone
    intro past u label v es _ after hs abandoned
    obtain ⟨outcome, rfl, other⟩ := leaves_of_abandons abandoned hs
    have dead := after outcome rfl other
    exact Or.inr ((ProcessTree.anyAlive_killLeader _).symm.trans dead)
  · intro meets
    have start : Cleared (State.start stdoutMode stderrMode commandTimeout outputLimit shutdown) :=
      .of_pc rfl rfl
    exact throughout_of_meets (P := fun _ v => Cleared v)
      (fun _ _ _ _ _ old emptied hs => cleared_step old emptied hs)
      (fun _ _ cleared => cleared.gone) start meets

/-- A shell whose background process outlives SIGTERM, and its timeout. -/
private def exampleTimeout : List Label :=
  [.task .check, .process (.fork none []), .advance 5, .task .timer, .task .check,
    .task (.signal none), .shellExits ⟨none, some 15⟩, .task .reaped, .task (.signal none),
    .task .collected]

theorem example_timeout_kills_group :
    let r := (exec step (State.start .null .null 5 none none) exampleTimeout).get
      (by decide +kernel)
    r.1.pc.isGone = true ∧ GroupGone r.1 := by
  intro r
  have run := (Option.some_get (by decide +kernel : (exec step
    (State.start .null .null 5 none none) exampleTimeout).isSome = true)).symm
  have emptied : Meets step Emptied (State.start .null .null 5 none none) exampleTimeout := by
    decide +kernel
  exact ⟨by decide +kernel, (group_is_gone_iff_emptied run).mpr emptied _ [] _ _
    (List.append_nil _).symm run⟩

/-- The caller drops the future while the shell has a background process. -/
theorem dropped_run_leaves_group :
    let r := (exec step (State.start .null .null 5 none none)
      [.task .check, .process (.fork none []), .drop]).get (by decide +kernel)
    ¬ GroupGone r.1 := by
  intro r gone
  exact absurd (gone .dropped rfl rfl) (by decide +kernel)

end ShellProcess

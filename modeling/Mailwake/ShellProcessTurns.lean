import Mailwake.ShellProcess

/-!
# What one step of a shell run does

The call moves from one program point to the next, its processes and reader tasks go on
without it, or time passes. Only the two kills and the end of the call touch the group.
-/
namespace ShellProcess
open Channel ProcessGroup

/-- Nothing but the program point and the call's receivers differs. -/
structure Same (s t : State) : Prop where
  now : t.now = s.now
  deadline : t.deadline = s.deadline
  tree : t.tree = s.tree
  status : t.status = s.status

/-- The call stays where it is; no member of the group comes back to life. -/
structure Frame (s t : State) : Prop where
  pc : t.pc = s.pc
  now : t.now = s.now
  deadline : t.deadline = s.deadline
  group : s.tree.anyAlive = false → t.tree.anyAlive = false
  status : s.status.isSome = true → t.status.isSome = true

/-- The call ends, neither with a collection after `terminate_process_group` nor with
`ShellRun::Completed`. -/
def abandons (s : State) : Label → Bool
  | .drop => true
  | .task (.checkFailed _) => true
  | .task (.signal (some _)) => true
  | .task (.waitFailed _) => true
  | .task .collected =>
    match s.pc, s.collect with
    | .afterExit _, some (.ok (.captured _)) => false
    | .afterExit _, _ => true
    | _, _ => false
  | _ => false

inductive Turn (s : State) : Label → State → Prop where
  | exited {label : Label} {t : State} {status : ExitStatus} : s.pc = .waiting →
      t.pc = .afterExit status → Same s t → Turn s label t
  | selected {label : Label} {t : State} : s.pc = .waiting → s.now < s.deadline →
      t.pc = .selecting (s.now + min waitPollInterval (s.deadline - s.now)) → Same s t →
      Turn s label t
  | resumed {label : Label} {t : State} {wakeAt : Nat} : s.pc = .selecting wakeAt →
      t.pc = .waiting → Same s t → Turn s label t
  | stayed {label : Label} {t : State} {status : ExitStatus} : s.pc = .afterExit status →
      t.pc = .afterExit status → Same s t → Turn s label t
  | ending {label : Label} {t : State} {reason : End} :
      (s.pc = .waiting ∨ (∃ wakeAt, s.pc = .selecting wakeAt) ∨
        ∃ status, s.pc = .afterExit status) →
      t.pc = .terminating .term reason → Same s t → Turn s label t
  | termed {label : Label} {t : State} {reason : End} : s.pc = .terminating .term reason →
      t.pc = .terminating (.grace (s.now + terminateGrace)) reason → Same s t → Turn s label t
  | expired {label : Label} {t : State} {limit : Nat} {reason : End} :
      s.pc = .terminating (.grace limit) reason → t.pc = .terminating .kill reason →
      Same s t → Turn s label t
  | killed {label : Label} {t : State} {reason : End} : s.pc = .terminating .kill reason →
      t = { s.killGroup with pc := .terminating .reap reason } → Turn s label t
  | reaped {label : Label} {t : State} {stage : Stage} {reason : End} :
      s.pc = .terminating stage reason → (stage = .reap ∨ ∃ limit, stage = .grace limit) →
      t.pc = .terminating .last reason → Same s t → Turn s label t
  | swept {label : Label} {t : State} {reason : End} : s.pc = .terminating .last reason →
      t = { s.killGroup with pc := .collecting reason } → Turn s label t
  | left {label : Label} {t : State} {outcome : Outcome} : t = (s.leave outcome).1 →
      (abandons s label = true ∨ outcome.isCompleted = true ∨ ∃ reason, s.pc = .collecting reason) →
      Turn s label t
  | beside {label : Label} {t : State} : Frame s t → Turn s label t
  | waited {duration : Nat} {t : State} : t = { s with now := s.now + duration } →
      settled s = true → (timerDue s).all (fun due => s.now + duration ≤ due) = true →
      Turn s (.advance duration) t

variable {s t : State} {label : Label} {es : List Event}

theorem turn_check (h : taskStep s .check = some (t, es)) : Turn s label t := by
  simp only [taskStep] at h
  split at h
  · rename_i hpc
    obtain ⟨rfl, -⟩ := Prod.mk.inj (Option.some.inj h)
    rw [check]
    split
    · exact .exited hpc rfl ⟨rfl, rfl, rfl, rfl⟩
    split
    · exact .ending (Or.inl hpc) rfl ⟨rfl, rfl, rfl, rfl⟩
    split
    · exact .ending (Or.inl hpc) rfl ⟨rfl, rfl, rfl, rfl⟩
    · rename_i early
      exact .selected hpc (by omega) rfl ⟨rfl, rfl, rfl, rfl⟩
  · cases h

theorem turn_timer (h : timer s = some t) : Turn s label t := by
  simp only [timer] at h
  split at h
  · rename_i wakeAt hpc
    split at h
    · obtain rfl := Option.some.inj h
      exact .resumed hpc rfl ⟨rfl, rfl, rfl, rfl⟩
    · cases h
  · rename_i limit reason hpc
    split at h
    · obtain rfl := Option.some.inj h
      exact .expired hpc rfl ⟨rfl, rfl, rfl, rfl⟩
    · cases h
  · rename_i status hpc
    split at h
    · obtain rfl := Option.some.inj h
      exact .ending (Or.inr (Or.inr ⟨status, hpc⟩)) rfl ⟨rfl, rfl, rfl, rfl⟩
    · cases h
  · cases h

theorem turn_shutdownChanged (h : shutdownChanged s = some t) : Turn s label t := by
  simp only [shutdownChanged] at h
  split at h
  · rename_i wakeAt watch hpc _
    obtain ⟨⟨ok, next⟩, -, rfl⟩ := Option.map_eq_some_iff.mp h
    dsimp only
    split
    · exact .ending (Or.inr (Or.inl ⟨wakeAt, hpc⟩)) rfl ⟨rfl, rfl, rfl, rfl⟩
    · exact .resumed hpc rfl ⟨rfl, rfl, rfl, rfl⟩
  · rename_i status watch hpc _
    have stop : (∃ status, s.pc = .afterExit status) := ⟨status, hpc⟩
    split at h
    · obtain rfl := Option.some.inj h
      exact .ending (Or.inr (Or.inr stop)) rfl ⟨rfl, rfl, rfl, rfl⟩
    · obtain ⟨⟨ok, next⟩, -, rfl⟩ := Option.map_eq_some_iff.mp h
      dsimp only
      split
      · split
        · exact .ending (Or.inr (Or.inr stop)) rfl ⟨rfl, rfl, rfl, rfl⟩
        · exact .stayed hpc hpc ⟨rfl, rfl, rfl, rfl⟩
      · exact .stayed hpc hpc ⟨rfl, rfl, rfl, rfl⟩
  · cases h

theorem receiveLimit_same {exceeded : Option PipeLimitExceeded}
    (h : receiveLimit s = some (exceeded, t)) : t.pc = s.pc ∧ Same s t := by
  simp only [receiveLimit] at h
  split at h
  · split at h
    · obtain ⟨-, rfl⟩ := Prod.mk.inj (Option.some.inj h)
      exact ⟨rfl, rfl, rfl, rfl, rfl⟩
    · split at h
      · cases h
      · obtain ⟨-, rfl⟩ := Prod.mk.inj (Option.some.inj h)
        exact ⟨rfl, rfl, rfl, rfl, rfl⟩
  · cases h

theorem turn_limitReceived (h : limitReceived s = some t) : Turn s label t := by
  simp only [limitReceived] at h
  split at h
  · rename_i wakeAt hpc
    obtain ⟨⟨exceeded, m⟩, hm, rfl⟩ := Option.map_eq_some_iff.mp h
    obtain ⟨-, now, deadline, tree, status⟩ := receiveLimit_same hm
    cases exceeded with
    | some exceeded =>
      exact .ending (Or.inr (Or.inl ⟨wakeAt, hpc⟩)) rfl ⟨now, deadline, tree, status⟩
    | none => exact .resumed hpc rfl ⟨now, deadline, tree, status⟩
  · rename_i status hpc
    obtain ⟨⟨exceeded, m⟩, hm, rfl⟩ := Option.map_eq_some_iff.mp h
    obtain ⟨same, now, deadline, tree, exit⟩ := receiveLimit_same hm
    cases exceeded with
    | some exceeded =>
      exact .ending (Or.inr (Or.inr ⟨status, hpc⟩)) rfl ⟨now, deadline, tree, exit⟩
    | none => exact .stayed hpc (same.trans hpc) ⟨now, deadline, tree, exit⟩
  · cases h

theorem turn_signalled (h : signalled s = some t) : Turn s label t := by
  simp only [signalled] at h
  split at h
  · rename_i reason hpc
    obtain rfl := Option.some.inj h
    exact .termed hpc rfl ⟨rfl, rfl, rfl, rfl⟩
  · rename_i reason hpc
    exact .killed hpc (Option.some.inj h).symm
  · rename_i reason hpc
    exact .swept hpc (Option.some.inj h).symm
  · cases h

theorem turn_reaped (h : reaped s = some t) : Turn s label t := by
  simp only [reaped] at h
  split at h
  · rename_i limit reason _ hpc _
    obtain rfl := Option.some.inj h
    exact .reaped hpc (Or.inr ⟨limit, rfl⟩) rfl ⟨rfl, rfl, rfl, rfl⟩
  · rename_i reason _ hpc _
    obtain rfl := Option.some.inj h
    exact .reaped hpc (Or.inl rfl) rfl ⟨rfl, rfl, rfl, rfl⟩
  · cases h

/-- A collection after the exit of the shell abandons the group, unless it is complete. -/
theorem turn_collected (h : collected s = some (t, es)) : Turn s (.task .collected) t := by
  simp only [collected] at h
  split at h
  · rename_i status hpc
    obtain ⟨result, hc, he⟩ := Option.map_eq_some_iff.mp h
    obtain ⟨rfl, -⟩ := Prod.mk.inj he
    refine .left rfl ?_
    cases result with
    | error error => exact Or.inl (by simp [abandons, hpc, hc])
    | ok collected =>
      cases collected with
      | captured output => exact Or.inr (Or.inl rfl)
      | tooLarge first output => exact Or.inl (by simp [abandons, hpc, hc])
  · rename_i reason hpc
    obtain ⟨result, -, he⟩ := Option.map_eq_some_iff.mp h
    obtain ⟨rfl, -⟩ := Prod.mk.inj he
    exact .left rfl (Or.inr (Or.inr ⟨reason, hpc⟩))
  · cases h

theorem turn_readPipe {stream : Stream} {count : Nat}
    (h : readPipe s stream count = some (t, es)) : Turn s label t := by
  simp only [readPipe] at h
  split at h
  · split at h
    · split at h
      · obtain ⟨rfl, -⟩ := Prod.mk.inj (Option.some.inj h)
        exact .beside ⟨rfl, rfl, rfl, id, id⟩
      · obtain ⟨rfl, -⟩ := Prod.mk.inj (Option.some.inj h)
        exact .beside ⟨rfl, rfl, rfl, id, id⟩
    · cases h
  · cases h

theorem turn_eof {stream : Stream} (h : eof s stream = some t) : Turn s label t := by
  simp only [eof] at h
  split at h
  · split at h
    · cases h
    · obtain rfl := Option.some.inj h
      exact .beside ⟨rfl, rfl, rfl, id, id⟩
  · cases h

theorem turn_task {task : Task} (h : taskStep s task = some (t, es)) :
    Turn s (.task task) t := by
  have silent : ∀ {next : Option State}, quiet next = some (t, es) → next = some t := by
    intro next hq
    obtain ⟨m, hm, he⟩ := Option.map_eq_some_iff.mp hq
    obtain ⟨rfl, -⟩ := Prod.mk.inj he
    exact hm
  cases task with
  | check => exact turn_check h
  | checkFailed source =>
    simp only [taskStep] at h
    split at h
    · obtain ⟨rfl, -⟩ := Prod.mk.inj (Option.some.inj h)
      exact .left rfl (Or.inl rfl)
    · cases h
  | timer => exact turn_timer (silent h)
  | shutdownChanged => exact turn_shutdownChanged (silent h)
  | limitReceived => exact turn_limitReceived (silent h)
  | signal error =>
    obtain ⟨m, hm, he⟩ := Option.map_eq_some_iff.mp h
    cases error with
    | some source =>
      obtain ⟨rfl, -⟩ := Prod.mk.inj he
      exact .left rfl (Or.inl rfl)
    | none =>
      obtain ⟨rfl, -⟩ := Prod.mk.inj he
      exact turn_signalled hm
  | reaped => exact turn_reaped (silent h)
  | waitFailed source =>
    simp only [taskStep, waitFailed] at h
    split at h
    · obtain ⟨rfl, -⟩ := Prod.mk.inj (Option.some.inj h)
      exact .left rfl (Or.inl rfl)
    · obtain ⟨rfl, -⟩ := Prod.mk.inj (Option.some.inj h)
      exact .left rfl (Or.inl rfl)
    · cases h
  | collected => exact turn_collected h
  | read stream count => exact turn_readPipe h
  | eof stream => exact turn_eof (silent h)
  | readFailed stream source =>
    simp only [taskStep] at h
    split at h
    · obtain ⟨rfl, -⟩ := Prod.mk.inj (Option.some.inj h)
      exact .beside ⟨rfl, rfl, rfl, id, id⟩
    · cases h
  | readPanicked stream source =>
    simp only [taskStep] at h
    split at h
    · obtain ⟨rfl, -⟩ := Prod.mk.inj (Option.some.inj h)
      exact .beside ⟨rfl, rfl, rfl, id, id⟩
    · cases h

theorem step_turn (h : step s label = some (t, es)) : Turn s label t := by
  cases label with
  | task task => exact turn_task h
  | drop =>
    simp only [step] at h
    split at h
    · obtain ⟨rfl, -⟩ := Prod.mk.inj (Option.some.inj h)
      exact .left rfl (Or.inl rfl)
    · cases h
  | process move =>
    obtain ⟨tree, hm, he⟩ := Option.map_eq_some_iff.mp h
    obtain ⟨rfl, -⟩ := Prod.mk.inj he
    exact .beside ⟨rfl, rfl, rfl, ProcessTree.anyAlive_move hm, id⟩
  | write who stream bytes =>
    simp only [step] at h
    split at h
    · obtain ⟨rfl, -⟩ := Prod.mk.inj (Option.some.inj h)
      exact .beside ⟨rfl, rfl, rfl, id, id⟩
    · cases h
  | shellExits status =>
    simp only [step] at h
    split at h
    · obtain ⟨rfl, -⟩ := Prod.mk.inj (Option.some.inj h)
      refine .beside ⟨rfl, rfl, rfl, fun alive => ?_, fun _ => rfl⟩
      exact (ProcessTree.anyAlive_killLeader _).trans (ProcessTree.othersAlive_of_anyAlive alive)
    · cases h
  | setShutdown value =>
    obtain ⟨rfl, -⟩ := Prod.mk.inj (Option.some.inj h)
    exact .beside ⟨rfl, rfl, rfl, id, id⟩
  | dropShutdown =>
    obtain ⟨rfl, -⟩ := Prod.mk.inj (Option.some.inj h)
    exact .beside ⟨rfl, rfl, rfl, id, id⟩
  | advance duration =>
    simp only [step] at h
    split at h
    · rename_i free
      obtain ⟨rfl, -⟩ := Prod.mk.inj (Option.some.inj h)
      obtain ⟨rests, due⟩ := Bool.and_eq_true_iff.mp free
      exact .waited rfl rests due
    · cases h

end ShellProcess

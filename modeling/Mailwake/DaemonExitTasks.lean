import Mailwake.DaemonExitWatchers

/-!
# What holds of one task

The texts by which the initial wait knows an authentication failure, and what every
step of a task keeps: a failure is recorded, reported to the receiver and carries the
fatal error that its supervisor sends.
-/
namespace DaemonExit
open Transition
section Texts

theorem startsWith_append (start rest : String) : startsWith (start ++ rest) start = true := by
  rw [startsWith, String.toList_append]
  exact List.isPrefixOf_iff_prefix.mpr (List.prefix_append _ _)

/-- The two prefixes by which the initial wait knows an authentication failure. -/
def AuthText (error : String) : Prop :=
  startsWith error "IMAP watcher authentication failed" = true ∨
    startsWith error "Gmail API poller authentication failed" = true

theorem setupExit_of_authText {error : String} (h : AuthText error) :
    ∃ coded, setupExit error = .coded coded ∧ coded.code = reauthRequiredExitCode := by
  rw [setupExit]
  split
  · exact ⟨_, rfl, rfl⟩
  · rename_i mailbox
    have gmail := h.resolve_left mailbox
    rw [if_pos gmail]
    exact ⟨_, rfl, rfl⟩

theorem authText_of_setupExit {error : String} {coded : CodedExitError}
    (h : setupExit error = .coded coded) : AuthText error := by
  rw [setupExit] at h
  split at h
  · rename_i mailbox
    exact Or.inl mailbox
  · split at h
    · rename_i gmail
      exact Or.inr gmail
    · cases h

/-- The error of a mailbox or Gmail watcher is known by its prefix. -/
theorem authText_of_step {w v : Watcher} {label : WatcherLabel} {reports : List Report}
    (h : w.step label = some (v, reports)) (text : String) :
    AuthText s!"{w.errorPrefix}: {text}" := by
  have start (a : String) : startsWith s!"{a}: {text}" a = true := by
    have split : s!"{a}: {text}" = a ++ (": " ++ text) := String.append_assoc ..
    rw [split]
    exact startsWith_append a _
  cases w with
  | mailbox account folder w => exact Or.inl (start _)
  | gmail source labelIds w => exact Or.inr (start _)
  | fsState => cases label <;> cases h
  | systemResume => cases label <;> cases h

/-- The set-up errors of the other two kinds are not taken for authentication failures. -/
theorem not_authText_plain {w : Watcher} (plain : w = .fsState ∨ w = .systemResume)
    (text : String) : ¬ AuthText (w.errorPrefix ++ text) := by
  have differs (a b : String) (h : startsWith (a ++ text) b = true) :
      a.toList.head? = none ∨ b.toList.head? = none ∨ a.toList.head? = b.toList.head? := by
    rw [startsWith, String.toList_append, List.isPrefixOf_iff_prefix] at h
    obtain ⟨rest, he⟩ := h
    cases ha : a.toList with
    | nil => exact Or.inl rfl
    | cons c cs =>
      cases hb : b.toList with
      | nil => exact Or.inr (Or.inl rfl)
      | cons d ds =>
        rw [ha, hb] at he
        obtain ⟨rfl, -⟩ := List.cons.inj he
        exact Or.inr (Or.inr rfl)
  rintro (h | h)
  · rcases plain with rfl | rfl <;> exact absurd (differs _ _ h) (by decide)
  · rcases plain with rfl | rfl <;> exact absurd (differs _ _ h) (by decide)

end Texts

/-- The watcher ended with an error for which `is_permanent_auth_failure` holds. -/
def PermanentFailure (task : Task) : Prop := ∃ text, task.outcome = some (.failed true text)

/-- What holds of a task whatever the other sources do. -/
structure TaskSound (task : Task) : Prop where
  failed : ∀ permanent text, task.outcome = some (.failed permanent text) →
    permanent = true ∧ ∃ error, task.fatal = [error] ∧ error.code = reauthRequiredExitCode
  refused : ∀ error, task.ready = .sent (.error error) → AuthText error → PermanentFailure task
  seen : task.supervised = true → task.outcome ≠ none

/-- What holds of a task while no set-up has failed and no shutdown was sent. -/
structure TaskKept (task : Task) : Prop where
  unspoiled : task.ready ≠ .dropped ∧ ∀ error, task.ready = .sent (.error error) → AuthText error
  held : task.ready = .waiting → task.outcome = none ∧
    (task.watcher.holdsReady = true ∨ task.watcher = .fsState ∨ task.watcher = .systemResume)
  calm : task.watcher.Calm

section Tasks
variable {task : Task} {label : WatcherLabel} {text : String} {next : Watcher × List Report}

theorem ending_fatal {w : Watcher} {permanent : Bool} (h : w.ending = some (.failed permanent))
    (text : String) (isPermanent : permanent = true) : ∃ error, w.fatalError permanent text = some error ∧
      error.code = reauthRequiredExitCode := by
  subst isPermanent
  cases w with
  | mailbox account folder w => exact ⟨_, rfl, rfl⟩
  | gmail source labelIds w => exact ⟨_, rfl, rfl⟩
  | fsState | systemResume => cases h

@[simp] theorem moved_outcome : (task.moved text next).outcome = next.1.ending.map (outcomeOf text) :=
  rfl

theorem moved_ready_nil (nil : next.2 = []) : (task.moved text next).ready =
    if next.1.ending.isSome then task.ready.close else task.ready := by
  simp [Task.moved, nil]

theorem moved_ready_one {report : Report} (one : next.2 = [report]) :
    (task.moved text next).ready =
      if next.1.ending.isSome then (task.report text report).close else task.report text report := by
  simp [Task.moved, one]

@[simp] theorem close_sent {ready : Ready} {result : Except String Unit} :
    ready.close = .sent result ↔ ready = .sent result := by
  cases ready <;> simp [Ready.close]

@[simp] theorem close_waiting {ready : Ready} : ready.close ≠ .waiting := by
  cases ready <;> simp [Ready.close]

/-- A failed send is one that was still awaited. -/
theorem report_failed {report : Report} {error : String}
    (h : task.report text report = .sent (.error error)) :
    task.ready = .sent (.error error) ∨ report = .authFailed := by
  cases report with
  | authFailed => exact Or.inr rfl
  | ready =>
    cases hr : task.ready <;> simp [Task.report, hr, Ready.send] at h ⊢
    exact h

theorem taskSound_moved (old : TaskSound task) (running : task.outcome = none)
    (h : task.watcher.step label = some next) : TaskSound (task.moved text next) := by
  have turn := watcher_turn h
  refine ⟨?_, ?_, fun seen => absurd running (old.seen seen)⟩
  · intro permanent said hout
    rw [moved_outcome] at hout
    obtain ⟨ending, hend, heq⟩ := Option.map_eq_some_iff.mp hout
    cases ending with
    | stopped => cases heq
    | failed p =>
      cases heq
      obtain ⟨isPermanent, -⟩ := turn.failed _ hend
      obtain ⟨error, he, code⟩ := ending_fatal hend text isPermanent
      refine ⟨isPermanent, error, ?_, code⟩
      simp only [Task.fatal, moved_outcome, hend, Option.map_some, outcomeOf]
      simp only [Task.moved, he, Option.toList_some]
  · intro error hready auth
    have before : task.ready ≠ .sent (.error error) := by
      intro sent
      obtain ⟨said, hout⟩ := old.refused error sent auth
      rw [running] at hout
      cases hout
    rcases turn.reported with ⟨nil, -⟩ | ⟨-, -, report, one⟩
    · rw [moved_ready_nil nil] at hready
      split at hready
      · exact absurd (close_sent.mp hready) before
      · exact absurd hready before
    · rw [moved_ready_one one] at hready
      have sent : task.report text report = .sent (.error error) := by
        split at hready
        · exact close_sent.mp hready
        · exact hready
      rcases report_failed sent with same | rfl
      · exact absurd same before
      · have ends := turn.told (by rw [one]; simp)
        exact ⟨text, by rw [moved_outcome, ends]; rfl⟩

theorem taskKept_moved (old : TaskKept task) (h : task.watcher.step label = some next)
    (untold : label.hearsShutdown = false) : TaskKept (task.moved text next) := by
  have turn := watcher_turn h
  have calm : next.1.Calm := turn.calm ⟨old.calm, untold⟩
  have working : task.watcher ≠ .fsState ∧ task.watcher ≠ .systemResume := by
    constructor <;> intro plain <;> rw [plain] at h <;> cases label <;> cases h
  have holds : task.ready = .waiting → task.watcher.holdsReady = true := by
    intro waiting
    rcases (old.held waiting).2 with held | plain | plain
    · exact held
    · exact absurd plain working.1
    · exact absurd plain working.2
  -- a task that ends has used its sender before
  have used : next.1.ending.isSome = true → task.ready = .waiting → next.2 = [.authFailed] := by
    intro ended waiting
    obtain ⟨ending, hend⟩ := Option.isSome_iff_exists.mp ended
    cases ending with
    | stopped => exact absurd hend calm.unstopped
    | failed permanent => exact (turn.failed permanent hend).2 (holds waiting)
  have auth : AuthText s!"{task.watcher.errorPrefix}: {text}" := authText_of_step h text
  rcases turn.reported with ⟨nil, same⟩ | ⟨-, gone, report, one⟩
  · have ready : (task.moved text next).ready = task.ready := by
      rw [moved_ready_nil nil]
      split
      · rename_i ended
        cases hr : task.ready with
        | waiting =>
          have reported := used ended hr
          rw [nil] at reported
          cases reported
        | absent | sent | dropped => rfl
      · rfl
    refine ⟨ready ▸ old.unspoiled, ?_, calm⟩
    intro waiting
    rw [ready] at waiting
    refine ⟨?_, Or.inl (same.trans (holds waiting))⟩
    cases hend : next.1.ending with
    | none => simp [hend]
    | some ending =>
      have reported := used (by simp [hend]) waiting
      rw [nil] at reported
      cases reported
  · have spent : task.report text report ≠ .waiting ∧ task.report text report ≠ .dropped ∧
        ∀ error, task.report text report = .sent (.error error) → AuthText error := by
      cases hr : task.ready with
      | waiting =>
        cases report with
        | ready => simp [Task.report, hr, Ready.send]
        | authFailed =>
          refine ⟨by simp [Task.report, hr, Ready.send], by simp [Task.report, hr, Ready.send], ?_⟩
          intro error he
          simp only [Task.report, hr, Ready.send, Ready.sent.injEq, Except.error.injEq] at he
          rwa [← he]
      | absent => cases report <;> simp [Task.report, hr, Ready.send]
      | dropped => exact absurd hr old.unspoiled.1
      | sent result =>
        have unspoiled := old.unspoiled.2
        rw [hr] at unspoiled
        cases report <;> simpa [Task.report, hr, Ready.send] using unspoiled
    have ready : (task.moved text next).ready = task.report text report := by
      rw [moved_ready_one one]
      split
      · cases hr : task.report text report with
        | waiting => exact absurd hr spent.1
        | absent | sent | dropped => rfl
      · rfl
    refine ⟨?_, ?_, calm⟩
    · rw [ready]
      exact spent.2
    · intro waiting
      rw [ready] at waiting
      exact absurd waiting spent.1

theorem taskSound_setUp (old : TaskSound task) {result : Except String Unit}
    (plain : task.watcher = .fsState ∨ task.watcher = .systemResume) :
    TaskSound (task.setUp result) := by
  refine ⟨old.failed, ?_, old.seen⟩
  intro error hready auth
  simp only [Task.setUp] at hready
  cases hr : task.ready with
  | waiting =>
    cases result with
    | ok => simp [hr, Ready.send, Except.mapError] at hready
    | error text =>
      simp only [hr, Ready.send, Except.mapError, Ready.sent.injEq, Except.error.injEq] at hready
      exact absurd (hready ▸ auth) (not_authText_plain plain text)
  | absent | dropped => simp [hr, Ready.send] at hready
  | sent =>
    simp only [hr, Ready.send] at hready
    exact old.refused error (hr.trans hready) auth

theorem taskKept_setUp (old : TaskKept task) {result : Except String Unit}
    (succeeds : task.ready = .waiting → result = .ok ()) :
    TaskKept (task.setUp result) := by
  simp only [Task.setUp]
  cases hr : task.ready with
  | waiting =>
    rw [succeeds hr]
    exact ⟨by simp [Ready.send, Except.mapError], by simp [Ready.send], old.calm⟩
  | absent => exact ⟨by simp [Ready.send], by simp [Ready.send], old.calm⟩
  | dropped => exact absurd hr old.unspoiled.1
  | sent result =>
    have unspoiled := old.unspoiled
    rw [hr] at unspoiled
    exact ⟨unspoiled, by simp [Ready.send], old.calm⟩

theorem taskSound_crash (old : TaskSound task) (running : task.outcome = none) :
    TaskSound task.crash := by
  refine ⟨by simp [Task.crash], ?_, fun _ => by simp [Task.crash]⟩
  intro error hready auth
  obtain ⟨text, hout⟩ := old.refused error (close_sent.mp hready) auth
  rw [running] at hout
  cases hout

theorem taskKept_crash (old : TaskKept task) (reported : task.ready ≠ .waiting) :
    TaskKept task.crash := by
  have same : task.crash.ready = task.ready := by
    cases hr : task.ready with
    | waiting => exact absurd hr reported
    | absent | sent | dropped => simp [Task.crash, hr, Ready.close]
  refine ⟨same ▸ old.unspoiled, ?_, old.calm⟩
  intro waiting
  exact absurd (same ▸ waiting) reported

end Tasks

end DaemonExit

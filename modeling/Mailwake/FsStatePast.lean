import Mailwake.FsStateMoves

/-!
# Trackers and batches of the filesystem-state source lie in the past

The first and the last event that an operation has noted are in this order, and neither is later
than the present.
-/
namespace FsState
open Channel CommandReport Transition
universe u
variable {V : Type u}

/-- What a tracker has noted lies in the past. -/
def DirtyTracker.Past (now : Nat) (dirty : DirtyTracker) : Prop :=
  ∀ first, dirty.first = some first → ∃ last, dirty.last = some last ∧ first ≤ last ∧ last ≤ now

def Pc.Past (now : Nat) : Pc → Prop
  | .settleHead batch | .settling batch => batch.first ≤ batch.last ∧ batch.last ≤ now
  | .comparing dirty | .submitting _ dirty | .ownRun _ dirty _ | .ownSettle _ dirty _
  | .rebaselining _ dirty => dirty.Past now
  | _ => True

variable {runner : FsStateRunner} {s t : State V} {tr es : List (Event V)} {now : Nat}
  {dirty : DirtyTracker}

theorem head_cases {batch : EventBatch} (h : s.pc.head = .settleHead batch) :
    s.pc = .settleHead batch ∨ s.pc = .settling batch := by
  cases hpc : s.pc <;> rw [hpc] at h <;> cases h
  · exact Or.inl rfl
  · exact Or.inr rfl

theorem past_clean : DirtyTracker.clean.Past now := by
  intro first noted
  cases noted

theorem DirtyTracker.Past.mono (h : dirty.Past now) {later : Nat} (le : now ≤ later) :
    dirty.Past later := by
  intro first noted
  obtain ⟨last, seen, order, before⟩ := h first noted
  exact ⟨last, seen, order, before.trans le⟩

theorem DirtyTracker.Past.note (h : dirty.Past now) : (dirty.noteNow now).Past now := by
  intro first noted
  refine ⟨now, rfl, ?_, le_rfl⟩
  cases already : dirty.first with
  | none =>
    obtain rfl : now = first := by simpa [noteNow, already] using noted
    exact le_rfl
  | some earlier =>
    obtain rfl : earlier = first := by simpa [noteNow, already] using noted
    obtain ⟨last, -, order, before⟩ := h earlier already
    exact order.trans before

theorem Pc.Past.mono {pc : Pc} (h : pc.Past now) {later : Nat} (le : now ≤ later) :
    pc.Past later := by
  cases pc with
  | settleHead batch | settling batch => exact ⟨h.1, h.2.trans le⟩
  | comparing | submitting | ownRun | ownSettle | rebaselining =>
    exact DirtyTracker.Past.mono h le
  | boot | startRead | recvHead | recvWait | ended => trivial

theorem past_conclude (h : dirty.Past now) : (conclude (V := V) dirty).1.Past now := by
  unfold conclude
  cases noted : dirty.first with
  | none => simp [DirtyTracker.intoBatch, noted, Pc.Past]
  | some first =>
    obtain ⟨last, seen, order, before⟩ := h first noted
    simp [DirtyTracker.intoBatch, noted, seen, Pc.Past, order, before]

theorem past_checkNow : (checkNow (V := V) runner).1.Past now := by
  unfold checkNow
  split <;> exact past_clean

theorem past_runFailed {origin : Origin} (h : dirty.Past now) :
    (runFailed (V := V) now origin dirty).1.Past now := by
  cases origin with
  | batch => exact past_conclude h.note
  | startup => exact past_conclude h

theorem past_afterSettle {origin : Origin} (h : dirty.Past now) :
    (afterSettle (V := V) runner now origin dirty).1.Past now := by
  unfold afterSettle
  split
  · exact h
  · exact past_conclude h

theorem past_runSucceeded {origin : Origin} (h : dirty.Past now) :
    (runSucceeded (V := V) runner now origin dirty).1.Past now := by
  unfold runSucceeded
  split
  · exact past_afterSettle h
  · exact h

theorem past_recv (old : s.pc.Past s.now) (h : recv s = some (t, es)) : t.pc.Past t.now := by
  cases got : s.events.recv with
  | none => simp [recv, got] at h
  | some next =>
    obtain ⟨message, events⟩ := next
    cases message with
    | none =>
      cases hpc : s.pc <;> simp only [recv, got, hpc] at h <;> cases h <;> trivial
    | some event =>
      cases hpc : s.pc with
      | recvWait =>
        simp only [recv, got, hpc] at h
        cases h
        exact ⟨le_rfl, le_rfl⟩
      | settling batch =>
        rw [hpc] at old
        simp only [recv, got, hpc] at h
        cases h
        exact ⟨old.1.trans old.2, le_rfl⟩
      | comparing dirty | submitting origin dirty =>
        rw [hpc] at old
        simp only [recv, got, hpc] at h
        cases h
        exact DirtyTracker.Past.note old
      | ownRun origin dirty running =>
        rw [hpc] at old
        simp only [recv, got, hpc] at h
        split at h <;> cases h
        · exact hpc ▸ old
        · exact DirtyTracker.Past.note old
      | ownSettle | rebaselining =>
        simp only [recv, got, hpc] at h
        cases h
        exact hpc ▸ old
      | boot | startRead | recvHead | settleHead | ended => simp [recv, got, hpc] at h

variable [DecidableEq V] {label : Label V}

theorem past_readDone (old : s.pc.Past s.now) {result : Except StateReadError V}
    (h : readDone runner s result = some (t, es)) : t.pc.Past t.now := by
  cases hpc : s.pc with
  | startRead =>
    simp only [readDone, hpc] at h
    split at h
    · cases h; trivial
    · cases h; trivial
    · split at h <;> cases h <;> trivial
  | comparing dirty =>
    rw [hpc] at old
    simp only [readDone, hpc] at h
    split at h <;> cases h
    · unfold compared
      split
      · exact past_conclude old
      · exact past_clean
    · trivial
    · exact past_conclude old
  | rebaselining origin dirty =>
    rw [hpc] at old
    simp only [readDone, hpc] at h
    split at h <;> cases h
    · exact past_conclude old
    · trivial
    · exact past_conclude old
  | boot | recvHead | recvWait | settleHead | settling | submitting | ownRun | ownSettle | ended =>
    simp [readDone, hpc] at h

theorem past_step (old : s.pc.Past s.now) (h : step runner s label = some (t, es)) :
    t.pc.Past t.now := by
  cases label with
  | notify event =>
    simp only [step] at h
    split at h <;> cases h
    exact old
  | closeEvents | setShutdown | dropShutdown | setStartup | dropStartup => cases h; exact old
  | advance duration => cases h; exact old.mono (Nat.le_add_right _ _)
  | proceed =>
    cases hpc : s.pc <;> simp only [step, proceed, hpc] at h
    case boot => split at h <;> cases h <;> trivial
    case recvHead =>
      split at h <;> cases h
      · exact past_clean
      · trivial
    case settleHead batch =>
      rw [hpc] at old
      split at h <;> cases h
      · exact past_checkNow
      · exact old
    all_goals cases h
  | shutdownChanged =>
    cases change : s.shutdown.changed with
    | none => simp [step, shutdownChanged, change] at h
    | some next =>
      obtain ⟨ok, shutdown⟩ := next
      cases hpc : s.pc <;> simp only [step, shutdownChanged, change, hpc] at h <;> cases h
      all_goals
        rw [hpc] at old
        dsimp only
        split
        · trivial
        · exact old
  | startupChanged =>
    simp only [step, startupChanged] at h
    split at h
    · split at h
      · cases h
      · split at h <;> cases h
        · exact past_clean
        · trivial
      · cases h
        trivial
    · cases h
  | recv => exact past_recv old h
  | timer =>
    cases hpc : s.pc <;> simp only [step, timer, hpc] at h
    case settling batch =>
      split at h <;> cases h
      exact past_checkNow
    case ownSettle origin dirty deadline =>
      rw [hpc] at old
      split at h <;> cases h
      exact past_afterSettle old
    all_goals cases h
  | readDone result => exact past_readDone old h
  | startDone accepted =>
    cases hpc : s.pc <;> simp only [step, startDone, hpc] at h
    case submitting origin dirty =>
      rw [hpc] at old
      split at h <;> cases h
      · exact old
      · exact past_runFailed old
    all_goals cases h
  | lifecycle message =>
    cases hpc : s.pc <;> simp only [step, lifecycle, hpc] at h
    case ownRun origin dirty running =>
      rw [hpc] at old
      split at h <;> cases h
      · exact old
      · dsimp only [emit, State.goto]
        split
        · exact past_runSucceeded old
        · exact past_runFailed old
      · exact past_runFailed old
    all_goals cases h

/-- Every batch that a run waits for has come about in the past. -/
theorem batch_is_past {runOnStartup : Bool} {batch : EventBatch} {labels : List (Label V)}
    (run : exec (step runner) (.start runOnStartup) labels = some (s, tr))
    (head : s.pc.head = .settleHead batch) : batch.first ≤ batch.last ∧ batch.last ≤ s.now := by
  have start : (State.start runOnStartup : State V).pc.Past 0 := trivial
  have past : s.pc.Past s.now :=
    exec_state_invariant (P := fun u : State V => u.pc.Past u.now)
      (fun _ _ _ _ old h => past_step old h) start run
  rcases head_cases head with hpc | hpc <;> (rw [hpc] at past; exact past)

end FsState

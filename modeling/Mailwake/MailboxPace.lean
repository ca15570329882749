import Mailwake.MailboxWatcher
import Mailwake.Pace

/-!
# How long an IMAP watcher goes without a progress mark

`watch_mailbox_forever` on a clock. Every operation ends within its timeout, a helper also
within the grace it is given after that; the backoff and the refresh timer run their full
time. A mark is a call of `mark_watcher`. Times are milliseconds.
-/
namespace MailboxPace
open Transition Pace

/-- The operations of `run_mailbox_once` before IDLE. -/
inductive Stage where
  | connect
  | tls
  | greeting
  | helper
  | authenticate
  | examine
  deriving DecidableEq

/-- `terminateGrace` is what a helper may take beyond its timeout. -/
structure Settings where
  connectTimeout : Nat
  operationTimeout : Nat
  helperTimeout : Nat
  terminateGrace : Nat
  idleRefresh : Nat
  tls : Bool
  helper : Bool

namespace Settings
variable (settings : Settings)

def stages : List Stage :=
  .connect :: ((if settings.tls then [.tls] else []) ++
    .greeting :: ((if settings.helper then [.helper] else []) ++ [.authenticate, .examine]))

def stageLimit : Stage → Nat
  | .connect => settings.connectTimeout
  | .helper => settings.helperTimeout + settings.terminateGrace
  | _ => settings.operationTimeout

def total (stages : List Stage) : Nat := (stages.map settings.stageLimit).sum

/-- From the connection attempt to a completed EXAMINE. -/
def handshake : Nat := settings.total settings.stages

/-- The longest stretch of one watcher without a mark. -/
def longestGap : Nat :=
  max (max settings.handshake settings.idleRefresh + 2 * settings.operationTimeout)
    (MailboxWatcher.maxBackoff * 1000)

end Settings

structure Inner where
  watcher : MailboxWatcher.State
  /-- The operations left before IDLE, the current one first. -/
  todo : List Stage

inductive Action where
  /-- An operation before EXAMINE has succeeded. -/
  | stage
  | watcher (label : MailboxWatcher.Label)

def todoAfter (settings : Settings) (s : Inner) : MailboxWatcher.Label → List Stage
  | .check _ => settings.stages
  | _ => s.todo

def allowed (s : Inner) : MailboxWatcher.Label → Bool
  | .examined _ => s.todo = [.examine]
  | _ => true

def innerStep (settings : Settings) (s : Inner) : Action → Option Inner
  | .stage =>
    match s.watcher.pc, s.todo with
    | .connecting, _ :: next :: rest => some { s with todo := next :: rest }
    | _, _ => none
  | .watcher label =>
    if allowed s label then
      (MailboxWatcher.step s.watcher label).map fun next =>
        ⟨next.1, todoAfter settings s label⟩
    else none

def idleLimit (settings : Settings) : ImapIdle.Pc → Nat
  | .idling _ => settings.idleRefresh
  | .ended _ => 0
  | _ => settings.operationTimeout

def limit (settings : Settings) (s : Inner) : Nat :=
  match s.watcher.pc with
  | .connecting => (s.todo.head?.map settings.stageLimit).getD 0
  | .session idle => idleLimit settings idle.pc
  | .backoff => s.watcher.backoff * 1000
  | _ => 0

/-- Timers and timeouts fire when they are due. -/
def onTime (_ : Inner) : Action → Bool
  | .watcher (.slept true) => true
  | .watcher (.session .refresh) => true
  | .watcher (.session .timedOut) => true
  | _ => false

/-- The three loops over lines go on under one timer. -/
def sameWait : ImapIdle.Pc → ImapIdle.Pc → Bool
  | .continuation _, .continuation _ => true
  | .idling _, .idling _ => true
  | .completion _ _ _, .completion _ _ _ => true
  | _, _ => false

def stays (s : Inner) (_ : Action) (t : Inner) : Bool :=
  match s.watcher.pc, t.watcher.pc with
  | .session idle, .session next => sameWait idle.pc next.pc
  | _, _ => false

/-- The calls of `mark_watcher` with `Idling`: at a continuation, at a line inside IDLE that
does not end it, and after a refresh. -/
def marksIdling (idle next : ImapIdle.State) : ImapIdle.Label → Bool
  | .line _ =>
    match idle.pc, next.pc with
    | .continuation _, .idling _ => true
    | .idling _, .idling _ => true
    | .completion _ _ _, .sendingIdle _ => true
    | _, _ => false
  | _ => false

def progress (s : Inner) (action : Action) (t : Inner) : Bool :=
  match t.watcher.pc, action with
  | .connecting, .watcher _ => true
  | .backoff, _ => true
  | .crashed, _ => true
  | .stopped, _ => true
  | .session next, .watcher (.session label) =>
    match s.watcher.pc with
    | .session idle => marksIdling idle next label
    | _ => false
  | _, _ => false

def clock (settings : Settings) : Clockwork Inner Action where
  step := innerStep settings
  limit := limit settings
  onTime := onTime
  stays := stays
  progress := progress

section Session
variable {idle next : ImapIdle.State} {label : ImapIdle.Label} {es : List ImapIdle.Event}

/-- The passages between the waits of a session. -/
inductive Passage (idle next : ImapIdle.State) (label : ImapIdle.Label) : Prop where
  | ended (result : Except ImapLine.ImapError ImapIdle.RunEnd) : next.pc = .ended result →
      Passage idle next label
  | marked : marksIdling idle next label = true → Passage idle next label
  | same : sameWait idle.pc next.pc = true → Passage idle next label
  | sent (tag : Nat) : idle.pc = .sendingIdle tag → next.pc = .continuation tag →
      Passage idle next label
  | done (tag : Nat) (stopping : Bool) : idle.pc = .sendingDone tag stopping →
      next.pc = .completion tag stopping false → Passage idle next label
  | reissued (tag after : Nat) : idle.pc = .idling tag → next.pc = .sendingIdle after →
      Passage idle next label
  | leaving (tag : Nat) (stopping : Bool) : idle.pc = .idling tag →
      next.pc = .sendingDone tag stopping → Passage idle next label

theorem passage_of_step (h : ImapIdle.step idle label = some (next, es)) :
    Passage idle next label := by
  cases label with
  | wrote result =>
    simp only [ImapIdle.step] at h
    split at h
    · rename_i tag hpc
      cases h
      exact .sent tag hpc rfl
    · cases h
      exact .ended _ rfl
    · rename_i tag stopping hpc
      cases h
      exact .done tag stopping hpc rfl
    · cases h
      exact .ended _ rfl
    · cases h
  | line line =>
    simp only [ImapIdle.step] at h
    split at h
    · rename_i tag hpc
      cases h
      simp only [ImapIdle.waitIdleContinuation]
      split
      · refine .marked ?_
        rw [ImapIdle.continued]
        split <;> simp [marksIdling, hpc]
      split
      · exact .ended _ rfl
      · exact .same (by simp [sameWait, hpc])
    · rename_i tag hpc
      cases h
      simp only [ImapIdle.idleLine]
      split
      · exact .ended _ rfl
      · exact .reissued tag _ hpc rfl
      · exact .same (by simp [sameWait, hpc])
      · exact .same (by simp [sameWait, hpc])
    · rename_i tag stopping eventQueued hpc
      cases h
      simp only [ImapIdle.waitIdleCompletion]
      split
      · exact .ended _ rfl
      · split
        · exact .ended _ rfl
        · exact .marked (by simp [marksIdling, hpc, ImapIdle.issue])
      · split <;> exact .same (by simp [sameWait, hpc])
      · exact .same (by simp [sameWait, hpc])
    · cases h
  | readFailed | timedOut =>
    simp only [ImapIdle.step] at h
    split at h <;> cases h <;> exact .ended _ rfl
  | refresh =>
    simp only [ImapIdle.step] at h
    split at h
    · rename_i tag hpc
      cases h
      exact .leaving tag false hpc rfl
    · cases h
  | shutdownChanged stop =>
    simp only [ImapIdle.step] at h
    split at h
    · rename_i tag hpc
      cases h
      cases stop with
      | true => exact .leaving tag true hpc rfl
      | false => exact .same (by simp [sameWait, hpc])
    · cases h

end Session

section Budget
variable (settings : Settings)

def idleBudget : ImapIdle.Pc → Nat
  | .sendingIdle _ => max settings.handshake settings.idleRefresh
  | .continuation _ =>
    max settings.handshake settings.idleRefresh + settings.operationTimeout
  | .idling _ => 0
  | .sendingDone _ _ => settings.idleRefresh
  | .completion _ _ _ => settings.idleRefresh + settings.operationTimeout
  | .ended _ => settings.longestGap

def budget (s : Inner) : Nat :=
  match s.watcher.pc with
  | .head => settings.longestGap
  | .connecting => settings.handshake - settings.total s.todo
  | .session idle => idleBudget settings idle.pc
  | _ => 0

structure Sound (s : Inner) : Prop where
  backoff : s.watcher.backoff ≤ MailboxWatcher.maxBackoff
  todo : s.watcher.pc = .connecting →
    ∃ before, settings.stages = before ++ s.todo ∧ s.todo ≠ []

variable {settings} {s t : Inner} {action : Action}

theorem total_append (before after : List Stage) :
    settings.total (before ++ after) = settings.total before + settings.total after := by
  simp [Settings.total]

theorem handshake_le (settings : Settings) : max settings.handshake settings.idleRefresh +
    2 * settings.operationTimeout ≤ settings.longestGap :=
  le_max_left _ _

theorem idle_fits (pc : ImapIdle.Pc) :
    idleBudget settings pc + idleLimit settings pc ≤ settings.longestGap := by
  have most := handshake_le settings
  cases pc <;> simp only [idleBudget, idleLimit] <;> omega

theorem fits (sound : Sound settings s) : budget settings s + limit settings s ≤
    settings.longestGap := by
  have most := handshake_le settings
  cases hpc : s.watcher.pc with
  | head => simp only [budget, limit, hpc, Nat.add_zero, le_refl]
  | connecting =>
    obtain ⟨before, stages, nonempty⟩ := sound.todo hpc
    obtain ⟨stage, rest, htodo⟩ := List.exists_cons_of_ne_nil nonempty
    have whole : settings.handshake = settings.total before + settings.total s.todo := by
      rw [Settings.handshake, stages, total_append]
    have first : settings.total s.todo = settings.stageLimit stage + settings.total rest := by
      simp [htodo, Settings.total]
    have held : limit settings s = settings.stageLimit stage := by simp [limit, hpc, htodo]
    rw [held]
    simp only [budget, hpc]
    omega
  | session idle =>
    simp only [budget, limit, hpc]
    exact idle_fits idle.pc
  | backoff =>
    have capped : s.watcher.backoff * 1000 ≤ MailboxWatcher.maxBackoff * 1000 :=
      Nat.mul_le_mul_right 1000 sound.backoff
    have within : MailboxWatcher.maxBackoff * 1000 ≤ settings.longestGap := le_max_right _ _
    simp only [budget, limit, hpc, Nat.zero_add]
    exact capped.trans within
  | crashed => simp only [budget, limit, hpc, Nat.add_zero, Nat.zero_le]
  | stopped => simp only [budget, limit, hpc, Nat.add_zero, Nat.zero_le]

theorem initialBackoff_le : MailboxWatcher.initialBackoff ≤ MailboxWatcher.maxBackoff := by decide

/-- All that the budget needs to know of one step. -/
structure Turn (settings : Settings) (s : Inner) (action : Action) (t : Inner) : Prop where
  sound : Sound settings t
  same_wait : stays s action t = true →
    limit settings t = limit settings s ∧ budget settings s ≤ budget settings t
  carries : progress s action t = false → stays s action t = false →
    budget settings s + limit settings s ≤ budget settings t

/-- A step to the head of the loop. -/
theorem turn_head (sound : Sound settings s) (hpc : t.watcher.pc = .head)
    (backoff : t.watcher.backoff ≤ MailboxWatcher.maxBackoff) : Turn settings s action t := by
  refine ⟨⟨backoff, by simp [hpc]⟩, by simp [stays, hpc], ?_⟩
  intro _ _
  simp only [budget, hpc]
  exact fits sound

/-- A step that marks the watcher and starts another wait. -/
theorem turn_marked (sound : Sound settings t) (marked : progress s action t = true)
    (left : stays s action t = false) : Turn settings s action t :=
  ⟨sound, by simp [left], by simp [marked]⟩

theorem turn_session {idle next : ImapIdle.State} {label : ImapIdle.Label}
    {es : List ImapIdle.Event} (sound : Sound settings s) (hpc : s.watcher.pc = .session idle)
    (h : ImapIdle.step idle label = some (next, es)) :
    Turn settings s (.watcher (.session label))
      ⟨MailboxWatcher.follow s.watcher next, s.todo⟩ := by
  have most := handshake_le settings
  have passage := passage_of_step h
  rw [MailboxWatcher.follow]
  split
  · rename_i result _
    rcases result with error | stop
    · refine turn_marked ⟨?_, by simp [MailboxWatcher.conclude]⟩
        (by simp [progress, MailboxWatcher.conclude]) (by simp [stays, hpc, MailboxWatcher.conclude])
      simp only [MailboxWatcher.conclude]
      split
      · decide
      · exact sound.backoff
    · cases stop with
      | shutdown =>
        exact turn_marked ⟨sound.backoff, by simp [MailboxWatcher.conclude]⟩
          (by simp [progress, MailboxWatcher.conclude])
          (by simp [stays, hpc, MailboxWatcher.conclude])
      | reconnect => exact turn_head sound rfl (by simp [MailboxWatcher.conclude]; decide)
  · rename_i running
    have kept : Sound settings ⟨{ s.watcher with pc := .session next }, s.todo⟩ :=
      ⟨sound.backoff, by simp⟩
    refine ⟨kept, ?_, ?_⟩
    · intro same
      simp only [stays, hpc] at same
      simp only [limit, budget, hpc]
      revert same
      cases idle.pc <;> cases next.pc <;> simp [sameWait, idleLimit, idleBudget]
    · intro quiet left
      simp only [progress, hpc] at quiet
      simp only [stays, hpc] at left
      simp only [budget, limit, hpc]
      cases passage with
      | ended result hend => exact absurd hend (running result)
      | marked marked => simp [marked] at quiet
      | same same => simp [same] at left
      | sent tag hi hn =>
        simp only [hi, hn, idleBudget, idleLimit]
        omega
      | done tag stopping hi hn =>
        simp only [hi, hn, idleBudget, idleLimit]
        omega
      | reissued tag after hi hn =>
        simp only [hi, hn, idleBudget, idleLimit]
        omega
      | leaving tag stopping hi hn =>
        simp only [hi, hn, idleBudget, idleLimit]
        omega

theorem turn_of_step (sound : Sound settings s)
    (h : innerStep settings s action = some t) : Turn settings s action t := by
  cases action with
  | stage =>
    simp only [innerStep] at h
    split at h
    · rename_i stage next rest hpc htodo
      obtain rfl := Option.some.inj h
      obtain ⟨before, stages, -⟩ := sound.todo hpc
      have whole : settings.handshake = settings.total before + settings.total s.todo := by
        rw [Settings.handshake, stages, total_append]
      have first : settings.total s.todo =
          settings.stageLimit stage + settings.total (next :: rest) := by
        simp [htodo, Settings.total]
      refine ⟨⟨sound.backoff, fun _ => ⟨before ++ [stage], by simp [stages, htodo], by simp⟩⟩,
        by simp [stays, hpc], ?_⟩
      intro _ _
      have held : limit settings s = settings.stageLimit stage := by simp [limit, hpc, htodo]
      rw [held]
      simp only [budget, hpc]
      omega
    · cases h
  | watcher label =>
    simp only [innerStep] at h
    split at h
    · rename_i permitted
      obtain ⟨⟨w, es⟩, hs, rfl⟩ := Option.map_eq_some_iff.mp h
      cases MailboxWatcher.turn_of_step hs with
      | checked shutdown hpc =>
        cases shutdown with
        | true =>
          exact turn_marked ⟨sound.backoff, by simp⟩ (by simp [progress]) (by simp [stays, hpc])
        | false =>
          refine turn_marked ⟨sound.backoff, fun _ => ⟨[], rfl, ?_⟩⟩ (by simp [progress])
            (by simp [stays, hpc])
          simp [todoAfter, Settings.stages]
      | examined tags hpc =>
        refine ⟨⟨sound.backoff, by simp⟩, by simp [stays, hpc], ?_⟩
        intro _ _
        have last : s.todo = [.examine] := by simpa [allowed] using permitted
        obtain ⟨before, stages, -⟩ := sound.todo hpc
        have whole : settings.handshake = settings.total before + settings.total s.todo := by
          rw [Settings.handshake, stages, total_append]
        have held : limit settings s = settings.total s.todo := by
          simp [limit, hpc, last, Settings.total]
        rw [held]
        simp only [budget, hpc, ImapIdle.State.start, ImapIdle.issue, idleBudget]
        omega
      | crashed hpc | failed hpc =>
        exact turn_marked ⟨sound.backoff, by simp⟩ (by simp [progress]) (by simp [stays, hpc])
      | session hpc hi => exact turn_session sound hpc hi
      | dropped | cut => exact turn_head sound rfl initialBackoff_le
      | slept retry hpc =>
        cases retry with
        | true => exact turn_head sound rfl (min_le_right _ _)
        | false =>
          exact turn_marked ⟨sound.backoff, by simp⟩ (by simp [progress]) (by simp [stays, hpc])
    · cases h

end Budget

def pace (settings : Settings) : Pace.Budget (clock settings) settings.longestGap where
  budget := budget settings
  Sound := Sound settings
  sound_step _ _ _ sound h := (turn_of_step sound h).sound
  fits _ sound := fits sound
  same_wait _ _ _ sound h := (turn_of_step sound h).same_wait
  carries _ _ _ sound h := (turn_of_step sound h).carries

section Longest
variable (settings : Settings)

/-- A watcher at a connection attempt. -/
def attempt (w : MailboxWatcher.State) (todo : List Stage) (now last : Nat) : Pace.State Inner :=
  ⟨⟨{ w with pc := .connecting }, todo⟩, now, now, last⟩

variable {settings} {w : MailboxWatcher.State} {now last : Nat}

/-- A watcher at the head of its loop. -/
def atHead (w : MailboxWatcher.State) (todo : List Stage) (now last : Nat) : Pace.State Inner :=
  ⟨⟨{ w with pc := .head }, todo⟩, now, now, last⟩

theorem reaches_attempt (todo : List Stage) :
    Reaches (Pace.step (clock settings)) (atHead w todo now last)
      (attempt w settings.stages now now) :=
  reaches_free 0 (.watcher (.check false)) (Nat.le_add_right now _) rfl rfl rfl

theorem reaches_last_stage (before : List Stage) (stage : Stage) (now : Nat) :
    Reaches (Pace.step (clock settings)) (attempt w (before ++ [stage]) now last)
      (attempt w [stage] (now + settings.total before) last) := by
  induction before generalizing now with
  | nil => exact .refl _
  | cons first before ih =>
    obtain ⟨next, rest, more⟩ : ∃ next rest, before ++ [stage] = next :: rest := by
      cases before with
      | nil => exact ⟨stage, [], rfl⟩
      | cons next rest => exact ⟨next, rest ++ [stage], rfl⟩
    have held : Reaches (Pace.step (clock settings)) (attempt w (first :: before ++ [stage]) now last)
        (attempt w (before ++ [stage]) (now + settings.stageLimit first) last) := by
      refine reaches_free (settings.stageLimit first) .stage (le_refl _) rfl ?_ rfl
      simp [attempt, clock, innerStep, more]
    have later := ih (now + settings.stageLimit first)
    have sum : now + settings.stageLimit first + settings.total before =
        now + settings.total (first :: before) := by
      simp [Settings.total, Nat.add_assoc]
    rw [sum] at later
    exact held.trans later

theorem stages_last (settings : Settings) : ∃ before, settings.stages = before ++ [.examine] ∧
    settings.handshake = settings.total before + settings.operationTimeout := by
  have split : ∃ before, settings.stages = before ++ [.examine] :=
    ⟨.connect :: ((if settings.tls then [.tls] else []) ++
      .greeting :: ((if settings.helper then [.helper] else []) ++ [.authenticate])),
      by simp [Settings.stages]⟩
  obtain ⟨before, stages⟩ := split
  exact ⟨before, stages, by rw [Settings.handshake, stages, total_append]; rfl⟩

/-- A watcher waiting for the first continuation of its session. -/
def continuing (w : MailboxWatcher.State) (todo : List Stage) (now last : Nat) :
    Pace.State Inner :=
  ⟨⟨{ w with pc := .session ⟨3, false, w.connectedOnce, w.initialReady, .continuation 3⟩ }, todo⟩,
    now, now, last⟩

/-- Every operation up to IDLE takes its full time. -/
theorem reaches_continuing (todo : List Stage) :
    Reaches (Pace.step (clock settings)) (atHead w todo now last)
      (continuing w [.examine] (now + (settings.handshake + settings.operationTimeout)) now) := by
  obtain ⟨before, stages, handshake⟩ := stages_last settings
  have examining : Reaches (Pace.step (clock settings)) (atHead w todo now last)
      (attempt w [.examine] (now + settings.total before) now) := by
    refine (reaches_attempt todo).trans ?_
    rw [stages]
    exact reaches_last_stage before .examine now
  have sending : Reaches (Pace.step (clock settings))
      (attempt w [.examine] (now + settings.total before) now)
      ⟨⟨{ w with pc := .session (.start 2 w.connectedOnce w.initialReady) }, [.examine]⟩,
        now + settings.total before + settings.operationTimeout,
        now + settings.total before + settings.operationTimeout, now⟩ :=
    reaches_free settings.operationTimeout (.watcher (.examined 2)) (le_refl _) rfl rfl rfl
  have continuing : Reaches (Pace.step (clock settings))
      ⟨⟨{ w with pc := .session (.start 2 w.connectedOnce w.initialReady) }, [.examine]⟩,
        now + settings.total before + settings.operationTimeout,
        now + settings.total before + settings.operationTimeout, now⟩
      (MailboxPace.continuing w [.examine] (now + settings.total before +
        settings.operationTimeout + settings.operationTimeout) now) :=
    reaches_free settings.operationTimeout (.watcher (.session (.wrote (.ok ())))) (le_refl _)
      rfl rfl rfl
  have sum : now + (settings.handshake + settings.operationTimeout) = now + settings.total before +
      settings.operationTimeout + settings.operationTimeout := by omega
  rw [sum]
  exact examining.trans (sending.trans continuing)

theorem handshake_gap (todo : List Stage) : ∃ s,
    Reaches (Pace.step (clock settings)) (atHead w todo now last) s ∧
      s.now - s.lastProgress = settings.handshake + 2 * settings.operationTimeout := by
  have waited : Reaches (Pace.step (clock settings))
      (continuing w [.examine] (now + (settings.handshake + settings.operationTimeout)) now)
      { continuing w [.examine] (now + (settings.handshake + settings.operationTimeout)) now with
        now := now + (settings.handshake + settings.operationTimeout) + settings.operationTimeout } :=
    reaches_advance (le_refl _)
  refine ⟨_, (reaches_continuing todo).trans waited, ?_⟩
  simp only [continuing]
  omega

/-- A refresh whose DONE and completion take their full time. -/
theorem refresh_gap (todo : List Stage) : ∃ s,
    Reaches (Pace.step (clock settings)) (atHead w todo now last) s ∧
      s.now - s.lastProgress = settings.idleRefresh + 2 * settings.operationTimeout := by
  let start := now + (settings.handshake + settings.operationTimeout)
  let idle : ImapIdle.State := ⟨3, true, w.connectedOnce, false, .idling 3⟩
  have idling : Reaches (Pace.step (clock settings)) (continuing w [.examine] start now)
      ⟨⟨{ w with pc := .session idle }, [.examine]⟩, start, start, start⟩ :=
    reaches_free 0 (.watcher (.session (.line ['+']))) (Nat.le_add_right start _) rfl rfl rfl
  have leaving : Reaches (Pace.step (clock settings))
      ⟨⟨{ w with pc := .session idle }, [.examine]⟩, start, start, start⟩
      ⟨⟨{ w with pc := .session { idle with pc := .sendingDone 3 false } }, [.examine]⟩,
        start + settings.idleRefresh, start + settings.idleRefresh, start⟩ :=
    reaches_act settings.idleRefresh (.watcher (.session .refresh)) (le_refl _) (fun _ => rfl)
      rfl rfl
  have completing : Reaches (Pace.step (clock settings))
      ⟨⟨{ w with pc := .session { idle with pc := .sendingDone 3 false } }, [.examine]⟩,
        start + settings.idleRefresh, start + settings.idleRefresh, start⟩
      ⟨⟨{ w with pc := .session { idle with pc := .completion 3 false false } }, [.examine]⟩,
        start + settings.idleRefresh + settings.operationTimeout,
        start + settings.idleRefresh + settings.operationTimeout, start⟩ :=
    reaches_free settings.operationTimeout (.watcher (.session (.wrote (.ok ())))) (le_refl _)
      rfl rfl rfl
  have waited : Reaches (Pace.step (clock settings))
      ⟨⟨{ w with pc := .session { idle with pc := .completion 3 false false } }, [.examine]⟩,
        start + settings.idleRefresh + settings.operationTimeout,
        start + settings.idleRefresh + settings.operationTimeout, start⟩
      ⟨⟨{ w with pc := .session { idle with pc := .completion 3 false false } }, [.examine]⟩,
        start + settings.idleRefresh + settings.operationTimeout + settings.operationTimeout,
        start + settings.idleRefresh + settings.operationTimeout, start⟩ :=
    reaches_advance (le_refl _)
  refine ⟨_, (reaches_continuing todo).trans
    (idling.trans (leaving.trans (completing.trans waited))), ?_⟩
  dsimp only
  omega

/-- A failed attempt and its backoff. -/
theorem reaches_retry (settings : Settings) (w : MailboxWatcher.State) (todo : List Stage)
    (now last : Nat) :
    Reaches (Pace.step (clock settings)) (atHead w todo now last)
      (atHead { w with backoff := min (w.backoff * 2) MailboxWatcher.maxBackoff } settings.stages
        (now + w.backoff * 1000) now) := by
  have failed : Reaches (Pace.step (clock settings)) (attempt w settings.stages now now)
      ⟨⟨{ w with pc := .backoff }, settings.stages⟩, now, now, now⟩ :=
    reaches_free 0 (.watcher (.attemptFailed false)) (Nat.le_add_right now _) rfl rfl rfl
  have slept : Reaches (Pace.step (clock settings))
      ⟨⟨{ w with pc := .backoff }, settings.stages⟩, now, now, now⟩
      (atHead { w with backoff := min (w.backoff * 2) MailboxWatcher.maxBackoff } settings.stages
        (now + w.backoff * 1000) now) :=
    reaches_act (w.backoff * 1000) (.watcher (.slept true)) (le_refl _) (fun _ => rfl) rfl rfl
  exact (reaches_attempt todo).trans (failed.trans slept)

theorem reaches_backoff (settings : Settings) (n : Nat)
    (hb : w.backoff = MailboxWatcher.initialBackoff) (todo : List Stage) (now last : Nat) :
    ∃ todo' now' last', Reaches (Pace.step (clock settings))
      (atHead w todo now last)
      (atHead { w with backoff := min (2 ^ n) MailboxWatcher.maxBackoff } todo' now' last') := by
  induction n with
  | zero =>
    refine ⟨todo, now, last, ?_⟩
    have same : min (2 ^ 0) MailboxWatcher.maxBackoff = w.backoff := by rw [hb]; rfl
    rw [same]
    exact .refl _
  | succ n ih =>
    obtain ⟨todo', now', last', before⟩ := ih
    have doubled : min (min (2 ^ n) MailboxWatcher.maxBackoff * 2) MailboxWatcher.maxBackoff =
        min (2 ^ (n + 1)) MailboxWatcher.maxBackoff := by
      rw [Nat.pow_succ]
      omega
    have retried := reaches_retry settings
      { w with backoff := min (2 ^ n) MailboxWatcher.maxBackoff } todo' now' last'
    rw [doubled] at retried
    exact ⟨_, _, _, before.trans retried⟩

/-- Nine failures in a row lead to the longest backoff. -/
theorem backoff_gap (hb : w.backoff = MailboxWatcher.initialBackoff) (todo : List Stage) : ∃ s,
    Reaches (Pace.step (clock settings)) (atHead w todo now last) s ∧
      s.now - s.lastProgress = MailboxWatcher.maxBackoff * 1000 := by
  obtain ⟨todo', now', last', before⟩ := reaches_backoff settings 9 hb todo now last
  have full : min (2 ^ 9) MailboxWatcher.maxBackoff = MailboxWatcher.maxBackoff := by decide
  rw [full] at before
  have failed : Reaches (Pace.step (clock settings))
      (attempt { w with backoff := MailboxWatcher.maxBackoff } settings.stages now' now')
      ⟨⟨{ w with backoff := MailboxWatcher.maxBackoff, pc := .backoff }, settings.stages⟩,
        now', now', now'⟩ :=
    reaches_free 0 (.watcher (.attemptFailed false)) (Nat.le_add_right now' _) rfl rfl rfl
  have waited : Reaches (Pace.step (clock settings))
      ⟨⟨{ w with backoff := MailboxWatcher.maxBackoff, pc := .backoff }, settings.stages⟩,
        now', now', now'⟩
      ⟨⟨{ w with backoff := MailboxWatcher.maxBackoff, pc := .backoff }, settings.stages⟩,
        now' + MailboxWatcher.maxBackoff * 1000, now', now'⟩ :=
    reaches_advance (le_refl _)
  refine ⟨_, before.trans ((reaches_attempt todo').trans (failed.trans waited)), ?_⟩
  exact Nat.add_sub_cancel_left ..

/-- The bound is reached. -/
theorem longestGap_reached (settings : Settings) (initialReady : Bool) (now : Nat) : ∃ s,
    Reaches (Pace.step (clock settings)) (.start ⟨.start initialReady, []⟩ now) s ∧
      s.now - s.lastProgress = settings.longestGap := by
  have start : Pace.State.start ⟨.start initialReady, []⟩ now =
      atHead (.start initialReady) [] now now := rfl
  rw [start]
  rcases le_total (max settings.handshake settings.idleRefresh + 2 * settings.operationTimeout)
    (MailboxWatcher.maxBackoff * 1000) with backoff | operations
  · rw [Settings.longestGap, max_eq_right backoff]
    exact backoff_gap rfl []
  · rw [Settings.longestGap, max_eq_left operations]
    rcases le_total settings.handshake settings.idleRefresh with refresh | handshake
    · rw [max_eq_right refresh]
      exact refresh_gap []
    · rw [max_eq_left handshake]
      exact handshake_gap []

end Longest

end MailboxPace

import Mailwake.Backoff
import Mailwake.CatchUp
import Mailwake.GmailPace
import Mailwake.MailboxPace

/-!
# How often a failing watcher tries again

The IMAP and the Gmail watcher on their clocks, while nothing they try succeeds. Between two
attempts they wait out a backoff that doubles up to five minutes, so a server that is down sees
few of them. Times are milliseconds.
-/
namespace Retries
open Transition Pace Backoff

/-- The backoff of both watchers. -/
def policy : Policy := ⟨1000, 300000⟩

theorem next_seconds (backoff : Nat) :
    policy.next (backoff * 1000) = min (backoff * 2) 300 * 1000 := by
  simp only [Policy.next, policy]
  omega

theorem sound_seconds {backoff : Nat} (least : 1 ≤ backoff) (most : backoff ≤ 300) :
    policy.Sound (backoff * 1000) := by
  constructor
  · simp only [policy]
    omega
  · simp only [policy]
    omega

section Mailbox
open MailboxPace
variable {settings : MailboxPace.Settings} {w v : MailboxWatcher.State}
  {label : MailboxWatcher.Label}

/-- A session has been established. -/
def established (w : MailboxWatcher.State) : Bool :=
  match w.pc with
  | .session idle => idle.established
  | _ => false

def isHead (w : MailboxWatcher.State) : Bool :=
  match w.pc with
  | .head => true
  | _ => false

def begins : MailboxWatcher.Label → Bool
  | .check shutdown => !shutdown
  | _ => false

def retries : MailboxWatcher.Label → Bool
  | .slept retry => retry
  | _ => false

/-- No session stands, and no resume signal comes. -/
def futile (w : MailboxWatcher.State) : MailboxWatcher.Label → Bool
  | .resumed => false
  | _ => !established w

theorem fail_not_reconnect (idle : ImapIdle.State) (stopping : Bool) (error : ImapLine.ImapError) :
    (ImapIdle.fail idle stopping error).1.pc ≠ .ended (.ok .reconnect) := by
  cases stopping <;> simp [ImapIdle.fail, ImapIdle.finish]

/-- A session by itself ends in an error or in shutdown. -/
theorem not_reconnect {idle next : ImapIdle.State} {label : ImapIdle.Label}
    {es : List ImapIdle.Event} (h : ImapIdle.step idle label = some (next, es)) :
    next.pc ≠ .ended (.ok .reconnect) := by
  cases label with
  | wrote result =>
    simp only [ImapIdle.step] at h
    split at h <;> cases h
    · simp
    · exact fail_not_reconnect idle false _
    · simp
    · exact fail_not_reconnect idle _ _
  | line line =>
    simp only [ImapIdle.step] at h
    split at h
    · rename_i tag hpc
      cases h
      simp only [ImapIdle.waitIdleContinuation]
      split
      · rw [ImapIdle.continued]
        split <;> simp
      · split <;> simp [ImapIdle.finish, hpc]
    · rename_i tag hpc
      cases h
      simp only [ImapIdle.idleLine]
      split <;> simp [ImapIdle.finish, ImapIdle.issue, hpc]
    · rename_i tag stopping eventQueued hpc
      cases h
      simp only [ImapIdle.waitIdleCompletion]
      split
      · exact fail_not_reconnect idle stopping _
      · split <;> simp [ImapIdle.finish, ImapIdle.issue]
      · split <;> simp [hpc]
      · simp [hpc]
    · cases h
  | readFailed error =>
    simp only [ImapIdle.step] at h
    split at h <;> cases h <;> exact fail_not_reconnect idle _ _
  | timedOut =>
    simp only [ImapIdle.step] at h
    split at h <;> cases h <;> exact fail_not_reconnect idle _ _
  | refresh =>
    simp only [ImapIdle.step] at h
    split at h <;> cases h
    simp
  | shutdownChanged stop =>
    simp only [ImapIdle.step] at h
    split at h <;> cases h
    rename_i tag hpc
    cases stop <;> simp [hpc]

/-- What a futile step does to the backoff and to the place of the watcher. -/
structure Tries (w : MailboxWatcher.State) (label : MailboxWatcher.Label)
    (v : MailboxWatcher.State) : Prop where
  backoff : v.backoff = if retries label then min (w.backoff * 2) 300 else w.backoff
  sleeping : retries label = true → w.pc = .backoff
  credit : (if begins label then 1 else 0) + (if isHead v then 1 else 0) ≤
    (if isHead w then 1 else 0) + if retries label then 1 else 0

theorem tries_follow {idle : ImapIdle.State} (fresh : idle.established = false)
    (stays : idle.pc ≠ .ended (.ok .reconnect)) :
    (MailboxWatcher.follow w idle).backoff = w.backoff ∧
      isHead (MailboxWatcher.follow w idle) = false := by
  rw [MailboxWatcher.follow]
  split
  · rename_i result ended
    rcases result with error | stop
    · simp [MailboxWatcher.conclude, fresh, isHead, MailboxWatcher.State.after]
    · cases stop with
      | shutdown => simp [MailboxWatcher.conclude, isHead, MailboxWatcher.State.after]
      | reconnect => exact absurd ended stays
  · simp [isHead]

theorem tries_step {es : List MailboxWatcher.Event} (fruitless : futile w label = true)
    (h : MailboxWatcher.step w label = some (v, es)) : Tries w label v := by
  cases MailboxWatcher.turn_of_step h with
  | checked shutdown hpc =>
    cases shutdown <;> exact ⟨rfl, by simp [retries], by simp [begins, isHead, hpc]⟩
  | examined tags hpc | crashed hpc | failed hpc =>
    exact ⟨rfl, by simp [retries], by simp [begins, isHead]⟩
  | dropped | cut => cases fruitless
  | slept retry hpc =>
    cases retry with
    | true => exact ⟨rfl, fun _ => hpc, by simp [begins, retries, isHead]⟩
    | false => exact ⟨rfl, fun _ => hpc, by simp [begins, isHead]⟩
  | session hpc hi =>
    rename_i inner idle next fs
    have fresh : idle.established = false := by simpa [futile, established, hpc] using fruitless
    rcases CatchUp.session_cases hi with ⟨-, kept⟩ | ⟨-, tag, line, -, rfl⟩
    · obtain ⟨backoff, away⟩ := tries_follow (w := w) (kept.established.trans fresh)
        (not_reconnect hi)
      exact ⟨backoff, by simp [retries], by simp [begins, away]⟩
    · refine ⟨?_, by simp [retries], ?_⟩
      · simp [MailboxWatcher.follow, ImapIdle.continued, fresh, retries]
      · simp [MailboxWatcher.follow, ImapIdle.continued, fresh, isHead, begins]

theorem least_step {es : List MailboxWatcher.Event} (least : 1 ≤ w.backoff)
    (h : MailboxWatcher.step w label = some (v, es)) : 1 ≤ v.backoff := by
  have initial : 1 ≤ MailboxWatcher.initialBackoff := by decide
  cases MailboxWatcher.turn_of_step h with
  | checked | examined | crashed | failed => exact least
  | dropped | cut => exact initial
  | slept retry =>
    cases retry with
    | true =>
      simp only [if_true, MailboxWatcher.maxBackoff]
      omega
    | false => exact least
  | session =>
    rw [MailboxWatcher.follow]
    split
    · rename_i result _
      rcases result with error | stop
      · simp only [MailboxWatcher.conclude]
        split
        · exact initial
        · exact least
      · cases stop with
        | shutdown => exact least
        | reconnect => exact initial
    · exact least

def ofWatcher (mark : MailboxWatcher.Label → Bool) (_ : MailboxPace.Inner) :
    MailboxPace.Action → Bool
  | .watcher label => mark label
  | .stage => false

def Futile (s : MailboxPace.Inner) : MailboxPace.Action → Prop
  | .watcher label => futile s.watcher label = true
  | .stage => True

instance (s : MailboxPace.Inner) : (action : MailboxPace.Action) → Decidable (Futile s action)
  | .watcher label => inferInstanceAs (Decidable (futile s.watcher label = true))
  | .stage => isTrue trivial

theorem mailbox_retrying (settings : MailboxPace.Settings) :
    Retrying (MailboxPace.clock settings) policy Futile (fun s => s.watcher.backoff * 1000)
      (fun s => if isHead s.watcher then 1 else 0) (ofWatcher retries) (ofWatcher begins) := by
  constructor
  · intro s action t h retried
    cases action with
    | stage => cases retried
    | watcher label =>
      cases label with
      | slept retry =>
        obtain rfl : retry = true := retried
        simp only [MailboxPace.clock, MailboxPace.innerStep, MailboxPace.allowed, ↓reduceIte] at h
        obtain ⟨⟨v, es⟩, hs, rfl⟩ := Option.map_eq_some_iff.mp h
        cases MailboxWatcher.turn_of_step hs with
        | slept _ hpc =>
          simp [MailboxPace.clock, MailboxPace.onTime, MailboxPace.limit, MailboxPace.stays, hpc]
      | _ => cases retried
  · intro s action t fruitless h
    cases action with
    | stage =>
      simp only [MailboxPace.clock, MailboxPace.innerStep] at h
      split at h
      · obtain rfl := Option.some.inj h
        rfl
      · cases h
    | watcher label =>
      simp only [MailboxPace.clock, MailboxPace.innerStep] at h
      split at h
      · obtain ⟨⟨v, es⟩, hs, rfl⟩ := Option.map_eq_some_iff.mp h
        have after := (tries_step fruitless hs).backoff
        cases retried : retries label with
        | false =>
          simp only [retried, Bool.false_eq_true, ↓reduceIte] at after
          simp only [ofWatcher, retried, after, Bool.false_eq_true, ↓reduceIte]
        | true =>
          simp only [retried, ↓reduceIte] at after
          simp only [ofWatcher, retried, after, ↓reduceIte, next_seconds]
      · cases h
  · intro s action t fruitless h
    cases action with
    | stage =>
      simp only [MailboxPace.clock, MailboxPace.innerStep] at h
      split at h
      · obtain rfl := Option.some.inj h
        simp [ofWatcher]
      · cases h
    | watcher label =>
      simp only [MailboxPace.clock, MailboxPace.innerStep] at h
      split at h
      · obtain ⟨⟨v, es⟩, hs, rfl⟩ := Option.map_eq_some_iff.mp h
        exact (tries_step fruitless hs).credit
      · cases h

theorem least_action {s t : MailboxPace.Inner} {action : MailboxPace.Action}
    (least : 1 ≤ s.watcher.backoff) (h : (MailboxPace.clock settings).step s action = some t) :
    1 ≤ t.watcher.backoff := by
  cases action with
  | stage =>
    simp only [MailboxPace.clock, MailboxPace.innerStep] at h
    split at h
    · obtain rfl := Option.some.inj h
      exact least
    · cases h
  | watcher label =>
    simp only [MailboxPace.clock, MailboxPace.innerStep] at h
    split at h
    · obtain ⟨⟨v, es⟩, hs, rfl⟩ := Option.map_eq_some_iff.mp h
      exact least_step least hs
    · cases h

variable {s t : Pace.State MailboxPace.Inner} {es : List Nat}

/-- From any head of the loop on, and as long as no session is established and no resume signal
comes, an IMAP watcher begins at most ten attempts and one for each five minutes. -/
theorem mailbox_attempts_are_spaced {initialReady : Bool} {todo : List MailboxPace.Stage}
    {now : Nat} {past labels : List (Pace.Label MailboxPace.Action)} {tr : List Nat}
    (before : exec (Pace.step (MailboxPace.clock settings))
      (.start ⟨.start initialReady, todo⟩ now) past = some (s, es))
    (head : s.inner.watcher.pc = .head)
    (fruitless : Meets (Pace.step (MailboxPace.clock settings)) (Acting Futile) s labels)
    (run : exec (Pace.step (MailboxPace.clock settings)) s labels = some (t, tr)) :
    tally (Pace.step (MailboxPace.clock settings)) (acts (ofWatcher begins)) s labels ≤
      10 + (t.now - s.now) / 300000 := by
  have fresh : MailboxPace.Sound settings ⟨.start initialReady, todo⟩ := by
    refine ⟨MailboxPace.initialBackoff_le, ?_⟩
    intro connecting
    cases connecting
  have timely : Timely (MailboxPace.pace settings) s :=
    exec_state_invariant (fun _ _ _ _ timely h => timely_step _ timely h)
      (timely_start (MailboxPace.pace settings) fresh now) before
  have least : 1 ≤ s.inner.watcher.backoff :=
    exec_state_invariant (P := fun s => 1 ≤ s.inner.watcher.backoff)
      (fun _ _ _ _ least h => inner_step (P := fun s => 1 ≤ s.watcher.backoff)
        (fun _ _ _ least h => least_action least h) least h) (Nat.le_refl 1) before
  have sound := sound_seconds least timely.sound.backoff
  have few := (mailbox_retrying settings).paying_le (k := 9) timely.begun sound (by decide)
    (by decide) fruitless run
  -- nothing is awaited at the head of the loop
  have entered : s.now ≤ s.entered := by
    have within := timely.within
    simp only [MailboxPace.clock, MailboxPace.limit, head] at within
    omega
  simp only [isHead, head, ↓reduceIte] at few
  exact few.trans (Nat.add_le_add_left (Nat.div_le_div_right (by omega)) _)

private def exampleMailbox : MailboxPace.Settings :=
  ⟨30000, 60000, 30000, 2000, 1740000, true, false⟩

/-- Nine attempts in the eight and a half minutes that their delays take. -/
private def exampleOutage : List (Pace.Label MailboxPace.Action) :=
  (List.range 9).flatMap fun n =>
    [.act (.watcher (.check false)), .act (.watcher (.attemptFailed false)),
      .advance (1000 * 2 ^ n), .act (.watcher (.slept true))]

private abbrev exampleStart : Pace.State MailboxPace.Inner :=
  .start ⟨.start false, exampleMailbox.stages⟩ 0

theorem example_outage_sees_nine_attempts :
    let step := Pace.step (MailboxPace.clock exampleMailbox)
    let r := (exec step exampleStart exampleOutage).get (by decide +kernel)
    r.1.now = 511000 ∧ tally step (acts (ofWatcher begins)) exampleStart exampleOutage = 9 ∧
      tally step (acts (ofWatcher begins)) exampleStart exampleOutage ≤
        10 + (r.1.now - exampleStart.now) / 300000 := by
  intro step r
  have run := (Option.some_get
    (by decide +kernel : (exec step exampleStart exampleOutage).isSome = true)).symm
  refine ⟨by decide +kernel, by decide +kernel, ?_⟩
  exact mailbox_attempts_are_spaced (exec_nil exampleStart) rfl (by decide +kernel) run

end Mailbox

section Gmail
open GmailPace
variable {settings : GmailPace.Settings} {w v : GmailApiPoll.State} {label : GmailApiPoll.Label}

/-- A call of `baseline_history` or `poll_once` is under way. -/
def calling (w : GmailApiPoll.State) : Bool :=
  match w.pc with
  | .baselineToken => true
  | .baselineProfile => true
  | _ => w.polling

/-- A call under way goes on or fails. -/
def Vain (settings : GmailPace.Settings) (s : GmailPace.Inner) (label : GmailApiPoll.Label) :
    Prop :=
  ∀ t, GmailPace.innerStep settings s label = some t → calling s.poll = true →
    calling t.poll = true ∨ t.poll.failed = true

instance (settings : GmailPace.Settings) (s : GmailPace.Inner) (label : GmailApiPoll.Label) :
    Decidable (Vain settings s label) :=
  decidable_of_iff ((GmailPace.innerStep settings s label).all fun t =>
      !calling s.poll || calling t.poll || t.poll.failed) (by
    rw [Option.all_eq_true]
    simp only [Vain, Bool.or_eq_true, Bool.not_eq_true', or_assoc, ← Bool.not_eq_true,
      imp_iff_not_or])

def asks : GmailApiPoll.Label → Bool
  | .helper _ => true
  | _ => false

def wakes (w : GmailApiPoll.State) (label : GmailApiPoll.Label) : Bool :=
  match w.pc, label with
  | .backoff, .slept goOn => goOn
  | _, _ => false

/-- The helper may run before the next backoff. -/
def mayAsk (w : GmailApiPoll.State) : Nat :=
  match w.pc with
  | .head => 1
  | .interval => 1
  | .baselineToken => 1
  | .pollToken => 1
  | _ => 0

theorem mayAsk_of_helper {labelIds : List String} {result : Except GmailApiPoll.AuthError Unit}
    {es : List GmailApiPoll.Event}
    (h : GmailApiPoll.step labelIds w (.helper result) = some (v, es)) : mayAsk w = 1 := by
  simp only [GmailApiPoll.step] at h
  split at h
  · rename_i hpc
    simp [mayAsk, hpc]
  · rename_i hpc
    simp [mayAsk, hpc]
  · rename_i hpc
    simp [mayAsk, hpc]
  · rename_i hpc
    simp [mayAsk, hpc]
  · cases h

/-- What a step does to the backoff and to the place of the poller while nothing succeeds. -/
structure Asks (w : GmailApiPoll.State) (label : GmailApiPoll.Label) (v : GmailApiPoll.State) :
    Prop where
  backoff : v.backoff = if wakes w label then min (w.backoff * 2) 300 else w.backoff
  credit : (if asks label then 1 else 0) + mayAsk v ≤ mayAsk w + if wakes w label then 1 else 0

theorem asks_step {labelIds : List String} {es : List GmailApiPoll.Event}
    (vain : calling w = true → calling v = true ∨ v.failed = true)
    (h : GmailApiPoll.step labelIds w label = some (v, es)) : Asks w label v := by
  cases GmailApiPoll.turn_of_step h with
  | checked shutdown hpc =>
    refine ⟨by simp [wakes, hpc], ?_⟩
    cases shutdown with
    | true => simp [asks, mayAsk, hpc]
    | false => cases w.tracker.hasBaseline <;> simp [asks, mayAsk, hpc]
  | baselineToken hpc | pollToken hpc =>
    exact ⟨by simp [wakes, hpc], by simp [asks, mayAsk, hpc]⟩
  | failed error place =>
    have waits : wakes w label = false := by
      simp only [wakes]
      split
      · rename_i hpc
        simp [hpc, GmailApiPoll.State.polling] at place
      · rfl
    have kept : (GmailApiPoll.fail w error).1.backoff = w.backoff ∧
        mayAsk (GmailApiPoll.fail w error).1 = 0 := by
      rw [GmailApiPoll.fail]
      split <;> exact ⟨rfl, rfl⟩
    refine ⟨by rw [waits]; exact kept.1, ?_⟩
    rw [kept.2, waits]
    cases label with
    | helper result => simp [asks, mayAsk_of_helper h]
    | _ => simp [asks]
  | baselined hpc | unchanged hpc | advanced hpc =>
    rcases vain (by simp [calling, hpc, GmailApiPoll.State.polling]) with goes | fails
    · cases goes
    · cases fails
  | changed hpc | stale hpc | noChange hpc =>
    rcases vain (by simp [calling, hpc, GmailApiPoll.State.polling]) with goes | fails
    · cases goes
    · cases fails
  | listing hpc | nextPage hpc | nextLabel hpc =>
    exact ⟨by simp [wakes, hpc], by simp [asks, mayAsk, hpc]⟩
  | slept goOn hpc =>
    exact ⟨by simp [wakes, hpc], by cases goOn <;> simp [asks, mayAsk, hpc]⟩
  | retried goOn hpc =>
    cases goOn with
    | true =>
      refine ⟨?_, by simp [asks, mayAsk, wakes, hpc]⟩
      simp [wakes, hpc, GmailApiPoll.maxBackoff]
    | false => exact ⟨by simp [wakes, hpc], by simp [asks, mayAsk, hpc]⟩

theorem least_call {labelIds : List String} {es : List GmailApiPoll.Event} (least : 1 ≤ w.backoff)
    (h : GmailApiPoll.step labelIds w label = some (v, es)) : 1 ≤ v.backoff := by
  have initial : 1 ≤ GmailApiPoll.initialBackoff := by decide
  cases GmailApiPoll.turn_of_step h with
  | failed error =>
    rw [GmailApiPoll.fail]
    split <;> exact least
  | retried goOn =>
    cases goOn with
    | true =>
      simp only [if_true, GmailApiPoll.maxBackoff]
      omega
    | false => exact least
  | baselined | unchanged | advanced | changed | stale | noChange => exact initial
  | checked | baselineToken | pollToken | listing | nextPage | nextLabel | slept => exact least

theorem innerStep_poll {s t : GmailPace.Inner} (h : GmailPace.innerStep settings s label = some t) :
    ∃ es, GmailApiPoll.step settings.labelIds s.poll label = some (t.poll, es) := by
  obtain ⟨⟨poll, es⟩, hs, h⟩ := Option.bind_eq_some_iff.mp h
  refine ⟨es, ?_⟩
  split at h
  · split at h
    · obtain rfl := Option.some.inj h
      exact hs
    · cases h
  · obtain rfl := Option.some.inj h
    exact hs

theorem gmail_retrying (settings : GmailPace.Settings) :
    Retrying (GmailPace.clock settings) policy (Vain settings) (fun s => s.poll.backoff * 1000)
      (fun s => mayAsk s.poll) (fun s label => wakes s.poll label) (fun _ label => asks label) := by
  constructor
  · intro s label t h woken
    simp only [wakes] at woken
    split at woken
    · rename_i hpc
      obtain rfl := woken
      simp [GmailPace.clock, GmailPace.onTime, GmailPace.limit, hpc]
    · cases woken
  · intro s label t vain h
    obtain ⟨es, hs⟩ := innerStep_poll h
    have after := (asks_step (vain t h) hs).backoff
    cases woken : wakes s.poll label with
    | false =>
      simp only [woken, Bool.false_eq_true, ↓reduceIte] at after
      simp only [after, Bool.false_eq_true, ↓reduceIte]
    | true =>
      simp only [woken, ↓reduceIte] at after
      simp only [after, ↓reduceIte, next_seconds]
  · intro s label t vain h
    obtain ⟨es, hs⟩ := innerStep_poll h
    exact (asks_step (vain t h) hs).credit

variable {s t : Pace.State GmailPace.Inner} {es : List Nat}

/-- From any head of the loop on, and as long as no baseline and no poll succeeds, a Gmail poller
runs its token helper at most ten times and once for each five minutes. -/
theorem gmail_attempts_are_spaced {initialReady : Bool} {now : Nat}
    {past labels : List (Pace.Label GmailApiPoll.Label)} {tr : List Nat}
    (before : exec (Pace.step (GmailPace.clock settings))
      (.start ⟨.start initialReady, 0⟩ now) past = some (s, es))
    (head : s.inner.poll.pc = .head)
    (vain : Meets (Pace.step (GmailPace.clock settings)) (Acting (Vain settings)) s labels)
    (run : exec (Pace.step (GmailPace.clock settings)) s labels = some (t, tr)) :
    tally (Pace.step (GmailPace.clock settings)) (acts fun _ label => asks label) s labels ≤
      10 + (t.now - s.now) / 300000 := by
  have fresh : GmailPace.Sound settings ⟨.start initialReady, 0⟩ := by
    have initial : GmailApiPoll.initialBackoff ≤ GmailApiPoll.maxBackoff := by decide
    refine ⟨initial, ?_⟩
    intro listing
    cases listing
  have timely : Timely (GmailPace.pace settings) s :=
    exec_state_invariant (fun _ _ _ _ timely h => timely_step _ timely h)
      (timely_start (GmailPace.pace settings) fresh now) before
  have least : 1 ≤ s.inner.poll.backoff :=
    exec_state_invariant (P := fun s => 1 ≤ s.inner.poll.backoff)
      (fun _ _ _ _ least h => inner_step (P := fun s => 1 ≤ s.poll.backoff)
        (fun _ _ _ least h => least_call least (innerStep_poll h).choose_spec) least h)
      (Nat.le_refl 1) before
  have sound := sound_seconds least timely.sound.backoff
  have few := (gmail_retrying settings).paying_le (k := 9) timely.begun sound (by decide)
    (by decide) vain run
  have entered : s.now ≤ s.entered := by
    have within := timely.within
    simp only [GmailPace.clock, GmailPace.limit, head] at within
    omega
  simp only [mayAsk, head] at few
  exact few.trans (Nat.add_le_add_left (Nat.div_le_div_right (by omega)) _)

private def exampleGmail : GmailPace.Settings := ⟨30000, 2000, 60000, 60000, [], 1⟩

/-- The helper fails nine times before there is a baseline. -/
private def exampleLockout : List (Pace.Label GmailApiPoll.Label) :=
  (List.range 9).flatMap fun n =>
    [.act (.check false), .act (.helper (.error (.helperTimedOut 30))),
      .advance (1000 * 2 ^ n), .act (.slept true)]

private abbrev exampleLocked : Pace.State GmailPace.Inner := .start ⟨.start false, 0⟩ 0

theorem example_lockout_sees_nine_attempts :
    let step := Pace.step (GmailPace.clock exampleGmail)
    let r := (exec step exampleLocked exampleLockout).get (by decide +kernel)
    r.1.now = 511000 ∧
      tally step (acts fun _ label => asks label) exampleLocked exampleLockout = 9 ∧
      tally step (acts fun _ label => asks label) exampleLocked exampleLockout ≤
        10 + (r.1.now - exampleLocked.now) / 300000 := by
  intro step r
  have run := (Option.some_get
    (by decide +kernel : (exec step exampleLocked exampleLockout).isSome = true)).symm
  refine ⟨by decide +kernel, by decide +kernel, ?_⟩
  exact gmail_attempts_are_spaced (exec_nil exampleLocked) rfl (by decide +kernel) run

end Gmail

end Retries

import Mailwake.GmailApiPoll
import Mailwake.Pace

/-!
# How long a Gmail watcher goes without a progress mark

`watch_gmail_api_poll_forever` on a clock. A helper ends within its timeout and the grace
after it, a request within the API timeout, and one poll makes a bounded number of page
requests. A mark is a call of `mark_watcher` or `mark_watcher_progress`. Times are
milliseconds.
-/
namespace GmailPace
open Transition Pace GmailApiPoll

structure Settings where
  helperTimeout : Nat
  terminateGrace : Nat
  apiTimeout : Nat
  pollInterval : Nat
  labelIds : List String
  /-- The most requests of history.list that one poll makes. -/
  pages : Nat

namespace Settings
variable (settings : Settings)

def helper : Nat := settings.helperTimeout + settings.terminateGrace

/-- From a mark to the request for the first page. -/
def beforeListing : Nat := settings.pollInterval + settings.helper + settings.apiTimeout

def listing : Nat := if settings.labelIds = [] then 0 else settings.pages * settings.apiTimeout

def longestGap : Nat :=
  max (settings.beforeListing + settings.listing) (maxBackoff * 1000)

end Settings

structure Inner where
  poll : GmailApiPoll.State
  /-- The page requests of the current poll. -/
  pages : Nat

def State.listing (s : GmailApiPoll.State) : Bool :=
  match s.pc with
  | .pollHistory _ _ _ _ _ => true
  | _ => false

def innerStep (settings : Settings) (s : Inner) (label : GmailApiPoll.Label) : Option Inner :=
  (GmailApiPoll.step settings.labelIds s.poll label).bind fun next =>
    if State.listing next.1 then
      if s.pages < settings.pages then some ⟨next.1, s.pages + 1⟩ else none
    else some ⟨next.1, 0⟩

def limit (settings : Settings) (s : Inner) : Nat :=
  match s.poll.pc with
  | .baselineToken => settings.helper
  | .baselineProfile => settings.apiTimeout
  | .interval => settings.pollInterval
  | .pollToken => settings.helper
  | .pollProfile => settings.apiTimeout
  | .pollHistory _ _ _ _ _ => settings.apiTimeout
  | .backoff => s.poll.backoff * 1000
  | _ => 0

/-- Sleeps run their full time. -/
def onTime (_ : Inner) : GmailApiPoll.Label → Bool
  | .slept true => true
  | _ => false

def progress (s : Inner) (label : GmailApiPoll.Label) (t : Inner) : Bool :=
  match t.poll.pc, label with
  | .baselineToken, _ => true
  | .interval, .profile _ => true
  | .backoff, _ => true
  | .ended _, _ => true
  -- a failed poll ends its backoff with a mark, a failed baseline does not
  | .head, .slept _ => s.poll.tracker.hasBaseline
  | .head, _ => true
  | _, _ => false

def clock (settings : Settings) : Clockwork Inner GmailApiPoll.Label where
  step := innerStep settings
  limit := limit settings
  onTime := onTime
  stays := fun _ _ _ => false
  progress := progress

section Budget
variable (settings : Settings)

def budget (s : Inner) : Nat :=
  match s.poll.pc with
  | .head => if s.poll.tracker.hasBaseline then 0 else settings.longestGap
  | .baselineProfile => settings.helper
  | .pollToken => settings.pollInterval
  | .pollProfile => settings.pollInterval + settings.helper
  | .pollHistory _ _ _ _ _ => settings.beforeListing + (s.pages - 1) * settings.apiTimeout
  | _ => 0

structure Sound (s : Inner) : Prop where
  backoff : s.poll.backoff ≤ maxBackoff
  pages : State.listing s.poll = true →
    0 < s.pages ∧ s.pages ≤ settings.pages ∧ settings.labelIds ≠ []

variable {settings} {s t : Inner} {label : GmailApiPoll.Label}

theorem beforeListing_le (settings : Settings) : settings.beforeListing ≤ settings.longestGap :=
  (Nat.le_add_right _ _).trans (le_max_left _ _)

theorem fits (sound : Sound settings s) :
    budget settings s + limit settings s ≤ settings.longestGap := by
  have most := beforeListing_le settings
  rw [Settings.beforeListing] at most
  cases hpc : s.poll.pc with
  | head =>
    simp only [budget, limit, hpc]
    split <;> omega
  | pollHistory since last name token rest =>
    obtain ⟨some, upto, labels⟩ := sound.pages (by simp [State.listing, hpc])
    have pages : (s.pages - 1) * settings.apiTimeout + settings.apiTimeout =
        s.pages * settings.apiTimeout := by
      rw [← Nat.succ_mul]
      congr 1
      omega
    have bounded : s.pages * settings.apiTimeout ≤ settings.listing := by
      rw [Settings.listing, if_neg labels]
      exact Nat.mul_le_mul_right _ upto
    have whole : settings.beforeListing + settings.listing ≤ settings.longestGap :=
      le_max_left _ _
    simp only [budget, limit, hpc]
    omega
  | backoff =>
    have capped : s.poll.backoff * 1000 ≤ maxBackoff * 1000 :=
      Nat.mul_le_mul_right 1000 sound.backoff
    simp only [budget, limit, hpc, Nat.zero_add]
    exact capped.trans (le_max_right _ _)
  | interval | pollToken | pollProfile | baselineToken | baselineProfile | ended =>
    simp only [budget, limit, hpc]
    omega

/-- What a step does to the poller and to the number of its pages. -/
structure Stepped (settings : Settings) (s : Inner) (label : GmailApiPoll.Label) (t : Inner) :
    Prop where
  turn : ∃ es, GmailApiPoll.Turn settings.labelIds s.poll label t.poll es
  more : State.listing t.poll = true → t.pages = s.pages + 1 ∧ s.pages < settings.pages

theorem stepped_of_step (h : innerStep settings s label = some t) : Stepped settings s label t := by
  obtain ⟨⟨poll, es⟩, hs, h⟩ := Option.bind_eq_some_iff.mp h
  have turn := turn_of_step hs
  by_cases listing : State.listing poll = true
  · rw [if_pos listing] at h
    split at h
    · rename_i room
      obtain rfl := Option.some.inj h
      exact ⟨⟨es, turn⟩, fun _ => ⟨rfl, room⟩⟩
    · cases h
  · rw [if_neg listing] at h
    obtain rfl := Option.some.inj h
    exact ⟨⟨es, turn⟩, fun list => absurd list listing⟩

theorem backoff_of_turn {s t : GmailApiPoll.State} {es : List GmailApiPoll.Event}
    (kept : s.backoff ≤ maxBackoff) (turn : GmailApiPoll.Turn settings.labelIds s label t es) :
    t.backoff ≤ maxBackoff := by
  have initial : initialBackoff ≤ maxBackoff := by decide
  cases turn with
  | failed error _ =>
    rw [fail]
    split <;> exact kept
  | retried goOn _ =>
    cases goOn with
    | true => exact min_le_right _ _
    | false => exact kept
  | baselined => exact initial
  | unchanged => exact initial
  | advanced => exact initial
  | changed => exact initial
  | stale => exact initial
  | noChange => exact initial
  | _ => exact kept

/-- Only a source with labels lists pages. -/
theorem labels_of_turn {s t : GmailApiPoll.State} {es : List GmailApiPoll.Event}
    (turn : GmailApiPoll.Turn settings.labelIds s label t es)
    (before : State.listing s = true → settings.labelIds ≠ [])
    (listing : State.listing t = true) : settings.labelIds ≠ [] := by
  cases turn with
  | listing _ _ _ _ labels => simp [labels]
  | nextPage hpc => exact before (by simp [State.listing, hpc])
  | nextLabel hpc => exact before (by simp [State.listing, hpc])
  | checked shutdown hpc =>
    simp only [State.listing] at listing
    split at listing
    · rename_i list
      split at list
      · cases list
      · split at list <;> cases list
    · cases listing
  | failed error _ =>
    simp only [fail] at listing
    split at listing <;> simp [State.listing] at listing
  | slept goOn _ => cases goOn <;> simp [State.listing] at listing
  | retried goOn _ => cases goOn <;> simp [State.listing] at listing
  | _ => simp [State.listing, GmailApiPoll.baselined, accept] at listing

theorem sound_step (sound : Sound settings s) (stepped : Stepped settings s label t) :
    Sound settings t := by
  obtain ⟨⟨es, turn⟩, more⟩ := stepped
  refine ⟨backoff_of_turn sound.backoff turn, ?_⟩
  intro listing
  obtain ⟨count, room⟩ := more listing
  exact ⟨by omega, by omega,
    labels_of_turn turn (fun before => (sound.pages before).2.2) listing⟩

theorem next_page {since last after : Nat} {name next : String} {token more : Option String}
    {rest others : List String} {poll : GmailApiPoll.State} {pages : Nat}
    (hpc : s.poll.pc = .pollHistory since last name token rest) (count : pages = s.pages + 1)
    (begun : 0 < s.pages) : budget settings s + limit settings s =
      budget settings ⟨{ poll with pc := .pollHistory since after next more others }, pages⟩ := by
  have whole : (s.pages - 1) * settings.apiTimeout + settings.apiTimeout =
      s.pages * settings.apiTimeout := by
    rw [← Nat.succ_mul]
    congr 1
    omega
  simp only [budget, limit, hpc, count, Nat.add_sub_cancel]
  omega

theorem carries (sound : Sound settings s) (stepped : Stepped settings s label t)
    (quiet : progress s label t = false) :
    budget settings s + limit settings s ≤ budget settings t := by
  obtain ⟨poll, pages⟩ := t
  obtain ⟨⟨es, turn⟩, more⟩ := stepped
  cases turn with
  | checked shutdown hpc =>
    cases shutdown with
    | true => simp [progress] at quiet
    | false =>
      by_cases baseline : s.poll.tracker.hasBaseline = true
      · simp [budget, limit, hpc, baseline]
      · simp [progress, baseline] at quiet
  | baselineToken hpc => simp [budget, limit, hpc]
  | pollToken hpc => simp [budget, limit, hpc]
  | failed error _ =>
    rw [fail] at quiet
    split at quiet <;> simp [progress] at quiet
  | listing hpc => simp [budget, limit, hpc, Settings.beforeListing]
  | nextPage hpc =>
    obtain ⟨count, -⟩ := more rfl
    have begun := (sound.pages (by simp [State.listing, hpc])).1
    exact (next_page hpc count begun).le
  | nextLabel hpc =>
    obtain ⟨count, -⟩ := more rfl
    have begun := (sound.pages (by simp [State.listing, hpc])).1
    exact (next_page hpc count begun).le
  | slept goOn hpc =>
    cases goOn with
    | true => simp [budget, limit, hpc]
    | false => simp [progress] at quiet
  | retried goOn hpc =>
    cases goOn with
    | true =>
      have baseline : s.poll.tracker.hasBaseline = false := quiet
      have after : budget settings ⟨{ s.poll with
          backoff := min (s.poll.backoff * 2) maxBackoff, pc := .head }, pages⟩ =
          settings.longestGap := by
        simp [budget, baseline]
      exact (fits sound).trans after.ge
    | false => exact Bool.noConfusion (show true = false from quiet)
  | _ => simp [progress] at quiet

end Budget

def pace (settings : Settings) : Pace.Budget (clock settings) settings.longestGap where
  budget := budget settings
  Sound := Sound settings
  sound_step _ _ _ sound h := sound_step sound (stepped_of_step h)
  fits _ sound := fits sound
  same_wait _ _ _ _ _ stays := by cases stays
  carries _ _ _ sound h quiet _ := carries sound (stepped_of_step h) quiet

section Longest
variable (settings : Settings)

/-- A watcher that has just begun to wait. -/
def waiting (w : GmailApiPoll.State) (pc : Pc) (pages now last : Nat) : Pace.State Inner :=
  ⟨⟨{ w with pc := pc }, pages⟩, now, now, last⟩

/-- A watcher with the baseline 0. -/
def based : GmailApiPoll.State := ⟨⟨some 0⟩, false, initialBackoff, .interval⟩

theorem reaches_pollProfile (initialReady : Bool) (now : Nat) :
    Reaches (Pace.step (clock settings)) (.start ⟨.start initialReady, 0⟩ now)
      (waiting based .pollProfile 0 (now + settings.pollInterval + settings.helper) now) := by
  have checked : Reaches (Pace.step (clock settings)) (.start ⟨.start initialReady, 0⟩ now)
      (waiting (.start initialReady) .baselineToken 0 now now) :=
    reaches_free 0 (.check false) (Nat.le_add_right now _) rfl rfl rfl
  have token : Reaches (Pace.step (clock settings))
      (waiting (.start initialReady) .baselineToken 0 now now)
      (waiting (.start initialReady) .baselineProfile 0 now now) :=
    reaches_free 0 (.helper (.ok ())) (Nat.le_add_right now _) rfl rfl rfl
  have baseline : Reaches (Pace.step (clock settings))
      (waiting (.start initialReady) .baselineProfile 0 now now)
      (waiting based .interval 0 now now) :=
    reaches_free 0 (.profile (.ok ['0'])) (Nat.le_add_right now _) rfl rfl rfl
  have slept : Reaches (Pace.step (clock settings)) (waiting based .interval 0 now now)
      (waiting based .pollToken 0 (now + settings.pollInterval) now) :=
    reaches_act settings.pollInterval (.slept true) (le_refl _) (fun _ => rfl) rfl rfl
  have helped : Reaches (Pace.step (clock settings))
      (waiting based .pollToken 0 (now + settings.pollInterval) now)
      (waiting based .pollProfile 0 (now + settings.pollInterval + settings.helper) now) :=
    reaches_free settings.helper (.helper (.ok ())) (le_refl _) rfl rfl rfl
  exact checked.trans (token.trans (baseline.trans (slept.trans helped)))

variable {settings}

/-- Every page takes its full time and there is another one. -/
theorem reaches_pages {label : String} {rest : List String}
    (labels : settings.labelIds = label :: rest) (now last n : Nat) (room : n < settings.pages) :
    ∃ token, Reaches (Pace.step (clock settings)) (waiting based .pollProfile 0 now last)
      (waiting based (.pollHistory 0 1 label token rest) (n + 1)
        (now + (n + 1) * settings.apiTimeout) last) := by
  induction n with
  | zero =>
    have listed : innerStep settings ⟨{ based with pc := .pollProfile }, 0⟩ (.profile (.ok ['1'])) =
        some ⟨{ based with pc := .pollHistory 0 1 label none rest }, 1⟩ := by
      rw [innerStep, labels]
      exact if_pos room
    refine ⟨none, reaches_free settings.apiTimeout (.profile (.ok ['1'])) (le_refl _) rfl listed ?_⟩
    simp [waiting, moved, clock, progress]
  | succ n ih =>
    obtain ⟨token, before⟩ := ih (by omega)
    have listed : innerStep settings
        ⟨{ based with pc := .pollHistory 0 1 label token rest }, n + 1⟩
        (.history (.ok ⟨[], some ""⟩)) =
        some ⟨{ based with pc := .pollHistory 0 1 label (some "") rest }, n + 1 + 1⟩ := by
      rw [innerStep]
      exact if_pos room
    have paged : Reaches (Pace.step (clock settings))
        (waiting based (.pollHistory 0 1 label token rest) (n + 1)
          (now + (n + 1) * settings.apiTimeout) last)
        (waiting based (.pollHistory 0 1 label (some "") rest) (n + 1 + 1)
          (now + (n + 1 + 1) * settings.apiTimeout) last) := by
      refine reaches_free settings.apiTimeout (.history (.ok ⟨[], some ""⟩)) (le_refl _) rfl
        listed ?_
      rw [Nat.succ_mul (n + 1), ← Nat.add_assoc now]
      simp [waiting, moved, clock, progress]
    exact ⟨some "", before.trans paged⟩

theorem poll_gap (initialReady : Bool) (now : Nat) : ∃ s,
    Reaches (Pace.step (clock settings)) (.start ⟨.start initialReady, 0⟩ now) s ∧
      s.now - s.lastProgress = settings.beforeListing + settings.listing := by
  have asking := reaches_pollProfile settings initialReady now
  have plain : settings.listing = 0 → ∃ s,
      Reaches (Pace.step (clock settings)) (.start ⟨.start initialReady, 0⟩ now) s ∧
        s.now - s.lastProgress = settings.beforeListing + settings.listing := by
    intro none
    have waited : Reaches (Pace.step (clock settings))
        (waiting based .pollProfile 0 (now + settings.pollInterval + settings.helper) now)
        { waiting based .pollProfile 0 (now + settings.pollInterval + settings.helper) now with
          now := now + settings.pollInterval + settings.helper + settings.apiTimeout } :=
      reaches_advance (le_refl _)
    refine ⟨_, asking.trans waited, ?_⟩
    simp only [waiting, none, Settings.beforeListing]
    omega
  cases labels : settings.labelIds with
  | nil => exact plain (by simp [Settings.listing, labels])
  | cons label rest =>
    cases count : settings.pages with
    | zero => exact plain (by simp [Settings.listing, count])
    | succ n =>
      let begun := now + settings.pollInterval + settings.helper
      obtain ⟨token, listed⟩ := reaches_pages labels begun now n (by omega)
      have waited : Reaches (Pace.step (clock settings))
          (waiting based (.pollHistory 0 1 label token rest) (n + 1)
            (begun + (n + 1) * settings.apiTimeout) now)
          { waiting based (.pollHistory 0 1 label token rest) (n + 1)
              (begun + (n + 1) * settings.apiTimeout) now with
            now := begun + (n + 1) * settings.apiTimeout + settings.apiTimeout } :=
        reaches_advance (le_refl _)
      have listing : settings.listing = (n + 1) * settings.apiTimeout := by
        simp [Settings.listing, labels, count]
      refine ⟨_, asking.trans (listed.trans waited), ?_⟩
      simp only [waiting, listing, Settings.beforeListing, begun]
      omega

theorem reaches_failed (settings : Settings) (w : GmailApiPoll.State)
    (fresh : w.tracker.lastHistoryId = none) (now last : Nat) :
    Reaches (Pace.step (clock settings)) (waiting w .head 0 now last)
      (waiting w .backoff 0 now now) := by
  have baseline : w.tracker.hasBaseline = false := by
    simp [GmailHistoryTracker.hasBaseline, fresh]
  have connecting : innerStep settings ⟨{ w with pc := .head }, 0⟩ (.check false) =
      some ⟨{ w with pc := .baselineToken }, 0⟩ := by
    simp [innerStep, GmailApiPoll.step, baseline, State.listing]
  have checked : Reaches (Pace.step (clock settings)) (waiting w .head 0 now last)
      (waiting w .baselineToken 0 now now) :=
    reaches_free 0 (.check false) (Nat.le_add_right now _) rfl connecting rfl
  have failed : Reaches (Pace.step (clock settings)) (waiting w .baselineToken 0 now now)
      (waiting w .backoff 0 now now) :=
    reaches_free 0 (.helper (.error .emptySecret)) (Nat.le_add_right now _) rfl rfl rfl
  exact checked.trans failed

/-- A failed baseline and its backoff. -/
theorem reaches_retry (settings : Settings) (w : GmailApiPoll.State)
    (fresh : w.tracker.lastHistoryId = none) (now last : Nat) :
    Reaches (Pace.step (clock settings)) (waiting w .head 0 now last)
      (waiting { w with backoff := min (w.backoff * 2) maxBackoff } .head 0
        (now + w.backoff * 1000) now) := by
  have slept : Reaches (Pace.step (clock settings)) (waiting w .backoff 0 now now)
      (waiting { w with backoff := min (w.backoff * 2) maxBackoff } .head 0
        (now + w.backoff * 1000) now) := by
    refine reaches_act (w.backoff * 1000) (.slept true) (le_refl _) (fun _ => rfl) rfl ?_
    simp [waiting, moved, clock, progress, GmailHistoryTracker.hasBaseline, fresh]
  exact (reaches_failed settings w fresh now last).trans slept

theorem reaches_backoff (settings : Settings) (initialReady : Bool) (now n : Nat) : ∃ now' last',
    Reaches (Pace.step (clock settings)) (.start ⟨.start initialReady, 0⟩ now)
      (waiting { GmailApiPoll.State.start initialReady with backoff := min (2 ^ n) maxBackoff } .head 0
        now' last') := by
  induction n with
  | zero => exact ⟨now, now, .refl _⟩
  | succ n ih =>
    obtain ⟨now', last', before⟩ := ih
    have doubled : min (min (2 ^ n) maxBackoff * 2) maxBackoff = min (2 ^ (n + 1)) maxBackoff := by
      rw [Nat.pow_succ]
      omega
    have retried := reaches_retry settings
      { GmailApiPoll.State.start initialReady with backoff := min (2 ^ n) maxBackoff } rfl now' last'
    simp only [doubled] at retried
    exact ⟨_, _, before.trans retried⟩

/-- Nine failed baselines in a row lead to the longest backoff. -/
theorem backoff_gap (initialReady : Bool) (now : Nat) : ∃ s,
    Reaches (Pace.step (clock settings)) (.start ⟨.start initialReady, 0⟩ now) s ∧
      s.now - s.lastProgress = maxBackoff * 1000 := by
  obtain ⟨now', last', before⟩ := reaches_backoff settings initialReady now 9
  have failed := reaches_failed settings
    { GmailApiPoll.State.start initialReady with backoff := min (2 ^ 9) maxBackoff } rfl now' last'
  have waited : Reaches (Pace.step (clock settings))
      (waiting { GmailApiPoll.State.start initialReady with
        backoff := min (2 ^ 9) maxBackoff } .backoff 0 now' now')
      { waiting { GmailApiPoll.State.start initialReady with
          backoff := min (2 ^ 9) maxBackoff } .backoff 0 now' now' with
        now := now' + min (2 ^ 9) maxBackoff * 1000 } :=
    reaches_advance (le_refl _)
  have full : min (2 ^ 9) maxBackoff = maxBackoff := by decide
  refine ⟨_, before.trans (failed.trans waited), ?_⟩
  simp only [waiting, full, Nat.add_sub_cancel_left]

/-- The bound is reached. -/
theorem longestGap_reached (settings : Settings) (initialReady : Bool) (now : Nat) : ∃ s,
    Reaches (Pace.step (clock settings)) (.start ⟨.start initialReady, 0⟩ now) s ∧
      s.now - s.lastProgress = settings.longestGap := by
  rcases le_total (settings.beforeListing + settings.listing) (maxBackoff * 1000) with
    backoff | poll
  · rw [Settings.longestGap, max_eq_right backoff]
    exact backoff_gap initialReady now
  · rw [Settings.longestGap, max_eq_left poll]
    exact poll_gap initialReady now

end Longest

end GmailPace

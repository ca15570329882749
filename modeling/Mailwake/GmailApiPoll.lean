import Mailwake.Transition

/-!
# Gmail history polling

`watch_gmail_api_poll_forever`, request by request: a label carries the outcome of the token
helper, of getProfile, of one page of history.list, or of a sleep. History ids are unsigned
64-bit values, durations are whole seconds.
-/
namespace GmailApiPoll
open Transition

def initialBackoff : Nat := 1

def maxBackoff : Nat := 300

inductive AuthError where
  | helperNotFound (executable : String)
  | helperStart (source : String)
  | helperFailed (status : String)
  | helperReauthRequired
  | helperTimedOut (seconds : Nat)
  | helperOutputTooLarge (limit : Nat)
  | helperOutputUtf8
  | emptySecret
  deriving DecidableEq

inductive GoogleErrorReason where
  | insufficientPermissions
  | domainPolicy
  | dailyLimitExceeded
  | rateLimitExceeded
  | userRateLimitExceeded
  deriving DecidableEq

inductive GmailApiPollError where
  | auth (error : AuthError)
  | request (operation source : String)
  | httpStatus (operation : String) (status : Nat) (reason : Option GoogleErrorReason)
  | staleHistory
  | protocol (context : String)
  deriving DecidableEq

def GmailApiPollError.isPermanentAuthFailure : GmailApiPollError → Bool
  | .auth .helperReauthRequired => true
  | .httpStatus _ status reason =>
    status = 401 || status = 403 &&
      (reason = some .insufficientPermissions || reason = some .domainPolicy)
  | _ => false

/-- `u64::MAX` is one less. -/
def u64Bound : Nat := 18446744073709551616

/-- Decimal digits with an optional plus sign, as `str::parse::<u64>` reads them. -/
def parseU64 (text : List Char) : Option Nat :=
  let digits := match text with
    | '+' :: rest => rest
    | _ => text
  if digits.isEmpty || digits.any (fun c => !c.isDigit) then none
  else
    let value := digits.foldl (fun n c => n * 10 + (c.toNat - '0'.toNat)) 0
    if value < u64Bound then some value else none

def parseHistoryId (value : List Char) (context : String) : Except GmailApiPollError Nat :=
  match parseU64 value with
  | some id => .ok id
  | none => .error (.protocol context)

structure HistoryListResponse where
  /-- The ids of the records. -/
  history : List String
  nextPageToken : Option String
  deriving DecidableEq

def historyPageHasChanges (page : HistoryListResponse) : Bool := page.history.any (· ≠ "")

structure GmailHistoryTracker where
  lastHistoryId : Option Nat
  deriving DecidableEq

inductive HistoryDecision where
  | unchanged
  | advanced (since last : Nat)
  deriving DecidableEq

namespace GmailHistoryTracker

def baseline (_ : GmailHistoryTracker) (id : Nat) : GmailHistoryTracker := ⟨some id⟩

def hasBaseline (t : GmailHistoryTracker) : Bool := t.lastHistoryId.isSome

def compare (t : GmailHistoryTracker) (latest : Nat) : Except GmailApiPollError HistoryDecision :=
  match t.lastHistoryId with
  | none => .error (.protocol "comparing Gmail history before baseline")
  | some last => .ok (if last < latest then .advanced last latest else .unchanged)

def accept (_ : GmailHistoryTracker) (id : Nat) : GmailHistoryTracker := ⟨some id⟩

end GmailHistoryTracker

inductive Pc where
  | head
  | baselineToken
  | baselineProfile
  | interval
  | pollToken
  | pollProfile
  /-- The pages of one label, and the labels after it. -/
  | pollHistory (since last : Nat) (label : String) (pageToken : Option String)
      (rest : List String)
  | backoff
  | ended (result : Except GmailApiPollError Unit)

structure State where
  tracker : GmailHistoryTracker
  /-- Whether the initial-ready sender is still there. -/
  initialReady : Bool
  backoff : Nat
  pc : Pc

inductive Label where
  | check (shutdown : Bool)
  | helper (result : Except AuthError Unit)
  | profile (result : Except GmailApiPollError (List Char))
  | history (result : Except GmailApiPollError HistoryListResponse)
  | slept (goOn : Bool)

inductive Event where
  | baselined (id : Nat)
  | accepted (since last : Nat)
  /-- A call of `queue_source_event`. -/
  | queued
  | initialReady
  | initialReadyFailed
  deriving DecidableEq

def State.start (initialReady : Bool) : State := ⟨⟨none⟩, initialReady, initialBackoff, .head⟩

/-- An error of `baseline_history` or `poll_once`. -/
def fail (s : State) (error : GmailApiPollError) : State × List Event :=
  if error.isPermanentAuthFailure then
    ({ s with initialReady := false, pc := .ended (.error error) },
      if s.initialReady then [.initialReadyFailed] else [])
  else ({ s with pc := .backoff }, [])

def baselined (s : State) (id : Nat) : State × List Event :=
  ({ tracker := s.tracker.baseline id, initialReady := false, backoff := initialBackoff,
      pc := .interval }, .baselined id :: if s.initialReady then [.initialReady] else [])

/-- The end of `poll_once` after the history has advanced. -/
def accept (s : State) (since last : Nat) (shouldTrigger : Bool) : State × List Event :=
  ({ s with tracker := s.tracker.accept last, backoff := initialBackoff, pc := .head },
    .accepted since last :: if shouldTrigger then [.queued] else [])

/-- `has_relevant_history` goes on with the next label; without one nothing has changed. -/
def nextLabel (s : State) (since last : Nat) : List String → State × List Event
  | [] => accept s since last false
  | label :: rest => ({ s with pc := .pollHistory since last label none rest }, [])

def polled (labelIds : List String) (s : State) (latest : Nat) : State × List Event :=
  match s.tracker.compare latest with
  | .error error => fail s error
  | .ok .unchanged => ({ s with backoff := initialBackoff, pc := .head }, [])
  | .ok (.advanced since last) =>
    match labelIds with
    | [] => accept s since last true
    | _ :: _ => nextLabel s since last labelIds

/-- One page of `label_has_history`. -/
def page (s : State) (since last : Nat) (label : String) (rest : List String)
    (response : HistoryListResponse) : State × List Event :=
  if historyPageHasChanges response then accept s since last true
  else
    match response.nextPageToken with
    | some token => ({ s with pc := .pollHistory since last label (some token) rest }, [])
    | none => nextLabel s since last rest

/-- `labelIds` are those of the source. -/
def step (labelIds : List String) (s : State) : Label → Option (State × List Event)
  | .check shutdown =>
    match s.pc with
    | .head =>
      some ({ s with pc := if shutdown then .ended (.ok ())
        else if s.tracker.hasBaseline then .interval else .baselineToken }, [])
    | _ => none
  | .helper result =>
    match s.pc, result with
    | .baselineToken, .ok () => some ({ s with pc := .baselineProfile }, [])
    | .baselineToken, .error error => some (fail s (.auth error))
    | .pollToken, .ok () => some ({ s with pc := .pollProfile }, [])
    | .pollToken, .error error => some (fail s (.auth error))
    | _, _ => none
  | .profile result =>
    match s.pc with
    | .baselineProfile =>
      some (match result.bind fun id => parseHistoryId id "profile historyId" with
        | .error error => fail s error
        | .ok id => baselined s id)
    | .pollProfile =>
      some (match result.bind fun id => parseHistoryId id "profile historyId" with
        | .error error => fail s error
        | .ok latest => polled labelIds s latest)
    | _ => none
  | .history result =>
    match s.pc, result with
    | .pollHistory since last label _ rest, .ok response =>
      some (page s since last label rest response)
    -- the baseline is too old: trigger once
    | .pollHistory since last _ _ _, .error .staleHistory => some (accept s since last true)
    | .pollHistory _ _ _ _ _, .error error => some (fail s error)
    | _, _ => none
  | .slept goOn =>
    match s.pc with
    | .interval => some ({ s with pc := if goOn then .pollToken else .ended (.ok ()) }, [])
    | .backoff =>
      some (if goOn then { s with backoff := min (s.backoff * 2) maxBackoff, pc := .head }
        else { s with pc := .ended (.ok ()) }, [])
    | _ => none

/-- A call of `poll_once` is under way. -/
def State.polling (s : State) : Bool :=
  match s.pc with
  | .pollToken => true
  | .pollProfile => true
  | .pollHistory _ _ _ _ _ => true
  | _ => false

/-- The call of `baseline_history` or `poll_once` that has just ended returned an error. -/
def State.failed (s : State) : Bool :=
  match s.pc with
  | .backoff => true
  | .ended (.error _) => true
  | _ => false

/-- What each step does, one case for each branch of the source. -/
inductive Turn (labelIds : List String) (s : State) : Label → State → List Event → Prop where
  | checked (shutdown : Bool) : s.pc = .head → Turn labelIds s (.check shutdown)
      { s with pc := if shutdown then .ended (.ok ())
        else if s.tracker.hasBaseline then .interval else .baselineToken } []
  | baselineToken : s.pc = .baselineToken →
      Turn labelIds s (.helper (.ok ())) { s with pc := .baselineProfile } []
  | pollToken : s.pc = .pollToken →
      Turn labelIds s (.helper (.ok ())) { s with pc := .pollProfile } []
  | failed {label : Label} (error : GmailApiPollError) :
      (s.pc = .baselineToken ∨ s.pc = .baselineProfile ∨ s.polling = true) →
      Turn labelIds s label (fail s error).1 (fail s error).2
  | baselined {id : List Char} {n : Nat} : s.pc = .baselineProfile → parseU64 id = some n →
      Turn labelIds s (.profile (.ok id)) (baselined s n).1 (baselined s n).2
  | unchanged {id : List Char} {since latest : Nat} : s.pc = .pollProfile →
      parseU64 id = some latest → s.tracker.lastHistoryId = some since → latest ≤ since →
      Turn labelIds s (.profile (.ok id)) { s with backoff := initialBackoff, pc := .head } []
  | advanced {id : List Char} {since latest : Nat} : s.pc = .pollProfile →
      parseU64 id = some latest → s.tracker.lastHistoryId = some since → since < latest →
      labelIds = [] →
      Turn labelIds s (.profile (.ok id)) (accept s since latest true).1 (accept s since latest true).2
  | listing {id : List Char} {since latest : Nat} {label : String} {rest : List String} :
      s.pc = .pollProfile → parseU64 id = some latest →
      s.tracker.lastHistoryId = some since → since < latest → labelIds = label :: rest →
      Turn labelIds s (.profile (.ok id)) { s with pc := .pollHistory since latest label none rest } []
  | changed {since last : Nat} {label : String} {token : Option String} {rest : List String}
      {response : HistoryListResponse} : s.pc = .pollHistory since last label token rest →
      historyPageHasChanges response = true →
      Turn labelIds s (.history (.ok response)) (accept s since last true).1 (accept s since last true).2
  | stale {since last : Nat} {label : String} {token : Option String} {rest : List String} :
      s.pc = .pollHistory since last label token rest →
      Turn labelIds s (.history (.error .staleHistory)) (accept s since last true).1
        (accept s since last true).2
  | nextPage {since last : Nat} {label next : String} {token : Option String} {rest : List String}
      {response : HistoryListResponse} : s.pc = .pollHistory since last label token rest →
      historyPageHasChanges response = false → response.nextPageToken = some next →
      Turn labelIds s (.history (.ok response))
        { s with pc := .pollHistory since last label (some next) rest } []
  | nextLabel {since last : Nat} {label next : String} {token : Option String} {rest : List String}
      {response : HistoryListResponse} : s.pc = .pollHistory since last label token (next :: rest) →
      historyPageHasChanges response = false → response.nextPageToken = none →
      Turn labelIds s (.history (.ok response))
        { s with pc := .pollHistory since last next none rest } []
  | noChange {since last : Nat} {label : String} {token : Option String}
      {response : HistoryListResponse} : s.pc = .pollHistory since last label token [] →
      historyPageHasChanges response = false → response.nextPageToken = none →
      Turn labelIds s (.history (.ok response)) (accept s since last false).1
        (accept s since last false).2
  | slept (goOn : Bool) : s.pc = .interval →
      Turn labelIds s (.slept goOn)
        { s with pc := if goOn then .pollToken else .ended (.ok ()) } []
  | retried (goOn : Bool) : s.pc = .backoff →
      Turn labelIds s (.slept goOn)
        (if goOn then { s with backoff := min (s.backoff * 2) maxBackoff, pc := .head }
          else { s with pc := .ended (.ok ()) }) []

variable {labelIds : List String} {s t : State} {label : Label} {es : List Event}

theorem parseHistoryId_ok {id : List Char} {context : String} {n : Nat}
    (h : parseHistoryId id context = .ok n) : parseU64 id = some n := by
  rw [parseHistoryId] at h
  split at h
  · rename_i value parsed
    rw [parsed, Except.ok.inj h]
  · cases h

theorem turn_polled {id : List Char} {latest : Nat} (hpc : s.pc = .pollProfile)
    (parsed : parseU64 id = some latest) : Turn labelIds s (.profile (.ok id))
      (polled labelIds s latest).1 (polled labelIds s latest).2 := by
  rw [polled]
  cases tracked : s.tracker.lastHistoryId with
  | none =>
    simp only [GmailHistoryTracker.compare, tracked]
    exact .failed _ (Or.inr (Or.inr (by simp [State.polling, hpc])))
  | some since =>
    simp only [GmailHistoryTracker.compare, tracked]
    by_cases advanced : since < latest
    · rw [if_pos advanced]
      cases labels : labelIds with
      | nil => exact .advanced hpc parsed tracked advanced rfl
      | cons label rest => exact .listing hpc parsed tracked advanced rfl
    · rw [if_neg advanced]
      exact .unchanged hpc parsed tracked (by omega)

theorem turn_page {since last : Nat} {label : String} {token : Option String}
    {rest : List String} (hpc : s.pc = .pollHistory since last label token rest)
    (response : HistoryListResponse) : Turn labelIds s (.history (.ok response))
      (page s since last label rest response).1 (page s since last label rest response).2 := by
  rw [page]
  split
  · rename_i changes
    exact .changed hpc changes
  · rename_i quiet
    have quiet : historyPageHasChanges response = false := by simpa using quiet
    split
    · rename_i next more
      exact .nextPage hpc quiet more
    · rename_i done
      cases rest with
      | nil => exact .noChange hpc quiet done
      | cons next rest => exact .nextLabel hpc quiet done

theorem turn_of_step (h : step labelIds s label = some (t, es)) : Turn labelIds s label t es := by
  cases label with
  | check shutdown =>
    simp only [step] at h
    split at h
    · rename_i hpc
      obtain ⟨rfl, rfl⟩ := Prod.mk.inj (Option.some.inj h)
      exact .checked shutdown hpc
    · cases h
  | helper result =>
    simp only [step] at h
    split at h
    · rename_i hpc
      obtain ⟨rfl, rfl⟩ := Prod.mk.inj (Option.some.inj h)
      exact .baselineToken hpc
    · rename_i hpc
      obtain ⟨rfl, rfl⟩ := Prod.mk.inj (Option.some.inj h)
      exact .failed _ (Or.inl hpc)
    · rename_i hpc
      obtain ⟨rfl, rfl⟩ := Prod.mk.inj (Option.some.inj h)
      exact .pollToken hpc
    · rename_i hpc
      obtain ⟨rfl, rfl⟩ := Prod.mk.inj (Option.some.inj h)
      exact .failed _ (Or.inr (Or.inr (by simp [State.polling, hpc])))
    · cases h
  | profile result =>
    simp only [step] at h
    split at h
    · rename_i hpc
      obtain ⟨rfl, rfl⟩ := Prod.mk.inj (Option.some.inj h)
      split
      · exact .failed _ (Or.inr (Or.inl hpc))
      · rename_i n ok
        cases result with
        | error error => cases ok
        | ok id => exact .baselined hpc (parseHistoryId_ok ok)
    · rename_i hpc
      have polling : s.polling = true := by simp [State.polling, hpc]
      obtain ⟨rfl, rfl⟩ := Prod.mk.inj (Option.some.inj h)
      split
      · exact .failed _ (Or.inr (Or.inr polling))
      · rename_i latest ok
        cases result with
        | error error => cases ok
        | ok id => exact turn_polled hpc (parseHistoryId_ok ok)
    · cases h
  | history result =>
    simp only [step] at h
    split at h
    · rename_i response hpc
      obtain ⟨rfl, rfl⟩ := Prod.mk.inj (Option.some.inj h)
      exact turn_page hpc response
    · rename_i hpc
      obtain ⟨rfl, rfl⟩ := Prod.mk.inj (Option.some.inj h)
      exact .stale hpc
    · rename_i hpc
      obtain ⟨rfl, rfl⟩ := Prod.mk.inj (Option.some.inj h)
      exact .failed _ (Or.inr (Or.inr (by simp [State.polling, hpc])))
    · cases h
  | slept goOn =>
    simp only [step] at h
    split at h
    · rename_i hpc
      obtain ⟨rfl, rfl⟩ := Prod.mk.inj (Option.some.inj h)
      exact .slept goOn hpc
    · rename_i hpc
      obtain ⟨rfl, rfl⟩ := Prod.mk.inj (Option.some.inj h)
      exact .retried goOn hpc
    · cases h

end GmailApiPoll

import Mathlib.Algebra.Ring.Nat
import Mailwake.GmailApiPoll

/-!
# The answers of the Gmail API

`decode_response` under the poller: a label carries an HTTP response with its body in the chunks
in which it arrives, and the poller's own step is taken on what is decoded from it. Reading JSON
is left to parameters.
-/
namespace GmailHttp
open GmailApiPoll Transition

def maxGoogleErrorBodyBytes : Nat := 64 * 1024

def GoogleErrorReason.fromStr (value : String) : Option GoogleErrorReason :=
  if value = "insufficientPermissions" then some .insufficientPermissions
  else if value = "domainPolicy" then some .domainPolicy
  else if value = "dailyLimitExceeded" then some .dailyLimitExceeded
  else if value = "rateLimitExceeded" then some .rateLimitExceeded
  else if value = "userRateLimitExceeded" then some .userRateLimitExceeded
  else none

/-- The chunks that arrive, and the error that breaks the body off after them, if one does. -/
structure Response where
  status : Nat
  chunks : List (List UInt8)
  broken : Option String

def Response.body (response : Response) : List UInt8 := response.chunks.flatten

/-- `serde_json` at the types that are read: the `reason` of each error of an error envelope, the
history id of a profile, a page of the history. -/
structure Json where
  errors : List UInt8 → Option (List (Option String))
  profile : List UInt8 → Except String (List Char)
  history : List UInt8 → Except String HistoryListResponse

variable (json : Json)

def parseGoogleErrorReason (body : List UInt8) : Option GoogleErrorReason :=
  if maxGoogleErrorBodyBytes < body.length then none
  else (json.errors body).bind fun errors =>
    (errors.filterMap id).findSome? GoogleErrorReason.fromStr

/-- The loop of `read_google_error_reason`, with what has been read so far. -/
def readChunks (broken : Option String) (body : List UInt8) :
    List (List UInt8) → Option (List UInt8)
  | [] => if broken.isSome then none else some body
  | chunk :: rest =>
    if maxGoogleErrorBodyBytes < body.length + chunk.length then none
    else readChunks broken (body ++ chunk) rest

def readGoogleErrorReason (response : Response) : Option GoogleErrorReason :=
  (readChunks response.broken [] response.chunks).bind (parseGoogleErrorReason json)

def decodeResponse {α : Type} (decode : List UInt8 → Except String α) (operation : String)
    (response : Response) : Except GmailApiPollError α :=
  if response.status = 404 ∧ operation = "history.list" then .error .staleHistory
  else if ¬ (200 ≤ response.status ∧ response.status < 300) then
    .error (.httpStatus operation response.status
      (if response.status = 403 then readGoogleErrorReason json response else none))
  else
    match response.broken with
    | some source => .error (.request operation source)
    | none => (decode response.body).mapError (.request operation)

/-- What happens to the poller from outside. -/
inductive Input where
  | check (shutdown : Bool)
  | helper (result : Except AuthError Unit)
  | sendFailed (source : String)
  | response (response : Response)
  | slept (goOn : Bool)

/-- The request that is under way says how an answer is read. -/
def decoded (s : State) : Input → Option Label
  | .check shutdown => some (.check shutdown)
  | .helper result => some (.helper result)
  | .slept goOn => some (.slept goOn)
  | .sendFailed source =>
    match s.pc with
    | .baselineProfile | .pollProfile => some (.profile (.error (.request "getProfile" source)))
    | .pollHistory _ _ _ _ _ => some (.history (.error (.request "history.list" source)))
    | _ => none
  | .response response =>
    match s.pc with
    | .baselineProfile | .pollProfile =>
      some (.profile (decodeResponse json json.profile "getProfile" response))
    | .pollHistory _ _ _ _ _ =>
      some (.history (decodeResponse json json.history "history.list" response))
    | _ => none

def step (labelIds : List String) (s : State) (input : Input) : Option (State × List Event) :=
  (decoded json s input).bind (GmailApiPoll.step labelIds s)

variable {json} {labelIds : List String} {s t : State} {input : Input} {es tr : List Event}

section Bodies

/-- However the body is cut into chunks, it is read if it is not broken off and not too long. -/
theorem readChunks_eq (broken : Option String) (body : List UInt8) (chunks : List (List UInt8))
    (short : body.length ≤ maxGoogleErrorBodyBytes) :
    readChunks broken body chunks =
      if broken.isSome ∨ maxGoogleErrorBodyBytes < (body ++ chunks.flatten).length then none
      else some (body ++ chunks.flatten) := by
  induction chunks generalizing body with
  | nil =>
    rw [List.flatten_nil, List.append_nil, readChunks]
    simp only [Nat.not_lt.mpr short, or_false]
  | cons chunk rest ih =>
    rw [readChunks, List.flatten_cons, ← List.append_assoc]
    by_cases long : maxGoogleErrorBodyBytes < body.length + chunk.length
    · rw [if_pos long, if_pos]
      refine Or.inr ?_
      rw [List.length_append, List.length_append]
      omega
    · rw [if_neg long]
      exact ih (body ++ chunk) (by rw [List.length_append]; omega)

theorem readGoogleErrorReason_eq (response : Response) :
    readGoogleErrorReason json response =
      if response.broken.isSome ∨ maxGoogleErrorBodyBytes < response.body.length then none
      else parseGoogleErrorReason json response.body := by
  rw [readGoogleErrorReason, readChunks_eq _ _ _ (Nat.zero_le _), List.nil_append]
  change (if response.broken.isSome ∨ maxGoogleErrorBodyBytes < response.body.length then none
    else some response.body).bind _ = _
  split <;> rfl

end Bodies

section Refusal

/-- The first reason that is known is one that no retry can mend. -/
def Forbids (errors : List (Option String)) : Prop :=
  ∃ before text after, errors = before ++ some text :: after ∧
    (text = "insufficientPermissions" ∨ text = "domainPolicy") ∧
    ∀ other, some other ∈ before → GoogleErrorReason.fromStr other = none

/-- A response that refuses the poller for good. -/
def Refuses (json : Json) (response : Response) : Prop :=
  response.status = 401 ∨ response.status = 403 ∧ response.broken = none ∧
    response.body.length ≤ maxGoogleErrorBodyBytes ∧
    ∃ errors, json.errors response.body = some errors ∧ Forbids errors

theorem fromStr_permanent_iff {text : String} :
    (GoogleErrorReason.fromStr text = some .insufficientPermissions ∨
      GoogleErrorReason.fromStr text = some .domainPolicy) ↔
      text = "insufficientPermissions" ∨ text = "domainPolicy" := by
  unfold GoogleErrorReason.fromStr
  repeat' split
  all_goals simp_all

theorem forbids_iff {errors : List (Option String)} :
    ((errors.filterMap id).findSome? GoogleErrorReason.fromStr = some .insufficientPermissions ∨
      (errors.filterMap id).findSome? GoogleErrorReason.fromStr = some .domainPolicy) ↔
      Forbids errors := by
  induction errors with
  | nil =>
    simp only [List.filterMap_nil, List.findSome?_nil, reduceCtorEq, or_self, false_iff]
    rintro ⟨before, text, after, same, -⟩
    simp at same
  | cons error rest ih =>
    have skip : (∀ text, error = some text → GoogleErrorReason.fromStr text = none) →
        (Forbids (error :: rest) ↔ Forbids rest) := by
      intro unknown
      constructor
      · rintro ⟨before, text, after, same, permanent, first⟩
        cases before with
        | nil =>
          obtain ⟨rfl, -⟩ := List.cons.inj same
          have known := fromStr_permanent_iff.mpr permanent
          rw [unknown text rfl] at known
          simp at known
        | cons head before =>
          obtain ⟨rfl, rfl⟩ := List.cons.inj same
          exact ⟨before, text, after, rfl, permanent,
            fun other mem => first other (List.mem_cons_of_mem _ mem)⟩
      · rintro ⟨before, text, after, rfl, permanent, first⟩
        refine ⟨error :: before, text, after, rfl, permanent, ?_⟩
        intro other mem
        rcases List.mem_cons.mp mem with same | mem
        · exact unknown other same.symm
        · exact first other mem
    cases error with
    | none =>
      rw [skip (fun _ => nofun), ← ih]
      rfl
    | some text =>
      simp only [List.filterMap_cons, id_eq, List.findSome?_cons]
      cases known : GoogleErrorReason.fromStr text with
      | none =>
        rw [skip (fun other same => by rw [← Option.some.inj same]; exact known), ← ih]
        exact Iff.rfl
      | some reason =>
        have head := @fromStr_permanent_iff text
        rw [known] at head
        rw [head]
        constructor
        · exact fun permanent => ⟨[], text, rest, rfl, permanent, by simp⟩
        · rintro ⟨before, other, after, same, permanent, first⟩
          cases before with
          | nil =>
            obtain ⟨same, -⟩ := List.cons.inj same
            rwa [Option.some.inj same]
          | cons head before =>
            obtain ⟨rfl, -⟩ := List.cons.inj same
            have unknown := first text List.mem_cons_self
            rw [known] at unknown
            cases unknown

theorem readGoogleErrorReason_permanent_iff {response : Response} :
    (readGoogleErrorReason json response = some .insufficientPermissions ∨
      readGoogleErrorReason json response = some .domainPolicy) ↔
      response.broken = none ∧ response.body.length ≤ maxGoogleErrorBodyBytes ∧
        ∃ errors, json.errors response.body = some errors ∧ Forbids errors := by
  rw [readGoogleErrorReason_eq]
  by_cases lost : response.broken.isSome ∨ maxGoogleErrorBodyBytes < response.body.length
  · rw [if_pos lost]
    simp only [reduceCtorEq, or_self, false_iff]
    rintro ⟨whole, short, -⟩
    rcases lost with broken | long
    · simp [whole] at broken
    · omega
  · rw [if_neg lost]
    obtain ⟨whole, short⟩ := not_or.mp lost
    have kept : response.broken = none := by simpa using whole
    rw [parseGoogleErrorReason, if_neg short]
    cases read : json.errors response.body with
    | none => simp
    | some errors =>
      rw [Option.bind_some, forbids_iff]
      exact ⟨fun forbids => ⟨kept, Nat.not_lt.mp short, errors, rfl, forbids⟩,
        fun ⟨_, _, _, same, forbids⟩ => Option.some.inj same ▸ forbids⟩

/-- Reading a response gives a permanent failure just if the response refuses. -/
theorem decodeResponse_permanent_iff {α : Type} {decode : List UInt8 → Except String α}
    {operation : String} {response : Response} :
    (∃ error, decodeResponse json decode operation response = .error error ∧
      error.isPermanentAuthFailure = true) ↔ Refuses json response := by
  rw [Refuses, ← readGoogleErrorReason_permanent_iff, decodeResponse]
  by_cases stale : response.status = 404 ∧ operation = "history.list"
  · rw [if_pos stale]
    simp [GmailApiPollError.isPermanentAuthFailure, stale.1]
  rw [if_neg stale]
  by_cases failed : ¬ (200 ≤ response.status ∧ response.status < 300)
  · rw [if_pos failed]
    by_cases forbidden : response.status = 403
    · simp [GmailApiPollError.isPermanentAuthFailure, forbidden]
    · simp [GmailApiPollError.isPermanentAuthFailure, forbidden]
  · rw [if_neg failed]
    have success := not_not.mp failed
    have apart : ¬ (response.status = 401 ∨ response.status = 403 ∧
        (readGoogleErrorReason json response = some .insufficientPermissions ∨
          readGoogleErrorReason json response = some .domainPolicy)) := by omega
    refine iff_of_false ?_ apart
    rintro ⟨error, same, permanent⟩
    cases broken : response.broken with
    | some source =>
      simp only [broken] at same
      cases same
      cases permanent
    | none =>
      simp only [broken] at same
      cases read : decode response.body with
      | error source =>
        rw [read] at same
        cases same
        cases permanent
      | ok value =>
        rw [read] at same
        cases same

end Refusal

section Runs

/-- The poller has given up. -/
def GaveUp (s : State) : Prop := ∃ error, s.pc = .ended (.error error)

/-- What makes the poller give up. -/
inductive Fatal (json : Json) : Input → Prop where
  | reauth : Fatal json (.helper (.error .helperReauthRequired))
  | refused {response : Response} : Refuses json response → Fatal json (.response response)

theorem gaveUp_fail {error : GmailApiPollError} :
    GaveUp (fail s error).1 ↔ error.isPermanentAuthFailure = true := by
  unfold fail GaveUp
  cases error.isPermanentAuthFailure <;> simp

theorem not_gaveUp_baselined (s : State) (id : Nat) : ¬ GaveUp (baselined s id).1 := by
  rintro ⟨error, ended⟩
  cases ended

theorem not_gaveUp_accept (s : State) (since last : Nat) (trigger : Bool) :
    ¬ GaveUp (accept s since last trigger).1 := by
  rintro ⟨error, ended⟩
  cases ended

theorem not_gaveUp_nextLabel (s : State) (since last : Nat) (labels : List String) :
    ¬ GaveUp (nextLabel s since last labels).1 := by
  cases labels with
  | nil => exact not_gaveUp_accept s since last false
  | cons label rest =>
    rintro ⟨error, ended⟩
    cases ended

theorem not_gaveUp_polled (s : State) (latest : Nat) : ¬ GaveUp (polled labelIds s latest).1 := by
  cases tracked : s.tracker.lastHistoryId with
  | none =>
    simp only [polled, GmailHistoryTracker.compare, tracked, gaveUp_fail]
    simp [GmailApiPollError.isPermanentAuthFailure]
  | some since =>
    simp only [polled, GmailHistoryTracker.compare, tracked]
    by_cases advanced : since < latest
    · rw [if_pos advanced]
      cases labelIds with
      | nil => exact not_gaveUp_accept s since latest true
      | cons label rest => exact not_gaveUp_nextLabel s since latest (label :: rest)
    · rw [if_neg advanced]
      rintro ⟨error, ended⟩
      cases ended

theorem not_gaveUp_page (s : State) (since last : Nat) (label : String) (rest : List String)
    (response : HistoryListResponse) : ¬ GaveUp (page s since last label rest response).1 := by
  rw [page]
  split
  · exact not_gaveUp_accept s since last true
  · split
    · rintro ⟨error, ended⟩
      cases ended
    · exact not_gaveUp_nextLabel s since last rest

theorem first_of_some {next : State × List Event} (h : some next = some (t, es)) : next.1 = t :=
  congrArg Prod.fst (Option.some.inj h)

/-- A poller that has given up asks for nothing more. -/
theorem gaveUp_stuck (gone : GaveUp s) : step json labelIds s input = none := by
  obtain ⟨error, ended⟩ := gone
  cases input with
  | check | slept => simp [step, decoded, GmailApiPoll.step, ended]
  | helper result => cases result <;> simp [step, decoded, GmailApiPoll.step, ended]
  | sendFailed | response => simp [step, decoded, ended]

theorem gaveUp_helper {result : Except AuthError Unit}
    (h : step json labelIds s (.helper result) = some (t, es)) :
    GaveUp t ↔ Fatal json (.helper result) := by
  simp only [step, decoded, Option.bind_some, GmailApiPoll.step] at h
  have failed : ∀ error, some (fail s (.auth error)) = some (t, es) →
      (GaveUp t ↔ Fatal json (.helper (.error error))) := by
    intro error same
    obtain rfl := first_of_some same
    rw [gaveUp_fail]
    constructor
    · intro permanent
      cases error with
      | helperReauthRequired => exact .reauth
      | _ => cases permanent
    · rintro ⟨⟩
      rfl
  have asked : ∀ pc, (∀ error, pc ≠ .ended (.error error)) →
      some ({ s with pc := pc }, []) = some (t, es) →
      (GaveUp t ↔ Fatal json (.helper (.ok ()))) := by
    intro pc going same
    obtain rfl := first_of_some same
    refine iff_of_false ?_ (fun fatal => (by cases fatal))
    rintro ⟨error, ended⟩
    exact going error ended
  split at h
  · exact asked _ (by simp) h
  · exact failed _ h
  · exact asked _ (by simp) h
  · exact failed _ h
  · cases h

/-- Of a profile only a failed request can be permanent: a malformed id is not. -/
theorem permanent_profile {result : Except GmailApiPollError (List Char)} {context : String}
    {error : GmailApiPollError}
    (failed : (result.bind fun id => parseHistoryId id context) = .error error) :
    error.isPermanentAuthFailure = true ↔
      ∃ error, result = .error error ∧ error.isPermanentAuthFailure = true := by
  cases result with
  | error cause =>
    obtain rfl := Except.error.inj failed
    constructor
    · intro permanent
      exact ⟨_, rfl, permanent⟩
    · rintro ⟨_, same, permanent⟩
      obtain rfl := Except.error.inj same
      exact permanent
  | ok id =>
    rw [Except.bind, parseHistoryId] at failed
    constructor
    · intro permanent
      split at failed
      · cases failed
      · obtain rfl := Except.error.inj failed
        cases permanent
    · rintro ⟨_, impossible, _⟩
      cases impossible

theorem not_permanent_profile {result : Except GmailApiPollError (List Char)} {context : String}
    {n : Nat} (parsed : (result.bind fun id => parseHistoryId id context) = .ok n) :
    ¬ ∃ error, result = .error error ∧ error.isPermanentAuthFailure = true := by
  rintro ⟨error, rfl, permanent⟩
  cases parsed

/-- A profile makes the poller give up just if it is a permanent failure. -/
theorem gaveUp_profile {result : Except GmailApiPollError (List Char)}
    (h : GmailApiPoll.step labelIds s (.profile result) = some (t, es)) :
    GaveUp t ↔ ∃ error, result = .error error ∧ error.isPermanentAuthFailure = true := by
  simp only [GmailApiPoll.step] at h
  split at h
  · obtain rfl := first_of_some h
    split
    · rename_i error failed
      exact gaveUp_fail.trans (permanent_profile failed)
    · rename_i id parsed
      exact iff_of_false (not_gaveUp_baselined s id) (not_permanent_profile parsed)
  · obtain rfl := first_of_some h
    split
    · rename_i error failed
      exact gaveUp_fail.trans (permanent_profile failed)
    · rename_i latest parsed
      exact iff_of_false (not_gaveUp_polled s latest) (not_permanent_profile parsed)
  · cases h

theorem gaveUp_history {result : Except GmailApiPollError HistoryListResponse}
    (h : GmailApiPoll.step labelIds s (.history result) = some (t, es)) :
    GaveUp t ↔ ∃ error, result = .error error ∧ error.isPermanentAuthFailure = true := by
  simp only [GmailApiPoll.step] at h
  split at h
  · obtain rfl := first_of_some h
    refine iff_of_false (fun gone => not_gaveUp_page _ _ _ _ _ _ gone) ?_
    rintro ⟨error, same, -⟩
    cases same
  · obtain rfl := first_of_some h
    refine iff_of_false (fun gone => not_gaveUp_accept _ _ _ _ gone) ?_
    rintro ⟨error, same, permanent⟩
    obtain rfl := Except.error.inj same
    cases permanent
  · rename_i error _ _
    obtain rfl := first_of_some h
    rw [gaveUp_fail]
    constructor
    · intro permanent
      exact ⟨_, rfl, permanent⟩
    · rintro ⟨_, same, permanent⟩
      obtain rfl := Except.error.inj same
      exact permanent
  · cases h

theorem gaveUp_step (h : step json labelIds s input = some (t, es)) :
    GaveUp t ↔ Fatal json input := by
  have refused : ∀ {response : Response},
      (GaveUp t ↔ Refuses json response) → (GaveUp t ↔ Fatal json (.response response)) :=
    fun same => same.trans ⟨.refused, fun fatal => (by cases fatal; assumption)⟩
  have still : ∀ {source : String}, ¬ GaveUp t → (GaveUp t ↔ Fatal json (.sendFailed source)) :=
    fun going => iff_of_false going (fun fatal => (by cases fatal))
  cases input with
  | helper result => exact gaveUp_helper h
  | check shutdown =>
    refine iff_of_false ?_ (fun fatal => (by cases fatal))
    rintro ⟨error, ended⟩
    simp only [step, decoded, Option.bind_some, GmailApiPoll.step] at h
    split at h
    · obtain rfl := first_of_some h
      dsimp only at ended
      split at ended
      · cases ended
      · split at ended <;> cases ended
    · cases h
  | slept goOn =>
    refine iff_of_false ?_ (fun fatal => (by cases fatal))
    rintro ⟨error, ended⟩
    simp only [step, decoded, Option.bind_some, GmailApiPoll.step] at h
    split at h
    · obtain rfl := first_of_some h
      cases goOn <;> cases ended
    · obtain rfl := first_of_some h
      cases goOn <;> cases ended
    · cases h
  | sendFailed source =>
    refine still ?_
    simp only [step, decoded] at h
    split at h
    · rw [Option.bind_some] at h
      rw [gaveUp_profile h]
      rintro ⟨error, same, permanent⟩
      obtain rfl := Except.error.inj same
      cases permanent
    · rw [Option.bind_some] at h
      rw [gaveUp_profile h]
      rintro ⟨error, same, permanent⟩
      obtain rfl := Except.error.inj same
      cases permanent
    · rw [Option.bind_some] at h
      rw [gaveUp_history h]
      rintro ⟨error, same, permanent⟩
      obtain rfl := Except.error.inj same
      cases permanent
    · cases h
  | response response =>
    refine refused ?_
    simp only [step, decoded] at h
    split at h
    · rw [Option.bind_some] at h
      exact (gaveUp_profile h).trans decodeResponse_permanent_iff
    · rw [Option.bind_some] at h
      exact (gaveUp_profile h).trans decodeResponse_permanent_iff
    · rw [Option.bind_some] at h
      exact (gaveUp_history h).trans decodeResponse_permanent_iff
    · cases h

/-- The poller has given up just if it had a reason to. -/
def Decided (json : Json) (inputs : List Input) (_ : List Event) (s : State) : Prop :=
  GaveUp s ↔ ∃ input ∈ inputs, Fatal json input

theorem decided_step {inputs : List Input} (before : Decided json inputs tr s)
    (h : step json labelIds s input = some (t, es)) :
    Decided json (inputs ++ [input]) (tr ++ es) t := by
  have going : ¬ GaveUp s := by
    intro gone
    rw [gaveUp_stuck gone] at h
    cases h
  rw [Decided, gaveUp_step h]
  constructor
  · exact fun fatal => ⟨input, List.mem_append_right _ (List.mem_singleton_self input), fatal⟩
  · rintro ⟨other, mem, fatal⟩
    rcases List.mem_append.mp mem with old | new
    · exact absurd (before.mpr ⟨other, old, fatal⟩) going
    · exact List.mem_singleton.mp new ▸ fatal

/-- Two envelopes: the quota of the day is spent, and a permission is missing. -/
private def exampleJson : Json where
  errors := fun
    | [1] => some [none, some "backendError", some "dailyLimitExceeded"]
    | [2, 3] => some [none, some "backendError", some "insufficientPermissions"]
    | _ => none
  profile := fun _ => .error "no profile"
  history := fun _ => .error "no history"

private def exampleInputs : List Input :=
  [.check false, .helper (.ok ()), .response ⟨403, [[1]], none⟩, .slept true, .check false,
    .helper (.ok ()), .response ⟨403, [[2], [3]], none⟩]

end Runs

section Chunks

/-- The same answer, cut into other chunks. -/
inductive Recut : Input → Input → Prop where
  | same (input : Input) : Recut input input
  | response {response other : Response} : response.status = other.status →
      response.body = other.body → response.broken = other.broken →
      Recut (.response response) (.response other)

theorem decodeResponse_recut {α : Type} (decode : List UInt8 → Except String α)
    (operation : String) {response other : Response} (status : response.status = other.status)
    (body : response.body = other.body) (broken : response.broken = other.broken) :
    decodeResponse json decode operation response = decodeResponse json decode operation other := by
  rw [decodeResponse, decodeResponse, readGoogleErrorReason_eq, readGoogleErrorReason_eq, status,
    body, broken]

theorem step_recut {other : Input} (recut : Recut input other) :
    step json labelIds s input = step json labelIds s other := by
  cases recut with
  | same => rfl
  | response status body broken =>
    simp only [step, decoded, decodeResponse_recut _ _ status body broken]

/-- How the network cuts the answers into chunks makes no difference to the poller. -/
theorem chunking_is_invisible {inputs others : List Input}
    (recut : List.Forall₂ Recut inputs others) (s : State) :
    exec (step json labelIds) s inputs = exec (step json labelIds) s others := by
  induction recut generalizing s with
  | nil => rfl
  | cons head _ ih => simp only [exec, step_recut head, ih]

theorem example_whole_body_is_the_same :
    exec (step exampleJson []) (.start true) [.check false, .helper (.ok ()),
        .response ⟨403, [[2], [3]], none⟩] =
      exec (step exampleJson []) (.start true) [.check false, .helper (.ok ()),
        .response ⟨403, [[2, 3]], none⟩] := by
  refine chunking_is_invisible ?_ _
  exact .cons (.same _) (.cons (.same _) (.cons (.response rfl rfl rfl) .nil))

end Chunks

end GmailHttp

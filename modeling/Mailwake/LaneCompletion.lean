import Mailwake.LaneMoves

/-!
# Completion of lane requests

Every lifecycle channel is in exactly one place: queued, pending, with the command
the lane has taken, finished, or closed. The counts below say so, and a request that
is finished was either answered by an execution that began after it was received,
or turned away by the lane without a start.
-/
namespace Lane
open Channel CommandReport Transition
universe u
variable {κ : Type u}

namespace Event

def isReceived (id : Nat) : Event κ → Bool
  | .received w _ => w == id
  | _ => false

def isStarted (id : Nat) : Event κ → Bool
  | .started w => w == id
  | _ => false

def isFinished (id : Nat) : Event κ → Bool
  | .finished w _ => w == id
  | _ => false

def isClosed (id : Nat) : Event κ → Bool
  | .closed w => w == id
  | _ => false

end Event

def receivedCount (tr : List (Event κ)) (id : Nat) : Nat := tr.countP (Event.isReceived id)
def startedCount (tr : List (Event κ)) (id : Nat) : Nat := tr.countP (Event.isStarted id)
def finishedCount (tr : List (Event κ)) (id : Nat) : Nat := tr.countP (Event.isFinished id)
def closedCount (tr : List (Event κ)) (id : Nat) : Nat := tr.countP (Event.isClosed id)

section Counts
variable (tr fs : List (Event κ)) (ws : List Nat) (r : CommandRunReport) (id w : Nat) (c : κ)

@[simp] theorem receivedCount_append :
    receivedCount (tr ++ fs) id = receivedCount tr id + receivedCount fs id :=
  List.countP_append

@[simp] theorem startedCount_append :
    startedCount (tr ++ fs) id = startedCount tr id + startedCount fs id :=
  List.countP_append

@[simp] theorem finishedCount_append :
    finishedCount (tr ++ fs) id = finishedCount tr id + finishedCount fs id :=
  List.countP_append

@[simp] theorem closedCount_append :
    closedCount (tr ++ fs) id = closedCount tr id + closedCount fs id :=
  List.countP_append

@[simp] theorem receivedCount_nil : receivedCount ([] : List (Event κ)) id = 0 := rfl
@[simp] theorem startedCount_nil : startedCount ([] : List (Event κ)) id = 0 := rfl
@[simp] theorem finishedCount_nil : finishedCount ([] : List (Event κ)) id = 0 := rfl
@[simp] theorem closedCount_nil : closedCount ([] : List (Event κ)) id = 0 := rfl

@[simp] theorem finishedCount_finishWaiters :
    finishedCount (finishWaiters ws r : List (Event κ)) id = ws.count id := by
  simp only [finishedCount, finishWaiters, List.countP_map, List.count]
  rfl

@[simp] theorem startedCount_startWaiters :
    startedCount (startWaiters ws : List (Event κ)) id = ws.count id := by
  simp only [startedCount, startWaiters, List.countP_map, List.count]
  rfl

@[simp] theorem receivedCount_finishWaiters :
    receivedCount (finishWaiters ws r : List (Event κ)) id = 0 := by
  simp [receivedCount, finishWaiters, Event.isReceived]

@[simp] theorem startedCount_finishWaiters :
    startedCount (finishWaiters ws r : List (Event κ)) id = 0 := by
  simp [startedCount, finishWaiters, Event.isStarted]

@[simp] theorem closedCount_finishWaiters :
    closedCount (finishWaiters ws r : List (Event κ)) id = 0 := by
  simp [closedCount, finishWaiters, Event.isClosed]

@[simp] theorem receivedCount_startWaiters :
    receivedCount (startWaiters ws : List (Event κ)) id = 0 := by
  simp [receivedCount, startWaiters, Event.isReceived]

@[simp] theorem finishedCount_startWaiters :
    finishedCount (startWaiters ws : List (Event κ)) id = 0 := by
  simp [finishedCount, startWaiters, Event.isFinished]

@[simp] theorem closedCount_startWaiters :
    closedCount (startWaiters ws : List (Event κ)) id = 0 := by
  simp [closedCount, startWaiters, Event.isClosed]

end Counts

/-- What is left in the channel when the task returns. -/
def closeAll (requests : List (CommandRequest κ)) : List (Event κ) :=
  requests.map (fun r => .closed r.lifecycle)

def lifecycles (requests : List (CommandRequest κ)) : List Nat := requests.map (·.lifecycle)

section Counts
variable (requests : List (CommandRequest κ)) (id : Nat)

@[simp] theorem closedCount_closeAll :
    closedCount (closeAll requests) id = (lifecycles requests).count id := by
  simp only [closedCount, closeAll, lifecycles, List.countP_map, List.count]
  rfl

@[simp] theorem receivedCount_closeAll : receivedCount (closeAll requests) id = 0 := by
  simp [receivedCount, closeAll, Event.isReceived]

@[simp] theorem startedCount_closeAll : startedCount (closeAll requests) id = 0 := by
  simp [startedCount, closeAll, Event.isStarted]

@[simp] theorem finishedCount_closeAll : finishedCount (closeAll requests) id = 0 := by
  simp [finishedCount, closeAll, Event.isFinished]

end Counts

theorem startedCount_eq_zero {tr : List (Event κ)} {id : Nat}
    (h : ∀ x ∈ tr, ∀ w, x ≠ .started w) : startedCount tr id = 0 := by
  refine List.countP_eq_zero.mpr ?_
  intro x hx hs
  cases x with
  | started w => exact h _ hx w rfl
  | received | finished | closed | executionStarted | executionEnded => cases hs

theorem receivedCount_eq_zero {tr : List (Event κ)} {id : Nat}
    (h : ∀ command, .received id command ∉ tr) : receivedCount tr id = 0 := by
  refine List.countP_eq_zero.mpr ?_
  intro x hx hr
  cases x with
  | received w command =>
    have hw : w = id := by simpa [Event.isReceived] using hr
    exact h command (hw ▸ hx)
  | started | finished | closed | executionStarted | executionEnded => cases hr

theorem receivedCount_pos {tr : List (Event κ)} {id : Nat} {command : κ}
    (h : .received id command ∈ tr) : 0 < receivedCount tr id :=
  List.countP_pos_iff.mpr ⟨_, h, by simp [Event.isReceived]⟩

def Pc.held (pc : Pc κ) : List Nat := (pc.claim.map (·.2)).getD []

section
variable [DecidableEq κ]

/-- The lane itself sent the report, to a waiter it had not started. -/
def FromLane (runner : CommandLaneRunner κ) (before : List (Event κ)) (id : Nat) (command : κ)
    (report : CommandRunReport) : Prop :=
  startedCount before id = 0 ∧
    (report = .cancelled ∨ runner.command command = none ∧ report = .error "unknown command")

/-- The report is that of the latest execution, which is of the requested command and
began after the request was received. -/
def FromExecution (runner : CommandLaneRunner κ) (before : List (Event κ)) (id : Nat)
    (command : κ) (report : CommandRunReport) : Prop :=
  runner.command command ≠ none ∧ report ≠ .cancelled ∧ startedCount before id = 1 ∧
    ∃ past during rest,
      before = past ++ .executionStarted command :: during ++
        .executionEnded command report :: rest ∧
      .received id command ∈ past ∧ ∀ x ∈ during ++ rest, ∀ c, x ≠ .executionStarted c

def Justified (runner : CommandLaneRunner κ) (before : List (Event κ)) : Event κ → Prop
  | .finished id report =>
    ∃ command, .received id command ∈ before ∧
      (FromLane runner before id command report ∨ FromExecution runner before id command report)
  | _ => True

/-- The joint invariant of the state and the trace. -/
structure Accounts (runner : CommandLaneRunner κ) (tr : List (Event κ)) (s : State κ) :
    Prop where
  place : ∀ id, (lifecycles s.requests.items).count id + s.pending.everyone.count id +
    s.pc.held.count id + finishedCount tr id + closedCount tr id =
      if id < s.nextLifecycle then 1 else 0
  entry : ∀ id, (lifecycles s.requests.items).count id + receivedCount tr id +
    closedCount tr id = if id < s.nextLifecycle then 1 else 0
  pendingOrigin : ∀ command waiters id, s.pending.waiters.lookup command = some waiters →
    id ∈ waiters → .received id command ∈ tr
  claimOrigin : ∀ command waiters, s.pc.claim = some (command, waiters) →
    runner.command command ≠ none ∧ ∀ id ∈ waiters, .received id command ∈ tr
  starts : ∀ id, startedCount tr id = 0 ∨
    startedCount tr id = 1 ∧ (finishedCount tr id = 1 ∨ s.pc.begun = true ∧ id ∈ s.pc.held)
  execution : ∀ command waiters, s.pc = .running command waiters →
    (∀ id ∈ waiters, startedCount tr id = 1) ∧
    ∃ past during, tr = past ++ .executionStarted command :: during ∧
      (∀ id ∈ waiters, .received id command ∈ past) ∧
      ∀ x ∈ during, ∀ c, x ≠ .executionStarted c
  justified : AtEach (Justified runner) tr

variable {runner : CommandLaneRunner κ} {s t : State κ} {tr es : List (Event κ)}

omit [DecidableEq κ] in
theorem held_of_claim {pc : Pc κ} {command : κ} {waiters : List Nat}
    (h : pc.claim = some (command, waiters)) : pc.held = waiters := by
  simp [Pc.held, h]

omit [DecidableEq κ] in
theorem held_of_no_claim {pc : Pc κ} (h : pc.claim = none) : pc.held = [] := by
  simp [Pc.held, h]

omit [DecidableEq κ] in
theorem held_congr {pc pc' : Pc κ} (h : pc'.claim = pc.claim) : pc'.held = pc.held := by
  simp [Pc.held, h]

omit [DecidableEq κ] in
theorem begun_iff {pc : Pc κ} :
    pc.begun = true ↔ ∃ command waiters, pc = .running command waiters := by
  cases pc <;> simp [Pc.begun]

omit [DecidableEq κ] in
/-- Only a running task has the program counter of its claim and its start. -/
theorem running_congr {pc pc' : Pc κ} (claim : pc'.claim = pc.claim) (begun : pc'.begun = pc.begun)
    {command : κ} {waiters : List Nat} (h : pc' = .running command waiters) :
    pc = .running command waiters := by
  subst h
  obtain ⟨c, ws, rfl⟩ := begun_iff.mp begun.symm
  simp only [Pc.claim, Option.some.injEq, Prod.mk.injEq] at claim
  rw [← claim.1, ← claim.2]

theorem Accounts.fresh_start (acc : Accounts runner tr s) {id : Nat}
    (unfinished : finishedCount tr id = 0) (idle : s.pc.begun = false ∨ id ∉ s.pc.held) :
    startedCount tr id = 0 := by
  rcases acc.starts id with h | ⟨-, h | ⟨hb, hm⟩⟩
  · exact h
  · omega
  · rcases idle with h | h
    · rw [h] at hb; cases hb
    · exact absurd hm h

/-- Turning waiters away keeps every report justified. -/
theorem justified_from_lane (old : AtEach (Justified runner) tr)
    (silent : ∀ x ∈ es, ∀ w, x ≠ .started w)
    (lane : ∀ id report, .finished id report ∈ es → ∃ command, .received id command ∈ tr ∧
      FromLane runner tr id command report) : AtEach (Justified runner) (tr ++ es) := by
  refine old.append ?_
  intro before x after he
  cases x with
  | finished id report =>
    obtain ⟨command, hr, hs, hkind⟩ := lane id report (by simp [he])
    have hb : startedCount before id = 0 :=
      startedCount_eq_zero fun y hy => silent y (by simp [he, hy])
    refine ⟨command, List.mem_append_left _ hr, Or.inl ⟨?_, hkind⟩⟩
    simp [hs, hb]
  | received | started | closed | executionStarted | executionEnded => trivial

/-- A step that emits no report leaves the past justified. -/
theorem justified_quiet (old : AtEach (Justified runner) tr)
    (silent : ∀ x ∈ es, ∀ w r, x ≠ .finished w r) : AtEach (Justified runner) (tr ++ es) := by
  refine old.append_quiet ?_
  intro x hx before
  cases x with
  | finished id report => exact absurd rfl (silent _ hx id report)
  | received | started | closed | executionStarted | executionEnded => trivial

theorem accounts_quiet (acc : Accounts runner tr s) (same : Quiet s t) :
    Accounts runner (tr ++ []) t := by
  have hheld := held_congr same.claim
  have hevery : t.pending.everyone = s.pending.everyone := by
    simp [PendingRequests.everyone, same.waiters]
  rw [List.append_nil]
  constructor
  case place => simpa only [same.items, hevery, hheld, same.next] using acc.place
  case entry => simpa only [same.items, same.next] using acc.entry
  case pendingOrigin => simpa only [same.waiters] using acc.pendingOrigin
  case claimOrigin => simpa only [same.claim] using acc.claimOrigin
  case starts => simpa only [same.begun, hheld] using acc.starts
  case execution =>
    intro command waiters h
    exact acc.execution command waiters (running_congr same.claim same.begun h)
  case justified => exact acc.justified

theorem accounts_send (acc : Accounts runner tr s) {command : κ}
    (items : t.requests.items = s.requests.items ++ [⟨command, s.nextLifecycle⟩])
    (next : t.nextLifecycle = s.nextLifecycle + 1) (pending : t.pending = s.pending)
    (pc : t.pc = s.pc) : Accounts runner (tr ++ []) t := by
  have hcount : ∀ id, (lifecycles t.requests.items).count id =
      (lifecycles s.requests.items).count id + if id = s.nextLifecycle then 1 else 0 := by
    intro id
    simp only [items, lifecycles, List.map_append, List.count_append, List.map_cons, List.map_nil,
      List.count_singleton, beq_iff_eq, @eq_comm Nat id]
  rw [List.append_nil]
  constructor
  case place =>
    intro id
    have hp := acc.place id
    rw [hcount, pending, pc, next]
    split at hp <;> split <;> split <;> omega
  case entry =>
    intro id
    have he := acc.entry id
    rw [hcount, next]
    split at he <;> split <;> split <;> omega
  case pendingOrigin => simpa only [pending] using acc.pendingOrigin
  case claimOrigin => simpa only [pc] using acc.claimOrigin
  case starts => simpa only [pc] using acc.starts
  case execution => simpa only [pc] using acc.execution
  case justified => exact acc.justified

omit [DecidableEq κ] in
theorem lifecycles_cons (request : CommandRequest κ) (rest : List (CommandRequest κ)) (id : Nat) :
    (lifecycles (request :: rest)).count id =
      (if request.lifecycle = id then 1 else 0) + (lifecycles rest).count id := by
  simp only [lifecycles, List.map_cons, List.count_cons, beq_iff_eq]
  omega

omit [DecidableEq κ] in
theorem receivedCount_one (w id : Nat) (command : κ) :
    receivedCount [.received w command] id = if w = id then 1 else 0 := by
  by_cases h : w = id <;> simp [receivedCount, Event.isReceived, h]

theorem accounts_absorb (acc : Accounts runner tr s) {request : CommandRequest κ}
    (items : s.requests.items = request :: t.requests.items)
    (next : t.nextLifecycle = s.nextLifecycle) (pending : t.pending = s.pending.push request)
    (claim : t.pc.claim = s.pc.claim) (begun : t.pc.begun = s.pc.begun) :
    Accounts runner (tr ++ [.received request.lifecycle request.command]) t := by
  have hheld := held_congr claim
  have hevery : ∀ id, t.pending.everyone.count id =
      (if request.lifecycle = id then 1 else 0) + s.pending.everyone.count id := by
    intro id
    rw [pending, (PendingRequests.everyone_push s.pending request).count_eq, List.count_cons]
    simp only [beq_iff_eq]
    omega
  constructor
  case place =>
    intro id
    have hp := acc.place id
    rw [items, lifecycles_cons] at hp
    rw [hevery, hheld, next, finishedCount_append, closedCount_append]
    have hf : finishedCount [Event.received request.lifecycle request.command] id = 0 := rfl
    have hc : closedCount [Event.received request.lifecycle request.command] id = 0 := rfl
    omega
  case entry =>
    intro id
    have he := acc.entry id
    rw [items, lifecycles_cons] at he
    rw [next, receivedCount_append, closedCount_append, receivedCount_one]
    have hc : closedCount [Event.received request.lifecycle request.command] id = 0 := rfl
    omega
  case pendingOrigin =>
    intro command waiters id hl hid
    rw [pending] at hl
    by_cases hcmd : command = request.command
    · subst hcmd
      rw [PendingRequests.lookup_push_self, Option.some.injEq] at hl
      subst hl
      rcases List.mem_append.mp hid with hid | hid
      · cases hold : s.pending.waiters.lookup request.command with
        | none => simp [hold] at hid
        | some old =>
          exact List.mem_append_left _ (acc.pendingOrigin _ old id hold (by simpa [hold] using hid))
      · rw [List.mem_singleton.mp hid]
        exact List.mem_append_right _ (List.mem_singleton.mpr rfl)
    · rw [PendingRequests.lookup_push_ne _ _ hcmd] at hl
      exact List.mem_append_left _ (acc.pendingOrigin command waiters id hl hid)
  case claimOrigin =>
    intro command waiters h
    obtain ⟨hk, hr⟩ := acc.claimOrigin command waiters (claim ▸ h)
    exact ⟨hk, fun id hid => List.mem_append_left _ (hr id hid)⟩
  case starts =>
    intro id
    simpa [begun, hheld, startedCount, finishedCount, Event.isStarted, Event.isFinished]
      using acc.starts id
  case execution =>
    intro command waiters h
    obtain ⟨hs, past, during, htr, hr, hd⟩ :=
      acc.execution command waiters (running_congr claim begun h)
    refine ⟨fun id hid => by simpa [startedCount, Event.isStarted] using hs id hid,
      past, during ++ [.received request.lifecycle request.command], by simp [htr], hr, ?_⟩
    intro x hx c
    rcases List.mem_append.mp hx with hx | hx
    · exact hd x hx c
    · rw [List.mem_singleton.mp hx]
      simp
  case justified =>
    exact justified_quiet acc.justified (by simp)

theorem accounts_join (acc : Accounts runner tr s) {request : CommandRequest κ}
    {waiters : List Nat} {runAt : Nat} (items : s.requests.items = request :: t.requests.items)
    (next : t.nextLifecycle = s.nextLifecycle) (pending : t.pending = s.pending)
    (before : s.pc = .cooling request.command waiters runAt)
    (after : t.pc = .cooling request.command (waiters ++ [request.lifecycle]) runAt) :
    Accounts runner (tr ++ [.received request.lifecycle request.command]) t := by
  have hs : s.pc.held = waiters := by rw [before]; rfl
  have ht : t.pc.held = waiters ++ [request.lifecycle] := by rw [after]; rfl
  have hcount : ∀ id, t.pc.held.count id =
      s.pc.held.count id + if request.lifecycle = id then 1 else 0 := by
    intro id
    simp only [hs, ht, List.count_append, List.count_singleton, beq_iff_eq]
  constructor
  case place =>
    intro id
    have hp := acc.place id
    rw [items, lifecycles_cons] at hp
    rw [hcount, pending, next, finishedCount_append, closedCount_append]
    have hf : finishedCount [Event.received request.lifecycle request.command] id = 0 := rfl
    have hc : closedCount [Event.received request.lifecycle request.command] id = 0 := rfl
    omega
  case entry =>
    intro id
    have he := acc.entry id
    rw [items, lifecycles_cons] at he
    rw [next, receivedCount_append, closedCount_append, receivedCount_one]
    have hc : closedCount [Event.received request.lifecycle request.command] id = 0 := rfl
    omega
  case pendingOrigin =>
    intro command ws id hl hid
    exact List.mem_append_left _ (acc.pendingOrigin command ws id (pending ▸ hl) hid)
  case claimOrigin =>
    intro command ws h
    rw [after] at h
    simp only [Pc.claim, Option.some.injEq, Prod.mk.injEq] at h
    obtain ⟨rfl, rfl⟩ := h
    obtain ⟨hk, hr⟩ := acc.claimOrigin request.command waiters (by rw [before]; rfl)
    refine ⟨hk, ?_⟩
    intro id hid
    rcases List.mem_append.mp hid with hid | hid
    · exact List.mem_append_left _ (hr id hid)
    · rw [List.mem_singleton.mp hid]
      exact List.mem_append_right _ (List.mem_singleton.mpr rfl)
  case starts =>
    intro id
    have hb : s.pc.begun = false := by rw [before]; rfl
    have hst := acc.starts id
    simp only [hb, Bool.false_eq_true, false_and, or_false] at hst
    simp only [startedCount_append, finishedCount_append]
    have h0 : startedCount [Event.received request.lifecycle request.command] id = 0 := rfl
    have hf : finishedCount [Event.received request.lifecycle request.command] id = 0 := rfl
    rw [h0, hf]
    exact hst.imp (fun h => h) fun h => ⟨h.1, Or.inl h.2⟩
  case execution =>
    intro command ws h
    rw [after] at h
    cases h
  case justified => exact justified_quiet acc.justified (by simp)

theorem accounts_reject (acc : Accounts runner tr s) {name : κ} {waiters : List Nat}
    (unknown : runner.command name = none)
    (held : s.pending.waiters.lookup name = some waiters)
    (left : t.pending.waiters = s.pending.waiters.erase name)
    (items : t.requests.items = s.requests.items) (next : t.nextLifecycle = s.nextLifecycle)
    (before : s.pc = .dispatch) (after : t.pc = .dispatch) :
    Accounts runner (tr ++ finishWaiters waiters (.error "unknown command")) t := by
  have hs : s.pc.held = [] := by rw [before]; rfl
  have ht : t.pc.held = [] := by rw [after]; rfl
  have hevery : ∀ id, s.pending.everyone.count id =
      waiters.count id + t.pending.everyone.count id := by
    intro id
    rw [(PendingRequests.everyone_perm held).count_eq, List.count_append]
    simp [PendingRequests.everyone, PendingRequests.takeWaiters, left]
  constructor
  case place =>
    intro id
    have hp := acc.place id
    rw [hevery, hs] at hp
    rw [items, next, ht]
    simp only [finishedCount_append, finishedCount_finishWaiters, closedCount_append,
      closedCount_finishWaiters]
    omega
  case entry => simpa [items, next] using acc.entry
  case pendingOrigin =>
    intro command ws id hl hid
    rw [left] at hl
    have hne : command ≠ name := by
      rintro rfl
      simp at hl
    rw [AList.lookup_erase_ne hne] at hl
    exact List.mem_append_left _ (acc.pendingOrigin command ws id hl hid)
  case claimOrigin =>
    intro command ws h
    rw [after] at h
    cases h
  case starts =>
    intro id
    have hst := acc.starts id
    have hp := acc.place id
    have hb : s.pc.begun = false := by rw [before]; rfl
    rw [hevery] at hp
    simp only [hb, Bool.false_eq_true, false_and, or_false] at hst
    simp only [startedCount_append, startedCount_finishWaiters, finishedCount_append,
      finishedCount_finishWaiters]
    rcases hst with h | ⟨h, hf⟩
    · exact Or.inl (by omega)
    · refine Or.inr ⟨by omega, Or.inl ?_⟩
      split at hp <;> omega
  case execution =>
    intro command ws h
    rw [after] at h
    cases h
  case justified =>
    refine justified_from_lane acc.justified (by simp [finishWaiters]) ?_
    intro id report hm
    simp only [finishWaiters, List.mem_map, Event.finished.injEq] at hm
    obtain ⟨w, hw, rfl, rfl⟩ := hm
    have hp := acc.place w
    have hpos : 0 < waiters.count w := List.count_pos_iff.mpr hw
    rw [hevery] at hp
    have hun : finishedCount tr w = 0 := by split at hp <;> omega
    refine ⟨name, acc.pendingOrigin name waiters w held hw, ?_, Or.inr ⟨unknown, rfl⟩⟩
    exact acc.fresh_start hun (Or.inl (by rw [before]; rfl))

theorem accounts_take (acc : Accounts runner tr s) {name : κ} {waiters : List Nat}
    (known : runner.command name ≠ none)
    (held : s.pending.waiters.lookup name = some waiters)
    (left : t.pending.waiters = s.pending.waiters.erase name)
    (items : t.requests.items = s.requests.items) (next : t.nextLifecycle = s.nextLifecycle)
    (before : s.pc = .dispatch) (claim : t.pc.claim = some (name, waiters))
    (begun : t.pc.begun = false) : Accounts runner (tr ++ []) t := by
  have hs : s.pc.held = [] := by rw [before]; rfl
  have ht : t.pc.held = waiters := held_of_claim claim
  rw [List.append_nil]
  constructor
  case place =>
    intro id
    have hp := acc.place id
    rw [(PendingRequests.everyone_perm held).count_eq, List.count_append, hs] at hp
    have he : (s.pending.takeWaiters name).2.everyone = t.pending.everyone := by
      simp [PendingRequests.everyone, PendingRequests.takeWaiters, left]
    rw [he] at hp
    rw [items, next, ht]
    simp only [List.count_nil] at hp
    omega
  case entry => simpa only [items, next] using acc.entry
  case pendingOrigin =>
    intro command ws id hl hid
    rw [left] at hl
    have hne : command ≠ name := by
      rintro rfl
      simp at hl
    rw [AList.lookup_erase_ne hne] at hl
    exact acc.pendingOrigin command ws id hl hid
  case claimOrigin =>
    intro command ws h
    rw [claim, Option.some.injEq, Prod.mk.injEq] at h
    obtain ⟨rfl, rfl⟩ := h
    exact ⟨known, fun id hid => acc.pendingOrigin name waiters id held hid⟩
  case starts =>
    intro id
    have hb : s.pc.begun = false := by rw [before]; rfl
    have hst := acc.starts id
    simp only [hb, Bool.false_eq_true, false_and, or_false] at hst
    exact hst.imp (fun h => h) fun h => ⟨h.1, Or.inl h.2⟩
  case execution =>
    intro command ws h
    rw [h] at begun
    cases begun
  case justified => exact acc.justified

/-- The waiters a task holds are finished by nobody else, and each is there once. -/
theorem Accounts.held_once (acc : Accounts runner tr s) {id : Nat} (h : id ∈ s.pc.held) :
    s.pc.held.count id = 1 ∧ finishedCount tr id = 0 := by
  have hp := acc.place id
  have hpos : 0 < s.pc.held.count id := List.count_pos_iff.mpr h
  split at hp <;> constructor <;> omega

theorem accounts_execute (acc : Accounts runner tr s) {command : κ} {waiters : List Nat}
    (before : s.pc = .starting command waiters) (after : t.pc = .running command waiters)
    (items : t.requests.items = s.requests.items) (next : t.nextLifecycle = s.nextLifecycle)
    (pending : t.pending = s.pending) :
    Accounts runner (tr ++ (startWaiters waiters ++ [.executionStarted command])) t := by
  have hs : s.pc.held = waiters := by rw [before]; rfl
  have ht : t.pc.held = waiters := by rw [after]; rfl
  have hb : s.pc.begun = false := by rw [before]; rfl
  obtain ⟨hknown, horigin⟩ := acc.claimOrigin command waiters (by rw [before]; rfl)
  have hzero : ∀ id ∈ waiters, startedCount tr id = 0 ∧ waiters.count id = 1 := by
    intro id hid
    obtain ⟨hone, hun⟩ := acc.held_once (hs ▸ hid)
    exact ⟨acc.fresh_start hun (Or.inl hb), hs ▸ hone⟩
  have hnone : ∀ id, startedCount [Event.executionStarted command] id = 0 := fun _ => rfl
  constructor
  case place =>
    intro id
    have hp := acc.place id
    have hf : finishedCount [Event.executionStarted command] id = 0 := rfl
    have hc : closedCount [Event.executionStarted command] id = 0 := rfl
    simpa [items, next, pending, ht, hs, hf, hc] using hp
  case entry =>
    intro id
    have hr : receivedCount [Event.executionStarted command] id = 0 := rfl
    have hc : closedCount [Event.executionStarted command] id = 0 := rfl
    simpa [items, next, hr, hc] using acc.entry id
  case pendingOrigin =>
    intro c ws id hl hid
    exact List.mem_append_left _ (acc.pendingOrigin c ws id (pending ▸ hl) hid)
  case claimOrigin =>
    intro c ws h
    rw [after] at h
    simp only [Pc.claim, Option.some.injEq, Prod.mk.injEq] at h
    obtain ⟨rfl, rfl⟩ := h
    exact ⟨hknown, fun id hid => List.mem_append_left _ (horigin id hid)⟩
  case starts =>
    intro id
    have hf : finishedCount [Event.executionStarted command] id = 0 := rfl
    simp only [startedCount_append, startedCount_startWaiters, finishedCount_append,
      finishedCount_startWaiters, hnone, hf, after]
    by_cases hid : id ∈ waiters
    · obtain ⟨hz, hone⟩ := hzero id hid
      exact Or.inr ⟨by omega, Or.inr ⟨rfl, hid⟩⟩
    · have hcount : waiters.count id = 0 := List.count_eq_zero.mpr hid
      have hst := acc.starts id
      simp only [hb, Bool.false_eq_true, false_and, or_false] at hst
      rcases hst with h | ⟨h, hfin⟩
      · exact Or.inl (by omega)
      · exact Or.inr ⟨by omega, Or.inl hfin⟩
  case execution =>
    intro c ws h
    rw [after, Pc.running.injEq] at h
    obtain ⟨rfl, rfl⟩ := h
    refine ⟨?_, tr ++ startWaiters waiters, [], by simp, ?_, by simp⟩
    · intro id hid
      obtain ⟨hz, hone⟩ := hzero id hid
      simp [hz, hone, hnone]
    · exact fun id hid => List.mem_append_left _ (horigin id hid)
  case justified =>
    refine justified_quiet acc.justified ?_
    rintro x hx w r rfl
    simp [startWaiters] at hx

theorem accounts_complete (acc : Accounts runner tr s) {command : κ} {waiters : List Nat}
    {report : CommandRunReport} (genuine : report ≠ .cancelled)
    (before : s.pc = .running command waiters) (after : t.pc = .draining)
    (items : t.requests.items = s.requests.items) (next : t.nextLifecycle = s.nextLifecycle)
    (pending : t.pending = s.pending) :
    Accounts runner
      (tr ++ ([.executionEnded command report] ++ finishWaiters waiters report)) t := by
  have hs : s.pc.held = waiters := by rw [before]; rfl
  have ht : t.pc.held = [] := by rw [after]; rfl
  obtain ⟨hknown, -⟩ := acc.claimOrigin command waiters (by rw [before]; rfl)
  obtain ⟨hstart, past, during, htr, hpast, hduring⟩ := acc.execution command waiters before
  have hsn : ∀ id, startedCount [Event.executionEnded command report] id = 0 := fun _ => rfl
  have hfn : ∀ id, finishedCount [Event.executionEnded command report] id = 0 := fun _ => rfl
  have hcn : ∀ id, closedCount [Event.executionEnded command report] id = 0 := fun _ => rfl
  have hrn : ∀ id, receivedCount [Event.executionEnded command report] id = 0 := fun _ => rfl
  constructor
  case place =>
    intro id
    have hp := acc.place id
    rw [hs] at hp
    simp only [items, next, pending, ht, finishedCount_append, finishedCount_finishWaiters,
      closedCount_append, closedCount_finishWaiters, hfn, hcn, List.count_nil]
    omega
  case entry =>
    intro id
    simp only [items, next, receivedCount_append, receivedCount_finishWaiters, closedCount_append,
      closedCount_finishWaiters, hrn, hcn]
    simpa using acc.entry id
  case pendingOrigin =>
    intro c ws id hl hid
    exact List.mem_append_left _ (acc.pendingOrigin c ws id (pending ▸ hl) hid)
  case claimOrigin =>
    intro c ws h
    rw [after] at h
    cases h
  case starts =>
    intro id
    simp only [startedCount_append, startedCount_finishWaiters, finishedCount_append,
      finishedCount_finishWaiters, hsn, hfn]
    rcases acc.starts id with h | ⟨h, hf | ⟨-, hid⟩⟩
    · exact Or.inl (by omega)
    · have hnot : id ∉ waiters := by
        intro hid
        have := (acc.held_once (hs ▸ hid)).2
        omega
      have hcount : waiters.count id = 0 := List.count_eq_zero.mpr hnot
      exact Or.inr ⟨by omega, Or.inl (by omega)⟩
    · obtain ⟨hone, hzero⟩ := acc.held_once hid
      rw [hs] at hone
      exact Or.inr ⟨by omega, Or.inl (by omega)⟩
  case execution =>
    intro c ws h
    rw [after] at h
    cases h
  case justified =>
    refine acc.justified.append ?_
    intro front x rest he
    cases x with
    | finished id r =>
      -- the report follows `executionEnded` and other finishes of the same execution only
      obtain ⟨sent, rfl⟩ : ∃ sent, front = .executionEnded command report :: sent := by
        cases front with
        | nil => simp at he
        | cons y sent => exact ⟨sent, by simp at he; rw [he.1]⟩
      have hsent : finishWaiters waiters report = sent ++ .finished id r :: rest := by
        simpa using he
      have hm : (.finished id r : Event κ) ∈ finishWaiters waiters report := by simp [hsent]
      simp only [finishWaiters, List.mem_map, Event.finished.injEq] at hm
      obtain ⟨w, hw, rfl, rfl⟩ := hm
      have hfin : ∀ y ∈ sent, ∃ v, y = .finished v report := by
        intro y hy
        have hy' : y ∈ (finishWaiters waiters report : List (Event κ)) := by simp [hsent, hy]
        simp only [finishWaiters, List.mem_map] at hy'
        obtain ⟨v, -, rfl⟩ := hy'
        exact ⟨v, rfl⟩
      have hnosent : startedCount sent w = 0 := by
        refine startedCount_eq_zero ?_
        intro y hy v
        obtain ⟨u, rfl⟩ := hfin y hy
        simp
      refine ⟨command, ?_, Or.inr ⟨hknown, genuine, ?_, past, during, sent, ?_, hpast w hw, ?_⟩⟩
      · rw [htr]
        simp [hpast w hw]
      · have hone := hstart w hw
        have hcons : startedCount (.executionEnded command report :: sent) w =
            startedCount sent w := rfl
        simp [hone, hcons, hnosent]
      · simp [htr]
      · intro y hy c
        rcases List.mem_append.mp hy with hy | hy
        · exact hduring y hy c
        · obtain ⟨u, rfl⟩ := hfin y hy
          simp
    | received | started | closed | executionStarted | executionEnded => trivial

theorem accounts_retire (acc : Accounts runner tr s) {held : List Nat}
    (origin : (s.pc.claim = none ∧ held = []) ∨ ∃ command, s.pc.claim = some (command, held))
    (before : s.pc.begun = false) (after : t.pc = .returned) (pending : t.pending = .empty)
    (items : t.requests.items = []) (next : t.nextLifecycle = s.nextLifecycle) :
    Accounts runner (tr ++ (finishWaiters held .cancelled ++ cancelPending s.pending ++
      closeAll s.requests.items)) t := by
  have hs : s.pc.held = held := by
    rcases origin with ⟨hc, rfl⟩ | ⟨command, hc⟩
    · exact held_of_no_claim hc
    · exact held_of_claim hc
  have ht : t.pc.held = [] := by rw [after]; rfl
  have hst : ∀ id, startedCount tr id = 0 ∨ startedCount tr id = 1 ∧ finishedCount tr id = 1 := by
    intro id
    simpa [before] using acc.starts id
  constructor
  case place =>
    intro id
    have hp := acc.place id
    rw [hs] at hp
    simp only [items, next, pending, ht, PendingRequests.everyone_empty, cancelPending,
      finishedCount_append, finishedCount_finishWaiters, finishedCount_closeAll,
      closedCount_append, closedCount_finishWaiters, closedCount_closeAll, List.count_nil,
      lifecycles, List.map_nil] at hp ⊢
    omega
  case entry =>
    intro id
    have he := acc.entry id
    simp only [items, next, cancelPending, receivedCount_append, receivedCount_finishWaiters,
      receivedCount_closeAll, closedCount_append, closedCount_finishWaiters,
      closedCount_closeAll, lifecycles, List.map_nil, List.count_nil] at he ⊢
    omega
  case pendingOrigin =>
    intro c ws id hl hid
    rw [pending] at hl
    simp [PendingRequests.empty] at hl
  case claimOrigin =>
    intro c ws h
    rw [after] at h
    cases h
  case starts =>
    intro id
    have hp := acc.place id
    rw [hs] at hp
    simp only [cancelPending, startedCount_append, startedCount_finishWaiters,
      startedCount_closeAll, finishedCount_append, finishedCount_finishWaiters,
      finishedCount_closeAll]
    rcases hst id with h | ⟨h, hf⟩
    · exact Or.inl (by omega)
    · refine Or.inr ⟨by omega, Or.inl ?_⟩
      split at hp <;> omega
  case execution =>
    intro c ws h
    rw [after] at h
    cases h
  case justified =>
    have hsilent : ∀ x ∈ finishWaiters held .cancelled ++ cancelPending s.pending ++
        closeAll s.requests.items, ∀ w, x ≠ .started w := by
      rintro x hx w rfl
      simp [finishWaiters, cancelPending, closeAll] at hx
    refine justified_from_lane acc.justified hsilent ?_
    intro id report hm
    have hsource : report = .cancelled ∧ (id ∈ held ∨ id ∈ s.pending.everyone) := by
      simp only [finishWaiters, cancelPending, closeAll, List.mem_append, List.mem_map,
        Event.finished.injEq, reduceCtorEq, and_false, exists_false, or_false] at hm
      rcases hm with ⟨w, hw, rfl, rfl⟩ | ⟨w, hw, rfl, rfl⟩
      · exact ⟨rfl, Or.inl hw⟩
      · exact ⟨rfl, Or.inr hw⟩
    obtain ⟨rfl, hwhere⟩ := hsource
    have hp := acc.place id
    rw [hs] at hp
    have hun : finishedCount tr id = 0 := by
      rcases hwhere with hw | hw
      · have hpos : 0 < held.count id := List.count_pos_iff.mpr hw
        split at hp <;> omega
      · have hpos : 0 < s.pending.everyone.count id := List.count_pos_iff.mpr hw
        split at hp <;> omega
    have hfresh := acc.fresh_start hun (Or.inl before)
    rcases hwhere with hw | hw
    · rcases origin with ⟨-, rfl⟩ | ⟨command, hc⟩
      · cases hw
      · exact ⟨command, (acc.claimOrigin command held hc).2 id hw, hfresh, Or.inl rfl⟩
    · obtain ⟨command, ws, hl, hid⟩ := PendingRequests.mem_everyone.mp hw
      exact ⟨command, acc.pendingOrigin command ws id hl hid, hfresh, Or.inl rfl⟩

theorem accounts_step (acc : Accounts runner tr s) (move : Move runner s t es) :
    Accounts runner (tr ++ es) t := by
  cases move with
  | quiet same => exact accounts_quiet acc same
  | send command alive items next pending pc => exact accounts_send acc items next pending pc
  | absorb request items next pending claim begun before after =>
    exact accounts_absorb acc items next pending claim begun
  | join request waiters runAt items next pending before after =>
    exact accounts_join acc items next pending before after
  | reject name waiters unknown held left items next before after =>
    exact accounts_reject acc unknown held left items next before after
  | take name waiters known held left items next before claim begun after =>
    exact accounts_take acc known held left items next before claim begun
  | execute command waiters before after items next pending =>
    exact accounts_execute acc before after items next pending
  | complete command waiters report genuine before after items next pending =>
    exact accounts_complete acc genuine before after items next pending
  | retire held origin before alive after pending items next =>
    exact accounts_retire acc origin before after pending items next

theorem accounts_start : Accounts runner [] (State.start : State κ) := by
  constructor
  case place =>
    intro id
    simp [State.start, Mpsc.empty, lifecycles, PendingRequests.everyone, Pc.held, Pc.claim]
  case entry => intro id; simp [State.start, Mpsc.empty, lifecycles]
  case pendingOrigin => intro c ws id h; simp [State.start] at h
  case claimOrigin => intro c ws h; cases h
  case starts => intro id; exact Or.inl rfl
  case execution => intro c ws h; cases h
  case justified => exact atEach_nil

theorem accounts_run {labels : List (Label κ)}
    (run : exec (step runner) State.start labels = some (s, tr)) : Accounts runner tr s :=
  exec_invariant (fun _ _ _ _ _ acc h => accounts_step acc (step_move h)) accounts_start run

/-- A request that waits is in one of the three places. -/
theorem Unstarted.counted {command : κ} {id : Nat} (waiting : Unstarted command id s) :
    0 < (lifecycles s.requests.items).count id + s.pending.everyone.count id +
      s.pc.held.count id := by
  cases waiting with
  | queued h =>
    have hm : id ∈ lifecycles s.requests.items := List.mem_map.mpr ⟨_, h, rfl⟩
    have hpos := List.count_pos_iff.mpr hm
    omega
  | pending waiters held h =>
    have hm : id ∈ s.pending.everyone := PendingRequests.mem_everyone.mpr ⟨_, _, held, h⟩
    have hpos := List.count_pos_iff.mpr hm
    omega
  | claimed waiters claim begun h =>
    have hm : id ∈ s.pc.held := by rwa [held_of_claim claim]
    have hpos := List.count_pos_iff.mpr hm
    omega

/-- A request that was finished, or whose channel was closed, is in the lane no more. -/
theorem Accounts.not_unstarted (acc : Accounts runner tr s) {command : κ} {id : Nat}
    (answered : 0 < finishedCount tr id + closedCount tr id) : ¬ Unstarted command id s := by
  intro waiting
  have place := acc.place id
  have elsewhere := waiting.counted
  split at place <;> omega

theorem Accounts.lt_of_unstarted (acc : Accounts runner tr s) {command : κ} {id : Nat}
    (waiting : Unstarted command id s) : id < s.nextLifecycle := by
  have place := acc.place id
  have here := waiting.counted
  by_contra late
  rw [if_neg late] at place
  omega

/-- A returned task holds nothing any more. -/
def ReturnedEmpty (s : State κ) : Prop :=
  s.pc = .returned →
    s.requests.items = [] ∧ s.pending.everyone = [] ∧ s.pc.held = []

theorem returnedEmpty_step (old : ReturnedEmpty s) (move : Move runner s t es) :
    ReturnedEmpty t := by
  intro hpc
  cases move with
  | quiet same =>
    obtain ⟨hq, hw, hh⟩ := old (same.returned.mp hpc)
    refine ⟨same.items.trans hq, ?_, (held_congr same.claim).trans hh⟩
    simpa [PendingRequests.everyone, same.waiters] using hw
  | send command alive items next pending pc => exact absurd (pc ▸ hpc) alive
  | absorb request items next pending claim begun before after => exact absurd hpc after
  | join request waiters runAt items next pending before after => rw [after] at hpc; cases hpc
  | reject name waiters unknown held left items next before after => rw [after] at hpc; cases hpc
  | take name waiters known held left items next before claim begun after => exact absurd hpc after
  | execute command waiters before after items next pending => rw [after] at hpc; cases hpc
  | complete command waiters report genuine before after items next pending =>
    rw [after] at hpc; cases hpc
  | retire held origin before alive after pending items next =>
    exact ⟨items, by rw [pending]; rfl, by rw [after]; rfl⟩

theorem returned_empty_run {labels : List (Label κ)}
    (run : exec (step runner) State.start labels = some (s, tr)) : ReturnedEmpty s :=
  exec_invariant (P := fun _ s => ReturnedEmpty s)
    (fun _ _ _ _ _ old h => returnedEmpty_step old (step_move h))
    (fun h => by cases h) run

/-- Each request the lane receives is finished at most once, and exactly once when the
task has returned; every report is justified by what came before it; a request that was
still queued when the task returned gets no message and sees its channel closed. -/
theorem lane_completes_each_request_once {labels : List (Label κ)}
    (run : exec (step runner) State.start labels = some (s, tr)) :
    (∀ id, finishedCount tr id ≤ 1) ∧
    (s.pc = .returned → ∀ id command, .received id command ∈ tr → finishedCount tr id = 1) ∧
    AtEach (Justified runner) tr ∧
    (s.pc = .returned → ∀ id, id < s.nextLifecycle → (∀ command, .received id command ∉ tr) →
      closedCount tr id = 1 ∧ startedCount tr id = 0 ∧ finishedCount tr id = 0) := by
  have acc := accounts_run run
  have empty := returned_empty_run run
  refine ⟨?_, ?_, acc.justified, ?_⟩
  · intro id
    have hp := acc.place id
    split at hp <;> omega
  · intro hpc id command hm
    have hp := acc.place id
    have he := acc.entry id
    have hpos := receivedCount_pos hm
    obtain ⟨hq, hw, hh⟩ := empty hpc
    rw [hq, hw, hh] at hp
    rw [hq] at he
    simp only [lifecycles, List.map_nil, List.count_nil] at hp he
    by_cases hlt : id < s.nextLifecycle
    · simp only [hlt, if_true] at hp he
      omega
    · simp only [hlt, if_false] at hp he
      omega
  · intro hpc id hlt hnot
    have hp := acc.place id
    have he := acc.entry id
    obtain ⟨hq, hw, hh⟩ := empty hpc
    rw [hq, hw, hh] at hp
    rw [hq] at he
    simp only [lifecycles, List.map_nil, List.count_nil, hlt, if_true] at hp he
    have hr : receivedCount tr id = 0 := receivedCount_eq_zero hnot
    refine ⟨by omega, ?_, by omega⟩
    exact acc.fresh_start (by omega) (Or.inr (by simp [hh]))

private def exampleLane : CommandLaneRunner Bool := ⟨[⟨true, 5⟩], 64⟩

/-- Two requests for one command, the second during the run of the first, a request for an
unknown name in between, and a shutdown that leaves a last request in the channel. -/
private def exampleLaneLabels : List (Label Bool) :=
  [.send true, .proceed, .recv, .proceed, .proceed, .send false, .send true,
    .finish (.ok .wasCancelled), .proceed, .proceed, .proceed, .proceed, .proceed,
    .proceed, .setShutdown true, .send true, .shutdownChanged]

theorem lane_completes_example_requests :
    let r := (exec (step exampleLane) State.start exampleLaneLabels).get rfl
    finishedCount r.2 0 = 1 ∧ finishedCount r.2 1 = 1 ∧ finishedCount r.2 2 = 1 ∧
      closedCount r.2 3 = 1 := by
  have run := (Option.some_get
    (rfl : (exec (step exampleLane) State.start exampleLaneLabels).isSome = true)).symm
  have h := lane_completes_each_request_once run
  exact ⟨h.2.1 rfl 0 true (by decide), h.2.1 rfl 1 false (by decide), h.2.1 rfl 2 true (by decide),
    (h.2.2.2 rfl 3 (by decide) (by decide)).1⟩

end
end Lane

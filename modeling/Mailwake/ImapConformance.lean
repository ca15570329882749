import Mailwake.ImapSession
import Mailwake.ResponseForms

/-!
# The order of IMAP commands

The monitor keeps the connection state that RFC 3501 and RFC 2177 give a session after
what was read and written so far; it reads the lines itself, and knows nothing of the client's own
states. A trace conforms if every command is legal in the state it is written in.
-/
namespace ImapConformance
open ImapLine ImapSession ResponseForms Transition

inductive Level where
  | greeting
  | notAuthenticated
  | authenticated
  | selected
  /-- No greeting, or an IDLE that was not answered by OK. -/
  | closed
  deriving DecidableEq

inductive Kind where
  | authenticate
  | login
  | examine
  | idle
  deriving DecidableEq

/-- The connection state a command needs. -/
def Kind.level : Kind → Level
  | .authenticate => .notAuthenticated
  | .login => .notAuthenticated
  | .examine => .authenticated
  | .idle => .selected

def Kind.accepted : Kind → Level
  | .authenticate => .authenticated
  | .login => .authenticated
  | .examine => .selected
  | .idle => .selected

def Kind.refused : Kind → Level
  | .authenticate => .notAuthenticated
  | .login => .notAuthenticated
  | .examine => .authenticated
  | .idle => .closed

/-- A tagged command without its completion. -/
structure Pending where
  kind : Kind
  tag : Line
  /-- A continuation was read that was not answered yet. -/
  continued : Bool
  /-- DONE was written. -/
  done : Bool
  deriving DecidableEq

structure Monitor where
  level : Level
  pending : Option Pending
  used : List Line
  deriving DecidableEq

def Monitor.start : Monitor := ⟨.greeting, none, []⟩

def greetsOk (line : Line) : Bool := (untagged line).any statusOk

def greetsPreauth (line : Line) : Bool := (untagged line).any (hasStatus "PREAUTH".toList)

def greeted (line : Line) : Level :=
  if greetsOk line then .notAuthenticated
  else if greetsPreauth line then .authenticated
  else .closed

/-- A line in answer to the pending command, or untagged data. -/
def Monitor.answer (m : Monitor) (p : Pending) (line : Line) : Monitor :=
  match underTag line p.tag with
  | some text =>
    { m with level := if statusOk text then p.kind.accepted else p.kind.refused, pending := none }
  | none =>
    if isContinuation line then { m with pending := some { p with continued := true } } else m

def Monitor.read (m : Monitor) (line : Line) : Monitor :=
  if m.level = .greeting then { m with level := greeted line }
  else
    match m.pending with
    | none => m
    | some p => m.answer p line

def opens : Command → Option (Kind × Line)
  | .authenticate tag => some (.authenticate, tag)
  | .login tag _ _ => some (.login, tag)
  | .examine tag _ => some (.examine, tag)
  | .idle tag => some (.idle, tag)
  | .done => none
  | .response _ => none

/-- A tagged command is alone, in its state, under a new tag. -/
def Monitor.MayOpen (m : Monitor) (kind : Kind) (tag : Line) : Prop :=
  m.level = kind.level ∧ m.pending = none ∧ tag ∉ m.used

instance (m : Monitor) (kind : Kind) (tag : Line) : Decidable (m.MayOpen kind tag) :=
  inferInstanceAs (Decidable (_ ∧ _ ∧ _))

def Monitor.Legal (m : Monitor) : Command → Prop
  | .authenticate tag => m.MayOpen .authenticate tag
  | .login tag _ _ => m.MayOpen .login tag
  | .examine tag _ => m.MayOpen .examine tag
  | .idle tag => m.MayOpen .idle tag
  | .done => ∃ p, m.pending = some p ∧ p.kind = .idle ∧ p.continued = true ∧ p.done = false
  | .response _ => ∃ p, m.pending = some p ∧ p.kind = .authenticate ∧ p.continued = true

instance (m : Monitor) : (command : Command) → Decidable (m.Legal command)
  | .authenticate tag => inferInstanceAs (Decidable (m.MayOpen .authenticate tag))
  | .login tag _ _ => inferInstanceAs (Decidable (m.MayOpen .login tag))
  | .examine tag _ => inferInstanceAs (Decidable (m.MayOpen .examine tag))
  | .idle tag => inferInstanceAs (Decidable (m.MayOpen .idle tag))
  | .done => decidable_of_iff
      (∃ p ∈ m.pending, p.kind = .idle ∧ p.continued = true ∧ p.done = false) Iff.rfl
  | .response _ => decidable_of_iff
      (∃ p ∈ m.pending, p.kind = .authenticate ∧ p.continued = true) Iff.rfl

def Monitor.write (m : Monitor) (command : Command) : Monitor :=
  match opens command with
  | some (kind, tag) => { m with pending := some ⟨kind, tag, false, false⟩, used := tag :: m.used }
  | none =>
    match command with
    | .done => { m with pending := m.pending.map fun p => { p with done := true } }
    | _ => { m with pending := m.pending.map fun p => { p with continued := false } }

def observe (m : Monitor) : Event → Monitor
  | .read line => m.read line
  | .wrote command => m.write command

/-- Every command is legal where it is written. -/
def Conforms : Monitor → List Event → Prop
  | _, [] => True
  | m, .read line :: rest => Conforms (m.read line) rest
  | m, .wrote command :: rest => m.Legal command ∧ Conforms (m.write command) rest

theorem conforms_append {m : Monitor} {es fs : List Event} :
    Conforms m (es ++ fs) ↔ Conforms m es ∧ Conforms (es.foldl observe m) fs := by
  induction es generalizing m with
  | nil => simp [Conforms]
  | cons e rest ih =>
    cases e with
    | read line => simpa [Conforms, observe] using ih
    | wrote command => simp [Conforms, observe, ih, and_assoc]

/-- The command that is being authenticated with. -/
def authKind : Authenticating → Kind
  | .continuation _ => .authenticate
  | .completion => .authenticate
  | .login => .login

/-- The credentials lead to a command, and not to a validation error. -/
def sendable (session : Session) : Credentials → Bool
  | .xoauth2 _ => true
  | .password password => validImapString session.username && validImapString password

/-- The greeting that was accepted, while the credentials are fetched. -/
def greetingOf : Pc → Option Line
  | .credentials greeting => some greeting
  | _ => none

/-- The tag whose OK leads to a further command. -/
def awaited : Pc → Option Nat
  | .authenticating tag .completion => some tag
  | .authenticating tag .login => some tag
  | .examining tag => some tag
  | .idle idle =>
    match idle.pc with
    | .idling tag => some tag
    | .completion tag false _ => some tag
    | _ => none
  | _ => none

/-- A plus sign ends the wait, or is answered. -/
def continues : Pc → Bool
  | .authenticating _ (.continuation _) => true
  | .authenticating _ .completion => true
  | .idle idle =>
    match idle.pc with
    | .continuation _ => true
    | _ => false
  | _ => false

/-- What the session takes for an OK or for a continuation is one. -/
structure Legible (pc : Pc) (line : Line) : Prop where
  ok : ∀ tag ∈ awaited pc, isTaggedOk line (formatTag tag) = true →
    (underTag line (formatTag tag)).any statusOk = true
  continued : continues pc = true → startsWith line ['+'] = true → isContinuation line = true

instance (pc : Pc) (line : Line) : Decidable (Legible pc line) :=
  decidable_of_iff ((∀ tag ∈ awaited pc, isTaggedOk line (formatTag tag) = true →
      (underTag line (formatTag tag)).any statusOk = true) ∧
    (continues pc = true → startsWith line ['+'] = true → isContinuation line = true))
    ⟨fun h => ⟨h.1, h.2⟩, fun h => ⟨h.ok, h.continued⟩⟩

/-- Authentication begins only after a greeting whose status is OK, and lines are legible. -/
def Proceeds (session : Session) (s : State) : Label → Prop
  | .credentials (.ok credentials) =>
    ∀ greeting ∈ greetingOf s.pc, sendable session credentials = true → greetsOk greeting = true
  | .line line => Legible s.pc line
  | .idle (.line line) => Legible s.pc line
  | _ => True

section Tags

/-- A continuation is no tagged line. -/
theorem not_tagged_of_plus {line : Line} {n : Nat} (h : startsWith line ['+'] = true) :
    isTaggedCompletion line (formatTag n) = false := by
  obtain ⟨rest, rfl⟩ := List.isPrefixOf_iff_prefix.mp h
  simp [isTaggedCompletion, afterTag, stripPrefix, startsWith, formatTag, List.isPrefixOf]

end Tags

section Monitoring

variable {session : Session} {s t : State} {m : Monitor} {es : List Event} {tags tag : Nat}
  {kind : Kind} {line : Line}

/-- The monitor has one command pending, and every tag so far comes from the counter. -/
structure Awaits (m : Monitor) (tags : Nat) (kind : Kind) (tag : Nat) (continued done : Bool) :
    Prop where
  level : m.level = kind.level
  pending : m.pending = some ⟨kind, formatTag tag, continued, done⟩
  used : ∀ u ∈ m.used, ∃ k, k ≤ tags ∧ u = formatTag k

/-- No command is pending, and a new tag is not used. -/
structure Ready (m : Monitor) (tags : Nat) (kind : Kind) : Prop where
  level : m.level = kind.level
  pending : m.pending = none
  used : ∀ u ∈ m.used, ∃ k, k ≤ tags ∧ u = formatTag k

theorem Kind.level_ne_greeting (kind : Kind) : kind.level ≠ .greeting := by
  cases kind <;> simp [Kind.level]

theorem fresh_tag (used : ∀ u ∈ m.used, ∃ k, k ≤ tags ∧ u = formatTag k) :
    formatTag (tags + 1) ∉ m.used := by
  intro h
  obtain ⟨k, hk, he⟩ := used _ h
  have same := formatTag_injective he
  omega

theorem Ready.mayOpen (ready : Ready m tags kind) : m.MayOpen kind (formatTag (tags + 1)) :=
  ⟨ready.level, ready.pending, fresh_tag ready.used⟩

/-- A command under the next tag is legal, and is then the pending one. -/
theorem Ready.opened (ready : Ready m tags kind) (command : Command)
    (names : opens command = some (kind, formatTag (tags + 1))) :
    m.Legal command ∧ Awaits (m.write command) (tags + 1) kind (tags + 1) false false := by
  refine ⟨?_, ?_⟩
  · cases command with
    | authenticate | login | examine | idle =>
      cases names
      exact ready.mayOpen
    | done | response => cases names
  · have used : ∀ u ∈ formatTag (tags + 1) :: m.used, ∃ k, k ≤ tags + 1 ∧ u = formatTag k := by
      intro u hu
      rcases List.mem_cons.mp hu with rfl | hu
      · exact ⟨tags + 1, Nat.le_refl _, rfl⟩
      · obtain ⟨k, hk, he⟩ := ready.used u hu
        exact ⟨k, by omega, he⟩
    simp only [Monitor.write, names]
    exact ⟨ready.level, rfl, used⟩

variable {continued done : Bool}

theorem Awaits.read_eq (awaits : Awaits m tags kind tag continued done) :
    m.read line = m.answer ⟨kind, formatTag tag, continued, done⟩ line := by
  have started : m.level ≠ .greeting := awaits.level ▸ kind.level_ne_greeting
  rw [Monitor.read, if_neg started, awaits.pending]

/-- A tagged OK brings the state that the command leads to. -/
theorem Awaits.ok (awaits : Awaits m tags kind tag continued done) {next : Kind}
    (leads : kind.accepted = next.level)
    (ok : (underTag line (formatTag tag)).any statusOk = true) : Ready (m.read line) tags next := by
  obtain ⟨text, under, status⟩ := (Option.any_eq_true ..).mp ok
  simp only [awaits.read_eq, Monitor.answer, under, status, if_true]
  exact ⟨leads, rfl, awaits.used⟩

/-- A continuation is noted, and any other line leaves the command as it is. -/
theorem Awaits.other (awaits : Awaits m tags kind tag continued done)
    (untagged : isTaggedCompletion line (formatTag tag) = false) :
    Awaits (m.read line) tags kind tag (continued || isContinuation line) done := by
  rw [isTaggedCompletion_eq_false] at untagged
  simp only [awaits.read_eq, Monitor.answer, untagged]
  cases isContinuation line with
  | true =>
    rw [Bool.or_true]
    exact ⟨awaits.level, rfl, awaits.used⟩
  | false =>
    rw [Bool.or_false]
    exact awaits

theorem Awaits.plus (awaits : Awaits m tags kind tag continued done)
    (plus : isContinuation line = true) : Awaits (m.read line) tags kind tag true done := by
  have next := awaits.other (not_tagged_of_plus (startsWith_of_isContinuation plus))
  rwa [plus, Bool.or_true] at next

/-- The answer to a continuation is legal once, and nothing else changes. -/
theorem Awaits.respond (awaits : Awaits m tags .authenticate tag true done) (text : Line) :
    m.Legal (.response text) ∧
      Awaits (m.write (.response text)) tags .authenticate tag false done := by
  refine ⟨⟨_, awaits.pending, rfl, rfl⟩, ?_⟩
  simp only [Monitor.write, opens, awaits.pending, Option.map_some]
  exact ⟨awaits.level, rfl, awaits.used⟩

theorem Awaits.finish (awaits : Awaits m tags .idle tag true false) :
    m.Legal .done ∧ Awaits (m.write .done) tags .idle tag true true := by
  refine ⟨⟨_, awaits.pending, rfl, rfl, rfl⟩, ?_⟩
  simp only [Monitor.write, opens, awaits.pending, Option.map_some]
  exact ⟨awaits.level, rfl, awaits.used⟩

/-- How the monitor stands while the IDLE cycle is in a state. -/
inductive FollowsIdle (m : Monitor) (tags : Nat) : ImapIdle.Pc → Prop where
  | sendingIdle {tag : Nat} {continued : Bool} (awaits : Awaits m tags .idle tag continued false) :
      FollowsIdle m tags (.sendingIdle tag)
  | continuation {tag : Nat} {continued : Bool}
      (awaits : Awaits m tags .idle tag continued false) : FollowsIdle m tags (.continuation tag)
  | idling {tag : Nat} (awaits : Awaits m tags .idle tag true false) :
      FollowsIdle m tags (.idling tag)
  | sendingDone {tag : Nat} (stopping : Bool) (awaits : Awaits m tags .idle tag true true) :
      FollowsIdle m tags (.sendingDone tag stopping)
  | completion {tag : Nat} (stopping queued : Bool) (awaits : Awaits m tags .idle tag true true) :
      FollowsIdle m tags (.completion tag stopping queued)
  | ended (result : Except ImapError ImapIdle.RunEnd) : FollowsIdle m tags (.ended result)

/-- How the monitor stands while the session is in a state. -/
inductive Follows (m : Monitor) (tags : Nat) : Pc → Prop where
  | greeting (start : m = .start) : Follows m tags .greeting
  | credentials (line : Line) (greeted : m = Monitor.start.read line) :
      Follows m tags (.credentials line)
  | sendingAuth {tag : Nat} (next : Authenticating) {continued : Bool}
      (awaits : Awaits m tags (authKind next) tag continued false) :
      Follows m tags (.sendingAuth tag next)
  | authenticating {tag : Nat} {now : Authenticating} {continued : Bool}
      (awaits : Awaits m tags (authKind now) tag continued false) :
      Follows m tags (.authenticating tag now)
  | sendingExamine {tag : Nat} {continued : Bool}
      (awaits : Awaits m tags .examine tag continued false) : Follows m tags (.sendingExamine tag)
  | examining {tag : Nat} {continued : Bool}
      (awaits : Awaits m tags .examine tag continued false) : Follows m tags (.examining tag)
  | idle {idle : ImapIdle.State} (follows : FollowsIdle m idle.tags idle.pc) :
      Follows m tags (.idle idle)
  | ended (error : SessionError) : Follows m tags (.ended error)
  | dropped : Follows m tags .dropped

/-- The events are legal from here on, and the monitor follows to where they lead. -/
def Lawful (m : Monitor) (next : State × List Event) : Prop :=
  Conforms m next.2 ∧ Follows (next.2.foldl observe m) next.1.tags next.1.pc

theorem lawful_silent (follows : Follows m t.tags t.pc) : Lawful m (t, []) := ⟨trivial, follows⟩

theorem lawful_hear {next : State × List Event} (h : Lawful (m.read line) next) :
    Lawful m (hear line next) := h

theorem lawful_send {pc : Nat → Pc} {command : Line → Command} (ready : Ready m s.tags kind)
    (names : ∀ tag, opens (command tag) = some (kind, tag))
    (follows : ∀ n, Awaits n (s.tags + 1) kind (s.tags + 1) false false →
      Follows n (s.tags + 1) (pc (s.tags + 1))) :
    Lawful m (s.send pc command) := by
  obtain ⟨legal, awaits⟩ := ready.opened _ (names (formatTag (s.tags + 1)))
  exact ⟨⟨legal, trivial⟩, follows _ awaits⟩

theorem lawful_examine (ready : Ready m s.tags .examine) :
    Lawful m (examineMailbox session s) := by
  rw [examineMailbox]
  split
  · exact lawful_send ready (fun _ => rfl) fun _ awaits => .sendingExamine awaits
  · exact lawful_silent (.ended _)

/-- Where the greeting was OK, the authentication command is legal. -/
theorem lawful_authenticate {credentials : Credentials} (ready :
    sendable session credentials = true → Ready m s.tags .authenticate) :
    Lawful m (authenticate session s credentials) := by
  cases credentials with
  | xoauth2 token =>
    exact lawful_send (ready rfl) (fun _ => rfl) fun _ awaits => .sendingAuth _ awaits
  | password password =>
    simp only [authenticate]
    split
    · rename_i username
      split
      · rename_i valid
        have login : Ready m s.tags .login := by
          have same := ready (by simp [sendable, username, valid])
          exact ⟨same.level, same.pending, same.used⟩
        exact lawful_send login (fun _ => rfl) fun _ awaits => .sendingAuth _ awaits
      · exact lawful_silent (.ended _)
    · exact lawful_silent (.ended _)

theorem lawful_readGreeting (start : m = .start) : Lawful (m.read line) (readGreeting s line) := by
  subst start
  rw [readGreeting]
  split
  · exact lawful_silent (.credentials line rfl)
  · split
    · exact lawful_silent (.credentials line rfl)
    · exact lawful_silent (.ended _)

theorem lawful_authenticating {now : Authenticating} (pc : s.pc = .authenticating tag now)
    (awaits : Awaits m s.tags (authKind now) tag continued false)
    (legible : Legible (.authenticating tag now) line) :
    Lawful (m.read line) (authenticating session s tag line now) := by
  have stay : isTaggedCompletion line (formatTag tag) = false → Lawful (m.read line) (s, []) := by
    intro untagged
    refine lawful_silent ?_
    rw [pc]
    exact .authenticating (awaits.other untagged)
  cases now with
  | continuation response =>
    simp only [authenticating]
    split
    · rename_i plus
      obtain ⟨legal, next⟩ := (awaits.plus (legible.continued rfl plus)).respond response
      exact ⟨⟨legal, trivial⟩, .sendingAuth .completion next⟩
    · split
      · exact lawful_silent (.ended _)
      · rename_i untagged
        exact stay (by simpa using untagged)
  | completion =>
    simp only [authenticating]
    split
    · rename_i plus
      obtain ⟨legal, next⟩ := (awaits.plus (legible.continued rfl plus)).respond []
      exact ⟨⟨legal, trivial⟩, .sendingAuth .completion next⟩
    · split
      · rename_i ok
        exact lawful_examine (awaits.ok rfl (legible.ok tag rfl ok))
      · split
        · exact lawful_silent (.ended _)
        · rename_i untagged
          exact stay (by simpa using untagged)
  | login =>
    simp only [authenticating]
    split
    · rename_i ok
      exact lawful_examine (awaits.ok rfl (legible.ok tag rfl ok))
    · split
      · exact lawful_silent (.ended _)
      · rename_i untagged
        exact stay (by simpa using untagged)

theorem lawful_examining (pc : s.pc = .examining tag)
    (awaits : Awaits m s.tags .examine tag continued false)
    (legible : Legible (.examining tag) line) :
    Lawful (m.read line) (examining session s tag line) := by
  rw [examining]
  split
  · rename_i ok
    have ready : Ready (m.read line) s.tags .idle := awaits.ok rfl (legible.ok tag rfl ok)
    obtain ⟨legal, next⟩ := ready.opened (.idle (formatTag (s.tags + 1))) rfl
    exact ⟨⟨legal, trivial⟩, .idle (.sendingIdle next)⟩
  · split
    · exact lawful_silent (.ended _)
    · rename_i untagged
      refine lawful_silent ?_
      rw [pc]
      exact .examining (awaits.other (by simpa using untagged))

/-- A reissued IDLE is legal after the OK of the one before. -/
theorem follows_issue {idle : ImapIdle.State} (ready : Ready m idle.tags .idle) :
    Conforms m (begun (ImapIdle.issue idle).pc) ∧
      FollowsIdle ((begun (ImapIdle.issue idle).pc).foldl observe m)
        (ImapIdle.issue idle).tags (ImapIdle.issue idle).pc := by
  obtain ⟨legal, next⟩ := ready.opened (.idle (formatTag (idle.tags + 1))) rfl
  exact ⟨⟨legal, trivial⟩, .sendingIdle next⟩

section Idle

variable {idle : ImapIdle.State} {next : ImapIdle.State × List ImapIdle.Event}

/-- The monitor follows a step of the IDLE cycle. -/
def LawfulIdle (m : Monitor) (next : ImapIdle.State × List ImapIdle.Event) : Prop :=
  Conforms m (next.2.filterMap heard ++ begun next.1.pc) ∧
    FollowsIdle ((next.2.filterMap heard ++ begun next.1.pc).foldl observe m) next.1.tags next.1.pc

theorem lawful_finish (result : Except ImapError ImapIdle.RunEnd) :
    LawfulIdle m (ImapIdle.finish idle result) := ⟨trivial, .ended result⟩

theorem lawful_fail (stopping : Bool) (error : ImapError) :
    LawfulIdle m (ImapIdle.fail idle stopping error) := lawful_finish _

/-- A step that writes nothing and reads nothing. -/
theorem lawful_pc {events : List ImapIdle.Event} (unheard : events.filterMap heard = [])
    (unwritten : begun idle.pc = []) (follows : FollowsIdle m idle.tags idle.pc) :
    LawfulIdle m (idle, events) := by
  simp only [LawfulIdle, unheard, unwritten, List.nil_append, List.foldl_nil]
  exact ⟨trivial, follows⟩

theorem lawful_line (before : List ImapIdle.Event) (unheard : before.filterMap heard = [])
    (h : LawfulIdle (m.read line) next) :
    LawfulIdle m (ImapIdle.emitFirst (before ++ [.read line]) next) := by
  simp only [LawfulIdle, ImapIdle.emitFirst, List.filterMap_append, unheard, List.nil_append]
  exact h

theorem lawful_continued (awaits : Awaits m idle.tags .idle tag true false) :
    LawfulIdle m (ImapIdle.continued idle tag) := by
  rw [ImapIdle.continued]
  split
  · exact lawful_pc rfl rfl (.idling awaits)
  · refine lawful_pc ?_ rfl (.idling awaits)
    split <;> split <;> rfl

theorem lawful_waitIdleContinuation (pc : idle.pc = .continuation tag)
    (awaits : Awaits m idle.tags .idle tag continued false) (legible : Legible (.idle idle) line) :
    LawfulIdle (m.read line) (ImapIdle.waitIdleContinuation idle tag line) := by
  rw [ImapIdle.waitIdleContinuation]
  split
  · rename_i plus
    have continued := legible.continued (by rw [continues, pc]) plus
    exact lawful_continued (awaits.plus continued)
  · split
    · exact lawful_finish _
    · rename_i untagged
      refine lawful_pc rfl (by rw [pc]; rfl) ?_
      rw [pc]
      exact .continuation (awaits.other (by simpa using untagged))

/-- What a line inside IDLE is to the monitor, by its classification. -/
theorem ready_of_completed (awaits : Awaits m tags .idle tag continued done)
    (legible : Legible (.idle idle) line) (waits : awaited (.idle idle) = some tag)
    (h : classifyIdleResponse line (formatTag tag) = .ok .completed) :
    Ready (m.read line) tags .idle := by
  refine awaits.ok rfl (legible.ok tag waits ?_)
  simp only [classifyIdleResponse] at h
  split at h
  · cases h
  split at h
  · assumption
  split at h
  · cases h
  split at h <;> cases h

theorem untagged_of_classify {response : IdleResponse}
    (h : classifyIdleResponse line (formatTag tag) = .ok response)
    (other : response ≠ .completed) : isTaggedCompletion line (formatTag tag) = false := by
  simp only [classifyIdleResponse] at h
  split at h
  · cases h
  split at h
  · cases h
    exact absurd rfl other
  split at h
  · cases h
  · rename_i untagged
    simpa using untagged

theorem lawful_idleLine (pc : idle.pc = .idling tag)
    (awaits : Awaits m idle.tags .idle tag true false) (legible : Legible (.idle idle) line) :
    LawfulIdle (m.read line) (ImapIdle.idleLine idle tag line) := by
  have stay {response : IdleResponse} (events : List ImapIdle.Event)
      (unheard : events.filterMap heard = [])
      (h : classifyIdleResponse line (formatTag tag) = .ok response)
      (other : response ≠ .completed) : LawfulIdle (m.read line) (idle, events) := by
    have next := awaits.other (untagged_of_classify h other)
    refine lawful_pc unheard (by rw [pc]; rfl) ?_
    rw [pc]
    exact .idling (by simpa using next)
  rw [ImapIdle.idleLine]
  split
  · exact lawful_finish _
  · rename_i completed
    have waits : awaited (.idle idle) = some tag := by rw [awaited, pc]
    exact follows_issue (ready_of_completed awaits legible waits completed)
  · rename_i change
    exact stay [.queued] rfl change (by simp)
  · rename_i quiet
    exact stay [] rfl quiet (by simp)

theorem lawful_waitIdleCompletion {stopping queued : Bool}
    (pc : idle.pc = .completion tag stopping queued)
    (awaits : Awaits m idle.tags .idle tag true true) (legible : Legible (.idle idle) line) :
    LawfulIdle (m.read line) (ImapIdle.waitIdleCompletion idle tag stopping queued line) := by
  have kept {response : IdleResponse}
      (h : classifyIdleResponse line (formatTag tag) = .ok response)
      (other : response ≠ .completed) : Awaits (m.read line) idle.tags .idle tag true true := by
    simpa using awaits.other (untagged_of_classify h other)
  rw [ImapIdle.waitIdleCompletion]
  split
  · exact lawful_fail _ _
  · rename_i completed
    cases stopping with
    | true => exact lawful_finish _
    | false =>
      have waits : awaited (.idle idle) = some tag := by rw [awaited, pc]
      exact follows_issue (ready_of_completed awaits legible waits completed)
  · rename_i change
    split
    · refine lawful_pc rfl (by rw [pc]; rfl) ?_
      rw [pc]
      exact .completion stopping queued (kept change (by simp))
    · exact lawful_pc rfl rfl (.completion stopping true (kept change (by simp)))
  · rename_i quiet
    refine lawful_pc rfl (by rw [pc]; rfl) ?_
    rw [pc]
    exact .completion stopping queued (kept quiet (by simp))

/-- A failed read, a failed write and a timeout end the cycle wherever they come. -/
theorem lawful_readFailed {error : ImapError}
    (h : ImapIdle.step idle (.readFailed error) = some next) : LawfulIdle m next := by
  simp only [ImapIdle.step] at h
  split at h <;> cases h <;> exact lawful_fail _ _

theorem lawful_writeFailed {error : ImapError}
    (h : ImapIdle.step idle (.wrote (.error error)) = some next) : LawfulIdle m next := by
  cases hpc : idle.pc <;> simp only [ImapIdle.step, hpc] at h <;> cases h <;> exact lawful_fail _ _

theorem lawful_timedOut (h : ImapIdle.step idle .timedOut = some next) : LawfulIdle m next := by
  simp only [ImapIdle.step] at h
  split at h <;> cases h <;> exact lawful_fail _ _

/-- Every step of the IDLE cycle writes only what is legal. -/
theorem lawful_idle {label : ImapIdle.Label} (follows : FollowsIdle m idle.tags idle.pc)
    (legible : ∀ line, label = .line line → Legible (.idle idle) line)
    (h : ImapIdle.step idle label = some next) : LawfulIdle m next := by
  generalize hpc : idle.pc = pc at follows
  cases label with
  | readFailed error => exact lawful_readFailed h
  | timedOut => exact lawful_timedOut h
  | wrote result =>
    cases result with
    | error error => exact lawful_writeFailed h
    | ok _ =>
      cases follows with
      | sendingIdle awaits =>
        simp only [ImapIdle.step, hpc] at h
        cases h
        exact lawful_pc rfl rfl (.continuation awaits)
      | sendingDone stopping awaits =>
        simp only [ImapIdle.step, hpc] at h
        cases h
        exact lawful_pc rfl rfl (.completion stopping false awaits)
      | continuation | idling | completion | ended => simp [ImapIdle.step, hpc] at h
  | line line =>
    cases follows with
    | continuation awaits =>
      simp only [ImapIdle.step, hpc] at h
      cases h
      exact lawful_line [] rfl (lawful_waitIdleContinuation hpc awaits (legible line rfl))
    | idling awaits =>
      simp only [ImapIdle.step, hpc] at h
      cases h
      exact lawful_line [.entered .idleLine] rfl (lawful_idleLine hpc awaits (legible line rfl))
    | completion stopping queued awaits =>
      simp only [ImapIdle.step, hpc] at h
      cases h
      exact lawful_line [] rfl (lawful_waitIdleCompletion hpc awaits (legible line rfl))
    | sendingIdle | sendingDone | ended => simp [ImapIdle.step, hpc] at h
  | refresh =>
    cases follows with
    | idling awaits =>
      simp only [ImapIdle.step, hpc] at h
      cases h
      obtain ⟨legal, next⟩ := awaits.finish
      exact ⟨⟨legal, trivial⟩, .sendingDone false next⟩
    | sendingIdle | continuation | sendingDone | completion | ended =>
      simp [ImapIdle.step, hpc] at h
  | shutdownChanged stop =>
    cases follows with
    | idling awaits =>
      simp only [ImapIdle.step, hpc] at h
      cases h
      cases stop with
      | true =>
        obtain ⟨legal, next⟩ := awaits.finish
        exact ⟨⟨legal, trivial⟩, .sendingDone true next⟩
      | false =>
        refine lawful_pc rfl (by simp [hpc, begun]) ?_
        simp only [Bool.false_eq_true, if_false, hpc]
        exact .idling awaits
    | sendingIdle | continuation | sendingDone | completion | ended =>
      simp [ImapIdle.step, hpc] at h

end Idle

/-- Where authentication begins, the greeting was accepted and its status decides. -/
theorem ready_of_greeting {greeting : Line} (greeted' : m = Monitor.start.read greeting)
    (ok : greetsOk greeting = true) : Ready m tags .authenticate := by
  subst greeted'
  refine ⟨by simp [Monitor.read, Monitor.start, greeted, ok, Kind.level], rfl, ?_⟩
  intro u hu
  cases hu

theorem lawful_step {label : Label} (follows : Follows m s.tags s.pc)
    (proceeds : Proceeds session s label) {next : State × List Event}
    (h : step session s label = some next) : Lawful m next := by
  generalize hpc : s.pc = pc at follows
  cases label with
  | line line =>
    cases follows with
    | greeting start =>
      simp only [step, hpc] at h
      cases h
      exact lawful_hear (lawful_readGreeting start)
    | authenticating awaits =>
      simp only [step, hpc] at h
      cases h
      exact lawful_hear (lawful_authenticating hpc awaits (hpc ▸ proceeds))
    | examining awaits =>
      simp only [step, hpc] at h
      cases h
      exact lawful_hear (lawful_examining hpc awaits (hpc ▸ proceeds))
    | credentials | sendingAuth | sendingExamine | idle | ended | dropped =>
      simp [step, hpc] at h
  | readFailed error =>
    cases follows with
    | greeting | authenticating | examining =>
      simp only [step, hpc] at h
      cases h
      exact lawful_silent (.ended _)
    | credentials | sendingAuth | sendingExamine | idle | ended | dropped =>
      simp [step, hpc] at h
  | timedOut =>
    obtain ⟨name, -, rfl⟩ := Option.map_eq_some_iff.mp h
    exact lawful_silent (.ended _)
  | wrote result =>
    cases follows with
    | sendingAuth now awaits =>
      cases result with
      | ok _ =>
        simp only [step, hpc] at h
        cases h
        exact lawful_silent (.authenticating awaits)
      | error error =>
        simp only [step, hpc] at h
        cases h
        exact lawful_silent (.ended _)
    | sendingExamine awaits =>
      cases result with
      | ok _ =>
        simp only [step, hpc] at h
        cases h
        exact lawful_silent (.examining awaits)
      | error error =>
        simp only [step, hpc] at h
        cases h
        exact lawful_silent (.ended _)
    | greeting | credentials | authenticating | examining | idle | ended | dropped =>
      simp [step, hpc] at h
  | credentials result =>
    cases follows with
    | credentials greeting greeted =>
      cases result with
      | ok credentials =>
        simp only [step, hpc] at h
        cases h
        refine lawful_authenticate ?_
        intro sends
        exact ready_of_greeting greeted (proceeds greeting (by rw [hpc]; rfl) sends)
      | error source =>
        simp only [step, hpc] at h
        cases h
        exact lawful_silent (.ended _)
    | greeting | sendingAuth | authenticating | sendingExamine | examining | idle | ended
    | dropped => simp [step, hpc] at h
  | idle label =>
    cases follows with
    | @idle idle follows =>
      simp only [step, hpc, idleStep] at h
      obtain ⟨after, ha, rfl⟩ := Option.map_eq_some_iff.mp h
      have legible : ∀ line, label = .line line → Legible (.idle idle) line := by
        rintro line rfl
        exact hpc ▸ proceeds
      obtain ⟨legal, next⟩ := lawful_idle follows legible ha
      exact ⟨legal, .idle next⟩
    | greeting | credentials | sendingAuth | authenticating | sendingExamine | examining | ended
    | dropped => simp [step, hpc] at h
  | drop =>
    cases h
    exact lawful_silent .dropped

end Monitoring

theorem follows_start (session : Session) :
    Follows .start (State.start session).tags (State.start session).pc := by
  rw [State.start]
  split
  · split
    · exact .greeting rfl
    · exact .ended _
  · exact .ended _

end ImapConformance

import Mailwake.ImapIdle

/-!
# One IMAP session from its greeting on

`run_mailbox_once` once the connection stands: greeting, credentials, authentication,
EXAMINE and the IDLE cycle, line by line. A write is recorded where it begins, so a
command that is cut short counts as written; nothing is read while a write goes on.
-/
namespace ImapSession
open ImapLine Transition

structure Session where
  username : Line
  mailbox : Line
  /-- Base64 of the standard alphabet. -/
  encode : Line → Line
  notifyOnConnect : Bool
  initialReady : Bool

inductive Credentials where
  | xoauth2 (token : Line)
  | password (password : Line)

inductive SessionError where
  | imap (error : ImapError)
  | auth (source : String)
  | authRejected
  | unsafeImapString (field : String)

def SessionError.isPermanentAuthFailure : SessionError → Bool
  | .auth _ => true
  | .authRejected => true
  | _ => false

/-- `validate_imap_string` finds neither of the two line end characters. -/
def validImapString (value : Line) : Bool := value.all fun c => !(c = '\r' || c = '\n')

def quoteImap (value : Line) : Line :=
  ['\x22'] ++ value.flatMap (fun c => if c = '\\' ∨ c = '\x22' then ['\\', c] else [c]) ++ ['\x22']

def xoauth2Response (session : Session) (token : Line) : Line :=
  session.encode
    ("user=".toList ++ session.username ++ ['\x01'] ++ "auth=Bearer ".toList ++ token ++
      ['\x01', '\x01'])

inductive Command where
  | authenticate (tag : Line)
  | login (tag username password : Line)
  | examine (tag mailbox : Line)
  | idle (tag : Line)
  | done
  /-- The answer to a continuation of AUTHENTICATE. -/
  | response (text : Line)
  deriving DecidableEq

/-- What is written for a command. -/
def Command.text : Command → Line
  | .authenticate tag => tag ++ " AUTHENTICATE XOAUTH2\r\n".toList
  | .login tag username password =>
    tag ++ " LOGIN ".toList ++ quoteImap username ++ [' '] ++ quoteImap password ++ "\r\n".toList
  | .examine tag mailbox => tag ++ " EXAMINE ".toList ++ quoteImap mailbox ++ "\r\n".toList
  | .idle tag => tag ++ " IDLE\r\n".toList
  | .done => "DONE\r\n".toList
  | .response text => text ++ "\r\n".toList

/-- The two loops of `authenticate_xoauth2`, and the wait of LOGIN. -/
inductive Authenticating where
  | continuation (response : Line)
  | completion
  | login
  deriving DecidableEq

inductive Pc where
  | greeting
  /-- The greeting was accepted and the credentials are being fetched. -/
  | credentials (greeting : Line)
  | sendingAuth (tag : Nat) (next : Authenticating)
  | authenticating (tag : Nat) (now : Authenticating)
  | sendingExamine (tag : Nat)
  | examining (tag : Nat)
  | idle (idle : ImapIdle.State)
  | ended (error : SessionError)
  /-- The session was dropped by a resume. -/
  | dropped

structure State where
  /-- The counter of `Tags`; IDLE keeps its own copy of it. -/
  tags : Nat
  pc : Pc

inductive Label where
  | line (line : Line)
  | readFailed (error : ImapError)
  | timedOut
  | wrote (result : Except ImapError Unit)
  | credentials (result : Except String Credentials)
  | idle (label : ImapIdle.Label)
  | drop

inductive Event where
  | read (line : Line)
  | wrote (command : Command)
  deriving DecidableEq

/-- Both names are validated before anything is sent. -/
def State.start (session : Session) : State :=
  if validImapString session.username then
    if validImapString session.mailbox then ⟨0, .greeting⟩
    else ⟨0, .ended (.unsafeImapString "mailbox name")⟩
  else ⟨0, .ended (.unsafeImapString "username")⟩

def State.goto (s : State) (pc : Pc) (es : List Event) : State × List Event :=
  ({ s with pc := pc }, es)

def okGreeting (line : Line) : Bool := startsWith (toAsciiUppercase line) "* OK".toList

def preauthGreeting (line : Line) : Bool := startsWith (toAsciiUppercase line) "* PREAUTH".toList

def readGreeting (s : State) (line : Line) : State × List Event :=
  if okGreeting line then s.goto (.credentials line) []
  else if preauthGreeting line then s.goto (.credentials line) []
  else s.goto (.ended (.imap (.protocol "reading server greeting"))) []

/-- The next tag is used up by the command that is sent. -/
def State.send (s : State) (pc : Nat → Pc) (command : Line → Command) : State × List Event :=
  ({ s with tags := s.tags + 1, pc := pc (s.tags + 1) },
    [.wrote (command (formatTag (s.tags + 1)))])

def authenticate (session : Session) (s : State) : Credentials → State × List Event
  | .xoauth2 token =>
    s.send (fun tag => .sendingAuth tag (.continuation (xoauth2Response session token)))
      .authenticate
  | .password password =>
    if validImapString session.username then
      if validImapString password then
        s.send (fun tag => .sendingAuth tag .login) fun tag => .login tag session.username password
      else s.goto (.ended (.unsafeImapString "password")) []
    else s.goto (.ended (.unsafeImapString "username")) []

def examineMailbox (session : Session) (s : State) : State × List Event :=
  if validImapString session.mailbox then
    s.send .sendingExamine fun tag => .examine tag session.mailbox
  else s.goto (.ended (.unsafeImapString "mailbox name")) []

/-- The first IDLE command of `idle_forever`. -/
def idleForever (session : Session) (s : State) : State × List Event :=
  s.goto (.idle (.start s.tags session.notifyOnConnect session.initialReady))
    [.wrote (.idle (formatTag (s.tags + 1)))]

/-- A line during authentication. -/
def authenticating (session : Session) (s : State) (tag : Nat) (line : Line) :
    Authenticating → State × List Event
  | .continuation response =>
    if startsWith line ['+'] then s.goto (.sendingAuth tag .completion) [.wrote (.response response)]
    else if isTaggedCompletion line (formatTag tag) then s.goto (.ended .authRejected) []
    else (s, [])
  | .completion =>
    if startsWith line ['+'] then s.goto (.sendingAuth tag .completion) [.wrote (.response [])]
    else if isTaggedOk line (formatTag tag) then examineMailbox session s
    else if isTaggedCompletion line (formatTag tag) then s.goto (.ended .authRejected) []
    else (s, [])
  | .login =>
    if isTaggedOk line (formatTag tag) then examineMailbox session s
    else if isTaggedCompletion line (formatTag tag) then s.goto (.ended .authRejected) []
    else (s, [])

def examining (session : Session) (s : State) (tag : Nat) (line : Line) : State × List Event :=
  if isTaggedOk line (formatTag tag) then idleForever session s
  else if isTaggedCompletion line (formatTag tag) then
    s.goto (.ended (.imap (.commandRejected "EXAMINE"))) []
  else (s, [])

/-- What the IDLE cycle begins to write on entering a state. -/
def begun : ImapIdle.Pc → List Event
  | .sendingIdle tag => [.wrote (.idle (formatTag tag))]
  | .sendingDone _ _ => [.wrote .done]
  | _ => []

def heard : ImapIdle.Event → Option Event
  | .read line => some (.read line)
  | _ => none

def idleStep (s : State) (idle : ImapIdle.State) (label : ImapIdle.Label) :
    Option (State × List Event) :=
  (ImapIdle.step idle label).map fun next =>
    s.goto (.idle next.1) (next.2.filterMap heard ++ begun next.1.pc)

def operation : Pc → Option String
  | .greeting => some "IMAP greeting"
  | .sendingAuth _ _ => some "IMAP authentication"
  | .authenticating _ _ => some "IMAP authentication"
  | .sendingExamine _ => some "EXAMINE"
  | .examining _ => some "EXAMINE"
  | _ => none

def hear (line : Line) (next : State × List Event) : State × List Event :=
  (next.1, .read line :: next.2)

def step (session : Session) (s : State) : Label → Option (State × List Event)
  | .line line =>
    match s.pc with
    | .greeting => some (hear line (readGreeting s line))
    | .authenticating tag now => some (hear line (authenticating session s tag line now))
    | .examining tag => some (hear line (examining session s tag line))
    | _ => none
  | .readFailed error =>
    match s.pc with
    | .greeting | .authenticating _ _ | .examining _ => some (s.goto (.ended (.imap error)) [])
    | _ => none
  | .timedOut =>
    (operation s.pc).map fun name => s.goto (.ended (.imap (.operationTimedOut name))) []
  | .wrote result =>
    match s.pc, result with
    | .sendingAuth tag next, .ok () => some (s.goto (.authenticating tag next) [])
    | .sendingExamine tag, .ok () => some (s.goto (.examining tag) [])
    | .sendingAuth _ _, .error error => some (s.goto (.ended (.imap error)) [])
    | .sendingExamine _, .error error => some (s.goto (.ended (.imap error)) [])
    | _, _ => none
  | .credentials result =>
    match s.pc, result with
    | .credentials _, .ok credentials => some (authenticate session s credentials)
    | .credentials _, .error source => some (s.goto (.ended (.auth source)) [])
    | _, _ => none
  | .idle label =>
    match s.pc with
    | .idle idle => idleStep s idle label
    | _ => none
  | .drop => some (s.goto .dropped [])

/-- The steps of a session, branch by branch. -/
inductive Turn (session : Session) (s : State) : Label → State × List Event → Prop where
  | greeted (line : Line) : s.pc = .greeting →
      Turn session s (.line line) (hear line (readGreeting s line))
  | answered (line : Line) (tag : Nat) (now : Authenticating) : s.pc = .authenticating tag now →
      Turn session s (.line line) (hear line (authenticating session s tag line now))
  | examined (line : Line) (tag : Nat) : s.pc = .examining tag →
      Turn session s (.line line) (hear line (examining session s tag line))
  | unread (error : ImapError) : s.pc = .greeting ∨ (∃ tag now, s.pc = .authenticating tag now) ∨
      (∃ tag, s.pc = .examining tag) →
      Turn session s (.readFailed error) (s.goto (.ended (.imap error)) [])
  | timedOut (name : String) : operation s.pc = some name →
      Turn session s .timedOut (s.goto (.ended (.imap (.operationTimedOut name))) [])
  | sentAuth (tag : Nat) (next : Authenticating) : s.pc = .sendingAuth tag next →
      Turn session s (.wrote (.ok ())) (s.goto (.authenticating tag next) [])
  | sentExamine (tag : Nat) : s.pc = .sendingExamine tag →
      Turn session s (.wrote (.ok ())) (s.goto (.examining tag) [])
  | unsent (error : ImapError) :
      (∃ tag next, s.pc = .sendingAuth tag next) ∨ (∃ tag, s.pc = .sendingExamine tag) →
      Turn session s (.wrote (.error error)) (s.goto (.ended (.imap error)) [])
  | provided (greeting : Line) (credentials : Credentials) : s.pc = .credentials greeting →
      Turn session s (.credentials (.ok credentials)) (authenticate session s credentials)
  | unprovided (greeting : Line) (source : String) : s.pc = .credentials greeting →
      Turn session s (.credentials (.error source)) (s.goto (.ended (.auth source)) [])
  | idled (idle : ImapIdle.State) (label : ImapIdle.Label) (next : State × List Event) :
      s.pc = .idle idle → idleStep s idle label = some next → Turn session s (.idle label) next
  | dropped : Turn session s .drop (s.goto .dropped [])

theorem turn_of_step {session : Session} {s : State} {label : Label} {next : State × List Event}
    (h : step session s label = some next) : Turn session s label next := by
  cases label with
  | line line =>
    simp only [step] at h
    split at h
    · rename_i pc
      cases h
      exact .greeted line pc
    · rename_i tag now pc
      cases h
      exact .answered line tag now pc
    · rename_i tag pc
      cases h
      exact .examined line tag pc
    · cases h
  | readFailed error =>
    simp only [step] at h
    split at h
    · rename_i pc
      cases h
      exact .unread error (Or.inl pc)
    · rename_i tag now pc
      cases h
      exact .unread error (Or.inr (Or.inl ⟨tag, now, pc⟩))
    · rename_i tag pc
      cases h
      exact .unread error (Or.inr (Or.inr ⟨tag, pc⟩))
    · cases h
  | timedOut =>
    obtain ⟨name, named, rfl⟩ := Option.map_eq_some_iff.mp h
    exact .timedOut name named
  | wrote result =>
    simp only [step] at h
    split at h
    · rename_i tag next pc
      cases h
      exact .sentAuth tag next pc
    · rename_i tag pc
      cases h
      exact .sentExamine tag pc
    · rename_i tag next error pc
      cases h
      exact .unsent error (Or.inl ⟨tag, next, pc⟩)
    · rename_i tag error pc
      cases h
      exact .unsent error (Or.inr ⟨tag, pc⟩)
    · cases h
  | credentials result =>
    simp only [step] at h
    split at h
    · rename_i greeting credentials pc
      cases h
      exact .provided greeting credentials pc
    · rename_i greeting source pc
      cases h
      exact .unprovided greeting source pc
    · cases h
  | idle label =>
    simp only [step] at h
    split at h
    · rename_i idle pc
      exact .idled idle label next pc h
    · cases h
  | drop =>
    cases h
    exact .dropped

end ImapSession

import Mailwake.ImapSession
import Mailwake.ImapWire

/-!
# The bytes under a whole session

The stream of chunks under every phase, from the greeting on. Every wait of the session reads
with its own `read_line`, which takes a limited number of bytes; the select of IDLE reads with
the reader's, which takes whatever has arrived.
-/
namespace SessionWire
open ImapLine Transition Framing
open ImapSession (Session Credentials SessionError Event)
open ImapWire (Reader maxResponseLineBytes isLf window exhausted pollRead readLine readLine_ok
  decodeLine)

/-- The read in progress at a program point. -/
def reader : ImapSession.Pc → Option Reader
  | .greeting => some .limited
  | .authenticating _ _ => some .limited
  | .examining _ => some .limited
  | .idle idle => ImapWire.reader idle.pc
  | _ => none

structure State where
  session : ImapSession.State
  closed : Bool
  /-- Received bytes that no read has taken. -/
  buffer : List UInt8
  /-- What the read in progress has taken. -/
  taken : List UInt8
  /-- The bytes of every line that was accepted. -/
  examined : List (List UInt8)

inductive Label where
  | chunk (bytes : List UInt8)
  | close
  | poll
  | ioFailed (source : String)
  | wrote (result : Except ImapError Unit)
  | timedOut
  | credentials (result : Except String Credentials)
  | refresh
  | shutdownChanged (stop : Bool)
  | drop

def State.start (session : Session) : State := ⟨.start session, false, [], [], []⟩

/-- What happens to a session in its IDLE cycle happens to that cycle. -/
def addressed (pc : ImapSession.Pc) (inside : ImapIdle.Label) (outside : ImapSession.Label) :
    ImapSession.Label :=
  match pc with
  | .idle _ => .idle inside
  | _ => outside

def readFailed (pc : ImapSession.Pc) (error : ImapError) : ImapSession.Label :=
  addressed pc (.readFailed error) (.readFailed error)

def lineRead (pc : ImapSession.Pc) (line : Line) : ImapSession.Label :=
  addressed pc (.line line) (.line line)

def advance (session : Session) (w : State) (label : ImapSession.Label) :
    Option (State × List Event) :=
  (ImapSession.step session w.session label).map fun next =>
    ({ w with session := next.1 }, next.2)

def poll (session : Session) (w : State) (reader : Reader) : Option (State × List Event) :=
  let polled := pollRead reader w.closed w.taken w.buffer
  if polled.ready then
    match readLine reader polled.line with
    | .ok line =>
      advance session
        { w with buffer := polled.rest, taken := [], examined := w.examined ++ [polled.line] }
        (lineRead w.session.pc line)
    | .error error =>
      advance session { w with buffer := polled.rest, taken := polled.line }
        (readFailed w.session.pc error)
  else some ({ w with buffer := polled.rest, taken := polled.line }, [])

def step (session : Session) (w : State) : Label → Option (State × List Event)
  | .chunk bytes => if w.closed then none else some ({ w with buffer := w.buffer ++ bytes }, [])
  | .close => some ({ w with closed := true }, [])
  | .poll => (reader w.session.pc).bind (poll session w)
  | .ioFailed source => advance session w (readFailed w.session.pc (.io source))
  | .wrote result =>
    advance session w (addressed w.session.pc (.wrote result) (.wrote result))
  | .timedOut => advance session w (addressed w.session.pc .timedOut .timedOut)
  | .credentials result => advance session w (.credentials result)
  -- the other branch of the select wins: its read is dropped
  | .refresh => advance session { w with taken := [] } (.idle .refresh)
  | .shutdownChanged stop => advance session { w with taken := [] } (.idle (.shutdownChanged stop))
  | .drop => advance session w .drop

/-- The line being read, as far as it has arrived. -/
def ahead (taken buffer : List UInt8) : List UInt8 :=
  match cut isLf buffer with
  | some (piece, _) => taken ++ piece
  | none => taken ++ buffer

/-- Nothing more can belong to the line being read. -/
def finished (closed : Bool) (buffer : List UInt8) : Bool := (cut isLf buffer).isSome || closed

/-- How a session has ended. -/
def outcome : ImapSession.Pc → Option (Except SessionError ImapIdle.RunEnd)
  | .ended error => some (.error error)
  | .idle idle =>
    match idle.pc with
    | .ended (.ok done) => some (.ok done)
    | .ended (.error error) => some (.error (.imap error))
    | _ => none
  | _ => none

/-- The session waits for the answer to the DONE of a shutdown. -/
def stopping : ImapSession.Pc → Bool
  | .idle idle =>
    match idle.pc with
    | .completion _ stopping _ => stopping
    | _ => false
  | _ => false

/-- The session ends with an error; after the DONE of a shutdown the error ends it as shut down. -/
def Ends (pc next : ImapSession.Pc) : Prop :=
  if stopping pc then outcome next = some (.ok .shutdown)
  else ∃ error, outcome next = some (.error error)

structure Bounded (w : State) : Prop where
  unfinished : w.taken.length ≤ maxResponseLineBytes + 1
  accepted : ∀ line ∈ w.examined, line.length ≤ maxResponseLineBytes

/-- What the next poll makes of the line being read. -/
structure Judged (w v : State) : Prop where
  bounded : Bounded v
  tooLong : maxResponseLineBytes < (ahead w.taken w.buffer).length →
    Ends w.session.pc v.session.pc
  withinLimit : (ahead w.taken w.buffer).length ≤ maxResponseLineBytes →
    (cut isLf w.buffer).isSome = true → (decodeLine (ahead w.taken w.buffer)).isSome = true →
    v.examined = w.examined ++ [ahead w.taken w.buffer]

/-- The bounds stand, and wherever a read is in progress its next poll respects them. -/
structure Guarded (session : Session) (w : State) : Prop where
  bounded : Bounded w
  next : (reader w.session.pc).isSome = true →
    ∃ v es, step session w .poll = some (v, es) ∧ Judged w v

/-- The select of IDLE is not reading a line over the limit, or only one that is a single byte
over it and is refused for its encoding. -/
def Within (w : State) : Prop :=
  reader w.session.pc = some .unlimited →
    (ahead w.taken w.buffer).length ≤ maxResponseLineBytes ∨
      (ahead w.taken w.buffer).length = maxResponseLineBytes + 1 ∧
        finished w.closed w.buffer = true ∧ decodeLine (ahead w.taken w.buffer) = none

section Read
variable {taken buffer : List UInt8} {closed : Bool} {reads : Reader}

theorem pollRead_unlimited (closed : Bool) (taken buffer : List UInt8) :
    (pollRead .unlimited closed taken buffer).line = ahead taken buffer ∧
      (pollRead .unlimited closed taken buffer).ready = finished closed buffer := by
  simp only [pollRead, window, ahead, finished]
  cases cut isLf buffer with
  | some next => exact ⟨rfl, rfl⟩
  | none => exact ⟨rfl, by simp [exhausted]⟩

/-- A limited read never holds more than one byte over the limit. -/
theorem pollRead_limited_le (h : taken.length ≤ maxResponseLineBytes + 1) :
    (pollRead .limited closed taken buffer).line.length ≤ maxResponseLineBytes + 1 := by
  have seen : (window .limited taken buffer).length ≤ maxResponseLineBytes + 1 - taken.length :=
    List.length_take_le ..
  simp only [pollRead]
  cases hc : cut isLf (window .limited taken buffer) with
  | some next =>
    obtain ⟨piece, rest⟩ := next
    obtain ⟨whole, -⟩ := cut_eq_some hc
    rw [whole, List.length_append] at seen
    rw [List.length_append]
    omega
  | none =>
    rw [List.length_append]
    omega

/-- A limited read that has a line over the limit before it comes to its end. -/
theorem pollRead_limited_tooLong (closed : Bool)
    (h : maxResponseLineBytes < (ahead taken buffer).length) :
    (pollRead .limited closed taken buffer).ready = true ∧
      exhausted .limited (pollRead .limited closed taken buffer).line = true := by
  obtain ⟨rest, hw⟩ := ImapWire.window_prefix .limited taken buffer
  simp only [pollRead]
  cases hc : cut isLf (window .limited taken buffer) with
  | some next =>
    obtain ⟨piece, after⟩ := next
    have whole := cut_append hc rest
    rw [← hw] at whole
    simp only [ahead, whole] at h
    exact ⟨rfl, by simpa [exhausted] using h⟩
  | none =>
    have long : maxResponseLineBytes < (taken ++ window .limited taken buffer).length := by
      by_cases all : buffer.length ≤ maxResponseLineBytes + 1 - taken.length
      · have same : window .limited taken buffer = buffer := List.take_of_length_le all
        rw [same] at hc ⊢
        simpa only [ahead, hc] using h
      · have full : (window .limited taken buffer).length
            = maxResponseLineBytes + 1 - taken.length := by
          rw [window, List.length_take]
          omega
        rw [List.length_append, full]
        omega
    have tooMuch : exhausted .limited (taken ++ window .limited taken buffer) = true := by
      simpa [exhausted] using long
    exact ⟨by rw [tooMuch, Bool.true_or], tooMuch⟩

/-- Both reads take a complete line of at most the limit whole. -/
theorem pollRead_withinLimit (reads : Reader) (closed : Bool)
    (h : (ahead taken buffer).length ≤ maxResponseLineBytes)
    (complete : (cut isLf buffer).isSome = true) :
    (pollRead reads closed taken buffer).ready = true ∧
      (pollRead reads closed taken buffer).line = ahead taken buffer := by
  obtain ⟨⟨piece, rest⟩, hc⟩ := Option.isSome_iff_exists.mp complete
  simp only [ahead, hc, List.length_append] at h ⊢
  have seen : ∃ after, cut isLf (window reads taken buffer) = some (piece, after) := by
    cases reads with
    | unlimited => exact ⟨rest, hc⟩
    | limited =>
      apply cut_take hc
      omega
  obtain ⟨after, hs⟩ := seen
  simp only [pollRead, hs, and_self]

theorem readLine_undecoded {line : List UInt8} (h : decodeLine line = none) (text : Line) :
    readLine reads line ≠ .ok text := by
  intro read
  obtain ⟨-, -, decoded⟩ := readLine_ok read
  rw [h] at decoded
  cases decoded

theorem readLine_exhausted {line : List UInt8} (h : exhausted reads line = true) (text : Line) :
    readLine reads line ≠ .ok text := by
  intro read
  obtain ⟨-, within, -⟩ := readLine_ok read
  rw [h] at within
  cases within

theorem readLine_decoded {line : List UInt8} {text : Line} (nonempty : line ≠ [])
    (within : exhausted reads line = false) (h : decodeLine line = some text) :
    readLine reads line = .ok text := by
  obtain ⟨decoded, hd, rfl⟩ := Option.map_eq_some_iff.mp h
  simp only [readLine, hd]
  rw [if_neg (by simpa using nonempty), if_neg (by rw [within]; exact Bool.false_ne_true)]

end Read

/-- The session hears of its IDLE cycle the lines that the cycle looks at. -/
theorem filterMap_heard (es : List ImapIdle.Event) :
    es.filterMap ImapSession.heard = (es.filterMap ImapWire.examinedLine).map .read := by
  rw [List.map_filterMap]
  refine congrArg (List.filterMap · es) (funext fun e => ?_)
  cases e <;> rfl

section Session
variable {s : ImapSession.State} {idle : ImapIdle.State} {reads : Reader}

theorem idle_readFailed (reading : ImapWire.reader idle.pc = some reads) (error : ImapError) :
    ImapIdle.step idle (.readFailed error)
      = some (ImapIdle.fail idle (stopping (.idle idle)) error) := by
  cases hi : idle.pc with
  | continuation | idling | completion => simp only [ImapIdle.step, stopping, hi]
  | sendingIdle | sendingDone | ended =>
    rw [hi] at reading
    cases reading

theorem idle_line (reading : ImapWire.reader idle.pc = some reads) (line : Line) :
    ∃ next, ImapIdle.step idle (.line line) = some next := by
  cases hi : idle.pc with
  | continuation | idling | completion => simp [ImapIdle.step, hi]
  | sendingIdle | sendingDone | ended =>
    rw [hi] at reading
    cases reading

theorem ends_fail (error : ImapError) :
    Ends (.idle idle) (.idle (ImapIdle.fail idle (stopping (.idle idle)) error).1) := by
  rw [Ends]
  by_cases stops : stopping (.idle idle) = true
  · rw [if_pos stops, stops]
    rfl
  · rw [if_neg stops, Bool.not_eq_true _ |>.mp stops]
    exact ⟨_, rfl⟩

/-- Wherever a read is in progress, its failure ends the session. -/
theorem readFailed_ends (session : Session) (reading : reader s.pc = some reads)
    (error : ImapError) : ∃ next, ImapSession.step session s (readFailed s.pc error) = some next ∧
      Ends s.pc next.1.pc := by
  obtain ⟨tags, pc⟩ := s
  cases pc with
  | greeting => exact ⟨_, rfl, _, rfl⟩
  | authenticating tag now => exact ⟨_, rfl, _, rfl⟩
  | examining tag => exact ⟨_, rfl, _, rfl⟩
  | idle idle =>
    exact ⟨_, Option.map_eq_some_iff.mpr ⟨_, idle_readFailed reading error, rfl⟩, ends_fail error⟩
  | credentials | sendingAuth | sendingExamine | ended | dropped => cases reading

theorem lineRead_heard (session : Session) (reading : reader s.pc = some reads) (line : Line) :
    ∃ next, ImapSession.step session s (lineRead s.pc line) = some next := by
  obtain ⟨tags, pc⟩ := s
  cases pc with
  | greeting => exact ⟨_, rfl⟩
  | authenticating tag now => exact ⟨_, rfl⟩
  | examining tag => exact ⟨_, rfl⟩
  | idle idle =>
    obtain ⟨next, heard⟩ := idle_line reading line
    exact ⟨_, Option.map_eq_some_iff.mpr ⟨next, heard, rfl⟩⟩
  | credentials | sendingAuth | sendingExamine | ended | dropped => cases reading

end Session

section Poll
variable {session : Session} {w v : State} {reads : Reader} {es : List Event}

theorem advance_some {label : ImapSession.Label} (h : advance session w label = some (v, es)) :
    ∃ t, ImapSession.step session w.session label = some (t, es) ∧ v = { w with session := t } := by
  obtain ⟨⟨t, fs⟩, hs, he⟩ := Option.map_eq_some_iff.mp h
  obtain ⟨rfl, rfl⟩ := Prod.mk.inj he
  exact ⟨t, hs, rfl⟩

/-- A step of the bytes is a step of the session, or does not concern it. -/
theorem step_session {label : Label} (h : step session w label = some (v, es)) :
    v.session = w.session ∧ es = [] ∨
      ∃ move, ImapSession.step session w.session move = some (v.session, es) := by
  have moves : ∀ {u : State} {move : ImapSession.Label}, advance session u move = some (v, es) →
      u.session = w.session →
      ∃ move, ImapSession.step session w.session move = some (v.session, es) := by
    intro u move ha hu
    obtain ⟨t, hs, rfl⟩ := advance_some ha
    exact ⟨move, hu ▸ hs⟩
  cases label with
  | chunk bytes =>
    simp only [step] at h
    split at h
    · cases h
    · cases h
      exact Or.inl ⟨rfl, rfl⟩
  | close =>
    cases h
    exact Or.inl ⟨rfl, rfl⟩
  | poll =>
    obtain ⟨reads, -, hp⟩ := Option.bind_eq_some_iff.mp h
    simp only [poll] at hp
    split at hp
    · split at hp
      · exact Or.inr (moves hp rfl)
      · exact Or.inr (moves hp rfl)
    · cases hp
      exact Or.inl ⟨rfl, rfl⟩
  | ioFailed | wrote | timedOut | credentials | refresh | shutdownChanged | drop =>
    exact Or.inr (moves h rfl)

/-- Every run of the bytes is a run of the session with the same events. -/
theorem session_run {labels : List Label} {tr : List Event}
    (run : exec (step session) (State.start session) labels = some (w, tr)) :
    ∃ moves, exec (ImapSession.step session) (.start session) moves = some (w.session, tr) :=
  exec_component State.session (fun _ _ _ _ hs => (step_session hs).symm) run

/-- A poll goes on reading, accepts a line or ends the session. -/
inductive Polls (w : State) (reads : Reader) (v : State) : Prop where
  | pending : (pollRead reads w.closed w.taken w.buffer).ready = false →
      v.taken = (pollRead reads w.closed w.taken w.buffer).line → v.examined = w.examined →
      v.session = w.session → Polls w reads v
  | accepted (text : Line) : (pollRead reads w.closed w.taken w.buffer).ready = true →
      readLine reads (pollRead reads w.closed w.taken w.buffer).line = .ok text → v.taken = [] →
      v.examined = w.examined ++ [(pollRead reads w.closed w.taken w.buffer).line] →
      Polls w reads v
  | failed : (pollRead reads w.closed w.taken w.buffer).ready = true →
      (∀ text, readLine reads (pollRead reads w.closed w.taken w.buffer).line ≠ .ok text) →
      v.taken = (pollRead reads w.closed w.taken w.buffer).line → v.examined = w.examined →
      Ends w.session.pc v.session.pc → Polls w reads v

theorem polls_of_reader (session : Session) (reading : reader w.session.pc = some reads) :
    ∃ v es, step session w .poll = some (v, es) ∧ Polls w reads v := by
  simp only [step, reading, Option.bind_some, poll]
  cases ready : (pollRead reads w.closed w.taken w.buffer).ready with
  | false => exact ⟨_, _, rfl, .pending ready rfl rfl rfl⟩
  | true =>
    rw [if_pos rfl]
    cases read : readLine reads (pollRead reads w.closed w.taken w.buffer).line with
    | ok text =>
      obtain ⟨next, heard⟩ := lineRead_heard session reading text
      refine ⟨_, _, Option.map_eq_some_iff.mpr ⟨next, heard, rfl⟩, ?_⟩
      exact .accepted text ready read rfl rfl
    | error error =>
      obtain ⟨next, failed, ends⟩ := readFailed_ends session reading error
      refine ⟨_, _, Option.map_eq_some_iff.mpr ⟨next, failed, rfl⟩, ?_⟩
      refine .failed ready ?_ rfl rfl ends
      intro text ok
      rw [read] at ok
      cases ok

theorem polls_of_step (reading : reader w.session.pc = some reads)
    (h : step session w .poll = some (v, es)) : Polls w reads v := by
  obtain ⟨u, fs, hs, polls⟩ := polls_of_reader session reading
  obtain ⟨rfl, -⟩ := Prod.mk.inj (Option.some.inj (hs.symm.trans h))
  exact polls

/-- What a poll has taken afterwards, or has accepted, comes from this line. -/
theorem pollRead_le (old : Bounded w) (within : Within w)
    (reading : reader w.session.pc = some reads) :
    (pollRead reads w.closed w.taken w.buffer).line.length ≤ maxResponseLineBytes + 1 := by
  cases reads with
  | limited => exact pollRead_limited_le old.unfinished
  | unlimited =>
    rw [(pollRead_unlimited ..).1]
    rcases within reading with short | ⟨long, -, -⟩ <;> omega

theorem accepted_le (within : Within w) (reading : reader w.session.pc = some reads) {text : Line}
    (read : readLine reads (pollRead reads w.closed w.taken w.buffer).line = .ok text) :
    (pollRead reads w.closed w.taken w.buffer).line.length ≤ maxResponseLineBytes := by
  obtain ⟨-, whole, decoded⟩ := readLine_ok read
  cases reads with
  | limited => simpa [exhausted] using whole
  | unlimited =>
    rw [(pollRead_unlimited ..).1] at decoded ⊢
    rcases within reading with short | ⟨-, -, undecoded⟩
    · exact short
    · rw [undecoded] at decoded
      cases decoded

theorem bounded_polls (old : Bounded w) (within : Within w)
    (reading : reader w.session.pc = some reads) (polls : Polls w reads v) : Bounded v := by
  have line := pollRead_le old within reading
  cases polls with
  | pending _ taken examined _ => exact ⟨taken ▸ line, examined ▸ old.accepted⟩
  | accepted text _ read taken examined =>
    refine ⟨by simp [taken], ?_⟩
    intro l hl
    rw [examined] at hl
    rcases List.mem_append.mp hl with hl | hl
    · exact old.accepted l hl
    · rw [List.mem_singleton.mp hl]
      exact accepted_le within reading read
  | failed _ _ taken examined _ => exact ⟨taken ▸ line, examined ▸ old.accepted⟩

theorem bounded_advance {u : State} {label : ImapSession.Label} (bounded : Bounded u)
    (h : advance session u label = some (v, es)) : Bounded v := by
  obtain ⟨t, -, rfl⟩ := advance_some h
  exact ⟨bounded.unfinished, bounded.accepted⟩

theorem bounded_step {label : Label} (old : Bounded w) (within : Within w)
    (h : step session w label = some (v, es)) : Bounded v := by
  have dropped : Bounded { w with taken := [] } := ⟨Nat.zero_le _, old.accepted⟩
  cases label with
  | chunk bytes =>
    simp only [step] at h
    split at h
    · cases h
    · cases h
      exact ⟨old.unfinished, old.accepted⟩
  | close =>
    cases h
    exact ⟨old.unfinished, old.accepted⟩
  | poll =>
    obtain ⟨reads, reading, -⟩ := Option.bind_eq_some_iff.mp h
    exact bounded_polls old within reading (polls_of_step reading h)
  | ioFailed | wrote | timedOut | credentials | drop => exact bounded_advance old h
  | refresh | shutdownChanged => exact bounded_advance dropped h

theorem ends_of_refused (polls : Polls w reads v)
    (ready : (pollRead reads w.closed w.taken w.buffer).ready = true)
    (refused : ∀ text, readLine reads (pollRead reads w.closed w.taken w.buffer).line ≠ .ok text) :
    Ends w.session.pc v.session.pc := by
  cases polls with
  | pending waiting =>
    rw [ready] at waiting
    cases waiting
  | accepted text _ read => exact absurd read (refused text)
  | failed _ _ _ _ ends => exact ends

/-- A line over the limit is at the end of its read, and refused. -/
theorem tooLong_refused (within : Within w) (reading : reader w.session.pc = some reads)
    (long : maxResponseLineBytes < (ahead w.taken w.buffer).length) :
    (pollRead reads w.closed w.taken w.buffer).ready = true ∧
      ∀ text, readLine reads (pollRead reads w.closed w.taken w.buffer).line ≠ .ok text := by
  cases reads with
  | limited =>
    obtain ⟨ready, tooMuch⟩ := pollRead_limited_tooLong w.closed long
    exact ⟨ready, readLine_exhausted tooMuch⟩
  | unlimited =>
    obtain ⟨line, whole⟩ := pollRead_unlimited w.closed w.taken w.buffer
    rw [line, whole]
    rcases within reading with short | ⟨-, complete, undecoded⟩
    · omega
    · exact ⟨complete, readLine_undecoded undecoded⟩

theorem ahead_ne_nil {taken buffer : List UInt8} (complete : (cut isLf buffer).isSome = true) :
    ahead taken buffer ≠ [] := by
  obtain ⟨⟨piece, rest⟩, hc⟩ := Option.isSome_iff_exists.mp complete
  obtain ⟨-, whole⟩ := cut_eq_some hc
  simp only [ahead, hc]
  intro empty
  obtain ⟨-, rfl⟩ := List.append_eq_nil_iff.mp empty
  cases whole

theorem examined_of_withinLimit (polls : Polls w reads v)
    (short : (ahead w.taken w.buffer).length ≤ maxResponseLineBytes)
    (complete : (cut isLf w.buffer).isSome = true)
    (decoded : (decodeLine (ahead w.taken w.buffer)).isSome = true) :
    v.examined = w.examined ++ [ahead w.taken w.buffer] := by
  obtain ⟨text, hd⟩ := Option.isSome_iff_exists.mp decoded
  obtain ⟨ready, line⟩ := pollRead_withinLimit reads w.closed short complete
  have whole : exhausted reads (ahead w.taken w.buffer) = false := by
    simp only [exhausted, Bool.and_eq_false_iff, decide_eq_false_iff_not]
    right
    omega
  have read := readLine_decoded (ahead_ne_nil complete) whole hd
  cases polls with
  | pending waiting =>
    rw [ready] at waiting
    cases waiting
  | accepted text _ _ _ examined => rw [examined, line]
  | failed _ refused =>
    rw [line] at refused
    exact absurd read (refused text)

theorem judged_of_within (old : Bounded w) (within : Within w)
    (reading : reader w.session.pc = some reads) (polls : Polls w reads v) : Judged w v where
  bounded := bounded_polls old within reading polls
  tooLong long := by
    obtain ⟨ready, refused⟩ := tooLong_refused within reading long
    exact ends_of_refused polls ready refused
  withinLimit := examined_of_withinLimit polls

/-- A session that is reading has not ended. -/
theorem not_ends_of_reader (reading : reader w.session.pc = some reads) :
    ¬ Ends w.session.pc w.session.pc := by
  have running : outcome w.session.pc = none := by
    cases hp : w.session.pc with
    | greeting | authenticating | examining => rfl
    | idle idle =>
      rw [hp, reader] at reading
      cases hi : idle.pc with
      | continuation | idling | completion => simp only [outcome, hi]
      | sendingIdle | sendingDone | ended =>
        rw [hi] at reading
        cases reading
    | credentials | sendingAuth | sendingExamine | ended | dropped =>
      rw [hp] at reading
      cases reading
  rw [Ends, running]
  split <;> simp

/-- A select that reads a line over the limit either goes on, or accepts it, or has taken it. -/
theorem within_of_judged (polls : Polls w .unlimited v) (judged : Judged w v)
    (reading : reader w.session.pc = some .unlimited) : Within w := by
  intro _
  by_cases short : (ahead w.taken w.buffer).length ≤ maxResponseLineBytes
  · exact Or.inl short
  · right
    have ends := judged.tooLong (Nat.lt_of_not_le short)
    obtain ⟨line, whole⟩ := pollRead_unlimited w.closed w.taken w.buffer
    cases polls with
    | pending _ _ _ same =>
      rw [same] at ends
      exact absurd ends (not_ends_of_reader reading)
    | accepted text _ _ _ examined =>
      have within := judged.bounded.accepted (ahead w.taken w.buffer) (by simp [examined, line])
      exact absurd within short
    | failed ready refused taken _ _ =>
      rw [line] at refused taken
      rw [whole] at ready
      have le := judged.bounded.unfinished
      rw [taken] at le
      refine ⟨by omega, ready, ?_⟩
      cases hd : decodeLine (ahead w.taken w.buffer) with
      | none => rfl
      | some text =>
        have nonempty : ahead w.taken w.buffer ≠ [] := by
          intro empty
          exact short (by simp [empty])
        exact absurd (readLine_decoded nonempty rfl hd) (refused text)

theorem guarded_of_within (old : Bounded w) (within : Within w) : Guarded session w := by
  refine ⟨old, ?_⟩
  intro some
  obtain ⟨reads, reading⟩ := Option.isSome_iff_exists.mp some
  obtain ⟨v, es, hs, polls⟩ := polls_of_reader session reading
  exact ⟨v, es, hs, judged_of_within old within reading polls⟩

theorem within_of_guarded (guarded : Guarded session w) : Within w := by
  intro reading
  obtain ⟨v, es, hs, judged⟩ := guarded.next (by rw [reading]; rfl)
  exact within_of_judged (polls_of_step reading hs) judged reading reading

end Poll

theorem bounded_start (session : Session) : Bounded (State.start session) :=
  ⟨Nat.zero_le _, by simp [State.start]⟩

/-- A run is guarded all the way if and only if the select of IDLE is never reading a line
over the limit. -/
theorem bounded_iff_select_within_limit (session : Session) (labels : List Label) :
    Throughout (step session) (fun _ w => Guarded session w) (State.start session) labels ↔
      Throughout (step session) (fun _ w => Within w) (State.start session) labels := by
  constructor
  · intro guarded past rest w tr split run
    exact within_of_guarded (guarded past rest w tr split run)
  · intro within past rest w tr split run
    have meets : Meets (step session) (fun u _ => Within u) (State.start session) past := by
      apply meets_of_each run
      rintro before label after u es rfl hu
      exact within before (label :: after ++ rest) u es (by simp [split]) hu
    have bounded : Bounded w := exec_state_invariant_of_meets
      (fun _ _ _ _ old within hs => bounded_step old within hs) (bounded_start session) meets run
    exact guarded_of_within bounded (within past rest w tr split run)

/-- The select of IDLE takes everything that arrives without a line end. -/
theorem select_takes_all (session : Session) {w : State} {bytes : List UInt8}
    (reading : reader w.session.pc = some .unlimited) (running : w.closed = false)
    (fresh : w.taken = [] ∧ w.buffer = []) (unended : Open isLf bytes) :
    exec (step session) w [.chunk bytes, .poll] = some ({ w with taken := bytes }, []) := by
  obtain ⟨taken, buffer⟩ := fresh
  have arrived : step session w (.chunk bytes) = some ({ w with buffer := bytes }, []) := by
    simp [step, running, buffer]
  have polled : step session { w with buffer := bytes } .poll
      = some ({ w with taken := bytes }, []) := by
    simp [step, reading, poll, pollRead, window, cut_of_open unended, running, exhausted, taken,
      buffer]
  simp only [exec, arrived, polled, Option.bind_some, Option.map_some, List.append_nil]

private def idleSession : Session := ⟨"u".toList, "INBOX".toList, id, false, false⟩

private def upToIdle : List Label :=
  let chunk (s : String) : Label := .chunk s.toUTF8.data.toList
  [chunk "* OK\r\n", .poll, .credentials (.ok (.password "p".toList)), .wrote (.ok ()),
    chunk "A0001 OK\r\n", .poll, .wrote (.ok ()), chunk "A0002 OK\r\n", .poll, .wrote (.ok ()),
    chunk "+\r\n", .poll]

/-- One byte more than the reads of all other phases would take. -/
private def endless : List UInt8 := List.replicate 65538 120

theorem select_buffers_over_the_limit :
    ¬ Throughout (step idleSession) (fun _ w => Guarded idleSession w) (State.start idleSession)
      (upToIdle ++ [.chunk endless, .poll]) := by
  intro guarded
  have checked : (exec (step idleSession) (State.start idleSession) upToIdle).any (fun r =>
      decide (reader r.1.session.pc = some .unlimited ∧ r.1.closed = false ∧ r.1.taken = [] ∧
        r.1.buffer = [])) = true := by decide +kernel
  obtain ⟨⟨w, tr⟩, run, facts⟩ := (Option.any_eq_true ..).mp checked
  obtain ⟨reading, running, fresh⟩ := of_decide_eq_true facts
  have unended : Open isLf endless := by
    intro b hb
    rw [List.eq_of_mem_replicate hb]
    rfl
  have last := select_takes_all idleSession reading running fresh unended
  have whole := exec_append_some.mpr ⟨w, tr, [], run, last, rfl⟩
  have le : endless.length ≤ maxResponseLineBytes + 1 :=
    (guarded _ [] _ _ (List.append_nil _).symm whole).bounded.unfinished
  rw [endless, List.length_replicate] at le
  exact absurd le (by decide)

end SessionWire

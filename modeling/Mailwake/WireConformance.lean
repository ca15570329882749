import Mailwake.ImapConformance
import Mailwake.SessionWire

/-!
# The order of commands over the bytes of a session

The monitor of the command order is given the bytes that the reads of the session take from the
stream, and cuts them into lines itself. A line whose beginning the client has thrown away is still
one line to it.
-/
namespace WireConformance
open ImapLine Transition Framing
open ImapConformance (Monitor Legible Follows FollowsIdle greetingOf sendable greetsOk)
open ImapSession (Session Credentials Command Pc)
open ImapWire (Reader isLf pollRead readLine readLine_ok decodeLine)
open SessionWire (State Label reader lineRead filterMap_heard)

inductive Event where
  /-- Bytes that a read takes from the stream. -/
  | took (bytes : List UInt8)
  /-- A read comes to the end of the stream. -/
  | eof
  | wrote (command : Command)
  deriving DecidableEq

/-- A poll that finds the end of the stream where a line is unfinished. -/
def atEnd (w : State) (reads : Reader) : Bool :=
  let polled := pollRead reads w.closed w.taken w.buffer
  w.closed && polled.rest.isEmpty && (cut isLf polled.line).isNone

/-- What a poll takes goes on behind what the read has taken before. -/
def taking (w : State) (reads : Reader) : List Event :=
  .took ((pollRead reads w.closed w.taken w.buffer).line.drop w.taken.length) ::
    if atEnd w reads then [.eof] else []

def seen (w : State) : Label → List Event
  | .poll => (reader w.session.pc).elim [] (taking w)
  | _ => []

def written : ImapSession.Event → Option Event
  | .wrote command => some (.wrote command)
  | .read _ => none

/-- The steps of a session, with what passes over its connection. -/
def step (session : Session) (w : State) (label : Label) : Option (State × List Event) :=
  (SessionWire.step session w label).map fun next =>
    (next.1, seen w label ++ next.2.filterMap written)

structure Watcher where
  monitor : Monitor
  /-- The line that has begun. -/
  held : List UInt8

def Watcher.start : Watcher := ⟨.start, []⟩

/-- A line that can be decoded is read. -/
def hear (m : Monitor) (line : List UInt8) : Monitor := (decodeLine line).elim m m.read

def Watcher.take (v : Watcher) : List UInt8 → Watcher
  | [] => v
  | b :: rest =>
    if isLf b then Watcher.take ⟨hear v.monitor (v.held ++ [b]), []⟩ rest
    else Watcher.take ⟨v.monitor, v.held ++ [b]⟩ rest

/-- What the stream ends with is a line as well. -/
def Watcher.eof (v : Watcher) : Watcher :=
  if v.held = [] then v else ⟨hear v.monitor v.held, []⟩

def observe (v : Watcher) : Event → Watcher
  | .took bytes => v.take bytes
  | .eof => v.eof
  | .wrote command => { v with monitor := v.monitor.write command }

def Legal (v : Watcher) : Event → Prop
  | .wrote command => v.monitor.Legal command
  | _ => True

instance (v : Watcher) : (e : Event) → Decidable (Legal v e)
  | .wrote command => inferInstanceAs (Decidable (v.monitor.Legal command))
  | .took _ | .eof => isTrue trivial

/-- Every command is legal after the bytes that were taken before it. -/
def Conforms : Watcher → List Event → Prop
  | _, [] => True
  | v, e :: rest => Legal v e ∧ Conforms (observe v e) rest

instance decidableConforms : (v : Watcher) → (es : List Event) → Decidable (Conforms v es)
  | _, [] => isTrue trivial
  | v, e :: rest =>
    have := decidableConforms (observe v e) rest
    inferInstanceAs (Decidable (Legal v e ∧ Conforms (observe v e) rest))

/-- The line that the next poll hands to the session. -/
def delivered (w : State) (reads : Reader) : Option Line :=
  let polled := pollRead reads w.closed w.taken w.buffer
  if polled.ready then (readLine reads polled.line).toOption else none

/-- Authentication begins only after a greeting whose status is OK, lines are legible where they
are handed over, and a read that the select drops has taken nothing. -/
def Proceeds (session : Session) (w : State) : Label → Prop
  | .credentials (.ok credentials) => ∀ greeting ∈ greetingOf w.session.pc,
      sendable session credentials = true → greetsOk greeting = true
  | .poll => ∀ reads ∈ reader w.session.pc, ∀ line ∈ delivered w reads, Legible w.session.pc line
  | .refresh => w.taken = []
  | .shutdownChanged _ => w.taken = []
  | _ => True

instance (session : Session) (w : State) : (label : Label) → Decidable (Proceeds session w label)
  | .credentials (.ok credentials) => inferInstanceAs (Decidable (∀ greeting ∈
      greetingOf w.session.pc, sendable session credentials = true → greetsOk greeting = true))
  | .poll => inferInstanceAs (Decidable (∀ reads ∈ reader w.session.pc,
      ∀ line ∈ delivered w reads, Legible w.session.pc line))
  | .refresh => inferInstanceAs (Decidable (w.taken = []))
  | .shutdownChanged _ => inferInstanceAs (Decidable (w.taken = []))
  | .chunk _ | .close | .ioFailed _ | .wrote _ | .timedOut | .credentials (.error _) | .drop =>
    isTrue trivial

theorem conforms_append {v : Watcher} {es fs : List Event} :
    Conforms v (es ++ fs) ↔ Conforms v es ∧ Conforms (es.foldl observe v) fs := by
  induction es generalizing v with
  | nil => simp [Conforms]
  | cons e rest ih => simp [Conforms, ih, and_assoc]

section Lines
variable {m : Monitor} {held bytes line : List UInt8} {text : Line}

/-- Bytes without a line end are held. -/
theorem take_open (unended : Open isLf bytes) :
    (Watcher.mk m held).take bytes = ⟨m, held ++ bytes⟩ := by
  induction bytes generalizing held with
  | nil => simp [Watcher.take]
  | cons b rest ih =>
    have hb : ¬ isLf b = true := by
      rw [unended b (List.mem_cons_self ..)]
      exact Bool.false_ne_true
    have later : Open isLf rest := fun c hc => unended c (List.mem_cons_of_mem _ hc)
    rw [Watcher.take, if_neg hb, ih later, List.append_assoc, List.singleton_append]

/-- Bytes up to a line end complete the line. -/
theorem take_complete (complete : Complete isLf bytes) :
    (Watcher.mk m held).take bytes = ⟨hear m (held ++ bytes), []⟩ := by
  induction complete generalizing held with
  | ended hb => rw [Watcher.take, if_pos hb, Watcher.take]
  | cons hb _ ih =>
    rw [Watcher.take, if_neg (by rw [hb]; exact Bool.false_ne_true), ih, List.append_assoc,
      List.singleton_append]

theorem take_append (v : Watcher) (first second : List UInt8) :
    v.take (first ++ second) = (v.take first).take second := by
  induction first generalizing v with
  | nil => rfl
  | cons b rest ih =>
    rw [List.cons_append, Watcher.take, Watcher.take]
    split
    · exact ih _
    · exact ih _

theorem hear_decoded (h : decodeLine line = some text) : hear m line = m.read text := by
  rw [hear, h, Option.elim_some]

end Lines

section Polls
variable {w : State} {reads : Reader} {m : Monitor} {text : Line}

theorem conforms_seen (v : Watcher) (w : State) (label : Label) : Conforms v (seen w label) := by
  have free (es : List Event) (unwritten : ∀ command, .wrote command ∉ es) (v : Watcher) :
      Conforms v es := by
    induction es generalizing v with
    | nil => trivial
    | cons e rest ih =>
      refine ⟨?_, ih (fun command mem => unwritten command (List.mem_cons_of_mem _ mem)) _⟩
      cases e with
      | wrote command => exact absurd (List.mem_cons_self ..) (unwritten command)
      | took | eof => trivial
  refine free _ (fun command mem => ?_) v
  cases label with
  | poll =>
    cases hr : reader w.session.pc with
    | none => simp [seen, hr] at mem
    | some reads => cases ended : atEnd w reads <;> simp [seen, hr, taking, ended] at mem
  | _ => cases mem

theorem pollRead_line (w : State) (reads : Reader) :
    ∃ bytes, (pollRead reads w.closed w.taken w.buffer).line = w.taken ++ bytes := by
  rw [pollRead]
  split
  · exact ⟨_, rfl⟩
  · exact ⟨_, rfl⟩

theorem atEnd_iff : atEnd w reads = true ↔ w.closed = true ∧
    (pollRead reads w.closed w.taken w.buffer).rest = [] ∧
    cut isLf (pollRead reads w.closed w.taken w.buffer).line = none := by
  simp only [atEnd, Bool.and_eq_true, List.isEmpty_iff, Option.isNone_iff_eq_none, and_assoc]

/-- A read that goes on has not come to the end of the stream. -/
theorem ready_of_atEnd (ended : atEnd w reads = true) :
    (pollRead reads w.closed w.taken w.buffer).ready = true := by
  obtain ⟨closed, drained, -⟩ := atEnd_iff.mp ended
  rw [pollRead] at drained ⊢
  split at drained
  · rfl
  · simp only [Bool.or_eq_true, Bool.and_eq_true, List.isEmpty_iff]
    exact Or.inr ⟨closed, drained⟩

/-- After a poll the watcher stands as if it had been given the line of the read at once. -/
theorem foldl_taking (unended : Open isLf w.taken) :
    (taking w reads).foldl observe ⟨m, w.taken⟩ =
      if atEnd w reads then
        ((Watcher.mk m []).take (pollRead reads w.closed w.taken w.buffer).line).eof
      else (Watcher.mk m []).take (pollRead reads w.closed w.taken w.buffer).line := by
  obtain ⟨bytes, line⟩ := pollRead_line w reads
  have whole : (Watcher.mk m w.taken).take bytes =
      (Watcher.mk m []).take (pollRead reads w.closed w.taken w.buffer).line := by
    rw [line, take_append, take_open unended, List.nil_append]
  rw [← whole, taking, line, List.drop_left]
  split <;> rfl

/-- A read that goes on leaves the watcher in the middle of the same line. -/
theorem foldl_pending (unended : Open isLf w.taken)
    (pending : (pollRead reads w.closed w.taken w.buffer).ready = false) :
    Open isLf (pollRead reads w.closed w.taken w.buffer).line ∧
      (taking w reads).foldl observe ⟨m, w.taken⟩ =
        ⟨m, (pollRead reads w.closed w.taken w.buffer).line⟩ := by
  have spec := (ImapWire.pollRead_spec reads w.closed unended w.buffer).2
  rw [pending, if_neg Bool.false_ne_true] at spec
  have going : atEnd w reads = false := by
    refine Bool.eq_false_iff.mpr fun ended => ?_
    rw [ready_of_atEnd ended] at pending
    cases pending
  refine ⟨spec, ?_⟩
  rw [foldl_taking unended, going, take_open spec, List.nil_append]
  rfl

/-- A line that is handed to the session is read by the watcher. -/
theorem foldl_accepted (unended : Open isLf w.taken)
    (ready : (pollRead reads w.closed w.taken w.buffer).ready = true)
    (accepted : readLine reads (pollRead reads w.closed w.taken w.buffer).line = .ok text) :
    (taking w reads).foldl observe ⟨m, w.taken⟩ = ⟨m.read text, []⟩ := by
  obtain ⟨nonempty, within, decoded⟩ := readLine_ok accepted
  have spec := (ImapWire.pollRead_spec reads w.closed unended w.buffer).2
  rw [ready, if_pos rfl, within] at spec
  rw [foldl_taking unended]
  rcases spec with complete | ⟨still, exhausted | ⟨closed, drained⟩⟩
  · rw [take_complete complete, List.nil_append, hear_decoded decoded]
    split <;> rfl
  · cases exhausted
  · have ended : atEnd w reads = true := atEnd_iff.mpr ⟨closed, drained, cut_of_open still⟩
    rw [ended, if_pos rfl, take_open still, List.nil_append, Watcher.eof, if_neg nonempty,
      hear_decoded decoded]

end Polls

section Events
variable {session : Session} {s t : ImapSession.State} {es : List ImapSession.Event} {line : Line}

/-- No line is read. -/
def Unread (es : List ImapSession.Event) : Prop := ∀ line, .read line ∉ es

theorem unread_nil : Unread [] := fun _ mem => nomatch mem

theorem unread_wrote (command : Command) : Unread [.wrote command] := by
  intro line mem
  cases List.mem_singleton.mp mem

theorem unread_authenticate (session : Session) (s : ImapSession.State)
    (credentials : Credentials) : Unread (ImapSession.authenticate session s credentials).2 := by
  cases credentials with
  | xoauth2 token => exact unread_wrote _
  | password password =>
    simp only [ImapSession.authenticate]
    split
    · split
      · exact unread_wrote _
      · exact unread_nil
    · exact unread_nil

theorem unread_examineMailbox (session : Session) (s : ImapSession.State) :
    Unread (ImapSession.examineMailbox session s).2 := by
  rw [ImapSession.examineMailbox]
  split
  · exact unread_wrote _
  · exact unread_nil

theorem unread_authenticating (session : Session) (s : ImapSession.State) (tag : Nat) (line : Line)
    (now : ImapSession.Authenticating) :
    Unread (ImapSession.authenticating session s tag line now).2 := by
  cases now with
  | continuation response =>
    simp only [ImapSession.authenticating]
    split
    · exact unread_wrote _
    · split <;> exact unread_nil
  | completion =>
    simp only [ImapSession.authenticating]
    split
    · exact unread_wrote _
    · split
      · exact unread_examineMailbox session s
      · split <;> exact unread_nil
  | login =>
    simp only [ImapSession.authenticating]
    split
    · exact unread_examineMailbox session s
    · split <;> exact unread_nil

theorem unread_examining (session : Session) (s : ImapSession.State) (tag : Nat) (line : Line) :
    Unread (ImapSession.examining session s tag line).2 := by
  rw [ImapSession.examining]
  split
  · exact unread_wrote _
  · split <;> exact unread_nil

theorem unread_begun (pc : ImapIdle.Pc) : Unread (ImapSession.begun pc) := by
  cases pc with
  | sendingIdle | sendingDone => exact unread_wrote _
  | continuation | idling | completion | ended => exact unread_nil

/-- A line is read before anything is written in answer. -/
theorem line_read (h : ImapSession.step session s (lineRead s.pc line) = some (t, es)) :
    ∃ fs, es = .read line :: fs ∧ Unread fs := by
  obtain ⟨tags, pc⟩ := s
  cases pc with
  | greeting =>
    cases h
    refine ⟨_, rfl, ?_⟩
    rw [ImapSession.readGreeting]
    split
    · exact unread_nil
    · split <;> exact unread_nil
  | authenticating tag now =>
    cases h
    exact ⟨_, rfl, unread_authenticating session _ tag line now⟩
  | examining tag =>
    cases h
    exact ⟨_, rfl, unread_examining session _ tag line⟩
  | idle idle =>
    obtain ⟨⟨next, fs⟩, heard, same⟩ := Option.map_eq_some_iff.mp h
    obtain ⟨-, rfl⟩ := Prod.mk.inj same
    rw [filterMap_heard, ImapWire.examinedLine_line heard]
    exact ⟨_, rfl, unread_begun next.pc⟩
  | credentials | sendingAuth | sendingExamine | ended | dropped => cases h

/-- No line is handed over. -/
def Silent : ImapSession.Label → Prop
  | .line _ => False
  | .idle (.line _) => False
  | _ => True

theorem silent_step {move : ImapSession.Label}
    {next : ImapSession.State × List ImapSession.Event}
    (h : ImapSession.step session s move = some next) (silent : Silent move) : Unread next.2 := by
  cases ImapSession.turn_of_step h with
  | greeted | answered | examined => cases silent
  | provided greeting credentials => exact unread_authenticate session s credentials
  | idled idle label _ _ ran =>
    obtain ⟨⟨next, fs⟩, heard, rfl⟩ := Option.map_eq_some_iff.mp ran
    have other (line : Line) : label ≠ .line line := by
      rintro rfl
      cases silent
    have unheard := ImapWire.examinedLine_other heard other
    simp only [ImapSession.State.goto, filterMap_heard, unheard]
    exact unread_begun next.pc
  | unread | timedOut | sentAuth | sentExamine | unsent | unprovided | dropped => exact unread_nil

/-- Events that read no line are the same to both monitors. -/
theorem conforms_written {v : Watcher} (unread : Unread es)
    (conforms : ImapConformance.Conforms v.monitor es) :
    Conforms v (es.filterMap written) ∧ (es.filterMap written).foldl observe v =
      ⟨es.foldl ImapConformance.observe v.monitor, v.held⟩ := by
  induction es generalizing v with
  | nil => exact ⟨trivial, rfl⟩
  | cons e rest ih =>
    have later : Unread rest := fun line mem => unread line (List.mem_cons_of_mem _ mem)
    cases e with
    | read line => exact absurd (List.mem_cons_self ..) (unread line)
    | wrote command =>
      obtain ⟨next, same⟩ := ih (v := observe v (.wrote command)) later conforms.2
      exact ⟨⟨conforms.1, next⟩, same⟩

end Events

section Run
variable {session : Session} {w t : State} {v : Watcher} {s : ImapSession.State}

/-- Nothing but its drop is left to a session. -/
inductive Over : Pc → Prop where
  | ended (error : ImapSession.SessionError) : Over (.ended error)
  | dropped : Over .dropped
  | idle {idle : ImapIdle.State} {result : Except ImapError ImapIdle.RunEnd}
      (ended : idle.pc = .ended result) : Over (.idle idle)

theorem Over.follows {pc : Pc} (finished : Over pc) (m : Monitor) (tags : Nat) :
    Follows m tags pc := by
  cases finished with
  | ended error => exact .ended error
  | dropped => exact .dropped
  | idle ended => exact .idle (ended ▸ .ended _)

theorem Over.step {move : ImapSession.Label} {next : ImapSession.State × List ImapSession.Event}
    (finished : Over s.pc) (h : ImapSession.step session s move = some next) : Over next.1.pc := by
  generalize hpc : s.pc = pc at finished
  cases finished with
  | idle ended =>
    cases ImapSession.turn_of_step h with
    | dropped => exact .dropped
    | idled idle label next pc ran =>
      cases hpc.symm.trans pc
      rw [ImapSession.idleStep, ImapWire.step_of_ended ended] at ran
      cases ran
    | greeted | answered | examined | unread | timedOut | sentAuth | sentExamine | unsent | provided
    | unprovided => simp_all [ImapSession.operation]
  | ended | dropped =>
    cases ImapSession.turn_of_step h with
    | dropped => exact .dropped
    | greeted | answered | examined | unread | timedOut | sentAuth | sentExamine | unsent | provided
    | unprovided | idled => simp_all [ImapSession.operation]

/-- A read that fails ends the session without a word. -/
theorem over_readFailed {error : ImapError} {next : ImapSession.State × List ImapSession.Event}
    (h : ImapSession.step session s (SessionWire.readFailed s.pc error) = some next) :
    Over next.1.pc ∧ next.2 = [] := by
  obtain ⟨tags, pc⟩ := s
  cases pc with
  | greeting | authenticating | examining =>
    cases h
    exact ⟨.ended _, rfl⟩
  | idle idle =>
    obtain ⟨⟨next, fs⟩, failed, rfl⟩ := Option.map_eq_some_iff.mp h
    obtain ⟨result, ended⟩ := ImapWire.readFailed_ends failed
    have unheard := ImapWire.examinedLine_other failed nofun
    refine ⟨.idle ended, ?_⟩
    simp only [ImapSession.State.goto, filterMap_heard, unheard, ended]
    rfl
  | credentials | sendingAuth | sendingExamine | ended | dropped => cases h

/-- The monitor follows the session, and holds what the read in progress has taken. -/
structure Tracks (w : State) (v : Watcher) : Prop where
  follows : Follows v.monitor w.session.tags w.session.pc
  held : Over w.session.pc ∨ v.held = w.taken ∧ Open isLf w.taken

/-- The events are legal from here on, and the watcher tracks the session to where they lead. -/
def Lawful (v : Watcher) (t : State) (es : List Event) : Prop :=
  Conforms v es ∧ Tracks t (es.foldl observe v)

theorem lawful_append {t : State} {es fs : List Event} (first : Conforms v es)
    (later : Lawful (es.foldl observe v) t fs) : Lawful v t (es ++ fs) := by
  refine ⟨conforms_append.mpr ⟨first, later.1⟩, ?_⟩
  rw [List.foldl_append]
  exact later.2

/-- A move of the session that reads no line. -/
theorem lawful_advance {move : ImapSession.Label} {fs : List ImapSession.Event}
    (tracks : Tracks w v) (proceeds : ImapConformance.Proceeds session w.session move)
    (silent : Silent move) (h : SessionWire.advance session w move = some (t, fs)) :
    Lawful v t (fs.filterMap written) := by
  obtain ⟨n, moved, rfl⟩ := SessionWire.advance_some h
  obtain ⟨conforms, follows⟩ := ImapConformance.lawful_step tracks.follows proceeds moved
  obtain ⟨legal, same⟩ := conforms_written (silent_step moved silent) conforms
  refine ⟨legal, ?_, ?_⟩
  · rw [same]
    exact follows
  · rw [same]
    exact tracks.held.imp_left fun finished => finished.step moved

theorem proceeds_lineRead {line : Line} (legible : Legible s.pc line) :
    ImapConformance.Proceeds session s (lineRead s.pc line) := by
  obtain ⟨tags, pc⟩ := s
  cases pc <;> exact legible

/-- A line that is handed over is read on both sides. -/
theorem lawful_line {m : Monitor} {line : Line} {fs : List ImapSession.Event}
    (follows : Follows m w.session.tags w.session.pc) (legible : Legible w.session.pc line)
    (fresh : w.taken = [])
    (h : SessionWire.advance session w (lineRead w.session.pc line) = some (t, fs)) :
    Lawful ⟨m.read line, []⟩ t (fs.filterMap written) := by
  obtain ⟨n, moved, rfl⟩ := SessionWire.advance_some h
  obtain ⟨conforms, next⟩ :=
    ImapConformance.lawful_step follows (proceeds_lineRead legible) moved
  obtain ⟨rest, rfl, unread⟩ := line_read moved
  obtain ⟨legal, same⟩ := conforms_written (v := ⟨m.read line, []⟩) unread conforms
  refine ⟨legal, ?_, Or.inr ?_⟩
  · exact same ▸ next
  · refine ⟨?_, fresh ▸ fun _ mem => nomatch mem⟩
    exact (congrArg Watcher.held same).trans fresh.symm

theorem not_over_of_reader {reads : Reader} (reading : reader w.session.pc = some reads) :
    ¬ Over w.session.pc := by
  intro finished
  cases hpc : w.session.pc with
  | idle idle =>
    rw [hpc] at finished reading
    cases finished with
    | idle ended =>
      rw [reader, ended] at reading
      cases reading
  | ended | dropped | credentials | sendingAuth | sendingExamine =>
    rw [hpc] at reading
    cases reading
  | greeting | authenticating | examining =>
    rw [hpc] at finished
    cases finished

theorem lawful_poll {reads : Reader} {fs : List ImapSession.Event} (tracks : Tracks w v)
    (reading : reader w.session.pc = some reads)
    (legible : ∀ line ∈ delivered w reads, Legible w.session.pc line)
    (h : SessionWire.poll session w reads = some (t, fs)) :
    Lawful v t (taking w reads ++ fs.filterMap written) := by
  obtain ⟨held, unended⟩ := tracks.held.resolve_left (not_over_of_reader reading)
  have stands : v = ⟨v.monitor, w.taken⟩ := by rw [← held]
  have free : Conforms v (taking w reads) := by
    have polled := conforms_seen v w .poll
    rwa [seen, reading] at polled
  refine lawful_append free ?_
  rw [SessionWire.poll] at h
  cases ready : (pollRead reads w.closed w.taken w.buffer).ready with
  | false =>
    obtain ⟨still, follows⟩ := foldl_pending (m := v.monitor) unended ready
    simp only [ready, Bool.false_eq_true, if_false] at h
    obtain ⟨rfl, rfl⟩ := Prod.mk.inj (Option.some.inj h)
    rw [stands, follows]
    exact ⟨trivial, tracks.follows, Or.inr ⟨rfl, still⟩⟩
  | true =>
    simp only [ready, if_true] at h
    cases read : readLine reads (pollRead reads w.closed w.taken w.buffer).line with
    | ok line =>
      have handed : line ∈ delivered w reads := by
        simp only [delivered, ready, if_true, read]
        rfl
      rw [read] at h
      rw [stands, foldl_accepted unended ready read]
      exact lawful_line (w := { w with
        buffer := (pollRead reads w.closed w.taken w.buffer).rest, taken := [],
        examined := w.examined ++ [(pollRead reads w.closed w.taken w.buffer).line] })
        tracks.follows (legible line handed) rfl h
    | error error =>
      rw [read] at h
      obtain ⟨n, failed, rfl⟩ := SessionWire.advance_some h
      obtain ⟨finished, rfl⟩ := over_readFailed failed
      exact ⟨trivial, finished.follows _ _, Or.inl finished⟩

/-- What is no line passes to the session or to its IDLE cycle. -/
theorem lawful_addressed {inside : ImapIdle.Label} {outside : ImapSession.Label}
    {fs : List ImapSession.Event} (tracks : Tracks w v)
    (proceeds : ∀ move ∈ [.idle inside, outside],
      ImapConformance.Proceeds session w.session move ∧ Silent move)
    (h : SessionWire.advance session w
      (SessionWire.addressed w.session.pc inside outside) = some (t, fs)) :
    Lawful v t (fs.filterMap written) := by
  have either : SessionWire.addressed w.session.pc inside outside ∈ [.idle inside, outside] := by
    cases w.session.pc <;> simp [SessionWire.addressed]
  obtain ⟨fits, silent⟩ := proceeds _ either
  exact lawful_advance tracks fits silent h

theorem lawful_step {label : Label} {es : List Event} (tracks : Tracks w v)
    (proceeds : Proceeds session w label) (h : step session w label = some (t, es)) :
    Lawful v t es := by
  obtain ⟨⟨u, fs⟩, ran, same⟩ := Option.map_eq_some_iff.mp h
  obtain ⟨rfl, rfl⟩ := Prod.mk.inj same
  cases label with
  | chunk bytes =>
    simp only [SessionWire.step] at ran
    split at ran
    · cases ran
    · cases ran
      exact ⟨trivial, tracks.follows, tracks.held⟩
  | close =>
    cases ran
    exact ⟨trivial, tracks.follows, tracks.held⟩
  | poll =>
    obtain ⟨reads, reading, polled⟩ := Option.bind_eq_some_iff.mp ran
    rw [seen, reading]
    exact lawful_poll tracks reading (proceeds reads reading) polled
  | ioFailed | wrote | timedOut =>
    refine lawful_addressed tracks (fun move mem => ?_) ran
    rcases List.mem_pair.mp mem with rfl | rfl
    · exact ⟨trivial, trivial⟩
    · exact ⟨trivial, trivial⟩
  | credentials result =>
    refine lawful_advance tracks ?_ ?_ ran
    · cases result with
      | ok credentials => exact proceeds
      | error source => trivial
    · trivial
  | refresh =>
    have kept : { w with taken := [] } = w := by rw [← (proceeds : w.taken = [])]
    simp only [SessionWire.step, kept] at ran
    refine lawful_advance tracks ?_ ?_ ran <;> trivial
  | shutdownChanged stop =>
    have kept : { w with taken := [] } = w := by rw [← (proceeds : w.taken = [])]
    simp only [SessionWire.step, kept] at ran
    refine lawful_advance tracks ?_ ?_ ran <;> trivial
  | drop => refine lawful_advance tracks ?_ ?_ ran <;> trivial

theorem tracks_start (session : Session) : Tracks (.start session) .start :=
  ⟨ImapConformance.follows_start session, Or.inr ⟨rfl, fun _ mem => nomatch mem⟩⟩

/-- In every session, whatever the server sends and however it is cut into chunks, the commands are
legal for the connection state that the bytes read so far establish, each under its own tag, while
every step proceeds from an OK greeting, from legible lines and from reads that are not cut. -/
theorem session_conforms {labels : List Label} {tr : List Event}
    (run : exec (step session) (.start session) labels = some (t, tr))
    (meets : Meets (step session) (Proceeds session) (.start session) labels) :
    Conforms .start tr := by
  have kept : Lawful .start t ([] ++ tr) := by
    refine exec_invariant_of_meets (P := fun past u => Lawful .start u past) ?_
      ⟨trivial, tracks_start session⟩ meets run
    intro past w label u es old proceeds ran
    exact lawful_append old.1 (lawful_step old.2 proceeds ran)
  exact kept.1

end Run

private def mailboxSession : Session := ⟨"user".toList, "INBOX".toList, id, false, true⟩

private def arrives (s : String) : Label := .chunk s.toUTF8.data.toList

/-- A session by password up to its first IDLE. -/
private def upToIdle : List Label :=
  [arrives "* OK ready\r\n", .poll, .credentials (.ok (.password "secret".toList)), .wrote (.ok ()),
    arrives "A0001 OK done\r\n", .poll, .wrote (.ok ()), arrives "* 3 EXISTS\r\nA0002 OK exam",
    .poll, .poll, arrives "ined\r\n", .poll, .wrote (.ok ()), arrives "+ idling\r\n", .poll]

theorem password_session_conforms :
    let r := (exec (step mailboxSession) (.start mailboxSession) (upToIdle ++
      [.refresh, .wrote (.ok ()), arrives "A0003 OK ended\r\n", .poll])).get (by decide +kernel)
    Event.wrote (.idle "A0004".toList) ∈ r.2 ∧ Conforms .start r.2 := by
  intro r
  have run := (Option.some_get (by decide +kernel : (exec (step mailboxSession)
    (.start mailboxSession) (upToIdle ++
      [.refresh, .wrote (.ok ()), arrives "A0003 OK ended\r\n", .poll])).isSome = true)).symm
  exact ⟨by decide +kernel, session_conforms run (by decide +kernel)⟩

/-- After a PREAUTH greeting LOGIN is written all the same. After an OK greeting, an untagged line
that the refresh cuts in two is taken for the completion of the IDLE, and the next IDLE follows. -/
theorem commands_are_written_out_of_order :
    (∃ t tr, exec (step mailboxSession) (.start mailboxSession)
      [arrives "* PREAUTH ready\r\n", .poll, .credentials (.ok (.password "secret".toList))] =
        some (t, tr) ∧ ¬ Conforms .start tr) ∧
    ∃ t tr, exec (step mailboxSession) (.start mailboxSession) (upToIdle ++
      [arrives "* OK ", .poll, .refresh, .wrote (.ok ()), arrives "A0003 OK x\r\n", .poll]) =
        some (t, tr) ∧ ¬ Conforms .start tr := by
  refine ⟨⟨_, _, (Option.some_get (by decide +kernel)).symm, by decide +kernel⟩,
    ⟨_, _, (Option.some_get (by decide +kernel)).symm, by decide +kernel⟩⟩

end WireConformance

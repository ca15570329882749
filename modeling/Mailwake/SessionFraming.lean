import Mailwake.SessionWire

/-!
# The IDLE cycle inside a whole session

While a session is in its IDLE cycle, the bytes under it are the bytes under that cycle. What is
known of the lines the cycle looks at holds of every session from its first IDLE on.
-/
namespace SessionFraming
open ImapLine Transition Framing
open ImapSession (Session)
open ImapWire (isLf decodeLine Sound Uncut)
open SessionWire (State Label)

/-- What happens to a session in its IDLE cycle, as it happens to the cycle. -/
def inside : Label → Option ImapWire.Label
  | .chunk bytes => some (.chunk bytes)
  | .close => some .close
  | .poll => some .poll
  | .ioFailed source => some (.ioFailed source)
  | .wrote result => some (.wrote result)
  | .timedOut => some .timedOut
  | .refresh => some .refresh
  | .shutdownChanged stop => some (.shutdownChanged stop)
  | .credentials _ => none
  | .drop => none

/-- The bytes that arrive in a run. -/
def arrived : List Label → List UInt8
  | [] => []
  | .chunk bytes :: rest => bytes ++ arrived rest
  | _ :: rest => arrived rest

def lineOf : ImapSession.Event → Option Line
  | .read line => some line
  | .wrote _ => none

/-- No resume drops the session, and no read that its select drops has taken anything. -/
def Unbroken (w : State) : Label → Prop
  | .refresh => w.taken = []
  | .shutdownChanged _ => w.taken = []
  | .drop => False
  | _ => True

instance (w : State) : (label : Label) → Decidable (Unbroken w label)
  | .refresh => inferInstanceAs (Decidable (w.taken = []))
  | .shutdownChanged _ => inferInstanceAs (Decidable (w.taken = []))
  | .drop => isFalse id
  | .chunk _ | .close | .poll | .ioFailed _ | .wrote _ | .timedOut | .credentials _ =>
    isTrue trivial

/-- The session is in its IDLE cycle, over the same bytes but for the lines of the handshake. -/
structure Carries (before : List (List UInt8)) (w : State) (u : ImapWire.State) : Prop where
  pc : w.session.pc = .idle u.session
  closed : w.closed = u.closed
  buffer : w.buffer = u.buffer
  taken : w.taken = u.taken
  examined : w.examined = before ++ u.examined

section Steps
variable {session : Session} {before : List (List UInt8)} {w v : State} {u : ImapWire.State}
  {es : List ImapSession.Event}

theorem lineOf_begun (pc : ImapIdle.Pc) : (ImapSession.begun pc).filterMap lineOf = [] := by
  cases pc <;> rfl

/-- A move of the cycle is a move of the session. -/
theorem carries_advance {label : ImapIdle.Label} (carries : Carries before w u)
    (h : SessionWire.advance session w (.idle label) = some (v, es)) :
    ∃ u' fs, ImapWire.advance u label = some (u', fs) ∧ u'.received = u.received ∧
      Carries before v u' ∧ es.filterMap lineOf = fs.filterMap ImapWire.examinedLine := by
  obtain ⟨t, moved, rfl⟩ := SessionWire.advance_some h
  simp only [ImapSession.step, carries.pc] at moved
  obtain ⟨⟨idle, fs⟩, ran, same⟩ := Option.map_eq_some_iff.mp moved
  obtain ⟨rfl, rfl⟩ := Prod.mk.inj same
  refine ⟨{ u with session := idle }, fs, by rw [ImapWire.advance, ran]; rfl, rfl,
    ⟨rfl, carries.closed, carries.buffer, carries.taken, carries.examined⟩, ?_⟩
  rw [List.filterMap_append, lineOf_begun, List.append_nil, SessionWire.filterMap_heard,
    List.filterMap_map]
  exact List.filterMap_some ..

theorem carries_poll {reads : ImapWire.Reader} (carries : Carries before w u)
    (h : SessionWire.poll session w reads = some (v, es)) :
    ∃ u' fs, ImapWire.poll u reads = some (u', fs) ∧ u'.received = u.received ∧
      Carries before v u' ∧ es.filterMap lineOf = fs.filterMap ImapWire.examinedLine := by
  obtain ⟨pc, closed, buffer, taken, examined⟩ := carries
  rw [SessionWire.poll, closed, buffer, taken] at h
  rw [ImapWire.poll]
  generalize ImapWire.pollRead reads u.closed u.taken u.buffer = polled at h ⊢
  cases ready : polled.ready with
  | false =>
    simp only [ready, Bool.false_eq_true, if_false] at h ⊢
    obtain ⟨rfl, rfl⟩ := Prod.mk.inj (Option.some.inj h)
    exact ⟨_, _, rfl, rfl, ⟨pc, rfl, rfl, rfl, examined⟩, rfl⟩
  | true =>
    simp only [ready, if_true] at h ⊢
    cases read : ImapWire.readLine reads polled.line with
    | ok line =>
      have heard : SessionWire.lineRead w.session.pc line = .idle (.line line) := by rw [pc]; rfl
      simp only [read, heard] at h
      have next : Carries before { w with
          closed := u.closed, buffer := polled.rest, taken := [],
          examined := w.examined ++ [polled.line] } { u with
          buffer := polled.rest, taken := [], examined := u.examined ++ [polled.line] } :=
        ⟨pc, rfl, rfl, rfl, by rw [examined, List.append_assoc]⟩
      exact carries_advance next h
    | error error =>
      have failed : SessionWire.readFailed w.session.pc error = .idle (.readFailed error) := by
        rw [pc]
        rfl
      simp only [read, failed] at h
      have next : Carries before { w with
          closed := u.closed, buffer := polled.rest, taken := polled.line } { u with
          buffer := polled.rest, taken := polled.line } := ⟨pc, rfl, rfl, rfl, examined⟩
      exact carries_advance next h

/-- A step over the bytes of the session is one over those of the cycle. -/
theorem carries_step {label : Label} (carries : Carries before w u) (unbroken : Unbroken w label)
    (h : SessionWire.step session w label = some (v, es)) :
    ∃ move u' fs, inside label = some move ∧
      ImapWire.step u move = some (u', fs) ∧ u'.received = u.received ++ arrived [label] ∧
      Carries before v u' ∧ es.filterMap lineOf = fs.filterMap ImapWire.examinedLine := by
  have passed {move : ImapWire.Label} (mapped : inside label = some move)
      (quiet : arrived [label] = []) (ran : ∃ u' fs, ImapWire.step u move = some (u', fs) ∧
        u'.received = u.received ∧ Carries before v u' ∧
        es.filterMap lineOf = fs.filterMap ImapWire.examinedLine) :
      ∃ move u' fs, inside label = some move ∧ ImapWire.step u move = some (u', fs) ∧
        u'.received = u.received ++ arrived [label] ∧ Carries before v u' ∧
        es.filterMap lineOf = fs.filterMap ImapWire.examinedLine := by
    obtain ⟨u', fs, went, same, next, lines⟩ := ran
    exact ⟨move, u', fs, mapped, went, by rw [same, quiet, List.append_nil], next, lines⟩
  have unread : Carries before { w with taken := [] } { u with taken := [] } :=
    ⟨carries.pc, carries.closed, carries.buffer, rfl, carries.examined⟩
  cases label with
  | chunk bytes =>
    have running := carries.closed
    simp only [SessionWire.step] at h
    split at h
    · cases h
    · rename_i going
      cases h
      refine ⟨_, { u with received := u.received ++ bytes, buffer := u.buffer ++ bytes }, [], rfl,
        ?_, ?_, ⟨carries.pc, running, ?_, carries.taken, carries.examined⟩, rfl⟩
      · rw [ImapWire.step, if_neg (running ▸ going)]
      · rw [arrived, arrived, List.append_nil]
      · rw [carries.buffer]
  | close =>
    cases h
    exact passed rfl rfl ⟨_, _, rfl, rfl,
      ⟨carries.pc, rfl, carries.buffer, carries.taken, carries.examined⟩, rfl⟩
  | poll =>
    obtain ⟨reads, reading, polled⟩ := Option.bind_eq_some_iff.mp h
    rw [carries.pc, SessionWire.reader] at reading
    obtain ⟨u', fs, went, rest⟩ := carries_poll carries polled
    exact passed rfl rfl ⟨u', fs, by rw [ImapWire.step, reading, Option.bind_some, went], rest⟩
  | ioFailed | wrote | timedOut =>
    simp only [SessionWire.step, SessionWire.readFailed, carries.pc] at h
    exact passed rfl rfl (carries_advance carries h)
  | refresh | shutdownChanged =>
    exact passed rfl rfl (carries_advance unread h)
  | credentials result =>
    obtain ⟨t, moved, -⟩ := SessionWire.advance_some h
    simp only [ImapSession.step, carries.pc] at moved
    cases moved
  | drop => exact unbroken.elim

end Steps

section Runs
variable {session : Session} {before : List (List UInt8)} {w v : State} {u : ImapWire.State}
  {past : List ImapIdle.Event} {labels : List Label} {tr : List ImapSession.Event}

theorem arrived_cons (label : Label) (rest : List Label) :
    arrived (label :: rest) = arrived [label] ++ arrived rest := by
  cases label with
  | chunk bytes => rw [arrived, arrived, arrived, List.append_nil]
  | _ => rfl

theorem uncut_of_unbroken {label : Label} {move : ImapWire.Label} (carries : Carries before w u)
    (unbroken : Unbroken w label) (mapped : inside label = some move) : Uncut u move := by
  cases label with
  | refresh =>
    cases mapped
    exact carries.taken.symm.trans unbroken
  | shutdownChanged stop =>
    cases mapped
    exact carries.taken.symm.trans unbroken
  | credentials | drop => cases mapped
  | chunk | close | poll | ioFailed | wrote | timedOut =>
    cases mapped
    trivial

/-- What is sound of the cycle stays so along a run of the session. -/
theorem sound_run (carries : Carries before w u) (sound : Sound past u)
    (meets : Meets (SessionWire.step session) Unbroken w labels)
    (run : exec (SessionWire.step session) w labels = some (v, tr)) :
    ∃ u' fs, Carries before v u' ∧ Sound (past ++ fs) u' ∧
      u'.received = u.received ++ arrived labels ∧
      tr.filterMap lineOf = fs.filterMap ImapWire.examinedLine := by
  induction labels generalizing w u past tr with
  | nil =>
    obtain ⟨rfl, rfl⟩ : w = v ∧ [] = tr := by simpa using run
    exact ⟨u, [], carries, by rwa [List.append_nil], (List.append_nil _).symm, rfl⟩
  | cons label rest ih =>
    obtain ⟨m, es, gs, ran, later, rfl⟩ := exec_cons_some.mp run
    obtain ⟨move, u', fs, moved, went, grown, next, lines⟩ := carries_step carries meets.1 ran
    have uncut := uncut_of_unbroken carries meets.1 moved
    obtain ⟨u'', hs, last, kept, whole, heard⟩ :=
      ih next (ImapWire.sound_step sound uncut went) (meets.2 m es ran) later
    refine ⟨u'', fs ++ hs, last, by rwa [← List.append_assoc], ?_, ?_⟩
    · rw [whole, grown, arrived_cons label rest, List.append_assoc]
    · rw [List.filterMap_append, List.filterMap_append, lines, heard]

/-- From its first IDLE on, a session that no select cuts a read of looks at the lines of what the
stream holds from there on, and loses no byte. -/
theorem idle_lines_are_framed {tags : Nat} {notifyOnConnect initialReady : Bool}
    (entered : w.session.pc = .idle (.start tags notifyOnConnect initialReady))
    (fresh : w.taken = [])
    (meets : Meets (SessionWire.step session) Unbroken w labels)
    (run : exec (SessionWire.step session) w labels = some (v, tr)) :
    ∃ lines, v.examined = w.examined ++ lines ∧
      w.buffer ++ arrived labels = lines.flatten ++ (v.taken ++ v.buffer) ∧
      lines <+: splitInclusive isLf (w.buffer ++ arrived labels) ∧
      lines.map decodeLine = (tr.filterMap lineOf).map some := by
  have carries : Carries w.examined w ⟨.start tags notifyOnConnect initialReady, w.buffer, w.closed,
      w.buffer, [], []⟩ :=
    ⟨entered, rfl, rfl, fresh, (List.append_nil _).symm⟩
  have sound : Sound [] ⟨.start tags notifyOnConnect initialReady, w.buffer, w.closed, w.buffer, [],
      []⟩ :=
    ⟨rfl, Or.inl (fun _ mem => nomatch mem), rfl, Or.inr (fun _ mem => nomatch mem)⟩
  obtain ⟨u, fs, last, kept, whole, heard⟩ := sound_run carries sound meets run
  obtain ⟨framed, first, texts⟩ := kept.framed
  rw [whole] at framed first
  refine ⟨u.examined, last.examined, ?_, first, ?_⟩
  · rw [framed, last.taken, last.buffer]
  · rw [texts, heard, List.nil_append]

end Runs

private def mailboxSession : Session := ⟨"user".toList, "INBOX".toList, id, true, true⟩

private def bytes (s : String) : List UInt8 := s.toUTF8.data.toList

/-- A session that has begun its first IDLE, with the beginning of a line in its buffer. -/
private def idleBegun : State := ⟨⟨2, .idle (.start 2 true true)⟩, false, bytes "+ id", [], []⟩

/-- The end of a line arrives after the refresh, and no part of it was taken before. -/
private def exampleRefresh : List Label :=
  [.wrote (.ok ()), .poll, .chunk (bytes "ling\r\n* 1 EXISTS\r\n* 2"), .poll, .poll, .refresh,
    .wrote (.ok ()), .chunk (bytes " EXISTS\r\n"), .poll]

theorem example_lines_are_framed :
    let r := (exec (SessionWire.step mailboxSession) idleBegun exampleRefresh).get
      (by decide +kernel)
    ∃ lines, r.1.examined = idleBegun.examined ++ lines ∧
      idleBegun.buffer ++ arrived exampleRefresh = lines.flatten ++ (r.1.taken ++ r.1.buffer) ∧
      lines <+: splitInclusive isLf (idleBegun.buffer ++ arrived exampleRefresh) ∧
      lines.map decodeLine = (r.2.filterMap lineOf).map some := by
  intro r
  have run := (Option.some_get (by decide +kernel : (exec (SessionWire.step mailboxSession)
    idleBegun exampleRefresh).isSome = true)).symm
  exact idle_lines_are_framed rfl rfl (by decide +kernel) run

end SessionFraming

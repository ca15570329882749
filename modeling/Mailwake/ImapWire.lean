import Mailwake.Framing
import Mailwake.ImapIdle

/-!
# The bytes under the IDLE cycle

The stream arrives in chunks, and a poll of the read in progress moves bytes from the
buffered reader into that read until a line is complete. The select of IDLE drops its
read when the refresh timer or the shutdown watch wins, with the bytes it has taken.
-/
namespace ImapWire
open ImapLine Transition Framing

def maxResponseLineBytes : Nat := 64 * 1024

def isLf (b : UInt8) : Bool := b = 10

/-- How a line is read: by the reader's own `read_line` in the select of IDLE, and by
the session's `read_line`, which takes a limited number of bytes, in the two waits. -/
inductive Reader where
  | unlimited
  | limited
  deriving DecidableEq

/-- The read in progress at a program point. -/
def reader : ImapIdle.Pc → Option Reader
  | .idling _ => some .unlimited
  | .continuation _ => some .limited
  | .completion _ _ _ => some .limited
  | _ => none

/-- A session that has ended reads nothing more: `taken` and `buffer` keep what it left. -/
structure State where
  session : ImapIdle.State
  received : List UInt8
  closed : Bool
  /-- Received bytes that no read has taken. -/
  buffer : List UInt8
  /-- What the read in progress has taken. -/
  taken : List UInt8
  /-- The bytes of every line that the session looked at. -/
  examined : List (List UInt8)

inductive Label where
  | chunk (bytes : List UInt8)
  | close
  | poll
  | ioFailed (source : String)
  | wrote (result : Except ImapError Unit)
  | timedOut
  | refresh
  | shutdownChanged (stop : Bool)

def State.start (tags : Nat) (notifyOnConnect initialReady : Bool) : State :=
  ⟨ImapIdle.State.start tags notifyOnConnect initialReady, [], false, [], [], []⟩

/-- The bytes that a poll can see. -/
def window (reader : Reader) (taken buffer : List UInt8) : List UInt8 :=
  match reader with
  | .unlimited => buffer
  | .limited => buffer.take (maxResponseLineBytes + 1 - taken.length)

/-- A limited read that has taken all it may is at its end. -/
def exhausted (reader : Reader) (line : List UInt8) : Bool :=
  reader = .limited && maxResponseLineBytes < line.length

structure Polled where
  line : List UInt8
  rest : List UInt8
  ready : Bool

def pollRead (reader : Reader) (closed : Bool) (taken buffer : List UInt8) : Polled :=
  let seen := window reader taken buffer
  match cut isLf seen with
  | some (piece, _) => ⟨taken ++ piece, buffer.drop piece.length, true⟩
  | none =>
    let rest := buffer.drop seen.length
    ⟨taken ++ seen, rest, exhausted reader (taken ++ seen) || (closed && rest.isEmpty)⟩

/-- What a read that is done hands to the session. -/
def readLine (reader : Reader) (line : List UInt8) : Except ImapError Line :=
  match String.fromUTF8? ⟨line.toArray⟩ with
  | none => .error (.io "stream did not contain valid UTF-8")
  | some text =>
    if line.isEmpty then .error .serverClosed
    else if exhausted reader line then
      .error (.protocol "reading oversized IMAP response line")
    else .ok (trimLine text.toList)

def advance (w : State) (label : ImapIdle.Label) : Option (State × List ImapIdle.Event) :=
  (ImapIdle.step w.session label).map fun next => ({ w with session := next.1 }, next.2)

def poll (w : State) (reader : Reader) : Option (State × List ImapIdle.Event) :=
  let polled := pollRead reader w.closed w.taken w.buffer
  if polled.ready then
    match readLine reader polled.line with
    | .ok line =>
      advance { w with buffer := polled.rest, taken := [], examined := w.examined ++ [polled.line] }
        (.line line)
    | .error error =>
      advance { w with buffer := polled.rest, taken := polled.line } (.readFailed error)
  else some ({ w with buffer := polled.rest, taken := polled.line }, [])

def step (w : State) : Label → Option (State × List ImapIdle.Event)
  | .chunk bytes =>
    if w.closed then none
    else some ({ w with received := w.received ++ bytes, buffer := w.buffer ++ bytes }, [])
  | .close => some ({ w with closed := true }, [])
  | .poll => (reader w.session.pc).bind (poll w)
  | .ioFailed source => advance w (.readFailed (.io source))
  | .wrote result => advance w (.wrote result)
  | .timedOut => advance w .timedOut
  -- the other branch of the select wins: its read is dropped
  | .refresh => advance { w with taken := [] } .refresh
  | .shutdownChanged stop => advance { w with taken := [] } (.shutdownChanged stop)

/-- The line an event reads, if it reads one. -/
def examinedLine : ImapIdle.Event → Option Line
  | .read line => some line
  | _ => none

/-- The text of a line as the session looks at it. -/
def decodeLine (line : List UInt8) : Option Line :=
  (String.fromUTF8? ⟨line.toArray⟩).map fun text => trimLine text.toList

/-- Every received byte is in a line looked at, in the line being read or still in the
buffer, and the lines looked at are the first lines of the stream. -/
structure Framed (tr : List ImapIdle.Event) (w : State) : Prop where
  kept : w.received = w.examined.flatten ++ (w.taken ++ w.buffer)
  first : w.examined <+: splitInclusive isLf w.received
  texts : w.examined.map decodeLine = (tr.filterMap examinedLine).map some

/-- A read that the select of IDLE drops has taken nothing. -/
def Uncut (w : State) : Label → Prop
  | .refresh => w.taken = []
  | .shutdownChanged _ => w.taken = []
  | _ => True

instance (w : State) : ∀ label, Decidable (Uncut w label)
  | .refresh => inferInstanceAs (Decidable (w.taken = []))
  | .shutdownChanged _ => inferInstanceAs (Decidable (w.taken = []))
  | .chunk _ | .close | .poll | .ioFailed _ | .wrote _ | .timedOut => isTrue trivial

/-- Every line looked at is complete, but for the last one of a closed stream. -/
def Whole (w : State) : Prop :=
  (∀ line ∈ w.examined, Complete isLf line) ∨
    ∃ lines last, w.examined = lines ++ [last] ∧ (∀ line ∈ lines, Complete isLf line) ∧
      last ≠ [] ∧ Open isLf last ∧ w.closed = true ∧ w.taken ++ w.buffer = []

structure Sound (tr : List ImapIdle.Event) (w : State) : Prop where
  kept : w.received = w.examined.flatten ++ (w.taken ++ w.buffer)
  whole : Whole w
  texts : w.examined.map decodeLine = (tr.filterMap examinedLine).map some
  unfinished : (∃ result, w.session.pc = .ended result) ∨ Open isLf w.taken

theorem Sound.framed {tr : List ImapIdle.Event} {w : State} (h : Sound tr w) : Framed tr w := by
  refine ⟨h.kept, ?_, h.texts⟩
  rcases h.whole with complete | ⟨lines, last, he, complete, nonempty, openLast, -, drained⟩
  · rw [h.kept]
    exact prefix_splitInclusive complete _
  · rw [h.kept, drained, List.append_nil, he,
      splitInclusive_flatten_concat complete nonempty openLast]

theorem step_of_ended {s : ImapIdle.State} {result : Except ImapError ImapIdle.RunEnd}
    (h : s.pc = .ended result) (label : ImapIdle.Label) : ImapIdle.step s label = none := by
  cases label <;> simp [ImapIdle.step, h]

theorem readFailed_ends {s t : ImapIdle.State} {error : ImapError} {es : List ImapIdle.Event}
    (h : ImapIdle.step s (.readFailed error) = some (t, es)) : ∃ result, t.pc = .ended result := by
  simp only [ImapIdle.step] at h
  split at h
  · cases h
    exact ⟨_, rfl⟩
  · cases h
    exact ⟨_, rfl⟩
  · cases h
    exact ⟨_, rfl⟩
  · cases h

theorem advance_some {w v : State} {label : ImapIdle.Label} {es : List ImapIdle.Event}
    (h : advance w label = some (v, es)) :
    ∃ t, ImapIdle.step w.session label = some (t, es) ∧ v = { w with session := t } := by
  obtain ⟨⟨t, fs⟩, hs, he⟩ := Option.map_eq_some_iff.mp h
  obtain ⟨rfl, rfl⟩ := Prod.mk.inj he
  exact ⟨t, hs, rfl⟩

/-- Only a line that was read makes the session look at one. -/
theorem examinedLine_finish (s : ImapIdle.State) (result : Except ImapError ImapIdle.RunEnd) :
    (ImapIdle.finish s result).2.filterMap examinedLine = [] := rfl

theorem examinedLine_continued (s : ImapIdle.State) (tag : Nat) :
    (ImapIdle.continued s tag).2.filterMap examinedLine = [] := by
  rw [ImapIdle.continued]
  split
  · rfl
  · by_cases connect : s.notifyOnConnect = true <;> by_cases ready : s.initialReady = true <;>
      simp [connect, ready, examinedLine]

theorem examinedLine_waitIdleContinuation (s : ImapIdle.State) (tag : Nat) (line : Line) :
    (ImapIdle.waitIdleContinuation s tag line).2.filterMap examinedLine = [] := by
  rw [ImapIdle.waitIdleContinuation]
  split
  · exact examinedLine_continued s tag
  split
  · exact examinedLine_finish s _
  · rfl

theorem examinedLine_idleLine (s : ImapIdle.State) (tag : Nat) (line : Line) :
    (ImapIdle.idleLine s tag line).2.filterMap examinedLine = [] := by
  rw [ImapIdle.idleLine]
  split <;> rfl

theorem examinedLine_waitIdleCompletion (s : ImapIdle.State) (tag : Nat)
    (stopping eventQueued : Bool) (line : Line) :
    (ImapIdle.waitIdleCompletion s tag stopping eventQueued line).2.filterMap examinedLine
      = [] := by
  rw [ImapIdle.waitIdleCompletion]
  split
  · rfl
  · split <;> rfl
  · split <;> rfl
  · rfl

theorem examinedLine_line {s t : ImapIdle.State} {line : Line} {es : List ImapIdle.Event}
    (h : ImapIdle.step s (.line line) = some (t, es)) : es.filterMap examinedLine = [line] := by
  simp only [ImapIdle.step] at h
  split at h
  · obtain ⟨-, rfl⟩ := Prod.mk.inj (Option.some.inj h)
    rw [List.filterMap_append, examinedLine_waitIdleContinuation]
    rfl
  · obtain ⟨-, rfl⟩ := Prod.mk.inj (Option.some.inj h)
    rw [List.filterMap_append, examinedLine_idleLine]
    rfl
  · obtain ⟨-, rfl⟩ := Prod.mk.inj (Option.some.inj h)
    rw [List.filterMap_append, examinedLine_waitIdleCompletion]
    rfl
  · cases h

theorem examinedLine_other {s t : ImapIdle.State} {label : ImapIdle.Label}
    {es : List ImapIdle.Event} (h : ImapIdle.step s label = some (t, es))
    (other : ∀ line, label ≠ .line line) : es.filterMap examinedLine = [] := by
  cases label with
  | line line => exact absurd rfl (other line)
  | wrote | readFailed | timedOut | refresh | shutdownChanged =>
    simp only [ImapIdle.step] at h
    split at h <;> cases h <;> rfl

theorem readLine_nil (reader : Reader) : ∃ error, readLine reader [] = .error error := by
  rw [readLine]
  split
  · exact ⟨_, rfl⟩
  · exact ⟨_, rfl⟩

/-- A line is handed on when it holds something, within the limit, and can be decoded. -/
theorem readLine_ok {reader : Reader} {line : List UInt8} {text : Line}
    (h : readLine reader line = .ok text) :
    line ≠ [] ∧ exhausted reader line = false ∧ decodeLine line = some text := by
  refine ⟨?_, ?_, ?_⟩
  · rintro rfl
    obtain ⟨error, he⟩ := readLine_nil reader
    rw [he] at h
    cases h
  · cases hx : exhausted reader line with
    | false => rfl
    | true =>
      simp only [readLine, hx] at h
      split at h
      · cases h
      · split at h <;> cases h
  · simp only [readLine] at h
    split at h
    · cases h
    · rename_i decoded hd
      split at h
      · cases h
      split at h
      · cases h
      · rw [decodeLine, hd, Option.map_some, Except.ok.inj h]

theorem window_prefix (reader : Reader) (taken buffer : List UInt8) :
    ∃ rest, buffer = window reader taken buffer ++ rest := by
  cases reader with
  | unlimited => exact ⟨[], (List.append_nil _).symm⟩
  | limited => exact ⟨_, (List.take_append_drop _ _).symm⟩

/-- A poll moves bytes; a read that is done has a complete line, or all it may take, or
the end of the stream. -/
theorem pollRead_spec (reader : Reader) (closed : Bool) {taken : List UInt8}
    (openTaken : Open isLf taken) (buffer : List UInt8) :
    let polled := pollRead reader closed taken buffer
    taken ++ buffer = polled.line ++ polled.rest ∧
      if polled.ready then
        Complete isLf polled.line ∨ Open isLf polled.line ∧
          (exhausted reader polled.line = true ∨ closed = true ∧ polled.rest = [])
      else Open isLf polled.line := by
  obtain ⟨rest, hw⟩ := window_prefix reader taken buffer
  generalize hs : window reader taken buffer = seen at hw
  simp only [pollRead, hs]
  cases hc : cut isLf seen with
  | some next =>
    obtain ⟨piece, after⟩ := next
    obtain ⟨rfl, complete⟩ := cut_eq_some hc
    refine ⟨?_, ?_⟩
    · rw [hw]
      simp
    · rw [if_pos rfl]
      exact Or.inl (complete.prepend openTaken)
  | none =>
    have openLine : Open isLf (taken ++ seen) := openTaken.append (cut_eq_none hc)
    refine ⟨?_, ?_⟩
    · rw [hw]
      simp
    · dsimp only
      by_cases ready : (exhausted reader (taken ++ seen) ||
          (closed && (buffer.drop seen.length).isEmpty)) = true
      · rw [if_pos ready]
        refine Or.inr ⟨openLine, ?_⟩
        simpa only [Bool.or_eq_true, Bool.and_eq_true, List.isEmpty_iff] using ready
      · rw [if_neg ready]
        exact openLine

theorem Whole.of_eq {v w : State} (h : Whole w) (examined : v.examined = w.examined)
    (closed : w.closed = true → v.closed = true)
    (drained : w.taken ++ w.buffer = [] → w.closed = true → v.taken ++ v.buffer = []) :
    Whole v := by
  rcases h with complete | ⟨lines, last, he, complete, nonempty, openLast, hc, hd⟩
  · exact Or.inl (by rwa [examined])
  · exact Or.inr ⟨lines, last, by rw [examined, he], complete, nonempty, openLast, closed hc,
      drained hd hc⟩

theorem Sound.running {tr : List ImapIdle.Event} {w : State} (h : Sound tr w)
    {label : ImapIdle.Label} {next : ImapIdle.State × List ImapIdle.Event}
    (hs : ImapIdle.step w.session label = some next) : Open isLf w.taken := by
  rcases h.unfinished with ⟨result, ended⟩ | unfinished
  · rw [step_of_ended ended] at hs
    cases hs
  · exact unfinished

/-- A step of the session that reads no line. -/
theorem sound_advance {tr es : List ImapIdle.Event} {w v : State} {label : ImapIdle.Label}
    (old : Sound tr w) (other : ∀ line, label ≠ .line line)
    (h : advance w label = some (v, es)) : Sound (tr ++ es) v := by
  obtain ⟨t, hs, rfl⟩ := advance_some h
  refine ⟨old.kept, old.whole.of_eq rfl id (fun hd _ => hd), ?_, Or.inr (old.running hs)⟩
  rw [List.filterMap_append, examinedLine_other hs other, List.append_nil]
  exact old.texts

theorem sound_chunk {tr : List ImapIdle.Event} {w : State} (old : Sound tr w)
    (running : ¬ w.closed = true) (bytes : List UInt8) :
    Sound tr { w with received := w.received ++ bytes, buffer := w.buffer ++ bytes } := by
  refine ⟨?_, old.whole.of_eq rfl id fun _ hc => absurd hc running, old.texts, old.unfinished⟩
  rw [old.kept]
  simp only [List.append_assoc]

theorem sound_close {tr : List ImapIdle.Event} {w : State} (old : Sound tr w) :
    Sound tr { w with closed := true } :=
  ⟨old.kept, old.whole.of_eq rfl (fun _ => rfl) (fun hd _ => hd), old.texts, old.unfinished⟩

/-- A read goes on with what the poll has taken. -/
theorem sound_pending {tr : List ImapIdle.Event} {w : State} (old : Sound tr w)
    {line rest : List UInt8} (moved : w.taken ++ w.buffer = line ++ rest)
    (openLine : Open isLf line) : Sound tr { w with buffer := rest, taken := line } := by
  refine ⟨?_, old.whole.of_eq rfl id fun hd _ => ?_, old.texts, Or.inr openLine⟩
  · rw [old.kept, moved]
  · rw [← moved]
    exact hd

/-- A read fails, and the session ends. -/
theorem sound_failed {tr es : List ImapIdle.Event} {w v : State} (old : Sound tr w)
    {line rest : List UInt8} (moved : w.taken ++ w.buffer = line ++ rest) {error : ImapError}
    (h : advance { w with buffer := rest, taken := line } (.readFailed error) = some (v, es)) :
    Sound (tr ++ es) v := by
  obtain ⟨t, hs, rfl⟩ := advance_some h
  refine ⟨?_, old.whole.of_eq rfl id fun hd _ => ?_, ?_, Or.inl (readFailed_ends hs)⟩
  · show w.received = w.examined.flatten ++ (line ++ rest)
    rw [old.kept, moved]
  · show line ++ rest = []
    rw [← moved]
    exact hd
  · rw [List.filterMap_append, examinedLine_other hs (by simp), List.append_nil]
    exact old.texts

/-- A line is looked at: it is complete, or it is all that a closed stream has left. -/
theorem sound_line {tr es : List ImapIdle.Event} {w v : State} (old : Sound tr w)
    {line rest : List UInt8} (moved : w.taken ++ w.buffer = line ++ rest) {text : Line}
    (nonempty : line ≠ []) (decoded : decodeLine line = some text)
    (ends : Complete isLf line ∨ Open isLf line ∧ w.closed = true ∧ rest = [])
    (h : advance { w with buffer := rest, taken := [], examined := w.examined ++ [line] }
      (.line text) = some (v, es)) : Sound (tr ++ es) v := by
  obtain ⟨t, hs, rfl⟩ := advance_some h
  have complete : ∀ l ∈ w.examined, Complete isLf l := by
    rcases old.whole with complete | ⟨-, -, -, -, -, -, -, drained⟩
    · exact complete
    · rw [moved] at drained
      exact absurd (List.append_eq_nil_iff.mp drained).1 nonempty
  refine ⟨?_, ?_, ?_, Or.inr (by simp [Open])⟩
  · show w.received = (w.examined ++ [line]).flatten ++ ([] ++ rest)
    rw [old.kept, moved]
    simp
  · rcases ends with whole | ⟨openLine, closed, rfl⟩
    · left
      intro l hl
      rcases List.mem_append.mp hl with hl | hl
      · exact complete l hl
      · rw [List.mem_singleton.mp hl]
        exact whole
    · exact Or.inr ⟨w.examined, line, rfl, complete, nonempty, openLine, closed, rfl⟩
  · show (w.examined ++ [line]).map decodeLine = _
    rw [List.filterMap_append, examinedLine_line hs, List.map_append, List.map_append, old.texts,
      List.map_singleton, List.map_singleton, decoded]

theorem sound_poll {tr es : List ImapIdle.Event} {w v : State} {reader : Reader}
    (old : Sound tr w) (running : Open isLf w.taken) (h : poll w reader = some (v, es)) :
    Sound (tr ++ es) v := by
  obtain ⟨moved, ends⟩ := pollRead_spec reader w.closed running w.buffer
  simp only [poll] at h
  generalize pollRead reader w.closed w.taken w.buffer = polled at h moved ends
  by_cases ready : polled.ready = true
  · rw [if_pos ready] at h ends
    cases hl : readLine reader polled.line with
    | error error =>
      rw [hl] at h
      exact sound_failed old moved h
    | ok text =>
      rw [hl] at h
      obtain ⟨nonempty, within, decoded⟩ := readLine_ok hl
      refine sound_line old moved nonempty decoded ?_ h
      rcases ends with complete | ⟨openLine, tooLong | atEnd⟩
      · exact Or.inl complete
      · rw [within] at tooLong
        cases tooLong
      · exact Or.inr ⟨openLine, atEnd⟩
  · rw [if_neg ready] at h ends
    obtain ⟨rfl, rfl⟩ := Prod.mk.inj (Option.some.inj h)
    rw [List.append_nil]
    exact sound_pending old moved ends

/-- Only a dropped read that has taken something loses bytes. -/
theorem sound_step {tr es : List ImapIdle.Event} {w v : State} {label : Label}
    (old : Sound tr w) (uncut : Uncut w label) (h : step w label = some (v, es)) :
    Sound (tr ++ es) v := by
  cases label with
  | chunk bytes =>
    simp only [step] at h
    split at h
    · cases h
    · rename_i running
      obtain ⟨rfl, rfl⟩ := Prod.mk.inj (Option.some.inj h)
      rw [List.append_nil]
      exact sound_chunk old running bytes
  | close =>
    obtain ⟨rfl, rfl⟩ := Prod.mk.inj (Option.some.inj h)
    rw [List.append_nil]
    exact sound_close old
  | poll =>
    obtain ⟨reads, hr, hp⟩ := Option.bind_eq_some_iff.mp h
    refine sound_poll old ?_ hp
    rcases old.unfinished with ⟨result, ended⟩ | unfinished
    · rw [ended] at hr
      cases hr
    · exact unfinished
  | ioFailed source => exact sound_advance old (by simp) h
  | wrote result => exact sound_advance old (by simp) h
  | timedOut => exact sound_advance old (by simp) h
  | refresh =>
    have same : { w with taken := [] } = w := by rw [← uncut]
    rw [step, same] at h
    exact sound_advance old (by simp) h
  | shutdownChanged stop =>
    have same : { w with taken := [] } = w := by rw [← uncut]
    rw [step, same] at h
    exact sound_advance old (by simp) h

theorem sound_start (tags : Nat) (notifyOnConnect initialReady : Bool) :
    Sound [] (State.start tags notifyOnConnect initialReady) :=
  ⟨rfl, Or.inl (by simp [State.start]), rfl, Or.inr (by simp [State.start, Open])⟩

/-- A step of the bytes is a step of the session, or does not concern it. -/
theorem step_session {w v : State} {label : Label} {es : List ImapIdle.Event}
    (h : step w label = some (v, es)) :
    v.session = w.session ∧ es = [] ∨
      ∃ move, ImapIdle.step w.session move = some (v.session, es) := by
  have moves : ∀ {u : State} {move : ImapIdle.Label}, advance u move = some (v, es) →
      u.session = w.session → ∃ move, ImapIdle.step w.session move = some (v.session, es) := by
    intro u move ha hu
    obtain ⟨t, hs, rfl⟩ := advance_some ha
    exact ⟨move, hu ▸ hs⟩
  cases label with
  | chunk bytes =>
    simp only [step] at h
    split at h
    · cases h
    · obtain ⟨rfl, rfl⟩ := Prod.mk.inj (Option.some.inj h)
      exact Or.inl ⟨rfl, rfl⟩
  | close =>
    obtain ⟨rfl, rfl⟩ := Prod.mk.inj (Option.some.inj h)
    exact Or.inl ⟨rfl, rfl⟩
  | poll =>
    obtain ⟨reads, -, hp⟩ := Option.bind_eq_some_iff.mp h
    simp only [poll] at hp
    split at hp
    · split at hp
      · exact Or.inr (moves hp rfl)
      · exact Or.inr (moves hp rfl)
    · obtain ⟨rfl, rfl⟩ := Prod.mk.inj (Option.some.inj hp)
      exact Or.inl ⟨rfl, rfl⟩
  | ioFailed source => exact Or.inr (moves h rfl)
  | wrote result => exact Or.inr (moves h rfl)
  | timedOut => exact Or.inr (moves h rfl)
  | refresh => exact Or.inr (moves h rfl)
  | shutdownChanged stop => exact Or.inr (moves h rfl)

variable {tags : Nat} {notifyOnConnect initialReady : Bool} {labels : List Label} {w : State}
  {tr : List ImapIdle.Event}

/-- Every run over the bytes is a run of the session, with the same events. -/
theorem session_run (run : exec step (State.start tags notifyOnConnect initialReady) labels
    = some (w, tr)) :
    ∃ moves, exec ImapIdle.step (ImapIdle.State.start tags notifyOnConnect initialReady) moves
      = some (w.session, tr) :=
  exec_component State.session (fun _ _ _ _ hs => (step_session hs).symm) run

/-- The session looks at the lines of the received stream, and loses no byte, if and only if
no read is dropped after it has taken bytes. -/
theorem lines_are_framed_iff_uncut (run : exec step
    (State.start tags notifyOnConnect initialReady) labels = some (w, tr)) :
    Throughout step Framed (State.start tags notifyOnConnect initialReady) labels ↔
      Meets step Uncut (State.start tags notifyOnConnect initialReady) labels := by
  constructor
  · intro framed
    refine meets_of_throughout ?_ run framed
    intro past s label t es before after hs
    have lost : ∀ {move}, advance { s with taken := [] } move = some (t, es) → s.taken = [] := by
      intro move ha
      obtain ⟨session, -, rfl⟩ := advance_some ha
      have same : s.examined.flatten ++ (s.taken ++ s.buffer)
          = s.examined.flatten ++ ([] ++ s.buffer) := before.kept.symm.trans after.kept
      exact List.append_cancel_right (List.append_cancel_left same)
    cases label with
    | refresh => exact lost hs
    | shutdownChanged stop => exact lost hs
    | chunk | close | poll | ioFailed | wrote | timedOut => trivial
  · intro meets
    exact throughout_of_meets (fun _ _ _ _ _ old uncut hs => sound_step old uncut hs)
      (fun _ _ sound => sound.framed) (sound_start tags notifyOnConnect initialReady) meets

private def bytes (s : String) : List UInt8 := s.toUTF8.data.toList

/-- A refresh with a line half received: before its end arrives, or after it was read. -/
private def exampleRefresh (early late : List Label) : List Label :=
  [.wrote (.ok ()), .chunk (bytes "+ idl"), .poll, .chunk (bytes "ing\r\n* 1 EX"), .poll, .poll]
    ++ early ++ [.refresh, .wrote (.ok ())] ++ late

theorem example_refresh_between_lines :
    let r := (exec step (State.start 2 false true)
      (exampleRefresh [.chunk (bytes "ISTS\r\n"), .poll] [])).get (by decide +kernel)
    r.1.examined = [bytes "+ idling\r\n", bytes "* 1 EXISTS\r\n"] ∧ Framed r.2 r.1 := by
  intro r
  have run := (Option.some_get (by decide +kernel : (exec step (State.start 2 false true)
    (exampleRefresh [.chunk (bytes "ISTS\r\n"), .poll] [])).isSome = true)).symm
  have uncut : Meets step Uncut (State.start 2 false true)
      (exampleRefresh [.chunk (bytes "ISTS\r\n"), .poll] []) := by decide +kernel
  exact ⟨by decide +kernel, (lines_are_framed_iff_uncut run).mpr uncut _ [] _ _
    (List.append_nil _).symm run⟩

/-- The refresh drops the read that has taken `* 1 EX`; the session then reads `ISTS`. -/
theorem refresh_cuts_line :
    let r := (exec step (State.start 2 false true)
      (exampleRefresh [] [.chunk (bytes "ISTS\r\n"), .poll])).get (by decide +kernel)
    ¬ Framed r.2 r.1 := by
  intro r framed
  exact absurd framed.first (by decide +kernel)

end ImapWire

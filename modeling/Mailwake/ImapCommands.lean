import Mailwake.QuotedString
import Mailwake.ImapConformance

/-!
# The arguments of LOGIN and EXAMINE

A reader of commands takes one line that ends with CRLF, its tag, its word and the quoted strings
after it. It reads every LOGIN and EXAMINE that a session writes back to the arguments the session
was given. A value that cannot stand in a line ends the session before the command is written.
-/
namespace ImapCommands
open ImapLine ImapSession Transition

def isLineEnd (c : Char) : Bool := c = '\r' || c = '\n'

/-- What stands before the CRLF of a text that is one line. -/
def oneLine (text : Line) : Option Line :=
  if text = text.takeWhile (fun c => !isLineEnd c) ++ "\r\n".toList then
    some (text.takeWhile fun c => !isLineEnd c)
  else none

def isSpace (c : Char) : Bool := c = ' '

/-- The tag, the word and the arguments of a command; nothing else may stand in its line. -/
def readCommand (text : Line) : Option (Line × Line × List Line) :=
  (oneLine text).bind fun body =>
    (stripPrefix (body.dropWhile fun c => !isSpace c) [' ']).bind fun rest =>
      (QuotedString.unquoteAll '\x22' '\\' ' ' (rest.dropWhile fun c => !isSpace c)).map
        fun arguments =>
          (body.takeWhile fun c => !isSpace c, rest.takeWhile fun c => !isSpace c, arguments)

/-- What a command with arguments is meant to say. -/
def meaning : Command → Option (Line × Line × List Line)
  | .login tag username password => some (tag, "LOGIN".toList, [username, password])
  | .examine tag mailbox => some (tag, "EXAMINE".toList, [mailbox])
  | .authenticate _ | .idle _ | .done | .response _ => none

section Reading
variable {tag word text : Line} {arguments : List Line}

/-- A word that the reader takes whole. -/
def Plain (word : Line) : Prop := ∀ c ∈ word, isSpace c = false ∧ isLineEnd c = false

theorem plain_of_all {word : Line} (h : word.all (fun c => !isSpace c && !isLineEnd c) = true) :
    Plain word := by
  intro c mem
  simpa using List.all_eq_true.mp h c mem

theorem plain_formatTag (n : Nat) : Plain (formatTag n) := by
  intro c mem
  rcases ResponseForms.mem_formatTag mem with rfl | digit
  · decide
  · refine ⟨?_, ?_⟩
    · refine Bool.eq_false_iff.mpr fun space => ?_
      rw [of_decide_eq_true space] at digit
      cases digit
    · refine Bool.eq_false_iff.mpr fun ends => ?_
      rw [isLineEnd, Bool.or_eq_true, decide_eq_true_eq, decide_eq_true_eq] at ends
      rcases ends with rfl | rfl <;> cases digit

theorem valid_iff (value : Line) :
    validImapString value = true ↔ ∀ c ∈ value, isLineEnd c = false := by
  simp [validImapString, isLineEnd]

theorem quoteImap_eq (value : Line) : quoteImap value = QuotedString.quote '\x22' '\\' value := by
  simp [quoteImap, QuotedString.quote, QuotedString.escaped]

theorem oneLine_crlf (unbroken : ∀ c ∈ text, isLineEnd c = false) :
    oneLine (text ++ "\r\n".toList) = some text := by
  have body : (text ++ "\r\n".toList).takeWhile (fun c => !isLineEnd c) = text := by
    rw [List.takeWhile_append_of_pos (by simpa using unbroken)]
    simp [isLineEnd]
  rw [oneLine, body, if_pos rfl]

/-- The only line end of a line is its CRLF. -/
theorem unbroken_of_oneLine {body : Line} (h : oneLine text = some body) :
    text = body ++ "\r\n".toList ∧ ∀ c ∈ body, isLineEnd c = false := by
  rw [oneLine] at h
  split at h
  · rename_i split
    cases h
    refine ⟨split, fun c mem => ?_⟩
    simpa using List.mem_takeWhile_imp mem
  · cases h

/-- The first word ends at the first space. -/
theorem takeWhile_plain (plain : Plain word) {rest : Line}
    (stops : rest = [] ∨ ∃ r, rest = ' ' :: r) :
    (word ++ rest).takeWhile (fun c => !isSpace c) = word ∧
      (word ++ rest).dropWhile (fun c => !isSpace c) = rest := by
  have unspaced : ∀ c ∈ word, (!isSpace c) = true := fun c mem => by simp [(plain c mem).1]
  rw [List.takeWhile_append_of_pos unspaced, List.dropWhile_append_of_pos unspaced]
  rcases stops with rfl | ⟨r, rfl⟩ <;> simp [isSpace]

theorem quoteAll_unbroken (valid : ∀ value ∈ arguments, validImapString value = true) :
    ∀ c ∈ QuotedString.quoteAll '\x22' '\\' ' ' arguments, isLineEnd c = false := by
  intro c mem
  obtain ⟨value, inside, mem⟩ := List.mem_flatMap.mp mem
  rcases List.mem_cons.mp mem with rfl | mem
  · decide
  · rcases QuotedString.mem_quote mem with rfl | rfl | mem
    · decide
    · decide
    · exact (valid_iff value).mp (valid value inside) c mem

/-- Any arguments without a line end are read back. -/
theorem readCommand_quoteAll (first : Plain tag) (second : Plain word)
    (valid : ∀ value ∈ arguments, validImapString value = true) :
    readCommand (tag ++ ' ' :: (word ++ QuotedString.quoteAll '\x22' '\\' ' ' arguments) ++
      "\r\n".toList) = some (tag, word, arguments) := by
  have unbroken : ∀ c ∈ tag ++ ' ' :: (word ++ QuotedString.quoteAll '\x22' '\\' ' ' arguments),
      isLineEnd c = false := by
    intro c mem
    rw [List.mem_append, List.mem_cons, List.mem_append] at mem
    rcases mem with mem | rfl | mem | mem
    · exact (first c mem).2
    · decide
    · exact (second c mem).2
    · exact quoteAll_unbroken valid c mem
  have stops : QuotedString.quoteAll '\x22' '\\' ' ' arguments = [] ∨
      ∃ r, QuotedString.quoteAll '\x22' '\\' ' ' arguments = ' ' :: r := by
    cases arguments with
    | nil => exact Or.inl rfl
    | cons value rest => exact Or.inr ⟨_, rfl⟩
  obtain ⟨tagRead, tagLeft⟩ := takeWhile_plain first (Or.inr ⟨_, rfl⟩)
  obtain ⟨wordRead, wordLeft⟩ := takeWhile_plain second stops
  have read : QuotedString.unquoteAll '\x22' '\\' ' '
      (QuotedString.quoteAll '\x22' '\\' ' ' arguments) = some arguments :=
    QuotedString.unquoteAll_quoteAll (by decide) arguments
  rw [readCommand, oneLine_crlf unbroken, Option.bind_some, tagLeft, tagRead]
  simp only [stripPrefix, startsWith, List.isPrefixOf, beq_self_eq_true, Bool.and_self, if_true,
    List.length_cons, List.length_nil, List.drop_succ_cons, List.drop_zero, Option.bind_some,
    wordRead, wordLeft, read, Option.map_some]

theorem text_login (tag username password : Line) : (Command.login tag username password).text =
    tag ++ " LOGIN ".toList ++ quoteImap username ++ [' '] ++ quoteImap password ++
      "\r\n".toList := rfl

theorem text_examine (tag mailbox : Line) : (Command.examine tag mailbox).text =
    tag ++ " EXAMINE ".toList ++ quoteImap mailbox ++ "\r\n".toList := rfl

theorem readCommand_login (n : Nat) {username password : Line}
    (user : validImapString username = true) (secret : validImapString password = true) :
    readCommand (Command.login (formatTag n) username password).text =
      some (formatTag n, "LOGIN".toList, [username, password]) := by
  have text : (Command.login (formatTag n) username password).text =
      formatTag n ++ ' ' :: ("LOGIN".toList ++
        QuotedString.quoteAll '\x22' '\\' ' ' [username, password]) ++ "\r\n".toList := by
    have word : " LOGIN ".toList = ' ' :: ("LOGIN".toList ++ [' ']) := rfl
    simp only [text_login, quoteImap_eq, QuotedString.quoteAll, word, List.flatMap_cons,
      List.flatMap_nil, List.append_nil, List.append_assoc, List.cons_append, List.nil_append]
  rw [text]
  exact readCommand_quoteAll (plain_formatTag n) (plain_of_all rfl) (by simp [user, secret])

theorem readCommand_examine (n : Nat) {mailbox : Line} (valid : validImapString mailbox = true) :
    readCommand (Command.examine (formatTag n) mailbox).text =
      some (formatTag n, "EXAMINE".toList, [mailbox]) := by
  have text : (Command.examine (formatTag n) mailbox).text =
      formatTag n ++ ' ' :: ("EXAMINE".toList ++
        QuotedString.quoteAll '\x22' '\\' ' ' [mailbox]) ++ "\r\n".toList := by
    have word : " EXAMINE ".toList = ' ' :: ("EXAMINE".toList ++ [' ']) := rfl
    simp only [text_examine, quoteImap_eq, QuotedString.quoteAll, word, List.flatMap_cons,
      List.flatMap_nil, List.append_nil, List.append_assoc, List.cons_append, List.nil_append]
  rw [text]
  exact readCommand_quoteAll (plain_formatTag n) (plain_of_all rfl) (by simp [valid])

/-- A command is known from its meaning. -/
theorem meaning_injective {first second : Command} {said : Line × Line × List Line}
    (h : meaning first = some said) (k : meaning second = some said) : first = second := by
  have same : meaning first = meaning second := h.trans k.symm
  have said : (meaning first).isSome = true := by rw [h]; rfl
  clear h k
  cases first with
  | login | examine => cases second <;> simp_all [meaning]
  | authenticate | idle | done | response => cases said

end Reading

section Writing
variable {session : Session} {s t : State} {label : Label} {es : List Event} {command : Command}

/-- Where a session gets the arguments of what it writes. -/
inductive Sent (session : Session) (labels : List Label) : Command → Prop where
  | login (n : Nat) (password : Line) : .credentials (.ok (.password password)) ∈ labels →
      validImapString session.username = true → validImapString password = true →
      Sent session labels (.login (formatTag n) session.username password)
  | examine (n : Nat) : validImapString session.mailbox = true →
      Sent session labels (.examine (formatTag n) session.mailbox)
  | bare (command : Command) : meaning command = none → Sent session labels command

theorem Sent.mono {first second : List Label} (more : first ⊆ second)
    (sent : Sent session first command) : Sent session second command := by
  cases sent with
  | login n password given user secret => exact .login n password (more given) user secret
  | examine n valid => exact .examine n valid
  | bare command bare => exact .bare command bare

theorem sent_examineMailbox {labels : List Label}
    (mem : .wrote command ∈ (examineMailbox session s).2) : Sent session labels command := by
  rw [examineMailbox] at mem
  split at mem
  · rename_i valid
    cases List.mem_singleton.mp mem
    exact .examine _ valid
  · cases mem

theorem sent_authenticate {credentials : Credentials}
    (mem : .wrote command ∈ (authenticate session s credentials).2) :
    Sent session [.credentials (.ok credentials)] command := by
  cases credentials with
  | xoauth2 token =>
    cases List.mem_singleton.mp mem
    exact .bare _ rfl
  | password password =>
    rw [authenticate] at mem
    split at mem
    · rename_i user
      split at mem
      · rename_i secret
        cases List.mem_singleton.mp mem
        exact .login _ password (List.mem_singleton_self _) user secret
      · cases mem
    · cases mem

theorem sent_authenticating {labels : List Label} {tag : Nat} {line : Line} {now : Authenticating}
    (mem : .wrote command ∈ (authenticating session s tag line now).2) :
    Sent session labels command := by
  cases now with
  | continuation response =>
    rw [authenticating] at mem
    split at mem
    · cases List.mem_singleton.mp mem
      exact .bare _ rfl
    · split at mem <;> cases mem
  | completion =>
    rw [authenticating] at mem
    split at mem
    · cases List.mem_singleton.mp mem
      exact .bare _ rfl
    · split at mem
      · exact sent_examineMailbox mem
      · split at mem <;> cases mem
  | login =>
    rw [authenticating] at mem
    split at mem
    · exact sent_examineMailbox mem
    · split at mem <;> cases mem

theorem meaning_begun {pc : ImapIdle.Pc} (mem : .wrote command ∈ begun pc) :
    meaning command = none := by
  cases pc with
  | sendingIdle tag => cases List.mem_singleton.mp mem; rfl
  | sendingDone tag stopping => cases List.mem_singleton.mp mem; rfl
  | _ => cases mem

/-- What a step writes, it writes with arguments from the session or from its own label. -/
theorem sent_turn {next : State × List Event} (turn : Turn session s label next)
    (mem : .wrote command ∈ next.2) : Sent session [label] command := by
  cases turn with
  | greeted line pc =>
    rcases List.mem_cons.mp mem with same | mem
    · cases same
    · rw [readGreeting] at mem
      split at mem
      · cases mem
      · split at mem <;> cases mem
  | answered line tag now pc =>
    rcases List.mem_cons.mp mem with same | mem
    · cases same
    · exact sent_authenticating mem
  | examined line tag pc =>
    rcases List.mem_cons.mp mem with same | mem
    · cases same
    · rw [examining] at mem
      split at mem
      · cases List.mem_singleton.mp mem
        exact .bare _ rfl
      · split at mem <;> cases mem
  | provided greeting credentials pc => exact sent_authenticate mem
  | idled idle label next pc h =>
    obtain ⟨after, -, rfl⟩ := Option.map_eq_some_iff.mp h
    rcases List.mem_append.mp mem with mem | mem
    · obtain ⟨event, -, same⟩ := List.mem_filterMap.mp mem
      cases event <;> cases same
    · exact .bare command (meaning_begun mem)
  | unread | timedOut | sentAuth | sentExamine | unsent | unprovided | dropped => cases mem

/-- Nothing was written. -/
def Unwritten (tr : List Event) : Prop := ∀ command, .wrote command ∉ tr

/-- Whether the session has yet to write its first command. -/
def opening : Pc → Bool
  | .greeting | .credentials _ => true
  | _ => false

/-- Whether the session is finished. -/
def finished : Pc → Bool
  | .ended _ | .dropped => true
  | _ => false

theorem unwritten_readGreeting (line : Line) : (readGreeting s line).2 = [] := by
  rw [readGreeting]
  split
  · rfl
  · split <;> rfl

theorem opening_examineMailbox : opening (examineMailbox session s).1.pc = false := by
  rw [examineMailbox]
  split <;> rfl

theorem opening_authenticating {tag : Nat} {line : Line} {now : Authenticating}
    (later : opening s.pc = false) :
    opening (authenticating session s tag line now).1.pc = false := by
  cases now with
  | continuation response =>
    rw [authenticating]
    split
    · rfl
    · split
      · rfl
      · exact later
  | completion =>
    rw [authenticating]
    split
    · rfl
    · split
      · exact opening_examineMailbox
      · split
        · rfl
        · exact later
  | login =>
    rw [authenticating]
    split
    · exact opening_examineMailbox
    · split
      · rfl
      · exact later

theorem opening_authenticate (credentials : Credentials) :
    opening (authenticate session s credentials).1.pc = false := by
  cases credentials with
  | xoauth2 token => rfl
  | password password =>
    rw [authenticate]
    split
    · split <;> rfl
    · rfl

/-- Until it has credentials the session writes nothing. -/
theorem opening_turn {next : State × List Event} (turn : Turn session s label next)
    (early : opening next.1.pc = true) : opening s.pc = true ∧ Unwritten next.2 := by
  cases turn with
  | greeted line pc =>
    refine ⟨by rw [pc]; rfl, fun command mem => ?_⟩
    rw [hear, unwritten_readGreeting] at mem
    cases List.mem_singleton.mp mem
  | answered line tag now pc =>
    rw [hear, opening_authenticating (by rw [pc]; rfl)] at early
    cases early
  | examined line tag pc =>
    rw [hear, examining] at early
    split at early
    · cases early
    · split at early
      · cases early
      · rw [pc] at early
        cases early
  | provided greeting credentials pc =>
    rw [opening_authenticate] at early
    cases early
  | idled idle label next pc h =>
    obtain ⟨after, -, rfl⟩ := Option.map_eq_some_iff.mp h
    cases early
  | unread | timedOut | sentAuth | sentExamine | unsent | unprovided | dropped => cases early

/-- A finished session stays so and writes nothing. -/
theorem finished_turn {next : State × List Event} (past : finished s.pc = true)
    (turn : Turn session s label next) : finished next.1.pc = true ∧ next.2 = [] := by
  cases turn with
  | greeted _ pc | answered _ _ _ pc | examined _ _ pc | sentAuth _ _ pc | sentExamine _ pc
  | provided _ _ pc | unprovided _ _ pc | idled _ _ _ pc =>
    rw [pc] at past
    cases past
  | unread | timedOut | unsent | dropped => exact ⟨rfl, rfl⟩

end Writing

section Runs
variable {session : Session} {s t : State} {labels : List Label} {tr : List Event}

theorem finished_run (past : finished s.pc = true)
    (run : exec (step session) s labels = some (t, tr)) : finished t.pc = true ∧ tr = [] := by
  have both : finished t.pc = true ∧ [] ++ tr = [] := by
    refine exec_invariant_of_meets (P := fun es u => finished u.pc = true ∧ es = []) ?_
      ⟨past, rfl⟩ (meets_of_forall (fun _ _ => trivial) s labels) run
    rintro es u label v fs ⟨past, rfl⟩ _ h
    have next := finished_turn past (turn_of_step h)
    exact ⟨next.1, by simpa using next.2⟩
  exact both

theorem opening_run (run : exec (step session) (State.start session) labels = some (t, tr))
    (early : opening t.pc = true) : Unwritten tr := by
  refine exec_invariant (P := fun es u => opening u.pc = true → Unwritten es) ?_ ?_ run early
  · intro es u label v fs old h early
    obtain ⟨before, silent⟩ := opening_turn (turn_of_step h) early
    intro command mem
    rcases List.mem_append.mp mem with mem | mem
    · exact old before command mem
    · exact silent command mem
  · exact fun _ command mem => absurd mem (by simp)

theorem sent_run (run : exec (step session) s labels = some (t, tr)) {command : Command}
    (mem : .wrote command ∈ tr) : Sent session labels command := by
  have start : ∀ command, .wrote command ∈ ([] : List Event) → Sent session [] command := by
    intro command mem
    cases mem
  have all : ∀ command, .wrote command ∈ [] ++ tr → Sent session ([] ++ labels) command := by
    refine exec_history (P := fun as es _ => ∀ command, .wrote command ∈ es →
      Sent session as command) ?_ start run
    intro as es u label v fs old h command mem
    rcases List.mem_append.mp mem with mem | mem
    · exact (old command mem).mono (List.subset_append_left _ _)
    · exact (sent_turn (turn_of_step h) mem).mono (List.subset_append_right _ _)
  exact all command mem

theorem readCommand_sent {command : Command} {said : Line × Line × List Line}
    (sent : Sent session labels command) (h : meaning command = some said) :
    readCommand command.text = some said := by
  cases sent with
  | login n password given user secret => exact (readCommand_login n user secret).trans h
  | examine n valid => exact (readCommand_examine n valid).trans h
  | bare command bare =>
    rw [bare] at h
    cases h

/-- What a reader takes for a command is one line. -/
theorem oneLine_of_readCommand {text : Line} {said : Line × Line × List Line}
    (h : readCommand text = some said) :
    ∃ body, text = body ++ "\r\n".toList ∧ ∀ c ∈ body, isLineEnd c = false := by
  obtain ⟨body, line, -⟩ := Option.bind_eq_some_iff.mp h
  exact ⟨body, unbroken_of_oneLine line⟩

theorem answer_of_password {u : State} {fs : List Event} {password : Line}
    (h : step session s (.credentials (.ok (.password password))) = some (u, fs)) :
    ∃ greeting, s.pc = .credentials greeting ∧
      authenticate session s (.password password) = (u, fs) := by
  generalize next : (u, fs) = last at h
  cases turn_of_step h with
  | provided greeting credentials pc => exact ⟨greeting, pc, rfl⟩

end Runs

/-- A name that ends with a backslash, and an empty mailbox name. -/
private def quotedSession : Session := ⟨"a\x22b\\".toList, [], id, false, true⟩

private def quotedLogin : List Label :=
  [.line "* OK ready".toList, .credentials (.ok (.password "\x22 \x22".toList))]

end ImapCommands

import Mailwake.ImapSession
import Mailwake.Simulation

/-!
# What a session reveals of its secret

Two runs of the same session on the same server lines, with different secrets of the same kind:
they take the same steps, end with the same error and write the same commands, but for the one
command that carries the secret.
-/
namespace SecretFlow
open ImapLine ImapSession Transition

/-- Credentials that only differ in a secret which can be sent at all, or in one which cannot. -/
inductive Alike : Credentials → Credentials → Prop where
  | token (token other : Line) : Alike (.xoauth2 token) (.xoauth2 other)
  | password {password other : Line} : validImapString password = validImapString other →
      Alike (.password password) (.password other)

inductive AlikeLabel : Label → Label → Prop where
  | same (label : Label) : AlikeLabel label label
  | credentials {credentials other : Credentials} : Alike credentials other →
      AlikeLabel (.credentials (.ok credentials)) (.credentials (.ok other))

/-- The commands that carry the one secret and the other. -/
inductive Carries (session : Session) : Command → Command → Prop where
  | token (token other : Line) : Carries session (.response (xoauth2Response session token))
      (.response (xoauth2Response session other))
  | password (tag password other : Line) :
      Carries session (.login tag session.username password) (.login tag session.username other)

/-- The traces are the same but for one command that carries the secret. -/
inductive OnceApart (session : Session) (tr tr' : List Event) : Prop where
  | same : tr = tr' → OnceApart session tr tr'
  | apart (before after : List Event) {command other : Command} : Carries session command other →
      tr = before ++ .wrote command :: after → tr' = before ++ .wrote other :: after →
      OnceApart session tr tr'

/-- The credentials have been used. -/
def provided : Pc → Bool
  | .greeting => false
  | .credentials _ => false
  | _ => true

/-- The secret waits for the continuation of AUTHENTICATE. -/
inductive Pending (session : Session) : Pc → Pc → Prop where
  | sending (tag : Nat) (token other : Line) : Pending session
      (.sendingAuth tag (.continuation (xoauth2Response session token)))
      (.sendingAuth tag (.continuation (xoauth2Response session other)))
  | waiting (tag : Nat) (token other : Line) : Pending session
      (.authenticating tag (.continuation (xoauth2Response session token)))
      (.authenticating tag (.continuation (xoauth2Response session other)))

/-- How two runs stand to each other: no secret is known yet, it is held back, or it is gone. -/
inductive Related (session : Session) (tr tr' : List Event) (s s' : State) : Prop where
  | before : provided s.pc = false → s = s' → tr = tr' → Related session tr tr' s s'
  | pending : s.tags = s'.tags → Pending session s.pc s'.pc → tr = tr' →
      Related session tr tr' s s'
  | after : provided s.pc = true → s = s' → OnceApart session tr tr' → Related session tr tr' s s'

variable {session : Session} {s t : State} {es tr tr' : List Event} {label : Label}

theorem OnceApart.append (h : OnceApart session tr tr') (es : List Event) :
    OnceApart session (tr ++ es) (tr' ++ es) := by
  cases h with
  | same same => exact .same (by rw [same])
  | apart before after carries first second =>
    refine .apart before (after ++ es) carries ?_ ?_
    · rw [first, List.append_assoc, List.cons_append]
    · rw [second, List.append_assoc, List.cons_append]

theorem provided_examineMailbox : provided (examineMailbox session s).1.pc = true := by
  rw [examineMailbox]
  split <;> rfl

theorem provided_authenticating (tag : Nat) (line : Line) (now : Authenticating)
    (past : provided s.pc = true) :
    provided (authenticating session s tag line now).1.pc = true := by
  cases now with
  | continuation response =>
    rw [authenticating]
    split
    · rfl
    split
    · rfl
    · exact past
  | completion =>
    rw [authenticating]
    split
    · rfl
    split
    · exact provided_examineMailbox
    split
    · rfl
    · exact past
  | login =>
    rw [authenticating]
    split
    · exact provided_examineMailbox
    split
    · rfl
    · exact past

/-- The credentials are asked for once. -/
theorem provided_step {next : State × List Event} (past : provided s.pc = true)
    (h : step session s label = some next) :
    provided next.1.pc = true ∧ ∀ result, label ≠ .credentials result := by
  cases turn_of_step h with
  | greeted line pc => simp [provided, pc] at past
  | answered line tag now pc => exact ⟨provided_authenticating tag line now past, by simp⟩
  | examined line tag pc =>
    refine ⟨?_, by simp⟩
    simp only [hear, examining]
    split
    · rfl
    split
    · rfl
    · exact past
  | unread error pc => exact ⟨rfl, by simp⟩
  | timedOut name named => exact ⟨rfl, by simp⟩
  | sentAuth tag next pc => exact ⟨rfl, by simp⟩
  | sentExamine tag pc => exact ⟨rfl, by simp⟩
  | unsent error pc => exact ⟨rfl, by simp⟩
  | provided greeting credentials pc => simp [provided, pc] at past
  | unprovided greeting source pc => simp [provided, pc] at past
  | idled idle label next pc stepped =>
    obtain ⟨next, -, rfl⟩ := Option.map_eq_some_iff.mp stepped
    exact ⟨rfl, by simp⟩
  | dropped => exact ⟨rfl, by simp⟩

/-- Both runs take the same step to the same state. -/
theorem related_together (same : OnceApart session tr tr') (known : provided t.pc = true) :
    Related session (tr ++ es) (tr' ++ es) t t :=
  .after known rfl (same.append es)

/-- The secret becomes known to both runs. -/
theorem related_authenticate {credentials other : Credentials} (alike : Alike credentials other)
    (tr : List Event) : Related session (tr ++ (authenticate session s credentials).2)
      (tr ++ (authenticate session s other).2) (authenticate session s credentials).1
      (authenticate session s other).1 := by
  cases alike with
  | token token other => exact .pending rfl (.sending _ token other) rfl
  | password valid =>
    rename_i password other
    by_cases named : validImapString session.username = true
    · by_cases clean : validImapString other = true
      · simp only [authenticate, if_pos named, valid, if_pos clean]
        exact .after rfl rfl (.apart tr [] (.password _ password other) rfl rfl)
      · simp only [authenticate, if_pos named, valid, if_neg clean]
        exact .after rfl rfl (.same rfl)
    · simp only [authenticate, if_neg named]
      exact .after rfl rfl (.same rfl)

/-- While the secret is held back both runs go on alike, until it is sent or given up. -/
theorem related_pending {tags : Nat} {pc pc' : Pc} (pending : Pending session pc pc')
    (h : step session ⟨tags, pc⟩ label = some (t, es)) :
    ∃ t' es', step session ⟨tags, pc'⟩ label = some (t', es') ∧
      Related session (tr ++ es) (tr ++ es') t t' := by
  have ended : ∀ pc, provided pc = true → ∀ es, Related session (tr ++ es) (tr ++ es) ⟨tags, pc⟩
      ⟨tags, pc⟩ := fun pc known es => .after known rfl (.same rfl)
  cases pending with
  | sending tag token other =>
    cases label with
    | timedOut =>
      cases h
      exact ⟨_, _, rfl, ended _ rfl _⟩
    | wrote result =>
      cases result with
      | ok value =>
        cases h
        exact ⟨_, _, rfl, .pending rfl (.waiting tag token other) rfl⟩
      | error error =>
        cases h
        exact ⟨_, _, rfl, ended _ rfl _⟩
    | drop =>
      cases h
      exact ⟨_, _, rfl, ended _ rfl _⟩
    | line | readFailed | idle => cases h
    | credentials result => cases result <;> cases h
  | waiting tag token other =>
    cases label with
    | line line =>
      simp only [step, authenticating] at h ⊢
      by_cases plus : startsWith line ['+'] = true
      · rw [if_pos plus] at h ⊢
        cases h
        refine ⟨_, _, rfl, .after rfl rfl ?_⟩
        refine .apart (tr ++ [.read line]) [] (.token token other) ?_ ?_
        · simp [State.goto]
        · simp [State.goto]
      · rw [if_neg plus] at h ⊢
        by_cases rejected : isTaggedCompletion line (formatTag tag) = true
        · rw [if_pos rejected] at h ⊢
          cases h
          exact ⟨_, _, rfl, ended _ rfl _⟩
        · rw [if_neg rejected] at h ⊢
          cases h
          exact ⟨_, _, rfl, .pending rfl (.waiting tag token other) rfl⟩
    | readFailed error =>
      cases h
      exact ⟨_, _, rfl, ended _ rfl _⟩
    | timedOut =>
      cases h
      exact ⟨_, _, rfl, ended _ rfl _⟩
    | wrote result => cases result <;> cases h
    | drop =>
      cases h
      exact ⟨_, _, rfl, ended _ rfl _⟩
    | idle => cases h
    | credentials result => cases result <;> cases h

theorem related_step {s' : State} {a b : Label} (related : Related session tr tr' s s')
    (alike : AlikeLabel a b) (h : step session s a = some (t, es)) :
    ∃ t' es', step session s' b = some (t', es') ∧
      Related session (tr ++ es) (tr' ++ es') t t' := by
  cases related with
  | before fresh same trace =>
    obtain rfl := same
    obtain rfl := trace
    cases alike with
    | same =>
      refine ⟨t, es, h, ?_⟩
      cases known : provided t.pc with
      | true => exact .after known rfl (.same rfl)
      | false => exact .before known rfl rfl
    | credentials like =>
      rename_i credentials other
      obtain ⟨tags, pc⟩ := s
      cases pc with
      | credentials greeting =>
        have next : authenticate session ⟨tags, .credentials greeting⟩ credentials = (t, es) :=
          Option.some.inj h
        refine ⟨_, _, rfl, ?_⟩
        have both : Related session
            (tr ++ (authenticate session ⟨tags, .credentials greeting⟩ credentials).2)
            (tr ++ (authenticate session ⟨tags, .credentials greeting⟩ other).2)
            (authenticate session ⟨tags, .credentials greeting⟩ credentials).1
            (authenticate session ⟨tags, .credentials greeting⟩ other).1 :=
          related_authenticate like tr
        rwa [next] at both
      | _ => cases h
  | pending tags held trace =>
    obtain ⟨n, pc⟩ := s
    obtain ⟨n', pc'⟩ := s'
    obtain rfl : n = n' := tags
    obtain rfl := trace
    cases alike with
    | same => exact related_pending held h
    | credentials like =>
      cases held <;> cases h
  | after known same once =>
    obtain rfl := same
    obtain ⟨later, other⟩ := provided_step known h
    cases alike with
    | same => exact ⟨t, es, h, related_together once later⟩
    | credentials => exact absurd rfl (other _)

theorem ended_iff_of_related {s' : State} (related : Related session tr tr' s s')
    (error : SessionError) : s.pc = .ended error ↔ s'.pc = .ended error := by
  cases related with
  | before _ same _ => rw [same]
  | pending _ held _ =>
    obtain ⟨n, pc⟩ := s
    obtain ⟨n', pc'⟩ := s'
    cases held <;> simp
  | after _ same _ => rw [same]

/-- With another secret of the same kind a session takes the same steps against the same server,
ends with the same error, and writes the same commands but for at most one, which carries the
secret. -/
theorem session_reveals_its_secret_once {labels labels' : List Label}
    (alike : List.Forall₂ AlikeLabel labels labels')
    (run : exec (step session) (.start session) labels = some (t, tr)) :
    ∃ t' tr', exec (step session) (.start session) labels' = some (t', tr') ∧
      OnceApart session tr tr' ∧ ∀ error, t.pc = .ended error ↔ t'.pc = .ended error := by
  have start : Related session [] [] (.start session) (.start session) := by
    cases known : provided (State.start session).pc with
    | true => exact .after known rfl (.same rfl)
    | false => exact .before known rfl rfl
  obtain ⟨t', tr', other, related⟩ :=
    Simulation.exec_lockstep (Related session) AlikeLabel
      (fun _ _ _ _ _ _ _ _ related alike h => related_step related alike h) start alike run
  refine ⟨t', tr', other, ?_, ended_iff_of_related related⟩
  cases related with
  | before _ _ same => exact .same same
  | pending _ _ same => exact .same same
  | after _ _ once => exact once

private def exampleSession : Session :=
  ⟨"me".toList, "INBOX".toList, fun text => text, false, false⟩

private def exampleLogin (password : String) : List Label :=
  [.line "* OK ready".toList, .credentials (.ok (.password password.toList)), .wrote (.ok ()),
    .line "A0001 OK done".toList]

theorem example_login_reveals_its_password_once : ∃ t' tr',
    exec (step exampleSession) (.start exampleSession) (exampleLogin "hunter2") =
      some (t', tr') ∧
    OnceApart exampleSession ((exec (step exampleSession) (.start exampleSession)
      (exampleLogin "secret")).get (by decide +kernel)).2 tr' := by
  have run := (Option.some_get (by decide +kernel : (exec (step exampleSession)
    (.start exampleSession) (exampleLogin "secret")).isSome = true)).symm
  have alike : List.Forall₂ AlikeLabel (exampleLogin "secret") (exampleLogin "hunter2") :=
    .cons (.same _) (.cons (.credentials (.password (by decide))) (.cons (.same _)
      (.cons (.same _) .nil)))
  obtain ⟨t', tr', other, once, -⟩ := session_reveals_its_secret_once alike run
  exact ⟨t', tr', other, once⟩

end SecretFlow

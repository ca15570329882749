import Mailwake.AcceptedConfig
import Mailwake.GmailApiPoll

/-!
# Credentials

`credentials_for` takes its secret from the configuration or from a helper, as the method of
the account says.
-/
namespace Auth
open DaemonConfig Fallible

inductive Credentials where
  | xoauth2 (token : String)
  | password (password : String)
  deriving DecidableEq

/-- An `AuthError`: one of the helper, or `MissingAuthField`. -/
inductive CredentialsError where
  | helper (error : GmailApiPoll.AuthError)
  | missingAuthField (account : String) (method : AuthMethod)
  deriving DecidableEq

/-- The secret of a helper; `run` is `run_secret_command` with its limits. -/
def helperSecret (run : String → Except GmailApiPoll.AuthError String) (account : AccountConfig) :
    Option String → Except CredentialsError String
  | some command => (run command).mapError .helper
  | none => .error (.missingAuthField account.name account.auth)

def credentialsFor (run : String → Except GmailApiPoll.AuthError String)
    (account : AccountConfig) : Except CredentialsError Credentials :=
  match account.auth with
  | .xoauth2Cmd => (helperSecret run account account.xoauth2Cmd).map .xoauth2
  | .passwordCmd => (helperSecret run account account.passwordCmd).map .password
  | .password =>
    match account.password with
    | some password => .ok (.password password)
    | none => .error (.missingAuthField account.name account.auth)

variable {run : String → Except GmailApiPoll.AuthError String} {account : AccountConfig}

theorem isSome_of_requireCmd {value : Option String} {field name : String} {auth : AuthMethod}
    (h : requireCmd value field name auth = .ok ()) : value.isSome = true := by
  cases value with
  | none => cases h
  | some value => rfl

theorem helperSecret_not_missing {command : Option String} (given : command.isSome = true)
    (name : String) (method : AuthMethod) :
    helperSecret run account command ≠ .error (.missingAuthField name method) := by
  obtain ⟨command, rfl⟩ := Option.isSome_iff_exists.mp given
  cases result : run command with
  | error error => simp [helperSecret, result, Except.mapError]
  | ok secret => simp [helperSecret, result, Except.mapError]

theorem map_error_iff {α β ε : Type} {x : Except ε α} {f : α → β} {error : ε} :
    x.map f = .error error ↔ x = .error error := by
  cases x <;> simp [Except.map]

/-- The field that an accepted account needs is there. -/
theorem credentialsFor_not_missing (valid : account.validateAuth = .ok ()) (name : String)
    (method : AuthMethod) :
    credentialsFor run account ≠ .error (.missingAuthField name method) := by
  rw [AccountConfig.validateAuth] at valid
  rw [credentialsFor]
  cases auth : account.auth with
  | xoauth2Cmd =>
    rw [auth] at valid
    obtain ⟨given, -⟩ := then_ok valid
    intro h
    exact helperSecret_not_missing (isSome_of_requireCmd given) name method (map_error_iff.mp h)
  | passwordCmd =>
    rw [auth] at valid
    obtain ⟨given, -⟩ := then_ok valid
    intro h
    exact helperSecret_not_missing (isSome_of_requireCmd given) name method (map_error_iff.mp h)
  | password =>
    rw [auth] at valid
    obtain ⟨given, -⟩ := then_ok valid
    cases password : account.password with
    | none =>
      rw [password] at given
      cases given
    | some password => simp

end Auth

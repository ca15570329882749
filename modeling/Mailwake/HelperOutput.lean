import Mailwake.ShellCapture
import Mailwake.GmailApiPoll
import Mailwake.FsState
import Mathlib.Data.List.DropRight

/-!
# What is made of a helper's output

`run_secret_command` and `ShellStateReader::read` turn the result of a shell run into a secret
and into a state. Both capture stdout only.
-/
namespace HelperOutput
open ShellProcess Transition Channel

def reauthRequiredExitCode : Int := 78

def exitSuccess (status : ExitStatus) : Bool := status.code = some 0

def describeStatus (status : ExitStatus) : String :=
  match status.code, status.signal with
  | some code, _ => s!"exit status {code}"
  | none, some signal => s!"signal {signal}"
  | none, none => "unknown status"

def trimTrailingCrlf (value : String) : String :=
  String.ofList (value.toList.rdropWhile fun c => c = '\r' || c = '\n')

def fromUtf8 (bytes : List UInt8) : Option String := String.fromUTF8? ⟨bytes.toArray⟩

/-- The source of an error after a successful spawn. -/
def errorSource : ShellProcessError → String
  | .wait source => source
  | .output source => source

/-- `run_secret_command` on the result of its run; `none` is its `unreachable!`. -/
def runSecretCommand (helperTimeout : Nat) (shell : Except ShellProcessError ShellRun) :
    Option (Except GmailApiPoll.AuthError String) :=
  match shell with
  | .error error => some (.error (.helperStart (errorSource error)))
  | .ok (.timedOut _) => some (.error (.helperTimedOut (helperTimeout / 1000)))
  | .ok (.cancelled _) => none
  | .ok (.outputLimitExceeded _ limit _) => some (.error (.helperOutputTooLarge limit))
  | .ok (.completed status output) =>
    some <|
      if exitSuccess status then
        match fromUtf8 output.stdout with
        | none => .error .helperOutputUtf8
        | some stdout =>
          let secret := trimTrailingCrlf stdout
          if secret.isEmpty then .error .emptySecret else .ok secret
      else if status.code = some reauthRequiredExitCode then .error .helperReauthRequired
      else .error (.helperFailed (describeStatus status))

/-- `ShellStateReader::read` on the result of its run. -/
def readState (timeout : Nat) (shell : Except ShellProcessError ShellRun) :
    Except FsState.StateReadError String :=
  match shell with
  | .error (.wait source) => .error (.wait source)
  | .error (.output source) => .error (.output source)
  | .ok (.completed status output) =>
    if exitSuccess status then
      match fromUtf8 output.stdout with
      | none => .error .utf8
      | some stdout => .ok (trimTrailingCrlf stdout)
    else .error (.failed (describeStatus status))
  | .ok (.timedOut _) => .error (.timedOut (timeout / 1000))
  | .ok (.cancelled _) => .error .cancelled
  | .ok (.outputLimitExceeded _ limit _) => .error (.outputTooLarge limit)

/-- The value is the text of the whole stream, and the shell exited with success. -/
def FromWhole (labels : List Label) (value : String) : Prop :=
  ∃ status text, exitSuccess status = true ∧ .shellExits status ∈ labels ∧
    fromUtf8 (written labels .stdout) = some text ∧ value = trimTrailingCrlf text

variable {captured : Stream → Bool} {limit : Option Nat} {labels : List Label} {tr : List Event}
  {timeout : Nat} {result : ShellRun} {value : String}

theorem completed_of_secret (h : runSecretCommand timeout (.ok result) = some (.ok value)) :
    ∃ status output text, result = .completed status output ∧ exitSuccess status = true ∧
      fromUtf8 output.stdout = some text ∧ value = trimTrailingCrlf text := by
  cases result with
  | timedOut output => cases h
  | cancelled output => cases h
  | outputLimitExceeded stream limit output => cases h
  | completed status output =>
    simp only [runSecretCommand, Option.some.injEq] at h
    split at h
    · rename_i success
      split at h
      · cases h
      · rename_i text decoded
        split at h
        · cases h
        · cases h
          exact ⟨status, output, text, rfl, success, decoded, rfl⟩
    · split at h <;> cases h

theorem completed_of_state (h : readState timeout (.ok result) = .ok value) :
    ∃ status output text, result = .completed status output ∧ exitSuccess status = true ∧
      fromUtf8 output.stdout = some text ∧ value = trimTrailingCrlf text := by
  cases result with
  | timedOut output => cases h
  | cancelled output => cases h
  | outputLimitExceeded stream limit output => cases h
  | completed status output =>
    simp only [readState] at h
    split at h
    · rename_i success
      split at h
      · cases h
      · rename_i text decoded
        cases h
        exact ⟨status, output, text, rfl, success, decoded, rfl⟩
    · cases h

theorem fromWhole_of_completed (classified : Classified captured limit labels tr result)
    (h : ∃ status output text, result = .completed status output ∧
      exitSuccess status = true ∧ fromUtf8 output.stdout = some text ∧
      value = trimTrailingCrlf text) : FromWhole labels value := by
  obtain ⟨status, output, text, rfl, success, decoded, rfl⟩ := h
  obtain ⟨exits, whole⟩ := classified.completed status output rfl
  obtain ⟨same, -⟩ := classified.complete .stdout (whole .stdout)
  exact ⟨status, text, success, exits, same ▸ decoded, rfl⟩

section Runs
variable {stdoutMode stderrMode : ShellStreamMode} {commandTimeout : Nat}
  {shutdown : Option (Watch Bool)} {s : State}

/-- The result of a run accounts for every byte that was read and says whether they exceed the
limit, and a secret or a state is built from the whole output of a shell that has exited. -/
theorem captured_output_is_classified (timeout : Nat) (value : String) (run : exec step
      (State.start stdoutMode stderrMode commandTimeout limit shutdown) labels = some (s, tr))
    (ended : s.pc = .gone (.returned (.ok result))) :
    Classified (captures · stdoutMode stderrMode) limit labels tr result ∧
      (runSecretCommand timeout (.ok result) = some (.ok value) → FromWhole labels value) ∧
      (readState timeout (.ok result) = .ok value → FromWhole labels value) := by
  obtain ⟨classified, -⟩ := (books_of_run run).2.finished result ended
  exact ⟨classified, fun h => fromWhole_of_completed classified (completed_of_secret h),
    fun h => fromWhole_of_completed classified (completed_of_state h)⟩

/-- A helper that prints its secret and a line end, one byte below the limit. -/
private def exampleHelper : List Label :=
  [.task .check, .write none .stdout [112, 119, 10], .task (.read .stdout 3),
    .shellExits ⟨some 0, none⟩, .task (.eof .stdout), .task .limitReceived, .task .check,
    .task .collected]

theorem example_secret_is_classified :
    let r := (exec step (State.start .capture .null 50 (some 4) none) exampleHelper).get
      (by decide +kernel)
    Classified (captures · .capture .null) (some 4) exampleHelper r.2
        (.completed ⟨some 0, none⟩ ⟨[112, 119, 10], [], false, false⟩) ∧
      FromWhole exampleHelper "pw" := by
  intro r
  have run := (Option.some_get (by decide +kernel : (exec step
    (State.start .capture .null 50 (some 4) none) exampleHelper).isSome = true)).symm
  have ended : r.1.pc =
      .gone (.returned (.ok (.completed ⟨some 0, none⟩ ⟨[112, 119, 10], [], false, false⟩))) := rfl
  obtain ⟨classified, secret, -⟩ := captured_output_is_classified 50 "pw" run ended
  exact ⟨classified, secret (by decide +kernel)⟩

end Runs

end HelperOutput

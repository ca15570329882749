import Mailwake.CommandReport
import Mailwake.DaemonConfig
import Mailwake.LossyText
import Mailwake.ShellCapture

/-!
# What a command's output comes to

`run_named_shell_command_with_policy` around one shell run: how the output policy of a command
sets the streams of the run, and what of the captured output is logged when the run is over.
-/
namespace CommandOutput
open ShellProcess CommandReport DaemonConfig Transition Channel LossyText

section Policy
variable (policy : CommandOutputPolicy)

def capturesOutput : Bool :=
  match policy.mode with
  | .failureTail | .tail | .debug => true
  | .silent | .journal => false

def streamsToJournal : Bool := policy.mode = .journal

/-- The mode of both streams. -/
def streamMode : ShellStreamMode :=
  if streamsToJournal policy then .inherit
  else if capturesOutput policy then .capture
  else .null

def outputLimit : Option Nat := if capturesOutput policy then some policy.maxBytes else none

end Policy

inductive CommandOutputReport where
  | captured (output : ShellCapturedOutput)
  | outputLimitExceeded (output : ShellCapturedOutput)

def CommandOutputReport.output : CommandOutputReport → ShellCapturedOutput
  | .captured output => output
  | .outputLimitExceeded output => output

structure CommandExecutionReport where
  outcome : CommandOutcome
  output : CommandOutputReport

/-- What `run_shell_command_with_policy` makes of a run; the timeout is in milliseconds. -/
def executionReport (commandTimeout : Nat) : ShellRun → CommandExecutionReport
  | .completed status output => ⟨.ofExitStatus status.code status.signal, .captured output⟩
  | .timedOut output => ⟨.timedOutAfter (commandTimeout * 1000000), .captured output⟩
  | .cancelled output => ⟨.wasCancelled, .captured output⟩
  | .outputLimitExceeded _ limit output => ⟨.exceededLimit limit, .outputLimitExceeded output⟩

/-- `CommandOutcome::description`. -/
def description (outcome : CommandOutcome) : String :=
  if outcome.timedOut then s!"timed out after {outcome.timeout.getD 0 / 1000000000} seconds"
  else if outcome.cancelled then "cancelled by shutdown"
  else if outcome.outputLimitExceeded then
    s!"output exceeded {outcome.outputLimit.getD 0} byte limit"
  else
    match outcome.code, outcome.signal with
    | some code, _ => s!"exit status {code}"
    | none, some signal => s!"signal {signal}"
    | none, none => "unknown status"

structure OutputSummary where
  stdoutBytes : Nat
  stderrBytes : Nat
  stdoutTruncated : Bool
  stderrTruncated : Bool
  captured : Bool
  suppressed : Bool
  journal : Bool
  deriving DecidableEq

structure OutputTails where
  stdout : Option (List Char)
  stderr : Option (List Char)
  deriving DecidableEq

def OutputTails.isEmpty (tails : OutputTails) : Bool := tails.stdout.isNone && tails.stderr.isNone

def tailLines (output : List UInt8) (maxLines : Nat) : Option (List Char) :=
  if output.isEmpty || maxLines = 0 then none
  else
    let lines := lastLines maxLines (fromUtf8Lossy output)
    if lines.isEmpty then none else some (join lines)

namespace CommandOutputReport

def summary (report : CommandOutputReport) (policy : CommandOutputPolicy) : OutputSummary :=
  match report with
  | .captured output =>
    ⟨output.stdout.length, output.stderr.length, output.stdoutTruncated, output.stderrTruncated,
      capturesOutput policy, policy.mode = .silent, streamsToJournal policy⟩
  | .outputLimitExceeded output =>
    ⟨output.stdout.length, output.stderr.length, output.stdoutTruncated, output.stderrTruncated,
      true, false, false⟩

def tails (report : CommandOutputReport) (policy : CommandOutputPolicy) : OutputTails :=
  ⟨tailLines report.output.stdout policy.tailLines, tailLines report.output.stderr policy.tailLines⟩

end CommandOutputReport

inductive OutputLogLevel where
  | info
  | warn
  | debug
  deriving DecidableEq

structure OutputLogPlan where
  level : OutputLogLevel
  tails : OutputTails

def shouldLogTail (policy : CommandOutputPolicy) (outcome : CommandOutcome) : Bool :=
  match policy.mode with
  | .silent | .journal => false
  | .failureTail => !outcome.success
  | .tail | .debug => true

def outputLogPlan (policy : CommandOutputPolicy) (outcome : CommandOutcome)
    (output : CommandOutputReport) : OutputLogPlan where
  level :=
    match policy.mode with
    | .debug => .debug
    | .tail => if outcome.success then .info else .warn
    | .failureTail => .warn
    | .silent | .journal => .debug
  tails := if shouldLogTail policy outcome then output.tails policy else ⟨none, none⟩

/-- The entries of the log that a run of a command leaves. -/
inductive LogEntry where
  | completed (success : Bool) (status : String) (summary : OutputSummary)
  | outputTail (level : OutputLogLevel) (lines : Nat) (stdout stderr : List Char)
  | couldNotRun (error : String) (suppressed journal : Bool)
  deriving DecidableEq

def logOutputTailIfNeeded (policy : CommandOutputPolicy) (outcome : CommandOutcome)
    (output : CommandOutputReport) : List LogEntry :=
  let plan := outputLogPlan policy outcome output
  if plan.tails.isEmpty then []
  else [.outputTail plan.level policy.tailLines (plan.tails.stdout.getD [])
    (plan.tails.stderr.getD [])]

def logCommandCompletion (policy : CommandOutputPolicy) (report : CommandExecutionReport) :
    List LogEntry :=
  [.completed report.outcome.success (description report.outcome) (report.output.summary policy)] ++
    logOutputTailIfNeeded policy report.outcome report.output

/-- The texts of `CommandError`. -/
def commandError : ShellProcessError → String
  | .wait source => s!"command could not be waited on: {source}"
  | .output source => s!"command output could not be collected: {source}"

def logCommandError (policy : CommandOutputPolicy) (error : String) : List LogEntry :=
  [.couldNotRun error (policy.mode = .silent) (policy.mode = .journal)]

/-- What the executor returns to its lane, and what it leaves in the log. -/
def runNamedShellCommandWithPolicy (policy : CommandOutputPolicy) (commandTimeout : Nat)
    (run : Except ShellProcessError ShellRun) : Except String CommandOutcome × List LogEntry :=
  match run with
  | .ok run =>
    let report := executionReport commandTimeout run
    (.ok report.outcome, logCommandCompletion policy report)
  | .error error => (.error (commandError error), logCommandError policy (commandError error))

variable {policy : CommandOutputPolicy}

theorem captures_streamMode (stream : Stream) :
    captures stream (streamMode policy) (streamMode policy) = capturesOutput policy := by
  obtain ⟨mode, maxBytes, tailLines⟩ := policy
  cases mode <;> cases stream <;> rfl

theorem capturesOutput_of_shouldLogTail {outcome : CommandOutcome}
    (h : shouldLogTail policy outcome = true) : capturesOutput policy = true := by
  unfold shouldLogTail at h
  unfold capturesOutput
  split at h <;> simp_all

/-- A tail is there just if there is something to show and room for a line. -/
theorem tailLines_isSome {output : List UInt8} {maxLines : Nat} :
    (tailLines output maxLines).isSome = true ↔ output ≠ [] ∧ 0 < maxLines := by
  rw [tailLines]
  split
  · rename_i none
    simp only [Bool.or_eq_true, List.isEmpty_iff, decide_eq_true_eq] at none
    simp only [Option.isSome_none, Bool.false_eq_true, false_iff, not_and]
    intro some
    rcases none with none | none
    · exact absurd none some
    · omega
  · rename_i some
    simp only [Bool.or_eq_true, List.isEmpty_iff, decide_eq_true_eq, not_or] at some
    have positive : 0 < maxLines := Nat.pos_of_ne_zero some.2
    have shown := (tail_lastLines positive (fromUtf8Lossy_ne_nil some.1)).1
    simp [shown, some.1, positive]

/-- What is logged of a stream that kept these bytes. -/
inductive Shown (maxLines : Nat) (kept : List UInt8) (text : List Char) : Prop where
  | nothing : kept = [] → text = [] → Shown maxLines kept text
  | tail : kept ≠ [] → Tail maxLines (fromUtf8Lossy kept) text →
      (∀ chars : List Char, kept = chars.flatMap String.utf8EncodeChar → Tail maxLines chars text) →
      Shown maxLines kept text

theorem shown_tailLines {maxLines : Nat} (positive : 0 < maxLines) (output : List UInt8) :
    Shown maxLines output ((tailLines output maxLines).getD []) := by
  by_cases none : output = []
  · exact .nothing none (by rw [none]; rfl)
  · have text := fromUtf8Lossy_ne_nil none
    obtain ⟨shown, tail⟩ := tail_lastLines positive text
    have same : tailLines output maxLines =
        some (join (lastLines maxLines (fromUtf8Lossy output))) := by
      rw [tailLines, if_neg (by simp [none, Nat.ne_of_gt positive])]
      simp [shown]
    rw [same, Option.getD_some]
    refine .tail none tail fun chars encoded => ?_
    rw [encoded, fromUtf8Lossy_utf8] at tail ⊢
    exact tail

/-- What the log says of a run of a command under its policy: sizes within the byte limit, and of
the output itself only the tails that the policy asks for. -/
inductive Told (policy : CommandOutputPolicy) (labels : List Label) (outcome : CommandOutcome) :
    LogEntry → Prop where
  | completed (summary : OutputSummary) :
      summary.stdoutBytes + summary.stderrBytes ≤ (outputLimit policy).getD 0 →
      Told policy labels outcome (.completed outcome.success (description outcome) summary)
  | outputTail (level : OutputLogLevel) (texts : Stream → List Char)
      (kept : Stream → List UInt8) : shouldLogTail policy outcome = true →
      (∀ stream, kept stream <+: written labels stream) →
      (kept .stdout).length + (kept .stderr).length ≤ policy.maxBytes →
      (∀ stream, Shown policy.tailLines (kept stream) (texts stream)) →
      Told policy labels outcome
        (.outputTail level policy.tailLines (texts .stdout) (texts .stderr))

section Runs
variable {commandTimeout : Nat} {shutdown : Option (Watch Bool)} {labels : List Label} {s : State}
  {tr : List Event} {result : ShellRun}

theorem output_executionReport (result : ShellRun) :
    (executionReport commandTimeout result).output.output = result.output := by
  cases result <;> rfl

theorem summary_sizes (report : CommandOutputReport) (policy : CommandOutputPolicy) :
    (report.summary policy).stdoutBytes = report.output.stdout.length ∧
      (report.summary policy).stderrBytes = report.output.stderr.length := by
  cases report <;> exact ⟨rfl, rfl⟩

/-- A stream without a reader task never gets one. -/
theorem absent_flow {t : State} {label : Label} {es : List Event} {stream : Stream}
    (absent : (s.pipes stream).task = .absent) (flow : Flow s label t es) :
    (t.pipes stream).task = .absent := by
  have apart : ∀ other, s.reads other = true → stream ≠ other := by
    rintro other reading rfl
    simp [State.reads, absent] at reading
  have moved : ∀ other pipe, stream ≠ other →
      ((s.setPipe other pipe).pipes stream).task = .absent := by
    intro other pipe ne
    rw [setPipe_pipes, if_neg ne]
    exact absent
  cases flow with
  | still still => rwa [still.pipes]
  | exited => exact absent
  | kept h => exact moved _ _ (apart _ (reads_of_pipe h))
  | exceeded h => exact moved _ _ (apart _ (reads_of_pipe h))
  | ended h => exact moved _ _ (apart _ (reads_of_pipe h))
  | broke reading => exact moved _ _ (apart _ reading)
  | wrote reading => exact moved _ _ (apart _ reading)

theorem absent_run {stdoutMode stderrMode : ShellStreamMode} {limit : Option Nat} {stream : Stream}
    (off : captures stream stdoutMode stderrMode = false)
    (run : exec step (State.start stdoutMode stderrMode commandTimeout limit shutdown) labels =
      some (s, tr)) : (s.pipes stream).task = .absent := by
  refine exec_state_invariant (P := fun s => (s.pipes stream).task = .absent) ?_ ?_ run
  · intro s label t es absent h
    exact absent_flow absent (flow_of_step h)
  · simp [State.start, off]

/-- What a run keeps is the beginning of what was written, within the limit of the policy. -/
theorem bytes_kept (run : exec step (State.start (streamMode policy) (streamMode policy)
      commandTimeout (outputLimit policy) shutdown) labels = some (s, tr))
    (ended : s.pc = .gone (.returned (.ok result))) :
    (∀ stream, result.output.bytes stream <+: written labels stream) ∧
      result.output.stdout.length + result.output.stderr.length ≤ (outputLimit policy).getD 0 := by
  obtain ⟨ledger, course⟩ := books_of_run run
  obtain ⟨classified, -⟩ := course.finished result ended
  refine ⟨fun stream => (classified.prefixes stream).1.trans (classified.prefixes stream).2, ?_⟩
  rw [classified.accounted]
  cases captured : capturesOutput policy with
  | true =>
    have limit : outputLimit policy = some policy.maxBytes := if_pos captured
    rw [limit]
    exact Nat.min_le_left _ _
  | false =>
    have quiet : ∀ stream, readBytes tr stream = [] := by
      intro stream
      have absent := absent_run ((captures_streamMode stream).trans captured) run
      have tape := ledger.tape stream
      generalize s.pipes stream = pipe at absent tape
      obtain ⟨unread, task⟩ := pipe
      obtain rfl : task = .absent := absent
      cases tape with
      | absent _ none => exact none
      | broken failed => cases failed
    have limit : outputLimit policy = none := if_neg (by simp [captured])
    simp [limit, granted, readTotal, quiet]

/-- A tail is logged just if the policy asks for it and there is something to show. -/
theorem tail_logged_iff (outcome : CommandOutcome) (output : CommandOutputReport) :
    logOutputTailIfNeeded policy outcome output ≠ [] ↔
      shouldLogTail policy outcome = true ∧ 0 < policy.tailLines ∧
        ∃ stream, output.output.bytes stream ≠ [] := by
  have some : ∀ bytes, (tailLines bytes policy.tailLines).isNone = false ↔
      bytes ≠ [] ∧ 0 < policy.tailLines := by
    intro bytes
    rw [← tailLines_isSome, Option.isNone_eq_false_iff]
  cases asked : shouldLogTail policy outcome with
  | false => simp [logOutputTailIfNeeded, outputLogPlan, asked, OutputTails.isEmpty]
  | true =>
    simp only [logOutputTailIfNeeded, outputLogPlan, asked, if_true, OutputTails.isEmpty,
      CommandOutputReport.tails, ne_eq, ite_eq_left_iff, List.cons_ne_nil, imp_false,
      Bool.not_eq_true, not_not, Bool.and_eq_false_iff, some, true_and]
    constructor
    · rintro (⟨out, positive⟩ | ⟨err, positive⟩)
      · exact ⟨positive, .stdout, out⟩
      · exact ⟨positive, .stderr, err⟩
    · rintro ⟨positive, stream, kept⟩
      cases stream with
      | stdout => exact Or.inl ⟨kept, positive⟩
      | stderr => exact Or.inr ⟨kept, positive⟩

theorem told_tail (outcome : CommandOutcome) (output : CommandOutputReport)
    (prefixes : ∀ stream, output.output.bytes stream <+: written labels stream)
    (limit : output.output.stdout.length + output.output.stderr.length ≤
      (outputLimit policy).getD 0) :
    ∀ entry ∈ logOutputTailIfNeeded policy outcome output, Told policy labels outcome entry := by
  intro entry mem
  have logged := (tail_logged_iff outcome output).mp (List.ne_nil_of_mem mem)
  obtain ⟨asked, positive, -⟩ := logged
  rw [outputLimit, if_pos (capturesOutput_of_shouldLogTail asked)] at limit
  rw [logOutputTailIfNeeded] at mem
  split at mem
  · cases mem
  · obtain rfl := List.mem_singleton.mp mem
    simp only [outputLogPlan, asked, if_true]
    refine .outputTail _
      (fun stream => (tailLines (output.output.bytes stream) policy.tailLines).getD [])
      output.output.bytes asked prefixes limit fun stream => shown_tailLines positive _

private def examplePolicy : CommandOutputPolicy := ⟨.failureTail, 16, 1⟩

/-- A command that prints two lines and fails. -/
private def exampleCommand : List Label :=
  [.task .check, .write none .stdout [97, 10, 98, 10], .task (.read .stdout 4),
    .shellExits ⟨some 1, none⟩, .task (.eof .stdout), .task (.eof .stderr), .task .limitReceived,
    .task .check, .task .collected]

end Runs

end CommandOutput

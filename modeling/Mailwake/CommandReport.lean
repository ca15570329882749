import Mathlib.Data.List.Basic

/-!
# What a command execution reports

The outcome of one shell command, the report a command lane makes of it, and the
messages of one request's lifecycle channel. Durations are whole nanoseconds.
-/
namespace CommandReport

structure CommandOutcome where
  success : Bool
  code : Option Int
  signal : Option Int
  timedOut : Bool
  cancelled : Bool
  timeout : Option Nat
  outputLimitExceeded : Bool
  outputLimit : Option Nat
  deriving DecidableEq

namespace CommandOutcome

/-- The outcome of a shell that exited by itself. -/
def ofExitStatus (code signal : Option Int) : CommandOutcome :=
  ⟨code == some 0, code, signal, false, false, none, false, none⟩

def timedOutAfter (timeout : Nat) : CommandOutcome :=
  ⟨false, none, none, true, false, some timeout, false, none⟩

def wasCancelled : CommandOutcome :=
  ⟨false, none, none, false, true, none, false, none⟩

def exceededLimit (limit : Nat) : CommandOutcome :=
  ⟨false, none, none, false, false, none, true, some limit⟩

end CommandOutcome

inductive CommandRunReport where
  | outcome (result : CommandOutcome)
  | error (text : String)
  | cancelled
  deriving DecidableEq

def CommandRunReport.success : CommandRunReport → Bool
  | .outcome result => result.success
  | _ => false

inductive CommandLifecycle where
  | started
  | finished (report : CommandRunReport)
  deriving DecidableEq

/-- `run_command` wraps what the executor returned; it never reports `cancelled`. -/
def executorReport : Except String CommandOutcome → CommandRunReport
  | .ok result => .outcome result
  | .error text => .error text

theorem executorReport_ne_cancelled (result : Except String CommandOutcome) :
    executorReport result ≠ .cancelled := by
  cases result <;> simp [executorReport]

end CommandReport

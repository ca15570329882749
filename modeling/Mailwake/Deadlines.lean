import Mathlib.Algebra.Ring.Nat
import Mailwake.Daemon
import Mailwake.HelperCheck
import Mailwake.FsState

/-!
# Deadlines from configured durations

An instant is a signed 64-bit number of seconds that is not negative, and a fraction. A deadline
that does not fit is a panic of the task that computes it. Durations are whole seconds, as the
configuration has them.
-/
namespace Deadlines
open DaemonConfig Daemon

structure Instant where
  secs : Nat
  nanos : Nat
  inRange : secs < 2 ^ 63
  fraction : nanos < 10 ^ 9

namespace Instant

/-- `Instant + Duration`; `none` is the panic. -/
def add (t : Instant) (seconds : Nat) : Option Instant :=
  if h : t.secs + seconds < 2 ^ 63 then some ⟨t.secs + seconds, t.nanos, h, t.fraction⟩ else none

def nanoseconds (t : Instant) : Nat := t.secs * 10 ^ 9 + t.nanos

def earlier (t u : Instant) : Instant := if t.nanoseconds ≤ u.nanoseconds then t else u

variable {t u : Instant} {seconds : Nat}

theorem isSome_add : (t.add seconds).isSome = true ↔ t.secs + seconds < 2 ^ 63 := by
  rw [add]
  split
  · rename_i fits
    exact ⟨fun _ => fits, fun _ => rfl⟩
  · rename_i large
    exact ⟨nofun, fun fits => absurd fits large⟩

/-- An addition that does not panic is the addition of natural numbers. -/
theorem nanoseconds_add (h : t.add seconds = some u) :
    u.nanoseconds = t.nanoseconds + seconds * 10 ^ 9 := by
  rw [add] at h
  split at h
  · cases h
    simp only [nanoseconds]
    omega
  · cases h

theorem nanoseconds_earlier : (t.earlier u).nanoseconds = min t.nanoseconds u.nanoseconds := by
  rw [earlier]
  split <;> omega

end Instant

/-- `Duration + Duration`, in unsigned 64-bit seconds. -/
def durationAdd (duration other : Nat) : Option Nat :=
  if duration + other < 2 ^ 64 then some (duration + other) else none

/-- The deadline of `run_shell_process_with_streams`. -/
def deadline (now : Instant) (commandTimeout : Nat) : Option Instant := now.add commandTimeout

/-- `run_at` of `wait_for_min_interval`, if the interval is not zero. -/
def runAt (lastFinished : Instant) (minInterval : Nat) : Option (Option Instant) :=
  if minInterval = 0 then some none else (lastFinished.add minInterval).map some

/-- `due` of `wait_for_settled_batch`. -/
def due (first last : Instant) (debounce maxDebounce : Nat) : Option Instant :=
  (last.add debounce).bind fun quiet =>
    (first.add maxDebounce).map fun latest => quiet.earlier latest

/-- `settle_until` of `wait_for_quiet`, if there is a settle period. -/
def settleUntil (now : Instant) (settle : Nat) : Option (Option Instant) :=
  if settle = 0 then some none else (now.add settle).map some

/-- What `await_task_shutdown` waits for each task; tokio's `timeout` saturates. -/
def shutdownGrace (config : Config) : Option Nat :=
  durationAdd (max (maxWatcherOperationTimeout config) (maxCommandTimeout config)) 5

/-- The daemon has a watcher that runs an auth helper. -/
inductive RunsHelper (config : Config) : Prop where
  | mailbox (account : AccountConfig) (mailbox : MailboxConfig) : account ∈ config.accounts →
      mailbox ∈ account.mailboxes → (HelperCheck.accountHelper account).isSome = true →
      RunsHelper config
  | imapIdle (source : ImapIdleSourceConfig) (account : AccountConfig) :
      .imapIdle source ∈ config.sources → findAccount config source = .ok account →
      (HelperCheck.accountHelper account).isSome = true → RunsHelper config
  | gmailApiPoll (source : GmailApiPollSourceConfig) : .gmailApiPoll source ∈ config.sources →
      RunsHelper config

/-- No deadline of a command, a helper or a source of the configuration that is computed up to the
given instant panics. Every command counts, whether or not a source triggers it. -/
structure Representable (config : Config) (now : Instant) : Prop where
  commands : ∀ spec ∈ runtimeCommandSpecs config, (deadline now spec.timeout).isSome = true
  lanes : ∀ spec ∈ runtimeCommandSpecs config, ∀ finished : Instant, finished.secs ≤ now.secs →
    (runAt finished spec.minInterval).isSome = true
  helpers : RunsHelper config → (deadline now config.authHelperTimeout).isSome = true
  readers : ∀ source, .fsState source ∈ config.sources → source.stateCmd.isSome = true →
    (deadline now config.commandTimeout).isSome = true
  batches : ∀ source, .fsState source ∈ config.sources → ∀ first last : Instant,
    first.secs ≤ now.secs → last.secs ≤ now.secs →
    (due first last (source.debounce config) (source.maxDebounce config)).isSome = true
  settles : ∀ source, .systemResume source ∈ config.sources →
    (settleUntil now source.settle).isSome = true
  grace : (shutdownGrace config).isSome = true

section Fields
variable (config : Config)

def helperDelays (account : AccountConfig) : List Nat :=
  (HelperCheck.accountHelper account).toList.map fun _ => config.authHelperTimeout

def accountDelays (account : AccountConfig) : List Nat :=
  account.mailboxes.flatMap fun _ =>
    [config.commandTimeout, config.minCommandInterval] ++ helperDelays config account

def commandDelays (command : CommandConfig) : List Nat :=
  [command.timeout config, command.minInterval config]

def sourceDelays : SourceConfig → List Nat
  | .imapIdle source =>
    (findAccount config source).toOption.toList.flatMap fun account => helperDelays config account
  | .gmailApiPoll _ => [config.authHelperTimeout]
  | .fsState source =>
    (source.stateCmd.toList.map fun _ => config.commandTimeout) ++
      [source.debounce config, source.maxDebounce config]
  | .systemResume source => [source.settle]

/-- The durations that are added to an instant somewhere, with their defaults. -/
def delays : List Nat :=
  config.accounts.flatMap (accountDelays config) ++
    config.commands.flatMap (commandDelays config) ++ config.sources.flatMap (sourceDelays config)

def longestDelay : Nat := (delays config).foldl max 0

def sourceSeconds : SourceConfig → List Nat
  | .imapIdle source => source.debounceSeconds.toList
  | .gmailApiPoll source =>
    source.debounceSeconds.toList ++ source.pollIntervalSeconds.toList ++
      source.apiTimeoutSeconds.toList
  | .fsState source => source.debounceSeconds.toList ++ source.maxDebounceSeconds.toList
  | .systemResume source => source.settleSeconds.toList

/-- Every number of seconds that is written in the configuration. -/
def writtenSeconds : List Nat :=
  config.defaultDebounceSeconds.toList ++ config.defaultMaxDebounceSeconds.toList ++
    config.authHelperTimeoutSeconds.toList ++ config.commandTimeoutSeconds.toList ++
    config.connectTimeoutSeconds.toList ++ config.imapOperationTimeoutSeconds.toList ++
    config.minCommandIntervalSeconds.toList ++ config.watcherStaleSeconds.toList ++
    config.idleRefreshSeconds.toList ++
    (config.accounts.flatMap fun account =>
      account.mailboxes.flatMap fun mailbox => mailbox.debounceSeconds.toList) ++
    (config.commands.flatMap fun command =>
      command.timeoutSeconds.toList ++ command.minIntervalSeconds.toList) ++
    config.sources.flatMap sourceSeconds

/-- TOML has no larger integers. -/
def FromToml : Prop := ∀ seconds ∈ writtenSeconds config, seconds < 2 ^ 63

end Fields

section Arithmetic
variable {t first last : Instant} {duration quiet latest : Nat}

theorem isSome_runAt : (runAt t duration).isSome = true ↔ t.secs + duration < 2 ^ 63 := by
  rw [runAt]
  split
  · rename_i none
    rw [none, Nat.add_zero]
    exact ⟨fun _ => t.inRange, fun _ => rfl⟩
  · rw [Option.isSome_map, Instant.isSome_add]

theorem isSome_settleUntil : (settleUntil t duration).isSome = true ↔ t.secs + duration < 2 ^ 63 :=
  isSome_runAt

theorem isSome_due : (due first last quiet latest).isSome = true ↔
    last.secs + quiet < 2 ^ 63 ∧ first.secs + latest < 2 ^ 63 := by
  rw [← Instant.isSome_add, ← Instant.isSome_add, due]
  cases last.add quiet with
  | none => simp
  | some u => simp

/-- The due time can be computed where those of the batch in nanoseconds fit. -/
theorem isSome_due_iff_fits {runner : FsState.FsStateRunner}
    (debounce : runner.debounce = quiet * 10 ^ 9)
    (maxDebounce : runner.maxDebounce = latest * 10 ^ 9) :
    (due first last quiet latest).isSome = true ↔
      FsState.DueFits runner ⟨first.nanoseconds, last.nanoseconds⟩ := by
  have early := first.fraction
  have late := last.fraction
  simp only [isSome_due, FsState.DueFits, FsState.clockEnd, debounce, maxDebounce,
    Instant.nanoseconds]
  omega

/-- A due time that can be computed is that of the batch in natural numbers. -/
theorem nanoseconds_due {runner : FsState.FsStateRunner} {u : Instant}
    (debounce : runner.debounce = quiet * 10 ^ 9)
    (maxDebounce : runner.maxDebounce = latest * 10 ^ 9)
    (h : due first last quiet latest = some u) :
    u.nanoseconds = FsState.due runner ⟨first.nanoseconds, last.nanoseconds⟩ := by
  rw [FsState.due, debounce, maxDebounce]
  obtain ⟨v, hv, h⟩ := Option.bind_eq_some_iff.mp h
  obtain ⟨w, hw, rfl⟩ := Option.map_eq_some_iff.mp h
  rw [Instant.nanoseconds_earlier, Instant.nanoseconds_add hv, Instant.nanoseconds_add hw]

end Arithmetic

section Accepted
variable {config : Config} {now : Instant} {duration : Nat}

theorem longestDelay_fits : now.secs + longestDelay config < 2 ^ 63 ↔
    ∀ duration ∈ delays config, now.secs + duration < 2 ^ 63 := by
  have range := now.inRange
  have each (duration : Nat) :
      now.secs + duration < 2 ^ 63 ↔ duration < 2 ^ 63 - now.secs := by omega
  simp only [each, longestDelay, foldl_max_lt_iff]
  exact and_iff_right (Nat.sub_pos_of_lt range)

theorem mem_helperDelays {account : AccountConfig} : duration ∈ helperDelays config account ↔
    (HelperCheck.accountHelper account).isSome = true ∧ duration = config.authHelperTimeout := by
  rw [helperDelays]
  cases HelperCheck.accountHelper account <;> simp

theorem mem_imapDelays {source : ImapIdleSourceConfig} :
    duration ∈ sourceDelays config (.imapIdle source) ↔
      ∃ account, findAccount config source = .ok account ∧
        duration ∈ helperDelays config account := by
  rw [sourceDelays]
  cases findAccount config source <;> simp [Except.toOption]

/-- Where each of the durations is added. -/
theorem mem_delays : duration ∈ delays config ↔
    (∃ spec ∈ runtimeCommandSpecs config,
      duration = spec.timeout ∨ duration = spec.minInterval) ∨
    (RunsHelper config ∧ duration = config.authHelperTimeout) ∨
    (∃ source, .fsState source ∈ config.sources ∧
      (source.stateCmd.isSome = true ∧ duration = config.commandTimeout ∨
        duration = source.debounce config ∨ duration = source.maxDebounce config)) ∨
    ∃ source, .systemResume source ∈ config.sources ∧ duration = source.settle := by
  simp only [delays, List.mem_append, List.mem_flatMap]
  constructor
  · rintro ((⟨account, listed, mem⟩ | ⟨command, listed, mem⟩) | ⟨source, listed, mem⟩)
    · obtain ⟨mailbox, own, mem⟩ := List.mem_flatMap.mp mem
      rcases List.mem_append.mp mem with mem | mem
      · refine Or.inl ⟨legacySpec config account mailbox, List.mem_append_left _
          (List.mem_flatMap.mpr ⟨account, listed, List.mem_map_of_mem own⟩), ?_⟩
        simpa [legacySpec] using mem
      · obtain ⟨given, same⟩ := mem_helperDelays.mp mem
        exact Or.inr (Or.inl ⟨.mailbox account mailbox listed own given, same⟩)
    · refine Or.inl ⟨commandSpec config command, List.mem_append_right _
        (List.mem_map_of_mem listed), ?_⟩
      simpa [commandDelays, commandSpec] using mem
    · cases source with
      | imapIdle source =>
        obtain ⟨account, found, mem⟩ := mem_imapDelays.mp mem
        obtain ⟨given, same⟩ := mem_helperDelays.mp mem
        exact Or.inr (Or.inl ⟨.imapIdle source account listed found given, same⟩)
      | gmailApiPoll source =>
        exact Or.inr (Or.inl ⟨.gmailApiPoll source listed, List.mem_singleton.mp mem⟩)
      | fsState source =>
        refine Or.inr (Or.inr (Or.inl ⟨source, listed, ?_⟩))
        rcases List.mem_append.mp mem with mem | mem
        · obtain ⟨command, given, rfl⟩ := List.mem_map.mp mem
          exact Or.inl ⟨Option.isSome_of_mem (Option.mem_toList.mp given), rfl⟩
        · exact Or.inr (by simpa using mem)
      | systemResume source =>
        exact Or.inr (Or.inr (Or.inr ⟨source, listed, List.mem_singleton.mp mem⟩))
  · rintro (⟨spec, listed, same⟩ | ⟨runs, same⟩ | ⟨source, listed, same⟩ | ⟨source, listed, rfl⟩)
    · rcases List.mem_append.mp listed with legacy | configured
      · obtain ⟨account, member, mem⟩ := List.mem_flatMap.mp legacy
        obtain ⟨mailbox, own, rfl⟩ := List.mem_map.mp mem
        refine Or.inl (Or.inl ⟨account, member, List.mem_flatMap.mpr
          ⟨mailbox, own, List.mem_append_left _ ?_⟩⟩)
        simpa [legacySpec] using same
      · obtain ⟨command, member, rfl⟩ := List.mem_map.mp configured
        refine Or.inl (Or.inr ⟨command, member, ?_⟩)
        simpa [commandDelays, commandSpec] using same
    · cases runs with
      | mailbox account mailbox listed own given =>
        exact Or.inl (Or.inl ⟨account, listed, List.mem_flatMap.mpr ⟨mailbox, own,
          List.mem_append_right _ (mem_helperDelays.mpr ⟨given, same⟩)⟩⟩)
      | imapIdle source account listed found given =>
        exact Or.inr ⟨_, listed, mem_imapDelays.mpr ⟨account, found,
          mem_helperDelays.mpr ⟨given, same⟩⟩⟩
      | gmailApiPoll source listed =>
        exact Or.inr ⟨_, listed, List.mem_singleton.mpr same⟩
    · refine Or.inr ⟨_, listed, ?_⟩
      rcases same with ⟨given, rfl⟩ | same
      · obtain ⟨command, given⟩ := Option.isSome_iff_exists.mp given
        exact List.mem_append_left _
          (List.mem_map.mpr ⟨command, Option.mem_toList.mpr given, rfl⟩)
      · exact List.mem_append_right _ (by simpa using same)
    · exact Or.inr ⟨_, listed, List.mem_singleton_self _⟩

theorem getD_lt {field : Option Nat} {default limit : Nat} (written : ∀ n ∈ field, n < limit)
    (standard : default < limit) : field.getD default < limit := by
  cases field with
  | none => exact standard
  | some n => exact written n rfl

theorem commandTimeout_lt (toml : FromToml config) : config.commandTimeout < 2 ^ 63 :=
  getD_lt (fun n given => toml n (by simp [writtenSeconds, Option.mem_def.mp given])) (by decide)

theorem timeout_lt {spec : RuntimeCommandSpec} (toml : FromToml config)
    (listed : spec ∈ runtimeCommandSpecs config) : spec.timeout < 2 ^ 63 := by
  rcases List.mem_append.mp listed with legacy | configured
  · obtain ⟨account, -, mem⟩ := List.mem_flatMap.mp legacy
    obtain ⟨mailbox, -, rfl⟩ := List.mem_map.mp mem
    exact commandTimeout_lt toml
  · obtain ⟨command, member, rfl⟩ := List.mem_map.mp configured
    refine getD_lt (fun n given => toml n ?_) (commandTimeout_lt toml)
    have own : n ∈ command.timeoutSeconds.toList ++ command.minIntervalSeconds.toList :=
      List.mem_append_left _ (Option.mem_toList.mpr given)
    have written : n ∈ config.commands.flatMap fun command =>
        command.timeoutSeconds.toList ++ command.minIntervalSeconds.toList :=
      List.mem_flatMap.mpr ⟨command, member, own⟩
    rw [writtenSeconds]
    exact List.mem_append_left _ (List.mem_append_right _ written)

theorem maxCommandTimeout_lt (toml : FromToml config) : maxCommandTimeout config < 2 ^ 63 :=
  maxCommandTimeout_lt_iff.mpr
    ⟨fun _ => commandTimeout_lt toml, fun _ listed => timeout_lt toml listed⟩

theorem maxWatcherOperationTimeout_lt (toml : FromToml config) :
    maxWatcherOperationTimeout config < 2 ^ 63 := by
  have start : config.imapOperationTimeout < 2 ^ 63 :=
    getD_lt (fun n given => toml n (by simp [writtenSeconds, Option.mem_def.mp given])) (by decide)
  have fold : ∀ (sources : List SourceConfig) (longest : Nat), sources ⊆ config.sources →
      longest < 2 ^ 63 → sources.foldl sourceOperationTimeout longest < 2 ^ 63 := by
    intro sources
    induction sources with
    | nil => exact fun longest _ bound => bound
    | cons source rest ih =>
      intro longest listed bound
      obtain ⟨member, others⟩ := List.cons_subset.mp listed
      refine ih _ others ?_
      cases source with
      | gmailApiPoll source =>
        refine Nat.max_lt.mpr ⟨bound, getD_lt (fun n given => toml n ?_) (by decide)⟩
        have own : n ∈ sourceSeconds (.gmailApiPoll source) :=
          List.mem_append_right _ (Option.mem_toList.mpr given)
        exact List.mem_append_right _ (List.mem_flatMap.mpr ⟨_, member, own⟩)
      | imapIdle | fsState | systemResume => exact bound
  exact fold config.sources _ (List.Subset.refl _) start

/-- The grace fits into a duration whatever a configuration file says. -/
theorem isSome_shutdownGrace (toml : FromToml config) : (shutdownGrace config).isSome = true := by
  have operations := maxWatcherOperationTimeout_lt toml
  have commands := maxCommandTimeout_lt toml
  have fits : max (maxWatcherOperationTimeout config) (maxCommandTimeout config) + 5 < 2 ^ 64 := by
    omega
  rw [shutdownGrace, durationAdd, if_pos fits]
  rfl

/-- Every deadline can be computed exactly if the longest duration can still be added. -/
theorem representable_iff (toml : FromToml config) :
    Representable config now ↔ now.secs + longestDelay config < 2 ^ 63 := by
  rw [longestDelay_fits]
  constructor
  · intro representable duration mem
    rcases mem_delays.mp mem with ⟨spec, listed, rfl | rfl⟩ | ⟨runs, rfl⟩ |
      ⟨source, listed, ⟨given, rfl⟩ | rfl | rfl⟩ | ⟨source, listed, rfl⟩
    · exact Instant.isSome_add.mp (representable.commands spec listed)
    · exact isSome_runAt.mp (representable.lanes spec listed now le_rfl)
    · exact Instant.isSome_add.mp (representable.helpers runs)
    · exact Instant.isSome_add.mp (representable.readers source listed given)
    · exact (isSome_due.mp (representable.batches source listed now now le_rfl le_rfl)).1
    · exact (isSome_due.mp (representable.batches source listed now now le_rfl le_rfl)).2
    · exact isSome_settleUntil.mp (representable.settles source listed)
  · intro fits
    refine ⟨?_, ?_, ?_, ?_, ?_, ?_, isSome_shutdownGrace toml⟩
    · intro spec listed
      exact Instant.isSome_add.mpr (fits _ (mem_delays.mpr (Or.inl ⟨spec, listed, Or.inl rfl⟩)))
    · intro spec listed finished past
      have room := fits _ (mem_delays.mpr (Or.inl ⟨spec, listed, Or.inr rfl⟩))
      exact isSome_runAt.mpr (by omega)
    · intro runs
      exact Instant.isSome_add.mpr (fits _ (mem_delays.mpr (Or.inr (Or.inl ⟨runs, rfl⟩))))
    · intro source listed given
      exact Instant.isSome_add.mpr (fits _ (mem_delays.mpr
        (Or.inr (Or.inr (Or.inl ⟨source, listed, Or.inl ⟨given, rfl⟩⟩)))))
    · intro source listed first last firstPast lastPast
      have quiet := fits _ (mem_delays.mpr
        (Or.inr (Or.inr (Or.inl ⟨source, listed, Or.inr (Or.inl rfl)⟩))))
      have latest := fits _ (mem_delays.mpr
        (Or.inr (Or.inr (Or.inl ⟨source, listed, Or.inr (Or.inr rfl)⟩))))
      exact isSome_due.mpr ⟨by omega, by omega⟩
    · intro source listed
      exact isSome_settleUntil.mpr (fits _ (mem_delays.mpr
        (Or.inr (Or.inr (Or.inr ⟨source, listed, rfl⟩)))))

end Accepted

/-- One command with the largest timeout that a configuration file can give. -/
private def endlessCommand : Config :=
  { Config.empty with
    commands := [⟨"backup", none, "backup", some (2 ^ 63 - 1), none, none, none, none⟩]
    sources := [.systemResume ⟨"resume", "backup", none⟩] }

/-- One second after the zero of the clock. -/
private def earlyInstant : Instant := ⟨1, 0, by decide, by decide⟩

theorem endless_timeout_panics : endlessCommand.validate = .ok () ∧ FromToml endlessCommand ∧
    ¬ ∀ (config : Config) (now : Instant), config.validate = .ok () → FromToml config →
      Representable config now := by
  have valid : endlessCommand.validate = .ok () := by decide +kernel
  have toml : FromToml endlessCommand := by unfold FromToml; decide +kernel
  refine ⟨valid, toml, fun all => ?_⟩
  have fits := (representable_iff toml).mp (all endlessCommand earlyInstant valid toml)
  have large : ¬ earlyInstant.secs + longestDelay endlessCommand < 2 ^ 63 := by decide +kernel
  exact large fits

/-- With a timeout of an hour there is room for three hundred years. -/
private def hourlyCommand : Config :=
  { endlessCommand with
    commands := [⟨"backup", none, "backup", some 3600, none, none, none, none⟩] }

private def lateInstant : Instant := ⟨300 * 365 * 86400, 0, by decide, by decide⟩

theorem hourly_timeout_fits : hourlyCommand.validate = .ok () ∧ FromToml hourlyCommand ∧
    Representable hourlyCommand lateInstant := by
  have valid : hourlyCommand.validate = .ok () := by decide +kernel
  have toml : FromToml hourlyCommand := by unfold FromToml; decide +kernel
  exact ⟨valid, toml, (representable_iff toml).mpr (by decide +kernel)⟩

end Deadlines

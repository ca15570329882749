import Mailwake.AcceptedConfig
import Mailwake.RuntimeState

/-!
# Setting up the daemon

What `run_daemon` makes of an accepted configuration before it waits: the command specs,
the lanes and who sends to them, the watchers and their commands. A sender is known by the
lane it sends to. The lanes are started in whatever order their map yields them.
-/
namespace Daemon
open DaemonConfig

structure RuntimeCommandSpec where
  name : String
  lane : String
  cmd : String
  timeout : Nat
  minInterval : Nat
  outputPolicy : CommandOutputPolicy
  deriving DecidableEq

def legacySpec (config : Config) (account : AccountConfig) (mailbox : MailboxConfig) :
    RuntimeCommandSpec :=
  let name := legacySourceName account.name mailbox.name
  { name := name
    lane := name
    cmd := mailbox.onNotify
    timeout := config.commandTimeout
    minInterval := config.minCommandInterval
    outputPolicy := config.commandOutputPolicy }

def commandSpec (config : Config) (command : CommandConfig) : RuntimeCommandSpec where
  name := command.name
  lane := command.laneName
  cmd := command.cmd
  timeout := command.timeout config
  minInterval := command.minInterval config
  outputPolicy := command.outputPolicy config

def runtimeCommandSpecs (config : Config) : List RuntimeCommandSpec :=
  (config.accounts.flatMap fun account => account.mailboxes.map (legacySpec config account)) ++
    config.commands.map (commandSpec config)

/-- The commands of one lane. -/
abbrev LaneCommands := String × List RuntimeCommandSpec

/-- `by_lane.entry(lane).or_default().push(command)`. -/
def pushCommand : List LaneCommands → RuntimeCommandSpec → List LaneCommands
  | [], command => [(command.lane, [command])]
  | (lane, commands) :: rest, command =>
    if lane = command.lane then (lane, commands ++ [command]) :: rest
    else (lane, commands) :: pushCommand rest command

def commandsByLane (commands : List RuntimeCommandSpec) : List LaneCommands :=
  commands.foldl pushCommand []

/-- From a command's name to the lane that its requests are sent to. -/
abbrev CommandSenders := AList (fun _ : String => String)

def insertSenders (senders : CommandSenders) (group : LaneCommands) : CommandSenders :=
  group.2.foldl (fun senders command => senders.insert command.name group.1) senders

def commandSenders (lanes : List LaneCommands) : CommandSenders := lanes.foldl insertSenders ∅

structure CommandTrigger where
  command : String
  source : String
  sender : String
  deriving DecidableEq

def commandTrigger (senders : CommandSenders) (command source : String) :
    Except String CommandTrigger :=
  match senders.lookup command with
  | some sender => .ok ⟨command, source, sender⟩
  | none => .error s!"command {debug command} has no command lane"

inductive WatcherTask where
  | imap (account : AccountConfig) (mailbox : String)
  | gmailApiPoll (source : GmailApiPollSourceConfig)
  | fsState (source : FsStateSourceConfig)
  | systemResume (source : SystemResumeSourceConfig)
  deriving DecidableEq

structure RegisteredWatcher where
  id : String
  task : WatcherTask
  trigger : CommandTrigger
  deriving DecidableEq

def legacyWatcher (senders : CommandSenders) (account : AccountConfig) (mailbox : MailboxConfig) :
    Except String RegisteredWatcher := do
  let watcherId := legacySourceName account.name mailbox.name
  let trigger ← commandTrigger senders watcherId watcherId
  .ok ⟨watcherId, .imap account mailbox.name, trigger⟩

def findAccount (config : Config) (source : ImapIdleSourceConfig) : Except String AccountConfig :=
  match config.accounts.find? (·.name = source.account) with
  | some account => .ok account
  | none => .error s!"source {debug source.name} references unknown account {debug source.account}"

def sourceWatcher (config : Config) (senders : CommandSenders) :
    SourceConfig → Except String RegisteredWatcher
  | .imapIdle source => do
    let account ← findAccount config source
    let trigger ← commandTrigger senders source.onEvent source.name
    .ok ⟨source.name, .imap account source.mailbox, trigger⟩
  | .gmailApiPoll source => do
    let trigger ← commandTrigger senders source.onEvent source.name
    .ok ⟨source.name, .gmailApiPoll source, trigger⟩
  | .fsState source => do
    let trigger ← commandTrigger senders source.onChange source.name
    .ok ⟨source.name, .fsState source, trigger⟩
  | .systemResume source => do
    let trigger ← commandTrigger senders source.onResume source.name
    .ok ⟨source.name, .systemResume source, trigger⟩

def registerWatchers (config : Config) (senders : CommandSenders) :
    Except String (List RegisteredWatcher) := do
  let legacy ← config.accounts.mapM fun account =>
    account.mailboxes.mapM (legacyWatcher senders account)
  let sources ← config.sources.mapM (sourceWatcher config senders)
  .ok (legacy.flatten ++ sources)

def maxCommandTimeout (config : Config) : Nat :=
  match (runtimeCommandSpecs config).map (·.timeout) with
  | [] => config.commandTimeout
  | timeout :: rest => rest.foldl max timeout

theorem foldl_max_lt_iff {values : List Nat} {start limit : Nat} :
    values.foldl max start < limit ↔ start < limit ∧ ∀ value ∈ values, value < limit := by
  induction values generalizing start with
  | nil => simp
  | cons value rest ih =>
    rw [List.foldl_cons, ih, Nat.max_lt, List.forall_mem_cons, and_assoc]

/-- The longest timeout of the commands, or the configured default where there is no command. -/
theorem maxCommandTimeout_lt_iff {config : Config} {limit : Nat} :
    maxCommandTimeout config < limit ↔
      (runtimeCommandSpecs config = [] → config.commandTimeout < limit) ∧
        ∀ spec ∈ runtimeCommandSpecs config, spec.timeout < limit := by
  rw [maxCommandTimeout]
  cases runtimeCommandSpecs config with
  | nil => simp
  | cons spec rest => simp [foldl_max_lt_iff]

theorem timeout_le_max {config : Config} {spec : RuntimeCommandSpec}
    (listed : spec ∈ runtimeCommandSpecs config) : spec.timeout ≤ maxCommandTimeout config :=
  Nat.le_of_lt_succ ((maxCommandTimeout_lt_iff.mp (Nat.lt_succ_self _)).2 spec listed)

def sourceOperationTimeout (longest : Nat) : SourceConfig → Nat
  | .gmailApiPoll source => max longest source.apiTimeout
  | .imapIdle _ | .fsState _ | .systemResume _ => longest

def maxWatcherOperationTimeout (config : Config) : Nat :=
  config.sources.foldl sourceOperationTimeout config.imapOperationTimeout

/-- The runtime state as `run_daemon` makes it; durations become milliseconds. -/
def initialState (config : Config) : RuntimeState.State :=
  .new config.accounts.length config.sourceCount config.commandLaneCount
    (config.watcherStale * 1000) (maxCommandTimeout config * 1000)

structure Setup where
  state : RuntimeState.State
  lanes : List LaneCommands
  senders : CommandSenders
  watchers : List RegisteredWatcher

/-- Everything up to the wait for the initial watchers, at one instant. -/
def setUp (config : Config) (lanes : List LaneCommands) (now : Nat) : Except String Setup := do
  let senders := commandSenders lanes
  let watchers ← registerWatchers config senders
  let state := lanes.foldl (fun s group => (s.registerCommandRunner now group.1).1)
    (initialState config)
  let state := watchers.foldl (fun s watcher => (s.registerWatcher now watcher.id).1) state
  .ok ⟨state, lanes, senders, watchers⟩

/-- What `test-command` runs. -/
structure TestCommand where
  name : String
  cmd : String
  timeout : Nat
  outputPolicy : CommandOutputPolicy
  description : String
  deriving DecidableEq

def findMailbox (config : Config) (accountName mailboxName : String) :
    Option (AccountConfig × MailboxConfig) := do
  let account ← config.accounts.find? (·.name = accountName)
  let mailbox ← account.mailboxes.find? (·.name = mailboxName)
  some (account, mailbox)

/-- The first `imap_idle` source of the mailbox. -/
def findImapIdle (config : Config) (accountName mailboxName : String) :
    Option ImapIdleSourceConfig :=
  config.sources.findSome? fun
    | .imapIdle source =>
      if source.account = accountName ∧ source.mailbox = mailboxName then some source else none
    | _ => none

/-- Name, command and timeout. -/
def mailboxCommand (config : Config) (accountName mailboxName : String) :
    Except String (String × String × Nat) :=
  match findMailbox config accountName mailboxName with
  | some (account, mailbox) =>
    .ok (legacySourceName account.name mailbox.name, mailbox.onNotify, config.commandTimeout)
  | none =>
    match findImapIdle config accountName mailboxName with
    | some source =>
      match config.commands.find? (·.name = source.onEvent) with
      | some command => .ok (command.name, command.cmd, command.timeout config)
      | none =>
        .error s!"source {debug source.name} references missing command {debug source.onEvent}"
    | none =>
      if config.accounts.any (·.name = accountName) then
        .error s!"mailbox {debug mailboxName} not found in account {debug accountName}"
      else .error s!"account {debug accountName} not found"

def configuredTestCommand (config : Config) (commandName accountName mailboxName : Option String) :
    Except String TestCommand :=
  match commandName, accountName, mailboxName with
  | some name, none, none =>
    match config.commands.find? (·.name = name) with
    | some command =>
      .ok ⟨command.name, command.cmd, command.timeout config, command.outputPolicy config,
        s!"command={debug name}"⟩
    | none => .error s!"command {debug name} not found"
  | none, some account, some mailbox => do
    let (name, command, timeout) ← mailboxCommand config account mailbox
    .ok ⟨name, command, timeout, config.commandOutputPolicy,
      s!"account={debug account} mailbox={debug mailbox}"⟩
  | _, _, _ => .error "specify either --command or both --account and --mailbox"

end Daemon

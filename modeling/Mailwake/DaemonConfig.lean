import Mathlib.Algebra.Ring.Nat
import Mathlib.Data.List.Basic

/-!
# The configuration file

`Config` with its defaults and `Config::validate`. Names and commands are strings, a set of
names is the list of its elements, an unsigned integer is a natural number, and a duration is
a number of whole seconds.
-/
namespace DaemonConfig

def u64Max : Nat := 18446744073709551615

inductive CommandOutputMode where
  | silent
  | failureTail
  | tail
  | debug
  | journal
  deriving DecidableEq

structure CommandOutputPolicy where
  mode : CommandOutputMode
  maxBytes : Nat
  tailLines : Nat
  deriving DecidableEq

def defaultIdleRefreshSeconds : Nat := 29 * 60
def defaultWatcherStaleSeconds : Nat := 60 * 60
def defaultDebounceSeconds : Nat := 10
def defaultMaxDebounceSeconds : Nat := 60
def defaultImapsPort : Nat := 993
def defaultAuthHelperTimeoutSeconds : Nat := 30
def defaultAuthHelperMaxOutputBytes : Nat := 65536
def defaultCommandTimeoutSeconds : Nat := 300
def defaultCommandOutputMaxBytes : Nat := 1048576
def defaultCommandOutputTailLines : Nat := 100
def defaultConnectTimeoutSeconds : Nat := 30
def defaultImapOperationTimeoutSeconds : Nat := 60
def defaultMinCommandIntervalSeconds : Nat := 60
def defaultSystemResumeSettleSeconds : Nat := 15
def defaultGmailApiPollIntervalSeconds : Nat := 60
def defaultGmailApiTimeoutSeconds : Nat := 60

inductive AuthMethod where
  | xoauth2Cmd
  | passwordCmd
  | password
  deriving DecidableEq

def AuthMethod.display : AuthMethod → String
  | .xoauth2Cmd => "xoauth2_cmd"
  | .passwordCmd => "password_cmd"
  | .password => "password"

structure MailboxConfig where
  name : String
  onNotify : String
  debounceSeconds : Option Nat
  deriving DecidableEq

structure AccountConfig where
  name : String
  host : String
  port : Option Nat
  username : String
  auth : AuthMethod
  xoauth2Cmd : Option String
  passwordCmd : Option String
  password : Option String
  insecurePlaintext : Bool
  mailboxes : List MailboxConfig
  deriving DecidableEq

structure CommandConfig where
  name : String
  lane : Option String
  cmd : String
  timeoutSeconds : Option Nat
  minIntervalSeconds : Option Nat
  outputMode : Option CommandOutputMode
  outputMaxBytes : Option Nat
  outputTailLines : Option Nat
  deriving DecidableEq

structure ImapIdleSourceConfig where
  name : String
  account : String
  mailbox : String
  onEvent : String
  runOnStartup : Bool
  debounceSeconds : Option Nat
  deriving DecidableEq

structure GmailApiPollSourceConfig where
  name : String
  onEvent : String
  gmailTokenCmd : String
  labelIds : List String
  runOnStartup : Bool
  debounceSeconds : Option Nat
  pollIntervalSeconds : Option Nat
  apiTimeoutSeconds : Option Nat
  historyPageSize : Option Nat
  deriving DecidableEq

structure FsStateSourceConfig where
  name : String
  watchPaths : List String
  stateCmd : Option String
  onChange : String
  runOnStartup : Bool
  debounceSeconds : Option Nat
  maxDebounceSeconds : Option Nat
  deriving DecidableEq

structure SystemResumeSourceConfig where
  name : String
  onResume : String
  settleSeconds : Option Nat
  deriving DecidableEq

inductive SourceConfig where
  | imapIdle (source : ImapIdleSourceConfig)
  | gmailApiPoll (source : GmailApiPollSourceConfig)
  | fsState (source : FsStateSourceConfig)
  | systemResume (source : SystemResumeSourceConfig)
  deriving DecidableEq

structure Config where
  defaultDebounceSeconds : Option Nat
  defaultMaxDebounceSeconds : Option Nat
  captureCommandOutput : Option Bool
  logCommandOutput : Option Bool
  authHelperTimeoutSeconds : Option Nat
  authHelperMaxOutputBytes : Option Nat
  commandTimeoutSeconds : Option Nat
  commandOutputMaxBytes : Option Nat
  commandOutputTailLines : Option Nat
  connectTimeoutSeconds : Option Nat
  imapOperationTimeoutSeconds : Option Nat
  minCommandIntervalSeconds : Option Nat
  watcherStaleSeconds : Option Nat
  idleRefreshSeconds : Option Nat
  accounts : List AccountConfig
  commands : List CommandConfig
  sources : List SourceConfig
  deriving DecidableEq

/-- The text after "invalid config: ". -/
structure ConfigError where
  message : String
  deriving DecidableEq

/-- A string as `{:?}` prints it, but that only ASCII control characters are taken for
unprintable. -/
def debugChar (c : Char) : List Char :=
  match c with
  | '"' => ['\\', '"']
  | '\\' => ['\\', '\\']
  | '\n' => ['\\', 'n']
  | '\r' => ['\\', 'r']
  | '\t' => ['\\', 't']
  | '\x00' => ['\\', '0']
  | c =>
    if c.toNat < 32 ∨ c.toNat = 127 then
      ['\\', 'u', '\x7b'] ++ Nat.toDigits 16 c.toNat ++ ['\x7d']
    else [c]

def debug (value : String) : String :=
  String.ofList ('"' :: value.toList.flatMap debugChar ++ ['"'])

/-- The `White_Space` property that `str::trim` goes by. -/
def isWhitespace (c : Char) : Bool :=
  let n := c.toNat
  9 ≤ n && n ≤ 13 || n = 32 || n = 133 || n = 160 || n = 5760 || 8192 ≤ n && n ≤ 8202 ||
    n = 8232 || n = 8233 || n = 8239 || n = 8287 || n = 12288

/-- `value.trim().is_empty()`. -/
def isBlank (value : String) : Bool := value.toList.all isWhitespace

def refuse {α : Type} (message : String) : Except ConfigError α := .error ⟨message⟩

/-- `if condition { return Err(..) }`. -/
def refuseIf (condition : Bool) (message : String) : Except ConfigError Unit :=
  if condition then refuse message else .ok ()

/-- A check of a value that may be absent. -/
def whenSome {α : Type} (value : Option α) (check : α → Except ConfigError Unit) :
    Except ConfigError Unit :=
  match value with
  | some value => check value
  | none => .ok ()

def validateNonempty (field value : String) : Except ConfigError Unit :=
  refuseIf (isBlank value) s!"{field} must not be empty"

def validateCommandReference (field command : String) (commandNames : List String) :
    Except ConfigError Unit :=
  refuseIf (!commandNames.contains command) s!"{field} references unknown command {debug command}"

def legacySourceName (account mailbox : String) : String := s!"{account}/{mailbox}"

def validateNoCrlf (field value : String) : Except ConfigError Unit :=
  refuseIf (value.toList.any fun c => c = '\r' || c = '\n')
    s!"{field} must not contain CR or LF characters"

def validateNonzeroSeconds (field : String) (value : Nat) : Except ConfigError Unit :=
  refuseIf (value = 0) s!"{field} must be greater than 0 seconds"

def validateNonzeroBytes (field : String) (value : Nat) : Except ConfigError Unit :=
  refuseIf (value = 0) s!"{field} must be greater than 0 bytes"

def validateNonzeroCount (field : String) (value : Nat) : Except ConfigError Unit :=
  refuseIf (value = 0) s!"{field} must be greater than 0"

def requireCmd (value : Option String) (field account : String) (auth : AuthMethod) :
    Except ConfigError Unit :=
  match value with
  | some value =>
    refuseIf (isBlank value)
      s!"account {debug account} uses auth={auth.display} but {field} is missing"
  | none => refuse s!"account {debug account} uses auth={auth.display} but {field} is missing"

def forbidField (value : Option String) (field account : String) (auth : AuthMethod) :
    Except ConfigError Unit :=
  refuseIf value.isSome
    s!"account {debug account} uses auth={auth.display}; remove unrelated field {field}"

def requirePassword (password : Option String) (account : String) : Except ConfigError Unit :=
  match password with
  | some password => validateNoCrlf "direct password" password
  | none => refuse s!"account {debug account} uses auth=password but password is missing"

/-- `set.insert(name)`, with the error of a caller that wants it new. -/
def insertNew (names : List String) (name message : String) : Except ConfigError (List String) :=
  if names.contains name then refuse message else .ok (name :: names)

namespace AccountConfig

def portNumber (account : AccountConfig) : Nat := account.port.getD defaultImapsPort

def validateAuth (account : AccountConfig) : Except ConfigError Unit :=
  match account.auth with
  | .xoauth2Cmd => do
    requireCmd account.xoauth2Cmd "xoauth2_cmd" account.name account.auth
    forbidField account.passwordCmd "password_cmd" account.name account.auth
    forbidField account.password "password" account.name account.auth
  | .passwordCmd => do
    requireCmd account.passwordCmd "password_cmd" account.name account.auth
    forbidField account.xoauth2Cmd "xoauth2_cmd" account.name account.auth
    forbidField account.password "password" account.name account.auth
  | .password => do
    requirePassword account.password account.name
    forbidField account.xoauth2Cmd "xoauth2_cmd" account.name account.auth
    forbidField account.passwordCmd "password_cmd" account.name account.auth

end AccountConfig

def CommandConfig.laneName (command : CommandConfig) : String := command.lane.getD command.name

def SourceConfig.name : SourceConfig → String
  | .imapIdle source => source.name
  | .gmailApiPoll source => source.name
  | .fsState source => source.name
  | .systemResume source => source.name

namespace Config
variable (config : Config)

def defaultDebounce : Nat :=
  config.defaultDebounceSeconds.getD DaemonConfig.defaultDebounceSeconds

def defaultMaxDebounce : Nat :=
  config.defaultMaxDebounceSeconds.getD DaemonConfig.defaultMaxDebounceSeconds

def idleRefresh : Nat := config.idleRefreshSeconds.getD defaultIdleRefreshSeconds

def watcherStale : Nat := config.watcherStaleSeconds.getD defaultWatcherStaleSeconds

def authHelperTimeout : Nat :=
  config.authHelperTimeoutSeconds.getD defaultAuthHelperTimeoutSeconds

def authHelperMaxOutput : Nat :=
  config.authHelperMaxOutputBytes.getD defaultAuthHelperMaxOutputBytes

def commandTimeout : Nat := config.commandTimeoutSeconds.getD defaultCommandTimeoutSeconds

def commandOutputMax : Nat := config.commandOutputMaxBytes.getD defaultCommandOutputMaxBytes

def commandOutputTail : Nat := config.commandOutputTailLines.getD defaultCommandOutputTailLines

def connectTimeout : Nat := config.connectTimeoutSeconds.getD defaultConnectTimeoutSeconds

def imapOperationTimeout : Nat :=
  config.imapOperationTimeoutSeconds.getD defaultImapOperationTimeoutSeconds

def minCommandInterval : Nat :=
  config.minCommandIntervalSeconds.getD defaultMinCommandIntervalSeconds

def defaultCommandOutputMode : CommandOutputMode :=
  match config.captureCommandOutput.or config.logCommandOutput with
  | some false => .silent
  | some true => .failureTail
  | none => .failureTail

def commandOutputPolicy : CommandOutputPolicy where
  mode := config.defaultCommandOutputMode
  maxBytes := config.commandOutputMax
  tailLines := config.commandOutputTail

def mailboxCount : Nat := (config.accounts.map (·.mailboxes.length)).sum

def sourceCount : Nat := config.mailboxCount + config.sources.length

/-- The synthetic names of the mailboxes configured with their accounts. -/
def legacyNames : List String :=
  config.accounts.flatMap fun account =>
    account.mailboxes.map fun mailbox => legacySourceName account.name mailbox.name

def commandLaneCount : Nat :=
  (config.legacyNames ++ config.commands.map (·.laneName)).dedup.length

end Config

def CommandConfig.timeout (command : CommandConfig) (config : Config) : Nat :=
  command.timeoutSeconds.getD config.commandTimeout

def CommandConfig.minInterval (command : CommandConfig) (config : Config) : Nat :=
  command.minIntervalSeconds.getD config.minCommandInterval

def CommandConfig.outputPolicy (command : CommandConfig) (config : Config) :
    CommandOutputPolicy :=
  let default := config.commandOutputPolicy
  { mode := command.outputMode.getD default.mode
    maxBytes := command.outputMaxBytes.getD default.maxBytes
    tailLines := command.outputTailLines.getD default.tailLines }

def GmailApiPollSourceConfig.debounce (source : GmailApiPollSourceConfig) (config : Config) : Nat :=
  source.debounceSeconds.getD config.defaultDebounce

def GmailApiPollSourceConfig.pollInterval (source : GmailApiPollSourceConfig) : Nat :=
  source.pollIntervalSeconds.getD defaultGmailApiPollIntervalSeconds

def GmailApiPollSourceConfig.apiTimeout (source : GmailApiPollSourceConfig) : Nat :=
  source.apiTimeoutSeconds.getD defaultGmailApiTimeoutSeconds

def FsStateSourceConfig.debounce (source : FsStateSourceConfig) (config : Config) : Nat :=
  source.debounceSeconds.getD config.defaultDebounce

def FsStateSourceConfig.maxDebounce (source : FsStateSourceConfig) (config : Config) : Nat :=
  source.maxDebounceSeconds.getD config.defaultMaxDebounce

def SystemResumeSourceConfig.settle (source : SystemResumeSourceConfig) : Nat :=
  source.settleSeconds.getD defaultSystemResumeSettleSeconds

def validateCommand (commandNames : List String) (command : CommandConfig) :
    Except ConfigError (List String) := do
  validateNonempty "command name" command.name
  validateNonempty "command cmd" command.cmd
  whenSome command.lane (validateNonempty "command lane")
  whenSome command.timeoutSeconds (validateNonzeroSeconds "command timeout_seconds")
  whenSome command.outputMaxBytes (validateNonzeroBytes "command output_max_bytes")
  whenSome command.outputTailLines (validateNonzeroCount "command output_tail_lines")
  insertNew commandNames command.name s!"duplicate command name {debug command.name}"

/-- The names of the commands. -/
def Config.validateCommands (config : Config) : Except ConfigError (List String) :=
  config.commands.foldlM validateCommand []

/-- The names taken so far, of accounts and of sources. -/
structure Names where
  accounts : List String
  sources : List String

/-- The source names so far, and those of the account's mailboxes. -/
def validateMailbox (commandNames : List String) (account : String)
    (names : List String × List String) (mailbox : MailboxConfig) :
    Except ConfigError (List String × List String) := do
  validateNonempty "mailbox name" mailbox.name
  validateNoCrlf "mailbox name" mailbox.name
  validateNonempty "mailbox on_notify" mailbox.onNotify
  let sourceName := legacySourceName account mailbox.name
  refuseIf (commandNames.contains sourceName)
    s!"command name {debug sourceName} collides with legacy mailbox source name"
  let sources ← insertNew names.1 sourceName s!"duplicate source name {debug sourceName}"
  let mailboxes ← insertNew names.2 mailbox.name
    s!"account {debug account} has duplicate mailbox {debug mailbox.name}"
  .ok (sources, mailboxes)

def validateAccount (commandNames : List String) (names : Names) (account : AccountConfig) :
    Except ConfigError Names := do
  validateNonempty "account name" account.name
  validateNonempty "account host" account.host
  validateNonempty "account username" account.username
  validateNoCrlf "account username" account.username
  let accounts ← insertNew names.accounts account.name
    s!"duplicate account name {debug account.name}"
  refuseIf (account.portNumber = 0) s!"account {debug account.name} has invalid port 0"
  account.validateAuth
  let found ← account.mailboxes.foldlM (validateMailbox commandNames account.name)
    (names.sources, [])
  .ok ⟨accounts, found.1⟩

def ImapIdleSourceConfig.validate (source : ImapIdleSourceConfig)
    (accountNames commandNames : List String) : Except ConfigError Unit := do
  validateNonempty "source account" source.account
  validateNonempty "source mailbox" source.mailbox
  validateNoCrlf "source mailbox" source.mailbox
  validateNonempty "source on_event" source.onEvent
  refuseIf (!accountNames.contains source.account)
    s!"source {debug source.name} references unknown account {debug source.account}"
  validateCommandReference "on_event" source.onEvent commandNames

def validateLabelId (labelId : String) : Except ConfigError Unit := do
  validateNonempty "source label_ids" labelId
  validateNoCrlf "source label_ids" labelId

def GmailApiPollSourceConfig.validate (source : GmailApiPollSourceConfig)
    (commandNames : List String) : Except ConfigError Unit := do
  validateNonempty "source on_event" source.onEvent
  validateNonempty "source gmail_token_cmd" source.gmailTokenCmd
  validateCommandReference "on_event" source.onEvent commandNames
  source.labelIds.forM validateLabelId
  whenSome source.pollIntervalSeconds fun pollInterval => do
    validateNonzeroSeconds "source poll_interval_seconds" pollInterval
    refuseIf (pollInterval < 10)
      (s!"gmail_api_poll source {debug source.name} poll_interval_seconds must be at least " ++
        s!"10 seconds, got {pollInterval}")
  whenSome source.apiTimeoutSeconds (validateNonzeroSeconds "source api_timeout_seconds")
  whenSome source.historyPageSize fun historyPageSize => do
    validateNonzeroCount "source history_page_size" historyPageSize
    refuseIf (500 < historyPageSize)
      (s!"gmail_api_poll source {debug source.name} history_page_size must be at most 500, " ++
        s!"got {historyPageSize}")

def validateWatchPath (source path : String) : Except ConfigError Unit :=
  refuseIf path.isEmpty s!"fs_state source {debug source} has an empty watch path"

def FsStateSourceConfig.validate (source : FsStateSourceConfig) (commandNames : List String) :
    Except ConfigError Unit := do
  validateNonempty "source on_change" source.onChange
  validateCommandReference "on_change" source.onChange commandNames
  refuseIf source.watchPaths.isEmpty
    s!"fs_state source {debug source.name} must define at least one watch_paths entry"
  source.watchPaths.forM (validateWatchPath source.name)
  whenSome source.stateCmd (validateNonempty "source state_cmd")
  whenSome source.maxDebounceSeconds (validateNonzeroSeconds "source max_debounce_seconds")

def SystemResumeSourceConfig.validate (source : SystemResumeSourceConfig)
    (commandNames : List String) : Except ConfigError Unit := do
  validateNonempty "source on_resume" source.onResume
  validateCommandReference "on_resume" source.onResume commandNames

def SourceConfig.validateKind (accountNames commandNames : List String) :
    SourceConfig → Except ConfigError Unit
  | .imapIdle source => source.validate accountNames commandNames
  | .gmailApiPoll source => source.validate commandNames
  | .fsState source => source.validate commandNames
  | .systemResume source => source.validate commandNames

def SourceConfig.validate (accountNames commandNames sourceNames : List String)
    (source : SourceConfig) : Except ConfigError (List String) := do
  validateNonempty "source name" source.name
  let sourceNames ← insertNew sourceNames source.name
    s!"duplicate source name {debug source.name}"
  SourceConfig.validateKind accountNames commandNames source
  .ok sourceNames

/-- The checks of the global values, before those of commands, accounts and sources. -/
def Config.validateGlobals (config : Config) : Except ConfigError Unit := do
  refuseIf (config.sourceCount = 0)
    "at least one source is required: configure [[accounts.mailboxes]] or [[sources]]"
  validateNonzeroSeconds "default_max_debounce_seconds" config.defaultMaxDebounce
  validateNonzeroSeconds "auth_helper_timeout_seconds" config.authHelperTimeout
  validateNonzeroBytes "auth_helper_max_output_bytes" config.authHelperMaxOutput
  validateNonzeroSeconds "command_timeout_seconds" config.commandTimeout
  validateNonzeroBytes "command_output_max_bytes" config.commandOutputMax
  validateNonzeroCount "command_output_tail_lines" config.commandOutputTail
  validateNonzeroSeconds "connect_timeout_seconds" config.connectTimeout
  validateNonzeroSeconds "imap_operation_timeout_seconds" config.imapOperationTimeout
  refuseIf (config.captureCommandOutput.isSome && config.logCommandOutput.isSome)
    "use capture_command_output instead of deprecated log_command_output, not both"
  validateNonzeroSeconds "idle_refresh_seconds" config.idleRefresh
  refuseIf (config.idleRefresh < 60)
    s!"idle_refresh_seconds must be at least 60 seconds, got {config.idleRefresh}"
  validateNonzeroSeconds "watcher_stale_seconds" config.watcherStale
  -- the product saturates
  let minimumWatcherStale := min (config.idleRefresh * 2) u64Max
  refuseIf (config.watcherStale < minimumWatcherStale)
    (s!"watcher_stale_seconds must be at least 2x idle_refresh_seconds " ++
      s!"({minimumWatcherStale} seconds), got {config.watcherStale}")

def Config.validate (config : Config) : Except ConfigError Unit := do
  config.validateGlobals
  let commandNames ← config.validateCommands
  let names ← config.accounts.foldlM (validateAccount commandNames) ⟨[], []⟩
  let _ ← config.sources.foldlM (SourceConfig.validate names.accounts commandNames) names.sources
  .ok ()

/-- Only defaults, and no source. -/
def Config.empty : Config where
  defaultDebounceSeconds := none
  defaultMaxDebounceSeconds := none
  captureCommandOutput := none
  logCommandOutput := none
  authHelperTimeoutSeconds := none
  authHelperMaxOutputBytes := none
  commandTimeoutSeconds := none
  commandOutputMaxBytes := none
  commandOutputTailLines := none
  connectTimeoutSeconds := none
  imapOperationTimeoutSeconds := none
  minCommandIntervalSeconds := none
  watcherStaleSeconds := none
  idleRefreshSeconds := none
  accounts := []
  commands := []
  sources := []

end DaemonConfig

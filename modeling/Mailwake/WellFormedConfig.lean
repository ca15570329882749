import Mailwake.AcceptedConfig
import Mailwake.Registry

/-!
# The configurations that are accepted

What it means for a configuration to be well formed, said of its entries and of their names and
not of the order of the checks. `Config::validate` accepts exactly these, so the order in which
accounts, commands and sources are written does not matter to it.
-/
namespace DaemonConfig
open Fallible Registry

section Values

/-- Something is left of the value after trimming. -/
def Nonempty (value : String) : Prop := ∃ c ∈ value.toList, isWhitespace c = false

def NoCrlf (value : String) : Prop := ∀ c ∈ value.toList, c ≠ '\r' ∧ c ≠ '\n'

variable {field value message : String} {condition : Bool}

theorem refuseIf_ok_iff : refuseIf condition message = .ok () ↔ condition = false := by
  cases condition with
  | true => simp [refuseIf, refuse]
  | false => simp [refuseIf]

theorem validateNonempty_ok_iff : validateNonempty field value = .ok () ↔ Nonempty value := by
  rw [validateNonempty, refuseIf_ok_iff, isBlank, List.all_eq_false]
  simp only [Nonempty, Bool.not_eq_true]

theorem validateNoCrlf_ok_iff : validateNoCrlf field value = .ok () ↔ NoCrlf value := by
  rw [validateNoCrlf, refuseIf_ok_iff, List.any_eq_false]
  simp [NoCrlf]

theorem validateCommandReference_ok_iff {command : String} {names : List String} :
    validateCommandReference field command names = .ok () ↔ command ∈ names := by
  rw [validateCommandReference, refuseIf_ok_iff]
  simp

theorem validateNonzeroSeconds_ok_iff {value : Nat} :
    validateNonzeroSeconds field value = .ok () ↔ 0 < value := by
  rw [validateNonzeroSeconds, refuseIf_ok_iff, decide_eq_false_iff_not, Nat.pos_iff_ne_zero]

theorem validateNonzeroBytes_ok_iff {value : Nat} :
    validateNonzeroBytes field value = .ok () ↔ 0 < value := by
  rw [validateNonzeroBytes, refuseIf_ok_iff, decide_eq_false_iff_not, Nat.pos_iff_ne_zero]

theorem validateNonzeroCount_ok_iff {value : Nat} :
    validateNonzeroCount field value = .ok () ↔ 0 < value := by
  rw [validateNonzeroCount, refuseIf_ok_iff, decide_eq_false_iff_not, Nat.pos_iff_ne_zero]

theorem whenSome_ok_iff {α : Type} {value : Option α} {check : α → Except ConfigError Unit} :
    whenSome value check = .ok () ↔ ∀ x ∈ value, check x = .ok () := by
  cases value <;> simp [whenSome]

theorem insertNew_total_iff {names : List String} {name : String} :
    (∃ after, insertNew names name message = .ok after) ↔ name ∉ names := by
  by_cases known : name ∈ names
  · simp [insertNew, refuse, known]
  · simp [insertNew, known]

theorem fresh_one {known : List String} {name : String} : Fresh [name] known ↔ name ∉ known :=
  ⟨fun fresh => fresh.unknown name (List.mem_singleton_self name),
    fun new => ⟨List.nodup_singleton name, by simpa using new⟩⟩

end Values

section Commands

structure CommandConfig.WellFormed (command : CommandConfig) : Prop where
  name : Nonempty command.name
  cmd : Nonempty command.cmd
  lane : ∀ lane ∈ command.lane, Nonempty lane
  timeout : ∀ seconds ∈ command.timeoutSeconds, 0 < seconds
  outputMax : ∀ bytes ∈ command.outputMaxBytes, 0 < bytes
  outputTail : ∀ lines ∈ command.outputTailLines, 0 < lines

theorem validateCommand_registers :
    Registers validateCommand CommandConfig.WellFormed (fun (_ : Unit) command => [command.name])
      (fun _ names => names) := by
  refine ⟨?_, ?_⟩
  · intro names command
    simp only [validateCommand, then_total_iff, insertNew_total_iff, validateNonempty_ok_iff,
      whenSome_ok_iff, validateNonzeroSeconds_ok_iff, validateNonzeroBytes_ok_iff,
      validateNonzeroCount_ok_iff, fresh_one]
    constructor
    · rintro ⟨name, cmd, lane, timeout, outputMax, outputTail, new⟩
      exact ⟨⟨name, cmd, lane, timeout, outputMax, outputTail⟩, fun _ => new⟩
    · rintro ⟨⟨name, cmd, lane, timeout, outputMax, outputTail⟩, new⟩
      exact ⟨name, cmd, lane, timeout, outputMax, outputTail, new ()⟩
  · intro names command after h _
    rw [(validateCommand_ok h).2]
    rfl

end Commands

section Accounts

/-- The one secret that the method uses is there, and the others are not. -/
def AccountConfig.Authenticates (account : AccountConfig) : Prop :=
  match account.auth with
  | .xoauth2Cmd => (∃ cmd ∈ account.xoauth2Cmd, Nonempty cmd) ∧ account.passwordCmd = none ∧
      account.password = none
  | .passwordCmd => (∃ cmd ∈ account.passwordCmd, Nonempty cmd) ∧ account.xoauth2Cmd = none ∧
      account.password = none
  | .password => (∃ password ∈ account.password, NoCrlf password) ∧ account.xoauth2Cmd = none ∧
      account.passwordCmd = none

structure MailboxConfig.WellFormed (mailbox : MailboxConfig) : Prop where
  name : Nonempty mailbox.name
  oneLine : NoCrlf mailbox.name
  onNotify : Nonempty mailbox.onNotify

structure AccountConfig.WellFormed (account : AccountConfig) : Prop where
  name : Nonempty account.name
  host : Nonempty account.host
  username : Nonempty account.username
  oneLine : NoCrlf account.username
  port : 0 < account.portNumber
  auth : account.Authenticates
  mailboxes : ∀ mailbox ∈ account.mailboxes, mailbox.WellFormed

theorem requireCmd_ok_iff {value : Option String} {field account : String} {auth : AuthMethod} :
    requireCmd value field account auth = .ok () ↔ ∃ cmd ∈ value, Nonempty cmd := by
  cases value with
  | none => simp [requireCmd, refuse]
  | some value =>
    have blank : validateNonempty field value = .ok () ↔ Nonempty value := validateNonempty_ok_iff
    rw [validateNonempty, refuseIf_ok_iff] at blank
    rw [requireCmd, refuseIf_ok_iff, blank]
    simp

theorem forbidField_ok_iff {value : Option String} {field account : String} {auth : AuthMethod} :
    forbidField value field account auth = .ok () ↔ value = none := by
  rw [forbidField, refuseIf_ok_iff, Option.isSome_eq_false_iff, Option.isNone_iff_eq_none]

theorem requirePassword_ok_iff {password : Option String} {account : String} :
    requirePassword password account = .ok () ↔ ∃ secret ∈ password, NoCrlf secret := by
  cases password with
  | none => simp [requirePassword, refuse]
  | some password => simp [requirePassword, validateNoCrlf_ok_iff]

theorem validateAuth_ok_iff {account : AccountConfig} :
    account.validateAuth = .ok () ↔ account.Authenticates := by
  unfold AccountConfig.validateAuth AccountConfig.Authenticates
  cases account.auth with
  | xoauth2Cmd | passwordCmd =>
    simp only [then_ok_iff, requireCmd_ok_iff, forbidField_ok_iff]
  | password => simp only [then_ok_iff, requirePassword_ok_iff, forbidField_ok_iff]

/-- A mailbox brings the name of its source and, within its account, its own; the second is new
whenever the first one is. -/
def mailboxKeys (account : String) : Bool → MailboxConfig → List String
  | true, mailbox => [legacySourceName account mailbox.name]
  | false, mailbox => [mailbox.name]

def mailboxNames : Bool → List String × List String → List String
  | true, names => names.1
  | false, names => names.2

structure MailboxConfig.Apart (account : String) (commandNames : List String)
    (mailbox : MailboxConfig) : Prop extends mailbox.WellFormed where
  apart : legacySourceName account mailbox.name ∉ commandNames

theorem validateMailbox_registers (commandNames : List String) (account : String) :
    Registers (validateMailbox commandNames account) (MailboxConfig.Apart account commandNames)
      (mailboxKeys account) mailboxNames := by
  refine ⟨?_, ?_⟩
  · intro names mailbox
    simp only [validateMailbox, then_total_iff, bind_total_iff, validateNonempty_ok_iff,
      validateNoCrlf_ok_iff, refuseIf_ok_iff, Bool.forall_bool, mailboxKeys, mailboxNames,
      fresh_one, List.contains_eq_mem, decide_eq_false_iff_not]
    constructor
    · rintro ⟨name, oneLine, onNotify, apart, sources, hs, mailboxes, hm, -⟩
      exact ⟨⟨⟨name, oneLine, onNotify⟩, apart⟩, (insertNew_ok hm).1, (insertNew_ok hs).1⟩
    · rintro ⟨⟨⟨name, oneLine, onNotify⟩, apart⟩, mailbox, source⟩
      obtain ⟨sources, hs⟩ := insertNew_total_iff.mpr source
      obtain ⟨mailboxes, hm⟩ := insertNew_total_iff.mpr mailbox
      exact ⟨name, oneLine, onNotify, apart, sources, hs, mailboxes, hm, _, rfl⟩
  · intro names mailbox after h i
    obtain ⟨-, h⟩ := then_ok h
    obtain ⟨-, h⟩ := then_ok h
    obtain ⟨-, h⟩ := then_ok h
    obtain ⟨-, h⟩ := then_ok h
    obtain ⟨sources, hs, h⟩ := bind_ok h
    obtain ⟨mailboxes, hm, h⟩ := bind_ok h
    obtain rfl := Except.ok.inj h
    cases i with
    | true => exact (insertNew_ok hs).2
    | false => exact (insertNew_ok hm).2

def accountKeys : Bool → AccountConfig → List String
  | true, account => [account.name]
  | false, account => account.legacyNames

def namesTaken : Bool → Names → List String
  | true, names => names.accounts
  | false, names => names.sources

structure AccountConfig.Apart (commandNames : List String) (account : AccountConfig) :
    Prop extends account.WellFormed where
  apart : ∀ name ∈ account.legacyNames, name ∉ commandNames

/-- The mailboxes of an account pass just if they are well formed and their sources are new. -/
theorem mailboxes_total_iff {commandNames sources : List String} {account : AccountConfig} :
    (∃ found, account.mailboxes.foldlM (validateMailbox commandNames account.name) (sources, []) =
        .ok found) ↔
      (∀ mailbox ∈ account.mailboxes, mailbox.Apart account.name commandNames) ∧
        Fresh account.legacyNames sources := by
  have one : ∀ key : MailboxConfig → String,
      (account.mailboxes.flatMap fun mailbox => [key mailbox]) = account.mailboxes.map key :=
    fun key => (List.map_eq_flatMap).symm
  rw [(validateMailbox_registers commandNames account.name).accepts_all, Bool.forall_bool]
  refine and_congr_right fun _ => ?_
  change Fresh (account.mailboxes.flatMap fun mailbox => [mailbox.name]) [] ∧
    Fresh (account.mailboxes.flatMap fun mailbox => [legacySourceName account.name mailbox.name])
      sources ↔ _
  rw [one, one]
  refine ⟨And.right, fun fresh => ⟨fresh_nil_iff.mpr ?_, fresh⟩⟩
  refine List.Nodup.of_map (legacySourceName account.name) ?_
  rw [List.map_map]
  exact fresh.distinct

theorem validateAccount_registers (commandNames : List String) :
    Registers (validateAccount commandNames) (AccountConfig.Apart commandNames) accountKeys
      namesTaken := by
  refine ⟨?_, ?_⟩
  · intro names account
    simp only [validateAccount, then_total_iff, bind_total_iff, validateNonempty_ok_iff,
      validateNoCrlf_ok_iff, refuseIf_ok_iff, Bool.forall_bool, accountKeys, namesTaken,
      fresh_one, decide_eq_false_iff_not, validateAuth_ok_iff]
    constructor
    · rintro ⟨name, host, username, oneLine, accounts, ha, port, auth, found, hm, -⟩
      obtain ⟨each, fresh⟩ := mailboxes_total_iff.mp ⟨found, hm⟩
      refine ⟨⟨⟨name, host, username, oneLine, Nat.pos_of_ne_zero port, auth,
        fun mailbox mem => (each mailbox mem).toWellFormed⟩, ?_⟩, fresh, (insertNew_ok ha).1⟩
      intro source known
      obtain ⟨mailbox, mem, rfl⟩ := List.mem_map.mp known
      exact (each mailbox mem).apart
    · rintro ⟨⟨⟨name, host, username, oneLine, port, auth, mailboxes⟩, apart⟩, fresh, new⟩
      obtain ⟨accounts, ha⟩ := insertNew_total_iff.mpr new
      obtain ⟨found, hm⟩ := mailboxes_total_iff.mpr
        ⟨fun mailbox mem => ⟨mailboxes mailbox mem, apart _ (List.mem_map_of_mem mem)⟩, fresh⟩
      exact ⟨name, host, username, oneLine, accounts, ha, Nat.ne_of_gt port, auth, found, hm,
        _, rfl⟩
  · intro names account after h i
    obtain ⟨accounts, sources, -, -⟩ := validateAccount_ok h
    cases i with
    | true => exact accounts.names
    | false => exact sources.names

end Accounts

section Sources

structure ImapIdleSourceConfig.WellFormed (source : ImapIdleSourceConfig)
    (accountNames commandNames : List String) : Prop where
  account : Nonempty source.account
  mailbox : Nonempty source.mailbox
  oneLine : NoCrlf source.mailbox
  onEvent : Nonempty source.onEvent
  known : source.account ∈ accountNames
  reference : source.onEvent ∈ commandNames

structure GmailApiPollSourceConfig.WellFormed (source : GmailApiPollSourceConfig)
    (commandNames : List String) : Prop where
  onEvent : Nonempty source.onEvent
  tokenCmd : Nonempty source.gmailTokenCmd
  reference : source.onEvent ∈ commandNames
  labelIds : ∀ labelId ∈ source.labelIds, Nonempty labelId ∧ NoCrlf labelId
  pollInterval : ∀ seconds ∈ source.pollIntervalSeconds, 10 ≤ seconds
  apiTimeout : ∀ seconds ∈ source.apiTimeoutSeconds, 0 < seconds
  pageSize : ∀ size ∈ source.historyPageSize, 0 < size ∧ size ≤ 500

structure FsStateSourceConfig.WellFormed (source : FsStateSourceConfig)
    (commandNames : List String) : Prop where
  onChange : Nonempty source.onChange
  reference : source.onChange ∈ commandNames
  watched : source.watchPaths ≠ []
  watchPaths : ∀ path ∈ source.watchPaths, path ≠ ""
  stateCmd : ∀ cmd ∈ source.stateCmd, Nonempty cmd
  maxDebounce : ∀ seconds ∈ source.maxDebounceSeconds, 0 < seconds

structure SystemResumeSourceConfig.WellFormed (source : SystemResumeSourceConfig)
    (commandNames : List String) : Prop where
  onResume : Nonempty source.onResume
  reference : source.onResume ∈ commandNames

def SourceConfig.KindWellFormed (accountNames commandNames : List String) : SourceConfig → Prop
  | .imapIdle source => source.WellFormed accountNames commandNames
  | .gmailApiPoll source => source.WellFormed commandNames
  | .fsState source => source.WellFormed commandNames
  | .systemResume source => source.WellFormed commandNames

structure SourceConfig.WellFormed (accountNames commandNames : List String)
    (source : SourceConfig) : Prop where
  name : Nonempty source.name
  kind : source.KindWellFormed accountNames commandNames

variable {accountNames commandNames : List String}

/-- Only which names there are matters to a source, not how they are listed. -/
theorem SourceConfig.WellFormed.congr {accounts commands : List String} {source : SourceConfig}
    (sameAccounts : ∀ name, name ∈ accountNames ↔ name ∈ accounts)
    (sameCommands : ∀ name, name ∈ commandNames ↔ name ∈ commands)
    (h : source.WellFormed accountNames commandNames) : source.WellFormed accounts commands := by
  refine ⟨h.name, ?_⟩
  have kind := h.kind
  cases source with
  | imapIdle source =>
    obtain ⟨account, mailbox, oneLine, onEvent, known, reference⟩ := kind
    exact ⟨account, mailbox, oneLine, onEvent, (sameAccounts _).mp known,
      (sameCommands _).mp reference⟩
  | gmailApiPoll source =>
    obtain ⟨onEvent, tokenCmd, reference, labelIds, pollInterval, apiTimeout, pageSize⟩ := kind
    exact ⟨onEvent, tokenCmd, (sameCommands _).mp reference, labelIds, pollInterval, apiTimeout,
      pageSize⟩
  | fsState source =>
    obtain ⟨onChange, reference, watched, watchPaths, stateCmd, maxDebounce⟩ := kind
    exact ⟨onChange, (sameCommands _).mp reference, watched, watchPaths, stateCmd, maxDebounce⟩
  | systemResume source =>
    obtain ⟨onResume, reference⟩ := kind
    exact ⟨onResume, (sameCommands _).mp reference⟩

theorem imapIdle_ok_iff {source : ImapIdleSourceConfig} :
    source.validate accountNames commandNames = .ok () ↔
      source.WellFormed accountNames commandNames := by
  simp only [ImapIdleSourceConfig.validate, then_ok_iff, validateNonempty_ok_iff,
    validateNoCrlf_ok_iff, refuseIf_ok_iff, validateCommandReference_ok_iff,
    List.contains_eq_mem, Bool.not_eq_false', decide_eq_true_eq]
  constructor
  · rintro ⟨account, mailbox, oneLine, onEvent, known, reference⟩
    exact ⟨account, mailbox, oneLine, onEvent, known, reference⟩
  · rintro ⟨account, mailbox, oneLine, onEvent, known, reference⟩
    exact ⟨account, mailbox, oneLine, onEvent, known, reference⟩

theorem gmailApiPoll_ok_iff {source : GmailApiPollSourceConfig} :
    source.validate commandNames = .ok () ↔ source.WellFormed commandNames := by
  simp only [GmailApiPollSourceConfig.validate, then_ok_iff, validateNonempty_ok_iff,
    validateCommandReference_ok_iff, whenSome_ok_iff, validateNonzeroSeconds_ok_iff,
    validateNonzeroCount_ok_iff, refuseIf_ok_iff, decide_eq_false_iff_not, forM_ok_iff,
    validateLabelId, validateNoCrlf_ok_iff, Nat.not_lt]
  constructor
  · rintro ⟨onEvent, tokenCmd, reference, labelIds, pollInterval, apiTimeout, pageSize⟩
    exact ⟨onEvent, tokenCmd, reference, labelIds, fun seconds h => (pollInterval seconds h).2,
      apiTimeout, pageSize⟩
  · rintro ⟨onEvent, tokenCmd, reference, labelIds, pollInterval, apiTimeout, pageSize⟩
    refine ⟨onEvent, tokenCmd, reference, labelIds, fun seconds h => ⟨?_, pollInterval seconds h⟩,
      apiTimeout, pageSize⟩
    exact Nat.lt_of_lt_of_le (by decide) (pollInterval seconds h)

theorem fsState_ok_iff {source : FsStateSourceConfig} :
    source.validate commandNames = .ok () ↔ source.WellFormed commandNames := by
  simp only [FsStateSourceConfig.validate, then_ok_iff, validateNonempty_ok_iff,
    validateCommandReference_ok_iff, whenSome_ok_iff, validateNonzeroSeconds_ok_iff,
    refuseIf_ok_iff, forM_ok_iff, validateWatchPath, List.isEmpty_eq_false_iff]
  constructor
  · rintro ⟨onChange, reference, watched, watchPaths, stateCmd, maxDebounce⟩
    exact ⟨onChange, reference, watched, fun path h => by simpa using watchPaths path h, stateCmd,
      maxDebounce⟩
  · rintro ⟨onChange, reference, watched, watchPaths, stateCmd, maxDebounce⟩
    exact ⟨onChange, reference, watched, fun path h => by simpa using watchPaths path h, stateCmd,
      maxDebounce⟩

theorem systemResume_ok_iff {source : SystemResumeSourceConfig} :
    source.validate commandNames = .ok () ↔ source.WellFormed commandNames := by
  simp only [SystemResumeSourceConfig.validate, then_ok_iff, validateNonempty_ok_iff,
    validateCommandReference_ok_iff]
  constructor
  · rintro ⟨onResume, reference⟩
    exact ⟨onResume, reference⟩
  · rintro ⟨onResume, reference⟩
    exact ⟨onResume, reference⟩

theorem validateKind_ok_iff {source : SourceConfig} :
    source.validateKind accountNames commandNames = .ok () ↔
      source.KindWellFormed accountNames commandNames := by
  cases source with
  | imapIdle source => exact imapIdle_ok_iff
  | gmailApiPoll source => exact gmailApiPoll_ok_iff
  | fsState source => exact fsState_ok_iff
  | systemResume source => exact systemResume_ok_iff

theorem validateSource_registers :
    Registers (SourceConfig.validate accountNames commandNames)
      (SourceConfig.WellFormed accountNames commandNames)
      (fun (_ : Unit) source => [source.name]) (fun _ names => names) := by
  refine ⟨?_, ?_⟩
  · intro names source
    simp only [SourceConfig.validate, then_total_iff, bind_total_iff, validateNonempty_ok_iff,
      validateKind_ok_iff, fresh_one]
    constructor
    · rintro ⟨name, after, hs, kind, -⟩
      exact ⟨⟨name, kind⟩, fun _ => (insertNew_ok hs).1⟩
    · rintro ⟨⟨name, kind⟩, new⟩
      obtain ⟨after, hs⟩ := insertNew_total_iff.mpr (new ())
      exact ⟨name, after, hs, kind, _, rfl⟩
  · intro names source after h _
    exact (validateSource_ok h).1.names

end Sources

/-- The global values are in their ranges, and something is watched. -/
structure Config.GlobalsWellFormed (config : Config) : Prop where
  watches : 0 < config.sourceCount
  maxDebounce : 0 < config.defaultMaxDebounce
  helperTimeout : 0 < config.authHelperTimeout
  helperOutput : 0 < config.authHelperMaxOutput
  commandTimeout : 0 < config.commandTimeout
  outputMax : 0 < config.commandOutputMax
  outputTail : 0 < config.commandOutputTail
  connectTimeout : 0 < config.connectTimeout
  operationTimeout : 0 < config.imapOperationTimeout
  capture : config.captureCommandOutput = none ∨ config.logCommandOutput = none
  idleRefresh : 60 ≤ config.idleRefresh
  watcherStale : min (config.idleRefresh * 2) u64Max ≤ config.watcherStale

def Config.commandNames (config : Config) : List String := config.commands.map (·.name)

def Config.accountNames (config : Config) : List String := config.accounts.map (·.name)

structure Config.WellFormed (config : Config) : Prop extends config.GlobalsWellFormed where
  commands : ∀ command ∈ config.commands, command.WellFormed
  accounts : ∀ account ∈ config.accounts, account.WellFormed
  sources : ∀ source ∈ config.sources, source.WellFormed config.accountNames config.commandNames
  distinctCommands : config.commandNames.Nodup
  distinctAccounts : config.accountNames.Nodup
  /-- The mailboxes of the accounts share the name space of the sources. -/
  distinctSources : (config.legacyNames ++ config.sources.map (·.name)).Nodup
  apart : ∀ name ∈ config.legacyNames, name ∉ config.commandNames

theorem validateGlobals_ok_iff {config : Config} :
    config.validateGlobals = .ok () ↔ config.GlobalsWellFormed := by
  simp only [Config.validateGlobals, then_ok_iff, validateNonzeroSeconds_ok_iff,
    validateNonzeroBytes_ok_iff, validateNonzeroCount_ok_iff, refuseIf_ok_iff,
    decide_eq_false_iff_not, Nat.not_lt, Bool.and_eq_false_iff, Option.isSome_eq_false_iff,
    Option.isNone_iff_eq_none]
  constructor
  · rintro ⟨watches, maxDebounce, helperTimeout, helperOutput, commandTimeout, outputMax,
      outputTail, connectTimeout, operationTimeout, capture, -, idleRefresh, -, watcherStale⟩
    exact ⟨Nat.pos_of_ne_zero watches, maxDebounce, helperTimeout, helperOutput, commandTimeout,
      outputMax, outputTail, connectTimeout, operationTimeout, capture, idleRefresh, watcherStale⟩
  · rintro ⟨watches, maxDebounce, helperTimeout, helperOutput, commandTimeout, outputMax,
      outputTail, connectTimeout, operationTimeout, capture, idleRefresh, watcherStale⟩
    refine ⟨Nat.ne_of_gt watches, maxDebounce, helperTimeout, helperOutput, commandTimeout,
      outputMax, outputTail, connectTimeout, operationTimeout, capture, ?_, idleRefresh, ?_,
      watcherStale⟩
    · exact Nat.lt_of_lt_of_le (by decide) idleRefresh
    · refine Nat.lt_of_lt_of_le ?_ watcherStale
      have large : 0 < u64Max := by decide
      omega

theorem validateCommands_total_iff {config : Config} :
    (∃ names, config.validateCommands = .ok names) ↔
      (∀ command ∈ config.commands, command.WellFormed) ∧ config.commandNames.Nodup := by
  rw [Config.validateCommands, validateCommand_registers.accepts_all, Config.commandNames,
    List.map_eq_flatMap]
  exact and_congr_right fun _ => ⟨fun fresh => (fresh ()).distinct,
    fun distinct _ => fresh_nil_iff.mpr distinct⟩

theorem validateCommands_names {config : Config} {names : List String}
    (h : config.validateCommands = .ok names) : names = config.commandNames.reverse := by
  have entered := validateCommand_registers.entered h ()
  rw [List.append_nil] at entered
  rw [entered, Config.commandNames, List.map_eq_flatMap]

section Folds
variable {config : Config} {accountNames commandNames known : List String} {names : Names}

theorem accounts_total_iff :
    (∃ names, config.accounts.foldlM (validateAccount commandNames) ⟨[], []⟩ = .ok names) ↔
      (∀ account ∈ config.accounts, account.Apart commandNames) ∧
        config.legacyNames.Nodup ∧ config.accountNames.Nodup := by
  rw [(validateAccount_registers commandNames).accepts_all, Bool.forall_bool,
    Config.legacyNames_eq, Config.accountNames, List.map_eq_flatMap]
  exact and_congr_right fun _ => and_congr fresh_nil_iff fresh_nil_iff

theorem accounts_names
    (h : config.accounts.foldlM (validateAccount commandNames) ⟨[], []⟩ = .ok names) :
    names.accounts = config.accountNames.reverse ∧ names.sources = config.legacyNames.reverse := by
  have entered := (validateAccount_registers commandNames).entered h
  refine ⟨(entered true).trans ?_, (entered false).trans ?_⟩
  · change (config.accounts.flatMap fun account => [account.name]).reverse ++ [] = _
    rw [List.append_nil, Config.accountNames, List.map_eq_flatMap]
  · change (config.accounts.flatMap AccountConfig.legacyNames).reverse ++ [] = _
    rw [List.append_nil, Config.legacyNames_eq]

theorem sources_total_iff :
    (∃ last, config.sources.foldlM (SourceConfig.validate accountNames commandNames) known =
        .ok last) ↔
      (∀ source ∈ config.sources, source.WellFormed accountNames commandNames) ∧
        Fresh (config.sources.map (·.name)) known := by
  rw [validateSource_registers.accepts_all, List.map_eq_flatMap]
  exact and_congr_right fun _ => ⟨fun fresh => fresh (), fun fresh _ => fresh⟩

end Folds

section Acceptance
variable {config : Config}

/-- The sources' names are new to the accounts' just if together no name comes twice. -/
theorem distinctSources_iff (config : Config) :
    (config.legacyNames ++ config.sources.map (·.name)).Nodup ↔
      config.legacyNames.Nodup ∧
        Fresh (config.sources.map (·.name)) config.legacyNames.reverse := by
  rw [← fresh_nil_iff, fresh_append, fresh_nil_iff, List.append_nil]

theorem wellFormed_of_validate (h : config.validate = .ok ()) : config.WellFormed := by
  obtain ⟨globals, h⟩ := then_ok h
  obtain ⟨commandNames, hc, h⟩ := bind_ok h
  obtain ⟨names, ha, h⟩ := bind_ok h
  obtain ⟨last, hs, -⟩ := bind_ok h
  obtain ⟨commands, distinctCommands⟩ := validateCommands_total_iff.mp ⟨commandNames, hc⟩
  obtain ⟨accounts, legacy, distinctAccounts⟩ := accounts_total_iff.mp ⟨names, ha⟩
  obtain ⟨sources, fresh⟩ := sources_total_iff.mp ⟨last, hs⟩
  obtain rfl := validateCommands_names hc
  obtain ⟨takenAccounts, takenSources⟩ := accounts_names ha
  rw [takenAccounts] at sources
  rw [takenSources] at fresh
  refine ⟨validateGlobals_ok_iff.mp globals, commands,
    fun account mem => (accounts account mem).toWellFormed, ?_, distinctCommands,
    distinctAccounts, (distinctSources_iff config).mpr ⟨legacy, fresh⟩, ?_⟩
  · intro source mem
    exact (sources source mem).congr (fun _ => List.mem_reverse) (fun _ => List.mem_reverse)
  · intro name taken
    rw [Config.legacyNames_eq] at taken
    obtain ⟨account, mem, legacyName⟩ := List.mem_flatMap.mp taken
    simpa using (accounts account mem).apart name legacyName

theorem validate_of_wellFormed (h : config.WellFormed) : config.validate = .ok () := by
  obtain ⟨globals, commands, accounts, sources, distinctCommands, distinctAccounts,
    distinctSources, apart⟩ := h
  obtain ⟨legacy, fresh⟩ := (distinctSources_iff config).mp distinctSources
  obtain ⟨commandNames, hc⟩ := validateCommands_total_iff.mpr ⟨commands, distinctCommands⟩
  obtain rfl := validateCommands_names hc
  have together : ∀ account ∈ config.accounts, account.Apart config.commandNames.reverse := by
    refine fun account mem => ⟨accounts account mem, fun name legacyName => ?_⟩
    rw [List.mem_reverse]
    exact apart name (config.legacyNames_eq ▸ List.mem_flatMap.mpr ⟨account, mem, legacyName⟩)
  obtain ⟨names, ha⟩ := accounts_total_iff.mpr ⟨together, legacy, distinctAccounts⟩
  obtain ⟨takenAccounts, takenSources⟩ := accounts_names ha
  have accepted : ∃ last, config.sources.foldlM
      (SourceConfig.validate names.accounts config.commandNames.reverse) names.sources =
        .ok last := by
    rw [takenAccounts, takenSources]
    exact sources_total_iff.mpr ⟨fun source mem => (sources source mem).congr
      (fun _ => List.mem_reverse.symm) (fun _ => List.mem_reverse.symm), fresh⟩
  obtain ⟨last, hs⟩ := accepted
  refine then_ok_iff.mpr ⟨validateGlobals_ok_iff.mpr globals, ?_⟩
  exact bind_ok_iff.mpr ⟨_, hc, bind_ok_iff.mpr ⟨names, ha, bind_ok_iff.mpr ⟨last, hs, rfl⟩⟩⟩

/-- `Config::validate` accepts a configuration just if it is well formed. -/
theorem validate_accepts_exactly_the_well_formed (config : Config) :
    config.validate = .ok () ↔ config.WellFormed :=
  ⟨wellFormed_of_validate, validate_of_wellFormed⟩

end Acceptance

section Order
variable {config : Config} {accounts : List AccountConfig} {commands : List CommandConfig}
  {sources : List SourceConfig}

theorem Config.WellFormed.reorder (h : config.WellFormed) (perm : config.accounts.Perm accounts)
    (commandPerm : config.commands.Perm commands) (sourcePerm : config.sources.Perm sources) :
    { config with accounts, commands, sources : Config }.WellFormed := by
  have legacy : config.legacyNames.Perm
      { config with accounts, commands, sources : Config }.legacyNames :=
    perm.flatMap_right AccountConfig.legacyNames
  have mailboxes : (config.accounts.map (·.mailboxes.length)).sum =
      (accounts.map (·.mailboxes.length)).sum := (perm.map _).sum_nat
  have commandNames := commandPerm.map CommandConfig.name
  have accountNames := perm.map AccountConfig.name
  obtain ⟨⟨watches, maxDebounce, helperTimeout, helperOutput, commandTimeout, outputMax, outputTail,
    connectTimeout, operationTimeout, capture, idleRefresh, watcherStale⟩, eachCommand,
    eachAccount, eachSource, distinctCommands, distinctAccounts, distinctSources, apart⟩ := h
  rw [Config.sourceCount, Config.mailboxCount, mailboxes, sourcePerm.length_eq] at watches
  refine ⟨⟨watches, maxDebounce, helperTimeout, helperOutput, commandTimeout, outputMax,
    outputTail, connectTimeout, operationTimeout, capture, idleRefresh, watcherStale⟩, ?_, ?_, ?_,
    commandNames.nodup_iff.mp distinctCommands, accountNames.nodup_iff.mp distinctAccounts,
    (legacy.append (sourcePerm.map _)).nodup_iff.mp distinctSources, ?_⟩
  · exact fun command mem => eachCommand command (commandPerm.mem_iff.mpr mem)
  · exact fun account mem => eachAccount account (perm.mem_iff.mpr mem)
  · intro source mem
    exact (eachSource source (sourcePerm.mem_iff.mpr mem)).congr (fun _ => accountNames.mem_iff)
      (fun _ => commandNames.mem_iff)
  · intro name taken command
    exact apart name (legacy.mem_iff.mpr taken) (commandNames.mem_iff.mpr command)

/-- Whether a configuration is accepted does not depend on the order of its entries. -/
theorem acceptance_ignores_the_order (perm : config.accounts.Perm accounts)
    (commandPerm : config.commands.Perm commands) (sourcePerm : config.sources.Perm sources) :
    { config with accounts, commands, sources : Config }.validate = .ok () ↔
      config.validate = .ok () := by
  constructor
  · intro valid
    exact validate_of_wellFormed ((wellFormed_of_validate valid).reorder perm.symm
      commandPerm.symm sourcePerm.symm)
  · intro valid
    exact validate_of_wellFormed ((wellFormed_of_validate valid).reorder perm commandPerm
      sourcePerm)

end Order

private def exampleConfig : Config :=
  { Config.empty with
    commands := [⟨"sync", none, "sync all", none, none, none, none, none⟩,
      ⟨"index", none, "index all", none, none, none, none, none⟩]
    sources := [.systemResume ⟨"resume", "sync", none⟩] }

theorem example_config_is_accepted_in_reverse :
    { exampleConfig with commands := exampleConfig.commands.reverse : Config }.validate =
      .ok () := by
  have reversed := acceptance_ignores_the_order (List.Perm.refl exampleConfig.accounts)
    (List.reverse_perm exampleConfig.commands).symm (List.Perm.refl exampleConfig.sources)
  exact reversed.mpr (by decide +kernel)

end DaemonConfig

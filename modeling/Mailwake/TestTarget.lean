import Mailwake.Wiring

/-!
# What a test target runs

`test-command` resolves a target by its own lookups. The spec that the daemon runs for the
command is found by the name alone.
-/
namespace Daemon
open DaemonConfig Fallible

/-- The commands that a target of `test-command` can stand for, as the daemon's specs. -/
inductive Resolves (config : Config) :
    Option String → Option String → Option String → RuntimeCommandSpec → Prop where
  | command {command : CommandConfig} : command ∈ config.commands →
      Resolves config (some command.name) none none (commandSpec config command)
  | mailbox {account : AccountConfig} {mailbox : MailboxConfig} : account ∈ config.accounts →
      mailbox ∈ account.mailboxes →
      Resolves config none (some account.name) (some mailbox.name)
        (legacySpec config account mailbox)
  | source {source : ImapIdleSourceConfig} {command : CommandConfig} :
      .imapIdle source ∈ config.sources → command ∈ config.commands →
      command.name = source.onEvent →
      Resolves config none (some source.account) (some source.mailbox)
        (commandSpec config command)

variable {config : Config} {commandName accountName mailboxName : Option String}
  {test : TestCommand}

/-- The target runs with the text, the timeout and the output policy of its command's spec. -/
def RunsAsDaemon (config : Config) (commandName accountName mailboxName : Option String)
    (test : TestCommand) : Prop :=
  ∃ spec ∈ runtimeCommandSpecs config, Resolves config commandName accountName mailboxName spec ∧
    (∀ other ∈ runtimeCommandSpecs config, other.name = test.name ↔ other = spec) ∧
    test.cmd = spec.cmd ∧ test.timeout = spec.timeout ∧ test.outputPolicy = spec.outputPolicy

/-- The command overrides nothing of the global output policy. -/
def keepsOutput (config : Config) (command : CommandConfig) : Bool :=
  command.outputMode.all (· = config.commandOutputPolicy.mode) &&
    command.outputMaxBytes.all (· = config.commandOutputPolicy.maxBytes) &&
    command.outputTailLines.all (· = config.commandOutputPolicy.tailLines)

/-- A mailbox that only an `imap_idle` source watches has a command that overrides nothing. -/
def KeepsOutput (config : Config) :
    Option String → Option String → Option String → Prop
  | none, some account, some mailbox => findMailbox config account mailbox = none →
      ∀ source command, findImapIdle config account mailbox = some source →
        config.commands.find? (·.name = source.onEvent) = some command →
        keepsOutput config command = true
  | _, _, _ => True

theorem getD_eq_iff {α : Type} [DecidableEq α] (value : Option α) (default : α) :
    value.getD default = default ↔ value.all (· = default) = true := by
  cases value <;> simp

theorem outputPolicy_eq_iff (command : CommandConfig) :
    config.commandOutputPolicy = command.outputPolicy config ↔
      keepsOutput config command = true := by
  simp only [keepsOutput, Bool.and_eq_true, ← getD_eq_iff]
  constructor
  · intro same
    rw [CommandConfig.outputPolicy] at same
    exact ⟨⟨(congrArg CommandOutputPolicy.mode same).symm,
      (congrArg CommandOutputPolicy.maxBytes same).symm⟩,
      (congrArg CommandOutputPolicy.tailLines same).symm⟩
  · rintro ⟨⟨mode, maxBytes⟩, tailLines⟩
    rw [CommandConfig.outputPolicy, mode, maxBytes, tailLines]

theorem mem_specs_of_command {command : CommandConfig} (h : command ∈ config.commands) :
    commandSpec config command ∈ runtimeCommandSpecs config :=
  List.mem_append_right _ (List.mem_map_of_mem h)

theorem mem_specs_of_mailbox {account : AccountConfig} {mailbox : MailboxConfig}
    (h : account ∈ config.accounts) (h' : mailbox ∈ account.mailboxes) :
    legacySpec config account mailbox ∈ runtimeCommandSpecs config :=
  List.mem_append_left _ (List.mem_flatMap.mpr ⟨account, h, List.mem_map_of_mem h'⟩)

/-- A spec is known by its name. -/
theorem spec_unique (accepted : Accepted config) {spec : RuntimeCommandSpec}
    (h : spec ∈ runtimeCommandSpecs config) (other : RuntimeCommandSpec)
    (h' : other ∈ runtimeCommandSpecs config) : other.name = spec.name ↔ other = spec :=
  ⟨List.inj_on_of_nodup_map (specNames_nodup accepted) h' h, fun same => same ▸ rfl⟩

theorem findMailbox_some {account : AccountConfig} {mailbox : MailboxConfig} {name box : String}
    (h : findMailbox config name box = some (account, mailbox)) :
    account ∈ config.accounts ∧ account.name = name ∧ mailbox ∈ account.mailboxes ∧
      mailbox.name = box := by
  obtain ⟨found, ha, h⟩ := Option.bind_eq_some_iff.mp h
  obtain ⟨held, hm, h⟩ := Option.bind_eq_some_iff.mp h
  obtain ⟨rfl, rfl⟩ := Prod.mk.inj (Option.some.inj h)
  exact ⟨List.mem_of_find?_eq_some ha, by simpa using List.find?_some ha,
    List.mem_of_find?_eq_some hm, by simpa using List.find?_some hm⟩

theorem findImapIdle_some {source : ImapIdleSourceConfig} {name box : String}
    (h : findImapIdle config name box = some source) :
    .imapIdle source ∈ config.sources ∧ source.account = name ∧ source.mailbox = box := by
  obtain ⟨held, mem, found⟩ := List.exists_of_findSome?_eq_some h
  cases held with
  | imapIdle other =>
    simp only [Option.ite_none_right_eq_some, Option.some.injEq] at found
    obtain ⟨⟨account, mailbox⟩, rfl⟩ := found
    exact ⟨mem, account, mailbox⟩
  | gmailApiPoll other => cases found
  | fsState other => cases found
  | systemResume other => cases found

theorem find_command {command : CommandConfig} {name : String}
    (h : config.commands.find? (·.name = name) = some command) :
    command ∈ config.commands ∧ command.name = name :=
  ⟨List.mem_of_find?_eq_some h, by simpa using List.find?_some h⟩

/-- Name, text and timeout are those of one spec, so that its output policy is what remains. -/
theorem runsAsDaemon_iff (accepted : Accepted config) {spec : RuntimeCommandSpec}
    (listed : spec ∈ runtimeCommandSpecs config)
    (resolves : Resolves config commandName accountName mailboxName spec)
    (name : test.name = spec.name) (cmd : test.cmd = spec.cmd)
    (timeout : test.timeout = spec.timeout) :
    RunsAsDaemon config commandName accountName mailboxName test ↔
      test.outputPolicy = spec.outputPolicy := by
  constructor
  · rintro ⟨other, mem, -, named, -, -, policy⟩
    have same : other = spec :=
      (spec_unique accepted listed other mem).mp (((named other mem).mpr rfl).trans name)
    rw [policy, same]
  · intro policy
    refine ⟨spec, listed, resolves, ?_, cmd, timeout, policy⟩
    rw [name]
    exact spec_unique accepted listed

theorem mailboxCommand_cases {account box name cmd : String} {timeout : Nat}
    (h : mailboxCommand config account box = .ok (name, cmd, timeout)) :
    (∃ owner mailbox, findMailbox config account box = some (owner, mailbox) ∧
        name = legacySourceName owner.name mailbox.name ∧ cmd = mailbox.onNotify ∧
        timeout = config.commandTimeout) ∨
      (findMailbox config account box = none ∧ ∃ source command,
        findImapIdle config account box = some source ∧
        config.commands.find? (·.name = source.onEvent) = some command ∧
        name = command.name ∧ cmd = command.cmd ∧ timeout = command.timeout config) := by
  rw [mailboxCommand] at h
  split at h
  · rename_i owner mailbox found
    cases h
    exact Or.inl ⟨owner, mailbox, found, rfl, rfl, rfl⟩
  · rename_i missing
    split at h
    · rename_i source found
      split at h
      · rename_i command known
        cases h
        exact Or.inr ⟨missing, source, command, found, known, rfl, rfl, rfl⟩
      · cases h
    · split at h <;> cases h

theorem runsAsDaemon_mailbox (accepted : Accepted config) {account box name cmd : String}
    {timeout : Nat} {description : String}
    (h : mailboxCommand config account box = .ok (name, cmd, timeout)) :
    RunsAsDaemon config none (some account) (some box)
        ⟨name, cmd, timeout, config.commandOutputPolicy, description⟩ ↔
      KeepsOutput config none (some account) (some box) := by
  rcases mailboxCommand_cases h with ⟨owner, mailbox, found, rfl, rfl, rfl⟩ |
    ⟨missing, source, command, found, known, rfl, rfl, rfl⟩
  · obtain ⟨howner, rfl, hmailbox, rfl⟩ := findMailbox_some found
    refine (runsAsDaemon_iff accepted (mem_specs_of_mailbox howner hmailbox)
      (.mailbox howner hmailbox) rfl rfl rfl).trans ?_
    refine iff_of_true rfl ?_
    intro missing
    cases missing.symm.trans found
  · obtain ⟨hsource, rfl, rfl⟩ := findImapIdle_some found
    obtain ⟨hcommand, named⟩ := find_command known
    refine (runsAsDaemon_iff accepted (mem_specs_of_command hcommand)
      (.source hsource hcommand named) rfl rfl rfl).trans ((outputPolicy_eq_iff command).trans ?_)
    constructor
    · intro keeps _ other held found' known'
      obtain rfl := Option.some.inj (found.symm.trans found')
      obtain rfl := Option.some.inj (known.symm.trans known')
      exact keeps
    · exact fun keeps => keeps missing source command found known

/-- An accepted target runs as the daemon would run its command, unless it names the mailbox
of an `imap_idle` source whose command overrides the output policy. -/
theorem test_command_runs_as_daemon_iff (valid : config.validate = .ok ())
    (h : configuredTestCommand config commandName accountName mailboxName = .ok test) :
    RunsAsDaemon config commandName accountName mailboxName test ↔
      KeepsOutput config commandName accountName mailboxName := by
  have accepted := accepted_of_validate valid
  rw [configuredTestCommand.eq_def] at h
  split at h
  · split at h
    · rename_i command known
      obtain ⟨hcommand, rfl⟩ := find_command known
      cases h
      exact (runsAsDaemon_iff accepted (mem_specs_of_command hcommand) (.command hcommand)
        rfl rfl rfl).trans (iff_of_true rfl trivial)
    · cases h
  · obtain ⟨⟨name, cmd, timeout⟩, found, same⟩ := bind_ok h
    cases same
    exact runsAsDaemon_mailbox accepted found
  · cases h

/-- A silent command that an `imap_idle` source runs. -/
def silentConfig : Config :=
  { mailConfig with
    commands := [⟨"sync", some "mail", "sync all", none, none, some .silent, none, none⟩] }

theorem silent_source_command_is_logged : silentConfig.validate = .ok () ∧
    ∃ test, configuredTestCommand silentConfig none (some "home") (some "Archive") = .ok test ∧
      test.name = "sync" ∧ test.outputPolicy.mode = .failureTail ∧
      (∀ spec ∈ runtimeCommandSpecs silentConfig, spec.name = "sync" →
        spec.outputPolicy.mode = .silent) ∧
      ¬ RunsAsDaemon silentConfig none (some "home") (some "Archive") test := by
  refine ⟨by decide +kernel, ?_⟩
  have evaluated : (configuredTestCommand silentConfig none (some "home")
      (some "Archive")).toOption.map (fun test => (test.name, test.outputPolicy.mode)) =
        some ("sync", .failureTail) := by decide +kernel
  obtain ⟨test, found, heq⟩ := Option.map_eq_some_iff.mp evaluated
  obtain ⟨name, mode⟩ := Prod.mk.inj heq
  have silent : ∀ spec ∈ runtimeCommandSpecs silentConfig, spec.name = "sync" →
      spec.outputPolicy.mode = .silent := by decide +kernel
  refine ⟨test, ok_of_toOption found, name, mode, silent, ?_⟩
  rintro ⟨spec, listed, -, named, -, -, policy⟩
  have other := silent spec listed (((named spec listed).mpr rfl).trans name)
  rw [← policy, mode] at other
  cases other

/-- The same target with the mailbox of the account itself. -/
theorem inbox_runs_as_daemon : mailConfig.validate = .ok () ∧
    ∃ test, configuredTestCommand mailConfig none (some "home") (some "INBOX") = .ok test ∧
      (RunsAsDaemon mailConfig none (some "home") (some "INBOX") test ↔
        KeepsOutput mailConfig none (some "home") (some "INBOX")) := by
  have valid : mailConfig.validate = .ok () := by decide +kernel
  have evaluated : (configuredTestCommand mailConfig none (some "home")
      (some "INBOX")).toOption.isSome = true := by decide +kernel
  obtain ⟨test, found⟩ := Option.isSome_iff_exists.mp evaluated
  exact ⟨valid, test, ok_of_toOption found,
    test_command_runs_as_daemon_iff valid (ok_of_toOption found)⟩

end Daemon

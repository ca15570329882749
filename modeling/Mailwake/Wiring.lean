import Mathlib.Data.List.Dedup
import Mailwake.Auth
import Mailwake.Daemon
import Mailwake.LaneKnown
import Mailwake.RuntimeEntries

/-!
# An accepted configuration is wired up

The passes that build the specs, the lanes, the senders and the watchers agree on an accepted
configuration, in whatever order the lanes are started.
-/
namespace Daemon
open DaemonConfig Fallible Transition

section Specs
variable (config : Config)

theorem runtimeCommandSpecs_names :
    (runtimeCommandSpecs config).map (·.name) =
      config.legacyNames ++ config.commands.map (·.name) := by
  simp [runtimeCommandSpecs, Config.legacyNames, legacySpec, commandSpec, List.map_flatMap,
    Function.comp_def]

theorem runtimeCommandSpecs_lanes :
    (runtimeCommandSpecs config).map (·.lane) =
      config.legacyNames ++ config.commands.map (·.laneName) := by
  simp [runtimeCommandSpecs, Config.legacyNames, legacySpec, commandSpec, List.map_flatMap,
    Function.comp_def]

variable {config}

theorem legacyNames_nodup (accepted : Accepted config) : config.legacyNames.Nodup :=
  (List.nodup_append.mp accepted.sourceNames).1

theorem specNames_nodup (accepted : Accepted config) :
    ((runtimeCommandSpecs config).map (·.name)).Nodup := by
  rw [runtimeCommandSpecs_names]
  refine List.nodup_append.mpr ⟨legacyNames_nodup accepted, accepted.commandNames, ?_⟩
  rintro name legacy other named rfl
  exact accepted.apart name legacy named

end Specs

section Lanes

/-- The groups hold every command under its own lane, each lane once. -/
structure Grouped (specs : List RuntimeCommandSpec) (lanes : List LaneCommands) : Prop where
  distinct : (lanes.map (·.1)).Nodup
  own : ∀ group ∈ lanes, group.2 ≠ [] ∧ ∀ command ∈ group.2, command.lane = group.1 ∧ command ∈ specs
  each : ∀ command ∈ specs, ∃ group ∈ lanes, command ∈ group.2

variable {specs : List RuntimeCommandSpec} {lanes : List LaneCommands}
  {command : RuntimeCommandSpec}

theorem pushCommand_lanes (lanes : List LaneCommands) (command : RuntimeCommandSpec) :
    (pushCommand lanes command).map (·.1) =
      if command.lane ∈ lanes.map (·.1) then lanes.map (·.1)
      else lanes.map (·.1) ++ [command.lane] := by
  induction lanes with
  | nil => rfl
  | cons group rest ih =>
    rw [pushCommand]
    by_cases same : group.1 = command.lane
    · simp [same]
    · have other : ¬ command.lane = group.1 := fun h => same h.symm
      simp only [if_neg same, List.map_cons, ih, List.mem_cons, other, false_or]
      split <;> rfl

/-- A group of the result is an old one, an old one with the command, or the command alone. -/
theorem mem_pushCommand {group : LaneCommands} (h : group ∈ pushCommand lanes command) :
    group ∈ lanes ∨ group.1 = command.lane ∧
      ((∃ before, (command.lane, before) ∈ lanes ∧ group.2 = before ++ [command]) ∨
        group.2 = [command]) := by
  induction lanes with
  | nil =>
    obtain rfl := List.mem_singleton.mp h
    exact Or.inr ⟨rfl, Or.inr rfl⟩
  | cons head rest ih =>
    obtain ⟨lane, commands⟩ := head
    rw [pushCommand] at h
    split at h
    · rename_i same
      rcases List.mem_cons.mp h with rfl | h
      · exact Or.inr ⟨same, Or.inl ⟨commands, by simp [same], rfl⟩⟩
      · exact Or.inl (List.mem_cons_of_mem _ h)
    · rcases List.mem_cons.mp h with rfl | h
      · exact Or.inl List.mem_cons_self
      · rcases ih h with old | ⟨same, ⟨before, mem, added⟩ | alone⟩
        · exact Or.inl (List.mem_cons_of_mem _ old)
        · exact Or.inr ⟨same, Or.inl ⟨before, List.mem_cons_of_mem _ mem, added⟩⟩
        · exact Or.inr ⟨same, Or.inr alone⟩

theorem pushCommand_holds (lanes : List LaneCommands) (command : RuntimeCommandSpec) :
    ∃ group ∈ pushCommand lanes command, command ∈ group.2 := by
  induction lanes with
  | nil => exact ⟨(command.lane, [command]), by simp [pushCommand], by simp⟩
  | cons head rest ih =>
    rw [pushCommand]
    split
    · exact ⟨_, List.mem_cons_self, by simp⟩
    · obtain ⟨group, mem, holds⟩ := ih
      exact ⟨group, List.mem_cons_of_mem _ mem, holds⟩

/-- No group loses a command. -/
theorem pushCommand_keeps {group : LaneCommands} (h : group ∈ lanes) :
    ∃ after ∈ pushCommand lanes command, group.2 ⊆ after.2 := by
  induction lanes with
  | nil => cases h
  | cons head rest ih =>
    obtain ⟨lane, commands⟩ := head
    rw [pushCommand]
    rcases List.mem_cons.mp h with rfl | h
    · split
      · exact ⟨_, List.mem_cons_self, by simp⟩
      · exact ⟨_, List.mem_cons_self, fun _ hc => hc⟩
    · split
      · exact ⟨group, List.mem_cons_of_mem _ h, fun _ hc => hc⟩
      · obtain ⟨after, mem, subset⟩ := ih h
        exact ⟨after, List.mem_cons_of_mem _ mem, subset⟩

theorem grouped_push (grouped : Grouped specs lanes) (command : RuntimeCommandSpec) :
    Grouped (specs ++ [command]) (pushCommand lanes command) := by
  refine ⟨?_, ?_, ?_⟩
  · rw [pushCommand_lanes]
    split
    · exact grouped.distinct
    · rename_i fresh
      refine List.nodup_append.mpr ⟨grouped.distinct, by simp, ?_⟩
      rintro lane old other added rfl
      obtain rfl := List.mem_singleton.mp added
      exact fresh old
  · intro group h
    rcases mem_pushCommand h with old | ⟨same, ⟨before, mem, added⟩ | alone⟩
    · obtain ⟨nonempty, own⟩ := grouped.own group old
      exact ⟨nonempty, fun c hc => ⟨(own c hc).1, List.mem_append_left _ (own c hc).2⟩⟩
    · rw [added, same]
      refine ⟨by simp, ?_⟩
      intro c hc
      rcases List.mem_append.mp hc with hc | hc
      · obtain ⟨lane, listed⟩ := (grouped.own _ mem).2 c hc
        exact ⟨lane, List.mem_append_left _ listed⟩
      · obtain rfl := List.mem_singleton.mp hc
        exact ⟨rfl, by simp⟩
    · rw [alone, same]
      refine ⟨by simp, ?_⟩
      intro c hc
      obtain rfl := List.mem_singleton.mp hc
      exact ⟨rfl, by simp⟩
  · intro c hc
    rcases List.mem_append.mp hc with hc | hc
    · obtain ⟨group, mem, holds⟩ := grouped.each c hc
      obtain ⟨after, hafter, subset⟩ : ∃ after ∈ pushCommand lanes command, group.2 ⊆ after.2 :=
        pushCommand_keeps mem
      exact ⟨after, hafter, subset holds⟩
    · obtain rfl := List.mem_singleton.mp hc
      exact pushCommand_holds lanes c

theorem grouped_foldl (grouped : Grouped specs lanes) (commands : List RuntimeCommandSpec) :
    Grouped (specs ++ commands) (commands.foldl pushCommand lanes) := by
  induction commands generalizing specs lanes with
  | nil => simpa using grouped
  | cons command rest ih =>
    have next := ih (grouped_push grouped command)
    rwa [List.append_assoc] at next

theorem grouped_commandsByLane (specs : List RuntimeCommandSpec) :
    Grouped specs (commandsByLane specs) := by
  have none : Grouped [] [] := ⟨List.nodup_nil, by simp, by simp⟩
  exact grouped_foldl none specs

/-- The order of the lanes does not matter. -/
theorem Grouped.perm {others : List LaneCommands} (grouped : Grouped specs lanes)
    (order : others.Perm lanes) : Grouped specs others := by
  refine ⟨(order.map _).nodup_iff.mpr grouped.distinct, ?_, ?_⟩
  · exact fun group h => grouped.own group (order.mem_iff.mp h)
  · intro command h
    obtain ⟨group, mem, holds⟩ := grouped.each command h
    exact ⟨group, order.mem_iff.mpr mem, holds⟩

end Lanes

section Senders
variable {specs : List RuntimeCommandSpec} {lanes : List LaneCommands} {senders : CommandSenders}
  {name lane : String}

/-- A sender that all commands of the name agree on stays, once it is there. -/
theorem insertSenders_keeps {group : LaneCommands} (h : senders.lookup name = some lane)
    (agree : ∀ command ∈ group.2, command.name = name → group.1 = lane) :
    (insertSenders senders group).lookup name = some lane := by
  rw [insertSenders]
  generalize group.2 = commands at agree
  induction commands generalizing senders with
  | nil => exact h
  | cons command rest ih =>
    refine ih ?_ fun c hc => agree c (List.mem_cons_of_mem _ hc)
    dsimp only
    by_cases same : command.name = name
    · rw [same, AList.lookup_insert, agree command List.mem_cons_self same]
    · rw [AList.lookup_insert_ne (Ne.symm same), h]

theorem insertSenders_adds {group : LaneCommands} {command : RuntimeCommandSpec}
    (mem : command ∈ group.2) :
    (insertSenders senders group).lookup command.name = some group.1 := by
  rw [insertSenders]
  obtain ⟨lane, commands⟩ := group
  dsimp only at mem ⊢
  induction commands generalizing senders with
  | nil => cases mem
  | cons first rest ih =>
    rcases List.mem_cons.mp mem with rfl | mem
    · have kept : (insertSenders (senders.insert command.name lane) (lane, rest)).lookup
          command.name = some lane :=
        insertSenders_keeps (AList.lookup_insert _) fun _ _ _ => rfl
      exact kept
    · exact ih mem

theorem foldl_insertSenders_keeps (h : senders.lookup name = some lane)
    (agree : ∀ group ∈ lanes, ∀ command ∈ group.2, command.name = name → group.1 = lane) :
    (lanes.foldl insertSenders senders).lookup name = some lane := by
  induction lanes generalizing senders with
  | nil => exact h
  | cons group rest ih =>
    refine ih ?_ fun other mem => agree other (List.mem_cons_of_mem _ mem)
    exact insertSenders_keeps h (agree group List.mem_cons_self)

/-- The sender of a command leads to the lane of the command. -/
theorem lookup_commandSenders (grouped : Grouped specs lanes)
    (distinct : (specs.map (·.name)).Nodup) {command : RuntimeCommandSpec} (mem : command ∈ specs) :
    (commandSenders lanes).lookup command.name = some command.lane := by
  obtain ⟨group, hgroup, holds⟩ := grouped.each command mem
  have own : command.lane = group.1 := ((grouped.own group hgroup).2 command holds).1
  have agree : ∀ other ∈ lanes, ∀ c ∈ other.2, c.name = command.name →
      other.1 = command.lane := by
    intro other hother c hc same
    obtain ⟨lane, listed⟩ := (grouped.own other hother).2 c hc
    rw [← lane, List.inj_on_of_nodup_map distinct listed mem same]
  obtain ⟨before, after, rfl⟩ := List.append_of_mem hgroup
  rw [commandSenders, List.foldl_append, List.foldl_cons, own]
  refine foldl_insertSenders_keeps (insertSenders_adds holds) ?_
  intro other hother c hc same
  rw [← own]
  exact agree other (by simp [hother]) c hc same

end Senders

section Watchers
variable {config : Config} {lanes : List LaneCommands}

/-- The lane of a command that is in the specs has the sender. -/
theorem commandTrigger_ok (accepted : Accepted config)
    (grouped : Grouped (runtimeCommandSpecs config) lanes) {command : String} (source : String)
    (known : command ∈ (runtimeCommandSpecs config).map (·.name)) :
    ∃ spec ∈ runtimeCommandSpecs config, spec.name = command ∧
      commandTrigger (commandSenders lanes) command source = .ok ⟨command, source, spec.lane⟩ := by
  obtain ⟨spec, listed, rfl⟩ := List.mem_map.mp known
  refine ⟨spec, listed, rfl, ?_⟩
  rw [commandTrigger, lookup_commandSenders grouped (specNames_nodup accepted) listed]

theorem findAccount_ok (accepted : Accepted config) {source : ImapIdleSourceConfig}
    (listed : .imapIdle source ∈ config.sources) :
    ∃ account ∈ config.accounts, account.name = source.account ∧
      findAccount config source = .ok account := by
  have known := accepted.account _ listed source.account rfl
  obtain ⟨named, hn, same⟩ := List.mem_map.mp known
  obtain ⟨account, found⟩ := Option.isSome_iff_exists.mp
    (List.find?_isSome (p := fun account => decide (account.name = source.account)).mpr
      ⟨named, hn, by simpa using same⟩)
  refine ⟨account, List.mem_of_find?_eq_some found, by simpa using List.find?_some found, ?_⟩
  rw [findAccount, found]

theorem legacyWatcher_ok {senders : CommandSenders} {account : AccountConfig}
    {mailbox : MailboxConfig} {watcher : RegisteredWatcher}
    (h : legacyWatcher senders account mailbox = .ok watcher) :
    watcher.id = legacySourceName account.name mailbox.name ∧
      watcher.task = .imap account mailbox.name ∧
      commandTrigger senders watcher.id watcher.id = .ok watcher.trigger := by
  obtain ⟨trigger, ht, h⟩ := bind_ok h
  obtain rfl := Except.ok.inj h
  exact ⟨rfl, rfl, ht⟩

/-- The task that a source is given; of an `imap_idle` source with its account. -/
def SourceTask (config : Config) : SourceConfig → WatcherTask → Prop
  | .imapIdle source, task =>
    ∃ account, findAccount config source = .ok account ∧ task = .imap account source.mailbox
  | .gmailApiPoll source, task => task = .gmailApiPoll source
  | .fsState source, task => task = .fsState source
  | .systemResume source, task => task = .systemResume source

theorem sourceWatcher_ok {senders : CommandSenders} {source : SourceConfig}
    {watcher : RegisteredWatcher} (h : sourceWatcher config senders source = .ok watcher) :
    watcher.id = source.name ∧ SourceTask config source watcher.task ∧
      commandTrigger senders source.triggered source.name = .ok watcher.trigger := by
  cases source with
  | imapIdle source =>
    obtain ⟨account, found, h⟩ := bind_ok h
    obtain ⟨trigger, ht, h⟩ := bind_ok h
    obtain rfl := Except.ok.inj h
    exact ⟨rfl, ⟨account, found, rfl⟩, ht⟩
  | gmailApiPoll source | fsState source | systemResume source =>
    obtain ⟨trigger, ht, h⟩ := bind_ok h
    obtain rfl := Except.ok.inj h
    exact ⟨rfl, rfl, ht⟩

/-- The watchers of the mailboxes, account by account, and those of the sources. -/
def Registers (config : Config) (senders : CommandSenders) (watchers : List RegisteredWatcher) :
    Prop :=
  ∃ legacy sources, watchers = legacy.flatten ++ sources ∧
    List.Forall₂ (fun account ws => List.Forall₂
      (fun mailbox w => legacyWatcher senders account mailbox = .ok w) account.mailboxes ws)
      config.accounts legacy ∧
    List.Forall₂ (fun source w => sourceWatcher config senders source = .ok w)
      config.sources sources

theorem registers_of_ok {senders : CommandSenders} {watchers : List RegisteredWatcher}
    (h : registerWatchers config senders = .ok watchers) : Registers config senders watchers := by
  obtain ⟨legacy, hl, h⟩ := bind_ok h
  obtain ⟨sources, hs, h⟩ := bind_ok h
  obtain rfl := Except.ok.inj h
  exact ⟨legacy, sources, rfl, (mapM_ok hl).imp fun _ _ each => mapM_ok each, mapM_ok hs⟩

theorem Registers.ids {senders : CommandSenders} {watchers : List RegisteredWatcher}
    (h : Registers config senders watchers) :
    watchers.map (·.id) = config.legacyNames ++ config.sources.map (·.name) := by
  obtain ⟨legacy, sources, rfl, hl, hs⟩ := h
  have accounts : legacy.map (·.map (·.id)) = config.accounts.map AccountConfig.legacyNames :=
    map_eq_of_forall₂ hl fun account ws each =>
      map_eq_of_forall₂ each fun mailbox w hw => (legacyWatcher_ok hw).1
  have named : sources.map (·.id) = config.sources.map (·.name) :=
    map_eq_of_forall₂ hs fun source w hw => (sourceWatcher_ok hw).1
  rw [List.map_append, List.map_flatten, accounts, named, Config.legacyNames_eq, List.flatMap]

/-- Where a registered watcher comes from. -/
inductive Watches (config : Config) (senders : CommandSenders) (watcher : RegisteredWatcher) :
    Prop where
  | legacy (account : AccountConfig) (mailbox : MailboxConfig) : account ∈ config.accounts →
      mailbox ∈ account.mailboxes → legacyWatcher senders account mailbox = .ok watcher →
      Watches config senders watcher
  | source (source : SourceConfig) : source ∈ config.sources →
      sourceWatcher config senders source = .ok watcher → Watches config senders watcher

theorem Registers.watches {senders : CommandSenders} {watchers : List RegisteredWatcher}
    (h : Registers config senders watchers) {watcher : RegisteredWatcher}
    (mem : watcher ∈ watchers) : Watches config senders watcher := by
  obtain ⟨legacy, sources, rfl, hl, hs⟩ := h
  rw [List.mem_append, List.mem_flatten] at mem
  rcases mem with ⟨ws, hws, mem⟩ | mem
  · obtain ⟨account, ha, each⟩ := forall₂_right hl ws hws
    obtain ⟨mailbox, hm, hw⟩ := forall₂_right each watcher mem
    exact .legacy account mailbox ha hm hw
  · obtain ⟨source, listed, hw⟩ := forall₂_right hs watcher mem
    exact .source source listed hw

/-- Every mailbox of an account has a watcher. -/
theorem Registers.mailbox {senders : CommandSenders} {watchers : List RegisteredWatcher}
    (h : Registers config senders watchers) {account : AccountConfig} {mailbox : MailboxConfig}
    (ha : account ∈ config.accounts) (hm : mailbox ∈ account.mailboxes) :
    ∃ watcher ∈ watchers, watcher.task = .imap account mailbox.name := by
  obtain ⟨legacy, sources, rfl, hl, -⟩ := h
  obtain ⟨ws, hws, each⟩ := forall₂_left hl account ha
  obtain ⟨watcher, mem, hw⟩ := forall₂_left each mailbox hm
  exact ⟨watcher, List.mem_append_left _ (List.mem_flatten.mpr ⟨ws, hws, mem⟩),
    (legacyWatcher_ok hw).2.1⟩

/-- Every source has a watcher. -/
theorem Registers.source {senders : CommandSenders} {watchers : List RegisteredWatcher}
    (h : Registers config senders watchers) {source : SourceConfig}
    (listed : source ∈ config.sources) :
    ∃ watcher ∈ watchers, SourceTask config source watcher.task := by
  obtain ⟨legacy, sources, rfl, -, hs⟩ := h
  obtain ⟨watcher, mem, hw⟩ := forall₂_left hs source listed
  exact ⟨watcher, List.mem_append_right _ mem, (sourceWatcher_ok hw).2.1⟩

theorem legacyWatcher_total (accepted : Accepted config)
    (grouped : Grouped (runtimeCommandSpecs config) lanes) {account : AccountConfig}
    {mailbox : MailboxConfig} (ha : account ∈ config.accounts) (hm : mailbox ∈ account.mailboxes) :
    ∃ watcher, legacyWatcher (commandSenders lanes) account mailbox = .ok watcher := by
  have listed : legacySourceName account.name mailbox.name ∈
      (runtimeCommandSpecs config).map (·.name) := by
    rw [runtimeCommandSpecs_names]
    refine List.mem_append_left _ ?_
    exact List.mem_flatMap.mpr ⟨account, ha, List.mem_map_of_mem hm⟩
  obtain ⟨spec, -, -, trigger⟩ :=
    commandTrigger_ok accepted grouped (legacySourceName account.name mailbox.name) listed
  exact ⟨_, by rw [legacyWatcher, trigger]; rfl⟩

theorem sourceWatcher_total (accepted : Accepted config)
    (grouped : Grouped (runtimeCommandSpecs config) lanes) {source : SourceConfig}
    (listed : source ∈ config.sources) :
    ∃ watcher, sourceWatcher config (commandSenders lanes) source = .ok watcher := by
  have known : source.triggered ∈ (runtimeCommandSpecs config).map (·.name) := by
    rw [runtimeCommandSpecs_names]
    exact List.mem_append_right _ (accepted.triggered source listed)
  obtain ⟨spec, -, -, trigger⟩ := commandTrigger_ok accepted grouped source.name known
  cases source with
  | imapIdle source =>
    obtain ⟨account, -, -, found⟩ := findAccount_ok accepted listed
    dsimp only [SourceConfig.triggered, SourceConfig.name] at trigger
    exact ⟨_, by rw [sourceWatcher, found, trigger]; rfl⟩
  | gmailApiPoll source | fsState source | systemResume source =>
    dsimp only [SourceConfig.triggered, SourceConfig.name] at trigger
    exact ⟨_, by rw [sourceWatcher, trigger]; rfl⟩

theorem registerWatchers_total (accepted : Accepted config)
    (grouped : Grouped (runtimeCommandSpecs config) lanes) :
    ∃ watchers, registerWatchers config (commandSenders lanes) = .ok watchers := by
  obtain ⟨legacy, hl⟩ : ∃ legacy, (config.accounts.mapM fun account =>
      account.mailboxes.mapM (legacyWatcher (commandSenders lanes) account)) = .ok legacy :=
    mapM_total fun account ha => mapM_total fun mailbox hm =>
      legacyWatcher_total accepted grouped ha hm
  obtain ⟨sources, hs⟩ := mapM_total fun source listed =>
    sourceWatcher_total accepted grouped listed
  exact ⟨legacy.flatten ++ sources, by rw [registerWatchers, hl, hs]; rfl⟩

end Watchers

section SetUp
open RuntimeState
variable {config : Config} {lanes : List LaneCommands} {now : Nat}

/-- The names that `run_daemon` has registered. -/
def Setup.watcherIds (setup : Setup) : List String := setup.watchers.map (·.id)

def Setup.laneNames (setup : Setup) : List String := setup.lanes.map (·.1)

/-- The runner of a lane, with the bound of its channel. -/
def laneRunner (group : LaneCommands) : Lane.CommandLaneRunner String where
  commands := group.2.map fun command => ⟨command.name, command.minInterval * 1000⟩
  capacity := 64

theorem command_laneRunner {group : LaneCommands} {command : RuntimeCommandSpec}
    (mem : command ∈ group.2) : (laneRunner group).command command.name ≠ none := by
  have found : ((laneRunner group).command command.name).isSome = true := by
    refine List.find?_isSome.mpr ⟨⟨command.name, command.minInterval * 1000⟩, ?_, by simp⟩
    exact List.mem_reverse.mpr (List.mem_map_of_mem mem)
  exact Option.isSome_iff_ne_none.mp found

def registrations (now : Nat) (setup : Setup) : List (Nat × Operation) :=
  setup.laneNames.map (fun lane => (now, .registerCommandRunner lane)) ++
    setup.watcherIds.map fun id => (now, .registerWatcher id)

theorem registrations_watchers {setup : Setup} {id : String} :
    (∃ operation ∈ registrations now setup, (operation.2.watcherPhase id).isSome = true) ↔
      id ∈ setup.watcherIds := by
  constructor
  · rintro ⟨operation, mem, writes⟩
    rcases List.mem_append.mp mem with lane | watcher
    · obtain ⟨lane, -, rfl⟩ := List.mem_map.mp lane
      cases writes
    · obtain ⟨other, listed, rfl⟩ := List.mem_map.mp watcher
      have same : other = id := by simpa [Operation.watcherPhase] using writes
      rwa [← same]
  · intro listed
    exact ⟨_, List.mem_append_right _ (List.mem_map_of_mem listed),
      by simp [Operation.watcherPhase]⟩

theorem registrations_lanes {setup : Setup} {lane : String} :
    (∃ operation ∈ registrations now setup, (operation.2.runnerPhase lane).isSome = true) ↔
      lane ∈ setup.laneNames := by
  constructor
  · rintro ⟨operation, mem, writes⟩
    rcases List.mem_append.mp mem with runner | watcher
    · obtain ⟨other, listed, rfl⟩ := List.mem_map.mp runner
      have same : other = lane := by simpa [Operation.runnerPhase] using writes
      rwa [← same]
    · obtain ⟨id, -, rfl⟩ := List.mem_map.mp watcher
      cases writes
  · intro listed
    exact ⟨_, List.mem_append_left _ (List.mem_map_of_mem listed), by simp [Operation.runnerPhase]⟩

theorem setUp_ok {setup : Setup} (h : setUp config lanes now = .ok setup) :
    setup.lanes = lanes ∧ setup.senders = commandSenders lanes ∧
      Registers config (commandSenders lanes) setup.watchers ∧
      setup.state = (initialState config).after (registrations now setup) := by
  obtain ⟨watchers, registered, h⟩ := bind_ok h
  obtain rfl := Except.ok.inj h
  refine ⟨rfl, rfl, registers_of_ok registered, ?_⟩
  simp [registrations, Setup.laneNames, Setup.watcherIds, State.after, List.foldl_append,
    List.foldl_map, State.apply]

theorem setUp_total (accepted : Accepted config)
    (grouped : Grouped (runtimeCommandSpecs config) lanes) (now : Nat) :
    ∃ setup, setUp config lanes now = .ok setup := by
  obtain ⟨watchers, registered⟩ := registerWatchers_total accepted grouped
  exact ⟨_, by rw [setUp, registered]; rfl⟩

theorem sourceCount_eq (config : Config) :
    (config.legacyNames ++ config.sources.map (·.name)).length = config.sourceCount := by
  simp [Config.legacyNames, Config.sourceCount, Config.mailboxCount, List.length_flatMap]

theorem laneCount_eq (grouped : Grouped (runtimeCommandSpecs config) lanes) :
    (lanes.map (·.1)).length = config.commandLaneCount := by
  have same : ∀ lane, lane ∈ lanes.map (·.1) ↔
      lane ∈ config.legacyNames ++ config.commands.map (·.laneName) := by
    intro lane
    rw [← runtimeCommandSpecs_lanes]
    constructor
    · rintro mem
      obtain ⟨group, listed, rfl⟩ := List.mem_map.mp mem
      obtain ⟨nonempty, own⟩ := grouped.own group listed
      obtain ⟨command, rest, cons⟩ := List.exists_cons_of_ne_nil nonempty
      obtain ⟨lane, spec⟩ := own command (by simp [cons])
      exact List.mem_map.mpr ⟨command, spec, lane⟩
    · rintro mem
      obtain ⟨command, spec, rfl⟩ := List.mem_map.mp mem
      obtain ⟨group, listed, holds⟩ := grouped.each command spec
      exact List.mem_map.mpr ⟨group, listed, ((grouped.own group listed).2 command holds).1.symm⟩
  have perm := (List.perm_ext_iff_of_nodup grouped.distinct (List.nodup_dedup _)).mpr
    fun lane => (same lane).trans List.mem_dedup.symm
  exact perm.length_eq

theorem holds_setUp (grouped : Grouped (runtimeCommandSpecs config) lanes) {setup : Setup}
    (h : setUp config lanes now = .ok setup) :
    setup.state.Holds setup.watcherIds setup.laneNames := by
  obtain ⟨rfl, -, registers, state⟩ := setUp_ok h
  obtain ⟨sources, commandLanes, -⟩ :=
    State.totals_after (initialState config) (registrations now setup)
  rw [state]
  refine ⟨?_, ?_, ?_, ?_⟩
  · intro id
    rw [State.mem_watchers_after, registrations_watchers]
    simp [initialState, State.new]
  · intro lane
    rw [State.mem_commandRunners_after, registrations_lanes]
    simp [initialState, State.new]
  · rw [sources, Setup.watcherIds, registers.ids]
    exact (sourceCount_eq config).symm
  · rw [commandLanes]
    exact (laneCount_eq grouped).symm

/-- What the daemon relies on once it is set up. -/
structure Wired (config : Config) (setup : Setup) : Prop where
  specNames : ((runtimeCommandSpecs config).map (·.name)).Nodup
  /-- The sender of a triggered command leads to a lane that has the command. -/
  senders : ∀ command, command ∈ config.legacyNames ∨
      (∃ source ∈ config.sources, source.triggered = command) →
    ∃ group ∈ setup.lanes, setup.senders.lookup command = some group.1 ∧
      (∃ spec ∈ group.2, spec.name = command) ∧
      ∀ source, commandTrigger setup.senders command source = .ok ⟨command, source, group.1⟩
  /-- However the sources use their triggers, no lane takes a name that it does not know. -/
  known : ∀ group ∈ setup.lanes, ∀ labels t tr,
    exec (Lane.step (laneRunner group)) .start labels = some (t, tr) →
    (∀ command, .send command ∈ labels → ∃ watcher ∈ setup.watchers,
      watcher.trigger.sender = group.1 ∧ watcher.trigger.command = command) →
    ∀ name pending, t.pending.popNextCommand = (some name, pending) →
      (laneRunner group).command name ≠ none
  accounts : ∀ source, .imapIdle source ∈ config.sources →
    ∃ account ∈ config.accounts, findAccount config source = .ok account
  credentials : ∀ account ∈ config.accounts, ∀ run name method,
    Auth.credentialsFor run account ≠ .error (.missingAuthField name method)
  watcherIds : setup.watcherIds.Nodup ∧ setup.watcherIds.length = config.sourceCount
  laneNames : setup.laneNames.Nodup ∧ setup.laneNames.length = config.commandLaneCount
  /-- From then on, as long as every operation is about a registered name. -/
  counts : ∀ operations, (∀ operation ∈ operations,
      operation.2.Within setup.watcherIds setup.laneNames) →
    ∀ now found expected,
      (setup.state.after operations).healthProblem now ≠ some (.watcherCount found expected) ∧
      (setup.state.after operations).healthProblem now ≠
        some (.commandRunnerCount found expected)

/-- The lane of a spec's name holds the spec. -/
theorem Grouped.mem_of_lane {specs : List RuntimeCommandSpec} (grouped : Grouped specs lanes)
    {group : LaneCommands} (listed : group ∈ lanes) {spec : RuntimeCommandSpec}
    (mem : spec ∈ specs) (lane : spec.lane = group.1) : spec ∈ group.2 := by
  obtain ⟨other, hother, holds⟩ := grouped.each spec mem
  have same : other.1 = group.1 := ((grouped.own other hother).2 spec holds).1.symm.trans lane
  rwa [List.inj_on_of_nodup_map grouped.distinct hother listed same] at holds

theorem trigger_of_watches (accepted : Accepted config)
    (grouped : Grouped (runtimeCommandSpecs config) lanes) {watcher : RegisteredWatcher}
    (watches : Watches config (commandSenders lanes) watcher) :
    ∃ spec ∈ runtimeCommandSpecs config, watcher.trigger.command = spec.name ∧
      watcher.trigger.sender = spec.lane := by
  have named : ∀ command source, command ∈ (runtimeCommandSpecs config).map (·.name) →
      commandTrigger (commandSenders lanes) command source = .ok watcher.trigger →
      ∃ spec ∈ runtimeCommandSpecs config, watcher.trigger.command = spec.name ∧
        watcher.trigger.sender = spec.lane := by
    intro command source known triggered
    obtain ⟨spec, listed, rfl, ok⟩ := commandTrigger_ok accepted grouped source known
    rw [← Except.ok.inj (ok.symm.trans triggered)]
    exact ⟨spec, listed, rfl, rfl⟩
  rw [runtimeCommandSpecs_names] at named
  cases watches with
  | legacy account mailbox ha hm hw =>
    obtain ⟨id, -, triggered⟩ := legacyWatcher_ok hw
    refine named _ _ (List.mem_append_left _ ?_) triggered
    rw [id]
    exact List.mem_flatMap.mpr ⟨account, ha, List.mem_map_of_mem hm⟩
  | source source listed hw =>
    obtain ⟨-, -, triggered⟩ := sourceWatcher_ok hw
    exact named _ _ (List.mem_append_right _ (accepted.triggered source listed)) triggered

theorem wired_of_setUp (accepted : Accepted config)
    (grouped : Grouped (runtimeCommandSpecs config) lanes) {setup : Setup}
    (h : setUp config lanes now = .ok setup) : Wired config setup := by
  have holds := holds_setUp grouped h
  obtain ⟨rfl, senders, registers, -⟩ := setUp_ok h
  have watcherIds : setup.watcherIds.Nodup := by
    rw [Setup.watcherIds, registers.ids]
    exact accepted.sourceNames
  constructor
  case specNames => exact specNames_nodup accepted
  case senders =>
    intro command triggered
    have known : command ∈ (runtimeCommandSpecs config).map (·.name) := by
      rw [runtimeCommandSpecs_names]
      rcases triggered with legacy | ⟨source, listed, rfl⟩
      · exact List.mem_append_left _ legacy
      · exact List.mem_append_right _ (accepted.triggered source listed)
    obtain ⟨spec, listed, rfl⟩ := List.mem_map.mp known
    obtain ⟨group, hgroup, mem⟩ := grouped.each spec listed
    have lane : spec.lane = group.1 := ((grouped.own group hgroup).2 spec mem).1
    have sender : setup.senders.lookup spec.name = some group.1 := by
      rw [senders, lookup_commandSenders grouped (specNames_nodup accepted) listed, lane]
    exact ⟨group, hgroup, sender, ⟨spec, mem, rfl⟩, fun source => by rw [commandTrigger, sender]⟩
  case known =>
    intro group hgroup labels t tr run asked name pending popped
    refine Lane.known_of_pop ?_ run popped
    intro label mem
    cases label with
    | send command =>
      obtain ⟨watcher, hw, sender, rfl⟩ := asked command mem
      obtain ⟨spec, listed, same, lane⟩ :=
        trigger_of_watches accepted grouped (registers.watches hw)
      rw [Lane.AsksKnown, same]
      exact command_laneRunner (grouped.mem_of_lane hgroup listed (lane.symm.trans sender))
    | _ => trivial
  case accounts =>
    intro source listed
    obtain ⟨account, mem, -, found⟩ := findAccount_ok accepted listed
    exact ⟨account, mem, found⟩
  case credentials =>
    exact fun account mem _ => Auth.credentialsFor_not_missing (accepted.auth account mem)
  case watcherIds =>
    refine ⟨watcherIds, ?_⟩
    rw [Setup.watcherIds, registers.ids]
    exact sourceCount_eq config
  case laneNames => exact ⟨grouped.distinct, laneCount_eq grouped⟩
  case counts =>
    intro operations within now found expected
    have still := State.holds_after holds within
    exact ⟨State.watcher_count_passes still watcherIds found expected,
      State.lane_count_passes still grouped.distinct found expected⟩

/-- An accepted configuration is set up without an error and completely, in whatever order the
lanes are started. -/
theorem accepted_config_is_wired (valid : config.validate = .ok ())
    (order : lanes.Perm (commandsByLane (runtimeCommandSpecs config))) (now : Nat) :
    ∃ setup, setUp config lanes now = .ok setup ∧ Wired config setup := by
  have accepted := accepted_of_validate valid
  have grouped := (grouped_commandsByLane (runtimeCommandSpecs config)).perm order
  obtain ⟨setup, done⟩ := setUp_total accepted grouped now
  exact ⟨setup, done, wired_of_setUp accepted grouped done⟩

/-- One account with a mailbox of its own, and a source for another mailbox. -/
def mailConfig : Config :=
  { Config.empty with
    accounts := [⟨"home", "imap.example.org", none, "me", .passwordCmd, none, some "pass", none,
      false, [⟨"INBOX", "sync inbox", none⟩]⟩]
    commands := [⟨"sync", some "mail", "sync all", none, none, none, none, none⟩]
    sources := [.imapIdle ⟨"archive", "home", "Archive", "sync", false, none⟩] }

theorem mail_config_is_wired : mailConfig.validate = .ok () ∧ ∃ setup,
    setUp mailConfig (commandsByLane (runtimeCommandSpecs mailConfig)) 0 = .ok setup ∧
      Wired mailConfig setup :=
  have valid : mailConfig.validate = .ok () := by decide +kernel
  ⟨valid, accepted_config_is_wired valid (List.Perm.refl _) 0⟩

end SetUp

end Daemon

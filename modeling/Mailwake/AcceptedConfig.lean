import Mailwake.DaemonConfig
import Mailwake.Fallible
import Mathlib.Data.List.Nodup

/-!
# What an accepted configuration guarantees

Every name is unique in its space, the spaces that must not meet do not, and whatever a source
refers to exists.
-/
namespace DaemonConfig
open Fallible

/-- The command a source triggers. -/
def SourceConfig.triggered : SourceConfig → String
  | .imapIdle source => source.onEvent
  | .gmailApiPoll source => source.onEvent
  | .fsState source => source.onChange
  | .systemResume source => source.onResume

/-- The account a source logs in with. -/
def SourceConfig.account : SourceConfig → Option String
  | .imapIdle source => some source.account
  | _ => none

def AccountConfig.legacyNames (account : AccountConfig) : List String :=
  account.mailboxes.map fun mailbox => legacySourceName account.name mailbox.name

theorem Config.legacyNames_eq (config : Config) :
    config.legacyNames = config.accounts.flatMap AccountConfig.legacyNames := rfl

section Checks
variable {α : Type} {message : String}

theorem insertNew_ok {names after : List String} {name : String}
    (h : insertNew names name message = .ok after) : name ∉ names ∧ after = name :: names := by
  rw [insertNew] at h
  split at h
  · cases h
  · rename_i fresh
    exact ⟨by simpa using fresh, (Except.ok.inj h).symm⟩

theorem refuseIf_ok {condition : Bool} (h : refuseIf condition message = .ok ()) :
    condition = false := by
  cases condition with
  | true => cases h
  | false => rfl

theorem validateCommandReference_ok {field command : String} {commandNames : List String}
    (h : validateCommandReference field command commandNames = .ok ()) :
    command ∈ commandNames := by
  simpa using refuseIf_ok h

end Checks

theorem validateCommand_ok {names after : List String} {command : CommandConfig}
    (h : validateCommand names command = .ok after) :
    command.name ∉ names ∧ after = command.name :: names := by
  obtain ⟨-, h⟩ := then_ok h
  obtain ⟨-, h⟩ := then_ok h
  obtain ⟨-, h⟩ := then_ok h
  obtain ⟨-, h⟩ := then_ok h
  obtain ⟨-, h⟩ := then_ok h
  obtain ⟨-, h⟩ := then_ok h
  exact insertNew_ok h

/-- A step that enters the names of one item into a set, each for the first time. -/
structure Enters (keys before after : List String) : Prop where
  names : after = keys.reverse ++ before
  distinct : before.Nodup → after.Nodup

theorem enters_one {name message : String} {before after : List String}
    (h : insertNew before name message = .ok after) : Enters [name] before after := by
  obtain ⟨fresh, rfl⟩ := insertNew_ok h
  exact ⟨rfl, fun distinct => List.nodup_cons.mpr ⟨fresh, distinct⟩⟩

theorem enters_all {α β : Type} {f : β → α → Except ConfigError β} (names : β → List String)
    (keys : α → List String) {init last : β} {xs : List α}
    (each : ∀ x b c, x ∈ xs → f b x = .ok c → Enters (keys x) (names b) (names c))
    (h : xs.foldlM f init = .ok last) : Enters (xs.flatMap keys) (names init) (names last) := by
  have start : Enters (([] : List α).flatMap keys) (names init) (names init) := ⟨rfl, id⟩
  refine foldlM_ok (P := fun seen b => Enters (seen.flatMap keys) (names init) (names b)) start
    ?_ h
  intro seen x b c hx entered hc
  obtain ⟨after, distinct⟩ := each x b c hx hc
  refine ⟨?_, fun fresh => distinct (entered.distinct fresh)⟩
  rw [after, entered.names]
  simp

theorem enters_each {α β : Type} {f : β → α → Except ConfigError β} (names : β → List String)
    (key : α → String) {init last : β} {xs : List α}
    (each : ∀ x b c, x ∈ xs → f b x = .ok c → Enters [key x] (names b) (names c))
    (h : xs.foldlM f init = .ok last) : Enters (xs.map key) (names init) (names last) := by
  rw [List.map_eq_flatMap]
  exact enters_all names (fun x => [key x]) each h

theorem Enters.mem {keys after : List String} (h : Enters keys [] after) (name : String) :
    name ∈ after ↔ name ∈ keys := by
  simp [h.names]

theorem Enters.nodup {keys after : List String} (h : Enters keys [] after) : keys.Nodup := by
  have distinct := h.distinct List.nodup_nil
  rw [h.names, List.append_nil] at distinct
  exact List.nodup_reverse.mp distinct

theorem validateMailbox_ok {commandNames : List String} {account : String}
    {names after : List String × List String} {mailbox : MailboxConfig}
    (h : validateMailbox commandNames account names mailbox = .ok after) :
    Enters [legacySourceName account mailbox.name] names.1 after.1 ∧
      legacySourceName account mailbox.name ∉ commandNames := by
  obtain ⟨-, h⟩ := then_ok h
  obtain ⟨-, h⟩ := then_ok h
  obtain ⟨-, h⟩ := then_ok h
  obtain ⟨apart, h⟩ := then_ok h
  obtain ⟨sources, hs, h⟩ := bind_ok h
  obtain ⟨mailboxes, -, h⟩ := bind_ok h
  obtain rfl := Except.ok.inj h
  exact ⟨enters_one hs, by simpa using refuseIf_ok apart⟩

theorem validateAccount_ok {commandNames : List String} {names after : Names}
    {account : AccountConfig} (h : validateAccount commandNames names account = .ok after) :
    Enters [account.name] names.accounts after.accounts ∧
      Enters account.legacyNames names.sources after.sources ∧
      account.validateAuth = .ok () ∧ ∀ name ∈ account.legacyNames, name ∉ commandNames := by
  obtain ⟨-, h⟩ := then_ok h
  obtain ⟨-, h⟩ := then_ok h
  obtain ⟨-, h⟩ := then_ok h
  obtain ⟨-, h⟩ := then_ok h
  obtain ⟨accounts, ha, h⟩ := bind_ok h
  obtain ⟨-, h⟩ := then_ok h
  obtain ⟨auth, h⟩ := then_ok h
  obtain ⟨found, hm, h⟩ := bind_ok h
  obtain rfl := Except.ok.inj h
  have entered : Enters account.legacyNames names.sources found.1 :=
    enters_each Prod.fst (fun mailbox : MailboxConfig => legacySourceName account.name mailbox.name)
      (fun mailbox b c _ hc => (validateMailbox_ok hc).1) hm
  refine ⟨enters_one ha, entered, auth, ?_⟩
  intro name hn
  obtain ⟨mailbox, mem, rfl⟩ := List.mem_map.mp hn
  obtain ⟨b, c, hc⟩ := foldlM_each hm mailbox mem
  exact (validateMailbox_ok hc).2

theorem validateSource_ok {accountNames commandNames names after : List String}
    {source : SourceConfig}
    (h : source.validate accountNames commandNames names = .ok after) :
    Enters [source.name] names after ∧ source.triggered ∈ commandNames ∧
      ∀ account, source.account = some account → account ∈ accountNames := by
  obtain ⟨-, h⟩ := then_ok h
  obtain ⟨sourceNames, hs, h⟩ := bind_ok h
  obtain ⟨checked, h⟩ := then_ok h
  obtain rfl := Except.ok.inj h
  refine ⟨enters_one hs, ?_⟩
  cases source with
  | imapIdle source =>
    obtain ⟨-, h⟩ := then_ok checked
    obtain ⟨-, h⟩ := then_ok h
    obtain ⟨-, h⟩ := then_ok h
    obtain ⟨-, h⟩ := then_ok h
    obtain ⟨known, reference⟩ := then_ok h
    refine ⟨validateCommandReference_ok reference, ?_⟩
    rintro account hsome
    obtain rfl := Option.some.inj hsome
    simpa using refuseIf_ok known
  | gmailApiPoll source =>
    obtain ⟨-, h⟩ := then_ok checked
    obtain ⟨-, h⟩ := then_ok h
    obtain ⟨reference, -⟩ := then_ok h
    exact ⟨validateCommandReference_ok reference, nofun⟩
  | fsState source =>
    obtain ⟨-, h⟩ := then_ok checked
    obtain ⟨reference, -⟩ := then_ok h
    exact ⟨validateCommandReference_ok reference, nofun⟩
  | systemResume source =>
    obtain ⟨-, reference⟩ := then_ok checked
    exact ⟨validateCommandReference_ok reference, nofun⟩

/-- What `Config::validate` has checked, apart from single values. -/
structure Accepted (config : Config) : Prop where
  commandNames : (config.commands.map (·.name)).Nodup
  accountNames : (config.accounts.map (·.name)).Nodup
  sourceNames : (config.legacyNames ++ config.sources.map (·.name)).Nodup
  apart : ∀ name ∈ config.legacyNames, name ∉ config.commands.map (·.name)
  auth : ∀ account ∈ config.accounts, account.validateAuth = .ok ()
  triggered : ∀ source ∈ config.sources, source.triggered ∈ config.commands.map (·.name)
  account : ∀ source ∈ config.sources, ∀ account, source.account = some account →
    account ∈ config.accounts.map (·.name)
  idleRefresh : 60 ≤ config.idleRefresh
  watcherStale : min (config.idleRefresh * 2) u64Max ≤ config.watcherStale

theorem validateGlobals_ok {config : Config} (h : config.validateGlobals = .ok ()) :
    60 ≤ config.idleRefresh ∧ min (config.idleRefresh * 2) u64Max ≤ config.watcherStale := by
  obtain ⟨-, h⟩ := then_ok h
  obtain ⟨-, h⟩ := then_ok h
  obtain ⟨-, h⟩ := then_ok h
  obtain ⟨-, h⟩ := then_ok h
  obtain ⟨-, h⟩ := then_ok h
  obtain ⟨-, h⟩ := then_ok h
  obtain ⟨-, h⟩ := then_ok h
  obtain ⟨-, h⟩ := then_ok h
  obtain ⟨-, h⟩ := then_ok h
  obtain ⟨-, h⟩ := then_ok h
  obtain ⟨-, h⟩ := then_ok h
  obtain ⟨idle, h⟩ := then_ok h
  obtain ⟨-, stale⟩ := then_ok h
  have idle := refuseIf_ok idle
  have stale := refuseIf_ok stale
  simp only [decide_eq_false_iff_not] at idle stale
  exact ⟨by omega, by omega⟩

theorem accepted_of_validate {config : Config} (h : config.validate = .ok ()) :
    Accepted config := by
  obtain ⟨globals, h⟩ := then_ok h
  obtain ⟨commandNames, hc, h⟩ := bind_ok h
  obtain ⟨names, ha, h⟩ := bind_ok h
  obtain ⟨last, hs, -⟩ := bind_ok h
  have commands : Enters (config.commands.map (·.name)) [] commandNames := by
    refine enters_each id CommandConfig.name ?_ hc
    intro command b c _ hc
    obtain ⟨fresh, rfl⟩ := validateCommand_ok hc
    exact ⟨rfl, fun distinct => List.nodup_cons.mpr ⟨fresh, distinct⟩⟩
  have accounts : Enters (config.accounts.map (·.name)) [] names.accounts :=
    enters_each Names.accounts AccountConfig.name (fun account b c _ hc => (validateAccount_ok hc).1) ha
  have legacy : Enters config.legacyNames [] names.sources :=
    enters_all Names.sources AccountConfig.legacyNames
      (fun account b c _ hc => (validateAccount_ok hc).2.1) ha
  have sources : Enters (config.sources.map (·.name)) names.sources last :=
    enters_each id SourceConfig.name (fun source b c _ hc => (validateSource_ok hc).1) hs
  refine ⟨commands.nodup, accounts.nodup, ?_, ?_, ?_, ?_, ?_, (validateGlobals_ok globals).1,
    (validateGlobals_ok globals).2⟩
  · have distinct := sources.distinct (legacy.distinct List.nodup_nil)
    rw [sources.names, legacy.names, List.append_nil, ← List.reverse_append] at distinct
    exact List.nodup_reverse.mp distinct
  · intro name hn known
    obtain ⟨account, mem, hn⟩ := List.mem_flatMap.mp hn
    obtain ⟨b, c, hb⟩ := foldlM_each ha account mem
    exact (validateAccount_ok hb).2.2.2 name hn ((commands.mem name).mpr known)
  · intro account mem
    obtain ⟨b, c, hb⟩ := foldlM_each ha account mem
    exact (validateAccount_ok hb).2.2.1
  · intro source mem
    obtain ⟨b, c, hb⟩ := foldlM_each hs source mem
    exact (commands.mem _).mp (validateSource_ok hb).2.1
  · intro source mem account hsome
    obtain ⟨b, c, hb⟩ := foldlM_each hs source mem
    exact (accounts.mem _).mp ((validateSource_ok hb).2.2 account hsome)

end DaemonConfig

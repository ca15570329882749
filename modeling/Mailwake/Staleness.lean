import Mailwake.MailboxPace
import Mailwake.GmailPace
import Mailwake.HeartbeatPace
import Mailwake.ShellProcess
import Mailwake.Wiring

/-!
# No source that makes progress is called stale

The watchers of an accepted configuration on their clocks, against `watcher_stale`. The
validator compares `watcher_stale` with `idle_refresh` only. That covers the watchers with a
heartbeat; an IMAP or a Gmail watcher is covered when its own longest gap is.
-/
namespace Staleness
open Transition DaemonConfig Daemon

/-- `DBUS_SETUP_TIMEOUT`. -/
def dbusSetupTimeout : Nat := 30000

section Watchers
variable (config : Config)

def mailboxSettings (account : AccountConfig) : MailboxPace.Settings where
  connectTimeout := config.connectTimeout * 1000
  operationTimeout := config.imapOperationTimeout * 1000
  helperTimeout := config.authHelperTimeout * 1000
  terminateGrace := ShellProcess.terminateGrace
  idleRefresh := config.idleRefresh * 1000
  tls := !account.insecurePlaintext
  helper := account.auth ≠ .password

/-- `pages` bounds the page requests of one poll, by the name of the source. -/
def gmailSettings (pages : String → Nat) (source : GmailApiPollSourceConfig) :
    GmailPace.Settings where
  helperTimeout := config.authHelperTimeout * 1000
  terminateGrace := ShellProcess.terminateGrace
  apiTimeout := source.apiTimeout * 1000
  pollInterval := source.pollInterval * 1000
  labelIds := source.labelIds
  pages := pages source.name

def fsStateSettings : HeartbeatPace.Settings where
  setup := 0
  interval := (initialState config).watcherHeartbeatInterval
  marksEvents := false

def systemResumeSettings : HeartbeatPace.Settings where
  setup := dbusSetupTimeout
  interval := (initialState config).watcherHeartbeatInterval
  marksEvents := true

/-- A watcher that was started at `begun` may be at `now` with its last mark at `last`. -/
def Marked (pages : String → Nat) (begun : Nat) : WatcherTask → Nat → Nat → Prop
  | .imap account _, now, last => ∃ initialReady t,
    Reaches (Pace.step (MailboxPace.clock (mailboxSettings config account)))
      (.start ⟨.start initialReady, []⟩ begun) t ∧ t.now = now ∧ t.lastProgress = last
  | .gmailApiPoll source, now, last => ∃ initialReady t,
    Reaches (Pace.step (GmailPace.clock (gmailSettings config pages source)))
      (.start ⟨.start initialReady, 0⟩ begun) t ∧ t.now = now ∧ t.lastProgress = last
  | .fsState _, now, last => ∃ t,
    Reaches (Pace.step (HeartbeatPace.clock (fsStateSettings config))) (.start .setup begun) t ∧
      t.now = now ∧ t.lastProgress = last
  | .systemResume _, now, last => ∃ t,
    Reaches (Pace.step (HeartbeatPace.clock (systemResumeSettings config)))
      (.start .setup begun) t ∧ t.now = now ∧ t.lastProgress = last

/-- At every instant of every run the last mark is recent enough, and a runtime state that has
it on record does not report the watcher as stale. -/
structure NeverStale (pages : String → Nat) (begun : Nat) (watcher : RegisteredWatcher) :
    Prop where
  recent : ∀ now last, Marked config pages begun watcher.task now last →
    now - last ≤ config.watcherStale * 1000
  unreported : ∀ now last, Marked config pages begun watcher.task now last →
    ∀ (state : RuntimeState.State) (phase : RuntimeState.WatcherPhase),
      state.watcherStale = config.watcherStale * 1000 →
      state.watchers.lookup watcher.id = some ⟨phase, last⟩ →
      ∀ elapsed limit, state.healthProblem now ≠ some (.watcherStale watcher.id elapsed limit)

/-- The sum of the timeouts between two marks, and the longest backoff, fit into
`watcher_stale`. -/
structure Covered (pages : String → Nat) : Prop where
  mailboxes : ∀ account ∈ config.accounts,
    (account.mailboxes ≠ [] ∨
      ∃ source, .imapIdle source ∈ config.sources ∧ source.account = account.name) →
    (mailboxSettings config account).longestGap ≤ config.watcherStale * 1000
  polls : ∀ source, .gmailApiPoll source ∈ config.sources →
    (gmailSettings config pages source).longestGap ≤ config.watcherStale * 1000

end Watchers

variable {config : Config} {pages : String → Nat} {begun : Nat}

theorem watcherStale_ge (accepted : Accepted config) : 120 ≤ config.watcherStale := by
  have stale := accepted.watcherStale
  have idle := accepted.idleRefresh
  rw [u64Max] at stale
  omega

theorem interval_le (config : Config) :
    (initialState config).watcherHeartbeatInterval ≤ 60000 :=
  min_le_right _ _

theorem reaches_gap_le {σ : Type} {α : Type} {c : Pace.Clockwork σ α} {bound : Nat}
    (b : Pace.Budget c bound) {inner : σ} (sound : b.Sound inner) {t : Pace.State σ}
    (h : Reaches (Pace.step c) (.start inner begun) t) : t.now - t.lastProgress ≤ bound := by
  obtain ⟨labels, tr, run⟩ := h
  exact Pace.gap_le_of_budget b sound run

/-- The longest time without a mark, of a watcher that has no heartbeat. -/
def longestGap (config : Config) (pages : String → Nat) : WatcherTask → Nat
  | .imap account _ => (mailboxSettings config account).longestGap
  | .gmailApiPoll source => (gmailSettings config pages source).longestGap
  | .fsState _ => 0
  | .systemResume _ => 0

theorem recent_of_longestGap (accepted : Accepted config) {task : WatcherTask}
    (covered : longestGap config pages task ≤ config.watcherStale * 1000) {now last : Nat}
    (marked : Marked config pages begun task now last) :
    now - last ≤ config.watcherStale * 1000 := by
  have stale := watcherStale_ge accepted
  have interval := interval_le config
  cases task with
  | imap account mailbox =>
    obtain ⟨initialReady, t, reached, rfl, rfl⟩ := marked
    have sound : MailboxPace.Sound (mailboxSettings config account)
        ⟨MailboxWatcher.State.start initialReady, []⟩ :=
      ⟨MailboxPace.initialBackoff_le, nofun⟩
    exact (reaches_gap_le (MailboxPace.pace _) sound reached).trans covered
  | gmailApiPoll source =>
    obtain ⟨initialReady, t, reached, rfl, rfl⟩ := marked
    have backoff : GmailApiPoll.initialBackoff ≤ GmailApiPoll.maxBackoff := by decide
    have sound : GmailPace.Sound (gmailSettings config pages source)
        ⟨GmailApiPoll.State.start initialReady, 0⟩ := ⟨backoff, nofun⟩
    exact (reaches_gap_le (GmailPace.pace _) sound reached).trans covered
  | fsState source =>
    obtain ⟨t, reached, rfl, rfl⟩ := marked
    have gap := reaches_gap_le (HeartbeatPace.pace _) trivial reached
    rw [HeartbeatPace.Settings.longestGap, fsStateSettings] at gap
    dsimp only at gap
    omega
  | systemResume source =>
    obtain ⟨t, reached, rfl, rfl⟩ := marked
    have gap := reaches_gap_le (HeartbeatPace.pace _) trivial reached
    rw [HeartbeatPace.Settings.longestGap, systemResumeSettings, dbusSetupTimeout] at gap
    dsimp only at gap
    omega

/-- The longest gap is reached. -/
theorem longestGap_of_recent {task : WatcherTask}
    (recent : ∀ now last, Marked config pages begun task now last →
      now - last ≤ config.watcherStale * 1000) :
    longestGap config pages task ≤ config.watcherStale * 1000 := by
  cases task with
  | imap account mailbox =>
    obtain ⟨t, reached, gap⟩ :=
      MailboxPace.longestGap_reached (mailboxSettings config account) false begun
    exact gap.symm.le.trans (recent t.now t.lastProgress ⟨false, t, reached, rfl, rfl⟩)
  | gmailApiPoll source =>
    obtain ⟨t, reached, gap⟩ :=
      GmailPace.longestGap_reached (gmailSettings config pages source) false begun
    exact gap.symm.le.trans (recent t.now t.lastProgress ⟨false, t, reached, rfl, rfl⟩)
  | fsState source => exact Nat.zero_le _
  | systemResume source => exact Nat.zero_le _

theorem neverStale_of_recent {watcher : RegisteredWatcher}
    (recent : ∀ now last, Marked config pages begun watcher.task now last →
      now - last ≤ config.watcherStale * 1000) : NeverStale config pages begun watcher := by
  refine ⟨recent, ?_⟩
  intro now last marked state phase same entry elapsed limit reported
  have within := recent now last marked
  cases RuntimeState.State.problem_of_healthProblem reported with
  | watcher held problem =>
    rcases RuntimeState.State.watcherProblem_cases problem with ⟨-, other⟩ | ⟨stale, this⟩
    · cases other
    · obtain ⟨rfl, -, -⟩ := RuntimeState.HealthProblem.watcherStale.inj this
      obtain rfl := Option.some.inj (entry.symm.trans held)
      dsimp only at stale
      omega
  | commandRunner _ problem =>
    rcases RuntimeState.State.commandRunnerProblem_cases problem with ⟨-, other⟩ | ⟨_, -, -, other⟩
    · cases other
    · cases other

/-- Of the watchers, those of a mailbox and of a Gmail source are in the condition. -/
theorem covered_iff {setup : Setup} (accepted : Accepted config)
    {senders : CommandSenders} (registers : Registers config senders setup.watchers) :
    Covered config pages ↔ ∀ watcher ∈ setup.watchers,
      longestGap config pages watcher.task ≤ config.watcherStale * 1000 := by
  constructor
  · intro covered watcher mem
    cases registers.watches mem with
    | legacy account mailbox ha hm hw =>
      rw [(legacyWatcher_ok hw).2.1]
      exact covered.mailboxes account ha (Or.inl (List.ne_nil_of_mem hm))
    | source source listed hw =>
      have task := (sourceWatcher_ok hw).2.1
      cases source with
      | imapIdle source =>
        obtain ⟨account, found, same⟩ := task
        obtain ⟨known, ha, name, found'⟩ := findAccount_ok accepted listed
        obtain rfl := Except.ok.inj (found.symm.trans found')
        rw [same]
        exact covered.mailboxes account ha (Or.inr ⟨source, listed, name.symm⟩)
      | gmailApiPoll source =>
        rw [show watcher.task = .gmailApiPoll source from task]
        exact covered.polls source listed
      | fsState source =>
        rw [show watcher.task = .fsState source from task]
        exact Nat.zero_le _
      | systemResume source =>
        rw [show watcher.task = .systemResume source from task]
        exact Nat.zero_le _
  · intro each
    refine ⟨?_, ?_⟩
    · rintro account ha (own | ⟨source, listed, name⟩)
      · obtain ⟨mailbox, rest, cons⟩ := List.exists_cons_of_ne_nil own
        obtain ⟨watcher, mem, task⟩ := registers.mailbox ha (cons ▸ List.mem_cons_self)
        have gap := each watcher mem
        rwa [task] at gap
      · obtain ⟨watcher, mem, known, found, task⟩ := registers.source listed
        obtain ⟨account', ha', name', found'⟩ := findAccount_ok accepted listed
        obtain rfl := Except.ok.inj (found.symm.trans found')
        have same : known = account :=
          List.inj_on_of_nodup_map accepted.accountNames ha' ha (name'.trans name)
        have gap := each watcher mem
        rwa [task, same] at gap
    · intro source listed
      obtain ⟨watcher, mem, task⟩ := registers.source listed
      have gap := each watcher mem
      rwa [show watcher.task = .gmailApiPoll source from task] at gap

/-- No watcher is ever called stale exactly when the timeouts of each fit into
`watcher_stale`. -/
theorem never_stale_iff_covered {lanes : List LaneCommands} {setup : Setup}
    (valid : config.validate = .ok ()) (done : setUp config lanes begun = .ok setup) :
    (∀ watcher ∈ setup.watchers, NeverStale config pages begun watcher) ↔
      Covered config pages := by
  have accepted := accepted_of_validate valid
  obtain ⟨-, -, registers, -⟩ := setUp_ok done
  rw [covered_iff accepted registers]
  constructor
  · intro never watcher mem
    exact longestGap_of_recent (never watcher mem).recent
  · intro covered watcher mem
    exact neverStale_of_recent fun _ _ => recent_of_longestGap accepted (covered watcher mem)

/-- A Gmail source that is polled every two hours, with the default `watcher_stale`. -/
def slowPollConfig : Config :=
  { Config.empty with
    commands := [⟨"sync", none, "sync all", none, none, none, none, none⟩]
    sources := [.gmailApiPoll
      ⟨"gmail", "sync", "token", [], false, none, some 7200, none, none⟩] }

theorem slow_poll_goes_stale : slowPollConfig.validate = .ok () ∧ ∃ setup,
    setUp slowPollConfig (commandsByLane (runtimeCommandSpecs slowPollConfig)) 0 = .ok setup ∧
      ∃ watcher ∈ setup.watchers, ¬ NeverStale slowPollConfig (fun _ => 0) 0 watcher := by
  refine ⟨by decide +kernel, ?_⟩
  obtain ⟨setup, done⟩ := Fallible.ok_of_isOk (x := setUp slowPollConfig
    (commandsByLane (runtimeCommandSpecs slowPollConfig)) 0) (by decide +kernel)
  obtain ⟨-, -, registers, -⟩ := setUp_ok done
  have listed : SourceConfig.gmailApiPoll ⟨"gmail", "sync", "token", [], false, none, some 7200,
      none, none⟩ ∈ slowPollConfig.sources := List.mem_singleton.mpr rfl
  obtain ⟨watcher, mem, task⟩ := registers.source listed
  refine ⟨setup, done, watcher, mem, ?_⟩
  intro never
  have gap := longestGap_of_recent never.recent
  rw [task] at gap
  revert gap
  decide +kernel

/-- The same source, polled as often as by default. -/
def pollConfig : Config :=
  { slowPollConfig with
    sources := [.gmailApiPoll ⟨"gmail", "sync", "token", [], false, none, none, none, none⟩] }

theorem poll_config_is_never_stale : pollConfig.validate = .ok () ∧ ∃ setup,
    setUp pollConfig (commandsByLane (runtimeCommandSpecs pollConfig)) 0 = .ok setup ∧
      ∀ watcher ∈ setup.watchers, NeverStale pollConfig (fun _ => 0) 0 watcher := by
  have valid : pollConfig.validate = .ok () := by decide +kernel
  have covered : Covered pollConfig fun _ => 0 := by
    refine ⟨by simp [pollConfig, slowPollConfig, Config.empty], ?_⟩
    intro source listed
    obtain rfl := SourceConfig.gmailApiPoll.inj (List.mem_singleton.mp listed)
    decide +kernel
  obtain ⟨setup, done⟩ := Fallible.ok_of_isOk (x := setUp pollConfig
    (commandsByLane (runtimeCommandSpecs pollConfig)) 0) (by decide +kernel)
  exact ⟨valid, setup, done, (never_stale_iff_covered valid done).mpr covered⟩

end Staleness

import Mailwake.FsSource
import Mailwake.Pipeline
import Mailwake.Wiring

/-!
# The wake-ups of a configured daemon

Each source of an accepted configuration, composed with the lane that its trigger was given.
-/
namespace Daemon
open DaemonConfig Transition

/-- The pause of a mailbox or poll source; such a source has no cooldown of its own. -/
def debounceRunner (debounce : Nat) : EventRunner.DebounceRunner := ⟨debounce, 0⟩

def systemResumeRunner (source : SystemResumeSourceConfig) : EventRunner.SystemResumeRunner :=
  ⟨source.settle * 1000⟩

/-- The runner of a filesystem source. Someone may wait for its readiness. -/
def fsStateRunner (config : Config) (source : FsStateSourceConfig) (initialReady : Bool) :
    FsState.FsStateRunner where
  debounce := source.debounce config * 1000
  maxDebounce := source.maxDebounce config * 1000
  selfSettle := 1000
  stateReader := source.stateCmd.isSome
  initialReady := initialReady
  capacity := 64

/-- Whenever the source waits for work, it has attended to the last event, and each event it
attended to has been answered. -/
def Attentive (runner : FsState.FsStateRunner) (runOnStartup : Bool)
    (lane : Lane.CommandLaneRunner String) (command : String) : Prop :=
  ∀ labels (p : FsSource.State String String) tr,
    exec (FsSource.step runner lane command) (.start runOnStartup) labels = some (p, tr) →
    p.source.pc.head = .recvHead → p.source.events.items = [] →
    FollowedBy FsSource.Event.Notified FsSource.Event.Taken tr ∧
      FollowedBy FsSource.Event.Attended (FsSource.Event.Answers runner command) tr

/-- The lane answers what the watcher hears. -/
def LosesNoWakeup (config : Config) (lane : Lane.CommandLaneRunner String) (command : String) :
    WatcherTask → Prop
  | .imap _ _ => ∀ debounce, Pipeline.NoLostWakeup 64 (debounceRunner debounce).loop lane command
  | .gmailApiPoll source =>
    Pipeline.NoLostWakeup 64 (debounceRunner (source.debounce config * 1000)).loop lane command
  | .fsState source => ∀ initialReady,
    Attentive (fsStateRunner config source initialReady) source.runOnStartup lane command
  | .systemResume source =>
    Pipeline.NoLostWakeup 64 (systemResumeRunner source).loop lane command

theorem losesNoWakeup (config : Config) {lane : Lane.CommandLaneRunner String} {command : String}
    (known : lane.command command ≠ none) (task : WatcherTask) :
    LosesNoWakeup config lane command task := by
  have slots : 0 < 64 := by decide
  cases task with
  | imap account mailbox => exact fun debounce => Pipeline.noLostWakeup slots known
  | gmailApiPoll source => exact Pipeline.noLostWakeup slots known
  | systemResume source => exact Pipeline.noLostWakeup slots known
  | fsState source =>
    intro initialReady labels p tr run waits empty
    exact ⟨FsSource.taken_at_rest slots known run waits empty,
      FsSource.answered_at_rest slots known run waits⟩

variable {config : Config} {lanes : List LaneCommands} {now : Nat}

/-- The lane that a watcher's trigger leads to has the command. -/
theorem lane_of_watches (accepted : Accepted config)
    (grouped : Grouped (runtimeCommandSpecs config) lanes) {watcher : RegisteredWatcher}
    (watches : Watches config (commandSenders lanes) watcher) :
    ∃ group ∈ lanes, group.1 = watcher.trigger.sender ∧
      (laneRunner group).command watcher.trigger.command ≠ none := by
  obtain ⟨spec, listed, command, sender⟩ := trigger_of_watches accepted grouped watches
  obtain ⟨group, hgroup, mem⟩ := grouped.each spec listed
  have lane : spec.lane = group.1 := ((grouped.own group hgroup).2 spec mem).1
  refine ⟨group, hgroup, lane.symm.trans sender.symm, ?_⟩
  rw [command]
  exact command_laneRunner mem

/-- A mailbox, a directory and the wake-up from sleep share one lane. -/
private def exampleConfig : Config :=
  { mailConfig with
    sources := mailConfig.sources ++
      [.fsState ⟨"drafts", ["/mail/drafts"], some "ls", "sync", true, none, none⟩,
        .systemResume ⟨"wake", "sync", none⟩] }

end Daemon

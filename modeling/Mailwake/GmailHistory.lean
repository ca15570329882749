import Mailwake.GmailApiPoll

/-!
# Gmail polling loses no history

The polling loop against a mailbox whose records become visible one by one. getProfile may
answer `h` only when no record up to `h` is still to appear, and the pages of one listing
together return what was visible and matched when its first page was answered. Any request
may fail instead, and a listing may find its start too old.
-/
namespace GmailHistory
open Transition GmailApiPoll

/-- A record of the mailbox's history and the labels it matches. -/
structure Record where
  id : Nat
  labelIds : List String
  deriving DecidableEq

def Record.listed (record : Record) (since : Nat) (label : String) : Bool :=
  since < record.id && record.labelIds.contains label

structure State where
  watcher : GmailApiPoll.State
  visible : List Record
  /-- The history ids getProfile has answered. -/
  answered : List Nat
  /-- What the pages of the current listing have still to return. -/
  due : List Record

inductive Label where
  | appeared (record : Record)
  /-- Any step of the loop but the answer to a page request. -/
  | watcher (label : GmailApiPoll.Label)
  | listed (records : List Record) (nextPageToken : Option String)

def State.start (visible : List Record) (initialReady : Bool) : State :=
  ⟨.start initialReady, visible, [], []⟩

def answer : GmailApiPoll.Label → Option Nat
  | .profile (.ok id) => parseU64 id
  | _ => none

def isPage : GmailApiPoll.Label → Bool
  | .history (.ok _) => true
  | _ => false

def remaining (s : State) (since : Nat) (label : String) (pageToken : Option String)
    (records : List Record) : List Record :=
  let due := if pageToken.isSome then s.due else s.visible.filter (·.listed since label)
  due.filter (!records.contains ·)

def response (records : List Record) (nextPageToken : Option String) : HistoryListResponse :=
  ⟨records.map (toString ·.id), nextPageToken⟩

def step (labelIds : List String) (s : State) :
    Label → Option (State × List GmailApiPoll.Event)
  | .appeared record =>
    if ∀ id ∈ s.answered, id < record.id then
      some ({ s with visible := record :: s.visible }, [])
    else none
  | .watcher label =>
    if isPage label then none
    else (GmailApiPoll.step labelIds s.watcher label).map fun (w, es) =>
      ({ s with watcher := w, answered := (answer label).toList ++ s.answered }, es)
  | .listed records nextPageToken =>
    match s.watcher.pc with
    | .pollHistory since _ label pageToken _ =>
      if (∀ record ∈ records, record ∈ s.visible ∧ record.listed since label = true) ∧
          (nextPageToken = none → remaining s since label pageToken records = []) then
        (GmailApiPoll.step labelIds s.watcher (.history (.ok (response records nextPageToken)))).map
          fun (w, es) =>
            ({ s with watcher := w, due := remaining s since label pageToken records }, es)
      else none
    | _ => none

inductive Move (labelIds : List String) (s : State) :
    Label → State → List GmailApiPoll.Event → Prop where
  | appeared {record : Record} : (∀ id ∈ s.answered, id < record.id) →
      Move labelIds s (.appeared record) { s with visible := record :: s.visible } []
  | watcher {label : GmailApiPoll.Label} {w : GmailApiPoll.State} {es : List GmailApiPoll.Event} :
      isPage label = false → Turn labelIds s.watcher label w es →
      Move labelIds s (.watcher label)
        { s with watcher := w, answered := (answer label).toList ++ s.answered } es
  | listed {records : List Record} {nextPageToken : Option String} {since last : Nat}
      {label : String} {pageToken : Option String} {rest : List String}
      {w : GmailApiPoll.State} {es : List GmailApiPoll.Event} :
      s.watcher.pc = .pollHistory since last label pageToken rest →
      (nextPageToken = none → remaining s since label pageToken records = []) →
      Turn labelIds s.watcher (.history (.ok (response records nextPageToken))) w es →
      Move labelIds s (.listed records nextPageToken)
        { s with watcher := w, due := remaining s since label pageToken records } es

variable {labelIds : List String} {s t : State} {label : Label}
  {es tr : List GmailApiPoll.Event}

theorem move_of_step (h : step labelIds s label = some (t, es)) : Move labelIds s label t es := by
  cases label with
  | appeared record =>
    simp only [step] at h
    split at h
    · rename_i fresh
      obtain ⟨rfl, rfl⟩ := Prod.mk.inj (Option.some.inj h)
      exact .appeared fresh
    · cases h
  | watcher label =>
    simp only [step] at h
    split at h
    · cases h
    · rename_i other
      obtain ⟨⟨w, fs⟩, hs, he⟩ := Option.map_eq_some_iff.mp h
      obtain ⟨rfl, rfl⟩ := Prod.mk.inj he
      exact .watcher (by simpa using other) (turn_of_step hs)
  | listed records nextPageToken =>
    simp only [step] at h
    split at h
    · rename_i since last label pageToken rest hpc
      split at h
      · rename_i answered
        obtain ⟨⟨w, fs⟩, hs, he⟩ := Option.map_eq_some_iff.mp h
        obtain ⟨rfl, rfl⟩ := Prod.mk.inj he
        exact .listed hpc answered.2 (turn_of_step hs)
      · cases h
    · cases h

section Cursor

def tracked : GmailApiPoll.Event → Option Nat
  | .baselined id => some id
  | .accepted _ last => some last
  | _ => none

/-- Where the last accepted interval ended, or the baseline. -/
def cursor (tr : List GmailApiPoll.Event) : Option Nat := (tr.filterMap tracked).getLast?

theorem cursor_append_quiet (quiet : ∀ x ∈ es, tracked x = none) :
    cursor (tr ++ es) = cursor tr := by
  have none_new : es.filterMap tracked = [] := List.filterMap_eq_nil_iff.mpr quiet
  rw [cursor, List.filterMap_append, none_new, List.append_nil, cursor]

theorem cursor_append_tracked {x : GmailApiPoll.Event} {id : Nat} (h : tracked x = some id)
    (quiet : ∀ y ∈ es, tracked y = none) : cursor (tr ++ x :: es) = some id := by
  have none_new : es.filterMap tracked = [] := List.filterMap_eq_nil_iff.mpr quiet
  rw [cursor, List.filterMap_append, List.filterMap_cons_some h, none_new,
    List.getLast?_concat]

/-- The baseline comes once and first; each interval begins where the one before it ended. -/
def Contiguous (before : List GmailApiPoll.Event) : GmailApiPoll.Event → Prop
  | .baselined _ => cursor before = none
  | .accepted since last => cursor before = some since ∧ since < last
  | _ => True

end Cursor

/-- What the pages answered so far have ruled out for the interval under way. -/
structure Searched (labelIds : List String) (s : State) (since last : Nat) (label : String)
    (pageToken : Option String) (rest : List String) : Prop where
  tracker : s.watcher.tracker.lastHistoryId = some since
  advanced : since < last
  answered : last ∈ s.answered
  labels : ∃ before, labelIds = before ++ label :: rest ∧
    ∀ record ∈ s.visible, since < record.id → record.id ≤ last →
      ∀ done ∈ before, done ∉ record.labelIds
  due : pageToken.isSome = true → ∀ record ∈ s.visible, since < record.id → record.id ≤ last →
    label ∈ record.labelIds → record ∈ s.due

/-- What holds of the tracker, the mailbox and the search at each program point. -/
def Sound (labelIds : List String) (s : State) : Prop :=
  match s.watcher.pc with
  | .baselineToken => s.watcher.tracker.lastHistoryId = none
  | .baselineProfile => s.watcher.tracker.lastHistoryId = none
  | .pollHistory since last label pageToken rest =>
    Searched labelIds s since last label pageToken rest
  | _ => True

theorem historyPageHasChanges_response {records : List Record} {token : Option String}
    (quiet : historyPageHasChanges (response records token) = false) : records = [] := by
  cases records with
  | nil => rfl
  | cons record rest => simp [historyPageHasChanges, response] at quiet

theorem mem_remaining_nil {since : Nat} {label : String} {pageToken : Option String}
    {record : Record} : record ∈ remaining s since label pageToken [] ↔
      if pageToken.isSome then record ∈ s.due
      else record ∈ s.visible ∧ record.listed since label = true := by
  rw [remaining]
  cases pageToken <;> simp

variable {since last : Nat} {name : String} {pageToken : Option String} {rest : List String}

theorem Searched.remaining (searched : Searched labelIds s since last name pageToken rest)
    {record : Record} (visible : record ∈ s.visible) (after : since < record.id)
    (upto : record.id ≤ last) (listed : name ∈ record.labelIds) :
    record ∈ remaining s since name pageToken [] := by
  rw [mem_remaining_nil]
  split
  · rename_i more
    exact searched.due more record visible after upto listed
  · exact ⟨visible, by simp [Record.listed, after, listed]⟩

/-- An empty last page rules the label out. -/
theorem Searched.rulesOut (searched : Searched labelIds s since last name pageToken rest)
    (done : GmailHistory.remaining s since name pageToken [] = []) :
    ∀ record ∈ s.visible, since < record.id → record.id ≤ last → name ∉ record.labelIds := by
  intro record visible after upto listed
  have due := searched.remaining visible after upto listed
  rw [done] at due
  cases due

/-- A record up to the last answer does not appear any more. -/
theorem Searched.appeared (searched : Searched labelIds s since last name pageToken rest)
    {record : Record} (fresh : ∀ id ∈ s.answered, id < record.id) :
    Searched labelIds { s with visible := record :: s.visible } since last name pageToken rest := by
  obtain ⟨tracker, advanced, answered, ⟨before, split, ruled⟩, due⟩ := searched
  have late : last < record.id := fresh last answered
  refine ⟨tracker, advanced, answered, ⟨before, split, ?_⟩, ?_⟩
  · intro r hr after upto
    rcases List.mem_cons.mp hr with rfl | hr
    · omega
    · exact ruled r hr after upto
  · intro more r hr after upto
    rcases List.mem_cons.mp hr with rfl | hr
    · omega
    · exact due more r hr after upto

theorem Sound.of_head {w : GmailApiPoll.State} (visible : List Record) (answered : List Nat)
    (due : List Record) (hpc : w.pc ≠ .baselineToken ∧ w.pc ≠ .baselineProfile ∧
      ∀ since last label token rest, w.pc ≠ .pollHistory since last label token rest) :
    Sound labelIds ⟨w, visible, answered, due⟩ := by
  obtain ⟨token, profile, history⟩ := hpc
  rw [Sound]
  split
  · rename_i h
    exact absurd h token
  · rename_i h
    exact absurd h profile
  · rename_i h
    exact absurd h (history _ _ _ _ _)
  · trivial

theorem fail_pc (w : GmailApiPoll.State) (error : GmailApiPollError) :
    (fail w error).1.pc = .ended (.error error) ∨ (fail w error).1.pc = .backoff := by
  rw [fail]
  split
  · exact Or.inl rfl
  · exact Or.inr rfl

theorem Sound.of_fail (w : GmailApiPoll.State) (error : GmailApiPollError)
    (visible : List Record) (answered : List Nat) (due : List Record) :
    Sound labelIds ⟨(fail w error).1, visible, answered, due⟩ := by
  apply Sound.of_head
  rcases fail_pc w error with h | h <;> simp [h]

theorem sound_watcher {w : GmailApiPoll.State} {label : GmailApiPoll.Label}
    (sound : Sound labelIds s) (other : isPage label = false)
    (turn : Turn labelIds s.watcher label w es) :
    Sound labelIds { s with watcher := w, answered := (answer label).toList ++ s.answered } := by
  cases turn with
  | checked shutdown hpc =>
    cases shutdown with
    | true => exact .of_head _ _ _ (by simp)
    | false =>
      cases tracked : s.watcher.tracker.lastHistoryId with
      | none => simp [Sound, GmailHistoryTracker.hasBaseline, tracked]
      | some id => exact .of_head _ _ _ (by simp [GmailHistoryTracker.hasBaseline, tracked])
  | baselineToken hpc =>
    simp only [Sound, hpc] at sound
    exact sound
  | pollToken hpc => exact .of_head _ _ _ (by simp)
  | failed error _ => exact .of_fail ..
  | baselined hpc parsed => exact .of_head _ _ _ (by simp [baselined])
  | unchanged hpc parsed tracked old => exact .of_head _ _ _ (by simp)
  | advanced hpc parsed tracked advanced none => exact .of_head _ _ _ (by simp [accept])
  | listing hpc parsed tracked advanced labels =>
    refine ⟨tracked, advanced, ?_, ⟨[], labels, by simp⟩, by simp⟩
    simp [answer, parsed]
  | changed hpc changes => cases other
  | stale hpc => exact .of_head _ _ _ (by simp [accept])
  | nextPage hpc quiet more => cases other
  | nextLabel hpc quiet done => cases other
  | noChange hpc quiet done => cases other
  | slept goOn hpc => exact .of_head _ _ _ (by cases goOn <;> simp)
  | retried goOn hpc => exact .of_head _ _ _ (by cases goOn <;> simp)

/-- The pages of a listing: an empty one leaves everything due, an empty last one rules its
label out. -/
theorem sound_listed {records : List Record} {token : Option String} {w : GmailApiPoll.State}
    (searched : Searched labelIds s since last name pageToken rest)
    (hpc : s.watcher.pc = .pollHistory since last name pageToken rest)
    (complete : token = none → remaining s since name pageToken records = [])
    (turn : Turn labelIds s.watcher (.history (.ok (response records token))) w es) :
    Sound labelIds { s with watcher := w, due := remaining s since name pageToken records } := by
  cases turn with
  | failed error _ => exact .of_fail ..
  | changed hpc' changes => exact .of_head _ _ _ (by simp [accept])
  | nextPage hpc' quiet more =>
    obtain ⟨rfl, rfl, rfl, -, rfl⟩ := Pc.pollHistory.inj (hpc.symm.trans hpc')
    obtain rfl := historyPageHasChanges_response quiet
    exact ⟨searched.tracker, searched.advanced, searched.answered, searched.labels,
      fun _ record visible after upto listed => searched.remaining visible after upto listed⟩
  | nextLabel hpc' quiet done =>
    obtain ⟨rfl, rfl, rfl, -, rfl⟩ := Pc.pollHistory.inj (hpc.symm.trans hpc')
    obtain rfl := historyPageHasChanges_response quiet
    obtain ⟨before, split, ruled⟩ := searched.labels
    refine ⟨searched.tracker, searched.advanced, searched.answered,
      ⟨before ++ [name], by simp [split], ?_⟩, by simp⟩
    intro record visible after upto label hl
    rcases List.mem_append.mp hl with hl | hl
    · exact ruled record visible after upto label hl
    · obtain rfl := List.mem_singleton.mp hl
      exact searched.rulesOut (complete done) record visible after upto
  | noChange hpc' quiet done => exact .of_head _ _ _ (by simp [accept])

theorem Sound.searched (sound : Sound labelIds s)
    (hpc : s.watcher.pc = .pollHistory since last name pageToken rest) :
    Searched labelIds s since last name pageToken rest := by
  simpa only [Sound, hpc] using sound

theorem sound_move (sound : Sound labelIds s) (move : Move labelIds s label t es) :
    Sound labelIds t := by
  cases move with
  | appeared fresh =>
    simp only [Sound] at sound ⊢
    split
    · rename_i hpc
      simpa only [hpc] using sound
    · rename_i hpc
      simpa only [hpc] using sound
    · rename_i hpc
      simp only [hpc] at sound
      exact sound.appeared fresh
    · trivial
  | watcher other turn => exact sound_watcher sound other turn
  | listed hpc complete turn => exact sound_listed (sound.searched hpc) hpc complete turn

/-- Without configured labels every record matters. -/
def Record.Relevant (labelIds : List String) (record : Record) : Prop :=
  labelIds = [] ∨ ∃ label ∈ labelIds, label ∈ record.labelIds

instance (record : Record) : Decidable (record.Relevant labelIds) :=
  inferInstanceAs (Decidable (_ ∨ _))

/-- A step that accepts an interval ends a poll without an error. -/
structure Accepting (labelIds : List String) (s t : State) (es : List GmailApiPoll.Event)
    (since last : Nat) : Prop where
  polling : s.watcher.polling = true
  returned : t.watcher.polling = false ∧ t.watcher.failed = false
  tracker : s.watcher.tracker.lastHistoryId = some since ∧ since < last ∧
    t.watcher.tracker.lastHistoryId = some last
  answered : last ∈ t.answered
  visible : t.visible = s.visible
  queued : ∀ record ∈ s.visible, since < record.id → record.id ≤ last →
    record.Relevant labelIds → GmailApiPoll.Event.queued ∈ es

/-- What a step emits: an interval is accepted with or without a trigger, the baseline is set,
or there is nothing about the tracker. -/
inductive Emission (labelIds : List String) (s t : State) (es : List GmailApiPoll.Event) : Prop where
  | accepted (since last : Nat) (shouldTrigger : Bool) : Accepting labelIds s t es since last →
      es = .accepted since last :: (if shouldTrigger then [.queued] else []) →
      Emission labelIds s t es
  | baselined (id : Nat) (ready : Bool) : s.watcher.tracker.lastHistoryId = none →
      s.watcher.polling = false → t.watcher.tracker.lastHistoryId = some id →
      es = .baselined id :: (if ready then [.initialReady] else []) → Emission labelIds s t es
  | quiet : t.watcher.tracker = s.watcher.tracker →
      (∀ x ∈ es, x = .initialReadyFailed) → Emission labelIds s t es

theorem emission_fail {visible visible' : List Record} {answered answered' : List Nat}
    {due due' : List Record} (w : GmailApiPoll.State) (error : GmailApiPollError) :
    Emission labelIds ⟨w, visible, answered, due⟩ ⟨(fail w error).1, visible', answered', due'⟩
      (fail w error).2 := by
  rw [fail]
  split
  · refine .quiet rfl ?_
    intro x hx
    dsimp only at hx
    split at hx
    · exact List.mem_singleton.mp hx
    · cases hx
  · exact .quiet rfl (by simp)

theorem emission_accept {answered : List Nat} {due : List Record} (trigger : Bool)
    (polling : s.watcher.polling = true)
    (tracker : s.watcher.tracker.lastHistoryId = some since) (advanced : since < last)
    (known : last ∈ answered) (queued : trigger = false → ∀ record ∈ s.visible,
      since < record.id → record.id ≤ last → ¬ record.Relevant labelIds) :
    Emission labelIds s
      { s with watcher := (accept s.watcher since last trigger).1, answered := answered, due := due }
      (accept s.watcher since last trigger).2 := by
  refine .accepted since last trigger ⟨polling, ⟨rfl, rfl⟩, ⟨tracker, advanced, rfl⟩, known, rfl,
    ?_⟩ rfl
  intro record visible after upto relevant
  cases trigger with
  | true => simp [accept]
  | false => exact absurd relevant (queued rfl record visible after upto)

theorem emission_move (sound : Sound labelIds s) (move : Move labelIds s label t es) :
    Emission labelIds s t es := by
  have search : ∀ {since last name pageToken rest},
      s.watcher.pc = .pollHistory since last name pageToken rest → s.watcher.polling = true := by
    intro since last name pageToken rest hpc
    simp [GmailApiPoll.State.polling, hpc]
  cases move with
  | appeared fresh => exact .quiet rfl (by simp)
  | watcher other turn =>
    cases turn with
    | failed error _ => exact emission_fail s.watcher error
    | baselined hpc parsed =>
      simp only [Sound, hpc] at sound
      exact .baselined _ s.watcher.initialReady sound (by simp [GmailApiPoll.State.polling, hpc])
        rfl rfl
    | advanced hpc parsed tracked advanced none =>
      refine emission_accept true ?_ tracked advanced (by simp [answer, parsed]) (by simp)
      simp [GmailApiPoll.State.polling, hpc]
    | stale hpc =>
      have searched := sound.searched hpc
      exact emission_accept true (search hpc) searched.tracker searched.advanced
        (by simpa [answer] using searched.answered) (by simp)
    | retried goOn hpc => cases goOn <;> exact .quiet rfl (by simp)
    | changed => cases other
    | nextPage => cases other
    | nextLabel => cases other
    | noChange => cases other
    | _ => exact .quiet rfl (by simp)
  | listed hpc complete turn =>
    have searched := sound.searched hpc
    cases turn with
    | failed error _ => exact emission_fail s.watcher error
    | changed hpc' changes =>
      obtain ⟨rfl, rfl, -, -, -⟩ := Pc.pollHistory.inj (hpc.symm.trans hpc')
      exact emission_accept true (search hpc) searched.tracker searched.advanced searched.answered
        (by simp)
    | nextPage => exact .quiet rfl (by simp)
    | nextLabel => exact .quiet rfl (by simp)
    | noChange hpc' quiet done =>
      obtain ⟨rfl, rfl, rfl, -, rfl⟩ := Pc.pollHistory.inj (hpc.symm.trans hpc')
      obtain rfl := historyPageHasChanges_response quiet
      refine emission_accept false (search hpc) searched.tracker searched.advanced
        searched.answered ?_
      -- every configured label has been listed to its end
      obtain ⟨before, split, ruled⟩ := searched.labels
      rintro - record visible after upto (none | ⟨label, configured, listed⟩)
      · simp [none] at split
      · rw [split] at configured
        rcases List.mem_append.mp configured with early | final
        · exact ruled record visible after upto label early listed
        · obtain rfl := List.mem_singleton.mp final
          exact searched.rulesOut (complete done) record visible after upto listed

/-- The trace tells where the tracker is. -/
structure Tracks (labelIds : List String) (tr : List GmailApiPoll.Event) (s : State) : Prop where
  sound : Sound labelIds s
  cursor : cursor tr = s.watcher.tracker.lastHistoryId
  contiguous : AtEach Contiguous tr

theorem tracks_step (tracks : Tracks labelIds tr s) (h : step labelIds s label = some (t, es)) :
    Tracks labelIds (tr ++ es) t := by
  have move := move_of_step h
  refine ⟨sound_move tracks.sound move, ?_, ?_⟩
  · cases emission_move tracks.sound move with
    | accepted since last trigger accepting emitted =>
      rw [emitted, accepting.tracker.2.2]
      exact cursor_append_tracked rfl (by cases trigger <;> simp [tracked])
    | baselined id ready _ _ tracker emitted =>
      rw [emitted, tracker]
      exact cursor_append_tracked rfl (by cases ready <;> simp [tracked])
    | quiet same quiet =>
      rw [same, ← tracks.cursor]
      refine cursor_append_quiet ?_
      intro x hx
      rw [quiet x hx]
      rfl
  · cases emission_move tracks.sound move with
    | accepted since last trigger accepting emitted =>
      rw [emitted, List.append_cons]
      refine (tracks.contiguous.append_one ?_).append_quiet ?_
      · exact ⟨tracks.cursor.trans accepting.tracker.1, accepting.tracker.2.1⟩
      · cases trigger <;> simp [Contiguous]
    | baselined id ready none _ _ emitted =>
      rw [emitted, List.append_cons]
      have first : Contiguous tr (.baselined id) := tracks.cursor.trans none
      refine (tracks.contiguous.append_one first).append_quiet ?_
      cases ready <;> simp [Contiguous]
    | quiet _ quiet =>
      refine tracks.contiguous.append_quiet ?_
      intro x hx before
      rw [quiet x hx]
      trivial

theorem tracks_start (visible : List Record) (initialReady : Bool) :
    Tracks labelIds [] (State.start visible initialReady) :=
  ⟨trivial, rfl, atEach_nil⟩

variable {labels : List Label}

theorem tracks_run {visible : List Record} {initialReady : Bool}
    (run : exec (step labelIds) (State.start visible initialReady) labels = some (t, tr)) :
    Tracks labelIds tr t :=
  exec_invariant (P := Tracks labelIds) (fun _ _ _ _ _ tracks h => tracks_step tracks h)
    (tracks_start visible initialReady) run

theorem tracker_grows (sound : Sound labelIds s)
    (run : exec (step labelIds) s labels = some (t, tr)) {id : Nat}
    (tracked : s.watcher.tracker.lastHistoryId = some id) :
    ∃ later, t.watcher.tracker.lastHistoryId = some later ∧ id ≤ later := by
  refine (exec_state_invariant (P := fun m => Sound labelIds m ∧
    ∃ later, m.watcher.tracker.lastHistoryId = some later ∧ id ≤ later) ?_
    ⟨sound, id, tracked, le_refl id⟩ run).2
  rintro m label n es ⟨sound, later, tracked, upto⟩ h
  have move := move_of_step h
  refine ⟨sound_move sound move, ?_⟩
  cases emission_move sound move with
  | accepted since last trigger accepting _ =>
    obtain ⟨before, advanced, after⟩ := accepting.tracker
    obtain rfl : later = since := Option.some.inj (tracked.symm.trans before)
    exact ⟨last, after, by omega⟩
  | baselined id ready none _ _ _ => cases tracked.symm.trans none
  | quiet same _ => exact ⟨later, by rw [same, tracked], upto⟩

/-- What appears after an answer lies above it. -/
theorem visible_of_answered {last : Nat} (answered : last ∈ s.answered)
    (run : exec (step labelIds) s labels = some (t, tr)) {record : Record}
    (visible : record ∈ t.visible) (upto : record.id ≤ last) : record ∈ s.visible := by
  refine (exec_state_invariant (P := fun m => last ∈ m.answered ∧
    ∀ r ∈ m.visible, r.id ≤ last → r ∈ s.visible) ?_ ⟨answered, fun r hr _ => hr⟩ run).2
    record visible upto
  rintro m label n es ⟨answered, known⟩ h
  cases move_of_step h with
  | appeared fresh =>
    refine ⟨answered, ?_⟩
    intro r hr upto
    rcases List.mem_cons.mp hr with rfl | hr
    · have := fresh last answered
      omega
    · exact known r hr upto
  | watcher other turn => exact ⟨List.mem_append_right _ answered, known⟩
  | listed hpc complete turn => exact ⟨answered, known⟩

/-- A call of `poll_once`, from its first request to its return. -/
structure Poll (labelIds : List String) (s : State) (labels : List Label) (t : State)
    (es : List GmailApiPoll.Event) : Prop where
  run : exec (step labelIds) s labels = some (t, es)
  called : s.watcher.pc = .pollToken
  inside : Meets (step labelIds) (fun m _ => m.watcher.polling = true) s labels
  returned : t.watcher.polling = false

/-- Nothing is accepted or queued before a poll returns, nor when it returns an error. -/
theorem Poll.quiet_of_failed (sound : Sound labelIds s) (poll : Poll labelIds s labels t es)
    (failed : t.watcher.failed = true) : t.watcher.tracker = s.watcher.tracker ∧
      GmailApiPoll.Event.queued ∉ es ∧ ∀ since last, .accepted since last ∉ es := by
  let P : List GmailApiPoll.Event → State → Prop := fun tr m => Sound labelIds m ∧
    (m.watcher.polling = true ∨ m.watcher.failed = true →
      m.watcher.tracker = s.watcher.tracker ∧ ∀ x ∈ tr, x = .initialReadyFailed)
  have preserves : ∀ tr m label n es, P tr m → m.watcher.polling = true →
      step labelIds m label = some (n, es) → P (tr ++ es) n := by
    rintro tr m label n es ⟨sound, before⟩ polling h
    have move := move_of_step h
    refine ⟨sound_move sound move, ?_⟩
    intro going
    obtain ⟨tracker, quiet⟩ := before (Or.inl polling)
    cases emission_move sound move with
    | accepted since last trigger accepting _ =>
      obtain ⟨returned, passed⟩ := accepting.returned
      simp [returned, passed] at going
    | baselined id ready _ outside _ _ => simp [outside] at polling
    | quiet same calm =>
      refine ⟨same.trans tracker, ?_⟩
      intro x hx
      rcases List.mem_append.mp hx with hx | hx
      · exact quiet x hx
      · exact calm x hx
  have start : P [] s := ⟨sound, fun _ => ⟨rfl, by simp⟩⟩
  have last : P ([] ++ es) t := exec_invariant_of_meets preserves start poll.inside poll.run
  obtain ⟨tracker, quiet⟩ := last.2 (Or.inr failed)
  refine ⟨tracker, ?_, ?_⟩
  · intro h
    cases quiet _ h
  · intro since last h
    cases quiet _ h

/-- Throughout a run the tracker only grows and the accepted intervals follow each other; a poll
that fails leaves it and queues nothing; and a step that accepts an interval queues an event if
a record of the interval that matters is ever visible, and then it already is. -/
theorem polling_loses_no_history {visible : List Record} {initialReady : Bool}
    (run : exec (step labelIds) (State.start visible initialReady) labels = some (t, tr)) :
    (AtEach Contiguous tr ∧ cursor tr = t.watcher.tracker.lastHistoryId ∧
      ∀ before after m es, labels = before ++ after →
        exec (step labelIds) (State.start visible initialReady) before = some (m, es) →
        ∀ id, m.watcher.tracker.lastHistoryId = some id →
          ∃ later, t.watcher.tracker.lastHistoryId = some later ∧ id ≤ later) ∧
    (∀ before poll after s m es fs, labels = before ++ (poll ++ after) →
      exec (step labelIds) (State.start visible initialReady) before = some (s, es) →
      Poll labelIds s poll m fs → m.watcher.failed = true →
        m.watcher.tracker = s.watcher.tracker ∧ .queued ∉ fs ∧
          ∀ since last, .accepted since last ∉ fs) ∧
    ∀ before label after s m es fs since last, labels = before ++ label :: after →
      exec (step labelIds) (State.start visible initialReady) before = some (s, es) →
      step labelIds s label = some (m, fs) → .accepted since last ∈ fs →
        s.watcher.polling = true ∧ m.watcher.polling = false ∧ m.watcher.failed = false ∧
        ∀ record ∈ t.visible, since < record.id → record.id ≤ last → record.Relevant labelIds →
          record ∈ s.visible ∧ .queued ∈ fs := by
  have tracks := tracks_run run
  refine ⟨⟨tracks.contiguous, tracks.cursor, ?_⟩, ?_, ?_⟩
  · rintro before after m es rfl hm id tracked
    obtain ⟨n, gs, ks, hn, rest, -⟩ := exec_append_some.mp run
    obtain ⟨rfl, rfl⟩ := Prod.mk.inj (Option.some.inj (hm.symm.trans hn))
    exact tracker_grows (tracks_run hm).sound rest tracked
  · rintro before poll after s m es fs - hs called failed
    exact called.quiet_of_failed (tracks_run hs).sound failed
  · rintro before label after s m es fs since last rfl hs h accepted
    obtain ⟨n, gs, ks, hn, rest, -⟩ := exec_append_some.mp run
    obtain ⟨rfl, rfl⟩ := Prod.mk.inj (Option.some.inj (hs.symm.trans hn))
    obtain ⟨k, hs', js, hk, later, -⟩ := exec_cons_some.mp rest
    obtain ⟨rfl, rfl⟩ := Prod.mk.inj (Option.some.inj (h.symm.trans hk))
    cases emission_move (tracks_run hs).sound (move_of_step h) with
    | accepted since' last' trigger accepting emitted =>
      obtain ⟨rfl, rfl⟩ : since = since' ∧ last = last' := by
        cases trigger <;> simpa [emitted] using accepted
      refine ⟨accepting.polling, accepting.returned.1, accepting.returned.2, ?_⟩
      intro record seen after upto relevant
      have visible : record ∈ s.visible := by
        rw [← accepting.visible]
        exact visible_of_answered accepting.answered later seen upto
      exact ⟨visible, accepting.queued record visible after upto relevant⟩
    | baselined id ready _ _ _ emitted => cases ready <;> simp [emitted] at accepted
    | quiet _ calm => cases calm _ accepted

/-- The baseline, a poll that fails at its second page, and one that finds the record. -/
private def examplePolls : List Label :=
  [.watcher (.check false), .watcher (.helper (.ok ())), .watcher (.profile (.ok "7".toList)),
    .watcher (.slept true), .appeared ⟨9, ["INBOX"]⟩, .watcher (.helper (.ok ())),
    .watcher (.profile (.ok "9".toList)), .listed [] none, .listed [] (some "next"),
    .watcher (.history (.error (.request "history.list" "timeout"))), .watcher (.slept true),
    .watcher (.check false), .watcher (.slept true), .watcher (.helper (.ok ())),
    .watcher (.profile (.ok "9".toList)), .listed [] none, .listed [⟨9, ["INBOX"]⟩] none]

theorem example_polls_queue_the_record :
    .queued ∈ ((step ["SENT", "INBOX"] ((exec (step ["SENT", "INBOX"]) (State.start [] true)
      (examplePolls.take 16)).get (by decide +kernel)).1 (.listed [⟨9, ["INBOX"]⟩] none)).get
        (by decide +kernel)).2 := by
  have run := (Option.some_get (by decide +kernel :
    (exec (step ["SENT", "INBOX"]) (State.start [] true) examplePolls).isSome = true)).symm
  have before := (Option.some_get (by decide +kernel :
    (exec (step ["SENT", "INBOX"]) (State.start [] true)
      (examplePolls.take 16)).isSome = true)).symm
  obtain ⟨-, -, -, found⟩ := (polling_loses_no_history run).2.2 (examplePolls.take 16) _ [] _ _ _ _
    7 9 rfl before (Option.some_get (by decide +kernel)).symm (by decide +kernel)
  exact (found ⟨9, ["INBOX"]⟩ (by decide +kernel) (by decide) (by decide) (by decide)).2

end GmailHistory

import Mailwake.ResponseForms

/-!
# How exact the classification of IDLE responses is

Tags are told apart exactly, whatever their lengths. The status after a tag is looked for across any
white space, a farewell only by its beginning, and mailbox data by a word anywhere in the line. The
classification is exact on a line where none of this finds what does not stand there.
-/
namespace IdleClassification
open ImapLine ResponseForms

def isUntaggedBye (line : Line) : Bool := (untagged line).any (hasStatus "BYE".toList)

/-- What follows the number of a message or of messages. -/
def isCountedData (text : Line) : Bool :=
  text = " EXISTS".toList || text = " RECENT".toList || text = " EXPUNGE".toList ||
    named text " FETCH".toList

/-- Untagged mailbox data, in any letter case. -/
def isMailboxData (line : Line) : Bool :=
  (untagged (toAsciiUppercase line)).any fun rest =>
    !(rest.takeWhile Char.isDigit).isEmpty && isCountedData (rest.dropWhile Char.isDigit) ||
      named rest "VANISHED".toList

/-- The line gets the answer that its form calls for, while the tag of the given number is
awaited. -/
structure Exact (line : Line) (n : Nat) : Prop where
  completed : classifyIdleResponse line (formatTag n) = .ok .completed ↔
    ∃ rest, line = formatTag n ++ ' ' :: rest ∧ statusOk rest = true
  rejected : classifyIdleResponse line (formatTag n) = .error (.commandRejected "IDLE") ↔
    ∃ rest, line = formatTag n ++ ' ' :: rest ∧ statusOk rest = false
  foreign : ∀ m rest, m ≠ n → line = formatTag m ++ ' ' :: rest →
    classifyIdleResponse line (formatTag n) = .ok .other
  closed : classifyIdleResponse line (formatTag n) = .error .serverClosed ↔
    isUntaggedBye line = true
  change : classifyIdleResponse line (formatTag n) = .ok .mailboxChange ↔
    isMailboxData line = true
  other : classifyIdleResponse line (formatTag n) = .ok .other ↔
    (∀ rest, line ≠ formatTag n ++ ' ' :: rest) ∧ isUntaggedBye line = false ∧
      isMailboxData line = false

/-- The words that the classifier looks for. -/
def changeWords : List Line :=
  [" EXISTS".toList, " EXPUNGE".toList, " RECENT".toList, " FETCH".toList, " VANISHED".toList]

/-- What is taken for an OK under the tag says OK, a farewell is a whole word, and other lines than
mailbox data have none of the words in them. -/
structure Unmistakable (line : Line) (n : Nat) : Prop where
  status : isTaggedOk line (formatTag n) = true →
    (underTag line (formatTag n)).any statusOk = true
  bye : isBye line = true → isUntaggedBye line = true
  words : startsWith (toAsciiUppercase line) "* ".toList = true → isUntaggedBye line = false →
    isMailboxData line = false →
    ∀ word ∈ changeWords, contains (toAsciiUppercase line) word = false

section Prefixes
variable {text word : Line}

theorem contains_of_infix (h : word <:+: text) : contains text word = true := by
  obtain ⟨before, after, rfl⟩ := h
  refine List.any_eq_true.mpr ⟨word ++ after, ?_, ?_⟩
  · exact (List.mem_tails _ _).mpr ⟨before, by simp⟩
  · exact List.isPrefixOf_iff_prefix.mpr (List.prefix_append word after)

end Prefixes

section Forms
variable {line rest : Line} {m n : Nat}

/-- A tagged line begins like no untagged one. -/
theorem untagged_of_tag (h : line = formatTag n ++ ' ' :: rest) :
    isBye line = false ∧ isUntaggedBye line = false ∧ isMailboxChange line = false ∧
      isMailboxData line = false := by
  subst h
  have upper := not_star_of_tag n (' ' :: rest)
  have star : untagged (formatTag n ++ ' ' :: rest) = none := by
    refine Option.eq_none_iff_forall_ne_some.mpr fun text found => ?_
    have same := untagged_eq_some.mp found
    simp [formatTag] at same
  have starred : untagged (toAsciiUppercase (formatTag n ++ ' ' :: rest)) = none := by
    refine Option.eq_none_iff_forall_ne_some.mpr fun text found => ?_
    rw [untagged_eq_some.mp found] at upper
    cases upper
  refine ⟨?_, ?_, ?_, ?_⟩
  · simp [isBye, startsWith, formatTag, toAsciiUppercase, List.isPrefixOf]
  · rw [isUntaggedBye, star]
    rfl
  · simp only [isMailboxChange, upper, Bool.false_and]
  · rw [isMailboxData, starred]
    rfl

/-- A farewell begins as the classifier expects it. -/
theorem isBye_of_untagged (h : isUntaggedBye line = true) : isBye line = true := by
  obtain ⟨text, found, bye⟩ := (Option.any_eq_true ..).mp h
  obtain ⟨rest, upper⟩ := prefix_of_named bye
  rw [untagged_eq_some.mp found, isBye]
  refine List.isPrefixOf_iff_prefix.mpr ⟨rest, ?_⟩
  rw [toAsciiUppercase, List.map_cons, List.map_cons, ← toAsciiUppercase, ← upper]
  rfl

theorem prefix_of_counted {text : Line} (h : isCountedData text = true) :
    ∃ word ∈ changeWords, word <+: text := by
  simp only [isCountedData, Bool.or_eq_true, decide_eq_true_eq] at h
  rcases h with ((rfl | rfl) | rfl) | fetch
  · exact ⟨_, by simp [changeWords], List.prefix_refl _⟩
  · exact ⟨_, by simp [changeWords], List.prefix_refl _⟩
  · exact ⟨_, by simp [changeWords], List.prefix_refl _⟩
  · exact ⟨" FETCH".toList, by simp [changeWords], prefix_of_named fetch⟩

theorem isMailboxChange_eq : isMailboxChange line =
    (startsWith (toAsciiUppercase line) "* ".toList &&
      changeWords.any fun word => contains (toAsciiUppercase line) word) := by
  simp [isMailboxChange, changeWords, Bool.or_assoc]

/-- Mailbox data has one of the words in it, and begins unlike a farewell. -/
theorem change_of_data (h : isMailboxData line = true) :
    isMailboxChange line = true ∧ isBye line = false := by
  obtain ⟨rest, starred, data⟩ := (Option.any_eq_true ..).mp h
  have upper : toAsciiUppercase line = "* ".toList ++ rest := untagged_eq_some.mp starred
  have star : startsWith (toAsciiUppercase line) "* ".toList = true :=
    List.isPrefixOf_iff_prefix.mpr ⟨rest, upper.symm⟩
  have found (word : Line) (mem : word ∈ changeWords) (inside : word <:+: toAsciiUppercase line) :
      isMailboxChange line = true := by
    rw [isMailboxChange_eq, star, Bool.true_and]
    exact List.any_eq_true.mpr ⟨word, mem, contains_of_infix inside⟩
  rw [Bool.or_eq_true, Bool.and_eq_true, Bool.not_eq_true'] at data
  rcases data with ⟨counted, named⟩ | vanished
  · obtain ⟨word, mem, ⟨after, text⟩⟩ := prefix_of_counted named
    have whole := List.takeWhile_append_dropWhile (p := Char.isDigit) (l := rest)
    refine ⟨found word mem ⟨"* ".toList ++ rest.takeWhile Char.isDigit, after, ?_⟩, ?_⟩
    · rw [upper, List.append_assoc, text, List.append_assoc, whole]
    · cases rest with
      | nil => cases counted
      | cons c rest =>
        cases digit : c.isDigit with
        | false =>
          rw [List.takeWhile_cons_of_neg (by simp [digit])] at counted
          cases counted
        | true =>
          have other : c ≠ 'B' := by
            rintro rfl
            cases digit
          rw [isBye, upper]
          simp [startsWith, List.isPrefixOf, other.symm]
  · obtain ⟨after, rfl⟩ := prefix_of_named vanished
    refine ⟨found " VANISHED".toList (by simp [changeWords]) ⟨['*'], after, ?_⟩, ?_⟩
    · rw [upper]
      rfl
    · rw [isBye, upper]
      rfl

theorem classify_tagged (h : line = formatTag n ++ ' ' :: rest) :
    classifyIdleResponse line (formatTag n) =
      if isTaggedOk line (formatTag n) then .ok .completed
      else .error (.commandRejected "IDLE") := by
  have completion := isTaggedCompletion_iff.mpr ⟨rest, underTag_formatTag.mpr h⟩
  rw [classifyIdleResponse, (untagged_of_tag h).1, completion]
  rfl

theorem classify_untagged (h : ∀ rest, line ≠ formatTag n ++ ' ' :: rest) :
    classifyIdleResponse line (formatTag n) =
      if isBye line then .error .serverClosed
      else if isMailboxChange line then .ok .mailboxChange else .ok .other := by
  have completion : isTaggedCompletion line (formatTag n) = false :=
    isTaggedCompletion_eq_false.mpr (Option.eq_none_iff_forall_ne_some.mpr fun rest some =>
      h rest (underTag_formatTag.mp some))
  rw [classifyIdleResponse, not_ok_of_not_completion completion, completion]
  rfl

/-- A line under another tag, of whatever length, is no answer. -/
theorem classify_foreign (other : m ≠ n) (h : line = formatTag m ++ ' ' :: rest) :
    classifyIdleResponse line (formatTag n) = .ok .other := by
  have untagged : ∀ s, line ≠ formatTag n ++ ' ' :: s :=
    fun s same => other (tag_unique (h.symm.trans same))
  obtain ⟨bye, -, change, -⟩ := untagged_of_tag h
  rw [classify_untagged untagged, bye, change]
  rfl

end Forms

/-- On a tagged line the classification is exact if the status is read as it stands. -/
theorem exact_tagged {line rest : Line} {n : Nat} (h : line = formatTag n ++ ' ' :: rest)
    (read : isTaggedOk line (formatTag n) = statusOk rest) : Exact line n := by
  obtain ⟨-, bye, -, data⟩ := untagged_of_tag h
  have answer := classify_tagged h
  rw [read] at answer
  have status (ok : Bool) :
      (∃ s, line = formatTag n ++ ' ' :: s ∧ statusOk s = ok) ↔ statusOk rest = ok := by
    refine ⟨?_, fun same => ⟨rest, h, same⟩⟩
    rintro ⟨s, same, rfl⟩
    rw [(List.cons.inj (List.append_cancel_left (same.symm.trans h))).2]
  have answered : ∀ response, response ≠ .completed →
      classifyIdleResponse line (formatTag n) ≠ .ok response := by
    intro response other same
    rw [answer] at same
    split at same <;> cases same
    exact other rfl
  refine ⟨?_, ?_, fun m s other same => classify_foreign other same, ?_, ?_, ?_⟩
  · rw [status, answer]
    cases statusOk rest <;> simp
  · rw [status, answer]
    cases statusOk rest <;> simp
  · rw [answer, bye]
    cases statusOk rest <;> simp
  · rw [data]
    exact ⟨fun same => absurd same (answered _ (by simp)), nofun⟩
  · exact ⟨fun same => absurd same (answered _ (by simp)), fun free => absurd h (free.1 rest)⟩

/-- On other lines it is exact if what the classifier finds is what it looks for. -/
theorem exact_untagged {line : Line} {n : Nat} (h : ∀ rest, line ≠ formatTag n ++ ' ' :: rest)
    (bye : isBye line = isUntaggedBye line)
    (change : isBye line = false → isMailboxChange line = isMailboxData line) : Exact line n := by
  have answer := classify_untagged h
  have apart : isMailboxData line = true → isBye line = false := fun data => (change_of_data data).2
  refine ⟨?_, ?_, fun m s other same => classify_foreign other same, ?_, ?_, ?_⟩
  · rw [answer]
    refine ⟨fun same => ?_, fun ⟨rest, same, _⟩ => absurd same (h rest)⟩
    split at same
    · cases same
    · split at same <;> cases same
  · rw [answer]
    refine ⟨fun same => ?_, fun ⟨rest, same, _⟩ => absurd same (h rest)⟩
    split at same
    · cases same
    · split at same <;> cases same
  · rw [answer, ← bye]
    cases isBye line <;> cases isMailboxChange line <;> simp
  · rw [answer]
    cases found : isBye line with
    | true =>
      refine ⟨nofun, fun data => ?_⟩
      rw [apart data] at found
      cases found
    | false =>
      rw [← change found]
      cases isMailboxChange line <;> simp
  · rw [answer, ← bye]
    cases found : isBye line with
    | true => simp
    | false =>
      rw [← change found]
      cases isMailboxChange line <;> simp [h]

theorem exact_tagged_iff {line rest : Line} {n : Nat} (h : line = formatTag n ++ ' ' :: rest) :
    Exact line n ↔ Unmistakable line n := by
  have under := underTag_formatTag.mpr h
  obtain ⟨bye, -, -, -⟩ := untagged_of_tag h
  constructor
  · intro exact
    refine ⟨fun ok => ?_, fun found => ?_, fun star => ?_⟩
    · have answer := classify_tagged h
      rw [ok] at answer
      obtain ⟨text, same, status⟩ := exact.completed.mp answer
      rw [underTag_formatTag.mpr same]
      exact status
    · rw [bye] at found
      cases found
    · rw [h, not_star_of_tag] at star
      cases star
  · intro clear
    refine exact_tagged h (Bool.eq_iff_iff.mpr ⟨fun ok => ?_, isTaggedOk_of_statusOk under⟩)
    have status := clear.status ok
    rwa [under] at status

theorem exact_untagged_iff {line : Line} {n : Nat}
    (untagged : ∀ rest, line ≠ formatTag n ++ ' ' :: rest) :
    Exact line n ↔ Unmistakable line n := by
  have answer := classify_untagged untagged
  constructor
  · intro exact
    refine ⟨fun ok => ?_, fun bye => ?_, fun star notBye notData word mem => ?_⟩
    · obtain ⟨rest, under⟩ := isTaggedCompletion_iff.mp (isTaggedCompletion_of_ok ok)
      exact absurd (underTag_formatTag.mp under) (untagged rest)
    · rw [← exact.closed, answer, bye]
      rfl
    · have quiet := exact.other.mpr ⟨untagged, notBye, notData⟩
      have unchanged : isMailboxChange line = false := by
        rw [answer] at quiet
        split at quiet
        · cases quiet
        · split at quiet
          · cases quiet
          · rename_i none
            exact Bool.eq_false_iff.mpr none
      rw [isMailboxChange_eq, star, Bool.true_and, List.any_eq_false] at unchanged
      exact Bool.eq_false_iff.mpr (unchanged word mem)
  · intro clear
    have same : isBye line = isUntaggedBye line :=
      Bool.eq_iff_iff.mpr ⟨clear.bye, isBye_of_untagged⟩
    refine exact_untagged untagged same fun notBye => ?_
    cases data : isMailboxData line with
    | true => exact (change_of_data data).1
    | false =>
      rw [isMailboxChange_eq]
      cases star : startsWith (toAsciiUppercase line) "* ".toList with
      | false => rfl
      | true =>
        rw [Bool.true_and, List.any_eq_false]
        intro word mem
        rw [clear.words star (same ▸ notBye) data word mem]
        exact Bool.false_ne_true

/-- Classification is exact on exactly the lines that cannot be mistaken. -/
theorem exact_iff (line : Line) (n : Nat) : Exact line n ↔ Unmistakable line n := by
  by_cases tagged : ∃ rest, line = formatTag n ++ ' ' :: rest
  · obtain ⟨rest, h⟩ := tagged
    exact exact_tagged_iff h
  · exact exact_untagged_iff fun rest same => tagged ⟨rest, same⟩

/-- A keep-alive whose text names a mailbox event is taken for one, and a tagged line whose text
does not begin with a status for an OK. -/
theorem status_text_taken_for_change :
    classifyIdleResponse "* OK No new mail EXISTS".toList (formatTag 1) = .ok .mailboxChange ∧
      isMailboxData "* OK No new mail EXISTS".toList = false ∧
      classifyIdleResponse "A0001  OK".toList (formatTag 1) = .ok .completed ∧
      (∀ rest, "A0001  OK".toList = formatTag 1 ++ ' ' :: rest → statusOk rest = false) ∧
      ¬ ∀ line n, Exact line n := by
  have taken : classifyIdleResponse "* OK No new mail EXISTS".toList (formatTag 1) =
      .ok .mailboxChange := by decide +kernel
  have none : isMailboxData "* OK No new mail EXISTS".toList = false := by decide +kernel
  refine ⟨taken, none, by decide +kernel, ?_, fun all => ?_⟩
  · intro rest same
    have found : underTag "A0001  OK".toList (formatTag 1) = some " OK".toList := by
      decide +kernel
    rw [← Option.some.inj (found.symm.trans (underTag_formatTag.mpr same))]
    decide
  · have data := (all "* OK No new mail EXISTS".toList 1).change.mp taken
    rw [none] at data
    cases data

end IdleClassification

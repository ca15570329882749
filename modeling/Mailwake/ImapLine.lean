import Mathlib.Data.List.DropRight
import Mathlib.Data.List.Infix

/-!
# IMAP response lines

The predicates the session applies to a line, on the characters of the line. Upper case
is ASCII only; white space is Unicode's, as `split_whitespace` has it.
-/
namespace ImapLine

abbrev Line := List Char

def startsWith (l p : Line) : Bool := p.isPrefixOf l

def stripPrefix (l p : Line) : Option Line :=
  if startsWith l p then some (l.drop p.length) else none

def contains (l p : Line) : Bool := l.tails.any (fun rest => startsWith rest p)

def toAsciiUppercase (l : Line) : Line := l.map Char.toUpper

def eqIgnoreAsciiCase (l p : Line) : Bool := toAsciiUppercase l = toAsciiUppercase p

/-- The characters with the property White_Space. -/
def isWhitespace (c : Char) : Bool :=
  (9 ≤ c.toNat && c.toNat ≤ 13) || (0x2000 ≤ c.toNat && c.toNat ≤ 0x200a) ||
    c.toNat ∈ [0x20, 0x85, 0xa0, 0x1680, 0x2028, 0x2029, 0x202f, 0x205f, 0x3000]

/-- The first item of `split_whitespace`. -/
def firstWord (l : Line) : Option Line :=
  match (l.dropWhile isWhitespace).takeWhile (fun c => !isWhitespace c) with
  | [] => none
  | word => some word

def trimLine (l : Line) : Line := l.rdropWhile (fun c => c = '\r' || c = '\n')

/-- What follows the tag and one space. -/
def afterTag (line tag : Line) : Option Line :=
  (stripPrefix line tag).bind fun rest => stripPrefix rest [' ']

def isTaggedCompletion (line tag : Line) : Bool := (afterTag line tag).isSome

def isTaggedOk (line tag : Line) : Bool :=
  match afterTag line tag with
  | none => false
  | some rest => (firstWord rest).any fun status => eqIgnoreAsciiCase status ['O', 'K']

def isMailboxChange (line : Line) : Bool :=
  let upper := toAsciiUppercase line
  startsWith upper "* ".toList &&
    (contains upper " EXISTS".toList || contains upper " EXPUNGE".toList ||
      contains upper " RECENT".toList || contains upper " FETCH".toList ||
      contains upper " VANISHED".toList)

/-- The errors that reading and writing a session can end with. -/
inductive ImapError where
  | io (source : String)
  | serverClosed
  | commandRejected (command : String)
  | protocol (context : String)
  | operationTimedOut (operation : String)
  deriving DecidableEq

inductive IdleResponse where
  | completed
  | mailboxChange
  | other
  deriving DecidableEq

def isBye (line : Line) : Bool := startsWith (toAsciiUppercase line) "* BYE".toList

def classifyIdleResponse (line tag : Line) : Except ImapError IdleResponse :=
  if isBye line then .error .serverClosed
  else if isTaggedOk line tag then .ok .completed
  else if isTaggedCompletion line tag then .error (.commandRejected "IDLE")
  else if isMailboxChange line then .ok .mailboxChange
  else .ok .other

/-- `Tags::next` formats its counter with at least four digits. -/
def formatTag (n : Nat) : Line :=
  'A' :: (List.replicate (4 - (Nat.toDigits 10 n).length) '0' ++ Nat.toDigits 10 n)

example : formatTag 12 = "A0012".toList := by decide

theorem not_star_of_tag (n : Nat) (rest : Line) :
    startsWith (toAsciiUppercase (formatTag n ++ rest)) "* ".toList = false := by
  simp [startsWith, formatTag, toAsciiUppercase, List.isPrefixOf]

/-- A tagged line and untagged mailbox data begin differently. -/
theorem not_mailboxChange_of_tagged {line : Line} {n : Nat}
    (h : isTaggedCompletion line (formatTag n) = true) : isMailboxChange line = false := by
  simp only [isTaggedCompletion, afterTag, Option.isSome_iff_exists, Option.bind_eq_some_iff,
    stripPrefix] at h
  obtain ⟨-, rest, hr, -⟩ := h
  split at hr
  · rename_i starts
    obtain ⟨tail, rfl⟩ := List.isPrefixOf_iff_prefix.mp starts
    simp only [isMailboxChange, not_star_of_tag, Bool.false_and]
  · cases hr

theorem isTaggedCompletion_of_ok {line tag : Line} (h : isTaggedOk line tag = true) :
    isTaggedCompletion line tag = true := by
  cases ha : afterTag line tag with
  | none => simp [isTaggedOk, ha] at h
  | some rest => simp [isTaggedCompletion, ha]

theorem not_ok_of_not_completion {line tag : Line} (h : isTaggedCompletion line tag = false) :
    isTaggedOk line tag = false := by
  cases ok : isTaggedOk line tag with
  | false => rfl
  | true =>
    rw [isTaggedCompletion_of_ok ok] at h
    cases h

/-- Where classification does not end the session, it finds every mailbox change. -/
theorem classify_of_change {line : Line} {n : Nat} (change : isMailboxChange line = true) :
    classifyIdleResponse line (formatTag n) = .error .serverClosed ∨
      classifyIdleResponse line (formatTag n) = .ok .mailboxChange := by
  have untagged : isTaggedCompletion line (formatTag n) = false := by
    cases ht : isTaggedCompletion line (formatTag n) with
    | false => rfl
    | true =>
      rw [not_mailboxChange_of_tagged ht] at change
      cases change
  have notOk := not_ok_of_not_completion untagged
  by_cases bye : isBye line = true
  · exact Or.inl (by rw [classifyIdleResponse, if_pos bye])
  · right
    rw [classifyIdleResponse, if_neg bye]
    simp [notOk, untagged, change]

/-- A mailbox change that ends the session is a farewell. -/
theorem bye_of_classify {line : Line} {n : Nat} {error : ImapError}
    (h : classifyIdleResponse line (formatTag n) = .error error) :
    isBye line = true ∨ isMailboxChange line = false := by
  by_cases bye : isBye line = true
  · exact Or.inl bye
  · right
    rw [classifyIdleResponse, if_neg bye] at h
    split at h
    · cases h
    · split at h
      · rename_i tagged
        exact not_mailboxChange_of_tagged tagged
      · split at h <;> cases h

theorem not_change_of_classify {line : Line} {n : Nat} {response : IdleResponse}
    (h : classifyIdleResponse line (formatTag n) = .ok response)
    (other : response ≠ .mailboxChange) : isMailboxChange line = false := by
  cases change : isMailboxChange line with
  | false => rfl
  | true =>
    rcases classify_of_change (n := n) change with he | he
    · rw [h] at he
      cases he
    · rw [h] at he
      exact absurd (Except.ok.inj he) other

theorem change_of_classify {line tag : Line}
    (h : classifyIdleResponse line tag = .ok .mailboxChange) : isMailboxChange line = true := by
  simp only [classifyIdleResponse] at h
  split at h
  · cases h
  split at h
  · cases h
  split at h
  · cases h
  split at h
  · assumption
  · cases h

end ImapLine

import Mailwake.ImapLine

/-!
# The forms of server responses

A response begins with a tag, or with a star or a plus sign in the place of one, and its text
follows after one space. This reading goes by single spaces and whole names. It is no part of the
client, and what the client makes of a line is compared with it.
-/
namespace ResponseForms
open ImapLine

/-- The name alone, or the name, a space and something more. -/
def named (text name : Line) : Bool := text = name || startsWith text (name ++ [' '])

/-- The text of a line under a tag: what follows its first space, if the tag stands before it. -/
def underTag (line tag : Line) : Option Line :=
  if line.takeWhile (fun c => c ≠ ' ') = tag then (line.dropWhile fun c => c ≠ ' ').tail? else none

/-- The text of an untagged line. -/
def untagged (line : Line) : Option Line := underTag line ['*']

/-- The text is the status, in any letter case, alone or with more after a space. -/
def hasStatus (status text : Line) : Bool := named (toAsciiUppercase text) status

def statusOk (text : Line) : Bool := hasStatus "OK".toList text

/-- A request for more stands under a plus sign, with or without a text. -/
def isContinuation (line : Line) : Bool := named line ['+']

section Tags
variable {line text tag : Line} {c : Char} {n : Nat}

theorem underTag_eq_some (unspaced : ' ' ∉ tag) :
    underTag line tag = some text ↔ line = tag ++ ' ' :: text := by
  have whole := List.takeWhile_append_dropWhile (p := fun c => decide (c ≠ ' ')) (l := line)
  constructor
  · intro h
    rw [underTag] at h
    split at h
    · rename_i begins
      rw [begins] at whole
      cases rest : line.dropWhile fun c => c ≠ ' ' with
      | nil =>
        rw [rest] at h
        cases h
      | cons c after =>
        have space : c = ' ' := by
          have stopped := List.head?_dropWhile_not (fun c => decide (c ≠ ' ')) line
          rw [rest] at stopped
          simpa using stopped
        rw [rest] at h whole
        rw [← whole, space, ← Option.some.inj h]
    · cases h
  · rintro rfl
    have tagged : ∀ c ∈ tag, decide (c ≠ ' ') = true :=
      fun c mem => decide_eq_true fun same => unspaced (same ▸ mem)
    rw [underTag, List.takeWhile_append_of_pos tagged, List.dropWhile_append_of_pos tagged]
    simp

theorem mem_formatTag (mem : c ∈ formatTag n) : c = 'A' ∨ c.isDigit = true := by
  rw [formatTag, List.mem_cons, List.mem_append, List.mem_replicate] at mem
  rcases mem with rfl | ⟨-, rfl⟩ | digits
  · exact Or.inl rfl
  · exact Or.inr rfl
  · exact Or.inr (Nat.isDigit_of_mem_toDigits (by decide) (by decide) digits)

theorem space_not_mem_formatTag (n : Nat) : ' ' ∉ formatTag n := by
  intro mem
  rcases mem_formatTag mem with same | digit
  · cases same
  · cases digit

theorem formatTag_injective : Function.Injective formatTag := by
  intro m n h
  have value (k : Nat) : Nat.ofDigitChars 10 (formatTag k).tail 0 = k := by
    rw [formatTag, List.tail_cons, Nat.ofDigitChars_append, Nat.ofDigitChars_replicate_zero,
      Nat.mul_zero, Nat.ofDigitChars_ten_toDigits]
  rw [← value m, h, value n]

theorem underTag_formatTag :
    underTag line (formatTag n) = some text ↔ line = formatTag n ++ ' ' :: text :=
  underTag_eq_some (space_not_mem_formatTag n)

theorem untagged_eq_some : untagged line = some text ↔ line = '*' :: ' ' :: text :=
  underTag_eq_some (by decide)

/-- A line carries one tag at most. -/
theorem tag_unique {m : Nat} {r s : Line}
    (h : formatTag m ++ ' ' :: r = formatTag n ++ ' ' :: s) : m = n := by
  have first : underTag (formatTag m ++ ' ' :: r) (formatTag m) = some r :=
    underTag_formatTag.mpr rfl
  have second : underTag (formatTag m ++ ' ' :: r) (formatTag n) = some s :=
    underTag_formatTag.mpr h
  simp only [underTag, Option.ite_none_right_eq_some] at first second
  exact formatTag_injective (first.1.symm.trans second.1)

end Tags

section Client
variable {line text rest word p : Line} {n : Nat}

theorem stripPrefix_eq_some : stripPrefix line p = some rest ↔ line = p ++ rest := by
  rw [stripPrefix]
  split
  · rename_i starts
    obtain ⟨tail, rfl⟩ := List.isPrefixOf_iff_prefix.mp starts
    simp
  · rename_i starts
    constructor
    · intro none
      cases none
    · rintro rfl
      exact absurd (List.isPrefixOf_iff_prefix.mpr (List.prefix_append p rest)) starts

theorem afterTag_eq_some {tag : Line} :
    afterTag line tag = some rest ↔ line = tag ++ ' ' :: rest := by
  simp only [afterTag, Option.bind_eq_some_iff, stripPrefix_eq_some]
  constructor
  · rintro ⟨_, rfl, rfl⟩
    rfl
  · rintro rfl
    exact ⟨_, rfl, rfl⟩

/-- The client finds the same lines under a tag. -/
theorem afterTag_formatTag (line : Line) (n : Nat) :
    afterTag line (formatTag n) = underTag line (formatTag n) :=
  Option.ext fun _ => afterTag_eq_some.trans underTag_formatTag.symm

theorem isTaggedCompletion_iff : isTaggedCompletion line (formatTag n) = true ↔
    ∃ text, underTag line (formatTag n) = some text := by
  rw [isTaggedCompletion, afterTag_formatTag, Option.isSome_iff_exists]

theorem isTaggedCompletion_eq_false :
    isTaggedCompletion line (formatTag n) = false ↔ underTag line (formatTag n) = none := by
  rw [isTaggedCompletion, afterTag_formatTag, Option.isSome_eq_false_iff, Option.isNone_iff_eq_none]

theorem prefix_of_named {name : Line} (h : named text name = true) : name <+: text := by
  rw [named, Bool.or_eq_true, decide_eq_true_eq] at h
  rcases h with rfl | more
  · exact List.prefix_refl _
  · exact (List.prefix_append name [' ']).trans (List.isPrefixOf_iff_prefix.mp more)

theorem startsWith_of_isContinuation (h : isContinuation line = true) :
    startsWith line ['+'] = true :=
  List.isPrefixOf_iff_prefix.mpr (prefix_of_named h)

/-- A name at the beginning is the first word. -/
theorem firstWord_of_named {name : Line} (nonempty : name ≠ [])
    (word : ∀ c ∈ name, isWhitespace c = false) (h : named text name = true) :
    firstWord text = some name := by
  have begins (rest : Line) (stops : rest.takeWhile (fun c => !isWhitespace c) = []) :
      firstWord (name ++ rest) = some name := by
    obtain ⟨c, cs, rfl⟩ := List.exists_cons_of_ne_nil nonempty
    have unspaced : ∀ d ∈ c :: cs, (!isWhitespace d) = true := fun d mem => by simp [word d mem]
    have start : ((c :: cs) ++ rest).dropWhile isWhitespace = (c :: cs) ++ rest :=
      List.dropWhile_cons_of_neg (by simp [word c (List.mem_cons_self ..)])
    rw [firstWord, start, List.takeWhile_append_of_pos unspaced, stops, List.append_nil]
  rw [named, Bool.or_eq_true, decide_eq_true_eq] at h
  rcases h with rfl | more
  · simpa using begins [] rfl
  · obtain ⟨rest, rfl⟩ := List.isPrefixOf_iff_prefix.mp more
    rw [List.append_assoc]
    exact begins ([' '] ++ rest) rfl

/-- Letter case does not decide what is white space. -/
theorem isWhitespace_toUpper (c : Char) : isWhitespace c.toUpper = isWhitespace c := by
  have letter (d : Char) (low : 65 ≤ d.toNat) (high : d.toNat ≤ 122) : isWhitespace d = false := by
    simp only [isWhitespace, Bool.or_eq_false_iff, Bool.and_eq_false_iff, decide_eq_false_iff_not,
      List.mem_cons, List.not_mem_nil, or_false, not_or]
    omega
  by_cases lower : 'a'.val ≤ c.val ∧ c.val ≤ 'z'.val
  · have range : 97 ≤ c.toNat ∧ c.toNat ≤ 122 := lower
    have down : ('A'.val - 'a'.val).toNat = 2 ^ 32 - 32 := by decide
    have shifted : c.toUpper.val = c.val + ('A'.val - 'a'.val) := by
      unfold Char.toUpper
      rw [dif_pos lower]
    have value : c.toUpper.toNat = c.toNat - 32 := by
      simp only [Char.toNat, shifted, UInt32.toNat_add, down] at range ⊢
      omega
    rw [letter c (by omega) (by omega), letter c.toUpper (by omega) (by omega)]
  · have same : c.toUpper = c := dif_neg lower
    rw [same]

theorem firstWord_toAsciiUppercase (text : Line) :
    firstWord (toAsciiUppercase text) = (firstWord text).map toAsciiUppercase := by
  have same : isWhitespace ∘ Char.toUpper = isWhitespace := funext isWhitespace_toUpper
  have rest : (fun c => !isWhitespace c) ∘ Char.toUpper = fun c => !isWhitespace c :=
    funext fun c => congrArg not (isWhitespace_toUpper c)
  simp only [firstWord, toAsciiUppercase, List.dropWhile_map, List.takeWhile_map, same, rest]
  cases (text.dropWhile isWhitespace).takeWhile fun c => !isWhitespace c <;> rfl

/-- A status is found by the client as well. -/
theorem isTaggedOk_of_statusOk (h : underTag line (formatTag n) = some text)
    (ok : statusOk text = true) : isTaggedOk line (formatTag n) = true := by
  have plain : "OK".toList.all (fun c => !isWhitespace c) = true := by decide +kernel
  have unspaced : ∀ c ∈ "OK".toList, isWhitespace c = false := fun c mem => by
    simpa using List.all_eq_true.mp plain c mem
  have first := firstWord_of_named (by simp) unspaced ok
  rw [firstWord_toAsciiUppercase, Option.map_eq_some_iff] at first
  obtain ⟨status, found, upper⟩ := first
  rw [isTaggedOk, afterTag_formatTag, h]
  simp only [found, Option.any_some, eqIgnoreAsciiCase, upper]
  decide

end Client

end ResponseForms

import Mathlib.Data.List.Basic

/-!
# Quoted strings

Words over any alphabet, written between two marks, with an escape before each mark and each escape
inside. A quoted word is read back together with what follows it, so a sequence of quoted words
is read back as that sequence.
-/
namespace QuotedString
universe u
variable {α : Type u} [DecidableEq α] (mark escape separator : α)

/-- What stands between the marks. -/
def escaped (word : List α) : List α :=
  word.flatMap fun c => if c = escape ∨ c = mark then [escape, c] else [c]

def quote (word : List α) : List α := mark :: (escaped mark escape word ++ [mark])

/-- The rest of a quoted word, after its first mark. An escape stands only before a mark or another
escape. -/
def unescape : List α → Option (List α × List α)
  | [] => none
  | [c] => if c = mark then some ([], []) else none
  | c :: d :: rest =>
    if c = mark then some ([], d :: rest)
    else if c = escape then
      if d = escape ∨ d = mark then (unescape rest).map fun read => (d :: read.1, read.2) else none
    else (unescape (d :: rest)).map fun read => (c :: read.1, read.2)

/-- The quoted word at the head of the text, and what follows it. -/
def unquote : List α → Option (List α × List α)
  | [] => none
  | c :: rest => if c = mark then unescape mark escape rest else none

variable {mark escape separator}

@[simp] theorem unescape_mark (rest : List α) :
    unescape mark escape (mark :: rest) = some ([], rest) := by
  cases rest <;> simp [unescape]

theorem unescape_plain {c : α} (unmarked : c ≠ mark) (inner : c ≠ escape) (rest : List α) :
    unescape mark escape (c :: rest) =
      (unescape mark escape rest).map fun read => (c :: read.1, read.2) := by
  cases rest <;> simp [unescape, unmarked, inner]

theorem unescape_pair (distinct : escape ≠ mark) {d : α} (special : d = escape ∨ d = mark)
    (rest : List α) :
    unescape mark escape (escape :: d :: rest) =
      (unescape mark escape rest).map fun read => (d :: read.1, read.2) := by
  rw [unescape, if_neg distinct, if_pos rfl, if_pos special]

/-- Reading a word takes something of the text. -/
theorem unescape_length {text word rest : List α}
    (h : unescape mark escape text = some (word, rest)) : rest.length < text.length := by
  fun_induction unescape mark escape text generalizing word with
  | case1 | case3 | case6 => cases h
  | case2 | case4 =>
    cases h
    exact Nat.lt_succ_self _
  | case5 d tail _ _ ih =>
    obtain ⟨⟨inner, last⟩, read, same⟩ := Option.map_eq_some_iff.mp h
    cases same
    exact Nat.lt_succ_of_lt (Nat.lt_succ_of_lt (ih read))
  | case7 c d tail _ _ ih =>
    obtain ⟨⟨inner, last⟩, read, same⟩ := Option.map_eq_some_iff.mp h
    cases same
    exact Nat.lt_succ_of_lt (ih read)

theorem unquote_length {text word rest : List α}
    (h : unquote mark escape text = some (word, rest)) : rest.length < text.length := by
  cases text with
  | nil => cases h
  | cons c text =>
    rw [unquote] at h
    split at h
    · exact Nat.lt_succ_of_lt (unescape_length h)
    · cases h

variable (mark escape separator)

/-- Every word of a text of quoted words, each with a separator before it. -/
def unquoteAll (text : List α) : Option (List (List α)) :=
  match text with
  | [] => some []
  | c :: rest =>
    if c = separator then
      match _h : unquote mark escape rest with
      | none => none
      | some (word, left) => (unquoteAll left).map fun words => word :: words
    else none
termination_by text.length
decreasing_by
  have shorter := unquote_length _h
  simp only [List.length_cons]
  omega

/-- The words, quoted, with a separator before each. -/
def quoteAll (words : List (List α)) : List α :=
  words.flatMap fun word => separator :: quote mark escape word

variable {mark escape separator}

/-- What follows the last mark does not matter to the word. -/
theorem unescape_escaped (distinct : escape ≠ mark) (word rest : List α) :
    unescape mark escape (escaped mark escape word ++ mark :: rest) = some (word, rest) := by
  induction word with
  | nil => exact unescape_mark rest
  | cons c word ih =>
    by_cases special : c = escape ∨ c = mark
    · have head : escaped mark escape (c :: word) = escape :: c :: escaped mark escape word := by
        simp [escaped, special]
      rw [head, List.cons_append, List.cons_append, unescape_pair distinct special, ih,
        Option.map_some]
    · have head : escaped mark escape (c :: word) = c :: escaped mark escape word := by
        simp [escaped, special]
      obtain ⟨inner, unmarked⟩ := not_or.mp special
      rw [head, List.cons_append, unescape_plain unmarked inner, ih, Option.map_some]

theorem unquote_quote (distinct : escape ≠ mark) (word rest : List α) :
    unquote mark escape (quote mark escape word ++ rest) = some (word, rest) := by
  have text : quote mark escape word ++ rest =
      mark :: (escaped mark escape word ++ mark :: rest) := by
    simp [quote]
  rw [text, unquote, if_pos rfl, unescape_escaped distinct]

/-- A sequence of words is read back as it was. -/
theorem unquoteAll_quoteAll (distinct : escape ≠ mark) (words : List (List α)) :
    unquoteAll mark escape separator (quoteAll mark escape separator words) = some words := by
  induction words with
  | nil => simp [quoteAll, unquoteAll]
  | cons word words ih =>
    have text : quoteAll mark escape separator (word :: words) =
        separator :: (quote mark escape word ++ quoteAll mark escape separator words) := by
      simp [quoteAll]
    rw [text, unquoteAll, if_pos rfl]
    split
    · rename_i none
      rw [unquote_quote distinct] at none
      cases none
    · rename_i first left read
      rw [unquote_quote distinct] at read
      cases read
      rw [ih, Option.map_some]

/-- Quoting adds only the two marks and the escapes. -/
theorem mem_quote {word : List α} {c : α} (h : c ∈ quote mark escape word) :
    c = mark ∨ c = escape ∨ c ∈ word := by
  simp only [quote, escaped, List.mem_cons, List.mem_append, List.mem_flatMap, List.not_mem_nil,
    or_false] at h
  rcases h with first | ⟨d, inner, mem⟩ | last
  · exact Or.inl first
  · split at mem <;> simp only [List.mem_cons, List.not_mem_nil, or_false] at mem
    · rcases mem with rfl | rfl
      · exact Or.inr (Or.inl rfl)
      · exact Or.inr (Or.inr inner)
    · exact Or.inr (Or.inr (mem ▸ inner))
  · exact Or.inl last

end QuotedString

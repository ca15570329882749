import Mathlib.Algebra.Ring.Nat
import Mailwake.Framing

/-!
# Text out of bytes

`String::from_utf8_lossy` as a machine that reads one byte at a time: each maximal part of the
input that begins a character and is not one becomes one replacement character. What is UTF-8 is
read exactly. `str::lines` ends a line with a line feed, with or without a carriage return.
-/
namespace LossyText
open Framing

def replacement : Char := '\uFFFD'

/-- A character that has begun: its bits so far, how many bytes follow the next one, and the
range of the next one. -/
structure Pending where
  code : Nat
  more : Nat
  low : Nat
  high : Nat

/-- A byte where a character may begin. -/
def first (b : Nat) : List Char × Option Pending :=
  if b < 0x80 then ([Char.ofNat b], none)
  else if 0xC2 ≤ b ∧ b ≤ 0xDF then ([], some ⟨b - 0xC0, 0, 0x80, 0xBF⟩)
  else if b = 0xE0 then ([], some ⟨b - 0xE0, 1, 0xA0, 0xBF⟩)
  else if b = 0xED then ([], some ⟨b - 0xE0, 1, 0x80, 0x9F⟩)
  else if 0xE1 ≤ b ∧ b ≤ 0xEF then ([], some ⟨b - 0xE0, 1, 0x80, 0xBF⟩)
  else if b = 0xF0 then ([], some ⟨b - 0xF0, 2, 0x90, 0xBF⟩)
  else if b = 0xF4 then ([], some ⟨b - 0xF0, 2, 0x80, 0x8F⟩)
  else if 0xF1 ≤ b ∧ b ≤ 0xF3 then ([], some ⟨b - 0xF0, 2, 0x80, 0xBF⟩)
  else ([replacement], none)

def Pending.accepts (p : Pending) (b : Nat) : Bool := p.low ≤ b && b ≤ p.high

def decode : Option Pending → List UInt8 → List Char
  | none, [] => []
  | some _, [] => [replacement]
  | none, b :: rest => (first b.toNat).1 ++ decode (first b.toNat).2 rest
  | some p, b :: rest =>
    if p.accepts b.toNat then
      match p.more with
      | 0 => Char.ofNat (p.code * 64 + (b.toNat - 0x80)) :: decode none rest
      | more + 1 => decode (some ⟨p.code * 64 + (b.toNat - 0x80), more, 0x80, 0xBF⟩) rest
    else replacement :: (first b.toNat).1 ++ decode (first b.toNat).2 rest

def fromUtf8Lossy (bytes : List UInt8) : List Char := decode none bytes

section Utf8
variable {b : Nat} {rest : List UInt8}

theorem decode_begin (fits : b < 256) (rest : List UInt8) :
    decode none (UInt8.ofNat b :: rest) = (first b).1 ++ decode (first b).2 rest := by
  rw [decode, UInt8.toNat_ofNat_of_lt' fits]

/-- A byte in the middle of a character. -/
theorem decode_more {p : Pending} {more : Nat} (fits : b < 256) (owed : p.more = more + 1)
    (within : p.low ≤ b ∧ b ≤ p.high) (rest : List UInt8) :
    decode (some p) (UInt8.ofNat b :: rest) =
      decode (some ⟨p.code * 64 + (b - 0x80), more, 0x80, 0xBF⟩) rest := by
  simp only [decode, UInt8.toNat_ofNat_of_lt' fits, owed, Pending.accepts, within, decide_true,
    Bool.and_self, if_true]

/-- The last byte of a character. -/
theorem decode_last {p : Pending} (fits : b < 256) (owed : p.more = 0)
    (within : p.low ≤ b ∧ b ≤ p.high) (rest : List UInt8) :
    decode (some p) (UInt8.ofNat b :: rest) =
      Char.ofNat (p.code * 64 + (b - 0x80)) :: decode none rest := by
  simp only [decode, UInt8.toNat_ofNat_of_lt' fits, owed, Pending.accepts, within, decide_true,
    Bool.and_self, if_true]

theorem first_two (range : 0xC2 ≤ b ∧ b ≤ 0xDF) :
    first b = ([], some ⟨b - 0xC0, 0, 0x80, 0xBF⟩) := by
  rw [first, if_neg (by omega), if_pos range]

/-- The first byte of three, with the range it leaves to the second. -/
theorem first_three (range : 0xE0 ≤ b ∧ b ≤ 0xEF) : ∃ low high,
    first b = ([], some ⟨b - 0xE0, 1, low, high⟩) ∧
      ∀ c, 0x80 ≤ c → c ≤ 0xBF → (b = 0xE0 → 0xA0 ≤ c) → (b = 0xED → c ≤ 0x9F) →
        low ≤ c ∧ c ≤ high := by
  unfold first
  rw [if_neg (by omega), if_neg (by omega)]
  by_cases e0 : b = 0xE0
  · exact ⟨_, _, by rw [if_pos e0], fun c _ high low _ => ⟨low e0, high⟩⟩
  rw [if_neg e0]
  by_cases ed : b = 0xED
  · exact ⟨_, _, by rw [if_pos ed], fun c low _ _ high => ⟨low, high ed⟩⟩
  · rw [if_neg ed, if_pos ⟨by omega, by omega⟩]
    exact ⟨_, _, rfl, fun c low high _ _ => ⟨low, high⟩⟩

/-- The first byte of four, with the range it leaves to the second. -/
theorem first_four (range : 0xF0 ≤ b ∧ b ≤ 0xF4) : ∃ low high,
    first b = ([], some ⟨b - 0xF0, 2, low, high⟩) ∧
      ∀ c, 0x80 ≤ c → c ≤ 0xBF → (b = 0xF0 → 0x90 ≤ c) → (b = 0xF4 → c ≤ 0x8F) →
        low ≤ c ∧ c ≤ high := by
  unfold first
  rw [if_neg (by omega), if_neg (by omega), if_neg (by omega), if_neg (by omega),
    if_neg (by omega)]
  by_cases f0 : b = 0xF0
  · exact ⟨_, _, by rw [if_pos f0], fun c _ high low _ => ⟨low f0, high⟩⟩
  rw [if_neg f0]
  by_cases f4 : b = 0xF4
  · exact ⟨_, _, by rw [if_pos f4], fun c low _ _ high => ⟨low, high f4⟩⟩
  · rw [if_neg f4, if_pos ⟨by omega, by omega⟩]
    exact ⟨_, _, rfl, fun c low high _ _ => ⟨low, high⟩⟩

/-- The encoding of a character is read as that character. -/
theorem decode_utf8EncodeChar (c : Char) (rest : List UInt8) :
    decode none (String.utf8EncodeChar c ++ rest) = c :: decode none rest := by
  have same : Char.ofNat c.toNat = c := Char.ofNat_toNat c
  have valid : c.toNat < 0xD800 ∨ 0xDFFF < c.toNat ∧ c.toNat < 0x110000 := c.valid
  have value : c.val.toNat = c.toNat := rfl
  generalize c.toNat = v at same valid value
  unfold String.utf8EncodeChar
  simp only [value]
  split
  · rename_i one
    rw [List.cons_append, List.nil_append, decode_begin (by omega), first, if_pos (by omega), same]
    rfl
  split
  · have lead : v / 64 % 0x20 = v / 64 := Nat.mod_eq_of_lt (by omega)
    rw [List.cons_append, List.cons_append, List.nil_append, decode_begin (by omega),
      first_two (by omega), List.nil_append, decode_last (by omega) rfl (by dsimp only; omega)]
    have code : (v / 64 % 0x20 + 0xc0 - 0xC0) * 64 + (v % 0x40 + 0x80 - 0x80) = v := by omega
    rw [code, same]
  split
  · have lead : v / 4096 % 0x10 = v / 4096 := Nat.mod_eq_of_lt (by omega)
    obtain ⟨low, high, begins, range⟩ := first_three (b := v / 4096 % 0x10 + 0xe0) (by omega)
    have second := range (v / 64 % 0x40 + 0x80) (by omega) (by omega) (by omega) (by omega)
    rw [List.cons_append, List.cons_append, List.cons_append, List.nil_append,
      decode_begin (by omega), begins, List.nil_append, decode_more (by omega) rfl second,
      decode_last (by omega) rfl (by dsimp only; omega)]
    have code : ((v / 4096 % 0x10 + 0xe0 - 0xE0) * 64 + (v / 64 % 0x40 + 0x80 - 0x80)) * 64 +
        (v % 0x40 + 0x80 - 0x80) = v := by omega
    rw [code, same]
  · have lead : v / 262144 % 0x08 = v / 262144 := Nat.mod_eq_of_lt (by omega)
    obtain ⟨low, high, begins, range⟩ := first_four (b := v / 262144 % 0x08 + 0xf0) (by omega)
    have second := range (v / 4096 % 0x40 + 0x80) (by omega) (by omega) (by omega) (by omega)
    rw [List.cons_append, List.cons_append, List.cons_append, List.cons_append, List.nil_append,
      decode_begin (by omega), begins, List.nil_append, decode_more (by omega) rfl second,
      decode_more (by omega) rfl (by dsimp only; omega),
      decode_last (by omega) rfl (by dsimp only; omega)]
    have code : (((v / 262144 % 0x08 + 0xf0 - 0xF0) * 64 + (v / 4096 % 0x40 + 0x80 - 0x80)) * 64 +
        (v / 64 % 0x40 + 0x80 - 0x80)) * 64 + (v % 0x40 + 0x80 - 0x80) = v := by omega
    rw [code, same]

/-- What is UTF-8 is read exactly. -/
theorem fromUtf8Lossy_utf8 (text : List Char) :
    fromUtf8Lossy (text.flatMap String.utf8EncodeChar) = text := by
  induction text with
  | nil => rfl
  | cons c rest ih =>
    rw [fromUtf8Lossy, List.flatMap_cons, decode_utf8EncodeChar]
    exact congrArg (c :: ·) ih

end Utf8

theorem decode_pending_ne_nil (p : Pending) (bytes : List UInt8) : decode (some p) bytes ≠ [] := by
  induction bytes generalizing p with
  | nil => exact List.cons_ne_nil _ _
  | cons b rest ih =>
    rw [decode]
    split
    · split
      · exact List.cons_ne_nil _ _
      · exact ih _
    · exact List.cons_ne_nil _ _

/-- Every byte is part of some character. -/
theorem fromUtf8Lossy_ne_nil {bytes : List UInt8} (some : bytes ≠ []) :
    fromUtf8Lossy bytes ≠ [] := by
  obtain ⟨b, rest, rfl⟩ := List.exists_cons_of_ne_nil some
  rw [fromUtf8Lossy, decode]
  unfold first
  repeat' split
  all_goals first | exact List.cons_ne_nil _ _ | exact decode_pending_ne_nil _ rest

section Lines

def isNewline (c : Char) : Bool := c = '\n'

/-- A line without its ending. -/
def strip (piece : List Char) : List Char :=
  if piece.getLast? = some '\n' then
    if piece.dropLast.getLast? = some '\r' then piece.dropLast.dropLast else piece.dropLast
  else piece

/-- `str::lines`. -/
def lines (text : List Char) : List (List Char) := (splitInclusive isNewline text).map strip

/-- `join("\n")`. -/
def join : List (List Char) → List Char
  | [] => []
  | [line] => line
  | line :: next :: rest => line ++ '\n' :: join (next :: rest)

theorem strip_open {piece : List Char} (h : Open isNewline piece) : strip piece = piece := by
  rw [strip, if_neg]
  intro ended
  have mem := List.mem_of_getLast? ended
  exact absurd (h _ mem) (by decide)

theorem strip_complete (body : List Char) :
    strip (body ++ ['\n']) =
      if body.getLast? = some '\r' then body.dropLast else body := by
  rw [strip, if_pos (List.getLast?_concat ..), List.dropLast_concat]

theorem newline_not_mem {piece : List Char} (h : Open isNewline piece) : '\n' ∉ piece :=
  fun mem => absurd (h _ mem) (by decide)

/-- No line holds a line feed. -/
theorem newline_not_mem_strip {pieces : List (List Char)} (h : Pieces isNewline pieces) :
    ∀ line ∈ pieces.map strip, '\n' ∉ line := by
  induction h with
  | nil => simp
  | opened _ still =>
    rw [List.map_singleton, strip_open still]
    simpa using newline_not_mem still
  | cons complete _ ih =>
    obtain ⟨body, a, rfl, ended, still⟩ := complete.split
    obtain rfl : a = '\n' := by simpa [isNewline] using ended
    rw [List.map_cons, List.forall_mem_cons, strip_complete]
    refine ⟨?_, ih⟩
    split
    · exact fun mem => newline_not_mem still (List.mem_of_mem_dropLast mem)
    · exact newline_not_mem still

theorem count_join {lines : List (List Char)} (plain : ∀ line ∈ lines, '\n' ∉ line)
    (some : lines ≠ []) : (join lines).count '\n' + 1 = lines.length := by
  induction lines with
  | nil => exact absurd rfl some
  | cons line rest ih =>
    rw [List.forall_mem_cons] at plain
    have none := List.count_eq_zero.mpr plain.1
    cases rest with
    | nil => simp [join, none]
    | cons next others =>
      have later := ih plain.2 (List.cons_ne_nil _ _)
      rw [join, List.count_append, List.count_cons_self, none, List.length_cons, ← later]
      omega

/-- Without carriage returns the lines put together are the text, but for its last line feed. -/
theorem join_strip {pieces : List (List Char)} (h : Pieces isNewline pieces)
    (plain : '\r' ∉ pieces.flatten) :
    pieces.flatten = join (pieces.map strip) ∨
      pieces.flatten = join (pieces.map strip) ++ ['\n'] := by
  induction h with
  | nil => exact Or.inl rfl
  | opened _ still => exact Or.inl (by simp [join, strip_open still])
  | @cons piece rest complete _ ih =>
    obtain ⟨body, a, rfl, ended, still⟩ := complete.split
    obtain rfl : a = '\n' := by simpa [isNewline] using ended
    simp only [List.flatten_cons, List.mem_append, not_or] at plain
    have bare : strip (body ++ ['\n']) = body := by
      rw [strip_complete, if_neg]
      exact fun ended => plain.1.1 (List.mem_of_getLast? ended)
    cases rest with
    | nil => exact Or.inr (by simp [join, bare])
    | cons next others =>
      rw [List.flatten_cons, List.map_cons, bare, List.map_cons, join, ← List.map_cons]
      rcases ih plain.2 with same | same
      · exact Or.inl (by rw [same]; simp)
      · exact Or.inr (by rw [same]; simp)

/-- `text().lines().rev().take(max)`, put back in order. -/
def lastLines (max : Nat) (text : List Char) : List (List Char) :=
  ((lines text).reverse.take max).reverse

/-- What the last lines of a text are, joined. -/
structure Tail (max : Nat) (text tail : List Char) : Prop where
  last : ∃ before shown, lines text = before ++ shown ∧
    shown.length = min max (lines text).length ∧ tail = join shown
  few : tail.count '\n' < max
  ending : '\r' ∉ text → ∃ before, text = before ++ tail ∨ text = before ++ tail ++ ['\n']

theorem tail_lastLines {max : Nat} {text : List Char} (positive : 0 < max) (some : text ≠ []) :
    lastLines max text ≠ [] ∧ Tail max text (join (lastLines max text)) := by
  have pieces : Pieces isNewline (splitInclusive isNewline text) := pieces_splitInclusive text
  have whole : (splitInclusive isNewline text).flatten = text := flatten_splitInclusive text
  generalize hp : splitInclusive isNewline text = all at pieces whole
  have nonempty : all ≠ [] := by
    rintro rfl
    exact some whole.symm
  have cut : lastLines max text = (all.drop (all.length - max)).map strip := by
    rw [lastLines, lines, hp, ← List.map_reverse, ← List.map_take, ← List.map_reverse,
      List.take_reverse, List.reverse_reverse]
  have split : all = all.take (all.length - max) ++ all.drop (all.length - max) :=
    (List.take_append_drop ..).symm
  have later : Pieces isNewline (all.drop (all.length - max)) := (split ▸ pieces).suffix
  have length : (all.drop (all.length - max)).length = min max all.length := by
    rw [List.length_drop]
    omega
  have positiveLength := List.length_pos_iff.mpr nonempty
  have shown : all.drop (all.length - max) ≠ [] := by
    rw [← List.length_pos_iff, length]
    omega
  rw [cut]
  refine ⟨by simpa using shown, ?_, ?_, ?_⟩
  · refine ⟨(all.take (all.length - max)).map strip, _, ?_, ?_, rfl⟩
    · rw [lines, hp, ← List.map_append, List.take_append_drop]
    · rw [List.length_map, lines, hp, List.length_map, length]
  · have lineCount := count_join (newline_not_mem_strip later) (by simpa using shown)
    rw [List.length_map, length] at lineCount
    omega
  · intro plain
    have parts : text =
        (all.take (all.length - max)).flatten ++ (all.drop (all.length - max)).flatten := by
      rw [← List.flatten_append, List.take_append_drop, whole]
    have plainEnd : '\r' ∉ (all.drop (all.length - max)).flatten := by
      intro mem
      rw [parts] at plain
      exact plain (List.mem_append_right _ mem)
    refine ⟨(all.take (all.length - max)).flatten, ?_⟩
    rcases join_strip later plainEnd with same | same
    · exact Or.inl (by rw [← same, ← parts])
    · exact Or.inr (by rw [List.append_assoc, ← same, ← parts])

end Lines

end LossyText

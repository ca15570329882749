import Mathlib.Data.List.Infix

/-!
# Lines and columns

A place in a text is the text before it; its position is the line it is on and how far along
that line it is, both counted from zero. A position is read back by following the lines.
-/
namespace TextPosition
universe u
variable {α : Type u} [DecidableEq α] (newline : α)

structure Position where
  line : Nat
  column : Nat
  deriving DecidableEq

def Position.start : Position := ⟨0, 0⟩

def advance (position : Position) (x : α) : Position :=
  if x = newline then ⟨position.line + 1, 0⟩ else ⟨position.line, position.column + 1⟩

def position (before : List α) : Position := before.foldl (advance newline) .start

/-- The text before a position. -/
def seek (column : Nat) : Nat → List α → List α
  | 0, text => text.take column
  | _ + 1, [] => []
  | line + 1, x :: rest =>
    x :: if x = newline then seek column line rest else seek column (line + 1) rest

variable {newline}

@[simp] theorem position_nil : position newline ([] : List α) = .start := rfl

theorem position_concat (before : List α) (x : α) :
    position newline (before ++ [x]) = advance newline (position newline before) x := by
  simp [position]

theorem line_advance_le (p : Position) (x : α) : p.line ≤ (advance newline p x).line := by
  rw [advance]
  split
  · exact Nat.le_succ _
  · exact Nat.le_refl _

theorem line_foldl_le (text : List α) (p : Position) :
    p.line ≤ (text.foldl (advance newline) p).line := by
  induction text generalizing p with
  | nil => exact Nat.le_refl _
  | cons x rest ih => exact (line_advance_le p x).trans (ih _)

/-- Within its line the text runs on for as many places as the column counts. -/
theorem column_foldl (text : List α) (p : Position)
    (same : (text.foldl (advance newline) p).line = p.line) :
    (text.foldl (advance newline) p).column = p.column + text.length := by
  induction text generalizing p with
  | nil => rfl
  | cons x rest ih =>
    rw [List.foldl_cons] at same ⊢
    by_cases broken : x = newline
    · rw [advance, if_pos broken] at same
      have later : p.line + 1 ≤ (rest.foldl (advance newline) ⟨p.line + 1, 0⟩).line :=
        line_foldl_le rest ⟨p.line + 1, 0⟩
      omega
    · rw [advance, if_neg broken] at same ⊢
      rw [ih ⟨p.line, p.column + 1⟩ same, List.length_cons]
      dsimp only
      omega

/-- From the first column of the last line on, the column is all that counts. -/
theorem seek_line (before rest : List α) (p : Position) (first : p.column = 0)
    (same : (before.foldl (advance newline) p).line = p.line) :
    seek newline (before.foldl (advance newline) p).column 0 (before ++ rest) = before := by
  rw [column_foldl before p same, first, Nat.zero_add, seek]
  exact List.take_left

theorem seek_later (before rest : List α) (p : Position)
    (later : p.line < (before.foldl (advance newline) p).line) :
    seek newline (before.foldl (advance newline) p).column
      ((before.foldl (advance newline) p).line - p.line) (before ++ rest) = before := by
  induction before generalizing p with
  | nil => exact absurd later (Nat.lt_irrefl _)
  | cons x before ih =>
    obtain ⟨more, lines⟩ : ∃ more, ((x :: before).foldl (advance newline) p).line - p.line =
        more + 1 := Nat.exists_eq_succ_of_ne_zero (by omega)
    rw [lines, List.cons_append, seek]
    congr 1
    rw [List.foldl_cons] at later lines ⊢
    by_cases broken : x = newline
    · rw [advance, if_pos broken] at later lines ⊢
      rw [if_pos broken]
      have below : p.line + 1 ≤ (before.foldl (advance newline) ⟨p.line + 1, 0⟩).line :=
        line_foldl_le before ⟨p.line + 1, 0⟩
      rcases Nat.eq_or_lt_of_le below with same | further
      · obtain rfl : more = 0 := by omega
        exact seek_line before rest ⟨p.line + 1, 0⟩ rfl same.symm
      · have step := ih ⟨p.line + 1, 0⟩ further
        have fewer : more =
            (before.foldl (advance newline) ⟨p.line + 1, 0⟩).line - (p.line + 1) := by omega
        rwa [fewer]
    · rw [advance, if_neg broken] at later lines ⊢
      rw [if_neg broken, ← lines]
      exact ih ⟨p.line, p.column + 1⟩ later

/-- A position is read back. -/
theorem seek_position (before rest : List α) :
    seek newline (position newline before).column (position newline before).line
      (before ++ rest) = before := by
  rcases Nat.eq_zero_or_pos (position newline before).line with first | later
  · rw [first]
    exact seek_line before rest .start rfl first
  · exact seek_later before rest .start later

end TextPosition

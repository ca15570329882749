import Mathlib.Data.List.Basic

/-!
# Lists of assignments as text

Lines at one mark, each of which is split at the first occurrence of another: the shape of an
environment block, or of a message to a service manager.
-/
namespace Assignments
universe u
variable {α : Type u} [BEq α] [LawfulBEq α]

/-- A key and its value. -/
abbrev Assignment (α : Type u) := List α × List α

def line (sign : α) (assignment : Assignment α) : List α :=
  assignment.1 ++ sign :: assignment.2

/-- Split at the first sign; without one the whole line is the key. -/
def ofLine (sign : α) (text : List α) : Assignment α :=
  (text.takeWhile (· != sign), (text.dropWhile (· != sign)).tail)

def render (newline sign : α) (assignments : List (Assignment α)) : List α :=
  [newline].intercalate (assignments.map (line sign))

def read (newline sign : α) (text : List α) : List (Assignment α) :=
  (text.splitOn newline).map (ofLine sign)

/-- The text can stand on a line of its own, and the key ends where it should. -/
structure Clean (newline sign : α) (assignment : Assignment α) : Prop where
  key : newline ∉ assignment.1
  sign : sign ∉ assignment.1
  value : newline ∉ assignment.2

omit [BEq α] [LawfulBEq α] in
/-- The lines after the first one bring their mark along. -/
theorem render_cons (newline sign : α) (first : Assignment α) (rest : List (Assignment α)) :
    render newline sign (first :: rest) =
      line sign first ++ rest.flatMap fun assignment => newline :: line sign assignment := by
  induction rest generalizing first with
  | nil => simp [render]
  | cons second rest ih =>
    have later := ih second
    rw [render, List.map_cons] at later
    rw [render, List.map_cons, List.map_cons, List.intercalate_cons_cons, later, List.flatMap_cons]
    simp

theorem ofLine_line {sign : α} {assignment : Assignment α} (clean : sign ∉ assignment.1) :
    ofLine sign (line sign assignment) = assignment := by
  have before : ∀ x ∈ assignment.1, (x != sign) = true := by
    intro x hx
    have differs : x ≠ sign := fun same => clean (same ▸ hx)
    simpa using differs
  rw [ofLine, line, List.takeWhile_append_of_pos before, List.dropWhile_append_of_pos before]
  simp

/-- Clean assignments are read as they were written. -/
theorem read_render {newline sign : α} (distinct : newline ≠ sign)
    {assignments : List (Assignment α)} (given : assignments ≠ [])
    (clean : ∀ assignment ∈ assignments, Clean newline sign assignment) :
    read newline sign (render newline sign assignments) = assignments := by
  have single : ∀ l ∈ assignments.map (line sign), newline ∉ l := by
    intro l hl
    obtain ⟨assignment, mem, rfl⟩ := List.mem_map.mp hl
    obtain ⟨key, -, value⟩ := clean assignment mem
    simp [line, key, value, distinct]
  rw [read, render, List.splitOn_intercalate newline single (by simpa using given), List.map_map]
  have same : ∀ assignment ∈ assignments, (ofLine sign ∘ line sign) assignment = assignment :=
    fun assignment mem => ofLine_line (clean assignment mem).sign
  rw [List.map_congr_left same, List.map_id']

end Assignments

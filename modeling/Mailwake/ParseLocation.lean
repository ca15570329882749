import Mailwake.TextPosition

/-!
# Where a configuration does not parse

`line_column`, which turns the byte a parse error begins at into a line and a column.
-/
namespace ParseLocation
open TextPosition

/-- The loop of `line_column`, from the byte `index` on. -/
def lineColumnFrom (byteIndex : Nat) : Nat → Nat → Nat → List Char → Nat × Nat
  | _, line, column, [] => (line, column)
  | index, line, column, ch :: rest =>
    if byteIndex ≤ index then (line, column)
    else if ch = '\n' then lineColumnFrom byteIndex (index + ch.utf8Size) (line + 1) 1 rest
    else lineColumnFrom byteIndex (index + ch.utf8Size) line (column + 1) rest

def lineColumn (contents : String) (byteIndex : Nat) : Nat × Nat :=
  lineColumnFrom byteIndex 0 1 1 contents.toList

def display : Option (Nat × Nat) → String
  | some (line, column) => " at line " ++ toString line ++ ", column " ++ toString column
  | none => ""

def byteLength : List Char → Nat
  | [] => 0
  | ch :: rest => ch.utf8Size + byteLength rest

@[simp] theorem byteLength_append (a b : List Char) :
    byteLength (a ++ b) = byteLength a + byteLength b := by
  induction a with
  | nil => rw [List.nil_append, byteLength, Nat.zero_add]
  | cons ch a ih => rw [List.cons_append, byteLength, byteLength, ih, Nat.add_assoc]

@[simp] theorem byteLength_singleton (ch : Char) : byteLength [ch] = ch.utf8Size := rfl

/-- The text before the first character that does not begin before the byte. -/
structure Place (text : List Char) (byteIndex : Nat) (before : List Char) : Prop where
  inText : before <+: text
  begins : ∀ shorter ch, shorter ++ [ch] <+: before → byteLength shorter < byteIndex
  reaches : before = text ∨ byteIndex ≤ byteLength before

variable {text before other : List Char} {byteIndex : Nat}

/-- A shorter place does not reach what the longer one begins before. -/
theorem Place.not_shorter {ch : Char} {more : List Char} (place : Place text byteIndex before)
    (longer : Place text byteIndex other) (split : other = before ++ ch :: more) : False := by
  have begun : byteLength before < byteIndex := by
    refine longer.begins before ch ?_
    exact ⟨more, by rw [split, List.append_assoc, List.singleton_append]⟩
  rcases place.reaches with whole | reached
  · have long := longer.inText.length_le
    rw [split, whole, List.length_append, List.length_cons] at long
    omega
  · omega

theorem Place.unique (place : Place text byteIndex before) (another : Place text byteIndex other) :
    before = other := by
  rcases List.prefix_or_prefix_of_prefix place.inText another.inText with
    ⟨more, rest⟩ | ⟨more, rest⟩
  · cases more with
    | nil => simpa using rest
    | cons ch more => exact (place.not_shorter another rest.symm).elim
  · cases more with
    | nil => simpa using rest.symm
    | cons ch more => exact (another.not_shorter place rest.symm).elim

/-- Between two characters the place is what stands before. -/
theorem place_boundary (inText : before <+: text) : Place text (byteLength before) before := by
  refine ⟨inText, ?_, Or.inr (Nat.le_refl _)⟩
  rintro shorter ch ⟨more, rfl⟩
  have size := ch.utf8Size_pos
  simp only [byteLength_append, byteLength_singleton]
  omega

/-- The loop goes on from the position of what it has passed to the position of the place. -/
theorem lineColumnFrom_place (byteIndex : Nat) (done rest : List Char)
    (begun : ∀ shorter ch, shorter ++ [ch] <+: done → byteLength shorter < byteIndex) :
    ∃ before, Place (done ++ rest) byteIndex before ∧
      lineColumnFrom byteIndex (byteLength done) ((position '\n' done).line + 1)
          ((position '\n' done).column + 1) rest =
        ((position '\n' before).line + 1, (position '\n' before).column + 1) := by
  induction rest generalizing done with
  | nil =>
    refine ⟨done, ⟨?_, begun, Or.inl (by simp)⟩, rfl⟩
    exact List.prefix_append _ _
  | cons ch rest ih =>
    rw [lineColumnFrom]
    by_cases reached : byteIndex ≤ byteLength done
    · rw [if_pos reached]
      exact ⟨done, ⟨List.prefix_append _ _, begun, Or.inr reached⟩, rfl⟩
    · have later : ∀ shorter x, shorter ++ [x] <+: done ++ [ch] →
          byteLength shorter < byteIndex := by
        intro shorter x inside
        rcases List.prefix_concat_iff.mp inside with same | inside
        · obtain ⟨rfl, -⟩ := List.append_inj' same rfl
          omega
        · exact begun shorter x inside
      obtain ⟨before, place, located⟩ := ih (done ++ [ch]) later
      refine ⟨before, by simpa using place, ?_⟩
      rw [if_neg reached, ← located, position_concat, byteLength_append, byteLength_singleton]
      by_cases broken : ch = '\n'
      · rw [if_pos broken, advance, if_pos broken]
      · rw [if_neg broken, advance, if_neg broken]

/-- What stands before the reported line and column. -/
def located (contents : String) (byteIndex : Nat) : List Char :=
  seek '\n' ((lineColumn contents byteIndex).2 - 1) ((lineColumn contents byteIndex).1 - 1)
    contents.toList

theorem located_place (contents : String) (byteIndex : Nat) :
    Place contents.toList byteIndex (located contents byteIndex) := by
  obtain ⟨found, place, located_at⟩ := lineColumnFrom_place byteIndex [] contents.toList (by simp)
  obtain ⟨rest, split⟩ := place.inText
  have here : lineColumn contents byteIndex =
      ((position '\n' found).line + 1, (position '\n' found).column + 1) := located_at
  have read : located contents byteIndex = found := by
    rw [located, here, ← show found ++ rest = contents.toList from split]
    exact seek_position found rest
  rw [read]
  exact place

end ParseLocation

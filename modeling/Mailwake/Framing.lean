import Mathlib.Data.List.Basic
import Mathlib.Data.List.Infix

/-!
# A stream split after each terminator

`splitInclusive` cuts a stream behind every terminator; what follows the last one is a
piece of its own. `cut` takes the first piece off, if the stream holds a terminator.
-/
namespace Framing
universe u
variable {α : Type u} (isEnd : α → Bool)

/-- The pieces of a stream, each with its terminator. -/
def splitInclusive : List α → List (List α)
  | [] => []
  | a :: rest =>
    if isEnd a then [a] :: splitInclusive rest
    else
      match splitInclusive rest with
      | [] => [[a]]
      | piece :: pieces => (a :: piece) :: pieces

/-- The first piece that ends, and the rest of the stream. -/
def cut : List α → Option (List α × List α)
  | [] => none
  | a :: rest =>
    if isEnd a then some ([a], rest)
    else (cut rest).map fun p => (a :: p.1, p.2)

/-- No terminator is among the items. -/
def Open (l : List α) : Prop := ∀ a ∈ l, isEnd a = false

/-- Exactly one terminator, at the end. -/
inductive Complete : List α → Prop where
  | ended {a : α} : isEnd a = true → Complete [a]
  | cons {a : α} {rest : List α} : isEnd a = false → Complete rest → Complete (a :: rest)

variable {isEnd}

/-- A complete piece at the head of the stream is its first piece. -/
theorem splitInclusive_append {piece : List α} (complete : Complete isEnd piece) (l : List α) :
    splitInclusive isEnd (piece ++ l) = piece :: splitInclusive isEnd l := by
  induction complete with
  | ended ha => simp only [List.singleton_append, splitInclusive, if_pos ha]
  | cons ha _ ih =>
    simp only [List.cons_append, splitInclusive, ih]
    rw [if_neg (by rw [ha]; exact Bool.false_ne_true)]

theorem splitInclusive_flatten_append {pieces : List (List α)}
    (complete : ∀ piece ∈ pieces, Complete isEnd piece) (l : List α) :
    splitInclusive isEnd (pieces.flatten ++ l) = pieces ++ splitInclusive isEnd l := by
  induction pieces with
  | nil => rfl
  | cons piece pieces ih =>
    have first := complete piece (List.mem_cons_self ..)
    have others : ∀ p ∈ pieces, Complete isEnd p :=
      fun p hp => complete p (List.mem_cons_of_mem _ hp)
    rw [List.flatten_cons, List.append_assoc, splitInclusive_append first, ih others,
      List.cons_append]

/-- Complete pieces are the first pieces of every stream they begin. -/
theorem prefix_splitInclusive {pieces : List (List α)}
    (complete : ∀ piece ∈ pieces, Complete isEnd piece) (l : List α) :
    pieces <+: splitInclusive isEnd (pieces.flatten ++ l) := by
  rw [splitInclusive_flatten_append complete]
  exact List.prefix_append ..

theorem splitInclusive_of_open {l : List α} (nonempty : l ≠ []) (h : Open isEnd l) :
    splitInclusive isEnd l = [l] := by
  induction l with
  | nil => exact absurd rfl nonempty
  | cons a rest ih =>
    have ha : ¬ isEnd a = true := by
      rw [h a (List.mem_cons_self ..)]
      exact Bool.false_ne_true
    have openRest : Open isEnd rest := fun b hb => h b (List.mem_cons_of_mem _ hb)
    rw [splitInclusive, if_neg ha]
    cases rest with
    | nil => rfl
    | cons b rest => rw [ih (by simp) openRest]

/-- Complete pieces and one unterminated piece are all the pieces of what they hold. -/
theorem splitInclusive_flatten_concat {pieces : List (List α)} {last : List α}
    (complete : ∀ piece ∈ pieces, Complete isEnd piece) (nonempty : last ≠ [])
    (h : Open isEnd last) : splitInclusive isEnd (pieces ++ [last]).flatten = pieces ++ [last] := by
  rw [List.flatten_append, List.flatten_singleton, splitInclusive_flatten_append complete,
    splitInclusive_of_open nonempty h]

theorem Complete.prepend {l piece : List α} (h : Open isEnd l) (complete : Complete isEnd piece) :
    Complete isEnd (l ++ piece) := by
  induction l with
  | nil => exact complete
  | cons a rest ih =>
    refine .cons (h a (List.mem_cons_self ..)) (ih ?_)
    intro b hb
    exact h b (List.mem_cons_of_mem _ hb)

theorem Complete.not_open {piece : List α} (complete : Complete isEnd piece) :
    ¬ Open isEnd piece := by
  intro h
  induction complete with
  | ended ha =>
    rw [h _ (List.mem_singleton.mpr rfl)] at ha
    cases ha
  | cons _ _ ih => exact ih fun b hb => h b (List.mem_cons_of_mem _ hb)

theorem Open.append {l m : List α} (hl : Open isEnd l) (hm : Open isEnd m) :
    Open isEnd (l ++ m) := by
  intro a ha
  rcases List.mem_append.mp ha with ha | ha
  · exact hl a ha
  · exact hm a ha

theorem cut_eq_some {l piece rest : List α} (h : cut isEnd l = some (piece, rest)) :
    l = piece ++ rest ∧ Complete isEnd piece := by
  induction l generalizing piece with
  | nil => cases h
  | cons a tail ih =>
    rw [cut] at h
    split at h
    · rename_i ha
      obtain ⟨rfl, rfl⟩ : [a] = piece ∧ tail = rest := by simpa using h
      exact ⟨rfl, .ended ha⟩
    · rename_i ha
      obtain ⟨⟨first, others⟩, hc, he⟩ := Option.map_eq_some_iff.mp h
      obtain ⟨rfl, rfl⟩ := Prod.mk.inj he
      obtain ⟨rfl, complete⟩ := ih hc
      exact ⟨rfl, .cons (Bool.not_eq_true _ |>.mp ha) complete⟩

theorem cut_eq_none {l : List α} (h : cut isEnd l = none) : Open isEnd l := by
  induction l with
  | nil => simp [Open]
  | cons a rest ih =>
    rw [cut] at h
    split at h
    · cases h
    · rename_i ha
      have openRest := ih (Option.map_eq_none_iff.mp h)
      intro b hb
      rcases List.mem_cons.mp hb with rfl | hb
      · exact Bool.not_eq_true _ |>.mp ha
      · exact openRest b hb

theorem cut_of_open {l : List α} (h : Open isEnd l) : cut isEnd l = none := by
  induction l with
  | nil => rfl
  | cons a rest ih =>
    have ha : ¬ isEnd a = true := by
      rw [h a (List.mem_cons_self ..)]
      exact Bool.false_ne_true
    rw [cut, if_neg ha, ih fun b hb => h b (List.mem_cons_of_mem _ hb), Option.map_none]

/-- What follows a terminator does not change the piece it ends. -/
theorem cut_append {l piece rest : List α} (h : cut isEnd l = some (piece, rest)) (m : List α) :
    cut isEnd (l ++ m) = some (piece, rest ++ m) := by
  induction l generalizing piece with
  | nil => cases h
  | cons a tail ih =>
    rw [cut] at h
    rw [List.cons_append, cut]
    by_cases ha : isEnd a = true
    · rw [if_pos ha] at h ⊢
      obtain ⟨rfl, rfl⟩ : [a] = piece ∧ tail = rest := by simpa using h
      rfl
    · rw [if_neg ha] at h ⊢
      obtain ⟨⟨first, others⟩, hc, he⟩ := Option.map_eq_some_iff.mp h
      obtain ⟨rfl, rfl⟩ := Prod.mk.inj he
      rw [ih hc, Option.map_some]

/-- As much of the stream as holds the first piece is enough to cut it. -/
theorem cut_take {l piece rest : List α} {n : Nat} (h : cut isEnd l = some (piece, rest))
    (fits : piece.length ≤ n) : ∃ after, cut isEnd (l.take n) = some (piece, after) := by
  cases hc : cut isEnd (l.take n) with
  | none =>
    have openPrefix := cut_eq_none hc
    obtain ⟨rfl, complete⟩ := cut_eq_some h
    rw [List.take_append, List.take_of_length_le fits] at openPrefix
    exact absurd (fun a ha => openPrefix a (List.mem_append_left _ ha)) complete.not_open
  | some next =>
    obtain ⟨first, after⟩ := next
    have whole := cut_append hc (l.drop n)
    rw [List.take_append_drop, h] at whole
    obtain ⟨rfl, -⟩ := Prod.mk.inj (Option.some.inj whole)
    exact ⟨after, rfl⟩

theorem flatten_splitInclusive (l : List α) : (splitInclusive isEnd l).flatten = l := by
  induction l with
  | nil => rfl
  | cons a rest ih =>
    rw [splitInclusive]
    split
    · rw [List.flatten_cons, ih, List.singleton_append]
    · split
      · rename_i none
        rw [none] at ih
        rw [← ih]
        rfl
      · rename_i piece pieces more
        rw [more] at ih
        rw [← ih]
        rfl

/-- Pieces of which all but the last are ended. -/
inductive Pieces (isEnd : α → Bool) : List (List α) → Prop where
  | nil : Pieces isEnd []
  | opened {piece : List α} : piece ≠ [] → Open isEnd piece → Pieces isEnd [piece]
  | cons {piece : List α} {rest : List (List α)} : Complete isEnd piece → Pieces isEnd rest →
      Pieces isEnd (piece :: rest)

theorem pieces_splitInclusive (l : List α) : Pieces isEnd (splitInclusive isEnd l) := by
  induction l with
  | nil => exact .nil
  | cons a rest ih =>
    rw [splitInclusive]
    split
    · rename_i ended
      exact .cons (.ended ended) ih
    · rename_i going
      have running : isEnd a = false := Bool.eq_false_iff.mpr going
      split
      · exact .opened (by simp) fun b hb => List.mem_singleton.mp hb ▸ running
      · rename_i piece pieces more
        rw [more] at ih
        cases ih with
        | opened nonempty still =>
          refine .opened (by simp) ?_
          intro b hb
          rcases List.mem_cons.mp hb with rfl | hb
          · exact running
          · exact still b hb
        | cons complete later => exact .cons (.cons running complete) later

theorem Pieces.suffix {first second : List (List α)} (h : Pieces isEnd (first ++ second)) :
    Pieces isEnd second := by
  induction first with
  | nil => exact h
  | cons piece rest ih =>
    rw [List.cons_append] at h
    cases hr : rest ++ second with
    | nil =>
      rw [(List.append_eq_nil_iff.mp hr).2]
      exact .nil
    | cons next others =>
      rw [hr] at h
      cases h with
      | cons _ later => exact ih (hr ▸ later)

/-- A complete piece is an open one with its terminator. -/
theorem Complete.split {piece : List α} (complete : Complete isEnd piece) :
    ∃ body a, piece = body ++ [a] ∧ isEnd a = true ∧ Open isEnd body := by
  induction complete with
  | ended ha => exact ⟨[], _, rfl, ha, by simp [Open]⟩
  | @cons b rest hb _ ih =>
    obtain ⟨body, a, rfl, ha, still⟩ := ih
    refine ⟨b :: body, a, rfl, ha, ?_⟩
    intro c hc
    rcases List.mem_cons.mp hc with rfl | hc
    · exact hb
    · exact still c hc

end Framing

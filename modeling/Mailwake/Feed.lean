import Mailwake.Transition

/-!
# A producer beside its consumer

Two machines run side by side. Each event of the producer may hand labels to the consumer,
which takes them in the same step; otherwise the consumer moves by itself, as far as the state
of the producer admits it. The runs of the pair project to runs of both.
-/
namespace Feed
open Transition
universe u v w x y z
variable {σ : Type u} {α : Type v} {ε : Type w} {τ : Type x} {β : Type y} {η : Type z}

inductive Label (α : Type v) (β : Type y) where
  | produce (label : α)
  | consume (label : β)

inductive Event (ε : Type w) (η : Type z) where
  | produced (event : ε)
  | consumed (event : η)

namespace Event

def product : Event ε η → Option ε
  | .produced event => some event
  | .consumed _ => none

def consumption : Event ε η → Option η
  | .produced _ => none
  | .consumed event => some event

def Produced (p : ε → Prop) : Event ε η → Prop
  | .produced event => p event
  | .consumed _ => False

def Consumed (q : η → Prop) : Event ε η → Prop
  | .produced _ => False
  | .consumed event => q event

theorem filterMap_product_produced (es : List ε) :
    (es.map (produced : ε → Event ε η)).filterMap product = es := by
  simp [List.filterMap_map, Function.comp_def, product]

theorem filterMap_product_consumed (fs : List η) :
    (fs.map (consumed : η → Event ε η)).filterMap product = [] := by
  simp [List.filterMap_map, Function.comp_def, product]

theorem filterMap_consumption_produced (es : List ε) :
    (es.map (produced : ε → Event ε η)).filterMap consumption = [] := by
  simp [List.filterMap_map, Function.comp_def, consumption]

theorem filterMap_consumption_consumed (fs : List η) :
    (fs.map (consumed : η → Event ε η)).filterMap consumption = fs := by
  simp [List.filterMap_map, Function.comp_def, consumption]

end Event

/-- The consumer takes what the producer's events hand it in the order of the events. -/
def step (producer : σ → α → Option (σ × List ε)) (consumer : τ → β → Option (τ × List η))
    (handed : ε → List β) (admits : σ → β → Bool) (s : σ × τ) :
    Label α β → Option ((σ × τ) × List (Event ε η))
  | .produce label =>
    (producer s.1 label).bind fun made =>
      (exec consumer s.2 (made.2.flatMap handed)).map fun taken =>
        ((made.1, taken.1), made.2.map .produced ++ taken.2.map .consumed)
  | .consume label =>
    if admits s.1 label then
      (consumer s.2 label).map fun taken => ((s.1, taken.1), taken.2.map .consumed)
    else none

variable {producer : σ → α → Option (σ × List ε)} {consumer : τ → β → Option (τ × List η)}
  {handed : ε → List β} {admits : σ → β → Bool} {s t : σ × τ} {tr : List (Event ε η)}

theorem produce_some {label : α} {es : List (Event ε η)} :
    step producer consumer handed admits s (.produce label) = some (t, es) ↔
      ∃ made taken, producer s.1 label = some (t.1, made) ∧
        exec consumer s.2 (made.flatMap handed) = some (t.2, taken) ∧
        es = made.map .produced ++ taken.map .consumed := by
  simp only [step, Option.bind_eq_some_iff, Option.map_eq_some_iff, Prod.exists, Prod.mk.injEq]
  constructor
  · rintro ⟨m, made, hm, n, taken, hn, rfl, rfl⟩
    exact ⟨made, taken, hm, hn, rfl⟩
  · rintro ⟨made, taken, hm, hn, rfl⟩
    exact ⟨t.1, made, hm, t.2, taken, hn, rfl, rfl⟩

theorem consume_some {label : β} {es : List (Event ε η)} :
    step producer consumer handed admits s (.consume label) = some (t, es) ↔
      admits s.1 label = true ∧ t.1 = s.1 ∧ ∃ taken, consumer s.2 label = some (t.2, taken) ∧
        es = taken.map .consumed := by
  obtain ⟨t₁, t₂⟩ := t
  by_cases allowed : admits s.1 label = true
  · simp only [step, allowed, ↓reduceIte, Option.map_eq_some_iff, Prod.exists, Prod.mk.injEq,
      true_and]
    constructor
    · rintro ⟨n, taken, hn, ⟨rfl, rfl⟩, rfl⟩
      exact ⟨rfl, taken, hn, rfl⟩
    · rintro ⟨rfl, taken, hn, rfl⟩
      exact ⟨t₂, taken, hn, ⟨rfl, rfl⟩, rfl⟩
  · simp [step, allowed]

theorem exec_single {step : σ → α → Option (σ × List ε)} {s t : σ} {a : α} {es : List ε}
    (h : step s a = some (t, es)) : exec step s [a] = some (t, es) :=
  exec_cons_some.mpr ⟨t, es, [], h, rfl, (List.append_nil es).symm⟩

/-- What the pair does is a run of the producer. -/
theorem producer_run {labels : List (Label α β)}
    (run : exec (step producer consumer handed admits) s labels = some (t, tr)) :
    ∃ as, exec producer s.1 as = some (t.1, tr.filterMap Event.product) := by
  refine exec_projection Prod.fst Event.product ?_ run
  intro s label t es h
  cases label with
  | produce label =>
    obtain ⟨made, taken, hm, -, rfl⟩ := produce_some.mp h
    rw [List.filterMap_append, Event.filterMap_product_produced,
      Event.filterMap_product_consumed, List.append_nil]
    exact ⟨[label], exec_single hm⟩
  | consume label =>
    obtain ⟨-, same, taken, -, rfl⟩ := consume_some.mp h
    rw [Event.filterMap_product_consumed, same]
    exact ⟨[], rfl⟩

/-- What the pair does is a run of the consumer. -/
theorem consumer_run {labels : List (Label α β)}
    (run : exec (step producer consumer handed admits) s labels = some (t, tr)) :
    ∃ bs, exec consumer s.2 bs = some (t.2, tr.filterMap Event.consumption) := by
  refine exec_projection Prod.snd Event.consumption ?_ run
  intro s label t es h
  cases label with
  | produce label =>
    obtain ⟨made, taken, -, hn, rfl⟩ := produce_some.mp h
    rw [List.filterMap_append, Event.filterMap_consumption_produced,
      Event.filterMap_consumption_consumed, List.nil_append]
    exact ⟨made.flatMap handed, hn⟩
  | consume label =>
    obtain ⟨-, -, taken, hn, rfl⟩ := consume_some.mp h
    rw [Event.filterMap_consumption_consumed]
    exact ⟨[label], exec_single hn⟩

section Answers
variable {p p' : ε → Prop} {q r : η → Prop}

/-- What the producer answers by itself. -/
theorem produced_followed (h : FollowedBy p p' (tr.filterMap Event.product)) :
    FollowedBy (Event.Produced p) (Event.Produced p') tr := by
  refine (followedBy_of_filterMap h).imp ?_ ?_
  · intro x hx
    cases x with
    | produced event => exact ⟨event, rfl, hx⟩
    | consumed event => exact hx.elim
  · rintro x ⟨y, seen, hy⟩
    cases x with
    | produced event =>
      obtain rfl : event = y := by simpa [Event.product] using seen
      exact hy
    | consumed event => cases seen

/-- A label that always emits a `q` emits one in every run that contains it. -/
theorem exec_emits {b : β} (emits : ∀ s t fs, consumer s b = some (t, fs) → ∃ y ∈ fs, q y)
    {s t : τ} {bs : List β} {fs : List η} (mem : b ∈ bs)
    (run : exec consumer s bs = some (t, fs)) : ∃ y ∈ fs, q y := by
  obtain ⟨before, after, rfl⟩ := List.append_of_mem mem
  obtain ⟨m, es, gs, -, rest, rfl⟩ := exec_append_some.mp run
  obtain ⟨n, ks, ls, hb, -, rfl⟩ := exec_cons_some.mp rest
  obtain ⟨y, hy, hq⟩ := emits m n ks hb
  exact ⟨y, by simp [hy], hq⟩

/-- If each `p` of the producer hands over a label that emits a `q`, then a `q` follows it. -/
theorem handed_over
    (hands : ∀ e, p e → ∃ b ∈ handed e, ∀ s t fs, consumer s b = some (t, fs) → ∃ y ∈ fs, q y)
    {labels : List (Label α β)}
    (run : exec (step producer consumer handed admits) s labels = some (t, tr)) :
    FollowedBy (Event.Produced p) (Event.Consumed q) tr := by
  refine exec_invariant (P := fun tr _ => FollowedBy (Event.Produced p) (Event.Consumed q) tr)
    ?_ followedBy_nil run
  intro tr s label t es old h
  cases label with
  | produce label =>
    obtain ⟨made, taken, -, hn, rfl⟩ := produce_some.mp h
    refine old.append_followed ?_
    intro before x after he hx
    cases x with
    | consumed event => exact hx.elim
    | produced e =>
      rcases List.append_eq_append_iff.mp he with ⟨mid, -, hm⟩ | ⟨mid, hmade, hm⟩
      · have mem : Event.produced e ∈ taken.map Event.consumed := by simp [hm]
        simp at mem
      · cases mid with
        | nil =>
          have mem : Event.produced e ∈ taken.map Event.consumed := by
            rw [show taken.map Event.consumed = _ from hm.symm]
            exact List.mem_cons_self
          simp at mem
        | cons y mid =>
          obtain ⟨rfl, rfl⟩ := List.cons_eq_cons.mp hm
          have mem : e ∈ made := by
            have inside : (Event.produced e : Event ε η) ∈ made.map Event.produced := by
              simp [hmade]
            simpa using inside
          obtain ⟨b, hb, emits⟩ := hands e hx
          obtain ⟨z, hz, hq⟩ := exec_emits emits (List.mem_flatMap.mpr ⟨e, mem, hb⟩) hn
          exact ⟨.consumed z, by simp [hz], hq⟩
  | consume label =>
    obtain ⟨-, -, taken, -, rfl⟩ := consume_some.mp h
    refine old.append ?_
    intro x hx
    obtain ⟨e, -, rfl⟩ := List.mem_map.mp hx
    exact id

/-- What the consumer answers, it answers to the producer. -/
theorem answered (passed : FollowedBy (Event.Produced p) (Event.Consumed q) tr)
    (answers : FollowedBy q r (tr.filterMap Event.consumption)) :
    FollowedBy (Event.Produced p) (Event.Consumed r) tr := by
  refine passed.trans ((followedBy_of_filterMap answers).imp ?_ ?_)
  · intro x hx
    cases x with
    | produced event => exact hx.elim
    | consumed event => exact ⟨event, rfl, hx⟩
  · rintro x ⟨y, seen, hy⟩
    cases x with
    | produced event => cases seen
    | consumed event =>
      obtain rfl : event = y := by simpa [Event.consumption] using seen
      exact hy

end Answers

end Feed

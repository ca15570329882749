import Mathlib.Data.List.Sigma
import Mailwake.Transition

/-!
# A server that works in batches

Who asks for a key joins the batch that waits for it, or opens a new one behind the others. The
batches are worked on one at a time, in the order in which they were opened, and everyone in a
batch gets the same answer.
-/
namespace Batching
open Transition
universe u v w
variable {κ : Type u} {ι : Type v} {ρ : Type w}

/-- The keys asked for, each once, with those who wait for it. -/
structure Queue (κ : Type u) (ι : Type v) where
  batches : List (Sigma fun _ : κ => List ι)
  distinct : batches.NodupKeys

namespace Queue

def empty : Queue κ ι := ⟨[], List.nodupKeys_nil⟩

def keys (q : Queue κ ι) : List κ := q.batches.keys

def everyone (q : Queue κ ι) : List ι := q.batches.flatMap fun batch => batch.2

variable [DecidableEq κ]

def find (q : Queue κ ι) (key : κ) : Option (List ι) := q.batches.dlookup key

def add (key : κ) (id : ι) : List (Sigma fun _ : κ => List ι) → List (Sigma fun _ : κ => List ι)
  | [] => [⟨key, [id]⟩]
  | batch :: rest =>
    if batch.1 = key then ⟨batch.1, batch.2 ++ [id]⟩ :: rest else batch :: add key id rest

theorem keys_add (key : κ) (id : ι) (batches : List (Sigma fun _ : κ => List ι)) :
    (add key id batches).keys =
      if key ∈ batches.keys then batches.keys else batches.keys ++ [key] := by
  induction batches with
  | nil => simp [add, List.keys]
  | cons batch rest ih =>
    by_cases same : batch.1 = key
    · simp [add, same]
    · simp only [add, if_neg same, List.keys_cons, ih, List.mem_cons, Ne.symm same, false_or]
      split <;> rfl

theorem nodupKeys_add {key : κ} {id : ι} {batches : List (Sigma fun _ : κ => List ι)}
    (distinct : batches.NodupKeys) : (add key id batches).NodupKeys := by
  rw [List.NodupKeys, keys_add]
  split
  · exact distinct
  · rename_i fresh
    refine List.nodup_append.mpr ⟨distinct, List.nodup_singleton key, ?_⟩
    rintro other queued _ new rfl
    exact fresh (List.mem_singleton.mp new ▸ queued)

theorem dlookup_add_self (key : κ) (id : ι) (batches : List (Sigma fun _ : κ => List ι)) :
    (add key id batches).dlookup key = some ((batches.dlookup key).getD [] ++ [id]) := by
  induction batches with
  | nil => simp [add]
  | cons batch rest ih =>
    obtain ⟨other, ids⟩ := batch
    by_cases same : other = key
    · subst same
      simp [add]
    · simp only [add, if_neg same]
      rw [List.dlookup_cons_ne _ _ (Ne.symm same), List.dlookup_cons_ne _ _ (Ne.symm same), ih]

theorem dlookup_add_ne {key other : κ} (apart : other ≠ key) (id : ι)
    (batches : List (Sigma fun _ : κ => List ι)) :
    (add key id batches).dlookup other = batches.dlookup other := by
  induction batches with
  | nil => simp [add, apart]
  | cons batch rest ih =>
    obtain ⟨first, ids⟩ := batch
    by_cases same : first = key
    · subst same
      simp only [add, if_true]
      rw [List.dlookup_cons_ne _ _ apart, List.dlookup_cons_ne _ _ apart]
    · simp only [add, if_neg same]
      by_cases head : other = first
      · subst head
        simp
      · rw [List.dlookup_cons_ne _ _ head, List.dlookup_cons_ne _ _ head, ih]

def join (q : Queue κ ι) (key : κ) (id : ι) : Queue κ ι :=
  ⟨add key id q.batches, nodupKeys_add q.distinct⟩

theorem keys_join (q : Queue κ ι) (key : κ) (id : ι) :
    (q.join key id).keys = if key ∈ q.keys then q.keys else q.keys ++ [key] :=
  keys_add key id q.batches

@[simp] theorem find_join_self (q : Queue κ ι) (key : κ) (id : ι) :
    (q.join key id).find key = some ((q.find key).getD [] ++ [id]) :=
  dlookup_add_self key id q.batches

theorem find_join_ne (q : Queue κ ι) {key other : κ} (apart : other ≠ key) (id : ι) :
    (q.join key id).find other = q.find other :=
  dlookup_add_ne apart id q.batches

theorem isSome_find (q : Queue κ ι) (key : κ) : (q.find key).isSome = true ↔ key ∈ q.keys :=
  List.dlookup_isSome

/-- The batch that was opened first, and what is behind it. -/
def pop (q : Queue κ ι) : Option (κ × List ι × Queue κ ι) :=
  match q with
  | ⟨[], _⟩ => none
  | ⟨⟨key, ids⟩ :: rest, distinct⟩ => some (key, ids, ⟨rest, (List.nodupKeys_cons.mp distinct).2⟩)

/-- What popping a batch says of the queue before and after. -/
theorem pop_some {q rest : Queue κ ι} {key : κ} {ids : List ι}
    (h : q.pop = some (key, ids, rest)) :
    q.keys = key :: rest.keys ∧ q.find key = some ids ∧ key ∉ rest.keys ∧
      ∀ other, other ≠ key → rest.find other = q.find other := by
  obtain ⟨batches, distinct⟩ := q
  cases batches with
  | nil => cases h
  | cons batch later =>
    obtain ⟨first, waiting⟩ := batch
    cases h
    refine ⟨rfl, List.dlookup_cons_eq _ _ _, (List.nodupKeys_cons.mp distinct).1, ?_⟩
    intro other apart
    exact (List.dlookup_cons_ne _ ⟨_, _⟩ apart).symm

omit [DecidableEq κ] in
theorem pop_of_keys {q : Queue κ ι} {key : κ} {rest : List κ} (h : q.keys = key :: rest) :
    ∃ ids later, q.pop = some (key, ids, later) := by
  obtain ⟨batches, distinct⟩ := q
  cases batches with
  | nil => cases h
  | cons batch later =>
    obtain ⟨first, waiting⟩ := batch
    obtain ⟨rfl, -⟩ := List.cons.inj h
    exact ⟨_, _, rfl⟩

end Queue

inductive Job (κ : Type u) (ι : Type v) where
  | free
  /-- The batch has left the queue and work on it has not begun. -/
  | held (key : κ) (ids : List ι)
  | serving (key : κ) (ids : List ι)
  | closed
  deriving DecidableEq

structure Server (κ : Type u) (ι : Type v) where
  queue : Queue κ ι
  job : Job κ ι

inductive Act (κ : Type u) (ι : Type v) (ρ : Type w) where
  | arrive (key : κ) (id : ι)
  | take
  | refuse
  | begin
  | complete (report : ρ)
  /-- The server closes and everyone who waits is told, in some order. -/
  | close (ids : List ι)

inductive Event (κ : Type u) (ι : Type v) (ρ : Type w) where
  | opened (key : κ) (id : ι)
  | joined (key : κ) (id : ι)
  | taken (key : κ)
  | refused (key : κ) (ids : List ι)
  | began (key : κ) (ids : List ι)
  | ended (key : κ) (ids : List ι) (report : ρ)
  | withdrawn (keys : List κ) (ids : List ι)

namespace Server

def empty : Server κ ι := ⟨.empty, .free⟩

/-- Those whose batch has not begun. -/
def waiting (s : Server κ ι) : List ι :=
  match s.job with
  | .held _ ids => ids ++ s.queue.everyone
  | _ => s.queue.everyone

variable [DecidableEq κ]

def enqueue (s : Server κ ι) (key : κ) (id : ι) : Server κ ι × List (Event κ ι ρ) :=
  ({ s with queue := s.queue.join key id },
    [if key ∈ s.queue.keys then .joined key id else .opened key id])

/-- Who asks for a key joins the batch of it that nobody works on yet. -/
def arrive (s : Server κ ι) (key : κ) (id : ι) : Option (Server κ ι × List (Event κ ι ρ)) :=
  match s.job with
  | .closed => none
  | .held first ids =>
    if key = first then
      some ({ s with job := .held first (ids ++ [id]) }, [.joined key id])
    else some (s.enqueue key id)
  | _ => some (s.enqueue key id)

/-- The head of the queue is worked on if the server knows its key, and turned away if not. -/
def serveNext (known : κ → Bool) (accept : Bool) (s : Server κ ι) :
    Option (Server κ ι × List (Event κ ι ρ)) :=
  match s.job, s.queue.pop with
  | .free, some (key, ids, queue) =>
    if known key = accept then
      if accept then some (⟨queue, .held key ids⟩, [.taken key])
      else some (⟨queue, .free⟩, [.refused key ids])
    else none
  | _, _ => none

variable [DecidableEq ι]

def step (known : κ → Bool) (s : Server κ ι) :
    Act κ ι ρ → Option (Server κ ι × List (Event κ ι ρ))
  | .arrive key id => s.arrive key id
  | .take => s.serveNext known true
  | .refuse => s.serveNext known false
  | .begin =>
    match s.job with
    | .held key ids => some ({ s with job := .serving key ids }, [.began key ids])
    | _ => none
  | .complete report =>
    match s.job with
    | .serving key ids => some ({ s with job := .free }, [.ended key ids report])
    | _ => none
  | .close ids =>
    match s.job with
    | .serving _ _ => none
    | .closed => none
    | _ =>
      if ids.Perm s.waiting then
        some (⟨.empty, .closed⟩, [.withdrawn s.queue.keys ids])
      else none

end Server

section Order

/-- The keys whose batches are opened. -/
def opening : Event κ ι ρ → List κ
  | .opened key _ => [key]
  | _ => []

/-- The keys whose batches leave the queue. -/
def leaving : Event κ ι ρ → List κ
  | .taken key | .refused key _ => [key]
  | .withdrawn keys _ => keys
  | _ => []

variable [DecidableEq κ] {known : κ → Bool} {s t : Server κ ι} {es tr : List (Event κ ι ρ)}

/-- What is opened goes behind what waits, and what leaves is taken from the front. -/
def InOrder (s t : Server κ ι) (es : List (Event κ ι ρ)) : Prop :=
  s.queue.keys ++ es.flatMap opening = es.flatMap leaving ++ t.queue.keys

theorem inOrder_enqueue {key : κ} {id : ι} (h : s.enqueue key id = (t, es)) : InOrder s t es := by
  cases h
  simp only [InOrder, Queue.keys_join]
  split <;> simp [opening, leaving]

theorem inOrder_arrive {key : κ} {id : ι} (h : s.arrive key id = some (t, es)) :
    InOrder s t es := by
  unfold Server.arrive at h
  split at h
  · cases h
  · split at h
    · cases h
      simp [InOrder, opening, leaving]
    · exact inOrder_enqueue (Option.some.inj h)
  · exact inOrder_enqueue (Option.some.inj h)

theorem inOrder_serveNext {accept : Bool} (h : s.serveNext known accept = some (t, es)) :
    InOrder s t es := by
  unfold Server.serveNext at h
  split at h
  · rename_i key ids queue _ popped
    have order := (Queue.pop_some popped).1
    split at h
    · split at h
      · cases h
        simp [InOrder, opening, leaving, order]
      · cases h
        simp [InOrder, opening, leaving, order]
    · cases h
  · cases h

variable [DecidableEq ι]

theorem inOrder_step {act : Act κ ι ρ} (h : s.step known act = some (t, es)) : InOrder s t es := by
  cases act with
  | arrive key id => exact inOrder_arrive h
  | take => exact inOrder_serveNext h
  | refuse => exact inOrder_serveNext h
  | begin | complete report =>
    simp only [Server.step] at h
    split at h
    · cases h
      simp [InOrder, opening, leaving]
    · cases h
  | close ids =>
    simp only [Server.step] at h
    split at h
    · cases h
    · cases h
    · split at h
      · cases h
        simp [InOrder, opening, leaving, Queue.keys, Queue.empty]
      · cases h

/-- First opened, first out: the batches leave in the order in which they were opened, and those
opened last still wait. -/
theorem opened_in_order {acts : List (Act κ ι ρ)}
    (run : exec (Server.step known) .empty acts = some (s, tr)) :
    tr.flatMap opening = tr.flatMap leaving ++ s.queue.keys := by
  refine exec_invariant (P := fun tr s => tr.flatMap opening = tr.flatMap leaving ++ s.queue.keys)
    ?_ rfl run
  intro tr s act t es old h
  rw [List.flatMap_append, List.flatMap_append, old, List.append_assoc, inOrder_step h,
    List.append_assoc]

end Order
end Batching

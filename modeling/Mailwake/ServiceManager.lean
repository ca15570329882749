import Mathlib.Data.List.TakeWhile
import Mailwake.Assignments
import Mailwake.GmailApiPoll
import Mailwake.WatchdogPings

/-!
# What the service manager is told

`Notifier` of the service manager's protocol: what it takes from the environment, the datagrams
that it builds, and the socket address that they go to. A reader of the datagram gets back the
fields of the call, whatever the text of a status is.
-/
namespace ServiceManager
open Assignments StatusTask Transition

/-- What `from_env` looks at. A variable that is no Unicode is only seen as bytes. -/
structure Environment where
  notifySocket : Option (List UInt8)
  watchdogPid : Option (List Char)
  watchdogUsec : Option (List Char)

structure Notifier where
  socket : Option (List UInt8)
  /-- In microseconds. -/
  watchdogInterval : Option Nat
  deriving DecidableEq

/-- Decimal digits as `str::parse::<u32>` reads them. -/
def parseU32 (text : List Char) : Option Nat :=
  (GmailApiPoll.parseU64 text).filter (· < 4294967296)

def watchdogPidAllows (value : Option (List Char)) (currentPid : Nat) : Bool :=
  match value with
  | none => true
  | some value => (parseU32 value).any (· == currentPid)

def Notifier.disabled : Notifier := ⟨none, none⟩

def Notifier.fromEnv (enabled : Bool) (env : Environment) (currentPid : Nat) : Notifier :=
  if enabled then
    ⟨env.notifySocket,
      if watchdogPidAllows env.watchdogPid currentPid then
        (env.watchdogUsec.bind GmailApiPoll.parseU64).filter (0 < ·)
      else none⟩
  else .disabled

section Datagrams

def pushField (message : List Char) (field : (String × String) × Nat) : List Char :=
  (if 0 < field.2 then message ++ ['\n'] else message) ++
    field.1.1.toList ++ ['='] ++ field.1.2.toList

/-- The loop of `notify`. -/
def message (fields : List (String × String)) : List Char :=
  fields.zipIdx.foldl pushField []

inductive Call where
  | ready (text : String)
  | status (text : String)
  | watchdog
  | stopping

def Call.fields : Call → List (String × String)
  | .ready text => [("READY", "1"), ("STATUS", sanitizeField text)]
  | .status text => [("STATUS", sanitizeField text)]
  | .watchdog => [("WATCHDOG", "1")]
  | .stopping => [("STOPPING", "1")]

/-- Without a socket nothing is sent. -/
def Notifier.notify (notifier : Notifier) (call : Call) : Option (List UInt8 × List Char) :=
  notifier.socket.map fun socket => (socket, message call.fields)

/-- The datagram of an event of the status task. -/
def datagram : Event → List Char
  | .status text => message [("STATUS", text)]
  | .watchdog => message [("WATCHDOG", "1")]

def characters (field : String × String) : Assignment Char := (field.1.toList, field.2.toList)

theorem characters_injective : Function.Injective characters := by
  rintro ⟨key, value⟩ ⟨key', value'⟩ same
  obtain ⟨keys, values⟩ := Prod.mk.inj same
  exact Prod.ext (String.toList_inj.mp keys) (String.toList_inj.mp values)

theorem pushField_later (fields : List (String × String)) (start : List Char) (index : Nat) :
    (fields.zipIdx (index + 1)).foldl pushField start =
      start ++ fields.flatMap fun field => '\n' :: line '=' (characters field) := by
  induction fields generalizing start index with
  | nil => simp
  | cons field rest ih =>
    rw [List.zipIdx_cons, List.foldl_cons, ih, List.flatMap_cons]
    simp [pushField, line, characters]

/-- The loop writes one line for each field. -/
theorem message_eq_render (fields : List (String × String)) :
    message fields = render '\n' '=' (fields.map characters) := by
  cases fields with
  | nil => rfl
  | cons field rest =>
    have later := pushField_later rest (pushField [] (field, 0)) 0
    rw [message, List.zipIdx_cons, List.foldl_cons, later, List.map_cons, render_cons,
      List.flatMap_map]
    simp [pushField, line, characters]

theorem newline_not_mem_sanitizeField (text : String) : '\n' ∉ (sanitizeField text).toList := by
  rw [sanitizeField, String.toList_ofList]
  intro mem
  obtain ⟨c, -, same⟩ := List.mem_map.mp mem
  split at same
  · cases same
  · rename_i other
    exact other (Or.inr same)

theorem fields_clean (call : Call) :
    ∀ field ∈ call.fields, Clean '\n' '=' (characters field) := by
  have constant : ∀ key value : String, key.toList.all (fun c => c != '\n' && c != '=') = true →
      '\n' ∉ value.toList → Clean '\n' '=' (characters (key, value)) := by
    intro key value plain clean
    have each := List.all_eq_true.mp plain
    refine ⟨fun mem => ?_, fun mem => ?_, clean⟩
    · simpa using each _ mem
    · simpa using each _ mem
  intro field mem
  cases call with
  | ready text =>
    rcases List.mem_cons.mp mem with rfl | mem
    · exact constant "READY" "1" (by decide) (by decide)
    · obtain rfl := List.mem_singleton.mp mem
      exact constant "STATUS" _ (by decide) (newline_not_mem_sanitizeField text)
  | status text =>
    obtain rfl := List.mem_singleton.mp mem
    exact constant "STATUS" _ (by decide) (newline_not_mem_sanitizeField text)
  | watchdog =>
    obtain rfl := List.mem_singleton.mp mem
    exact constant "WATCHDOG" "1" (by decide) (by decide)
  | stopping =>
    obtain rfl := List.mem_singleton.mp mem
    exact constant "STOPPING" "1" (by decide) (by decide)

/-- A reader of the datagram gets the fields of the call, so no text of a status adds a field to
it or changes one. -/
theorem read_message (call : Call) :
    read '\n' '=' (message call.fields) = call.fields.map characters := by
  rw [message_eq_render]
  refine read_render (by decide) ?_ ?_
  · cases call <;> simp [Call.fields]
  · intro assignment mem
    obtain ⟨field, inside, rfl⟩ := List.mem_map.mp mem
    exact fields_clean call field inside

/-- A datagram tells which fields it was built from, and no other call builds it from others. -/
theorem datagram_tells_its_call (call : Call) :
    read '\n' '=' (message call.fields) = call.fields.map characters ∧
      ∀ other : Call, message other.fields = message call.fields → other.fields = call.fields := by
  refine ⟨read_message call, ?_⟩
  intro other same
  have reads : other.fields.map characters = call.fields.map characters := by
    rw [← read_message, ← read_message, same]
  exact List.map_injective_iff.mpr characters_injective reads

section Runs
variable {watchdog : Bool} {s t : StatusTask.State} {es tr : List Event}

/-- The call that an event of the status task stands for. -/
def Event.Calls (call : Call) : Event → Prop
  | .status text => ∃ raw, call = .status raw ∧ text = sanitizeField raw
  | .watchdog => call = .watchdog

theorem calls_step {label : StatusTask.Label}
    (h : StatusTask.step watchdog s label = some (t, es)) :
    ∀ e ∈ es, ∃ call, Event.Calls call e := by
  cases label with
  | send =>
    simp only [StatusTask.step] at h
    split at h
    · rename_i purpose status task
      cases h
      intro e mem
      obtain rfl := List.mem_singleton.mp mem
      exact ⟨.status status, status, rfl, rfl⟩
    · cases h
  | check =>
    simp only [StatusTask.step] at h
    split at h
    · split at h
      · cases h
        simp
      · cases h
        intro e mem
        obtain rfl := List.mem_singleton.mp mem
        exact ⟨.watchdog, rfl⟩
    · cases h
  | advance | shutDown | dropShutdown =>
    cases h
    simp
  | subscribe | tick =>
    simp only [StatusTask.step] at h
    split at h
    · cases h
      simp
    · cases h
  | read =>
    simp only [StatusTask.step] at h
    split at h
    · cases h
      simp
    · cases h
  | shutdownChanged | statusChanged =>
    simp only [StatusTask.step] at h
    split at h
    · simp only [bind, Option.bind_eq_some_iff, Prod.exists] at h
      obtain ⟨changed, watch, -, last⟩ := h
      obtain ⟨-, rfl⟩ := Prod.mk.inj (Option.some.inj last)
      simp
    · cases h
  | register lane =>
    obtain ⟨-, -, -, -, rfl⟩ := WatchdogPings.other_frame (Or.inl ⟨lane, rfl⟩) h
    simp
  | markLane lane mark =>
    obtain ⟨-, -, -, -, rfl⟩ := WatchdogPings.other_frame (Or.inr (Or.inl ⟨lane, mark, rfl⟩)) h
    simp
  | mark task operation =>
    obtain ⟨-, -, -, -, rfl⟩ :=
      WatchdogPings.other_frame (Or.inr (Or.inr (Or.inl ⟨task, operation, rfl⟩))) h
    simp
  | bump actor =>
    obtain ⟨-, -, -, -, rfl⟩ :=
      WatchdogPings.other_frame (Or.inr (Or.inr (Or.inr ⟨actor, rfl⟩))) h
    simp

theorem datagram_of_calls {call : Call} {e : Event} (calls : Event.Calls call e) :
    datagram e = message call.fields := by
  cases e with
  | status text =>
    obtain ⟨raw, rfl, rfl⟩ := calls
    rfl
  | watchdog =>
    obtain rfl : call = .watchdog := calls
    rfl

/-- What a reader finds in the datagram of an event. -/
def said : Event → String × String
  | .status text => ("STATUS", text)
  | .watchdog => ("WATCHDOG", "1")

private def exampleStatus : List StatusTask.Label :=
  [.subscribe, .read, .send, .tick, .read, .send, .check]

end Runs

end Datagrams

section Address

/-- The length of `sun_path`. -/
def pathCapacity : Nat := 108

/-- `sun_path` and how much of it the length of the address covers. -/
structure SocketAddress where
  sunPath : List UInt8
  length : Nat

inductive InvalidInput where
  | emptySocket
  | pathTooLong

/-- `send_datagram` and `send_datagram_with_fd` up to the call of `sendto`. A leading `@` stands
for an abstract socket. -/
def socketAddress (socket : List UInt8) : Except InvalidInput SocketAddress :=
  match socket with
  | [] => .error .emptySocket
  | first :: rest =>
    let isAbstract := first == 64
    let path := if isAbstract then rest else first :: rest
    let required := path.length + if isAbstract then 1 else 0
    if pathCapacity < required then .error .pathTooLong
    else
      let start := if isAbstract then [0] else []
      .ok ⟨start ++ path ++ List.replicate (pathCapacity - required) 0, required⟩

/-- How the kernel reads an address: a leading NUL is an abstract name of the rest of the length,
anything else a path up to the next NUL. -/
def SocketAddress.name (address : SocketAddress) : List UInt8 :=
  match address.sunPath.take address.length with
  | [] => []
  | first :: rest => if first == 0 then 64 :: rest else (first :: rest).takeWhile (· != 0)

theorem socketAddress_cons (first : UInt8) (rest : List UInt8) :
    socketAddress (first :: rest) =
      if pathCapacity < rest.length + 1 then .error .pathTooLong
      else .ok ⟨(if first == 64 then 0 :: rest else first :: rest) ++
        List.replicate (pathCapacity - (rest.length + 1)) 0, rest.length + 1⟩ := by
  cases marked : first == 64 <;> simp [socketAddress, marked]

/-- The address of a variable without NUL names the socket of the variable; only an empty or an
overlong one has none. -/
theorem socketAddress_names_the_socket {socket : List UInt8} (text : 0 ∉ socket) :
    (∀ address, socketAddress socket = .ok address →
      address.name = socket ∧ address.sunPath.length = pathCapacity) ∧
    ((∃ address, socketAddress socket = .ok address) ↔
      socket ≠ [] ∧ socket.length ≤ pathCapacity) := by
  cases socket with
  | nil => simp [socketAddress]
  | cons first rest =>
    rw [socketAddress_cons]
    by_cases fits : pathCapacity < rest.length + 1
    · rw [if_pos fits]
      refine ⟨fun _ => nofun, fun ⟨_, made⟩ => (by cases made), ?_⟩
      rintro ⟨-, short⟩
      rw [List.length_cons] at short
      omega
    · rw [if_neg fits]
      refine ⟨?_, fun _ => ⟨List.cons_ne_nil _ _, ?_⟩, fun _ => ⟨_, rfl⟩⟩
      case refine_2 =>
        rw [List.length_cons]
        omega
      intro address made
      obtain rfl := Except.ok.inj made
      cases marked : first == 64 with
      | true =>
        obtain rfl : first = 64 := by simpa using marked
        refine ⟨by simp [SocketAddress.name], ?_⟩
        simp
        omega
      | false =>
        obtain ⟨leads, clean⟩ : 0 ≠ first ∧ 0 ∉ rest := by simpa using text
        have nonzero : ¬ first = 0 := fun same => leads same.symm
        have plain : ∀ x ∈ rest, (x != 0) = true := by
          intro x mem
          have differs : x ≠ 0 := fun same => clean (same ▸ mem)
          simpa using differs
        have whole : rest.takeWhile (· != 0) = rest := List.takeWhile_eq_self_iff.mpr plain
        refine ⟨by simp [SocketAddress.name, nonzero, whole], ?_⟩
        simp
        omega

theorem example_abstract_socket : ∃ address, socketAddress [64, 109] = .ok address ∧
    address.name = [64, 109] ∧ address.sunPath.length = pathCapacity := by
  have named := socketAddress_names_the_socket (by decide : (0 : UInt8) ∉ [64, 109])
  obtain ⟨address, made⟩ := named.2.mpr ⟨List.cons_ne_nil _ _, by decide⟩
  exact ⟨address, made, named.1 address made⟩

end Address

end ServiceManager

import Mathlib.Data.List.Basic
import ClaudeProxy.Kit.Dict
import ClaudeProxy.Kit.JsonText
import ClaudeProxy.Kit.Machine

namespace ClaudeProxy.Realtime

open Kit

abbrev Str := List Char

def queueMaxSize : Nat := 100

inductive Failure where
  | webSocketDisconnect
  | timeoutError
  | cancelledError
  | other (text : Str)
deriving DecidableEq

/-- How an awaited call ends. -/
abbrev Ending := Except Failure Unit

/-- Where `_sender_loop` stands, or what it has raised. -/
inductive Sender where
  | getting
  | sending (message : Json)
  | beating (message : Json)
  | ended (failure : Failure)

/-- Where `_receiver_loop` stands, or what it has raised. -/
inductive Receiver where
  | receiving
  | handling (event : Json)
  | putting (event : Json)
  | ended (failure : Failure)

/-- Where the coroutine of `workspace_socket` stands. -/
inductive Phase where
  | accepting
  | greeting
  | serving (sender : Sender) (receiver : Receiver)
  | ended (outcome : Ending)

structure Socket where
  workspaceId : Int
  queue : List Json
  phase : Phase

/-- A subscriber is known by the number of the handler that made it. -/
abbrev Connections := Dict Int (List Nat)

def subscribers (connections : Connections) (workspaceId : Int) : List Nat := (connections.get? workspaceId).getD []

def register (connections : Connections) (workspaceId : Int) (h : Nat) : Connections :=
  connections.set workspaceId ((subscribers connections workspaceId).insert h)

/-- The two statements of the `finally` block on the shared map; each of them looks the entry up in a `defaultdict`. -/
def unregister (connections : Connections) (workspaceId : Int) (h : Nat) : Connections :=
  let left := (subscribers connections workspaceId).filter (· ≠ h)
  let discarded := connections.set workspaceId left
  if left = [] then discarded.erase workspaceId else discarded

section Messages

variable (workspaceId : Int) (now : Str)

def eventMessage (eventType : Str) (payload : List (Str × Json)) : Json :=
  .object [("type".toList, .string "event".toList), ("event_type".toList, .string eventType),
    ("workspace_id".toList, .integer workspaceId), ("timestamp".toList, .number now), ("payload".toList, .object payload)]

def heartbeat : Json :=
  .object [("type".toList, .string "heartbeat".toList), ("workspace_id".toList, .integer workspaceId),
    ("timestamp".toList, .number now)]

/-- What `int` says of too many digits. -/
def tooManyDigits (digits : Nat) : Failure :=
  .other ("Exceeds the limit (4300 digits) for integer string conversion: value has ".toList ++ Nat.toDigits 10 digits ++
    " digits; use sys.set_int_max_str_digits() to increase the limit".toList)

/-- What a client sent, decoded if it is an object; a `JSONDecodeError` is caught, another `ValueError` is not. -/
def clientPayload (data : Str) : Except Failure Json :=
  match Json.loads data with
  | some (.object members) => .ok (.object members)
  | some _ => .ok (.string data)
  | none =>
    match Json.overlong? data with
    | some digits => .error (tooManyDigits digits)
    | none => .ok (.string data)

def clientEvent (payload : Json) : Json :=
  .object [("type".toList, .string "client_event".toList), ("workspace_id".toList, .integer workspaceId),
    ("timestamp".toList, .number now), ("payload".toList, payload)]

end Messages

/-- `put_nowait`, after the oldest message is dropped from a full queue -/
def offer (message : Json) (queue : List Json) : List Json :=
  if queue.length < queueMaxSize then queue ++ [message] else queue.tail ++ [message]

inductive SenderAction where
  | get
  | expire (now : Str)
  | sent (ending : Ending) (now : Str)
  | cancel

/-- A `TimeoutError` of a message's own `send_json` is taken for the heartbeat's. -/
def Sender.next (workspaceId : Int) (queue : List Json) : Sender → SenderAction → Option (Sender × List Json)
  | .getting, .get =>
    match queue with
    | message :: rest => some (.sending message, rest)
    | [] => none
  | .getting, .expire now => some (.beating (heartbeat workspaceId now), queue)
  | .getting, .cancel => some (.ended .cancelledError, queue)
  | .sending _, .sent (.ok _) _ => some (.getting, queue)
  | .sending _, .sent (.error failure) now =>
    if failure = .timeoutError then some (.beating (heartbeat workspaceId now), queue) else some (.ended failure, queue)
  | .beating _, .sent (.ok _) _ => some (.getting, queue)
  | .beating _, .sent (.error failure) _ => some (.ended failure, queue)
  | _, _ => none

inductive ReceiverAction where
  | received (text : Except Failure Str) (now : Str)
  | handled
  | put
  | cancel

def Receiver.next (workspaceId : Int) (queue : List Json) : Receiver → ReceiverAction → Option (Receiver × List Json)
  | .receiving, .received (.ok data) now =>
    match clientPayload data with
    | .ok payload => some (.handling (clientEvent workspaceId now payload), queue)
    | .error failure => some (.ended failure, queue)
  | .receiving, .received (.error failure) _ => some (.ended failure, queue)
  | .handling event, .handled => some (.putting event, queue)
  | .handling _, .cancel => some (.ended .cancelledError, queue)
  | .putting event, .put => if queue.length < queueMaxSize then some (.receiving, queue ++ [event]) else none
  | .putting _, .cancel => some (.ended .cancelledError, queue)
  | _, _ => none

def Sender.failure : Sender → Option Failure
  | .ended failure => some failure
  | _ => none

def Receiver.failure : Receiver → Option Failure
  | .ended failure => some failure
  | _ => none

/-- `asyncio.wait` with `FIRST_EXCEPTION`: a cancelled task is no exception. -/
def waitReturns (sender : Sender) (receiver : Receiver) : Bool :=
  sender.failure.any (· ≠ .cancelledError) || receiver.failure.any (· ≠ .cancelledError) ||
    sender.failure.isSome && receiver.failure.isSome

inductive Task where
  | sender
  | receiver

inductive SocketAction where
  | accepted (ending : Ending)
  | greeted (ending : Ending)
  | sender (action : SenderAction)
  | receiver (action : ReceiverAction)
  | wake (first : Task)
  | cancel

inductive Effect where
  | nothing
  | registers
  | unregisters

/-- What the handler ends with, after the exception `task.result()` raises. -/
def outcomeOf (failure : Failure) : Ending := if failure = .webSocketDisconnect then .ok () else .error failure

/-- No loop returns, so the first finished task of the set raises and the pending ones are left to `finally`. -/
def Socket.next (socket : Socket) : Phase → SocketAction → Option (Socket × Effect)
  | .accepting, .accepted (.ok _) => some ({ socket with phase := .greeting }, .registers)
  | .accepting, .accepted (.error failure) => some ({ socket with phase := .ended (.error failure) }, .nothing)
  | .greeting, .greeted (.ok _) => some ({ socket with phase := .serving .getting .receiving }, .nothing)
  | .greeting, .greeted (.error failure) => some ({ socket with phase := .ended (.error failure) }, .nothing)
  | .serving sender receiver, .sender action =>
    (sender.next socket.workspaceId socket.queue action).map fun (sender, queue) =>
      ({ socket with phase := .serving sender receiver, queue := queue }, .nothing)
  | .serving sender receiver, .receiver action =>
    (receiver.next socket.workspaceId socket.queue action).map fun (receiver, queue) =>
      ({ socket with phase := .serving sender receiver, queue := queue }, .nothing)
  | .serving sender receiver, .wake first =>
    if waitReturns sender receiver then
      (match first with
        | .sender => sender.failure
        | .receiver => receiver.failure).map fun failure =>
          ({ socket with phase := .ended (outcomeOf failure) }, .unregisters)
    else none
  | .serving _ _, .cancel => some ({ socket with phase := .ended (.error .cancelledError) }, .unregisters)
  | _, _ => none

structure State where
  sockets : Nat → Option Socket
  connections : Connections

inductive Action where
  | connect (h : Nat) (workspaceId : Int)
  | socket (h : Nat) (action : SocketAction)
  | publish (workspaceId : Int) (eventType : Str) (payload : List (Str × Json)) (now : Str)

def Effect.apply (effect : Effect) (connections : Connections) (workspaceId : Int) (h : Nat) : Connections :=
  match effect with
  | .nothing => connections
  | .registers => register connections workspaceId h
  | .unregisters => unregister connections workspaceId h

def publishWorkspaceEvent (s : State) (workspaceId : Int) (message : Json) : State where
  sockets h :=
    if h ∈ subscribers s.connections workspaceId then
      (s.sockets h).map fun socket => { socket with queue := offer message socket.queue }
    else s.sockets h
  connections := s.connections

def step (s : State) : Action → Option State
  | .connect h workspaceId =>
    if (s.sockets h).isNone then
      some { s with sockets := Function.update s.sockets h (some ⟨workspaceId, [], .accepting⟩) }
    else none
  | .socket h action =>
    (s.sockets h).bind fun socket =>
      (socket.next socket.phase action).map fun (after, effect) =>
        { sockets := Function.update s.sockets h (some after)
          connections := effect.apply s.connections socket.workspaceId h }
  | .publish workspaceId eventType payload now =>
    some (publishWorkspaceEvent s workspaceId (eventMessage workspaceId now eventType payload))

def machine : Machine State Action where
  init := ⟨fun _ => none, Dict.empty⟩
  step := step

section Map

variable {connections : Connections} {workspaceId : Int} {h : Nat}

theorem mem_subscribers_register (w : Int) (k : Nat) :
    k ∈ subscribers (register connections workspaceId h) w ↔
      k ∈ subscribers connections w ∨ w = workspaceId ∧ k = h := by
  unfold register subscribers
  rw [Dict.get?_set]
  by_cases same : w = workspaceId
  · rw [if_pos same, Option.getD_some, List.mem_insert_iff, same]
    simp [or_comm]
  · simp [same]

theorem get?_unregister (w : Int) :
    (unregister connections workspaceId h).get? w =
      if w = workspaceId then
        if (subscribers connections workspaceId).filter (· ≠ h) = [] then none
        else some ((subscribers connections workspaceId).filter (· ≠ h))
      else connections.get? w := by
  unfold unregister
  by_cases empty : (subscribers connections workspaceId).filter (· ≠ h) = []
  · simp only [if_pos empty, Dict.get?_erase, Dict.get?_set]
    split_ifs <;> rfl
  · simp only [if_neg empty, Dict.get?_set]

theorem mem_subscribers_unregister (w : Int) (k : Nat) :
    k ∈ subscribers (unregister connections workspaceId h) w ↔
      k ∈ subscribers connections w ∧ ¬ (w = workspaceId ∧ k = h) := by
  rw [subscribers, get?_unregister]
  by_cases same : w = workspaceId
  · have filtered : k ∈ (subscribers connections workspaceId).filter (· ≠ h) ↔
        k ∈ subscribers connections workspaceId ∧ k ≠ h := by simp
    rw [if_pos same, same]
    split_ifs with empty
    · rw [empty] at filtered
      simpa using filtered
    · simp
  · simp [same, subscribers]

end Map

end ClaudeProxy.Realtime

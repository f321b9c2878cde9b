import ClaudeProxy.Api.WorkspaceEvents
import ClaudeProxy.Realtime.SlowSubscriber

namespace ClaudeProxy.Realtime

open Kit
open Api (Database WorkspaceView WorkspaceEvent)

/-- The tables and the subscribers of one process. -/
structure Server where
  database : Database
  realtime : State

inductive ServerAction where
  | request (now : Automation.Time) (req : Api.Request) (stamp : Str)
  | realtime (action : Action)

/-- The event of a request that succeeds. -/
def published (r : Api.Runtime) (now : Automation.Time) (db : Database) (req : Api.Request) : Option WorkspaceEvent :=
  (Api.route r req).bind fun call =>
    match db.run r now call with
    | .ok _ => db.eventOf r now call
    | .error _ => none

def broadcast (stamp : Str) (s : State) : Option WorkspaceEvent → State
  | some event =>
    publishWorkspaceEvent s event.workspaceId (eventMessage event.workspaceId stamp event.eventType event.payload)
  | none => s

/-- The other publishers have event types of their own. -/
def Action.foreign : Action → Bool
  | .publish _ eventType payload _ => (Api.told eventType payload).isNone
  | _ => true

/-- Nothing is awaited between the end of a request's transaction and its event. -/
def Server.step (r : Api.Runtime) (s : Server) : ServerAction → Option Server
  | .request now req stamp => (Api.apiStep r s.database now req).map fun db =>
    ⟨db, broadcast stamp s.realtime (published r now s.database req)⟩
  | .realtime action =>
    if action.foreign then (machine.step s.realtime action).map fun after => ⟨s.database, after⟩ else none

def server (r : Api.Runtime) : Machine Server ServerAction where
  init := ⟨.empty, machine.init⟩
  step := Server.step r

/-- The client event that the receiver of a handler has in hand. -/
def Socket.inHand (socket : Socket) : Option Json :=
  match socket.phase with
  | .serving _ (.handling event) | .serving _ (.putting event) => some event
  | _ => none

/-- What a message tells its reader. -/
def receive (view : WorkspaceView) : Json → WorkspaceView
  | .object members =>
    match Json.getMember "type".toList members, Json.getMember "event_type".toList members,
      Json.getMember "payload".toList members with
    | some (.string kind), some (.string eventType), some (.object payload) =>
      if kind = "event".toList then view.apply eventType payload else view
    | _, _, _ => view
  | _ => view

/-- The workspace as it stood when the subscriber joined, and all that came into its queue since. -/
structure Mirror where
  joined : WorkspaceView
  ledger : Backlog Json

namespace Mirror

variable (h : Nat) (s : Server) (mirror : Mirror)

def offered (workspaceId : Int) (message : Json) : Mirror :=
  if h ∈ subscribers s.realtime.connections workspaceId then
    { mirror with ledger := mirror.ledger.offer queueMaxSize message }
  else mirror

def heard (stamp : Str) : Option WorkspaceEvent → Mirror
  | some event =>
    mirror.offered h s event.workspaceId (eventMessage event.workspaceId stamp event.eventType event.payload)
  | none => mirror

def moved (socket : Socket) : SocketAction → Mirror
  | .accepted (.ok _) => { mirror with joined := s.database.view socket.workspaceId }
  | .sender .get => { mirror with ledger := mirror.ledger.take }
  | .receiver .put =>
    match socket.inHand with
    | some event => { mirror with ledger := mirror.ledger.offer queueMaxSize event }
    | none => mirror
  | _ => mirror

def note (r : Api.Runtime) : ServerAction → Mirror
  | .request now req stamp => mirror.heard h s stamp (published r now s.database req)
  | .realtime (.publish workspaceId eventType payload now) =>
    mirror.offered h s workspaceId (eventMessage workspaceId now eventType payload)
  | .realtime (.socket k action) =>
    match s.realtime.sockets h with
    | some socket => if k = h then mirror.moved s socket action else mirror
    | none => mirror
  | .realtime (.connect ..) => mirror

end Mirror

def mirrored (r : Api.Runtime) (h : Nat) : Machine (Server × Mirror) ServerAction :=
  (server r).watch ⟨⟨none, [], []⟩, .empty⟩ fun s action mirror => mirror.note h s r action

section Sockets

variable {socket after : Socket} {action : SocketAction} {effect : Effect}

/-- What a step of a handler means to its mirror. -/
inductive MirrorStep (socket after : Socket) : SocketAction → Effect → Prop where
  | joins (done : Unit) (fresh : socket.phase = .accepting) (same : after.queue = socket.queue) :
      MirrorStep socket after (.accepted (.ok done)) .registers
  | takes (message : Json) (oldest : socket.queue = message :: after.queue) : MirrorStep socket after (.sender .get) .nothing
  | puts (event : Json) (held : socket.inHand = some event) (room : socket.queue.length < queueMaxSize)
      (last : after.queue = socket.queue ++ [event]) : MirrorStep socket after (.receiver .put) .nothing
  | rests (action : SocketAction) (effect : Effect) (same : after.queue = socket.queue) (other : effect ≠ .registers)
      (silent : ∀ s mirror, Mirror.moved s mirror socket action = mirror) : MirrorStep socket after action effect

theorem mirrorStep_of_next (taken : socket.next socket.phase action = some (after, effect)) :
    MirrorStep socket after action effect := by
  generalize phase_eq : socket.phase = phase at taken
  match phase, action with
  | .accepting, .accepted (.ok _) =>
    cases taken
    exact .joins () phase_eq rfl
  | .accepting, .accepted (.error _) | .greeting, .greeted (.ok _) | .greeting, .greeted (.error _)
  | .serving _ _, .cancel =>
    cases taken
    exact .rests _ _ rfl (by simp) fun _ _ => rfl
  | .serving sender receiver, .sender act =>
    obtain ⟨⟨_, queue⟩, moves, eq⟩ := Option.map_eq_some_iff.mp taken
    cases eq
    cases sender_next_queue moves with
    | get message gets oldest =>
      cases gets
      exact .takes message oldest
    | put event puts => cases puts
    | stays other same =>
      refine .rests _ _ same (by simp) fun _ _ => ?_
      cases act with
      | get => exact absurd rfl other
      | _ => rfl
  | .serving sender receiver, .receiver act =>
    obtain ⟨⟨_, queue⟩, moves, eq⟩ := Option.map_eq_some_iff.mp taken
    cases eq
    match receiver, act with
    | .putting event, .put =>
      rw [Receiver.next] at moves
      split_ifs at moves with room
      cases moves
      exact .puts event (by rw [Socket.inHand, phase_eq]) room rfl
    | .receiving, .received (.ok data) _ =>
      rw [Receiver.next] at moves
      split at moves
      all_goals
        cases moves
        exact .rests _ _ rfl (by simp) fun _ _ => rfl
    | .receiving, .received (.error _) _ | .handling _, .handled | .handling _, .cancel | .putting _, .cancel =>
      cases moves
      exact .rests _ _ rfl (by simp) fun _ _ => rfl
  | .serving sender receiver, .wake first =>
    by_cases returns : waitReturns sender receiver = true
    · simp only [Socket.next, returns, if_true] at taken
      obtain ⟨failure, -, eq⟩ := Option.map_eq_some_iff.mp taken
      cases eq
      exact .rests _ _ rfl (by simp) fun _ _ => rfl
    · simp [Socket.next, returns] at taken

theorem started_of_next (taken : socket.next socket.phase action = some (after, effect)) : after.phase ≠ .accepting := by
  generalize socket.phase = phase at taken
  match phase, action with
  | .accepting, .accepted (.ok _) | .accepting, .accepted (.error _) | .greeting, .greeted (.ok _)
  | .greeting, .greeted (.error _) | .serving _ _, .cancel =>
    cases taken
    simp
  | .serving sender receiver, .sender act | .serving sender receiver, .receiver act =>
    obtain ⟨_, -, eq⟩ := Option.map_eq_some_iff.mp taken
    cases eq
    simp
  | .serving sender receiver, .wake first =>
    by_cases returns : waitReturns sender receiver = true
    · simp only [Socket.next, returns, if_true] at taken
      obtain ⟨failure, -, eq⟩ := Option.map_eq_some_iff.mp taken
      cases eq
      simp
    · simp [Socket.next, returns] at taken

/-- An event that tells nothing of the workspace. -/
def Silent (event : Json) : Prop := ∀ view, receive view event = view

theorem silent_clientEvent (workspaceId : Int) (now : Str) (payload : Json) :
    Silent (clientEvent workspaceId now payload) := by
  intro view
  rfl

theorem inHand_receiver {workspaceId : Int} {receiver next : Receiver} {queue left : List Json} {act : ReceiverAction}
    {sender : Sender} (moves : receiver.next workspaceId queue act = some (next, left))
    (silent : ∀ event, (⟨workspaceId, queue, .serving sender receiver⟩ : Socket).inHand = some event → Silent event) :
    ∀ event, (⟨workspaceId, left, .serving sender next⟩ : Socket).inHand = some event → Silent event := by
  match receiver, act with
  | .receiving, .received (.ok data) now =>
    rw [Receiver.next] at moves
    split at moves
    · rename_i payload decoded
      cases moves
      intro event held
      cases held
      exact silent_clientEvent workspaceId now payload
    · cases moves
      intro event held
      cases held
  | .receiving, .received (.error _) _ | .handling _, .cancel | .putting _, .cancel =>
    cases moves
    intro event held
    cases held
  | .handling event, .handled =>
    cases moves
    exact silent
  | .putting event, .put =>
    rw [Receiver.next] at moves
    split_ifs at moves
    cases moves
    intro event held
    cases held

theorem inHand_of_next (taken : socket.next socket.phase action = some (after, effect))
    (silent : ∀ event, socket.inHand = some event → Silent event) : ∀ event, after.inHand = some event → Silent event := by
  obtain ⟨workspaceId, queue, phase⟩ := socket
  match phase, action with
  | .accepting, .accepted (.ok _) | .accepting, .accepted (.error _) | .greeting, .greeted (.ok _)
  | .greeting, .greeted (.error _) | .serving _ _, .cancel =>
    cases taken
    intro event held
    cases held
  | .serving sender receiver, .sender act =>
    obtain ⟨⟨_, queue⟩, -, eq⟩ := Option.map_eq_some_iff.mp taken
    cases eq
    cases receiver <;> exact silent
  | .serving sender receiver, .receiver act =>
    obtain ⟨⟨_, queue⟩, moves, eq⟩ := Option.map_eq_some_iff.mp taken
    cases eq
    exact inHand_receiver moves silent
  | .serving sender receiver, .wake first =>
    by_cases returns : waitReturns sender receiver = true
    · simp only [Socket.next, returns, if_true] at taken
      obtain ⟨failure, -, eq⟩ := Option.map_eq_some_iff.mp taken
      cases eq
      intro event held
      cases held
    · simp [Socket.next, returns] at taken

end Sockets

section Runs

variable {r : Api.Runtime} {h : Nat} {s next : Server} {mirror : Mirror}

/-- The mirror has the queue's history, and all of it together gives the workspace as it stands. -/
structure Faithful (h : Nat) (s : Server) (mirror : Mirror) : Prop where
  sound : s.database.Sound
  bounded : Bounded s.realtime
  silent : ∀ k socket, s.realtime.sockets k = some socket → ∀ event, socket.inHand = some event → Silent event
  queue : queueOf s.realtime h = mirror.ledger.queue
  kept : mirror.ledger.Kept queueMaxSize
  waiting : (∀ socket, s.realtime.sockets h = some socket → socket.phase = .accepting) → mirror.ledger = .empty
  current : ∀ w, h ∈ subscribers s.realtime.connections w →
    mirror.ledger.offered.foldl receive mirror.joined = s.database.view w

theorem faithful_init : Faithful h (server r).init ⟨⟨none, [], []⟩, .empty⟩ where
  sound := Database.sound_empty
  bounded := bounded_init
  silent k socket found := by cases found
  queue := rfl
  kept := Backlog.kept_empty
  waiting _ := rfl
  current w mem := absurd mem List.not_mem_nil

theorem workspace_of_mem (bounded : Bounded s.realtime) {w : Int} (mem : h ∈ subscribers s.realtime.connections w) :
    ∃ socket, s.realtime.sockets h = some socket ∧ socket.workspaceId = w ∧ socket.phase ≠ .accepting := by
  obtain ⟨leaked, account⟩ := bounded.known
  obtain ⟨socket, found, same, standing⟩ := (account.registered w h).mp mem
  refine ⟨socket, found, same, fun fresh => ?_⟩
  rcases standing with registered | lost
  · rw [fresh] at registered
    cases registered
  · obtain ⟨other, there, ended⟩ := account.ended h lost
    rw [found] at there
    cases there
    rw [fresh] at ended
    cases ended

theorem publish_socket (s : State) (w : Int) (message : Json) (k : Nat) :
    ∃ change : Socket → Socket, (∀ socket, (change socket).phase = socket.phase ∧ (change socket).inHand = socket.inHand) ∧
      (publishWorkspaceEvent s w message).sockets k = (s.sockets k).map change := by
  by_cases there : k ∈ subscribers s.connections w
  · exact ⟨fun socket => { socket with queue := offer message socket.queue }, fun _ => ⟨rfl, rfl⟩, if_pos there⟩
  · exact ⟨id, fun _ => ⟨rfl, rfl⟩, by rw [Option.map_id]; exact if_neg there⟩

/-- A message is published that tells what has happened to the tables. -/
theorem faithful_publish (faithful : Faithful h s mirror) {db : Database} (sound : db.Sound) {place : Int}
    {eventType now : Str} {payload : List (Str × Json)}
    (tells : ∀ w, db.view w =
      if place = w then (s.database.view w).apply eventType payload else s.database.view w) :
    Faithful h ⟨db, publishWorkspaceEvent s.realtime place (eventMessage place now eventType payload)⟩
      (mirror.offered h s place (eventMessage place now eventType payload)) := by
  have moved : machine.step s.realtime (.publish place eventType payload now) =
      some (publishWorkspaceEvent s.realtime place (eventMessage place now eventType payload)) := rfl
  have bounded := bounded_step faithful.bounded moved
  generalize sent : eventMessage place now eventType payload = message at bounded moved ⊢
  have told : ∀ view, receive view message = view.apply eventType payload := fun view => by rw [← sent]; rfl
  have silent : ∀ k socket, (publishWorkspaceEvent s.realtime place message).sockets k = some socket →
      ∀ event, socket.inHand = some event → Silent event := by
    intro k socket found event held
    obtain ⟨change, same, sockets⟩ := publish_socket s.realtime place message k
    rw [sockets] at found
    obtain ⟨before, there, rfl⟩ := Option.map_eq_some_iff.mp found
    exact faithful.silent k before there event ((same before).2 ▸ held)
  by_cases here : h ∈ subscribers s.realtime.connections place
  · obtain ⟨socket, found, home, running⟩ := workspace_of_mem faithful.bounded here
    have queue : queueOf (publishWorkspaceEvent s.realtime place message) h = offer message (queueOf s.realtime h) := by
      rw [queueOf_publish (Option.isSome_iff_exists.mpr ⟨socket, found⟩), if_pos here]
    rw [Mirror.offered, if_pos here]
    refine ⟨sound, bounded, silent, ?_, Backlog.kept_offer faithful.kept (by decide) message, ?_, ?_⟩
    · show queueOf (publishWorkspaceEvent s.realtime place message) h = _
      rw [queue, faithful.queue, Backlog.queue_offer faithful.kept]
      rfl
    · intro fresh
      obtain ⟨change, same, sockets⟩ := publish_socket s.realtime place message h
      have there : (publishWorkspaceEvent s.realtime place message).sockets h = some (change socket) := by
        rw [sockets, found]
        rfl
      exact absurd ((same socket).1.symm.trans (fresh _ there)) running
    · intro w mem
      obtain ⟨other, there, home', -⟩ := workspace_of_mem faithful.bounded (show h ∈ subscribers s.realtime.connections w from mem)
      rw [found] at there
      cases there
      have one : place = w := home.symm.trans home'
      show (mirror.ledger.offer queueMaxSize message).offered.foldl receive mirror.joined = db.view w
      rw [Backlog.offered_offer, List.foldl_append, faithful.current w mem, tells, if_pos one]
      exact told _
  · have same : (publishWorkspaceEvent s.realtime place message).sockets h = s.realtime.sockets h := if_neg here
    rw [Mirror.offered, if_neg here]
    refine ⟨sound, bounded, silent, ?_, faithful.kept, ?_, ?_⟩
    · exact (queueOf_congr same).trans faithful.queue
    · intro fresh
      exact faithful.waiting fun socket found => fresh socket (same.trans found)
    · intro w mem
      have apart : place ≠ w := fun one => here (one ▸ mem)
      rw [tells, if_neg apart]
      exact faithful.current w mem

theorem apiStep_view {db after : Database} {now : Automation.Time} {req : Api.Request} (sound : db.Sound)
    (taken : Api.apiStep r db now req = some after) (w : Int) :
    after.view w = (db.view w).heard w (published r now db req) := by
  obtain ⟨call, routed, same⟩ := Option.map_eq_some_iff.mp taken
  unfold published
  rw [routed, Option.bind_some]
  cases ran : db.run r now call with
  | error e =>
    rw [ran] at same
    rw [← same]
    rfl
  | ok outcome =>
    rw [ran] at same
    rw [← same]
    exact Api.view_of_effect sound (Api.effect_of_run ran)

theorem faithful_request (faithful : Faithful h s mirror) {now : Automation.Time} {req : Api.Request} {stamp : Str}
    (taken : Server.step r s (.request now req stamp) = some next) :
    Faithful h next (mirror.note h s r (.request now req stamp)) := by
  obtain ⟨db, ran, rfl⟩ := Option.map_eq_some_iff.mp taken
  have sound := (Api.apiStep_sound faithful.sound ran).1
  have view := apiStep_view faithful.sound ran
  show Faithful h ⟨db, broadcast stamp s.realtime (published r now s.database req)⟩
    (mirror.heard h s stamp (published r now s.database req))
  cases event : published r now s.database req with
  | none =>
    rw [event] at view
    exact { faithful with sound := sound, current := fun w mem => (faithful.current w mem).trans (view w).symm }
  | some told =>
    rw [event] at view
    exact faithful_publish faithful sound view

theorem faithful_connect (faithful : Faithful h s mirror) {k : Nat} {place : Int} {after : State}
    (taken : machine.step s.realtime (.connect k place) = some after) : Faithful h ⟨s.database, after⟩ mirror := by
  have bounded := bounded_step faithful.bounded taken
  have queue := queueOf_connect taken h
  have shape := taken
  simp only [machine, step] at shape
  split_ifs at shape with fresh
  cases shape
  refine ⟨faithful.sound, bounded, ?_, queue.trans faithful.queue, faithful.kept, ?_, faithful.current⟩
  · intro j socket found event held
    by_cases same : j = k
    · subst same
      cases (Function.update_self ..).symm.trans found
      cases held
    · exact faithful.silent j socket ((Function.update_of_ne same ..).symm.trans found) event held
  · intro accepting
    refine faithful.waiting fun socket found => ?_
    by_cases same : h = k
    · subst same
      rw [found] at fresh
      cases fresh
    · exact accepting socket ((Function.update_of_ne same ..).trans found)

theorem note_socket {k : Nat} {action : SocketAction} {socket : Socket} (found : s.realtime.sockets k = some socket) :
    mirror.note h s r (.realtime (.socket k action)) = if k = h then mirror.moved s socket action else mirror := by
  by_cases same : k = h
  · subst same
    rw [Mirror.note, found]
  · rw [if_neg same, Mirror.note]
    cases s.realtime.sockets h with
    | none => rfl
    | some _ => exact if_neg same

theorem silent_socket (faithful : Faithful h s mirror) {k : Nat} {socket after : Socket} {action : SocketAction} {effect : Effect}
    (found : s.realtime.sockets k = some socket) (moved : socket.next socket.phase action = some (after, effect)) :
    ∀ j other, Function.update s.realtime.sockets k (some after) j = some other →
      ∀ event, other.inHand = some event → Silent event := by
  intro j other there event held
  by_cases same : j = k
  · subst same
    cases (Function.update_self ..).symm.trans there
    exact inHand_of_next moved (faithful.silent j socket found) event held
  · exact faithful.silent j other ((Function.update_of_ne same ..).symm.trans there) event held

theorem mem_of_apply {effect : Effect} (other : effect ≠ .registers) {connections : Connections} {place w : Int}
    (mem : h ∈ subscribers (effect.apply connections place h) w) : h ∈ subscribers connections w := by
  cases effect with
  | nothing => exact mem
  | registers => exact absurd rfl other
  | unregisters => exact (mem_subscribers_unregister w h |>.mp mem).1

theorem faithful_own (faithful : Faithful h s mirror) {action : SocketAction} {after : State}
    (taken : machine.step s.realtime (.socket h action) = some after) {socket : Socket}
    (found : s.realtime.sockets h = some socket) : Faithful h ⟨s.database, after⟩ (mirror.moved s socket action) := by
  have bounded := bounded_step faithful.bounded taken
  obtain ⟨socket', found', rest⟩ := Option.bind_eq_some_iff.mp taken
  cases found.symm.trans found'
  obtain ⟨⟨next, effect⟩, moved, eq⟩ := Option.map_eq_some_iff.mp rest
  cases eq
  have there : (Function.update s.realtime.sockets h (some next)) h = some next := Function.update_self ..
  have silent := silent_socket faithful found moved
  have before : socket.queue = mirror.ledger.queue := (queueOf_of found).symm.trans faithful.queue
  have waiting : (∀ socket, Function.update s.realtime.sockets h (some next) h = some socket → socket.phase = .accepting) →
      (mirror.moved s socket action).ledger = .empty := fun fresh => absurd (fresh next there) (started_of_next moved)
  have queue {ledger : Backlog Json} (same : next.queue = ledger.queue) :
      queueOf ⟨Function.update s.realtime.sockets h (some next), effect.apply s.realtime.connections socket.workspaceId h⟩ h =
        ledger.queue := (queueOf_of there).trans same
  cases mirrorStep_of_next moved with
  | joins done fresh same =>
    refine ⟨faithful.sound, bounded, silent, queue (same.trans before), faithful.kept, waiting, ?_⟩
    intro w mem
    obtain ⟨other, here, home, -⟩ := workspace_of_mem bounded mem
    cases there.symm.trans here
    have none : mirror.ledger = .empty := by
      refine faithful.waiting fun other here => ?_
      cases found.symm.trans here
      exact fresh
    show mirror.ledger.offered.foldl receive (s.database.view socket.workspaceId) = s.database.view w
    rw [none, ← home, (socket_next_kind moved).1]
    rfl
  | takes message oldest =>
    have items : mirror.ledger.queue = message :: next.queue := before.symm.trans oldest
    refine ⟨faithful.sound, bounded, silent, queue ?_, Backlog.kept_take faithful.kept, waiting, ?_⟩
    · show next.queue = mirror.ledger.take.queue
      rw [Backlog.queue_take, items]
      rfl
    · intro w mem
      show mirror.ledger.take.offered.foldl receive mirror.joined = s.database.view w
      rw [Backlog.offered_take]
      exact faithful.current w mem
  | puts event held room last =>
    have moves : mirror.moved s socket (.receiver .put) =
        { mirror with ledger := mirror.ledger.offer queueMaxSize event } := by rw [Mirror.moved, held]
    rw [moves] at waiting ⊢
    refine ⟨faithful.sound, bounded, silent, queue ?_, Backlog.kept_offer faithful.kept (by decide) event, waiting, ?_⟩
    · show next.queue = (mirror.ledger.offer queueMaxSize event).queue
      rw [Backlog.queue_offer faithful.kept, ← before, if_pos room]
      exact last
    · intro w mem
      show (mirror.ledger.offer queueMaxSize event).offered.foldl receive mirror.joined = s.database.view w
      rw [Backlog.offered_offer, List.foldl_append, faithful.current w mem]
      exact faithful.silent h socket found event held _
  | rests action effect same other silent' =>
    rw [silent']
    refine ⟨faithful.sound, bounded, silent, queue (same.trans before), faithful.kept, ?_, ?_⟩
    · intro fresh
      exact absurd (fresh next there) (started_of_next moved)
    · intro w mem
      exact faithful.current w (mem_of_apply other mem)

theorem faithful_socket (faithful : Faithful h s mirror) {k : Nat} {action : SocketAction} {after : State}
    (taken : machine.step s.realtime (.socket k action) = some after) :
    Faithful h ⟨s.database, after⟩ (mirror.note h s r (.realtime (.socket k action))) := by
  have bounded := bounded_step faithful.bounded taken
  obtain ⟨socket, found, rest⟩ := Option.bind_eq_some_iff.mp taken
  rw [note_socket found]
  by_cases same : k = h
  · subst same
    rw [if_pos rfl]
    exact faithful_own faithful taken found
  · rw [if_neg same]
    have queue := (queueOf_socket taken).2 h (Ne.symm same)
    have others := undisturbed s.realtime (.socket k action) after taken
    obtain ⟨⟨next, effect⟩, moved, eq⟩ := Option.map_eq_some_iff.mp rest
    cases eq
    refine ⟨faithful.sound, bounded, silent_socket faithful found moved, queue.trans faithful.queue, faithful.kept, ?_, ?_⟩
    · intro fresh
      exact faithful.waiting fun other there => fresh other ((Function.update_of_ne (Ne.symm same) ..).trans there)
    · intro w mem
      exact faithful.current w ((others w h fun one => same (Option.some.inj one)).mp mem)

theorem faithful_step {action : ServerAction} (faithful : Faithful h s mirror) (taken : (server r).step s action = some next) :
    Faithful h next (mirror.note h s r action) := by
  match action with
  | .request now req stamp => exact faithful_request faithful taken
  | .realtime action =>
    have shape : (if action.foreign then (machine.step s.realtime action).map fun after => Server.mk s.database after else none) =
        some next := taken
    split_ifs at shape with foreign
    obtain ⟨after, moved, rfl⟩ := Option.map_eq_some_iff.mp shape
    match action with
    | .connect k place => exact faithful_connect faithful moved
    | .socket k action => exact faithful_socket faithful moved
    | .publish place eventType payload now =>
      cases moved
      refine faithful_publish faithful faithful.sound fun w => ?_
      have unknown : Api.told eventType payload = none := Option.isNone_iff_eq_none.mp foreign
      have same : (s.database.view w).apply eventType payload = s.database.view w := by
        rw [WorkspaceView.apply, unknown]
        rfl
      rw [same, ite_self]

theorem faithful_of_reachable {state : Server × Mirror} (reached : (mirrored r h).Reachable state) :
    Faithful h state.1 state.2 := by
  have start : Faithful h (mirrored r h).init.1 (mirrored r h).init.2 := @faithful_init r h
  refine @Machine.ReachableUnder.invariant _ _ (mirrored r h) _ (fun state => Faithful h state.1 state.2) start ?_ state reached
  intro state action next faithful _ taken
  obtain ⟨moved, noted⟩ := Machine.watch_step.mp taken
  rw [noted]
  exact faithful_step faithful moved

/-- Who knows a workspace as it stood when its subscriber joined knows it at any time from what has come in since. -/
theorem workspace_mirrored (r : Api.Runtime) (h : Nat) {s : Server} {mirror : Mirror}
    (reached : (mirrored r h).Reachable (s, mirror)) {w : Int} (there : h ∈ subscribers s.realtime.connections w) :
    mirror.ledger.offered.foldl receive mirror.joined = s.database.view w ∧
      (mirror.ledger.dropped = [] →
        (mirror.ledger.taken.map Prod.snd ++ queueOf s.realtime h).foldl receive mirror.joined = s.database.view w) := by
  have faithful := faithful_of_reachable reached
  refine ⟨faithful.current w there, fun lossless => ?_⟩
  rw [faithful.queue, faithful.kept.whole lossless]
  exact faithful.current w there

end Runs

/-- One of two tasks is deleted while the client looks on. -/
def watchedWorkspace : List ServerAction :=
  [.request 0 (Api.createWorkspaceRequest "team") "0".toList, .request 1 (Api.createTaskRequest "report") "1".toList,
    .realtime (.connect 0 1), .realtime (.socket 0 (.accepted (.ok ()))), .realtime (.socket 0 (.greeted (.ok ()))),
    .request 2 (Api.createTaskRequest "review") "2".toList, .realtime (.socket 0 (.sender .get)),
    .request 3 { Api.deleteTaskFive "1" [] with path := Api.tasksPath ++ "/1".toList } "3".toList]

theorem workspace_mirrored_watched :
    let state := ((mirrored Api.plainRuntime 0).run (mirrored Api.plainRuntime 0).init watchedWorkspace).getD
      (mirrored Api.plainRuntime 0).init
    state.2.ledger.taken.length = 1 ∧ (queueOf state.1.realtime 0).length = 1 ∧
      (state.2.ledger.taken.map Prod.snd ++ queueOf state.1.realtime 0).foldl receive state.2.joined =
        state.1.database.view 1 := by
  intro state
  have reached : (mirrored Api.plainRuntime 0).Reachable state :=
    Machine.reachable_of_run (Machine.eq_some_getD (by decide +kernel) (mirrored Api.plainRuntime 0).init)
  have there : 0 ∈ subscribers state.1.realtime.connections 1 := by decide +kernel
  exact ⟨by decide +kernel, by decide +kernel, (workspace_mirrored Api.plainRuntime 0 reached there).2 (by decide +kernel)⟩

end ClaudeProxy.Realtime

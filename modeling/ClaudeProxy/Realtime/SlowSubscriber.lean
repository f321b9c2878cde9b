import ClaudeProxy.Kit.Backlog
import ClaudeProxy.Realtime.Subscribers

namespace ClaudeProxy.Realtime

open Kit

inductive QueueError where
  | queueEmpty
  | queueFull
deriving DecidableEq

def putNowait (message : Json) (queue : List Json) : Except QueueError (List Json) :=
  if queueMaxSize ≤ queue.length then .error .queueFull else .ok (queue ++ [message])

def getNowait : List Json → Except QueueError (List Json)
  | [] => .error .queueEmpty
  | _ :: rest => .ok rest

/-- `contextlib.suppress` around a call that leaves the queue as it was when it raises -/
def suppress (suppressed : QueueError) (call : List Json → Except QueueError (List Json)) (queue : List Json) :
    Except QueueError (List Json) :=
  match call queue with
  | .ok after => .ok after
  | .error raised => if raised = suppressed then .ok queue else .error raised

/-- The body of the loop in `publish_workspace_event`. -/
def publishTo (message : Json) (queue : List Json) : Except QueueError (List Json) :=
  match putNowait message queue with
  | .error .queueFull => do
    let room ← suppress .queueEmpty getNowait queue
    suppress .queueFull (putNowait message) room
  | result => result

def publishEach (message : Json) : List Nat → (Nat → Option Socket) → Except QueueError (Nat → Option Socket)
  | [], sockets => .ok sockets
  | h :: rest, sockets =>
    match sockets h with
    | none => publishEach message rest sockets
    | some socket => do
      let queue ← publishTo message socket.queue
      publishEach message rest (Function.update sockets h (some { socket with queue := queue }))

def queueOf (s : State) (h : Nat) : List Json := ((s.sockets h).map Socket.queue).getD []

/-- What has been published to a subscriber while it was in the map, what its sender has handed to `send_json`, and the
    history its queue should have. -/
structure Feed where
  published : List Json
  given : List Json
  ledger : Backlog Json

namespace Feed

def empty : Feed := ⟨[], [], .empty⟩

def note (h : Nat) (s : State) (action : Action) (feed : Feed) : Feed :=
  match action with
  | .publish workspaceId eventType payload now =>
    if h ∈ subscribers s.connections workspaceId then
      let message := eventMessage workspaceId now eventType payload
      { feed with published := feed.published ++ [message], ledger := feed.ledger.offer queueMaxSize message }
    else feed
  | .socket k (.sender .get) =>
    if k = h then { feed with given := feed.given ++ (queueOf s h).head?.toList, ledger := feed.ledger.take } else feed
  | _ => feed

end Feed

def watched (h : Nat) : Machine (State × Feed) Action := machine.watch .empty (Feed.note h)

/-- No client event comes into the queue of `h`. -/
def noClientEvents (h : Nat) (_ : State × Feed) : Action → Bool
  | .socket k (.receiver .put) => k ≠ h
  | _ => true

/-- An event is known by its place among the published ones. -/
structure LosesOldest (h : Nat) (s : State) (feed : Feed) : Prop where
  neverRaises : ∀ workspaceId message, publishEach message (subscribers s.connections workspaceId) s.sockets =
    .ok (publishWorkspaceEvent s workspaceId message).sockets
  enqueues : ∀ workspaceId message, h ∈ subscribers s.connections workspaceId →
    ∃ older, queueOf (publishWorkspaceEvent s workspaceId message) h = older ++ [message]
  given : feed.given = feed.ledger.taken.map Prod.snd
  named : ∀ entry ∈ feed.ledger.taken, feed.published[entry.1]? = some entry.2
  inOrder : feed.ledger.taken.Pairwise fun first second => first.1 < second.1
  subsequence : feed.given.Sublist feed.published
  contiguous : queueOf s h = feed.published.drop feed.ledger.gone
  late : ∀ i < feed.ledger.gone, i ∉ feed.ledger.taken.map Prod.fst → i + queueMaxSize < feed.published.length

section Publishing

variable {message : Json} {queue : List Json}

theorem offer_short (short : queue.length ≤ queueMaxSize) : (offer message queue).length ≤ queueMaxSize := by
  unfold offer
  split_ifs with room
  · rw [List.length_append]
    exact room
  · rw [List.length_append, List.length_tail, List.length_singleton]
    have positive : 0 < queueMaxSize := by decide
    omega

theorem offer_last (message : Json) (queue : List Json) : ∃ older, offer message queue = older ++ [message] := by
  unfold offer
  split_ifs
  · exact ⟨queue, rfl⟩
  · exact ⟨queue.tail, rfl⟩

/-- Both exceptions are spent on the way to one free place. -/
theorem publishTo_eq (short : queue.length ≤ queueMaxSize) : publishTo message queue = .ok (offer message queue) := by
  by_cases room : queue.length < queueMaxSize
  · have put : putNowait message queue = .ok (queue ++ [message]) := if_neg (Nat.not_le.mpr room)
    rw [publishTo, put, offer, if_pos room]
  · have full : putNowait message queue = .error .queueFull := if_pos (Nat.not_lt.mp room)
    rw [publishTo, full, offer, if_neg room]
    cases queue with
    | nil => exact absurd (by decide) room
    | cons oldest rest =>
      have freed : suppress .queueEmpty getNowait (oldest :: rest) = .ok rest := rfl
      have put : putNowait message rest = .ok (rest ++ [message]) := if_neg (Nat.not_le.mpr short)
      show (suppress .queueEmpty getNowait (oldest :: rest)).bind (suppress .queueFull (putNowait message)) = _
      rw [freed]
      show suppress .queueFull (putNowait message) rest = _
      rw [suppress, put]
      rfl

theorem publishEach_eq {hs : List Nat} (nodup : hs.Nodup) {sockets : Nat → Option Socket}
    (short : ∀ h ∈ hs, ∀ socket, sockets h = some socket → socket.queue.length ≤ queueMaxSize) :
    publishEach message hs sockets = .ok fun h =>
      if h ∈ hs then (sockets h).map fun socket => { socket with queue := offer message socket.queue } else sockets h := by
  induction hs generalizing sockets with
  | nil => rfl
  | cons first rest ih =>
    rcases List.nodup_cons.mp nodup with ⟨apart, nodup⟩
    rw [publishEach]
    cases found : sockets first with
    | none =>
      show publishEach message rest sockets = _
      rw [ih nodup fun h mem => short h (List.mem_cons_of_mem first mem)]
      congr 1
      funext h
      by_cases same : h = first
      · simp [same, found]
      · simp [same]
    | some socket =>
      show (publishTo message socket.queue).bind _ = _
      rw [publishTo_eq (short first List.mem_cons_self socket found)]
      show publishEach message rest _ = _
      rw [ih nodup]
      · congr 1
        funext h
        by_cases same : h = first
        · simp [same, found, apart]
        · simp [same]
      · intro h mem other there
        have different : h ≠ first := by
          rintro rfl
          exact apart mem
        rw [Function.update_of_ne different] at there
        exact short h (List.mem_cons_of_mem first mem) other there

end Publishing

section Queues

variable {s next : State} {h : Nat}

/-- What a step of a handler does to its queue. -/
inductive QueueStep (before after : List Json) (action : SocketAction) : Prop where
  | get (message : Json) (gets : action = .sender .get) (oldest : before = message :: after)
  | put (event : Json) (puts : action = .receiver .put) (room : before.length < queueMaxSize)
      (last : after = before ++ [event])
  | stays (other : action ≠ .sender .get) (same : after = before)

theorem sender_next_queue {workspaceId : Int} {sender : Sender} {queue : List Json} {action : SenderAction}
    {result : Sender × List Json} (taken : sender.next workspaceId queue action = some result) :
    QueueStep queue result.2 (.sender action) := by
  match sender, action with
  | .getting, .get =>
    cases queue with
    | nil => cases taken
    | cons message rest =>
      cases taken
      exact .get message rfl rfl
  | .getting, .expire _ | .getting, .cancel | .sending _, .sent (.ok _) _ | .beating _, .sent (.ok _) _
  | .beating _, .sent (.error _) _ =>
    cases taken
    exact .stays (by simp) rfl
  | .sending _, .sent (.error failure) now =>
    rw [Sender.next] at taken
    split_ifs at taken
    · cases taken
      exact .stays (by simp) rfl
    · cases taken
      exact .stays (by simp) rfl

theorem receiver_next_queue {workspaceId : Int} {receiver : Receiver} {queue : List Json} {action : ReceiverAction}
    {result : Receiver × List Json} (taken : receiver.next workspaceId queue action = some result) :
    QueueStep queue result.2 (.receiver action) := by
  match receiver, action with
  | .putting event, .put =>
    rw [Receiver.next] at taken
    split_ifs at taken with room
    cases taken
    exact .put event rfl room rfl
  | .receiving, .received (.ok data) _ =>
    rw [Receiver.next] at taken
    split at taken
    all_goals
      cases taken
      exact .stays (by simp) rfl
  | .receiving, .received (.error _) _ | .handling _, .handled | .handling _, .cancel | .putting _, .cancel =>
    cases taken
    exact .stays (by simp) rfl

theorem socket_next_queue {socket after : Socket} {action : SocketAction} {effect : Effect}
    (taken : socket.next socket.phase action = some (after, effect)) : QueueStep socket.queue after.queue action := by
  generalize socket.phase = phase at taken
  match phase, action with
  | .accepting, .accepted (.ok _) =>
    cases taken
    exact .stays (by simp) rfl
  | .accepting, .accepted (.error _) =>
    cases taken
    exact .stays (by simp) rfl
  | .greeting, .greeted (.ok _) =>
    cases taken
    exact .stays (by simp) rfl
  | .greeting, .greeted (.error _) =>
    cases taken
    exact .stays (by simp) rfl
  | .serving sender receiver, .sender act =>
    rcases Option.map_eq_some_iff.mp taken with ⟨result, moved, eq⟩
    cases eq
    exact sender_next_queue moved
  | .serving sender receiver, .receiver act =>
    rcases Option.map_eq_some_iff.mp taken with ⟨result, moved, eq⟩
    cases eq
    exact receiver_next_queue moved
  | .serving sender receiver, .wake first =>
    by_cases returns : waitReturns sender receiver = true
    · simp only [Socket.next, returns, if_true] at taken
      rcases Option.map_eq_some_iff.mp taken with ⟨failure, -, eq⟩
      cases eq
      exact .stays (by simp) rfl
    · simp [Socket.next, returns] at taken
  | .serving sender receiver, .cancel =>
    cases taken
    exact .stays (by simp) rfl

theorem queueOf_of {socket : Socket} (found : s.sockets h = some socket) : queueOf s h = socket.queue := by
  rw [queueOf, found]
  rfl

theorem queueOf_congr (same : next.sockets h = s.sockets h) : queueOf next h = queueOf s h := by
  rw [queueOf, same, queueOf]

theorem queueOf_connect {k : Nat} {workspaceId : Int} (taken : step s (.connect k workspaceId) = some next) (h : Nat) :
    queueOf next h = queueOf s h := by
  rw [step] at taken
  split_ifs at taken with fresh
  cases taken
  by_cases same : h = k
  · subst same
    have before : queueOf s h = [] := by
      rw [queueOf, Option.isNone_iff_eq_none.mp fresh]
      rfl
    rw [before]
    show ((Function.update s.sockets h (some ⟨workspaceId, [], .accepting⟩) h).map Socket.queue).getD [] = []
    rw [Function.update_self]
    rfl
  · exact queueOf_congr (Function.update_of_ne same ..)

theorem queueOf_socket {k : Nat} {action : SocketAction} (taken : step s (.socket k action) = some next) :
    QueueStep (queueOf s k) (queueOf next k) action ∧ ∀ h, h ≠ k → queueOf next h = queueOf s h := by
  rcases Option.bind_eq_some_iff.mp taken with ⟨socket, found, rest⟩
  rcases Option.map_eq_some_iff.mp rest with ⟨⟨after, effect⟩, moved, eq⟩
  constructor
  · have there : next.sockets k = some after := by
      rw [← eq]
      exact Function.update_self ..
    rw [queueOf_of found, queueOf_of there]
    exact socket_next_queue moved
  · intro h other
    apply queueOf_congr
    rw [← eq]
    exact Function.update_of_ne other ..

theorem queueOf_publish (there : (s.sockets h).isSome = true) (workspaceId : Int) (message : Json) :
    queueOf (publishWorkspaceEvent s workspaceId message) h =
      if h ∈ subscribers s.connections workspaceId then offer message (queueOf s h) else queueOf s h := by
  rcases Option.isSome_iff_exists.mp there with ⟨socket, found⟩
  rw [queueOf_of found]
  split_ifs with mem
  · have offered : (publishWorkspaceEvent s workspaceId message).sockets h =
        some { socket with queue := offer message socket.queue } := by
      rw [publishWorkspaceEvent]
      simp [mem, found]
    exact queueOf_of offered
  · have passed : (publishWorkspaceEvent s workspaceId message).sockets h = some socket := by
      rw [publishWorkspaceEvent]
      simp [mem, found]
    exact queueOf_of passed

/-- The bound of every queue, and the shared map as a map of sets of handlers. -/
structure Bounded (s : State) : Prop where
  short : ∀ h, (queueOf s h).length ≤ queueMaxSize
  nodup : ∀ w, (subscribers s.connections w).Nodup
  known : ∃ leaked, Accounted leaked s

theorem Bounded.there (bounded : Bounded s) {w : Int} (mem : h ∈ subscribers s.connections w) :
    ∃ socket, s.sockets h = some socket := by
  rcases bounded.known with ⟨leaked, account⟩
  rcases (account.registered w h).mp mem with ⟨socket, found, -⟩
  exact ⟨socket, found⟩

theorem bounded_init : Bounded machine.init where
  short _ := Nat.zero_le _
  nodup _ := List.nodup_nil
  known := ⟨[], accounted_init⟩

theorem short_of_step {action : Action} (bounded : Bounded s) (taken : machine.step s action = some next) (h : Nat) :
    (queueOf next h).length ≤ queueMaxSize := by
  have before := bounded.short h
  cases action with
  | connect k workspaceId =>
    rw [queueOf_connect taken h]
    exact before
  | socket k action =>
    rcases queueOf_socket taken with ⟨moves, others⟩
    by_cases same : h = k
    · subst same
      cases moves with
      | get message gets oldest =>
        rw [oldest, List.length_cons] at before
        omega
      | put event puts room last =>
        rw [last, List.length_append]
        exact room
      | stays other same =>
        rw [same]
        exact before
    · rw [others h same]
      exact before
  | publish workspaceId eventType payload now =>
    rw [← Option.some.inj taken]
    cases found : s.sockets h with
    | none =>
      have absent : (publishWorkspaceEvent s workspaceId (eventMessage workspaceId now eventType payload)).sockets h =
          s.sockets h := by
        rw [publishWorkspaceEvent]
        simp [found]
      rw [queueOf_congr absent]
      exact before
    | some socket =>
      rw [queueOf_publish (Option.isSome_iff_exists.mpr ⟨socket, found⟩)]
      split_ifs
      · exact offer_short before
      · exact before

theorem nodup_apply (effect : Effect) {connections : Connections} (nodup : ∀ w, (subscribers connections w).Nodup)
    (workspaceId : Int) (h : Nat) (w : Int) : (subscribers (effect.apply connections workspaceId h) w).Nodup := by
  cases effect with
  | nothing => exact nodup w
  | registers =>
    show (subscribers (register connections workspaceId h) w).Nodup
    rw [subscribers, register, Dict.get?_set]
    split_ifs
    · exact (nodup workspaceId).insert
    · exact nodup w
  | unregisters =>
    show (subscribers (unregister connections workspaceId h) w).Nodup
    rw [subscribers, get?_unregister]
    split_ifs
    · exact List.nodup_nil
    · exact (nodup workspaceId).filter _
    · exact nodup w

theorem nodup_of_step {action : Action} (bounded : Bounded s) (taken : machine.step s action = some next) (w : Int) :
    (subscribers next.connections w).Nodup := by
  cases action with
  | connect k workspaceId =>
    simp only [machine, step] at taken
    split_ifs at taken
    cases taken
    exact bounded.nodup w
  | socket k action =>
    rcases Option.bind_eq_some_iff.mp taken with ⟨socket, -, rest⟩
    rcases Option.map_eq_some_iff.mp rest with ⟨⟨after, effect⟩, -, rfl⟩
    exact nodup_apply effect bounded.nodup _ k w
  | publish workspaceId eventType payload now =>
    rw [← Option.some.inj taken]
    exact bounded.nodup w

theorem bounded_step {action : Action} (bounded : Bounded s) (taken : machine.step s action = some next) :
    Bounded next := by
  rcases bounded.known with ⟨leaked, account⟩
  exact ⟨short_of_step bounded taken, nodup_of_step bounded taken, _, accounted_step account taken⟩

end Queues

section Runs

variable {h : Nat} {s next : State} {feed : Feed}

/-- The queue of the subscriber is the one its history tells of. -/
structure Follows (h : Nat) (s : State) (feed : Feed) : Prop where
  queue : queueOf s h = feed.ledger.queue
  kept : feed.ledger.Kept queueMaxSize
  published : feed.ledger.offered = feed.published
  given : feed.given = feed.ledger.taken.map Prod.snd

theorem follows_init : Follows h machine.init .empty := ⟨rfl, Backlog.kept_empty, rfl, rfl⟩

theorem Follows.same (follows : Follows h s feed) (queue : queueOf next h = queueOf s h) : Follows h next feed :=
  ⟨queue.trans follows.queue, follows.kept, follows.published, follows.given⟩

theorem Follows.offer (follows : Follows h s feed) (message : Json)
    (queue : queueOf next h = offer message (queueOf s h)) :
    Follows h next { feed with
      published := feed.published ++ [message], ledger := feed.ledger.offer queueMaxSize message } := by
  constructor
  · rw [queue, follows.queue, Backlog.queue_offer follows.kept]
    rfl
  · exact Backlog.kept_offer follows.kept (by decide) message
  · rw [Backlog.offered_offer, follows.published]
  · rw [Backlog.taken_offer]
    exact follows.given

theorem Follows.get (follows : Follows h s feed) {message : Json} (queue : queueOf s h = message :: queueOf next h) :
    Follows h next { feed with
      given := feed.given ++ (queueOf s h).head?.toList, ledger := feed.ledger.take } := by
  have items : feed.ledger.queue = message :: queueOf next h := follows.queue.symm.trans queue
  constructor
  · rw [Backlog.queue_take, items]
    rfl
  · exact Backlog.kept_take follows.kept
  · rw [Backlog.offered_take, follows.published]
  · rw [Backlog.taken_take items, List.map_append, queue, follows.given]
    rfl

theorem note_other {k : Nat} {action : SocketAction} (other : ¬ (k = h ∧ action = .sender .get)) :
    feed.note h s (.socket k action) = feed := by
  unfold Feed.note
  split
  · rename_i found
    cases found
  · rename_i found
    cases found
    exact if_neg fun same => other ⟨same, rfl⟩
  · rfl

theorem follows_socket {k : Nat} {action : SocketAction} (follows : Follows h s feed)
    (quiet : noClientEvents h (s, feed) (.socket k action) = true) (taken : step s (.socket k action) = some next) :
    Follows h next (feed.note h s (.socket k action)) := by
  rcases queueOf_socket taken with ⟨moves, others⟩
  by_cases same : k = h
  · subst same
    cases moves with
    | get message gets oldest =>
      subst gets
      rw [Feed.note, if_pos rfl]
      exact follows.get oldest
    | put event puts room last =>
      subst puts
      simp [noClientEvents] at quiet
    | stays other same =>
      rw [note_other fun both => other both.2]
      exact follows.same same
  · rw [note_other fun both => same both.1]
    exact follows.same (others h (Ne.symm same))

theorem follows_step {action : Action} (bounded : Bounded s) (follows : Follows h s feed)
    (quiet : noClientEvents h (s, feed) action = true) (taken : machine.step s action = some next) :
    Follows h next (feed.note h s action) := by
  cases action with
  | connect k workspaceId => exact follows.same (queueOf_connect taken h)
  | socket k action => exact follows_socket follows quiet taken
  | publish workspaceId eventType payload now =>
    rw [← Option.some.inj taken, Feed.note]
    split_ifs with mem
    · rcases bounded.there mem with ⟨socket, found⟩
      apply follows.offer
      rw [queueOf_publish (Option.isSome_iff_exists.mpr ⟨socket, found⟩), if_pos mem]
    · apply follows.same
      apply queueOf_congr
      exact if_neg mem

theorem invariant_of_reached {w : State × Feed} (reached : (watched h).ReachableUnder (noClientEvents h · ·) w) :
    Bounded w.1 ∧ Follows h w.1 w.2 := by
  induction reached with
  | init => exact ⟨bounded_init, follows_init⟩
  | step _ quiet taken ih =>
    rcases Machine.watch_step.mp taken with ⟨moved, noted⟩
    rw [noted]
    exact ⟨bounded_step ih.1 moved, follows_step ih.1 ih.2 quiet moved⟩

theorem losesOldest {w : State × Feed} (reached : (watched h).ReachableUnder (noClientEvents h · ·) w) :
    LosesOldest h w.1 w.2 := by
  rcases invariant_of_reached reached with ⟨bounded, follows⟩
  have short : ∀ k socket, w.1.sockets k = some socket → socket.queue.length ≤ queueMaxSize := by
    intro k socket found
    rw [← queueOf_of found]
    exact bounded.short k
  constructor
  · intro workspaceId message
    exact publishEach_eq (bounded.nodup workspaceId) fun k _ => short k
  · intro workspaceId message mem
    rcases bounded.there mem with ⟨socket, found⟩
    rw [queueOf_publish (Option.isSome_iff_exists.mpr ⟨socket, found⟩), if_pos mem]
    exact offer_last message _
  · exact follows.given
  · intro entry mem
    rw [← follows.published]
    exact (follows.kept.numbered entry mem).2
  · exact follows.kept.increasing
  · rw [follows.given, ← follows.published]
    exact follows.kept.taken_sublist
  · rw [follows.queue, ← follows.published]
    rfl
  · intro i before lost
    rw [← follows.published]
    exact follows.kept.late_of_lost before lost

/-- One event more than the queue holds, before the sender takes its first one. -/
def overflowing : List Action :=
  [.connect 0 7, .socket 0 (.accepted (.ok ())), .socket 0 (.greeted (.ok ()))] ++
    List.replicate 101 (.publish 7 "automation.updated".toList [] "0".toList) ++ [.socket 0 (.sender .get)]

def overflown : State × Feed :=
  ((watched 0).runUnder (noClientEvents 0) (watched 0).init overflowing).getD (watched 0).init

theorem losesOldest_overflown : LosesOldest 0 overflown.1 overflown.2 := by
  have ran : (watched 0).runUnder (noClientEvents 0) (watched 0).init overflowing = some overflown :=
    Machine.eq_some_getD (by decide +kernel) (watched 0).init
  exact losesOldest (Machine.reachableUnder_of_runUnder .init ran)

end Runs

end ClaudeProxy.Realtime

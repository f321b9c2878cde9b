import ClaudeProxy.Realtime.WorkspaceSocket

namespace ClaudeProxy.Realtime

open Kit

/-- The subscriber is in the shared map and the handler has not ended. -/
def Phase.registered : Phase → Bool
  | .greeting | .serving _ _ => true
  | .accepting | .ended _ => false

def Phase.isEnded : Phase → Bool
  | .ended _ => true
  | _ => false

structure Clean (s : State) : Prop where
  removed : ∀ h socket, s.sockets h = some socket → socket.phase.isEnded = true → ∀ w, h ∉ subscribers s.connections w
  kept : ∀ h socket, s.sockets h = some socket → socket.phase.registered = true →
    h ∈ subscribers s.connections socket.workspaceId
  entries : ∀ w found, s.connections.get? w = some found →
    ∃ h ∈ found, ∃ socket, s.sockets h = some socket ∧ socket.workspaceId = w ∧ socket.phase.registered = true

def Action.handler : Action → Option Nat
  | .connect h _ | .socket h _ => some h
  | .publish .. => none

/-- No step of a handler adds or removes the subscriber of another one. -/
def Undisturbed (s : State) : Prop :=
  ∀ action next, machine.step s action = some next → ∀ w k, action.handler ≠ some k →
    (k ∈ subscribers next.connections w ↔ k ∈ subscribers s.connections w)

/-- The greeting of a registered subscriber fails or is cancelled. -/
def SocketAction.failsGreeting : SocketAction → Bool
  | .greeted (.error _) => true
  | _ => false

def failedGreeting : Action → Option Nat
  | .socket h action => if action.failsGreeting then some h else none
  | _ => none

/-- Which subscribers are in the map, with those that are there for ever. -/
structure Accounted (leaked : List Nat) (s : State) : Prop where
  registered : ∀ w h, h ∈ subscribers s.connections w ↔
    ∃ socket, s.sockets h = some socket ∧ socket.workspaceId = w ∧ (socket.phase.registered = true ∨ h ∈ leaked)
  nonempty : ∀ w, s.connections.get? w ≠ some []
  ended : ∀ h ∈ leaked, ∃ socket, s.sockets h = some socket ∧ socket.phase.isEnded = true

theorem not_registered_of_ended {phase : Phase} (ended : phase.isEnded = true) : phase.registered = false := by
  cases phase with
  | ended outcome => rfl
  | accepting => cases ended
  | greeting => cases ended
  | serving sender receiver => cases ended

section Steps

variable {socket after : Socket} {action : SocketAction} {effect : Effect}

/-- What a step of a handler does to its registration. -/
inductive StepKind (before after : Phase) (action : SocketAction) : Effect → Prop where
  | registers (fresh : before.registered = false) (there : after.registered = true)
      (greets : action.failsGreeting = false) : StepKind before after action .registers
  | unregisters (gone : after.registered = false) (greets : action.failsGreeting = false) :
      StepKind before after action .unregisters
  | stays (same : after.registered = before.registered) (greets : action.failsGreeting = false) :
      StepKind before after action .nothing
  | leaks (there : before.registered = true) (ended : after.isEnded = true) (fails : action.failsGreeting = true) :
      StepKind before after action .nothing

theorem socket_next_kind (taken : socket.next socket.phase action = some (after, effect)) :
    after.workspaceId = socket.workspaceId ∧ socket.phase.isEnded = false ∧
      StepKind socket.phase after.phase action effect := by
  generalize phase_eq : socket.phase = phase at taken
  match phase, action with
  | .accepting, .accepted (.ok _) =>
    cases taken
    exact ⟨rfl, rfl, .registers rfl rfl rfl⟩
  | .accepting, .accepted (.error _) =>
    cases taken
    exact ⟨rfl, rfl, .stays rfl rfl⟩
  | .greeting, .greeted (.ok _) =>
    cases taken
    exact ⟨rfl, rfl, .stays rfl rfl⟩
  | .greeting, .greeted (.error _) =>
    cases taken
    exact ⟨rfl, rfl, .leaks rfl rfl rfl⟩
  | .serving sender receiver, .sender act =>
    obtain ⟨_, -, result⟩ := Option.map_eq_some_iff.mp taken
    cases result
    exact ⟨rfl, rfl, .stays rfl rfl⟩
  | .serving sender receiver, .receiver act =>
    obtain ⟨_, -, result⟩ := Option.map_eq_some_iff.mp taken
    cases result
    exact ⟨rfl, rfl, .stays rfl rfl⟩
  | .serving sender receiver, .wake first =>
    by_cases returns : waitReturns sender receiver = true
    · simp only [Socket.next, returns, if_true] at taken
      obtain ⟨_, -, result⟩ := Option.map_eq_some_iff.mp taken
      cases result
      exact ⟨rfl, rfl, .unregisters rfl rfl⟩
    · simp [Socket.next, returns] at taken
  | .serving sender receiver, .cancel =>
    cases taken
    exact ⟨rfl, rfl, .unregisters rfl rfl⟩

theorem mem_apply_of_ne (effect : Effect) (connections : Connections) (workspaceId : Int) {h k : Nat} (other : k ≠ h)
    (w : Int) : k ∈ subscribers (effect.apply connections workspaceId h) w ↔ k ∈ subscribers connections w := by
  cases effect with
  | nothing => rfl
  | registers => simp [Effect.apply, mem_subscribers_register, other]
  | unregisters => simp [Effect.apply, mem_subscribers_unregister, other]

theorem nonempty_apply (effect : Effect) {connections : Connections} (nonempty : ∀ w, connections.get? w ≠ some [])
    (workspaceId : Int) (h : Nat) (w : Int) : (effect.apply connections workspaceId h).get? w ≠ some [] := by
  cases effect with
  | nothing => exact nonempty w
  | registers =>
    show (register connections workspaceId h).get? w ≠ some []
    rw [register, Dict.get?_set]
    split_ifs
    · intro same
      have there : h ∈ (subscribers connections workspaceId).insert h := List.mem_insert_self
      rw [Option.some.inj same] at there
      cases there
    · exact nonempty w
  | unregisters =>
    show (unregister connections workspaceId h).get? w ≠ some []
    rw [get?_unregister]
    split_ifs with same empty
    · exact Option.some_ne_none [] ∘ Eq.symm
    · exact empty ∘ Option.some.inj
    · exact nonempty w

theorem mem_apply_self {before after : Phase} (kind : StepKind before after action effect) {connections : Connections}
    {workspaceId : Int} {h : Nat}
    (account : ∀ w, h ∈ subscribers connections w ↔ workspaceId = w ∧ before.registered = true) (w : Int) :
    h ∈ subscribers (effect.apply connections workspaceId h) w ↔
      workspaceId = w ∧ (after.registered = true ∨ action.failsGreeting = true) := by
  cases kind with
  | registers fresh there greets =>
    show h ∈ subscribers (register connections workspaceId h) w ↔ _
    rw [mem_subscribers_register, account, there]
    simp [fresh, eq_comm (a := w)]
  | unregisters gone greets =>
    show h ∈ subscribers (unregister connections workspaceId h) w ↔ _
    rw [mem_subscribers_unregister, account, gone, greets]
    simp only [and_true, Bool.false_eq_true, or_self, and_false, iff_false]
    rintro ⟨⟨here, -⟩, absent⟩
    exact absent here.symm
  | stays same greets =>
    show h ∈ subscribers connections w ↔ _
    rw [account, same, greets]
    simp
  | leaks there ended fails =>
    show h ∈ subscribers connections w ↔ _
    rw [account, there, fails]
    simp

end Steps

section Runs

variable {leaked : List Nat} {s next : State}

theorem Accounted.handler_free {h : Nat} {socket : Socket} (acc : Accounted leaked s) (found : s.sockets h = some socket)
    (running : socket.phase.isEnded = false) : h ∉ leaked := by
  intro mem
  obtain ⟨other, there, ended⟩ := acc.ended h mem
  rw [found, Option.some.injEq] at there
  rw [← there, running] at ended
  cases ended

theorem accounted_init : Accounted [] machine.init := by
  refine ⟨?_, ?_, ?_⟩
  · intro w h
    apply iff_of_false
    · exact List.not_mem_nil
    · rintro ⟨socket, found, -⟩
      cases found
  · intro w
    exact Option.some_ne_none [] ∘ Eq.symm
  · intro h mem
    cases mem

theorem accounted_connect {h : Nat} {workspaceId : Int} (acc : Accounted leaked s)
    (taken : step s (.connect h workspaceId) = some next) : Accounted leaked next := by
  rw [step] at taken
  split at taken
  · rename_i fresh
    rw [Option.isNone_iff_eq_none] at fresh
    rw [← Option.some.inj taken]
    refine ⟨?_, acc.nonempty, ?_⟩
    · intro w k
      rw [acc.registered w k]
      by_cases same : k = h
      · subst same
        have unleaked : k ∉ leaked := by
          intro mem
          obtain ⟨_, there, -⟩ := acc.ended k mem
          rw [fresh] at there
          cases there
        simp [fresh, unleaked, Phase.registered]
      · simp [Function.update_of_ne same]
    · intro k mem
      obtain ⟨socket, there, ended⟩ := acc.ended k mem
      have other : k ≠ h := by
        rintro rfl
        rw [fresh] at there
        cases there
      exact ⟨socket, (Function.update_of_ne other _ _).trans there, ended⟩
  · cases taken

theorem accounted_socket {h : Nat} {action : SocketAction} (acc : Accounted leaked s)
    (taken : step s (.socket h action) = some next) :
    Accounted (leaked ++ (failedGreeting (.socket h action)).toList) next := by
  obtain ⟨socket, found, rest⟩ := Option.bind_eq_some_iff.mp taken
  obtain ⟨⟨after, effect⟩, moved, rfl⟩ := Option.map_eq_some_iff.mp rest
  obtain ⟨workspace, running, kind⟩ := socket_next_kind moved
  have unleaked := acc.handler_free found running
  have mem_leaked : ∀ k, k ∈ leaked ++ (failedGreeting (.socket h action)).toList ↔
      k ∈ leaked ∨ k = h ∧ action.failsGreeting = true := by
    intro k
    rw [List.mem_append, failedGreeting]
    cases action.failsGreeting <;> simp
  refine ⟨?_, nonempty_apply effect acc.nonempty _ h, ?_⟩
  · intro w k
    by_cases same : k = h
    · subst same
      have account : ∀ w, k ∈ subscribers s.connections w ↔ socket.workspaceId = w ∧ socket.phase.registered = true := by
        intro w
        rw [acc.registered w k]
        simp [found, unleaked]
      rw [mem_apply_self kind account w]
      simp [mem_leaked, workspace, unleaked]
    · rw [mem_apply_of_ne effect _ _ same, acc.registered w k]
      simp [mem_leaked, same]
  · intro k mem
    rcases (mem_leaked k).mp mem with old | ⟨rfl, fails⟩
    · obtain ⟨before, there, ended⟩ := acc.ended k old
      have other : k ≠ h := fun same => unleaked (same ▸ old)
      exact ⟨before, (Function.update_of_ne other _ _).trans there, ended⟩
    · refine ⟨after, Function.update_self .., ?_⟩
      cases kind with
      | registers _ _ greets => rw [greets] at fails; cases fails
      | unregisters _ greets => rw [greets] at fails; cases fails
      | stays _ greets => rw [greets] at fails; cases fails
      | leaks _ ended _ => exact ended

theorem accounted_publish (acc : Accounted leaked s) (workspaceId : Int) (message : Json) :
    Accounted leaked (publishWorkspaceEvent s workspaceId message) := by
  -- only queues change
  have same : ∀ h, ∃ f : Socket → Socket, (∀ socket, (f socket).workspaceId = socket.workspaceId ∧
      (f socket).phase = socket.phase) ∧
      (publishWorkspaceEvent s workspaceId message).sockets h = (s.sockets h).map f := by
    intro h
    by_cases there : h ∈ subscribers s.connections workspaceId
    · exact ⟨fun socket => { socket with queue := offer message socket.queue }, fun _ => ⟨rfl, rfl⟩, if_pos there⟩
    · refine ⟨id, fun _ => ⟨rfl, rfl⟩, ?_⟩
      rw [Option.map_id]
      exact if_neg there
  refine ⟨?_, acc.nonempty, ?_⟩
  · intro w h
    obtain ⟨f, kept, sockets⟩ := same h
    show h ∈ subscribers s.connections w ↔ _
    rw [acc.registered w h, sockets]
    simp [Option.map_eq_some_iff, kept]
  · intro h mem
    obtain ⟨f, kept, sockets⟩ := same h
    obtain ⟨socket, there, ended⟩ := acc.ended h mem
    refine ⟨f socket, ?_, ?_⟩
    · rw [sockets, there]
      rfl
    · rw [(kept socket).2]
      exact ended

theorem accounted_step {action : Action} (acc : Accounted leaked s) (taken : machine.step s action = some next) :
    Accounted (leaked ++ (failedGreeting action).toList) next := by
  cases action with
  | connect h workspaceId =>
    show Accounted (leaked ++ []) next
    rw [List.append_nil]
    exact accounted_connect acc taken
  | socket h action => exact accounted_socket acc taken
  | publish workspaceId eventType payload now =>
    show Accounted (leaked ++ []) next
    rw [List.append_nil, ← Option.some.inj taken]
    exact accounted_publish acc workspaceId _

theorem accounted_run {actions : List Action} (acc : Accounted leaked s) (ran : machine.run s actions = some next) :
    Accounted (leaked ++ actions.filterMap failedGreeting) next := by
  induction actions generalizing leaked s with
  | nil =>
    rw [List.filterMap_nil, List.append_nil, ← Option.some.inj ran]
    exact acc
  | cons action rest ih =>
    obtain ⟨middle, taken, ran⟩ := Option.bind_eq_some_iff.mp ran
    have later := ih (accounted_step acc taken) ran
    rw [List.append_assoc] at later
    have split : (action :: rest).filterMap failedGreeting =
        (failedGreeting action).toList ++ rest.filterMap failedGreeting := by
      rw [List.filterMap_cons]
      cases failedGreeting action <;> rfl
    rw [split]
    exact later

theorem undisturbed (s : State) : Undisturbed s := by
  intro action next taken w k other
  cases action with
  | connect h workspaceId =>
    simp only [machine, step] at taken
    split at taken
    · rw [← Option.some.inj taken]
    · cases taken
  | socket h action =>
    have apart : k ≠ h := fun same => other (congrArg some same.symm)
    obtain ⟨socket, -, rest⟩ := Option.bind_eq_some_iff.mp taken
    obtain ⟨⟨after, effect⟩, -, rfl⟩ := Option.map_eq_some_iff.mp rest
    exact mem_apply_of_ne effect _ _ apart w
  | publish workspaceId eventType payload now =>
    rw [← Option.some.inj taken]
    rfl

theorem Accounted.clean (acc : Accounted [] s) : Clean s := by
  refine ⟨?_, ?_, ?_⟩
  · intro h socket found ended w mem
    obtain ⟨other, there, -, registered⟩ := (acc.registered w h).mp mem
    rw [found, Option.some.injEq] at there
    subst there
    rcases registered with registered | leaked
    · rw [not_registered_of_ended ended] at registered
      cases registered
    · cases leaked
  · intro h socket found registered
    exact (acc.registered _ h).mpr ⟨socket, found, rfl, .inl registered⟩
  · intro w found there
    cases found with
    | nil => exact absurd there (acc.nonempty w)
    | cons h rest =>
      have mem : h ∈ subscribers s.connections w := by
        rw [subscribers, there]
        exact List.mem_cons_self
      obtain ⟨socket, found, workspace, registered⟩ := (acc.registered w h).mp mem
      refine ⟨h, List.mem_cons_self, socket, found, workspace, ?_⟩
      rcases registered with registered | leaked
      · exact registered
      · cases leaked

theorem Accounted.not_clean {h : Nat} (acc : Accounted leaked s) (mem : h ∈ leaked) : ¬ Clean s := by
  intro clean
  obtain ⟨socket, found, ended⟩ := acc.ended h mem
  exact clean.removed h socket found ended _ ((acc.registered _ h).mpr ⟨socket, found, rfl, .inr mem⟩)

theorem clean_iff {actions : List Action} {s : State} (ran : machine.run machine.init actions = some s) :
    (Clean s ∧ Undisturbed s) ↔ ∀ action ∈ actions, failedGreeting action = none := by
  have acc := accounted_run accounted_init ran
  rw [List.nil_append] at acc
  constructor
  · rintro ⟨clean, -⟩
    by_contra fails
    push Not at fails
    obtain ⟨action, mem, some⟩ := fails
    obtain ⟨h, failed⟩ := Option.ne_none_iff_exists'.mp some
    exact acc.not_clean (List.mem_filterMap.mpr ⟨action, mem, failed⟩) clean
  · intro greeted
    have none : actions.filterMap failedGreeting = [] := List.filterMap_eq_nil_iff.mpr greeted
    rw [none] at acc
    exact ⟨acc.clean, undisturbed s⟩

end Runs

section Samples

/-- Two clients of one workspace; the first one disconnects. -/
def twoClients : List Action :=
  [.connect 0 7, .socket 0 (.accepted (.ok ())), .connect 1 7, .socket 0 (.greeted (.ok ())),
    .socket 1 (.accepted (.ok ())), .socket 1 (.greeted (.ok ())),
    .socket 0 (.receiver (.received (.error .webSocketDisconnect) [])), .socket 0 (.wake .receiver)]

theorem clean_iff_twoClients :
    (Clean ((machine.run machine.init twoClients).getD machine.init) ∧
      Undisturbed ((machine.run machine.init twoClients).getD machine.init)) ↔
        ∀ action ∈ twoClients, failedGreeting action = none :=
  clean_iff (Machine.eq_some_getD (by decide) machine.init)

/-- The client goes away while it is being greeted. -/
def greetingLost : List Action :=
  [.connect 0 7, .socket 0 (.accepted (.ok ())), .socket 0 (.greeted (.error .webSocketDisconnect))]

theorem not_clean : ¬ ∀ (actions : List Action) (s : State), machine.run machine.init actions = some s →
    Clean s ∧ Undisturbed s := by
  intro all
  have ran : machine.run machine.init greetingLost =
      some ((machine.run machine.init greetingLost).getD machine.init) :=
    Machine.eq_some_getD (by decide) machine.init
  have clean := (all greetingLost _ ran).1
  exact clean.removed 0 _ rfl rfl 7 (by decide)

end Samples

end ClaudeProxy.Realtime

import ClaudeProxy.Manager.Reach

namespace ClaudeProxy.Manager

open Kit Sessions Trees

namespace MessageHandler

/-- Content messages, global clears and what the tasks do. -/
def ofGlobalClear : HandlerAction → Bool
  | .stop _ => false
  | .clear incoming => incoming.replyToMessageId = none
  | _ => true

/-- What a clear leaves behind: nothing alive outside the current manager, no message lost on the way to it, no saved tree
    that it lacks. A call whose reply has lost its tree raises instead. -/
structure InReach (s : MessageHandler) : Prop where
  live : ∀ (ref : Ref) world, s.heap[ref]? = some world → Live world → s.Held ref
  handled : ∀ (i : Nat) call enqueuedIn, s.calls[i]? = some call → call.stage = .handled enqueuedIn →
    enqueuedIn = some s.current ∨ i ∈ s.cleared
  saved : ∀ rootId, s.store.trees.contains rootId = true → s.repository.trees.contains rootId = true

/-- Where a call may be, in runs without other commands. -/
def Placed (s : MessageHandler) (i : Nat) (call : Call) : Prop :=
  match call.stage with
  | .enqueuing _ => s.repository.hasNode call.incoming.messageId = true
  | .reporting enqueuedIn | .handled enqueuedIn => enqueuedIn = some s.current ∨ i ∈ s.cleared
  | .cancellingNode .. | .cancellingBranch .. | .deletingBranch _ | .removingBranch .. => False
  | _ => True

structure Consistent (s : MessageHandler) : Prop where
  mapped : ∀ nodeId rootId, s.repository.nodeToTree.get? nodeId = some rootId → s.repository.trees.contains rootId = true
  saved : ∀ rootId, s.store.trees.contains rootId = true → s.repository.trees.contains rootId = true
  placed : ∀ (i : Nat) call, s.calls[i]? = some call → s.Placed i call

theorem consistent_initial : Consistent initial where
  mapped _ _ found := nomatch found
  saved _ found := nomatch found
  placed _ _ found := nomatch found

namespace Consistent

variable {s : MessageHandler}

theorem contains_set {ν : Type} (d : Dict MessageId ν) (key other : MessageId) (value : ν) :
    (d.set key value).contains other = true ↔ other = key ∨ d.contains other = true := by
  rw [Dict.contains_iff, Dict.contains_iff, Dict.mem_keys_set]

theorem contains_of_held (contained : Contained s) {ref : Ref} {world : World} (found : s.heap[ref]? = some world)
    (held : s.Held ref) : s.repository.trees.contains world.tree.rootId = true := by
  obtain ⟨rootId, here⟩ := held
  obtain ⟨other, there, own⟩ := contained.rooted rootId ref here
  cases found.symm.trans there
  rw [own]
  exact Option.isSome_iff_exists.mpr ⟨ref, here⟩

theorem saveTree (consistent : Consistent s) (contained : Contained s) {ref : Ref} (held : s.Held ref) :
    Consistent (s.saveTree ref) := by
  unfold MessageHandler.saveTree
  split
  · exact consistent
  · rename_i world found
    refine ⟨consistent.mapped, fun rootId saved => ?_, consistent.placed⟩
    rcases (contains_set ..).mp saved with rfl | before
    · exact contains_of_held contained found held
    · exact consistent.saved rootId before

theorem setRepository (consistent : Consistent s) {repository : TreeRepository Ref}
    (mapped : ∀ nodeId rootId, repository.nodeToTree.get? nodeId = some rootId → repository.trees.contains rootId = true)
    (trees : ∀ rootId, s.repository.trees.contains rootId = true → repository.trees.contains rootId = true)
    (nodes : ∀ nodeId, s.repository.hasNode nodeId = true → repository.hasNode nodeId = true) :
    Consistent (s.setManager s.current repository) := by
  have now : (s.setManager s.current repository).repository = repository := Function.update_self ..
  constructor
  · rw [now]
    exact mapped
  · intro rootId saved
    rw [now]
    exact trees rootId (consistent.saved rootId saved)
  · intro i call found
    have before := consistent.placed i call found
    unfold Placed at before ⊢
    split <;> simp only [*] at before ⊢
    · exact nodes _ before
    · exact before
    · exact before

theorem registerNode (consistent : Consistent s) {nodeId rootId : MessageId}
    (there : s.repository.trees.contains rootId = true) :
    Consistent (s.setManager s.current (s.repository.registerNode nodeId rootId)) := by
  apply consistent.setRepository
  · intro key root found
    change (s.repository.nodeToTree.set nodeId rootId).get? key = some root at found
    rw [Dict.get?_set] at found
    split at found
    · cases found
      exact there
    · exact consistent.mapped key root found
  · exact fun _ before => before
  · exact fun key before => (contains_set ..).mpr (.inr before)

theorem setStage (consistent : Consistent s) {i : Nat} {call : Call} (found : s.calls[i]? = some call) {stage : Stage}
    (placed : s.Placed i { call with stage := stage }) : Consistent (s.setStage i stage) := by
  refine ⟨consistent.mapped, consistent.saved, fun j other there => ?_⟩
  rw [MessageHandler.setStage, List.getElem?_modify] at there
  obtain ⟨old, before, same⟩ := Option.map_eq_some_iff.mp there
  split at same
  · rename_i here
    subst here
    cases found.symm.trans before
    cases same
    exact placed
  · cases same
    exact consistent.placed j other before

theorem arrive (consistent : Consistent s) (incoming : IncomingMessage) {stage : Stage}
    (placed : s.Placed s.calls.length ⟨incoming, stage⟩) : Consistent (s.arrive incoming stage) := by
  refine ⟨consistent.mapped, consistent.saved, fun j call found => ?_⟩
  rw [MessageHandler.arrive, List.getElem?_append] at found
  split at found
  · exact consistent.placed j call found
  · rename_i beyond
    rw [List.getElem?_singleton] at found
    split at found
    · rename_i last
      cases found
      have here : j = s.calls.length := by omega
      rw [here]
      exact placed
    · cases found

theorem record (consistent : Consistent s) (contained : Contained s) {ref : Ref} (held : s.Held ref)
    (first second statusMsgId : MessageId) : Consistent (s.record ref first second statusMsgId) := by
  unfold MessageHandler.record
  split
  · exact consistent
  · rename_i world found
    have registered : Consistent (s.setManager s.current (s.repository.registerNode statusMsgId world.tree.rootId)) :=
      consistent.registerNode (contains_of_held contained found held)
    have stored (store : SessionStore MessageId MessageNode) (same : store.trees = s.store.trees) : Consistent
        { s.setManager s.current (s.repository.registerNode statusMsgId world.tree.rootId) with store := store } := by
      refine ⟨registered.mapped, fun rootId saved => ?_, registered.placed⟩
      change store.trees.contains rootId = true at saved
      rw [same] at saved
      exact registered.saved rootId saved
    refine (stored ((s.store.registerNode first _).registerNode second _) rfl).saveTree
      ((contained.registerNode _ _).setStore _) ?_
    obtain ⟨rootId, here⟩ := held
    refine ⟨rootId, ?_⟩
    show TreeRepository.getTree (Function.update s.managers s.current _ s.current) rootId = some ref
    rw [Function.update_self]
    exact here

theorem calls_saveTree (ref : Ref) : (s.saveTree ref).calls = s.calls := by
  unfold MessageHandler.saveTree
  split <;> rfl

theorem hasNode_record {ref : Ref} {first second statusMsgId nodeId : MessageId}
    (known : s.repository.hasNode nodeId = true) :
    (s.record ref first second statusMsgId).repository.hasNode nodeId = true := by
  unfold MessageHandler.record
  split
  · exact known
  · rw [Contained.saveTree_repository]
    show TreeRepository.hasNode (Function.update s.managers s.current _ s.current) nodeId = true
    rw [Function.update_self]
    exact (contains_set ..).mpr (.inr known)

theorem calls_record (ref : Ref) (first second statusMsgId : MessageId) :
    (s.record ref first second statusMsgId).calls = s.calls := by
  unfold MessageHandler.record
  split
  · rfl
  · exact calls_saveTree ref

theorem createTree (consistent : Consistent s) (nodeId : MessageId) (incoming : IncomingMessage)
    (statusMessageId : MessageId)
    (now : Timestamp) : Consistent (s.createTree s.current nodeId incoming statusMessageId now).2 := by
  have grown : Consistent { s with heap := s.heap ++ [World.start (.new nodeId incoming statusMessageId none now)] } :=
    ⟨consistent.mapped, consistent.saved, consistent.placed⟩
  apply grown.setRepository
  · intro key root found
    change (s.repository.nodeToTree.set nodeId nodeId).get? key = some root at found
    rw [Dict.get?_set] at found
    apply (contains_set ..).mpr
    split at found
    · cases found
      exact .inl rfl
    · exact .inr (consistent.mapped key root found)
  · exact fun rootId before => (contains_set ..).mpr (.inr before)
  · exact fun key before => (contains_set ..).mpr (.inr before)

theorem file (consistent : Consistent s) (contained : Contained s) {i : Nat} {call : Call} (found : s.calls[i]? = some call)
    (parentNodeId : Option MessageId) (statusMsgId : MessageId) (now : Timestamp)
    (unused : parentNodeId = none → (s.repository.getTree call.incoming.messageId).all s.unused = true) :
    Consistent (s.file i call.incoming s.current parentNodeId statusMsgId now) := by
  unfold MessageHandler.file
  cases parentNodeId with
  | none =>
    have created := consistent.createTree call.incoming.messageId call.incoming statusMsgId now
    have grown := contained.createTree call.incoming.messageId call.incoming statusMsgId now (unused rfl)
    have held : (s.createTree s.current call.incoming.messageId call.incoming statusMsgId now).2.Held s.heap.length := by
      refine ⟨call.incoming.messageId, ?_⟩
      show TreeRepository.getTree (Function.update s.managers s.current _ s.current) _ = _
      rw [Function.update_self]
      exact Dict.get?_set_self ..
    have known : (s.createTree s.current call.incoming.messageId call.incoming statusMsgId now).2.repository.hasNode
        call.incoming.messageId = true := by
      show TreeRepository.hasNode (Function.update s.managers s.current _ s.current) _ = _
      rw [Function.update_self]
      exact (contains_set ..).mpr (.inl rfl)
    have recorded := created.record grown held call.incoming.messageId statusMsgId statusMsgId
    exact recorded.setStage (by rw [calls_record]; exact found) (hasNode_record known)
  | some parentNodeId =>
    dsimp only
    split
    · exact consistent.setStage found trivial
    · rename_i ref after added
      have grown := contained.addToTree added
      obtain ⟨world, tree, located, there, extended, rfl⟩ := Contained.addToTree_eq_some added
      have sameRoot : tree.rootId = world.tree.rootId := addNode_rootId extended
      have held : s.Held ref := Contained.held_of_getTreeForNode located
      have onTree (change : World → World) : Consistent (s.onWorld ref change) :=
        ⟨consistent.mapped, consistent.saved, consistent.placed⟩
      have registered : Consistent ((s.onWorld ref fun world => { world.detach (world.tree.getNode
          call.incoming.messageId).toList with tree := tree }).setManager s.current (s.repository.registerNode
            call.incoming.messageId tree.rootId)) := by
        apply (onTree _).registerNode
        rw [sameRoot]
        exact contains_of_held contained there held
      have stillHeld : MessageHandler.Held ((s.onWorld ref fun world => { world.detach (world.tree.getNode
          call.incoming.messageId).toList with tree := tree }).setManager s.current (s.repository.registerNode
            call.incoming.messageId tree.rootId)) ref := by
        obtain ⟨rootId, here⟩ := held
        refine ⟨rootId, ?_⟩
        show TreeRepository.getTree (Function.update s.managers s.current _ s.current) _ = _
        rw [Function.update_self]
        exact here
      have recorded := registered.record grown stillHeld statusMsgId call.incoming.messageId statusMsgId
      apply recorded.setStage (by rw [calls_record]; exact found)
      apply hasNode_record
      show TreeRepository.hasNode (Function.update s.managers s.current _ s.current) _ = _
      rw [Function.update_self]
      exact (contains_set ..).mpr (.inl rfl)

theorem enqueue (consistent : Consistent s) {i : Nat} {call : Call} (found : s.calls[i]? = some call)
    (known : s.repository.hasNode call.incoming.messageId = true) :
    Consistent (s.enqueue i call.incoming.messageId s.current) := by
  obtain ⟨rootId, mapped⟩ := Option.isSome_iff_exists.mp known
  obtain ⟨ref, here⟩ := Option.isSome_iff_exists.mp (consistent.mapped _ _ mapped)
  have located : (s.managers s.current).getTreeForNode call.incoming.messageId = some ref := by
    rw [TreeRepository.getTreeForNode]
    exact Option.bind_eq_some_iff.mpr ⟨rootId, mapped, here⟩
  have onTree : Consistent (s.onWorld ref (·.enqueueAndStart call.incoming.messageId)) :=
    ⟨consistent.mapped, consistent.saved, consistent.placed⟩
  rw [MessageHandler.enqueue, located]
  apply onTree.setStage found
  split <;> exact .inl rfl

theorem updateCancelledNodesUi (consistent : Consistent s) (contained : Contained s) (cancelled : List MessageId) :
    Consistent (s.updateCancelledNodesUi cancelled) ∧ (s.updateCancelledNodesUi cancelled).calls = s.calls := by
  have all (refs : List Ref) (s : MessageHandler) (consistent : Consistent s) (contained : Contained s)
      (held : ∀ ref ∈ refs, s.Held ref) : Consistent (refs.foldl MessageHandler.saveTree s) ∧
        (refs.foldl MessageHandler.saveTree s).calls = s.calls := by
    induction refs generalizing s with
    | nil => exact ⟨consistent, rfl⟩
    | cons ref rest ih =>
      obtain ⟨saved, calls⟩ := ih (s.saveTree ref) (consistent.saveTree contained (held ref List.mem_cons_self))
        (contained.saveTree ref) fun other member => by
          obtain ⟨rootId, here⟩ := held other (List.mem_cons_of_mem _ member)
          exact ⟨rootId, by rw [Contained.saveTree_repository]; exact here⟩
      exact ⟨saved, calls.trans (calls_saveTree ref)⟩
  apply all _ s consistent contained
  intro ref member
  obtain ⟨nodeId, _, located⟩ := List.mem_filterMap.mp member
  exact Contained.held_of_getTreeForNode located

theorem cancelAll (consistent : Consistent s) (manager : Nat) :
    Consistent (s.cancelAll manager).2 ∧ (s.cancelAll manager).2.calls = s.calls := by
  apply cancelAll_induction fun both => Consistent both.2 ∧ both.2.calls = s.calls
  · exact ⟨consistent, rfl⟩
  · intro _ _ _ _ before
    exact ⟨⟨before.1.mapped, before.1.saved, before.1.placed⟩, before.2⟩

theorem swap (consistent : Consistent s) {i : Nat} {call : Call} (found : s.calls[i]? = some call)
    (unbound : s.calls.all fun call => call.stage.manager = none) : Consistent (s.swap i) := by
  have replaced (cleared : List Nat) (older : ∀ j ∈ s.cleared, j ∈ cleared)
      (newer : ∀ (j : Nat) call manager, s.calls[j]? = some call →
        call.stage = .reporting (some manager) ∨ call.stage = .handled (some manager) → j ∈ cleared) : Consistent { s with
      store := .new
      managers := Function.update s.managers (s.current + 1) .new
      current := s.current + 1
      cleared := cleared } := by
    constructor
    · intro nodeId rootId there
      simp only [MessageHandler.repository, Function.update_self] at there
      cases there
    · intro rootId there
      cases there
    · intro j call there
      have before := consistent.placed j call there
      have free := of_decide_eq_true (List.all_eq_true.mp unbound call (List.mem_of_getElem? there))
      unfold Placed at before ⊢
      cases stage : call.stage <;> simp only [stage, Stage.manager] at before free ⊢
      case reporting enqueuedIn =>
        rcases before with rfl | before
        · exact .inr (newer j call s.current there (.inl stage))
        · exact .inr (older j before)
      case handled enqueuedIn =>
        rcases before with rfl | before
        · exact .inr (newer j call s.current there (.inr stage))
        · exact .inr (older j before)
      all_goals cases free
  refine (replaced _ ?_ ?_).setStage found trivial
  · exact fun j before => List.mem_append_left _ before
  · intro j call manager there stage
    apply List.mem_append_right
    have inCalls := (List.getElem?_eq_some_iff.mp there).1
    apply List.mem_filter.mpr
    refine ⟨List.mem_range.mpr inCalls, ?_⟩
    rw [there, Option.any_some]
    rcases stage with stage | stage <;> rw [stage]

theorem writeState (consistent : Consistent s) (contained : Contained s) {ref : Ref} {tid : TaskId} (task : Task)
    {p : Processing} (held : ∀ tree, p.tree = some tree → s.Held tree) (state : MessageState)
    (sessionId errorMessage : Option String) (saves : Bool) :
    Consistent (s.writeState ref tid task p state sessionId errorMessage saves) := by
  unfold MessageHandler.writeState
  split
  · exact ⟨consistent.mapped, consistent.saved, consistent.placed⟩
  · rename_i tree works
    have grown : Contained (s.onWorld tree fun world =>
        world.onTree fun t => t.updateState task.node state sessionId errorMessage world.now) :=
      contained.onSteady tree fun world => .onTree (.updateState ..)
    have written : Consistent (s.onWorld tree fun world =>
        world.onTree fun t => t.updateState task.node state sessionId errorMessage world.now) :=
      ⟨consistent.mapped, consistent.saved, consistent.placed⟩
    dsimp only
    split
    · have saved := written.saveTree grown (held tree works)
      exact ⟨saved.mapped, saved.saved, saved.placed⟩
    · exact ⟨consistent.mapped, consistent.saved, consistent.placed⟩

theorem resume (consistent : Consistent s) (contained : Contained s) {i : Nat} {call : Call}
    (found : s.calls[i]? = some call)
    {sent : MessageId} {now : Timestamp} (safe : s.leavesUnused (.resume i sent now) = true) {after : MessageHandler}
    (resumed : s.resume i call sent now = some after) : Consistent after := by
  have bound := contained.bound i call
  have placed := consistent.placed i call found
  simp only [leavesUnused, found, Option.all_some] at safe
  unfold MessageHandler.resume at resumed
  unfold Placed at placed
  cases stage : call.stage <;> simp only [stage, Option.some.injEq] at resumed safe bound placed
  case sending parentNodeId =>
    subst resumed
    exact consistent.setStage found trivial
  case filing manager parentNodeId statusMsgId =>
    subst resumed
    cases bound manager found rfl
    apply consistent.file contained found
    intro root
    subst root
    exact safe
  case enqueuing manager =>
    subst resumed
    cases bound manager found rfl
    exact consistent.enqueue found placed
  case reporting enqueuedIn =>
    subst resumed
    exact consistent.setStage found placed
  case cancellingAll manager clears =>
    subst resumed
    obtain ⟨cancelled, calls⟩ := consistent.cancelAll manager
    exact cancelled.setStage (calls ▸ found) trivial
  case stoppingCli cancelled clears =>
    subst resumed
    obtain ⟨saved, calls⟩ := consistent.updateCancelledNodesUi contained cancelled
    apply saved.setStage (calls ▸ found)
    split <;> trivial
  case deletingMessages =>
    subst resumed
    rw [Bool.and_eq_true] at safe
    exact consistent.swap found safe.1
  case answering =>
    subst resumed
    exact consistent.setStage found trivial
  all_goals cases resumed

end Consistent

theorem Consistent.step {s after : MessageHandler} {a : HandlerAction} (consistent : Consistent s) (contained : Contained s)
    (own : ofGlobalClear a = true) (safe : s.leavesUnused a = true) (taken : s.step a = some after) : Consistent after := by
  have still : ∀ heap processing, Consistent { s with heap := heap, processing := processing } :=
    fun _ _ => ⟨consistent.mapped, consistent.saved, consistent.placed⟩
  cases a with
  | tick =>
    cases taken
    exact still _ _
  | content incoming =>
    cases taken
    exact consistent.arrive incoming trivial
  | stop incoming => cases own
  | clear incoming =>
    cases taken
    have «global» : incoming.replyToMessageId = none := of_decide_eq_true own
    apply consistent.arrive
    rw [«global»]
    trivial
  | resume i sent now =>
    obtain ⟨call, found, resumed⟩ := Option.bind_eq_some_iff.mp taken
    exact consistent.resume contained found safe resumed
  | begin ref tid =>
    obtain ⟨world, task, _, _, rfl⟩ := begin_eq_some taken
    unfold MessageHandler.firstStep
    dsimp only
    split
    · exact still _ _
    · split <;> exact still _ _
  | opened ref tid isNew sessionId =>
    obtain ⟨world, task, found, ready, rfl⟩ := whileRunning_eq_some taken
    exact still _ _
  | sessionInfo ref tid sessionId =>
    obtain ⟨world, task, found, ready, rfl⟩ := whileRunning_eq_some taken
    unfold MessageHandler.sessionInfo
    split
    · exact consistent
    · have held : ∀ tree, ({ s.processing ref tid with capturedSessionId := some sessionId, tempSessionId := none } :
          Processing).tree = some tree → s.Held tree := contained.works found ready
      exact consistent.writeState contained task held ..
  | complete ref tid =>
    obtain ⟨world, task, found, ready, rfl⟩ := whileRunning_eq_some taken
    unfold MessageHandler.complete
    split
    · exact consistent.writeState contained task (contained.works found ready) ..
    · exact consistent
  | limited ref tid errorMessage =>
    obtain ⟨world, task, found, ready, rfl⟩ := whileRunning_eq_some taken
    exact consistent.writeState contained task (contained.works found ready) ..
  | cancelled ref tid =>
    obtain ⟨world, task, found, ready, rfl⟩ := whileRunning_eq_some taken
    exact consistent.writeState contained task (contained.works found ready) ..
  | failed ref tid errorMessage =>
    obtain ⟨world, task, found, ready, rfl⟩ := whileRunning_eq_some taken
    unfold MessageHandler.fail
    split
    · exact still _ _
    · exact consistent
  | process ref action =>
    simp only [MessageHandler.step] at taken
    split at taken
    · cases taken
    · obtain ⟨next, _, rfl⟩ := Option.map_eq_some_iff.mp taken
      exact still _ _

/-- While a global clear leaves nothing in use behind it, everything stays within reach of the current manager. -/
theorem inReach_of_leavesUnused (s : MessageHandler)
    (reached : machine.ReachableUnder (fun s a => (ofGlobalClear a && s.leavesUnused a) = true) s) : s.InReach := by
  have both : Contained s ∧ Consistent s := by
    apply Machine.ReachableUnder.invariant _ _ reached
    · exact ⟨contained_initial, consistent_initial⟩
    · intro s a next known guard taken
      obtain ⟨own, safe⟩ := Bool.and_eq_true_iff.mp guard
      exact ⟨known.1.step safe taken, known.2.step known.1 own safe taken⟩
  refine ⟨both.1.live, fun i call enqueuedIn found stage => ?_, both.2.saved⟩
  have placed := both.2.placed i call found
  rw [Placed, stage] at placed
  exact placed

def incoming (text : String) (messageId : MessageId) : IncomingMessage :=
  ⟨text, "chat", "someone", messageId, "telegram", none, none, none, none⟩

/-- The message is being processed when the clear comes; its task ends before the managers change, and the next message
    is answered by the new one. -/
theorem inReach_next_message : ∃ s, machine.ReachableUnder (fun s a => (ofGlobalClear a && s.leavesUnused a) = true) s ∧
    s.current = 1 ∧ s.calls.length = 3 ∧ s.InReach := by
  have ran : (machine.runUnder (fun s a => ofGlobalClear a && s.leavesUnused a) machine.init
      [.content (incoming "hello" ⟨"1", by decide⟩), .resume 0 ⟨"2", by decide⟩ 0, .resume 0 ⟨"2", by decide⟩ 0,
        .resume 0 ⟨"2", by decide⟩ 0, .begin 0 0, .opened 0 0 true "temporary", .clear (incoming "/clear" ⟨"3", by decide⟩),
        .resume 1 ⟨"3", by decide⟩ 0, .process 0 (.deliver 0), .cancelled 0 0, .process 0 (.finish 0), .process 0 (.clear 0),
        .process 0 (.next 0), .resume 1 ⟨"3", by decide⟩ 0, .content (incoming "again" ⟨"4", by decide⟩),
        .resume 1 ⟨"3", by decide⟩ 0, .resume 2 ⟨"5", by decide⟩ 0, .resume 2 ⟨"5", by decide⟩ 0,
        .resume 2 ⟨"5", by decide⟩ 0]).any (fun s => s.current = 1 ∧ s.calls.length = 3) = true := by decide +kernel
  obtain ⟨s, here, both⟩ := (Option.any_eq_true _ _).mp ran
  obtain ⟨current, calls⟩ := of_decide_eq_true both
  have reached := Machine.reachableUnder_of_runUnder .init here
  exact ⟨s, reached, current, calls, inReach_of_leavesUnused s reached⟩

theorem clear_ne_empty : "clear" ≠ "" := by decide

theorem hello_ne_empty : "hello" ≠ "" := by decide

theorem status_ne_empty : "status" ≠ "" := by decide

def clearId : MessageId := ⟨"clear", clear_ne_empty⟩

def helloId : MessageId := ⟨"hello", hello_ne_empty⟩

def statusId : MessageId := ⟨"status", status_ne_empty⟩

/-- The message comes while the clear deletes the messages of the chat: its task belongs to the manager that goes, and what
    it saves is a tree that the new manager does not have. -/
def duringClear : List HandlerAction :=
  [.clear (incoming "/clear" clearId), .resume 0 clearId 0, .resume 0 clearId 0, .content (incoming "hello" helloId),
    .resume 1 statusId 0, .resume 1 statusId 0, .resume 1 statusId 0, .begin 0 0, .opened 0 0 true "temporary",
    .resume 0 clearId 0, .sessionInfo 0 0 "session"]

/-- A live task and a saved tree are out of reach. -/
def strays (s : MessageHandler) : Bool :=
  ((List.range s.heap.length).any fun ref => !s.quiet ref && s.repository.trees.values.all (· ≠ ref)) &&
    s.store.trees.keys.any fun rootId => !s.repository.trees.contains rootId

theorem InReach.not_strays {s : MessageHandler} (inReach : s.InReach) : s.strays = false := by
  rw [Bool.eq_false_iff]
  intro strays
  obtain ⟨_, saved⟩ := Bool.and_eq_true_iff.mp strays
  obtain ⟨rootId, member, absent⟩ := List.any_eq_true.mp saved
  rw [inReach.saved rootId ((Dict.contains_iff _ _).mpr member)] at absent
  cases absent

theorem task_out_of_reach : ∃ s, machine.run machine.init duringClear = some s ∧
    (∃ call, s.calls[0]? = some call ∧ call.stage.ended = true) ∧ ¬ s.InReach := by
  have ran : (machine.run machine.init duringClear).any
      (fun s => s.strays && s.calls[0]?.any fun call => call.stage.ended) = true := by decide +kernel
  obtain ⟨s, here, both⟩ := (Option.any_eq_true _ _).mp ran
  obtain ⟨strays, returned⟩ := Bool.and_eq_true_iff.mp both
  refine ⟨s, here, (Option.any_eq_true _ _).mp returned, fun inReach => ?_⟩
  rw [inReach.not_strays] at strays
  cases strays

end MessageHandler

end ClaudeProxy.Manager

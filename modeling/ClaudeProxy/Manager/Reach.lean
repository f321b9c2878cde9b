import ClaudeProxy.Manager.Steady

namespace ClaudeProxy.Manager

open Kit Sessions Trees

namespace MessageHandler

def quiet (s : MessageHandler) (ref : Ref) : Bool :=
  s.heap[ref]?.all fun world => world.tasks.all fun task => task.phase = .done

def unused (s : MessageHandler) (ref : Ref) : Bool := s.quiet ref && (List.range s.heap.length).all fun other =>
  s.heap[other]?.all fun world => (List.range world.tasks.length).all fun tid =>
    phaseAt world tid ≠ some .running ∨ (s.processing other tid).tree ≠ some ref

/-- What leaves the manager is not in use: a tree that is replaced or removed, and the manager itself, which no
    other call may be about to ask. -/
def leavesUnused (s : MessageHandler) : HandlerAction → Bool
  | .resume i _ _ => s.calls[i]?.all fun call =>
    match call.stage with
    | .filing manager none _ => ((s.managers manager).getTree call.incoming.messageId).all s.unused
    | .removingBranch manager branchRootId => ((s.managers manager).getTreeForNode branchRootId).all fun ref =>
      s.heap[ref]?.all fun world => branchRootId ≠ world.tree.rootId || s.unused ref
    | .deletingMessages => (s.calls.all fun call => call.stage.manager = none) && s.repository.trees.values.all s.quiet
    | _ => true
  | _ => true

def Held (s : MessageHandler) (ref : Ref) : Prop := ∃ rootId, s.repository.getTree rootId = some ref

/-- Everything alive belongs to the trees of the current manager. -/
structure Contained (s : MessageHandler) : Prop where
  bound : ∀ (i : Nat) call manager, s.calls[i]? = some call → call.stage.manager = some manager → manager = s.current
  rooted : ∀ rootId ref, s.repository.getTree rootId = some ref → ∃ world, s.heap[ref]? = some world ∧
    world.tree.rootId = rootId
  live : ∀ (ref : Ref) world, s.heap[ref]? = some world → Live world → s.Held ref
  working : ∀ (ref : Ref) world tid tree, s.heap[ref]? = some world → phaseAt world tid = some .running →
    (s.processing ref tid).tree = some tree → s.Held tree

theorem contained_initial : Contained initial where
  bound _ _ _ found := nomatch found
  rooted _ _ found := nomatch found
  live _ _ found := nomatch found
  working _ _ _ _ found := nomatch found

section Quiet

variable {s : MessageHandler} {ref : Ref}

theorem quiet_iff : s.quiet ref = true ↔ ∀ world, s.heap[ref]? = some world → ¬ Live world := by
  have still (world : World) : (world.tasks.all fun task => task.phase = .done) = true ↔ ¬ Live world := by
    simp only [List.all_eq_true, decide_eq_true_eq]
    constructor
    · intro done live
      obtain ⟨tid, phase, at', going⟩ := live
      obtain ⟨task, found, same⟩ := Option.map_eq_some_iff.mp at'
      exact going (same ▸ done task (List.mem_of_getElem? found))
    · intro dead task member
      by_contra going
      obtain ⟨tid, found⟩ := List.getElem?_of_mem member
      exact dead ⟨tid, task.phase, by rw [phaseAt, found, Option.map_some], going⟩
  rw [quiet]
  cases found : s.heap[ref]? with
  | none => simp
  | some world => simp only [Option.all_some, still, Option.some.injEq, forall_eq']

theorem unused_iff : s.unused ref = true ↔ s.quiet ref = true ∧ ∀ (other : Ref) world tid, s.heap[other]? = some world →
    phaseAt world tid = some .running → (s.processing other tid).tree ≠ some ref := by
  rw [unused, Bool.and_eq_true]
  apply and_congr_right
  intro _
  simp only [List.all_eq_true, List.mem_range, Option.all_eq_true, decide_eq_true_eq]
  constructor
  · intro idle other world tid found running
    obtain ⟨task, present, _⟩ := Option.map_eq_some_iff.mp running
    have inHeap := (List.getElem?_eq_some_iff.mp found).1
    have inTasks := (List.getElem?_eq_some_iff.mp present).1
    exact (idle other inHeap world found tid inTasks).resolve_left fun still => still running
  · intro idle other _ world found tid _
    by_cases running : phaseAt world tid = some .running
    · exact .inr (idle other world tid found running)
    · exact .inl running

end Quiet

theorem saveTree_eq (s : MessageHandler) (ref : Ref) : ∃ store, s.saveTree ref = { s with store := store } := by
  unfold MessageHandler.saveTree
  split
  · exact ⟨s.store, rfl⟩
  · exact ⟨_, rfl⟩

theorem updateCancelledNodesUi_eq (s : MessageHandler) (cancelled : List MessageId) :
    ∃ store, s.updateCancelledNodesUi cancelled = { s with store := store } := by
  unfold MessageHandler.updateCancelledNodesUi
  generalize cancelled.filterMap s.repository.getTreeForNode = refs
  induction refs generalizing s with
  | nil => exact ⟨s.store, rfl⟩
  | cons ref rest ih =>
    rcases saveTree_eq s ref with ⟨first, saved⟩
    rcases ih (s.saveTree ref) with ⟨store, all⟩
    refine ⟨store, ?_⟩
    rw [List.foldl_cons, all, saved]

theorem record_eq (s : MessageHandler) (ref : Ref) (first second statusMsgId : MessageId) :
    ∃ managers store, s.record ref first second statusMsgId = { s with managers := managers, store := store } := by
  unfold MessageHandler.record
  split
  · exact ⟨s.managers, s.store, rfl⟩
  · rename_i world _
    rcases saveTree_eq { s.setManager s.current (s.repository.registerNode statusMsgId world.tree.rootId) with
      store := (s.store.registerNode first world.tree.rootId).registerNode second world.tree.rootId } ref with ⟨store, same⟩
    exact ⟨_, store, same⟩

/-- The cancellation of one tree after another. -/
theorem cancelAll_induction {s : MessageHandler} {manager : Nat} (holds : List MessageId × MessageHandler → Prop)
    (start : holds ([], s))
    (keeps : ∀ cancelled s' ref, ref ∈ (s.managers manager).trees.values → holds (cancelled, s') →
      holds (cancelled ++ (s'.heap[ref]?.map cancelledBy).getD [], s'.onWorld ref World.cancelTree)) :
    holds (s.cancelAll manager) := by
  have all (refs : List Ref) (inManager : ∀ ref ∈ refs, ref ∈ (s.managers manager).trees.values)
      (before : List MessageId × MessageHandler) (holdsBefore : holds before) :
      holds (refs.foldl (fun both ref =>
        (both.1 ++ (both.2.heap[ref]?.map cancelledBy).getD [], both.2.onWorld ref World.cancelTree)) before) := by
    induction refs generalizing before with
    | nil => exact holdsBefore
    | cons ref rest ih =>
      apply ih (fun other member => inManager other (List.mem_cons_of_mem _ member))
      exact keeps before.1 before.2 ref (inManager ref List.mem_cons_self) holdsBefore
  exact all _ (fun _ member => member) ([], s) start

namespace Contained

variable {s : MessageHandler}

theorem held_of_getTreeForNode {nodeId : MessageId} {ref : Ref} (found : s.repository.getTreeForNode nodeId = some ref) :
    s.Held ref := by
  obtain ⟨rootId, _, here⟩ := Option.bind_eq_some_iff.mp found
  exact ⟨rootId, here⟩

theorem setStage (contained : Contained s) (i : Nat) {stage : Stage}
    (bound : ∀ manager, stage.manager = some manager → manager = s.current) : Contained (s.setStage i stage) := by
  refine { contained with bound := fun j call manager found asks => ?_ }
  rw [MessageHandler.setStage, List.getElem?_modify] at found
  obtain ⟨old, there, same⟩ := Option.map_eq_some_iff.mp found
  split at same
  · cases same
    exact bound manager asks
  · cases same
    exact contained.bound j call manager there asks

theorem arrive (contained : Contained s) (incoming : IncomingMessage) {stage : Stage}
    (bound : ∀ manager, stage.manager = some manager → manager = s.current) : Contained (s.arrive incoming stage) := by
  refine { contained with bound := fun j call manager found asks => ?_ }
  rw [MessageHandler.arrive, List.getElem?_append] at found
  split at found
  · exact contained.bound j call manager found asks
  · rw [List.getElem?_singleton] at found
    split at found
    · cases found
      exact bound manager asks
    · cases found

/-- A tree changes, and what comes to life in it is held. -/
theorem onWorld (contained : Contained s) (ref : Ref) {change : World → World}
    (sameRoot : ∀ world, s.heap[ref]? = some world → (change world).tree.rootId = world.tree.rootId)
    (running : ∀ world, s.heap[ref]? = some world → ∀ tid, phaseAt (change world) tid = some .running →
      phaseAt world tid = some .running ∨ ∀ tree, (s.processing ref tid).tree = some tree → s.Held tree)
    (live : ∀ world, s.heap[ref]? = some world → Live (change world) → Live world ∨ s.Held ref) :
    Contained (s.onWorld ref change) := by
  have split (other : Ref) (world : World) (found : (s.onWorld ref change).heap[other]? = some world) :
      s.heap[other]? = some world ∨ other = ref ∧ ∃ old, s.heap[ref]? = some old ∧ world = change old := by
    rw [MessageHandler.onWorld, List.getElem?_modify] at found
    obtain ⟨old, there, same⟩ := Option.map_eq_some_iff.mp found
    split at same
    · rename_i here
      subst here
      exact .inr ⟨rfl, old, there, same.symm⟩
    · exact .inl (same ▸ there)
  constructor
  · exact contained.bound
  · intro rootId other found
    obtain ⟨world, there, root⟩ := contained.rooted rootId other found
    by_cases here : ref = other
    · subst here
      refine ⟨change world, ?_, (sameRoot world there).trans root⟩
      rw [MessageHandler.onWorld, List.getElem?_modify_eq, there]
      rfl
    · exact ⟨world, by rw [MessageHandler.onWorld, List.getElem?_modify_ne _ _ here]; exact there, root⟩
  · intro other world found alive
    rcases split other world found with there | ⟨rfl, old, there, rfl⟩
    · exact contained.live other world there alive
    · rcases live old there alive with before | held
      · exact contained.live other old there before
      · exact held
  · intro other world tid tree found now works
    rcases split other world found with there | ⟨rfl, old, there, rfl⟩
    · exact contained.working other world tid tree there now works
    · rcases running old there tid now with before | held
      · exact contained.working other old tid tree there before works
      · exact held tree works

theorem onMoves (contained : Contained s) (ref : Ref) {change : World → World}
    (moves : ∀ world, s.heap[ref]? = some world → Moves world (change world))
    (live : ∀ world, s.heap[ref]? = some world → Live (change world) → Live world ∨ s.Held ref) :
    Contained (s.onWorld ref change) :=
  contained.onWorld ref (fun world found => (moves world found).tree.rootId)
    (fun world found tid at' => .inl ((moves world found).running tid at')) live

theorem onSteady (contained : Contained s) (ref : Ref) {change : World → World}
    (steady : ∀ world, Steady world (change world)) :
    Contained (s.onWorld ref change) :=
  contained.onMoves ref (fun world _ => (steady world).moves) fun world _ alive => .inl ((steady world).live alive)

theorem processing_setProcessing (s : MessageHandler) (ref other : Ref) (tid j : TaskId) (p : Processing) :
    (s.setProcessing ref tid p).processing other j = if other = ref ∧ j = tid then p else s.processing other j := by
  show Function.update s.processing ref (Function.update (s.processing ref) tid p) other j = _
  by_cases here : other = ref
  · subst here
    by_cases same : j = tid <;> simp [same]
  · simp [here]

theorem setProcessing (contained : Contained s) (ref : Ref) (tid : TaskId) {p : Processing}
    (held : ∀ tree, p.tree = some tree → s.Held tree) : Contained (s.setProcessing ref tid p) := by
  refine { contained with working := fun other world j tree found running works => ?_ }
  rw [processing_setProcessing] at works
  split at works
  · exact held tree works
  · exact contained.working other world j tree found running works

theorem setStore (contained : Contained s) (store : SessionStore MessageId MessageNode) :
    Contained { s with store := store } :=
  { contained with }

theorem saveTree (contained : Contained s) (ref : Ref) : Contained (s.saveTree ref) := by
  unfold MessageHandler.saveTree
  split
  · exact contained
  · exact contained.setStore _

/-- Trees leave the current manager only when nothing uses them. -/
theorem setRepository (contained : Contained s) {repository : TreeRepository Ref}
    (rooted : ∀ rootId ref, repository.getTree rootId = some ref → ∃ world, s.heap[ref]? = some world ∧
      world.tree.rootId = rootId)
    (keeps : ∀ rootId ref, s.repository.getTree rootId = some ref →
      (∃ key, repository.getTree key = some ref) ∨ s.unused ref = true) :
    Contained (s.setManager s.current repository) := by
  have now : (s.setManager s.current repository).repository = repository := Function.update_self ..
  have kept (ref : Ref) (held : s.Held ref) : (s.setManager s.current repository).Held ref ∨ s.unused ref = true := by
    obtain ⟨rootId, found⟩ := held
    rcases keeps rootId ref found with ⟨key, there⟩ | unused
    · exact .inl ⟨key, by rw [now]; exact there⟩
    · exact .inr unused
  constructor
  · exact contained.bound
  · intro rootId ref found
    rw [now] at found
    exact rooted rootId ref found
  · intro ref world found alive
    rcases kept ref (contained.live ref world found alive) with held | unused
    · exact held
    · exact absurd alive (quiet_iff.mp (unused_iff.mp unused).1 world found)
  · intro ref world tid tree found running works
    rcases kept tree (contained.working ref world tid tree found running works) with held | unused
    · exact held
    · exact absurd works ((unused_iff.mp unused).2 ref world tid found running)

theorem registerNode (contained : Contained s) (nodeId rootId : MessageId) :
    Contained (s.setManager s.current (s.repository.registerNode nodeId rootId)) :=
  contained.setRepository contained.rooted fun rootId _ found => .inl ⟨rootId, found⟩

theorem saveTree_current (s : MessageHandler) (ref : Ref) : (s.saveTree ref).current = s.current := by
  unfold MessageHandler.saveTree
  split <;> rfl

theorem saveTree_repository (s : MessageHandler) (ref : Ref) : (s.saveTree ref).repository = s.repository := by
  unfold MessageHandler.saveTree
  split <;> rfl

theorem record_current (s : MessageHandler) (ref : Ref) (first second statusMsgId : MessageId) :
    (s.record ref first second statusMsgId).current = s.current := by
  unfold MessageHandler.record
  split
  · rfl
  · exact saveTree_current _ ref

theorem record (contained : Contained s) (ref : Ref) (first second statusMsgId : MessageId) :
    Contained (s.record ref first second statusMsgId) := by
  unfold MessageHandler.record
  split
  · exact contained
  · exact ((contained.registerNode _ _).setStore _).saveTree ref

theorem foldl {α : Type} {change : MessageHandler → α → MessageHandler}
    (keeps : ∀ s item, Contained s → Contained (change s item)) (items : List α) (contained : Contained s) :
    Contained (items.foldl change s) := by
  induction items generalizing s with
  | nil => exact contained
  | cons item rest ih => exact ih (keeps s item contained)

theorem updateCancelledNodesUi (contained : Contained s) (cancelled : List MessageId) :
    Contained (s.updateCancelledNodesUi cancelled) :=
  foldl (fun _ ref contained => contained.saveTree ref) _ contained

theorem getElem?_alloc {heap : List World} {root : MessageNode} {ref : Ref} {world : World}
    (found : (heap ++ [World.start root])[ref]? = some world) : heap[ref]? = some world ∨ world = .start root := by
  rw [List.getElem?_append] at found
  split at found
  · exact .inl found
  · rw [List.getElem?_singleton] at found
    split at found
    · exact .inr (Option.some.inj found).symm
    · cases found

theorem alloc (contained : Contained s) (root : MessageNode) :
    Contained { s with heap := s.heap ++ [World.start root] } := by
  constructor
  · exact contained.bound
  · intro rootId ref found
    obtain ⟨world, there, own⟩ := contained.rooted rootId ref found
    exact ⟨world, by rw [List.getElem?_append_left (List.getElem?_eq_some_iff.mp there).1]; exact there, own⟩
  · intro ref world found alive
    rcases getElem?_alloc found with there | rfl
    · exact contained.live ref world there alive
    · obtain ⟨_, _, nowhere, _⟩ := alive
      cases nowhere
  · intro ref world tid tree found running works
    rcases getElem?_alloc found with there | rfl
    · exact contained.working ref world tid tree there running works
    · cases running

theorem unused_alloc {ref : Ref} (free : s.unused ref = true) (root : MessageNode) :
    unused { s with heap := s.heap ++ [World.start root] } ref = true := by
  obtain ⟨quiet, idle⟩ := unused_iff.mp free
  apply unused_iff.mpr
  constructor
  · apply quiet_iff.mpr
    intro world found alive
    rcases getElem?_alloc found with there | rfl
    · exact quiet_iff.mp quiet world there alive
    · obtain ⟨_, _, nowhere, _⟩ := alive
      cases nowhere
  · intro other world tid found running
    rcases getElem?_alloc found with there | rfl
    · exact idle other world tid there running
    · cases running

theorem createTree (contained : Contained s) (nodeId : MessageId) (incoming : IncomingMessage) (statusMessageId : MessageId)
    (now : Timestamp) (unused : (s.repository.getTree nodeId).all s.unused = true) :
    Contained (s.createTree s.current nodeId incoming statusMessageId now).2 := by
  have grown := contained.alloc (.new nodeId incoming statusMessageId none now)
  apply grown.setRepository
  · intro rootId ref found
    change (s.repository.trees.set nodeId s.heap.length).get? rootId = some ref at found
    rw [Dict.get?_set] at found
    split at found
    · rename_i own
      cases found
      refine ⟨.start (.new nodeId incoming statusMessageId none now), ?_, own.symm⟩
      show (s.heap ++ [_])[s.heap.length]? = _
      rw [List.getElem?_append_right (Nat.le_refl _), Nat.sub_self]
      rfl
    · exact grown.rooted rootId ref found
  · intro rootId ref found
    by_cases own : rootId = nodeId
    · subst own
      change s.repository.getTree rootId = some ref at found
      rw [found] at unused
      exact .inr (unused_alloc unused _)
    · refine .inl ⟨rootId, ?_⟩
      show (s.repository.trees.set nodeId s.heap.length).get? rootId = some ref
      rw [Dict.get?_set_ne _ _ own]
      exact found

theorem addToTree_eq_some {after : MessageHandler} {ref : Ref} {manager : Nat}
    {parentNodeId nodeId statusMessageId : MessageId}
    {incoming : IncomingMessage}
    (added : s.addToTree manager parentNodeId nodeId incoming statusMessageId = some (ref, after)) :
    ∃ world tree, (s.managers manager).getTreeForNode parentNodeId = some ref ∧ s.heap[ref]? = some world ∧
      world.tree.addNode nodeId incoming statusMessageId parentNodeId world.now = some tree ∧
      after = (s.onWorld ref fun world => { world.detach (world.tree.getNode nodeId).toList with tree := tree }).setManager
        manager ((s.managers manager).registerNode nodeId tree.rootId) := by
  unfold MessageHandler.addToTree at added
  simp only [Option.bind_eq_bind, Option.bind_eq_some_iff] at added
  obtain ⟨ref', located, world, found, tree, grown, same⟩ := added
  cases same
  exact ⟨world, tree, located, found, grown, rfl⟩

theorem addToTree (contained : Contained s) {after : MessageHandler} {ref : Ref}
    {parentNodeId nodeId statusMessageId : MessageId}
    {incoming : IncomingMessage}
    (added : s.addToTree s.current parentNodeId nodeId incoming statusMessageId = some (ref, after)) : Contained after := by
  obtain ⟨world, tree, _, found, grown, rfl⟩ := addToTree_eq_some added
  have changed : Contained
    (s.onWorld ref fun world => { world.detach (world.tree.getNode nodeId).toList with tree := tree }) := by
    apply contained.onWorld
    · intro old there
      cases found.symm.trans there
      exact addNode_rootId grown
    · intro old _ tid running
      rw [phaseAt_detach] at running
      exact .inl running
    · intro old _ alive
      obtain ⟨tid, phase, at', going⟩ := alive
      rw [phaseAt_detach] at at'
      exact .inl ⟨tid, phase, at', going⟩
  exact changed.registerNode nodeId tree.rootId

theorem file (contained : Contained s) (i : Nat) (incoming : IncomingMessage) (parentNodeId : Option MessageId)
    (statusMsgId : MessageId) (now : Timestamp)
    (unused : parentNodeId = none → (s.repository.getTree incoming.messageId).all s.unused = true) :
    Contained (s.file i incoming s.current parentNodeId statusMsgId now) := by
  unfold MessageHandler.file
  cases parentNodeId with
  | none =>
    have created := contained.createTree incoming.messageId incoming statusMsgId now (unused rfl)
    apply (created.record _ _ _ _).setStage
    intro manager asks
    cases asks
    exact (record_current ..).symm
  | some parentNodeId =>
    dsimp only
    split
    · exact contained.setStage i fun _ asks => by cases asks
    · rename_i ref after added
      apply ((contained.addToTree added).record _ _ _ _).setStage
      intro manager asks
      cases asks
      exact (record_current ..).symm

theorem enqueue (contained : Contained s) (i : Nat) (nodeId : MessageId) : Contained (s.enqueue i nodeId s.current) := by
  unfold MessageHandler.enqueue
  split
  · exact contained.setStage i fun _ asks => by cases asks
  · rename_i ref found
    have held : s.Held ref := held_of_getTreeForNode found
    have started : Contained (s.onWorld ref (·.enqueueAndStart nodeId)) :=
      contained.onMoves ref (fun world _ => .enqueueAndStart world nodeId) fun _ _ _ => .inr held
    apply started.setStage
    split <;> exact fun _ asks => by cases asks

theorem cancelAll (contained : Contained s) (manager : Nat) : Contained (s.cancelAll manager).2 := by
  apply cancelAll_induction fun both => Contained both.2
  · exact contained
  · exact fun _ _ ref _ before => before.onSteady ref .cancelTree

theorem cancelNode (contained : Contained s) (manager : Nat) (nodeId : MessageId) :
    Contained (s.cancelNode manager nodeId).2 := by
  unfold MessageHandler.cancelNode
  split
  · exact contained
  · exact contained.onSteady _ fun world => .cancelNode world nodeId

theorem cancelBranch (contained : Contained s) (manager : Nat) (branchRootId : MessageId) :
    Contained (s.cancelBranch manager branchRootId).2 := by
  unfold MessageHandler.cancelBranch
  split
  · exact contained
  · exact contained.onSteady _ fun world => .cancelBranch world branchRootId

theorem swap (contained : Contained s) (i : Nat) (unbound : s.calls.all fun call => call.stage.manager = none)
    (quiet : s.repository.trees.values.all s.quiet) : Contained (s.swap i) := by
  have still (ref : Ref) (world : World) (found : s.heap[ref]? = some world) : ¬ Live world := by
    intro alive
    obtain ⟨rootId, held⟩ := contained.live ref world found alive
    exact quiet_iff.mp (List.all_eq_true.mp quiet ref (Dict.mem_values_of_get? _ held)) world found alive
  have replaced (cleared : List Nat) : Contained { s with
      store := .new
      managers := Function.update s.managers (s.current + 1) .new
      current := s.current + 1
      cleared := cleared } := by
    constructor
    · intro j call manager found asks
      have none := of_decide_eq_true (List.all_eq_true.mp unbound call (List.mem_of_getElem? found))
      rw [none] at asks
      cases asks
    · intro rootId ref found
      simp only [MessageHandler.repository, Function.update_self] at found
      cases found
    · intro ref world found alive
      exact absurd alive (still ref world found)
    · intro ref world tid tree found running _
      exact absurd ⟨tid, .running, running, fun no => by cases no⟩ (still ref world found)
  exact (replaced _).setStage i fun _ asks => by cases asks

theorem getTree_removeTree (repo : TreeRepository Ref) (rootId key : MessageId) (nodeIds : List MessageId) :
    (repo.removeTree rootId nodeIds).getTree key = if key = rootId then none else repo.getTree key := by
  unfold TreeRepository.removeTree
  split
  · exact Dict.get?_erase ..
  · rename_i absent
    split
    · rename_i here
      rw [here]
      exact Option.not_isSome_iff_eq_none.mp absent
    · rfl

theorem pruned (contained : Contained s) {ref : Ref} {world : World} (found : s.heap[ref]? = some world)
    {branchRootId : MessageId} (below : branchRootId ≠ world.tree.rootId) :
    Contained (s.onWorld ref (·.removeBranch branchRootId)) := by
  have result : world.removeBranch branchRootId = { world.detach (world.tree.removeBranch branchRootId).1 with
      tree := (world.tree.removeBranch branchRootId).2 } := by
    rw [World.removeBranch, if_neg below]
  apply contained.onWorld
  · intro old there
    cases found.symm.trans there
    rw [result]
    exact removeBranch_rootId world.tree branchRootId
  · intro old there tid running
    cases found.symm.trans there
    rw [result, phaseAt_detach] at running
    exact .inl running
  · intro old there alive
    cases found.symm.trans there
    obtain ⟨tid, phase, at', going⟩ := alive
    rw [result, phaseAt_detach] at at'
    exact .inl ⟨tid, phase, at', going⟩

theorem removeBranch (contained : Contained s) (i : Nat) (branchRootId : MessageId)
    (unused : (s.repository.getTreeForNode branchRootId).all fun ref =>
      s.heap[ref]?.all fun world => branchRootId ≠ world.tree.rootId || s.unused ref) :
    Contained (s.removeBranch i s.current branchRootId) := by
  unfold MessageHandler.removeBranch
  split
  · exact contained.setStage i fun _ asks => by cases asks
  · rename_i ref located
    split
    · exact contained.setStage i fun _ asks => by cases asks
    · rename_i world found
      dsimp only
      split
      · rename_i whole
        have free : s.unused ref = true := by
          change s.repository.getTreeForNode branchRootId = some ref at located
          rw [located, Option.all_some, found, Option.all_some] at unused
          simpa [whole] using unused
        obtain ⟨rootId, _, here⟩ := Option.bind_eq_some_iff.mp located
        obtain ⟨world', found', own⟩ := contained.rooted rootId ref here
        cases found.symm.trans found'
        have dropped : Contained (s.setManager s.current (s.repository.removeTree world.tree.rootId
            (world.cancelTree.tree.allNodes.map (·.nodeId)))) := by
          apply contained.setRepository
          · intro key other there
            rw [getTree_removeTree] at there
            split at there
            · cases there
            · exact contained.rooted key other there
          · intro key other there
            by_cases same : key = world.tree.rootId
            · rw [same, own] at there
              cases (show s.repository.getTree rootId = some ref from here).symm.trans there
              exact .inr free
            · exact .inl ⟨key, by rw [getTree_removeTree, if_neg same]; exact there⟩
        exact ((dropped.onSteady ref .cancelTree).setStore _).setStage i fun _ asks => by cases asks
      · rename_i below
        have cut := contained.pruned found below
        split
        · exact cut.setStage i fun _ asks => by cases asks
        · have unregistered : Contained ((s.onWorld ref (·.removeBranch branchRootId)).setManager s.current
              (s.repository.unregisterNodes ((world.tree.removeBranch branchRootId).1.map (·.nodeId)))) :=
            cut.setRepository cut.rooted fun rootId _ there => .inl ⟨rootId, there⟩
          refine Contained.setStage ?_ i fun _ asks => by cases asks
          generalize TreeRepository.getTree _ _ = saved
          cases saved with
          | none => exact unregistered.setStore _
          | some other => exact (unregistered.setStore _).saveTree other

end Contained

theorem begin_eq_some {s after : MessageHandler} {ref : Ref} {tid : TaskId} (begun : s.begin ref tid = some after) :
    ∃ world task, s.heap[ref]? = some world ∧ world.ready tid .created = some task ∧
      after = s.firstStep ref tid world task := by
  obtain ⟨world, next, rest⟩ := Option.bind_eq_some_iff.mp begun
  obtain ⟨task, ready, same⟩ := Option.map_eq_some_iff.mp rest
  exact ⟨world, task, (Option.filter_eq_some_iff.mp next).1, ready, same.symm⟩

namespace Contained

variable {s : MessageHandler}

theorem processNode (contained : Contained s) {ref : Ref} {tid : TaskId} {world : World} {task : Task}
    (found : s.heap[ref]? = some world) (ready : world.ready tid .created = some task)
    (held : world.nodeState task ≠ some .error → ∀ tree, (s.processing ref tid).tree = some tree → s.Held tree) :
    Contained (s.onWorld ref fun world => world.processNode tid task) := by
  apply contained.onWorld
  · intro old _
    unfold World.processNode
    split <;> rfl
  · intro old there j running
    cases found.symm.trans there
    unfold World.processNode at running
    split at running
    · exact .inl ((Moves.advance world tid .dequeuing (fun no => by cases no)).running j running)
    · rename_i runs
      change phaseAt (world.advance tid .running) j = _ at running
      rw [Moves.phaseAt_advance] at running
      split at running
      · rename_i here
        exact .inr (here ▸ held runs)
      · exact .inl running
  · intro old there _
    cases found.symm.trans there
    exact .inl (live_of_ready ready (fun no => by cases no))

theorem begin (contained : Contained s) {ref : Ref} {tid : TaskId} {after : MessageHandler}
    (begun : s.begin ref tid = some after) : Contained after := by
  obtain ⟨world, task, found, ready, rfl⟩ := begin_eq_some begun
  have looked (p : Processing) (held : ∀ tree, p.tree = some tree → s.Held tree) :
      Contained ((s.setProcessing ref tid p).onWorld ref fun world => world.processNode tid task) := by
    apply (contained.setProcessing ref tid held).processNode found ready
    intro _ tree works
    rw [processing_setProcessing, if_pos ⟨rfl, rfl⟩] at works
    exact held tree works
  unfold MessageHandler.firstStep
  dsimp only
  split
  · rename_i error
    exact contained.processNode found ready fun runs => absurd error runs
  · split
    · exact looked ⟨none, none, none, true⟩ fun _ held => by cases held
    · rename_i tree located
      have held : ∀ other, some tree = some other → s.Held other := by
        intro other same
        cases same
        exact held_of_getTreeForNode located
      exact (looked ⟨some tree, none, none, false⟩ held).onSteady tree fun world => .onTree (.updateState ..)

theorem writeState (contained : Contained s) {ref : Ref} {tid : TaskId} (task : Task) {p : Processing}
    (held : ∀ tree, p.tree = some tree → s.Held tree) (state : MessageState) (sessionId errorMessage : Option String)
    (saves : Bool) : Contained (s.writeState ref tid task p state sessionId errorMessage saves) := by
  unfold MessageHandler.writeState
  split
  · exact contained.setProcessing ref tid held
  · rename_i tree works
    have written : Contained (s.onWorld tree fun world =>
        world.onTree fun t => t.updateState task.node state sessionId errorMessage world.now) :=
      contained.onSteady tree fun world => .onTree (.updateState ..)
    dsimp only
    split
    · apply (written.saveTree tree).setProcessing
      intro other same
      obtain ⟨rootId, there⟩ := held other same
      exact ⟨rootId, by rw [saveTree_repository]; exact there⟩
    · exact written.setProcessing ref tid held

theorem works (contained : Contained s) {ref : Ref} {tid : TaskId} {world : World} {task : Task}
    (found : s.heap[ref]? = some world) (ready : world.ready tid .running = some task) :
    ∀ tree, (s.processing ref tid).tree = some tree → s.Held tree := by
  obtain ⟨present, running, _⟩ := World.ready_some ready
  have here : phaseAt world tid = some .running := by rw [phaseAt, present, Option.map_some, running]
  exact fun tree works => contained.working ref world tid tree found here works

theorem fail (contained : Contained s) {ref : Ref} {tid : TaskId} (errorMessage : String) (task : Task) {p : Processing}
    (held : ∀ tree, p.tree = some tree → s.Held tree) : Contained (s.fail ref tid errorMessage task p) := by
  unfold MessageHandler.fail
  split
  · apply Contained.setProcessing
    · exact contained.onSteady _ fun world => .onTree (.markNodeError ..)
    · exact held
  · exact contained

theorem tick (contained : Contained s) :
    Contained { s with heap := s.heap.map fun world => { world with now := world.now + 1 } } := by
  have split (ref : Ref) (world : World)
      (found : (s.heap.map fun world => ({ world with now := world.now + 1 } : World))[ref]? = some world) :
      ∃ old, s.heap[ref]? = some old ∧ world = { old with now := old.now + 1 } := by
    rw [List.getElem?_map] at found
    obtain ⟨old, there, same⟩ := Option.map_eq_some_iff.mp found
    exact ⟨old, there, same.symm⟩
  constructor
  · exact contained.bound
  · intro rootId ref found
    obtain ⟨world, there, own⟩ := contained.rooted rootId ref found
    refine ⟨{ world with now := world.now + 1 }, ?_, own⟩
    rw [List.getElem?_map, there]
    rfl
  · intro ref world found alive
    obtain ⟨old, there, rfl⟩ := split ref world found
    exact contained.live ref old there alive
  · intro ref world tid tree found running works
    obtain ⟨old, there, rfl⟩ := split ref world found
    exact contained.working ref old tid tree there running works

theorem resume (contained : Contained s) {i : Nat} {call : Call} (found : s.calls[i]? = some call) {sent : MessageId}
    {now : Timestamp} (safe : s.leavesUnused (.resume i sent now) = true) {after : MessageHandler}
    (resumed : s.resume i call sent now = some after) : Contained after := by
  have bound := contained.bound i call
  simp only [leavesUnused, found, Option.all_some] at safe
  unfold MessageHandler.resume at resumed
  cases stage : call.stage <;> simp only [stage, Option.some.injEq] at resumed safe bound
  case sending parentNodeId =>
    subst resumed
    apply contained.setStage
    rintro _ ⟨⟩
    rfl
  case filing manager parentNodeId statusMsgId =>
    subst resumed
    cases bound manager found rfl
    apply contained.file
    intro root
    subst root
    exact safe
  case enqueuing manager =>
    subst resumed
    cases bound manager found rfl
    exact contained.enqueue i _
  case reporting enqueuedIn =>
    subst resumed
    exact contained.setStage i fun _ asks => by cases asks
  case cancellingAll manager clears =>
    subst resumed
    exact (contained.cancelAll manager).setStage i fun _ asks => by cases asks
  case stoppingCli cancelled clears =>
    subst resumed
    apply (contained.updateCancelledNodesUi cancelled).setStage
    split <;> exact fun _ asks => by cases asks
  case deletingMessages =>
    subst resumed
    rw [Bool.and_eq_true] at safe
    exact contained.swap i safe.1 safe.2
  case cancellingNode manager nodeId =>
    subst resumed
    exact ((contained.cancelNode manager nodeId).updateCancelledNodesUi _).setStage i fun _ asks => by cases asks
  case cancellingBranch manager branchRootId =>
    subst resumed
    exact ((contained.cancelBranch manager branchRootId).updateCancelledNodesUi _).setStage i fun _ asks => by cases asks
  case deletingBranch branchRootId =>
    subst resumed
    apply contained.setStage
    rintro _ ⟨⟩
    rfl
  case removingBranch manager branchRootId =>
    subst resumed
    cases bound manager found rfl
    exact contained.removeBranch i branchRootId safe
  case answering =>
    subst resumed
    exact contained.setStage i fun _ asks => by cases asks
  all_goals cases resumed

end Contained

theorem whileRunning_eq_some {s after : MessageHandler} {ref : Ref} {tid : TaskId}
    {act : Task → Processing → MessageHandler} (acted : s.whileRunning ref tid act = some after) :
    ∃ world task, s.heap[ref]? = some world ∧ world.ready tid .running = some task ∧
      after = act task (s.processing ref tid) := by
  obtain ⟨task, located, same⟩ := Option.map_eq_some_iff.mp acted
  obtain ⟨world, found, ready⟩ := Option.bind_eq_some_iff.mp located
  exact ⟨world, task, found, ready, same.symm⟩

theorem Contained.step {s after : MessageHandler} {a : HandlerAction} (contained : Contained s)
    (safe : s.leavesUnused a = true)
    (taken : s.step a = some after) : Contained after := by
  cases a with
  | tick =>
    cases taken
    exact contained.tick
  | content incoming =>
    cases taken
    exact contained.arrive incoming fun _ asks => by cases asks
  | stop incoming =>
    cases taken
    apply contained.arrive
    intro manager asks
    split at asks
    · cases asks
      rfl
    · cases resolved : s.resolveParentNodeId _ <;> rw [resolved] at asks <;> cases asks
      rfl
  | clear incoming =>
    cases taken
    apply contained.arrive
    intro manager asks
    split at asks
    · cases asks
      rfl
    · cases resolved : s.resolveParentNodeId _ <;> rw [resolved] at asks <;> cases asks
      rfl
  | resume i sent now =>
    obtain ⟨call, found, resumed⟩ := Option.bind_eq_some_iff.mp taken
    exact contained.resume found safe resumed
  | begin ref tid => exact contained.begin taken
  | opened ref tid isNew sessionId =>
    obtain ⟨world, task, found, ready, rfl⟩ := whileRunning_eq_some taken
    apply contained.setProcessing
    split <;> exact contained.works found ready
  | sessionInfo ref tid sessionId =>
    obtain ⟨world, task, found, ready, rfl⟩ := whileRunning_eq_some taken
    unfold MessageHandler.sessionInfo
    split
    · exact contained
    · have held : ∀ tree, ({ s.processing ref tid with capturedSessionId := some sessionId, tempSessionId := none } :
          Processing).tree = some tree → s.Held tree := contained.works found ready
      exact contained.writeState task held ..
  | complete ref tid =>
    obtain ⟨world, task, found, ready, rfl⟩ := whileRunning_eq_some taken
    unfold MessageHandler.complete
    split
    · exact contained.writeState task (contained.works found ready) ..
    · exact contained
  | limited ref tid errorMessage =>
    obtain ⟨world, task, found, ready, rfl⟩ := whileRunning_eq_some taken
    exact contained.writeState task (contained.works found ready) ..
  | cancelled ref tid =>
    obtain ⟨world, task, found, ready, rfl⟩ := whileRunning_eq_some taken
    exact contained.writeState task (contained.works found ready) ..
  | failed ref tid errorMessage =>
    obtain ⟨world, task, found, ready, rfl⟩ := whileRunning_eq_some taken
    exact contained.fail errorMessage task (contained.works found ready)
  | process ref action =>
    simp only [MessageHandler.step] at taken
    split at taken
    · cases taken
    · rename_i own
      obtain ⟨next, stepped, rfl⟩ := Option.map_eq_some_iff.mp taken
      obtain ⟨world, found, moved⟩ := Option.bind_eq_some_iff.mp stepped
      obtain ⟨moves, live⟩ := moves_of_step (by simpa using own) moved
      apply contained.onMoves
      · intro old there
        cases found.symm.trans there
        exact moves
      · intro old there alive
        cases found.symm.trans there
        exact .inl (live alive)

end MessageHandler

end ClaudeProxy.Manager

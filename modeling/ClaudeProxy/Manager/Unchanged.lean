import ClaudeProxy.Manager.Steady

namespace ClaudeProxy.Manager

open Kit Trees

/-- The same nodes in the same states, so the tree is serialised the same, and no processing has stopped. -/
structure Unchanged (before after : World) : Prop where
  saved : toDict after.tree = toDict before.tree
  running : ∀ tid, phaseAt before tid = some .running → phaseAt after tid = some .running

theorem toDict_eq {before after : MessageTree} (rootId : after.rootId = before.rootId) (nodes : after.nodes = before.nodes) :
    toDict after = toDict before := by
  rw [toDict, toDict, rootId, nodes]

namespace Unchanged

theorem refl (world : World) : Unchanged world world := ⟨rfl, fun _ at' => at'⟩

theorem trans {first middle last : World} (left : Unchanged first middle) (right : Unchanged middle last) :
    Unchanged first last :=
  ⟨right.saved.trans left.saved, fun tid at' => right.running tid (left.running tid at')⟩

theorem launch (world : World) (nodeId : MessageId) : Unchanged world (world.launch nodeId) := by
  unfold World.launch
  split
  · exact refl world
  · refine ⟨rfl, fun tid at' => ?_⟩
    obtain ⟨task, found, phase⟩ := Option.map_eq_some_iff.mp at'
    have inTasks := (List.getElem?_eq_some_iff.mp found).1
    rw [phaseAt, World.createTask, List.getElem?_append_left inTasks, found, Option.map_some, phase]

theorem enqueueAndStart (world : World) (nodeId : MessageId) : Unchanged world (world.enqueueAndStart nodeId) := by
  cases busy : world.tree.isProcessing with
  | true =>
    simp only [World.enqueueAndStart, busy, if_true]
    exact ⟨rfl, fun _ at' => at'⟩
  | false =>
    rw [World.enqueueAndStart_idle nodeId busy]
    have started : Unchanged world (world.starting nodeId) := ⟨rfl, fun _ at' => at'⟩
    exact started.trans (launch ..)

theorem advance {world : World} {tid : TaskId} {task : Task} {from' : Phase} (ready : world.ready tid from' = some task)
    (still : from' ≠ .running) (phase : Phase) : Unchanged world (world.advance tid phase) := by
  obtain ⟨present, same, _⟩ := World.ready_some ready
  refine ⟨rfl, fun j at' => ?_⟩
  rw [Moves.phaseAt_advance]
  split
  · rename_i here
    subst here
    rw [phaseAt, present, Option.map_some, same] at at'
    exact absurd (Option.some.inj at') still
  · exact at'

theorem processNode {world : World} {tid : TaskId} {task : Task} (ready : world.ready tid .created = some task) :
    Unchanged world (world.processNode tid task) := by
  unfold World.processNode
  split
  · exact advance ready (fun no => by cases no) .dequeuing
  · have moved := advance ready (fun no => by cases no) .running
    exact ⟨moved.saved, moved.running⟩

theorem processNext {world : World} {tid : TaskId} {task : Task} (ready : world.ready tid .dequeuing = some task) :
    Unchanged world (world.processNext tid) := by
  unfold World.processNext
  split
  · have moved := advance ready (fun no => by cases no) .done
    exact ⟨moved.saved, moved.running⟩
  · rename_i nodeId _ dequeued
    obtain ⟨⟨_, queue⟩, _, same⟩ := Option.map_eq_some_iff.mp dequeued
    cases same
    have moved := advance ready (fun no => by cases no) .notifying
    let rest : MessageTree := { world.tree with queue := queue }
    have taken : Unchanged world (World.advance { world with tree := rest.setProcessingState (some nodeId) true } tid
        .notifying) :=
      ⟨rfl, moved.running⟩
    exact taken.trans (launch _ nodeId)

theorem deliverCancel {world : World} {tid : TaskId} {task : Task} (present : world.tasks[tid]? = some task) :
    Unchanged world (world.deliverCancel tid task) := by
  refine ⟨rfl, fun j at' => ?_⟩
  rw [phaseAt, World.deliverCancel, List.getElem?_modify]
  by_cases here : tid = j
  · subst here
    rw [phaseAt, present, Option.map_some] at at'
    simp only [present, if_true, Option.map_eq_map, Option.map_some, Option.some.inj at']
  · simp only [here, if_false, id_map']
    exact at'

/-- A step of the processor writes a state only after an exception, and ends no processing but the one that returns or
    raises. -/
theorem of_step {world next : World} {action : Trees.Action} (own : ofProcessor action = true)
    (taken : Trees.step world action = some next) :
    (toDict next.tree = toDict world.tree ∨ ∃ tid errorMessage, action = .handle tid errorMessage) ∧
      ∀ tid, phaseAt world tid = some .running → action ≠ .finish tid → action ≠ .raise tid →
        phaseAt next tid = some .running := by
  have steps (unchanged : Unchanged world next) :
      (toDict next.tree = toDict world.tree ∨ ∃ tid errorMessage, action = .handle tid errorMessage) ∧
        ∀ tid, phaseAt world tid = some .running → action ≠ .finish tid → action ≠ .raise tid →
          phaseAt next tid = some .running :=
    ⟨.inl unchanged.saved, fun tid at' _ _ => unchanged.running tid at'⟩
  cases action with
  | finish tid =>
    obtain ⟨task, ready, rfl⟩ := Option.map_eq_some_iff.mp taken
    refine ⟨.inl rfl, fun j at' other _ => ?_⟩
    have different : tid ≠ j := by
      intro same
      exact other (same ▸ rfl)
    rw [Moves.phaseAt_advance, if_neg different]
    exact at'
  | raise tid =>
    obtain ⟨task, ready, rfl⟩ := Option.map_eq_some_iff.mp taken
    refine ⟨.inl rfl, fun j at' _ other => ?_⟩
    have different : tid ≠ j := by
      intro same
      exact other (same ▸ rfl)
    rw [Moves.phaseAt_advance, if_neg different]
    exact at'
  | handle tid errorMessage =>
    obtain ⟨task, ready, rfl⟩ := Option.map_eq_some_iff.mp taken
    have moved := advance ready (fun no => by cases no) .clearing
    refine ⟨.inr ⟨tid, errorMessage, rfl⟩, fun j at' _ _ => ?_⟩
    exact moved.running j at'
  | clear tid =>
    obtain ⟨task, ready, rfl⟩ := Option.map_eq_some_iff.mp taken
    have moved := advance ready (fun no => by cases no) .dequeuing
    exact steps ⟨rfl, moved.running⟩
  | next tid =>
    obtain ⟨task, ready, rfl⟩ := Option.map_eq_some_iff.mp taken
    exact steps (processNext ready)
  | notified tid =>
    obtain ⟨task, ready, rfl⟩ := Option.map_eq_some_iff.mp taken
    exact steps (advance ready (fun no => by cases no) .done)
  | deliver tid =>
    simp only [Trees.step] at taken
    split at taken
    · cases taken
    · rename_i task present
      split at taken
      · cases taken
        exact steps (deliverCancel present)
      · cases taken
  | _ => cases own

end Unchanged

section Cancellation

open MessageHandler (cancelledBy marked)

theorem Alike.hasNode {before after : MessageTree} (alike : Alike before after) (nodeId : MessageId) :
    after.hasNode nodeId = before.hasNode nodeId := alike.isSome nodeId

/-- Either the drained nodes are nodes of the tree, or nothing was drained and the nodes are untouched. -/
theorem drainQueueLoop_cases (errorMessage : String) (now : Timestamp) (rounds : Nat) (tree : MessageTree) :
    (∀ nodeId ∈ (MessageTree.drainQueueLoop errorMessage now rounds tree).1, tree.hasNode nodeId = true) ∧
      ((MessageTree.drainQueueLoop errorMessage now rounds tree).1 = [] →
        (MessageTree.drainQueueLoop errorMessage now rounds tree).2.nodes = tree.nodes) := by
  induction rounds generalizing tree with
  | zero => exact ⟨fun _ member => absurd member List.not_mem_nil, fun _ => rfl⟩
  | succ rounds ih =>
    unfold MessageTree.drainQueueLoop
    split
    · exact ⟨fun _ member => absurd member List.not_mem_nil, fun _ => rfl⟩
    · rename_i nodeId queue _
      dsimp only
      split
      · exact ih { tree with queue := queue }
      · rename_i node found
        obtain ⟨known, _⟩ := ih (({ tree with queue := queue } : MessageTree).setNodeErrorSync nodeId errorMessage now)
        refine ⟨fun other member => ?_, fun none' => by cases none'⟩
        rcases List.mem_cons.mp member with rfl | later
        · exact (hasNode_iff ..).mpr ⟨node, found⟩
        · have there := known other later
          rw [(Alike.setNodeErrorSync { tree with queue := queue } nodeId errorMessage now).hasNode] at there
          exact there

def settled (world : World) : Bool := world.tree.allNodes.all fun node => node.state.terminal

theorem cancelRunning_cases (world : World) :
    (∀ nodeId ∈ world.cancelRunning.1, world.tree.hasNode nodeId = true) ∧
      (world.cancelRunning.1 = [] → world.cancelRunning.2.tree = world.tree) := by
  have asked := world.cancelCurrentTask_tree
  unfold World.cancelRunning
  split
  · exact ⟨fun _ member => absurd member List.not_mem_nil, fun _ => rfl⟩
  · dsimp only
    split
    · exact ⟨fun _ member => (nomatch member), fun _ => asked⟩
    · split
      · exact ⟨fun _ member => (nomatch member), fun _ => asked⟩
      · rename_i node found
        split
        · exact ⟨fun _ member => (nomatch member), fun _ => asked⟩
        · refine ⟨fun nodeId member => ?_, fun none' => by cases none'⟩
          rw [List.mem_singleton.mp member]
          rw [asked] at found
          exact (hasNode_iff ..).mpr ⟨node, found⟩

theorem cancelledBy_known (world : World) (nodeId : MessageId) (member : nodeId ∈ cancelledBy world) :
    world.tree.hasNode nodeId = true := by
  rcases List.mem_append.mp member with running | drained
  · exact (cancelRunning_cases world).1 nodeId running
  · have there := (drainQueueLoop_cases _ _ _ world.cancelRunning.2.tree).1 nodeId drained
    rw [(Steady.cancelRunning world).tree.hasNode] at there
    exact there

theorem cleanUpStale_settled {tree : MessageTree} (ended : ∀ node ∈ tree.allNodes, node.state.terminal = true)
    (cancelled nodeIds : List MessageId) (now : Timestamp) :
    nodeIds.foldl (World.cleanUpStale cancelled now) tree = tree := by
  induction nodeIds with
  | nil => rfl
  | cons nodeId rest ih =>
    have same : World.cleanUpStale cancelled now tree nodeId = tree := by
      unfold World.cleanUpStale
      split
      · rfl
      · rename_i node found
        have terminal := ended node (Dict.mem_values_of_get? _ found)
        rw [if_neg fun both => both.1 terminal]
    rw [List.foldl_cons, same, ih]

theorem cancelTree_settled {world : World} (ended : settled world = true) (none' : cancelledBy world = []) :
    world.cancelTree.tree.nodes = world.tree.nodes := by
  obtain ⟨noRunning, noDrained⟩ := List.append_eq_nil_iff.mp none'
  have running := (cancelRunning_cases world).2 noRunning
  have drained := (drainQueueLoop_cases _ _ _ world.cancelRunning.2.tree).2 noDrained
  have nodes : (world.cancelRunning.2.tree.drainQueueAndMarkCancelled world.cancelRunning.2.now).2.nodes =
    world.tree.nodes := by
    rw [← running]
    exact drained
  have still : ∀ node ∈ (world.cancelRunning.2.tree.drainQueueAndMarkCancelled world.cancelRunning.2.now).2.allNodes,
      node.state.terminal = true := by
    rw [MessageTree.allNodes, nodes]
    exact List.all_eq_true.mp ended
  have stays := cleanUpStale_settled still (cancelledBy world)
    (world.cancelRunning.2.tree.drainQueueAndMarkCancelled world.cancelRunning.2.now).2.nodes.keys world.cancelRunning.2.now
  exact (congrArg MessageTree.nodes stays).trans nodes

theorem drainQueueLoop_lists (errorMessage : String) (now : Timestamp) (rounds : Nat) (tree : MessageTree)
    (enough : tree.queue.deque.length ≤ rounds) {nodeId : MessageId} (queued : nodeId ∈ tree.queue.deque)
    (known : tree.hasNode nodeId = true) : (MessageTree.drainQueueLoop errorMessage now rounds tree).1 ≠ [] := by
  induction rounds generalizing tree with
  | zero =>
    rw [List.eq_nil_of_length_eq_zero (Nat.le_zero.mp enough)] at queued
    cases queued
  | succ rounds ih =>
    unfold MessageTree.drainQueueLoop
    split
    · rename_i empty
      rw [(SnapshotQueue.getNowait_eq_none_iff _).mp empty] at queued
      cases queued
    · rename_i first queue got
      have items := SnapshotQueue.getNowait_eq_some got
      rw [items, List.length_cons] at enough
      rw [items, List.mem_cons] at queued
      dsimp only
      split
      · rename_i absent
        apply ih { tree with queue := queue } (Nat.le_of_succ_le_succ enough)
        · rcases queued with rfl | later
          · obtain ⟨node, found⟩ := (hasNode_iff ..).mp known
            exact absurd (found.symm.trans absent) (fun no => by cases no)
          · exact later
        · exact known
      · exact List.cons_ne_nil _ _

theorem cancelRunning_queue (world : World) : world.cancelRunning.2.tree.queue = world.tree.queue := by
  have asked := congrArg MessageTree.queue world.cancelCurrentTask_tree
  unfold World.cancelRunning
  split
  · rfl
  · dsimp only
    split
    · exact asked
    · split
      · exact asked
      · split
        · exact asked
        · exact (MessageTree.setNodeErrorSync_control world.cancelCurrentTask.tree _ _ _).queue.trans asked

/-- A queued node of the tree, or the node of a task that goes on. -/
def listsNode (world : World) : Bool :=
  world.tree.queue.deque.any world.tree.hasNode ||
    (world.cancellable.isSome && (world.tree.currentNodeId.bind world.tree.getNode).any fun node => !node.state.terminal)

theorem cancelledBy_of_listsNode {world : World} (lists : listsNode world = true) : cancelledBy world ≠ [] := by
  intro none'
  obtain ⟨noRunning, noDrained⟩ := List.append_eq_nil_iff.mp none'
  rcases Bool.or_eq_true_iff.mp lists with queued | current
  · obtain ⟨nodeId, member, known⟩ := List.any_eq_true.mp queued
    rw [← cancelRunning_queue] at member
    rw [← (Steady.cancelRunning world).tree.hasNode] at known
    exact drainQueueLoop_lists _ _ _ _ (Nat.le_refl _) member known noDrained
  · obtain ⟨alive, open'⟩ := Bool.and_eq_true_iff.mp current
    obtain ⟨tid, cancels⟩ := Option.isSome_iff_exists.mp alive
    obtain ⟨node, found, going⟩ := (Option.any_eq_true _ _).mp open'
    obtain ⟨nodeId, here, there⟩ := Option.bind_eq_some_iff.mp found
    simp only [World.cancelRunning, cancels, World.cancelCurrentTask_tree, here, there] at noRunning
    rw [if_neg (by simpa using going)] at noRunning
    cases noRunning

theorem marked_known {world : World} {nodeIds : List MessageId} {nodeId : MessageId}
    (member : nodeId ∈ marked world nodeIds) :
    world.tree.hasNode nodeId = true := by
  obtain ⟨_, open'⟩ := List.mem_filter.mp member
  obtain ⟨node, found, _⟩ := (Option.any_eq_true _ _).mp open'
  exact (hasNode_iff ..).mpr ⟨node, found⟩

theorem cancelNode_unmarked {world : World} {nodeId : MessageId} (none' : marked world [nodeId] = []) :
    world.cancelNode nodeId = world := by
  have closed := List.filter_eq_nil_iff.mp none' nodeId List.mem_cons_self
  unfold World.cancelNode
  split
  · rfl
  · rename_i node found
    rw [found, Option.any_some] at closed
    rw [if_pos (by simpa using closed)]

theorem cancelBranch_unmarked {world : World} {branchRootId : MessageId}
    (none' : marked world (world.tree.getDescendants branchRootId) = []) : world.cancelBranch branchRootId = world := by
  have closed := List.filter_eq_nil_iff.mp none'
  unfold World.cancelBranch
  generalize world.tree.getDescendants branchRootId = nodeIds at closed
  induction nodeIds with
  | nil => rfl
  | cons nodeId rest ih =>
    have same : world.cancelBranchNode nodeId = world := by
      have own := closed nodeId List.mem_cons_self
      unfold World.cancelBranchNode
      split
      · rfl
      · rename_i node found
        rw [found, Option.any_some] at own
        rw [if_pos (by simpa using own)]
    rw [List.foldl_cons, same]
    exact ih fun other member => closed other (List.mem_cons_of_mem _ member)

end Cancellation

end ClaudeProxy.Manager

import ClaudeProxy.Manager.Branches
import ClaudeProxy.Manager.Filing
import ClaudeProxy.Manager.MessageHandler
import ClaudeProxy.Trees.Control

namespace ClaudeProxy.Manager

open Kit Trees

/-- The same nodes, apart from their states and sessions. -/
structure Alike (before after : MessageTree) : Prop where
  rootId : after.rootId = before.rootId
  statusToNode : after.statusToNode = before.statusToNode
  shapes : shapes after = shapes before

namespace Alike

theorem refl (tree : MessageTree) : Alike tree tree := ⟨rfl, rfl, rfl⟩

theorem trans {first middle last : MessageTree} (left : Alike first middle) (right : Alike middle last) : Alike first last :=
  ⟨right.rootId.trans left.rootId, right.statusToNode.trans left.statusToNode, right.shapes.trans left.shapes⟩

theorem of_nodes {before after : MessageTree} (rootId : after.rootId = before.rootId)
    (statusToNode : after.statusToNode = before.statusToNode) (nodes : after.nodes = before.nodes) : Alike before after := by
  refine ⟨rootId, statusToNode, ?_⟩
  funext nodeId
  rw [Manager.shapes, Manager.shapes, MessageTree.getNode, MessageTree.getNode, nodes]

theorem modifyNode (tree : MessageTree) (nodeId : MessageId) {change : MessageNode → MessageNode}
    (keeps : ∀ node, shapeOf (change node) = shapeOf node) : Alike tree (tree.modifyNode nodeId change) := by
  refine ⟨rootId_modifyNode tree nodeId change, ?_, shapes_modifyNode tree nodeId keeps⟩
  unfold MessageTree.modifyNode
  split <;> rfl

theorem updateState (tree : MessageTree) (nodeId : MessageId) (state : MessageState) (sessionId errorMessage : Option String)
    (now : Timestamp) : Alike tree (tree.updateState nodeId state sessionId errorMessage now) :=
  modifyNode tree nodeId fun _ => rfl

theorem setNodeErrorSync (tree : MessageTree) (nodeId : MessageId) (errorMessage : String) (now : Timestamp) :
    Alike tree (tree.setNodeErrorSync nodeId errorMessage now) :=
  modifyNode tree nodeId fun _ => rfl

theorem removeFromQueue (tree : MessageTree) (nodeId : MessageId) : Alike tree (tree.removeFromQueue nodeId) :=
  of_nodes rfl rfl rfl

theorem foldl {α : Type} (change : MessageTree → α → MessageTree) (alike : ∀ tree item, Alike tree (change tree item))
    (items : List α) (tree : MessageTree) : Alike tree (items.foldl change tree) := by
  induction items generalizing tree with
  | nil => exact refl tree
  | cons item rest ih => exact (alike tree item).trans (ih _)

theorem markNodeError (tree : MessageTree) (nodeId : MessageId) (errorMessage : String) (now : Timestamp) :
    Alike tree (tree.markNodeError nodeId errorMessage true now).2 := by
  have children (tree : MessageTree) (ids : List MessageId) (message : Option String) :
      Alike tree (ids.foldl (fun t child => t.updateState child .error none message now) tree) :=
    foldl _ (fun tree child => updateState tree child .error none message now) ids tree
  unfold MessageTree.markNodeError
  cases tree.getNode nodeId with
  | none => exact children tree _ _
  | some node => exact (updateState tree nodeId .error none (some errorMessage) now).trans (children _ _ _)

theorem drainQueueLoop (errorMessage : String) (now : Timestamp) (rounds : Nat) (tree : MessageTree) :
    Alike tree (MessageTree.drainQueueLoop errorMessage now rounds tree).2 := by
  induction rounds generalizing tree with
  | zero => exact refl tree
  | succ rounds ih =>
    unfold MessageTree.drainQueueLoop
    split
    · exact refl tree
    · rename_i nodeId queue _
      have popped : Alike tree { tree with queue := queue } := of_nodes rfl rfl rfl
      dsimp only
      split
      · exact popped.trans (ih _)
      · exact (popped.trans (setNodeErrorSync _ nodeId errorMessage now)).trans (ih _)

theorem cleanUpStale (cancelled : List MessageId) (now : Timestamp) (tree : MessageTree) (nodeId : MessageId) :
    Alike tree (World.cleanUpStale cancelled now tree nodeId) := by
  unfold World.cleanUpStale
  split
  · exact refl tree
  · split
    · exact setNodeErrorSync tree nodeId _ now
    · exact refl tree

theorem isSome {before after : MessageTree} (alike : Alike before after) (nodeId : MessageId) :
    (after.getNode nodeId).isSome = (before.getNode nodeId).isSome := by
  have same := congrArg Option.isSome (congrFun alike.shapes nodeId)
  rw [Manager.shapes, Manager.shapes, Option.isSome_map, Option.isSome_map] at same
  exact same

end Alike

def phaseAt (world : World) (tid : TaskId) : Option Phase := world.tasks[tid]?.map (·.phase)

theorem phaseAt_detach (world : World) (gone : List MessageNode) (tree : MessageTree) (tid : TaskId) :
    phaseAt { world.detach gone with tree := tree } tid = phaseAt world tid := by
  simp only [phaseAt, World.detach, List.getElem?_map, Option.map_map]
  congr 1
  funext task
  simp only [Function.comp_apply]
  split <;> rfl

/-- A cancellation that is delivered moves its own task on, which does not begin to run. -/
theorem phaseAt_deliverCancel {world : World} {tid j : TaskId} {task : Task} {phase : Phase}
    (present : world.tasks[tid]? = some task) (at' : phaseAt (world.deliverCancel tid task) j = some phase) :
    phaseAt world j = some phase ∨ phaseAt world tid = some task.phase ∧ phase ≠ .running ∧
      (phase ≠ .done → task.phase ≠ .done) := by
  have own : phaseAt world tid = some task.phase := by rw [phaseAt, present, Option.map_some]
  rw [phaseAt, World.deliverCancel, List.getElem?_modify] at at'
  by_cases here : tid = j
  · subst here
    rw [present] at at'
    simp only [if_true, Option.map_eq_map, Option.map_some, Option.some.injEq] at at'
    rw [own]
    cases before : task.phase <;> rw [before] at at' <;> simp [← at']
  · simp only [here, if_false, id_map'] at at'
    exact .inl at'

/-- The same tree with the same tasks, which may have been asked to stop. -/
structure Steady (before after : World) : Prop where
  tree : Alike before.tree after.tree
  phases : ∀ tid, phaseAt after tid = phaseAt before tid

namespace Steady

theorem refl (world : World) : Steady world world := ⟨.refl _, fun _ => rfl⟩

theorem trans {first middle last : World} (left : Steady first middle) (right : Steady middle last) : Steady first last :=
  ⟨left.tree.trans right.tree, fun tid => (right.phases tid).trans (left.phases tid)⟩

theorem onTree {world : World} {change : MessageTree → MessageTree} (alike : Alike world.tree (change world.tree)) :
    Steady world (world.onTree change) :=
  ⟨alike, fun _ => rfl⟩

theorem cancelCurrentTask (world : World) : Steady world world.cancelCurrentTask where
  tree := by
    rw [World.cancelCurrentTask_tree]
    exact .refl _
  phases := world.cancelCurrentTask_subsides.phases

theorem cancelNode (world : World) (nodeId : MessageId) : Steady world (world.cancelNode nodeId) := by
  refine ⟨?_, (world.cancelNode_subsides nodeId).phases⟩
  unfold World.cancelNode
  split
  · exact .refl _
  · split
    · exact .refl _
    · have removed (world : World) : Alike world.tree ((world.onTree fun t =>
          (t.removeFromQueue nodeId).setNodeErrorSync nodeId "Cancelled by user" world.now).tree) :=
        (Alike.removeFromQueue world.tree nodeId).trans (.setNodeErrorSync _ nodeId _ _)
      dsimp only
      split
      · exact (cancelCurrentTask world).tree.trans (removed _)
      · exact removed world

theorem cancelBranchNode (world : World) (nodeId : MessageId) : Steady world (world.cancelBranchNode nodeId) := by
  refine ⟨?_, (world.cancelBranchNode_subsides nodeId).phases⟩
  unfold World.cancelBranchNode
  split
  · exact .refl _
  · split
    · exact .refl _
    · split
      · exact (cancelCurrentTask world).tree.trans (.setNodeErrorSync world.cancelCurrentTask.tree nodeId _ _)
      · exact (Alike.removeFromQueue world.tree nodeId).trans (.setNodeErrorSync _ nodeId _ _)

theorem cancelBranch (world : World) (branchRootId : MessageId) : Steady world (world.cancelBranch branchRootId) := by
  unfold World.cancelBranch
  generalize world.tree.getDescendants branchRootId = nodeIds
  induction nodeIds generalizing world with
  | nil => exact refl world
  | cons nodeId rest ih => exact (cancelBranchNode world nodeId).trans (ih _)

theorem cancelRunning (world : World) : Steady world world.cancelRunning.2 := by
  refine ⟨?_, world.cancelRunning_subsides.phases⟩
  have asked := (cancelCurrentTask world).tree
  unfold World.cancelRunning
  split
  · exact .refl _
  · dsimp only
    split
    · exact asked
    · split
      · exact asked
      · split
        · exact asked
        · exact asked.trans (.setNodeErrorSync world.cancelCurrentTask.tree _ _ _)

theorem cancelTree (world : World) : Steady world world.cancelTree := by
  have running := cancelRunning world
  have drained := Alike.drainQueueLoop "Cancelled by user" world.cancelRunning.2.now
    world.cancelRunning.2.tree.queue.qsize world.cancelRunning.2.tree
  refine ⟨?_, running.phases⟩
  apply (running.tree.trans drained).trans
  apply Alike.trans (Alike.foldl (World.cleanUpStale _ _) (Alike.cleanUpStale _ _) _ _)
  exact Alike.of_nodes rfl rfl rfl

end Steady

def Live (world : World) : Prop := ∃ tid phase, phaseAt world tid = some phase ∧ phase ≠ .done

/-- The same tree, in which no task has begun to run. -/
structure Moves (before after : World) : Prop where
  tree : Alike before.tree after.tree
  running : ∀ tid, phaseAt after tid = some .running → phaseAt before tid = some .running

theorem Steady.live {before after : World} (steady : Steady before after) (live : Live after) : Live before := by
  obtain ⟨tid, phase, at', going⟩ := live
  exact ⟨tid, phase, (steady.phases tid).symm.trans at', going⟩

theorem Steady.moves {before after : World} (steady : Steady before after) : Moves before after :=
  ⟨steady.tree, fun tid at' => (steady.phases tid).symm.trans at'⟩

namespace Moves

theorem trans {first middle last : World} (left : Moves first middle) (right : Moves middle last) : Moves first last :=
  ⟨left.tree.trans right.tree, fun tid at' => left.running tid (right.running tid at')⟩

theorem launch (world : World) (nodeId : MessageId) : Moves world (world.launch nodeId) := by
  unfold World.launch
  split
  · exact (Steady.refl world).moves
  · refine ⟨.of_nodes rfl rfl rfl, fun tid at' => ?_⟩
    rw [phaseAt, World.createTask, List.getElem?_append] at at'
    split at at'
    · exact at'
    · rw [List.getElem?_singleton] at at'
      split at at' <;> cases at'

theorem enqueueAndStart (world : World) (nodeId : MessageId) : Moves world (world.enqueueAndStart nodeId) := by
  cases busy : world.tree.isProcessing with
  | true =>
    simp only [World.enqueueAndStart, busy, if_true]
    exact ⟨.of_nodes rfl rfl rfl, fun _ at' => at'⟩
  | false =>
    rw [World.enqueueAndStart_idle nodeId busy]
    have started : Moves world (world.starting nodeId) := ⟨.of_nodes rfl rfl rfl, fun _ at' => at'⟩
    exact started.trans (launch ..)

theorem phaseAt_advance (world : World) (tid other : TaskId) (phase : Phase) :
    phaseAt (world.advance tid phase) other =
      if tid = other then (phaseAt world other).map fun _ => phase else phaseAt world other := by
  rw [phaseAt, World.advance, List.getElem?_modify, phaseAt]
  split
  · cases world.tasks[other]? <;> rfl
  · cases world.tasks[other]? <;> rfl

theorem advance (world : World) (tid : TaskId) (phase : Phase) (other : phase ≠ .running) :
    Moves world (world.advance tid phase) := by
  refine ⟨.refl _, fun j at' => ?_⟩
  rw [phaseAt_advance] at at'
  split at at'
  · obtain ⟨_, _, same⟩ := Option.map_eq_some_iff.mp at'
    exact absurd same other
  · exact at'

theorem processNext (world : World) (tid : TaskId) : Moves world (world.processNext tid) := by
  unfold World.processNext
  split
  · have freed : Moves world { world with tree := world.tree.setProcessingState none false } :=
      ⟨.of_nodes rfl rfl rfl, fun _ at' => at'⟩
    exact freed.trans (advance _ tid .done (fun no => by cases no))
  · rename_i nodeId _ dequeued
    obtain ⟨⟨_, queue⟩, _, same⟩ := Option.map_eq_some_iff.mp dequeued
    cases same
    have taken : Moves world
        { world with tree := MessageTree.setProcessingState { world.tree with queue := queue } (some nodeId) true } :=
      ⟨.of_nodes rfl rfl rfl, fun _ at' => at'⟩
    exact (taken.trans (advance _ tid .notifying (fun no => by cases no))).trans (launch _ nodeId)

theorem deliverCancel {world : World} {tid : TaskId} {task : Task} (present : world.tasks[tid]? = some task) :
    Moves world (world.deliverCancel tid task) := by
  refine ⟨.refl _, fun j at' => ?_⟩
  rcases phaseAt_deliverCancel present at' with same | ⟨-, idle, -⟩
  · exact same
  · exact absurd rfl idle

end Moves

theorem live_of_ready {world : World} {tid : TaskId} {phase : Phase} {task : Task}
    (ready : world.ready tid phase = some task)
    (going : phase ≠ .done) : Live world := by
  obtain ⟨present, same, _⟩ := World.ready_some ready
  exact ⟨tid, phase, by rw [phaseAt, present, Option.map_some, same], going⟩

theorem live_deliverCancel {world : World} {tid : TaskId} {task : Task} (present : world.tasks[tid]? = some task)
    (live : Live (world.deliverCancel tid task)) : Live world := by
  obtain ⟨j, phase, at', going⟩ := live
  rcases phaseAt_deliverCancel present at' with same | ⟨own, -, open'⟩
  · exact ⟨j, phase, same, going⟩
  · exact ⟨tid, task.phase, own, open' going⟩

/-- The processor's own steps keep the tree, begin no processing and are taken for a live task. -/
theorem moves_of_step {world next : World} {action : Trees.Action} (own : ofProcessor action = true)
    (taken : Trees.step world action = some next) : Moves world next ∧ (Live next → Live world) := by
  cases action with
  | finish tid =>
    obtain ⟨task, ready, rfl⟩ := Option.map_eq_some_iff.mp taken
    exact ⟨.advance _ tid _ (fun no => by cases no), fun _ => live_of_ready ready (fun no => by cases no)⟩
  | raise tid =>
    obtain ⟨task, ready, rfl⟩ := Option.map_eq_some_iff.mp taken
    exact ⟨.advance _ tid _ (fun no => by cases no), fun _ => live_of_ready ready (fun no => by cases no)⟩
  | handle tid errorMessage =>
    obtain ⟨task, ready, rfl⟩ := Option.map_eq_some_iff.mp taken
    have written : Steady world (world.onTree fun t => t.updateState task.node .error none (some errorMessage) world.now) :=
      .onTree (.updateState ..)
    exact ⟨written.moves.trans (.advance _ tid _ (fun no => by cases no)),
      fun _ => live_of_ready ready (fun no => by cases no)⟩
  | clear tid =>
    obtain ⟨task, ready, rfl⟩ := Option.map_eq_some_iff.mp taken
    have cleared : Steady world (world.onTree (·.clearCurrentNode)) := .onTree (.of_nodes rfl rfl rfl)
    exact ⟨cleared.moves.trans (.advance _ tid _ (fun no => by cases no)),
      fun _ => live_of_ready ready (fun no => by cases no)⟩
  | next tid =>
    obtain ⟨task, ready, rfl⟩ := Option.map_eq_some_iff.mp taken
    exact ⟨.processNext world tid, fun _ => live_of_ready ready (fun no => by cases no)⟩
  | notified tid =>
    obtain ⟨task, ready, rfl⟩ := Option.map_eq_some_iff.mp taken
    exact ⟨.advance _ tid _ (fun no => by cases no), fun _ => live_of_ready ready (fun no => by cases no)⟩
  | deliver tid =>
    simp only [Trees.step] at taken
    split at taken
    · cases taken
    · rename_i task present
      split at taken
      · cases taken
        exact ⟨.deliverCancel present, live_deliverCancel present⟩
      · cases taken
  | _ => cases own

end ClaudeProxy.Manager

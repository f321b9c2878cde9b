import ClaudeProxy.Trees.Data

namespace ClaudeProxy.Trees

open Kit

/-- What node updates leave alone: the queue and the processing state. -/
structure SameControl (before after : MessageTree) : Prop where
  isProcessing : after.isProcessing = before.isProcessing
  currentTask : after.currentTask = before.currentTask
  currentNodeId : after.currentNodeId = before.currentNodeId
  queue : after.queue = before.queue

theorem SameControl.refl (t : MessageTree) : SameControl t t := ⟨rfl, rfl, rfl, rfl⟩

theorem SameControl.trans {first middle last : MessageTree} (left : SameControl first middle)
    (right : SameControl middle last) : SameControl first last :=
  ⟨right.isProcessing.trans left.isProcessing, right.currentTask.trans left.currentTask,
    right.currentNodeId.trans left.currentNodeId, right.queue.trans left.queue⟩

theorem SameControl.of_nodes (t : MessageTree) (nodes : Dict MessageId MessageNode)
    (statusToNode : Dict MessageId MessageId) :
    SameControl t { t with nodes := nodes, statusToNode := statusToNode } := ⟨rfl, rfl, rfl, rfl⟩

/-- No node appears, and a node that changes its state changes it to `ERROR`. -/
structure ErrorsOnly (before after : MessageTree) : Prop where
  node : ∀ {nodeId node'}, after.getNode nodeId = some node' →
    ∃ node, before.getNode nodeId = some node ∧ node'.nodeId = node.nodeId ∧
      (node'.state = node.state ∨ node'.state = .error)

theorem ErrorsOnly.refl (t : MessageTree) : ErrorsOnly t t := ⟨fun found => ⟨_, found, rfl, .inl rfl⟩⟩

theorem ErrorsOnly.trans {first middle last : MessageTree} (left : ErrorsOnly first middle)
    (right : ErrorsOnly middle last) : ErrorsOnly first last := by
  constructor
  intro nodeId node found
  obtain ⟨node', found', id', same | error⟩ := right.node found
  · obtain ⟨node'', found'', id'', same' | error'⟩ := left.node found'
    · exact ⟨node'', found'', id'.trans id'', .inl (same.trans same')⟩
    · exact ⟨node'', found'', id'.trans id'', .inr (same.trans error')⟩
  · obtain ⟨node'', found'', id'', _⟩ := left.node found'
    exact ⟨node'', found'', id'.trans id'', .inr error⟩

theorem ErrorsOnly.of_nodes {before after : MessageTree} (same : after.nodes = before.nodes) :
    ErrorsOnly before after := by
  constructor
  intro nodeId node found
  rw [MessageTree.getNode, same] at found
  exact ⟨node, found, rfl, .inl rfl⟩

theorem ErrorsOnly.absent {before after : MessageTree} (errors : ErrorsOnly before after) {nodeId : MessageId}
    (absent : before.getNode nodeId = none) : after.getNode nodeId = none := by
  cases found : after.getNode nodeId with
  | none => rfl
  | some node =>
    obtain ⟨old, present, _⟩ := errors.node found
    rw [absent] at present
    cases present

/-- Every node is stored under its own id. -/
def Keyed (t : MessageTree) : Prop := ∀ nodeId node, t.getNode nodeId = some node → node.nodeId = nodeId

theorem ErrorsOnly.keyed {before after : MessageTree} (errors : ErrorsOnly before after)
    (keyed : Keyed before) : Keyed after := by
  intro nodeId node found
  obtain ⟨old, present, same, _⟩ := errors.node found
  exact same.trans (keyed nodeId old present)

namespace MessageTree

theorem modifyNode_control (t : MessageTree) (nodeId : MessageId) (change : MessageNode → MessageNode) :
    SameControl t (t.modifyNode nodeId change) := by
  unfold modifyNode
  split <;> exact ⟨rfl, rfl, rfl, rfl⟩

theorem getNode_modifyNode (t : MessageTree) (nodeId key : MessageId) (change : MessageNode → MessageNode) :
    (t.modifyNode nodeId change).getNode key =
      if key = nodeId then (t.getNode nodeId).map change else t.getNode key := by
  unfold modifyNode getNode
  split
  · rename_i absent
    split
    · rename_i same
      rw [same, absent, Option.map_none]
    · rfl
  · rename_i node found
    rw [Dict.get?_set, found, Option.map_some]

theorem modifyNode_errors (t : MessageTree) (nodeId : MessageId) (change : MessageNode → MessageNode)
    (errs : ∀ node, (change node).nodeId = node.nodeId ∧
      ((change node).state = node.state ∨ (change node).state = .error)) :
    ErrorsOnly t (t.modifyNode nodeId change) := by
  constructor
  intro key node found
  rw [getNode_modifyNode] at found
  split at found
  · rename_i same
    obtain ⟨old, present, rfl⟩ := Option.map_eq_some_iff.mp found
    exact ⟨old, same ▸ present, (errs old).1, (errs old).2⟩
  · exact ⟨node, found, rfl, .inl rfl⟩

theorem updateState_control (t : MessageTree) (nodeId : MessageId) (state : MessageState)
    (sessionId errorMessage : Option String) (now : Timestamp) :
    SameControl t (t.updateState nodeId state sessionId errorMessage now) :=
  modifyNode_control ..

theorem updateState_errors (t : MessageTree) (nodeId : MessageId) (sessionId errorMessage : Option String)
    (now : Timestamp) : ErrorsOnly t (t.updateState nodeId .error sessionId errorMessage now) :=
  modifyNode_errors t nodeId _ fun _ => ⟨rfl, .inr rfl⟩

theorem getNode_updateState_ne (t : MessageTree) {nodeId key : MessageId} (state : MessageState)
    (sessionId errorMessage : Option String) (now : Timestamp) (ne : key ≠ nodeId) :
    (t.updateState nodeId state sessionId errorMessage now).getNode key = t.getNode key := by
  rw [updateState, getNode_modifyNode, if_neg ne]

theorem setNodeErrorSync_control (t : MessageTree) (nodeId : MessageId) (errorMessage : String)
    (now : Timestamp) : SameControl t (t.setNodeErrorSync nodeId errorMessage now) :=
  modifyNode_control ..

theorem setNodeErrorSync_errors (t : MessageTree) (nodeId : MessageId) (errorMessage : String)
    (now : Timestamp) : ErrorsOnly t (t.setNodeErrorSync nodeId errorMessage now) :=
  modifyNode_errors t nodeId _ fun _ => ⟨rfl, .inr rfl⟩

theorem setNodeErrorSync_state {t : MessageTree} {nodeId : MessageId} {errorMessage : String}
    {now : Timestamp} {node : MessageNode}
    (found : (t.setNodeErrorSync nodeId errorMessage now).getNode nodeId = some node) :
    node.state = .error := by
  rw [setNodeErrorSync, getNode_modifyNode, if_pos rfl] at found
  obtain ⟨_, _, rfl⟩ := Option.map_eq_some_iff.mp found
  rfl

theorem addNode_control {t after : MessageTree} {nodeId statusMessageId parentId : MessageId}
    {incoming : IncomingMessage} {now : Timestamp}
    (added : t.addNode nodeId incoming statusMessageId parentId now = some after) : SameControl t after := by
  unfold addNode at added
  split at added
  · cases added
  · cases added
    exact (SameControl.of_nodes ..).trans (modifyNode_control ..)

theorem getNode_addNode {t after : MessageTree} {nodeId statusMessageId parentId key : MessageId}
    {incoming : IncomingMessage} {now : Timestamp} {node : MessageNode}
    (added : t.addNode nodeId incoming statusMessageId parentId now = some after)
    (found : after.getNode key = some node) :
    key = nodeId ∧ node.nodeId = nodeId ∧ node.state = .pending ∨
      ∃ old, t.getNode key = some old ∧ node.nodeId = old.nodeId ∧ node.state = old.state := by
  unfold addNode at added
  split at added
  · cases added
  · cases added
    rw [getNode_modifyNode] at found
    by_cases fresh : key = nodeId
    · refine .inl ⟨fresh, ?_⟩
      subst fresh
      split at found
      · obtain ⟨old, present, rfl⟩ := Option.map_eq_some_iff.mp found
        rename_i same
        rw [← same, getNode, Dict.get?_set_self] at present
        cases present
        exact ⟨rfl, rfl⟩
      · rw [getNode, Dict.get?_set_self] at found
        cases found
        exact ⟨rfl, rfl⟩
    · refine .inr ?_
      split at found
      · rename_i same
        obtain ⟨old, present, rfl⟩ := Option.map_eq_some_iff.mp found
        rw [getNode, Dict.get?_set_ne _ _ (same ▸ fresh)] at present
        exact ⟨old, same ▸ present, rfl, rfl⟩
      · rw [getNode, Dict.get?_set_ne _ _ fresh] at found
        exact ⟨node, found, rfl, rfl⟩

theorem removeFromQueue_sublist (t : MessageTree) (nodeId : MessageId) :
    List.Sublist (t.removeFromQueue nodeId).queue.deque t.queue.deque :=
  SnapshotQueue.removeIfPresent_sublist ..

theorem drainQueueLoop_frame (errorMessage : String) (now : Timestamp) (rounds : Nat) (t : MessageTree) :
    let after := (drainQueueLoop errorMessage now rounds t).2
    after.isProcessing = t.isProcessing ∧ after.currentTask = t.currentTask ∧
      after.currentNodeId = t.currentNodeId ∧ ErrorsOnly t after := by
  induction rounds generalizing t with
  | zero => exact ⟨rfl, rfl, rfl, .refl t⟩
  | succ rounds ih =>
    simp only [drainQueueLoop]
    split
    · exact ⟨rfl, rfl, rfl, .refl t⟩
    · rename_i nodeId queue _
      have popped : ErrorsOnly t { t with queue := queue } := .of_nodes rfl
      split
      · obtain ⟨processing, task, current, errors⟩ := ih { t with queue := queue }
        exact ⟨processing, task, current, popped.trans errors⟩
      · obtain ⟨processing, task, current, errors⟩ :=
          ih (({ t with queue := queue } : MessageTree).setNodeErrorSync nodeId errorMessage now)
        have marked := setNodeErrorSync_control { t with queue := queue } nodeId errorMessage now
        exact ⟨processing.trans marked.isProcessing, task.trans marked.currentTask,
          current.trans marked.currentNodeId, (popped.trans (setNodeErrorSync_errors ..)).trans errors⟩

theorem drainQueueLoop_empties (errorMessage : String) (now : Timestamp) (rounds : Nat) (t : MessageTree)
    (enough : t.queue.deque.length ≤ rounds) :
    (drainQueueLoop errorMessage now rounds t).2.queue.deque = [] := by
  induction rounds generalizing t with
  | zero =>
    exact List.eq_nil_of_length_eq_zero (Nat.le_zero.mp enough)
  | succ rounds ih =>
    simp only [drainQueueLoop]
    split
    · rename_i empty
      exact (SnapshotQueue.getNowait_eq_none_iff _).mp empty
    · rename_i nodeId queue got
      have items := SnapshotQueue.getNowait_eq_some got
      have shorter : queue.deque.length ≤ rounds := by
        rw [items, List.length_cons] at enough
        omega
      split
      · exact ih { t with queue := queue } shorter
      · apply ih
        rw [(setNodeErrorSync_control { t with queue := queue } nodeId errorMessage now).queue]
        exact shorter

theorem drainQueueAndMarkCancelled_deque (t : MessageTree) (now : Timestamp) :
    (t.drainQueueAndMarkCancelled now).2.queue.deque = [] :=
  drainQueueLoop_empties _ _ _ t (Nat.le_refl _)

theorem removeNodes_frame (ids : List MessageId) (t : MessageTree) :
    SameControl t (removeNodes ids t).2.1 ∧ ErrorsOnly t (removeNodes ids t).2.1 := by
  induction ids generalizing t with
  | nil => exact ⟨.refl t, .refl t⟩
  | cons nodeId rest ih =>
    have erased (statuses : Dict MessageId MessageId) :
        ErrorsOnly t { t with nodes := t.nodes.erase nodeId, statusToNode := statuses } := by
      constructor
      intro key node found
      rw [getNode, Dict.get?_erase] at found
      split at found
      · cases found
      · exact ⟨node, found, rfl, .inl rfl⟩
    simp only [removeNodes]
    split
    · exact ih t
    · rename_i node _
      split
      · exact ⟨⟨rfl, rfl, rfl, rfl⟩, erased _⟩
      · obtain ⟨control, errors⟩ := ih { t with
          nodes := t.nodes.erase nodeId
          statusToNode := t.statusToNode.erase node.statusMessageId }
        exact ⟨(SameControl.of_nodes t _ _).trans control, (erased _).trans errors⟩

theorem removeNodes_gone (ids : List MessageId) {t : MessageTree} (keyed : Keyed t) {node : MessageNode}
    (removed : node ∈ (removeNodes ids t).1) : (removeNodes ids t).2.1.getNode node.nodeId = none := by
  induction ids generalizing t with
  | nil => simp [removeNodes] at removed
  | cons nodeId rest ih =>
    simp only [removeNodes] at removed ⊢
    cases found : t.nodes.get? nodeId with
    | none =>
      simp only [found] at removed ⊢
      exact ih keyed removed
    | some old =>
      have own : old.nodeId = nodeId := keyed nodeId old found
      have erased (statuses : Dict MessageId MessageId) : ErrorsOnly t
          { t with nodes := t.nodes.erase nodeId, statusToNode := statuses } := by
        constructor
        intro key node found
        rw [getNode, Dict.get?_erase] at found
        split at found
        · cases found
        · exact ⟨node, found, rfl, .inl rfl⟩
      simp only [found] at removed ⊢
      split at removed
      · rename_i missing
        rw [if_pos missing]
        simp only [List.mem_singleton] at removed
        rw [removed, own]
        exact Dict.get?_erase_self ..
      · rename_i there
        rw [if_neg there]
        simp only [List.mem_cons] at removed
        rcases removed with rfl | removed
        · apply (removeNodes_frame _ _).2.absent
          rw [own]
          exact Dict.get?_erase_self ..
        · exact ih ((erased _).keyed keyed) removed

theorem removeBranch_frame (t : MessageTree) (branchRootId : MessageId) :
    SameControl t (t.removeBranch branchRootId).2 ∧ ErrorsOnly t (t.removeBranch branchRootId).2 := by
  unfold removeBranch
  split
  · exact ⟨.refl t, .refl t⟩
  · have frame := removeNodes_frame (t.getDescendants branchRootId) t
    split
    · rename_i eq
      rw [eq] at frame
      exact frame
    · rename_i eq
      rw [eq] at frame
      dsimp only
      split
      · exact frame
      · exact ⟨frame.1.trans (modifyNode_control ..),
          frame.2.trans (modifyNode_errors _ _ _ fun _ => ⟨rfl, .inl rfl⟩)⟩

theorem removeBranch_gone {t : MessageTree} (keyed : Keyed t) (branchRootId : MessageId) {node : MessageNode}
    (removed : node ∈ (t.removeBranch branchRootId).1) :
    (t.removeBranch branchRootId).2.getNode node.nodeId = none := by
  unfold removeBranch at removed ⊢
  split at removed
  · simp at removed
  · rename_i there
    rw [if_neg there]
    have gone (removed : node ∈ (removeNodes (t.getDescendants branchRootId) t).1) :=
      removeNodes_gone (t.getDescendants branchRootId) keyed removed
    cases eq : removeNodes (t.getDescendants branchRootId) t with
    | mk removedNodes rest =>
      obtain ⟨after, done⟩ := rest
      rw [eq] at gone
      simp only [eq] at removed ⊢
      cases done with
      | false => exact gone removed
      | true =>
        dsimp only at removed ⊢
        cases parent : t.getParent branchRootId with
        | none =>
          simp only [parent] at removed
          exact gone removed
        | some old =>
          simp only [parent] at removed ⊢
          have kept := modifyNode_errors after old.nodeId
            (fun node => { node with childrenIds := node.childrenIds.filter (· ≠ branchRootId) })
            fun _ => ⟨rfl, .inl rfl⟩
          exact kept.absent (gone removed)

theorem drainQueueLoop_marks (errorMessage : String) (now : Timestamp) (rounds : Nat) (t : MessageTree)
    {nodeId : MessageId} {node : MessageNode} (drained : nodeId ∈ (drainQueueLoop errorMessage now rounds t).1)
    (found : (drainQueueLoop errorMessage now rounds t).2.getNode nodeId = some node) : node.state = .error := by
  induction rounds generalizing t with
  | zero => simp [drainQueueLoop] at drained
  | succ rounds ih =>
    simp only [drainQueueLoop] at drained found
    split at drained
    · simp at drained
    · rename_i first queue got
      simp only [got] at found
      split at drained
      · rename_i absent
        simp only [absent] at found
        exact ih _ drained found
      · rename_i old present
        simp only [present, List.mem_cons] at drained found
        rcases drained with rfl | drained
        · obtain ⟨marked, at', _, same | error⟩ := (drainQueueLoop_frame errorMessage now rounds _).2.2.2.node found
          · rw [same]
            exact setNodeErrorSync_state at'
          · exact error
        · exact ih _ drained found

theorem updateStates_frame (ids : List MessageId) (t : MessageTree) (message : Option String)
    (now : Timestamp) :
    SameControl t (ids.foldl (fun t child => t.updateState child .error none message now) t) ∧
      ErrorsOnly t (ids.foldl (fun t child => t.updateState child .error none message now) t) := by
  induction ids generalizing t with
  | nil => exact ⟨.refl t, .refl t⟩
  | cons child rest ih =>
    obtain ⟨control, errors⟩ := ih (t.updateState child .error none message now)
    exact ⟨(updateState_control ..).trans control, (updateState_errors ..).trans errors⟩

theorem markNodeError_frame (t : MessageTree) (nodeId : MessageId) (errorMessage : String)
    (propagate : Bool) (now : Timestamp) :
    SameControl t (t.markNodeError nodeId errorMessage propagate now).2 ∧
      ErrorsOnly t (t.markNodeError nodeId errorMessage propagate now).2 := by
  have own : SameControl t (t.updateState nodeId .error none (some errorMessage) now) ∧
      ErrorsOnly t (t.updateState nodeId .error none (some errorMessage) now) :=
    ⟨updateState_control .., updateState_errors ..⟩
  unfold markNodeError
  cases t.getNode nodeId with
  | none =>
    cases propagate
    · exact ⟨.refl t, .refl t⟩
    · exact updateStates_frame _ _ _ _
  | some node =>
    cases propagate
    · exact own
    · have children := updateStates_frame
        ((t.updateState nodeId .error none (some errorMessage) now).getPendingChildren nodeId)
        (t.updateState nodeId .error none (some errorMessage) now) (some ("Parent failed: " ++ errorMessage)) now
      exact ⟨own.1.trans children.1, own.2.trans children.2⟩

end MessageTree

end ClaudeProxy.Trees

import ClaudeProxy.Handler.ProcessNode
import ClaudeProxy.Trees.Frame

namespace ClaudeProxy.Handler

open Kit Trees Providers

variable {nodeId : MessageId}

namespace TreeOf

theorem getNode_self (t : TreeOf nodeId) : t.tree.getNode nodeId = some t.node := (Option.some_get t.has).symm

theorem node_eq {t : TreeOf nodeId} {node : MessageNode} (found : t.tree.getNode nodeId = some node) :
    t.node = node := by
  have own := t.getNode_self
  rw [found] at own
  exact (Option.some.inj own).symm

theorem getNode_modifyNode (t : TreeOf nodeId) (key other : MessageId) (change : MessageNode → MessageNode) :
    (t.modifyNode key change).tree.getNode other =
      if other = key then (t.tree.getNode key).map change else t.tree.getNode other :=
  MessageTree.getNode_modifyNode t.tree key other change

theorem node_modifyNode (t : TreeOf nodeId) (key : MessageId) (change : MessageNode → MessageNode) :
    (t.modifyNode key change).node = if nodeId = key then change t.node else t.node := by
  apply node_eq
  rw [getNode_modifyNode]
  split
  · rename_i same
    rw [← same, getNode_self, Option.map_some]
  · exact t.getNode_self

theorem updateState_eq (t : TreeOf nodeId) (key : MessageId) (state : MessageState)
    (sessionId errorMessage : Option String) (now : Timestamp) :
    t.updateState key state sessionId errorMessage now = t.modifyNode key fun node => { node with
      state := state
      sessionId := if truthy sessionId then sessionId else node.sessionId
      errorMessage := if truthy errorMessage then errorMessage else node.errorMessage
      completedAt := if state = .completed ∨ state = .error then some now else node.completedAt } := rfl

@[simp] theorem state_updateState_self (t : TreeOf nodeId) (state : MessageState)
    (sessionId errorMessage : Option String) (now : Timestamp) :
    (t.updateState nodeId state sessionId errorMessage now).state = state := by
  rw [updateState_eq, TreeOf.state, node_modifyNode, if_pos rfl]

theorem state_updateState_error {t : TreeOf nodeId} (failed : t.state = .error) (key : MessageId)
    (sessionId errorMessage : Option String) (now : Timestamp) :
    (t.updateState key .error sessionId errorMessage now).state = .error := by
  rw [updateState_eq, TreeOf.state, node_modifyNode]
  split
  · rfl
  · exact failed

/-- A child that `mark_node_error` with propagation would mark. -/
def HasPendingChild (t : TreeOf nodeId) : Prop :=
  ∃ child ∈ t.node.childrenIds, child ≠ nodeId ∧ ∃ node, t.tree.getNode child = some node ∧ node.state = .pending

/-- The trees differ in the node alone, and there not in its children. -/
structure SameOthers (t other : TreeOf nodeId) : Prop where
  children : t.node.childrenIds = other.node.childrenIds
  nodes : ∀ key, key ≠ nodeId → t.tree.getNode key = other.tree.getNode key

theorem SameOthers.symm {t other : TreeOf nodeId} (same : SameOthers t other) : SameOthers other t :=
  ⟨same.children.symm, fun key different => (same.nodes key different).symm⟩

theorem SameOthers.trans {first middle last : TreeOf nodeId} (left : SameOthers first middle)
    (right : SameOthers middle last) : SameOthers first last :=
  ⟨left.children.trans right.children, fun key other => (left.nodes key other).trans (right.nodes key other)⟩

theorem modifyNode_sameOthers (t : TreeOf nodeId) {change : MessageNode → MessageNode}
    (keeps : ∀ node, (change node).childrenIds = node.childrenIds) : SameOthers (t.modifyNode nodeId change) t := by
  constructor
  · rw [node_modifyNode, if_pos rfl, keeps]
  · intro key other
    rw [getNode_modifyNode, if_neg other]

theorem updateState_sameOthers (t : TreeOf nodeId) (state : MessageState) (sessionId errorMessage : Option String)
    (now : Timestamp) : SameOthers (t.updateState nodeId state sessionId errorMessage now) t :=
  t.modifyNode_sameOthers fun _ => rfl

theorem meanwhile_sameOthers (t other : TreeOf nodeId) : SameOthers (t.meanwhile other) other :=
  other.modifyNode_sameOthers fun _ => rfl

/-- What the others write does not depend on the node's own state. -/
theorem SameOthers.meanwhiles {t other : TreeOf nodeId} (same : SameOthers t other) (others : Others nodeId) :
    SameOthers (t.meanwhiles others) (other.meanwhiles others) := by
  induction others generalizing t other with
  | nil => exact same
  | cons written rest ih =>
    cases written with
    | none => exact ih same
    | some tree => exact ih ((meanwhile_sameOthers t tree).trans (meanwhile_sameOthers other tree).symm)

theorem SameOthers.hasPendingChild {t other : TreeOf nodeId} (same : SameOthers t other) :
    t.HasPendingChild ↔ other.HasPendingChild := by
  unfold HasPendingChild
  rw [same.children]
  constructor
  · rintro ⟨child, listed, different, node, found, pending⟩
    exact ⟨child, listed, different, node, (same.nodes child different) ▸ found, pending⟩
  · rintro ⟨child, listed, different, node, found, pending⟩
    exact ⟨child, listed, different, node, (same.nodes child different) ▸ found, pending⟩

theorem meanwhiles_append (t : TreeOf nodeId) (first rest : Others nodeId) :
    t.meanwhiles (first ++ rest) = (t.meanwhiles first).meanwhiles rest := List.foldl_append

theorem meanwhiles_take_drop (t : TreeOf nodeId) (others : Others nodeId) (n : Nat) :
    (t.meanwhiles (others.take n)).meanwhiles (others.drop n) = t.meanwhiles others := by
  rw [← meanwhiles_append, List.take_append_drop]

/-- The walk for pending descendants starts with the pending children and ends at once without one. -/
theorem getPendingChildren_eq_nil {t : TreeOf nodeId} (failed : t.state = .error) :
    t.tree.getPendingChildren nodeId = [] ↔ ¬ t.HasPendingChild := by
  have rounds : t.tree.walkBound = (t.tree.nodes.values.map fun node => node.childrenIds.length).sum + 1 :=
    Nat.add_comm ..
  have own : t.tree.nodes.get? nodeId = some t.node := t.getNode_self
  unfold MessageTree.getPendingChildren HasPendingChild
  rw [rounds, MessageTree.pendingLoop, own]
  simp only [Option.map_some, Option.getD_some]
  constructor
  · rintro none' ⟨child, listed, -, node, found, pending⟩
    have empty := (List.append_eq_nil_iff.mp none').1
    have kept := List.filter_eq_nil_iff.mp empty child listed
    rw [MessageTree.getNode] at found
    simp [found, pending] at kept
  · intro childless
    have empty : t.node.childrenIds.filter
        (fun child => (t.tree.nodes.get? child).any fun node => node.state = .pending) = [] := by
      apply List.filter_eq_nil_iff.mpr
      intro child listed marked
      obtain ⟨node, found, pending⟩ := Option.any_eq_true _ _ |>.mp marked
      have pending := of_decide_eq_true pending
      refine childless ⟨child, listed, ?_, node, found, pending⟩
      rintro rfl
      rw [own] at found
      cases found
      rw [TreeOf.state, pending] at failed
      cases failed
    rw [empty]
    cases (t.tree.nodes.values.map fun node => node.childrenIds.length).sum <;> rfl

end TreeOf

/-- One of the others writes `ERROR` to the node. -/
def failedBy (others : Others nodeId) : Bool := others.any fun written => written.any fun tree => tree.state = .error

/-- The state of a node to which others write. -/
def stateAfter (state : MessageState) (others : Others nodeId) : MessageState :=
  if state.isOpen ∧ failedBy others then .error else state

theorem stateAfter_closed {state : MessageState} (closed : state.isOpen = false) (others : Others nodeId) :
    stateAfter state others = state := by
  rw [stateAfter, closed]
  exact if_neg fun both => Bool.false_ne_true both.1

@[simp] theorem stateAfter_error (others : Others nodeId) : stateAfter .error others = .error := stateAfter_closed rfl others

@[simp] theorem stateAfter_completed (others : Others nodeId) : stateAfter .completed others = .completed :=
  stateAfter_closed rfl others

@[simp] theorem stateAfter_nil (state : MessageState) : stateAfter state ([] : Others nodeId) = state :=
  if_neg fun both => Bool.false_ne_true both.2

theorem stateAfter_append (state : MessageState) (first rest : Others nodeId) :
    stateAfter state (first ++ rest) = stateAfter (stateAfter state first) rest := by
  have either : failedBy (first ++ rest) = (failedBy first || failedBy rest) := List.any_append
  cases isOpen : state.isOpen with
  | false => rw [stateAfter_closed isOpen, stateAfter_closed isOpen, stateAfter_closed isOpen]
  | true =>
    cases failed : failedBy first with
    | true =>
      have early : stateAfter state first = .error := if_pos ⟨isOpen, failed⟩
      rw [early, stateAfter_error]
      exact if_pos ⟨isOpen, by rw [either, failed, Bool.true_or]⟩
    | false => simp [stateAfter, either, isOpen, failed]

theorem stateAfter_take_drop (state : MessageState) (others : Others nodeId) (n : Nat) :
    stateAfter (stateAfter state (others.take n)) (others.drop n) = stateAfter state others := by
  rw [← stateAfter_append, List.take_append_drop]

theorem stateAfter_inProgress (others : Others nodeId) : stateAfter .inProgress others = .error ↔ failedBy others = true := by
  unfold stateAfter
  split_ifs with failed <;> simp_all [MessageState.isOpen]

theorem stateAfter_running {state : MessageState} (running : state = .inProgress ∨ state = .error)
    (others : Others nodeId) : stateAfter state others = .inProgress ∨ stateAfter state others = .error := by
  rcases running with rfl | rfl
  · unfold stateAfter
    split_ifs
    · exact .inr rfl
    · exact .inl rfl
  · exact .inr (stateAfter_error others)

theorem state_meanwhile (t other : TreeOf nodeId) : (t.meanwhile other).state = stateAfter t.state [some other] := by
  rw [TreeOf.meanwhile, TreeOf.state, TreeOf.node_modifyNode, if_pos rfl]
  simp [stateAfter, failedBy]

theorem state_meanwhiles (t : TreeOf nodeId) (others : Others nodeId) :
    (t.meanwhiles others).state = stateAfter t.state others := by
  induction others generalizing t with
  | nil => exact (stateAfter_nil _).symm
  | cons written rest ih =>
    rw [← List.singleton_append, stateAfter_append, TreeOf.meanwhiles_append, ih]
    cases written with
    | none => simp [TreeOf.meanwhiles, stateAfter, failedBy]
    | some tree => exact congrArg (stateAfter · rest) (state_meanwhile t tree)

end ClaudeProxy.Handler

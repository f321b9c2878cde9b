import Mathlib.Algebra.Order.Group.Nat
import Mathlib.Algebra.Order.BigOperators.Group.List
import ClaudeProxy.Manager.Persistence
import ClaudeProxy.Manager.TreeStructure

namespace ClaudeProxy.Manager

open Kit Trees

def stateOf (tree : MessageTree) (nodeId : MessageId) : Option MessageState := (tree.getNode nodeId).map (·.state)

/-- Strictly below, by the parent links. -/
abbrev DescendantOf (tree : MessageTree) : MessageId → MessageId → Prop := Relation.TransGen (ParentOf tree)

/-- The error of a node has reached its subtree, changed nothing else, and was reported for each node once. -/
structure PropagationClosed (tree : MessageTree) (nodeId : MessageId) (affected : List MessageId) (after : MessageTree) :
    Prop where
  failed : stateOf after nodeId = some .error
  closed : ∀ x, DescendantOf tree x nodeId → stateOf after x ≠ some .pending
  outside : ∀ x, x ≠ nodeId → ¬ DescendantOf tree x nodeId → after.getNode x = tree.getNode x
  kept : ∀ x, DescendantOf tree x nodeId → stateOf tree x ≠ some .pending → stateOf after x = stateOf tree x
  reported : ∃ rest, affected = nodeId :: rest ∧ rest.Nodup ∧
    ∀ x, x ∈ rest ↔ DescendantOf tree x nodeId ∧ stateOf tree x = some .pending

/-- Between the node and a pending descendant there are pending nodes only. -/
def PendingThroughout (tree : MessageTree) (nodeId : MessageId) : Prop :=
  ∀ x parentId, DescendantOf tree x nodeId → stateOf tree x = some .pending → ParentOf tree x parentId →
    parentId = nodeId ∨ stateOf tree parentId = some .pending

section

variable {tree : MessageTree} {nodeId : MessageId}

def pendingChildrenOf (tree : MessageTree) (nodeId : MessageId) : List MessageId :=
  (childrenOf tree nodeId).filter fun child => stateOf tree child = some .pending

theorem any_pending_iff (x : MessageId) :
    (tree.nodes.get? x).any (fun node => node.state = .pending) = decide (stateOf tree x = some .pending) := by
  show (tree.getNode x).any _ = _
  unfold stateOf
  cases tree.getNode x <;> simp

theorem pendingLoop_eq (rounds : Nat) (stack : List MessageId) :
    tree.pendingLoop rounds stack = Walk.discover (pendingChildrenOf tree) rounds stack := by
  induction rounds generalizing stack with
  | zero => rfl
  | succ rounds ih =>
    cases stack with
    | nil => rfl
    | cons first stack =>
      have found : (((tree.nodes.get? first).map fun node => node.childrenIds).getD []).filter
          (fun child => (tree.nodes.get? child).any fun node => node.state = .pending) = pendingChildrenOf tree first := by
        apply List.filter_congr
        intro child _
        exact any_pending_iff child
      rw [MessageTree.pendingLoop, Walk.discover, found, ih]

theorem forked_pending (grown : Grown tree) (start : MessageId) : Walk.Forked (pendingChildrenOf tree) start :=
  (forked grown start).sub fun _ => List.filter_sublist

theorem getPendingChildren_spec (grown : Grown tree) (known : tree.hasNode nodeId = true) :
    (tree.getPendingChildren nodeId).Nodup ∧
      ∀ x, x ∈ tree.getPendingChildren nodeId ↔ Relation.TransGen (Walk.Child (pendingChildrenOf tree)) nodeId x := by
  have all : ∀ x, Walk.Below (pendingChildrenOf tree) nodeId x → x ∈ tree.nodes.keys := by
    intro x below
    rw [← Dict.contains_iff]
    rcases Relation.ReflTransGen.cases_tail below with rfl | ⟨parent, _, child⟩
    · exact known
    · exact (mem_childrenOf grown (List.mem_of_mem_filter child)).1.child_known
  have enough : 1 + (tree.nodes.keys.map fun x => (pendingChildrenOf tree x).length).sum ≤ tree.walkBound := by
    rw [walkBound_eq]
    apply Nat.add_le_add_left
    apply List.sum_le_sum
    intro x _
    exact List.length_filter_le _ _
  rw [MessageTree.getPendingChildren, pendingLoop_eq]
  exact Walk.discover_start (forked_pending grown nodeId) all enough

theorem pendingChild_iff (grown : Grown tree) {x parentId : MessageId} :
    x ∈ pendingChildrenOf tree parentId ↔ ParentOf tree x parentId ∧ stateOf tree x = some .pending := by
  unfold pendingChildrenOf
  rw [List.mem_filter, decide_eq_true_eq]
  constructor
  · intro both
    exact ⟨(mem_childrenOf grown both.1).1, both.2⟩
  · intro both
    exact ⟨(childrenOf_iff grown (both.1.parent_known grown) x).mpr both.1, both.2⟩

theorem descendant_of_pendingChain (grown : Grown tree) {x : MessageId}
    (chain : Relation.TransGen (Walk.Child (pendingChildrenOf tree)) nodeId x) :
    DescendantOf tree x nodeId ∧ stateOf tree x = some .pending := by
  induction chain with
  | single child =>
    obtain ⟨parent, pending⟩ := (pendingChild_iff grown).mp child
    exact ⟨.single parent, pending⟩
  | tail _ child ih =>
    obtain ⟨parent, pending⟩ := (pendingChild_iff grown).mp child
    exact ⟨.head parent ih.1, pending⟩

/-- The traversal meets every pending descendant exactly if none of them sits below one that is not pending. -/
theorem pendingThroughout_iff (grown : Grown tree) : PendingThroughout tree nodeId ↔ ∀ x,
    Relation.TransGen (Walk.Child (pendingChildrenOf tree)) nodeId x ↔
      DescendantOf tree x nodeId ∧ stateOf tree x = some .pending := by
  constructor
  · intro throughout x
    refine ⟨descendant_of_pendingChain grown, fun both => ?_⟩
    obtain ⟨below, pending⟩ := both
    induction below using Relation.TransGen.head_induction_on with
    | single parent => exact .single ((pendingChild_iff grown).mpr ⟨parent, pending⟩)
    | head parent above ih =>
      have child := (pendingChild_iff grown).mpr ⟨parent, pending⟩
      rcases throughout _ _ (.head parent above) pending parent with rfl | waiting
      · exact .single child
      · exact .tail (ih waiting) child
  · intro met x parentId below pending parent
    rcases Relation.TransGen.tail'_iff.mp ((met x).mpr ⟨below, pending⟩) with ⟨above, chain, child⟩
    have same := parent.unique ((pendingChild_iff grown).mp child).1
    subst same
    rcases Relation.reflTransGen_iff_eq_or_transGen.mp chain with here | chain
    · exact .inl here
    · exact .inr (descendant_of_pendingChain grown chain).2

theorem getNode_updateErrors (ids : List MessageId) (tree : MessageTree) (message : Option String) (now : Timestamp)
    {x : MessageId} (absent : x ∉ ids) :
    (ids.foldl (fun t child => t.updateState child .error none message now) tree).getNode x = tree.getNode x := by
  induction ids generalizing tree with
  | nil => rfl
  | cons first rest ih =>
    rw [List.mem_cons, not_or] at absent
    rw [List.foldl_cons, ih _ absent.2, MessageTree.getNode_updateState_ne _ _ _ _ _ absent.1]

theorem stateOf_updateState (tree : MessageTree) (key x : MessageId) (message : Option String) (now : Timestamp) :
    stateOf (tree.updateState key .error none message now) x =
      if x = key then (stateOf tree x).map fun _ => .error else stateOf tree x := by
  unfold stateOf
  rw [MessageTree.updateState, MessageTree.getNode_modifyNode]
  split
  · rename_i same
    rw [same, Option.map_map, Option.map_map]
    rfl
  · rfl

theorem stateOf_updateErrors (ids : List MessageId) (tree : MessageTree) (message : Option String) (now : Timestamp)
    (x : MessageId) : stateOf (ids.foldl (fun t child => t.updateState child .error none message now) tree) x =
      if x ∈ ids then (stateOf tree x).map fun _ => .error else stateOf tree x := by
  induction ids generalizing tree with
  | nil => rfl
  | cons first rest ih =>
    rw [List.foldl_cons, ih, stateOf_updateState]
    by_cases here : x = first
    · subst here
      rw [if_pos rfl, if_pos List.mem_cons_self, Option.map_map]
      split <;> rfl
    · simp only [here, List.mem_cons, false_or, if_false]

theorem parentOf_alike {after : MessageTree} (alike : Alike tree after) (x parentId : MessageId) :
    ParentOf after x parentId ↔ ParentOf tree x parentId := by
  have same : (after.getNode x).map shapeOf = (tree.getNode x).map shapeOf := congrFun alike.shapes x
  unfold ParentOf
  cases here : after.getNode x with
  | none =>
    rw [here, Option.map_none, eq_comm, Option.map_eq_none_iff] at same
    simp [same]
  | some node =>
    rw [here, Option.map_some, eq_comm, Option.map_eq_some_iff] at same
    rcases same with ⟨old, found, same⟩
    have above : old.parentId = node.parentId := congrArg Shape.parentId same
    simp [found, above]

theorem Grown.alike {after : MessageTree} (grown : Grown tree) (alike : Alike tree after) : Grown after := by
  have old : ∀ x node, after.getNode x = some node → ∃ before, tree.getNode x = some before ∧
    shapeOf before = shapeOf node := by
    intro x node found
    have same : (after.getNode x).map shapeOf = (tree.getNode x).map shapeOf := congrFun alike.shapes x
    rw [found, Option.map_some, eq_comm, Option.map_eq_some_iff] at same
    exact same
  have known : ∀ x, tree.hasNode x = true → after.hasNode x = true := by
    intro x here
    rcases (hasNode_iff ..).mp here with ⟨before, found⟩
    have same : (after.getNode x).map shapeOf = (tree.getNode x).map shapeOf := congrFun alike.shapes x
    rw [found, Option.map_some, Option.map_eq_some_iff] at same
    rcases same with ⟨node, there, _⟩
    exact (hasNode_iff ..).mpr ⟨node, there⟩
  constructor
  · exact alike.keyed grown.keyed
  · rcases grown.root with ⟨root, there, top⟩
    have same : (after.getNode tree.rootId).map shapeOf = (tree.getNode tree.rootId).map shapeOf := congrFun alike.shapes _
    rw [there, Option.map_some, Option.map_eq_some_iff] at same
    rcases same with ⟨node, found, same⟩
    rw [alike.rootId]
    exact ⟨node, found, (congrArg Shape.parentId same).trans top⟩
  · intro x node found below
    rw [alike.rootId] at below
    rcases old x node found with ⟨before, there, same⟩
    rcases grown.parents x before there below with ⟨parentId, above, here⟩
    exact ⟨parentId, (congrArg Shape.parentId same).symm.trans above, known parentId here⟩
  · intro x node found
    rcases old x node found with ⟨before, there, same⟩
    have children : before.childrenIds = node.childrenIds := congrArg Shape.childrenIds same
    rw [← children]
    exact grown.distinct x before there
  · intro x node found child
    rcases old x node found with ⟨before, there, same⟩
    rw [parentOf_alike alike, ← grown.listed x before there child]
    exact Iff.of_eq (congrArg (child ∈ ·) (congrArg Shape.childrenIds same).symm)
  · rcases grown.ranked with ⟨depth, ranked⟩
    exact ⟨depth, fun x parentId parent => ranked x parentId ((parentOf_alike alike x parentId).mp parent)⟩
  · exact alike.indexed grown.indexed

theorem descendantOf_alike {after : MessageTree} (alike : Alike tree after) (x : MessageId) :
    DescendantOf after x nodeId ↔ DescendantOf tree x nodeId := by
  have same : ParentOf after = ParentOf tree := by
    funext x parentId
    exact propext (parentOf_alike alike x parentId)
  rw [DescendantOf, same]

theorem not_descendant_self (grown : Grown tree) : ¬ DescendantOf tree nodeId nodeId := by
  rcases grown.ranked with ⟨depth, ranked⟩
  have deeper : ∀ x, DescendantOf tree x nodeId → depth nodeId < depth x := by
    intro x below
    induction below using Relation.TransGen.head_induction_on with
    | single parent => exact ranked _ _ parent
    | head parent _ ih => exact lt_trans ih (ranked _ _ parent)
  intro below
  exact absurd (deeper nodeId below) (lt_irrefl _)

end

/-- In a tree of any shape and with any states, an error is propagated completely exactly if no pending node below the
failed one has a parent below it that is not pending. -/
theorem propagationClosed_iff (tree : MessageTree) (grown : Grown tree) (nodeId : MessageId)
    (known : tree.hasNode nodeId = true) (errorMessage : String) (now : Timestamp) :
    PropagationClosed tree nodeId (tree.markNodeError nodeId errorMessage true now).1
      (tree.markNodeError nodeId errorMessage true now).2 ↔ PendingThroughout tree nodeId := by
  rcases (hasNode_iff ..).mp known with ⟨node, found⟩
  let failed := tree.updateState nodeId .error none (some errorMessage) now
  have alike : Alike tree failed := .updateState ..
  have failedGrown : Grown failed := grown.alike alike
  have failedKnown : failed.hasNode nodeId = true := by
    have still : failed.getNode nodeId = _ := MessageTree.getNode_modifyNode ..
    rw [if_pos rfl, found, Option.map_some] at still
    exact (hasNode_iff ..).mpr ⟨_, still⟩
  have result : tree.markNodeError nodeId errorMessage true now = (nodeId :: failed.getPendingChildren nodeId,
      (failed.getPendingChildren nodeId).foldl (fun t child =>
        t.updateState child .error none (some ("Parent failed: " ++ errorMessage)) now) failed) := by
    unfold MessageTree.markNodeError
    rw [found]
    rfl
  rcases getPendingChildren_spec failedGrown failedKnown with ⟨distinct, met⟩
  have states : ∀ x, x ≠ nodeId → stateOf failed x = stateOf tree x := by
    intro x other
    rw [stateOf_updateState, if_neg other]
  have descendant_ne : ∀ x, DescendantOf tree x nodeId → x ≠ nodeId := by
    intro x below same
    subst same
    exact not_descendant_self grown below
  have same_pending : PendingThroughout failed nodeId ↔ PendingThroughout tree nodeId := by
    apply forall_congr'
    intro x
    apply forall_congr'
    intro parentId
    rw [descendantOf_alike alike, parentOf_alike alike]
    apply forall_congr'
    intro below
    rw [states x (descendant_ne x below)]
    by_cases here : parentId = nodeId
    · simp [here]
    · rw [states parentId here]
  rw [result, ← same_pending, pendingThroughout_iff failedGrown]
  constructor
  · intro closed x
    rcases closed.reported with ⟨rest, same, -, members⟩
    rw [← met, List.tail_eq_of_cons_eq same, members, descendantOf_alike alike]
    apply and_congr_right
    intro below
    rw [states x (descendant_ne x below)]
  · intro all
    have members : ∀ x, x ∈ failed.getPendingChildren nodeId ↔ DescendantOf tree x nodeId ∧
      stateOf tree x = some .pending := by
      intro x
      rw [met, all, descendantOf_alike alike]
      apply and_congr_right
      intro below
      rw [states x (descendant_ne x below)]
    have own : nodeId ∉ failed.getPendingChildren nodeId := by
      intro member
      exact not_descendant_self grown ((members nodeId).mp member).1
    constructor
    · rw [stateOf_updateErrors, if_neg own, stateOf_updateState, if_pos rfl]
      unfold stateOf
      rw [found]
      rfl
    · intro x below
      rw [stateOf_updateErrors, states x (descendant_ne x below)]
      split
      · cases stateOf tree x <;> simp
      · rename_i absent
        intro pending
        exact absent ((members x).mpr ⟨below, pending⟩)
    · intro x other apart
      have absent : x ∉ failed.getPendingChildren nodeId := fun member => apart ((members x).mp member).1
      rw [getNode_updateErrors _ _ _ _ absent]
      exact MessageTree.getNode_updateState_ne _ _ _ _ _ other
    · intro x below settled
      have absent : x ∉ failed.getPendingChildren nodeId := fun member => settled ((members x).mp member).2
      rw [stateOf_updateErrors, if_neg absent, states x (descendant_ne x below)]
    · exact ⟨_, rfl, distinct, members⟩

/-- A reply, and a reply to it. -/
def twoRepliesGrow : Option MessageTree :=
  let machine := treeFrom (numberedId 1) (greeting (numberedId 1)) (numberedId 2) 0
  machine.run machine.init
    [.addNode (numberedId 3) (greeting (numberedId 3)) (numberedId 4) (numberedId 1) 1,
      .addNode (numberedId 5) (greeting (numberedId 5)) (numberedId 6) (numberedId 3) 2]

def twoReplies : MessageTree := twoRepliesGrow.getD oneReply

theorem grown_twoReplies : Grown twoReplies := by
  have runs : twoRepliesGrow.isSome = true := by decide +kernel
  exact grown_of_reachable (Machine.reachable_of_run (Machine.eq_some_getD runs oneReply))

theorem propagationClosed_twoReplies : PropagationClosed twoReplies (numberedId 1)
    (twoReplies.markNodeError (numberedId 1) "gone" true 3).1 (twoReplies.markNodeError (numberedId 1) "gone" true 3).2 := by
  apply (propagationClosed_iff twoReplies grown_twoReplies (numberedId 1) (by decide +kernel) "gone" 3).mpr
  intro x parentId _ _ parent
  rcases (hasNode_iff ..).mp (parent.parent_known grown_twoReplies) with ⟨node, found⟩
  have everyone : (twoReplies.nodes.values.all fun node => node.state = .pending) = true := by decide +kernel
  have waiting := List.all_eq_true.mp everyone node (twoReplies.nodes.mem_values_of_get? found)
  apply Or.inr
  rw [stateOf, found, Option.map_some, of_decide_eq_true waiting]

/-- The first reply is completed and the second one still waits below it. -/
theorem not_propagationClosed : ∃ tree, Grown tree ∧ ¬ PropagationClosed tree (numberedId 1)
    (tree.markNodeError (numberedId 1) "gone" true 4).1 (tree.markNodeError (numberedId 1) "gone" true 4).2 := by
  let tree := twoReplies.updateState (numberedId 3) .completed none none 3
  have parents : ParentOf tree (numberedId 5) (numberedId 3) ∧ ParentOf tree (numberedId 3) (numberedId 1) := by
    have links : (tree.getNode (numberedId 5)).map (·.parentId) = some (some (numberedId 3)) ∧
        (tree.getNode (numberedId 3)).map (·.parentId) = some (some (numberedId 1)) := by decide +kernel
    exact ⟨Option.map_eq_some_iff.mp links.1, Option.map_eq_some_iff.mp links.2⟩
  refine ⟨tree, grown_twoReplies.alike (.updateState ..), fun closed => ?_⟩
  have missed : stateOf (tree.markNodeError (numberedId 1) "gone" true 4).2 (numberedId 5) = some .pending :=
    by decide +kernel
  exact closed.closed (numberedId 5) (.head parents.1 (.single parents.2)) missed

end ClaudeProxy.Manager

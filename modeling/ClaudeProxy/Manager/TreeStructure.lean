import ClaudeProxy.Kit.Machine
import ClaudeProxy.Kit.Walk
import ClaudeProxy.Manager.Branches
import ClaudeProxy.Manager.Filing

namespace ClaudeProxy.Manager

open Kit Trees

def childrenOf (tree : MessageTree) (nodeId : MessageId) : List MessageId :=
  ((tree.getNode nodeId).map (·.childrenIds)).getD []

def ParentOf (tree : MessageTree) (nodeId parentId : MessageId) : Prop :=
  ∃ node, tree.getNode nodeId = some node ∧ node.parentId = some parentId

/-- Parent links and child lists say the same, and parent links do not run in circles. -/
structure Grown (tree : MessageTree) : Prop where
  keyed : Keyed tree
  root : ∃ node, tree.getNode tree.rootId = some node ∧ node.parentId = none
  parents : ∀ nodeId node, tree.getNode nodeId = some node → nodeId ≠ tree.rootId →
    ∃ parentId, node.parentId = some parentId ∧ tree.hasNode parentId = true
  distinct : ∀ nodeId node, tree.getNode nodeId = some node → node.childrenIds.Nodup
  listed : ∀ nodeId node, tree.getNode nodeId = some node → ∀ child, child ∈ node.childrenIds ↔ ParentOf tree child nodeId
  ranked : ∃ depth : MessageId → Nat, ∀ nodeId parentId, ParentOf tree nodeId parentId → depth parentId < depth nodeId
  indexed : StatusIndexed tree

section Descendants

variable {tree : MessageTree}

theorem mem_childrenOf (grown : Grown tree) {nodeId child : MessageId} (member : child ∈ childrenOf tree nodeId) :
    ParentOf tree child nodeId ∧ tree.hasNode nodeId = true := by
  unfold childrenOf at member
  cases found : tree.getNode nodeId with
  | none =>
    rw [found] at member
    cases member
  | some node =>
    rw [found] at member
    exact ⟨(grown.listed nodeId node found child).mp member, (hasNode_iff ..).mpr ⟨node, found⟩⟩

theorem childrenOf_iff (grown : Grown tree) {nodeId : MessageId} (known : tree.hasNode nodeId = true) (child : MessageId) :
    child ∈ childrenOf tree nodeId ↔ ParentOf tree child nodeId := by
  rcases (hasNode_iff ..).mp known with ⟨node, found⟩
  rw [childrenOf, found]
  exact grown.listed nodeId node found child

theorem ParentOf.child_known {nodeId parentId : MessageId} (parent : ParentOf tree nodeId parentId) :
    tree.hasNode nodeId = true := by
  rcases parent with ⟨node, found, _⟩
  exact (hasNode_iff ..).mpr ⟨node, found⟩

theorem ParentOf.parent_known (grown : Grown tree) {nodeId parentId : MessageId} (parent : ParentOf tree nodeId parentId) :
    tree.hasNode parentId = true := by
  rcases parent with ⟨node, found, above⟩
  by_cases root : nodeId = tree.rootId
  · rcases grown.root with ⟨first, foundRoot, none'⟩
    subst root
    cases found.symm.trans foundRoot
    rw [none'] at above
    cases above
  · rcases grown.parents nodeId node found root with ⟨other, same, known⟩
    cases same.symm.trans above
    exact known

theorem ParentOf.unique {nodeId left right : MessageId} (first : ParentOf tree nodeId left)
    (second : ParentOf tree nodeId right) : left = right := by
  rcases first with ⟨node, found, above⟩
  rcases second with ⟨other, found', above'⟩
  cases found.symm.trans found'
  exact Option.some.inj (above.symm.trans above')

/-- Walking down the child lists is walking up the parent links. -/
theorem below_iff (grown : Grown tree) (nodeId x : MessageId) :
    Walk.Below (childrenOf tree) nodeId x ↔ Relation.ReflTransGen (ParentOf tree) x nodeId := by
  constructor
  · intro below
    induction below with
    | refl => exact .refl
    | tail _ child ih => exact .head (mem_childrenOf grown child).1 ih
  · intro above
    induction above using Relation.ReflTransGen.head_induction_on with
    | refl => exact .refl
    | head parent _ ih =>
      have there := parent.parent_known grown
      exact ih.tail ((childrenOf_iff grown there _).mpr parent)

theorem below_depth {depth : MessageId → Nat}
    (ranked : ∀ nodeId parentId, ParentOf tree nodeId parentId → depth parentId < depth nodeId) (grown : Grown tree)
    {nodeId x : MessageId} (below : Walk.Below (childrenOf tree) nodeId x) : depth nodeId ≤ depth x := by
  induction below with
  | refl => exact Nat.le_refl _
  | tail _ child ih =>
    have deeper := ranked _ _ (mem_childrenOf grown child).1
    omega

theorem forked (grown : Grown tree) (start : MessageId) : Walk.Forked (childrenOf tree) start where
  once nodeId _ := by
    unfold childrenOf
    cases found : tree.getNode nodeId with
    | none => exact List.nodup_nil
    | some node => exact grown.distinct nodeId node found
  parent left right child _ _ inLeft inRight := (mem_childrenOf grown inLeft).1.unique (mem_childrenOf grown inRight).1
  acyclic nodeId below child := by
    rcases grown.ranked with ⟨depth, ranked⟩
    have deeper := ranked _ _ (mem_childrenOf grown child).1
    have above := below_depth ranked grown below
    omega

theorem descendantsLoop_of_visit {rounds : Nat} {stack visited : List MessageId}
    (ended : Walk.visit (childrenOf tree) rounds stack = some visited) : tree.descendantsLoop rounds stack = visited := by
  induction rounds generalizing stack visited with
  | zero =>
    cases stack with
    | nil =>
      cases ended
      rfl
    | cons nodeId stack => cases ended
  | succ rounds ih =>
    cases stack with
    | nil =>
      cases ended
      rfl
    | cons nodeId stack =>
      rcases Walk.visit_eq_some ended with ⟨rest, ended', rfl⟩
      rw [MessageTree.descendantsLoop, ← ih ended']
      rfl

theorem walkBound_eq (tree : MessageTree) :
    tree.walkBound = 1 + (tree.nodes.keys.map fun nodeId => (childrenOf tree nodeId).length).sum := by
  have same : tree.nodes.values.map (fun node => node.childrenIds.length) =
      tree.nodes.keys.map fun nodeId => (childrenOf tree nodeId).length := by
    rw [Dict.values, Dict.keys, List.map_map, List.map_map]
    apply List.map_congr_left
    intro entry member
    have found : tree.getNode entry.1 = some entry.2 := (Dict.get?_eq_some_iff ..).mpr member
    simp [childrenOf, found]
  rw [MessageTree.walkBound, same]

/-- The loop of `get_descendants` after some rounds; `none` while its stack is not empty. -/
def descendantsWithin (tree : MessageTree) (rounds : Nat) (nodeId : MessageId) : Option (List MessageId) :=
  if tree.hasNode nodeId then Walk.visit (childrenOf tree) rounds [nodeId] else some []

theorem getDescendants_spec (grown : Grown tree) {nodeId : MessageId} (known : tree.hasNode nodeId = true) :
    (∃ rounds, descendantsWithin tree rounds nodeId = some (tree.getDescendants nodeId)) ∧
      (tree.getDescendants nodeId).Nodup ∧
      ∀ x, x ∈ tree.getDescendants nodeId ↔ Relation.ReflTransGen (ParentOf tree) x nodeId := by
  have all : ∀ x, Walk.Below (childrenOf tree) nodeId x → x ∈ tree.nodes.keys := by
    intro x below
    rw [← Dict.contains_iff]
    rcases Relation.ReflTransGen.cases_tail below with rfl | ⟨parent, _, child⟩
    · exact known
    · exact (mem_childrenOf grown child).1.child_known
  rcases Walk.visit_start (forked grown nodeId) all (Nat.le_of_eq (walkBound_eq tree).symm) with ⟨out, ended, distinct, same⟩
  have result : tree.getDescendants nodeId = out := by
    have present : tree.nodes.contains nodeId = true := known
    rw [MessageTree.getDescendants, if_neg (not_not.mpr present)]
    exact descendantsLoop_of_visit ended
  rw [result]
  refine ⟨⟨tree.walkBound, ?_⟩, distinct, fun x => (same x).trans (below_iff grown nodeId x)⟩
  rw [descendantsWithin, if_pos known]
  exact ended

end Descendants

theorem grown_new (nodeId : MessageId) (incoming : IncomingMessage) (statusMessageId : MessageId) (now : Timestamp) :
    Grown (.new (.new nodeId incoming statusMessageId none now)) := by
  let root := MessageNode.new nodeId incoming statusMessageId none now
  have only (key : MessageId) (node : MessageNode) (found : (MessageTree.new root).getNode key = some node) :
      key = nodeId ∧ node = root := by
    rw [MessageTree.new, MessageTree.getNode, Dict.get?_set] at found
    split at found
    · rename_i here
      exact ⟨here, (Option.some.inj found).symm⟩
    · cases found
  have noParent (key parentId : MessageId) : ¬ ParentOf (MessageTree.new root) key parentId := by
    intro parent
    rcases parent with ⟨node, found, above⟩
    rw [(only key node found).2] at above
    cases above
  constructor
  · intro key node found
    rw [(only key node found).2, (only key node found).1]
    rfl
  · exact ⟨root, Dict.get?_set_self .., rfl⟩
  · intro key node found different
    exact absurd (only key node found).1 different
  · intro key node found
    rw [(only key node found).2]
    exact List.nodup_nil
  · intro key node found child
    rw [(only key node found).2]
    constructor
    · intro member
      cases member
    · exact fun parent => absurd parent (noParent child key)
  · exact ⟨fun _ => 0, fun key parentId parent => absurd parent (noParent key parentId)⟩
  · exact StatusIndexed.new root

/-- One more leaf, at the end of its parent's list. -/
structure Grafted (before after : MessageTree) (leaf : MessageNode) (parentId : MessageId) : Prop where
  rootId : after.rootId = before.rootId
  above : leaf.parentId = some parentId
  childless : leaf.childrenIds = []
  absent : before.getNode leaf.nodeId = none
  known : before.hasNode parentId = true
  own : after.getNode leaf.nodeId = some leaf
  others : ∀ key, key ≠ leaf.nodeId → after.getNode key = (before.getNode key).map fun node =>
    if key = parentId then { node with childrenIds := node.childrenIds ++ [leaf.nodeId] } else node

theorem getNode_of_fresh {tree : MessageTree} {nodeId : MessageId} (fresh : tree.hasNode nodeId = false) :
    tree.getNode nodeId = none := by
  apply Option.not_isSome_iff_eq_none.mp
  intro known
  exact Bool.false_ne_true (fresh.symm.trans known)

section AddNode

variable {tree after : MessageTree} {nodeId statusMessageId parentId : MessageId} {incoming : IncomingMessage}
    {now : Timestamp}

theorem addNode_known (added : tree.addNode nodeId incoming statusMessageId parentId now = some after) :
    tree.hasNode parentId = true := by
  unfold MessageTree.addNode at added
  split at added
  · cases added
  · rename_i known
    exact not_not.mp known

theorem grafted_addNode (added : tree.addNode nodeId incoming statusMessageId parentId now = some after)
    (fresh : tree.hasNode nodeId = false) :
    Grafted tree after (.new nodeId incoming statusMessageId (some parentId) now) parentId := by
  have known := addNode_known added
  have different : parentId ≠ nodeId := by
    intro same
    rw [same, fresh] at known
    cases known
  refine ⟨addNode_rootId added, rfl, rfl, getNode_of_fresh fresh, known, ?_, fun key notLeaf => ?_⟩
  all_goals
    unfold MessageTree.addNode at added
    split at added
    · cases added
    cases added
    rw [MessageTree.getNode_modifyNode]
  · show (if nodeId = parentId then _ else _) = _
    rw [if_neg (Ne.symm different)]
    exact Dict.get?_set_self ..
  · change key ≠ nodeId at notLeaf
    split
    · rename_i isParent
      subst isParent
      show Option.map _ ((tree.nodes.set nodeId _).get? key) = _
      rw [Dict.get?_set_ne _ _ notLeaf]
      rfl
    · show (tree.nodes.set nodeId _).get? key = _
      rw [Dict.get?_set_ne _ _ notLeaf]
      exact Option.map_id'.symm

end AddNode

namespace Grafted

variable {before after : MessageTree} {leaf : MessageNode} {parentId : MessageId}

theorem old (grafted : Grafted before after leaf parentId) {key : MessageId} (notLeaf : key ≠ leaf.nodeId)
    {node : MessageNode} (found : after.getNode key = some node) : ∃ original, before.getNode key = some original ∧
      node = if key = parentId then { original with childrenIds := original.childrenIds ++ [leaf.nodeId] }
        else original := by
  rw [grafted.others key notLeaf] at found
  rcases Option.map_eq_some_iff.mp found with ⟨original, there, same⟩
  exact ⟨original, there, same.symm⟩

theorem known_old (grafted : Grafted before after leaf parentId) {key : MessageId} (known : before.hasNode key = true) :
    key ≠ leaf.nodeId ∧ after.hasNode key = true := by
  rcases (hasNode_iff ..).mp known with ⟨node, found⟩
  have notLeaf : key ≠ leaf.nodeId := by
    intro same
    rw [same, grafted.absent] at found
    cases found
  refine ⟨notLeaf, (hasNode_iff ..).mpr ?_⟩
  rw [grafted.others key notLeaf, found]
  exact ⟨_, rfl⟩

theorem unknown (grafted : Grafted before after leaf parentId) : before.hasNode leaf.nodeId ≠ true := by
  intro known
  exact (grafted.known_old known).1 rfl

theorem parentOf_iff (grafted : Grafted before after leaf parentId) (key above : MessageId) :
    ParentOf after key above ↔ key = leaf.nodeId ∧ above = parentId ∨ ParentOf before key above := by
  by_cases isLeaf : key = leaf.nodeId
  · subst isLeaf
    constructor
    · intro parent
      rcases parent with ⟨node, found, above'⟩
      rw [grafted.own] at found
      rw [← Option.some.inj found, grafted.above] at above'
      exact .inl ⟨rfl, (Option.some.inj above').symm⟩
    · intro either
      rcases either with ⟨_, rfl⟩ | parent
      · exact ⟨leaf, grafted.own, grafted.above⟩
      · exact absurd parent.child_known grafted.unknown
  · constructor
    · intro parent
      rcases parent with ⟨node, found, above'⟩
      rcases grafted.old isLeaf found with ⟨original, there, same⟩
      refine .inr ⟨original, there, ?_⟩
      rw [same] at above'
      split at above' <;> exact above'
    · intro either
      rcases either with ⟨isLeaf', _⟩ | ⟨original, there, above'⟩
      · exact absurd isLeaf' isLeaf
      · refine ⟨_, (grafted.others key isLeaf).trans (by rw [there]; rfl), ?_⟩
        split <;> exact above'

theorem ranked (grafted : Grafted before after leaf parentId) (grown : Grown before) :
    ∃ depth : MessageId → Nat, ∀ nodeId above, ParentOf after nodeId above → depth above < depth nodeId := by
  rcases grown.ranked with ⟨depth, ranked⟩
  refine ⟨fun key => if key = leaf.nodeId then depth parentId + 1 else depth key, fun key above link => ?_⟩
  dsimp only
  rcases (grafted.parentOf_iff key above).mp link with ⟨isLeaf, isParent⟩ | link
  · have notLeaf := (grafted.known_old grafted.known).1
    rw [if_pos isLeaf, isParent, if_neg notLeaf]
    exact Nat.lt_succ_self _
  · have notLeaf := (grafted.known_old link.child_known).1
    have aboveNotLeaf := (grafted.known_old (link.parent_known grown)).1
    rw [if_neg notLeaf, if_neg aboveNotLeaf]
    exact ranked key above link

theorem grown (grafted : Grafted before after leaf parentId) (grown : Grown before) (indexed : StatusIndexed after) :
    Grown after := by
  have parents := grafted.parentOf_iff
  constructor
  · intro key node found
    by_cases isLeaf : key = leaf.nodeId
    · rw [isLeaf, grafted.own] at found
      rw [← Option.some.inj found, isLeaf]
    · rcases grafted.old isLeaf found with ⟨original, there, same⟩
      have own := grown.keyed key original there
      rw [same]
      split <;> exact own
  · rcases grown.root with ⟨root, found, none'⟩
    have notLeaf := (grafted.known_old ((hasNode_iff ..).mpr ⟨root, found⟩)).1
    rw [grafted.rootId, grafted.others _ notLeaf, found]
    refine ⟨_, rfl, ?_⟩
    split <;> exact none'
  · intro key node found notRoot
    by_cases isLeaf : key = leaf.nodeId
    · rw [isLeaf, grafted.own] at found
      exact ⟨parentId, Option.some.inj found ▸ grafted.above, (grafted.known_old grafted.known).2⟩
    · rcases grafted.old isLeaf found with ⟨original, there, same⟩
      rcases grown.parents key original there (grafted.rootId ▸ notRoot) with ⟨above, own, known⟩
      refine ⟨above, ?_, (grafted.known_old known).2⟩
      rw [same]
      split <;> exact own
  · intro key node found
    by_cases isLeaf : key = leaf.nodeId
    · rw [isLeaf, grafted.own] at found
      rw [← Option.some.inj found, grafted.childless]
      exact List.nodup_nil
    · rcases grafted.old isLeaf found with ⟨original, there, same⟩
      have distinct := grown.distinct key original there
      rw [same]
      split
      · apply List.nodup_append.mpr
        refine ⟨distinct, by simp, ?_⟩
        intro child member last inLast isLast
        rw [List.mem_singleton.mp inLast] at isLast
        have below := (grown.listed key original there child).mp member
        exact (grafted.known_old below.child_known).1 isLast
      · exact distinct
  · intro key node found child
    rw [parents]
    by_cases isLeaf : key = leaf.nodeId
    · have notParent : key ≠ parentId := by
        intro same
        exact (grafted.known_old grafted.known).1 (same.symm.trans isLeaf)
      have noChild : ¬ ParentOf before child key := by
        intro below
        exact (grafted.known_old (below.parent_known grown)).1 isLeaf
      rw [isLeaf, grafted.own] at found
      rw [← Option.some.inj found, grafted.childless]
      simp [notParent, noChild]
    · rcases grafted.old isLeaf found with ⟨original, there, same⟩
      have listed := grown.listed key original there child
      rw [same]
      split
      · rename_i isParent
        rw [List.mem_append, List.mem_singleton, listed]
        simp [isParent, or_comm]
      · rename_i notParent
        rw [listed]
        simp [notParent]
  · exact grafted.ranked grown
  · exact indexed

end Grafted

theorem Grown.addNode {tree after : MessageTree} {nodeId statusMessageId parentId : MessageId} {incoming : IncomingMessage}
    {now : Timestamp} (grown : Grown tree) (added : tree.addNode nodeId incoming statusMessageId parentId now = some after)
    (fresh : tree.hasNode nodeId = false) (freshStatus : tree.statusToNode.contains statusMessageId = false) :
    Grown after := by
  have noStatus : tree.statusToNode.get? statusMessageId = none := by
    apply Option.not_isSome_iff_eq_none.mp
    intro there
    exact Bool.false_ne_true (freshStatus.symm.trans there)
  have indexed := grown.indexed.addNode added (getNode_of_fresh fresh) noStatus
  exact (grafted_addNode added fresh).grown grown indexed

section RemoveNodes

variable {tree : MessageTree}

theorem removeNodes_spec (indexed : StatusIndexed tree) {nodeIds : List MessageId} (distinct : nodeIds.Nodup) :
    (MessageTree.removeNodes nodeIds tree).1 = nodeIds.filterMap tree.getNode ∧
      ∀ key, (MessageTree.removeNodes nodeIds tree).2.1.getNode key = if key ∈ nodeIds then none else tree.getNode key := by
  induction nodeIds generalizing tree with
  | nil => exact ⟨rfl, fun key => by simp [MessageTree.removeNodes]⟩
  | cons nodeId rest ih =>
    rcases List.nodup_cons.mp distinct with ⟨notLater, distinct'⟩
    simp only [MessageTree.removeNodes]
    split
    · rename_i absent
      rcases ih indexed distinct' with ⟨removed, nodes⟩
      refine ⟨?_, fun key => ?_⟩
      · rw [removed, List.filterMap_cons, MessageTree.getNode, absent]
      · rw [nodes key]
        by_cases here : key = nodeId
        · rw [here, if_neg notLater, if_pos List.mem_cons_self]
          exact absent
        · simp [here]
    · rename_i node found
      have points := (indexed node.statusMessageId nodeId).mpr ⟨node, found, rfl⟩
      have present : tree.statusToNode.contains node.statusMessageId = true := Option.isSome_iff_exists.mpr ⟨nodeId, points⟩
      rw [if_neg (not_not.mpr present)]
      rcases ih (indexed.erase found) distinct' with ⟨removed, nodes⟩
      refine ⟨?_, fun key => ?_⟩
      · rw [List.filterMap_cons, MessageTree.getNode, found]
        show node :: _ = node :: _
        congr 1
        refine removed.trans (List.filterMap_congr fun other member => ?_)
        have different : other ≠ nodeId := by
          intro same
          exact notLater (same ▸ member)
        show (tree.nodes.erase nodeId).get? other = _
        rw [Dict.get?_erase, if_neg different]
        rfl
      · refine (nodes key).trans ?_
        rw [MessageTree.getNode, Dict.get?_erase]
        by_cases here : key = nodeId
        · simp [here]
        · simp [here, MessageTree.getNode]

end RemoveNodes

/-- The removed nodes are gone, and the branch is gone from its parent's list. -/
structure Pruned (before after : MessageTree) (branchRootId : MessageId) (removed : List MessageId) : Prop where
  rootId : after.rootId = before.rootId
  nodes : ∀ key, after.getNode key = if key ∈ removed then none else (before.getNode key).map fun node =>
    if (before.getNode branchRootId).bind (·.parentId) = some key
    then { node with childrenIds := node.childrenIds.filter (· ≠ branchRootId) } else node

section RemoveBranch

variable {tree : MessageTree} {branchRootId : MessageId}

theorem parent_outside (grown : Grown tree) {parentId : MessageId} (parent : ParentOf tree branchRootId parentId) :
    parentId ∉ tree.getDescendants branchRootId := by
  intro member
  rcases getDescendants_spec grown parent.child_known with ⟨_, _, same⟩
  have below := (below_iff grown branchRootId parentId).mpr ((same parentId).mp member)
  have child := (childrenOf_iff grown (parent.parent_known grown) branchRootId).mpr parent
  exact (forked grown branchRootId).acyclic parentId below child

theorem removeBranch_spec (grown : Grown tree) (known : tree.hasNode branchRootId = true)
    (below : branchRootId ≠ tree.rootId) :
    (MessageTree.removeNodes (tree.getDescendants branchRootId) tree).2.2 = true ∧
      (tree.removeBranch branchRootId).1 = (tree.getDescendants branchRootId).filterMap tree.getNode ∧
      Pruned tree (tree.removeBranch branchRootId).2 branchRootId (tree.getDescendants branchRootId) := by
  rcases getDescendants_spec grown known with ⟨_, distinct, _⟩
  rcases removeNodes_spec grown.indexed distinct with ⟨removed, nodes⟩
  rcases grown.indexed.removeNodes (tree.getDescendants branchRootId) with ⟨done, _⟩
  rcases (hasNode_iff ..).mp known with ⟨node, found⟩
  rcases grown.parents branchRootId node found below with ⟨parentId, above, parentKnown⟩
  rcases (hasNode_iff ..).mp parentKnown with ⟨parent, foundParent⟩
  have ownParent : parent.nodeId = parentId := grown.keyed parentId parent foundParent
  have outside := parent_outside grown ⟨node, found, above⟩
  have looked : tree.getParent branchRootId = some parent := by
    have there : tree.nodes.get? branchRootId = some node := found
    rw [MessageTree.getParent, there]
    show node.parentId.bind tree.nodes.get? = some parent
    rw [above]
    exact foundParent
  have linked : (tree.getNode branchRootId).bind (·.parentId) = some parentId := by
    rw [found]
    exact above
  have present : tree.nodes.contains branchRootId = true := known
  refine ⟨done, ?_, removeBranch_rootId tree branchRootId, fun key => ?_⟩
  all_goals
    rw [MessageTree.removeBranch, if_neg (not_not.mpr present), looked]
    revert done removed nodes
    generalize MessageTree.removeNodes (tree.getDescendants branchRootId) tree = result
    intro removed nodes done
    rcases result with ⟨gone, after, finished⟩
    cases done
  · exact removed
  · show (after.modifyNode parent.nodeId _).getNode key = _
    rw [ownParent, MessageTree.getNode_modifyNode, linked, nodes key, nodes parentId]
    by_cases isParent : key = parentId
    · rw [if_pos isParent, if_neg outside, isParent, if_neg outside]
      simp
    · rw [if_neg isParent]
      split
      · rfl
      · simp [Ne.symm isParent]

theorem Pruned.old {before after : MessageTree} {removed : List MessageId}
    (pruned : Pruned before after branchRootId removed)
    {key : MessageId} {node : MessageNode} (found : after.getNode key = some node) :
    key ∉ removed ∧ ∃ original, before.getNode key = some original ∧ node =
      if (before.getNode branchRootId).bind (·.parentId) = some key
      then { original with childrenIds := original.childrenIds.filter (· ≠ branchRootId) } else original := by
  rw [pruned.nodes key] at found
  split at found
  · cases found
  · rename_i outside
    rcases Option.map_eq_some_iff.mp found with ⟨original, there, same⟩
    exact ⟨outside, original, there, same.symm⟩

theorem Pruned.keeps {before after : MessageTree} {removed : List MessageId}
    (pruned : Pruned before after branchRootId removed)
    {key : MessageId} (outside : key ∉ removed) (known : before.hasNode key = true) : after.hasNode key = true := by
  rcases (hasNode_iff ..).mp known with ⟨node, found⟩
  apply (hasNode_iff ..).mpr
  rw [pruned.nodes key, if_neg outside, found]
  exact ⟨_, rfl⟩

theorem Pruned.parentOf_iff {before after : MessageTree} {removed : List MessageId}
    (pruned : Pruned before after branchRootId removed) (key above : MessageId) :
    ParentOf after key above ↔ ParentOf before key above ∧ key ∉ removed := by
  constructor
  · intro parent
    rcases parent with ⟨node, found, above'⟩
    rcases pruned.old found with ⟨outside, original, there, same⟩
    refine ⟨⟨original, there, ?_⟩, outside⟩
    rw [same] at above'
    split at above' <;> exact above'
  · intro both
    rcases both with ⟨⟨original, there, above'⟩, outside⟩
    refine ⟨_, (pruned.nodes key).trans (by rw [if_neg outside, there]; rfl), ?_⟩
    split <;> exact above'

theorem Grown.removeBranch (grown : Grown tree) (known : tree.hasNode branchRootId = true)
    (below : branchRootId ≠ tree.rootId) : Grown (tree.removeBranch branchRootId).2 := by
  rcases removeBranch_spec grown known below with ⟨_, _, pruned⟩
  rcases getDescendants_spec grown known with ⟨_, _, subtree⟩
  have parents := pruned.parentOf_iff
  have closed (key above : MessageId) (parent : ParentOf tree key above) (outside : key ∉ tree.getDescendants branchRootId) :
      above ∉ tree.getDescendants branchRootId := by
    intro member
    exact outside ((subtree key).mpr (.head parent ((subtree above).mp member)))
  have rootOutside : tree.rootId ∉ tree.getDescendants branchRootId := by
    intro member
    rcases grown.root with ⟨root, foundRoot, none'⟩
    rcases Relation.ReflTransGen.cases_head ((subtree _).mp member) with same | ⟨above, parent, _⟩
    · exact below same.symm
    · rcases parent with ⟨node, found, above'⟩
      rw [foundRoot] at found
      rw [← Option.some.inj found, none'] at above'
      cases above'
  constructor
  · intro key node found
    rcases pruned.old found with ⟨_, original, there, same⟩
    have own := grown.keyed key original there
    rw [same]
    split <;> exact own
  · rcases grown.root with ⟨root, found, none'⟩
    rw [pruned.rootId, pruned.nodes, if_neg rootOutside, found]
    refine ⟨_, rfl, ?_⟩
    split <;> exact none'
  · intro key node found notRoot
    rcases pruned.old found with ⟨outside, original, there, same⟩
    rcases grown.parents key original there (pruned.rootId ▸ notRoot) with ⟨above, own, aboveKnown⟩
    refine ⟨above, ?_, pruned.keeps (closed key above ⟨original, there, own⟩ outside) aboveKnown⟩
    rw [same]
    split <;> exact own
  · intro key node found
    rcases pruned.old found with ⟨_, original, there, same⟩
    have distinct := grown.distinct key original there
    rw [same]
    split
    · exact distinct.filter _
    · exact distinct
  · intro key node found child
    rcases pruned.old found with ⟨outside, original, there, same⟩
    have listed := grown.listed key original there child
    have goneIff (parent : ParentOf tree child key) : child ∈ tree.getDescendants branchRootId ↔ child = branchRootId := by
      rw [subtree]
      constructor
      · intro above
        rcases Relation.ReflTransGen.cases_head above with same | ⟨other, first, above'⟩
        · exact same
        · rw [parent.unique first] at outside
          exact absurd ((subtree other).mpr above') outside
      · intro isBranch
        rw [isBranch]
    rw [same, parents]
    split
    · rw [List.mem_filter, listed]
      constructor
      · intro both
        refine ⟨both.1, fun gone => ?_⟩
        have isBranch := (goneIff both.1).mp gone
        simp [isBranch] at both
      · intro both
        refine ⟨both.1, decide_eq_true fun isBranch => both.2 ((goneIff both.1).mpr isBranch)⟩
    · rename_i notParent
      rw [listed]
      constructor
      · intro parent
        refine ⟨parent, fun gone => ?_⟩
        have isBranch := (goneIff parent).mp gone
        rcases parent with ⟨branch, foundBranch, above⟩
        rw [isBranch] at foundBranch
        exact notParent (by rw [foundBranch]; exact above)
      · exact fun both => both.1
  · rcases grown.ranked with ⟨depth, ranked⟩
    exact ⟨depth, fun key above parent => ranked key above ((parents key above).mp parent).1⟩
  · exact grown.indexed.removeBranch branchRootId

end RemoveBranch

theorem Grown.rooted {tree : MessageTree} (grown : Grown tree) (nodeId : MessageId) (known : tree.hasNode nodeId = true) :
    Relation.ReflTransGen (ParentOf tree) nodeId tree.rootId := by
  rcases grown.ranked with ⟨depth, ranked⟩
  induction rank : depth nodeId using Nat.strong_induction_on generalizing nodeId with
  | _ rank' ih =>
    by_cases root : nodeId = tree.rootId
    · rw [root]
    · rcases (hasNode_iff ..).mp known with ⟨node, found⟩
      rcases grown.parents nodeId node found root with ⟨above, own, aboveKnown⟩
      have parent : ParentOf tree nodeId above := ⟨node, found, own⟩
      have shallower := ranked nodeId above parent
      exact .head parent (ih (depth above) (rank ▸ shallower) above aboveKnown rfl)

inductive TreeEdit where
  | addNode (nodeId : MessageId) (incoming : IncomingMessage) (statusMessageId parentId : MessageId) (now : Timestamp)
  | removeBranch (branchRootId : MessageId)

/-- An added node has ids that the tree does not use, and a removed branch is not the whole tree. -/
def editTree (tree : MessageTree) : TreeEdit → Option MessageTree
  | .addNode nodeId incoming statusMessageId parentId now =>
    if tree.hasNode nodeId || tree.statusToNode.contains statusMessageId then none
    else tree.addNode nodeId incoming statusMessageId parentId now
  | .removeBranch branchRootId =>
    if tree.hasNode branchRootId && branchRootId ≠ tree.rootId then some (tree.removeBranch branchRootId).2 else none

/-- The trees that grow from one root node. -/
def treeFrom (nodeId : MessageId) (incoming : IncomingMessage) (statusMessageId : MessageId) (now : Timestamp) :
    Machine MessageTree TreeEdit :=
  ⟨.new (.new nodeId incoming statusMessageId none now), editTree⟩

theorem Grown.edit {tree after : MessageTree} {edit : TreeEdit} (grown : Grown tree)
    (taken : editTree tree edit = some after) :
    Grown after := by
  cases edit with
  | addNode nodeId incoming statusMessageId parentId now =>
    simp only [editTree] at taken
    split at taken
    · cases taken
    · rename_i unused
      rcases Bool.or_eq_false_iff.mp (Bool.eq_false_iff.mpr unused) with ⟨fresh, freshStatus⟩
      exact grown.addNode taken fresh freshStatus
  | removeBranch branchRootId =>
    simp only [editTree] at taken
    split at taken
    · rename_i allowed
      rcases Bool.and_eq_true_iff.mp allowed with ⟨known, below⟩
      cases taken
      exact grown.removeBranch known (of_decide_eq_true below)
    · cases taken

theorem grown_of_reachable {nodeId : MessageId} {incoming : IncomingMessage} {statusMessageId : MessageId} {now : Timestamp}
    {tree : MessageTree} (reached : (treeFrom nodeId incoming statusMessageId now).Reachable tree) : Grown tree := by
  apply Machine.ReachableUnder.invariant _ _ reached
  · exact grown_new nodeId incoming statusMessageId now
  · exact fun before edit after grown _ taken => grown.edit taken

/-- A tree of messages, and what its operations find and remove in it. -/
structure WellStructured (tree : MessageTree) : Prop where
  root : ∃ node, tree.getNode tree.rootId = some node ∧ node.parentId = none
  keyed : Keyed tree
  rooted : ∀ nodeId, tree.hasNode nodeId = true → Relation.ReflTransGen (ParentOf tree) nodeId tree.rootId
  children : ∀ nodeId node, tree.getNode nodeId = some node →
    node.childrenIds.Nodup ∧ ∀ child, child ∈ node.childrenIds ↔ ParentOf tree child nodeId
  indexed : StatusIndexed tree
  descendants : ∀ nodeId, tree.hasNode nodeId = true →
    (∃ rounds, descendantsWithin tree rounds nodeId = some (tree.getDescendants nodeId)) ∧
      (tree.getDescendants nodeId).Nodup ∧
      ∀ x, x ∈ tree.getDescendants nodeId ↔ Relation.ReflTransGen (ParentOf tree) x nodeId
  removes : ∀ branchRootId, tree.hasNode branchRootId = true → branchRootId ≠ tree.rootId →
    (MessageTree.removeNodes (tree.getDescendants branchRootId) tree).2.2 = true ∧
      (tree.removeBranch branchRootId).1 = (tree.getDescendants branchRootId).filterMap tree.getNode ∧
      Pruned tree (tree.removeBranch branchRootId).2 branchRootId (tree.getDescendants branchRootId)

theorem wellStructured_of_reachable (nodeId : MessageId) (incoming : IncomingMessage) (statusMessageId : MessageId)
    (now : Timestamp) (tree : MessageTree) (reached : (treeFrom nodeId incoming statusMessageId now).Reachable tree) :
    WellStructured tree := by
  have grown := grown_of_reachable reached
  constructor
  · exact grown.root
  · exact grown.keyed
  · exact grown.rooted
  · exact fun key node found => ⟨grown.distinct key node found, grown.listed key node found⟩
  · exact grown.indexed
  · exact fun key known => getDescendants_spec grown known
  · exact fun branchRootId known below => removeBranch_spec grown known below

theorem numbered_ne_empty (number : Nat) : "m" ++ toString number ≠ "" := by
  simp

def numberedId (number : Nat) : MessageId := ⟨"m" ++ toString number, numbered_ne_empty number⟩

def greeting (messageId : MessageId) : IncomingMessage :=
  ⟨"hello", "chat", "someone", messageId, "telegram", none, none, none, none⟩

/-- A reply below a reply; then the lower one is removed. -/
def replyAndRemove : List TreeEdit :=
  [.addNode (numberedId 3) (greeting (numberedId 3)) (numberedId 4) (numberedId 1) 1,
    .addNode (numberedId 5) (greeting (numberedId 5)) (numberedId 6) (numberedId 3) 2,
    .removeBranch (numberedId 5)]

def oneReply : MessageTree :=
  let root := MessageNode.new (numberedId 1) (greeting (numberedId 1)) (numberedId 2) none 0
  let reply := MessageNode.new (numberedId 3) (greeting (numberedId 3)) (numberedId 4) (some (numberedId 1)) 1
  { MessageTree.new { root with childrenIds := [numberedId 3] } with
    nodes := (Dict.empty.set (numberedId 1) { root with childrenIds := [numberedId 3] }).set (numberedId 3) reply
    statusToNode := (Dict.empty.set (numberedId 2) (numberedId 1)).set (numberedId 4) (numberedId 3) }

theorem wellStructured_oneReply : WellStructured oneReply := by
  let machine := treeFrom (numberedId 1) (greeting (numberedId 1)) (numberedId 2) 0
  have ran : machine.run machine.init replyAndRemove = some oneReply := by decide +kernel
  exact wellStructured_of_reachable _ _ _ _ oneReply (Machine.reachable_of_run ran)

end ClaudeProxy.Manager

import ClaudeProxy.Manager.Branches
import ClaudeProxy.Manager.Filing
import ClaudeProxy.Manager.Serialise

namespace ClaudeProxy.Manager

open Kit Trees

/-- A tree that is written and read back in the same order: its root comes first and is below no node. -/
structure Restorable (rootId : MessageId) (tree : MessageTree) : Prop where
  root : tree.rootId = rootId
  keyed : Keyed tree
  indexed : StatusIndexed tree
  first : ∃ node rest, tree.nodes.entries = (rootId, node) :: rest
  orphan : ∀ nodeId node, tree.getNode nodeId = some node → rootId ∉ node.childrenIds

section Keep

variable {rootId : MessageId} {tree : MessageTree}

theorem first_set {nodes : Dict MessageId MessageNode} (first : ∃ node rest, nodes.entries = (rootId, node) :: rest)
    (key : MessageId) (value : MessageNode) : ∃ node rest, (nodes.set key value).entries = (rootId, node) :: rest := by
  rcases first with ⟨node, rest, eq⟩
  by_cases here : rootId = key
  · exact ⟨value, rest, by simp [Dict.set, Dict.setEntries, eq, here]⟩
  · exact ⟨node, Dict.setEntries key value rest, by simp [Dict.set, Dict.setEntries, eq, here]⟩

theorem first_erase {nodes : Dict MessageId MessageNode} (first : ∃ node rest, nodes.entries = (rootId, node) :: rest)
    {key : MessageId} (other : key ≠ rootId) : ∃ node rest, (nodes.erase key).entries = (rootId, node) :: rest := by
  rcases first with ⟨node, rest, eq⟩
  refine ⟨node, rest.filter fun entry => entry.1 ≠ key, ?_⟩
  simp [Dict.erase, eq, Ne.symm other]

theorem Restorable.found (restorable : Restorable rootId tree) : tree.hasNode rootId = true := by
  rcases restorable.first with ⟨node, rest, eq⟩
  have found : tree.nodes.get? rootId = some node := by
    rw [Dict.get?_eq_some_iff, eq]
    exact List.mem_cons_self
  exact (hasNode_iff ..).mpr ⟨node, found⟩

theorem Restorable.new (root : MessageNode) (childless : root.childrenIds = []) :
    Restorable root.nodeId (.new root) := by
  refine ⟨rfl, ?_, StatusIndexed.new root, ⟨root, [], rfl⟩, ?_⟩
  · intro nodeId node found
    rcases Dict.get?_set_cases found with ⟨here, same⟩ | ⟨_, none'⟩
    · rw [same, here]
    · cases none'
  · intro nodeId node found
    rcases Dict.get?_set_cases found with ⟨_, same⟩ | ⟨_, none'⟩
    · rw [same, childless]
      exact List.not_mem_nil
    · cases none'

theorem Restorable.modifyNode (restorable : Restorable rootId tree) (nodeId : MessageId) {change : MessageNode → MessageNode}
    (ids : ∀ node, (change node).nodeId = node.nodeId)
    (statuses : ∀ node, (change node).statusMessageId = node.statusMessageId)
    (children : ∀ node, rootId ∉ node.childrenIds → rootId ∉ (change node).childrenIds) :
    Restorable rootId (tree.modifyNode nodeId change) := by
  have known (key : MessageId) (node : MessageNode) (found : (tree.modifyNode nodeId change).getNode key = some node) :
      ∃ old, tree.getNode key = some old ∧ (node = old ∨ node = change old) := by
    rw [MessageTree.getNode_modifyNode] at found
    split at found
    · rename_i here
      rcases Option.map_eq_some_iff.mp found with ⟨old, there, rfl⟩
      exact ⟨old, here ▸ there, Or.inr rfl⟩
    · exact ⟨node, found, Or.inl rfl⟩
  constructor
  · rw [rootId_modifyNode, restorable.root]
  · intro key node found
    rcases known key node found with ⟨old, there, rfl | rfl⟩
    · exact restorable.keyed key node there
    · rw [ids]
      exact restorable.keyed key old there
  · exact restorable.indexed.modifyNode nodeId statuses
  · unfold MessageTree.modifyNode
    split
    · exact restorable.first
    · exact first_set restorable.first nodeId _
  · intro key node found
    rcases known key node found with ⟨old, there, rfl | rfl⟩
    · exact restorable.orphan key node there
    · exact children old (restorable.orphan key old there)

theorem Restorable.addNode (restorable : Restorable rootId tree) {after : MessageTree}
    {nodeId statusMessageId parentId : MessageId} {incoming : IncomingMessage} {now : Timestamp}
    (added : tree.addNode nodeId incoming statusMessageId parentId now = some after)
    (fresh : tree.hasNode nodeId = false) (freshStatus : tree.statusToNode.contains statusMessageId = false) :
    Restorable rootId after := by
  have absent : tree.getNode nodeId = none := by
    rw [← Option.not_isSome_iff_eq_none]
    exact Bool.eq_false_iff.mp fresh
  have absentStatus : tree.statusToNode.get? statusMessageId = none := by
    rw [← Option.not_isSome_iff_eq_none]
    exact Bool.eq_false_iff.mp freshStatus
  have other : nodeId ≠ rootId := by
    rintro rfl
    rw [restorable.found] at fresh
    cases fresh
  unfold MessageTree.addNode at added
  split at added
  · cases added
  · cases added
    let leaf := MessageNode.new nodeId incoming statusMessageId (some parentId) now
    let grown : MessageTree := { tree with
      nodes := tree.nodes.set nodeId leaf
      statusToNode := tree.statusToNode.set statusMessageId nodeId }
    have below : Restorable rootId grown := by
      constructor
      · exact restorable.root
      · intro key node found
        rcases Dict.get?_set_cases found with ⟨here, same⟩ | ⟨_, there⟩
        · rw [same, here]
          rfl
        · exact restorable.keyed key node there
      · exact StatusIndexed.set restorable.indexed absent absentStatus
      · exact first_set restorable.first nodeId leaf
      · intro key node found
        rcases Dict.get?_set_cases found with ⟨_, same⟩ | ⟨_, there⟩
        · rw [same]
          exact List.not_mem_nil
        · exact restorable.orphan key node there
    apply below.modifyNode
    · exact fun _ => rfl
    · exact fun _ => rfl
    · intro node orphan member
      rcases List.mem_append.mp member with old | new
      · exact orphan old
      · exact other (List.mem_singleton.mp new).symm

theorem mem_descendantsLoop {rounds : Nat} {stack : List MessageId} {x : MessageId}
    (member : x ∈ tree.descendantsLoop rounds stack) :
    x ∈ stack ∨ ∃ nodeId node, tree.getNode nodeId = some node ∧ x ∈ node.childrenIds := by
  induction rounds generalizing stack with
  | zero => simp [MessageTree.descendantsLoop] at member
  | succ rounds ih =>
    cases stack with
    | nil => simp [MessageTree.descendantsLoop] at member
    | cons nodeId stack =>
      rw [MessageTree.descendantsLoop] at member
      rcases List.mem_cons.mp member with rfl | later
      · exact Or.inl List.mem_cons_self
      · rcases ih later with inStack | child
        · rcases List.mem_append.mp inStack with inChildren | below
          · cases found : tree.nodes.get? nodeId with
            | none => simp [found] at inChildren
            | some node =>
              rw [found] at inChildren
              exact Or.inr ⟨nodeId, node, found, List.mem_reverse.mp inChildren⟩
          · exact Or.inl (List.mem_cons_of_mem _ below)
        · exact Or.inr child

theorem removeNodes_old {nodeIds : List MessageId} {key : MessageId} {node : MessageNode}
    (found : (MessageTree.removeNodes nodeIds tree).2.1.getNode key = some node) : tree.getNode key = some node := by
  induction nodeIds generalizing tree with
  | nil => exact found
  | cons nodeId rest ih =>
    have erased {statuses : Dict MessageId MessageId}
        (there : ({ tree with nodes := tree.nodes.erase nodeId, statusToNode := statuses } : MessageTree).getNode key =
          some node) : tree.getNode key = some node := by
      rw [MessageTree.getNode, Dict.get?_erase] at there
      split at there
      · cases there
      · exact there
    simp only [MessageTree.removeNodes] at found
    split at found
    · exact ih found
    · split at found
      · exact erased found
      · exact erased (ih found)

theorem removeNodes_first {nodeIds : List MessageId} (others : rootId ∉ nodeIds)
    (first : ∃ node rest, tree.nodes.entries = (rootId, node) :: rest) :
    ∃ node rest, (MessageTree.removeNodes nodeIds tree).2.1.nodes.entries = (rootId, node) :: rest := by
  induction nodeIds generalizing tree with
  | nil => exact first
  | cons nodeId nodeIds ih =>
    rw [List.mem_cons, not_or] at others
    have erased := first_erase first (Ne.symm others.1)
    simp only [MessageTree.removeNodes]
    split
    · exact ih others.2 first
    · split
      · exact erased
      · exact ih others.2 erased

theorem Restorable.removeBranch (restorable : Restorable rootId tree) {branchRootId : MessageId}
    (below : branchRootId ≠ rootId) : Restorable rootId (tree.removeBranch branchRootId).2 := by
  have outside : rootId ∉ tree.getDescendants branchRootId := by
    intro member
    unfold MessageTree.getDescendants at member
    split at member
    · cases member
    · rcases mem_descendantsLoop member with start | ⟨nodeId, node, found, child⟩
      · exact below (List.mem_singleton.mp start).symm
      · exact restorable.orphan nodeId node found child
  have removed : Restorable rootId (MessageTree.removeNodes (tree.getDescendants branchRootId) tree).2.1 := by
    constructor
    · rw [removeNodes_rootId, restorable.root]
    · exact fun key node found => restorable.keyed key node (removeNodes_old found)
    · exact (restorable.indexed.removeNodes _).2
    · exact removeNodes_first outside restorable.first
    · exact fun key node found => restorable.orphan key node (removeNodes_old found)
  unfold MessageTree.removeBranch
  split
  · exact restorable
  · split
    · rename_i result
      rw [result] at removed
      exact removed
    · rename_i result
      rw [result] at removed
      dsimp only
      split
      · exact removed
      · apply removed.modifyNode
        · exact fun _ => rfl
        · exact fun _ => rfl
        · exact fun _ orphan member => orphan (List.mem_filter.mp member).1

end Keep

section Tree

variable {iso : IsoFormat} {rootId : MessageId} {tree after : MessageTree}

/-- The tree that is read back: the same nodes in the same order, and the same index. -/
structure Restored (tree after : MessageTree) : Prop where
  rootId : after.rootId = tree.rootId
  nodes : after.nodes = tree.nodes.mapValues fun _ => reloaded
  statuses : after.statusToNode.Same tree.statusToNode

theorem addNodesFromDict_written (entries : List (MessageId × MessageNode)) (tree : MessageTree) :
    addNodesFromDict iso rootId (entries.map (entryToDict iso)) tree =
      some ((entries.filter fun entry => entry.1 ≠ rootId).foldl
        (fun tree entry => addNodeFromDict tree (reloaded entry.2)) tree) := by
  induction entries generalizing tree with
  | nil => rfl
  | cons entry rest ih =>
    rw [List.map_cons, entryToDict, addNodesFromDict]
    by_cases root : entry.1 = rootId
    · rw [if_pos (chars_injective.mpr root), ih, List.filter_cons_of_neg (by simpa using root)]
    · have other : ¬ entry.1.1.toList = rootId.1.toList := fun chars => root (chars_injective.mp chars)
      rw [if_neg other, nodeFromDict_nodeToDict, List.filter_cons_of_pos (by simpa using root)]
      exact ih _

theorem treeFromDict_treeToDict (tree : MessageTree) : treeFromDict iso (treeToDict iso tree) = fromDict (toDict tree) := by
  have found : Json.getMember tree.rootId.1.toList (tree.nodes.entries.map (entryToDict iso)) =
      (tree.nodes.get? tree.rootId).map (nodeToDict iso) := getMember_written (nodeToDict iso) _ _
  unfold treeToDict
  generalize eq : ([("root_id".toList, idToJson tree.rootId), _] : Members) = data
  have root : required data "root_id" = some (idToJson tree.rootId) := by rw [← eq]; rfl
  have nodes : required data "nodes" = some (.object (tree.nodes.entries.map (entryToDict iso))) := by rw [← eq]; rfl
  simp only [treeFromDict, asMembers, root, nodes, found, asId_idToJson, Option.bind_eq_bind, Option.bind_some, fromDict,
    toDict]
  cases tree.nodes.get? tree.rootId with
  | none => rfl
  | some node =>
    simp only [Option.map_some, Option.bind_some, nodeFromDict_nodeToDict]
    exact addNodesFromDict_written tree.nodes.entries _

theorem Restorable.wellSaved (restorable : Restorable rootId tree) : WellSaved (toDict tree) := by
  constructor
  · have found := restorable.found
    rw [← restorable.root] at found
    exact found
  · exact restorable.keyed
  · intro left right node other foundLeft foundRight same
    have one := (restorable.indexed node.statusMessageId left).mpr ⟨node, foundLeft, rfl⟩
    have two := (restorable.indexed node.statusMessageId right).mpr ⟨other, foundRight, same.symm⟩
    exact Option.some.inj (one.symm.trans two)

theorem addAll_entries (entries : List (MessageId × MessageNode)) (tree : MessageTree)
    (keyed : ∀ entry ∈ entries, entry.2.nodeId = entry.1) (nodup : (entries.map Prod.fst).Nodup)
    (fresh : ∀ entry ∈ entries, entry.1 ∉ tree.nodes.keys) :
    (entries.foldl (fun tree entry => addNodeFromDict tree (reloaded entry.2)) tree).nodes.entries =
      tree.nodes.entries ++ entries.map fun entry => (entry.1, reloaded entry.2) := by
  induction entries generalizing tree with
  | nil => simp
  | cons entry rest ih =>
    rw [List.map_cons, List.nodup_cons] at nodup
    have own : (reloaded entry.2).nodeId = entry.1 := keyed entry List.mem_cons_self
    have absent : (reloaded entry.2).nodeId ∉ tree.nodes.keys := by
      rw [own]
      exact fresh entry List.mem_cons_self
    have appended : (addNodeFromDict tree (reloaded entry.2)).nodes.entries =
        tree.nodes.entries ++ [(entry.1, reloaded entry.2)] := by
      rw [addNodeFromDict, Dict.entries_set_of_absent absent, own]
    rw [List.foldl_cons, ih _ (fun other member => keyed other (List.mem_cons_of_mem _ member)) nodup.2, appended,
      List.append_assoc]
    · rfl
    · intro other member inside
      rcases (Dict.mem_keys_set ..).mp inside with same | before
      · exact nodup.1 (own ▸ same ▸ List.mem_map_of_mem member)
      · exact fresh other (List.mem_cons_of_mem _ member) before

theorem Restorable.fromDict_entries (restorable : Restorable rootId tree) (read : fromDict (toDict tree) = some after) :
    after.nodes.entries = tree.nodes.entries.map fun entry => (entry.1, reloaded entry.2) := by
  rcases restorable.first with ⟨root, rest, eq⟩
  have found : tree.nodes.get? tree.rootId = some root := by
    rw [Dict.get?_eq_some_iff, eq, restorable.root]
    exact List.mem_cons_self
  have nodup := tree.nodes.nodup
  rw [eq, List.map_cons, List.nodup_cons] at nodup
  have others : (tree.nodes.entries.filter fun entry => entry.1 ≠ tree.rootId) = rest := by
    rw [eq, restorable.root, List.filter_cons_of_neg (by simp)]
    apply List.filter_eq_self.mpr
    intro entry member
    apply decide_eq_true
    intro same
    have inside : entry.1 ∈ rest.map Prod.fst := List.mem_map_of_mem member
    rw [same] at inside
    exact nodup.1 inside
  have own : (reloaded root).nodeId = rootId := by
    have keyed := restorable.keyed tree.rootId root found
    rw [restorable.root] at keyed
    exact keyed
  have built : rest.foldl (fun tree entry => addNodeFromDict tree (reloaded entry.2)) (.new (reloaded root)) = after := by
    simp only [fromDict, toDict, found, Option.map_some, Option.some.injEq] at read
    rw [← others]
    exact read
  rw [← built, addAll_entries, eq]
  · show [((reloaded root).nodeId, reloaded root)] ++ _ = _
    rw [own]
    rfl
  · intro entry member
    apply restorable.keyed entry.1
    rw [MessageTree.getNode, Dict.get?_eq_some_iff, eq]
    exact List.mem_cons_of_mem _ member
  · exact nodup.2
  · intro entry member inside
    have only : entry.1 = (reloaded root).nodeId := List.mem_singleton.mp inside
    have again : entry.1 ∈ rest.map Prod.fst := List.mem_map_of_mem member
    rw [only, own] at again
    exact nodup.1 again

theorem Restorable.restored (restorable : Restorable rootId tree) :
    ∃ after, treeFromDict iso (treeToDict iso tree) = some after ∧ Restored tree after := by
  rcases fromDict_spec restorable.wellSaved with ⟨after, read, reloads⟩
  have nodes : after.nodes = tree.nodes.mapValues fun _ => reloaded := by
    have entries := restorable.fromDict_entries read
    cases fresh : after.nodes with
    | mk list nodup =>
      rw [fresh] at entries
      exact (Dict.mk.injEq ..).mpr entries
  refine ⟨after, treeFromDict_treeToDict tree ▸ read, reloads.rootId, nodes, ?_⟩
  intro status
  have same (nodeId : MessageId) : after.statusToNode.get? status = some nodeId ↔
      tree.statusToNode.get? status = some nodeId := by
    have lookup : after.getNode nodeId = (tree.getNode nodeId).map reloaded := reloads.nodes nodeId
    rw [reloads.indexed status nodeId, restorable.indexed status nodeId, lookup]
    cases tree.getNode nodeId with
    | none => simp
    | some node => simp [reloaded]
  cases there : tree.statusToNode.get? status with
  | some nodeId => exact (same nodeId).mpr there
  | none =>
    cases back : after.statusToNode.get? status with
    | none => rfl
    | some nodeId =>
      rw [(same nodeId).mp back] at there
      cases there

end Tree

section Answers

variable {iso : IsoFormat} {tree after : MessageTree}

namespace Restored

theorem getNode (restored : Restored tree after) (nodeId : MessageId) :
    after.getNode nodeId = (tree.getNode nodeId).map reloaded := by
  rw [MessageTree.getNode, restored.nodes, Dict.get?_mapValues]
  rfl

theorem hasNode (restored : Restored tree after) (nodeId : MessageId) : after.hasNode nodeId = tree.hasNode nodeId := by
  have same := restored.getNode nodeId
  rw [MessageTree.getNode, MessageTree.getNode] at same
  rw [MessageTree.hasNode, MessageTree.hasNode, Dict.contains, Dict.contains, same, Option.isSome_map]

theorem getParentSessionId (restored : Restored tree after) (nodeId : MessageId) :
    after.getParentSessionId nodeId = tree.getParentSessionId nodeId := by
  have lookup (key : MessageId) : after.nodes.get? key = (tree.nodes.get? key).map reloaded := restored.getNode key
  simp only [MessageTree.getParentSessionId, MessageTree.getParent, lookup]
  cases tree.nodes.get? nodeId with
  | none => rfl
  | some node =>
    cases parent : node.parentId with
    | none => simp [reloaded, parent]
    | some parentId =>
      simp only [Option.map_some, reloaded, parent, Option.bind_some]
      cases tree.nodes.get? parentId <;> rfl

theorem getChildren (restored : Restored tree after) (nodeId : MessageId) :
    after.getChildren nodeId = (tree.getChildren nodeId).map reloaded := by
  have lookup (key : MessageId) : after.nodes.get? key = (tree.nodes.get? key).map reloaded := restored.getNode key
  simp only [MessageTree.getChildren, lookup]
  cases tree.nodes.get? nodeId with
  | none => rfl
  | some node =>
    simp only [Option.map_some, reloaded, List.map_filterMap]

theorem childrenIds (restored : Restored tree after) (nodeId : MessageId) :
    ((after.nodes.get? nodeId).map fun node => node.childrenIds).getD [] =
      ((tree.nodes.get? nodeId).map fun node => node.childrenIds).getD [] := by
  have lookup : after.nodes.get? nodeId = (tree.nodes.get? nodeId).map reloaded := restored.getNode nodeId
  rw [lookup]
  cases tree.nodes.get? nodeId <;> rfl

theorem walkBound (restored : Restored tree after) : after.walkBound = tree.walkBound := by
  rw [MessageTree.walkBound, MessageTree.walkBound, restored.nodes, Dict.values, Dict.values, Dict.mapValues,
    List.map_map, List.map_map, List.map_map]
  rfl

theorem descendantsLoop (restored : Restored tree after) (rounds : Nat) (stack : List MessageId) :
    after.descendantsLoop rounds stack = tree.descendantsLoop rounds stack := by
  induction rounds generalizing stack with
  | zero => rfl
  | succ rounds ih =>
    cases stack with
    | nil => rfl
    | cons nodeId stack => rw [MessageTree.descendantsLoop, MessageTree.descendantsLoop, restored.childrenIds, ih]

theorem getDescendants (restored : Restored tree after) (nodeId : MessageId) :
    after.getDescendants nodeId = tree.getDescendants nodeId := by
  have known := restored.hasNode nodeId
  rw [MessageTree.hasNode, MessageTree.hasNode] at known
  rw [MessageTree.getDescendants, MessageTree.getDescendants, known, restored.walkBound, restored.descendantsLoop]

theorem pendingLoop (restored : Restored tree after) (rounds : Nat) (stack : List MessageId) :
    after.pendingLoop rounds stack = tree.pendingLoop rounds stack := by
  have pending (child : MessageId) : ((after.nodes.get? child).any fun node => node.state = .pending) =
      (tree.nodes.get? child).any fun node => node.state = .pending := by
    have lookup : after.nodes.get? child = (tree.nodes.get? child).map reloaded := restored.getNode child
    rw [lookup]
    cases tree.nodes.get? child <;> rfl
  induction rounds generalizing stack with
  | zero => rfl
  | succ rounds ih =>
    cases stack with
    | nil => rfl
    | cons nodeId stack =>
      simp only [MessageTree.pendingLoop, restored.childrenIds, pending, ih]

theorem getPendingChildren (restored : Restored tree after) (nodeId : MessageId) :
    after.getPendingChildren nodeId = tree.getPendingChildren nodeId := by
  rw [MessageTree.getPendingChildren, MessageTree.getPendingChildren, restored.walkBound, restored.pendingLoop]

theorem resolveIn (restored : Restored tree after) (msgId : MessageId) :
    Manager.resolveIn after msgId = Manager.resolveIn tree msgId := by
  have lookup (key : MessageId) : after.nodes.get? key = (tree.nodes.get? key).map reloaded := restored.getNode key
  simp only [Manager.resolveIn, restored.hasNode, MessageTree.findNodeByStatusMessage, restored.statuses msgId]
  cases tree.statusToNode.get? msgId with
  | none => rfl
  | some nodeId =>
    rw [Option.bind_some, Option.bind_some, lookup]
    cases tree.nodes.get? nodeId <;> rfl

theorem toDict (restored : Restored tree after) : treeToDict iso after = treeToDict iso tree := by
  have entries : after.nodes.entries.map (entryToDict iso) = tree.nodes.entries.map (entryToDict iso) := by
    rw [restored.nodes, Dict.mapValues, List.map_map]
    rfl
  rw [treeToDict, treeToDict, restored.rootId, entries]

end Restored

end Answers

end ClaudeProxy.Manager

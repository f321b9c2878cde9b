import ClaudeProxy.Manager.Repository
import ClaudeProxy.Trees.Frame

namespace ClaudeProxy.Manager

open Kit Sessions Trees

/-- The index of status messages holds exactly the status messages of the nodes. -/
def StatusIndexed (tree : MessageTree) : Prop :=
  ∀ status nodeId, tree.statusToNode.get? status = some nodeId ↔
    ∃ node, tree.getNode nodeId = some node ∧ node.statusMessageId = status

theorem StatusIndexed.new (root : MessageNode) : StatusIndexed (.new root) := by
  intro status nodeId
  simp only [MessageTree.new, MessageTree.getNode, Dict.get?_set, Dict.get?_empty]
  grind

theorem StatusIndexed.set {tree : MessageTree} (indexed : StatusIndexed tree) {node : MessageNode} {nodeId : MessageId}
    (freshNode : tree.getNode nodeId = none) (freshStatus : tree.statusToNode.get? node.statusMessageId = none) :
    StatusIndexed { tree with
      nodes := tree.nodes.set nodeId node
      statusToNode := tree.statusToNode.set node.statusMessageId nodeId } := by
  intro status key
  have before := indexed status key
  simp only [MessageTree.getNode, Dict.get?_set] at before freshNode ⊢
  by_cases own : status = node.statusMessageId
  · subst own
    simp only [if_true]
    constructor
    · intro same
      cases same
      exact ⟨node, if_pos rfl, rfl⟩
    · rintro ⟨other, found, same⟩
      split at found
      · rename_i here
        rw [here]
      · rw [before.mpr ⟨other, found, same⟩] at freshStatus
        cases freshStatus
  · rw [if_neg own, before]
    constructor
    · rintro ⟨other, found, same⟩
      have different : key ≠ nodeId := by
        rintro rfl
        rw [found] at freshNode
        cases freshNode
      exact ⟨other, by rw [if_neg different]; exact found, same⟩
    · rintro ⟨other, found, same⟩
      split at found
      · cases found
        exact absurd same.symm own
      · exact ⟨other, found, same⟩

theorem StatusIndexed.modifyNode {tree : MessageTree} (indexed : StatusIndexed tree) (nodeId : MessageId)
    {change : MessageNode → MessageNode} (keeps : ∀ node, (change node).statusMessageId = node.statusMessageId) :
    StatusIndexed (tree.modifyNode nodeId change) := by
  have same : (tree.modifyNode nodeId change).statusToNode = tree.statusToNode := by
    unfold MessageTree.modifyNode
    split <;> rfl
  intro status key
  rw [same, indexed status key, MessageTree.getNode_modifyNode]
  by_cases here : key = nodeId
  · subst here
    cases found : tree.getNode key with
    | none => simp
    | some node => simp [keeps]
  · simp [here]

/-- What `from_dict` gives for a saved tree: the nodes as they were saved, and the index over them. -/
structure Reloads (data : SavedTree) (tree : MessageTree) : Prop where
  rootId : tree.rootId = data.rootId
  nodes : ∀ nodeId, tree.getNode nodeId = (data.nodes.get? nodeId).map reloaded
  indexed : StatusIndexed tree

/-- A saved tree has its root, keeps each node under its own id and gives each its own status message. -/
structure WellSaved (data : SavedTree) : Prop where
  root : (data.nodes.get? data.rootId).isSome
  keyed : ∀ nodeId node, data.nodes.get? nodeId = some node → node.nodeId = nodeId
  statuses : ∀ left right node other, data.nodes.get? left = some node → data.nodes.get? right = some other →
    node.statusMessageId = other.statusMessageId → left = right

theorem addAll_rootId (entries : List (MessageId × MessageNode)) (tree : MessageTree) :
    (entries.foldl (fun tree entry => addNodeFromDict tree (reloaded entry.2)) tree).rootId = tree.rootId := by
  induction entries generalizing tree with
  | nil => rfl
  | cons entry rest ih => exact ih _

theorem addAll_spec (entries : List (MessageId × MessageNode)) {tree : MessageTree} (indexed : StatusIndexed tree)
    (keyed : ∀ entry ∈ entries, entry.2.nodeId = entry.1) (nodup : (entries.map Prod.fst).Nodup)
    (fresh : ∀ entry ∈ entries, tree.getNode entry.1 = none)
    (statuses : (entries.map fun entry => entry.2.statusMessageId).Nodup)
    (freshStatus : ∀ entry ∈ entries, tree.statusToNode.get? entry.2.statusMessageId = none) :
    StatusIndexed (entries.foldl (fun tree entry => addNodeFromDict tree (reloaded entry.2)) tree) ∧
      ∀ nodeId, (entries.foldl (fun tree entry => addNodeFromDict tree (reloaded entry.2)) tree).getNode nodeId =
        ((entries.find? fun entry => entry.1 = nodeId).map fun entry => reloaded entry.2).or (tree.getNode nodeId) := by
  induction entries generalizing tree with
  | nil => exact ⟨indexed, fun _ => rfl⟩
  | cons entry rest ih =>
    obtain ⟨notLater, nodup⟩ := List.nodup_cons.mp nodup
    obtain ⟨statusNotLater, statuses⟩ := List.nodup_cons.mp statuses
    have own : entry.2.nodeId = entry.1 := keyed entry List.mem_cons_self
    have added : StatusIndexed (addNodeFromDict tree (reloaded entry.2)) := by
      apply indexed.set
      · exact own ▸ fresh entry List.mem_cons_self
      · exact freshStatus entry List.mem_cons_self
    have stillFresh : ∀ other ∈ rest, (addNodeFromDict tree (reloaded entry.2)).getNode other.1 = none := by
      intro other member
      have different : other.1 ≠ entry.2.nodeId := by
        rw [own]
        intro same
        exact notLater (same ▸ List.mem_map_of_mem member)
      show ((tree.nodes.set entry.2.nodeId (reloaded entry.2)).get? other.1) = none
      rw [Dict.get?_set_ne _ _ different]
      exact fresh other (List.mem_cons_of_mem _ member)
    have stillFreshStatus : ∀ other ∈ rest,
        (addNodeFromDict tree (reloaded entry.2)).statusToNode.get? other.2.statusMessageId = none := by
      intro other member
      have different : other.2.statusMessageId ≠ entry.2.statusMessageId := by
        intro same
        exact statusNotLater (List.mem_map.mpr ⟨other, member, same⟩)
      show ((tree.statusToNode.set entry.2.statusMessageId entry.2.nodeId).get? other.2.statusMessageId) = none
      rw [Dict.get?_set_ne _ _ different]
      exact freshStatus other (List.mem_cons_of_mem _ member)
    obtain ⟨final, nodes⟩ :=
      ih added (fun other member => keyed other (List.mem_cons_of_mem _ member)) nodup stillFresh statuses
      stillFreshStatus
    refine ⟨final, fun nodeId => ?_⟩
    rw [List.foldl_cons, nodes nodeId, List.find?_cons]
    show Option.or _ ((tree.nodes.set entry.2.nodeId (reloaded entry.2)).get? nodeId) = _
    rw [Dict.get?_set, own]
    by_cases here : entry.1 = nodeId
    · have absent : rest.find? (fun entry => entry.1 = nodeId) = none := by
        apply List.find?_eq_none.mpr
        intro other member same
        exact notLater (here ▸ List.mem_map.mpr ⟨other, member, by simpa using same⟩)
      simp [here, absent]
    · simp [here, Ne.symm here, MessageTree.getNode]

theorem fromDict_spec {data : SavedTree} (saved : WellSaved data) : ∃ tree, fromDict data = some tree ∧
    Reloads data tree := by
  obtain ⟨root, found⟩ := Option.isSome_iff_exists.mp saved.root
  have own : root.nodeId = data.rootId := saved.keyed _ _ found
  let others := data.nodes.entries.filter fun entry => entry.1 ≠ data.rootId
  have other : ∀ entry ∈ others, data.nodes.get? entry.1 = some entry.2 ∧ entry.1 ≠ data.rootId := by
    intro entry member
    obtain ⟨there, different⟩ := List.mem_filter.mp member
    exact ⟨(Dict.get?_eq_some_iff _ _ _).mpr there, of_decide_eq_true different⟩
  have nodup : (others.map Prod.fst).Nodup := data.nodes.nodup.sublist (List.filter_sublist.map _)
  have fresh : ∀ entry ∈ others, (MessageTree.new (reloaded root)).getNode entry.1 = none := by
    intro entry member
    apply Dict.get?_set_ne
    exact fun same => (other entry member).2 (same.trans own)
  have statuses : (others.map fun entry => entry.2.statusMessageId).Nodup := by
    apply (List.Nodup.of_map _ nodup).map_on
    intro left inLeft right inRight same
    obtain ⟨foundLeft, _⟩ := other left inLeft
    obtain ⟨foundRight, _⟩ := other right inRight
    have key : left.1 = right.1 := saved.statuses _ _ _ _ foundLeft foundRight same
    rw [key, foundRight] at foundLeft
    exact Prod.ext key (Option.some.inj foundLeft).symm
  have freshStatus : ∀ entry ∈ others,
      (MessageTree.new (reloaded root)).statusToNode.get? entry.2.statusMessageId = none := by
    intro entry member
    obtain ⟨there, different⟩ := other entry member
    apply Dict.get?_set_ne
    exact fun same => different (saved.statuses _ _ _ _ there found same)
  have keyed : ∀ entry ∈ others, entry.2.nodeId = entry.1 := fun entry member => saved.keyed _ _ (other entry member).1
  obtain ⟨indexed, nodes⟩ := addAll_spec others (.new (reloaded root)) keyed nodup fresh statuses freshStatus
  refine ⟨_, by rw [fromDict, found]; rfl, ⟨?_, ?_, indexed⟩⟩
  · rw [addAll_rootId]
    exact own
  · intro nodeId
    rw [nodes nodeId, List.find?_filter]
    by_cases here : nodeId = data.rootId
    · subst here
      have absent : data.nodes.entries.find? (fun entry =>
          decide (decide (entry.1 ≠ data.rootId) = true ∧ decide (entry.1 = data.rootId) = true)) = none := by
        apply List.find?_eq_none.mpr
        simp
      rw [absent, found]
      exact own ▸ Dict.get?_set_self _ _ _
    · have agree : (fun entry : MessageId × MessageNode =>
          decide (decide (entry.1 ≠ data.rootId) = true ∧ decide (entry.1 = nodeId) = true)) =
            fun entry => decide (entry.1 = nodeId) := by
        funext entry
        by_cases same : entry.1 = nodeId <;> simp [same, here]
      have absent : (MessageTree.new (reloaded root)).getNode nodeId = none :=
        Dict.get?_set_ne _ _ fun same => here (same.trans own)
      rw [agree, absent, Option.or_none, Dict.get?, Option.map_map]
      rfl

end ClaudeProxy.Manager

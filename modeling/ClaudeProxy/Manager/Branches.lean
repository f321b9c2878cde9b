import ClaudeProxy.Manager.Reload

namespace ClaudeProxy.Manager

open Kit Trees

theorem hasNode_iff (tree : MessageTree) (nodeId : MessageId) :
    tree.hasNode nodeId = true ↔ ∃ node, tree.getNode nodeId = some node := Option.isSome_iff_exists

theorem rootId_modifyNode (tree : MessageTree) (nodeId : MessageId) (change : MessageNode → MessageNode) :
    (tree.modifyNode nodeId change).rootId = tree.rootId := by
  unfold MessageTree.modifyNode
  split <;> rfl

theorem removeNodes_rootId (nodeIds : List MessageId) (tree : MessageTree) :
    (MessageTree.removeNodes nodeIds tree).2.1.rootId = tree.rootId := by
  induction nodeIds generalizing tree with
  | nil => rfl
  | cons nodeId rest ih =>
    simp only [MessageTree.removeNodes]
    split
    · exact ih tree
    · split
      · rfl
      · exact ih _

theorem removeBranch_rootId (tree : MessageTree) (branchRootId : MessageId) :
    (tree.removeBranch branchRootId).2.rootId = tree.rootId := by
  have removed := removeNodes_rootId (tree.getDescendants branchRootId) tree
  unfold MessageTree.removeBranch
  split
  · rfl
  · split
    · rename_i result
      rw [result] at removed
      exact removed
    · rename_i result
      rw [result] at removed
      dsimp only
      split
      · exact removed
      · exact (rootId_modifyNode ..).trans removed

variable {tree : MessageTree}

theorem StatusIndexed.erase (indexed : StatusIndexed tree) {nodeId : MessageId} {node : MessageNode}
    (found : tree.getNode nodeId = some node) : StatusIndexed { tree with
      nodes := tree.nodes.erase nodeId
      statusToNode := tree.statusToNode.erase node.statusMessageId } := by
  intro status key
  have before := indexed status key
  have own := (indexed node.statusMessageId nodeId).mpr ⟨node, found, rfl⟩
  simp only [MessageTree.getNode, Dict.get?_erase] at before found ⊢
  by_cases here : key = nodeId
  · subst here
    simp only [if_true, reduceCtorEq, false_and, exists_false, iff_false]
    split
    · exact fun no => by cases no
    · rename_i different
      intro points
      obtain ⟨other, there, same⟩ := before.mp points
      cases found.symm.trans there
      exact different same.symm
  · rw [if_neg here, ← before]
    split
    · rename_i same
      rw [same, own]
      simp [Ne.symm here]
    · rfl

/-- The index has the status message of every node, so no deletion raises. -/
theorem StatusIndexed.removeNodes (indexed : StatusIndexed tree) (nodeIds : List MessageId) :
    (MessageTree.removeNodes nodeIds tree).2.2 = true ∧ StatusIndexed (MessageTree.removeNodes nodeIds tree).2.1 := by
  induction nodeIds generalizing tree with
  | nil => exact ⟨rfl, indexed⟩
  | cons nodeId rest ih =>
    simp only [MessageTree.removeNodes]
    split
    · exact ih indexed
    · rename_i node found
      have points := (indexed node.statusMessageId nodeId).mpr ⟨node, found, rfl⟩
      have present : tree.statusToNode.contains node.statusMessageId = true :=
        Option.isSome_iff_exists.mpr ⟨nodeId, points⟩
      rw [if_neg (not_not.mpr present)]
      exact ih (indexed.erase found)

theorem StatusIndexed.removeBranch (indexed : StatusIndexed tree) (branchRootId : MessageId) :
    StatusIndexed (tree.removeBranch branchRootId).2 := by
  obtain ⟨done, removed⟩ := indexed.removeNodes (tree.getDescendants branchRootId)
  unfold MessageTree.removeBranch
  split
  · exact indexed
  · split
    · rename_i result
      rw [result] at done
      cases done
    · rename_i result
      rw [result] at removed
      dsimp only
      split
      · exact removed
      · exact removed.modifyNode _ fun _ => rfl

theorem removeNodes_known (nodeIds : List MessageId) (tree : MessageTree) (node : MessageNode)
    (removed : node ∈ (MessageTree.removeNodes nodeIds tree).1) : ∃ nodeId, tree.getNode nodeId = some node := by
  induction nodeIds generalizing tree with
  | nil => cases removed
  | cons nodeId rest ih =>
    simp only [MessageTree.removeNodes] at removed
    split at removed
    · exact ih tree removed
    · rename_i first found
      split at removed
      · cases List.mem_singleton.mp removed
        exact ⟨nodeId, found⟩
      · rcases List.mem_cons.mp removed with rfl | later
        · exact ⟨nodeId, found⟩
        · obtain ⟨key, there⟩ := ih _ later
          rw [MessageTree.getNode, Dict.get?_erase] at there
          split at there
          · cases there
          · exact ⟨key, there⟩

theorem removeBranch_known (branchRootId : MessageId) (node : MessageNode)
    (removed : node ∈ (tree.removeBranch branchRootId).1) : ∃ nodeId, tree.getNode nodeId = some node := by
  have known := removeNodes_known (tree.getDescendants branchRootId) tree node
  unfold MessageTree.removeBranch at removed
  split at removed
  · cases removed
  · split at removed
    · rename_i result
      rw [result] at known
      exact known removed
    · rename_i result
      rw [result] at known
      dsimp only at removed
      split at removed <;> exact known removed

end ClaudeProxy.Manager

import ClaudeProxy.Manager.Restorable

namespace ClaudeProxy.Manager

open Kit Trees

def statusIn (tree : MessageTree) (nodeId : MessageId) : Option MessageId :=
  (tree.getNode nodeId).map (·.statusMessageId)

theorem statusIn_eq_some {tree : MessageTree} {nodeId status : MessageId} :
    statusIn tree nodeId = some status ↔ ∃ node, tree.getNode nodeId = some node ∧ node.statusMessageId = status :=
  Option.map_eq_some_iff

theorem hasNode_iff_statusIn (tree : MessageTree) (nodeId : MessageId) :
    tree.hasNode nodeId = true ↔ ∃ status, statusIn tree nodeId = some status := by
  rw [hasNode_iff]
  constructor
  · intro known
    rcases known with ⟨node, found⟩
    exact ⟨node.statusMessageId, statusIn_eq_some.mpr ⟨node, found, rfl⟩⟩
  · intro known
    rcases known with ⟨status, found⟩
    rcases statusIn_eq_some.mp found with ⟨node, there, _⟩
    exact ⟨node, there⟩

theorem statusIn_new (root : MessageNode) (nodeId : MessageId) :
    statusIn (.new root) nodeId = if nodeId = root.nodeId then some root.statusMessageId else none := by
  rw [statusIn, MessageTree.new, MessageTree.getNode, Dict.get?_set]
  split <;> rfl

theorem statusIn_modifyNode (tree : MessageTree) (nodeId : MessageId) {change : MessageNode → MessageNode}
    (keeps : ∀ node, (change node).statusMessageId = node.statusMessageId) (key : MessageId) :
    statusIn (tree.modifyNode nodeId change) key = statusIn tree key := by
  rw [statusIn, MessageTree.getNode_modifyNode]
  split
  · rename_i here
    rw [here, Option.map_map, statusIn]
    congr 1
    funext node
    exact keeps node
  · rfl

theorem statusIn_addNode {tree after : MessageTree} {nodeId statusMessageId parentId : MessageId}
    {incoming : IncomingMessage} {now : Timestamp}
    (added : tree.addNode nodeId incoming statusMessageId parentId now = some after) (key : MessageId) :
    statusIn after key = if key = nodeId then some statusMessageId else statusIn tree key := by
  unfold MessageTree.addNode at added
  split at added
  · cases added
  · cases added
    rw [statusIn_modifyNode]
    · rw [statusIn, MessageTree.getNode, Dict.get?_set]
      split <;> rfl
    · exact fun _ => rfl

section RemoveNodes

variable {nodeIds : List MessageId} {tree : MessageTree}

theorem statusIn_removeNodes (done : (MessageTree.removeNodes nodeIds tree).2.2 = true) (key : MessageId) :
    statusIn (MessageTree.removeNodes nodeIds tree).2.1 key = if key ∈ nodeIds then none else statusIn tree key := by
  induction nodeIds generalizing tree with
  | nil => rfl
  | cons nodeId rest ih =>
    simp only [MessageTree.removeNodes] at done ⊢
    split
    · rename_i absent
      rw [absent] at done
      rw [ih done]
      by_cases here : key = nodeId
      · have unknown : statusIn tree key = none := by
          rw [statusIn, MessageTree.getNode, here, absent]
          rfl
        rw [unknown]
        simp
      · simp [here]
    · rename_i node found
      simp only [found] at done
      split at done
      · cases done
      · rename_i present
        rw [if_neg present, ih done]
        by_cases here : key = nodeId
        · simp [here, statusIn, MessageTree.getNode]
        · simp [here, statusIn, MessageTree.getNode, Dict.get?_erase]

theorem mem_removeNodes (keyed : Keyed tree) (done : (MessageTree.removeNodes nodeIds tree).2.2 = true) (key : MessageId) :
    key ∈ (MessageTree.removeNodes nodeIds tree).1.map (·.nodeId) ↔ key ∈ nodeIds ∧ tree.hasNode key = true := by
  induction nodeIds generalizing tree with
  | nil => simp [MessageTree.removeNodes]
  | cons nodeId rest ih =>
    simp only [MessageTree.removeNodes] at done ⊢
    split
    · rename_i absent
      rw [absent] at done
      rw [ih keyed done, List.mem_cons]
      have unknown : ¬ tree.hasNode nodeId = true := by
        rw [hasNode_iff]
        intro known
        rcases known with ⟨node, found⟩
        rw [MessageTree.getNode, absent] at found
        cases found
      constructor
      · intro both
        exact ⟨Or.inr both.1, both.2⟩
      · intro both
        rcases both.1 with here | later
        · rw [here] at both
          exact absurd both.2 unknown
        · exact ⟨later, both.2⟩
    · rename_i node found
      simp only [found] at done
      have known : tree.hasNode nodeId = true := (hasNode_iff ..).mpr ⟨node, found⟩
      have own : node.nodeId = nodeId := keyed nodeId node found
      split at done
      · cases done
      · rename_i present
        have fewer : Keyed { tree with
            nodes := tree.nodes.erase nodeId, statusToNode := tree.statusToNode.erase node.statusMessageId } := by
          intro other kept there
          rw [MessageTree.getNode, Dict.get?_erase] at there
          split at there
          · cases there
          · exact keyed other kept there
        rw [if_neg present, List.map_cons, List.mem_cons, ih fewer done, own, List.mem_cons]
        simp only [MessageTree.hasNode, Dict.contains, Dict.get?_erase] at known ⊢
        by_cases here : key = nodeId
        · simp [here, known]
        · simp [here]

end RemoveNodes

section RemoveBranch

variable {tree : MessageTree} {branchRootId : MessageId}

theorem statusIn_removeBranch (indexed : StatusIndexed tree) (key : MessageId) :
    statusIn (tree.removeBranch branchRootId).2 key =
      if key ∈ tree.getDescendants branchRootId then none else statusIn tree key := by
  have done := (indexed.removeNodes (tree.getDescendants branchRootId)).1
  have removed := statusIn_removeNodes done key
  unfold MessageTree.removeBranch
  split
  · rename_i absent
    simp [MessageTree.getDescendants, absent]
  · split
    · rename_i result
      rw [result] at done
      cases done
    · rename_i result
      rw [result] at removed
      dsimp only
      split
      · exact removed
      · rw [statusIn_modifyNode]
        · exact removed
        · exact fun _ => rfl

theorem mem_removeBranch (keyed : Keyed tree) (indexed : StatusIndexed tree) (key : MessageId) :
    key ∈ (tree.removeBranch branchRootId).1.map (·.nodeId) ↔
      key ∈ tree.getDescendants branchRootId ∧ tree.hasNode key = true := by
  have done := (indexed.removeNodes (tree.getDescendants branchRootId)).1
  have removed := mem_removeNodes keyed done key
  unfold MessageTree.removeBranch
  split
  · rename_i absent
    simp [MessageTree.getDescendants, absent]
  · split
    · rename_i result
      rw [result] at done
      cases done
    · rename_i result
      rw [result] at removed
      dsimp only
      split <;> exact removed

end RemoveBranch

end ClaudeProxy.Manager

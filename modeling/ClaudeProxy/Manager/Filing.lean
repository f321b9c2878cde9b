import ClaudeProxy.Manager.Forest
import ClaudeProxy.Manager.Reload
import ClaudeProxy.Sessions.Refinement

namespace ClaudeProxy.Manager

open Kit Sessions Trees

def shapes (tree : MessageTree) : MessageId → Option Shape := fun nodeId => (tree.getNode nodeId).map shapeOf

def forestIn (trees : Dict MessageId MessageTree) : Forest := fun rootId => (trees.get? rootId).map shapes

def savedForest (trees : Dict MessageId SavedTree) : Forest := fun rootId =>
  (trees.get? rootId).map fun data nodeId => (data.nodes.get? nodeId).map shapeOf

theorem forestIn_set (trees : Dict MessageId MessageTree) (rootId : MessageId) (tree : MessageTree) :
    forestIn (trees.set rootId tree) = Function.update (forestIn trees) rootId (some (shapes tree)) := by
  funext key
  rw [forestIn, Dict.get?_set, Function.update_apply]
  split <;> rfl

theorem savedForest_set (trees : Dict MessageId SavedTree) (rootId : MessageId) (tree : MessageTree) :
    savedForest (trees.set rootId (toDict tree)) = Function.update (savedForest trees) rootId (some (shapes tree)) := by
  funext key
  rw [savedForest, Dict.get?_set, Function.update_apply]
  split <;> rfl

theorem shapes_new (root : MessageNode) :
    shapes (.new root) = fun nodeId => if nodeId = root.nodeId then some (shapeOf root) else none := by
  funext nodeId
  rw [shapes, MessageTree.new, MessageTree.getNode, Dict.get?_set]
  split <;> rfl

theorem shapes_modifyNode (tree : MessageTree) (nodeId : MessageId) {change : MessageNode → MessageNode}
    (keeps : ∀ node, shapeOf (change node) = shapeOf node) : shapes (tree.modifyNode nodeId change) = shapes tree := by
  funext key
  rw [shapes, MessageTree.getNode_modifyNode]
  split
  · rename_i here
    rw [here, Option.map_map, shapes]
    congr 1
    funext node
    exact keeps node
  · rfl

theorem shapes_isSome (tree : MessageTree) {nodeId : MessageId} (member : nodeId ∈ tree.nodes.keys) :
    (shapes tree nodeId).isSome := by
  have there := (Dict.contains_iff tree.nodes nodeId).mpr member
  rw [shapes, Option.isSome_map]
  exact there

theorem addNode_eq_some {tree : MessageTree} {parentId : MessageId} (known : tree.hasNode parentId) (nodeId : MessageId)
    (incoming : IncomingMessage) (statusMessageId : MessageId) (now : Timestamp) :
    ∃ after, tree.addNode nodeId incoming statusMessageId parentId now = some after := by
  have present : tree.nodes.contains parentId = true := known
  exact ⟨_, by rw [MessageTree.addNode, if_neg (not_not.mpr present)]⟩

section AddNode

variable {tree after : MessageTree} {nodeId statusMessageId parentId : MessageId} {incoming : IncomingMessage}
    {now : Timestamp}

theorem addNode_rootId (added : tree.addNode nodeId incoming statusMessageId parentId now = some after) :
    after.rootId = tree.rootId := by
  unfold MessageTree.addNode at added
  split at added
  · cases added
  · cases added
    unfold MessageTree.modifyNode
    split <;> rfl

theorem shapes_addNode (added : tree.addNode nodeId incoming statusMessageId parentId now = some after)
    (different : nodeId ≠ parentId) : shapes after = fun key =>
      if key = nodeId then some ⟨nodeId, incoming.chatId, statusMessageId, some parentId, []⟩
      else (shapes tree key).map fun node =>
        if some parentId = some key then { node with childrenIds := node.childrenIds ++ [nodeId] } else node := by
  unfold MessageTree.addNode at added
  split at added
  · cases added
  · cases added
    funext key
    rw [shapes, MessageTree.getNode_modifyNode, MessageTree.getNode, MessageTree.getNode, Dict.get?_set, Dict.get?_set]
    by_cases leaf : key = nodeId
    · have notParent : key ≠ parentId := leaf ▸ different
      rw [if_neg notParent, if_pos leaf, if_pos leaf]
      rfl
    · rw [if_neg leaf, if_neg (Ne.symm different), if_neg leaf, shapes, MessageTree.getNode]
      by_cases parent : key = parentId
      · subst parent
        rw [if_pos rfl, Option.map_map, Option.map_map]
        congr 1
        funext node
        simp [shapeOf]
      · rw [if_neg parent, Option.map_map]
        congr 1
        funext node
        simp [Ne.symm parent]

theorem StatusIndexed.addNode (indexed : StatusIndexed tree)
    (added : tree.addNode nodeId incoming statusMessageId parentId now = some after)
    (freshNode : tree.getNode nodeId = none) (freshStatus : tree.statusToNode.get? statusMessageId = none) :
    StatusIndexed after := by
  unfold MessageTree.addNode at added
  split at added
  · cases added
  · cases added
    apply StatusIndexed.modifyNode
    · exact StatusIndexed.set indexed freshNode freshStatus
    · exact fun _ => rfl

end AddNode

section Restore

theorem markStale_spec (now : Timestamp) {tree : MessageTree} (indexed : StatusIndexed tree) :
    (markStale now tree).rootId = tree.rootId ∧ StatusIndexed (markStale now tree) ∧
      shapes (markStale now tree) = shapes tree := by
  unfold markStale
  generalize staleNodes tree = stale
  induction stale generalizing tree with
  | nil => exact ⟨rfl, indexed, rfl⟩
  | cons node rest ih =>
    have marked : StatusIndexed (tree.setNodeErrorSync node.nodeId "Lost during server restart" now) :=
      indexed.modifyNode _ fun _ => rfl
    obtain ⟨root, final, same⟩ := ih marked
    have ownRoot : (tree.setNodeErrorSync node.nodeId "Lost during server restart" now).rootId = tree.rootId := by
      unfold MessageTree.setNodeErrorSync MessageTree.modifyNode
      split <;> rfl
    exact ⟨root.trans ownRoot, final, same.trans (shapes_modifyNode _ _ fun _ => rfl)⟩

/-- A forest of handled messages that was saved can be read back. -/
theorem wellSaved_of_forest {log : List Entry} (filed : WellFiled log) {trees : Dict MessageId SavedTree}
    (saved : savedForest trees = forestOf log) {data : SavedTree} (found : trees.get? data.rootId = some data) :
    WellSaved data := by
  have here := congrFun saved data.rootId
  rw [savedForest, found, Option.map_some] at here
  have entry (nodeId : MessageId) (node : MessageNode) (foundNode : data.nodes.get? nodeId = some node) :
      ∃ e ∈ log, e.nodeId = nodeId ∧ shapeOf node = e.shape log := by
    obtain ⟨e, member, _, own, same⟩ := entry_of_forestOf here.symm (congrArg (Option.map shapeOf) foundNode)
    exact ⟨e, member, own, same⟩
  constructor
  · have known : log.any (fun e => e.rootId = data.rootId) = true := by
      by_contra absent
      rw [forestOf, if_neg absent] at here
      cases here
    obtain ⟨e, member, same⟩ := List.any_eq_true.mp known
    obtain ⟨root, there, own, ownRoot⟩ := filed.roots e member
    rw [of_decide_eq_true same] at own ownRoot
    obtain ⟨nodes, tree, node⟩ := node_of_forestOf filed there
    rw [ownRoot, ← here] at tree
    cases tree
    rw [own] at node
    obtain ⟨_, foundRoot, _⟩ := Option.map_eq_some_iff.mp node
    rw [foundRoot]
    rfl
  · intro nodeId node foundNode
    obtain ⟨e, _, own, same⟩ := entry nodeId node foundNode
    exact (congrArg Shape.nodeId same).trans own
  · intro left right node other foundLeft foundRight status
    obtain ⟨e, member, own, same⟩ := entry left node foundLeft
    obtain ⟨e', member', own', same'⟩ := entry right other foundRight
    have statuses : e.statusMessageId = e'.statusMessageId :=
      (congrArg Shape.statusMessageId same).symm.trans (status.trans (congrArg Shape.statusMessageId same'))
    rw [← own, ← own', filed.distinct e member e' member' _ e.names_statusMessageId (statuses ▸ e'.names_statusMessageId)]

theorem Reloads.shapes {data : SavedTree} {tree : MessageTree} (reloads : Reloads data tree) :
    shapes tree = fun nodeId => (data.nodes.get? nodeId).map shapeOf := by
  funext nodeId
  rw [Manager.shapes, reloads.nodes, Option.map_map]
  rfl

theorem foldlM_fromDict (entries : List (MessageId × SavedTree)) (start : Dict MessageId MessageTree)
    (readable : ∀ entry ∈ entries, (fromDict entry.2).isSome) (nodup : (entries.map Prod.fst).Nodup) :
    ∃ trees, entries.foldlM (fun restored entry => (fromDict entry.2).map (restored.set entry.1)) start = some trees ∧
      ∀ rootId, trees.get? rootId =
        ((entries.find? fun entry => entry.1 = rootId).bind fun entry => fromDict entry.2).or (start.get? rootId) := by
  induction entries generalizing start with
  | nil => exact ⟨start, rfl, fun _ => rfl⟩
  | cons entry rest ih =>
    obtain ⟨notLater, nodup⟩ := List.nodup_cons.mp nodup
    obtain ⟨tree, read⟩ := Option.isSome_iff_exists.mp (readable entry List.mem_cons_self)
    obtain ⟨trees, folded, found⟩ :=
      ih (start.set entry.1 tree) (fun other member => readable other (List.mem_cons_of_mem _ member))
      nodup
    refine ⟨trees, by rw [List.foldlM_cons, read]; exact folded, fun rootId => ?_⟩
    rw [found, Dict.get?_set, List.find?_cons]
    by_cases here : entry.1 = rootId
    · have absent : rest.find? (fun other => other.1 = rootId) = none := by
        apply List.find?_eq_none.mpr
        intro other member same
        exact notLater (here ▸ List.mem_map.mpr ⟨other, member, of_decide_eq_true same⟩)
      simp [here, absent, read]
    · simp [here, Ne.symm here]

theorem TreeRepository.fromDict_spec (trees : Dict MessageId SavedTree) (nodeToTree : Dict MessageId MessageId)
    (readable : ∀ rootId data, trees.get? rootId = some data → (Manager.fromDict data).isSome) :
    ∃ repo, fromDict trees nodeToTree = some repo ∧ repo.nodeToTree = nodeToTree ∧
      ∀ rootId, repo.getTree rootId = (trees.get? rootId).bind Manager.fromDict := by
  obtain ⟨restored, folded, found⟩ := foldlM_fromDict trees.entries .empty
    (fun entry member => readable entry.1 entry.2 ((Dict.get?_eq_some_iff ..).mpr member)) trees.nodup
  refine ⟨⟨restored, nodeToTree⟩, by rw [fromDict, folded]; rfl, rfl, fun rootId => ?_⟩
  rw [getTree, found, Dict.get?_empty, Option.or_none, Dict.get?, Option.bind_map]
  rfl

end Restore

end ClaudeProxy.Manager

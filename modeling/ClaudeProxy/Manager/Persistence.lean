import ClaudeProxy.Manager.Reach
import ClaudeProxy.Manager.Unchanged

namespace ClaudeProxy.Manager

open Kit Sessions Trees

namespace Alike

variable {before after : MessageTree}

theorem indexed (alike : Alike before after) (indexed : StatusIndexed before) : StatusIndexed after := by
  intro status nodeId
  have same := congrFun alike.shapes nodeId
  have shaped (tree : MessageTree) : (∃ node, tree.getNode nodeId = some node ∧ node.statusMessageId = status) ↔
      ∃ shape, Manager.shapes tree nodeId = some shape ∧ shape.statusMessageId = status := by
    cases found : tree.getNode nodeId <;> simp [Manager.shapes, found, shapeOf]
  rw [alike.statusToNode, indexed status nodeId, shaped, shaped, same]

theorem keyed (alike : Alike before after) (keyed : Keyed before) : Keyed after := by
  intro nodeId node found
  have same := congrFun alike.shapes nodeId
  rw [Manager.shapes, Manager.shapes, found, Option.map_some] at same
  obtain ⟨old, there, shape⟩ := Option.map_eq_some_iff.mp same.symm
  exact (congrArg Shape.nodeId shape).symm.trans (keyed nodeId old there)

end Alike

/-- A tree of the manager: its nodes are in the manager's index, and the store has it as it is unless a save is owed. -/
structure Filed (nodeToTree : Dict MessageId MessageId) (saved : Option SavedTree) (owed : Prop) (rootId : MessageId)
    (tree : MessageTree) : Prop where
  root : tree.rootId = rootId
  indexed : StatusIndexed tree
  keyed : Keyed tree
  registered : ∀ nodeId, tree.hasNode nodeId = true → nodeToTree.get? nodeId = some rootId
  stored : ∃ data, saved = some data ∧ (∀ nodeId, data.nodes.contains nodeId = tree.hasNode nodeId) ∧
    (data = toDict tree ∨ owed)

/-- The store has the trees and the mappings of the manager, up to the trees of which a save is owed. -/
structure Persisted (repository : TreeRepository Ref) (store : SessionStore MessageId MessageNode) (heap : List World)
    (owed : Ref → Prop) : Prop where
  filed : ∀ rootId ref, repository.getTree rootId = some ref → ∃ world, heap[ref]? = some world ∧
    Filed repository.nodeToTree (store.trees.get? rootId) (owed ref) rootId world.tree
  only : ∀ rootId, store.trees.contains rootId = true → repository.trees.contains rootId = true
  mapped : store.nodeToTree.Same repository.nodeToTree

theorem Filed.change {nodeToTree : Dict MessageId MessageId} {saved : Option SavedTree} {owed : Prop} {rootId : MessageId}
    {before after : MessageTree} (filed : Filed nodeToTree saved owed rootId before) (alike : Alike before after)
    (same : toDict after = toDict before ∨ owed) : Filed nodeToTree saved owed rootId after := by
  obtain ⟨data, there, keys, stored⟩ := filed.stored
  constructor
  · exact alike.rootId.trans filed.root
  · exact alike.indexed filed.indexed
  · exact alike.keyed filed.keyed
  · intro nodeId known
    rw [alike.hasNode] at known
    exact filed.registered nodeId known
  · refine ⟨data, there, fun nodeId => (keys nodeId).trans (alike.hasNode nodeId).symm, ?_⟩
    rcases same with same | owes
    · rw [same]
      exact stored
    · exact .inr owes

theorem elsewhere (heap : List World) (ref : Ref) (change : World → World) (other : Ref) (world : World)
    (different : other ≠ ref) (there : heap[other]? = some world) : (heap.modify ref change)[other]? = some world := by
  rw [List.getElem?_modify_ne _ _ (Ne.symm different)]
  exact there

namespace Persisted

variable {repository : TreeRepository Ref} {store : SessionStore MessageId MessageNode} {heap : List World}
variable {owed : Ref → Prop}

theorem initial (owed : Ref → Prop) : Persisted .new .new [] owed where
  filed _ _ found := nomatch found
  only _ found := nomatch found
  mapped := .refl _

theorem filedAt (persisted : Persisted repository store heap owed) {rootId : MessageId} {ref : Ref} {world : World}
    (here : repository.getTree rootId = some ref) (found : heap[ref]? = some world) :
    Filed repository.nodeToTree (store.trees.get? rootId) (owed ref) rootId world.tree := by
  rcases persisted.filed rootId ref here with ⟨world', found', filed⟩
  cases found.symm.trans found'
  exact filed

theorem apart (persisted : Persisted repository store heap owed) {rootId : MessageId} {ref : Ref}
    (here : repository.getTree rootId = some ref) (key : MessageId) (other : Ref) (different : key ≠ rootId)
    (there : repository.getTree key = some other) : other ≠ ref := by
  rcases persisted.filed rootId ref here with ⟨world, found, filed⟩
  intro same
  subst same
  exact different ((persisted.filedAt there found).root.symm.trans filed.root)

theorem mono (persisted : Persisted repository store heap owed) {owed' : Ref → Prop}
    (owes : ∀ rootId ref, repository.getTree rootId = some ref → owed ref → owed' ref) :
    Persisted repository store heap owed' := by
  refine { persisted with filed := fun rootId ref here => ?_ }
  rcases persisted.filed rootId ref here with ⟨world, found, filed⟩
  obtain ⟨data, there, keys, stored⟩ := filed.stored
  exact ⟨world, found, { filed with stored := ⟨data, there, keys, stored.imp_right (owes rootId ref here)⟩ }⟩

theorem onHeap (persisted : Persisted repository store heap owed) {heap' : List World}
    (changed : ∀ (ref : Ref) old, heap[ref]? = some old → ∃ world, heap'[ref]? = some world ∧
      Alike old.tree world.tree ∧ (toDict world.tree = toDict old.tree ∨ owed ref)) :
    Persisted repository store heap' owed := by
  refine { persisted with filed := fun rootId ref here => ?_ }
  rcases persisted.filed rootId ref here with ⟨old, there, filed⟩
  rcases changed ref old there with ⟨world, found, alike, same⟩
  exact ⟨world, found, filed.change alike same⟩

theorem modify (persisted : Persisted repository store heap owed) (ref : Ref) {change : World → World}
    (alike : ∀ world, heap[ref]? = some world → Alike world.tree (change world).tree)
    (same : ∀ world, heap[ref]? = some world → toDict (change world).tree = toDict world.tree ∨ owed ref) :
    Persisted repository store (heap.modify ref change) owed := by
  apply persisted.onHeap
  intro other old there
  by_cases here : other = ref
  · subst here
    exact ⟨change old, by rw [List.getElem?_modify_eq, there]; rfl, alike old there, same old there⟩
  · exact ⟨old, elsewhere heap ref change other old here there, .refl _, .inl rfl⟩

/-- One tree is filed and saved again, or for the first time; the others stay. -/
theorem refile (persisted : Persisted repository store heap owed) {repository' : TreeRepository Ref}
    {store' : SessionStore MessageId MessageNode} {heap' : List World} {rootId : MessageId} {ref : Ref} {world : World}
    (here : repository'.getTree rootId = some ref) (found : heap'[ref]? = some world) (root : world.tree.rootId = rootId)
    (indexed : StatusIndexed world.tree) (keyed : Keyed world.tree)
    (registered : ∀ nodeId, world.tree.hasNode nodeId = true → repository'.nodeToTree.get? nodeId = some rootId)
    (others : ∀ key, key ≠ rootId → repository'.getTree key = repository.getTree key)
    (apart : ∀ key other, key ≠ rootId → repository.getTree key = some other → other ≠ ref)
    (kept : ∀ nodeId key, key ≠ rootId → repository.nodeToTree.get? nodeId = some key →
      repository'.nodeToTree.get? nodeId = some key)
    (stays : ∀ (other : Ref) world, other ≠ ref → heap[other]? = some world → heap'[other]? = some world)
    (trees : store'.trees = store.trees) (mapped : store'.nodeToTree.Same repository'.nodeToTree) :
    Persisted repository' (store'.saveTree rootId (toDict world.tree)) heap' fun other => owed other ∧ other ≠ ref := by
  have saved (key : MessageId) : (store'.saveTree rootId (toDict world.tree)).trees.get? key =
      if key = rootId then some (toDict world.tree) else store.trees.get? key := by
    rw [SessionStore.saveTree, Dict.get?_set, trees]
  constructor
  · intro key other there
    rw [saved]
    by_cases own : key = rootId
    · subst own
      cases here.symm.trans there
      rw [if_pos rfl]
      exact ⟨world, found, root, indexed, keyed, registered, _, rfl, fun _ => rfl, .inl rfl⟩
    · rw [others key own] at there
      have different := apart key other own there
      rcases persisted.filed key other there with ⟨world', found', filed⟩
      obtain ⟨data, stored, keys, same⟩ := filed.stored
      rw [if_neg own]
      refine ⟨world', stays other world' different found', filed.root, filed.indexed, filed.keyed,
        fun nodeId known => ?_, data,
        stored, keys, same.imp_right fun owes => ⟨owes, different⟩⟩
      exact kept nodeId key own (filed.registered nodeId known)
  · intro key there
    rw [Dict.contains, saved] at there
    split at there
    · rename_i own
      exact own ▸ Option.isSome_iff_exists.mpr ⟨ref, here⟩
    · rename_i own
      have before := persisted.only key there
      rw [Dict.contains, ← TreeRepository.getTree, ← others key own] at before
      exact before
  · intro nodeId
    show (List.foldl _ _ _ : Dict MessageId MessageId).get? nodeId = _
    rw [get?_setAll]
    split
    · rename_i member
      exact (registered nodeId ((Dict.contains_iff _ _).mpr member)).symm
    · exact mapped nodeId

theorem drop (persisted : Persisted repository store heap owed) {heap' : List World} {rootId : MessageId} {ref : Ref}
    {world : World} {nodeIds : List MessageId} (here : repository.getTree rootId = some ref)
    (found : heap[ref]? = some world) (all : ∀ nodeId, nodeId ∈ nodeIds ↔ world.tree.hasNode nodeId = true)
    (stays : ∀ (other : Ref) world, other ≠ ref → heap[other]? = some world → heap'[other]? = some world) :
    Persisted (repository.removeTree rootId nodeIds) ((store.popMappings nodeIds).removeTree rootId) heap' owed := by
  have filed := persisted.filedAt here found
  obtain ⟨data, stored, keys, _⟩ := filed.stored
  have present : repository.trees.contains rootId = true := Option.isSome_iff_exists.mpr ⟨ref, here⟩
  have emptied : (store.popMappings nodeIds).removeTree rootId =
      { store.popMappings nodeIds with trees := store.trees.erase rootId }.popMappings data.nodes.keys := by
    have there : (store.popMappings nodeIds).trees.get? rootId = some data := stored
    rw [SessionStore.removeTree, there]
    rfl
  rw [TreeRepository.removeTree, if_pos present, emptied]
  constructor
  · intro key other there
    change (repository.trees.erase rootId).get? key = some other at there
    rw [Dict.get?_erase] at there
    split at there
    · cases there
    · rename_i different
      rcases persisted.filed key other there with ⟨world', found', kept⟩
      refine ⟨world', stays other world' (persisted.apart here key other different there) found', ?_⟩
      refine { kept with registered := fun nodeId known => ?_, stored := ?_ }
      · have maps := kept.registered nodeId known
        have outside : nodeId ∉ nodeIds := by
          intro inside
          rw [filed.registered nodeId ((all nodeId).mp inside)] at maps
          exact different (Option.some.inj maps).symm
        show (List.foldl Dict.erase repository.nodeToTree nodeIds).get? nodeId = some key
        rw [get?_popAll, if_neg outside]
        exact maps
      · have same : (store.trees.erase rootId).get? key = store.trees.get? key := by rw [Dict.get?_erase, if_neg different]
        show ∃ data, (store.trees.erase rootId).get? key = some data ∧ _
        rw [same]
        exact kept.stored
  · intro key there
    change (store.trees.erase rootId).contains key = true at there
    show (repository.trees.erase rootId).contains key = true
    rw [Dict.contains_iff, Dict.mem_keys_erase, ← Dict.contains_iff] at there ⊢
    exact ⟨persisted.only key there.1, there.2⟩
  · intro nodeId
    show (List.foldl Dict.erase (List.foldl Dict.erase store.nodeToTree nodeIds) data.nodes.keys).get? nodeId =
      (List.foldl Dict.erase repository.nodeToTree nodeIds).get? nodeId
    rw [get?_popAll, get?_popAll, get?_popAll, persisted.mapped nodeId]
    by_cases inside : nodeId ∈ nodeIds
    · rw [if_pos inside]
      split <;> rfl
    · have outside : nodeId ∉ data.nodes.keys := by
        rw [← Dict.contains_iff, keys nodeId, ← all nodeId]
        exact inside
      rw [if_neg outside]

end Persisted

section RemoveBranch

variable {tree : MessageTree}

theorem mem_nodeIds (keyed : Keyed tree) (nodeId : MessageId) :
    nodeId ∈ tree.allNodes.map (·.nodeId) ↔ tree.hasNode nodeId = true := by
  rw [hasNode_iff, List.mem_map]
  constructor
  · intro ⟨node, member, own⟩
    rcases List.mem_map.mp member with ⟨⟨key, _⟩, inEntries, rfl⟩
    have found := (Dict.get?_eq_some_iff _ _ _).mpr inEntries
    exact ⟨_, (keyed key _ found).symm.trans own ▸ found⟩
  · intro ⟨node, found⟩
    exact ⟨node, Dict.mem_values_of_get? _ found, keyed nodeId node found⟩

theorem Filed.removed {nodeToTree : Dict MessageId MessageId} {saved : Option SavedTree} {owed : Prop} {rootId : MessageId}
    (filed : Filed nodeToTree saved owed rootId tree) (branchRootId nodeId : MessageId)
    (member : nodeId ∈ (tree.removeBranch branchRootId).1.map (·.nodeId)) : nodeToTree.get? nodeId = some rootId := by
  rcases List.mem_map.mp member with ⟨node, out, rfl⟩
  rcases removeBranch_known branchRootId node out with ⟨key, before⟩
  rw [filed.keyed key node before]
  exact filed.registered key ((hasNode_iff ..).mpr ⟨node, before⟩)

theorem Persisted.prune {repository : TreeRepository Ref} {store : SessionStore MessageId MessageNode}
    {heap heap' : List World} {owed : Ref → Prop} (persisted : Persisted repository store heap owed) {rootId : MessageId}
    {ref : Ref} {world after : World} (here : repository.getTree rootId = some ref) (found : heap[ref]? = some world)
    (branchRootId : MessageId) (cut : after.tree = (world.tree.removeBranch branchRootId).2)
    (present : heap'[ref]? = some after)
    (stays : ∀ (other : Ref) world, other ≠ ref → heap[other]? = some world → heap'[other]? = some world)
    {removed : List MessageId} (all : removed = (world.tree.removeBranch branchRootId).1.map (·.nodeId)) :
    Persisted (repository.unregisterNodes removed) ((store.popMappings removed).saveTree rootId (toDict after.tree)) heap'
      fun other => owed other ∧ other ≠ ref := by
  subst all
  have filed := persisted.filedAt here found
  have frame := MessageTree.removeBranch_frame world.tree branchRootId
  have gone (nodeId : MessageId) (known : after.tree.hasNode nodeId = true) :
      nodeId ∉ (world.tree.removeBranch branchRootId).1.map (·.nodeId) := by
    intro member
    rcases List.mem_map.mp member with ⟨node, out, rfl⟩
    rcases (hasNode_iff ..).mp known with ⟨other, there⟩
    rw [cut, MessageTree.removeBranch_gone filed.keyed branchRootId out] at there
    cases there
  have stillHere : (repository.unregisterNodes ((world.tree.removeBranch branchRootId).1.map (·.nodeId))).getTree rootId =
      some ref := here
  apply Persisted.refile persisted stillHere present
  · rw [cut, removeBranch_rootId, filed.root]
  · rw [cut]
    exact filed.indexed.removeBranch branchRootId
  · rw [cut]
    exact frame.2.keyed filed.keyed
  · intro nodeId known
    show (List.foldl Dict.erase repository.nodeToTree _).get? nodeId = some rootId
    rw [get?_popAll, if_neg (gone nodeId known)]
    rcases (hasNode_iff ..).mp known with ⟨node, there⟩
    rw [cut] at there
    rcases frame.2.node there with ⟨old, before, _⟩
    exact filed.registered nodeId ((hasNode_iff ..).mpr ⟨old, before⟩)
  · exact fun _ _ => rfl
  · exact persisted.apart here
  · intro nodeId key different maps
    have outside : nodeId ∉ (world.tree.removeBranch branchRootId).1.map (·.nodeId) := by
      intro inside
      rw [filed.removed branchRootId nodeId inside] at maps
      exact different (Option.some.inj maps).symm
    show (List.foldl Dict.erase repository.nodeToTree _).get? nodeId = some key
    rw [get?_popAll, if_neg outside]
    exact maps
  · exact stays
  · rfl
  · intro nodeId
    show (List.foldl Dict.erase store.nodeToTree _).get? nodeId = (List.foldl Dict.erase repository.nodeToTree _).get? nodeId
    rw [get?_popAll, get?_popAll, persisted.mapped nodeId]

end RemoveBranch

namespace MessageHandler

abbrev SavedBut (s : MessageHandler) (owed : Ref → Prop) : Prop := Persisted s.repository s.store s.heap owed

namespace SavedBut

variable {s : MessageHandler} {owed : Ref → Prop}

theorem saveTree (saved : s.SavedBut owed) {ref : Ref} (held : s.Held ref) :
    (s.saveTree ref).SavedBut fun other => owed other ∧ other ≠ ref := by
  rcases held with ⟨rootId, here⟩
  rcases saved.filed rootId ref here with ⟨world, found, filed⟩
  simp only [MessageHandler.saveTree, found, filed.root]
  apply Persisted.refile saved here found filed.root filed.indexed filed.keyed filed.registered
  · exact fun _ _ => rfl
  · exact Persisted.apart saved here
  · exact fun _ _ _ maps => maps
  · exact fun _ _ _ there => there
  · rfl
  · exact saved.mapped

theorem saveTrees (saved : s.SavedBut owed) (refs : List Ref) (held : ∀ ref ∈ refs, s.Held ref) :
    (refs.foldl MessageHandler.saveTree s).SavedBut fun other => owed other ∧ other ∉ refs := by
  induction refs generalizing s owed with
  | nil => exact saved.mono fun _ _ _ owes => ⟨owes, List.not_mem_nil⟩
  | cons ref rest ih =>
    have first := saved.saveTree (held ref List.mem_cons_self)
    have later := ih first fun other member => by
      obtain ⟨rootId, here⟩ := held other (List.mem_cons_of_mem _ member)
      exact ⟨rootId, by rw [Contained.saveTree_repository]; exact here⟩
    apply later.mono
    intro _ other _ owes
    obtain ⟨⟨before, different⟩, notLater⟩ := owes
    exact ⟨before, List.not_mem_cons_of_ne_of_not_mem different notLater⟩

theorem updateCancelledNodesUi (saved : s.SavedBut owed) (cancelled : List MessageId) :
    (s.updateCancelledNodesUi cancelled).SavedBut fun other => owed other ∧
      ∀ nodeId ∈ cancelled, s.repository.getTreeForNode nodeId ≠ some other := by
  have held : ∀ ref ∈ cancelled.filterMap s.repository.getTreeForNode, s.Held ref := by
    intro ref member
    obtain ⟨nodeId, _, located⟩ := List.mem_filterMap.mp member
    exact Contained.held_of_getTreeForNode located
  apply (saved.saveTrees _ held).mono
  intro _ other _ owes
  refine ⟨owes.1, fun nodeId member located => ?_⟩
  exact owes.2 (List.mem_filterMap.mpr ⟨nodeId, member, located⟩)

section File

theorem repository_setManager (s : MessageHandler) (repository : TreeRepository Ref) :
    (s.setManager s.current repository).repository = repository := Function.update_self ..

theorem record_spec {ref : Ref} {world : World} (found : s.heap[ref]? = some world) (first second statusMsgId : MessageId) :
    let recorded := s.record ref first second statusMsgId
    let rootId := world.tree.rootId
    recorded.heap = s.heap ∧ recorded.repository = s.repository.registerNode statusMsgId rootId ∧
      recorded.store =
        ((s.store.registerNode first rootId).registerNode second rootId).saveTree rootId (toDict world.tree) := by
  have still : (s.setManager s.current (s.repository.registerNode statusMsgId world.tree.rootId)).heap[ref]? =
      some world := found
  simp only [MessageHandler.record, found, MessageHandler.saveTree, still]
  exact ⟨rfl, repository_setManager s (s.repository.registerNode statusMsgId world.tree.rootId), rfl⟩

theorem keyed_new (root : MessageNode) : Keyed (.new root) := by
  intro nodeId node found
  rw [MessageTree.new, MessageTree.getNode, Dict.get?_set] at found
  split at found
  · rename_i own
    cases found
    exact own.symm
  · cases found

theorem hasNode_new {root : MessageNode} {nodeId : MessageId} (known : (MessageTree.new root).hasNode nodeId = true) :
    nodeId = root.nodeId := by
  by_contra other
  rw [MessageTree.hasNode, MessageTree.new, Dict.contains, Dict.get?_set_ne _ _ other] at known
  cases known

theorem ne_of_fresh {nodeId other key : MessageId} (fresh : s.repository.hasNode nodeId = false)
    (maps : s.repository.nodeToTree.get? other = some key) : other ≠ nodeId := by
  intro same
  have known : s.repository.hasNode other = true := Option.isSome_iff_exists.mpr ⟨key, maps⟩
  rw [same, fresh] at known
  cases known

theorem fileRoot (saved : s.SavedBut owed) {nodeId statusMsgId : MessageId} (incoming : IncomingMessage) (now : Timestamp)
    (fresh : s.repository.hasNode nodeId = false) (freshStatus : s.repository.hasNode statusMsgId = false) :
    ((s.createTree s.current nodeId incoming statusMsgId now).2.record s.heap.length nodeId statusMsgId statusMsgId).SavedBut
      owed := by
  let world := World.start (.new nodeId incoming statusMsgId none now)
  let created := (s.createTree s.current nodeId incoming statusMsgId now).2
  have found : created.heap[s.heap.length]? = some world := by
    show (s.heap ++ [world])[s.heap.length]? = _
    rw [List.getElem?_append_right (Nat.le_refl _), Nat.sub_self]
    rfl
  have repository : created.repository = s.repository.addTree nodeId s.heap.length :=
    repository_setManager { s with heap := s.heap ++ [world] } _
  obtain ⟨sameHeap, maps, stores⟩ := record_spec found nodeId statusMsgId statusMsgId
  rw [repository] at maps
  show Persisted (created.record ..).repository (created.record ..).store (created.record ..).heap owed
  rw [sameHeap, maps, stores]
  refine Persisted.mono (?_ : Persisted _ _ _ fun other => owed other ∧ other ≠ s.heap.length) fun _ _ _ owes => owes.1
  have here : ((s.repository.addTree nodeId s.heap.length).registerNode statusMsgId nodeId).getTree nodeId =
      some s.heap.length := Dict.get?_set_self ..
  apply Persisted.refile saved here found
  · rfl
  · exact StatusIndexed.new _
  · exact keyed_new _
  · intro other known
    show ((s.repository.nodeToTree.set nodeId nodeId).set statusMsgId nodeId).get? other = some nodeId
    rw [hasNode_new known, Dict.get?_set]
    split
    · rfl
    · exact Dict.get?_set_self ..
  · exact fun key different => Dict.get?_set_ne _ _ different
  · intro key other _ there same
    rcases saved.filed key other there with ⟨world', found', _⟩
    have bound := (List.getElem?_eq_some_iff.mp found').1
    rw [same] at bound
    exact Nat.lt_irrefl _ bound
  · intro other key _ maps
    show ((s.repository.nodeToTree.set nodeId nodeId).set statusMsgId nodeId).get? other = some key
    rw [Dict.get?_set_ne _ _ (ne_of_fresh freshStatus maps), Dict.get?_set_ne _ _ (ne_of_fresh fresh maps)]
    exact maps
  · intro other world' _ there
    show (s.heap ++ [world])[other]? = some world'
    rw [List.getElem?_append_left (List.getElem?_eq_some_iff.mp there).1]
    exact there
  · rfl
  · exact (saved.mapped.set nodeId nodeId).set statusMsgId nodeId

theorem fileBelow (saved : s.SavedBut owed) {after : MessageHandler} {ref : Ref}
    {parentNodeId nodeId statusMsgId : MessageId} {incoming : IncomingMessage}
    (added : s.addToTree s.current parentNodeId nodeId incoming statusMsgId = some (ref, after))
    (fresh : s.repository.hasNode nodeId = false) (freshStatus : s.repository.hasNode statusMsgId = false)
    (unindexed : ∀ world, s.heap[ref]? = some world → world.tree.statusToNode.get? statusMsgId = none) :
    (after.record ref statusMsgId nodeId statusMsgId).SavedBut owed := by
  obtain ⟨world, tree, located, found, grown, rfl⟩ := Contained.addToTree_eq_some added
  obtain ⟨rootId, _, here⟩ := Option.bind_eq_some_iff.mp located
  have filed := Persisted.filedAt saved here found
  have sameRoot : tree.rootId = rootId := (addNode_rootId grown).trans filed.root
  have absent : world.tree.getNode nodeId = none := by
    apply Option.not_isSome_iff_eq_none.mp
    intro known
    exact ne_of_fresh fresh (filed.registered nodeId known) rfl
  let extended : World := { world.detach (world.tree.getNode nodeId).toList with tree := tree }
  let change : World → World := fun world => { world.detach (world.tree.getNode nodeId).toList with tree := tree }
  let added := (s.onWorld ref change).setManager s.current (s.repository.registerNode nodeId tree.rootId)
  have present : added.heap[ref]? = some extended := by
    show (s.heap.modify ref change)[ref]? = some extended
    rw [List.getElem?_modify_eq, found]
    rfl
  have repository : added.repository = s.repository.registerNode nodeId tree.rootId :=
    repository_setManager (s.onWorld ref change) _
  obtain ⟨sameHeap, maps, stores⟩ := record_spec present statusMsgId nodeId statusMsgId
  rw [repository] at maps
  show Persisted (added.record ..).repository (added.record ..).store (added.record ..).heap owed
  rw [sameHeap, maps, stores]
  change Persisted ((s.repository.registerNode nodeId tree.rootId).registerNode statusMsgId tree.rootId)
    (((s.store.registerNode statusMsgId tree.rootId).registerNode nodeId tree.rootId).saveTree tree.rootId (toDict tree))
    (s.heap.modify ref change) owed
  rw [sameRoot]
  refine Persisted.mono (?_ : Persisted _ _ _ fun other => owed other ∧ other ≠ ref) fun _ _ _ owes => owes.1
  have stillHere : ((s.repository.registerNode nodeId rootId).registerNode statusMsgId rootId).getTree rootId =
      some ref := here
  apply Persisted.refile saved stillHere present
  · exact sameRoot
  · exact filed.indexed.addNode grown absent (unindexed world found)
  · intro key node there
    rcases MessageTree.getNode_addNode grown there with ⟨leaf, same, _⟩ | ⟨old, before, same, _⟩
    · exact same.trans leaf.symm
    · exact same.trans (filed.keyed key old before)
  · intro other known
    show ((s.repository.nodeToTree.set nodeId rootId).set statusMsgId rootId).get? other = some rootId
    obtain ⟨node, there⟩ := (hasNode_iff ..).mp known
    rw [Dict.get?_set, Dict.get?_set]
    rcases MessageTree.getNode_addNode grown there with ⟨leaf, _⟩ | ⟨old, before, _⟩
    · rw [if_pos leaf]
      split <;> rfl
    · rw [filed.registered other ((hasNode_iff ..).mpr ⟨old, before⟩)]
      split
      · rfl
      · split <;> rfl
  · exact fun _ _ => rfl
  · exact Persisted.apart saved here
  · intro other key _ maps
    show ((s.repository.nodeToTree.set nodeId rootId).set statusMsgId rootId).get? other = some key
    rw [Dict.get?_set_ne _ _ (ne_of_fresh freshStatus maps), Dict.get?_set_ne _ _ (ne_of_fresh fresh maps)]
    exact maps
  · exact elsewhere s.heap ref change
  · rfl
  · intro key
    have before := saved.mapped key
    show ((s.store.nodeToTree.set statusMsgId rootId).set nodeId rootId).get? key =
      ((s.repository.nodeToTree.set nodeId rootId).set statusMsgId rootId).get? key
    simp only [Dict.get?_set, before]
    split <;> split <;> rfl

end File

end SavedBut

end MessageHandler

end ClaudeProxy.Manager

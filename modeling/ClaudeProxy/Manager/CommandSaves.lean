import ClaudeProxy.Manager.ProcessingSaves

namespace ClaudeProxy.Manager

open Kit Sessions Trees

namespace MessageHandler

namespace SavedBut

variable {s : MessageHandler} {owed : Ref → Prop}

section Calls

variable {i : Nat} {call : Call}

theorem arrive (saved : s.SavedBut s.Owing) (incoming : IncomingMessage) (stage : Stage) :
    (s.arrive incoming stage).SavedBut (s.arrive incoming stage).Owing := by
  apply saved.mono
  intro _ other _ owing
  rcases owing with unsaved | due
  · exact .inl (unsaved.keep (.refl _) rfl)
  · exact .inr (due.arrive incoming stage)

theorem setStage (saved : s.SavedBut s.Owing) (found : s.calls[i]? = some call)
    (idle : ∀ repository ref, call.stage.owes repository ref = false) (stage : Stage) :
    (s.setStage i stage).SavedBut (s.setStage i stage).Owing :=
  saved.mono fun _ ref _ owing => owing.setStage found stage (idle _ ref)

section File

theorem locates_registerNode {before after : TreeRepository Ref} {ref : Ref} (locates : Locates before after ref)
    {nodeId : MessageId} (fresh : before.hasNode nodeId = false) (rootId : MessageId) :
    Locates before (after.registerNode nodeId rootId) ref := by
  intro other located
  have different : other ≠ nodeId := by
    intro same
    rcases Option.bind_eq_some_iff.mp located with ⟨key, maps, _⟩
    rw [same] at maps
    rw [TreeRepository.hasNode, Dict.contains, maps] at fresh
    cases fresh
  rcases Option.bind_eq_some_iff.mp (locates other located) with ⟨key, maps, there⟩
  apply Option.bind_eq_some_iff.mpr
  exact ⟨key, (Dict.get?_set_ne _ _ different).trans maps, there⟩

theorem locates_addTree {repository : TreeRepository Ref} {rootId : MessageId} (fresh : repository.hasNode rootId = false)
    (noTree : repository.trees.contains rootId = false) (new ref : Ref) :
    Locates repository (repository.addTree rootId new) ref := by
  intro other located
  have registered := locates_registerNode (fun _ located => located) fresh rootId other located
  rcases Option.bind_eq_some_iff.mp registered with ⟨key, maps, there⟩
  have different : key ≠ rootId := by
    intro same
    subst same
    change repository.trees.get? key = some ref at there
    rw [Dict.contains, there] at noTree
    cases noTree
  apply Option.bind_eq_some_iff.mpr
  exact ⟨key, maps, (Dict.get?_set_ne _ _ different).trans there⟩

theorem freeId_spec {msgId : MessageId} (free : s.freeId msgId = true) :
    s.repository.trees.contains msgId = false ∧ s.repository.hasNode msgId = false ∧
      ∀ rootId ref world, s.repository.getTree rootId = some ref → s.heap[ref]? = some world →
        world.tree.statusToNode.get? msgId = none := by
  simp only [freeId, Bool.and_eq_true, Bool.not_eq_true', List.all_eq_true, Option.all_eq_true] at free
  refine ⟨free.1.1, free.1.2, fun rootId ref world here found => ?_⟩
  have unknown := free.2 ref (Dict.mem_values_of_get? _ here) world found
  exact Option.not_isSome_iff_eq_none.mp (by rw [← Dict.contains, unknown]; exact fun no => by cases no)

/-- What is owed stays owed while a message is filed. -/
theorem owing_record {created : MessageHandler} {ref other : Ref} {world : World} {first second statusMsgId : MessageId}
    (goes : Goes s.heap created.heap) (processing : created.processing = s.processing) (calls : created.calls = s.calls)
    (found : created.heap[ref]? = some world) (fresh : s.repository.hasNode statusMsgId = false)
    (locates : Locates s.repository created.repository other) (owing : s.Owing other) :
    (created.record ref first second statusMsgId).Owing other := by
  obtain ⟨_, maps, _⟩ := record_spec found first second statusMsgId
  rcases record_eq created ref first second statusMsgId with ⟨managers, store, same⟩
  rw [same] at maps ⊢
  rcases owing with unsaved | due
  · exact .inl (unsaved.keep goes processing)
  · refine .inr (due.keep calls ?_)
    rw [maps]
    exact locates_registerNode locates fresh _

theorem file (saved : s.SavedBut s.Owing) (found : s.calls[i]? = some call)
    (idle : ∀ repository ref, call.stage.owes repository ref = false) (parentNodeId : Option MessageId)
    (statusMsgId : MessageId)
    (now : Timestamp) (free : s.freeId call.incoming.messageId = true) (freeStatus : s.freeId statusMsgId = true) :
    (s.file i call.incoming s.current parentNodeId statusMsgId now).SavedBut
      (s.file i call.incoming s.current parentNodeId statusMsgId now).Owing := by
  obtain ⟨noTree, fresh, _⟩ := freeId_spec free
  obtain ⟨_, freshStatus, unindexed⟩ := freeId_spec freeStatus
  have filed (created : MessageHandler) (calls : created.calls = s.calls) (ref : Ref) (first second : MessageId)
      (stored : (created.record ref first second statusMsgId).SavedBut s.Owing)
      (owing : ∀ other, s.Owing other → (created.record ref first second statusMsgId).Owing other) (stage : Stage) :
      ((created.record ref first second statusMsgId).setStage i stage).SavedBut
        ((created.record ref first second statusMsgId).setStage i stage).Owing := by
    have owed : (created.record ref first second statusMsgId).SavedBut
        (created.record ref first second statusMsgId).Owing := stored.mono fun _ other _ => owing other
    have there : (created.record ref first second statusMsgId).calls[i]? = some call := by
      rcases record_eq created ref first second statusMsgId with ⟨managers, store, same⟩
      rw [same]
      exact calls ▸ found
    exact owed.setStage there idle stage
  unfold MessageHandler.file
  cases parentNodeId with
  | none =>
    let created := (s.createTree s.current call.incoming.messageId call.incoming statusMsgId now).2
    apply filed created rfl
    · exact saved.fileRoot call.incoming now fresh freshStatus
    · intro other owing
      have located : created.heap[s.heap.length]? =
          some (World.start (.new call.incoming.messageId call.incoming statusMsgId none now)) := by
        show (s.heap ++ [_])[s.heap.length]? = _
        rw [List.getElem?_append_right (Nat.le_refl _), Nat.sub_self]
        rfl
      have repository : created.repository = s.repository.addTree call.incoming.messageId s.heap.length :=
        repository_setManager { s with heap := s.heap ++ [_] } _
      refine owing_record (Goes.append s.heap _) rfl rfl located freshStatus ?_ owing
      show Locates s.repository created.repository other
      rw [repository]
      exact locates_addTree fresh noTree _ other
  | some parentNodeId =>
    dsimp only
    split
    · exact saved.setStage found idle .raised
    · rename_i ref after added
      have stored := saved.fileBelow added fresh freshStatus
      rcases Contained.addToTree_eq_some added with ⟨world, tree, located, there, _, rfl⟩
      rcases Option.bind_eq_some_iff.mp located with ⟨rootId, _, here⟩
      let change : World → World := fun world =>
        { world.detach (world.tree.getNode call.incoming.messageId).toList with tree := tree }
      let added := (s.onWorld ref change).setManager s.current
        (s.repository.registerNode call.incoming.messageId tree.rootId)
      apply filed added rfl
      · exact stored fun world found => unindexed rootId ref world here found
      · intro other owing
        have goes : Goes s.heap added.heap := by
          apply Goes.modify
          intro world _ tid running
          rw [phaseAt_detach]
          exact running
        have present : added.heap[ref]? = some (change world) := by
          show (s.heap.modify ref change)[ref]? = _
          rw [List.getElem?_modify_eq, there]
          rfl
        have repository : added.repository = s.repository.registerNode call.incoming.messageId tree.rootId :=
          repository_setManager (s.onWorld ref change) _
        refine owing_record goes rfl rfl present freshStatus ?_ owing
        show Locates s.repository added.repository other
        rw [repository]
        exact locates_registerNode (fun _ located => located) fresh _

end File

theorem enqueue (saved : s.SavedBut s.Owing) (found : s.calls[i]? = some call)
    (idle : ∀ repository ref, call.stage.owes repository ref = false) (nodeId : MessageId) (manager : Nat) :
    (s.enqueue i nodeId manager).SavedBut (s.enqueue i nodeId manager).Owing := by
  unfold MessageHandler.enqueue
  split
  · exact saved.setStage found idle _
  · rename_i ref _
    have started : (s.onWorld ref (·.enqueueAndStart nodeId)).SavedBut (s.onWorld ref (·.enqueueAndStart nodeId)).Owing := by
      apply Persisted.mono
      · apply Persisted.modify saved ref
        · exact fun world _ => (Moves.enqueueAndStart world nodeId).tree
        · exact fun world _ => .inl (Unchanged.enqueueAndStart world nodeId).saved
      · intro _ other _ owing
        have goes : Goes s.heap (s.heap.modify ref (·.enqueueAndStart nodeId)) :=
          .modify s.heap ref fun world _ => (Unchanged.enqueueAndStart world nodeId).running
        exact owing.keep goes rfl rfl rfl
    exact started.setStage found idle _

section Cancel

theorem located_of_hasNode (saved : s.SavedBut owed) {ref : Ref} (held : s.Held ref) {world : World}
    (found : s.heap[ref]? = some world) {nodeId : MessageId} (known : world.tree.hasNode nodeId = true) :
    s.repository.getTreeForNode nodeId = some ref := by
  rcases held with ⟨rootId, here⟩
  have maps := (Persisted.filedAt saved here found).registered nodeId known
  exact Option.bind_eq_some_iff.mpr ⟨rootId, maps, here⟩

/-- Nodes are cancelled and their trees saved at once. -/
theorem cancelSaved (saved : s.SavedBut s.Owing) (found : s.calls[i]? = some call)
    (idle : ∀ repository ref, call.stage.owes repository ref = false) {ref : Ref} (held : s.Held ref)
    {change : World → World}
    (steady : ∀ world, Steady world (change world)) {listed : List MessageId}
    (known : ∀ world, s.heap[ref]? = some world → ∀ nodeId ∈ listed, world.tree.hasNode nodeId = true)
    (same : ∀ world, s.heap[ref]? = some world → listed = [] → change world = world) (stage : Stage) :
    (((s.onWorld ref change).updateCancelledNodesUi listed).setStage i stage).SavedBut
      (((s.onWorld ref change).updateCancelledNodesUi listed).setStage i stage).Owing := by
  have goes : Goes s.heap (s.onWorld ref change).heap := .steady s.heap ref steady
  have changed : (s.onWorld ref change).SavedBut fun other => s.Owing other ∨ other = ref ∧ listed ≠ [] := by
    apply Persisted.modify (saved.mono fun _ _ _ owing => .inl owing) ref
    · exact fun world _ => (steady world).tree
    · intro world there
      by_cases none' : listed = []
      · left
        rw [same world there none']
      · exact .inr (.inr ⟨rfl, none'⟩)
  have stored := changed.updateCancelledNodesUi listed
  rcases updateCancelledNodesUi_eq (s.onWorld ref change) listed with ⟨store, eq⟩
  rw [eq] at stored ⊢
  let updated : MessageHandler := { s.onWorld ref change with store := store }
  have owed : updated.SavedBut updated.Owing := by
    apply stored.mono
    intro _ other _ owes
    rcases owes with ⟨owing | ⟨here, some'⟩, unlisted⟩
    · exact owing.keep goes rfl rfl rfl
    · subst here
      rcases List.exists_mem_of_ne_nil listed some' with ⟨nodeId, member⟩
      rcases held with ⟨rootId, here⟩
      rcases saved.filed rootId other here with ⟨world, there, _⟩
      have located := saved.located_of_hasNode ⟨rootId, here⟩ there (known world there nodeId member)
      exact absurd located (unlisted nodeId member)
  exact owed.setStage found idle stage

theorem cancelNode (saved : s.SavedBut s.Owing) (found : s.calls[i]? = some call)
    (idle : ∀ repository ref, call.stage.owes repository ref = false) (nodeId : MessageId) (stage : Stage) :
    (((s.cancelNode s.current nodeId).2.updateCancelledNodesUi (s.cancelNode s.current nodeId).1).setStage i stage).SavedBut
      (((s.cancelNode s.current nodeId).2.updateCancelledNodesUi
        (s.cancelNode s.current nodeId).1).setStage i stage).Owing := by
  unfold MessageHandler.cancelNode
  split
  · exact saved.setStage found idle stage
  · rename_i ref located
    apply saved.cancelSaved found idle (Contained.held_of_getTreeForNode located)
    · exact fun world => .cancelNode world nodeId
    · intro world there other member
      rw [there] at member
      exact marked_known member
    · intro world there none'
      rw [there] at none'
      exact cancelNode_unmarked none'

theorem cancelBranch (saved : s.SavedBut s.Owing) (found : s.calls[i]? = some call)
    (idle : ∀ repository ref, call.stage.owes repository ref = false) (branchRootId : MessageId) (stage : Stage) :
    (((s.cancelBranch s.current branchRootId).2.updateCancelledNodesUi
      (s.cancelBranch s.current branchRootId).1).setStage i stage).SavedBut
      (((s.cancelBranch s.current branchRootId).2.updateCancelledNodesUi
        (s.cancelBranch s.current branchRootId).1).setStage i stage).Owing := by
  unfold MessageHandler.cancelBranch
  split
  · exact saved.setStage found idle stage
  · rename_i ref located
    apply saved.cancelSaved found idle (Contained.held_of_getTreeForNode located)
    · exact fun world => .cancelBranch world branchRootId
    · intro world there other member
      rw [there] at member
      exact marked_known member
    · intro world there none'
      rw [there] at none'
      exact cancelBranch_unmarked none'

theorem owes_of_mem {repository : TreeRepository Ref} {ref : Ref} {cancelled : List MessageId} {nodeId : MessageId}
    (member : nodeId ∈ cancelled) (located : repository.getTreeForNode nodeId = some ref) (clears : Bool) :
    (Stage.stoppingCli cancelled clears).owes repository ref = true :=
  Bool.or_eq_true_iff.mpr (.inr (List.any_eq_true.mpr ⟨nodeId, member, decide_eq_true located⟩))

theorem owes_append {repository : TreeRepository Ref} {ref : Ref} {cancelled : List MessageId} {clears : Bool}
    (owes : (Stage.stoppingCli cancelled clears).owes repository ref = true) (more : List MessageId) :
    (Stage.stoppingCli (cancelled ++ more) clears).owes repository ref = true := by
  rcases Bool.or_eq_true_iff.mp owes with clears | listed
  · exact Bool.or_eq_true_iff.mpr (.inl clears)
  · rw [Stage.owes, List.any_append, listed, Bool.true_or, Bool.or_true]

/-- One tree is cancelled. Its nodes are as they were, or the list has one of them. -/
theorem cancelTree_listed (saved : s.SavedBut owed) {ref : Ref} (held : s.Held ref) {world : World}
    (found : s.heap[ref]? = some world) (lists : listsNode world = true ∨ settled world = true) :
    (∃ nodeId ∈ cancelledBy world, s.repository.getTreeForNode nodeId = some ref) ∨
      settled world = true ∧ world.cancelTree.tree.nodes = world.tree.nodes := by
  by_cases none' : cancelledBy world = []
  · rcases lists with lists | ended
    · exact absurd none' (cancelledBy_of_listsNode lists)
    · exact .inr ⟨ended, cancelTree_settled ended none'⟩
  · rcases List.exists_mem_of_ne_nil _ none' with ⟨nodeId, member⟩
    have known := cancelledBy_known world nodeId member
    exact .inl ⟨nodeId, member, saved.located_of_hasNode held found known⟩

theorem due_setStage (found : s.calls[i]? = some call) {stage : Stage} {ref : Ref}
    (owes : stage.owes s.repository ref = true) : (s.setStage i stage).Due ref := by
  refine ⟨i, { call with stage := stage }, ?_, owes⟩
  rw [MessageHandler.setStage, List.getElem?_modify_eq, found]
  rfl

/-- Some trees of the manager have been cancelled: a save of them is owed for the nodes listed so far. -/
structure Cancelled (s : MessageHandler) (clears : Bool) (cancelled : List MessageId) (heap : List World) : Prop where
  goes : Goes s.heap heap
  saved : Persisted s.repository s.store heap fun other =>
    s.Owing other ∨ (Stage.stoppingCli cancelled clears).owes s.repository other = true
  lists : ∀ (ref : Ref) world, ref ∈ s.repository.trees.values → heap[ref]? = some world →
    (Stage.stoppingCli cancelled clears).owes s.repository ref = true ∨ listsNode world = true ∨ settled world = true

theorem Cancelled.next {clears : Bool} {cancelled : List MessageId} {heap : List World}
    (before : Cancelled s clears cancelled heap)
    {ref : Ref} (member : ref ∈ s.repository.trees.values) :
    Cancelled s clears (cancelled ++ (heap[ref]?.map cancelledBy).getD []) (heap.modify ref World.cancelTree) := by
  have held : s.Held ref := holds_iff.mp (decide_eq_true member)
  let cancelled' := cancelled ++ (heap[ref]?.map cancelledBy).getD []
  have outcome (world : World) (found : heap[ref]? = some world) :
      (Stage.stoppingCli cancelled' clears).owes s.repository ref = true ∨
        settled world = true ∧ world.cancelTree.tree.nodes = world.tree.nodes := by
    rcases before.lists ref world member found with owes | lists
    · exact .inl (owes_append owes _)
    · let now : MessageHandler := { s with heap := heap }
      have saved : now.SavedBut _ := before.saved
      rcases saved.cancelTree_listed held found lists with ⟨nodeId, inList, located⟩ | still
      · left
        apply owes_of_mem _ located
        apply List.mem_append_right
        rw [found]
        exact inList
      · exact .inr still
  constructor
  · exact before.goes.trans (.steady heap ref .cancelTree)
  · apply Persisted.modify (before.saved.mono fun _ other _ owes => owes.imp_right fun owes => owes_append owes _) ref
    · exact fun world _ => (Steady.cancelTree world).tree
    · intro world found
      rcases outcome world found with owes | ⟨_, nodes⟩
      · exact .inr (.inr owes)
      · exact .inl (toDict_eq (Steady.cancelTree world).tree.rootId nodes)
  · intro other world inTrees found
    by_cases here : ref = other
    · subst here
      rw [List.getElem?_modify_eq] at found
      rcases Option.map_eq_some_iff.mp found with ⟨old, there, rfl⟩
      rcases outcome old there with owes | ⟨ended, nodes⟩
      · exact .inl owes
      · right
        right
        rw [settled, MessageTree.allNodes, nodes]
        exact ended
    · rw [List.getElem?_modify_ne _ _ here] at found
      rcases before.lists other world inTrees found with owes | lists
      · exact .inl (owes_append owes _)
      · exact .inr lists

theorem cancelAll (saved : s.SavedBut s.Owing) (found : s.calls[i]? = some call)
    (idle : ∀ repository ref, call.stage.owes repository ref = false) (clears : Bool)
    (lists : clears = false → (s.repository.trees.values.all fun ref => s.heap[ref]?.all fun world =>
      listsNode world || settled world) = true) :
    ((s.cancelAll s.current).2.setStage i (.stoppingCli (s.cancelAll s.current).1 clears)).SavedBut
      ((s.cancelAll s.current).2.setStage i (.stoppingCli (s.cancelAll s.current).1 clears)).Owing := by
  have all : ∃ heap, (s.cancelAll s.current).2 = { s with heap := heap } ∧
      Cancelled s clears (s.cancelAll s.current).1 heap := by
    apply cancelAll_induction fun both => ∃ heap, both.2 = { s with heap := heap } ∧
      Cancelled s clears both.1 heap
    · refine ⟨s.heap, rfl, .refl _, saved.mono fun _ _ _ owing => .inl owing, fun ref world member there => ?_⟩
      cases clears with
      | true => exact .inl rfl
      | false =>
        have meets := List.all_eq_true.mp (lists rfl) ref member
        rw [there, Option.all_some] at meets
        exact .inr (Bool.or_eq_true_iff.mp meets)
    · intro cancelled after ref member before
      rcases before with ⟨heap, rfl, before⟩
      exact ⟨_, rfl, before.next member⟩
  rcases all with ⟨heap, same, cancelled⟩
  rw [same]
  apply cancelled.saved.mono
  intro _ other _ owes
  rcases owes with owing | owes
  · have still : MessageHandler.Owing { s with heap := heap } other := owing.keep cancelled.goes rfl rfl rfl
    exact still.setStage found _ (idle _ other)
  · exact .inr (due_setStage found owes)

/-- `stop_all_tasks` saves the trees of the nodes that it has cancelled; a clear goes on to drop them all. -/
theorem stopCli (saved : s.SavedBut s.Owing) (found : s.calls[i]? = some call)
    {cancelled : List MessageId} {clears : Bool} (stage : call.stage = .stoppingCli cancelled clears) :
    ((s.updateCancelledNodesUi cancelled).setStage i (if clears then .deletingMessages else .answering)).SavedBut
      ((s.updateCancelledNodesUi cancelled).setStage i (if clears then .deletingMessages else .answering)).Owing := by
  have stored := saved.updateCancelledNodesUi cancelled
  rcases updateCancelledNodesUi_eq s cancelled with ⟨store, eq⟩
  rw [eq] at stored ⊢
  apply stored.mono
  intro _ other _ owes
  obtain ⟨owing, unlisted⟩ := owes
  rcases owing with unsaved | due
  · exact .inl (unsaved.keep (.refl _) rfl)
  · right
    have there : MessageHandler.Due { s with store := store } other := due
    apply there.setStage found
    intro own
    rw [stage] at own
    cases clears with
    | true => rfl
    | false =>
      rcases List.any_eq_true.mp own with ⟨nodeId, member, located⟩
      exact absurd (of_decide_eq_true located) (unlisted nodeId member)

theorem swap (s : MessageHandler) (i : Nat) (owed : Ref → Prop) : (s.swap i).SavedBut owed := by
  have empty : (s.swap i).repository = .new := Function.update_self ..
  show Persisted (s.swap i).repository .new (s.swap i).heap owed
  rw [empty]
  exact ⟨fun _ _ found => (nomatch found), fun _ found => (nomatch found), .refl _⟩

end Cancel

section Branch

theorem locates_unregisterNodes {before after : TreeRepository Ref} {nodeIds : List MessageId} {rootId : MessageId}
    (ofRoot : ∀ nodeId ∈ nodeIds, before.nodeToTree.get? nodeId = some rootId)
    (nodes : after.nodeToTree = nodeIds.foldl Dict.erase before.nodeToTree)
    (trees : ∀ key, key ≠ rootId → after.getTree key = before.getTree key) {ref other : Ref}
    (here : before.getTree rootId = some ref) (different : other ≠ ref) : Locates before after other := by
  intro nodeId located
  rcases Option.bind_eq_some_iff.mp located with ⟨key, maps, there⟩
  have otherTree : key ≠ rootId := by
    intro same
    rw [same, here] at there
    exact different (Option.some.inj there).symm
  have outside : nodeId ∉ nodeIds := by
    intro inside
    rw [ofRoot nodeId inside] at maps
    exact otherTree (Option.some.inj maps).symm
  apply Option.bind_eq_some_iff.mpr
  refine ⟨key, ?_, (trees key otherTree).trans there⟩
  rw [nodes, get?_popAll, if_neg outside]
  exact maps

/-- A branch clear finds nothing, or takes a tree or a part of it out of the manager and the store. -/
theorem removeBranch_cases (saved : s.SavedBut owed) (i : Nat) (branchRootId : MessageId) :
    s.repository.getTreeForNode branchRootId = none ∧ s.removeBranch i s.current branchRootId = s.setStage i .executed ∨
      ∃ ref repository store heap, s.repository.getTreeForNode branchRootId = some ref ∧ Goes s.heap heap ∧
        (∀ other, other ≠ ref → Locates s.repository repository other) ∧
        Persisted repository store heap (fun other => owed other ∧ other ≠ ref) ∧
        s.removeBranch i s.current branchRootId = MessageHandler.setStage
          { s with heap := heap, managers := Function.update s.managers s.current repository, store :=
            store } i .executed := by
  unfold MessageHandler.removeBranch
  split
  · rename_i nowhere
    exact .inl ⟨nowhere, rfl⟩
  · rename_i ref located
    rcases Option.bind_eq_some_iff.mp located with ⟨rootId, _, here⟩
    change s.repository.getTree rootId = some ref at here
    rcases saved.filed rootId ref here with ⟨world, found, filed⟩
    have own := filed.root
    right
    simp only [found, own]
    split
    · have steady := Steady.cancelTree world
      let nodeIds := world.cancelTree.tree.allNodes.map (·.nodeId)
      have all (nodeId : MessageId) : nodeId ∈ nodeIds ↔ world.tree.hasNode nodeId = true := by
        rw [mem_nodeIds (steady.tree.keyed filed.keyed), steady.tree.hasNode]
      have dropped := saved.drop here found all (elsewhere s.heap ref World.cancelTree)
      have gone (key : MessageId) : (s.repository.removeTree rootId nodeIds).getTree key =
          if key = rootId then none else s.repository.getTree key := Contained.getTree_removeTree ..
      refine ⟨ref, s.repository.removeTree rootId nodeIds, (s.store.popMappings nodeIds).removeTree rootId,
        s.heap.modify ref World.cancelTree, located, .steady s.heap ref .cancelTree, ?_, dropped.mono ?_, rfl⟩
      · intro other different
        apply locates_unregisterNodes _ _ _ here different
        · exact nodeIds
        · exact fun nodeId member => filed.registered nodeId ((all nodeId).mp member)
        · have present : s.repository.trees.contains rootId = true := Option.isSome_iff_exists.mpr ⟨ref, here⟩
          rw [TreeRepository.removeTree, if_pos present]
          rfl
        · intro key otherTree
          rw [gone, if_neg otherTree]
      · intro key other there owes
        rw [gone] at there
        split at there
        · cases there
        · rename_i otherTree
          exact ⟨owes, Persisted.apart saved here key other otherTree there⟩
    · rename_i below
      obtain ⟨done, _⟩ := filed.indexed.removeNodes (world.tree.getDescendants branchRootId)
      rw [if_neg (by rw [done]; exact fun no => by cases no)]
      let removed := (world.tree.removeBranch branchRootId).1.map (·.nodeId)
      let repository := s.repository.unregisterNodes removed
      let heap := s.heap.modify ref (·.removeBranch branchRootId)
      let pruned : MessageHandler := { s with
        heap := heap
        managers := Function.update s.managers s.current repository
        store := s.store.popMappings removed }
      have held : pruned.repository.getTree rootId = some ref := by
        show TreeRepository.getTree (Function.update s.managers s.current repository s.current) rootId = some ref
        rw [Function.update_self]
        exact here
      have cut : (world.removeBranch branchRootId).tree = (world.tree.removeBranch branchRootId).2 := by
        rw [World.removeBranch, if_neg (own ▸ below)]
      have present : heap[ref]? = some (world.removeBranch branchRootId) := by
        rw [List.getElem?_modify_eq, found]
        rfl
      have root : (world.removeBranch branchRootId).tree.rootId = rootId := by
        rw [cut, removeBranch_rootId, own]
      have kept := saved.prune here found branchRootId cut present (elsewhere s.heap ref _) rfl
      refine ⟨ref, repository, _, heap, located, ?_, ?_, kept, ?_⟩
      · apply Goes.modify
        intro world' found' tid running
        cases found.symm.trans found'
        rw [World.removeBranch, if_neg (own ▸ below), phaseAt_detach]
        exact running
      · intro other different
        apply locates_unregisterNodes _ _ _ here different
        · exact removed
        · exact filed.removed branchRootId
        · rfl
        · exact fun _ _ => rfl
      · show ((pruned.repository.getTree rootId).elim pruned pruned.saveTree).setStage i .executed = _
        rw [held, Option.elim_some]
        have there : pruned.heap[ref]? = some (world.removeBranch branchRootId) := present
        simp only [MessageHandler.saveTree, there]
        rw [root]

theorem removeBranch (saved : s.SavedBut s.Owing) (found : s.calls[i]? = some call) {manager : Nat}
    {branchRootId : MessageId} (stage : call.stage = .removingBranch manager branchRootId) :
    (s.removeBranch i s.current branchRootId).SavedBut (s.removeBranch i s.current branchRootId).Owing := by
  rcases saved.removeBranch_cases i branchRootId with
    ⟨nowhere, same⟩ | ⟨ref, repository, store, heap, located, goes, locates, persisted, same⟩
  · rw [same]
    apply saved.mono
    intro _ other _ owing
    apply owing.setStage found
    rw [stage, Stage.owes, nowhere]
    rfl
  · rw [same]
    let after : MessageHandler :=
      { s with heap := heap, managers := Function.update s.managers s.current repository, store := store }
    have now : after.repository = repository := Function.update_self ..
    show Persisted after.repository store heap _
    rw [now]
    apply persisted.mono
    intro _ other _ owes
    obtain ⟨owing, different⟩ := owes
    rcases owing with unsaved | due
    · exact .inl (unsaved.keep goes rfl)
    · right
      have mine : call.stage.owes s.repository other = false := by
        rw [stage, Stage.owes, located]
        exact decide_eq_false fun same => different (Option.some.inj same).symm
      have idle : (s.setStage i .executed).Due other := due.setStage found fun owes => by rw [mine] at owes; cases owes
      refine idle.keep rfl ?_
      show Locates s.repository after.repository other
      rw [now]
      exact locates other different

end Branch

end Calls

end SavedBut

end MessageHandler

end ClaudeProxy.Manager

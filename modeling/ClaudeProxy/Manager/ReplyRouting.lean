import ClaudeProxy.Manager.Filing

namespace ClaudeProxy.Manager

open Kit Sessions Trees

namespace Conversations

/-- The ids of a filed message are new to the manager; what a message replies to, if the manager knows it, is in its chat. -/
def idsApart (s : Conversations) : Action → Bool
  | .receive incoming => incoming.replyToMessageId.all fun replyId =>
      (s.repository.getTreeForNode replyId).all fun tree => tree.allNodes.all fun node =>
        node.incoming.chatId = incoming.chatId
  | .file index sent _ => s.handling[index]?.all fun h =>
      !s.repository.hasNode h.incoming.messageId && !s.repository.hasNode (h.statusMsgId sent) &&
        h.incoming.messageId ≠ h.statusMsgId sent
  | .process .. => true
  | .restart _ => true

/-- The manager and the store hold the forest of the handled messages, and what is in flight knows its place in it. -/
structure Filed (s : Conversations) : Prop where
  log : WellFiled s.log
  forest : forestIn s.repository.trees = forestOf s.log
  saved : savedForest s.store.trees = forestOf s.log
  mapped : ∀ msgId, s.repository.nodeToTree.get? msgId = rootOf s.log msgId
  mappedSaved : ∀ msgId, s.store.nodeToTree.get? msgId = rootOf s.log msgId
  indexed : ∀ rootId tree, s.repository.getTree rootId = some tree → tree.rootId = rootId ∧ StatusIndexed tree
  named : ∀ rootId data, s.store.trees.get? rootId = some data → data.rootId = rootId
  inFlight : ∀ h ∈ s.handling, h.parentNodeId = h.expected.map (·.nodeId) ∧
    ∀ e, h.expected = some e → e ∈ s.log ∧ e.chatId = h.incoming.chatId

theorem filed_initial : Filed initial where
  log := .nil
  forest := rfl
  saved := rfl
  mapped _ := rfl
  mappedSaved _ := rfl
  indexed _ _ found := nomatch found
  named _ _ found := nomatch found
  inFlight _ member := nomatch member

section Lookup

variable {s : Conversations}

theorem Filed.tree (filed : Filed s) {rootId : MessageId} {tree : MessageTree}
    (found : s.repository.getTree rootId = some tree) : forestOf s.log rootId = some (shapes tree) := by
  rw [← filed.forest]
  exact congrArg (Option.map shapes) found

theorem Filed.node (filed : Filed s) {e : Entry} (member : e ∈ s.log) : ∃ tree node,
    s.repository.getTree e.rootId = some tree ∧ tree.getNode e.nodeId = some node ∧ shapeOf node = e.shape s.log := by
  obtain ⟨nodes, here, own⟩ := node_of_forestOf filed.log member
  rw [← filed.forest] at here
  obtain ⟨tree, found, rfl⟩ := Option.map_eq_some_iff.mp here
  obtain ⟨node, foundNode, same⟩ := Option.map_eq_some_iff.mp own
  exact ⟨tree, node, found, foundNode, same⟩

theorem Filed.entry (filed : Filed s) {rootId nodeId : MessageId} {tree : MessageTree} {node : MessageNode}
    (found : s.repository.getTree rootId = some tree) (foundNode : tree.getNode nodeId = some node) :
    ∃ e ∈ s.log, e.rootId = rootId ∧ e.nodeId = nodeId ∧ shapeOf node = e.shape s.log :=
  entry_of_forestOf (filed.tree found) (congrArg (Option.map shapeOf) foundNode)

theorem Filed.routed (filed : Filed s) : s.Routed where
  held e member := by
    obtain ⟨tree, node, found, foundNode, same⟩ := filed.node member
    exact ⟨tree, node, found, foundNode, (nodeOf_iff ..).mpr same⟩
  only rootId tree nodeId node found foundNode := by
    obtain ⟨e, member, root, own, same⟩ := filed.entry found foundNode
    exact ⟨e, member, root, own, (nodeOf_iff ..).mpr same⟩

theorem rootOf_eq_some {log : List Entry} {msgId rootId : MessageId} (found : rootOf log msgId = some rootId) :
    ∃ e ∈ log, e.names msgId ∧ e.rootId = rootId := by
  obtain ⟨e, there, root⟩ := Option.map_eq_some_iff.mp found
  exact ⟨e, List.mem_of_find?_eq_some there, List.find?_some (p := fun e : Entry => e.names msgId) there, root⟩

theorem Filed.resolve (filed : Filed s) {e : Entry} (member : e ∈ s.log) {msgId : MessageId} (names : e.names msgId) :
    s.repository.resolveParentNodeId msgId = some e.nodeId := by
  obtain ⟨tree, node, found, foundNode, same⟩ := filed.node member
  have mapped : s.repository.nodeToTree.get? msgId = some e.rootId := by
    rw [filed.mapped, rootOf, filed.log.rootOf member names, Option.map_some]
  rw [TreeRepository.resolveParentNodeId, TreeRepository.getTreeForNode, mapped, Option.bind_some, found, Option.bind_some,
    resolveIn]
  by_cases own : e.nodeId = msgId
  · subst own
    have present : tree.hasNode e.nodeId = true := Option.isSome_iff_exists.mpr ⟨node, foundNode⟩
    rw [if_pos present]
  · have status : e.statusMessageId = msgId := by simpa [Entry.names, own] using names
    have absent : ¬ tree.hasNode msgId = true := by
      intro present
      obtain ⟨other, foundOther⟩ := Option.isSome_iff_exists.mp present
      obtain ⟨owner, there, _, isOther, _⟩ := filed.entry found foundOther
      have sameEntry := filed.log.distinct e member owner there msgId names (isOther ▸ owner.names_nodeId)
      exact own (sameEntry ▸ isOther)
    have nodeStatus : node.statusMessageId = msgId := (congrArg Shape.statusMessageId same).trans status
    have byStatus := ((filed.indexed _ _ found).2 msgId e.nodeId).mpr ⟨node, foundNode, nodeStatus⟩
    rw [if_neg absent, MessageTree.findNodeByStatusMessage, byStatus, Option.bind_some,
      show tree.nodes.get? e.nodeId = some node from foundNode, Option.map_some]
    exact congrArg some (congrArg Shape.nodeId same)

theorem Filed.receive (filed : Filed s) (incoming : IncomingMessage) (apart : s.idsApart (.receive incoming)) :
    Filed (s.receive incoming) := by
  refine { filed with inFlight := fun h member => ?_ }
  rcases List.mem_append.mp member with before | new
  · exact filed.inFlight h before
  · cases List.mem_singleton.mp new
    constructor
    · show incoming.replyToMessageId.bind s.repository.resolveParentNodeId = (repliedTo s.log incoming).map (·.nodeId)
      cases reply : incoming.replyToMessageId with
      | none => rw [repliedTo, reply]; rfl
      | some replyId =>
        rw [Option.bind_some, repliedTo, reply, Option.bind_some]
        cases known : rootOf s.log replyId with
        | none =>
          have unknown : s.log.find? (fun e => e.chatId = incoming.chatId ∧ e.names replyId) = none := by
            have absent := List.find?_eq_none.mp (Option.map_eq_none_iff.mp known)
            apply List.find?_eq_none.mpr
            exact fun e member both => absent e member (of_decide_eq_true both).2
          rw [TreeRepository.resolveParentNodeId, TreeRepository.getTreeForNode, filed.mapped, known, unknown]
          rfl
        | some rootId =>
          obtain ⟨e, member, names, root⟩ := rootOf_eq_some known
          obtain ⟨tree, node, found, foundNode, same⟩ := filed.node member
          have chat : e.chatId = incoming.chatId := by
            have tree : s.repository.getTreeForNode replyId = some tree := by
              rw [TreeRepository.getTreeForNode, filed.mapped, known, ← root]
              exact found
            simp only [idsApart, reply, tree, Option.all_some, List.all_eq_true] at apart
            have nodeChat := of_decide_eq_true (apart node (Dict.mem_values_of_get? _ foundNode))
            exact (congrArg Shape.chatId same).symm.trans nodeChat
          have located : s.log.find? (fun e => e.chatId = incoming.chatId ∧ e.names replyId) = some e := by
            cases at' : s.log.find? fun e => e.chatId = incoming.chatId ∧ e.names replyId with
            | none => exact absurd (by simpa using ⟨chat, names⟩) (List.find?_eq_none.mp at' e member)
            | some other =>
              have both := List.find?_some at'
              rw [filed.log.distinct e member other (List.mem_of_find?_eq_some at') replyId names (of_decide_eq_true both).2]
          rw [filed.resolve member names, located, Option.map_some]
    · intro e expected
      simp only [repliedTo] at expected
      obtain ⟨replyId, _, found⟩ := Option.bind_eq_some_iff.mp expected
      have both := List.find?_some found
      exact ⟨List.mem_of_find?_eq_some found, (of_decide_eq_true both).1⟩

end Lookup

theorem get?_register (map : Dict MessageId MessageId) (e : Entry) (msgId : MessageId) :
    ((map.set e.nodeId e.rootId).set e.statusMessageId e.rootId).get? msgId =
        (if e.names msgId then some e.rootId else map.get? msgId) ∧
      ((map.set e.statusMessageId e.rootId).set e.nodeId e.rootId).get? msgId =
        if e.names msgId then some e.rootId else map.get? msgId := by
  simp only [Dict.get?_set, Entry.names]
  by_cases node : msgId = e.nodeId
  · simp [node]
  · by_cases status : msgId = e.statusMessageId
    · simp [status]
    · simp [node, status, Ne.symm node, Ne.symm status]

theorem get?_registerAll {map : Dict MessageId MessageId} {e : Entry} {msgId : MessageId} {before : Option MessageId}
    (registered : map.get? msgId = if e.names msgId then some e.rootId else before) (nodeIds : List MessageId) :
    (nodeIds.foldl (fun map nodeId => map.set nodeId e.rootId) map).get? msgId =
      if msgId ∈ nodeIds ∨ e.names msgId then some e.rootId else before := by
  rw [get?_setAll, registered]
  by_cases member : msgId ∈ nodeIds <;> simp [member]

/-- What a message that is filed under a record adds to the manager and the store. -/
structure Files (s after : Conversations) (e : Entry) (tree : MessageTree) : Prop where
  log : after.log = s.log ++ [e]
  handling : after.handling = s.handling
  trees : after.repository.trees = s.repository.trees.set e.rootId tree
  saved : after.store.trees = s.store.trees.set e.rootId (toDict tree)
  mapped : ∀ msgId, after.repository.nodeToTree.get? msgId =
    if e.names msgId then some e.rootId else s.repository.nodeToTree.get? msgId
  mappedSaved : ∀ msgId, after.store.nodeToTree.get? msgId =
    if msgId ∈ tree.nodes.keys ∨ e.names msgId then some e.rootId else s.store.nodeToTree.get? msgId
  rootId : tree.rootId = e.rootId
  indexed : StatusIndexed tree
  grafted : Function.update (forestIn s.repository.trees) e.rootId (some (shapes tree)) =
    (forestIn s.repository.trees).graft e.rootId ⟨e.nodeId, e.chatId, e.statusMessageId, e.parentId, []⟩

theorem Files.filed {s after : Conversations} {e : Entry} {tree : MessageTree} (files : Files s after e tree)
    (filed : Filed s)
    (fits : Fits s.log e) : Filed after := by
  have log : WellFiled after.log := files.log ▸ filed.log.append fits
  have forest : forestIn after.repository.trees = forestOf after.log := by
    rw [files.trees, forestIn_set, files.grafted, filed.forest, files.log, forestOf_append filed.log fits]
  have there : forestOf after.log e.rootId = some (shapes tree) := by
    rw [← forest, files.trees, forestIn_set, Function.update_self]
  constructor
  · exact log
  · exact forest
  · rw [files.saved, savedForest_set, filed.saved, ← filed.forest, files.grafted, filed.forest, files.log,
      forestOf_append filed.log fits]
  · intro msgId
    rw [files.mapped, filed.mapped, files.log, rootOf_append fits]
  · intro msgId
    rw [files.mappedSaved, filed.mappedSaved]
    by_cases member : msgId ∈ tree.nodes.keys
    · rw [if_pos (.inl member), rootOf_of_node log there (shapes_isSome tree member)]
    · rw [files.log, rootOf_append fits]
      simp [member]
  · intro rootId other found
    rw [TreeRepository.getTree, files.trees, Dict.get?_set] at found
    split at found
    · rename_i here
      cases found
      exact ⟨here ▸ files.rootId, files.indexed⟩
    · exact filed.indexed rootId other found
  · intro rootId data found
    rw [files.saved, Dict.get?_set] at found
    split at found
    · rename_i here
      cases found
      exact here ▸ files.rootId
    · exact filed.named rootId data found
  · intro h member
    obtain ⟨resolved, known⟩ := filed.inFlight h (files.handling ▸ member)
    refine ⟨resolved, fun e expected => ?_⟩
    obtain ⟨there, chat⟩ := known e expected
    exact ⟨files.log ▸ List.mem_append_left _ there, chat⟩

section File

variable {s : Conversations} {h : Handling} {sent : MessageId}

structure NewIds (s : Conversations) (h : Handling) (sent : MessageId) : Prop where
  message : s.repository.hasNode h.incoming.messageId = false
  status : s.repository.hasNode (h.statusMsgId sent) = false
  different : h.incoming.messageId ≠ h.statusMsgId sent

theorem Filed.unnamed (filed : Filed s) {msgId : MessageId} (unknown : s.repository.hasNode msgId = false) {e : Entry}
    (member : e ∈ s.log) : ¬ e.names msgId := by
  intro names
  have mapped : s.repository.nodeToTree.get? msgId = some e.rootId := by
    rw [filed.mapped, rootOf, filed.log.rootOf member names, Option.map_some]
  rw [TreeRepository.hasNode, Dict.contains, mapped] at unknown
  cases unknown

theorem NewIds.fits (ids : NewIds s h sent) (filed : Filed s) (known : ∀ e, h.expected = some e → e ∈ s.log ∧
    e.chatId = h.incoming.chatId) : Fits s.log (h.entry sent) where
  fresh other member msgId names := by
    rcases of_decide_eq_true names with rfl | rfl
    · exact filed.unnamed ids.message member
    · exact filed.unnamed ids.status member
  ownStatus := ids.different
  below parentId parent := by
    obtain ⟨e, expected, own⟩ := Option.map_eq_some_iff.mp parent
    obtain ⟨member, chat⟩ := known e expected
    exact ⟨e, member, own, by simp [Handling.entry, expected], chat⟩
  root parent := by
    have unexpected : h.expected = none := Option.map_eq_none_iff.mp parent
    simp [Handling.entry, unexpected]

theorem Filed.file_root (filed : Filed s) (ids : NewIds s h sent) (unexpected : h.expected = none)
    (resolved : h.parentNodeId = none) (now : Timestamp) :
    Files s (s.file h sent now) (h.entry sent)
      (.new (.new h.incoming.messageId h.incoming (h.statusMsgId sent) none now)) := by
  let record : Entry := ⟨h.incoming.chatId, h.incoming.messageId, h.statusMsgId sent, h.incoming.messageId, none⟩
  have entry : h.entry sent = record := by
    simp [Handling.entry, unexpected, record]
  have noTree : forestIn s.repository.trees h.incoming.messageId = none := by
    rw [filed.forest]
    apply if_neg
    intro there
    obtain ⟨e, member, root⟩ := List.any_eq_true.mp there
    obtain ⟨above, inLog, own, _⟩ := filed.log.roots e member
    have named : above.nodeId = h.incoming.messageId := own.trans (of_decide_eq_true root)
    exact filed.unnamed ids.message inLog (named ▸ above.names_nodeId)
  rw [file, resolved, entry]
  constructor
  · rfl
  · rfl
  · rfl
  · rfl
  · exact fun msgId => (get?_register s.repository.nodeToTree record msgId).1
  · exact fun msgId => get?_registerAll (get?_register s.store.nodeToTree record msgId).1 _
  · rfl
  · exact .new _
  · rw [Forest.graft, shapes_new, noTree]
    rfl

theorem Filed.file_reply (filed : Filed s) (ids : NewIds s h sent) {e : Entry} (member : e ∈ s.log)
    (expected : h.expected = some e) (resolved : h.parentNodeId = some e.nodeId)
    (now : Timestamp) : ∃ tree, Files s (s.file h sent now) (h.entry sent) tree := by
  let record : Entry := ⟨h.incoming.chatId, h.incoming.messageId, h.statusMsgId sent, e.rootId, some e.nodeId⟩
  have entry : h.entry sent = record := by
    simp [Handling.entry, expected, record]
  obtain ⟨tree, node, found, foundNode, same⟩ := filed.node member
  obtain ⟨own, indexed⟩ := filed.indexed _ _ found
  have mapped : s.repository.nodeToTree.get? e.nodeId = some e.rootId := by
    rw [filed.mapped, rootOf, filed.log.rootOf member e.names_nodeId, Option.map_some]
  obtain ⟨after, added⟩ := addNode_eq_some (Option.isSome_iff_exists.mpr ⟨node, foundNode⟩) h.incoming.messageId h.incoming
    (h.statusMsgId sent) now
  have notParent : h.incoming.messageId ≠ e.nodeId := by
    intro clash
    exact filed.unnamed ids.message member (clash ▸ e.names_nodeId)
  have freshNode : tree.getNode h.incoming.messageId = none := by
    cases there : tree.getNode h.incoming.messageId with
    | none => rfl
    | some other =>
      obtain ⟨owner, inLog, _, isOther, _⟩ := filed.entry found there
      exact absurd (isOther ▸ owner.names_nodeId) (filed.unnamed ids.message inLog)
  have freshStatus : tree.statusToNode.get? (h.statusMsgId sent) = none := by
    cases there : tree.statusToNode.get? (h.statusMsgId sent) with
    | none => rfl
    | some nodeId =>
      obtain ⟨other, foundOther, status⟩ := (indexed _ _).mp there
      obtain ⟨owner, inLog, _, _, shape⟩ := filed.entry found foundOther
      have ownerStatus : owner.statusMessageId = h.statusMsgId sent :=
        (congrArg Shape.statusMessageId shape).symm.trans status
      exact absurd (ownerStatus ▸ owner.names_statusMessageId) (filed.unnamed ids.status inLog)
  have afterRoot : after.rootId = e.rootId := (addNode_rootId added).trans own
  have result : s.repository.addToTree e.nodeId h.incoming.messageId h.incoming (h.statusMsgId sent) now =
      some (after, { s.repository with trees := s.repository.trees.set e.rootId after }.registerNode h.incoming.messageId
        e.rootId) := by
    unfold TreeRepository.addToTree
    simp only [Option.bind_eq_bind, mapped, found, added, Option.bind_some, afterRoot]
    rfl
  refine ⟨after, ?_⟩
  rw [file, resolved, entry]
  simp only [result, afterRoot]
  constructor
  · rfl
  · rfl
  · rfl
  · rfl
  · exact fun msgId => (get?_register s.repository.nodeToTree record msgId).1
  · exact fun msgId => get?_registerAll (get?_register s.store.nodeToTree record msgId).2 _
  · exact afterRoot
  · exact StatusIndexed.addNode indexed added freshNode freshStatus
  · have before : forestIn s.repository.trees e.rootId = some (shapes tree) := congrArg (Option.map shapes) found
    rw [Forest.graft, shapes_addNode added notParent, before]
    rfl

theorem Filed.file (filed : Filed s) (ids : NewIds s h sent) (resolved : h.parentNodeId = h.expected.map (·.nodeId))
    (known : ∀ e, h.expected = some e → e ∈ s.log ∧ e.chatId = h.incoming.chatId) (now : Timestamp) :
    Filed (s.file h sent now) := by
  have fits := ids.fits filed known
  cases expected : h.expected with
  | none =>
    rw [expected] at resolved
    exact (filed.file_root ids expected resolved now).filed filed fits
  | some e =>
    rw [expected] at resolved
    obtain ⟨member, _⟩ := known e expected
    obtain ⟨tree, files⟩ := filed.file_reply ids member expected resolved now
    exact files.filed filed fits

end File

section Others

variable {s : Conversations}

theorem Filed.replaceTree (filed : Filed s) {rootId : MessageId} {tree after : MessageTree}
    (found : s.repository.getTree rootId = some tree) (sameRoot : after.rootId = tree.rootId) (indexed : StatusIndexed after)
    (same : shapes after = shapes tree) :
    Filed { s with repository := { s.repository with trees := s.repository.trees.set rootId after } } := by
  refine { filed with forest := ?_, indexed := ?_ }
  · have here : forestIn s.repository.trees rootId = some (shapes tree) := congrArg (Option.map shapes) found
    rw [forestIn_set, same, ← here, Function.update_eq_self]
    exact filed.forest
  · intro key other foundOther
    rw [TreeRepository.getTree, Dict.get?_set] at foundOther
    split at foundOther
    · rename_i here
      cases foundOther
      exact ⟨here ▸ sameRoot.trans (filed.indexed _ _ found).1, indexed⟩
    · exact filed.indexed key other foundOther

theorem Filed.saveTree (filed : Filed s) {rootId : MessageId} {tree : MessageTree}
    (found : s.repository.getTree rootId = some tree) :
    Filed { s with store := s.store.saveTree tree.rootId (toDict tree) } := by
  have own := (filed.indexed _ _ found).1
  rw [own]
  refine { filed with saved := ?_, mappedSaved := ?_, named := ?_ }
  · show savedForest (s.store.trees.set rootId (toDict tree)) = _
    rw [savedForest_set, filed.saved, ← filed.tree found, Function.update_eq_self]
  · intro msgId
    show (List.foldl _ s.store.nodeToTree tree.nodes.keys).get? msgId = _
    rw [get?_setAll, filed.mappedSaved]
    split
    · rename_i member
      rw [rootOf_of_node filed.log (filed.tree found) (shapes_isSome tree member)]
    · rfl
  · intro key data foundData
    change (s.store.trees.set rootId (toDict tree)).get? key = some data at foundData
    rw [Dict.get?_set] at foundData
    split at foundData
    · rename_i here
      cases foundData
      exact here ▸ own
    · exact filed.named key data foundData

theorem Filed.process (filed : Filed s) (nodeId : MessageId) (state : MessageState) (sessionId errorMessage : Option String)
    (saves : Bool) (now : Timestamp) : Filed (s.process nodeId state sessionId errorMessage saves now) := by
  unfold Conversations.process
  split
  · rename_i rootId tree mapped located
    have found : s.repository.getTree rootId = some tree := by
      rw [TreeRepository.getTreeForNode, mapped] at located
      exact located
    have sameRoot : (tree.updateState nodeId state sessionId errorMessage now).rootId = tree.rootId := by
      unfold MessageTree.updateState MessageTree.modifyNode
      split <;> rfl
    have updated := filed.replaceTree found sameRoot ((filed.indexed _ _ found).2.modifyNode nodeId fun _ => rfl)
      (shapes_modifyNode tree nodeId fun _ => rfl)
    cases saves with
    | false => exact updated
    | true => exact updated.saveTree (Dict.get?_set_self _ _ _)
  · exact filed

theorem Filed.sync (filed : Filed s) :
    Filed { s with store := ⟨s.repository.savedTrees, s.repository.nodeToTree⟩ } := by
  refine { filed with saved := ?_, mappedSaved := filed.mapped, named := ?_ }
  · rw [← filed.forest]
    funext rootId
    rw [savedForest, TreeRepository.savedTrees, Dict.get?_mapValues, Option.map_map]
    rfl
  · intro rootId data found
    change (s.repository.trees.mapValues fun _ tree => toDict tree).get? rootId = some data at found
    rw [Dict.get?_mapValues] at found
    obtain ⟨tree, foundTree, rfl⟩ := Option.map_eq_some_iff.mp found
    exact (filed.indexed rootId tree foundTree).1

/-- Every tree that was saved is read back, and marking the stale nodes does not move them. -/
theorem Filed.restored (filed : Filed s) {repository : TreeRepository MessageTree}
    (mapping : repository.nodeToTree = s.store.nodeToTree)
    (trees : ∀ rootId, repository.getTree rootId = (s.store.trees.get? rootId).bind fromDict)
    (reads : ∀ rootId data, s.store.trees.get? rootId = some data → ∃ tree, fromDict data = some tree ∧ Reloads data tree)
    (now : Timestamp) : Filed { s with repository := (repository.cleanupStaleNodes now).2, handling := [] } := by
  have found (rootId : MessageId) : (repository.cleanupStaleNodes now).2.getTree rootId =
      ((s.store.trees.get? rootId).bind fromDict).map (markStale now) := by
    rw [← trees]
    exact Dict.get?_mapValues ..
  refine { filed with forest := ?_, mapped := ?_, indexed := ?_, inFlight := fun _ member => nomatch member }
  · rw [← filed.saved]
    funext rootId
    show ((repository.cleanupStaleNodes now).2.getTree rootId).map shapes = (s.store.trees.get? rootId).map _
    rw [found]
    cases saved : s.store.trees.get? rootId with
    | none => rfl
    | some data =>
      obtain ⟨tree, read, reloads⟩ := reads rootId data saved
      obtain ⟨_, _, same⟩ := markStale_spec now reloads.indexed
      rw [Option.bind_some, read, Option.map_some, Option.map_some, Option.map_some, same, reloads.shapes]
  · intro msgId
    rw [← filed.mappedSaved, ← mapping]
    rfl
  · intro rootId tree foundTree
    rw [found] at foundTree
    obtain ⟨plain, bound, rfl⟩ := Option.map_eq_some_iff.mp foundTree
    obtain ⟨data, saved, read⟩ := Option.bind_eq_some_iff.mp bound
    obtain ⟨other, readOther, reloads⟩ := reads rootId data saved
    cases read.symm.trans readOther
    obtain ⟨root, indexed, _⟩ := markStale_spec now reloads.indexed
    exact ⟨root.trans (reloads.rootId.trans (filed.named rootId data saved)), indexed⟩

theorem Filed.restart (filed : Filed s) (now : Timestamp) : Filed (s.restart now) := by
  have idle : Filed { s with handling := [] } := { filed with inFlight := fun _ member => absurd member List.not_mem_nil }
  unfold Conversations.restart
  dsimp only
  split
  · rename_i empty
    have noTrees : ∀ rootId, forestOf s.log rootId = none := by
      intro rootId
      rw [← filed.saved, savedForest, Dict.get?, empty]
      rfl
    have noEntry : s.log = [] := by
      cases log : s.log with
      | nil => rfl
      | cons e rest =>
        obtain ⟨_, there, _⟩ := node_of_forestOf filed.log (log ▸ List.mem_cons_self : e ∈ s.log)
        rw [noTrees] at there
        cases there
    refine { idle with forest := ?_, mapped := ?_, indexed := fun _ _ found => by cases found }
    · funext rootId
      exact (noTrees rootId).symm
    · intro msgId
      show none = rootOf s.log msgId
      rw [noEntry]
      rfl
  · have reads (rootId : MessageId) (data : SavedTree) (found : s.store.trees.get? rootId = some data) :
        ∃ tree, fromDict data = some tree ∧ Reloads data tree := by
      have own := filed.named rootId data found
      exact fromDict_spec (wellSaved_of_forest filed.log filed.saved (own ▸ found))
    obtain ⟨repository, restored, mapping, trees⟩ := TreeRepository.fromDict_spec s.store.trees s.store.nodeToTree
      fun rootId data found => by
        obtain ⟨tree, read, _⟩ := reads rootId data found
        rw [read]
        rfl
    have cleaned := filed.restored mapping trees reads now
    rw [restored]
    show Filed { s with
      repository := (repository.cleanupStaleNodes now).2
      store := if (repository.cleanupStaleNodes now).1 > 0 then _ else _
      handling := [] }
    split
    · exact cleaned.sync
    · exact cleaned

end Others

theorem Filed.step {s after : Conversations} {a : Action} (filed : Filed s) (apart : s.idsApart a = true)
    (taken : s.step a = some after) : Filed after := by
  cases a with
  | receive incoming =>
    cases taken
    exact filed.receive incoming apart
  | file index sent now =>
    obtain ⟨h, found, rfl⟩ := Option.map_eq_some_iff.mp taken
    obtain ⟨resolved, known⟩ := filed.inFlight h (List.mem_of_getElem? found)
    have others : Filed { s with handling := s.handling.eraseIdx index } :=
      { filed with inFlight := fun other member => filed.inFlight other (List.mem_of_mem_eraseIdx member) }
    have ids : NewIds { s with handling := s.handling.eraseIdx index } h sent := by
      simp only [idsApart, found, Option.all_some, Bool.and_eq_true, Bool.not_eq_true', decide_eq_true_eq] at apart
      exact ⟨apart.1.1, apart.1.2, apart.2⟩
    exact others.file ids resolved known now
  | process nodeId state sessionId errorMessage saves now =>
    cases taken
    exact filed.process nodeId state sessionId errorMessage saves now
  | restart now =>
    cases taken
    exact filed.restart now

/-- While the chats keep their ids apart, every message is in its own conversation, under what it replies to. -/
theorem routed_of_idsApart (s : Conversations) (reached : machine.ReachableUnder (fun s a => s.idsApart a = true) s) :
    s.Routed := by
  have filed : Filed s := reached.invariant filed_initial fun _ _ _ filed apart taken => filed.step apart taken
  exact filed.routed

theorem one_ne_empty : "1" ≠ "" := by decide

theorem two_ne_empty : "2" ≠ "" := by decide

theorem three_ne_empty : "3" ≠ "" := by decide

def message (chatId : String) (messageId : MessageId) (replyToMessageId : Option MessageId) : IncomingMessage :=
  ⟨"hello", chatId, "someone", messageId, "web", replyToMessageId, none, none, none⟩

/-- Two chats, a restart, and a reply to a status message from before it. -/
theorem routed_after_restart : ∃ s, machine.ReachableUnder (fun s a => s.idsApart a = true) s ∧ s.log.length = 3 ∧
    s.Routed := by
  have ran : (machine.runUnder idsApart machine.init
      [.receive (message "a" ⟨"m1", by decide⟩ none), .receive (message "b" ⟨"m2", by decide⟩ none),
        .file 1 ⟨"s2", by decide⟩ 0, .file 0 ⟨"s1", by decide⟩ 1, .process ⟨"m1", by decide⟩ .inProgress none none false 2,
        .restart 3, .receive (message "a" ⟨"m3", by decide⟩ (some ⟨"s1", by decide⟩)), .file 0 ⟨"s3", by decide⟩ 4]).any
      (fun s => s.log.length = 3) = true := by decide
  obtain ⟨s, here, three⟩ := (Option.any_eq_true _ _).mp ran
  have reached := Machine.reachableUnder_of_runUnder .init here
  exact ⟨s, reached, of_decide_eq_true three, routed_of_idsApart s reached⟩

/-- Two chats number their messages alike. -/
def sameMessageId : List Action :=
  [.receive (message "a" ⟨"1", one_ne_empty⟩ none), .file 0 ⟨"2", two_ne_empty⟩ 0,
    .receive (message "b" ⟨"1", one_ne_empty⟩ none), .file 0 ⟨"3", three_ne_empty⟩ 1]

/-- The web adapter counts from one again after the restart, and the reply means the status message from before it. -/
def restartedCounter : List Action :=
  let (first, platform) := WebPlatform.sendMessage ⟨0⟩
  let (second, _) := platform.sendMessage
  [.receive (message "a" ⟨"1", one_ne_empty⟩ none), .file 0 first 0, .restart 1,
    .receive (message "b" ⟨"2", two_ne_empty⟩ none), .file 0 first 2,
    .receive (message "a" ⟨"3", three_ne_empty⟩ (some first)), .file 0 second 3]

def misplaced (s : Conversations) : Bool := s.log.any fun e =>
  ((s.repository.getTree e.rootId).bind fun tree => tree.getNode e.nodeId).all fun node => node.incoming.chatId ≠ e.chatId

theorem Routed.not_misplaced {s : Conversations} (routed : s.Routed) : s.misplaced = false := by
  apply List.any_eq_false.mpr
  intro e member wrong
  obtain ⟨tree, node, found, foundNode, own⟩ := routed.held e member
  rw [found, Option.bind_some, foundNode, Option.all_some] at wrong
  exact of_decide_eq_true wrong own.chatId

theorem shared_ids_misroute : (∃ s, machine.run machine.init sameMessageId = some s ∧ ¬ s.Routed) ∧
    ∃ s, machine.run machine.init restartedCounter = some s ∧ ¬ s.Routed := by
  have replaced : (machine.run machine.init sameMessageId).any misplaced = true := by decide
  have moved : (machine.run machine.init restartedCounter).any misplaced = true := by decide +kernel
  have wrong {s : Conversations} (misplaced : s.misplaced = true) : ¬ s.Routed := by
    intro routed
    rw [routed.not_misplaced] at misplaced
    cases misplaced
  obtain ⟨s, ran, atChat⟩ := (Option.any_eq_true _ _).mp replaced
  obtain ⟨s', ran', atChat'⟩ := (Option.any_eq_true _ _).mp moved
  exact ⟨⟨s, ran, wrong atChat⟩, s', ran', wrong atChat'⟩

end Conversations

end ClaudeProxy.Manager

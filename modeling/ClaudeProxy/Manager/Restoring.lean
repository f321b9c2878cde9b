import ClaudeProxy.Kit.Machine
import ClaudeProxy.Manager.QueueManager
import ClaudeProxy.Manager.Restorable
import ClaudeProxy.Manager.TreeStructure

namespace ClaudeProxy.Manager

open Kit Trees

def TreeRepository.getNode (repo : TreeRepository MessageTree) (nodeId : MessageId) : Option MessageNode :=
  (repo.getTreeForNode nodeId).bind (·.getNode nodeId)

def TreeRepository.getPendingChildren (repo : TreeRepository MessageTree) (nodeId : MessageId) : List MessageNode :=
  match repo.getTreeForNode nodeId with
  | none => []
  | some tree => (tree.getPendingChildren nodeId).filterMap tree.getNode

/-- What the operations of the manager do to its repository, one atomic part after the other: `add_to_tree` adds the
node and registers it, `remove_branch` marks the nodes of a whole tree and removes it, or prunes a tree and unregisters
what is gone. Other operations may come between the parts. -/
inductive RepositoryStep where
  | createTree (nodeId : MessageId) (incoming : IncomingMessage) (statusMessageId : MessageId) (now : Timestamp)
  | addNode (rootId parentNodeId nodeId : MessageId) (incoming : IncomingMessage) (statusMessageId : MessageId)
      (now : Timestamp)
  | registerNode (nodeId rootId : MessageId)
  | updateState (rootId nodeId : MessageId) (state : MessageState) (sessionId errorMessage : Option String) (now : Timestamp)
  | setNodeError (rootId nodeId : MessageId) (errorMessage : String) (now : Timestamp)
  | removeTree (rootId : MessageId)
  | removeBranch (rootId branchRootId : MessageId)
  | unregisterNodes (nodeIds : List MessageId)

def TreeRepository.onTree (repo : TreeRepository MessageTree) (rootId : MessageId)
    (change : MessageTree → Option MessageTree) : Option (TreeRepository MessageTree) := do
  let tree ← repo.getTree rootId
  let after ← change tree
  return { repo with trees := repo.trees.set rootId after }

/-- Within a tree no node id and no status id is used twice. -/
def stepRepository (repo : TreeRepository MessageTree) : RepositoryStep → Option (TreeRepository MessageTree)
  | .createTree nodeId incoming statusMessageId now =>
    some (repo.createTree nodeId incoming statusMessageId now).2
  | .addNode rootId parentNodeId nodeId incoming statusMessageId now => repo.onTree rootId fun tree =>
    if tree.hasNode nodeId || tree.statusToNode.contains statusMessageId then none
    else tree.addNode nodeId incoming statusMessageId parentNodeId now
  | .registerNode nodeId rootId => some (repo.registerNode nodeId rootId)
  | .updateState rootId nodeId state sessionId errorMessage now =>
    repo.onTree rootId fun tree => some (tree.updateState nodeId state sessionId errorMessage now)
  | .setNodeError rootId nodeId errorMessage now =>
    repo.onTree rootId fun tree => some (tree.setNodeErrorSync nodeId errorMessage now)
  | .removeTree rootId =>
    some (repo.removeTree rootId (((repo.getTree rootId).map fun tree => tree.allNodes.map (·.nodeId)).getD []))
  | .removeBranch rootId branchRootId => repo.onTree rootId fun tree =>
    if branchRootId = tree.rootId then none else some (tree.removeBranch branchRootId).2
  | .unregisterNodes nodeIds => some (repo.unregisterNodes nodeIds)

def repositoryMachine : Machine (TreeRepository MessageTree) RepositoryStep := ⟨.new, stepRepository⟩

def AllRestorable (repo : TreeRepository MessageTree) : Prop :=
  ∀ rootId tree, repo.getTree rootId = some tree → Restorable rootId tree

theorem AllRestorable.onTree {repo after : TreeRepository MessageTree} {rootId : MessageId}
    {change : MessageTree → Option MessageTree} (all : AllRestorable repo)
    (keeps : ∀ tree next, Restorable rootId tree → change tree = some next → Restorable rootId next)
    (taken : repo.onTree rootId change = some after) : AllRestorable after := by
  rcases Option.bind_eq_some_iff.mp taken with ⟨tree, found, more⟩
  rcases Option.bind_eq_some_iff.mp more with ⟨next, changed, same⟩
  cases same
  intro key other there
  rcases Dict.get?_set_cases there with ⟨here, same⟩ | ⟨_, before⟩
  · rw [here, same]
    exact keeps tree next (all rootId tree found) changed
  · exact all key other before

theorem AllRestorable.step {repo after : TreeRepository MessageTree} {step : RepositoryStep} (all : AllRestorable repo)
    (taken : stepRepository repo step = some after) : AllRestorable after := by
  cases step with
  | createTree nodeId incoming statusMessageId now =>
    cases taken
    intro key tree there
    rcases Dict.get?_set_cases there with ⟨here, same⟩ | ⟨_, before⟩
    · rw [here, same]
      exact Restorable.new (.new nodeId incoming statusMessageId none now) rfl
    · exact all key tree before
  | addNode rootId parentNodeId nodeId incoming statusMessageId now =>
    apply all.onTree _ taken
    intro tree next restorable added
    split at added
    · cases added
    · rename_i unused
      rcases Bool.or_eq_false_iff.mp (Bool.eq_false_iff.mpr unused) with ⟨fresh, freshStatus⟩
      exact restorable.addNode added fresh freshStatus
  | registerNode nodeId rootId =>
    cases taken
    exact all
  | updateState rootId nodeId state sessionId errorMessage now =>
    apply all.onTree _ taken
    intro tree next restorable changed
    cases changed
    exact restorable.modifyNode nodeId (fun _ => rfl) (fun _ => rfl) fun _ orphan => orphan
  | setNodeError rootId nodeId errorMessage now =>
    apply all.onTree _ taken
    intro tree next restorable changed
    cases changed
    exact restorable.modifyNode nodeId (fun _ => rfl) (fun _ => rfl) fun _ orphan => orphan
  | removeTree rootId =>
    cases taken
    intro key tree there
    unfold TreeRepository.removeTree at there
    split at there
    · apply all key tree
      change (repo.trees.erase rootId).get? key = some tree at there
      rw [Dict.get?_erase] at there
      split at there
      · cases there
      · exact there
    · exact all key tree there
  | removeBranch rootId branchRootId =>
    apply all.onTree _ taken
    intro tree next restorable changed
    split at changed
    · cases changed
    · rename_i below
      cases changed
      rw [restorable.root] at below
      exact restorable.removeBranch below
  | unregisterNodes nodeIds =>
    cases taken
    exact all

theorem allRestorable_of_reachable {repo : TreeRepository MessageTree} (reached : repositoryMachine.Reachable repo) :
    AllRestorable repo := by
  apply Machine.ReachableUnder.invariant _ _ reached
  · intro rootId tree found
    cases found
  · exact fun before step after all _ taken => all.step taken

/-- The restored repository answers every question as the original does, apart from the pre-sent status ids of nodes. -/
structure SameAnswers (repo restored : TreeRepository MessageTree) : Prop where
  getTreeForNode : ∀ nodeId, Option.Rel Restored (repo.getTreeForNode nodeId) (restored.getTreeForNode nodeId)
  getNode : ∀ nodeId, restored.getNode nodeId = (repo.getNode nodeId).map reloaded
  resolveParentNodeId : ∀ msgId, restored.resolveParentNodeId msgId = repo.resolveParentNodeId msgId
  getPendingChildren : ∀ nodeId, restored.getPendingChildren nodeId = (repo.getPendingChildren nodeId).map reloaded
  inTrees : ∀ rootId tree, repo.getTree rootId = some tree → ∃ after, restored.getTree rootId = some after ∧
    ∀ nodeId, after.getNode nodeId = (tree.getNode nodeId).map reloaded ∧
      after.getParentSessionId nodeId = tree.getParentSessionId nodeId ∧
      after.getChildren nodeId = (tree.getChildren nodeId).map reloaded ∧
      after.getDescendants nodeId = tree.getDescendants nodeId

section Repository

variable {iso : IsoFormat} {repo restored : TreeRepository MessageTree}

theorem dictOf_trees (all : AllRestorable repo) : ∃ trees,
    dictOf (treeFromDict iso) (written (treeToDict iso) repo.trees.entries)
    .empty = some trees ∧ trees.keys = repo.trees.keys ∧
      ∀ rootId, Option.Rel Restored (repo.trees.get? rootId) (trees.get? rootId) := by
  let restore (tree : MessageTree) : MessageTree := (treeFromDict iso (treeToDict iso tree)).getD tree
  have reads : ∀ entry ∈ repo.trees.entries,
      treeFromDict iso (treeToDict iso entry.2) = some (restore entry.2) ∧ Restored entry.2 (restore entry.2) := by
    intro entry member
    have found : repo.getTree entry.1 = some entry.2 := (Dict.get?_eq_some_iff ..).mpr member
    rcases @Restorable.restored iso _ _ (all entry.1 entry.2 found) with ⟨after, read, restored⟩
    have same : restore entry.2 = after := by
      show (treeFromDict iso (treeToDict iso entry.2)).getD entry.2 = after
      rw [read]
      rfl
    rw [same]
    exact ⟨read, restored⟩
  rcases dictOf_written (fun entry member => (reads entry member).1) repo.trees.nodup .empty
    (fun _ _ => List.not_mem_nil) with ⟨trees, read, entries⟩
  have mapped : trees = repo.trees.mapValues fun _ => restore := by
    cases fresh : trees with
    | mk list nodup =>
      rw [fresh] at entries
      exact (Dict.mk.injEq ..).mpr entries
  refine ⟨trees, read, ?_, ?_⟩
  · rw [mapped, Dict.keys_mapValues]
  · intro rootId
    rw [mapped, Dict.get?_mapValues]
    cases found : repo.trees.get? rootId with
    | none => exact Option.Rel.none
    | some tree => exact Option.Rel.some (reads (rootId, tree) ((Dict.get?_eq_some_iff ..).mp found)).2

theorem dictOf_mappings (mappings : Dict MessageId MessageId) :
    dictOf asId (written idToJson mappings.entries) .empty = some mappings := by
  rcases @dictOf_written MessageId MessageId asId idToJson id mappings.entries (fun entry _ => asId_idToJson entry.2)
    mappings.nodup .empty (fun _ _ => List.not_mem_nil) with ⟨after, read, entries⟩
  rw [read]
  cases fresh : after with
  | mk list nodup =>
    rw [fresh] at entries
    have same : list = mappings.entries := by
      rw [show list = mappings.entries.map fun entry => (entry.1, id entry.2) from entries]
      simp
    exact congrArg some ((Dict.mk.injEq ..).mpr same)

/-- Written and read back: the same mappings, and trees that are restored one by one. -/
structure Twin (repo restored : TreeRepository MessageTree) : Prop where
  keys : restored.trees.keys = repo.trees.keys
  trees : ∀ rootId, Option.Rel Restored (repo.getTree rootId) (restored.getTree rootId)
  nodeToTree : restored.nodeToTree = repo.nodeToTree

theorem repositoryFromDict_toDict (all : AllRestorable repo) :
    ∃ restored, repositoryFromDict iso (repositoryToDict iso repo) = some restored ∧ Twin repo restored := by
  rcases @dictOf_trees iso repo all with ⟨trees, read, keys, each⟩
  refine ⟨⟨trees, repo.nodeToTree⟩, ?_, keys, each, rfl⟩
  unfold repositoryToDict
  generalize eq : ([("trees".toList, _), _] : Members) = data
  have treeData : Json.get data "trees" (.object []) = .object (written (treeToDict iso) repo.trees.entries) := by
    rw [← eq]
    rfl
  have mappings : Json.get data "node_to_tree" (.object []) = .object (written idToJson repo.nodeToTree.entries) := by
    rw [← eq]
    rfl
  simp only [repositoryFromDict, asMembers, treeData, mappings, read, dictOf_mappings, Option.bind_eq_bind, Option.bind_some]
  rfl

namespace Twin

theorem getTreeForNode (twin : Twin repo restored) (nodeId : MessageId) :
    Option.Rel Restored (repo.getTreeForNode nodeId) (restored.getTreeForNode nodeId) := by
  rw [TreeRepository.getTreeForNode, TreeRepository.getTreeForNode, twin.nodeToTree]
  cases repo.nodeToTree.get? nodeId with
  | none => exact Option.Rel.none
  | some rootId => exact twin.trees rootId

theorem answers (twin : Twin repo restored) : SameAnswers repo restored := by
  constructor
  · exact twin.getTreeForNode
  · intro nodeId
    have same := twin.getTreeForNode nodeId
    rw [TreeRepository.getNode, TreeRepository.getNode]
    generalize repo.getTreeForNode nodeId = one at same ⊢
    generalize restored.getTreeForNode nodeId = two at same ⊢
    cases same with
    | none => rfl
    | some tree => exact tree.getNode nodeId
  · intro msgId
    have same := twin.getTreeForNode msgId
    rw [TreeRepository.resolveParentNodeId, TreeRepository.resolveParentNodeId]
    generalize repo.getTreeForNode msgId = one at same ⊢
    generalize restored.getTreeForNode msgId = two at same ⊢
    cases same with
    | none => rfl
    | some tree => exact tree.resolveIn msgId
  · intro nodeId
    have same := twin.getTreeForNode nodeId
    rw [TreeRepository.getPendingChildren, TreeRepository.getPendingChildren]
    generalize repo.getTreeForNode nodeId = one at same ⊢
    generalize restored.getTreeForNode nodeId = two at same ⊢
    cases same with
    | none => rfl
    | some tree =>
      simp only [tree.getPendingChildren, List.map_filterMap]
      apply List.filterMap_congr
      exact fun child _ => tree.getNode child
  · intro rootId tree found
    have same := twin.trees rootId
    rw [found] at same
    cases there : restored.getTree rootId with
    | none =>
      rw [there] at same
      cases same
    | some after =>
      rw [there] at same
      cases same with
      | some restored =>
        refine ⟨after, rfl, fun nodeId => ?_⟩
        exact ⟨restored.getNode nodeId, restored.getParentSessionId nodeId, restored.getChildren nodeId,
          restored.getDescendants nodeId⟩

theorem written_eq {left right : Dict MessageId MessageTree} (keys : right.keys = left.keys)
    (same : ∀ rootId, Option.Rel Restored (left.get? rootId) (right.get? rootId)) :
    written (treeToDict iso) right.entries = written (treeToDict iso) left.entries := by
  have entries (dict : Dict MessageId MessageTree) : written (treeToDict iso) dict.entries = dict.keys.map fun rootId =>
      (rootId.1.toList, ((dict.get? rootId).map (treeToDict iso)).getD .null) := by
    rw [written, Dict.keys, List.map_map]
    apply List.map_congr_left
    intro entry member
    have found : dict.get? entry.1 = some entry.2 := (Dict.get?_eq_some_iff ..).mpr member
    simp [found]
  rw [entries, entries, keys]
  apply List.map_congr_left
  intro rootId _
  have tree := same rootId
  generalize left.get? rootId = one at tree ⊢
  generalize right.get? rootId = two at tree ⊢
  cases tree with
  | none => rfl
  | some restored => rw [Option.map_some, Option.map_some, restored.toDict]

theorem toDict (twin : Twin repo restored) : repositoryToDict iso restored = repositoryToDict iso repo := by
  have trees := @written_eq iso _ _ twin.keys twin.trees
  rw [repositoryToDict, repositoryToDict, twin.nodeToTree]
  unfold written at trees
  rw [trees]

end Twin

end Repository

section Written

variable {iso : IsoFormat}

theorem decoded_text (text : String) : (textToJson text).Decoded := trivial

theorem decoded_optional (text : Option String) : (optionalToJson text).Decoded := by
  cases text <;> trivial

theorem decoded_written {ν : Type} {encode : ν → Json} {dict : Dict MessageId ν}
    (values : ∀ entry ∈ dict.entries, (encode entry.2).Decoded) : (Json.object (written encode dict.entries)).Decoded := by
  rw [Json.decoded_object]
  constructor
  · have keys : (written encode dict.entries).map Prod.fst = dict.keys.map fun id => id.1.toList := by
      rw [written, Dict.keys, List.map_map, List.map_map]
      rfl
    rw [keys]
    exact dict.nodup.map fun _ _ same => chars_injective.mp same
  · intro member inside
    rcases List.mem_map.mp inside with ⟨entry, there, rfl⟩
    exact values entry there

theorem incomingToDict_decoded (incoming : IncomingMessage) : (incomingToDict incoming).Decoded := by
  rw [incomingToDict, Json.decoded_object]
  constructor
  · show ["text".toList, "chat_id".toList, "user_id".toList, "message_id".toList, "platform".toList,
      "reply_to_message_id".toList, "message_thread_id".toList, "username".toList].Nodup
    decide
  · simp only [List.forall_mem_cons, List.not_mem_nil, false_imp_iff, implies_true, optionalIdToJson,
      decoded_optional, idToJson, decoded_text, and_self]

theorem nodeToDict_decoded (node : MessageNode) : (nodeToDict iso node).Decoded := by
  have children : (Json.array (node.childrenIds.map idToJson)).Decoded := by
    rw [Json.Decoded, Json.decodedItems_iff]
    intro item member
    rcases List.mem_map.mp member with ⟨id, _, rfl⟩
    exact decoded_text id.1
  have completed : ((node.completedAt.map fun time => Json.string (iso.isoformat time)).getD .null).Decoded := by
    cases node.completedAt <;> trivial
  have created : (Json.string (iso.isoformat node.createdAt)).Decoded := trivial
  rw [nodeToDict, Json.decoded_object]
  constructor
  · show ["node_id".toList, "incoming".toList, "status_message_id".toList, "state".toList, "parent_id".toList,
      "session_id".toList, "children_ids".toList, "created_at".toList, "completed_at".toList, "error_message".toList].Nodup
    decide
  · simp only [List.forall_mem_cons, List.not_mem_nil, false_imp_iff, implies_true, optionalIdToJson,
      decoded_optional, idToJson, decoded_text, incomingToDict_decoded, children, completed, created, and_self]

theorem treeToDict_decoded (tree : MessageTree) : (treeToDict iso tree).Decoded := by
  have nodes : (Json.object (tree.nodes.entries.map (entryToDict iso))).Decoded :=
    decoded_written fun entry _ => nodeToDict_decoded entry.2
  rw [treeToDict, Json.decoded_object]
  constructor
  · show ["root_id".toList, "nodes".toList].Nodup
    decide
  · simp only [List.forall_mem_cons, List.not_mem_nil, false_imp_iff, implies_true, and_true, idToJson, decoded_text, nodes]

theorem repositoryToDict_decoded (repo : TreeRepository MessageTree) : (repositoryToDict iso repo).Decoded := by
  have trees : (Json.object (repo.trees.entries.map fun entry => (entry.1.1.toList, treeToDict iso entry.2))).Decoded :=
    decoded_written fun entry _ => treeToDict_decoded entry.2
  have mappings : (Json.object (repo.nodeToTree.entries.map fun entry => (entry.1.1.toList, idToJson entry.2))).Decoded :=
    decoded_written fun entry _ => decoded_text entry.2.1
  rw [repositoryToDict, Json.decoded_object]
  constructor
  · show ["trees".toList, "node_to_tree".toList].Nodup
    decide
  · simp only [List.forall_mem_cons, List.not_mem_nil, false_imp_iff, implies_true, and_true, trees, mappings]

end Written

section Clock

/-- The times of the first second, as `isoformat` writes them: without the fraction at zero microseconds, else with six
digits of it. -/
def firstSecond (time : Timestamp) : List Char :=
  let digits := Nat.toDigits 10 time
  let fraction := if time = 0 then [] else '.' :: (List.replicate (6 - digits.length) '0' ++ digits)
  ['1', '9', '7', '0', '-', '0', '1', '-', '0', '1', 'T', '0', '0', ':', '0', '0', ':', '0', '0'] ++
    (fraction ++ ['+', '0', '0', ':', '0', '0'])

def readFirstSecond (text : List Char) : Option Timestamp :=
  match text.drop 19 with
  | '.' :: rest => some (Nat.ofDigitChars 10 (rest.takeWhile Char.isDigit) 0)
  | _ => some 0

theorem readFirstSecond_firstSecond (time : Timestamp) : readFirstSecond (firstSecond time) = some time := by
  have start (date rest : List Char) (length : date.length = 19) : (date ++ rest).drop 19 = rest :=
    List.drop_left' length
  rw [readFirstSecond, firstSecond, start _ _ rfl]
  by_cases zero : time = 0
  · rw [if_pos zero, zero]
    rfl
  · let digits := List.replicate (6 - (Nat.toDigits 10 time).length) '0' ++ Nat.toDigits 10 time
    have all : ∀ c ∈ digits, c.isDigit = true := by
      intro c member
      rcases List.mem_append.mp member with padding | digit
      · rw [List.eq_of_mem_replicate padding]
        rfl
      · exact Nat.isDigit_of_mem_toDigits (by decide) (by decide) digit
    have kept : (digits ++ ['+', '0', '0', ':', '0', '0']).takeWhile Char.isDigit = digits := by
      rw [List.takeWhile_append_of_pos all]
      show digits ++ [] = digits
      rw [List.append_nil]
    have value : Nat.ofDigitChars 10 digits 0 = time := by
      rw [Nat.ofDigitChars_append, Nat.ofDigitChars_replicate_zero, Nat.mul_zero, Nat.ofDigitChars_ten_toDigits]
    rw [if_neg zero]
    show some (Nat.ofDigitChars 10 ((digits ++ ['+', '0', '0', ':', '0', '0']).takeWhile Char.isDigit) 0) = some time
    rw [kept, value]

theorem firstSecond_ne_nil (time : Timestamp) : firstSecond time ≠ [] := List.cons_ne_nil _ _

def firstSecondFormat : IsoFormat := ⟨firstSecond, readFirstSecond, readFirstSecond_firstSecond, firstSecond_ne_nil⟩

end Clock

/-- The JSON text of a repository is read back as what was written, and the repository restored from it answers as the
original and is written the same. -/
theorem restores_of_reachable (iso : IsoFormat) (repo : TreeRepository MessageTree)
    (reached : repositoryMachine.Reachable repo) :
    ∃ restored, (Json.loads (repositoryToDict iso repo).dumps).bind (repositoryFromDict iso) = some restored ∧
      SameAnswers repo restored ∧ repositoryToDict iso restored = repositoryToDict iso repo := by
  rcases @repositoryFromDict_toDict iso repo (allRestorable_of_reachable reached) with ⟨restored, read, twin⟩
  refine ⟨restored, ?_, twin.answers, twin.toDict⟩
  rw [Json.loads_dumps (repositoryToDict_decoded repo)]
  exact read

/-- A tree with a reply and its two status messages, the root answered; and a second tree that is removed again. -/
def threadSteps : List RepositoryStep :=
  [.createTree (numberedId 1) (greeting (numberedId 1)) (numberedId 2) 0, .registerNode (numberedId 2) (numberedId 1),
    .addNode (numberedId 1) (numberedId 1) (numberedId 3) (greeting (numberedId 3)) (numberedId 4) 1,
    .registerNode (numberedId 3) (numberedId 1), .registerNode (numberedId 4) (numberedId 1),
    .updateState (numberedId 1) (numberedId 1) .completed (some "session") none 2,
    .createTree (numberedId 5) (greeting (numberedId 5)) (numberedId 6) 3, .removeTree (numberedId 5)]

def threadRepository : TreeRepository MessageTree :=
  (repositoryMachine.run repositoryMachine.init threadSteps).getD .new

theorem restores_thread :
    ∃ restored, (Json.loads (repositoryToDict firstSecondFormat threadRepository).dumps).bind
        (repositoryFromDict firstSecondFormat) = some restored ∧ SameAnswers threadRepository restored ∧
      repositoryToDict firstSecondFormat restored = repositoryToDict firstSecondFormat threadRepository := by
  have runs : (repositoryMachine.run repositoryMachine.init threadSteps).isSome = true := by decide +kernel
  have ran : repositoryMachine.run repositoryMachine.init threadSteps = some threadRepository :=
    Machine.eq_some_getD runs _
  exact restores_of_reachable firstSecondFormat threadRepository (Machine.reachable_of_run ran)

end ClaudeProxy.Manager

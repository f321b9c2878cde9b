import ClaudeProxy.Manager.StartUp

namespace ClaudeProxy.Manager

open Kit Sessions Trees

section Restoring

theorem mem_addAll {entries : List (MessageId × MessageNode)} {tree : MessageTree} {nodeId : MessageId} {node : MessageNode}
    (found : (entries.foldl (fun tree entry => addNodeFromDict tree (reloaded entry.2)) tree).getNode nodeId = some node) :
    (∃ entry ∈ entries, node = reloaded entry.2) ∨ tree.getNode nodeId = some node := by
  induction entries generalizing tree with
  | nil => exact Or.inr found
  | cons entry rest ih =>
    rcases ih found with later | before
    · rcases later with ⟨other, member, same⟩
      exact Or.inl ⟨other, List.mem_cons_of_mem _ member, same⟩
    · rcases Dict.get?_set_cases before with ⟨_, same⟩ | ⟨_, there⟩
      · exact Or.inl ⟨entry, List.mem_cons_self, same⟩
      · exact Or.inr there

theorem mem_fromDict {data : SavedTree} {tree : MessageTree} (read : fromDict data = some tree) {nodeId : MessageId}
    {node : MessageNode} (found : tree.getNode nodeId = some node) : ∃ saved ∈ data.nodes.values, node = reloaded saved := by
  rcases Option.map_eq_some_iff.mp read with ⟨root, there, rfl⟩
  rcases mem_addAll found with ⟨entry, member, same⟩ | only
  · exact ⟨entry.2, List.mem_map_of_mem (List.mem_filter.mp member).1, same⟩
  · refine ⟨root, Dict.mem_values_of_get? _ there, ?_⟩
    rcases Dict.get?_set_cases only with ⟨_, same⟩ | ⟨_, none'⟩
    · exact same
    · cases none'

theorem readable_of_foldlM {entries : List (MessageId × SavedTree)} {start trees : Dict MessageId MessageTree}
    (folded : entries.foldlM (fun restored entry => (fromDict entry.2).map (restored.set entry.1)) start = some trees) :
    ∀ entry ∈ entries, (fromDict entry.2).isSome := by
  induction entries generalizing start with
  | nil => exact fun _ member => absurd member List.not_mem_nil
  | cons entry rest ih =>
    rcases Option.bind_eq_some_iff.mp folded with ⟨next, first, more⟩
    rcases Option.map_eq_some_iff.mp first with ⟨tree, read, _⟩
    intro other member
    rcases List.mem_cons.mp member with rfl | later
    · rw [read]
      rfl
    · exact ih more other later

theorem restored_spec {trees : Dict MessageId SavedTree} {nodeToTree : Dict MessageId MessageId}
    {repo : TreeRepository MessageTree} (restored : TreeRepository.fromDict trees nodeToTree = some repo) :
    (∀ rootId data, trees.get? rootId = some data → ∃ tree, fromDict data = some tree ∧ repo.getTree rootId = some tree) ∧
      ∀ rootId tree, repo.getTree rootId = some tree → ∃ data, trees.get? rootId = some data ∧
        fromDict data = some tree := by
  rcases Option.map_eq_some_iff.mp restored with ⟨_, folded, _⟩
  have all := readable_of_foldlM folded
  have readable : ∀ rootId data, trees.get? rootId = some data → (fromDict data).isSome :=
    fun rootId data found => all (rootId, data) ((Dict.get?_eq_some_iff ..).mp found)
  rcases TreeRepository.fromDict_spec trees nodeToTree readable with ⟨same, again, _, found⟩
  rw [Option.some.inj (restored.symm.trans again)]
  constructor
  · intro rootId data there
    rcases Option.isSome_iff_exists.mp (readable rootId data there) with ⟨tree, read⟩
    refine ⟨tree, read, ?_⟩
    rw [found, there]
    exact read
  · intro rootId tree there
    rw [found] at there
    exact Option.bind_eq_some_iff.mp there

theorem cleanup_eq_zero {trees : Dict MessageId SavedTree} {nodeToTree : Dict MessageId MessageId}
    {repo : TreeRepository MessageTree} (restored : TreeRepository.fromDict trees nodeToTree = some repo)
    (fresh : ∀ data ∈ trees.values, ∀ node ∈ data.nodes.values, isStale node = false) (now : Timestamp) :
    (repo.cleanupStaleNodes now).1 = 0 := by
  apply List.sum_eq_zero_iff_forall_eq_nat.mpr
  intro count member
  rcases List.mem_map.mp member with ⟨tree, inside, rfl⟩
  rcases List.mem_map.mp inside with ⟨entry, at_entry, rfl⟩
  have found : repo.getTree entry.1 = some entry.2 := (Dict.get?_eq_some_iff ..).mpr at_entry
  rcases (restored_spec restored).2 entry.1 entry.2 found with ⟨data, saved, read⟩
  apply List.length_eq_zero_iff.mpr
  apply List.filter_eq_nil_iff.mpr
  intro node known
  rcases List.mem_map.mp known with ⟨pair, there, rfl⟩
  rcases mem_fromDict read ((Dict.get?_eq_some_iff ..).mpr there) with ⟨old, listed, same⟩
  have calm := fresh data (Dict.mem_values_of_get? _ saved) old listed
  rw [same]
  exact Bool.eq_false_iff.mp calm

end Restoring

namespace StartUp

theorem record_cases {tree : MessageTree} {nodeIds : List MessageId} {written : Dict (MessageId × MessageId) MessageNode}
    {rootId nodeId : MessageId} {node : MessageNode}
    (found : (record tree nodeIds written).get? (rootId, nodeId) = some node) :
    (rootId = tree.rootId ∧ (tree.getNode nodeId).map bare = some node) ∨
      (written.get? (rootId, nodeId) = some node ∧
        (rootId = tree.rootId → nodeId ∈ nodeIds → tree.hasNode nodeId = false)) := by
  induction nodeIds generalizing written with
  | nil => exact Or.inr ⟨found, fun _ member => absurd member List.not_mem_nil⟩
  | cons first rest ih =>
    rcases ih found with here | ⟨before, outside⟩
    · exact Or.inl here
    · cases there : tree.getNode first with
      | none =>
        dsimp only at before
        rw [there] at before
        refine Or.inr ⟨before, fun root member => ?_⟩
        rcases List.mem_cons.mp member with rfl | later
        · rw [MessageTree.hasNode, Dict.contains, show tree.nodes.get? nodeId = none from there]
          rfl
        · exact outside root later
      | some value =>
        dsimp only at before
        rw [there] at before
        rcases Dict.get?_set_cases before with ⟨here, same⟩ | ⟨other, earlier⟩
        · rcases Prod.mk.injEq .. ▸ here with ⟨root, own⟩
          refine Or.inl ⟨root, ?_⟩
          rw [own, there, same]
          rfl
        · refine Or.inr ⟨earlier, fun root member => ?_⟩
          rcases List.mem_cons.mp member with rfl | later
          · exact absurd (congrArg (·, nodeId) root) other
          · exact outside root later

/-- The invariant of the runs whose steps all meet the condition. -/
structure Keeps (store : SessionStore MessageId MessageNode) (s : StartUp) : Prop where
  early : s.savedTrees = store.trees
  trees : ∀ rootId, store.trees.contains rootId = true ∨ rootId ∈ s.saved → s.store.trees.contains rootId = true
  nodes : ∀ rootId nodeId node, s.written.get? (rootId, nodeId) = some node →
    ((s.store.getTree rootId).bind fun data => data.nodes.get? nodeId).map bare = some node
  touched : ∀ h ∈ s.handlers, ∀ pair ∈ h.touched, ∃ tree, h.repository.getTree pair.1 = some tree ∧
    tree.hasNode pair.2 = true
  unsaved : s.saved = [] → ∀ key, s.written.get? key = none

namespace Keeps

variable {store : SessionStore MessageId MessageNode} {s : StartUp}

theorem begun (store : SessionStore MessageId MessageNode) : Keeps store (begun store) := by
  constructor
  · rfl
  · intro rootId before
    rcases before with early | saved
    · exact early
    · cases saved
  · intro _ _ _ found
    cases found
  · intro _ member
    cases member
  · exact fun _ _ => rfl

theorem start (keeps : Keeps store s) (now : Timestamp) (meets : s.meets (.start now) = true) :
    Keeps store (s.start now) := by
  have joined {repository : TreeRepository MessageTree} (h : StartedHandler)
      (member : h ∈ s.handlers ++ [⟨repository, []⟩]) : ∀ pair ∈ h.touched, ∃ tree,
        h.repository.getTree pair.1 = some tree ∧ tree.hasNode pair.2 = true := by
    rcases List.mem_append.mp member with old | new
    · exact keeps.touched h old
    · rw [List.mem_singleton.mp new]
      exact fun _ none' => absurd none' List.not_mem_nil
  unfold StartUp.start
  split
  · exact ⟨keeps.early, keeps.trees, keeps.nodes, joined, keeps.unsaved⟩
  · split
    · exact keeps
    · rename_i repository restored
      dsimp only
      by_cases stale : (repository.cleanupStaleNodes now).1 > 0
      · rw [if_pos stale]
        have first : s.saved = [] := by
          rcases of_decide_eq_true meets with first | calm
          · exact first
          · have fresh : ∀ data ∈ s.savedTrees.values, ∀ node ∈ data.nodes.values, isStale node = false := by
              intro data listed node known
              have one := List.all_eq_true.mp (List.all_eq_true.mp calm data listed) node known
              exact Bool.eq_false_iff.mpr (of_decide_eq_true one)
            rw [cleanup_eq_zero restored fresh now] at stale
            exact absurd stale (Nat.lt_irrefl 0)
        constructor
        · exact keeps.early
        · intro rootId before
          rcases before with early | saved
          · rcases Option.isSome_iff_exists.mp early with ⟨data, found⟩
            rw [← keeps.early] at found
            rcases (restored_spec restored).1 rootId data found with ⟨tree, _, there⟩
            apply Option.isSome_iff_exists.mpr
            refine ⟨toDict (markStale now tree), ?_⟩
            show ((repository.trees.mapValues fun _ tree => markStale now tree).mapValues fun _ tree => toDict tree).get?
              rootId = _
            rw [Dict.get?_mapValues, Dict.get?_mapValues, show repository.trees.get? rootId = some tree from there]
            rfl
          · rw [first] at saved
            cases saved
        · intro rootId nodeId node found
          rw [keeps.unsaved first] at found
          cases found
        · exact joined
        · exact keeps.unsaved
      · rw [if_neg stale]
        exact ⟨keeps.early, keeps.trees, keeps.nodes, joined, keeps.unsaved⟩

/-- A save loses nothing if it covers what was saved before. -/
theorem save {tree : MessageTree} {nodeIds : List MessageId} (keeps : Keeps store s)
    (known : ∀ nodeId ∈ nodeIds, tree.hasNode nodeId = true) (covers : s.covers tree nodeIds = true) :
    Keeps store (s.save tree nodeIds) := by
  constructor
  · exact keeps.early
  · intro rootId before
    show (s.store.trees.set tree.rootId (toDict tree)).contains rootId = true
    rw [Dict.contains, Dict.get?_set]
    split
    · rfl
    · rename_i other
      apply keeps.trees rootId
      rcases before with early | saved
      · exact Or.inl early
      · rcases List.mem_cons.mp saved with same | earlier
        · exact absurd same other
        · exact Or.inr earlier
  · intro rootId nodeId node found
    show (((s.store.trees.set tree.rootId (toDict tree)).get? rootId).bind _).map bare = some node
    rcases record_cases found with ⟨root, here⟩ | ⟨before, outside⟩
    · rw [root, Dict.get?_set_self, Option.bind_some]
      exact here
    · by_cases root : rootId = tree.rootId
      · rw [root, Dict.get?_set_self, Option.bind_some]
        have entry : ((rootId, nodeId), node) ∈ s.written.entries := (Dict.get?_eq_some_iff ..).mp before
        rcases of_decide_eq_true (List.all_eq_true.mp covers _ entry) with other | listed | same
        · exact absurd root other
        · have absent := outside root listed
          rw [known nodeId listed] at absent
          cases absent
        · exact same
      · rw [Dict.get?_set_ne _ _ root]
        exact keeps.nodes rootId nodeId node before
  · exact keeps.touched
  · intro none'
    cases none'

theorem setHandler (keeps : Keeps store s) (i : Nat) {h : StartedHandler}
    (touched : ∀ pair ∈ h.touched, ∃ tree, h.repository.getTree pair.1 = some tree ∧ tree.hasNode pair.2 = true) :
    Keeps store (s.setHandler i h) := by
  refine ⟨keeps.early, keeps.trees, keeps.nodes, ?_, keeps.unsaved⟩
  intro other member
  rcases List.mem_or_eq_of_mem_set member with old | same
  · exact keeps.touched other old
  · rw [same]
    exact touched

theorem registerNode (keeps : Keeps store s) (i : Nat) (nodeId rootId : MessageId) :
    Keeps store (s.registerNode i nodeId rootId) := by
  unfold StartUp.registerNode
  split
  · refine ⟨keeps.early, keeps.trees, keeps.nodes, ?_, keeps.unsaved⟩
    intro h member
    rcases List.mem_iff_getElem?.mp member with ⟨j, found⟩
    rw [List.getElem?_modify] at found
    rcases Option.map_eq_some_iff.mp found with ⟨old, there, rfl⟩
    have kept := keeps.touched old (List.mem_of_getElem? there)
    split
    · exact kept
    · exact kept
  · exact ⟨keeps.early, keeps.trees, keeps.nodes, keeps.touched, keeps.unsaved⟩

theorem recordNode (keeps : Keeps store s) (nodeId rootId : MessageId) : Keeps store (s.recordNode nodeId rootId) :=
  ⟨keeps.early, keeps.trees, keeps.nodes, keeps.touched, keeps.unsaved⟩

theorem createTree {i : Nat} {h : StartedHandler} {nodeId status : MessageId} {incoming : IncomingMessage} {now : Timestamp}
    (keeps : Keeps store s) (found : s.handlers[i]? = some h)
    (covers : s.covers (.new (.new nodeId incoming status none now)) [nodeId] = true) :
    Keeps store (s.createTree i h nodeId incoming status now) := by
  let tree : MessageTree := .new (.new nodeId incoming status none now)
  let created : StartedHandler :=
    ⟨{ h.repository with trees := h.repository.trees.set nodeId tree }, (nodeId, nodeId) :: h.touched.filter (·.1 ≠ nodeId)⟩
  have root : tree.hasNode nodeId = true := (hasNode_iff ..).mpr ⟨_, Dict.get?_set_self ..⟩
  have touched : ∀ pair ∈ created.touched, ∃ tree, created.repository.getTree pair.1 = some tree ∧
      tree.hasNode pair.2 = true := by
    intro pair member
    rcases List.mem_cons.mp member with rfl | old
    · exact ⟨tree, Dict.get?_set_self .., root⟩
    · rcases List.mem_filter.mp old with ⟨before, other⟩
      rcases keeps.touched h (List.mem_of_getElem? found) pair before with ⟨own, there, has⟩
      exact ⟨own, (Dict.get?_set_ne _ _ (of_decide_eq_true other)).trans there, has⟩
  have registered := ((keeps.setHandler i touched).registerNode i nodeId nodeId).registerNode i status nodeId
  have recorded := (registered.recordNode nodeId nodeId).recordNode status nodeId
  apply recorded.save
  · intro key member
    rw [List.mem_singleton.mp member]
    exact root
  · have same (t : StartUp) (key root : MessageId) : (t.registerNode i key root).written = t.written := by
      unfold StartUp.registerNode
      split <;> rfl
    rw [StartUp.covers, StartUp.recordNode, StartUp.recordNode]
    dsimp only
    rw [same, same]
    exact covers

theorem onTree {i : Nat} {rootId nodeId : MessageId} {change : MessageTree → Option MessageTree} {next : StartUp}
    (keeps : Keeps store s)
    (grows : ∀ tree after, change tree = some after → ∀ key, tree.hasNode key = true → after.hasNode key = true)
    (taken : s.onTree i rootId nodeId change = some next) : Keeps store next := by
  rcases Option.bind_eq_some_iff.mp taken with ⟨h, found, more⟩
  rcases Option.bind_eq_some_iff.mp more with ⟨tree, there, more⟩
  rcases Option.bind_eq_some_iff.mp more with ⟨after, changed, eq⟩
  cases eq
  apply keeps.setHandler i
  have old : ∀ pair ∈ h.touched, ∃ tree, (h.repository.trees.set rootId after).get? pair.1 = some tree ∧
      tree.hasNode pair.2 = true := by
    intro pair member
    rcases keeps.touched h (List.mem_of_getElem? found) pair member with ⟨own, at_root, has⟩
    by_cases here : pair.1 = rootId
    · rw [here] at at_root ⊢
      rw [Option.some.inj (at_root.symm.trans there)] at has
      exact ⟨after, Dict.get?_set_self .., grows tree after changed pair.2 has⟩
    · exact ⟨own, (Dict.get?_set_ne _ _ here).trans at_root, has⟩
  intro pair member
  dsimp only at member
  split at member
  · rename_i present
    rcases List.mem_cons.mp member with rfl | before
    · exact ⟨after, Dict.get?_set_self .., present⟩
    · exact old pair before
  · exact old pair member

theorem hasNode_modifyNode (tree : MessageTree) (nodeId : MessageId) (change : MessageNode → MessageNode) {key : MessageId}
    (has : tree.hasNode key = true) : (tree.modifyNode nodeId change).hasNode key = true := by
  rcases (hasNode_iff ..).mp has with ⟨node, found⟩
  apply (hasNode_iff ..).mpr
  rw [MessageTree.getNode_modifyNode]
  split
  · rename_i here
    exact ⟨change node, by rw [← here, found]; rfl⟩
  · exact ⟨node, found⟩

theorem hasNode_addNode {tree after : MessageTree} {nodeId status parentId : MessageId} {incoming : IncomingMessage}
    {now : Timestamp} (added : tree.addNode nodeId incoming status parentId now = some after) {key : MessageId}
    (has : tree.hasNode key = true) : after.hasNode key = true := by
  unfold MessageTree.addNode at added
  split at added
  · cases added
  · cases added
    apply hasNode_modifyNode
    rw [MessageTree.hasNode, Dict.contains, Dict.get?_set]
    split
    · rfl
    · exact has

theorem step {a : StartUpStep} {next : StartUp} (keeps : Keeps store s) (meets : s.meets a = true)
    (taken : s.step a = some next) : Keeps store next := by
  cases a with
  | start now =>
    cases taken
    exact keeps.start now meets
  | createTree i nodeId incoming status now =>
    rcases Option.map_eq_some_iff.mp taken with ⟨h, found, rfl⟩
    exact keeps.createTree found meets
  | addNode i rootId parentNodeId nodeId incoming status now =>
    rcases Option.map_eq_some_iff.mp taken with ⟨middle, added, rfl⟩
    have grown := keeps.onTree (fun _ _ changed _ has => hasNode_addNode changed has) added
    exact grown.registerNode i nodeId rootId
  | registerNode i nodeId rootId =>
    cases taken
    exact keeps.registerNode i nodeId rootId
  | recordNode nodeId rootId =>
    cases taken
    exact keeps.recordNode nodeId rootId
  | updateState i rootId nodeId state sessionId errorMessage now =>
    apply keeps.onTree _ taken
    intro tree after changed key has
    cases changed
    exact hasNode_modifyNode tree nodeId _ has
  | setNodeError i rootId nodeId errorMessage now =>
    apply keeps.onTree _ taken
    intro tree after changed key has
    cases changed
    exact hasNode_modifyNode tree nodeId _ has
  | save i rootId =>
    rcases Option.bind_eq_some_iff.mp taken with ⟨h, found, more⟩
    rcases Option.bind_eq_some_iff.mp more with ⟨tree, there, eq⟩
    cases eq
    rw [StartUp.meets, found, Option.all_some, there, Option.all_some] at meets
    apply keeps.save _ meets
    intro nodeId member
    rcases List.mem_map.mp member with ⟨pair, inside, rfl⟩
    rcases List.mem_filter.mp inside with ⟨touched, root⟩
    rcases keeps.touched h (List.mem_of_getElem? found) pair touched with ⟨own, at_root, has⟩
    rw [of_decide_eq_true root] at at_root
    rw [Option.some.inj (at_root.symm.trans there)] at has
    exact has

end Keeps

theorem preserved_of_reachable (store : SessionStore MessageId MessageNode) (s : StartUp)
    (reached : (machine store).ReachableUnder (fun s a => s.meets a = true) s) : Preserved store s := by
  have keeps : Keeps store s :=
    Machine.ReachableUnder.invariant (Keeps.begun store) (fun _ _ _ keeps meets taken => keeps.step meets taken) reached
  exact ⟨keeps.trees, keeps.nodes⟩

def singleTree (state : MessageState) : SessionStore MessageId MessageNode :=
  let root := MessageNode.new (numberedId 1) (greeting (numberedId 1)) (numberedId 2) none 0
  SessionStore.new.saveTree (numberedId 1) (toDict (.new { root with state := state }))

/-- Two platforms are started over an answered tree; the first gets a reply to it and a new message in between. -/
def replyBetween : List StartUpStep :=
  [.start 1, .addNode 0 (numberedId 1) (numberedId 1) (numberedId 3) (greeting (numberedId 3)) (numberedId 4) 2,
    .save 0 (numberedId 1), .createTree 0 (numberedId 5) (greeting (numberedId 5)) (numberedId 6) 3, .start 4,
    .updateState 0 (numberedId 1) (numberedId 3) .completed (some "session") none 5, .save 0 (numberedId 1)]

def afterReply : StartUp :=
  ((machine (singleTree .completed)).runUnder meets (machine (singleTree .completed)).init replyBetween).getD
    (begun (singleTree .completed))

theorem preserved_afterReply : Preserved (singleTree .completed) afterReply := by
  have runs : ((machine (singleTree .completed)).runUnder meets (machine (singleTree .completed)).init
      replyBetween).isSome = true := by decide +kernel
  have ran : (machine (singleTree .completed)).runUnder meets (machine (singleTree .completed)).init replyBetween =
      some afterReply :=
    Machine.eq_some_getD runs _
  exact preserved_of_reachable (singleTree .completed) afterReply (Machine.reachableUnder_of_runUnder .init ran)

/-- The saved tree has a pending node; the first platform gets a new message before the second one is started. -/
def messageBetween : List StartUpStep :=
  [.start 1, .createTree 0 (numberedId 5) (greeting (numberedId 5)) (numberedId 6) 2, .start 3]

def afterSecond : StartUp :=
  ((machine (singleTree .pending)).run (machine (singleTree .pending)).init messageBetween).getD
    (begun (singleTree .pending))

theorem not_preserved : ¬ ∀ store s, (machine store).Reachable s → Preserved store s := by
  intro all
  have runs : ((machine (singleTree .pending)).run (machine (singleTree .pending)).init messageBetween).isSome = true := by
    decide +kernel
  have ran : (machine (singleTree .pending)).run (machine (singleTree .pending)).init messageBetween =
      some afterSecond :=
    Machine.eq_some_getD runs _
  have saved : numberedId 5 ∈ afterSecond.saved := by decide +kernel
  have lost : afterSecond.store.trees.contains (numberedId 5) = false := by decide +kernel
  have still := (all (singleTree .pending) afterSecond (Machine.reachable_of_run ran)).trees _ (Or.inr saved)
  rw [lost] at still
  cases still

end StartUp

end ClaudeProxy.Manager

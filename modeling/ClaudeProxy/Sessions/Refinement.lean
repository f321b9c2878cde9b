import ClaudeProxy.Sessions.Store

namespace ClaudeProxy.Sessions

open Kit

variable {Id Node : Type} [DecidableEq Id]

/-- The two stores give the same answers. -/
structure SameAnswers (json : SessionStore Id Node) (pg : PostgresSessionStore Id Node) : Prop where
  allTrees : Dict.Same json.getAllTrees (PostgresSessionStore.getAllTrees pg)
  tree : ∀ rootId, json.getTree rootId = PostgresSessionStore.getTree pg rootId
  nodeMapping : Dict.Same json.getNodeMapping (PostgresSessionStore.getNodeMapping pg)

/-- Along the calls the second store never fails, and after each of them the answers are the same. -/
def Refines (json : SessionStore Id Node) (pg : PostgresSessionStore Id Node) : List (StoreOp Id Node) → Prop
  | [] => True
  | op :: rest => (PostgresSessionStore.apply pg op).2 = true ∧
      SameAnswers (json.apply op) (PostgresSessionStore.apply pg op).1 ∧
      Refines (json.apply op) (PostgresSessionStore.apply pg op).1 rest

/-- What a call may ask of the JSON store before it. -/
def Meets (s : SessionStore Id Node) : StoreOp Id Node → Prop
  | .registerNode _ rootId => s.trees.contains rootId = true
  | .saveTree rootId treeData => ∀ nodeId, s.nodeToTree.get? nodeId = some rootId → nodeId ∈ treeData.nodes.keys
  | .removeNodeMappings _ => True
  | .removeTree rootId => ∀ treeData, s.trees.get? rootId = some treeData → ∀ nodeId other,
      s.nodeToTree.get? nodeId = some other → (nodeId ∈ treeData.nodes.keys ↔ other = rootId)
  | .clearAll => False
  | .syncFromTreeData _ _ => False
  | .payloadChanged rootId treeData => ∀ saved, s.trees.get? rootId = some saved → treeData = saved

/-- Every call of the run meets its condition. -/
def MeetsAll (s : SessionStore Id Node) : List (StoreOp Id Node) → Prop
  | [] => True
  | op :: rest => Meets s op ∧ MeetsAll (s.apply op) rest

theorem get?_popAll (nodeIds : List Id) (map : Dict Id Id) (nodeId : Id) :
    (nodeIds.foldl Dict.erase map).get? nodeId = if nodeId ∈ nodeIds then none else map.get? nodeId := by
  induction nodeIds generalizing map with
  | nil => simp
  | cons first rest ih =>
    rw [List.foldl_cons, ih, Dict.get?_erase]
    by_cases here : nodeId = first <;> by_cases later : nodeId ∈ rest <;> simp [here, later]

theorem get?_setAll (nodeIds : List Id) (rootId : Id) (map : Dict Id Id) (nodeId : Id) :
    (nodeIds.foldl (fun map nodeId => map.set nodeId rootId) map).get? nodeId =
      if nodeId ∈ nodeIds then some rootId else map.get? nodeId := by
  induction nodeIds generalizing map with
  | nil => simp
  | cons first rest ih =>
    rw [List.foldl_cons, ih, Dict.get?_set]
    by_cases here : nodeId = first <;> by_cases later : nodeId ∈ rest <;> simp [here, later]

theorem sameAnswers_iff (json : SessionStore Id Node) (pg : PostgresSessionStore Id Node) :
    SameAnswers json pg ↔ (∀ rootId, json.trees.get? rootId = pg.parents.get? rootId) ∧
      ∀ nodeId, json.nodeToTree.get? nodeId = pg.children.get? nodeId :=
  ⟨fun same => ⟨same.tree, same.nodeMapping⟩, fun ⟨trees, mapping⟩ => ⟨trees, trees, mapping⟩⟩

variable {json : SessionStore Id Node} {pg : PostgresSessionStore Id Node}

theorem registerNode_iff (same : SameAnswers json pg) (nodeId rootId : Id) :
    ((PostgresSessionStore.apply pg (.registerNode nodeId rootId)).2 = true ∧
      SameAnswers (json.apply (.registerNode nodeId rootId))
        (PostgresSessionStore.apply pg (.registerNode nodeId rootId)).1) ↔
      Meets json (.registerNode nodeId rootId) := by
  obtain ⟨trees, mapping⟩ := (sameAnswers_iff json pg).mp same
  have known : json.trees.contains rootId = (pg.parents.get? rootId).isSome := by rw [Dict.contains, trees]
  rw [Meets, known]
  by_cases there : (pg.parents.get? rootId).isSome = true
  · have accepted : pg.exec (.upsertChild nodeId rootId) = some (pg.upsertChild nodeId rootId there) := by
      rw [Tables.exec, dif_pos there]
    rw [PostgresSessionStore.apply, PostgresSessionStore.statements, Tables.script_cons accepted]
    refine iff_of_true ⟨rfl, (sameAnswers_iff ..).mpr ⟨trees, ?_⟩⟩ there
    exact Dict.Same.set mapping nodeId rootId
  · have rejected : pg.exec (.upsertChild nodeId rootId) = none := by rw [Tables.exec, dif_neg there]
    rw [PostgresSessionStore.apply, PostgresSessionStore.statements, Tables.script_rejected rejected]
    exact iff_of_false (fun both => by cases both.1) there

theorem saveTree_iff (same : SameAnswers json pg) (rootId : Id) (treeData : TreeData Id Node) :
    ((PostgresSessionStore.apply pg (.saveTree rootId treeData)).2 = true ∧
      SameAnswers (json.apply (.saveTree rootId treeData)) (PostgresSessionStore.apply pg (.saveTree rootId treeData)).1) ↔
      Meets json (.saveTree rootId treeData) := by
  obtain ⟨trees, mapping⟩ := (sameAnswers_iff json pg).mp same
  let cleared := (pg.upsertParent rootId treeData).keepChildren fun _ key => key ≠ rootId
  have there : (cleared.parents.get? rootId).isSome = true := by simp [cleared, Tables.keepChildren, Tables.upsertParent]
  obtain ⟨ok, parents, children⟩ := cleared.script_upsertChildren treeData.nodes.keys there
  have ran : PostgresSessionStore.apply pg (.saveTree rootId treeData) =
      cleared.script (treeData.nodes.keys.map fun nodeId => .upsertChild nodeId rootId) := rfl
  rw [ran, and_iff_right ok, sameAnswers_iff, parents]
  have saved (other : Id) : (json.apply (.saveTree rootId treeData)).trees.get? other = cleared.parents.get? other :=
    Dict.Same.set trees rootId treeData other
  rw [and_iff_right saved]
  refine forall_congr' fun nodeId => ?_
  have left : (json.apply (.saveTree rootId treeData)).nodeToTree.get? nodeId =
      if nodeId ∈ treeData.nodes.keys then some rootId else pg.children.get? nodeId := by
    rw [← mapping nodeId]
    exact get?_setAll ..
  have kept : cleared.children.get? nodeId = (pg.children.get? nodeId).filter fun key => decide (key ≠ rootId) :=
    Dict.get?_filter ..
  rw [left, children, kept, mapping nodeId]
  by_cases member : nodeId ∈ treeData.nodes.keys
  · simp [member]
  · cases found : pg.children.get? nodeId with
    | none => simp [member]
    | some other => by_cases here : other = rootId <;> simp [member, here, Option.filter_some]

theorem removeNodeMappings_iff (same : SameAnswers json pg) (nodeIds : List Id) :
    ((PostgresSessionStore.apply pg (.removeNodeMappings nodeIds)).2 = true ∧
      SameAnswers (json.apply (.removeNodeMappings nodeIds))
        (PostgresSessionStore.apply pg (.removeNodeMappings nodeIds)).1) ↔
      Meets json (.removeNodeMappings nodeIds) := by
  obtain ⟨trees, mapping⟩ := (sameAnswers_iff json pg).mp same
  refine iff_of_true ?_ trivial
  by_cases none' : nodeIds = []
  · subst none'
    exact ⟨rfl, same⟩
  · have ran : PostgresSessionStore.apply pg (.removeNodeMappings nodeIds) =
        (pg.keepChildren fun nodeId _ => nodeId ∉ nodeIds, true) := by
      rw [PostgresSessionStore.apply, PostgresSessionStore.statements, if_neg none']
      rfl
    rw [ran]
    refine ⟨rfl, (sameAnswers_iff ..).mpr ⟨trees, fun nodeId => ?_⟩⟩
    have left : (json.apply (.removeNodeMappings nodeIds)).nodeToTree.get? nodeId =
        if nodeId ∈ nodeIds then none else json.nodeToTree.get? nodeId := get?_popAll ..
    have kept : (pg.keepChildren fun nodeId _ => nodeId ∉ nodeIds).children.get? nodeId =
        (pg.children.get? nodeId).filter fun _ => decide (nodeId ∉ nodeIds) := Dict.get?_filter ..
    rw [left, kept, mapping nodeId]
    cases found : pg.children.get? nodeId with
    | none => simp
    | some other => by_cases member : nodeId ∈ nodeIds <;> simp [member, Option.filter_some]

theorem removeTree_iff (same : SameAnswers json pg) (rootId : Id) :
    ((PostgresSessionStore.apply pg (.removeTree rootId)).2 = true ∧
      SameAnswers (json.apply (.removeTree rootId)) (PostgresSessionStore.apply pg (.removeTree rootId)).1) ↔
      Meets json (.removeTree rootId) := by
  obtain ⟨trees, mapping⟩ := (sameAnswers_iff json pg).mp same
  have ran : PostgresSessionStore.apply pg (.removeTree rootId) = (pg.deleteParent rootId, true) := rfl
  have parents (other : Id) : (pg.deleteParent rootId).parents.get? other =
      if other = rootId then none else pg.parents.get? other := Dict.get?_erase ..
  have children (nodeId : Id) : (pg.deleteParent rootId).children.get? nodeId =
      (pg.children.get? nodeId).filter fun key => decide (key ≠ rootId) := Dict.get?_filter ..
  rw [ran, and_iff_right rfl, sameAnswers_iff]
  cases stored : json.trees.get? rootId with
  | none =>
    have left : json.apply (.removeTree rootId) = json := by
      simp only [SessionStore.apply, SessionStore.removeTree, stored]
    rw [left]
    refine iff_of_true ⟨fun other => ?_, fun nodeId => ?_⟩ (by simp [Meets, stored])
    · rw [parents, trees]
      split
      · rename_i here
        rw [here, ← trees, stored]
      · rfl
    · rw [children, mapping]
      cases found : pg.children.get? nodeId with
      | none => rfl
      | some other =>
        have there := pg.references nodeId other found
        have differ : other ≠ rootId := by
          rintro rfl
          rw [← trees, stored] at there
          cases there
        simp [differ, Option.filter_some]
  | some treeData =>
    have left : json.apply (.removeTree rootId) =
        SessionStore.popMappings { json with trees := json.trees.erase rootId } treeData.nodes.keys := by
      simp only [SessionStore.apply, SessionStore.removeTree, stored]
    have erased (other : Id) : (json.apply (.removeTree rootId)).trees.get? other =
        (pg.deleteParent rootId).parents.get? other := by
      rw [left, parents, ← trees]
      exact Dict.get?_erase ..
    rw [and_iff_right erased]
    have condition : Meets json (.removeTree rootId) ↔ ∀ nodeId other, json.nodeToTree.get? nodeId = some other →
        (nodeId ∈ treeData.nodes.keys ↔ other = rootId) := by simp [Meets, stored]
    rw [condition]
    refine forall_congr' fun nodeId => ?_
    have popped : (json.apply (.removeTree rootId)).nodeToTree.get? nodeId =
        if nodeId ∈ treeData.nodes.keys then none else json.nodeToTree.get? nodeId := by
      rw [left]
      exact get?_popAll ..
    rw [popped, children, mapping]
    cases found : pg.children.get? nodeId with
    | none => simp
    | some other =>
      by_cases member : nodeId ∈ treeData.nodes.keys <;> by_cases here : other = rootId <;>
        simp [member, here, Option.filter_some]

theorem payloadChanged_iff (same : SameAnswers json pg) (rootId : Id) (treeData : TreeData Id Node) :
    ((PostgresSessionStore.apply pg (.payloadChanged rootId treeData)).2 = true ∧
      SameAnswers (json.apply (.payloadChanged rootId treeData))
        (PostgresSessionStore.apply pg (.payloadChanged rootId treeData)).1) ↔
      Meets json (.payloadChanged rootId treeData) := by
  obtain ⟨trees, mapping⟩ := (sameAnswers_iff json pg).mp same
  have ran : PostgresSessionStore.apply pg (.payloadChanged rootId treeData) = (pg, true) := rfl
  rw [ran, and_iff_right rfl, sameAnswers_iff]
  cases stored : json.trees.get? rootId with
  | none =>
    have left : json.apply (.payloadChanged rootId treeData) = json := by
      simp [SessionStore.apply, SessionStore.payloadChanged, Dict.contains, stored]
    rw [left]
    exact iff_of_true ⟨trees, mapping⟩ (by simp [Meets, stored])
  | some saved =>
    have left : json.apply (.payloadChanged rootId treeData) = { json with trees := json.trees.set rootId treeData } := by
      simp [SessionStore.apply, SessionStore.payloadChanged, Dict.contains, stored]
    have condition : Meets json (.payloadChanged rootId treeData) ↔ treeData = saved := by simp [Meets, stored]
    rw [left, condition]
    constructor
    · rintro ⟨after, _⟩
      have here := after rootId
      rw [Dict.get?_set_self, ← trees, stored] at here
      exact Option.some.inj here
    · rintro rfl
      refine ⟨fun other => ?_, mapping⟩
      rw [Dict.get?_set, ← trees]
      split
      · rename_i here
        rw [here, stored]
      · rfl

/-- From stores with the same answers a call keeps them the same, without failing, exactly when it meets
    its condition. -/
theorem step_iff (same : SameAnswers json pg) (op : StoreOp Id Node) :
    ((PostgresSessionStore.apply pg op).2 = true ∧ SameAnswers (json.apply op) (PostgresSessionStore.apply pg op).1) ↔
      Meets json op := by
  cases op with
  | registerNode nodeId rootId => exact registerNode_iff same nodeId rootId
  | saveTree rootId treeData => exact saveTree_iff same rootId treeData
  | removeNodeMappings nodeIds => exact removeNodeMappings_iff same nodeIds
  | removeTree rootId => exact removeTree_iff same rootId
  | clearAll => exact iff_of_false (fun both => nomatch both.1) id
  | syncFromTreeData trees nodeToTree => exact iff_of_false (fun both => nomatch both.1) id
  | payloadChanged rootId treeData => exact payloadChanged_iff same rootId treeData

theorem refines_iff_from (same : SameAnswers json pg) (ops : List (StoreOp Id Node)) :
    Refines json pg ops ↔ MeetsAll json ops := by
  induction ops generalizing json pg with
  | nil => exact Iff.rfl
  | cons op rest ih =>
    rw [Refines, MeetsAll, ← and_assoc, step_iff same op]
    refine and_congr_right fun meets => ?_
    exact ih ((step_iff same op).mpr meets).2

/-- From empty stores, a run of calls shows no difference exactly when each call meets its condition. -/
theorem refines_iff_meetsAll (ops : List (StoreOp Id Node)) :
    Refines SessionStore.new Tables.empty ops ↔ MeetsAll SessionStore.new ops :=
  refines_iff_from ⟨fun _ => rfl, fun _ => rfl, fun _ => rfl⟩ ops

/-- The calls for the first message of a conversation, in the handler's order: the first one already fails. -/
theorem firstMessage_fails :
    ¬ Refines (SessionStore.new : SessionStore String Unit) Tables.empty
      [.registerNode "m1" "m1", .registerNode "s1" "m1", .saveTree "m1" ⟨"m1", Dict.empty.set "m1" ()⟩] :=
  fun refines => nomatch refines.1

end ClaudeProxy.Sessions

import ClaudeProxy.Manager.Conversations

namespace ClaudeProxy.Manager

open Kit Trees

/-- The part of a node that routing reads and writes. -/
structure Shape where
  nodeId : MessageId
  chatId : String
  statusMessageId : MessageId
  parentId : Option MessageId
  childrenIds : List MessageId

def shapeOf (node : MessageNode) : Shape :=
  ⟨node.nodeId, node.incoming.chatId, node.statusMessageId, node.parentId, node.childrenIds⟩

def Entry.shape (log : List Entry) (e : Entry) : Shape :=
  ⟨e.nodeId, e.chatId, e.statusMessageId, e.parentId, repliesTo log e⟩

theorem nodeOf_iff (log : List Entry) (e : Entry) (node : MessageNode) : NodeOf log e node ↔ shapeOf node = e.shape log := by
  constructor
  · intro same
    simp only [shapeOf, Entry.shape, same.nodeId, same.chatId, same.statusMessageId, same.parentId, same.childrenIds]
  · intro same
    simp only [shapeOf, Entry.shape, Shape.mk.injEq] at same
    exact ⟨same.1, same.2.1, same.2.2.1, same.2.2.2.1, same.2.2.2.2⟩

/-- Trees by root id, each a map from node ids. -/
abbrev Forest := MessageId → Option (MessageId → Option Shape)

/-- The forest with one more leaf, in a tree of its own where the root is new. -/
def Forest.graft (forest : Forest) (rootId : MessageId) (leaf : Shape) : Forest :=
  Function.update forest rootId (some fun nodeId =>
    if nodeId = leaf.nodeId then some leaf
    else ((forest rootId).bind fun nodes => nodes nodeId).map fun node =>
      if leaf.parentId = some nodeId then { node with childrenIds := node.childrenIds ++ [leaf.nodeId] } else node)

def entryAt (log : List Entry) (rootId nodeId : MessageId) : Option Entry :=
  log.find? fun e => e.rootId = rootId ∧ e.nodeId = nodeId

/-- The forest that the handled messages ask for. -/
def forestOf (log : List Entry) : Forest := fun rootId =>
  if log.any fun e => e.rootId = rootId then some fun nodeId => (entryAt log rootId nodeId).map (·.shape log) else none

def rootOf (log : List Entry) (msgId : MessageId) : Option MessageId := (log.find? fun e => e.names msgId).map (·.rootId)

/-- Ids name one message each, and a conversation is closed under parents. -/
structure WellFiled (log : List Entry) : Prop where
  distinct : ∀ e ∈ log, ∀ other ∈ log, ∀ msgId, e.names msgId → other.names msgId → e = other
  ownStatus : ∀ e ∈ log, e.nodeId ≠ e.statusMessageId
  roots : ∀ e ∈ log, ∃ root ∈ log, root.nodeId = e.rootId ∧ root.rootId = e.rootId
  parents : ∀ e ∈ log, ∀ parentId, e.parentId = some parentId →
    ∃ parent ∈ log, parent.nodeId = parentId ∧ parent.rootId = e.rootId

/-- A message whose ids are new, below a message of its chat or at the root of a conversation. -/
structure Fits (log : List Entry) (e : Entry) : Prop where
  fresh : ∀ other ∈ log, ∀ msgId, e.names msgId → ¬ other.names msgId
  ownStatus : e.nodeId ≠ e.statusMessageId
  below : ∀ parentId, e.parentId = some parentId →
    ∃ parent ∈ log, parent.nodeId = parentId ∧ parent.rootId = e.rootId ∧ parent.chatId = e.chatId
  root : e.parentId = none → e.rootId = e.nodeId

theorem Entry.names_nodeId (e : Entry) : e.names e.nodeId := by simp [Entry.names]

theorem Entry.names_statusMessageId (e : Entry) : e.names e.statusMessageId := by simp [Entry.names]

variable {log : List Entry} {e : Entry}

theorem WellFiled.nil : WellFiled [] where
  distinct _ member := nomatch member
  ownStatus _ member := nomatch member
  roots _ member := nomatch member
  parents _ member := nomatch member

theorem WellFiled.append (filed : WellFiled log) (fits : Fits log e) : WellFiled (log ++ [e]) := by
  have split : ∀ other, other ∈ log ++ [e] ↔ other ∈ log ∨ other = e := by simp
  constructor
  · intro left inLeft right inRight msgId leftNames rightNames
    rcases (split left).mp inLeft with oldLeft | newLeft
    · rcases (split right).mp inRight with oldRight | rfl
      · exact filed.distinct left oldLeft right oldRight msgId leftNames rightNames
      · exact absurd leftNames (fits.fresh left oldLeft msgId rightNames)
    · rcases (split right).mp inRight with oldRight | newRight
      · exact absurd rightNames (fits.fresh right oldRight msgId (newLeft ▸ leftNames))
      · rw [newLeft, newRight]
  · intro other member
    rcases (split other).mp member with member | rfl
    · exact filed.ownStatus other member
    · exact fits.ownStatus
  · intro other member
    rcases (split other).mp member with member | rfl
    · obtain ⟨root, there, rest⟩ := filed.roots other member
      exact ⟨root, (split root).mpr (.inl there), rest⟩
    · cases parent : other.parentId with
      | none => exact ⟨other, member, (fits.root parent).symm, rfl⟩
      | some parentId =>
        obtain ⟨above, inLog, _, sameRoot, _⟩ := fits.below parentId parent
        obtain ⟨root, there, rest⟩ := filed.roots above inLog
        exact ⟨root, (split root).mpr (.inl there), sameRoot ▸ rest⟩
  · intro other member parentId parent
    rcases (split other).mp member with member | rfl
    · obtain ⟨above, there, rest⟩ := filed.parents other member parentId parent
      exact ⟨above, (split above).mpr (.inl there), rest⟩
    · obtain ⟨above, there, own, sameRoot, _⟩ := fits.below parentId parent
      exact ⟨above, (split above).mpr (.inl there), own, sameRoot⟩

theorem entryAt_eq_some {rootId nodeId : MessageId} (found : entryAt log rootId nodeId = some e) :
    e ∈ log ∧ e.rootId = rootId ∧ e.nodeId = nodeId := by
  obtain ⟨same, _⟩ := List.find?_eq_some_iff_append.mp found
  exact ⟨List.mem_of_find?_eq_some found, by simpa using same⟩

theorem WellFiled.entryAt (filed : WellFiled log) (member : e ∈ log) : entryAt log e.rootId e.nodeId = some e := by
  cases found : Manager.entryAt log e.rootId e.nodeId with
  | none =>
    have absent := List.find?_eq_none.mp found e member
    simp at absent
  | some other =>
    obtain ⟨there, _, own⟩ := entryAt_eq_some found
    have same := filed.distinct e member other there e.nodeId e.names_nodeId (own ▸ other.names_nodeId)
    rw [same]

theorem WellFiled.rootOf (filed : WellFiled log) (member : e ∈ log) {msgId : MessageId} (names : e.names msgId) :
    log.find? (fun e => e.names msgId) = some e := by
  cases found : log.find? fun e => e.names msgId with
  | none => exact absurd names (by simpa using List.find?_eq_none.mp found e member)
  | some other =>
    have there := List.mem_of_find?_eq_some found
    have also : other.names msgId := List.find?_some (p := fun e : Entry => e.names msgId) found
    rw [filed.distinct e member other there msgId names also]

theorem rootOf_append (fits : Fits log e) (msgId : MessageId) :
    rootOf (log ++ [e]) msgId = if e.names msgId then some e.rootId else rootOf log msgId := by
  unfold rootOf
  rw [List.find?_append]
  by_cases names : e.names msgId
  · have absent : log.find? (fun e => e.names msgId) = none := by
      apply List.find?_eq_none.mpr
      exact fun other member => fits.fresh other member msgId names
    simp [absent, names]
  · simp [names]

theorem repliesTo_append (e other : Entry) :
    repliesTo (log ++ [e]) other = if e.chatId = other.chatId ∧ e.parentId = some other.nodeId
      then repliesTo log other ++ [e.nodeId] else repliesTo log other := by
  unfold repliesTo
  by_cases here : e.chatId = other.chatId ∧ e.parentId = some other.nodeId
  · simp [List.filter_append, here]
  · simp [List.filter_append, here]

theorem repliesTo_self (filed : WellFiled log) (fits : Fits log e) : repliesTo (log ++ [e]) e = [] := by
  have notOwn : e.parentId ≠ some e.nodeId := by
    intro own
    obtain ⟨parent, there, same, _⟩ := fits.below _ own
    exact fits.fresh parent there e.nodeId e.names_nodeId (same ▸ parent.names_nodeId)
  rw [repliesTo_append, if_neg fun both => notOwn both.2, repliesTo, List.map_eq_nil_iff, List.filter_eq_nil_iff]
  intro other member both
  obtain ⟨parent, there, same, _⟩ := filed.parents other member e.nodeId (by simpa using (of_decide_eq_true both).2)
  exact fits.fresh parent there e.nodeId e.names_nodeId (same ▸ parent.names_nodeId)

theorem entryAt_append (fits : Fits log e) (rootId nodeId : MessageId) : entryAt (log ++ [e]) rootId nodeId =
    if e.rootId = rootId ∧ e.nodeId = nodeId then some e else entryAt log rootId nodeId := by
  unfold entryAt
  rw [List.find?_append]
  by_cases here : e.rootId = rootId ∧ e.nodeId = nodeId
  · have absent : log.find? (fun e => e.rootId = rootId ∧ e.nodeId = nodeId) = none := by
      apply List.find?_eq_none.mpr
      intro other member both
      have own : other.nodeId = e.nodeId := (of_decide_eq_true both).2.trans here.2.symm
      exact fits.fresh other member e.nodeId e.names_nodeId (own ▸ other.names_nodeId)
    rw [absent, if_pos here, Option.none_or, List.find?_singleton, if_pos (decide_eq_true here)]
  · simp [here]

theorem forestOf_bind (log : List Entry) (rootId nodeId : MessageId) :
    ((forestOf log rootId).bind fun nodes => nodes nodeId) = (entryAt log rootId nodeId).map (·.shape log) := by
  unfold forestOf
  split
  · rfl
  · rename_i absent
    cases found : entryAt log rootId nodeId with
    | none => rfl
    | some e =>
      obtain ⟨member, same, _⟩ := entryAt_eq_some found
      exact absurd (List.any_eq_true.mpr ⟨e, member, by simpa using same⟩) absent

theorem entry_of_forestOf {rootId nodeId : MessageId} {nodes : MessageId → Option Shape} {node : Shape}
    (tree : forestOf log rootId = some nodes) (found : nodes nodeId = some node) :
    ∃ e ∈ log, e.rootId = rootId ∧ e.nodeId = nodeId ∧ node = e.shape log := by
  have bound := forestOf_bind log rootId nodeId
  rw [tree, Option.bind_some, found] at bound
  obtain ⟨e, at', same⟩ := Option.map_eq_some_iff.mp bound.symm
  obtain ⟨member, root, own⟩ := entryAt_eq_some at'
  exact ⟨e, member, root, own, same.symm⟩

theorem node_of_forestOf (filed : WellFiled log) (member : e ∈ log) :
    ∃ nodes, forestOf log e.rootId = some nodes ∧ nodes e.nodeId = some (e.shape log) := by
  have there : log.any (fun other => other.rootId = e.rootId) = true := List.any_eq_true.mpr ⟨e, member, by simp⟩
  refine ⟨_, if_pos there, ?_⟩
  rw [filed.entryAt member, Option.map_some]

theorem rootOf_of_node (filed : WellFiled log) {rootId nodeId : MessageId} {nodes : MessageId → Option Shape}
    (tree : forestOf log rootId = some nodes) (found : (nodes nodeId).isSome) : rootOf log nodeId = some rootId := by
  obtain ⟨node, found⟩ := Option.isSome_iff_exists.mp found
  obtain ⟨e, member, root, own, _⟩ := entry_of_forestOf tree found
  rw [rootOf, filed.rootOf member (own ▸ e.names_nodeId), Option.map_some, root]

theorem shape_append (filed : WellFiled log) (fits : Fits log e) {other : Entry} (member : other ∈ log) :
    other.shape (log ++ [e]) = if e.parentId = some other.nodeId
      then { other.shape log with childrenIds := repliesTo log other ++ [e.nodeId] } else other.shape log := by
  unfold Entry.shape
  rw [repliesTo_append]
  by_cases below : e.parentId = some other.nodeId
  · obtain ⟨parent, there, same, _, chat⟩ := fits.below _ below
    have isParent : parent = other :=
      filed.distinct parent there other member other.nodeId (same ▸ parent.names_nodeId) other.names_nodeId
    rw [if_pos below, if_pos ⟨(isParent ▸ chat).symm, below⟩]
  · rw [if_neg below, if_neg fun both => below both.2]

theorem forestOf_append (filed : WellFiled log) (fits : Fits log e) :
    forestOf (log ++ [e]) = (forestOf log).graft e.rootId ⟨e.nodeId, e.chatId, e.statusMessageId, e.parentId, []⟩ := by
  funext rootId
  unfold Forest.graft Function.update
  by_cases own : rootId = e.rootId
  · subst own
    have there : (log ++ [e]).any (fun other => other.rootId = e.rootId) = true := by simp
    rw [forestOf, if_pos there, dif_pos rfl]
    congr 1
    funext nodeId
    rw [entryAt_append fits, forestOf_bind]
    by_cases leaf : nodeId = e.nodeId
    · rw [if_pos ⟨rfl, leaf.symm⟩, if_pos leaf, Option.map_some, Entry.shape, repliesTo_self filed fits]
    · rw [if_neg fun both => leaf both.2.symm, if_neg leaf]
      cases found : entryAt log e.rootId nodeId with
      | none => rfl
      | some other =>
        obtain ⟨member, _, same⟩ := entryAt_eq_some found
        rw [Option.map_some, Option.map_some, Option.map_some, shape_append filed fits member, same]
        rfl
  · have same : (log ++ [e]).any (fun other => other.rootId = rootId) = log.any fun other => other.rootId = rootId := by
      simp [Ne.symm own]
    rw [dif_neg own, forestOf, forestOf, same]
    congr 2
    funext nodeId
    rw [entryAt_append fits, if_neg fun both => own both.1.symm]
    cases found : entryAt log rootId nodeId with
    | none => rfl
    | some other =>
      obtain ⟨member, sameRoot, _⟩ := entryAt_eq_some found
      have notBelow : e.parentId ≠ some other.nodeId := by
        intro below
        obtain ⟨parent, there, named, root, _⟩ := fits.below _ below
        have isParent : parent = other :=
          filed.distinct parent there other member other.nodeId (named ▸ parent.names_nodeId) other.names_nodeId
        exact own (sameRoot.symm.trans (isParent ▸ root))
      rw [Option.map_some, Option.map_some, shape_append filed fits member, if_neg notBelow]

end ClaudeProxy.Manager

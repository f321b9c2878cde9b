import ClaudeProxy.Kit.Machine
import ClaudeProxy.Manager.Filing
import ClaudeProxy.Manager.TreeStructure

namespace ClaudeProxy.Manager

open Kit Sessions Trees

/-- A started handler. The code keeps no record of the nodes it has added or updated, each with its tree. -/
structure StartedHandler where
  repository : TreeRepository MessageTree
  touched : List (MessageId × MessageId)

/-- The start-up of the platforms over one store. `savedNodeMap` is one object, the map of every restored repository. The
last two fields are no record of the code: the trees that handlers have saved, and the nodes they had added or updated in
them as they were saved last. -/
structure StartUp where
  savedTrees : Dict MessageId SavedTree
  savedNodeMap : Dict MessageId MessageId
  store : SessionStore MessageId MessageNode
  handlers : List StartedHandler
  saved : List MessageId
  written : Dict (MessageId × MessageId) MessageNode

inductive StartUpStep where
  | start (now : Timestamp)
  | createTree (i : Nat) (nodeId : MessageId) (incoming : IncomingMessage) (statusMessageId : MessageId) (now : Timestamp)
  | addNode (i : Nat) (rootId parentNodeId nodeId : MessageId) (incoming : IncomingMessage) (statusMessageId : MessageId)
      (now : Timestamp)
  | registerNode (i : Nat) (nodeId rootId : MessageId)
  | recordNode (nodeId rootId : MessageId)
  | updateState (i : Nat) (rootId nodeId : MessageId) (state : MessageState) (sessionId errorMessage : Option String)
      (now : Timestamp)
  | setNodeError (i : Nat) (rootId nodeId : MessageId) (errorMessage : String) (now : Timestamp)
  | save (i : Nat) (rootId : MessageId)

/-- The payload of a tree shares its lists of children with the live tree, so they are not part of what was saved. -/
def bare (node : MessageNode) : MessageNode := { node with childrenIds := [] }

namespace StartUp

def begun (store : SessionStore MessageId MessageNode) : StartUp :=
  ⟨store.getAllTrees, store.getNodeMapping, store, [], [], .empty⟩

/-- A platform is started. An exception of `from_dict` ends the start-up of all that follow, with the store as it is. -/
def start (s : StartUp) (now : Timestamp) : StartUp :=
  if s.savedTrees.entries = [] then { s with handlers := s.handlers ++ [⟨.new, []⟩] }
  else
    match TreeRepository.fromDict s.savedTrees s.savedNodeMap with
    | none => s
    | some repository =>
      let (stale, repository) := repository.cleanupStaleNodes now
      { s with
        handlers := s.handlers ++ [⟨repository, []⟩]
        store := if stale > 0 then ⟨repository.savedTrees, s.savedNodeMap⟩ else s.store }

def setHandler (s : StartUp) (i : Nat) (h : StartedHandler) : StartUp := { s with handlers := s.handlers.set i h }

/-- `register_node` of a manager: its own map where nothing was restored, else the one that all of them share. -/
def registerNode (s : StartUp) (i : Nat) (nodeId rootId : MessageId) : StartUp :=
  if s.savedTrees.entries = [] then
    { s with handlers := s.handlers.modify i fun h => { h with repository := h.repository.registerNode nodeId rootId } }
  else { s with savedNodeMap := s.savedNodeMap.set nodeId rootId }

def recordNode (s : StartUp) (nodeId rootId : MessageId) : StartUp := { s with store := s.store.registerNode nodeId rootId }

def record (tree : MessageTree) (nodeIds : List MessageId) (written : Dict (MessageId × MessageId) MessageNode) :
    Dict (MessageId × MessageId) MessageNode :=
  nodeIds.foldl (fun written nodeId =>
    (tree.getNode nodeId).elim written fun node => written.set (tree.rootId, nodeId) (bare node)) written

def touchedIn (touched : List (MessageId × MessageId)) (rootId : MessageId) : List MessageId :=
  (touched.filter fun pair => pair.1 = rootId).map Prod.snd

/-- `save_tree`; `nodeIds` are those nodes of the tree that its handler has added or updated. -/
def save (s : StartUp) (tree : MessageTree) (nodeIds : List MessageId) : StartUp :=
  { s with
    store := s.store.saveTree tree.rootId (toDict tree)
    saved := tree.rootId :: s.saved
    written := record tree nodeIds s.written }

/-- `create_tree`, the registrations and the save; there is no await between them. -/
def createTree (s : StartUp) (i : Nat) (h : StartedHandler) (nodeId : MessageId) (incoming : IncomingMessage)
    (statusMessageId : MessageId) (now : Timestamp) : StartUp :=
  let (tree, _) := h.repository.createTree nodeId incoming statusMessageId now
  let trees := h.repository.trees.set nodeId tree
  let s := s.setHandler i ⟨{ h.repository with trees := trees }, (nodeId, nodeId) :: h.touched.filter (·.1 ≠ nodeId)⟩
  let s := (s.registerNode i nodeId nodeId).registerNode i statusMessageId nodeId
  ((s.recordNode nodeId nodeId).recordNode statusMessageId nodeId).save tree [nodeId]

def onTree (s : StartUp) (i : Nat) (rootId nodeId : MessageId) (change : MessageTree → Option MessageTree) :
    Option StartUp := do
  let h ← s.handlers[i]?
  let tree ← h.repository.getTree rootId
  let after ← change tree
  let touched := if after.hasNode nodeId then (rootId, nodeId) :: h.touched else h.touched
  return s.setHandler i ⟨{ h.repository with trees := h.repository.trees.set rootId after }, touched⟩

def step (s : StartUp) : StartUpStep → Option StartUp
  | .start now => some (s.start now)
  | .createTree i nodeId incoming statusMessageId now =>
    s.handlers[i]?.map fun h => s.createTree i h nodeId incoming statusMessageId now
  | .addNode i rootId parentNodeId nodeId incoming statusMessageId now =>
    (s.onTree i rootId nodeId fun tree => tree.addNode nodeId incoming statusMessageId parentNodeId now).map
      fun s => s.registerNode i nodeId rootId
  | .registerNode i nodeId rootId => some (s.registerNode i nodeId rootId)
  | .recordNode nodeId rootId => some (s.recordNode nodeId rootId)
  | .updateState i rootId nodeId state sessionId errorMessage now =>
    s.onTree i rootId nodeId fun tree => some (tree.updateState nodeId state sessionId errorMessage now)
  | .setNodeError i rootId nodeId errorMessage now =>
    s.onTree i rootId nodeId fun tree => some (tree.setNodeErrorSync nodeId errorMessage now)
  | .save i rootId => do
    let h ← s.handlers[i]?
    let tree ← h.repository.getTree rootId
    return s.save tree (touchedIn h.touched rootId)

def machine (store : SessionStore MessageId MessageNode) : Machine StartUp StartUpStep := ⟨begun store, step⟩

/-- The store still has every tree it held at the beginning or that was saved since, and every node that was added or
updated since is in the state in which it was saved last. -/
structure Preserved (store : SessionStore MessageId MessageNode) (s : StartUp) : Prop where
  trees : ∀ rootId, store.trees.contains rootId = true ∨ rootId ∈ s.saved → s.store.trees.contains rootId = true
  nodes : ∀ rootId nodeId node, s.written.get? (rootId, nodeId) = some node →
    ((s.store.getTree rootId).bind fun data => data.nodes.get? nodeId).map bare = some node

/-- The nodes of the tree that were saved since are in it, updated by its own handler or as they were saved. -/
def covers (s : StartUp) (tree : MessageTree) (nodeIds : List MessageId) : Bool :=
  s.written.entries.all fun entry =>
    entry.1.1 ≠ tree.rootId ∨ entry.1.2 ∈ nodeIds ∨ (tree.getNode entry.1.2).map bare = some entry.2

/-- A start finds no stale node, or comes before all saves; and no save is of a copy that misses what another handler has
saved. -/
def meets (s : StartUp) : StartUpStep → Bool
  | .start _ => s.saved = [] ∨ s.savedTrees.values.all fun data => data.nodes.values.all fun node => ¬ isStale node
  | .createTree _ nodeId incoming statusMessageId now =>
    s.covers (.new (.new nodeId incoming statusMessageId none now)) [nodeId]
  | .save i rootId => s.handlers[i]?.all fun h => (h.repository.getTree rootId).all fun tree =>
    s.covers tree (touchedIn h.touched rootId)
  | _ => true

end StartUp

end ClaudeProxy.Manager

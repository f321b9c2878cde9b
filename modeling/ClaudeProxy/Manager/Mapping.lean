import ClaudeProxy.Kit.Machine
import ClaudeProxy.Manager.MessageHandler
import ClaudeProxy.Manager.Restorable
import ClaudeProxy.Manager.TreeStructure

namespace ClaudeProxy.Manager

open Kit Trees

/-- A call of `add_to_tree` that has found its tree. -/
structure Addition where
  ref : Ref
  parentNodeId : MessageId
  incoming : IncomingMessage
  statusMessageId : MessageId
deriving DecidableEq

/-- The tree objects, the maps of the repository, and the calls that are half done: those of `add_to_tree` under their
node ids before and after `add_node`, those of `remove_branch` with the tree they have found. The last three fields are
no record of the code: the status ids of the calls that have returned with their trees, those that were registered, and
all the ids that were used. -/
structure Mapping where
  heap : List MessageTree
  repository : TreeRepository Ref
  adding : Dict MessageId Addition
  registering : Dict MessageId Addition
  removing : List (Ref × MessageId)
  returned : List (MessageId × MessageId)
  registered : List MessageId
  issued : List (MessageId × MessageId)

inductive MappingStep where
  | createTree (nodeId : MessageId) (incoming : IncomingMessage) (statusMessageId : MessageId) (now : Timestamp)
  | addToTree (parentNodeId nodeId : MessageId) (incoming : IncomingMessage) (statusMessageId : MessageId)
  | addNode (nodeId : MessageId) (now : Timestamp)
  | added (nodeId : MessageId)
  | registerNode (statusMessageId rootId : MessageId)
  | removeBranch (branchRootId : MessageId)
  | remove (index : Nat)
  | removeTree (rootId : MessageId)
  | updateState (ref : Ref) (nodeId : MessageId) (state : MessageState) (sessionId errorMessage : Option String)
      (now : Timestamp)
  | setNodeError (ref : Ref) (nodeId : MessageId) (errorMessage : String) (now : Timestamp)

namespace Mapping

def initial : Mapping := ⟨[], .new, .empty, .empty, [], [], [], []⟩

def liveTree (s : Mapping) (rootId : MessageId) : Option MessageTree := (s.repository.getTree rootId).bind (s.heap[·]?)

def Unused (s : Mapping) (nodeId statusMessageId : MessageId) : Prop :=
  nodeId ≠ statusMessageId ∧ ∀ pair ∈ s.issued, ∀ id ∈ [nodeId, statusMessageId], id ≠ pair.1 ∧ id ≠ pair.2

instance (s : Mapping) (nodeId statusMessageId : MessageId) : Decidable (s.Unused nodeId statusMessageId) :=
  inferInstanceAs (Decidable (_ ∧ _))

def createTree (s : Mapping) (nodeId : MessageId) (incoming : IncomingMessage) (statusMessageId : MessageId)
    (now : Timestamp) : Mapping :=
  { s with
    heap := s.heap ++ [.new (.new nodeId incoming statusMessageId none now)]
    repository := s.repository.addTree nodeId s.heap.length
    returned := (statusMessageId, nodeId) :: s.returned
    issued := (nodeId, statusMessageId) :: s.issued }

/-- The lookup; without a tree it is the `ValueError`. -/
def addToTree (s : Mapping) (parentNodeId nodeId : MessageId) (incoming : IncomingMessage) (statusMessageId : MessageId) :
    Mapping :=
  let s := { s with issued := (nodeId, statusMessageId) :: s.issued }
  match s.repository.getTreeForNode parentNodeId with
  | none => s
  | some ref => { s with adding := s.adding.set nodeId ⟨ref, parentNodeId, incoming, statusMessageId⟩ }

def addNode (s : Mapping) (nodeId : MessageId) (a : Addition) (now : Timestamp) : Mapping :=
  let s := { s with adding := s.adding.erase nodeId }
  match s.heap[a.ref]?.bind fun tree => tree.addNode nodeId a.incoming a.statusMessageId a.parentNodeId now with
  | none => s
  | some tree => { s with heap := s.heap.set a.ref tree, registering := s.registering.set nodeId a }

def added (s : Mapping) (nodeId : MessageId) (a : Addition) (rootId : MessageId) : Mapping :=
  { s with
    repository := s.repository.registerNode nodeId rootId
    registering := s.registering.erase nodeId
    returned := (a.statusMessageId, rootId) :: s.returned }

def registerNode (s : Mapping) (statusMessageId rootId : MessageId) : Mapping :=
  { s with repository := s.repository.registerNode statusMessageId rootId, registered := statusMessageId :: s.registered }

def removeTree (s : Mapping) (rootId : MessageId) : Mapping :=
  match s.liveTree rootId with
  | none => s
  | some tree => { s with repository := s.repository.removeTree rootId (tree.allNodes.map (·.nodeId)) }

/-- There is no await between the branch and its mappings. A `KeyError` of the loop that deletes the nodes ends the call. -/
def prune (s : Mapping) (ref : Ref) (tree : MessageTree) (branchRootId : MessageId) : Mapping :=
  let s := { s with heap := s.heap.set ref (tree.removeBranch branchRootId).2 }
  if (MessageTree.removeNodes (tree.getDescendants branchRootId) tree).2.2 = false then s
  else { s with repository := s.repository.unregisterNodes ((tree.removeBranch branchRootId).1.map (·.nodeId)) }

/-- `remove_branch` after its first await. -/
def remove (s : Mapping) (ref : Ref) (branchRootId : MessageId) : Mapping :=
  match s.heap[ref]? with
  | none => s
  | some tree => if branchRootId = tree.rootId then s.removeTree tree.rootId else s.prune ref tree branchRootId

def onTree (s : Mapping) (ref : Ref) (change : MessageTree → MessageTree) : Mapping :=
  { s with heap := s.heap.modify ref change }

/-- No id is used twice, and a status id is registered only after its call has returned. -/
def step (s : Mapping) : MappingStep → Option Mapping
  | .createTree nodeId incoming statusMessageId now =>
    if s.Unused nodeId statusMessageId then some (s.createTree nodeId incoming statusMessageId now) else none
  | .addToTree parentNodeId nodeId incoming statusMessageId =>
    if s.Unused nodeId statusMessageId then some (s.addToTree parentNodeId nodeId incoming statusMessageId) else none
  | .addNode nodeId now => (s.adding.get? nodeId).map fun a => s.addNode nodeId a now
  | .added nodeId => do
    let a ← s.registering.get? nodeId
    let tree ← s.heap[a.ref]?
    return s.added nodeId a tree.rootId
  | .registerNode statusMessageId rootId =>
    if (statusMessageId, rootId) ∈ s.returned then some (s.registerNode statusMessageId rootId) else none
  | .removeBranch branchRootId =>
    some { s with removing := s.removing ++ ((s.repository.getTreeForNode branchRootId).map (·, branchRootId)).toList }
  | .remove index =>
    s.removing[index]?.map fun call => { s with removing := s.removing.eraseIdx index }.remove call.1 call.2
  | .removeTree rootId => some (s.removeTree rootId)
  | .updateState ref nodeId state sessionId errorMessage now =>
    some (s.onTree ref fun tree => tree.updateState nodeId state sessionId errorMessage now)
  | .setNodeError ref nodeId errorMessage now =>
    some (s.onTree ref fun tree => tree.setNodeErrorSync nodeId errorMessage now)

def machine : Machine Mapping MappingStep := ⟨initial, step⟩

def Settled (s : Mapping) : Prop := s.adding.entries = [] ∧ s.registering.entries = [] ∧ s.removing = []

/-- Every mapping leads to a live tree that has the message, and no message of a live tree is missing. -/
structure Intact (s : Mapping) : Prop where
  mapped : ∀ key rootId, s.repository.nodeToTree.get? key = some rootId → ∃ tree nodeId node,
    s.liveTree rootId = some tree ∧ tree.getNode nodeId = some node ∧ (key = nodeId ∨ key = node.statusMessageId)
  listed : ∀ rootId tree nodeId node, s.liveTree rootId = some tree → tree.getNode nodeId = some node →
    s.repository.nodeToTree.get? nodeId = some rootId ∧
      (node.statusMessageId ∈ s.registered → s.repository.nodeToTree.get? node.statusMessageId = some rootId)

def unregistered (s : Mapping) (tree : MessageTree) (nodeIds : List MessageId) : Bool :=
  nodeIds.all fun nodeId => (tree.getNode nodeId).all fun node => ¬ s.repository.hasNode node.statusMessageId

def removable (s : Mapping) (rootId : MessageId) : Bool :=
  (s.liveTree rootId).all fun tree => s.unregistered tree tree.nodes.keys

/-- What is removed has no status message in the map, and what is registered is still in its live tree. -/
def meets (s : Mapping) : MappingStep → Bool
  | .added nodeId => (s.registering.get? nodeId).all fun a => s.heap[a.ref]?.all fun tree =>
    (s.liveTree tree.rootId).any (·.hasNode nodeId)
  | .registerNode statusMessageId rootId =>
    (s.liveTree rootId).any fun tree => (tree.findNodeByStatusMessage statusMessageId).isSome
  | .remove index => s.removing[index]?.all fun call => s.heap[call.1]?.all fun tree =>
    if call.2 = tree.rootId then s.removable tree.rootId else s.unregistered tree (tree.getDescendants call.2)
  | .removeTree rootId => s.removable rootId
  | _ => true

end Mapping

end ClaudeProxy.Manager

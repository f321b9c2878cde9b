import ClaudeProxy.Sessions.Store
import ClaudeProxy.Trees.Data

namespace ClaudeProxy.Manager

open Kit Sessions Trees

/-- The maps of `TreeRepository`; `τ` stands for the tree objects. -/
structure TreeRepository (τ : Type) where
  trees : Dict MessageId τ
  nodeToTree : Dict MessageId MessageId

namespace TreeRepository

variable {τ : Type}

def new : TreeRepository τ := ⟨.empty, .empty⟩

def getTree (repo : TreeRepository τ) (rootId : MessageId) : Option τ := repo.trees.get? rootId

def getTreeForNode (repo : TreeRepository τ) (nodeId : MessageId) : Option τ :=
  (repo.nodeToTree.get? nodeId).bind repo.getTree

def addTree (repo : TreeRepository τ) (rootId : MessageId) (tree : τ) : TreeRepository τ where
  trees := repo.trees.set rootId tree
  nodeToTree := repo.nodeToTree.set rootId rootId

def registerNode (repo : TreeRepository τ) (nodeId rootId : MessageId) : TreeRepository τ :=
  { repo with nodeToTree := repo.nodeToTree.set nodeId rootId }

def hasNode (repo : TreeRepository τ) (nodeId : MessageId) : Bool := repo.nodeToTree.contains nodeId

def unregisterNodes (repo : TreeRepository τ) (nodeIds : List MessageId) : TreeRepository τ :=
  { repo with nodeToTree := nodeIds.foldl Dict.erase repo.nodeToTree }

/-- `nodeIds` are the nodes of the tree that is removed. -/
def removeTree (repo : TreeRepository τ) (rootId : MessageId) (nodeIds : List MessageId) : TreeRepository τ :=
  if repo.trees.contains rootId then { repo with trees := repo.trees.erase rootId }.unregisterNodes nodeIds else repo

end TreeRepository

/-- `resolve_parent_node_id` in the tree that holds the message. -/
def resolveIn (tree : MessageTree) (msgId : MessageId) : Option MessageId :=
  if tree.hasNode msgId then some msgId else (tree.findNodeByStatusMessage msgId).map (·.nodeId)

abbrev SavedTree := TreeData MessageId MessageNode

def toDict (tree : MessageTree) : SavedTree := ⟨tree.rootId, tree.nodes⟩

/-- A node after `to_dict` and `from_dict`, which do not carry the pre-sent status id. -/
def reloaded (node : MessageNode) : MessageNode :=
  { node with incoming := { node.incoming with statusMessageId := none } }

def addNodeFromDict (tree : MessageTree) (node : MessageNode) : MessageTree :=
  { tree with
    nodes := tree.nodes.set node.nodeId node
    statusToNode := tree.statusToNode.set node.statusMessageId node.nodeId }

/-- `MessageTree.from_dict`; none stands for the `KeyError` of a missing root. -/
def fromDict (data : SavedTree) : Option MessageTree :=
  (data.nodes.get? data.rootId).map fun root =>
    let others := data.nodes.entries.filter fun entry => entry.1 ≠ data.rootId
    others.foldl (fun tree entry => addNodeFromDict tree (reloaded entry.2)) (.new (reloaded root))

end ClaudeProxy.Manager

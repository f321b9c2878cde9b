import ClaudeProxy.Manager.Repository

namespace ClaudeProxy.Manager

open Kit Sessions Trees

/-- The nodes that `cleanup_stale_nodes` marks. -/
def isStale (node : MessageNode) : Bool := node.state = .pending ∨ node.state = .inProgress

def staleNodes (tree : MessageTree) : List MessageNode := tree.allNodes.filter isStale

def markStale (now : Timestamp) (tree : MessageTree) : MessageTree :=
  (staleNodes tree).foldl (fun tree node => tree.setNodeErrorSync node.nodeId "Lost during server restart" now) tree

namespace TreeRepository

variable (repo : TreeRepository MessageTree)

def resolveParentNodeId (msgId : MessageId) : Option MessageId :=
  (repo.getTreeForNode msgId).bind fun tree => resolveIn tree msgId

def createTree (nodeId : MessageId) (incoming : IncomingMessage) (statusMessageId : MessageId) (now : Timestamp) :
    MessageTree × TreeRepository MessageTree :=
  let tree := MessageTree.new (.new nodeId incoming statusMessageId none now)
  (tree, repo.addTree nodeId tree)

/-- `none` stands for the `ValueError` of an unknown parent. -/
def addToTree (parentNodeId nodeId : MessageId) (incoming : IncomingMessage) (statusMessageId : MessageId)
    (now : Timestamp) : Option (MessageTree × TreeRepository MessageTree) := do
  let rootId ← repo.nodeToTree.get? parentNodeId
  let tree ← repo.getTree rootId
  let tree ← tree.addNode nodeId incoming statusMessageId parentNodeId now
  return (tree, { repo with trees := repo.trees.set rootId tree }.registerNode nodeId tree.rootId)

def cleanupStaleNodes (now : Timestamp) : Nat × TreeRepository MessageTree where
  fst := (repo.trees.values.map fun tree => (staleNodes tree).length).sum
  snd := { repo with trees := repo.trees.mapValues fun _ tree => markStale now tree }

def savedTrees : Dict MessageId SavedTree := repo.trees.mapValues fun _ tree => toDict tree

/-- `none` stands for the `KeyError` of a tree without its root. -/
def fromDict (trees : Dict MessageId SavedTree) (nodeToTree : Dict MessageId MessageId) :
    Option (TreeRepository MessageTree) :=
  (trees.entries.foldlM (fun restored entry => (Manager.fromDict entry.2).map (restored.set entry.1)) Dict.empty).map
    fun trees => ⟨trees, nodeToTree⟩

end TreeRepository

end ClaudeProxy.Manager

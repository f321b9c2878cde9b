import ClaudeProxy.Kit.ForeignKey

namespace ClaudeProxy.Sessions

open Kit

/-- `tree.to_dict()`, over the type of a serialised node. -/
structure TreeData (Id Node : Type) where
  rootId : Id
  nodes : Dict Id Node

/-- The calls of the store. The payload of a saved tree shares its `children_ids` lists with the live
    tree: `payloadChanged` stands for a change of the lists between two calls. -/
inductive StoreOp (Id Node : Type) where
  | registerNode (nodeId rootId : Id)
  | saveTree (rootId : Id) (treeData : TreeData Id Node)
  | removeNodeMappings (nodeIds : List Id)
  | removeTree (rootId : Id)
  | clearAll
  | syncFromTreeData (trees : Dict Id (TreeData Id Node)) (nodeToTree : Dict Id Id)
  | payloadChanged (rootId : Id) (treeData : TreeData Id Node)

/-- The store in a JSON file, as far as trees and mappings go. -/
structure SessionStore (Id Node : Type) where
  trees : Dict Id (TreeData Id Node)
  nodeToTree : Dict Id Id

namespace SessionStore

variable {Id Node : Type} [DecidableEq Id]

def new : SessionStore Id Node := ⟨.empty, .empty⟩

def registerNode (s : SessionStore Id Node) (nodeId rootId : Id) : SessionStore Id Node :=
  { s with nodeToTree := s.nodeToTree.set nodeId rootId }

/-- `for node_id in ...: self._node_to_tree.pop(node_id, None)` -/
def popMappings (s : SessionStore Id Node) (nodeIds : List Id) : SessionStore Id Node :=
  { s with nodeToTree := nodeIds.foldl Dict.erase s.nodeToTree }

def saveTree (s : SessionStore Id Node) (rootId : Id) (treeData : TreeData Id Node) : SessionStore Id Node where
  trees := s.trees.set rootId treeData
  nodeToTree := treeData.nodes.keys.foldl (fun map nodeId => map.set nodeId rootId) s.nodeToTree

def removeTree (s : SessionStore Id Node) (rootId : Id) : SessionStore Id Node :=
  match s.trees.get? rootId with
  | none => s
  | some treeData => { s with trees := s.trees.erase rootId }.popMappings treeData.nodes.keys

/-- The store keeps the payload itself. -/
def payloadChanged (s : SessionStore Id Node) (rootId : Id) (treeData : TreeData Id Node) : SessionStore Id Node :=
  if s.trees.contains rootId then { s with trees := s.trees.set rootId treeData } else s

def apply (s : SessionStore Id Node) : StoreOp Id Node → SessionStore Id Node
  | .registerNode nodeId rootId => s.registerNode nodeId rootId
  | .saveTree rootId treeData => s.saveTree rootId treeData
  | .removeNodeMappings nodeIds => s.popMappings nodeIds
  | .removeTree rootId => s.removeTree rootId
  | .clearAll => new
  | .syncFromTreeData trees nodeToTree => ⟨trees, nodeToTree⟩
  | .payloadChanged rootId treeData => s.payloadChanged rootId treeData

def getAllTrees (s : SessionStore Id Node) : Dict Id (TreeData Id Node) := s.trees

def getTree (s : SessionStore Id Node) (rootId : Id) : Option (TreeData Id Node) := s.trees.get? rootId

def getNodeMapping (s : SessionStore Id Node) : Dict Id Id := s.nodeToTree

end SessionStore

/-- `fcc_session_trees` and `fcc_session_node_map`. -/
abbrev PostgresSessionStore (Id Node : Type) [DecidableEq Id] := Tables Id Id (TreeData Id Node)

namespace PostgresSessionStore

variable {Id Node : Type} [DecidableEq Id]

/-- What a call executes. `clear_all` truncates the message log first, which nothing references. -/
def statements : StoreOp Id Node → List (Statement Id Id (TreeData Id Node))
  | .registerNode nodeId rootId => [.upsertChild nodeId rootId]
  | .saveTree rootId treeData =>
    .upsertParent rootId treeData :: .deleteChildrenOf rootId ::
      treeData.nodes.keys.map fun nodeId => .upsertChild nodeId rootId
  | .removeNodeMappings nodeIds => if nodeIds = [] then [] else [.deleteChildren nodeIds]
  | .removeTree rootId => [.deleteParent rootId]
  | .clearAll => [.truncateChildren, .truncateParents]
  | .syncFromTreeData trees nodeToTree =>
    .truncateChildren :: .truncateParents ::
      ((trees.entries.map fun (rootId, treeData) => .insertParent rootId treeData) ++
        nodeToTree.entries.map fun (nodeId, rootId) => .upsertChild nodeId rootId)
  | .payloadChanged _ _ => []

/-- The tables after a call, and whether the call returned. -/
def apply (s : PostgresSessionStore Id Node) (op : StoreOp Id Node) : PostgresSessionStore Id Node × Bool :=
  s.script (statements op)

def getAllTrees (s : PostgresSessionStore Id Node) : Dict Id (TreeData Id Node) := s.parents

def getTree (s : PostgresSessionStore Id Node) (rootId : Id) : Option (TreeData Id Node) := s.parents.get? rootId

def getNodeMapping (s : PostgresSessionStore Id Node) : Dict Id Id := s.children

end PostgresSessionStore

end ClaudeProxy.Sessions

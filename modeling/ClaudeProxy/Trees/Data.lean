import Mathlib.Algebra.GroupWithZero.Nat
import ClaudeProxy.Kit.Dict
import ClaudeProxy.Trees.SnapshotQueue

namespace ClaudeProxy.Trees

open Kit

/-- The platform adapters never hand out an empty id, so `if not next_node_id` tests for `None` alone. -/
abbrev MessageId := {id : String // id ≠ ""}

/-- Named, so that membership among ids is decided by the same instance in every module. -/
instance messageIdLawful : LawfulBEq MessageId := inferInstance

/-- Microseconds; only the order of events gives them a meaning here. -/
abbrev Timestamp := Nat

abbrev TaskId := Nat

/-- The truth value of an optional string. -/
def truthy : Option String → Bool
  | none => false
  | some text => text ≠ ""

inductive MessageState where
  | pending
  | inProgress
  | completed
  | error
deriving DecidableEq

/-- The node is neither done nor given up. -/
def MessageState.isOpen (state : MessageState) : Bool := state = .pending || state = .inProgress

structure IncomingMessage where
  text : String
  chatId : String
  userId : String
  messageId : MessageId
  platform : String
  replyToMessageId : Option MessageId
  messageThreadId : Option String
  username : Option String
  statusMessageId : Option MessageId
deriving DecidableEq

structure MessageNode where
  nodeId : MessageId
  incoming : IncomingMessage
  statusMessageId : MessageId
  state : MessageState
  parentId : Option MessageId
  sessionId : Option String
  childrenIds : List MessageId
  createdAt : Timestamp
  completedAt : Option Timestamp
  errorMessage : Option String
deriving DecidableEq

def MessageNode.new (nodeId : MessageId) (incoming : IncomingMessage) (statusMessageId : MessageId)
    (parentId : Option MessageId) (now : Timestamp) : MessageNode where
  nodeId := nodeId
  incoming := incoming
  statusMessageId := statusMessageId
  state := .pending
  parentId := parentId
  sessionId := none
  childrenIds := []
  createdAt := now
  completedAt := none
  errorMessage := none

structure MessageTree where
  rootId : MessageId
  nodes : Dict MessageId MessageNode
  statusToNode : Dict MessageId MessageId
  queue : SnapshotQueue MessageId
  isProcessing : Bool
  currentNodeId : Option MessageId
  currentTask : Option TaskId
deriving DecidableEq

namespace MessageTree

def new (root : MessageNode) : MessageTree where
  rootId := root.nodeId
  nodes := Dict.empty.set root.nodeId root
  statusToNode := Dict.empty.set root.statusMessageId root.nodeId
  queue := .empty
  isProcessing := false
  currentNodeId := none
  currentTask := none

def setCurrentTask (t : MessageTree) (task : Option TaskId) : MessageTree := { t with currentTask := task }

def getNode (t : MessageTree) (nodeId : MessageId) : Option MessageNode := t.nodes.get? nodeId

def hasNode (t : MessageTree) (nodeId : MessageId) : Bool := t.nodes.contains nodeId

def allNodes (t : MessageTree) : List MessageNode := t.nodes.values

/-- Assign to attributes of the node object stored under `nodeId`. -/
def modifyNode (t : MessageTree) (nodeId : MessageId) (change : MessageNode → MessageNode) : MessageTree :=
  match t.nodes.get? nodeId with
  | none => t
  | some node => { t with nodes := t.nodes.set nodeId (change node) }

/-- `none` stands for the `ValueError` of an unknown parent. -/
def addNode (t : MessageTree) (nodeId : MessageId) (incoming : IncomingMessage)
    (statusMessageId parentId : MessageId) (now : Timestamp) : Option MessageTree :=
  if ¬ t.nodes.contains parentId then none
  else
    let node := MessageNode.new nodeId incoming statusMessageId (some parentId) now
    let t := { t with
      nodes := t.nodes.set nodeId node
      statusToNode := t.statusToNode.set statusMessageId nodeId }
    some (t.modifyNode parentId fun parent => { parent with childrenIds := parent.childrenIds ++ [nodeId] })

def getChildren (t : MessageTree) (nodeId : MessageId) : List MessageNode :=
  match t.nodes.get? nodeId with
  | none => []
  | some node => node.childrenIds.filterMap t.nodes.get?

def getParent (t : MessageTree) (nodeId : MessageId) : Option MessageNode :=
  match t.nodes.get? nodeId with
  | none => none
  | some node => node.parentId.bind t.nodes.get?

def getParentSessionId (t : MessageTree) (nodeId : MessageId) : Option String :=
  (t.getParent nodeId).bind (·.sessionId)

def updateState (t : MessageTree) (nodeId : MessageId) (state : MessageState)
    (sessionId errorMessage : Option String) (now : Timestamp) : MessageTree :=
  t.modifyNode nodeId fun node => { node with
    state := state
    sessionId := if truthy sessionId then sessionId else node.sessionId
    errorMessage := if truthy errorMessage then errorMessage else node.errorMessage
    completedAt := if state = .completed ∨ state = .error then some now else node.completedAt }

def dequeue (t : MessageTree) : Option (MessageId × MessageTree) :=
  t.queue.getNowait.map fun (nodeId, queue) => (nodeId, { t with queue := queue })

def removeFromQueue (t : MessageTree) (nodeId : MessageId) : MessageTree :=
  { t with queue := (t.queue.removeIfPresent nodeId).2 }

def setProcessingState (t : MessageTree) (nodeId : Option MessageId) (isProcessing : Bool) : MessageTree :=
  { t with isProcessing := isProcessing, currentNodeId := if isProcessing then nodeId else none }

def clearCurrentNode (t : MessageTree) : MessageTree := { t with currentNodeId := none }

def isCurrentNode (t : MessageTree) (nodeId : MessageId) : Bool := t.currentNodeId = some nodeId

def putQueueUnlocked (t : MessageTree) (nodeId : MessageId) : MessageTree :=
  { t with queue := t.queue.putNowait nodeId }

def setNodeErrorSync (t : MessageTree) (nodeId : MessageId) (errorMessage : String) (now : Timestamp) :
    MessageTree :=
  t.modifyNode nodeId fun node => { node with
    state := .error
    errorMessage := some errorMessage
    completedAt := some now }

/-- One pass of the draining loop for every queued id; the ids of the nodes found are returned. -/
def drainQueueLoop (errorMessage : String) (now : Timestamp) : Nat → MessageTree → List MessageId × MessageTree
  | 0, t => ([], t)
  | rounds + 1, t =>
    match t.queue.getNowait with
    | none => ([], t)
    | some (nodeId, queue) =>
      let t := { t with queue := queue }
      match t.getNode nodeId with
      | none => drainQueueLoop errorMessage now rounds t
      | some _ =>
        let (drained, t) := drainQueueLoop errorMessage now rounds (t.setNodeErrorSync nodeId errorMessage now)
        (nodeId :: drained, t)

def drainQueueAndMarkCancelled (t : MessageTree) (now : Timestamp) : List MessageId × MessageTree :=
  drainQueueLoop "Cancelled by user" now t.queue.qsize t

def resetProcessingState (t : MessageTree) : MessageTree :=
  { t with isProcessing := false, currentNodeId := none }

def findNodeByStatusMessage (t : MessageTree) (statusMsgId : MessageId) : Option MessageNode :=
  (t.statusToNode.get? statusMsgId).bind t.nodes.get?

/-- Every id on the stack is a start or one entry of some `children_ids`. -/
def walkBound (t : MessageTree) : Nat := 1 + (t.nodes.values.map fun node => node.childrenIds.length).sum

/-- The stack is kept with its top first. -/
def descendantsLoop (t : MessageTree) : Nat → List MessageId → List MessageId
  | 0, _ => []
  | _, [] => []
  | rounds + 1, nodeId :: stack =>
    let children := ((t.nodes.get? nodeId).map fun node => node.childrenIds).getD []
    nodeId :: t.descendantsLoop rounds (children.reverse ++ stack)

def getDescendants (t : MessageTree) (nodeId : MessageId) : List MessageId :=
  if ¬ t.nodes.contains nodeId then [] else t.descendantsLoop t.walkBound [nodeId]

/-- Pending children of the popped nodes, in the order in which the loop meets them. -/
def pendingLoop (t : MessageTree) : Nat → List MessageId → List MessageId
  | 0, _ => []
  | _, [] => []
  | rounds + 1, nodeId :: stack =>
    let children := ((t.nodes.get? nodeId).map fun node => node.childrenIds).getD []
    let found := children.filter fun child => (t.nodes.get? child).any fun node => node.state = .pending
    found ++ t.pendingLoop rounds (found.reverse ++ stack)

def getPendingChildren (t : MessageTree) (nodeId : MessageId) : List MessageId :=
  t.pendingLoop t.walkBound [nodeId]

/-- Delete the nodes in turn. A status id that is already gone raises `KeyError` and ends the loop. -/
def removeNodes : List MessageId → MessageTree → List MessageNode × MessageTree × Bool
  | [], t => ([], t, true)
  | nodeId :: rest, t =>
    match t.nodes.get? nodeId with
    | none => removeNodes rest t
    | some node =>
      let t := { t with nodes := t.nodes.erase nodeId }
      if ¬ t.statusToNode.contains node.statusMessageId then ([node], t, false)
      else
        let (removed, t, done) := removeNodes rest { t with statusToNode := t.statusToNode.erase node.statusMessageId }
        (node :: removed, t, done)

def removeBranch (t : MessageTree) (branchRootId : MessageId) : List MessageNode × MessageTree :=
  if ¬ t.nodes.contains branchRootId then ([], t)
  else
    let parent := t.getParent branchRootId
    match removeNodes (t.getDescendants branchRootId) t with
    | (removed, t, false) => (removed, t)
    | (removed, t, true) =>
      match parent with
      | none => (removed, t)
      | some parent => (removed, t.modifyNode parent.nodeId fun node =>
          { node with childrenIds := node.childrenIds.filter (· ≠ branchRootId) })

/-- `TreeQueueManager.mark_node_error` on the tree that holds the node; the ids of the marked nodes. -/
def markNodeError (t : MessageTree) (nodeId : MessageId) (errorMessage : String) (propagate : Bool)
    (now : Timestamp) : List MessageId × MessageTree :=
  let (affected, t) := match t.getNode nodeId with
    | none => ([], t)
    | some _ => ([nodeId], t.updateState nodeId .error none (some errorMessage) now)
  if ¬ propagate then (affected, t)
  else
    let pendingChildren := t.getPendingChildren nodeId
    (affected ++ pendingChildren, pendingChildren.foldl (fun t child =>
      t.updateState child .error none (some ("Parent failed: " ++ errorMessage)) now) t)

end MessageTree

end ClaudeProxy.Trees

import ClaudeProxy.Kit.Machine
import ClaudeProxy.Manager.Repository
import ClaudeProxy.Trees.Processor

namespace ClaudeProxy.Manager

open Kit Sessions Trees

/-- A tree object with its tasks. -/
abbrev Ref := Nat

structure Processing where
  tree : Option Ref
  capturedSessionId : Option String
  tempSessionId : Option String
  /-- The last `update_state` was followed by a save. The code keeps no such record. -/
  saved : Bool

/-- Where a `handle_message` call is suspended. A manager is named where the awaited method is one of its own. -/
inductive Stage where
  | sending (parentNodeId : Option MessageId)
  | filing (manager : Nat) (parentNodeId : Option MessageId) (statusMsgId : MessageId)
  | enqueuing (manager : Nat)
  | reporting (enqueuedIn : Option Nat)
  | cancellingAll (manager : Nat) (clears : Bool)
  | stoppingCli (cancelled : List MessageId) (clears : Bool)
  | deletingMessages
  | cancellingNode (manager : Nat) (nodeId : MessageId)
  | cancellingBranch (manager : Nat) (branchRootId : MessageId)
  | deletingBranch (branchRootId : MessageId)
  | removingBranch (manager : Nat) (branchRootId : MessageId)
  | answering
  | handled (enqueuedIn : Option Nat)     -- a content message; the manager whose tree took it
  | executed                              -- a command
  | raised

namespace Stage

def manager : Stage → Option Nat
  | .filing manager _ _ | .enqueuing manager | .cancellingAll manager _ | .cancellingNode manager _
  | .cancellingBranch manager _ | .removingBranch manager _ => some manager
  | _ => none

def ended : Stage → Bool
  | .handled _ | .executed | .raised => true
  | _ => false

end Stage

structure Call where
  incoming : IncomingMessage
  stage : Stage

structure MessageHandler where
  heap : List World
  managers : Nat → TreeRepository Ref
  /-- The manager that `self.tree_queue` is. -/
  current : Nat
  store : SessionStore MessageId MessageNode
  processing : Ref → TaskId → Processing
  calls : List Call
  /-- The calls that had been enqueued when their manager was replaced. The code keeps no such record. -/
  cleared : List Nat

namespace MessageHandler

def initial : MessageHandler where
  heap := []
  managers _ := .new
  current := 0
  store := .new
  processing _ _ := ⟨none, none, none, true⟩
  calls := []
  cleared := []

def repository (s : MessageHandler) : TreeRepository Ref := s.managers s.current

def setManager (s : MessageHandler) (manager : Nat) (repository : TreeRepository Ref) : MessageHandler :=
  { s with managers := Function.update s.managers manager repository }

def setStage (s : MessageHandler) (i : Nat) (stage : Stage) : MessageHandler :=
  { s with calls := s.calls.modify i fun call => { call with stage := stage } }

def onWorld (s : MessageHandler) (ref : Ref) (change : World → World) : MessageHandler :=
  { s with heap := s.heap.modify ref change }

def setProcessing (s : MessageHandler) (ref : Ref) (tid : TaskId) (processing : Processing) : MessageHandler :=
  { s with processing := Function.update s.processing ref (Function.update (s.processing ref) tid processing) }

/-- `self.session_store.save_tree(tree.root_id, tree.to_dict())` -/
def saveTree (s : MessageHandler) (ref : Ref) : MessageHandler :=
  match s.heap[ref]? with
  | none => s
  | some world => { s with store := s.store.saveTree world.tree.rootId (toDict world.tree) }

def resolveParentNodeId (s : MessageHandler) (msgId : MessageId) : Option MessageId := do
  let ref ← s.repository.getTreeForNode msgId
  let world ← s.heap[ref]?
  resolveIn world.tree msgId

/-- The trees to save. A tree that is saved twice is saved the same. -/
def updateCancelledNodesUi (s : MessageHandler) (cancelled : List MessageId) : MessageHandler :=
  (cancelled.filterMap s.repository.getTreeForNode).foldl saveTree s

section Content

def createTree (s : MessageHandler) (manager : Nat) (nodeId : MessageId) (incoming : IncomingMessage)
    (statusMessageId : MessageId) (now : Timestamp) : Ref × MessageHandler :=
  let ref := s.heap.length
  let world := World.start (.new nodeId incoming statusMessageId none now)
  (ref, { s with heap := s.heap ++ [world] }.setManager manager ((s.managers manager).addTree nodeId ref))

/-- `none` stands for the `ValueError`. -/
def addToTree (s : MessageHandler) (manager : Nat) (parentNodeId nodeId : MessageId) (incoming : IncomingMessage)
    (statusMessageId : MessageId) : Option (Ref × MessageHandler) := do
  let ref ← (s.managers manager).getTreeForNode parentNodeId
  let world ← s.heap[ref]?
  let tree ← world.tree.addNode nodeId incoming statusMessageId parentNodeId world.now
  let s := s.onWorld ref fun world => { world.detach (world.tree.getNode nodeId).toList with tree := tree }
  return (ref, s.setManager manager ((s.managers manager).registerNode nodeId tree.rootId))

/-- From the return of `add_to_tree` or `create_tree` to the next await. -/
def record (s : MessageHandler) (ref : Ref) (first second statusMsgId : MessageId) : MessageHandler :=
  match s.heap[ref]? with
  | none => s
  | some world =>
    let rootId := world.tree.rootId
    let s := s.setManager s.current (s.repository.registerNode statusMsgId rootId)
    { s with store := (s.store.registerNode first rootId).registerNode second rootId }.saveTree ref

def file (s : MessageHandler) (i : Nat) (incoming : IncomingMessage) (manager : Nat) (parentNodeId : Option MessageId)
    (statusMsgId : MessageId) (now : Timestamp) : MessageHandler :=
  let nodeId := incoming.messageId
  match parentNodeId with
  | some parentNodeId =>
    match s.addToTree manager parentNodeId nodeId incoming statusMsgId with
    | none => s.setStage i .raised
    | some (ref, s) => (s.record ref statusMsgId nodeId statusMsgId).setStage i (.enqueuing s.current)
  | none =>
    let (ref, s) := s.createTree manager nodeId incoming statusMsgId now
    (s.record ref nodeId statusMsgId statusMsgId).setStage i (.enqueuing s.current)

def enqueue (s : MessageHandler) (i : Nat) (nodeId : MessageId) (manager : Nat) : MessageHandler :=
  match (s.managers manager).getTreeForNode nodeId with
  | none => s.setStage i (.handled none)
  | some ref =>
    let wasQueued := s.heap[ref]?.any fun world => world.tree.isProcessing
    (s.onWorld ref (·.enqueueAndStart nodeId)).setStage i
      (if wasQueued then .reporting (some manager) else .handled (some manager))

end Content

section Commands

def cancelledBy (world : World) : List MessageId :=
  world.cancelRunning.1 ++ (world.cancelRunning.2.tree.drainQueueAndMarkCancelled world.cancelRunning.2.now).1

def cancelAll (s : MessageHandler) (manager : Nat) : List MessageId × MessageHandler :=
  (s.managers manager).trees.values.foldl (fun (cancelled, s) ref =>
    (cancelled ++ (s.heap[ref]?.map cancelledBy).getD [], s.onWorld ref World.cancelTree)) ([], s)

/-- The nodes of a list that a cancellation has marked: those that had not ended. -/
def marked (world : World) (nodeIds : List MessageId) : List MessageId :=
  nodeIds.filter fun nodeId => (world.tree.getNode nodeId).any fun node => ¬ node.state.terminal

def cancelNode (s : MessageHandler) (manager : Nat) (nodeId : MessageId) : List MessageId × MessageHandler :=
  match (s.managers manager).getTreeForNode nodeId with
  | none => ([], s)
  | some ref => ((s.heap[ref]?.map fun world => marked world [nodeId]).getD [], s.onWorld ref (·.cancelNode nodeId))

def cancelBranch (s : MessageHandler) (manager : Nat) (branchRootId : MessageId) : List MessageId × MessageHandler :=
  match (s.managers manager).getTreeForNode branchRootId with
  | none => ([], s)
  | some ref => ((s.heap[ref]?.map fun world => marked world (world.tree.getDescendants branchRootId)).getD [],
      s.onWorld ref (·.cancelBranch branchRootId))

/-- `remove_branch` and the update of the store after it. A `KeyError` of the loop that deletes the nodes ends the call. -/
def removeBranch (s : MessageHandler) (i : Nat) (manager : Nat) (branchRootId : MessageId) : MessageHandler :=
  match (s.managers manager).getTreeForNode branchRootId with
  | none => s.setStage i .executed
  | some ref =>
    match s.heap[ref]? with
    | none => s.setStage i .executed
    | some world =>
      let rootId := world.tree.rootId
      if branchRootId = rootId then
        let s := s.onWorld ref World.cancelTree
        let nodeIds := (world.cancelTree.tree.allNodes).map (·.nodeId)
        let s := s.setManager manager ((s.managers manager).removeTree rootId nodeIds)
        { s with store := (s.store.popMappings nodeIds).removeTree rootId }.setStage i .executed
      else if (MessageTree.removeNodes (world.tree.getDescendants branchRootId) world.tree).2.2 = false then
        (s.onWorld ref (·.removeBranch branchRootId)).setStage i .raised
      else
        let removed := (world.tree.removeBranch branchRootId).1.map (·.nodeId)
        let s := s.onWorld ref (·.removeBranch branchRootId)
        let s := s.setManager manager ((s.managers manager).unregisterNodes removed)
        let s := { s with store := s.store.popMappings removed }
        ((s.repository.getTree rootId).elim s s.saveTree).setStage i .executed

/-- `clear_all` and `replace_tree_queue`; there is no await between them. -/
def swap (s : MessageHandler) (i : Nat) : MessageHandler :=
  let enqueued := (List.range s.calls.length).filter fun j => s.calls[j]?.any fun call =>
    match call.stage with
    | .reporting (some _) | .handled (some _) => true
    | _ => false
  { s with
    store := .new
    managers := Function.update s.managers (s.current + 1) .new
    current := s.current + 1
    cleared := s.cleared ++ enqueued }.setStage i .executed

/-- What a call does between two awaits. `sent` is the status message of a content message. -/
def resume (s : MessageHandler) (i : Nat) (call : Call) (sent : MessageId) (now : Timestamp) : Option MessageHandler :=
  match call.stage with
  | .sending parentNodeId =>
    some (s.setStage i (.filing s.current parentNodeId (call.incoming.statusMessageId.getD sent)))
  | .filing manager parentNodeId statusMsgId => some (s.file i call.incoming manager parentNodeId statusMsgId now)
  | .enqueuing manager => some (s.enqueue i call.incoming.messageId manager)
  | .reporting enqueuedIn => some (s.setStage i (.handled enqueuedIn))
  | .cancellingAll manager clears =>
    let (cancelled, s) := s.cancelAll manager
    some (s.setStage i (.stoppingCli cancelled clears))
  | .stoppingCli cancelled clears =>
    some ((s.updateCancelledNodesUi cancelled).setStage i (if clears then .deletingMessages else .answering))
  | .deletingMessages => some (s.swap i)
  | .cancellingNode manager nodeId =>
    let (cancelled, s) := s.cancelNode manager nodeId
    some ((s.updateCancelledNodesUi cancelled).setStage i .answering)
  | .cancellingBranch manager branchRootId =>
    let (cancelled, s) := s.cancelBranch manager branchRootId
    some ((s.updateCancelledNodesUi cancelled).setStage i (.deletingBranch branchRootId))
  | .deletingBranch branchRootId => some (s.setStage i (.removingBranch s.current branchRootId))
  | .removingBranch manager branchRootId => some (s.removeBranch i manager branchRootId)
  | .answering => some (s.setStage i .executed)
  | .handled _ | .executed | .raised => none

def arrive (s : MessageHandler) (incoming : IncomingMessage) (stage : Stage) : MessageHandler :=
  { s with calls := s.calls ++ [⟨incoming, stage⟩] }

def content (s : MessageHandler) (incoming : IncomingMessage) : MessageHandler :=
  s.arrive incoming (.sending (incoming.replyToMessageId.bind s.resolveParentNodeId))

def stop (s : MessageHandler) (incoming : IncomingMessage) : MessageHandler :=
  s.arrive incoming <| match incoming.replyToMessageId with
    | none => .cancellingAll s.current false
    | some replyId => (s.resolveParentNodeId replyId).elim .answering (.cancellingNode s.current)

def clear (s : MessageHandler) (incoming : IncomingMessage) : MessageHandler :=
  s.arrive incoming <| match incoming.replyToMessageId with
    | none => .cancellingAll s.current true
    | some replyId => (s.resolveParentNodeId replyId).elim .answering (.cancellingBranch s.current)

end Commands

section Processing

/-- The first step of a task, up to the first await of `_process_node_impl`. -/
def firstStep (s : MessageHandler) (ref : Ref) (tid : TaskId) (world : World) (task : Task) : MessageHandler :=
  let started := s.onWorld ref fun world => world.processNode tid task
  if world.nodeState task = some .error then started
  else
    match s.repository.getTreeForNode task.node with
    | none => started.setProcessing ref tid ⟨none, none, none, true⟩
    | some tree =>
      let marked := started.onWorld tree fun world =>
        world.onTree fun t => t.updateState task.node .inProgress none none world.now
      marked.setProcessing ref tid ⟨some tree, none, none, false⟩

def begin (s : MessageHandler) (ref : Ref) (tid : TaskId) : Option MessageHandler :=
  (s.heap[ref]?.filter fun world => world.nextToStart = some tid).bind fun world =>
    (world.ready tid .created).map (s.firstStep ref tid world)

def whileRunning (s : MessageHandler) (ref : Ref) (tid : TaskId) (act : Task → Processing → MessageHandler) :
    Option MessageHandler :=
  (s.heap[ref]?.bind fun world => world.ready tid .running).map fun task => act task (s.processing ref tid)

/-- `update_state` on the tree of the processing, with or without a save. -/
def writeState (s : MessageHandler) (ref : Ref) (tid : TaskId) (task : Task) (p : Processing) (state : MessageState)
    (sessionId errorMessage : Option String) (saves : Bool) : MessageHandler :=
  match p.tree with
  | none => s.setProcessing ref tid p
  | some tree =>
    let written := s.onWorld tree fun world =>
      world.onTree fun t => t.updateState task.node state sessionId errorMessage world.now
    (if saves then written.saveTree tree else written).setProcessing ref tid { p with saved := saves }

def opened (s : MessageHandler) (ref : Ref) (tid : TaskId) (isNew : Bool) (sessionId : String) (_ : Task) (p : Processing) :
    MessageHandler :=
  s.setProcessing ref tid
    (if isNew then { p with tempSessionId := some sessionId } else { p with capturedSessionId := some sessionId })

def sessionInfo (s : MessageHandler) (ref : Ref) (tid : TaskId) (sessionId : String) (task : Task) (p : Processing) :
    MessageHandler :=
  if sessionId = "" ∨ ¬ truthy p.tempSessionId then s
  else s.writeState ref tid task { p with capturedSessionId := some sessionId, tempSessionId := none } .inProgress
    (some sessionId) none true

def complete (s : MessageHandler) (ref : Ref) (tid : TaskId) (task : Task) (p : Processing) : MessageHandler :=
  if truthy p.capturedSessionId then s.writeState ref tid task p .completed p.capturedSessionId none true else s

/-- The session limit, and the cancellation of the task. -/
def interrupted (s : MessageHandler) (ref : Ref) (tid : TaskId) (errorMessage : String) (task : Task) (p : Processing) :
    MessageHandler :=
  s.writeState ref tid task p .error none (some errorMessage) false

/-- `_propagate_error_to_children`, after an error event or an exception. It asks the manager for the tree again. -/
def fail (s : MessageHandler) (ref : Ref) (tid : TaskId) (errorMessage : String) (task : Task) (p : Processing) :
    MessageHandler :=
  match p.tree, s.repository.getTreeForNode task.node with
  | some _, some tree =>
    (s.onWorld tree fun world => world.onTree fun t =>
      (t.markNodeError task.node errorMessage true world.now).2).setProcessing
      ref tid { p with saved := false }
  | _, _ => s

end Processing

end MessageHandler

/-- `process` is a step of `process_node` outside the handler's own code. -/
inductive HandlerAction where
  | tick
  | content (incoming : IncomingMessage)
  | stop (incoming : IncomingMessage)
  | clear (incoming : IncomingMessage)
  | resume (i : Nat) (sent : MessageId) (now : Timestamp)
  | begin (ref : Ref) (tid : TaskId)
  | opened (ref : Ref) (tid : TaskId) (isNew : Bool) (sessionId : String)
  | sessionInfo (ref : Ref) (tid : TaskId) (sessionId : String)
  | complete (ref : Ref) (tid : TaskId)
  | limited (ref : Ref) (tid : TaskId) (errorMessage : String)
  | cancelled (ref : Ref) (tid : TaskId)
  | failed (ref : Ref) (tid : TaskId) (errorMessage : String)
  | process (ref : Ref) (action : Trees.Action)

/-- The steps that `process_node` and `_process_next` take by themselves. -/
def ofProcessor : Trees.Action → Bool
  | .finish _ | .raise _ | .handle _ _ | .clear _ | .next _ | .notified _ | .deliver _ => true
  | _ => false

namespace MessageHandler

def step (s : MessageHandler) : HandlerAction → Option MessageHandler
  | .tick => some { s with heap := s.heap.map fun world => { world with now := world.now + 1 } }
  | .content incoming => some (s.content incoming)
  | .stop incoming => some (s.stop incoming)
  | .clear incoming => some (s.clear incoming)
  | .resume i sent now => s.calls[i]?.bind fun call => s.resume i call sent now
  | .begin ref tid => s.begin ref tid
  | .opened ref tid isNew sessionId => s.whileRunning ref tid (s.opened ref tid isNew sessionId)
  | .sessionInfo ref tid sessionId => s.whileRunning ref tid (s.sessionInfo ref tid sessionId)
  | .complete ref tid => s.whileRunning ref tid (s.complete ref tid)
  | .limited ref tid errorMessage => s.whileRunning ref tid (s.interrupted ref tid errorMessage)
  | .cancelled ref tid => s.whileRunning ref tid (s.interrupted ref tid "Cancelled by user")
  | .failed ref tid errorMessage => s.whileRunning ref tid (s.fail ref tid errorMessage)
  | .process ref action =>
    if ¬ ofProcessor action then none
    else (s.heap[ref]?.bind fun world => Trees.step world action).map fun world => s.onWorld ref fun _ => world

def machine : Machine MessageHandler HandlerAction := ⟨initial, step⟩

end MessageHandler

end ClaudeProxy.Manager

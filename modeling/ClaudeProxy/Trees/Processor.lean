import ClaudeProxy.Kit.Machine
import ClaudeProxy.Trees.Data

namespace ClaudeProxy.Trees

open Kit

/-- Where a `process_node` task is suspended. -/
inductive Phase where
  | created      -- scheduled, its first step not yet taken
  | running      -- inside `await processor(...)`
  | handling     -- `except Exception`: awaiting `tree.update_state`
  | clearing     -- `finally`: awaiting the lock of `clear_current_node`
  | dequeuing    -- `_process_next`: awaiting the lock
  | notifying    -- `_process_next`: awaiting the callbacks
  | done
deriving DecidableEq

structure Task where
  node : MessageId
  /-- The node object itself once the tree no longer holds it. -/
  detached : Option MessageNode
  phase : Phase
  cancelRequested : Bool
deriving DecidableEq

/-- One tree with every task ever created for it, and the history of enqueued and begun nodes. -/
structure World where
  tree : MessageTree
  tasks : List Task
  inRepository : Bool
  now : Timestamp
  enqueued : List MessageId
  begun : List (MessageId × Option MessageState)
deriving DecidableEq

def MessageState.terminal : MessageState → Bool
  | .completed | .error => true
  | .pending | .inProgress => false

namespace World

def start (root : MessageNode) : World where
  tree := .new root
  tasks := []
  inRepository := true
  now := root.createdAt
  enqueued := []
  begun := []

/-- The task suspended in `phase` with no cancellation waiting for it. -/
def ready (w : World) (tid : TaskId) (phase : Phase) : Option Task :=
  w.tasks[tid]?.filter fun task => task.phase = phase ∧ task.cancelRequested = false

def advance (w : World) (tid : TaskId) (phase : Phase) : World :=
  { w with tasks := w.tasks.modify tid fun task => { task with phase := phase } }

/-- The event loop takes the first steps of tasks in the order of their creation. -/
def nextToStart (w : World) : Option TaskId := w.tasks.findIdx? fun task => task.phase = .created

def nodeState (w : World) (task : Task) : Option MessageState :=
  match task.detached with
  | some node => some node.state
  | none => (w.tree.getNode task.node).map (·.state)

/-- Tasks keep the node objects that leave the tree. -/
def detach (w : World) (gone : List MessageNode) : World :=
  { w with tasks := w.tasks.map fun task =>
      if task.detached = none then { task with detached := gone.find? fun node => node.nodeId = task.node }
      else task }

def createTask (w : World) (nodeId : MessageId) : World :=
  { w with
    tree := w.tree.setCurrentTask (some w.tasks.length)
    tasks := w.tasks ++ [⟨nodeId, none, .created, false⟩] }

def launch (w : World) (nodeId : MessageId) : World :=
  match w.tree.getNode nodeId with
  | none => w
  | some _ => w.createTask nodeId

/-- The first step of `process_node`, up to its first await. -/
def processNode (w : World) (tid : TaskId) (task : Task) : World :=
  if w.nodeState task = some .error then w.advance tid .dequeuing
  else { w.advance tid .running with begun := w.begun ++ [(task.node, w.nodeState task)] }

/-- The locked section of `_process_next`. -/
def processNext (w : World) (tid : TaskId) : World :=
  match w.tree.dequeue with
  | none => { w with tree := w.tree.setProcessingState none false }.advance tid .done
  | some (nextNodeId, tree) =>
    ({ w with tree := tree.setProcessingState (some nextNodeId) true }.advance tid .notifying).launch nextNodeId

def enqueueAndStart (w : World) (nodeId : MessageId) : World :=
  let w := { w with enqueued := w.enqueued ++ [nodeId] }
  if w.tree.isProcessing then { w with tree := w.tree.putQueueUnlocked nodeId }
  else { w with tree := w.tree.setProcessingState (some nodeId) true }.launch nodeId

/-- The task that `cancel_current_task` would cancel. -/
def cancellable (w : World) : Option TaskId :=
  w.tree.currentTask.filter fun tid => w.tasks[tid]?.any fun task => task.phase ≠ .done

def cancelCurrentTask (w : World) : World :=
  match w.cancellable with
  | none => w
  | some tid => { w with tasks := w.tasks.modify tid fun task => { task with cancelRequested := true } }

def onTree (w : World) (change : MessageTree → MessageTree) : World := { w with tree := change w.tree }

def cancelNode (w : World) (nodeId : MessageId) : World :=
  match w.tree.getNode nodeId with
  | none => w
  | some node =>
    if node.state.terminal then w
    else
      let w := if w.tree.isCurrentNode nodeId then w.cancelCurrentTask else w
      w.onTree fun t => (t.removeFromQueue nodeId).setNodeErrorSync nodeId "Cancelled by user" w.now

/-- The body of the loop of `cancel_branch`. -/
def cancelBranchNode (w : World) (nodeId : MessageId) : World :=
  match w.tree.getNode nodeId with
  | none => w
  | some node =>
    if node.state.terminal then w
    else if w.tree.isCurrentNode nodeId then
      w.cancelCurrentTask.onTree fun t => t.setNodeErrorSync nodeId "Cancelled by user" w.now
    else
      w.onTree fun t => (t.removeFromQueue nodeId).setNodeErrorSync nodeId "Cancelled by user" w.now

def cancelBranch (w : World) (branchRootId : MessageId) : World :=
  (w.tree.getDescendants branchRootId).foldl cancelBranchNode w

/-- Step 1 of `cancel_tree`: the running task; the ids of the nodes it marks. -/
def cancelRunning (w : World) : List MessageId × World :=
  match w.cancellable with
  | none => ([], w)
  | some _ =>
    let w := w.cancelCurrentTask
    match w.tree.currentNodeId with
    | none => ([], w)
    | some currentId =>
      match w.tree.getNode currentId with
      | none => ([], w)
      | some node =>
        if node.state.terminal then ([], w)
        else ([currentId], w.onTree fun t => t.setNodeErrorSync currentId "Cancelled by user" w.now)

/-- Step 3 of `cancel_tree`, for one node. -/
def cleanUpStale (cancelledIds : List MessageId) (now : Timestamp) (t : MessageTree) (nodeId : MessageId) :
    MessageTree :=
  match t.getNode nodeId with
  | none => t
  | some node =>
    if ¬ node.state.terminal ∧ nodeId ∉ cancelledIds then
      t.setNodeErrorSync nodeId "Stale task cleaned up" now
    else t

def cancelTree (w : World) : World :=
  let (cancelled, w) := w.cancelRunning
  let (drained, tree) := w.tree.drainQueueAndMarkCancelled w.now
  let tree := tree.nodes.keys.foldl (cleanUpStale (cancelled ++ drained) w.now) tree
  { w with tree := tree.resetProcessingState }

def removeBranch (w : World) (branchRootId : MessageId) : World :=
  if branchRootId = w.tree.rootId then { w.cancelTree with inRepository := false }
  else
    let (removed, tree) := w.tree.removeBranch branchRootId
    { w.detach removed with tree := tree }

/-- A pending `CancelledError` is raised at the await the task is suspended at. A task that has not
    taken its first step ends without running its body; the processor may go on with its clean-up. -/
def deliverCancel (w : World) (tid : TaskId) (task : Task) : World :=
  let phase : Phase := match task.phase with
    | .running => .running
    | .handling => .clearing
    | .created | .clearing | .dequeuing | .notifying | .done => .done
  { w with tasks := w.tasks.modify tid fun task => { task with phase := phase, cancelRequested := false } }

end World

inductive Action where
  | tick
  | addNode (nodeId : MessageId) (incoming : IncomingMessage) (statusMessageId parentId : MessageId)
  | enqueue (nodeId : MessageId)
  | start (tid : TaskId)
  | update (tid : TaskId) (state : MessageState) (sessionId errorMessage : Option String)
  | fail (tid : TaskId) (errorMessage : String)
  | finish (tid : TaskId)       -- the processor returns, or re-raises its cancellation
  | raise (tid : TaskId)        -- the processor raises an `Exception`
  | handle (tid : TaskId) (errorMessage : String)
  | clear (tid : TaskId)
  | next (tid : TaskId)
  | notified (tid : TaskId)
  | deliver (tid : TaskId)
  | cancelNode (nodeId : MessageId)
  | cancelBranch (branchRootId : MessageId)
  | cancelTree
  | removeBranch (branchRootId : MessageId)
deriving DecidableEq

/-- One section of code between two awaits. Operations of the manager reach the tree only while the
    repository holds it; an `addNode` that raises has no effect and is not enabled. -/
def step (w : World) : Action → Option World
  | .tick => some { w with now := w.now + 1 }
  | .addNode nodeId incoming statusMessageId parentId =>
    if ¬ w.inRepository then none
    else (w.tree.addNode nodeId incoming statusMessageId parentId w.now).map fun tree =>
      { w.detach (w.tree.getNode nodeId).toList with tree := tree }
  | .enqueue nodeId => if ¬ w.inRepository then none else some (w.enqueueAndStart nodeId)
  | .start tid =>
    if w.nextToStart ≠ some tid then none else (w.ready tid .created).map (w.processNode tid)
  | .update tid state sessionId errorMessage => (w.ready tid .running).map fun task =>
      w.onTree fun t => t.updateState task.node state sessionId errorMessage w.now
  | .fail tid errorMessage => (w.ready tid .running).map fun task =>
      if ¬ w.inRepository then w
      else w.onTree fun t => (t.markNodeError task.node errorMessage true w.now).2
  | .finish tid => (w.ready tid .running).map fun _ => w.advance tid .clearing
  | .raise tid => (w.ready tid .running).map fun _ => w.advance tid .handling
  | .handle tid errorMessage => (w.ready tid .handling).map fun task =>
      (w.onTree fun t => t.updateState task.node .error none (some errorMessage) w.now).advance tid .clearing
  | .clear tid => (w.ready tid .clearing).map fun _ => (w.onTree (·.clearCurrentNode)).advance tid .dequeuing
  | .next tid => (w.ready tid .dequeuing).map fun _ => w.processNext tid
  | .notified tid => (w.ready tid .notifying).map fun _ => w.advance tid .done
  | .deliver tid =>
    match w.tasks[tid]? with
    | none => none
    | some task =>
      if task.cancelRequested ∧ (task.phase = .created → w.nextToStart = some tid)
      then some (w.deliverCancel tid task) else none
  | .cancelNode nodeId => if ¬ w.inRepository then none else some (w.cancelNode nodeId)
  | .cancelBranch branchRootId => if ¬ w.inRepository then none else some (w.cancelBranch branchRootId)
  | .cancelTree => if ¬ w.inRepository then none else some w.cancelTree
  | .removeBranch branchRootId => if ¬ w.inRepository then none else some (w.removeBranch branchRootId)

def machine (root : MessageNode) : Machine World Action where
  init := .start root
  step := step

end ClaudeProxy.Trees

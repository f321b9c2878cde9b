import ClaudeProxy.Trees.Order

namespace ClaudeProxy.Trees

open Kit

/-- No node is enqueued twice, and the id of an enqueued node is not given to another one. -/
def enqueuedOnce (w : World) : Action → Bool
  | .enqueue nodeId => nodeId ∉ w.enqueued
  | .addNode nodeId _ _ _ => nodeId ∉ w.enqueued
  | _ => true

structure Orderly (w : World) : Prop where
  idleEmpty : w.tree.isProcessing = false → w.tree.queue.deque = []
  once : w.enqueued.Nodup
  inOrder : List.Sublist w.progress w.enqueued
  notError : ∀ entry ∈ w.begun, entry.2 ≠ some .error

theorem Flow.empty {before after : World} (flow : Flow before after []) (empty : before.tree.queue.deque = []) :
    after.tree.queue.deque = [] := by
  have shrunk := flow.queue
  rw [List.append_nil, empty] at shrunk
  exact List.sublist_nil.mp shrunk

namespace World

theorem enqueueAndStart_isProcessing (w : World) (nodeId : MessageId) :
    (w.enqueueAndStart nodeId).tree.isProcessing = true := by
  cases busy : w.tree.isProcessing with
  | true => rw [(enqueueAndStart_busy nodeId busy).isProcessing, busy]
  | false =>
    rw [enqueueAndStart_idle nodeId busy, launch_isProcessing]
    rfl

theorem processNext_idleEmpty {w : World} {tid : TaskId} (idle : (w.processNext tid).tree.isProcessing = false) :
    (w.processNext tid).tree.queue.deque = [] := by
  cases queued : w.tree.queue.deque with
  | nil =>
    rw [processNext_empty tid queued]
    exact queued
  | cons nodeId rest =>
    rw [processNext_head tid queued, launch_isProcessing] at idle
    cases idle

end World

theorem step_idleEmpty {w next : World} {a : Action} (taken : step w a = some next)
    (before : w.tree.isProcessing = false → w.tree.queue.deque = []) :
    next.tree.isProcessing = false → next.tree.queue.deque = [] := by
  have flow := step_flow taken before
  intro idle
  cases step_effect taken with
  | quiet same =>
    cases a with
    | enqueue nodeId =>
      simp only [step] at taken
      split at taken
      · cases taken
      · cases taken
        rw [World.enqueueAndStart_isProcessing] at idle
        cases idle
    | _ => exact flow.empty (before (same.isProcessing ▸ idle))
  | enqueue eq =>
    rw [eq, World.enqueueAndStart_isProcessing] at idle
    cases idle
  | next ready eq =>
    rw [eq] at idle ⊢
    exact World.processNext_idleEmpty idle
  | cancelNode eq =>
    rw [eq, (World.cancelNode_subsides ..).isProcessing] at idle
    exact flow.empty (before idle)
  | cancelBranch eq =>
    rw [eq, (World.cancelBranch_subsides ..).isProcessing] at idle
    exact flow.empty (before idle)
  | cancelTree eq =>
    rw [eq]
    exact w.cancelTree_deque
  | removeTree root eq =>
    rw [eq]
    exact w.cancelTree_deque

theorem Orderly.step {w next : World} {a : Action} (inv : Orderly w) (fresh : enqueuedOnce w a = true)
    (taken : step w a = some next) : Orderly next := by
  have flow := step_flow taken inv.idleEmpty
  refine ⟨step_idleEmpty taken inv.idleEmpty, ?_, ?_, flow.notError inv.notError⟩
  · rw [flow.enqueued]
    cases a with
    | enqueue nodeId =>
      have absent : nodeId ∉ w.enqueued := of_decide_eq_true fresh
      refine List.nodup_append.mpr ⟨inv.once, List.nodup_singleton _, fun old member new here same => ?_⟩
      rw [same, List.mem_singleton.mp here] at member
      exact absent member
    | _ => simpa [Action.enqueues] using inv.once
  · rw [flow.enqueued]
    exact flow.sublist.trans (inv.inOrder.append (.refl _))

/-- Nothing is left to do for the node: its processor was invoked, or it is cancelled or removed. -/
def Settled (w : World) (nodeId : MessageId) : Prop :=
  nodeId ∈ w.begunNodes ∨ ∀ node, w.tree.getNode nodeId = some node → node.state = .error

/-- Every enqueued node is settled or has its turn coming; `hole` is the node about to be launched. -/
structure Accounted (hole : Option MessageId) (w : World) : Prop where
  keyed : Keyed w.tree
  known : ∀ nodeId ∈ w.enqueued, Settled w nodeId ∨ nodeId ∈ w.waiting ∨ hole = some nodeId
  unbegun : ∀ nodeId node, w.tree.getNode nodeId = some node → nodeId ∉ w.begunNodes →
    node.state = .pending ∨ node.state = .error
  created : ∀ task ∈ w.tasks, task.phase = .created → task.node ∈ w.enqueued ∧
    (task.cancelRequested = true → Settled w task.node) ∧ (task.detached ≠ none → Settled w task.node)
  running : ∀ task ∈ w.tasks, task.phase = .running → task.node ∈ w.begunNodes
  current : ∀ nodeId, w.tree.currentNodeId = some nodeId → nodeId ∈ w.enqueued ∧
    (hole = none → w.tree.getNode nodeId ≠ none → ∀ (tid : Nat) task, w.tree.currentTask = some tid →
      w.tasks[tid]? = some task → task.phase = .created → task.node = nodeId)

/-- What a step other than a launch makes of a task; `w` is the world after it. -/
structure Task.Keeps (w : World) (task task' : Task) : Prop where
  node : task'.node = task.node
  created : task'.phase = .created → task.phase = .created
  leaves : task.phase = .created → task'.phase = .created ∨ Settled w task.node
  running : task'.phase = .running → task.phase = .running ∨ task.node ∈ w.begunNodes
  cancelled : task.phase = .created → task'.cancelRequested = true →
    task.cancelRequested = true ∨ Settled w task.node
  detached : task.phase = .created → task'.detached ≠ none → task.detached ≠ none ∨ Settled w task.node

theorem Task.Keeps.refl (w : World) (task : Task) : Task.Keeps w task task :=
  ⟨rfl, id, .inl, .inl, fun _ => .inl, fun _ => .inl⟩

theorem Task.Keeps.moved {w : World} {task : Task} {phase : Phase} {requested : Bool}
    (started : task.phase ≠ .created) (created : phase ≠ .created)
    (running : phase = .running → task.phase = .running) :
    Task.Keeps w task { task with phase := phase, cancelRequested := requested } :=
  ⟨rfl, fun here => absurd here created, fun here => absurd here started, fun here => .inl (running here),
    fun here => absurd here started, fun here => absurd here started⟩

theorem keeps_modify {w : World} {tasks : List Task} {i : Nat} {change : Task → Task}
    (keeps : ∀ task, tasks[i]? = some task → Task.Keeps w task (change task)) (j : Nat) :
    Option.Rel (Task.Keeps w) tasks[j]? (tasks.modify i change)[j]? := by
  rw [List.getElem?_modify]
  cases here : tasks[j]? with
  | none => exact .none
  | some task =>
    refine .some ?_
    split
    · rename_i same
      exact keeps task (same ▸ here)
    · exact .refl w task

theorem keeps_map {w : World} {tasks : List Task} {change : Task → Task}
    (keeps : ∀ task ∈ tasks, Task.Keeps w task (change task)) (j : Nat) :
    Option.Rel (Task.Keeps w) tasks[j]? (tasks.map change)[j]? := by
  rw [List.getElem?_map]
  cases here : tasks[j]? with
  | none => exact .none
  | some task => exact .some (keeps task (List.mem_of_getElem? here))

theorem keeps_same (w : World) (tasks : List Task) (j : Nat) :
    Option.Rel (Task.Keeps w) tasks[j]? tasks[j]? := by
  cases tasks[j]? with
  | none => exact .none
  | some task => exact .some (.refl w task)

/-- What every step but a launch does: nodes fail, go, or are fresh, and the waiting ones settle. -/
structure Calm (before after : World) : Prop where
  enqueued : after.enqueued = before.enqueued
  begun : ∀ nodeId ∈ before.begunNodes, nodeId ∈ after.begunNodes
  nodes : ∀ nodeId node', after.tree.getNode nodeId = some node' →
    (∃ node, before.tree.getNode nodeId = some node ∧ node'.nodeId = node.nodeId ∧
      (node'.state = node.state ∨ node'.state = .error ∨ nodeId ∈ after.begunNodes)) ∨
    (nodeId ∉ before.enqueued ∧ node'.nodeId = nodeId ∧ node'.state = .pending)
  queued : ∀ nodeId ∈ before.tree.queue.deque, nodeId ∈ after.tree.queue.deque ∨ Settled after nodeId
  tasks : ∀ tid : Nat, Option.Rel (Task.Keeps after) before.tasks[tid]? after.tasks[tid]?
  current : ∀ nodeId, after.tree.currentNodeId = some nodeId →
    before.tree.currentNodeId = some nodeId ∧ after.tree.currentTask = before.tree.currentTask

theorem Calm.earlier {before after : World} (change : Calm before after) {tid : Nat} {task' : Task}
    (present : after.tasks[tid]? = some task') :
    ∃ task, before.tasks[tid]? = some task ∧ Task.Keeps after task task' := by
  have related := change.tasks tid
  rw [present] at related
  cases here : before.tasks[tid]? with
  | none =>
    rw [here] at related
    cases related
  | some task =>
    rw [here] at related
    cases related with
    | some keeps => exact ⟨task, rfl, keeps⟩

theorem Calm.later {before after : World} (change : Calm before after) {tid : Nat} {task : Task}
    (present : before.tasks[tid]? = some task) :
    ∃ task', after.tasks[tid]? = some task' ∧ Task.Keeps after task task' := by
  have related := change.tasks tid
  rw [present] at related
  cases here : after.tasks[tid]? with
  | none =>
    rw [here] at related
    cases related
  | some task' =>
    rw [here] at related
    cases related with
    | some keeps => exact ⟨task', rfl, keeps⟩

theorem mem_createdNodes_iff {tasks : List Task} {nodeId : MessageId} :
    nodeId ∈ createdNodes tasks ↔ ∃ task ∈ tasks, task.phase = .created ∧ task.node = nodeId := by
  simp [createdNodes, and_assoc]

theorem Calm.waiting {before after : World} (change : Calm before after) {nodeId : MessageId}
    (waiting : nodeId ∈ before.waiting) : nodeId ∈ after.waiting ∨ Settled after nodeId := by
  rcases List.mem_append.mp waiting with created | queued
  · obtain ⟨task, member, isCreated, rfl⟩ := mem_createdNodes_iff.mp created
    obtain ⟨tid, present⟩ := List.getElem?_of_mem member
    obtain ⟨task', now, keeps⟩ := change.later present
    rcases keeps.leaves isCreated with still | settled
    · have here := mem_createdNodes (List.mem_of_getElem? now) still
      rw [keeps.node] at here
      exact .inl (List.mem_append_left _ here)
    · exact .inr settled
  · rcases change.queued nodeId queued with still | settled
    · exact .inl (List.mem_append_right _ still)
    · exact .inr settled

theorem Settled.calm {before after : World} (change : Calm before after) {nodeId : MessageId}
    (known : nodeId ∈ before.enqueued) (settled : Settled before nodeId) : Settled after nodeId := by
  rcases settled with begun | error
  · exact .inl (change.begun nodeId begun)
  · by_cases begun : nodeId ∈ after.begunNodes
    · exact .inl begun
    · refine .inr fun node' found => ?_
      rcases change.nodes nodeId node' found with ⟨node, present, _, same | now | later⟩ | ⟨fresh, _⟩
      · exact same.trans (error node present)
      · exact now
      · exact absurd later begun
      · exact absurd known fresh

theorem Accounted.calm {before after : World} {hole : Option MessageId} (inv : Accounted hole before)
    (change : Calm before after) : Accounted hole after where
  keyed nodeId node found := by
    rcases change.nodes nodeId node found with ⟨old, present, same, _⟩ | ⟨_, own, _⟩
    · exact same.trans (inv.keyed nodeId old present)
    · exact own
  known nodeId member := by
    rw [change.enqueued] at member
    rcases inv.known nodeId member with settled | waiting | hole
    · exact .inl (settled.calm change member)
    · rcases change.waiting waiting with waiting | settled
      · exact .inr (.inl waiting)
      · exact .inl settled
    · exact .inr (.inr hole)
  unbegun nodeId node found unbegun := by
    rcases change.nodes nodeId node found with ⟨old, present, _, same | now | later⟩ | ⟨_, _, pending⟩
    · rw [same]
      exact inv.unbegun nodeId old present fun begun => unbegun (change.begun nodeId begun)
    · exact .inr now
    · exact absurd later unbegun
    · exact .inl pending
  created task' member created := by
    obtain ⟨tid, now⟩ := List.getElem?_of_mem member
    obtain ⟨task, present, keeps⟩ := change.earlier now
    have wasCreated := keeps.created created
    obtain ⟨known, wasCancelled, wasDetached⟩ :=
      inv.created task (List.mem_of_getElem? present) wasCreated
    rw [keeps.node, change.enqueued]
    refine ⟨known, fun requested => ?_, fun gone => ?_⟩
    · rcases keeps.cancelled wasCreated requested with earlier | settled
      · exact (wasCancelled earlier).calm change known
      · exact settled
    · rcases keeps.detached wasCreated gone with earlier | settled
      · exact (wasDetached earlier).calm change known
      · exact settled
  running task' member running := by
    obtain ⟨tid, now⟩ := List.getElem?_of_mem member
    obtain ⟨task, present, keeps⟩ := change.earlier now
    rw [keeps.node]
    rcases keeps.running running with wasRunning | begun
    · exact change.begun _ (inv.running task (List.mem_of_getElem? present) wasRunning)
    · exact begun
  current nodeId current := by
    obtain ⟨wasCurrent, sameTask⟩ := change.current nodeId current
    obtain ⟨known, own⟩ := inv.current nodeId wasCurrent
    refine ⟨change.enqueued ▸ known, fun noHole there tid task' isCurrent now created => ?_⟩
    obtain ⟨task, present, keeps⟩ := change.earlier now
    have wasThere : before.tree.getNode nodeId ≠ none := by
      cases found : after.tree.getNode nodeId with
      | none => exact absurd found there
      | some node =>
        rcases change.nodes nodeId node found with ⟨old, present, _⟩ | ⟨fresh, _⟩
        · rw [present]
          exact Option.some_ne_none old
        · exact absurd known fresh
    rw [keeps.node]
    exact own noHole wasThere tid task (sameTask ▸ isCurrent) present (keeps.created created)

theorem Calm.of_errors {before after : World} (enqueued : after.enqueued = before.enqueued)
    (begun : after.begun = before.begun) (errors : ErrorsOnly before.tree after.tree)
    (queue : after.tree.queue = before.tree.queue)
    (tasks : ∀ tid : Nat, Option.Rel (Task.Keeps after) before.tasks[tid]? after.tasks[tid]?)
    (current : ∀ nodeId, after.tree.currentNodeId = some nodeId → before.tree.currentNodeId = some nodeId)
    (currentTask : after.tree.currentTask = before.tree.currentTask) : Calm before after where
  enqueued := enqueued
  begun nodeId member := by
    rw [World.begunNodes, begun]
    exact member
  nodes nodeId node' found := by
    obtain ⟨node, present, same, state⟩ := errors.node found
    exact .inl ⟨node, present, same, state.imp id .inl⟩
  queued nodeId member := by
    rw [queue]
    exact .inl member
  tasks := tasks
  current nodeId here := ⟨current nodeId here, currentTask⟩

theorem Calm.of_marks {w : World} (change : MessageTree → MessageTree) (errors : ErrorsOnly w.tree (change w.tree))
    (control : SameControl w.tree (change w.tree)) : Calm w (w.onTree change) :=
  .of_errors rfl rfl errors control.queue (keeps_same _ _) (fun _ here => control.currentNodeId ▸ here)
    control.currentTask

namespace World

theorem advance_calm {w : World} {tid : TaskId} {task : Task} {phase : Phase} (present : w.tasks[tid]? = some task)
    (started : task.phase ≠ .created) (created : phase ≠ .created) (running : phase ≠ .running) :
    Calm w (w.advance tid phase) := by
  refine .of_errors rfl rfl (.refl _) rfl (keeps_modify fun other found => ?_) (fun _ => id) rfl
  cases present.symm.trans found
  exact .moved started created fun here => absurd here running

theorem processNode_calm {w : World} {hole : Option MessageId} (inv : Accounted hole w) {tid : TaskId} {task : Task}
    (ready : w.ready tid .created = some task) : Calm w (w.processNode tid task) := by
  obtain ⟨present, created, uncancelled⟩ := ready_some ready
  unfold processNode
  split
  · rename_i failed
    have settled : Settled w task.node := by
      cases detached : task.detached with
      | some node =>
        have known := inv.created task (List.mem_of_getElem? present) created
        exact known.2.2 (by rw [detached]; exact Option.some_ne_none node)
      | none =>
        refine .inr fun node found => ?_
        simpa [nodeState, detached, found] using failed
    refine .of_errors rfl rfl (.refl _) rfl (keeps_modify fun other found => ?_) (fun _ => id) rfl
    cases present.symm.trans found
    exact ⟨rfl, (fun no => by cases no), fun _ => .inr settled, (fun no => by cases no), fun _ => .inl, fun _ => .inl⟩
  · have extended (nodeId : MessageId) : nodeId ∈ w.begunNodes ++ [task.node] ↔
        nodeId ∈ ({ w.advance tid .running with begun := w.begun ++ [(task.node, w.nodeState task)] } :
          World).begunNodes := by
      simp [begunNodes]
    have own := (extended task.node).mp (by simp)
    refine ⟨rfl, fun nodeId member => (extended nodeId).mp (List.mem_append_left _ member),
      fun nodeId node found => .inl ⟨node, found, rfl, .inl rfl⟩, fun _ => .inl, ?_, fun _ here => ⟨here, rfl⟩⟩
    refine keeps_modify fun other found => ?_
    cases present.symm.trans found
    exact ⟨rfl, (fun no => by cases no), fun _ => .inr (.inl own), fun _ => .inr own, fun _ => .inl, fun _ => .inl⟩

theorem deliverCancel_calm {w : World} {hole : Option MessageId} (inv : Accounted hole w) {tid : TaskId}
    {task : Task} (present : w.tasks[tid]? = some task) (requested : task.cancelRequested = true) :
    Calm w (w.deliverCancel tid task) := by
  refine .of_errors rfl rfl (.refl _) rfl (keeps_modify fun other found => ?_) (fun _ => id) rfl
  cases present.symm.trans found
  by_cases created : task.phase = .created
  · have settled : Settled w task.node :=
      (inv.created task (List.mem_of_getElem? present) created).2.1 requested
    simp only [created]
    exact ⟨rfl, (fun no => by cases no), fun _ => .inr settled, (fun no => by cases no), (fun _ no => by cases no),
      fun _ => .inl⟩
  · apply Task.Keeps.moved created
    · split <;> simp
    · split <;> simp_all

theorem addNode_calm {w : World} {hole : Option MessageId} (inv : Accounted hole w) {tree : MessageTree}
    {nodeId statusMessageId parentId : MessageId} {incoming : IncomingMessage} (fresh : nodeId ∉ w.enqueued)
    (added : w.tree.addNode nodeId incoming statusMessageId parentId w.now = some tree) :
    Calm w { w.detach (w.tree.getNode nodeId).toList with tree := tree } := by
  have control := MessageTree.addNode_control added
  refine ⟨rfl, fun _ => id, ?_, ?_, ?_, ?_⟩
  · intro key node found
    rcases MessageTree.getNode_addNode added found with ⟨rfl, own, pending⟩ | ⟨old, present, own, state⟩
    · exact .inr ⟨fresh, own, pending⟩
    · exact .inl ⟨old, present, own, .inl state⟩
  · intro key member
    rw [control.queue]
    exact .inl member
  · refine keeps_map fun task member => ?_
    split
    · refine ⟨rfl, id, .inl, .inl, fun _ => .inl, fun created gone => ?_⟩
      have known := (inv.created task member created).1
      obtain ⟨node, found⟩ := Option.ne_none_iff_exists'.mp gone
      have same : node.nodeId = task.node := by simpa using List.find?_some found
      have replaced : w.tree.getNode nodeId = some node := by
        simpa using List.mem_of_find?_eq_some found
      rw [← same, inv.keyed nodeId node replaced] at known
      exact absurd known fresh
    · exact .refl _ task
  · intro key here
    rw [control.currentNodeId] at here
    exact ⟨here, control.currentTask⟩

theorem removeBranch_calm {w : World} {hole : Option MessageId} (inv : Accounted hole w)
    (branchRootId : MessageId) : Calm w { w.detach (w.tree.removeBranch branchRootId).1 with
      tree := (w.tree.removeBranch branchRootId).2 } := by
  obtain ⟨control, errors⟩ := MessageTree.removeBranch_frame w.tree branchRootId
  refine .of_errors rfl rfl errors control.queue ?_ (fun _ here => control.currentNodeId ▸ here) control.currentTask
  refine keeps_map fun task member => ?_
  split
  · refine ⟨rfl, id, .inl, .inl, fun _ => .inl, fun _ gone => .inr (.inr fun left found => ?_)⟩
    obtain ⟨node, removed⟩ := Option.ne_none_iff_exists'.mp gone
    have same : node.nodeId = task.node := by simpa using List.find?_some removed
    have absent := MessageTree.removeBranch_gone inv.keyed branchRootId (List.mem_of_find?_eq_some removed)
    rw [same] at absent
    rw [absent] at found
    cases found
  · exact .refl _ task

theorem update_calm {w : World} {hole : Option MessageId} (inv : Accounted hole w) {tid : TaskId} {task : Task}
    (ready : w.ready tid .running = some task) (state : MessageState) (sessionId errorMessage : Option String) :
    Calm w (w.onTree fun t => t.updateState task.node state sessionId errorMessage w.now) := by
  obtain ⟨present, running, _⟩ := ready_some ready
  have begun := inv.running task (List.mem_of_getElem? present) running
  have control := MessageTree.updateState_control w.tree task.node state sessionId errorMessage w.now
  refine ⟨rfl, fun _ => id, ?_, ?_, keeps_same _ _, fun key here => ⟨control.currentNodeId ▸ here, control.currentTask⟩⟩
  · intro key node found
    simp only [onTree, MessageTree.updateState, MessageTree.getNode_modifyNode] at found
    split at found
    · rename_i same
      obtain ⟨old, there, rfl⟩ := Option.map_eq_some_iff.mp found
      exact .inl ⟨old, same ▸ there, rfl, .inr (.inr (same ▸ begun))⟩
    · exact .inl ⟨node, found, rfl, .inl rfl⟩
  · intro key member
    simp only [onTree]
    rw [control.queue]
    exact .inl member

/-- The node that is marked settles; `base` is the world with or without the cancelled task. -/
theorem marked_calm {w base : World} {nodeId : MessageId} {now : Timestamp} (tree : base.tree = w.tree)
    (enqueued : base.enqueued = w.enqueued) (begun : base.begun = w.begun)
    (change : MessageTree → MessageTree) (nodes : (change w.tree).nodes = w.tree.nodes)
    (processing : (change w.tree).currentNodeId = w.tree.currentNodeId ∧
      (change w.tree).currentTask = w.tree.currentTask)
    (queue : ∀ other ∈ w.tree.queue.deque, other ≠ nodeId → other ∈ (change w.tree).queue.deque)
    (tasks : ∀ after, Settled after nodeId →
      ∀ tid : Nat, Option.Rel (Task.Keeps after) w.tasks[tid]? base.tasks[tid]?) :
    Calm w (base.onTree fun t => (change t).setNodeErrorSync nodeId "Cancelled by user" now) := by
  have control := MessageTree.setNodeErrorSync_control (change w.tree) nodeId "Cancelled by user" now
  have errors := (ErrorsOnly.of_nodes nodes).trans
    (MessageTree.setNodeErrorSync_errors (change w.tree) nodeId "Cancelled by user" now)
  have settled : Settled (base.onTree fun t => (change t).setNodeErrorSync nodeId "Cancelled by user" now) nodeId :=
    .inr fun node found => MessageTree.setNodeErrorSync_state found
  refine ⟨enqueued, fun id member => ?_, ?_, ?_, tasks _ settled, ?_⟩
  · simpa [begunNodes, onTree, begun] using member
  · intro key node found
    simp only [onTree, tree] at found
    obtain ⟨old, present, same, state⟩ := errors.node found
    exact .inl ⟨old, present, same, state.imp id .inl⟩
  · intro key member
    by_cases here : key = nodeId
    · rw [here]
      exact .inr settled
    · simp only [onTree, tree, control.queue]
      exact .inl (queue key member here)
  · intro key here
    simp only [onTree, tree, control.currentNodeId, control.currentTask, processing] at here ⊢
    exact ⟨here, trivial⟩

theorem cancelCurrentTask_keeps_tasks {w : World} (inv : Accounted none w) {nodeId : MessageId}
    (there : w.tree.getNode nodeId ≠ none) (current : w.tree.isCurrentNode nodeId = true) (after : World)
    (settled : Settled after nodeId) (tid : Nat) :
    Option.Rel (Task.Keeps after) w.tasks[tid]? w.cancelCurrentTask.tasks[tid]? := by
  unfold cancelCurrentTask
  split
  · exact keeps_same ..
  · rename_i running found
    apply keeps_modify
    intro task present
    refine ⟨rfl, id, .inl, .inl, fun created _ => .inr ?_, fun _ => .inl⟩
    have isCurrent : w.tree.currentNodeId = some nodeId := of_decide_eq_true current
    have own := (inv.current nodeId isCurrent).2 rfl there running task (cancellable_some found) present created
    rw [own]
    exact settled

theorem cancelNode_calm {w : World} (inv : Accounted none w) (nodeId : MessageId) :
    Calm w (w.cancelNode nodeId) := by
  have still : Calm w w := .of_errors rfl rfl (.refl _) rfl (keeps_same _ _) (fun _ => id) rfl
  unfold cancelNode
  split
  · exact still
  · rename_i node found
    have there : w.tree.getNode nodeId ≠ none := by
      rw [found]
      exact Option.some_ne_none node
    have queue : ∀ other ∈ w.tree.queue.deque, other ≠ nodeId →
        other ∈ (w.tree.removeFromQueue nodeId).queue.deque :=
      fun other member ne => SnapshotQueue.mem_removeIfPresent_of_ne ne member
    split
    · exact still
    · dsimp only
      split
      · rename_i current
        exact marked_calm w.cancelCurrentTask_tree w.cancelCurrentTask_logs.1 w.cancelCurrentTask_logs.2
          (·.removeFromQueue nodeId) rfl ⟨rfl, rfl⟩ queue (cancelCurrentTask_keeps_tasks inv there current)
      · exact marked_calm rfl rfl rfl (·.removeFromQueue nodeId) rfl ⟨rfl, rfl⟩ queue
          fun after _ => keeps_same after _

theorem cancelBranchNode_calm {w : World} (inv : Accounted none w) (nodeId : MessageId) :
    Calm w (w.cancelBranchNode nodeId) := by
  have still : Calm w w := .of_errors rfl rfl (.refl _) rfl (keeps_same _ _) (fun _ => id) rfl
  unfold cancelBranchNode
  split
  · exact still
  · rename_i node found
    have there : w.tree.getNode nodeId ≠ none := by
      rw [found]
      exact Option.some_ne_none node
    split
    · exact still
    · split
      · rename_i current
        exact marked_calm w.cancelCurrentTask_tree w.cancelCurrentTask_logs.1 w.cancelCurrentTask_logs.2
          (fun t => t) rfl ⟨rfl, rfl⟩ (fun _ member _ => member) (cancelCurrentTask_keeps_tasks inv there current)
      · exact marked_calm rfl rfl rfl (·.removeFromQueue nodeId) rfl ⟨rfl, rfl⟩
          (fun other member ne => SnapshotQueue.mem_removeIfPresent_of_ne ne member)
          fun after _ => keeps_same after _

theorem cancelBranch_accounted {w : World} (inv : Accounted none w) (branchRootId : MessageId) :
    Accounted none (w.cancelBranch branchRootId) := by
  unfold cancelBranch
  generalize w.tree.getDescendants branchRootId = ids
  induction ids generalizing w with
  | nil => exact inv
  | cons nodeId rest ih => exact ih (inv.calm (cancelBranchNode_calm inv nodeId))

theorem cancelRunning_marks (w : World) {nodeId : MessageId} {node : MessageNode}
    (marked : nodeId ∈ w.cancelRunning.1) (found : w.cancelRunning.2.tree.getNode nodeId = some node) :
    node.state = .error := by
  revert marked found
  unfold cancelRunning
  split
  · intro marked
    simp at marked
  · dsimp only
    split
    · intro marked
      simp at marked
    · split
      · intro marked
        simp at marked
      · split
        · intro marked
          simp at marked
        · intro marked found
          rw [List.mem_singleton.mp marked] at found
          exact MessageTree.setNodeErrorSync_state found

theorem cleanUpStale_terminal (cancelledIds ids : List MessageId) (now : Timestamp) (t : MessageTree)
    {nodeId : MessageId} (member : nodeId ∈ ids) (spared : nodeId ∉ cancelledIds) {node : MessageNode}
    (found : (ids.foldl (cleanUpStale cancelledIds now) t).getNode nodeId = some node) :
    node.state.terminal = true := by
  induction ids generalizing t with
  | nil => cases member
  | cons first rest ih =>
    by_cases later : nodeId ∈ rest
    · exact ih _ later found
    · have here : nodeId = first := by simpa [later] using member
      subst here
      obtain ⟨marked, present, _, same | error⟩ := (cleanUpStale_frame cancelledIds rest now _).2.node found
      · rw [same]
        unfold cleanUpStale at present
        split at present
        · rename_i absent
          rw [absent] at present
          cases present
        · rename_i old there
          split at present
          · rw [MessageTree.setNodeErrorSync_state present]
            rfl
          · rename_i finished
            rw [there] at present
            cases present
            simpa [spared] using finished
      · rw [error]
        rfl

theorem cancelTree_errors (w : World) : ErrorsOnly w.tree w.cancelTree.tree := by
  have drained := (MessageTree.drainQueueLoop_frame "Cancelled by user" w.cancelRunning.2.now
    w.cancelRunning.2.tree.queue.qsize w.cancelRunning.2.tree).2.2.2
  have cleaned := (cleanUpStale_frame (w.cancelRunning.1 ++
      (w.cancelRunning.2.tree.drainQueueAndMarkCancelled w.cancelRunning.2.now).1)
    (w.cancelRunning.2.tree.drainQueueAndMarkCancelled w.cancelRunning.2.now).2.nodes.keys
    w.cancelRunning.2.now (w.cancelRunning.2.tree.drainQueueAndMarkCancelled w.cancelRunning.2.now).2).2
  exact ((w.cancelRunning_subsides.errors.trans drained).trans cleaned).trans (.of_nodes rfl)

theorem cancelTree_terminal (w : World) {nodeId : MessageId} {node : MessageNode}
    (found : w.cancelTree.tree.getNode nodeId = some node) : node.state.terminal = true := by
  simp only [cancelTree, MessageTree.resetProcessingState, MessageTree.getNode] at found
  generalize running : w.cancelRunning = first at found
  obtain ⟨cancelled, w'⟩ := first
  generalize draining : w'.tree.drainQueueAndMarkCancelled w'.now = second at found
  obtain ⟨drained, tree⟩ := second
  have cleaned := cleanUpStale_frame (cancelled ++ drained) tree.nodes.keys w'.now tree
  obtain ⟨old, present, _, same | error⟩ := cleaned.2.node found
  · by_cases marked : nodeId ∈ cancelled ++ drained
    · rw [same]
      rcases List.mem_append.mp marked with earlier | queued
      · have frame := MessageTree.drainQueueLoop_frame "Cancelled by user" w'.now w'.tree.queue.qsize w'.tree
        simp only [MessageTree.drainQueueAndMarkCancelled] at draining
        rw [draining] at frame
        obtain ⟨before, there, _, kept | failed⟩ := frame.2.2.2.node present
        · have error := w.cancelRunning_marks (by rw [running]; exact earlier) (by rw [running]; exact there)
          rw [kept, error]
          rfl
        · rw [failed]
          rfl
      · simp only [MessageTree.drainQueueAndMarkCancelled] at draining
        have error : old.state = .error :=
          MessageTree.drainQueueLoop_marks "Cancelled by user" w'.now w'.tree.queue.qsize w'.tree
            (by rw [draining]; exact queued) (by rw [draining]; exact present)
        rw [error]
        rfl
    · exact cleanUpStale_terminal _ _ _ tree ((Dict.mem_keys_iff _ _).mpr ⟨old, present⟩) marked found
  · rw [error]
    rfl

theorem cancelTree_settled {w : World} (inv : Accounted none w) (nodeId : MessageId) :
    Settled w.cancelTree nodeId := by
  have begunNodes : w.cancelTree.begunNodes = w.begunNodes := by
    rw [World.begunNodes, World.begunNodes]
    congr 1
    exact w.cancelRunning_logs.2
  by_cases begun : nodeId ∈ w.cancelTree.begunNodes
  · exact .inl begun
  · refine .inr fun node found => ?_
    have terminal := w.cancelTree_terminal found
    obtain ⟨old, present, _, same | error⟩ := w.cancelTree_errors.node found
    · rcases inv.unbegun nodeId old present (begunNodes ▸ begun) with pending | error
      · rw [same, pending] at terminal
        cases terminal
      · exact same.trans error
    · exact error

theorem cancelTree_calm {w : World} (inv : Accounted none w) : Calm w w.cancelTree := by
  have settled := cancelTree_settled inv
  refine ⟨w.cancelRunning_logs.1, ?_, ?_, fun nodeId _ => .inr (settled nodeId), ?_, fun _ no => by cases no⟩
  · intro nodeId member
    rw [begunNodes] at member ⊢
    exact w.cancelRunning_logs.2 ▸ member
  · intro nodeId node found
    obtain ⟨old, present, same, state⟩ := w.cancelTree_errors.node found
    exact .inl ⟨old, present, same, state.imp id .inl⟩
  · rw [cancelTree_tasks]
    unfold cancelCurrentTask
    split
    · exact keeps_same _ _
    · exact keeps_modify fun task _ => ⟨rfl, id, .inl, .inl, fun _ _ => .inr (settled _), fun _ => .inl⟩

end World

theorem Accounted.launch {w : World} {nodeId : MessageId} (inv : Accounted (some nodeId) w)
    (current : w.tree.currentNodeId = some nodeId) : Accounted none (w.launch nodeId) := by
  rcases w.launch_cases_created nodeId with ⟨absent, same⟩ | ⟨there, same⟩
  · rw [same]
    refine ⟨inv.keyed, fun key member => ?_, inv.unbegun, inv.created, inv.running, fun key here => ?_⟩
    · rcases inv.known key member with settled | waiting | hole
      · exact .inl settled
      · exact .inr (.inl waiting)
      · cases hole
        refine .inl (.inr fun node found => ?_)
        rw [absent] at found
        cases found
    · refine ⟨(inv.current key here).1, fun _ there => ?_⟩
      cases current.symm.trans here
      exact absurd absent there
  · rw [same]
    have own := (inv.current nodeId current).1
    have waits (key : MessageId) : key ∈ (w.createTask nodeId).waiting ↔ key ∈ w.waiting ∨ key = nodeId := by
      simp only [World.waiting, World.createTask, createdNodes_append, List.mem_append, List.mem_singleton,
        MessageTree.setCurrentTask]
      tauto
    refine ⟨inv.keyed, fun key member => ?_, inv.unbegun, fun task member created => ?_,
      fun task member running => ?_, fun key here => ?_⟩
    · rcases inv.known key member with settled | waiting | hole
      · exact .inl settled
      · exact .inr (.inl ((waits key).mpr (.inl waiting)))
      · cases hole
        exact .inr (.inl ((waits nodeId).mpr (.inr rfl)))
    · rcases List.mem_append.mp member with old | new
      · exact inv.created task old created
      · rw [List.mem_singleton.mp new]
        exact ⟨own, (fun no => by cases no), fun gone => absurd rfl gone⟩
    · rcases List.mem_append.mp member with old | new
      · exact inv.running task old running
      · rw [List.mem_singleton.mp new] at running
        cases running
    · refine ⟨(inv.current key here).1, fun _ _ tid task isCurrent present _ => ?_⟩
      cases current.symm.trans here
      cases isCurrent
      have new : (w.tasks ++ [(⟨nodeId, none, .created, false⟩ : Task)])[w.tasks.length]? = some task := present
      rw [List.getElem?_concat_length] at new
      cases new
      rfl

theorem Accounted.starting {w : World} (inv : Accounted none w) (nodeId : MessageId) :
    Accounted (some nodeId) (w.starting nodeId) := by
  refine ⟨inv.keyed, fun key member => ?_, inv.unbegun, fun task member created => ?_, inv.running,
    fun key here => ?_⟩
  · rcases List.mem_append.mp member with old | new
    · rcases inv.known key old with settled | waiting | hole
      · exact .inl settled
      · exact .inr (.inl waiting)
      · cases hole
    · rw [List.mem_singleton.mp new]
      exact .inr (.inr rfl)
  · obtain ⟨known, rest⟩ := inv.created task member created
    exact ⟨List.mem_append_left _ known, rest⟩
  · cases here
    exact ⟨List.mem_append_right _ (List.mem_singleton_self _), fun no => by cases no⟩

theorem Accounted.queued {w : World} (inv : Accounted none w) (nodeId : MessageId) :
    Accounted none { w with enqueued := w.enqueued ++ [nodeId], tree := w.tree.putQueueUnlocked nodeId } := by
  refine ⟨inv.keyed, fun key member => ?_, inv.unbegun, fun task member created => ?_, inv.running,
    fun key here => ?_⟩
  · rcases List.mem_append.mp member with old | new
    · rcases inv.known key old with settled | waiting | hole
      · exact .inl settled
      · refine .inr (.inl ?_)
        rcases List.mem_append.mp waiting with created | queued
        · exact List.mem_append_left _ created
        · exact List.mem_append_right _ (List.mem_append_left _ queued)
      · cases hole
    · rw [List.mem_singleton.mp new]
      exact .inr (.inl (List.mem_append_right _ (List.mem_append_right _ (List.mem_singleton_self _))))
  · obtain ⟨known, rest⟩ := inv.created task member created
    exact ⟨List.mem_append_left _ known, rest⟩
  · obtain ⟨known, own⟩ := inv.current key here
    exact ⟨List.mem_append_left _ known, own⟩

theorem Accounted.enqueue {w : World} (inv : Accounted none w) (nodeId : MessageId) :
    Accounted none (w.enqueueAndStart nodeId) := by
  cases busy : w.tree.isProcessing with
  | true =>
    simp only [World.enqueueAndStart, busy, if_true]
    exact inv.queued nodeId
  | false =>
    rw [World.enqueueAndStart_idle nodeId busy]
    exact (inv.starting nodeId).launch rfl

theorem Accounted.resuming {w : World} (inv : Accounted none w) {tid : TaskId} {task : Task}
    (ready : w.ready tid .dequeuing = some task) {nodeId : MessageId} {queue : SnapshotQueue MessageId}
    (head : w.tree.queue.deque = nodeId :: queue.deque) (known : nodeId ∈ w.enqueued) :
    Accounted (some nodeId) (w.resuming tid nodeId queue) := by
  obtain ⟨present, dequeuing, _⟩ := World.ready_some ready
  have created := World.resuming_flow ready nodeId queue
  have moved : ∀ task' ∈ (w.resuming tid nodeId queue).tasks, task' ∈ w.tasks ∨ task'.phase = .notifying := by
    intro task' member
    obtain ⟨j, now⟩ := List.getElem?_of_mem member
    simp only [World.resuming, World.advance, List.getElem?_modify] at now
    obtain ⟨old, there, rfl⟩ := Option.map_eq_some_iff.mp now
    split
    · exact .inr rfl
    · exact .inl (List.mem_of_getElem? there)
  refine ⟨inv.keyed, fun key member => ?_, inv.unbegun, fun task' member isCreated => ?_,
    fun task' member running => ?_, fun key here => ?_⟩
  · rcases inv.known key member with settled | waiting | hole
    · exact .inl settled
    · rw [World.waiting, head] at waiting
      rcases List.mem_append.mp waiting with launched | queued
      · rw [← created] at launched
        exact .inr (.inl (List.mem_append_left _ launched))
      · rcases List.mem_cons.mp queued with rfl | later
        · exact .inr (.inr rfl)
        · exact .inr (.inl (List.mem_append_right _ later))
    · cases hole
  · rcases moved task' member with old | notifying
    · exact inv.created task' old isCreated
    · rw [notifying] at isCreated
      cases isCreated
  · rcases moved task' member with old | notifying
    · exact inv.running task' old running
    · rw [notifying] at running
      cases running
  · cases here
    exact ⟨known, fun no => by cases no⟩

theorem Accounted.next {w : World} (inv : Accounted none w)
    (listed : ∀ nodeId ∈ w.tree.queue.deque, nodeId ∈ w.enqueued) {tid : TaskId} {task : Task}
    (ready : w.ready tid .dequeuing = some task) : Accounted none (w.processNext tid) := by
  obtain ⟨present, dequeuing, _⟩ := World.ready_some ready
  cases queued : w.tree.queue.deque with
  | nil =>
    rw [World.processNext_empty tid queued]
    refine inv.calm (.of_errors rfl rfl (.of_nodes rfl) rfl (keeps_modify fun other found => ?_)
      (fun _ no => by cases no) rfl)
    cases present.symm.trans found
    exact .moved (by simp [dequeuing]) (fun no => by cases no) (fun no => by cases no)
  | cons nodeId rest =>
    rw [World.processNext_head tid queued]
    have known := listed nodeId (by rw [queued]; exact List.mem_cons_self)
    exact (inv.resuming ready queued known).launch rfl

theorem Accounted.step {w next : World} {a : Action} (inv : Accounted none w) (orderly : Orderly w)
    (fresh : enqueuedOnce w a = true) (taken : step w a = some next) : Accounted none next := by
  cases a with
  | tick =>
    cases taken
    exact inv.calm (.of_errors rfl rfl (.refl _) rfl (keeps_same _ _) (fun _ => id) rfl)
  | addNode nodeId incoming statusMessageId parentId =>
    simp only [ClaudeProxy.Trees.step] at taken
    split at taken
    · cases taken
    · obtain ⟨tree, added, rfl⟩ := Option.map_eq_some_iff.mp taken
      exact inv.calm (World.addNode_calm inv (of_decide_eq_true fresh) added)
  | enqueue nodeId =>
    simp only [ClaudeProxy.Trees.step] at taken
    split at taken
    · cases taken
    · cases taken
      exact inv.enqueue nodeId
  | start tid =>
    simp only [ClaudeProxy.Trees.step] at taken
    split at taken
    · cases taken
    · obtain ⟨task, ready, rfl⟩ := Option.map_eq_some_iff.mp taken
      exact inv.calm (World.processNode_calm inv ready)
  | update tid state sessionId errorMessage =>
    obtain ⟨task, ready, rfl⟩ := Option.map_eq_some_iff.mp taken
    exact inv.calm (World.update_calm inv ready ..)
  | fail tid errorMessage =>
    obtain ⟨task, ready, rfl⟩ := Option.map_eq_some_iff.mp taken
    split
    · exact inv
    · have frame := MessageTree.markNodeError_frame w.tree task.node errorMessage true w.now
      exact inv.calm (.of_marks _ frame.2 frame.1)
  | finish tid =>
    obtain ⟨task, ready, rfl⟩ := Option.map_eq_some_iff.mp taken
    obtain ⟨present, running, _⟩ := World.ready_some ready
    exact inv.calm (World.advance_calm present (by simp [running]) (fun no => by cases no) (fun no => by cases no))
  | raise tid =>
    obtain ⟨task, ready, rfl⟩ := Option.map_eq_some_iff.mp taken
    obtain ⟨present, running, _⟩ := World.ready_some ready
    exact inv.calm (World.advance_calm present (by simp [running]) (fun no => by cases no) (fun no => by cases no))
  | handle tid errorMessage =>
    obtain ⟨task, ready, rfl⟩ := Option.map_eq_some_iff.mp taken
    obtain ⟨present, handling, _⟩ := World.ready_some ready
    have marked := inv.calm (.of_marks (fun t => t.updateState task.node .error none (some errorMessage) w.now)
      (MessageTree.updateState_errors ..) (MessageTree.updateState_control ..))
    exact marked.calm (World.advance_calm present (by simp [handling]) (fun no => by cases no) (fun no => by cases no))
  | clear tid =>
    obtain ⟨task, ready, rfl⟩ := Option.map_eq_some_iff.mp taken
    obtain ⟨present, clearing, _⟩ := World.ready_some ready
    refine inv.calm (.of_errors rfl rfl (.of_nodes rfl) rfl (keeps_modify fun other found => ?_)
      (fun _ no => by cases no) rfl)
    cases present.symm.trans found
    exact .moved (by simp [clearing]) (fun no => by cases no) (fun no => by cases no)
  | next tid =>
    obtain ⟨task, ready, rfl⟩ := Option.map_eq_some_iff.mp taken
    refine inv.next (fun nodeId member => orderly.inOrder.subset ?_) ready
    exact List.mem_append_right _ (List.mem_append_right _ member)
  | notified tid =>
    obtain ⟨task, ready, rfl⟩ := Option.map_eq_some_iff.mp taken
    obtain ⟨present, notifying, _⟩ := World.ready_some ready
    exact inv.calm (World.advance_calm present (by simp [notifying]) (fun no => by cases no) (fun no => by cases no))
  | deliver tid =>
    simp only [ClaudeProxy.Trees.step] at taken
    split at taken
    · cases taken
    · rename_i task present
      split at taken
      · rename_i requested
        cases taken
        exact inv.calm (World.deliverCancel_calm inv present requested.1)
      · cases taken
  | cancelNode nodeId =>
    simp only [ClaudeProxy.Trees.step] at taken
    split at taken
    · cases taken
    · cases taken
      exact inv.calm (World.cancelNode_calm inv nodeId)
  | cancelBranch branchRootId =>
    simp only [ClaudeProxy.Trees.step] at taken
    split at taken
    · cases taken
    · cases taken
      exact World.cancelBranch_accounted inv branchRootId
  | cancelTree =>
    simp only [ClaudeProxy.Trees.step] at taken
    split at taken
    · cases taken
    · cases taken
      exact inv.calm (World.cancelTree_calm inv)
  | removeBranch branchRootId =>
    simp only [ClaudeProxy.Trees.step, World.removeBranch] at taken
    split at taken
    · cases taken
    · split at taken
      · cases taken
        have after := inv.calm (World.cancelTree_calm inv)
        exact ⟨after.keyed, after.known, after.unbegun, after.created, after.running, after.current⟩
      · cases taken
        exact inv.calm (World.removeBranch_calm inv branchRootId)

/-- What a run makes of the enqueued nodes. -/
structure Fifo (w : World) : Prop where
  once : w.begunNodes.Nodup
  inOrder : List.Sublist w.begunNodes w.enqueued
  notError : ∀ entry ∈ w.begun, entry.2 ≠ some .error
  idleEmpty : w.tree.isProcessing = false → w.tree.queue.deque = []
  /-- A node is left out only when it was cancelled (it is `ERROR`) or removed. -/
  accounted : ∀ nodeId ∈ w.enqueued, nodeId ∈ w.begunNodes ∨ nodeId ∈ w.waiting ∨
    w.tree.getNode nodeId = none ∨ ∃ node, w.tree.getNode nodeId = some node ∧ node.state = .error

theorem getNode_new {root node : MessageNode} {nodeId : MessageId}
    (found : (MessageTree.new root).getNode nodeId = some node) : nodeId = root.nodeId ∧ node = root := by
  rw [MessageTree.new, MessageTree.getNode, Dict.get?_set] at found
  split at found
  · rename_i same
    exact ⟨same, (Option.some.inj found).symm⟩
  · rw [Dict.get?_empty] at found
    cases found

theorem Accounted.start {root : MessageNode} (fresh : root.state = .pending) :
    Accounted none (World.start root) := by
  refine ⟨fun nodeId node found => ?_, by simp [World.start], fun nodeId node found _ => .inl ?_,
    by simp [World.start], by simp [World.start], by simp [World.start, MessageTree.new]⟩
  · obtain ⟨same, rfl⟩ := getNode_new found
    exact same.symm
  · obtain ⟨_, rfl⟩ := getNode_new found
    exact fresh

/-- The root of a new tree is a new node. -/
theorem queue_fifo (root : MessageNode) (fresh : root.state = .pending) {w : World}
    (reached : (machine root).ReachableUnder (fun w a => enqueuedOnce w a = true) w) : Fifo w := by
  have orderly : ∀ s, (machine root).ReachableUnder (fun w a => enqueuedOnce w a = true) s → Orderly s := by
    intro s before
    apply before.invariant
    · exact ⟨fun _ => rfl, .nil, .refl _, fun _ no => by cases no⟩
    · intro s a next inv once taken
      exact inv.step once taken
  have accounted : Accounted none w := by
    apply reached.invariant_with orderly
    · exact .start fresh
    · intro s a next known inv once taken
      exact inv.step known once taken
  have known := orderly w reached
  have begunFirst : List.Sublist w.begunNodes w.enqueued := (List.sublist_append_left ..).trans known.inOrder
  refine ⟨begunFirst.nodup known.once, begunFirst, known.notError, known.idleEmpty, fun nodeId member => ?_⟩
  rcases accounted.known nodeId member with (begun | error) | waiting | hole
  · exact .inl begun
  · cases found : w.tree.getNode nodeId with
    | none => exact .inr (.inr (.inl rfl))
    | some node => exact .inr (.inr (.inr ⟨node, rfl, error node found⟩))
  · exact .inr (.inl waiting)
  · cases hole

/-- The second of three queued messages is cancelled while the first one is processed. -/
theorem queue_fifo_three : ∃ w : World, w.begunNodes = [⟨"m1", by decide⟩, ⟨"m3", by decide⟩] ∧
    w.enqueued = [⟨"m1", by decide⟩, ⟨"m2", by decide⟩, ⟨"m3", by decide⟩] ∧ Fifo w := by
  have ran : ((machine sampleRoot).runUnder enqueuedOnce (machine sampleRoot).init
      [.enqueue ⟨"m1", by decide⟩, .start 0, addReply ⟨"m2", by decide⟩ ⟨"s2", by decide⟩,
        .enqueue ⟨"m2", by decide⟩, addReply ⟨"m3", by decide⟩ ⟨"s3", by decide⟩, .enqueue ⟨"m3", by decide⟩,
        .cancelNode ⟨"m2", by decide⟩, .finish 0, .clear 0, .next 0, .start 1]).any
      (fun w => decide (w.begunNodes = [⟨"m1", by decide⟩, ⟨"m3", by decide⟩] ∧
        w.enqueued = [⟨"m1", by decide⟩, ⟨"m2", by decide⟩, ⟨"m3", by decide⟩])) = true := by decide
  obtain ⟨w, here, facts⟩ := (Option.any_eq_true _ _).mp ran
  obtain ⟨begun, enqueued⟩ := of_decide_eq_true facts
  exact ⟨w, begun, enqueued, queue_fifo sampleRoot rfl (Machine.reachableUnder_of_runUnder .init here)⟩

end ClaudeProxy.Trees

import ClaudeProxy.Trees.Frame
import ClaudeProxy.Trees.Processor

namespace ClaudeProxy.Trees

open Kit

/-- The task runs `_process_next` unless it is cancelled again: a cancellation that reaches it before
    its first step or inside its `finally` ends it, one that reaches the processor does not. -/
def Task.willProcessNext (task : Task) : Bool :=
  match task.phase with
  | .running | .handling => true
  | .created | .clearing | .dequeuing => !task.cancelRequested
  | .notifying | .done => false

/-- A cancellation requested now would keep the task from running `_process_next`. -/
def Task.fragile (task : Task) : Bool :=
  match task.phase with
  | .created | .clearing | .dequeuing => true
  | .running | .handling | .notifying | .done => false

theorem Task.willProcessNext_cancelled (task : Task) :
    ({ task with cancelRequested := true } : Task).willProcessNext = (task.willProcessNext && !task.fragile) := by
  obtain ⟨node, detached, phase, cancelRequested⟩ := task
  cases phase <;> simp [willProcessNext, fragile]

def PendingAt (tasks : List Task) (tid : TaskId) : Prop :=
  ∃ task, tasks[tid]? = some task ∧ task.willProcessNext = true

theorem pendingAt_modify (tasks : List Task) (at' tid : TaskId) (change : Task → Task) :
    PendingAt (tasks.modify at' change) tid ↔
      ∃ task, tasks[tid]? = some task ∧ (if at' = tid then change task else task).willProcessNext = true := by
  simp only [PendingAt, List.getElem?_modify]
  constructor
  · rintro ⟨task, found, pending⟩
    obtain ⟨old, present, rfl⟩ := Option.map_eq_some_iff.mp found
    exact ⟨old, present, by split at pending <;> simp_all⟩
  · rintro ⟨task, present, pending⟩
    refine ⟨_, by rw [present]; rfl, ?_⟩
    split at pending <;> simp_all

theorem pendingAt_modify_of_eq {tasks : List Task} {at' : TaskId} {change : Task → Task}
    (same : ∀ task, tasks[at']? = some task → (change task).willProcessNext = task.willProcessNext)
    (tid : TaskId) : PendingAt (tasks.modify at' change) tid ↔ PendingAt tasks tid := by
  rw [pendingAt_modify]
  constructor
  · rintro ⟨task, present, pending⟩
    refine ⟨task, present, ?_⟩
    split at pending
    · rename_i here
      rw [← same task (here ▸ present)]
      exact pending
    · exact pending
  · rintro ⟨task, present, pending⟩
    refine ⟨task, present, ?_⟩
    split
    · rename_i here
      rw [same task (here ▸ present)]
      exact pending
    · exact pending

theorem pendingAt_append (tasks : List Task) (task : Task) (tid : Nat)
    (pending : task.willProcessNext = true) :
    PendingAt (tasks ++ [task]) tid ↔ PendingAt tasks tid ∨ tid = tasks.length := by
  simp only [PendingAt, List.getElem?_append]
  constructor
  · rintro ⟨found, present, willProcess⟩
    split at present
    · exact .inl ⟨found, present, willProcess⟩
    · have bound := (List.getElem?_eq_some_iff.mp present).1
      simp only [List.length_singleton] at bound
      exact .inr (by omega)
  · rintro (⟨found, present, willProcess⟩ | rfl)
    · have bound := (List.getElem?_eq_some_iff.mp present).1
      exact ⟨found, by rw [if_pos bound, present], willProcess⟩
    · exact ⟨task, by simp, pending⟩

/-- The step leaves the flag, the current task and the set of pending tasks as they were. -/
structure Quiet (before after : World) : Prop where
  isProcessing : after.tree.isProcessing = before.tree.isProcessing
  currentTask : after.tree.currentTask = before.tree.currentTask
  pending : ∀ tid, PendingAt after.tasks tid ↔ PendingAt before.tasks tid

namespace World

theorem ready_some {w : World} {tid : TaskId} {phase : Phase} {task : Task}
    (ready : w.ready tid phase = some task) :
    w.tasks[tid]? = some task ∧ task.phase = phase ∧ task.cancelRequested = false := by
  obtain ⟨present, meets⟩ := Option.filter_eq_some_iff.mp ready
  simp only [decide_eq_true_eq] at meets
  exact ⟨present, meets⟩

theorem onTree_quiet (w : World) (change : MessageTree → MessageTree)
    (control : SameControl w.tree (change w.tree)) : Quiet w (w.onTree change) :=
  ⟨control.isProcessing, control.currentTask, fun _ => .rfl⟩

theorem detach_pending (w : World) (gone : List MessageNode) (tid : TaskId) :
    PendingAt (w.detach gone).tasks tid ↔ PendingAt w.tasks tid := by
  have kept (task : Task) : (if task.detached = none then
      { task with detached := gone.find? fun node => node.nodeId = task.node } else task).willProcessNext =
        task.willProcessNext := by
    split <;> rfl
  simp only [PendingAt, detach, List.getElem?_map]
  constructor
  · rintro ⟨task, found, pending⟩
    obtain ⟨old, present, rfl⟩ := Option.map_eq_some_iff.mp found
    exact ⟨old, present, kept old ▸ pending⟩
  · rintro ⟨task, present, pending⟩
    exact ⟨_, by rw [present]; rfl, (kept task).symm ▸ pending⟩

theorem advance_quiet {w : World} {tid : TaskId} {task : Task} {phase : Phase}
    (present : w.tasks[tid]? = some task)
    (same : ({ task with phase := phase } : Task).willProcessNext = task.willProcessNext) :
    Quiet w (w.advance tid phase) := by
  refine ⟨rfl, rfl, pendingAt_modify_of_eq ?_⟩
  intro other found
  cases present.symm.trans found
  exact same

theorem processNode_quiet {w : World} {tid : TaskId} {task : Task}
    (ready : w.ready tid .created = some task) : Quiet w (w.processNode tid task) := by
  obtain ⟨present, created, uncancelled⟩ := ready_some ready
  unfold processNode
  split
  · exact advance_quiet present (by simp [Task.willProcessNext, created, uncancelled])
  · have moved : Quiet w (w.advance tid .running) :=
      advance_quiet present (by simp [Task.willProcessNext, created, uncancelled])
    exact ⟨moved.isProcessing, moved.currentTask, moved.pending⟩

theorem deliverCancel_quiet {w : World} {tid : TaskId} {task : Task} (present : w.tasks[tid]? = some task)
    (requested : task.cancelRequested = true) : Quiet w (w.deliverCancel tid task) := by
  refine ⟨rfl, rfl, pendingAt_modify_of_eq ?_⟩
  intro other found
  cases present.symm.trans found
  obtain ⟨node, detached, phase, cancelRequested⟩ := task
  simp only at requested
  subst requested
  cases phase <;> rfl

theorem cancellable_some {w : World} {tid : TaskId} (found : w.cancellable = some tid) :
    w.tree.currentTask = some tid := (Option.filter_eq_some_iff.mp found).1

theorem cancelCurrentTask_tree (w : World) : w.cancelCurrentTask.tree = w.tree := by
  unfold cancelCurrentTask
  split <;> rfl

theorem cancelCurrentTask_pending (w : World) (tid : TaskId) :
    PendingAt w.cancelCurrentTask.tasks tid ↔ ∃ task, w.tasks[tid]? = some task ∧
      task.willProcessNext = true ∧ (w.cancellable = some tid → task.fragile = false) := by
  unfold cancelCurrentTask
  split
  · rename_i none'
    simp [PendingAt, none']
  · rename_i current found
    rw [pendingAt_modify]
    apply exists_congr
    intro task
    by_cases here : current = tid
    · subst here
      simp [found, Task.willProcessNext_cancelled]
    · have other : ¬ w.cancellable = some tid := by
        rw [found]
        exact fun same => here (Option.some.inj same)
      simp [here, other]

theorem pending_of_cancelCurrentTask {w : World} {tid : TaskId}
    (pending : PendingAt w.cancelCurrentTask.tasks tid) : PendingAt w.tasks tid := by
  obtain ⟨task, present, willProcess, _⟩ := (w.cancelCurrentTask_pending tid).mp pending
  exact ⟨task, present, willProcess⟩

theorem advance_drops {w : World} {phase : Phase} (last : phase = .notifying ∨ phase = .done)
    (tid j : TaskId) : PendingAt (w.advance tid phase).tasks j ↔ PendingAt w.tasks j ∧ j ≠ tid := by
  have never (task : Task) : ({ task with phase := phase } : Task).willProcessNext = false := by
    rcases last with rfl | rfl <;> rfl
  rw [advance, pendingAt_modify]
  constructor
  · rintro ⟨task, present, pending⟩
    split at pending
    · rw [never task] at pending
      cases pending
    · rename_i other
      exact ⟨⟨task, present, pending⟩, Ne.symm other⟩
  · rintro ⟨⟨task, present, pending⟩, other⟩
    exact ⟨task, present, by rw [if_neg (Ne.symm other)]; exact pending⟩

theorem launch_isProcessing (w : World) (nodeId : MessageId) :
    (w.launch nodeId).tree.isProcessing = w.tree.isProcessing := by
  unfold launch
  split <;> rfl

/-- Either the tree lacks the node and nothing happens, or the new task is current and pending. -/
theorem launch_cases (w : World) (nodeId : MessageId) :
    (w.tree.getNode nodeId = none ∧ w.launch nodeId = w) ∨
    (w.tree.getNode nodeId ≠ none ∧ (w.launch nodeId).tree.currentTask = some w.tasks.length ∧
      ∀ j, PendingAt (w.launch nodeId).tasks j ↔ PendingAt w.tasks j ∨ j = w.tasks.length) := by
  unfold launch
  cases found : w.tree.getNode nodeId with
  | none => exact .inl ⟨rfl, rfl⟩
  | some node =>
    refine .inr ⟨Option.some_ne_none _, rfl, fun j => ?_⟩
    exact pendingAt_append w.tasks ⟨nodeId, none, .created, false⟩ j rfl

theorem launch_pending_cases {w : World} {nodeId : MessageId} {j : TaskId}
    (pending : PendingAt (w.launch nodeId).tasks j) :
    PendingAt w.tasks j ∨ (w.launch nodeId).tree.currentTask = some j := by
  rcases w.launch_cases nodeId with ⟨_, same⟩ | ⟨_, current, tasks⟩
  · exact .inl (same ▸ pending)
  · rcases (tasks j).mp pending with old | rfl
    · exact .inl old
    · exact .inr current

theorem enqueueAndStart_busy {w : World} (nodeId : MessageId) (busy : w.tree.isProcessing = true) :
    Quiet w (w.enqueueAndStart nodeId) := by
  simp only [enqueueAndStart, busy, if_true]
  exact ⟨rfl, rfl, fun _ => .rfl⟩

def starting (w : World) (nodeId : MessageId) : World :=
  { w with
    enqueued := w.enqueued ++ [nodeId]
    tree := w.tree.setProcessingState (some nodeId) true }

theorem enqueueAndStart_idle {w : World} (nodeId : MessageId) (idle : w.tree.isProcessing = false) :
    w.enqueueAndStart nodeId = (w.starting nodeId).launch nodeId := by
  simp [enqueueAndStart, idle, starting]

theorem processNext_empty {w : World} (tid : TaskId) (empty : w.tree.queue.deque = []) :
    w.processNext tid = { w with tree := w.tree.setProcessingState none false }.advance tid .done := by
  have got := (SnapshotQueue.getNowait_eq_none_iff w.tree.queue).mpr empty
  simp [processNext, MessageTree.dequeue, got]

def resuming (w : World) (tid : TaskId) (nodeId : MessageId) (rest : SnapshotQueue MessageId) : World :=
  { w with tree := { w.tree with queue := rest }.setProcessingState (some nodeId) true }.advance tid .notifying

theorem processNext_head {w : World} (tid : TaskId) {nodeId : MessageId} {rest : List MessageId}
    (head : w.tree.queue.deque = nodeId :: rest) :
    w.processNext tid =
      (w.resuming tid nodeId ⟨rest, w.tree.queue.set.erase nodeId⟩).launch nodeId := by
  simp [processNext, MessageTree.dequeue, SnapshotQueue.getNowait, head, resuming]

def cancelsFragile (w : World) : Bool := w.cancellable.any fun tid => w.tasks[tid]?.any Task.fragile

/-- `cancel_node` and `cancel_branch` cancel the current task when they meet its live node. -/
def interrupts (w : World) (nodeId : MessageId) : Bool :=
  (w.tree.getNode nodeId).any (fun node => !node.state.terminal) && w.tree.isCurrentNode nodeId &&
    w.cancelsFragile

end World

/-- What cancelling single nodes may change: nodes become `ERROR`, queue entries go, and the current
    task is asked to stop. -/
structure Subsides (before after : World) : Prop where
  isProcessing : after.tree.isProcessing = before.tree.isProcessing
  currentTask : after.tree.currentTask = before.tree.currentTask
  currentNodeId : after.tree.currentNodeId = before.tree.currentNodeId
  errors : ErrorsOnly before.tree after.tree
  phases : ∀ j : TaskId, after.tasks[j]?.map (·.phase) = before.tasks[j]?.map (·.phase)
  pending : ∀ j, PendingAt after.tasks j → PendingAt before.tasks j

theorem Subsides.refl (w : World) : Subsides w w :=
  ⟨rfl, rfl, rfl, .refl _, fun _ => rfl, fun _ pending => pending⟩

theorem Subsides.trans {first middle last : World} (left : Subsides first middle)
    (right : Subsides middle last) : Subsides first last where
  isProcessing := right.isProcessing.trans left.isProcessing
  currentTask := right.currentTask.trans left.currentTask
  currentNodeId := right.currentNodeId.trans left.currentNodeId
  errors := left.errors.trans right.errors
  phases j := (right.phases j).trans (left.phases j)
  pending j pending := left.pending j (right.pending j pending)

namespace World

theorem cancelCurrentTask_subsides (w : World) : Subsides w w.cancelCurrentTask := by
  refine ⟨by rw [cancelCurrentTask_tree], by rw [cancelCurrentTask_tree], by rw [cancelCurrentTask_tree],
    .of_nodes (by rw [cancelCurrentTask_tree]), fun j => ?_, fun j => pending_of_cancelCurrentTask⟩
  unfold cancelCurrentTask
  split
  · rfl
  · rw [List.getElem?_modify]
    cases w.tasks[j]? with
    | none => rfl
    | some task => simp only [Option.map_eq_map, Option.map_some]; split <;> rfl

theorem markCancelled_subsides (w : World) (nodeId : MessageId) (now : Timestamp)
    (change : MessageTree → MessageTree)
    (same : (change w.tree).isProcessing = w.tree.isProcessing ∧
      (change w.tree).currentTask = w.tree.currentTask ∧
      (change w.tree).currentNodeId = w.tree.currentNodeId)
    (nodes : (change w.tree).nodes = w.tree.nodes) :
    Subsides w (w.onTree fun t => (change t).setNodeErrorSync nodeId "Cancelled by user" now) := by
  have control := MessageTree.setNodeErrorSync_control (change w.tree) nodeId "Cancelled by user" now
  exact ⟨control.isProcessing.trans same.1, control.currentTask.trans same.2.1,
    control.currentNodeId.trans same.2.2,
    (ErrorsOnly.of_nodes nodes).trans (MessageTree.setNodeErrorSync_errors ..), fun _ => rfl,
    fun _ pending => pending⟩

theorem cancelNode_subsides (w : World) (nodeId : MessageId) : Subsides w (w.cancelNode nodeId) := by
  unfold cancelNode
  split
  · exact .refl w
  · split
    · exact .refl w
    · dsimp only
      split
      · exact w.cancelCurrentTask_subsides.trans
          (markCancelled_subsides _ _ _ (·.removeFromQueue nodeId) ⟨rfl, rfl, rfl⟩ rfl)
      · exact markCancelled_subsides _ _ _ (·.removeFromQueue nodeId) ⟨rfl, rfl, rfl⟩ rfl

theorem cancelBranchNode_subsides (w : World) (nodeId : MessageId) :
    Subsides w (w.cancelBranchNode nodeId) := by
  unfold cancelBranchNode
  split
  · exact .refl w
  · split
    · exact .refl w
    · split
      · exact w.cancelCurrentTask_subsides.trans (markCancelled_subsides _ _ _ (fun t => t) ⟨rfl, rfl, rfl⟩ rfl)
      · exact markCancelled_subsides _ _ _ (·.removeFromQueue nodeId) ⟨rfl, rfl, rfl⟩ rfl

theorem cancelBranch_subsides (w : World) (branchRootId : MessageId) :
    Subsides w (w.cancelBranch branchRootId) := by
  unfold cancelBranch
  generalize w.tree.getDescendants branchRootId = ids
  induction ids generalizing w with
  | nil => exact .refl w
  | cons nodeId rest ih => exact (w.cancelBranchNode_subsides nodeId).trans (ih _)

theorem cancelCurrentTask_keeps {w : World} (spared : w.cancelsFragile = false) {j : TaskId}
    (pending : PendingAt w.tasks j) : PendingAt w.cancelCurrentTask.tasks j := by
  obtain ⟨task, present, willProcess⟩ := pending
  refine (w.cancelCurrentTask_pending j).mpr ⟨task, present, willProcess, fun found => ?_⟩
  simpa [cancelsFragile, found, present] using spared

theorem cancelNode_keeps {w : World} {nodeId : MessageId} (spared : w.interrupts nodeId = false)
    {j : TaskId} (pending : PendingAt w.tasks j) : PendingAt (w.cancelNode nodeId).tasks j := by
  unfold cancelNode
  split
  · exact pending
  · rename_i node found
    split
    · exact pending
    · rename_i live
      dsimp only
      split
      · rename_i current
        apply cancelCurrentTask_keeps _ pending
        simpa [interrupts, found, live, current] using spared
      · exact pending

theorem cancelBranchNode_keeps {w : World} {nodeId : MessageId} (spared : w.interrupts nodeId = false)
    {j : TaskId} (pending : PendingAt w.tasks j) : PendingAt (w.cancelBranchNode nodeId).tasks j := by
  unfold cancelBranchNode
  split
  · exact pending
  · rename_i node found
    split
    · exact pending
    · rename_i live
      split
      · rename_i current
        apply cancelCurrentTask_keeps _ pending
        simpa [interrupts, found, live, current] using spared
      · exact pending

theorem interrupts_iff (w : World) (nodeId : MessageId) : w.interrupts nodeId = true ↔
    (∃ node, w.tree.getNode nodeId = some node ∧ node.state.terminal = false) ∧
      w.tree.currentNodeId = some nodeId ∧ w.cancelsFragile = true := by
  cases found : w.tree.getNode nodeId <;>
    simp [interrupts, found, MessageTree.isCurrentNode, and_assoc]

end World

theorem Subsides.cancelsFragile {before after : World} (change : Subsides before after) :
    after.cancelsFragile = before.cancelsFragile := by
  have phases (j : TaskId) (test : Task → Bool) (byPhase : ∀ left right : Task, left.phase = right.phase →
      test left = test right) : after.tasks[j]?.any test = before.tasks[j]?.any test := by
    have same := change.phases j
    cases here : after.tasks[j]? <;> cases there : before.tasks[j]? <;> simp_all
    exact byPhase _ _ same
  have fragile (j : TaskId) := phases j Task.fragile fun left right same => by simp [Task.fragile, same]
  have live (j : TaskId) := phases j (fun task => task.phase ≠ .done) fun left right same => by simp [same]
  simp only [World.cancelsFragile, World.cancellable, change.currentTask, live, fragile]

/-- A node that interrupts after other nodes were cancelled interrupted before. -/
theorem Subsides.interrupts {before after : World} (change : Subsides before after) {nodeId : MessageId}
    (interrupts : after.interrupts nodeId = true) : before.interrupts nodeId = true := by
  rw [World.interrupts_iff] at interrupts ⊢
  obtain ⟨⟨node, found, live⟩, current, fragile⟩ := interrupts
  obtain ⟨old, present, _, same | error⟩ := change.errors.node found
  · exact ⟨⟨old, present, same ▸ live⟩, change.currentNodeId ▸ current, change.cancelsFragile ▸ fragile⟩
  · rw [error] at live
    cases live

namespace World

theorem cancelBranch_keeps {w : World} {branchRootId : MessageId}
    (spared : ∀ nodeId ∈ w.tree.getDescendants branchRootId, w.interrupts nodeId = false) {j : TaskId}
    (pending : PendingAt w.tasks j) : PendingAt (w.cancelBranch branchRootId).tasks j := by
  unfold cancelBranch
  generalize w.tree.getDescendants branchRootId = ids at spared ⊢
  induction ids generalizing w with
  | nil => exact pending
  | cons nodeId rest ih =>
    have here : PendingAt (w.cancelBranchNode nodeId).tasks j :=
      cancelBranchNode_keeps (spared nodeId List.mem_cons_self) pending
    apply ih here
    intro other member
    have before := spared other (List.mem_cons_of_mem _ member)
    cases after : (w.cancelBranchNode nodeId).interrupts other with
    | false => rfl
    | true =>
      rw [(w.cancelBranchNode_subsides nodeId).interrupts after] at before
      cases before

theorem cancelRunning_subsides (w : World) : Subsides w w.cancelRunning.2 := by
  unfold cancelRunning
  split
  · exact .refl w
  · dsimp only
    split
    · exact w.cancelCurrentTask_subsides
    · split
      · exact w.cancelCurrentTask_subsides
      · split
        · exact w.cancelCurrentTask_subsides
        · exact w.cancelCurrentTask_subsides.trans
            (markCancelled_subsides _ _ _ (fun t => t) ⟨rfl, rfl, rfl⟩ rfl)

theorem cancelRunning_tasks (w : World) : w.cancelRunning.2.tasks = w.cancelCurrentTask.tasks := by
  unfold cancelRunning
  split
  · rename_i none'
    simp [cancelCurrentTask, none']
  · dsimp only
    repeat' split
    all_goals rfl

theorem cancelTree_tasks (w : World) : w.cancelTree.tasks = w.cancelCurrentTask.tasks := by
  rw [← cancelRunning_tasks]
  rfl

end World

/-- What one step does to the flag, the current task and the pending tasks. -/
inductive StepEffect (before after : World) : Action → Prop where
  | quiet {a : Action} (same : Quiet before after) : StepEffect before after a
  | enqueue {nodeId : MessageId} (eq : after = before.enqueueAndStart nodeId) :
      StepEffect before after (.enqueue nodeId)
  | next {tid : TaskId} {task : Task} (ready : before.ready tid .dequeuing = some task)
      (eq : after = before.processNext tid) : StepEffect before after (.next tid)
  | cancelNode {nodeId : MessageId} (eq : after = before.cancelNode nodeId) :
      StepEffect before after (.cancelNode nodeId)
  | cancelBranch {branchRootId : MessageId} (eq : after = before.cancelBranch branchRootId) :
      StepEffect before after (.cancelBranch branchRootId)
  | cancelTree (eq : after = before.cancelTree) : StepEffect before after .cancelTree
  | removeTree {branchRootId : MessageId} (root : branchRootId = before.tree.rootId)
      (eq : after = { before.cancelTree with inRepository := false }) :
      StepEffect before after (.removeBranch branchRootId)

theorem step_effect {w next : World} {a : Action} (taken : step w a = some next) : StepEffect w next a := by
  cases a with
  | tick =>
    cases taken
    exact .quiet ⟨rfl, rfl, fun _ => .rfl⟩
  | addNode nodeId incoming statusMessageId parentId =>
    simp only [step] at taken
    split at taken
    · cases taken
    · obtain ⟨tree, added, rfl⟩ := Option.map_eq_some_iff.mp taken
      have control := MessageTree.addNode_control added
      exact .quiet ⟨control.isProcessing, control.currentTask, w.detach_pending _⟩
  | enqueue nodeId =>
    simp only [step] at taken
    split at taken
    · cases taken
    · cases taken
      exact .enqueue rfl
  | start tid =>
    simp only [step] at taken
    split at taken
    · cases taken
    · obtain ⟨task, ready, rfl⟩ := Option.map_eq_some_iff.mp taken
      exact .quiet (World.processNode_quiet ready)
  | update tid state sessionId errorMessage =>
    obtain ⟨task, _, rfl⟩ := Option.map_eq_some_iff.mp taken
    exact .quiet (w.onTree_quiet _ (MessageTree.updateState_control ..))
  | fail tid errorMessage =>
    obtain ⟨task, _, rfl⟩ := Option.map_eq_some_iff.mp taken
    split
    · exact .quiet ⟨rfl, rfl, fun _ => .rfl⟩
    · exact .quiet (w.onTree_quiet _ (MessageTree.markNodeError_frame ..).1)
  | finish tid =>
    obtain ⟨task, ready, rfl⟩ := Option.map_eq_some_iff.mp taken
    obtain ⟨present, running, uncancelled⟩ := World.ready_some ready
    exact .quiet (World.advance_quiet present (by simp [Task.willProcessNext, running, uncancelled]))
  | raise tid =>
    obtain ⟨task, ready, rfl⟩ := Option.map_eq_some_iff.mp taken
    obtain ⟨present, running, uncancelled⟩ := World.ready_some ready
    exact .quiet (World.advance_quiet present (by simp [Task.willProcessNext, running]))
  | handle tid errorMessage =>
    obtain ⟨task, ready, rfl⟩ := Option.map_eq_some_iff.mp taken
    obtain ⟨present, handling, uncancelled⟩ := World.ready_some ready
    have moved : Quiet w (w.advance tid .clearing) :=
      World.advance_quiet present (by simp [Task.willProcessNext, handling, uncancelled])
    have control := MessageTree.updateState_control w.tree task.node .error none (some errorMessage) w.now
    exact .quiet ⟨control.isProcessing, control.currentTask, moved.pending⟩
  | clear tid =>
    obtain ⟨task, ready, rfl⟩ := Option.map_eq_some_iff.mp taken
    obtain ⟨present, clearing, uncancelled⟩ := World.ready_some ready
    have moved : Quiet w (w.advance tid .dequeuing) :=
      World.advance_quiet present (by simp [Task.willProcessNext, clearing, uncancelled])
    exact .quiet ⟨rfl, rfl, moved.pending⟩
  | next tid =>
    obtain ⟨task, ready, rfl⟩ := Option.map_eq_some_iff.mp taken
    exact .next ready rfl
  | notified tid =>
    obtain ⟨task, ready, rfl⟩ := Option.map_eq_some_iff.mp taken
    obtain ⟨present, notifying, uncancelled⟩ := World.ready_some ready
    exact .quiet (World.advance_quiet present (by simp [Task.willProcessNext, notifying]))
  | deliver tid =>
    simp only [step] at taken
    split at taken
    · cases taken
    · rename_i task present
      split at taken
      · rename_i requested
        cases taken
        exact .quiet (World.deliverCancel_quiet present requested.1)
      · cases taken
  | cancelNode nodeId =>
    simp only [step] at taken
    split at taken
    · cases taken
    · cases taken
      exact .cancelNode rfl
  | cancelBranch branchRootId =>
    simp only [step] at taken
    split at taken
    · cases taken
    · cases taken
      exact .cancelBranch rfl
  | cancelTree =>
    simp only [step] at taken
    split at taken
    · cases taken
    · cases taken
      exact .cancelTree rfl
  | removeBranch branchRootId =>
    simp only [step, World.removeBranch] at taken
    split at taken
    · cases taken
    · split at taken
      · rename_i root
        cases taken
        exact .removeTree root rfl
      · cases taken
        have frame := MessageTree.removeBranch_frame w.tree branchRootId
        exact .quiet ⟨frame.1.isProcessing, frame.1.currentTask, w.detach_pending _⟩

end ClaudeProxy.Trees

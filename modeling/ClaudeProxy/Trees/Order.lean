import ClaudeProxy.Trees.Exclusion

namespace ClaudeProxy.Trees

open Kit

/-- The nodes whose tasks have not taken their first step, oldest task first. -/
def createdNodes (tasks : List Task) : List MessageId :=
  (tasks.filter fun task => task.phase = .created).map (·.node)

theorem createdNodes_cons (task : Task) (rest : List Task) : createdNodes (task :: rest) =
    if task.phase = .created then task.node :: createdNodes rest else createdNodes rest := by
  by_cases created : task.phase = .created <;> simp [createdNodes, created]

theorem createdNodes_append (tasks : List Task) (nodeId : MessageId) :
    createdNodes (tasks ++ [⟨nodeId, none, .created, false⟩]) = createdNodes tasks ++ [nodeId] := by
  simp [createdNodes]

theorem mem_createdNodes {tasks : List Task} {task : Task} (member : task ∈ tasks)
    (created : task.phase = .created) : task.node ∈ createdNodes tasks :=
  List.mem_map_of_mem (List.mem_filter.mpr ⟨member, by simpa using created⟩)

theorem createdNodes_modify {tasks : List Task} {i : Nat} {change : Task → Task}
    (same : ∀ task, tasks[i]? = some task →
      ((change task).phase = .created ↔ task.phase = .created) ∧ (change task).node = task.node) :
    createdNodes (tasks.modify i change) = createdNodes tasks := by
  induction tasks generalizing i with
  | nil => simp [createdNodes]
  | cons task rest ih =>
    cases i with
    | zero =>
      obtain ⟨phase, node⟩ := same task rfl
      simp only [List.modify_zero_cons, createdNodes_cons, phase, node]
    | succ i =>
      rw [List.modify_succ_cons, createdNodes_cons, createdNodes_cons,
        ih fun task present => same task (by simpa using present)]

theorem createdNodes_map (tasks : List Task) (change : Task → Task)
    (same : ∀ task, (change task).phase = task.phase ∧ (change task).node = task.node) :
    createdNodes (tasks.map change) = createdNodes tasks := by
  induction tasks with
  | nil => rfl
  | cons task rest ih => rw [List.map_cons, createdNodes_cons, createdNodes_cons, ih, (same task).1, (same task).2]

/-- When the oldest created task moves on, the list of created nodes loses its head. -/
theorem createdNodes_first {tasks : List Task} {i : Nat} {task : Task}
    (first : (tasks.findIdx? fun task => task.phase = .created) = some i) (present : tasks[i]? = some task) :
    ∃ rest, createdNodes tasks = task.node :: rest ∧
      ∀ change : Task → Task, (change task).phase ≠ .created → createdNodes (tasks.modify i change) = rest := by
  induction tasks generalizing i with
  | nil => simp at present
  | cons head tail ih =>
    rw [List.findIdx?_cons] at first
    split at first
    · rename_i created
      cases first
      cases present
      refine ⟨createdNodes tail, by simp_all [createdNodes_cons], fun change moved => ?_⟩
      rw [List.modify_zero_cons, createdNodes_cons, if_neg moved]
    · rename_i started
      obtain ⟨j, found, rfl⟩ := Option.map_eq_some_iff.mp first
      obtain ⟨rest, here, moves⟩ := ih found (by simpa using present)
      have skipped : ¬ head.phase = .created := by simpa using started
      refine ⟨rest, by rw [createdNodes_cons, if_neg skipped, here], fun change moved => ?_⟩
      rw [List.modify_succ_cons, createdNodes_cons, if_neg skipped, moves change moved]

namespace World

def begunNodes (w : World) : List MessageId := w.begun.map Prod.fst

/-- Launched and not begun, then queued. -/
def waiting (w : World) : List MessageId := createdNodes w.tasks ++ w.tree.queue.deque

/-- The way of the nodes through the tree: begun, launched, queued. -/
def progress (w : World) : List MessageId := w.begunNodes ++ w.waiting

end World

structure Flow (before after : World) (new : List MessageId) : Prop where
  enqueued : after.enqueued = before.enqueued ++ new
  sublist : List.Sublist after.progress (before.progress ++ new)
  queue : List.Sublist after.tree.queue.deque (before.tree.queue.deque ++ new)
  notError : (∀ entry ∈ before.begun, entry.2 ≠ some .error) → ∀ entry ∈ after.begun, entry.2 ≠ some .error

theorem Flow.still {before after : World} (enqueued : after.enqueued = before.enqueued)
    (begun : after.begun = before.begun) (created : createdNodes after.tasks = createdNodes before.tasks)
    (queue : List.Sublist after.tree.queue.deque before.tree.queue.deque) : Flow before after [] where
  enqueued := by rw [enqueued, List.append_nil]
  sublist := by
    rw [List.append_nil]
    simp only [World.progress, World.waiting, World.begunNodes, begun, created]
    exact ((List.Sublist.refl _).append ((List.Sublist.refl _).append queue))
  queue := by
    rw [List.append_nil]
    exact queue
  notError := by
    rw [begun]
    exact id

def Action.enqueues : Action → List MessageId
  | .enqueue nodeId => [nodeId]
  | _ => []

namespace World

theorem advance_flow {w : World} {tid : TaskId} {task : Task} {phase : Phase} (present : w.tasks[tid]? = some task)
    (started : task.phase ≠ .created) (moved : phase ≠ .created) : Flow w (w.advance tid phase) [] := by
  refine Flow.still rfl rfl ?_ ?_
  · apply createdNodes_modify
    intro other found
    cases present.symm.trans found
    exact ⟨by simp [started, moved], rfl⟩
  · exact .refl _

theorem detach_created (w : World) (gone : List MessageNode) :
    createdNodes (w.detach gone).tasks = createdNodes w.tasks := by
  apply createdNodes_map
  intro task
  split <;> exact ⟨rfl, rfl⟩

theorem cancelCurrentTask_created (w : World) : createdNodes w.cancelCurrentTask.tasks = createdNodes w.tasks := by
  unfold cancelCurrentTask
  split
  · rfl
  · exact createdNodes_modify fun _ _ => ⟨.rfl, rfl⟩

theorem cancelCurrentTask_logs (w : World) :
    w.cancelCurrentTask.enqueued = w.enqueued ∧ w.cancelCurrentTask.begun = w.begun := by
  unfold cancelCurrentTask
  split <;> exact ⟨rfl, rfl⟩

theorem cancelCurrentTask_flow (w : World) : Flow w w.cancelCurrentTask [] :=
  .still w.cancelCurrentTask_logs.1 w.cancelCurrentTask_logs.2 w.cancelCurrentTask_created
    (by rw [cancelCurrentTask_tree])

theorem onTree_flow (w : World) (change : MessageTree → MessageTree)
    (queue : List.Sublist (change w.tree).queue.deque w.tree.queue.deque) : Flow w (w.onTree change) [] :=
  .still rfl rfl rfl queue

end World

theorem Flow.trans {first middle last : World} (left : Flow first middle []) (right : Flow middle last []) :
    Flow first last [] where
  enqueued := by rw [right.enqueued, left.enqueued, List.append_nil]
  sublist := by
    have one := left.sublist
    have two := right.sublist
    rw [List.append_nil] at one two ⊢
    exact two.trans one
  queue := by
    have one := left.queue
    have two := right.queue
    rw [List.append_nil] at one two ⊢
    exact two.trans one
  notError before := right.notError (left.notError before)

namespace World

theorem markCancelled_flow (w : World) (nodeId : MessageId) (now : Timestamp) (change : MessageTree → MessageTree)
    (queue : List.Sublist (change w.tree).queue.deque w.tree.queue.deque) :
    Flow w (w.onTree fun t => (change t).setNodeErrorSync nodeId "Cancelled by user" now) [] := by
  apply onTree_flow
  rw [(MessageTree.setNodeErrorSync_control (change w.tree) nodeId "Cancelled by user" now).queue]
  exact queue

theorem cancelNode_flow (w : World) (nodeId : MessageId) : Flow w (w.cancelNode nodeId) [] := by
  unfold cancelNode
  split
  · exact .still rfl rfl rfl (.refl _)
  · split
    · exact .still rfl rfl rfl (.refl _)
    · dsimp only
      split
      · exact w.cancelCurrentTask_flow.trans
          (markCancelled_flow _ _ _ (·.removeFromQueue nodeId) (MessageTree.removeFromQueue_sublist ..))
      · exact markCancelled_flow _ _ _ (·.removeFromQueue nodeId) (MessageTree.removeFromQueue_sublist ..)

theorem cancelBranchNode_flow (w : World) (nodeId : MessageId) : Flow w (w.cancelBranchNode nodeId) [] := by
  unfold cancelBranchNode
  split
  · exact .still rfl rfl rfl (.refl _)
  · split
    · exact .still rfl rfl rfl (.refl _)
    · split
      · exact w.cancelCurrentTask_flow.trans (markCancelled_flow _ _ _ (fun t => t) (.refl _))
      · exact markCancelled_flow _ _ _ (·.removeFromQueue nodeId) (MessageTree.removeFromQueue_sublist ..)

theorem cancelBranch_flow (w : World) (branchRootId : MessageId) : Flow w (w.cancelBranch branchRootId) [] := by
  unfold cancelBranch
  generalize w.tree.getDescendants branchRootId = ids
  induction ids generalizing w with
  | nil => exact .still rfl rfl rfl (.refl _)
  | cons nodeId rest ih => exact (w.cancelBranchNode_flow nodeId).trans (ih _)

theorem cancelRunning_logs (w : World) :
    w.cancelRunning.2.enqueued = w.enqueued ∧ w.cancelRunning.2.begun = w.begun := by
  unfold cancelRunning
  split
  · exact ⟨rfl, rfl⟩
  · dsimp only
    repeat' split
    all_goals exact w.cancelCurrentTask_logs

theorem cleanUpStale_frame (cancelledIds ids : List MessageId) (now : Timestamp) (t : MessageTree) :
    SameControl t (ids.foldl (cleanUpStale cancelledIds now) t) ∧
      ErrorsOnly t (ids.foldl (cleanUpStale cancelledIds now) t) := by
  induction ids generalizing t with
  | nil => exact ⟨.refl t, .refl t⟩
  | cons nodeId rest ih =>
    have here : SameControl t (cleanUpStale cancelledIds now t nodeId) ∧
        ErrorsOnly t (cleanUpStale cancelledIds now t nodeId) := by
      unfold cleanUpStale
      split
      · exact ⟨.refl t, .refl t⟩
      · split
        · exact ⟨MessageTree.setNodeErrorSync_control .., MessageTree.setNodeErrorSync_errors ..⟩
        · exact ⟨.refl t, .refl t⟩
    exact ⟨here.1.trans (ih _).1, here.2.trans (ih _).2⟩

theorem cancelTree_deque (w : World) : w.cancelTree.tree.queue.deque = [] := by
  have drained := MessageTree.drainQueueAndMarkCancelled_deque w.cancelRunning.2.tree w.cancelRunning.2.now
  simp only [cancelTree, MessageTree.resetProcessingState]
  rw [(cleanUpStale_frame _ _ _ _).1.queue]
  exact drained

theorem cancelTree_flow (w : World) : Flow w w.cancelTree [] := by
  refine Flow.still w.cancelRunning_logs.1 w.cancelRunning_logs.2 ?_ ?_
  · rw [cancelTree_tasks, cancelCurrentTask_created]
  · rw [cancelTree_deque]
    exact List.nil_sublist _

theorem launch_cases_created (w : World) (nodeId : MessageId) :
    (w.tree.getNode nodeId = none ∧ w.launch nodeId = w) ∨
    ((w.tree.getNode nodeId).isSome = true ∧ w.launch nodeId = w.createTask nodeId) := by
  unfold launch
  cases w.tree.getNode nodeId with
  | none => exact .inl ⟨rfl, rfl⟩
  | some node => exact .inr ⟨rfl, rfl⟩

theorem launch_queue (w : World) (nodeId : MessageId) : (w.launch nodeId).tree.queue = w.tree.queue := by
  rcases w.launch_cases_created nodeId with ⟨_, same⟩ | ⟨_, same⟩
  · rw [same]
  · rw [same]
    rfl

/-- A launch puts its node behind the nodes launched before; with an empty queue it is the last one. -/
theorem launch_progress (w : World) (nodeId : MessageId) :
    List.Sublist (w.launch nodeId).progress
      (w.begunNodes ++ (createdNodes w.tasks ++ nodeId :: w.tree.queue.deque)) := by
  rcases w.launch_cases_created nodeId with ⟨_, same⟩ | ⟨_, same⟩
  · rw [same]
    exact (List.Sublist.refl _).append ((List.Sublist.refl _).append (List.sublist_cons_self ..))
  · rw [same]
    simp only [progress, waiting, createTask, createdNodes_append, List.append_assoc, List.singleton_append]
    exact .refl _

theorem enqueueAndStart_flow (w : World) (nodeId : MessageId)
    (idleEmpty : w.tree.isProcessing = false → w.tree.queue.deque = []) :
    Flow w (w.enqueueAndStart nodeId) [nodeId] := by
  cases busy : w.tree.isProcessing with
  | true =>
    simp only [enqueueAndStart, busy, if_true]
    refine ⟨rfl, ?_, .refl _, id⟩
    simp [progress, waiting, begunNodes, MessageTree.putQueueUnlocked]
  | false =>
    rw [enqueueAndStart_idle nodeId busy]
    have empty := idleEmpty busy
    have launched := (w.starting nodeId).launch_progress nodeId
    refine ⟨?_, ?_, ?_, ?_⟩
    · rcases (w.starting nodeId).launch_cases_created nodeId with ⟨_, same⟩ | ⟨_, same⟩ <;> rw [same] <;> rfl
    · simpa [progress, waiting, starting, MessageTree.setProcessingState, begunNodes, empty] using launched
    · rw [launch_queue]
      exact List.sublist_append_left ..
    · rcases (w.starting nodeId).launch_cases_created nodeId with ⟨_, same⟩ | ⟨_, same⟩ <;> rw [same] <;>
        exact id

theorem resuming_flow {w : World} {tid : TaskId} {task : Task} (ready : w.ready tid .dequeuing = some task)
    (nodeId : MessageId) (rest : SnapshotQueue MessageId) :
    createdNodes (w.resuming tid nodeId rest).tasks = createdNodes w.tasks := by
  obtain ⟨present, dequeuing, _⟩ := ready_some ready
  apply createdNodes_modify
  intro other found
  cases present.symm.trans found
  exact ⟨by simp [dequeuing], rfl⟩

theorem processNext_flow {w : World} {tid : TaskId} {task : Task} (ready : w.ready tid .dequeuing = some task) :
    Flow w (w.processNext tid) [] := by
  obtain ⟨present, dequeuing, _⟩ := ready_some ready
  cases queued : w.tree.queue.deque with
  | nil =>
    rw [processNext_empty tid queued]
    have moved : Flow w (w.advance tid .done) [] := advance_flow present (by simp [dequeuing]) (by simp)
    exact ⟨moved.enqueued, moved.sublist, moved.queue, moved.notError⟩
  | cons nodeId rest =>
    rw [processNext_head tid queued]
    generalize items : (⟨rest, w.tree.queue.set.erase nodeId⟩ : SnapshotQueue MessageId) = queue
    have launched := (w.resuming tid nodeId queue).launch_progress nodeId
    have created := resuming_flow ready nodeId queue
    have deque : (w.resuming tid nodeId queue).tree.queue.deque = rest := by
      rw [← items]
      rfl
    refine ⟨?_, ?_, ?_, ?_⟩
    · rw [List.append_nil]
      rcases (w.resuming tid nodeId queue).launch_cases_created nodeId with ⟨_, same⟩ | ⟨_, same⟩ <;>
        rw [same] <;> rfl
    · rw [created, deque] at launched
      rw [List.append_nil]
      change List.Sublist _ (w.begunNodes ++ (createdNodes w.tasks ++ w.tree.queue.deque))
      rw [queued]
      exact launched
    · rw [launch_queue, deque, queued, List.append_nil]
      exact List.sublist_cons_self ..
    · rcases (w.resuming tid nodeId queue).launch_cases_created nodeId with ⟨_, same⟩ | ⟨_, same⟩ <;>
        rw [same] <;> exact id

theorem processNode_flow {w : World} {tid : TaskId} {task : Task} (turn : w.nextToStart = some tid)
    (ready : w.ready tid .created = some task) : Flow w (w.processNode tid task) [] := by
  obtain ⟨present, created, _⟩ := ready_some ready
  obtain ⟨rest, first, moves⟩ := createdNodes_first turn present
  unfold processNode
  split
  · refine ⟨by simp [advance], ?_, by simp [advance], id⟩
    simp only [progress, waiting, begunNodes, advance, List.append_nil]
    rw [moves (fun task => { task with phase := .dequeuing }) (by simp), first]
    exact (List.Sublist.refl _).append ((List.sublist_cons_self ..).append (.refl _))
  · rename_i sound
    refine ⟨by simp [advance], ?_, by simp [advance], ?_⟩
    · simp only [progress, waiting, begunNodes, advance, List.append_nil, List.map_append, List.map_cons,
        List.map_nil]
      rw [moves (fun task => { task with phase := .running }) (by simp), first]
      simp
    · intro before entry member
      rcases List.mem_append.mp member with member | member
      · exact before entry member
      · rw [List.mem_singleton.mp member]
        exact sound

theorem deliverCancel_flow {w : World} {tid : TaskId} {task : Task} (present : w.tasks[tid]? = some task)
    (turn : task.phase = .created → w.nextToStart = some tid) : Flow w (w.deliverCancel tid task) [] := by
  by_cases created : task.phase = .created
  · obtain ⟨rest, first, moves⟩ := createdNodes_first (turn created) present
    refine ⟨by simp [deliverCancel], ?_, by simp [deliverCancel], id⟩
    simp only [progress, waiting, begunNodes, deliverCancel, List.append_nil]
    rw [moves _ (by simp [created]), first]
    exact (List.Sublist.refl _).append ((List.sublist_cons_self ..).append (.refl _))
  · refine Flow.still rfl rfl ?_ ?_
    · apply createdNodes_modify
      intro other found
      cases present.symm.trans found
      refine ⟨?_, rfl⟩
      cases phase : task.phase <;> simp_all
    · exact .refl _

end World

theorem step_flow {w next : World} {a : Action} (taken : step w a = some next)
    (idleEmpty : w.tree.isProcessing = false → w.tree.queue.deque = []) : Flow w next a.enqueues := by
  cases a with
  | tick =>
    cases taken
    exact .still rfl rfl rfl (.refl _)
  | addNode nodeId incoming statusMessageId parentId =>
    simp only [step] at taken
    split at taken
    · cases taken
    · obtain ⟨tree, added, rfl⟩ := Option.map_eq_some_iff.mp taken
      refine Flow.still rfl rfl (w.detach_created _) ?_
      rw [(MessageTree.addNode_control added).queue]
  | enqueue nodeId =>
    simp only [step] at taken
    split at taken
    · cases taken
    · cases taken
      exact w.enqueueAndStart_flow nodeId idleEmpty
  | start tid =>
    simp only [step] at taken
    split at taken
    · cases taken
    · rename_i turn
      obtain ⟨task, ready, rfl⟩ := Option.map_eq_some_iff.mp taken
      exact World.processNode_flow (not_not.mp turn) ready
  | update tid state sessionId errorMessage =>
    obtain ⟨task, _, rfl⟩ := Option.map_eq_some_iff.mp taken
    apply World.onTree_flow
    rw [(MessageTree.updateState_control ..).queue]
  | fail tid errorMessage =>
    obtain ⟨task, _, rfl⟩ := Option.map_eq_some_iff.mp taken
    split
    · exact .still rfl rfl rfl (.refl _)
    · apply World.onTree_flow
      rw [(MessageTree.markNodeError_frame ..).1.queue]
  | finish tid =>
    obtain ⟨task, ready, rfl⟩ := Option.map_eq_some_iff.mp taken
    obtain ⟨present, running, _⟩ := World.ready_some ready
    exact World.advance_flow present (by simp [running]) (by simp)
  | raise tid =>
    obtain ⟨task, ready, rfl⟩ := Option.map_eq_some_iff.mp taken
    obtain ⟨present, running, _⟩ := World.ready_some ready
    exact World.advance_flow present (by simp [running]) (by simp)
  | handle tid errorMessage =>
    obtain ⟨task, ready, rfl⟩ := Option.map_eq_some_iff.mp taken
    obtain ⟨present, handling, _⟩ := World.ready_some ready
    have marked : Flow w (w.onTree fun t => t.updateState task.node .error none (some errorMessage) w.now) [] := by
      apply World.onTree_flow
      rw [(MessageTree.updateState_control ..).queue]
    exact marked.trans (World.advance_flow (w := w.onTree _) present (by simp [handling]) (by simp))
  | clear tid =>
    obtain ⟨task, ready, rfl⟩ := Option.map_eq_some_iff.mp taken
    obtain ⟨present, clearing, _⟩ := World.ready_some ready
    exact (w.onTree_flow (·.clearCurrentNode) (.refl _)).trans
      (World.advance_flow (w := w.onTree _) present (by simp [clearing]) (by simp))
  | next tid =>
    obtain ⟨task, ready, rfl⟩ := Option.map_eq_some_iff.mp taken
    exact World.processNext_flow ready
  | notified tid =>
    obtain ⟨task, ready, rfl⟩ := Option.map_eq_some_iff.mp taken
    obtain ⟨present, notifying, _⟩ := World.ready_some ready
    exact World.advance_flow present (by simp [notifying]) (by simp)
  | deliver tid =>
    simp only [step] at taken
    split at taken
    · cases taken
    · rename_i task present
      split at taken
      · rename_i requested
        cases taken
        exact World.deliverCancel_flow present requested.2
      · cases taken
  | cancelNode nodeId =>
    simp only [step] at taken
    split at taken
    · cases taken
    · cases taken
      exact w.cancelNode_flow nodeId
  | cancelBranch branchRootId =>
    simp only [step] at taken
    split at taken
    · cases taken
    · cases taken
      exact w.cancelBranch_flow branchRootId
  | cancelTree =>
    simp only [step] at taken
    split at taken
    · cases taken
    · cases taken
      exact w.cancelTree_flow
  | removeBranch branchRootId =>
    simp only [step, World.removeBranch] at taken
    split at taken
    · cases taken
    · split at taken
      · cases taken
        have flow := w.cancelTree_flow
        exact ⟨flow.enqueued, flow.sublist, flow.queue, flow.notError⟩
      · cases taken
        refine Flow.still rfl rfl (w.detach_created _) ?_
        rw [(MessageTree.removeBranch_frame w.tree branchRootId).1.queue]

end ClaudeProxy.Trees

import ClaudeProxy.Trees.Control

namespace ClaudeProxy.Trees

open Kit

/-- The processor invocation of the task has not finished; a cancelled one may still be cleaning up. -/
def World.Live (w : World) (tid : TaskId) : Prop := ∃ task, w.tasks[tid]? = some task ∧ task.phase = .running

instance (w : World) (tid : TaskId) : Decidable (w.Live tid) :=
  decidable_of_iff (w.tasks[tid]?.any (fun task => decide (task.phase = .running)) = true)
    (by simp [World.Live, Option.any_eq_true])

structure World.Exclusive (w : World) : Prop where
  unique : ∀ i j, w.Live i → w.Live j → i = j
  flagged : ∀ i, w.Live i → w.tree.isProcessing = true

/-- `cancel_tree`, also on behalf of `remove_branch`, resets the flag: it must not meet a task that is
    inside its processor or its exception handler. -/
def resetsIdle (w : World) (a : Action) : Bool :=
  if a = .cancelTree ∨ a = .removeBranch w.tree.rootId then
    w.tasks.all fun task => task.phase ≠ .running ∧ task.phase ≠ .handling
  else true

theorem World.Live.pending {w : World} {tid : TaskId} (live : w.Live tid) : PendingAt w.tasks tid := by
  obtain ⟨task, present, running⟩ := live
  exact ⟨task, present, by simp [Task.willProcessNext, running]⟩

/-- Only the current task can still reach `_process_next`, and only while the flag is set. -/
def OnePending (w : World) : Prop :=
  ∀ tid, PendingAt w.tasks tid → w.tree.currentTask = some tid ∧ w.tree.isProcessing = true

theorem OnePending.exclusive {w : World} (inv : OnePending w) : w.Exclusive where
  unique i j first second := by
    have current := (inv i first.pending).1
    rw [(inv j second.pending).1] at current
    exact (Option.some.inj current).symm
  flagged i live := (inv i live.pending).2

theorem OnePending.launch {w : World} {nodeId : MessageId} (free : ∀ j, ¬ PendingAt w.tasks j)
    (busy : w.tree.isProcessing = true) : OnePending (w.launch nodeId) := by
  intro j pending
  rcases World.launch_pending_cases pending with old | current
  · exact absurd old (free j)
  · exact ⟨current, by rw [World.launch_isProcessing, busy]⟩

theorem OnePending.subsides {before after : World} (inv : OnePending before)
    (change : Subsides before after) : OnePending after := by
  intro j pending
  rw [change.currentTask, change.isProcessing]
  exact inv j (change.pending j pending)

theorem OnePending.enqueue {w : World} (inv : OnePending w) (nodeId : MessageId) :
    OnePending (w.enqueueAndStart nodeId) := by
  cases busy : w.tree.isProcessing with
  | true =>
    have same := World.enqueueAndStart_busy nodeId busy
    intro j pending
    rw [same.currentTask, same.isProcessing]
    exact inv j ((same.pending j).mp pending)
  | false =>
    rw [World.enqueueAndStart_idle nodeId busy]
    apply OnePending.launch
    · intro j pending
      rw [(inv j pending).2] at busy
      cases busy
    · rfl

theorem OnePending.next {w : World} (inv : OnePending w) {tid : TaskId} {task : Task}
    (ready : w.ready tid .dequeuing = some task) : OnePending (w.processNext tid) := by
  obtain ⟨present, dequeuing, uncancelled⟩ := World.ready_some ready
  have own : PendingAt w.tasks tid := ⟨task, present, by simp [Task.willProcessNext, dequeuing, uncancelled]⟩
  -- the task that leaves was the only pending one
  have only (j : TaskId) (pending : PendingAt w.tasks j) : j = tid := by
    have current := (inv j pending).1
    rw [(inv tid own).1] at current
    exact (Option.some.inj current).symm
  cases queued : w.tree.queue.deque with
  | nil =>
    rw [World.processNext_empty tid queued]
    intro j pending
    obtain ⟨old, other⟩ := (World.advance_drops (.inr rfl) tid j).mp pending
    exact absurd (only j old) other
  | cons nodeId rest =>
    rw [World.processNext_head tid queued]
    apply OnePending.launch
    · intro j pending
      obtain ⟨old, other⟩ := (World.advance_drops (.inl rfl) tid j).mp pending
      exact other (only j old)
    · rfl

theorem OnePending.cancelTree {w : World} (inv : OnePending w)
    (idle : (w.tasks.all fun task => task.phase ≠ .running ∧ task.phase ≠ .handling) = true) (j : TaskId) :
    ¬ PendingAt w.cancelTree.tasks j := by
  rw [World.cancelTree_tasks]
  intro pending
  obtain ⟨task, present, willProcess, spared⟩ := (w.cancelCurrentTask_pending j).mp pending
  have current := (inv j ⟨task, present, willProcess⟩).1
  have outside : task.phase ≠ .running ∧ task.phase ≠ .handling := by
    simpa using List.all_eq_true.mp idle task (List.mem_of_getElem? present)
  obtain ⟨node, detached, phase, cancelRequested⟩ := task
  cases phase <;> simp_all [Task.fragile, Task.willProcessNext, World.cancellable]

theorem OnePending.step {w next : World} {a : Action} (inv : OnePending w) (idle : resetsIdle w a = true)
    (taken : step w a = some next) : OnePending next := by
  cases step_effect taken with
  | quiet same =>
    intro j pending
    rw [same.currentTask, same.isProcessing]
    exact inv j ((same.pending j).mp pending)
  | enqueue eq => exact eq ▸ inv.enqueue _
  | next ready eq => exact eq ▸ inv.next ready
  | cancelNode eq => exact eq ▸ inv.subsides (w.cancelNode_subsides _)
  | cancelBranch eq => exact eq ▸ inv.subsides (w.cancelBranch_subsides _)
  | cancelTree eq =>
    subst eq
    intro j pending
    exact absurd pending (inv.cancelTree (by simpa [resetsIdle] using idle) j)
  | removeTree root eq =>
    subst eq root
    intro j pending
    exact absurd pending (inv.cancelTree (by simpa [resetsIdle] using idle) j)

/-- Per-tree mutual exclusion in every run that resets the tree only between processor invocations. -/
theorem processor_exclusive (root : MessageNode) {w : World}
    (reached : (machine root).ReachableUnder (fun w a => resetsIdle w a = true) w) : w.Exclusive := by
  have inv : OnePending w := by
    apply reached.invariant
    · intro tid ⟨task, present, _⟩
      simp [machine, World.start] at present
    · intro s a next inv idle taken
      exact inv.step idle taken
  exact inv.exclusive

def sampleMessage (id : MessageId) : IncomingMessage where
  text := "hello"
  chatId := "chat"
  userId := "user"
  messageId := id
  platform := "telegram"
  replyToMessageId := none
  messageThreadId := none
  username := none
  statusMessageId := none

theorem m1_ne_empty : "m1" ≠ "" := by decide

theorem s1_ne_empty : "s1" ≠ "" := by decide

def sampleRoot : MessageNode :=
  .new ⟨"m1", m1_ne_empty⟩ (sampleMessage ⟨"m1", m1_ne_empty⟩) ⟨"s1", s1_ne_empty⟩ none 0

def addReply (id status : MessageId) : Action := .addNode id (sampleMessage id) status ⟨"m1", m1_ne_empty⟩

theorem processor_exclusive_restarted :
    ∃ w : World, w.Live 1 ∧ w.tree.queue.deque.length = 1 ∧ w.Exclusive := by
  have ran : ((machine sampleRoot).runUnder resetsIdle (machine sampleRoot).init
      [.enqueue ⟨"m1", by decide⟩, .cancelTree, .deliver 0, addReply ⟨"m2", by decide⟩ ⟨"s2", by decide⟩,
        .enqueue ⟨"m2", by decide⟩, .start 1, addReply ⟨"m3", by decide⟩ ⟨"s3", by decide⟩,
        .enqueue ⟨"m3", by decide⟩]).any
      (fun w => decide (w.Live 1 ∧ w.tree.queue.deque.length = 1)) = true := by decide
  obtain ⟨w, here, facts⟩ := (Option.any_eq_true _ _).mp ran
  obtain ⟨live, queued⟩ := of_decide_eq_true facts
  exact ⟨w, live, queued, processor_exclusive sampleRoot (Machine.reachableUnder_of_runUnder .init here)⟩

/-- `/stop` while the processor runs: its clean-up outlives the reset, and the next message starts beside it. -/
theorem cancelTree_overlaps : ¬ ∀ w, (machine sampleRoot).Reachable w → w.Exclusive := by
  intro exclusive
  have ran : ((machine sampleRoot).run (machine sampleRoot).init
      [.enqueue ⟨"m1", by decide⟩, .start 0, .cancelTree, .deliver 0,
        addReply ⟨"m2", by decide⟩ ⟨"s2", by decide⟩, .enqueue ⟨"m2", by decide⟩, .start 1]).any
      (fun w => decide (w.Live 0 ∧ w.Live 1)) = true := by decide
  obtain ⟨w, here, facts⟩ := (Option.any_eq_true _ _).mp ran
  obtain ⟨first, second⟩ := of_decide_eq_true facts
  have same := (exclusive w (Machine.reachable_of_run here)).unique 0 1 first second
  cases same

end ClaudeProxy.Trees

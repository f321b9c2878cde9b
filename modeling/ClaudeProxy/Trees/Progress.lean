import ClaudeProxy.Trees.Exclusion

namespace ClaudeProxy.Trees

open Kit

/-- Steps the event loop takes by itself up to `_process_next`, no new cancellation among them. -/
def Action.isTaskStep : Action → Bool
  | .start _ | .finish _ | .handle .. | .clear _ | .deliver _ => true
  | _ => false

def World.after (w : World) (actions : List Action) : Option World :=
  runSteps step w actions

/-- Not interrupted again, the task still gets to the locked section of `_process_next`. -/
def World.ReachesNext (w : World) (tid : TaskId) : Prop :=
  ∃ actions final, (∀ a ∈ actions, a.isTaskStep = true) ∧ w.after actions = some final ∧
    (final.ready tid .dequeuing).isSome = true

def World.Stuck (w : World) : Prop := w.tree.isProcessing = true ∧ ∀ tid, ¬ w.ReachesNext tid

theorem after_cons {w middle final : World} {a : Action} {rest : List Action} (first : step w a = some middle)
    (last : middle.after rest = some final) : w.after (a :: rest) = some final := by
  rw [World.after, runSteps, first]
  exact last

theorem World.ReachesNext.of_step {w middle : World} {a : Action} {tid : TaskId} (own : a.isTaskStep = true)
    (first : step w a = some middle) (reaches : middle.ReachesNext tid) : w.ReachesNext tid := by
  obtain ⟨actions, final, steps, ran, ready⟩ := reaches
  refine ⟨a :: actions, final, ?_, after_cons first ran, ready⟩
  intro other member
  rcases List.mem_cons.mp member with rfl | member
  · exact own
  · exact steps other member

theorem World.ReachesNext.pending {w : World} {tid : TaskId} (reaches : w.ReachesNext tid) :
    PendingAt w.tasks tid := by
  obtain ⟨actions, final, steps, ran, ready⟩ := reaches
  induction actions generalizing w with
  | nil =>
    cases ran
    obtain ⟨task, ready⟩ := Option.isSome_iff_exists.mp ready
    obtain ⟨present, dequeuing, uncancelled⟩ := World.ready_some ready
    exact ⟨task, present, by simp [Task.willProcessNext, dequeuing, uncancelled]⟩
  | cons a rest ih =>
    obtain ⟨middle, first, last⟩ := Option.bind_eq_some_iff.mp ran
    have own := steps a List.mem_cons_self
    have pending := ih (fun b member => steps b (List.mem_cons_of_mem _ member)) last
    cases step_effect first with
    | quiet same => exact (same.pending tid).mp pending
    | _ => cases own

namespace World

theorem ready_of {w : World} {tid : TaskId} {phase : Phase} {task : Task} (present : w.tasks[tid]? = some task)
    (here : task.phase = phase) (uncancelled : task.cancelRequested = false) :
    w.ready tid phase = some task := by
  simp [ready, present, here, uncancelled]

theorem advance_present {w : World} {tid : TaskId} {task : Task} (phase : Phase)
    (present : w.tasks[tid]? = some task) :
    (w.advance tid phase).tasks[tid]? = some { task with phase := phase } := by
  simp [advance, present]

theorem dequeuing_reaches {w : World} {tid : TaskId} {task : Task} (present : w.tasks[tid]? = some task)
    (here : task.phase = .dequeuing) (uncancelled : task.cancelRequested = false) : w.ReachesNext tid :=
  ⟨[], w, by simp, rfl, by rw [ready_of present here uncancelled]; rfl⟩

theorem clearing_reaches {w : World} {tid : TaskId} {task : Task} (present : w.tasks[tid]? = some task)
    (here : task.phase = .clearing) (uncancelled : task.cancelRequested = false) : w.ReachesNext tid := by
  have first : step w (.clear tid) = some ((w.onTree (·.clearCurrentNode)).advance tid .dequeuing) := by
    simp [step, ready_of present here uncancelled]
  exact .of_step rfl first (dequeuing_reaches (advance_present (w := w.onTree _) .dequeuing present) rfl uncancelled)

theorem running_reaches {w : World} {tid : TaskId} {task : Task} (present : w.tasks[tid]? = some task)
    (here : task.phase = .running) : w.ReachesNext tid := by
  cases requested : task.cancelRequested with
  | false =>
    have first : step w (.finish tid) = some (w.advance tid .clearing) := by
      simp [step, ready_of present here requested]
    exact .of_step rfl first (clearing_reaches (advance_present .clearing present) rfl requested)
  | true =>
    -- the processor gets its `CancelledError`, cleans up and returns
    have first : step w (.deliver tid) = some (w.deliverCancel tid task) := by
      simp [step, present, here, requested]
    have delivered : (w.deliverCancel tid task).tasks[tid]? = some { task with cancelRequested := false } := by
      simp [deliverCancel, present, here]
    have second : step (w.deliverCancel tid task) (.finish tid) =
        some ((w.deliverCancel tid task).advance tid .clearing) := by
      simp [step, ready_of delivered here rfl]
    exact .of_step rfl first (.of_step rfl second
      (clearing_reaches (advance_present .clearing delivered) rfl rfl))

theorem handling_reaches {w : World} {tid : TaskId} {task : Task} (present : w.tasks[tid]? = some task)
    (here : task.phase = .handling) : w.ReachesNext tid := by
  cases requested : task.cancelRequested with
  | false =>
    have first : step w (.handle tid "") = some
        ((w.onTree fun t => t.updateState task.node .error none (some "") w.now).advance tid .clearing) := by
      simp [step, ready_of present here requested]
    exact .of_step rfl first
      (clearing_reaches (advance_present (w := w.onTree _) .clearing present) rfl requested)
  | true =>
    have first : step w (.deliver tid) = some (w.deliverCancel tid task) := by
      simp [step, present, here, requested]
    have delivered : (w.deliverCancel tid task).tasks[tid]? =
        some { task with phase := .clearing, cancelRequested := false } := by
      simp [deliverCancel, present, here]
    exact .of_step rfl first (clearing_reaches delivered rfl rfl)

/-- A task past its first step, or next to take it, goes on by itself. -/
theorem started_reaches {w : World} {tid : TaskId} {task : Task} (present : w.tasks[tid]? = some task)
    (pending : task.willProcessNext = true) (turn : task.phase = .created → w.nextToStart = some tid) :
    w.ReachesNext tid := by
  cases here : task.phase with
  | created =>
    have uncancelled : task.cancelRequested = false := by simpa [Task.willProcessNext, here] using pending
    have first : step w (.start tid) = some (w.processNode tid task) := by
      simp [step, turn here, ready_of present here uncancelled]
    apply ReachesNext.of_step rfl first
    unfold processNode
    split
    · exact dequeuing_reaches (advance_present .dequeuing present) rfl uncancelled
    · exact running_reaches (w := { w.advance tid .running with begun := _ })
        (advance_present .running present) rfl
  | running => exact running_reaches present here
  | handling => exact handling_reaches present here
  | clearing => exact clearing_reaches present here (by simpa [Task.willProcessNext, here] using pending)
  | dequeuing => exact dequeuing_reaches present here (by simpa [Task.willProcessNext, here] using pending)
  | notifying => simp [Task.willProcessNext, here] at pending
  | done => simp [Task.willProcessNext, here] at pending

/-- The first step of the task whose turn it is leaves one task fewer to wait for. -/
theorem first_step {w : World} {i : TaskId} {task : Task} (turn : w.nextToStart = some i)
    (present : w.tasks[i]? = some task) :
    ∃ a next phase, a.isTaskStep = true ∧ step w a = some next ∧ phase ≠ .created ∧
      next.tasks = w.tasks.modify i fun task => { task with phase := phase, cancelRequested := false } := by
  have created : task.phase = .created := by
    obtain ⟨found, here, _⟩ := List.findIdx?_eq_some_iff_getElem.mp turn
    rw [List.getElem?_eq_getElem found] at present
    cases present
    simpa using here
  cases requested : task.cancelRequested with
  | false =>
    have same (phase : Phase) : (w.tasks.modify i fun task => { task with phase := phase }) =
        w.tasks.modify i fun task => { task with phase := phase, cancelRequested := false } := by
      apply List.ext_getElem?
      intro j
      simp only [List.getElem?_modify]
      by_cases here : i = j
      · subst here
        simp [present, requested]
      · simp [here]
    refine ⟨.start i, w.processNode i task, if w.nodeState task = some .error then .dequeuing else .running,
      rfl, by simp [step, turn, ready_of present created requested], by split <;> simp, ?_⟩
    unfold processNode
    split <;> exact same _
  | true =>
    refine ⟨.deliver i, w.deliverCancel i task, .done, rfl, by simp [step, present, turn, requested],
      by simp, ?_⟩
    simp [deliverCancel, created]

theorem countP_modify_lt (tasks : List Task) (i : Nat) (change : Task → Task) (task : Task)
    (present : tasks[i]? = some task) (created : task.phase = .created)
    (moved : (change task).phase ≠ .created) :
    (tasks.modify i change).countP (fun task => task.phase = .created) <
      tasks.countP fun task => task.phase = .created := by
  induction tasks generalizing i with
  | nil => simp at present
  | cons head rest ih =>
    cases i with
    | zero =>
      simp only [List.getElem?_cons_zero, Option.some.injEq] at present
      subst present
      simp [List.modify_zero_cons, created, moved]
    | succ i =>
      have shorter := ih i (by simpa using present)
      simp only [List.modify_succ_cons, List.countP_cons]
      omega

theorem pending_reaches {w : World} {tid : TaskId} (pending : PendingAt w.tasks tid) : w.ReachesNext tid := by
  -- by the number of tasks that have not taken their first step
  induction bound : w.tasks.countP (fun task => task.phase = .created) using Nat.strongRecOn generalizing w with
  | ind count ih =>
    obtain ⟨task, present, willProcess⟩ := pending
    by_cases turn : task.phase = .created → w.nextToStart = some tid
    · exact started_reaches present willProcess turn
    · obtain ⟨created, other⟩ := Classical.not_imp.mp turn
      have waiting : (w.nextToStart).isSome = true := by
        rw [nextToStart, List.findIdx?_isSome, List.any_eq_true]
        exact ⟨task, List.mem_of_getElem? present, by simp [created]⟩
      obtain ⟨i, first⟩ := Option.isSome_iff_exists.mp waiting
      obtain ⟨found, here, _⟩ := List.findIdx?_eq_some_iff_getElem.mp first
      have presentFirst : w.tasks[i]? = some w.tasks[i] := List.getElem?_eq_getElem found
      have ne : i ≠ tid := fun same => other (same ▸ first)
      obtain ⟨a, next, phase, own, taken, moved, tasks⟩ := first_step first presentFirst
      have fewer : next.tasks.countP (fun task => task.phase = .created) < count := by
        rw [tasks, ← bound]
        exact countP_modify_lt w.tasks i _ _ presentFirst (by simpa using here) moved
      have kept : PendingAt next.tasks tid := by
        rw [tasks, pendingAt_modify]
        exact ⟨task, present, by rw [if_neg ne]; exact willProcess⟩
      exact .of_step own taken (ih _ fewer kept rfl)

end World

theorem reachesNext_iff (w : World) (tid : TaskId) : w.ReachesNext tid ↔ PendingAt w.tasks tid :=
  ⟨World.ReachesNext.pending, World.pending_reaches⟩

/-- No cancellation hits the current task before its first step or inside its `finally`, and no node is
    started, directly or from the queue, that the tree no longer has. -/
def undisturbed (w : World) : Action → Bool
  | .cancelNode nodeId => !w.interrupts nodeId
  | .cancelBranch branchRootId => (w.tree.getDescendants branchRootId).all fun nodeId => !w.interrupts nodeId
  | .enqueue nodeId => w.tree.isProcessing || (w.tree.getNode nodeId).isSome
  | .next _ => w.tree.queue.deque.head?.all fun nodeId => (w.tree.getNode nodeId).isSome
  | _ => true

def Cleared (w : World) : Prop := w.tree.isProcessing = true → ∃ tid, PendingAt w.tasks tid

theorem launch_cleared {w : World} {nodeId : MessageId} (has : (w.tree.getNode nodeId).isSome = true) :
    Cleared (w.launch nodeId) := by
  intro _
  rcases w.launch_cases nodeId with ⟨lacks, _⟩ | ⟨_, _, tasks⟩
  · rw [lacks] at has
    cases has
  · exact ⟨w.tasks.length, (tasks _).mpr (.inr rfl)⟩

theorem Cleared.step {w next : World} {a : Action} (inv : Cleared w) (calm : undisturbed w a = true)
    (taken : step w a = some next) : Cleared next := by
  cases step_effect taken with
  | quiet same =>
    intro busy
    obtain ⟨tid, pending⟩ := inv (same.isProcessing ▸ busy)
    exact ⟨tid, (same.pending tid).mpr pending⟩
  | @enqueue nodeId eq =>
    subst eq
    cases busy : w.tree.isProcessing with
    | true =>
      have same := World.enqueueAndStart_busy nodeId busy
      obtain ⟨tid, pending⟩ := inv busy
      exact fun _ => ⟨tid, (same.pending tid).mpr pending⟩
    | false =>
      rw [World.enqueueAndStart_idle nodeId busy]
      apply launch_cleared
      change (w.tree.getNode nodeId).isSome = true
      simpa [undisturbed, busy] using calm
  | @next tid task ready eq =>
    subst eq
    cases queued : w.tree.queue.deque with
    | nil =>
      rw [World.processNext_empty tid queued]
      intro busy
      cases busy
    | cons nodeId rest =>
      rw [World.processNext_head tid queued]
      apply launch_cleared
      change (w.tree.getNode nodeId).isSome = true
      simpa [undisturbed, queued] using calm
  | @cancelNode nodeId eq =>
    subst eq
    intro busy
    obtain ⟨tid, pending⟩ := inv ((w.cancelNode_subsides nodeId).isProcessing ▸ busy)
    exact ⟨tid, World.cancelNode_keeps (by simpa [undisturbed] using calm) pending⟩
  | @cancelBranch branchRootId eq =>
    subst eq
    intro busy
    obtain ⟨tid, pending⟩ := inv ((w.cancelBranch_subsides branchRootId).isProcessing ▸ busy)
    exact ⟨tid, World.cancelBranch_keeps (by simpa [undisturbed] using calm) pending⟩
  | cancelTree eq =>
    subst eq
    intro busy
    cases busy
  | removeTree root eq =>
    subst eq
    intro busy
    cases busy

/-- No stuck tree: while the flag is set there is a task that still gets to `_process_next`. -/
theorem processing_cleared (root : MessageNode) {w : World}
    (reached : (machine root).ReachableUnder (fun w a => undisturbed w a = true) w) : ¬ w.Stuck := by
  have inv : Cleared w := by
    apply reached.invariant
    · intro busy
      cases busy
    · intro s a next inv calm taken
      exact inv.step calm taken
  intro stuck
  obtain ⟨tid, pending⟩ := inv stuck.1
  exact stuck.2 tid ((reachesNext_iff w tid).mpr pending)

theorem processing_cleared_cancelled :
    ∃ w : World, w.tree.isProcessing = true ∧ w.tasks.length = 2 ∧ ¬ w.Stuck := by
  have ran : ((machine sampleRoot).runUnder undisturbed (machine sampleRoot).init
      [.enqueue ⟨"m1", by decide⟩, addReply ⟨"m2", by decide⟩ ⟨"s2", by decide⟩,
        .enqueue ⟨"m2", by decide⟩, .start 0, .cancelNode ⟨"m1", by decide⟩, .deliver 0, .finish 0, .clear 0,
        .next 0]).any
      (fun w => decide (w.tree.isProcessing = true ∧ w.tasks.length = 2)) = true := by decide
  obtain ⟨w, here, facts⟩ := (Option.any_eq_true _ _).mp ran
  obtain ⟨busy, tasks⟩ := of_decide_eq_true facts
  exact ⟨w, busy, tasks, processing_cleared sampleRoot (Machine.reachableUnder_of_runUnder .init here)⟩

/-- `/stop` right after the message: the task ends without its first step and the flag stays set. -/
theorem cancelNode_freezes : ¬ ∀ w, (machine sampleRoot).Reachable w → ¬ w.Stuck := by
  intro free
  have ran : ((machine sampleRoot).run (machine sampleRoot).init
      [.enqueue ⟨"m1", by decide⟩, .cancelNode ⟨"m1", by decide⟩, .deliver 0]).any
      (fun w => decide (w.tree.isProcessing = true ∧ w.tasks.all (fun task => !task.willProcessNext))) =
        true := by decide
  obtain ⟨w, here, facts⟩ := (Option.any_eq_true _ _).mp ran
  obtain ⟨busy, idle⟩ := of_decide_eq_true facts
  apply free w (Machine.reachable_of_run here)
  refine ⟨busy, fun tid reaches => ?_⟩
  obtain ⟨task, present, pending⟩ := reaches.pending
  have never := List.all_eq_true.mp idle task (List.mem_of_getElem? present)
  simp [pending] at never

end ClaudeProxy.Trees

import ClaudeProxy.Manager.Owing

namespace ClaudeProxy.Manager

open Kit Sessions Trees

namespace MessageHandler

def freeId (s : MessageHandler) (msgId : MessageId) : Bool :=
  !s.repository.trees.contains msgId && !s.repository.hasNode msgId &&
    s.repository.trees.values.all fun ref => s.heap[ref]?.all fun world => !world.tree.statusToNode.contains msgId

def holds (s : MessageHandler) (ref : Ref) : Bool := ref ∈ s.repository.trees.values

/-- Nothing is lost when the tree is not saved now. -/
def spared (s : MessageHandler) (ref : Ref) : Bool := s.due ref || !s.holds ref

/-- A message has ids of its own, no call changes a manager that has been replaced, a global `/stop` lists a node of every
    tree it changes, and a processing ends after a save, which was of a tree that the manager had. -/
def savesLast (s : MessageHandler) : HandlerAction → Bool
  | .resume i _ _ => s.calls[i]?.all fun call =>
    match call.stage with
    | .filing manager _ statusMsgId => manager = s.current && s.freeId call.incoming.messageId && s.freeId statusMsgId
    | .cancellingAll manager clears => manager = s.current && (clears || s.repository.trees.values.all fun ref =>
      s.heap[ref]?.all fun world => listsNode world || settled world)
    | .cancellingNode manager _ | .cancellingBranch manager _ | .removingBranch manager _ => manager = s.current
    | _ => true
  | .sessionInfo ref tid sessionId => sessionId = "" || !truthy (s.processing ref tid).tempSessionId ||
    (s.processing ref tid).tree.all s.holds
  | .complete ref tid => !truthy (s.processing ref tid).capturedSessionId || (s.processing ref tid).tree.all s.holds
  | .failed ref tid _ => s.heap[ref]?.all fun world => world.tasks[tid]?.all fun task =>
    (s.processing ref tid).tree = none || (s.repository.getTreeForNode task.node).all
      fun tree => (s.processing ref tid).tree = some tree
  | .process ref (.finish tid) | .process ref (.raise tid) => (s.processing ref tid).saved ||
    (s.processing ref tid).tree.all s.spared
  | .process ref (.handle _ _) => s.spared ref
  | _ => true

theorem holds_iff {s : MessageHandler} {ref : Ref} : s.holds ref = true ↔ s.Held ref := by
  rw [holds, decide_eq_true_eq]
  constructor
  · intro member
    rcases List.mem_map.mp member with ⟨⟨rootId, _⟩, inTrees, rfl⟩
    exact ⟨rootId, (Dict.get?_eq_some_iff ..).mpr inTrees⟩
  · intro ⟨rootId, here⟩
    exact Dict.mem_values_of_get? _ here

theorem due_of_spared {s : MessageHandler} {ref : Ref} (spared : s.spared ref = true) (held : s.Held ref) : s.Due ref := by
  rcases Bool.or_eq_true_iff.mp spared with due | lost
  · exact due_iff.mp due
  · rw [holds_iff.mpr held] at lost
    cases lost

namespace SavedBut

variable {s : MessageHandler} {owed : Ref → Prop}

section Processing

variable {ref : Ref} {tid : TaskId} {world : World} {task : Task}

theorem running_of_ready (ready : world.ready tid .running = some task) : phaseAt world tid = some .running := by
  obtain ⟨present, running, _⟩ := World.ready_some ready
  rw [phaseAt, present, Option.map_some, running]

theorem tick (saved : s.SavedBut s.Owing) {after : MessageHandler} (ticked : s.step .tick = some after) :
    after.SavedBut after.Owing := by
  cases ticked
  have goes : Goes s.heap (s.heap.map fun world => { world with now := world.now + 1 }) := by
    intro other world found
    exact ⟨{ world with now := world.now + 1 }, by rw [List.getElem?_map, found]; rfl, fun _ at' => at'⟩
  apply Persisted.mono
  · apply Persisted.onHeap saved
    intro other old there
    exact ⟨{ old with now := old.now + 1 }, by rw [List.getElem?_map, there]; rfl, .refl _, .inl rfl⟩
  · intro _ other _ owing
    exact owing.keep goes rfl rfl rfl

section Write

variable {tree : Ref} {change : World → World} {q : Processing}

theorem owing_write (steady : ∀ world, Steady world (change world)) (works : (s.processing ref tid).tree = some tree)
    (worksOn : q.tree = some tree) {other : Ref} (owing : s.Owing other) (kept : other = tree → q.saved = false) :
    ((s.onWorld tree change).setProcessing ref tid q).Owing other := by
  have goes : Goes s.heap (s.onWorld tree change).heap := .steady s.heap tree steady
  rcases owing with unsaved | due
  · left
    apply (unsaved.keep goes rfl).setProcessing
    intro works' _ _
    cases works.symm.trans works'
    exact ⟨worksOn, kept rfl⟩
  · exact .inr (due.keep rfl fun _ located => located)

theorem wrote (saved : s.SavedBut s.Owing) (tree : Ref) (steady : ∀ world, Steady world (change world)) :
    (s.onWorld tree change).SavedBut fun other => s.Owing other ∨ other = tree := by
  apply Persisted.modify (saved.mono fun _ _ _ owing => .inl owing) tree
  · exact fun world _ => (steady world).tree
  · exact fun _ _ => .inr (.inr rfl)

theorem write (saved : s.SavedBut s.Owing) (found : s.heap[ref]? = some world) (ready : world.ready tid .running = some task)
    (works : (s.processing ref tid).tree = some tree) (steady : ∀ world, Steady world (change world))
    (worksOn : q.tree = some tree) (unsaved : q.saved = false) :
    ((s.onWorld tree change).setProcessing ref tid q).SavedBut ((s.onWorld tree change).setProcessing ref tid q).Owing := by
  apply (saved.wrote tree steady).mono
  intro _ other _ owes
  rcases owes with owing | rfl
  · exact owing_write steady works worksOn owing fun _ => unsaved
  · rcases Goes.steady s.heap other steady ref world found with ⟨world', found', stillRuns⟩
    exact .inl (unsaved_setProcessing found' (stillRuns tid (running_of_ready ready)) worksOn unsaved)

theorem writeSaved (saved : s.SavedBut s.Owing) (held : s.Held tree) (works : (s.processing ref tid).tree = some tree)
    (steady : ∀ world, Steady world (change world)) (worksOn : q.tree = some tree) :
    (((s.onWorld tree change).saveTree tree).setProcessing ref tid q).SavedBut
      (((s.onWorld tree change).saveTree tree).setProcessing ref tid q).Owing := by
  have changed := saved.wrote tree steady
  have stored := changed.saveTree held
  rcases saveTree_eq (s.onWorld tree change) tree with ⟨store, same⟩
  rw [same] at stored ⊢
  apply stored.mono
  intro _ other _ owes
  rcases owes with ⟨owing | here, different⟩
  · have still := owing_write steady works worksOn owing fun here => absurd here different
    apply still.keep (.refl _) <;> rfl
  · exact absurd here different

theorem writeState (saved : s.SavedBut s.Owing) (found : s.heap[ref]? = some world)
    (ready : world.ready tid .running = some task) {p : Processing} (same : p.tree = (s.processing ref tid).tree)
    (state : MessageState) (sessionId errorMessage : Option String) {saves : Bool}
    (holds : saves = true → (s.processing ref tid).tree.all s.holds = true) :
    (s.writeState ref tid task p state sessionId errorMessage saves).SavedBut
      (s.writeState ref tid task p state sessionId errorMessage saves).Owing := by
  have steady (world : World) : Steady world (world.onTree fun t =>
      t.updateState task.node state sessionId errorMessage world.now) := .onTree (.updateState ..)
  unfold MessageHandler.writeState
  cases works : p.tree with
  | none =>
    apply saved.mono
    intro _ other _ owing
    rcases owing with unsaved | due
    · left
      apply unsaved.setProcessing
      intro tree _ _
      rw [← same, works] at tree
      cases tree
    · exact .inr due
  | some tree =>
    cases saves with
    | false => exact saved.write found ready (same ▸ works) steady rfl rfl
    | true =>
      have own : (s.processing ref tid).tree = some tree := same ▸ works
      have held := holds rfl
      rw [own, Option.all_some] at held
      exact saved.writeSaved (holds_iff.mp held) own steady rfl

end Write

theorem fail (saved : s.SavedBut s.Owing) (found : s.heap[ref]? = some world) (ready : world.ready tid .running = some task)
    {errorMessage : String} (own : s.savesLast (.failed ref tid errorMessage) = true) :
    (s.fail ref tid errorMessage task (s.processing ref tid)).SavedBut
      (s.fail ref tid errorMessage task (s.processing ref tid)).Owing := by
  obtain ⟨present, _, _⟩ := World.ready_some ready
  simp only [savesLast, found, present, Option.all_some] at own
  unfold MessageHandler.fail
  split
  · rename_i tree works located
    rw [works, located] at own
    have same : (s.processing ref tid).tree = some tree := by simpa [works] using own
    exact saved.write found ready same (fun world => .onTree (.markNodeError ..)) same rfl
  · exact saved

theorem begin (saved : s.SavedBut s.Owing) {after : MessageHandler} (begun : s.begin ref tid = some after) :
    after.SavedBut after.Owing := by
  rcases begin_eq_some begun with ⟨world, task, found, ready, rfl⟩
  obtain ⟨present, created, _⟩ := World.ready_some ready
  have sameTree : (world.processNode tid task).tree = world.tree := by
    unfold World.processNode
    split <;> rfl
  let started := s.onWorld ref fun world => world.processNode tid task
  have goes : Goes s.heap started.heap := by
    apply Goes.modify
    intro world' found'
    cases found.symm.trans found'
    exact (Unchanged.processNode ready).running
  have kept : started.SavedBut s.Owing := by
    apply Persisted.modify saved ref
    · intro world' found'
      cases found.symm.trans found'
      rw [sameTree]
      exact .refl _
    · intro world' found'
      cases found.symm.trans found'
      exact .inl (Unchanged.processNode ready).saved
  have owing {other : Ref} (owing : s.Owing other) (p : Processing) : (started.setProcessing ref tid p).Owing other := by
    rcases owing with unsaved | due
    · have others : (s.setProcessing ref tid p).Unsaved other := by
        apply unsaved.setProcessing
        intro _ _ runs
        rcases runs with ⟨world', found', running⟩
        cases found.symm.trans found'
        rw [phaseAt, present, Option.map_some, created] at running
        cases running
      exact .inl (others.keep goes rfl)
    · exact .inr due
  unfold MessageHandler.firstStep
  dsimp only
  split
  · apply kept.mono
    intro _ other _ owing
    exact owing.keep goes rfl rfl rfl
  · rename_i runs
    split
    · exact kept.mono fun _ _ _ before => owing before _
    · rename_i tree located
      have steady (world : World) : Steady world (world.onTree fun t =>
          t.updateState task.node .inProgress none none world.now) := .onTree (.updateState ..)
      have marks := Goes.steady started.heap tree steady
      have wrote : (started.onWorld tree fun world => world.onTree fun t =>
          t.updateState task.node .inProgress none none world.now).SavedBut fun other => s.Owing other ∨ other = tree := by
        apply Persisted.modify (kept.mono fun _ _ _ owing => .inl owing) tree
        · exact fun world _ => (steady world).tree
        · exact fun _ _ => .inr (.inr rfl)
      apply wrote.mono
      intro _ other _ owes
      rcases owes with before | rfl
      · exact (owing before _).keep marks rfl rfl rfl
      · have begins : phaseAt (world.processNode tid task) tid = some .running := by
          have running : phaseAt (world.advance tid .running) tid = some .running := by
            rw [Moves.phaseAt_advance, if_pos rfl, phaseAt, present]
            rfl
          unfold World.processNode
          rw [if_neg runs]
          exact running
        have found' : started.heap[ref]? = some (world.processNode tid task) := by
          show (s.heap.modify ref _)[ref]? = _
          rw [List.getElem?_modify_eq, found]
          rfl
        rcases marks ref _ found' with ⟨world', there, running⟩
        exact .inl (unsaved_setProcessing there (running tid begins) rfl rfl)

theorem opened (saved : s.SavedBut s.Owing) (isNew : Bool) (sessionId : String) :
    (s.opened ref tid isNew sessionId task (s.processing ref tid)).SavedBut
      (s.opened ref tid isNew sessionId task (s.processing ref tid)).Owing := by
  apply saved.mono
  intro _ other _ owing
  rcases owing with unsaved | due
  · left
    apply unsaved.setProcessing
    intro works dirty _
    split <;> exact ⟨works, dirty⟩
  · exact .inr due

theorem process (saved : s.SavedBut s.Owing) {action : Trees.Action} {next : World} (own : ofProcessor action = true)
    (found : s.heap[ref]? = some world) (taken : Trees.step world action = some next)
    (last : s.savesLast (.process ref action) = true) :
    (s.onWorld ref fun _ => next).SavedBut (s.onWorld ref fun _ => next).Owing := by
  obtain ⟨same, running⟩ := Unchanged.of_step own taken
  obtain ⟨moves, _⟩ := moves_of_step own taken
  have changed : (s.onWorld ref fun _ => next).SavedBut fun other => s.Owing other ∨ other = ref ∧ s.spared ref = true := by
    apply Persisted.modify (saved.mono fun _ _ _ owing => .inl owing) ref
    · intro world' found'
      cases found.symm.trans found'
      exact moves.tree
    · intro world' found'
      cases found.symm.trans found'
      rcases same with same | ⟨j, errorMessage, rfl⟩
      · exact .inl same
      · exact .inr (.inr ⟨rfl, last⟩)
  apply changed.mono
  intro rootId other here owes
  have held : s.Held other := ⟨rootId, here⟩
  rcases owes with (unsaved | due) | ⟨rfl, spared⟩
  · rcases unsaved with ⟨another, world', j, found', at', works, dirty⟩
    by_cases sameTree : ref = another
    · subst sameTree
      cases found.symm.trans found'
      by_cases ends : action = .finish j ∨ action = .raise j
      · right
        have spared : ((s.processing ref j).saved || (s.processing ref j).tree.all s.spared) = true := by
          rcases ends with rfl | rfl <;> exact last
        rw [dirty, works, Bool.false_or, Option.all_some] at spared
        exact due_of_spared spared held
      · obtain ⟨noFinish, noRaise⟩ := not_or.mp ends
        refine .inl ⟨ref, next, j, ?_, running j at' noFinish noRaise, works, dirty⟩
        show (s.heap.modify ref _)[ref]? = _
        rw [List.getElem?_modify_eq, found]
        rfl
    · left
      refine ⟨another, world', j, ?_, at', works, dirty⟩
      show (s.heap.modify ref _)[another]? = _
      rw [List.getElem?_modify_ne _ _ sameTree]
      exact found'
  · exact .inr due
  · exact .inr (due_of_spared spared held)

end Processing

end SavedBut

end MessageHandler

end ClaudeProxy.Manager

import ClaudeProxy.Manager.CommandSaves

namespace ClaudeProxy.Manager

open Kit Sessions Trees

namespace MessageHandler

/-- No call and no processing is in progress, and no node is queued. -/
def atRest (s : MessageHandler) : Bool :=
  (s.calls.all fun call => call.stage.ended) && (s.heap.all fun world => world.tasks.all fun task => task.phase = .done) &&
    s.repository.trees.values.all fun ref => s.heap[ref]?.all fun world => world.tree.queue.deque = []

/-- What a restart would restore is what there is. -/
structure Mirrored (s : MessageHandler) : Prop where
  rooted : ∀ rootId ref, s.repository.getTree rootId = some ref → s.heap[ref]?.map (·.tree.rootId) = some rootId
  trees : ∀ rootId, s.store.trees.get? rootId =
    (s.repository.getTree rootId).bind fun ref => s.heap[ref]?.map fun world => toDict world.tree
  nodes : s.store.nodeToTree.Same s.repository.nodeToTree

namespace SavedBut

variable {s : MessageHandler} {owed : Ref → Prop}

theorem resume (saved : s.SavedBut s.Owing) {i : Nat} {call : Call}
    (found : s.calls[i]? = some call) {sent : MessageId} {now : Timestamp}
    (last : s.savesLast (.resume i sent now) = true) {after : MessageHandler}
    (resumed : s.resume i call sent now = some after) : after.SavedBut after.Owing := by
  have idle {stage : Stage} (own : call.stage = stage) (none' : ∀ repository ref, stage.owes repository ref = false) :
      ∀ repository ref, call.stage.owes repository ref = false := own ▸ none'
  simp only [savesLast, found, Option.all_some] at last
  unfold MessageHandler.resume at resumed
  cases stage : call.stage <;> simp only [stage, Option.some.injEq, reduceCtorEq] at resumed last
  case sending parentNodeId =>
    subst resumed
    exact saved.setStage found (idle stage fun _ _ => rfl) _
  case filing manager parentNodeId statusMsgId =>
    subst resumed
    simp only [Bool.and_eq_true, decide_eq_true_eq] at last
    obtain ⟨⟨bound, free⟩, freeStatus⟩ := last
    subst bound
    exact saved.file found (idle stage fun _ _ => rfl) parentNodeId statusMsgId now free freeStatus
  case enqueuing manager =>
    subst resumed
    exact saved.enqueue found (idle stage fun _ _ => rfl) _ manager
  case reporting enqueuedIn =>
    subst resumed
    exact saved.setStage found (idle stage fun _ _ => rfl) _
  case cancellingAll manager clears =>
    subst resumed
    simp only [Bool.and_eq_true, decide_eq_true_eq] at last
    obtain ⟨bound, lists⟩ := last
    subst bound
    apply saved.cancelAll found (idle stage fun _ _ => rfl) clears
    intro stops
    subst stops
    exact lists
  case stoppingCli cancelled clears =>
    subst resumed
    exact saved.stopCli found stage
  case deletingMessages =>
    subst resumed
    exact swap s i _
  case cancellingNode manager nodeId =>
    subst resumed
    cases of_decide_eq_true last
    exact saved.cancelNode found (idle stage fun _ _ => rfl) nodeId _
  case cancellingBranch manager branchRootId =>
    subst resumed
    cases of_decide_eq_true last
    exact saved.cancelBranch found (idle stage fun _ _ => rfl) branchRootId _
  case deletingBranch branchRootId =>
    subst resumed
    apply saved.mono
    intro _ other _ owing
    rcases owing with unsaved | due
    · exact .inl (unsaved.keep (.refl _) rfl)
    · exact .inr (due.setStage found fun owes => by rw [stage] at owes; exact owes)
  case removingBranch manager branchRootId =>
    subst resumed
    cases of_decide_eq_true last
    exact saved.removeBranch found stage
  case answering =>
    subst resumed
    exact saved.setStage found (idle stage fun _ _ => rfl) _

/-- What is owed is all that the store may lack, after every step too. -/
theorem step (saved : s.SavedBut s.Owing) {a : HandlerAction} (last : s.savesLast a = true)
    {after : MessageHandler} (taken : s.step a = some after) : after.SavedBut after.Owing := by
  cases a with
  | tick => exact saved.tick taken
  | content incoming =>
    cases taken
    exact saved.arrive incoming _
  | stop incoming =>
    cases taken
    exact saved.arrive incoming _
  | clear incoming =>
    cases taken
    exact saved.arrive incoming _
  | resume i sent now =>
    rcases Option.bind_eq_some_iff.mp taken with ⟨call, found, resumed⟩
    exact saved.resume found last resumed
  | begin ref tid => exact saved.begin taken
  | opened ref tid isNew sessionId =>
    rcases whileRunning_eq_some taken with ⟨world, task, found, ready, rfl⟩
    exact saved.opened isNew sessionId
  | sessionInfo ref tid sessionId =>
    rcases whileRunning_eq_some taken with ⟨world, task, found, ready, rfl⟩
    unfold MessageHandler.sessionInfo
    split
    · exact saved
    · rename_i writes
      have holds : (s.processing ref tid).tree.all s.holds = true := by
        simp only [savesLast, Bool.or_eq_true, decide_eq_true_eq, Bool.not_eq_true'] at last
        rcases last with skips | holds
        · exact absurd (skips.imp_right fun untruthy => by simp [untruthy]) writes
        · exact holds
      apply saved.writeState found ready
      · rfl
      · exact fun _ => holds
  | complete ref tid =>
    rcases whileRunning_eq_some taken with ⟨world, task, found, ready, rfl⟩
    unfold MessageHandler.complete
    split
    · rename_i captured
      have holds : (s.processing ref tid).tree.all s.holds = true := by
        rw [savesLast, captured, Bool.not_true, Bool.false_or] at last
        exact last
      exact saved.writeState found ready rfl _ _ _ fun _ => holds
    · exact saved
  | limited ref tid errorMessage =>
    rcases whileRunning_eq_some taken with ⟨world, task, found, ready, rfl⟩
    exact saved.writeState found ready rfl _ _ _ (fun no => by cases no)
  | cancelled ref tid =>
    rcases whileRunning_eq_some taken with ⟨world, task, found, ready, rfl⟩
    exact saved.writeState found ready rfl _ _ _ (fun no => by cases no)
  | failed ref tid errorMessage =>
    rcases whileRunning_eq_some taken with ⟨world, task, found, ready, rfl⟩
    exact saved.fail found ready last
  | process ref action =>
    simp only [MessageHandler.step] at taken
    split at taken
    · cases taken
    · rename_i own
      rcases Option.map_eq_some_iff.mp taken with ⟨next, stepped, rfl⟩
      rcases Option.bind_eq_some_iff.mp stepped with ⟨world, found, moved⟩
      exact saved.process (by simpa using own) found moved last

end SavedBut

theorem savedBut_of_savesLast (s : MessageHandler)
    (reached : machine.ReachableUnder (fun s a => s.savesLast a = true) s) : s.SavedBut s.Owing := by
  apply Machine.ReachableUnder.invariant _ _ reached
  · exact .initial _
  · exact fun s a after saved last taken => saved.step last taken

theorem not_owing_of_atRest {s : MessageHandler} (rest : s.atRest = true) (ref : Ref) : ¬ s.Owing ref := by
  simp only [atRest, Bool.and_eq_true, List.all_eq_true] at rest
  obtain ⟨⟨ended, idle⟩, _⟩ := rest
  intro owing
  rcases owing with ⟨other, world, tid, found, running, _⟩ | ⟨i, call, found, owes⟩
  · rcases Option.map_eq_some_iff.mp running with ⟨task, present, runs⟩
    have done := of_decide_eq_true (idle world (List.mem_of_getElem? found) task (List.mem_of_getElem? present))
    rw [done] at runs
    cases runs
  · have returned := ended call (List.mem_of_getElem? found)
    cases stage : call.stage <;> rw [stage] at returned owes
    case handled | executed | raised => cases owes
    all_goals cases returned

theorem mirrored_of_savedBut {s : MessageHandler} (saved : s.SavedBut fun _ => False) : Mirrored s := by
  constructor
  · intro rootId ref here
    rcases saved.filed rootId ref here with ⟨world, found, filed⟩
    rw [found, Option.map_some, filed.root]
  · intro rootId
    cases here : s.repository.getTree rootId with
    | none =>
      apply Option.not_isSome_iff_eq_none.mp
      intro stored
      have held := saved.only rootId stored
      rw [Dict.contains, ← TreeRepository.getTree, here] at held
      cases held
    | some ref =>
      rcases saved.filed rootId ref here with ⟨world, found, filed⟩
      rcases filed.stored with ⟨data, stored, _, same | owes⟩
      · rw [stored, Option.bind_some, found, Option.map_some, same]
      · exact owes.elim
  · exact saved.mapped

theorem mirrored_at_rest (s : MessageHandler)
    (reached : machine.ReachableUnder (fun s a => s.savesLast a = true) s) (rest : s.atRest = true) : Mirrored s := by
  have saved := savedBut_of_savesLast s reached
  exact mirrored_of_savedBut (saved.mono fun _ ref _ owing => not_owing_of_atRest rest ref owing)

theorem one_ne_empty : "1" ≠ "" := by decide

theorem two_ne_empty : "2" ≠ "" := by decide

theorem three_ne_empty : "3" ≠ "" := by decide

theorem four_ne_empty : "4" ≠ "" := by decide

theorem five_ne_empty : "5" ≠ "" := by decide

def message (text : String) (messageId : MessageId) (replyTo : Option MessageId) : IncomingMessage :=
  ⟨text, "chat", "someone", messageId, "telegram", replyTo, none, none, none⟩

def first : MessageId := ⟨"1", one_ne_empty⟩

def firstStatus : MessageId := ⟨"2", two_ne_empty⟩

def firstMessage : List HandlerAction :=
  [.content (message "hello" first none), .resume 0 firstStatus 0, .resume 0 firstStatus 0, .resume 0 firstStatus 0,
    .begin 0 0, .opened 0 0 true "temporary", .sessionInfo 0 0 "session"]

def ends (tid : TaskId) : List HandlerAction := [.process 0 (.finish tid), .process 0 (.clear tid), .process 0 (.next tid)]

/-- The first message is answered. A reply to it is being processed when a global `/stop` comes, which saves the tree after
    the processing has been cancelled. -/
def stoppedReply : List HandlerAction :=
  firstMessage ++ [.tick, .complete 0 0] ++ ends 0 ++
    [.content (message "again" ⟨"3", three_ne_empty⟩ (some firstStatus)), .resume 1 ⟨"4", four_ne_empty⟩ 0,
      .resume 1 ⟨"4", four_ne_empty⟩ 0,
      .resume 1 ⟨"4", four_ne_empty⟩ 0, .begin 0 1, .tick, .stop (message "/stop" ⟨"5", five_ne_empty⟩ none),
      .resume 2 ⟨"5", five_ne_empty⟩ 0, .tick, .process 0 (.deliver 1), .cancelled 0 1] ++ ends 1 ++
    [.resume 2 ⟨"5", five_ne_empty⟩ 0, .resume 2 ⟨"5", five_ne_empty⟩ 0]

theorem mirrored_stoppedReply : ∃ s,
    machine.ReachableUnder (fun s a => s.savesLast a = true) s ∧ s.atRest = true ∧ s.calls.length = 3 ∧ Mirrored s := by
  have ran : (machine.runUnder savesLast machine.init stoppedReply).any
      (fun s => s.atRest && decide (s.calls.length = 3)) = true := by decide +kernel
  rcases (Option.any_eq_true _ _).mp ran with ⟨s, here, both⟩
  obtain ⟨rest, calls⟩ := Bool.and_eq_true_iff.mp both
  have reached : machine.ReachableUnder (fun s a => s.savesLast a = true) s := Machine.reachableUnder_of_runUnder .init here
  exact ⟨s, reached, rest, of_decide_eq_true calls, mirrored_at_rest s reached rest⟩

/-- The session of the first message raises once it is known: the `except` clause marks the node and saves nothing. -/
def failedMessage : List HandlerAction :=
  firstMessage ++ [.tick, .failed 0 0 "Exceeds the limit (4300 digits) for integer string conversion"] ++ ends 0

def savedState (s : MessageHandler) (rootId nodeId : MessageId) : Option MessageState :=
  (s.store.trees.get? rootId).bind fun data => (data.nodes.get? nodeId).map (·.state)

def liveState (s : MessageHandler) (rootId nodeId : MessageId) : Option MessageState :=
  (s.repository.getTree rootId).bind fun ref => s.heap[ref]?.bind fun world => (world.tree.getNode nodeId).map (·.state)

theorem Mirrored.state {s : MessageHandler} (mirrored : Mirrored s) (rootId nodeId : MessageId) :
    s.savedState rootId nodeId = s.liveState rootId nodeId := by
  rw [savedState, liveState, mirrored.trees rootId]
  cases s.repository.getTree rootId with
  | none => rfl
  | some ref =>
    cases found : s.heap[ref]? with
    | none => simp [found]
    | some world =>
      rw [Option.bind_some, Option.bind_some, found]
      rfl

theorem error_not_saved : ∃ s, machine.run machine.init failedMessage = some s ∧ s.atRest = true ∧
    s.savedState first first = some .inProgress ∧ s.liveState first first = some .error ∧ ¬ Mirrored s := by
  have ran : (machine.run machine.init failedMessage).any (fun s => s.atRest && decide
      (s.savedState first first = some .inProgress ∧ s.liveState first first = some .error)) = true := by decide +kernel
  rcases (Option.any_eq_true _ _).mp ran with ⟨s, here, both⟩
  obtain ⟨rest, states⟩ := Bool.and_eq_true_iff.mp both
  obtain ⟨saved, live⟩ := of_decide_eq_true states
  refine ⟨s, here, rest, saved, live, fun mirrored => ?_⟩
  have same := mirrored.state first first
  rw [saved, live] at same
  cases same

end MessageHandler

end ClaudeProxy.Manager

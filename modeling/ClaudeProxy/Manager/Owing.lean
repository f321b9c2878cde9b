import ClaudeProxy.Manager.Persistence

namespace ClaudeProxy.Manager

open Kit Sessions Trees

namespace Stage

/-- The call goes on to save the tree, to drop it or to replace the manager. -/
def owes (repository : TreeRepository Ref) (ref : Ref) : Stage → Bool
  | .stoppingCli cancelled clears => clears || cancelled.any fun nodeId => repository.getTreeForNode nodeId = some ref
  | .deletingMessages => true
  | .deletingBranch branchRootId | .removingBranch _ branchRootId => repository.getTreeForNode branchRootId = some ref
  | _ => false

end Stage

namespace MessageHandler

/-- A processing has written a state of a node of the tree since it last saved the tree. -/
def Unsaved (s : MessageHandler) (ref : Ref) : Prop :=
  ∃ (other : Ref) (world : World) (tid : TaskId), s.heap[other]? = some world ∧ phaseAt world tid = some .running ∧
    (s.processing other tid).tree = some ref ∧ (s.processing other tid).saved = false

def Due (s : MessageHandler) (ref : Ref) : Prop :=
  ∃ (i : Nat) (call : Call), s.calls[i]? = some call ∧ call.stage.owes s.repository ref = true

def due (s : MessageHandler) (ref : Ref) : Bool := s.calls.any fun call => call.stage.owes s.repository ref

theorem due_iff {s : MessageHandler} {ref : Ref} : s.due ref = true ↔ s.Due ref := by
  rw [due, List.any_eq_true]
  constructor
  · intro ⟨call, member, owes⟩
    rcases List.getElem?_of_mem member with ⟨i, found⟩
    exact ⟨i, call, found, owes⟩
  · intro ⟨_, call, found, owes⟩
    exact ⟨call, List.mem_of_getElem? found, owes⟩

def Owing (s : MessageHandler) (ref : Ref) : Prop := s.Unsaved ref ∨ s.Due ref

def Goes (before after : List World) : Prop :=
  ∀ (other : Ref) world, before[other]? = some world → ∃ world', after[other]? = some world' ∧
    ∀ tid, phaseAt world tid = some .running → phaseAt world' tid = some .running

namespace Goes

theorem refl (heap : List World) : Goes heap heap := fun _ world found => ⟨world, found, fun _ running => running⟩

theorem trans {first middle last : List World} (left : Goes first middle) (right : Goes middle last) : Goes first last := by
  intro other world found
  obtain ⟨world', found', running⟩ := left other world found
  obtain ⟨world'', found'', running'⟩ := right other world' found'
  exact ⟨world'', found'', fun tid at' => running' tid (running tid at')⟩

theorem modify (heap : List World) (ref : Ref) {change : World → World}
    (running : ∀ world, heap[ref]? = some world → ∀ tid, phaseAt world tid = some .running →
      phaseAt (change world) tid = some .running) : Goes heap (heap.modify ref change) := by
  intro other world found
  by_cases here : ref = other
  · subst here
    exact ⟨change world, by rw [List.getElem?_modify_eq, found]; rfl, running world found⟩
  · exact ⟨world, by rw [List.getElem?_modify_ne _ _ here]; exact found, fun _ at' => at'⟩

theorem steady (heap : List World) (ref : Ref) {change : World → World} (steady : ∀ world, Steady world (change world)) :
    Goes heap (heap.modify ref change) :=
  modify heap ref fun world _ tid running => ((steady world).phases tid).trans running

theorem append (heap : List World) (world : World) : Goes heap (heap ++ [world]) := by
  intro other old found
  have bound := (List.getElem?_eq_some_iff.mp found).1
  exact ⟨old, by rw [List.getElem?_append_left bound]; exact found, fun _ at' => at'⟩

end Goes

section Keep

variable {s after : MessageHandler} {ref : Ref}

theorem Unsaved.keep (unsaved : s.Unsaved ref) (goes : Goes s.heap after.heap)
    (processing : after.processing = s.processing) :
    after.Unsaved ref := by
  obtain ⟨other, world, tid, found, at', works, dirty⟩ := unsaved
  obtain ⟨world', found', running⟩ := goes other world found
  exact ⟨other, world', tid, found', running tid at', by rw [processing]; exact works, by rw [processing]; exact dirty⟩

theorem Unsaved.setProcessing (unsaved : s.Unsaved ref) {other : Ref} {tid : TaskId} {p : Processing}
    (own : (s.processing other tid).tree = some ref → (s.processing other tid).saved = false →
      (∃ world, s.heap[other]? = some world ∧ phaseAt world tid = some .running) → p.tree = some ref ∧ p.saved = false) :
    (s.setProcessing other tid p).Unsaved ref := by
  obtain ⟨another, world, j, found, at', works, dirty⟩ := unsaved
  by_cases here : another = other ∧ j = tid
  · obtain ⟨rfl, rfl⟩ := here
    obtain ⟨tree, still⟩ := own works dirty ⟨world, found, at'⟩
    refine ⟨another, world, j, found, at', ?_, ?_⟩
    · rw [Contained.processing_setProcessing, if_pos ⟨rfl, rfl⟩]
      exact tree
    · rw [Contained.processing_setProcessing, if_pos ⟨rfl, rfl⟩]
      exact still
  · refine ⟨another, world, j, found, at', ?_, ?_⟩
    · rw [Contained.processing_setProcessing, if_neg here]
      exact works
    · rw [Contained.processing_setProcessing, if_neg here]
      exact dirty

theorem unsaved_setProcessing {other : Ref} {tid : TaskId} {world : World} {p : Processing}
    (found : s.heap[other]? = some world)
    (running : phaseAt world tid = some .running) (works : p.tree = some ref) (dirty : p.saved = false) :
    (s.setProcessing other tid p).Unsaved ref := by
  refine ⟨other, world, tid, found, running, ?_, ?_⟩
  · rw [Contained.processing_setProcessing, if_pos ⟨rfl, rfl⟩]
    exact works
  · rw [Contained.processing_setProcessing, if_pos ⟨rfl, rfl⟩]
    exact dirty

def Locates (before after : TreeRepository Ref) (ref : Ref) : Prop :=
  ∀ nodeId, before.getTreeForNode nodeId = some ref → after.getTreeForNode nodeId = some ref

theorem owes_of_locates {before after : TreeRepository Ref} (locates : Locates before after ref) {stage : Stage}
    (owes : stage.owes before ref = true) : stage.owes after ref = true := by
  cases stage with
  | stoppingCli cancelled clears =>
    rcases Bool.or_eq_true_iff.mp owes with clears | listed
    · exact Bool.or_eq_true_iff.mpr (.inl clears)
    · obtain ⟨nodeId, member, located⟩ := List.any_eq_true.mp listed
      have still := locates nodeId (of_decide_eq_true located)
      exact Bool.or_eq_true_iff.mpr (.inr (List.any_eq_true.mpr ⟨nodeId, member, decide_eq_true still⟩))
  | deletingMessages => rfl
  | deletingBranch branchRootId => exact decide_eq_true (locates branchRootId (of_decide_eq_true owes))
  | removingBranch manager branchRootId => exact decide_eq_true (locates branchRootId (of_decide_eq_true owes))
  | _ => cases owes

theorem Due.keep (due : s.Due ref) (calls : after.calls = s.calls) (locates : Locates s.repository after.repository ref) :
    after.Due ref := by
  obtain ⟨i, call, found, owes⟩ := due
  exact ⟨i, call, by rw [calls]; exact found, owes_of_locates locates owes⟩

theorem Due.setStage (due : s.Due ref) {i : Nat} {call : Call} (found : s.calls[i]? = some call) {stage : Stage}
    (own : call.stage.owes s.repository ref = true → stage.owes s.repository ref = true) : (s.setStage i stage).Due ref := by
  obtain ⟨j, other, there, owes⟩ := due
  by_cases here : i = j
  · subst here
    cases found.symm.trans there
    refine ⟨i, { call with stage := stage }, ?_, own owes⟩
    rw [MessageHandler.setStage, List.getElem?_modify_eq, found]
    rfl
  · refine ⟨j, other, ?_, owes⟩
    rw [MessageHandler.setStage, List.getElem?_modify_ne _ _ here]
    exact there

theorem Due.arrive (due : s.Due ref) (incoming : IncomingMessage) (stage : Stage) : (s.arrive incoming stage).Due ref := by
  obtain ⟨j, other, there, owes⟩ := due
  have bound := (List.getElem?_eq_some_iff.mp there).1
  exact ⟨j, other, by rw [MessageHandler.arrive, List.getElem?_append_left bound]; exact there, owes⟩

theorem Owing.keep (owing : s.Owing ref) (goes : Goes s.heap after.heap) (processing : after.processing = s.processing)
    (calls : after.calls = s.calls) (repository : after.repository = s.repository) : after.Owing ref := by
  rcases owing with unsaved | due
  · exact .inl (unsaved.keep goes processing)
  · exact .inr (due.keep calls fun nodeId located => by rw [repository]; exact located)

theorem Owing.setStage (owing : s.Owing ref) {i : Nat} {call : Call} (found : s.calls[i]? = some call) (stage : Stage)
    (idle : call.stage.owes s.repository ref = false) : (s.setStage i stage).Owing ref := by
  rcases owing with unsaved | due
  · exact .inl (unsaved.keep (.refl _) rfl)
  · exact .inr (due.setStage found fun owes => by rw [idle] at owes; cases owes)

end Keep

end MessageHandler

end ClaudeProxy.Manager

import ClaudeProxy.Automation.Enqueueing
import ClaudeProxy.Automation.Evaluation

namespace ClaudeProxy.Automation

open Kit

def isDue (nowUtc : Time) (candidate : AutomationScheduleCandidate) : Bool :=
  match isDailyRuleDue candidate nowUtc with
  | .ok due => due
  | .error _ => false

/-- The calls of `enqueue` of a tick. An exception of the due evaluation leaves it without any. -/
def tickOutcomes (o : SchedulerOptions) (nowUtc : Time) (worker : ActionWorker)
    (candidates : List AutomationScheduleCandidate) : List (Int × EnqueueOutcome) :=
  match dueCandidates nowUtc candidates with
  | .ok due => worker.outcomes o nowUtc due
  | .error _ => []

def Enqueues (o : SchedulerOptions) (nowUtc : Time) (worker : ActionWorker) (candidates : List AutomationScheduleCandidate)
    (automationId : Int) : Prop :=
  (automationId, .enqueued) ∈ tickOutcomes o nowUtc worker candidates

def withoutConfig (automationId : Int) (candidate : AutomationScheduleCandidate) : AutomationScheduleCandidate :=
  if candidate.automationId = automationId then candidate else { candidate with config := [] }

/-- The due evaluation does not raise, and who is enqueued is enqueued whatever the others are configured to do. -/
structure Isolated (o : SchedulerOptions) (nowUtc : Time) (worker : ActionWorker)
    (candidates : List AutomationScheduleCandidate) : Prop where
  returns : ∃ due, dueCandidates nowUtc candidates = .ok due
  independent : ∀ c ∈ candidates, Enqueues o nowUtc worker candidates c.automationId ↔
    Enqueues o nowUtc worker (candidates.map (withoutConfig c.automationId)) c.automationId

/-- The queue has a place for every due candidate that is not in flight, or for none. -/
def Fits (o : SchedulerOptions) (nowUtc : Time) (worker : ActionWorker)
    (candidates : List AutomationScheduleCandidate) : Prop :=
  max 1 o.queueSize ≤ worker.queue.length ∨
    worker.queue.length + candidates.countP (fun c => worker.isNew c && isDue nowUtc c) ≤ max 1 o.queueSize

theorem dueCandidates_ok {nowUtc : Time} {candidates : List AutomationScheduleCandidate} :
    (∃ due, dueCandidates nowUtc candidates = .ok due) ↔ ∀ c ∈ candidates, Evaluable c nowUtc := by
  induction candidates with
  | nil => simp [dueCandidates]
  | cons c rest ih =>
    rw [List.forall_mem_cons, ← ih, ← isDailyRuleDue_ok]
    rw [dueCandidates]
    cases isDailyRuleDue c nowUtc with
    | error e => simp [Bind.bind, Except.bind]
    | ok due =>
      cases dueCandidates nowUtc rest with
      | error e => simp [Bind.bind, Except.bind]
      | ok others => simp [Bind.bind, Except.bind, Pure.pure, Except.pure]

theorem dueCandidates_eq {nowUtc : Time} {candidates due : List AutomationScheduleCandidate}
    (evaluated : dueCandidates nowUtc candidates = .ok due) : due = candidates.filter (isDue nowUtc) := by
  induction candidates generalizing due with
  | nil => exact (Except.ok.inj evaluated).symm
  | cons c rest ih =>
    simp only [dueCandidates, Bind.bind, Except.bind, Pure.pure, Except.pure] at evaluated
    cases first : isDailyRuleDue c nowUtc with
    | error e => simp [first] at evaluated
    | ok own =>
      cases others : dueCandidates nowUtc rest with
      | error e => simp [first, others] at evaluated
      | ok tail =>
        simp only [first, others, Except.ok.injEq] at evaluated
        have value : isDue nowUtc c = own := by
          unfold isDue
          rw [first]
        rw [← evaluated, List.filter_cons, value, ih others]

theorem exists_split_of_lt_countP {α : Type} {p : α → Bool} {l : List α} {k : Nat} (many : k < l.countP p) :
    ∃ front a back, l = front ++ a :: back ∧ p a = true ∧ front.countP p = k := by
  induction l generalizing k with
  | nil => simp at many
  | cons a rest ih =>
    by_cases holds : p a = true
    · cases k with
      | zero => exact ⟨[], a, rest, rfl, holds, rfl⟩
      | succ k =>
        rw [List.countP_cons_of_pos holds] at many
        obtain ⟨front, b, back, rfl, found, count⟩ := ih (Nat.lt_of_succ_lt_succ many)
        exact ⟨a :: front, b, back, rfl, found, by rw [List.countP_cons_of_pos holds, count]⟩
    · rw [List.countP_cons_of_neg holds] at many
      obtain ⟨front, b, back, rfl, found, count⟩ := ih many
      exact ⟨a :: front, b, back, rfl, found, by rw [List.countP_cons_of_neg holds, count]⟩

theorem evaluable_of_empty {candidate : AutomationScheduleCandidate} {nowUtc : Time} (empty : candidate.config = []) :
    isDailyRuleDue candidate nowUtc = .ok false := by
  apply not_due_of_unscheduled
  rw [empty]
  rfl

section

variable {o : SchedulerOptions} {nowUtc : Time} {worker : ActionWorker}

/-- Among candidates that can all be evaluated, one is enqueued if it is due and new and those before it leave a place. -/
theorem enqueues_iff {front back : List AutomationScheduleCandidate} {c : AutomationScheduleCandidate}
    (distinct : ((front ++ c :: back).map AutomationScheduleCandidate.automationId).Nodup)
    (evaluable : ∀ d ∈ front ++ c :: back, Evaluable d nowUtc) :
    Enqueues o nowUtc worker (front ++ c :: back) c.automationId ↔
      (worker.isNew c && isDue nowUtc c) = true ∧
        worker.queue.length + front.countP (fun d => worker.isNew d && isDue nowUtc d) < max 1 o.queueSize := by
  obtain ⟨due, evaluated⟩ := dueCandidates_ok.mpr evaluable
  unfold Enqueues tickOutcomes
  rw [evaluated]
  have filtered := dueCandidates_eq evaluated
  rw [List.filter_append, List.filter_cons] at filtered
  by_cases isDue_c : isDue nowUtc c = true
  · rw [if_pos isDue_c] at filtered
    have sublist : ((front.filter (isDue nowUtc) ++ c :: back.filter (isDue nowUtc)).map
        AutomationScheduleCandidate.automationId).Nodup := by
      apply List.Nodup.sublist _ distinct
      apply List.Sublist.map
      exact List.filter_sublist.append (List.filter_sublist.cons_cons c)
    rw [filtered, ActionWorker.enqueued_iff sublist, isDue_c, List.countP_filter, Bool.and_true]
  · rw [if_neg isDue_c] at filtered
    rw [Bool.not_eq_true] at isDue_c
    rw [isDue_c, Bool.and_false]
    simp only [Bool.false_eq_true, false_and, iff_false]
    intro member
    have inside : c.automationId ∈ due.map AutomationScheduleCandidate.automationId := by
      rw [← ActionWorker.outcomes_ids o nowUtc worker]
      exact List.mem_map_of_mem (f := Prod.fst) member
    have others : List.Sublist (due.map AutomationScheduleCandidate.automationId)
        ((front ++ back).map AutomationScheduleCandidate.automationId) := by
      rw [filtered]
      exact (List.filter_sublist.append List.filter_sublist).map _
    rw [List.map_append, List.map_cons] at distinct
    have apart := (List.nodup_middle.mp distinct)
    rw [← List.map_append] at apart
    exact (List.nodup_cons.mp apart).1 (others.subset inside)

theorem map_withoutConfig_ids (automationId : Int) {candidates : List AutomationScheduleCandidate} :
    (candidates.map (withoutConfig automationId)).map AutomationScheduleCandidate.automationId =
      candidates.map AutomationScheduleCandidate.automationId := by
  rw [List.map_map]
  apply List.map_congr_left
  intro c member
  show (withoutConfig automationId c).automationId = c.automationId
  unfold withoutConfig
  split <;> rfl

/-- With the other configurations empty a candidate is enqueued if it is due and new and the queue has a place. -/
theorem enqueues_alone_iff {front back : List AutomationScheduleCandidate} {c : AutomationScheduleCandidate}
    (distinct : ((front ++ c :: back).map AutomationScheduleCandidate.automationId).Nodup) (evaluable : Evaluable c nowUtc) :
    Enqueues o nowUtc worker ((front ++ c :: back).map (withoutConfig c.automationId)) c.automationId ↔
      (worker.isNew c && isDue nowUtc c) = true ∧ worker.queue.length < max 1 o.queueSize := by
  have own : withoutConfig c.automationId c = c := if_pos rfl
  have empty : ∀ d ∈ front ++ back, (withoutConfig c.automationId d).config = [] := by
    intro d member
    have other : d.automationId ≠ c.automationId := by
      intro same
      rw [List.map_append, List.map_cons] at distinct
      have apart := (List.nodup_middle.mp distinct)
      rw [← List.map_append, ← same] at apart
      exact (List.nodup_cons.mp apart).1 (List.mem_map_of_mem member)
    unfold withoutConfig
    rw [if_neg other]
  have split : (front ++ c :: back).map (withoutConfig c.automationId) =
      front.map (withoutConfig c.automationId) ++ c :: back.map (withoutConfig c.automationId) := by
    rw [List.map_append, List.map_cons, own]
  have unscheduled : ∀ d ∈ front ++ back, isDailyRuleDue (withoutConfig c.automationId d) nowUtc = .ok false :=
    fun d member => evaluable_of_empty (empty d member)
  have all : ∀ d ∈ front.map (withoutConfig c.automationId) ++ c :: back.map (withoutConfig c.automationId),
      Evaluable d nowUtc := by
    intro d member
    rcases List.mem_append.mp member with before | after
    · obtain ⟨e, there, rfl⟩ := List.mem_map.mp before
      exact isDailyRuleDue_ok.mp ⟨_, unscheduled e (List.mem_append_left _ there)⟩
    · rcases List.mem_cons.mp after with rfl | behind
      · exact evaluable
      · obtain ⟨e, there, rfl⟩ := List.mem_map.mp behind
        exact isDailyRuleDue_ok.mp ⟨_, unscheduled e (List.mem_append_right _ there)⟩
  have nobody : (front.map (withoutConfig c.automationId)).countP (fun d => worker.isNew d && isDue nowUtc d) = 0 := by
    apply List.countP_eq_zero.mpr
    intro d member
    obtain ⟨e, there, rfl⟩ := List.mem_map.mp member
    have idle : isDue nowUtc (withoutConfig c.automationId e) = false := by
      unfold isDue
      rw [unscheduled e (List.mem_append_left _ there)]
    simp [idle]
  have apart := distinct
  rw [← map_withoutConfig_ids c.automationId, split] at apart
  rw [split, enqueues_iff apart all, nobody, Nat.add_zero]

/-- A tick over the candidates of distinct automations is isolated exactly when each configuration can be evaluated and
the bounded queue turns none of the due ones away. -/
theorem isolated_iff {candidates : List AutomationScheduleCandidate}
    (distinct : (candidates.map AutomationScheduleCandidate.automationId).Nodup) :
    Isolated o nowUtc worker candidates ↔
      (∀ c ∈ candidates, Evaluable c nowUtc) ∧ Fits o nowUtc worker candidates := by
  constructor
  · intro isolated
    have evaluable := dueCandidates_ok.mp isolated.returns
    refine ⟨evaluable, ?_⟩
    by_contra crowded
    unfold Fits at crowded
    -- The candidate that finds the last place taken would have had it without the others.
    have many : max 1 o.queueSize - worker.queue.length <
        candidates.countP (fun c => worker.isNew c && isDue nowUtc c) := by omega
    obtain ⟨front, c, back, rfl, wanted, count⟩ := exists_split_of_lt_countP many
    have same := isolated.independent c (List.mem_append_right _ List.mem_cons_self)
    rw [enqueues_iff distinct evaluable, enqueues_alone_iff distinct
      (evaluable c (List.mem_append_right _ List.mem_cons_self)), count] at same
    have place : worker.queue.length < max 1 o.queueSize := by omega
    have taken := (same.mpr ⟨wanted, place⟩).2
    omega
  · intro both
    obtain ⟨evaluable, fits⟩ := both
    refine ⟨dueCandidates_ok.mpr evaluable, fun c member => ?_⟩
    obtain ⟨front, back, rfl⟩ := List.append_of_mem member
    rw [enqueues_iff distinct evaluable, enqueues_alone_iff distinct (evaluable c member)]
    apply and_congr_right
    intro wanted
    unfold Fits at fits
    rw [List.countP_append, List.countP_cons_of_pos (p := fun d => worker.isNew d && isDue nowUtc d) wanted] at fits
    omega

end

def reportAt (automationId : Int) (time : Str) : AutomationScheduleCandidate :=
  ⟨automationId, 7, "report".toList, "create_task".toList, [("daily_at".toList, .string time)], none⟩

def hundredPlaces : SchedulerOptions := ⟨100, 100, 2, fun workspaceId automationId => 1000 * workspaceId + automationId⟩

theorem isolated_two_reports :
    Isolated hundredPlaces 0 ⟨[], []⟩ [reportAt 1 ['8', ':', '0'], reportAt 2 ['x', ':', '0']] := by
  apply (isolated_iff (by decide)).mpr
  constructor
  · intro c member
    apply isDailyRuleDue_ok.mp
    rcases List.mem_cons.mp member with rfl | member
    · exact ⟨false, by decide⟩
    · rw [List.mem_singleton.mp member]
      exact ⟨false, by decide⟩
  · exact .inr (by decide)

/-- One hour given by a superscript two, which `isdigit` accepts and `int` refuses, ends the tick for both. -/
theorem not_isolated : ¬ Isolated hundredPlaces 0 ⟨[], []⟩ [reportAt 1 ['0', ':', '0'], reportAt 2 ['²', ':', '0']] := by
  intro isolated
  obtain ⟨due, evaluated⟩ := isolated.returns
  have raised : dueCandidates 0 [reportAt 1 ['0', ':', '0'], reportAt 2 ['²', ':', '0']] = .error .valueError := rfl
  rw [raised] at evaluated
  cases evaluated

end ClaudeProxy.Automation

import ClaudeProxy.Automation.Scheduler

namespace ClaudeProxy.Automation

open Kit

/-- What `AutomationActionWorker.enqueue` finds. It returns true for `enqueued` only. -/
inductive EnqueueOutcome where
  | alreadyInFlight
  | queueFull
  | enqueued
deriving DecidableEq

namespace ActionWorker

def outcome (o : SchedulerOptions) (worker : ActionWorker) (candidate : AutomationScheduleCandidate) : EnqueueOutcome :=
  if candidate.automationId ∈ worker.inflight then .alreadyInFlight
  else if max 1 o.queueSize ≤ worker.queue.length then .queueFull
  else .enqueued

def outcomes (o : SchedulerOptions) (nowUtc : Time) : ActionWorker → List AutomationScheduleCandidate →
    List (Int × EnqueueOutcome)
  | _, [] => []
  | worker, c :: rest => (c.automationId, worker.outcome o c) :: outcomes o nowUtc (worker.enqueue o nowUtc c) rest

section

variable {o : SchedulerOptions} {nowUtc : Time} {worker : ActionWorker} {candidate : AutomationScheduleCandidate}

theorem enqueue_eq : worker.enqueue o nowUtc candidate =
    if worker.outcome o candidate = .enqueued then
      ⟨worker.queue ++ [⟨candidate, nowUtc⟩], candidate.automationId :: worker.inflight⟩
    else worker := by
  unfold enqueue outcome
  by_cases busy : candidate.automationId ∈ worker.inflight
  · simp [busy]
  · by_cases full : max 1 o.queueSize ≤ worker.queue.length
    · rw [if_neg busy, if_neg busy, if_pos full, if_pos full]
      rfl
    · rw [if_neg busy, if_neg busy, if_neg full, if_neg full]
      rfl

theorem outcome_eq_enqueued : worker.outcome o candidate = .enqueued ↔
    candidate.automationId ∉ worker.inflight ∧ worker.queue.length < max 1 o.queueSize := by
  unfold outcome
  by_cases busy : candidate.automationId ∈ worker.inflight
  · simp [busy]
  · by_cases full : max 1 o.queueSize ≤ worker.queue.length
    · rw [if_neg busy, if_pos full]
      simp only [reduceCtorEq, false_iff, not_and, not_lt]
      exact fun _ => full
    · rw [if_neg busy, if_neg full]
      exact ⟨fun _ => ⟨busy, not_le.mp full⟩, fun _ => rfl⟩

theorem mem_inflight_enqueue {automationId : Int} (other : candidate.automationId ≠ automationId) :
    automationId ∈ (worker.enqueue o nowUtc candidate).inflight ↔ automationId ∈ worker.inflight := by
  rw [enqueue_eq]
  split
  · simp [other.symm]
  · rfl

theorem mem_inflight_enqueue_all {automationId : Int} {due : List AutomationScheduleCandidate}
    (others : ∀ c ∈ due, c.automationId ≠ automationId) :
    automationId ∈ (due.foldl (enqueue o nowUtc) worker).inflight ↔ automationId ∈ worker.inflight := by
  induction due generalizing worker with
  | nil => rfl
  | cons c rest ih =>
    rw [List.foldl_cons, ih fun d member => others d (List.mem_cons_of_mem _ member)]
    exact mem_inflight_enqueue (others c List.mem_cons_self)

theorem outcomes_append {front back : List AutomationScheduleCandidate} :
    worker.outcomes o nowUtc (front ++ back) =
      worker.outcomes o nowUtc front ++ (front.foldl (enqueue o nowUtc) worker).outcomes o nowUtc back := by
  induction front generalizing worker with
  | nil => rfl
  | cons c rest ih =>
    rw [List.cons_append, outcomes, ih]
    rfl

variable (o nowUtc worker) in
theorem outcomes_ids (due : List AutomationScheduleCandidate) :
    (worker.outcomes o nowUtc due).map Prod.fst = due.map AutomationScheduleCandidate.automationId := by
  induction due generalizing worker with
  | nil => rfl
  | cons c rest ih =>
    rw [outcomes, List.map_cons, List.map_cons, ih]

def isNew (worker : ActionWorker) (candidate : AutomationScheduleCandidate) : Bool :=
  candidate.automationId ∉ worker.inflight

variable (o nowUtc worker) in
/-- With distinct automations the queue is full after the candidates that are new have taken its free places. -/
theorem full_enqueue_all {due : List AutomationScheduleCandidate}
    (distinct : (due.map AutomationScheduleCandidate.automationId).Nodup) :
    max 1 o.queueSize ≤ (due.foldl (enqueue o nowUtc) worker).queue.length ↔
      max 1 o.queueSize ≤ worker.queue.length + due.countP worker.isNew := by
  induction due generalizing worker with
  | nil => simp
  | cons c rest ih =>
    obtain ⟨apart, distinct⟩ := List.nodup_cons.mp distinct
    have same : rest.countP (worker.enqueue o nowUtc c).isNew = rest.countP worker.isNew := by
      apply List.countP_congr
      intro d member
      have other : c.automationId ≠ d.automationId := by
        intro same
        apply apart
        rw [same]
        exact List.mem_map_of_mem member
      unfold isNew
      simp only [decide_eq_true_eq]
      exact not_congr (mem_inflight_enqueue other)
    rw [List.foldl_cons, ih _ distinct, same, List.countP_cons, enqueue_eq]
    by_cases new : worker.isNew c = true
    · have free : c.automationId ∉ worker.inflight := by simpa [isNew] using new
      rw [if_pos new]
      by_cases full : max 1 o.queueSize ≤ worker.queue.length
      · have dropped : worker.outcome o c ≠ .enqueued := fun taken =>
          absurd (outcome_eq_enqueued.mp taken).2 (not_lt.mpr full)
        rw [if_neg dropped]
        omega
      · rw [if_pos (outcome_eq_enqueued.mpr ⟨free, not_le.mp full⟩)]
        simp only [List.length_append, List.length_singleton]
        omega
    · have busy : worker.outcome o c ≠ .enqueued := by
        intro taken
        apply new
        simpa [isNew] using (outcome_eq_enqueued.mp taken).1
      rw [if_neg new, if_neg busy]
      omega

/-- A candidate is enqueued if it is new and the new candidates before it have left a place. -/
theorem enqueued_iff {front back : List AutomationScheduleCandidate}
    (distinct : ((front ++ candidate :: back).map AutomationScheduleCandidate.automationId).Nodup) :
    (candidate.automationId, .enqueued) ∈ worker.outcomes o nowUtc (front ++ candidate :: back) ↔
      worker.isNew candidate = true ∧ worker.queue.length + front.countP worker.isNew < max 1 o.queueSize := by
  rw [List.map_append, List.map_cons, List.nodup_append] at distinct
  obtain ⟨front_distinct, back_distinct, apart⟩ := distinct
  have before : ∀ c ∈ front, c.automationId ≠ candidate.automationId := fun c member =>
    apart _ (List.mem_map_of_mem member) _ List.mem_cons_self
  have absent : ∀ (w : ActionWorker) (l : List AutomationScheduleCandidate), candidate.automationId ∉ l.map
      AutomationScheduleCandidate.automationId → (candidate.automationId, .enqueued) ∉ w.outcomes o nowUtc l := by
    intro w l missing member
    apply missing
    rw [← outcomes_ids o nowUtc w]
    exact List.mem_map_of_mem (f := Prod.fst) member
  have not_before : candidate.automationId ∉ front.map AutomationScheduleCandidate.automationId := by
    intro member
    obtain ⟨c, there, same⟩ := List.mem_map.mp member
    exact before c there same
  have own : (candidate.automationId, .enqueued) ∈ worker.outcomes o nowUtc (front ++ candidate :: back) ↔
      (front.foldl (enqueue o nowUtc) worker).outcome o candidate = .enqueued := by
    rw [outcomes_append, outcomes, List.mem_append, List.mem_cons, Prod.mk.injEq]
    have there : (front.foldl (enqueue o nowUtc) worker).outcome o candidate = .enqueued ↔
        candidate.automationId = candidate.automationId ∧
          .enqueued = (front.foldl (enqueue o nowUtc) worker).outcome o candidate := by
      rw [and_iff_right rfl, eq_comm]
    rw [there, or_iff_right (absent _ _ not_before), or_iff_left (absent _ _ (List.nodup_cons.mp back_distinct).1)]
  have room := not_congr (full_enqueue_all o nowUtc worker front_distinct)
  rw [not_le, not_le] at room
  rw [own, outcome_eq_enqueued, mem_inflight_enqueue_all before, room]
  unfold isNew
  simp

end

end ActionWorker

end ClaudeProxy.Automation

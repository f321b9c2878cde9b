import Mathlib.Data.List.Sort
import ClaudeProxy.Automation.Schedule
import ClaudeProxy.Kit.Dict
import ClaudeProxy.Kit.Machine

namespace ClaudeProxy.Automation

open Kit

structure AutomationRow where
  id : Int
  workspaceId : Int
  name : Str
  triggerType : Str
  actionType : Str
  config : Members
  enabled : Bool
  updatedAt : Time

structure AutomationTable where
  rows : List AutomationRow
  unique : (rows.map AutomationRow.id).Nodup

inductive RunStatus where
  | success
  | failed
deriving DecidableEq

structure AutomationRun where
  automationId : Int
  status : RunStatus
  evaluatedAt : Time
  createdAt : Time
deriving DecidableEq

def lastRunAt (runs : List AutomationRun) (automationId : Int) : Option Time :=
  ((runs.filter fun run => run.automationId = automationId).map AutomationRun.createdAt).max?

structure SchedulerOptions where
  maxBatch : Nat
  queueSize : Nat
  concurrency : Nat
  /-- `advisory_lock_key` of an execution, by workspace and automation. -/
  lockKey : Int → Int → Int

/-- The order `updated_at DESC, id DESC`. -/
def updatedLater (a b : AutomationRow) : Prop :=
  b.updatedAt < a.updatedAt ∨ (a.updatedAt = b.updatedAt ∧ b.id ≤ a.id)

instance : DecidableRel updatedLater := fun _ _ => inferInstanceAs (Decidable (_ ∨ _))

def candidateOf (runs : List AutomationRun) (row : AutomationRow) : AutomationScheduleCandidate where
  automationId := row.id
  workspaceId := row.workspaceId
  name := row.name
  actionType := row.actionType
  config := row.config
  lastRunAt := lastRunAt runs row.id

def fetchCandidates (o : SchedulerOptions) (table : AutomationTable) (runs : List AutomationRun) :
    List AutomationScheduleCandidate :=
  let scheduled := table.rows.filter fun row => row.enabled ∧ row.triggerType = "schedule".toList
  ((scheduled.insertionSort updatedLater).take (max 1 o.maxBatch)).map (candidateOf runs)

/-- `[c for c in candidates if _is_daily_rule_due(c, now_utc)]` -/
def dueCandidates (nowUtc : Time) : List AutomationScheduleCandidate → Except PyError (List AutomationScheduleCandidate)
  | [] => .ok []
  | c :: rest => do
    let due ← isDailyRuleDue c nowUtc
    let others ← dueCandidates nowUtc rest
    return if due then c :: others else others

structure QueuedRun where
  candidate : AutomationScheduleCandidate
  scheduledAt : Time

structure ActionWorker where
  queue : List QueuedRun
  inflight : List Int

def ActionWorker.enqueue (o : SchedulerOptions) (nowUtc : Time) (worker : ActionWorker)
    (candidate : AutomationScheduleCandidate) : ActionWorker :=
  if candidate.automationId ∈ worker.inflight then worker
  else if max 1 o.queueSize ≤ worker.queue.length then worker
  else ⟨worker.queue ++ [⟨candidate, nowUtc⟩], candidate.automationId :: worker.inflight⟩

inductive Tick where
  | started (nowUtc : Time)
  | fetched (nowUtc : Time) (candidates : List AutomationScheduleCandidate)

def Tick.nowUtc : Tick → Time
  | .started nowUtc => nowUtc
  | .fetched nowUtc _ => nowUtc

structure Server where
  tick : Option Tick
  worker : ActionWorker

/-- The stages of `_execute_candidate` in a worker. A running execution holds its lock until its transaction ends. -/
inductive Stage where
  | taken
  | running (createdAt : Time)
  | ended

structure Execution where
  server : Nat
  queued : QueuedRun
  stage : Stage

namespace Execution

def candidate (e : Execution) : AutomationScheduleCandidate := e.queued.candidate

def isRunning (e : Execution) : Bool :=
  match e.stage with
  | .running _ => true
  | _ => false

def key (o : SchedulerOptions) (e : Execution) : Int := o.lockKey e.candidate.workspaceId e.candidate.automationId

end Execution

structure Cluster where
  clock : Time
  runs : List AutomationRun
  servers : Nat → Server
  executions : Dict Nat Execution
  nextExecution : Nat

inductive Action where
  | startTick (server : Nat) (nowUtc : Time)
  | fetch (server : Nat)
  | enqueueDue (server : Nat)
  | take (server : Nat)
  | tryLock (execution : Nat) (nowUtc : Time)
  | commit (execution : Nat) (status : RunStatus)
  | rollback (execution : Nat)
  | finish (execution : Nat)

namespace Cluster

def setServer (c : Cluster) (i : Nat) (server : Server) : Cluster :=
  { c with servers := fun j => if j = i then server else c.servers j }

def setStage (c : Cluster) (n : Nat) (e : Execution) (stage : Stage) : Cluster :=
  { c with executions := c.executions.set n { e with stage := stage } }

def isLocked (o : SchedulerOptions) (c : Cluster) (key : Int) : Bool :=
  c.executions.values.any fun e => e.isRunning ∧ e.key o = key

def busy (c : Cluster) (i : Nat) : Nat := c.executions.values.countP fun e => e.server = i

/-- The end of a tick; a configuration that raises ends it with nothing enqueued. -/
def enqueueAll (o : SchedulerOptions) (server : Server) (nowUtc : Time) (candidates : List AutomationScheduleCandidate) :
    Server :=
  match dueCandidates nowUtc candidates with
  | .ok due => ⟨none, due.foldl (ActionWorker.enqueue o nowUtc) server.worker⟩
  | .error _ => ⟨none, server.worker⟩

def step (o : SchedulerOptions) (table : AutomationTable) (c : Cluster) : Action → Option Cluster
  | .startTick i nowUtc =>
    if (c.servers i).tick.isNone ∧ c.clock ≤ nowUtc then
      some ({ c with clock := nowUtc }.setServer i { c.servers i with tick := some (.started nowUtc) })
    else none
  | .fetch i =>
    match (c.servers i).tick with
    | some (.started nowUtc) =>
      some (c.setServer i { c.servers i with tick := some (.fetched nowUtc (fetchCandidates o table c.runs)) })
    | _ => none
  | .enqueueDue i =>
    match (c.servers i).tick with
    | some (.fetched nowUtc candidates) => some (c.setServer i (enqueueAll o (c.servers i) nowUtc candidates))
    | _ => none
  | .take i =>
    match (c.servers i).worker.queue with
    | [] => none
    | queued :: rest =>
      if c.busy i < max 1 o.concurrency then
        some { c.setServer i { c.servers i with worker := { (c.servers i).worker with queue := rest } } with
          executions := c.executions.set c.nextExecution ⟨i, queued, .taken⟩
          nextExecution := c.nextExecution + 1 }
      else none
  | .tryLock n nowUtc =>
    match c.executions.get? n with
    | some ⟨server, queued, .taken⟩ =>
      let e : Execution := ⟨server, queued, .taken⟩
      if c.clock ≤ nowUtc then
        -- A held lock makes the execution return "skipped_locked".
        some ({ c with clock := nowUtc }.setStage n e (if c.isLocked o (e.key o) then .ended else .running nowUtc))
      else none
    | _ => none
  | .commit n status =>
    match c.executions.get? n with
    | some ⟨server, queued, .running createdAt⟩ =>
      let run : AutomationRun := ⟨queued.candidate.automationId, status, queued.scheduledAt, createdAt⟩
      some ({ c with runs := c.runs ++ [run] }.setStage n ⟨server, queued, .running createdAt⟩ .ended)
    | _ => none
  | .rollback n =>
    match c.executions.get? n with
    | some ⟨_, _, .ended⟩ => none
    | some e => some (c.setStage n e .ended)
    | none => none
  | .finish n =>
    match c.executions.get? n with
    | some ⟨i, queued, .ended⟩ =>
      let worker := (c.servers i).worker
      let inflight := worker.inflight.filter (· ≠ queued.candidate.automationId)
      some { c.setServer i { c.servers i with worker := { worker with inflight := inflight } } with
        executions := c.executions.erase n }
    | _ => none

def initial (start : Time) : Cluster where
  clock := start
  runs := []
  servers _ := ⟨none, ⟨[], []⟩⟩
  executions := .empty
  nextExecution := 0

def machine (o : SchedulerOptions) (table : AutomationTable) (start : Time) : Machine Cluster Action where
  init := initial start
  step := step o table

/-- What each step finds and does. -/
inductive StepOf (o : SchedulerOptions) (table : AutomationTable) (c : Cluster) : Action → Cluster → Prop where
  | startTick (i : Nat) (nowUtc : Time) (idle : (c.servers i).tick.isNone = true) (forward : c.clock ≤ nowUtc) :
    StepOf o table c (.startTick i nowUtc)
      ({ c with clock := nowUtc }.setServer i { c.servers i with tick := some (.started nowUtc) })
  | fetch (i : Nat) (nowUtc : Time) (started : (c.servers i).tick = some (.started nowUtc)) :
    StepOf o table c (.fetch i)
      (c.setServer i { c.servers i with tick := some (.fetched nowUtc (fetchCandidates o table c.runs)) })
  | enqueueDue (i : Nat) (nowUtc : Time) (candidates : List AutomationScheduleCandidate)
      (fetched : (c.servers i).tick = some (.fetched nowUtc candidates)) :
    StepOf o table c (.enqueueDue i) (c.setServer i (enqueueAll o (c.servers i) nowUtc candidates))
  | take (i : Nat) (queued : QueuedRun) (rest : List QueuedRun) (waiting : (c.servers i).worker.queue = queued :: rest)
      (free : c.busy i < max 1 o.concurrency) :
    StepOf o table c (.take i)
      { c.setServer i { c.servers i with worker := { (c.servers i).worker with queue := rest } } with
        executions := c.executions.set c.nextExecution ⟨i, queued, .taken⟩
        nextExecution := c.nextExecution + 1 }
  | tryLock (n : Nat) (nowUtc : Time) (server : Nat) (queued : QueuedRun)
      (found : c.executions.get? n = some ⟨server, queued, .taken⟩) (forward : c.clock ≤ nowUtc) :
    StepOf o table c (.tryLock n nowUtc)
      ({ c with clock := nowUtc }.setStage n ⟨server, queued, .taken⟩
        (if c.isLocked o (Execution.key o ⟨server, queued, .taken⟩) then .ended else .running nowUtc))
  | commit (n : Nat) (status : RunStatus) (server : Nat) (queued : QueuedRun) (createdAt : Time)
      (found : c.executions.get? n = some ⟨server, queued, .running createdAt⟩) :
    StepOf o table c (.commit n status)
      ({ c with
        runs := c.runs ++ [AutomationRun.mk queued.candidate.automationId status queued.scheduledAt createdAt] }.setStage n
          ⟨server, queued, .running createdAt⟩ .ended)
  | rollback (n : Nat) (e : Execution) (found : c.executions.get? n = some e) (going : e.stage ≠ .ended) :
    StepOf o table c (.rollback n) (c.setStage n e .ended)
  | finish (n : Nat) (i : Nat) (queued : QueuedRun) (found : c.executions.get? n = some ⟨i, queued, .ended⟩) :
    StepOf o table c (.finish n)
      { c.setServer i { c.servers i with worker := { (c.servers i).worker with
          inflight := (c.servers i).worker.inflight.filter (· ≠ queued.candidate.automationId) } } with
        executions := c.executions.erase n }

theorem step_cases {o : SchedulerOptions} {table : AutomationTable} {c next : Cluster} {a : Action}
    (taken : c.step o table a = some next) : StepOf o table c a next := by
  cases a with
  | startTick i nowUtc =>
    simp only [step] at taken
    split at taken
    · rename_i enabled
      cases taken
      exact .startTick i nowUtc enabled.1 enabled.2
    · cases taken
  | fetch i =>
    simp only [step] at taken
    split at taken
    · rename_i nowUtc started
      cases taken
      exact .fetch i nowUtc started
    · cases taken
  | enqueueDue i =>
    simp only [step] at taken
    split at taken
    · rename_i nowUtc candidates fetched
      cases taken
      exact .enqueueDue i nowUtc candidates fetched
    · cases taken
  | take i =>
    simp only [step] at taken
    split at taken
    · cases taken
    · rename_i queued rest waiting
      split at taken
      · rename_i free
        cases taken
        exact .take i queued rest waiting free
      · cases taken
  | tryLock n nowUtc =>
    simp only [step] at taken
    split at taken
    · rename_i server queued found
      split at taken
      · rename_i forward
        cases taken
        exact .tryLock n nowUtc server queued found forward
      · cases taken
    · cases taken
  | commit n status =>
    simp only [step] at taken
    split at taken
    · rename_i server queued createdAt found
      cases taken
      exact .commit n status server queued createdAt found
    · cases taken
  | rollback n =>
    simp only [step] at taken
    split at taken
    · cases taken
    · rename_i e going found
      cases taken
      apply StepOf.rollback n e found
      rintro ended
      exact going e.server e.queued (ended ▸ rfl)
    · cases taken
  | finish n =>
    simp only [step] at taken
    split at taken
    · rename_i i queued found
      cases taken
      exact .finish n i queued found
    · cases taken

/-- For each automation, the committed runs were scheduled on different local dates; one that failed may have applied its
    action all the same. -/
def OncePerDate (table : AutomationTable) (c : Cluster) : Prop :=
  ∀ row ∈ table.rows, (c.runs.filter fun run => run.automationId = row.id).Pairwise
    fun earlier later => localDate row.config earlier.evaluatedAt ≠ localDate row.config later.evaluatedAt

/-- An execution asks for its lock while the last committed run of its automation is the one of its snapshot. -/
def snapshotCurrent (c : Cluster) : Action → Bool
  | .tryLock n _ => (c.executions.get? n).all fun e => e.candidate.lastRunAt = lastRunAt c.runs e.candidate.automationId
  | _ => true

end Cluster

end ClaudeProxy.Automation

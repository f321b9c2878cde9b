import ClaudeProxy.Automation.Scheduler
import ClaudeProxy.Kit.PyRepr
import ClaudeProxy.Kit.Transaction
import ClaudeProxy.Providers.HeuristicToolParser

namespace ClaudeProxy.Automation

open Kit Providers

def allowedTaskStatuses : List Str := ["todo", "in_progress", "done", "blocked"].map String.toList

def allowedTaskPriorities : List Str := ["low", "normal", "high", "urgent"].map String.toList

/-- `str.lower` as far as it decides on the names of the actions. -/
def lower (s : Str) : Str := s.map fun c => if c.toNat = 0x212A then 'k' else c.toLower

structure TaskRow where
  id : Int
  workspaceId : Int
  title : Str
  description : Option Str
  status : Str
  priority : Str
  source : Str

structure TaskRunRow where
  id : Int
  taskId : Int
  workspaceId : Int
  triggerSource : Str
  status : Str
  startedAt : Time
  finishedAt : Time
  metadata : Members

inductive RecordedStatus where
  | running
  | success
  | failed
deriving DecidableEq

structure AutomationRunRow where
  id : Int
  automationId : Int
  workspaceId : Int
  taskRunId : Option Int
  taskId : Option Int
  status : RecordedStatus
  startedAt : Time
  finishedAt : Option Time
  errorMessage : Option Str
  metadata : Members

structure Database where
  tasks : List TaskRow
  taskRuns : List TaskRunRow
  automationRuns : List AutomationRunRow

inductive Statement where
  | lock
  | insertRun
  | task
  | taskRun
  | recordSuccess
  | recordFailure

/-- What is outside of the transaction: the connection, which statements fail by themselves, the lock, the values of the
sequences and the clock. -/
structure Surroundings where
  connection : Except Str Unit
  fails : Statement → Option SqlFailure
  lockFree : Bool
  newRunId : Int
  newTaskId : Int
  newTaskRunId : Int
  now : Time
  evaluatedAt : Str
  text : PyText

/-- A Python int as a parameter; `True` is an int, and is sent as a boolean. -/
inductive IntParam where
  | int (value : Int)
  | true

def getConfiguredTaskId (config : Members) : Option IntParam :=
  match Json.get config "task_id" .null with
  | .integer value => if 0 < value then some (.int value) else none
  | .bool value => if value then some .true else none
  | _ => none

structure NewTask where
  title : Str
  description : Option Str
  priority : Str

def newTask (text : PyText) (candidate : AutomationScheduleCandidate) : NewTask :=
  let template := match Json.get candidate.config "task_template" .null with
    | .object members => members
    | _ => []
  let automationTitle := "[Automation] ".toList ++ candidate.name
  let title := match Json.get template "title" .null with
    | .string title => if strip title = [] then automationTitle else title
    | _ => automationTitle
  let description := match Json.get template "description" .null with
    | .null => none
    | .string description => some description
    | other => some (text.str other.decoded)
  let priority := match Json.get template "priority" (.string "normal".toList) with
    | .string priority => if priority ∈ allowedTaskPriorities then priority else "normal".toList
    | _ => "normal".toList
  ⟨strip title, description, priority⟩

def duplicateKey : Str := "duplicate key value violates unique constraint".toList

def booleanForBigint : Str := "bigint expected, got boolean".toList

def foreignKey : Str := "violates foreign key constraint \"task_runs_task_id_fkey\"".toList

section Statements

variable (env : Surroundings) (candidate : AutomationScheduleCandidate)

def insertTask (db : Database) : Except Str (Option Int × Database) :=
  if env.newTaskId ∈ db.tasks.map TaskRow.id then .error duplicateKey
  else
    let values := newTask env.text candidate
    let row : TaskRow := ⟨env.newTaskId, candidate.workspaceId, values.title, values.description, "todo".toList,
      values.priority, "automation".toList⟩
    .ok (some env.newTaskId, { db with tasks := db.tasks ++ [row] })

def TaskRow.isOf (workspaceId id : Int) (row : TaskRow) : Bool := row.id = id ∧ row.workspaceId = workspaceId

def updateTask (status : Str) (taskId : IntParam) (db : Database) : Except Str (Option Int × Database) :=
  match taskId with
  | .true => .error booleanForBigint
  | .int id =>
    let found := (db.tasks.find? (TaskRow.isOf candidate.workspaceId id)).map TaskRow.id
    let tasks := db.tasks.map fun row => if row.isOf candidate.workspaceId id then { row with status := status } else row
    .ok (found, { db with tasks := tasks })

def insertTaskRun (taskId : IntParam) (metadata : Members) (db : Database) : Except Str (Option Int × Database) :=
  match taskId with
  | .true => .error booleanForBigint
  | .int id =>
    if env.newTaskRunId ∈ db.taskRuns.map TaskRunRow.id then .error duplicateKey
    else if id ∈ db.tasks.map TaskRow.id then
      let row : TaskRunRow := ⟨env.newTaskRunId, id, candidate.workspaceId, "automation_schedule".toList, "success".toList,
        env.now, env.now, metadata⟩
      .ok (some env.newTaskRunId, { db with taskRuns := db.taskRuns ++ [row] })
    else .error foreignKey

def insertAutomationRun (db : Database) : Except Str (Option Int × Database) :=
  if env.newRunId ∈ db.automationRuns.map AutomationRunRow.id then .error duplicateKey
  else
    let metadata := [("trigger_source".toList, Json.string "scheduler".toList),
      ("evaluated_at".toList, .string env.evaluatedAt), ("action_type".toList, .string candidate.actionType)]
    let row : AutomationRunRow :=
      ⟨env.newRunId, candidate.automationId, candidate.workspaceId, none, none, .running, env.now,
      none, none, metadata⟩
    .ok (some env.newRunId, { db with automationRuns := db.automationRuns ++ [row] })

def setRun (runId : Int) (change : AutomationRunRow → AutomationRunRow) (db : Database) : Database :=
  { db with automationRuns := db.automationRuns.map fun row => if row.id = runId then change row else row }

def recordSuccess (taskId : Option IntParam) (taskRunId : Option Int) (runId : Int) (db : Database) :
    Except Str (Unit × Database) :=
  let record := fun taskId => setRun runId (fun row =>
    { row with status := .success, finishedAt := some env.now, taskId := taskId, taskRunId := taskRunId }) db
  match taskId with
  | none => .ok ((), record none)
  | some (.int id) => .ok ((), record (some id))
  | some .true => .error booleanForBigint

def recordFailure (message : Str) (runId : Int) (db : Database) : Except Str (Unit × Database) :=
  .ok ((), setRun runId (fun row =>
    { row with status := .failed, finishedAt := some env.now, errorMessage := some message }) db)

/-- `execute`, `fetchone`, and an error when no row comes back -/
def returning (failure : Option SqlFailure) (effect : Database → Except Str (Option Int × Database)) (otherwise : Str) :
    Sql Database Int := do
  match ← Sql.statement failure effect with
  | some id => pure id
  | none => Sql.raise otherwise

def createTaskFromTemplate : Sql Database Int :=
  returning (env.fails .task) (insertTask env candidate) "failed to create task for automation".toList

def createTaskRun (taskId : IntParam) (metadata : Members) : Sql Database Int :=
  returning (env.fails .taskRun) (insertTaskRun env candidate taskId metadata) "failed to create task run".toList

def setTaskStatus (config : Members) : Option Str :=
  match Json.get config "set_task_status" .null with
  | .string status => if status ∈ allowedTaskStatuses then some status else none
  | _ => none

def applyAutomationAction : Sql Database (Option IntParam) :=
  let action := lower (strip candidate.actionType)
  if action = "create_task".toList then do
    let taskId ← createTaskFromTemplate env candidate
    pure (some (.int taskId))
  else if action = "update_task_status".toList then
    match getConfiguredTaskId candidate.config with
    | none => Sql.raise "config.task_id is required for update_task_status".toList
    | some taskId =>
      match setTaskStatus candidate.config with
      | none => Sql.raise "config.set_task_status is invalid".toList
      | some status => do
        let id ← returning (env.fails .task) (updateTask candidate status taskId)
          "configured task_id not found in workspace".toList
        pure (some (.int id))
  else pure (getConfiguredTaskId candidate.config)

inductive ExecutionResult where
  | skippedLocked
  | success (automationRunId : Int) (taskId : Option IntParam) (taskRunId : Option Int)
  | failed (automationRunId : Int) (error : Str)

def attempt (runId : Int) : Sql Database ExecutionResult := do
  let taskId ← applyAutomationAction env candidate
  let taskRunId ← match taskId with
    | none => pure none
    | some id => do
      let taskRunId ← createTaskRun env candidate id
        [("automation_id".toList, .integer candidate.automationId), ("automation_run_id".toList, .integer runId)]
      pure (some taskRunId)
  Sql.statement (env.fails .recordSuccess) (recordSuccess env taskId taskRunId runId)
  pure (.success runId taskId taskRunId)

def recordFailed (runId : Int) (message : Str) : Sql Database ExecutionResult := do
  Sql.statement (env.fails .recordFailure) (recordFailure env message runId)
  pure (.failed runId message)

def execution : Sql Database ExecutionResult := do
  let acquired ← Sql.statement (env.fails .lock) fun db => .ok (env.lockFree, db)
  if acquired then do
    let runId ← returning (env.fails .insertRun) (insertAutomationRun env candidate)
      "failed to create automation run".toList
    Sql.handle (attempt env candidate runId) (recordFailed env runId)
  else pure .skippedLocked

def executeCandidate (db : Database) : Except Str ExecutionResult × Database :=
  match env.connection with
  | .ok _ => Sql.transaction (execution env candidate) db
  | .error message => (.error message, db)

end Statements

end ClaudeProxy.Automation

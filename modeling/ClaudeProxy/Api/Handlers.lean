import ClaudeProxy.Api.Schemas
import ClaudeProxy.Automation.Scheduler

namespace ClaudeProxy.Api

open Kit Providers
open Automation (AutomationRow Time)

structure WorkspaceRow where
  id : Int
  slug : Str
  name : Str
  ownerUserId : Option Int

structure UserRow where
  id : Int
  email : Str
  displayName : Str

structure TaskRow where
  id : Int
  workspaceId : Int
  title : Str
  description : Option Str
  status : Str
  priority : Str

/-- The tables behind the routes, with the next value of each id sequence. -/
structure Database where
  workspaces : List WorkspaceRow
  users : List UserRow
  tasks : List TaskRow
  automations : List AutomationRow
  nextWorkspace : Int
  nextUser : Int
  nextTask : Int
  nextAutomation : Int

inductive Row where
  | workspace (row : WorkspaceRow)
  | task (row : TaskRow)
  | automation (row : AutomationRow)

def Row.workspaceId : Row → Int
  | .workspace row => row.id
  | .task row => row.workspaceId
  | .automation row => row.workspaceId

structure Outcome where
  /-- Rows returned by a listing that has no workspace filter. -/
  listed : List Row
  /-- Rows returned by id or by workspace filter. -/
  returned : List Row
  changed : List Row
  deleted : List Row
  database : Database

def Outcome.touched (o : Outcome) : List Row := o.returned ++ o.changed ++ o.deleted

def allowedStatuses : List Str := ["todo".toList, "in_progress".toList, "done".toList, "blocked".toList]

def allowedPriorities : List Str := ["low".toList, "normal".toList, "high".toList, "urgent".toList]

inductive HttpError where
  | http (statusCode : Nat) (detail : Str)
  /-- A constraint of the database is violated. -/
  | integrity

def validateStatusPriority (status priority : Option Str) : Except HttpError Unit :=
  if status.any (· ∉ allowedStatuses) then .error (.http 422 ("invalid status: ".toList ++ status.getD []))
  else if priority.any (· ∉ allowedPriorities) then .error (.http 422 ("invalid priority: ".toList ++ priority.getD []))
  else .ok ()

/-- `LIMIT` and `OFFSET` after `limit = max(1, min(limit, 200))` and `offset = max(0, offset)`. -/
def page {α : Type} (limit offset : Int) (rows : List α) : List α :=
  (rows.drop offset.toNat).take (max 1 (min limit 200)).toNat

def byIdDesc {α : Type} (id : α → Int) (rows : List α) : List α := rows.insertionSort fun a b => id b ≤ id a

def contained (text : Str) : Str := '%' :: text ++ ['%']

namespace Database

variable (r : Runtime) (now : Time) (db : Database)

def listWorkspaces (limit offset : Int) : Except HttpError Outcome :=
  .ok ⟨(page limit offset (byIdDesc WorkspaceRow.id db.workspaces)).map .workspace, [], [], [], db⟩

/-- `INSERT .. ON CONFLICT (email) DO UPDATE`, with the id of the user. -/
def upsertUser (email displayName : Str) : Int × Database :=
  match db.users.find? (·.email = email) with
  | some user =>
    (user.id, { db with users := db.users.map fun row => if row.email = email then { row with displayName := displayName }
      else row })
  | none =>
    (db.nextUser, { db with users := db.users ++ [⟨db.nextUser, email, displayName⟩], nextUser := db.nextUser + 1 })

def createWorkspace (body : WorkspaceCreateRequest) : Except HttpError Outcome :=
  let (ownerUserId, db) := db.upsertUser (r.lower (strip body.ownerEmail)) (strip body.ownerDisplayName)
  let slug := r.lower (strip body.slug)
  match db.workspaces.find? (·.slug = slug) with
  | some row =>
    let updated : WorkspaceRow := { row with name := strip body.name, ownerUserId := some ownerUserId }
    .ok ⟨[], [], [.workspace updated], [],
      { db with workspaces := db.workspaces.map fun other => if other.slug = slug then updated else other }⟩
  | none =>
    .ok ⟨[], [], [], [], { db with
      workspaces := db.workspaces ++ [⟨db.nextWorkspace, slug, strip body.name, some ownerUserId⟩]
      nextWorkspace := db.nextWorkspace + 1 }⟩

def getWorkspace (workspaceId : Int) : Except HttpError Outcome :=
  match db.workspaces.find? (·.id = workspaceId) with
  | some row => .ok ⟨[], [.workspace row], [], [], db⟩
  | none => .error (.http 404 "workspace not found".toList)

def updateWorkspace (workspaceId : Int) (body : WorkspaceUpdateRequest) : Except HttpError Outcome :=
  let slug := body.slug.map fun slug => r.lower (strip slug)
  if body.slug.isNone ∧ body.name.isNone ∧ body.ownerUserId.isNone then .error (.http 400 "no fields to update".toList)
  else
    match db.workspaces.find? (·.id = workspaceId) with
    | none => .error (.http 404 "workspace not found".toList)
    | some row =>
      let updated : WorkspaceRow := ⟨row.id, slug.getD row.slug, (body.name.map strip).getD row.name,
        body.ownerUserId.or row.ownerUserId⟩
      if db.workspaces.any (fun other => other.id ≠ row.id ∧ other.slug = updated.slug) then .error .integrity
      else if body.ownerUserId.any fun owner => db.users.all (·.id ≠ owner) then .error .integrity
      else .ok ⟨[], [], [.workspace updated], [],
        { db with workspaces := db.workspaces.map fun other => if other.id = workspaceId then updated else other }⟩

/-- Tasks and automations go with their workspace. -/
def deleteWorkspace (workspaceId : Int) : Except HttpError Outcome :=
  match db.workspaces.filter (·.id = workspaceId) with
  | [] => .error (.http 404 "workspace not found".toList)
  | rows => .ok ⟨[], [], [],
      rows.map .workspace ++ (db.tasks.filter (·.workspaceId = workspaceId)).map .task ++
        (db.automations.filter (·.workspaceId = workspaceId)).map .automation,
      { db with
        workspaces := db.workspaces.filter (·.id ≠ workspaceId)
        tasks := db.tasks.filter (·.workspaceId ≠ workspaceId)
        automations := db.automations.filter (·.workspaceId ≠ workspaceId) }⟩

def hasStatus (status : Option Str) (row : TaskRow) : Bool :=
  match status with
  | some (c :: rest) => row.status = c :: rest
  | _ => true

def hasText (q : Option Str) (row : TaskRow) : Bool :=
  match q.map strip with
  | some (c :: rest) => r.ilike row.title (contained (c :: rest)) ||
    r.ilike (row.description.getD []) (contained (c :: rest))
  | _ => true

/-- The rows of `list_tasks` before its page is cut out. -/
def matchingTasks (workspaceId : Int) (status q : Option Str) : List TaskRow :=
  db.tasks.filter fun row => row.workspaceId = workspaceId && hasStatus status row && hasText r q row

def listTasks (workspaceId : Int) (status q : Option Str) (limit offset : Int) : Except HttpError Outcome := do
  validateStatusPriority status none
  return ⟨[], (page limit offset (byIdDesc TaskRow.id (db.matchingTasks r workspaceId status q))).map .task, [], [], db⟩

def createTask (body : TaskCreateRequest) : Except HttpError Outcome :=
  if db.workspaces.all (·.id ≠ body.workspaceId) then .error (.http 404 "workspace not found".toList)
  else
    let row : TaskRow := ⟨db.nextTask, body.workspaceId, body.title, body.description, "todo".toList, "normal".toList⟩
    .ok ⟨[], [], [.task row], [], { db with tasks := db.tasks ++ [row], nextTask := db.nextTask + 1 }⟩

def updateTask (taskId : Int) (body : TaskUpdateRequest) : Except HttpError Outcome := do
  validateStatusPriority body.status body.priority
  if body.title.isNone ∧ body.description.isNone ∧ body.status.isNone ∧ body.priority.isNone then
    .error (.http 400 "no fields to update".toList)
  else
    match db.tasks.find? fun row => row.id = taskId ∧ row.workspaceId = body.workspaceId with
    | none => .error (.http 404 "task not found".toList)
    | some row =>
      let updated : TaskRow := ⟨row.id, row.workspaceId, (body.title.map strip).getD row.title,
        body.description.or row.description, body.status.getD row.status, body.priority.getD row.priority⟩
      .ok ⟨[], [], [.task updated], [], { db with
        tasks := db.tasks.map fun other => if other.id = taskId ∧ other.workspaceId = body.workspaceId then updated
          else other }⟩

def deleteTask (taskId workspaceId : Int) : Except HttpError Outcome :=
  match db.tasks.filter fun row => row.id = taskId ∧ row.workspaceId = workspaceId with
  | [] => .error (.http 404 "task not found".toList)
  | rows => .ok ⟨[], [], [], rows.map .task,
      { db with tasks := db.tasks.filter fun row => ¬(row.id = taskId ∧ row.workspaceId = workspaceId) }⟩

def listAutomations (workspaceId : Int) (enabled : Option Bool) (limit offset : Int) : Except HttpError Outcome :=
  let rows := db.automations.filter fun row => row.workspaceId = workspaceId ∧ enabled.all (row.enabled = ·)
  .ok ⟨[], (page limit offset (byIdDesc AutomationRow.id rows)).map .automation, [], [], db⟩

def createAutomation (body : AutomationCreateRequest) : Except HttpError Outcome :=
  if db.workspaces.all (·.id ≠ body.workspaceId) then .error (.http 404 "workspace not found".toList)
  else if db.automations.any fun row => row.workspaceId = body.workspaceId ∧
    row.name = strip body.name then .error .integrity
  else
    let row : AutomationRow := ⟨db.nextAutomation, body.workspaceId, strip body.name, strip body.triggerType,
      strip body.actionType, body.config, body.enabled, now⟩
    .ok ⟨[], [], [.automation row], [],
      { db with automations := db.automations ++ [row], nextAutomation := db.nextAutomation + 1 }⟩

def updateAutomation (automationId : Int) (body : AutomationUpdateRequest) : Except HttpError Outcome :=
  if body.name.isNone ∧ body.triggerType.isNone ∧ body.actionType.isNone ∧ body.config.isNone ∧ body.enabled.isNone then
    .error (.http 400 "no fields to update".toList)
  else
    match db.automations.find? fun row => row.id = automationId ∧ row.workspaceId = body.workspaceId with
    | none => .error (.http 404 "automation not found".toList)
    | some row =>
      let updated : AutomationRow := ⟨row.id, row.workspaceId, (body.name.map strip).getD row.name,
        (body.triggerType.map strip).getD row.triggerType, (body.actionType.map strip).getD row.actionType,
        body.config.getD row.config, body.enabled.getD row.enabled, now⟩
      if db.automations.any fun other =>
          other.id ≠ row.id ∧ other.workspaceId = row.workspaceId ∧ other.name = updated.name then .error .integrity
      else .ok ⟨[], [], [.automation updated], [], { db with
        automations := db.automations.map fun other =>
          if other.id = automationId ∧ other.workspaceId = body.workspaceId then updated else other }⟩

def deleteAutomation (automationId workspaceId : Int) : Except HttpError Outcome :=
  match db.automations.filter fun row => row.id = automationId ∧ row.workspaceId = workspaceId with
  | [] => .error (.http 404 "automation not found".toList)
  | rows => .ok ⟨[], [], [], rows.map .automation,
      { db with automations := db.automations.filter fun row => ¬(row.id = automationId ∧ row.workspaceId = workspaceId) }⟩

def run : Call → Except HttpError Outcome
  | .listWorkspaces limit offset => db.listWorkspaces limit offset
  | .createWorkspace body => db.createWorkspace r body
  | .getWorkspace workspaceId => db.getWorkspace workspaceId
  | .updateWorkspace workspaceId body => db.updateWorkspace r workspaceId body
  | .deleteWorkspace workspaceId => db.deleteWorkspace workspaceId
  | .listTasks workspaceId status q limit offset => db.listTasks r workspaceId status q limit offset
  | .createTask body => db.createTask body
  | .updateTask taskId body => db.updateTask taskId body
  | .deleteTask taskId workspaceId => db.deleteTask taskId workspaceId
  | .listAutomations workspaceId enabled limit offset => db.listAutomations workspaceId enabled limit offset
  | .createAutomation body => db.createAutomation now body
  | .updateAutomation automationId body => db.updateAutomation now automationId body
  | .deleteAutomation automationId workspaceId => db.deleteAutomation automationId workspaceId

end Database

/-- The rows a call returns by id or by workspace filter, changes or deletes. A call that fails touches none. -/
def Database.touched (r : Runtime) (now : Time) (db : Database) (call : Call) : List Row :=
  match db.run r now call with
  | .ok outcome => outcome.touched
  | .error _ => []

end ClaudeProxy.Api

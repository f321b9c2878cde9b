import ClaudeProxy.Api.Handlers

namespace ClaudeProxy.Api

open Kit Providers
open Automation (AutomationRow Time)

def slugOf (r : Runtime) (body : WorkspaceCreateRequest) : Str := r.lower (strip body.slug)

def Database.upsertOwner (r : Runtime) (db : Database) (body : WorkspaceCreateRequest) : Int × Database :=
  db.upsertUser (r.lower (strip body.ownerEmail)) (strip body.ownerDisplayName)

def WorkspaceUpdateRequest.applied (r : Runtime) (body : WorkspaceUpdateRequest) (row : WorkspaceRow) : WorkspaceRow :=
  ⟨row.id, (body.slug.map fun slug => r.lower (strip slug)).getD row.slug, (body.name.map strip).getD row.name,
    body.ownerUserId.or row.ownerUserId⟩

def TaskUpdateRequest.applied (body : TaskUpdateRequest) (row : TaskRow) : TaskRow :=
  ⟨row.id, row.workspaceId, (body.title.map strip).getD row.title, body.description.or row.description,
    body.status.getD row.status, body.priority.getD row.priority⟩

def AutomationUpdateRequest.applied (now : Time) (body : AutomationUpdateRequest) (row : AutomationRow) : AutomationRow :=
  ⟨row.id, row.workspaceId, (body.name.map strip).getD row.name, (body.triggerType.map strip).getD row.triggerType,
    (body.actionType.map strip).getD row.actionType, body.config.getD row.config, body.enabled.getD row.enabled, now⟩

def newTask (db : Database) (body : TaskCreateRequest) : TaskRow :=
  ⟨db.nextTask, body.workspaceId, body.title, body.description, "todo".toList, "normal".toList⟩

def newAutomation (now : Time) (db : Database) (body : AutomationCreateRequest) : AutomationRow :=
  ⟨db.nextAutomation, body.workspaceId, strip body.name, strip body.triggerType, strip body.actionType, body.config,
    body.enabled, now⟩

/-- What a call has done when it succeeds, with the tables it leaves. -/
inductive Effect (r : Runtime) (now : Time) (db : Database) : Call → Database → Prop where
  | listWorkspaces (limit offset : Int) : Effect r now db (.listWorkspaces limit offset) db
  | getWorkspace (workspaceId : Int) : Effect r now db (.getWorkspace workspaceId) db
  | listTasks (workspaceId : Int) (status q : Option Str) (limit offset : Int) :
      Effect r now db (.listTasks workspaceId status q limit offset) db
  | listAutomations (workspaceId : Int) (enabled : Option Bool) (limit offset : Int) :
      Effect r now db (.listAutomations workspaceId enabled limit offset) db
  | insertWorkspace (body : WorkspaceCreateRequest) (free : ∀ row ∈ db.workspaces, row.slug ≠ slugOf r body) :
      Effect r now db (.createWorkspace body) { (db.upsertOwner r body).2 with
        workspaces := db.workspaces ++ [⟨db.nextWorkspace, slugOf r body, strip body.name, some (db.upsertOwner r body).1⟩]
        nextWorkspace := db.nextWorkspace + 1 }
  | replaceWorkspace (body : WorkspaceCreateRequest) (row : WorkspaceRow)
      (found : db.workspaces.find? (·.slug = slugOf r body) = some row) :
      Effect r now db (.createWorkspace body) { (db.upsertOwner r body).2 with
        workspaces := db.workspaces.map fun other => if other.slug = slugOf r body then
          { row with name := strip body.name, ownerUserId := some (db.upsertOwner r body).1 } else other }
  | updateWorkspace (workspaceId : Int) (body : WorkspaceUpdateRequest) (row : WorkspaceRow)
      (found : db.workspaces.find? (·.id = workspaceId) = some row)
      (free : ∀ other ∈ db.workspaces, other.id ≠ row.id → other.slug ≠ (body.applied r row).slug)
      (owner : ∀ owner ∈ body.ownerUserId, ∃ user ∈ db.users, user.id = owner) :
      Effect r now db (.updateWorkspace workspaceId body) { db with
        workspaces := db.workspaces.map fun other => if other.id = workspaceId then body.applied r row else other }
  | deleteWorkspace (workspaceId : Int) :
      Effect r now db (.deleteWorkspace workspaceId) { db with
        workspaces := db.workspaces.filter (·.id ≠ workspaceId)
        tasks := db.tasks.filter (·.workspaceId ≠ workspaceId)
        automations := db.automations.filter (·.workspaceId ≠ workspaceId) }
  | createTask (body : TaskCreateRequest) (there : ∃ workspace ∈ db.workspaces, workspace.id = body.workspaceId) :
      Effect r now db (.createTask body) { db with tasks := db.tasks ++ [newTask db body], nextTask := db.nextTask + 1 }
  | updateTask (taskId : Int) (body : TaskUpdateRequest) (row : TaskRow)
      (allowed : (∀ status ∈ body.status, status ∈ allowedStatuses) ∧ ∀ priority ∈ body.priority, priority ∈ allowedPriorities)
      (found : (db.tasks.find? fun row => row.id = taskId ∧ row.workspaceId = body.workspaceId) = some row) :
      Effect r now db (.updateTask taskId body) { db with
        tasks := db.tasks.map fun other => if other.id = taskId ∧ other.workspaceId = body.workspaceId then body.applied row
          else other }
  | deleteTask (taskId workspaceId : Int) :
      Effect r now db (.deleteTask taskId workspaceId) { db with
        tasks := db.tasks.filter fun row => ¬(row.id = taskId ∧ row.workspaceId = workspaceId) }
  | createAutomation (body : AutomationCreateRequest) (there : ∃ workspace ∈ db.workspaces, workspace.id = body.workspaceId)
      (free : ∀ row ∈ db.automations, row.workspaceId = body.workspaceId → row.name ≠ strip body.name) :
      Effect r now db (.createAutomation body)
        { db with automations := db.automations ++ [newAutomation now db body], nextAutomation := db.nextAutomation + 1 }
  | updateAutomation (automationId : Int) (body : AutomationUpdateRequest) (row : AutomationRow)
      (found : (db.automations.find? fun row => row.id = automationId ∧ row.workspaceId = body.workspaceId) = some row)
      (free : ∀ other ∈ db.automations, other.id ≠ row.id → other.workspaceId = row.workspaceId →
        other.name ≠ (body.applied now row).name) :
      Effect r now db (.updateAutomation automationId body) { db with
        automations := db.automations.map fun other =>
          if other.id = automationId ∧ other.workspaceId = body.workspaceId then body.applied now row else other }
  | deleteAutomation (automationId workspaceId : Int) :
      Effect r now db (.deleteAutomation automationId workspaceId) { db with
        automations := db.automations.filter fun row => ¬(row.id = automationId ∧ row.workspaceId = workspaceId) }

section Inversion

variable {r : Runtime} {now : Time} {db : Database} {outcome : Outcome}

theorem validateStatusPriority_ok {status priority : Option Str}
    (valid : validateStatusPriority status priority = .ok ()) :
    (∀ value ∈ status, value ∈ allowedStatuses) ∧ ∀ value ∈ priority, value ∈ allowedPriorities := by
  unfold validateStatusPriority at valid
  split_ifs at valid with unknown unknown'
  constructor
  · rintro value rfl
    simpa using unknown
  · rintro value rfl
    simpa using unknown'

theorem createWorkspace_eq (body : WorkspaceCreateRequest) : db.createWorkspace r body =
    match (db.upsertOwner r body).2.workspaces.find? (·.slug = slugOf r body) with
    | some row => .ok ⟨[], [], [.workspace { row with name := strip body.name, ownerUserId := some (db.upsertOwner r body).1 }],
        [], { (db.upsertOwner r body).2 with
          workspaces := (db.upsertOwner r body).2.workspaces.map fun other => if other.slug = slugOf r body then
            { row with name := strip body.name, ownerUserId := some (db.upsertOwner r body).1 } else other }⟩
    | none => .ok ⟨[], [], [], [], { (db.upsertOwner r body).2 with
        workspaces := (db.upsertOwner r body).2.workspaces ++
          [⟨(db.upsertOwner r body).2.nextWorkspace, slugOf r body, strip body.name, some (db.upsertOwner r body).1⟩]
        nextWorkspace := (db.upsertOwner r body).2.nextWorkspace + 1 }⟩ := rfl

theorem effect_createWorkspace {body : WorkspaceCreateRequest} (done : db.createWorkspace r body = .ok outcome) :
    Effect r now db (.createWorkspace body) outcome.database := by
  have same : (db.upsertOwner r body).2.workspaces = db.workspaces ∧
      (db.upsertOwner r body).2.nextWorkspace = db.nextWorkspace := by
    unfold Database.upsertOwner Database.upsertUser
    split <;> exact ⟨rfl, rfl⟩
  rw [createWorkspace_eq, same.1, same.2] at done
  cases found : db.workspaces.find? (·.slug = slugOf r body) with
  | some row =>
    rw [found] at done
    cases done
    exact .replaceWorkspace body row found
  | none =>
    rw [found] at done
    cases done
    exact .insertWorkspace body (by simpa using found)

theorem effect_updateWorkspace {workspaceId : Int} {body : WorkspaceUpdateRequest}
    (done : db.updateWorkspace r workspaceId body = .ok outcome) :
    Effect r now db (.updateWorkspace workspaceId body) outcome.database := by
  unfold Database.updateWorkspace at done
  dsimp only at done
  split at done
  · cases done
  · split at done
    · cases done
    · rename_i row found
      split at done
      · cases done
      · rename_i free
        split at done
        · cases done
        · rename_i owner
          cases done
          refine .updateWorkspace workspaceId body row found ?_ ?_
          · intro other mem different same
            exact free (List.any_eq_true.mpr ⟨other, mem, decide_eq_true ⟨different, same⟩⟩)
          · intro user given
            rw [Option.mem_def] at given
            rw [given] at owner
            simpa using owner

theorem effect_updateTask {taskId : Int} {body : TaskUpdateRequest} (done : db.updateTask taskId body = .ok outcome) :
    Effect r now db (.updateTask taskId body) outcome.database := by
  unfold Database.updateTask at done
  cases valid : validateStatusPriority body.status body.priority with
  | error e =>
    rw [valid] at done
    cases done
  | ok _ =>
    rw [valid] at done
    simp only [Bind.bind, Except.bind] at done
    split at done
    · cases done
    · split at done
      · cases done
      · rename_i row found
        cases done
        exact .updateTask taskId body row (validateStatusPriority_ok valid) found

theorem effect_updateAutomation {automationId : Int} {body : AutomationUpdateRequest}
    (done : db.updateAutomation now automationId body = .ok outcome) :
    Effect r now db (.updateAutomation automationId body) outcome.database := by
  unfold Database.updateAutomation at done
  split at done
  · cases done
  · split at done
    · cases done
    · rename_i row found
      dsimp only at done
      split at done
      · cases done
      · rename_i free
        cases done
        refine .updateAutomation automationId body row found ?_
        intro other mem different near same
        exact free (List.any_eq_true.mpr ⟨other, mem, decide_eq_true ⟨different, near, same⟩⟩)

theorem effect_of_run {call : Call} (done : db.run r now call = .ok outcome) : Effect r now db call outcome.database := by
  cases call with
  | listWorkspaces limit offset =>
    cases done
    exact .listWorkspaces limit offset
  | createWorkspace body => exact effect_createWorkspace done
  | getWorkspace workspaceId =>
    simp only [Database.run, Database.getWorkspace] at done
    split at done
    · cases done
      exact .getWorkspace workspaceId
    · cases done
  | updateWorkspace workspaceId body => exact effect_updateWorkspace done
  | deleteWorkspace workspaceId =>
    simp only [Database.run, Database.deleteWorkspace] at done
    split at done
    · cases done
    · cases done
      exact .deleteWorkspace workspaceId
  | listTasks workspaceId status q limit offset =>
    simp only [Database.run, Database.listTasks] at done
    cases valid : validateStatusPriority status none with
    | error e =>
      rw [valid] at done
      cases done
    | ok _ =>
      rw [valid] at done
      cases done
      exact .listTasks workspaceId status q limit offset
  | createTask body =>
    simp only [Database.run, Database.createTask] at done
    split at done
    · cases done
    · rename_i there
      cases done
      exact .createTask body (by simpa using there)
  | updateTask taskId body => exact effect_updateTask done
  | deleteTask taskId workspaceId =>
    simp only [Database.run, Database.deleteTask] at done
    split at done
    · cases done
    · cases done
      exact .deleteTask taskId workspaceId
  | listAutomations workspaceId enabled limit offset =>
    cases done
    exact .listAutomations workspaceId enabled limit offset
  | createAutomation body =>
    simp only [Database.run, Database.createAutomation] at done
    split at done
    · cases done
    · rename_i there
      split at done
      · cases done
      · rename_i free
        cases done
        refine .createAutomation body (by simpa using there) ?_
        intro row mem near same
        exact free (List.any_eq_true.mpr ⟨row, mem, decide_eq_true ⟨near, same⟩⟩)
  | updateAutomation automationId body => exact effect_updateAutomation done
  | deleteAutomation automationId workspaceId =>
    simp only [Database.run, Database.deleteAutomation] at done
    split at done
    · cases done
    · cases done
      exact .deleteAutomation automationId workspaceId

end Inversion

end ClaudeProxy.Api

import ClaudeProxy.Api.Handlers

namespace ClaudeProxy.Api

open Kit Providers
open Automation (AutomationRow Time)

def Call.workspaceId : Call → Option Int
  | .listWorkspaces .. | .createWorkspace .. => none
  | .getWorkspace workspaceId | .updateWorkspace workspaceId _ | .deleteWorkspace workspaceId => some workspaceId
  | .listTasks workspaceId .. | .deleteTask _ workspaceId => some workspaceId
  | .listAutomations workspaceId .. | .deleteAutomation _ workspaceId => some workspaceId
  | .createTask body => some body.workspaceId
  | .updateTask _ body => some body.workspaceId
  | .createAutomation body => some body.workspaceId
  | .updateAutomation _ body => some body.workspaceId

namespace Database

variable {r : Runtime} {now : Time} {db : Database}

theorem mem_page {α : Type} {limit offset : Int} {rows : List α} {row : α} (member : row ∈ page limit offset rows) :
    row ∈ rows :=
  List.mem_of_mem_drop (List.mem_of_mem_take member)

theorem mem_byIdDesc {α : Type} {id : α → Int} {rows : List α} {row : α} (member : row ∈ byIdDesc id rows) : row ∈ rows := by
  unfold byIdDesc at member
  rwa [List.mem_insertionSort] at member

/-- Every row that a call touches is of the workspace it selects by. -/
def Within (w : Int) (result : Except HttpError Outcome) : Prop :=
  ∀ outcome, result = .ok outcome → ∀ row ∈ outcome.touched, row.workspaceId = w

theorem within_error (w : Int) (e : HttpError) : Within w (.error e) := by
  intro outcome same
  cases same

theorem within_ok {w : Int} {outcome : Outcome} (all : ∀ row ∈ outcome.touched, row.workspaceId = w) :
    Within w (.ok outcome) := by
  intro other same
  cases same
  exact all

theorem within_returned {w : Int} {row : Row} (own : row.workspaceId = w) : Within w (.ok ⟨[], [row], [], [], db⟩) :=
  within_ok (by simp [Outcome.touched, own])

theorem within_changed {w : Int} {row : Row} (own : row.workspaceId = w) : Within w (.ok ⟨[], [], [row], [], db⟩) :=
  within_ok (by simp [Outcome.touched, own])

theorem within_getWorkspace (w : Int) : Within w (db.getWorkspace w) := by
  unfold getWorkspace
  cases found : db.workspaces.find? (·.id = w) with
  | none => exact within_error _ _
  | some row =>
    have own : row.id = w := by simpa using List.find?_some found
    exact within_returned own

theorem within_updateWorkspace (w : Int) (body : WorkspaceUpdateRequest) : Within w (db.updateWorkspace r w body) := by
  unfold updateWorkspace
  simp only
  split
  · exact within_error _ _
  · cases found : db.workspaces.find? (·.id = w) with
    | none => exact within_error _ _
    | some row =>
      have own : row.id = w := by simpa using List.find?_some found
      simp only
      split
      · exact within_error _ _
      · split
        · exact within_error _ _
        · exact within_changed own

theorem within_deleteWorkspace (w : Int) : Within w (db.deleteWorkspace w) := by
  unfold deleteWorkspace
  cases found : db.workspaces.filter (·.id = w) with
  | nil => exact within_error _ _
  | cons row rest =>
    apply within_ok
    rw [← found]
    simp only [Outcome.touched, List.nil_append, List.mem_append, List.mem_map, List.mem_filter, decide_eq_true_eq]
    rintro _ ((⟨row, ⟨_, own⟩, rfl⟩ | ⟨row, ⟨_, own⟩, rfl⟩) | ⟨row, ⟨_, own⟩, rfl⟩)
    · exact own
    · exact own
    · exact own

theorem within_listTasks (w : Int) (status q : Option Str) (limit offset : Int) :
    Within w (db.listTasks r w status q limit offset) := by
  unfold listTasks
  cases validateStatusPriority status none with
  | error e => exact within_error _ _
  | ok _ =>
    apply within_ok
    intro row member
    simp only [Outcome.touched, List.append_nil, List.mem_map] at member
    obtain ⟨task, shown, rfl⟩ := member
    have filtered := mem_byIdDesc (mem_page shown)
    simp only [matchingTasks, List.mem_filter, Bool.and_eq_true, decide_eq_true_eq] at filtered
    exact filtered.2.1.1

theorem within_createTask (body : TaskCreateRequest) : Within body.workspaceId (db.createTask body) := by
  unfold createTask
  split
  · exact within_error _ _
  · exact within_changed rfl

theorem within_updateTask (taskId : Int) (body : TaskUpdateRequest) :
    Within body.workspaceId (db.updateTask taskId body) := by
  unfold updateTask
  cases validateStatusPriority body.status body.priority with
  | error e => exact within_error _ _
  | ok _ =>
    simp only [Bind.bind, Except.bind]
    split
    · exact within_error _ _
    · cases found : db.tasks.find? fun row => row.id = taskId ∧ row.workspaceId = body.workspaceId with
      | none => exact within_error _ _
      | some row =>
        have own : row.id = taskId ∧ row.workspaceId = body.workspaceId := by simpa using List.find?_some found
        exact within_changed own.2

theorem within_deleteTask (taskId w : Int) : Within w (db.deleteTask taskId w) := by
  unfold deleteTask
  cases found : db.tasks.filter fun row => row.id = taskId ∧ row.workspaceId = w with
  | nil => exact within_error _ _
  | cons row rest =>
    apply within_ok
    rw [← found]
    simp only [Outcome.touched, List.nil_append, List.mem_map, List.mem_filter, decide_eq_true_eq]
    rintro _ ⟨row, ⟨_, _, own⟩, rfl⟩
    exact own

theorem within_listAutomations (w : Int) (enabled : Option Bool) (limit offset : Int) :
    Within w (db.listAutomations w enabled limit offset) := by
  apply within_ok
  intro row member
  simp only [Outcome.touched, List.append_nil, List.mem_map] at member
  obtain ⟨automation, shown, rfl⟩ := member
  have filtered := mem_byIdDesc (mem_page shown)
  simp only [List.mem_filter, decide_eq_true_eq] at filtered
  exact filtered.2.1

theorem within_createAutomation (body : AutomationCreateRequest) :
    Within body.workspaceId (db.createAutomation now body) := by
  unfold createAutomation
  split
  · exact within_error _ _
  · split
    · exact within_error _ _
    · exact within_changed rfl

theorem within_updateAutomation (automationId : Int) (body : AutomationUpdateRequest) :
    Within body.workspaceId (db.updateAutomation now automationId body) := by
  unfold updateAutomation
  split
  · exact within_error _ _
  · cases found : db.automations.find? fun row => row.id = automationId ∧ row.workspaceId = body.workspaceId with
    | none => exact within_error _ _
    | some row =>
      have own : row.id = automationId ∧ row.workspaceId = body.workspaceId := by simpa using List.find?_some found
      simp only
      split
      · exact within_error _ _
      · exact within_changed own.2

theorem within_deleteAutomation (automationId w : Int) : Within w (db.deleteAutomation automationId w) := by
  unfold deleteAutomation
  cases found : db.automations.filter fun row => row.id = automationId ∧ row.workspaceId = w with
  | nil => exact within_error _ _
  | cons row rest =>
    apply within_ok
    rw [← found]
    simp only [Outcome.touched, List.nil_append, List.mem_map, List.mem_filter, decide_eq_true_eq]
    rintro _ ⟨row, ⟨_, _, own⟩, rfl⟩
    exact own

theorem within_run {call : Call} {w : Int} (selects : call.workspaceId = some w) : Within w (db.run r now call) := by
  cases call <;> cases selects
  case getWorkspace => exact within_getWorkspace w
  case updateWorkspace body => exact within_updateWorkspace w body
  case deleteWorkspace => exact within_deleteWorkspace w
  case listTasks status q limit offset => exact within_listTasks w status q limit offset
  case createTask body => exact within_createTask body
  case updateTask taskId body => exact within_updateTask taskId body
  case deleteTask taskId => exact within_deleteTask taskId w
  case listAutomations enabled limit offset => exact within_listAutomations w enabled limit offset
  case createAutomation body => exact within_createAutomation body
  case updateAutomation automationId body => exact within_updateAutomation automationId body
  case deleteAutomation automationId => exact within_deleteAutomation automationId w

theorem workspaceId_of_touched {call : Call} {w : Int} {row : Row} (selects : call.workspaceId = some w)
    (member : row ∈ db.touched r now call) : row.workspaceId = w := by
  unfold touched at member
  cases result : db.run r now call with
  | error e => simp [result] at member
  | ok outcome =>
    rw [result] at member
    exact within_run selects outcome result row member

end Database

end ClaudeProxy.Api

import ClaudeProxy.Api.Integrity

namespace ClaudeProxy.Api

open Kit Providers
open Automation (AutomationRow Time)

def WorkspaceRow.modelDump (row : WorkspaceRow) : Members :=
  [("id".toList, .integer row.id), ("slug".toList, .string row.slug), ("name".toList, .string row.name),
    ("owner_user_id".toList, (row.ownerUserId.map Json.integer).getD .null)]

def TaskRow.modelDump (row : TaskRow) : Members :=
  [("id".toList, .integer row.id), ("workspace_id".toList, .integer row.workspaceId), ("title".toList, .string row.title),
    ("description".toList, (row.description.map Json.string).getD .null), ("status".toList, .string row.status),
    ("priority".toList, .string row.priority)]

/-- `AutomationResponse`, which leaves the time of the last change out. -/
def automationDump (row : AutomationRow) : Members :=
  [("id".toList, .integer row.id), ("workspace_id".toList, .integer row.workspaceId), ("name".toList, .string row.name),
    ("trigger_type".toList, .string row.triggerType), ("action_type".toList, .string row.actionType),
    ("config".toList, .object row.config), ("enabled".toList, .bool row.enabled)]

/-- The arguments of `publish_workspace_event`. -/
structure WorkspaceEvent where
  workspaceId : Int
  eventType : Str
  payload : Members

def workspaceEvent (eventType : String) (row : WorkspaceRow) : WorkspaceEvent := ⟨row.id, eventType.toList, row.modelDump⟩

def taskEvent (eventType : String) (row : TaskRow) : WorkspaceEvent := ⟨row.workspaceId, eventType.toList, row.modelDump⟩

def automationEvent (eventType : String) (row : AutomationRow) : WorkspaceEvent :=
  ⟨row.workspaceId, eventType.toList, automationDump row⟩

def deletedEvent (eventType key : String) (id workspaceId : Int) : WorkspaceEvent :=
  ⟨workspaceId, eventType.toList, [(key.toList, .integer id), ("workspace_id".toList, .integer workspaceId)]⟩

/-- What the function of a route publishes after its transaction, from the row that the statement returns. -/
def Database.eventOf (r : Runtime) (now : Time) (db : Database) : Call → Option WorkspaceEvent
  | .listWorkspaces .. | .getWorkspace .. | .listTasks .. | .listAutomations .. => none
  | .createWorkspace body =>
    let owner := some (db.upsertOwner r body).1
    match db.workspaces.find? (·.slug = slugOf r body) with
    | some row => some (workspaceEvent "workspace.created" { row with name := strip body.name, ownerUserId := owner })
    | none => some (workspaceEvent "workspace.created" ⟨db.nextWorkspace, slugOf r body, strip body.name, owner⟩)
  | .updateWorkspace workspaceId body =>
    (db.workspaces.find? (·.id = workspaceId)).map fun row => workspaceEvent "workspace.updated" (body.applied r row)
  | .deleteWorkspace workspaceId =>
    some ⟨workspaceId, "workspace.deleted".toList, [("workspace_id".toList, .integer workspaceId)]⟩
  | .createTask body => some (taskEvent "task.created" (newTask db body))
  | .updateTask taskId body =>
    (db.tasks.find? fun row => row.id = taskId ∧ row.workspaceId = body.workspaceId).map fun row =>
      taskEvent "task.updated" (body.applied row)
  | .deleteTask taskId workspaceId => some (deletedEvent "task.deleted" "task_id" taskId workspaceId)
  | .createAutomation body => some (automationEvent "automation.created" (newAutomation now db body))
  | .updateAutomation automationId body =>
    (db.automations.find? fun row => row.id = automationId ∧ row.workspaceId = body.workspaceId).map fun row =>
      automationEvent "automation.updated" (body.applied now row)
  | .deleteAutomation automationId workspaceId =>
    some (deletedEvent "automation.deleted" "automation_id" automationId workspaceId)

/-- A workspace as the routes return it: its own entry, and the entries of its tasks and automations. -/
structure WorkspaceView where
  workspace : Option Members
  tasks : List Members
  automations : List Members

def Database.view (db : Database) (workspaceId : Int) : WorkspaceView where
  workspace := (db.workspaces.find? (·.id = workspaceId)).map WorkspaceRow.modelDump
  tasks := (part TaskRow.workspaceId workspaceId db.tasks).map TaskRow.modelDump
  automations := (part AutomationRow.workspaceId workspaceId db.automations).map automationDump

def integerMember (key : String) (members : Members) : Option Int :=
  match Json.getMember key.toList members with
  | some (.integer value) => some value
  | _ => none

def replaceEntry (payload : Members) (entries : List Members) : List Members :=
  entries.map fun entry => if integerMember "id" entry = integerMember "id" payload then payload else entry

def removeEntry (id : Option Int) (entries : List Members) : List Members :=
  entries.filter fun entry => integerMember "id" entry ≠ id

/-- What an event tells of the workspace. -/
inductive Told where
  | workspaceIs (payload : Members)
  | workspaceGone
  | taskAdded (payload : Members)
  | taskIs (payload : Members)
  | taskGone (id : Option Int)
  | automationAdded (payload : Members)
  | automationIs (payload : Members)
  | automationGone (id : Option Int)

def told (eventType : Str) (payload : Members) : Option Told :=
  if eventType = "workspace.created".toList ∨ eventType = "workspace.updated".toList then some (.workspaceIs payload)
  else if eventType = "workspace.deleted".toList then some .workspaceGone
  else if eventType = "task.created".toList then some (.taskAdded payload)
  else if eventType = "task.updated".toList then some (.taskIs payload)
  else if eventType = "task.deleted".toList then some (.taskGone (integerMember "task_id" payload))
  else if eventType = "automation.created".toList then some (.automationAdded payload)
  else if eventType = "automation.updated".toList then some (.automationIs payload)
  else if eventType = "automation.deleted".toList then some (.automationGone (integerMember "automation_id" payload))
  else none

/-- The view of someone who hears of the workspace by its events alone. -/
def WorkspaceView.hear (view : WorkspaceView) : Told → WorkspaceView
  | .workspaceIs payload => { view with workspace := some payload }
  | .workspaceGone => ⟨none, [], []⟩
  | .taskAdded payload => { view with tasks := view.tasks ++ [payload] }
  | .taskIs payload => { view with tasks := replaceEntry payload view.tasks }
  | .taskGone id => { view with tasks := removeEntry id view.tasks }
  | .automationAdded payload => { view with automations := view.automations ++ [payload] }
  | .automationIs payload => { view with automations := replaceEntry payload view.automations }
  | .automationGone id => { view with automations := removeEntry id view.automations }

def WorkspaceView.apply (view : WorkspaceView) (eventType : Str) (payload : Members) : WorkspaceView :=
  ((told eventType payload).map view.hear).getD view

section Entries

variable {ρ : Type} {id : ρ → Int} {dump : ρ → Members}

theorem replaceEntry_map (numbered : ∀ row, integerMember "id" (dump row) = some (id row)) (new : ρ) (rows : List ρ) :
    replaceEntry (dump new) (rows.map dump) = (rows.map fun row => if id row = id new then new else row).map dump := by
  unfold replaceEntry
  rw [List.map_map, List.map_map]
  refine List.map_congr_left fun row _ => ?_
  simp only [Function.comp_apply, numbered, Option.some.injEq]
  split_ifs <;> rfl

theorem removeEntry_map (numbered : ∀ row, integerMember "id" (dump row) = some (id row)) (key : Int) (rows : List ρ) :
    removeEntry (some key) (rows.map dump) = (rows.filter fun row => id row ≠ key).map dump := by
  unfold removeEntry
  rw [List.filter_map]
  congr 1
  refine List.filter_congr fun row _ => ?_
  simp only [Function.comp_apply, numbered, ne_eq, Option.some.injEq]

theorem task_numbered (row : TaskRow) : integerMember "id" row.modelDump = some row.id := rfl

theorem automation_numbered (row : AutomationRow) : integerMember "id" (automationDump row) = some row.id := rfl

theorem replaceEntry_part (numbered : ∀ row, integerMember "id" (dump row) = some (id row)) {home : ρ → Int} {key owner : Int}
    {new : ρ} (same : id new = key) (there : home new = owner) (rows : List ρ) :
    (part home owner (rows.map fun row => if id row = key ∧ home row = owner then new else row)).map dump =
      replaceEntry (dump new) ((part home owner rows).map dump) := by
  rw [part_replace there, if_pos rfl, replaceEntry_map numbered, same]

theorem removeEntry_part (numbered : ∀ row, integerMember "id" (dump row) = some (id row)) {home : ρ → Int} {key owner : Int}
    (rows : List ρ) :
    (part home owner (rows.filter fun row => ¬(id row = key ∧ home row = owner))).map dump =
      removeEntry (some key) ((part home owner rows).map dump) := by
  rw [part_delete, if_pos rfl, removeEntry_map numbered]

end Entries

section Events

variable {r : Runtime} {now : Time} {db later : Database} {call : Call} {w : Int}

/-- The view after an event, if there is one and it is about this workspace. -/
def WorkspaceView.heard (view : WorkspaceView) (w : Int) : Option WorkspaceEvent → WorkspaceView
  | some event => if event.workspaceId = w then view.apply event.eventType event.payload else view
  | none => view

theorem view_createTask (body : TaskCreateRequest) :
    ({ db with tasks := db.tasks ++ [newTask db body], nextTask := db.nextTask + 1 } : Database).view w =
      (db.view w).heard w (some (taskEvent "task.created" (newTask db body))) := by
  unfold Database.view WorkspaceView.heard
  dsimp only
  rw [part_insert]
  by_cases here : (newTask db body).workspaceId = w
  · rw [if_pos here, if_pos (show (taskEvent "task.created" (newTask db body)).workspaceId = w from here), List.map_append]
    rfl
  · rw [if_neg here, if_neg (show ¬(taskEvent "task.created" (newTask db body)).workspaceId = w from here)]

theorem view_createAutomation (body : AutomationCreateRequest) :
    ({ db with automations := db.automations ++ [newAutomation now db body], nextAutomation := db.nextAutomation + 1 } :
      Database).view w = (db.view w).heard w (some (automationEvent "automation.created" (newAutomation now db body))) := by
  unfold Database.view WorkspaceView.heard
  dsimp only
  rw [part_insert]
  by_cases here : (newAutomation now db body).workspaceId = w
  · rw [if_pos here, if_pos (show (automationEvent "automation.created" (newAutomation now db body)).workspaceId = w from here),
      List.map_append]
    rfl
  · rw [if_neg here, if_neg (show ¬(automationEvent "automation.created" (newAutomation now db body)).workspaceId = w from here)]

theorem view_updateTask {taskId place : Int} {new : TaskRow} (same : new.id = taskId) (there : new.workspaceId = place) :
    ({ db with tasks := db.tasks.map fun row => if row.id = taskId ∧ row.workspaceId = place then new else row } :
      Database).view w = (db.view w).heard w (some (taskEvent "task.updated" new)) := by
  unfold Database.view WorkspaceView.heard
  dsimp only
  by_cases here : place = w
  · subst here
    rw [if_pos (show (taskEvent "task.updated" new).workspaceId = place from there),
      replaceEntry_part task_numbered same there]
    rfl
  · rw [if_neg (show ¬(taskEvent "task.updated" new).workspaceId = w from fun same => here (there.symm.trans same)),
      part_replace there, if_neg here]

theorem view_updateAutomation {automationId place : Int} {new : AutomationRow} (same : new.id = automationId)
    (there : new.workspaceId = place) :
    ({ db with automations := db.automations.map fun row =>
      if row.id = automationId ∧ row.workspaceId = place then new else row } : Database).view w =
        (db.view w).heard w (some (automationEvent "automation.updated" new)) := by
  unfold Database.view WorkspaceView.heard
  dsimp only
  by_cases here : place = w
  · subst here
    rw [if_pos (show (automationEvent "automation.updated" new).workspaceId = place from there),
      replaceEntry_part automation_numbered same there]
    rfl
  · rw [if_neg (show ¬(automationEvent "automation.updated" new).workspaceId = w from fun same => here (there.symm.trans same)),
      part_replace there, if_neg here]

theorem view_deleteTask (taskId place : Int) :
    ({ db with tasks := db.tasks.filter fun row => ¬(row.id = taskId ∧ row.workspaceId = place) } : Database).view w =
      (db.view w).heard w (some (deletedEvent "task.deleted" "task_id" taskId place)) := by
  unfold Database.view WorkspaceView.heard
  dsimp only
  by_cases here : place = w
  · subst here
    rw [if_pos (show (deletedEvent "task.deleted" "task_id" taskId place).workspaceId = place from rfl),
      removeEntry_part task_numbered]
    rfl
  · rw [if_neg (show ¬(deletedEvent "task.deleted" "task_id" taskId place).workspaceId = w from here), part_delete,
      if_neg here]

theorem view_deleteAutomation (automationId place : Int) :
    ({ db with automations := db.automations.filter fun row => ¬(row.id = automationId ∧ row.workspaceId = place) } :
      Database).view w =
      (db.view w).heard w (some (deletedEvent "automation.deleted" "automation_id" automationId place)) := by
  unfold Database.view WorkspaceView.heard
  dsimp only
  by_cases here : place = w
  · subst here
    rw [if_pos (show (deletedEvent "automation.deleted" "automation_id" automationId place).workspaceId = place from rfl),
      removeEntry_part automation_numbered]
    rfl
  · rw [if_neg (show ¬(deletedEvent "automation.deleted" "automation_id" automationId place).workspaceId = w from here),
      part_delete, if_neg here]

theorem find?_drop (rows : List WorkspaceRow) (place key : Int) :
    ((rows.filter fun row => row.id ≠ place).find? fun row => row.id = key) =
      if place = key then none else rows.find? fun row => row.id = key := by
  rw [List.find?_filter]
  split_ifs with here
  · subst here
    exact List.find?_eq_none.mpr (by simp)
  · congr 1
    funext row
    by_cases found : row.id = key
    · have apart : row.id ≠ place := fun same => here (same.symm.trans found)
      rw [decide_eq_true found, decide_eq_true apart]
      rfl
    · simp [found]

theorem view_deleteWorkspace (place : Int) :
    ({ db with
      workspaces := db.workspaces.filter (·.id ≠ place)
      tasks := db.tasks.filter (·.workspaceId ≠ place)
      automations := db.automations.filter (·.workspaceId ≠ place) } : Database).view w =
      (db.view w).heard w (some ⟨place, "workspace.deleted".toList, [("workspace_id".toList, .integer place)]⟩) := by
  unfold Database.view WorkspaceView.heard
  dsimp only
  rw [part_drop, part_drop, find?_drop]
  by_cases here : place = w
  · simp only [if_pos here]
    rfl
  · simp only [if_neg here]

/-- A workspace is stored under its id, and nothing else of it changes. -/
theorem view_workspace {eventType : String} {new : WorkspaceRow} (tasks : later.tasks = db.tasks)
    (automations : later.automations = db.automations)
    (stored : ∀ key, (later.workspaces.find? fun row => row.id = key) =
      if new.id = key then some new else db.workspaces.find? fun row => row.id = key)
    (known : eventType.toList = "workspace.created".toList ∨ eventType.toList = "workspace.updated".toList) :
    later.view w = (db.view w).heard w (some (workspaceEvent eventType new)) := by
  have tells : told (workspaceEvent eventType new).eventType (workspaceEvent eventType new).payload =
      some (.workspaceIs new.modelDump) := if_pos known
  unfold Database.view WorkspaceView.heard
  rw [tasks, automations, stored]
  by_cases here : new.id = w
  · simp only [if_pos here, if_pos (show (workspaceEvent eventType new).workspaceId = w from here), WorkspaceView.apply, tells]
    rfl
  · simp only [if_neg here, if_neg (show ¬(workspaceEvent eventType new).workspaceId = w from here)]

theorem tables_upsertOwner (r : Runtime) (db : Database) (body : WorkspaceCreateRequest) :
    (db.upsertOwner r body).2.tasks = db.tasks ∧ (db.upsertOwner r body).2.automations = db.automations := by
  rcases upsertOwner_cases r db body with ⟨user, -, same⟩ | ⟨-, same⟩
  · rw [same]
    exact ⟨rfl, rfl⟩
  · rw [same]
    exact ⟨rfl, rfl⟩

/-- What a call changes of a workspace its event tells. -/
theorem view_of_effect (sound : db.Sound) (effect : Effect r now db call later) :
    later.view w = (db.view w).heard w (db.eventOf r now call) := by
  cases effect with
  | listWorkspaces | getWorkspace | listTasks | listAutomations => rfl
  | insertWorkspace body free =>
    have none : db.workspaces.find? (·.slug = slugOf r body) = none := by simpa using free
    have event : db.eventOf r now (.createWorkspace body) = some (workspaceEvent "workspace.created"
        ⟨db.nextWorkspace, slugOf r body, strip body.name, some (db.upsertOwner r body).1⟩) := by
      simp only [Database.eventOf, none]
    rw [event]
    refine view_workspace (tables_upsertOwner r db body).1 (tables_upsertOwner r db body).2 (fun key => ?_) (.inl rfl)
    rw [List.find?_append, List.find?_singleton]
    by_cases mine : db.nextWorkspace = key
    · have fresh : (db.workspaces.find? fun row => row.id = key) = Option.none := by
        refine List.find?_eq_none.mpr fun row mem same => ?_
        have less : row.id < db.nextWorkspace := sound.workspaces_serial.ahead row mem
        exact absurd ((of_decide_eq_true same).trans mine.symm) (Int.ne_of_lt less)
      rw [fresh, if_pos (decide_eq_true mine), if_pos mine]
      rfl
    · rw [if_neg (by simpa using mine), if_neg mine]
      exact Option.or_none
  | replaceWorkspace body row found =>
    have event : db.eventOf r now (.createWorkspace body) = some (workspaceEvent "workspace.created"
        { row with name := strip body.name, ownerUserId := some (db.upsertOwner r body).1 }) := by
      simp only [Database.eventOf, found]
    obtain ⟨mem, same⟩ := find?_id found
    have slug : row.slug = slugOf r body := of_decide_eq_true same
    rw [event]
    refine view_workspace (tables_upsertOwner r db body).1 (tables_upsertOwner r db body).2 (fun key => ?_) (.inl rfl)
    refine find?_replace (fun other there => ?_) ⟨row, mem, slug⟩ key
    constructor
    · intro near
      rw [List.inj_on_of_nodup_map sound.slugs there mem (near.trans slug.symm)]
    · intro near
      rw [sound.workspaces_serial.eq_of_id there mem near]
      exact slug
  | updateWorkspace workspaceId body row found free owner =>
    obtain ⟨mem, same⟩ := find?_id found
    have mine : row.id = workspaceId := of_decide_eq_true same
    have event : db.eventOf r now (.updateWorkspace workspaceId body) =
        some (workspaceEvent "workspace.updated" (body.applied r row)) := by
      simp only [Database.eventOf, found, Option.map_some]
    rw [event]
    refine view_workspace rfl rfl (fun key => ?_) (.inr rfl)
    refine find?_replace (fun other there => ?_) ⟨row, mem, mine⟩ key
    rw [← mine]
    rfl
  | deleteWorkspace workspaceId => exact view_deleteWorkspace workspaceId
  | createTask body there => exact view_createTask body
  | updateTask taskId body row allowed found =>
    have here := of_decide_eq_true (find?_id found).2
    have event : db.eventOf r now (.updateTask taskId body) = some (taskEvent "task.updated" (body.applied row)) := by
      simp only [Database.eventOf, found, Option.map_some]
    rw [event]
    exact view_updateTask here.1 here.2
  | deleteTask taskId workspaceId => exact view_deleteTask taskId workspaceId
  | createAutomation body there free => exact view_createAutomation body
  | updateAutomation automationId body row found free =>
    have here := of_decide_eq_true (find?_id found).2
    have event : db.eventOf r now (.updateAutomation automationId body) =
        some (automationEvent "automation.updated" (body.applied now row)) := by
      simp only [Database.eventOf, found, Option.map_some]
    rw [event]
    exact view_updateAutomation here.1 here.2
  | deleteAutomation automationId workspaceId => exact view_deleteAutomation automationId workspaceId

end Events

end ClaudeProxy.Api

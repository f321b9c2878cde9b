import ClaudeProxy.Api.Schemas

namespace ClaudeProxy.Api

open Kit Providers

variable {r : Runtime} {req : Request} {call : Call}

def Call.method : Call → Str
  | .listWorkspaces .. | .getWorkspace .. | .listTasks .. | .listAutomations .. => "GET".toList
  | .createWorkspace .. | .createTask .. | .createAutomation .. => "POST".toList
  | .updateWorkspace .. | .updateTask .. | .updateAutomation .. => "PATCH".toList
  | .deleteWorkspace .. | .deleteTask .. | .deleteAutomation .. => "DELETE".toList

def FromPath (r : Runtime) (req : Request) (workspaceId : Int) : Prop :=
  ∃ text, itemParam workspacesPath req.path = some text ∧ r.intOfText text = some workspaceId

def Request.isRowsPath (req : Request) : Prop :=
  (tasksPath.isPrefixOf req.path || automationsPath.isPrefixOf req.path) = true

def FromQuery (r : Runtime) (req : Request) (workspaceId : Int) : Prop :=
  req.isRowsPath ∧ ∃ text, req.queryParam "workspace_id" = some text ∧ r.intOfText text = some workspaceId

def FromBody (r : Runtime) (req : Request) (workspaceId : Int) : Prop :=
  req.isRowsPath ∧ ∃ members, req.json r = some members ∧ workspaceIdField r members = some workspaceId

/-- Where a route takes the workspace of its call from. -/
def Routed (r : Runtime) (req : Request) : Call → Prop
  | .listWorkspaces .. | .createWorkspace .. => isCollection workspacesPath req.path = true
  | .getWorkspace id | .updateWorkspace id _ | .deleteWorkspace id => FromPath r req id
  | .listTasks id .. | .deleteTask _ id | .listAutomations id .. | .deleteAutomation _ id => FromQuery r req id
  | .createTask body => FromBody r req body.workspaceId
  | .updateTask _ body => FromBody r req body.workspaceId
  | .createAutomation body => FromBody r req body.workspaceId
  | .updateAutomation _ body => FromBody r req body.workspaceId

theorem query_of_intQuery {key : String} {value : Int} (given : intQuery r req key none = some value) :
    ∃ text, req.queryParam key = some text ∧ r.intOfText text = some value := by
  unfold intQuery at given
  cases query : req.queryParam key with
  | none => simp [query] at given
  | some text =>
    rw [query] at given
    exact ⟨text, rfl, given⟩

theorem TaskCreateRequest.workspaceId_of_parse {members : Members} {body : TaskCreateRequest}
    (parsed : TaskCreateRequest.parse r members = some body) : workspaceIdField r members = some body.workspaceId := by
  simp only [TaskCreateRequest.parse, Option.bind_eq_bind, Option.bind_eq_some_iff, Option.pure_def] at parsed
  obtain ⟨title, _, description, _, workspaceId, field, same⟩ := parsed
  cases same
  exact field

theorem TaskUpdateRequest.workspaceId_of_parse {members : Members} {body : TaskUpdateRequest}
    (parsed : TaskUpdateRequest.parse r members = some body) : workspaceIdField r members = some body.workspaceId := by
  simp only [TaskUpdateRequest.parse, Option.bind_eq_bind, Option.bind_eq_some_iff, Option.pure_def] at parsed
  obtain ⟨workspaceId, field, title, _, description, _, status, _, priority, _, same⟩ := parsed
  cases same
  exact field

theorem AutomationCreateRequest.workspaceId_of_parse {members : Members} {body : AutomationCreateRequest}
    (parsed : AutomationCreateRequest.parse r members = some body) : workspaceIdField r members = some body.workspaceId := by
  simp only [AutomationCreateRequest.parse, Option.bind_eq_bind, Option.bind_eq_some_iff, Option.pure_def] at parsed
  obtain ⟨workspaceId, field, name, _, triggerType, _, actionType, _, config, _, enabled, _, same⟩ := parsed
  cases same
  exact field

theorem AutomationUpdateRequest.workspaceId_of_parse {members : Members} {body : AutomationUpdateRequest}
    (parsed : AutomationUpdateRequest.parse r members = some body) : workspaceIdField r members = some body.workspaceId := by
  simp only [AutomationUpdateRequest.parse, Option.bind_eq_bind, Option.bind_eq_some_iff, Option.pure_def] at parsed
  obtain ⟨workspaceId, field, name, _, triggerType, _, actionType, _, config, _, enabled, _, same⟩ := parsed
  cases same
  exact field

theorem isPrefixOf_of_isCollection {base path : Str} (collection : isCollection base path = true) :
    base.isPrefixOf path = true := by
  simp only [isCollection, Bool.or_eq_true, decide_eq_true_eq] at collection
  rw [List.isPrefixOf_iff_prefix]
  rcases collection with same | same
  · exact same ▸ List.prefix_rfl
  · exact same ▸ List.prefix_append _ _

theorem childOf_of_itemParam {base path text : Str} (param : itemParam base path = some text) :
    childOf base path = some text :=
  (Option.filter_eq_some_iff.mp param).1

theorem path_of_childOf {base path rest : Str} (child : childOf base path = some rest) : path = base ++ '/' :: rest := by
  unfold childOf at child
  split at child
  · rename_i inside
    obtain ⟨tail, same⟩ := List.isPrefixOf_iff_prefix.mp inside
    rw [← same] at child ⊢
    simp at child
    simp [child]
  · cases child

theorem isPrefixOf_of_itemParam {base path text : Str} (param : itemParam base path = some text) :
    base.isPrefixOf path = true := by
  rw [List.isPrefixOf_iff_prefix, path_of_childOf (childOf_of_itemParam param)]
  exact List.prefix_append _ _

theorem routed_of_workspaceRoute (routed : workspaceRoute r req = some call) :
    req.method = call.method ∧ Routed r req call := by
  unfold workspaceRoute at routed
  split at routed
  · rename_i collection
    split at routed
    · rename_i get
      simp only [Option.bind_eq_bind, Option.bind_eq_some_iff, Option.pure_def] at routed
      obtain ⟨limit, _, offset, _, same⟩ := routed
      cases same
      exact ⟨get, collection⟩
    · split at routed
      · rename_i post
        obtain ⟨body, _, rfl⟩ := Option.map_eq_some_iff.mp routed
        exact ⟨post, collection⟩
      · cases routed
  · simp only [Option.bind_eq_bind, Option.bind_eq_some_iff] at routed
    obtain ⟨id, ⟨text, param, int⟩, routed⟩ := routed
    split at routed
    · rename_i get
      cases routed
      exact ⟨get, text, param, int⟩
    · split at routed
      · rename_i patch
        obtain ⟨body, _, rfl⟩ := Option.map_eq_some_iff.mp routed
        exact ⟨patch, text, param, int⟩
      · split at routed
        · rename_i delete
          cases routed
          exact ⟨delete, text, param, int⟩
        · cases routed

theorem routed_of_taskRoute (routed : taskRoute r req = some call) : req.method = call.method ∧ Routed r req call := by
  unfold taskRoute at routed
  split at routed
  · rename_i collection
    have rows : req.isRowsPath := by
      rw [Request.isRowsPath, isPrefixOf_of_isCollection collection, Bool.true_or]
    split at routed
    · rename_i get
      simp only [Option.bind_eq_bind, Option.bind_eq_some_iff, Option.pure_def] at routed
      obtain ⟨workspaceId, query, limit, _, offset, _, same⟩ := routed
      cases same
      exact ⟨get, rows, query_of_intQuery query⟩
    · split at routed
      · rename_i post
        obtain ⟨body, parsed, rfl⟩ := Option.map_eq_some_iff.mp routed
        obtain ⟨members, payload, parsed⟩ := Option.bind_eq_some_iff.mp parsed
        exact ⟨post, rows, members, payload, TaskCreateRequest.workspaceId_of_parse parsed⟩
      · cases routed
  · simp only [Option.bind_eq_bind, Option.bind_eq_some_iff] at routed
    obtain ⟨id, ⟨text, param, -⟩, routed⟩ := routed
    have rows : req.isRowsPath := by
      rw [Request.isRowsPath, isPrefixOf_of_itemParam param, Bool.true_or]
    split at routed
    · rename_i patch
      obtain ⟨body, parsed, rfl⟩ := Option.map_eq_some_iff.mp routed
      obtain ⟨members, payload, parsed⟩ := Option.bind_eq_some_iff.mp parsed
      exact ⟨patch, rows, members, payload, TaskUpdateRequest.workspaceId_of_parse parsed⟩
    · split at routed
      · rename_i delete
        obtain ⟨workspaceId, query, rfl⟩ := Option.map_eq_some_iff.mp routed
        exact ⟨delete, rows, query_of_intQuery query⟩
      · cases routed

theorem routed_of_automationRoute (routed : automationRoute r req = some call) : req.method = call.method ∧
    Routed r req call := by
  unfold automationRoute at routed
  split at routed
  · rename_i collection
    have rows : req.isRowsPath := by
      rw [Request.isRowsPath, isPrefixOf_of_isCollection collection, Bool.or_true]
    split at routed
    · rename_i get
      simp only [Option.bind_eq_bind, Option.bind_eq_some_iff, Option.pure_def] at routed
      obtain ⟨workspaceId, query, enabled, _, limit, _, offset, _, same⟩ := routed
      cases same
      exact ⟨get, rows, query_of_intQuery query⟩
    · split at routed
      · rename_i post
        obtain ⟨body, parsed, rfl⟩ := Option.map_eq_some_iff.mp routed
        obtain ⟨members, payload, parsed⟩ := Option.bind_eq_some_iff.mp parsed
        exact ⟨post, rows, members, payload, AutomationCreateRequest.workspaceId_of_parse parsed⟩
      · cases routed
  · simp only [Option.bind_eq_bind, Option.bind_eq_some_iff] at routed
    obtain ⟨id, ⟨text, param, -⟩, routed⟩ := routed
    have rows : req.isRowsPath := by
      rw [Request.isRowsPath, isPrefixOf_of_itemParam param, Bool.or_true]
    split at routed
    · rename_i patch
      obtain ⟨body, parsed, rfl⟩ := Option.map_eq_some_iff.mp routed
      obtain ⟨members, payload, parsed⟩ := Option.bind_eq_some_iff.mp parsed
      exact ⟨patch, rows, members, payload, AutomationUpdateRequest.workspaceId_of_parse parsed⟩
    · split at routed
      · rename_i delete
        obtain ⟨workspaceId, query, rfl⟩ := Option.map_eq_some_iff.mp routed
        exact ⟨delete, rows, query_of_intQuery query⟩
      · cases routed

theorem routed_of_route (routed : route r req = some call) : req.method = call.method ∧ Routed r req call := by
  simp only [route, Option.or_eq_some_iff] at routed
  rcases routed with (workspace | ⟨-, task⟩) | ⟨-, automation⟩
  · exact routed_of_workspaceRoute workspace
  · exact routed_of_taskRoute task
  · exact routed_of_automationRoute automation

end ClaudeProxy.Api

import ClaudeProxy.Api.Rbac

namespace ClaudeProxy.Api

open Kit Providers

/-- The bounds of `Field(min_length=.., max_length=..)`. -/
structure TextBounds where
  min : Nat
  max : Nat

def TextBounds.accepts (bounds : TextBounds) (text : Str) : Bool := bounds.min ≤ text.length && text.length ≤ bounds.max

def requiredText (members : Members) (key : String) (bounds : TextBounds) : Option Str :=
  match Json.getMember key.toList members with
  | some (.string text) => if bounds.accepts text then some text else none
  | _ => none

/-- A field of type `str | None` with default None. The outer option tells whether the body is accepted. -/
def optionalText (members : Members) (key : String) (bounds : Option TextBounds) : Option (Option Str) :=
  match Json.getMember key.toList members with
  | none | some .null => some none
  | some (.string text) => if bounds.all (·.accepts text) then some (some text) else none
  | some _ => none

def atLeastOne (value : Option Int) : Option Int := value.filter (1 ≤ ·)

/-- `workspace_id: int = Field(ge=1)` -/
def workspaceIdField (r : Runtime) (members : Members) : Option Int :=
  (Json.getMember "workspace_id".toList members).bind fun value => atLeastOne (r.intOfJson value)

structure TaskCreateRequest where
  title : Str
  description : Option Str
  workspaceId : Int

structure TaskUpdateRequest where
  workspaceId : Int
  title : Option Str
  description : Option Str
  status : Option Str
  priority : Option Str

structure AutomationCreateRequest where
  workspaceId : Int
  name : Str
  triggerType : Str
  actionType : Str
  config : Members
  enabled : Bool

structure AutomationUpdateRequest where
  workspaceId : Int
  name : Option Str
  triggerType : Option Str
  actionType : Option Str
  config : Option Members
  enabled : Option Bool

structure WorkspaceCreateRequest where
  slug : Str
  name : Str
  ownerEmail : Str
  ownerDisplayName : Str

structure WorkspaceUpdateRequest where
  slug : Option Str
  name : Option Str
  ownerUserId : Option Int

def TaskCreateRequest.parse (r : Runtime) (members : Members) : Option TaskCreateRequest := do
  let title ← requiredText members "title" ⟨1, 300⟩
  let description ← optionalText members "description" none
  let workspaceId ← workspaceIdField r members
  return ⟨title, description, workspaceId⟩

def TaskUpdateRequest.parse (r : Runtime) (members : Members) : Option TaskUpdateRequest := do
  let workspaceId ← workspaceIdField r members
  let title ← optionalText members "title" (some ⟨1, 300⟩)
  let description ← optionalText members "description" none
  let status ← optionalText members "status" none
  let priority ← optionalText members "priority" none
  return ⟨workspaceId, title, description, status, priority⟩

def configField (members : Members) : Option (Option Members) :=
  match Json.getMember "config".toList members with
  | none => some none
  | some (.object config) => some (some config)
  | some _ => none

/-- A field of type `dict | None` or `bool | None`, where null counts as absent. -/
def withoutNull (key : String) (members : Members) : Members :=
  members.filter fun member => !(member.1 = key.toList && match member.2 with | .null => true | _ => false)

def enabledField (r : Runtime) (members : Members) : Option (Option Bool) :=
  match Json.getMember "enabled".toList members with
  | none => some none
  | some value => (r.boolOfJson value).map some

def AutomationCreateRequest.parse (r : Runtime) (members : Members) : Option AutomationCreateRequest := do
  let workspaceId ← workspaceIdField r members
  let name ← requiredText members "name" ⟨1, 200⟩
  let triggerType ← requiredText members "trigger_type" ⟨1, 100⟩
  let actionType ← requiredText members "action_type" ⟨1, 100⟩
  let config ← configField members
  let enabled ← enabledField r members
  return ⟨workspaceId, name, triggerType, actionType, config.getD [], enabled.getD true⟩

def AutomationUpdateRequest.parse (r : Runtime) (members : Members) : Option AutomationUpdateRequest := do
  let workspaceId ← workspaceIdField r members
  let name ← optionalText members "name" (some ⟨1, 200⟩)
  let triggerType ← optionalText members "trigger_type" (some ⟨1, 100⟩)
  let actionType ← optionalText members "action_type" (some ⟨1, 100⟩)
  let config ← configField (withoutNull "config" members)
  let enabled ← enabledField r (withoutNull "enabled" members)
  return ⟨workspaceId, name, triggerType, actionType, config, enabled⟩

def WorkspaceCreateRequest.parse (members : Members) : Option WorkspaceCreateRequest := do
  let slug ← requiredText members "slug" ⟨3, 100⟩
  let name ← requiredText members "name" ⟨1, 200⟩
  let ownerEmail ← requiredText members "owner_email" ⟨3, 255⟩
  let ownerDisplayName ← requiredText members "owner_display_name" ⟨1, 200⟩
  return ⟨slug, name, ownerEmail, ownerDisplayName⟩

def ownerUserIdField (r : Runtime) (members : Members) : Option (Option Int) :=
  match Json.getMember "owner_user_id".toList members with
  | none | some .null => some none
  | some value => (atLeastOne (r.intOfJson value)).map some

def WorkspaceUpdateRequest.parse (r : Runtime) (members : Members) : Option WorkspaceUpdateRequest := do
  let slug ← optionalText members "slug" (some ⟨3, 100⟩)
  let name ← optionalText members "name" (some ⟨1, 200⟩)
  let ownerUserId ← ownerUserIdField r members
  return ⟨slug, name, ownerUserId⟩

/-- A request as its route's function receives it. -/
inductive Call where
  | listWorkspaces (limit offset : Int)
  | createWorkspace (body : WorkspaceCreateRequest)
  | getWorkspace (workspaceId : Int)
  | updateWorkspace (workspaceId : Int) (body : WorkspaceUpdateRequest)
  | deleteWorkspace (workspaceId : Int)
  | listTasks (workspaceId : Int) (status q : Option Str) (limit offset : Int)
  | createTask (body : TaskCreateRequest)
  | updateTask (taskId : Int) (body : TaskUpdateRequest)
  | deleteTask (taskId workspaceId : Int)
  | listAutomations (workspaceId : Int) (enabled : Option Bool) (limit offset : Int)
  | createAutomation (body : AutomationCreateRequest)
  | updateAutomation (automationId : Int) (body : AutomationUpdateRequest)
  | deleteAutomation (automationId workspaceId : Int)

def intQuery (r : Runtime) (req : Request) (key : String) (default : Option Int) : Option Int :=
  match req.queryParam key with
  | none => default
  | some text => r.intOfText text

def boolQuery (r : Runtime) (req : Request) (key : String) : Option (Option Bool) :=
  match req.queryParam key with
  | none => some none
  | some text => (r.boolOfText text).map some

/-- The path pattern of a collection also matches before a newline at the end. -/
def isCollection (base path : Str) : Bool := path = base || path = base ++ ['\n']

/-- The parameter of an item's path, which has no slash. -/
def itemParam (base path : Str) : Option Str := (childOf base path).filter fun rest => rest ≠ [] ∧ '/' ∉ rest

def workspaceRoute (r : Runtime) (req : Request) : Option Call :=
  if isCollection workspacesPath req.path then
    if req.method = "GET".toList then do
      let limit ← intQuery r req "limit" (some 100)
      let offset ← intQuery r req "offset" (some 0)
      return .listWorkspaces limit offset
    else if req.method = "POST".toList then
      ((req.json r).bind WorkspaceCreateRequest.parse).map .createWorkspace
    else none
  else do
    let workspaceId ← (itemParam workspacesPath req.path).bind r.intOfText
    if req.method = "GET".toList then return .getWorkspace workspaceId
    else if req.method = "PATCH".toList then
      ((req.json r).bind (WorkspaceUpdateRequest.parse r)).map (.updateWorkspace workspaceId)
    else if req.method = "DELETE".toList then return .deleteWorkspace workspaceId
    else none

def taskRoute (r : Runtime) (req : Request) : Option Call :=
  if isCollection tasksPath req.path then
    if req.method = "GET".toList then do
      let workspaceId ← intQuery r req "workspace_id" none
      let limit ← intQuery r req "limit" (some 50)
      let offset ← intQuery r req "offset" (some 0)
      return .listTasks workspaceId (req.queryParam "status") (req.queryParam "q") limit offset
    else if req.method = "POST".toList then
      ((req.json r).bind (TaskCreateRequest.parse r)).map .createTask
    else none
  else do
    let taskId ← (itemParam tasksPath req.path).bind r.intOfText
    if req.method = "PATCH".toList then
      ((req.json r).bind (TaskUpdateRequest.parse r)).map (.updateTask taskId)
    else if req.method = "DELETE".toList then
      (intQuery r req "workspace_id" none).map (.deleteTask taskId)
    else none

def automationRoute (r : Runtime) (req : Request) : Option Call :=
  if isCollection automationsPath req.path then
    if req.method = "GET".toList then do
      let workspaceId ← intQuery r req "workspace_id" none
      let enabled ← boolQuery r req "enabled"
      let limit ← intQuery r req "limit" (some 50)
      let offset ← intQuery r req "offset" (some 0)
      return .listAutomations workspaceId enabled limit offset
    else if req.method = "POST".toList then
      ((req.json r).bind (AutomationCreateRequest.parse r)).map .createAutomation
    else none
  else do
    let automationId ← (itemParam automationsPath req.path).bind r.intOfText
    if req.method = "PATCH".toList then
      ((req.json r).bind (AutomationUpdateRequest.parse r)).map (.updateAutomation automationId)
    else if req.method = "DELETE".toList then
      (intQuery r req "workspace_id" none).map (.deleteAutomation automationId)
    else none

/-- The call of the workspace, task and automation routes that a request leads to, if any. -/
def route (r : Runtime) (req : Request) : Option Call :=
  ((workspaceRoute r req).or (taskRoute r req)).or (automationRoute r req)

end ClaudeProxy.Api

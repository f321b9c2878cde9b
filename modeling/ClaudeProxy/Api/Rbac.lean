import ClaudeProxy.Kit.Digits
import ClaudeProxy.Kit.Json
import ClaudeProxy.Providers.HeuristicToolParser

namespace ClaudeProxy.Api

open Kit Providers

abbrev Bytes := List UInt8

abbrev Members := List (Str × Json)

/-- What the routes rely on beyond the source: Python's text functions, the decoding and the validators of the web
framework and the matching of the database. A validator that accepts a value gives the number `int` gives, where `int`
accepts it too. -/
structure Runtime where
  /-- `json.loads` of the bytes decoded as strict UTF-8, which also refuses a byte order mark. -/
  strictLoads : Bytes → Option Json
  /-- The framework's decoding under a content type: `json.loads` of the bytes themselves, which finds out their encoding. -/
  bodyLoads : Option Str → Bytes → Option Json
  lower : Str → Str
  /-- `int` of a float, by its literal. -/
  truncate : Str → Option Int
  ilike : Str → Str → Bool
  intOfText : Str → Option Int
  intOfJson : Json → Option Int
  boolOfText : Str → Option Bool
  boolOfJson : Json → Option Bool
  empty_refused : intOfText [] = none
  null_refused : intOfJson .null = none
  text_agrees : ∀ text n m, intOfText text = some n → int? text = some m → n = m
  string_agrees : ∀ text n m, intOfJson (.string text) = some n → int? text = some m → n = m
  integer_agrees : ∀ value n, intOfJson (.integer value) = some n → n = value
  bool_agrees : ∀ value n, intOfJson (.bool value) = some n → n = if value then 1 else 0
  number_agrees : ∀ literal n m, intOfJson (.number literal) = some n → truncate literal = some m → n = m

structure Request where
  method : Str
  path : Str
  query : List (Str × Str)
  userRole : Option Str
  workspaceId : Option Str
  contentType : Option Str
  body : Bytes

/-- `request.query_params.get`; the last value counts. -/
def Request.queryParam (req : Request) (key : String) : Option Str :=
  (req.query.reverse.find? fun item => item.1 = key.toList).map Prod.snd

/-- How a request is refused. An exception that is no `HTTPException` leaves the middleware. -/
inductive Denial where
  | http (statusCode : Nat) (detail : String)
  | raised
deriving DecidableEq

def readRoles : List Str := ["viewer".toList, "member".toList, "admin".toList, "owner".toList]

def writeRoles : List Str := ["member".toList, "admin".toList, "owner".toList]

def adminRoles : List Str := ["admin".toList, "owner".toList]

def tasksPath : Str := "/api/v1/tasks".toList

def automationsPath : Str := "/api/v1/automations".toList

def workspacesPath : Str := "/api/v1/workspaces".toList

/-- `int` of a text. -/
def pyInt (text : Str) : Option Int := int? text

/-- `int` of a decoded value. -/
def pyIntOfJson (r : Runtime) : Json → Option Int
  | .integer value => some value
  | .bool value => some (if value then 1 else 0)
  | .number literal => r.truncate literal
  | .string text => pyInt text
  | _ => none

def isDecimals (text : Str) : Bool := !text.isEmpty && text.all fun c => (decimal? c).isSome

/-- What follows `base` and a slash. -/
def childOf (base path : Str) : Option Str :=
  if (base ++ ['/']).isPrefixOf path then some (path.drop (base.length + 1)) else none

/-- The group of `^/api/v1/workspaces/(\d+)$`, where `$` also matches before a newline at the end. -/
def workspacePathDigits (path : Str) : Option Str :=
  (childOf workspacesPath path).bind fun rest =>
    if isDecimals rest then some rest
    else if rest.getLast? = some '\n' ∧ isDecimals rest.dropLast then some rest.dropLast
    else none

def extractWorkspaceFromPath (path : Str) : Except Denial (Option Int) :=
  match workspacePathDigits path with
  | none => .ok none
  | some digits =>
    match pyInt digits with
    | some workspaceId => .ok (some workspaceId)
    | none => .error .raised

def extractWorkspaceFromPayload (r : Runtime) (payload : Option Members) : Except Denial (Option Int) :=
  match payload with
  | none | some [] => .ok none
  | some members =>
    match Json.get members "workspace_id" .null with
    | .null => .ok none
    | value =>
      match pyIntOfJson r value with
      | some workspaceId => .ok (some workspaceId)
      | none => .error .raised

def resolvePolicy (path method : Str) : Option (List Str) × Bool :=
  let normalized := method.map Char.toUpper
  let isRead := normalized = "GET".toList
  let isWrite := normalized ∈ ["POST".toList, "PATCH".toList, "DELETE".toList]
  let workspaceRows := tasksPath.isPrefixOf path || automationsPath.isPrefixOf path
  let users := "/api/v1/users".toList.isPrefixOf path
  if workspaceRows ∧ isRead then (some readRoles, true)
  else if workspaceRows ∧ isWrite then (some writeRoles, true)
  else if users ∧ isRead then (some readRoles, false)
  else if users ∧ isWrite then (some adminRoles, false)
  else if path = workspacesPath ∧ isRead then (some readRoles, false)
  else if path = workspacesPath ∧ normalized = "POST".toList then (some adminRoles, false)
  else if (workspacePathDigits path).isSome ∧ normalized = "DELETE".toList then (some adminRoles, true)
  else (none, false)

def Request.role (r : Runtime) (req : Request) : Str := r.lower (strip (req.userRole.getD []))

def parseRole (r : Runtime) (req : Request) (allowedRoles : List Str) : Except Denial Unit :=
  let role := req.role r
  if role = [] then .error (.http 401 "missing x-user-role header")
  else if role ∉ allowedRoles then .error (.http 403 "insufficient role")
  else .ok ()

def parseWorkspaceScope (req : Request) : Option Int → Except Denial Unit
  | none => .ok ()
  | some requestedWorkspaceId =>
    let scopeHeader := strip (req.workspaceId.getD [])
    if scopeHeader = [] then .error (.http 401 "missing x-workspace-id header")
    else
      match pyInt scopeHeader with
      | none => .error (.http 422 "invalid x-workspace-id header")
      | some scopedWorkspaceId =>
        if scopedWorkspaceId ≠ requestedWorkspaceId then .error (.http 403 "workspace scope mismatch") else .ok ()

def membersOf : Option Json → Option Members
  | some (.object members) => some members
  | _ => none

/-- What the guard reads of the body. Whatever it cannot decode is no body to it. -/
def Request.payload (r : Runtime) (req : Request) : Option Members :=
  if req.body = [] then none else membersOf (r.strictLoads req.body)

/-- What the framework passes to the validation of a route's body. -/
def Request.json (r : Runtime) (req : Request) : Option Members :=
  if req.body = [] then none else membersOf (r.bodyLoads req.contentType req.body)

/-- The first of body, query and path that gives something true; a zero in the body does not. -/
def requestedWorkspaceId (r : Runtime) (req : Request) : Except Denial (Option Int) :=
  match extractWorkspaceFromPayload r (req.payload r) with
  | .error e => .error e
  | .ok fromPayload =>
    if fromPayload.any (· ≠ 0) then .ok fromPayload
    else
      match req.queryParam "workspace_id" with
      | some (c :: rest) =>
        match pyInt (c :: rest) with
        | some workspaceId => .ok (some workspaceId)
        | none => .error (.http 422 "invalid workspace_id")
      | _ => extractWorkspaceFromPath req.path

def enforceRbac (r : Runtime) (enabled : Bool) (req : Request) : Except Denial Unit :=
  if enabled then
    match resolvePolicy req.path req.method with
    | (none, _) => .ok ()
    | (some allowedRoles, requiresWorkspaceScope) => do
      parseRole r req allowedRoles
      let requested ← if requiresWorkspaceScope then requestedWorkspaceId r req else .ok none
      parseWorkspaceScope req requested
  else .ok ()

end ClaudeProxy.Api

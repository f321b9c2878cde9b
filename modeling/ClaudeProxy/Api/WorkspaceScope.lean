import ClaudeProxy.Api.Routing
import ClaudeProxy.Api.Touched
import ClaudeProxy.Kit.JsonText

namespace ClaudeProxy.Api

open Kit Providers
open Automation (Time)

def Call.allowedRoles : Call → List Str
  | .listWorkspaces .. | .getWorkspace .. | .listTasks .. | .listAutomations .. => readRoles
  | .createWorkspace .. | .updateWorkspace .. | .deleteWorkspace .. => adminRoles
  | .createTask .. | .updateTask .. | .deleteTask .. => writeRoles
  | .createAutomation .. | .updateAutomation .. | .deleteAutomation .. => writeRoles

def Request.hasRole (r : Runtime) (req : Request) (call : Call) : Prop := req.role r ∈ call.allowedRoles

def Request.names (req : Request) (workspaceId : Int) : Prop := pyInt (strip (req.workspaceId.getD [])) = some workspaceId

/-- What an admitted request may do: it has a role of the policy, and every row it touches is of the workspace it names. -/
def ScopeSound (r : Runtime) (now : Time) (db : Database) (req : Request) (call : Call) : Prop :=
  req.hasRole r call ∧ ∀ row ∈ db.touched r now call, req.names row.workspaceId

/-- The body names no workspace but this one. A zero names none. -/
def Request.bodyAgrees (r : Runtime) (req : Request) (workspaceId : Int) : Prop :=
  ∀ m, extractWorkspaceFromPayload r (req.payload r) = .ok (some m) → m ≠ 0 → m = workspaceId

def Request.bodyNamesNone (r : Runtime) (req : Request) : Prop :=
  ∀ m, extractWorkspaceFromPayload r (req.payload r) = .ok (some m) → m = 0

def Request.queryAgrees (req : Request) (workspaceId : Int) : Prop :=
  ∀ text m, req.queryParam "workspace_id" = some text → pyInt text = some m → m = workspaceId

def Request.queryNamesNone (req : Request) : Prop := (req.queryParam "workspace_id").getD [] = []

/-- The guard compares the header with this workspace, or has nothing to compare it with and the header names it all the
same. -/
def Request.readsAs (r : Runtime) (req : Request) (workspaceId : Int) : Prop :=
  req.bodyAgrees r workspaceId ∧
    (req.bodyNamesNone r → req.queryAgrees workspaceId ∧ (req.queryNamesNone → req.names workspaceId))

section Guard

variable {r : Runtime} {req : Request} {call : Call} {now : Time} {db : Database}

theorem Request.names_unique {v w : Int} (left : req.names v) (right : req.names w) : v = w :=
  Option.some.inj (left.symm.trans right)

theorem role_of_parseRole {allowed : List Str} (parsed : parseRole r req allowed = .ok ()) : req.role r ∈ allowed := by
  unfold parseRole at parsed
  simp only at parsed
  split at parsed
  · cases parsed
  · split at parsed
    · cases parsed
    · rename_i member
      exact not_not.mp member

theorem names_of_parseWorkspaceScope {w : Int} (parsed : parseWorkspaceScope req (some w) = .ok ()) : req.names w := by
  unfold parseWorkspaceScope at parsed
  simp only at parsed
  split at parsed
  · cases parsed
  · split at parsed
    · cases parsed
    · rename_i workspaceId named
      split at parsed
      · cases parsed
      · rename_i same
        rw [Request.names, named, not_not.mp same]

theorem checked_of_admitted {allowed : List Str} {scope : Bool} (admitted : enforceRbac r true req = .ok ())
    (policy : resolvePolicy req.path req.method = (some allowed, scope)) :
    req.role r ∈ allowed ∧
      (scope = true → ∃ requested, requestedWorkspaceId r req = .ok requested ∧ ∀ w, requested = some w → req.names w) := by
  unfold enforceRbac at admitted
  rw [if_pos rfl, policy] at admitted
  simp only [Bind.bind, Except.bind] at admitted
  cases parsed : parseRole r req allowed with
  | error e => simp [parsed] at admitted
  | ok _ =>
    refine ⟨role_of_parseRole parsed, ?_⟩
    rintro rfl
    simp only [parsed, if_true] at admitted
    cases requested : requestedWorkspaceId r req with
    | error e => simp [requested] at admitted
    | ok value =>
      rw [requested] at admitted
      refine ⟨value, rfl, ?_⟩
      rintro w rfl
      exact names_of_parseWorkspaceScope admitted

def writeMethods : List Str := ["POST".toList, "PATCH".toList, "DELETE".toList]

theorem post_writes : "POST".toList ∈ writeMethods := by decide

theorem patch_writes : "PATCH".toList ∈ writeMethods := by decide

theorem delete_writes : "DELETE".toList ∈ writeMethods := by decide

theorem writeMethods_upper : ∀ method ∈ writeMethods, method.map Char.toUpper = method ∧ method ≠ "GET".toList := by decide

theorem resolvePolicy_rows (rows : req.isRowsPath) (method : req.method = call.method)
    (about : call.allowedRoles = readRoles ∧ call.method = "GET".toList ∨ call.allowedRoles = writeRoles ∧
      call.method ∈ writeMethods) :
    resolvePolicy req.path req.method = (some call.allowedRoles, true) := by
  unfold Request.isRowsPath at rows
  rw [method]
  rcases about with ⟨roles, get⟩ | ⟨roles, write⟩
  · have upper : call.method.map Char.toUpper = "GET".toList := by rw [get]; decide
    simp [resolvePolicy, rows, upper, roles]
  · obtain ⟨upper, other⟩ := writeMethods_upper _ write
    unfold writeMethods at write
    simp only [resolvePolicy, upper, rows, other, write, roles]
    simp

theorem resolvePolicy_item {rest : Str} (child : childOf workspacesPath req.path = some rest) (method : Str) :
    resolvePolicy req.path method =
      if (workspacePathDigits req.path).isSome ∧ method.map Char.toUpper = "DELETE".toList then (some adminRoles, true)
      else (none, false) := by
  have path := path_of_childOf child
  have tasks : tasksPath.isPrefixOf req.path = false := by rw [path]; rfl
  have automations : automationsPath.isPrefixOf req.path = false := by rw [path]; rfl
  have users : "/api/v1/users".toList.isPrefixOf req.path = false := by rw [path]; rfl
  have longer : req.path ≠ workspacesPath := by
    rw [path]
    intro same
    simpa using congrArg List.length same
  simp only [resolvePolicy, tasks, automations, users, longer]
  simp

theorem requestedWorkspaceId_cases {requested : Option Int} (found : requestedWorkspaceId r req = .ok requested) :
    (∃ m, m ≠ 0 ∧ extractWorkspaceFromPayload r (req.payload r) = .ok (some m) ∧ requested = some m) ∨
      req.bodyNamesNone r ∧
        ((∃ text n, text ≠ [] ∧ req.queryParam "workspace_id" = some text ∧ pyInt text = some n ∧ requested = some n) ∨
          req.queryNamesNone ∧ extractWorkspaceFromPath req.path = .ok requested) := by
  unfold requestedWorkspaceId at found
  cases payload : extractWorkspaceFromPayload r (req.payload r) with
  | error e => simp [payload] at found
  | ok fromPayload =>
    simp only [payload] at found
    split at found
    · rename_i named
      cases found
      obtain ⟨m, rfl, nonzero⟩ := (Option.any_eq_true _ _).mp named
      exact .inl ⟨m, by simpa using nonzero, rfl, rfl⟩
    · rename_i unnamed
      right
      constructor
      · intro m same
        rw [payload] at same
        cases same
        simpa using unnamed
      · split at found
        · rename_i c rest query
          split at found
          · rename_i n int
            cases found
            exact .inl ⟨c :: rest, n, List.cons_ne_nil c rest, query, int, rfl⟩
          · cases found
        · rename_i unquoted
          refine .inr ⟨?_, found⟩
          unfold Request.queryNamesNone
          cases query : req.queryParam "workspace_id" with
          | none => rfl
          | some text =>
            cases text with
            | nil => rfl
            | cons c rest => exact absurd query (unquoted c rest)

/-- The validator of a body field and `int` agree where both give a number. -/
theorem pyIntOfJson_agrees {value : Json} {n m : Int} (validated : r.intOfJson value = some n)
    (int : pyIntOfJson r value = some m) : n = m := by
  cases value with
  | null => simp [pyIntOfJson] at int
  | bool b => exact (r.bool_agrees b n validated).trans (Option.some.inj int)
  | integer k => exact (r.integer_agrees k n validated).trans (Option.some.inj int)
  | number literal => exact r.number_agrees literal n m validated int
  | string text => exact r.string_agrees text n m validated int
  | array items => simp [pyIntOfJson] at int
  | object members => simp [pyIntOfJson] at int

/-- What the guard reads from a body is what the body's validation reads from it. -/
theorem extractWorkspaceFromPayload_of_fromBody {w : Int} {fromPayload : Option Int} (body : FromBody r req w)
    (alike : req.payload r = req.json r) (extracted : extractWorkspaceFromPayload r (req.payload r) = .ok fromPayload) :
    fromPayload = some w ∧ w ≠ 0 := by
  obtain ⟨-, members, payload, field⟩ := body
  rw [← alike] at payload
  obtain ⟨value, present, validated⟩ := Option.bind_eq_some_iff.mp field
  obtain ⟨validated, positive⟩ := Option.filter_eq_some_iff.mp validated
  have nonzero : w ≠ 0 := by
    have bound : 1 ≤ w := by simpa using positive
    omega
  cases members with
  | nil => cases present
  | cons member rest =>
    have read : Json.get (member :: rest) "workspace_id" .null = value := by
      rw [Json.get, present]
      rfl
    rw [payload] at extracted
    simp only [extractWorkspaceFromPayload, read] at extracted
    split at extracted
    · rw [r.null_refused] at validated
      cases validated
    · split at extracted
      · rename_i m int
        cases extracted
        rw [pyIntOfJson_agrees validated int]
        exact ⟨rfl, pyIntOfJson_agrees validated int ▸ nonzero⟩
      · cases extracted

theorem names_of_fromBody {w : Int} {requested : Option Int} (body : FromBody r req w)
    (alike : req.payload r = req.json r) (found : requestedWorkspaceId r req = .ok requested)
    (named : ∀ w, requested = some w → req.names w) : req.names w := by
  cases extracted : extractWorkspaceFromPayload r (req.payload r) with
  | error e => simp [requestedWorkspaceId, extracted] at found
  | ok fromPayload =>
    obtain ⟨rfl, nonzero⟩ := extractWorkspaceFromPayload_of_fromBody body alike extracted
    rcases requestedWorkspaceId_cases found with ⟨m, -, same, rfl⟩ | ⟨none, -⟩
    · rw [extracted] at same
      cases same
      exact named w rfl
    · exact absurd (none w extracted) nonzero

/-- The digits in the path and the parameter of the route are one number. -/
theorem path_agrees {w n : Int} {digits : Str} (path : FromPath r req w)
    (matched : workspacePathDigits req.path = some digits)
    (int : pyInt digits = some n) : w = n := by
  obtain ⟨text, param, validated⟩ := path
  have child := childOf_of_itemParam param
  rw [workspacePathDigits, child, Option.bind_some] at matched
  have same : pyInt text = pyInt digits := by
    split at matched
    · rw [Option.some.inj matched]
    · split at matched
      · rename_i newline
        have shape : text = digits ++ ['\n'] := by
          rw [← Option.some.inj matched]
          exact (List.dropLast_append_getLast? _ newline.1).symm
        rw [shape, pyInt, pyInt, int?, int?, skipIntSpace_concat (by decide)]
      · cases matched
  exact r.text_agrees text w n validated (same.trans int)

theorem names_iff_readsAs {w : Int} {requested : Option Int} (found : requestedWorkspaceId r req = .ok requested)
    (named : ∀ w, requested = some w → req.names w) : req.names w ↔ req.readsAs r w := by
  rcases requestedWorkspaceId_cases found
    with ⟨m, nonzero, body, rfl⟩ | ⟨none, ⟨text, n, some_text, given, int, rfl⟩ | ⟨unquoted, -⟩⟩
  · constructor
    · intro names
      refine ⟨fun m' body' _ => ?_, fun none => absurd (none m body) nonzero⟩
      rw [body] at body'
      cases body'
      exact Request.names_unique (named m rfl) names
    · intro reads
      exact reads.1 m body nonzero ▸ named m rfl
  · constructor
    · intro names
      refine ⟨fun m body nonzero => absurd (none m body) nonzero, fun _ => ⟨fun text' m given' int' => ?_, fun empty => ?_⟩⟩
      · rw [given] at given'
        cases given'
        rw [int] at int'
        cases int'
        exact Request.names_unique (named n rfl) names
      · rw [Request.queryNamesNone, given] at empty
        exact absurd empty some_text
    · intro reads
      exact (reads.2 none).1 text n given int ▸ named n rfl
  · constructor
    · intro names
      refine ⟨fun m body nonzero => absurd (none m body) nonzero, fun _ => ⟨fun text m given int => ?_, fun _ => names⟩⟩
      rw [Request.queryNamesNone, given] at unquoted
      rw [show text = [] from unquoted] at int
      cases int
    · exact fun reads => (reads.2 none).2 unquoted

theorem names_iff_of_fromQuery {w : Int} {requested : Option Int} (query : FromQuery r req w)
    (found : requestedWorkspaceId r req = .ok requested) (named : ∀ w, requested = some w → req.names w) :
    req.names w ↔ req.bodyAgrees r w := by
  obtain ⟨-, text, given, validated⟩ := query
  rcases requestedWorkspaceId_cases found
    with ⟨m, nonzero, body, rfl⟩ | ⟨none, ⟨text', n, -, given', int, rfl⟩ | ⟨unquoted, -⟩⟩
  · constructor
    · intro names m' body' _
      rw [body] at body'
      cases body'
      exact Request.names_unique (named m rfl) names
    · intro agrees
      exact agrees m body nonzero ▸ named m rfl
  · rw [given] at given'
    cases given'
    have same : w = n := r.text_agrees text w n validated int
    exact ⟨fun _ m body nonzero => absurd (none m body) nonzero, fun _ => same ▸ named n rfl⟩
  · rw [Request.queryNamesNone, given] at unquoted
    have empty : text = [] := unquoted
    rw [empty, r.empty_refused] at validated
    cases validated

theorem names_iff_of_fromPath {w : Int} {requested : Option Int} (path : FromPath r req w)
    (digits : (workspacePathDigits req.path).isSome = true) (found : requestedWorkspaceId r req = .ok requested)
    (named : ∀ w, requested = some w → req.names w) :
    req.names w ↔ req.bodyAgrees r w ∧ (req.bodyNamesNone r → req.queryAgrees w) := by
  rcases requestedWorkspaceId_cases found
    with ⟨m, nonzero, body, rfl⟩ | ⟨none, ⟨text, n, -, given, int, rfl⟩ | ⟨unquoted, extracted⟩⟩
  · constructor
    · intro names
      constructor
      · intro m' body' _
        rw [body] at body'
        cases body'
        exact Request.names_unique (named m rfl) names
      · exact fun none => absurd (none m body) nonzero
    · intro agrees
      exact agrees.1 m body nonzero ▸ named m rfl
  · constructor
    · intro names
      refine ⟨fun m body nonzero => absurd (none m body) nonzero, fun _ text' m given' int' => ?_⟩
      rw [given] at given'
      cases given'
      rw [int] at int'
      cases int'
      exact Request.names_unique (named n rfl) names
    · intro agrees
      exact agrees.2 none text n given int ▸ named n rfl
  · have named_path : req.names w := by
      obtain ⟨text, matched⟩ := Option.isSome_iff_exists.mp digits
      simp only [extractWorkspaceFromPath, matched] at extracted
      cases int : pyInt text with
      | none => simp [int] at extracted
      | some n =>
        rw [int] at extracted
        cases extracted
        exact path_agrees path matched int ▸ named n rfl
    refine ⟨fun _ => ⟨fun m body nonzero => absurd (none m body) nonzero, fun _ text m given int => ?_⟩, fun _ => named_path⟩
    rw [Request.queryNamesNone, given] at unquoted
    have empty : text = [] := unquoted
    rw [empty] at int
    cases int

end Guard

def Covered (r : Runtime) (now : Time) (db : Database) (req : Request) (call : Call) : Prop :=
  match call with
  | .listTasks w .. | .deleteTask _ w | .listAutomations w .. | .deleteAutomation _ w =>
    db.touched r now call ≠ [] → req.bodyAgrees r w
  | .createTask { workspaceId := w, .. } | .updateTask _ { workspaceId := w, .. }
  | .createAutomation { workspaceId := w, .. } | .updateAutomation _ { workspaceId := w, .. } =>
    req.payload r = req.json r ∨ (db.touched r now call ≠ [] → req.readsAs r w)
  | .getWorkspace w | .updateWorkspace w _ => req.hasRole r call ∧ (db.touched r now call ≠ [] → req.names w)
  | .deleteWorkspace w =>
    if (workspacePathDigits req.path).isSome then
      db.touched r now call ≠ [] → req.bodyAgrees r w ∧ (req.bodyNamesNone r → req.queryAgrees w)
    else req.hasRole r call ∧ (db.touched r now call ≠ [] → req.names w)
  | .listWorkspaces .. => req.path = workspacesPath ∨ req.hasRole r call
  | .createWorkspace body =>
    (req.path = workspacesPath ∨ req.hasRole r call) ∧
      ∀ row, db.workspaces.find? (·.slug = r.lower (strip body.slug)) = some row → req.names row.id

section Routes

variable {r : Runtime} {req : Request} {call : Call} {now : Time} {db : Database}

theorem scopeSound_iff {w : Int} (selects : call.workspaceId = some w) :
    ScopeSound r now db req call ↔ req.hasRole r call ∧ (db.touched r now call ≠ [] → req.names w) := by
  constructor
  · rintro ⟨role, all⟩
    refine ⟨role, fun some_row => ?_⟩
    obtain ⟨row, member⟩ := List.exists_mem_of_ne_nil _ some_row
    rw [← Database.workspaceId_of_touched selects member]
    exact all row member
  · rintro ⟨role, named⟩
    refine ⟨role, fun row member => ?_⟩
    rw [Database.workspaceId_of_touched selects member]
    exact named (List.ne_nil_of_mem member)

theorem scopeSound_iff_of_fromBody {w : Int} (admitted : enforceRbac r true req = .ok ())
    (selects : call.workspaceId = some w)
    (body : FromBody r req w) (policy : resolvePolicy req.path req.method = (some call.allowedRoles, true)) :
    ScopeSound r now db req call ↔ req.payload r = req.json r ∨ (db.touched r now call ≠ [] → req.readsAs r w) := by
  obtain ⟨role, checked⟩ := checked_of_admitted admitted policy
  obtain ⟨requested, found, named⟩ := checked rfl
  rw [scopeSound_iff selects, ← names_iff_readsAs found named]
  refine (and_iff_right role).trans ?_
  exact ⟨.inr, fun either => either.elim (fun alike _ => names_of_fromBody body alike found named) id⟩

theorem scopeSound_iff_of_fromQuery {w : Int} (admitted : enforceRbac r true req = .ok ())
    (selects : call.workspaceId = some w)
    (query : FromQuery r req w) (policy : resolvePolicy req.path req.method = (some call.allowedRoles, true)) :
    ScopeSound r now db req call ↔ (db.touched r now call ≠ [] → req.bodyAgrees r w) := by
  obtain ⟨role, checked⟩ := checked_of_admitted admitted policy
  obtain ⟨requested, found, named⟩ := checked rfl
  rw [scopeSound_iff selects, names_iff_of_fromQuery query found named]
  exact and_iff_right role

theorem touched_createWorkspace (body : WorkspaceCreateRequest) :
    (∀ row ∈ db.touched r now (.createWorkspace body), req.names row.workspaceId) ↔
      ∀ row, db.workspaces.find? (·.slug = r.lower (strip body.slug)) = some row → req.names row.id := by
  have kept (email displayName : Str) : (db.upsertUser email displayName).2.workspaces = db.workspaces := by
    unfold Database.upsertUser
    split <;> rfl
  unfold Database.touched
  simp only [Database.run, Database.createWorkspace, kept]
  cases db.workspaces.find? (·.slug = r.lower (strip body.slug)) with
  | none => simp [Outcome.touched]
  | some row => simp [Outcome.touched, Row.workspaceId]

theorem resolvePolicy_get_workspaces : resolvePolicy workspacesPath "GET".toList = (some readRoles, false) := by decide

theorem resolvePolicy_post_workspaces : resolvePolicy workspacesPath "POST".toList = (some adminRoles, false) := by decide

/-- A collection's exact path has a policy; the same path with a newline at its end has none. -/
theorem hasRole_iff_of_collection (admitted : enforceRbac r true req = .ok ())
    (policy : resolvePolicy workspacesPath req.method = (some call.allowedRoles, false)) :
    req.hasRole r call ↔ req.path = workspacesPath ∨ req.hasRole r call := by
  constructor
  · exact .inr
  · rintro (exact_path | role)
    · rw [← exact_path] at policy
      exact (checked_of_admitted admitted policy).1
    · exact role

theorem scopeSound_iff_of_deleteWorkspace {w : Int} (admitted : enforceRbac r true req = .ok ())
    (method : req.method = "DELETE".toList) (path : FromPath r req w)
    (digits : (workspacePathDigits req.path).isSome = true) :
    ScopeSound r now db req (.deleteWorkspace w) ↔
      (db.touched r now (.deleteWorkspace w) ≠ [] → req.bodyAgrees r w ∧ (req.bodyNamesNone r → req.queryAgrees w)) := by
  have policy : resolvePolicy req.path req.method = (some adminRoles, true) := by
    obtain ⟨text, param, -⟩ := path
    rw [resolvePolicy_item (childOf_of_itemParam param), method, if_pos ⟨digits, by decide⟩]
  obtain ⟨role, checked⟩ := checked_of_admitted admitted policy
  obtain ⟨requested, found, named⟩ := checked rfl
  rw [scopeSound_iff rfl, names_iff_of_fromPath path digits found named]
  exact and_iff_right role

end Routes

/-- The encoding is told by the second byte, as it is where the text starts with two characters of ASCII. -/
def asciiLoads (bytes : Bytes) : Option Json :=
  if bytes.all (· < 128) then Json.loads (bytes.map fun byte => Char.ofNat byte.toNat) else none

def everySecond : Bytes → Bytes
  | low :: _ :: rest => low :: everySecond rest
  | short => short

def plainRuntime : Runtime where
  strictLoads := asciiLoads
  bodyLoads _ bytes := asciiLoads (if bytes[1]? = some 0 then everySecond bytes else bytes)
  lower := List.map Char.toLower
  truncate _ := none
  ilike _ _ := true
  intOfText := int?
  intOfJson
    | .integer value => some value
    | _ => none
  boolOfText text := if text = "true".toList then some true else if text = "false".toList then some false else none
  boolOfJson
    | .bool value => some value
    | _ => none
  empty_refused := by decide
  null_refused := rfl
  text_agrees _ _ _ left right := Option.some.inj (left.symm.trans right)
  string_agrees _ _ _ refused _ := nomatch refused
  integer_agrees _ _ same := (Option.some.inj same).symm
  bool_agrees _ _ refused := nomatch refused
  number_agrees _ _ _ refused _ := nomatch refused

def jsonBody (members : Members) : Bytes := (Json.object members).dumps.map fun c => c.toUInt8

def utf16Body (members : Members) : Bytes := (jsonBody members).flatMap fun byte => [byte, 0]

def inWorkspace (workspaceId : Int) : Members := [("workspace_id".toList, .integer workspaceId)]

def deleteTaskFive (workspaceId : String) (body : Bytes) : Request where
  method := "DELETE".toList
  path := "/api/v1/tasks/5".toList
  query := [("workspace_id".toList, workspaceId.toList)]
  userRole := some "member".toList
  workspaceId := some "1".toList
  contentType := none
  body := body

def updateTaskFive (body : Bytes) : Request :=
  { deleteTaskFive "" body with method := "PATCH".toList, query := [] }

def oneTask (workspaceId : Int) : Database where
  workspaces := [⟨1, "one".toList, "One".toList, none⟩, ⟨2, "two".toList, "Two".toList, none⟩]
  users := []
  tasks := [⟨5, workspaceId, "report".toList, none, "todo".toList, "normal".toList⟩]
  automations := []
  nextWorkspace := 3
  nextUser := 1
  nextTask := 6
  nextAutomation := 1

/-- The guard sees no body in UTF-16, which the route reads. -/
example : enforceRbac plainRuntime true (updateTaskFive (utf16Body (inWorkspace 2))) = .ok () ∧
    route plainRuntime (updateTaskFive (utf16Body (inWorkspace 2))) = some (.updateTask 5 ⟨2, none, none, none, none⟩) :=
  ⟨by decide +kernel, rfl⟩

end ClaudeProxy.Api

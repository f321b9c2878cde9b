import ClaudeProxy.Kit.IsoFormat
import ClaudeProxy.Kit.PyValue
import ClaudeProxy.Providers.ErrorMapping

namespace ClaudeProxy.Integrations

open Kit Providers

inductive ResolutionPolicy where
  | manual
  | lastWriteWins
  | sourceOfTruth
deriving DecidableEq

inductive ConflictStatus where
  | resolved
  | opened
deriving DecidableEq

structure Conflict where
  field : Str
  sourceValue : PyValue
  targetValue : PyValue
  status : ConflictStatus
  selectedValue : PyValue

structure ConflictRow where
  workspaceId : Int
  sourceSystem : Str
  targetSystem : Str
  entityRef : Str
  reason : Str
  policy : ResolutionPolicy
  field : Str
  sourceValue : PyValue
  targetValue : PyValue

inductive Fault where
  /-- `can't compare offset-naive and offset-aware datetimes` -/
  | incomparable
  | database (message : Str)
deriving DecidableEq

structure ConflictRequest where
  workspaceId : Int
  sourceSystem : Str
  targetSystem : Str
  entityRef : Str
  sourceFields : Dict Str PyValue
  targetFields : Dict Str PyValue
  policy : ResolutionPolicy
  fieldOwners : Option (Dict Str Str)
  sourceUpdatedAt : Option Str
  targetUpdatedAt : Option Str
  persistConflicts : Bool

structure ConflictResult where
  resolvedFields : Dict Str PyValue
  conflicts : List Conflict
  hasUnresolvedConflicts : Bool
  policy : ResolutionPolicy

/-- The service with its settings and the insertion of a row in a transaction of its own. -/
structure SyncConflictService where
  databaseUrl : Str
  execute : ConflictRow → Except Str Unit

def parseDatetime (value : Option Str) : Option DateTime :=
  let candidate := strip (value.getD [])
  if candidate = [] then none
  else DateTime.fromisoformat? <|
    if candidate.getLast? = some 'Z' then candidate.dropLast ++ "+00:00".toList else candidate

/-- `source >= target` -/
def notBefore (source target : DateTime) : Except Fault Bool :=
  if source.offset.isSome = target.offset.isSome then .ok (decide (target.instant ≤ source.instant))
  else .error .incomparable

def fieldOwner (ownerMap : Dict Str Str) (field : Str) : Str :=
  let owner := (ownerMap.get? field).getD []
  lower (strip (if owner = [] then "source".toList else owner))

def resolveFieldValue (field : Str) (sourceValue targetValue : PyValue) (policy : ResolutionPolicy)
    (ownerMap : Dict Str Str) (sourceUpdatedAt targetUpdatedAt : Option DateTime) :
    Except Fault (PyValue × ConflictStatus) :=
  match policy with
  | .sourceOfTruth => .ok (if fieldOwner ownerMap field = "target".toList then targetValue else sourceValue, .resolved)
  | .lastWriteWins =>
    match sourceUpdatedAt, targetUpdatedAt with
    | some source, some target => do
      let wins ← notBefore source target
      return (if wins then sourceValue else targetValue, .resolved)
    | _, _ => .ok (sourceValue, .resolved)
  | .manual => .ok (targetValue, .opened)

def keyLe (a b : Str) : Bool := ¬ b < a

/-- `sorted(set(source_fields) | set(target_fields))` -/
def fieldNames (source target : Dict Str PyValue) : List Str :=
  (source.keys ++ target.keys.filter (· ∉ source.keys)).mergeSort keyLe

namespace ConflictRequest

variable (r : ConflictRequest)

def sourceValue (field : Str) : PyValue := (r.sourceFields.get? field).getD .none

def targetValue (field : Str) : PyValue := (r.targetFields.get? field).getD .none

def resolveField (field : Str) : Except Fault (PyValue × Option Conflict) :=
  let sourceValue := r.sourceValue field
  let targetValue := r.targetValue field
  let hasSource := !sourceValue.isNone
  let hasTarget := !targetValue.isNone
  if hasSource ∧ !hasTarget then .ok (sourceValue, none)
  else if hasTarget ∧ !hasSource then .ok (targetValue, none)
  else if sourceValue.eq targetValue then .ok (sourceValue, none)
  else do
    let (selectedValue, status) ← resolveFieldValue field sourceValue targetValue r.policy
      (r.fieldOwners.getD Dict.empty) (parseDatetime r.sourceUpdatedAt) (parseDatetime r.targetUpdatedAt)
    return (selectedValue, some ⟨field, sourceValue, targetValue, status, selectedValue⟩)

def resolveFields : List Str → Dict Str PyValue → List Conflict → Except Fault (Dict Str PyValue × List Conflict)
  | [], resolved, conflicts => .ok (resolved, conflicts)
  | field :: rest, resolved, conflicts => do
    let (value, conflict) ← r.resolveField field
    resolveFields rest (resolved.set field value) (conflicts ++ conflict.toList)

def row (conflict : Conflict) : ConflictRow where
  workspaceId := r.workspaceId
  sourceSystem := r.sourceSystem
  targetSystem := r.targetSystem
  entityRef := r.entityRef
  reason := "field mismatch: ".toList ++ conflict.field
  policy := r.policy
  field := conflict.field
  sourceValue := conflict.sourceValue
  targetValue := conflict.targetValue

end ConflictRequest

namespace SyncConflictService

def insertRows (service : SyncConflictService) : List ConflictRow → Except Fault Unit
  | [] => .ok ()
  | row :: rest => do
    (service.execute row).mapError .database
    insertRows service rest

def persistConflicts (service : SyncConflictService) (r : ConflictRequest) (conflicts : List Conflict) : Except Fault Unit :=
  if strip service.databaseUrl = [] then .ok () else service.insertRows (conflicts.map r.row)

def detectAndResolve (service : SyncConflictService) (r : ConflictRequest) : Except Fault ConflictResult := do
  let (resolvedFields, conflicts) ← r.resolveFields (fieldNames r.sourceFields r.targetFields) Dict.empty []
  let openConflicts := conflicts.filter (·.status = .opened)
  if r.persistConflicts ∧ openConflicts ≠ [] then service.persistConflicts r openConflicts
  return ⟨resolvedFields, conflicts, !openConflicts.isEmpty, r.policy⟩

end SyncConflictService

end ClaudeProxy.Integrations

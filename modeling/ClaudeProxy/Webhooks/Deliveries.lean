import ClaudeProxy.Kit.Dedupe
import ClaudeProxy.Kit.JsonKeys
import ClaudeProxy.Kit.PyRepr

namespace ClaudeProxy.Webhooks

open Kit

abbrev Str := List Char

/-- `payload: dict` -/
abbrev Payload := Dict Str Json

/-- `payload.get(key)` -/
def Payload.get (payload : Payload) (key : String) : Json := (payload.get? key.toList).getD .null

/-- The dictionary whatever the order of its keys, at every level. -/
def Payload.unordered (payload : Payload) : PyValue := (Json.sortKeys (.object payload.entries)).decoded

structure NormalizedEvent where
  eventId : Str
  type : Str
  payload : Payload

section Events

variable [PyText]

/-- `str(first or second or "unknown")` -/
def orUnknown (first second : Json) : Str :=
  if first.isTruthy then first.str else if second.isTruthy then second.str else "unknown".toList

/-- `JiraService.normalize_webhook_event` -/
def normalizeJira (payload : Payload) : NormalizedEvent where
  eventId := orUnknown (payload.get "timestamp") (payload.get "webhookEvent")
  type := orUnknown (payload.get "webhookEvent") .null
  payload := payload

/-- `GoogleCalendarService.normalize_webhook_event` -/
def normalizeGoogle (payload : Payload) : NormalizedEvent where
  eventId := orUnknown (payload.get "resourceId") (payload.get "eventId")
  type := orUnknown (payload.get "resourceState") .null
  payload := payload

end Events

inductive Source where
  | jira
  | googleCalendar
deriving DecidableEq

structure InternalEvent where
  source : Source
  eventId : Str
  eventType : Str
  workspaceId : Int
  payloadHash : Str
  headers : List (Str × Str)
  payload : Payload

/-- `payloadHash` stands for the hash that `ProcessedEventRegistry.build_payload_hash` makes of the dictionary with its keys
sorted. -/
def buildInternalEvent [PyText] (payloadHash : PyValue → Str) (source : Source) (normalized : NormalizedEvent) (workspaceId : Int)
    (headers : List (Str × Str)) : InternalEvent where
  source := source
  eventId := orUnknown (.string normalized.eventId) .null
  eventType := orUnknown (.string normalized.type) .null
  workspaceId := workspaceId
  payloadHash := payloadHash normalized.payload.unordered
  headers := headers
  payload := normalized.payload

/-- The rows of `processed_events`, unique in source and event id. -/
abbrev ProcessedEvents := Dict (Source × Str) Str

inductive RegistryStatus where
  | processed
  | hashMismatch
  | duplicate
deriving DecidableEq

def registerEvent (rows : ProcessedEvents) (databaseUrl : Str) (source : Source) (eventId payloadHash : Str) :
    RegistryStatus × ProcessedEvents :=
  if databaseUrl = [] then (.processed, rows)
  else
    match rows.get? (source, eventId) with
    | none => (.processed, rows.set (source, eventId) payloadHash)
    | some existingHash => (if existingHash ≠ [] ∧ existingHash ≠ payloadHash then .hashMismatch else .duplicate, rows)

def recordProcessedEvent (rows : ProcessedEvents) (databaseUrl : Str) (event : InternalEvent) : Bool × ProcessedEvents :=
  let (status, rows) := registerEvent rows databaseUrl event.source event.eventId event.payloadHash
  (status = .processed, rows)

inductive ProcessingStatus where
  | processed
  | duplicate
deriving DecidableEq

def maxWebhookRetries : Nat := 3

/-- The answer of `_process_with_retry` with its attempts, or none when every attempt fails and the event becomes a
dead letter. A failing attempt is rolled back. -/
def processWithRetry (rows : ProcessedEvents) (databaseUrl : Str) (failing : Nat → Bool) (event : InternalEvent) :
    Option (ProcessingStatus × Nat) × ProcessedEvents :=
  match (List.range' 1 maxWebhookRetries).find? fun attempt => !failing attempt with
  | some attempt =>
    let (inserted, rows) := recordProcessedEvent rows databaseUrl event
    (some (if inserted then .processed else .duplicate, attempt), rows)
  | none => (none, rows)

structure JiraDelivery where
  payload : Payload
  signature : Option Str
  workspaceId : Option Int

structure GoogleDelivery where
  payload : Payload
  channelId : Option Str
  resourceId : Option Str
  resourceState : Option Str
  messageNumber : Option Str
  workspaceId : Option Int

/-- The truth value of an optional header. -/
def present (header : Option Str) : Bool := header.any fun value => !value.isEmpty

/-- `if key not in payload and header: payload[key] = header` -/
def enrich (key : String) (header : Option Str) (payload : Payload) : Payload :=
  match header with
  | some value => if ¬ payload.contains key.toList ∧ present header then payload.set key.toList (.string value) else payload
  | none => payload

variable [PyText]

def jiraEvent (payloadHash : PyValue → Str) (d : JiraDelivery) : InternalEvent :=
  buildInternalEvent payloadHash .jira (normalizeJira d.payload) (d.workspaceId.getD 1)
    [("x-atlassian-webhook-signature".toList, d.signature.getD [])]

def googleEvent (payloadHash : PyValue → Str) (d : GoogleDelivery) : InternalEvent :=
  let enriched := enrich "eventId" d.messageNumber (enrich "resourceState" d.resourceState
    (enrich "resourceId" d.resourceId d.payload))
  let normalized := normalizeGoogle enriched
  let eventId := if present d.messageNumber then d.messageNumber.getD [] else normalized.eventId
  let type := if present d.resourceState then "google_calendar:".toList ++ d.resourceState.getD [] else normalized.type
  buildInternalEvent payloadHash .googleCalendar ⟨eventId, type, normalized.payload⟩ (d.workspaceId.getD 1)
    [("x-goog-channel-id".toList, d.channelId.getD []), ("x-goog-resource-id".toList, d.resourceId.getD []),
      ("x-goog-resource-state".toList, d.resourceState.getD []), ("x-goog-message-number".toList, d.messageNumber.getD [])]

/-- A delivery that its endpoint has let through. -/
inductive Delivery where
  | jira (d : JiraDelivery)
  | google (d : GoogleDelivery)

def Delivery.internalEvent (payloadHash : PyValue → Str) : Delivery → InternalEvent
  | jira d => jiraEvent payloadHash d
  | google d => googleEvent payloadHash d

/-- A delivery with the attempts at which the database fails. -/
structure Arrival where
  delivery : Delivery
  failing : Nat → Bool

namespace Arrival

variable (payloadHash : PyValue → Str) (databaseUrl : Str)

def process (rows : ProcessedEvents) (a : Arrival) : Option (ProcessingStatus × Nat) × ProcessedEvents :=
  processWithRetry rows databaseUrl a.failing (a.delivery.internalEvent payloadHash)

def processAll (arrivals : List Arrival) : ProcessedEvents :=
  arrivals.foldl (fun rows a => (a.process payloadHash databaseUrl rows).2) .empty

theorem processAll_concat (arrivals : List Arrival) (a : Arrival) :
    processAll payloadHash databaseUrl (arrivals ++ [a]) =
      (a.process payloadHash databaseUrl (processAll payloadHash databaseUrl arrivals)).2 := by
  unfold processAll
  rw [List.foldl_append]
  rfl

/-- What is answered to an arrival after those before it. -/
def report (before : List Arrival) (a : Arrival) : Option ProcessingStatus :=
  (a.process payloadHash databaseUrl (processAll payloadHash databaseUrl before)).1.map Prod.fst

end Arrival

end ClaudeProxy.Webhooks

import ClaudeProxy.Integrations.SyncConflicts
import ClaudeProxy.Kit.PyRepr

namespace ClaudeProxy.Integrations

open Kit Providers

def statusToColorId : List (Str × Str) :=
  [("to do", "5"), ("open", "5"), ("in progress", "9"), ("doing", "9"), ("done", "10"), ("resolved", "10"),
    ("closed", "10")].map fun entry => (entry.1.toList, entry.2.toList)

def text (literal : String) : PyValue := .string literal.toList

def record (entries : List (String × PyValue)) : PyValue := .dict (entries.map fun entry => (entry.1.toList, entry.2))

/-- `date value out of range` -/
inductive OutOfRange where
  | overflow

structure SyncMappingService where
  defaultTimezone : Str
  defaultProjectKey : Str
  defaultIssueType : Str

inductive JiraOperation where
  | update
  | create
deriving DecidableEq

structure JiraMapping where
  operation : JiraOperation
  issueKey : Option Str
  fields : List (Str × PyValue)

def firstPresent (fields : PyValue) (candidates : List String) : PyValue :=
  ((candidates.map fields.get).find? PyValue.isTruthy).getD .none

def parseDate (value : PyValue) : Option Date :=
  let text := strip (value.string?.getD [])
  if text = [] then none else Date.fromisoformat? text

def parseDatetimeOf (value : PyValue) : Option DateTime := parseDatetime value.string?

def startRaw (fields : PyValue) : PyValue := firstPresent fields ["customfield_start", "startDate", "start"]

def endRaw (fields : PyValue) : PyValue := firstPresent fields ["customfield_end", "endDate", "end"]

/-- `start_dt and end_dt` -/
def timedWindow? (fields : PyValue) : Option (DateTime × DateTime) := do
  let start ← parseDatetimeOf (startRaw fields)
  let stop ← parseDatetimeOf (endRaw fields)
  return (start, stop)

/-- The name in an object of the issue: its status or its priority. -/
def nameOf (value : PyValue) : Str :=
  let name := strip ((value.get "name").string?.getD [])
  if name = [] then "unknown".toList else name

def statusName (value : PyValue) : Str := nameOf value

def priorityName (value : PyValue) : Str := nameOf value

def attendeesFromAssignee (value : PyValue) : List PyValue :=
  let email := strip ((value.get "emailAddress").string?.getD [])
  let displayName := strip ((value.get "displayName").string?.getD [])
  if email = [] then []
  else [record (("email", .string email) :: if displayName = [] then [] else [("displayName", .string displayName)])]

def stringifyDescription (t : PyText) (value : PyValue) : Str :=
  match value with
  | .none => []
  | value => ((value.get "text").string?).getD (t.str value)

namespace SyncMappingService

variable (t : PyText) (s : SyncMappingService)

def timeBlock (at' : DateTime) : PyValue :=
  record [("dateTime", .string at'.isoformat), ("timeZone", .string s.defaultTimezone)]

def dateBlock (day : Date) : PyValue := record [("date", .string day.isoformat)]

/-- The start and the end of the event; `now` is read without its microseconds. -/
def extractCalendarTimeWindow (now : DateTime) (fields : PyValue) : Except OutOfRange (PyValue × PyValue) :=
  match timedWindow? fields with
  | some (start, stop) => .ok (s.timeBlock start, s.timeBlock stop)
  | none =>
    match parseDate (fields.get "duedate") with
    | some due =>
      match due.tomorrow? with
      | some next => .ok (dateBlock due, dateBlock next)
      | none => .error .overflow
    | none =>
      match now.plusHour? with
      | some later => .ok (s.timeBlock now, s.timeBlock later)
      | none => .error .overflow

def mapJiraIssueToCalendarEvent (now : DateTime) (issue : PyValue) : Except OutOfRange PyValue := do
  let key := t.str ((issue.get "key").or (.string []))
  let issueId := t.str ((issue.get "id").or (.string []))
  let fields := issue.get "fields"
  let summary := t.str ((fields.get "summary").or ((PyValue.string key).or (text "Untitled Jira Issue")))
  let description := stringifyDescription t (fields.get "description")
  let (start, stop) ← s.extractCalendarTimeWindow now fields
  let status := statusName (fields.get "status")
  let colorId := ((statusToColorId.find? fun entry => entry.1 = lower status).map Prod.snd).getD "6".toList
  let attendees := attendeesFromAssignee (fields.get "assignee")
  return record <|
    [("summary", .string summary), ("description", .string description), ("start", start), ("end", stop),
      ("colorId", .string colorId),
      ("extendedProperties", record [("private", record [("jiraKey", .string key), ("jiraIssueId", .string issueId),
        ("jiraStatus", .string status), ("jiraPriority", .string (priorityName (fields.get "priority")))])])] ++
    if attendees = [] then [] else [("attendees", .list attendees)]

/-- What is no object reads as an empty one. -/
def privateExtendedProperties (event : PyValue) : PyValue := (event.get "extendedProperties").get "private"

def extractDueDate (event : PyValue) : Except OutOfRange (Option Date) :=
  let stop := event.get "end"
  let start := event.get "start"
  match parseDate (stop.get "date") with
  | some day =>
    match day.yesterday? with
    | some due => .ok (some due)
    | none => .error .overflow
  | none => .ok <|
    ((parseDatetimeOf (stop.get "dateTime")).map DateTime.date).or <|
      (parseDate (start.get "date")).or ((parseDatetimeOf (start.get "dateTime")).map DateTime.date)

def calendarLabels (colorId : PyValue) : PyValue :=
  .list <| text "calendar-sync" ::
    match colorId with
    | .string color => if color = [] then [] else [.string ("calendar-color-".toList ++ color)]
    | _ => []

def mapCalendarEventToJiraFields (event : PyValue) : Except OutOfRange JiraMapping := do
  let summary := t.str ((event.get "summary").or (text "Untitled Calendar Event"))
  let description := t.str ((event.get "description").or (.string []))
  let jiraKey := strip (t.str (((privateExtendedProperties event).get "jiraKey").or (.string [])))
  let dueDate ← extractDueDate event
  let fields : List (String × PyValue) :=
    [("summary", .string summary), ("description", .string description), ("labels", calendarLabels (event.get "colorId"))] ++
      match dueDate with
      | some due => [("duedate", .string due.isoformat)]
      | none => []
  let project : List (String × PyValue) :=
    if s.defaultProjectKey = [] then []
    else [("project", record [("key", .string s.defaultProjectKey)]),
      ("issuetype", record [("name", .string s.defaultIssueType)])]
  let entries (fields : List (String × PyValue)) := fields.map fun entry => (entry.1.toList, entry.2)
  if jiraKey ≠ [] then return ⟨.update, some jiraKey, entries fields⟩
  else return ⟨.create, none, entries (fields ++ project)⟩

end SyncMappingService

end ClaudeProxy.Integrations

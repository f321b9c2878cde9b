import ClaudeProxy.Integrations.SyncMapping

namespace ClaudeProxy.Integrations

open Kit Providers

section Texts

theorem isSpace_digit {c : Char} (digit : c.isDigit = true) : isSpace c = false := by
  simp only [Char.isDigit, Bool.and_eq_true, decide_eq_true_eq] at digit
  have lower : 48 ≤ c.toNat := digit.1
  have upper : c.toNat ≤ 57 := digit.2
  simp only [isSpace, decide_eq_false_iff_not]
  omega

theorem strip_framed {text : Str} (framed : Framed text) : strip text = text := by
  obtain ⟨⟨first, rest, start, digit⟩, front, last, stop, digit'⟩ := framed
  have left : text.dropWhile isSpace = text := by
    rw [start, List.dropWhile_cons_of_neg (by simp [isSpace_digit digit])]
  have right : text.reverse.dropWhile isSpace = text.reverse := by
    rw [stop, List.reverse_append, List.reverse_singleton, List.singleton_append,
      List.dropWhile_cons_of_neg (by simp [isSpace_digit digit'])]
  rw [strip, left, right, List.reverse_reverse]

theorem framed_ne_nil {text : Str} (framed : Framed text) : text ≠ [] := by
  obtain ⟨⟨first, rest, rfl, -⟩, -⟩ := framed
  exact List.cons_ne_nil _ _

theorem parseDate_isoformat (d : Date) : parseDate (.string d.isoformat) = some d := by
  have framed := framed_date d
  unfold parseDate
  show (if strip d.isoformat = [] then none else Date.fromisoformat? (strip d.isoformat)) = some d
  rw [strip_framed framed, if_neg (framed_ne_nil framed), Date.fromisoformat?_isoformat]

theorem parseDatetime_isoformat (at' : DateTime) : parseDatetimeOf (.string at'.isoformat) = some at' := by
  have framed := framed_dateTime at'
  have zone : at'.isoformat.getLast? ≠ some 'Z' := by
    obtain ⟨-, front, last, stop, digit⟩ := framed
    rw [stop, List.getLast?_concat]
    intro same
    exact isDigit_ne digit (by decide) (Option.some.inj same)
  unfold parseDatetimeOf parseDatetime
  simp only [PyValue.string?, Option.getD_some, strip_framed framed, framed_ne_nil framed, if_false, zone,
    DateTime.fromisoformat?_isoformat]

end Texts

section Records

theorem get_record_cons (name key : String) (value : PyValue) (entries : List (String × PyValue)) :
    (record ((name, value) :: entries)).get key = if name = key then value else (record entries).get key := by
  simp only [record, PyValue.get, PyValue.entries?, Option.getD_some, List.map_cons, PyValue.lookup]
  by_cases same : name = key
  · rw [if_pos same, List.find?_cons_of_pos (by simp [same])]
    rfl
  · have other : name.toList ≠ key.toList := fun eq => same (String.toList_inj.mp eq)
    rw [if_neg same, List.find?_cons_of_neg (by simp [other])]

theorem get_record_nil (key : String) : (record []).get key = .none := rfl

end Records

section Window

variable (s : SyncMappingService)

/-- The due date that the event keeps: the day on which the issue's window ends, the due date, or the present day. -/
def keptDueDate? (now : DateTime) (fields : PyValue) : Option Date :=
  match timedWindow? fields with
  | some (_, stop) => some stop.date
  | none =>
    match parseDate (fields.get "duedate") with
    | some due => some due
    | none => now.plusHour?.map DateTime.date

/-- The date of the event lies before the end of the calendar. -/
def InCalendar (now : DateTime) (fields : PyValue) : Prop :=
  now.date.year < 9999 ∧ (timedWindow? fields = none → ∀ due, parseDate (fields.get "duedate") = some due →
    ¬ (due.year = 9999 ∧ due.month = 12 ∧ due.day = 31))

theorem plusHour?_isSome {now : DateTime} (early : now.date.year < 9999) : ∃ later, now.plusHour? = some later := by
  obtain ⟨hour, minute, second, microsecond⟩ := now.clock.valid
  unfold DateTime.plusHour?
  split_ifs with before
  · have valid : now.clock.hour + 1 < 24 := by omega
    rw [Clock.of?, dif_pos ⟨valid, minute, second, microsecond⟩]
    exact ⟨_, rfl⟩
  · cases next : now.date.tomorrow? with
    | none =>
      have last := (Date.tomorrow?_eq_none_iff _).mp next
      omega
    | some day =>
      rw [Clock.of?, dif_pos ⟨by decide, minute, second, microsecond⟩]
      exact ⟨_, rfl⟩

theorem dateTime_timeBlock (at' : DateTime) : (s.timeBlock at').get "dateTime" = .string at'.isoformat := by
  rw [SyncMappingService.timeBlock, get_record_cons, if_pos rfl]

theorem date_timeBlock (at' : DateTime) : (s.timeBlock at').get "date" = .none := by
  simp [SyncMappingService.timeBlock, get_record_cons, get_record_nil]

theorem date_dateBlock (day : Date) : (SyncMappingService.dateBlock day).get "date" = .string day.isoformat := by
  rw [SyncMappingService.dateBlock, get_record_cons, if_pos rfl]

theorem extractDueDate_timeBlock {event : PyValue} {at' : DateTime} (stop : event.get "end" = s.timeBlock at') :
    SyncMappingService.extractDueDate event = .ok (some at'.date) := by
  have day : parseDate .none = none := rfl
  simp only [SyncMappingService.extractDueDate, stop, date_timeBlock, dateTime_timeBlock, parseDatetime_isoformat, day]
  rfl

theorem extractDueDate_dateBlock {event : PyValue} {due next : Date} (after : due.tomorrow? = some next)
    (stop : event.get "end" = SyncMappingService.dateBlock next) :
    SyncMappingService.extractDueDate event = .ok (some due) := by
  simp only [SyncMappingService.extractDueDate, stop, date_dateBlock, parseDate_isoformat, Date.yesterday?_tomorrow after]

theorem window_kept {now : DateTime} {fields : PyValue} (inside : InCalendar now fields) :
    ∃ start stop due, s.extractCalendarTimeWindow now fields = .ok (start, stop) ∧ keptDueDate? now fields = some due ∧
      ∀ event : PyValue, event.get "end" = stop → SyncMappingService.extractDueDate event = .ok (some due) := by
  unfold SyncMappingService.extractCalendarTimeWindow keptDueDate?
  cases timed : timedWindow? fields with
  | some window => exact ⟨_, _, window.2.date, rfl, rfl, fun _ stop => extractDueDate_timeBlock s stop⟩
  | none =>
    cases day : parseDate (fields.get "duedate") with
    | some due =>
      cases after : due.tomorrow? with
      | none => exact absurd ((Date.tomorrow?_eq_none_iff due).mp after) (inside.2 timed due day)
      | some next =>
        refine ⟨SyncMappingService.dateBlock due, SyncMappingService.dateBlock next, due, ?_, rfl, fun _ stop => ?_⟩
        · simp only [after]
        · exact extractDueDate_dateBlock after stop
    | none =>
      obtain ⟨later, hour⟩ := plusHour?_isSome inside.1
      refine ⟨s.timeBlock now, s.timeBlock later, later.date, ?_, ?_, fun _ stop => extractDueDate_timeBlock s stop⟩
      · simp only [hour]
      · simp only [hour, Option.map_some]

end Window

def issueKey (t : PyText) (issue : PyValue) : Str := t.str ((issue.get "key").or (.string []))

def eventSummary (t : PyText) (issue : PyValue) : Str :=
  t.str (((issue.get "fields").get "summary").or
    ((PyValue.string (issueKey t issue)).or (text "Untitled Jira Issue")))

theorem mapJiraIssueToCalendarEvent_spec (t : PyText) (s : SyncMappingService) {now : DateTime} {issue start stop : PyValue}
    (window : s.extractCalendarTimeWindow now (issue.get "fields") = .ok (start, stop)) :
    ∃ event, s.mapJiraIssueToCalendarEvent t now issue = .ok event ∧
      event.get "summary" = .string (eventSummary t issue) ∧
      event.get "description" = .string (stringifyDescription t ((issue.get "fields").get "description")) ∧
      event.get "end" = stop ∧
      (SyncMappingService.privateExtendedProperties event).get "jiraKey" = .string (issueKey t issue) := by
  rw [SyncMappingService.mapJiraIssueToCalendarEvent, window]
  refine ⟨_, rfl, ?_, ?_, ?_, ?_⟩
  · rw [List.cons_append, get_record_cons, if_pos rfl]
    rfl
  · simp [get_record_cons]
  · simp [get_record_cons]
  · simp [SyncMappingService.privateExtendedProperties, get_record_cons, issueKey]

theorem mapCalendarEventToJiraFields_spec (t : PyText) (s : SyncMappingService) {event : PyValue} {due : Date}
    (day : SyncMappingService.extractDueDate event = .ok (some due))
    (keyed : strip (t.str (((SyncMappingService.privateExtendedProperties event).get "jiraKey").or (.string []))) ≠ []) :
    ∃ mapping, s.mapCalendarEventToJiraFields t event = .ok mapping ∧ mapping.operation = .update ∧
      mapping.issueKey =
        some (strip (t.str (((SyncMappingService.privateExtendedProperties event).get "jiraKey").or (.string [])))) ∧
      (PyValue.dict mapping.fields).get "summary" =
        .string (t.str ((event.get "summary").or (text "Untitled Calendar Event"))) ∧
      (PyValue.dict mapping.fields).get "description" = .string (t.str ((event.get "description").or (.string []))) ∧
      (PyValue.dict mapping.fields).get "duedate" = .string due.isoformat := by
  rw [SyncMappingService.mapCalendarEventToJiraFields, day]
  refine ⟨_, if_pos keyed, rfl, rfl, ?_, ?_, ?_⟩
  · show (record _).get "summary" = _
    rw [List.cons_append, get_record_cons, if_pos rfl]
  · show (record _).get "description" = _
    simp [get_record_cons]
  · show (record _).get "duedate" = _
    simp [get_record_cons]

/-- What an issue gets back from its own event. -/
structure Returned (t : PyText) (now : DateTime) (issue : PyValue) (mapping : JiraMapping) : Prop where
  operation : mapping.operation = .update
  key : mapping.issueKey = some (strip (issueKey t issue))
  summary : (PyValue.dict mapping.fields).get "summary" = .string
    (if ((issue.get "fields").get "summary").isTruthy then t.str ((issue.get "fields").get "summary") else issueKey t issue)
  description : (PyValue.dict mapping.fields).get "description" =
    .string (stringifyDescription t ((issue.get "fields").get "description"))
  duedate : ∃ due, keptDueDate? now (issue.get "fields") = some due ∧
    (PyValue.dict mapping.fields).get "duedate" = .string due.isoformat

theorem str_or_empty (t : PyText) (value : Str) : t.str ((PyValue.string value).or (.string [])) = value := by
  cases value with
  | nil => rfl
  | cons c rest => rfl

theorem str_or_of_ne_nil (t : PyText) {value : Str} (some : value ≠ []) (other : PyValue) :
    t.str ((PyValue.string value).or other) = value := by
  cases value with
  | nil => exact absurd rfl some
  | cons c rest => rfl

theorem eventSummary_eq (t : PyText) {issue : PyValue} (key : issueKey t issue ≠ []) :
    eventSummary t issue = if ((issue.get "fields").get "summary").isTruthy then t.str ((issue.get "fields").get "summary")
      else issueKey t issue := by
  unfold eventSummary
  rw [PyValue.or]
  split_ifs
  · rfl
  · exact str_or_of_ne_nil t key _

theorem eventSummary_ne_nil (t : PyText) {issue : PyValue} (key : issueKey t issue ≠ []) : eventSummary t issue ≠ [] := by
  rw [eventSummary_eq t key]
  split_ifs with truthy
  · exact t.str_ne_nil truthy
  · exact key

/-- An issue goes to the calendar and comes back: its key keeps its name but for white space around it, its summary and
    description come back as texts, and a due date comes back even where there was none. -/
theorem maps_back (t : PyText) (s : SyncMappingService) (now : DateTime) (issue : PyValue)
    (named : strip (issueKey t issue) ≠ []) (inside : InCalendar now (issue.get "fields")) :
    ∃ event mapping, s.mapJiraIssueToCalendarEvent t now issue = .ok event ∧
      s.mapCalendarEventToJiraFields t event = .ok mapping ∧ Returned t now issue mapping := by
  have key : issueKey t issue ≠ [] := by
    intro empty
    rw [empty] at named
    exact named rfl
  obtain ⟨start, stop, due, window, kept, read⟩ := window_kept s inside
  obtain ⟨event, mapped, summary, description, block, jiraKey⟩ := mapJiraIssueToCalendarEvent_spec t s window
  have same : t.str (((SyncMappingService.privateExtendedProperties event).get "jiraKey").or (.string [])) =
    issueKey t issue := by
    rw [jiraKey, str_or_empty]
  obtain ⟨mapping, back, operation, keyed, summary', description', duedate⟩ :=
    mapCalendarEventToJiraFields_spec t s (read event block) (same ▸ named)
  refine ⟨event, mapping, mapped, back, operation, ?_, ?_, ?_, due, kept, duedate⟩
  · rw [keyed, same]
  · rw [summary', summary, str_or_of_ne_nil t (eventSummary_ne_nil t key), eventSummary_eq t key]
  · rw [description', description, str_or_empty]

def jiraToCalendar : SyncMappingService := ⟨"UTC".toList, "OPS".toList, "Task".toList⟩

def morning : DateTime := ⟨⟨2026, 3, 16, by decide⟩, ⟨9, 0, 0, 0, by decide⟩, some .utc⟩

def issueOf (fields : List (String × PyValue)) : PyValue := record [("key", text "OPS-17"), ("fields", record fields)]

theorem maps_back_release :
    ∃ event mapping, jiraToCalendar.mapJiraIssueToCalendarEvent PyText.ascii morning
        (issueOf [("summary", text "Deploy release"), ("duedate", text "2026-03-20")]) = .ok event ∧
      jiraToCalendar.mapCalendarEventToJiraFields PyText.ascii event = .ok mapping ∧
      Returned PyText.ascii morning (issueOf [("summary", text "Deploy release"), ("duedate", text "2026-03-20")]) mapping := by
  apply maps_back
  · decide
  · refine ⟨by decide, fun _ due read => ?_⟩
    have day : parseDate (text "2026-03-20") = some due := read
    have year : (parseDate (text "2026-03-20")).map Date.year = some 2026 := by decide
    rw [day] at year
    rintro ⟨last, -, -⟩
    rw [Option.map_some, last] at year
    cases year

/-- The mapping and its way back leave the three fields as they were. -/
def KeepsIssue (t : PyText) (s : SyncMappingService) (now : DateTime) (issue : PyValue) : Prop :=
  ∃ event mapping, s.mapJiraIssueToCalendarEvent t now issue = .ok event ∧
    s.mapCalendarEventToJiraFields t event = .ok mapping ∧ mapping.operation = .update ∧
    mapping.issueKey = some (issueKey t issue) ∧
    ∀ name ∈ ["summary", "description", "duedate"], ∀ value, PyValue.lookup name.toList mapping.fields = some value →
      value = (issue.get "fields").get name

/-- An issue without a due date comes back with one. -/
theorem not_keepsIssue : ¬ KeepsIssue PyText.ascii jiraToCalendar morning (issueOf [("summary", text "Deploy release")]) := by
  rintro ⟨event, mapping, mapped, back, -, -, same⟩
  have inside : InCalendar morning ((issueOf [("summary", text "Deploy release")]).get "fields") :=
    ⟨by decide, fun _ due read => by cases read⟩
  obtain ⟨start, stop, due, window, -, read⟩ := window_kept jiraToCalendar inside
  obtain ⟨event', mapped', -, -, block, jiraKey⟩ := mapJiraIssueToCalendarEvent_spec PyText.ascii jiraToCalendar window
  rw [mapped'] at mapped
  cases mapped
  have keyed : strip (PyText.ascii.str
    (((SyncMappingService.privateExtendedProperties event).get "jiraKey").or (.string []))) ≠ [] := by
    rw [jiraKey]
    decide
  obtain ⟨mapping', back', -, -, -, -, duedate⟩ :=
    mapCalendarEventToJiraFields_spec PyText.ascii jiraToCalendar (read event block) keyed
  rw [back'] at back
  cases back
  have written : (PyValue.lookup "duedate".toList mapping.fields).getD .none = .string due.isoformat := duedate
  cases found : PyValue.lookup "duedate".toList mapping.fields with
  | none =>
    rw [found] at written
    cases written
  | some value =>
    rw [found, Option.getD_some, same "duedate" (by decide) value found] at written
    cases written

end ClaudeProxy.Integrations

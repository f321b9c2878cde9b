import ClaudeProxy.Webhooks.Deliveries

namespace ClaudeProxy.Webhooks

open Kit

namespace Payload

/-- The dictionary without an order has the same keys, with the same values up to the order of keys in them. -/
theorem lookup_unordered (payload : Payload) (key : Str) :
    PyValue.lookup key (Json.decodedMembers (Json.sortedMembers payload.entries)) =
      (payload.get? key).map fun value => value.sortKeys.decoded := by
  have perm : (Json.sortedMembers payload.entries).Perm (Json.sortKeysMembers payload.entries) := List.mergeSort_perm _ _
  have entries : (Json.decodedMembers (Json.sortedMembers payload.entries)).Perm
      (payload.entries.map fun member => (member.1, member.2.sortKeys.decoded)) := by
    rw [Json.decodedMembers_eq]
    refine (perm.map _).trans ?_
    rw [Json.sortKeysMembers_eq, List.map_map]
    rfl
  have distinct : ((Json.decodedMembers (Json.sortedMembers payload.entries)).map Prod.fst).Nodup := by
    rw [(entries.map Prod.fst).nodup_iff, List.map_map]
    exact payload.nodup
  apply Option.ext
  intro value
  rw [PyValue.lookup_eq_some_iff distinct, entries.mem_iff, List.mem_map, Option.map_eq_some_iff]
  constructor
  · rintro ⟨member, there, same⟩
    cases same
    exact ⟨member.2, (payload.get?_eq_some_iff _ _).mpr there, rfl⟩
  · rintro ⟨found, there, rfl⟩
    exact ⟨(key, found), (payload.get?_eq_some_iff _ _).mp there, rfl⟩

theorem get_unordered (payload : Payload) (key : String) :
    payload.unordered.get key = (payload.get key).sortKeys.decoded := by
  have found := lookup_unordered payload key.toList
  rw [PyValue.get, show payload.unordered = .dict (Json.decodedMembers (Json.sortedMembers payload.entries)) from ?_]
  · rw [PyValue.entries?, Option.getD_some, found, Payload.get]
    cases payload.get? key.toList <;> rfl
  · rw [unordered, Json.sortKeys, Json.decoded]
    rfl

theorem unordered_of_perm {payload other : Payload} (perm : payload.entries.Perm other.entries) :
    payload.unordered = other.unordered := by
  have same : Json.sortKeys (.object payload.entries) = Json.sortKeys (.object other.entries) :=
    congrArg Json.object (Json.sortedMembers_of_perm payload.nodup perm)
  rw [unordered, unordered, same]

end Payload

/-- What makes two deliveries the same delivery. -/
inductive Identity where
  | jira (payload : PyValue)
  | google (channelId messageNumber : Str)

namespace Arrival

variable [PyText] {payloadHash : PyValue → Str} {databaseUrl : Str}

def identity (a : Arrival) : Identity :=
  match a.delivery with
  | .jira d => .jira d.payload.unordered
  | .google d => .google (d.channelId.getD []) (d.messageNumber.getD [])

def carriesHeaders (a : Arrival) : Prop :=
  match a.delivery with
  | .jira _ => True
  | .google d => present d.channelId = true ∧ present d.messageNumber = true

/-- Some attempt reaches the database, so that the delivery is not given up. -/
def answered (a : Arrival) : Bool := (List.range' 1 maxWebhookRetries).any fun attempt => !a.failing attempt

/-- The columns in which `processed_events` is unique. -/
def key (a : Arrival) : Source × Str :=
  match a.delivery with
  | .jira d => (.jira, orUnknown (.string (normalizeJira d.payload).eventId) .null)
  | .google d => (.googleCalendar, d.messageNumber.getD [])

/-- A delivery is reported as a duplicate exactly when an earlier accepted one was the same. -/
def ReportsDuplicates (payloadHash : PyValue → Str) (databaseUrl : Str) (arrivals : List Arrival) : Prop :=
  ∀ before a after, arrivals = before ++ a :: after → a.answered →
    (report payloadHash databaseUrl before a = some .duplicate ↔ SeenBefore (fun b => b.answered = true) identity before a)

theorem orUnknown_string {value : Str} (nonempty : value ≠ []) (second : Json) :
    orUnknown (.string value) second = value := by
  cases value with
  | nil => exact absurd rfl nonempty
  | cons c rest => rfl

omit [PyText] in
theorem getD_of_present {header : Option Str} (carried : present header = true) : header.getD [] ≠ [] := by
  cases header with
  | none => cases carried
  | some value =>
    cases value with
    | nil => cases carried
    | cons c rest => exact List.cons_ne_nil c rest

theorem internalEvent_key {a : Arrival} (carries : a.carriesHeaders) :
    ((a.delivery.internalEvent payloadHash).source, (a.delivery.internalEvent payloadHash).eventId) = a.key := by
  unfold key carriesHeaders at *
  cases kind : a.delivery with
  | jira d => rfl
  | google d =>
    rw [kind] at carries
    have nonempty := getD_of_present carries.2
    show (Source.googleCalendar,
      orUnknown (.string (if present d.messageNumber = true then d.messageNumber.getD [] else _)) .null) = _
    rw [if_pos carries.2, orUnknown_string nonempty]

/-- The objects in what the event id is read from have their keys in order; most have no object in it. -/
def ordered (a : Arrival) : Prop :=
  match a.delivery with
  | .jira d => ∀ key ∈ ["timestamp", "webhookEvent"], (d.payload.get key).sortKeys = d.payload.get key
  | .google _ => True

theorem orUnknown_congr {first second first' second' : Json} (one : first.decoded = first'.decoded)
    (two : second.decoded = second'.decoded) : orUnknown first second = orUnknown first' second' := by
  unfold orUnknown Json.str
  rw [← Json.isTruthy_decoded first, ← Json.isTruthy_decoded second, one, two, Json.isTruthy_decoded, Json.isTruthy_decoded]

theorem key_of_identity {a b : Arrival} (ordered : a.ordered) (ordered' : b.ordered) (same : a.identity = b.identity) :
    a.key = b.key := by
  unfold identity key Arrival.ordered at *
  cases left : a.delivery with
  | jira d =>
    cases right : b.delivery with
    | jira d' =>
      simp only [left, right] at same ordered ordered' ⊢
      have value (key : String) (mem : key ∈ ["timestamp", "webhookEvent"]) :
          (d.payload.get key).decoded = (d'.payload.get key).decoded := by
        rw [← ordered key mem, ← ordered' key mem, ← Payload.get_unordered, ← Payload.get_unordered,
          Identity.jira.inj same]
      rw [normalizeJira, normalizeJira, orUnknown_congr (value "timestamp" (by simp)) (value "webhookEvent" (by simp))]
    | google d' =>
      simp only [left, right] at same
      cases same
  | google d =>
    cases right : b.delivery with
    | jira d' =>
      simp only [left, right] at same
      cases same
    | google d' =>
      simp only [left, right] at same ⊢
      rw [(Identity.google.inj same).2]

omit [PyText] in
/-- The first row of a key stays, and further events with the key change nothing. -/
theorem recordProcessedEvent_eq {rows : ProcessedEvents} (configured : databaseUrl ≠ []) (event : InternalEvent) :
    recordProcessedEvent rows databaseUrl event =
      if rows.contains (event.source, event.eventId) then (false, rows)
      else (true, rows.set (event.source, event.eventId) event.payloadHash) := by
  unfold recordProcessedEvent registerEvent Dict.contains
  simp only [configured, if_false]
  cases rows.get? (event.source, event.eventId) with
  | none => rfl
  | some existingHash => by_cases mismatch : existingHash ≠ [] ∧ existingHash ≠ event.payloadHash <;> simp [mismatch]

omit [PyText] in
theorem answered_eq_isSome (a : Arrival) :
    a.answered = ((List.range' 1 maxWebhookRetries).find? fun attempt => !a.failing attempt).isSome := by
  rw [Bool.eq_iff_iff, List.find?_isSome]
  exact List.any_eq_true

theorem report_of_rows {a : Arrival} (configured : databaseUrl ≠ []) (rows : ProcessedEvents) (carries : a.carriesHeaders)
    (accepted : a.answered = true) :
    (a.process payloadHash databaseUrl rows).1.map Prod.fst =
      some (if rows.contains a.key then .duplicate else .processed) := by
  rw [answered_eq_isSome] at accepted
  obtain ⟨attempt, reached⟩ := Option.isSome_iff_exists.mp accepted
  simp only [process, processWithRetry, reached, recordProcessedEvent_eq configured, internalEvent_key carries]
  cases rows.contains a.key <;> rfl

theorem mem_keys_process {a : Arrival} (configured : databaseUrl ≠ []) (rows : ProcessedEvents) (carries : a.carriesHeaders)
    (k : Source × Str) :
    k ∈ (a.process payloadHash databaseUrl rows).2.keys ↔ k ∈ rows.keys ∨ a.answered = true ∧ a.key = k := by
  rw [answered_eq_isSome]
  unfold process processWithRetry
  cases reached : (List.range' 1 maxWebhookRetries).find? fun attempt => !a.failing attempt with
  | none => simp
  | some attempt =>
    simp only [recordProcessedEvent_eq configured, internalEvent_key carries]
    by_cases known : rows.contains a.key = true
    · have member := (rows.contains_iff _).mp known
      simp only [known, if_true]
      grind
    · simp only [known]
      rw [if_neg Bool.false_ne_true, Dict.mem_keys_set]
      grind

theorem mem_keys_processAll (configured : databaseUrl ≠ []) {arrivals : List Arrival}
    (carries : ∀ a ∈ arrivals, a.carriesHeaders) (k : Source × Str) :
    k ∈ (processAll payloadHash databaseUrl arrivals).keys ↔ ∃ a ∈ arrivals, a.answered = true ∧ a.key = k := by
  induction arrivals using List.reverseRecOn with
  | nil => simp [processAll, Dict.keys, Dict.empty]
  | append_singleton arrivals a ih =>
    have earlier := ih fun b there => carries b (List.mem_append_left _ there)
    have own : a.carriesHeaders := carries a (List.mem_append_right _ (List.mem_singleton_self a))
    rw [processAll_concat, mem_keys_process configured _ own, earlier]
    simp only [List.mem_append, List.mem_singleton]
    grind

theorem report_eq_duplicate_iff (configured : databaseUrl ≠ []) {before : List Arrival} {a : Arrival}
    (carries : ∀ b ∈ before, b.carriesHeaders) (own : a.carriesHeaders) (accepted : a.answered = true) :
    report payloadHash databaseUrl before a = some .duplicate ↔ SeenBefore (fun b => b.answered = true) key before a := by
  have known := (Dict.contains_iff (processAll payloadHash databaseUrl before) a.key).trans
    (mem_keys_processAll configured carries a.key)
  unfold report SeenBefore
  rw [report_of_rows configured _ own accepted, ← known]
  cases (processAll payloadHash databaseUrl before).contains a.key <;> simp

end Arrival

open Arrival

/-- Duplicates are reported for what they are exactly when the event ids tell which deliveries have come before. Where
the event ids are read from values whose keys are in order, no two different accepted deliveries share one. -/
theorem reportsDuplicates_iff [PyText] (payloadHash : PyValue → Str) (databaseUrl : Str) (arrivals : List Arrival)
    (configured : databaseUrl ≠ []) (carries : ∀ a ∈ arrivals, a.carriesHeaders) :
    (ReportsDuplicates payloadHash databaseUrl arrivals ↔
        KeyDecides (fun b => b.answered = true) key identity arrivals) ∧
      ((∀ a ∈ arrivals, a.ordered) → (ReportsDuplicates payloadHash databaseUrl arrivals ↔
        arrivals.Pairwise fun b a => b.answered = true → a.answered = true → b.key = a.key → b.identity = a.identity)) := by
  have decided : ReportsDuplicates payloadHash databaseUrl arrivals ↔
      KeyDecides (fun b => b.answered = true) key identity arrivals := by
    constructor
    · rintro reports before a after rfl accepted
      have own := carries a (List.mem_append_right _ List.mem_cons_self)
      rw [← report_eq_duplicate_iff configured (fun b there => carries b (List.mem_append_left _ there)) own accepted]
      exact reports before a after rfl accepted
    · rintro decides before a after rfl accepted
      have own := carries a (List.mem_append_right _ List.mem_cons_self)
      rw [report_eq_duplicate_iff configured (fun b there => carries b (List.mem_append_left _ there)) own accepted]
      exact decides before a after rfl accepted
  refine ⟨decided, fun ordered => ?_⟩
  rw [decided]
  exact keyDecides_iff fun x here y there => key_of_identity (ordered x here) (ordered y there)

section Samples

attribute [local instance] PyText.ascii

def notification (channelId messageNumber : String) : Arrival where
  delivery := .google ⟨.empty, some channelId.toList, some "calendar".toList, some "exists".toList,
    some messageNumber.toList, none⟩
  failing _ := false

def updated : Str × Json := ("webhookEvent".toList, .string "jira:issue_updated".toList)

def timestamp : Str × Json := ("timestamp".toList, .integer 1773655200000)

def issueEvent (payload : Payload) : Arrival where
  delivery := .jira ⟨payload, none, none⟩
  failing _ := false

def issue : Payload := ⟨[updated, timestamp], by decide⟩

def turned : Payload := ⟨[timestamp, updated], by decide⟩

/-- The event comes again with its keys in another order. -/
theorem reportsDuplicates_redelivered :
    ReportsDuplicates (fun _ => "hash".toList) "postgresql".toList
      [notification "first" "1", issueEvent issue, notification "first" "2", notification "first" "1",
        issueEvent turned] := by
  have same : (issueEvent issue).identity = (issueEvent turned).identity :=
    congrArg Identity.jira (Payload.unordered_of_perm (List.Perm.swap ..))
  have apart (channelId messageNumber : String) (payload : Payload) :
      (notification channelId messageNumber).key ≠ (issueEvent payload).key := fun equal => nomatch congrArg Prod.fst equal
  have number : (notification "first" "1").key ≠ (notification "first" "2").key := by decide
  have plain : (issueEvent issue).ordered ∧ (issueEvent turned).ordered := by
    constructor <;> exact List.forall_mem_cons.mpr ⟨rfl, List.forall_mem_singleton.mpr rfl⟩
  apply ((reportsDuplicates_iff _ _ _ (by decide) ?_).2 ?_).mpr
  · simp [apart, (apart _ _ _).symm, number, number.symm, same]
  · simp [notification, issueEvent, carriesHeaders, present]
  · simp only [List.forall_mem_cons, plain]
    simp [notification, ordered]

/-- The first notifications of two channels carry the same number, and the second is reported as a duplicate. -/
theorem channels_collide :
    ¬ ReportsDuplicates (fun _ => "hash".toList) "postgresql".toList [notification "first" "1",
      notification "second" "1"] := by
  intro reports
  have last := reports [notification "first" "1"] (notification "second" "1") [] rfl (by decide)
  have duplicate : report (fun _ => "hash".toList) "postgresql".toList [notification "first" "1"]
      (notification "second" "1") = some .duplicate := by decide
  obtain ⟨earlier, member, -, same⟩ := last.mp duplicate
  rw [List.mem_singleton.mp member] at same
  exact absurd (Identity.google.inj same).1 (by decide)

end Samples

end ClaudeProxy.Webhooks

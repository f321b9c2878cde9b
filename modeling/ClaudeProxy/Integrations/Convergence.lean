import ClaudeProxy.Integrations.SyncConflicts

namespace ClaudeProxy.Integrations

open Kit Providers

namespace ConflictRequest

variable (r : ConflictRequest)

def exchanged : ConflictRequest :=
  { r with
    sourceFields := r.targetFields, targetFields := r.sourceFields
    sourceUpdatedAt := r.targetUpdatedAt, targetUpdatedAt := r.sourceUpdatedAt }

/-- The next sync, with the resolved fields on both sides. -/
def again (resolved : Dict Str PyValue) : ConflictRequest := { r with sourceFields := resolved, targetFields := resolved }

/-- Two values that are there and differ. -/
def Disputed (field : Str) : Prop :=
  (r.sourceValue field).isNone = false ∧ (r.targetValue field).isNone = false ∧
    (r.sourceValue field).eq (r.targetValue field) = false

/-- The later write is asked for and one of the two timestamps lacks a timezone. -/
def MixedTimestamps : Prop :=
  r.policy = .lastWriteWins ∧ ∃ source target, parseDatetime r.sourceUpdatedAt = some source ∧
    parseDatetime r.targetUpdatedAt = some target ∧ source.offset.isSome ≠ target.offset.isSome

/-- No `nan` in the values. -/
def Sound : Prop := (∀ value ∈ r.sourceFields.values, value.Sound) ∧ ∀ value ∈ r.targetFields.values, value.Sound

def takesTarget (field : Str) : Bool :=
  match r.policy with
  | .manual => true
  | .sourceOfTruth => fieldOwner (r.fieldOwners.getD Dict.empty) field = "target".toList
  | .lastWriteWins =>
    match parseDatetime r.sourceUpdatedAt, parseDatetime r.targetUpdatedAt with
    | some source, some target => source.instant < target.instant
    | _, _ => false

def resolvedValue (field : Str) : PyValue :=
  if (r.targetValue field).isNone then r.sourceValue field
  else if (r.sourceValue field).isNone then r.targetValue field
  else if (r.sourceValue field).eq (r.targetValue field) then r.sourceValue field
  else if r.takesTarget field then r.targetValue field else r.sourceValue field

end ConflictRequest

/-- What a run that ends leaves, seen by the other side and by the next sync. -/
structure Converges (service : SyncConflictService) (r : ConflictRequest) (result : ConflictResult) : Prop where
  fields : ∀ field, field ∈ result.resolvedFields.keys ↔ field ∈ r.sourceFields.keys ∨ field ∈ r.targetFields.keys
  symmetric : r.policy = .lastWriteWins → ∀ source target, parseDatetime r.sourceUpdatedAt = some source →
    parseDatetime r.targetUpdatedAt = some target → source.instant ≠ target.instant →
      ∃ other, service.detectAndResolve r.exchanged = .ok other ∧
        (PyValue.dict result.resolvedFields.entries).eq (.dict other.resolvedFields.entries) = true
  settled : ∃ next, service.detectAndResolve (r.again result.resolvedFields) = .ok next ∧ next.conflicts = [] ∧
    next.resolvedFields = result.resolvedFields

section Names

theorem keyLe_trans (a b c : Str) (first : keyLe a b = true) (second : keyLe b c = true) : keyLe a c = true := by
  simp only [keyLe, decide_eq_true_eq] at first second ⊢
  exact List.not_lt.mpr (List.le_trans (List.not_lt.mp first) (List.not_lt.mp second))

theorem keyLe_total (a b : Str) : (keyLe a b || keyLe b a) = true := by
  rw [Bool.or_eq_true]
  simp only [keyLe, decide_eq_true_eq]
  rcases List.le_total a b with below | above
  · exact .inl (List.not_lt.mpr below)
  · exact .inr (List.not_lt.mpr above)

variable (source target : Dict Str PyValue)

theorem mem_fieldNames (field : Str) : field ∈ fieldNames source target ↔ field ∈ source.keys ∨ field ∈ target.keys := by
  rw [fieldNames, List.mem_mergeSort, List.mem_append, List.mem_filter, decide_eq_true_eq]
  tauto

theorem nodup_fieldNames : (fieldNames source target).Nodup := by
  rw [fieldNames, (List.mergeSort_perm _ _).nodup_iff, List.nodup_append]
  refine ⟨source.nodup, target.nodup.filter _, ?_⟩
  rintro a mem _ later rfl
  have absent := of_decide_eq_true (List.mem_filter.mp later).2
  exact absent mem

theorem sorted_fieldNames : (fieldNames source target).Pairwise (keyLe · ·) :=
  List.pairwise_mergeSort keyLe_trans keyLe_total _

theorem fieldNames_self {fields : Dict Str PyValue} (sorted : fields.keys.Pairwise (keyLe · ·)) :
    fieldNames fields fields = fields.keys := by
  have all : fields.keys.filter (· ∉ fields.keys) = [] := by
    rw [List.filter_eq_nil_iff]
    intro key mem
    simp [mem]
  rw [fieldNames, all, List.append_nil, List.mergeSort_of_pairwise sorted]

end Names

namespace ConflictRequest

variable {r : ConflictRequest} {field : Str}

theorem value_of_isNone {value : PyValue} (absent : value.isNone = true) : value = .none := by
  cases value <;> first | rfl | cases absent

theorem resolveField_of_not_disputed (agreed : ¬ r.Disputed field) :
    r.resolveField field = .ok (r.resolvedValue field, none) := by
  unfold resolveField resolvedValue
  unfold Disputed at agreed
  cases source : (r.sourceValue field).isNone <;> cases target : (r.targetValue field).isNone
  · have same : (r.sourceValue field).eq (r.targetValue field) = true := by
      simpa [source, target] using agreed
    simp [source, target, same]
  · simp [source, target]
  · simp [source, target]
  · simp [value_of_isNone source, value_of_isNone target, PyValue.eq, PyValue.isNone]

theorem resolveField_of_disputed (disputed : r.Disputed field) :
    r.resolveField field = do
      let (selectedValue, status) ← resolveFieldValue field (r.sourceValue field) (r.targetValue field) r.policy
        (r.fieldOwners.getD Dict.empty) (parseDatetime r.sourceUpdatedAt) (parseDatetime r.targetUpdatedAt)
      return (selectedValue, some ⟨field, r.sourceValue field, r.targetValue field, status, selectedValue⟩) := by
  obtain ⟨source, target, differ⟩ := disputed
  simp [resolveField, source, target, differ]

theorem resolveField_error (mixed : r.MixedTimestamps) (disputed : r.Disputed field) :
    r.resolveField field = .error .incomparable := by
  obtain ⟨policy, source, target, readSource, readTarget, differ⟩ := mixed
  rw [resolveField_of_disputed disputed, policy, readSource, readTarget]
  simp [resolveFieldValue, notBefore, differ, bind, Except.bind]

theorem resolveFieldValue_ok (comparable : ¬ r.MixedTimestamps) (field : Str) (sourceValue targetValue : PyValue) :
    ∃ status, resolveFieldValue field sourceValue targetValue r.policy (r.fieldOwners.getD Dict.empty)
      (parseDatetime r.sourceUpdatedAt) (parseDatetime r.targetUpdatedAt) =
        .ok (if r.takesTarget field then targetValue else sourceValue, status) := by
  unfold takesTarget resolveFieldValue
  cases policy : r.policy with
  | manual => exact ⟨.opened, rfl⟩
  | sourceOfTruth => exact ⟨.resolved, by simp⟩
  | lastWriteWins =>
    cases readSource : parseDatetime r.sourceUpdatedAt with
    | none => exact ⟨.resolved, rfl⟩
    | some source =>
      cases readTarget : parseDatetime r.targetUpdatedAt with
      | none => exact ⟨.resolved, rfl⟩
      | some target =>
        have same : source.offset.isSome = target.offset.isSome := by
          by_contra different
          exact comparable ⟨policy, source, target, readSource, readTarget, different⟩
        refine ⟨.resolved, ?_⟩
        simp only [notBefore, same, if_true, bind, Except.bind, pure, Except.pure, decide_eq_true_eq]
        by_cases later : source.instant < target.instant
        · rw [if_pos later, if_neg (by omega)]
        · rw [if_neg later, if_pos (by omega)]

theorem resolveField_ok (comparable : ¬ r.MixedTimestamps) (field : Str) :
    ∃ conflict, r.resolveField field = .ok (r.resolvedValue field, conflict) := by
  by_cases disputed : r.Disputed field
  · obtain ⟨status, chosen⟩ := resolveFieldValue_ok comparable field (r.sourceValue field) (r.targetValue field)
    rw [resolveField_of_disputed disputed, chosen]
    obtain ⟨source, target, differ⟩ := disputed
    have value : r.resolvedValue field = if r.takesTarget field then r.targetValue field else r.sourceValue field := by
      simp [resolvedValue, source, target, differ]
    rw [value]
    exact ⟨_, rfl⟩
  · exact ⟨none, resolveField_of_not_disputed disputed⟩

/-- The fields are resolved in turn, each under its own key. -/
theorem resolveFields_ok {fields : List Str} {resolved : Dict Str PyValue} {conflicts : List Conflict}
    (each : ∀ field ∈ fields, ∃ conflict, r.resolveField field = .ok (r.resolvedValue field, conflict))
    (distinct : fields.Nodup) (fresh : ∀ field ∈ fields, field ∉ resolved.keys) :
    ∃ all found, r.resolveFields fields resolved conflicts = .ok (all, found) ∧
      all.entries = resolved.entries ++ (fields.map fun field => (field, r.resolvedValue field)) ∧
      ((∀ field, ¬ r.Disputed field) → found = conflicts) := by
  induction fields generalizing resolved conflicts with
  | nil => exact ⟨resolved, conflicts, rfl, (List.append_nil _).symm, fun _ => rfl⟩
  | cons field rest ih =>
    obtain ⟨here, later⟩ := List.forall_mem_cons.mp each
    obtain ⟨absent, others⟩ := List.nodup_cons.mp distinct
    obtain ⟨new, old⟩ := List.forall_mem_cons.mp fresh
    obtain ⟨conflict, run⟩ := here
    have fresh' : ∀ other ∈ rest, other ∉ (resolved.set field (r.resolvedValue field)).keys := by
      intro other mem there
      rcases (Dict.mem_keys_set _ _ _ _).mp there with rfl | before
      · exact absent mem
      · exact old other mem before
    obtain ⟨all, found, runs, entries, none⟩ := @ih _ (conflicts ++ conflict.toList) later others fresh'
    refine ⟨all, found, ?_, ?_, ?_⟩
    · rw [resolveFields, run]
      exact runs
    · rw [entries, Dict.entries_set_of_absent new, List.append_assoc]
      rfl
    · intro agreed
      rw [resolveField_of_not_disputed (agreed field)] at run
      cases run
      rw [none agreed]
      exact List.append_nil _

theorem resolveFields_error {fields : List Str} {field : Str} (mem : field ∈ fields)
    (error : r.resolveField field = .error .incomparable) (resolved : Dict Str PyValue) (conflicts : List Conflict) :
    ∃ fault, r.resolveFields fields resolved conflicts = .error fault := by
  induction fields generalizing resolved conflicts with
  | nil => cases mem
  | cons first rest ih =>
    rw [resolveFields]
    cases run : r.resolveField first with
    | error fault => exact ⟨fault, rfl⟩
    | ok settled =>
      rcases List.mem_cons.mp mem with rfl | later
      · rw [error] at run
        cases run
      · exact ih later _ _

end ConflictRequest

namespace SyncConflictService

variable {service : SyncConflictService} {r : ConflictRequest}

theorem insertRows_ok (accepts : ∀ row, service.execute row = .ok ()) (rows : List ConflictRow) :
    service.insertRows rows = .ok () := by
  induction rows with
  | nil => rfl
  | cons row rest ih =>
    rw [insertRows, accepts row]
    exact ih

theorem persistConflicts_ok (accepts : ∀ row, service.execute row = .ok ()) (conflicts : List Conflict) :
    service.persistConflicts r conflicts = .ok () := by
  unfold persistConflicts
  split_ifs
  · rfl
  · exact insertRows_ok accepts _

theorem detectAndResolve_ok (accepts : ∀ row, service.execute row = .ok ())
    (each : ∀ field, ∃ conflict, r.resolveField field = .ok (r.resolvedValue field, conflict)) :
    ∃ result, service.detectAndResolve r = .ok result ∧
      result.resolvedFields.entries =
        ((fieldNames r.sourceFields r.targetFields).map fun field => (field, r.resolvedValue field)) ∧
      ((∀ field, ¬ r.Disputed field) → result.conflicts = []) := by
  have fresh : ∀ field ∈ fieldNames r.sourceFields r.targetFields, field ∉ (Dict.empty : Dict Str PyValue).keys :=
    fun _ _ => List.not_mem_nil
  obtain ⟨all, found, run, entries, none⟩ := @ConflictRequest.resolveFields_ok r _ Dict.empty []
    (fun field _ => each field) (nodup_fieldNames r.sourceFields r.targetFields) fresh
  refine ⟨⟨all, found, !(found.filter (·.status = .opened)).isEmpty, r.policy⟩, ?_, entries, none⟩
  rw [detectAndResolve, run]
  simp only [bind, Except.bind, persistConflicts_ok accepts]
  split_ifs <;> rfl

theorem detectAndResolve_error {field : Str} (mixed : r.MixedTimestamps) (disputed : r.Disputed field) :
    ∃ fault, service.detectAndResolve r = .error fault := by
  have mem : field ∈ fieldNames r.sourceFields r.targetFields := by
    rw [mem_fieldNames]
    left
    by_contra absent
    have missing := (Dict.get?_eq_none_iff _ _).mpr absent
    have present := disputed.1
    rw [ConflictRequest.sourceValue, missing] at present
    cases present
  obtain ⟨fault, run⟩ := ConflictRequest.resolveFields_error mem
    (ConflictRequest.resolveField_error mixed disputed) Dict.empty []
  refine ⟨fault, ?_⟩
  rw [detectAndResolve, run]
  rfl

end SyncConflictService

section Values

variable {r : ConflictRequest}

theorem sound_get? {fields : Dict Str PyValue} (sound : ∀ value ∈ fields.values, value.Sound) (field : Str) :
    ((fields.get? field).getD .none).Sound := by
  cases found : fields.get? field with
  | none => trivial
  | some value => exact sound value (Dict.mem_values_of_get? _ found)

theorem sound_resolvedValue (sound : r.Sound) (field : Str) : (r.resolvedValue field).Sound := by
  have source : (r.sourceValue field).Sound := sound_get? sound.1 field
  have target : (r.targetValue field).Sound := sound_get? sound.2 field
  unfold ConflictRequest.resolvedValue
  split_ifs <;> assumption

theorem disputed_exchanged (sound : r.Sound) (field : Str) : r.exchanged.Disputed field ↔ r.Disputed field := by
  have comm := PyValue.eq_comm (sound_get? sound.1 field) (sound_get? sound.2 field)
  unfold ConflictRequest.Disputed
  simp only [ConflictRequest.sourceValue, ConflictRequest.targetValue, ConflictRequest.exchanged, comm]
  tauto

theorem mixedTimestamps_exchanged : r.exchanged.MixedTimestamps ↔ r.MixedTimestamps := by
  constructor
  · rintro ⟨policy, source, target, readSource, readTarget, differ⟩
    exact ⟨policy, target, source, readTarget, readSource, differ.symm⟩
  · rintro ⟨policy, source, target, readSource, readTarget, differ⟩
    exact ⟨policy, target, source, readTarget, readSource, differ.symm⟩

/-- Of two distinct instants both sides take the later one. -/
theorem takesTarget_exchanged {source target : DateTime} (policy : r.policy = .lastWriteWins)
    (readSource : parseDatetime r.sourceUpdatedAt = some source) (readTarget : parseDatetime r.targetUpdatedAt = some target)
    (distinct : source.instant ≠ target.instant) (field : Str) : r.exchanged.takesTarget field = !r.takesTarget field := by
  simp only [ConflictRequest.takesTarget, ConflictRequest.exchanged, policy, readSource, readTarget]
  by_cases earlier : source.instant < target.instant
  · have other : ¬ target.instant < source.instant := by omega
    simp [earlier, other]
  · have other : target.instant < source.instant := by omega
    simp [earlier, other]

theorem resolvedValue_exchanged {source target : DateTime} (sound : r.Sound) (policy : r.policy = .lastWriteWins)
    (readSource : parseDatetime r.sourceUpdatedAt = some source) (readTarget : parseDatetime r.targetUpdatedAt = some target)
    (distinct : source.instant ≠ target.instant) (field : Str) :
    (r.resolvedValue field).eq (r.exchanged.resolvedValue field) = true := by
  have opposite := takesTarget_exchanged policy readSource readTarget distinct field
  have soundSource : (r.sourceValue field).Sound := sound_get? sound.1 field
  have soundTarget : (r.targetValue field).Sound := sound_get? sound.2 field
  have comm := PyValue.eq_comm soundSource soundTarget
  have selfSource := PyValue.eq_self _ soundSource
  have selfTarget := PyValue.eq_self _ soundTarget
  have sources : r.exchanged.sourceValue field = r.targetValue field := rfl
  have targets : r.exchanged.targetValue field = r.sourceValue field := rfl
  unfold ConflictRequest.resolvedValue
  rw [sources, targets, opposite]
  cases source : (r.sourceValue field).isNone <;> cases target : (r.targetValue field).isNone
  · cases same : (r.sourceValue field).eq (r.targetValue field) with
    | true => simp [← comm, same]
    | false => cases r.takesTarget field <;> simp [← comm, same, selfSource, selfTarget]
  · simp [selfSource]
  · simp [selfTarget]
  · simp [ConflictRequest.value_of_isNone source, ConflictRequest.value_of_isNone target, PyValue.eq, PyValue.isNone]

end Values

section Runs

variable {service : SyncConflictService} {r : ConflictRequest} {result : ConflictResult}

theorem keys_of_entries {fields : Dict Str PyValue} {names : List Str} {value : Str → PyValue}
    (entries : fields.entries = names.map fun name => (name, value name)) : fields.keys = names := by
  rw [Dict.keys, entries, List.map_map]
  exact List.map_id names

theorem symmetric_of_entries {other : ConflictResult}
    (distinct : ∀ field, (r.resolvedValue field).eq (r.exchanged.resolvedValue field) = true)
    (entries : result.resolvedFields.entries =
      (fieldNames r.sourceFields r.targetFields).map fun field => (field, r.resolvedValue field))
    (entries' : other.resolvedFields.entries =
      (fieldNames r.targetFields r.sourceFields).map fun field => (field, r.exchanged.resolvedValue field)) :
    (PyValue.dict result.resolvedFields.entries).eq (.dict other.resolvedFields.entries) = true := by
  have perm : (fieldNames r.sourceFields r.targetFields).Perm (fieldNames r.targetFields r.sourceFields) := by
    rw [List.perm_ext_iff_of_nodup (nodup_fieldNames _ _) (nodup_fieldNames _ _)]
    intro field
    rw [mem_fieldNames, mem_fieldNames]
    exact or_comm
  rw [PyValue.eq_dict_iff]
  constructor
  · rw [entries, entries', List.length_map, List.length_map]
    exact perm.length_eq
  · intro entry mem
    rw [entries] at mem
    obtain ⟨field, there, rfl⟩ := List.mem_map.mp mem
    refine ⟨r.exchanged.resolvedValue field, ?_, distinct field⟩
    rw [PyValue.lookup_eq_some_iff other.resolvedFields.nodup, entries']
    exact List.mem_map.mpr ⟨field, perm.mem_iff.mp there, rfl⟩

/-- The resolved fields on both sides are left as they are. -/
theorem settled_of_entries (accepts : ∀ row, service.execute row = .ok ()) (sound : r.Sound)
    (entries : result.resolvedFields.entries =
      (fieldNames r.sourceFields r.targetFields).map fun field => (field, r.resolvedValue field)) :
    ∃ next, service.detectAndResolve (r.again result.resolvedFields) = .ok next ∧ next.conflicts = [] ∧
      next.resolvedFields = result.resolvedFields := by
  have keys := keys_of_entries entries
  have value : ∀ field value, (field, value) ∈ result.resolvedFields.entries → value.Sound := by
    intro field value mem
    rw [entries] at mem
    obtain ⟨name, -, same⟩ := List.mem_map.mp mem
    cases same
    exact sound_resolvedValue sound _
  have soundValues : ∀ value ∈ result.resolvedFields.values, value.Sound := by
    intro found mem
    obtain ⟨entry, there, rfl⟩ := List.mem_map.mp mem
    exact value entry.1 entry.2 there
  have self : ∀ field, (r.again result.resolvedFields).resolvedValue field =
    (result.resolvedFields.get? field).getD .none := by
    intro field
    have both : (r.again result.resolvedFields).targetValue field = (r.again result.resolvedFields).sourceValue field := rfl
    have first : (r.again result.resolvedFields).sourceValue field = (result.resolvedFields.get? field).getD .none := rfl
    rw [ConflictRequest.resolvedValue, both, first]
    split_ifs <;> rfl
  have agreed : ∀ field, ¬ (r.again result.resolvedFields).Disputed field := by
    rintro field ⟨-, -, differ⟩
    have same : ((r.again result.resolvedFields).sourceValue field).eq
      ((r.again result.resolvedFields).targetValue field) = true :=
      PyValue.eq_self _ (sound_get? soundValues field)
    rw [same] at differ
    cases differ
  obtain ⟨next, run, next_entries, none⟩ :=
    SyncConflictService.detectAndResolve_ok (r := r.again result.resolvedFields) accepts
    fun field => ⟨_, ConflictRequest.resolveField_of_not_disputed (agreed field)⟩
  refine ⟨next, run, none agreed, ?_⟩
  have sorted : result.resolvedFields.keys.Pairwise (keyLe · ·) := keys ▸ sorted_fieldNames _ _
  have names : fieldNames (r.again result.resolvedFields).sourceFields (r.again result.resolvedFields).targetFields =
      result.resolvedFields.keys := fieldNames_self sorted
  have same : next.resolvedFields.entries = result.resolvedFields.entries := by
    rw [next_entries, names, Dict.keys, List.map_map]
    conv_rhs => rw [← List.map_id result.resolvedFields.entries]
    apply List.map_congr_left
    intro entry mem
    have found := (Dict.get?_eq_some_iff result.resolvedFields entry.1 entry.2).mpr mem
    rw [Function.comp_apply, self, found]
    rfl
  rcases next with ⟨⟨nextEntries, nodup⟩, conflicts, unresolved, policy⟩
  cases same
  rfl

/-- Conflict resolution converges unless the later write is asked for, one timestamp has a timezone and the other none,
    and there is a field to decide. -/
theorem converges_iff (service : SyncConflictService) (r : ConflictRequest) (accepts : ∀ row, service.execute row = .ok ())
    (sound : r.Sound) :
    (∃ result, service.detectAndResolve r = .ok result ∧ Converges service r result) ↔
      ¬ (r.MixedTimestamps ∧ ∃ field, r.Disputed field) := by
  constructor
  · rintro ⟨result, run, -⟩ ⟨mixed, field, disputed⟩
    obtain ⟨fault, error⟩ := @SyncConflictService.detectAndResolve_error service r field mixed disputed
    rw [error] at run
    cases run
  · intro condition
    have each : ∀ field, ∃ conflict, r.resolveField field = .ok (r.resolvedValue field, conflict) := by
      intro field
      by_cases disputed : r.Disputed field
      · exact ConflictRequest.resolveField_ok (fun mixed => condition ⟨mixed, field, disputed⟩) field
      · exact ⟨none, ConflictRequest.resolveField_of_not_disputed disputed⟩
    have each' : ∀ field, ∃ conflict, r.exchanged.resolveField field = .ok (r.exchanged.resolvedValue field, conflict) := by
      intro field
      by_cases disputed : r.Disputed field
      · apply ConflictRequest.resolveField_ok
        rw [mixedTimestamps_exchanged]
        exact fun mixed => condition ⟨mixed, field, disputed⟩
      · have agreed : ¬ r.exchanged.Disputed field := fun other => disputed ((disputed_exchanged sound field).mp other)
        exact ⟨none, ConflictRequest.resolveField_of_not_disputed agreed⟩
    obtain ⟨result, run, entries, -⟩ := SyncConflictService.detectAndResolve_ok accepts each
    obtain ⟨other, run', entries', -⟩ := SyncConflictService.detectAndResolve_ok accepts each'
    refine ⟨result, run, ?_, ?_, settled_of_entries accepts sound entries⟩
    · intro field
      rw [keys_of_entries entries, mem_fieldNames]
    · intro policy source target readSource readTarget distinct
      exact ⟨other, run', symmetric_of_entries
        (resolvedValue_exchanged sound policy readSource readTarget distinct) entries entries'⟩

end Runs

def summaryRequest (sourceUpdatedAt targetUpdatedAt : String) : ConflictRequest where
  workspaceId := 1
  sourceSystem := "jira".toList
  targetSystem := "google_calendar".toList
  entityRef := "OPS-18".toList
  sourceFields := Dict.empty.set "summary".toList (.string "Updated from Jira".toList)
  targetFields := Dict.empty.set "summary".toList (.string "Updated from Calendar".toList)
  policy := .lastWriteWins
  fieldOwners := none
  sourceUpdatedAt := some sourceUpdatedAt.toList
  targetUpdatedAt := some targetUpdatedAt.toList
  persistConflicts := false

def withoutDatabase : SyncConflictService := ⟨[], fun _ => .ok ()⟩

theorem sound_summaryRequest (sourceUpdatedAt targetUpdatedAt : String) :
    (summaryRequest sourceUpdatedAt targetUpdatedAt).Sound := by
  constructor
  · intro value mem
    rw [List.mem_singleton.mp mem]
    trivial
  · intro value mem
    rw [List.mem_singleton.mp mem]
    trivial

theorem disputed_summaryRequest (sourceUpdatedAt targetUpdatedAt : String) :
    (summaryRequest sourceUpdatedAt targetUpdatedAt).Disputed "summary".toList := by
  refine ⟨rfl, rfl, ?_⟩
  show (PyValue.string "Updated from Jira".toList).eq (.string "Updated from Calendar".toList) = false
  decide

theorem converges_summary :
    ∃ result, withoutDatabase.detectAndResolve
      (summaryRequest "2026-03-16T09:00:00Z" "2026-03-16T08:00:00+00:00") = .ok result ∧
      Converges withoutDatabase (summaryRequest "2026-03-16T09:00:00Z" "2026-03-16T08:00:00+00:00") result := by
  apply (converges_iff withoutDatabase _ (fun _ => rfl) (sound_summaryRequest _ _)).mpr
  rintro ⟨⟨-, source, target, readSource, readTarget, differ⟩, -⟩
  have aware : (parseDatetime (some "2026-03-16T09:00:00Z".toList)).map (·.offset.isSome) =
      (parseDatetime (some "2026-03-16T08:00:00+00:00".toList)).map (·.offset.isSome) := by decide
  rw [show parseDatetime (some "2026-03-16T09:00:00Z".toList) = some source from readSource,
    show parseDatetime (some "2026-03-16T08:00:00+00:00".toList) = some target from readTarget] at aware
  exact differ (Option.some.inj aware)

/-- A timezone on one side only. -/
theorem not_converges : ¬ ∃ result,
    withoutDatabase.detectAndResolve (summaryRequest "2026-03-16T09:00:00Z" "2026-03-16T08:00:00") = .ok result ∧
      Converges withoutDatabase (summaryRequest "2026-03-16T09:00:00Z" "2026-03-16T08:00:00") result := by
  rintro ⟨result, run, -⟩
  have aware : (parseDatetime (some "2026-03-16T09:00:00Z".toList)).map (·.offset.isSome) = some true := by decide
  have naive : (parseDatetime (some "2026-03-16T08:00:00".toList)).map (·.offset.isSome) = some false := by decide
  obtain ⟨source, readSource, withZone⟩ := Option.map_eq_some_iff.mp aware
  obtain ⟨target, readTarget, without⟩ := Option.map_eq_some_iff.mp naive
  have mixed : (summaryRequest "2026-03-16T09:00:00Z" "2026-03-16T08:00:00").MixedTimestamps :=
    ⟨rfl, source, target, readSource, readTarget, by rw [withZone, without]; exact Bool.noConfusion⟩
  obtain ⟨fault, error⟩ :=
    @SyncConflictService.detectAndResolve_error withoutDatabase _ _ mixed (disputed_summaryRequest _ _)
  rw [error] at run
  cases run

end ClaudeProxy.Integrations

import ClaudeProxy.Api.Effects
import ClaudeProxy.Api.WorkspaceScope
import ClaudeProxy.Kit.Machine
import ClaudeProxy.Kit.SerialTable

namespace ClaudeProxy.Api

open Kit Providers
open Automation (AutomationRow Time)

namespace Database

def workspaceTable (db : Database) : SerialTable WorkspaceRow := ⟨db.workspaces, db.nextWorkspace⟩

def userTable (db : Database) : SerialTable UserRow := ⟨db.users, db.nextUser⟩

def taskTable (db : Database) : SerialTable TaskRow := ⟨db.tasks, db.nextTask⟩

def automationTable (db : Database) : SerialTable AutomationRow := ⟨db.automations, db.nextAutomation⟩

/-- The constraints of the tables, and those that only the code keeps. -/
structure Sound (db : Database) : Prop where
  workspaces_serial : db.workspaceTable.Serial WorkspaceRow.id
  users_serial : db.userTable.Serial UserRow.id
  tasks_serial : db.taskTable.Serial TaskRow.id
  automations_serial : db.automationTable.Serial AutomationRow.id
  slugs : (db.workspaces.map WorkspaceRow.slug).Nodup
  emails : (db.users.map UserRow.email).Nodup
  names : (db.automations.map fun row => (row.workspaceId, row.name)).Nodup
  owners : ∀ row ∈ db.workspaces, ∀ owner ∈ row.ownerUserId, ∃ user ∈ db.users, user.id = owner
  task_workspaces : ∀ row ∈ db.tasks, ∃ workspace ∈ db.workspaces, workspace.id = row.workspaceId
  automation_workspaces : ∀ row ∈ db.automations, ∃ workspace ∈ db.workspaces, workspace.id = row.workspaceId
  statuses : ∀ row ∈ db.tasks, row.status ∈ allowedStatuses ∧ row.priority ∈ allowedPriorities
  titles : ∀ row ∈ db.tasks, row.title.length ≤ 300

def empty : Database := ⟨[], [], [], [], 1, 1, 1, 1⟩

theorem sound_empty : empty.Sound where
  workspaces_serial := .empty 1
  users_serial := .empty 1
  tasks_serial := .empty 1
  automations_serial := .empty 1
  slugs := .nil
  emails := .nil
  names := .nil
  owners := List.forall_mem_nil _
  task_workspaces := List.forall_mem_nil _
  automation_workspaces := List.forall_mem_nil _
  statuses := List.forall_mem_nil _
  titles := List.forall_mem_nil _

end Database

/-- What is known of the titles in a call that a route accepts. -/
def Call.TitlesFit : Call → Prop
  | .createTask body => body.title.length ≤ 300
  | .updateTask _ body => ∀ title ∈ body.title, title.length ≤ 300
  | _ => True

section Titles

variable {r : Runtime} {req : Request} {call : Call}

theorem length_of_requiredText {members : Members} {key : String} {bounds : TextBounds} {text : Str}
    (given : requiredText members key bounds = some text) : text.length ≤ bounds.max := by
  unfold requiredText at given
  split at given
  · split_ifs at given with accepted
    cases given
    simp only [TextBounds.accepts, Bool.and_eq_true, decide_eq_true_eq] at accepted
    exact accepted.2
  · cases given

theorem length_of_optionalText {members : Members} {key : String} {bounds : TextBounds} {found : Option Str}
    (given : optionalText members key (some bounds) = some found) : ∀ text ∈ found, text.length ≤ bounds.max := by
  unfold optionalText at given
  split at given
  · cases given
    exact fun text none => by cases none
  · cases given
    exact fun text none => by cases none
  · split_ifs at given with accepted
    cases given
    intro text same
    cases same
    simp only [Option.all_some, TextBounds.accepts, Bool.and_eq_true, decide_eq_true_eq] at accepted
    exact accepted.2
  · cases given

theorem titlesFit_of_taskRoute (routed : taskRoute r req = some call) : call.TitlesFit := by
  unfold taskRoute at routed
  split at routed
  · split at routed
    · simp only [Option.bind_eq_bind, Option.bind_eq_some_iff, Option.pure_def] at routed
      obtain ⟨workspaceId, _, limit, _, offset, _, same⟩ := routed
      cases same
      trivial
    · split at routed
      · obtain ⟨body, parsed, rfl⟩ := Option.map_eq_some_iff.mp routed
        obtain ⟨members, -, parsed⟩ := Option.bind_eq_some_iff.mp parsed
        simp only [TaskCreateRequest.parse, Option.bind_eq_bind, Option.bind_eq_some_iff, Option.pure_def] at parsed
        obtain ⟨title, given, description, _, workspaceId, _, same⟩ := parsed
        cases same
        exact length_of_requiredText given
      · cases routed
  · simp only [Option.bind_eq_bind, Option.bind_eq_some_iff] at routed
    obtain ⟨taskId, -, routed⟩ := routed
    split at routed
    · obtain ⟨body, parsed, rfl⟩ := Option.map_eq_some_iff.mp routed
      obtain ⟨members, -, parsed⟩ := Option.bind_eq_some_iff.mp parsed
      simp only [TaskUpdateRequest.parse, Option.bind_eq_bind, Option.bind_eq_some_iff, Option.pure_def] at parsed
      obtain ⟨workspaceId, _, title, given, description, _, status, _, priority, _, same⟩ := parsed
      cases same
      exact length_of_optionalText given
    · split at routed
      · obtain ⟨workspaceId, -, rfl⟩ := Option.map_eq_some_iff.mp routed
        trivial
      · cases routed

theorem titlesFit_of_workspaceRoute (routed : workspaceRoute r req = some call) : call.TitlesFit := by
  unfold workspaceRoute at routed
  split at routed
  · split at routed
    · simp only [Option.bind_eq_bind, Option.bind_eq_some_iff, Option.pure_def] at routed
      obtain ⟨limit, _, offset, _, same⟩ := routed
      cases same
      trivial
    · split at routed
      · obtain ⟨body, -, rfl⟩ := Option.map_eq_some_iff.mp routed
        trivial
      · cases routed
  · simp only [Option.bind_eq_bind, Option.bind_eq_some_iff] at routed
    obtain ⟨workspaceId, -, routed⟩ := routed
    split at routed
    · cases routed
      trivial
    · split at routed
      · obtain ⟨body, -, rfl⟩ := Option.map_eq_some_iff.mp routed
        trivial
      · split at routed
        · cases routed
          trivial
        · cases routed

theorem titlesFit_of_automationRoute (routed : automationRoute r req = some call) : call.TitlesFit := by
  unfold automationRoute at routed
  split at routed
  · split at routed
    · simp only [Option.bind_eq_bind, Option.bind_eq_some_iff, Option.pure_def] at routed
      obtain ⟨workspaceId, _, enabled, _, limit, _, offset, _, same⟩ := routed
      cases same
      trivial
    · split at routed
      · obtain ⟨body, -, rfl⟩ := Option.map_eq_some_iff.mp routed
        trivial
      · cases routed
  · simp only [Option.bind_eq_bind, Option.bind_eq_some_iff] at routed
    obtain ⟨automationId, -, routed⟩ := routed
    split at routed
    · obtain ⟨body, -, rfl⟩ := Option.map_eq_some_iff.mp routed
      trivial
    · split at routed
      · obtain ⟨workspaceId, -, rfl⟩ := Option.map_eq_some_iff.mp routed
        trivial
      · cases routed

theorem titlesFit_of_route (routed : route r req = some call) : call.TitlesFit := by
  simp only [route, Option.or_eq_some_iff] at routed
  rcases routed with (workspace | ⟨-, task⟩) | ⟨-, automation⟩
  · exact titlesFit_of_workspaceRoute workspace
  · exact titlesFit_of_taskRoute task
  · exact titlesFit_of_automationRoute automation

end Titles

section Writes

variable {r : Runtime} {now : Time} {db after : Database} {call : Call}

theorem length_strip_le (text : Str) : (strip text).length ≤ text.length := by
  unfold strip
  rw [List.length_reverse]
  have inner := (List.dropWhile_suffix isSpace (l := (text.dropWhile isSpace).reverse)).length_le
  rw [List.length_reverse] at inner
  exact Nat.le_trans inner (List.dropWhile_suffix isSpace).length_le

theorem find?_id {ρ : Type} {rows : List ρ} {p : ρ → Bool} {row : ρ} (found : rows.find? p = some row) :
    row ∈ rows ∧ p row = true :=
  ⟨List.mem_of_find?_eq_some found, List.find?_some found⟩

/-- Each call is at most one statement on each of the tables. -/
structure Statements (db after : Database) : Prop where
  workspaces : db.workspaceTable.Written WorkspaceRow.id (fun _ => ()) after.workspaceTable
  users : db.userTable.Written UserRow.id UserRow.email after.userTable
  tasks : db.taskTable.Written TaskRow.id TaskRow.workspaceId after.taskTable
  automations : db.automationTable.Written AutomationRow.id AutomationRow.workspaceId after.automationTable

theorem statements_refl (db : Database) : Statements db db := ⟨.keep, .keep, .keep, .keep⟩

def ownerEmail (r : Runtime) (body : WorkspaceCreateRequest) : Str := r.lower (strip body.ownerEmail)

def renamedOwner (r : Runtime) (body : WorkspaceCreateRequest) (row : UserRow) : UserRow :=
  if row.email = ownerEmail r body then { row with displayName := strip body.ownerDisplayName } else row

theorem renamedOwner_id (r : Runtime) (body : WorkspaceCreateRequest) (row : UserRow) :
    (renamedOwner r body row).id = row.id ∧ (renamedOwner r body row).email = row.email := by
  unfold renamedOwner
  split_ifs <;> exact ⟨rfl, rfl⟩

/-- The owner is a user of before, or a new one. -/
theorem upsertOwner_cases (r : Runtime) (db : Database) (body : WorkspaceCreateRequest) :
    (∃ user ∈ db.users, db.upsertOwner r body = (user.id, { db with users := db.users.map (renamedOwner r body) })) ∨
    ((∀ user ∈ db.users, user.email ≠ ownerEmail r body) ∧ db.upsertOwner r body = (db.nextUser, { db with
      users := db.users ++ [⟨db.nextUser, ownerEmail r body, strip body.ownerDisplayName⟩], nextUser := db.nextUser + 1 })) := by
  unfold Database.upsertOwner Database.upsertUser
  cases found : db.users.find? (·.email = r.lower (strip body.ownerEmail)) with
  | some user => exact .inl ⟨user, (find?_id found).1, rfl⟩
  | none =>
    have free : ∀ user ∈ db.users, user.email ≠ r.lower (strip body.ownerEmail) := by simpa using found
    exact .inr ⟨free, rfl⟩

theorem users_upsertOwner (r : Runtime) (db : Database) (body : WorkspaceCreateRequest) :
    db.userTable.Written UserRow.id UserRow.email (db.upsertOwner r body).2.userTable := by
  rcases upsertOwner_cases r db body with ⟨user, -, upserted⟩ | ⟨-, upserted⟩
  · rw [upserted]
    exact .update (renamedOwner r body) fun row _ => renamedOwner_id r body row
  · rw [upserted]
    exact .insert _ rfl

theorem upsertOwner_frame (r : Runtime) (db : Database) (body : WorkspaceCreateRequest) :
    (db.upsertOwner r body).2.tasks = db.tasks ∧ (db.upsertOwner r body).2.nextTask = db.nextTask ∧
      (db.upsertOwner r body).2.automations = db.automations ∧
      (db.upsertOwner r body).2.nextAutomation = db.nextAutomation ∧
      (db.upsertOwner r body).2.nextWorkspace = db.nextWorkspace := by
  rcases upsertOwner_cases r db body with ⟨user, -, upserted⟩ | ⟨-, upserted⟩ <;>
    · rw [upserted]
      exact ⟨rfl, rfl, rfl, rfl, rfl⟩

/-- The id that is returned is a user's afterwards, and every user of before is still there. -/
theorem upsertOwner_users (r : Runtime) (db : Database) (body : WorkspaceCreateRequest) :
    (∃ user ∈ (db.upsertOwner r body).2.users, user.id = (db.upsertOwner r body).1) ∧
      ∀ user ∈ db.users, ∃ later ∈ (db.upsertOwner r body).2.users, later.id = user.id := by
  rcases upsertOwner_cases r db body with ⟨user, there, upserted⟩ | ⟨-, upserted⟩
  · rw [upserted]
    have kept : ∀ row ∈ db.users, ∃ later ∈ db.users.map (renamedOwner r body), later.id = row.id :=
      fun row mem => ⟨_, List.mem_map_of_mem mem, (renamedOwner_id r body row).1⟩
    exact ⟨kept user there, kept⟩
  · rw [upserted]
    exact ⟨⟨_, List.mem_append_right _ (List.mem_singleton.mpr rfl), rfl⟩,
      fun user mem => ⟨user, List.mem_append_left _ mem, rfl⟩⟩

theorem emails_upsertOwner (r : Runtime) {db : Database} (body : WorkspaceCreateRequest)
    (emails : (db.users.map UserRow.email).Nodup) : ((db.upsertOwner r body).2.users.map UserRow.email).Nodup := by
  rcases upsertOwner_cases r db body with ⟨user, -, upserted⟩ | ⟨free, upserted⟩
  · rw [upserted]
    have same : (db.users.map (renamedOwner r body)).map UserRow.email = db.users.map UserRow.email := by
      rw [List.map_map]
      exact List.map_congr_left fun row _ => (renamedOwner_id r body row).2
    exact same ▸ emails
  · rw [upserted]
    show ((db.users ++ [_]).map UserRow.email).Nodup
    rw [List.map_append, List.map_singleton]
    refine List.nodup_append.mpr ⟨emails, List.nodup_singleton _, ?_⟩
    intro email mem other last same
    obtain ⟨user, there, rfl⟩ := List.mem_map.mp mem
    exact free user there (same.trans (List.mem_singleton.mp last))

/-- Of a slug there is one row. -/
theorem Database.Sound.eq_of_slug (sound : db.Sound) {first second : WorkspaceRow} (here : first ∈ db.workspaces)
    (there : second ∈ db.workspaces) (same : first.slug = second.slug) : first = second :=
  List.inj_on_of_nodup_map sound.slugs here there same

theorem statements_of_effect (sound : db.Sound) (effect : Effect r now db call after) : Statements db after := by
  cases effect with
  | listWorkspaces | getWorkspace | listTasks | listAutomations => exact statements_refl db
  | insertWorkspace body free =>
    obtain ⟨tasks, nextTask, automations, nextAutomation, -⟩ := upsertOwner_frame r db body
    refine ⟨.insert _ rfl, users_upsertOwner r db body, ?_, ?_⟩
    · show db.taskTable.Written _ _ ⟨(db.upsertOwner r body).2.tasks, (db.upsertOwner r body).2.nextTask⟩
      rw [tasks, nextTask]
      exact .keep
    · show db.automationTable.Written _ _ ⟨(db.upsertOwner r body).2.automations, (db.upsertOwner r body).2.nextAutomation⟩
      rw [automations, nextAutomation]
      exact .keep
  | replaceWorkspace body row found =>
    obtain ⟨tasks, nextTask, automations, nextAutomation, nextWorkspace⟩ := upsertOwner_frame r db body
    obtain ⟨here, slug⟩ := find?_id found
    refine ⟨?_, users_upsertOwner r db body, ?_, ?_⟩
    · show db.workspaceTable.Written _ _ ⟨_, (db.upsertOwner r body).2.nextWorkspace⟩
      rw [nextWorkspace]
      refine .update _ fun other mem => ⟨?_, rfl⟩
      split_ifs with same
      · have one : row = other := sound.eq_of_slug here mem ((of_decide_eq_true slug).trans same.symm)
        show row.id = other.id
        rw [one]
      · rfl
    · show db.taskTable.Written _ _ ⟨(db.upsertOwner r body).2.tasks, (db.upsertOwner r body).2.nextTask⟩
      rw [tasks, nextTask]
      exact .keep
    · show db.automationTable.Written _ _ ⟨(db.upsertOwner r body).2.automations, (db.upsertOwner r body).2.nextAutomation⟩
      rw [automations, nextAutomation]
      exact .keep
  | updateWorkspace workspaceId body row found free owner =>
    refine { statements_refl db with workspaces := .update _ fun other mem => ⟨?_, rfl⟩ }
    split_ifs with same
    · exact (of_decide_eq_true (find?_id found).2).trans same.symm
    · rfl
  | deleteWorkspace workspaceId => exact ⟨.delete _, .keep, .delete _, .delete _⟩
  | createTask body there => exact { statements_refl db with tasks := .insert _ rfl }
  | updateTask taskId body row allowed found =>
    have own := of_decide_eq_true (find?_id found).2
    refine { statements_refl db with tasks := .update _ fun other mem => ?_ }
    split_ifs with same
    · exact ⟨own.1.trans same.1.symm, own.2.trans same.2.symm⟩
    · exact ⟨rfl, rfl⟩
  | deleteTask taskId workspaceId => exact { statements_refl db with tasks := .delete _ }
  | createAutomation body there free => exact { statements_refl db with automations := .insert _ rfl }
  | updateAutomation automationId body row found free =>
    have own := of_decide_eq_true (find?_id found).2
    refine { statements_refl db with automations := .update _ fun other mem => ?_ }
    split_ifs with same
    · exact ⟨own.1.trans same.1.symm, own.2.trans same.2.symm⟩
    · exact ⟨rfl, rfl⟩
  | deleteAutomation automationId workspaceId => exact { statements_refl db with automations := .delete _ }

theorem nodup_map_map {ρ κ : Type} {rows : List ρ} {key : ρ → κ} {change : ρ → ρ} (nodup : (rows.map key).Nodup)
    (injective : ∀ first ∈ rows, ∀ second ∈ rows, key (change first) = key (change second) → key first = key second) :
    ((rows.map change).map key).Nodup := by
  rw [List.map_map]
  refine List.Nodup.map_on ?_ (List.Nodup.of_map _ nodup)
  intro first here second there same
  exact List.inj_on_of_nodup_map nodup here there (injective first here second there same)

theorem nodup_map_concat {ρ κ : Type} {rows : List ρ} {key : ρ → κ} {row : ρ} (nodup : (rows.map key).Nodup)
    (free : ∀ other ∈ rows, key other ≠ key row) : ((rows ++ [row]).map key).Nodup := by
  rw [List.map_append, List.map_singleton]
  refine List.nodup_append.mpr ⟨nodup, List.nodup_singleton _, ?_⟩
  intro first mem second last same
  obtain ⟨other, there, rfl⟩ := List.mem_map.mp mem
  exact free other there (same.trans (List.mem_singleton.mp last))

theorem slugs_of_effect (sound : db.Sound) (effect : Effect r now db call after) :
    (after.workspaces.map WorkspaceRow.slug).Nodup := by
  cases effect with
  | insertWorkspace body free => exact nodup_map_concat sound.slugs free
  | replaceWorkspace body row found =>
    refine nodup_map_map sound.slugs ?_
    have slug := of_decide_eq_true (find?_id found).2
    have same : ∀ other : WorkspaceRow, (if other.slug = slugOf r body then
        { row with name := strip body.name, ownerUserId := some (db.upsertOwner r body).1 } else other).slug = other.slug := by
      intro other
      split_ifs with own
      · exact slug.trans own.symm
      · rfl
    intro first _ second _ eq
    rwa [same, same] at eq
  | updateWorkspace workspaceId body row found free owner =>
    refine nodup_map_map sound.slugs ?_
    have own := of_decide_eq_true (find?_id found).2
    have apart : ∀ other ∈ db.workspaces, other.id ≠ workspaceId → other.slug ≠ (body.applied r row).slug :=
      fun other mem different => free other mem (own.symm ▸ different)
    intro first here second there eq
    split_ifs at eq with one two two
    · exact congrArg WorkspaceRow.slug (sound.workspaces_serial.eq_of_id here there (one.trans two.symm))
    · exact absurd eq.symm (apart second there two)
    · exact absurd eq (apart first here one)
    · exact eq
  | deleteWorkspace workspaceId => exact sound.slugs.sublist (List.filter_sublist.map _)
  | _ => exact sound.slugs

theorem names_of_effect (sound : db.Sound) (effect : Effect r now db call after) :
    (after.automations.map fun row => (row.workspaceId, row.name)).Nodup := by
  cases effect with
  | insertWorkspace body | replaceWorkspace body =>
    show ((db.upsertOwner r body).2.automations.map _).Nodup
    rw [(upsertOwner_frame r db body).2.2.1]
    exact sound.names
  | createAutomation body there free =>
    refine nodup_map_concat sound.names fun other mem same => ?_
    exact free other mem (congrArg Prod.fst same) (congrArg Prod.snd same)
  | updateAutomation automationId body row found free =>
    obtain ⟨here, own⟩ := find?_id found
    have own := of_decide_eq_true own
    have apart : ∀ other ∈ db.automations, ¬(other.id = automationId ∧ other.workspaceId = body.workspaceId) →
        (other.workspaceId, other.name) ≠ ((body.applied now row).workspaceId, (body.applied now row).name) := by
      intro other mem different same
      have near : other.workspaceId = row.workspaceId := congrArg Prod.fst same
      refine free other mem (fun sameId => different ⟨sameId.trans own.1, near.trans own.2⟩) near (congrArg Prod.snd same)
    refine nodup_map_map sound.names ?_
    intro first here second there eq
    split_ifs at eq with one two two
    · rw [sound.automations_serial.eq_of_id here there (one.1.trans two.1.symm)]
    · exact absurd eq.symm (apart second there two)
    · exact absurd eq (apart first here one)
    · exact eq
  | deleteWorkspace | deleteAutomation => exact sound.names.sublist (List.filter_sublist.map _)
  | _ => exact sound.names

theorem emails_of_effect (sound : db.Sound) (effect : Effect r now db call after) :
    (after.users.map UserRow.email).Nodup := by
  cases effect with
  | insertWorkspace body | replaceWorkspace body => exact emails_upsertOwner r body sound.emails
  | _ => exact sound.emails

theorem owners_of_effect (sound : db.Sound) (effect : Effect r now db call after) :
    ∀ row ∈ after.workspaces, ∀ owner ∈ row.ownerUserId, ∃ user ∈ after.users, user.id = owner := by
  cases effect with
  | insertWorkspace body free =>
    obtain ⟨known, kept⟩ := upsertOwner_users r db body
    intro row mem owner owns
    rcases List.mem_append.mp mem with old | last
    · obtain ⟨user, there, rfl⟩ := sound.owners row old owner owns
      exact kept user there
    · rw [List.mem_singleton.mp last] at owns
      exact Option.some.inj owns ▸ known
  | replaceWorkspace body found here =>
    obtain ⟨known, kept⟩ := upsertOwner_users r db body
    intro row mem owner owns
    obtain ⟨old, there, rfl⟩ := List.mem_map.mp mem
    split_ifs at owns
    · exact Option.some.inj owns ▸ known
    · obtain ⟨user, there, rfl⟩ := sound.owners old there owner owns
      exact kept user there
  | updateWorkspace workspaceId body found here free given =>
    intro row mem owner owns
    obtain ⟨old, there, rfl⟩ := List.mem_map.mp mem
    split_ifs at owns
    · rcases Option.or_eq_some_iff.mp owns with new | ⟨-, before⟩
      · exact given owner new
      · exact sound.owners found (find?_id here).1 owner before
    · exact sound.owners old there owner owns
  | deleteWorkspace workspaceId => exact fun row mem => sound.owners row (List.mem_of_mem_filter mem)
  | _ => exact sound.owners

/-- Only its own deletion takes a workspace away. -/
theorem homes_kept (sound : db.Sound) (effect : Effect r now db call after) {home : WorkspaceRow} (there : home ∈ db.workspaces)
    (spared : ∀ workspaceId, call = .deleteWorkspace workspaceId → home.id ≠ workspaceId) :
    ∃ later ∈ after.workspaces, later.id = home.id := by
  cases effect with
  | insertWorkspace => exact ⟨home, List.mem_append_left _ there, rfl⟩
  | replaceWorkspace body row found =>
    obtain ⟨here, slug⟩ := find?_id found
    refine ⟨_, List.mem_map_of_mem there, ?_⟩
    split_ifs with same
    · have one : row = home := sound.eq_of_slug here there ((of_decide_eq_true slug).trans same.symm)
      show row.id = home.id
      rw [one]
    · rfl
  | updateWorkspace workspaceId body row found =>
    refine ⟨_, List.mem_map_of_mem there, ?_⟩
    split_ifs with same
    · exact (of_decide_eq_true (find?_id found).2).trans same.symm
    · rfl
  | deleteWorkspace workspaceId =>
    exact ⟨home, List.mem_filter.mpr ⟨there, decide_eq_true (spared workspaceId rfl)⟩, rfl⟩
  | _ => exact ⟨home, there, rfl⟩

/-- A task of afterwards is one of before, unless its workspace goes, or one changed or made by the call. -/
theorem tasks_of_effect (sound : db.Sound) (fits : call.TitlesFit) (effect : Effect r now db call after) {row : TaskRow}
    (mem : row ∈ after.tasks) :
    (∃ home ∈ db.workspaces, home.id = row.workspaceId ∧ ∀ workspaceId, call = .deleteWorkspace workspaceId →
      home.id ≠ workspaceId) ∧
    (row.status ∈ allowedStatuses ∧ row.priority ∈ allowedPriorities) ∧ row.title.length ≤ 300 := by
  have of_old : ∀ old ∈ db.tasks, (∀ workspaceId, call = .deleteWorkspace workspaceId → old.workspaceId ≠ workspaceId) →
      (∃ home ∈ db.workspaces, home.id = old.workspaceId ∧ ∀ workspaceId, call = .deleteWorkspace workspaceId →
        home.id ≠ workspaceId) ∧
      (old.status ∈ allowedStatuses ∧ old.priority ∈ allowedPriorities) ∧ old.title.length ≤ 300 := by
    intro old here spared
    obtain ⟨home, there, same⟩ := sound.task_workspaces old here
    exact ⟨⟨home, there, same, fun workspaceId goes => same ▸ spared workspaceId goes⟩, sound.statuses old here,
      sound.titles old here⟩
  cases effect with
  | insertWorkspace body | replaceWorkspace body =>
    replace mem : row ∈ (db.upsertOwner r body).2.tasks := mem
    rw [(upsertOwner_frame r db body).1] at mem
    exact of_old row mem fun _ same => by cases same
  | deleteWorkspace workspaceId =>
    obtain ⟨here, elsewhere⟩ := List.mem_filter.mp mem
    refine of_old row here ?_
    rintro _ same
    cases same
    exact of_decide_eq_true elsewhere
  | createTask body there =>
    rcases List.mem_append.mp mem with old | last
    · exact of_old row old fun _ same => by cases same
    · rw [List.mem_singleton.mp last]
      obtain ⟨home, there, same⟩ := there
      refine ⟨⟨home, there, same, fun _ same => by cases same⟩, ?_, fits⟩
      show "todo".toList ∈ allowedStatuses ∧ "normal".toList ∈ allowedPriorities
      decide
  | updateTask taskId body found allowed here =>
    obtain ⟨old, there, rfl⟩ := List.mem_map.mp mem
    by_cases same : old.id = taskId ∧ old.workspaceId = body.workspaceId
    · rw [if_pos same]
      obtain ⟨home, status, title⟩ := of_old found (find?_id here).1 fun _ same => by cases same
      refine ⟨home, ⟨?_, ?_⟩, ?_⟩
      · cases given : body.status with
        | none => simpa [TaskUpdateRequest.applied, given] using status.1
        | some value => simpa [TaskUpdateRequest.applied, given] using allowed.1 value given
      · cases given : body.priority with
        | none => simpa [TaskUpdateRequest.applied, given] using status.2
        | some value => simpa [TaskUpdateRequest.applied, given] using allowed.2 value given
      · cases given : body.title with
        | none => simpa [TaskUpdateRequest.applied, given] using title
        | some value =>
          have bound : value.length ≤ 300 := fits value given
          simp only [TaskUpdateRequest.applied, given, Option.map_some, Option.getD_some]
          exact Nat.le_trans (length_strip_le value) bound
    · rw [if_neg same]
      exact of_old old there fun _ same => by cases same
  | deleteTask => exact of_old row (List.mem_of_mem_filter mem) fun _ same => by cases same
  | _ => exact of_old row mem fun _ same => by cases same

theorem automations_of_effect (sound : db.Sound) (effect : Effect r now db call after) {row : AutomationRow}
    (mem : row ∈ after.automations) :
    ∃ home ∈ db.workspaces, home.id = row.workspaceId ∧ ∀ workspaceId, call = .deleteWorkspace workspaceId →
      home.id ≠ workspaceId := by
  have of_old : ∀ old ∈ db.automations, (∀ workspaceId, call = .deleteWorkspace workspaceId →
      old.workspaceId ≠ workspaceId) → ∃ home ∈ db.workspaces, home.id = old.workspaceId ∧ ∀ workspaceId,
      call = .deleteWorkspace workspaceId → home.id ≠ workspaceId := by
    intro old here spared
    obtain ⟨home, there, same⟩ := sound.automation_workspaces old here
    exact ⟨home, there, same, fun workspaceId goes => same ▸ spared workspaceId goes⟩
  cases effect with
  | insertWorkspace body | replaceWorkspace body =>
    replace mem : row ∈ (db.upsertOwner r body).2.automations := mem
    rw [(upsertOwner_frame r db body).2.2.1] at mem
    exact of_old row mem fun _ same => by cases same
  | deleteWorkspace workspaceId =>
    obtain ⟨here, elsewhere⟩ := List.mem_filter.mp mem
    refine of_old row here ?_
    rintro _ same
    cases same
    exact of_decide_eq_true elsewhere
  | createAutomation body there free =>
    rcases List.mem_append.mp mem with old | last
    · exact of_old row old fun _ same => by cases same
    · rw [List.mem_singleton.mp last]
      obtain ⟨home, there, same⟩ := there
      exact ⟨home, there, same, fun _ same => by cases same⟩
  | updateAutomation automationId body found here free =>
    obtain ⟨old, there, rfl⟩ := List.mem_map.mp mem
    by_cases same : old.id = automationId ∧ old.workspaceId = body.workspaceId
    · rw [if_pos same]
      exact of_old found (find?_id here).1 fun _ same => by cases same
    · rw [if_neg same]
      exact of_old old there fun _ same => by cases same
  | deleteAutomation => exact of_old row (List.mem_of_mem_filter mem) fun _ same => by cases same
  | _ => exact of_old row mem fun _ same => by cases same

theorem sound_of_effect (sound : db.Sound) (fits : call.TitlesFit) (effect : Effect r now db call after) : after.Sound := by
  have statements := statements_of_effect sound effect
  exact {
    workspaces_serial := sound.workspaces_serial.written statements.workspaces
    users_serial := sound.users_serial.written statements.users
    tasks_serial := sound.tasks_serial.written statements.tasks
    automations_serial := sound.automations_serial.written statements.automations
    slugs := slugs_of_effect sound effect
    emails := emails_of_effect sound effect
    names := names_of_effect sound effect
    owners := owners_of_effect sound effect
    task_workspaces := fun row mem => by
      obtain ⟨⟨home, there, same, spared⟩, -⟩ := tasks_of_effect sound fits effect mem
      exact same ▸ homes_kept sound effect there spared
    automation_workspaces := fun row mem => by
      obtain ⟨home, there, same, spared⟩ := automations_of_effect sound effect mem
      exact same ▸ homes_kept sound effect there spared
    statuses := fun row mem => (tasks_of_effect sound fits effect mem).2.1
    titles := fun row mem => (tasks_of_effect sound fits effect mem).2.2 }

end Writes

section Runs

variable {r : Runtime}

/-- The tables under the requests of the three routers; what fails is rolled back. -/
def apiStep (r : Runtime) (db : Database) (now : Time) (req : Request) : Option Database :=
  (route r req).map fun call =>
    match db.run r now call with
    | .ok outcome => outcome.database
    | .error _ => db

def api (r : Runtime) : Machine Database (Time × Request) where
  init := .empty
  step db action := apiStep r db action.1 action.2

theorem apiStep_cases {db next : Database} {now : Time} {req : Request} (taken : apiStep r db now req = some next) :
    next = db ∨ ∃ call, call.TitlesFit ∧ Effect r now db call next := by
  obtain ⟨call, routed, same⟩ := Option.map_eq_some_iff.mp taken
  cases ran : db.run r now call with
  | error e =>
    rw [ran] at same
    exact .inl same.symm
  | ok outcome =>
    rw [ran] at same
    exact .inr ⟨call, titlesFit_of_route routed, same ▸ effect_of_run ran⟩

theorem apiStep_sound {db next : Database} {now : Time} {req : Request} (sound : db.Sound)
    (taken : apiStep r db now req = some next) : next.Sound ∧ Statements db next := by
  rcases apiStep_cases taken with rfl | ⟨call, fits, effect⟩
  · exact ⟨sound, statements_refl _⟩
  · exact ⟨sound_of_effect sound fits effect, statements_of_effect sound effect⟩

theorem sound_of_requests {db : Database} (reached : (api r).Reachable db) : db.Sound := by
  refine Machine.ReachableUnder.invariant Database.sound_empty ?_ reached
  intro db action next sound _ taken
  have step : apiStep r db action.1 action.2 = some next := taken
  exact (apiStep_sound sound step).1

structure StatementRuns (db later : Database) : Prop where
  workspaces : Relation.ReflTransGen (SerialTable.Written WorkspaceRow.id fun _ => ()) db.workspaceTable later.workspaceTable
  users : Relation.ReflTransGen (SerialTable.Written UserRow.id UserRow.email) db.userTable later.userTable
  tasks : Relation.ReflTransGen (SerialTable.Written TaskRow.id TaskRow.workspaceId) db.taskTable later.taskTable
  automations : Relation.ReflTransGen (SerialTable.Written AutomationRow.id AutomationRow.workspaceId) db.automationTable
    later.automationTable

theorem statementRuns_of_run {db later : Database} {actions : List (Time × Request)} (sound : db.Sound)
    (ran : (api r).run db actions = some later) : StatementRuns db later := by
  induction actions generalizing db with
  | nil =>
    cases ran
    exact ⟨.refl, .refl, .refl, .refl⟩
  | cons action actions ih =>
    obtain ⟨next, taken, more⟩ := Option.bind_eq_some_iff.mp ran
    obtain ⟨sound', statements⟩ := apiStep_sound sound taken
    have rest := ih sound' more
    exact ⟨.head statements.workspaces rest.workspaces, .head statements.users rest.users, .head statements.tasks rest.tasks,
      .head statements.automations rest.automations⟩

/-- An id that was given out stands for its row as long as that is there, and for nothing else at any time. -/
structure IdsStable (db later : Database) : Prop where
  tasks : ∀ row ∈ later.tasks, row.id < db.nextTask → ∃ old ∈ db.tasks, old.id = row.id ∧ old.workspaceId = row.workspaceId
  automations : ∀ row ∈ later.automations, row.id < db.nextAutomation →
    ∃ old ∈ db.automations, old.id = row.id ∧ old.workspaceId = row.workspaceId
  workspaces : ∀ row ∈ later.workspaces, row.id < db.nextWorkspace → ∃ old ∈ db.workspaces, old.id = row.id
  users : ∀ row ∈ later.users, row.id < db.nextUser → ∃ old ∈ db.users, old.id = row.id ∧ old.email = row.email

/-- The tables keep their constraints in every run of requests, and no id is given out twice. -/
theorem tables_sound (r : Runtime) {db : Database} (reached : (api r).Reachable db) :
    db.Sound ∧ ∀ actions later, (api r).run db actions = some later → IdsStable db later := by
  have sound := sound_of_requests reached
  refine ⟨sound, fun actions later ran => ?_⟩
  have runs := statementRuns_of_run sound ran
  exact {
    tasks := (SerialTable.comes_from_of_run runs.tasks).2
    automations := (SerialTable.comes_from_of_run runs.automations).2
    workspaces := fun row mem given => by
      obtain ⟨old, there, same, -⟩ := (SerialTable.comes_from_of_run runs.workspaces).2 row mem given
      exact ⟨old, there, same⟩
    users := (SerialTable.comes_from_of_run runs.users).2 }

end Runs

def createWorkspaceRequest (slug : String) : Request where
  method := "POST".toList
  path := workspacesPath
  query := []
  userRole := some "owner".toList
  workspaceId := none
  contentType := none
  body := jsonBody [("slug".toList, .string slug.toList), ("name".toList, .string "Team".toList),
    ("owner_email".toList, .string "ann@example.org".toList), ("owner_display_name".toList, .string "Ann".toList)]

def createTaskRequest (title : String) : Request where
  method := "POST".toList
  path := tasksPath
  query := []
  userRole := some "member".toList
  workspaceId := some "1".toList
  contentType := none
  body := jsonBody [("title".toList, .string title.toList), ("workspace_id".toList, .integer 1)]

/-- The row of the last task goes, and its id is not given to the next. -/
theorem tables_sound_sample :
    let db := ((api plainRuntime).run .empty [(0, createWorkspaceRequest "team"), (1, createTaskRequest "report")]).getD .empty
    let later := ((api plainRuntime).run db [(2, { deleteTaskFive "1" [] with path := tasksPath ++ "/1".toList }),
      (3, createTaskRequest "review")]).getD .empty
    db.tasks.map TaskRow.id = [1] ∧ later.tasks.map TaskRow.id = [2] ∧ db.Sound ∧ IdsStable db later := by
  intro db later
  have reached : (api plainRuntime).Reachable db :=
    Machine.reachable_of_run (Machine.eq_some_getD (by decide +kernel) Database.empty)
  have kept := tables_sound plainRuntime reached
  exact ⟨by decide +kernel, by decide +kernel, kept.1, kept.2 _ later (Machine.eq_some_getD (by decide +kernel) _)⟩

end ClaudeProxy.Api

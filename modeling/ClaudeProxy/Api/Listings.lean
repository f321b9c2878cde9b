import ClaudeProxy.Api.WorkspaceEvents
import ClaudeProxy.Kit.Paging

namespace ClaudeProxy.Api

open Kit Providers
open Automation (AutomationRow Time)

def Row.rowId : Row → Int
  | .workspace row => row.id
  | .task row => row.id
  | .automation row => row.id

def pageSize (limit : Int) : Nat := (max 1 (min limit 200)).toNat

/-- The ids in the answer to a request for one page. -/
def idsOf (answer : Except HttpError Outcome) : List Int :=
  match answer with
  | .ok outcome => outcome.returned.map Row.rowId
  | .error _ => []

/-- Where the client of a listing asks for its page with a number. -/
def offsetOf (limit : Int) (k : Nat) : Int := (k * pageSize limit : Nat)

def taskPage (r : Runtime) (db : Database) (w limit : Int) (k : Nat) : List Int :=
  idsOf (db.listTasks r w none none limit (offsetOf limit k))

def automationPage (db : Database) (w limit : Int) (k : Nat) : List Int :=
  idsOf (db.listAutomations w none limit (offsetOf limit k))

section Pages

variable {ρ : Type} {id : ρ → Int} {rows : List ρ}

theorem byIdDesc_eq_reverse (ascending : rows.Pairwise fun earlier later => id earlier < id later) :
    byIdDesc id rows = rows.reverse := by
  have total : Std.Total fun a b : ρ => id b ≤ id a := ⟨fun a b => Int.le_total (id b) (id a)⟩
  have transitive : IsTrans ρ fun a b => id b ≤ id a := ⟨fun a b c first second => Int.le_trans second first⟩
  have distinct : (rows.map id).Nodup := List.pairwise_map.mpr (ascending.imp fun less => Int.ne_of_lt less)
  have sorted : (byIdDesc id rows).Pairwise fun a b => id b ≤ id a := List.pairwise_insertionSort _ rows
  have reversed : rows.reverse.Pairwise fun a b => id b ≤ id a :=
    List.pairwise_reverse.mpr (ascending.imp fun less => Int.le_of_lt less)
  have antisymmetric : ∀ a b, a ∈ byIdDesc id rows → b ∈ rows.reverse → id b ≤ id a → id a ≤ id b → a = b := by
    intro a b here there one other
    exact List.inj_on_of_nodup_map distinct (Database.mem_byIdDesc here) (List.mem_reverse.mp there) (Int.le_antisymm other one)
  exact List.Perm.eq_of_pairwise antisymmetric sorted reversed
    ((List.perm_insertionSort _ rows).trans (List.reverse_perm rows).symm)

theorem page_offsetOf (limit : Int) (k : Nat) (rows : List ρ) :
    page limit (offsetOf limit k) rows = pageAt (pageSize limit) rows k := by
  rw [page, offsetOf, Int.toNat_natCast]
  rfl

theorem pageAt_map {β : Type} (f : ρ → β) (size k : Nat) : (pageAt size rows k).map f = pageAt size (rows.map f) k := by
  rw [pageAt, pageAt, List.map_take, List.map_drop]

end Pages

section Listings

variable {r : Runtime} {db later : Database} {w : Int}

def Database.newestTasks (db : Database) (w : Int) : List Int := ((part TaskRow.workspaceId w db.tasks).map TaskRow.id).reverse

def Database.newestAutomations (db : Database) (w : Int) : List Int :=
  ((part AutomationRow.workspaceId w db.automations).map AutomationRow.id).reverse

theorem taskPage_eq (sound : db.Sound) (limit : Int) (k : Nat) :
    taskPage r db w limit k = pageAt (pageSize limit) (db.newestTasks w) k := by
  have ascending : (part TaskRow.workspaceId w db.tasks).Pairwise fun earlier later => earlier.id < later.id :=
    sound.tasks_serial.ascending.filter _
  have same : db.matchingTasks r w none none = part TaskRow.workspaceId w db.tasks := by
    unfold Database.matchingTasks part
    simp [Database.hasStatus, Database.hasText]
  have shape : taskPage r db w limit k =
      ((page limit (offsetOf limit k) (byIdDesc TaskRow.id (db.matchingTasks r w none none))).map Row.task).map Row.rowId := rfl
  rw [shape, List.map_map, same, byIdDesc_eq_reverse ascending, page_offsetOf]
  exact (pageAt_map TaskRow.id _ _).trans (congrArg (pageAt _ · k) (List.map_reverse ..))

theorem automationPage_eq (sound : db.Sound) (limit : Int) (k : Nat) :
    automationPage db w limit k = pageAt (pageSize limit) (db.newestAutomations w) k := by
  have ascending : (part AutomationRow.workspaceId w db.automations).Pairwise fun earlier later => earlier.id < later.id :=
    sound.automations_serial.ascending.filter _
  have same : (db.automations.filter fun row => row.workspaceId = w ∧ (none : Option Bool).all (row.enabled = ·)) =
      part AutomationRow.workspaceId w db.automations := by
    unfold part
    simp
  have shape : automationPage db w limit k = ((page limit (offsetOf limit k) (byIdDesc AutomationRow.id
      (db.automations.filter fun row => row.workspaceId = w ∧ (none : Option Bool).all (row.enabled = ·)))).map
        Row.automation).map Row.rowId := rfl
  rw [shape, List.map_map, same, byIdDesc_eq_reverse ascending, page_offsetOf]
  exact (pageAt_map AutomationRow.id _ _).trans (congrArg (pageAt _ · k) (List.map_reverse ..))

/-- No task or automation of the workspace is taken away, nor the workspace itself. -/
def Call.spares (w : Int) : Call → Bool
  | .deleteWorkspace workspaceId => workspaceId ≠ w
  | .deleteTask _ workspaceId => workspaceId ≠ w
  | .deleteAutomation _ workspaceId => workspaceId ≠ w
  | _ => true

section Growth

variable {ρ : Type} {id home : ρ → Int} {rows : List ρ}

theorem ids_replace (chosen : ρ → Prop) [DecidablePred chosen] {new : ρ} (same : ∀ row, chosen row → id row = id new)
    (rows : List ρ) : (rows.map fun row => if chosen row then new else row).map id = rows.map id := by
  rw [List.map_map]
  refine List.map_congr_left fun row _ => ?_
  simp only [Function.comp_apply]
  split_ifs with here
  · exact (same row here).symm
  · rfl

theorem ids_part_replace {new : ρ} {key place : Int} (same : id new = key) (there : home new = place) (rows : List ρ) :
    (part home w (rows.map fun row => if id row = key ∧ home row = place then new else row)).map id =
      (part home w rows).map id := by
  rw [part_replace there]
  split_ifs
  · exact ids_replace _ (fun row here => here.trans same.symm) _
  · rfl

theorem ids_part_insert (new : ρ) : (part home w rows).map id <+: (part home w (rows ++ [new])).map id := by
  rw [part_insert]
  split_ifs
  · rw [List.map_append]
    exact List.prefix_append _ _
  · exact List.prefix_rfl

end Growth

theorem tasks_grow {now : Time} {call : Call} (effect : Effect r now db call later) (spares : call.spares w = true) :
    (part TaskRow.workspaceId w db.tasks).map TaskRow.id <+: (part TaskRow.workspaceId w later.tasks).map TaskRow.id := by
  cases effect with
  | insertWorkspace body | replaceWorkspace body =>
    show _ <+: (part TaskRow.workspaceId w (db.upsertOwner r body).2.tasks).map TaskRow.id
    rw [(tables_upsertOwner r db body).1]
  | deleteWorkspace workspaceId =>
    have apart : workspaceId ≠ w := of_decide_eq_true spares
    show _ <+: (part TaskRow.workspaceId w (db.tasks.filter (·.workspaceId ≠ workspaceId))).map TaskRow.id
    rw [part_drop, if_neg apart]
  | deleteTask taskId workspaceId =>
    have apart : workspaceId ≠ w := of_decide_eq_true spares
    show _ <+: (part TaskRow.workspaceId w (db.tasks.filter fun row => ¬(row.id = taskId ∧ row.workspaceId = workspaceId))).map
      TaskRow.id
    rw [part_delete, if_neg apart]
  | createTask body => exact ids_part_insert _
  | updateTask taskId body row allowed found =>
    have here := of_decide_eq_true (find?_id found).2
    show _ <+: (part TaskRow.workspaceId w (db.tasks.map fun other =>
      if other.id = taskId ∧ other.workspaceId = body.workspaceId then body.applied row else other)).map TaskRow.id
    rw [ids_part_replace (show (body.applied row).id = taskId from here.1) here.2]
  | _ => exact List.prefix_rfl

theorem automations_grow {now : Time} {call : Call} (effect : Effect r now db call later) (spares : call.spares w = true) :
    (part AutomationRow.workspaceId w db.automations).map AutomationRow.id <+:
      (part AutomationRow.workspaceId w later.automations).map AutomationRow.id := by
  cases effect with
  | insertWorkspace body | replaceWorkspace body =>
    show _ <+: (part AutomationRow.workspaceId w (db.upsertOwner r body).2.automations).map AutomationRow.id
    rw [(tables_upsertOwner r db body).2]
  | deleteWorkspace workspaceId =>
    have apart : workspaceId ≠ w := of_decide_eq_true spares
    show _ <+: (part AutomationRow.workspaceId w (db.automations.filter (·.workspaceId ≠ workspaceId))).map AutomationRow.id
    rw [part_drop, if_neg apart]
  | deleteAutomation automationId workspaceId =>
    have apart : workspaceId ≠ w := of_decide_eq_true spares
    show _ <+: (part AutomationRow.workspaceId w
      (db.automations.filter fun row => ¬(row.id = automationId ∧ row.workspaceId = workspaceId))).map AutomationRow.id
    rw [part_delete, if_neg apart]
  | createAutomation body => exact ids_part_insert _
  | updateAutomation automationId body row found =>
    have here := of_decide_eq_true (find?_id found).2
    show _ <+: (part AutomationRow.workspaceId w (db.automations.map fun other =>
      if other.id = automationId ∧ other.workspaceId = body.workspaceId then body.applied now row else other)).map
        AutomationRow.id
    rw [ids_part_replace (show (body.applied now row).id = automationId from here.1) here.2]
  | _ => exact List.prefix_rfl

/-- What a listing may lose an entry by. -/
def Spared (r : Runtime) (w : Int) (req : Request) : Prop := ∀ call, route r req = some call → call.spares w = true

theorem step_grows {now : Time} {req : Request} (spared : Spared r w req) (taken : apiStep r db now req = some later) :
    db.newestTasks w <:+ later.newestTasks w ∧ db.newestAutomations w <:+ later.newestAutomations w := by
  obtain ⟨call, routed, same⟩ := Option.map_eq_some_iff.mp taken
  cases ran : db.run r now call with
  | error e =>
    rw [ran] at same
    subst same
    exact ⟨List.suffix_rfl, List.suffix_rfl⟩
  | ok outcome =>
    rw [ran] at same
    subst same
    have effect : Effect r now db call outcome.database := effect_of_run ran
    exact ⟨List.reverse_suffix.mpr (tasks_grow effect (spared call routed)),
      List.reverse_suffix.mpr (automations_grow effect (spared call routed))⟩

theorem run_grows {actions : List (Time × Request)} (spared : ∀ action ∈ actions, Spared r w action.2)
    (ran : (api r).run db actions = some later) :
    db.newestTasks w <:+ later.newestTasks w ∧ db.newestAutomations w <:+ later.newestAutomations w := by
  induction actions generalizing db with
  | nil =>
    cases ran
    exact ⟨List.suffix_rfl, List.suffix_rfl⟩
  | cons action actions ih =>
    obtain ⟨next, taken, more⟩ := Option.bind_eq_some_iff.mp ran
    have first := step_grows (spared action List.mem_cons_self) taken
    have rest := ih (fun other mem => spared other (List.mem_cons_of_mem _ mem)) more
    exact ⟨first.1.trans rest.1, first.2.trans rest.2⟩

/-- The tables at the time of each page that a client reads, while others write but take nothing away. -/
structure Reading (r : Runtime) (w : Int) (tables : Nat → Database) : Prop where
  start : (api r).Reachable (tables 0)
  between : ∀ k, ∃ actions, (api r).run (tables k) actions = some (tables (k + 1)) ∧
    ∀ action ∈ actions, Spared r w action.2

theorem Reading.reachable {tables : Nat → Database} (reading : Reading r w tables) (k : Nat) :
    (api r).Reachable (tables k) := by
  induction k with
  | zero => exact reading.start
  | succ k ih =>
    obtain ⟨actions, ran, -⟩ := reading.between k
    exact Machine.ReachableUnder.run ih ran fun _ _ => trivial

/-- What a client has that reads one page after the other, until one is short. -/
structure PagesComplete (tables : Nat → Database) (entries : Database → List Int) (pages : Database → Nat → List Int)
    (size n : Nat) : Prop where
  only : ∀ k, ∀ id ∈ pages (tables k) k, id ∈ entries (tables k)
  seen : (pages (tables n) n).length < size → ∀ id ∈ entries (tables 0), ∃ k ≤ n, id ∈ pages (tables k) k
  once : (pages (tables n) n).length < size → (∀ k ≤ n, tables k = tables 0) →
    (List.range (n + 1)).flatMap (fun k => pages (tables k) k) = entries (tables 0)

theorem pagesComplete_of_growing {tables : Nat → Database} {entries : Database → List Int}
    {pages : Database → Nat → List Int} {size : Nat} (cut : ∀ k m, pages (tables k) m = pageAt size (entries (tables k)) m)
    (grows : ∀ k, entries (tables k) <:+ entries (tables (k + 1))) (n : Nat) : PagesComplete tables entries pages size n := by
  constructor
  · intro k id mem
    rw [cut] at mem
    exact List.mem_of_mem_drop (List.mem_of_mem_take mem)
  · intro short
    rw [cut] at short
    simp only [cut]
    exact seen_of_growing grows short
  · intro short still
    have same : (List.range (n + 1)).flatMap (fun k => pages (tables k) k) =
        (List.range (n + 1)).flatMap (pageAt size (entries (tables 0))) := by
      refine List.flatMap_congr fun k mem => ?_
      rw [still k (Nat.lt_succ_iff.mp (List.mem_range.mp mem)), cut]
    rw [same]
    rw [cut, still n (Nat.le_refl n)] at short
    exact flatMap_pageAt_of_short short

/-- Creations and changes by others make no entry slip through between two pages. -/
theorem listing_pages_complete (r : Runtime) {w : Int} {tables : Nat → Database} (reading : Reading r w tables) (limit : Int)
    (n : Nat) :
    PagesComplete tables (fun db => db.newestTasks w) (fun db => taskPage r db w limit) (pageSize limit) n ∧
      PagesComplete tables (fun db => db.newestAutomations w) (fun db => automationPage db w limit) (pageSize limit) n := by
  have sound : ∀ k, (tables k).Sound := fun k => sound_of_requests (reading.reachable k)
  have grows : ∀ k, (tables k).newestTasks w <:+ (tables (k + 1)).newestTasks w ∧
      (tables k).newestAutomations w <:+ (tables (k + 1)).newestAutomations w := fun k => by
    obtain ⟨actions, ran, spared⟩ := reading.between k
    exact run_grows spared ran
  exact ⟨pagesComplete_of_growing (fun k m => taskPage_eq (sound k) limit m) (fun k => (grows k).1) n,
    pagesComplete_of_growing (fun k m => automationPage_eq (sound k) limit m) (fun k => (grows k).2) n⟩

end Listings

def twoTasks : Database :=
  ((api plainRuntime).run Database.empty [(0, createWorkspaceRequest "team"), (1, createTaskRequest "report"),
    (2, createTaskRequest "review")]).getD .empty

def threeTasks : Database := ((api plainRuntime).run twoTasks [(3, createTaskRequest "release")]).getD .empty

/-- A task comes in before the second page is read. -/
def growingTables (k : Nat) : Database := if k = 0 then twoTasks else threeTasks

theorem listing_pages_complete_growing :
    (growingTables 0).newestTasks 1 = [2, 1] ∧ (growingTables 3).newestTasks 1 = [3, 2, 1] ∧
      ∀ id ∈ (growingTables 0).newestTasks 1, ∃ k ≤ 3, id ∈ taskPage plainRuntime (growingTables k) 1 1 k := by
  have spared : Spared plainRuntime 1 (createTaskRequest "release") := by
    have created : (route plainRuntime (createTaskRequest "release")).all (Call.spares 1) = true := by decide +kernel
    intro call routed
    rw [routed] at created
    exact created
  have reading : Reading plainRuntime 1 growingTables := by
    constructor
    · have ran : (api plainRuntime).run (api plainRuntime).init [(0, createWorkspaceRequest "team"),
          (1, createTaskRequest "report"), (2, createTaskRequest "review")] = some twoTasks :=
        Machine.eq_some_getD (by decide +kernel) Database.empty
      exact Machine.reachable_of_run ran
    · intro k
      cases k with
      | zero =>
        refine ⟨[(3, createTaskRequest "release")], Machine.eq_some_getD (by decide +kernel) Database.empty, ?_⟩
        intro action mem
        rw [List.mem_singleton.mp mem]
        exact spared
      | succ k => exact ⟨[], rfl, fun action mem => absurd mem List.not_mem_nil⟩
  have short : (taskPage plainRuntime (growingTables 3) 1 1 3).length < pageSize 1 := by decide +kernel
  exact ⟨by decide +kernel, by decide +kernel, (listing_pages_complete plainRuntime reading 1 3).1.seen short⟩

end ClaudeProxy.Api

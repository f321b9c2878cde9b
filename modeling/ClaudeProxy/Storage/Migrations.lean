import Mathlib
import ClaudeProxy.Kit.Transaction
import ClaudeProxy.Providers.HeuristicToolParser

namespace ClaudeProxy.Storage

open Kit Providers

/-- What the statements of a migration file do to the tables, or the message of the one that fails. -/
abbrev Script (δ : Type) := δ → Except Str δ

structure File (δ : Type) where
  name : Str
  /-- `read_text`, which raises where the file is not readable. -/
  content : Except Str (Script δ)

structure Database (δ : Type) where
  /-- The versions in `schema_migrations`, once the table exists. -/
  schemaMigrations : Option (List Str)
  tables : δ

inductive Statement where
  | createTable
  | selectVersions
  | script (version : Str)
  | record (version : Str)

/-- What is outside of a run: the connection, which statements fail by themselves, and whether the commit is refused. -/
structure Surroundings where
  databaseUrl : Str
  connection : Except Str Unit
  fails : Statement → Option SqlFailure
  commit : Option Str

def undefinedTable : Str := "relation \"schema_migrations\" does not exist".toList

def duplicateVersion : Str := "duplicate key value violates unique constraint \"schema_migrations_pkey\"".toList

section Runner

variable {δ : Type} (env : Surroundings)

def createTable : Sql (Database δ) Unit :=
  Sql.statement (env.fails .createTable) fun db =>
    .ok ((), { db with schemaMigrations := some (db.schemaMigrations.getD []) })

/-- `applied`, as a list -/
def selectVersions : Sql (Database δ) (List Str) :=
  Sql.statement (env.fails .selectVersions) fun db =>
    match db.schemaMigrations with
    | some versions => .ok (versions, db)
    | none => .error undefinedTable

def runScript (version : Str) (script : Script δ) : Sql (Database δ) Unit :=
  Sql.statement (env.fails (.script version)) fun db =>
    match script db.tables with
    | .ok tables => .ok ((), { db with tables := tables })
    | .error message => .error message

def record (version : Str) : Sql (Database δ) Unit :=
  Sql.statement (env.fails (.record version)) fun db =>
    match db.schemaMigrations with
    | some versions =>
      if version ∈ versions then .error duplicateVersion
      else .ok ((), { db with schemaMigrations := some (versions ++ [version]) })
    | none => .error undefinedTable

def applyAll (applied : List Str) : Nat → List (File δ) → Sql (Database δ) Nat
  | appliedCount, [] => Sql.result appliedCount
  | appliedCount, file :: rest =>
    if file.name ∈ applied then applyAll applied appliedCount rest
    else
      match file.content with
      | .error message => Sql.raise message
      | .ok script => do
        runScript env file.name script
        record env file.name
        applyAll applied (appliedCount + 1) rest

/-- `sorted(MIGRATIONS_DIR.glob("*.sql"))` -/
def sqlFiles (directory : List (File δ)) : List (File δ) :=
  (directory.filter fun file => ".sql".toList.isSuffixOf file.name).mergeSort fun one other => one.name ≤ other.name

def migrate (directory : List (File δ)) : Sql (Database δ) Nat := do
  createTable env
  let versions ← selectVersions env
  applyAll env versions 0 (sqlFiles directory)

/-- `get_db_cursor` around a body. A commit that is refused has not been made. -/
def getDbCursor {α : Type} (body : Sql (Database δ) α) (db : Database δ) : Except Str α × Database δ :=
  if strip env.databaseUrl = [] then (.error "DATABASE_URL is not configured".toList, db)
  else
    match env.connection with
    | .error message => (.error message, db)
    | .ok () =>
      match Sql.transaction body db, env.commit with
      | (.ok _, _), some message => (.error message, db)
      | ended, _ => ended

def runMigrations (directory : List (File δ)) (db : Database δ) : Except Str Nat × Database δ :=
  getDbCursor env (migrate env directory) db

end Runner

/-- A start of the server with the migration files it comes with. -/
structure Start (δ : Type) where
  env : Surroundings
  directory : List (File δ)

variable {δ : Type}

/-- The part of `lifespan` about the database. -/
def lifespan (db : Database δ) (start : Start δ) : Database δ :=
  if strip start.env.databaseUrl = [] then db else (runMigrations start.env start.directory db).2

def afterStarts (fresh : δ) (starts : List (Start δ)) : Database δ := starts.foldl lifespan ⟨none, fresh⟩

/-- A file that was applied, as it was then. -/
abbrev Applied (δ : Type) := Str × Script δ

def replay (history : List (Applied δ)) (tables : δ) : Except Str δ := history.foldlM (fun tables applied => applied.2 tables) tables

/-- What a run does that succeeds: it applies the new files in the order of their names. -/
structure Advance (directory : List (File δ)) (db after : Database δ) (count : Nat) (added : List (Applied δ)) : Prop where
  recorded : after.schemaMigrations = some (db.schemaMigrations.getD [] ++ added.map Prod.fst)
  tables : replay added db.tables = .ok after.tables
  new : ∀ version ∈ added.map Prod.fst, version ∉ db.schemaMigrations.getD []
  distinct : (added.map Prod.fst).Nodup
  sorted : (added.map Prod.fst).Pairwise (· ≤ ·)
  counted : count = added.length
  genuine : ∀ applied ∈ added, ⟨applied.1, .ok applied.2⟩ ∈ directory ∧ ".sql".toList <:+ applied.1
  complete : ∀ file ∈ directory, ".sql".toList <:+ file.name → file.name ∈ db.schemaMigrations.getD [] ++ added.map Prod.fst

section Run

variable {env : Surroundings} {db : Database δ} {after : Cursor (Database δ)} {versions : List Str}

theorem runScript_inv {version : Str} {script : Script δ} {value : Unit}
    (ends : runScript env version script ⟨db, false⟩ = (.ok value, after)) :
    ∃ tables, script db.tables = .ok tables ∧ after = ⟨{ db with tables := tables }, false⟩ := by
  obtain ⟨changed, effect, same⟩ := Sql.statement_inv ends
  split at effect
  · rename_i tables ran
    cases effect
    exact ⟨tables, ran, same⟩
  · cases effect

theorem record_inv (has : db.schemaMigrations = some versions) {version : Str} {value : Unit}
    (ends : record env version ⟨db, false⟩ = (.ok value, after)) :
    version ∉ versions ∧ after = ⟨{ db with schemaMigrations := some (versions ++ [version]) }, false⟩ := by
  obtain ⟨changed, effect, same⟩ := Sql.statement_inv ends
  simp only [has] at effect
  split at effect
  · cases effect
  · rename_i new
    cases effect
    exact ⟨new, same⟩

theorem replay_cons (applied : Applied δ) (rest : List (Applied δ)) {tables next : δ} (ran : applied.2 tables = .ok next) :
    replay (applied :: rest) tables = replay rest next := by
  rw [replay, List.foldlM_cons, ran]
  rfl

/-- What a loop over files does that ends well. -/
structure Loop (files : List (File δ)) (known : List Str) (db : Database δ) (versions : List Str) (added : List (Applied δ))
    (final : Database δ) : Prop where
  recorded : final.schemaMigrations = some (versions ++ added.map Prod.fst)
  tables : replay added db.tables = .ok final.tables
  new : ∀ version ∈ added.map Prod.fst, version ∉ versions
  distinct : (added.map Prod.fst).Nodup
  names : added.map Prod.fst = (files.map File.name).filter (· ∉ known)
  genuine : ∀ applied ∈ added, ⟨applied.1, .ok applied.2⟩ ∈ files

theorem applyAll_spec (known : List Str) (files : List (File δ)) {versions : List Str} {db : Database δ} {count result : Nat}
    {after : Cursor (Database δ)} (has : db.schemaMigrations = some versions)
    (ends : applyAll env known count files ⟨db, false⟩ = (.ok result, after)) :
    ∃ added final, after = ⟨final, false⟩ ∧ result = count + added.length ∧ Loop files known db versions added final := by
  induction files generalizing db count versions with
  | nil =>
    cases ends
    refine ⟨[], db, rfl, rfl, ?_⟩
    constructor
    case recorded => rw [has, List.map_nil, List.append_nil]
    case tables => rfl
    case names => rfl
    all_goals simp
  | cons file rest ih =>
    rw [applyAll] at ends
    split at ends
    · rename_i old
      obtain ⟨added, final, same, counted, loop⟩ := ih has ends
      refine ⟨added, final, same, counted, loop.recorded, loop.tables, loop.new, loop.distinct, ?_, ?_⟩
      · rw [loop.names, List.map_cons, List.filter_cons_of_neg (by simpa using old)]
      · exact fun applied mem => List.mem_cons_of_mem _ (loop.genuine applied mem)
    · rename_i fresh
      cases readable : file.content with
      | error message =>
        rw [readable] at ends
        cases ends
      | ok script =>
        rw [readable] at ends
        obtain ⟨_, first, ran, afterScript⟩ := Sql.bind_inv ends
        obtain ⟨tables, effect, rfl⟩ := runScript_inv ran
        obtain ⟨_, second, recorded, afterRecord⟩ := Sql.bind_inv afterScript
        have changed : ({ db with tables := tables } : Database δ).schemaMigrations = some versions := has
        obtain ⟨new, rfl⟩ := record_inv changed recorded
        obtain ⟨added, final, same, counted, loop⟩ := ih rfl afterRecord
        have later (version : Str) (mem : version ∈ added.map Prod.fst) : version ∉ versions ∧ version ≠ file.name := by
          have absent := loop.new version mem
          rwa [List.mem_append, List.mem_singleton, not_or] at absent
        refine ⟨(file.name, script) :: added, final, same, ?_, ?_⟩
        · rw [counted, List.length_cons]
          omega
        · constructor
          case recorded => rw [loop.recorded, List.append_assoc, List.map_cons, List.singleton_append]
          case tables => rw [replay_cons _ _ effect, loop.tables]
          case new =>
            intro version mem
            rcases List.mem_cons.mp mem with rfl | among
            · exact new
            · exact (later version among).1
          case distinct => exact List.nodup_cons.mpr ⟨fun among => (later _ among).2 rfl, loop.distinct⟩
          case names =>
            rw [List.map_cons, loop.names, List.map_cons, List.filter_cons_of_pos (by simpa using fresh)]
          case genuine =>
            intro applied mem
            rcases List.mem_cons.mp mem with rfl | among
            · refine List.mem_cons.mpr (.inl ?_)
              rw [← readable]
            · exact List.mem_cons_of_mem _ (loop.genuine applied among)

theorem mem_sqlFiles {directory : List (File δ)} {file : File δ} :
    file ∈ sqlFiles directory ↔ file ∈ directory ∧ ".sql".toList <:+ file.name := by
  rw [sqlFiles, List.mem_mergeSort, List.mem_filter, List.isSuffixOf_iff_suffix]

theorem sorted_sqlFiles (directory : List (File δ)) : ((sqlFiles directory).map File.name).Pairwise (· ≤ ·) := by
  rw [List.pairwise_map]
  have trans (one other third : File δ) (first : decide (one.name ≤ other.name) = true)
      (second : decide (other.name ≤ third.name) = true) : decide (one.name ≤ third.name) = true :=
    decide_eq_true (le_trans (of_decide_eq_true first) (of_decide_eq_true second))
  have total (one other : File δ) : (decide (one.name ≤ other.name) || decide (other.name ≤ one.name)) = true := by
    rw [Bool.or_eq_true, decide_eq_true_iff, decide_eq_true_iff]
    exact le_total one.name other.name
  exact (List.pairwise_mergeSort trans total _).imp fun le => of_decide_eq_true le

theorem migrate_spec {directory : List (File δ)} {count : Nat}
    (ends : migrate env directory ⟨db, false⟩ = (.ok count, after)) :
    ∃ added final, after = ⟨final, false⟩ ∧ Advance directory db final count added := by
  obtain ⟨_, first, created, rest⟩ := Sql.bind_inv ends
  obtain ⟨_, effect, rfl⟩ := Sql.statement_inv created
  cases effect
  obtain ⟨versions, second, selected, rest⟩ := Sql.bind_inv rest
  obtain ⟨_, effect, rfl⟩ := Sql.statement_inv selected
  cases effect
  obtain ⟨added, final, same, counted, loop⟩ := applyAll_spec _ _ rfl rest
  refine ⟨added, final, same, ?_⟩
  constructor
  case recorded => exact loop.recorded
  case tables => exact loop.tables
  case new => exact loop.new
  case distinct => exact loop.distinct
  case sorted =>
    rw [loop.names]
    exact (sorted_sqlFiles directory).filter _
  case counted => rw [counted, Nat.zero_add]
  case genuine => exact fun applied mem => mem_sqlFiles.mp (loop.genuine applied mem)
  case complete =>
    intro file mem suffix
    by_cases old : file.name ∈ db.schemaMigrations.getD []
    · exact List.mem_append_left _ old
    · refine List.mem_append_right _ ?_
      rw [loop.names]
      have listed : file.name ∈ (sqlFiles directory).map File.name := List.mem_map_of_mem (mem_sqlFiles.mpr ⟨mem, suffix⟩)
      exact List.mem_filter.mpr ⟨listed, decide_eq_true old⟩

theorem runMigrations_cases (env : Surroundings) (directory : List (File δ)) (db : Database δ) :
    (∃ message, runMigrations env directory db = (.error message, db)) ∨
    ∃ count after added, runMigrations env directory db = (.ok count, after) ∧ Advance directory db after count added := by
  unfold runMigrations getDbCursor
  split
  · exact .inl ⟨_, rfl⟩
  split
  · exact .inl ⟨_, rfl⟩
  rcases Sql.transaction_cases (migrate env directory) db with ⟨message, ends⟩ | ⟨count, after, ran, ends⟩
  · rw [ends]
    cases env.commit <;> exact .inl ⟨message, rfl⟩
  · obtain ⟨added, final, rfl, advance⟩ := migrate_spec ran
    rw [ends]
    cases env.commit with
    | none => exact .inr ⟨count, final, added, rfl, advance⟩
    | some message => exact .inl ⟨message, rfl⟩

end Run

/-- A second run with the same files has nothing to do. -/
theorem Advance.again {directory : List (File δ)} {db after next : Database δ} {count again : Nat} {added more : List (Applied δ)}
    (advance : Advance directory db after count added) (second : Advance directory after next again more) :
    again = 0 ∧ next = after := by
  have none : more = [] := by
    rw [List.eq_nil_iff_forall_not_mem]
    intro applied mem
    obtain ⟨listed, suffix⟩ := second.genuine applied mem
    have known := advance.complete _ listed suffix
    have fresh := second.new applied.1 (List.mem_map_of_mem mem)
    rw [advance.recorded] at fresh
    exact fresh known
  subst none
  have tables : after.tables = next.tables := Except.ok.inj second.tables
  have versions : after.schemaMigrations = next.schemaMigrations := by
    rw [second.recorded, advance.recorded, Option.getD_some, List.map_nil, List.append_nil]
  refine ⟨second.counted, ?_⟩
  cases after
  cases next
  cases tables
  cases versions
  rfl

/-- The tables are what the recorded files made of them, one after the other. -/
structure Replayed (fresh : δ) (db : Database δ) (history : List (Applied δ)) : Prop where
  distinct : (history.map Prod.fst).Nodup
  recorded : db.schemaMigrations.getD [] = history.map Prod.fst
  tables : replay history fresh = .ok db.tables

theorem Replayed.advance {fresh : δ} {directory : List (File δ)} {db after : Database δ} {history added : List (Applied δ)} {count : Nat}
    (replayed : Replayed fresh db history) (advance : Advance directory db after count added) :
    Replayed fresh after (history ++ added) where
  distinct := by
    rw [List.map_append]
    refine List.Nodup.append replayed.distinct advance.distinct ?_
    intro version old new
    rw [← replayed.recorded] at old
    exact advance.new version new old
  recorded := by rw [advance.recorded, Option.getD_some, replayed.recorded, List.map_append]
  tables := by
    have first := replayed.tables
    unfold replay at first ⊢
    rw [List.foldlM_append, first]
    exact advance.tables

theorem replayed_afterStarts (fresh : δ) (starts : List (Start δ)) :
    ∃ history, Replayed fresh (afterStarts fresh starts) history ∧
      ∀ applied ∈ history, ∃ start ∈ starts, ⟨applied.1, .ok applied.2⟩ ∈ start.directory := by
  induction starts using List.reverseRecOn with
  | nil => exact ⟨[], ⟨.nil, rfl, rfl⟩, by simp⟩
  | append_singleton starts start ih =>
    obtain ⟨history, replayed, genuine⟩ := ih
    have earlier (applied : Applied δ) (mem : applied ∈ history) :
        ∃ other ∈ starts ++ [start], ⟨applied.1, .ok applied.2⟩ ∈ other.directory := by
      obtain ⟨other, among, listed⟩ := genuine applied mem
      exact ⟨other, List.mem_append_left _ among, listed⟩
    have after : afterStarts fresh (starts ++ [start]) = lifespan (afterStarts fresh starts) start := by
      rw [afterStarts, List.foldl_append]
      rfl
    rw [after, lifespan]
    split
    · exact ⟨history, replayed, earlier⟩
    · rcases runMigrations_cases start.env start.directory (afterStarts fresh starts) with ⟨message, ran⟩ | ⟨count, after, added, ran, advance⟩
      · rw [ran]
        exact ⟨history, replayed, earlier⟩
      · rw [ran]
        refine ⟨history ++ added, replayed.advance advance, fun applied mem => ?_⟩
        rcases List.mem_append.mp mem with old | new
        · exact earlier applied old
        · exact ⟨start, List.mem_append_right _ (List.mem_singleton_self _), (advance.genuine applied new).1⟩

/-- However often the server starts, with whatever files and failures: no migration is applied twice, the tables are the
    recorded ones in order, a start that fails leaves the database as it was, and after one that succeeds there is nothing left to do. -/
theorem migrations_applied_once (fresh : δ) (starts : List (Start δ)) :
    (∃ history : List (Applied δ), Replayed fresh (afterStarts fresh starts) history ∧
      ∀ applied ∈ history, ∃ start ∈ starts, ⟨applied.1, .ok applied.2⟩ ∈ start.directory) ∧
    ∀ (env : Surroundings) (directory : List (File δ)),
      (∃ message, runMigrations env directory (afterStarts fresh starts) = (.error message, afterStarts fresh starts)) ∨
      ∃ count after added, runMigrations env directory (afterStarts fresh starts) = (.ok count, after) ∧
        Advance directory (afterStarts fresh starts) after count added ∧
        ∀ env, (∃ message, runMigrations env directory after = (.error message, after)) ∨
          runMigrations env directory after = (.ok 0, after) := by
  refine ⟨replayed_afterStarts fresh starts, fun env directory => ?_⟩
  rcases runMigrations_cases env directory (afterStarts fresh starts) with failed | ⟨count, after, added, ran, advance⟩
  · exact .inl failed
  · refine .inr ⟨count, after, added, ran, advance, fun env => ?_⟩
    rcases runMigrations_cases env directory after with failed | ⟨again, next, more, reran, second⟩
    · exact .inl failed
    · obtain ⟨rfl, rfl⟩ := advance.again second
      exact .inr reran

end ClaudeProxy.Storage

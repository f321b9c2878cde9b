import ClaudeProxy.Automation.ExecuteCandidate

namespace ClaudeProxy.Automation

open Kit Providers

structure Started (env : Surroundings) (db : Database) : Prop where
  connection : env.connection = .ok ()
  lock : env.fails .lock = none
  lockFree : env.lockFree = true
  insertRun : env.fails .insertRun = none
  newRunId : env.newRunId ∉ db.automationRuns.map AutomationRunRow.id

/-- One row stands for the execution; a failed one has left no task and no task run. -/
def Recorded (candidate : AutomationScheduleCandidate) (db after : Database) : Prop :=
  ∃ run, after.automationRuns = db.automationRuns ++ [run] ∧ run.automationId = candidate.automationId ∧
    (run.status = .success ∨ run.status = .failed ∧ after.tasks.map TaskRow.id = db.tasks.map TaskRow.id ∧
      after.taskRuns.map TaskRunRow.id = db.taskRuns.map TaskRunRow.id)

structure LeavesRecord (env : Surroundings) (candidate : AutomationScheduleCandidate) (db : Database) : Prop where
  unstarted : ¬ Started env db → (executeCandidate env candidate db).2 = db
  started : Started env db → Recorded candidate db (executeCandidate env candidate db).2

/-- How a part of the `try` body ends: it raises in a transaction that goes on, or in one that is aborted. -/
inductive PartEnding where
  | succeeds
  | raises
  | aborts
deriving DecidableEq

structure Part where
  ending : PartEnding
  adds : Bool

def statementEnding (failure : Option SqlFailure) (accepted : Bool) : PartEnding :=
  match failure with
  | some (.client _) => .raises
  | some (.server _) => .aborts
  | none => if accepted then .succeeds else .aborts

section Parts

variable (env : Surroundings) (db : Database)

def insertTaskPart : Part := ⟨statementEnding (env.fails .task) (env.newTaskId ∉ db.tasks.map TaskRow.id), true⟩

def taskRunPart (known : Bool) : Part :=
  ⟨statementEnding (env.fails .taskRun) (known && env.newTaskRunId ∉ db.taskRuns.map TaskRunRow.id), true⟩

/-- A task that is not there is an error of the code itself. -/
def updateTaskPart (workspaceId : Int) (taskId : IntParam) : Part :=
  match env.fails .task, taskId with
  | none, .int id => ⟨if db.tasks.any (TaskRow.isOf workspaceId id) then .succeeds else .raises, false⟩
  | failure, _ => ⟨statementEnding failure false, false⟩

/-- The foreign key of `task_runs` -/
def IntParam.isTask : IntParam → Bool
  | .true => false
  | .int id => id ∈ db.tasks.map TaskRow.id

def refusal : Part := ⟨.raises, false⟩

def actionParts (candidate : AutomationScheduleCandidate) : List Part :=
  let action := lower (strip candidate.actionType)
  if action = "create_task".toList then [insertTaskPart env db, taskRunPart env db true]
  else if action = "update_task_status".toList then
    match getConfiguredTaskId candidate.config, setTaskStatus candidate.config with
    | some taskId, some _ => [updateTaskPart env db candidate.workspaceId taskId, taskRunPart env db true]
    | _, _ => [refusal]
  else
    match getConfiguredTaskId candidate.config with
    | some taskId => [taskRunPart env db (taskId.isTask db)]
    | none => []

/-- What an execution does between its first row and its record, in the order of the source. -/
def parts (candidate : AutomationScheduleCandidate) : List Part :=
  actionParts env db candidate ++ [⟨statementEnding (env.fails .recordSuccess) true, false⟩]

/-- The first part that does not succeed leaves the transaction usable, nothing is inserted before it, and the failure can
be recorded. -/
def Recordable (candidate : AutomationScheduleCandidate) : Prop :=
  ∀ before part rest, parts env db candidate = before ++ part :: rest → (∀ p ∈ before, p.ending = .succeeds) →
    part.ending ≠ .succeeds →
      part.ending = .raises ∧ (∀ p ∈ before, p.adds = false) ∧ env.fails .recordFailure = none

end Parts

/-- How the parts end, and whether one of them has inserted a row before. -/
inductive Verdict where
  | done (added : Bool)
  | raised (added : Bool)
  | aborted

def verdict : Bool → List Part → Verdict
  | added, [] => .done added
  | added, part :: rest =>
    match part.ending with
    | .succeeds => verdict (added || part.adds) rest
    | .raises => .raised added
    | .aborts => .aborted

def Verdict.AllowsRecord (accepted : Prop) : Verdict → Prop
  | .done _ => True
  | .raised added => added = false ∧ accepted
  | .aborted => False

theorem verdict_append (added : Bool) (first rest : List Part) :
    verdict added (first ++ rest) =
      match verdict added first with
      | .done added => verdict added rest
      | other => other := by
  induction first generalizing added with
  | nil => rfl
  | cons part first ih =>
    simp only [List.cons_append, verdict]
    cases part.ending with
    | succeeds => exact ih _
    | raises => rfl
    | aborts => rfl

theorem allowsRecord_iff (accepted : Prop) (added : Bool) (all : List Part) :
    (verdict added all).AllowsRecord accepted ↔
      ∀ before part rest, all = before ++ part :: rest → (∀ p ∈ before, p.ending = .succeeds) →
        part.ending ≠ .succeeds → part.ending = .raises ∧ (added = false ∧ ∀ p ∈ before, p.adds = false) ∧ accepted := by
  induction all generalizing added with
  | nil => simp [verdict, Verdict.AllowsRecord]
  | cons first all ih =>
    have here : (∀ before part rest, first :: all = before ++ part :: rest → (∀ p ∈ before, p.ending = .succeeds) →
        part.ending ≠ .succeeds → part.ending = .raises ∧ (added = false ∧ ∀ p ∈ before, p.adds = false) ∧ accepted) ↔
        (first.ending ≠ .succeeds → first.ending = .raises ∧ added = false ∧ accepted) ∧
        (first.ending = .succeeds → ∀ before part rest, all = before ++ part :: rest → (∀ p ∈ before, p.ending = .succeeds) →
          part.ending ≠ .succeeds →
            part.ending = .raises ∧ ((added || first.adds) = false ∧ ∀ p ∈ before, p.adds = false) ∧ accepted) := by
      constructor
      · intro every
        constructor
        · intro fails
          have now := every [] first all rfl (fun _ mem => absurd mem List.not_mem_nil) fails
          exact ⟨now.1, now.2.1.1, now.2.2⟩
        · intro succeeds before part rest split earlier fails
          have later := every (first :: before) part rest (congrArg (first :: ·) split)
            (List.forall_mem_cons.mpr ⟨succeeds, earlier⟩) fails
          have adds := List.forall_mem_cons.mp later.2.1.2
          exact ⟨later.1, ⟨by rw [later.2.1.1, adds.1]; rfl, adds.2⟩, later.2.2⟩
      · rintro ⟨now, later⟩ before part rest split earlier fails
        cases before with
        | nil =>
          obtain ⟨rfl, rfl⟩ := List.cons.inj split
          have this := now fails
          exact ⟨this.1, ⟨this.2.1, fun _ mem => absurd mem List.not_mem_nil⟩, this.2.2⟩
        | cons p before =>
          obtain ⟨rfl, tail⟩ := List.cons.inj split
          have both := List.forall_mem_cons.mp earlier
          have this := later both.1 before part rest tail both.2 fails
          obtain ⟨unadded, plain⟩ := Bool.or_eq_false_iff.mp this.2.1.1
          exact ⟨this.1, ⟨unadded, List.forall_mem_cons.mpr ⟨plain, this.2.1.2⟩⟩, this.2.2⟩
    rw [here, verdict]
    cases shape : first.ending with
    | succeeds =>
      simp only [ne_eq, not_true_eq_false, false_implies, true_and, true_implies]
      exact ih _
    | raises => simp [Verdict.AllowsRecord]
    | aborts => simp [Verdict.AllowsRecord]

theorem recordable_iff (env : Surroundings) (db : Database) (candidate : AutomationScheduleCandidate) :
    Recordable env db candidate ↔
      (verdict false (parts env db candidate)).AllowsRecord (env.fails .recordFailure = none) := by
  rw [allowsRecord_iff]
  simp only [true_and]
  rfl

/-- What has become of the tables since the execution's row was inserted. -/
structure Grown (base db : Database) (added : Bool) : Prop where
  runs : db.automationRuns = base.automationRuns
  kept : added = false → db.tasks.map TaskRow.id = base.tasks.map TaskRow.id ∧
    db.taskRuns.map TaskRunRow.id = base.taskRuns.map TaskRunRow.id
  more : added = true → base.tasks.length + base.taskRuns.length < db.tasks.length + db.taskRuns.length
  never : base.tasks.length + base.taskRuns.length ≤ db.tasks.length + db.taskRuns.length

/-- Code that ends as its parts say; `post` holds where all of them succeed. -/
def EndsAs {α : Type} (base db : Database) (added : Bool) (code : Sql Database α) (all : List Part)
    (post : α → Database → Prop) : Prop :=
  match verdict added all with
  | .done added => ∃ value db', code ⟨db, false⟩ = (.ok value, ⟨db', false⟩) ∧ Grown base db' added ∧ post value db'
  | .raised added => ∃ message db', code ⟨db, false⟩ = (.error message, ⟨db', false⟩) ∧ Grown base db' added
  | .aborted => ∃ message db', code ⟨db, false⟩ = (.error message, ⟨db', true⟩)

section Endings

variable {α β : Type} {base db : Database} {added : Bool}

theorem endsAs_pure {post : α → Database → Prop} (grown : Grown base db added) {value : α} (holds : post value db) :
    EndsAs base db added (pure value) [] post := ⟨value, db, rfl, grown, holds⟩

theorem endsAs_raise {post : β → Database → Prop} (grown : Grown base db added) (message : Str)
    (next : α → Sql Database β) : EndsAs base db added (Sql.raise message >>= next) [refusal] post :=
  ⟨message, db, rfl, grown⟩

theorem endsAs_bind {first : Sql Database α} {next : α → Sql Database β} {all rest : List Part}
    {middle : α → Database → Prop} {post : β → Database → Prop} (begins : EndsAs base db added first all middle)
    (goesOn : ∀ value db' added', Grown base db' added' → middle value db' →
      EndsAs base db' added' (next value) rest post) :
    EndsAs base db added (first >>= next) (all ++ rest) post := by
  unfold EndsAs at begins ⊢
  rw [verdict_append]
  cases shape : verdict added all with
  | done added' =>
    simp only [shape] at begins
    obtain ⟨value, db', ran, grown, holds⟩ := begins
    have later := goesOn value db' added' grown holds
    rw [Sql.bind_ok ran]
    exact later
  | raised added' =>
    simp only [shape] at begins
    obtain ⟨message, db', ran, grown⟩ := begins
    exact ⟨message, db', Sql.bind_error ran, grown⟩
  | aborted =>
    simp only [shape] at begins
    obtain ⟨message, db', ran⟩ := begins
    exact ⟨message, db', Sql.bind_error ran⟩

theorem returning_of_statement {failure : Option SqlFailure} {effect : Database → Except Str (Option Int × Database)}
    {otherwise : Str} {id : Int} {db' : Database} (accepted : effect db = .ok (some id, db')) (sent : failure = none) :
    returning failure effect otherwise ⟨db, false⟩ = (.ok id, ⟨db', false⟩) := by
  exact Sql.bind_ok (Sql.statement_ok sent accepted)

theorem returning_fails {failure : Option SqlFailure} {effect : Database → Except Str (Option Int × Database)}
    {otherwise : Str} {accepted : Bool} {post : Int → Database → Prop} (grown : Grown base db added) (adds : Bool)
    (refuses : failure = none → accepted = false → ∃ message, effect db = .error message)
    (fails : statementEnding failure accepted ≠ .succeeds) :
    EndsAs base db added (returning failure effect otherwise) [⟨statementEnding failure accepted, adds⟩] post := by
  cases failure with
  | some failure =>
    cases failure with
    | client message => exact ⟨message, db, rfl, grown⟩
    | server message => exact ⟨message, db, rfl⟩
  | none =>
    cases accepted with
    | true => exact absurd rfl fails
    | false =>
      obtain ⟨message, refused⟩ := refuses rfl rfl
      exact ⟨message, db, Sql.bind_error (Sql.statement_refused refused)⟩

theorem statementEnding_succeeds {failure : Option SqlFailure} {accepted : Bool}
    (succeeds : statementEnding failure accepted = .succeeds) : failure = none ∧ accepted = true := by
  cases failure with
  | some failure => cases failure <;> cases succeeds
  | none =>
    cases accepted with
    | true => exact ⟨rfl, rfl⟩
    | false => cases succeeds

/-- An `INSERT … RETURNING id` -/
theorem endsAs_insert {failure : Option SqlFailure} {effect : Database → Except Str (Option Int × Database)}
    {otherwise : Str} {accepted : Bool} {post : Int → Database → Prop} (grown : Grown base db added)
    (refuses : accepted = false → ∃ message, effect db = .error message)
    (accepts : accepted = true → ∃ id db', effect db = .ok (some id, db') ∧ db'.automationRuns = db.automationRuns ∧
      db.tasks.length + db.taskRuns.length < db'.tasks.length + db'.taskRuns.length ∧ post id db') :
    EndsAs base db added (returning failure effect otherwise) [⟨statementEnding failure accepted, true⟩] post := by
  by_cases succeeds : statementEnding failure accepted = .succeeds
  · obtain ⟨sent, fine⟩ := statementEnding_succeeds succeeds
    obtain ⟨id, db', inserted, runs, longer, holds⟩ := accepts fine
    have before := grown.never
    have more : Grown base db' true := by
      refine ⟨runs.trans grown.runs, Bool.noConfusion, ?_, ?_⟩
      · intro _
        omega
      · omega
    simp only [EndsAs, verdict, succeeds, Bool.or_true]
    exact ⟨id, db', returning_of_statement inserted sent, more, holds⟩
  · exact returning_fails grown true (fun _ => refuses) succeeds

end Endings

section Bodies

variable (env : Surroundings) (candidate : AutomationScheduleCandidate) {base db : Database} {added : Bool}

theorem endsAs_insertTask (grown : Grown base db added) :
    EndsAs base db added (createTaskFromTemplate env candidate) [insertTaskPart env db]
      fun id db' => id ∈ db'.tasks.map TaskRow.id ∧ db'.taskRuns = db.taskRuns := by
  apply endsAs_insert grown
  · intro taken
    exact ⟨duplicateKey, if_pos (not_not.mp (of_decide_eq_false taken))⟩
  · intro fresh
    refine ⟨_, _, if_neg (of_decide_eq_true fresh), rfl, ?_, ?_, rfl⟩
    · simp
    · simp

theorem endsAs_taskRun (grown : Grown base db added) (taskId : IntParam) (metadata : Members) {known : Bool}
    (knows : taskId.isTask db = known) {original : Database} (same : db.taskRuns = original.taskRuns) :
    EndsAs base db added (createTaskRun env candidate taskId metadata) [taskRunPart env original known]
      fun _ _ => ∃ id, taskId = .int id := by
  rw [taskRunPart, ← same]
  apply endsAs_insert grown
  · intro refused
    cases taskId with
    | true => exact ⟨booleanForBigint, rfl⟩
    | int id =>
      rw [← knows] at refused
      by_cases taken : env.newTaskRunId ∈ db.taskRuns.map TaskRunRow.id
      · exact ⟨duplicateKey, if_pos taken⟩
      · have unknown : id ∉ db.tasks.map TaskRow.id := by simpa [taken, IntParam.isTask] using refused
        refine ⟨foreignKey, ?_⟩
        rw [insertTaskRun, if_neg taken, if_neg unknown]
  · intro accepted
    obtain ⟨there, fresh⟩ := Bool.and_eq_true_iff.mp accepted
    cases taskId with
    | true =>
      rw [← knows] at there
      cases there
    | int id =>
      rw [← knows] at there
      have listed : id ∈ db.tasks.map TaskRow.id := of_decide_eq_true there
      refine ⟨_, _, (if_neg (of_decide_eq_true fresh)).trans (if_pos listed), rfl, ?_, id, rfl⟩
      simp

theorem map_id_update (tasks : List TaskRow) (chosen : TaskRow → Bool) (status : Str) :
    (tasks.map fun row => if chosen row then { row with status := status } else row).map TaskRow.id =
      tasks.map TaskRow.id := by
  rw [List.map_map]
  apply List.map_congr_left
  intro row _
  show (if chosen row then { row with status := status } else row).id = row.id
  split_ifs <;> rfl

theorem endsAs_updateTask (grown : Grown base db added) (status : Str) (taskId : IntParam) (otherwise : Str) :
    EndsAs base db added (returning (env.fails .task) (updateTask candidate status taskId) otherwise)
      [updateTaskPart env db candidate.workspaceId taskId]
      fun id db' => id ∈ db'.tasks.map TaskRow.id ∧ db'.taskRuns = db.taskRuns := by
  have refused : ∀ failure, statementEnding failure false ≠ .succeeds := by
    intro failure succeeds
    exact absurd (statementEnding_succeeds succeeds).2 Bool.false_ne_true
  unfold updateTaskPart
  cases sent : env.fails .task with
  | some failure => exact returning_fails grown false (fun unsent => by cases unsent) (refused (some failure))
  | none =>
    cases taskId with
    | true => exact returning_fails grown false (fun _ _ => ⟨booleanForBigint, rfl⟩) (refused none)
    | int id =>
      have updated : ∀ tasks : List TaskRow, tasks.map TaskRow.id = db.tasks.map TaskRow.id →
          Grown base { db with tasks := tasks } added := by
        intro tasks ids
        have length := congrArg List.length ids
        rw [List.length_map, List.length_map] at length
        refine ⟨grown.runs, ?_, ?_, ?_⟩
        · intro none
          exact ⟨ids.trans (grown.kept none).1, (grown.kept none).2⟩
        · intro some
          rw [length]
          exact grown.more some
        · rw [length]
          exact grown.never
      have effect : ∃ tasks, updateTask candidate status (.int id) db =
          .ok ((db.tasks.find? (TaskRow.isOf candidate.workspaceId id)).map TaskRow.id, { db with tasks := tasks }) ∧
          tasks.map TaskRow.id = db.tasks.map TaskRow.id :=
        ⟨_, rfl, map_id_update db.tasks (TaskRow.isOf candidate.workspaceId id) status⟩
      obtain ⟨tasks, effect, ids⟩ := effect
      cases found : db.tasks.find? (TaskRow.isOf candidate.workspaceId id) with
      | none =>
        have absent : db.tasks.any (TaskRow.isOf candidate.workspaceId id) = false := by
          rw [← List.isSome_find?, found]
          rfl
        rw [found] at effect
        simp only [absent, Bool.false_eq_true, if_false]
        exact ⟨otherwise, _, Sql.bind_ok (Sql.statement_ok rfl effect), updated tasks ids⟩
      | some row =>
        have present : db.tasks.any (TaskRow.isOf candidate.workspaceId id) = true := by
          rw [← List.isSome_find?, found]
          rfl
        rw [found] at effect
        simp only [present, if_true]
        refine ⟨row.id, _, returning_of_statement effect rfl, ?_, ?_, rfl⟩
        · rw [Bool.or_false]
          exact updated tasks ids
        · rw [ids]
          exact List.mem_map_of_mem (List.mem_of_find?_eq_some found)

def withRun (metadata : Members) (taskId : Option IntParam) : Sql Database (Option IntParam × Option Int) := do
  let taskRunId ← match taskId with
    | none => pure none
    | some id => do
      let taskRunId ← createTaskRun env candidate id metadata
      pure (some taskRunId)
  pure (taskId, taskRunId)

def recordSucceeded (runId : Int) (found : Option IntParam × Option Int) : Sql Database ExecutionResult := do
  Sql.statement (env.fails .recordSuccess) (recordSuccess env found.1 found.2 runId)
  pure (.success runId found.1 found.2)

theorem attempt_eq (runId : Int) :
    attempt env candidate runId =
      (applyAutomationAction env candidate >>= withRun env candidate
          [("automation_id".toList, .integer candidate.automationId), ("automation_run_id".toList, .integer runId)]) >>=
        recordSucceeded env runId := by
  rw [Sql.bind_assoc]
  apply congrArg (applyAutomationAction env candidate >>= ·)
  funext taskId
  cases taskId with
  | none => rfl
  | some id =>
    show _ = (createTaskRun env candidate id _ >>= _) >>= _
    rw [Sql.bind_assoc]
    rfl

theorem endsAs_withRun (grown : Grown base db added) (taskId : IntParam) (metadata : Members) {known : Bool}
    (knows : taskId.isTask db = known) {original : Database} (same : db.taskRuns = original.taskRuns) :
    EndsAs base db added (withRun env candidate metadata (some taskId)) [taskRunPart env original known]
      fun found _ => found.1 ≠ some .true := by
  have goesOn : ∀ (taskRunId : Int) db' added', Grown base db' added' → (∃ id, taskId = .int id) →
      EndsAs base db' added' (pure (some taskId, some taskRunId) : Sql Database (Option IntParam × Option Int)) []
        fun found _ => found.1 ≠ some .true := by
    rintro taskRunId db' added' grown' ⟨id, rfl⟩
    exact endsAs_pure grown' (fun same => by cases same)
  exact endsAs_bind (endsAs_taskRun env candidate grown taskId metadata knows same) goesOn

theorem endsAs_action (grown : Grown base base false) (metadata : Members) :
    EndsAs base base false (applyAutomationAction env candidate >>= withRun env candidate metadata)
      (actionParts env base candidate) fun found _ => found.1 ≠ some .true := by
  have followed : ∀ (id : Int) db' added', Grown base db' added' →
      id ∈ db'.tasks.map TaskRow.id ∧ db'.taskRuns = base.taskRuns →
      EndsAs base db' added' (pure (some (.int id)) >>= withRun env candidate metadata) [taskRunPart env base true]
        fun found _ => found.1 ≠ some .true := by
    intro id db' added' grown' after
    exact endsAs_withRun env candidate grown' (.int id) metadata (decide_eq_true after.1) after.2
  unfold applyAutomationAction actionParts
  dsimp only
  split_ifs with create update
  · rw [Sql.bind_assoc]
    exact endsAs_bind (endsAs_insertTask env candidate grown) followed
  · cases configured : getConfiguredTaskId candidate.config with
    | none => exact endsAs_raise grown _ _
    | some taskId =>
      cases chosen : setTaskStatus candidate.config with
      | none => exact endsAs_raise grown _ _
      | some status =>
        dsimp only
        rw [Sql.bind_assoc]
        exact endsAs_bind (endsAs_updateTask env candidate grown status taskId _) followed
  · cases configured : getConfiguredTaskId candidate.config with
    | none => exact endsAs_pure grown (fun same => by cases same)
    | some taskId => exact endsAs_withRun env candidate grown taskId metadata rfl rfl

end Bodies

section Records

variable (env : Surroundings) (candidate : AutomationScheduleCandidate) {db : Database}

def runRow : AutomationRunRow :=
  ⟨env.newRunId, candidate.automationId, candidate.workspaceId, none, none, .running, env.now, none, none,
    [("trigger_source".toList, .string "scheduler".toList), ("evaluated_at".toList, .string env.evaluatedAt),
      ("action_type".toList, .string candidate.actionType)]⟩

def withRunRow (db : Database) : Database := { db with automationRuns := db.automationRuns ++ [runRow env candidate] }

theorem grown_withRunRow (db : Database) : Grown (withRunRow env candidate db) (withRunRow env candidate db) false :=
  ⟨rfl, fun _ => ⟨rfl, rfl⟩, fun more => (Bool.false_ne_true more).elim, Nat.le_refl _⟩

theorem execution_asked (lock : env.fails .lock = none) :
    execution env candidate ⟨db, false⟩ =
      if env.lockFree then
        (returning (env.fails .insertRun) (insertAutomationRun env candidate) "failed to create automation run".toList >>=
          fun runId => Sql.handle (attempt env candidate runId) (recordFailed env runId)) ⟨db, false⟩
      else (.ok .skippedLocked, ⟨db, false⟩) := by
  have asked : Sql.statement (env.fails .lock) (fun db => .ok (env.lockFree, db)) ⟨db, false⟩ =
      (.ok env.lockFree, (⟨db, false⟩ : Cursor Database)) := Sql.statement_ok lock rfl
  unfold execution
  rw [Sql.bind_ok asked]
  cases env.lockFree <;> rfl

theorem execution_started (started : Started env db) :
    execution env candidate ⟨db, false⟩ =
      Sql.handle (attempt env candidate env.newRunId) (recordFailed env env.newRunId)
        ⟨withRunRow env candidate db, false⟩ := by
  have inserted : insertAutomationRun env candidate db = .ok (some env.newRunId, withRunRow env candidate db) :=
    if_neg started.newRunId
  rw [execution_asked env candidate started.lock, if_pos started.lockFree]
  exact Sql.bind_ok (returning_of_statement inserted started.insertRun)

theorem automationRuns_setRun (fresh : env.newRunId ∉ db.automationRuns.map AutomationRunRow.id)
    (change : AutomationRunRow → AutomationRunRow) {after : Database} {added : Bool}
    (grown : Grown (withRunRow env candidate db) after added) :
    (setRun env.newRunId change after).automationRuns = db.automationRuns ++ [change (runRow env candidate)] := by
  show after.automationRuns.map _ = _
  rw [grown.runs]
  show (db.automationRuns ++ [runRow env candidate]).map _ = _
  rw [List.map_append, List.map_singleton]
  have others : (db.automationRuns.map fun row => if row.id = env.newRunId then change row else row) =
    db.automationRuns := by
    conv_rhs => rw [← List.map_id db.automationRuns]
    apply List.map_congr_left
    intro row mem
    have other : row.id ≠ env.newRunId := fun same => fresh (List.mem_map.mpr ⟨row, mem, same⟩)
    exact if_neg other
  have own : (runRow env candidate).id = env.newRunId := rfl
  rw [others, if_pos own]

theorem not_recorded_self (db : Database) : ¬ Recorded candidate db db := by
  rintro ⟨run, same, -⟩
  have length := congrArg List.length same
  rw [List.length_append, List.length_singleton] at length
  omega

theorem recorded_failed_iff (fresh : env.newRunId ∉ db.automationRuns.map AutomationRunRow.id)
    {change : AutomationRunRow → AutomationRunRow} (status : (change (runRow env candidate)).status = .failed)
    (automation : (change (runRow env candidate)).automationId = candidate.automationId) {after : Database} {added : Bool}
    (grown : Grown (withRunRow env candidate db) after added) :
    Recorded candidate db (setRun env.newRunId change after) ↔ added = false := by
  have runs := automationRuns_setRun env candidate fresh change grown
  constructor
  · rintro ⟨run, there, -, ended⟩
    rw [runs] at there
    have last := List.singleton_inj.mp (List.append_cancel_left there)
    rcases ended with success | ⟨-, tasks, taskRuns⟩
    · rw [← last, status] at success
      cases success
    · cases added with
      | false => rfl
      | true =>
        have more := grown.more rfl
        have tasks_length := congrArg List.length tasks
        have taskRuns_length := congrArg List.length taskRuns
        rw [List.length_map, List.length_map] at tasks_length taskRuns_length
        simp only [setRun] at tasks_length taskRuns_length
        simp only [withRunRow] at more
        omega
  · intro none
    obtain ⟨tasks, taskRuns⟩ := grown.kept none
    exact ⟨_, runs, automation, .inr ⟨status, tasks, taskRuns⟩⟩

theorem recorded_iff_of_raised (started : Started env db) {message : Str} {after : Database} {added : Bool}
    (raised : attempt env candidate env.newRunId ⟨withRunRow env candidate db, false⟩ = (.error message, ⟨after, false⟩))
    (grown : Grown (withRunRow env candidate db) after added) :
    Recorded candidate db (executeCandidate env candidate db).2 ↔ added = false ∧ env.fails .recordFailure = none := by
  have handled : execution env candidate ⟨db, false⟩ = recordFailed env env.newRunId message ⟨after, false⟩ := by
    rw [execution_started env candidate started, Sql.handle_error raised]
  rw [executeCandidate, started.connection]
  cases sent : env.fails .recordFailure with
  | some failure =>
    obtain ⟨refusal, aborted, failed⟩ := Sql.statement_failed failure (recordFailure env message env.newRunId) after
    rw [← sent] at failed
    have lost := Sql.transaction_error (handled.trans (Sql.bind_error failed))
    apply iff_of_false
    · rw [lost]
      exact not_recorded_self candidate db
    · rintro ⟨-, unsent⟩
      cases unsent
  | none =>
    have committed := Sql.transaction_ok (handled.trans (Sql.bind_ok (Sql.statement_ok sent rfl)))
    show Recorded candidate db (Sql.transaction (execution env candidate) db).2 ↔ _
    rw [committed]
    exact (recorded_failed_iff env candidate started.newRunId rfl rfl grown).trans (and_iff_left rfl).symm

theorem not_recorded_of_aborted (started : Started env db) {message : Str} {after : Database}
    (raised : attempt env candidate env.newRunId ⟨withRunRow env candidate db, false⟩ = (.error message, ⟨after, true⟩)) :
    ¬ Recorded candidate db (executeCandidate env candidate db).2 := by
  have handled : execution env candidate ⟨db, false⟩ = recordFailed env env.newRunId message ⟨after, true⟩ := by
    rw [execution_started env candidate started, Sql.handle_error raised]
  obtain ⟨refusal, failed⟩ :=
    Sql.statement_aborted (env.fails .recordFailure) (recordFailure env message env.newRunId) after
  have lost := Sql.transaction_error (handled.trans (Sql.bind_error failed))
  rw [executeCandidate, started.connection]
  show ¬ Recorded candidate db (Sql.transaction (execution env candidate) db).2
  rw [lost]
  exact not_recorded_self candidate db

theorem recordable_done {added : Bool} {all : List Part} (ends : verdict false all = .done added) (accepted : Prop) :
    (verdict false (all ++ [⟨statementEnding (env.fails .recordSuccess) true, false⟩])).AllowsRecord accepted ↔
      match env.fails .recordSuccess with
      | none => True
      | some (.client _) => added = false ∧ accepted
      | some (.server _) => False := by
  rw [verdict_append, ends]
  cases env.fails .recordSuccess with
  | none => exact Iff.rfl
  | some failure => cases failure <;> exact Iff.rfl

theorem recorded_iff_of_done (started : Started env db) {found : Option IntParam × Option Int} {after : Database}
    {added : Bool}
    (ran : attempt env candidate env.newRunId ⟨withRunRow env candidate db, false⟩ =
      recordSucceeded env env.newRunId found ⟨after, false⟩)
    (known : found.1 ≠ some .true) (grown : Grown (withRunRow env candidate db) after added) :
    Recorded candidate db (executeCandidate env candidate db).2 ↔
      match env.fails .recordSuccess with
      | none => True
      | some (.client _) => added = false ∧ env.fails .recordFailure = none
      | some (.server _) => False := by
  cases sent : env.fails .recordSuccess with
  | some failure =>
    cases failure with
    | client message =>
      apply recorded_iff_of_raised env candidate started _ grown
      · exact message
      · rw [ran]
        apply Sql.bind_error
        rw [sent]
        rfl
    | server message =>
      apply iff_of_false _ id
      apply not_recorded_of_aborted env candidate started
      · rw [ran]
        apply Sql.bind_error
        rw [sent]
        rfl
  | none =>
    have effect : ∃ taskId, recordSuccess env found.1 found.2 env.newRunId after = .ok ((), setRun env.newRunId (fun row =>
        { row with status := .success, finishedAt := some env.now, taskId := taskId, taskRunId := found.2 }) after) := by
      rcases found with ⟨taskId, taskRunId⟩
      cases taskId with
      | none => exact ⟨none, rfl⟩
      | some taskId =>
        cases taskId with
        | true => exact absurd rfl known
        | int id => exact ⟨some id, rfl⟩
    obtain ⟨taskId, effect⟩ := effect
    have attempted := ran.trans (Sql.bind_ok (Sql.statement_ok sent effect))
    have committed := Sql.transaction_ok ((execution_started env candidate started).trans (Sql.handle_ok attempted))
    apply iff_of_true _ trivial
    rw [executeCandidate, started.connection]
    show Recorded candidate db (Sql.transaction (execution env candidate) db).2
    rw [committed]
    exact ⟨_, automationRuns_setRun env candidate started.newRunId _ grown, rfl, .inl rfl⟩

/-- The execution has its record as far as the parts of the `try` body allow. -/
theorem recorded_iff (started : Started env db) :
    Recorded candidate db (executeCandidate env candidate db).2 ↔ Recordable env db candidate := by
  have action := endsAs_action env candidate (grown_withRunRow env candidate db)
    [("automation_id".toList, .integer candidate.automationId), ("automation_run_id".toList, .integer env.newRunId)]
  have same : Recordable env db candidate ↔ Recordable env (withRunRow env candidate db) candidate := Iff.rfl
  rw [same, recordable_iff, parts]
  unfold EndsAs at action
  cases ends : verdict false (actionParts env (withRunRow env candidate db) candidate) with
  | raised added =>
    simp only [ends] at action
    obtain ⟨message, after, raised, grown⟩ := action
    have attempted := (congrFun (attempt_eq env candidate env.newRunId) _).trans (Sql.bind_error raised)
    rw [verdict_append, ends]
    exact recorded_iff_of_raised env candidate started attempted grown
  | aborted =>
    simp only [ends] at action
    obtain ⟨message, after, raised⟩ := action
    have attempted := (congrFun (attempt_eq env candidate env.newRunId) _).trans (Sql.bind_error raised)
    rw [verdict_append, ends]
    exact iff_of_false (not_recorded_of_aborted env candidate started attempted) id
  | done added =>
    simp only [ends] at action
    obtain ⟨found, after, ran, grown, known⟩ := action
    have attempted := (congrFun (attempt_eq env candidate env.newRunId) _).trans (Sql.bind_ok ran)
    rw [recordable_done env ends]
    exact recorded_iff_of_done env candidate started attempted known grown

theorem executeCandidate_of_error (env : Surroundings) (candidate : AutomationScheduleCandidate) {message : Str}
    {cursor : Cursor Database} (raised : execution env candidate ⟨db, false⟩ = (.error message, cursor)) :
    (executeCandidate env candidate db).2 = db := by
  unfold executeCandidate
  cases env.connection with
  | error message => rfl
  | ok _ => exact congrArg Prod.snd (Sql.transaction_error raised)

theorem executeCandidate_unstarted (unstarted : ¬ Started env db) : (executeCandidate env candidate db).2 = db := by
  cases connection : env.connection with
  | error message => rw [executeCandidate, connection]
  | ok _ =>
    cases lock : env.fails .lock with
    | some failure =>
      obtain ⟨message, aborted, failed⟩ :=
        Sql.statement_failed failure (fun db : Database => .ok (env.lockFree, db)) db
      rw [← lock] at failed
      exact executeCandidate_of_error env candidate (Sql.bind_error failed)
    | none =>
      have asked := @execution_asked env candidate db lock
      cases free : env.lockFree with
      | false =>
        rw [free, if_neg Bool.false_ne_true] at asked
        rw [executeCandidate, connection]
        exact congrArg Prod.snd (Sql.transaction_ok asked)
      | true =>
        rw [free, if_pos rfl] at asked
        cases sent : env.fails .insertRun with
        | some failure =>
          obtain ⟨message, aborted, failed⟩ := Sql.statement_failed failure (insertAutomationRun env candidate) db
          rw [← sent] at failed
          exact executeCandidate_of_error env candidate (asked.trans (Sql.bind_error (Sql.bind_error failed)))
        | none =>
          have taken : env.newRunId ∈ db.automationRuns.map AutomationRunRow.id := by
            by_contra fresh
            exact unstarted ⟨connection, lock, free, sent, fresh⟩
          have refused : insertAutomationRun env candidate db = .error duplicateKey := if_pos taken
          have failed := Sql.statement_refused refused
          rw [← sent] at failed
          exact executeCandidate_of_error env candidate (asked.trans (Sql.bind_error (Sql.bind_error failed)))

end Records

theorem leavesRecord_iff (env : Surroundings) (candidate : AutomationScheduleCandidate) (db : Database) :
    LeavesRecord env candidate db ↔ (Started env db → Recordable env db candidate) := by
  constructor
  · intro leaves started
    exact (recorded_iff env candidate started).mp (leaves.started started)
  · intro recordable
    refine ⟨executeCandidate_unstarted env candidate, ?_⟩
    intro started
    exact (recorded_iff env candidate started).mpr (recordable started)

section Samples

/-- A rule that asks for a task run of a task that does not exist. -/
def deletedTask : AutomationScheduleCandidate where
  automationId := 1
  workspaceId := 7
  name := "Remind".toList
  actionType := "notify".toList
  config := [("task_id".toList, .integer 42)]
  lastRunAt := none

def allWell : Surroundings where
  connection := .ok ()
  fails _ := none
  lockFree := true
  newRunId := 1
  newTaskId := 1
  newTaskRunId := 1
  now := 0
  evaluatedAt := "2025-01-01T00:00:00+00:00".toList
  text := PyText.ascii

theorem not_leavesRecord : ¬ ∀ (env : Surroundings) (candidate : AutomationScheduleCandidate) (db : Database),
    LeavesRecord env candidate db := by
  intro all
  have started : Started allWell ⟨[], [], []⟩ := ⟨rfl, rfl, rfl, rfl, List.not_mem_nil⟩
  obtain ⟨run, recorded, -⟩ := (all allWell deletedTask ⟨[], [], []⟩).started started
  cases recorded

end Samples

end ClaudeProxy.Automation

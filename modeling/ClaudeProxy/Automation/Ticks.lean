import ClaudeProxy.Automation.DailyRun
import ClaudeProxy.Automation.Isolation

namespace ClaudeProxy.Automation

open Kit

namespace AutomationTable

def scheduled (table : AutomationTable) : List AutomationRow :=
  table.rows.filter fun row => row.enabled ∧ row.triggerType = "schedule".toList

def batch (table : AutomationTable) (o : SchedulerOptions) : List AutomationRow :=
  (table.scheduled.insertionSort updatedLater).take (max 1 o.maxBatch)

theorem fetchCandidates_eq (o : SchedulerOptions) (table : AutomationTable) (runs : List AutomationRun) :
    fetchCandidates o table runs = (table.batch o).map (candidateOf runs) := rfl

theorem mem_rows_of_batch {o : SchedulerOptions} {table : AutomationTable} {row : AutomationRow}
    (member : row ∈ table.batch o) : row ∈ table.rows := by
  have sorted := List.mem_of_mem_take member
  rw [List.mem_insertionSort] at sorted
  exact (List.mem_filter.mp sorted).1

end AutomationTable

structure TickRecord where
  server : Nat
  nowUtc : Time
  runs : List AutomationRun
  outcomes : List (Int × EnqueueOutcome)
deriving DecidableEq

namespace TickRecord

def Due (row : AutomationRow) (t : TickRecord) : Prop := isDailyRuleDue (candidateOf t.runs row) t.nowUtc = .ok true

/-- The tick offered the row to the worker, which took it or had it in flight. -/
def Served (row : AutomationRow) (t : TickRecord) : Prop :=
  (row.id, .enqueued) ∈ t.outcomes ∨ (row.id, .alreadyInFlight) ∈ t.outcomes

def HadRoom (t : TickRecord) : Prop := ∀ automationId, (automationId, .queueFull) ∉ t.outcomes

def Evaluates (o : SchedulerOptions) (table : AutomationTable) (t : TickRecord) : Prop :=
  ∀ row ∈ table.batch o, Evaluable (candidateOf t.runs row) t.nowUtc

/-- The calls of `enqueue` are those of the source on what the tick has read. -/
def Sound (o : SchedulerOptions) (table : AutomationTable) (t : TickRecord) : Prop :=
  ∃ worker, t.outcomes = tickOutcomes o t.nowUtc worker (fetchCandidates o table t.runs)

end TickRecord

/-- What an observer of the servers notes: the runs that each open tick has read, and the ticks that are over. -/
structure TickLog where
  snapshot : Nat → List AutomationRun
  ticks : List TickRecord

namespace TickLog

def empty : TickLog := ⟨fun _ => [], []⟩

def note (o : SchedulerOptions) (c : Cluster) (a : Action) (log : TickLog) : TickLog :=
  match a with
  | .fetch i => { log with snapshot := fun j => if j = i then c.runs else log.snapshot j }
  | .enqueueDue i =>
    match (c.servers i).tick with
    | some (.fetched nowUtc candidates) =>
      { log with ticks := log.ticks ++
          [⟨i, nowUtc, log.snapshot i, tickOutcomes o nowUtc (c.servers i).worker candidates⟩] }
    | _ => log
  | _ => log

def ofServer (log : TickLog) (i : Nat) : List TickRecord := log.ticks.filter fun t => t.server = i

end TickLog

def watched (o : SchedulerOptions) (table : AutomationTable) (start : Time) : Machine (Cluster × TickLog) Action :=
  (Cluster.machine o table start).watch .empty (TickLog.note o)

section Log

variable {o : SchedulerOptions} {table : AutomationTable} {start : Time}

structure LogSound (o : SchedulerOptions) (table : AutomationTable) (w : Cluster × TickLog) : Prop where
  fetched : ∀ i nowUtc candidates, (w.1.servers i).tick = some (.fetched nowUtc candidates) →
    candidates = fetchCandidates o table (w.2.snapshot i)
  ticks : ∀ t ∈ w.2.ticks, t.Sound o table

/-- A step that neither reads the database nor ends a tick keeps the open ticks that have read it. -/
theorem LogSound.keep {c next : Cluster} {log : TickLog} (sound : LogSound o table (c, log))
    (same : ∀ i nowUtc candidates, (next.servers i).tick = some (.fetched nowUtc candidates) →
      (c.servers i).tick = some (.fetched nowUtc candidates)) : LogSound o table (next, log) :=
  ⟨fun i nowUtc candidates here => sound.fetched i nowUtc candidates (same i nowUtc candidates here), sound.ticks⟩

theorem setServer_tick {c : Cluster} {i j : Nat} {server : Server} {tick : Option Tick}
    (here : ((c.setServer i server).servers j).tick = tick) : j = i ∧ server.tick = tick ∨ (c.servers j).tick = tick := by
  by_cases same : j = i
  · subst same
    rw [Cluster.setServer] at here
    simp only [if_true] at here
    exact .inl ⟨rfl, here⟩
  · rw [Cluster.setServer] at here
    simp only [if_neg same] at here
    exact .inr here

theorem LogSound.step {w next : Cluster × TickLog} {a : Action} (sound : LogSound o table w)
    (taken : (watched o table start).step w a = some next) : LogSound o table next := by
  obtain ⟨c, log⟩ := w
  obtain ⟨after, noted⟩ := next
  obtain ⟨taken, rfl⟩ := Machine.watch_step.mp taken
  replace taken : c.step o table a = some after := taken
  show LogSound o table (after, log.note o c a)
  cases Cluster.step_cases taken with
  | startTick i nowUtc idle forward =>
    apply sound.keep
    intro j now candidates here
    rcases setServer_tick here with ⟨-, opened⟩ | before
    · cases opened
    · exact before
  | fetch i nowUtc opened =>
    refine ⟨fun j now candidates here => ?_, sound.ticks⟩
    show candidates = fetchCandidates o table (if j = i then c.runs else log.snapshot j)
    by_cases own : j = i
    · rw [if_pos own]
      rcases setServer_tick here with ⟨-, read⟩ | before
      · cases read
        rfl
      · rw [own, opened] at before
        cases before
    · rw [if_neg own]
      rcases setServer_tick here with ⟨same, -⟩ | before
      · exact absurd same own
      · exact sound.fetched j now candidates before
  | enqueueDue i nowUtc candidates fetched =>
    have closed : ∀ j now later, ((c.setServer i (Cluster.enqueueAll o (c.servers i) nowUtc candidates)).servers j).tick =
        some (.fetched now later) → (c.servers j).tick = some (.fetched now later) := by
      intro j now later here
      rcases setServer_tick here with ⟨-, ended⟩ | before
      · unfold Cluster.enqueueAll at ended
        split at ended <;> cases ended
      · exact before
    refine ⟨fun j now later here => ?_, ?_⟩
    · rw [TickLog.note, fetched]
      exact sound.fetched j now later (closed j now later here)
    · rw [TickLog.note, fetched]
      intro t member
      rcases List.mem_append.mp member with before | new
      · exact sound.ticks t before
      · rw [List.mem_singleton.mp new]
        refine ⟨(c.servers i).worker, ?_⟩
        rw [← sound.fetched i nowUtc candidates fetched]
  | take i queued rest waiting free =>
    apply sound.keep
    intro j now candidates here
    rcases setServer_tick here with ⟨same, opened⟩ | before
    · exact same ▸ opened
    · exact before
  | tryLock n nowUtc server queued found forward => exact sound.keep fun _ _ _ here => here
  | commit n status server queued createdAt found => exact sound.keep fun _ _ _ here => here
  | rollback n e found going => exact sound.keep fun _ _ _ here => here
  | finish n i queued found =>
    apply sound.keep
    intro j now candidates here
    rcases setServer_tick here with ⟨same, opened⟩ | before
    · exact same ▸ opened
    · exact before

theorem logSound_of_reachable {w : Cluster × TickLog} (reached : (watched o table start).Reachable w) :
    LogSound o table w :=
  reached.invariant ⟨fun _ _ _ absent => (by cases absent), fun _ absent => (by cases absent)⟩
    fun _ _ _ sound _ taken => sound.step taken

theorem TickRecord.Sound.evaluates_iff {t : TickRecord} :
    (∃ due, dueCandidates t.nowUtc (fetchCandidates o table t.runs) = .ok due) ↔ t.Evaluates o table := by
  rw [dueCandidates_ok, AutomationTable.fetchCandidates_eq, List.forall_mem_map]
  rfl

/-- The rows that a tick offers to the worker: those of the batch that are due, if nothing in the batch raises. -/
theorem TickRecord.Sound.offered_iff {t : TickRecord} {row : AutomationRow} (sound : t.Sound o table)
    (here : row ∈ table.rows) :
    row.id ∈ t.outcomes.map Prod.fst ↔ row ∈ table.batch o ∧ t.Evaluates o table ∧ t.Due row := by
  obtain ⟨worker, outcomes⟩ := sound
  rw [outcomes, ← evaluates_iff]
  unfold tickOutcomes
  cases evaluated : dueCandidates t.nowUtc (fetchCandidates o table t.runs) with
  | error e => simp
  | ok due =>
    simp only [ActionWorker.outcomes_ids, Except.ok.injEq, exists_eq', true_and]
    have examined : ∀ r ∈ table.batch o, Evaluable (candidateOf t.runs r) t.nowUtc :=
      TickRecord.Sound.evaluates_iff.mp ⟨due, evaluated⟩
    rw [dueCandidates_eq evaluated, AutomationTable.fetchCandidates_eq]
    constructor
    · intro offered
      obtain ⟨candidate, isMember, id⟩ := List.mem_map.mp offered
      obtain ⟨fetched, due_now⟩ := List.mem_filter.mp isMember
      obtain ⟨other, inBatch, rfl⟩ := List.mem_map.mp fetched
      have same : other = row := AutomationTable.eq_of_id (AutomationTable.mem_rows_of_batch inBatch) here id
      rw [← same]
      refine ⟨inBatch, ?_⟩
      obtain ⟨value, returned⟩ := isDailyRuleDue_ok.mpr (examined other inBatch)
      unfold isDue at due_now
      rw [returned] at due_now
      show isDailyRuleDue _ _ = _
      rw [returned]
      exact congrArg Except.ok due_now
    · intro both
      obtain ⟨inBatch, due_now⟩ := both
      apply List.mem_map.mpr
      refine ⟨candidateOf t.runs row, List.mem_filter.mpr ⟨List.mem_map_of_mem inBatch, ?_⟩, rfl⟩
      unfold isDue
      rw [due_now]

end Log

/-- `⌈n / b⌉` for the scheduled rows and the batch limit. -/
def rounds (o : SchedulerOptions) (table : AutomationTable) : Nat :=
  (table.scheduled.length + (max 1 o.maxBatch - 1)) / max 1 o.maxBatch

/-- Consecutive ticks of one server, as many as the batches of the table, in which the row is due and the queue has room. -/
structure WaitingWindow (o : SchedulerOptions) (table : AutomationTable) (row : AutomationRow) (log : TickLog)
    (window : List TickRecord) : Prop where
  consecutive : ∃ i, window <:+: log.ofServer i
  length : window.length = rounds o table
  due : ∀ t ∈ window, t.Due row
  room : ∀ t ∈ window, t.HadRoom

/-- No due row is passed over for longer than it takes to go through the table once. -/
def NonePassedOver (o : SchedulerOptions) (table : AutomationTable) (log : TickLog) : Prop :=
  ∀ row ∈ table.scheduled, ∀ window, WaitingWindow o table row log window → ∃ t ∈ window, t.Served row

/-- A due row is served in its window exactly if it is in the batch, which is the same in each tick, and a tick of the
window gets through the configurations of the batch. -/
theorem served_iff_inBatch (o : SchedulerOptions) (table : AutomationTable) (start : Time) (w : Cluster × TickLog)
    (reached : (watched o table start).Reachable w) (row : AutomationRow) (here : row ∈ table.scheduled)
    (window : List TickRecord) (waiting : WaitingWindow o table row w.2 window) :
    (∃ t ∈ window, t.Served row) ↔ row ∈ table.batch o ∧ ∃ t ∈ window, t.Evaluates o table := by
  have inRows : row ∈ table.rows := (List.mem_filter.mp here).1
  have sound : ∀ t ∈ window, t.Sound o table := by
    intro t member
    obtain ⟨i, consecutive⟩ := waiting.consecutive
    have inLog := List.mem_filter.mp (consecutive.subset member)
    exact (logSound_of_reachable reached).ticks t inLog.1
  have served : ∀ t ∈ window, t.Served row ↔ row.id ∈ t.outcomes.map Prod.fst := by
    intro t member
    constructor
    · intro offered
      rcases offered with taken | busy
      · exact List.mem_map_of_mem (f := Prod.fst) taken
      · exact List.mem_map_of_mem (f := Prod.fst) busy
    · intro offered
      obtain ⟨call, found, id⟩ := List.mem_map.mp offered
      obtain ⟨automationId, outcome⟩ := call
      cases id
      cases outcome with
      | alreadyInFlight => exact .inr found
      | queueFull => exact absurd found (waiting.room t member _)
      | enqueued => exact .inl found
  constructor
  · intro some_served
    obtain ⟨t, member, offered⟩ := some_served
    obtain ⟨inBatch, evaluates, -⟩ := ((sound t member).offered_iff inRows).mp ((served t member).mp offered)
    exact ⟨inBatch, t, member, evaluates⟩
  · intro both
    obtain ⟨inBatch, t, member, evaluates⟩ := both
    exact ⟨t, member, (served t member).mpr (((sound t member).offered_iff inRows).mpr
      ⟨inBatch, evaluates, waiting.due t member⟩)⟩

def dailyRow (id : Int) (updatedAt : Time) : AutomationRow :=
  ⟨id, 7, "report".toList, "schedule".toList, "create_task".toList, [("daily_at".toList, .string ['8', ':', '0'])], true,
    updatedAt⟩

/-- The second rule was edited later, so it comes first. -/
def twoRules : AutomationTable where
  rows := [dailyRow 1 0, dailyRow 2 5]
  unique := by decide

def oneAtATime : SchedulerOptions := ⟨1, 500, 2, fun workspaceId automationId => 1000 * workspaceId + automationId⟩

def twoTicks : List TickRecord :=
  [⟨0, tenOClock 5, [], [(2, .enqueued)]⟩, ⟨0, tenOClock 5 + minuteMicros, [], [(2, .alreadyInFlight)]⟩]

theorem twoTicks_reachable : ∃ w, (watched oneAtATime twoRules 0).Reachable w ∧ w.2.ticks = twoTicks := by
  have ran : ((watched oneAtATime twoRules 0).run (watched oneAtATime twoRules 0).init
      [.startTick 0 (tenOClock 5), .fetch 0, .enqueueDue 0, .startTick 0 (tenOClock 5 + minuteMicros), .fetch 0,
        .enqueueDue 0]).any (fun w => w.2.ticks = twoTicks) = true := by decide +kernel
  obtain ⟨w, here, ticks⟩ := (Option.any_eq_true _ _).mp ran
  exact ⟨w, Machine.reachable_of_run here, by simpa using ticks⟩

theorem waiting_twoTicks {log : TickLog} (ticks : log.ticks = twoTicks) (id : Int) (updatedAt : Time) :
    WaitingWindow oneAtATime twoRules (dailyRow id updatedAt) log twoTicks where
  consecutive := by
    refine ⟨0, ?_⟩
    unfold TickLog.ofServer
    rw [ticks]
    exact List.infix_refl _
  length := by decide
  due t member := by
    rcases List.mem_cons.mp member with rfl | member
    · rfl
    · rw [List.mem_singleton.mp member]
      rfl
  room t member automationId := by
    rcases List.mem_cons.mp member with rfl | member
    · simp
    · rw [List.mem_singleton.mp member]
      simp

theorem first_rule_served : ∃ w, (watched oneAtATime twoRules 0).Reachable w ∧
    ∃ t ∈ twoTicks, t.Served (dailyRow 2 5) ∧ WaitingWindow oneAtATime twoRules (dailyRow 2 5) w.2 twoTicks := by
  obtain ⟨w, reached, ticks⟩ := twoTicks_reachable
  have waiting := waiting_twoTicks ticks 2 5
  have inBatch : dailyRow 2 5 ∈ twoRules.batch oneAtATime := by
    have only : twoRules.batch oneAtATime = [dailyRow 2 5] := rfl
    rw [only]
    exact List.mem_cons_self
  have evaluates : ∃ t ∈ twoTicks, t.Evaluates oneAtATime twoRules := by
    refine ⟨_, List.mem_cons_self, fun row member => isDailyRuleDue_ok.mp ⟨true, ?_⟩⟩
    have only : twoRules.batch oneAtATime = [dailyRow 2 5] := rfl
    rw [only] at member
    rw [List.mem_singleton.mp member]
    rfl
  obtain ⟨t, member, served⟩ := (served_iff_inBatch oneAtATime twoRules 0 w reached (dailyRow 2 5)
    (List.mem_cons_of_mem _ List.mem_cons_self) twoTicks waiting).mpr ⟨inBatch, evaluates⟩
  exact ⟨w, reached, t, member, served, waiting⟩

/-- The first rule is due at both ticks, and both take the second one from the database. -/
theorem other_rule_passed_over : ∃ w, (watched oneAtATime twoRules 0).Reachable w ∧
    ¬ NonePassedOver oneAtATime twoRules w.2 := by
  obtain ⟨w, reached, ticks⟩ := twoTicks_reachable
  refine ⟨w, reached, fun none_passed => ?_⟩
  obtain ⟨t, member, served⟩ := none_passed (dailyRow 1 0) List.mem_cons_self twoTicks (waiting_twoTicks ticks 1 0)
  rcases List.mem_cons.mp member with rfl | member
  · simp [TickRecord.Served, dailyRow] at served
  · rw [List.mem_singleton.mp member] at served
    simp [TickRecord.Served, dailyRow] at served

end ClaudeProxy.Automation

import ClaudeProxy.Automation.Ticks

namespace ClaudeProxy.Automation

open Kit

def OfferedAt (ticks : List TickRecord) (automationId : Int) (nowUtc : Time) : Prop :=
  ∃ t ∈ ticks, t.nowUtc = nowUtc ∧ automationId ∈ t.outcomes.map Prod.fst

structure QueuedFrom (ticks : List TickRecord) (clock : Time) (queued : QueuedRun) : Prop where
  offered : OfferedAt ticks queued.candidate.automationId queued.scheduledAt
  past : queued.scheduledAt ≤ clock

structure RunFrom (ticks : List TickRecord) (run : AutomationRun) : Prop where
  offered : OfferedAt ticks run.automationId run.evaluatedAt
  after : run.evaluatedAt ≤ run.createdAt

/-- Every run goes back to a tick, and every tick has seen the runs of its time. -/
structure RunsTraced (w : Cluster × TickLog) : Prop where
  open_ticks : ∀ i tick, (w.1.servers i).tick = some tick → tick.nowUtc ≤ w.1.clock
  snapshots : ∀ i, w.2.snapshot i <+: w.1.runs
  ticks : ∀ t ∈ w.2.ticks, t.runs <+: w.1.runs
  queues : ∀ i, ∀ queued ∈ (w.1.servers i).worker.queue, QueuedFrom w.2.ticks w.1.clock queued
  executions : ∀ n e, w.1.executions.get? n = some e → QueuedFrom w.2.ticks w.1.clock e.queued
  running : ∀ n e createdAt, w.1.executions.get? n = some e → e.stage = .running createdAt →
    e.queued.scheduledAt ≤ createdAt
  runs : ∀ run ∈ w.1.runs, RunFrom w.2.ticks run

section Steps

variable {o : SchedulerOptions} {table : AutomationTable} {start : Time}

theorem OfferedAt.mono {ticks more : List TickRecord} {automationId : Int} {nowUtc : Time} (subset : ticks ⊆ more)
    (offered : OfferedAt ticks automationId nowUtc) : OfferedAt more automationId nowUtc := by
  obtain ⟨t, member, rest⟩ := offered
  exact ⟨t, subset member, rest⟩

theorem QueuedFrom.later {ticks : List TickRecord} {clock later : Time} {queued : QueuedRun}
    (traced : QueuedFrom ticks clock queued) (le : clock ≤ later) : QueuedFrom ticks later queued :=
  ⟨traced.offered, le_trans traced.past le⟩

theorem setServer_queue {c : Cluster} {i j : Nat} {server : Server} {queued : QueuedRun}
    (member : queued ∈ ((c.setServer i server).servers j).worker.queue) :
    queued ∈ server.worker.queue ∨ queued ∈ (c.servers j).worker.queue := by
  rw [Cluster.setServer] at member
  by_cases same : j = i
  · simp only [same, if_true] at member
    exact .inl member
  · simp only [if_neg same] at member
    exact .inr member

theorem setStage_get? {c : Cluster} {n m : Nat} {e f : Execution} {stage : Stage}
    (found : (c.setStage n e stage).executions.get? m = some f) :
    m = n ∧ f = { e with stage := stage } ∨ c.executions.get? m = some f := by
  rw [Cluster.setStage, Dict.get?_set] at found
  split at found
  · rename_i same
    exact .inl ⟨same, (Option.some.inj found).symm⟩
  · exact .inr found

theorem RunsTraced.setClock {c : Cluster} {log : TickLog} {later : Time} (traced : RunsTraced (c, log))
    (le : c.clock ≤ later) :
    RunsTraced ({ c with clock := later }, log) where
  open_ticks i tick here := le_trans (traced.open_ticks i tick here) le
  snapshots := traced.snapshots
  ticks := traced.ticks
  queues i queued member := (traced.queues i queued member).later le
  executions n e found := (traced.executions n e found).later le
  running := traced.running
  runs := traced.runs

theorem RunsTraced.setServer {c : Cluster} {log : TickLog} {i : Nat} {server : Server} (traced : RunsTraced (c, log))
    (opened : ∀ tick, server.tick = some tick → tick.nowUtc ≤ c.clock)
    (queue : ∀ queued ∈ server.worker.queue, QueuedFrom log.ticks c.clock queued) :
    RunsTraced (c.setServer i server, log) where
  open_ticks j tick here := by
    rcases setServer_tick here with ⟨-, new⟩ | before
    · exact opened tick new
    · exact traced.open_ticks j tick before
  snapshots := traced.snapshots
  ticks := traced.ticks
  queues j queued member := by
    rcases setServer_queue member with new | before
    · exact queue queued new
    · exact traced.queues j queued before
  executions := traced.executions
  running := traced.running
  runs := traced.runs

theorem RunsTraced.setStage {c : Cluster} {log : TickLog} {n : Nat} {e : Execution} {stage : Stage}
    (traced : RunsTraced (c, log)) (queued : QueuedFrom log.ticks c.clock e.queued)
    (ahead : ∀ createdAt, stage = .running createdAt → e.queued.scheduledAt ≤ createdAt) :
    RunsTraced (c.setStage n e stage, log) where
  open_ticks := traced.open_ticks
  snapshots := traced.snapshots
  ticks := traced.ticks
  queues := traced.queues
  executions m f found := by
    rcases setStage_get? found with ⟨-, rfl⟩ | before
    · exact queued
    · exact traced.executions m f before
  running m f createdAt found runs := by
    rcases setStage_get? found with ⟨-, rfl⟩ | before
    · exact ahead createdAt runs
    · exact traced.running m f createdAt before runs
  runs := traced.runs

theorem RunsTraced.addRun {c : Cluster} {log : TickLog} {run : AutomationRun} (traced : RunsTraced (c, log))
    (new : RunFrom log.ticks run) : RunsTraced ({ c with runs := c.runs ++ [run] }, log) where
  open_ticks := traced.open_ticks
  snapshots i := (traced.snapshots i).trans (List.prefix_append _ _)
  ticks t member := (traced.ticks t member).trans (List.prefix_append _ _)
  queues := traced.queues
  executions := traced.executions
  running := traced.running
  runs r member := by
    rcases List.mem_append.mp member with before | last
    · exact traced.runs r before
    · rw [List.mem_singleton.mp last]
      exact new

theorem RunsTraced.addTick {c : Cluster} {log : TickLog} {t : TickRecord} (traced : RunsTraced (c, log))
    (seen : t.runs <+: c.runs) : RunsTraced (c, { log with ticks := log.ticks ++ [t] }) := by
  have more : log.ticks ⊆ log.ticks ++ [t] := List.subset_append_left _ _
  refine ⟨traced.open_ticks, traced.snapshots, fun u member => ?_, fun i queued member => ?_, fun n e found => ?_,
    traced.running, fun run member => ?_⟩
  · rcases List.mem_append.mp member with before | last
    · exact traced.ticks u before
    · rw [List.mem_singleton.mp last]
      exact seen
  · have before := traced.queues i queued member
    exact ⟨before.offered.mono more, before.past⟩
  · have before := traced.executions n e found
    exact ⟨before.offered.mono more, before.past⟩
  · have before := traced.runs run member
    exact ⟨before.offered.mono more, before.after⟩

/-- What a tick puts into the queue is among the candidates that it offered. -/
theorem enqueueAll_queue {server : Server} {nowUtc : Time} {candidates : List AutomationScheduleCandidate}
    {queued : QueuedRun}
    (member : queued ∈ (Cluster.enqueueAll o server nowUtc candidates).worker.queue) :
    queued ∈ server.worker.queue ∨ queued.scheduledAt = nowUtc ∧
      queued.candidate.automationId ∈ (tickOutcomes o nowUtc server.worker candidates).map Prod.fst := by
  unfold Cluster.enqueueAll at member
  unfold tickOutcomes
  cases evaluated : dueCandidates nowUtc candidates with
  | error e =>
    rw [evaluated] at member
    exact .inl member
  | ok due =>
    rw [evaluated] at member
    rcases mem_enqueue_all member with before | ⟨candidate, there, rfl⟩
    · exact .inl before
    · apply Or.inr
      refine ⟨rfl, ?_⟩
      rw [ActionWorker.outcomes_ids]
      exact List.mem_map_of_mem there

theorem RunsTraced.step {w next : Cluster × TickLog} {a : Action} (traced : RunsTraced w)
    (taken : (watched o table start).step w a = some next) : RunsTraced next := by
  obtain ⟨c, log⟩ := w
  obtain ⟨after, noted⟩ := next
  obtain ⟨taken, rfl⟩ := Machine.watch_step.mp taken
  replace taken : c.step o table a = some after := taken
  show RunsTraced (after, log.note o c a)
  cases Cluster.step_cases taken with
  | startTick i nowUtc idle forward =>
    have ahead := traced.setClock forward
    apply ahead.setServer
    · intro tick here
      cases here
      exact le_refl nowUtc
    · exact ahead.queues i
  | fetch i nowUtc opened =>
    have read : RunsTraced (c, { log with snapshot := fun j => if j = i then c.runs else log.snapshot j }) := by
      refine ⟨traced.open_ticks, fun j => ?_, traced.ticks, traced.queues, traced.executions, traced.running, traced.runs⟩
      show (if j = i then c.runs else log.snapshot j) <+: c.runs
      split
      · exact List.prefix_refl _
      · exact traced.snapshots j
    apply read.setServer
    · intro tick here
      cases here
      exact traced.open_ticks i (.started nowUtc) opened
    · exact traced.queues i
  | enqueueDue i nowUtc candidates fetched =>
    rw [TickLog.note, fetched]
    have noted := traced.addTick
      (t := ⟨i, nowUtc, log.snapshot i, tickOutcomes o nowUtc (c.servers i).worker candidates⟩) (traced.snapshots i)
    apply noted.setServer
    · intro tick here
      unfold Cluster.enqueueAll at here
      split at here <;> cases here
    · intro queued member
      rcases enqueueAll_queue member with before | ⟨clock, offered⟩
      · exact noted.queues i queued before
      · refine ⟨⟨_, List.mem_append_right _ (List.mem_singleton.mpr rfl), clock.symm, offered⟩, ?_⟩
        rw [clock]
        exact traced.open_ticks i _ fetched
  | take i queued rest waiting free =>
    have all := traced.queues i
    rw [waiting] at all
    have served : RunsTraced
      (c.setServer i { c.servers i with worker := { (c.servers i).worker with queue := rest } }, log) :=
      traced.setServer (traced.open_ticks i) fun q member => all q (List.mem_cons_of_mem _ member)
    have stage : RunsTraced (Cluster.setStage _ c.nextExecution ⟨i, queued, .taken⟩ .taken, log) :=
      served.setStage (all queued List.mem_cons_self) fun _ absent => (by cases absent)
    exact ⟨stage.open_ticks, stage.snapshots, stage.ticks, stage.queues, stage.executions, stage.running, stage.runs⟩
  | tryLock n nowUtc server queued found forward =>
    have ahead := traced.setClock forward
    apply ahead.setStage (ahead.executions n _ found)
    intro createdAt runs
    split at runs
    · cases runs
    · cases runs
      exact (ahead.executions n _ found).past
  | commit n status server queued createdAt found =>
    have recorded : RunFrom log.ticks ⟨queued.candidate.automationId, status, queued.scheduledAt, createdAt⟩ :=
      ⟨(traced.executions n _ found).offered, traced.running n _ createdAt found rfl⟩
    exact (traced.addRun recorded).setStage (traced.executions n _ found) fun _ absent => (by cases absent)
  | rollback n e found going => exact traced.setStage (traced.executions n e found) fun _ absent => (by cases absent)
  | finish n i queued found =>
    have released : RunsTraced (c.setServer i { c.servers i with worker := { (c.servers i).worker with
        inflight := (c.servers i).worker.inflight.filter (· ≠ queued.candidate.automationId) } }, log) :=
      traced.setServer (traced.open_ticks i) (traced.queues i)
    have kept : ∀ m e, (c.executions.erase n).get? m = some e → c.executions.get? m = some e := by
      intro m e here
      rw [Dict.get?_erase] at here
      split at here
      · cases here
      · exact here
    exact ⟨released.open_ticks, released.snapshots, released.ticks, released.queues,
      fun m e here => traced.executions m e (kept m e here),
      fun m e createdAt here => traced.running m e createdAt (kept m e here), released.runs⟩

theorem runsTraced_of_reachable {w : Cluster × TickLog} (reached : (watched o table start).Reachable w) : RunsTraced w := by
  apply reached.invariant _ fun _ _ _ traced _ taken => traced.step taken
  exact ⟨fun _ _ absent => (by cases absent), fun _ => List.prefix_refl _, fun _ absent => (by cases absent),
    fun _ _ absent => (by cases absent), fun _ _ absent => (by cases absent), fun _ _ _ absent => (by cases absent),
    fun _ absent => (by cases absent)⟩

end Steps

section Dates

variable {o : SchedulerOptions} {table : AutomationTable} {row : AutomationRow} {schedule : DailySchedule}

theorem localDate_eq (extracted : extractDailySchedule row.config = .ok (some schedule)) (t : Time) :
    localDate row.config t = date (schedule.localTime t) := by
  unfold localDate
  rw [extracted]
  rfl

def TakesPlaceOn (schedule : DailySchedule) (day : Int) (t : TickRecord) : Prop :=
  schedule.Reached (schedule.localTime t.nowUtc) ∧ date (schedule.localTime t.nowUtc) = day

def GetsRun (row : AutomationRow) (runs : List AutomationRun) (day : Int) : Prop :=
  ∃ run ∈ runs, run.automationId = row.id ∧ localDate row.config run.evaluatedAt = day

/-- A candidate found due is executed once, and that is over before the next matching scheduled time. The runs that
a tick does not see yet are those behind its snapshot. -/
structure ExecutedInTime (row : AutomationRow) (schedule : DailySchedule) (w : Cluster × TickLog) : Prop where
  executed : ∀ t ∈ w.2.ticks, row.id ∈ t.outcomes.map Prod.fst →
    ∃ run ∈ w.1.runs.drop t.runs.length, run.automationId = row.id ∧
      ∀ day, schedule.Matches day → date (schedule.localTime t.nowUtc) < day →
        schedule.localTime run.createdAt < schedule.scheduledAt day
  finished : ∀ t ∈ w.2.ticks, ∀ run ∈ w.1.runs.drop t.runs.length, run.automationId = row.id →
    ∀ day, schedule.Matches day → date (schedule.localTime run.evaluatedAt) < day →
      schedule.localTime t.nowUtc < schedule.scheduledAt day
  once : (w.1.runs.filter fun run => run.automationId = row.id).Pairwise fun earlier later =>
    localDate row.config earlier.evaluatedAt ≠ localDate row.config later.evaluatedAt

/-- Every matching date in a stretch of dates with a tick each gets its run. -/
def EveryDateRuns (row : AutomationRow) (schedule : DailySchedule) (w : Cluster × TickLog) : Prop :=
  ∀ first last, (∀ day, first ≤ day → day ≤ last → schedule.Matches day → ∃ t ∈ w.2.ticks, TakesPlaceOn schedule day t) →
    ∀ day, first ≤ day → day ≤ last → schedule.Matches day → GetsRun row w.1.runs day

/-- The tick examines the rule, and no run that it sees was created on this date or later for another one. -/
structure Unsuppressed (o : SchedulerOptions) (table : AutomationTable) (row : AutomationRow) (schedule : DailySchedule)
    (day : Int) (t : TickRecord) : Prop where
  inBatch : row ∈ table.batch o
  evaluates : t.Evaluates o table
  takesPlace : TakesPlaceOn schedule day t
  own : ∀ run ∈ t.runs, run.automationId = row.id → day ≤ localDate row.config run.createdAt →
    localDate row.config run.evaluatedAt = day

theorem lastRunAt_source {runs : List AutomationRun} {automationId : Int} {last : Time}
    (isLast : lastRunAt runs automationId = some last) :
    ∃ run ∈ runs, run.automationId = automationId ∧ run.createdAt = last := by
  unfold lastRunAt at isLast
  obtain ⟨run, member, created⟩ := List.mem_map.mp (List.max?_eq_some_iff.mp isLast).1
  obtain ⟨inside, own⟩ := List.mem_filter.mp member
  exact ⟨run, inside, by simpa using own, created⟩

theorem reached_of_run {w : Cluster × TickLog} (sound : LogSound o table w) (traced : RunsTraced w) (here : row ∈ table.rows)
    (extracted : extractDailySchedule row.config = .ok (some schedule)) {run : AutomationRun} (member : run ∈ w.1.runs)
    (own : run.automationId = row.id) :
    ∃ t ∈ w.2.ticks, t.nowUtc = run.evaluatedAt ∧ row ∈ table.batch o ∧ t.Evaluates o table ∧
      schedule.Reached (schedule.localTime run.evaluatedAt) ∧
      ∀ last, lastRunAt t.runs row.id = some last →
        date (schedule.localTime last) < date (schedule.localTime run.evaluatedAt) := by
  obtain ⟨t, there, clock, offered⟩ := (traced.runs run member).offered
  rw [own] at offered
  obtain ⟨inBatch, evaluates, due⟩ := ((sound.ticks t there).offered_iff here).mp offered
  have reached := (isDailyRuleDue_iff extracted (evaluates row inBatch)).mp due
  rw [clock] at reached
  exact ⟨t, there, clock, inBatch, evaluates, reached⟩

/-- In a run whose candidates are executed in time, a date gets its run exactly if one of its ticks is unsuppressed. -/
theorem getsRun_iff (o : SchedulerOptions) (table : AutomationTable) (start : Time) (w : Cluster × TickLog)
    (reached : (watched o table start).Reachable w) (row : AutomationRow) (here : row ∈ table.scheduled)
    (schedule : DailySchedule) (extracted : extractDailySchedule row.config = .ok (some schedule))
    (executed : ExecutedInTime row schedule w) (day : Int) :
    GetsRun row w.1.runs day ↔ ∃ t ∈ w.2.ticks, Unsuppressed o table row schedule day t := by
  have inRows : row ∈ table.rows := (List.mem_filter.mp here).1
  have sound := logSound_of_reachable reached
  have traced := runsTraced_of_reachable reached
  have localDates := localDate_eq extracted
  constructor
  · intro gets
    obtain ⟨run, member, own, onDay⟩ := gets
    obtain ⟨t, there, clock, inBatch, evaluates, atTime, before⟩ := reached_of_run sound traced inRows extracted member own
    rw [localDates] at onDay
    refine ⟨t, there, inBatch, evaluates, ?_, fun seen inside its created => ?_⟩
    · unfold TakesPlaceOn
      rw [clock]
      exact ⟨atTime, onDay⟩
    · obtain ⟨last, isLast, le⟩ := le_lastRunAt inside its
      have earlier := before last isLast
      have late := localDate_mono row.config le
      rw [localDates] at created late
      rw [localDates] at late
      omega
  · intro some_tick
    obtain ⟨t, there, free⟩ := some_tick
    obtain ⟨atTime, onDay⟩ := free.takesPlace
    have evaluable := free.evaluates row free.inBatch
    by_cases due : t.Due row
    · have offered := ((sound.ticks t there).offered_iff inRows).mpr ⟨free.inBatch, free.evaluates, due⟩
      obtain ⟨run, behind, own, inTime⟩ := executed.executed t there offered
      have member := List.mem_of_mem_drop behind
      obtain ⟨u, -, -, -, -, itsTime, -⟩ := reached_of_run sound traced inRows extracted member own
      refine ⟨run, member, own, ?_⟩
      rw [localDates]
      have after : schedule.localTime run.evaluatedAt ≤ schedule.localTime run.createdAt :=
        Int.add_le_add_right (traced.runs run member).after _
      rcases lt_trichotomy (date (schedule.localTime run.evaluatedAt)) day with earlier | same | later
      · have early := executed.finished t there run behind own day (onDay ▸ atTime.1) earlier
        have late := atTime.2
        rw [onDay] at late
        exact absurd early (not_lt.mpr late)
      · exact same
      · have early := inTime _ itsTime.1 (onDay ▸ later)
        exact absurd (le_trans itsTime.2 after) (not_le.mpr early)
    · have not_due : ¬ ∀ last, lastRunAt t.runs row.id = some last →
          date (schedule.localTime last) < date (schedule.localTime t.nowUtc) := by
        intro before
        exact due ((isDailyRuleDue_iff extracted evaluable).mpr ⟨atTime, before⟩)
      rw [not_forall] at not_due
      obtain ⟨last, not_before⟩ := not_due
      rw [Classical.not_imp, onDay] at not_before
      obtain ⟨run, inside, own, created⟩ := lastRunAt_source not_before.1
      refine ⟨run, (traced.ticks t there).subset inside, own, free.own run inside own ?_⟩
      rw [localDates, created]
      exact not_lt.mp not_before.2

end Dates

def atMinute (day minute : Int) : Time := day * dayMicros + minute * minuteMicros

def atEight : DailySchedule := ⟨8, 0, 0, []⟩

/-- Found due late on one day, executed early on the next. -/
def delayedRun : AutomationRun := ⟨1, .success, atMinute 5 1435, atMinute 6 5⟩

def aroundMidnight : List TickRecord := [⟨0, atMinute 5 1435, [], [(1, .enqueued)]⟩, ⟨0, atMinute 6 600, [delayedRun], []⟩]

theorem aroundMidnight_reachable : ∃ w, (watched twoWorkers dailyReport 0).Reachable w ∧ w.1.runs = [delayedRun] ∧
    w.2.ticks = aroundMidnight := by
  have ran : ((watched twoWorkers dailyReport 0).run (watched twoWorkers dailyReport 0).init
      [.startTick 0 (atMinute 5 1435), .fetch 0, .enqueueDue 0, .take 0, .tryLock 0 (atMinute 6 5), .commit 0 .success,
        .finish 0,
        .startTick 0 (atMinute 6 600), .fetch 0, .enqueueDue 0]).any
      (fun w => w.1.runs = [delayedRun] ∧ w.2.ticks = aroundMidnight) = true := by decide +kernel
  obtain ⟨w, here, seen⟩ := (Option.any_eq_true _ _).mp ran
  exact ⟨w, Machine.reachable_of_run here, by simpa using seen⟩

theorem atEight_after {t : Time} {today day : Int} (early : atEight.localTime t < atEight.scheduledAt (today + 1))
    (later : today < day) : atEight.localTime t < atEight.scheduledAt day := by
  have days : (today + 1) * dayMicros ≤ day * dayMicros := Int.mul_le_mul_of_nonneg_right later (by decide)
  exact lt_of_lt_of_le early (Int.add_le_add_right days _)

theorem executedInTime_aroundMidnight {w : Cluster × TickLog} (runs : w.1.runs = [delayedRun])
    (ticks : w.2.ticks = aroundMidnight) {row : AutomationRow} (own : row.id = 1) : ExecutedInTime row atEight w where
  executed t member offered := by
    rw [ticks] at member
    rcases List.mem_cons.mp member with rfl | member
    · refine ⟨delayedRun, by rw [runs]; exact List.mem_cons_self, own.symm, fun day _ later => ?_⟩
      exact atEight_after (by decide) later
    · rw [List.mem_singleton.mp member] at offered
      cases offered
  finished t member run behind _ day _ later := by
    rw [ticks] at member
    rw [runs] at behind
    rcases List.mem_cons.mp member with rfl | member
    · rw [List.mem_singleton.mp behind] at later
      exact atEight_after (by decide) later
    · rw [List.mem_singleton.mp member] at behind
      cases behind
  once := by
    rw [runs]
    exact List.Pairwise.filter _ (List.pairwise_singleton ..)

theorem extracted_dailyReport : ∀ row ∈ dailyReport.rows, extractDailySchedule row.config = .ok (some atEight) := by
  intro row member
  rw [List.mem_singleton.mp member]
  rfl

theorem first_date_gets_run : ∃ w, (watched twoWorkers dailyReport 0).Reachable w ∧
    ∀ row ∈ dailyReport.scheduled, GetsRun row w.1.runs 5 := by
  obtain ⟨w, reached, runs, ticks⟩ := aroundMidnight_reachable
  refine ⟨w, reached, fun row here => ?_⟩
  have inRows := (List.mem_filter.mp here).1
  have only : row = dailyReport.rows.head (by decide) := List.mem_singleton.mp inRows
  have executed : ExecutedInTime row atEight w := executedInTime_aroundMidnight runs ticks (by rw [only]; rfl)
  apply (getsRun_iff twoWorkers dailyReport 0 w reached row here atEight (extracted_dailyReport row inRows) executed 5).mpr
  rw [ticks]
  refine ⟨_, List.mem_cons_self, ?_, fun other member => isDailyRuleDue_ok.mp ⟨true, ?_⟩, ⟨⟨.inl rfl, by decide⟩, by decide⟩,
    fun _ absent => (by cases absent)⟩
  · rw [only]
    exact List.mem_cons_self
  · have same : other = dailyReport.rows.head (by decide) := List.mem_singleton.mp member
    rw [same]
    rfl

/-- The second date has its tick, but the run of the first one was created on it. -/
theorem date_suppressed : ∃ w, (watched twoWorkers dailyReport 0).Reachable w ∧ ∀ row ∈ dailyReport.scheduled,
    ExecutedInTime row atEight w ∧ ¬ EveryDateRuns row atEight w := by
  obtain ⟨w, reached, runs, ticks⟩ := aroundMidnight_reachable
  refine ⟨w, reached, fun row here => ?_⟩
  have only : row = dailyReport.rows.head (by decide) := List.mem_singleton.mp (List.mem_filter.mp here).1
  refine ⟨executedInTime_aroundMidnight runs ticks (by rw [only]; rfl), fun every => ?_⟩
  have both : ∀ day, 5 ≤ day → day ≤ 6 → atEight.Matches day → ∃ t ∈ w.2.ticks, TakesPlaceOn atEight day t := by
    intro day first last _
    rw [ticks]
    have cases : day = 5 ∨ day = 6 := by omega
    rcases cases with rfl | rfl
    · exact ⟨_, List.mem_cons_self, ⟨.inl rfl, by decide⟩, by decide⟩
    · exact ⟨_, List.mem_cons_of_mem _ List.mem_cons_self, ⟨.inl rfl, by decide⟩, by decide⟩
  obtain ⟨run, member, -, onDay⟩ := every 5 6 both 6 (by decide) (by decide) (.inl rfl)
  rw [runs] at member
  rw [List.mem_singleton.mp member, only] at onDay
  exact absurd onDay (by decide)

end ClaudeProxy.Automation

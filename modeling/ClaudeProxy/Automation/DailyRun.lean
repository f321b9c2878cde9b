import ClaudeProxy.Automation.Scheduler

namespace ClaudeProxy.Automation

open Kit

theorem le_lastRunAt {runs : List AutomationRun} {run : AutomationRun} {automationId : Int} (member : run ∈ runs)
    (own : run.automationId = automationId) : ∃ last, lastRunAt runs automationId = some last ∧ run.createdAt ≤ last := by
  unfold lastRunAt
  have inside : run.createdAt ∈ (runs.filter fun run => run.automationId = automationId).map AutomationRun.createdAt :=
    List.mem_map_of_mem (List.mem_filter.mpr ⟨member, by simpa using own⟩)
  cases last : ((runs.filter fun run => run.automationId = automationId).map AutomationRun.createdAt).max? with
  | none =>
    rw [List.max?_eq_none_iff.mp last] at inside
    cases inside
  | some value => exact ⟨value, rfl, (List.max?_eq_some_iff.mp last).2 _ inside⟩

theorem lastRunAt_append_ne {runs : List AutomationRun} {run : AutomationRun} {automationId : Int}
    (other : run.automationId ≠ automationId) : lastRunAt (runs ++ [run]) automationId = lastRunAt runs automationId := by
  unfold lastRunAt
  rw [List.filter_append]
  simp [other]

def FromTable (table : AutomationTable) (candidate : AutomationScheduleCandidate) : Prop :=
  ∃ row ∈ table.rows, candidate.automationId = row.id ∧ candidate.workspaceId = row.workspaceId ∧
    candidate.config = row.config

theorem AutomationTable.eq_of_id {table : AutomationTable} {row other : AutomationRow} (here : row ∈ table.rows)
    (there : other ∈ table.rows) (same : row.id = other.id) : row = other :=
  List.inj_on_of_nodup_map table.unique here there same

theorem fromTable_of_fetch {o : SchedulerOptions} {table : AutomationTable} {runs : List AutomationRun}
    {candidate : AutomationScheduleCandidate} (member : candidate ∈ fetchCandidates o table runs) :
    FromTable table candidate := by
  obtain ⟨row, taken, rfl⟩ := List.mem_map.mp member
  have sorted := List.mem_of_mem_take taken
  rw [List.mem_insertionSort] at sorted
  exact ⟨row, (List.mem_filter.mp sorted).1, rfl, rfl, rfl⟩

theorem due_of_mem {nowUtc : Time} {candidates due : List AutomationScheduleCandidate}
    (evaluated : dueCandidates nowUtc candidates = .ok due) {candidate : AutomationScheduleCandidate}
    (member : candidate ∈ due) :
    candidate ∈ candidates ∧ isDailyRuleDue candidate nowUtc = .ok true := by
  induction candidates generalizing due with
  | nil =>
    cases evaluated
    cases member
  | cons c rest ih =>
    simp only [dueCandidates, Bind.bind, Except.bind, Pure.pure, Except.pure] at evaluated
    cases first : isDailyRuleDue c nowUtc with
    | error e => simp [first] at evaluated
    | ok isDue =>
      cases others : dueCandidates nowUtc rest with
      | error e => simp [first, others] at evaluated
      | ok tail =>
        simp only [first, others, Except.ok.injEq] at evaluated
        subst evaluated
        have later : candidate ∈ tail → candidate ∈ c :: rest ∧ isDailyRuleDue candidate nowUtc = .ok true :=
          fun there => ⟨List.mem_cons_of_mem _ (ih others there).1, (ih others there).2⟩
        cases isDue with
        | false => exact later member
        | true =>
          cases List.mem_cons.mp member with
          | inl same => exact ⟨same ▸ List.mem_cons_self, same ▸ first⟩
          | inr there => exact later there

theorem mem_enqueue {o : SchedulerOptions} {nowUtc : Time} {worker : ActionWorker} {candidate : AutomationScheduleCandidate}
    {queued : QueuedRun} (member : queued ∈ (worker.enqueue o nowUtc candidate).queue) :
    queued ∈ worker.queue ∨ queued = ⟨candidate, nowUtc⟩ := by
  unfold ActionWorker.enqueue at member
  split at member
  · exact .inl member
  · split at member
    · exact .inl member
    · simpa using member

theorem mem_enqueue_all {o : SchedulerOptions} {nowUtc : Time} {due : List AutomationScheduleCandidate}
    {worker : ActionWorker}
    {queued : QueuedRun} (member : queued ∈ (due.foldl (ActionWorker.enqueue o nowUtc) worker).queue) :
    queued ∈ worker.queue ∨ ∃ candidate ∈ due, queued = ⟨candidate, nowUtc⟩ := by
  induction due generalizing worker with
  | nil => exact .inl member
  | cons c rest ih =>
    cases ih member with
    | inl before =>
      cases mem_enqueue before with
      | inl there => exact .inl there
      | inr new => exact .inr ⟨c, List.mem_cons_self, new⟩
    | inr later =>
      obtain ⟨candidate, there, new⟩ := later
      exact .inr ⟨candidate, List.mem_cons_of_mem _ there, new⟩

structure QueuedSound (table : AutomationTable) (clock : Time) (queued : QueuedRun) : Prop where
  fromTable : FromTable table queued.candidate
  past : queued.scheduledAt ≤ clock
  due : isDailyRuleDue queued.candidate queued.scheduledAt = .ok true

def TickSound (table : AutomationTable) (clock : Time) : Tick → Prop
  | .started nowUtc => nowUtc ≤ clock
  | .fetched nowUtc candidates => nowUtc ≤ clock ∧ ∀ candidate ∈ candidates, FromTable table candidate

structure ServerSound (table : AutomationTable) (clock : Time) (server : Server) : Prop where
  tick : ∀ tick, server.tick = some tick → TickSound table clock tick
  queue : ∀ queued ∈ server.worker.queue, QueuedSound table clock queued

/-- A running execution read the clock after its tick, and its snapshot is still the last committed run. -/
structure RunningSound (runs : List AutomationRun) (clock : Time) (e : Execution) (createdAt : Time) : Prop where
  after : e.queued.scheduledAt ≤ createdAt
  past : createdAt ≤ clock
  current : e.candidate.lastRunAt = lastRunAt runs e.candidate.automationId

structure Sound (table : AutomationTable) (c : Cluster) : Prop where
  runs : ∀ run ∈ c.runs, run.evaluatedAt ≤ run.createdAt
  servers : ∀ i, ServerSound table c.clock (c.servers i)
  executions : ∀ n e, c.executions.get? n = some e → QueuedSound table c.clock e.queued
  running : ∀ n e createdAt, c.executions.get? n = some e → e.stage = .running createdAt →
    RunningSound c.runs c.clock e createdAt
  exclusive : ∀ m n e f, c.executions.get? m = some e → c.executions.get? n = some f → e.isRunning = true →
    f.isRunning = true → e.candidate.automationId = f.candidate.automationId → m = n
  spaced : ∀ row ∈ table.rows, (c.runs.filter fun run => run.automationId = row.id).Pairwise
    fun earlier later => localDate row.config earlier.evaluatedAt ≠ localDate row.config later.evaluatedAt

section Steps

variable {o : SchedulerOptions} {table : AutomationTable} {c : Cluster} {clock later : Time}

theorem QueuedSound.mono {queued : QueuedRun} (sound : QueuedSound table clock queued) (le : clock ≤ later) :
    QueuedSound table later queued :=
  ⟨sound.fromTable, le_trans sound.past le, sound.due⟩

theorem TickSound.mono {tick : Tick} (sound : TickSound table clock tick) (le : clock ≤ later) :
    TickSound table later tick := by
  cases tick with
  | started nowUtc => exact le_trans sound le
  | fetched nowUtc candidates => exact ⟨le_trans sound.1 le, sound.2⟩

theorem ServerSound.mono {server : Server} (sound : ServerSound table clock server) (le : clock ≤ later) :
    ServerSound table later server :=
  ⟨fun tick here => (sound.tick tick here).mono le, fun queued here => (sound.queue queued here).mono le⟩

theorem Sound.setClock (sound : Sound table c) (le : c.clock ≤ later) : Sound table { c with clock := later } where
  runs := sound.runs
  servers i := (sound.servers i).mono le
  executions n e found := (sound.executions n e found).mono le
  running n e createdAt found stage :=
    have before := sound.running n e createdAt found stage
    ⟨before.after, le_trans before.past le, before.current⟩
  exclusive := sound.exclusive
  spaced := sound.spaced

theorem Sound.setServer (sound : Sound table c) {i : Nat} {server : Server} (new : ServerSound table c.clock server) :
    Sound table (c.setServer i server) := by
  refine ⟨sound.runs, fun j => ?_, sound.executions, sound.running, sound.exclusive, sound.spaced⟩
  show ServerSound table c.clock (if j = i then server else c.servers j)
  split
  · exact new
  · exact sound.servers j

theorem enqueueAll_sound {server : Server} {nowUtc : Time} {candidates : List AutomationScheduleCandidate}
    (sound : ServerSound table c.clock server) (fetched : TickSound table c.clock (.fetched nowUtc candidates)) :
    ServerSound table c.clock (Cluster.enqueueAll o server nowUtc candidates) := by
  unfold Cluster.enqueueAll
  cases evaluated : dueCandidates nowUtc candidates with
  | error e => exact ⟨fun tick absent => (nomatch absent), sound.queue⟩
  | ok due =>
    refine ⟨fun tick absent => (nomatch absent), fun queued member => ?_⟩
    cases mem_enqueue_all member with
    | inl before => exact sound.queue queued before
    | inr new =>
      obtain ⟨candidate, there, rfl⟩ := new
      obtain ⟨among, isDue⟩ := due_of_mem evaluated there
      exact ⟨fetched.2 candidate among, fetched.1, isDue⟩

theorem Sound.setIdle (sound : Sound table c) {n next : Nat} {e : Execution} (queued : QueuedSound table c.clock e.queued)
    (idle : e.isRunning = false) :
    Sound table { c with executions := c.executions.set n e, nextExecution := next } where
  runs := sound.runs
  servers := sound.servers
  executions m f found := by
    rw [Dict.get?_set] at found
    split at found
    · cases found
      exact queued
    · exact sound.executions m f found
  running m f createdAt found stage := by
    rw [Dict.get?_set] at found
    split at found
    · cases found
      simp [Execution.isRunning, stage] at idle
    · exact sound.running m f createdAt found stage
  exclusive m k f g left right := by
    rw [Dict.get?_set] at left right
    split at left
    · cases left
      intro busy
      rw [idle] at busy
      cases busy
    · split at right
      · cases right
        intro _ busy
        rw [idle] at busy
        cases busy
      · exact sound.exclusive m k f g left right
  spaced := sound.spaced

theorem Sound.erase (sound : Sound table c) (n : Nat) : Sound table { c with executions := c.executions.erase n } := by
  have kept : ∀ m e, (c.executions.erase n).get? m = some e → c.executions.get? m = some e := by
    intro m e found
    rw [Dict.get?_erase] at found
    split at found
    · cases found
    · exact found
  exact ⟨sound.runs, sound.servers, fun m e found => sound.executions m e (kept m e found),
    fun m e createdAt found => sound.running m e createdAt (kept m e found),
    fun m k e f left right => sound.exclusive m k e f (kept m e left) (kept k f right), sound.spaced⟩

/-- Two candidates of one automation ask for one lock. -/
theorem key_eq {e f : Execution} (left : FromTable table e.candidate) (right : FromTable table f.candidate)
    (same : e.candidate.automationId = f.candidate.automationId) : e.key o = f.key o := by
  obtain ⟨row, here, id, workspace, -⟩ := left
  obtain ⟨other, there, id', workspace', -⟩ := right
  have equal : row = other := AutomationTable.eq_of_id here there (by rw [← id, ← id', same])
  unfold Execution.key
  rw [same, workspace, workspace', equal]

theorem Sound.lock (sound : Sound table c) {n : Nat} {e : Execution} (found : c.executions.get? n = some e)
    (free : c.isLocked o (e.key o) = false) (current : e.candidate.lastRunAt = lastRunAt c.runs e.candidate.automationId) :
    Sound table (c.setStage n e (.running c.clock)) where
  runs := sound.runs
  servers := sound.servers
  executions m f here := by
    rw [Cluster.setStage, Dict.get?_set] at here
    split at here
    · cases here
      exact sound.executions n e found
    · exact sound.executions m f here
  running m f createdAt here stage := by
    rw [Cluster.setStage, Dict.get?_set] at here
    split at here
    · cases here
      cases stage
      exact ⟨(sound.executions n e found).past, le_refl _, current⟩
    · exact sound.running m f createdAt here stage
  exclusive m k f g left right fRuns gRuns same := by
    have unlocked : ∀ j h, c.executions.get? j = some h → h.isRunning = true →
        e.candidate.automationId ≠ h.candidate.automationId := by
      intro j h there runs same
      have equal := key_eq (o := o) (sound.executions n e found).fromTable (sound.executions j h there).fromTable same
      have held : c.isLocked o (e.key o) = true := by
        apply List.any_eq_true.mpr
        exact ⟨h, c.executions.mem_values_of_get? there, by simp [runs, equal]⟩
      rw [held] at free
      cases free
    rw [Cluster.setStage, Dict.get?_set] at left right
    split at left
    · split at right
      · exact (‹m = n›).trans (‹k = n›).symm
      · cases left
        exact absurd same (unlocked k g right gRuns)
    · split at right
      · cases right
        exact absurd same.symm (unlocked m f left fRuns)
      · exact sound.exclusive m k f g left right fRuns gRuns same
  spaced := sound.spaced

/-- The snapshot of a running execution is current, so the runs before it fall on earlier local dates. -/
theorem earlier_date {queued : QueuedRun} {createdAt : Time} {row : AutomationRow} {run : AutomationRun} {server : Nat}
    (sound : Sound table c) (isQueued : QueuedSound table c.clock queued)
    (runs : RunningSound c.runs c.clock ⟨server, queued, .running createdAt⟩ createdAt) (here : row ∈ table.rows)
    (own : queued.candidate.automationId = row.id) (member : run ∈ c.runs) (same : run.automationId = row.id) :
    localDate row.config run.evaluatedAt < localDate row.config queued.scheduledAt := by
  obtain ⟨other, there, id, -, config⟩ := isQueued.fromTable
  have equal : other = row := AutomationTable.eq_of_id there here (by rw [← id, own])
  obtain ⟨last, isLast, le⟩ := le_lastRunAt member (same.trans own.symm)
  have snapshot : queued.candidate.lastRunAt = some last := runs.current.trans isLast
  have before := lastRun_before_of_due isQueued.due snapshot
  rw [config, equal] at before
  calc localDate row.config run.evaluatedAt
      ≤ localDate row.config run.createdAt := localDate_mono _ (sound.runs run member)
    _ ≤ localDate row.config last := localDate_mono _ le
    _ < localDate row.config queued.scheduledAt := before

theorem Sound.commit (sound : Sound table c) {n server : Nat} {queued : QueuedRun} {createdAt : Time} {status : RunStatus}
    (found : c.executions.get? n = some ⟨server, queued, .running createdAt⟩) :
    Sound table (Cluster.setStage
      { c with runs := c.runs ++ [⟨queued.candidate.automationId, status, queued.scheduledAt, createdAt⟩] }
      n ⟨server, queued, .running createdAt⟩ .ended) := by
  have isQueued := sound.executions n _ found
  have runs := sound.running n _ createdAt found rfl
  have recorded : Sound table ({ c with executions := c.executions.set n ⟨server, queued, .ended⟩ } : Cluster) :=
    sound.setIdle isQueued rfl
  refine ⟨fun run member => ?_, sound.servers, recorded.executions, fun m e created here stage => ?_, recorded.exclusive,
    fun row here => ?_⟩
  · cases List.mem_append.mp member with
    | inl before => exact sound.runs run before
    | inr new =>
      rw [List.mem_singleton.mp new]
      exact runs.after
  · have before := recorded.running m e created here stage
    have others : m ≠ n := by
      intro same
      rw [same, Cluster.setStage, Dict.get?_set_self] at here
      cases here
      cases stage
    rw [Cluster.setStage, Dict.get?_set_ne _ _ others] at here
    have distinct : queued.candidate.automationId ≠ e.candidate.automationId := by
      intro same
      exact others (sound.exclusive m n e _ here found (by simp [Execution.isRunning, stage]) rfl same.symm)
    exact ⟨before.after, before.past, before.current.trans (lastRunAt_append_ne distinct).symm⟩
  · show List.Pairwise _ (List.filter _ (c.runs ++ _))
    rw [List.filter_append]
    apply List.pairwise_append.mpr ⟨sound.spaced row here, List.Pairwise.filter _ (List.pairwise_singleton ..), ?_⟩
    intro run member new isNew
    obtain ⟨inside, same⟩ := List.mem_filter.mp member
    obtain ⟨single, own⟩ := List.mem_filter.mp isNew
    rw [List.mem_singleton.mp single] at own ⊢
    exact ne_of_lt (earlier_date sound isQueued runs here (by simpa using own) inside (by simpa using same))

theorem Sound.step (sound : Sound table c) {a : Action} {next : Cluster} (current : c.snapshotCurrent a = true)
    (taken : c.step o table a = some next) : Sound table next := by
  cases Cluster.step_cases taken with
  | startTick i nowUtc idle forward =>
    apply (sound.setClock forward).setServer
    refine ⟨fun tick here => ?_, ((sound.servers i).mono forward).queue⟩
    cases here
    exact le_refl nowUtc
  | fetch i nowUtc started =>
    apply sound.setServer
    refine ⟨fun tick here => ?_, (sound.servers i).queue⟩
    cases here
    exact ⟨(sound.servers i).tick _ started, fun candidate member => fromTable_of_fetch member⟩
  | enqueueDue i nowUtc candidates fetched =>
    exact sound.setServer (enqueueAll_sound (sound.servers i) ((sound.servers i).tick _ fetched))
  | take i queued rest waiting free =>
    have all := (sound.servers i).queue
    rw [waiting] at all
    have served : Sound table
      (c.setServer i { c.servers i with worker := { (c.servers i).worker with queue := rest } }) :=
      sound.setServer ⟨(sound.servers i).tick, fun q member => all q (List.mem_cons_of_mem _ member)⟩
    exact served.setIdle (all queued List.mem_cons_self) rfl
  | tryLock n nowUtc server queued found forward =>
    have ahead := sound.setClock forward
    cases held : c.isLocked o (Execution.key o ⟨server, queued, .taken⟩) with
    | true => exact ahead.setIdle ((sound.executions n _ found).mono forward) rfl
    | false =>
      simp only [Cluster.snapshotCurrent, found, Option.all_some, decide_eq_true_eq] at current
      exact ahead.lock found held current
  | commit n status server queued createdAt found => exact sound.commit found
  | rollback n e found going => exact sound.setIdle (sound.executions n e found) rfl
  | finish n i queued found =>
    apply Sound.erase
    exact sound.setServer ⟨(sound.servers i).tick, (sound.servers i).queue⟩

end Steps

theorem sound_initial (table : AutomationTable) (start : Time) : Sound table (Cluster.initial start) where
  runs _ member := nomatch member
  servers _ := ⟨fun _ absent => (nomatch absent), fun _ absent => (nomatch absent)⟩
  executions _ _ found := nomatch found
  running _ _ _ found := nomatch found
  exclusive _ _ _ _ found := nomatch found
  spaced _ _ := List.Pairwise.nil

/-- While every execution takes its lock on a snapshot that is still current, no local date is run twice. -/
theorem oncePerDate_of_snapshotCurrent (o : SchedulerOptions) (table : AutomationTable) (start : Time) (c : Cluster)
    (reached : (Cluster.machine o table start).ReachableUnder (fun c a => c.snapshotCurrent a = true) c) :
    c.OncePerDate table := by
  have sound : Sound table c := reached.invariant (sound_initial table start) fun _ _ _ sound current taken =>
    sound.step current taken
  exact sound.spaced

def dailyReport : AutomationTable where
  rows := [⟨1, 7, "report".toList, "schedule".toList, "create_task".toList, [("daily_at".toList, .string "08:00".toList)],
    true, 0⟩]
  unique := by decide

def twoWorkers : SchedulerOptions := ⟨100, 500, 2, fun workspaceId automationId => 1000 * workspaceId + automationId⟩

def tenOClock (day : Int) : Time := day * dayMicros + 600 * minuteMicros

theorem oncePerDate_two_days : ∃ c,
    (Cluster.machine twoWorkers dailyReport 0).ReachableUnder (fun c a => c.snapshotCurrent a = true) c ∧
      c.runs.length = 2 ∧ c.OncePerDate dailyReport := by
  have ran : (Machine.runUnder (Cluster.machine twoWorkers dailyReport 0) Cluster.snapshotCurrent
      (Cluster.machine twoWorkers dailyReport 0).init
      [.startTick 0 (tenOClock 5), .fetch 0, .enqueueDue 0, .take 0, .tryLock 0 (tenOClock 5), .commit 0 .success, .finish 0,
        .startTick 1 (tenOClock 6), .fetch 1, .enqueueDue 1, .take 1, .tryLock 1 (tenOClock 6), .commit 1 .success]).any
      (fun c => c.runs.length = 2) = true := by decide +kernel
  obtain ⟨c, here, two⟩ := (Option.any_eq_true _ _).mp ran
  have reached := Machine.reachableUnder_of_runUnder .init here
  exact ⟨c, reached, by simpa using two, oncePerDate_of_snapshotCurrent twoWorkers dailyReport 0 c reached⟩

/-- Two servers read the database before either executes; the lock only keeps the executions from running together. -/
theorem two_servers_run_twice : ∃ c,
    (Cluster.machine twoWorkers dailyReport 0).Reachable c ∧ ¬ c.OncePerDate dailyReport := by
  have ran : ((Cluster.machine twoWorkers dailyReport 0).run (Cluster.machine twoWorkers dailyReport 0).init
      [.startTick 0 (tenOClock 5), .fetch 0, .startTick 1 (tenOClock 5), .fetch 1, .enqueueDue 0, .enqueueDue 1, .take 0,
        .take 1,
        .tryLock 0 (tenOClock 5), .commit 0 .success, .tryLock 1 (tenOClock 5), .commit 1 .success]).any
      (fun c => c.runs = [⟨1, .success, tenOClock 5, tenOClock 5⟩, ⟨1, .success, tenOClock 5, tenOClock 5⟩]) = true := by
    decide +kernel
  obtain ⟨c, here, twice⟩ := (Option.any_eq_true _ _).mp ran
  refine ⟨c, Machine.reachable_of_run here, fun once => ?_⟩
  have apart := once _ (List.mem_singleton.mpr rfl)
  rw [of_decide_eq_true twice] at apart
  exact absurd rfl ((List.pairwise_cons.mp apart).1 _ List.mem_cons_self)

end ClaudeProxy.Automation

import ClaudeProxy.Limiter.Compaction

namespace ClaudeProxy.Limiter

open Kit

structure LimiterService (Key : Type) where
  limiter : MessagingRateLimiter Key
  /-- `_shutdown`. The call that sets it cancels the worker before it first waits. -/
  shutdown : Bool
  returned : Bool

inductive ServiceAction (Key : Type) where
  | own (action : Action Key)
  /-- The function that is running raises `CancelledError`. -/
  | raiseCancelled
  | shutdown
  /-- The worker leaves its loop at the event, or at its cancellation. -/
  | leave
  | returns

namespace LimiterService

variable {Key : Type}

def new : LimiterService Key := ⟨.new, false, false⟩

def withLimiter (s : LimiterService Key) (l : MessagingRateLimiter Key) : LimiterService Key := { s with limiter := l }

def stopped (s : LimiterService Key) : LimiterService Key := s.withLimiter { s.limiter with worker := .stopped }

variable [DecidableEq Key]

def step (s : LimiterService Key) : ServiceAction Key → Option (LimiterService Key)
  | .own .stop => none
  | .own .take => if s.shutdown then none else (s.limiter.step .take).map s.withLimiter
  | .own .start => if s.shutdown then none else (s.limiter.step .start).map s.withLimiter
  | .own (.finish ending) =>
    -- A function may end in its own way although it was cancelled; then the loop is left at its condition.
    (s.limiter.step (.finish ending)).map fun l => if s.shutdown then (s.withLimiter l).stopped else s.withLimiter l
  | .own action => (s.limiter.step action).map s.withLimiter
  | .raiseCancelled =>
    match s.limiter.worker with
    | .running _ _ => some s.stopped
    | _ => none
  | .shutdown => some { s with shutdown := true }
  | .leave =>
    match s.shutdown, s.limiter.worker with
    | true, .idle | true, .taken _ _ => some s.stopped
    | _, _ => none
  | .returns => if s.shutdown ∧ s.limiter.worker = .stopped then some { s with returned := true } else none

def machine : Machine (LimiterService Key) (ServiceAction Key) := ⟨new, step⟩

end LimiterService

namespace MessagingRateLimiter

variable {Key : Type} {l next : MessagingRateLimiter Key}

def Awaited (l : MessagingRateLimiter Key) (future : Nat) : Prop := ∃ f, l.futures[future]? = some f ∧ f.state = .pending

def inHand (l : MessagingRateLimiter Key) : Option Entry :=
  match l.worker with
  | .taken _ entry | .running _ entry => some entry
  | _ => none

theorem awaited_create {number future : Nat} {submission : Submission Key}
    (waits : (l.createFuture number submission).Awaited future) : l.Awaited future ∨ future = l.futures.length := by
  obtain ⟨f, there, pending⟩ := waits
  rcases Nat.lt_or_ge future l.futures.length with old | new
  · have same : (l.futures ++ [⟨number, .pending⟩])[future]? = l.futures[future]? := List.getElem?_append_left old
    exact .inl ⟨f, same.symm.trans there, pending⟩
  · have bound : future < (l.futures ++ [(⟨number, .pending⟩ : Future)]).length := (List.getElem?_eq_some_iff.mp there).1
    rw [List.length_append, List.length_singleton] at bound
    exact .inr (by omega)

/-- Whoever waits after a future has been settled waits for another one, and waited before. -/
theorem awaited_settled {futures : List Future} {future other : Nat} {settled : Future} (ended : settled.state ≠ .pending)
    (waits : ∃ f, (futures.set future settled)[other]? = some f ∧ f.state = .pending) :
    (∃ f, futures[other]? = some f ∧ f.state = .pending) ∧ other ≠ future := by
  rcases waits with ⟨f, there, pending⟩
  rcases lookup_settled there with ⟨-, rfl⟩ | ⟨different, before⟩
  · exact absurd pending ended
  · exact ⟨⟨f, before, pending⟩, different.symm⟩

theorem awaited_complete {func : Nat} {ending : Ending} {future other : Nat}
    (waits : (complete func ending l future).Awaited other) : l.Awaited other ∧ other ≠ future := by
  unfold complete at waits
  split at waits
  · exact awaited_settled (by simp) waits
  · rename_i settled
    refine ⟨waits, ?_⟩
    rintro rfl
    obtain ⟨⟨owner, state⟩, there, pending⟩ := waits
    have same : state = .pending := pending
    subst same
    exact settled owner there

theorem awaited_completeAll {func : Nat} {ending : Ending} {futures : List Nat} {other : Nat}
    (waits : (futures.foldl (complete func ending) l).Awaited other) : l.Awaited other ∧ other ∉ futures := by
  induction futures generalizing l with
  | nil => exact ⟨waits, List.not_mem_nil⟩
  | cons future rest ih =>
    obtain ⟨before, later⟩ := ih waits
    obtain ⟨start, different⟩ := awaited_complete before
    exact ⟨start, fun member => (List.mem_cons.mp member).elim different later⟩

theorem awaited_cancel {futures : List Future} {future other : Nat}
    (waits : ∃ f, (cancelFuture futures future)[other]? = some f ∧ f.state = .pending) :
    ∃ f, futures[other]? = some f ∧ f.state = .pending := by
  unfold cancelFuture at waits
  split at waits
  · exact (awaited_settled (by simp) waits).1
  · exact waits

variable [DecidableEq Key]

/-- The future belongs to a queued entry or to the entry of the worker. -/
def Held (l : MessagingRateLimiter Key) (future : Nat) : Prop :=
  (∃ k ∈ l.queueList, ∃ entry, l.queueMap.get? k = some entry ∧ future ∈ entry.futures) ∨
    ∃ entry, l.inHand = some entry ∧ future ∈ entry.futures

def AllHeld (l : MessagingRateLimiter Key) : Prop := ∀ future, l.Awaited future → l.Held future

theorem Held.frame {future : Nat} (held : l.Held future) (list : next.queueList = l.queueList)
    (map : next.queueMap = l.queueMap) (worker : next.worker = l.worker) : next.Held future := by
  unfold Held inHand at held ⊢
  rw [list, map, worker]
  exact held

theorem AllHeld.frame (held : l.AllHeld) (list : next.queueList = l.queueList) (map : next.queueMap = l.queueMap)
    (worker : next.worker = l.worker) (awaited : ∀ future, next.Awaited future → l.Awaited future) : next.AllHeld :=
  fun future waits => (held future (awaited future waits)).frame list map worker

theorem held_enqueue (compact : Compact l) {func future : Nat} {futures : List Nat} {k : Key}
    (before : l.Held future ∨ future ∈ futures) : (l.enqueueInternalMulti func futures k false).Held future := by
  unfold enqueueInternalMulti
  cases found : l.queueMap.get? k with
  | some old =>
    have queued : k ∈ l.queueList := (compact.keys k).mpr ((Dict.mem_keys_iff ..).mpr ⟨old, found⟩)
    rcases before with (⟨key, member, entry, there, inside⟩ | inHand) | new
    · by_cases same : key = k
      · subst same
        rw [found, Option.some.injEq] at there
        subst there
        exact .inl ⟨key, member, _, Dict.get?_set_self .., List.mem_append_left _ inside⟩
      · refine .inl ⟨key, member, entry, ?_, inside⟩
        rw [Dict.get?_set_ne _ _ same]
        exact there
    · exact .inr inHand
    · exact .inl ⟨k, queued, _, Dict.get?_set_self .., List.mem_append_right _ new⟩
  | none =>
    rcases before with (⟨key, member, entry, there, inside⟩ | inHand) | new
    · have other : key ≠ k := by
        rintro rfl
        rw [found] at there
        cases there
      refine .inl ⟨key, List.mem_append_left _ member, entry, ?_, inside⟩
      rw [Dict.get?_set_ne _ _ other]
      exact there
    · exact .inr inHand
    · exact .inl ⟨k, List.mem_append_right _ (List.mem_singleton_self k), _, Dict.get?_set_self .., new⟩

theorem allHeld_enterQueue (compact : Compact l) (held : l.AllHeld) (number : Nat) (submission : Submission Key) :
    (l.enterQueue number submission).AllHeld := by
  intro future waits
  have created : Compact (l.createFuture number submission) := ⟨compact.nodup, compact.keys⟩
  have futures : (l.enterQueue number submission).futures = (l.createFuture number submission).futures := by
    unfold enterQueue enqueueInternalMulti
    split <;> rfl
  have waits' : (l.createFuture number submission).Awaited future := by
    unfold Awaited at waits
    rw [futures] at waits
    exact waits
  apply held_enqueue created
  rcases awaited_create waits' with old | new
  · exact .inl ((held future old).frame rfl rfl rfl)
  · exact .inr (new ▸ List.mem_singleton_self _)

def submits : Action Key → Bool
  | .enqueue _ | .enter _ => true
  | _ => false

theorem awaited_step {a : Action Key} (taken : l.step a = some next) (silent : submits a = false) {future : Nat}
    (waits : next.Awaited future) : l.Awaited future := by
  cases stepped_of_step taken with
  | enqueue k => cases silent
  | enter number submission found => cases silent
  | take k rest queue =>
    unfold takeFirst at waits
    split at waits <;> exact waits
  | finish ending k entry running => exact (awaited_completeAll waits).1
  | cancel number submission futures found cancelled =>
    rcases cancelled with rfl | ⟨future, rfl⟩
    · exact waits
    · exact awaited_cancel waits
  | fireAndForget k => exact waits
  | start k entry worker => exact waits
  | resume number submission state found => exact waits
  | stop => exact waits

theorem idle_of_take (taken : l.step .take = some next) : l.worker = .idle := by
  simp only [step] at taken
  split at taken
  · rename_i worker queue
    exact worker
  · cases taken

theorem allHeld_take (compact : Compact l) (held : l.AllHeld) (idle : l.worker = .idle) {k : Key} {rest : List Key}
    (queue : l.queueList = k :: rest) : (l.takeFirst k rest).AllHeld := by
  have known : k ∈ l.queueMap.keys := (compact.keys k).mp (queue ▸ List.mem_cons_self)
  obtain ⟨entry, found⟩ := (Dict.mem_keys_iff ..).mp known
  intro future waits
  simp only [takeFirst, found] at waits ⊢
  rcases held future waits with ⟨key, member, other, there, inside⟩ | ⟨other, hand, inside⟩
  · by_cases same : key = k
    · subst same
      rw [found, Option.some.injEq] at there
      subst there
      exact .inr ⟨entry, rfl, inside⟩
    · rw [queue] at member
      have later := (List.mem_cons.mp member).resolve_left same
      refine .inl ⟨key, later, other, ?_, inside⟩
      rw [Dict.get?_erase, if_neg same]
      exact there
  · rw [inHand, idle] at hand
    cases hand

theorem allHeld_finish (held : l.AllHeld) {k : Key} {entry : Entry} (running : l.worker = .running k entry)
    (ending : Ending) : ({ entry.futures.foldl (complete entry.func ending) l with worker := .idle }).AllHeld := by
  obtain ⟨list, map, _⟩ := completeAll_frame entry.func ending l entry.futures
  intro future waits
  obtain ⟨before, outside⟩ := awaited_completeAll waits
  rcases held future before with ⟨key, member, other, there, inside⟩ | ⟨other, hand, inside⟩
  · refine .inl ⟨key, ?_, other, ?_, inside⟩
    · rw [← list] at member
      exact member
    · rw [← map] at there
      exact there
  · rw [inHand, running, Option.some.injEq] at hand
    subst hand
    exact absurd inside outside

theorem allHeld_step {a : Action Key} (compact : Compact l) (held : l.AllHeld) (taken : l.step a = some next)
    (goesOn : a ≠ .stop) : next.AllHeld := by
  cases stepped_of_step taken with
  | enqueue k =>
    have submitted : Compact (l.submit k false) := ⟨compact.nodup, compact.keys⟩
    have before : (l.submit k false).AllHeld := held.frame rfl rfl rfl fun _ => id
    exact allHeld_enterQueue submitted before _ _
  | enter number submission found => exact allHeld_enterQueue compact held number submission
  | take k rest queue => exact allHeld_take compact held (idle_of_take taken) queue
  | start k entry worker =>
    intro future waits
    rcases held future waits with queued | ⟨other, hand, inside⟩
    · exact .inl queued
    · rw [inHand, worker] at hand
      exact .inr ⟨other, hand, inside⟩
  | finish ending k entry running => exact allHeld_finish held running ending
  | fireAndForget k => exact held.frame rfl rfl rfl fun _ => id
  | resume number submission state found => exact held.frame rfl rfl rfl fun _ => id
  | cancel number submission futures found cancelled =>
    exact held.frame rfl rfl rfl fun future waits => awaited_step taken rfl waits
  | stop => exact absurd rfl goesOn

def waiting (l : MessagingRateLimiter Key) : List Nat :=
  (List.range l.futures.length).filter fun future => l.futures[future]?.any fun f => f.state = .pending

omit [DecidableEq Key] in
theorem mem_waiting {future : Nat} : future ∈ l.waiting ↔ l.Awaited future := by
  unfold waiting Awaited
  rw [List.mem_filter, List.mem_range, Option.any_eq_true]
  constructor
  · rintro ⟨-, f, there, pending⟩
    exact ⟨f, there, of_decide_eq_true pending⟩
  · rintro ⟨f, there, pending⟩
    exact ⟨(List.getElem?_eq_some_iff.mp there).1, f, there, decide_eq_true pending⟩

end MessagingRateLimiter

namespace LimiterService

variable {Key : Type} [DecidableEq Key] {s next : LimiterService Key}

/-- The worker lives until `shutdown` is called, what is awaited is queued or in its hands, and after
    `shutdown` nobody waits. -/
structure NobodyStranded (s : LimiterService Key) : Prop where
  alive : s.shutdown = false → s.limiter.worker ≠ .stopped
  held : s.shutdown = false → ∀ future, s.limiter.Awaited future → s.limiter.Held future
  answered : s.returned = true → ∀ f ∈ s.limiter.futures, f.state ≠ .pending

/-- Only after `shutdown` was called does a function raise `CancelledError`. Whenever the worker leaves its loop
    nobody waits but those whom its last function answers, and nothing is submitted after that. -/
def leavesNobody (s : LimiterService Key) : ServiceAction Key → Bool
  | .own (.finish _) => !s.shutdown ||
    s.limiter.waiting.all fun future => s.limiter.inHand.any fun entry => future ∈ entry.futures
  | .own action => !MessagingRateLimiter.submits action || s.limiter.worker ≠ .stopped
  | .raiseCancelled => s.shutdown && s.limiter.waiting.isEmpty
  | .leave => s.limiter.waiting.isEmpty
  | _ => true

structure Sound (s : LimiterService Key) : Prop where
  compact : s.limiter.Compact
  alive : s.shutdown = false → s.limiter.worker ≠ .stopped
  held : s.limiter.worker ≠ .stopped → s.limiter.AllHeld
  left : s.limiter.worker = .stopped → ∀ future, ¬ s.limiter.Awaited future
  returned : s.returned = true → s.limiter.worker = .stopped

/-- The worker leaves while nobody waits. -/
theorem Sound.stopped (sound : Sound s) (shutdown : s.shutdown = true) (nobody : ∀ future, ¬ s.limiter.Awaited future) :
    Sound s.stopped where
  compact := ⟨sound.compact.nodup, sound.compact.keys⟩
  alive no := absurd no (by rw [show s.stopped.shutdown = s.shutdown from rfl, shutdown]; decide)
  held running := absurd rfl running
  left _ := nobody
  returned _ := rfl

omit [DecidableEq Key] in
theorem nobody_of_isEmpty (empty : s.limiter.waiting.isEmpty = true) (future : Nat) : ¬ s.limiter.Awaited future := by
  intro waits
  have member := MessagingRateLimiter.mem_waiting.mpr waits
  rw [List.isEmpty_iff.mp empty] at member
  exact List.not_mem_nil member

/-- A step of the limiter with the worker at work. -/
theorem Sound.working (sound : Sound s) {a : Action Key} {l : MessagingRateLimiter Key} (taken : s.limiter.step a = some l)
    (goesOn : a ≠ .stop) (working : s.limiter.worker ≠ .stopped) (still : l.worker ≠ .stopped) :
    Sound (s.withLimiter l) where
  compact := MessagingRateLimiter.compact_step sound.compact taken
  alive _ := still
  held _ := MessagingRateLimiter.allHeld_step sound.compact (sound.held working) taken goesOn
  left stopped := absurd stopped still
  returned yes := absurd (sound.returned yes) working

/-- A step of the limiter after the worker has left. -/
theorem Sound.abandoned (sound : Sound s) {a : Action Key} {l : MessagingRateLimiter Key} (taken : s.limiter.step a = some l)
    (silent : MessagingRateLimiter.submits a = false) (left : s.limiter.worker = .stopped)
    (same : l.worker = s.limiter.worker) :
    Sound (s.withLimiter l) where
  compact := MessagingRateLimiter.compact_step sound.compact taken
  alive no := absurd left (sound.alive no)
  held working := absurd (same.trans left) working
  left _ future waits := sound.left left future (MessagingRateLimiter.awaited_step taken silent waits)
  returned _ := same.trans left

theorem Sound.caller (sound : Sound s) {a : Action Key} {l : MessagingRateLimiter Key} (taken : s.limiter.step a = some l)
    (goesOn : a ≠ .stop) (meets : (!MessagingRateLimiter.submits a || s.limiter.worker ≠ .stopped) = true)
    (same : l.worker = s.limiter.worker) : Sound (s.withLimiter l) := by
  by_cases left : s.limiter.worker = .stopped
  · have silent : MessagingRateLimiter.submits a = false := by simpa [left] using meets
    exact sound.abandoned taken silent left same
  · exact sound.working taken goesOn left (same ▸ left)

theorem worker_enterQueue (l : MessagingRateLimiter Key) (number : Nat) (submission : Submission Key) :
    (l.enterQueue number submission).worker = l.worker := by
  unfold MessagingRateLimiter.enterQueue MessagingRateLimiter.enqueueInternalMulti
  split <;> rfl

def byWorker : Action Key → Bool
  | .take | .start | .finish _ | .stop => true
  | _ => false

theorem worker_step {l after : MessagingRateLimiter Key} {a : Action Key} (taken : l.step a = some after)
    (byCaller : byWorker a = false) : after.worker = l.worker := by
  cases MessagingRateLimiter.stepped_of_step taken with
  | enqueue k => exact worker_enterQueue ..
  | enter number submission found => exact worker_enterQueue ..
  | fireAndForget k => rfl
  | resume number submission state found => rfl
  | cancel number submission futures found cancelled => rfl
  | take k rest queue => cases byCaller
  | start k entry worker => cases byCaller
  | finish ending k entry running => cases byCaller
  | stop => cases byCaller

theorem sound_take (sound : Sound s) (taken : s.step (.own .take) = some next) : Sound next := by
  simp only [step] at taken
  split at taken
  · cases taken
  · obtain ⟨l, own, rfl⟩ := Option.map_eq_some_iff.mp taken
    have idle := MessagingRateLimiter.idle_of_take own
    refine sound.working own nofun (by rw [idle]; nofun) ?_
    cases MessagingRateLimiter.stepped_of_step own with
    | take k rest queue =>
      unfold MessagingRateLimiter.takeFirst
      split
      · rw [show ({ s.limiter with queueList := rest } : MessagingRateLimiter Key).worker = s.limiter.worker from rfl, idle]
        nofun
      · nofun

theorem sound_start (sound : Sound s) (taken : s.step (.own .start) = some next) : Sound next := by
  simp only [step] at taken
  split at taken
  · cases taken
  · obtain ⟨l, own, rfl⟩ := Option.map_eq_some_iff.mp taken
    cases stepped : MessagingRateLimiter.stepped_of_step own with
    | start k entry worker => exact sound.working own nofun (by rw [worker]; nofun) nofun

theorem sound_finish (sound : Sound s) {ending : Ending} (meets : leavesNobody s (.own (.finish ending)) = true)
    (taken : s.step (.own (.finish ending)) = some next) : Sound next := by
  simp only [step] at taken
  obtain ⟨l, own, result⟩ := Option.map_eq_some_iff.mp taken
  cases stepped : MessagingRateLimiter.stepped_of_step own with
  | finish _ k entry running =>
    have working : s.limiter.worker ≠ .stopped := by
      rw [running]
      nofun
    have finished := sound.working own nofun working nofun
    cases shutdown : s.shutdown with
    | false =>
      rw [shutdown] at result
      exact result ▸ finished
    | true =>
      rw [shutdown] at result
      refine result ▸ finished.stopped shutdown fun future waits => ?_
      obtain ⟨before, outside⟩ := MessagingRateLimiter.awaited_completeAll waits
      have own := List.all_eq_true.mp (by simpa [leavesNobody, shutdown] using meets) future
        (MessagingRateLimiter.mem_waiting.mpr before)
      rw [MessagingRateLimiter.inHand, running] at own
      exact outside (of_decide_eq_true own)

theorem sound_step (sound : Sound s) {a : ServiceAction Key} (meets : leavesNobody s a = true)
    (taken : s.step a = some next) : Sound next := by
  have caller (action : Action Key) (byCaller : byWorker action = false)
      (meets : (!MessagingRateLimiter.submits action || s.limiter.worker ≠ .stopped) = true)
      (taken : (s.limiter.step action).map s.withLimiter = some next) : Sound next := by
    have goesOn : action ≠ .stop := by
      rintro rfl
      cases byCaller
    obtain ⟨l, own, rfl⟩ := Option.map_eq_some_iff.mp taken
    exact sound.caller own goesOn meets (worker_step own byCaller)
  cases a with
  | own action =>
    cases action with
    | take => exact sound_take sound taken
    | start => exact sound_start sound taken
    | finish ending => exact sound_finish sound meets taken
    | stop => cases taken
    | enqueue k => exact caller (.enqueue k) rfl meets taken
    | fireAndForget k => exact caller (.fireAndForget k) rfl meets taken
    | enter number => exact caller (.enter number) rfl meets taken
    | resume number => exact caller (.resume number) rfl meets taken
    | cancel number => exact caller (.cancel number) rfl meets taken
  | raiseCancelled =>
    obtain ⟨shutdown, nobody⟩ := Bool.and_eq_true_iff.mp meets
    simp only [step] at taken
    split at taken
    · cases taken
      exact sound.stopped shutdown (nobody_of_isEmpty nobody)
    · cases taken
  | shutdown =>
    cases taken
    exact ⟨sound.compact, nofun, sound.held, sound.left, sound.returned⟩
  | leave =>
    simp only [step] at taken
    split at taken
    · rename_i shutdown worker
      cases taken
      exact sound.stopped shutdown (nobody_of_isEmpty meets)
    · rename_i shutdown worker
      cases taken
      exact sound.stopped shutdown (nobody_of_isEmpty meets)
    · cases taken
  | returns =>
    simp only [step] at taken
    split at taken
    · rename_i both
      cases taken
      exact ⟨sound.compact, sound.alive, sound.held, sound.left, fun _ => both.2⟩
    · cases taken

theorem sound_new : Sound (new : LimiterService Key) where
  compact := ⟨List.nodup_nil, fun _ => Iff.rfl⟩
  alive _ := nofun
  held _ := nofun
  left := nofun
  returned := nofun

/-- No caller of the limiter waits for ever. -/
theorem nobody_stranded (reached : machine.ReachableUnder (fun s a => leavesNobody s a = true) s) : NobodyStranded s := by
  have sound := Machine.ReachableUnder.invariant sound_new (fun _ _ _ before meets taken => sound_step before meets taken)
    reached
  refine ⟨sound.alive, fun no => sound.held (sound.alive no), fun returned f member pending => ?_⟩
  obtain ⟨future, there⟩ := List.getElem?_of_mem member
  exact sound.left (sound.returned returned) future ⟨f, there, pending⟩

/-- An edit is sent, `shutdown` is called while the next one is being sent, which is still answered. -/
theorem nobody_stranded_shutdown : ∃ s : LimiterService String,
    s.returned = true ∧ s.limiter.completed = [0, 1] ∧ NobodyStranded s := by
  have ran : (machine.runUnder leavesNobody machine.init
      [.own (.enqueue "edit"), .own .take, .own .start, .own (.finish .result), .own (.enqueue "edit"), .own .take,
        .own .start, .shutdown, .own (.finish .result), .returns]).any
      (fun s : LimiterService String => decide (s.returned = true ∧ s.limiter.completed = [0, 1])) = true := by decide
  obtain ⟨s, here, facts⟩ := (Option.any_eq_true _ _).mp ran
  obtain ⟨returned, completed⟩ := of_decide_eq_true facts
  exact ⟨s, returned, completed, nobody_stranded (Machine.reachableUnder_of_runUnder .init here)⟩

/-- A cancellation inside a submitted function ends the worker, and its caller waits for ever. -/
theorem cancelled_function_strands :
    ¬ ∀ s : LimiterService String, machine.Reachable s → NobodyStranded s := by
  intro never
  have ran : (machine.run machine.init [.own (.enqueue "edit"), .own .take, .own .start, .raiseCancelled]).any
      (fun s : LimiterService String => decide (s.shutdown = false ∧ s.limiter.worker = .stopped)) = true := by decide
  obtain ⟨s, here, facts⟩ := (Option.any_eq_true _ _).mp ran
  obtain ⟨shutdown, stopped⟩ := of_decide_eq_true facts
  exact (never s (Machine.reachable_of_run here)).alive shutdown stopped

end LimiterService

end ClaudeProxy.Limiter

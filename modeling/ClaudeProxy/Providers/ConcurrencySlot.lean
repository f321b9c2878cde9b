import ClaudeProxy.Kit.Machine
import ClaudeProxy.Kit.Semaphore
import ClaudeProxy.Providers.RateLimit

namespace ClaudeProxy.Providers

open Kit

inductive StreamKind where
  /-- `OpenAICompatibleProvider`, which yields its `message_start` before it asks for a slot. -/
  | compat
  /-- The LM Studio and llama.cpp providers. -/
  | native
deriving DecidableEq

inductive StreamProgress where
  /-- Before the body of `async with concurrency_slot()`. -/
  | entering
  /-- In `execute_with_retry`. -/
  | connecting
  /-- Reading chunks. -/
  | streaming
  /-- In `except Exception`, yielding the error. -/
  | reporting
  /-- After the slot: what is left is flushed. -/
  | flushing
  | over
deriving DecidableEq

structure ProviderStream where
  kind : StreamKind
  progress : StreamProgress

def ProviderStream.atUpstream (stream : ProviderStream) : Bool := stream.progress = .connecting ∨ stream.progress = .streaming

/-- The singleton, with the streams of all providers. -/
structure LimiterInstance where
  limiter : GlobalRateLimiter
  /-- What `_concurrency_sem` began with. -/
  capacity : Nat
  concurrencySem : Semaphore ProviderStream

structure SlotWorld where
  current : Option LimiterInstance
  /-- Streams that have yielded `message_start` and nothing else. -/
  begun : Nat

inductive SlotAction where
  | getInstance (rateLimit : Option Int) (rateWindow : Option ℚ) (maxConcurrency : Int)
  | start
  /-- A begun stream is closed. -/
  | drop
  | ask (kind : StreamKind)
  /-- The task of a stream in the queue runs again. -/
  | wake (number : Nat)
  | enter (number : Nat)
  | connected (number : Nat)
  | fail (number : Nat)
  | leave (number : Nat)
  | finish (number : Nat)
  /-- The task is cancelled or the generator closed, wherever it waits. -/
  | cancel (number : Nat)

namespace LimiterInstance

/-- `cls(...)`; a value that is 0 counts as not given. -/
def create (rateLimit : Option Int) (rateWindow : Option ℚ) (maxConcurrency : Int) : Except String LimiterInstance :=
  let rateLimit := if rateLimit.getD 0 = 0 then 40 else rateLimit.getD 0
  let rateWindow := if rateWindow.getD 0 = 0 then 60 else rateWindow.getD 0
  (GlobalRateLimiter.new rateLimit rateWindow maxConcurrency).map fun limiter =>
    ⟨limiter, maxConcurrency.toNat, ⟨maxConcurrency.toNat, []⟩⟩

def withSem (i : LimiterInstance) (sem : Option (Semaphore ProviderStream)) : Option LimiterInstance :=
  sem.map fun sem => { i with concurrencySem := sem }

/-- The stream with the number, while it holds its slot. -/
def holder (i : LimiterInstance) (number : Nat) : Option ProviderStream :=
  match i.concurrencySem.requests[number]? with
  | none => none
  | some r => if r.phase = .holding then some r.work else none

/-- Leave the `async with`; a native stream ends there. -/
def leave (i : LimiterInstance) (number : Nat) (stream : ProviderStream) : Option LimiterInstance :=
  i.withSem (i.concurrencySem.release number { stream with progress := if stream.kind = .compat then .flushing else .over })

def cancel (i : LimiterInstance) (number : Nat) : Option LimiterInstance :=
  match i.concurrencySem.requests[number]? with
  | none => none
  | some r =>
    match r.phase with
    | .pending | .granted => i.withSem (i.concurrencySem.cancel number)
    | .holding => i.withSem (i.concurrencySem.release number { r.work with progress := .over })
    | .released =>
      if r.work.progress = .flushing then i.withSem (i.concurrencySem.proceed number { r.work with progress := .over }) else none
    | _ => none

def step (i : LimiterInstance) : SlotAction → Option LimiterInstance
  | .getInstance _ _ _ | .start | .drop => some i
  | .ask kind => some { i with concurrencySem := i.concurrencySem.acquire ⟨kind, .entering⟩ }
  | .wake number => i.withSem (i.concurrencySem.resume number)
  | .enter number =>
    match i.holder number with
    | some ⟨kind, .entering⟩ => i.withSem (i.concurrencySem.proceed number ⟨kind, .connecting⟩)
    | _ => none
  | .connected number =>
    match i.holder number with
    | some ⟨kind, .connecting⟩ => i.withSem (i.concurrencySem.proceed number ⟨kind, .streaming⟩)
    | _ => none
  | .fail number =>
    match i.holder number with
    | some ⟨kind, .connecting⟩ => i.withSem (i.concurrencySem.proceed number ⟨kind, .reporting⟩)
    | some ⟨kind, .streaming⟩ => i.withSem (i.concurrencySem.proceed number ⟨kind, .reporting⟩)
    | _ => none
  | .leave number =>
    match i.holder number with
    | some ⟨kind, .streaming⟩ => i.leave number ⟨kind, .streaming⟩
    | some ⟨kind, .reporting⟩ => i.leave number ⟨kind, .reporting⟩
    | _ => none
  | .finish number =>
    match i.concurrencySem.requests[number]? with
    | some ⟨.released, ⟨kind, .flushing⟩⟩ => i.withSem (i.concurrencySem.proceed number ⟨kind, .over⟩)
    | _ => none
  | .cancel number => i.cancel number

end LimiterInstance

namespace SlotWorld

/-- How many streams wait at their `message_start`. -/
def count (w : SlotWorld) : SlotAction → Option Nat
  | .start => some (w.begun + 1)
  | .drop | .ask .compat => if 0 < w.begun then some (w.begun - 1) else none
  | _ => some w.begun

def step (w : SlotWorld) (a : SlotAction) : Option SlotWorld :=
  match w.current, a with
  | none, .getInstance rateLimit rateWindow maxConcurrency =>
    match LimiterInstance.create rateLimit rateWindow maxConcurrency with
    | .ok current => some { w with current := some current }
    | .error _ => some w
  | none, _ => none
  | some i, a => (w.count a).bind fun begun => (i.step a).map fun current => ⟨some current, begun⟩

def machine : Machine SlotWorld SlotAction := ⟨⟨none, 0⟩, step⟩

end SlotWorld

/-- How far a stream can be with its slot in this phase. -/
def Fits (r : SlotRequest ProviderStream) : Prop :=
  match r.phase with
  | .holding => r.work.progress ≠ .flushing ∧ r.work.progress ≠ .over
  | .released => r.work.progress = .flushing ∨ r.work.progress = .over
  | _ => r.work.progress = .entering

structure LimiterInstance.Sound (i : LimiterInstance) : Prop where
  positive : 0 < i.capacity
  slots : i.concurrencySem.Sound i.capacity
  fits : ∀ r ∈ i.concurrencySem.requests, Fits r

theorem fits_stable : Semaphore.StableInQueue Fits := by
  intro r phase fits notHolding notReleased queued
  have entering : r.work.progress = .entering := by
    unfold Fits at fits
    cases own : r.phase <;> simp_all
  cases phase <;> simp_all [Fits]

/-- A stream speaks to its upstream only with a slot. -/
theorem Fits.holding {r : SlotRequest ProviderStream} (fits : Fits r) (upstream : r.work.atUpstream = true) : r.phase = .holding := by
  unfold Fits at fits
  rw [ProviderStream.atUpstream, decide_eq_true_iff] at upstream
  cases own : r.phase <;> rcases upstream with here | here <;> simp_all

theorem fits_holding {kind : StreamKind} {progress : StreamProgress} (busy : progress ≠ .flushing ∧ progress ≠ .over) :
    Fits ⟨.holding, ⟨kind, progress⟩⟩ := busy

namespace LimiterInstance

variable {i next : LimiterInstance} {number : Nat} {stream : ProviderStream}

theorem eq_of_holder (holds : i.holder number = some stream) :
    i.concurrencySem.requests[number]? = some ⟨.holding, stream⟩ := by
  unfold holder at holds
  split at holds
  · cases holds
  · rename_i r found
    split at holds
    · rename_i phase
      rw [found, ← Option.some.inj holds, ← phase]
    · cases holds

theorem Sound.moved {sem : Option (Semaphore ProviderStream)} (sound : i.Sound) (moved : i.withSem sem = some next)
    (slots : ∀ s, sem = some s → s.Sound i.capacity) (fits : ∀ s, sem = some s → ∀ r ∈ s.requests, Fits r) :
    next.Sound ∧ next.capacity = i.capacity := by
  obtain ⟨s, same, rfl⟩ := Option.map_eq_some_iff.mp moved
  exact ⟨⟨sound.positive, slots s same, fits s same⟩, rfl⟩

/-- A stream goes on with its slot. -/
theorem Sound.proceeds (sound : i.Sound) {r : SlotRequest ProviderStream} (found : i.concurrencySem.requests[number]? = some r)
    (goesOn : Fits ⟨r.phase, stream⟩) (moved : i.withSem (i.concurrencySem.proceed number stream) = some next) :
    next.Sound ∧ next.capacity = i.capacity :=
  sound.moved moved (fun _ ran => sound.slots.proceed ran) fun _ ran => Semaphore.forall_proceed sound.fits found goesOn ran

theorem Sound.releases (sound : i.Sound) (done : Fits ⟨.released, stream⟩)
    (moved : i.withSem (i.concurrencySem.release number stream) = some next) : next.Sound ∧ next.capacity = i.capacity :=
  sound.moved moved (fun _ released => sound.slots.release released) fun _ released =>
    Semaphore.forall_release fits_stable sound.fits done released

theorem Sound.leaves (sound : i.Sound) (moved : i.leave number stream = some next) : next.Sound ∧ next.capacity = i.capacity := by
  refine sound.releases ?_ moved
  by_cases compat : stream.kind = .compat
  · exact .inl (if_pos compat)
  · exact .inr (if_neg compat)

theorem Sound.cancels (sound : i.Sound) (cancelled : i.cancel number = some next) : next.Sound ∧ next.capacity = i.capacity := by
  unfold LimiterInstance.cancel at cancelled
  split at cancelled
  · cases cancelled
  rename_i r found
  split at cancelled
  · exact sound.moved cancelled (fun _ did => sound.slots.cancel did) fun _ did => Semaphore.forall_cancel fits_stable sound.fits did
  · exact sound.moved cancelled (fun _ did => sound.slots.cancel did) fun _ did => Semaphore.forall_cancel fits_stable sound.fits did
  · exact sound.releases (.inr rfl) cancelled
  · rename_i phase
    split at cancelled
    · refine sound.proceeds found ?_ cancelled
      rw [phase]
      exact .inr rfl
    · cases cancelled
  · cases cancelled

theorem Sound.step (sound : i.Sound) {a : SlotAction} (taken : i.step a = some next) : next.Sound ∧ next.capacity = i.capacity := by
  cases a with
  | getInstance rateLimit rateWindow maxConcurrency => exact Option.some.inj taken ▸ ⟨sound, rfl⟩
  | start => exact Option.some.inj taken ▸ ⟨sound, rfl⟩
  | drop => exact Option.some.inj taken ▸ ⟨sound, rfl⟩
  | ask kind =>
    rw [← Option.some.inj taken]
    have waits : Fits ⟨.pending, ⟨kind, .entering⟩⟩ := rfl
    have fits := Semaphore.forall_acquire sound.fits waits (fits_holding (by decide))
    exact ⟨⟨sound.positive, sound.slots.acquire _, fits⟩, rfl⟩
  | wake number =>
    exact sound.moved taken (fun _ did => sound.slots.resume did) fun _ did => Semaphore.forall_resume fits_stable sound.fits did
  | enter number =>
    simp only [LimiterInstance.step] at taken
    split at taken
    · rename_i kind holds
      exact sound.proceeds (eq_of_holder holds) (fits_holding (by decide)) taken
    · cases taken
  | connected number =>
    simp only [LimiterInstance.step] at taken
    split at taken
    · rename_i kind holds
      exact sound.proceeds (eq_of_holder holds) (fits_holding (by decide)) taken
    · cases taken
  | fail number =>
    simp only [LimiterInstance.step] at taken
    split at taken
    · rename_i kind holds
      exact sound.proceeds (eq_of_holder holds) (fits_holding (by decide)) taken
    · rename_i kind holds
      exact sound.proceeds (eq_of_holder holds) (fits_holding (by decide)) taken
    · cases taken
  | leave number =>
    simp only [LimiterInstance.step] at taken
    split at taken
    · exact sound.leaves taken
    · exact sound.leaves taken
    · cases taken
  | finish number =>
    simp only [LimiterInstance.step] at taken
    split at taken
    · rename_i kind found
      exact sound.proceeds found (.inr rfl) taken
    · cases taken
  | cancel number => exact sound.cancels taken

theorem sound_create {rateLimit : Option Int} {rateWindow : Option ℚ} {maxConcurrency : Int}
    (created : create rateLimit rateWindow maxConcurrency = .ok i) : i.Sound := by
  unfold create at created
  generalize (if rateLimit.getD 0 = 0 then 40 else rateLimit.getD 0) = limit at created
  generalize (if rateWindow.getD 0 = 0 then 60 else rateWindow.getD 0) = window at created
  simp only [GlobalRateLimiter.new] at created
  split_ifs at created with limited windowed many
  · cases created
    exact ⟨Int.pos_iff_toNat_pos.mp many, Semaphore.sound_new _, by simp⟩
  all_goals cases created

end LimiterInstance

namespace SlotWorld

theorem step_cases {w next : SlotWorld} {a : SlotAction} (taken : w.step a = some next) :
    (w.current = none ∧ next = w) ∨
    (∃ rateLimit rateWindow maxConcurrency i, w.current = none ∧ next = ⟨some i, w.begun⟩ ∧
      LimiterInstance.create rateLimit rateWindow maxConcurrency = .ok i) ∨
    ∃ i after begun, w.current = some i ∧ i.step a = some after ∧ next = ⟨some after, begun⟩ := by
  obtain ⟨current, begun⟩ := w
  cases current with
  | none =>
    cases a with
    | getInstance rateLimit rateWindow maxConcurrency =>
      simp only [step] at taken
      split at taken
      · rename_i i created
        exact .inr (.inl ⟨_, _, _, i, rfl, (Option.some.inj taken).symm, created⟩)
      · exact .inl ⟨rfl, (Option.some.inj taken).symm⟩
    | _ => cases taken
  | some i =>
    obtain ⟨begun', -, rest⟩ := Option.bind_eq_some_iff.mp taken
    obtain ⟨after, did, same⟩ := Option.map_eq_some_iff.mp rest
    exact .inr (.inr ⟨i, after, begun', rfl, did, same.symm⟩)

def Sound (w : SlotWorld) : Prop := ∀ i, w.current = some i → i.Sound

theorem sound {w : SlotWorld} (reached : machine.Reachable w) : w.Sound := by
  refine reached.invariant ?_ ?_
  · intro i none
    cases none
  intro w a next sound _ taken i has
  rcases step_cases taken with ⟨none, same⟩ | ⟨_, _, _, created, -, same, ok⟩ | ⟨before, after, begun, current, did, same⟩
  · rw [same, none] at has
    cases has
  · rw [same] at has
    exact Option.some.inj has ▸ LimiterInstance.sound_create ok
  · rw [same] at has
    exact Option.some.inj has ▸ ((sound before current).step did).1

/-- Never more streams are open at their upstreams than the first `get_instance` allowed; slots are given in the order of
    asking; none is lost, however the streams end; and a stream waits only while all slots are in use. -/
theorem concurrency_capped {w : SlotWorld} (reached : machine.Reachable w) {i : LimiterInstance} (has : w.current = some i) :
    i.concurrencySem.requests.countP (fun r => r.work.atUpstream) ≤ i.capacity ∧
    i.concurrencySem.requests.Pairwise (fun early late => early.phase = .pending → ¬ late.phase.served = true) ∧
    ((∀ r ∈ i.concurrencySem.requests, r.phase.taken = false) → i.concurrencySem.value = i.capacity ∧ 0 < i.capacity) ∧
    ((∀ r ∈ i.concurrencySem.requests, r.phase.woken = false) → ∀ r ∈ i.concurrencySem.requests, r.phase = .pending →
      i.concurrencySem.requests.countP (fun r => r.phase = .holding) = i.capacity) ∧
    ∀ a next, w.step a = some next → ∃ after, next.current = some after ∧ after.capacity = i.capacity := by
  have sound := sound reached i has
  refine ⟨?_, sound.slots.orderly, fun idle => ⟨sound.slots.free_of_idle idle, sound.positive⟩, ?_, ?_⟩
  · refine le_trans (List.countP_mono_left fun r mem upstream => ?_) sound.slots.holders_le
    exact decide_eq_true ((sound.fits r mem).holding upstream)
  · intro settled r mem pending
    exact sound.slots.full_of_pending settled mem pending
  · intro a next taken
    rcases step_cases taken with ⟨none, -⟩ | ⟨_, _, _, _, none, -, -⟩ | ⟨before, after, begun, current, did, rfl⟩
    · rw [none] at has
      cases has
    · rw [none] at has
      cases has
    · rw [current, Option.some.injEq] at has
      exact ⟨after, rfl, by rw [← has]; exact ((SlotWorld.sound reached before current).step did).2⟩

/-- One slot: a stream fails and leaves, the next is cancelled in the queue, the third gets the slot. -/
def oneSlot : List SlotAction :=
  [.getInstance none none 1, .getInstance none none 7, .start, .ask .compat, .ask .native, .ask .native, .enter 0, .cancel 1,
    .fail 0, .leave 0, .wake 1, .wake 2, .enter 2]

theorem concurrency_capped_oneSlot : ∃ w i, machine.run machine.init oneSlot = some w ∧ w.current = some i ∧
    i.concurrencySem.requests.countP (fun r => r.work.atUpstream) = 1 ∧
    i.concurrencySem.requests.countP (fun r => r.work.atUpstream) ≤ i.capacity := by
  have runs : (machine.run machine.init oneSlot).isSome = true := by decide +kernel
  obtain ⟨w, ran⟩ := Option.isSome_iff_exists.mp runs
  have upstream : ((machine.run machine.init oneSlot).bind SlotWorld.current).map
      (fun i => i.concurrencySem.requests.countP fun r => r.work.atUpstream) = some 1 := by decide +kernel
  rw [ran] at upstream
  obtain ⟨i, has, one⟩ := Option.map_eq_some_iff.mp upstream
  exact ⟨w, i, ran, has, one, (concurrency_capped (Machine.reachable_of_run ran) has).1⟩

end SlotWorld

end ClaudeProxy.Providers

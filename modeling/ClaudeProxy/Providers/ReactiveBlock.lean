import ClaudeProxy.Limiter.StrictWindow

namespace ClaudeProxy.Providers

open Kit Limiter

/-- The attempt does not start while the block that was set before it is in force. -/
def Respects : LimiterEvent → LimiterEvent → Prop
  | .blocked now seconds, .started t => ¬ (now ≤ t ∧ t < now + seconds)
  | _, _ => True

namespace RetryWorld

variable {s next : RetryWorld}

def BlocksRespected (s : RetryWorld) : Prop := s.events.Pairwise Respects

/-- A block of so many seconds does not end before the one in force, and no caller that is past its check
    wakes up before it ends. -/
def outlasts (s : RetryWorld) (seconds : ℚ) : Bool :=
  s.limiter.blockedUntil ≤ s.clock + seconds && s.callers.all fun caller =>
    match caller.phase with
    | .waiting wake => s.clock + seconds ≤ wake
    | _ => true

def keepsBlocks (s : RetryWorld) : RetryAction → Bool
  | .setBlocked seconds => s.outlasts seconds
  | .rateLimited number jittered => s.callers[number]?.all fun caller =>
    caller.options.maxRetries ≤ caller.attempt || s.outlasts (caller.options.delay caller.attempt jittered)
  | _ => true

def Over (events : List LimiterEvent) (t : ℚ) : Prop := ∀ now seconds, .blocked now seconds ∈ events → now + seconds ≤ t

structure Sound (s : RetryWorld) : Prop where
  respected : s.BlocksRespected
  covered : Over s.events s.limiter.blockedUntil
  waits : ∀ caller ∈ s.callers, ∀ wake, caller.phase = .waiting wake → Over s.events wake

theorem Over.later {events : List LimiterEvent} {t later : ℚ} (over' : Over events t) (after : t ≤ later) :
    Over events later :=
  fun now seconds member => (over' now seconds member).trans after

theorem Over.started {events : List LimiterEvent} {t start : ℚ} (over' : Over events t) :
    Over (events ++ [.started start]) t := by
  intro now seconds member
  rcases List.mem_append.mp member with earlier | final
  · exact over' now seconds earlier
  · cases List.mem_singleton.mp final

theorem respected_started {events : List LimiterEvent} {t : ℚ} (respected : events.Pairwise Respects)
    (clear : Over events t) :
    (events ++ [LimiterEvent.started t]).Pairwise Respects := by
  refine List.pairwise_append.mpr ⟨respected, List.pairwise_singleton .., fun event member last final => ?_⟩
  rw [List.mem_singleton.mp final]
  cases event with
  | blocked now seconds =>
    have ended := clear now seconds member
    exact fun inside => absurd inside.2 (not_lt_of_ge ended)
  | started now => trivial

theorem mem_setPhase {number : Nat} {caller other : RetryCaller} {phase : RetryPhase}
    (member : other ∈ (s.setPhase number caller phase).callers) :
    other ∈ s.callers ∨ other = { caller with phase := phase } := List.mem_or_eq_of_mem_set member

theorem Sound.setPhase (sound : Sound s) (number : Nat) (caller : RetryCaller) (phase : RetryPhase)
    (waits : ∀ wake, phase = .waiting wake → Over s.events wake) : Sound (s.setPhase number caller phase) := by
  refine ⟨sound.respected, sound.covered, fun other member wake waiting => ?_⟩
  rcases mem_setPhase member with old | rfl
  · exact sound.waits other old wake waiting
  · exact waits wake waiting

theorem acquire_cases (l : GlobalRateLimiter) (now : ℚ) :
    ∃ after : GlobalRateLimiter, after.blockedUntil = l.blockedUntil ∧ (l.acquireProactiveSlot now = .granted after ∨
      ∃ waitTime, 0 ≤ waitTime ∧ l.acquireProactiveSlot now = .sleeps waitTime after) := by
  let w := slotWindow l.rateLimit l.rateWindow l.limited l.windowed
  unfold GlobalRateLimiter.acquireProactiveSlot
  rcases slotPass_cases l.rateLimit l.rateWindow l.limited l.windowed l.requestTimes now with
    ⟨-, pass⟩ | ⟨-, waitTime, positive, pass⟩
  · rw [pass]
    exact ⟨{ l with requestTimes := w.grant now l.requestTimes }, rfl, .inl rfl⟩
  · rw [pass]
    exact ⟨{ l with requestTimes := w.evict now l.requestTimes }, rfl, .inr ⟨waitTime, positive, rfl⟩⟩

theorem Sound.acquire (sound : Sound s) (clear : Over s.events s.clock) (number : Nat) (caller : RetryCaller) :
    Sound (s.acquire number caller) := by
  obtain ⟨after, same, granted | ⟨waitTime, positive, sleeps⟩⟩ := acquire_cases s.limiter s.clock
  · have moved := sound.setPhase number caller .attempting nofun
    rw [RetryWorld.acquire, granted]
    refine ⟨respected_started sound.respected clear, ?_, fun other member wake waiting => ?_⟩
    · have covered := (sound.covered.started : Over (s.events ++ [.started s.clock]) _)
      rw [← same] at covered
      exact covered
    · exact (moved.waits other member wake waiting).started
  · have wakes : s.clock ≤ s.clock + waitTime := le_add_of_nonneg_right positive
    have moved := sound.setPhase number caller (.waiting (s.clock + waitTime)) fun wake same => by
      cases same
      exact clear.later wakes
    rw [RetryWorld.acquire, sleeps]
    refine ⟨moved.respected, ?_, moved.waits⟩
    have covered := sound.covered
    rw [← same] at covered
    exact covered

theorem Sound.waitIfBlocked (sound : Sound s) (number : Nat) (caller : RetryCaller) :
    Sound (s.waitIfBlocked number caller) := by
  unfold RetryWorld.waitIfBlocked
  split
  · have ends : s.clock + (s.limiter.blockedUntil - s.clock) = s.limiter.blockedUntil := add_sub_cancel ..
    refine sound.setPhase number caller _ fun wake same => ?_
    cases same
    rw [ends]
    exact sound.covered
  · rename_i free
    exact sound.acquire (sound.covered.later (le_of_not_gt free)) number caller

theorem Sound.block (sound : Sound s) {seconds : ℚ} (meets : s.outlasts seconds = true) : Sound (s.block seconds) := by
  obtain ⟨longer, sleepers⟩ := Bool.and_eq_true_iff.mp meets
  have longer' : s.limiter.blockedUntil ≤ s.clock + seconds := of_decide_eq_true longer
  have grown {t : ℚ} (before : Over s.events t) (ends : s.clock + seconds ≤ t) :
      Over (s.events ++ [.blocked s.clock seconds]) t := by
    intro now seconds' member
    rcases List.mem_append.mp member with earlier | final
    · exact before now seconds' earlier
    · cases List.mem_singleton.mp final
      exact ends
  refine ⟨?_, grown (sound.covered.later longer') le_rfl, fun caller member wake waiting => ?_⟩
  · refine List.pairwise_append.mpr ⟨sound.respected, List.pairwise_singleton .., fun event _ last final => ?_⟩
    rw [List.mem_singleton.mp final]
    cases event <;> trivial
  · have late := List.all_eq_true.mp sleepers caller member
    rw [waiting] at late
    exact grown (sound.waits caller member wake waiting) (of_decide_eq_true late)

theorem Sound.afterRateLimit (sound : Sound s) {number : Nat} {caller : RetryCaller} {jittered : ℚ}
    (meets : (caller.options.maxRetries ≤ caller.attempt ||
      s.outlasts (caller.options.delay caller.attempt jittered)) = true) :
    Sound (s.afterRateLimit number caller jittered) := by
  unfold RetryWorld.afterRateLimit
  split
  · exact sound.setPhase number caller .over nofun
  · rename_i retries
    have blocks : s.outlasts (caller.options.delay caller.attempt jittered) = true := by simpa [retries] using meets
    exact (sound.block blocks).setPhase number _ _ nofun

theorem sound_step (sound : Sound s) {a : RetryAction} (meets : s.keepsBlocks a = true) (taken : s.step a = some next) :
    Sound next := by
  cases a with
  | tick later =>
    simp only [step] at taken
    split at taken
    · cases taken
      exact ⟨sound.respected, sound.covered, sound.waits⟩
    · cases taken
  | setBlocked seconds =>
    cases taken
    exact sound.block meets
  | call options =>
    cases taken
    refine ⟨sound.respected, sound.covered, fun caller member wake waiting => ?_⟩
    rcases List.mem_append.mp member with old | new
    · exact sound.waits caller old wake waiting
    · rw [List.mem_singleton.mp new] at waiting
      dsimp only at waiting
      split at waiting <;> cases waiting
  | proceed number =>
    simp only [step] at taken
    split at taken
    · cases taken
    · rename_i caller there
      split at taken
      · split at taken
        · cases taken
          exact sound.waitIfBlocked number caller
        · cases taken
      · rename_i wake waiting
        split at taken
        · rename_i woken
          cases taken
          have ended := sound.waits caller (List.mem_of_getElem? there) wake waiting
          exact sound.acquire (ended.later woken) number caller
        · cases taken
      · cases taken
  | finish number =>
    simp only [step] at taken
    split at taken
    · cases taken
    · split at taken
      · cases taken
        exact sound.setPhase number _ .over nofun
      · cases taken
  | rateLimited number jittered =>
    simp only [step] at taken
    split at taken
    · cases taken
    · rename_i caller there
      split at taken
      · cases taken
        simp only [keepsBlocks, there, Option.all_some] at meets
        exact sound.afterRateLimit meets
      · cases taken
  | cancel number =>
    simp only [step] at taken
    split at taken
    · cases taken
    · cases taken
      exact sound.setPhase number _ .over nofun

/-- A reactive block is respected by every caller. -/
theorem blocks_respected (limiter : GlobalRateLimiter) (clock : ℚ)
    (reached : (machine limiter clock).ReachableUnder (fun s a => s.keepsBlocks a = true) s) : s.BlocksRespected := by
  have start : Sound (machine limiter clock).init := ⟨List.Pairwise.nil, nofun, nofun⟩
  have keeps (s : RetryWorld) (a : RetryAction) (next : RetryWorld) (sound : Sound s) (meets : s.keepsBlocks a = true)
      (taken : (machine limiter clock).step s a = some next) : Sound next := sound_step sound meets taken
  exact (Machine.ReachableUnder.invariant start keeps reached).respected

def sampleLimiter : GlobalRateLimiter := ⟨40, 60, by decide, by decide, [], 0⟩

/-- A caller that was rate limited starts again when its block is over, and one that comes in between waits. -/
theorem blocks_respected_retried : ∃ s : RetryWorld, s.events.length = 5 ∧ s.BlocksRespected := by
  have ran : ((machine sampleLimiter 0).runUnder keepsBlocks (machine sampleLimiter 0).init
      [.call .default, .proceed 0, .rateLimited 0 1, .tick 1, .call .default, .proceed 1, .setBlocked 2, .tick 3, .proceed 0,
        .proceed 1]).any (fun s => decide (s.events.length = 5)) = true := by decide +kernel
  obtain ⟨s, here, facts⟩ := (Option.any_eq_true _ _).mp ran
  exact ⟨s, of_decide_eq_true facts, blocks_respected _ _ (Machine.reachableUnder_of_runUnder .init here)⟩

/-- The back-off of one caller shortens the block of a minute that another response has set. -/
theorem backoff_shortens : ¬ ∀ s, (machine sampleLimiter 0).Reachable s → s.BlocksRespected := by
  intro always
  have ran : ((machine sampleLimiter 0).run (machine sampleLimiter 0).init
      [.call .default, .proceed 0, .setBlocked 60, .rateLimited 0 0, .tick 2, .proceed 0]).any
      (fun s => decide (s.events = [.started 0, .blocked 0 60, .blocked 0 2, .started 2])) = true := by decide +kernel
  obtain ⟨s, here, facts⟩ := (Option.any_eq_true _ _).mp ran
  have respected := always s (Machine.reachable_of_run here)
  rw [BlocksRespected, of_decide_eq_true facts] at respected
  have pair := (List.pairwise_cons.mp (List.pairwise_cons.mp respected).2).1 (.started 2) (by simp)
  apply pair
  decide +kernel

end RetryWorld

end ClaudeProxy.Providers

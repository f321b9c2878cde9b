import ClaudeProxy.Providers.RateLimit

namespace ClaudeProxy.Limiter

open Kit Providers

def slotWindow (rateLimit : Int) (rateWindow : ℚ) (limited : 0 < rateLimit) (windowed : 0 < rateWindow) : SlidingWindow ℚ :=
  ⟨rateLimit.toNat, rateWindow, by omega, windowed⟩

/-- What a pass over the timestamps decides. -/
theorem slotPass_cases (rateLimit : Int) (rateWindow : ℚ) (limited : 0 < rateLimit) (windowed : 0 < rateWindow)
    (times : List ℚ) (now : ℚ) :
    let w := slotWindow rateLimit rateWindow limited windowed
    w.admits now times = true ∧ slotPass rateLimit rateWindow limited times now = .granted (w.grant now times) ∨
      w.admits now times = false ∧
        ∃ waitTime, 0 ≤ waitTime ∧
          slotPass rateLimit rateWindow limited times now = .sleeps waitTime (w.evict now times) := by
  intro w
  have count : ∀ length : Nat, (length : Int) < rateLimit ↔ length < w.limit := by
    intro length
    show (length : Int) < rateLimit ↔ length < rateLimit.toNat
    omega
  by_cases room : (w.evict now times).length < w.limit
  · have here := (count _).mpr room
    exact .inl ⟨decide_eq_true room, dif_pos here⟩
  · have full := mt (count _).mp room
    exact .inr ⟨decide_eq_false room, _, le_max_left .., dif_neg full⟩

/-- A limiter whose pass is a pass over a window. -/
structure WindowLimiter {σ : Type} (pass : σ → ℚ → Pass σ) (window : σ → SlidingWindow ℚ) (times : σ → List ℚ) : Prop where
  granted : ∀ l now next, pass l now = .granted next →
    (window l).admits now (times l) = true ∧ times next = (window l).grant now (times l) ∧ window next = window l
  sleeps : ∀ l now waitTime next, pass l now = .sleeps waitTime next →
    (window l).admits now (times l) = false ∧ times next = (window l).evict now (times l) ∧ window next = window l

variable {σ : Type} {pass : σ → ℚ → Pass σ} {window : σ → SlidingWindow ℚ} {times : σ → List ℚ} {s next : SlotWorld σ}

/-- What the timestamps of the limiter say of the slots it has granted. -/
structure SlotWorld.Sound (window : σ → SlidingWindow ℚ) (times : σ → List ℚ) (w : SlidingWindow ℚ) (s : SlotWorld σ) :
    Prop where
  window : window s.limiter = w
  keeps : w.Keeps s.clock s.grants (times s.limiter)

theorem SlotWorld.Sound.step {w : SlidingWindow ℚ} (windowed : WindowLimiter pass window times)
    (sound : SlotWorld.Sound window times w s) {a : SlotAction} (taken : s.step pass a = some next) :
    SlotWorld.Sound window times w next := by
  obtain ⟨same, keeps⟩ := sound
  cases a with
  | arrive =>
    cases taken
    exact ⟨same, keeps⟩
  | tick later =>
    simp only [SlotWorld.step] at taken
    split at taken
    · rename_i later
      cases taken
      exact ⟨same, keeps.later later⟩
    · cases taken
  | acquire caller =>
    have made : next = s.makePass pass caller := by
      simp only [SlotWorld.step] at taken
      split at taken
      · exact (Option.some.inj taken).symm
      · exact (Option.some.inj taken).symm
      · cases taken
    rw [made, SlotWorld.makePass]
    cases result : pass s.limiter s.clock with
    | granted limiter =>
      obtain ⟨admits, after, kept⟩ := windowed.granted _ _ _ result
      rw [same] at admits after
      have grown := keeps.grant admits
      rw [← after] at grown
      exact ⟨kept.trans same, grown⟩
    | sleeps waitTime limiter =>
      obtain ⟨-, after, kept⟩ := windowed.sleeps _ _ _ _ result
      rw [same] at after
      have shrunk := keeps.evict
      rw [← after] at shrunk
      exact ⟨kept.trans same, shrunk⟩

/-- No half-open interval of the length holds more grants than the limit, and with fewer in the last window
    the caller that has the lock is granted a slot at once. -/
structure StrictlyWindowed (pass : σ → ℚ → Pass σ) (rateLimit : Int) (rateWindow : ℚ) (s : SlotWorld σ) : Prop where
  strict : ∀ start, (s.grants.countP fun t => start ≤ t ∧ t < start + rateWindow) ≤ rateLimit
  prompt : (s.grants.countP fun t => s.clock - rateWindow < t ∧ t ≤ s.clock) < rateLimit →
    ∃ limiter, pass s.limiter s.clock = .granted limiter

theorem strictlyWindowed_of_reachable (windowed : WindowLimiter pass window times) {rateLimit : Int} {rateWindow : ℚ}
    (limited : 0 < rateLimit) (wide : 0 < rateWindow) {l : σ} {clock : ℚ}
    (same : window l = slotWindow rateLimit rateWindow limited wide) (fresh : times l = [])
    (reached : (SlotWorld.machine pass l clock).Reachable s) : StrictlyWindowed pass rateLimit rateWindow s := by
  have start : SlotWorld.Sound window times (slotWindow rateLimit rateWindow limited wide)
    (SlotWorld.machine pass l clock).init := by
    refine ⟨same, ?_⟩
    rw [show times (SlotWorld.machine pass l clock).init.limiter = [] from fresh]
    exact SlidingWindow.keeps_nil ..
  obtain ⟨same, keeps⟩ := Machine.ReachableUnder.invariant start
    (fun _ _ _ sound _ taken => sound.step windowed taken) reached
  refine ⟨fun start => ?_, fun few => ?_⟩
  · have bound : (s.grants.countP fun t => start ≤ t ∧ t < start + rateWindow) ≤ rateLimit.toNat := keeps.strict start
    omega
  · have few' : (s.grants.countP fun t => s.clock - rateWindow < t ∧ t ≤ s.clock) < rateLimit.toNat := by omega
    have admits := (SlidingWindow.admits_iff keeps).mpr few'
    cases result : pass s.limiter s.clock with
    | granted limiter => exact ⟨limiter, rfl⟩
    | sleeps waitTime limiter =>
      obtain ⟨refuses, -, -⟩ := windowed.sleeps _ _ _ _ result
      rw [same, admits] at refuses
      cases refuses

/-- A pass over the timestamps that writes them back is a pass over the window. -/
theorem windowLimiter_of_slotPass {rateLimit : σ → Int} {rateWindow : σ → ℚ} {limited : ∀ l, 0 < rateLimit l}
    {windowed : ∀ l, 0 < rateWindow l} (update : σ → List ℚ → σ)
    (passes : ∀ l now, pass l now = (slotPass (rateLimit l) (rateWindow l) (limited l) (times l) now).map (update l))
    (read : ∀ l after, times (update l after) = after)
    (kept : ∀ l after, slotWindow (rateLimit (update l after)) (rateWindow (update l after)) (limited _) (windowed _) =
      slotWindow (rateLimit l) (rateWindow l) (limited l) (windowed l)) :
    WindowLimiter pass (fun l => slotWindow (rateLimit l) (rateWindow l) (limited l) (windowed l)) times where
  granted l now next granted := by
    rw [passes] at granted
    rcases slotPass_cases (rateLimit l) (rateWindow l) (limited l) (windowed l) (times l) now with
      ⟨admits, pass⟩ | ⟨-, waitTime, -, pass⟩
    · rw [pass] at granted
      cases granted
      exact ⟨admits, read .., kept ..⟩
    · rw [pass] at granted
      cases granted
  sleeps l now waitTime next sleeps := by
    rw [passes] at sleeps
    rcases slotPass_cases (rateLimit l) (rateWindow l) (limited l) (windowed l) (times l) now with
      ⟨-, pass⟩ | ⟨refuses, waitTime', -, pass⟩
    · rw [pass] at sleeps
      cases sleeps
    · rw [pass] at sleeps
      cases sleeps
      exact ⟨refuses, read .., kept ..⟩

theorem slidingWindowLimiter_windowed : WindowLimiter SlidingWindowLimiter.acquire
    (fun l => slotWindow l.rateLimit l.rateWindow l.limited l.windowed) SlidingWindowLimiter.times :=
  windowLimiter_of_slotPass (fun l times => { l with times := times }) (fun _ _ => rfl) (fun _ _ => rfl) fun _ _ => rfl

theorem globalRateLimiter_windowed : WindowLimiter GlobalRateLimiter.acquireProactiveSlot
    (fun l => slotWindow l.rateLimit l.rateWindow l.limited l.windowed) GlobalRateLimiter.requestTimes :=
  windowLimiter_of_slotPass (fun l times => { l with requestTimes := times }) (fun _ _ => rfl)
    (fun _ _ => rfl) fun _ _ => rfl

/-- Both limiters keep a strict sliding window, whatever the order of their callers and their clock. -/
theorem strict_sliding_window (rateLimit : Int) (rateWindow clock : ℚ) :
    (∀ maxConcurrency l, GlobalRateLimiter.new rateLimit rateWindow maxConcurrency = .ok l →
      ∀ s, (SlotWorld.machine GlobalRateLimiter.acquireProactiveSlot l clock).Reachable s →
        StrictlyWindowed GlobalRateLimiter.acquireProactiveSlot rateLimit rateWindow s) ∧
    (∀ l, SlidingWindowLimiter.new rateLimit rateWindow = .ok l →
      ∀ s, (SlotWorld.machine SlidingWindowLimiter.acquire l clock).Reachable s →
        StrictlyWindowed SlidingWindowLimiter.acquire rateLimit rateWindow s) := by
  constructor
  · intro maxConcurrency l created s reached
    unfold GlobalRateLimiter.new at created
    split at created
    · rename_i limited
      split at created
      · rename_i windowed
        split at created
        · cases created
          exact strictlyWindowed_of_reachable globalRateLimiter_windowed limited windowed rfl rfl reached
        · cases created
      · cases created
    · cases created
  · intro l created s reached
    unfold SlidingWindowLimiter.new at created
    split at created
    · rename_i limited
      split at created
      · rename_i windowed
        cases created
        exact strictlyWindowed_of_reachable slidingWindowLimiter_windowed limited windowed rfl rfl reached
      · cases created
    · cases created

/-- Two callers at once with one slot in two seconds: the second one gets its slot at the end of the window. -/
theorem strict_sliding_window_two : ∃ l s, SlidingWindowLimiter.new 1 2 = .ok l ∧ s.grants = [0, 2] ∧
    StrictlyWindowed SlidingWindowLimiter.acquire 1 2 s := by
  have created : ∃ l, SlidingWindowLimiter.new 1 2 = .ok l := ⟨_, rfl⟩
  obtain ⟨l, created⟩ := created
  cases created
  have ran : ((SlotWorld.machine SlidingWindowLimiter.acquire ⟨1, 2, by decide, by decide, []⟩ 0).run
      (SlotWorld.machine SlidingWindowLimiter.acquire ⟨1, 2, by decide, by decide, []⟩ 0).init
      [.arrive, .arrive, .acquire 0, .acquire 1, .tick 2, .acquire 1]).any (fun s => decide (s.grants = [0, 2])) = true := by
    decide +kernel
  obtain ⟨s, here, facts⟩ := (Option.any_eq_true _ _).mp ran
  exact ⟨_, s, rfl, of_decide_eq_true facts, (strict_sliding_window 1 2 0).2 _ rfl s (Machine.reachable_of_run here)⟩

end ClaudeProxy.Limiter

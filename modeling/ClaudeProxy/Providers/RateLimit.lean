import ClaudeProxy.Limiter.Slots

namespace ClaudeProxy.Providers

open Kit Limiter

structure GlobalRateLimiter where
  rateLimit : Int
  rateWindow : ℚ
  limited : 0 < rateLimit
  windowed : 0 < rateWindow
  /-- Monotonic timestamps of the last granted slots. -/
  requestTimes : List ℚ
  blockedUntil : ℚ

namespace GlobalRateLimiter

def new (rateLimit : Int) (rateWindow : ℚ) (maxConcurrency : Int) : Except String GlobalRateLimiter :=
  if limited : 0 < rateLimit then
    if windowed : 0 < rateWindow then
      if 0 < maxConcurrency then .ok ⟨rateLimit, rateWindow, limited, windowed, [], 0⟩
      else .error "max_concurrency must be > 0"
    else .error "rate_window must be > 0"
  else .error "rate_limit must be > 0"

def acquireProactiveSlot (l : GlobalRateLimiter) (now : ℚ) : Pass GlobalRateLimiter :=
  (slotPass l.rateLimit l.rateWindow l.limited l.requestTimes now).map fun times => { l with requestTimes := times }

def setBlocked (l : GlobalRateLimiter) (now seconds : ℚ) : GlobalRateLimiter := { l with blockedUntil := now + seconds }

end GlobalRateLimiter

structure RetryOptions where
  maxRetries : Int
  baseDelay : ℚ
  maxDelay : ℚ
  jitter : ℚ

def RetryOptions.default : RetryOptions := ⟨3, 2, 60, 1⟩

/-- The delay before the next attempt; `jittered` is the value of `random.uniform(0, jitter)`. -/
def RetryOptions.delay (options : RetryOptions) (attempt : Nat) (jittered : ℚ) : ℚ :=
  min (options.baseDelay * 2 ^ attempt) options.maxDelay + jittered

/-- Where a call of `execute_with_retry` is; a sleep ends at its time or later. -/
inductive RetryPhase where
  /-- Before `wait_if_blocked`: at first, or after a back-off. -/
  | checking (since : ℚ)
  /-- The reactive sleep, or a sleep for a proactive slot. -/
  | waiting (wake : ℚ)
  | attempting
  | over
deriving DecidableEq

structure RetryCaller where
  options : RetryOptions
  attempt : Nat
  phase : RetryPhase

inductive LimiterEvent where
  /-- `set_blocked(seconds)` at the time. -/
  | blocked (now seconds : ℚ)
  /-- An attempt of a wrapped function starts. -/
  | started (now : ℚ)
deriving DecidableEq

/-- The limiter with all the calls of `execute_with_retry`, and what has happened so far. -/
structure RetryWorld where
  limiter : GlobalRateLimiter
  clock : ℚ
  callers : List RetryCaller
  events : List LimiterEvent

inductive RetryAction where
  | tick (later : ℚ)
  | setBlocked (seconds : ℚ)
  | call (options : RetryOptions)
  /-- A caller runs on to its next await. -/
  | proceed (caller : Nat)
  /-- The attempt returns, or raises anything but a rate limit error. -/
  | finish (caller : Nat)
  | rateLimited (caller : Nat) (jittered : ℚ)
  | cancel (caller : Nat)

namespace RetryWorld

def setPhase (s : RetryWorld) (number : Nat) (caller : RetryCaller) (phase : RetryPhase) : RetryWorld :=
  { s with callers := s.callers.set number { caller with phase := phase } }

def block (s : RetryWorld) (seconds : ℚ) : RetryWorld :=
  { s with limiter := s.limiter.setBlocked s.clock seconds, events := s.events ++ [.blocked s.clock seconds] }

/-- `_acquire_proactive_slot` up to its next sleep; with a slot the attempt starts at once. -/
def acquire (s : RetryWorld) (number : Nat) (caller : RetryCaller) : RetryWorld :=
  match s.limiter.acquireProactiveSlot s.clock with
  | .granted limiter =>
    { s.setPhase number caller .attempting with limiter := limiter, events := s.events ++ [.started s.clock] }
  | .sleeps waitTime limiter => { s.setPhase number caller (.waiting (s.clock + waitTime)) with limiter := limiter }

def waitIfBlocked (s : RetryWorld) (number : Nat) (caller : RetryCaller) : RetryWorld :=
  if s.clock < s.limiter.blockedUntil then
    let waitTime := s.limiter.blockedUntil - s.clock
    s.setPhase number caller (.waiting (s.clock + waitTime))
  else s.acquire number caller

def afterRateLimit (s : RetryWorld) (number : Nat) (caller : RetryCaller) (jittered : ℚ) : RetryWorld :=
  if caller.options.maxRetries ≤ caller.attempt then s.setPhase number caller .over
  else
    let delay := caller.options.delay caller.attempt jittered
    (s.block delay).setPhase number { caller with attempt := caller.attempt + 1 } (.checking (s.clock + delay))

def step (s : RetryWorld) : RetryAction → Option RetryWorld
  | .tick later => if s.clock ≤ later then some { s with clock := later } else none
  | .setBlocked seconds => some (s.block seconds)
  | .call options =>
    let phase := if 0 ≤ options.maxRetries then .checking s.clock else .over
    some { s with callers := s.callers ++ [⟨options, 0, phase⟩] }
  | .proceed number =>
    match s.callers[number]? with
    | none => none
    | some caller =>
      match caller.phase with
      | .checking since => if since ≤ s.clock then some (s.waitIfBlocked number caller) else none
      | .waiting wake => if wake ≤ s.clock then some (s.acquire number caller) else none
      | _ => none
  | .finish number =>
    match s.callers[number]? with
    | none => none
    | some caller => if caller.phase = .attempting then some (s.setPhase number caller .over) else none
  | .rateLimited number jittered =>
    match s.callers[number]? with
    | none => none
    | some caller => if caller.phase = .attempting then some (s.afterRateLimit number caller jittered) else none
  | .cancel number =>
    match s.callers[number]? with
    | none => none
    | some caller => some (s.setPhase number caller .over)

def machine (limiter : GlobalRateLimiter) (clock : ℚ) : Machine RetryWorld RetryAction := ⟨⟨limiter, clock, [], []⟩, step⟩

end RetryWorld

end ClaudeProxy.Providers

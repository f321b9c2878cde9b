import ClaudeProxy.Kit.Machine
import ClaudeProxy.Kit.SlidingWindow
import Mathlib.Algebra.Order.Field.Rat

namespace ClaudeProxy.Limiter

open Kit

/-- One pass of an acquiring loop, from taking the lock to the end of the pass. -/
inductive Pass (σ : Type) where
  | granted (limiter : σ)
  | sleeps (waitTime : ℚ) (limiter : σ)

def Pass.map {σ τ : Type} (f : σ → τ) : Pass σ → Pass τ
  | .granted limiter => .granted (f limiter)
  | .sleeps waitTime limiter => .sleeps waitTime (f limiter)

/-- The pass that both limiters make over their timestamps. -/
def slotPass (rateLimit : Int) (rateWindow : ℚ) (limited : 0 < rateLimit) (times : List ℚ) (now : ℚ) : Pass (List ℚ) :=
  let cutoff := now - rateWindow
  let times := times.dropWhile fun t => t ≤ cutoff
  if room : times.length < rateLimit then .granted (times ++ [now])
  else
    let oldest := times.head (by rintro empty; rw [empty] at room; exact room limited)
    .sleeps (max 0 (oldest + rateWindow - now)) times

structure SlidingWindowLimiter where
  rateLimit : Int
  rateWindow : ℚ
  limited : 0 < rateLimit
  windowed : 0 < rateWindow
  times : List ℚ

namespace SlidingWindowLimiter

def new (rateLimit : Int) (rateWindow : ℚ) : Except String SlidingWindowLimiter :=
  if limited : 0 < rateLimit then
    if windowed : 0 < rateWindow then .ok ⟨rateLimit, rateWindow, limited, windowed, []⟩
    else .error "rate_window must be > 0"
  else .error "rate_limit must be > 0"

def acquire (l : SlidingWindowLimiter) (now : ℚ) : Pass SlidingWindowLimiter :=
  (slotPass l.rateLimit l.rateWindow l.limited l.times now).map fun times => { l with times := times }

end SlidingWindowLimiter

inductive SlotCaller where
  | arriving
  | sleeping (waitTime : ℚ)
  | granted
deriving DecidableEq

/-- A limiter, those who want a slot of it, and the times of the slots it has granted. -/
structure SlotWorld (σ : Type) where
  limiter : σ
  clock : ℚ
  callers : List SlotCaller
  grants : List ℚ

inductive SlotAction where
  | arrive
  | tick (later : ℚ)
  /-- A caller makes a pass: its first one, or one after its sleep, however long that was. -/
  | acquire (caller : Nat)

namespace SlotWorld

variable {σ : Type} (pass : σ → ℚ → Pass σ)

def makePass (s : SlotWorld σ) (caller : Nat) : SlotWorld σ :=
  match pass s.limiter s.clock with
  | .granted limiter =>
    { s with limiter := limiter, callers := s.callers.set caller .granted, grants := s.grants ++ [s.clock] }
  | .sleeps waitTime limiter => { s with limiter := limiter, callers := s.callers.set caller (.sleeping waitTime) }

def step (s : SlotWorld σ) : SlotAction → Option (SlotWorld σ)
  | .arrive => some { s with callers := s.callers ++ [.arriving] }
  | .tick later => if s.clock ≤ later then some { s with clock := later } else none
  | .acquire caller =>
    match s.callers[caller]? with
    | some .arriving | some (.sleeping _) => some (s.makePass pass caller)
    | _ => none

def machine (limiter : σ) (clock : ℚ) : Machine (SlotWorld σ) SlotAction := ⟨⟨limiter, clock, [], []⟩, step pass⟩

end SlotWorld

end ClaudeProxy.Limiter

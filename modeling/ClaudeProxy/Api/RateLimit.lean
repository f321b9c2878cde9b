import Mathlib.Algebra.Order.Floor.Ring
import Mathlib.Data.Rat.Floor
import ClaudeProxy.Kit.Dict
import ClaudeProxy.Kit.SlidingWindow
import ClaudeProxy.Providers.HeuristicToolParser

namespace ClaudeProxy.Api

open Kit Providers

inductive RateScope where
  | user
  | workspace
  | channel
deriving DecidableEq

def RateScope.name : RateScope → Str
  | .user => "user".toList
  | .workspace => "workspace".toList
  | .channel => "channel".toList

/-- The settings refuse limits and windows that are not positive. -/
structure LimitConfig where
  limit : Nat
  windowSeconds : Nat
  limited : 0 < limit
  windowed : 0 < windowSeconds

def LimitConfig.window (config : LimitConfig) : SlidingWindow ℚ :=
  ⟨config.limit, config.windowSeconds, config.limited, Nat.cast_pos.mpr config.windowed⟩

/-- `_events`, in which a missing bucket is an empty one. -/
abbrev RateWindowStore := Dict Str (List ℚ)

def RateWindowStore.bucket (store : RateWindowStore) (key : Str) : List ℚ := (store.get? key).getD []

/-- The retry time where the request is refused. There is no suspension between the clock and the bucket. -/
def RateWindowStore.allow (store : RateWindowStore) (now : ℚ) (key : Str) (config : LimitConfig) :
    Option ℚ × RateWindowStore :=
  let windowStart := now - config.windowSeconds
  let bucket := (store.bucket key).dropWhile fun t => t ≤ windowStart
  if config.limit ≤ bucket.length then
    (some (max 0 (bucket.headD 0 + config.windowSeconds - now)), store.set key bucket)
  else (none, store.set key (bucket ++ [now]))

structure RateRequest where
  path : Str
  header : String → Option Str
  query : String → Option Str

/-- `first or second or … or ""` -/
def firstGiven : List (Option Str) → Str
  | [] => []
  | value :: rest => if value.getD [] = [] then firstGiven rest else value.getD []

def scopeValues (request : RateRequest) : List (RateScope × Str) :=
  [(.user, strip (firstGiven [request.header "x-user-id", request.query "user_id", request.query "owner_user_id"])),
    (.workspace, strip (firstGiven [request.header "x-workspace-id", request.query "workspace_id"])),
    (.channel, strip (firstGiven [request.header "x-channel-id", request.header "x-platform", request.query "channel_id",
      request.query "chat_id"]))]

def rateKey (scope : RateScope) (value : Str) : Str := scope.name ++ ':' :: value

/-- `round(x, 3)`, to even where it lies in the middle. -/
def roundThree (x : ℚ) : ℚ :=
  let floor := ⌊x * 1000⌋
  let rest := x * 1000 - floor
  (if rest < 1 / 2 ∨ rest = 1 / 2 ∧ floor % 2 = 0 then floor else floor + 1 : Int) / 1000

structure Rejection where
  message : Str
  scope : RateScope
  scopeValue : Str
  retryAfterSeconds : ℚ
  retryAfter : Int

/-- `max(1, int(retry_after) if retry_after else 1)`; `int` drops the fraction. -/
def retryAfterHeader (retryAfter : ℚ) : Int := max 1 (if retryAfter = 0 then 1 else ⌊retryAfter⌋)

def rejection (scope : RateScope) (value : Str) (retryAfter : ℚ) : Rejection where
  message := "rate limit exceeded for ".toList ++ scope.name ++ " scope".toList
  scope := scope
  scopeValue := value
  retryAfterSeconds := roundThree retryAfter
  retryAfter := retryAfterHeader retryAfter

/-- The scopes are asked one after another up to the first that refuses; the clock is read for each of them. -/
def askScopes (configs : RateScope → LimitConfig) (now : RateScope → ℚ) :
    List (RateScope × Str) → RateWindowStore → Option Rejection × RateWindowStore
  | [], store => (none, store)
  | (scope, value) :: rest, store =>
    if value = [] then askScopes configs now rest store
    else
      match store.allow (now scope) (rateKey scope value) (configs scope) with
      | (some retryAfter, store) => (some (rejection scope value retryAfter), store)
      | (none, store) => askScopes configs now rest store

structure RateSettings where
  enforce : Bool
  configs : RateScope → LimitConfig

def RateSettings.covers (settings : RateSettings) (request : RateRequest) : Bool :=
  settings.enforce && ("/api/".toList.isPrefixOf request.path || "/v1/".toList.isPrefixOf request.path)

/-- `none` where the request goes on to its route. -/
def enforceRateLimits (settings : RateSettings) (now : RateScope → ℚ) (request : RateRequest) (store : RateWindowStore) :
    Option Rejection × RateWindowStore :=
  if settings.covers request then askScopes settings.configs now (scopeValues request) store else (none, store)

end ClaudeProxy.Api

import Mathlib.Tactic.Linarith
import ClaudeProxy.Api.RateLimit

namespace ClaudeProxy.Api

open Kit Providers

def live (config : LimitConfig) (now : ℚ) (bucket : List ℚ) : List ℚ :=
  bucket.dropWhile fun t => t ≤ now - config.windowSeconds

def timeLeft (config : LimitConfig) (store : RateWindowStore) (now : ℚ) (key : Str) : ℚ :=
  (live config now (store.bucket key)).headD 0 + config.windowSeconds - now

def askedAt (config : LimitConfig) (key : Str) (history : List ℚ) : RateWindowStore :=
  history.foldl (fun store now => (store.allow now key config).2) .empty

/-- A request is admitted after the time in the header, and none more than a second before it. -/
structure Honest (config : LimitConfig) (key : Str) (now : ℚ) (retryAfter : Int) (next : RateWindowStore) : Prop where
  enough : ∀ later, now + retryAfter ≤ later → (next.allow later key config).1 = none
  least : ∀ wait, 0 ≤ wait → (next.allow (now + wait) key config).1 = none → retryAfter ≤ wait + 1

section Bucket

variable {config : LimitConfig} {store next : RateWindowStore} {now : ℚ} {key : Str} {retryAfter : ℚ} {bucket : List ℚ}

theorem allow_eq (config : LimitConfig) (store : RateWindowStore) (now : ℚ) (key : Str) :
    store.allow now key config =
      if config.limit ≤ (live config now (store.bucket key)).length then
        (some (max 0 (timeLeft config store now key)), store.set key (live config now (store.bucket key)))
      else (none, store.set key (live config now (store.bucket key) ++ [now])) := rfl

theorem bucket_set (store : RateWindowStore) (key other : Str) (entries : List ℚ) :
    RateWindowStore.bucket (store.set key entries) other = if other = key then entries else store.bucket other := by
  rw [RateWindowStore.bucket, Dict.get?_set]
  split_ifs <;> rfl

theorem allow_refused (refused : store.allow now key config = (some retryAfter, next)) :
    config.limit ≤ (live config now (store.bucket key)).length ∧ retryAfter = max 0 (timeLeft config store now key) ∧
      next.bucket key = live config now (store.bucket key) := by
  rw [allow_eq] at refused
  split_ifs at refused with full
  · cases refused
    exact ⟨full, rfl, by rw [bucket_set, if_pos rfl]⟩
  · cases refused

theorem allow_none_iff : (store.allow now key config).1 = none ↔
    (live config now (store.bucket key)).length < config.limit := by
  rw [allow_eq]
  split_ifs with full
  · exact iff_of_false not_false (by omega)
  · exact iff_of_true rfl (by omega)

theorem live_length_le (config : LimitConfig) (now : ℚ) (bucket : List ℚ) :
    (live config now bucket).length ≤ bucket.length := (List.dropWhile_suffix _).length_le

theorem bucket_allow_le (few : (store.bucket key).length ≤ config.limit) :
    ((store.allow now key config).2.bucket key).length ≤ config.limit := by
  have shorter := live_length_le config now (store.bucket key)
  rw [allow_eq]
  split_ifs with full
  · rw [bucket_set, if_pos rfl]
    omega
  · rw [bucket_set, if_pos rfl, List.length_append, List.length_singleton]
    omega

theorem bucket_askedAt_le (config : LimitConfig) (key : Str) (history : List ℚ) :
    ((askedAt config key history).bucket key).length ≤ config.limit := by
  induction history using List.reverseRecOn with
  | nil => exact Nat.zero_le _
  | append_singleton history now ih =>
    rw [askedAt, List.foldl_append]
    exact bucket_allow_le ih

theorem live_head {oldest : ℚ} {rest : List ℚ} (shape : live config now bucket = oldest :: rest) :
    now < oldest + config.windowSeconds := by
  have nonempty : live config now bucket ≠ [] := shape ▸ List.cons_ne_nil _ _
  have head : (live config now bucket).head nonempty = oldest := by simp [shape]
  have kept := List.head_dropWhile_not (fun t => decide (t ≤ now - config.windowSeconds)) nonempty
  have inside : ¬ oldest ≤ now - config.windowSeconds := head ▸ of_decide_eq_false kept
  linarith

/-- A full bucket admits again as soon as its oldest entry leaves the window. -/
theorem admits_full_iff {oldest later : ℚ} {rest : List ℚ} (shape : next.bucket key = oldest :: rest)
    (full : (next.bucket key).length = config.limit) :
    (next.allow later key config).1 = none ↔ oldest + config.windowSeconds ≤ later := by
  rw [allow_none_iff, shape, live]
  rw [shape, List.length_cons] at full
  by_cases expired : oldest ≤ later - config.windowSeconds
  · rw [List.dropWhile_cons_of_pos (by simpa using expired)]
    have shorter := live_length_le config later rest
    rw [live] at shorter
    exact iff_of_true (by omega) (by linarith)
  · rw [List.dropWhile_cons_of_neg (by simpa using expired), List.length_cons]
    exact iff_of_false (by omega) (by linarith)

end Bucket

theorem retryAfterHeader_of_pos {wait : ℚ} (positive : 0 < wait) : retryAfterHeader wait = max 1 ⌊wait⌋ := by
  rw [retryAfterHeader, if_neg positive.ne']

theorem le_retryAfterHeader_iff {wait : ℚ} (positive : 0 < wait) :
    wait ≤ retryAfterHeader wait ↔ wait ≤ 1 ∨ ∃ n : ℤ, wait = n := by
  rw [retryAfterHeader_of_pos positive, Int.cast_max, le_max_iff, Int.cast_one]
  apply or_congr_right
  constructor
  · intro whole
    exact ⟨⌊wait⌋, le_antisymm whole (Int.floor_le wait)⟩
  · rintro ⟨n, rfl⟩
    rw [Int.floor_intCast]

theorem retryAfterHeader_le {wait : ℚ} (positive : 0 < wait) : retryAfterHeader wait ≤ wait + 1 := by
  rw [retryAfterHeader_of_pos positive, Int.cast_max, max_le_iff, Int.cast_one]
  have floor := Int.floor_le wait
  exact ⟨by linarith, by linarith⟩

/-- The header drops the fraction of the time that is left. -/
theorem honest_iff (config : LimitConfig) (scope : RateScope) (value : Str) (history : List ℚ) (now : ℚ) (retryAfter : ℚ)
    (next : RateWindowStore)
    (refused : (askedAt config (rateKey scope value) history).allow now (rateKey scope value) config =
      (some retryAfter, next)) :
    Honest config (rateKey scope value) now (rejection scope value retryAfter).retryAfter next ↔
      timeLeft config (askedAt config (rateKey scope value) history) now (rateKey scope value) ≤ 1 ∨
        ∃ n : ℤ, timeLeft config (askedAt config (rateKey scope value) history) now (rateKey scope value) = n := by
  obtain ⟨full, wait, after⟩ := allow_refused refused
  have few := bucket_askedAt_le config (rateKey scope value) history
  have shorter := live_length_le config now ((askedAt config (rateKey scope value) history).bucket (rateKey scope value))
  obtain ⟨oldest, rest, shape⟩ := List.exists_cons_of_length_pos (lt_of_lt_of_le config.limited full)
  have left : timeLeft config (askedAt config (rateKey scope value) history) now (rateKey scope value) =
      oldest + config.windowSeconds - now := by rw [timeLeft, shape, List.headD_cons]
  have positive : 0 < oldest + config.windowSeconds - now := by
    have inside := live_head shape
    linarith
  rw [left, max_eq_right positive.le] at wait
  have admits : ∀ later, (next.allow later (rateKey scope value) config).1 = none ↔ oldest + config.windowSeconds ≤ later :=
    fun later => admits_full_iff (after.trans shape) (by rw [after]; omega)
  rw [left, ← le_retryAfterHeader_iff positive]
  show Honest config (rateKey scope value) now (retryAfterHeader retryAfter) next ↔ _
  rw [wait]
  constructor
  · intro honest
    have met := (admits _).mp (honest.enough _ (le_refl _))
    linarith
  · intro enough
    refine ⟨fun later soon => (admits later).mpr (by linarith), fun wait _ admitted => ?_⟩
    have waited := (admits _).mp admitted
    have close := retryAfterHeader_le positive
    linarith

def onceInTwoSeconds : LimitConfig := ⟨1, 2, by decide, by decide⟩

def askedOnce (now : ℚ) : Option ℚ × RateWindowStore :=
  (askedAt onceInTwoSeconds (rateKey .user "ada".toList) [0]).allow now (rateKey .user "ada".toList) onceInTwoSeconds

theorem honest_iff_askedOnce :
    Honest onceInTwoSeconds (rateKey .user "ada".toList) 1 (rejection .user "ada".toList 1).retryAfter (askedOnce 1).2 ↔
      timeLeft onceInTwoSeconds (askedAt onceInTwoSeconds (rateKey .user "ada".toList) [0]) 1
        (rateKey .user "ada".toList) ≤ 1 ∨
        ∃ n : ℤ, timeLeft onceInTwoSeconds (askedAt onceInTwoSeconds (rateKey .user "ada".toList) [0]) 1
          (rateKey .user "ada".toList) = n :=
  honest_iff onceInTwoSeconds .user "ada".toList [0] 1 1 (askedOnce 1).2 (by decide +kernel)

/-- Half a second before the two seconds are over the client is sent away again. -/
theorem not_honest : ¬ ∀ (config : LimitConfig) (scope : RateScope) (value : Str) (history : List ℚ) (now retryAfter : ℚ)
    (next : RateWindowStore), history.Pairwise (· ≤ ·) → (∀ earlier ∈ history, earlier ≤ now) →
    (askedAt config (rateKey scope value) history).allow now (rateKey scope value) config = (some retryAfter, next) →
    Honest config (rateKey scope value) now (rejection scope value retryAfter).retryAfter next := by
  intro claimed
  have honest := claimed onceInTwoSeconds .user "ada".toList [0] (1 / 2) (3 / 2) (askedOnce (1 / 2)).2
    (List.pairwise_singleton ..) (by decide +kernel) (by decide +kernel)
  have admitted := honest.enough (3 / 2) (by decide +kernel)
  revert admitted
  decide +kernel

end ClaudeProxy.Api

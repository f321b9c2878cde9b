import Mathlib.Data.List.DropRight
import ClaudeProxy.Api.RetryAfter

namespace ClaudeProxy.Api

open Kit Providers

/-- A request with the readings of the clock for its scopes. -/
structure Arrival where
  request : RateRequest
  now : RateScope → ℚ

/-- The scope values of a request that are counted. -/
def presented (settings : RateSettings) (request : RateRequest) : List (RateScope × Str) :=
  if settings.covers request then (scopeValues request).filter fun item => item.2 ≠ [] else []

def Arrival.enforce (settings : RateSettings) (store : RateWindowStore) (arrival : Arrival) :
    Option Rejection × RateWindowStore :=
  enforceRateLimits settings arrival.now arrival.request store

def storeAfter (settings : RateSettings) (store : RateWindowStore) (history : List Arrival) : RateWindowStore :=
  history.foldl (fun store arrival => (arrival.enforce settings store).2) store

def served (settings : RateSettings) (store : RateWindowStore) : List Arrival → List Arrival
  | [] => []
  | arrival :: rest =>
    let others := served settings (arrival.enforce settings store).2 rest
    if (arrival.enforce settings store).1.isNone then arrival :: others else others

def liveBucket (settings : RateSettings) (arrival : Arrival) (store : RateWindowStore) (item : RateScope × Str) : List ℚ :=
  live (settings.configs item.1) (arrival.now item.1) (store.bucket (rateKey item.1 item.2))

def full (settings : RateSettings) (arrival : Arrival) (store : RateWindowStore) (item : RateScope × Str) : Prop :=
  (settings.configs item.1).limit ≤ (liveBucket settings arrival store item).length

/-- What a request owes to the buckets of all scope values, those it presents and the others. -/
structure AtomicStep (settings : RateSettings) (store : RateWindowStore) (arrival : Arrival) : Prop where
  rejected : (arrival.enforce settings store).1 ≠ none →
    ∀ item, liveBucket settings arrival (arrival.enforce settings store).2 item = liveBucket settings arrival store item
  accepted : (arrival.enforce settings store).1 = none →
    ∀ item, (arrival.enforce settings store).2.bucket (rateKey item.1 item.2) =
      if item ∈ presented settings arrival.request then liveBucket settings arrival store item ++ [arrival.now item.1]
      else store.bucket (rateKey item.1 item.2)

/-- When a presented scope value has used up its limit, so has the first of them. -/
def FullFirst (settings : RateSettings) (store : RateWindowStore) (arrival : Arrival) : Prop :=
  ∀ item ∈ presented settings arrival.request, full settings arrival store item →
    ∃ first, (presented settings arrival.request).head? = some first ∧ full settings arrival store first

def servedWithin (settings : RateSettings) (history : List Arrival) (item : RateScope × Str) (start : ℚ) : Nat :=
  (served settings .empty history).countP fun arrival => item ∈ presented settings arrival.request ∧
    start ≤ arrival.now item.1 ∧ arrival.now item.1 < start + (settings.configs item.1).windowSeconds

section Scopes

variable {settings : RateSettings} {store : RateWindowStore} {arrival : Arrival} {item : RateScope × Str}

theorem rateKey_head (scope : RateScope) (value : Str) : (rateKey scope value).head? = scope.name.head? := by
  cases scope <;> rfl

theorem scope_of_head {left right : RateScope} (same : left.name.head? = right.name.head?) : left = right := by
  revert same
  cases left <;> cases right <;> decide

theorem rateKey_injective {left right : RateScope × Str} (same : rateKey left.1 left.2 = rateKey right.1 right.2) :
    left = right := by
  obtain ⟨scope, value⟩ := left
  obtain ⟨scope', value'⟩ := right
  have heads := congrArg List.head? same
  rw [rateKey_head, rateKey_head] at heads
  cases scope_of_head heads
  have values := List.append_cancel_left same
  exact congrArg (Prod.mk scope) (List.cons.inj values).2

theorem askScopes_filter (configs : RateScope → LimitConfig) (now : RateScope → ℚ) (items : List (RateScope × Str))
    (store : RateWindowStore) :
    askScopes configs now items store = askScopes configs now (items.filter fun item => item.2 ≠ []) store := by
  induction items generalizing store with
  | nil => rfl
  | cons item rest ih =>
    obtain ⟨scope, value⟩ := item
    by_cases empty : value = []
    · rw [askScopes, if_pos empty, ih, List.filter_cons_of_neg (by simpa using empty)]
    · rw [List.filter_cons_of_pos (by simpa using empty), askScopes, askScopes, if_neg empty, if_neg empty]
      split
      · rfl
      · exact ih _

theorem enforce_eq (settings : RateSettings) (store : RateWindowStore) (arrival : Arrival) :
    arrival.enforce settings store = askScopes settings.configs arrival.now (presented settings arrival.request) store := by
  unfold Arrival.enforce enforceRateLimits presented
  split_ifs
  · exact askScopes_filter _ _ _ _
  · rfl

theorem presented_nonempty : ∀ item ∈ presented settings arrival.request, item.2 ≠ [] := by
  intro item mem
  unfold presented at mem
  split_ifs at mem
  · exact of_decide_eq_true (List.mem_filter.mp mem).2
  · cases mem

theorem presented_nodup (settings : RateSettings) (request : RateRequest) :
    ((presented settings request).map Prod.fst).Nodup := by
  unfold presented
  split_ifs
  · have scopes : ((scopeValues request).map Prod.fst).Nodup := by
      show [RateScope.user, .workspace, .channel].Nodup
      decide
    exact scopes.sublist (List.filter_sublist.map _)
  · exact List.nodup_nil

theorem live_live (config : LimitConfig) (now : ℚ) (bucket : List ℚ) :
    live config now (live config now bucket) = live config now bucket := List.dropWhile_idempotent _ _

theorem live_concat (config : LimitConfig) (now : ℚ) (bucket : List ℚ) :
    live config now (live config now bucket ++ [now]) = live config now bucket ++ [now] := by
  have wide : (0 : ℚ) < config.windowSeconds := Nat.cast_pos.mpr config.windowed
  have new : ¬ now ≤ now - config.windowSeconds := by linarith
  cases shape : live config now bucket with
  | nil => exact List.dropWhile_cons_of_neg (by simpa using new)
  | cons oldest rest =>
    have inside := live_head shape
    have kept : ¬ oldest ≤ now - config.windowSeconds := by linarith
    exact List.dropWhile_cons_of_neg (by simpa using kept)

def consume (settings : RateSettings) (arrival : Arrival) (store : RateWindowStore) (item : RateScope × Str) :
    RateWindowStore :=
  store.set (rateKey item.1 item.2) (liveBucket settings arrival store item ++ [arrival.now item.1])

def refresh (settings : RateSettings) (arrival : Arrival) (store : RateWindowStore) (item : RateScope × Str) :
    RateWindowStore :=
  store.set (rateKey item.1 item.2) (liveBucket settings arrival store item)

theorem bucket_set_item (store : RateWindowStore) (item other : RateScope × Str) (entries : List ℚ) :
    RateWindowStore.bucket (store.set (rateKey item.1 item.2) entries) (rateKey other.1 other.2) =
      if other = item then entries else store.bucket (rateKey other.1 other.2) := by
  rw [bucket_set]
  by_cases same : other = item
  · rw [if_pos same, if_pos (by rw [same])]
  · rw [if_neg same, if_neg fun keys => same (rateKey_injective keys)]

/-- How the scopes are asked: all admit, or those before the first that refuses have been consumed. -/
inductive Asked (settings : RateSettings) (arrival : Arrival) (store : RateWindowStore) (items : List (RateScope × Str)) :
    Option Rejection × RateWindowStore → Prop where
  | admitted (free : ∀ item ∈ items, ¬ full settings arrival store item) :
      Asked settings arrival store items (none, items.foldl (consume settings arrival) store)
  | refused (passed rest : List (RateScope × Str)) (item : RateScope × Str) (rejection : Rejection)
      (split : items = passed ++ item :: rest) (free : ∀ item ∈ passed, ¬ full settings arrival store item)
      (stop : full settings arrival store item) :
      Asked settings arrival store items
        (some rejection, refresh settings arrival (passed.foldl (consume settings arrival) store) item)

theorem liveBucket_consume {other : RateScope × Str} (apart : other ≠ item) :
    liveBucket settings arrival (consume settings arrival store item) other = liveBucket settings arrival store other := by
  rw [liveBucket, consume, bucket_set_item, if_neg apart]
  rfl

theorem full_consume_iff {other : RateScope × Str} (apart : other ≠ item) :
    full settings arrival (consume settings arrival store item) other ↔ full settings arrival store other := by
  rw [full, full, liveBucket_consume apart]

theorem askScopes_cases (settings : RateSettings) (arrival : Arrival) (items : List (RateScope × Str))
    (values : ∀ item ∈ items, item.2 ≠ []) (scopes : (items.map Prod.fst).Nodup) (store : RateWindowStore) :
    Asked settings arrival store items (askScopes settings.configs arrival.now items store) := by
  induction items generalizing store with
  | nil => exact .admitted (by simp)
  | cons item rest ih =>
    obtain ⟨scope, value⟩ := item
    have given : value ≠ [] := values _ (List.mem_cons_self ..)
    obtain ⟨fresh, scopes'⟩ := List.nodup_cons.mp scopes
    have apart : ∀ other ∈ rest, other ≠ (scope, value) := by
      intro other mem same
      exact fresh (List.mem_map.mpr ⟨other, mem, by rw [same]⟩)
    rw [askScopes, if_neg given, allow_eq]
    by_cases stop : (settings.configs scope).limit ≤
        (live (settings.configs scope) (arrival.now scope) (store.bucket (rateKey scope value))).length
    · simp only [if_pos stop]
      exact .refused [] rest (scope, value) _ rfl (by simp) stop
    · simp only [if_neg stop]
      have after := ih (fun other mem => values other (List.mem_cons_of_mem _ mem)) scopes'
        (consume settings arrival store (scope, value))
      change Asked settings arrival store ((scope, value) :: rest)
        (askScopes settings.configs arrival.now rest (consume settings arrival store (scope, value)))
      have free : ∀ other ∈ (scope, value) :: rest, other ∈ rest → ¬ full settings arrival
          (consume settings arrival store (scope, value)) other → ¬ full settings arrival store other :=
        fun other _ mem room => (full_consume_iff (apart other mem)).not.mp room
      generalize askScopes settings.configs arrival.now rest
        (consume settings arrival store (scope, value)) = result at after ⊢
      cases after with
      | admitted room =>
        apply Asked.admitted
        intro other mem
        rcases List.mem_cons.mp mem with rfl | later
        · exact stop
        · exact (full_consume_iff (apart other later)).not.mp (room other later)
      | refused passed rest' other rejection split room full' =>
        have there : other ∈ rest := split ▸ List.mem_append_right _ (List.mem_cons_self ..)
        apply Asked.refused ((scope, value) :: passed) rest' other rejection (by rw [split, List.cons_append])
        · intro before mem
          rcases List.mem_cons.mp mem with rfl | later
          · exact stop
          · have among : before ∈ rest := split ▸ List.mem_append_left _ later
            exact (full_consume_iff (apart before among)).not.mp (room before later)
        · exact (full_consume_iff (apart other there)).mp full'

/-- Of scope values that are all different each is consumed once. -/
theorem bucket_consumed (settings : RateSettings) (arrival : Arrival) (items : List (RateScope × Str))
    (distinct : items.Nodup)
    (store : RateWindowStore) (item : RateScope × Str) :
    (items.foldl (consume settings arrival) store).bucket (rateKey item.1 item.2) =
      if item ∈ items then liveBucket settings arrival store item ++ [arrival.now item.1]
      else store.bucket (rateKey item.1 item.2) := by
  induction items generalizing store with
  | nil => rfl
  | cons first rest ih =>
    obtain ⟨fresh, distinct'⟩ := List.nodup_cons.mp distinct
    rw [List.foldl_cons, ih distinct' _]
    by_cases later : item ∈ rest
    · have apart : item ≠ first := fun same => fresh (same ▸ later)
      rw [if_pos later, if_pos (List.mem_cons_of_mem _ later), liveBucket_consume apart]
    · rw [if_neg later, consume, bucket_set_item]
      by_cases here : item = first
      · rw [if_pos here, if_pos (by rw [here]; exact List.mem_cons_self ..), here]
      · rw [if_neg here, if_neg (by simp [here, later])]

theorem presented_distinct (settings : RateSettings) (request : RateRequest) : (presented settings request).Nodup :=
  List.Nodup.of_map _ (presented_nodup settings request)

theorem asked (settings : RateSettings) (store : RateWindowStore) (arrival : Arrival) :
    Asked settings arrival store (presented settings arrival.request) (arrival.enforce settings store) := by
  rw [enforce_eq]
  exact askScopes_cases settings arrival _ presented_nonempty (presented_nodup settings _) store

theorem liveBucket_refresh (other : RateScope × Str) :
    liveBucket settings arrival (refresh settings arrival store item) other = liveBucket settings arrival store other := by
  rw [liveBucket, refresh, bucket_set_item]
  split_ifs with same
  · rw [same, liveBucket, live_live]
  · rfl

/-- Only where the first presented scope refuses is nothing consumed. -/
theorem atomicStep_iff (settings : RateSettings) (store : RateWindowStore) (arrival : Arrival) :
    AtomicStep settings store arrival ↔ FullFirst settings store arrival := by
  have result := asked settings store arrival
  have distinct := presented_distinct settings arrival.request
  cases outcome : arrival.enforce settings store with
  | mk rejected next =>
  rw [outcome] at result
  cases result with
  | admitted free =>
    apply iff_of_true
    · refine ⟨fun refused => absurd (by rw [outcome]) refused, fun _ item => ?_⟩
      rw [outcome]
      exact bucket_consumed settings arrival _ distinct store item
    · exact fun item mem stop => absurd stop (free item mem)
  | refused passed rest item rejection split free stop =>
    cases passed with
    | nil =>
      apply iff_of_true
      · refine ⟨fun _ other => ?_, fun admitted => ?_⟩
        · rw [outcome]
          exact liveBucket_refresh other
        · rw [outcome] at admitted
          cases admitted
      · exact fun _ _ _ => ⟨item, by rw [split]; rfl, stop⟩
    | cons first passed =>
      have there : item ∈ presented settings arrival.request := by simp [split]
      have head : (presented settings arrival.request).head? = some first := by simp [split]
      apply iff_of_false
      · intro atomic
        have same := atomic.rejected (by rw [outcome]; exact Option.some_ne_none _) first
        rw [split] at distinct
        have before := (List.nodup_append.mp distinct).1
        have apart := (List.nodup_append.mp distinct).2.2 first (List.mem_cons_self ..) item (List.mem_cons_self ..)
        rw [outcome, liveBucket_refresh, liveBucket, bucket_consumed _ _ _ before, if_pos (List.mem_cons_self ..),
          liveBucket,
          live_concat] at same
        exact absurd same (by simp)
      · intro fullFirst
        obtain ⟨other, same, stop'⟩ := fullFirst item there stop
        rw [head] at same
        cases same
        exact free first (List.mem_cons_self ..) stop'

end Scopes

section Bound

variable {settings : RateSettings} {store : RateWindowStore} {arrival : Arrival} {item : RateScope × Str} {now : ℚ}

def servedTimes (settings : RateSettings) (item : RateScope × Str) (arrivals : List Arrival) : List ℚ :=
  (arrivals.filter fun arrival => item ∈ presented settings arrival.request).map fun arrival => arrival.now item.1

/-- The bucket keeps what is left of all its entries, among them those of the requests that were served. -/
def Covers (settings : RateSettings) (item : RateScope × Str) (now : ℚ) (store : RateWindowStore) (times : List ℚ) : Prop :=
  ∃ grants, (settings.configs item.1).window.Keeps now grants (store.bucket (rateKey item.1 item.2)) ∧ times.Sublist grants

theorem Covers.same {store' : RateWindowStore} {times : List ℚ} (covers : Covers settings item now store times)
    (bucket : store'.bucket (rateKey item.1 item.2) = store.bucket (rateKey item.1 item.2)) :
    Covers settings item now store' times := by
  rw [Covers, bucket]
  exact covers

theorem Covers.granted {store' : RateWindowStore} {times : List ℚ}
    (covers : Covers settings item (arrival.now item.1) store times) (free : ¬ full settings arrival store item)
    (bucket : store'.bucket (rateKey item.1 item.2) = liveBucket settings arrival store item ++ [arrival.now item.1]) :
    Covers settings item (arrival.now item.1) store' (times ++ [arrival.now item.1]) := by
  obtain ⟨grants, keeps, among⟩ := covers
  have admits : (settings.configs item.1).window.admits (arrival.now item.1) (store.bucket (rateKey item.1 item.2)) = true :=
    decide_eq_true (Nat.lt_of_not_le free)
  refine ⟨grants ++ [arrival.now item.1], ?_, among.append (List.Sublist.refl _)⟩
  rw [bucket]
  exact keeps.grant admits

theorem Covers.refreshed {store' : RateWindowStore} {times : List ℚ}
    (covers : Covers settings item (arrival.now item.1) store times)
    (bucket : store'.bucket (rateKey item.1 item.2) = liveBucket settings arrival store item) :
    Covers settings item (arrival.now item.1) store' times := by
  obtain ⟨grants, keeps, among⟩ := covers
  refine ⟨grants, ?_, among⟩
  rw [bucket]
  exact keeps.evict

theorem Covers.fewer {times fewer : List ℚ} (covers : Covers settings item now store times) (among : fewer.Sublist times) :
    Covers settings item now store fewer := by
  obtain ⟨grants, keeps, within⟩ := covers
  exact ⟨grants, keeps, among.trans within⟩

/-- Passed scopes are consumed even where a later one refuses. -/
theorem Covers.step {times : List ℚ} (covers : Covers settings item (arrival.now item.1) store times) :
    Covers settings item (arrival.now item.1) (arrival.enforce settings store).2
      (times ++ servedTimes settings item (if (arrival.enforce settings store).1.isNone then [arrival] else [])) := by
  have result := asked settings store arrival
  have distinct := presented_distinct settings arrival.request
  cases outcome : arrival.enforce settings store with
  | mk rejected next =>
  rw [outcome] at result
  cases result with
  | admitted free =>
    have bucket := bucket_consumed settings arrival _ distinct store item
    simp only [Option.isNone_none, if_true, servedTimes]
    by_cases mem : item ∈ presented settings arrival.request
    · rw [if_pos mem] at bucket
      rw [List.filter_cons_of_pos (by simpa using mem)]
      exact covers.granted (free item mem) bucket
    · rw [if_neg mem] at bucket
      rw [List.filter_cons_of_neg (by simpa using mem)]
      simpa using covers.same bucket
  | refused passed rest stopper rejection split free stop =>
    rw [split] at distinct
    have before := (List.nodup_append.mp distinct).1
    have fresh : stopper ∉ passed :=
      fun mem => (List.nodup_append.mp distinct).2.2 stopper mem stopper (List.mem_cons_self ..) rfl
    have bucket := bucket_consumed settings arrival passed before store item
    have refreshed := bucket_set_item (passed.foldl (consume settings arrival) store) stopper item
      (liveBucket settings arrival (passed.foldl (consume settings arrival) store) stopper)
    simp only [Option.isNone_some, Bool.false_eq_true, if_false, servedTimes, List.filter_nil, List.map_nil, List.append_nil]
    by_cases here : item = stopper
    · subst here
      rw [if_neg fresh] at bucket
      have same : liveBucket settings arrival (passed.foldl (consume settings arrival) store) item =
          liveBucket settings arrival store item := by rw [liveBucket, bucket, liveBucket]
      exact covers.refreshed ((refreshed.trans (if_pos rfl)).trans same)
    · rw [if_neg here, bucket] at refreshed
      by_cases mem : item ∈ passed
      · rw [if_pos mem] at refreshed
        exact (covers.granted (free item mem) refreshed).fewer (List.sublist_append_left _ _)
      · rw [if_neg mem] at refreshed
        exact covers.same refreshed

theorem served_append (settings : RateSettings) (store : RateWindowStore) (prior more : List Arrival) :
    served settings store (prior ++ more) =
      served settings store prior ++ served settings (storeAfter settings store prior) more := by
  induction prior generalizing store with
  | nil => rfl
  | cons arrival rest ih =>
    simp only [List.cons_append, served, ih, storeAfter, List.foldl_cons]
    split_ifs <;> rfl

theorem storeAfter_concat (settings : RateSettings) (store : RateWindowStore) (prior : List Arrival) (arrival : Arrival) :
    storeAfter settings store (prior ++ [arrival]) = (arrival.enforce settings (storeAfter settings store prior)).2 := by
  simp [storeAfter]

theorem covers_history (item : RateScope × Str) (history : List Arrival)
    (clock : (history.map fun arrival => arrival.now item.1).Pairwise (· ≤ ·)) {now : ℚ}
    (past : ∀ arrival ∈ history, arrival.now item.1 ≤ now) :
    Covers settings item now (storeAfter settings .empty history)
      (servedTimes settings item (served settings .empty history)) := by
  induction history using List.reverseRecOn generalizing now with
  | nil => exact ⟨[], SlidingWindow.keeps_nil _ now, List.Sublist.refl _⟩
  | append_singleton prior arrival ih =>
    rw [List.map_append, List.pairwise_append] at clock
    have earlier : ∀ before ∈ prior, before.now item.1 ≤ arrival.now item.1 := by
      intro before mem
      exact clock.2.2 _ (List.mem_map.mpr ⟨before, mem, rfl⟩) _ (by simp)
    have stepped := (ih clock.1 earlier).step
    have shape : served settings .empty (prior ++ [arrival]) = served settings .empty prior ++
        if (arrival.enforce settings (storeAfter settings .empty prior)).1.isNone then [arrival] else [] := by
      rw [served_append]
      congr 1
    rw [storeAfter_concat, shape, servedTimes, List.filter_append, List.map_append]
    obtain ⟨grants, keeps, among⟩ := stepped
    exact ⟨grants, keeps.later (past arrival (by simp)), among⟩

theorem exists_later (scope : RateScope) (history : List Arrival) : ∃ now, ∀ arrival ∈ history, arrival.now scope ≤ now := by
  induction history with
  | nil => exact ⟨0, by simp⟩
  | cons arrival rest ih =>
    obtain ⟨now, later⟩ := ih
    refine ⟨max (arrival.now scope) now, fun other mem => ?_⟩
    rcases List.mem_cons.mp mem with rfl | among
    · exact le_max_left _ _
    · exact (later other among).trans (le_max_right _ _)

theorem servedWithin_le (item : RateScope × Str) (history : List Arrival)
    (clock : (history.map fun arrival => arrival.now item.1).Pairwise (· ≤ ·)) (start : ℚ) :
    servedWithin settings history item start ≤ (settings.configs item.1).limit := by
  obtain ⟨now, past⟩ := exists_later item.1 history
  obtain ⟨grants, keeps, among⟩ : Covers settings item now _ _ := covers_history item history clock past
  have strict := keeps.strict start
  have fewer : _ ≤ (settings.configs item.1).window.within start grants := among.countP_le
  have count : servedWithin settings history item start = (servedTimes settings item (served settings .empty history)).countP
      fun t => decide (start ≤ t ∧ t < start + (settings.configs item.1).windowSeconds) := by
    rw [servedTimes, List.countP_map, List.countP_filter, servedWithin]
    apply List.countP_congr
    intro arrival _
    simp [and_comm]
  rw [count]
  exact fewer.trans strict

end Bound

theorem rateLimited_iff (settings : RateSettings) (history : List Arrival)
    (clock : ∀ scope, (history.map fun arrival => arrival.now scope).Pairwise (· ≤ ·)) :
    ((∀ prior arrival, prior ++ [arrival] <+: history → AtomicStep settings (storeAfter settings .empty prior) arrival) ∧
        ∀ item start, servedWithin settings history item start ≤ (settings.configs item.1).limit) ↔
      ∀ prior arrival, prior ++ [arrival] <+: history → FullFirst settings (storeAfter settings .empty prior) arrival := by
  constructor
  · rintro ⟨atomic, -⟩ prior arrival start
    exact (atomicStep_iff settings _ arrival).mp (atomic prior arrival start)
  · intro fullFirst
    refine ⟨fun prior arrival start => ?_, fun item start => servedWithin_le item history (clock item.1) start⟩
    exact (atomicStep_iff settings _ arrival).mpr (fullFirst prior arrival start)

theorem minute_pos : 0 < 60 := by decide

def tightSettings : RateSettings where
  enforce := true
  configs := fun scope => if scope = .workspace then ⟨1, 60, Nat.one_pos, minute_pos⟩ else ⟨2, 60, Nat.two_pos, minute_pos⟩

def demoRequest (now : ℚ) : Arrival where
  request := {
    path := "/api/v1/demo".toList
    header := fun name => if name = "x-user-id" then some "ada".toList
      else if name = "x-workspace-id" then some "1".toList else none
    query := fun _ => none }
  now := fun _ => now

def demoHistory : List Arrival := [demoRequest 0, demoRequest 1]

theorem demoHistory_ordered (scope : RateScope) : (demoHistory.map fun arrival => arrival.now scope).Pairwise (· ≤ ·) := by
  show [(0 : ℚ), 1].Pairwise (· ≤ ·)
  decide +kernel

theorem demoHistory_refused :
    ((demoRequest 1).enforce tightSettings (storeAfter tightSettings .empty [demoRequest 0])).1.isSome = true := by
  decide +kernel

theorem rateLimited_iff_demo :
    ((demoRequest 1).enforce tightSettings (storeAfter tightSettings .empty [demoRequest 0])).1.isSome = true ∧
    (((∀ prior arrival, prior ++ [arrival] <+: demoHistory →
          AtomicStep tightSettings (storeAfter tightSettings .empty prior) arrival) ∧
        ∀ item start, servedWithin tightSettings demoHistory item start ≤ (tightSettings.configs item.1).limit) ↔
      ∀ prior arrival, prior ++ [arrival] <+: demoHistory →
        FullFirst tightSettings (storeAfter tightSettings .empty prior) arrival) :=
  ⟨demoHistory_refused, rateLimited_iff tightSettings demoHistory demoHistory_ordered⟩

/-- The second request is refused for its workspace and counts for its user. -/
theorem not_rateLimited : ¬ ∀ (settings : RateSettings) (history : List Arrival),
    (∀ scope, (history.map fun arrival => arrival.now scope).Pairwise (· ≤ ·)) →
    (∀ prior arrival, prior ++ [arrival] <+: history → AtomicStep settings (storeAfter settings .empty prior) arrival) ∧
      ∀ item start, servedWithin settings history item start ≤ (settings.configs item.1).limit := by
  intro claimed
  have atomic := (claimed tightSettings _ demoHistory_ordered).1 [demoRequest 0] (demoRequest 1) List.prefix_rfl
  have same := atomic.rejected (Option.isSome_iff_ne_none.mp demoHistory_refused) (.user, "ada".toList)
  revert same
  decide +kernel

end ClaudeProxy.Api

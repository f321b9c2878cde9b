import Mathlib.Algebra.Order.Ring.Cast
import ClaudeProxy.Api.Gateway

namespace ClaudeProxy.Api

open Kit Providers

section Plain

variable (r : Services) (settings : Settings)

/-- The provider for a type as it is built anew, whatever is registered. -/
def destinationFor (providerType : Str) : Except Raised Destination :=
  match providerChoice settings.toSettingsValues providerType with
  | .error e => .error (serviceUnavailable e)
  | .ok (cls, config) =>
    match createLimiter config with
    | .error message => .error (.exception ⟨.other, message.toList⟩)
    | .ok _ =>
      match r.clientError (cls.destination config).baseUrl with
      | some text => .error (.exception ⟨.other, text⟩)
      | none => .ok (cls.destination config)

structure Usable (providerType : Str) : Prop where
  nvidia_key : providerType = "nvidia_nim".toList → strip settings.nvidiaNimApiKey ≠ []
  router_key : providerType = "open_router".toList → strip settings.openRouterApiKey ≠ []
  rate : 0 ≤ settings.providerRateLimit
  window : 0 ≤ settings.providerRateWindow
  concurrency : 0 < settings.providerMaxConcurrency
  client : ∀ cls config, providerChoice settings.toSettingsValues providerType = .ok (cls, config) →
    r.clientError (cls.destination config).baseUrl = none

end Plain

section Choice

variable {r : Services} {settings : Settings}

theorem providerChoice_config {values : SettingsValues} {providerType : Str} {choice : ProviderClass × ProviderConfig}
    (chosen : providerChoice values providerType = .ok choice) :
    ∃ apiKey baseUrl, choice.2 = providerConfig values apiKey baseUrl := by
  unfold providerChoice at chosen
  repeat' split at chosen
  all_goals first
    | exact ⟨_, _, congrArg Prod.snd (Except.ok.inj chosen).symm⟩
    | cases chosen

/-- The limiter depends on the settings, not on the provider. -/
theorem createLimiter_choice {values : SettingsValues} {providerType : Str} {cls : ProviderClass} {config : ProviderConfig}
    (chosen : providerChoice values providerType = .ok (cls, config)) :
    createLimiter config = createLimiter (providerConfig values [] []) := by
  obtain ⟨apiKey, baseUrl, rfl⟩ := providerChoice_config chosen
  rfl

theorem limiter_new_ok_iff (rateLimit : Int) (rateWindow : ℚ) (maxConcurrency : Int) :
    (∃ limiter, GlobalRateLimiter.new rateLimit rateWindow maxConcurrency = .ok limiter) ↔
      0 < rateLimit ∧ 0 < rateWindow ∧ 0 < maxConcurrency := by
  unfold GlobalRateLimiter.new
  split_ifs with limited windowed concurrent
  · simp [limited, windowed, concurrent]
  · simp [concurrent]
  · simp [windowed]
  · simp [limited]

theorem map_ok_iff {ε α β : Type} (f : α → β) (result : Except ε α) :
    (∃ b, result.map f = .ok b) ↔ ∃ a, result = .ok a := by
  cases result with
  | error e => simp [Except.map]
  | ok a => simp [Except.map]

theorem create_ok_iff (rateLimit : Int) (rateWindow : ℚ) (maxConcurrency : Int) :
    (∃ limiter, LimiterInstance.create (some rateLimit) (some rateWindow) maxConcurrency = .ok limiter) ↔
      0 ≤ rateLimit ∧ 0 ≤ rateWindow ∧ 0 < maxConcurrency := by
  have rate : 0 < (if rateLimit = 0 then 40 else rateLimit) ↔ 0 ≤ rateLimit := by
    split_ifs <;> omega
  have window : 0 < (if rateWindow = 0 then 60 else rateWindow) ↔ 0 ≤ rateWindow := by
    split_ifs with zero
    · simp [zero]
    · exact ⟨le_of_lt, fun within => lt_of_le_of_ne within (Ne.symm zero)⟩
  show (∃ limiter, Except.map _ (GlobalRateLimiter.new (if rateLimit = 0 then 40 else rateLimit)
    (if rateWindow = 0 then 60 else rateWindow) maxConcurrency) = .ok limiter) ↔ _
  rw [map_ok_iff, limiter_new_ok_iff, rate, window]

theorem createLimiter_ok_iff (values : SettingsValues) : (∃ limiter, createLimiter (providerConfig values [] []) = .ok limiter) ↔
    0 ≤ values.providerRateLimit ∧ 0 ≤ values.providerRateWindow ∧ 0 < values.providerMaxConcurrency := by
  show (∃ limiter, LimiterInstance.create (some values.providerRateLimit) (some (values.providerRateWindow : ℚ))
    values.providerMaxConcurrency = .ok limiter) ↔ _
  rw [create_ok_iff, Int.cast_nonneg_iff]

/-- A type that passed the validator has a branch of its own. -/
theorem providerChoice_known {values : SettingsValues} {providerType : Str} (known : providerType ∈ validProviders) :
    (∃ cls config, providerChoice values providerType = .ok (cls, config)) ∨
      (providerType = "nvidia_nim".toList ∧ strip values.nvidiaNimApiKey = []) ∨
      (providerType = "open_router".toList ∧ strip values.openRouterApiKey = []) := by
  simp only [validProviders, List.map_cons, List.map_nil, List.mem_cons, List.not_mem_nil, or_false] at known
  unfold providerChoice
  rcases known with rfl | rfl | rfl | rfl
  · rw [if_pos rfl]
    by_cases blank : strip values.nvidiaNimApiKey = []
    · exact .inr (.inl ⟨rfl, blank⟩)
    · rw [if_neg blank]
      exact .inl ⟨_, _, rfl⟩
  · rw [if_neg (by decide), if_pos rfl]
    by_cases blank : strip values.openRouterApiKey = []
    · exact .inr (.inr ⟨rfl, blank⟩)
    · rw [if_neg blank]
      exact .inl ⟨_, _, rfl⟩
  · rw [if_neg (by decide), if_neg (by decide), if_pos rfl]
    exact .inl ⟨_, _, rfl⟩
  · rw [if_neg (by decide), if_neg (by decide), if_neg (by decide), if_pos rfl]
    exact .inl ⟨_, _, rfl⟩

theorem providerChoice_keys {values : SettingsValues} {providerType : Str} {choice : ProviderClass × ProviderConfig}
    (chosen : providerChoice values providerType = .ok choice) :
    (providerType = "nvidia_nim".toList → strip values.nvidiaNimApiKey ≠ []) ∧
      (providerType = "open_router".toList → strip values.openRouterApiKey ≠ []) := by
  constructor
  · rintro rfl blank
    rw [providerChoice, if_pos rfl, if_pos blank] at chosen
    cases chosen
  · rintro rfl blank
    rw [providerChoice, if_neg (by decide), if_pos rfl, if_pos blank] at chosen
    cases chosen

theorem destinationFor_ok_iff {providerType : Str} (known : providerType ∈ validProviders) :
    (∃ destination, destinationFor r settings providerType = .ok destination) ↔ Usable r settings providerType := by
  constructor
  · rintro ⟨destination, built⟩
    unfold destinationFor at built
    split at built
    · cases built
    · rename_i cls config chosen
      split at built
      · cases built
      · rename_i limiter limits
        obtain ⟨rate, window, concurrency⟩ := (createLimiter_ok_iff settings.toSettingsValues).mp
          ⟨limiter, (createLimiter_choice chosen).symm.trans limits⟩
        split at built
        · cases built
        · rename_i client
          refine ⟨(providerChoice_keys chosen).1, (providerChoice_keys chosen).2, rate, window, concurrency, ?_⟩
          intro cls' config' same
          rw [chosen] at same
          cases same
          exact client
  · intro usable
    have choice := @providerChoice_known settings.toSettingsValues providerType known
    rcases choice with ⟨cls, config, chosen⟩ | ⟨nvidia, blank⟩ | ⟨router, blank⟩
    · obtain ⟨limiter, limits⟩ := (createLimiter_ok_iff settings.toSettingsValues).mpr
        ⟨usable.rate, usable.window, usable.concurrency⟩
      rw [← createLimiter_choice chosen] at limits
      refine ⟨cls.destination config, ?_⟩
      simp only [destinationFor, chosen, limits, usable.client cls config chosen]
    · exact absurd blank (usable.nvidia_key nvidia)
    · exact absurd blank (usable.router_key router)

end Choice

section Registry

variable {r : Services} {settings : Settings}

/-- A cleanup of the present registry has begun and not come to its end. -/
def Gateway.HalfClosed (g : Gateway) : Prop :=
  ∃ cleanup ∈ g.cleanups, cleanup.registry = g.retired.length ∧ cleanup.state ≠ .finished

structure Gateway.Sound (r : Services) (settings : Settings) (g : Gateway) : Prop where
  limited : ∀ limiter, g.limiter = some limiter →
    createLimiter (providerConfig settings.toSettingsValues [] []) = .ok limiter
  registered : ∀ providerType provider, g.providers.get? providerType = some provider →
    destinationFor r settings providerType = .ok provider.toDestination ∧ provider.number < g.created
  distinct : ∀ left right provider other, g.providers.get? left = some provider → g.providers.get? right = some other →
    provider.number = other.number → left = right
  earlier : ∀ registry ∈ g.retired, ∀ old ∈ registry.values, old.number < g.created ∧
    ∀ providerType provider, g.providers.get? providerType = some provider → provider.number ≠ old.number
  made : ∀ number ∈ g.closed, number < g.created
  placed : ∀ cleanup ∈ g.cleanups, cleanup.registry ≤ g.retired.length ∧
    (cleanup.registry = g.retired.length → cleanup.state ≠ .finished)
  usable : ∀ providerType provider, g.providers.get? providerType = some provider →
    provider.number ∈ g.closed → g.HalfClosed

theorem Gateway.Sound.withLimiter {g : Gateway} (sound : g.Sound r settings) {limiter : LimiterInstance}
    (made : createLimiter (providerConfig settings.toSettingsValues [] []) = .ok limiter) :
    { g with limiter := some limiter }.Sound r settings :=
  { sound with limited := fun _ same => Option.some.inj same ▸ made }

theorem Gateway.Sound.register {g : Gateway} (sound : g.Sound r settings) {providerType : Str} {destination : Destination}
    (built : destinationFor r settings providerType = .ok destination) :
    { g with created := g.created + 1, providers := g.providers.set providerType ⟨destination, g.created⟩ }.Sound r settings where
  limited := sound.limited
  registered := by
    intro other provider found
    rw [Dict.get?_set] at found
    split_ifs at found with same
    · cases found
      exact ⟨same ▸ built, Nat.lt_succ_self _⟩
    · exact ⟨(sound.registered other provider found).1, Nat.lt_succ_of_lt (sound.registered other provider found).2⟩
  distinct := by
    intro left right provider other found found' same
    rw [Dict.get?_set] at found found'
    split_ifs at found found' with here here' here'
    · exact here.trans here'.symm
    · cases found
      exact absurd same (Nat.ne_of_gt (sound.registered right other found').2)
    · cases found'
      exact absurd same (Nat.ne_of_lt (sound.registered left provider found).2)
    · exact sound.distinct left right provider other found found' same
  earlier := by
    intro registry before old among
    obtain ⟨bound, apart⟩ := sound.earlier registry before old among
    refine ⟨Nat.lt_succ_of_lt bound, ?_⟩
    intro other provider found
    rw [Dict.get?_set] at found
    split_ifs at found with same
    · cases found
      exact Nat.ne_of_gt bound
    · exact apart other provider found
  made := fun number mem => Nat.lt_succ_of_lt (sound.made number mem)
  placed := sound.placed
  usable := by
    intro other provider found closed
    rw [Dict.get?_set] at found
    split_ifs at found with same
    · cases found
      exact absurd (sound.made _ closed) (Nat.lt_irrefl _)
    · exact sound.usable other provider found closed

/-- What only a cleanup changes. -/
structure Undisturbed (g next : Gateway) : Prop where
  retired : next.retired = g.retired
  closed : next.closed = g.closed
  cleanups : next.cleanups = g.cleanups

theorem Undisturbed.refl (g : Gateway) : Undisturbed g g := ⟨rfl, rfl, rfl⟩

/-- What a lookup in the registry gives is what would be built, and it stays. -/
structure Fetched (r : Services) (settings : Settings) (providerType : Str) (g : Gateway)
    (result : Except Raised ProviderObject × Gateway) : Prop where
  agrees : result.1.map ProviderObject.toDestination = destinationFor r settings providerType
  sound : result.2.Sound r settings
  there : ∀ provider, result.1 = .ok provider → result.2.providers.get? providerType = some provider
  kept : ∀ other provider, g.providers.get? other = some provider → result.2.providers.get? other = some provider
  undisturbed : Undisturbed g result.2

theorem fetched_of_error {g next : Gateway} {providerType : Str} {e : Raised}
    (built : destinationFor r settings providerType = .error e) (sound : next.Sound r settings)
    (registry : next.providers = g.providers) (undisturbed : Undisturbed g next) :
    Fetched r settings providerType g (.error e, next) where
  agrees := built.symm
  sound := sound
  there := fun provider same => by cases same
  kept := fun other provider found => (congrArg (fun d => d.get? other) registry).trans found
  undisturbed := undisturbed

theorem getProviderForType_fetched {g : Gateway} (sound : g.Sound r settings) (providerType : Str) :
    Fetched r settings providerType g (getProviderForType r settings providerType g) := by
  unfold getProviderForType
  cases registered : g.providers.get? providerType with
  | some provider =>
    have built := (sound.registered providerType provider registered).1
    exact ⟨built.symm, sound, fun _ same => Except.ok.inj same ▸ registered, fun _ _ found => found, .refl g⟩
  | none =>
    have missing : ∀ other provider, g.providers.get? other = some provider → other ≠ providerType := by
      rintro other provider found rfl
      rw [registered] at found
      cases found
    cases chosen : providerChoice settings.toSettingsValues providerType with
    | error e =>
      have built : destinationFor r settings providerType = .error (serviceUnavailable e) := by
        rw [destinationFor, chosen]
      simp only [createProviderForType, chosen]
      exact fetched_of_error built sound rfl (.refl g)
    | ok choice =>
      obtain ⟨cls, config⟩ := choice
      have same := createLimiter_choice chosen
      have held : g.limiter.elim (createLimiter config) .ok = createLimiter config := by
        cases limiter : g.limiter with
        | none => rfl
        | some limiter' => exact (same.trans (sound.limited limiter' limiter)).symm
      simp only [createProviderForType, chosen, construct, held]
      cases limits : createLimiter config with
      | error message =>
        have built : destinationFor r settings providerType = .error (.exception ⟨.other, message.toList⟩) := by
          simp only [destinationFor, chosen, limits]
        exact fetched_of_error built sound rfl (.refl g)
      | ok limiter =>
        have limited := sound.withLimiter (same.symm.trans limits)
        cases client : r.clientError (cls.destination config).baseUrl with
        | some text =>
          have built : destinationFor r settings providerType = .error (.exception ⟨.other, text⟩) := by
            simp only [destinationFor, chosen, limits, client]
          exact fetched_of_error built limited rfl ⟨rfl, rfl, rfl⟩
        | none =>
          have built : destinationFor r settings providerType = .ok (cls.destination config) := by
            simp only [destinationFor, chosen, limits, client]
          refine ⟨built.symm, limited.register built, ?_, ?_, ⟨rfl, rfl, rfl⟩⟩
          · intro provider same
            cases same
            exact Dict.get?_set_self ..
          · intro other provider found
            exact (Dict.get?_set_ne _ _ (missing other provider found)).trans found

theorem Undisturbed.halfClosed {g next : Gateway} (undisturbed : Undisturbed g next) (half : next.HalfClosed) :
    g.HalfClosed := by
  obtain ⟨cleanup, mem, present, state⟩ := half
  exact ⟨cleanup, undisturbed.cleanups ▸ mem, undisturbed.retired ▸ present, state⟩

theorem registered_of_mem {g : Gateway} {provider : ProviderObject} (among : provider ∈ g.providers.values) :
    ∃ providerType, g.providers.get? providerType = some provider := by
  obtain ⟨⟨providerType, found⟩, entry, rfl⟩ := List.mem_map.mp among
  exact ⟨providerType, (Dict.get?_eq_some_iff ..).mpr entry⟩

theorem registry_current (g : Gateway) : g.registry g.retired.length = g.providers := by
  rw [Gateway.registry, List.getD_eq_getElem?_getD, List.getElem?_concat_length]
  rfl

theorem registry_retired {g : Gateway} {n : Nat} (before : n < g.retired.length) : g.registry n ∈ g.retired := by
  rw [Gateway.registry, List.getD_eq_getElem?_getD, List.getElem?_append_left before, List.getElem?_eq_getElem before]
  exact List.getElem_mem before

theorem registry_made {g : Gateway} (sound : g.Sound r settings) {n : Nat} (placed : n ≤ g.retired.length)
    {provider : ProviderObject} (among : provider ∈ (g.registry n).values) :
    provider.number < g.created := by
  rcases Nat.lt_or_eq_of_le placed with before | rfl
  · exact (sound.earlier _ (registry_retired before) provider among).1
  · rw [registry_current] at among
    obtain ⟨providerType, found⟩ := registered_of_mem among
    exact (sound.registered providerType provider found).2

/-- Everything a call of `cleanup_provider` can do from one `await` to the next. -/
theorem advance_cases (cleanup : Cleanup) (g : Gateway) :
    cleanup.advance g = ({ cleanup with state := .raised }, g) ∨
    (∃ provider ∈ (g.registry cleanup.registry).values, cleanup.advance g =
      ({ cleanup with position := cleanup.position + 1 }, { g with closed := g.closed ++ [provider.number] })) ∨
    cleanup.advance g =
      ({ cleanup with state := .finished }, { g with providers := .empty, retired := g.retired ++ [g.providers] }) := by
  unfold Cleanup.advance
  dsimp only
  split_ifs with grown
  · exact .inl rfl
  · cases next : (g.registry cleanup.registry).values[cleanup.position]? with
    | some provider => exact .inr (.inl ⟨provider, List.mem_of_getElem? next, rfl⟩)
    | none => exact .inr (.inr rfl)

/-- The calls after one of them has been entered, or has got to where it is now. -/
structure Entered (cleanup : Cleanup) (before after : List Cleanup) : Prop where
  here : cleanup ∈ after
  only : ∀ other ∈ after, other = cleanup ∨ other ∈ before
  others : ∀ other ∈ before, other ∈ after ∨ other.registry = cleanup.registry

theorem entered_concat (cleanup : Cleanup) (cleanups : List Cleanup) : Entered cleanup cleanups (cleanups ++ [cleanup]) where
  here := List.mem_append_right _ (List.mem_singleton_self _)
  only := fun _ mem => (List.mem_append.mp mem).symm.imp_left List.mem_singleton.mp
  others := fun _ mem => .inl (List.mem_append_left _ mem)

theorem entered_set {cleanups : List Cleanup} {index : Nat} {cleanup next : Cleanup}
    (there : cleanups[index]? = some cleanup) (same : next.registry = cleanup.registry) :
    Entered next cleanups (cleanups.set index next) where
  here := List.mem_set (List.getElem?_eq_some_iff.mp there).1 next
  only := fun other mem => (List.mem_or_eq_of_mem_set mem).symm
  others := by
    intro other mem
    obtain ⟨position, at_position⟩ := List.getElem?_of_mem mem
    by_cases same_index : index = position
    · subst same_index
      rw [there] at at_position
      cases at_position
      exact .inr same.symm
    · refine .inl (List.mem_of_getElem? (i := position) ?_)
      rw [List.getElem?_set_ne same_index, at_position]

theorem Gateway.HalfClosed.entered {g : Gateway} {cleanup : Cleanup} {after : List Cleanup} (half : g.HalfClosed)
    (entered : Entered cleanup g.cleanups after) (unfinished : cleanup.state ≠ .finished) :
    { g with cleanups := after }.HalfClosed := by
  obtain ⟨other, mem, present, state⟩ := half
  rcases entered.others other mem with still | same
  · exact ⟨other, still, present, state⟩
  · exact ⟨cleanup, entered.here, same.symm.trans present, unfinished⟩

theorem Gateway.Sound.enter {g : Gateway} (sound : g.Sound r settings) {cleanup : Cleanup} {after : List Cleanup}
    (entered : Entered cleanup g.cleanups after) (placed : cleanup.registry ≤ g.retired.length)
    (unfinished : cleanup.state ≠ .finished) : { g with cleanups := after }.Sound r settings where
  limited := sound.limited
  registered := sound.registered
  distinct := sound.distinct
  earlier := sound.earlier
  made := sound.made
  placed := by
    intro other mem
    rcases entered.only other mem with rfl | before
    · exact ⟨placed, fun _ => unfinished⟩
    · exact sound.placed other before
  usable := fun providerType provider found closed =>
    (sound.usable providerType provider found closed).entered entered unfinished

theorem Gateway.Sound.close {g : Gateway} (sound : g.Sound r settings) {cleanup : Cleanup} (mem : cleanup ∈ g.cleanups)
    (unfinished : cleanup.state ≠ .finished) {provider : ProviderObject}
    (among : provider ∈ (g.registry cleanup.registry).values) :
    { g with closed := g.closed ++ [provider.number] }.Sound r settings where
  limited := sound.limited
  registered := sound.registered
  distinct := sound.distinct
  earlier := sound.earlier
  made := by
    intro number closed
    rcases List.mem_append.mp closed with before | now
    · exact sound.made number before
    · cases List.mem_singleton.mp now
      exact registry_made sound (sound.placed cleanup mem).1 among
  placed := sound.placed
  usable := by
    intro providerType registered found closed
    rcases List.mem_append.mp closed with before | now
    · exact sound.usable providerType registered found before
    · rcases Nat.lt_or_eq_of_le (sound.placed cleanup mem).1 with earlier | present
      · have apart := (sound.earlier _ (registry_retired earlier) provider among).2 providerType registered found
        exact absurd (List.mem_singleton.mp now) apart
      · exact ⟨cleanup, mem, present, unfinished⟩

theorem Gateway.Sound.replace {g : Gateway} (sound : g.Sound r settings) {cleanup : Cleanup} {after : List Cleanup}
    (entered : Entered cleanup g.cleanups after) (placed : cleanup.registry ≤ g.retired.length) :
    { g with providers := .empty, retired := g.retired ++ [g.providers], cleanups := after }.Sound r settings where
  limited := sound.limited
  registered := fun _ _ none => by cases none
  distinct := fun _ _ _ _ none => by cases none
  earlier := by
    intro registry mem old among
    refine ⟨?_, fun _ _ none => by cases none⟩
    rcases List.mem_append.mp mem with before | last
    · exact (sound.earlier registry before old among).1
    · cases List.mem_singleton.mp last
      obtain ⟨providerType, found⟩ := registered_of_mem among
      exact (sound.registered providerType old found).2
  made := sound.made
  placed := by
    intro other mem
    have bound : other.registry ≤ g.retired.length := by
      rcases entered.only other mem with rfl | before
      · exact placed
      · exact (sound.placed other before).1
    rw [List.length_append, List.length_singleton]
    exact ⟨Nat.le_succ_of_le bound, fun same => absurd (same ▸ bound) (Nat.not_succ_le_self _)⟩
  usable := fun _ _ none => by cases none

/-- A call that has been entered as it was goes on. -/
theorem Gateway.Sound.advance {g : Gateway} (sound : g.Sound r settings) {cleanup : Cleanup} (running : cleanup.state = .running)
    (placed : cleanup.registry ≤ g.retired.length) {record : Cleanup → List Cleanup}
    (entered : ∀ next, next.registry = cleanup.registry → Entered next g.cleanups (record next)) :
    { (cleanup.advance g).2 with cleanups := record (cleanup.advance g).1 }.Sound r settings := by
  rcases advance_cases cleanup g with raised | ⟨provider, among, closed⟩ | finished
  · rw [raised]
    exact sound.enter (entered _ rfl) placed (fun same => by cases same)
  · rw [closed]
    have unfinished : cleanup.state ≠ .finished := fun same => by rw [running] at same; cases same
    have next := entered { cleanup with position := cleanup.position + 1 } rfl
    exact (sound.enter next placed unfinished).close next.here unfinished among
  · rw [finished]
    exact sound.replace (entered _ rfl) placed

theorem cleanupProvider_sound {g : Gateway} (sound : g.Sound r settings) : (cleanupProvider g).Sound r settings := by
  unfold cleanupProvider
  exact sound.advance rfl (Nat.le_refl _) (fun next _ => entered_concat next g.cleanups)

/-- The next step of a call that is running, or its end. -/
theorem resumeCleanup_cases {index : Nat} {raises : Bool} {g next : Gateway}
    (resumed : resumeCleanup index raises g = some next) :
    ∃ cleanup, g.cleanups[index]? = some cleanup ∧ cleanup.state = .running ∧
      (next = { g with cleanups := g.cleanups.set index { cleanup with state := .raised } } ∨
        next = { (cleanup.advance g).2 with cleanups := g.cleanups.set index (cleanup.advance g).1 }) := by
  unfold resumeCleanup at resumed
  cases there : g.cleanups[index]? with
  | none =>
    rw [there] at resumed
    cases resumed
  | some cleanup =>
    rw [there] at resumed
    dsimp only at resumed
    split_ifs at resumed with ended raised
    · exact ⟨cleanup, rfl, not_not.mp ended, .inl (Option.some.inj resumed).symm⟩
    · exact ⟨cleanup, rfl, not_not.mp ended, .inr (Option.some.inj resumed).symm⟩

theorem resumeCleanup_sound {index : Nat} {raises : Bool} {g next : Gateway} (sound : g.Sound r settings)
    (resumed : resumeCleanup index raises g = some next) : next.Sound r settings := by
  obtain ⟨cleanup, there, running, rfl | rfl⟩ := resumeCleanup_cases resumed
  all_goals have placed := (sound.placed cleanup (List.mem_of_getElem? there)).1
  · exact sound.enter (entered_set there rfl) placed (fun same => by cases same)
  · exact sound.advance running placed fun next same => entered_set there same

/-- The registry is left alone, or a new one has taken its place. -/
def Kept (g next : Gateway) : Prop := next.retired = g.retired ∧
  (∀ providerType provider, g.providers.get? providerType = some provider → next.providers.get? providerType = some provider) ∨
  g.retired.length < next.retired.length

theorem advance_kept (cleanup : Cleanup) (g : Gateway) (after : List Cleanup) :
    Kept g { (cleanup.advance g).2 with cleanups := after } := by
  rcases advance_cases cleanup g with raised | ⟨provider, among, closed⟩ | finished
  · rw [raised]
    exact .inl ⟨rfl, fun _ _ found => found⟩
  · rw [closed]
    exact .inl ⟨rfl, fun _ _ found => found⟩
  · rw [finished]
    refine .inr ?_
    rw [List.length_append]
    exact Nat.lt_succ_self _

end Registry

end ClaudeProxy.Api

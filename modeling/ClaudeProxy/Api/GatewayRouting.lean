import ClaudeProxy.Api.ProviderRegistry
import ClaudeProxy.Kit.Machine

namespace ClaudeProxy.Api

open Kit Providers

inductive GatewayAction where
  | message (uuid : Str) (body : MessagesBody)
  | getProvider
  | cleanup
  | resume (index : Nat) (raises : Bool)

def gatewayStep (r : Services) (settings : Settings) (g : Gateway) : GatewayAction → Option Gateway
  | .message uuid body => some (createMessage r settings g uuid body).2
  | .getProvider => some (getProvider r settings g).2
  | .cleanup => some (cleanupProvider g)
  | .resume index raises => resumeCleanup index raises g

def gateway (r : Services) (settings : Settings) : Machine Gateway GatewayAction where
  init := ⟨.empty, [], none, 0, [], []⟩
  step := gatewayStep r settings

/-- The answer of a gateway without a registry: one of the settings and the request alone. -/
def plainAnswer (r : Services) (settings : Settings) (uuid : Str) (body : MessagesBody) : Answer Destination :=
  match mapModel r settings body with
  | none => .unexpected
  | some request =>
    if request.messages = [] then emptyMessages
    else
      match tryOptimizations r.lower settings.toSettingsValues request.toMessagesRequest uuid with
      | some response => .response response
      | none => sendTo r request (destinationFor r settings (targetType settings request))

section Mapping

variable (r : Services) (settings : Settings)

/-- The model that a request is for, whatever the client writes into the fields of the mapping. -/
def resolvedModel (body : MessagesBody) : Str := settings.resolveModel r.lower (body.originalModel.getD body.model)

def configuredType (body : MessagesBody) : Str := parseProviderType (resolvedModel r settings body)

structure Mapped (body request : MessagesBody) : Prop where
  messages : request.messages = body.messages
  system : request.system = body.system
  tools : request.tools = body.tools
  target : targetType settings request = configuredType r settings body
  joined : configuredType r settings body ++ '/' :: request.model = resolvedModel r settings body

theorem configuredType_known (body : MessagesBody) : configuredType r settings body ∈ validProviders :=
  (settings.resolveModel_known r.lower (body.originalModel.getD body.model)).2

theorem mapModel_mapped (body : MessagesBody) :
    ∃ request, mapModel r settings body = some request ∧ Mapped r settings body request := by
  have known : KnownModel (resolvedModel r settings body) := settings.resolveModel_known r.lower _
  obtain ⟨name, cut, joined⟩ := known.cut
  have filled : resolvedModel r settings body ≠ [] := fun empty => by
    have slash := known.1
    rw [empty] at slash
    cases slash
  let request : MessagesBody := { body with
    model := name
    originalModel := some (body.originalModel.getD body.model)
    resolvedProviderModel := some (resolvedModel r settings body) }
  have target : targetType settings request = configuredType r settings body := by
    simp only [request, targetType, Option.filter_some, ne_eq, filled, not_false_eq_true, decide_true, if_true,
      Option.getD_some, configuredType]
  refine ⟨request, ?_, rfl, rfl, rfl, target, joined⟩
  show (parseModelName (resolvedModel r settings body)).map _ = some request
  rw [cut, Option.map_some]
  rfl

theorem plainAnswer_eq {body request : MessagesBody} (mapped : mapModel r settings body = some request) (uuid : Str) :
    plainAnswer r settings uuid body =
      if request.messages = [] then emptyMessages
      else
        match tryOptimizations r.lower settings.toSettingsValues request.toMessagesRequest uuid with
        | some response => .response response
        | none => sendTo r request (destinationFor r settings (targetType settings request)) := by
  rw [plainAnswer, mapped]

theorem sendTo_map {P Q : Type} (f : P → Q) (request : MessagesBody) (provider : Except Raised P) :
    (sendTo r request provider).map f = sendTo r request (provider.map f) := by
  cases provider with
  | error e => cases e <;> rfl
  | ok provider =>
    simp only [sendTo, Except.map]
    cases countedTokens r request.toMessagesRequest <;> rfl

theorem emptyMessages_ne_stream {P : Type} (provider : P) (request : MessagesBody) (inputTokens : Nat) :
    emptyMessages ≠ Answer.stream provider request inputTokens := by
  unfold emptyMessages
  exact fun same => by cases same

/-- What a request leaves behind. -/
structure Answered (body : MessagesBody) (uuid : Str) (g : Gateway) (sent : Answer ProviderObject × Gateway) : Prop where
  agrees : sent.1.map ProviderObject.toDestination = plainAnswer r settings uuid body
  sound : sent.2.Sound r settings
  kept : ∀ other provider, g.providers.get? other = some provider → sent.2.providers.get? other = some provider
  undisturbed : Undisturbed g sent.2
  handed : ∀ provider request inputTokens, sent.1 = .stream provider request inputTokens → Mapped r settings body request ∧
    sent.2.providers.get? (targetType settings request) = some provider ∧
    countedTokens r request.toMessagesRequest = .ok inputTokens

variable {r settings}

theorem answered_of_unsent {g : Gateway} (sound : g.Sound r settings) {uuid : Str} {body : MessagesBody}
    {answer : Answer ProviderObject} (agrees : answer.map ProviderObject.toDestination = plainAnswer r settings uuid body)
    (unsent : ∀ provider request inputTokens, answer ≠ .stream provider request inputTokens) :
    Answered r settings body uuid g (answer, g) :=
  ⟨agrees, sound, fun _ _ found => found, .refl g,
    fun provider request inputTokens streamed => absurd streamed (unsent provider request inputTokens)⟩

theorem sendTo_eq_stream {P : Type} {request sentRequest : MessagesBody} {result : Except Raised P} {provider : P}
    {inputTokens : Nat} (streamed : sendTo r request result = .stream provider sentRequest inputTokens) :
    result = .ok provider ∧ sentRequest = request ∧ countedTokens r request.toMessagesRequest = .ok inputTokens := by
  cases result with
  | error e => cases e <;> cases streamed
  | ok found =>
    unfold sendTo at streamed
    cases counted : countedTokens r request.toMessagesRequest with
    | error detail =>
      simp only [counted] at streamed
      cases streamed
    | ok tokens =>
      simp only [counted, Answer.stream.injEq] at streamed
      obtain ⟨rfl, rfl, rfl⟩ := streamed
      exact ⟨rfl, rfl, rfl⟩

theorem createMessage_answered {g : Gateway} (sound : g.Sound r settings) (uuid : Str) (body : MessagesBody) :
    Answered r settings body uuid g (createMessage r settings g uuid body) := by
  obtain ⟨request, mapped, spec⟩ := mapModel_mapped r settings body
  have plain := plainAnswer_eq r settings mapped uuid
  unfold createMessage
  rw [mapped]
  dsimp only
  by_cases empty : request.messages = []
  · rw [if_pos empty] at plain ⊢
    exact answered_of_unsent sound plain.symm (emptyMessages_ne_stream)
  · rw [if_neg empty] at plain ⊢
    generalize tryOptimizations r.lower settings.toSettingsValues request.toMessagesRequest uuid = optimized at plain ⊢
    cases optimized with
    | some response => exact answered_of_unsent sound plain.symm fun _ _ _ same => by cases same
    | none =>
      have fetched := getProviderForType_fetched sound (targetType settings request)
      generalize getProviderForType r settings (targetType settings request) g = result at fetched ⊢
      refine ⟨?_, fetched.sound, fetched.kept, fetched.undisturbed, ?_⟩
      · rw [plain, sendTo_map, fetched.agrees]
      · intro provider sentRequest inputTokens streamed
        obtain ⟨found, rfl, counted⟩ := sendTo_eq_stream streamed
        exact ⟨spec, fetched.there _ found, counted⟩

end Mapping

section Runs

variable {r : Services} {settings : Settings}

theorem sound_init : (gateway r settings).init.Sound r settings where
  limited := fun _ none => by cases none
  registered := fun _ _ none => by cases none
  distinct := fun _ _ _ _ none => by cases none
  earlier := fun _ none => by cases none
  made := fun _ none => by cases none
  placed := fun _ none => by cases none
  usable := fun _ _ none => by cases none

theorem gatewayStep_sound {g next : Gateway} (sound : g.Sound r settings) {action : GatewayAction}
    (taken : gatewayStep r settings g action = some next) : next.Sound r settings := by
  cases action with
  | message uuid body =>
    cases taken
    exact (createMessage_answered sound uuid body).sound
  | getProvider =>
    cases taken
    exact (getProviderForType_fetched sound _).sound
  | cleanup =>
    cases taken
    exact cleanupProvider_sound sound
  | resume index raises => exact resumeCleanup_sound sound taken

theorem gatewayStep_kept {g next : Gateway} (sound : g.Sound r settings) {action : GatewayAction}
    (taken : gatewayStep r settings g action = some next) : Kept g next := by
  cases action with
  | message uuid body =>
    cases taken
    have answered := createMessage_answered sound uuid body
    exact .inl ⟨answered.undisturbed.retired, answered.kept⟩
  | getProvider =>
    cases taken
    have fetched := getProviderForType_fetched sound (parseProviderType settings.model)
    exact .inl ⟨fetched.undisturbed.retired, fetched.kept⟩
  | cleanup =>
    cases taken
    exact advance_kept _ g _
  | resume index raises =>
    obtain ⟨cleanup, there, running, rfl | rfl⟩ := resumeCleanup_cases taken
    · exact .inl ⟨rfl, fun _ _ found => found⟩
    · exact advance_kept cleanup g _

theorem run_retired {g later : Gateway} (sound : g.Sound r settings) {actions : List GatewayAction}
    (ran : (gateway r settings).run g actions = some later) :
    later.Sound r settings ∧ g.retired.length ≤ later.retired.length := by
  induction actions generalizing g with
  | nil =>
    cases ran
    exact ⟨sound, Nat.le_refl _⟩
  | cons action actions ih =>
    obtain ⟨next, taken, rest⟩ := Option.bind_eq_some_iff.mp ran
    obtain ⟨sound', grows⟩ := ih (gatewayStep_sound sound taken) rest
    refine ⟨sound', ?_⟩
    rcases gatewayStep_kept sound taken with ⟨same, -⟩ | replaced
    · exact same ▸ grows
    · exact le_trans (le_of_lt replaced) grows

/-- Until a cleanup comes to its end, who is registered stays. -/
theorem run_kept {g later : Gateway} (sound : g.Sound r settings) {actions : List GatewayAction}
    (ran : (gateway r settings).run g actions = some later) (same : later.retired.length = g.retired.length)
    {providerType : Str} {provider : ProviderObject} (found : g.providers.get? providerType = some provider) :
    later.providers.get? providerType = some provider := by
  induction actions generalizing g with
  | nil =>
    cases ran
    exact found
  | cons action actions ih =>
    obtain ⟨next, taken, rest⟩ := Option.bind_eq_some_iff.mp ran
    have sound' := gatewayStep_sound sound taken
    have grows := (run_retired sound' rest).2
    rcases gatewayStep_kept sound taken with ⟨retired, kept⟩ | replaced
    · exact ih sound' rest (same.trans (congrArg List.length retired).symm) (kept _ _ found)
    · omega

theorem sound_of_reachable {g : Gateway} (reached : (gateway r settings).Reachable g) : g.Sound r settings :=
  Machine.ReachableUnder.invariant sound_init (fun _ _ _ sound _ taken => gatewayStep_sound sound taken) reached

theorem countedTokens_ok_iff (request : MessagesRequest) :
    (∃ inputTokens, countedTokens r request = .ok inputTokens) ↔ Countable request.messages request.system request.tools := by
  rw [← getTokenCount_isSome r.tokenizer]
  unfold countedTokens
  cases getTokenCount r.tokenizer.count request.messages request.system request.tools <;> simp

variable (r settings)

/-- What it takes for a request to be sent to a provider. -/
structure Forwarded (uuid : Str) (body : MessagesBody) : Prop where
  nonempty : body.messages ≠ []
  no_fast_path : ∀ request, mapModel r settings body = some request →
    tryOptimizations r.lower settings.toSettingsValues request.toMessagesRequest uuid = none
  usable : Usable r settings (configuredType r settings body)
  countable : Countable body.messages body.system body.tools

theorem plainAnswer_stream_iff (uuid : Str) (body : MessagesBody) :
    (∃ destination request inputTokens, plainAnswer r settings uuid body = .stream destination request inputTokens) ↔
      Forwarded r settings uuid body := by
  obtain ⟨request, mapped, spec⟩ := mapModel_mapped r settings body
  have plain := plainAnswer_eq r settings mapped uuid
  have countable : (∃ inputTokens, countedTokens r request.toMessagesRequest = .ok inputTokens) ↔
      Countable body.messages body.system body.tools := by
    rw [countedTokens_ok_iff, spec.messages, spec.system, spec.tools]
  constructor
  · rintro ⟨destination, sentRequest, inputTokens, streamed⟩
    rw [plain] at streamed
    split_ifs at streamed with empty
    · exact (emptyMessages_ne_stream _ _ _ streamed).elim
    · cases optimized : tryOptimizations r.lower settings.toSettingsValues request.toMessagesRequest uuid with
      | some response =>
        rw [optimized] at streamed
        cases streamed
      | none =>
        rw [optimized] at streamed
        obtain ⟨built, -, counted⟩ := sendTo_eq_stream streamed
        rw [spec.target] at built
        refine ⟨spec.messages ▸ empty, ?_, ?_, countable.mp ⟨inputTokens, counted⟩⟩
        · intro other mapped'
          rw [mapped] at mapped'
          cases mapped'
          exact optimized
        · exact (destinationFor_ok_iff (configuredType_known r settings body)).mp ⟨destination, built⟩
  · intro forwarded
    obtain ⟨destination, built⟩ := (destinationFor_ok_iff (configuredType_known r settings body)).mpr forwarded.usable
    obtain ⟨inputTokens, counted⟩ := countable.mpr forwarded.countable
    have some : request.messages ≠ [] := spec.messages ▸ forwarded.nonempty
    rw [plain, if_neg some, forwarded.no_fast_path request mapped, spec.target, built]
    simp only [sendTo, counted]
    exact ⟨destination, request, inputTokens, rfl⟩

theorem stream_map_iff {P Q : Type} (f : P → Q) (answer : Answer P) :
    (∃ provider request inputTokens, answer.map f = .stream provider request inputTokens) ↔
      ∃ provider request inputTokens, answer = .stream provider request inputTokens := by
  constructor
  · rintro ⟨provider, request, inputTokens, same⟩
    cases answer with
    | stream provider request inputTokens => exact ⟨provider, request, inputTokens, rfl⟩
    | response | providerError | httpError | unexpected => cases same
  · rintro ⟨provider, request, inputTokens, rfl⟩
    exact ⟨f provider, request, inputTokens, rfl⟩

theorem countTokens_eq (body : MessagesBody) :
    countTokens r settings body.toMessagesRequest = some (countedTokens r body.toMessagesRequest) := by
  have known : KnownModel (settings.resolveModel r.lower body.model) := settings.resolveModel_known r.lower _
  obtain ⟨name, cut, -⟩ := known.cut
  rw [countTokens, cut]
  rfl

theorem sendTo_ne_unexpected {P : Type} (request : MessagesBody) (result : Except Raised P) :
    sendTo r request result ≠ .unexpected := by
  cases result with
  | error e => cases e <;> exact fun same => by cases same
  | ok provider =>
    unfold sendTo
    cases countedTokens r request.toMessagesRequest <;> exact fun same => by cases same

theorem plainAnswer_ne_unexpected (uuid : Str) (body : MessagesBody) : plainAnswer r settings uuid body ≠ .unexpected := by
  obtain ⟨request, mapped, -⟩ := mapModel_mapped r settings body
  rw [plainAnswer_eq r settings mapped uuid]
  split_ifs
  · exact fun same => by unfold emptyMessages at same; cases same
  · generalize tryOptimizations r.lower settings.toSettingsValues request.toMessagesRequest uuid = optimized
    cases optimized with
    | some response => exact fun same => by cases same
    | none => exact sendTo_ne_unexpected r request _

/-- The registry is not seen in the answers: each is that of the settings and the request, a forwarded one goes to a
    provider of the type in the configured model, and to the same one until a cleanup comes to its end. -/
theorem messages_routed {g : Gateway} (reached : (gateway r settings).Reachable g) (uuid : Str) (body : MessagesBody) :
    let sent := createMessage r settings g uuid body
    sent.1.map ProviderObject.toDestination = plainAnswer r settings uuid body ∧ sent.1 ≠ .unexpected ∧
    ((∃ provider request inputTokens, sent.1 = .stream provider request inputTokens) ↔ Forwarded r settings uuid body) ∧
    ∀ provider request inputTokens, sent.1 = .stream provider request inputTokens →
      configuredType r settings body ++ '/' :: request.model ∈ settings.configuredModels ∧
      destinationFor r settings (configuredType r settings body) = .ok provider.toDestination ∧
      countTokens r settings body.toMessagesRequest = some (.ok inputTokens) ∧
      (provider.number ∈ g.closed → g.HalfClosed) ∧
      ∀ actions later, (gateway r settings).run sent.2 actions = some later →
        later.retired.length = sent.2.retired.length →
        ∀ uuid' body' provider' request' inputTokens',
          (createMessage r settings later uuid' body').1 = .stream provider' request' inputTokens' →
          (provider' = provider ↔ configuredType r settings body' = configuredType r settings body) := by
  intro sent
  have sound := sound_of_reachable reached
  have answered : Answered r settings body uuid g sent := createMessage_answered sound uuid body
  refine ⟨answered.agrees, ?_, ?_, ?_⟩
  · intro unexpected
    have plain := plainAnswer_ne_unexpected r settings uuid body
    rw [← answered.agrees, unexpected] at plain
    exact plain rfl
  · rw [← plainAnswer_stream_iff, ← answered.agrees, stream_map_iff]
  · intro provider request inputTokens streamed
    obtain ⟨spec, there, counted⟩ := answered.handed provider request inputTokens streamed
    rw [spec.target] at there
    refine ⟨?_, (answered.sound.registered _ _ there).1, ?_, ?_, ?_⟩
    · rw [spec.joined]
      exact resolveModel_configured r.lower settings.toSettingsValues _
    · have same : countedTokens r request.toMessagesRequest = countedTokens r body.toMessagesRequest := by
        rw [countedTokens, countedTokens, spec.messages, spec.system, spec.tools]
      rw [countTokens_eq, ← same, counted]
    · intro closed
      rw [← answered.undisturbed.closed] at closed
      exact answered.undisturbed.halfClosed (answered.sound.usable _ _ there closed)
    · intro actions later ran same uuid' body' provider' request' inputTokens' streamed'
      have kept := run_kept answered.sound ran same there
      have answered' := createMessage_answered (run_retired answered.sound ran).1 uuid' body'
      obtain ⟨spec', there', -⟩ := answered'.handed provider' request' inputTokens' streamed'
      have still := answered'.kept _ _ kept
      rw [spec'.target] at there'
      constructor
      · intro same
        exact answered'.sound.distinct _ _ _ _ there' still (congrArg ProviderObject.number same)
      · intro same
        rw [same, still] at there'
        exact (Option.some.inj there').symm

end Runs

def localSettings : Settings where
  toSettingsValues := { SettingsValues.default with
    model := "lmstudio/qwen/small".toList
    modelOpus := some "llamacpp/large".toList }
  models_known := by decide
  device_known := by decide
  voice_key := by decide

def localServices : Services := ⟨lower, perCharacter, fun _ => none, fun _ _ _ => []⟩

def greeting (model : String) : MessagesBody :=
  ⟨⟨model.toList, none, [⟨.user, .text "hello".toList⟩], none, none, none, none, none, none⟩, none, some "openai/gpt".toList⟩

/-- After a message for Sonnet a cleanup has closed its provider and is not through. -/
def halfCleaned : Gateway :=
  cleanupProvider (createMessage localServices localSettings (gateway localServices localSettings).init
    "1".toList (greeting "claude-sonnet")).2

/-- A message for Opus then goes to a provider of its own. -/
theorem messages_routed_local :
    let sent := createMessage localServices localSettings halfCleaned "2".toList (greeting "claude-opus")
    ∃ provider request inputTokens, sent.1 = .stream provider request inputTokens ∧
      configuredType localServices localSettings (greeting "claude-opus") ++ '/' :: request.model = "llamacpp/large".toList ∧
      provider.number = 1 ∧ halfCleaned.closed = [0] ∧
      countTokens localServices localSettings (greeting "claude-opus").toMessagesRequest = some (.ok inputTokens) := by
  intro sent
  have reached : (gateway localServices localSettings).Reachable halfCleaned :=
    .step (.step .init trivial (a := .message "1".toList (greeting "claude-sonnet")) rfl) trivial (a := .cleanup) rfl
  obtain ⟨-, -, -, routed⟩ := messages_routed localServices localSettings reached "2".toList (greeting "claude-opus")
  cases answer : sent.1 with
  | stream provider request inputTokens =>
    obtain ⟨among, -, counted, -, -⟩ := routed provider request inputTokens answer
    have number : (match sent.1 with | .stream provider _ _ => provider.number | _ => 0) = 1 := by decide +kernel
    have model : (match sent.1 with | .stream _ request _ => request.model | _ => []) = "large".toList := by decide +kernel
    rw [answer] at number model
    refine ⟨provider, request, inputTokens, rfl, ?_, number, by decide +kernel, counted⟩
    rw [show request.model = "large".toList from model]
    decide +kernel
  | response | providerError | httpError | unexpected =>
    have streamed : (match sent.1 with | .stream _ _ _ => true | _ => false) = true := by decide +kernel
    rw [answer] at streamed
    cases streamed

/-- One for Sonnet goes to the closed provider while the cleanup goes on. -/
example : (match (createMessage localServices localSettings halfCleaned "2".toList (greeting "claude-sonnet")).1 with
    | .stream provider _ _ => provider.number
    | _ => 1) = 0 := by decide +kernel

end ClaudeProxy.Api

import Mathlib.Data.List.DropRight
import ClaudeProxy.Api.Detection
import ClaudeProxy.Api.RequestUtils
import ClaudeProxy.Kit.Dict
import ClaudeProxy.Providers.ConcurrencySlot
import ClaudeProxy.Providers.ErrorMapping

namespace ClaudeProxy.Api

open Kit Providers

/-- What the routes rely on beyond the source. -/
structure Services where
  lower : Str → Str
  tokenizer : Tokenizer
  /-- What constructing a client for the base URL raises. -/
  clientError : Str → Option Str
  /-- The text of what `get_token_count` raises. -/
  countError : List Message → Option SystemPrompt → Option (List Tool) → Str

/-- The models that `MessagesRequest` accepts from a client and sets itself. -/
structure MessagesBody extends MessagesRequest where
  originalModel : Option Str
  resolvedProviderModel : Option Str

structure ProviderConfig where
  apiKey : Str
  baseUrl : Str
  rateLimit : Int
  rateWindow : Int
  maxConcurrency : Int
  httpReadTimeout : ℚ
  httpWriteTimeout : ℚ
  httpConnectTimeout : ℚ

inductive ProviderClass where
  | nvidiaNim
  | openRouter
  | lmStudio
  | llamaCpp
deriving DecidableEq

def ProviderClass.defaultBaseUrl : ProviderClass → Str
  | .nvidiaNim => "https://integrate.api.nvidia.com/v1".toList
  | .openRouter => "https://openrouter.ai/api/v1".toList
  | .lmStudio => "http://localhost:1234/v1".toList
  | .llamaCpp => "http://localhost:8080/v1".toList

def ProviderClass.providerName : ProviderClass → Str
  | .nvidiaNim => "NIM".toList
  | .openRouter => "OPENROUTER".toList
  | .lmStudio => "LMSTUDIO".toList
  | .llamaCpp => "LLAMACPP".toList

/-- A provider but for its identity. -/
structure Destination where
  cls : ProviderClass
  config : ProviderConfig
  providerName : Str
  baseUrl : Str

structure ProviderObject extends Destination where
  number : Nat

inductive Raised where
  | exception (e : PyException)
  | http (statusCode : Nat) (detail : Str)

/-- `text.rstrip("/")` -/
def rstripSlash (text : Str) : Str := text.rdropWhile (· = '/')

def providerConfig (settings : SettingsValues) (apiKey baseUrl : Str) : ProviderConfig where
  apiKey := apiKey
  baseUrl := baseUrl
  rateLimit := settings.providerRateLimit
  rateWindow := settings.providerRateWindow
  maxConcurrency := settings.providerMaxConcurrency
  httpReadTimeout := settings.httpReadTimeout
  httpWriteTimeout := settings.httpWriteTimeout
  httpConnectTimeout := settings.httpConnectTimeout

def authenticationError (message : String) : Raised := .exception ⟨.authentication, message.toList⟩

/-- The branches of `_create_provider_for_type`. -/
def providerChoice (settings : SettingsValues) (providerType : Str) : Except Raised (ProviderClass × ProviderConfig) :=
  if providerType = "nvidia_nim".toList then
    if strip settings.nvidiaNimApiKey = [] then
      .error (authenticationError ("NVIDIA_NIM_API_KEY is not set. Add it to your .env file. " ++
        "Get a key at https://build.nvidia.com/settings/api-keys"))
    else .ok (.nvidiaNim, providerConfig settings settings.nvidiaNimApiKey ProviderClass.nvidiaNim.defaultBaseUrl)
  else if providerType = "open_router".toList then
    if strip settings.openRouterApiKey = [] then
      .error (authenticationError ("OPENROUTER_API_KEY is not set. Add it to your .env file. " ++
        "Get a key at https://openrouter.ai/keys"))
    else .ok (.openRouter, providerConfig settings settings.openRouterApiKey ProviderClass.openRouter.defaultBaseUrl)
  else if providerType = "lmstudio".toList then
    .ok (.lmStudio, providerConfig settings "lm-studio".toList settings.lmStudioBaseUrl)
  else if providerType = "llamacpp".toList then
    .ok (.llamaCpp, providerConfig settings "llamacpp".toList settings.llamacppBaseUrl)
  else
    .error (.exception ⟨.other, "Unknown provider_type: '".toList ++ providerType ++
      "'. Supported: 'nvidia_nim', 'open_router', 'lmstudio', 'llamacpp'".toList⟩)

inductive CleanupState where
  | running
  /-- By an exception, or cancelled. -/
  | raised
  | finished
deriving DecidableEq

/-- A call of `cleanup_provider`: the registry that it goes through, the size at its start and how far it is. -/
structure Cleanup where
  registry : Nat
  size : Nat
  position : Nat
  state : CleanupState

/-- The provider registry and the singleton limiter. -/
structure Gateway where
  providers : Dict Str ProviderObject
  /-- The registries that `_providers` named before, in order. -/
  retired : List (Dict Str ProviderObject)
  limiter : Option LimiterInstance
  /-- The number of the next provider. -/
  created : Nat
  /-- The providers whose `cleanup` has been called. -/
  closed : List Nat
  cleanups : List Cleanup

def ProviderClass.destination (cls : ProviderClass) (config : ProviderConfig) : Destination :=
  ⟨cls, config, cls.providerName, rstripSlash (if config.baseUrl = [] then cls.defaultBaseUrl else config.baseUrl)⟩

def createLimiter (config : ProviderConfig) : Except String LimiterInstance :=
  LimiterInstance.create (some config.rateLimit) (some config.rateWindow) config.maxConcurrency

inductive Answer (P : Type) where
  | response (response : MessagesResponse)
  | stream (provider : P) (request : MessagesBody) (inputTokens : Nat)
  /-- `provider_error_handler` -/
  | providerError (statusCode : Nat) (errorType message : Str)
  | httpError (statusCode : Nat) (detail : Str)
  /-- `general_error_handler` -/
  | unexpected

def Answer.map {P Q : Type} (f : P → Q) : Answer P → Answer Q
  | .response answered => .response answered
  | .stream provider request inputTokens => .stream (f provider) request inputTokens
  | .providerError statusCode errorType message => .providerError statusCode errorType message
  | .httpError statusCode detail => .httpError statusCode detail
  | .unexpected => .unexpected

section Routes

variable (r : Services) (settings : Settings)

/-- The constructors of the providers: the limiter, then the client. -/
def construct (cls : ProviderClass) (config : ProviderConfig) (g : Gateway) : Except Raised ProviderObject × Gateway :=
  let destination := cls.destination config
  match g.limiter.elim (createLimiter config) .ok with
  | .error message => (.error (.exception ⟨.other, message.toList⟩), g)
  | .ok limiter =>
    let g := { g with limiter := some limiter }
    match r.clientError destination.baseUrl with
    | some text => (.error (.exception ⟨.other, text⟩), g)
    | none => (.ok ⟨destination, g.created⟩, { g with created := g.created + 1 })

def createProviderForType (providerType : Str) (g : Gateway) : Except Raised ProviderObject × Gateway :=
  match providerChoice settings.toSettingsValues providerType with
  | .error e => (.error e, g)
  | .ok (cls, config) => construct r cls config g

/-- An `AuthenticationError` is answered with 503. -/
def serviceUnavailable : Raised → Raised
  | .exception ⟨.authentication, text⟩ => .http 503 (getUserFacingErrorMessage ⟨.authentication, text⟩ none)
  | e => e

def getProviderForType (providerType : Str) (g : Gateway) : Except Raised ProviderObject × Gateway :=
  match g.providers.get? providerType with
  | some provider => (.ok provider, g)
  | none =>
    match createProviderForType r settings providerType g with
    | (.error e, g) => (.error (serviceUnavailable e), g)
    | (.ok provider, g) => (.ok provider, { g with providers := g.providers.set providerType provider })

def getProvider (g : Gateway) : Except Raised ProviderObject × Gateway :=
  getProviderForType r settings (parseProviderType settings.model) g

/-- `map_model`; `none` is an `IndexError`. -/
def mapModel (body : MessagesBody) : Option MessagesBody :=
  let originalModel := body.originalModel.getD body.model
  let resolvedFull := settings.resolveModel r.lower originalModel
  (parseModelName resolvedFull).map fun model =>
    { body with model := model, originalModel := some originalModel, resolvedProviderModel := some resolvedFull }

/-- The `except Exception` of the route. -/
def Raised.answer {P : Type} : Raised → Answer P
  | .exception e => .httpError 500 (getUserFacingErrorMessage e none)
  | .http statusCode detail =>
    .httpError statusCode (getUserFacingErrorMessage ⟨.other, (toString statusCode).toList ++ ": ".toList ++ detail⟩ none)

/-- The tokens of the request, or the detail of the error. -/
def countedTokens (request : MessagesRequest) : Except Str Nat :=
  match getTokenCount r.tokenizer.count request.messages request.system request.tools with
  | none =>
    .error (getUserFacingErrorMessage ⟨.other, r.countError request.messages request.system request.tools⟩ none)
  | some inputTokens => .ok inputTokens

/-- The route once it has a provider. -/
def sendTo {P : Type} (request : MessagesBody) : Except Raised P → Answer P
  | .error e => e.answer
  | .ok provider =>
    match countedTokens r request.toMessagesRequest with
    | .error detail => .httpError 500 detail
    | .ok inputTokens => .stream provider request inputTokens

def targetType (request : MessagesBody) : Str :=
  parseProviderType ((request.resolvedProviderModel.filter (· ≠ [])).getD settings.model)

def emptyMessages {P : Type} : Answer P :=
  .providerError 400 "invalid_request_error".toList "messages cannot be empty".toList

def createMessage (g : Gateway) (uuid : Str) (body : MessagesBody) : Answer ProviderObject × Gateway :=
  match mapModel r settings body with
  | none => (.unexpected, g)
  | some request =>
    if request.messages = [] then (emptyMessages, g)
    else
      match tryOptimizations r.lower settings.toSettingsValues request.toMessagesRequest uuid with
      | some response => (.response response, g)
      | none =>
        let (provider, g) := getProviderForType r settings (targetType settings request) g
        (sendTo r request provider, g)

/-- `count_tokens`; `none` is an `IndexError` of the model's validator, an error a 500. -/
def countTokens (request : MessagesRequest) : Option (Except Str Nat) :=
  (parseModelName (settings.resolveModel r.lower request.model)).map fun model =>
    countedTokens r { request with model := model }

end Routes

def Gateway.registry (g : Gateway) (n : Nat) : Dict Str ProviderObject := (g.retired ++ [g.providers]).getD n .empty

/-- From one `await` of `cleanup_provider` to the next, or to its end. -/
def Cleanup.advance (cleanup : Cleanup) (g : Gateway) : Cleanup × Gateway :=
  let values := (g.registry cleanup.registry).values
  -- An iterator refuses a dictionary that has grown since, also once it is through.
  if values.length ≠ cleanup.size then ({ cleanup with state := .raised }, g)
  else
    match values[cleanup.position]? with
    | some provider => ({ cleanup with position := cleanup.position + 1 }, { g with closed := g.closed ++ [provider.number] })
    | none =>
      ({ cleanup with state := .finished }, { g with providers := .empty, retired := g.retired ++ [g.providers] })

/-- A call of `cleanup_provider`, up to its first `await`. -/
def cleanupProvider (g : Gateway) : Gateway :=
  let reached := Cleanup.advance ⟨g.retired.length, g.providers.values.length, 0, .running⟩ g
  { reached.2 with cleanups := g.cleanups ++ [reached.1] }

/-- The `provider.cleanup()` that a call of `cleanup_provider` awaits is over. -/
def resumeCleanup (index : Nat) (raises : Bool) (g : Gateway) : Option Gateway :=
  match g.cleanups[index]? with
  | none => none
  | some cleanup =>
    if cleanup.state ≠ .running then none
    else if raises then some { g with cleanups := g.cleanups.set index { cleanup with state := .raised } }
    else
      let reached := cleanup.advance g
      some { reached.2 with cleanups := g.cleanups.set index reached.1 }

end ClaudeProxy.Api

import Mathlib.Data.List.TakeWhile
import Mathlib.Data.Rat.Defs
import ClaudeProxy.Kit.PyRepr
import ClaudeProxy.Kit.Search
import ClaudeProxy.Providers.HeuristicToolParser

namespace ClaudeProxy.Api

open Kit Providers

/-- The settings that the message routes read, as they come from the environment. -/
structure SettingsValues where
  openRouterApiKey : Str
  nvidiaNimApiKey : Str
  lmStudioBaseUrl : Str
  llamacppBaseUrl : Str
  model : Str
  modelOpus : Option Str
  modelSonnet : Option Str
  modelHaiku : Option Str
  providerRateLimit : Int
  providerRateWindow : Int
  providerMaxConcurrency : Int
  httpReadTimeout : ℚ
  httpWriteTimeout : ℚ
  httpConnectTimeout : ℚ
  fastPrefixDetection : Bool
  enableNetworkProbeMock : Bool
  enableTitleGenerationSkip : Bool
  enableSuggestionModeSkip : Bool
  enableFilepathExtractionMock : Bool
  voiceNoteEnabled : Bool
  whisperDevice : Str

def SettingsValues.default : SettingsValues where
  openRouterApiKey := []
  nvidiaNimApiKey := []
  lmStudioBaseUrl := "http://localhost:1234/v1".toList
  llamacppBaseUrl := "http://localhost:8080/v1".toList
  model := "nvidia_nim/meta/llama3-70b-instruct".toList
  modelOpus := none
  modelSonnet := none
  modelHaiku := none
  providerRateLimit := 40
  providerRateWindow := 60
  providerMaxConcurrency := 5
  httpReadTimeout := 300
  httpWriteTimeout := 10
  httpConnectTimeout := 2
  fastPrefixDetection := true
  enableNetworkProbeMock := true
  enableTitleGenerationSkip := true
  enableSuggestionModeSkip := true
  enableFilepathExtractionMock := true
  voiceNoteEnabled := true
  whisperDevice := "cpu".toList

def validProviders : List Str := ["nvidia_nim", "open_router", "lmstudio", "llamacpp"].map String.toList

def whisperDevices : List Str := ["cpu", "cuda", "nvidia_nim"].map String.toList

/-- `model_string.split("/", 1)[0]` -/
def parseProviderType (modelString : Str) : Str := modelString.takeWhile (· ≠ '/')

/-- `model_string.split("/", 1)[1]`, an `IndexError` where there is no slash. -/
def parseModelName (modelString : Str) : Option Str :=
  match modelString.dropWhile (· ≠ '/') with
  | [] => none
  | _ :: name => some name

def validateModelFormat : Option Str → Except Str (Option Str)
  | none => .ok none
  | some v =>
    if '/' ∉ v then
      .error ("Model must be prefixed with provider type. Valid providers: nvidia_nim, open_router, lmstudio, llamacpp. ".toList ++
        "Format: provider_type/model/name".toList)
    else if parseProviderType v ∉ validProviders then
      .error ("Invalid provider: '".toList ++ parseProviderType v ++
        "'. Supported: 'nvidia_nim', 'open_router', 'lmstudio', 'llamacpp'".toList)
    else .ok (some v)

def validateWhisperDevice (t : PyText) (v : Str) : Except Str Str :=
  if v ∈ whisperDevices then .ok v
  else .error ("whisper_device must be 'cpu', 'cuda', or 'nvidia_nim', got ".toList ++ t.reprString v)

namespace SettingsValues

variable (values : SettingsValues)

def checkNvidiaNimApiKey : Except Str Unit :=
  if values.voiceNoteEnabled ∧ values.whisperDevice = "nvidia_nim".toList ∧ strip values.nvidiaNimApiKey = [] then
    .error ("NVIDIA_NIM_API_KEY is required when WHISPER_DEVICE is 'nvidia_nim'. Set it in your .env file.".toList)
  else .ok ()

def errorOf {α : Type} : Except Str α → List Str
  | .error message => [message]
  | .ok _ => []

/-- The messages of the field validators. -/
def fieldErrors (t : PyText) : List Str :=
  errorOf (validateModelFormat (some values.model)) ++ errorOf (validateModelFormat values.modelOpus) ++
    errorOf (validateModelFormat values.modelSonnet) ++ errorOf (validateModelFormat values.modelHaiku) ++
    errorOf (validateWhisperDevice t values.whisperDevice)

def configuredModels : List Str :=
  values.model :: (values.modelOpus.toList ++ values.modelSonnet.toList ++ values.modelHaiku.toList)

end SettingsValues

/-- A text that names one of the providers and then a model. -/
def KnownModel (modelString : Str) : Prop := '/' ∈ modelString ∧ parseProviderType modelString ∈ validProviders

instance (modelString : Str) : Decidable (KnownModel modelString) :=
  inferInstanceAs (Decidable ('/' ∈ modelString ∧ parseProviderType modelString ∈ validProviders))

/-- Settings that have passed their validators. -/
structure Settings extends SettingsValues where
  models_known : ∀ modelString ∈ toSettingsValues.configuredModels, KnownModel modelString
  device_known : whisperDevice ∈ whisperDevices
  voice_key : voiceNoteEnabled = true → whisperDevice = "nvidia_nim".toList → strip nvidiaNimApiKey ≠ []

theorem errorOf_validateModelFormat (v : Option Str) :
    SettingsValues.errorOf (validateModelFormat v) = [] ↔ ∀ modelString ∈ v, KnownModel modelString := by
  cases v with
  | none => simp [validateModelFormat, SettingsValues.errorOf]
  | some v =>
    simp only [validateModelFormat, Option.mem_def, Option.some.injEq, forall_eq', KnownModel]
    by_cases slash : '/' ∈ v
    · by_cases known : parseProviderType v ∈ validProviders
      · simp [SettingsValues.errorOf, slash, known]
      · simp [SettingsValues.errorOf, slash, known]
    · simp [SettingsValues.errorOf, slash]

theorem errorOf_validateWhisperDevice (t : PyText) (v : Str) :
    SettingsValues.errorOf (validateWhisperDevice t v) = [] ↔ v ∈ whisperDevices := by
  unfold validateWhisperDevice
  split_ifs with known
  · simp [SettingsValues.errorOf, known]
  · simp [SettingsValues.errorOf, known]

theorem fieldErrors_eq_nil (t : PyText) (values : SettingsValues) :
    values.fieldErrors t = [] ↔
      (∀ modelString ∈ values.configuredModels, KnownModel modelString) ∧ values.whisperDevice ∈ whisperDevices := by
  unfold SettingsValues.fieldErrors SettingsValues.configuredModels
  simp only [List.append_eq_nil_iff, errorOf_validateModelFormat, errorOf_validateWhisperDevice, List.forall_mem_cons,
    List.forall_mem_append, Option.mem_toList, Option.mem_def, Option.some.injEq, forall_eq', and_assoc]

/-- `Settings(...)`: the model validator runs only where no field is refused. -/
def SettingsValues.validate (t : PyText) (values : SettingsValues) : Except (List Str) Settings :=
  if fields : values.fieldErrors t = [] then
    match key : values.checkNvidiaNimApiKey with
    | .error message => .error [message]
    | .ok () =>
      have known := (fieldErrors_eq_nil t values).mp fields
      .ok { values with
        models_known := known.1
        device_known := known.2
        voice_key := fun enabled device blank => by
          have refused : values.checkNvidiaNimApiKey = .error _ := if_pos ⟨enabled, device, blank⟩
          rw [key] at refused
          cases refused }
  else .error (values.fieldErrors t)

theorem validate_toSettingsValues {t : PyText} {values : SettingsValues} {settings : Settings}
    (accepted : values.validate t = .ok settings) : settings.toSettingsValues = values := by
  unfold SettingsValues.validate at accepted
  split at accepted
  · split at accepted
    · cases accepted
    · cases accepted
      rfl
  · cases accepted

theorem default_known : ∀ modelString ∈ SettingsValues.default.configuredModels, KnownModel modelString := by decide

/-- `Settings()` without an environment. -/
def Settings.default : Settings where
  toSettingsValues := SettingsValues.default
  models_known := default_known
  device_known := by decide
  voice_key := by decide

/-- The texts a validator lets pass are cut into a provider and a model that give the text again. -/
theorem KnownModel.cut {modelString : Str} (known : KnownModel modelString) :
    ∃ name, parseModelName modelString = some name ∧ parseProviderType modelString ++ '/' :: name = modelString := by
  have slash := known.1
  have split : modelString.takeWhile (· ≠ '/') ++ modelString.dropWhile (· ≠ '/') = modelString :=
    List.takeWhile_append_dropWhile
  unfold parseModelName parseProviderType
  cases tail : modelString.dropWhile (· ≠ '/') with
  | nil =>
    have clean := List.dropWhile_eq_nil_iff.mp tail '/' slash
    simp at clean
  | cons c name =>
    have stops := List.head?_dropWhile_not (fun c : Char => decide (c ≠ '/')) modelString
    rw [tail] at stops
    have here : c = '/' := by simpa using stops
    rw [tail, here] at split
    exact ⟨name, rfl, split⟩

/-- `word in text` -/
def mentions (word : String) (text : Str) : Bool := (find word.toList text).isSome

/-- `resolve_model`, with `str.lower`. -/
def SettingsValues.resolveModel (lower : Str → Str) (values : SettingsValues) (claudeModelName : Str) : Str :=
  let nameLower := lower claudeModelName
  if mentions "opus" nameLower ∧ values.modelOpus.isSome then values.modelOpus.getD []
  else if mentions "haiku" nameLower ∧ values.modelHaiku.isSome then values.modelHaiku.getD []
  else if mentions "sonnet" nameLower ∧ values.modelSonnet.isSome then values.modelSonnet.getD []
  else values.model

theorem resolveModel_configured (lower : Str → Str) (values : SettingsValues) (claudeModelName : Str) :
    values.resolveModel lower claudeModelName ∈ values.configuredModels := by
  have given : ∀ chosen : Option Str, chosen.isSome = true → chosen.getD [] ∈ chosen.toList := by
    intro chosen some
    cases chosen with
    | none => cases some
    | some v => simp
  unfold SettingsValues.resolveModel SettingsValues.configuredModels
  dsimp only
  split_ifs with opus haiku sonnet
  · exact List.mem_cons_of_mem _ (List.mem_append_left _ (List.mem_append_left _ (given _ opus.2)))
  · exact List.mem_cons_of_mem _ (List.mem_append_right _ (given _ haiku.2))
  · exact List.mem_cons_of_mem _ (List.mem_append_left _ (List.mem_append_right _ (given _ sonnet.2)))
  · exact List.mem_cons_self ..

theorem Settings.resolveModel_known (lower : Str → Str) (settings : Settings) (claudeModelName : Str) :
    KnownModel (settings.resolveModel lower claudeModelName) :=
  settings.models_known _ (resolveModel_configured lower settings.toSettingsValues claudeModelName)

end ClaudeProxy.Api

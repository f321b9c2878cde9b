import Mathlib.Data.Rat.Floor
import ClaudeProxy.Api.Rbac
import ClaudeProxy.Kit.Base64
import ClaudeProxy.Kit.JsonKeys
import ClaudeProxy.Kit.PyRepr

namespace ClaudeProxy.Api

open Kit Providers

def utf8Encode (text : Str) : Bytes := text.flatMap String.utf8EncodeChar

def utf8Decode? (bytes : Bytes) : Option Str := bytes.toByteArray.utf8Decode?.map Array.toList

theorem utf8Decode?_utf8Encode (text : Str) : utf8Decode? (utf8Encode text) = some text := by
  show text.utf8Encode.utf8Decode?.map Array.toList = some text
  rw [List.utf8Decode?_utf8Encode]
  rfl

/-- `int` of a time in seconds -/
def wholeSeconds (time : ℚ) : Int := if 0 ≤ time then ⌊time⌋ else ⌈time⌉

/-- The reasons for a status code 400. -/
inductive StateError where
  | format
  | signature
  | payload
  | payloadType
  | provider
  | expiration
  | expired
  | workspace
deriving DecidableEq

/-- What the detail starts with; the text of the exception follows in the first and the third. -/
def StateError.detail : StateError → Str
  | .format => "invalid oauth state format: ".toList
  | .signature => "invalid oauth state signature".toList
  | .payload => "invalid oauth state payload: ".toList
  | .payloadType => "invalid oauth state payload type".toList
  | .provider => "invalid oauth state provider".toList
  | .expiration => "invalid oauth state expiration".toList
  | .expired => "oauth state has expired".toList
  | .workspace => "invalid oauth state workspace".toList

/-- `urlsafe_b64encode(…).decode("ascii").rstrip("=")` -/
def tokenOf (bytes : Bytes) : Str := (Base64.encode bytes).rdropWhile (· = '=')

/-- `urlsafe_b64decode` of the token with its padding made up for -/
def bytesOf? (token : Str) : Option Bytes :=
  if token.all (·.toNat < 128) then Base64.decode (token ++ Base64.padding token.length) else none

def splitState? (state : Str) : Option (Str × Str) :=
  if '.' ∈ state then some (state.takeWhile (· ≠ '.'), (state.dropWhile (· ≠ '.')).tail) else none

def readState? (state : Str) : Option (Bytes × Bytes) := do
  let (payloadToken, signatureToken) ← splitState? state
  let payloadBytes ← bytesOf? payloadToken
  let signature ← bytesOf? signatureToken
  return (payloadBytes, signature)

/-- `isinstance(value, int)` -/
def intOf? : Json → Option Int
  | .integer value => some value
  | .bool value => some (if value then 1 else 0)
  | _ => none

/-- `str(payload.get("provider") or "")` -/
def providerOf [PyText] (payload : List (Str × Json)) : Str :=
  let provider := Json.get payload "provider" .null
  if provider.isTruthy then provider.str else []

section State

/- `mac` is HMAC-SHA256 of a key and a message. -/
variable (mac : Bytes → Bytes → Bytes) (secret : Bytes)

def payloadBytes (payload : List (Str × Json)) : Bytes := utf8Encode ((Json.object payload).sortKeys.dumpsWith [])

def encodeStatePayload (payload : List (Str × Json)) : Str :=
  tokenOf (payloadBytes payload) ++ '.' :: tokenOf (mac secret (payloadBytes payload))

def decodeStatePayload (state : Str) : Except StateError (List (Str × Json)) :=
  match readState? state with
  | none => .error .format
  | some (payloadBytes, signature) =>
    if signature ≠ mac secret payloadBytes then .error .signature
    else
      match (utf8Decode? payloadBytes).bind Json.loads with
      | none => .error .payload
      | some (.object data) => .ok data
      | some _ => .error .payloadType

def statePayload (provider : Str) (workspaceId : Int) (nonce : Str) (time : ℚ) (ttlSeconds : Int) : List (Str × Json) :=
  [("provider".toList, .string provider), ("workspace_id".toList, .integer workspaceId), ("nonce".toList, .string nonce),
    ("iat".toList, .integer (wholeSeconds time)), ("exp".toList, .integer (wholeSeconds time + ttlSeconds))]

def buildOauthState (provider : Str) (workspaceId : Int) (nonce : Str) (time : ℚ) (ttlSeconds : Int) : Str :=
  encodeStatePayload mac secret (statePayload provider workspaceId nonce time ttlSeconds)

def validateOauthState [PyText] (time : ℚ) (state provider : Str) : Except StateError (List (Str × Json)) := do
  let payload ← decodeStatePayload mac secret state
  if providerOf payload ≠ provider then .error .provider
  else
    match intOf? (Json.get payload "exp" .null) with
    | none => .error .expiration
    | some exp =>
      if exp < wholeSeconds time then .error .expired
      else
        match intOf? (Json.get payload "workspace_id" .null) with
        | none => .error .workspace
        | some _ => .ok payload

end State

/-- The signature part decodes to the MAC of the bytes that are read as the payload. -/
def Authentic (mac : Bytes → Bytes → Bytes) (secret : Bytes) (state : Str) (payload : List (Str × Json)) : Prop :=
  ∃ payloadToken signatureToken payloadBytes text, state = payloadToken ++ '.' :: signatureToken ∧ '.' ∉ payloadToken ∧
    bytesOf? payloadToken = some payloadBytes ∧ bytesOf? signatureToken = some (mac secret payloadBytes) ∧
    utf8Decode? payloadBytes = some text ∧ Json.loads text = some (.object payload)

section Tokens

theorem bytesOf?_tokenOf (bytes : Bytes) : bytesOf? (tokenOf bytes) = some bytes := by
  unfold bytesOf? tokenOf
  rw [Base64.rdropWhile_encode]
  have ascii : (Base64.digits bytes).all (·.toNat < 128) = true := by
    rw [List.all_eq_true]
    intro c mem
    exact decide_eq_true (Base64.digits_plain bytes c mem).2.2
  rw [if_pos ascii]
  exact Base64.decode_encode bytes

theorem stop_not_mem_tokenOf (bytes : Bytes) : '.' ∉ tokenOf bytes := by
  unfold tokenOf
  rw [Base64.rdropWhile_encode]
  intro mem
  exact (Base64.digits_plain bytes '.' mem).2.1 rfl

theorem splitState?_append {payloadToken : Str} (plain : '.' ∉ payloadToken) (signatureToken : Str) :
    splitState? (payloadToken ++ '.' :: signatureToken) = some (payloadToken, signatureToken) := by
  have before : ∀ c ∈ payloadToken, decide (c ≠ '.') = true := fun c mem => decide_eq_true fun same => plain (same ▸ mem)
  have there : '.' ∈ payloadToken ++ '.' :: signatureToken := by simp
  rw [splitState?, if_pos there, List.takeWhile_append_of_pos before, List.dropWhile_append_of_pos before]
  simp

theorem splitState?_eq {state payloadToken signatureToken : Str}
    (split : splitState? state = some (payloadToken, signatureToken)) :
    state = payloadToken ++ '.' :: signatureToken ∧ '.' ∉ payloadToken := by
  unfold splitState? at split
  split_ifs at split with there
  obtain ⟨rfl, rfl⟩ := Prod.ext_iff.mp (Option.some.inj split)
  have whole : state.takeWhile (· ≠ '.') ++ state.dropWhile (· ≠ '.') = state := List.takeWhile_append_dropWhile
  have rest : state.dropWhile (· ≠ '.') ≠ [] := by
    intro none
    have all := List.dropWhile_eq_nil_iff.mp none '.' there
    simp at all
  obtain ⟨c, more, shape⟩ := List.exists_cons_of_ne_nil rest
  have stop : c = '.' := by
    have head := List.head_dropWhile_not (· ≠ '.') rest
    have same : (state.dropWhile (· ≠ '.')).head rest = c := by simp only [shape, List.head_cons]
    rw [same] at head
    simpa using head
  constructor
  · rw [shape, stop] at whole
    rw [shape, List.tail_cons]
    exact whole.symm
  · intro mem
    simpa using List.mem_takeWhile_imp mem

end Tokens

section State

variable (mac : Bytes → Bytes → Bytes) (secret : Bytes)

theorem readState?_encode (payload : List (Str × Json)) :
    readState? (encodeStatePayload mac secret payload) =
      some (payloadBytes payload, mac secret (payloadBytes payload)) := by
  unfold readState? encodeStatePayload
  rw [splitState?_append (stop_not_mem_tokenOf _)]
  simp only [Option.bind_eq_bind, Option.bind_some, bytesOf?_tokenOf]
  rfl

theorem decode_encode {payload : List (Str × Json)} (decoded : Json.Decoded (.object payload)) :
    decodeStatePayload mac secret (encodeStatePayload mac secret payload) = .ok (Json.sortedMembers payload) := by
  have text : (utf8Decode? (payloadBytes payload)).bind Json.loads = some (.object (Json.sortedMembers payload)) := by
    rw [payloadBytes, utf8Decode?_utf8Encode, Option.bind_some]
    exact Json.loads_dumpsWith (fun _ mem => absurd mem List.not_mem_nil) (Json.decoded_sortKeys _ decoded)
  unfold decodeStatePayload
  rw [readState?_encode]
  simp only [ne_eq, not_true_eq_false, if_false, text]

theorem authentic_of_decoded {state : Str} {payload : List (Str × Json)}
    (accepted : decodeStatePayload mac secret state = .ok payload) : Authentic mac secret state payload := by
  unfold decodeStatePayload at accepted
  split at accepted
  · cases accepted
  · rename_i bytes signature read
    split_ifs at accepted with forged
    have signed : signature = mac secret bytes := not_not.mp forged
    obtain ⟨⟨payloadToken, signatureToken⟩, split, rest⟩ := Option.bind_eq_some_iff.mp read
    obtain ⟨first, payloadRead, rest⟩ := Option.bind_eq_some_iff.mp rest
    obtain ⟨second, signatureRead, pair⟩ := Option.bind_eq_some_iff.mp rest
    obtain ⟨rfl, rfl⟩ := Prod.ext_iff.mp (Option.some.inj pair)
    obtain ⟨shape, plain⟩ := splitState?_eq split
    split at accepted
    · cases accepted
    · rename_i data loaded
      obtain ⟨text, utf8, json⟩ := Option.bind_eq_some_iff.mp loaded
      cases accepted
      exact ⟨payloadToken, signatureToken, first, text, shape, plain, payloadRead, signed ▸ signatureRead, utf8, json⟩
    · cases accepted

theorem decoded_of_validated [PyText] {time : ℚ} {state provider : Str} {payload : List (Str × Json)}
    (accepted : validateOauthState mac secret time state provider = .ok payload) :
    decodeStatePayload mac secret state = .ok payload := by
  unfold validateOauthState at accepted
  cases ends : decodeStatePayload mac secret state with
  | error e =>
    rw [ends] at accepted
    cases accepted
  | ok data =>
    rw [ends] at accepted
    simp only [bind, Except.bind] at accepted
    split_ifs at accepted
    split at accepted
    · cases accepted
    · split_ifs at accepted
      split at accepted
      · cases accepted
      · exact accepted

theorem get_statePayload (provider : Str) (workspaceId : Int) (nonce : Str) (time : ℚ) (ttlSeconds : Int) {key : String}
    {value : Json} (found : Json.getMember key.toList (statePayload provider workspaceId nonce time ttlSeconds) = some value)
    (scalar : value.sortKeys = value) (default : Json) :
    Json.get (Json.sortedMembers (statePayload provider workspaceId nonce time ttlSeconds)) key default = value := by
  have distinct : ((statePayload provider workspaceId nonce time ttlSeconds).map Prod.fst).Nodup := by
    show (["provider", "workspace_id", "nonce", "iat", "exp"].map String.toList).Nodup
    decide
  rw [Json.get, Json.getMember_sortedMembers distinct found, scalar]
  rfl

theorem validate_build [PyText] {provider : Str} {workspaceId : Int} {nonce : Str} {issued : ℚ} {ttlSeconds : Int}
    (decoded : Json.Decoded (.object (statePayload provider workspaceId nonce issued ttlSeconds))) (time : ℚ)
    (expected : Str) :
    validateOauthState mac secret time (buildOauthState mac secret provider workspaceId nonce issued ttlSeconds) expected =
      if provider ≠ expected then .error .provider
      else if wholeSeconds issued + ttlSeconds < wholeSeconds time then .error .expired
      else .ok (Json.sortedMembers (statePayload provider workspaceId nonce issued ttlSeconds)) := by
  have named : providerOf (Json.sortedMembers (statePayload provider workspaceId nonce issued ttlSeconds)) = provider := by
    rw [providerOf, get_statePayload provider workspaceId nonce issued ttlSeconds rfl rfl]
    cases provider <;> rfl
  have expires : Json.get (Json.sortedMembers (statePayload provider workspaceId nonce issued ttlSeconds)) "exp" .null =
      .integer (wholeSeconds issued + ttlSeconds) :=
    get_statePayload provider workspaceId nonce issued ttlSeconds rfl rfl _
  have workspace : Json.get (Json.sortedMembers (statePayload provider workspaceId nonce issued ttlSeconds))
      "workspace_id" .null = .integer workspaceId :=
    get_statePayload provider workspaceId nonce issued ttlSeconds rfl rfl _
  unfold validateOauthState buildOauthState
  rw [decode_encode mac secret decoded]
  simp only [bind, Except.bind, named, expires, workspace, intOf?]

theorem validate_build_ok [PyText] {provider : Str} {workspaceId : Int} {nonce : Str} {issued : ℚ} {ttlSeconds : Int}
    (decoded : Json.Decoded (.object (statePayload provider workspaceId nonce issued ttlSeconds))) (time : ℚ)
    (expected : Str) (payload : List (Str × Json)) :
    validateOauthState mac secret time (buildOauthState mac secret provider workspaceId nonce issued ttlSeconds) expected =
        .ok payload ↔
      payload = Json.sortedMembers (statePayload provider workspaceId nonce issued ttlSeconds) ∧ expected = provider ∧
        wholeSeconds time ≤ wholeSeconds issued + ttlSeconds := by
  rw [validate_build mac secret decoded]
  split_ifs with other late
  · simp [Ne.symm other]
  · simp [not_le.mpr late]
  · simp [not_not.mp other, not_lt.mp late, eq_comm]

end State

/-- Round trip, validity up to the second of expiry, and authenticity. -/
structure StateSound [PyText] (mac : Bytes → Bytes → Bytes) (secret : Bytes) : Prop where
  roundTrip : ∀ payload, Json.Decoded (.object payload) →
    ∃ data, decodeStatePayload mac secret (encodeStatePayload mac secret payload) = .ok data ∧
      Json.Same (.object data) (.object payload)
  valid : ∀ provider workspaceId nonce issued ttlSeconds time expected,
    Json.Decoded (.object (statePayload provider workspaceId nonce issued ttlSeconds)) →
      ((∃ payload, validateOauthState mac secret time
          (buildOauthState mac secret provider workspaceId nonce issued ttlSeconds) expected = .ok payload) ↔
        expected = provider ∧ wholeSeconds time ≤ wholeSeconds issued + ttlSeconds)
  workspace : ∀ provider workspaceId nonce issued ttlSeconds time expected payload,
    Json.Decoded (.object (statePayload provider workspaceId nonce issued ttlSeconds)) →
      validateOauthState mac secret time
          (buildOauthState mac secret provider workspaceId nonce issued ttlSeconds) expected = .ok payload →
        Json.getMember "workspace_id".toList payload = some (.integer workspaceId)
  authentic : ∀ state time expected payload, validateOauthState mac secret time state expected = .ok payload →
    Authentic mac secret state payload

theorem stateSound [PyText] (mac : Bytes → Bytes → Bytes) (secret : Bytes) : StateSound mac secret := by
  refine ⟨?_, ?_, ?_, ?_⟩
  · intro payload decoded
    exact ⟨_, decode_encode mac secret decoded, Json.same_sortKeys (.object payload)⟩
  · intro provider workspaceId nonce issued ttlSeconds time expected decoded
    simp only [validate_build_ok mac secret decoded, exists_eq_left]
  · intro provider workspaceId nonce issued ttlSeconds time expected payload decoded accepted
    obtain ⟨rfl, -⟩ := (validate_build_ok mac secret decoded time expected payload).mp accepted
    have found : Json.getMember "workspace_id".toList (statePayload provider workspaceId nonce issued ttlSeconds) =
        some (.integer workspaceId) := rfl
    rw [Json.Decoded] at decoded
    exact Json.getMember_sortedMembers decoded.1 found
  · intro state time expected payload accepted
    exact authentic_of_decoded mac secret (decoded_of_validated mac secret accepted)

section Samples

theorem decoded_sample : Json.Decoded (.object (statePayload "jira".toList 7 [] 0 600)) := by
  have whole : wholeSeconds 0 = 0 := by decide +kernel
  rw [statePayload, whole, Json.decoded_object]
  constructor
  · show (["provider", "workspace_id", "nonce", "iat", "exp"].map String.toList).Nodup
    decide
  · intro member mem
    simp only [List.mem_cons, List.not_mem_nil, or_false] at mem
    rcases mem with rfl | rfl | rfl | rfl | rfl
    · simp [Json.Decoded]
    · show (Nat.toDigits 10 7).length ≤ 4300
      decide
    · simp [Json.Decoded]
    · simp [Json.Decoded]
    · show (Nat.toDigits 10 600).length ≤ 4300
      decide

/-- Half a second after its expiry a state is still taken. -/
theorem not_expired_after : ¬ ∀ (_ : PyText) (mac : Bytes → Bytes → Bytes) (secret : Bytes) (provider : Str)
    (workspaceId : Int) (nonce : Str) (issued : ℚ) (ttlSeconds : Int) (time : ℚ) (expected : Str),
    (∀ key message, (mac key message).length = 32) →
    Json.Decoded (.object (statePayload provider workspaceId nonce issued ttlSeconds)) →
      ((∃ payload, validateOauthState mac secret time
          (buildOauthState mac secret provider workspaceId nonce issued ttlSeconds) expected = .ok payload) ↔
        expected = provider ∧ time ≤ (wholeSeconds issued + ttlSeconds : Int)) := by
  intro all
  have sample := all PyText.ascii (fun _ _ => List.replicate 32 0) [] "jira".toList 7 [] 0 600 (1201 / 2) "jira".toList
    (fun _ _ => List.length_replicate) decoded_sample
  let _ := PyText.ascii
  have accepted := (validate_build_ok (fun _ _ => List.replicate 32 0) [] decoded_sample (1201 / 2) "jira".toList _).mpr
    ⟨rfl, rfl, by decide +kernel⟩
  have late := (sample.mp ⟨_, accepted⟩).2
  revert late
  decide +kernel

end Samples

end ClaudeProxy.Api

import ClaudeProxy.Api.OauthState
import ClaudeProxy.Kit.Machine
import ClaudeProxy.Kit.Tasks

namespace ClaudeProxy.Api

open Kit Providers

structure SecretSettings where
  jwtSecret : Str
  masterKey : Str
  fallbackKeys : Str

/-- `get_encryption_key_ring_from_values` -/
def SecretSettings.encryptionKeyRing (settings : SecretSettings) : List Str :=
  let primary := if strip settings.masterKey = [] then [] else [strip settings.masterKey]
  (settings.fallbackKeys.splitOn ',').foldl (fun ring item =>
    if strip item ≠ [] ∧ strip item ∉ ring then ring ++ [strip item] else ring) primary

/-- `get_oauth_state_secret_from_values`; `none` is a status code 500. -/
def SecretSettings.oauthStateSecret (settings : SecretSettings) : Option Bytes :=
  if strip settings.jwtSecret = [] then settings.encryptionKeyRing.head?.map utf8Encode
  else some (utf8Encode (strip settings.jwtSecret))

inductive OauthProvider where
  | jira
  | googleCalendar
deriving DecidableEq

def OauthProvider.name : OauthProvider → Str
  | .jira => "jira".toList
  | .googleCalendar => "google_calendar".toList

def OauthProvider.accountLabel : OauthProvider → Str
  | .jira => "Jira OAuth".toList
  | .googleCalendar => "Google Calendar OAuth".toList

/-- A state that `connect` has given out. -/
structure IssuedState where
  provider : OauthProvider
  workspaceId : Int
  nonce : Str
  issuedAt : ℚ

def IssuedState.payload (issue : IssuedState) : List (Str × Json) :=
  statePayload issue.provider.name issue.workspaceId issue.nonce issue.issuedAt 600

structure IntegrationAccount where
  id : Nat
  workspaceId : Int
  provider : Str
  accountLabel : Str
  encryptedAccessToken : Str
  encryptedRefreshToken : Option Str
  tokenExpiresAt : ℚ
  metadata : List (Str × Json)
  updatedAt : ℚ

/-- A callback whose state was accepted; it exchanges its code and then stores the account. -/
structure OauthCallback where
  provider : OauthProvider
  workspaceId : Int
  payload : List (Str × Json)
  acceptedAt : ℚ
  exchanging : Bool

inductive CallbackError where
  | missingCode
  | missingState
  | noSecret
  | state (reason : StateError)
  | otherWorkspace
deriving DecidableEq

/-- What is the same for all requests: HMAC-SHA256, the encryption with a key, and the settings. -/
structure OauthService where
  mac : Bytes → Bytes → Bytes
  encrypt : Str → Str → Str
  settings : SecretSettings

structure AccountWorld where
  clock : ℚ
  workspaces : List Int
  issued : List IssuedState
  callbacks : List OauthCallback
  accounts : List IntegrationAccount
  nextId : Nat

inductive AccountAction where
  | tick (later : ℚ)
  | createWorkspace (id : Int)
  | deleteWorkspace (id : Int)
  | connect (provider : OauthProvider) (workspaceId : Int) (nonce : Str)
  | callback (provider : OauthProvider) (code state : Str) (workspaceId : Option Int)
  /-- `exchange_code_for_tokens` returns. -/
  | exchanged (number : Nat) (tokenData : List (Str × Json)) (databaseFails : Bool)
  /-- It raises, or the request is cancelled. -/
  | fail (number : Nat)

variable [PyText]

/-- The end of the year 9999 as a time in seconds. -/
def endOfTime : ℚ := 253402300800

/-- `timedelta(seconds=expires_in)` from now if the value says so, and else 30 days; `none` where the date overflows. -/
def tokenExpiry (now : ℚ) (tokenData : List (Str × Json)) : Option ℚ :=
  let seconds := (intOf? (Json.get tokenData "expires_in" .null)).getD 0
  let expiry := if 0 < seconds then now + seconds else now + 30 * 86400
  if expiry < endOfTime then some expiry else none

/-- `str(value or "")` -/
def textOrEmpty (value : Json) : Str := if value.isTruthy then value.str else []

def accountMetadata (tokenData payload : List (Str × Json)) : List (Str × Json) :=
  [("scope".toList, .string (textOrEmpty (Json.get tokenData "scope" .null))),
    ("token_type".toList, .string (textOrEmpty (Json.get tokenData "token_type" .null))),
    ("expires_in".toList, Json.get tokenData "expires_in" .null),
    ("state_nonce".toList, Json.get payload "nonce" .null),
    ("mode".toList, .string "oauth_code_exchange".toList)]

/-- A column of `NULL` is `none`. -/
def refreshTokenOf (tokenData : List (Str × Json)) : Option Str :=
  match Json.get tokenData "refresh_token" .null with
  | .null => none
  | value => if value.str = [] then none else some value.str

namespace OauthService

variable (service : OauthService)

/-- `jira_callback` and `google_callback` up to the exchange of the code. -/
def accept (now : ℚ) (provider : OauthProvider) (code state : Str) (workspaceId : Option Int) :
    Except CallbackError (List (Str × Json) × Int) :=
  if strip code = [] then .error .missingCode
  else if strip state = [] then .error .missingState
  else
    match service.settings.oauthStateSecret with
    | none => .error .noSecret
    | some secret =>
      match validateOauthState service.mac secret now (strip state) provider.name with
      | .error reason => .error (.state reason)
      | .ok payload =>
        let stateWorkspaceId := (intOf? (Json.get payload "workspace_id" .null)).getD 0
        if workspaceId.all fun given => given = stateWorkspaceId then .ok (payload, stateWorkspaceId)
        else .error .otherWorkspace

end OauthService

namespace AccountWorld

/-- The newest row of a workspace for a provider. -/
def existing (w : AccountWorld) (workspaceId : Int) (provider : Str) : Option Nat :=
  ((w.accounts.filter fun other => other.workspaceId = workspaceId ∧ other.provider = provider).map IntegrationAccount.id).max?

/-- `_upsert_integration_account`, which waits for nothing; the account gets its id here. A statement that breaks a
    constraint rolls it back. -/
def upsert (w : AccountWorld) (account : IntegrationAccount) : AccountWorld :=
  match w.existing account.workspaceId account.provider with
  | none =>
    if account.workspaceId ∈ w.workspaces then
      { w with accounts := w.accounts ++ [{ account with id := w.nextId }], nextId := w.nextId + 1 }
    else { w with nextId := w.nextId + 1 }
  | some integrationId =>
    { w with accounts := w.accounts.map fun other =>
      if other.id = integrationId then
        { account with id := other.id, workspaceId := other.workspaceId, provider := other.provider }
      else other }

/-- The account that a callback stores, without its id; `none` where a step before the statements raises. -/
def newAccount (service : OauthService) (now : ℚ) (task : OauthCallback) (tokenData : List (Str × Json)) :
    Option IntegrationAccount :=
  let accessToken := Json.get tokenData "access_token" .null
  if accessToken.isTruthy then
    match service.settings.encryptionKeyRing.head?, tokenExpiry now tokenData with
    | some key, some expiry => some
      { id := 0
        workspaceId := task.workspaceId
        provider := task.provider.name
        accountLabel := task.provider.accountLabel
        encryptedAccessToken := service.encrypt key accessToken.str
        encryptedRefreshToken := (refreshTokenOf tokenData).map (service.encrypt key)
        tokenExpiresAt := expiry
        metadata := accountMetadata tokenData task.payload
        updatedAt := now }
    | _, _ => none
  else none

def setCallback (w : AccountWorld) (number : Nat) (task : OauthCallback) : AccountWorld :=
  { w with callbacks := w.callbacks.set number { task with exchanging := false } }

def withStored (w : AccountWorld) (account : Option IntegrationAccount) (databaseFails : Bool) : AccountWorld :=
  match account with
  | some account => if databaseFails then w else w.upsert account
  | none => w

/-- The numbers of a payload are short enough for `json.dumps` and `json.loads`. -/
def writable (issue : IssuedState) : Bool :=
  [issue.workspaceId, wholeSeconds issue.issuedAt, wholeSeconds issue.issuedAt + 600].all fun number =>
    (Nat.toDigits 10 number.natAbs).length ≤ 4300

def connect (service : OauthService) (w : AccountWorld) (issue : IssuedState) : AccountWorld :=
  if service.settings.oauthStateSecret.isSome ∧ writable issue then { w with issued := w.issued ++ [issue] } else w

def callback (service : OauthService) (w : AccountWorld) (provider : OauthProvider) (code state : Str)
    (workspaceId : Option Int) : AccountWorld :=
  match service.accept w.clock provider code state workspaceId with
  | .ok (payload, stateWorkspaceId) =>
    { w with callbacks := w.callbacks ++ [⟨provider, stateWorkspaceId, payload, w.clock, true⟩] }
  | .error _ => w

def step (service : OauthService) (w : AccountWorld) : AccountAction → Option AccountWorld
  | .tick later => if w.clock ≤ later then some { w with clock := later } else none
  | .createWorkspace id => if id ∈ w.workspaces then none else some { w with workspaces := w.workspaces ++ [id] }
  | .deleteWorkspace id => some { w with
      workspaces := w.workspaces.filter (· ≠ id)
      accounts := w.accounts.filter (·.workspaceId ≠ id) }
  | .connect provider workspaceId nonce => some (w.connect service ⟨provider, workspaceId, nonce, w.clock⟩)
  | .callback provider code state workspaceId => some (w.callback service provider code state workspaceId)
  | .exchanged number tokenData databaseFails =>
    match w.callbacks[number]? with
    | some task =>
      if task.exchanging then
        some ((w.setCallback number task).withStored (newAccount service w.clock task tokenData) databaseFails)
      else none
    | none => none
  | .fail number =>
    match w.callbacks[number]? with
    | some task => if task.exchanging then some (w.setCallback number task) else none
    | none => none

def machine (service : OauthService) (clock : ℚ) : Machine AccountWorld AccountAction :=
  ⟨⟨clock, [], [], [], [], 1⟩, step service⟩

/-- Nobody else can sign: a state with the right signature is of bytes that a `connect` has signed. -/
def unforged (service : OauthService) (w : AccountWorld) : AccountAction → Bool
  | .callback _ _ state _ =>
    match service.settings.oauthStateSecret, readState? (strip state) with
    | some secret, some (bytes, signature) =>
      signature ≠ service.mac secret bytes ∨ w.issued.any fun issue => payloadBytes issue.payload = bytes
    | _, _ => true
  | _ => true

end AccountWorld

end ClaudeProxy.Api

import ClaudeProxy.Api.IntegrationAccounts

namespace ClaudeProxy.Api

open Kit Providers

section States

variable {service : OauthService} {mac : Bytes → Bytes → Bytes} {secret : Bytes}

theorem name_injective : Function.Injective OauthProvider.name := by
  intro one other same
  cases one <;> cases other <;> first | rfl | exact absurd same (by decide)

theorem decoded_payload {issue : IssuedState} (writable : AccountWorld.writable issue = true) :
    Json.Decoded (.object issue.payload) := by
  simp only [AccountWorld.writable, List.all_cons, List.all_nil, Bool.and_true, Bool.and_eq_true, decide_eq_true_iff] at writable
  obtain ⟨workspace, issued, expires⟩ := writable
  rw [IssuedState.payload, statePayload, Json.decoded_object]
  constructor
  · show (["provider", "workspace_id", "nonce", "iat", "exp"].map String.toList).Nodup
    decide
  · intro member mem
    simp only [List.mem_cons, List.not_mem_nil, or_false] at mem
    rcases mem with rfl | rfl | rfl | rfl | rfl
    · trivial
    · exact workspace
    · trivial
    · exact issued
    · exact expires

theorem loads_payloadBytes {payload : List (Str × Json)} (decoded : Json.Decoded (.object payload)) :
    (utf8Decode? (payloadBytes payload)).bind Json.loads = some (.object (Json.sortedMembers payload)) := by
  rw [payloadBytes, utf8Decode?_utf8Encode, Option.bind_some]
  exact Json.loads_dumpsWith (fun _ mem => absurd mem List.not_mem_nil) (Json.decoded_sortKeys _ decoded)

/-- What is decoded was signed. -/
theorem signed_of_decoded {state : Str} {payload : List (Str × Json)}
    (accepted : decodeStatePayload mac secret state = .ok payload) :
    ∃ bytes, readState? state = some (bytes, mac secret bytes) ∧ (utf8Decode? bytes).bind Json.loads = some (.object payload) := by
  unfold decodeStatePayload at accepted
  split at accepted
  · cases accepted
  · rename_i bytes signature read
    split_ifs at accepted with forged
    have signed : signature = mac secret bytes := not_not.mp forged
    split at accepted
    · cases accepted
    · rename_i data loaded
      cases accepted
      exact ⟨bytes, signed ▸ read, loaded⟩
    · cases accepted

/-- Only the decoded payload of a state counts. -/
theorem validate_congr [PyText] {state other : Str} (same : decodeStatePayload mac secret state = decodeStatePayload mac secret other)
    (time : ℚ) (provider : Str) : validateOauthState mac secret time state provider = validateOauthState mac secret time other provider := by
  rw [validateOauthState, validateOauthState, same]

/-- What is known of a state that is accepted and has the bytes of an issued one. -/
theorem validated_issue [PyText] {issue : IssuedState} (writable : AccountWorld.writable issue = true) {state : Str} {time : ℚ}
    {provider : OauthProvider} {payload : List (Str × Json)}
    (accepted : validateOauthState mac secret time state provider.name = .ok payload)
    (same : ∃ signature, readState? state = some (payloadBytes issue.payload, signature)) :
    payload = Json.sortedMembers issue.payload ∧ provider = issue.provider ∧
      wholeSeconds time ≤ wholeSeconds issue.issuedAt + 600 := by
  obtain ⟨signature, read⟩ := same
  have decoded := decoded_payload writable
  obtain ⟨bytes, signed, loaded⟩ := signed_of_decoded (decoded_of_validated mac secret accepted)
  rw [read, Option.some.injEq, Prod.mk.injEq] at signed
  obtain ⟨rfl, -⟩ := signed
  rw [loads_payloadBytes decoded, Option.some.injEq, Json.object.injEq] at loaded
  have decodes : decodeStatePayload mac secret state =
      decodeStatePayload mac secret (encodeStatePayload mac secret issue.payload) := by
    rw [decode_encode mac secret decoded, decoded_of_validated mac secret accepted, loaded]
  rw [validate_congr decodes] at accepted
  obtain ⟨payloads, name, early⟩ := (validate_build_ok mac secret decoded time provider.name payload).mp accepted
  exact ⟨payloads, name_injective name, early⟩

end States

section Plain

/-- A character of a token is no white space. -/
theorem not_space_of_digits (bytes : Bytes) : ∀ c ∈ Base64.digits bytes, isSpace c = false := by
  have plain (n : Nat) : isSpace (Base64.symbol n) = false := by
    have all : (Base64.alphabet.all fun c => !isSpace c) = true := by decide
    rw [Base64.symbol, List.getD_eq_getElem?_getD]
    cases found : Base64.alphabet[n]? with
    | none => decide
    | some c => simpa using List.all_eq_true.mp all c (List.mem_of_getElem? found)
  fun_induction Base64.digits bytes with
  | case1 => simp
  | case2 a => simp [plain]
  | case3 a b => simp [plain]
  | case4 a b c rest ih => simpa [plain] using ih

theorem strip_plain {text : Str} (plain : ∀ c ∈ text, isSpace c = false) : strip text = text := by
  have keeps (text : Str) (plain : ∀ c ∈ text, isSpace c = false) : text.dropWhile isSpace = text := by
    cases text with
    | nil => rfl
    | cons c rest => rw [List.dropWhile_cons_of_neg (by rw [plain c List.mem_cons_self]; decide)]
  rw [strip, keeps text plain, keeps text.reverse (fun c mem => plain c (List.mem_reverse.mp mem)), List.reverse_reverse]

theorem strip_state (mac : Bytes → Bytes → Bytes) (secret : Bytes) (payload : List (Str × Json)) :
    strip (encodeStatePayload mac secret payload) = encodeStatePayload mac secret payload := by
  apply strip_plain
  rw [encodeStatePayload, tokenOf, tokenOf, Base64.rdropWhile_encode, Base64.rdropWhile_encode]
  intro c mem
  rcases List.mem_append.mp mem with first | rest
  · exact not_space_of_digits _ c first
  · rcases List.mem_cons.mp rest with rfl | second
    · decide
    · exact not_space_of_digits _ c second

end Plain

/-- A state for the provider and the workspace was given out, and was accepted while it was valid. -/
def FromIssue (issued : List IssuedState) (provider : Str) (workspaceId : Int) (nonce : Json) (acceptedAt : ℚ) : Prop :=
  ∃ issue ∈ issued, issue.provider.name = provider ∧ issue.workspaceId = workspaceId ∧ nonce = .string issue.nonce ∧
    issue.issuedAt ≤ acceptedAt ∧ wholeSeconds acceptedAt ≤ wholeSeconds issue.issuedAt + 600

theorem FromIssue.grow {issued more : List IssuedState} {provider : Str} {workspaceId : Int} {nonce : Json} {acceptedAt : ℚ}
    (origin : FromIssue issued provider workspaceId nonce acceptedAt) :
    FromIssue (issued ++ more) provider workspaceId nonce acceptedAt := by
  obtain ⟨issue, mem, rest⟩ := origin
  exact ⟨issue, List.mem_append_left _ mem, rest⟩

def IntegrationAccount.key (account : IntegrationAccount) : Int × Str := (account.workspaceId, account.provider)

namespace AccountWorld

structure Sound (w : AccountWorld) : Prop where
  issues : ∀ issue ∈ w.issued, issue.issuedAt ≤ w.clock ∧ writable issue = true
  tasks : ∀ task ∈ w.callbacks, task.acceptedAt ≤ w.clock ∧
    FromIssue w.issued task.provider.name task.workspaceId (Json.get task.payload "nonce" .null) task.acceptedAt
  rows : ∀ account ∈ w.accounts, ∃ acceptedAt ≤ account.updatedAt,
    FromIssue w.issued account.provider account.workspaceId (Json.get account.metadata "state_nonce" .null) acceptedAt
  single : (w.accounts.map IntegrationAccount.key).Nodup
  numbered : (w.accounts.map IntegrationAccount.id).Nodup
  below : ∀ account ∈ w.accounts, account.id < w.nextId
  known : ∀ account ∈ w.accounts, account.workspaceId ∈ w.workspaces

section Runs

variable [PyText] {service : OauthService} {w next : AccountWorld}

theorem metadata_nonce (tokenData payload : List (Str × Json)) :
    Json.get (accountMetadata tokenData payload) "state_nonce" .null = Json.get payload "nonce" .null := by
  have found : Json.getMember "state_nonce".toList (accountMetadata tokenData payload) = some (Json.get payload "nonce" .null) := rfl
  rw [Json.get, found]
  rfl

section Upsert

variable {account : IntegrationAccount} {acceptedAt : ℚ}

omit [PyText] in
theorem upsert_cases (w : AccountWorld) (account : IntegrationAccount) :
    (w.upsert account = { w with nextId := w.nextId + 1 }) ∨
    ((∀ other ∈ w.accounts, other.key ≠ account.key) ∧ account.workspaceId ∈ w.workspaces ∧
      w.upsert account = { w with accounts := w.accounts ++ [{ account with id := w.nextId }], nextId := w.nextId + 1 }) ∨
    ∃ own ∈ w.accounts, own.key = account.key ∧ w.upsert account = { w with accounts := w.accounts.map fun other =>
      if other.id = own.id then { account with id := other.id, workspaceId := other.workspaceId, provider := other.provider }
      else other } := by
  have own (other : IntegrationAccount) :
      decide (other.workspaceId = account.workspaceId ∧ other.provider = account.provider) = true ↔ other.key = account.key := by
    rw [decide_eq_true_iff, IntegrationAccount.key, IntegrationAccount.key, Prod.mk.injEq]
  unfold upsert
  cases latest : w.existing account.workspaceId account.provider with
  | none =>
    rw [existing, List.max?_eq_none_iff, List.map_eq_nil_iff, List.filter_eq_nil_iff] at latest
    have absent (other : IntegrationAccount) (mem : other ∈ w.accounts) : other.key ≠ account.key :=
      fun same => latest other mem ((own other).mpr same)
    by_cases workspace : account.workspaceId ∈ w.workspaces
    · exact .inr (.inl ⟨absent, workspace, if_pos workspace⟩)
    · exact .inl (if_neg workspace)
  | some integrationId =>
    obtain ⟨other, mem, rfl⟩ := List.mem_map.mp (List.max?_mem latest)
    obtain ⟨among, here⟩ := List.mem_filter.mp mem
    exact .inr (.inr ⟨other, among, (own other).mp here, rfl⟩)

omit [PyText] in
theorem Sound.upsert (sound : w.Sound) (before : acceptedAt ≤ account.updatedAt)
    (origin : FromIssue w.issued account.provider account.workspaceId (Json.get account.metadata "state_nonce" .null) acceptedAt) :
    (w.upsert account).Sound := by
  rcases upsert_cases w account with same | ⟨absent, workspace, same⟩ | ⟨own, mem, key, same⟩
  · rw [same]
    exact ⟨sound.issues, sound.tasks, sound.rows, sound.single, sound.numbered,
      fun account mem => Nat.lt_succ_of_lt (sound.below account mem), sound.known⟩
  · rw [same]
    constructor
    case issues => exact sound.issues
    case tasks => exact sound.tasks
    case rows =>
      intro other mem
      rcases List.mem_append.mp mem with old | new
      · exact sound.rows other old
      · rw [List.mem_singleton.mp new]
        exact ⟨acceptedAt, before, origin⟩
    case single =>
      rw [List.map_append, List.nodup_append_comm]
      refine List.nodup_cons.mpr ⟨fun mem => ?_, sound.single⟩
      obtain ⟨other, among, keyed⟩ := List.mem_map.mp mem
      exact absent other among keyed
    case numbered =>
      rw [List.map_append, List.nodup_append_comm]
      refine List.nodup_cons.mpr ⟨fun mem => ?_, sound.numbered⟩
      obtain ⟨other, among, numbered⟩ := List.mem_map.mp mem
      exact absurd numbered (Nat.ne_of_lt (sound.below other among))
    case below =>
      intro other mem
      rcases List.mem_append.mp mem with old | new
      · exact Nat.lt_succ_of_lt (sound.below other old)
      · rw [List.mem_singleton.mp new]
        exact Nat.lt_succ_self _
    case known =>
      intro other mem
      rcases List.mem_append.mp mem with old | new
      · exact sound.known other old
      · rw [List.mem_singleton.mp new]
        exact workspace
  · rw [same]
    -- the row with this id is the one that was found
    have found (other : IntegrationAccount) (among : other ∈ w.accounts) (number : other.id = own.id) : other = own :=
      List.inj_on_of_nodup_map sound.numbered among mem number
    have keys : (w.accounts.map fun other => if other.id = own.id then
        { account with id := other.id, workspaceId := other.workspaceId, provider := other.provider } else other).map
        IntegrationAccount.key = w.accounts.map IntegrationAccount.key := by
      rw [List.map_map]
      refine List.map_congr_left fun other _ => ?_
      rw [Function.comp_apply]
      split <;> rfl
    have ids : (w.accounts.map fun other => if other.id = own.id then
        { account with id := other.id, workspaceId := other.workspaceId, provider := other.provider } else other).map
        IntegrationAccount.id = w.accounts.map IntegrationAccount.id := by
      rw [List.map_map]
      refine List.map_congr_left fun other _ => ?_
      rw [Function.comp_apply]
      split <;> rfl
    constructor
    case issues => exact sound.issues
    case tasks => exact sound.tasks
    case rows =>
      intro row inRows
      obtain ⟨other, among, rfl⟩ := List.mem_map.mp inRows
      split
      · rename_i number
        obtain ⟨workspace, provider⟩ := Prod.mk.inj key
        rw [found other among number]
        refine ⟨acceptedAt, before, ?_⟩
        rw [← workspace, ← provider] at origin
        exact origin
      · exact sound.rows other among
    case single => exact keys ▸ sound.single
    case numbered => exact ids ▸ sound.numbered
    case below =>
      intro row inRows
      obtain ⟨other, among, rfl⟩ := List.mem_map.mp inRows
      split <;> exact sound.below other among
    case known =>
      intro row inRows
      obtain ⟨other, among, rfl⟩ := List.mem_map.mp inRows
      split <;> exact sound.known other among

end Upsert

theorem accept_cases {provider : OauthProvider} {code state : Str} {given : Option Int} {payload : List (Str × Json)}
    {now : ℚ} {workspaceId : Int} (accepted : service.accept now provider code state given = .ok (payload, workspaceId)) :
    ∃ secret, service.settings.oauthStateSecret = some secret ∧
      validateOauthState service.mac secret now (strip state) provider.name = .ok payload ∧
      workspaceId = (intOf? (Json.get payload "workspace_id" .null)).getD 0 := by
  unfold OauthService.accept at accepted
  split_ifs at accepted
  cases secrets : service.settings.oauthStateSecret with
  | none =>
    rw [secrets] at accepted
    cases accepted
  | some secret =>
    rw [secrets] at accepted
    cases validated : validateOauthState service.mac secret now (strip state) provider.name with
    | error reason =>
      simp only [validated] at accepted
      cases accepted
    | ok data =>
      simp only [validated] at accepted
      split_ifs at accepted
      cases accepted
      exact ⟨secret, rfl, validated, rfl⟩

omit [PyText] in
theorem get_payload (issue : IssuedState) :
    Json.get (Json.sortedMembers issue.payload) "workspace_id" .null = .integer issue.workspaceId ∧
    Json.get (Json.sortedMembers issue.payload) "nonce" .null = .string issue.nonce :=
  ⟨get_statePayload _ _ _ _ _ rfl rfl _, get_statePayload _ _ _ _ _ rfl rfl _⟩

/-- An accepted callback comes from a state of this service. -/
theorem Sound.accepted (sound : w.Sound) {provider : OauthProvider} {code state : Str} {given : Option Int}
    {payload : List (Str × Json)} {workspaceId : Int}
    (genuine : unforged service w (.callback provider code state given) = true)
    (accepted : service.accept w.clock provider code state given = .ok (payload, workspaceId)) :
    FromIssue w.issued provider.name workspaceId (Json.get payload "nonce" .null) w.clock := by
  obtain ⟨secret, secrets, validated, workspace⟩ := accept_cases accepted
  obtain ⟨bytes, read, -⟩ := signed_of_decoded (decoded_of_validated _ _ validated)
  simp only [unforged, secrets, read, ne_eq, not_true_eq_false, false_or, List.any_eq_true, decide_eq_true_iff] at genuine
  obtain ⟨issue, mem, same⟩ := genuine
  obtain ⟨past, writable⟩ := sound.issues issue mem
  rw [← same] at read
  obtain ⟨rfl, rfl, early⟩ := validated_issue writable validated ⟨_, read⟩
  obtain ⟨workspaceIs, nonceIs⟩ := get_payload issue
  refine ⟨issue, mem, rfl, ?_, nonceIs, past, early⟩
  rw [workspace, workspaceIs]
  rfl

theorem Sound.callback (sound : w.Sound) {provider : OauthProvider} {code state : Str} {given : Option Int}
    (genuine : unforged service w (.callback provider code state given) = true) :
    (w.callback service provider code state given).Sound := by
  unfold AccountWorld.callback
  split
  · rename_i payload workspaceId accepted
    have origin := sound.accepted genuine accepted
    refine ⟨sound.issues, fun task mem => ?_, sound.rows, sound.single, sound.numbered, sound.below, sound.known⟩
    rcases List.mem_append.mp mem with old | new
    · exact sound.tasks task old
    · rw [List.mem_singleton.mp new]
      exact ⟨le_refl _, origin⟩
  · exact sound

omit [PyText] in
theorem Sound.connect (sound : w.Sound) (provider : OauthProvider) (workspaceId : Int) (nonce : Str) :
    (w.connect service ⟨provider, workspaceId, nonce, w.clock⟩).Sound := by
  unfold AccountWorld.connect
  split
  · rename_i able
    constructor
    case issues =>
      intro issue mem
      rcases List.mem_append.mp mem with old | new
      · exact sound.issues issue old
      · rw [List.mem_singleton.mp new]
        exact ⟨le_refl _, able.2⟩
    case tasks => exact fun task mem => ⟨(sound.tasks task mem).1, (sound.tasks task mem).2.grow⟩
    case rows =>
      intro account mem
      obtain ⟨acceptedAt, before, origin⟩ := sound.rows account mem
      exact ⟨acceptedAt, before, origin.grow⟩
    case single => exact sound.single
    case numbered => exact sound.numbered
    case below => exact sound.below
    case known => exact sound.known
  · exact sound

omit [PyText] in
theorem Sound.setCallback (sound : w.Sound) {number : Nat} {task : OauthCallback} (found : w.callbacks[number]? = some task) :
    (w.setCallback number task).Sound := by
  refine ⟨sound.issues, fun other mem => ?_, sound.rows, sound.single, sound.numbered, sound.below, sound.known⟩
  rcases mem_set found mem with rfl | old
  · exact sound.tasks task (List.mem_of_getElem? found)
  · exact sound.tasks other old

theorem newAccount_spec {now : ℚ} {task : OauthCallback} {tokenData : List (Str × Json)} {account : IntegrationAccount}
    (stored : newAccount service now task tokenData = some account) :
    account.workspaceId = task.workspaceId ∧ account.provider = task.provider.name ∧ account.updatedAt = now ∧
      Json.get account.metadata "state_nonce" .null = Json.get task.payload "nonce" .null := by
  simp only [newAccount] at stored
  split_ifs at stored
  cases keyed : service.settings.encryptionKeyRing.head? with
  | none =>
    rw [keyed] at stored
    cases stored
  | some key =>
    cases expires : tokenExpiry now tokenData with
    | none =>
      rw [keyed, expires] at stored
      cases stored
    | some expiry =>
      rw [keyed, expires] at stored
      cases stored
      exact ⟨rfl, rfl, rfl, metadata_nonce tokenData task.payload⟩

theorem Sound.exchanged (sound : w.Sound) {number : Nat} {task : OauthCallback} (found : w.callbacks[number]? = some task)
    (tokenData : List (Str × Json)) (databaseFails : Bool) :
    ((w.setCallback number task).withStored (newAccount service w.clock task tokenData) databaseFails).Sound := by
  have kept := sound.setCallback found
  unfold AccountWorld.withStored
  split
  · rename_i account stored
    split
    · exact kept
    · obtain ⟨workspace, provider, now, nonce⟩ := newAccount_spec stored
      obtain ⟨before, origin⟩ := sound.tasks task (List.mem_of_getElem? found)
      have early : task.acceptedAt ≤ account.updatedAt := now ▸ before
      refine kept.upsert early ?_
      rw [workspace, provider, nonce]
      exact origin
  · exact kept

theorem Sound.step (sound : w.Sound) {a : AccountAction} (genuine : unforged service w a = true)
    (taken : w.step service a = some next) : next.Sound := by
  cases a with
  | tick later =>
    simp only [AccountWorld.step] at taken
    split at taken
    · rename_i forward
      rw [← Option.some.inj taken]
      exact ⟨fun issue mem => ⟨le_trans (sound.issues issue mem).1 forward, (sound.issues issue mem).2⟩,
        fun task mem => ⟨le_trans (sound.tasks task mem).1 forward, (sound.tasks task mem).2⟩,
        sound.rows, sound.single, sound.numbered, sound.below, sound.known⟩
    · cases taken
  | createWorkspace id =>
    simp only [AccountWorld.step] at taken
    split at taken
    · cases taken
    · rw [← Option.some.inj taken]
      exact ⟨sound.issues, sound.tasks, sound.rows, sound.single, sound.numbered, sound.below,
        fun account mem => List.mem_append_left _ (sound.known account mem)⟩
  | deleteWorkspace id =>
    rw [← Option.some.inj taken]
    have fewer : (w.accounts.filter (·.workspaceId ≠ id)).Sublist w.accounts := List.filter_sublist
    refine ⟨sound.issues, sound.tasks, fun account mem => sound.rows account (fewer.subset mem),
      sound.single.sublist (fewer.map _), sound.numbered.sublist (fewer.map _),
      fun account mem => sound.below account (fewer.subset mem), fun account mem => ?_⟩
    exact List.mem_filter.mpr ⟨sound.known account (fewer.subset mem), (List.mem_filter.mp mem).2⟩
  | connect provider workspaceId nonce => exact Option.some.inj taken ▸ sound.connect provider workspaceId nonce
  | callback provider code state given => exact Option.some.inj taken ▸ sound.callback genuine
  | exchanged number tokenData databaseFails =>
    simp only [AccountWorld.step] at taken
    split at taken
    · rename_i task found
      split at taken
      · exact Option.some.inj taken ▸ sound.exchanged found tokenData databaseFails
      · cases taken
    · cases taken
  | fail number =>
    simp only [AccountWorld.step] at taken
    split at taken
    · rename_i task found
      split at taken
      · exact Option.some.inj taken ▸ sound.setCallback found
      · cases taken
    · cases taken

theorem sound {clock : ℚ} (reached : (machine service clock).ReachableUnder (fun w a => unforged service w a = true) w) :
    w.Sound := by
  refine reached.invariant ?_ fun w a next sound genuine taken => sound.step genuine taken
  constructor <;> simp [machine]

/-- A state that was given out is good for its ten minutes. -/
theorem accept_issued (sound : w.Sound) {secret : Bytes} (secrets : service.settings.oauthStateSecret = some secret)
    {issue : IssuedState} (mem : issue ∈ w.issued) (early : wholeSeconds w.clock ≤ wholeSeconds issue.issuedAt + 600)
    {code : Str} (coded : strip code ≠ []) {given : Option Int} (fits : ∀ id ∈ given, id = issue.workspaceId) :
    service.accept w.clock issue.provider code
        (buildOauthState service.mac secret issue.provider.name issue.workspaceId issue.nonce issue.issuedAt 600) given =
      .ok (Json.sortedMembers issue.payload, issue.workspaceId) := by
  have decoded := decoded_payload (sound.issues issue mem).2
  have validated := (validate_build_ok service.mac secret decoded w.clock issue.provider.name _).mpr ⟨rfl, rfl, early⟩
  have stripped := strip_state service.mac secret issue.payload
  have present : encodeStatePayload service.mac secret issue.payload ≠ [] := List.append_ne_nil_of_right_ne_nil _ (List.cons_ne_nil _ _)
  have workspace : (intOf? (Json.get (Json.sortedMembers issue.payload) "workspace_id" .null)).getD 0 = issue.workspaceId := by
    rw [(get_payload issue).1]
    rfl
  have agreed : (given.all fun id => id = issue.workspaceId) = true := by
    cases given with
    | none => rfl
    | some id => exact decide_eq_true (fits id rfl)
  have state : buildOauthState service.mac secret issue.provider.name issue.workspaceId issue.nonce issue.issuedAt 600 =
      encodeStatePayload service.mac secret issue.payload := rfl
  have payload : statePayload issue.provider.name issue.workspaceId issue.nonce issue.issuedAt 600 = issue.payload := rfl
  rw [state, payload] at validated
  rw [state]
  simp only [OauthService.accept, if_neg coded, stripped, if_neg present, secrets, validated, workspace]
  exact if_pos agreed

/-- An account is stored only through a state that was given out for its workspace and provider and was used in time; there is
    one account for each of them, in a workspace that exists; and whoever returns in time with his state is let in. -/
theorem accounts_from_issued_states {clock : ℚ}
    (reached : (machine service clock).ReachableUnder (fun w a => unforged service w a = true) w) :
    (∀ account ∈ w.accounts, ∃ acceptedAt ≤ account.updatedAt,
      FromIssue w.issued account.provider account.workspaceId (Json.get account.metadata "state_nonce" .null) acceptedAt) ∧
    (w.accounts.map IntegrationAccount.key).Nodup ∧
    (∀ account ∈ w.accounts, account.workspaceId ∈ w.workspaces) ∧
    ∀ secret, service.settings.oauthStateSecret = some secret → ∀ issue ∈ w.issued,
      wholeSeconds w.clock ≤ wholeSeconds issue.issuedAt + 600 → ∀ code, strip code ≠ [] → ∀ given : Option Int,
        (∀ id ∈ given, id = issue.workspaceId) → service.accept w.clock issue.provider code
          (buildOauthState service.mac secret issue.provider.name issue.workspaceId issue.nonce issue.issuedAt 600) given =
            .ok (Json.sortedMembers issue.payload, issue.workspaceId) := by
  have sound := sound reached
  refine ⟨sound.rows, sound.single, sound.known, ?_⟩
  intro secret secrets issue mem early code coded given fits
  exact accept_issued sound secrets mem early coded fits

end Runs

section Sample

attribute [local instance] PyText.ascii

def sampleService : OauthService := ⟨fun _ message => message, fun _ value => value, ⟨['s'], ['k'], []⟩⟩

def sampleIssue : IssuedState := ⟨.jira, 7, [], 0⟩

def sampleState : Str := encodeStatePayload sampleService.mac (utf8Encode ['s']) sampleIssue.payload

/-- The callback of the issued state has been accepted. -/
def codeReturned : AccountWorld :=
  ⟨0, [7], [sampleIssue], [⟨.jira, 7, Json.sortedMembers sampleIssue.payload, 0, true⟩], [], 1⟩

def tokenAnswer : List (Str × Json) := [("access_token".toList, .string ['t'])]

theorem accounts_from_issued_states_sample :
    ∃ w, (machine sampleService 0).ReachableUnder (fun w a => unforged sampleService w a = true) w ∧ w.accounts.length = 1 ∧
      ∀ account ∈ w.accounts, ∃ acceptedAt ≤ account.updatedAt,
        FromIssue w.issued account.provider account.workspaceId (Json.get account.metadata "state_nonce" .null) acceptedAt := by
  have secrets : sampleService.settings.oauthStateSecret = some (utf8Encode ['s']) := by decide +kernel
  have connected : (⟨0, [7], [], [], [], 1⟩ : AccountWorld).connect sampleService sampleIssue = ⟨0, [7], [sampleIssue], [], [], 1⟩ := by
    rw [connect, if_pos ⟨by rw [secrets]; rfl, by decide +kernel⟩]
    rfl
  have asked : (machine sampleService 0).ReachableUnder (fun w a => unforged sampleService w a = true)
      ⟨0, [7], [sampleIssue], [], [], 1⟩ :=
    .step (.step .init (a := .createWorkspace 7) rfl rfl) (a := .connect .jira 7 []) rfl (congrArg some connected)
  have coded : strip ['c'] ≠ [] := by decide
  have fits : ∀ id ∈ (none : Option Int), id = 7 := by simp
  have accepted : sampleService.accept 0 .jira ['c'] sampleState none = .ok (Json.sortedMembers sampleIssue.payload, 7) :=
    accept_issued (sound asked) secrets List.mem_cons_self (by decide +kernel) coded fits
  have read : readState? (strip sampleState) =
      some (payloadBytes sampleIssue.payload, sampleService.mac (utf8Encode ['s']) (payloadBytes sampleIssue.payload)) := by
    rw [sampleState, strip_state, readState?_encode]
  have genuine : unforged sampleService ⟨0, [7], [sampleIssue], [], [], 1⟩ (.callback .jira ['c'] sampleState none) = true := by
    simp only [unforged, secrets, read]
    simp
  have called : (⟨0, [7], [sampleIssue], [], [], 1⟩ : AccountWorld).callback sampleService .jira ['c'] sampleState none =
      codeReturned := by
    simp only [callback, accepted, List.nil_append]
    rfl
  have returned := asked.step genuine (congrArg some called)
  have stores : (codeReturned.step sampleService (.exchanged 0 tokenAnswer false)).map (fun w => w.accounts.length) = some 1 := by
    decide +kernel
  obtain ⟨w, stored, one⟩ := Option.map_eq_some_iff.mp stores
  have stepped : (machine sampleService 0).step codeReturned (.exchanged 0 tokenAnswer false) = some w := stored
  have done := returned.step rfl stepped
  exact ⟨w, done, one, (accounts_from_issued_states done).1⟩

end Sample

end AccountWorld

end ClaudeProxy.Api

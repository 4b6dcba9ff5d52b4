import FineractReports.Auth.ApiKeys
import FineractReports.Auth.SessionSafety
import FineractReports.Execution.AlignedBinds
import FineractReports.Execution.TurnResponse
import FineractReports.Policy.OfficeScope

/-!
# The offices of a key

What a restricted key was created for is what a statement is bound with, whatever has happened to
the keys in between: the key contributes its offices to the principal, the projection keeps those
of the tenant, the guard hands them to the executor, and the executor binds them for the scope.
-/

namespace FineractReports.Auth

open Execution

/-! ### What a step does to the keys -/

/-- The key later on: its scope is the same, a revocation stands, the owner may have gone. -/
structure SameKey (key later : ApiKeyRow) : Prop where
  id : later.id = key.id
  hash : later.keyHash = key.keyHash
  offices : later.allowedOfficeIds = key.allowedOfficeIds
  allOffices : later.allowAllOffices = key.allowAllOffices
  expiry : later.expiresAt = key.expiresAt
  owner : later.userId = none ∨ later.userId = key.userId
  revoked : key.revokedAt ≠ none → later.revokedAt ≠ none

theorem SameKey.refl (key : ApiKeyRow) : SameKey key key :=
  ⟨rfl, rfl, rfl, rfl, rfl, Or.inr rfl, fun hrevoked => hrevoked⟩

theorem SameKey.trans {first second third : ApiKeyRow} (h : SameKey first second)
    (h' : SameKey second third) : SameKey first third where
  id := h'.id.trans h.id
  hash := h'.hash.trans h.hash
  offices := h'.offices.trans h.offices
  allOffices := h'.allOffices.trans h.allOffices
  expiry := h'.expiry.trans h.expiry
  owner := by
    rcases h'.owner with hnone | hsame
    · exact Or.inl hnone
    · rw [hsame]
      exact h.owner
  revoked hrevoked := h'.revoked (h.revoked hrevoked)

/-- Every key is updated in place, or one of a new id and hash is added. -/
inductive KeyEffect (keys : List ApiKeyRow) : List ApiKeyRow → Prop
  | updated (update : ApiKeyRow → ApiKeyRow) (h : ∀ key, SameKey key (update key)) :
    KeyEffect keys (keys.map update)
  | added (key : ApiKeyRow) (hid : key.id ∉ keys.map (·.id))
    (hhash : key.keyHash ∉ keys.map (·.keyHash))
    (hscope : key.allowAllOffices = false → key.allowedOfficeIds ≠ []) :
    KeyEffect keys (keys ++ [key])

theorem KeyEffect.refl (keys : List ApiKeyRow) : KeyEffect keys keys := by
  have h : KeyEffect keys (keys.map id) := .updated id SameKey.refl
  rwa [List.map_id] at h

section Steps

variable {authEnv : AuthEnv} {env : KeyEnv} {state made after : KeyState}
  {input : CreateApiKeyInput} {draw : KeyDraw} {created : CreatedApiKey}

theorem insertKey_eq_some {key : ApiKeyRow} : state.insertKey key = some made ↔
    (key.id ∉ state.keys.map (·.id) ∧ key.keyHash ∉ state.keys.map (·.keyHash) ∧
      ∀ userId ∈ key.userId, userId ∈ state.tables.users.map (·.id)) ∧
      made = { state with keys := state.keys ++ [key] } := by
  unfold KeyState.insertKey
  split_ifs with h
  · simp only [false_iff, not_and]
    rintro ⟨hid, hhash, howner⟩
    rcases h with h | h | ⟨userId, hmem, hout⟩
    · exact absurd h hid
    · exact absurd h hhash
    · exact absurd (howner userId hmem) hout
  · push Not at h
    simp only [Option.some.injEq]
    exact ⟨fun heq => ⟨h, heq.symm⟩, fun heq => heq.2.symm⟩

theorem validateCreateApiKeyInput_eq_ok : validateCreateApiKeyInput input = .ok () ↔
    Text.trim input.name ≠ "" ∧ Text.trim input.owner ≠ "" ∧
      (input.allowAllOffices = false → input.allowedOfficeIds ≠ []) := by
  simp only [validateCreateApiKeyInput, bind_eq_ok_iff, exists_unit_iff, failIf_eq_ok, not_and,
    ne_eq]

/-- A key is created with a new id and hash, and with offices when it is restricted. -/
theorem createApiKey_spec (h : state.createApiKey env input draw = .ok (created, made)) :
    (input.allowAllOffices = false → input.allowedOfficeIds ≠ []) ∧
      draw.keyId ∉ state.keys.map (·.id) ∧
      (env.newApiKey state.now input draw).keyHash ∉ state.keys.map (·.keyHash) ∧
      created = ⟨draw.keyId, generateApiKey env.apiKeyPrefix draw.secret⟩ ∧
      made = { state with keys := state.keys ++ [env.newApiKey state.now input draw] } := by
  simp only [KeyState.createApiKey, bind_eq_ok_iff, exists_unit_iff, okOr_eq_ok, pure_eq_ok,
    Prod.mk.injEq, validateCreateApiKeyInput_eq_ok] at h
  obtain ⟨⟨-, -, hscope⟩, inserted, hinsert, rfl, rfl⟩ := h
  obtain ⟨⟨hid, hhash, -⟩, rfl⟩ := insertKey_eq_some.mp hinsert
  exact ⟨hscope, hid, hhash, rfl, rfl⟩

theorem createApiKey_effect (h : state.createApiKey env input draw = .ok (created, made)) :
    KeyEffect state.keys made.keys := by
  obtain ⟨hscope, hid, hhash, -, rfl⟩ := createApiKey_spec h
  exact .added _ hid hhash hscope

theorem touched_same (instant : ℤ) (id : Uuid) (key : ApiKeyRow) :
    SameKey key (if key.id = id then { key with lastUsedAt := some instant } else key) := by
  split_ifs
  · exact ⟨rfl, rfl, rfl, rfl, rfl, Or.inr rfl, fun hrevoked => hrevoked⟩
  · exact SameKey.refl key

theorem revoked_same (instant : ℤ) (id : Uuid) (key : ApiKeyRow) :
    SameKey key (if key.id = id then { key with revokedAt := some instant } else key) := by
  split_ifs
  · exact ⟨rfl, rfl, rfl, rfl, rfl, Or.inr rfl, fun _ => by simp⟩
  · exact SameKey.refl key

theorem owned_same (users : List Uuid) (key : ApiKeyRow) :
    SameKey key { key with userId := key.userId.filter fun userId => userId ∈ users } := by
  refine ⟨rfl, rfl, rfl, rfl, rfl, ?_, fun hrevoked => hrevoked⟩
  cases key.userId with
  | none => exact Or.inl rfl
  | some userId =>
    by_cases hmem : userId ∈ users
    · exact Or.inr (by simp [hmem])
    · exact Or.inl (by simp [hmem])

theorem bootstrapAdmin_effect (draw : KeyDraw) :
    KeyEffect state.keys (state.bootstrapAdmin env draw).keys := by
  unfold KeyState.bootstrapAdmin
  split_ifs
  · exact .refl _
  · exact .refl _
  · split
    · exact .refl _
    · split
      · exact .refl _
      · dsimp only
        split_ifs
        · split
          · rename_i tables _ _ _ _ hcreate
            have heffect := createApiKey_effect hcreate
            exact heffect
          · exact .refl _
        · exact .refl _

theorem authenticateApiKey_effect (rawKey : String) :
    KeyEffect state.keys (state.authenticateApiKey env rawKey).2.keys := by
  unfold KeyState.authenticateApiKey
  split
  · exact .refl _
  · exact .updated _ (touched_same _ _)

/-- What a step of the service does to the keys. -/
theorem keyStep_effect {action : KeyAction} (h : keyStep authEnv env state action = some after) :
    KeyEffect state.keys after.keys := by
  cases action with
  | tick microseconds =>
    cases h
    exact .refl _
  | tables tables =>
    cases h
    exact .updated _ (owned_same _)
  | bootstrap draw =>
    cases h
    exact bootstrapAdmin_effect draw
  | create headers request draw =>
    simp only [keyStep] at h
    split at h
    · rename_i hcreate
      cases h
      simp only [createApiKey, bind_eq_ok_iff, exists_unit_iff, mapError_eq_ok] at hcreate
      obtain ⟨user, -, -, -, profile, -, hcreated⟩ := hcreate
      exact createApiKey_effect hcreated
    · cases h
      exact .refl _
  | authenticate rawKey =>
    cases h
    exact authenticateApiKey_effect rawKey
  | revoke id =>
    cases h
    exact .updated _ (revoked_same _ _)

end Steps

/-! ### The invariant -/

/-- No two keys share an id or a hash, and a restricted key has offices. -/
structure KeyInv (keys : List ApiKeyRow) : Prop where
  ids : (keys.map (·.id)).Nodup
  hashes : (keys.map (·.keyHash)).Nodup
  offices : ∀ key ∈ keys, key.allowAllOffices = false → key.allowedOfficeIds ≠ []

section Invariant

variable {authEnv : AuthEnv} {env : KeyEnv} {state later : KeyState}
  {keys after : List ApiKeyRow}

theorem KeyEffect.keeps (h : KeyEffect keys after) (hinv : KeyInv keys) : KeyInv after := by
  cases h with
  | updated update hupdate =>
    refine ⟨?_, ?_, ?_⟩
    · rw [List.map_map]
      exact (List.map_congr_left fun key _ => (hupdate key).id) ▸ hinv.ids
    · rw [List.map_map]
      exact (List.map_congr_left fun key _ => (hupdate key).hash) ▸ hinv.hashes
    · intro key hmem
      obtain ⟨before, hbefore, rfl⟩ := List.mem_map.mp hmem
      rw [(hupdate before).offices, (hupdate before).allOffices]
      exact hinv.offices before hbefore
  | added key hid hhash hscope =>
    refine ⟨?_, ?_, ?_⟩
    · rw [List.map_append, List.map_singleton]
      exact hinv.ids.append (List.nodup_singleton _) (by simpa using hid)
    · rw [List.map_append, List.map_singleton]
      exact hinv.hashes.append (List.nodup_singleton _) (by simpa using hhash)
    · intro other hmem
      rcases List.mem_append.mp hmem with hold | hnew
      · exact hinv.offices other hold
      · obtain rfl := List.mem_singleton.mp hnew
        exact hscope

/-- A key stays, with its scope. -/
theorem KeyEffect.stays (h : KeyEffect keys after) {key : ApiKeyRow} (hmem : key ∈ keys) :
    ∃ later ∈ after, SameKey key later := by
  cases h with
  | updated update hupdate => exact ⟨update key, List.mem_map_of_mem hmem, hupdate key⟩
  | added other hid hhash hscope => exact ⟨key, List.mem_append_left _ hmem, SameKey.refl key⟩

theorem reachable_keyInv (h : (keyService authEnv env).Reachable state) : KeyInv state.keys :=
  Machine.ReachableVia.invariant (m := keyService authEnv env) (P := fun state => KeyInv state.keys)
    (fun state hinit => by
      have hempty : state.keys = [] := hinit
      rw [hempty]
      exact ⟨List.nodup_nil, List.nodup_nil, by simp⟩)
    (fun _ _ _ hinv _ hstep => (keyStep_effect hstep).keeps hinv) h

/-- However long the service runs on, a key keeps the scope it has. -/
theorem key_stays {key : ApiKeyRow} {actions : List KeyAction} (hmem : key ∈ state.keys)
    (hrun : (keyService authEnv env).run state actions = some later) :
    ∃ kept ∈ later.keys, SameKey key kept :=
  Machine.run_keeps (m := keyService authEnv env)
    (P := fun current => ∃ kept ∈ current.keys, SameKey key kept)
    (fun _ _ _ ⟨_, hkept, hsame⟩ hstep =>
      let ⟨next, hnext, hsame'⟩ := (keyStep_effect hstep).stays hkept
      ⟨next, hnext, hsame.trans hsame'⟩)
    ⟨key, hmem, SameKey.refl key⟩ hrun

end Invariant

/-! ### From the key to the principal -/

/-- A key that still counts: neither revoked nor expired, and with an owner. -/
def ApiKeyRow.Honoured (key : ApiKeyRow) (now : ℤ) : Prop := key.Active now ∧ key.userId ≠ none

section Requests

variable {authEnv : AuthEnv} {env : KeyEnv} {state : KeyState} {headers : Headers}
  {keysUp : Bool} {principal : PrincipalContext} {key : ApiKeyRow} {rawKey : String}

/-- A key that still counts is the one found for its hash. -/
theorem authenticateApiKey_of_honoured (hinv : KeyInv state.keys) (hmem : key ∈ state.keys)
    (hhash : env.hashApiKey rawKey = key.keyHash) (hhonoured : key.Honoured state.now) :
    (state.authenticateApiKey env rawKey).1 = some key.client := by
  have hfound : state.findActiveByHash (env.hashApiKey rawKey) = some key := by
    cases hfind : state.findActiveByHash (env.hashApiKey rawKey) with
    | none =>
      have hnone := List.find?_eq_none.mp hfind key hmem
      simp [hhash, hhonoured.1] at hnone
    | some other =>
      have hother : other.keyHash = env.hashApiKey rawKey ∧ other.Active state.now := by
        simpa using List.find?_some hfind
      rw [List.inj_on_of_nodup_map hinv.hashes (List.mem_of_find?_eq_some hfind) hmem
        (hother.1.trans hhash)]
  have howned : key.userId.isSome = true := Option.isSome_iff_ne_none.mpr hhonoured.2
  simp only [KeyState.authenticateApiKey, hfound, Option.filter_some, howned, if_true]

/-- Only a key that still counts authenticates, and it is one of the keys. -/
theorem honoured_of_authenticateApiKey {client : ClientContext}
    (h : (state.authenticateApiKey env rawKey).1 = some client) :
    ∃ key ∈ state.keys, key.keyHash = env.hashApiKey rawKey ∧ key.Honoured state.now ∧
      client = key.client := by
  unfold KeyState.authenticateApiKey at h
  split at h
  · cases h
  · rename_i key hfind
    obtain rfl := Option.some.inj h
    obtain ⟨hfind, howned⟩ := Option.filter_eq_some_iff.mp hfind
    have hkey : key.keyHash = env.hashApiKey rawKey ∧ key.Active state.now := by
      simpa using List.find?_some hfind
    exact ⟨key, List.mem_of_find?_eq_some hfind, hkey.1,
      ⟨hkey.2, Option.isSome_iff_ne_none.mp howned⟩, rfl⟩

/-- A principal is the user of a live session, an admin, with the offices of the key. -/
theorem authenticatedChatClient_eq_ok :
    authenticatedChatClient authEnv env state headers keysUp = .ok principal ↔
      ∃ token user, headers.bearerToken = some token ∧
        authenticateAccessToken authEnv state.tables state.now token = some user ∧
        user.role = "admin" ∧
        principal = ⟨user.userId, user.role, [],
          keyOfficeIds (authenticatedClient env state headers keysUp), false⟩ := by
  simp only [authenticatedChatClient, authenticatedUser, bind_eq_ok_iff, okOr_eq_ok,
    exists_unit_iff, failIf_eq_ok, pure_eq_ok, ne_eq, not_not]
  constructor
  · rintro ⟨user, ⟨token, htoken, hauth⟩, hrole, rfl⟩
    exact ⟨token, user, htoken, hauth, hrole, rfl⟩
  · rintro ⟨token, user, htoken, hauth, hrole, rfl⟩
    exact ⟨user, ⟨token, htoken, hauth⟩, hrole, rfl⟩

theorem authenticatedClient_eq_ok {client : ClientContext} :
    authenticatedClient env state headers keysUp = .ok client ↔
      ∃ rawKey, headers.extractApiKey = some rawKey ∧ keysUp = true ∧
        (state.authenticateApiKey env rawKey).1 = some client := by
  simp only [authenticatedClient, bind_eq_ok_iff, okOr_eq_ok, exists_unit_iff, failIf_eq_ok,
    Bool.not_eq_false]

/-- The offices of a key that still counts reach the principal when the key is restricted. -/
theorem principal_of_honoured (hinv : KeyInv state.keys) (hmem : key ∈ state.keys)
    (hheader : headers.extractApiKey = some rawKey) (hhash : env.hashApiKey rawKey = key.keyHash)
    (hhonoured : key.Honoured state.now) (hrestricted : key.allowAllOffices = false)
    (h : authenticatedChatClient authEnv env state headers true = .ok principal) :
    principal.officeIds = key.allowedOfficeIds := by
  obtain ⟨token, user, -, -, -, rfl⟩ := authenticatedChatClient_eq_ok.mp h
  have hclient : authenticatedClient env state headers true = .ok key.client :=
    authenticatedClient_eq_ok.mpr
      ⟨rawKey, hheader, rfl, authenticateApiKey_of_honoured hinv hmem hhash hhonoured⟩
  have hall : key.client.allowAllOffices = false := hrestricted
  simp only [hclient, keyOfficeIds, hall, Bool.false_eq_true, if_false]
  rfl

/-- The offices of a principal are those of a restricted key that counts. -/
theorem honoured_of_principal
    (h : authenticatedChatClient authEnv env state headers keysUp = .ok principal)
    (hoffices : principal.officeIds ≠ []) :
    ∃ rawKey, headers.extractApiKey = some rawKey ∧ ∃ key ∈ state.keys,
      key.keyHash = env.hashApiKey rawKey ∧ key.Honoured state.now ∧
        key.allowAllOffices = false ∧ principal.officeIds = key.allowedOfficeIds := by
  obtain ⟨token, user, -, -, -, rfl⟩ := authenticatedChatClient_eq_ok.mp h
  dsimp only at hoffices ⊢
  cases hclient : authenticatedClient env state headers keysUp with
  | error error => simp [hclient, keyOfficeIds] at hoffices
  | ok client =>
    obtain ⟨rawKey, hheader, -, hauth⟩ := authenticatedClient_eq_ok.mp hclient
    obtain ⟨key, hmem, hhash, hhonoured, rfl⟩ := honoured_of_authenticateApiKey hauth
    have hrestricted : key.allowAllOffices = false := by
      by_contra hall
      have hall : key.client.allowAllOffices = true := Bool.eq_true_of_not_eq_false hall
      simp [hclient, keyOfficeIds, hall] at hoffices
    refine ⟨rawKey, hheader, key, hmem, hhash, hhonoured, hrestricted, ?_⟩
    have hall : key.client.allowAllOffices = false := hrestricted
    simp only [keyOfficeIds, hall, Bool.false_eq_true, if_false]
    rfl

end Requests

/-! ### From the principal to the statement -/

/-- The values bound for the parameters before the one at an index. -/
def boundBefore (parameters : List QueryParameter) (index : ℕ) : ℕ :=
  ((parameters.take index).filter fun parameter => isTransient parameter = false).length

section Statements

variable {Number : Type} {parseDate : String → Except String NaiveDate}
  {parseDecimal : String → Except String Number} {disk : Disk} {catalog : KnowledgeCatalog}
  {plan : ExecutionPlan} {policy : PolicyDecision} {limits : ExecutionLimits}
  {sensitiveIdentifier : Option String} {statement : Statement} {binds : List (BindValue Number)}

/-- A parameter is bound after those before it that are bound. -/
theorem bindParameters_place {limit : Option String} {fetch : Option ℤ}
    {parameters : List QueryParameter} {values : List (BindValue Number)}
    (h : bindParameters parseDate parseDecimal plan policy limit fetch parameters = .ok values)
    {index : ℕ} {parameter : QueryParameter} (hat : parameters[index]? = some parameter)
    (hplain : isTransient parameter = false) :
    ∃ value, parameterBind parseDate parseDecimal plan policy limit fetch parameter = .ok value ∧
      values[boundBefore parameters index]? = some value := by
  induction parameters generalizing index values with
  | nil => simp at hat
  | cons first rest ih =>
    obtain ⟨own, others, hown, hothers, rfl⟩ := collectAll_cons.mp h
    cases index with
    | zero =>
      obtain rfl : first = parameter := by simpa using hat
      rw [if_neg (by simp [hplain])] at hown
      obtain ⟨value, hvalue, rfl⟩ := map_eq_ok_iff.mp hown
      exact ⟨value, hvalue, rfl⟩
    | succ index =>
      obtain ⟨value, hvalue, hplace⟩ := ih hothers (by simpa using hat)
      refine ⟨value, hvalue, ?_⟩
      have hlength : boundBefore (first :: rest) (index + 1) =
          own.length + boundBefore rest index := by
        split_ifs at hown with hfirst
        · obtain rfl : [] = own := Except.ok.inj hown
          simp [boundBefore, hfirst]
        · obtain ⟨bound, -, rfl⟩ := map_eq_ok_iff.mp hown
          simp [boundBefore, hfirst, Nat.add_comm]
      rw [hlength, List.getElem?_append_right (Nat.le_add_right _ _), Nat.add_sub_cancel_left]
      exact hplace

/-- The offices of the policy stand where the statement expects the scope. -/
theorem scope_bound (h : issueStatement parseDate parseDecimal disk catalog plan policy limits
      sensitiveIdentifier = .ok (statement, binds)) {index : ℕ} {parameter : QueryParameter}
    (hat : statement.parameters[index]? = some parameter) (hkind : parameter.kind = "array_bigint")
    (hsource : parameter.source = some "authorized_scope") :
    policy.status = .allowed ∧
      binds[boundBefore statement.parameters index]? = some (.bigints (some policy.officeIds)) := by
  simp only [issueStatement, bind_eq_ok_iff, exists_unit_iff, failIf_eq_ok, okOr_eq_ok, pure_eq_ok,
    Prod.mk.injEq, ne_eq, not_not] at h
  obtain ⟨hallowed, query, -, resolved, -, values, hvalues, filters, -, rfl, rfl⟩ := h
  have hplain : isTransient parameter = false := by simp [isTransient, hsource]
  obtain ⟨value, hvalue, hplace⟩ := bindParameters_place hvalues hat hplain
  have hscope : parameterBind parseDate parseDecimal plan policy (limitParam resolved.parameters)
      (fetchLimit plan catalog limits resolved.parameters) parameter =
        .ok (.bigints (some policy.officeIds)) := by
    simp [parameterBind, hkind, arrayBigintParam, hsource, Except.map]
  rw [hscope] at hvalue
  obtain rfl := Except.ok.inj hvalue
  refine ⟨hallowed, ?_⟩
  rw [List.getElem?_append_left (List.getElem?_eq_some_iff.mp hplace).1]
  exact hplace

/-- The guard hands on the offices of the principal. -/
theorem guard_offices {client : PrincipalContext}
    (h : (guardSelectedCapability client plan).status = .allowed) :
    (guardSelectedCapability client plan).officeIds = client.officeIds ∧ client.officeIds ≠ [] := by
  unfold guardSelectedCapability evaluatePolicy at h ⊢
  dsimp only at h ⊢
  split at h
  · cases h
  · split at h
    · cases h
    · rename_i offices hscope
      obtain ⟨hnonempty, rfl⟩ := effectiveOfficeScope_none.mp hscope
      exact ⟨rfl, hnonempty⟩

end Statements

/-! ### From the key to the statement -/

section Main

variable {authEnv : AuthEnv} {env : KeyEnv} {state made later : KeyState}
  {input : CreateApiKeyInput} {draw : KeyDraw} {created : CreatedApiKey}
  {actions : List KeyAction} {headers : Headers} {principal : PrincipalContext}

/-- The key that was created, later on. -/
theorem created_key_stays (hcreate : state.createApiKey env input draw = .ok (created, made))
    (hrun : (keyService authEnv env).run made actions = some later) :
    ∃ key ∈ later.keys, key.id = created.id ∧ key.keyHash = env.hashApiKey created.rawKey ∧
      key.allowedOfficeIds = input.allowedOfficeIds ∧
        key.allowAllOffices = input.allowAllOffices := by
  obtain ⟨-, -, -, rfl, rfl⟩ := createApiKey_spec hcreate
  obtain ⟨key, hmem, hsame⟩ := key_stays
    (List.mem_append_right state.keys (List.mem_singleton_self _)) hrun
  exact ⟨key, hmem, hsame.id, hsame.hash, hsame.offices, hsame.allOffices⟩

/-- A request with a restricted key that still counts, however long after its creation: every
statement issued for it is bound, in the place of the scope, with offices of the tenant the key was
created for, and with one at least. -/
theorem restricted_key_confines_statements (hreach : (keyService authEnv env).Reachable state)
    (hcreate : state.createApiKey env input draw = .ok (created, made))
    (hrestricted : input.allowAllOffices = false)
    (hrun : (keyService authEnv env).run made actions = some later)
    (hhonoured : ∃ key ∈ later.keys, key.id = created.id ∧ key.Honoured later.now)
    (hheader : headers.extractApiKey = some created.rawKey)
    (hauth : authenticatedChatClient authEnv env later headers true = .ok principal) :
    principal.officeIds = input.allowedOfficeIds ∧ principal.officeIds ≠ [] ∧
      ∀ (catalog : KnowledgeCatalog) (rows : Except String (List ℤ)) (projected : PrincipalContext),
        projectAdminPrincipal catalog principal rows = (.ok (), projected) →
        ∀ (Number : Type) (parseDate : String → Except String NaiveDate)
          (parseDecimal : String → Except String Number) (disk : Disk) (plan : ExecutionPlan)
          (limits : ExecutionLimits) (sensitiveIdentifier : Option String) (statement : Statement)
          (binds : List (BindValue Number)),
          issueStatement parseDate parseDecimal disk catalog plan
            (guardSelectedCapability projected plan) limits sensitiveIdentifier =
              .ok (statement, binds) →
          ∀ (index : ℕ) (parameter : QueryParameter),
            statement.parameters[index]? = some parameter → parameter.kind = "array_bigint" →
            parameter.source = some "authorized_scope" →
            ∃ tenantOfficeIds offices, rows = .ok tenantOfficeIds ∧
              binds[boundBefore statement.parameters index]? = some (.bigints (some offices)) ∧
              offices ≠ [] ∧ offices ⊆ tenantOfficeIds ∧ offices ⊆ input.allowedOfficeIds := by
  have hmadeReach : KeyInv made.keys :=
    (createApiKey_effect hcreate).keeps (reachable_keyInv hreach)
  have hinv : KeyInv later.keys :=
    Machine.run_keeps (m := keyService authEnv env) (P := fun current => KeyInv current.keys)
      (fun _ _ _ hcurrent hstep => (keyStep_effect hstep).keeps hcurrent) hmadeReach hrun
  obtain ⟨key, hmem, hid, hhash, hoffices, hall⟩ := created_key_stays hcreate hrun
  obtain ⟨other, hother, hotherId, hcounts⟩ := hhonoured
  obtain rfl : other = key :=
    List.inj_on_of_nodup_map hinv.ids hother hmem (hotherId.trans hid.symm)
  have hprincipal : principal.officeIds = other.allowedOfficeIds :=
    principal_of_honoured hinv hmem hheader hhash.symm hcounts (hall.trans hrestricted) hauth
  have hscoped : principal.officeIds ≠ [] := by
    rw [hprincipal]
    exact hinv.offices other hmem (hall.trans hrestricted)
  refine ⟨hprincipal.trans hoffices, hscoped, ?_⟩
  intro catalog rows projected hproject Number parseDate parseDecimal disk plan limits
    sensitiveIdentifier statement binds hissue index parameter hat hkind hsource
  rcases projectAdminPrincipal_cases catalog principal rows with
    ⟨error, hfailed⟩ | ⟨tenantOfficeIds, kept, hrows, hprojected, hkept, hnonempty⟩
  · rw [hfailed] at hproject
    cases hproject
  · rw [hprojected] at hproject
    obtain rfl : kept = projected := (Prod.mk.inj hproject).2
    obtain ⟨hallowed, hbound⟩ := scope_bound hissue hat hkind hsource
    rw [(guard_offices hallowed).1] at hbound
    refine ⟨tenantOfficeIds, kept.officeIds, hrows, hbound, hnonempty, fun officeId hin => ?_,
      fun officeId hin => ?_⟩
    · rw [hkept] at hin
      exact (mem_intersectOfficeScope.mp hin).1
    · rw [hkept] at hin
      have hpermits := (mem_intersectOfficeScope.mp hin).2
      rw [← hoffices, ← hprincipal]
      exact hpermits.resolve_left hscoped

end Main

/-! A key for the offices 1 and 2 of a tenant that has the offices 1 and 3. -/

namespace NarrowKey

def env : KeyEnv where
  apiKeyPrefix := "fk"
  apiKeyDefaultExpirationDays := 90
  bootstrapAdminEnabled := false
  bootstrapAdminUsername := "admin"
  bootstrapAdminEmail := "admin@example.com"
  bootstrapAdminPassword := "password"
  hashApiKey rawKey := "digest of " ++ rawKey
  hashPassword password := .ok ("hash of " ++ password)

def input : CreateApiKeyInput :=
  ⟨"Reporting", "admin", none, [1, 2], [], false, false, false, some 1⟩

def draw : KeyDraw := ⟨5, 6, [171, 205]⟩

def rawKey : String := "fk_abcd"

def start : KeyState where
  now := 0
  tables := ⟨[OneLogin.user], [⟨7, 1, none, none, 604800000000, none⟩], []⟩
  keys := []

def made : KeyState := { start with keys := [env.newApiKey 0 input draw] }

def later : KeyState := { made with
  now := 5
  keys := [{ env.newApiKey 0 input draw with lastUsedAt := some 5 }] }

def headers : Headers := ⟨some "Bearer header.claims.signature", some " fk_abcd"⟩

def principal : PrincipalContext := ⟨1, "admin", [], [1, 2], false⟩

def projected : PrincipalContext := ⟨1, "admin", ["client_name_lookup"], [1], true⟩

open SkippedParameter in
/-- The key is used once before the request and another one revoked; the statement is bound with
the one office both the key and the tenant have. -/
theorem narrowed : ∃ binds offices, issueStatement run.parseDate run.parseDecimal disk catalog plan
      (guardSelectedCapability projected plan) run.limits (some "000123") =
        .ok (statement, binds) ∧
    binds[boundBefore statement.parameters 0]? = some (.bigints (some offices)) ∧
      offices ≠ [] ∧ offices ⊆ input.allowedOfficeIds := by
  have hreach : (keyService OneLogin.env env).Reachable start := .init rfl
  have hcreate : start.createApiKey env input draw = .ok (⟨6, rawKey⟩, made) := by decide +kernel
  have hrun : (keyService OneLogin.env env).run made
      [.tick 5, .authenticate rawKey, .revoke 9] = some later := by decide +kernel
  have hhonoured : ∃ key ∈ later.keys, key.id = 6 ∧ key.Honoured later.now :=
    ⟨_, List.mem_singleton_self _, rfl, by decide +kernel, by decide⟩
  have hheader : headers.extractApiKey = some rawKey := by decide +kernel
  have hauth : authenticatedChatClient OneLogin.env env later headers true = .ok principal := by
    decide +kernel
  obtain ⟨-, -, hconfines⟩ :=
    restricted_key_confines_statements hreach hcreate rfl hrun hhonoured hheader hauth
  have hissue : issueStatement run.parseDate run.parseDecimal disk catalog plan
      (guardSelectedCapability projected plan) run.limits (some "000123") =
        .ok (statement, [.bigints (some [1]), .string (some "Alex")]) := by decide +kernel
  obtain ⟨tenantOfficeIds, offices, -, hbound, hnonempty, -, hwithin⟩ := hconfines
    catalog (.ok [1, 3]) projected (by decide +kernel) ℤ _ _ _ _ _ _ _ _ hissue 0 _ rfl rfl rfl
  exact ⟨_, offices, hissue, hbound, hnonempty, hwithin⟩

end NarrowKey

end FineractReports.Auth

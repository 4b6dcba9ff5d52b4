import FineractReports.Auth.SessionService
import FineractReports.Library.Hex
import FineractReports.Policy.Authorization

/-!
# API keys

A key is kept by its hash, with the offices and the capabilities it was created for. A restricted
key without offices would read as an unrestricted one further on, so no such key is created.

A request is authenticated by its access token alone. An API key that comes with it can only
restrict the offices; one that is unknown, revoked, expired or without an owner restricts nothing.
-/

namespace FineractReports.Auth

/-! ### The rows -/

structure CreateApiKeyInput where
  name : String
  owner : String
  expiresAt : Option ℤ
  allowedOfficeIds : List ℤ
  allowedCapabilities : List String
  allowAllOffices : Bool
  allowAllCapabilities : Bool
  canViewPii : Bool
  userId : Option Uuid
deriving DecidableEq

structure CreatedApiKey where
  id : Uuid
  rawKey : String
deriving DecidableEq

/-- A row of `api_keys`. -/
structure ApiKeyRow where
  id : Uuid
  userId : Option Uuid
  name : String
  owner : String
  keyPrefix : String
  keyHash : String
  allowedOfficeIds : List ℤ
  allowedCapabilities : List String
  allowAllOffices : Bool
  allowAllCapabilities : Bool
  canViewPii : Bool
  expiresAt : Option ℤ
  revokedAt : Option ℤ
  lastUsedAt : Option ℤ
deriving DecidableEq

structure ClientContext where
  apiKeyId : Uuid
  userId : Option Uuid
  name : String
  owner : String
  keyPrefix : String
  allowedOfficeIds : List ℤ
  allowedCapabilities : List String
  allowAllOffices : Bool
  allowAllCapabilities : Bool
  canViewPii : Bool
  expiresAt : Option ℤ
deriving DecidableEq

namespace ApiKeyRow

variable (key : ApiKeyRow)

def client : ClientContext :=
  ⟨key.id, key.userId, key.name, key.owner, key.keyPrefix, key.allowedOfficeIds,
    key.allowedCapabilities, key.allowAllOffices, key.allowAllCapabilities, key.canViewPii,
    key.expiresAt⟩

/-- Neither revoked nor expired. -/
def Active (now : ℤ) : Prop :=
  key.revokedAt = none ∧ ∀ expiresAt ∈ key.expiresAt, now < expiresAt

instance (now : ℤ) : Decidable (key.Active now) := by unfold Active; infer_instance

end ApiKeyRow

/-! ### The key itself -/

def generateApiKey (keyPrefix : String) (secret : List UInt8) : String :=
  keyPrefix ++ "_" ++ String.ofList (Hex.encodeBytes secret)

def keyDisplayPrefix (rawKey : String) : String := String.ofList (rawKey.toList.take 18)

/-! ### The service -/

/-- `hashApiKey` is the hexadecimal SHA-256; `hashPassword` draws its own salt. -/
structure KeyEnv where
  apiKeyPrefix : String
  apiKeyDefaultExpirationDays : ℕ
  bootstrapAdminEnabled : Bool
  bootstrapAdminUsername : String
  bootstrapAdminEmail : String
  bootstrapAdminPassword : String
  hashApiKey : String → String
  hashPassword : String → Except String String

/-- The ids and the 32 bytes of the key a call draws at random. -/
structure KeyDraw where
  userId : Uuid
  keyId : Uuid
  secret : List UInt8

structure KeyState where
  now : ℤ
  tables : AuthTables
  keys : List ApiKeyRow
deriving DecidableEq

def validateCreateApiKeyInput (input : CreateApiKeyInput) : Except String Unit := do
  failIf (Text.trim input.name = "") "API key name is required"
  failIf (Text.trim input.owner = "") "API key owner is required"
  failIf (input.allowAllOffices = false ∧ input.allowedOfficeIds = [])
    "API key with allow_all_offices=false must list at least one allowed office"

namespace KeyEnv

variable (env : KeyEnv)

def defaultExpiration (now : ℤ) : Option ℤ :=
  if env.apiKeyDefaultExpirationDays = 0 then none
  else some (now + microseconds (env.apiKeyDefaultExpirationDays * 86400))

def newApiKey (now : ℤ) (input : CreateApiKeyInput) (draw : KeyDraw) : ApiKeyRow :=
  let rawKey := generateApiKey env.apiKeyPrefix draw.secret
  ⟨draw.keyId, input.userId, input.name, input.owner, keyDisplayPrefix rawKey,
    env.hashApiKey rawKey, input.allowedOfficeIds, input.allowedCapabilities,
    input.allowAllOffices, input.allowAllCapabilities, input.canViewPii,
    input.expiresAt.or (env.defaultExpiration now), none, none⟩

end KeyEnv

/-- The id, the name and the address of a user are unique. -/
def AuthTables.insertUser (tables : AuthTables) (user : UserRecord) : Option AuthTables :=
  if user.id ∈ tables.users.map (·.id) ∨ user.username ∈ tables.users.map (·.username) ∨
      (user.email ≠ none ∧ user.email ∈ tables.users.map (·.email)) then none
  else some { tables with users := tables.users ++ [user] }

namespace KeyState

variable (env : KeyEnv) (state : KeyState)

/-- The id and the hash are unique and an owner has to exist. -/
def insertKey (key : ApiKeyRow) : Option KeyState :=
  if key.id ∈ state.keys.map (·.id) ∨ key.keyHash ∈ state.keys.map (·.keyHash) ∨
      (∃ userId ∈ key.userId, userId ∉ state.tables.users.map (·.id)) then none
  else some { state with keys := state.keys ++ [key] }

def createApiKey (input : CreateApiKeyInput) (draw : KeyDraw) :
    Except String (CreatedApiKey × KeyState) := do
  validateCreateApiKeyInput input
  let created ← okOr (state.insertKey (env.newApiKey state.now input draw))
    "duplicate key value violates unique constraint"
  pure (⟨draw.keyId, generateApiKey env.apiKeyPrefix draw.secret⟩, created)

def findActiveByHash (hash : String) : Option ApiKeyRow :=
  state.keys.find? fun key => key.keyHash = hash ∧ key.Active state.now

def touchLastUsedAt (id : Uuid) : KeyState :=
  { state with
    keys := state.keys.map fun key =>
      if key.id = id then { key with lastUsedAt := some state.now } else key }

/-- A key without an owner is no key; one that has an owner is noted as used. -/
def authenticateApiKey (rawKey : String) : Option ClientContext × KeyState :=
  match (state.findActiveByHash (env.hashApiKey rawKey)).filter fun key => key.userId.isSome with
  | none => (none, state)
  | some key => (some key.client, state.touchLastUsedAt key.id)

def countForUser (userId : Uuid) : ℕ :=
  state.keys.countP fun key => key.userId = some userId ∧ key.revokedAt = none

def bootstrapAdminUser (draw : KeyDraw) (passwordHash : String) : UserRecord :=
  ⟨draw.userId, env.bootstrapAdminUsername, some env.bootstrapAdminEmail, passwordHash,
    some "Administrator", "admin", true, state.now, none⟩

def bootstrapKeyInput (userId : Uuid) : CreateApiKeyInput where
  name := "Default admin API key"
  owner := env.bootstrapAdminUsername
  expiresAt := none
  allowedOfficeIds := []
  allowedCapabilities := []
  allowAllOffices := true
  allowAllCapabilities := true
  canViewPii := true
  userId := some userId

/-- At a start of the application; a key that cannot be created leaves the user behind. -/
def bootstrapAdmin (draw : KeyDraw) : KeyState :=
  if env.bootstrapAdminEnabled = false then state
  else if (state.tables.findByUsername env.bootstrapAdminUsername).isSome = true then state
  else
    match env.hashPassword env.bootstrapAdminPassword with
    | .error _ => state
    | .ok passwordHash =>
      match state.tables.insertUser (state.bootstrapAdminUser env draw passwordHash) with
      | none => state
      | some tables =>
        let inserted := { state with tables := tables }
        if inserted.countForUser draw.userId = 0 then
          match inserted.createApiKey env (bootstrapKeyInput env draw.userId) draw with
          | .ok (_, created) => created
          | .error _ => inserted
        else inserted

end KeyState

/-! ### Requests -/

/-- The code and the message of a refusal. -/
inductive ApiError where
  | unauthorized (message : String)
  | forbidden (code : String) (message : String)
  | validation (message : String)
  | internal
deriving DecidableEq

/-- The two headers that are looked at; one that is absent or unreadable is none. -/
structure Headers where
  authorization : Option String
  xApiKey : Option String

namespace Headers

variable (headers : Headers)

def nonEmptyToken (token : String) : Option String :=
  if Text.trim token = "" then none else some (Text.trim token)

def extractApiKey : Option String := headers.xApiKey.bind nonEmptyToken

def bearerToken : Option String :=
  (headers.authorization.bind fun value => Text.stripPrefix value "Bearer ").bind nonEmptyToken

end Headers

section Extractors

variable (authEnv : AuthEnv) (env : KeyEnv) (state : KeyState) (headers : Headers)

/-- The extractor `AuthenticatedUser`. -/
def authenticatedUser : Except ApiError AuthenticatedUserRecord := do
  let token ← okOr headers.bearerToken (.unauthorized "missing access token")
  okOr (authenticateAccessToken authEnv state.tables state.now token)
    (.unauthorized "invalid access token")

/-- The extractor `AuthenticatedClient`. `keysUp` tells whether the statements on the keys get
through to the database. -/
def authenticatedClient (keysUp : Bool) : Except ApiError ClientContext := do
  let rawKey ← okOr headers.extractApiKey (.unauthorized "missing X-API-Key header")
  failIf (keysUp = false) .internal
  okOr (state.authenticateApiKey env rawKey).1 (.unauthorized "invalid API key")

/-- The offices a key contributes: those of a restricted key that is valid. -/
def keyOfficeIds (client : Except ApiError ClientContext) : List ℤ :=
  match client with
  | .ok client => if client.allowAllOffices = true then [] else client.allowedOfficeIds
  | .error _ => []

/-- The extractor `AuthenticatedChatClient`. -/
def authenticatedChatClient (keysUp : Bool) : Except ApiError PrincipalContext := do
  let user ← authenticatedUser authEnv state headers
  failIf (user.role ≠ "admin")
    (.forbidden "role_not_authorized" "This role is not authorized to use chat.")
  pure
    { userId := user.userId
      role := user.role
      capabilityIds := []
      officeIds := keyOfficeIds (authenticatedClient env state headers keysUp)
      canViewPii := false }

end Extractors

structure CreateApiKeyRequest where
  name : String
  expiresAt : Option ℤ
  allowedOfficeIds : List ℤ
  allowedCapabilities : List String
  allowAllOffices : Bool
  allowAllCapabilities : Bool
  canViewPii : Bool
deriving DecidableEq

def CreateApiKeyRequest.input (request : CreateApiKeyRequest) (owner : String) (userId : Uuid) :
    CreateApiKeyInput :=
  ⟨request.name, owner, request.expiresAt, request.allowedOfficeIds, request.allowedCapabilities,
    request.allowAllOffices, request.allowAllCapabilities, request.canViewPii, some userId⟩

def getUser (tables : AuthTables) (userId : Uuid) : Option UserProfile :=
  ((tables.findById userId).filter fun user => user.isActive).map userProfile

/-- `POST /auth/api-keys`: the key belongs to the admin who asks for it. -/
def createApiKey (authEnv : AuthEnv) (env : KeyEnv) (state : KeyState) (headers : Headers)
    (request : CreateApiKeyRequest) (draw : KeyDraw) :
    Except ApiError (CreatedApiKey × KeyState) := do
  let user ← authenticatedUser authEnv state headers
  failIf (request.name = "") (.validation "name is required")
  failIf (user.role ≠ "admin") (.forbidden "forbidden" "admin role is required")
  let profile ← okOr (getUser state.tables user.userId) (.unauthorized "invalid access token")
  mapError (fun _ => .internal)
    (state.createApiKey env (request.input profile.username user.userId) draw)

/-! ### Runs -/

/-- Sessions and users come and go; a key whose owner is deleted has none. Keys are revoked in the
database. -/
inductive KeyAction where
  | tick (microseconds : ℕ)
  | tables (tables : AuthTables)
  | bootstrap (draw : KeyDraw)
  | create (headers : Headers) (request : CreateApiKeyRequest) (draw : KeyDraw)
  | authenticate (rawKey : String)
  | revoke (id : Uuid)

def KeyState.setTables (state : KeyState) (tables : AuthTables) : KeyState :=
  { state with
    tables := tables
    keys := state.keys.map fun key =>
      { key with userId := key.userId.filter fun userId => userId ∈ tables.users.map (·.id) } }

def KeyState.revoke (state : KeyState) (id : Uuid) : KeyState :=
  { state with
    keys := state.keys.map fun key =>
      if key.id = id then { key with revokedAt := some state.now } else key }

def keyStep (authEnv : AuthEnv) (env : KeyEnv) (state : KeyState) : KeyAction → Option KeyState
  | .tick microseconds => some { state with now := state.now + microseconds }
  | .tables tables => some (state.setTables tables)
  | .bootstrap draw => some (state.bootstrapAdmin env draw)
  | .create headers request draw =>
    match createApiKey authEnv env state headers request draw with
    | .ok (_, created) => some created
    | .error _ => some state
  | .authenticate rawKey => some (state.authenticateApiKey env rawKey).2
  | .revoke id => some (state.revoke id)

/-- `AuthService` as the keeper of the keys. -/
def keyService (authEnv : AuthEnv) (env : KeyEnv) : Machine KeyState KeyAction where
  init state := state.keys = []
  step := keyStep authEnv env

end FineractReports.Auth

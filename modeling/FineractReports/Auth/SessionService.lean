import FineractReports.Assistant.Clarification
import FineractReports.Library.Checks
import FineractReports.Library.Text
import FineractReports.Library.Transition

/-!
# Login sessions

A login opens a session and hands out a refresh token and an access token. The refresh token
stands in the database by its hash, the access token is signed and names its session. A logout
revokes the session and notes the hash of the refresh token in Redis, which a refresh asks before
the database.

Any number of calls run at once and each statement is one step. Instants are in microseconds.
-/

namespace FineractReports.Auth

/-! ### The rows -/

structure UserRecord where
  id : Uuid
  username : String
  email : Option String
  passwordHash : String
  fullName : Option String
  role : String
  isActive : Bool
  createdAt : ℤ
  lastLoginAt : Option ℤ
deriving DecidableEq

structure UserProfile where
  id : Uuid
  username : String
  email : Option String
  fullName : Option String
  role : String
  isActive : Bool
  createdAt : ℤ
  lastLoginAt : Option ℤ
deriving DecidableEq

def userProfile (user : UserRecord) : UserProfile :=
  ⟨user.id, user.username, user.email, user.fullName, user.role, user.isActive, user.createdAt,
    user.lastLoginAt⟩

structure UserSession where
  id : Uuid
  userId : Uuid
  userAgent : Option String
  ipAddress : Option String
  expiresAt : ℤ
  revokedAt : Option ℤ
deriving DecidableEq

structure RefreshTokenRow where
  id : Uuid
  sessionId : Uuid
  userId : Uuid
  tokenHash : String
  expiresAt : ℤ
  revokedAt : Option ℤ
deriving DecidableEq

structure ActiveRefreshTokenRecord where
  id : Uuid
  sessionId : Uuid
  userId : Uuid
  expiresAt : ℤ
deriving DecidableEq

structure AuthenticatedUserRecord where
  userId : Uuid
  sessionId : Uuid
  role : String
deriving DecidableEq

structure AuthTables where
  users : List UserRecord
  sessions : List UserSession
  refreshTokens : List RefreshTokenRow
deriving DecidableEq

/-! ### Tokens -/

def ACCESS_TOKEN_ISSUER : String := "ai-report"
def ACCESS_TOKEN_AUDIENCE : String := "ai-report-api"

structure AccessTokenClaims where
  sub : Uuid
  sid : Uuid
  role : String
  iss : String
  aud : String
  exp : ℤ
  iat : ℤ
deriving DecidableEq

structure IssuedAccessToken where
  token : String
  expiresIn : ℤ
deriving DecidableEq

structure IssuedRefreshToken where
  id : Uuid
  rawToken : String
  tokenHash : String
  expiresAt : ℤ
deriving DecidableEq

/-- The configuration and the libraries behind the service. `decode` accepts a token whose
signature is right and reads its claims. -/
structure AuthEnv where
  jwtAccessTokenExpirySeconds : ℤ
  jwtRefreshTokenExpirySeconds : ℤ
  hasRedis : Bool
  verifyPassword : String → String → Except String Bool
  hashToken : String → String
  encode : AccessTokenClaims → Except String String
  decode : String → Option AccessTokenClaims

/-- What a call draws at random, and whether it reaches Redis. -/
structure Draw where
  sessionId : Uuid
  refreshId : Uuid
  rawToken : String
  redisUp : Bool

def microseconds (seconds : ℤ) : ℤ := seconds * 1000000

def timestamp (instant : ℤ) : ℤ := instant / 1000000

namespace AuthEnv

variable (env : AuthEnv)

def issueAccessToken (now : ℤ) (userId sessionId : Uuid) (role : String) :
    Except String IssuedAccessToken := do
  let expiresIn := env.jwtAccessTokenExpirySeconds
  let token ← env.encode
    { sub := userId
      sid := sessionId
      role := role
      iss := ACCESS_TOKEN_ISSUER
      aud := ACCESS_TOKEN_AUDIENCE
      exp := timestamp (now + microseconds expiresIn)
      iat := timestamp now }
  pure ⟨token, expiresIn⟩

def issueRefreshToken (now : ℤ) (draw : Draw) : IssuedRefreshToken :=
  ⟨draw.refreshId, draw.rawToken, env.hashToken draw.rawToken,
    now + microseconds env.jwtRefreshTokenExpirySeconds⟩

/-- No leeway: a token is good to the end of the second it expires in. -/
def verifyAccessToken (now : ℤ) (token : String) : Option AccessTokenClaims :=
  (env.decode token).filter fun claims => claims.iss = ACCESS_TOKEN_ISSUER ∧
    claims.aud = ACCESS_TOKEN_AUDIENCE ∧ timestamp now ≤ claims.exp

end AuthEnv

/-! ### The statements -/

namespace AuthTables

variable (tables : AuthTables)

def findByUsername (username : String) : Option UserRecord :=
  tables.users.find? fun user => user.username = username

def findById (id : Uuid) : Option UserRecord := tables.users.find? fun user => user.id = id

/-- The token and its session are both neither revoked nor expired. -/
def findActiveRefreshToken (now : ℤ) (hash : String) : Option ActiveRefreshTokenRecord :=
  tables.refreshTokens.findSome? fun token =>
    if token.tokenHash = hash ∧ token.revokedAt = none ∧ now < token.expiresAt then
      (tables.sessions.find? fun session => session.id = token.sessionId ∧
        session.revokedAt = none ∧ now < session.expiresAt).map fun _ =>
          ⟨token.id, token.sessionId, token.userId, token.expiresAt⟩
    else none

/-- The role is the one the user has now. -/
def findAuthenticatedUser (now : ℤ) (userId sessionId : Uuid) : Option AuthenticatedUserRecord :=
  tables.users.findSome? fun user =>
    if user.id = userId ∧ user.isActive = true then
      (tables.sessions.find? fun session => session.userId = user.id ∧ session.id = sessionId ∧
        session.revokedAt = none ∧ now < session.expiresAt).map fun session =>
          ⟨user.id, session.id, user.role⟩
    else none

/-- The id is a primary key and the user has to exist. -/
def insertSession (session : UserSession) : Option AuthTables :=
  if session.id ∈ tables.sessions.map (·.id) ∨ session.userId ∉ tables.users.map (·.id) then none
  else some { tables with sessions := tables.sessions ++ [session] }

/-- The id and the hash are unique, the session and the user have to exist. -/
def insertRefreshToken (token : RefreshTokenRow) : Option AuthTables :=
  if token.id ∈ tables.refreshTokens.map (·.id) ∨
      token.tokenHash ∈ tables.refreshTokens.map (·.tokenHash) ∨
      token.sessionId ∉ tables.sessions.map (·.id) ∨ token.userId ∉ tables.users.map (·.id) then
    none
  else some { tables with refreshTokens := tables.refreshTokens ++ [token] }

def revokeSession (now : ℤ) (sessionId : Uuid) : AuthTables :=
  { tables with
    sessions := tables.sessions.map fun session =>
      if session.id = sessionId then { session with revokedAt := some now } else session }

def setUser (id : Uuid) (change : UserRecord → UserRecord) : AuthTables :=
  { tables with users := tables.users.map fun user => if user.id = id then change user else user }

def touchLastLoginAt (now : ℤ) (id : Uuid) : AuthTables :=
  tables.setUser id fun user => { user with lastLoginAt := some now }

end AuthTables

/-- A request with an access token: the session is asked for in the database each time. -/
def authenticateAccessToken (env : AuthEnv) (tables : AuthTables) (now : ℤ) (token : String) :
    Option AuthenticatedUserRecord :=
  (env.verifyAccessToken now token).bind fun claims =>
    tables.findAuthenticatedUser now claims.sub claims.sid

/-! ### The calls -/

structure LoginInput where
  username : String
  password : String
  userAgent : Option String
  ipAddress : Option String
deriving DecidableEq

/-- What a login holds once the password is verified. -/
structure VerifiedLogin where
  input : LoginInput
  user : UserRecord
  sessionId : Uuid
  refresh : IssuedRefreshToken
  access : IssuedAccessToken
deriving DecidableEq

structure LoginResult where
  accessToken : String
  tokenType : String
  expiresIn : ℤ
  user : UserProfile
deriving DecidableEq

structure RefreshResult where
  accessToken : String
  tokenType : String
  expiresIn : ℤ
deriving DecidableEq

def refreshResult (access : IssuedAccessToken) : RefreshResult :=
  ⟨access.token, "Bearer", access.expiresIn⟩

inductive AuthResponse where
  | loggedIn (result : LoginResult) (rawToken : String)
  | refreshed (result : Option RefreshResult)
  | loggedOut
  | failed (message : String)
deriving DecidableEq

namespace VerifiedLogin

variable (login : VerifiedLogin)

def session : UserSession :=
  ⟨login.sessionId, login.user.id, login.input.userAgent, login.input.ipAddress,
    login.refresh.expiresAt, none⟩

def token : RefreshTokenRow :=
  ⟨login.refresh.id, login.sessionId, login.user.id, login.refresh.tokenHash,
    login.refresh.expiresAt, none⟩

def result : AuthResponse :=
  .loggedIn ⟨login.access.token, "Bearer", login.access.expiresIn, userProfile login.user⟩
    login.refresh.rawToken

end VerifiedLogin

/-- How far a call is: each phase but the first and the last stands before a statement. -/
inductive AuthCall where
  | idle
  | login (input : LoginInput)
  | opening (login : VerifiedLogin)
  | storing (login : VerifiedLogin)
  | touching (login : VerifiedLogin)
  | refresh (rawToken : String)
  | looking (hash : String)
  | renewing (record : ActiveRefreshTokenRecord)
  | logout (rawToken : String)
  | revoking (hash : String) (record : ActiveRefreshTokenRecord)
  | caching (hash : String) (expiresAt : ℤ)
  | ended (response : AuthResponse)
deriving DecidableEq

inductive AuthRequest where
  | login (input : LoginInput)
  | refresh (rawToken : String)
  | logout (rawToken : String)

def AuthRequest.start : AuthRequest → AuthCall
  | .login input => .login input
  | .refresh rawToken => .refresh rawToken
  | .logout rawToken => .logout rawToken

/-- What has happened to the sessions. -/
inductive SessionEvent where
  | opened (login : VerifiedLogin)
  | revoked (sessionId : Uuid)
deriving DecidableEq

/-- `redis` holds the keys with their deadlines; the history has the latest event first. -/
structure AuthState where
  now : ℤ
  tables : AuthTables
  redis : String → Option ℤ
  calls : ℕ → AuthCall
  history : List SessionEvent

def revokedKey (hash : String) : String := "auth:revoked_refresh:" ++ hash

namespace AuthState

variable (env : AuthEnv) (state : AuthState) (draw : Draw)

def setCall (call : ℕ) (phase : AuthCall) : AuthState :=
  { state with calls := Function.update state.calls call phase }

def verifyLogin (input : LoginInput) : Except String VerifiedLogin := do
  let user ← okOr (state.tables.findByUsername (Text.trim input.username)) "invalid credentials"
  failIf (user.isActive = false) "invalid credentials"
  let verified ← env.verifyPassword input.password user.passwordHash
  failIf (verified = false) "invalid credentials"
  let access ← env.issueAccessToken state.now user.id draw.sessionId user.role
  pure ⟨input, user, draw.sessionId, env.issueRefreshToken state.now draw, access⟩

/-- Redis that is absent or out of reach has nothing to say. -/
def refreshTokenRevokedInRedis (hash : String) : Bool :=
  env.hasRedis && draw.redisUp &&
    (state.redis (revokedKey hash)).any fun deadline => state.now < deadline

/-- The key lives for the rest of the token's time, one second at least. -/
def cacheRefreshTokenRevocation (hash : String) (expiresAt : ℤ) : AuthState :=
  if env.hasRedis = true ∧ draw.redisUp = true then
    let ttl := max (Int.tdiv (expiresAt - state.now) 1000000) 1
    { state with
      redis := Function.update state.redis (revokedKey hash) (some (state.now + microseconds ttl)) }
  else state

/-- The renewed access token, when the user is still active. -/
def renew (record : ActiveRefreshTokenRecord) : Except String (Option RefreshResult) :=
  match (state.tables.findById record.userId).filter fun user => user.isActive with
  | none => .ok none
  | some user => (env.issueAccessToken state.now user.id record.sessionId user.role).map
      fun access => some (refreshResult access)

/-- The next step of a call: the state it leaves and where the call goes on. -/
def advance : AuthCall → Option (AuthState × AuthCall)
  | .idle | .ended _ => none
  | .login input =>
    match state.verifyLogin env draw input with
    | .ok login => some (state, .opening login)
    | .error message => some (state, .ended (.failed message))
  | .opening login =>
    match state.tables.insertSession login.session with
    | some tables => some ({ state with
        tables := tables
        history := .opened login :: state.history }, .storing login)
    | none => some (state, .ended (.failed "duplicate key value violates unique constraint"))
  | .storing login =>
    match state.tables.insertRefreshToken login.token with
    | some tables => some ({ state with tables := tables }, .touching login)
    | none => some (state, .ended (.failed "duplicate key value violates unique constraint"))
  | .touching login =>
    some ({ state with tables := state.tables.touchLastLoginAt state.now login.user.id },
      .ended login.result)
  | .refresh rawToken =>
    if state.refreshTokenRevokedInRedis env draw (env.hashToken rawToken) = true then
      some (state, .ended (.refreshed none))
    else some (state, .looking (env.hashToken rawToken))
  | .looking hash =>
    match state.tables.findActiveRefreshToken state.now hash with
    | some record => some (state, .renewing record)
    | none => some (state, .ended (.refreshed none))
  | .renewing record =>
    match state.renew env record with
    | .ok result => some (state, .ended (.refreshed result))
    | .error message => some (state, .ended (.failed message))
  | .logout rawToken =>
    match state.tables.findActiveRefreshToken state.now (env.hashToken rawToken) with
    | some record => some (state, .revoking (env.hashToken rawToken) record)
    | none => some (state, .ended .loggedOut)
  | .revoking hash record =>
    some ({ state with
      tables := state.tables.revokeSession state.now record.sessionId
      history := .revoked record.sessionId :: state.history }, .caching hash record.expiresAt)
  | .caching hash expiresAt =>
    some (state.cacheRefreshTokenRevocation env draw hash expiresAt, .ended .loggedOut)

end AuthState

/-- The users are managed elsewhere: one may be made inactive or active at any time. -/
inductive AuthAction where
  | tick (microseconds : ℕ)
  | setActive (userId : Uuid) (isActive : Bool)
  | start (call : ℕ) (request : AuthRequest)
  | advance (call : ℕ) (draw : Draw)
  | lose (call : ℕ) (draw : Draw)
  | fail (call : ℕ)

def AuthCall.isRunning : AuthCall → Bool
  | .idle | .ended _ => false
  | _ => true

def disconnected : AuthCall := .ended (.failed "connection lost")

/-- A statement that fails has been executed, with its answer lost, or it has not. -/
def authStep (env : AuthEnv) (state : AuthState) : AuthAction → Option AuthState
  | .tick microseconds => some { state with now := state.now + microseconds }
  | .setActive userId isActive => some { state with
      tables := state.tables.setUser userId fun user => { user with isActive := isActive } }
  | .start call request =>
    if state.calls call = .idle then some (state.setCall call request.start) else none
  | .advance call draw => (state.advance env draw (state.calls call)).map
      fun (after, phase) => after.setCall call phase
  | .lose call draw => (state.advance env draw (state.calls call)).map
      fun (after, _) => after.setCall call disconnected
  | .fail call =>
    if (state.calls call).isRunning = true then some (state.setCall call disconnected) else none

structure AuthState.Initial (state : AuthState) : Prop where
  sessions : state.tables.sessions = []
  refreshTokens : state.tables.refreshTokens = []
  redis : ∀ key, state.redis key = none
  calls : ∀ call, state.calls call = .idle
  history : state.history = []

/-- `AuthService`, called any number of times. -/
def authService (env : AuthEnv) : Machine AuthState AuthAction where
  init := AuthState.Initial
  step := authStep env

end FineractReports.Auth

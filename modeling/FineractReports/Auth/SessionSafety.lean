import FineractReports.Auth.SessionService

/-!
# The safety of login sessions

Rows are only added, and a session that is revoked stays so. What the calls rely on between their
statements is kept by the statements of all the others. So a token is accepted only within the
session of a login that knew the password, and never once the session is revoked.
-/

namespace FineractReports.Auth

/-- The login knew the password of a user who was active. -/
structure VerifiedLogin.Verified (env : AuthEnv) (login : VerifiedLogin) : Prop where
  username : login.user.username = Text.trim login.input.username
  active : login.user.isActive = true
  password : env.verifyPassword login.input.password login.user.passwordHash = .ok true
  hashed : login.refresh.tokenHash = env.hashToken login.refresh.rawToken

/-- The session of a refresh token is revoked. -/
def AuthTables.HashRevoked (tables : AuthTables) (hash : String) : Prop :=
  ∃ token ∈ tables.refreshTokens, token.tokenHash = hash ∧
    ∃ session ∈ tables.sessions, session.id = token.sessionId ∧ session.revokedAt ≠ none

/-- A login that opened its session. -/
def AuthState.HasOpened (env : AuthEnv) (state : AuthState) (login : VerifiedLogin) : Prop :=
  .opened login ∈ state.history ∧ login.Verified env

/-- What a call relies on before its next statement. -/
def CallOk (env : AuthEnv) (state : AuthState) : AuthCall → Prop
  | .opening login => login.Verified env
  | .storing login => state.HasOpened env login
  | .revoking hash record => ∃ token ∈ state.tables.refreshTokens, token.tokenHash = hash ∧
      token.sessionId = record.sessionId ∧
      ∃ session ∈ state.tables.sessions, session.id = token.sessionId
  | .caching hash _ => state.tables.HashRevoked hash
  | _ => True

structure SessionInv (env : AuthEnv) (state : AuthState) : Prop where
  ids : (state.tables.sessions.map (·.id)).Nodup
  hashes : (state.tables.refreshTokens.map (·.tokenHash)).Nodup
  sessions : ∀ session ∈ state.tables.sessions, ∃ login, state.HasOpened env login ∧
    session = { login.session with revokedAt := session.revokedAt }
  tokens : ∀ token ∈ state.tables.refreshTokens, ∃ login, state.HasOpened env login ∧
    token = login.token
  revoked : ∀ session ∈ state.tables.sessions,
    .revoked session.id ∈ state.history → session.revokedAt ≠ none
  known : ∀ sessionId, .revoked sessionId ∈ state.history →
    ∃ session ∈ state.tables.sessions, session.id = sessionId
  cached : ∀ hash deadline, state.redis (revokedKey hash) = some deadline →
    state.tables.HashRevoked hash
  calls : ∀ call, CallOk env state (state.calls call)

section Steps

variable {env : AuthEnv} {state after : AuthState} {draw : Draw} {phase next : AuthCall}
  {call : ℕ} {hash : String} {login : VerifiedLogin}

/-! ### The queries -/

theorem exists_of_findActiveRefreshToken {tables : AuthTables} {now : ℤ}
    {record : ActiveRefreshTokenRecord} (h : tables.findActiveRefreshToken now hash = some record) :
    ∃ token ∈ tables.refreshTokens, token.tokenHash = hash ∧ now < token.expiresAt ∧
      record = ⟨token.id, token.sessionId, token.userId, token.expiresAt⟩ ∧
      ∃ session ∈ tables.sessions, session.id = token.sessionId ∧ session.revokedAt = none ∧
        now < session.expiresAt := by
  obtain ⟨token, hmem, h⟩ := List.exists_of_findSome?_eq_some h
  split_ifs at h with htoken
  obtain ⟨session, hfind, rfl⟩ := Option.map_eq_some_iff.mp h
  have hsession := List.find?_some hfind
  exact ⟨token, hmem, htoken.1, htoken.2.2, rfl, session, List.mem_of_find?_eq_some hfind,
    by simpa using hsession⟩

theorem exists_of_findAuthenticatedUser {tables : AuthTables} {now : ℤ} {userId sessionId : Uuid}
    {record : AuthenticatedUserRecord}
    (h : tables.findAuthenticatedUser now userId sessionId = some record) :
    record.userId = userId ∧ record.sessionId = sessionId ∧
      (∃ user ∈ tables.users, user.id = userId ∧ user.isActive = true ∧ user.role = record.role) ∧
      ∃ session ∈ tables.sessions, session.id = sessionId ∧ session.userId = userId ∧
        session.revokedAt = none ∧ now < session.expiresAt := by
  obtain ⟨user, hmem, h⟩ := List.exists_of_findSome?_eq_some h
  split_ifs at h with huser
  obtain ⟨session, hfind, rfl⟩ := Option.map_eq_some_iff.mp h
  have hsession := List.find?_some hfind
  simp only [Bool.decide_and, Bool.and_eq_true, decide_eq_true_eq] at hsession
  obtain ⟨hown, hid, hlive, hunexpired⟩ := hsession
  exact ⟨huser.1, hid, ⟨user, hmem, huser.1, huser.2, rfl⟩, session,
    List.mem_of_find?_eq_some hfind, hid, hown.trans huser.1, hlive, hunexpired⟩

theorem verifyLogin_verified {input : LoginInput}
    (h : state.verifyLogin env draw input = .ok login) : login.Verified env := by
  unfold AuthState.verifyLogin at h
  simp only [bind_eq_ok_iff, okOr_eq_ok, failIf_eq_ok, pure_eq_ok, exists_unit_iff] at h
  obtain ⟨user, huser, hactive, verified, hverified, htrue, access, -, rfl⟩ := h
  refine ⟨by simpa using List.find?_some huser, Bool.eq_true_of_not_eq_false hactive, ?_, rfl⟩
  rw [hverified, Bool.eq_true_of_not_eq_false htrue]

/-! ### What a step leaves of the rows -/

/-- Rows are added and sessions revoked, nothing else. -/
structure AuthState.Extends (before after : AuthState) : Prop where
  history : before.history ⊆ after.history
  tokens : before.tables.refreshTokens ⊆ after.tables.refreshTokens
  sessions : ∀ session ∈ before.tables.sessions, ∃ later ∈ after.tables.sessions,
    later.id = session.id ∧ (session.revokedAt ≠ none → later.revokedAt ≠ none)

theorem AuthState.Extends.refl (state : AuthState) : state.Extends state :=
  ⟨List.Subset.refl _, List.Subset.refl _, fun session hmem => ⟨session, hmem, rfl, id⟩⟩

theorem AuthState.Extends.setCall (h : state.Extends after) :
    state.Extends (after.setCall call phase) :=
  ⟨h.history, h.tokens, h.sessions⟩

theorem AuthState.Extends.hashRevoked (h : state.Extends after)
    (hrevoked : state.tables.HashRevoked hash) : after.tables.HashRevoked hash := by
  obtain ⟨token, htoken, hhash, session, hsession, hid, hset⟩ := hrevoked
  obtain ⟨later, hlater, hsame, hstays⟩ := h.sessions session hsession
  exact ⟨token, h.tokens htoken, hhash, later, hlater, hsame.trans hid, hstays hset⟩

theorem AuthState.Extends.hasOpened (h : state.Extends after)
    (hopened : state.HasOpened env login) : after.HasOpened env login :=
  ⟨h.history hopened.1, hopened.2⟩

theorem AuthState.Extends.callOk (h : state.Extends after) (hok : CallOk env state phase) :
    CallOk env after phase := by
  cases phase with
  | storing login => exact h.hasOpened hok
  | revoking hash record =>
    obtain ⟨token, htoken, hhash, hrecord, session, hsession, hid⟩ := hok
    obtain ⟨later, hlater, hsame, -⟩ := h.sessions session hsession
    exact ⟨token, h.tokens htoken, hhash, hrecord, later, hlater, hsame.trans hid⟩
  | caching hash expiresAt => exact h.hashRevoked hok
  | opening login => exact hok
  | _ => trivial

/-- What one statement of a call does. -/
inductive AuthEffect (env : AuthEnv) (state : AuthState) : AuthState → AuthCall → Prop
  | move {next : AuthCall} (hok : CallOk env state next) : AuthEffect env state state next
  | opened {login : VerifiedLogin} {tables : AuthTables} (hverified : login.Verified env)
      (hinsert : state.tables.insertSession login.session = some tables) :
      AuthEffect env state { state with
        tables := tables
        history := .opened login :: state.history } (.storing login)
  | stored {login : VerifiedLogin} {tables : AuthTables} (hopened : state.HasOpened env login)
      (hinsert : state.tables.insertRefreshToken login.token = some tables) :
      AuthEffect env state { state with tables := tables } (.touching login)
  | touched (userId : Uuid) (response : AuthResponse) :
      AuthEffect env state { state with
        tables := state.tables.touchLastLoginAt state.now userId } (.ended response)
  | revoked {hash : String} {record : ActiveRefreshTokenRecord}
      (hok : CallOk env state (.revoking hash record)) :
      AuthEffect env state { state with
        tables := state.tables.revokeSession state.now record.sessionId
        history := .revoked record.sessionId :: state.history } (.caching hash record.expiresAt)
  | cached {hash : String} {expiresAt : ℤ} (draw : Draw)
      (hok : CallOk env state (.caching hash expiresAt)) :
      AuthEffect env state (state.cacheRefreshTokenRevocation env draw hash expiresAt)
        (.ended .loggedOut)

theorem advance_effect (hok : CallOk env state phase)
    (h : state.advance env draw phase = some (after, next)) : AuthEffect env state after next := by
  cases phase with
  | idle => cases h
  | ended response => cases h
  | login input =>
    simp only [AuthState.advance] at h
    split at h
    · rename_i login hverify
      cases h
      exact .move (verifyLogin_verified hverify)
    · cases h
      exact .move trivial
  | opening login =>
    simp only [AuthState.advance] at h
    split at h
    · rename_i tables hinsert
      cases h
      exact .opened hok hinsert
    · cases h
      exact .move trivial
  | storing login =>
    simp only [AuthState.advance] at h
    split at h
    · rename_i tables hinsert
      cases h
      exact .stored hok hinsert
    · cases h
      exact .move trivial
  | touching login =>
    cases h
    exact .touched _ _
  | refresh rawToken =>
    simp only [AuthState.advance] at h
    split_ifs at h
    · cases h
      exact .move trivial
    · cases h
      exact .move trivial
  | looking hash =>
    simp only [AuthState.advance] at h
    split at h
    · cases h
      exact .move trivial
    · cases h
      exact .move trivial
  | renewing record =>
    simp only [AuthState.advance] at h
    split at h
    · cases h
      exact .move trivial
    · cases h
      exact .move trivial
  | logout rawToken =>
    simp only [AuthState.advance] at h
    split at h
    · rename_i record hfind
      cases h
      obtain ⟨token, htoken, hhash, -, rfl, session, hsession, hid, -⟩ :=
        exists_of_findActiveRefreshToken hfind
      exact .move ⟨token, htoken, hhash, rfl, session, hsession, hid⟩
    · cases h
      exact .move trivial
  | revoking hash record =>
    cases h
    exact .revoked hok
  | caching hash expiresAt =>
    cases h
    exact .cached draw hok

theorem mem_revokeSession {tables : AuthTables} {now : ℤ} {sessionId : Uuid}
    {session : UserSession} : session ∈ (tables.revokeSession now sessionId).sessions ↔
      ∃ old ∈ tables.sessions,
        session = if old.id = sessionId then { old with revokedAt := some now } else old := by
  simp only [AuthTables.revokeSession, List.mem_map, eq_comm]

theorem insertSession_eq_some {tables tables' : AuthTables} {session : UserSession}
    (h : tables.insertSession session = some tables') :
    session.id ∉ tables.sessions.map (·.id) ∧
      tables' = { tables with sessions := tables.sessions ++ [session] } := by
  unfold AuthTables.insertSession at h
  split_ifs at h with hrefused
  exact ⟨fun hmem => hrefused (Or.inl hmem), (Option.some.inj h).symm⟩

theorem insertRefreshToken_eq_some {tables tables' : AuthTables} {token : RefreshTokenRow}
    (h : tables.insertRefreshToken token = some tables') :
    token.tokenHash ∉ tables.refreshTokens.map (·.tokenHash) ∧
      tables' = { tables with refreshTokens := tables.refreshTokens ++ [token] } := by
  unfold AuthTables.insertRefreshToken at h
  split_ifs at h with hrefused
  exact ⟨fun hmem => hrefused (Or.inr (Or.inl hmem)), (Option.some.inj h).symm⟩

/-- The revocation of a session keeps its row but for the column. -/
theorem revokeSession_extends {now : ℤ} {sessionId : Uuid} {history : List SessionEvent}
    (hhistory : state.history ⊆ history) : state.Extends { state with
      tables := state.tables.revokeSession now sessionId
      history := history } := by
  refine ⟨hhistory, List.Subset.refl _, fun session hmem => ?_⟩
  refine ⟨_, mem_revokeSession.mpr ⟨session, hmem, rfl⟩, ?_⟩
  split_ifs
  · exact ⟨rfl, fun _ => Option.some_ne_none _⟩
  · exact ⟨rfl, id⟩

theorem AuthEffect.extends (h : AuthEffect env state after next) : state.Extends after := by
  cases h with
  | move hok => exact .refl state
  | opened hverified hinsert =>
    obtain ⟨-, rfl⟩ := insertSession_eq_some hinsert
    exact ⟨List.subset_cons_self _ _, List.Subset.refl _,
      fun session hmem => ⟨session, List.mem_append_left _ hmem, rfl, id⟩⟩
  | stored hopened hinsert =>
    obtain ⟨-, rfl⟩ := insertRefreshToken_eq_some hinsert
    exact ⟨List.Subset.refl _, List.subset_append_left _ _,
      fun session hmem => ⟨session, hmem, rfl, id⟩⟩
  | touched userId response =>
    exact ⟨List.Subset.refl _, List.Subset.refl _, fun session hmem => ⟨session, hmem, rfl, id⟩⟩
  | revoked hok => exact revokeSession_extends (List.subset_cons_self _ _)
  | cached draw hok =>
    unfold AuthState.cacheRefreshTokenRevocation
    split_ifs
    · exact ⟨List.Subset.refl _, List.Subset.refl _, fun session hmem => ⟨session, hmem, rfl, id⟩⟩
    · exact .refl state

/-- A call rests on what its statement has just done. -/
theorem AuthEffect.callOk (h : AuthEffect env state after next) : CallOk env after next := by
  cases h with
  | move hok => exact hok
  | opened hverified hinsert => exact ⟨List.mem_cons_self, hverified⟩
  | stored hopened hinsert => trivial
  | touched userId response => trivial
  | @revoked hash record hok =>
    obtain ⟨token, htoken, hhash, hrecord, session, hsession, hid⟩ := hok
    refine ⟨token, htoken, hhash, _, mem_revokeSession.mpr ⟨session, hsession, rfl⟩, ?_⟩
    rw [if_pos (hid.trans hrecord)]
    exact ⟨hid, Option.some_ne_none _⟩
  | cached draw hok => trivial

theorem AuthEffect.calls (h : AuthEffect env state after next) : after.calls = state.calls := by
  cases h with
  | cached draw hok =>
    unfold AuthState.cacheRefreshTokenRevocation
    split_ifs <;> rfl
  | _ => rfl

theorem revokedKey_injective {hash other : String} (h : revokedKey hash = revokedKey other) :
    hash = other :=
  (String.append_right_inj _).mp h

/-- A session is opened. -/
theorem SessionInv.opened {tables : AuthTables} (h : SessionInv env state)
    (hverified : login.Verified env)
    (hinsert : state.tables.insertSession login.session = some tables) :
    SessionInv env { state with
      tables := tables
      history := .opened login :: state.history } := by
  have hextends := (AuthEffect.opened hverified hinsert).extends
  obtain ⟨hfresh, rfl⟩ := insertSession_eq_some hinsert
  refine ⟨?_, h.hashes, ?_, ?_, ?_, ?_, ?_, fun call => hextends.callOk (h.calls call)⟩
  · rw [List.map_append]
    exact h.ids.append (List.nodup_singleton _) (by simpa using hfresh)
  · intro session hmem
    rcases List.mem_append.mp hmem with hold | hnew
    · obtain ⟨opened, hopened, hrow⟩ := h.sessions session hold
      exact ⟨opened, hextends.hasOpened hopened, hrow⟩
    · obtain rfl := List.mem_singleton.mp hnew
      exact ⟨login, ⟨List.mem_cons_self, hverified⟩, rfl⟩
  · intro token hmem
    obtain ⟨opened, hopened, hrow⟩ := h.tokens token hmem
    exact ⟨opened, hextends.hasOpened hopened, hrow⟩
  · intro session hmem hrevoked
    have hevent : .revoked session.id ∈ state.history := by simpa using hrevoked
    rcases List.mem_append.mp hmem with hold | hnew
    · exact h.revoked session hold hevent
    · obtain rfl := List.mem_singleton.mp hnew
      obtain ⟨old, hold, hid⟩ := h.known _ hevent
      exact absurd (List.mem_map.mpr ⟨old, hold, hid⟩) hfresh
  · intro sessionId hrevoked
    obtain ⟨session, hmem, hid⟩ := h.known sessionId (by simpa using hrevoked)
    exact ⟨session, List.mem_append_left _ hmem, hid⟩
  · exact fun hash deadline hkey => hextends.hashRevoked (h.cached hash deadline hkey)

/-- A refresh token is stored. -/
theorem SessionInv.stored {tables : AuthTables} (h : SessionInv env state)
    (hopened : state.HasOpened env login)
    (hinsert : state.tables.insertRefreshToken login.token = some tables) :
    SessionInv env { state with tables := tables } := by
  have hextends := (AuthEffect.stored hopened hinsert).extends
  obtain ⟨hfresh, rfl⟩ := insertRefreshToken_eq_some hinsert
  refine ⟨h.ids, ?_, h.sessions, ?_, h.revoked, h.known, ?_,
    fun call => hextends.callOk (h.calls call)⟩
  · rw [List.map_append]
    exact h.hashes.append (List.nodup_singleton _) (by simpa using hfresh)
  · intro token hmem
    rcases List.mem_append.mp hmem with hold | hnew
    · exact h.tokens token hold
    · obtain rfl := List.mem_singleton.mp hnew
      exact ⟨login, hopened, rfl⟩
  · exact fun hash deadline hkey => hextends.hashRevoked (h.cached hash deadline hkey)

/-- A change of the users concerns no session. -/
theorem SessionInv.setUser (h : SessionInv env state) (userId : Uuid)
    (change : UserRecord → UserRecord) :
    SessionInv env { state with tables := state.tables.setUser userId change } := by
  have hextends : state.Extends { state with tables := state.tables.setUser userId change } :=
    ⟨List.Subset.refl _, List.Subset.refl _, fun session hmem => ⟨session, hmem, rfl, id⟩⟩
  exact ⟨h.ids, h.hashes, h.sessions, h.tokens, h.revoked, h.known,
    fun hash deadline hkey => hextends.hashRevoked (h.cached hash deadline hkey),
    fun call => hextends.callOk (h.calls call)⟩

/-- A session is revoked. -/
theorem SessionInv.revokeSession {record : ActiveRefreshTokenRecord} (h : SessionInv env state)
    (hok : CallOk env state (.revoking hash record)) :
    SessionInv env { state with
      tables := state.tables.revokeSession state.now record.sessionId
      history := .revoked record.sessionId :: state.history } := by
  have hextends := (AuthEffect.revoked hok).extends
  have hids : (state.tables.revokeSession state.now record.sessionId).sessions.map (·.id) =
      state.tables.sessions.map (·.id) := by
    rw [AuthTables.revokeSession, List.map_map]
    apply List.map_congr_left
    intro session _
    dsimp only [Function.comp_apply]
    split_ifs <;> rfl
  refine ⟨hids ▸ h.ids, h.hashes, ?_, ?_, ?_, ?_, ?_, fun call => hextends.callOk (h.calls call)⟩
  · intro session hmem
    obtain ⟨old, hold, rfl⟩ := mem_revokeSession.mp hmem
    obtain ⟨login, hopened, hrow⟩ := h.sessions old hold
    refine ⟨login, hextends.hasOpened hopened, ?_⟩
    split_ifs
    · rw [hrow]
    · exact hrow
  · intro token hmem
    obtain ⟨login, hopened, hrow⟩ := h.tokens token hmem
    exact ⟨login, hextends.hasOpened hopened, hrow⟩
  · intro session hmem hrevoked
    obtain ⟨old, hold, rfl⟩ := mem_revokeSession.mp hmem
    split_ifs at hrevoked ⊢ with hid
    · exact Option.some_ne_none _
    · apply h.revoked old hold
      rcases List.mem_cons.mp hrevoked with hnow | hbefore
      · exact absurd (SessionEvent.revoked.inj hnow) hid
      · exact hbefore
  · intro sessionId hrevoked
    have hknown : ∃ session ∈ state.tables.sessions, session.id = sessionId := by
      rcases List.mem_cons.mp hrevoked with hnow | hbefore
      · obtain ⟨token, -, -, hrecord, session, hsession, hid⟩ := hok
        exact ⟨session, hsession,
          (hid.trans hrecord).trans (SessionEvent.revoked.inj hnow).symm⟩
      · exact h.known sessionId hbefore
    obtain ⟨session, hsession, rfl⟩ := hknown
    obtain ⟨later, hlater, hid, -⟩ := hextends.sessions session hsession
    exact ⟨later, hlater, hid⟩
  · exact fun hash deadline hkey => hextends.hashRevoked (h.cached hash deadline hkey)

/-- A revocation is noted in Redis. -/
theorem SessionInv.cacheRevocation {expiresAt : ℤ} (h : SessionInv env state)
    (hok : CallOk env state (.caching hash expiresAt)) :
    SessionInv env (state.cacheRefreshTokenRevocation env draw hash expiresAt) := by
  unfold AuthState.cacheRefreshTokenRevocation
  split_ifs
  · refine ⟨h.ids, h.hashes, h.sessions, h.tokens, h.revoked, h.known, ?_, h.calls⟩
    intro other deadline hkey
    dsimp only at hkey
    rw [Function.update_apply] at hkey
    split_ifs at hkey with hsame
    · rw [revokedKey_injective hsame]
      exact hok
    · exact h.cached other deadline hkey
  · exact h

theorem AuthEffect.keeps (heffect : AuthEffect env state after next) (h : SessionInv env state) :
    SessionInv env after := by
  cases heffect with
  | move hok => exact h
  | opened hverified hinsert => exact h.opened hverified hinsert
  | stored hopened hinsert => exact h.stored hopened hinsert
  | touched userId response => exact h.setUser _ _
  | revoked hok => exact h.revokeSession hok
  | cached draw hok => exact h.cacheRevocation hok

theorem SessionInv.setCall (h : SessionInv env state) (hok : CallOk env state phase) :
    SessionInv env (state.setCall call phase) := by
  refine ⟨h.ids, h.hashes, h.sessions, h.tokens, h.revoked, h.known, h.cached, fun other => ?_⟩
  have hsame : CallOk env (state.setCall call phase) = CallOk env state := rfl
  rw [hsame, AuthState.setCall]
  dsimp only
  rw [Function.update_apply]
  split_ifs
  · exact hok
  · exact h.calls other

theorem sessionInv_initial (h : state.Initial) : SessionInv env state := by
  refine ⟨by simp [h.sessions], by simp [h.refreshTokens], by simp [h.sessions],
    by simp [h.refreshTokens], by simp [h.sessions], by simp [h.history], ?_, ?_⟩
  · intro hash deadline hkey
    rw [h.redis] at hkey
    cases hkey
  · intro call
    rw [h.calls]
    trivial

theorem authStep_keeps {action : AuthAction} (h : SessionInv env state)
    (hstep : authStep env state action = some after) :
    SessionInv env after ∧ state.Extends after := by
  cases action with
  | tick microseconds =>
    cases hstep
    exact ⟨⟨h.ids, h.hashes, h.sessions, h.tokens, h.revoked, h.known, h.cached, h.calls⟩,
      ⟨List.Subset.refl _, List.Subset.refl _, fun session hmem => ⟨session, hmem, rfl, id⟩⟩⟩
  | setActive userId isActive =>
    cases hstep
    exact ⟨h.setUser _ _,
      ⟨List.Subset.refl _, List.Subset.refl _, fun session hmem => ⟨session, hmem, rfl, id⟩⟩⟩
  | start call request =>
    simp only [authStep] at hstep
    split_ifs at hstep
    cases hstep
    refine ⟨h.setCall ?_, (AuthState.Extends.refl state).setCall⟩
    cases request <;> trivial
  | advance call draw =>
    obtain ⟨⟨next, phase⟩, hadvance, rfl⟩ := Option.map_eq_some_iff.mp hstep
    have heffect := advance_effect (h.calls call) hadvance
    exact ⟨(heffect.keeps h).setCall heffect.callOk, heffect.extends.setCall⟩
  | lose call draw =>
    obtain ⟨⟨next, phase⟩, hadvance, rfl⟩ := Option.map_eq_some_iff.mp hstep
    have heffect := advance_effect (h.calls call) hadvance
    exact ⟨(heffect.keeps h).setCall trivial, heffect.extends.setCall⟩
  | fail call =>
    simp only [authStep] at hstep
    split_ifs at hstep
    cases hstep
    exact ⟨h.setCall trivial, (AuthState.Extends.refl state).setCall⟩

theorem reachable_sessionInv (h : (authService env).Reachable state) : SessionInv env state :=
  Machine.ReachableVia.invariant (m := authService env) (P := SessionInv env)
    (fun _ => sessionInv_initial) (fun _ _ _ hinv _ hstep => (authStep_keeps hinv hstep).1) h

/-- What has happened stays in the history. -/
theorem history_of_run {later : AuthState} {actions : List AuthAction} (h : SessionInv env state)
    (hrun : (authService env).run state actions = some later) {event : SessionEvent}
    (hevent : event ∈ state.history) : event ∈ later.history := by
  have hkept : SessionInv env later ∧ event ∈ later.history :=
    Machine.run_keeps (m := authService env)
      (P := fun current => SessionInv env current ∧ event ∈ current.history)
      (fun _ _ _ hcurrent hstep => ⟨(authStep_keeps hcurrent.1 hstep).1,
        (authStep_keeps hcurrent.1 hstep).2.history hcurrent.2⟩) ⟨h, hevent⟩ hrun
  exact hkept.2

end Steps

/-- The session of a login that knew the password, neither expired nor ever revoked. -/
structure AuthState.LiveSession (env : AuthEnv) (state : AuthState) (login : VerifiedLogin)
    (userId sessionId : Uuid) : Prop where
  opened : state.HasOpened env login
  session : login.sessionId = sessionId
  user : login.user.id = userId
  unexpired : state.now < login.refresh.expiresAt
  unrevoked : .revoked sessionId ∉ state.history

section Safety

variable {env : AuthEnv} {state : AuthState}

theorem SessionInv.unrevoked (h : SessionInv env state) {session : UserSession}
    (hmem : session ∈ state.tables.sessions) (hlive : session.revokedAt = none) :
    .revoked session.id ∉ state.history :=
  fun hrevoked => h.revoked session hmem hrevoked hlive

/-- An access token is accepted within a session that is live, whenever it was issued. -/
theorem SessionInv.authenticated (h : SessionInv env state) {token : String}
    {record : AuthenticatedUserRecord}
    (hauth : authenticateAccessToken env state.tables state.now token = some record) :
    (∃ login, state.LiveSession env login record.userId record.sessionId) ∧
      (∃ claims, env.decode token = some claims ∧ claims.sub = record.userId ∧
        claims.sid = record.sessionId ∧ timestamp state.now ≤ claims.exp) ∧
      ∃ user ∈ state.tables.users,
        user.id = record.userId ∧ user.isActive = true ∧ user.role = record.role := by
  obtain ⟨claims, hclaims, hfind⟩ := Option.bind_eq_some_iff.mp hauth
  obtain ⟨hdecode, hgood⟩ := Option.filter_eq_some_iff.mp hclaims
  obtain ⟨huser, hsession, hactive, session, hmem, hid, hown, hlive, hunexpired⟩ :=
    exists_of_findAuthenticatedUser hfind
  obtain ⟨login, hopened, hrow⟩ := h.sessions session hmem
  have hgood : claims.iss = ACCESS_TOKEN_ISSUER ∧ claims.aud = ACCESS_TOKEN_AUDIENCE ∧
      timestamp state.now ≤ claims.exp := of_decide_eq_true hgood
  rw [huser, hsession]
  refine ⟨⟨login, hopened, ?_, ?_, ?_, ?_⟩, ⟨claims, hdecode, rfl, rfl, hgood.2.2⟩, hactive⟩
  · rw [← hid, hrow]
    rfl
  · rw [← hown, hrow]
    rfl
  · rw [hrow] at hunexpired
    exact hunexpired
  · rw [← hid]
    exact h.unrevoked hmem hlive

/-- A refresh token is found while the session it was issued with is live. -/
theorem SessionInv.found (h : SessionInv env state) {hash : String}
    {record : ActiveRefreshTokenRecord}
    (hfind : state.tables.findActiveRefreshToken state.now hash = some record) :
    ∃ login, state.LiveSession env login record.userId record.sessionId ∧
      env.hashToken login.refresh.rawToken = hash := by
  obtain ⟨token, htoken, hhash, hunexpired, rfl, session, hmem, hid, hlive, -⟩ :=
    exists_of_findActiveRefreshToken hfind
  obtain ⟨login, hopened, rfl⟩ := h.tokens token htoken
  refine ⟨login, ⟨hopened, rfl, rfl, hunexpired, ?_⟩, hopened.2.hashed.symm.trans hhash⟩
  rw [← hid]
  exact h.unrevoked hmem hlive

/-- However the calls are interleaved and fail: a token is good only within the unexpired session
of a login that knew the password of its user, with the role the user has now, and once a logout
has revoked the session neither of its tokens is good ever again. -/
theorem tokens_need_live_sessions (h : (authService env).Reachable state) :
    (∀ token record,
      authenticateAccessToken env state.tables state.now token = some record →
        (∃ login, state.LiveSession env login record.userId record.sessionId) ∧
          (∃ claims, env.decode token = some claims ∧ claims.sub = record.userId ∧
            claims.sid = record.sessionId ∧ timestamp state.now ≤ claims.exp) ∧
          ∃ user ∈ state.tables.users,
            user.id = record.userId ∧ user.isActive = true ∧ user.role = record.role) ∧
      (∀ hash record, state.tables.findActiveRefreshToken state.now hash = some record →
        ∃ login, state.LiveSession env login record.userId record.sessionId ∧
          env.hashToken login.refresh.rawToken = hash) ∧
      ∀ sessionId, .revoked sessionId ∈ state.history →
        ∀ actions later, (authService env).run state actions = some later →
          (∀ token record,
            authenticateAccessToken env later.tables later.now token = some record →
              record.sessionId ≠ sessionId) ∧
            ∀ hash record, later.tables.findActiveRefreshToken later.now hash = some record →
              record.sessionId ≠ sessionId := by
  have hinv := reachable_sessionInv h
  refine ⟨fun token record hauth => hinv.authenticated hauth,
    fun hash record hfind => hinv.found hfind, fun sessionId hrevoked actions later hrun => ?_⟩
  have hlater := reachable_sessionInv (Machine.Reachable.run h hrun)
  have hstays : .revoked sessionId ∈ later.history := history_of_run hinv hrun hrevoked
  constructor
  · rintro token record hauth rfl
    obtain ⟨⟨login, hlive⟩, -⟩ := hlater.authenticated hauth
    exact hlive.unrevoked hstays
  · rintro hash record hfind rfl
    obtain ⟨login, hlive, -⟩ := hlater.found hfind
    exact hlive.unrevoked hstays

end Safety

/-! ### One login -/

namespace OneLogin

def claims : AccessTokenClaims := ⟨1, 7, "admin", "ai-report", "ai-report-api", 900, 0⟩

def env : AuthEnv where
  jwtAccessTokenExpirySeconds := 900
  jwtRefreshTokenExpirySeconds := 604800
  hasRedis := true
  verifyPassword password hash := .ok (hash = "hash of " ++ password)
  hashToken rawToken := "digest of " ++ rawToken
  encode _ := .ok "header.claims.signature"
  decode token := if token = "header.claims.signature" then some claims else none

def user : UserRecord :=
  ⟨1, "admin", some "admin@example.com", "hash of password", some "Administrator", "admin", true, 0,
    none⟩

def start : AuthState where
  now := 0
  tables := ⟨[user], [], []⟩
  redis _ := none
  calls _ := .idle
  history := []

def draw : Draw := ⟨7, 8, "raw", true⟩

/-- The statements of the login; the name is entered with a blank. -/
def actions : List AuthAction :=
  [.start 0 (.login ⟨" admin", "password", none, none⟩), .advance 0 draw, .advance 0 draw,
    .advance 0 draw, .advance 0 draw]

def accepted (state : AuthState) : Bool :=
  authenticateAccessToken env state.tables state.now "header.claims.signature" =
    some ⟨1, 7, "admin"⟩

theorem start_reachable : (authService env).Reachable start :=
  .init ⟨rfl, rfl, fun _ => rfl, fun _ => rfl, rfl⟩

/-- After a login its access token is accepted, within the session the login opened. -/
theorem logged_in : ∃ state, (authService env).Reachable state ∧
    authenticateAccessToken env state.tables state.now "header.claims.signature" =
      some ⟨1, 7, "admin"⟩ ∧ ∃ login, state.LiveSession env login 1 7 := by
  obtain ⟨state, hreach, haccepted⟩ :=
    Machine.Reachable.exists_of_run start_reachable
      (show ((authService env).run start actions).any accepted = true by decide +kernel)
  have hauth := of_decide_eq_true haccepted
  exact ⟨state, hreach, hauth, ((tokens_need_live_sessions hreach).1 _ _ hauth).1⟩

end OneLogin

end FineractReports.Auth

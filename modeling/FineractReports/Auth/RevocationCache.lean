import FineractReports.Auth.SessionSafety

/-!
# The revocations in Redis

A refresh asks Redis before it asks the database. Redis knows a hash only once the session of its
refresh token is revoked, and then the database does not find the token either. So nothing that a
call answers and no row depends on Redis, whether it is there, out of reach or slow.
-/

namespace FineractReports.Auth

def AuthEnv.withoutRedis (env : AuthEnv) : AuthEnv := { env with hasRedis := false }

def AuthState.withoutRedis (state : AuthState) : AuthState := { state with redis := fun _ => none }

def Draw.offline (draw : Draw) : Draw := { draw with redisUp := false }

def AuthAction.offline : AuthAction → AuthAction
  | .advance call draw => .advance call draw.offline
  | .lose call draw => .lose call draw.offline
  | action => action

section Cache

variable {env : AuthEnv} {state after : AuthState} {draw : Draw} {phase : AuthCall}

/-- Where Redis knows the hash, the database finds no token. -/
theorem SessionInv.findActiveRefreshToken_of_cached (h : SessionInv env state) {hash : String}
    (hknown : state.refreshTokenRevokedInRedis env draw hash = true) (now : ℤ) :
    state.tables.findActiveRefreshToken now hash = none := by
  rw [AuthState.refreshTokenRevokedInRedis, Bool.and_eq_true] at hknown
  obtain ⟨deadline, hkey, -⟩ := (Option.any_eq_true _ _).mp hknown.2
  obtain ⟨token, htoken, hhash, session, hsession, hid, hrevoked⟩ := h.cached hash deadline hkey
  by_contra hfound
  obtain ⟨record, hfind⟩ := Option.ne_none_iff_exists'.mp hfound
  obtain ⟨found, hmem, hsame, -, -, live, hlive, hliveId, hunrevoked, -⟩ :=
    exists_of_findActiveRefreshToken hfind
  obtain rfl : found = token :=
    List.inj_on_of_nodup_map h.hashes hmem htoken (hsame.trans hhash.symm)
  obtain rfl : live = session :=
    List.inj_on_of_nodup_map h.ids hlive hsession (hliveId.trans hid.symm)
  exact hrevoked hunrevoked

/-- Without Redis a call takes the same step, unless Redis would have stopped it. -/
theorem advance_withoutRedis
    (hmiss : ∀ rawToken, phase = .refresh rawToken →
      state.refreshTokenRevokedInRedis env draw (env.hashToken rawToken) = false) :
    state.withoutRedis.advance env.withoutRedis draw phase =
      (state.advance env draw phase).map fun (after, next) => (after.withoutRedis, next) := by
  cases phase with
  | idle => rfl
  | ended response => rfl
  | login input =>
    simp only [AuthState.advance]
    rw [show state.withoutRedis.verifyLogin env.withoutRedis draw input =
      state.verifyLogin env draw input from rfl]
    cases state.verifyLogin env draw input <;> rfl
  | opening login =>
    simp only [AuthState.advance]
    rw [show state.withoutRedis.tables = state.tables from rfl]
    cases state.tables.insertSession login.session <;> rfl
  | storing login =>
    simp only [AuthState.advance]
    rw [show state.withoutRedis.tables = state.tables from rfl]
    cases state.tables.insertRefreshToken login.token <;> rfl
  | touching login => rfl
  | refresh rawToken =>
    simp only [AuthState.advance]
    rw [hmiss rawToken rfl]
    rfl
  | looking hash =>
    simp only [AuthState.advance]
    rw [show state.withoutRedis.tables.findActiveRefreshToken state.withoutRedis.now hash =
      state.tables.findActiveRefreshToken state.now hash from rfl]
    cases state.tables.findActiveRefreshToken state.now hash <;> rfl
  | renewing record =>
    simp only [AuthState.advance]
    rw [show state.withoutRedis.renew env.withoutRedis record = state.renew env record from rfl]
    cases state.renew env record <;> rfl
  | logout rawToken =>
    simp only [AuthState.advance]
    rw [show state.withoutRedis.tables.findActiveRefreshToken state.withoutRedis.now
        (env.withoutRedis.hashToken rawToken) =
      state.tables.findActiveRefreshToken state.now (env.hashToken rawToken) from rfl]
    cases state.tables.findActiveRefreshToken state.now (env.hashToken rawToken) <;> rfl
  | revoking hash record => rfl
  | caching hash expiresAt =>
    simp only [AuthState.advance, Option.map_some]
    congr 2
    unfold AuthState.cacheRefreshTokenRevocation
    split_ifs with hplain hcached
    · exact absurd hplain.1 Bool.false_ne_true
    · exact absurd hplain.1 Bool.false_ne_true
    · rfl
    · rfl

/-- A refresh that Redis stops is stopped by the database where there is no Redis. -/
theorem SessionInv.refused_withoutRedis (h : SessionInv env state) {call : ℕ} {rawToken : String}
    (hcall : state.calls call = .refresh rawToken)
    (hknown : state.refreshTokenRevokedInRedis env draw (env.hashToken rawToken) = true) :
    (authService env.withoutRedis).run state.withoutRedis [.advance call draw, .advance call draw] =
      some (state.setCall call (.ended (.refreshed none))).withoutRedis := by
  have hlooking : (authService env.withoutRedis).step state.withoutRedis (.advance call draw) =
      some (state.withoutRedis.setCall call (.looking (env.hashToken rawToken))) := by
    simp only [authService, authStep]
    rw [show state.withoutRedis.calls call = .refresh rawToken from hcall]
    rfl
  have hnone : (authService env.withoutRedis).step
      (state.withoutRedis.setCall call (.looking (env.hashToken rawToken))) (.advance call draw) =
      some (state.setCall call (.ended (.refreshed none))).withoutRedis := by
    simp only [authService, authStep]
    rw [show (state.withoutRedis.setCall call (.looking (env.hashToken rawToken))).calls call =
      .looking (env.hashToken rawToken) from Function.update_self _ _ _]
    simp only [AuthState.advance]
    rw [show (state.withoutRedis.setCall call (.looking (env.hashToken rawToken))).tables =
      state.tables from rfl, h.findActiveRefreshToken_of_cached hknown]
    simp only [Option.map_some, AuthState.setCall, AuthState.withoutRedis, Function.update_idem]
  rw [Machine.run_cons, hlooking, Option.bind_some, Machine.run_cons, hnone, Option.bind_some,
    Machine.run_nil]

/-- What the service does with Redis it can do without, in one step or in two. -/
theorem SessionInv.step_withoutRedis (h : SessionInv env state) {action : AuthAction}
    (hstep : (authService env).step state action = some after) :
    ∃ actions, (authService env.withoutRedis).run state.withoutRedis actions =
      some after.withoutRedis := by
  have hone : (authService env.withoutRedis).step state.withoutRedis action =
      some after.withoutRedis →
      ∃ actions, (authService env.withoutRedis).run state.withoutRedis actions =
        some after.withoutRedis := fun hsame => ⟨[action], by simp [Machine.run_cons, hsame]⟩
  cases action with
  | tick microseconds =>
    cases hstep
    exact hone rfl
  | setActive userId isActive =>
    cases hstep
    exact hone rfl
  | start call request =>
    simp only [authService, authStep] at hstep hone
    rw [show state.withoutRedis.calls call = state.calls call from rfl] at hone
    split_ifs at hstep hone with hidle
    cases hstep
    exact hone rfl
  | fail call =>
    simp only [authService, authStep] at hstep hone
    rw [show state.withoutRedis.calls call = state.calls call from rfl] at hone
    split_ifs at hstep hone with hrunning
    cases hstep
    exact hone rfl
  | advance call draw =>
    by_cases hhit : ∃ rawToken, state.calls call = .refresh rawToken ∧
        state.refreshTokenRevokedInRedis env draw (env.hashToken rawToken) = true
    · obtain ⟨rawToken, hcall, hknown⟩ := hhit
      simp only [authService, authStep, hcall, AuthState.advance, if_pos hknown,
        Option.map_some] at hstep
      cases hstep
      exact ⟨_, h.refused_withoutRedis hcall hknown⟩
    · refine hone ?_
      obtain ⟨⟨next, phase⟩, hadvance, rfl⟩ := Option.map_eq_some_iff.mp hstep
      simp only [authService, authStep]
      rw [show state.withoutRedis.calls call = state.calls call from rfl, advance_withoutRedis,
        hadvance]
      · rfl
      · exact fun rawToken hcall => Bool.eq_false_of_not_eq_true fun hknown =>
          hhit ⟨rawToken, hcall, hknown⟩
  | lose call draw =>
    refine hone ?_
    obtain ⟨⟨next, phase⟩, hadvance, rfl⟩ := Option.map_eq_some_iff.mp hstep
    simp only [authService, authStep]
    rw [show state.withoutRedis.calls call = state.calls call from rfl]
    by_cases hhit : ∃ rawToken, state.calls call = .refresh rawToken
    · obtain ⟨rawToken, hcall⟩ := hhit
      rw [hcall] at hadvance ⊢
      have hnext : next = state := by
        simp only [AuthState.advance] at hadvance
        split_ifs at hadvance <;> cases hadvance <;> rfl
      rw [hnext]
      rfl
    · rw [advance_withoutRedis fun rawToken hcall => absurd ⟨rawToken, hcall⟩ hhit, hadvance]
      rfl

theorem withoutRedis_initial (h : state.Initial) : state.withoutRedis.Initial :=
  ⟨h.sessions, h.refreshTokens, fun _ => rfl, h.calls, h.history⟩

theorem reachable_withoutRedis (h : (authService env).Reachable state) :
    (authService env.withoutRedis).Reachable state.withoutRedis := by
  induction h with
  | init h => exact .init (withoutRedis_initial h)
  | step hreach _ hstep ih =>
    obtain ⟨actions, hrun⟩ := (reachable_sessionInv hreach).step_withoutRedis hstep
    exact Machine.Reachable.run ih hrun

/-! ### A Redis that is never reached -/

/-- A call that does not reach Redis goes on as where there is none. -/
theorem advance_offline :
    state.advance env draw.offline phase = state.advance env.withoutRedis draw phase := by
  cases phase with
  | refresh rawToken =>
    simp only [AuthState.advance]
    have hcached : state.refreshTokenRevokedInRedis env draw.offline (env.hashToken rawToken) =
        false := by
      simp [AuthState.refreshTokenRevokedInRedis, Draw.offline]
    rw [hcached]
    rfl
  | caching hash expiresAt =>
    simp only [AuthState.advance]
    have hcached : state.cacheRefreshTokenRevocation env draw.offline hash expiresAt = state :=
      if_neg fun hup => Bool.false_ne_true hup.2
    have hplain : state.cacheRefreshTokenRevocation env.withoutRedis draw hash expiresAt = state :=
      if_neg fun hup => Bool.false_ne_true hup.1
    rw [hcached, hplain]
  | _ => rfl

theorem step_offline {action : AuthAction} : (authService env).step state action.offline =
    (authService env.withoutRedis).step state action := by
  cases action with
  | advance call draw =>
    simp only [AuthAction.offline, authService, authStep]
    rw [advance_offline]
  | lose call draw =>
    simp only [AuthAction.offline, authService, authStep]
    rw [advance_offline]
  | _ => rfl

theorem reachable_offline (h : (authService env.withoutRedis).Reachable state) :
    (authService env).Reachable state := by
  induction h with
  | init h => exact .init h
  | step _ _ hstep ih => exact ih.step trivial (step_offline.trans hstep)

theorem advance_redis {next : AuthCall}
    (h : state.advance env.withoutRedis draw phase = some (after, next)) :
    after.redis = state.redis := by
  cases phase with
  | idle => cases h
  | ended response => cases h
  | touching login =>
    cases h
    rfl
  | revoking hash record =>
    cases h
    rfl
  | caching hash expiresAt =>
    cases h
    exact congrArg AuthState.redis (if_neg fun hup => Bool.false_ne_true hup.1)
  | _ =>
    simp only [AuthState.advance] at h
    split at h <;> cases h <;> rfl

theorem step_redis {action : AuthAction}
    (h : (authService env.withoutRedis).step state action = some after) :
    after.redis = state.redis := by
  cases action with
  | tick microseconds =>
    cases h
    rfl
  | setActive userId isActive =>
    cases h
    rfl
  | start call request =>
    simp only [authService, authStep] at h
    split_ifs at h
    cases h
    rfl
  | fail call =>
    simp only [authService, authStep] at h
    split_ifs at h
    cases h
    rfl
  | advance call draw =>
    obtain ⟨⟨later, phase⟩, hadvance, rfl⟩ := Option.map_eq_some_iff.mp h
    have hsame : later.redis = state.redis := advance_redis hadvance
    exact hsame
  | lose call draw =>
    obtain ⟨⟨later, phase⟩, hadvance, rfl⟩ := Option.map_eq_some_iff.mp h
    have hsame : later.redis = state.redis := advance_redis hadvance
    exact hsame

/-- Where there is no Redis, nothing is ever noted in it. -/
theorem withoutRedis_eq_self (h : (authService env.withoutRedis).Reachable state) :
    state.withoutRedis = state := by
  have hempty : state.redis = fun _ => none :=
    Machine.ReachableVia.invariant (m := authService env.withoutRedis)
      (P := fun current => current.redis = fun _ => none) (fun _ hinit => funext hinit.redis)
      (fun _ _ _ hcurrent _ hstep => (step_redis hstep).trans hcurrent) h
  rw [AuthState.withoutRedis, ← hempty]

end Cache

/-- The rows, the history and the answers of all calls that the service can come to are, with
Redis, exactly those it can come to without it. -/
theorem redis_changes_nothing (env : AuthEnv) (state : AuthState) :
    (∃ cached, (authService env).Reachable cached ∧ cached.withoutRedis = state) ↔
      (authService env.withoutRedis).Reachable state := by
  constructor
  · rintro ⟨cached, hcached, rfl⟩
    exact reachable_withoutRedis hcached
  · intro h
    exact ⟨state, reachable_offline h, withoutRedis_eq_self h⟩

end FineractReports.Auth

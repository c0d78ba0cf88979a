/-
Which tokens are accepted.

`getCurrentUser` and `rotateRefreshToken` check a token against the row of its user, in
two functions that are written independently.  A token that was returned in a run is
accepted later exactly if it is not expired, its user and the tenant are there and active,
and no revocation of the user's sessions was committed since the row was read for the
token; the refresh token must also not be marked as revoked in Redis.
-/
import StarterBackend.Accounts.Versions
import StarterBackend.Sessions.SingleUse

namespace StarterBackend.Accounts

open Lib App

/-! ### One check, executed at once -/

section Checks

variable {K : Type} [LinearOrder K] {platform : Platform} {collation : Collation}
  {settings : Settings} {e : Env K} {w w' : World K} {α β : Type}

/-- The reply to a query for a user in a tenant. -/
lemma eval_userInTenant {userId tenantId : ℤ} {user : User} :
    (Query.userInTenant userId tenantId).eval collation w.db = some user ↔
      w.db.users.row user.id = some user ∧ (user.id : ℤ) = userId ∧ (user.tenantId : ℤ) = tenantId := by
  constructor
  · intro h
    obtain ⟨hfind, htenant⟩ := Option.filter_eq_some_iff.1 h
    obtain ⟨hid, hrow⟩ := Table.find_eq_some.1 hfind
    exact ⟨hrow, hid.symm, by simpa using htenant⟩
  · rintro ⟨hrow, hid, htenant⟩
    exact Option.filter_eq_some_iff.2 ⟨Table.find_eq_some.2 ⟨hid.symm, hrow⟩, by simpa using htenant⟩

variable [Field K] [FloorRing K]

lemma run_issue_bind {c : Command K} {f : c.Reply → AppProg K β} (hclock : w.clock ≤ e.now) :
    ((issue c).bind f).run (interp platform collation) e w =
      (f (c.exec platform collation e w).1).run (interp platform collation) e
        { (c.exec platform collation e w).2 with clock := e.now } :=
  Prog.run_bind (run_issue c hclock)

lemma run_query_bind {q : Query} {f : q.Reply K → AppProg K β} (hclock : w.clock ≤ e.now) :
    ((query q).bind f).run (interp platform collation) e w =
      (f (q.eval collation w.db)).run (interp platform collation) e { w with clock := e.now } :=
  run_issue_bind hclock

lemma run_getOrRaise_bind_eq_some {x : AppError} {a : Option α} {f : α → AppProg K β} {b : β} :
    ((Prog.getOrRaise x a).bind f).run (interp platform collation) e w = some (.ok b, w') ↔
      ∃ y, a = some y ∧ (f y).run (interp platform collation) e w = some (.ok b, w') := by
  cases a with
  | none => simp [Prog.getOrRaise]
  | some y => simp [Prog.getOrRaise]

/-- The tenant is there and active. -/
def TenantActive (db : Database K) (tenantId : ℕ) : Prop :=
  ∃ tenant, db.tenants.row tenantId = some tenant ∧ tenant.isActive = true

lemma run_assertActiveTenantMembership_bind {user : User} {f : Unit → AppProg K β} {b : β}
    (hclock : w.clock ≤ e.now) :
    ((assertActiveTenantMembership user).bind f).run (interp platform collation) e w =
        some (.ok b, w') ↔
      TenantActive w.db user.tenantId ∧
        (f ()).run (interp platform collation) e { w with clock := e.now } = some (.ok b, w') := by
  rw [assertActiveTenantMembership, Prog.bind_def, Prog.bind_assoc, run_query_bind hclock]
  rcases hrow : (Query.tenant user.tenantId).eval collation w.db with _ | tenant
  · refine iff_of_false (fun h => by simp at h) ?_
    rintro ⟨⟨tenant, htenant, -⟩, -⟩
    cases hrow.symm.trans htenant
  · dsimp only
    split_ifs with hactive
    · exact (and_iff_right ⟨tenant, hrow, hactive⟩).symm
    · refine iff_of_false (fun h => by simp at h) ?_
      rintro ⟨⟨tenant', htenant, hactive'⟩, -⟩
      obtain rfl := Option.some.inj (hrow.symm.trans htenant)
      exact hactive hactive'

/-- The row of a user that is active, in its tenant that is active. -/
structure Live (db : Database K) (user : User) : Prop where
  row : db.users.row user.id = some user
  isActive : user.isActive = true
  tenant : TenantActive db user.tenantId

/-- **What `get_current_user` accepts**, without a tenant in the request. -/
theorem run_getCurrentUser_iff {token : String} (hclock : w.clock ≤ e.now) {user : User} :
    (∃ w', (getCurrentUser token none).run (interp platform collation) e w = some (.ok user, w')) ↔
      Live w.db user ∧ ∃ claims, App.decodeToken platform e.leeway e.now token = some claims ∧
        accessClaims claims = some ((user.id : ℤ), (user.tenantId : ℤ), user.tokenVersion) := by
  simp only [getCurrentUser, Prog.bind_def, run_issue_bind hclock, run_getOrRaise_bind_eq_some]
  constructor
  · rintro ⟨w', claims, hdecode, ⟨userId, tenantId, tokenVersion⟩, haccess, hrun⟩
    rw [run_query_bind le_rfl] at hrun
    rcases hreply : (Query.userInTenant userId tenantId).eval collation w.db with _ | found
    · simp [Command.exec, hreply] at hrun
    · obtain ⟨hrow, hid, htenant⟩ := eval_userInTenant.1 hreply
      simp only [Command.exec, hreply] at hrun
      split_ifs at hrun with hactive hversion
      · simp at hrun
      · simp at hrun
      · obtain ⟨hmember, hrest⟩ := (run_assertActiveTenantMembership_bind le_rfl).1 hrun
        obtain rfl : found = user := by simpa [assertRequestedTenant] using (Prod.mk.inj (Option.some.inj hrest)).1
        refine ⟨⟨hrow, by simpa using hactive, hmember⟩, claims, hdecode, ?_⟩
        rw [haccess, hid, htenant, not_ne_iff.1 hversion]
  · rintro ⟨⟨hrow, hactive, hmember⟩, claims, hdecode, haccess⟩
    refine ⟨{ w with clock := e.now }, claims, hdecode, _, haccess, ?_⟩
    have hreply : (Query.userInTenant user.id user.tenantId).eval collation w.db = some user :=
      eval_userInTenant.2 ⟨hrow, rfl, rfl⟩
    rw [run_query_bind le_rfl]
    simp only [Command.exec, hreply, hactive, Bool.not_true, Bool.false_eq_true, if_false, ne_eq,
      not_true]
    exact (run_assertActiveTenantMembership_bind le_rfl).2 ⟨hmember, rfl⟩

/-- **What `_decode_refresh_token` accepts**, when Redis answers. -/
lemma run_decodeRefreshToken_iff {token : String} {payload : RefreshPayload}
    (hclock : w.clock ≤ e.now) (hredis : e.redisFails = false) :
    (decodeRefreshToken token).run (interp platform collation) e w = some (.ok payload, w') ↔
      (∃ claims, App.decodeToken platform e.leeway e.now token = some claims ∧
        claims.type = some "refresh" ∧ claims.refreshPayload = some payload) ∧
      w.keys.contains e.now e.lingers (revokedKey payload.jti) = false ∧
        w' = { w with clock := e.now } := by
  simp only [decodeRefreshToken, Prog.bind_def, run_issue_bind hclock, run_getOrRaise_bind_eq_some]
  constructor
  · rintro ⟨claims, hdecode, hrun⟩
    split_ifs at hrun with htype
    · simp at hrun
    obtain ⟨payload', hpayload, hrun⟩ := run_getOrRaise_bind_eq_some.1 hrun
    rw [isRefreshTokenRevoked, Prog.bind_def, Prog.bind_assoc, run_issue_bind le_rfl] at hrun
    simp only [Command.exec, unlessFails, hredis, Bool.false_eq_true, if_false, orUnhandled,
      Prog.getOrRaise, Prog.ret_bind] at hrun
    split_ifs at hrun with hrevoked
    · simp at hrun
    · obtain ⟨rfl, rfl⟩ : payload' = payload ∧ { w with clock := e.now } = w' := by simpa using hrun
      exact ⟨⟨claims, hdecode, not_ne_iff.1 htype, hpayload⟩, by simpa using hrevoked, rfl⟩
  · rintro ⟨⟨claims, hdecode, htype, hpayload⟩, hkey, rfl⟩
    refine ⟨claims, hdecode, ?_⟩
    rw [if_neg (not_ne_iff.2 htype)]
    refine run_getOrRaise_bind_eq_some.2 ⟨payload, hpayload, ?_⟩
    rw [isRefreshTokenRevoked, Prog.bind_def, Prog.bind_assoc, run_issue_bind le_rfl]
    simp only [Command.exec, unlessFails, hredis, Bool.false_eq_true, if_false, orUnhandled,
      Prog.getOrRaise, Prog.ret_bind, hkey]
    rfl

/-- **What `_get_active_user_from_refresh_payload` accepts.** -/
lemma run_getActiveUserFromRefreshPayload_iff {payload : RefreshPayload} {user : User}
    (hclock : w.clock ≤ e.now) :
    (getActiveUserFromRefreshPayload payload).run (interp platform collation) e w =
        some (.ok user, w') ↔
      Live w.db user ∧ payload.sub.bind PyText.parseInt = some (user.id : ℤ) ∧
        payload.tenantId = user.tenantId ∧ payload.tokenVersion = user.tokenVersion ∧
        w' = { w with clock := e.now } := by
  simp only [getActiveUserFromRefreshPayload, Prog.bind_def, run_getOrRaise_bind_eq_some,
    run_query_bind hclock]
  constructor
  · rintro ⟨userId, hsub, hrun⟩
    rcases hreply : (Query.userInTenant userId payload.tenantId).eval collation w.db with _ | found
    · simp [hreply] at hrun
    · obtain ⟨hrow, rfl, htenant⟩ := eval_userInTenant.1 hreply
      cases hactive : found.isActive with
      | false => simp [hreply, hactive] at hrun
      | true =>
          simp only [hreply, hactive, Bool.not_true, Bool.false_eq_true, if_false] at hrun
          obtain ⟨hmember, hrest⟩ := (run_assertActiveTenantMembership_bind le_rfl).1 hrun
          split_ifs at hrest with hversion
          · simp at hrest
          · obtain ⟨rfl, rfl⟩ : found = user ∧ { w with clock := e.now } = w' := by
              simpa using hrest
            exact ⟨⟨hrow, hactive, hmember⟩, hsub, htenant.symm, not_ne_iff.1 hversion, rfl⟩
  · rintro ⟨⟨hrow, hactive, hmember⟩, hsub, htenant, hversion, rfl⟩
    have hreply : (Query.userInTenant user.id payload.tenantId).eval collation w.db = some user :=
      eval_userInTenant.2 ⟨hrow, rfl, htenant.symm⟩
    refine ⟨user.id, hsub, ?_⟩
    simp only [hreply, hactive, Bool.not_true, Bool.false_eq_true, if_false]
    refine (run_assertActiveTenantMembership_bind le_rfl).2 ⟨hmember, ?_⟩
    rw [if_neg (not_ne_iff.2 hversion)]
    rfl

/-- A refresh token that is not marked is taken as a new one, if there is a whole second left. -/
lemma revokeRefreshToken_fst {keys : Redis.Keys K} {now : K} {lingers : Bool} {jti : String} {exp : ℤ}
    (hkey : keys.contains now lingers (revokedKey jti) = false) :
    (App.revokeRefreshToken keys now lingers jti exp true).1 = true ↔ timestamp now < exp := by
  rcases le_or_gt exp (timestamp now) with hexp | hexp
  · rw [revokeRefreshToken_of_le hexp]
    exact iff_of_false Bool.false_ne_true (by omega)
  · rw [revokeRefreshToken_new hexp, Redis.Keys.setNxEx, if_neg (by simp [hkey])]
    exact iff_of_true rfl hexp

lemma run_createTokens (user : User) (hclock : w.clock ≤ e.now) :
    ∃ pair w', (createTokens platform settings user).run (interp platform collation) e w =
      some (.ok pair, w') := by
  simp only [createTokens, createAccessToken, createRefreshToken, createToken, now, uuid7,
    Prog.bind_def, Prog.bind_assoc, run_issue_bind hclock, Prog.pure_def, Prog.ret_bind]
  rw [run_issue_bind le_rfl, run_issue_bind le_rfl, run_issue_bind le_rfl]
  exact ⟨_, _, rfl⟩

/-- **What `rotate_refresh_token` accepts**, when Redis answers. -/
theorem run_rotateRefreshToken_iff {token : String} (hclock : w.clock ≤ e.now)
    (hredis : e.redisFails = false) :
    (∃ pair w', (rotateRefreshToken platform settings token).run (interp platform collation) e w =
        some (.ok pair, w')) ↔
      ∃ claims payload user, App.decodeToken platform e.leeway e.now token = some claims ∧
        claims.type = some "refresh" ∧ claims.refreshPayload = some payload ∧
        w.keys.contains e.now e.lingers (revokedKey payload.jti) = false ∧
        timestamp e.now < payload.exp ∧ Live w.db user ∧
        payload.sub.bind PyText.parseInt = some (user.id : ℤ) ∧
        payload.tenantId = user.tenantId ∧ payload.tokenVersion = user.tokenVersion := by
  simp only [rotateRefreshToken, Prog.bind_def, Prog.run_bind_eq_some,
    run_decodeRefreshToken_iff hclock hredis]
  constructor
  · rintro ⟨pair, w', payload, _, ⟨⟨claims, hdecode, htype, hpayload⟩, hkey, rfl⟩, user, _, huser, hrun⟩
    obtain ⟨hlive, hsub, htenant, hversion, rfl⟩ :=
      (run_getActiveUserFromRefreshPayload_iff le_rfl).1 huser
    obtain ⟨taken, w₁, hrevoke, hrest⟩ := hrun
    refine ⟨claims, payload, user, hdecode, htype, hpayload, hkey, ?_, hlive, hsub, htenant, hversion⟩
    rw [revoke, Prog.bind_def, run_issue_bind le_rfl] at hrevoke
    simp only [Command.exec, unlessFails, hredis, Bool.false_eq_true, if_false, orUnhandled,
      Prog.getOrRaise, Prog.run_ret, Option.some.injEq, Prod.mk.injEq, Except.ok.injEq] at hrevoke
    refine (revokeRefreshToken_fst hkey).1 (hrevoke.1.trans ?_)
    by_contra htaken
    rw [if_neg htaken] at hrest
    simp at hrest
  · rintro ⟨claims, payload, user, hdecode, htype, hpayload, hkey, hexp, hlive, hsub, htenant, hversion⟩
    have htaken := (revokeRefreshToken_fst hkey).2 hexp
    let w₁ : World K := { w with
      keys := (App.revokeRefreshToken w.keys e.now e.lingers payload.jti payload.exp true).2
      clock := e.now }
    have htokens : ∃ pair w', (createTokens platform settings user).run (interp platform collation) e w₁ =
        some (.ok pair, w') := run_createTokens user le_rfl
    obtain ⟨pair, w', htokens⟩ := htokens
    refine ⟨pair, w', payload, _, ⟨⟨claims, hdecode, htype, hpayload⟩, hkey, rfl⟩, user, _,
      (run_getActiveUserFromRefreshPayload_iff le_rfl).2
        ⟨hlive, hsub, htenant, hversion, rfl⟩, true, w₁, ?_, htokens⟩
    rw [revoke, Prog.bind_def, run_issue_bind le_rfl]
    simp only [Command.exec, unlessFails, hredis, Bool.false_eq_true, if_false, orUnhandled,
      Prog.getOrRaise, Prog.run_ret, htaken]
    rfl

end Checks

/-! ### The tokens of a run -/

section Runs

variable {K : Type} [Field K] [LinearOrder K] [FloorRing K] {platform : Platform}
  {collation : Collation} {settings : Settings} {ι : Type} [DecidableEq ι] {w : World K}
  {as bs : List (PoolAction ι (ApiRequest settings) (Env K))} {s t : Api settings ι K} {i : ι}
  {q : ApiRequest settings} {pair : TokenPair}

variable (platform collation) in
/-- The row was read for the tokens: the process that returns them at the end of `cs ++ ds` was serving
the request after `cs`, when the table had it. -/
structure MintedFrom (w : World K) (cs ds : List (PoolAction ι (ApiRequest settings) (Env K))) (i : ι)
    (q : ApiRequest settings) (u : Api settings ι K) (user : User) : Prop where
  run : exec (Api.step platform collation settings) (Pool.initial w) cs = some u
  serves : ∃ p, u.calls i = some (q, p)
  lives : .die i ∉ ds
  row : u.store.db.users.row user.id = some user

/-- The tokens that a process returns were made for a user that it has read. -/
lemma mintedFrom_of_returned (h : exec (Api.step platform collation settings) (Pool.initial w) as = some s)
    (hi : s.calls i = some (q, .ret (some pair))) :
    ∃ cs ds u user, as = cs ++ ds ∧ MintedFrom platform collation w cs ds i q u user ∧
      NewTokens (K := K) platform settings user pair := by
  obtain ⟨x, hx, hret⟩ := allInformed_exec h i q _ hi
  have hfrom : ∀ user ∈ x.users, NewTokens (K := K) platform settings user pair →
      ∃ cs ds u user, as = cs ++ ds ∧ MintedFrom platform collation w cs ds i q u user ∧
        NewTokens (K := K) platform settings user pair := by
    intro user huser htokens
    obtain ⟨cs, ds, u, p, rfl, hu, hp, hdie, hrow⟩ := hx (.user user) (.inl huser)
    exact ⟨cs, ds, u, user, rfl, ⟨hu, ⟨p, hp⟩, hdie, hrow⟩, htokens⟩
  cases hret pair rfl with
  | login _ _ _ read _ _ _ _ tokens => exact hfrom _ read tokens
  | refresh _ read _ _ _ _ tokens => exact hfrom _ read tokens

/-- The user is there and active, and so is its tenant. -/
def UserLive (db : Database K) (userId : ℕ) : Prop := ∃ row, row.id = userId ∧ Live db row

variable (platform collation) in
/-- No revocation of the user's sessions was committed. -/
abbrev Unrevoked (userId : ℕ) (u : Api settings ι K)
    (as : List (PoolAction ι (ApiRequest settings) (Env K))) : Prop :=
  Along (Api.step platform collation settings) (fun s a => ¬ Revokes userId s a) u as

/-- **A user is live with the version of a token exactly if nothing was revoked since.** -/
lemma live_version_iff {cs ds : List (PoolAction ι (ApiRequest settings) (Env K))}
    {u : Api settings ι K} {user : User} (hminted : MintedFrom platform collation w cs ds i q u user)
    (hcurrent : Along (Api.step platform collation settings) Current (Pool.initial w)
      ((cs ++ ds) ++ bs))
    (h : exec (Api.step platform collation settings) (Pool.initial w) (cs ++ ds) = some s)
    (ht : exec (Api.step platform collation settings) s bs = some t) :
    (∃ row, row.id = user.id ∧ row.tenantId = user.tenantId ∧ row.tokenVersion = user.tokenVersion ∧
        Live t.store.db row) ↔
      UserLive t.store.db user.id ∧ Unrevoked platform collation user.id u (ds ++ bs) := by
  have hus : exec (Api.step platform collation settings) u ds = some s := by
    obtain ⟨u', hu', hs⟩ := exec_append_eq_some.1 h
    rwa [Option.some.inj (hminted.run.symm.trans hu')]
  have hut : exec (Api.step platform collation settings) u (ds ++ bs) = some t :=
    exec_append_eq_some.2 ⟨s, hus, ht⟩
  have halong : Along (Api.step platform collation settings) Current u (ds ++ bs) := by
    rw [List.append_assoc] at hcurrent
    exact hcurrent.append hminted.run
  have hversions : ∀ row, row.id = user.id → Live t.store.db row →
      (row.tokenVersion = user.tokenVersion ↔ Unrevoked platform collation user.id u (ds ++ bs)) := by
    intro row hid hlive
    exact (versions_along hminted.run halong hut hminted.row (hid ▸ hlive.row)).2
  constructor
  · rintro ⟨row, hid, -, hversion, hlive⟩
    exact ⟨⟨row, hid, hlive⟩, (hversions row hid hlive).1 hversion⟩
  · rintro ⟨⟨row, hid, hlive⟩, hunrevoked⟩
    refine ⟨row, hid, ?_, (hversions row hid hlive).2 hunrevoked, hlive⟩
    obtain ⟨before, hbefore, htenant⟩ := (later_run hut).row user.id
      (u.store.db.users.lt_of_row hminted.row) row (hid ▸ hlive.row)
    rwa [Option.some.inj (hminted.row.symm.trans hbefore)]

variable (platform collation) in
/-- `get_current_user` returns for the token, executed at once and without a tenant in the request. -/
def AcceptsAccess (e : Env K) (w : World K) (token : String) : Prop :=
  ∃ caller w', (getCurrentUser token none).run (interp platform collation) e w = some (.ok caller, w')

variable (platform collation settings) in
/-- `rotate_refresh_token` returns for the token, executed at once. -/
def AcceptsRefresh (e : Env K) (w : World K) (token : String) : Prop :=
  ∃ pair w', (rotateRefreshToken platform settings token).run (interp platform collation) e w =
    some (.ok pair, w')

/-- The token is not expired at the time of the step. -/
def Unexpired (platform : Platform) (e : Env K) (token : String) : Prop :=
  ∃ exp, (platform.decode token).bind Claims.exp = some exp ∧ timestamp e.now ≤ exp + e.leeway

/-- What the decoder makes of a token that the code has made. -/
lemma decodeToken_encode_iff {type subject jti : String} {tenantId : ℕ} {tokenVersion : ℤ} {expire : K}
    {e : Env K} {claims : Claims} :
    App.decodeToken platform e.leeway e.now
        (platform.encode (newClaims type subject tenantId tokenVersion expire jti)) = some claims ↔
      claims = newClaims type subject tenantId tokenVersion expire jti ∧
        Unexpired platform e
          (platform.encode (newClaims type subject tenantId tokenVersion expire jti)) := by
  rw [App.decodeToken, Unexpired, platform.decode_encode, Option.filter_eq_some_iff]
  constructor
  · rintro ⟨heq, hexp⟩
    obtain rfl := Option.some.inj heq
    exact ⟨rfl, timestamp expire, rfl, by simpa [newClaims] using hexp⟩
  · rintro ⟨rfl, exp, hexp, hle⟩
    obtain rfl : timestamp expire = exp := Option.some.inj hexp
    exact ⟨rfl, by simpa [newClaims] using hle⟩

lemma accessClaims_newClaims {user : User} {expire : K} {jti : String} :
    accessClaims (newClaims "access" user.id.repr user.tenantId user.tokenVersion expire jti) =
      some ((user.id : ℤ), (user.tenantId : ℤ), user.tokenVersion) := by
  simp [accessClaims, newClaims, PyText.parseInt_repr, guard]

/-- **When an access token is accepted.**  In a run that loses no revocation, a token that was returned is
accepted later exactly if it is not expired, its user is live, and no revocation of the user's
sessions was committed since the row of the user was read for it. -/
theorem access_token_accepted_iff
    (h : exec (Api.step platform collation settings) (Pool.initial w) as = some s)
    (hi : s.calls i = some (q, .ret (some pair)))
    (ht : exec (Api.step platform collation settings) s bs = some t)
    (hcurrent : Along (Api.step platform collation settings) Current (Pool.initial w) (as ++ bs)) :
    ∃ cs ds u user, as = cs ++ ds ∧ MintedFrom platform collation w cs ds i q u user ∧
      NewTokens (K := K) platform settings user pair ∧ ∀ e : Env K, t.store.clock ≤ e.now →
        (AcceptsAccess platform collation e t.store pair.accessToken ↔
          Unexpired platform e pair.accessToken ∧ UserLive t.store.db user.id ∧
            Unrevoked platform collation user.id u (ds ++ bs)) := by
  obtain ⟨cs, ds, u, user, rfl, hminted, htokens⟩ := mintedFrom_of_returned h hi
  refine ⟨cs, ds, u, user, rfl, hminted, htokens, fun e hclock => ?_⟩
  obtain ⟨time, time', n, n', haccess, -⟩ := htokens
  rw [← live_version_iff hminted hcurrent h ht, haccess, AcceptsAccess]
  simp only [run_getCurrentUser_iff hclock, decodeToken_encode_iff]
  constructor
  · rintro ⟨row, hlive, _, ⟨rfl, hexp⟩, hclaims⟩
    rw [accessClaims_newClaims, Option.some.injEq, Prod.mk.injEq, Prod.mk.injEq] at hclaims
    obtain ⟨hid, htenant, hversion⟩ := hclaims
    exact ⟨hexp, row, by exact_mod_cast hid.symm, by exact_mod_cast htenant.symm, hversion.symm, hlive⟩
  · rintro ⟨hexp, row, hid, htenant, hversion, hlive⟩
    refine ⟨row, hlive, _, ⟨rfl, hexp⟩, ?_⟩
    rw [accessClaims_newClaims, hid, htenant, hversion]

/-- No request is about to commit. -/
def commitsNothing (s : Api settings ι K) : PoolAction ι (ApiRequest settings) (Env K) → Bool
  | .step i _ =>
      match s.calls i with
      | some (_, .call (.commit _) _) => false
      | _ => true
  | _ => true

omit [Field K] [LinearOrder K] [FloorRing K] [DecidableEq ι] in
lemma current_of_commitsNothing {a : PoolAction ι (ApiRequest settings) (Env K)}
    (h : commitsNothing s a = true) : Current s a := by
  cases a with
  | start | die => trivial
  | step i e =>
      intro q statements k userId changes version row hi
      simp [commitsNothing, hi] at h

end Runs

/-- A login, command by command. -/
def loginRun : List (PoolAction ℕ (ApiRequest {}) (Env ℚ)) :=
  .start 0 (.login "ada@example.com" "" none) :: List.replicate 6 (.step 0 (.calm 1))

lemma exec_loginRun : ∃ s pair, exec (Api.step Platform.plain Collation.plain {})
    (Pool.initial World.oneUser) loginRun = some s ∧
      s.calls 0 = some (.login "ada@example.com" "" none, .ret (some pair)) := ⟨_, _, rfl, rfl⟩

lemma current_loginRun : Along (Api.step Platform.plain Collation.plain {}) Current
    (Pool.initial World.oneUser) (loginRun ++ []) :=
  along_of_checkAlong (fun _ _ => current_of_commitsNothing) rfl

/-- The access token of a login, right after it. -/
theorem access_token_accepted_iff_login : ∃ (s : Api {} ℕ ℚ) (pair : TokenPair),
    exec (Api.step Platform.plain Collation.plain {}) (Pool.initial World.oneUser) loginRun = some s ∧
    ∃ cs ds u user, loginRun = cs ++ ds ∧ MintedFrom Platform.plain Collation.plain World.oneUser cs ds 0
        (.login "ada@example.com" "" none) u user ∧
      NewTokens (K := ℚ) Platform.plain {} user pair ∧ ∀ e : Env ℚ, s.store.clock ≤ e.now →
        (AcceptsAccess Platform.plain Collation.plain e s.store pair.accessToken ↔
          Unexpired Platform.plain e pair.accessToken ∧ UserLive s.store.db user.id ∧
            Unrevoked Platform.plain Collation.plain user.id u (ds ++ [])) := by
  obtain ⟨s, pair, hs, hi⟩ := exec_loginRun
  exact ⟨s, pair, hs, access_token_accepted_iff hs hi exec_nil current_loginRun⟩

section Runs

variable {K : Type} [Field K] [LinearOrder K] [FloorRing K] {platform : Platform}
  {collation : Collation} {settings : Settings} {ι : Type} [DecidableEq ι] {w : World K}
  {as bs : List (PoolAction ι (ApiRequest settings) (Env K))} {s t : Api settings ι K} {i : ι}
  {q : ApiRequest settings} {pair : TokenPair}

/-- The payload of a refresh token that the code has made, unless its expiry counts as missing. -/
lemma refreshPayload_newClaims {user : User} {expire : K} {n : ℕ} {payload : RefreshPayload} :
    (newClaims "refresh" user.id.repr user.tenantId user.tokenVersion expire
        (platform.uuid7 n)).refreshPayload = some payload ↔
      timestamp expire ≠ 0 ∧ payload = ⟨some user.id.repr, user.tenantId, user.tokenVersion,
        timestamp expire, platform.uuid7 n⟩ := by
  rw [Claims.refreshPayload_eq_some]
  obtain ⟨sub, tenantId, tokenVersion, exp, jti⟩ := payload
  simp only [newClaims, Option.some.injEq, RefreshPayload.mk.injEq]
  constructor
  · rintro ⟨rfl, rfl, rfl, rfl, rfl, -, hne⟩
    exact ⟨hne, rfl, rfl, rfl, rfl, rfl⟩
  · rintro ⟨hne, rfl, rfl, rfl, rfl, rfl⟩
    exact ⟨rfl, rfl, rfl, rfl, rfl, platform.uuid7_ne_empty n, hne⟩

/-- **When a refresh token is accepted.**  The conditions on its user and on revocations are those of the
access token; besides, a whole second of its lifetime must be left, and Redis must not have the mark
of its `jti`. -/
theorem refresh_token_accepted_iff
    (h : exec (Api.step platform collation settings) (Pool.initial w) as = some s)
    (hi : s.calls i = some (q, .ret (some pair)))
    (ht : exec (Api.step platform collation settings) s bs = some t)
    (hcurrent : Along (Api.step platform collation settings) Current (Pool.initial w) (as ++ bs)) :
    ∃ cs ds u user jti exp, as = cs ++ ds ∧ MintedFrom platform collation w cs ds i q u user ∧
      NewTokens (K := K) platform settings user pair ∧
      Sessions.Presents platform pair.refreshToken jti exp ∧
      ∀ e : Env K, t.store.clock ≤ e.now → e.redisFails = false →
        (AcceptsRefresh platform collation settings e t.store pair.refreshToken ↔
          Unexpired platform e pair.refreshToken ∧ timestamp e.now < exp ∧ exp ≠ 0 ∧
            t.store.keys.contains e.now e.lingers (revokedKey jti) = false ∧
            UserLive t.store.db user.id ∧ Unrevoked platform collation user.id u (ds ++ bs)) := by
  obtain ⟨cs, ds, u, user, rfl, hminted, htokens⟩ := mintedFrom_of_returned h hi
  obtain ⟨time, time', n, n', -, hrefresh⟩ := id htokens
  refine ⟨cs, ds, u, user, platform.uuid7 n', _, rfl, hminted, htokens,
    ⟨_, by rw [hrefresh, platform.decode_encode], rfl, rfl⟩, fun e hclock hredis => ?_⟩
  rw [← live_version_iff hminted hcurrent h ht, hrefresh, AcceptsRefresh]
  simp only [run_rotateRefreshToken_iff hclock hredis, decodeToken_encode_iff]
  constructor
  · rintro ⟨_, payload, row, ⟨rfl, hexp⟩, -, hpayload, hkey, hleft, hlive, hsub, htenant, hversion⟩
    obtain ⟨hne, rfl⟩ := refreshPayload_newClaims.1 hpayload
    rw [Option.bind_some, PyText.parseInt_repr, Option.some.injEq] at hsub
    exact ⟨hexp, hleft, hne, hkey, row, by exact_mod_cast hsub.symm, Int.ofNat_inj.1 htenant.symm,
      hversion.symm, hlive⟩
  · rintro ⟨hexp, hleft, hne, hkey, row, hid, htenant, hversion, hlive⟩
    refine ⟨_, _, row, ⟨rfl, hexp⟩, rfl, refreshPayload_newClaims.2 ⟨hne, rfl⟩, hkey, hleft, hlive, ?_,
      ?_, hversion.symm⟩
    · rw [Option.bind_some, PyText.parseInt_repr, hid]
    · rw [htenant]

end Runs

/-- The refresh token of a login, right after it. -/
theorem refresh_token_accepted_iff_login : ∃ (s : Api {} ℕ ℚ) (pair : TokenPair),
    exec (Api.step Platform.plain Collation.plain {}) (Pool.initial World.oneUser) loginRun = some s ∧
    ∃ cs ds u user jti exp, loginRun = cs ++ ds ∧
      MintedFrom Platform.plain Collation.plain World.oneUser cs ds 0
        (.login "ada@example.com" "" none) u user ∧
      NewTokens (K := ℚ) Platform.plain {} user pair ∧
      Sessions.Presents Platform.plain pair.refreshToken jti exp ∧
      ∀ e : Env ℚ, s.store.clock ≤ e.now → e.redisFails = false →
        (AcceptsRefresh Platform.plain Collation.plain {} e s.store pair.refreshToken ↔
          Unexpired Platform.plain e pair.refreshToken ∧ timestamp e.now < exp ∧ exp ≠ 0 ∧
            s.store.keys.contains e.now e.lingers (revokedKey jti) = false ∧
            UserLive s.store.db user.id ∧
            Unrevoked Platform.plain Collation.plain user.id u (ds ++ [])) := by
  obtain ⟨s, pair, hs, hi⟩ := exec_loginRun
  exact ⟨s, pair, hs, refresh_token_accepted_iff hs hi exec_nil current_loginRun⟩

/-! ### Marks -/

section Marks

variable {K : Type} [Field K] [LinearOrder K] [FloorRing K] {platform : Platform}
  {collation : Collation} {settings : Settings} {ι : Type} [DecidableEq ι] {w : World K}
  {as : List (PoolAction ι (ApiRequest settings) (Env K))} {s : Api settings ι K} {jti : String}

omit [Field K] [LinearOrder K] [FloorRing K] in
lemma head?_append {s : String} {c : Char} (h : s.toList.head? = some c) (rest : String) :
    (s ++ rest).toList.head? = some c := by
  rw [String.toList_append, List.head?_append, h]
  rfl

/-- The keys of a tenant are not marks. -/
lemma revokedKey_ne (jti rest : String) (tenantId : ℕ) :
    revokedKey jti ≠ buildTenantCachePrefix tenantId ++ rest := by
  intro h
  have hmark : (revokedKey jti).toList.head? = some 'r' := head?_append rfl jti
  have htenant : (buildTenantCachePrefix tenantId ++ rest).toList.head? = some 't' :=
    head?_append (head?_append rfl _) rest
  rw [h, htenant] at hmark
  cases hmark

lemma revokedKey_injective {jti jti' : String} (h : revokedKey jti = revokedKey jti') : jti = jti' :=
  (String.append_right_inj _).1 h

/-- **A granted command that sets a mark** is the revocation of a token that the request presents. -/
lemma presents_of_mark {q : ApiRequest settings} {x : Knowledge K} {c : Command K} {e : Env K}
    {w : World K} (hc : Granted platform settings x q c)
    (hmark : (c.exec platform collation e w).2.keys (revokedKey jti) ≠ w.keys (revokedKey jti)) :
    ∃ exp requireNew token, c = .revokeRefreshToken jti exp requireNew ∧ e.redisFails = false ∧
      (q = .logout token ∨ q = .refresh token) ∧ Sessions.Presents platform token jti exp := by
  have hrevoke : ∀ {token : String} {payload : RefreshPayload} {requireNew : Bool},
      Presented platform token payload → c = .revokeRefreshToken payload.jti payload.exp requireNew →
      payload.jti = jti ∧ e.redisFails = false ∧ Sessions.Presents platform token jti payload.exp := by
    rintro token payload requireNew ⟨claims, hdecode, -, hpayload⟩ rfl
    have hjti : payload.jti = jti := by
      by_contra hne
      exact hmark (keys_exec_revokeRefreshToken_of_ne fun heq => hne (revokedKey_injective heq).symm)
    refine ⟨hjti, ?_, claims, hdecode, ?_⟩
    · by_contra hfails
      rw [Bool.not_eq_false] at hfails
      exact hmark (by simp [Command.exec, unlessFails, hfails])
    · obtain ⟨-, -, -, hexp, hclaim, -⟩ := Claims.refreshPayload_eq_some.1 hpayload
      exact ⟨hclaim.trans (congrArg some hjti), hexp⟩
  have hother : c.setsKeys = false → False := fun hkeys => hmark (by rw [Command.keys_exec hkeys])
  cases hc with
  | logout presented =>
      obtain ⟨rfl, hredis, hpresents⟩ := hrevoke presented rfl
      exact ⟨_, _, _, rfl, hredis, .inl rfl, hpresents⟩
  | refresh presented read subject tenant version isActive =>
      obtain ⟨rfl, hredis, hpresents⟩ := hrevoke presented rfl
      exact ⟨_, _, _, rfl, hredis, .inr rfl, hpresents⟩
  | invalidate | invalidateOwn =>
      exact absurd (keys_exec_redisIncr_of_ne (revokedKey_ne jti ":users:list:version" _)) hmark
  | @cache token requestedSlug currentUser page query skip text version named permission =>
      have hne : revokedKey jti ≠ usersListCacheKey platform currentUser.tenantId version
          { query with skip } := by
        rw [usersListCacheKey, String.append_assoc, String.append_assoc, String.append_assoc]
        exact revokedKey_ne jti _ currentUser.tenantId
      exact absurd (keys_exec_redisSet_of_ne hne) hmark
  | reads hacts =>
      refine (hother ?_).elim
      cases c with
      | revokeRefreshToken | redisSet | redisIncr => cases hacts
      | _ => rfl
  | _ => exact (hother rfl).elim

end Marks

end StarterBackend.Accounts

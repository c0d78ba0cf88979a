/-
A refresh token is used once.

Any number of calls of `rotate_refresh_token` and `logout_user` present one token, each
command of them as one step, at any times that do not go back.  What the calls read of
the database is whatever it holds at that moment.

What they compete for is the key of the token's `jti`: it is *taken* when it is set until
the token's expiry, or when the expiry has come.  The boundary is exact.  A key is set
only while `exp - floor(now)` is positive, so strictly before the expiry, and then for
`exp - floor(now)` seconds, which is not less than what is left until the expiry.
-/
import StarterBackend.App.Auth
import StarterBackend.Lib.Once

namespace StarterBackend.Sessions

open Lib App

variable {K : Type} [Field K] [LinearOrder K] [FloorRing K]

/-- The calls that present the token. -/
inductive TokenCall where
  | rotate
  | logout
deriving DecidableEq

/-- The program of a call. -/
def TokenCall.program (platform : Platform) (settings : Settings) (token : String) :
    TokenCall → AppProg K (Option TokenPair)
  | .rotate => do return some (← rotateRefreshToken platform settings token)
  | .logout => do
      logoutUser token
      return none

/-- The commands of the calls, on a database that may have changed in any way before each of
them. -/
def callInterp (platform : Platform) (collation : Collation) :
    Prog.Interp (Command K) Command.Reply AppError (World K) (Env K × Database K) :=
  fun c e w => interp platform collation c e.1 { w with db := e.2 }

/-- The calls that run, and the world that they run in. -/
abbrev TokenCalls (ι K : Type) := Pool ι TokenCall (AppProg K (Option TokenPair)) (World K)

namespace TokenCalls

variable {ι : Type} [DecidableEq ι] (platform : Platform) (collation : Collation)
  (settings : Settings) (token : String)

/-- One step of one call. -/
def step (s : TokenCalls ι K) (a : PoolAction ι TokenCall (Env K × Database K)) :
    Option (TokenCalls ι K) :=
  Pool.next (callInterp platform collation) (TokenCall.program platform settings token) s a

/-- A rotation ends with new tokens. -/
abbrev RotationSucceeds (s : TokenCalls ι K) (a : PoolAction ι TokenCall (Env K × Database K))
    (t : TokenCalls ι K) : Prop :=
  Once.Succeeds (fun q => q = .rotate) s a t

/-- The next command of a call is the one of its `revoke_refresh_token`. -/
def AtRevocation (s : TokenCalls ι K) (i : ι) (q : TokenCall) : Prop :=
  ∃ jti expiresAt requireNew k,
    s.calls i = some (q, .call (.revokeRefreshToken jti expiresAt requireNew) k)

end TokenCalls

/-! ### One revocation -/

section Revocation

/-- The token carries this `jti` and this expiry. -/
def Presents (platform : Platform) (token jti : String) (exp : ℤ) : Prop :=
  ∃ claims, platform.decode token = some claims ∧ claims.jti = some jti ∧ claims.exp = some exp

lemma Presents.unique {platform : Platform} {token jti jti' : String} {exp exp' : ℤ}
    (h : Presents platform token jti exp) (h' : Presents platform token jti' exp') :
    jti = jti' ∧ exp = exp' := by
  obtain ⟨claims, hdecode, hjti, hexp⟩ := h
  obtain ⟨claims', hdecode', hjti', hexp'⟩ := h'
  obtain rfl := Option.some.inj (hdecode.symm.trans hdecode')
  exact ⟨Option.some.inj (hjti.symm.trans hjti'), Option.some.inj (hexp.symm.trans hexp')⟩

/-- The token of this `jti` and expiry cannot be used any more. -/
def Used (jti : String) (exp : ℤ) (w : World K) : Prop :=
  w.keys.HeldUntil (revokedKey jti) (exp : K) ∨ (exp : K) ≤ w.clock

variable [IsStrictOrderedRing K] {keys : Redis.Keys K} {now : K} {lingers : Bool} {jti : String}
  {exp : ℤ} {requireNew : Bool}

/-- A revocation that sets the key sets it until the expiry at least. -/
lemma heldUntil_setEx :
    (keys.setEx now (revokedKey jti) "1" (exp - timestamp now)).HeldUntil (revokedKey jti)
      (exp : K) := by
  refine Redis.Keys.heldUntil_setEx_self ?_
  have hfloor : ((timestamp now : ℤ) : K) ≤ now := Int.floor_le now
  push_cast
  linarith

/-- A revocation that succeeds leaves the token used. -/
lemma used_of_revoke (h : (revokeRefreshToken keys now lingers jti exp requireNew).1 = true) :
    (revokeRefreshToken keys now lingers jti exp requireNew).2.HeldUntil (revokedKey jti)
      (exp : K) ∨ (exp : K) ≤ now := by
  rcases le_or_gt exp (timestamp now) with hexp | hexp
  · right
    calc (exp : K) ≤ (timestamp now : ℤ) := by exact_mod_cast hexp
      _ ≤ now := Int.floor_le now
  · left
    cases requireNew with
    | false =>
        rw [revokeRefreshToken_again hexp]
        exact heldUntil_setEx
    | true =>
        rw [revokeRefreshToken_new hexp] at h ⊢
        unfold Redis.Keys.setNxEx at h ⊢
        split_ifs at h ⊢
        exact heldUntil_setEx

omit [IsStrictOrderedRing K] in
/-- A used token is not revoked as a new one. -/
lemma revoke_eq_false_of_used (h : keys.HeldUntil (revokedKey jti) (exp : K) ∨ (exp : K) ≤ now) :
    (revokeRefreshToken keys now lingers jti exp true).1 = false := by
  rcases le_or_gt exp (timestamp now) with hexp | hexp
  · rw [revokeRefreshToken_of_le hexp]
    rfl
  · have hnow : now < (exp : K) := Int.floor_lt.1 hexp
    have hheld := h.resolve_right (not_le.2 hnow)
    rw [revokeRefreshToken_new hexp, Redis.Keys.setNxEx, if_pos (hheld.contains hnow)]

/-- A revocation keeps a key that is set until the expiry so. -/
lemma heldUntil_of_revoke (h : keys.HeldUntil (revokedKey jti) (exp : K)) :
    (revokeRefreshToken keys now lingers jti exp requireNew).2.HeldUntil (revokedKey jti)
      (exp : K) := by
  rcases le_or_gt exp (timestamp now) with hexp | hexp
  · rwa [revokeRefreshToken_of_le hexp]
  · cases requireNew with
    | false =>
        rw [revokeRefreshToken_again hexp]
        exact heldUntil_setEx
    | true =>
        rw [revokeRefreshToken_new hexp, Redis.Keys.setNxEx]
        split_ifs
        · exact h
        · exact heldUntil_setEx

end Revocation

/-! ### The key as a resource -/

section Resource

variable (platform : Platform) (collation : Collation) (token : String)

/-- The commands that a call may issue: the only one that sets a key is the revocation of the
token. -/
def Allowed : Command K → Prop
  | .revokeRefreshToken jti exp _ => Presents platform token jti exp
  | .redisSet _ _ _ => False
  | .redisIncr _ => False
  | _ => True

/-- What a reply tells: a decoded token carries its claims. -/
def Answers : (c : Command K) → c.Reply → Prop
  | .decodeToken text, r => ∀ claims, r = some claims → platform.decode text = some claims
  | _, _ => True

/-- The reply of a revocation that required the token to be new, and found it so. -/
def Grants : (c : Command K) → c.Reply → Prop
  | .revokeRefreshToken _ _ true, r => r = some true
  | _, _ => False

/-- The token is used. -/
def Taken (w : World K) : Prop := ∃ jti exp, Presents platform token jti exp ∧ Used jti exp w

variable {platform collation token} {e : Env K × Database K} {w w' : World K} {c : Command K}

omit [Field K] [LinearOrder K] [FloorRing K] in
lemma Allowed.setsKeys (hc : Allowed platform token c)
    (hne : ∀ jti exp requireNew, c ≠ .revokeRefreshToken jti exp requireNew) :
    c.setsKeys = false := by
  cases c with
  | revokeRefreshToken jti exp requireNew => exact absurd rfl (hne jti exp requireNew)
  | redisSet key value ttl => exact hc.elim
  | redisIncr key => exact hc.elim
  | _ => rfl

lemma answers_of_exec {r : c.Reply} (h : callInterp platform collation c e w = some (.ok r, w')) :
    Answers platform c r := by
  obtain ⟨-, hr, -⟩ := interp_eq_some h
  obtain rfl := Except.ok.inj hr
  cases c with
  | decodeToken text =>
      intro claims hclaims
      exact (Option.filter_eq_some_iff.1 hclaims).1
  | _ => trivial

/-- The keys and the clock after a revocation that Redis has executed. -/
lemma revoked_of_exec {jti : String} {exp : ℤ} {requireNew b : Bool}
    (h : callInterp platform collation (.revokeRefreshToken jti exp requireNew) e w =
      some (.ok (some b), w')) :
    (revokeRefreshToken w.keys e.1.now e.1.lingers jti exp requireNew).1 = b ∧
      w'.keys = (revokeRefreshToken w.keys e.1.now e.1.lingers jti exp requireNew).2 ∧
      w'.clock = e.1.now ∧ w.clock ≤ e.1.now := by
  obtain ⟨hclock, hr, rfl⟩ := interp_eq_some h
  have hreply := Except.ok.inj hr
  cases hfails : e.1.redisFails with
  | true => simp [Command.exec, unlessFails, hfails] at hreply
  | false =>
      refine ⟨?_, ?_, rfl, hclock⟩
      · simp only [Command.exec, unlessFails, hfails, Bool.false_eq_true, if_false] at hreply
        exact (Option.some.inj hreply).symm
      · simp [Command.exec, unlessFails, hfails]

variable [IsStrictOrderedRing K]

/-- A revocation that succeeds leaves the token used. -/
lemma taken_of_revoked {jti : String} {exp : ℤ} {requireNew : Bool}
    (hc : Presents platform token jti exp)
    (h : callInterp platform collation (.revokeRefreshToken jti exp requireNew) e w =
      some (.ok (some true), w')) : Taken platform token w' := by
  obtain ⟨hb, hkeys, hclock, -⟩ := revoked_of_exec h
  refine ⟨jti, exp, hc, ?_⟩
  rw [Used, hkeys, hclock]
  exact used_of_revoke hb

omit [IsStrictOrderedRing K] in
lemma not_taken_of_grants {r : c.Reply} (hc : Allowed platform token c)
    (h : callInterp platform collation c e w = some (.ok r, w')) (hr : Grants c r) :
    ¬ Taken platform token w := by
  rintro ⟨jti', exp', hpresents, hused⟩
  cases c with
  | revokeRefreshToken jti exp requireNew =>
      cases requireNew with
      | false => exact hr
      | true =>
          obtain rfl : r = some true := hr
          obtain ⟨rfl, rfl⟩ := hpresents.unique hc
          obtain ⟨hb, -, -, hle⟩ := revoked_of_exec h
          rw [revoke_eq_false_of_used (hused.imp_right fun hexp => hexp.trans hle)] at hb
          exact absurd hb Bool.false_ne_true
  | _ => exact hr

lemma taken_of_grants {r : c.Reply} (hc : Allowed platform token c)
    (h : callInterp platform collation c e w = some (.ok r, w')) (hr : Grants c r) :
    Taken platform token w' := by
  cases c with
  | revokeRefreshToken jti exp requireNew =>
      cases requireNew with
      | false => exact hr.elim
      | true =>
          obtain rfl : r = some true := hr
          exact taken_of_revoked hc h
  | _ => exact hr.elim

lemma taken_of_taken {x : Except AppError c.Reply} (hc : Allowed platform token c)
    (h : callInterp platform collation c e w = some (x, w')) (ht : Taken platform token w) :
    Taken platform token w' := by
  obtain ⟨jti', exp', hpresents, hused⟩ := ht
  obtain ⟨hclock, -, rfl⟩ := interp_eq_some h
  refine ⟨jti', exp', hpresents, hused.imp (fun hheld => ?_) fun hexp => hexp.trans hclock⟩
  by_cases hne : ∀ jti exp requireNew, c ≠ .revokeRefreshToken jti exp requireNew
  · exact hheld.congr (congrFun (Command.keys_exec (hc.setsKeys hne)) _)
  · push Not at hne
    obtain ⟨jti, exp, requireNew, rfl⟩ := hne
    obtain ⟨rfl, rfl⟩ := hpresents.unique hc
    simp only [Command.exec, unlessFails]
    split_ifs
    · exact hheld
    · exact heldUntil_of_revoke hheld

variable (platform collation token) in
/-- The key of the token, as the resource that rotations compete for. -/
def tokenKey : Once (callInterp platform collation : Prog.Interp (Command K) Command.Reply AppError
    (World K) (Env K × Database K)) where
  allowed := Allowed platform token
  answers := Answers platform
  grants := Grants
  taken := Taken platform token
  answers_of_exec := answers_of_exec
  not_taken_of_grants := not_taken_of_grants
  taken_of_grants := taken_of_grants
  taken_of_taken := taken_of_taken

/-! ### The programs -/

/-- `_decode_refresh_token` returns what the token carries. -/
lemma obeys_decodeRefreshToken :
    (tokenKey (K := K) platform collation token).Obeys
      (fun payload => Presents platform token payload.jti payload.exp)
      (decodeRefreshToken token) := by
  unfold decodeRefreshToken isRefreshTokenRevoked
  refine ⟨trivial, fun r hr => ?_⟩
  cases r with
  | none => trivial
  | some claims =>
      show Once.Obeys _ _ (ite _ _ _)
      split_ifs
      · trivial
      · refine Once.Obeys.bind (Once.obeys_getOrRaise (P := fun payload : RefreshPayload =>
          Presents platform token payload.jti payload.exp) fun payload hpayload => ?_)
          fun payload hpresents => ⟨trivial, fun b _ => ?_⟩
        · obtain ⟨-, -, -, hexp, hjti, -, -⟩ := Claims.refreshPayload_eq_some.1 hpayload
          exact ⟨claims, hr claims rfl, hjti, hexp⟩
        · rcases b with _ | _ | _
          · trivial
          · exact hpresents
          · trivial

/-- What follows the token is not about its key. -/
lemma behaves_assertActiveTenantMembership (user : User) :
    (tokenKey (K := K) platform collation token).Behaves (assertActiveTenantMembership user) := by
  unfold assertActiveTenantMembership
  refine ⟨trivial, fun r _ => ?_⟩
  rcases r with _ | tenant
  · trivial
  · show Once.Obeys _ _ (ite _ _ _)
    split_ifs <;> trivial

lemma behaves_getActiveUser (payload : RefreshPayload) :
    (tokenKey (K := K) platform collation token).Behaves
      (getActiveUserFromRefreshPayload payload) := by
  unfold getActiveUserFromRefreshPayload
  refine Once.Obeys.bind (Once.obeys_getOrRaise (P := fun _ => True) fun _ _ => trivial)
    fun userId _ => ⟨trivial, fun r _ => ?_⟩
  rcases r with _ | user
  · trivial
  · show Once.Obeys _ _ (ite _ _ _)
    split_ifs
    · trivial
    · exact (behaves_assertActiveTenantMembership user).bind fun _ _ => trivial
    · exact (behaves_assertActiveTenantMembership user).bind fun _ _ => trivial

lemma behaves_createTokens (settings : Settings) (user : User) :
    (tokenKey (K := K) platform collation token).Behaves (createTokens platform settings user) :=
  ⟨trivial, fun _ _ => ⟨trivial, fun _ _ => ⟨trivial, fun _ _ => ⟨trivial, fun _ _ => trivial⟩⟩⟩⟩

variable {settings : Settings}

lemma behaves_program (q : TokenCall) :
    (tokenKey (K := K) platform collation token).Behaves (q.program platform settings token) := by
  cases q with
  | rotate =>
      refine Once.Obeys.bind (P := fun _ => True) ?_ fun _ _ => trivial
      refine obeys_decodeRefreshToken.bind fun payload hpresents => ?_
      refine (behaves_getActiveUser payload).bind fun user _ => ⟨hpresents, fun r _ => ?_⟩
      rcases r with _ | _ | _
      · trivial
      · trivial
      · exact behaves_createTokens settings user
  | logout =>
      refine Once.Obeys.bind (P := fun _ => True) ?_ fun _ _ => trivial
      refine obeys_decodeRefreshToken.bind fun payload hpresents => ⟨hpresents, fun r _ => ?_⟩
      rcases r with _ | _ <;> trivial

/-- A rotation gets its tokens only after it has revoked the token as a new one. -/
lemma waits_rotate :
    (tokenKey (K := K) platform collation token).Waits
      (TokenCall.rotate.program platform settings token) := by
  show Once.Waits _ (Prog.bind (Prog.bind (decodeRefreshToken token) _) _)
  rw [Prog.bind_assoc]
  refine obeys_decodeRefreshToken.waits_bind fun payload hpresents => ?_
  rw [Prog.bind_def, Prog.bind_assoc]
  refine (behaves_getActiveUser payload).waits_bind fun user _ => fun r _ => ?_
  rcases r with _ | _ | _
  · exact .inr trivial
  · exact .inr trivial
  · exact .inl rfl

end Resource

/-! ### After a refusal -/

section Refusal

/-- The command is not a revocation. -/
def NoRevocation {α : Type} (c : Command K) (_ : c.Reply → AppProg K α) : Prop :=
  ∀ jti exp requireNew, c ≠ .revokeRefreshToken jti exp requireNew

/-- The revocation of a rotation requires the token to be new, and ends the call unless it
succeeds; the one of a logout does not. -/
def RefusalEnds (q : TokenCall) (c : Command K)
    (k : c.Reply → AppProg K (Option TokenPair)) : Prop :=
  match q, c, k with
  | .rotate, .revokeRefreshToken _ _ requireNew, k =>
      requireNew = true ∧ ∀ r, r ≠ some true → ∃ x, k r = .raise x
  | .logout, .revokeRefreshToken _ _ requireNew, _ => requireNew = false
  | _, _, _ => True

omit [Field K] [LinearOrder K] [FloorRing K] in
lemma refusalEnds_of_noRevocation {q : TokenCall} {c : Command K}
    {k : c.Reply → AppProg K (Option TokenPair)}
    (h : ∀ jti exp requireNew, c ≠ .revokeRefreshToken jti exp requireNew) : RefusalEnds q c k := by
  cases c with
  | revokeRefreshToken jti exp requireNew => exact absurd rfl (h jti exp requireNew)
  | _ => cases q <;> trivial

omit [Field K] [LinearOrder K] [FloorRing K] in
lemma every_decodeRefreshToken (token : String) :
    (decodeRefreshToken token : AppProg K RefreshPayload).Every NoRevocation := by
  unfold decodeRefreshToken isRefreshTokenRevoked
  refine ⟨nofun, fun r => ?_⟩
  rcases r with _ | claims
  · trivial
  · show Prog.Every _ (ite _ _ _)
    split_ifs
    · trivial
    · cases hpayload : claims.refreshPayload with
      | none => trivial
      | some payload =>
          refine ⟨nofun, fun b => ?_⟩
          rcases b with _ | _ | _ <;> trivial

omit [Field K] [LinearOrder K] [FloorRing K] in
lemma every_assertActiveTenantMembership (user : User) :
    (assertActiveTenantMembership user : AppProg K Unit).Every NoRevocation := by
  refine ⟨nofun, fun r => ?_⟩
  rcases r with _ | tenant
  · trivial
  · show Prog.Every _ (ite _ _ _)
    split_ifs <;> trivial

omit [Field K] [LinearOrder K] [FloorRing K] in
lemma every_getActiveUser (payload : RefreshPayload) :
    (getActiveUserFromRefreshPayload payload : AppProg K User).Every NoRevocation := by
  unfold getActiveUserFromRefreshPayload
  cases hsub : payload.sub.bind PyText.parseInt with
  | none => trivial
  | some userId =>
      refine ⟨nofun, fun r => ?_⟩
      rcases r with _ | user
      · trivial
      · show Prog.Every _ (ite _ _ _)
        split_ifs
        · trivial
        · exact (every_assertActiveTenantMembership user).bind fun _ => trivial
        · exact (every_assertActiveTenantMembership user).bind fun _ => trivial

lemma every_createTokens (platform : Platform) (settings : Settings) (user : User) :
    (createTokens platform settings user : AppProg K TokenPair).Every NoRevocation :=
  ⟨nofun, fun _ => ⟨nofun, fun _ => ⟨nofun, fun _ => ⟨nofun, fun _ => trivial⟩⟩⟩⟩

lemma every_program (platform : Platform) (settings : Settings) (token : String) (q : TokenCall) :
    (q.program platform settings token : AppProg K (Option TokenPair)).Every (RefusalEnds q) := by
  cases q with
  | rotate =>
      show (Prog.bind (Prog.bind (decodeRefreshToken token) _) _).Every _
      rw [Prog.bind_assoc]
      refine ((every_decodeRefreshToken token).imp fun c k h =>
        refusalEnds_of_noRevocation h).bind fun payload => ?_
      rw [Prog.bind_def, Prog.bind_assoc]
      refine ((every_getActiveUser payload).imp fun c k h =>
        refusalEnds_of_noRevocation h).bind fun user => ⟨⟨rfl, fun r hr => ?_⟩, fun r => ?_⟩
      · rcases r with _ | _ | _
        · exact ⟨_, rfl⟩
        · exact ⟨_, rfl⟩
        · exact absurd rfl hr
      · rcases r with _ | _ | _
        · trivial
        · trivial
        · exact ((every_createTokens platform settings user).imp fun c k h =>
            refusalEnds_of_noRevocation h).bind fun _ => trivial
  | logout =>
      show (Prog.bind (Prog.bind (decodeRefreshToken token) _) _).Every _
      rw [Prog.bind_assoc]
      refine ((every_decodeRefreshToken token).imp fun c k h =>
        refusalEnds_of_noRevocation h).bind fun payload => ⟨rfl, fun r => ?_⟩
      rcases r with _ | _ <;> trivial

end Refusal

/-! ### Runs -/

namespace TokenCalls

variable [IsStrictOrderedRing K] {ι : Type} [DecidableEq ι] {platform : Platform}
  {collation : Collation} {settings : Settings} {token : String} {w₀ : World K}
  {as bs : List (PoolAction ι TokenCall (Env K × Database K))}
  {a b : PoolAction ι TokenCall (Env K × Database K)} {s s' u u' : TokenCalls ι K}

/-- All calls of a run behave. -/
lemma behaves_run (hs : exec (step platform collation settings token) (Pool.initial w₀) as = some s)
    {i : ι} {q : TokenCall} {p : AppProg K (Option TokenPair)} (hi : s.calls i = some (q, p)) :
    (tokenKey (K := K) platform collation token).Behaves p :=
  (exec_invariant (I := (tokenKey platform collation token).Inv fun _ => False)
    (fun _ _ _ h hst => Once.Inv.next behaves_program (fun _ hq => hq.elim) h hst)
    (Once.inv_initial w₀) hs).obeys i q p hi

/-- The revocation of a call, if Redis executes it for a `logout_user`, leaves the token used. -/
lemma taken_of_logout {i : ι} {e : Env K × Database K}
    (hs : exec (step platform collation settings token) (Pool.initial w₀) as = some s)
    (hi : AtRevocation s i .logout) (he : e.1.redisFails = false)
    (ha : step platform collation settings token s (.step i e) = some s') :
    Taken platform token s'.store := by
  obtain ⟨jti, exp, requireNew, k, hi⟩ := hi
  have hpresents : Presents platform token jti exp := (behaves_run hs hi).1
  obtain rfl : requireNew = false := (Pool.every_run (every_program platform settings token) hs hi).1
  rcases Pool.next_step_cases hi ha with ⟨x, hexec, -⟩ | ⟨r, hexec, -⟩
  · simpa using (interp_eq_some hexec).2.1
  · obtain rfl : r = some true := by
      have hreply := Except.ok.inj (interp_eq_some hexec).2.1
      simpa [Command.exec, unlessFails, he, revokeRefreshToken_again_fst] using hreply
    exact taken_of_revoked hpresents hexec

/-- **A refresh token is used once.**  Of the calls that present a token, in any order and at any
times, at most one rotation succeeds; and a rotation that comes to its revocation after
that of a completed `logout_user` ends there with an exception. -/
theorem refresh_token_used_once
    (hs : exec (step platform collation settings token) (Pool.initial w₀) as = some s)
    (ha : step platform collation settings token s a = some s')
    (hu : exec (step platform collation settings token) s' bs = some u)
    (hb : step platform collation settings token u b = some u') :
    ¬ (RotationSucceeds s a s' ∧ RotationSucceeds u b u') ∧
    ∀ i e j e', a = .step i e → AtRevocation s i .logout → e.1.redisFails = false →
      b = .step j e' → AtRevocation u j .rotate → ∃ x, u'.calls j = some (.rotate, .raise x) := by
  have hwaits : ∀ q : TokenCall, q = .rotate →
      (tokenKey (K := K) platform collation token).Waits (q.program platform settings token) := by
    rintro _ rfl
    exact waits_rotate
  refine ⟨fun h => ?_, ?_⟩
  · exact Once.at_most_one_result (O := tokenKey platform collation token) behaves_program hwaits
      hs ha hu hb h.1 h.2
  · rintro i e j e' rfl hi he rfl ⟨jti, exp, requireNew, k, hj⟩
    have htaken := taken_of_logout hs hi he ha
    have hs' := exec_append_eq_some.2 ⟨s, hs, exec_cons_eq_some.2 ⟨s', ha, hu⟩⟩
    obtain ⟨rfl, hends⟩ : RefusalEnds .rotate (.revokeRefreshToken jti exp requireNew) k :=
      (Pool.every_run (every_program platform settings token) hs' hj).1
    rcases Pool.next_step_cases hj hb with ⟨x, -, hcalls⟩ | ⟨r, hexec, hcalls⟩
    · exact ⟨x, by rw [hcalls, Function.update_self]⟩
    · have hs'' := exec_append_eq_some.2 ⟨s, hs, exec_cons_eq_some.2 ⟨s', ha, exec_nil⟩⟩
      have hrefused : r ≠ some true := fun hr =>
        Once.not_granted_of_taken (O := tokenKey platform collation token) behaves_program hs''
          htaken hu hj hexec hr
      obtain ⟨x, hx⟩ := hends r hrefused
      exact ⟨x, by rw [hcalls, Function.update_self, hx]⟩

/-- The claims of a refresh token that is good for a week from the time zero. -/
def weekClaims : Claims :=
  ⟨some "refresh", some "1", some 1, some 0, some 604800, some "0"⟩

/-- A rotation that nothing disturbs gets its tokens. -/
lemma run_rotate_weekClaims :
    ∃ tokens w, (TokenCall.rotate.program Platform.plain {} (Platform.plain.encode weekClaims)).run
      (callInterp Platform.plain Collation.plain) (Env.calm 0, Database.oneUser) World.oneUser =
        some (.ok tokens, w) ∧ w.clock = 0 := by
  have hsub : PyText.parseInt "1" = some 1 := PyText.parseInt_repr 1
  have htoken : App.decodeToken Platform.plain 0 (0 : ℚ) (Platform.plain.encode weekClaims) =
      some weekClaims := by
    simp [App.decodeToken, Platform.decode_encode, weekClaims, timestamp]
  have htype : weekClaims.type = some "refresh" := rfl
  have hpayload : weekClaims.refreshPayload = some ⟨some "1", 1, 0, 604800, "0"⟩ := rfl
  have huser : Query.eval Collation.plain Database.oneUser (.userInTenant 1 1) =
      some ⟨1, 1, "ada@example.com", "", true, "user", 0⟩ := rfl
  have htenant : Query.eval Collation.plain Database.oneUser (.tenant 1) =
      some ⟨1, "default", "Default", true⟩ := rfl
  simp [TokenCall.program, rotateRefreshToken, decodeRefreshToken, Prog.run, callInterp, interp,
    issue, Prog.cmd, Command.exec, World.oneUser, htoken, Prog.getOrRaise, hpayload, htype, Env.calm,
    isRefreshTokenRevoked, unlessFails, orUnhandled, Redis.Keys.contains, Redis.Keys.entry,
    Redis.Keys.empty, getActiveUserFromRefreshPayload, hsub, query, huser, htenant,
    assertActiveTenantMembership, revoke, createTokens, createAccessToken, createRefreshToken,
    createToken, now, uuid7, App.revokeRefreshToken, Redis.Keys.setNxEx, timestamp]

/-- One rotation succeeds, and another that has started does not succeed with its first command. -/
theorem refresh_token_used_once_weekClaims :
    ∃ (as : List (PoolAction ℕ TokenCall (Env ℚ × Database ℚ))) (s s' u u' : TokenCalls ℕ ℚ),
      exec (step Platform.plain Collation.plain {} (Platform.plain.encode weekClaims))
        (Pool.initial World.oneUser) as = some s ∧
      RotationSucceeds s (.step 0 (Env.calm 0, Database.oneUser)) s' ∧
      step Platform.plain Collation.plain {} (Platform.plain.encode weekClaims) u
        (.step 1 (Env.calm 0, Database.oneUser)) = some u' ∧
      ¬ RotationSucceeds u (.step 1 (Env.calm 0, Database.oneUser)) u' := by
  obtain ⟨tokens, w, hrun, hclock⟩ := run_rotate_weekClaims
  let program := TokenCall.rotate.program (K := ℚ) Platform.plain {} (Platform.plain.encode weekClaims)
  let started : TokenCalls ℕ ℚ := ⟨World.oneUser, Function.update (Function.update (fun _ => none) 1
    (some (.rotate, program))) 0 (some (.rotate, program))⟩
  have hstart : exec (step Platform.plain Collation.plain {} (Platform.plain.encode weekClaims))
      (Pool.initial World.oneUser) [.start 1 .rotate, .start 0 .rotate] = some started := rfl
  obtain ⟨as, s, s', has, hstep, hsucc, rfl, hother⟩ :=
    Once.succeeds_of_run (fun q => q = .rotate) (s := started) (i := 0) rfl rfl hrun
  have hdecode : callInterp Platform.plain Collation.plain
      (.decodeToken (Platform.plain.encode weekClaims)) (Env.calm 0, Database.oneUser) s'.store =
        some (_, _) := if_pos (hclock.le : s'.store.clock ≤ (Env.calm 0).now)
  obtain ⟨u', hu', -⟩ : ∃ u', step Platform.plain Collation.plain {}
      (Platform.plain.encode weekClaims) s' (.step 1 (Env.calm 0, Database.oneUser)) = some u' ∧ _ :=
    Pool.next_step (hother 1 (by decide)) hdecode
  exact ⟨_, s, s', s', u', exec_append_eq_some.2 ⟨started, hstart, has⟩, hsucc, hu', fun h =>
    (refresh_token_used_once (exec_append_eq_some.2 ⟨started, hstart, has⟩) hstep exec_nil hu').1
      ⟨hsucc, h⟩⟩

end TokenCalls

end StarterBackend.Sessions

/-
Tokens, sessions and passwords: `security.py`, `auth_service.py`, the dependencies that
authenticate a request, and `password_reset_service.py`.

A token is checked in two places that the source writes independently:
`getCurrentUser` takes access tokens, `rotateRefreshToken` takes refresh tokens.  Both
compare the version in the token with the one in the user's row.
-/
import StarterBackend.App.Services
import Mathlib.Data.Rat.Floor

namespace StarterBackend.App

open Lib

section

variable {K : Type} [Field K] [LinearOrder K] [FloorRing K]
  (platform : Platform) (settings : Settings)

/-! ### Making tokens -/

/-- The claims of a new token that expires at the time `expire`. -/
def newClaims (type subject : String) (tenantId : ℕ) (tokenVersion : ℤ) (expire : K)
    (jti : String) : Claims :=
  { type := some type, sub := some subject, tenantId := some (tenantId : ℤ)
    tokenVersion := some tokenVersion, exp := some (timestamp expire), jti := some jti }

/-- A token of a type, with a lifetime in seconds. -/
def createToken (type : String) (lifetime : K) (subject : String) (tenantId : ℕ)
    (tokenVersion : ℤ) : AppProg K String := do
  let expire := (← now) + lifetime
  return platform.encode (newClaims type subject tenantId tokenVersion expire (← uuid7))

/-- `create_access_token`. -/
def createAccessToken (subject : String) (tenantId : ℕ) (tokenVersion : ℤ) : AppProg K String :=
  createToken platform "access" ((settings.accessTokenExpireMinutes * 60 : ℕ) : K) subject tenantId
    tokenVersion

/-- `create_refresh_token`. -/
def createRefreshToken (subject : String) (tenantId : ℕ) (tokenVersion : ℤ) : AppProg K String :=
  createToken platform "refresh" ((settings.refreshTokenExpireDays * 86400 : ℕ) : K) subject
    tenantId tokenVersion

/-- The access and the refresh token of a session. -/
structure TokenPair where
  accessToken : String
  refreshToken : String
deriving DecidableEq

/-- The two tokens that `login_user` and `rotate_refresh_token` make for a user. -/
def createTokens (user : User) : AppProg K TokenPair := do
  let accessToken ← createAccessToken platform settings user.id.repr user.tenantId user.tokenVersion
  let refreshToken ← createRefreshToken platform settings user.id.repr user.tenantId
    user.tokenVersion
  return ⟨accessToken, refreshToken⟩

end

section

variable {K : Type} (platform : Platform) (settings : Settings)

/-! ### Checking access tokens -/

/-- The user id, the tenant id and the version that an access token claims. -/
def accessClaims (claims : Claims) : Option (ℤ × ℤ × ℤ) := do
  guard (claims.type = some "access")
  let sub ← claims.sub
  let tenantId ← claims.tenantId
  let tokenVersion ← claims.tokenVersion
  let userId ← PyText.parseInt sub
  return (userId, tenantId, tokenVersion)

def credentialsException : AppError := .unauthorized "Could not validate credentials"

/-- The end of `get_current_user`, if the request names a tenant. -/
def assertRequestedTenant (user : User) : Option String → AppProg K Unit
  | none => return ()
  | some slug => do
      let tenant ← getActiveTenantBySlug slug
      if user.tenantId = tenant.id then return () else .raise (.forbidden "Tenant access denied")

/-- `get_current_user`. -/
def getCurrentUser (token : String) (requestedSlug : Option String) : AppProg K User := do
  let claims ← .getOrRaise credentialsException (← issue (.decodeToken token))
  let (userId, tenantId, tokenVersion) ← .getOrRaise credentialsException (accessClaims claims)
  match ← query (.userInTenant userId tenantId) with
  | none => .raise credentialsException
  | some user =>
      if !user.isActive then .raise credentialsException
      else if user.tokenVersion ≠ tokenVersion then .raise credentialsException
      else
        assertActiveTenantMembership user
        assertRequestedTenant user requestedSlug
        return user

/-- `require_permission`. -/
def requirePermission (permissions : List Permission) (token : String)
    (requestedSlug : Option String) : AppProg K User := do
  let currentUser ← getCurrentUser token requestedSlug
  if userHasAnyPermission currentUser permissions then return currentUser
  else .raise (.forbidden "Insufficient permissions")

/-- `get_request_tenant`. -/
def getRequestTenant (requestedSlug : Option String) : AppProg K Tenant :=
  getActiveTenantBySlug (requestedSlug.getD "default")

/-! ### Checking refresh tokens -/

/-- What `_decode_refresh_token` makes sure a refresh token claims. -/
structure RefreshPayload where
  sub : Option String
  tenantId : ℤ
  tokenVersion : ℤ
  exp : ℤ
  jti : String
deriving DecidableEq

/-- The payload of a refresh token; an empty `jti` and an `exp` of zero count as missing. -/
def Claims.refreshPayload (claims : Claims) : Option RefreshPayload := do
  let jti ← claims.jti
  let exp ← claims.exp
  let tenantId ← claims.tenantId
  let tokenVersion ← claims.tokenVersion
  guard (jti ≠ "" ∧ exp ≠ 0)
  return ⟨claims.sub, tenantId, tokenVersion, exp, jti⟩

/-- What a payload says is what the token claims. -/
lemma Claims.refreshPayload_eq_some {claims : Claims} {payload : RefreshPayload} :
    claims.refreshPayload = some payload ↔
      claims.sub = payload.sub ∧ claims.tenantId = some payload.tenantId ∧
        claims.tokenVersion = some payload.tokenVersion ∧ claims.exp = some payload.exp ∧
        claims.jti = some payload.jti ∧ payload.jti ≠ "" ∧ payload.exp ≠ 0 := by
  obtain ⟨sub, tenantId, tokenVersion, exp, jti⟩ := payload
  obtain ⟨type, sub', tenantId', tokenVersion', exp', jti'⟩ := claims
  cases tenantId' <;> cases tokenVersion' <;> cases exp' <;> cases jti' <;>
    simp [refreshPayload, Option.bind_eq_bind, guard, Option.bind_eq_some_iff]
  grind

/-- `is_refresh_token_revoked`. -/
def isRefreshTokenRevoked (jti : String) : AppProg K Bool := do
  orUnhandled (← issue (.redisExists (revokedKey jti)))

/-- `revoke_refresh_token`. -/
def revoke (jti : String) (expiresAt : ℤ) (requireNew : Bool) : AppProg K Bool := do
  orUnhandled (← issue (.revokeRefreshToken jti expiresAt requireNew))

def revokedException : AppError := .unauthorized "Refresh token has been revoked"

/-- `_decode_refresh_token`. -/
def decodeRefreshToken (refreshToken : String) : AppProg K RefreshPayload := do
  let claims ← .getOrRaise (.unauthorized "Invalid refresh token")
    (← issue (.decodeToken refreshToken))
  if claims.type ≠ some "refresh" then .raise (.unauthorized "Invalid token type")
  else
    let payload ← .getOrRaise (.unauthorized "Invalid refresh token") claims.refreshPayload
    if ← isRefreshTokenRevoked payload.jti then .raise revokedException
    else return payload

/-- `_get_active_user_from_refresh_payload`. -/
def getActiveUserFromRefreshPayload (payload : RefreshPayload) : AppProg K User := do
  let userId ← .getOrRaise (.unauthorized "Invalid refresh token")
    (payload.sub.bind PyText.parseInt)
  match ← query (.userInTenant userId payload.tenantId) with
  | none => .raise (.unauthorized "User not found or inactive")
  | some user =>
      if !user.isActive then .raise (.unauthorized "User not found or inactive")
      else
        assertActiveTenantMembership user
        if payload.tokenVersion ≠ user.tokenVersion then .raise revokedException
        else return user

/-- `logout_user`. -/
def logoutUser (refreshToken : String) : AppProg K Unit := do
  let payload ← decodeRefreshToken refreshToken
  let _ ← revoke payload.jti payload.exp false

end

section

variable {K : Type} [Field K] [LinearOrder K] [FloorRing K]
  (platform : Platform) (settings : Settings)

/-- `rotate_refresh_token`. -/
def rotateRefreshToken (refreshToken : String) : AppProg K TokenPair := do
  let payload ← decodeRefreshToken refreshToken
  let user ← getActiveUserFromRefreshPayload payload
  if ← revoke payload.jti payload.exp true then createTokens platform settings user
  else .raise revokedException

/-! ### Accounts -/

/-- `create_user`. -/
def createUser (email password : String) (tenantId : ℕ) : AppProg K User := do
  match ← query (.userByEmail email tenantId) with
  | some _ => .raise (.badRequest "User with this email already exists")
  | none =>
      let hashedPassword ← hashPassword password
      let id ← orUnhandled (← commit [.insertUser email hashedPassword tenantId])
      let user ← refreshUser id
      invalidateUsersListCache tenantId
      return user

/-- `authenticate_user`. -/
def authenticateUser (email password : String) (tenantId : ℕ) : AppProg K User := do
  match ← query (.userByEmail email tenantId) with
  | none => .raise (.unauthorized "Invalid email or password")
  | some user =>
      if !platform.verifyPassword password user.hashedPassword then
        .raise (.unauthorized "Invalid email or password")
      else if !user.isActive then .raise (.unauthorized "Inactive user")
      else return user

/-- `login_user`. -/
def loginUser (email password : String) (tenantId : ℕ) : AppProg K TokenPair := do
  createTokens platform settings (← authenticateUser platform email password tenantId)

/-! ### Password reset -/

/-- `request_password_reset`. -/
def requestPasswordReset (email : String) (tenantId : ℕ) : AppProg K String := do
  match ← query (.userByEmail email tenantId) with
  | none => return "If an account exists for this email, password reset instructions were sent."
  | some user =>
      if user.isActive then
        orUnhandled (← issue (.enqueueJob (.sendPasswordResetEmail user.id)))
        createAuditLog user.tenantId none .passwordResetRequested (some user.id)
      return "If an account exists for this email, password reset instructions were sent."

/-- `password_reset_job_completed_key`. -/
def passwordResetJobCompletedKey (jobId : String) : String :=
  "password_reset_job_completed:" ++ jobId

/-- `is_password_reset_job_completed`. -/
def isPasswordResetJobCompleted (jobId : String) : AppProg K Bool := do
  orUnhandled (← issue (.redisExists (passwordResetJobCompletedKey jobId)))

/-- `is_password_reset_job_completed_in_db`. -/
def isPasswordResetJobCompletedInDb (jobId : String) : AppProg K Bool :=
  query (.resetJobCompletion jobId)

/-- `mark_password_reset_job_completed`. -/
def markPasswordResetJobCompleted (jobId : String) : AppProg K Unit := do
  orUnhandled (← issue (.redisSet (passwordResetJobCompletedKey jobId) "1"
    settings.passwordResetJobCompletionTtlSeconds))

/-- The part of `create_password_reset_token_and_send_email` for a job that is not done. -/
def sendResetToken (userId : ℕ) (jobId : String) : AppProg K Unit := do
  match ← query (.user userId) with
  | none => return ()
  | some user =>
      if !user.isActive then return ()
      else
        let rawToken ← issue .generatePasswordResetToken
        let expiresAt := (← now) + ((settings.passwordResetTokenExpireMinutes * 60 : ℕ) : K)
        let resetToken : Statement K :=
          .insertResetToken user.id (platform.hashPasswordResetToken rawToken) expiresAt
        orUnhandled (← issue (.flush [resetToken]))
        orUnhandled (← issue (.sendPasswordResetEmail user.email rawToken))
        match ← tryCommit [resetToken, .insertResetJobCompletion jobId] with
        | none => return ()
        | some _ => markPasswordResetJobCompleted settings jobId

/-- `create_password_reset_token_and_send_email`, as the worker calls it. -/
def createPasswordResetTokenAndSendEmail (userId : ℕ) (jobId : String) : AppProg K Unit := do
  if ← isPasswordResetJobCompleted jobId then return ()
  else if ← isPasswordResetJobCompletedInDb jobId then
    if ← isPasswordResetJobCompleted jobId then return ()
    else markPasswordResetJobCompleted settings jobId
  else sendResetToken platform settings userId jobId

def invalidResetToken : AppError := .badRequest "Invalid or expired password reset token"

/-- The changes that `confirm_password_reset` makes to the row that it has read. -/
def confirmPasswordResetChanges (user : User) (hashedPassword : String) : UserChanges :=
  { hashedPassword := some hashedPassword, tokenVersion := some (user.tokenVersion + 1) }

/-- The end of `confirm_password_reset`, for a token that is good. -/
def resetPassword (user : User) (newPassword : String) (usedAt : K) : AppProg K String := do
  let hashedPassword ← hashPassword newPassword
  let _ ← commit (flushUser user (confirmPasswordResetChanges user hashedPassword))
  let user ← refreshUser user.id
  invalidateUsersListCache user.tenantId
  let _ ← commit [.useResetTokens user.id usedAt]
  let user ← refreshUser user.id
  createAuditLog user.tenantId none .passwordResetConfirmed (some user.id)
  return "Password has been reset."

/-- `confirm_password_reset`. -/
def confirmPasswordReset (token newPassword : String) : AppProg K String := do
  match ← query (.resetToken (platform.hashPasswordResetToken token)) with
  | none => .raise invalidResetToken
  | some resetToken =>
      let time ← now
      if resetToken.usedAt.isSome then .raise invalidResetToken
      else if resetToken.expiresAt < time then .raise invalidResetToken
      else
        match ← query (.user resetToken.userId) with
        | none => .raise invalidResetToken
        | some user =>
            if !user.isActive then .raise invalidResetToken
            else resetPassword user newPassword time

end

/-! ### A small world -/

section

/-- A text that may be missing, in a token of `Platform.plain`. -/
def readText : Json → Option (Option String)
  | .null => some none
  | .str s => some (some s)
  | _ => none

/-- A number that may be missing. -/
def readNumber : Json → Option (Option ℤ)
  | .null => some none
  | .num n => some (some n)
  | _ => none

def Claims.toJson (claims : Claims) : Json :=
  .arr [jsonOption .str claims.type, jsonOption .str claims.sub, jsonOption .num claims.tenantId,
    jsonOption .num claims.tokenVersion, jsonOption .num claims.exp, jsonOption .str claims.jti]

def Claims.ofJson : Json → Option Claims
  | .arr [type, sub, tenantId, tokenVersion, exp, jti] => do
      return ⟨← readText type, ← readText sub, ← readNumber tenantId, ← readNumber tokenVersion,
        ← readNumber exp, ← readText jti⟩
  | _ => none

@[simp] lemma readText_jsonOption (s : Option String) :
    readText (jsonOption .str s) = some s := by
  cases s <;> rfl

@[simp] lemma readNumber_jsonOption (n : Option ℤ) :
    readNumber (jsonOption .num n) = some n := by
  cases n <;> rfl

lemma Claims.ofJson_toJson (claims : Claims) : Claims.ofJson claims.toJson = some claims := by
  simp [toJson, ofJson]

@[simp] lemma wf_jsonOption_str (s : Option String) : (jsonOption .str s).wf = true := by
  cases s <;> rfl

@[simp] lemma wf_jsonOption_num (n : Option ℤ) : (jsonOption .num n).wf = true := by
  cases n <;> rfl

lemma Claims.wf_toJson (claims : Claims) : claims.toJson.wf = true := by
  simp [toJson, Json.wf, Json.wfItems]

/-- A platform whose tokens are the texts of their claims, without a signature. -/
def Platform.plain : Platform where
  encode claims := claims.toJson.dumps
  decode token := (Json.loads token).bind Claims.ofJson
  decode_encode claims := by rw [Json.loads_dumps claims.wf_toJson, Option.bind_some,
    Claims.ofJson_toJson]
  uuid7 n := n.repr
  uuid7_injective m n h := by
    have hparse := congrArg PyText.parseInt h
    rw [PyText.parseInt_repr, PyText.parseInt_repr] at hparse
    simpa using hparse
  uuid7_ne_empty n h := by
    have hparse := congrArg PyText.parseInt h
    rw [PyText.parseInt_repr] at hparse
    simp [PyText.parseInt, PyText.stripped, PyText.readInt, PyText.readNat] at hparse
  verifyPassword plain hashed := plain == hashed
  hashPasswordResetToken token := token
  sha256 text := text
  encodeCursor := Json.dumps
  decodeCursor text := (Json.loads text).elim .invalid .value
  floatEq _ _ := false
  answerText _ := .invalid
  presignedUrl method objectKey contentType seconds :=
    method ++ " " ++ objectKey ++ " " ++ contentType ++ " " ++ seconds.repr

/-- The value of a column that a value of a cursor stands for. -/
def SqlValue.ofJson : UserSortBy → Json → Option SqlValue
  | .id, .num (.ofNat n) => some (.int n)
  | .email, .str s | .role, .str s => some (.text s)
  | .isActive, .bool b => some (.bool b)
  | _, _ => none

/-- Texts in the order of their characters. -/
def Collation.plain : Collation :=
  let texts : Collation :=
    { le := fun s t => decide (s ≤ t), compare := fun _ _ => none, ilike := fun s t => s == t }
  { texts with
    compare := fun sortBy value =>
      (SqlValue.ofJson sortBy value).map fun y x => texts.ordering x y }

/-- The environment at a time when nothing fails. -/
def Env.calm (time : ℚ) : Env ℚ := { now := time, databaseNow := time }

/-- A database with one tenant and one user, both active. -/
def Database.oneUser : Database ℚ :=
  { Database.empty with
    tenants := Table.empty.insert 1 (fun id => ⟨id, "default", "Default", true⟩) fun _ => rfl
    users := Table.empty.insert 1 (fun id => ⟨id, 1, "ada@example.com", "", true, "user", 0⟩)
      fun _ => rfl }

/-- The world of that database before its first request. -/
def World.oneUser : World ℚ :=
  { db := .oneUser, keys := .empty, objects := fun _ => none, clock := 0, uuids := 0, jobs := [] }

end

end StarterBackend.App

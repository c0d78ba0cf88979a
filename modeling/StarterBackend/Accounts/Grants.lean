/-
Who may do what.

A request of the API acts on the world by transactions, by keys of Redis, by jobs and by
objects of the storage.  `Granted` says for each request which of these commands it may
issue, by the rows that it has read: most need the user that the access token of the
request names (`Named`), with a permission of its role, and act within the tenant of that
user; a reset of a password needs an unused reset token.  `Knowledge` is what a request
has read so far.
-/
import StarterBackend.Accounts.Requests
import StarterBackend.Lib.Knowledge
import Mathlib.Data.Set.Basic

namespace StarterBackend.Accounts

open Lib App

/-! ### Knowledge -/

/-- The rows that a request has read. -/
@[ext]
structure Knowledge (K : Type) where
  users : Set User
  /-- The users that were read since the last commit. -/
  fresh : Set User
  tenants : Set Tenant
  files : Set UploadedFile
  resetTokens : Set (PasswordResetToken K)

namespace Knowledge

variable {K : Type}

def nothing : Knowledge K := ⟨∅, ∅, ∅, ∅, ∅⟩

def addUser (x : Knowledge K) (user : Option User) : Knowledge K :=
  { x with users := {u | u ∈ x.users ∨ user = some u}, fresh := {u | u ∈ x.fresh ∨ user = some u} }

/-- What a request knows after a reply. -/
def learn (x : Knowledge K) : (c : Command K) → c.Reply → Knowledge K
  | .query (.user _), r => x.addUser r
  | .query (.userInTenant _ _), r => x.addUser r
  | .query (.userByEmail _ _), r => x.addUser r
  | .query (.tenant _), r => { x with tenants := {t | t ∈ x.tenants ∨ r = some t} }
  | .query (.tenantBySlug _), r => { x with tenants := {t | t ∈ x.tenants ∨ r = some t} }
  | .query (.file _), r => { x with files := {f | f ∈ x.files ∨ r = some f} }
  | .query (.fileInTenant _ _), r => { x with files := {f | f ∈ x.files ∨ r = some f} }
  | .query (.resetToken _), r => { x with resetTokens := {t | t ∈ x.resetTokens ∨ r = some t} }
  | .commit _, _ => { x with fresh := ∅ }
  | _, _ => x

/-- What is known after more has been read, with no commit in between. -/
instance : Preorder (Knowledge K) where
  le x y := x.users ⊆ y.users ∧ x.fresh ⊆ y.fresh ∧ x.tenants ⊆ y.tenants ∧ x.files ⊆ y.files ∧
    x.resetTokens ⊆ y.resetTokens
  le_refl x := ⟨subset_rfl, subset_rfl, subset_rfl, subset_rfl, subset_rfl⟩
  le_trans x y z hxy hyz := ⟨hxy.1.trans hyz.1, hxy.2.1.trans hyz.2.1, hxy.2.2.1.trans hyz.2.2.1,
    hxy.2.2.2.1.trans hyz.2.2.2.1, hxy.2.2.2.2.trans hyz.2.2.2.2⟩

variable {x y : Knowledge K}

lemma users_of_le (h : x ≤ y) {user : User} (hu : user ∈ x.users) : user ∈ y.users := h.1 hu

lemma fresh_of_le (h : x ≤ y) {user : User} (hu : user ∈ x.fresh) : user ∈ y.fresh := h.2.1 hu

lemma tenants_of_le (h : x ≤ y) {tenant : Tenant} (ht : tenant ∈ x.tenants) :
    tenant ∈ y.tenants := h.2.2.1 ht

lemma resetTokens_of_le (h : x ≤ y) {token : PasswordResetToken K} (ht : token ∈ x.resetTokens) :
    token ∈ y.resetTokens := h.2.2.2.2 ht

end Knowledge

/-! ### Grants -/

section Grants

variable {K : Type}

/-- The command acts on the world. -/
def acts : Command K → Bool
  | .commit _ => true
  | .revokeRefreshToken _ _ _ => true
  | .redisSet _ _ _ => true
  | .redisIncr _ => true
  | .enqueueJob _ => true
  | .sendPasswordResetEmail _ _ => true
  | .putObject _ _ => true
  | .deleteObject _ => true
  | _ => false

/-- What a reply tells: rows are those that were asked for, and a token that is decoded carries its
claims. -/
def Answers (platform : Platform) : (c : Command K) → c.Reply → Prop
  | .uuid7, r => ∃ n, r = platform.uuid7 n
  | .decodeToken token, r => ∀ claims, r = some claims → platform.decode token = some claims
  | .query (.user userId), r => ∀ user, r = some user → (user.id : ℤ) = userId
  | .query (.userInTenant userId tenantId), r => ∀ user, r = some user →
      (user.id : ℤ) = userId ∧ (user.tenantId : ℤ) = tenantId
  | .query (.userByEmail email tenantId), r => ∀ user, r = some user →
      user.email = email ∧ user.tenantId = tenantId
  | .query (.tenant tenantId), r => ∀ tenant, r = some tenant → (tenant.id : ℤ) = tenantId
  | .query (.tenantBySlug slug), r => ∀ tenant, r = some tenant → tenant.slug = slug
  | .query (.resetToken tokenHash), r => ∀ token, r = some token → token.tokenHash = tokenHash
  | .query (.file fileId), r => ∀ file, r = some file → (file.id : ℤ) = fileId
  | .query (.fileInTenant fileId tenantId), r => ∀ file, r = some file →
      (file.id : ℤ) = fileId ∧ file.tenantId = tenantId
  | _, _ => True

/-- The user that an access token names: its row was read active, with the tenant and the version of
the token, and its tenant was read active; it is also the one that the request names, if any. -/
structure Named (platform : Platform) (token : String) (requestedSlug : Option String)
    (x : Knowledge K) (user : User) : Prop where
  read : user ∈ x.users
  isActive : user.isActive = true
  claims : ∃ claims, platform.decode token = some claims ∧
    accessClaims claims = some ((user.id : ℤ), (user.tenantId : ℤ), user.tokenVersion)
  tenant : ∃ tenant ∈ x.tenants, tenant.id = user.tenantId ∧ tenant.isActive = true
  requested : ∀ slug ∈ requestedSlug, ∃ tenant ∈ x.tenants,
    tenant.slug = slug ∧ tenant.id = user.tenantId ∧ tenant.isActive = true

lemma Named.mono {platform : Platform} {token : String} {requestedSlug : Option String}
    {x y : Knowledge K} {user : User} (h : Named platform token requestedSlug x user)
    (husers : x.users ⊆ y.users) (htenants : x.tenants ⊆ y.tenants) :
    Named platform token requestedSlug y user := by
  refine ⟨husers h.read, h.isActive, h.claims, ?_, fun slug hslug => ?_⟩
  · obtain ⟨tenant, ht, hid⟩ := h.tenant
    exact ⟨tenant, htenants ht, hid⟩
  · obtain ⟨tenant, ht, hid⟩ := h.requested slug hslug
    exact ⟨tenant, htenants ht, hid⟩

/-- The claims of a refresh token that can be used. -/
def Presented (platform : Platform) (token : String) (payload : RefreshPayload) : Prop :=
  ∃ claims, platform.decode token = some claims ∧ claims.type = some "refresh" ∧
    claims.refreshPayload = some payload

variable (platform : Platform) (settings : Settings)

/-- **The tenant that a request acts in**: that of its slug, of the user of its reset token, or of the
user that its access token names. -/
inductive ActsIn (x : Knowledge K) : ApiRequest settings → ℕ → Prop
  | register {email password : String} {requestedSlug : Option String} {tenant : Tenant}
      (read : tenant ∈ x.tenants) (slug : tenant.slug = requestedSlug.getD "default") :
      ActsIn x (.register email password requestedSlug) tenant.id
  | requestReset {email : String} {requestedSlug : Option String} {tenant : Tenant}
      (read : tenant ∈ x.tenants) (slug : tenant.slug = requestedSlug.getD "default") :
      ActsIn x (.requestReset email requestedSlug) tenant.id
  | confirmReset {token newPassword : String} {resetToken : PasswordResetToken K} {user : User}
      (presented : resetToken ∈ x.resetTokens)
      (hash : resetToken.tokenHash = platform.hashPasswordResetToken token)
      (unused : resetToken.usedAt = none) (read : user ∈ x.users)
      (target : user.id = resetToken.userId) :
      ActsIn x (.confirmReset token newPassword) user.tenantId
  | byUser {token : String} {requestedSlug : Option String} {r : UserRequest settings}
      {currentUser : User} (named : Named platform token requestedSlug x currentUser) :
      ActsIn x (.byUser token requestedSlug r) currentUser.tenantId

/-- **The transactions that a request of a user may commit**, with the permissions that they need. -/
inductive UserGrant (x : Knowledge K) (currentUser : User) :
    UserRequest settings → List (Statement K) → Prop
  | patch {userId : ℤ} {update : UserAdminUpdate} {user : User}
      (permission : userHasPermission currentUser .usersUpdate = true) (read : user ∈ x.fresh)
      (target : (user.id : ℤ) = userId) (tenant : user.tenantId = currentUser.tenantId) :
      UserGrant x currentUser (.change (.patch userId update))
        (updateUser user update ++ [auditEntry currentUser .userUpdated user.id])
  | patchSelf {userId : ℤ} {update : UserAdminUpdate}
      (permission : userHasPermission currentUser .usersUpdateSelf = true)
      (read : currentUser ∈ x.fresh) (target : (currentUser.id : ℤ) = userId) :
      UserGrant x currentUser (.change (.patch userId update))
        (updateUser currentUser update.selfUpdate)
  | deactivate {userId : ℤ} {user : User}
      (permission : userHasPermission currentUser .usersDeactivate = true) (read : user ∈ x.fresh)
      (target : (user.id : ℤ) = userId) (tenant : user.tenantId = currentUser.tenantId) :
      UserGrant x currentUser (.change (.deactivate userId))
        (flushUser user (deactivateUserChanges user) ++
          [auditEntry currentUser .userDeactivated user.id])
  | activate {userId : ℤ} {user : User}
      (permission : userHasPermission currentUser .usersActivate = true) (read : user ∈ x.fresh)
      (target : (user.id : ℤ) = userId) (tenant : user.tenantId = currentUser.tenantId) :
      UserGrant x currentUser (.change (.activate userId))
        (flushUser user (activateUserChanges user) ++
          [auditEntry currentUser .userActivated user.id])
  | remove {userId : ℤ} {user : User}
      (permission : userHasPermission currentUser .usersDelete = true) (read : user ∈ x.fresh)
      (target : (user.id : ℤ) = userId) (tenant : user.tenantId = currentUser.tenantId) :
      UserGrant x currentUser (.change (.remove userId))
        (deleteUser user ++ [auditEntry currentUser .userDeleted user.id])
  | createTenant {slug name : String}
      (permission : userHasPermission currentUser .tenantsProvision = true) :
      UserGrant x currentUser (.createTenant slug name) [.insertTenant slug name]
  | createTenantAudit {slug name : String}
      (permission : userHasPermission currentUser .tenantsProvision = true) :
      UserGrant x currentUser (.createTenant slug name)
        [.insertAuditLog currentUser.tenantId (some currentUser.id) .tenantCreated none]
  | patchTenant {tenantId : ℤ} {name newName : Option String} {isActive newState : Option Bool}
      {tenant : Tenant} (permission : userHasPermission currentUser .tenantsManage = true)
      (read : tenant ∈ x.tenants) (target : (tenant.id : ℤ) = tenantId)
      (named : ∀ n ∈ newName, n ∈ name) (stated : ∀ b ∈ newState, b ∈ isActive) :
      UserGrant x currentUser (.patchTenant tenantId name isActive)
        [.updateTenant tenant.id newName newState]
  | patchTenantAudit {tenantId : ℤ} {name : Option String} {isActive : Bool}
      (permission : userHasPermission currentUser .tenantsManage = true) :
      UserGrant x currentUser (.patchTenant tenantId name (some isActive))
        [.insertAuditLog currentUser.tenantId (some currentUser.id)
          (if isActive then .tenantActivated else .tenantDeactivated) none]
  | upload {file : Files.UploadFile settings} {uuid filename contentType : String} {sizeBytes : ℤ}
      (permission : userHasPermission currentUser .filesUpload = true) :
      UserGrant x currentUser (.file (.upload file))
        [.insertFile currentUser.tenantId currentUser.id
          (Files.buildObjectKey currentUser.tenantId currentUser.id uuid filename) filename contentType
          sizeBytes .verified]
  | completePresignedUpload {objectKey declaredName declaredType filename contentType : String}
      {sizeBytes : ℤ} (permission : userHasPermission currentUser .filesUpload = true)
      (owned : Files.ensureObjectKeyBelongsToOwner objectKey currentUser.tenantId currentUser.id =
        .ok ()) :
      UserGrant x currentUser
        (.file (.completePresignedUpload objectKey declaredName declaredType sizeBytes))
        [.insertFile currentUser.tenantId currentUser.id objectKey filename contentType sizeBytes
          .pending]
  | deleteFile {fileId : ℤ} {file : UploadedFile} (read : file ∈ x.files)
      (target : (file.id : ℤ) = fileId)
      (permission : Files.canDeleteUploadedFile currentUser file = true) :
      UserGrant x currentUser (.file (.deleteFile fileId)) [.deleteFile file.id]

/-- **The commands that a request may issue.** -/
inductive Granted (x : Knowledge K) : ApiRequest settings → Command K → Prop
  | reads {q : ApiRequest settings} {c : Command K} (h : acts c = false) : Granted x q c
  | register {email password hashedPassword : String} {requestedSlug : Option String}
      {tenant : Tenant} (enabled : settings.registrationEnabled = true) (read : tenant ∈ x.tenants)
      (slug : tenant.slug = requestedSlug.getD "default") (isActive : tenant.isActive = true) :
      Granted x (.register email password requestedSlug)
        (.commit [.insertUser email hashedPassword tenant.id])
  | requestReset {email : String} {requestedSlug : Option String} {user : User}
      (own : ActsIn platform settings x (.requestReset email requestedSlug) user.tenantId)
      (read : user ∈ x.users) (named : user.email = email) (isActive : user.isActive = true) :
      Granted x (.requestReset email requestedSlug) (.enqueueJob (.sendPasswordResetEmail user.id))
  | requestResetAudit {email : String} {requestedSlug : Option String} {user : User}
      (own : ActsIn platform settings x (.requestReset email requestedSlug) user.tenantId)
      (read : user ∈ x.users) (named : user.email = email) (isActive : user.isActive = true) :
      Granted x (.requestReset email requestedSlug)
        (.commit [.insertAuditLog user.tenantId none .passwordResetRequested (some user.id)])
  | confirmReset {token newPassword hashedPassword : String} {resetToken : PasswordResetToken K}
      {user : User} (presented : resetToken ∈ x.resetTokens)
      (hash : resetToken.tokenHash = platform.hashPasswordResetToken token)
      (unused : resetToken.usedAt = none) (read : user ∈ x.fresh) (known : user ∈ x.users)
      (target : user.id = resetToken.userId) (isActive : user.isActive = true) :
      Granted x (.confirmReset token newPassword)
        (.commit (flushUser user (confirmPasswordResetChanges user hashedPassword)))
  | confirmResetUse {token newPassword : String} {resetToken : PasswordResetToken K} {user : User}
      {usedAt : K} (presented : resetToken ∈ x.resetTokens)
      (hash : resetToken.tokenHash = platform.hashPasswordResetToken token)
      (unused : resetToken.usedAt = none) (read : user ∈ x.users)
      (target : user.id = resetToken.userId) :
      Granted x (.confirmReset token newPassword)
        (.commit [.useResetTokens resetToken.userId usedAt])
  | confirmResetAudit {token newPassword : String} {resetToken : PasswordResetToken K} {user : User}
      (presented : resetToken ∈ x.resetTokens)
      (hash : resetToken.tokenHash = platform.hashPasswordResetToken token)
      (unused : resetToken.usedAt = none) (read : user ∈ x.users)
      (target : user.id = resetToken.userId) :
      Granted x (.confirmReset token newPassword)
        (.commit [.insertAuditLog user.tenantId none .passwordResetConfirmed (some user.id)])
  | logout {token : String} {payload : RefreshPayload}
      (presented : Presented platform token payload) :
      Granted x (.logout token) (.revokeRefreshToken payload.jti payload.exp false)
  | refresh {token : String} {payload : RefreshPayload} {user : User}
      (presented : Presented platform token payload) (read : user ∈ x.users)
      (subject : payload.sub.bind PyText.parseInt = some (user.id : ℤ))
      (tenant : payload.tenantId = user.tenantId) (version : payload.tokenVersion = user.tokenVersion)
      (isActive : user.isActive = true) :
      Granted x (.refresh token) (.revokeRefreshToken payload.jti payload.exp true)
  | commit {token : String} {requestedSlug : Option String} {r : UserRequest settings}
      {currentUser : User} {statements : List (Statement K)}
      (named : Named platform token requestedSlug x currentUser)
      (grant : UserGrant settings x currentUser r statements) :
      Granted x (.byUser token requestedSlug r) (.commit statements)
  | invalidate {q : ApiRequest settings} {tenantId : ℕ} (own : ActsIn platform settings x q tenantId) :
      Granted x q (.redisIncr (buildUsersListCacheVersionKey tenantId))
  | invalidateOwn {token : String} {requestedSlug : Option String} {r : UserRequest settings}
      {currentUser user : User} (named : Named platform token requestedSlug x currentUser)
      (read : user ∈ x.users) (same : user.id = currentUser.id) :
      Granted x (.byUser token requestedSlug r)
        (.redisIncr (buildUsersListCacheVersionKey user.tenantId))
  | cache {token : String} {requestedSlug : Option String} {currentUser : User} {page : ℕ}
      {q : GetUsers} {skip : Option ℕ} {text : String} {version : ℤ}
      (named : Named platform token requestedSlug x currentUser)
      (permission : userHasPermission currentUser .usersList = true) :
      Granted x (.byUser token requestedSlug (.listUsers page q))
        (.redisSet (usersListCacheKey platform currentUser.tenantId version { q with skip }) text
          settings.usersCacheTtlSeconds)
  | putObject {token : String} {requestedSlug : Option String} {currentUser : User}
      {file : Files.UploadFile settings} {uuid filename : String} {object : StoredObject}
      (named : Named platform token requestedSlug x currentUser)
      (permission : userHasPermission currentUser .filesUpload = true) :
      Granted x (.byUser token requestedSlug (.file (.upload file)))
        (.putObject (Files.buildObjectKey currentUser.tenantId currentUser.id uuid filename) object)
  | verifyUpload {token : String} {requestedSlug : Option String} {currentUser : User}
      {objectKey filename contentType : String} {sizeBytes : ℤ} {file : UploadedFile}
      (named : Named platform token requestedSlug x currentUser)
      (permission : userHasPermission currentUser .filesUpload = true) (read : file ∈ x.files) :
      Granted x (.byUser token requestedSlug
          (.file (.completePresignedUpload objectKey filename contentType sizeBytes)))
        (.enqueueJob (.verifyPresignedUpload file.id))
  | deleteObject {token : String} {requestedSlug : Option String} {currentUser : User} {fileId : ℤ}
      {file : UploadedFile} (named : Named platform token requestedSlug x currentUser)
      (read : file ∈ x.files) (target : (file.id : ℤ) = fileId)
      (permission : Files.canDeleteUploadedFile currentUser file = true) :
      Granted x (.byUser token requestedSlug (.file (.deleteFile fileId)))
        (.deleteObject file.objectKey)

variable [Field K] [LinearOrder K] [FloorRing K]

/-- The two tokens of a new session of a user. -/
def NewTokens (user : User) (pair : TokenPair) : Prop :=
  ∃ (time time' : K) (n n' : ℕ),
    pair.accessToken = platform.encode (newClaims "access" user.id.repr user.tenantId
      user.tokenVersion (time + ((settings.accessTokenExpireMinutes * 60 : ℕ) : K))
      (platform.uuid7 n)) ∧
    pair.refreshToken = platform.encode (newClaims "refresh" user.id.repr user.tenantId
      user.tokenVersion (time' + ((settings.refreshTokenExpireDays * 86400 : ℕ) : K))
      (platform.uuid7 n'))

/-- **The tokens that a request may return**: those of a user with the password, or of the user that a
refresh token names. -/
inductive Minted (x : Knowledge K) : ApiRequest settings → TokenPair → Prop
  | login {email password : String} {requestedSlug : Option String} {user : User} {tenant : Tenant}
      {pair : TokenPair} (tenant_read : tenant ∈ x.tenants)
      (slug : tenant.slug = requestedSlug.getD "default") (tenant_active : tenant.isActive = true)
      (read : user ∈ x.users) (named : user.email = email) (member : user.tenantId = tenant.id)
      (verified : platform.verifyPassword password user.hashedPassword = true)
      (isActive : user.isActive = true) (tokens : NewTokens (K := K) platform settings user pair) :
      Minted x (.login email password requestedSlug) pair
  | refresh {token : String} {payload : RefreshPayload} {user : User} {pair : TokenPair}
      (presented : Presented platform token payload) (read : user ∈ x.users)
      (subject : payload.sub.bind PyText.parseInt = some (user.id : ℤ))
      (tenant : payload.tenantId = user.tenantId) (version : payload.tokenVersion = user.tokenVersion)
      (isActive : user.isActive = true) (tokens : NewTokens (K := K) platform settings user pair) :
      Minted x (.refresh token) pair

end Grants

end StarterBackend.Accounts

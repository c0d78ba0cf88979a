/-
The requests of the API.

Every route of `auth.py`, `users.py`, `admin.py`, `tenants.py` and `files.py` is a program
here, and requests are served concurrently: the state is a pool of them, in which one
command of one request is executed at a time and a process can die between any two.  A
request ends with new tokens, if it is a login or a refresh.
-/
import StarterBackend.Files.DanglingRows
import StarterBackend.Users.Mutations

namespace StarterBackend.Accounts

open Lib App

/-! ### Routes -/

section Routes

variable {K : Type} (platform : Platform) (settings : Settings)

/-- `login`. -/
def login [Field K] [LinearOrder K] [FloorRing K] (email password : String)
    (requestedSlug : Option String) : AppProg K TokenPair := do
  let tenant ← getRequestTenant requestedSlug
  loginUser platform settings email password tenant.id

/-- `request_reset_password`. -/
def requestResetPassword (email : String) (requestedSlug : Option String) : AppProg K String := do
  let tenant ← getRequestTenant requestedSlug
  requestPasswordReset email tenant.id

/-- `list_users`, with the page and the other parameters of the query. -/
def listUsers (token : String) (requestedSlug : Option String) (page : ℕ) (q : GetUsers) :
    AppProg K UserListPage := do
  let currentUser ← requirePermission [.usersList] token requestedSlug
  if q.cursor.isSome ∧ page ≠ 1 then
    .raise (.unprocessable "cursor cannot be combined with page > 1")
  else
    let skip := if 1 < page ∧ q.cursor = none then some ((page - 1) * q.limit) else none
    getUsers platform settings currentUser.tenantId { q with skip }

/-- `get_user`. -/
def getUser (token : String) (requestedSlug : Option String) (userId : ℤ) : AppProg K UserRead := do
  let currentUser ← getCurrentUser token requestedSlug
  match ← getLoadedUser currentUser userId with
  | none => .raise (.notFound "User not found")
  | some user =>
      if canReadUser currentUser user then return user.read
      else .raise (.forbidden "Insufficient permissions")

/-- `list_audit_logs`. -/
def listAuditLogs (token : String) (requestedSlug : Option String) (page size : ℕ)
    (action : Option AuditAction) (adminId targetUserId : Option ℤ) :
    AppProg K (List (AuditLog K)) := do
  let currentUser ← requirePermission [.auditLogsList] token requestedSlug
  getAuditLogs currentUser.tenantId ((page - 1) * size) size action adminId targetUserId

/-- `create_tenant`, the route. -/
def createTenantRecord (token : String) (requestedSlug : Option String) (slug name : String) :
    AppProg K Tenant := do
  let currentUser ← requirePermission [.tenantsProvision] token requestedSlug
  provisionTenant slug name currentUser.id currentUser.tenantId

/-- `list_tenant_records`. -/
def listTenantRecords (token : String) (requestedSlug : Option String) (page size : ℕ)
    (includeInactive : Bool) : AppProg K (List Tenant) := do
  let _ ← requirePermission [.tenantsList] token requestedSlug
  query (.tenants ((page - 1) * size) size includeInactive)

/-- `get_tenant`. -/
def getTenant (token : String) (requestedSlug : Option String) (tenantId : ℤ) :
    AppProg K Tenant := do
  let _ ← requirePermission [.tenantsList] token requestedSlug
  match ← query (.tenant tenantId) with
  | none => .raise (.notFound "Tenant not found")
  | some tenant => return tenant

/-- The change of the name in `patch_tenant`, if there is one. -/
def renameTenant (tenantId : ℤ) (tenant : Tenant) : Option String → AppProg K (Option Tenant)
  | none => .ret (some tenant)
  | some name => updateTenant tenantId (some name) none

/-- The change of the state in `patch_tenant`, if there is one. -/
def restateTenant (currentUser : User) (tenantId : ℤ) (tenant : Option Tenant) :
    Option Bool → AppProg K (Option Tenant)
  | none => .ret tenant
  | some isActive => setTenantActiveState tenantId isActive currentUser.id currentUser.tenantId

/-- `patch_tenant`. -/
def patchTenant (token : String) (requestedSlug : Option String) (tenantId : ℤ)
    (name : Option String) (isActive : Option Bool) : AppProg K Tenant := do
  let currentUser ← requirePermission [.tenantsManage] token requestedSlug
  if isActive = none ∧ name = none then .raise (.badRequest "At least one field must be provided")
  else
    match ← query (.tenant tenantId) with
    | none => .raise (.notFound "Tenant not found")
    | some tenant =>
        let tenant ← renameTenant tenantId tenant name
        match ← restateTenant currentUser tenantId tenant isActive with
        | none => .raise (.notFound "Tenant not found")
        | some tenant => return tenant

/-- `get_download_url`. -/
def getDownloadUrl (fileId : ℤ) (currentUser : User) : AppProg K String := do
  match ← query (.fileInTenant fileId currentUser.tenantId) with
  | none => .raise (.notFound "File not found")
  | some uploadedFile => Files.getPresignedDownloadUrl platform settings uploadedFile currentUser

end Routes

/-! ### Requests -/

/-- The requests about files of a user that is logged in. -/
inductive FileRequest (settings : Settings) where
  | upload (file : Files.UploadFile settings)
  | createPresignedUpload (filename contentType : String)
  | completePresignedUpload (objectKey filename contentType : String) (sizeBytes : ℤ)
  | getDownloadUrl (fileId : ℤ)
  | deleteFile (fileId : ℤ)

/-- The requests of a user that is logged in. -/
inductive UserRequest (settings : Settings) where
  | me
  | adminPanel
  | listUsers (page : ℕ) (q : GetUsers)
  | getUser (userId : ℤ)
  | change (m : Users.AdminMutation)
  | listAuditLogs (page size : ℕ) (action : Option AuditAction) (adminId targetUserId : Option ℤ)
  | createTenant (slug name : String)
  | listTenants (page size : ℕ) (includeInactive : Bool)
  | getTenant (tenantId : ℤ)
  | patchTenant (tenantId : ℤ) (name : Option String) (isActive : Option Bool)
  | file (r : FileRequest settings)

inductive ApiRequest (settings : Settings) where
  | register (email password : String) (requestedSlug : Option String)
  | login (email password : String) (requestedSlug : Option String)
  | refresh (refreshToken : String)
  | logout (refreshToken : String)
  | requestReset (email : String) (requestedSlug : Option String)
  | confirmReset (token newPassword : String)
  | byUser (token : String) (requestedSlug : Option String) (r : UserRequest settings)

section Programs

variable {K : Type} (platform : Platform) (settings : Settings)

/-- The program without its result. -/
def discard {α : Type} (p : AppProg K α) : AppProg K (Option TokenPair) := p.bind fun _ => .ret none

/-- The permission that a request about files needs at the door. -/
def FileRequest.currentUser (token : String) (requestedSlug : Option String) :
    FileRequest settings → AppProg K User
  | .upload _ | .createPresignedUpload _ _ | .completePresignedUpload _ _ _ _ =>
      requirePermission [.filesUpload] token requestedSlug
  | .getDownloadUrl _ | .deleteFile _ => getCurrentUser token requestedSlug

/-- What is done for the user of the request. -/
def FileRequest.serve (currentUser : User) : FileRequest settings → AppProg K (Option TokenPair)
  | .upload file => discard (Files.upload platform settings currentUser file)
  | .createPresignedUpload filename contentType =>
      discard (Files.createPresignedUpload platform settings currentUser filename contentType)
  | .completePresignedUpload objectKey filename contentType sizeBytes =>
      discard (Files.completePresignedUpload settings currentUser objectKey filename contentType
        sizeBytes)
  | .getDownloadUrl fileId => discard (Accounts.getDownloadUrl platform settings fileId currentUser)
  | .deleteFile fileId => discard (Files.deleteFile fileId currentUser)

/-- The route of a request of a user that is logged in. -/
def UserRequest.program (token : String) (requestedSlug : Option String) :
    UserRequest settings → AppProg K (Option TokenPair)
  | .me => discard (getCurrentUser token requestedSlug)
  | .adminPanel => discard (requirePermission [.adminAccess] token requestedSlug)
  | .listUsers page q => discard (Accounts.listUsers platform settings token requestedSlug page q)
  | .getUser userId => discard (Accounts.getUser token requestedSlug userId)
  | .change m => discard (m.handler token requestedSlug)
  | .listAuditLogs page size action adminId targetUserId =>
      discard (Accounts.listAuditLogs token requestedSlug page size action adminId targetUserId)
  | .createTenant slug name => discard (createTenantRecord token requestedSlug slug name)
  | .listTenants page size includeInactive =>
      discard (listTenantRecords token requestedSlug page size includeInactive)
  | .getTenant tenantId => discard (Accounts.getTenant token requestedSlug tenantId)
  | .patchTenant tenantId name isActive =>
      discard (Accounts.patchTenant token requestedSlug tenantId name isActive)
  | .file r => do
      let currentUser ← r.currentUser settings token requestedSlug
      r.serve platform settings currentUser

variable [Field K] [LinearOrder K] [FloorRing K]

/-- The route of a request, with the tokens that it returns. -/
def ApiRequest.program : ApiRequest settings → AppProg K (Option TokenPair)
  | .register email password requestedSlug =>
      discard (App.register settings email password requestedSlug)
  | .login email password requestedSlug => do
      return some (← Accounts.login platform settings email password requestedSlug)
  | .refresh refreshToken => do return some (← rotateRefreshToken platform settings refreshToken)
  | .logout refreshToken => discard (logoutUser refreshToken)
  | .requestReset email requestedSlug => discard (requestResetPassword email requestedSlug)
  | .confirmReset token newPassword => discard (confirmPasswordReset platform token newPassword)
  | .byUser token requestedSlug r => r.program platform settings token requestedSlug

end Programs

/-- The requests that are served, and the world that they are served in. -/
abbrev Api (settings : Settings) (ι K : Type) :=
  Pool ι (ApiRequest settings) (AppProg K (Option TokenPair)) (World K)

namespace Api

variable {K : Type} [Field K] [LinearOrder K] [FloorRing K] {ι : Type} [DecidableEq ι]
  (platform : Platform) (collation : Collation) (settings : Settings)

/-- One step of one request. -/
def step (s : Api settings ι K) (a : PoolAction ι (ApiRequest settings) (Env K)) :
    Option (Api settings ι K) :=
  Pool.next (interp platform collation) (ApiRequest.program platform settings) s a

end Api

end StarterBackend.Accounts

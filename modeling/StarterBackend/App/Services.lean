/-
The services for tenants, users and the audit log, with the cache of user lists.

A service that is called with `commit=False` is the list of the statements that it
flushes; the caller sends them, with its own, in one transaction.  What a session changes
is computed from the row that it has read, and only the columns whose values differ from
that row are written.
-/
import StarterBackend.App.Commands
import StarterBackend.App.Permissions

namespace StarterBackend.App

open Lib

variable {K : Type} (platform : Platform) (settings : Settings)

/-! ### The audit log -/

/-- `create_audit_log`, which commits. -/
def createAuditLog (tenantId : ℕ) (adminId : Option ℕ) (action : AuditAction)
    (targetUserId : Option ℕ) : AppProg K Unit := do
  let _ ← commit [.insertAuditLog tenantId adminId action targetUserId]

/-- `get_audit_logs`. -/
def getAuditLogs (tenantId skip limit : ℕ) (action : Option AuditAction) (adminId : Option ℤ)
    (targetUserId : Option ℤ) : AppProg K (List (AuditLog K)) :=
  query (.auditLogs ⟨tenantId, action, adminId, targetUserId, skip, limit⟩)

/-! ### Tenants -/

/-- `get_active_tenant_by_slug`. -/
def getActiveTenantBySlug (slug : String) : AppProg K Tenant := do
  match ← query (.tenantBySlug slug) with
  | none => .raise (.notFound "Tenant not found")
  | some tenant => if tenant.isActive then return tenant else .raise (.notFound "Tenant not found")

/-- `build_tenant_cache_prefix`. -/
def buildTenantCachePrefix (tenantId : ℕ) : String := "tenant:" ++ tenantId.repr

/-- `db.refresh(tenant)`. -/
def refreshTenant (tenantId : ℕ) : AppProg K Tenant := do
  orUnhandled (← query (.tenant tenantId))

/-- `create_tenant`. -/
def createTenant (slug name : String) : AppProg K Tenant := do
  match ← query (.tenantBySlug slug) with
  | some _ => .raise (.badRequest "Tenant with this slug already exists")
  | none =>
      let id ← orUnhandled (← commit [.insertTenant slug name])
      refreshTenant id

/-- `update_tenant`.  Only the values that differ from the row are written. -/
def updateTenant (tenantId : ℤ) (name : Option String) (isActive : Option Bool) :
    AppProg K (Option Tenant) := do
  match ← query (.tenant tenantId) with
  | none => return none
  | some tenant =>
      let name := name.filter (· ≠ tenant.name)
      let isActive := isActive.filter (· ≠ tenant.isActive)
      if name.isSome ∨ isActive.isSome then
        let _ ← commit [.updateTenant tenant.id name isActive]
        return some (← refreshTenant tenant.id)
      else
        return some (← refreshTenant tenant.id)

/-- `provision_tenant`. -/
def provisionTenant (slug name : String) (adminId adminTenantId : ℕ) : AppProg K Tenant := do
  let tenant ← createTenant slug name
  createAuditLog adminTenantId (some adminId) .tenantCreated none
  return tenant

/-- `set_tenant_active_state`. -/
def setTenantActiveState (tenantId : ℤ) (isActive : Bool) (adminId adminTenantId : ℕ) :
    AppProg K (Option Tenant) := do
  match ← updateTenant tenantId none (some isActive) with
  | none => return none
  | some tenant =>
      createAuditLog adminTenantId (some adminId)
        (if isActive then .tenantActivated else .tenantDeactivated) none
      return some tenant

/-- `assert_active_tenant_membership`, which loads `user.tenant`. -/
def assertActiveTenantMembership (user : User) : AppProg K Unit := do
  match ← query (.tenant user.tenantId) with
  | none => .raise (.forbidden "Tenant access denied")
  | some tenant =>
      if tenant.isActive then return () else .raise (.forbidden "Tenant access denied")

/-! ### The cache of user lists -/

/-- `build_users_list_cache_version_key`. -/
def buildUsersListCacheVersionKey (tenantId : ℕ) : String :=
  buildTenantCachePrefix tenantId ++ ":users:list:version"

/-- `invalidate_users_list_cache`; a `RedisError` is only logged. -/
def invalidateUsersListCache (tenantId : ℕ) : AppProg K Unit := do
  let _ ← issue (.redisIncr (buildUsersListCacheVersionKey tenantId))

/-- A `ValueError` of `get_users`, which `list_users` answers with 422. -/
def valueError (message : String) : AppError := .unprocessable message

/-- The version that a reply of Redis stands for; an error of Redis counts as no version. -/
def cacheVersion : Option (Option String) → AppProg K ℤ
  | none | some none => .ret 0
  | some (some version) =>
      .getOrRaise (valueError ("invalid literal for int() with base 10: '" ++ version ++ "'"))
        (PyText.parseInt version)

/-- `get_cache_version`. -/
def getCacheVersion (versionKey : String) : AppProg K ℤ := do
  cacheVersion (← issue (.redisGet versionKey))

/-- `UserSearchMode`. -/
inductive UserSearchMode where
  | prefixMode
  | contains
deriving DecidableEq

def UserSearchMode.value : UserSearchMode → String
  | .prefixMode => "prefix"
  | .contains => "contains"

def UserSortBy.value : UserSortBy → String
  | .id => "id"
  | .email => "email"
  | .role => "role"
  | .isActive => "is_active"

def SortOrder.value : SortOrder → String
  | .asc => "asc"
  | .desc => "desc"

/-- The parameters of `get_users`, as the route makes them. -/
structure GetUsers where
  limit : ℕ
  limit_pos : 1 ≤ limit
  sortBy : UserSortBy
  sortOrder : SortOrder
  role : Option UserRole
  isActive : Option Bool
  search : Option String
  searchMode : UserSearchMode
  cursor : Option String
  skip : Option ℕ

def jsonOption {α : Type} (json : α → Json) : Option α → Json
  | none => .null
  | some x => json x

/-- `cache_params`, in the order of `json.dumps(cache_params, sort_keys=True)`. -/
def GetUsers.cacheParams (q : GetUsers) : Json :=
  .obj [
    ("cursor", jsonOption .str q.cursor),
    ("is_active", jsonOption .bool q.isActive),
    ("limit", .num q.limit),
    ("role", jsonOption (fun role => .str role.value) q.role),
    ("search", jsonOption .str q.search),
    ("search_mode", .str q.searchMode.value),
    ("skip", jsonOption (fun skip => .num skip) (q.skip.filter (0 < ·))),
    ("sort_by", .str q.sortBy.value),
    ("sort_order", .str q.sortOrder.value)]

/-- The key of a list under a version of the cache. -/
def usersListCacheKey (tenantId : ℕ) (version : ℤ) (q : GetUsers) : String :=
  buildTenantCachePrefix tenantId ++ ":users:list:v1:v" ++ version.repr ++ ":" ++
    platform.sha256 q.cacheParams.dumps

/-- `build_users_list_cache_key`. -/
def buildUsersListCacheKey (tenantId : ℕ) (q : GetUsers) : AppProg K String := do
  let version ← getCacheVersion (buildUsersListCacheVersionKey tenantId)
  return usersListCacheKey platform tenantId version q

/-- The key of a list is not that of the version. -/
lemma usersListCacheKey_ne (tenantId : ℕ) (version : ℤ) (q : GetUsers) :
    usersListCacheKey platform tenantId version q ≠ buildUsersListCacheVersionKey tenantId := by
  intro h
  have hlist := congrArg String.toList h
  simp only [usersListCacheKey, buildUsersListCacheVersionKey, String.toList_append,
    List.append_assoc, List.append_cancel_left_eq] at hlist
  have htenth := congrArg (·[13]?) hlist
  simp at htenth

/-! ### Listing users -/

/-- `UserListResult`, with its items as the response shows them. -/
structure UserListPage where
  items : List UserRead
  nextCursor : Option String
deriving DecidableEq

namespace UserRead

/-- `_serialize_user`. -/
def toJson (user : UserRead) : Json :=
  .obj [("id", .num user.id), ("email", .str user.email), ("is_active", .bool user.isActive),
    ("role", .str user.role)]

/-- `UserRead.model_validate` of a dictionary. -/
def ofJson : Json → Option UserRead
  | .obj fields =>
      match Json.lookup "id" fields, Json.lookup "email" fields, Json.lookup "is_active" fields,
        Json.lookup "role" fields with
      | some (.num id), some (.str email), some (.bool isActive), some (.str role) =>
          if 0 ≤ id then some ⟨id.toNat, email, isActive, role⟩ else none
      | _, _, _, _ => none
  | _ => none

end UserRead

namespace UserListPage

/-- The value that `get_users` puts in the cache. -/
def toJson (page : UserListPage) : Json :=
  .obj [("items", .arr (page.items.map UserRead.toJson)),
    ("next_cursor", jsonOption .str page.nextCursor)]

/-- The page of a value from the cache; `none` when it has not the form of one. -/
def ofJson : Json → Option UserListPage
  | .obj fields =>
      match Json.lookup "items" fields, Json.lookup "next_cursor" fields with
      | some (.arr items), some (.str cursor) =>
          (items.mapM UserRead.ofJson).map fun items => ⟨items, some cursor⟩
      | some (.arr items), some .null | some (.arr items), none =>
          (items.mapM UserRead.ofJson).map fun items => ⟨items, none⟩
      | _, _ => none
  | _ => none

end UserListPage

/-- `_escape_like_pattern`. -/
def escapeLikePattern (value : String) : String :=
  PyText.replaceChar '_' "\\_" (PyText.replaceChar '%' "\\%" (PyText.replaceChar '\\' "\\\\" value))

/-- The pattern of `_apply_email_search_filter`. -/
def emailSearchPattern (search : String) : UserSearchMode → String
  | .contains => "%" ++ escapeLikePattern search ++ "%"
  | .prefixMode => escapeLikePattern search ++ "%"

/-- Python's `==` on the values that a cursor compares. -/
def pyEq : Json → Json → Bool
  | .null, .null => true
  | .str s, .str t => s == t
  | .num m, .num n => m == n
  | .bool a, .bool b => a == b
  | .bool a, .num n | .num n, .bool a => n == if a then 1 else 0
  | .bool a, .float x | .float x, .bool a => platform.floatEq x (if a then 1 else 0)
  | _, _ => false

/-- The payload of a cursor names these parameters; `_validate_cursor_filters` checks them in
this order. -/
def GetUsers.cursorFilters (q : GetUsers) : List (String × Json) :=
  [("sort_by", .str q.sortBy.value), ("sort_order", .str q.sortOrder.value),
    ("role", jsonOption (fun role => .str role.value) q.role),
    ("is_active", jsonOption .bool q.isActive), ("search", jsonOption .str q.search),
    ("search_mode", .str q.searchMode.value)]

/-- `cursor_payload.get(key)`. -/
def payloadGet (payload : List (String × Json)) (key : String) : Json :=
  (Json.lookup key payload).getD .null

/-- The end of `_validate_cursor_filters`; a Boolean is an instance of `int`. -/
def cursorKey (payload : List (String × Json)) : Except AppError (Json × Json) :=
  match payloadGet payload "id", payloadGet payload "sort_value" with
  | _, .null => .error (valueError "invalid cursor payload")
  | .num id, value => .ok (.num id, value)
  | .bool id, value => .ok (.bool id, value)
  | _, _ => .error (valueError "invalid cursor payload")

/-- `_validate_cursor_filters`. -/
def validateCursorFilters (payload : List (String × Json)) (q : GetUsers) :
    Except AppError (Json × Json) :=
  match q.cursorFilters.find? fun filter =>
      !pyEq platform (payloadGet payload filter.1) filter.2 with
  | some filter => .error (valueError ("cursor " ++ filter.1 ++ " mismatch"))
  | none => cursorKey payload

/-- The position after which a cursor goes on.  The database refuses to compare an id with a
Boolean, which passes for an integer in Python. -/
def cursorPosition (cursor : String) (q : GetUsers) : AppProg K (ℤ × Json) := do
  match platform.decodeCursor cursor with
  | .value (.obj payload) =>
      match ← .ofExcept (validateCursorFilters platform payload q) with
      | (.num id, value) => return (id, value)
      | _ => .raise .unhandled
  | .value _ => .raise (valueError "invalid cursor")
  | .invalid => .raise (valueError "invalid cursor")
  | .tooDeep => .raise .unhandled

/-- The value of a column, in a cursor. -/
def SqlValue.toJson : SqlValue → Json
  | .int n => .num n
  | .text s => .str s
  | .bool b => .bool b

/-- The payload of the cursor that goes on after a user. -/
def GetUsers.cursorPayload (q : GetUsers) (last : User) : List (String × Json) :=
  [ ("id", .num last.id),
    ("is_active", jsonOption .bool q.isActive),
    ("role", jsonOption (fun role => .str role.value) q.role),
    ("search", jsonOption .str q.search),
    ("search_mode", .str q.searchMode.value),
    ("sort_by", .str q.sortBy.value),
    ("sort_order", .str q.sortOrder.value),
    ("sort_value", (last.sortValue q.sortBy).toJson)]

/-- `_build_next_cursor`; the last of no users is an `IndexError`. -/
def buildNextCursor (users : List User) (q : GetUsers) : AppProg K (Option String) :=
  if users.length < q.limit then return none
  else
    match users.getLast? with
    | none => .raise .unhandled
    | some last => return some (platform.encodeCursor (.obj (q.cursorPayload last)))

/-- The query of `get_users`, from a position or with an offset. -/
def GetUsers.usersQuery (q : GetUsers) (tenantId : ℕ) (after : Option (ℤ × Json)) (offset : ℕ) :
    UsersQuery :=
  { tenantId, after, offset
    role := q.role.map UserRole.value
    isActive := q.isActive
    emailPattern := q.search.map fun search => emailSearchPattern search q.searchMode
    sortBy := q.sortBy
    sortOrder := q.sortOrder
    limit := q.limit }

/-- The page that `get_users` reads from the database. -/
def readUsersPage (tenantId : ℕ) (q : GetUsers) : AppProg K UserListPage := do
  match q.skip.filter (0 < ·), q.cursor with
  | some skip, _ =>
      let users ← orUnhandled (← query (.users (q.usersQuery tenantId none skip)))
      return ⟨users.map User.read, none⟩
  | none, some cursor =>
      let after ← cursorPosition platform cursor q
      let users ← orUnhandled (← query (.users (q.usersQuery tenantId (some after) 0)))
      return ⟨users.map User.read, ← buildNextCursor platform users q⟩
  | none, none =>
      let users ← orUnhandled (← query (.users (q.usersQuery tenantId none 0)))
      return ⟨users.map User.read, ← buildNextCursor platform users q⟩

/-- The page that a reply of Redis stands for: nothing when the key is not there or Redis fails. -/
def cachedPage : Option (Option String) → AppProg K (Option UserListPage)
  | none | some none => .ret none
  | some (some text) => do
      let value ← .getOrRaise (valueError "Expecting value") (Json.loads text)
      return some (← orUnhandled (UserListPage.ofJson value))

/-- `get_json_cache`, for a page of users. -/
def getCachedPage (key : String) : AppProg K (Option UserListPage) := do
  cachedPage (← issue (.redisGet key))

/-- The part of `get_users` after the key of its cache entry is built. -/
def getUsersUnder (tenantId : ℕ) (q : GetUsers) (key : String) : AppProg K UserListPage := do
  if settings.usersCacheEnabled then
    match ← getCachedPage key with
    | some page => return page
    | none =>
        let page ← readUsersPage platform tenantId q
        let _ ← issue (.redisSet key page.toJson.dumps settings.usersCacheTtlSeconds)
        return page
  else
    readUsersPage platform tenantId q

/-- `get_users`. -/
def getUsers (tenantId : ℕ) (q : GetUsers) : AppProg K UserListPage := do
  getUsersUnder platform settings tenantId q (← buildUsersListCacheKey platform tenantId q)

/-! ### Changing users -/

/-- `get_user_by_id`. -/
def getUserById (userId : ℤ) (tenantId : ℕ) : AppProg K (Option User) :=
  query (.userInTenant userId tenantId)

/-- The test `should_invalidate_tokens` of `update_user`. -/
def shouldInvalidateTokens (user : User) (update : UserAdminUpdate) : Bool :=
  update.role.any fun role => role.map UserRole.value != some user.role

/-- The changes that `update_user` makes to the row that it has read. -/
def updateUserChanges (user : User) (update : UserAdminUpdate) : UserChanges :=
  { email := update.email.filter (· ≠ some user.email)
    isActive := update.isActive.filter (· ≠ some user.isActive)
    role := (update.role.map (·.map UserRole.value)).filter (· ≠ some user.role)
    tokenVersion := if shouldInvalidateTokens user update then some (user.tokenVersion + 1) else none }

/-- The `UPDATE` of the changed columns, if there are any. -/
def flushUser (user : User) (changes : UserChanges) : List (Statement K) :=
  if changes = {} then [] else [.updateUser user.id changes]

/-- `update_user` with `commit=False`. -/
def updateUser (user : User) (update : UserAdminUpdate) : List (Statement K) :=
  flushUser user (updateUserChanges user update)

/-- `delete_user` with `commit=False`. -/
def deleteUser (user : User) : List (Statement K) := [.deleteUser user.id]

/-- The changes that `deactivate_user` makes to the row that it has read. -/
def deactivateUserChanges (user : User) : UserChanges :=
  { isActive := if user.isActive then some (some false) else none
    tokenVersion := some (user.tokenVersion + 1) }

/-- The changes that `activate_user` makes to the row that it has read. -/
def activateUserChanges (user : User) : UserChanges :=
  { isActive := if user.isActive then none else some (some true) }

end StarterBackend.App

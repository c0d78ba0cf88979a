/-
Roles, their permissions, and the decisions of `permission_service.py`.
-/
import StarterBackend.App.Models

namespace StarterBackend.App

/-- `Permission`. -/
inductive Permission where
  | usersList
  | usersRead
  | usersReadSelf
  | usersUpdate
  | usersUpdateSelf
  | usersDelete
  | usersActivate
  | usersDeactivate
  | adminAccess
  | auditLogsList
  | filesUpload
  | filesDownload
  | filesDownloadSelf
  | filesDelete
  | filesDeleteSelf
  | tenantsList
  | tenantsProvision
  | tenantsManage
deriving DecidableEq

/-- The text of a permission. -/
def Permission.value : Permission → String
  | .usersList => "users.list"
  | .usersRead => "users.read"
  | .usersReadSelf => "users.read.self"
  | .usersUpdate => "users.update"
  | .usersUpdateSelf => "users.update.self"
  | .usersDelete => "users.delete"
  | .usersActivate => "users.activate"
  | .usersDeactivate => "users.deactivate"
  | .adminAccess => "admin.access"
  | .auditLogsList => "audit_logs.list"
  | .filesUpload => "files.upload"
  | .filesDownload => "files.download"
  | .filesDownloadSelf => "files.download.self"
  | .filesDelete => "files.delete"
  | .filesDeleteSelf => "files.delete.self"
  | .tenantsList => "tenants.list"
  | .tenantsProvision => "tenants.provision"
  | .tenantsManage => "tenants.manage"

/-- `frozenset(Permission)`. -/
def allPermissions : List Permission :=
  [.usersList, .usersRead, .usersReadSelf, .usersUpdate, .usersUpdateSelf, .usersDelete,
    .usersActivate, .usersDeactivate, .adminAccess, .auditLogsList, .filesUpload, .filesDownload,
    .filesDownloadSelf, .filesDelete, .filesDeleteSelf, .tenantsList, .tenantsProvision,
    .tenantsManage]

/-- The permission is about tenants: `permission.value.startswith("tenants.")`. -/
def Permission.isTenants (permission : Permission) : Bool :=
  "tenants.".toList.isPrefixOf permission.value.toList

/-- `USER_PERMISSIONS`. -/
def userPermissions : List Permission :=
  [.usersReadSelf, .usersUpdateSelf, .filesUpload, .filesDownloadSelf, .filesDeleteSelf]

/-- `TENANT_ADMIN_PERMISSIONS`. -/
def tenantAdminPermissions : List Permission :=
  allPermissions.filter fun permission => !permission.isTenants

/-- `ROLE_PERMISSIONS`. -/
def rolePermissions : List (String × List Permission) :=
  [("user", userPermissions), ("admin", tenantAdminPermissions),
    ("platform_admin", allPermissions)]

/-- `get_permissions_for_role`. -/
def getPermissionsForRole (role : String) : List Permission :=
  (rolePermissions.lookup role).getD []

/-- `user_has_permission`. -/
def userHasPermission (user : User) (permission : Permission) : Bool :=
  (getPermissionsForRole user.role).contains permission

/-- `user_has_any_permission`. -/
def userHasAnyPermission (user : User) (permissions : List Permission) : Bool :=
  permissions.any fun permission => (getPermissionsForRole user.role).contains permission

/-- `users_share_tenant`. -/
def usersShareTenant (currentUser targetUser : User) : Bool :=
  currentUser.tenantId == targetUser.tenantId

/-- `can_read_user`. -/
def canReadUser (currentUser targetUser : User) : Bool :=
  usersShareTenant currentUser targetUser &&
    (userHasPermission currentUser .usersRead ||
      (currentUser.id == targetUser.id && userHasPermission currentUser .usersReadSelf))

/-- `can_update_user`. -/
def canUpdateUser (currentUser targetUser : User) : Bool :=
  usersShareTenant currentUser targetUser &&
    (userHasPermission currentUser .usersUpdate ||
      (currentUser.id == targetUser.id && userHasPermission currentUser .usersUpdateSelf))

/-- A role that has some permission about tenants. -/
def HasTenantsPermission (role : String) : Prop :=
  ∃ permission ∈ getPermissionsForRole role, permission.isTenants = true

lemma mem_allPermissions (permission : Permission) : permission ∈ allPermissions := by
  cases permission <;> decide

/-- The roles that grant something, and what they grant. -/
lemma getPermissionsForRole_eq (role : String) :
    getPermissionsForRole role =
      if role = "user" then userPermissions
      else if role = "admin" then tenantAdminPermissions
      else if role = "platform_admin" then allPermissions
      else [] := by
  rcases eq_or_ne role "user" with rfl | huser
  · rfl
  rcases eq_or_ne role "admin" with rfl | hadmin
  · rfl
  rcases eq_or_ne role "platform_admin" with rfl | hplatform
  · rfl
  rw [if_neg huser, if_neg hadmin, if_neg hplatform, getPermissionsForRole, rolePermissions]
  simp only [List.lookup, beq_eq_false_iff_ne.2 huser, beq_eq_false_iff_ne.2 hadmin,
    beq_eq_false_iff_ne.2 hplatform, Option.getD_none]

lemma isTenants_of_mem_user : ∀ permission ∈ userPermissions, permission.isTenants = false := by
  decide

/-- Only the platform administrator has permissions about tenants. -/
theorem hasTenantsPermission_iff (role : String) :
    HasTenantsPermission role ↔ role = "platform_admin" := by
  constructor
  · rintro ⟨permission, hmem, htenants⟩
    rw [getPermissionsForRole_eq] at hmem
    split_ifs at hmem with huser hadmin hplatform
    · rw [isTenants_of_mem_user permission hmem] at htenants
      simp at htenants
    · have := (List.mem_filter.1 hmem).2
      simp [htenants] at this
    · exact hplatform
    · simp at hmem
  · rintro rfl
    exact ⟨.tenantsList, mem_allPermissions _, by decide⟩

instance (role : String) : Decidable (HasTenantsPermission role) :=
  decidable_of_iff _ (hasTenantsPermission_iff role).symm

end StarterBackend.App

/-
The handlers of the routes about users.

A handler's result is the response: `respond` turns the exceptions into it, as the
exception handlers do, and an exception that they do not know is the status 500.  Within
a request the session returns the row that it has loaded before, when a query finds it
again (`loadedUser`).
-/
import StarterBackend.App.Auth

namespace StarterBackend.App

open Lib

variable {K : Type} (settings : Settings)

/-- The response of a request: its result, or the exception that it ended with. -/
abbrev Response (α : Type) := Except AppError α

/-- The exception handlers around a request. -/
def respond {α : Type} (handler : AppProg K α) : AppProg K (Response α) := handler.attempt

/-- The user that a query in the session of a request returns for a row. -/
def loadedUser (currentUser row : User) : User := if row.id = currentUser.id then currentUser else row

lemma loadedUser_id (currentUser row : User) : (loadedUser currentUser row).id = row.id := by
  unfold loadedUser
  split_ifs with h
  · exact h.symm
  · rfl

/-- `register`. -/
def register (email password : String) (requestedSlug : Option String) : AppProg K User := do
  let tenant ← getRequestTenant requestedSlug
  if settings.registrationEnabled then createUser email password tenant.id
  else .raise (.forbidden "Registration is disabled")

/-- What `commit_user_mutation_with_audit` adds to the statements of a mutation. -/
def auditEntry (currentUser : User) (action : AuditAction) (targetUserId : ℕ) : Statement K :=
  .insertAuditLog currentUser.tenantId (some currentUser.id) action (some targetUserId)

/-- `commit_user_mutation_with_audit`, after a service that was called with `commit=False`. -/
def commitUserMutationWithAudit (statements : List (Statement K)) (currentUser : User)
    (action : AuditAction) (targetUserId : ℕ) : AppProg K Unit := do
  let _ ← commit (statements ++ [auditEntry currentUser action targetUserId])
  invalidateUsersListCache currentUser.tenantId

/-- The end of `patch_user`, for a user that may be updated. -/
def patchLoadedUser (currentUser user : User) (userUpdate : UserAdminUpdate) : AppProg K User := do
  if userHasPermission currentUser .usersUpdate then
    commitUserMutationWithAudit (updateUser user userUpdate) currentUser .userUpdated user.id
    refreshUser user.id
  else
    let _ ← commit (updateUser user userUpdate.selfUpdate)
    let updatedUser ← refreshUser user.id
    invalidateUsersListCache updatedUser.tenantId
    return updatedUser

/-- `get_user_by_id`, in the session of a request. -/
def getLoadedUser (currentUser : User) (userId : ℤ) : AppProg K (Option User) := do
  return (← getUserById userId currentUser.tenantId).map (loadedUser currentUser)

/-- `deactivate_user` with `commit=False`: the user and the statements, if there is such a user. -/
def deactivateUser (currentUser : User) (userId : ℤ) :
    AppProg K (Option (User × List (Statement K))) := do
  return (← getLoadedUser currentUser userId).map fun user =>
    (user, flushUser user (deactivateUserChanges user))

/-- `activate_user` with `commit=False`. -/
def activateUser (currentUser : User) (userId : ℤ) :
    AppProg K (Option (User × List (Statement K))) := do
  return (← getLoadedUser currentUser userId).map fun user =>
    (user, flushUser user (activateUserChanges user))

/-- `patch_user`. -/
def patchUser (token : String) (requestedSlug : Option String) (userId : ℤ)
    (userUpdate : UserAdminUpdate) : AppProg K User := do
  let currentUser ← getCurrentUser token requestedSlug
  match ← getUserById userId currentUser.tenantId with
  | none => .raise (.notFound "User not found")
  | some row =>
      let user := loadedUser currentUser row
      if canUpdateUser currentUser user then patchLoadedUser currentUser user userUpdate
      else .raise (.forbidden "Insufficient permissions")

/-- What `deactivate_user_endpoint` and `activate_user_endpoint` do after the service. -/
def commitFoundUser (currentUser : User) (action : AuditAction) :
    Option (User × List (Statement K)) → AppProg K User
  | none => .raise (.notFound "User not found")
  | some (user, statements) => do
      commitUserMutationWithAudit statements currentUser action user.id
      refreshUser user.id

/-- `deactivate_user_endpoint`. -/
def deactivateUserEndpoint (token : String) (requestedSlug : Option String) (userId : ℤ) :
    AppProg K User := do
  let currentUser ← requirePermission [.usersDeactivate] token requestedSlug
  commitFoundUser currentUser .userDeactivated (← deactivateUser currentUser userId)

/-- `activate_user_endpoint`. -/
def activateUserEndpoint (token : String) (requestedSlug : Option String) (userId : ℤ) :
    AppProg K User := do
  let currentUser ← requirePermission [.usersActivate] token requestedSlug
  commitFoundUser currentUser .userActivated (← activateUser currentUser userId)

/-- `remove_user`. -/
def removeUser (token : String) (requestedSlug : Option String) (userId : ℤ) :
    AppProg K Unit := do
  let currentUser ← requirePermission [.usersDelete] token requestedSlug
  match ← getLoadedUser currentUser userId with
  | none => .raise (.notFound "User not found")
  | some user =>
      commitUserMutationWithAudit (deleteUser user) currentUser .userDeleted user.id

end StarterBackend.App

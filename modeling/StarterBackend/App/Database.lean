/-
The SQL of the application: its queries and the statements of its transactions.

A transaction is a list of statements that take effect together, or not at all when one
of them violates a constraint: a null in a `NOT NULL` column, a second row of a unique
index, a foreign key without its row.  An `UPDATE` of a user writes only the columns
that the session changed, with the values that the session computed.
-/
import StarterBackend.App.Models

namespace StarterBackend.App

open Lib

variable {K : Type} [LinearOrder K]

/-! ### Listing users -/

/-- The columns by which users are sorted. -/
inductive UserSortBy where
  | id
  | email
  | role
  | isActive
deriving DecidableEq

inductive SortOrder where
  | asc
  | desc
deriving DecidableEq

/-- A value of one of these columns. -/
inductive SqlValue where
  | int (n : ℕ)
  | text (s : String)
  | bool (b : Bool)
deriving DecidableEq

/-- `getattr(user, sort_by)`. -/
def User.sortValue (user : User) : UserSortBy → SqlValue
  | .id => .int user.id
  | .email => .text user.email
  | .role => .text user.role
  | .isActive => .bool user.isActive

/-- How the database orders texts, compares a column with a value of a cursor (which it may
refuse) and matches a pattern. -/
structure Collation where
  le : String → String → Bool
  compare : UserSortBy → Json → Option (SqlValue → Ordering)
  ilike : (pattern value : String) → Bool

/-- The order of two values of one column. -/
def Collation.valueLe (c : Collation) : SqlValue → SqlValue → Bool
  | .int m, .int n => decide (m ≤ n)
  | .text s, .text t => c.le s t
  | .bool a, .bool b => decide (a ≤ b)
  | _, _ => false

/-- How a value of a column compares with another one. -/
def Collation.ordering (c : Collation) (x y : SqlValue) : Ordering :=
  if x = y then .eq else if c.valueLe x y then .lt else .gt

/-- The order of a page: by the column, then by the id, both in the same direction. -/
def Collation.userLe (c : Collation) (sortBy : UserSortBy) (sortOrder : SortOrder) (u v : User) :
    Bool :=
  let before (x y : User) : Bool :=
    if x.sortValue sortBy = y.sortValue sortBy then decide (x.id ≤ y.id)
    else c.valueLe (x.sortValue sortBy) (y.sortValue sortBy)
  match sortOrder with
  | .asc => before u v
  | .desc => before v u

/-- A query for a page of the users of a tenant. -/
structure UsersQuery where
  tenantId : ℕ
  role : Option String
  isActive : Option Bool
  emailPattern : Option String
  sortBy : UserSortBy
  sortOrder : SortOrder
  /-- The id and the sort value of the last user of the page before. -/
  after : Option (ℤ × Json)
  offset : ℕ
  limit : ℕ

/-- The `WHERE` clause, without the condition of the cursor. -/
def UsersQuery.admits (q : UsersQuery) (c : Collation) (user : User) : Bool :=
  (q.role.all fun role => user.role == role) &&
    (user.isActive == q.isActive.getD true) &&
    (q.emailPattern.all fun pattern => c.ilike pattern user.email)

/-- `_apply_keyset_filter`, with the comparison of the column with the value of the cursor. -/
def UsersQuery.isAfter (q : UsersQuery) (compare : SqlValue → Ordering) (cursorId : ℤ)
    (user : User) : Bool :=
  match q.sortOrder, compare (user.sortValue q.sortBy) with
  | .desc, .lt => true
  | .desc, .eq => decide ((user.id : ℤ) < cursorId)
  | .desc, .gt => false
  | .asc, .gt => true
  | .asc, .eq => decide (cursorId < (user.id : ℤ))
  | .asc, .lt => false

/-- The page of a query; `none` when the database refuses the value of the cursor. -/
def UsersQuery.eval (q : UsersQuery) (c : Collation) (users : List User) : Option (List User) :=
  let page (us : List User) : List User :=
    ((us.mergeSort (c.userLe q.sortBy q.sortOrder)).drop q.offset).take q.limit
  match q.after with
  | none => some (page (users.filter (q.admits c)))
  | some (cursorId, value) =>
      (c.compare q.sortBy value).map fun compare =>
        page (users.filter fun user => q.admits c user && q.isAfter compare cursorId user)

/-- A query for a page of the audit log of a tenant. -/
structure AuditLogsQuery where
  tenantId : ℕ
  action : Option AuditAction
  adminId : Option ℤ
  targetUserId : Option ℤ
  offset : ℕ
  limit : ℕ

/-- The page of a query, latest entries first. -/
def AuditLogsQuery.eval (q : AuditLogsQuery) (logs : List (AuditLog K)) : List (AuditLog K) :=
  let admitted := logs.filter fun log =>
    (q.action.all fun action => log.action == action) &&
      (q.adminId.all fun id => log.adminId.any fun n => (n : ℤ) == id) &&
      (q.targetUserId.all fun id => log.targetUserId.any fun n => (n : ℤ) == id)
  let sorted := admitted.mergeSort fun a b =>
    decide (b.createdAt < a.createdAt ∨ (b.createdAt = a.createdAt ∧ b.id ≤ a.id))
  (sorted.drop q.offset).take q.limit

/-! ### Queries -/

/-- The queries of the application. -/
inductive Query where
  /-- The user of an id. -/
  | user (userId : ℤ)
  /-- The user of an id, if it is of the tenant. -/
  | userInTenant (userId tenantId : ℤ)
  | userByEmail (email : String) (tenantId : ℕ)
  | users (q : UsersQuery)
  | tenant (tenantId : ℤ)
  | tenantBySlug (slug : String)
  | tenants (offset limit : ℕ) (includeInactive : Bool)
  | auditLogs (q : AuditLogsQuery)
  | resetToken (tokenHash : String)
  | resetJobCompletion (jobId : String)
  | file (fileId : ℤ)
  /-- The file of an id, if it is of the tenant. -/
  | fileInTenant (fileId : ℤ) (tenantId : ℕ)

@[reducible] def Query.Reply (K : Type) : Query → Type
  | .user _ | .userInTenant _ _ | .userByEmail _ _ => Option User
  | .users _ => Option (List User)
  | .tenant _ | .tenantBySlug _ => Option Tenant
  | .tenants _ _ _ => List Tenant
  | .auditLogs _ => List (AuditLog K)
  | .resetToken _ => Option (PasswordResetToken K)
  | .resetJobCompletion _ => Bool
  | .file _ | .fileInTenant _ _ => Option UploadedFile

def Query.eval (c : Collation) (db : Database K) : (q : Query) → q.Reply K
  | .user userId => db.users.find userId
  | .userInTenant userId tenantId =>
      (db.users.find userId).filter fun user => (user.tenantId : ℤ) == tenantId
  | .userByEmail email tenantId =>
      (db.users.select fun user => user.email == email && user.tenantId == tenantId).head?
  | .users q => q.eval c (db.users.select fun user => user.tenantId == q.tenantId)
  | .tenant tenantId => db.tenants.find tenantId
  | .tenantBySlug slug => (db.tenants.select fun tenant => tenant.slug == slug).head?
  | .tenants offset limit includeInactive =>
      (((db.tenants.select fun tenant => includeInactive || tenant.isActive).mergeSort
        fun s t => c.le s.slug t.slug).drop offset).take limit
  | .auditLogs q => q.eval (db.auditLogs.select fun log => log.tenantId == q.tenantId)
  | .resetToken tokenHash =>
      (db.passwordResetTokens.select fun token => token.tokenHash == tokenHash).head?
  | .resetJobCompletion jobId => decide (jobId ∈ db.passwordResetJobCompletions)
  | .file fileId => db.uploadedFiles.find fileId
  | .fileInTenant fileId tenantId =>
      (db.uploadedFiles.find fileId).filter fun file => file.tenantId == tenantId

/-! ### Statements -/

/-- The columns of a user that an `UPDATE` sets; `some none` sets a null. -/
structure UserChanges where
  email : Option (Option String) := none
  hashedPassword : Option String := none
  isActive : Option (Option Bool) := none
  role : Option (Option String) := none
  tokenVersion : Option ℤ := none
deriving DecidableEq

/-- The row after the update, unless a null was set. -/
def UserChanges.apply (changes : UserChanges) (user : User) : Option User := do
  let email ← changes.email.getD (some user.email)
  let isActive ← changes.isActive.getD (some user.isActive)
  let role ← changes.role.getD (some user.role)
  return { user with
    email, isActive, role
    hashedPassword := changes.hashedPassword.getD user.hashedPassword
    tokenVersion := changes.tokenVersion.getD user.tokenVersion }

/-- The statements of a transaction. -/
inductive Statement (K : Type) where
  | insertUser (email hashedPassword : String) (tenantId : ℕ)
  | updateUser (userId : ℕ) (changes : UserChanges)
  /-- `db.delete(user)`: its reset tokens and its files go with it. -/
  | deleteUser (userId : ℕ)
  | insertTenant (slug name : String)
  | updateTenant (tenantId : ℕ) (name : Option String) (isActive : Option Bool)
  | insertAuditLog (tenantId : ℕ) (adminId : Option ℕ) (action : AuditAction)
      (targetUserId : Option ℕ)
  | insertResetToken (userId : ℕ) (tokenHash : String) (expiresAt : K)
  /-- Mark the unused reset tokens of a user as used. -/
  | useResetTokens (userId : ℕ) (usedAt : K)
  | insertResetJobCompletion (jobId : String)
  | insertFile (tenantId ownerId : ℕ) (objectKey filename contentType : String) (sizeBytes : ℤ)
      (verificationStatus : UploadVerificationStatus)
  | verifyFile (fileId : ℕ)
  | deleteFile (fileId : ℕ)
  | deleteResetTokensBefore (time : K)
  | deleteAuditLogsBefore (time : K)

namespace Database

/-- The tables without rows. -/
def empty : Database K := ⟨.empty, .empty, .empty, .empty, .empty, []⟩

/-- Another row has the email in the tenant. -/
def emailTaken (db : Database K) (userId : Option ℕ) (email : String) (tenantId : ℕ) : Bool :=
  db.users.toList.any fun user =>
    user.email == email && user.tenantId == tenantId && userId != some user.id

/-- The table of users with one of them replaced. -/
def setUser (db : Database K) (user : User) : Database K :=
  { db with users := db.users.modify (fun u => if u.id = user.id then user else u) (by
      intro u
      split
      · rename_i h
        exact h.symm
      · rfl) }

end Database

/-- Execute one statement at the time `now` of the database: the key that an `INSERT` took, if it
is one, and the tables after it.  `none` is the violation of a constraint. -/
def Statement.exec (gap : ℕ) (now : K) (db : Database K) :
    Statement K → Option (Option ℕ × Database K)
  | .insertUser email hashedPassword tenantId =>
      if (db.tenants.row tenantId).isNone || db.emailTaken none email tenantId then none
      else some (some (db.users.freshId gap), { db with
        users := db.users.insert gap (fun id =>
          ⟨id, tenantId, email, hashedPassword, true, UserRole.user.value, 0⟩) fun _ => rfl })
  | .updateUser userId changes =>
      match db.users.row userId with
      | none => none
      | some user =>
          match changes.apply user with
          | none => none
          | some updated =>
              if db.emailTaken (some userId) updated.email updated.tenantId then none
              else some (none, db.setUser updated)
  | .deleteUser userId =>
      if db.auditLogs.toList.any fun log => log.adminId == some userId then none
      else some (none, { db with
        users := db.users.restrict fun user => user.id != userId
        passwordResetTokens := db.passwordResetTokens.restrict fun token => token.userId != userId
        uploadedFiles := db.uploadedFiles.restrict fun file => file.ownerId != userId })
  | .insertTenant slug name =>
      if db.tenants.toList.any fun tenant => tenant.slug == slug then none
      else some (some (db.tenants.freshId gap), { db with
        tenants := db.tenants.insert gap (fun id => ⟨id, slug, name, true⟩) fun _ => rfl })
  | .updateTenant tenantId name isActive =>
      if (db.tenants.row tenantId).isNone then none
      else some (none, { db with
        tenants := db.tenants.modify (fun tenant =>
          if tenant.id = tenantId then
            { tenant with name := name.getD tenant.name, isActive := isActive.getD tenant.isActive }
          else tenant) (by intro tenant; split <;> rfl) })
  | .insertAuditLog tenantId adminId action targetUserId =>
      if (db.tenants.row tenantId).isNone || adminId.any fun id => (db.users.row id).isNone then
        none
      else some (some (db.auditLogs.freshId gap), { db with
        auditLogs := db.auditLogs.insert gap (fun id =>
          ⟨id, tenantId, adminId, action, targetUserId, now⟩) fun _ => rfl })
  | .insertResetToken userId tokenHash expiresAt =>
      if (db.users.row userId).isNone ||
          db.passwordResetTokens.toList.any fun token => token.tokenHash == tokenHash then none
      else some (some (db.passwordResetTokens.freshId gap), { db with
        passwordResetTokens := db.passwordResetTokens.insert gap (fun id =>
          ⟨id, userId, tokenHash, expiresAt, none⟩) fun _ => rfl })
  | .useResetTokens userId usedAt =>
      some (none, { db with
        passwordResetTokens := db.passwordResetTokens.modify (fun token =>
          if token.userId = userId ∧ token.usedAt = none then { token with usedAt := some usedAt }
          else token) (by intro token; split <;> rfl) })
  | .insertResetJobCompletion jobId =>
      if jobId ∈ db.passwordResetJobCompletions then none
      else some (none, { db with
        passwordResetJobCompletions := jobId :: db.passwordResetJobCompletions })
  | .insertFile tenantId ownerId objectKey filename contentType sizeBytes verificationStatus =>
      if (db.tenants.row tenantId).isNone || (db.users.row ownerId).isNone ||
          db.uploadedFiles.toList.any fun file => file.objectKey == objectKey then none
      else some (some (db.uploadedFiles.freshId gap), { db with
        uploadedFiles := db.uploadedFiles.insert gap (fun id =>
          ⟨id, tenantId, ownerId, objectKey, filename, contentType, sizeBytes, verificationStatus⟩)
          fun _ => rfl })
  | .verifyFile fileId =>
      if (db.uploadedFiles.row fileId).isNone then none
      else some (none, { db with
        uploadedFiles := db.uploadedFiles.modify (fun file =>
          if file.id = fileId then { file with verificationStatus := .verified } else file)
          (by intro file; split <;> rfl) })
  | .deleteFile fileId =>
      some (none, { db with
        uploadedFiles := db.uploadedFiles.restrict fun file => file.id != fileId })
  | .deleteResetTokensBefore time =>
      some (none, { db with
        passwordResetTokens := db.passwordResetTokens.restrict fun token =>
          decide (¬ token.expiresAt < time) })
  | .deleteAuditLogsBefore time =>
      some (none, { db with
        auditLogs := db.auditLogs.restrict fun log => decide (¬ log.createdAt < time) })

/-- Execute a transaction: the key of its last `INSERT`, and the tables after it. -/
def transaction (gap : ℕ) (now : K) : List (Statement K) → Option ℕ → Database K →
    Option (Option ℕ × Database K)
  | [], id, db => some (id, db)
  | statement :: statements, id, db =>
      (statement.exec gap now db).bind fun r => transaction gap now statements (r.1.or id) r.2

/-! ### What statements do -/

section Statements

variable {gap : ℕ} {now : K} {db db' : Database K} {id id' : Option ℕ} {statement : Statement K}
  {statements : List (Statement K)}

@[simp] lemma transaction_nil : transaction gap now [] id db = some (id, db) := rfl

lemma transaction_cons_eq_some :
    transaction gap now (statement :: statements) id db = some (id', db') ↔
      ∃ x db₁, statement.exec gap now db = some (x, db₁) ∧
        transaction gap now statements (x.or id) db₁ = some (id', db') := by
  simp [transaction, Option.bind_eq_some_iff]

/-- A transaction of one statement. -/
lemma transaction_singleton :
    transaction gap now [statement] none db = statement.exec gap now db := by
  simp [transaction]

lemma transaction_append {statements' : List (Statement K)} :
    transaction gap now (statements ++ statements') id db =
      (transaction gap now statements id db).bind fun r =>
        transaction gap now statements' r.1 r.2 := by
  induction statements generalizing id db with
  | nil => rfl
  | cons statement statements ih => simp [transaction, Option.bind_assoc, ih]

/-- What every statement of a transaction preserves, the transaction preserves. -/
lemma transaction_invariant {I : Database K → Prop}
    (hI : ∀ statement ∈ statements, ∀ db x db', I db → statement.exec gap now db = some (x, db') →
      I db') (h : transaction gap now statements id db = some (id', db')) (hdb : I db) : I db' := by
  induction statements generalizing id db with
  | nil =>
      obtain ⟨-, rfl⟩ : id = id' ∧ db = db' := by simpa using h
      exact hdb
  | cons statement statements ih =>
      obtain ⟨x, db₁, hexec, hrest⟩ := transaction_cons_eq_some.1 h
      exact ih (fun s hs => hI s (List.mem_cons_of_mem _ hs)) hrest
        (hI statement List.mem_cons_self db x db₁ hdb hexec)

/-- The columns that an `UPDATE` of a user leaves alone, and those that it can set to no null. -/
lemma UserChanges.apply_eq_some {changes : UserChanges} {user updated : User}
    (h : changes.apply user = some updated) :
    updated.id = user.id ∧ updated.tenantId = user.tenantId ∧
      updated.hashedPassword = changes.hashedPassword.getD user.hashedPassword ∧
      updated.tokenVersion = changes.tokenVersion.getD user.tokenVersion ∧
      changes.email.getD (some user.email) = some updated.email ∧
      changes.isActive.getD (some user.isActive) = some updated.isActive ∧
      changes.role.getD (some user.role) = some updated.role := by
  simp only [UserChanges.apply, Option.bind_eq_bind, Option.bind_eq_some_iff, Option.pure_def,
    Option.some.injEq] at h
  obtain ⟨email, hemail, isActive, hactive, role, hrole, rfl⟩ := h
  exact ⟨rfl, rfl, rfl, rfl, hemail, hactive, hrole⟩

omit [LinearOrder K] in
/-- The users after one of them was replaced. -/
lemma Database.row_setUser {user updated : User} (hid : updated.id = user.id)
    (huser : db.users.row user.id = some user) (k : ℕ) :
    (db.setUser updated).users.row k = if k = user.id then some updated else db.users.row k := by
  simp only [setUser, Table.row_modify]
  split_ifs with hk
  · rw [hk, huser, Option.map_some, if_pos hid.symm]
  · rcases hrow : db.users.row k with _ | u
    · rfl
    · have hu : u.id = k := db.users.id_of_row hrow
      rw [Option.map_some, if_neg (by omega)]

/-- **An `UPDATE` of a user.** -/
lemma exec_updateUser_eq_some {userId : ℕ} {changes : UserChanges} {x : Option ℕ}
    (h : (Statement.updateUser userId changes).exec gap now db = some (x, db')) :
    ∃ user updated, db.users.row userId = some user ∧ changes.apply user = some updated ∧
      x = none ∧ db' = db.setUser updated := by
  simp only [Statement.exec] at h
  split at h
  · simp at h
  · rename_i user huser
    split at h
    · simp at h
    · rename_i updated hupdated
      split_ifs at h
      obtain ⟨rfl, rfl⟩ := Prod.mk.inj (Option.some.inj h)
      exact ⟨user, updated, huser, hupdated, rfl, rfl⟩

/-- An entry of the audit log leaves the other tables alone. -/
lemma exec_insertAuditLog_eq_some {tenantId : ℕ} {adminId targetUserId : Option ℕ}
    {action : AuditAction} {x : Option ℕ}
    (h : (Statement.insertAuditLog tenantId adminId action targetUserId).exec gap now db =
      some (x, db')) : ∃ auditLogs, db' = { db with auditLogs } := by
  simp only [Statement.exec] at h
  split_ifs at h
  obtain ⟨-, rfl⟩ := Prod.mk.inj (Option.some.inj h)
  exact ⟨_, rfl⟩

/-- A completed job stays so. -/
lemma mem_completions_of_exec {jobId : String} {x : Option ℕ}
    (h : statement.exec gap now db = some (x, db'))
    (hmem : jobId ∈ db.passwordResetJobCompletions) :
    jobId ∈ db'.passwordResetJobCompletions := by
  cases statement with
  | updateUser userId changes =>
      obtain ⟨_, _, _, _, _, rfl⟩ := exec_updateUser_eq_some h
      exact hmem
  | insertResetJobCompletion jobId' =>
      simp only [Statement.exec] at h
      split_ifs at h
      obtain ⟨-, rfl⟩ := Prod.mk.inj (Option.some.inj h)
      exact List.mem_cons_of_mem _ hmem
  | useResetTokens _ _ | deleteFile _ | deleteResetTokensBefore _ | deleteAuditLogsBefore _ =>
      obtain ⟨-, rfl⟩ := Prod.mk.inj (Option.some.inj h)
      exact hmem
  | _ =>
      simp only [Statement.exec] at h
      split_ifs at h
      obtain ⟨-, rfl⟩ := Prod.mk.inj (Option.some.inj h)
      exact hmem

end Statements

end StarterBackend.App

/-
The changes that administrators make to users, and their entries in the audit log.

The statements of a change and the entry are flushed one after the other in one
transaction, and the cache of user lists is invalidated after the commit.  A call can stop
at any of these steps, because its process dies or because a statement, a flush or the
commit fails.  The database has the whole change and one entry for it, or it is as before
(`admin_mutation_atomic`).
-/
import StarterBackend.App.Flushes
import StarterBackend.App.Routes

namespace StarterBackend.Users

open Lib App

/-- The calls of administrators that change a user. -/
inductive AdminMutation where
  | patch (userId : ℤ) (update : UserAdminUpdate)
  | deactivate (userId : ℤ)
  | activate (userId : ℤ)
  | remove (userId : ℤ)

/-- The user that a token names. -/
def callerOf {K : Type} (platform : Platform) (db : Database K) (token : String) : Option User :=
  ((platform.decode token).bind accessClaims).bind fun access =>
    (db.users.find access.1).filter fun user => (user.tenantId : ℤ) == access.2.1

namespace AdminMutation

/-- The user that the call names. -/
def userId : AdminMutation → ℤ
  | .patch userId _ => userId
  | .deactivate userId => userId
  | .activate userId => userId
  | .remove userId => userId

/-- What the entry of the audit log says. -/
def action : AdminMutation → AuditAction
  | .patch _ _ => .userUpdated
  | .deactivate _ => .userDeactivated
  | .activate _ => .userActivated
  | .remove _ => .userDeleted

/-- The route that serves the call. -/
def handler {K : Type} (token : String) (requestedSlug : Option String) :
    AdminMutation → AppProg K Unit
  | .patch userId update => do
      let _ ← patchUser token requestedSlug userId update
  | .deactivate userId => do
      let _ ← deactivateUserEndpoint token requestedSlug userId
  | .activate userId => do
      let _ ← activateUserEndpoint token requestedSlug userId
  | .remove userId => removeUser token requestedSlug userId

/-- The row after the whole change, with the new version of its tokens; there is none after a
deletion. -/
def mutated (user : User) : AdminMutation → Option User
  | .patch _ update =>
      let role := ((update.role.getD none).map UserRole.value).getD user.role
      some { user with
        email := (update.email.getD none).getD user.email
        isActive := (update.isActive.getD none).getD user.isActive
        role
        tokenVersion := if role = user.role then user.tokenVersion else user.tokenVersion + 1 }
  | .deactivate _ => some { user with isActive := false, tokenVersion := user.tokenVersion + 1 }
  | .activate _ => some { user with isActive := true }
  | .remove _ => none

/-- The change deletes what belongs to the user. -/
def deletes : AdminMutation → Bool
  | .remove _ => true
  | _ => false

/-- **The whole change, and one entry for it.**  The other rows are as before. -/
structure Done {K : Type} (m : AdminMutation) (caller user : User) (db db' : Database K) : Prop where
  users : ∀ k, db'.users.row k = if k = user.id then m.mutated user else db.users.row k
  tokens : ∀ k, db'.passwordResetTokens.row k = (db.passwordResetTokens.row k).filter fun token =>
    !(m.deletes && token.userId == user.id)
  files : ∀ k, db'.uploadedFiles.row k = (db.uploadedFiles.row k).filter fun file =>
    !(m.deletes && file.ownerId == user.id)
  entry : ∃ id createdAt, db.auditLogs.row id = none ∧ ∀ k, db'.auditLogs.row k =
    if k = id then some ⟨id, caller.tenantId, some caller.id, m.action, some user.id, createdAt⟩
    else db.auditLogs.row k
  tenants : db'.tenants = db.tenants
  completions : db'.passwordResetJobCompletions = db.passwordResetJobCompletions

/-- The change was made by the caller that the token names, to the user that the call names. -/
def Committed {K : Type} (platform : Platform) (token : String) (m : AdminMutation)
    (db db' : Database K) : Prop :=
  ∃ caller user, callerOf platform db token = some caller ∧ db.users.find m.userId = some user ∧
    user.tenantId = caller.tenantId ∧ m.Done caller user db db'

/-- The version of the users' list cache of the caller's tenant was incremented. -/
def Invalidated {K : Type} [LinearOrder K] (platform : Platform) (token : String) (db : Database K)
    (keys keys' : Redis.Keys K) : Prop :=
  ∃ caller now lingers n, callerOf platform db token = some caller ∧
    keys.incr now lingers (buildUsersListCacheVersionKey caller.tenantId) = some (n, keys')

/-- Where a call can be: nothing is committed and the cache is as before, or the change is committed
with its entry.  The cache is invalidated after that, if it is. -/
def AtPoint {K : Type} [LinearOrder K] (platform : Platform) (token : String) (m : AdminMutation)
    (w : World K) (w' : World K) : Prop :=
  (w'.db = w.db ∧ w'.keys = w.keys) ∨
    m.Committed platform token w.db w'.db ∧
      (w'.keys = w.keys ∨ Invalidated platform token w.db w.keys w'.keys)

end AdminMutation

/-! ### The statements -/

section Statements

variable {K : Type} [LinearOrder K] {gap : ℕ} {now : K} {db db' : Database K} {id : Option ℕ}
  {user : User} {changes : UserChanges}

/-- What a flush of a user does, if it violates no constraint. -/
lemma transaction_flushUser (huser : db.users.row user.id = some user)
    (h : transaction gap now (flushUser user changes) none db = some (id, db')) :
    ∃ updated users, changes.apply user = some updated ∧ db' = { db with users } ∧
      ∀ k, users.row k = if k = user.id then some updated else db.users.row k := by
  unfold flushUser at h
  split_ifs at h with hnone
  · obtain ⟨-, rfl⟩ := Prod.mk.inj (Option.some.inj h)
    refine ⟨user, db.users, by rw [hnone]; rfl, rfl, fun k => ?_⟩
    split_ifs with hk
    · rw [hk, huser]
    · rfl
  · rw [transaction_singleton] at h
    obtain ⟨row, updated, hrow, happly, -, rfl⟩ := exec_updateUser_eq_some h
    obtain rfl := Option.some.inj (huser.symm.trans hrow)
    have hid := (UserChanges.apply_eq_some happly).1
    exact ⟨updated, _, happly, rfl, Database.row_setUser hid huser⟩

/-- The entry of the audit log at the end of a transaction. -/
lemma transaction_auditEntry {statements : List (Statement K)} {caller : User} {action : AuditAction}
    {target : ℕ} (h : transaction gap now (statements ++ [auditEntry caller action target]) none db =
      some (id, db')) :
    ∃ id₁ db₁, transaction gap now statements none db = some (id₁, db₁) ∧
      (db₁.users.row caller.id).isSome ∧
      db' = { db₁ with auditLogs := db₁.auditLogs.insert gap (fun id =>
        ⟨id, caller.tenantId, some caller.id, action, some target, now⟩) fun _ => rfl } := by
  rw [transaction_append] at h
  obtain ⟨⟨id₁, db₁⟩, h₁, h⟩ := Option.bind_eq_some_iff.1 h
  obtain ⟨x, db₂, hexec, hnil⟩ := transaction_cons_eq_some.1 h
  obtain ⟨-, rfl⟩ := Prod.mk.inj (Option.some.inj hnil)
  simp only [auditEntry, Statement.exec] at hexec
  split_ifs at hexec with hrefused
  obtain ⟨-, rfl⟩ := Prod.mk.inj (Option.some.inj hexec)
  refine ⟨id₁, db₁, h₁, ?_, rfl⟩
  rw [← Option.ne_none_iff_isSome]
  intro hnone
  simp [hnone] at hrefused

/-- A column after an `UPDATE` that a field of the body makes. -/
lemma eq_of_column {α : Type} [DecidableEq α] {set : Option (Option α)} {old new : α}
    (h : (set.filter (· ≠ some old)).getD (some old) = some new) : new = (set.getD none).getD old := by
  rcases set with _ | _ | x
  · exact (Option.some.inj h).symm
  · simp [Option.filter] at h
  · by_cases hx : x = old
    · simp only [hx, ne_eq, not_true, decide_false, Option.filter_some, Bool.false_eq_true, if_false,
        Option.getD_none] at h
      exact (Option.some.inj h).symm.trans hx.symm
    · simp only [ne_eq, Option.some.injEq, hx, not_false_eq_true, decide_true, Option.filter_some,
        if_true, Option.getD_some] at h
      exact h.symm

namespace AdminMutation

/-- What the changes of `update_user` make of the row. -/
lemma mutated_patch {updated : User} {userId : ℤ} {update : UserAdminUpdate}
    (h : (updateUserChanges user update).apply user = some updated) :
    (patch userId update).mutated user = some updated := by
  obtain ⟨hid, htenant, hpassword, hversion, hemail, hactive, hrole⟩ := UserChanges.apply_eq_some h
  have hrole' := eq_of_column hrole
  have hversion' : updated.tokenVersion =
      if updated.role = user.role then user.tokenVersion else user.tokenVersion + 1 := by
    rw [hversion]
    rcases hbody : update.role with _ | _ | role
    · simp [hrole', hbody, updateUserChanges, shouldInvalidateTokens]
    · simp [updateUserChanges, hbody, Option.filter] at hrole
    · by_cases hsame : role.value = user.role <;>
        simp [hrole', hbody, updateUserChanges, shouldInvalidateTokens, hsame]
  rw [hrole'] at hversion'
  simp only [mutated, Option.some.injEq]
  obtain ⟨id, tenantId, email, hashedPassword, isActive, role, tokenVersion⟩ := updated
  simp only at hid htenant hpassword hversion' hemail hactive hrole'
  rw [hid, htenant, hpassword, hversion', eq_of_column hemail, eq_of_column hactive, hrole']
  cases update.role <;> rfl

lemma mutated_deactivate {updated : User} {userId : ℤ}
    (h : (deactivateUserChanges user).apply user = some updated) :
    (deactivate userId).mutated user = some updated := by
  obtain ⟨id, tenantId, email, hashedPassword, isActive, role, tokenVersion⟩ := user
  cases isActive <;> simpa [deactivateUserChanges, UserChanges.apply, mutated] using h

lemma mutated_activate {updated : User} {userId : ℤ}
    (h : (activateUserChanges user).apply user = some updated) :
    (activate userId).mutated user = some updated := by
  obtain ⟨id, tenantId, email, hashedPassword, isActive, role, tokenVersion⟩ := user
  cases isActive <;> simpa [activateUserChanges, UserChanges.apply, mutated] using h

/-- The whole change, without the entry. -/
structure Changed (m : AdminMutation) (user : User) (db db' : Database K) : Prop where
  users : ∀ k, db'.users.row k = if k = user.id then m.mutated user else db.users.row k
  tokens : ∀ k, db'.passwordResetTokens.row k = (db.passwordResetTokens.row k).filter fun token =>
    !(m.deletes && token.userId == user.id)
  files : ∀ k, db'.uploadedFiles.row k = (db.uploadedFiles.row k).filter fun file =>
    !(m.deletes && file.ownerId == user.id)
  auditLogs : db'.auditLogs = db.auditLogs
  tenants : db'.tenants = db.tenants
  completions : db'.passwordResetJobCompletions = db.passwordResetJobCompletions

/-- A flush of changes to the row is the whole change. -/
lemma changed_of_flushUser {m : AdminMutation} (hdeletes : m.deletes = false)
    (huser : db.users.row user.id = some user)
    (hmutated : ∀ updated, changes.apply user = some updated → m.mutated user = some updated)
    (h : transaction gap now (flushUser user changes) none db = some (id, db')) :
    m.Changed user db db' := by
  obtain ⟨updated, users, happly, rfl, hrows⟩ := transaction_flushUser huser h
  have hkept : ∀ {ρ : Type} (row : Option ρ) (p : ρ → Bool),
      row = row.filter fun r => !(m.deletes && p r) := by
    intro ρ row p
    cases row <;> simp [Option.filter, hdeletes]
  refine ⟨fun k => ?_, fun k => hkept _ _, fun k => hkept _ _, rfl, rfl, rfl⟩
  rw [hmutated updated happly]
  exact hrows k

lemma changed_of_deleteUser {userId : ℤ}
    (h : transaction gap now (deleteUser user) none db = some (id, db')) :
    (remove userId).Changed user db db' := by
  rw [deleteUser, transaction_singleton] at h
  simp only [Statement.exec] at h
  split_ifs at h
  obtain ⟨-, rfl⟩ := Prod.mk.inj (Option.some.inj h)
  refine ⟨fun k => ?_, fun k => ?_, fun k => ?_, rfl, rfl, rfl⟩
  · rw [Table.row_restrict]
    rcases hrow : db.users.row k with _ | u
    · split_ifs <;> rfl
    · have hid : u.id = k := db.users.id_of_row hrow
      by_cases hk : k = user.id <;> simp [Option.filter, hid, hk, mutated]
  · simp [deletes, bne]
  · simp [deletes, bne]

/-- The change with its entry. -/
lemma done_of_changed {m : AdminMutation} {caller : User} {statements : List (Statement K)}
    (hchanged : ∀ id₁ db₁, transaction gap now statements none db = some (id₁, db₁) →
      m.Changed user db db₁)
    (h : transaction gap now (statements ++ [auditEntry caller m.action user.id]) none db =
      some (id, db')) : m.Done caller user db db' := by
  obtain ⟨id₁, db₁, h₁, -, rfl⟩ := transaction_auditEntry h
  have hdb₁ := hchanged id₁ db₁ h₁
  refine ⟨hdb₁.users, hdb₁.tokens, hdb₁.files, ⟨db.auditLogs.freshId gap, now,
    Table.row_eq_none_of_le (by simp), fun k => ?_⟩, hdb₁.tenants, hdb₁.completions⟩
  rw [hdb₁.auditLogs, Table.row_insert]

end AdminMutation

end Statements

/-! ### The calls -/

section Calls

variable {K : Type} [Field K] [LinearOrder K] [FloorRing K] {platform : Platform}
  {collation : Collation} {G : Env K → Prop} {J : World K × ℕ → Prop} {w : World K} {n : ℕ}
  {α : Type} {post : α → World K × ℕ → Prop} {token : String} {requestedSlug : Option String}

/-- The caller as its row says. -/
structure IsCaller (platform : Platform) (db : Database K) (token : String) (caller : User) :
    Prop where
  callerOf : callerOf platform db token = some caller
  row : db.users.row caller.id = some caller
  tenant : (db.tenants.row caller.tenantId).isSome

lemma always_assertActiveTenantMembership (hJ : ClockFree J) {user : User} {f : Unit → AppProg K α}
    (hw : J (w, n)) (h : ∀ now, (w.db.tenants.row user.tenantId).isSome →
      AlwaysFaulty platform collation G J post (f ()) { w with clock := now } n) :
    AlwaysFaulty platform collation G J post ((assertActiveTenantMembership user).bind f) w n := by
  refine always_query hJ hw fun now => ?_
  have hclock := hJ w n now hw
  rcases hrow : w.db.tenants.row user.tenantId with _ | tenant
  · rw [show Query.eval collation w.db (.tenant user.tenantId) = none from hrow]
    exact hclock
  · rw [show Query.eval collation w.db (.tenant user.tenantId) = some tenant from hrow]
    dsimp only [Prog.ret_bind]
    split_ifs
    · exact h now (by rw [hrow]; rfl)
    · exact hclock

lemma always_assertRequestedTenant (hJ : ClockFree J) {user : User} {f : Unit → AppProg K α}
    (hw : J (w, n)) (h : ∀ now, AlwaysFaulty platform collation G J post (f ())
      { w with clock := now } n) :
    AlwaysFaulty platform collation G J post ((assertRequestedTenant user requestedSlug).bind f)
      w n := by
  cases requestedSlug with
  | none => exact h w.clock
  | some slug =>
      refine always_query hJ hw fun now => ?_
      have hclock := hJ w n now hw
      rcases Query.eval collation w.db (.tenantBySlug slug) with _ | tenant
      · exact hclock
      · dsimp only [Prog.ret_bind]
        split_ifs
        · dsimp only [Prog.pure_def, Prog.bind_def, Prog.ret_bind]
          split_ifs
          · exact h now
          · exact hclock
        · exact hclock

/-- **Authentication** only reads. -/
lemma always_getCurrentUser (hJ : ClockFree J) {f : User → AppProg K α} (hw : J (w, n))
    (h : ∀ caller now, IsCaller platform w.db token caller →
      AlwaysFaulty platform collation G J post (f caller) { w with clock := now } n) :
    AlwaysFaulty platform collation G J post ((getCurrentUser token requestedSlug).bind f) w n := by
  refine always_read (fun _ hc => by cases hc) hw fun e _ => ⟨hJ w n e.now hw, ?_⟩
  have hw₁ := hJ w n e.now hw
  show AlwaysFaulty platform collation G J post _ { w with clock := e.now } n
  have hdecode : ((Command.decodeToken token).exec platform collation e w).1 =
      App.decodeToken platform e.leeway e.now token := rfl
  rw [hdecode]
  cases hclaims : App.decodeToken platform e.leeway e.now token with
  | none => exact hw₁
  | some claims =>
      cases haccess : accessClaims claims with
      | none =>
          simp only [Prog.ret_bind, Prog.bind_def, Prog.getOrRaise, haccess]
          exact hw₁
      | some access =>
          obtain ⟨callerId, tenantId, tokenVersion⟩ := access
          simp only [Prog.ret_bind, Prog.bind_def, Prog.getOrRaise, haccess]
          refine always_query hJ hw₁ fun now₂ => ?_
          have hw₂ := hJ _ n now₂ hw₁
          have hreply : Query.eval collation w.db (.userInTenant callerId tenantId) =
              (w.db.users.find callerId).filter fun user => (user.tenantId : ℤ) == tenantId := rfl
          dsimp only
          rw [hreply]
          cases hcaller : (w.db.users.find callerId).filter fun user =>
              (user.tenantId : ℤ) == tenantId with
          | none => exact hw₂
          | some user =>
              have hrow := (Table.find_eq_some.1 (Option.filter_eq_some_iff.1 hcaller).1).2
              have hdecoded : (platform.decode token).bind accessClaims =
                  some (callerId, tenantId, tokenVersion) := by
                rw [(Option.filter_eq_some_iff.1 hclaims).1, Option.bind_some, haccess]
              have hcallerOf : Users.callerOf platform w.db token = some user := by
                rw [Users.callerOf, hdecoded, Option.bind_some]
                exact hcaller
              dsimp only [Prog.ret_bind]
              split_ifs
              · exact hw₂
              · exact hw₂
              · rw [Prog.bind_assoc]
                refine always_assertActiveTenantMembership hJ hw₂ fun now₃ htenant => ?_
                rw [Prog.bind_assoc]
                exact always_assertRequestedTenant hJ (hJ _ n now₃ hw₂) fun now₄ =>
                  h user now₄ ⟨hcallerOf, hrow, htenant⟩

lemma always_requirePermission (hJ : ClockFree J) {permissions : List Permission}
    {f : User → AppProg K α} (hw : J (w, n))
    (h : ∀ caller now, IsCaller platform w.db token caller →
      AlwaysFaulty platform collation G J post (f caller) { w with clock := now } n) :
    AlwaysFaulty platform collation G J post
      ((requirePermission permissions token requestedSlug).bind f) w n := by
  unfold requirePermission
  rw [Prog.bind_def, Prog.bind_assoc]
  refine always_getCurrentUser hJ hw fun caller now hcaller => ?_
  split_ifs
  · exact h caller now hcaller
  · exact hJ w n now hw

/-- A user of the caller's tenant; the session has not loaded another row for it. -/
lemma always_getUserById (hJ : ClockFree J) {caller : User} {userId : ℤ} {f : Option User → AppProg K α}
    (hcaller : IsCaller platform w.db token caller) (hw : J (w, n))
    (hnone : ∀ now, (∀ user ∈ w.db.users.find userId, user.tenantId ≠ caller.tenantId) →
      AlwaysFaulty platform collation G J post (f none) { w with clock := now } n)
    (hsome : ∀ user now, w.db.users.find userId = some user → user.tenantId = caller.tenantId →
      loadedUser caller user = user →
      AlwaysFaulty platform collation G J post (f (some user)) { w with clock := now } n) :
    AlwaysFaulty platform collation G J post ((getUserById userId caller.tenantId).bind f) w n := by
  refine always_query hJ hw fun now => ?_
  have hreply : Query.eval collation w.db (.userInTenant userId caller.tenantId) =
      (w.db.users.find userId).filter fun user => (user.tenantId : ℤ) == caller.tenantId := rfl
  rw [hreply]
  cases hrow : (w.db.users.find userId).filter fun user =>
      (user.tenantId : ℤ) == caller.tenantId with
  | none =>
      refine hnone now fun user hfind htenant => ?_
      rw [Option.mem_def.1 hfind, Option.filter_some, htenant] at hrow
      simp at hrow
  | some user =>
      obtain ⟨hfind, htenant⟩ := Option.filter_eq_some_iff.1 hrow
      refine hsome user now hfind (by simpa using htenant) ?_
      unfold loadedUser
      split_ifs with hsame
      · have huser := (Table.find_eq_some.1 hfind).2
        have huser' : w.db.users.row user.id = some user := huser
        rw [hsame, hcaller.row] at huser'
        exact Option.some.inj huser'
      · rfl

namespace AdminMutation

variable {m : AdminMutation} {caller user : User} {w₀ : World K}

omit [Field K] [FloorRing K] in
lemma clockFree_atPoint : ClockFree (K := K) fun x => m.AtPoint platform token w₀ x.1 :=
  fun _ _ _ hw => hw

/-- The texts of the versions are numbers. -/
def VersionsCount {K : Type} (keys : Redis.Keys K) : Prop :=
  ∀ tenantId entry, keys (buildUsersListCacheVersionKey tenantId) = some entry →
    (PyText.parseInt entry.value).isSome

omit [Field K] [FloorRing K] in
lemma isSome_incr {keys : Redis.Keys K} (hkeys : VersionsCount keys) (now : K) (lingers : Bool)
    (tenantId : ℕ) :
    (keys.incr now lingers (buildUsersListCacheVersionKey tenantId)).isSome := by
  rcases hentry : keys.entry now lingers (buildUsersListCacheVersionKey tenantId) with _ | entry
  · simp [Redis.Keys.incr, hentry]
  · have hrow := (Option.filter_eq_some_iff.1 hentry).1
    simpa [Redis.Keys.incr, hentry] using hkeys tenantId entry hrow

/-- What an `INCR` does to the keys, if Redis is available and the text is a number. -/
lemma exec_redisIncr (platform : Platform) (collation : Collation) (e : Env K) (w : World K)
    (key : String) :
    let w' := ((Command.redisIncr key).exec platform collation e w).2
    (w'.keys = w.keys ∨ ∃ n, w.keys.incr e.now e.lingers key = some (n, w'.keys)) ∧
      (e.redisFails = false → (w.keys.incr e.now e.lingers key).isSome →
        ∃ n, w.keys.incr e.now e.lingers key = some (n, w'.keys)) := by
  rcases hincr : w.keys.incr e.now e.lingers key with _ | ⟨n, keys'⟩
  · simp [Command.exec, hincr]
  · by_cases hfails : e.redisFails = true <;> simp [Command.exec, hincr, unlessFails, hfails]

/-- What holds after a call that returns. -/
abbrev Returned (platform : Platform) (token : String) (G : Env K → Prop) (m : AdminMutation)
    (w₀ : World K) (w' : World K) : Prop :=
  m.Committed platform token w₀.db w'.db ∧
    ((∀ e, G e → e.redisFails = false) → VersionsCount w₀.keys →
      Invalidated platform token w₀.db w₀.keys w'.keys)

/-- **The shared end of the calls**: the commit, and after it the cache. -/
lemma always_commitUserMutationWithAudit {statements : List (Statement K)}
    {f : Unit → AppProg K α} (hcaller : IsCaller platform w₀.db token caller)
    (hfind : w₀.db.users.find m.userId = some user) (htenant : user.tenantId = caller.tenantId)
    (hchanged : ∀ gap now id db, transaction gap now statements none w₀.db = some (id, db) →
      m.Changed user w₀.db db)
    (hf : ∀ (w' : World K) n', m.AtPoint platform token w₀ w' → m.Returned platform token G w₀ w' →
      AlwaysFaulty platform collation G (fun x => m.AtPoint platform token w₀ x.1) post (f ()) w' n')
    (hdb : w.db = w₀.db) (hkeys : w.keys = w₀.keys) :
    AlwaysFaulty platform collation G (fun x => m.AtPoint platform token w₀ x.1) post
      ((commitUserMutationWithAudit statements caller m.action user.id).bind f) w n := by
  unfold commitUserMutationWithAudit
  rw [Prog.bind_def, Prog.bind_assoc]
  refine always_commit clockFree_atPoint (.inl ⟨hdb, hkeys⟩) fun gap databaseNow id db now hcommit => ?_
  rw [hdb] at hcommit
  have hcommitted : m.Committed platform token w₀.db db :=
    ⟨caller, user, hcaller.callerOf, hfind, htenant,
      done_of_changed (hchanged gap databaseNow) hcommit⟩
  refine ⟨.inr ⟨hcommitted, .inl hkeys⟩, ?_⟩
  refine always_read (fun _ hc => by cases hc) (.inr ⟨hcommitted, .inl hkeys⟩) fun e he => ?_
  let w₁ : World K := { w with db, clock := now }
  have hdb₂ : ((Command.redisIncr (buildUsersListCacheVersionKey caller.tenantId)).exec platform
      collation e w₁).2.db = db := Command.db_exec (w := w₁) fun _ hc => by cases hc
  obtain ⟨hcases, havailable⟩ := exec_redisIncr platform collation e w₁
    (buildUsersListCacheVersionKey caller.tenantId)
  have hinvalidated : ∀ {keys'}, (∃ version, w₁.keys.incr e.now e.lingers
      (buildUsersListCacheVersionKey caller.tenantId) = some (version, keys')) →
      Invalidated platform token w₀.db w₀.keys keys' := by
    rintro keys' ⟨version, hincr⟩
    exact ⟨caller, e.now, e.lingers, version, hcaller.callerOf, hkeys ▸ hincr⟩
  have hpoint := hcases.imp (fun hsame => hsame.trans hkeys) hinvalidated
  refine ⟨.inr ⟨hdb₂.symm ▸ hcommitted, hpoint⟩, hf _ _ (.inr ⟨hdb₂.symm ▸ hcommitted, hpoint⟩)
    ⟨hdb₂.symm ▸ hcommitted, fun hG hcount => ?_⟩⟩
  · have hsome := isSome_incr hcount e.now e.lingers caller.tenantId
    rw [← hkeys] at hsome
    exact hinvalidated (havailable (hG e he) hsome)

/-- The end of a call that returns the user. -/
lemma always_refreshUser {userId : ℕ} (h : m.Returned platform token G w₀ w)
    (hw : m.AtPoint platform token w₀ w) :
    AlwaysFaulty platform collation G (fun x => m.AtPoint platform token w₀ x.1)
      (fun _ x => m.Returned platform token G w₀ x.1)
      ((refreshUser userId).bind fun _ => .ret ()) w n := by
  refine always_query clockFree_atPoint hw fun now => ?_
  show AlwaysFaulty _ _ _ _ _
    ((orUnhandled (Query.eval collation w.db (.user userId))).bind fun _ => .ret ()) _ n
  rcases Query.eval collation w.db (.user userId) with _ | user
  · exact hw
  · exact ⟨hw, h⟩

/-- The end of a call that found a user. -/
lemma always_commitFoundUser {statements : List (Statement K)}
    (hcaller : IsCaller platform w₀.db token caller)
    (hfind : w₀.db.users.find m.userId = some user) (htenant : user.tenantId = caller.tenantId)
    (hchanged : ∀ gap now id db, transaction gap now statements none w₀.db = some (id, db) →
      m.Changed user w₀.db db) (hdb : w.db = w₀.db) (hkeys : w.keys = w₀.keys) :
    AlwaysFaulty platform collation G (fun x => m.AtPoint platform token w₀ x.1)
      (fun _ x => m.Returned platform token G w₀ x.1)
      ((do
        commitUserMutationWithAudit statements caller m.action user.id
        refreshUser user.id : AppProg K User).bind fun _ => .ret ()) w n := by
  rw [Prog.bind_def, Prog.bind_assoc]
  exact always_commitUserMutationWithAudit hcaller hfind htenant hchanged
    (fun w' n' hw' h => always_refreshUser h hw') hdb hkeys

omit [Field K] [FloorRing K] in
/-- A call that has only read. -/
lemma atPoint_start (now : K) : m.AtPoint platform token w { w with clock := now } := .inl ⟨rfl, rfl⟩

variable (platform collation G token w n) in
/-- Every point of a call satisfies `AtPoint`, and it returns as it should. -/
abbrev Sound (m : AdminMutation) (p : AppProg K Unit) : Prop :=
  AlwaysFaulty platform collation G (fun x => m.AtPoint platform token w x.1)
    (fun _ x => m.Returned platform token G w x.1) p w n

lemma sound_patchUser (userId : ℤ) (update : UserAdminUpdate)
    (hadmin : ∀ caller, callerOf platform w.db token = some caller →
      userHasPermission caller .usersUpdate = true) :
    Sound platform collation G w n token (.patch userId update)
      ((patchUser token requestedSlug userId update).bind fun _ => .ret ()) := by
  unfold patchUser
  rw [Prog.bind_def, Prog.bind_assoc]
  refine always_getCurrentUser clockFree_atPoint (.inl ⟨rfl, rfl⟩) fun caller now hcaller => ?_
  rw [Prog.bind_def, Prog.bind_assoc]
  refine always_getUserById clockFree_atPoint hcaller (atPoint_start now)
    (fun now' _ => atPoint_start now') fun user now' hfind htenant hloaded => ?_
  dsimp only
  rw [hloaded]
  split_ifs
  · have huser : w.db.users.row user.id = some user := (Table.find_eq_some.1 hfind).2
    unfold patchLoadedUser
    rw [if_pos (hadmin caller hcaller.callerOf)]
    exact always_commitFoundUser (m := .patch userId update) hcaller hfind htenant
      (fun gap now id db h => changed_of_flushUser rfl huser (fun updated => mutated_patch) h) rfl rfl
  · exact atPoint_start now'

lemma sound_deactivateUserEndpoint (userId : ℤ) :
    Sound platform collation G w n token (.deactivate userId)
      ((deactivateUserEndpoint token requestedSlug userId).bind fun _ => .ret ()) := by
  unfold deactivateUserEndpoint deactivateUser getLoadedUser
  rw [Prog.bind_def, Prog.bind_assoc]
  refine always_requirePermission clockFree_atPoint (.inl ⟨rfl, rfl⟩) fun caller now hcaller => ?_
  simp only [Prog.bind_def, Prog.bind_assoc]
  refine always_getUserById clockFree_atPoint hcaller (atPoint_start now)
    (fun now' _ => atPoint_start now') fun user now' hfind htenant hloaded => ?_
  have huser : w.db.users.row user.id = some user := (Table.find_eq_some.1 hfind).2
  simp only [Prog.pure_def, Prog.ret_bind, Option.map_some, hloaded]
  exact always_commitFoundUser (m := .deactivate userId) hcaller hfind htenant
    (fun gap now id db h => changed_of_flushUser rfl huser (fun updated => mutated_deactivate) h)
    rfl rfl

lemma sound_activateUserEndpoint (userId : ℤ) :
    Sound platform collation G w n token (.activate userId)
      ((activateUserEndpoint token requestedSlug userId).bind fun _ => .ret ()) := by
  unfold activateUserEndpoint activateUser getLoadedUser
  rw [Prog.bind_def, Prog.bind_assoc]
  refine always_requirePermission clockFree_atPoint (.inl ⟨rfl, rfl⟩) fun caller now hcaller => ?_
  simp only [Prog.bind_def, Prog.bind_assoc]
  refine always_getUserById clockFree_atPoint hcaller (atPoint_start now)
    (fun now' _ => atPoint_start now') fun user now' hfind htenant hloaded => ?_
  have huser : w.db.users.row user.id = some user := (Table.find_eq_some.1 hfind).2
  simp only [Prog.pure_def, Prog.ret_bind, Option.map_some, hloaded]
  exact always_commitFoundUser (m := .activate userId) hcaller hfind htenant
    (fun gap now id db h => changed_of_flushUser rfl huser (fun updated => mutated_activate) h)
    rfl rfl

lemma sound_removeUser (userId : ℤ) :
    Sound platform collation G w n token (.remove userId) (removeUser token requestedSlug userId) := by
  unfold removeUser getLoadedUser
  rw [Prog.bind_def]
  refine always_requirePermission clockFree_atPoint (.inl ⟨rfl, rfl⟩) fun caller now hcaller => ?_
  simp only [Prog.bind_def, Prog.bind_assoc]
  refine always_getUserById clockFree_atPoint hcaller (atPoint_start now)
    (fun now' _ => atPoint_start now') fun user now' hfind htenant hloaded => ?_
  simp only [Prog.pure_def, Prog.ret_bind, Option.map_some, hloaded]
  rw [← Prog.bind_ret (commitUserMutationWithAudit _ _ _ _)]
  exact always_commitUserMutationWithAudit (m := .remove userId) hcaller hfind htenant
    (fun gap now id db h => changed_of_deleteUser h) (fun w' n' hw' h => ⟨hw', h⟩) rfl rfl

/-- **Every point of a call.** -/
theorem sound_handler (m : AdminMutation) (hadmin : ∀ caller, callerOf platform w.db token = some caller →
    userHasPermission caller .usersUpdate = true) :
    Sound platform collation G w n token m (m.handler token requestedSlug) := by
  cases m with
  | patch userId update => exact sound_patchUser userId update hadmin
  | deactivate userId => exact sound_deactivateUserEndpoint userId
  | activate userId => exact sound_activateUserEndpoint userId
  | remove userId => exact sound_removeUser userId

/-- **A change and its entry are committed together, or not at all.**  A call of an administrator
can stop after any of its queries, flushes and commands, or raise an exception there: the database
has the whole change and one entry for it, and the cache was not touched before, or both are as
before.  A call that returns has made the change, and has invalidated the cache, if Redis was
available. -/
theorem admin_mutation_atomic {m : AdminMutation} {inputs : List (Option (Env K))}
    {p : SessionProg K Unit} {s : Session K}
    (hadmin : ∀ caller, callerOf platform w.db token = some caller →
      userHasPermission caller .usersUpdate = true)
    (hversions : VersionsCount w.keys)
    (h : (flushed (m.handler token requestedSlug)).advance (faultySession platform collation) inputs
      ⟨w, [], 0⟩ = some (p, s)) :
    ((s.world.db = w.db ∧ s.world.keys = w.keys) ∨
      m.Committed platform token w.db s.world.db ∧
        (s.world.keys = w.keys ∨ Invalidated platform token w.db w.keys s.world.keys)) ∧
    (p = .ret () → m.Committed platform token w.db s.world.db ∧
      ((∀ e, some e ∈ inputs → e.redisFails = false) →
        Invalidated platform token w.db w.keys s.world.keys)) := by
  have hsound : Sound platform collation (fun e => some e ∈ inputs) w 0 token m
      (m.handler token requestedSlug) := sound_handler m hadmin
  have hinputs : ∀ e ∈ inputs, ∀ e' ∈ e, some e' ∈ inputs := by
    rintro e he e' rfl
    exact he
  have hend := (always_flushed clockFree_atPoint hsound).advance hinputs h
  refine ⟨hend.point, ?_⟩
  rintro rfl
  obtain ⟨-, hcommitted, hinvalidated⟩ := hend
  exact ⟨hcommitted, fun havailable => hinvalidated havailable hversions⟩

end AdminMutation

end Calls

/-! ### An administrator deactivates a user -/

/-- A tenant with an administrator and a user. -/
def adminAndUser : World ℚ :=
  { World.oneUser with
    db := { Database.empty with
      tenants := Database.oneUser.tenants
      users := (Table.empty.insert 1 (fun id =>
        ⟨id, 1, "ada@example.com", "", true, "admin", 0⟩) fun _ => rfl).insert 0 (fun id =>
        ⟨id, 1, "eve@example.com", "", true, "user", 0⟩) fun _ => rfl } }

/-- The access token of the administrator. -/
def adminToken : String :=
  Platform.plain.encode ⟨some "access", some "1", some 1, some 0, some 1800, some "0"⟩

lemma callerOf_adminToken {caller : User}
    (h : callerOf Platform.plain adminAndUser.db adminToken = some caller) :
    caller = ⟨1, 1, "ada@example.com", "", true, "admin", 0⟩ := by
  have hcaller : callerOf Platform.plain adminAndUser.db adminToken =
      some ⟨1, 1, "ada@example.com", "", true, "admin", 0⟩ := by
    decide +kernel
  exact Option.some.inj (h.symm.trans hcaller)

/-- The call, with one input for each command. -/
def deactivateEve (inputs : List (Option (Env ℚ))) : Option (SessionProg ℚ Unit × Session ℚ) :=
  (flushed ((AdminMutation.deactivate 2).handler adminToken none)).advance
    (faultySession Platform.plain Collation.plain) inputs ⟨adminAndUser, [], 0⟩

/-- The program has returned. -/
def isReturned : SessionProg ℚ Unit → Bool
  | .ret () => true
  | _ => false

/-- A call that is not interrupted. -/
theorem admin_mutation_atomic_deactivateEve : ∃ s : Session ℚ,
    deactivateEve (List.replicate 9 (some (Env.calm 0))) = some (.ret (), s) ∧
      (AdminMutation.deactivate 2).Committed Platform.plain adminToken adminAndUser.db s.world.db ∧
      AdminMutation.Invalidated Platform.plain adminToken adminAndUser.db adminAndUser.keys
        s.world.keys := by
  have hrun : (deactivateEve (List.replicate 9 (some (Env.calm 0)))).any
      (fun x => isReturned x.1) = true := by
    decide +kernel
  obtain ⟨⟨p, s⟩, h, hreturned⟩ := (Option.any_eq_true _ _).1 hrun
  cases p with
  | raise x => cases hreturned
  | call c k => cases hreturned
  | ret a =>
      obtain ⟨hcommitted, hinvalidated⟩ := (AdminMutation.admin_mutation_atomic
        (fun caller hcaller => by rw [callerOf_adminToken hcaller]; decide)
        (fun tenantId entry hentry => by cases hentry) h).2 rfl
      refine ⟨s, h, hcommitted, hinvalidated fun e he => ?_⟩
      rw [Option.some.inj (List.eq_of_mem_replicate he)]
      rfl

end StarterBackend.Users

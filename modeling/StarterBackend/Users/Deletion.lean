/-
The deletion of users.

The audit log refers to the administrator of each of its entries, by a foreign key without
a rule for deletions, and the deletion writes an entry of its own, after it has deleted the
user and in the same transaction.  So a user who has ever acted as an administrator cannot
be deleted, and nobody can delete himself: the `IntegrityError` is not handled
(`deletion_answered_iff`).
-/
import StarterBackend.Users.Mutations

namespace StarterBackend.Users

open Lib App

/-- The user was removed, with what belongs to it and one entry for it in the audit log; or the client
has made an error, and nothing was changed. -/
def DeletionAnswered {K : Type} (platform : Platform) (token : String) (userId : ℤ)
    (db db' : Database K) : Response Unit → Prop
  | .ok () => (AdminMutation.remove userId).Committed platform token db db'
  | .error (.http status _) => 400 ≤ status ∧ status < 500 ∧ db' = db
  | .error .unhandled => False

/-- No entry of the audit log is about something that the user did, and the user is not the one who
asks. -/
def Removable {K : Type} (db : Database K) (caller user : User) : Prop :=
  user.id ≠ caller.id ∧ ∀ log, db.auditLogs.row log.id = some log → log.adminId ≠ some user.id

section Deletion

variable {K : Type} [LinearOrder K] {gap : ℕ} {now : K} {db : Database K} {caller user : User}

/-- **The transaction of a deletion** violates no constraint when the user can be removed, and only
then. -/
lemma transaction_deletion_isSome (hcaller : db.users.row caller.id = some caller)
    (htenant : (db.tenants.row caller.tenantId).isSome) :
    (transaction gap now (deleteUser user ++ [auditEntry caller .userDeleted user.id]) none
      db).isSome ↔ Removable db caller user := by
  have hlogs : (db.auditLogs.toList.any fun log => log.adminId == some user.id) = false ↔
      ∀ log, db.auditLogs.row log.id = some log → log.adminId ≠ some user.id := by
    simp only [List.any_eq_false, Table.mem_toList, beq_iff_eq]
    rfl
  rw [transaction_append, deleteUser, transaction_singleton, Removable, ← hlogs]
  by_cases hlog : (db.auditLogs.toList.any fun log => log.adminId == some user.id) = true
  · simp [Statement.exec, hlog]
  · rw [Bool.not_eq_true] at hlog
    have hrow : (db.users.restrict fun u => u.id != user.id).row caller.id =
        if caller.id = user.id then none else some caller := by
      rw [Table.row_restrict, hcaller]
      by_cases hself : caller.id = user.id <;> simp [Option.filter, hself]
    have hsome : db.tenants.row caller.tenantId ≠ none := Option.isSome_iff_ne_none.1 htenant
    -- the entry refers to the caller, whose row may just have been deleted
    simp only [Statement.exec, hlog, Bool.false_eq_true, if_false, Option.bind_some,
      transaction_singleton, auditEntry, Option.any_some, hrow, and_true, ne_comm (a := user.id)]
    by_cases hself : caller.id = user.id <;> simp [hself, hsome]

end Deletion

/-! ### The call -/

section Call

variable {K : Type} [Field K] [LinearOrder K] [FloorRing K] {platform : Platform}
  {collation : Collation} {token : String} {requestedSlug : Option String} {userId : ℤ}
  {caller user : User} {w : World K} {n : ℕ}

/-- What `remove_user` does for a caller who may delete users. -/
def removeFoundUser (caller : User) : Option User → AppProg K Unit
  | none => .raise (.notFound "User not found")
  | some user => commitUserMutationWithAudit (deleteUser user) caller .userDeleted user.id

omit [Field K] [LinearOrder K] [FloorRing K] in
lemma removeUser_eq (token : String) (requestedSlug : Option String) (userId : ℤ) :
    (removeUser token requestedSlug userId : AppProg K Unit) =
      (requirePermission [.usersDelete] token requestedSlug).bind fun caller =>
        (getUserById userId caller.tenantId).bind fun row =>
          removeFoundUser caller (row.map (loadedUser caller)) := by
  unfold removeUser getLoadedUser
  simp only [Prog.bind_def, Prog.bind_assoc, Prog.pure_def, Prog.ret_bind]
  rfl

/-- The end of a deletion: it is answered as it should be when the user can be removed. -/
lemma always_removeFoundUser (hcaller : IsCaller platform w.db token caller)
    (hfind : w.db.users.find userId = some user) (htenant : user.tenantId = caller.tenantId) :
    AlwaysFaulty platform collation (fun _ => True) (fun _ => True)
      (fun r x => DeletionAnswered platform token userId w.db x.1.db r ↔ Removable w.db caller user)
      (removeFoundUser caller (some user)).attempt w n := by
  refine always_call trivial fun e _ => ⟨trivial, ?_⟩
  have hiff : (transaction e.gap e.databaseNow
      (deleteUser user ++ [auditEntry caller .userDeleted user.id]) none w.db).isSome ↔
      Removable w.db caller user := transaction_deletion_isSome hcaller.row hcaller.tenant
  rcases htransaction : transaction e.gap e.databaseNow
      (deleteUser user ++ [auditEntry caller .userDeleted user.id]) none w.db with _ | ⟨id, db⟩
  · rw [Command.exec_commit_of_none htransaction]
    rw [htransaction] at hiff
    exact ⟨trivial, iff_of_false id fun hremovable => by simpa using hiff.2 hremovable⟩
  · rw [Command.exec_commit_of_some htransaction]
    rw [htransaction] at hiff
    have hcommitted : (AdminMutation.remove userId).Committed platform token w.db db :=
      ⟨caller, user, hcaller.callerOf, hfind, htenant, AdminMutation.done_of_changed
        (m := .remove userId) (fun _ _ h => AdminMutation.changed_of_deleteUser h) htransaction⟩
    refine always_read (fun _ hc => by cases hc) trivial fun e' _ => ⟨trivial, trivial, ?_⟩
    have hdb : ((Command.redisIncr (buildUsersListCacheVersionKey caller.tenantId)).exec platform
        collation e' { w with db, clock := e.now }).2.db = db :=
      Command.db_exec (w := { w with db, clock := e.now }) fun _ hc => by cases hc
    exact iff_of_true (hdb.symm ▸ hcommitted) (hiff.1 rfl)

/-- **A user of the tenant is deleted, or the client is told why not, exactly when the user can be
removed.**  The caller is the one whom the request's token and its permission stand for. -/
theorem deletion_answered_iff {inputs inputs' : List (Option (Env K))} {x x' : World K × ℕ}
    {r : Response Unit}
    (hcaller : (requirePermission [.usersDelete] token requestedSlug).advance
      (faulty platform collation) inputs (w, 0) = some (.ret caller, x))
    (hfind : w.db.users.find userId = some user) (htenant : user.tenantId = caller.tenantId)
    (h : (respond (removeUser token requestedSlug userId)).advance (faulty platform collation)
      (inputs ++ inputs') (w, 0) = some (.ret r, x')) :
    DeletionAnswered platform token userId w.db x'.1.db r ↔ Removable w.db caller user := by
  obtain ⟨w₁, n₁⟩ := x
  -- the dependency has only read
  have hauth : AlwaysFaulty platform collation (fun _ => True) (fun x => x.1.db = w.db)
      (fun caller _ => IsCaller platform w.db token caller)
      (requirePermission [.usersDelete] token requestedSlug) w 0 := by
    rw [← Prog.bind_ret (requirePermission _ _ _)]
    exact always_requirePermission (fun _ _ _ hdb => hdb) rfl fun caller now hcaller => ⟨rfl, hcaller⟩
  obtain ⟨hdb, hiscaller⟩ : w₁.db = w.db ∧ IsCaller platform w.db token caller :=
    hauth.advance (fun _ _ _ _ => trivial) hcaller
  rw [respond, removeUser_eq, Prog.attempt_bind, Prog.advance_bind (Prog.advance_attempt hcaller)] at h
  have hrest : AlwaysFaulty platform collation (fun _ => True) (fun _ => True)
      (fun r x => DeletionAnswered platform token userId w.db x.1.db r ↔ Removable w.db caller user)
      ((getUserById userId caller.tenantId).bind fun row =>
        (removeFoundUser caller (row.map (loadedUser caller))).attempt) w₁ n₁ := by
    rw [← hdb] at hiscaller hfind ⊢
    refine always_getUserById (fun _ _ _ _ => trivial) hiscaller trivial
      (fun now hnone => absurd htenant (hnone user hfind)) fun found now hfound _ hloaded => ?_
    obtain rfl := Option.some.inj (hfind.symm.trans hfound)
    rw [Option.map_some, hloaded]
    exact always_removeFoundUser hiscaller hfind htenant
  exact (hrest.advance (fun _ _ _ _ => trivial) h).2

end Call

/-! ### Another user, and oneself -/

/-- The administrator is authenticated. -/
def authenticateAdmin : Option (AppProg ℚ User × World ℚ × ℕ) :=
  (requirePermission [.usersDelete] adminToken none).advance
    (faulty Platform.plain Collation.plain) (List.replicate 3 (some (Env.calm 0))) (adminAndUser, 0)

/-- The administrator deletes a user, with one input for each command. -/
def deleteByAdmin (userId : ℤ) (commands : ℕ) :
    Option (AppProg ℚ (Response Unit) × World ℚ × ℕ) :=
  (respond (removeUser adminToken none userId)).advance (faulty Platform.plain Collation.plain)
    (List.replicate 3 (some (Env.calm 0)) ++ List.replicate commands (some (Env.calm 0)))
    (adminAndUser, 0)

/-- The caller that was authenticated. -/
def returnedUser : AppProg ℚ User → Option User
  | .ret user => some user
  | _ => none

/-- The response, if there is one, is this. -/
def isResponse (unhandled : Bool) : AppProg ℚ (Response Unit) → Bool
  | .ret (.ok ()) => !unhandled
  | .ret (.error .unhandled) => unhandled
  | _ => false

theorem deletion_answered_iff_eve : ∃ (r : Response Unit) (x' : World ℚ × ℕ),
    deleteByAdmin 2 3 = some (.ret r, x') ∧
      DeletionAnswered Platform.plain adminToken 2 adminAndUser.db x'.1.db r := by
  have hauth : authenticateAdmin.any (fun x => returnedUser x.1 ==
      some ⟨1, 1, "ada@example.com", "", true, "admin", 0⟩) = true := by
    decide +kernel
  have hrun : (deleteByAdmin 2 3).any (fun x => isResponse false x.1) = true := by decide +kernel
  obtain ⟨⟨p, x⟩, hcaller, hp⟩ := (Option.any_eq_true _ _).1 hauth
  obtain ⟨⟨q, x'⟩, h, hq⟩ := (Option.any_eq_true _ _).1 hrun
  cases p with
  | raise y => cases hp
  | call c k => cases hp
  | ret caller =>
      obtain rfl := Option.some.inj (beq_iff_eq.1 hp)
      cases q with
      | raise y => cases hq
      | call c k => cases hq
      | ret r =>
          have hremovable : Removable adminAndUser.db ⟨1, 1, "ada@example.com", "", true, "admin", 0⟩
              ⟨2, 1, "eve@example.com", "", true, "user", 0⟩ :=
            ⟨by decide, fun log hlog => by cases hlog⟩
          have hiff := deletion_answered_iff hcaller
            (show adminAndUser.db.users.find 2 =
              some ⟨2, 1, "eve@example.com", "", true, "user", 0⟩ by decide +kernel) rfl h
          exact ⟨r, x', h, hiff.2 hremovable⟩

/-- An administrator who deletes himself gets the status 500. -/
theorem own_deletion_unhandled :
    authenticateAdmin.any (fun x => returnedUser x.1 ==
      some ⟨1, 1, "ada@example.com", "", true, "admin", 0⟩) = true ∧
    adminAndUser.db.users.find 1 = some ⟨1, 1, "ada@example.com", "", true, "admin", 0⟩ ∧
    ∃ (r : Response Unit) (x' : World ℚ × ℕ), deleteByAdmin 1 2 = some (.ret r, x') ∧
      ¬ DeletionAnswered Platform.plain adminToken 1 adminAndUser.db x'.1.db r := by
  have hrun : (deleteByAdmin 1 2).any (fun x => isResponse true x.1) = true := by decide +kernel
  obtain ⟨⟨q, x'⟩, h, hq⟩ := (Option.any_eq_true _ _).1 hrun
  refine ⟨by decide +kernel, by decide +kernel, ?_⟩
  cases q with
  | raise y => cases hq
  | call c k => cases hq
  | ret r =>
      rcases r with (_ | _) | _
      · cases hq
      · exact ⟨_, x', h, id⟩
      · cases hq

end StarterBackend.Users

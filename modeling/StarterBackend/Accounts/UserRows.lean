/-
What a request does to the row of a user.

Of all transactions only some touch the table of users, and what they do to one row is
said here once, with who did it (`RowStep`): a registration inserts it, an `UPDATE`
writes the changes that a request has computed from the row as it had read it, and an
administrator of the tenant deletes it.  Whatever happens, a key is never used again, and
a row stays in its tenant (`Later`).
-/
import StarterBackend.Accounts.Mediation

namespace StarterBackend.Accounts

open Lib App

/-! ### Keys and tenants -/

section Later

variable {K : Type}

/-- A later database: its users are those of the earlier one, in their tenants, and new ones. -/
abbrev Later (db db' : Database K) : Prop := db.users.Later User.tenantId db'.users

lemma later_of_users {db db' : Database K} (h : db'.users = db.users) : Later db db' := by
  rw [Later, h]
  exact .refl _

/-- The statement is about users. -/
def aboutUsers : Statement K → Bool
  | .insertUser _ _ _ => true
  | .updateUser _ _ => true
  | .deleteUser _ => true
  | _ => false

variable [LinearOrder K] {gap : ℕ} {now : K} {db db' : Database K} {id id' x : Option ℕ}
  {statement : Statement K} {statements : List (Statement K)}

/-- The other statements leave the users alone. -/
lemma users_exec (hstatement : aboutUsers statement = false)
    (h : statement.exec gap now db = some (x, db')) : db'.users = db.users := by
  cases statement with
  | insertUser | updateUser | deleteUser => cases hstatement
  | useResetTokens _ _ | deleteFile _ | deleteResetTokensBefore _ | deleteAuditLogsBefore _ =>
      obtain ⟨-, rfl⟩ := Prod.mk.inj (Option.some.inj h)
      rfl
  | _ =>
      simp only [Statement.exec] at h
      split_ifs at h
      obtain ⟨-, rfl⟩ := Prod.mk.inj (Option.some.inj h)
      rfl

lemma users_transaction (hstatements : ∀ statement ∈ statements, aboutUsers statement = false)
    (h : transaction gap now statements id db = some (id', db')) : db'.users = db.users :=
  transaction_invariant (I := fun db' => db'.users = db.users)
    (fun statement hmem _ _ _ hdb hexec => (users_exec (hstatements statement hmem) hexec).trans hdb) h
    rfl

/-- The row of a user that was deleted. -/
lemma row_restrict_users {users : Table User} {userId k : ℕ} :
    (users.restrict fun user => user.id != userId).row k =
      if k = userId then none else users.row k := by
  rw [Table.row_restrict]
  rcases hrow : users.row k with _ | user
  · split_ifs <;> rfl
  · have hid : user.id = k := users.id_of_row hrow
    by_cases hk : k = userId <;> simp [Option.filter, hid, hk]

/-- **No statement uses a key again, or moves a user to another tenant.** -/
lemma later_exec (h : statement.exec gap now db = some (x, db')) : Later db db' := by
  cases statement with
  | insertUser email hashedPassword tenantId =>
      simp only [Statement.exec] at h
      split_ifs at h
      obtain ⟨-, rfl⟩ := Prod.mk.inj (Option.some.inj h)
      refine .of_rows (by simp only [Table.next_insert]; omega) fun k hk => ?_
      rw [Table.row_insert, if_neg (by simp only [Table.freshId]; omega)]
  | updateUser userId changes =>
      obtain ⟨user, updated, huser, happly, -, rfl⟩ := exec_updateUser_eq_some h
      obtain ⟨hid, htenant, -⟩ := UserChanges.apply_eq_some happly
      obtain rfl : user.id = userId := db.users.id_of_row huser
      refine ⟨le_rfl, fun k hk user' huser' => ?_⟩
      rw [Database.row_setUser hid huser] at huser'
      split_ifs at huser' with heq
      · obtain rfl := Option.some.inj huser'
        exact ⟨user, heq ▸ huser, htenant⟩
      · exact ⟨user', huser', rfl⟩
  | deleteUser userId =>
      simp only [Statement.exec] at h
      split_ifs at h
      obtain ⟨-, rfl⟩ := Prod.mk.inj (Option.some.inj h)
      exact db.users.later_restrict
  | _ => exact later_of_users (users_exec rfl h)

lemma later_transaction (h : transaction gap now statements id db = some (id', db')) :
    Later db db' :=
  transaction_invariant (I := Later db)
    (fun _ _ _ _ _ hdb hexec => hdb.trans (later_exec hexec)) h (.refl db.users)

variable [Field K] [FloorRing K] {platform : Platform} {collation : Collation} {settings : Settings}
  {ι : Type} [DecidableEq ι]

/-- A relation between databases that every statement keeps to holds along every run. -/
lemma databases_run {R : Database K → Database K → Prop} (hrefl : ∀ db, R db db)
    (htrans : ∀ {db db' db''}, R db db' → R db' db'' → R db db'')
    (hexec : ∀ {gap now statement x db db'},
      Statement.exec gap now db statement = some (x, db') → R db db')
    {s t : Api settings ι K} {as : List (PoolAction ι (ApiRequest settings) (Env K))}
    (h : exec (Api.step platform collation settings) s as = some t) : R s.store.db t.store.db := by
  refine exec_relates (I := fun _ => True) (R := fun s t : Api settings ι K =>
    R s.store.db t.store.db) (fun _ _ _ _ _ => trivial) (fun s => hrefl _)
    (fun hst htu => htrans hst htu) (fun s a t _ hstep => ?_) trivial h
  rcases Pool.next_cases hstep with ⟨i, q, -, -, rfl⟩ |
    ⟨i, e, q, c, k, p', w', -, -, rfl, hcmd⟩ | ⟨i, q, p, -, -, rfl⟩
  · exact hrefl _
  · have hw' : w' = { (c.exec platform collation e s.store).2 with clock := e.now } := by
      rcases hcmd with ⟨err, hexec, -⟩ | ⟨r, hexec, -⟩ <;> exact (interp_eq_some hexec).2.2
    rw [hw']
    rcases Command.db_cases platform collation e s.store c with hdb | ⟨_, _, _, htransaction⟩
    · show R s.store.db (c.exec platform collation e s.store).2.db
      rw [hdb]
      exact hrefl _
    · exact transaction_invariant (I := R s.store.db)
        (fun _ _ _ _ _ hdb hstatement => htrans hdb (hexec hstatement)) htransaction (hrefl _)
  · exact hrefl _

/-- Along every run the databases are later and later. -/
lemma later_run {s t : Api settings ι K} {as : List (PoolAction ι (ApiRequest settings) (Env K))}
    (h : exec (Api.step platform collation settings) s as = some t) : Later s.store.db t.store.db :=
  databases_run (fun _ => .refl _) (fun hst htu => hst.trans htu) (fun hexec => later_exec hexec) h

end Later

/-! ### What is done to a row -/

section RowSteps

variable {K : Type} (platform : Platform) {settings : Settings}

/-- The changes that a request makes to the row of a user, as it has read it. -/
inductive Changes (x : Knowledge K) : ApiRequest settings → User → UserChanges → Prop
  | patch {token : String} {requestedSlug : Option String} {currentUser user : User} {userId : ℤ}
      {update : UserAdminUpdate} (named : Named platform token requestedSlug x currentUser)
      (permission : userHasPermission currentUser .usersUpdate = true) (read : user ∈ x.fresh)
      (target : (user.id : ℤ) = userId) (tenant : user.tenantId = currentUser.tenantId) :
      Changes x (.byUser token requestedSlug (.change (.patch userId update))) user
        (updateUserChanges user update)
  | patchSelf {token : String} {requestedSlug : Option String} {user : User} {userId : ℤ}
      {update : UserAdminUpdate} (named : Named platform token requestedSlug x user)
      (read : user ∈ x.fresh) (target : (user.id : ℤ) = userId) :
      Changes x (.byUser token requestedSlug (.change (.patch userId update))) user
        (updateUserChanges user update.selfUpdate)
  | deactivate {token : String} {requestedSlug : Option String} {currentUser user : User}
      {userId : ℤ} (named : Named platform token requestedSlug x currentUser)
      (permission : userHasPermission currentUser .usersDeactivate = true) (read : user ∈ x.fresh)
      (target : (user.id : ℤ) = userId) (tenant : user.tenantId = currentUser.tenantId) :
      Changes x (.byUser token requestedSlug (.change (.deactivate userId))) user
        (deactivateUserChanges user)
  | activate {token : String} {requestedSlug : Option String} {currentUser user : User} {userId : ℤ}
      (named : Named platform token requestedSlug x currentUser)
      (permission : userHasPermission currentUser .usersActivate = true) (read : user ∈ x.fresh)
      (target : (user.id : ℤ) = userId) (tenant : user.tenantId = currentUser.tenantId) :
      Changes x (.byUser token requestedSlug (.change (.activate userId))) user
        (activateUserChanges user)
  | confirmReset {token newPassword hashedPassword : String} {resetToken : PasswordResetToken K}
      {user : User} (presented : resetToken ∈ x.resetTokens)
      (hash : resetToken.tokenHash = platform.hashPasswordResetToken token)
      (unused : resetToken.usedAt = none) (read : user ∈ x.fresh)
      (target : user.id = resetToken.userId) :
      Changes x (.confirmReset token newPassword) user
        (confirmPasswordResetChanges user hashedPassword)

/-- **The transactions that a request commits**, by what they do to the table of users: at most one
statement is about it, and comes first. -/
inductive UserStatements (x : Knowledge K) (q : ApiRequest settings) : List (Statement K) → Prop
  | other {statements : List (Statement K)}
      (others : ∀ statement ∈ statements, aboutUsers statement = false) :
      UserStatements x q statements
  | insert {email password hashedPassword : String} {requestedSlug : Option String} {tenantId : ℕ}
      (request : q = .register email password requestedSlug) :
      UserStatements x q [.insertUser email hashedPassword tenantId]
  | update {user : User} {changes : UserChanges} {rest : List (Statement K)}
      (change : Changes platform x q user changes)
      (others : ∀ statement ∈ rest, aboutUsers statement = false) :
      UserStatements x q (.updateUser user.id changes :: rest)
  | delete {token : String} {requestedSlug : Option String} {currentUser user : User} {userId : ℤ}
      {rest : List (Statement K)}
      (request : q = .byUser token requestedSlug (.change (.remove userId)))
      (named : Named platform token requestedSlug x currentUser)
      (permission : userHasPermission currentUser .usersDelete = true) (read : user ∈ x.fresh)
      (tenant : user.tenantId = currentUser.tenantId)
      (others : ∀ statement ∈ rest, aboutUsers statement = false) :
      UserStatements x q (.deleteUser user.id :: rest)

/-- What the commit of a request does to the row of one user, and by what right. -/
inductive RowStep (x : Knowledge K) (q : ApiRequest settings) (statements : List (Statement K))
    (db : Database K) (k : ℕ) : Option User → Prop
  | keep (others : ∀ changes, .updateUser k changes ∉ statements) :
      RowStep x q statements db k (db.users.row k)
  | insert {email password hashedPassword : String} {requestedSlug : Option String} {tenantId : ℕ}
      (request : q = .register email password requestedSlug) (fresh : db.users.next ≤ k) :
      RowStep x q statements db k
        (some ⟨k, tenantId, email, hashedPassword, true, UserRole.user.value, 0⟩)
  | update {user row updated : User} {changes : UserChanges}
      (change : Changes platform x q user changes) (target : user.id = k)
      (only : ∀ changes', .updateUser k changes' ∈ statements ↔ changes' = changes)
      (before : db.users.row k = some row) (after : changes.apply row = some updated) :
      RowStep x q statements db k (some updated)
  | delete {token : String} {requestedSlug : Option String} {currentUser user : User} {userId : ℤ}
      (request : q = .byUser token requestedSlug (.change (.remove userId)))
      (named : Named platform token requestedSlug x currentUser)
      (permission : userHasPermission currentUser .usersDelete = true) (read : user ∈ x.fresh)
      (target : user.id = k) (tenant : user.tenantId = currentUser.tenantId) :
      RowStep x q statements db k none

variable {platform} {gap : ℕ} {now : K} {db db' : Database K} {id : Option ℕ} {x : Knowledge K}
  {q : ApiRequest settings} {statements : List (Statement K)} {user : User} {changes : UserChanges}

/-- The version that a request writes is the next one of the row that it has read. -/
lemma Changes.version {version : ℤ} (h : Changes platform x q user changes) (hversion : changes.tokenVersion = some version) :
    user ∈ x.fresh ∧ version = user.tokenVersion + 1 := by
  have hpatch : ∀ {update : UserAdminUpdate},
      (updateUserChanges user update).tokenVersion = some version → version = user.tokenVersion + 1 := by
    intro update h
    simp only [updateUserChanges] at h
    split_ifs at h
    exact (Option.some.inj h).symm
  cases h with
  | patch named permission read target tenant => exact ⟨read, hpatch hversion⟩
  | patchSelf named read target => exact ⟨read, hpatch hversion⟩
  | deactivate named permission read target tenant => exact ⟨read, (Option.some.inj hversion).symm⟩
  | activate named permission read target tenant => cases hversion
  | confirmReset presented hash unused read target => exact ⟨read, (Option.some.inj hversion).symm⟩

/-- The changes of the row of a user, before other statements. -/
lemma userStatements_flush {rest : List (Statement K)} (hchange : Changes platform x q user changes)
    (hrest : ∀ statement ∈ rest, aboutUsers statement = false) :
    UserStatements platform x q (flushUser user changes ++ rest) := by
  unfold flushUser
  split_ifs
  · exact .other hrest
  · exact .update hchange hrest

/-- **Inversion of a grant.** -/
theorem userStatements_of_granted (hc : Granted platform settings x q (.commit statements)) :
    UserStatements platform x q statements := by
  have hone : ∀ {statement : Statement K}, aboutUsers statement = false →
      ∀ statement' ∈ [statement], aboutUsers statement' = false := by
    intro statement h statement' hmem
    rw [List.mem_singleton.1 hmem]
    exact h
  cases hc with
  | reads hacts => cases hacts
  | register enabled read slug isActive => exact .insert rfl
  | requestResetAudit | confirmResetAudit | confirmResetUse => exact .other (hone rfl)
  | confirmReset presented hash unused read known target isActive =>
      rw [← List.append_nil (flushUser _ _)]
      exact userStatements_flush (.confirmReset presented hash unused read target)
        fun statement hmem => absurd hmem List.not_mem_nil
  | commit named grant =>
      cases grant with
      | patch permission read target tenant =>
          exact userStatements_flush (.patch named permission read target tenant) (hone rfl)
      | patchSelf permission read target =>
          rw [updateUser, ← List.append_nil (flushUser _ _)]
          exact userStatements_flush (.patchSelf named read target)
            fun statement hmem => absurd hmem List.not_mem_nil
      | deactivate permission read target tenant =>
          exact userStatements_flush (.deactivate named permission read target tenant) (hone rfl)
      | activate permission read target tenant =>
          exact userStatements_flush (.activate named permission read target tenant) (hone rfl)
      | remove permission read target tenant =>
          exact .delete rfl named permission read tenant (hone rfl)
      | _ => exact .other (hone rfl)

variable [LinearOrder K]

/-- **What a commit does to the row of a user.** -/
theorem UserStatements.rowStep (hstatements : UserStatements platform x q statements)
    (h : transaction gap now statements none db = some (id, db')) (k : ℕ) :
    RowStep platform x q statements db k (db'.users.row k) := by
  have hnot : ∀ {rest : List (Statement K)}, (∀ statement ∈ rest, aboutUsers statement = false) →
      ∀ changes', .updateUser k changes' ∉ rest := fun hrest changes' hmem => by
    cases hrest _ hmem
  cases hstatements with
  | other others =>
      rw [users_transaction others h]
      exact .keep (hnot others)
  | insert request =>
      rw [transaction_singleton] at h
      simp only [Statement.exec] at h
      split_ifs at h
      obtain ⟨-, rfl⟩ := Prod.mk.inj (Option.some.inj h)
      rw [Table.row_insert]
      split_ifs with hk
      · subst hk
        exact .insert request (by simp)
      · exact .keep fun changes' hmem => by simp at hmem
  | @update user changes rest change others =>
      obtain ⟨y, db₁, hexec, hrest⟩ := transaction_cons_eq_some.1 h
      rw [users_transaction others hrest]
      obtain ⟨row, updated, hrow, happly, -, rfl⟩ := exec_updateUser_eq_some hexec
      have hid := (UserChanges.apply_eq_some happly).1
      have hrowid : row.id = user.id := db.users.id_of_row hrow
      rw [Database.row_setUser hid (hrowid.symm ▸ hrow)]
      split_ifs with hk
      · have huser : user.id = k := hrowid.symm.trans hk.symm
        refine .update change huser (fun changes' => ?_) (huser ▸ hrow) happly
        rw [List.mem_cons, huser]
        refine ⟨fun hmem => ?_, fun heq => .inl (by rw [heq])⟩
        rcases hmem with hfirst | hmem
        · exact (Statement.updateUser.inj hfirst).2
        · exact absurd hmem (hnot others changes')
      · refine .keep fun changes' hmem => ?_
        rcases List.mem_cons.1 hmem with hfirst | hmem
        · exact hk ((Statement.updateUser.inj hfirst).1.trans hrowid.symm)
        · exact hnot others changes' hmem
  | @delete _ _ _ user _ rest request named permission read tenant others =>
      obtain ⟨y, db₁, hexec, hrest⟩ := transaction_cons_eq_some.1 h
      rw [users_transaction others hrest]
      simp only [Statement.exec] at hexec
      split_ifs at hexec
      obtain ⟨-, rfl⟩ := Prod.mk.inj (Option.some.inj hexec)
      rw [row_restrict_users]
      split_ifs with hk
      · exact .delete request named permission read hk.symm tenant
      · refine .keep fun changes' hmem => ?_
        rcases List.mem_cons.1 hmem with hfirst | hmem
        · cases hfirst
        · exact hnot others changes' hmem

end RowSteps

/-! ### Steps of a run -/

section Runs

variable {K : Type} [Field K] [LinearOrder K] [FloorRing K] {platform : Platform}
  {collation : Collation} {settings : Settings} {ι : Type} [DecidableEq ι] {w : World K}
  {as : List (PoolAction ι (ApiRequest settings) (Env K))}
  {a : PoolAction ι (ApiRequest settings) (Env K)} {s t : Api settings ι K}

variable (platform collation) in
/-- The step is the commit of a request, by the right of what it has read. -/
structure CommitStep (w : World K) (as : List (PoolAction ι (ApiRequest settings) (Env K)))
    (a : PoolAction ι (ApiRequest settings) (Env K)) (s t : Api settings ι K) (i : ι)
    (q : ApiRequest settings) (x : Knowledge K) (statements : List (Statement K)) : Prop where
  read : ReadDuring platform collation w as i q x
  granted : Granted platform settings x q (.commit statements)
  commits : ∃ e k id, a = .step i e ∧ s.calls i = some (q, .call (.commit statements) k) ∧
    transaction e.gap e.databaseNow statements none s.store.db = some (id, t.store.db)

/-- **The tables change by commits only.** -/
lemma commitStep_of_db_ne (h : exec (Api.step platform collation settings) (Pool.initial w) as = some s)
    (hstep : Api.step platform collation settings s a = some t)
    (hchange : t.store.db ≠ s.store.db) :
    ∃ i q x statements, CommitStep platform collation w as a s t i q x statements := by
  rcases Pool.next_cases hstep with ⟨i, q, -, -, rfl⟩ |
    ⟨i, e, q, c, k, p', w', ha, hi, rfl, hcmd⟩ | ⟨i, q, p, -, -, rfl⟩
  · exact absurd rfl hchange
  · obtain ⟨x, hx, hc, -⟩ := allInformed_exec h i q _ hi
    have hw' : w' = { (c.exec platform collation e s.store).2 with clock := e.now } := by
      rcases hcmd with ⟨err, hexec, -⟩ | ⟨r, hexec, -⟩ <;> exact (interp_eq_some hexec).2.2
    rcases Command.db_cases platform collation e s.store c with
      hdb | ⟨statements, id, rfl, htransaction⟩
    · rw [hw'] at hchange
      exact absurd hdb hchange
    · refine ⟨i, q, x, statements, hx, hc, e, k, id, ha, hi, ?_⟩
      rw [hw']
      exact htransaction
  · exact absurd rfl hchange

lemma CommitStep.rowStep {i : ι} {q : ApiRequest settings} {x : Knowledge K}
    {statements : List (Statement K)}
    (h : CommitStep platform collation w as a s t i q x statements) (k : ℕ) :
    RowStep platform x q statements s.store.db k (t.store.db.users.row k) := by
  obtain ⟨e, _, id, -, -, htransaction⟩ := h.commits
  exact (userStatements_of_granted h.granted).rowStep htransaction k

/-- A user that a request has read was a row of the tables before. -/
lemma ReadDuring.user {i : ι} {q : ApiRequest settings} {x : Knowledge K}
    (h : ReadDuring platform collation w as i q x) {user : User}
    (huser : user ∈ x.users ∨ user ∈ x.fresh) :
    ∃ bs u, bs <+: as ∧ exec (Api.step platform collation settings) (Pool.initial w) bs = some u ∧
      u.store.db.users.row user.id = some user := by
  obtain ⟨bs, cs, u, p, rfl, hu, -, -, hrow⟩ := h (.user user) huser
  exact ⟨bs, u, List.prefix_append bs cs, hu, hrow⟩

/-- The states of a run, from earlier to later. -/
lemma later_of_initial {bs : List (PoolAction ι (ApiRequest settings) (Env K))} {u : Api settings ι K}
    (h : exec (Api.step platform collation settings) (Pool.initial w) as = some s) (hbs : bs <+: as)
    (hu : exec (Api.step platform collation settings) (Pool.initial w) bs = some u) :
    Later u.store.db s.store.db := by
  obtain ⟨cs, rfl⟩ := hbs
  obtain ⟨u', hu', hs⟩ := exec_append_eq_some.1 h
  obtain rfl : u = u' := Option.some.inj (hu.symm.trans hu')
  exact later_run hs

end Runs

end StarterBackend.Accounts

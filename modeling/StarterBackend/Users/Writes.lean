/-
The writes to the table of users, by registrations and by `PATCH` requests.

A registration looks for the email before it inserts the user, in two steps; a `PATCH`
copies every field that the body sets, also a null, and does not look for the email at
all.  So the constraints of the table are what refuses a bad write, and nothing handles
the `IntegrityError`.  In the runs whose steps meet `Clean` there is none.
-/
import StarterBackend.App.Routes
import StarterBackend.Lib.Rely

namespace StarterBackend.Users

open Lib App

/-- The requests that write users. -/
inductive UserWrite where
  | register (email password : String) (requestedSlug : Option String)
  | patch (token : String) (requestedSlug : Option String) (userId : ℤ) (update : UserAdminUpdate)

/-- The handler of a request. -/
def UserWrite.handler {K : Type} (settings : Settings) : UserWrite → AppProg K User
  | .register email password requestedSlug => App.register settings email password requestedSlug
  | .patch token requestedSlug userId update => patchUser token requestedSlug userId update

/-- The requests that run, and the world that they run in. -/
abbrev UserWrites (ι K : Type) := Pool ι UserWrite (AppProg K (Response User)) (World K)

/-- The request has succeeded, or its client has made an error. -/
def Answered : Response User → Prop
  | .ok _ => True
  | .error (.http status _) => 400 ≤ status ∧ status < 500
  | .error .unhandled => False

/-! ### The constraints -/

section Constraints

variable {K : Type}

/-- The constraints that concern users: an email is unique in its tenant, and every user has a
tenant. -/
structure Consistent (db : Database K) : Prop where
  unique : ∀ u v, db.users.row u.id = some u → db.users.row v.id = some v → u.email = v.email →
    u.tenantId = v.tenantId → u.id = v.id
  tenant : ∀ u, db.users.row u.id = some u → (db.tenants.row u.tenantId).isSome

/-- Users stay, in their tenants, and so do the tenants. -/
structure Grown (db db' : Database K) : Prop where
  users : ∀ u, db.users.row u.id = some u →
    ∃ u', db'.users.row u.id = some u' ∧ u'.tenantId = u.tenantId
  tenants : db'.tenants = db.tenants

lemma Grown.refl (db : Database K) : Grown db db := ⟨fun u hu => ⟨u, hu, rfl⟩, rfl⟩

lemma Grown.trans {db db' db'' : Database K} (h : Grown db db') (h' : Grown db' db'') :
    Grown db db'' := by
  refine ⟨fun u hu => ?_, h'.tenants.trans h.tenants⟩
  obtain ⟨u', hu', htenant⟩ := h.users u hu
  have hid : u'.id = u.id := db'.users.id_of_row hu'
  obtain ⟨u'', hu'', htenant'⟩ := h'.users u' (hid.symm ▸ hu')
  exact ⟨u'', hid ▸ hu'', htenant'.trans htenant⟩

/-- A user of the table, as it was read at some time. -/
def Known (db : Database K) (user : User) : Prop :=
  ∃ u, db.users.row user.id = some u ∧ u.tenantId = user.tenantId

lemma Known.grown {db db' : Database K} {user : User} (h : Known db user) (hdb : Grown db db') :
    Known db' user := by
  obtain ⟨u, hu, htenant⟩ := h
  have hid : u.id = user.id := db.users.id_of_row hu
  obtain ⟨u', hu', htenant'⟩ := hdb.users u (hid.symm ▸ hu)
  exact ⟨u', hid ▸ hu', htenant'.trans htenant⟩

/-- No row has the email in the tenant. -/
lemma emailTaken_eq_false {db : Database K} {userId : Option ℕ} {email : String} {tenantId : ℕ} :
    db.emailTaken userId email tenantId = false ↔ ∀ u, db.users.row u.id = some u →
      u.email = email → u.tenantId = tenantId → userId = some u.id := by
  simp only [Database.emailTaken, List.any_eq_false, Table.mem_toList, Bool.and_eq_true, beq_iff_eq,
    bne_iff_ne, not_and, ne_eq, not_not, Entity.id]
  constructor
  · exact fun h u hu hemail htenant => h u hu ⟨hemail, htenant⟩
  · exact fun h u hu hboth => h u hu hboth.1 hboth.2

/-! ### The statements -/

variable [LinearOrder K] (gap : ℕ) (now : K) {db : Database K}

/-- **A new user**, whose email is not taken. -/
lemma exec_insertUser {email hashedPassword : String} {tenantId : ℕ} (hdb : Consistent db)
    (htenant : (db.tenants.row tenantId).isSome)
    (hemail : db.emailTaken none email tenantId = false) :
    ∃ db', (Statement.insertUser email hashedPassword tenantId).exec gap now db =
        some (some (db.users.freshId gap), db') ∧ Consistent db' ∧ Grown db db' ∧
      db'.users.row (db.users.freshId gap) = some
        ⟨db.users.freshId gap, tenantId, email, hashedPassword, true, UserRole.user.value, 0⟩ := by
  let new : User :=
    ⟨db.users.freshId gap, tenantId, email, hashedPassword, true, UserRole.user.value, 0⟩
  let users := db.users.insert gap (fun id =>
    (⟨id, tenantId, email, hashedPassword, true, UserRole.user.value, 0⟩ : User)) fun _ => rfl
  have hself : users.row (db.users.freshId gap) = some new := Table.row_insert_self
  have hkept : ∀ u, db.users.row u.id = some u → users.row u.id = some u :=
    fun u hu => Table.row_insert_of_some hu
  have hnew := emailTaken_eq_false.1 hemail
  have hcases : ∀ u, users.row u.id = some u → u = new ∨ db.users.row u.id = some u := by
    intro u hu
    rw [Table.row_insert] at hu
    split_ifs at hu
    · exact .inl (Option.some.inj hu).symm
    · exact .inr hu
  refine ⟨{ db with users }, if_neg ?_, ⟨?_, ?_⟩, ⟨fun u hu => ⟨u, hkept u hu, rfl⟩, rfl⟩,
    hself⟩
  · simp [Option.isSome_iff_ne_none.1 htenant, hemail]
  · intro u v hu hv heq htenants
    rcases hcases u hu with rfl | hu' <;> rcases hcases v hv with rfl | hv'
    · rfl
    · nomatch hnew v hv' heq.symm htenants.symm
    · nomatch hnew u hu' heq htenants
    · exact hdb.unique u v hu' hv' heq htenants
  · intro u hu
    rcases hcases u hu with rfl | hu
    · exact htenant
    · exact hdb.tenant u hu

/-- **An update** that sets no null and no email of another user. -/
lemma exec_updateUser {user updated : User} {changes : UserChanges} (hdb : Consistent db)
    (huser : db.users.row user.id = some user) (happly : changes.apply user = some updated)
    (hemail : db.emailTaken (some user.id) updated.email updated.tenantId = false) :
    ∃ db', (Statement.updateUser user.id changes).exec gap now db = some (none, db') ∧
      Consistent db' ∧ Grown db db' := by
  obtain ⟨hid, htenant, -⟩ := UserChanges.apply_eq_some happly
  have hrow := Database.row_setUser hid huser
  have hother := emailTaken_eq_false.1 hemail
  have hcases : ∀ u, (db.setUser updated).users.row u.id = some u →
      u = updated ∨ (db.users.row u.id = some u ∧ u.id ≠ user.id) := by
    intro u hu
    rw [hrow] at hu
    split_ifs at hu with heq
    · exact .inl (Option.some.inj hu).symm
    · exact .inr ⟨hu, heq⟩
  refine ⟨db.setUser updated, ?_, ⟨?_, ?_⟩, ⟨?_, rfl⟩⟩
  · simp only [Statement.exec, huser, happly, hemail]
    rfl
  · intro u v hu hv heq htenants
    rcases hcases u hu with rfl | ⟨hu', hne⟩ <;> rcases hcases v hv with rfl | ⟨hv', hne'⟩
    · rfl
    · exact absurd (Option.some.inj (hother v hv' heq.symm htenants.symm)).symm hne'
    · exact absurd (Option.some.inj (hother u hu' heq htenants)).symm hne
    · exact hdb.unique u v hu' hv' heq htenants
  · intro u hu
    rcases hcases u hu with rfl | ⟨hu, -⟩
    · rw [htenant]
      exact hdb.tenant user huser
    · exact hdb.tenant u hu
  · intro u hu
    rw [hrow]
    split_ifs with heq
    · rw [heq, huser, Option.some.injEq] at hu
      exact ⟨updated, rfl, hu ▸ htenant⟩
    · exact ⟨u, hu, rfl⟩

/-- **An entry of the audit log**, for an administrator and a tenant that are there. -/
lemma exec_insertAuditLog {tenantId adminId : ℕ} (action : AuditAction) (targetUserId : Option ℕ)
    (hdb : Consistent db) (htenant : (db.tenants.row tenantId).isSome)
    (hadmin : (db.users.row adminId).isSome) :
    ∃ x db', (Statement.insertAuditLog tenantId (some adminId) action targetUserId).exec gap now
        db = some (x, db') ∧ Consistent db' ∧ Grown db db' := by
  refine ⟨_, _, if_neg ?_, ⟨hdb.unique, hdb.tenant⟩, ⟨fun u hu => ⟨u, hu, rfl⟩, rfl⟩⟩
  simp [Option.isSome_iff_ne_none.1 htenant, Option.isSome_iff_ne_none.1 hadmin]

end Constraints

/-! ### The condition -/

section Condition

variable {K : Type}

/-- The tenant of a registration. -/
def tenantOf (db : Database K) (requestedSlug : Option String) : Option Tenant :=
  (db.tenants.select fun tenant => tenant.slug == requestedSlug.getD "default").head?

lemma tenantOf_grown {db db' : Database K} (h : Grown db db') (requestedSlug : Option String) :
    tenantOf db' requestedSlug = tenantOf db requestedSlug := by
  rw [tenantOf, h.tenants, tenantOf]

/-- The tenant of a slug is a row. -/
lemma row_of_tenantOf {db : Database K} {requestedSlug : Option String} {tenant : Tenant}
    (h : tenantOf db requestedSlug = some tenant) : (db.tenants.row tenant.id).isSome := by
  have hrow := (Table.mem_select.1 (List.mem_of_mem_head? h)).1
  exact Option.isSome_iff_exists.2 ⟨tenant, hrow⟩

/-- A registration commits a user whose email is not taken in the tenant. -/
def CleanRegister (db : Database K) (email : String) (requestedSlug : Option String) : Prop :=
  ∀ tenant ∈ tenantOf db requestedSlug, db.emailTaken none email tenant.id = false

/-- The body sets no field to null that only an administrator can set, unless the caller of these
claims is none. -/
def CleanCaller (db : Database K) (userId tenantId : ℤ) (update : UserAdminUpdate) : Prop :=
  ∀ caller ∈ (db.users.find userId).filter fun user => (user.tenantId : ℤ) == tenantId,
    userHasPermission caller .usersUpdate = true →
      update.isActive ≠ some none ∧ update.role ≠ some none

/-- The body does not set the email to null, or to that of another user of the tenant. -/
def CleanEmail (db : Database K) (userId : ℤ) (update : UserAdminUpdate) : Prop :=
  update.email ≠ some none ∧ ∀ email, update.email = some (some email) →
    ∀ user ∈ db.users.find userId, db.emailTaken (some user.id) email user.tenantId = false

/-- The condition on a step of a request that issues a command: when it commits, and when it reads
its caller. -/
def Clean (platform : Platform) (db : Database K) : UserWrite → Command K → Prop
  | .register email _ requestedSlug, .commit _ => CleanRegister db email requestedSlug
  | .patch _ _ userId update, .commit _ => CleanEmail db userId update
  | .patch token _ _ update, .query (.userInTenant userId tenantId) =>
      ∀ tokenVersion, (platform.decode token).bind accessClaims = some (userId, tenantId, tokenVersion) →
        CleanCaller db userId tenantId update
  | _, _ => True

/-- The step of a request meets the condition. -/
def Allowed (platform : Platform) (q : UserWrite) (p : AppProg K (Response User)) (_ : Env K)
    (w : World K) : Prop :=
  ∀ c, p.command = some c → Clean platform w.db q c

end Condition

/-! ### The requests are safe -/

section Safe

variable {K : Type} [Field K] [LinearOrder K] [FloorRing K] {platform : Platform}
  {collation : Collation} {q : UserWrite} {w : World K}

/-- What the requests do to the tables. -/
def protocol : Protocol (World K) where
  inv w := Consistent w.db
  rely w w' := Grown w.db w'.db
  refl w := Grown.refl w.db
  trans h h' := h.trans h'

variable (platform collation) in
/-- The request is answered, if its steps meet the condition. -/
abbrev Safe (q : UserWrite) (p : AppProg K (Response User)) (w : World K) : Prop :=
  protocol.Safe (interp platform collation) (Allowed platform q) (fun _ _ _ _ _ => True)
    (fun r _ => Answered r) p w

lemma answered_http {status : ℕ} {message : String} (h : 400 ≤ status ∧ status < 500) :
    Answered (.error (.http status message)) := h

lemma safe_answer {r : Response User} (hr : Answered r) : Safe platform collation q (.ret r) w :=
  fun _ _ _ => hr

/-- The rule for a command that is no commit. -/
lemma safe_read {c : Command K} {k : c.Reply → AppProg K (Response User)}
    (hc : ∀ statements, c ≠ .commit statements)
    (h : ∀ (e : Env K) (w' w'' : World K), Consistent w'.db → Grown w.db w'.db →
      Clean platform w'.db q c → w''.db = w'.db →
        Safe platform collation q (k (c.exec platform collation e w').1) w'') :
    Safe platform collation q (.call c k) w := by
  intro w' e x w'' hw' hgrown hclean hexec
  obtain ⟨-, rfl, rfl⟩ := interp_eq_some hexec
  have hdb : (c.exec platform collation e w').2.db = w'.db := Command.db_exec hc
  refine ⟨?_, ?_, trivial, fun r hr => ?_⟩
  · show Consistent (c.exec platform collation e w').2.db
    rwa [hdb]
  · show Grown w'.db (c.exec platform collation e w').2.db
    rw [hdb]
    exact Grown.refl _
  · obtain rfl := Except.ok.inj hr
    exact h e w' _ hw' hgrown (hclean c rfl) hdb

/-- The rule for a commit that violates no constraint. -/
lemma safe_commit {statements : List (Statement K)} {f : Option ℕ → AppProg K User}
    (h : ∀ (gap : ℕ) (now : K) (w' : World K), Consistent w'.db → Grown w.db w'.db →
      Clean platform w'.db q (.commit statements) →
      ∃ id db, transaction gap now statements none w'.db = some (id, db) ∧ Consistent db ∧
        Grown w'.db db ∧ ∀ w'' : World K, w''.db = db →
          Safe platform collation q (f id).attempt w'') :
    Safe platform collation q ((commit statements).bind f).attempt w := by
  intro w' e x w'' hw' hgrown hclean hexec
  obtain ⟨-, rfl, rfl⟩ := interp_eq_some hexec
  obtain ⟨id, db, htransaction, hdb, hgrown', hsafe⟩ :=
    h e.gap e.databaseNow w' hw' hgrown (hclean _ rfl)
  rw [Command.exec_commit_of_some htransaction]
  refine ⟨hdb, hgrown', trivial, fun r hr => ?_⟩
  obtain rfl := Except.ok.inj hr
  exact hsafe _ rfl

/-- A user that is there can be read again. -/
lemma safe_refreshUser {userId : ℕ} {f : User → AppProg K User}
    (hknown : (w.db.users.row userId).isSome)
    (h : ∀ user (w' : World K), Safe platform collation q (f user).attempt w') :
    Safe platform collation q ((refreshUser userId).bind f).attempt w := by
  obtain ⟨u, hu⟩ := Option.isSome_iff_exists.1 hknown
  refine safe_read nofun fun e w' w'' _ hgrown _ _ => ?_
  have hid : u.id = userId := w.db.users.id_of_row hu
  obtain ⟨u', hu', -⟩ := hgrown.users u (hid.symm ▸ hu)
  have hreply : ((Command.query (.user userId)).exec platform collation e w').1 = some u' := by
    show w'.db.users.find (userId : ℤ) = some u'
    rw [Table.find_natCast, ← hid, hu']
  rw [hreply]
  exact h u' w''

lemma safe_invalidateUsersListCache {tenantId : ℕ} {f : Unit → AppProg K User}
    (h : ∀ w' : World K, Grown w.db w'.db → Safe platform collation q (f ()).attempt w') :
    Safe platform collation q ((invalidateUsersListCache tenantId).bind f).attempt w :=
  safe_read nofun fun _ _ w'' _ hgrown _ hdb => h w'' (hdb ▸ hgrown)

/-! ### Registrations -/

/-- The end of a registration. -/
lemma safe_createUser {email password : String} {requestedSlug : Option String} {tenant : Tenant}
    (htenant : tenantOf w.db requestedSlug = some tenant) :
    Safe platform collation (.register email password requestedSlug)
      (createUser email password tenant.id).attempt w := by
  have htaken : Answered (.error (.badRequest "User with this email already exists")) :=
    answered_http (by decide)
  refine safe_read nofun fun e w₁ w₂ _ hgrown₁ _ hdb₂ => ?_
  cases ((Command.query (.userByEmail email tenant.id)).exec platform collation e w₁).1 with
  | some user => exact safe_answer htaken
  | none =>
      refine safe_read nofun fun e w₃ w₄ _ hgrown₃ _ hdb₄ => ?_
      refine safe_commit fun gap now w₅ hw₅ hgrown₅ hclean => ?_
      have hgrown : Grown w.db w₅.db :=
        (hdb₂ ▸ hgrown₁).trans ((hdb₄ ▸ hgrown₃).trans hgrown₅)
      have htenant₅ : tenantOf w₅.db requestedSlug = some tenant := by
        rw [tenantOf_grown hgrown, htenant]
      obtain ⟨db, hexec, hdb, hgrown₆, hrow⟩ := exec_insertUser gap now hw₅ (row_of_tenantOf htenant₅)
        (hclean tenant htenant₅)
      rw [← transaction_singleton] at hexec
      refine ⟨_, db, hexec, hdb, hgrown₆, fun w₆ hw₆ => ?_⟩
      have hknown : (w₆.db.users.row (w₅.db.users.freshId gap)).isSome := by
        rw [hw₆, hrow]
        rfl
      exact safe_refreshUser hknown fun user w₇ =>
        safe_invalidateUsersListCache fun w₈ _ => safe_answer trivial

/-- **A registration is safe.** -/
lemma safe_register {settings : Settings} {email password : String} {requestedSlug : Option String} :
    Safe platform collation (.register email password requestedSlug)
      (respond (register settings email password requestedSlug)) w := by
  have hnotFound : Answered (.error (.notFound "Tenant not found")) := answered_http (by decide)
  have hdisabled : Answered (.error (.forbidden "Registration is disabled")) :=
    answered_http (by decide)
  refine safe_read nofun fun e w₁ w₂ _ _ _ hdb₂ => ?_
  have hreply : ((Command.query (.tenantBySlug (requestedSlug.getD "default"))).exec platform
      collation e w₁).1 = tenantOf w₁.db requestedSlug := rfl
  rw [hreply]
  cases htenant : tenantOf w₁.db requestedSlug with
  | none => exact safe_answer hnotFound
  | some tenant =>
      dsimp only [Prog.ret_bind]
      split_ifs
      · exact safe_createUser (hdb₂ ▸ htenant)
      · exact safe_answer hdisabled
      · exact safe_answer hnotFound
      · exact safe_answer hnotFound

/-! ### Updates -/

lemma safe_assertActiveTenantMembership {user : User} {f : Unit → AppProg K User}
    (h : ∀ w' : World K, Grown w.db w'.db → Safe platform collation q (f ()).attempt w') :
    Safe platform collation q ((assertActiveTenantMembership user).bind f).attempt w := by
  have hdenied : Answered (.error (.forbidden "Tenant access denied")) := answered_http (by decide)
  refine safe_read nofun fun e w₁ w₂ _ hgrown _ hdb => ?_
  cases ((Command.query (.tenant user.tenantId)).exec platform collation e w₁).1 with
  | none => exact safe_answer hdenied
  | some tenant =>
      dsimp only [Prog.ret_bind]
      split_ifs
      · exact h w₂ (hdb ▸ hgrown)
      · exact safe_answer hdenied

lemma safe_assertRequestedTenant {user : User} {requestedSlug : Option String}
    {f : Unit → AppProg K User}
    (h : ∀ w' : World K, Grown w.db w'.db → Safe platform collation q (f ()).attempt w') :
    Safe platform collation q ((assertRequestedTenant user requestedSlug).bind f).attempt w := by
  have hdenied : Answered (.error (.forbidden "Tenant access denied")) := answered_http (by decide)
  have hnotFound : Answered (.error (.notFound "Tenant not found")) := answered_http (by decide)
  cases requestedSlug with
  | none => exact h w (Grown.refl _)
  | some slug =>
      refine safe_read nofun fun e w₁ w₂ _ hgrown _ hdb => ?_
      cases ((Command.query (.tenantBySlug slug)).exec platform collation e w₁).1 with
      | none => exact safe_answer hnotFound
      | some tenant =>
          dsimp only [Prog.ret_bind]
          split_ifs
          · dsimp only [Prog.pure_def, Prog.bind_def, Prog.ret_bind]
            split_ifs
            · exact h w₂ (hdb ▸ hgrown)
            · exact safe_answer hdenied
          · exact safe_answer hnotFound

/-- **Authentication**: the caller is a user of the table, and a body with nulls is not that of an
administrator. -/
lemma safe_getCurrentUser {token : String} {requestedSlug : Option String} {userId : ℤ}
    {update : UserAdminUpdate} {f : User → AppProg K User}
    (h : ∀ (currentUser : User) (w' : World K), Known w'.db currentUser →
      (userHasPermission currentUser .usersUpdate = true →
        update.isActive ≠ some none ∧ update.role ≠ some none) →
      Safe platform collation (.patch token requestedSlug userId update)
        (f currentUser).attempt w') :
    Safe platform collation (.patch token requestedSlug userId update)
      ((getCurrentUser token requestedSlug).bind f).attempt w := by
  have hcredentials : Answered (.error credentialsException) := answered_http (by decide)
  have hdenied : Answered (.error (.forbidden "Tenant access denied")) := answered_http (by decide)
  have hnotFound : Answered (.error (.notFound "Tenant not found")) := answered_http (by decide)
  refine safe_read (fun _ hc => by cases hc) fun e w₁ w₂ _ _ _ _ => ?_
  have hdecode : ((Command.decodeToken token).exec platform collation e w₁).1 =
      App.decodeToken platform e.leeway e.now token := rfl
  rw [hdecode]
  cases hclaims : App.decodeToken platform e.leeway e.now token with
  | none => exact safe_answer hcredentials
  | some claims =>
      cases haccess : accessClaims claims with
      | none =>
          simp only [Prog.ret_bind, Prog.bind_def, Prog.getOrRaise, haccess]
          exact safe_answer hcredentials
      | some access =>
          obtain ⟨callerId, tenantId, tokenVersion⟩ := access
          simp only [Prog.ret_bind, Prog.bind_def, Prog.getOrRaise, haccess]
          refine safe_read (fun _ hc => by cases hc) fun e w₃ w₄ _ _ hclean hdb₄ => ?_
          have hreply : ((Command.query (.userInTenant callerId tenantId)).exec platform collation
              e w₃).1 = (w₃.db.users.find callerId).filter fun user =>
                (user.tenantId : ℤ) == tenantId := rfl
          rw [hreply]
          cases hcaller : (w₃.db.users.find callerId).filter fun user =>
              (user.tenantId : ℤ) == tenantId with
          | none => exact safe_answer hcredentials
          | some user =>
              have hrow := (Table.find_eq_some.1 (Option.filter_eq_some_iff.1 hcaller).1).2
              have hknown : Known w₄.db user := hdb₄.symm ▸ ⟨user, hrow, rfl⟩
              have hdecoded : (platform.decode token).bind accessClaims =
                  some (callerId, tenantId, tokenVersion) := by
                rw [(Option.filter_eq_some_iff.1 hclaims).1, Option.bind_some, haccess]
              have hnulls := hclean tokenVersion hdecoded user hcaller
              dsimp only [Prog.ret_bind]
              split_ifs
              · exact safe_answer hcredentials
              · exact safe_answer hcredentials
              · rw [Prog.bind_assoc]
                refine safe_assertActiveTenantMembership fun w₅ hgrown₅ => ?_
                rw [Prog.bind_assoc]
                exact safe_assertRequestedTenant fun w₆ hgrown₆ =>
                  h user w₆ ((hknown.grown hgrown₅).grown hgrown₆) hnulls

/-- A column after an update that sets no null: it is as before, or as the body says. -/
lemma exists_column {α : Type} {set : Option (Option α)} (hset : set ≠ some none)
    (p : Option α → Bool) (old : α) :
    ∃ x, (set.filter p).getD (some old) = some x ∧ (x = old ∨ set = some (some x)) := by
  rcases set with _ | _ | x
  · exact ⟨old, rfl, .inl rfl⟩
  · exact absurd rfl hset
  · by_cases hp : p (some x) = true
    · exact ⟨x, by simp [Option.filter, hp], .inr rfl⟩
    · exact ⟨old, by simp [Option.filter, hp], .inl rfl⟩

omit [Field K] [FloorRing K] in
/-- **The statements of an update**, for a body that is clean. -/
lemma transaction_updateUser (gap : ℕ) (now : K) {db : Database K} {user : User}
    (update : UserAdminUpdate) (hdb : Consistent db) (huser : Known db user)
    (hemail : CleanEmail db user.id update) (hactive : update.isActive ≠ some none)
    (hrole : update.role ≠ some none) :
    ∃ db', transaction gap now (updateUser user update) none db = some (none, db') ∧
      Consistent db' ∧ Grown db db' := by
  obtain ⟨u, hu, htenant⟩ := huser
  have hid : u.id = user.id := db.users.id_of_row hu
  unfold updateUser flushUser
  split_ifs with hnone
  · exact ⟨db, rfl, hdb, Grown.refl db⟩
  · obtain ⟨updated, happly, hupdated⟩ : ∃ updated, (updateUserChanges user update).apply u =
        some updated ∧ (updated.email = u.email ∨ update.email = some (some updated.email)) := by
      have hrole' : update.role.map (·.map UserRole.value) ≠ some none := by
        rcases hcolumn : update.role with _ | _ | role
        · simp
        · exact absurd hcolumn hrole
        · simp
      obtain ⟨email, hset, hcases⟩ := exists_column hemail.1 (fun x => x ≠ some user.email) u.email
      obtain ⟨isActive, hsetActive, -⟩ :=
        exists_column hactive (fun x => x ≠ some user.isActive) u.isActive
      obtain ⟨role, hsetRole, -⟩ := exists_column hrole' (fun x => x ≠ some user.role) u.role
      refine ⟨{ u with
        email, isActive, role
        hashedPassword := u.hashedPassword
        tokenVersion := (updateUserChanges user update).tokenVersion.getD u.tokenVersion }, ?_,
          hcases⟩
      simp only [UserChanges.apply, updateUserChanges, hset, hsetActive, hsetRole]
      rfl
    obtain ⟨-, htenant', -⟩ := UserChanges.apply_eq_some happly
    have htaken : db.emailTaken (some u.id) updated.email updated.tenantId = false := by
      rw [htenant']
      rcases hupdated with hsame | hset
      · rw [hsame, emailTaken_eq_false]
        exact fun v hv heq htenants =>
          congrArg some (hdb.unique u v (hid ▸ hu) hv heq.symm htenants.symm)
      · exact hemail.2 _ hset u (by rw [Table.find_natCast, hu]; rfl)
    rw [transaction_singleton, ← hid]
    obtain ⟨db', hexec, hdb', hgrown⟩ := exec_updateUser gap now hdb (hid ▸ hu) happly
      htaken
    exact ⟨db', hexec, hdb', hgrown⟩

/-- **The end of an update is safe.** -/
lemma safe_patchLoadedUser {token : String} {requestedSlug : Option String} {userId : ℤ}
    {update : UserAdminUpdate} {currentUser user : User} (hcurrent : Known w.db currentUser)
    (huser : Known w.db user) (hid : (user.id : ℤ) = userId)
    (hnulls : userHasPermission currentUser .usersUpdate = true →
      update.isActive ≠ some none ∧ update.role ≠ some none) :
    Safe platform collation (.patch token requestedSlug userId update)
      (patchLoadedUser currentUser user update).attempt w := by
  subst hid
  unfold patchLoadedUser
  split_ifs with hadmin
  · obtain ⟨hactive, hrole⟩ := hnulls hadmin
    unfold commitUserMutationWithAudit
    rw [Prog.bind_def, Prog.bind_def, Prog.bind_assoc]
    refine safe_commit fun gap now w₁ hw₁ hgrown₁ hclean => ?_
    obtain ⟨db, hupdate, hdb, hgrown⟩ := transaction_updateUser gap now update hw₁
      (huser.grown hgrown₁) hclean hactive hrole
    obtain ⟨admin, hadminRow, hadminTenant⟩ := (hcurrent.grown hgrown₁).grown hgrown
    have hadminId : admin.id = currentUser.id := db.users.id_of_row hadminRow
    have htenantRow : (db.tenants.row currentUser.tenantId).isSome :=
      hadminTenant ▸ hdb.tenant admin (hadminId ▸ hadminRow)
    obtain ⟨x, db', haudit, hdb', hgrown'⟩ := exec_insertAuditLog gap now .userUpdated (some user.id) hdb
      htenantRow (Option.isSome_iff_exists.2 ⟨admin, hadminRow⟩)
    refine ⟨x.or none, db', ?_, hdb', hgrown.trans hgrown', fun w₂ hw₂ => ?_⟩
    · rw [transaction_append, hupdate, Option.bind_some]
      exact transaction_cons_eq_some.2 ⟨x, db', haudit, rfl⟩
    · refine safe_invalidateUsersListCache fun w₃ hgrown₃ => ?_
      obtain ⟨u, hu, -⟩ := (huser.grown hgrown₁).grown
        ((hgrown.trans hgrown').trans (hw₂ ▸ hgrown₃))
      rw [← Prog.bind_ret (refreshUser user.id)]
      exact safe_refreshUser (Option.isSome_iff_exists.2 ⟨u, hu⟩) fun user w₄ =>
        safe_answer trivial
  · refine safe_commit fun gap now w₁ hw₁ hgrown₁ hclean => ?_
    obtain ⟨db, hupdate, hdb, hgrown⟩ := transaction_updateUser gap now update.selfUpdate hw₁
      (huser.grown hgrown₁) hclean nofun nofun
    refine ⟨none, db, hupdate, hdb, hgrown, fun w₂ hw₂ => ?_⟩
    obtain ⟨u, hu, -⟩ := (huser.grown hgrown₁).grown hgrown
    refine safe_refreshUser (Option.isSome_iff_exists.2 ⟨u, hw₂.symm ▸ hu⟩) fun user w₃ => ?_
    exact safe_invalidateUsersListCache fun w₄ _ => safe_answer trivial

/-- **A `PATCH` is safe.** -/
lemma safe_patchUser {token : String} {requestedSlug : Option String} {userId : ℤ}
    {update : UserAdminUpdate} :
    Safe platform collation (.patch token requestedSlug userId update)
      (respond (patchUser token requestedSlug userId update)) w := by
  refine safe_getCurrentUser fun currentUser w₁ hcurrent hnulls => ?_
  have hnotFound : Answered (.error (.notFound "User not found")) := answered_http (by decide)
  have hforbidden : Answered (.error (.forbidden "Insufficient permissions")) :=
    answered_http (by decide)
  refine safe_read nofun fun e w₂ w₃ _ hgrown _ hdb₃ => ?_
  have hreply : ((Command.query (.userInTenant userId currentUser.tenantId)).exec platform
      collation e w₂).1 = (w₂.db.users.find userId).filter fun user =>
        (user.tenantId : ℤ) == currentUser.tenantId := rfl
  rw [hreply]
  cases hrow : (w₂.db.users.find userId).filter fun user =>
      (user.tenantId : ℤ) == currentUser.tenantId with
  | none => exact safe_answer hnotFound
  | some row =>
      obtain ⟨hfind, -⟩ := Option.filter_eq_some_iff.1 hrow
      obtain ⟨hid, hrow'⟩ := Table.find_eq_some.1 hfind
      have hcurrent₃ : Known w₃.db currentUser := hdb₃ ▸ hcurrent.grown hgrown
      have hloaded : Known w₃.db (loadedUser currentUser row) := by
        unfold loadedUser
        split_ifs
        · exact hcurrent₃
        · exact hdb₃ ▸ ⟨row, hrow', rfl⟩
      dsimp only [Prog.ret_bind]
      split_ifs
      · exact safe_patchLoadedUser hcurrent₃ hloaded
          ((congrArg Nat.cast (loadedUser_id currentUser row)).trans hid.symm) hnulls
      · exact safe_answer hforbidden

end Safe

/-! ### Runs -/

namespace UserWrites

variable {K : Type} [Field K] [LinearOrder K] [FloorRing K] {ι : Type} [DecidableEq ι]
  (platform : Platform) (collation : Collation) (settings : Settings)

/-- One step of one request. -/
def step (s : UserWrites ι K) (a : PoolAction ι UserWrite (Env K)) : Option (UserWrites ι K) :=
  Pool.next (interp platform collation) (fun q => respond (q.handler settings)) s a

variable {platform collation settings}

lemma consistent_oneUser : Consistent World.oneUser.db := by
  have hrow : ∀ u, World.oneUser.db.users.row u.id = some u →
      u = ⟨1, 1, "ada@example.com", "", true, "user", 0⟩ := by
    intro u hu
    rw [World.oneUser, Database.oneUser, Table.row_insert] at hu
    split_ifs at hu
    · exact (Option.some.inj hu).symm
    · nomatch hu
  refine ⟨fun u v hu hv _ _ => ?_, fun u hu => ?_⟩
  · rw [hrow u hu, hrow v hv]
  · rw [hrow u hu]
    rfl

/-- The registration of a second user. -/
def secondUser : List (PoolAction (Fin 1) UserWrite (Env ℚ)) :=
  .start 0 (.register "eve@example.com" "secret" none) :: List.replicate 6 (.step 0 (Env.calm 0))

/-- No user has the email of the registration, unless the step commits nothing. -/
def emailFree (s : UserWrites (Fin 1) ℚ) : PoolAction (Fin 1) UserWrite (Env ℚ) → Bool
  | .step i _ =>
      match s.calls i with
      | some (.register email _ _, .call (.commit _) _) =>
          s.store.db.users.toList.all fun user => user.email != email
      | some (.register _ _ _, _) => true
      | some (.patch _ _ _ _, _) => false
      | none => true
  | _ => true

lemma allows_of_emailFree (s : UserWrites (Fin 1) ℚ) (a : PoolAction (Fin 1) UserWrite (Env ℚ))
    (h : emailFree s a = true) : Protocol.Allows (Allowed Platform.plain) s a := by
  rintro i e q p rfl hi c hc
  cases q with
  | patch token requestedSlug userId update => simp [emailFree, hi] at h
  | register email password requestedSlug =>
      cases c with
      | commit statements =>
          cases p with
          | ret r => nomatch hc
          | raise x => nomatch hc
          | call c k =>
              obtain rfl := Option.some.inj hc
              simp only [emailFree, hi, List.all_eq_true, bne_iff_ne] at h
              intro tenant _
              rw [emailTaken_eq_false]
              exact fun u hu heq _ => absurd heq (h u (Table.mem_toList.2 hu))
      | _ => trivial

/-- There is a response. -/
def hasReturned : AppProg ℚ (Response User) → Bool
  | .ret _ => true
  | _ => false

/-- The user sets its own email to null. -/
def nullEmail : List (PoolAction (Fin 1) UserWrite (Env ℚ)) :=
  .start 0 (.patch (Platform.plain.encode
    ⟨some "access", some "1", some 1, some 0, some 1800, some "0"⟩) none 1 { email := some none }) ::
      List.replicate 5 (.step 0 (Env.calm 0))

/-- The response is the status 500. -/
def isUnhandled : AppProg ℚ (Response User) → Bool
  | .ret (.error .unhandled) => true
  | _ => false

end UserWrites

end StarterBackend.Users

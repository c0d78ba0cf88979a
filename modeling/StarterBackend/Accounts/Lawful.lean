/-
The routes keep to the grants.

A program is followed reply by reply: after each of them the request knows what the reply
has told it, and the next command that acts on the world is one that it may issue then.
-/
import StarterBackend.Accounts.Grants
import StarterBackend.Users.Staleness

namespace StarterBackend.Accounts

open Lib App

/-- The program keeps to the grants of the request. -/
structure Lawful {K α : Type} (platform : Platform) (settings : Settings) (q : ApiRequest settings)
    (post : Knowledge K → α → Prop) (x : Knowledge K) (p : AppProg K α) : Prop where
  informed : p.Informed (Answers platform) Knowledge.learn (Granted platform settings · q) post x

/-- The program does not act on the world. -/
structure Reads {K α : Type} (p : AppProg K α) : Prop where
  every : p.Every fun c _ => acts c = false

/-! ### Reading -/

section Reading

variable {K α β : Type} {platform : Platform} {settings : Settings} {q : ApiRequest settings}
  {x : Knowledge K} {user : User} {tenant : Tenant} {p : AppProg K α} {f : α → AppProg K β}

namespace Knowledge

/-- A command that does not act leaves what was known. -/
lemma le_learn {c : Command K} (hc : acts c = false) (r : c.Reply) : x ≤ x.learn c r := by
  cases c with
  | commit statements => cases hc
  | query q =>
      cases q <;> exact ⟨by first | exact fun _ h => Or.inl h | exact subset_rfl,
        by first | exact fun _ h => Or.inl h | exact subset_rfl,
        by first | exact fun _ h => Or.inl h | exact subset_rfl,
        by first | exact fun _ h => Or.inl h | exact subset_rfl,
        by first | exact fun _ h => Or.inl h | exact subset_rfl⟩
  | _ => exact le_refl x

lemma mem_users_addUser : user ∈ (x.addUser (some user)).users := Or.inr rfl

lemma mem_fresh_addUser : user ∈ (x.addUser (some user)).fresh := Or.inr rfl

end Knowledge

/-- **Sequencing.** -/
lemma Lawful.bind {M : Knowledge K → α → Prop} {post : Knowledge K → β → Prop}
    (hp : Lawful platform settings q M x p)
    (hf : ∀ y a, M y a → Lawful platform settings q post y (f a)) :
    Lawful platform settings q post x (p.bind f) :=
  ⟨hp.informed.bind fun y a ha => (hf y a ha).informed⟩

lemma Lawful.imp {post post' : Knowledge K → α → Prop} (hp : Lawful platform settings q post x p)
    (h : ∀ y a, post y a → post' y a) : Lawful platform settings q post' x p :=
  ⟨hp.informed.imp h⟩

lemma lawful_ret {post : Knowledge K → α → Prop} {a : α} (h : post x a) :
    Lawful platform settings q post x (.ret a) := ⟨h⟩

lemma lawful_raise {post : Knowledge K → α → Prop} (e : AppError) :
    Lawful platform settings q post x (.raise e) := ⟨trivial⟩

lemma lawful_issue {c : Command K} (hc : Granted platform settings x q c) :
    Lawful platform settings q (fun y r => Answers platform c r ∧ y = x.learn c r) x (issue c) :=
  ⟨hc, fun _ hr => ⟨hr, rfl⟩⟩

lemma lawful_query (query : Query) :
    Lawful platform settings q
      (fun y r => Answers (K := K) platform (.query query) r ∧ y = x.learn (.query query) r) x
      (App.query query) := lawful_issue (.reads rfl)

lemma lawful_getOrRaise {P : Knowledge K → α → Prop} {e : AppError} {a : Option α}
    (h : ∀ b ∈ a, P x b) : Lawful platform settings q P x (.getOrRaise e a) :=
  ⟨Prog.informed_getOrRaise h⟩

lemma lawful_orUnhandled {P : Knowledge K → α → Prop} {a : Option α}
    (h : ∀ b ∈ a, P x b) : Lawful platform settings q P x (orUnhandled a) :=
  lawful_getOrRaise h

/-- A program that only reads. -/
lemma lawful_reads (hp : Reads p) : Lawful platform settings q (fun y _ => x ≤ y) x p := by
  obtain ⟨hp⟩ := hp
  constructor
  induction p generalizing x with
  | ret a => exact le_refl x
  | raise e => trivial
  | call c k ih =>
      exact ⟨.reads hp.1, fun r _ =>
        (ih r (hp.2 r)).imp fun _ _ h => le_trans (Knowledge.le_learn hp.1 r) h⟩

lemma Reads.bind (hp : Reads p) (hf : ∀ a, Reads (f a)) : Reads (p.bind f) :=
  ⟨Prog.Every.bind hp.every fun a => (hf a).every⟩

lemma reads_ret (a : α) : Reads (.ret a : AppProg K α) := ⟨trivial⟩

lemma reads_raise (e : AppError) : Reads (.raise e : AppProg K α) := ⟨trivial⟩

lemma reads_issue {c : Command K} (hc : acts c = false) : Reads (issue c) := ⟨hc, fun _ => trivial⟩

lemma reads_ofExcept (a : Except AppError α) : Reads (.ofExcept a : AppProg K α) := by
  cases a with
  | error e => exact reads_raise e
  | ok a => exact reads_ret a

lemma reads_getOrRaise (e : AppError) (a : Option α) : Reads (.getOrRaise e a : AppProg K α) :=
  ⟨Prog.every_getOrRaise⟩

lemma lawful_getActiveTenantBySlug (slug : String) :
    Lawful platform settings q (fun y tenant => x ≤ y ∧ tenant ∈ y.tenants ∧ tenant.slug = slug ∧
      tenant.isActive = true) x (getActiveTenantBySlug slug) := by
  refine (lawful_query _).bind ?_
  rintro _ reply ⟨hreply, rfl⟩
  cases reply with
  | none => exact lawful_raise _
  | some tenant =>
      dsimp only
      split_ifs with hactive
      · exact lawful_ret ⟨Knowledge.le_learn rfl _, Or.inr rfl, hreply tenant rfl, hactive⟩
      · exact lawful_raise _

lemma lawful_assertActiveTenantMembership (user : User) :
    Lawful platform settings q (fun y _ => x ≤ y ∧ ∃ tenant ∈ y.tenants,
      tenant.id = user.tenantId ∧ tenant.isActive = true) x (assertActiveTenantMembership user) := by
  refine (lawful_query _).bind ?_
  rintro _ reply ⟨hreply, rfl⟩
  cases reply with
  | none => exact lawful_raise _
  | some tenant =>
      dsimp only
      split_ifs with hactive
      · exact lawful_ret ⟨Knowledge.le_learn rfl _, tenant, Or.inr rfl,
          Int.ofNat.inj (hreply tenant rfl), hactive⟩
      · exact lawful_raise _

lemma lawful_assertRequestedTenant (user : User) (requestedSlug : Option String) :
    Lawful platform settings q (fun y _ => x ≤ y ∧ ∀ slug ∈ requestedSlug, ∃ tenant ∈ y.tenants,
      tenant.slug = slug ∧ tenant.id = user.tenantId ∧ tenant.isActive = true) x
      (assertRequestedTenant user requestedSlug) := by
  cases requestedSlug with
  | none =>
      refine lawful_ret ⟨le_refl x, fun slug hslug => ?_⟩
      cases hslug
  | some slug =>
      refine (lawful_getActiveTenantBySlug slug).bind ?_
      rintro y tenant ⟨hxy, hread, hslug, hactive⟩
      split_ifs with hmember
      · refine lawful_ret ⟨hxy, fun slug' hslug' => ?_⟩
        obtain rfl := Option.some.inj hslug'
        exact ⟨tenant, hread, hslug, hmember.symm, hactive⟩
      · exact lawful_raise _

/-- **`get_current_user` returns the user that the token names.** -/
lemma lawful_getCurrentUser (token : String) (requestedSlug : Option String) :
    Lawful platform settings q (fun y user => x ≤ y ∧ Named platform token requestedSlug y user ∧
      user ∈ y.fresh) x (getCurrentUser token requestedSlug) := by
  refine (lawful_issue (.reads rfl)).bind ?_
  rintro _ decoded ⟨hdecoded, rfl⟩
  cases decoded with
  | none => exact lawful_raise _
  | some claims =>
      show Lawful platform settings q _ _ (Prog.bind (.getOrRaise _ (accessClaims claims)) _)
      rcases haccess : accessClaims claims with _ | ⟨userId, tenantId, tokenVersion⟩
      · exact lawful_raise _
      refine (lawful_query (.userInTenant userId tenantId)).bind ?_
      rintro _ row ⟨hrow, rfl⟩
      cases row with
      | none => exact lawful_raise _
      | some user =>
          obtain ⟨hid, htenant⟩ := hrow user rfl
          dsimp only
          split_ifs with hactive hversion
          · exact lawful_raise _
          · exact lawful_raise _
          refine (lawful_assertActiveTenantMembership user).bind ?_
          rintro y _ ⟨hy, hmember⟩
          refine (lawful_assertRequestedTenant user requestedSlug).bind ?_
          rintro z _ ⟨hz, hrequested⟩
          obtain ⟨tenant, hread, hmember⟩ := hmember
          refine lawful_ret ⟨le_trans (Knowledge.le_learn rfl _) (le_trans hy hz),
            ⟨?_, ?_, ?_, ?_, hrequested⟩, ?_⟩
          · exact Knowledge.users_of_le (le_trans hy hz) Knowledge.mem_users_addUser
          · simpa using hactive
          · refine ⟨claims, hdecoded claims rfl, ?_⟩
            rw [haccess, hid, htenant, not_ne_iff.1 hversion]
          · exact ⟨tenant, Knowledge.tenants_of_le hz hread, hmember⟩
          · exact Knowledge.fresh_of_le (le_trans hy hz) Knowledge.mem_fresh_addUser

lemma userHasAnyPermission_singleton (user : User) (permission : Permission) :
    userHasAnyPermission user [permission] = userHasPermission user permission := by
  simp [userHasAnyPermission, userHasPermission]

/-- `require_permission`, for one permission. -/
lemma lawful_requirePermission (permission : Permission) (token : String)
    (requestedSlug : Option String) :
    Lawful platform settings q (fun y user => x ≤ y ∧ Named platform token requestedSlug y user ∧
      user ∈ y.fresh ∧ userHasPermission user permission = true) x
      (requirePermission [permission] token requestedSlug) := by
  refine (lawful_getCurrentUser token requestedSlug).bind ?_
  rintro y user ⟨hxy, hnamed, hfresh⟩
  rw [userHasAnyPermission_singleton]
  split_ifs with hpermission
  · exact lawful_ret ⟨hxy, hnamed, hfresh, hpermission⟩
  · exact lawful_raise _

lemma reads_isRefreshTokenRevoked (jti : String) : Reads (isRefreshTokenRevoked (K := K) jti) :=
  (reads_issue rfl).bind fun _ => reads_getOrRaise _ _

lemma loadedUser_mem {s : Set User} {currentUser row : User} (hcurrent : currentUser ∈ s)
    (hrow : row ∈ s) : loadedUser currentUser row ∈ s := by
  unfold loadedUser
  split_ifs
  · exact hcurrent
  · exact hrow

lemma loadedUser_tenantId {currentUser row : User} (h : row.tenantId = currentUser.tenantId) :
    (loadedUser currentUser row).tenantId = currentUser.tenantId := by
  unfold loadedUser
  split_ifs
  · rfl
  · exact h

/-- The user of an id in the session of a request: a user that was read in its tenant. -/
lemma lawful_getLoadedUser {currentUser : User} (hcurrent : currentUser ∈ x.fresh) (userId : ℤ) :
    Lawful platform settings q (fun y found => x ≤ y ∧ ∀ user ∈ found, user ∈ y.fresh ∧
      (user.id : ℤ) = userId ∧ user.tenantId = currentUser.tenantId) x
      (getLoadedUser currentUser userId) := by
  refine (lawful_query (.userInTenant userId currentUser.tenantId)).bind ?_
  rintro _ reply ⟨hreply, rfl⟩
  refine lawful_ret ⟨Knowledge.le_learn rfl _, fun user huser => ?_⟩
  cases reply with
  | none => cases huser
  | some row =>
      obtain rfl := Option.some.inj huser
      obtain ⟨hid, htenant⟩ := hreply row rfl
      refine ⟨loadedUser_mem (Or.inl hcurrent) Knowledge.mem_fresh_addUser, ?_,
        loadedUser_tenantId (Int.ofNat.inj htenant)⟩
      rw [loadedUser_id, hid]

lemma lawful_refreshUser (userId : ℕ) :
    Lawful platform settings q (fun y user => x ≤ y ∧ user ∈ y.users ∧ user ∈ y.fresh ∧
      user.id = userId) x (refreshUser userId) := by
  refine (lawful_query (.user userId)).bind ?_
  rintro _ reply ⟨hreply, rfl⟩
  refine lawful_orUnhandled fun user huser => ?_
  obtain rfl : reply = some user := huser
  exact ⟨Knowledge.le_learn rfl _, Knowledge.mem_users_addUser, Knowledge.mem_fresh_addUser,
    Int.ofNat.inj (hreply user rfl)⟩

end Reading

/-! ### Acting -/

section Acting

variable {K α : Type} {platform : Platform} {settings : Settings} {q : ApiRequest settings}
  {x : Knowledge K} {statements : List (Statement K)}

lemma lawful_commit (h : Granted platform settings x q (.commit statements)) :
    Lawful platform settings q (fun y _ => y = { x with fresh := ∅ }) x (commit statements) := by
  refine (lawful_issue h).bind ?_
  rintro _ reply ⟨-, rfl⟩
  exact lawful_orUnhandled fun _ _ => rfl

lemma lawful_invalidate {tenantId : ℕ}
    (h : Granted platform settings x q (.redisIncr (buildUsersListCacheVersionKey tenantId))) :
    Lawful platform settings q (fun y _ => y = x) x (invalidateUsersListCache tenantId) := by
  refine (lawful_issue h).bind ?_
  rintro _ reply ⟨-, rfl⟩
  exact lawful_ret rfl

lemma lawful_createAuditLog {tenantId : ℕ} {adminId target : Option ℕ} {action : AuditAction}
    (h : Granted platform settings x q (.commit [.insertAuditLog tenantId adminId action target])) :
    Lawful platform settings q (fun _ _ => True) x (createAuditLog tenantId adminId action target) :=
  (lawful_commit h).bind fun _ _ _ => lawful_ret trivial

variable {token : String} {requestedSlug : Option String}

/-! ### Users -/

lemma lawful_commitUserMutationWithAudit {r : UserRequest settings} {currentUser : User}
    {action : AuditAction} {target : ℕ} (hnamed : Named platform token requestedSlug x currentUser)
    (h : Granted platform settings x (.byUser token requestedSlug r)
      (.commit (statements ++ [auditEntry currentUser action target]))) :
    Lawful platform settings (.byUser token requestedSlug r) (fun y _ => y = { x with fresh := ∅ }) x
      (commitUserMutationWithAudit statements currentUser action target) := by
  refine (lawful_commit h).bind ?_
  rintro _ _ rfl
  exact lawful_invalidate (.invalidate (.byUser (hnamed.mono subset_rfl subset_rfl)))

lemma lawful_patchLoadedUser {currentUser user : User} {userId : ℤ} {update : UserAdminUpdate}
    (hnamed : Named platform token requestedSlug x currentUser) (hcurrent : currentUser ∈ x.fresh)
    (hfresh : user ∈ x.fresh) (hid : (user.id : ℤ) = userId)
    (htenant : user.tenantId = currentUser.tenantId)
    (hself : user.id = currentUser.id → user = currentUser)
    (hmay : canUpdateUser currentUser user = true) :
    Lawful platform settings (.byUser token requestedSlug (.change (.patch userId update)))
      (fun _ _ => True) x (patchLoadedUser currentUser user update) := by
  unfold patchLoadedUser
  split_ifs with hpermission
  · refine (lawful_commitUserMutationWithAudit hnamed
      (.commit hnamed (.patch hpermission hfresh hid htenant))).bind ?_
    rintro _ _ rfl
    exact (lawful_refreshUser user.id).imp fun _ _ _ => trivial
  · -- the user may update nobody else
    obtain ⟨heq, hpermission'⟩ : user.id = currentUser.id ∧
        userHasPermission currentUser .usersUpdateSelf = true := by
      simp only [canUpdateUser, hpermission, Bool.false_or, Bool.and_eq_true, beq_iff_eq] at hmay
      exact ⟨hmay.2.1.symm, hmay.2.2⟩
    obtain rfl := hself heq
    refine (lawful_commit (.commit hnamed (.patchSelf hpermission' hcurrent hid))).bind ?_
    rintro _ _ rfl
    refine (lawful_refreshUser _).bind ?_
    rintro y updatedUser ⟨hxy, hread, -, hsame⟩
    exact (lawful_invalidate (.invalidateOwn (hnamed.mono hxy.1 hxy.2.2.1) hread hsame)).bind
      fun _ _ _ => lawful_ret trivial

lemma loadedUser_self {currentUser row : User}
    (h : (loadedUser currentUser row).id = currentUser.id) :
    loadedUser currentUser row = currentUser := by
  rw [loadedUser_id] at h
  exact if_pos h

lemma lawful_patchUser (userId : ℤ) (update : UserAdminUpdate) :
    Lawful platform settings (.byUser token requestedSlug (.change (.patch userId update)))
      (fun _ _ => True) x (patchUser token requestedSlug userId update) := by
  refine (lawful_getCurrentUser token requestedSlug).bind ?_
  rintro y currentUser ⟨-, hnamed, hcurrent⟩
  refine (lawful_query (.userInTenant userId currentUser.tenantId)).bind ?_
  rintro _ reply ⟨hreply, rfl⟩
  cases reply with
  | none => exact lawful_raise _
  | some row =>
      obtain ⟨hid, htenant⟩ := hreply row rfl
      dsimp only
      split_ifs with hmay
      · refine lawful_patchLoadedUser (hnamed.mono (fun _ => Or.inl) subset_rfl) (Or.inl hcurrent)
          (loadedUser_mem (Or.inl hcurrent) Knowledge.mem_fresh_addUser) ?_
          (loadedUser_tenantId (Int.ofNat.inj htenant)) loadedUser_self hmay
        rw [loadedUser_id, hid]
      · exact lawful_raise _

/-- What an endpoint does with the user that the service has found. -/
lemma lawful_commitFoundUser {r : UserRequest settings} {currentUser : User} {action : AuditAction}
    {found : Option (User × List (Statement K))}
    (hnamed : Named platform token requestedSlug x currentUser)
    (h : ∀ user statements, found = some (user, statements) →
      Granted platform settings x (.byUser token requestedSlug r)
        (.commit (statements ++ [auditEntry currentUser action user.id]))) :
    Lawful platform settings (.byUser token requestedSlug r) (fun _ _ => True) x
      (commitFoundUser currentUser action found) := by
  cases found with
  | none => exact lawful_raise _
  | some found =>
      refine (lawful_commitUserMutationWithAudit hnamed (h found.1 found.2 rfl)).bind ?_
      rintro _ _ rfl
      exact (lawful_refreshUser _).imp fun _ _ _ => trivial

/-- `deactivate_user` or `activate_user`, and what the endpoint does after it. -/
lemma lawful_changeFoundUser {r : UserRequest settings} {currentUser : User} {userId : ℤ}
    {action : AuditAction} {changes : User → UserChanges}
    (hnamed : Named platform token requestedSlug x currentUser) (hcurrent : currentUser ∈ x.fresh)
    (h : ∀ y user, Named platform token requestedSlug y currentUser → user ∈ y.fresh →
      (user.id : ℤ) = userId → user.tenantId = currentUser.tenantId →
      UserGrant (K := K) settings y currentUser r
        (flushUser user (changes user) ++ [auditEntry currentUser action user.id])) :
    Lawful platform settings (.byUser token requestedSlug r) (fun _ _ => True) x
      (((getLoadedUser currentUser userId).bind fun found =>
        .ret (found.map fun user => (user, flushUser user (changes user)))).bind
          (commitFoundUser currentUser action)) := by
  rw [Prog.bind_assoc]
  refine (lawful_getLoadedUser hcurrent userId).bind ?_
  rintro y found ⟨hxy, hfound⟩
  have hnamed' := hnamed.mono hxy.1 hxy.2.2.1
  refine lawful_commitFoundUser hnamed' fun user statements heq => ?_
  obtain ⟨user', huser', heq'⟩ := Option.map_eq_some_iff.1 heq
  obtain ⟨rfl, rfl⟩ := Prod.mk.inj heq'
  obtain ⟨hfresh, hid, htenant⟩ := hfound _ huser'
  exact .commit hnamed' (h y _ hnamed' hfresh hid htenant)

lemma lawful_deactivateUserEndpoint (userId : ℤ) :
    Lawful platform settings (.byUser token requestedSlug (.change (.deactivate userId)))
      (fun _ _ => True) x (deactivateUserEndpoint token requestedSlug userId) := by
  refine (lawful_requirePermission .usersDeactivate token requestedSlug).bind ?_
  rintro y currentUser ⟨-, hnamed, hcurrent, hpermission⟩
  exact lawful_changeFoundUser hnamed hcurrent fun z user _ hfresh hid htenant =>
    .deactivate hpermission hfresh hid htenant

lemma lawful_activateUserEndpoint (userId : ℤ) :
    Lawful platform settings (.byUser token requestedSlug (.change (.activate userId)))
      (fun _ _ => True) x (activateUserEndpoint token requestedSlug userId) := by
  refine (lawful_requirePermission .usersActivate token requestedSlug).bind ?_
  rintro y currentUser ⟨-, hnamed, hcurrent, hpermission⟩
  exact lawful_changeFoundUser hnamed hcurrent fun z user _ hfresh hid htenant =>
    .activate hpermission hfresh hid htenant

lemma lawful_removeUser (userId : ℤ) :
    Lawful platform settings (.byUser token requestedSlug (.change (.remove userId)))
      (fun _ _ => True) x (removeUser token requestedSlug userId) := by
  refine (lawful_requirePermission .usersDelete token requestedSlug).bind ?_
  rintro y currentUser ⟨-, hnamed, hcurrent, hpermission⟩
  refine (lawful_getLoadedUser hcurrent userId).bind ?_
  rintro z found ⟨hyz, hfound⟩
  cases found with
  | none => exact lawful_raise _
  | some user =>
      obtain ⟨hfresh, hid, htenant⟩ := hfound user rfl
      have hnamed' := hnamed.mono hyz.1 hyz.2.2.1
      exact (lawful_commitUserMutationWithAudit hnamed' (.commit hnamed'
        (.remove hpermission hfresh hid htenant))).imp fun _ _ _ => trivial

lemma lawful_handler (m : Users.AdminMutation) :
    Lawful (K := K) platform settings (.byUser token requestedSlug (.change m)) (fun _ _ => True) x
      (m.handler token requestedSlug) := by
  cases m with
  | patch userId update => exact (lawful_patchUser userId update).bind fun _ _ _ => lawful_ret trivial
  | deactivate userId => exact (lawful_deactivateUserEndpoint userId).bind fun _ _ _ => lawful_ret trivial
  | activate userId => exact (lawful_activateUserEndpoint userId).bind fun _ _ _ => lawful_ret trivial
  | remove userId => exact lawful_removeUser userId

/-! ### Accounts -/

lemma lawful_register (email password : String) :
    Lawful platform settings (.register email password requestedSlug) (fun _ _ => True) x
      (register (K := K) settings email password requestedSlug) := by
  refine (lawful_getActiveTenantBySlug _).bind ?_
  rintro y tenant ⟨-, htenant, hslug, hactive⟩
  split_ifs with henabled
  swap
  · exact lawful_raise _
  refine (lawful_query (.userByEmail email tenant.id)).bind ?_
  rintro z reply ⟨-, rfl⟩
  cases reply with
  | some user => exact ⟨trivial⟩
  | none =>
      refine (lawful_issue (.reads rfl)).bind ?_
      rintro z hashedPassword ⟨-, hz⟩
      have hread : tenant ∈ z.tenants := by
        rw [hz]
        exact htenant
      refine (lawful_commit (.register henabled hread hslug hactive)).bind ?_
      rintro y' id hy'
      have hread' : tenant ∈ y'.tenants := by
        rw [hy']
        exact hread
      refine (lawful_orUnhandled (P := fun z' _ => tenant ∈ z'.tenants) fun _ _ => hread').bind ?_
      rintro z' userId hread
      refine (lawful_refreshUser userId).bind ?_
      rintro y' user ⟨hle, -⟩
      exact (lawful_invalidate
        (.invalidate (.register (Knowledge.tenants_of_le hle hread) hslug))).bind
        fun _ _ _ => lawful_ret trivial

lemma lawful_requestResetPassword (email : String) :
    Lawful platform settings (.requestReset email requestedSlug) (fun _ _ => True) x
      (requestResetPassword (K := K) email requestedSlug) := by
  refine (lawful_getActiveTenantBySlug _).bind ?_
  rintro y tenant ⟨-, htenant, hslug, -⟩
  refine (lawful_query (.userByEmail email tenant.id)).bind ?_
  rintro z reply ⟨hreply, hz⟩
  cases reply with
  | none => exact lawful_ret trivial
  | some user =>
      obtain ⟨hemail, hmember⟩ := hreply user rfl
      have hread : user ∈ z.users := hz ▸ Knowledge.mem_users_addUser
      have hown : ActsIn platform settings z (.requestReset email requestedSlug) user.tenantId := by
        rw [hmember]
        exact .requestReset (hz ▸ htenant) hslug
      dsimp only
      split_ifs with hactive
      · simp only [Prog.bind_def]
        refine (lawful_issue (.requestReset hown hread hemail hactive)).bind ?_
        rintro z₁ enqueued ⟨-, hz₁⟩
        have hz₁ : z ≤ z₁ := hz₁ ▸ le_refl z
        refine (lawful_orUnhandled (P := fun z' _ => z ≤ z') fun _ _ => hz₁).bind ?_
        rintro z' _ hle
        have hown' : ActsIn platform settings z' (.requestReset email requestedSlug) user.tenantId := by
          rw [hmember]
          exact .requestReset (Knowledge.tenants_of_le hle (hz ▸ htenant)) hslug
        exact (lawful_createAuditLog (.requestResetAudit hown' (Knowledge.users_of_le hle hread) hemail
          hactive)).bind fun _ _ _ => lawful_ret trivial
      · exact lawful_ret trivial

/-- The end of `confirm_password_reset`. -/
lemma lawful_resetPassword [Field K] [LinearOrder K] [FloorRing K] {newPassword : String} {user : User}
    {resetToken : PasswordResetToken K} {usedAt : K} (hpresented : resetToken ∈ x.resetTokens)
    (hhash : resetToken.tokenHash = platform.hashPasswordResetToken token)
    (hunused : resetToken.usedAt = none) (hread : user ∈ x.fresh) (hknown : user ∈ x.users)
    (hid : user.id = resetToken.userId) (hactive : user.isActive = true) :
    Lawful platform settings (.confirmReset token newPassword) (fun _ _ => True) x
      (resetPassword user newPassword usedAt) := by
  refine (lawful_issue (.reads rfl)).bind ?_
  rintro _ hashedPassword ⟨-, rfl⟩
  refine (lawful_commit (.confirmReset hpresented hhash hunused hread hknown hid hactive)).bind ?_
  rintro _ _ rfl
  refine (lawful_refreshUser user.id).bind ?_
  rintro y user' ⟨hxy, hread', -, hid'⟩
  have hpresented' := Knowledge.resetTokens_of_le hxy hpresented
  have htarget := hid'.trans hid
  refine (lawful_invalidate
    (.invalidate (.confirmReset hpresented' hhash hunused hread' htarget))).bind ?_
  rintro _ _ rfl
  refine (lawful_commit ?_).bind ?_
  · rw [htarget]
    exact .confirmResetUse hpresented' hhash hunused hread' htarget
  rintro _ _ rfl
  refine (lawful_refreshUser user'.id).bind ?_
  rintro z user'' ⟨hyz, hread'', -, hid''⟩
  refine (lawful_createAuditLog (.confirmResetAudit (Knowledge.resetTokens_of_le hyz hpresented') hhash
    hunused hread'' (hid''.trans htarget))).bind fun _ _ _ => lawful_ret trivial

lemma lawful_confirmPasswordReset [Field K] [LinearOrder K] [FloorRing K] (newPassword : String) :
    Lawful platform settings (.confirmReset token newPassword) (fun _ _ => True) x
      (confirmPasswordReset (K := K) platform token newPassword) := by
  refine (lawful_query (.resetToken (platform.hashPasswordResetToken token))).bind ?_
  rintro _ reply ⟨hreply, rfl⟩
  cases reply with
  | none => exact lawful_raise _
  | some resetToken =>
      refine (lawful_issue (.reads rfl)).bind ?_
      rintro y time ⟨-, hy⟩
      have hpresented : resetToken ∈ y.resetTokens := hy ▸ Or.inr rfl
      split_ifs with hused hexpired
      · exact lawful_raise _
      · exact lawful_raise _
      refine (lawful_query (.user resetToken.userId)).bind ?_
      rintro _ reply' ⟨hreply', rfl⟩
      cases reply' with
      | none => exact lawful_raise _
      | some user =>
          dsimp only
          split_ifs with hactive
          · exact lawful_raise _
          · exact lawful_resetPassword hpresented (hreply resetToken rfl) (by simpa using hused)
              Knowledge.mem_fresh_addUser Knowledge.mem_users_addUser (Int.ofNat.inj (hreply' user rfl)) (by simpa using hactive)

/-! ### Tokens -/

/-- `_decode_refresh_token`. -/
lemma lawful_decodeRefreshToken :
    Lawful (K := K) platform settings q (fun _ payload => Presented platform token payload) x
      (decodeRefreshToken token) := by
  refine (lawful_issue (.reads rfl)).bind ?_
  rintro y decoded ⟨hdecoded, -⟩
  cases decoded with
  | none => exact lawful_raise _
  | some claims =>
      show Lawful platform settings q _ _ (ite _ _ _)
      split_ifs with htype
      · exact lawful_raise _
      refine (lawful_getOrRaise (P := fun _ payload => Presented platform token payload)
        fun payload hpayload => ⟨claims, hdecoded claims rfl, not_ne_iff.1 htype, hpayload⟩).bind ?_
      rintro z payload hpresented
      refine (lawful_reads (q := q) (reads_isRefreshTokenRevoked payload.jti)).bind ?_
      rintro z' revoked -
      split_ifs
      · exact lawful_raise _
      · exact lawful_ret hpresented

lemma lawful_logoutUser :
    Lawful (K := K) platform settings (.logout token) (fun _ _ => True) x (logoutUser token) := by
  refine lawful_decodeRefreshToken.bind ?_
  rintro y payload hpresented
  refine Lawful.bind (M := fun _ _ => True) ?_ fun _ _ _ => lawful_ret trivial
  refine (lawful_issue (.logout hpresented)).bind ?_
  rintro z revoked -
  exact lawful_orUnhandled fun _ _ => trivial

/-- `_get_active_user_from_refresh_payload`. -/
lemma lawful_getActiveUser (payload : RefreshPayload) :
    Lawful (K := K) platform settings q (fun y user => user ∈ y.users ∧
      payload.sub.bind PyText.parseInt = some (user.id : ℤ) ∧ payload.tenantId = user.tenantId ∧
      payload.tokenVersion = user.tokenVersion ∧ user.isActive = true) x
      (getActiveUserFromRefreshPayload payload) := by
  unfold getActiveUserFromRefreshPayload
  rcases hsub : payload.sub.bind PyText.parseInt with _ | userId
  · exact lawful_raise _
  refine (lawful_query (.userInTenant userId payload.tenantId)).bind ?_
  rintro _ reply ⟨hreply, rfl⟩
  cases reply with
  | none => exact lawful_raise _
  | some user =>
      obtain ⟨hid, htenant⟩ := hreply user rfl
      dsimp only
      split_ifs with hactive hversion
      · exact lawful_raise _
      · exact (lawful_assertActiveTenantMembership user).bind fun _ _ _ => lawful_raise _
      · refine (lawful_assertActiveTenantMembership user).bind ?_
        rintro y _ ⟨hxy, -⟩
        exact lawful_ret ⟨Knowledge.users_of_le hxy Knowledge.mem_users_addUser, by rw [hid],
          htenant.symm, not_ne_iff.1 hversion, by simpa using hactive⟩

variable [Field K] [LinearOrder K] [FloorRing K]

lemma lawful_createTokens (user : User) :
    Lawful (K := K) platform settings q (fun y pair => x ≤ y ∧
      NewTokens (K := K) platform settings user pair) x (createTokens platform settings user) := by
  have hcreate : ∀ (type : String) (lifetime : K) (y : Knowledge K),
      Lawful platform settings q (fun z token => y ≤ z ∧ ∃ time n, token = platform.encode
        (newClaims type user.id.repr user.tenantId user.tokenVersion (time + lifetime)
          (platform.uuid7 n))) y
        (createToken platform type lifetime user.id.repr user.tenantId user.tokenVersion) := by
    intro type lifetime y
    refine (lawful_issue (.reads rfl)).bind ?_
    rintro z time ⟨-, hz⟩
    refine (lawful_issue (.reads rfl)).bind ?_
    rintro z' _ ⟨⟨n, rfl⟩, hz'⟩
    exact lawful_ret ⟨by rw [hz', hz]; exact le_refl y, time, n, rfl⟩
  refine (hcreate _ _ x).bind ?_
  rintro y accessToken ⟨hxy, time, n, haccess⟩
  refine (hcreate _ _ y).bind ?_
  rintro z refreshToken ⟨hyz, time', n', hrefresh⟩
  exact lawful_ret ⟨le_trans hxy hyz, time, time', n, n', haccess, hrefresh⟩

lemma lawful_login (email password : String) :
    Lawful (K := K) platform settings (.login email password requestedSlug)
      (fun y pair => Minted platform settings y (.login email password requestedSlug) pair) x
      (login platform settings email password requestedSlug) := by
  refine (lawful_getActiveTenantBySlug _).bind ?_
  rintro y tenant ⟨-, htenant, hslug, htenantActive⟩
  refine Lawful.bind (M := fun z user => y ≤ z ∧ user ∈ z.users ∧ user.email = email ∧
    user.tenantId = tenant.id ∧ platform.verifyPassword password user.hashedPassword = true ∧
    user.isActive = true) ?_ ?_
  · refine (lawful_query (.userByEmail email tenant.id)).bind ?_
    rintro _ reply ⟨hreply, rfl⟩
    cases reply with
    | none => exact lawful_raise _
    | some user =>
        obtain ⟨hemail, hmember⟩ := hreply user rfl
        dsimp only
        split_ifs with hverified hactive
        · exact lawful_raise _
        · exact lawful_raise _
        · exact lawful_ret ⟨Knowledge.le_learn rfl _, Knowledge.mem_users_addUser, hemail, hmember,
            by simpa using hverified, by simpa using hactive⟩
  · rintro z user ⟨hyz, hread, hemail, hmember, hverified, hactive⟩
    refine (lawful_createTokens user).imp ?_
    rintro z' pair ⟨hzz', htokens⟩
    exact .login (Knowledge.tenants_of_le (le_trans hyz hzz') htenant) hslug htenantActive
      (Knowledge.users_of_le hzz' hread) hemail hmember hverified hactive htokens

lemma lawful_rotateRefreshToken :
    Lawful (K := K) platform settings (.refresh token)
      (fun y pair => Minted platform settings y (.refresh token) pair) x
      (rotateRefreshToken platform settings token) := by
  refine lawful_decodeRefreshToken.bind ?_
  rintro y payload hpresented
  refine (lawful_getActiveUser payload).bind ?_
  rintro z user ⟨hread, hsubject, htenant, hversion, hactive⟩
  refine Lawful.bind (M := fun z' _ => user ∈ z'.users) ?_ ?_
  · refine (lawful_issue (.refresh hpresented hread hsubject htenant hversion hactive)).bind ?_
    rintro z' revoked ⟨-, hz'⟩
    exact lawful_orUnhandled fun _ _ => hz' ▸ hread
  · rintro z' revoked hread'
    split_ifs
    · refine (lawful_createTokens user).imp ?_
      rintro z'' pair ⟨hle, htokens⟩
      exact .refresh hpresented (Knowledge.users_of_le hle hread') hsubject htenant hversion hactive
        htokens
    · exact lawful_raise _

end Acting

end StarterBackend.Accounts

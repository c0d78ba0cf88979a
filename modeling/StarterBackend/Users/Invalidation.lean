/-
Every change of a user increments the version of its tenant.

A change commits first and increments the version of the tenant afterwards, sometimes with
other commands in between.  A program is followed command by command with the set of the
tenants whose users it has changed and whose version it has not incremented since: when it
returns there are none left.  The tenant of a user is a number that no statement changes,
so the tenants of all rows are fixed beforehand, as a function `τ`.
-/
import StarterBackend.Accounts.UserRows

namespace StarterBackend.Users

open Lib App

/-! ### Debts -/

section Debts

variable {K α β : Type} {τ : ℕ → ℕ} {owed : Set ℕ}

/-- The tenant whose users the statement changes. -/
def changedTenant (τ : ℕ → ℕ) : Statement K → Option ℕ
  | .insertUser _ _ tenantId => some tenantId
  | .updateUser userId _ => some (τ userId)
  | .deleteUser userId => some (τ userId)
  | _ => none

/-- The users of a reply are those that were asked for, in their tenants. -/
def InTenants (τ : ℕ → ℕ) : (c : Command K) → c.Reply → Prop
  | .query (.user userId), r => ∀ user, r = some user →
      (user.id : ℤ) = userId ∧ user.tenantId = τ user.id
  | .query (.userInTenant _ tenantId), r => ∀ user, r = some user →
      (user.tenantId : ℤ) = tenantId ∧ user.tenantId = τ user.id
  | _, _ => True

/-- The tenants whose version is to be incremented, after one more command. -/
def owes (τ : ℕ → ℕ) (owed : Set ℕ) : (c : Command K) → c.Reply → Set ℕ
  | .commit statements, _ => {tenantId | tenantId ∈ owed ∨
      ∃ statement ∈ statements, changedTenant τ statement = some tenantId}
  | .redisIncr key, _ => {tenantId | tenantId ∈ owed ∧ key ≠ buildUsersListCacheVersionKey tenantId}
  | _, _ => owed

/-- The program pays: what it still owes when it returns is as `P` says. -/
structure Repays (τ : ℕ → ℕ) (P : Set ℕ → α → Prop) (owed : Set ℕ) (p : AppProg K α) : Prop where
  informed : p.Informed (InTenants τ) (owes τ) (fun _ _ => True) P owed

/-- What is owed stays owed until its version is incremented. -/
lemma mem_owes {c : Command K} {r : c.Reply} {tenantId : ℕ} (h : tenantId ∈ owed)
    (hc : c ≠ .redisIncr (buildUsersListCacheVersionKey tenantId)) : tenantId ∈ owes τ owed c r := by
  cases c with
  | commit statements => exact Or.inl h
  | redisIncr key =>
      refine ⟨h, ?_⟩
      rintro rfl
      exact hc rfl
  | _ => exact h

/-- The replies on tables whose users are in these tenants. -/
lemma inTenants_exec [Field K] [LinearOrder K] [FloorRing K] {platform : Platform}
    {collation : Collation} {c : Command K} {e : Env K} {w : World K}
    (hτ : ∀ k user, w.db.users.row k = some user → user.tenantId = τ k) :
    InTenants τ c (c.exec platform collation e w).1 := by
  cases c with
  | query q =>
      cases q with
      | user userId =>
          intro user h
          obtain ⟨hid, hrow⟩ := Table.find_eq_some.1 h
          exact ⟨hid.symm, hτ _ user hrow⟩
      | userInTenant userId tenantId =>
          intro user h
          obtain ⟨hfind, htenant⟩ := Option.filter_eq_some_iff.1 h
          obtain ⟨-, hrow⟩ := Table.find_eq_some.1 hfind
          exact ⟨by simpa using htenant, hτ _ user hrow⟩
      | _ => trivial
  | _ => trivial

variable {P : Set ℕ → α → Prop} {p : AppProg K α} {f : α → AppProg K β} {user : User}

/-- **Sequencing.** -/
lemma Repays.bind {Q : Set ℕ → β → Prop} (hp : Repays τ P owed p)
    (hf : ∀ owed' a, P owed' a → Repays τ Q owed' (f a)) : Repays τ Q owed (p.bind f) :=
  ⟨hp.informed.bind fun owed' a ha => (hf owed' a ha).informed⟩

lemma Repays.imp {Q : Set ℕ → α → Prop} (hp : Repays τ P owed p)
    (h : ∀ owed' a, P owed' a → Q owed' a) : Repays τ Q owed p := ⟨hp.informed.imp h⟩

lemma repays_ret {a : α} (h : P owed a) : Repays (K := K) τ P owed (.ret a) := ⟨h⟩

lemma repays_raise (x : AppError) : Repays (K := K) τ P owed (.raise x) := ⟨trivial⟩

lemma repays_issue (c : Command K) :
    Repays τ (fun owed' r => InTenants τ c r ∧ owed' = owes τ owed c r) owed (issue c) :=
  ⟨trivial, fun _ hr => ⟨hr, rfl⟩⟩

lemma repays_getOrRaise {x : AppError} {a : Option α} (h : ∀ b ∈ a, P owed b) :
    Repays (K := K) τ P owed (.getOrRaise x a) := ⟨Prog.informed_getOrRaise h⟩

/-- A program that does not act on the world owes what it owed before. -/
lemma repays_reads (hp : Accounts.Reads p) : Repays τ (fun owed' _ => owed' = owed) owed p := by
  obtain ⟨hp⟩ := hp
  constructor
  induction p with
  | ret a => rfl
  | raise x => trivial
  | call c k ih =>
      refine ⟨trivial, fun r _ => ?_⟩
      have hsame : owes τ owed c r = owed := by
        cases c with
        | commit | redisIncr => cases hp.1
        | _ => rfl
      rw [hsame]
      exact ih r (hp.2 r)

/-! ### Reading -/

lemma reads_getActiveTenantBySlug (slug : String) :
    Accounts.Reads (getActiveTenantBySlug (K := K) slug) := by
  refine (Accounts.reads_issue rfl).bind fun tenant => ?_
  cases tenant with
  | none => exact Accounts.reads_raise _
  | some tenant =>
      dsimp only
      split_ifs
      · exact Accounts.reads_ret _
      · exact Accounts.reads_raise _

lemma reads_assertActiveTenantMembership (user : User) :
    Accounts.Reads (assertActiveTenantMembership (K := K) user) := by
  refine (Accounts.reads_issue rfl).bind fun tenant => ?_
  cases tenant with
  | none => exact Accounts.reads_raise _
  | some tenant =>
      dsimp only
      split_ifs
      · exact Accounts.reads_ret _
      · exact Accounts.reads_raise _

lemma reads_assertRequestedTenant (user : User) (requestedSlug : Option String) :
    Accounts.Reads (assertRequestedTenant (K := K) user requestedSlug) := by
  cases requestedSlug with
  | none => exact Accounts.reads_ret _
  | some slug =>
      refine (reads_getActiveTenantBySlug slug).bind fun tenant => ?_
      split_ifs
      · exact Accounts.reads_ret _
      · exact Accounts.reads_raise _

lemma repays_getCurrentUser (token : String) (requestedSlug : Option String) :
    Repays (K := K) τ (fun owed' user => owed' = owed ∧ user.tenantId = τ user.id) owed
      (getCurrentUser token requestedSlug) := by
  refine (repays_issue _).bind ?_
  rintro _ decoded ⟨-, rfl⟩
  refine (repays_reads (Accounts.reads_getOrRaise _ _)).bind ?_
  rintro _ claims rfl
  refine (repays_reads (Accounts.reads_getOrRaise _ _)).bind ?_
  rintro _ ⟨userId, tenantId, tokenVersion⟩ rfl
  refine (repays_issue _).bind ?_
  rintro _ row ⟨hrow, rfl⟩
  cases row with
  | none => exact repays_raise _
  | some user =>
      dsimp only
      split_ifs
      · exact repays_raise _
      · exact repays_raise _
      refine (repays_reads (reads_assertActiveTenantMembership user)).bind ?_
      rintro _ _ rfl
      refine (repays_reads (reads_assertRequestedTenant user requestedSlug)).bind ?_
      rintro _ _ rfl
      exact repays_ret ⟨rfl, (hrow user rfl).2⟩

lemma repays_requirePermission (permissions : List Permission) (token : String)
    (requestedSlug : Option String) :
    Repays (K := K) τ (fun owed' user => owed' = owed ∧ user.tenantId = τ user.id) owed
      (requirePermission permissions token requestedSlug) := by
  refine (repays_getCurrentUser token requestedSlug).bind ?_
  rintro _ user ⟨rfl, htenant⟩
  split_ifs
  · exact repays_ret ⟨rfl, htenant⟩
  · exact repays_raise _

/-- The user of an id in the session of a request is in the tenant of the request. -/
lemma loadedUser_tenant {currentUser row : User} (hcurrent : currentUser.tenantId = τ currentUser.id)
    (htenant : (row.tenantId : ℤ) = currentUser.tenantId) (hrow : row.tenantId = τ row.id) :
    (loadedUser currentUser row).tenantId = currentUser.tenantId ∧
      τ (loadedUser currentUser row).id = currentUser.tenantId := by
  unfold loadedUser
  split_ifs
  · exact ⟨rfl, hcurrent.symm⟩
  · have hsame : row.tenantId = currentUser.tenantId := Int.ofNat.inj htenant
    exact ⟨hsame, hrow.symm.trans hsame⟩

lemma repays_getLoadedUser {currentUser : User} (hcurrent : currentUser.tenantId = τ currentUser.id)
    (userId : ℤ) :
    Repays (K := K) τ (fun owed' found => owed' = owed ∧ ∀ user ∈ found,
      τ user.id = currentUser.tenantId) owed (getLoadedUser currentUser userId) := by
  refine (repays_issue (.query (.userInTenant userId currentUser.tenantId))).bind ?_
  rintro _ reply ⟨hreply, rfl⟩
  refine repays_ret ⟨rfl, fun user huser => ?_⟩
  cases reply with
  | none => cases huser
  | some row =>
      obtain rfl := Option.some.inj huser
      obtain ⟨htenant, hrow⟩ := hreply row rfl
      exact (loadedUser_tenant hcurrent htenant hrow).2

lemma repays_refreshUser (userId : ℕ) :
    Repays (K := K) τ (fun owed' user => owed' = owed ∧ user.tenantId = τ userId) owed
      (refreshUser userId) := by
  refine (repays_issue (.query (.user userId))).bind ?_
  rintro _ reply ⟨hreply, rfl⟩
  refine repays_getOrRaise fun user huser => ⟨rfl, ?_⟩
  obtain rfl : reply = some user := huser
  obtain ⟨hid, htenant⟩ := hreply user rfl
  rw [htenant, Int.ofNat.inj hid]

/-! ### Changing -/

/-- A transaction that changes users of one tenant only. -/
lemma repays_commit {statements : List (Statement K)} {tenantId : ℕ} (howed : owed ⊆ {tenantId})
    (h : ∀ statement ∈ statements, ∀ tenantId' ∈ changedTenant τ statement, tenantId' = tenantId) :
    Repays τ (fun owed' _ => owed' ⊆ {tenantId}) owed (commit statements) := by
  refine (repays_issue _).bind ?_
  rintro _ reply ⟨-, rfl⟩
  refine repays_getOrRaise fun _ _ => ?_
  rintro tenantId' (hmem | ⟨statement, hmem, htenant⟩)
  · exact howed hmem
  · exact h statement hmem tenantId' htenant

/-- The invalidation pays what is owed. -/
lemma repays_invalidate {tenantId : ℕ} (howed : owed ⊆ {tenantId}) :
    Repays (K := K) τ (fun owed' _ => owed' = ∅) owed (invalidateUsersListCache tenantId) := by
  refine (repays_issue _).bind ?_
  rintro _ reply ⟨-, rfl⟩
  refine repays_ret (Set.eq_empty_iff_forall_notMem.2 ?_)
  rintro tenantId' ⟨hmem, hkey⟩
  exact hkey (by rw [howed hmem])

lemma changedTenant_flushUser {changes : UserChanges} {statement : Statement K} {tenantId : ℕ}
    (hmem : statement ∈ flushUser user changes) (htenant : tenantId ∈ changedTenant τ statement) :
    tenantId = τ user.id := by
  unfold flushUser at hmem
  split_ifs at hmem
  · cases hmem
  · obtain rfl := List.mem_singleton.1 hmem
    exact (Option.some.inj htenant).symm

lemma repays_commitUserMutationWithAudit {statements : List (Statement K)} {currentUser : User}
    {action : AuditAction} {target : ℕ}
    (h : ∀ statement ∈ statements, ∀ tenantId ∈ changedTenant τ statement,
      tenantId = currentUser.tenantId) :
    Repays τ (fun owed' _ => owed' = ∅) ∅
      (commitUserMutationWithAudit statements currentUser action target) := by
  refine (repays_commit (Set.empty_subset _) fun statement hmem tenantId htenant => ?_).bind
    fun _ _ howed => repays_invalidate howed
  rcases List.mem_append.1 hmem with hmem | hmem
  · exact h statement hmem tenantId htenant
  · obtain rfl := List.mem_singleton.1 hmem
    cases htenant

lemma repays_patchUser (token : String) (requestedSlug : Option String) (userId : ℤ)
    (update : UserAdminUpdate) :
    Repays (K := K) τ (fun owed' _ => owed' = ∅) ∅ (patchUser token requestedSlug userId update) := by
  refine (repays_getCurrentUser token requestedSlug).bind ?_
  rintro _ currentUser ⟨rfl, hcurrent⟩
  refine (repays_issue (.query (.userInTenant userId currentUser.tenantId))).bind ?_
  rintro _ reply ⟨hreply, rfl⟩
  cases reply with
  | none => exact repays_raise _
  | some row =>
      obtain ⟨htenant, hrow⟩ := hreply row rfl
      have hτ := (loadedUser_tenant hcurrent htenant hrow).2
      dsimp only
      split_ifs
      · unfold patchLoadedUser
        split_ifs
        · refine (repays_commitUserMutationWithAudit fun statement hmem tenantId hchanged => ?_).bind ?_
          · exact (changedTenant_flushUser hmem hchanged).trans hτ
          · rintro _ _ rfl
            exact (repays_refreshUser _).imp fun _ _ h => h.1
        · refine (repays_commit (Set.empty_subset _) fun statement hmem tenantId hchanged =>
            changedTenant_flushUser hmem hchanged).bind ?_
          rintro owed' _ howed
          refine (repays_refreshUser _).bind ?_
          rintro _ updatedUser ⟨rfl, htenant'⟩
          rw [← htenant'] at howed
          refine (repays_invalidate howed).bind ?_
          rintro _ _ rfl
          exact repays_ret rfl
      · exact repays_raise _

/-- `deactivate_user` or `activate_user`, and what the endpoint does after it. -/
lemma repays_changeFoundUser {currentUser : User} {userId : ℤ} {action : AuditAction}
    {changes : User → UserChanges} (hcurrent : currentUser.tenantId = τ currentUser.id) :
    Repays (K := K) τ (fun owed' _ => owed' = ∅) ∅
      (((getLoadedUser currentUser userId).bind fun found =>
        .ret (found.map fun user => (user, flushUser user (changes user)))).bind
          (commitFoundUser currentUser action)) := by
  rw [Prog.bind_assoc]
  refine (repays_getLoadedUser hcurrent userId).bind ?_
  rintro _ found ⟨rfl, hfound⟩
  cases found with
  | none => exact repays_raise _
  | some user =>
      refine (repays_commitUserMutationWithAudit fun statement hmem tenantId hchanged => ?_).bind ?_
      · exact (changedTenant_flushUser hmem hchanged).trans (hfound user rfl)
      · rintro _ _ rfl
        exact (repays_refreshUser _).imp fun _ _ h => h.1

lemma repays_handler (token : String) (requestedSlug : Option String) (m : AdminMutation) :
    Repays (K := K) τ (fun owed' _ => owed' = ∅) ∅ (m.handler token requestedSlug) := by
  cases m with
  | patch userId update =>
      refine (repays_patchUser token requestedSlug userId update).bind ?_
      rintro _ _ rfl
      exact repays_ret rfl
  | deactivate userId =>
      refine Repays.bind (P := fun owed' _ => owed' = ∅) ?_ ?_
      · refine (repays_requirePermission _ token requestedSlug).bind ?_
        rintro _ currentUser ⟨rfl, hcurrent⟩
        exact repays_changeFoundUser hcurrent
      · rintro _ _ rfl
        exact repays_ret rfl
  | activate userId =>
      refine Repays.bind (P := fun owed' _ => owed' = ∅) ?_ ?_
      · refine (repays_requirePermission _ token requestedSlug).bind ?_
        rintro _ currentUser ⟨rfl, hcurrent⟩
        exact repays_changeFoundUser hcurrent
      · rintro _ _ rfl
        exact repays_ret rfl
  | remove userId =>
      refine (repays_requirePermission _ token requestedSlug).bind ?_
      rintro _ currentUser ⟨rfl, hcurrent⟩
      refine (repays_getLoadedUser hcurrent userId).bind ?_
      rintro _ found ⟨rfl, hfound⟩
      cases found with
      | none => exact repays_raise _
      | some user =>
          refine repays_commitUserMutationWithAudit fun statement hmem tenantId hchanged => ?_
          obtain rfl := List.mem_singleton.1 hmem
          exact (Option.some.inj hchanged).symm.trans (hfound user rfl)

lemma repays_register (settings : Settings) (email password : String)
    (requestedSlug : Option String) :
    Repays (K := K) τ (fun owed' _ => owed' = ∅) ∅
      (register settings email password requestedSlug) := by
  refine (repays_reads (reads_getActiveTenantBySlug _)).bind ?_
  rintro _ tenant rfl
  split_ifs
  · refine (repays_issue _).bind ?_
    rintro _ found ⟨-, rfl⟩
    cases found with
    | some user => exact repays_raise _
    | none =>
        refine (repays_issue _).bind ?_
        rintro _ hashedPassword ⟨-, rfl⟩
        refine (repays_commit (Set.empty_subset {tenant.id}) fun statement hmem tenantId hchanged => ?_).bind ?_
        · obtain rfl := List.mem_singleton.1 hmem
          exact (Option.some.inj hchanged).symm
        rintro owed' id howed
        refine (repays_reads (Accounts.reads_getOrRaise _ _)).bind ?_
        rintro _ userId rfl
        refine (repays_refreshUser userId).bind ?_
        rintro _ user ⟨rfl, -⟩
        refine (repays_invalidate howed).bind ?_
        rintro _ _ rfl
        exact repays_ret rfl
  · exact repays_raise _

/-- A transaction that changes no users. -/
lemma repays_otherCommit {statement : Statement K} (h : changedTenant τ statement = none) :
    Repays τ (fun owed' _ => owed' = ∅) ∅ (commit [statement]) := by
  refine (repays_issue _).bind ?_
  rintro _ reply ⟨-, rfl⟩
  refine repays_getOrRaise fun _ _ => Set.eq_empty_iff_forall_notMem.2 ?_
  rintro tenantId (hmem | ⟨statement', hmem, htenant⟩)
  · exact hmem
  · rw [List.mem_singleton.1 hmem, h] at htenant
    cases htenant

lemma repays_confirmPasswordReset [LinearOrder K] (platform : Platform) (token newPassword : String) :
    Repays (K := K) τ (fun owed' _ => owed' = ∅) ∅ (confirmPasswordReset platform token newPassword) := by
  refine (repays_issue _).bind ?_
  rintro _ resetToken ⟨-, rfl⟩
  cases resetToken with
  | none => exact repays_raise _
  | some resetToken =>
      refine (repays_issue _).bind ?_
      rintro _ time ⟨-, rfl⟩
      split_ifs
      · exact repays_raise _
      · exact repays_raise _
      refine (repays_issue _).bind ?_
      rintro _ user ⟨-, rfl⟩
      cases user with
      | none => exact repays_raise _
      | some user =>
          dsimp only
          split_ifs
          · exact repays_raise _
          refine (repays_issue _).bind ?_
          rintro _ hashedPassword ⟨-, rfl⟩
          refine (repays_commit (Set.empty_subset _) fun statement hmem tenantId hchanged =>
            changedTenant_flushUser hmem hchanged).bind ?_
          rintro owed' _ howed
          refine (repays_refreshUser _).bind ?_
          rintro _ user' ⟨rfl, htenant⟩
          rw [← htenant] at howed
          refine (repays_invalidate howed).bind ?_
          rintro _ _ rfl
          refine (repays_otherCommit rfl).bind ?_
          rintro _ _ rfl
          refine (repays_refreshUser _).bind ?_
          rintro _ user'' ⟨rfl, -⟩
          refine Repays.bind (P := fun owed' _ => owed' = ∅) ?_ ?_
          · refine (repays_otherCommit rfl).bind ?_
            rintro _ _ rfl
            exact repays_ret rfl
          · rintro _ _ rfl
            exact repays_ret rfl

/-- **A change that returns owes nothing.** -/
lemma repays_program [Field K] [LinearOrder K] (platform : Platform) (settings : Settings)
    (m : UserChange) :
    Repays (K := K) τ (fun owed' _ => owed' = ∅) ∅ (m.program platform settings) := by
  cases m with
  | register email password requestedSlug =>
      refine (repays_register settings email password requestedSlug).bind ?_
      rintro _ _ rfl
      exact repays_ret rfl
  | byToken token requestedSlug m => exact repays_handler token requestedSlug m
  | confirmReset token newPassword =>
      refine (repays_confirmPasswordReset platform token newPassword).bind ?_
      rintro _ _ rfl
      exact repays_ret rfl

end Debts

end StarterBackend.Users

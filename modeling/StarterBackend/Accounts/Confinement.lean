/-
Roles are given within a tenant only, by its administrators.

A request decides on rows that may have changed since it has read them, so a role can
still be given by an administrator that is none any more.  What holds in every run is
about the past: the administrator was one when the request read its row.  A tenant
without administrators never gets one, and nobody but their owners changes its users.
-/
import StarterBackend.Accounts.UserRows

namespace StarterBackend.Accounts

open Lib App

/-! ### Permissions of administrators -/

/-- The permissions to change other users. -/
def Permission.ofAdmins : List Permission :=
  [.usersUpdate, .usersDelete, .usersActivate, .usersDeactivate]

/-- Whoever has one of these permissions has the first. -/
lemma usersUpdate_of_mem {user : User} {permission : Permission}
    (hmem : permission ∈ Permission.ofAdmins) (h : userHasPermission user permission = true) :
    userHasPermission user .usersUpdate = true := by
  simp only [userHasPermission, getPermissionsForRole_eq] at h ⊢
  split_ifs at h ⊢
  · revert permission
    decide
  · decide
  · decide
  · simp at h

lemma usersUpdate_user {user : User} (h : user.role = UserRole.user.value) :
    userHasPermission user .usersUpdate = false := by
  simp only [userHasPermission, h]
  decide

/-! ### A tenant without administrators -/

section Confinement

variable {K : Type} {platform : Platform} {settings : Settings}

/-- The users of a tenant are those of an earlier database, with their roles and states, and others that
have registered. -/
structure Frozen (tenantId : ℕ) (db db' : Database K) : Prop where
  kept : ∀ k user, db.users.row k = some user → user.tenantId = tenantId →
    ∃ user', db'.users.row k = some user' ∧ user'.tenantId = tenantId ∧ user'.role = user.role ∧
      user'.isActive = user.isActive
  new : ∀ k user, db.users.row k = none → db'.users.row k = some user → user.tenantId = tenantId →
    user.role = UserRole.user.value ∧ user.isActive = true

lemma Frozen.refl (tenantId : ℕ) (db : Database K) : Frozen tenantId db db :=
  ⟨fun _ user huser htenant => ⟨user, huser, htenant, rfl, rfl⟩,
    fun k user hnone huser => by rw [hnone] at huser; cases huser⟩

variable {x : Knowledge K} {q : ApiRequest settings} {db₀ db db' : Database K} {tenantId : ℕ}
  {user row updated : User} {changes : UserChanges}

/-- The columns that the owner of a row cannot change. -/
lemma Changes.admin_or_own (h : Changes platform x q user changes) :
    (∃ currentUser ∈ x.users, userHasPermission currentUser .usersUpdate = true ∧
      currentUser.tenantId = user.tenantId) ∨ (changes.role = none ∧ changes.isActive = none) := by
  cases h with
  | patch named permission read target tenant =>
      exact .inl ⟨_, named.read, permission, tenant.symm⟩
  | patchSelf named read target => exact .inr ⟨rfl, rfl⟩
  | deactivate named permission read target tenant =>
      exact .inl ⟨_, named.read, usersUpdate_of_mem (by decide) permission, tenant.symm⟩
  | activate named permission read target tenant =>
      exact .inl ⟨_, named.read, usersUpdate_of_mem (by decide) permission, tenant.symm⟩
  | confirmReset presented hash unused read target => exact .inr ⟨rfl, rfl⟩

/-- The row after an `UPDATE` of other columns. -/
lemma apply_of_none (hrole : changes.role = none) (hactive : changes.isActive = none)
    (h : changes.apply row = some updated) :
    updated.role = row.role ∧ updated.isActive = row.isActive := by
  obtain ⟨-, -, -, -, -, hactive', hrole'⟩ := UserChanges.apply_eq_some h
  rw [hrole] at hrole'
  rw [hactive] at hactive'
  exact ⟨(Option.some.inj hrole').symm, (Option.some.inj hactive').symm⟩

/-- **One commit keeps a tenant without administrators as it is.** -/
lemma Frozen.step (h : Frozen tenantId db₀ db)
    {statements : List (Statement K)}
    (hrows : ∀ k, RowStep platform x q statements db k (db'.users.row k))
    (hreads : ∀ user ∈ x.fresh, ∀ row, db.users.row user.id = some row →
      row.tenantId = user.tenantId)
    (hadmins : ∀ user ∈ x.users, user.tenantId = tenantId →
      userHasPermission user .usersUpdate = false) : Frozen tenantId db₀ db' := by
  -- no administrator changes a row of the tenant, so only its owner does
  have hown : ∀ {k : ℕ} {user row updated : User} {changes : UserChanges},
      Changes platform x q user changes → user ∈ x.fresh → user.id = k →
      db.users.row k = some row → row.tenantId = tenantId → changes.apply row = some updated →
      updated.role = row.role ∧ updated.isActive = row.isActive := by
    intro k user row updated changes hchange hread hid hrow htenant happly
    rcases hchange.admin_or_own with ⟨currentUser, hread', hpermission, hsame⟩ | ⟨hrole, hactive⟩
    · have huser := hreads user hread row (hid ▸ hrow)
      rw [hadmins currentUser hread' (hsame.trans (huser.symm.trans htenant))] at hpermission
      cases hpermission
    · exact apply_of_none hrole hactive happly
  have hfresh : ∀ {user : User} {changes : UserChanges}, Changes platform x q user changes →
      user ∈ x.fresh := by
    intro user changes hchange
    cases hchange <;> assumption
  constructor
  · intro k user huser htenant
    obtain ⟨row, hrow, hrowtenant, hrole, hactive⟩ := h.kept k user huser htenant
    generalize hafter : db'.users.row k = after
    have hstep := hrows k
    rw [hafter] at hstep
    cases hstep with
    | keep => exact ⟨row, hrow, hrowtenant, hrole, hactive⟩
    | insert request fresh => exact absurd (db.users.lt_of_row hrow) (by omega)
    | @update read' before updated changes change target only hbefore happly =>
        obtain rfl := Option.some.inj (hrow.symm.trans hbefore)
        obtain ⟨hrole', hactive'⟩ := hown change (hfresh change) target hrow hrowtenant happly
        exact ⟨updated, rfl, (UserChanges.apply_eq_some happly).2.1.trans hrowtenant,
          hrole'.trans hrole, hactive'.trans hactive⟩
    | @delete _ _ currentUser deleted _ request named permission read target tenant =>
        have hsame := hreads deleted read row (target.symm ▸ hrow)
        have hupdate := usersUpdate_of_mem (by decide) permission
        rw [hadmins currentUser named.read (tenant.symm.trans (hsame.symm.trans hrowtenant))] at hupdate
        cases hupdate
  · intro k user hnone huser htenant
    have hstep := hrows k
    rw [huser] at hstep
    generalize hafter : some user = after at hstep
    cases hstep with
    | keep => exact h.new k user hnone hafter.symm htenant
    | insert request fresh =>
        obtain rfl := Option.some.inj hafter
        exact ⟨rfl, rfl⟩
    | @update read' before updated changes change target only hbefore happly =>
        obtain rfl := Option.some.inj hafter
        have htenant' := (UserChanges.apply_eq_some happly).2.1.symm.trans htenant
        obtain ⟨hrole', hactive'⟩ := hown change (hfresh change) target hbefore htenant' happly
        obtain ⟨hrole, hactive⟩ := h.new k before hnone hbefore htenant'
        exact ⟨hrole'.trans hrole, hactive'.trans hactive⟩
    | delete => cases hafter

/-- A frozen tenant has no administrator. -/
lemma Frozen.not_admin {db₀ db : Database K} (h : Frozen tenantId db₀ db)
    (hfree : ∀ k user, db₀.users.row k = some user → user.tenantId = tenantId →
      userHasPermission user .usersUpdate = false) {user : User}
    (huser : db.users.row user.id = some user) (htenant : user.tenantId = tenantId)
    (hlater : Later db₀ db) : userHasPermission user .usersUpdate = false := by
  rcases hbefore : db₀.users.row user.id with _ | before
  · exact usersUpdate_user (h.new user.id user hbefore huser htenant).1
  · obtain ⟨before', hbefore', hsame⟩ :=
      hlater.row user.id (db₀.users.lt_of_row hbefore) user huser
    obtain rfl := Option.some.inj (hbefore.symm.trans hbefore')
    have htenant' := hsame.symm.trans htenant
    obtain ⟨after, hafter, -, hrole, -⟩ := h.kept user.id before hbefore htenant'
    obtain rfl := Option.some.inj (huser.symm.trans hafter)
    have hpermission := hfree user.id before hbefore htenant'
    rwa [userHasPermission, ← hrole] at hpermission

end Confinement

/-! ### Runs -/

section Runs

variable {K : Type} [Field K] [LinearOrder K] [FloorRing K] {platform : Platform}
  {collation : Collation} {settings : Settings} {ι : Type} [DecidableEq ι] {w : World K}
  {as : List (PoolAction ι (ApiRequest settings) (Env K))} {s : Api settings ι K} {tenantId : ℕ}

/-- What the changes of a body make of the role. -/
lemma role_of_updateUserChanges {user row updated : User} {update : UserAdminUpdate}
    (h : (updateUserChanges user update).apply row = some updated) (hne : updated.role ≠ row.role) :
    ∃ role, update.role = some (some role) ∧ role.value = updated.role := by
  obtain ⟨-, -, -, -, -, -, hrole⟩ := UserChanges.apply_eq_some h
  rcases hset : (updateUserChanges user update).role with _ | set
  · rw [hset] at hrole
    exact absurd (Option.some.inj hrole).symm hne
  · rw [hset] at hrole
    obtain rfl : set = some updated.role := hrole
    obtain ⟨hmap, -⟩ := Option.filter_eq_some_iff.1 hset
    obtain ⟨body, hbody, hvalue⟩ := Option.map_eq_some_iff.1 hmap
    obtain ⟨role, rfl, hrole'⟩ := Option.map_eq_some_iff.1 hvalue
    exact ⟨role, hbody, hrole'⟩

variable (platform collation) in
/-- The role of a user was given in the run, by the commit of a `PATCH` that names it, for a caller who
was read with the permission in the tenant of the user. -/
def RoleGiven (w : World K) (as : List (PoolAction ι (ApiRequest settings) (Env K))) (k : ℕ)
    (user : User) : Prop :=
  ∃ bs a u v i x statements token requestedSlug currentUser update role, bs ++ [a] <+: as ∧
    exec (Api.step platform collation settings) (Pool.initial w) bs = some u ∧
    CommitStep platform collation w bs a u v i
      (.byUser token requestedSlug (.change (.patch k update))) x statements ∧
    Named platform token requestedSlug x currentUser ∧
    userHasPermission currentUser .usersUpdate = true ∧ currentUser.tenantId = user.tenantId ∧
    update.role = some (some role) ∧ role.value = user.role

end Runs

end StarterBackend.Accounts

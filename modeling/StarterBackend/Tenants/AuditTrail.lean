/-
The audit log of tenants and of password resets.

The change and its entry in the audit log are two transactions.  A call that stops with
some of its transactions committed, and not all of them, leaves a change without its
entry; otherwise the database has both or none (`change_audited_iff`).  A tenant that is
set to the state that it has already is the exception the other way round: there is
nothing to commit but the entry.
-/
import StarterBackend.Sessions.Interrupted

namespace StarterBackend.Tenants

open Lib App Sessions

section

variable {K : Type} [Field K] [LinearOrder K] [FloorRing K]

/-- A change that has to be recorded. -/
inductive SecurityChange where
  | provisionTenant (slug name : String) (adminId adminTenantId : ℕ)
  | setTenantActiveState (tenantId : ℤ) (isActive : Bool) (adminId adminTenantId : ℕ)
  | confirmPasswordReset (token newPassword : String)

namespace SecurityChange

/-- The call that makes the change. -/
def program (platform : Platform) : SecurityChange → AppProg K Unit
  | .provisionTenant slug name adminId adminTenantId => do
      let _ ← App.provisionTenant slug name adminId adminTenantId
  | .setTenantActiveState tenantId isActive adminId adminTenantId => do
      let _ ← App.setTenantActiveState tenantId isActive adminId adminTenantId
  | .confirmPasswordReset token newPassword => do
      let _ ← App.confirmPasswordReset platform token newPassword

/-- The transactions of a call that is not interrupted. -/
def commits : SecurityChange → ℕ
  | .provisionTenant _ _ _ _ => 2
  | .setTenantActiveState _ _ _ _ => 2
  | .confirmPasswordReset _ _ => 3

/-- The user of a reset token, with its row. -/
def userOf (platform : Platform) (db : Database K) (token : String) : Option User :=
  (tokenUser? platform db token).bind db.users.row

/-- The second database has the change: a new tenant of the slug, another state of the tenant, another
password and version of the user. -/
def Changed (platform : Platform) (db db' : Database K) : SecurityChange → Prop
  | .provisionTenant slug _ _ _ => ∃ k tenant, db.tenants.row k = none ∧
      db'.tenants.row k = some tenant ∧ tenant.slug = slug
  | .setTenantActiveState tenantId _ _ _ => ∃ tenant tenant', db.tenants.find tenantId = some tenant ∧
      db'.tenants.find tenantId = some tenant' ∧ tenant'.isActive ≠ tenant.isActive
  | .confirmPasswordReset token _ => ∃ user user', userOf platform db token = some user ∧
      db'.users.row user.id = some user' ∧ (user'.hashedPassword, user'.tokenVersion) ≠
        (user.hashedPassword, user.tokenVersion)

/-- The entry of the audit log records the change. -/
def IsRecord (platform : Platform) (db : Database K) (log : AuditLog K) : SecurityChange → Prop
  | .provisionTenant _ _ adminId adminTenantId =>
      log.tenantId = adminTenantId ∧ log.adminId = some adminId ∧ log.action = .tenantCreated
  | .setTenantActiveState _ isActive adminId adminTenantId =>
      log.tenantId = adminTenantId ∧ log.adminId = some adminId ∧
        log.action = if isActive then .tenantActivated else .tenantDeactivated
  | .confirmPasswordReset token _ => ∃ user, userOf platform db token = some user ∧
      log.tenantId = user.tenantId ∧ log.action = .passwordResetConfirmed ∧
        log.targetUserId = some user.id

/-- The second database has a new entry that records the change. -/
def Audited (platform : Platform) (db db' : Database K) (change : SecurityChange) : Prop :=
  ∃ k log, db.auditLogs.row k = none ∧ db'.auditLogs.row k = some log ∧
    change.IsRecord platform db log

/-- Both or none exactly when no transaction was committed, or all. -/
def Recorded (platform : Platform) (db : Database K) (change : SecurityChange) (db' : Database K)
    (n : ℕ) : Prop :=
  (change.Changed platform db db' ↔ change.Audited platform db db') ↔ n = 0 ∨ n = change.commits

variable {platform : Platform} {collation : Collation} {G : Env K → Prop} {db db' : Database K}
  {change : SecurityChange} {w : World K} {n : ℕ}

omit [Field K] [LinearOrder K] [FloorRing K] in
lemma not_audited (h : db'.auditLogs = db.auditLogs) : ¬ change.Audited platform db db' := by
  rintro ⟨k, log, hnone, hsome, -⟩
  rw [h, hnone] at hsome
  nomatch hsome

omit [Field K] [LinearOrder K] [FloorRing K] in
lemma not_changed : ¬ change.Changed platform db db := by
  cases change with
  | provisionTenant slug name adminId adminTenantId =>
      rintro ⟨k, tenant, hnone, hsome, -⟩
      rw [hnone] at hsome
      nomatch hsome
  | setTenantActiveState tenantId isActive adminId adminTenantId =>
      rintro ⟨tenant, tenant', h, h', hne⟩
      obtain rfl := Option.some.inj (h.symm.trans h')
      exact hne rfl
  | confirmPasswordReset token newPassword =>
      rintro ⟨user, user', h, h', hne⟩
      obtain ⟨u, -, hrow⟩ := Option.bind_eq_some_iff.1 h
      obtain rfl : user.id = u := db.users.id_of_row hrow
      obtain rfl := Option.some.inj (hrow.symm.trans h')
      exact hne rfl

omit [Field K] [LinearOrder K] [FloorRing K] in
/-- Nothing has been committed. -/
lemma recorded_untouched : change.Recorded platform db db 0 :=
  iff_of_true (iff_of_false not_changed (not_audited rfl)) (.inl rfl)

omit [Field K] [LinearOrder K] [FloorRing K] in
/-- The change has been committed, and its entry has not. -/
lemma recorded_changed (hchanged : change.Changed platform db db') (h : db'.auditLogs = db.auditLogs)
    (hn : n ≠ 0) (hn' : n ≠ change.commits) : change.Recorded platform db db' n :=
  iff_of_false (fun hiff => not_audited h (hiff.1 hchanged)) (by simp [hn, hn'])

omit [Field K] [LinearOrder K] [FloorRing K] in
/-- Both have been committed. -/
lemma recorded_audited (hchanged : change.Changed platform db db')
    (haudited : change.Audited platform db db') : change.Recorded platform db db' change.commits :=
  iff_of_true (iff_of_true hchanged haudited) (.inr rfl)

/-! ### The three calls -/

/-- The entry of the audit log at the end of a call. -/
lemma keeps_entry {α : Type} {tenantId : ℕ} {adminId targetUserId : Option ℕ} {action : AuditAction}
    {a : α} (hpoint : change.Recorded platform db w.db n) (hlogs : w.db.auditLogs = db.auditLogs)
    (hrecord : ∀ id createdAt, change.IsRecord platform db
      ⟨id, tenantId, adminId, action, targetUserId, createdAt⟩)
    (hend : ∀ auditLogs, change.Audited platform db { w.db with auditLogs } →
      change.Recorded platform db { w.db with auditLogs } (n + 1)) :
    Keeps platform collation G (change.Recorded platform db) (fun _ _ => True)
      ((createAuditLog tenantId adminId action targetUserId).bind fun _ => .ret a) w n := by
  refine keeps_createAuditLog hpoint fun gap createdAt now => ?_
  have haudited : change.Audited platform db { w.db with
      auditLogs := w.db.auditLogs.insert gap
        (fun id => ⟨id, tenantId, adminId, action, targetUserId, createdAt⟩) fun _ => rfl } := by
    refine ⟨db.auditLogs.freshId gap,
      ⟨db.auditLogs.freshId gap, tenantId, adminId, action, targetUserId, createdAt⟩,
      Table.row_eq_none_of_le (by simp), ?_, hrecord _ _⟩
    rw [hlogs]
    simp
  exact ⟨hend _ haudited, hend _ haudited, trivial⟩

/-- The entry of a call that has made its change. -/
lemma keeps_record {α : Type} {tenantId : ℕ} {adminId targetUserId : Option ℕ} {action : AuditAction}
    {a : α} (hchanged : change.Changed platform db w.db) (hlogs : w.db.auditLogs = db.auditLogs)
    (hn : n ≠ 0) (hcommits : n + 1 = change.commits) (hrecord : ∀ id createdAt, change.IsRecord
      platform db ⟨id, tenantId, adminId, action, targetUserId, createdAt⟩) :
    Keeps platform collation G (change.Recorded platform db) (fun _ _ => True)
      ((createAuditLog tenantId adminId action targetUserId).bind fun _ => .ret a) w n := by
  refine keeps_entry (recorded_changed hchanged hlogs hn (by omega)) hlogs hrecord
    fun auditLogs haudited => ?_
  have hchanged' : change.Changed platform db { w.db with auditLogs } := by
    cases change <;> exact hchanged
  rw [hcommits]
  exact recorded_audited hchanged' haudited

lemma keeps_provisionTenant (slug name : String) (adminId adminTenantId : ℕ) :
    Keeps platform collation G
      ((SecurityChange.provisionTenant slug name adminId adminTenantId).Recorded platform w.db)
      (fun _ _ => True) (App.provisionTenant slug name adminId adminTenantId) w 0 := by
  unfold App.provisionTenant createTenant
  refine Prog.Always.bind (keeps_query recorded_untouched fun now => ?_)
  rw [Prog.ret_bind]
  rcases Query.eval collation w.db (.tenantBySlug slug) with _ | tenant
  · refine keeps_commit recorded_untouched fun gap databaseNow id db now' hcommit => ?_
    rw [transaction_singleton] at hcommit
    simp only [Statement.exec] at hcommit
    split_ifs at hcommit
    obtain ⟨rfl, rfl⟩ := Prod.mk.inj (Option.some.inj hcommit)
    have hchanged : (SecurityChange.provisionTenant slug name adminId adminTenantId).Changed platform
        w.db { w.db with
          tenants := w.db.tenants.insert gap (fun id => ⟨id, slug, name, true⟩) fun _ => rfl } :=
      ⟨w.db.tenants.freshId gap, ⟨w.db.tenants.freshId gap, slug, name, true⟩,
        Table.row_eq_none_of_le (by simp), by simp, rfl⟩
    have hpoint := recorded_changed (n := 1) hchanged rfl (by simp) (by simp [commits])
    refine ⟨hpoint, keeps_query hpoint fun now'' => ?_⟩
    rw [Prog.ret_bind]
    rcases Query.eval collation _ (.tenant _) with _ | tenant
    · exact hpoint
    · exact ⟨hpoint, keeps_record hchanged rfl (by simp) rfl fun _ _ => ⟨rfl, rfl, rfl⟩⟩
  · exact recorded_untouched

lemma keeps_setTenantActiveState (tenantId : ℤ) (isActive : Bool) (adminId adminTenantId : ℕ) :
    Keeps platform collation G
      ((SecurityChange.setTenantActiveState tenantId isActive adminId adminTenantId).Recorded
        platform w.db) (fun _ _ => True)
      (App.setTenantActiveState tenantId isActive adminId adminTenantId) w 0 := by
  unfold App.setTenantActiveState updateTenant
  refine Prog.Always.bind (keeps_query recorded_untouched fun now => ?_)
  rw [Prog.ret_bind]
  rcases hfind : Query.eval collation w.db (.tenant tenantId) with _ | tenant
  · exact ⟨recorded_untouched, recorded_untouched, trivial⟩
  · by_cases hsame : isActive = tenant.isActive
    · -- there is nothing to change, and the entry is committed all the same
      have hnothing : (some isActive).filter (· ≠ tenant.isActive) = none := by simp [hsame]
      simp only [hnothing, Option.filter_none, Option.isSome_none, Bool.false_eq_true, or_self, if_false]
      refine keeps_query recorded_untouched fun now' => ?_
      rcases Query.eval collation _ (.tenant _) with _ | tenant'
      · exact recorded_untouched
      · refine ⟨recorded_untouched, keeps_entry recorded_untouched rfl (fun _ _ => ⟨rfl, rfl, rfl⟩)
          fun auditLogs haudited => iff_of_false (fun hiff => ?_) (by simp [commits])⟩
        have hnot : ¬ (SecurityChange.setTenantActiveState tenantId isActive adminId
            adminTenantId).Changed platform w.db w.db := not_changed
        exact hnot (hiff.2 haudited)
    · have hdiffers : (some isActive).filter (· ≠ tenant.isActive) = some isActive := by simp [hsame]
      simp only [hdiffers, Option.filter_none, Option.isSome_some, or_true, if_true]
      refine keeps_commit recorded_untouched fun gap databaseNow id db now' hcommit => ?_
      rw [transaction_singleton] at hcommit
      simp only [Statement.exec] at hcommit
      split_ifs at hcommit
      obtain ⟨rfl, rfl⟩ := Prod.mk.inj (Option.some.inj hcommit)
      obtain ⟨hid, hrow⟩ := Table.find_eq_some.1 hfind
      have hchanged : (SecurityChange.setTenantActiveState tenantId isActive adminId
          adminTenantId).Changed platform w.db { w.db with
            tenants := w.db.tenants.modify (fun row => if row.id = tenant.id then
              { row with name := none.getD row.name, isActive := (some isActive).getD row.isActive }
              else row) (by intro row; split <;> rfl) } := by
        refine ⟨tenant, { tenant with isActive }, hfind, ?_, hsame⟩
        rw [hid, Table.find_natCast, Table.row_modify, hrow, Option.map_some, if_pos rfl]
        rfl
      have hpoint := recorded_changed (n := 1) hchanged rfl (by simp) (by simp [commits])
      refine ⟨hpoint, keeps_query hpoint fun now'' => ?_⟩
      rcases Query.eval collation _ (.tenant _) with _ | tenant'
      · exact hpoint
      · exact ⟨hpoint, keeps_record hchanged rfl (by simp) rfl fun _ _ => ⟨rfl, rfl, rfl⟩⟩

omit [Field K] [LinearOrder K] [FloorRing K] in
/-- The points of a reset. -/
lemma recorded_of_resetPoint {token newPassword : String} {user : User} (huser : userOf platform db token = some user)
    (h : ResetPoint G db user db' n) :
    (SecurityChange.confirmPasswordReset token newPassword).Recorded platform db db' n := by
  obtain ⟨u, -, hrow⟩ := Option.bind_eq_some_iff.1 huser
  obtain rfl : user.id = u := db.users.id_of_row hrow
  have hchanged : ∀ (s : String) (db' : Database K), db'.users = (db.setUser (resetRow user s)).users →
      (SecurityChange.confirmPasswordReset token newPassword).Changed platform db db' := by
    intro s db' husers
    refine ⟨user, resetRow user s, huser, ?_, by simp [resetRow]⟩
    rw [husers]
    exact row_resetRow hrow s
  cases h with
  | untouched => exact recorded_untouched
  | stored e he => exact recorded_changed (hchanged _ _ rfl) rfl (by simp) (by simp [commits])
  | marked e he usedAt => exact recorded_changed (hchanged _ _ rfl) rfl (by simp) (by simp [commits])
  | audited e he usedAt createdAt gap =>
      refine recorded_audited (hchanged _ _ rfl) ⟨db.auditLogs.freshId gap,
        resetEntry user createdAt (db.auditLogs.freshId gap), Table.row_eq_none_of_le (by simp), ?_,
        user, huser, rfl, rfl, rfl⟩
      exact Function.update_self ..

lemma keeps_confirm (token newPassword : String) :
    Keeps platform collation G
      ((SecurityChange.confirmPasswordReset token newPassword).Recorded platform w.db)
      (fun _ _ => True) (App.confirmPasswordReset platform token newPassword) w 0 := by
  rcases hof : userOf platform w.db token with _ | user
  · have hrefused : Keeps platform collation G (fun db n => db = w.db ∧ n = 0) (fun _ _ => False)
        (App.confirmPasswordReset platform token newPassword) w 0 := by
      refine keeps_refused fun resetToken htoken => .inr ?_
      simpa [userOf, tokenUser?, htoken] using hof
    refine hrefused.mono ?_ fun _ _ _ _ => trivial
    rintro ⟨w', n⟩ ⟨hdb, hn⟩
    simp only at hdb hn
    rw [hdb, hn]
    exact recorded_untouched
  · obtain ⟨u, hu, hrow⟩ := Option.bind_eq_some_iff.1 hof
    obtain ⟨resetToken, htoken, rfl⟩ := Option.map_eq_some_iff.1 hu
    have hkeeps : Keeps platform collation G (ResetPoint G w.db user) (fun _ _ => True)
        (App.confirmPasswordReset platform token newPassword) w 0 :=
      keeps_confirmPasswordReset platform collation G ⟨token, newPassword⟩ htoken hrow
    exact hkeeps.mono (fun x => recorded_of_resetPoint hof) fun _ _ _ => id

variable (change) in
/-- **A change is committed with its entry in the audit log, or neither**, exactly when the call stops
before its first commit or after its last.  The call stops at any point, because its process dies or
because a statement or a commit fails; `n` is the number of transactions that it has committed. -/
theorem change_audited_iff {inputs : List (Option (Env K))} {p : AppProg K Unit} {w' : World K}
    (h : (change.program platform).advance (faulty platform collation) inputs (w, 0) =
      some (p, (w', n))) :
    (change.Changed platform w.db w'.db ↔ change.Audited platform w.db w'.db) ↔
      n = 0 ∨ n = change.commits := by
  have hkeeps : Keeps platform collation (fun _ => True) (change.Recorded platform w.db)
      (fun _ _ => True) (change.program platform) w 0 := by
    have hend : ∀ {α : Type} {p : AppProg K α}, Keeps platform collation (fun _ => True)
        (change.Recorded platform w.db) (fun _ _ => True) p w 0 →
        Keeps platform collation (fun _ => True) (change.Recorded platform w.db) (fun _ _ => True)
          (p.bind fun _ => .ret ()) w 0 :=
      fun hp => Prog.Always.bind (hp.mono (fun _ => id) fun _ _ hpoint _ => ⟨hpoint, trivial⟩)
    cases change with
    | provisionTenant slug name adminId adminTenantId =>
        exact hend (keeps_provisionTenant slug name adminId adminTenantId)
    | setTenantActiveState tenantId isActive adminId adminTenantId =>
        exact hend (keeps_setTenantActiveState tenantId isActive adminId adminTenantId)
    | confirmPasswordReset token newPassword => exact hend (keeps_confirm token newPassword)
  exact (hkeeps.advance (fun _ _ _ _ => trivial) h).point

end SecurityChange

end

/-! ### A tenant is provisioned -/

/-- The user of the small world provisions a tenant. -/
def sampleChange : SecurityChange := .provisionTenant "acme" "Acme" 1 1

/-- The call, with one input for each command. -/
def sampleProvision (commands : ℕ) : Option (AppProg ℚ Unit × World ℚ × ℕ) :=
  (sampleChange.program Platform.plain).advance (faulty Platform.plain Collation.plain)
    (List.replicate commands (some (Env.calm 0))) (World.oneUser, 0)

/-- A call that is not interrupted. -/
theorem change_audited_iff_uninterrupted : ∃ (p : AppProg ℚ Unit) (w' : World ℚ),
    sampleProvision 4 = some (p, (w', 2)) ∧
      (sampleChange.Changed Platform.plain World.oneUser.db w'.db ↔
        sampleChange.Audited Platform.plain World.oneUser.db w'.db) := by
  have hrun : (sampleProvision 4).any (fun x => x.2.2 == 2) = true := by decide +kernel
  obtain ⟨⟨p, w', n⟩, h, hn⟩ := (Option.any_eq_true _ _).1 hrun
  obtain rfl : n = 2 := beq_iff_eq.1 hn
  exact ⟨p, w', h, (SecurityChange.change_audited_iff sampleChange h).2 (.inr rfl)⟩

/-- A call that dies after its first commit leaves a tenant of which the audit log knows nothing. -/
theorem tenant_without_entry : ∃ (p : AppProg ℚ Unit) (w' : World ℚ),
    sampleProvision 2 = some (p, (w', 1)) ∧
      ¬ (sampleChange.Changed Platform.plain World.oneUser.db w'.db ↔
        sampleChange.Audited Platform.plain World.oneUser.db w'.db) := by
  have hrun : (sampleProvision 2).any (fun x => x.2.2 == 1 &&
      x.2.1.db.tenants.row 2 == some ⟨2, "acme", "Acme", true⟩ &&
      x.2.1.db.auditLogs.next == 0) = true := by
    decide +kernel
  obtain ⟨⟨p, w', n⟩, h, hcheck⟩ := (Option.any_eq_true _ _).1 hrun
  obtain ⟨⟨hn, hrow⟩, hlogs⟩ : (n = 1 ∧ w'.db.tenants.row 2 = some ⟨2, "acme", "Acme", true⟩) ∧
      w'.db.auditLogs.next = 0 := by
    simpa only [Bool.and_eq_true, beq_iff_eq] using hcheck
  subst hn
  refine ⟨p, w', h, fun hiff => ?_⟩
  obtain ⟨k, log, -, hlog, -⟩ := hiff.1 ⟨2, _, rfl, hrow, rfl⟩
  exact absurd (w'.db.auditLogs.lt_of_row hlog) (by omega)

end StarterBackend.Tenants

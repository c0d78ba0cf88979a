/-
Tenants do not reach each other.

The rows of a tenant, its objects of the storage and its keys of Redis change only by
requests that act in the tenant (`changed_in_own_tenant`).  A grant speaks of rows as
they were read, and the commit comes later; but a row never changes its tenant, and the
object of a file lies under the prefix of its owner (`FilesOwned`), so what was read still
names the tenant of what is written.
-/
import StarterBackend.Accounts.Acceptance

namespace StarterBackend.Accounts

open Lib App

/-! ### Files and their owners -/

section Ownership

variable {K : Type}

/-- Every file is of the tenant of its owner, and its object is under the prefix of both. -/
def FilesOwned (db : Database K) : Prop :=
  ∀ k file, db.uploadedFiles.row k = some file →
    (∃ owner, db.users.row file.ownerId = some owner ∧ owner.tenantId = file.tenantId) ∧
      (Files.ownerPrefix file.tenantId file.ownerId).toList <+: file.objectKey.toList

/-- What the statement records, if it records a file, is owned. -/
def RecordsOwned (db : Database K) : Statement K → Prop
  | .insertFile tenantId ownerId objectKey _ _ _ _ =>
      (∀ owner, db.users.row ownerId = some owner → owner.tenantId = tenantId) ∧
        (Files.ownerPrefix tenantId ownerId).toList <+: objectKey.toList
  | _ => True

/-- The files of a database whose owners are in another one as well. -/
lemma FilesOwned.of_files {db db' : Database K} (h : FilesOwned db)
    (hfiles : ∀ k file', db'.uploadedFiles.row k = some file' →
      ∃ file, db.uploadedFiles.row k = some file ∧ file'.tenantId = file.tenantId ∧
        file'.ownerId = file.ownerId ∧ file'.objectKey = file.objectKey ∧
        ∀ owner, db.users.row file.ownerId = some owner →
          ∃ owner', db'.users.row file.ownerId = some owner' ∧ owner'.tenantId = owner.tenantId) :
    FilesOwned db' := by
  intro k file' hfile'
  obtain ⟨file, hfile, htenant, howner, hkey, hkept⟩ := hfiles k file' hfile'
  obtain ⟨⟨owner, hrow, hmember⟩, hunder⟩ := h k file hfile
  obtain ⟨owner', hrow', hmember'⟩ := hkept owner hrow
  rw [htenant, howner, hkey]
  exact ⟨⟨owner', hrow', hmember'.trans hmember⟩, hunder⟩

variable [LinearOrder K] {gap : ℕ} {now : K} {db db' : Database K} {id id' x : Option ℕ}
  {statement : Statement K} {statements : List (Statement K)}

/-- **A statement keeps the files owned.** -/
lemma filesOwned_exec (hdb : FilesOwned db) (hrecords : RecordsOwned db statement)
    (h : statement.exec gap now db = some (x, db')) : FilesOwned db' := by
  cases statement with
  | insertUser email hashedPassword tenantId =>
      simp only [Statement.exec] at h
      split_ifs at h
      obtain ⟨-, rfl⟩ := Prod.mk.inj (Option.some.inj h)
      refine hdb.of_files fun k file hfile => ⟨file, hfile, rfl, rfl, rfl,
        fun owner howner => ⟨owner, ?_, rfl⟩⟩
      rw [Table.row_insert_of_some howner]
  | updateUser userId changes =>
      obtain ⟨user, updated, huser, happly, -, rfl⟩ := exec_updateUser_eq_some h
      obtain ⟨hid, htenant, -⟩ := UserChanges.apply_eq_some happly
      obtain rfl : user.id = userId := db.users.id_of_row huser
      refine hdb.of_files fun k file hfile => ⟨file, hfile, rfl, rfl, rfl, fun owner howner => ?_⟩
      rw [Database.row_setUser hid huser]
      split_ifs with heq
      · rw [heq, huser] at howner
        obtain rfl := Option.some.inj howner
        exact ⟨updated, rfl, htenant⟩
      · exact ⟨owner, howner, rfl⟩
  | deleteUser userId =>
      simp only [Statement.exec] at h
      split_ifs at h
      obtain ⟨-, rfl⟩ := Prod.mk.inj (Option.some.inj h)
      refine hdb.of_files fun k file hfile => ?_
      obtain ⟨hfile, hother⟩ := Option.filter_eq_some_iff.1 hfile
      refine ⟨file, hfile, rfl, rfl, rfl, fun owner howner => ⟨owner, ?_, rfl⟩⟩
      rw [row_restrict_users, if_neg (by simpa using hother), howner]
  | insertFile tenantId ownerId objectKey filename contentType sizeBytes status =>
      simp only [Statement.exec] at h
      split_ifs at h with hkeys
      obtain ⟨-, rfl⟩ := Prod.mk.inj (Option.some.inj h)
      intro k file hfile
      rw [Table.row_insert] at hfile
      split_ifs at hfile
      · obtain rfl := Option.some.inj hfile
        obtain ⟨hmember, hunder⟩ := hrecords
        have howner : db.users.row ownerId ≠ none := by
          intro hnone
          simp [hnone] at hkeys
        obtain ⟨owner, howner⟩ := Option.ne_none_iff_exists'.1 howner
        exact ⟨⟨owner, howner, hmember owner howner⟩, hunder⟩
      · exact hdb k file hfile
  | verifyFile fileId =>
      simp only [Statement.exec] at h
      split_ifs at h
      obtain ⟨-, rfl⟩ := Prod.mk.inj (Option.some.inj h)
      refine hdb.of_files fun k file' hfile' => ?_
      obtain ⟨file, hfile, rfl⟩ := Option.map_eq_some_iff.1 hfile'
      refine ⟨file, hfile, ?_, ?_, ?_, fun owner howner => ⟨owner, howner, rfl⟩⟩ <;> split_ifs <;> rfl
  | deleteFile fileId =>
      obtain ⟨-, rfl⟩ := Prod.mk.inj (Option.some.inj h)
      exact hdb.of_files fun k file hfile => ⟨file, (Option.filter_eq_some_iff.1 hfile).1, rfl, rfl,
        rfl, fun owner howner => ⟨owner, howner, rfl⟩⟩
  | useResetTokens _ _ | deleteResetTokensBefore _ | deleteAuditLogsBefore _ =>
      obtain ⟨-, rfl⟩ := Prod.mk.inj (Option.some.inj h)
      exact hdb
  | _ =>
      simp only [Statement.exec] at h
      split_ifs at h
      obtain ⟨-, rfl⟩ := Prod.mk.inj (Option.some.inj h)
      exact hdb

/-- A file stays in its tenant. -/
abbrev FilesLater (db db' : Database K) : Prop :=
  db.uploadedFiles.Later UploadedFile.tenantId db'.uploadedFiles

lemma filesLater_exec (h : statement.exec gap now db = some (x, db')) : FilesLater db db' := by
  cases statement with
  | updateUser userId changes =>
      obtain ⟨user, updated, -, -, -, rfl⟩ := exec_updateUser_eq_some h
      exact .refl _
  | deleteUser userId =>
      simp only [Statement.exec] at h
      split_ifs at h
      obtain ⟨-, rfl⟩ := Prod.mk.inj (Option.some.inj h)
      exact db.uploadedFiles.later_restrict
  | insertFile tenantId ownerId objectKey filename contentType sizeBytes status =>
      simp only [Statement.exec] at h
      split_ifs at h
      obtain ⟨-, rfl⟩ := Prod.mk.inj (Option.some.inj h)
      refine .of_rows (by simp only [Table.next_insert]; omega) fun k hk => ?_
      rw [Table.row_insert, if_neg (by simp only [Table.freshId]; omega)]
  | verifyFile fileId =>
      simp only [Statement.exec] at h
      split_ifs at h
      obtain ⟨-, rfl⟩ := Prod.mk.inj (Option.some.inj h)
      refine ⟨le_rfl, fun k hk file' hfile' => ?_⟩
      obtain ⟨file, hfile, rfl⟩ := Option.map_eq_some_iff.1 hfile'
      refine ⟨file, hfile, ?_⟩
      split_ifs <;> rfl
  | deleteFile fileId =>
      obtain ⟨-, rfl⟩ := Prod.mk.inj (Option.some.inj h)
      exact db.uploadedFiles.later_restrict
  | useResetTokens _ _ | deleteResetTokensBefore _ | deleteAuditLogsBefore _ =>
      obtain ⟨-, rfl⟩ := Prod.mk.inj (Option.some.inj h)
      exact .refl _
  | _ =>
      simp only [Statement.exec] at h
      split_ifs at h
      obtain ⟨-, rfl⟩ := Prod.mk.inj (Option.some.inj h)
      exact .refl _

end Ownership

/-! ### The rows of a tenant -/

section Rows

variable {K : Type}

/-- A tenant has the same users, entries of the audit log, files, and reset tokens of its users in two
databases. -/
structure SameRows (tenantId : ℕ) (db db' : Database K) : Prop where
  users : ∀ user : User, user.tenantId = tenantId →
    (db'.users.row user.id = some user ↔ db.users.row user.id = some user)
  auditLogs : ∀ log : AuditLog K, log.tenantId = tenantId →
    (db'.auditLogs.row log.id = some log ↔ db.auditLogs.row log.id = some log)
  files : ∀ file : UploadedFile, file.tenantId = tenantId →
    (db'.uploadedFiles.row file.id = some file ↔ db.uploadedFiles.row file.id = some file)
  resetTokens : ∀ (token : PasswordResetToken K) (user : User), user.tenantId = tenantId →
    db.users.row token.userId = some user →
    (db'.passwordResetTokens.row token.id = some token ↔
      db.passwordResetTokens.row token.id = some token)

lemma SameRows.refl (tenantId : ℕ) (db : Database K) : SameRows tenantId db db :=
  ⟨fun _ _ => .rfl, fun _ _ => .rfl, fun _ _ => .rfl, fun _ _ _ _ => .rfl⟩

lemma SameRows.trans {tenantId : ℕ} {db db' db'' : Database K} (h : SameRows tenantId db db')
    (h' : SameRows tenantId db' db'') : SameRows tenantId db db'' := by
  refine ⟨fun user hu => (h'.users user hu).trans (h.users user hu),
    fun log hl => (h'.auditLogs log hl).trans (h.auditLogs log hl),
    fun file hf => (h'.files file hf).trans (h.files file hf), fun token user hu hrow => ?_⟩
  have hid : user.id = token.userId := db.users.id_of_row hrow
  have hrow' : db'.users.row token.userId = some user := by
    rw [← hid] at hrow ⊢
    exact (h.users user hu).2 hrow
  exact (h'.resetTokens token user hu hrow').trans (h.resetTokens token user hu hrow)

/-- The statement writes rows of one tenant, or of none. -/
def Within (tenantId : ℕ) (db : Database K) : Statement K → Prop
  | .insertUser _ _ tenantId' | .insertAuditLog tenantId' _ _ _ | .insertFile tenantId' _ _ _ _ _ _ =>
      tenantId' = tenantId
  | .updateUser userId _ | .deleteUser userId | .useResetTokens userId _ =>
      ∀ user, db.users.row userId = some user → user.tenantId = tenantId
  | .deleteFile fileId =>
      ∀ file, db.uploadedFiles.row fileId = some file → file.tenantId = tenantId
  | .insertTenant _ _ | .updateTenant _ _ _ => True
  | _ => False

section Tables

variable {ρ : Type} [Entity ρ] {t : Table ρ} {r : ρ}

/-- A new row is not one of the others. -/
lemma row_iff_of_new {gap k : ℕ} {new : ρ} (h : new ≠ r) :
    (if k = t.freshId gap then some new else t.row k) = some r ↔ t.row k = some r := by
  split_ifs with hk
  · refine iff_of_false (fun heq => h (Option.some.inj heq)) fun hrow => ?_
    have hlt := t.lt_of_row hrow
    simp only [Table.freshId] at hk
    omega
  · rfl

/-- A row that is not deleted stays. -/
lemma row_restrict_iff {p : ρ → Bool} (h : t.row (Entity.id r) = some r → p r = true) :
    (t.restrict p).row (Entity.id r) = some r ↔ t.row (Entity.id r) = some r := by
  rw [Table.row_restrict, Option.filter_eq_some_iff]
  exact ⟨And.left, fun hrow => ⟨hrow, h hrow⟩⟩

end Tables

variable [LinearOrder K] {gap : ℕ} {now : K} {db db' : Database K} {id id' x : Option ℕ}
  {statement : Statement K} {statements : List (Statement K)} {tenantId other : ℕ}

lemma sameRows_insertAuditLog {adminId target : Option ℕ} {action : AuditAction}
    (hne : tenantId ≠ other)
    (h : (Statement.insertAuditLog tenantId adminId action target).exec gap now db = some (x, db')) :
    SameRows other db db' := by
  simp only [Statement.exec] at h
  split_ifs at h
  obtain ⟨-, rfl⟩ := Prod.mk.inj (Option.some.inj h)
  refine ⟨fun _ _ => .rfl, fun log hlog => ?_, fun _ _ => .rfl, fun _ _ _ _ => .rfl⟩
  rw [Table.row_insert]
  refine row_iff_of_new ?_
  rintro rfl
  exact hne hlog

/-- **A statement of one tenant leaves the rows of the others.** -/
lemma sameRows_exec (hdb : FilesOwned db) (hne : tenantId ≠ other)
    (hwithin : Within tenantId db statement) (h : statement.exec gap now db = some (x, db')) :
    SameRows other db db' := by
  cases statement with
  | insertUser email hashedPassword tenantId' =>
      obtain rfl : tenantId' = tenantId := hwithin
      simp only [Statement.exec] at h
      split_ifs at h
      obtain ⟨-, rfl⟩ := Prod.mk.inj (Option.some.inj h)
      refine ⟨fun user huser => ?_, fun _ _ => .rfl, fun _ _ => .rfl, fun _ _ _ _ => .rfl⟩
      rw [Table.row_insert]
      refine row_iff_of_new ?_
      rintro rfl
      exact hne huser
  | updateUser userId changes =>
      obtain ⟨user, updated, huser, happly, -, rfl⟩ := exec_updateUser_eq_some h
      obtain ⟨hid, htenant, -⟩ := UserChanges.apply_eq_some happly
      obtain rfl : user.id = userId := db.users.id_of_row huser
      have hmember := hwithin user huser
      refine ⟨fun user' huser' => ?_, fun _ _ => .rfl, fun _ _ => .rfl, fun _ _ _ _ => .rfl⟩
      rw [Database.row_setUser hid huser]
      split_ifs with heq
      · rw [heq, huser]
        constructor
        · intro hsame
          obtain rfl := Option.some.inj hsame
          exact absurd (hmember.symm.trans (htenant.symm.trans huser')) hne
        · intro hsame
          obtain rfl := Option.some.inj hsame
          exact absurd (hmember.symm.trans huser') hne
      · rfl
  | deleteUser userId =>
      simp only [Statement.exec] at h
      split_ifs at h
      obtain ⟨-, rfl⟩ := Prod.mk.inj (Option.some.inj h)
      refine ⟨fun user huser => row_restrict_iff fun hrow => ?_, fun _ _ => .rfl,
        fun file hfile => row_restrict_iff fun hrow => ?_,
        fun token user huser hrow => row_restrict_iff fun _ => ?_⟩
      · refine bne_iff_ne.2 ?_
        rintro rfl
        exact hne ((hwithin user hrow).symm.trans huser)
      · obtain ⟨⟨owner, howner, hmember⟩, -⟩ := hdb _ file hrow
        refine bne_iff_ne.2 ?_
        rintro rfl
        exact hne ((hwithin owner howner).symm.trans (hmember.trans hfile))
      · refine bne_iff_ne.2 ?_
        rintro rfl
        exact hne ((hwithin user hrow).symm.trans huser)
  | insertTenant slug name =>
      simp only [Statement.exec] at h
      split_ifs at h
      obtain ⟨-, rfl⟩ := Prod.mk.inj (Option.some.inj h)
      exact ⟨fun _ _ => .rfl, fun _ _ => .rfl, fun _ _ => .rfl, fun _ _ _ _ => .rfl⟩
  | updateTenant tenantId' name isActive =>
      simp only [Statement.exec] at h
      split_ifs at h
      obtain ⟨-, rfl⟩ := Prod.mk.inj (Option.some.inj h)
      exact ⟨fun _ _ => .rfl, fun _ _ => .rfl, fun _ _ => .rfl, fun _ _ _ _ => .rfl⟩
  | insertAuditLog tenantId' adminId action target =>
      obtain rfl : tenantId' = tenantId := hwithin
      exact sameRows_insertAuditLog hne h
  | useResetTokens userId usedAt =>
      obtain ⟨-, rfl⟩ := Prod.mk.inj (Option.some.inj h)
      refine ⟨fun _ _ => .rfl, fun _ _ => .rfl, fun _ _ => .rfl, fun token user huser hrow => ?_⟩
      have hother : token.userId ≠ userId := by
        rintro rfl
        exact hne ((hwithin user hrow).symm.trans huser)
      simp only [Table.row_modify, Option.map_eq_some_iff]
      constructor
      · rintro ⟨token', hrow', heq⟩
        split_ifs at heq with hused
        · exact absurd (by rw [← heq]; exact hused.1) hother
        · rw [heq] at hrow'
          exact hrow'
      · intro hrow'
        exact ⟨token, hrow', if_neg fun hused => hother hused.1⟩
  | insertFile tenantId' ownerId objectKey filename contentType sizeBytes status =>
      obtain rfl : tenantId' = tenantId := hwithin
      simp only [Statement.exec] at h
      split_ifs at h
      obtain ⟨-, rfl⟩ := Prod.mk.inj (Option.some.inj h)
      refine ⟨fun _ _ => .rfl, fun _ _ => .rfl, fun file hfile => ?_, fun _ _ _ _ => .rfl⟩
      rw [Table.row_insert]
      refine row_iff_of_new ?_
      rintro rfl
      exact hne hfile
  | deleteFile fileId =>
      obtain ⟨-, rfl⟩ := Prod.mk.inj (Option.some.inj h)
      refine ⟨fun _ _ => .rfl, fun _ _ => .rfl, fun file hfile => row_restrict_iff fun hrow => ?_,
        fun _ _ _ _ => .rfl⟩
      refine bne_iff_ne.2 ?_
      rintro rfl
      exact hne ((hwithin file hrow).symm.trans hfile)
  | insertResetToken | insertResetJobCompletion | verifyFile | deleteResetTokensBefore
  | deleteAuditLogsBefore => exact hwithin.elim

/-- The statements write rows of one tenant: one of any kind, then entries of the audit log. -/
inductive AllWithin (tenantId : ℕ) (db : Database K) : List (Statement K) → Prop
  | nil : AllWithin tenantId db []
  | cons {statement : Statement K} {rest : List (Statement K)}
      (first : Within tenantId db statement)
      (entries : ∀ statement' ∈ rest, ∃ adminId action target,
        statement' = .insertAuditLog tenantId adminId action target) :
      AllWithin tenantId db (statement :: rest)

lemma sameRows_transaction (hdb : FilesOwned db) (hne : tenantId ≠ other)
    (hwithin : AllWithin tenantId db statements)
    (h : transaction gap now statements id db = some (id', db')) : SameRows other db db' := by
  cases hwithin with
  | nil =>
      obtain ⟨-, rfl⟩ : id = id' ∧ db = db' := by simpa using h
      exact .refl other db
  | cons first entries =>
      obtain ⟨x, db₁, hexec, hrest⟩ := transaction_cons_eq_some.1 h
      refine transaction_invariant (I := SameRows other db) (fun statement hmem db₂ y db₃ hsame hexec' => ?_)
        hrest (sameRows_exec hdb hne first hexec)
      obtain ⟨adminId, action, target, rfl⟩ := entries statement hmem
      exact hsame.trans (sameRows_insertAuditLog hne hexec')

end Rows

/-! ### Objects and keys of Redis -/

section Names

variable {K : Type} {tenantId other : ℕ} {key : String}

/-- The object keys of an owner are those of one tenant. -/
lemma tenant_of_object {ownerId : ℤ} (h : (Files.ownerPrefix tenantId ownerId).toList <+: key.toList)
    (h' : (Files.buildTenantObjectKeyPrefix other ++ "/").toList <+: key.toList) :
    tenantId = other := by
  obtain ⟨rest, hrest⟩ := h
  obtain ⟨rest', hrest'⟩ := h'
  have hslash : "/".toList = ['/'] := by decide
  have heq := hrest.trans hrest'.symm
  simp only [Files.toList_ownerPrefix, Files.buildTenantObjectKeyPrefix, String.toList_append, hslash,
    List.append_assoc, List.cons_append, List.append_cancel_left_eq] at heq
  obtain ⟨htenant, -⟩ :=
    PyText.append_cons_inj (Files.slash_notMem_repr _) (Files.slash_notMem_repr _) heq
  exact Int.ofNat.inj (PyText.repr_injective (String.toList_inj.1 htenant))

/-- A key of Redis that names a tenant is under its prefix only. -/
lemma tenant_of_key {rest : List Char}
    (hkey : key.toList = "tenant:".toList ++ ((tenantId : ℤ).repr.toList ++ ':' :: rest))
    (h : (buildTenantCachePrefix other ++ ":").toList <+: key.toList) : tenantId = other := by
  obtain ⟨rest', hrest'⟩ := h
  have hsplit : (buildTenantCachePrefix other ++ ":").toList =
      "tenant:".toList ++ ((other : ℤ).repr.toList ++ [':']) := by
    simp only [buildTenantCachePrefix, String.toList_append, List.append_assoc]
    rfl
  rw [hsplit, hkey, List.append_assoc, List.append_assoc, List.singleton_append] at hrest'
  obtain ⟨htenant, -⟩ := PyText.append_cons_inj (Users.colon_notMem_repr _)
    (Users.colon_notMem_repr _) (List.append_cancel_left hrest')
  exact (Int.ofNat.inj (PyText.repr_injective (String.toList_inj.1 htenant))).symm

/-- The mark of a refresh token is under the prefix of no tenant. -/
lemma ne_revokedKey {jti : String} (h : (buildTenantCachePrefix other ++ ":").toList <+: key.toList) :
    key ≠ revokedKey jti := by
  obtain ⟨rest, hrest⟩ := h
  have hkey : key = buildTenantCachePrefix other ++ (":" ++ String.ofList rest) := by
    refine String.toList_injective ?_
    simp only [← hrest, String.toList_append, String.toList_ofList, List.append_assoc]
  rw [hkey]
  exact (revokedKey_ne jti _ other).symm

/-- The part of a tenant in a world: its rows, its objects and its keys of Redis. -/
structure SamePart (tenantId : ℕ) (w w' : World K) : Prop where
  rows : SameRows tenantId w.db w'.db
  objects : ∀ key : String, (Files.buildTenantObjectKeyPrefix tenantId ++ "/").toList <+: key.toList →
    w'.objects key = w.objects key
  keys : ∀ key : String, (buildTenantCachePrefix tenantId ++ ":").toList <+: key.toList →
    w'.keys key = w.keys key

lemma SamePart.refl (tenantId : ℕ) (w : World K) : SamePart tenantId w w :=
  ⟨.refl tenantId w.db, fun _ _ => rfl, fun _ _ => rfl⟩

end Names

/-! ### What a grant reaches -/

section Reach

variable {K : Type} {platform : Platform} {settings : Settings} {db : Database K} {x : Knowledge K}
  {q : ApiRequest settings} {statements : List (Statement K)}

/-- The users and files that were read are still in their tenants, where they are still there. -/
structure Members (x : Knowledge K) (db : Database K) : Prop where
  users : ∀ user : User, user ∈ x.users ∨ user ∈ x.fresh → ∀ row, db.users.row user.id = some row →
    row.tenantId = user.tenantId
  files : ∀ file ∈ x.files, ∀ row, db.uploadedFiles.row file.id = some row →
    row.tenantId = file.tenantId

/-- The flush of one user, and what is written with it. -/
lemma allWithin_flush {tenantId : ℕ} {user : User} {changes : UserChanges}
    {rest : List (Statement K)}
    (huser : ∀ row, db.users.row user.id = some row → row.tenantId = tenantId)
    (hrest : ∀ statement ∈ rest, ∃ adminId action target,
      statement = .insertAuditLog tenantId adminId action target) :
    AllWithin tenantId db (flushUser user changes ++ rest) := by
  unfold flushUser
  split_ifs
  · cases rest with
    | nil => exact .nil
    | cons statement rest =>
        obtain ⟨adminId, action, target, rfl⟩ := hrest statement List.mem_cons_self
        exact .cons rfl fun statement' hmem => hrest statement' (List.mem_cons_of_mem _ hmem)
  · exact .cons huser hrest

lemma isEntry_auditEntry {currentUser : User} {action : AuditAction} {target : ℕ} :
    ∀ statement ∈ [(auditEntry currentUser action target : Statement K)], ∃ adminId action target,
      statement = .insertAuditLog currentUser.tenantId adminId action target := by
  intro statement hmem
  rw [List.mem_singleton.1 hmem]
  exact ⟨_, _, _, rfl⟩

lemma tenant_of_canDelete {currentUser : User} {file : UploadedFile}
    (h : Files.canDeleteUploadedFile currentUser file = true) :
    currentUser.tenantId = file.tenantId := by
  simp only [Files.canDeleteUploadedFile, Bool.and_eq_true, beq_iff_eq] at h
  exact h.1

/-- **A transaction writes in the tenant of its request.** -/
theorem allWithin_of_granted (hx : Members x db)
    (hc : Granted platform settings x q (.commit statements)) :
    ∃ tenantId, ActsIn platform settings x q tenantId ∧ AllWithin tenantId db statements := by
  have hnone : ∀ {tenantId : ℕ}, ∀ statement ∈ ([] : List (Statement K)),
      ∃ adminId action target, statement = .insertAuditLog tenantId adminId action target :=
    fun statement hmem => absurd hmem List.not_mem_nil
  cases hc with
  | reads hacts => cases hacts
  | register enabled read slug isActive => exact ⟨_, .register read slug, .cons rfl hnone⟩
  | requestResetAudit own read named isActive => exact ⟨_, own, .cons rfl hnone⟩
  | @confirmReset _ _ hashedPassword _ user presented hash unused read known target isActive =>
      refine ⟨_, .confirmReset presented hash unused known target, ?_⟩
      rw [← List.append_nil (flushUser _ _)]
      exact allWithin_flush (hx.users user (.inl known)) hnone
  | @confirmResetUse _ _ resetToken user _ presented hash unused read target =>
      refine ⟨_, .confirmReset presented hash unused read target, .cons (fun row hrow => ?_) hnone⟩
      rw [← target] at hrow
      exact hx.users user (.inl read) row hrow
  | confirmResetAudit presented hash unused read target =>
      exact ⟨_, .confirmReset presented hash unused read target, .cons rfl hnone⟩
  | @commit _ _ _ currentUser _ named grant =>
      refine ⟨_, .byUser named, ?_⟩
      have hfresh : ∀ user ∈ x.fresh, user.tenantId = currentUser.tenantId →
          ∀ row, db.users.row user.id = some row → row.tenantId = currentUser.tenantId :=
        fun user huser htenant row hrow => (hx.users user (.inr huser) row hrow).trans htenant
      cases grant with
      | patch permission read target tenant =>
          exact allWithin_flush (hfresh _ read tenant) isEntry_auditEntry
      | patchSelf permission read target =>
          rw [updateUser, ← List.append_nil (flushUser _ _)]
          exact allWithin_flush (hfresh _ read rfl) hnone
      | deactivate permission read target tenant =>
          exact allWithin_flush (hfresh _ read tenant) isEntry_auditEntry
      | activate permission read target tenant =>
          exact allWithin_flush (hfresh _ read tenant) isEntry_auditEntry
      | remove permission read target tenant =>
          exact .cons (hfresh _ read tenant) isEntry_auditEntry
      | createTenant permission => exact .cons trivial hnone
      | createTenantAudit permission => exact .cons rfl hnone
      | patchTenant permission read target named stated => exact .cons trivial hnone
      | patchTenantAudit permission => exact .cons rfl hnone
      | upload permission => exact .cons rfl hnone
      | completePresignedUpload permission owned => exact .cons rfl hnone
      | @deleteFile _ file read target permission =>
          refine .cons (fun row hrow => ?_) hnone
          exact (hx.files file read row hrow).trans (tenant_of_canDelete permission).symm

/-- **The file of a transaction is owned**; it is its only statement. -/
lemma recordsOwned_of_granted (hx : Members x db)
    (hc : Granted platform settings x q (.commit statements)) :
    (∃ statement, statements = [statement] ∧ RecordsOwned db statement) ∨
      ∀ statement ∈ statements, ∀ db' : Database K, RecordsOwned db' statement := by
  have hflush : ∀ {user : User} {changes : UserChanges} {rest : List (Statement K)},
      (∀ statement ∈ rest, ∀ db' : Database K, RecordsOwned db' statement) →
      ∀ statement ∈ flushUser user changes ++ rest, ∀ db' : Database K, RecordsOwned db' statement := by
    intro user changes rest hrest statement hmem
    rcases List.mem_append.1 hmem with hmem | hmem
    · unfold flushUser at hmem
      split_ifs at hmem
      · exact absurd hmem List.not_mem_nil
      · rw [List.mem_singleton.1 hmem]
        exact fun _ => trivial
    · exact hrest statement hmem
  have hentry : ∀ {currentUser : User} {action : AuditAction} {target : ℕ},
      ∀ statement ∈ [(auditEntry currentUser action target : Statement K)],
        ∀ db' : Database K, RecordsOwned db' statement := by
    intro currentUser action target statement hmem
    rw [List.mem_singleton.1 hmem]
    exact fun _ => trivial
  cases hc with
  | reads hacts => cases hacts
  | register | requestResetAudit | confirmResetUse | confirmResetAudit =>
      exact .inl ⟨_, rfl, trivial⟩
  | confirmReset =>
      rw [← List.append_nil (flushUser _ _)]
      exact .inr (hflush fun statement hmem => absurd hmem List.not_mem_nil)
  | @commit _ _ _ currentUser _ named grant =>
      have hmember := hx.users currentUser (.inl named.read)
      cases grant with
      | patch | deactivate | activate => exact .inr (hflush hentry)
      | patchSelf =>
          rw [updateUser, ← List.append_nil (flushUser _ _)]
          exact .inr (hflush fun statement hmem => absurd hmem List.not_mem_nil)
      | remove =>
          refine .inr fun statement hmem => ?_
          rcases List.mem_append.1 hmem with hmem | hmem
          · rw [List.mem_singleton.1 hmem]
            exact fun _ => trivial
          · exact hentry statement hmem
      | createTenant | createTenantAudit | patchTenant | patchTenantAudit | deleteFile =>
          exact .inl ⟨_, rfl, trivial⟩
      | upload permission =>
          exact .inl ⟨_, rfl, hmember, Files.belongs_buildObjectKey _ _ _ _⟩
      | completePresignedUpload permission owned =>
          exact .inl ⟨_, rfl, hmember, Files.belongs_iff.1 owned⟩

lemma filesOwned_transaction [LinearOrder K] {gap : ℕ} {now : K} {db' : Database K}
    {id : Option ℕ} (hdb : FilesOwned db)
    (hrecords : (∃ statement, statements = [statement] ∧ RecordsOwned db statement) ∨
      ∀ statement ∈ statements, ∀ db' : Database K, RecordsOwned db' statement)
    (h : transaction gap now statements none db = some (id, db')) : FilesOwned db' := by
  rcases hrecords with ⟨statement, rfl, hrecords⟩ | hrecords
  · rw [transaction_singleton] at h
    exact filesOwned_exec hdb hrecords h
  · exact transaction_invariant (I := FilesOwned)
      (fun statement hmem db₁ _ _ hdb₁ hexec => filesOwned_exec hdb₁ (hrecords statement hmem db₁) hexec)
      h hdb

end Reach

/-! ### Runs -/

section Runs

variable {K : Type} [Field K] [LinearOrder K] [FloorRing K] {platform : Platform}
  {collation : Collation} {settings : Settings} {ι : Type} [DecidableEq ι] {w : World K}
  {as : List (PoolAction ι (ApiRequest settings) (Env K))}
  {a : PoolAction ι (ApiRequest settings) (Env K)} {s t : Api settings ι K} {i : ι}
  {q : ApiRequest settings} {x : Knowledge K} {c : Command K} {tenantId : ℕ}

/-- Along every run the files stay in their tenants. -/
lemma filesLater_run (h : exec (Api.step platform collation settings) s as = some t) :
    FilesLater s.store.db t.store.db :=
  databases_run (fun _ => .refl _) (fun hst htu => hst.trans htu) (fun hexec => filesLater_exec hexec) h

/-- What was read in a run is still in its tenant. -/
lemma ReadDuring.members (h : exec (Api.step platform collation settings) (Pool.initial w) as = some s)
    (hx : ReadDuring platform collation w as i q x) : Members x s.store.db := by
  refine ⟨fun user huser row hrow => ?_, fun file hfile row hrow => ?_⟩
  · obtain ⟨bs, u, hbs, hu, hread⟩ := hx.user huser
    exact (later_of_initial h hbs hu).kept_eq hread hrow
  · obtain ⟨bs, cs, u, p, rfl, hu, -, -, hread⟩ := hx (.file file) hfile
    obtain ⟨u', hu', hs⟩ := exec_append_eq_some.1 h
    obtain rfl : u = u' := Option.some.inj (hu.symm.trans hu')
    exact (filesLater_run hs).kept_eq hread hrow

/-- **In every run every file is of the tenant of its owner, and under the prefix of both.** -/
theorem files_owned (hw : FilesOwned w.db)
    (h : exec (Api.step platform collation settings) (Pool.initial w) as = some s) :
    FilesOwned s.store.db := by
  induction as using List.reverseRecOn generalizing s with
  | nil =>
      obtain rfl : Pool.initial w = s := by simpa using h
      exact hw
  | append_singleton as a ih =>
      obtain ⟨u, hu, ha⟩ := exec_append_eq_some.1 h
      obtain ⟨s', hs', heq⟩ := exec_cons_eq_some.1 ha
      obtain rfl : s' = s := by simpa using heq
      by_cases hsame : s'.store.db = u.store.db
      · rw [hsame]
        exact ih hu
      · obtain ⟨i, q, x, statements, hcommit⟩ := commitStep_of_db_ne hu hs' hsame
        obtain ⟨e, _, id, -, -, htransaction⟩ := hcommit.commits
        exact filesOwned_transaction (ih hu)
          (recordsOwned_of_granted (hcommit.read.members hu) hcommit.granted) htransaction

/-- The rows of a tenant in which the request does not act. -/
lemma sameRows_granted (hw : FilesOwned w.db)
    (h : exec (Api.step platform collation settings) (Pool.initial w) as = some s)
    (hx : ReadDuring platform collation w as i q x) (hc : Granted platform settings x q c) (e : Env K)
    (hnot : ¬ ActsIn platform settings x q tenantId) :
    SameRows tenantId s.store.db (c.exec platform collation e s.store).2.db := by
  rcases Command.db_cases platform collation e s.store c with
    hdb | ⟨statements, id, rfl, htransaction⟩
  · rw [hdb]
    exact .refl _ _
  · obtain ⟨tenantId', hacts, hwithin⟩ := allWithin_of_granted (hx.members h) hc
    have hne : tenantId' ≠ tenantId := by
      rintro rfl
      exact hnot hacts
    exact sameRows_transaction (files_owned hw h) hne hwithin htransaction

/-- An object of a tenant in which the request does not act. -/
lemma objects_granted {key : String} (hw : FilesOwned w.db)
    (hx : ReadDuring platform collation w as i q x) (hc : Granted platform settings x q c) (e : Env K)
    (hnot : ¬ ActsIn platform settings x q tenantId)
    (hkey : (Files.buildTenantObjectKeyPrefix tenantId ++ "/").toList <+: key.toList) (w' : World K) :
    (c.exec platform collation e w').2.objects key = w'.objects key := by
  have hother : ∀ {key' : String} {ownerId tenantId' : ℕ},
      (Files.ownerPrefix tenantId' ownerId).toList <+: key'.toList →
      ActsIn platform settings x q tenantId' → key ≠ key' := by
    rintro key' ownerId tenantId' hunder hacts rfl
    obtain rfl := tenant_of_object hunder hkey
    exact hnot hacts
  have hobjects : (∀ key object, c ≠ .putObject key object) → (∀ key, c ≠ .deleteObject key) →
      (c.exec platform collation e w').2.objects = w'.objects :=
    Files.FileCalls.objects_exec platform collation w'
  cases hc with
  | reads hacts => exact congrFun (exec_of_not_acts hacts).2.2.1 key
  | @putObject _ _ currentUser _ uuid filename _ named permission =>
      have hkey' := hother (Files.belongs_buildObjectKey _ currentUser.id uuid filename) (.byUser named)
      simp only [Command.exec, writeObjects]
      split
      · rfl
      · exact Function.update_of_ne hkey' _ _
  | @deleteObject _ _ currentUser _ file named read target permission =>
      -- when the file was read, its object was under the prefix of its owner
      obtain ⟨bs, cs, u, p, -, hu, -, -, hread⟩ := hx (.file file) read
      obtain ⟨-, hunder⟩ := files_owned hw hu _ file hread
      have hkey' := hother hunder (tenant_of_canDelete permission ▸ .byUser named)
      simp only [Command.exec, writeObjects]
      split
      · rfl
      · exact Function.update_of_ne hkey' _ _
  | _ => exact congrFun (hobjects (fun _ _ heq => by cases heq) fun _ heq => by cases heq) key

/-- A key of Redis of a tenant in which the request does not act. -/
lemma keys_granted {key : String} (hx : ReadDuring platform collation w as i q x)
    (hc : Granted platform settings x q c) (e : Env K)
    (hnot : ¬ ActsIn platform settings x q tenantId)
    (hkey : (buildTenantCachePrefix tenantId ++ ":").toList <+: key.toList) (w' : World K) :
    (c.exec platform collation e w').2.keys key = w'.keys key := by
  have hversion : ∀ {tenantId' : ℕ}, ActsIn platform settings x q tenantId' →
      key ≠ buildUsersListCacheVersionKey tenantId' := by
    rintro tenantId' hacts rfl
    obtain rfl := tenant_of_key (Users.toList_versionKey _) hkey
    exact hnot hacts
  cases hc with
  | reads hacts => exact congrFun (exec_of_not_acts hacts).2.1 key
  | logout | refresh => exact keys_exec_revokeRefreshToken_of_ne (ne_revokedKey hkey)
  | invalidate own => exact keys_exec_redisIncr_of_ne (hversion own)
  | @invalidateOwn _ _ _ currentUser user named read same =>
      refine keys_exec_redisIncr_of_ne (hversion ?_)
      -- the user was read twice, and has not changed its tenant
      obtain ⟨bs, u, hbs, hu, hrow⟩ := hx.user (.inl read)
      obtain ⟨bs', u', hbs', hu', hrow'⟩ := hx.user (.inl named.read)
      rw [same] at hrow
      have htenant : user.tenantId = currentUser.tenantId := by
        rcases List.prefix_or_prefix_of_prefix hbs hbs' with hle | hle
        · exact ((later_of_initial hu' hle hu).kept_eq hrow hrow').symm
        · exact (later_of_initial hu hle hu').kept_eq hrow' hrow
      rw [htenant]
      exact .byUser named
  | cache named permission =>
      refine keys_exec_redisSet_of_ne ?_
      rintro rfl
      obtain rfl := tenant_of_key (Users.toList_usersListCacheKey platform _ _ _) hkey
      exact hnot (.byUser named)
  | _ => exact congrFun (Command.keys_exec rfl) key

/-- **Tenants do not reach each other.**  The rows of a tenant, its objects and its keys of Redis change
only by a request that acts in the tenant, by what it read while it was served. -/
theorem changed_in_own_tenant (hw : FilesOwned w.db)
    (h : exec (Api.step platform collation settings) (Pool.initial w) as = some s)
    (hstep : Api.step platform collation settings s a = some t)
    (hchange : ¬ SamePart tenantId s.store t.store) :
    ∃ i e q p x, a = .step i e ∧ s.calls i = some (q, p) ∧
      ReadDuring platform collation w as i q x ∧ ActsIn platform settings x q tenantId := by
  rcases Pool.next_cases hstep with ⟨i, q, -, -, rfl⟩ |
    ⟨i, e, q, c, k, p', w', ha, hi, rfl, hcmd⟩ | ⟨i, q, p, -, -, rfl⟩
  · exact absurd (.refl _ _) hchange
  · obtain ⟨x, hx, hc, -⟩ := allInformed_exec h i q _ hi
    refine ⟨i, e, q, _, x, ha, hi, hx, ?_⟩
    by_contra hnot
    have hw' : w' = { (c.exec platform collation e s.store).2 with clock := e.now } := by
      rcases hcmd with ⟨err, hexec, -⟩ | ⟨r, hexec, -⟩ <;> exact (interp_eq_some hexec).2.2
    refine hchange ?_
    rw [hw']
    exact ⟨sameRows_granted hw h hx hc e hnot, fun key hkey => objects_granted hw hx hc e hnot hkey _,
      fun key hkey => keys_granted hx hc e hnot hkey _⟩
  · exact absurd (.refl _ _) hchange

end Runs

/-- A world with one user and one file of it. -/
def worldWithFile : World ℚ :=
  { World.oneUser with
    db := { Database.oneUser with
      uploadedFiles := Table.empty.insert 0 (fun id =>
        ⟨id, 1, 1, Files.buildObjectKey 1 1 "0" "a.pdf", "a.pdf", "application/pdf", 4, .verified⟩)
        fun _ => rfl } }

lemma filesOwned_worldWithFile : FilesOwned worldWithFile.db := by
  intro k file hfile
  simp only [worldWithFile] at hfile
  rw [Table.row_insert] at hfile
  split_ifs at hfile
  · obtain rfl := Option.some.inj hfile
    exact ⟨⟨_, rfl, rfl⟩, Files.belongs_buildObjectKey _ _ _ _⟩
  · cases hfile

/-- A request for a reset of the password of the owner. -/
theorem files_owned_requestReset :
    let as : List (PoolAction ℕ (ApiRequest {}) (Env ℚ)) :=
      .start 0 (.requestReset "ada@example.com" none) :: List.replicate 4 (.step 0 (.calm 1))
    ∃ s, exec (Api.step Platform.plain Collation.plain {}) (Pool.initial worldWithFile) as = some s ∧
      FilesOwned s.store.db := by
  intro as
  have hs : ∃ s, exec (Api.step Platform.plain Collation.plain {}) (Pool.initial worldWithFile) as =
      some s := ⟨_, rfl⟩
  obtain ⟨s, hs⟩ := hs
  exact ⟨s, hs, files_owned filesOwned_worldWithFile hs⟩

/-- The entry of the audit log about such a request. -/
theorem changed_in_own_tenant_requestReset :
    let as : List (PoolAction ℕ (ApiRequest {}) (Env ℚ)) :=
      .start 0 (.requestReset "ada@example.com" none) :: List.replicate 3 (.step 0 (.calm 1))
    let a : PoolAction ℕ (ApiRequest {}) (Env ℚ) := .step 0 (.calm 1)
    ∃ s, exec (Api.step Platform.plain Collation.plain {}) (Pool.initial worldWithFile) as = some s ∧
      ∃ i e q p x, a = .step i e ∧ s.calls i = some (q, p) ∧
        ReadDuring Platform.plain Collation.plain worldWithFile as i q x ∧
        ActsIn Platform.plain {} x q 1 := by
  intro as a
  have hs : ∃ s t, exec (Api.step Platform.plain Collation.plain {}) (Pool.initial worldWithFile) as =
      some s ∧ Api.step Platform.plain Collation.plain {} s a = some t ∧
      s.store.db.auditLogs.row 0 = none ∧
      t.store.db.auditLogs.row 0 = some ⟨0, 1, none, .passwordResetRequested, some 1, 1⟩ :=
    ⟨_, _, rfl, rfl, rfl, rfl⟩
  obtain ⟨s, t, hs, hstep, hnone, hsome⟩ := hs
  refine ⟨s, hs, changed_in_own_tenant filesOwned_worldWithFile hs hstep fun hsame => ?_⟩
  have hrow := (hsame.rows.auditLogs ⟨0, 1, none, .passwordResetRequested, some 1, 1⟩ rfl).1 hsome
  exact absurd (hnone.symm.trans hrow) (by simp)

end StarterBackend.Accounts

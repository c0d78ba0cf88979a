/-
The migration that gives every row a tenant: revision `a1b2c3d4e5f6`.

The migrations are lists of operations on a relational database, in the order of their
files.  The three tables get their tenant in one way: a column that may be null, a statement
that fills it, and only then the constraint that it is not null and the reference
(`giveTenant`).  So each step of the upgrade is met by the rows that the steps before it
have left, and the steps of the downgrade take back what the upgrade has done
(`takeTenant`).
-/
import StarterBackend.Lib.Relational

namespace StarterBackend.Tenants.Migration

open Lib Relational

/-! ### The revisions -/

/-- `sa.PrimaryKeyConstraint("id")`. -/
def primaryKey (table : String) : Index := ⟨table ++ "_pkey", table, ["id"], true⟩

/-- `op.create_index(op.f(name), table, [column])`. -/
def plainIndex (name table column : String) : Operation :=
  .createIndex { name, table, columns := [column] }

/-- The unique index of addresses. -/
def emailIndex : Index := ⟨"ix_users_email", "users", ["email"], true⟩

/-- `upgrade` of `648d963688dd`. -/
def createInitialTables : List Operation :=
  [.createTable "users"
      [⟨"id", false⟩, ⟨"email", false⟩, ⟨"hashed_password", false⟩, ⟨"is_active", true⟩,
        ⟨"role", false⟩]
      {primaryKey "users"} ∅,
    plainIndex "ix_users_id" "users" "id",
    .createIndex emailIndex]

/-- `upgrade` of `f963f3c8b3a4`. -/
def addAuditLogs : List Operation :=
  [.createTable "audit_logs"
      [⟨"id", false⟩, ⟨"admin_id", false⟩, ⟨"action", false⟩, ⟨"target_user_id", true⟩,
        ⟨"created_at", true⟩]
      {primaryKey "audit_logs"}
      {⟨"audit_logs_admin_id_fkey", "audit_logs", "admin_id", "users", "id"⟩},
    plainIndex "ix_audit_logs_id" "audit_logs" "id",
    .alterColumn "users" "is_active" false]

/-- `upgrade` of `7f4e8b9a2c10`. -/
def addAuditLogQueryIndexes : List Operation :=
  [plainIndex "ix_audit_logs_action" "audit_logs" "action",
    plainIndex "ix_audit_logs_admin_id" "audit_logs" "admin_id",
    plainIndex "ix_audit_logs_target_user_id" "audit_logs" "target_user_id",
    plainIndex "ix_audit_logs_created_at" "audit_logs" "created_at"]

/-- `upgrade` of `3a9f1c7d8e20`. -/
def addPasswordResetTokens : List Operation :=
  [.createTable "password_reset_tokens"
      [⟨"id", false⟩, ⟨"user_id", false⟩, ⟨"token_hash", false⟩, ⟨"expires_at", false⟩,
        ⟨"used_at", true⟩, ⟨"created_at", false⟩]
      {primaryKey "password_reset_tokens"}
      {⟨"password_reset_tokens_user_id_fkey", "password_reset_tokens", "user_id", "users", "id"⟩},
    plainIndex "ix_password_reset_tokens_id" "password_reset_tokens" "id",
    plainIndex "ix_password_reset_tokens_user_id" "password_reset_tokens" "user_id",
    .createIndex
      ⟨"ix_password_reset_tokens_token_hash", "password_reset_tokens", ["token_hash"], true⟩,
    plainIndex "ix_password_reset_tokens_expires_at" "password_reset_tokens" "expires_at"]

/-- `upgrade` of `9b2c4d6e8f10`. -/
def addUploadedFiles : List Operation :=
  [.createTable "uploaded_files"
      [⟨"id", false⟩, ⟨"owner_id", false⟩, ⟨"object_key", false⟩, ⟨"filename", false⟩,
        ⟨"content_type", false⟩, ⟨"size_bytes", false⟩, ⟨"created_at", false⟩]
      {primaryKey "uploaded_files",
        ⟨"uploaded_files_object_key_key", "uploaded_files", ["object_key"], true⟩}
      {⟨"uploaded_files_owner_id_fkey", "uploaded_files", "owner_id", "users", "id"⟩},
    plainIndex "ix_uploaded_files_id" "uploaded_files" "id",
    plainIndex "ix_uploaded_files_owner_id" "uploaded_files" "owner_id",
    plainIndex "ix_uploaded_files_created_at" "uploaded_files" "created_at"]

/-- `upgrade` of `4d5e6f7a8b90`. -/
def allowSystemAuditLogs : List Operation := [.alterColumn "audit_logs" "admin_id" true]

/-- The revisions before `a1b2c3d4e5f6`, in their order. -/
def earlierRevisions : List Operation :=
  createInitialTables ++ addAuditLogs ++ addAuditLogQueryIndexes ++ addPasswordResetTokens ++
    addUploadedFiles ++ allowSystemAuditLogs

/-- `SELECT id FROM tenants WHERE slug = 'default'`. -/
def defaultTenantId : Subquery := ⟨"id", "tenants", "slug", .text "default"⟩

/-- The reference of a table to its tenants. -/
def tenantKey (table : String) : ForeignKey :=
  ⟨"fk_" ++ table ++ "_tenant_id_tenants", table, "tenant_id", "tenants", "id"⟩

/-- The index of a table on its tenants. -/
def tenantIndex (table : String) : Index := ⟨"ix_" ++ table ++ "_tenant_id", table, ["tenant_id"], false⟩

/-- The unique index of the addresses of a tenant. -/
def tenantEmailIndex : Index := ⟨"ix_users_tenant_id_email", "users", ["tenant_id", "email"], true⟩

/-- A column for the tenant, the statements that fill it, and the constraints on it. -/
def addTenantColumn (table : String) (backfill : List Operation) : List Operation :=
  .addColumn table ⟨"tenant_id", true⟩ :: backfill ++
    [.alterColumn table "tenant_id" false, .createForeignKey (tenantKey table),
      .createIndex (tenantIndex table)]

/-- The table of the tenants, with the default one. -/
def createTenants : List Operation :=
  [.createTable "tenants"
      [⟨"id", false⟩, ⟨"slug", false⟩, ⟨"name", false⟩, ⟨"is_active", false⟩]
      {primaryKey "tenants", ⟨"tenants_slug_key", "tenants", ["slug"], true⟩} ∅,
    plainIndex "ix_tenants_id" "tenants" "id",
    .createIndex ⟨"ix_tenants_slug", "tenants", ["slug"], true⟩,
    .insertUnlessExists "tenants"
      [("slug", .text "default"), ("name", .text "Default Tenant"), ("is_active", .bool true)]
      "slug" (.text "default")]

/-- `upgrade` of `a1b2c3d4e5f6`. -/
def upgrade : List Operation :=
  createTenants ++
    addTenantColumn "users" [.updateNulls "users" "tenant_id" defaultTenantId] ++
    [.dropIndex "ix_users_email" "users", .createIndex tenantEmailIndex] ++
    addTenantColumn "audit_logs" [.updateNulls "audit_logs" "tenant_id" defaultTenantId] ++
    addTenantColumn "uploaded_files"
      [.updateFrom "uploaded_files" "tenant_id" "users" "tenant_id" "owner_id" "id",
        .updateNulls "uploaded_files" "tenant_id" defaultTenantId]

/-- What takes the column for the tenant back. -/
def dropTenantColumn (table : String) : List Operation :=
  [.dropIndex ("ix_" ++ table ++ "_tenant_id") table,
    .dropConstraint ("fk_" ++ table ++ "_tenant_id_tenants") table,
    .dropColumn table "tenant_id"]

/-- `downgrade` of `a1b2c3d4e5f6`. -/
def downgrade : List Operation :=
  dropTenantColumn "uploaded_files" ++ dropTenantColumn "audit_logs" ++
    [.dropIndex "ix_users_tenant_id_email" "users", .createIndex emailIndex] ++
    dropTenantColumn "users" ++
    [.dropIndex "ix_tenants_slug" "tenants", .dropIndex "ix_tenants_id" "tenants",
      .dropTable "tenants"]

/-! ### Giving a table its tenants -/

/-- The table with a column for the tenant that holds one value. -/
def withTenant (t : Table) (nullable : Bool) (v : Value) : Table :=
  ⟨t.columns ++ [⟨"tenant_id", nullable⟩],
    t.rows.map fun row => Function.update row "tenant_id" v, t.nextId⟩

/-- The database whose rows of a table belong to the tenant `v`, with the constraints. -/
def adopted (db : Database) (table : String) (t : Table) (v : Value) : Database :=
  { db.setTable table (withTenant t false v) with
    indexes := insert (tenantIndex table) db.indexes
    foreignKeys := insert (tenantKey table) db.foreignKeys }

lemma tables_adopted_self {db : Database} {table : String} {t : Table} {v : Value} :
    (adopted db table t v).tables table = some (withTenant t false v) := by
  show (db.setTable table (withTenant t false v)).tables table = _
  exact tables_setTable_self

lemma tables_adopted_of_ne {db : Database} {table other : String} {t : Table} {v : Value}
    (h : other ≠ table) : (adopted db table t v).tables other = db.tables other := by
  show (db.setTable table (withTenant t false v)).tables other = _
  exact tables_setTable_of_ne h

/-- The default tenant is there, as the only one, and can be referred to. -/
structure HasDefault (db : Database) (v : Value) : Prop where
  rows : ∃ row, db.rows "tenants" = [row] ∧ row "slug" = .text "default" ∧ row "id" = v
  ne_null : v ≠ .null
  key : ∃ i ∈ db.indexes, i.table = "tenants" ∧ i.columns = ["id"] ∧ i.unique = true

/-- A table without a column for the tenant, and without the names that its constraints get. -/
structure Untenanted (db : Database) (table : String) (t : Table) : Prop where
  table_ne : table ≠ "tenants"
  tables_eq : db.tables table = some t
  notMem_names : "tenant_id" ∉ t.names
  values : ∀ row ∈ t.rows, row "tenant_id" = .null
  index_fresh : ∀ i ∈ db.indexes, i.name ≠ (tenantIndex table).name ∧
    ¬ (i.table = table ∧ "tenant_id" ∈ i.columns)
  key_fresh : ∀ fk ∈ db.foreignKeys, ¬ (fk.table = table ∧
    (fk.name = (tenantKey table).name ∨ fk.column = "tenant_id")) ∧
    ¬ (fk.refTable = table ∧ fk.refColumn = "tenant_id")

section Give

variable {db : Database} {table : String} {t : Table} {v : Value}

lemma Untenanted.not_mentions (h : Untenanted db table t) : ¬ db.Mentions table "tenant_id" := by
  rintro (⟨i, hi, hmem⟩ | ⟨fk, hfk, ⟨htable, hcolumn⟩ | href⟩)
  · exact (h.index_fresh i hi).2 hmem
  · exact (h.key_fresh fk hfk).1 ⟨htable, .inr hcolumn⟩
  · exact (h.key_fresh fk hfk).2 href

lemma HasDefault.setTable {t' : Table} (h : HasDefault db v) (htable : table ≠ "tenants") :
    HasDefault (db.setTable table t') v := by
  refine ⟨?_, h.ne_null, h.key⟩
  rw [rows_setTable_of_ne htable.symm]
  exact h.rows

/-- The subquery finds the default tenant. -/
lemma HasDefault.eval (h : HasDefault db v) : defaultTenantId.eval db = some v := by
  obtain ⟨row, hrows, hslug, hid⟩ := h.rows
  simp [Subquery.eval, defaultTenantId, hrows, hslug, hid]

/-- A value for the new column keeps the database valid, as long as it may be null or is not. -/
lemma valid_withTenant (hdb : db.Valid) (h : Untenanted db table t) {nullable : Bool}
    (hnull : nullable = false → v ≠ .null) : (db.setTable table (withTenant t nullable v)).Valid := by
  refine hdb.mapColumn h.tables_eq h.not_mentions fun row hrow c hc hcnull => ?_
  obtain ⟨old, hold, rfl⟩ := List.mem_map.1 hrow
  rcases List.mem_append.1 hc with hc | hc
  · have hne : c.name ≠ "tenant_id" := fun heq =>
      h.notMem_names (heq ▸ List.mem_map_of_mem hc)
    rw [Function.update_of_ne hne]
    exact hdb.notNull table t h.tables_eq old hold c hc hcnull
  · obtain rfl := List.mem_singleton.1 hc
    rw [Function.update_self]
    exact hnull hcnull

/-- The column is added without values. -/
lemma apply_addColumn (hdb : db.Valid) (h : Untenanted db table t) :
    Operation.apply db (.addColumn table ⟨"tenant_id", true⟩) =
      some (db.setTable table (withTenant t true .null)) := by
  refine Operation.apply_of_valid ?_ (valid_withTenant hdb h (by simp))
  simp [Operation.change, h.tables_eq, h.notMem_names, withTenant]

/-- Without values, the column is filled with the default tenant. -/
lemma apply_updateNulls (hdb : db.Valid) (h : Untenanted db table t) (hdefault : HasDefault db v) :
    Operation.apply (db.setTable table (withTenant t true .null))
        (.updateNulls table "tenant_id" defaultTenantId) =
      some (db.setTable table (withTenant t true v)) := by
  refine Operation.apply_of_valid ?_ (valid_withTenant hdb h (by simp))
  simp [Operation.change, (hdefault.setTable h.table_ne).eval, withTenant, Function.comp_def]

/-- With values, the column is left as it is. -/
lemma apply_updateNulls_of_filled (hdb : db.Valid) (h : Untenanted db table t)
    (hdefault : HasDefault db v) :
    Operation.apply (db.setTable table (withTenant t true v))
        (.updateNulls table "tenant_id" defaultTenantId) =
      some (db.setTable table (withTenant t true v)) := by
  refine Operation.apply_of_valid ?_ (valid_withTenant hdb h (by simp))
  simp [Operation.change, (hdefault.setTable h.table_ne).eval, withTenant, Function.comp_def,
    hdefault.ne_null]

/-- A filled column need not be null any more. -/
lemma apply_alterColumn (hdb : db.Valid) (h : Untenanted db table t) (hv : v ≠ .null) :
    Operation.apply (db.setTable table (withTenant t true v))
        (.alterColumn table "tenant_id" false) =
      some (db.setTable table (withTenant t false v)) := by
  refine Operation.apply_of_valid ?_ (valid_withTenant hdb h fun _ => hv)
  have hcolumns : (t.columns.map fun c : Column =>
      if c.name = "tenant_id" then { c with nullable := false } else c) = t.columns := by
    refine (List.map_congr_left fun c hc => if_neg fun heq => h.notMem_names ?_).trans
      (List.map_id _)
    exact heq ▸ List.mem_map_of_mem hc
  simp [Operation.change, withTenant, Table.names, hcolumns]

/-- The rows refer to the default tenant. -/
lemma valid_referring (hdb : db.Valid) (h : Untenanted db table t) (hdefault : HasDefault db v) :
    Database.Valid { db.setTable table (withTenant t false v) with
      foreignKeys := insert (tenantKey table) db.foreignKeys } := by
  refine (valid_withTenant hdb h fun _ => hdefault.ne_null).insertForeignKey fun row hrow => .inr ?_
  obtain ⟨tenant, htenant, -, hid⟩ := (hdefault.setTable h.table_ne).rows
  change row ∈ (db.setTable table (withTenant t false v)).rows table at hrow
  rw [rows_setTable_self] at hrow
  obtain ⟨old, -, rfl⟩ := List.mem_map.1 hrow
  change ∃ r ∈ Database.rows _ "tenants", r "id" = Function.update old "tenant_id" v "tenant_id"
  rw [htenant, Function.update_self]
  exact ⟨tenant, List.mem_singleton_self _, hid⟩

/-- The reference can be made. -/
lemma apply_createForeignKey (hdb : db.Valid) (h : Untenanted db table t)
    (hdefault : HasDefault db v) :
    Operation.apply (db.setTable table (withTenant t false v))
        (.createForeignKey (tenantKey table)) =
      some { db.setTable table (withTenant t false v) with
        foreignKeys := insert (tenantKey table) db.foreignKeys } := by
  refine Operation.apply_of_valid ?_ (valid_referring hdb h hdefault)
  have hnames : (tenantKey table).column ∈ (withTenant t false v).names := by
    simp [tenantKey, withTenant, Table.names]
  have hfresh : ∀ fk ∈ db.foreignKeys, fk.table = (tenantKey table).table →
      fk.name ≠ (tenantKey table).name := fun fk hfk htable hname =>
    (h.key_fresh fk hfk).1 ⟨htable, .inl hname⟩
  have htables : (db.setTable table (withTenant t false v)).tables (tenantKey table).table =
      some (withTenant t false v) := tables_setTable_self
  rw [Operation.change, htables]
  exact if_pos ⟨hnames, hfresh, hdefault.key⟩

lemma valid_adopted (hdb : db.Valid) (h : Untenanted db table t) (hdefault : HasDefault db v) :
    (adopted db table t v).Valid :=
  (valid_referring hdb h hdefault).insertIndex fun hunique => by cases hunique

/-- The index can be made. -/
lemma apply_createIndex (hdb : db.Valid) (h : Untenanted db table t) (hdefault : HasDefault db v) :
    Operation.apply { db.setTable table (withTenant t false v) with
        foreignKeys := insert (tenantKey table) db.foreignKeys } (.createIndex (tenantIndex table)) =
      some (adopted db table t v) := by
  refine Operation.apply_of_valid ?_ (valid_adopted hdb h hdefault)
  have hnames : (tenantIndex table).columns ⊆ (withTenant t false v).names := by
    simp [tenantIndex, withTenant, Table.names]
  have hfresh : (tenantIndex table).name ∉ db.indexes.image Index.name := fun hmem => by
    obtain ⟨i, hi, hname⟩ := Finset.mem_image.1 hmem
    exact (h.index_fresh i hi).1 hname
  have htables : (db.setTable table (withTenant t false v)).tables (tenantIndex table).table =
      some (withTenant t false v) := tables_setTable_self
  change ((db.setTable table (withTenant t false v)).tables (tenantIndex table).table).bind _ = _
  rw [htables]
  exact if_pos ⟨hnames, hfresh⟩

/-- **A table gets its tenants**: once the column is filled, the constraints on it are met. -/
lemma giveTenant (hdb : db.Valid) (h : Untenanted db table t) (hdefault : HasDefault db v)
    {backfill : List Operation}
    (hbackfill : exec Operation.apply (db.setTable table (withTenant t true .null)) backfill =
      some (db.setTable table (withTenant t true v))) :
    exec Operation.apply db (addTenantColumn table backfill) = some (adopted db table t v) := by
  rw [addTenantColumn, List.cons_append, exec_cons_eq_some]
  refine ⟨_, apply_addColumn hdb h, exec_append_eq_some.2 ⟨_, hbackfill, ?_⟩⟩
  simp [exec, apply_alterColumn hdb h hdefault.ne_null, apply_createForeignKey hdb h hdefault,
    apply_createIndex hdb h hdefault]

lemma apply_dropIndex (hdb : db.Valid) (h : Untenanted db table t) (hdefault : HasDefault db v) :
    Operation.apply (adopted db table t v) (.dropIndex (tenantIndex table).name table) =
      some { db.setTable table (withTenant t false v) with
        foreignKeys := insert (tenantKey table) db.foreignKeys } := by
  refine Operation.apply_of_valid ?_ (valid_referring hdb h hdefault)
  have hindexes : (insert (tenantIndex table) db.indexes).filter
      (·.name ≠ (tenantIndex table).name) = db.indexes := by
    rw [Finset.filter_insert, if_neg (by simp), Finset.filter_true_of_mem]
    exact fun i hi => (h.index_fresh i hi).1
  have hthere : ∃ i ∈ (adopted db table t v).indexes,
      i.name = (tenantIndex table).name ∧ i.table = table :=
    ⟨tenantIndex table, Finset.mem_insert_self _ _, rfl, rfl⟩
  rw [Operation.change, if_pos hthere]
  simp only [adopted, hindexes]
  rfl

lemma apply_dropConstraint (hdb : db.Valid) (h : Untenanted db table t)
    (hv : v ≠ .null) :
    Operation.apply { db.setTable table (withTenant t false v) with
        foreignKeys := insert (tenantKey table) db.foreignKeys }
        (.dropConstraint (tenantKey table).name table) =
      some (db.setTable table (withTenant t false v)) := by
  refine Operation.apply_of_valid ?_ (valid_withTenant hdb h fun _ => hv)
  have hforeignKeys : (insert (tenantKey table) db.foreignKeys).filter (fun fk =>
      ¬ (fk.name = (tenantKey table).name ∧ fk.table = table)) = db.foreignKeys := by
    rw [Finset.filter_insert, if_neg (by simp [tenantKey]), Finset.filter_true_of_mem]
    exact fun fk hfk hname => (h.key_fresh fk hfk).1 ⟨hname.2, .inl hname.1⟩
  have hthere : ∃ fk ∈ insert (tenantKey table) db.foreignKeys,
      fk.name = (tenantKey table).name ∧ fk.table = table :=
    ⟨tenantKey table, Finset.mem_insert_self _ _, rfl, rfl⟩
  rw [Operation.change, if_pos hthere]
  simp only [hforeignKeys]
  rfl

lemma apply_dropColumn (hdb : db.Valid) (h : Untenanted db table t) :
    Operation.apply (db.setTable table (withTenant t false v)) (.dropColumn table "tenant_id") =
      some db := by
  refine Operation.apply_of_valid ?_ hdb
  have hcolumns : (withTenant t false v).columns.filter (·.name ≠ "tenant_id") = t.columns := by
    rw [withTenant, List.filter_append, List.filter_eq_self.2]
    · simp
    · exact fun c hc => decide_eq_true fun heq => h.notMem_names (heq ▸ List.mem_map_of_mem hc)
  have hrows : (withTenant t false v).rows.map (fun row => Function.update row "tenant_id" .null) =
      t.rows := by
    rw [withTenant, List.map_map]
    refine (List.map_congr_left fun row hrow => ?_).trans (List.map_id _)
    rw [Function.comp_apply, Function.update_idem, ← h.values row hrow, Function.update_eq_self, id]
  have hindexes : db.indexes.filter (fun i => ¬ (i.table = table ∧ "tenant_id" ∈ i.columns)) =
      db.indexes := Finset.filter_true_of_mem fun i hi => (h.index_fresh i hi).2
  have hforeignKeys : db.foreignKeys.filter
      (fun fk => ¬ (fk.table = table ∧ fk.column = "tenant_id")) = db.foreignKeys :=
    Finset.filter_true_of_mem fun fk hfk hcolumn =>
      (h.key_fresh fk hfk).1 ⟨hcolumn.1, .inr hcolumn.2⟩
  have hallowed : "tenant_id" ∈ (withTenant t false v).names ∧
      ∀ fk ∈ db.foreignKeys, ¬ (fk.refTable = table ∧ fk.refColumn = "tenant_id") :=
    ⟨by simp [withTenant, Table.names], fun fk hfk => (h.key_fresh fk hfk).2⟩
  have htables : (db.setTable table (withTenant t false v)).tables table =
      some (withTenant t false v) := tables_setTable_self
  change ((db.setTable table (withTenant t false v)).tables table).bind _ = _
  rw [htables]
  refine (if_pos hallowed).trans ?_
  have hself : db.setTable table t = db := by
    rw [Database.setTable, ← h.tables_eq, Function.update_eq_self]
  have hresult : some (⟨(db.setTable table t).tables,
      db.indexes.filter fun i => ¬ (i.table = table ∧ "tenant_id" ∈ i.columns),
      db.foreignKeys.filter fun fk => ¬ (fk.table = table ∧ fk.column = "tenant_id")⟩ : Database) =
      some db := by
    rw [hindexes, hforeignKeys]
    exact congrArg some hself
  rw [setTable_setTable, hcolumns, hrows]
  exact hresult

/-- **The column is taken back** with all that was added for it. -/
lemma takeTenant (hdb : db.Valid) (h : Untenanted db table t) (hdefault : HasDefault db v) :
    exec Operation.apply (adopted db table t v) (dropTenantColumn table) = some db := by
  simp only [dropTenantColumn, exec, Option.bind_some,
    show "ix_" ++ table ++ "_tenant_id" = (tenantIndex table).name from rfl,
    show "fk_" ++ table ++ "_tenant_id_tenants" = (tenantKey table).name from rfl,
    apply_dropIndex hdb h hdefault, apply_dropConstraint hdb h hdefault.ne_null,
    apply_dropColumn hdb h]

end Give

/-! ### The table of the tenants -/

/-- The default tenant, with the first value of the identity. -/
def defaultTenant : Row := Operation.newRow 1
  [("slug", .text "default"), ("name", .text "Default Tenant"), ("is_active", .bool true)]

/-- The columns of `tenants`. -/
def tenantColumns : List Column :=
  [⟨"id", false⟩, ⟨"slug", false⟩, ⟨"name", false⟩, ⟨"is_active", false⟩]

/-- The keys that are made with the table. -/
def tenantKeys : Finset Index :=
  {primaryKey "tenants", ⟨"tenants_slug_key", "tenants", ["slug"], true⟩}

/-- The index on the ids of the tenants. -/
def tenantIdIndex : Index := ⟨"ix_tenants_id", "tenants", ["id"], false⟩

/-- The index on the slugs of the tenants. -/
def tenantSlugIndex : Index := ⟨"ix_tenants_slug", "tenants", ["slug"], true⟩

/-- The indexes of `tenants` that have their own operations. -/
def ownIndexes : Finset Index := {tenantSlugIndex, tenantIdIndex}

/-- The database with a table of tenants and some of its indexes. -/
def withTenants (db : Database) (rows : List Row) (nextId : ℤ) (indexes : Finset Index) : Database :=
  ⟨Function.update db.tables "tenants" (some ⟨tenantColumns, rows, nextId⟩),
    db.indexes ∪ (indexes ∪ tenantKeys), db.foreignKeys⟩

/-- Nothing is about tenants, and the names of the indexes are free. -/
structure WithoutTenants (db : Database) : Prop where
  tables_eq : db.tables "tenants" = none
  index_fresh : ∀ i ∈ db.indexes, i.table ≠ "tenants" ∧
    ∀ j ∈ ownIndexes ∪ tenantKeys, i.name ≠ j.name
  key_fresh : ∀ fk ∈ db.foreignKeys, fk.table ≠ "tenants" ∧ fk.refTable ≠ "tenants"

section CreateTenants

variable {db : Database} {rows : List Row} {n : ℤ} {indexes : Finset Index}

lemma valid_withoutRows (hdb : db.Valid) (h : WithoutTenants db) (hindexes : indexes ⊆ ownIndexes) :
    (withTenants db [] 1 indexes).Valid := by
  have hkeys : ∀ i ∈ indexes ∪ tenantKeys, i.table = "tenants" := fun i hi => by
    have hall : ∀ i ∈ ownIndexes ∪ tenantKeys, i.table = "tenants" := by decide
    exact hall i (Finset.union_subset_union_left hindexes hi)
  have hvalid : Database.Valid ⟨Function.update db.tables "tenants" (some ⟨tenantColumns, [], 1⟩),
      db.indexes ∪ (indexes ∪ tenantKeys), db.foreignKeys ∪ ∅⟩ :=
    hdb.createTable h.tables_eq hkeys fun _ hfk => absurd hfk (Finset.notMem_empty _)
  rwa [Finset.union_empty] at hvalid

lemma valid_withDefault (hdb : db.Valid) (h : WithoutTenants db) (hindexes : indexes ⊆ ownIndexes) :
    (withTenants db [defaultTenant] 2 indexes).Valid := by
  have hvalid : ((withTenants db [] 1 indexes).setTable "tenants"
      ⟨tenantColumns, [defaultTenant], 2⟩).Valid :=
    (valid_withoutRows hdb h hindexes).insertFirst (by decide) h.key_fresh
  have heq : (withTenants db [] 1 indexes).setTable "tenants" ⟨tenantColumns, [defaultTenant], 2⟩ =
      withTenants db [defaultTenant] 2 indexes := by
    simp [withTenants, Database.setTable]
  rwa [heq] at hvalid

lemma tables_withTenants : (withTenants db rows n indexes).tables "tenants" =
    some ⟨tenantColumns, rows, n⟩ := by
  simp [withTenants]

lemma WithoutTenants.notMem_image (h : WithoutTenants db) {j : Index}
    (hj : j ∈ ownIndexes ∪ tenantKeys) : j.name ∉ db.indexes.image Index.name := fun hmem => by
  obtain ⟨i, hi, hname⟩ := Finset.mem_image.1 hmem
  exact (h.index_fresh i hi).2 j hj hname

lemma apply_createTable (hdb : db.Valid) (h : WithoutTenants db) :
    Operation.apply db (.createTable "tenants" tenantColumns tenantKeys ∅) =
      some (withTenants db [] 1 ∅) := by
  refine Operation.apply_of_valid ?_ (valid_withoutRows hdb h (Finset.empty_subset _))
  have hdisjoint : Disjoint (tenantKeys.image Index.name) (db.indexes.image Index.name) := by
    refine Finset.disjoint_left.2 fun name hname => ?_
    obtain ⟨j, hj, rfl⟩ := Finset.mem_image.1 hname
    exact h.notMem_image (Finset.mem_union_right _ hj)
  simp [Operation.change, h.tables_eq, hdisjoint, withTenants]

/-- One more index on the tenants. -/
lemma apply_createOwnIndex (hdb : db.Valid) (h : WithoutTenants db) (i : Index)
    (indexes : Finset Index) (hi : insert i indexes ⊆ ownIndexes) (hcolumns : i.columns ⊆ tenantColumns.map Column.name)
    (htable : i.table = "tenants") (hname : ∀ j ∈ indexes ∪ tenantKeys, j.name ≠ i.name) :
    Operation.apply (withTenants db [] 1 indexes) (.createIndex i) =
      some (withTenants db [] 1 (insert i indexes)) := by
  refine Operation.apply_of_valid ?_ (valid_withoutRows hdb h hi)
  have hfresh : i.name ∉ (db.indexes ∪ (indexes ∪ tenantKeys)).image Index.name := fun hmem => by
    obtain ⟨j, hj, heq⟩ := Finset.mem_image.1 hmem
    rcases Finset.mem_union.1 hj with hj | hj
    · exact h.notMem_image (Finset.mem_union_left _ (hi (Finset.mem_insert_self _ _)))
        (heq ▸ Finset.mem_image_of_mem _ hj)
    · exact hname j hj heq
  change ((withTenants db [] 1 indexes).tables i.table).bind _ = _
  rw [htable, tables_withTenants]
  refine (if_pos ⟨hcolumns, hfresh⟩).trans ?_
  simp [withTenants, Finset.union_insert, Finset.insert_union]

/-- The table of the tenants is made, with its indexes and the default tenant. -/
lemma giveTenants (hdb : db.Valid) (h : WithoutTenants db) :
    exec Operation.apply db createTenants = some (withTenants db [defaultTenant] 2 ownIndexes) := by
  have hindexId := apply_createOwnIndex hdb h tenantIdIndex ∅ (by decide) (by decide) rfl
    (by decide)
  have hindexSlug := apply_createOwnIndex hdb h tenantSlugIndex {tenantIdIndex} (by decide)
    (by decide) rfl (by decide)
  have hinsert : Operation.apply (withTenants db [] 1 ownIndexes) (.insertUnlessExists "tenants"
      [("slug", .text "default"), ("name", .text "Default Tenant"), ("is_active", .bool true)]
      "slug" (.text "default")) = some (withTenants db [defaultTenant] 2 ownIndexes) := by
    refine Operation.apply_of_valid ?_ (valid_withDefault hdb h (by decide))
    simp [Operation.change, Database.setTable, withTenants, defaultTenant]
  have hcreateTenants : createTenants = [.createTable "tenants" tenantColumns tenantKeys ∅,
      .createIndex tenantIdIndex, .createIndex tenantSlugIndex, .insertUnlessExists "tenants"
      [("slug", .text "default"), ("name", .text "Default Tenant"), ("is_active", .bool true)]
      "slug" (.text "default")] := rfl
  rw [hcreateTenants]
  simp only [exec, apply_createTable hdb h, Option.bind_some, hindexId, insert_empty_eq, hindexSlug]
  exact congrArg (·.bind some) hinsert

/-- One index less on the tenants. -/
lemma apply_dropOwnIndex (hdb : db.Valid) (h : WithoutTenants db) (i : Index)
    (indexes : Finset Index) (hi : insert i indexes ⊆ ownIndexes) (htable : i.table = "tenants")
    (hname : ∀ j ∈ indexes ∪ tenantKeys, j.name ≠ i.name) :
    Operation.apply (withTenants db [defaultTenant] 2 (insert i indexes))
        (.dropIndex i.name "tenants") = some (withTenants db [defaultTenant] 2 indexes) := by
  refine Operation.apply_of_valid ?_
    (valid_withDefault hdb h ((Finset.subset_insert _ _).trans hi))
  have hthere : ∃ j ∈ (withTenants db [defaultTenant] 2 (insert i indexes)).indexes,
      j.name = i.name ∧ j.table = "tenants" :=
    ⟨i, by simp [withTenants], rfl, htable⟩
  have hkept : (db.indexes ∪ (indexes ∪ tenantKeys)).filter (·.name ≠ i.name) =
      db.indexes ∪ (indexes ∪ tenantKeys) := by
    refine Finset.filter_true_of_mem fun j hj heq => ?_
    rcases Finset.mem_union.1 hj with hj | hj
    · exact h.notMem_image (Finset.mem_union_left _ (hi (Finset.mem_insert_self _ _)))
        (heq ▸ Finset.mem_image_of_mem _ hj)
    · exact hname j hj heq
  have hindexes : (db.indexes ∪ (insert i indexes ∪ tenantKeys)).filter (·.name ≠ i.name) =
      db.indexes ∪ (indexes ∪ tenantKeys) := by
    rw [Finset.insert_union, Finset.union_insert, Finset.filter_insert, if_neg (by simp), hkept]
  rw [Operation.change, if_pos hthere]
  simp only [withTenants, hindexes]

/-- The table of the tenants is taken back. -/
lemma takeTenants (hdb : db.Valid) (h : WithoutTenants db) :
    exec Operation.apply (withTenants db [defaultTenant] 2 ownIndexes)
      [.dropIndex "ix_tenants_slug" "tenants", .dropIndex "ix_tenants_id" "tenants",
        .dropTable "tenants"] = some db := by
  have hdropSlug := apply_dropOwnIndex hdb h tenantSlugIndex {tenantIdIndex} (by decide) rfl
    (by decide)
  have hdropId := apply_dropOwnIndex hdb h tenantIdIndex ∅ (by decide) rfl (by decide)
  have hdropTable : Operation.apply (withTenants db [defaultTenant] 2 ∅) (.dropTable "tenants") =
      some db := by
    refine Operation.apply_of_valid ?_ hdb
    have hdroppable : ((withTenants db [defaultTenant] 2 ∅).tables "tenants").isSome ∧
        ∀ fk ∈ (withTenants db [defaultTenant] 2 ∅).foreignKeys, fk.refTable = "tenants" →
          fk.table = "tenants" :=
      ⟨by rw [tables_withTenants]; rfl, fun fk hfk href => absurd href (h.key_fresh fk hfk).2⟩
    have htables : Function.update (withTenants db [defaultTenant] 2 ∅).tables "tenants" none =
        db.tables := by
      rw [withTenants, Function.update_idem, ← h.tables_eq, Function.update_eq_self]
    have hindexes : (db.indexes ∪ (∅ ∪ tenantKeys)).filter (·.table ≠ "tenants") = db.indexes := by
      rw [Finset.filter_union, Finset.filter_true_of_mem fun i hi => (h.index_fresh i hi).1,
        Finset.filter_false_of_mem (by decide), Finset.union_empty]
    have hforeignKeys : db.foreignKeys.filter (·.table ≠ "tenants") = db.foreignKeys :=
      Finset.filter_true_of_mem fun fk hfk => (h.key_fresh fk hfk).1
    rw [Operation.change, if_pos hdroppable, htables]
    simp only [withTenants, hindexes, hforeignKeys]
  rw [insert_empty_eq] at hdropId
  refine exec_cons_eq_some.2 ⟨_, hdropSlug, exec_cons_eq_some.2 ⟨_, hdropId, ?_⟩⟩
  simp [exec, hdropTable]

end CreateTenants

/-! ### The addresses of the users -/

/-- Addresses are unique, by the index of the first revision. -/
structure UniqueEmails (db : Database) (t : Table) : Prop where
  tables_eq : db.tables "users" = some t
  names : "tenant_id" ∈ t.names ∧ "email" ∈ t.names
  mem : emailIndex ∈ db.indexes
  only : ∀ i ∈ db.indexes, i.name = emailIndex.name → i = emailIndex
  fresh : ∀ i ∈ db.indexes, i.name ≠ tenantEmailIndex.name

/-- The database whose addresses are unique within a tenant. -/
def perTenantEmails (db : Database) : Database :=
  { db with indexes := insert tenantEmailIndex (db.indexes.filter (·.name ≠ emailIndex.name)) }

section Emails

variable {db : Database} {t : Table}

lemma valid_withoutEmails (hdb : db.Valid) :
    Database.Valid { db with indexes := db.indexes.filter (·.name ≠ emailIndex.name) } :=
  hdb.mono rfl (Finset.filter_subset _ _) (Finset.Subset.refl _)

/-- Addresses that are unique are so within a tenant. -/
lemma valid_perTenantEmails (hdb : db.Valid) (h : UniqueEmails db t) :
    (perTenantEmails db).Valid :=
  (valid_withoutEmails hdb).insertIndex
    (Index.holds_of_subset (hdb.unique emailIndex h.mem) rfl (by decide))

lemma swapEmails (hdb : db.Valid) (h : UniqueEmails db t) :
    exec Operation.apply db [.dropIndex "ix_users_email" "users", .createIndex tenantEmailIndex] =
      some (perTenantEmails db) := by
  have hdrop : Operation.apply db (.dropIndex "ix_users_email" "users") =
      some { db with indexes := db.indexes.filter (·.name ≠ emailIndex.name) } :=
    Operation.apply_of_valid (if_pos ⟨emailIndex, h.mem, rfl, rfl⟩) (valid_withoutEmails hdb)
  have hcreate : Operation.apply
      { db with indexes := db.indexes.filter (·.name ≠ emailIndex.name) }
      (.createIndex tenantEmailIndex) = some (perTenantEmails db) := by
    refine Operation.apply_of_valid ?_ (valid_perTenantEmails hdb h)
    have hallowed : tenantEmailIndex.columns ⊆ t.names ∧ tenantEmailIndex.name ∉
        (db.indexes.filter (·.name ≠ emailIndex.name)).image Index.name := by
      refine ⟨by simpa [tenantEmailIndex] using h.names, fun hmem => ?_⟩
      obtain ⟨i, hi, hname⟩ := Finset.mem_image.1 hmem
      exact h.fresh i (Finset.mem_filter.1 hi).1 hname
    change (db.tables "users").bind _ = _
    rw [h.tables_eq]
    exact if_pos hallowed
  exact exec_cons_eq_some.2 ⟨_, hdrop, exec_cons_eq_some.2 ⟨_, hcreate, rfl⟩⟩

lemma unswapEmails (hdb : db.Valid) (h : UniqueEmails db t) :
    exec Operation.apply (perTenantEmails db)
      [.dropIndex "ix_users_tenant_id_email" "users", .createIndex emailIndex] = some db := by
  have hdropped : (perTenantEmails db).indexes.filter (·.name ≠ tenantEmailIndex.name) =
      db.indexes.filter (·.name ≠ emailIndex.name) := by
    rw [perTenantEmails, Finset.filter_insert, if_neg (by simp), Finset.filter_true_of_mem]
    exact fun i hi => h.fresh i (Finset.mem_filter.1 hi).1
  have hdrop : Operation.apply (perTenantEmails db) (.dropIndex "ix_users_tenant_id_email" "users") =
      some { db with indexes := db.indexes.filter (·.name ≠ emailIndex.name) } := by
    refine Operation.apply_of_valid ?_ (valid_withoutEmails hdb)
    refine (if_pos ⟨tenantEmailIndex, Finset.mem_insert_self _ _, rfl, rfl⟩).trans ?_
    rw [← hdropped]
    rfl
  have hrestored : insert emailIndex (db.indexes.filter (·.name ≠ emailIndex.name)) =
      db.indexes := by
    ext i
    rw [Finset.mem_insert, Finset.mem_filter]
    constructor
    · rintro (rfl | hi)
      · exact h.mem
      · exact hi.1
    · intro hi
      by_cases hname : i.name = emailIndex.name
      · exact .inl (h.only i hi hname)
      · exact .inr ⟨hi, hname⟩
  have hcreate : Operation.apply
      { db with indexes := db.indexes.filter (·.name ≠ emailIndex.name) }
      (.createIndex emailIndex) = some db := by
    refine Operation.apply_of_valid ?_ hdb
    have hallowed : emailIndex.columns ⊆ t.names ∧ emailIndex.name ∉
        (db.indexes.filter (·.name ≠ emailIndex.name)).image Index.name := by
      refine ⟨by simpa [emailIndex] using h.names.2, fun hmem => ?_⟩
      obtain ⟨i, hi, hname⟩ := Finset.mem_image.1 hmem
      exact (Finset.mem_filter.1 hi).2 hname
    change (db.tables "users").bind _ = _
    rw [h.tables_eq]
    refine (if_pos hallowed).trans ?_
    rw [hrestored]
  exact exec_cons_eq_some.2 ⟨_, hdrop, exec_cons_eq_some.2 ⟨_, hcreate, rfl⟩⟩

end Emails

/-! ### What the steps leave to the next ones -/

section Steps

variable {db : Database} {table other : String} {t t' : Table} {v : Value}

lemma hasDefault_withTenants :
    HasDefault (withTenants db [defaultTenant] 2 ownIndexes) (.int 1) where
  rows := ⟨defaultTenant, rows_eq tables_withTenants, rfl, rfl⟩
  ne_null := by simp
  key := ⟨primaryKey "tenants", Finset.mem_union_right _ (by decide), rfl, rfl, rfl⟩

lemma HasDefault.adopted (h : HasDefault db v) (hother : other ≠ "tenants") :
    HasDefault (adopted db other t v) v := by
  refine ⟨(h.setTable hother).rows, h.ne_null, ?_⟩
  obtain ⟨i, hi, hkey⟩ := h.key
  exact ⟨i, Finset.mem_insert_of_mem hi, hkey⟩

lemma HasDefault.perTenantEmails (h : HasDefault db v) (hemails : UniqueEmails db t) :
    HasDefault (perTenantEmails db) v := by
  refine ⟨h.rows, h.ne_null, ?_⟩
  obtain ⟨i, hi, htable, hkey⟩ := h.key
  refine ⟨i, Finset.mem_insert_of_mem (Finset.mem_filter.2 ⟨hi, fun hname => ?_⟩), htable, hkey⟩
  rw [hemails.only i hi hname] at htable
  exact absurd htable (by decide)

lemma Untenanted.withTenants {rows : List Row} {n : ℤ} (h : Untenanted db table t)
    (hnames : ∀ j ∈ ownIndexes ∪ tenantKeys, j.name ≠ (tenantIndex table).name) :
    Untenanted (withTenants db rows n ownIndexes) table t where
  table_ne := h.table_ne
  tables_eq := (Function.update_of_ne h.table_ne _ _).trans h.tables_eq
  notMem_names := h.notMem_names
  values := h.values
  index_fresh i hi := by
    rcases Finset.mem_union.1 hi with hi | hi
    · exact h.index_fresh i hi
    · have htable : ∀ j ∈ ownIndexes ∪ tenantKeys, j.table = "tenants" := by decide
      exact ⟨hnames i hi, fun hmem => h.table_ne (hmem.1.symm.trans (htable i hi))⟩
  key_fresh := h.key_fresh

lemma Untenanted.adopted (h : Untenanted db table t) (hother : other ≠ table)
    (hname : (tenantIndex other).name ≠ (tenantIndex table).name) (htenants : table ≠ "tenants") :
    Untenanted (adopted db other t' v) table t where
  table_ne := h.table_ne
  tables_eq := (tables_adopted_of_ne hother.symm).trans h.tables_eq
  notMem_names := h.notMem_names
  values := h.values
  index_fresh := Finset.forall_mem_insert _ _ _ |>.2 ⟨⟨hname, fun hmem => hother hmem.1⟩, h.index_fresh⟩
  key_fresh := Finset.forall_mem_insert _ _ _ |>.2
    ⟨⟨fun hmem => hother hmem.1, fun href => htenants href.1.symm⟩, h.key_fresh⟩

lemma Untenanted.perTenantEmails (h : Untenanted db table t) (htable : table ≠ "users")
    (hname : tenantEmailIndex.name ≠ (tenantIndex table).name) :
    Untenanted (perTenantEmails db) table t where
  table_ne := h.table_ne
  tables_eq := h.tables_eq
  notMem_names := h.notMem_names
  values := h.values
  index_fresh := Finset.forall_mem_insert _ _ _ |>.2 ⟨⟨hname, fun hmem => htable hmem.1.symm⟩,
    fun i hi => h.index_fresh i (Finset.mem_filter.1 hi).1⟩
  key_fresh := h.key_fresh

/-- **The files get the tenants of their owners.** -/
lemma apply_updateFrom (hdb : db.Valid) (h : Untenanted db "uploaded_files" t)
    (husers : ∀ user ∈ db.rows "users", user "tenant_id" = v)
    (howner : ∀ file ∈ t.rows, file "owner_id" ≠ .null ∧
      ∃ user ∈ db.rows "users", user "id" = file "owner_id") :
    Operation.apply (db.setTable "uploaded_files" (withTenant t true .null))
        (.updateFrom "uploaded_files" "tenant_id" "users" "tenant_id" "owner_id" "id") =
      some (db.setTable "uploaded_files" (withTenant t true v)) := by
  refine Operation.apply_of_valid ?_ (valid_withTenant hdb h (by simp))
  have husers' : (db.setTable "uploaded_files" (withTenant t true .null)).rows "users" =
      db.rows "users" := rows_setTable_of_ne (by decide)
  simp only [Operation.change, tables_setTable_self, Option.bind_eq_bind, Option.bind_some, husers',
    setTable_setTable]
  congr 2
  rw [withTenant, withTenant, Table.mk.injEq]
  refine ⟨rfl, ?_, rfl⟩
  rw [List.map_map]
  refine List.map_congr_left fun file hfile => ?_
  obtain ⟨hne, user, huser, hid⟩ := howner file hfile
  have hfound : ((db.rows "users").find? fun r =>
      decide (file "owner_id" ≠ .null ∧ file "owner_id" = r "id")).isSome = true :=
    List.find?_isSome.2 ⟨user, huser, by simp [hne, hid]⟩
  obtain ⟨owner, howner⟩ := Option.isSome_iff_exists.1 hfound
  have hkey : Function.update file "tenant_id" Value.null "owner_id" = file "owner_id" :=
    Function.update_of_ne (by decide) _ _
  simp only [Function.comp_apply, hkey, howner, Option.elim_some, Function.update_idem,
    husers owner (List.mem_of_find?_eq_some howner)]

end Steps

/-! ### The schema of the earlier revisions -/

/-- The tables that get a column for the tenant. -/
def tenantedTables : List String := ["users", "audit_logs", "uploaded_files"]

/-- The reference of a file to its owner. -/
def ownerKey : ForeignKey :=
  ⟨"uploaded_files_owner_id_fkey", "uploaded_files", "owner_id", "users", "id"⟩

/-- The columns of a table. -/
def columnsOf (db : Database) (table : String) : Option (List Column) :=
  (db.tables table).map Table.columns

/-- There is nothing about tenants. -/
def TenantsFree (db : Database) : Prop :=
  columnsOf db "tenants" = none ∧
    (∀ i ∈ db.indexes, i.table ≠ "tenants" ∧ ∀ j ∈ ownIndexes ∪ tenantKeys, i.name ≠ j.name) ∧
    ∀ fk ∈ db.foreignKeys, fk.table ≠ "tenants" ∧ fk.refTable ≠ "tenants"

/-- A table is there and has no tenant. -/
def ColumnFree (db : Database) (table : String) : Prop :=
  ((columnsOf db table).any fun columns => decide ("tenant_id" ∉ columns.map Column.name)) ∧
    (∀ i ∈ db.indexes, i.name ≠ (tenantIndex table).name ∧
      ¬ (i.table = table ∧ "tenant_id" ∈ i.columns)) ∧
    ∀ fk ∈ db.foreignKeys, ¬ (fk.table = table ∧
      (fk.name = (tenantKey table).name ∨ fk.column = "tenant_id")) ∧
      ¬ (fk.refTable = table ∧ fk.refColumn = "tenant_id")

/-- The users have unique addresses. -/
def EmailsIndexed (db : Database) : Prop :=
  ((columnsOf db "users").any fun columns => decide ("email" ∈ columns.map Column.name)) ∧
    emailIndex ∈ db.indexes ∧
    (∀ i ∈ db.indexes, i.name = emailIndex.name → i = emailIndex) ∧
    ∀ i ∈ db.indexes, i.name ≠ tenantEmailIndex.name

/-- The files have owners. -/
def FilesOwned (db : Database) : Prop :=
  ((columnsOf db "uploaded_files").any fun columns =>
    decide ((⟨"owner_id", false⟩ : Column) ∈ columns)) ∧ ownerKey ∈ db.foreignKeys

/-- What the migration needs of the schema. -/
structure Prepared (db : Database) : Prop where
  tenants : TenantsFree db
  columns : ∀ table ∈ tenantedTables, ColumnFree db table
  emails : EmailsIndexed db
  owners : FilesOwned db

instance (db : Database) : Decidable (TenantsFree db) := by
  unfold TenantsFree
  infer_instance

instance (db : Database) (table : String) : Decidable (ColumnFree db table) := by
  unfold ColumnFree
  infer_instance

instance (db : Database) : Decidable (EmailsIndexed db) := by
  unfold EmailsIndexed
  infer_instance

instance (db : Database) : Decidable (FilesOwned db) := by
  unfold FilesOwned
  infer_instance

/-- **The earlier revisions leave such a schema.** -/
lemma prepared_earlier {before : Database}
    (h : exec Operation.apply .empty earlierRevisions = some before) : Prepared before := by
  have hchecked : ((exec Operation.apply .empty earlierRevisions).all fun b =>
      decide (TenantsFree b ∧ (∀ table ∈ tenantedTables, ColumnFree b table) ∧ EmailsIndexed b ∧
        FilesOwned b)) = true := by decide +kernel
  rw [h, Option.all_some, decide_eq_true_iff] at hchecked
  obtain ⟨htenants, hcolumns, hemails, howners⟩ := hchecked
  exact ⟨htenants, hcolumns, hemails, howners⟩

section Content

variable {db before : Database}

/-- The schema alone says so. -/
lemma Prepared.of_sameSchema (h : Prepared before) (hschema : db.SameSchema before) :
    Prepared db := by
  have hcolumns : columnsOf db = columnsOf before := funext hschema.columns
  obtain ⟨htenants, htables, hemails, howners⟩ := h
  unfold TenantsFree at htenants
  unfold ColumnFree at htables
  unfold EmailsIndexed at hemails
  unfold FilesOwned at howners
  rw [← hschema.indexes, ← hschema.foreignKeys, ← hcolumns] at htenants
  rw [← hschema.indexes, ← hschema.foreignKeys, ← hcolumns] at htables
  rw [← hschema.indexes, ← hcolumns] at hemails
  rw [← hschema.foreignKeys, ← hcolumns] at howners
  exact ⟨htenants, htables, hemails, howners⟩

lemma Prepared.withoutTenants (h : Prepared db) : WithoutTenants db where
  tables_eq := Option.map_eq_none_iff.1 h.tenants.1
  index_fresh := h.tenants.2.1
  key_fresh := h.tenants.2.2

/-- The columns of a table that is there. -/
lemma table_of_any {table : String} {p : List Column → Bool}
    (h : (columnsOf db table).any p = true) : ∃ t, db.tables table = some t ∧ p t.columns = true := by
  obtain ⟨columns, hcolumns, hp⟩ := (Option.any_eq_true _ _).1 h
  obtain ⟨t, ht, rfl⟩ := Option.map_eq_some_iff.1 hcolumns
  exact ⟨t, ht, hp⟩

lemma Prepared.untenanted (h : Prepared db) (hshaped : db.Shaped) {table : String}
    (htable : table ∈ tenantedTables) : ∃ t, Untenanted db table t := by
  obtain ⟨hany, hindexes, hkeys⟩ := h.columns table htable
  obtain ⟨t, ht, hnames⟩ := table_of_any hany
  have hnames' : "tenant_id" ∉ t.names := of_decide_eq_true hnames
  refine ⟨t, ?_, ht, hnames', fun row hrow => hshaped table t ht row hrow _ hnames', hindexes, hkeys⟩
  have hne : ∀ table ∈ tenantedTables, table ≠ "tenants" := by decide
  exact hne table htable

end Content

/-! ### The upgrade and the way back -/

/-- The database with the default tenant. -/
abbrev tenanted (db : Database) : Database := withTenants db [defaultTenant] 2 ownIndexes

/-- The database whose users belong to the default tenant, with addresses unique within it. -/
abbrev withUsers (db : Database) (users : Table) : Database :=
  perTenantEmails (adopted (tenanted db) "users" users (.int 1))

/-- The database whose audit logs belong to it as well. -/
abbrev withAudits (db : Database) (users audits : Table) : Database :=
  adopted (withUsers db users) "audit_logs" audits (.int 1)

/-- The database after the upgrade. -/
abbrev upgraded (db : Database) (users audits files : Table) : Database :=
  adopted (withAudits db users audits) "uploaded_files" files (.int 1)

/-- A database with the schema before the migration, and its tables. -/
structure Before (db : Database) (users audits files : Table) : Prop where
  valid : db.Valid
  prepared : Prepared db
  users : Untenanted db "users" users
  audits : Untenanted db "audit_logs" audits
  files : Untenanted db "uploaded_files" files

namespace Before

variable {db : Database} {users audits files : Table}

lemma valid_tenanted (h : Before db users audits files) : (tenanted db).Valid :=
  valid_withDefault h.valid h.prepared.withoutTenants (by decide)

lemma users_tenanted (h : Before db users audits files) :
    Untenanted (tenanted db) "users" users := h.users.withTenants (by decide)

lemma valid_users (h : Before db users audits files) :
    (adopted (tenanted db) "users" users (.int 1)).Valid :=
  valid_adopted h.valid_tenanted h.users_tenanted hasDefault_withTenants

lemma uniqueEmails (h : Before db users audits files) :
    UniqueEmails (adopted (tenanted db) "users" users (.int 1)) (withTenant users false (.int 1)) := by
  obtain ⟨hany, hmem, honly, hfresh⟩ := h.prepared.emails
  obtain ⟨t, ht, hemail⟩ := table_of_any hany
  obtain rfl : users = t := Option.some.inj (h.users.tables_eq.symm.trans ht)
  have hnew : ∀ i ∈ insert (tenantIndex "users") (ownIndexes ∪ tenantKeys),
      i.name ≠ emailIndex.name ∧ i.name ≠ tenantEmailIndex.name := by decide
  have hcases : ∀ i ∈ (adopted (tenanted db) "users" users (.int 1)).indexes,
      i ∈ db.indexes ∨ i ∈ insert (tenantIndex "users") (ownIndexes ∪ tenantKeys) := by
    intro i hi
    rcases Finset.mem_insert.1 hi with rfl | hi
    · exact .inr (Finset.mem_insert_self _ _)
    · exact (Finset.mem_union.1 hi).imp_right Finset.mem_insert_of_mem
  refine ⟨tables_adopted_self, ?_, ?_, fun i hi hname => ?_, fun i hi => ?_⟩
  · have hemail' : "email" ∈ users.columns.map Column.name := of_decide_eq_true hemail
    simp only [withTenant, Table.names, List.map_append]
    exact ⟨List.mem_append_right _ (List.mem_singleton_self _), List.mem_append_left _ hemail'⟩
  · exact Finset.mem_insert_of_mem (Finset.mem_union_left _ hmem)
  · rcases hcases i hi with hi | hi
    · exact honly i hi hname
    · exact absurd hname (hnew i hi).1
  · rcases hcases i hi with hi | hi
    · exact hfresh i hi
    · exact (hnew i hi).2

lemma valid_emails (h : Before db users audits files) : (withUsers db users).Valid :=
  valid_perTenantEmails h.valid_users h.uniqueEmails

lemma default_emails (h : Before db users audits files) :
    HasDefault (withUsers db users) (.int 1) :=
  (hasDefault_withTenants.adopted (by decide)).perTenantEmails h.uniqueEmails

lemma audits_emails (h : Before db users audits files) :
    Untenanted (withUsers db users) "audit_logs" audits :=
  ((h.audits.withTenants (by decide)).adopted (by decide) (by decide) (by decide)).perTenantEmails
    (by decide) (by decide)

lemma valid_audits (h : Before db users audits files) : (withAudits db users audits).Valid :=
  valid_adopted h.valid_emails h.audits_emails h.default_emails

lemma default_audits (h : Before db users audits files) :
    HasDefault (withAudits db users audits) (.int 1) := h.default_emails.adopted (by decide)

lemma files_audits (h : Before db users audits files) :
    Untenanted (withAudits db users audits) "uploaded_files" files :=
  (((h.files.withTenants (by decide)).adopted (by decide) (by decide) (by decide)).perTenantEmails
    (by decide) (by decide)).adopted (by decide) (by decide) (by decide)

/-- The users, once they belong to the default tenant. -/
lemma rows_users : (withAudits db users audits).rows "users" =
    users.rows.map fun row => Function.update row "tenant_id" (.int 1) := by
  have hadopted : (adopted (tenanted db) "users" users (.int 1)).tables "users" =
      some (withTenant users false (.int 1)) := tables_adopted_self
  have htables : (withAudits db users audits).tables "users" =
      some (withTenant users false (.int 1)) := (tables_adopted_of_ne (by decide)).trans hadopted
  exact rows_eq htables

/-- Every file has an owner. -/
lemma owners (h : Before db users audits files) : ∀ file ∈ files.rows,
    file "owner_id" ≠ .null ∧ ∃ user ∈ users.rows, user "id" = file "owner_id" := by
  intro file hfile
  obtain ⟨hany, hmem⟩ := h.prepared.owners
  obtain ⟨t, ht, howner⟩ := table_of_any hany
  obtain rfl : files = t := Option.some.inj (h.files.tables_eq.symm.trans ht)
  have hne : file "owner_id" ≠ .null := h.valid.notNull _ _ ht file hfile _
    (of_decide_eq_true howner) rfl
  refine ⟨hne, ?_⟩
  have hholds := h.valid.references ownerKey hmem
  change ForeignKey.Holds ownerKey (db.rows "uploaded_files") (db.rows "users") at hholds
  rw [rows_eq ht, rows_eq h.users.tables_eq] at hholds
  exact (hholds file hfile).resolve_left hne

/-- **Every step of the upgrade is met by the rows.** -/
lemma exec_upgrade (h : Before db users audits files) :
    exec Operation.apply db upgrade = some (upgraded db users audits files) := by
  have hbackfill : ∀ {db : Database} {table : String} {t : Table} {v : Value}, db.Valid →
      Untenanted db table t → HasDefault db v →
      exec Operation.apply (db.setTable table (withTenant t true .null))
        [.updateNulls table "tenant_id" defaultTenantId] =
        some (db.setTable table (withTenant t true v)) := fun hdb h hdefault =>
    exec_cons_eq_some.2 ⟨_, apply_updateNulls hdb h hdefault, rfl⟩
  have hfiles : exec Operation.apply
      ((withAudits db users audits).setTable "uploaded_files" (withTenant files true .null))
      [.updateFrom "uploaded_files" "tenant_id" "users" "tenant_id" "owner_id" "id",
        .updateNulls "uploaded_files" "tenant_id" defaultTenantId] =
      some ((withAudits db users audits).setTable "uploaded_files"
        (withTenant files true (.int 1))) := by
    refine exec_cons_eq_some.2 ⟨_, apply_updateFrom h.valid_audits h.files_audits (v := .int 1) ?_ ?_,
      exec_cons_eq_some.2
        ⟨_, apply_updateNulls_of_filled h.valid_audits h.files_audits h.default_audits, rfl⟩⟩
    · intro user huser
      rw [rows_users] at huser
      obtain ⟨old, -, rfl⟩ := List.mem_map.1 huser
      exact Function.update_self _ _ _
    · intro file hfile
      obtain ⟨hne, user, huser, hid⟩ := h.owners file hfile
      refine ⟨hne, _, rows_users ▸ List.mem_map_of_mem huser, ?_⟩
      rw [Function.update_of_ne (by decide)]
      exact hid
  have hcreate := giveTenants h.valid h.prepared.withoutTenants
  have husers := giveTenant h.valid_tenanted h.users_tenanted hasDefault_withTenants
    (hbackfill h.valid_tenanted h.users_tenanted hasDefault_withTenants)
  have hemails := swapEmails h.valid_users h.uniqueEmails
  have haudits := giveTenant h.valid_emails h.audits_emails h.default_emails
    (hbackfill h.valid_emails h.audits_emails h.default_emails)
  have hlast := giveTenant h.valid_audits h.files_audits h.default_audits hfiles
  exact exec_append_eq_some.2 ⟨_, exec_append_eq_some.2 ⟨_, exec_append_eq_some.2 ⟨_,
    exec_append_eq_some.2 ⟨_, hcreate, husers⟩, hemails⟩, haudits⟩, hlast⟩

/-- **The downgrade takes the upgrade back.** -/
lemma exec_downgrade (h : Before db users audits files) :
    exec Operation.apply (upgraded db users audits files) downgrade = some db := by
  have hfiles := takeTenant h.valid_audits h.files_audits h.default_audits
  have haudits := takeTenant h.valid_emails h.audits_emails h.default_emails
  have hemails := unswapEmails h.valid_users h.uniqueEmails
  have husers := takeTenant h.valid_tenanted h.users_tenanted hasDefault_withTenants
  have hdrop := takeTenants h.valid h.prepared.withoutTenants
  exact exec_append_eq_some.2 ⟨_, exec_append_eq_some.2 ⟨_, exec_append_eq_some.2 ⟨_,
    exec_append_eq_some.2 ⟨_, hfiles, haudits⟩, hemails⟩, husers⟩, hdrop⟩

/-- Other tables are left as they are. -/
lemma tables_upgraded_of_notMem {name : String} (hname : name ∉ "tenants" :: tenantedTables) :
    (upgraded db users audits files).tables name = db.tables name := by
  simp only [tenantedTables, List.mem_cons, List.not_mem_nil, or_false, not_or] at hname
  obtain ⟨htenants, husers, haudits, hfiles⟩ := hname
  rw [tables_adopted_of_ne hfiles, tables_adopted_of_ne haudits]
  change (adopted (tenanted db) "users" users (.int 1)).tables name = _
  rw [tables_adopted_of_ne husers]
  exact Function.update_of_ne htenants _ _

/-- The rows of a table after the upgrade are its rows, each with the default tenant. -/
lemma rows_upgraded (h : Before db users audits files) {table : String}
    (htable : table ∈ tenantedTables) : (upgraded db users audits files).rows table =
      (db.rows table).map fun row => Function.update row "tenant_id" (.int 1) := by
  simp only [tenantedTables, List.mem_cons, List.not_mem_nil, or_false] at htable
  rcases htable with rfl | rfl | rfl
  · have htables : (upgraded db users audits files).tables "users" =
        (withAudits db users audits).tables "users" := tables_adopted_of_ne (by decide)
    have hrows : (withAudits db users audits).rows "users" = _ := rows_users
    rw [rows_eq h.users.tables_eq, ← hrows, Database.rows, htables]
    rfl
  · have htables : (upgraded db users audits files).tables "audit_logs" =
        some (withTenant audits false (.int 1)) :=
      (tables_adopted_of_ne (by decide)).trans tables_adopted_self
    rw [rows_eq h.audits.tables_eq, rows_eq htables]
    rfl
  · rw [rows_eq h.files.tables_eq, rows_eq tables_adopted_self]
    rfl

lemma rows_tenants : (upgraded db users audits files).rows "tenants" = [defaultTenant] := by
  have htables : (upgraded db users audits files).tables "tenants" =
      some ⟨tenantColumns, [defaultTenant], 2⟩ := by
    rw [tables_adopted_of_ne (by decide), tables_adopted_of_ne (by decide)]
    change (adopted (tenanted db) "users" users (.int 1)).tables "tenants" = _
    rw [tables_adopted_of_ne (by decide)]
    exact tables_withTenants
  exact rows_eq htables

end Before

/-- The migration keeps every row in the tenant of its owner.  Whatever rows the tables hold before
the migration, all of its steps are met; then there is one tenant, the default one, every user, audit
log and file belongs to it, a file to the tenant of its owner, and nothing else has changed.  The
downgrade gives the database back. -/
theorem tenancy_migration_keeps_rows (before db : Database)
    (hbefore : exec Operation.apply .empty earlierRevisions = some before)
    (hschema : db.SameSchema before) (hvalid : db.Valid) (hshaped : db.Shaped) :
    ∃ (after : Database) (tenant : Row), exec Operation.apply db upgrade = some after ∧
      after.rows "tenants" = [tenant] ∧ tenant "slug" = .text "default" ∧
      (∀ table ∈ ["users", "audit_logs", "uploaded_files"], after.rows table =
        (db.rows table).map fun row => Function.update row "tenant_id" (tenant "id")) ∧
      (∀ file ∈ after.rows "uploaded_files",
        (∃ owner ∈ after.rows "users", owner "id" = file "owner_id") ∧
        ∀ owner ∈ after.rows "users", owner "id" = file "owner_id" →
          file "tenant_id" = owner "tenant_id") ∧
      (∀ name ∉ ["tenants", "users", "audit_logs", "uploaded_files"],
        after.tables name = db.tables name) ∧
      exec Operation.apply after downgrade = some db := by
  have hprepared := (prepared_earlier hbefore).of_sameSchema hschema
  obtain ⟨users, husers⟩ := hprepared.untenanted hshaped (show "users" ∈ tenantedTables by decide)
  obtain ⟨audits, haudits⟩ := hprepared.untenanted hshaped (show "audit_logs" ∈ tenantedTables by decide)
  obtain ⟨files, hfiles⟩ := hprepared.untenanted hshaped (show "uploaded_files" ∈ tenantedTables by decide)
  have h : Before db users audits files := ⟨hvalid, hprepared, husers, haudits, hfiles⟩
  refine ⟨upgraded db users audits files, defaultTenant, h.exec_upgrade, Before.rows_tenants, rfl,
    fun table htable => h.rows_upgraded htable, fun file hfile => ?_,
    fun name hname => Before.tables_upgraded_of_notMem hname, h.exec_downgrade⟩
  rw [h.rows_upgraded (by decide), rows_eq hfiles.tables_eq] at hfile
  rw [h.rows_upgraded (show "users" ∈ tenantedTables by decide), rows_eq husers.tables_eq]
  obtain ⟨old, hold, rfl⟩ := List.mem_map.1 hfile
  have howner : ∀ row : Row, Function.update row "tenant_id" (.int 1) "id" = row "id" ∧
      Function.update row "tenant_id" (.int 1) "owner_id" = row "owner_id" := fun row =>
    ⟨Function.update_of_ne (by decide) _ _, Function.update_of_ne (by decide) _ _⟩
  constructor
  · obtain ⟨-, owner, hmem, hid⟩ := h.owners old hold
    refine ⟨_, List.mem_map_of_mem hmem, ?_⟩
    rw [(howner owner).1, (howner old).2, hid]
  · intro owner hmem _
    obtain ⟨user, -, rfl⟩ := List.mem_map.1 hmem
    rw [Function.update_self, Function.update_self]

/-! ### A database with rows -/

/-- The ids and the values of some rows. -/
def sampleValues (table : String) : List (ℤ × List (String × Value)) :=
  if table = "users" then
    [(1, [("email", .text "ada@example.com"), ("hashed_password", .text "x"),
        ("is_active", .bool true), ("role", .text "admin")]),
      (2, [("email", .text "bob@example.com"), ("hashed_password", .text "y"),
        ("is_active", .bool false), ("role", .text "user")])]
  else if table = "audit_logs" then
    [(1, [("admin_id", .int 1), ("action", .text "user.deactivated"), ("target_user_id", .int 2),
        ("created_at", .time 5)]),
      (2, [("action", .text "backup.completed")])]
  else if table = "uploaded_files" then
    [(1, [("owner_id", .int 2), ("object_key", .text "uploads/2/a"), ("filename", .text "a"),
        ("content_type", .text "text/plain"), ("size_bytes", .int 3), ("created_at", .time 7)])]
  else []

/-- The schema of the earlier revisions, with these rows. -/
def sampleDatabase (before : Database) : Database :=
  { before with tables := fun name => (before.tables name).map fun t =>
      { t with rows := (sampleValues name).map fun row => Operation.newRow row.1 row.2 } }

lemma newRow_eq_null {id : ℤ} {values : List (String × Value)} {c : String} (hid : c ≠ "id")
    (hc : c ∉ values.map Prod.fst) : Operation.newRow id values c = .null := by
  have hfind : values.find? (fun p => decide (p.1 = c)) = none :=
    List.find?_eq_none.2 fun p hp => by
      simpa using fun heq : p.1 = c => hc (heq ▸ List.mem_map_of_mem hp)
  rw [Operation.newRow, if_neg hid, hfind]
  rfl

lemma sampleValues_eq_nil {name : String} (h : name ∉ tenantedTables) : sampleValues name = [] := by
  simp only [tenantedTables, List.mem_cons, List.not_mem_nil, or_false, not_or] at h
  simp [sampleValues, h]

/-- Its two users, two audit logs and the file are moved to the default tenant and back. -/
theorem tenancy_migration_keeps_rows_sample : ∃ before after : Database,
    exec Operation.apply .empty earlierRevisions = some before ∧
      exec Operation.apply (sampleDatabase before) upgrade = some after ∧
      exec Operation.apply after downgrade = some (sampleDatabase before) := by
  have hchecked : ((exec Operation.apply .empty earlierRevisions).any fun before =>
      decide ((sampleDatabase before).KeysHold ∧ ∀ name ∈ tenantedTables,
        ∀ t ∈ (sampleDatabase before).tables name, t.NotNull ∧ "id" ∈ t.names ∧
          ∀ row ∈ sampleValues name, row.2.map Prod.fst ⊆ t.names)) = true := by decide +kernel
  obtain ⟨before, hbefore, hsample⟩ := (Option.any_eq_true _ _).1 hchecked
  obtain ⟨hkeys, htables⟩ := of_decide_eq_true hsample
  have hrows : ∀ name t, (sampleDatabase before).tables name = some t → t.rows =
      (sampleValues name).map fun row => Operation.newRow row.1 row.2 := fun name t ht => by
    obtain ⟨_, -, rfl⟩ := Option.map_eq_some_iff.1 ht
    rfl
  have hschema : (sampleDatabase before).SameSchema before := by
    refine ⟨fun name => ?_, rfl, rfl⟩
    rw [sampleDatabase, Option.map_map]
    rfl
  have hvalid : (sampleDatabase before).Valid := by
    refine ⟨hkeys, fun name t ht => ?_⟩
    by_cases hname : name ∈ tenantedTables
    · exact (htables name hname t ht).1
    · intro row hrow
      rw [hrows name t ht, sampleValues_eq_nil hname] at hrow
      cases hrow
  have hshaped : (sampleDatabase before).Shaped := by
    intro name t ht row hrow c hc
    rw [hrows name t ht] at hrow
    obtain ⟨values, hvalues, rfl⟩ := List.mem_map.1 hrow
    by_cases hname : name ∈ tenantedTables
    · obtain ⟨-, hid, hnames⟩ := htables name hname t ht
      exact newRow_eq_null (fun heq => hc (heq ▸ hid)) fun hmem => hc (hnames values hvalues hmem)
    · rw [sampleValues_eq_nil hname] at hvalues
      cases hvalues
  obtain ⟨after, -, hup, -, -, -, -, -, hdown⟩ :=
    tenancy_migration_keeps_rows before (sampleDatabase before) hbefore hschema hvalid hshaped
  exact ⟨before, after, hbefore, hup, hdown⟩

end StarterBackend.Tenants.Migration

/-
Relational databases whose schema changes while they hold rows.

A database is its tables with their rows, its indexes and its foreign keys.  Every
operation of a migration, a change of the schema or a statement on the rows, is carried out
and then checked against the constraints of the schema that it leaves: it fails when a
column that must have a value has none, when two rows share a unique key, or when a
reference points to no row.  So a valid database stays valid (`apply_valid`), and an
operation succeeds exactly when what it leaves is valid (`apply_eq_some`).
-/
import StarterBackend.Lib.Machine
import Mathlib.Data.Finset.Basic
import Mathlib.Data.Finset.Image

namespace StarterBackend.Lib.Relational

/-! ### Databases -/

/-- What a column holds. -/
inductive Value where
  | null
  | int (n : ℤ)
  | text (s : String)
  | bool (b : Bool)
  | time (micros : ℤ)
deriving DecidableEq

/-- A row, by the names of its columns. -/
abbrev Row := String → Value

structure Column where
  name : String
  nullable : Bool := true
deriving DecidableEq

/-- The columns and the rows of a table, and the next value of its identity column. -/
structure Table where
  columns : List Column
  rows : List Row
  nextId : ℤ := 1

/-- An index on some columns of a table. -/
structure Index where
  name : String
  table : String
  columns : List String
  unique : Bool := false
deriving DecidableEq

/-- The column of one table that names rows of another one. -/
structure ForeignKey where
  name : String
  table : String
  column : String
  refTable : String
  refColumn : String := "id"
deriving DecidableEq

structure Database where
  tables : String → Option Table
  indexes : Finset Index
  foreignKeys : Finset ForeignKey

/-- A database without tables. -/
def Database.empty : Database := ⟨fun _ => none, ∅, ∅⟩

/-- The rows of a table, if there is one. -/
def Database.rows (db : Database) (table : String) : List Row :=
  ((db.tables table).map Table.rows).getD []

/-- The database with another table under a name. -/
def Database.setTable (db : Database) (name : String) (table : Table) : Database :=
  { db with tables := Function.update db.tables name (some table) }

def Table.names (table : Table) : List String := table.columns.map Column.name

/-! ### Constraints -/

/-- The columns that must have a value have one. -/
def Table.NotNull (table : Table) : Prop :=
  ∀ row ∈ table.rows, ∀ c ∈ table.columns, c.nullable = false → row c.name ≠ .null

instance (table : Table) : Decidable table.NotNull := by
  unfold Table.NotNull
  infer_instance

/-- Two rows have one key, and a value in all of its columns. -/
def Clash (columns : List String) (r s : Row) : Prop := ∀ c ∈ columns, r c = s c ∧ r c ≠ .null

instance (columns : List String) (r s : Row) : Decidable (Clash columns r s) := by
  unfold Clash
  infer_instance

/-- No two of the rows have the key of a unique index in common. -/
def Index.Holds (i : Index) (rows : List Row) : Prop :=
  i.unique = true → rows.Pairwise fun r s => ¬ Clash i.columns r s

instance (i : Index) (rows : List Row) : Decidable (i.Holds rows) := by
  unfold Index.Holds
  infer_instance

/-- Each reference is null or names a row. -/
def ForeignKey.Holds (fk : ForeignKey) (rows refRows : List Row) : Prop :=
  ∀ row ∈ rows, row fk.column = .null ∨ ∃ r ∈ refRows, r fk.refColumn = row fk.column

instance (fk : ForeignKey) (rows refRows : List Row) : Decidable (fk.Holds rows refRows) := by
  unfold ForeignKey.Holds
  infer_instance

namespace Database

/-- The indexes and the foreign keys of the database hold. -/
structure KeysHold (db : Database) : Prop where
  unique : ∀ i ∈ db.indexes, i.Holds (db.rows i.table)
  references : ∀ fk ∈ db.foreignKeys, fk.Holds (db.rows fk.table) (db.rows fk.refTable)

instance (db : Database) : Decidable db.KeysHold :=
  decidable_of_iff ((∀ i ∈ db.indexes, i.Holds (db.rows i.table)) ∧
    ∀ fk ∈ db.foreignKeys, fk.Holds (db.rows fk.table) (db.rows fk.refTable))
    ⟨fun h => ⟨h.1, h.2⟩, fun h => ⟨h.unique, h.references⟩⟩

/-- The rows meet all constraints. -/
structure Valid (db : Database) : Prop extends KeysHold db where
  notNull : ∀ name table, db.tables name = some table → table.NotNull

/-- Rows have values in the columns of their tables only. -/
def Shaped (db : Database) : Prop :=
  ∀ name table, db.tables name = some table → ∀ row ∈ table.rows, ∀ c ∉ table.names, row c = .null

/-- The same tables, columns, indexes and foreign keys, whatever the rows. -/
structure SameSchema (db other : Database) : Prop where
  columns : ∀ name, (db.tables name).map Table.columns = (other.tables name).map Table.columns
  indexes : db.indexes = other.indexes
  foreignKeys : db.foreignKeys = other.foreignKeys

end Database

/-! ### Operations -/

/-- `SELECT column FROM table WHERE key = value`, as a value. -/
structure Subquery where
  column : String
  table : String
  key : String
  value : Value

/-- The value of a subquery: null without a row, an error with more than one. -/
def Subquery.eval (q : Subquery) (db : Database) : Option Value :=
  match (db.rows q.table).filter fun row => row q.key = q.value with
  | [] => some .null
  | [row] => some (row q.column)
  | _ => none

/-- The changes of a schema, and the statements of migrations. -/
inductive Operation where
  | createTable (name : String) (columns : List Column) (keys : Finset Index)
      (foreignKeys : Finset ForeignKey)
  | dropTable (name : String)
  | createIndex (i : Index)
  | dropIndex (name table : String)
  | addColumn (table : String) (column : Column)
  | dropColumn (table column : String)
  | alterColumn (table column : String) (nullable : Bool)
  | createForeignKey (fk : ForeignKey)
  | dropConstraint (name table : String)
  /-- `INSERT INTO table … SELECT … WHERE NOT EXISTS (SELECT 1 FROM table WHERE key = value)`, in a
  table whose column `id` is an identity. -/
  | insertUnlessExists (table : String) (values : List (String × Value)) (key : String)
      (value : Value)
  /-- `UPDATE table SET column = (SELECT …) WHERE column IS NULL`. -/
  | updateNulls (table column : String) (q : Subquery)
  /-- `UPDATE table SET column = source.column FROM source WHERE table.key = source.sourceKey`. -/
  | updateFrom (table column source sourceColumn key sourceKey : String)

namespace Operation

/-- The table that an operation changes. -/
def table : Operation → String
  | .createTable name _ _ _ => name
  | .dropTable name => name
  | .createIndex i => i.table
  | .dropIndex _ table => table
  | .addColumn table _ => table
  | .dropColumn table _ => table
  | .alterColumn table _ _ => table
  | .createForeignKey fk => fk.table
  | .dropConstraint _ table => table
  | .insertUnlessExists table _ _ _ => table
  | .updateNulls table _ _ => table
  | .updateFrom table _ _ _ _ _ => table

/-- The row of an insertion. -/
def newRow (id : ℤ) (values : List (String × Value)) : Row := fun column =>
  if column = "id" then .int id else ((values.find? (·.1 = column)).map Prod.snd).getD .null

/-- What an operation does to the database, before the constraints are checked. -/
def change : Operation → Database → Option Database
  | .createTable name columns keys foreignKeys, db =>
      if db.tables name = none ∧ Disjoint (keys.image Index.name) (db.indexes.image Index.name) then
        some ⟨Function.update db.tables name (some ⟨columns, [], 1⟩), db.indexes ∪ keys,
          db.foreignKeys ∪ foreignKeys⟩
      else none
  | .dropTable name, db =>
      if (db.tables name).isSome ∧ ∀ fk ∈ db.foreignKeys, fk.refTable = name → fk.table = name then
        some ⟨Function.update db.tables name none, db.indexes.filter (·.table ≠ name),
          db.foreignKeys.filter (·.table ≠ name)⟩
      else none
  | .createIndex i, db => do
      let t ← db.tables i.table
      if i.columns ⊆ t.names ∧ i.name ∉ db.indexes.image Index.name then
        some { db with indexes := insert i db.indexes }
      else none
  | .dropIndex name table, db =>
      if ∃ i ∈ db.indexes, i.name = name ∧ i.table = table then
        some { db with indexes := db.indexes.filter (·.name ≠ name) }
      else none
  | .addColumn table column, db => do
      let t ← db.tables table
      if column.name ∉ t.names then
        some (db.setTable table { t with
          columns := t.columns ++ [column]
          rows := t.rows.map fun row => Function.update row column.name .null })
      else none
  | .dropColumn table column, db => do
      let t ← db.tables table
      if column ∈ t.names ∧
          ∀ fk ∈ db.foreignKeys, ¬ (fk.refTable = table ∧ fk.refColumn = column) then
        some { db.setTable table { t with
            columns := t.columns.filter (·.name ≠ column)
            rows := t.rows.map fun row => Function.update row column .null } with
          indexes := db.indexes.filter fun i => ¬ (i.table = table ∧ column ∈ i.columns)
          foreignKeys := db.foreignKeys.filter fun fk => ¬ (fk.table = table ∧ fk.column = column) }
      else none
  | .alterColumn table column nullable, db => do
      let t ← db.tables table
      if column ∈ t.names then
        some (db.setTable table { t with
          columns := t.columns.map fun c => if c.name = column then { c with nullable } else c })
      else none
  | .createForeignKey fk, db => do
      let t ← db.tables fk.table
      if fk.column ∈ t.names ∧ (∀ other ∈ db.foreignKeys, other.table = fk.table → other.name ≠ fk.name) ∧
          ∃ i ∈ db.indexes, i.table = fk.refTable ∧ i.columns = [fk.refColumn] ∧ i.unique = true then
        some { db with foreignKeys := insert fk db.foreignKeys }
      else none
  | .dropConstraint name table, db =>
      if ∃ fk ∈ db.foreignKeys, fk.name = name ∧ fk.table = table then
        some { db with foreignKeys := db.foreignKeys.filter fun fk =>
          ¬ (fk.name = name ∧ fk.table = table) }
      else none
  | .insertUnlessExists table values key value, db => do
      let t ← db.tables table
      if ∃ row ∈ t.rows, row key = value then some db
      else some (db.setTable table { t with
        rows := t.rows ++ [newRow t.nextId values]
        nextId := t.nextId + 1 })
  | .updateNulls table column q, db => do
      let t ← db.tables table
      let value ← q.eval db
      some (db.setTable table { t with
        rows := t.rows.map fun row =>
          if row column = .null then Function.update row column value else row })
  | .updateFrom table column source sourceColumn key sourceKey, db => do
      let t ← db.tables table
      some (db.setTable table { t with
        rows := t.rows.map fun row =>
          ((db.rows source).find? fun r => row key ≠ .null ∧ row key = r sourceKey).elim row
            fun r => Function.update row column (r sourceColumn) })

/-- What the schema asks of the table that was changed, and of all keys. -/
def Meets (db : Database) (name : String) : Prop :=
  (∀ t ∈ db.tables name, t.NotNull) ∧ db.KeysHold

instance (db : Database) (name : String) : Decidable (Meets db name) := by
  unfold Meets
  infer_instance

/-- An operation, which fails when it leaves a constraint violated. -/
def apply (db : Database) (op : Operation) : Option Database :=
  (op.change db).filter fun db' => decide (Meets db' op.table)

variable {db db' : Database} {op : Operation} {name : String}

lemma apply_eq_some : op.apply db = some db' ↔ op.change db = some db' ∧ Meets db' op.table := by
  rw [apply, Option.filter_eq_some_iff, decide_eq_true_iff]

/-- An operation changes one table. -/
lemma tables_change_of_ne (h : op.change db = some db') (hname : name ≠ op.table) :
    db'.tables name = db.tables name := by
  have hset : ∀ t, (db.setTable op.table t).tables name = db.tables name := fun t =>
    Function.update_of_ne hname _ _
  cases op with
  | createTable table columns keys foreignKeys =>
      simp only [change] at h
      split_ifs at h
      obtain rfl := Option.some.inj h
      exact Function.update_of_ne hname _ _
  | dropTable table =>
      simp only [change] at h
      split_ifs at h
      obtain rfl := Option.some.inj h
      exact Function.update_of_ne hname _ _
  | createIndex i =>
      obtain ⟨t, -, h⟩ := Option.bind_eq_some_iff.1 h
      split_ifs at h
      obtain rfl := Option.some.inj h
      rfl
  | dropIndex index table =>
      simp only [change] at h
      split_ifs at h
      obtain rfl := Option.some.inj h
      rfl
  | addColumn table column =>
      obtain ⟨t, -, h⟩ := Option.bind_eq_some_iff.1 h
      split_ifs at h
      obtain rfl := Option.some.inj h
      exact hset _
  | dropColumn table column =>
      obtain ⟨t, -, h⟩ := Option.bind_eq_some_iff.1 h
      split_ifs at h
      obtain rfl := Option.some.inj h
      exact hset _
  | alterColumn table column nullable =>
      obtain ⟨t, -, h⟩ := Option.bind_eq_some_iff.1 h
      split_ifs at h
      obtain rfl := Option.some.inj h
      exact hset _
  | createForeignKey fk =>
      obtain ⟨t, -, h⟩ := Option.bind_eq_some_iff.1 h
      split_ifs at h
      obtain rfl := Option.some.inj h
      rfl
  | dropConstraint constraint table =>
      simp only [change] at h
      split_ifs at h
      obtain rfl := Option.some.inj h
      rfl
  | insertUnlessExists table values key value =>
      obtain ⟨t, -, h⟩ := Option.bind_eq_some_iff.1 h
      split_ifs at h
      · obtain rfl := Option.some.inj h
        rfl
      · obtain rfl := Option.some.inj h
        exact hset _
  | updateNulls table column q =>
      obtain ⟨t, -, h⟩ := Option.bind_eq_some_iff.1 h
      obtain ⟨value, -, h⟩ := Option.bind_eq_some_iff.1 h
      obtain rfl := Option.some.inj h
      exact hset _
  | updateFrom table column source sourceColumn key sourceKey =>
      obtain ⟨t, -, h⟩ := Option.bind_eq_some_iff.1 h
      obtain rfl := Option.some.inj h
      exact hset _

/-- **A valid database stays valid.** -/
theorem apply_valid (hdb : db.Valid) (h : op.apply db = some db') : db'.Valid := by
  obtain ⟨hchange, hmeets⟩ := apply_eq_some.1 h
  refine ⟨hmeets.2, fun name t ht => ?_⟩
  rcases eq_or_ne name op.table with rfl | hname
  · exact hmeets.1 t ht
  · exact hdb.notNull name t ((tables_change_of_ne hchange hname).symm.trans ht)

/-- An operation that leaves a valid database succeeds. -/
lemma apply_of_valid (h : op.change db = some db') (hdb' : db'.Valid) : op.apply db = some db' :=
  apply_eq_some.2 ⟨h, fun t ht => hdb'.notNull _ t ht, hdb'.toKeysHold⟩

end Operation

/-! ### What keeps a database valid -/

section Keeps

variable {db : Database} {name c : String} {t : Table} {f : Row → Value}

@[simp] lemma tables_setTable_self : (db.setTable name t).tables name = some t :=
  Function.update_self _ _ _

lemma tables_setTable_of_ne {other : String} (h : other ≠ name) :
    (db.setTable name t).tables other = db.tables other := Function.update_of_ne h _ _

@[simp] lemma rows_setTable_self : (db.setTable name t).rows name = t.rows := by
  simp [Database.rows]

lemma rows_setTable_of_ne {other : String} (h : other ≠ name) :
    (db.setTable name t).rows other = db.rows other := by
  rw [Database.rows, tables_setTable_of_ne h]
  rfl

lemma rows_eq (h : db.tables name = some t) : db.rows name = t.rows := by
  simp [Database.rows, h]

@[simp] lemma setTable_setTable {t' : Table} :
    (db.setTable name t).setTable name t' = db.setTable name t' := by
  simp [Database.setTable]

/-- An index or a foreign key of the database is about the column. -/
def Database.Mentions (db : Database) (table column : String) : Prop :=
  (∃ i ∈ db.indexes, i.table = table ∧ column ∈ i.columns) ∨
    ∃ fk ∈ db.foreignKeys, (fk.table = table ∧ fk.column = column) ∨
      (fk.refTable = table ∧ fk.refColumn = column)

instance (db : Database) (table column : String) : Decidable (db.Mentions table column) := by
  unfold Database.Mentions
  infer_instance

/-- Fewer indexes and foreign keys are met as well. -/
lemma Database.Valid.mono {db' : Database} (h : db.Valid) (htables : db'.tables = db.tables)
    (hindexes : db'.indexes ⊆ db.indexes) (hforeignKeys : db'.foreignKeys ⊆ db.foreignKeys) :
    db'.Valid := by
  obtain ⟨tables, indexes, foreignKeys⟩ := db'
  obtain rfl : tables = db.tables := htables
  exact ⟨⟨fun i hi => h.unique i (hindexes hi), fun fk hfk => h.references fk (hforeignKeys hfk)⟩,
    h.notNull⟩

lemma Database.Valid.insertIndex {i : Index} (h : db.Valid) (hi : i.Holds (db.rows i.table)) :
    Database.Valid { db with indexes := insert i db.indexes } :=
  ⟨⟨Finset.forall_mem_insert _ _ _ |>.2 ⟨hi, h.unique⟩, h.references⟩, h.notNull⟩

lemma Database.Valid.insertForeignKey {fk : ForeignKey} (h : db.Valid)
    (hfk : fk.Holds (db.rows fk.table) (db.rows fk.refTable)) :
    Database.Valid { db with foreignKeys := insert fk db.foreignKeys } :=
  ⟨⟨h.unique, Finset.forall_mem_insert _ _ _ |>.2 ⟨hfk, h.references⟩⟩, h.notNull⟩

lemma Index.holds_map {i : Index} {rows : List Row} (hc : c ∉ i.columns) (h : i.Holds rows) :
    i.Holds (rows.map fun row => Function.update row c (f row)) := by
  intro hunique
  refine (List.pairwise_map.2 ((h hunique).imp fun hrs hclash => hrs fun column hcolumn => ?_))
  have hne : column ≠ c := fun heq => hc (heq ▸ hcolumn)
  simpa [hne] using hclash column hcolumn

lemma ForeignKey.holds_map {fk : ForeignKey} {rows refRows : List Row} (hc : fk.column ≠ c)
    (h : fk.Holds rows refRows) :
    fk.Holds (rows.map fun row => Function.update row c (f row)) refRows := by
  intro row hrow
  obtain ⟨old, hold, rfl⟩ := List.mem_map.1 hrow
  simpa [hc] using h old hold

lemma ForeignKey.holds_map_ref {fk : ForeignKey} {rows refRows : List Row} (hc : fk.refColumn ≠ c)
    (h : fk.Holds rows refRows) :
    fk.Holds rows (refRows.map fun row => Function.update row c (f row)) := by
  intro row hrow
  refine (h row hrow).imp_right ?_
  rintro ⟨r, hr, heq⟩
  exact ⟨_, List.mem_map_of_mem hr, by simpa [hc] using heq⟩

/-- **A column that no key mentions may change**, as long as the table has the values that it must
have. -/
lemma Database.Valid.mapColumn {columns : List Column} {n : ℤ} (h : db.Valid)
    (ht : db.tables name = some t) (hc : ¬ db.Mentions name c)
    (hnull : Table.NotNull ⟨columns, t.rows.map fun row => Function.update row c (f row), n⟩) :
    (db.setTable name
      ⟨columns, t.rows.map fun row => Function.update row c (f row), n⟩).Valid := by
  refine ⟨⟨fun i hi => ?_, fun fk hfk => ?_⟩, fun other t' ht' => ?_⟩
  · have hholds := h.unique i hi
    rcases eq_or_ne i.table name with htable | htable
    · rw [htable, rows_setTable_self]
      rw [htable, rows_eq ht] at hholds
      exact Index.holds_map (fun hmem => hc (.inl ⟨i, hi, htable, hmem⟩)) hholds
    · rwa [rows_setTable_of_ne htable]
  · have hholds := h.references fk hfk
    have hrows : fk.Holds ((db.setTable name
        ⟨columns, t.rows.map fun row => Function.update row c (f row), n⟩).rows fk.table)
        (db.rows fk.refTable) := by
      rcases eq_or_ne fk.table name with htable | htable
      · rw [htable, rows_setTable_self]
        rw [htable, rows_eq ht] at hholds
        exact ForeignKey.holds_map (fun hcolumn => hc (.inr ⟨fk, hfk, .inl ⟨htable, hcolumn⟩⟩))
          hholds
      · rwa [rows_setTable_of_ne htable]
    rcases eq_or_ne fk.refTable name with htable | htable
    · rw [htable] at hrows ⊢
      rw [rows_eq ht] at hrows
      rw [show (db.setTable name _).rows name = _ from rows_setTable_self]
      exact ForeignKey.holds_map_ref (fun hcolumn => hc (.inr ⟨fk, hfk, .inr ⟨htable, hcolumn⟩⟩))
        hrows
    · rwa [show (db.setTable name _).rows fk.refTable = _ from rows_setTable_of_ne htable]
  · rcases eq_or_ne other name with rfl | hother
    · rw [tables_setTable_self] at ht'
      obtain rfl := Option.some.inj ht'
      exact hnull
    · rw [tables_setTable_of_ne hother] at ht'
      exact h.notNull other t' ht'

/-- A key that has another unique key in it is unique. -/
lemma Index.holds_of_subset {i j : Index} {rows : List Row} (h : i.Holds rows)
    (hunique : i.unique = true) (hcolumns : i.columns ⊆ j.columns) : j.Holds rows := fun _ =>
  (h hunique).imp fun hrs hclash => hrs fun column hcolumn => hclash column (hcolumns hcolumn)

/-- A new table without rows meets its keys. -/
lemma Database.Valid.createTable {columns : List Column} {keys : Finset Index}
    {foreignKeys : Finset ForeignKey} (h : db.Valid) (hname : db.tables name = none)
    (hkeys : ∀ i ∈ keys, i.table = name) (hforeignKeys : ∀ fk ∈ foreignKeys, fk.table = name) :
    Database.Valid ⟨Function.update db.tables name (some ⟨columns, [], 1⟩), db.indexes ∪ keys,
      db.foreignKeys ∪ foreignKeys⟩ := by
  have hrows : ∀ other, Database.rows ⟨Function.update db.tables name (some ⟨columns, [], 1⟩),
      db.indexes ∪ keys, db.foreignKeys ∪ foreignKeys⟩ other = db.rows other := by
    intro other
    rcases eq_or_ne other name with rfl | hother
    · simp [Database.rows, hname]
    · simp [Database.rows, hother]
  have hempty : db.rows name = [] := by simp [Database.rows, hname]
  refine ⟨⟨fun i hi => ?_, fun fk hfk => ?_⟩, fun other t ht => ?_⟩
  · rw [hrows]
    rcases Finset.mem_union.1 hi with hi | hi
    · exact h.unique i hi
    · rw [hkeys i hi, hempty]
      exact fun _ => .nil
  · rw [hrows, hrows]
    rcases Finset.mem_union.1 hfk with hfk | hfk
    · exact h.references fk hfk
    · rw [hforeignKeys fk hfk, hempty]
      exact fun row hrow => absurd hrow List.not_mem_nil
  · change Function.update db.tables name (some ⟨columns, [], 1⟩) other = some t at ht
    rcases eq_or_ne other name with rfl | hother
    · rw [Function.update_self] at ht
      obtain rfl := Option.some.inj ht
      exact fun row hrow => absurd hrow List.not_mem_nil
    · rw [Function.update_of_ne hother] at ht
      exact h.notNull other t ht

/-- The first row of a table that no foreign key is about. -/
lemma Database.Valid.insertFirst {columns : List Column} {row : Row} {n : ℤ} (h : db.Valid)
    (hnull : ∀ c ∈ columns, c.nullable = false → row c.name ≠ .null)
    (hforeignKeys : ∀ fk ∈ db.foreignKeys, fk.table ≠ name ∧ fk.refTable ≠ name) :
    (db.setTable name ⟨columns, [row], n⟩).Valid := by
  refine ⟨⟨fun i hi => ?_, fun fk hfk => ?_⟩, fun other t' ht' => ?_⟩
  · rcases eq_or_ne i.table name with htable | htable
    · rw [htable, rows_setTable_self]
      exact fun _ => List.pairwise_singleton _ _
    · rw [rows_setTable_of_ne htable]
      exact h.unique i hi
  · obtain ⟨htable, href⟩ := hforeignKeys fk hfk
    rw [rows_setTable_of_ne htable, rows_setTable_of_ne href]
    exact h.references fk hfk
  · rcases eq_or_ne other name with rfl | hother
    · rw [tables_setTable_self] at ht'
      obtain rfl := Option.some.inj ht'
      intro r hr
      obtain rfl := List.mem_singleton.1 hr
      exact hnull
    · rw [tables_setTable_of_ne hother] at ht'
      exact h.notNull other t' ht'

end Keeps

end StarterBackend.Lib.Relational

/-
Database tables with a primary key.

The rows of a `Table` are found under their keys, which a sequence supplies: a new row
takes a key that no row has had before (the sequence may skip some), and a table never
holds two rows of one key.  The operations are the statements that the application
sends: `insert`, `modify` (an `UPDATE` of any set of rows), `restrict` (a `DELETE` of
any set of rows), and the lookups `find` and `select`.

Two rows of different keys do not interact, so everything said here about a table is
said about `row k`, one key at a time.
-/
import Mathlib.Tactic.Common
import Mathlib.Data.Int.Basic
import Mathlib.Logic.Function.Basic
import Mathlib.Data.List.Basic

namespace StarterBackend.Lib

/-- Rows that carry their primary key. -/
class Entity (ρ : Type*) where
  id : ρ → ℕ

/-- A table: the row of every key, and the next value of the sequence. -/
@[ext]
structure Table (ρ : Type*) [Entity ρ] where
  row : ℕ → Option ρ
  next : ℕ
  id_of_row : ∀ {k r}, row k = some r → Entity.id r = k
  lt_of_row : ∀ {k r}, row k = some r → k < next

namespace Table

variable {ρ : Type*} [Entity ρ] {t : Table ρ} {r : ρ} {k : ℕ}

/-- The table without rows. -/
def empty : Table ρ := ⟨fun _ => none, 0, nofun, nofun⟩

instance : Inhabited (Table ρ) := ⟨empty⟩

/-! ### Lookups -/

/-- The row of a key that comes from outside, where it may be any integer. -/
def find (t : Table ρ) : ℤ → Option ρ
  | .ofNat k => t.row k
  | .negSucc _ => none

/-- All rows, by key. -/
def toList (t : Table ρ) : List ρ := (List.range t.next).filterMap t.row

/-- The rows that meet a condition, by key. -/
def select (t : Table ρ) (p : ρ → Bool) : List ρ := t.toList.filter p

@[simp] lemma find_natCast (t : Table ρ) (k : ℕ) : t.find k = t.row k := rfl

lemma find_eq_some {k : ℤ} : t.find k = some r ↔ k = Entity.id r ∧ t.row (Entity.id r) = some r := by
  cases k with
  | ofNat k =>
      constructor
      · intro h
        have hid := t.id_of_row h
        exact ⟨by simp [hid], by rwa [hid]⟩
      · rintro ⟨hid, h⟩
        obtain rfl : k = Entity.id r := Int.ofNat.inj hid
        exact h
  | negSucc k =>
      constructor
      · nofun
      · rintro ⟨hid, -⟩
        simp at hid

/-- The sequence is past every key. -/
lemma row_eq_none_of_le (h : t.next ≤ k) : t.row k = none := by
  by_contra hne
  obtain ⟨r, hr⟩ := Option.ne_none_iff_exists'.1 hne
  exact absurd (t.lt_of_row hr) (by omega)

lemma row_id (h : t.row k = some r) : t.row (Entity.id r) = some r := by rwa [t.id_of_row h]

lemma mem_toList : r ∈ t.toList ↔ t.row (Entity.id r) = some r := by
  constructor
  · intro h
    obtain ⟨k, -, hk⟩ := List.mem_filterMap.1 h
    exact row_id hk
  · intro h
    exact List.mem_filterMap.2 ⟨_, List.mem_range.2 (t.lt_of_row h), h⟩

lemma mem_select {p : ρ → Bool} : r ∈ t.select p ↔ t.row (Entity.id r) = some r ∧ p r = true := by
  rw [select, List.mem_filter, mem_toList]

/-- No two listed rows have one key. -/
lemma pairwise_toList (t : Table ρ) :
    t.toList.Pairwise fun r s => Entity.id r ≠ Entity.id s := by
  rw [toList, List.pairwise_filterMap]
  refine List.nodup_range.imp fun {k l} hkl r hr s hs => ?_
  rw [t.id_of_row hr, t.id_of_row hs]
  exact hkl

/-- There are no rows after those that are listed. -/
lemma toList_eq_filterMap (t : Table ρ) (d : ℕ) :
    (List.range (t.next + d)).filterMap t.row = t.toList := by
  induction d with
  | zero => rfl
  | succ d ih =>
      simp [← Nat.add_assoc, List.range_succ, ih,
        row_eq_none_of_le (t := t) (k := t.next + d) (by omega)]

/-- The rows that meet a condition are those of the keys whose row meets it. -/
lemma select_eq_filterMap (t : Table ρ) (p : ρ → Bool) {n : ℕ} (hn : t.next ≤ n) :
    t.select p = (List.range n).filterMap fun k => (t.row k).filter p := by
  obtain ⟨d, rfl⟩ := Nat.exists_eq_add_of_le hn
  rw [select, ← toList_eq_filterMap t d, List.filter_filterMap]

/-- Two tables that agree on the rows that meet a condition answer a query for them alike. -/
theorem select_congr {t u : Table ρ} {p : ρ → Bool}
    (h : ∀ k, (t.row k).filter p = (u.row k).filter p) : t.select p = u.select p := by
  rw [select_eq_filterMap t p (Nat.le_max_left t.next u.next),
    select_eq_filterMap u p (Nat.le_max_right t.next u.next)]
  simp only [h]

/-! ### Statements -/

/-- `INSERT` of a row that is made for its key.  The sequence skips `gap` values first. -/
def insert (t : Table ρ) (gap : ℕ) (make : ℕ → ρ) (hmake : ∀ k, Entity.id (make k) = k) :
    Table ρ where
  row := Function.update t.row (t.next + gap) (some (make (t.next + gap)))
  next := t.next + gap + 1
  id_of_row := by
    intro k r h
    rcases eq_or_ne k (t.next + gap) with rfl | hk
    · rw [Function.update_self, Option.some.injEq] at h
      rw [← h, hmake]
    · rw [Function.update_of_ne hk] at h
      exact t.id_of_row h
  lt_of_row := by
    intro k r h
    rcases eq_or_ne k (t.next + gap) with rfl | hk
    · omega
    · rw [Function.update_of_ne hk] at h
      have := t.lt_of_row h
      omega

/-- `UPDATE` of every row by `f`, which leaves the keys alone. -/
def modify (t : Table ρ) (f : ρ → ρ) (hf : ∀ r, Entity.id (f r) = Entity.id r) : Table ρ where
  row k := (t.row k).map f
  next := t.next
  id_of_row := by
    intro k r h
    obtain ⟨r, hr, rfl⟩ := Option.map_eq_some_iff.1 h
    rw [hf, t.id_of_row hr]
  lt_of_row := by
    intro k r h
    obtain ⟨r, hr, -⟩ := Option.map_eq_some_iff.1 h
    exact t.lt_of_row hr

/-- `DELETE` of every row that does not meet a condition. -/
def restrict (t : Table ρ) (p : ρ → Bool) : Table ρ where
  row k := (t.row k).filter p
  next := t.next
  id_of_row h := t.id_of_row (Option.filter_eq_some_iff.1 h).1
  lt_of_row h := t.lt_of_row (Option.filter_eq_some_iff.1 h).1

/-- The key that an `INSERT` takes. -/
abbrev freshId (t : Table ρ) (gap : ℕ) : ℕ := t.next + gap

section Statements

variable {gap : ℕ} {make : ℕ → ρ} {hmake : ∀ k, Entity.id (make k) = k} {f : ρ → ρ}
  {hf : ∀ r, Entity.id (f r) = Entity.id r} {p : ρ → Bool}

@[simp] lemma row_empty (k : ℕ) : (empty : Table ρ).row k = none := rfl

lemma row_insert : (t.insert gap make hmake).row k =
    if k = t.freshId gap then some (make (t.freshId gap)) else t.row k := by
  simp [insert, Function.update_apply]

@[simp] lemma row_insert_self : (t.insert gap make hmake).row (t.freshId gap) =
    some (make (t.freshId gap)) := by
  simp [row_insert]

/-- An `INSERT` leaves the rows that are there. -/
lemma row_insert_of_some (h : t.row k = some r) : (t.insert gap make hmake).row k = some r := by
  have hlt := t.lt_of_row h
  rw [row_insert, if_neg (by simp only [freshId]; omega), h]

@[simp] lemma row_modify : (t.modify f hf).row k = (t.row k).map f := rfl

@[simp] lemma row_restrict : (t.restrict p).row k = (t.row k).filter p := rfl

/-- A new row is the last one. -/
lemma toList_insert :
    (t.insert gap make hmake).toList = t.toList ++ [make (t.freshId gap)] := by
  have hrows : (List.range (t.freshId gap)).filterMap (t.insert gap make hmake).row = t.toList := by
    rw [← toList_eq_filterMap t gap]
    refine List.filterMap_congr fun k hk => ?_
    rw [row_insert, if_neg (by rw [List.mem_range] at hk; omega)]
  show (List.range (t.freshId gap + 1)).filterMap _ = _
  rw [List.range_succ, List.filterMap_append, hrows]
  simp

lemma toList_modify : (t.modify f hf).toList = t.toList.map f := by
  simp [toList, modify, List.map_filterMap]

/-- An `UPDATE` that leaves a condition alone maps the rows that meet it. -/
lemma select_modify (hp : ∀ r, p (f r) = p r) :
    (t.modify f hf).select p = (t.select p).map f := by
  simp [select, toList_modify, List.filter_map, Function.comp_def, hp]

@[simp] lemma next_insert : (t.insert gap make hmake).next = t.next + gap + 1 := rfl

@[simp] lemma next_modify : (t.modify f hf).next = t.next := rfl

@[simp] lemma next_restrict : (t.restrict p).next = t.next := rfl

end Statements

/-! ### Later tables -/

/-- A table as it is later: no key has been used again, and a row still has what `kept` reads of it. -/
structure Later {α : Type*} (kept : ρ → α) (t t' : Table ρ) : Prop where
  next : t.next ≤ t'.next
  row : ∀ k < t.next, ∀ r', t'.row k = some r' → ∃ r, t.row k = some r ∧ kept r' = kept r

section Later

variable {α : Type*} {kept : ρ → α} {t' t'' : Table ρ} {r'' : ρ}

lemma Later.refl (t : Table ρ) : Later kept t t := ⟨le_rfl, fun _ _ r' h => ⟨r', h, rfl⟩⟩

lemma Later.trans (h : Later kept t t') (h' : Later kept t' t'') : Later kept t t'' := by
  refine ⟨Nat.le_trans h.next h'.next, fun k hk r'' hr'' => ?_⟩
  obtain ⟨r', hr', hkept'⟩ := h'.row k (Nat.lt_of_lt_of_le hk h.next) r'' hr''
  obtain ⟨r, hr, hkept⟩ := h.row k hk r' hr'
  exact ⟨r, hr, hkept'.trans hkept⟩

/-- A row that is there at two moments is there in between. -/
lemma Later.row_between (h : Later kept t t') (h' : Later kept t' t'') (hr : t.row k = some r)
    (hr'' : t''.row k = some r'') : ∃ r', t'.row k = some r' := by
  obtain ⟨r', hr', -⟩ := h'.row k (Nat.lt_of_lt_of_le (t.lt_of_row hr) h.next) r'' hr''
  exact ⟨r', hr'⟩

/-- What a row keeps, it has at both moments. -/
lemma Later.kept_eq {r' : ρ} (h : Later kept t t') (hr : t.row k = some r)
    (hr' : t'.row k = some r') : kept r' = kept r := by
  obtain ⟨r₀, hr₀, hkept⟩ := h.row k (t.lt_of_row hr) r' hr'
  obtain rfl : r₀ = r := Option.some.inj (hr₀.symm.trans hr)
  exact hkept

/-- No row that was there has changed. -/
lemma Later.of_rows (hnext : t.next ≤ t'.next) (hrow : ∀ k < t.next, t'.row k = t.row k) :
    Later kept t t' :=
  ⟨hnext, fun k hk r' hr' => ⟨r', (hrow k hk).symm.trans hr', rfl⟩⟩

lemma later_restrict (t : Table ρ) {p : ρ → Bool} : Later kept t (t.restrict p) :=
  ⟨le_rfl, fun _ _ r' hr' => ⟨r', (Option.filter_eq_some_iff.1 hr').1, rfl⟩⟩

end Later

end Table

end StarterBackend.Lib

/-
Keyset pagination: pages that are cut out of an ordered list by the last row of the page
before.

`page le limit position rows` is the page that starts after a position: the first
`limit` of the rows after it, in the order `le`.  A client reads pages until one has
fewer than `limit` rows (`Traversal`); the rows may change from page to page.

* Whatever happens to the rows in between, what the client has read is strictly
  increasing (`Traversal.pairwise`), and it has read a row that was there all the time
  exactly once (`Traversal.once_each`).
* Over rows that do not change, the pages are the slices of the sorted list
  (`exists_slices`), which is what paging by offsets yields.
-/
import Mathlib.Data.List.Sort

namespace StarterBackend.Lib

variable {α : Type*}

/-- `y` comes after `x`. -/
def Comes (le : α → α → Bool) (x y : α) : Prop := le y x = false

/-- The two rows have the same place in the order. -/
def Ties (le : α → α → Bool) (x y : α) : Prop := le x y = true ∧ le y x = true

/-- An order in which any two rows can be compared. -/
structure TotalOrder (le : α → α → Bool) : Prop where
  total : ∀ x y, le x y = true ∨ le y x = true
  trans : ∀ x y z, le x y = true → le y z = true → le x z = true

/-- The rows after a position, of all rows if there is none. -/
def rowsAfter (le : α → α → Bool) (position : Option α) (rows : List α) : List α :=
  rows.filter fun y => position.all fun x => !le y x

/-- The page that starts after a position. -/
def page (le : α → α → Bool) (limit : ℕ) (position : Option α) (rows : List α) : List α :=
  ((rowsAfter le position rows).mergeSort le).take limit

/-- The pages that a client reads which goes on after the last row of each full page, with the rows
that each was cut out of. -/
inductive Traversal (le : α → α → Bool) (limit : ℕ) :
    Option α → List (List α × List α) → Prop
  | last {position rows} : (page le limit position rows).length < limit →
      Traversal le limit position [(rows, page le limit position rows)]
  | next {position rows z rest} : limit ≤ (page le limit position rows).length →
      (page le limit position rows).getLast? = some z → Traversal le limit (some z) rest →
      Traversal le limit position ((rows, page le limit position rows) :: rest)

variable {le : α → α → Bool} {limit : ℕ} {position : Option α} {rows : List α} {x y z : α}
  {pages : List (List α × List α)}

/-! ### The order -/

namespace TotalOrder

lemma le_of_comes (h : TotalOrder le) (hxy : Comes le x y) : le x y = true :=
  (h.total x y).resolve_right (by rw [hxy]; exact Bool.false_ne_true)

lemma comes_of_comes_of_le (h : TotalOrder le) (hxy : Comes le x y) (hyz : le y z = true) :
    Comes le x z := by
  by_contra hzx
  have hyx := h.trans y z x hyz (by simpa [Comes] using hzx)
  rw [hxy] at hyx
  exact Bool.false_ne_true hyx

lemma comes_trans (h : TotalOrder le) (hxy : Comes le x y) (hyz : Comes le y z) : Comes le x z :=
  h.comes_of_comes_of_le hxy (h.le_of_comes hyz)

lemma comes_of_le_of_comes (h : TotalOrder le) (hxy : le x y = true) (hyz : Comes le y z) :
    Comes le x z := by
  by_contra hzx
  have hzy := h.trans z x y (by simpa [Comes] using hzx) hxy
  rw [hyz] at hzy
  exact Bool.false_ne_true hzy

lemma pairwise_mergeSort (h : TotalOrder le) (rows : List α) :
    (rows.mergeSort le).Pairwise fun x y => le x y = true :=
  List.pairwise_mergeSort h.trans (fun x y => by simpa using h.total x y) rows

/-- Rows of which no two have the same place are strictly increasing when they are sorted. -/
lemma pairwise_comes_mergeSort (h : TotalOrder le) (hrows : rows.Pairwise fun x y => ¬ Ties le x y) :
    (rows.mergeSort le).Pairwise (Comes le) := by
  have hties : (rows.mergeSort le).Pairwise fun x y => ¬ Ties le x y :=
    ((List.mergeSort_perm rows le).pairwise_iff fun hxy hyx => hxy hyx.symm).2 hrows
  refine ((h.pairwise_mergeSort rows).and hties).imp fun {x y} hxy => ?_
  by_contra hyx
  exact hxy.2 ⟨hxy.1, by simpa [Comes] using hyx⟩

/-- Rows that are strictly increasing are determined by which rows they are. -/
lemma eq_of_perm (h : TotalOrder le) {xs ys : List α} (hperm : xs.Perm ys)
    (hxs : xs.Pairwise (Comes le)) (hys : ys.Pairwise (Comes le)) : xs = ys :=
  hperm.eq_of_pairwise (fun _ _ _ _ hxy hyx => absurd (h.le_of_comes hyx)
    (by rw [hxy]; exact Bool.false_ne_true)) hxs hys

end TotalOrder

/-! ### One page -/

lemma mem_rowsAfter : y ∈ rowsAfter le position rows ↔ y ∈ rows ∧ ∀ x ∈ position, Comes le x y := by
  cases position <;> simp [rowsAfter, Comes]

lemma mem_of_mem_page (h : y ∈ page le limit position rows) :
    y ∈ rows ∧ ∀ x ∈ position, Comes le x y :=
  mem_rowsAfter.1 (List.mem_mergeSort.1 (List.mem_of_mem_take h))

lemma pairwise_page (hle : TotalOrder le) (hrows : rows.Pairwise fun x y => ¬ Ties le x y) :
    (page le limit position rows).Pairwise (Comes le) :=
  (hle.pairwise_comes_mergeSort (hrows.sublist List.filter_sublist)).sublist
    (List.take_sublist limit _)

/-- A page that is not full has all rows after its position. -/
lemma mem_page_of_length_lt (h : (page le limit position rows).length < limit)
    (hy : y ∈ rowsAfter le position rows) : y ∈ page le limit position rows := by
  have hlen : ((rowsAfter le position rows).mergeSort le).length ≤ limit := by
    rw [page, List.length_take] at h
    omega
  rw [page, List.take_of_length_le hlen]
  exact List.mem_mergeSort.2 hy

/-- A row after the position is on the page, or comes after its last row or ties with it. -/
lemma mem_page_or_le (hle : TotalOrder le) (hz : (page le limit position rows).getLast? = some z)
    (hy : y ∈ rowsAfter le position rows) :
    y ∈ page le limit position rows ∨ le z y = true := by
  have hsorted := hle.pairwise_mergeSort (rowsAfter le position rows)
  rw [← List.take_append_drop limit ((rowsAfter le position rows).mergeSort le),
    List.pairwise_append] at hsorted
  have hmem : y ∈ (rowsAfter le position rows).mergeSort le := List.mem_mergeSort.2 hy
  rw [← List.take_append_drop limit ((rowsAfter le position rows).mergeSort le),
    List.mem_append] at hmem
  exact hmem.imp_right fun hdrop => hsorted.2.2 z (List.mem_of_getLast? hz) y hdrop

/-- The last row of a page is the greatest one. -/
lemma eq_or_comes_of_getLast? {xs : List α} (hxs : xs.Pairwise (Comes le))
    (hz : xs.getLast? = some z) (hy : y ∈ xs) : y = z ∨ Comes le y z := by
  obtain ⟨ys, rfl⟩ := List.getLast?_eq_some_iff.1 hz
  rcases List.mem_append.1 hy with hmem | hmem
  · exact .inr ((List.pairwise_append.1 hxs).2.2 y hmem z (List.mem_singleton_self z))
  · exact .inl (List.mem_singleton.1 hmem)

/-! ### Rows that change between the pages -/

namespace Traversal

/-- What is on a page was among its rows. -/
lemma subset_rows (h : Traversal le limit position pages) :
    ∀ p ∈ pages, ∀ y ∈ p.2, y ∈ p.1 := by
  induction h with
  | last _ =>
      rintro p hp y hy
      obtain rfl := List.mem_singleton.1 hp
      exact (mem_of_mem_page hy).1
  | next _ _ _ ih =>
      rintro p hp y hy
      rcases List.mem_cons.1 hp with rfl | hp
      · exact (mem_of_mem_page hy).1
      · exact ih p hp y hy

/-- There is a first page. -/
lemma ne_nil (h : Traversal le limit position pages) : pages ≠ [] := by
  cases h <;> simp

/-- What is read comes after the position that the client started at. -/
lemma comes (h : Traversal le limit position pages) (hle : TotalOrder le)
    (hy : y ∈ pages.flatMap Prod.snd) : ∀ x ∈ position, Comes le x y := by
  induction h with
  | last hlen => exact (mem_of_mem_page (by simpa using hy)).2
  | @next position rows z rest _ hz _ ih =>
      rw [List.flatMap_cons, List.mem_append] at hy
      rcases hy with hy | hy
      · exact (mem_of_mem_page hy).2
      · intro x hx
        exact hle.comes_trans ((mem_of_mem_page (List.mem_of_getLast? hz)).2 x hx) (ih hy z rfl)

/-- **What is read is strictly increasing**, if no two rows of one time have the same place. -/
theorem pairwise (h : Traversal le limit position pages) (hle : TotalOrder le)
    (hrows : ∀ p ∈ pages, p.1.Pairwise fun x y => ¬ Ties le x y) :
    (pages.flatMap Prod.snd).Pairwise (Comes le) := by
  induction h with
  | @last position rows _ =>
      simpa using pairwise_page hle (hrows _ (List.mem_singleton_self _))
  | @next position rows z rest _ hz hrest ih =>
      have hpage : (page le limit position rows).Pairwise (Comes le) :=
        pairwise_page hle (hrows _ List.mem_cons_self)
      rw [List.flatMap_cons, List.pairwise_append]
      refine ⟨hpage, ih fun p hp => hrows p (List.mem_cons_of_mem _ hp), fun x hx y hy => ?_⟩
      have hzy : Comes le z y := hrest.comes hle hy z rfl
      rcases eq_or_comes_of_getLast? hpage hz hx with rfl | hxz
      · exact hzy
      · exact hle.comes_trans hxz hzy

/-- A place after the position that is taken all the time is read. -/
lemma exists_mem (h : Traversal le limit position pages) (hle : TotalOrder le)
    (hy : ∀ x ∈ position, Comes le x y) (hstays : ∀ p ∈ pages, ∃ y' ∈ p.1, Ties le y y') :
    ∃ y' ∈ pages.flatMap Prod.snd, Ties le y y' := by
  induction h with
  | @last position rows hlen =>
      obtain ⟨y', hy', htie⟩ := hstays _ (List.mem_singleton_self _)
      refine ⟨y', ?_, htie⟩
      have hafter : y' ∈ rowsAfter le position rows := mem_rowsAfter.2
        ⟨hy', fun x hx => hle.comes_of_comes_of_le (hy x hx) htie.1⟩
      simpa using mem_page_of_length_lt hlen hafter
  | @next position rows z rest _ hz _ ih =>
      obtain ⟨y', hy', htie⟩ := hstays _ List.mem_cons_self
      have hafter : y' ∈ rowsAfter le position rows := mem_rowsAfter.2
        ⟨hy', fun x hx => hle.comes_of_comes_of_le (hy x hx) htie.1⟩
      by_cases hzy : Comes le z y
      · obtain ⟨w, hw, hwy⟩ := ih (fun x hx => (Option.mem_some_iff.1 hx) ▸ hzy)
          fun p hp => hstays p (List.mem_cons_of_mem _ hp)
        exact ⟨w, List.mem_append_right _ hw, hwy⟩
      · have hyz : le y z = true := by simpa [Comes] using hzy
        rcases mem_page_or_le hle hz hafter with hmem | hzy'
        · exact ⟨y', List.mem_append_left _ hmem, htie⟩
        · exact ⟨z, List.mem_append_left _ (List.mem_of_getLast? hz), hyz,
            hle.trans z y' y hzy' htie.2⟩

/-- **What is there all the time is read exactly once.** -/
theorem once_each (h : Traversal le limit none pages) (hle : TotalOrder le)
    (hrows : ∀ p ∈ pages, p.1.Pairwise fun x y => ¬ Ties le x y)
    (hstays : ∀ p ∈ pages, ∃ y' ∈ p.1, Ties le y y') :
    ∃ y', (pages.flatMap Prod.snd).filter (fun w => le y w && le w y) = [y'] := by
  obtain ⟨y', hmem, htie⟩ := h.exists_mem hle (by simp) hstays
  have hfilter : y' ∈ (pages.flatMap Prod.snd).filter fun w => le y w && le w y :=
    List.mem_filter.2 ⟨hmem, by simp [htie.1, htie.2]⟩
  have hpairwise := (h.pairwise hle hrows).sublist
    (List.filter_sublist (p := fun w => le y w && le w y))
  have htied : ∀ w ∈ (pages.flatMap Prod.snd).filter (fun w => le y w && le w y), Ties le y w :=
    fun w hw => by simpa [Ties] using (List.mem_filter.1 hw).2
  generalize (pages.flatMap Prod.snd).filter (fun w => le y w && le w y) = ws at *
  match ws with
  | [] => simp at hfilter
  | [w] => exact ⟨w, rfl⟩
  | v :: w :: ws =>
      have hvw : Comes le v w := (List.pairwise_cons.1 hpairwise).1 w List.mem_cons_self
      have hwv := hle.trans w y v (htied w (by simp)).2 (htied v (by simp)).1
      rw [hvw] at hwv
      exact absurd hwv Bool.false_ne_true

end Traversal

/-! ### Rows that do not change -/

/-- The rows after the last of the first `n` rows, in order, are the rest. -/
lemma mergeSort_rowsAfter (hle : TotalOrder le) (hrows : rows.Pairwise fun x y => ¬ Ties le x y)
    (n : ℕ) : (rowsAfter le ((rows.mergeSort le).take n).getLast? rows).mergeSort le =
      (rows.mergeSort le).drop n := by
  have hsorted := hle.pairwise_comes_mergeSort hrows
  have hafter : (rows.mergeSort le).drop n =
      rowsAfter le ((rows.mergeSort le).take n).getLast? (rows.mergeSort le) := by
    have hparts := hsorted
    rw [← List.take_append_drop n (rows.mergeSort le), List.pairwise_append] at hparts
    rcases hz : ((rows.mergeSort le).take n).getLast? with _ | z
    · have hnil : (rows.mergeSort le).take n = [] := List.getLast?_eq_none_iff.1 hz
      have happend := List.take_append_drop n (rows.mergeSort le)
      rw [hnil, List.nil_append] at happend
      rw [happend]
      simp [rowsAfter]
    · have hfirst : ((rows.mergeSort le).take n).filter (fun y => !le y z) = [] := by
        rw [List.filter_eq_nil_iff]
        intro y hy
        rcases eq_or_comes_of_getLast? hparts.1 hz hy with rfl | hyz
        · simpa using hle.total y y
        · simpa using hle.le_of_comes hyz
      have hrest : ((rows.mergeSort le).drop n).filter (fun y => !le y z) =
          (rows.mergeSort le).drop n := by
        rw [List.filter_eq_self]
        intro y hy
        have hzy : le y z = false := hparts.2.2 z (List.mem_of_getLast? hz) y hy
        simp [hzy]
      rw [rowsAfter]
      conv_rhs => rw [← List.take_append_drop n (rows.mergeSort le), List.filter_append]
      simp only [Option.all_some]
      rw [hfirst, hrest, List.nil_append]
  refine hle.eq_of_perm ?_ (hle.pairwise_comes_mergeSort (hrows.sublist List.filter_sublist))
    (hsorted.sublist (List.drop_sublist n _))
  rw [hafter]
  exact (List.mergeSort_perm _ le).trans ((List.mergeSort_perm rows le).symm.filter _)

/-- The page after the first `n` rows. -/
lemma page_eq_slice (hle : TotalOrder le) (hrows : rows.Pairwise fun x y => ¬ Ties le x y) (n : ℕ) :
    page le limit ((rows.mergeSort le).take n).getLast? rows =
      ((rows.mergeSort le).drop n).take limit := by
  rw [page, mergeSort_rowsAfter hle hrows]

/-- The last row of the slice that ends the first `n + limit` rows. -/
lemma getLast?_slice {xs : List α} {n : ℕ} (h : n < xs.length) (hlimit : 1 ≤ limit) :
    ((xs.drop n).take limit).getLast? = (xs.take (n + limit)).getLast? := by
  rw [List.take_add, List.getLast?_append]
  rcases hz : ((xs.drop n).take limit).getLast? with _ | z
  · rw [List.getLast?_eq_none_iff, List.take_eq_nil_iff, List.drop_eq_nil_iff] at hz
    omega
  · rfl

/-- Over rows that do not change, there is one traversal. -/
lemma Traversal.unique {pages' : List (List α × List α)} (h : Traversal le limit position pages)
    (h' : Traversal le limit position pages') (hrows : ∀ p ∈ pages, p.1 = rows)
    (hrows' : ∀ p ∈ pages', p.1 = rows) : pages = pages' := by
  induction h generalizing pages' with
  | @last _ rows₁ hlen =>
      obtain rfl : rows₁ = rows := hrows _ List.mem_cons_self
      cases h' with
      | @last _ rows₂ =>
          obtain rfl : rows₂ = rows₁ := hrows' _ List.mem_cons_self
          rfl
      | @next _ rows₂ _ _ hge =>
          obtain rfl : rows₂ = rows₁ := hrows' _ List.mem_cons_self
          omega
  | @next _ rows₁ _ _ hge hz _ ih =>
      obtain rfl : rows₁ = rows := hrows _ List.mem_cons_self
      cases h' with
      | @last _ rows₂ hlen =>
          obtain rfl : rows₂ = rows₁ := hrows' _ List.mem_cons_self
          omega
      | @next _ rows₂ _ _ hge' hz' hrest' =>
          obtain rfl : rows₂ = rows₁ := hrows' _ List.mem_cons_self
          obtain rfl := Option.some.inj (hz.symm.trans hz')
          rw [ih hrest' (fun p hp => hrows p (List.mem_cons_of_mem _ hp))
            fun p hp => hrows' p (List.mem_cons_of_mem _ hp)]

variable (rows) in
/-- **Over rows that do not change, the pages are slices of the sorted rows**, from any number of
rows that were read before. -/
theorem exists_slices (hle : TotalOrder le) (hrows : rows.Pairwise fun x y => ¬ Ties le x y)
    (hlimit : 1 ≤ limit) (n : ℕ) (hn : n ≤ rows.length) :
    ∃ slices : List (List α),
      Traversal le limit ((rows.mergeSort le).take n).getLast? (slices.map fun s => (rows, s)) ∧
      (∀ k s, slices[k]? = some s → s = ((rows.mergeSort le).drop (n + k * limit)).take limit) ∧
      slices.flatten = (rows.mergeSort le).drop n := by
  have hlength : (rows.mergeSort le).length = rows.length := List.length_mergeSort rows
  induction hm : rows.length - n using Nat.strong_induction_on generalizing n with
  | _ m ih =>
      have hpage : page le limit ((rows.mergeSort le).take n).getLast? rows =
          ((rows.mergeSort le).drop n).take limit := page_eq_slice hle hrows n
      by_cases hfull : n + limit ≤ rows.length
      · have hlast : (((rows.mergeSort le).drop n).take limit).getLast? =
            ((rows.mergeSort le).take (n + limit)).getLast? := getLast?_slice (by omega) hlimit
        obtain ⟨slices, htraversal, hslices, hflatten⟩ :=
          ih (rows.length - (n + limit)) (by omega) (n + limit) hfull rfl
        obtain ⟨z, hz⟩ : ∃ z, ((rows.mergeSort le).take (n + limit)).getLast? = some z := by
          refine Option.ne_none_iff_exists'.1 fun hnil => ?_
          rw [List.getLast?_eq_none_iff, List.take_eq_nil_iff] at hnil
          rcases hnil with hnil | hnil
          · omega
          · rw [hnil, List.length_nil] at hlength
            omega
        refine ⟨page le limit ((rows.mergeSort le).take n).getLast? rows :: slices, ?_, ?_, ?_⟩
        · refine .next ?_ ?_ (hz ▸ htraversal)
          · rw [hpage, List.length_take, List.length_drop]
            omega
          · rw [hpage, hlast, hz]
        · intro k s hs
          cases k with
          | zero =>
              obtain rfl := Option.some.inj hs
              rw [hpage, Nat.zero_mul, Nat.add_zero]
          | succ k =>
              rw [hslices k s hs, Nat.succ_mul]
              congr 2
              omega
        · rw [List.flatten_cons, hflatten, hpage, ← List.drop_drop, List.take_append_drop]
      · refine ⟨[page le limit ((rows.mergeSort le).take n).getLast? rows], ?_, ?_, ?_⟩
        · refine .last ?_
          rw [hpage, List.length_take, List.length_drop]
          omega
        · intro k s hs
          cases k with
          | zero =>
              obtain rfl := Option.some.inj hs
              rw [hpage, Nat.zero_mul, Nat.add_zero]
          | succ k => simp at hs
        · rw [List.flatten_singleton, hpage, List.take_of_length_le]
          rw [List.length_drop]
          omega

end StarterBackend.Lib

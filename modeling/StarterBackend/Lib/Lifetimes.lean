/-
Events that are counted in lifetimes.

A log of events is cut into lifetimes: an event that is marked as new begins one.  If the
lifetimes are `Spaced`, which means that each begins no earlier than a span after the one
before it began, then no interval of that span meets three of them, and what is counted
in it is at most twice what is counted in one (`length_filter_le`).
-/
import Mathlib.Algebra.Order.Group.Defs
import Mathlib.Data.List.Induction
import Mathlib.Tactic.Linarith

namespace StarterBackend.Lib

variable {ρ K : Type*}

/-- The lifetimes with one more event, the latest lifetime first. -/
def addEvent (isNew : ρ → Bool) : List (List ρ) → ρ → List (List ρ)
  | [], r => [[r]]
  | L :: Ls, r => if isNew r then [r] :: L :: Ls else (L ++ [r]) :: Ls

/-- The lifetimes of a log, the latest first, and the events of each in their order. -/
def lifetimes (isNew : ρ → Bool) (log : List ρ) : List (List ρ) := log.foldl (addEvent isNew) []

section Lifetimes

variable {isNew : ρ → Bool} {log : List ρ} {r : ρ}

@[simp] lemma lifetimes_nil : lifetimes isNew [] = [] := rfl

@[simp] lemma lifetimes_append_singleton :
    lifetimes isNew (log ++ [r]) = addEvent isNew (lifetimes isNew log) r := by
  simp [lifetimes]

lemma perm_flatten_addEvent (Ls : List (List ρ)) (r : ρ) :
    (addEvent isNew Ls r).flatten.Perm (r :: Ls.flatten) := by
  match Ls with
  | [] => simp [addEvent]
  | L :: Ls =>
      rw [addEvent]
      split_ifs
      · simp
      · rw [List.flatten_cons, List.flatten_cons, List.append_assoc]
        exact List.perm_middle

/-- No event is lost. -/
lemma perm_flatten_lifetimes (log : List ρ) : (lifetimes isNew log).flatten.Perm log := by
  induction log using List.reverseRecOn with
  | nil => simp
  | append_singleton log r ih =>
      rw [lifetimes_append_singleton]
      exact (perm_flatten_addEvent _ r).trans ((ih.cons r).trans (List.perm_append_singleton r log).symm)

end Lifetimes

/-- What is counted among the first events only. -/
lemma length_filter_le_of_index {p : ρ → Bool} {L : List ρ} {n : ℕ}
    (h : ∀ (j : ℕ) r, L[j]? = some r → p r = true → j < n) : (L.filter p).length ≤ n := by
  have hrest : (L.drop n).filter p = [] := by
    refine List.filter_eq_nil_iff.2 fun r hr hpr => ?_
    obtain ⟨j, hj⟩ := List.mem_iff_getElem?.1 hr
    rw [List.getElem?_drop] at hj
    have := h _ r hj hpr
    omega
  rw [← List.take_append_drop n L, List.filter_append, hrest, List.append_nil]
  exact (List.length_filter_le _ _).trans (List.length_take_le n L)

section Spaced

variable [AddCommGroup K] [LinearOrder K] [IsOrderedAddMonoid K] (time : ρ → K) (span : K)

/-- Every lifetime begins no earlier than a span after those before it began, and after all of their
events. -/
def Spaced (Ls : List (List ρ)) : Prop :=
  Ls.Pairwise fun later earlier => ∀ r ∈ later,
    (∀ o ∈ earlier, time o ≤ time r) ∧ ∀ o, earlier.head? = some o → time o + span ≤ time r

variable {time span} {Ls : List (List ρ)} {a : K}

/-- **No interval of the span meets three lifetimes.** -/
lemma Spaced.length_le_two (h : Spaced time span Ls)
    (hmeets : ∀ L ∈ Ls, ∃ r ∈ L, a ≤ time r ∧ time r < a + span) : Ls.length ≤ 2 := by
  match Ls with
  | [] | [_] | [_, _] => simp
  | L₁ :: L₂ :: L₃ :: Ls =>
      exfalso
      obtain ⟨r₁, hr₁, -, hlt⟩ := hmeets L₁ (by simp)
      obtain ⟨r₃, hr₃, hle, -⟩ := hmeets L₃ (by simp)
      obtain ⟨r₂, hr₂, -⟩ := hmeets L₂ (by simp)
      obtain ⟨o, hhead⟩ : ∃ o, L₂.head? = some o := by
        cases L₂ with
        | nil => simp at hr₂
        | cons o _ => exact ⟨o, rfl⟩
      have h₁₂ := (List.pairwise_cons.1 h).1 L₂ (by simp) r₁ hr₁
      have h₂₃ := (List.pairwise_cons.1 (List.pairwise_cons.1 h).2).1 L₃ (by simp) o
        (List.mem_of_mem_head? hhead)
      have hbegin := h₁₂.2 o hhead
      have hafter := h₂₃.1 r₃ hr₃
      exact absurd (hlt.trans_le (add_le_add_left (hle.trans hafter) span)) (not_lt.2 hbegin)

/-- **What is counted in an interval of the span** is at most twice what is counted in a
lifetime. -/
theorem length_filter_le (h : Spaced time span Ls) {p : ρ → Bool} {limit : ℕ}
    (hlimit : ∀ L ∈ Ls, (L.filter p).length ≤ limit)
    (hp : ∀ L ∈ Ls, ∀ r ∈ L, p r = true → a ≤ time r ∧ time r < a + span) :
    (Ls.flatten.filter p).length ≤ 2 * limit := by
  have hcounted : (Ls.filter fun L => !(L.filter p).isEmpty).length ≤ 2 := by
    refine Spaced.length_le_two (h.sublist List.filter_sublist) (a := a) fun L hL => ?_
    obtain ⟨hmem, hne⟩ := List.mem_filter.1 hL
    obtain ⟨r, hr⟩ := List.exists_mem_of_ne_nil (L.filter p) (by simpa using hne)
    obtain ⟨hrL, hpr⟩ := List.mem_filter.1 hr
    exact ⟨r, hrL, hp L hmem r hrL hpr⟩
  have hsum : ∀ Ls : List (List ρ), (∀ L ∈ Ls, (L.filter p).length ≤ limit) →
      (Ls.flatten.filter p).length ≤ (Ls.filter fun L => !(L.filter p).isEmpty).length * limit := by
    intro Ls hlimit
    induction Ls with
    | nil => simp
    | cons L Ls ih =>
        have hrest := ih fun L hL => hlimit L (List.mem_cons_of_mem _ hL)
        have hL := hlimit L List.mem_cons_self
        rw [List.flatten_cons, List.filter_append, List.length_append]
        by_cases hempty : (L.filter p).isEmpty = true
        · rw [List.filter_cons_of_neg (by simpa using hempty), List.isEmpty_iff.1 hempty]
          simpa using hrest
        · rw [List.filter_cons_of_pos (by simpa using hempty), List.length_cons, Nat.succ_mul]
          omega
  exact (hsum Ls hlimit).trans (Nat.mul_le_mul_right limit hcounted)

end Spaced

end StarterBackend.Lib

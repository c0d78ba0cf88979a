/-
Machines with labelled steps, and the properties of their runs.

A machine is a partial step function `step : σ → α → Option σ`.  Everything the
environment chooses (which process moves, the value of a clock, a fresh
identifier, the outcome of a call) is part of the action, so the step function
itself is deterministic and a run is given by the list of its actions.  An action
that is not enabled has no successor state.

The rules of this file turn a fact about one step into a fact about every run:

* `exec_invariant`: what every step preserves holds at the end of every run;
* `exec_invariant_along`: the same for the runs whose steps meet a side condition;
* `exec_relates`: what every step relates, every run relates.
-/
import Mathlib.Tactic.Common
import Mathlib.Logic.Function.Basic
import Mathlib.Data.List.Induction

namespace StarterBackend.Lib

variable {σ α : Type*}

/-- The state reached by a list of actions, if every one of them is enabled. -/
def exec (step : σ → α → Option σ) : σ → List α → Option σ
  | s, [] => some s
  | s, a :: as => (step s a).bind fun s' => exec step s' as

/-- A state is reachable when some run from an initial state ends in it. -/
def Reachable (step : σ → α → Option σ) (init : σ → Prop) (s : σ) : Prop :=
  ∃ s₀ as, init s₀ ∧ exec step s₀ as = some s

/-- Every step of the run meets the side condition `G`, a condition on the state
before the step and on the action. -/
def Along (step : σ → α → Option σ) (G : σ → α → Prop) : σ → List α → Prop
  | _, [] => True
  | s, a :: as => G s a ∧ ∀ s', step s a = some s' → Along step G s' as

/-- What is observed of the actions along a run. -/
def observed {β : Type*} (step : σ → α → Option σ) (observe : σ → α → Option β) :
    σ → List α → List β
  | _, [] => []
  | s, a :: as =>
      (observe s a).toList ++ (step s a).elim [] fun s' => observed step observe s' as

section Exec

variable {step : σ → α → Option σ} {G : σ → α → Prop} {s t u : σ} {a : α} {as bs : List α}

@[simp] lemma exec_nil : exec step s [] = some s := rfl

lemma exec_cons_eq_some :
    exec step s (a :: as) = some t ↔ ∃ s', step s a = some s' ∧ exec step s' as = some t := by
  simp [exec, Option.bind_eq_some_iff]

lemma exec_append :
    exec step s (as ++ bs) = (exec step s as).bind fun s' => exec step s' bs := by
  induction as generalizing s with
  | nil => rfl
  | cons a as ih =>
      simp only [List.cons_append, exec]
      cases step s a with
      | none => rfl
      | some s' => exact ih

lemma exec_append_eq_some :
    exec step s (as ++ bs) = some t ↔ ∃ u, exec step s as = some u ∧ exec step u bs = some t := by
  simp [exec_append, Option.bind_eq_some_iff]

/-- What is observed of a run that goes on. -/
lemma observed_append {β : Type*} {observe : σ → α → Option β} (h : exec step s as = some t) :
    observed step observe s (as ++ bs) = observed step observe s as ++ observed step observe t bs := by
  induction as generalizing s with
  | nil =>
      obtain rfl : s = t := by simpa using h
      rfl
  | cons b as ih =>
      obtain ⟨s', hs', h'⟩ := exec_cons_eq_some.1 h
      simp [observed, hs', ih h', List.append_assoc]

lemma observed_append_singleton {β : Type*} {observe : σ → α → Option β}
    (h : exec step s as = some t) :
    observed step observe s (as ++ [a]) = observed step observe s as ++ (observe t a).toList := by
  rw [observed_append h]
  rcases hstep : step t a with _ | t' <;> simp [observed, hstep]

@[simp] lemma along_nil : Along step G s [] := trivial

lemma along_cons_of_step (hG : G s a) (h : step s a = some t) (has : Along step G t as) :
    Along step G s (a :: as) := by
  refine ⟨hG, fun s' hs' => ?_⟩
  obtain rfl := Option.some.inj (h.symm.trans hs')
  exact has

lemma along_of_forall (h : ∀ s a, G s a) : Along step G s as := by
  induction as generalizing s with
  | nil => trivial
  | cons a as ih => exact ⟨h s a, fun _ _ => ih⟩

/-- A side condition on the actions alone. -/
lemma along_iff_forall {G : α → Prop} (h : exec step s as = some t) :
    Along step (fun _ a => G a) s as ↔ ∀ a ∈ as, G a := by
  induction as generalizing s with
  | nil => simp
  | cons a as ih =>
      obtain ⟨s', hs', h'⟩ := exec_cons_eq_some.1 h
      rw [List.forall_mem_cons]
      constructor
      · rintro ⟨ha, has⟩
        exact ⟨ha, (ih h').1 (has s' hs')⟩
      · rintro ⟨ha, has⟩
        refine ⟨ha, fun s'' hs'' => ?_⟩
        obtain rfl : s' = s'' := Option.some.inj (hs'.symm.trans hs'')
        exact (ih h').2 has

/-- A run meets a side condition that a step must have met when its result satisfies `P`, if all
states on its way satisfy `P`. -/
lemma along_of_states {P : σ → Prop} (hG : ∀ s a t, step s a = some t → P t → G s a)
    (h : exec step s as = some t)
    (hP : ∀ bs u, bs <+: as → exec step s bs = some u → P u) : Along step G s as := by
  induction as generalizing s with
  | nil => trivial
  | cons a as ih =>
      obtain ⟨s', hs', h'⟩ := exec_cons_eq_some.1 h
      refine ⟨hG s a s' hs' (hP [a] s' (by simp) (by simp [exec, hs'])), fun s'' hs'' => ?_⟩
      obtain rfl : s' = s'' := Option.some.inj (hs'.symm.trans hs'')
      refine ih h' fun bs u hbs hu => hP (a :: bs) u ((List.prefix_cons_inj a).2 hbs) ?_
      exact exec_cons_eq_some.2 ⟨s', hs', hu⟩

lemma Along.append (h : Along step G s (as ++ bs)) (ht : exec step s as = some t) :
    Along step G t bs := by
  induction as generalizing s with
  | nil =>
      obtain rfl : s = t := by simpa using ht
      exact h
  | cons a as ih =>
      obtain ⟨s', hs', ht'⟩ := exec_cons_eq_some.1 ht
      exact ih (h.2 s' hs') ht'

lemma Along.imp {G' : σ → α → Prop} (h : Along step G s as) (himp : ∀ s a, G s a → G' s a) :
    Along step G' s as := by
  induction as generalizing s with
  | nil => trivial
  | cons a as ih => exact ⟨himp s a h.1, fun s' hs' => ih (h.2 s' hs')⟩

lemma Along.and {G' : σ → α → Prop} (h : Along step G s as) (h' : Along step G' s as) :
    Along step (fun s a => G s a ∧ G' s a) s as := by
  induction as generalizing s with
  | nil => trivial
  | cons a as ih => exact ⟨⟨h.1, h'.1⟩, fun s' hs' => ih (h.2 s' hs') (h'.2 s' hs')⟩

lemma Along.of_isPrefix {bs : List α} (h : Along step G s as) (hbs : bs <+: as) :
    Along step G s bs := by
  induction bs generalizing s as with
  | nil => trivial
  | cons b bs ih =>
      obtain ⟨as', rfl⟩ := hbs
      exact ⟨h.1, fun s' hs' => ih (h.2 s' hs') (List.prefix_append bs as')⟩

/-- Where an invariant gives another side condition, the runs that meet the first meet both. -/
lemma Along.of_invariant {I : σ → Prop} {G' : σ → α → Prop} (h : Along step G s as)
    (hstep : ∀ s a s', I s → G s a → step s a = some s' → I s')
    (hG : ∀ s a, I s → G s a → G' s a) (hs : I s) : Along step G' s as := by
  induction as generalizing s with
  | nil => trivial
  | cons a as ih =>
      exact ⟨hG s a hs h.1, fun s' hs' => ih (h.2 s' hs') (hstep s a s' hs h.1 hs')⟩

/-- The induction on a run from its start, which keeps the actions so far. -/
theorem exec_induction {P : List α → σ → Prop} (h₀ : P [] s)
    (hstep : ∀ as t a u, exec step s as = some t → P as t → step t a = some u → P (as ++ [a]) u)
    (h : exec step s as = some t) : P as t := by
  induction as using List.reverseRecOn generalizing t with
  | nil =>
      obtain rfl : s = t := by simpa using h
      exact h₀
  | append_singleton as a ih =>
      obtain ⟨u, hu, ha⟩ := exec_append_eq_some.1 h
      obtain ⟨t', ht', heq⟩ := exec_cons_eq_some.1 ha
      obtain rfl : t' = t := by simpa using heq
      exact hstep as u a t' hu (ih hu) ht'

/-- What holds at the start of a run and not at its end fails first after one of its steps. -/
lemma exists_step_of_change {P : σ → Prop} (h : exec step s as = some t) (hs : P s) (ht : ¬ P t) :
    ∃ bs b cs u v, as = bs ++ b :: cs ∧ exec step s bs = some u ∧ step u b = some v ∧ P u ∧ ¬ P v := by
  induction as generalizing s with
  | nil =>
      obtain rfl : s = t := by simpa using h
      exact absurd hs ht
  | cons a as ih =>
      obtain ⟨s', hs', h'⟩ := exec_cons_eq_some.1 h
      by_cases hP : P s'
      · obtain ⟨bs, b, cs, u, v, rfl, hu, hrest⟩ := ih h' hP
        exact ⟨a :: bs, b, cs, u, v, rfl, exec_cons_eq_some.2 ⟨s', hs', hu⟩, hrest⟩
      · exact ⟨[], a, as, s, s', rfl, rfl, hs', hs, hP⟩

/-- The step of a run that does not meet a side condition. -/
lemma exists_of_not_along (h : exec step s as = some t) (hG : ¬ Along step G s as) :
    ∃ bs b cs u v, as = bs ++ b :: cs ∧ exec step s bs = some u ∧ step u b = some v ∧ ¬ G u b := by
  induction as generalizing s with
  | nil => exact absurd trivial hG
  | cons a as ih =>
      obtain ⟨s', hs', h'⟩ := exec_cons_eq_some.1 h
      by_cases ha : G s a
      · have hrest : ¬ Along step G s' as := fun hrest => hG ⟨ha, fun s'' hs'' => by
          rwa [← Option.some.inj (hs'.symm.trans hs'')]⟩
        obtain ⟨bs, b, cs, u, v, rfl, hu, hb⟩ := ih h' hrest
        exact ⟨a :: bs, b, cs, u, v, rfl, exec_cons_eq_some.2 ⟨s', hs', hu⟩, hb⟩
      · exact ⟨[], a, as, s, s', rfl, rfl, hs', ha⟩

/-- The executable form of `Along`, for a given run. -/
def checkAlong (step : σ → α → Option σ) (check : σ → α → Bool) : σ → List α → Bool
  | _, [] => true
  | s, a :: as => check s a && (step s a).all fun s' => checkAlong step check s' as

lemma along_of_checkAlong {check : σ → α → Bool} (hG : ∀ s a, check s a = true → G s a)
    (h : checkAlong step check s as = true) : Along step G s as := by
  induction as generalizing s with
  | nil => trivial
  | cons a as ih =>
      simp only [checkAlong, Bool.and_eq_true, Option.all_eq_true] at h
      exact ⟨hG s a h.1, fun s' hs' => ih (h.2 s' hs')⟩

/-- **Runs preserve what steps preserve.** -/
theorem exec_invariant {I : σ → Prop}
    (hstep : ∀ s a s', I s → step s a = some s' → I s') :
    ∀ {as : List α} {s t : σ}, I s → exec step s as = some t → I t := by
  intro as
  induction as with
  | nil =>
      intro s t hs h
      have hst : s = t := by simpa using h
      exact hst ▸ hs
  | cons a as ih =>
      intro s t hs h
      obtain ⟨s', hs', h'⟩ := exec_cons_eq_some.1 h
      exact ih (hstep s a s' hs hs') h'

/-- The invariant rule for the runs whose steps all meet a side condition. -/
theorem exec_invariant_along {I : σ → Prop}
    (hstep : ∀ s a s', I s → G s a → step s a = some s' → I s') :
    ∀ {as : List α} {s t : σ}, I s → Along step G s as → exec step s as = some t → I t := by
  intro as
  induction as with
  | nil =>
      intro s t hs _ h
      have hst : s = t := by simpa using h
      exact hst ▸ hs
  | cons a as ih =>
      intro s t hs hG h
      obtain ⟨s', hs', h'⟩ := exec_cons_eq_some.1 h
      exact ih (hstep s a s' hs hG.1 hs') (hG.2 s' hs') h'

/-- **A property that a step keeps exactly if it meets `G`** holds of all states of a run exactly if all
its steps meet `G`; `J` is an invariant of the machine. -/
theorem forall_states_iff_along {J P : σ → Prop}
    (hJ : ∀ s a t, J s → step s a = some t → J t)
    (hstep : ∀ s a t, J s → P s → step s a = some t → (P t ↔ G s a))
    (hs : J s) (hPs : P s) (h : exec step s as = some t) :
    (∀ bs u, bs <+: as → exec step s bs = some u → P u) ↔ Along step G s as := by
  induction as generalizing s with
  | nil =>
      refine iff_of_true (fun bs u hbs hu => ?_) trivial
      obtain rfl : bs = [] := List.prefix_nil.1 hbs
      obtain rfl : s = u := by simpa using hu
      exact hPs
  | cons a as ih =>
      obtain ⟨s', hs', h'⟩ := exec_cons_eq_some.1 h
      constructor
      · intro hall
        have hPs' : P s' := hall [a] s' (by simp) (by simp [exec, hs'])
        refine ⟨(hstep s a s' hs hPs hs').1 hPs', fun s'' hs'' => ?_⟩
        obtain rfl : s' = s'' := Option.some.inj (hs'.symm.trans hs'')
        refine (ih (hJ s a s' hs hs') hPs' h').1 fun bs u hbs hu => ?_
        exact hall (a :: bs) u ((List.prefix_cons_inj a).2 hbs)
          (exec_cons_eq_some.2 ⟨s', hs', hu⟩)
      · intro halong bs u hbs hu
        cases bs with
        | nil =>
            obtain rfl : s = u := by simpa using hu
            exact hPs
        | cons b bs =>
            obtain ⟨rfl, hbs'⟩ := List.cons_prefix_cons.1 hbs
            obtain ⟨s'', hs'', hu'⟩ := exec_cons_eq_some.1 hu
            obtain rfl : s' = s'' := Option.some.inj (hs'.symm.trans hs'')
            have hPs' : P s' := (hstep s b s' hs hPs hs').2 halong.1
            exact (ih (hJ s b s' hs hs') hPs' h').2 (halong.2 s' hs') bs u hbs' hu'

/-- What every step relates (under an invariant), every run relates. -/
theorem exec_relates {I : σ → Prop} {R : σ → σ → Prop}
    (hI : ∀ s a s', I s → step s a = some s' → I s')
    (hrefl : ∀ s, R s s) (htrans : ∀ {s t u}, R s t → R t u → R s u)
    (hstep : ∀ s a s', I s → step s a = some s' → R s s') :
    ∀ {as : List α} {s t : σ}, I s → exec step s as = some t → R s t := by
  intro as
  induction as with
  | nil =>
      intro s t _ h
      have hst : s = t := by simpa using h
      exact hst ▸ hrefl s
  | cons a as ih =>
      intro s t hs h
      obtain ⟨s', hs', h'⟩ := exec_cons_eq_some.1 h
      exact htrans (hstep s a s' hs hs') (ih (hI s a s' hs hs') h')

lemma reachable_of_exec {init : σ → Prop} (hs : Reachable step init s)
    (h : exec step s as = some t) : Reachable step init t := by
  obtain ⟨s₀, bs, h₀, hbs⟩ := hs
  exact ⟨s₀, bs ++ as, h₀, exec_append_eq_some.2 ⟨s, hbs, h⟩⟩

/-- The invariant rule for reachable states. -/
theorem Reachable.invariant {init I : σ → Prop} (hinit : ∀ s, init s → I s)
    (hstep : ∀ s a s', I s → step s a = some s' → I s') (h : Reachable step init s) : I s := by
  obtain ⟨s₀, as, h₀, has⟩ := h
  exact exec_invariant hstep (hinit s₀ h₀) has

end Exec

end StarterBackend.Lib

/-
Following the programs of a pool through phases.

A phase says where a program stands, and what it has learned on its way; `program` gives
the rest of the program for it.  An invariant of the phases and the store is proved one
command at a time: after a command of the phase `ph` there is a phase for what is left
of the program, and the invariant holds with it (`SeenAs.next`).  It then holds in every
state of a run (`SeenAs.run`), also when the run is restricted by a side condition.
-/
import StarterBackend.Lib.Program

namespace StarterBackend.Lib

universe u

variable {C : Type u} {R : C → Type u} {ε α : Type u} {σ E ι Q Φ : Type*}

namespace Prog

/-- How a program goes on after the outcome of its command. -/
def resume {c : C} (k : R c → Prog C R ε α) : Except ε (R c) → Prog C R ε α
  | .ok r => k r
  | .error x => .raise x

end Prog

namespace Pool

/-- The programs of the pool are those of these phases. -/
def SeenAs (program : Q → Φ → Prog C R ε α) (s : Pool ι Q (Prog C R ε α) σ)
    (phases : ι → Option (Q × Φ)) : Prop :=
  ∀ i, s.calls i = (phases i).map fun x => (x.1, program x.1 x.2)

/-- What has to be shown of an invariant of the phases: a new program keeps it, every command of a
program leads to a phase that keeps it, and so does the death of a process. -/
structure PhaseInvariant [DecidableEq ι] (interp : Prog.Interp C R ε σ E)
    (body : Q → Prog C R ε α) (program : Q → Φ → Prog C R ε α)
    (G : Pool ι Q (Prog C R ε α) σ → PoolAction ι Q E → Prop)
    (I : (ι → Option (Q × Φ)) → σ → Prop) : Prop where
  start : ∀ {phases w i} (q : Q), I phases w → phases i = none →
    ∃ ph, program q ph = body q ∧ I (Function.update phases i (some (q, ph))) w
  step : ∀ {s phases i e q ph c k x t}, I phases s.store → SeenAs program s phases →
    G s (.step i e) → phases i = some (q, ph) → program q ph = .call c k →
    interp c e s.store = some (x, t) →
      ∃ ph', program q ph' = Prog.resume k x ∧ I (Function.update phases i (some (q, ph'))) t
  die : ∀ {phases w} (i : ι), I phases w → I (Function.update phases i none) w

section

variable {interp : Prog.Interp C R ε σ E} {body : Q → Prog C R ε α}
  {program : Q → Φ → Prog C R ε α} {G : Pool ι Q (Prog C R ε α) σ → PoolAction ι Q E → Prop}
  {I : (ι → Option (Q × Φ)) → σ → Prop} {s t : Pool ι Q (Prog C R ε α) σ}
  {a : PoolAction ι Q E} {phases : ι → Option (Q × Φ)} {i : ι} {q : Q} {p : Prog C R ε α}

/-- The phase of a process that runs. -/
lemma SeenAs.exists_phase (h : SeenAs program s phases) (hi : s.calls i = some (q, p)) :
    ∃ ph, phases i = some (q, ph) ∧ program q ph = p := by
  obtain ⟨⟨q', ph⟩, hph, heq⟩ := Option.map_eq_some_iff.1 ((h i).symm.trans hi)
  obtain ⟨rfl, rfl⟩ := Prod.mk.inj heq
  exact ⟨ph, hph, rfl⟩

lemma SeenAs.calls_of_phase (h : SeenAs program s phases) {ph : Φ}
    (hi : phases i = some (q, ph)) : s.calls i = some (q, program q ph) := by
  rw [h i, hi]
  rfl

variable [DecidableEq ι]

lemma SeenAs.update (h : SeenAs program s phases) {w : σ} {ph : Φ} (hp : program q ph = p) :
    SeenAs program ⟨w, Function.update s.calls i (some (q, p))⟩
      (Function.update phases i (some (q, ph))) := by
  intro j
  rcases eq_or_ne j i with rfl | hj
  · simp [hp]
  · simp [Function.update_of_ne hj, h j]

lemma SeenAs.die (h : SeenAs program s phases) :
    SeenAs program ⟨s.store, Function.update s.calls i none⟩ (Function.update phases i none) := by
  intro j
  rcases eq_or_ne j i with rfl | hj
  · simp
  · simp [Function.update_of_ne hj, h j]

/-- **One step of the pool.** -/
theorem SeenAs.next (hI : PhaseInvariant interp body program G I) (h : SeenAs program s phases)
    (hinv : I phases s.store) (hG : G s a) (hstep : next interp body s a = some t) :
    ∃ phases', SeenAs program t phases' ∧ I phases' t.store := by
  rcases next_cases hstep with ⟨i, q, rfl, hi, rfl⟩ |
    ⟨i, e, q, c, k, p', w, rfl, hi, rfl, hcmd⟩ | ⟨i, q, p, rfl, hi, rfl⟩
  · have hnone : phases i = none := Option.map_eq_none_iff.1 ((h i).symm.trans hi)
    obtain ⟨ph, hp, hinv'⟩ := hI.start q hinv hnone
    exact ⟨_, h.update hp, hinv'⟩
  · obtain ⟨ph, hph, hp⟩ := h.exists_phase hi
    obtain ⟨x, hexec, hp'⟩ : ∃ x, interp c e s.store = some (x, w) ∧ p' = Prog.resume k x := by
      rcases hcmd with ⟨x, hexec, rfl⟩ | ⟨r, hexec, rfl⟩
      · exact ⟨_, hexec, rfl⟩
      · exact ⟨_, hexec, rfl⟩
    obtain ⟨ph', hph', hinv'⟩ := hI.step hinv h hG hph hp hexec
    exact ⟨_, h.update (hph'.trans hp'.symm), hinv'⟩
  · exact ⟨_, h.die, hI.die i hinv⟩

/-- **A run.** -/
theorem SeenAs.run (hI : PhaseInvariant interp body program G I) {as : List (PoolAction ι Q E)}
    (h : SeenAs program s phases) (hinv : I phases s.store)
    (hG : Along (Pool.next interp body) G s as)
    (hrun : exec (Pool.next interp body) s as = some t) :
    ∃ phases', SeenAs program t phases' ∧ I phases' t.store :=
  exec_invariant_along (I := fun t => ∃ phases, SeenAs program t phases ∧ I phases t.store)
    (fun _ _ _ ⟨_, hseen, hinv⟩ hG hstep => hseen.next hI hinv hG hstep) ⟨phases, h, hinv⟩ hG hrun

omit [DecidableEq ι] in
lemma seenAs_initial (s₀ : σ) : SeenAs program (Pool.initial s₀ : Pool ι Q (Prog C R ε α) σ)
    fun _ => none := fun _ => rfl

/-- What holds of all phases after one of them has changed, if it held before. -/
lemma forall_phases_update {P : ι → Q → Φ → Prop} {ph : Φ}
    (h : ∀ j q ph, phases j = some (q, ph) → P j q ph) (hnew : P i q ph) :
    ∀ j q' ph', Function.update phases i (some (q, ph)) j = some (q', ph') → P j q' ph' := by
  intro j q' ph' hj
  rcases eq_or_ne j i with rfl | hne
  · rw [Function.update_self, Option.some.injEq, Prod.mk.injEq] at hj
    obtain ⟨rfl, rfl⟩ := hj
    exact hnew
  · rw [Function.update_of_ne hne] at hj
    exact h j q' ph' hj

/-- A process that runs after the death of another ran before it. -/
lemma phases_of_die {j : ι} {ph : Φ}
    (hj : Function.update phases i none j = some (q, ph)) : phases j = some (q, ph) := by
  rcases eq_or_ne j i with rfl | hne
  · simp at hj
  · rwa [Function.update_of_ne hne] at hj

end

end Pool

end StarterBackend.Lib

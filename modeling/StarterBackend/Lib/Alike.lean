/-
Two runs of one program.

A program *runs alike* on two stores (`Prog.Alike`) when its runs on stores that are
related end in the same way and leave the stores related.  This is proved along the
program: the commands give equal replies on related stores, and the rules below put
that together.
-/
import StarterBackend.Lib.Program

namespace StarterBackend.Lib.Prog

universe u

variable {C : Type u} {R : C → Type u} {ε α β : Type u} {σ E : Type*}

/-- From related stores, the program ends in the same way, in related stores. -/
def Alike (interp : Interp C R ε σ E) (e : E) (S : σ → σ → Prop) (p : Prog C R ε α) : Prop :=
  ∀ s s', S s s' → ∃ x t t',
    p.run interp e s = some (x, t) ∧ p.run interp e s' = some (x, t') ∧ S t t'

variable {interp : Interp C R ε σ E} {e : E} {S : σ → σ → Prop} {p : Prog C R ε α}

lemma alike_ret (a : α) : (ret a : Prog C R ε α).Alike interp e S := fun s s' h =>
  ⟨.ok a, s, s', rfl, rfl, h⟩

lemma alike_raise (x : ε) : (raise x : Prog C R ε α).Alike interp e S := fun s s' h =>
  ⟨.error x, s, s', rfl, rfl, h⟩

lemma alike_getOrRaise (x : ε) (a : Option α) : (getOrRaise x a : Prog C R ε α).Alike interp e S := by
  cases a with
  | none => exact alike_raise x
  | some a => exact alike_ret a

/-- The rule for one command. -/
lemma alike_call {c : C} {k : R c → Prog C R ε α}
    (hc : ∀ s s', S s s' → ∃ r t t', interp c e s = some (.ok r, t) ∧
      interp c e s' = some (.ok r, t') ∧ S t t')
    (hk : ∀ r, (k r).Alike interp e S) : (call c k).Alike interp e S := by
  intro s s' h
  obtain ⟨r, t, t', ht, ht', hS⟩ := hc s s' h
  obtain ⟨x, u, u', hu, hu', hS'⟩ := hk r t t' hS
  exact ⟨x, u, u', by rwa [run_call ht], by rwa [run_call ht'], hS'⟩

/-- **Sequencing.** -/
theorem Alike.bind {f : α → Prog C R ε β} (hp : p.Alike interp e S)
    (hf : ∀ a, (f a).Alike interp e S) : (p.bind f).Alike interp e S := by
  intro s s' h
  obtain ⟨x, t, t', ht, ht', hS⟩ := hp s s' h
  cases x with
  | error x => exact ⟨.error x, t, t', run_bind_raise ht, run_bind_raise ht', hS⟩
  | ok a =>
      obtain ⟨y, u, u', hu, hu', hS'⟩ := hf a t t' hS
      exact ⟨y, u, u', by rwa [run_bind ht], by rwa [run_bind ht'], hS'⟩

end StarterBackend.Lib.Prog

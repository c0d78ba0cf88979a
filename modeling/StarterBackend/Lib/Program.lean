/-
Programs that call on an environment, and pools of them running concurrently.

`Prog C R ε α` is a program that issues commands of the signature `(C, R)`: a
command `c : C` is answered by a reply of type `R c`.  The program ends with a
result or with an exception.  The same program is given two meanings:

* `Prog.run` executes it at once against a store, as one atomic step;
* `Pool.step` executes one command of one of many running programs, so that the
  commands of different programs interleave in any order and a program can be
  stopped for good between any two of its commands.

`Prog.expand` replaces every command by a program over a finer signature, which
turns a program over atomic operations into the program over their commands.
-/
import StarterBackend.Lib.Machine

namespace StarterBackend.Lib

universe u v

/-- A program over commands `C` with replies `R`, exceptions `ε` and results `α`. -/
inductive Prog (C : Type u) (R : C → Type u) (ε : Type u) (α : Type v) where
  | ret (a : α)
  | raise (e : ε)
  | call (c : C) (k : R c → Prog C R ε α)

namespace Prog

variable {C : Type u} {R : C → Type u} {ε : Type u} {α β γ : Type v}

/-- Sequencing: an exception ends the whole program. -/
def bind : Prog C R ε α → (α → Prog C R ε β) → Prog C R ε β
  | .ret a, f => f a
  | .raise e, _ => .raise e
  | .call c k, f => .call c fun r => (k r).bind f

instance : Monad (Prog C R ε) where
  pure := .ret
  bind := bind

/-- The program that issues one command and returns its reply. -/
def cmd (c : C) : Prog C R ε (R c) := .call c .ret

/-- `P` holds of every command that the program can come to, with what follows it. -/
def Every (P : (c : C) → (R c → Prog C R ε α) → Prop) : Prog C R ε α → Prop
  | .ret _ => True
  | .raise _ => True
  | .call c k => P c k ∧ ∀ r, Every P (k r)

/-- `P` holds of every command that the program can come to, when every reply meets `answers`. -/
def EveryIf (answers : (c : C) → R c → Prop) (P : C → Prop) : Prog C R ε α → Prop
  | .ret _ => True
  | .raise _ => True
  | .call c k => P c ∧ ∀ r, answers c r → EveryIf answers P (k r)

/-- `post` holds of every way in which the program can end, when every reply meets `answers`. -/
def EndsIf (answers : (c : C) → R c → Prop) (post : Except ε α → Prop) : Prog C R ε α → Prop
  | .ret a => post (.ok a)
  | .raise e => post (.error e)
  | .call c k => ∀ r, answers c r → EndsIf answers post (k r)

/-- The command that the program issues next. -/
def command : Prog C R ε α → Option C
  | .call c _ => some c
  | _ => none

/-- The value of an optional result, or the exception `e` when there is none. -/
def getOrRaise (e : ε) : Option α → Prog C R ε α
  | some a => .ret a
  | none => .raise e

/-- The program that ends in a given way. -/
def ofExcept : Except ε α → Prog C R ε α
  | .ok a => .ret a
  | .error e => .raise e

/-- The program, and after its result or exception a cleanup, whose own exception comes first. -/
def tryFinally : Prog C R ε α → Prog C R ε PUnit.{v + 1} → Prog C R ε α
  | .ret a, cleanup => cleanup.bind fun _ => .ret a
  | .raise e, cleanup => cleanup.bind fun _ => .raise e
  | .call c k, cleanup => .call c fun r => (k r).tryFinally cleanup

/-- The program, with the way in which it ended as its result. -/
def attempt : Prog C R ε α → Prog C R ε (Except ε α)
  | .ret a => .ret (.ok a)
  | .raise e => .ret (.error e)
  | .call c k => .call c fun r => (k r).attempt

@[simp] lemma pure_def (a : α) : (pure a : Prog C R ε α) = .ret a := rfl

@[simp] lemma bind_def (p : Prog C R ε α) (f : α → Prog C R ε β) : (p >>= f) = p.bind f := rfl

@[simp] lemma ret_bind (a : α) (f : α → Prog C R ε β) : (ret a : Prog C R ε α).bind f = f a := rfl

@[simp] lemma raise_bind (e : ε) (f : α → Prog C R ε β) :
    (raise e : Prog C R ε α).bind f = .raise e := rfl

@[simp] lemma call_bind (c : C) (k : R c → Prog C R ε α) (f : α → Prog C R ε β) :
    (call c k).bind f = .call c fun r => (k r).bind f := rfl

lemma bind_assoc (p : Prog C R ε α) (f : α → Prog C R ε β) (g : β → Prog C R ε γ) :
    (p.bind f).bind g = p.bind fun a => (f a).bind g := by
  induction p with
  | ret a => rfl
  | raise e => rfl
  | call c k ih =>
      simp only [call_bind, call.injEq, heq_eq_eq, true_and]
      funext r
      exact ih r

lemma bind_ret (p : Prog C R ε α) : p.bind .ret = p := by
  induction p with
  | ret a => rfl
  | raise e => rfl
  | call c k ih =>
      simp only [call_bind, call.injEq, heq_eq_eq, true_and]
      exact funext ih

lemma Every.bind {P : (c : C) → (R c → Prog C R ε β) → Prop} {p : Prog C R ε α}
    {f : α → Prog C R ε β} (hp : p.Every fun c k => P c fun r => (k r).bind f)
    (hf : ∀ a, (f a).Every P) : (p.bind f).Every P := by
  induction p with
  | ret a => exact hf a
  | raise e => trivial
  | call c k ih => exact ⟨hp.1, fun r => ih r (hp.2 r)⟩

lemma EveryIf.bind {answers : (c : C) → R c → Prop} {P : C → Prop} {p : Prog C R ε α}
    {f : α → Prog C R ε β} (hp : p.EveryIf answers P) (hf : ∀ a, (f a).EveryIf answers P) :
    (p.bind f).EveryIf answers P := by
  induction p with
  | ret a => exact hf a
  | raise e => trivial
  | call c k ih => exact ⟨hp.1, fun r hr => ih r (hp.2 r hr)⟩

lemma everyIf_getOrRaise {answers : (c : C) → R c → Prop} {P : C → Prop} {e : ε} {x : Option α} :
    (getOrRaise e x : Prog C R ε α).EveryIf answers P := by
  cases x <;> trivial

/-- The ends of a sequence are those of its second part, or exceptions of the first. -/
lemma EndsIf.bind {answers : (c : C) → R c → Prop} {mid : α → Prop} {post : Except ε β → Prop}
    {p : Prog C R ε α} {f : α → Prog C R ε β}
    (hp : p.EndsIf answers fun x => (∀ a, x = .ok a → mid a) ∧ ∀ e, x = .error e → post (.error e))
    (hf : ∀ a, mid a → (f a).EndsIf answers post) : (p.bind f).EndsIf answers post := by
  induction p with
  | ret a => exact hf a (hp.1 a rfl)
  | raise e => exact hp.2 e rfl
  | call c k ih => exact fun r hr => ih r (hp r hr)

lemma every_getOrRaise_bind {P : (c : C) → (R c → Prog C R ε β) → Prop} {e : ε} {x : Option α}
    {f : α → Prog C R ε β} (h : ∀ a ∈ x, (f a).Every P) : ((getOrRaise e x).bind f).Every P := by
  cases x with
  | none => trivial
  | some a => exact h a rfl

lemma Every.tryFinally {P : C → Prop} {p : Prog C R ε α} {cleanup : Prog C R ε PUnit.{v + 1}}
    (hp : p.Every fun c _ => P c) (hcleanup : cleanup.Every fun c _ => P c) :
    (p.tryFinally cleanup).Every fun c _ => P c := by
  induction p with
  | ret a => exact hcleanup.bind fun _ => trivial
  | raise e => exact hcleanup.bind fun _ => trivial
  | call c k ih => exact ⟨hp.1, fun r => ih r (hp.2 r)⟩

lemma every_getOrRaise {P : C → Prop} {e : ε} {x : Option α} :
    (getOrRaise e x : Prog C R ε α).Every fun c _ => P c := by
  cases x <;> trivial

lemma Every.imp {P P' : (c : C) → (R c → Prog C R ε α) → Prop} {p : Prog C R ε α}
    (hp : p.Every P) (h : ∀ c k, P c k → P' c k) : p.Every P' := by
  induction p with
  | ret a => trivial
  | raise e => trivial
  | call c k ih => exact ⟨h c k hp.1, fun r => ih r (hp.2 r)⟩

end Prog

/-! ### Atomic execution -/

namespace Prog

variable {C : Type u} {R : C → Type u} {ε : Type u} {α β : Type u} {σ E : Type*}

/-- An interpretation of the commands: from a store and an input of the environment,
the reply (or an exception) and the next store.  `none` means that the command is
not enabled with this input. -/
abbrev Interp (C : Type u) (R : C → Type u) (ε : Type u) (σ E : Type*) :=
  (c : C) → E → σ → Option (Except ε (R c) × σ)

/-- Execute the whole program, every command with the same input. -/
def run (interp : Interp C R ε σ E) (e : E) : Prog C R ε α → σ → Option (Except ε α × σ)
  | .ret a, s => some (.ok a, s)
  | .raise x, s => some (.error x, s)
  | .call c k, s =>
      match interp c e s with
      | none => none
      | some (.error x, s') => some (.error x, s')
      | some (.ok r, s') => (k r).run interp e s'

/-- Execute the first command of a program. -/
def step (interp : Interp C R ε σ E) (e : E) :
    Prog C R ε α → σ → Option (Prog C R ε α × σ)
  | .call c k, s =>
      match interp c e s with
      | none => none
      | some (.error x, s') => some (.raise x, s')
      | some (.ok r, s') => some (k r, s')
  | _, _ => none

/-- The interpretation with a clock, which does not go back: every command is executed at a time
that the input names. -/
def Interp.timed {T : Type*} [LE T] [DecidableLE T] (interp : Interp C R ε σ E) (time : E → T) :
    Interp C R ε (σ × T) E := fun c e s =>
  if s.2 ≤ time e then (interp c e s.1).map fun x => (x.1, x.2, time e) else none

lemma Interp.timed_eq_some {T : Type*} [LE T] [DecidableLE T] {interp : Interp C R ε σ E}
    {time : E → T} {c : C} {e : E} {s t : σ × T} {x : Except ε (R c)}
    (h : interp.timed time c e s = some (x, t)) :
    s.2 ≤ time e ∧ interp c e s.1 = some (x, t.1) ∧ t.2 = time e := by
  unfold timed at h
  split_ifs at h with hle
  obtain ⟨⟨y, u⟩, hexec, heq⟩ := Option.map_eq_some_iff.1 h
  obtain ⟨rfl, rfl⟩ := Prod.mk.inj heq
  exact ⟨hle, hexec, rfl⟩

/-- The program whose commands are replaced by programs over another signature. -/
def expand {C' : Type u} {R' : C' → Type u} (f : (c : C) → Prog C' R' ε (R c)) :
    Prog C R ε α → Prog C' R' ε α
  | .ret a => .ret a
  | .raise e => .raise e
  | .call c k => (f c).bind fun r => (k r).expand f

/-- The interpretation of a command as the atomic execution of a program. -/
def atomically {C' : Type u} {R' : C' → Type u} (f : (c : C) → Prog C' R' ε (R c))
    (interp : Interp C' R' ε σ E) : Interp C R ε σ E :=
  fun c e s => (f c).run interp e s

variable {interp : Interp C R ε σ E} {e : E} {s s' t : σ}

@[simp] lemma run_ret (a : α) : (ret a : Prog C R ε α).run interp e s = some (.ok a, s) := rfl

@[simp] lemma run_raise (x : ε) :
    (raise x : Prog C R ε α).run interp e s = some (.error x, s) := rfl

lemma run_call {c : C} {k : R c → Prog C R ε α} {r : R c} (h : interp c e s = some (.ok r, s')) :
    (call c k).run interp e s = (k r).run interp e s' := by
  simp [run, h]

lemma run_bind {p : Prog C R ε α} {f : α → Prog C R ε β} {a : α}
    (h : p.run interp e s = some (.ok a, t)) :
    (p.bind f).run interp e s = (f a).run interp e t := by
  induction p generalizing s with
  | ret b =>
      obtain ⟨rfl, rfl⟩ : b = a ∧ s = t := by simpa using h
      rfl
  | raise x => simp at h
  | call c k ih =>
      simp only [run, call_bind] at h ⊢
      rcases hi : interp c e s with _ | ⟨r | r, s'⟩
      · simp [hi] at h
      · simp [hi] at h
      · simp only [hi] at h
        exact ih r h

/-- A sequence returns if both its parts do. -/
lemma run_bind_eq_some {p : Prog C R ε α} {f : α → Prog C R ε β} {b : β} :
    (p.bind f).run interp e s = some (.ok b, t) ↔
      ∃ a s', p.run interp e s = some (.ok a, s') ∧ (f a).run interp e s' = some (.ok b, t) := by
  induction p generalizing s with
  | ret a =>
      constructor
      · exact fun h => ⟨a, s, rfl, h⟩
      · rintro ⟨a', s', ha, h⟩
        obtain ⟨rfl, rfl⟩ : a = a' ∧ s = s' := by simpa using ha
        exact h
  | raise x => simp
  | call c k ih =>
      rcases hi : interp c e s with _ | ⟨x | r, s''⟩
      · simp [run, hi]
      · simp [run, hi]
      · simp only [call_bind, run, hi]
        exact ih r

/-- What all commands of a program preserve, the program preserves. -/
lemma run_invariant {I : σ → Prop} {p : Prog C R ε α} {x : Except ε α}
    (hp : p.Every fun c _ => ∀ s y t, I s → interp c e s = some (y, t) → I t)
    (h : p.run interp e s = some (x, t)) (hs : I s) : I t := by
  induction p generalizing s with
  | ret a =>
      obtain ⟨-, rfl⟩ : .ok a = x ∧ s = t := by simpa using h
      exact hs
  | raise y =>
      obtain ⟨-, rfl⟩ : .error y = x ∧ s = t := by simpa using h
      exact hs
  | call c k ih =>
      simp only [run] at h
      rcases hi : interp c e s with _ | ⟨y | r, s'⟩
      · simp [hi] at h
      · obtain ⟨-, rfl⟩ : .error y = x ∧ s' = t := by simpa [hi] using h
        exact hp.1 s _ _ hs hi
      · simp only [hi] at h
        exact ih r (hp.2 r) h (hp.1 s _ _ hs hi)

/-- What the commands of a program preserve when they and the replies before them are as they should
be, the program preserves. -/
lemma run_invariant_of_everyIf {I : σ → Prop} {answers : (c : C) → R c → Prop} {P : C → Prop}
    (hI : ∀ c s x t, P c → I s → interp c e s = some (x, t) → I t)
    (hanswers : ∀ c s r t, I s → interp c e s = some (.ok r, t) → answers c r)
    {p : Prog C R ε α} {x : Except ε α} (hp : p.EveryIf answers P)
    (h : p.run interp e s = some (x, t)) (hs : I s) : I t := by
  induction p generalizing s with
  | ret a =>
      obtain ⟨-, rfl⟩ : .ok a = x ∧ s = t := by simpa using h
      exact hs
  | raise y =>
      obtain ⟨-, rfl⟩ : .error y = x ∧ s = t := by simpa using h
      exact hs
  | call c k ih =>
      simp only [run] at h
      rcases hi : interp c e s with _ | ⟨y | r, s'⟩
      · simp [hi] at h
      · obtain ⟨-, rfl⟩ : .error y = x ∧ s' = t := by simpa [hi] using h
        exact hI c s _ _ hp.1 hs hi
      · simp only [hi] at h
        exact ih r (hp.2 r (hanswers c s r s' hs hi)) h (hI c s _ _ hp.1 hs hi)

lemma run_bind_raise {p : Prog C R ε α} {f : α → Prog C R ε β} {x : ε}
    (h : p.run interp e s = some (.error x, t)) :
    (p.bind f).run interp e s = some (.error x, t) := by
  induction p generalizing s with
  | ret b => simp at h
  | raise y => simpa using h
  | call c k ih =>
      simp only [run, call_bind] at h ⊢
      rcases hi : interp c e s with _ | ⟨r | r, s'⟩
      · simp [hi] at h
      · simpa [hi] using h
      · simp only [hi] at h
        exact ih r h

/-- Interpretations that agree on the commands of a program run it in the same way. -/
lemma run_congr {interp' : Interp C R ε σ E} {p : Prog C R ε α}
    (h : p.Every fun c _ => ∀ s, interp c e s = interp' c e s) :
    p.run interp e s = p.run interp' e s := by
  induction p generalizing s with
  | ret a => rfl
  | raise x => rfl
  | call c k ih =>
      rw [run, run, h.1 s]
      rcases interp' c e s with _ | ⟨x | r, t⟩
      · rfl
      · rfl
      · exact ih r (h.2 r)

/-- A program that is caught, when no command raises an exception. -/
lemma run_attempt {p : Prog C R ε α} {x : Except ε α}
    (hinterp : ∀ c s y t, interp c e s = some (y, t) → ∃ r, y = .ok r)
    (h : p.run interp e s = some (x, t)) : p.attempt.run interp e s = some (.ok x, t) := by
  induction p generalizing s with
  | ret a =>
      obtain ⟨rfl, rfl⟩ : .ok a = x ∧ s = t := by simpa using h
      rfl
  | raise y =>
      obtain ⟨rfl, rfl⟩ : .error y = x ∧ s = t := by simpa using h
      rfl
  | call c k ih =>
      rcases hi : interp c e s with _ | ⟨y, s'⟩
      · simp [run, hi] at h
      · obtain ⟨r, rfl⟩ := hinterp c s y s' hi
        rw [run_call hi] at h
        rw [attempt, run_call hi]
        exact ih r h

/-- A program that ends with `x`, and then its cleanup, when no command raises an exception. -/
lemma run_tryFinally {p : Prog C R ε α} {cleanup : Prog C R ε PUnit.{u + 1}} {x : Except ε α}
    (hinterp : ∀ c s y t, interp c e s = some (y, t) → ∃ r, y = .ok r)
    (h : p.run interp e s = some (x, t)) :
    (p.tryFinally cleanup).run interp e s =
      (cleanup.bind fun _ => ofExcept x).run interp e t := by
  induction p generalizing s with
  | ret a =>
      obtain ⟨rfl, rfl⟩ : .ok a = x ∧ s = t := by simpa using h
      rfl
  | raise y =>
      obtain ⟨rfl, rfl⟩ : .error y = x ∧ s = t := by simpa using h
      rfl
  | call c k ih =>
      rcases hi : interp c e s with _ | ⟨y, s'⟩
      · simp [run, hi] at h
      · obtain ⟨r, rfl⟩ := hinterp c s y s' hi
        rw [run_call hi] at h
        rw [tryFinally, run_call hi]
        exact ih r h

lemma run_ofExcept (x : Except ε α) :
    (ofExcept x : Prog C R ε α).run interp e s = some (x, s) := by
  cases x <;> rfl

/-- A sequence after a value that may be an exception. -/
lemma run_ofExcept_bind_eq_some {x : Except ε α} {f : α → Prog C R ε β} {b : β} :
    ((ofExcept x).bind f).run interp e s = some (.ok b, t) ↔
      ∃ a, x = .ok a ∧ (f a).run interp e s = some (.ok b, t) := by
  cases x with
  | error y => simp [ofExcept]
  | ok a => simp [ofExcept]

/-- What the first command of a program can do. -/
lemma step_eq_some {p p' : Prog C R ε α} (h : p.step interp e s = some (p', s')) :
    ∃ c k, p = .call c k ∧
      ((∃ x, interp c e s = some (.error x, s') ∧ p' = .raise x) ∨
        ∃ r, interp c e s = some (.ok r, s') ∧ p' = k r) := by
  cases p with
  | ret a => simp [step] at h
  | raise x => simp [step] at h
  | call c k =>
      refine ⟨c, k, rfl, ?_⟩
      rcases hi : interp c e s with _ | ⟨x | r, s''⟩
      · simp [step, hi] at h
      · obtain ⟨rfl, rfl⟩ : .raise x = p' ∧ s'' = s' := by simpa [step, hi] using h
        exact .inl ⟨x, rfl, rfl⟩
      · obtain ⟨rfl, rfl⟩ : k r = p' ∧ s'' = s' := by simpa [step, hi] using h
        exact .inr ⟨r, rfl, rfl⟩

end Prog

/-! ### Pools of running programs -/

/-- A store and the programs that run on it.  The program of a process that has not
been started, or that has died, is `none`; the program of one that has ended is its
result.  Every process keeps the request that it was started with. -/
structure Pool (ι Q P σ : Type*) where
  store : σ
  calls : ι → Option (Q × P)

/-- The steps of a pool: a process starts on a request, executes its next command
with an input of the environment, or dies. -/
inductive PoolAction (ι Q E : Type*) where
  | start (i : ι) (q : Q)
  | step (i : ι) (e : E)
  | die (i : ι)

/-- The process that an action is of. -/
def PoolAction.actor {ι Q E : Type*} : PoolAction ι Q E → ι
  | .start i _ => i
  | .step i _ => i
  | .die i => i

namespace Pool

variable {C : Type u} {R : C → Type u} {ε : Type u} {α γ : Type u} {σ E ι Q : Type*}
  [DecidableEq ι]

/-- One step of a pool whose requests are served by the programs `body`. -/
def next (interp : Prog.Interp C R ε σ E) (body : Q → Prog C R ε α)
    (s : Pool ι Q (Prog C R ε α) σ) : PoolAction ι Q E → Option (Pool ι Q (Prog C R ε α) σ)
  | .start i q =>
      match s.calls i with
      | none => some { s with calls := Function.update s.calls i (some (q, body q)) }
      | some _ => none
  | .step i e =>
      match s.calls i with
      | none => none
      | some (q, p) =>
          (p.step interp e s.store).map fun r =>
            { store := r.2, calls := Function.update s.calls i (some (q, r.1)) }
  | .die i =>
      match s.calls i with
      | none => none
      | some _ => some { s with calls := Function.update s.calls i none }

/-- No process has started yet. -/
def initial (s₀ : σ) : Pool ι Q (Prog C R ε α) σ := ⟨s₀, fun _ => none⟩

variable {interp : Prog.Interp C R ε σ E} {body : Q → Prog C R ε α}
  {s s' t : Pool ι Q (Prog C R ε α) σ} {i : ι} {q : Q} {e : E}

/-- **Inversion of a pool's step**: the process that moves, and what it does. -/
theorem next_cases {a : PoolAction ι Q E} (h : next interp body s a = some s') :
    (∃ i q, a = .start i q ∧ s.calls i = none ∧
      s' = { s with calls := Function.update s.calls i (some (q, body q)) }) ∨
    (∃ i e q c k p' t, a = .step i e ∧ s.calls i = some (q, .call c k) ∧
      s' = { store := t, calls := Function.update s.calls i (some (q, p')) } ∧
      ((∃ x, interp c e s.store = some (.error x, t) ∧ p' = .raise x) ∨
        ∃ r, interp c e s.store = some (.ok r, t) ∧ p' = k r)) ∨
    (∃ i q p, a = .die i ∧ s.calls i = some (q, p) ∧
      s' = { s with calls := Function.update s.calls i none }) := by
  cases a with
  | start i q =>
      rcases hc : s.calls i with _ | c
      · exact .inl ⟨i, q, rfl, hc, by simpa [next, hc] using h.symm⟩
      · simp [next, hc] at h
  | step i e =>
      rcases hc : s.calls i with _ | ⟨q, p⟩
      · simp [next, hc] at h
      · rcases hp : p.step interp e s.store with _ | ⟨p', t⟩
        · simp [next, hc, hp] at h
        · obtain ⟨c, k, rfl, hk⟩ := Prog.step_eq_some hp
          exact .inr (.inl ⟨i, e, q, c, k, p', t, rfl, hc, by simpa [next, hc, hp] using h.symm, hk⟩)
  | die i =>
      rcases hc : s.calls i with _ | ⟨q, p⟩
      · simp [next, hc] at h
      · exact .inr (.inr ⟨i, q, p, rfl, hc, by simpa [next, hc] using h.symm⟩)

/-- A process whose next command is enabled can issue it. -/
lemma next_step {c : C} {k : R c → Prog C R ε α} {r : R c} {t : σ}
    (hi : s.calls i = some (q, .call c k)) (hc : interp c e s.store = some (.ok r, t)) :
    ∃ s', next interp body s (.step i e) = some s' ∧ s'.store = t ∧
      s'.calls i = some (q, k r) := by
  refine ⟨⟨t, Function.update s.calls i (some (q, k r))⟩, ?_, rfl, Function.update_self ..⟩
  simp [next, hi, Prog.step, hc]

/-- **What a process does that issues its next command.** -/
lemma next_step_cases {c : C} {k : R c → Prog C R ε α} (hi : s.calls i = some (q, .call c k))
    (h : next interp body s (.step i e) = some s') :
    (∃ x, interp c e s.store = some (.error x, s'.store) ∧
      s'.calls = Function.update s.calls i (some (q, .raise x))) ∨
    ∃ r, interp c e s.store = some (.ok r, s'.store) ∧
      s'.calls = Function.update s.calls i (some (q, k r)) := by
  rcases hc : interp c e s.store with _ | ⟨x | r, t⟩ <;>
    simp only [next, hi, Prog.step, hc, Option.map_none, Option.map_some, reduceCtorEq,
      Option.some.injEq] at h
  · exact .inl ⟨x, by rw [← h], by rw [← h]⟩
  · exact .inr ⟨r, by rw [← h], by rw [← h]⟩

omit [DecidableEq ι] in
@[simp] lemma calls_initial (s₀ : σ) (i : ι) :
    (initial s₀ : Pool ι Q (Prog C R ε α) σ).calls i = none := rfl

/-- A process can execute the rest of its program without interruption. -/
lemma exec_of_run {p : Prog C R ε α} {a : α} {x : σ} (hi : s.calls i = some (q, p))
    (h : p.run interp e s.store = some (.ok a, x)) :
    ∃ n t, exec (next interp body) s (List.replicate n (.step i e)) = some t ∧ t.store = x ∧
      t.calls = Function.update s.calls i (some (q, .ret a)) := by
  induction p generalizing s with
  | ret b =>
      obtain ⟨rfl, rfl⟩ : b = a ∧ s.store = x := by simpa using h
      exact ⟨0, s, rfl, rfl, by rw [← hi, Function.update_eq_self]⟩
  | raise y => simp at h
  | call c k ih =>
      rcases hc : interp c e s.store with _ | ⟨y | r, z⟩
      · simp [Prog.run, hc] at h
      · simp [Prog.run, hc] at h
      · rw [Prog.run_call hc] at h
        obtain ⟨n, t, ht, hstore, hcalls⟩ := ih r (s := ⟨z, Function.update s.calls i
          (some (q, k r))⟩) (Function.update_self ..) h
        refine ⟨n + 1, t, exec_cons_eq_some.2 ⟨_, ?_, ht⟩, hstore, ?_⟩
        · simp [next, hi, Prog.step, hc]
        · rw [hcalls, Function.update_idem]

/-- What is known of all programs after one of them has moved, if it was known before and is known
of the new one. -/
lemma forall_update {P : Q → Prog C R ε α → Prop} {p' : Prog C R ε α}
    (h : ∀ j q p, s.calls j = some (q, p) → P q p) (hnew : P q p') :
    ∀ j q₁ p, Function.update s.calls i (some (q, p')) j = some (q₁, p) → P q₁ p := by
  intro j q₁ p hj
  rcases eq_or_ne j i with rfl | hne
  · rw [Function.update_self, Option.some.injEq, Prod.mk.injEq] at hj
    obtain ⟨rfl, rfl⟩ := hj
    exact hnew
  · rw [Function.update_of_ne hne] at hj
    exact h j q₁ p hj

lemma forall_die {P : Q → Prog C R ε α → Prop} (h : ∀ j q p, s.calls j = some (q, p) → P q p) :
    ∀ j q₁ p, Function.update s.calls i none j = some (q₁, p) → P q₁ p := by
  intro j q₁ p hj
  rcases eq_or_ne j i with rfl | hne
  · simp at hj
  · rw [Function.update_of_ne hne] at hj
    exact h j q₁ p hj

/-- What holds of every command of the programs at their start holds of what is left of them. -/
theorem every_run {P : Q → (c : C) → (R c → Prog C R ε α) → Prop} {s₀ : σ}
    {as : List (PoolAction ι Q E)} {p : Prog C R ε α} (hbody : ∀ q, (body q).Every (P q))
    (h : exec (next interp body) (initial s₀) as = some t) (hi : t.calls i = some (q, p)) :
    p.Every (P q) := by
  refine exec_invariant (I := fun s : Pool ι Q (Prog C R ε α) σ =>
    ∀ i q p, s.calls i = some (q, p) → p.Every (P q)) (fun s a s' hs hstep => ?_)
    (fun i q p hi => by simp at hi) h i q p hi
  rcases next_cases hstep with ⟨i, q, rfl, hi, rfl⟩ |
    ⟨i, e, q, c, k, p', x, rfl, hi, rfl, hcmd⟩ | ⟨i, q, p, rfl, hi, rfl⟩
  · exact forall_update (P := fun q p => p.Every (P q)) hs (hbody q)
  · refine forall_update (P := fun q p => p.Every (P q)) hs ?_
    rcases hcmd with ⟨err, -, rfl⟩ | ⟨r, -, rfl⟩
    · exact trivial
    · exact (hs i q _ hi).2 r
  · exact forall_die (P := fun q p => p.Every (P q)) hs

/-- What holds of every command of a program, when the replies are as they are while the store meets
`I`, holds of what is left of a program that was started in such a store. -/
theorem everyIf_of_started {answers : (c : C) → R c → Prop} {P : C → Prop} {I : σ → Prop}
    (hI : ∀ c e w x w', I w → interp c e w = some (x, w') → I w')
    (hanswers : ∀ c e w r w', I w → interp c e w = some (.ok r, w') → answers c r)
    {asks : Q → Prop} (hbody : ∀ q, asks q → (body q).EveryIf answers P) (hs : I s.store)
    (hi : s.calls i = none) {as : List (PoolAction ι Q E)} (h : exec (next interp body) s as = some t)
    {p : Prog C R ε α} (ht : t.calls i = some (q, p)) (hq : asks q) : p.EveryIf answers P := by
  refine (exec_invariant (I := fun s : Pool ι Q (Prog C R ε α) σ => I s.store ∧
    ∀ q p, s.calls i = some (q, p) → asks q → p.EveryIf answers P) (fun s a s' hs hstep => ?_)
    ⟨hs, fun q p hp => by simp [hi] at hp⟩ h).2 q p ht hq
  obtain ⟨hstore, hprogs⟩ := hs
  rcases next_cases hstep with ⟨j, q₁, rfl, hj, rfl⟩ |
    ⟨j, e, q₁, c, k, p', x, rfl, hj, rfl, hcmd⟩ | ⟨j, q₁, p₁, rfl, hj, rfl⟩
  · refine ⟨hstore, fun q p hp hq => ?_⟩
    rcases eq_or_ne i j with rfl | hij
    · obtain ⟨rfl, rfl⟩ := Prod.mk.inj (Option.some.inj ((Function.update_self i _ s.calls).symm.trans hp))
      exact hbody _ hq
    · exact hprogs q p ((Function.update_of_ne hij _ s.calls).symm.trans hp) hq
  · refine ⟨by rcases hcmd with ⟨y, hexec, -⟩ | ⟨r, hexec, -⟩ <;> exact hI _ _ _ _ _ hstore hexec,
      fun q p hp hq => ?_⟩
    rcases eq_or_ne i j with rfl | hij
    · obtain ⟨rfl, rfl⟩ := Prod.mk.inj (Option.some.inj ((Function.update_self i _ s.calls).symm.trans hp))
      rcases hcmd with ⟨y, -, rfl⟩ | ⟨r, hexec, rfl⟩
      · trivial
      · exact (hprogs _ _ hj hq).2 r (hanswers _ _ _ _ _ hstore hexec)
    · exact hprogs q p ((Function.update_of_ne hij _ s.calls).symm.trans hp) hq
  · refine ⟨hstore, fun q p hp hq => ?_⟩
    rcases eq_or_ne i j with rfl | hij
    · nomatch (Function.update_self i none s.calls).symm.trans hp
    · exact hprogs q p ((Function.update_of_ne hij _ s.calls).symm.trans hp) hq

/-- A process that runs after a step was started by it, or ran on the same request before. -/
lemma start_or_calls {a : PoolAction ι Q E} {j : ι} {q : Q} {p : Prog C R ε α}
    (h : next interp body s a = some s') (hj : s'.calls j = some (q, p)) :
    a = .start j q ∨ ∃ p, s.calls j = some (q, p) := by
  rcases next_cases h with ⟨i, q', rfl, hi, rfl⟩ |
    ⟨i, e, q', c, k, p', x, rfl, hi, rfl, hcmd⟩ | ⟨i, q', p', rfl, hi, rfl⟩ <;>
    simp only [Function.update_apply] at hj <;> split_ifs at hj with heq
  · obtain ⟨rfl, -⟩ := Prod.mk.inj (Option.some.inj hj)
    exact .inl (by rw [heq])
  · exact .inr ⟨p, hj⟩
  · obtain ⟨rfl, -⟩ := Prod.mk.inj (Option.some.inj hj)
    exact .inr ⟨_, heq ▸ hi⟩
  · exact .inr ⟨p, hj⟩
  · exact .inr ⟨p, hj⟩

/-- A process runs on a request that it was started with. -/
lemma started_of_run {s₀ : σ} {as : List (PoolAction ι Q E)} {p : Prog C R ε α}
    (h : exec (next interp body) (initial s₀) as = some t) (hi : t.calls i = some (q, p)) :
    .start i q ∈ as := by
  refine exec_induction (P := fun as (s : Pool ι Q (Prog C R ε α) σ) =>
    ∀ i q p, s.calls i = some (q, p) → .start i q ∈ as) (fun i q p hi => by simp at hi)
    (fun as s a s' _ hs hstep j q' p' hj => ?_) h i q p hi
  rw [List.mem_append, List.mem_singleton]
  rcases start_or_calls hstep hj with rfl | ⟨p, hp⟩
  · exact .inr rfl
  · exact .inl (hs j q' p hp)

/-- Programs that catch their exceptions do not raise any. -/
lemma calls_ne_raise (body : Q → Prog C R ε γ) {s₀ : σ} {as : List (PoolAction ι Q E)}
    {t : Pool ι Q (Prog C R ε (Except ε γ)) σ}
    (hinterp : ∀ c e s y t, interp c e s = some (y, t) → ∃ r, y = .ok r)
    (h : exec (next interp fun q => (body q).attempt) (initial s₀) as = some t) (x : ε) :
    t.calls i ≠ some (q, .raise x) := by
  have hattempt : ∀ i q p, t.calls i = some (q, p) → ∃ p' : Prog C R ε γ, p = p'.attempt := by
    refine exec_invariant (I := fun s : Pool ι Q (Prog C R ε (Except ε γ)) σ =>
      ∀ i q p, s.calls i = some (q, p) → ∃ p' : Prog C R ε γ, p = p'.attempt)
      (fun s a s' hs hstep => ?_) (fun i q p hi => by simp at hi) h
    rcases next_cases hstep with ⟨i, q, rfl, hi, rfl⟩ |
      ⟨i, e, q, c, k, p', w, rfl, hi, rfl, hcmd⟩ | ⟨i, q, p, rfl, hi, rfl⟩
    · exact forall_update (P := fun _ p => ∃ p' : Prog C R ε γ, p = p'.attempt) hs ⟨body q, rfl⟩
    · refine forall_update (P := fun _ p => ∃ p' : Prog C R ε γ, p = p'.attempt) hs ?_
      obtain ⟨r, rfl⟩ : ∃ r, p' = k r := by
        rcases hcmd with ⟨y, hexec, -⟩ | ⟨r, -, rfl⟩
        · obtain ⟨r, hr⟩ := hinterp _ _ _ _ _ hexec
          nomatch hr
        · exact ⟨r, rfl⟩
      obtain ⟨p₀, hp₀⟩ := hs i q _ hi
      cases p₀ with
      | ret b => nomatch hp₀
      | raise y => nomatch hp₀
      | call c' k' =>
          obtain ⟨rfl, hk⟩ := Prog.call.inj hp₀
          exact ⟨k' r, congrFun (eq_of_heq hk) r⟩
    · exact forall_die (P := fun _ p => ∃ p' : Prog C R ε γ, p = p'.attempt) hs
  intro hi
  obtain ⟨p', hp'⟩ := hattempt i q _ hi
  cases p' <;> simp [Prog.attempt] at hp'

/-- A process that does not act goes on as before. -/
lemma calls_of_others {as : List (PoolAction ι Q E)} (has : ∀ a ∈ as, a.actor ≠ i)
    (h : exec (next interp body) s as = some t) : t.calls i = s.calls i := by
  induction as generalizing s with
  | nil =>
      obtain rfl : s = t := by simpa using h
      rfl
  | cons a as ih =>
      obtain ⟨s', hs', h'⟩ := exec_cons_eq_some.1 h
      rw [ih (fun b hb => has b (List.mem_cons_of_mem a hb)) h']
      have ha : a.actor ≠ i := has a (by simp)
      rcases next_cases hs' with ⟨j, q, rfl, -, rfl⟩ | ⟨j, e, q, c, k, p', x, rfl, -, rfl, -⟩ |
        ⟨j, q, p, rfl, -, rfl⟩ <;> exact Function.update_of_ne ha.symm ..

/-- A process that runs can die. -/
lemma next_die {call : Q × Prog C R ε α} (hi : s.calls i = some call) :
    ∃ s' : Pool ι Q (Prog C R ε α) σ, next interp body s (.die i) = some s' ∧
      s'.store = s.store ∧ s'.calls = Function.update s.calls i none :=
  ⟨{ s with calls := Function.update s.calls i none }, by simp [next, hi], rfl, rfl⟩

end Pool

end StarterBackend.Lib

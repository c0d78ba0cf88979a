/-
Reasoning about one program of a pool at a time.

The other processes are known only by what they may do to the store: they keep an
invariant `inv`, and whatever they do in sequence is a step of the relation `rely`.  A
program is *safe* in a store (`Protocol.Safe`) when it keeps to the same rules itself,
and its steps and its results are good, whatever the others have done to the store
before each of its commands.  Safety is stable under `rely` by its definition, so the
programs of a pool are proved safe one by one (`Protocol.safe_run`).

A side condition `G` on the steps of a program restricts the runs that are considered.
-/
import StarterBackend.Lib.Program

namespace StarterBackend.Lib

universe u

variable {C : Type u} {R : C → Type u} {ε α β : Type u} {σ E ι Q : Type*}

/-- What the processes of a pool may do to the store. -/
structure Protocol (σ : Type*) where
  inv : σ → Prop
  rely : σ → σ → Prop
  refl : ∀ s, rely s s
  trans : ∀ {s t u}, rely s t → rely t u → rely s u

namespace Protocol

variable (P : Protocol σ) (interp : Prog.Interp C R ε σ E)

/-- The command keeps to the protocol. -/
def Keeps (c : C) : Prop :=
  ∀ e s x t, P.inv s → interp c e s = some (x, t) → P.inv t ∧ P.rely s t

/-- The program keeps to the protocol, its steps are `good` and its results meet `post`, if its
steps meet the side condition `G` and the others keep to the protocol. -/
def Safe (G : Prog C R ε α → E → σ → Prop)
    (good : (c : C) → E → σ → Except ε (R c) → σ → Prop) (post : α → σ → Prop) :
    Prog C R ε α → σ → Prop
  | .ret a, s => ∀ t, P.inv t → P.rely s t → post a t
  | .raise _, _ => True
  | .call c k, s => ∀ t e x t', P.inv t → P.rely s t → G (.call c k) e t →
      interp c e t = some (x, t') →
      P.inv t' ∧ P.rely t t' ∧ good c e t x t' ∧ ∀ r, x = .ok r → Safe G good post (k r) t'

variable {P interp} {G : Prog C R ε α → E → σ → Prop}
  {good : (c : C) → E → σ → Except ε (R c) → σ → Prop} {post : α → σ → Prop}
  {p : Prog C R ε α} {s t : σ}

/-- What the others do leaves a program safe. -/
lemma Safe.stable (h : P.Safe interp G good post p s) (hst : P.rely s t) :
    P.Safe interp G good post p t := by
  cases p with
  | ret a => exact fun u hu htu => h u hu (P.trans hst htu)
  | raise x => trivial
  | call c k => exact fun u e x u' hu htu hG hexec => h u e x u' hu (P.trans hst htu) hG hexec

lemma Safe.post_of_ret {a : α} (h : P.Safe interp G good post (.ret a) s) (hs : P.inv s) :
    post a s := h s hs (P.refl s)

/-- The results of a safe program can be weakened. -/
lemma Safe.imp {post' : α → σ → Prop} (h : P.Safe interp G good post p s)
    (hpost : ∀ a t, P.inv t → post a t → post' a t) : P.Safe interp G good post' p s := by
  induction p generalizing s with
  | ret a => exact fun t ht hst => hpost a t ht (h t ht hst)
  | raise x => trivial
  | call c k ih =>
      intro t e x t' ht hst hG hexec
      obtain ⟨hinv, hrely, hgood, hk⟩ := h t e x t' ht hst hG hexec
      exact ⟨hinv, hrely, hgood, fun r hr => ih r (hk r hr)⟩

/-- **Sequencing.** -/
theorem Safe.bind {f : α → Prog C R ε β} {G : Prog C R ε β → E → σ → Prop} {post : β → σ → Prop}
    (h : P.Safe interp (fun p => G (p.bind f)) good
      (fun a t => P.Safe interp G good post (f a) t) p s) (hs : P.inv s) :
    P.Safe interp G good post (p.bind f) s := by
  induction p generalizing s with
  | ret a => exact h.post_of_ret hs
  | raise x => trivial
  | call c k ih =>
      intro t e x t' ht hst hG hexec
      obtain ⟨hinv, hrely, hgood, hk⟩ := h t e x t' ht hst hG hexec
      exact ⟨hinv, hrely, hgood, fun r hr => ih r (hk r hr) hinv⟩

/-- The results of a program come after its start. -/
lemma Safe.and_rely (h : P.Safe interp G good post p s) {s₀ : σ} (hs : P.rely s₀ s) :
    P.Safe interp G good (fun a t => post a t ∧ P.rely s₀ t) p s := by
  induction p generalizing s with
  | ret a => exact fun t ht hst => ⟨h t ht hst, P.trans hs hst⟩
  | raise x => trivial
  | call c k ih =>
      intro t e x t' ht hst hG hexec
      obtain ⟨hinv, hrely, hgood, hk⟩ := h t e x t' ht hst hG hexec
      exact ⟨hinv, hrely, hgood, fun r hr => ih r (hk r hr) (P.trans hs (P.trans hst hrely))⟩

/-- **Cleanups.**  A cleanup that is safe whatever comes after it leaves the results alone. -/
theorem Safe.tryFinally {cleanup : Prog C R ε PUnit}
    (hcleanup : ∀ (f : PUnit → Prog C R ε α) t, P.inv t →
      P.Safe interp (fun p => G (p.bind f)) good (fun _ _ => True) cleanup t)
    (h : P.Safe interp (fun p => G (p.tryFinally cleanup)) good post p s) (hs : P.inv s) :
    P.Safe interp G good post (p.tryFinally cleanup) s := by
  induction p generalizing s with
  | ret a =>
      refine Safe.bind (((hcleanup _ s hs).and_rely (P.refl s)).imp fun _ t _ ht => ?_) hs
      exact fun u hu htu => h u hu (P.trans ht.2 htu)
  | raise x => exact Safe.bind ((hcleanup _ s hs).imp fun _ _ _ _ => trivial) hs
  | call c k ih =>
      intro t e x t' ht hst hG hexec
      obtain ⟨hinv, hrely', hgood, hk⟩ := h t e x t' ht hst hG hexec
      exact ⟨hinv, hrely', hgood, fun r hr => ih r (hk r hr) hinv⟩

/-- A program whose commands all keep to the protocol and are good. -/
lemma safe_of_every (hp : p.Every fun c _ => ∀ e s x t, P.inv s → interp c e s = some (x, t) →
      P.inv t ∧ P.rely s t ∧ good c e s x t) :
    P.Safe interp G good (fun _ _ => True) p s := by
  induction p generalizing s with
  | ret a => exact fun _ _ _ => trivial
  | raise x => trivial
  | call c k ih =>
      intro t e x t' ht _ _ hexec
      obtain ⟨hinv, hrely, hgood⟩ := hp.1 e t x t' ht hexec
      exact ⟨hinv, hrely, hgood, fun r _ => ih r (hp.2 r)⟩

/-- The rule for one command. -/
lemma safe_call {c : C} {k : R c → Prog C R ε α} (hc : P.Keeps interp c)
    (h : ∀ t e x t', P.inv t → P.rely s t → G (.call c k) e t → interp c e t = some (x, t') →
      P.inv t' → P.rely s t' →
        good c e t x t' ∧ ∀ r, x = .ok r → P.Safe interp G good post (k r) t') :
    P.Safe interp G good post (.call c k) s := by
  intro t e x t' ht hst hG hexec
  obtain ⟨hinv, hrely⟩ := hc e t x t' ht hexec
  obtain ⟨hgood, hk⟩ := h t e x t' ht hst hG hexec hinv (P.trans hst hrely)
  exact ⟨hinv, hrely, hgood, hk⟩

lemma safe_ret {a : α} (h : ∀ t, P.inv t → P.rely s t → post a t) :
    P.Safe interp G good post (.ret a) s := h

lemma safe_getOrRaise {e : ε} {x : Option α}
    (h : ∀ a ∈ x, ∀ t, P.inv t → P.rely s t → post a t) :
    P.Safe interp G good post (Prog.getOrRaise e x) s := by
  cases x with
  | none => trivial
  | some a => exact h a rfl

/-! ### Pools of safe programs -/

section Pool

variable [DecidableEq ι] {body : Q → Prog C R ε α} {G : Q → Prog C R ε α → E → σ → Prop}
  {good : Q → (c : C) → E → σ → Except ε (R c) → σ → Prop} {post : Q → α → σ → Prop}

/-- The side condition on a step of the pool. -/
def Allows (G : Q → Prog C R ε α → E → σ → Prop) (s : Pool ι Q (Prog C R ε α) σ)
    (a : PoolAction ι Q E) : Prop :=
  ∀ i e q p, a = .step i e → s.calls i = some (q, p) → G q p e s.store

variable (P interp G good post) in
/-- The store meets the invariant, and all programs are safe. -/
structure Sound (s : Pool ι Q (Prog C R ε α) σ) : Prop where
  inv : P.inv s.store
  safe : ∀ i q p, s.calls i = some (q, p) →
    P.Safe interp (G q) (good q) (post q) p s.store

variable {s t : Pool ι Q (Prog C R ε α) σ} {a : PoolAction ι Q E}

omit [DecidableEq ι] in
lemma sound_initial {s₀ : σ} (h : P.inv s₀) :
    P.Sound interp G good post (Pool.initial s₀ : Pool ι Q (Prog C R ε α) σ) := ⟨h, nofun⟩

omit [DecidableEq ι] in
/-- A result of a sound pool meets its condition. -/
lemma Sound.post_of_ret (h : P.Sound interp G good post s) {i : ι} {q : Q} {a : α}
    (hi : s.calls i = some (q, .ret a)) : post q a s.store :=
  (h.safe i q _ hi).post_of_ret h.inv

variable (hbody : ∀ q s, P.inv s → P.Safe interp (G q) (good q) (post q) (body q) s)

include hbody in
/-- A step of a sound pool is good and leaves the pool sound. -/
theorem Sound.step (h : P.Sound interp G good post s) (hG : Allows G s a)
    (hstep : Pool.next interp body s a = some t) :
    P.Sound interp G good post t ∧ P.rely s.store t.store ∧
      ∀ i e q c k, a = .step i e → s.calls i = some (q, .call c k) →
        ∃ x, interp c e s.store = some (x, t.store) ∧ good q c e s.store x t.store := by
  rcases Pool.next_cases hstep with ⟨i, q, rfl, hi, rfl⟩ |
    ⟨i, e, q, c, k, p', x, rfl, hi, rfl, hcmd⟩ | ⟨i, q, p, rfl, hi, rfl⟩
  · exact ⟨⟨h.inv, Pool.forall_update (P := fun q p => P.Safe interp (G q) (good q) (post q) p
      s.store) h.safe (hbody q _ h.inv)⟩, P.refl _, nofun⟩
  · obtain ⟨y, hexec, hp'⟩ : ∃ y, interp c e s.store = some (y, x) ∧
        ((∃ z, y = .error z ∧ p' = .raise z) ∨ ∃ r, y = .ok r ∧ p' = k r) := by
      rcases hcmd with ⟨z, hexec, rfl⟩ | ⟨r, hexec, rfl⟩
      · exact ⟨_, hexec, .inl ⟨z, rfl, rfl⟩⟩
      · exact ⟨_, hexec, .inr ⟨r, rfl, rfl⟩⟩
    obtain ⟨hinv, hrely, hgood, hk⟩ :=
      h.safe i q _ hi s.store e y x h.inv (P.refl _) (hG i e q _ rfl hi) hexec
    refine ⟨⟨hinv, Pool.forall_update (P := fun q p => P.Safe interp (G q) (good q) (post q) p x)
      (fun j q p hj => (h.safe j q p hj).stable hrely) ?_⟩, hrely, ?_⟩
    · rcases hp' with ⟨z, rfl, rfl⟩ | ⟨r, rfl, rfl⟩
      · trivial
      · exact hk r rfl
    · rintro i' e' q' c' k' heq hi'
      obtain ⟨rfl, rfl⟩ := PoolAction.step.inj heq
      obtain ⟨rfl, hcall⟩ := Prod.mk.inj (Option.some.inj (hi.symm.trans hi'))
      cases hcall
      exact ⟨y, hexec, hgood⟩
  · exact ⟨⟨h.inv, Pool.forall_die (P := fun q p => P.Safe interp (G q) (good q) (post q) p
      s.store) h.safe⟩, P.refl _, nofun⟩

include hbody in
/-- **The programs of a run are safe.** -/
theorem safe_run {s₀ : σ} {as : List (PoolAction ι Q E)} (h₀ : P.inv s₀)
    (hG : Along (Pool.next interp body) (Allows G) (Pool.initial s₀) as)
    (h : exec (Pool.next interp body) (Pool.initial s₀) as = some t) :
    P.Sound interp G good post t :=
  exec_invariant_along (fun _ _ _ hs hG hstep => (hs.step hbody hG hstep).1) (sound_initial h₀) hG h

include hbody in
/-- From one state of a run to a later one the store changes as the protocol allows. -/
theorem Sound.rely_run {as : List (PoolAction ι Q E)} (hs : P.Sound interp G good post s)
    (hG : Along (Pool.next interp body) (Allows G) s as)
    (h : exec (Pool.next interp body) s as = some t) :
    P.Sound interp G good post t ∧ P.rely s.store t.store :=
  exec_invariant_along (I := fun u => P.Sound interp G good post u ∧ P.rely s.store u.store)
    (fun _ _ _ hu hG hstep =>
      have hnext := hu.1.step hbody hG hstep
      ⟨hnext.1, P.trans hu.2 hnext.2.1⟩) ⟨hs, P.refl _⟩ hG h

end Pool

end Protocol

end StarterBackend.Lib

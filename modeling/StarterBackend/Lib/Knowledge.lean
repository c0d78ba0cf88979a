/-
What a program knows, and what it does because of it.

A program of a pool learns of the store from the replies to its commands, and the store
changes while it goes on.  Its knowledge `x : X` is a ghost state: a reply `r` to the
command `c` turns it into `learn x c r`.  `Informed` says that every command of the
program is one that its knowledge allows at that moment, and so is every result, if the
replies are such as the store gives (`answers`).

What a process knows may be true or not (`J i q x`).  When the steps of a pool leave true
what its processes know, and teach them what is true, then all programs are informed by
true knowledge in every state (`AllInformed.next`).  Where the programs run one at a
time, a program has to keep its own knowledge true only (`AloneInformed.next`).
-/
import StarterBackend.Lib.Program

namespace StarterBackend.Lib

universe u

variable {C : Type u} {R : C → Type u} {ε α β : Type u} {X : Type*}

namespace Prog

/-- Every command of the program is as its knowledge allows, and so is every result. -/
def Informed (answers : (c : C) → R c → Prop) (learn : X → (c : C) → R c → X)
    (allows : X → C → Prop) (post : X → α → Prop) : X → Prog C R ε α → Prop
  | x, .ret a => post x a
  | _, .raise _ => True
  | x, .call c k =>
      allows x c ∧ ∀ r, answers c r → Informed answers learn allows post (learn x c r) (k r)

/-- The program has commands to issue. -/
def Pending : Prog C R ε α → Prop
  | .call _ _ => True
  | _ => False

variable {answers : (c : C) → R c → Prop} {learn : X → (c : C) → R c → X}
  {allows : X → C → Prop} {post post' : X → α → Prop} {p : Prog C R ε α} {x : X}

/-- **Sequencing.** -/
theorem Informed.bind {f : α → Prog C R ε β} {post : X → β → Prop} {mid : X → α → Prop}
    (hp : p.Informed answers learn allows mid x)
    (hf : ∀ y a, mid y a → (f a).Informed answers learn allows post y) :
    (p.bind f).Informed answers learn allows post x := by
  induction p generalizing x with
  | ret a => exact hf x a hp
  | raise e => trivial
  | call c k ih => exact ⟨hp.1, fun r hr => ih r (hp.2 r hr)⟩

/-- The results of a program can be weakened. -/
lemma Informed.imp (hp : p.Informed answers learn allows post x)
    (h : ∀ y a, post y a → post' y a) : p.Informed answers learn allows post' x := by
  induction p generalizing x with
  | ret a => exact h x a hp
  | raise e => trivial
  | call c k ih => exact ⟨hp.1, fun r hr => ih r (hp.2 r hr)⟩

lemma informed_getOrRaise {e : ε} {a : Option α} (h : ∀ b ∈ a, post x b) :
    (getOrRaise e a : Prog C R ε α).Informed answers learn allows post x := by
  cases a with
  | none => trivial
  | some b => exact h b rfl

lemma informed_ofExcept {a : Except ε α} (h : ∀ b, a = .ok b → post x b) :
    (ofExcept a : Prog C R ε α).Informed answers learn allows post x := by
  cases a with
  | error e => trivial
  | ok b => exact h b rfl

end Prog

namespace Pool

variable {σ E ι Q : Type*} {answers : (c : C) → R c → Prop} {learn : X → (c : C) → R c → X}
  {allows : Q → X → C → Prop} {post : Q → X → α → Prop} {interp : Prog.Interp C R ε σ E}
  {body : Q → Prog C R ε α} {s t : Pool ι Q (Prog C R ε α) σ} {a : PoolAction ι Q E}

/-- All programs are informed by knowledge that is true. -/
def AllInformed (answers : (c : C) → R c → Prop) (learn : X → (c : C) → R c → X)
    (allows : Q → X → C → Prop) (post : Q → X → α → Prop) (J : ι → Q → X → Prop)
    (s : Pool ι Q (Prog C R ε α) σ) : Prop :=
  ∀ i q p, s.calls i = some (q, p) →
    ∃ x, J i q x ∧ p.Informed answers learn (allows q) (post q) x

variable {J J' : ι → Q → X → Prop}

lemma allInformed_initial (s₀ : σ) :
    AllInformed answers learn allows post J (Pool.initial s₀ : Pool ι Q (Prog C R ε α) σ) :=
  fun i q p hi => by simp at hi

variable [DecidableEq ι]

/-- **One step of a pool.**  What was true before it is `J`, and what is true after it is `J'`. -/
theorem AllInformed.next (h : AllInformed answers learn allows post J s)
    (hstart : ∀ i q, a = .start i q →
      ∃ x, J' i q x ∧ (body q).Informed answers learn (allows q) (post q) x)
    (hkept : ∀ i q p x, s.calls i = some (q, p) → a ≠ .die i → J i q x → J' i q x)
    (hlearnt : ∀ i e q c k x r, a = .step i e → s.calls i = some (q, .call c k) → J i q x →
      interp c e s.store = some (.ok r, t.store) → answers c r ∧ J' i q (learn x c r))
    (hstep : next interp body s a = some t) : AllInformed answers learn allows post J' t := by
  have hothers : ∀ i, a.actor = i → ∀ j, j ≠ i → ∀ q p, s.calls j = some (q, p) →
      ∃ x, J' j q x ∧ p.Informed answers learn (allows q) (post q) x := by
    rintro i rfl j hji q p hj
    obtain ⟨x, hx, hp⟩ := h j q p hj
    exact ⟨x, hkept j q p x hj (by rintro rfl; exact hji rfl) hx, hp⟩
  rcases next_cases hstep with ⟨i, q, rfl, hi, rfl⟩ |
    ⟨i, e, q, c, k, p', w, rfl, hi, rfl, hcmd⟩ | ⟨i, q, p, rfl, hi, rfl⟩
  · intro j q' p hj
    rcases eq_or_ne j i with rfl | hji
    · obtain ⟨rfl, rfl⟩ := Prod.mk.inj (Option.some.inj ((Function.update_self j _ s.calls).symm.trans hj))
      exact hstart j _ rfl
    · exact hothers i rfl j hji q' p ((Function.update_of_ne hji _ s.calls).symm.trans hj)
  · intro j q' p hj
    rcases eq_or_ne j i with rfl | hji
    · obtain ⟨rfl, rfl⟩ := Prod.mk.inj (Option.some.inj ((Function.update_self j _ s.calls).symm.trans hj))
      obtain ⟨x, hx, hallowed, hk⟩ := h j _ _ hi
      rcases hcmd with ⟨err, hexec, rfl⟩ | ⟨r, hexec, rfl⟩
      · exact ⟨x, hkept j _ _ x hi (by simp) hx, trivial⟩
      · obtain ⟨hr, hx'⟩ := hlearnt j e _ c k x r rfl hi hx hexec
        exact ⟨_, hx', hk r hr⟩
    · exact hothers i rfl j hji q' p ((Function.update_of_ne hji _ s.calls).symm.trans hj)
  · intro j q' p hj
    rcases eq_or_ne j i with rfl | hji
    · simp at hj
    · exact hothers i rfl j hji q' p ((Function.update_of_ne hji _ s.calls).symm.trans hj)

/-! ### Knowledge of what has been seen -/

/-- The process was running on the request at a moment of the run, and has been since; `P` held of
the store then. -/
def Witnessed (interp : Prog.Interp C R ε σ E) (body : Q → Prog C R ε α) (s₀ : σ)
    (as : List (PoolAction ι Q E)) (i : ι) (q : Q) (P : σ → Prop) : Prop :=
  ∃ bs cs u p, as = bs ++ cs ∧ exec (next interp body) (initial s₀) bs = some u ∧
    u.calls i = some (q, p) ∧ .die i ∉ cs ∧ P u.store

section Witnessed

variable {s₀ : σ} {as : List (PoolAction ι Q E)} {i : ι} {q : Q} {p : Prog C R ε α} {P : σ → Prop}

/-- What holds now is witnessed. -/
lemma witnessed_now (h : exec (next interp body) (initial s₀) as = some s)
    (hi : s.calls i = some (q, p)) (hP : P s.store) : Witnessed interp body s₀ as i q P :=
  ⟨as, [], s, p, (List.append_nil as).symm, h, hi, List.not_mem_nil, hP⟩

/-- What was witnessed stays so while the process runs. -/
lemma Witnessed.snoc (h : Witnessed interp body s₀ as i q P) (ha : a ≠ .die i) :
    Witnessed interp body s₀ (as ++ [a]) i q P := by
  obtain ⟨bs, cs, u, p, rfl, hu, hi, hdie, hP⟩ := h
  refine ⟨bs, cs ++ [a], u, p, List.append_assoc bs cs [a], hu, hi, ?_, hP⟩
  rw [List.mem_append, List.mem_singleton, not_or]
  exact ⟨hdie, ha.symm⟩

/-- **Every program of a run is informed by what it has witnessed**, if a reply tells only what holds
of the store after the command. -/
theorem allInformed_witnessed {F : Type*} (has : X → F → Prop) (holds : σ → F → Prop) {x₀ : X}
    (hnone : ∀ f, ¬ has x₀ f)
    (hbody : ∀ q, (body q).Informed answers learn (allows q) (post q) x₀)
    (hlearn : ∀ c e x r w w', interp c e w = some (.ok r, w') →
      answers c r ∧ ∀ f, has (learn x c r) f → has x f ∨ holds w' f)
    (h : exec (next interp body) (initial s₀) as = some s) :
    AllInformed answers learn allows post
      (fun i q x => ∀ f, has x f → Witnessed interp body s₀ as i q fun w => holds w f) s := by
  induction as using List.reverseRecOn generalizing s with
  | nil =>
      obtain rfl : initial s₀ = s := by simpa using h
      exact allInformed_initial s₀
  | append_singleton as a ih =>
      obtain ⟨u, hu, ha⟩ := exec_append_eq_some.1 h
      obtain ⟨s', hs', heq⟩ := exec_cons_eq_some.1 ha
      obtain rfl : s' = s := by simpa using heq
      refine (ih hu).next (fun i q _ => ?_) (fun i q p x _ hdie hx f hf => ?_)
        (fun i e q c k x r hstep hi hx hexec => ?_) hs'
      · exact ⟨x₀, fun f hf => absurd hf (hnone f), hbody q⟩
      · exact (hx f hf).snoc hdie
      · obtain ⟨hr, hfacts⟩ := hlearn c e x r u.store s'.store hexec
        refine ⟨hr, fun f hf => ?_⟩
        rcases hfacts f hf with hold | hnew
        · exact (hx f hold).snoc (by rw [hstep]; simp)
        · have hcalls : ∃ p, s'.calls i = some (q, p) := by
            rw [hstep] at hs'
            rcases next_step_cases hi hs' with ⟨_, -, hcalls⟩ | ⟨_, -, hcalls⟩ <;>
              exact ⟨_, by rw [hcalls, Function.update_self]⟩
          obtain ⟨p, hp⟩ := hcalls
          exact witnessed_now h hp hnew

end Witnessed

/-! ### One program at a time -/

/-- A process starts only when all that were started before have ended. -/
def OneAtATime (s : Pool ι Q (Prog C R ε α) σ) : PoolAction ι Q E → Prop
  | .start _ _ => ∀ i q p, s.calls i = some (q, p) → ¬ p.Pending
  | _ => True

/-- At most one program has not ended, and it is informed by knowledge that is true of the store. -/
structure AloneInformed (answers : (c : C) → R c → Prop) (learn : X → (c : C) → R c → X)
    (allows : Q → X → C → Prop) (post : Q → X → α → Prop) (T : σ → X → Prop)
    (s : Pool ι Q (Prog C R ε α) σ) : Prop where
  alone : ∀ i j q q' p p', s.calls i = some (q, p) → s.calls j = some (q', p') → p.Pending →
    p'.Pending → i = j
  informed : ∀ i q p, s.calls i = some (q, p) → p.Pending →
    ∃ x, T s.store x ∧ p.Informed answers learn (allows q) (post q) x

variable {T : σ → X → Prop}

omit [DecidableEq ι] in
lemma aloneInformed_initial (s₀ : σ) :
    AloneInformed answers learn allows post T (Pool.initial s₀ : Pool ι Q (Prog C R ε α) σ) :=
  ⟨fun i j q q' p p' hi => by simp at hi, fun i q p hi => by simp at hi⟩

/-- One program goes on when the others have ended. -/
lemma aloneInformed_update {i : ι} {q : Q} {p' : Prog C R ε α} {w : σ}
    (hothers : ∀ j q' p, j ≠ i → s.calls j = some (q', p) → ¬ p.Pending)
    (hp' : p'.Pending → ∃ x, T w x ∧ p'.Informed answers learn (allows q) (post q) x) :
    AloneInformed answers learn allows post T
      ⟨w, Function.update s.calls i (some (q, p'))⟩ := by
  have hpending : ∀ j q' p, Function.update s.calls i (some (q, p')) j = some (q', p) →
      p.Pending → j = i := by
    intro j q' p hj hpending
    by_contra hne
    rw [Function.update_of_ne hne] at hj
    exact hothers j q' p hne hj hpending
  refine ⟨fun j l q₁ q₂ p₁ p₂ hj hl hp₁ hp₂ => ?_, fun j q₁ p₁ hj hp₁ => ?_⟩
  · exact (hpending j q₁ p₁ hj hp₁).trans (hpending l q₂ p₂ hl hp₂).symm
  · obtain rfl := hpending j q₁ p₁ hj hp₁
    change Function.update s.calls j (some (q, p')) j = some (q₁, p₁) at hj
    rw [Function.update_self, Option.some.injEq, Prod.mk.injEq] at hj
    obtain ⟨rfl, rfl⟩ := hj
    exact hp' hp₁

/-- **One step, when programs run one at a time.** -/
theorem AloneInformed.next (h : AloneInformed answers learn allows post T s) (ha : OneAtATime s a)
    (hbody : ∀ q w, ∃ x, T w x ∧ (body q).Informed answers learn (allows q) (post q) x)
    (hlearnt : ∀ c e x r w w', T w x → interp c e w = some (.ok r, w') →
      answers c r ∧ T w' (learn x c r))
    (hstep : next interp body s a = some t) :
    AloneInformed answers learn allows post T t := by
  rcases next_cases hstep with ⟨i, q, rfl, hi, rfl⟩ |
    ⟨i, e, q, c, k, p', w, rfl, hi, rfl, hcmd⟩ | ⟨i, q, p, rfl, hi, rfl⟩
  · exact aloneInformed_update (fun j q' p _ hj => ha j q' p hj) fun _ => hbody q s.store
  · obtain ⟨x, hx, hallowed, hk⟩ := h.informed i q _ hi trivial
    refine aloneInformed_update (fun j q' p hne hj hpending => ?_) fun hpending => ?_
    · exact hne (h.alone j i q' q p _ hj hi hpending trivial)
    · rcases hcmd with ⟨err, hexec, rfl⟩ | ⟨r, hexec, rfl⟩
      · exact hpending.elim
      · obtain ⟨hr, hx'⟩ := hlearnt c e x r _ w hx hexec
        exact ⟨_, hx', hk r hr⟩
  · have hran : ∀ j q' p, Function.update s.calls i none j = some (q', p) →
        s.calls j = some (q', p) := by
      intro j q' p hj
      rcases eq_or_ne j i with rfl | hne
      · simp at hj
      · rwa [Function.update_of_ne hne] at hj
    exact ⟨fun j l q₁ q₂ p₁ p₂ hj hl => h.alone j l q₁ q₂ p₁ p₂ (hran _ _ _ hj) (hran _ _ _ hl),
      fun j q₁ p₁ hj => h.informed j q₁ p₁ (hran _ _ _ hj)⟩

end Pool

end StarterBackend.Lib

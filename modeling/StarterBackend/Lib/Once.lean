/-
Resources that are granted once.

Many programs run on one store and ask for the same thing; the store grants it to at most
one of them.  What has to be known about single commands is collected in a `Once`: which
replies grant the resource, when it is taken, that it is not granted while it is taken
and is taken once it is granted, and that no command of the programs gives it back.

A program *waits* for the resource when every result of it comes after a granting reply
(`Once.Waits`).  If the programs of all processes wait at their start, then

* at most one step of a run ends one of them with a result (`Once.at_most_one_result`);
* after a state in which the resource is taken, no reply grants it
  (`Once.not_granted_of_taken`).
-/
import StarterBackend.Lib.Program

namespace StarterBackend.Lib

universe u

variable {C : Type u} {R : C → Type u} {ε α : Type u} {σ E ι Q : Type*}

/-- A resource of a store, as the commands on it see it. -/
structure Once (interp : Prog.Interp C R ε σ E) where
  /-- The commands that the programs may issue. -/
  allowed : C → Prop
  /-- The replies that a command can get. -/
  answers : (c : C) → R c → Prop
  /-- The replies that hand over the resource. -/
  grants : (c : C) → R c → Prop
  /-- The resource has been handed over, or withdrawn. -/
  taken : σ → Prop
  answers_of_exec : ∀ {c e s r t}, interp c e s = some (.ok r, t) → answers c r
  not_taken_of_grants : ∀ {c e s r t},
    allowed c → interp c e s = some (.ok r, t) → grants c r → ¬ taken s
  taken_of_grants : ∀ {c e s r t},
    allowed c → interp c e s = some (.ok r, t) → grants c r → taken t
  taken_of_taken : ∀ {c e s x t}, allowed c → interp c e s = some (x, t) → taken s → taken t

namespace Once

variable {interp : Prog.Interp C R ε σ E} (O : Once interp)

/-- The program issues allowed commands only, and its results meet `post`. -/
def Obeys (post : α → Prop) : Prog C R ε α → Prop
  | .ret a => post a
  | .raise _ => True
  | .call c k => O.allowed c ∧ ∀ r, O.answers c r → Obeys post (k r)

/-- The program issues allowed commands only. -/
abbrev Behaves (p : Prog C R ε α) : Prop := O.Obeys (fun _ => True) p

/-- Every result of the program comes after a reply that grants the resource. -/
def Waits : Prog C R ε α → Prop
  | .ret _ => False
  | .raise _ => True
  | .call c k => ∀ r, O.answers c r → O.grants c r ∨ Waits (k r)

variable {O} {β : Type u} {p : Prog C R ε α} {f : α → Prog C R ε β} {P : α → Prop}

lemma Obeys.bind {P' : β → Prop} (hp : O.Obeys P p) (hf : ∀ a, P a → O.Obeys P' (f a)) :
    O.Obeys P' (p.bind f) := by
  induction p with
  | ret a => exact hf a hp
  | raise e => trivial
  | call c k ih => exact ⟨hp.1, fun r hr => ih r (hp.2 r hr)⟩

/-- A program waits if what comes after its first part waits. -/
lemma Obeys.waits_bind (hp : O.Obeys P p) (hf : ∀ a, P a → O.Waits (f a)) :
    O.Waits (p.bind f) := by
  induction p with
  | ret a => exact hf a hp
  | raise e => trivial
  | call c k ih => exact fun r hr => .inr (ih r (hp.2 r hr))

lemma obeys_getOrRaise {e : ε} {x : Option α} (h : ∀ a ∈ x, P a) :
    O.Obeys P (Prog.getOrRaise e x : Prog C R ε α) := by
  cases x with
  | none => trivial
  | some a => exact h a rfl

section Run

variable [DecidableEq ι] {body : Q → Prog C R ε α} (O) (asks : Q → Prop)

/-- What holds in every state of a run. -/
structure Inv (s : Pool ι Q (Prog C R ε α) σ) : Prop where
  obeys : ∀ i q p, s.calls i = some (q, p) → O.Behaves p
  taken : ∀ i q p, s.calls i = some (q, p) → asks q → O.Waits p ∨ O.taken s.store
  unique : ∀ i j q p q' p', i ≠ j → s.calls i = some (q, p) → s.calls j = some (q', p') →
    asks q → asks q' → O.Waits p ∨ O.Waits p'

/-- The resource is taken, and no process can still end with a result that it stands for. -/
structure Spent (s : Pool ι Q (Prog C R ε α) σ) : Prop where
  obeys : ∀ i q p, s.calls i = some (q, p) → O.Behaves p
  taken : O.taken s.store
  ended : ∀ i q p, s.calls i = some (q, p) → asks q → O.Waits p ∨ ∃ a, p = .ret a

variable {O asks} {s t : Pool ι Q (Prog C R ε α) σ} {a : PoolAction ι Q E}

omit [DecidableEq ι] in
lemma inv_initial (s₀ : σ) : O.Inv asks (Pool.initial s₀ : Pool ι Q (Prog C R ε α) σ) :=
  ⟨nofun, nofun, nofun⟩

/-- The invariant is kept when one process gets a program: if it does not wait, the resource is
taken and the others wait. -/
lemma Inv.update {i : ι} {q : Q} {p : Prog C R ε α} {x : σ} (h : O.Inv asks s)
    (hstore : O.taken s.store → O.taken x) (hobeys : O.Behaves p)
    (hp : asks q → O.Waits p ∨ O.taken x ∧ ∀ j q' p', j ≠ i → s.calls j = some (q', p') →
      asks q' → O.Waits p') :
    O.Inv asks { store := x, calls := Function.update s.calls i (some (q, p)) } := by
  refine ⟨Pool.forall_update h.obeys hobeys, Pool.forall_update (fun j q' p' hj hq' => ?_) fun hq => ?_, ?_⟩
  · exact (h.taken j q' p' hj hq').imp_right hstore
  · exact (hp hq).imp_right And.left
  · intro j l q₁ p₁ q₂ p₂ hne hj hl hq₁ hq₂
    simp only [Function.update_apply] at hj hl
    split_ifs at hj hl with hji hli hli
    · exact absurd (hji.trans hli.symm) hne
    · obtain ⟨rfl, rfl⟩ := Prod.mk.inj (Option.some.inj hj)
      exact (hp hq₁).imp_right fun hw => hw.2 l q₂ p₂ hli hl hq₂
    · obtain ⟨rfl, rfl⟩ := Prod.mk.inj (Option.some.inj hl)
      exact (hp hq₂).symm.imp_left fun hw => hw.2 j q₁ p₁ hji hj hq₁
    · exact h.unique j l q₁ p₁ q₂ p₂ hne hj hl hq₁ hq₂

/-- The invariant is preserved by every step. -/
theorem Inv.next (hbody : ∀ q, O.Behaves (body q)) (hwaits : ∀ q, asks q → O.Waits (body q))
    (h : O.Inv asks s) (hstep : Pool.next interp body s a = some t) : O.Inv asks t := by
  rcases Pool.next_cases hstep with ⟨i, q, rfl, hi, rfl⟩ |
    ⟨i, e, q, c, k, p', x, rfl, hi, rfl, hcmd⟩ | ⟨i, q, p, rfl, hi, rfl⟩
  · exact h.update id (hbody q) fun hq => .inl (hwaits q hq)
  · have hcall := h.obeys i q _ hi
    rcases hcmd with ⟨err, hexec, rfl⟩ | ⟨r, hexec, rfl⟩
    · exact h.update (O.taken_of_taken hcall.1 hexec) trivial fun _ => .inl trivial
    · have hr := O.answers_of_exec hexec
      refine h.update (O.taken_of_taken hcall.1 hexec) (hcall.2 r hr) fun hq => ?_
      by_cases hwait : O.Waits (.call c k : Prog C R ε α)
      · rcases hwait r hr with hgrant | hk
        · -- the reply grants the resource, so it was free and all others wait
          refine .inr ⟨O.taken_of_grants hcall.1 hexec hgrant, fun j q' p' _ hj hq' => ?_⟩
          exact (h.taken j q' p' hj hq').resolve_right (O.not_taken_of_grants hcall.1 hexec hgrant)
        · exact .inl hk
      · have htaken := (h.taken i q _ hi hq).resolve_left hwait
        refine .inr ⟨O.taken_of_taken hcall.1 hexec htaken, fun j q' p' hne hj hq' => ?_⟩
        exact (h.unique j i q' p' q _ hne hj hi hq' hq).resolve_right hwait
  · refine ⟨Pool.forall_die h.obeys, Pool.forall_die h.taken, ?_⟩
    intro j l q₁ p₁ q₂ p₂ hne hj hl hq₁ hq₂
    simp only [Function.update_apply] at hj hl
    split_ifs at hj hl
    exact h.unique j l q₁ p₁ q₂ p₂ hne hj hl hq₁ hq₂

/-- Once it is spent, the resource stays spent. -/
lemma Spent.next (hbody : ∀ q, O.Behaves (body q)) (hwaits : ∀ q, asks q → O.Waits (body q))
    (h : O.Spent asks s) (hstep : Pool.next interp body s a = some t) : O.Spent asks t := by
  rcases Pool.next_cases hstep with ⟨i, q, rfl, hi, rfl⟩ |
    ⟨i, e, q, c, k, p', x, rfl, hi, rfl, hcmd⟩ | ⟨i, q, p, rfl, hi, rfl⟩
  · exact ⟨Pool.forall_update h.obeys (hbody q), h.taken,
      Pool.forall_update h.ended fun hq => .inl (hwaits q hq)⟩
  · have hcall := h.obeys i q _ hi
    rcases hcmd with ⟨err, hexec, rfl⟩ | ⟨r, hexec, rfl⟩
    · exact ⟨Pool.forall_update h.obeys trivial, O.taken_of_taken hcall.1 hexec h.taken,
        Pool.forall_update h.ended fun _ => .inl trivial⟩
    · have hr := O.answers_of_exec hexec
      refine ⟨Pool.forall_update h.obeys (hcall.2 r hr), O.taken_of_taken hcall.1 hexec h.taken,
        Pool.forall_update h.ended fun hq => .inl ?_⟩
      rcases h.ended i q _ hi hq with hwait | ⟨b, hb⟩
      · exact (hwait r hr).resolve_left fun hgrant =>
          O.not_taken_of_grants hcall.1 hexec hgrant h.taken
      · simp at hb
  · exact ⟨Pool.forall_die h.obeys, h.taken, Pool.forall_die h.ended⟩

/-- The step ends a process that asks for the resource with a result. -/
def Succeeds (asks : Q → Prop) (s : Pool ι Q (Prog C R ε α) σ) (a : PoolAction ι Q E)
    (t : Pool ι Q (Prog C R ε α) σ) : Prop :=
  ∃ i e q c k b, a = .step i e ∧ asks q ∧ s.calls i = some (q, .call c k) ∧
    t.calls i = some (q, .ret b)

variable (asks) in
/-- A process whose program can run to a result without interruption can succeed. -/
lemma succeeds_of_run {i : ι} {e : E} {q : Q} {c : C} {k : R c → Prog C R ε α} {b : α} {x : σ}
    (hi : s.calls i = some (q, .call c k)) (hq : asks q)
    (h : (Prog.call c k).run interp e s.store = some (.ok b, x)) :
    ∃ as u t, exec (Pool.next interp body) s as = some u ∧
      Pool.next interp body u (.step i e) = some t ∧ Succeeds asks u (.step i e) t ∧
      t.store = x ∧ ∀ j, j ≠ i → t.calls j = s.calls j := by
  obtain ⟨n, t, hrun, hstore, hcalls⟩ : ∃ n t, exec (Pool.next interp body) s
      (List.replicate n (.step i e)) = some t ∧ t.store = x ∧
      t.calls = Function.update s.calls i (some (q, .ret b)) := Pool.exec_of_run hi h
  cases n with
  | zero =>
      obtain rfl : s = t := by simpa using hrun
      have hret := congrFun hcalls i
      rw [hi, Function.update_self] at hret
      simp at hret
  | succ n =>
      rw [List.replicate_succ', exec_append_eq_some] at hrun
      obtain ⟨u, hu, hstep⟩ := hrun
      obtain ⟨t', hstep', ht'⟩ := exec_cons_eq_some.1 hstep
      obtain rfl : t' = t := by simpa using ht'
      refine ⟨_, u, t', hu, hstep', ⟨i, e, q, ?_⟩, hstore, fun j hj => by
        rw [hcalls, Function.update_of_ne hj]⟩
      rcases Pool.next_cases hstep' with ⟨_, _, heq, -⟩ |
        ⟨i', e', q', c', k', p', y, heq, hi', rfl, -⟩ | ⟨_, _, _, heq, -⟩
      · simp at heq
      · obtain ⟨rfl, rfl⟩ := PoolAction.step.inj heq
        have hq' := congrFun hcalls i
        simp only [Function.update_self, Option.some.injEq, Prod.mk.injEq] at hq'
        obtain ⟨rfl, rfl⟩ := hq'
        exact ⟨c', k', b, rfl, hq, hi', Function.update_self ..⟩
      · simp at heq

omit [DecidableEq ι] in
/-- A success spends the resource. -/
lemma Succeeds.spent (hinv : O.Inv asks t) (h : Succeeds asks s a t) : O.Spent asks t := by
  obtain ⟨i, e, q, c, k, b, -, hq, -, hi⟩ := h
  have hret : ¬ O.Waits (.ret b : Prog C R ε α) := id
  refine ⟨hinv.obeys, (hinv.taken i q _ hi hq).resolve_left hret, fun j q' p' hj hq' => ?_⟩
  rcases eq_or_ne j i with rfl | hne
  · obtain ⟨rfl, rfl⟩ := Prod.mk.inj (Option.some.inj (hi.symm.trans hj))
    exact .inr ⟨b, rfl⟩
  · exact .inl ((hinv.unique j i q' p' q _ hne hj hi hq' hq).resolve_right hret)

/-- No success when the resource is spent. -/
lemma Spent.not_succeeds (h : O.Spent asks s) (hstep : Pool.next interp body s a = some t) :
    ¬ Succeeds asks s a t := by
  rintro ⟨i, e, q, c, k, b, rfl, hq, hi, hb⟩
  have hcall := h.obeys i q _ hi
  have hwait : O.Waits (.call c k : Prog C R ε α) := by
    rcases h.ended i q _ hi hq with hwait | ⟨b', hb'⟩
    · exact hwait
    · simp at hb'
  rcases Pool.next_cases hstep with ⟨_, _, heq, -⟩ |
    ⟨i', e', q', c', k', p', x, heq, hi', rfl, hcmd⟩ | ⟨_, _, _, heq, -⟩
  · simp at heq
  · obtain ⟨rfl, rfl⟩ := PoolAction.step.inj heq
    obtain ⟨rfl, hp⟩ := Prod.mk.inj (Option.some.inj (hi'.symm.trans hi))
    cases hp
    simp only [Function.update_self, Option.some.injEq, Prod.mk.injEq, true_and] at hb
    subst hb
    rcases hcmd with ⟨err, -, heq⟩ | ⟨r, hexec, heq⟩
    · simp at heq
    · rcases hwait r (O.answers_of_exec hexec) with hgrant | hret
      · exact O.not_taken_of_grants hcall.1 hexec hgrant h.taken
      · rwa [← heq] at hret
  · simp at heq

variable {s₀ : σ} {as bs cs : List (PoolAction ι Q E)} {b : PoolAction ι Q E}

/-- **At most one process gets a result.** -/
theorem at_most_one_result (hbody : ∀ q, O.Behaves (body q))
    (hwaits : ∀ q, asks q → O.Waits (body q)) {s' u u' : Pool ι Q (Prog C R ε α) σ}
    (hs : exec (Pool.next interp body) (Pool.initial s₀) as = some s)
    (ha : Pool.next interp body s a = some s')
    (hu : exec (Pool.next interp body) s' bs = some u)
    (hb : Pool.next interp body u b = some u')
    (hsa : Succeeds asks s a s') : ¬ Succeeds asks u b u' := by
  have hinv : O.Inv asks s :=
    exec_invariant (fun s a t h hst => Inv.next hbody hwaits h hst) (inv_initial s₀) hs
  have hspent : O.Spent asks u :=
    exec_invariant (fun s a t h hst => Spent.next hbody hwaits h hst)
      (hsa.spent (hinv.next hbody hwaits ha)) hu
  exact hspent.not_succeeds hb

/-- What is taken stays taken. -/
lemma taken_run (hbody : ∀ q, O.Behaves (body q))
    (hobeys : ∀ i q p, s.calls i = some (q, p) → O.Behaves p) (hs : O.taken s.store)
    (h : exec (Pool.next interp body) s as = some t) :
    O.taken t.store ∧ ∀ i q p, t.calls i = some (q, p) → O.Behaves p := by
  refine exec_invariant (I := fun s : Pool ι Q (Prog C R ε α) σ => O.taken s.store ∧
    ∀ i q p, s.calls i = some (q, p) → O.Behaves p)
    (fun s a t h hstep => ?_) ⟨hs, hobeys⟩ h
  have hspent : O.Spent (fun _ : Q => False) s := ⟨h.2, h.1, fun _ _ _ _ hq => hq.elim⟩
  have hnext := hspent.next hbody (fun _ hq => hq.elim) hstep
  exact ⟨hnext.taken, hnext.obeys⟩

/-- **After it is taken the resource is not granted.** -/
theorem not_granted_of_taken (hbody : ∀ q, O.Behaves (body q))
    (hs : exec (Pool.next interp body) (Pool.initial s₀) as = some s) (htaken : O.taken s.store)
    {u : Pool ι Q (Prog C R ε α) σ} (hu : exec (Pool.next interp body) s bs = some u)
    {i : ι} {q : Q} {c : C} {k : R c → Prog C R ε α} (hi : u.calls i = some (q, .call c k))
    {e : E} {r : R c} {x : σ} (hexec : interp c e u.store = some (.ok r, x)) :
    ¬ O.grants c r := by
  have hinv : O.Inv (fun _ : Q => False) s :=
    exec_invariant (fun s a t h hst => Inv.next hbody (fun _ hq => hq.elim) h hst)
      (inv_initial s₀) hs
  obtain ⟨htaken', hobeys⟩ := taken_run hbody hinv.obeys htaken hu
  exact fun hgrant => O.not_taken_of_grants (hobeys i q _ hi).1 hexec hgrant htaken'

end Run

end Once

end StarterBackend.Lib

/-
A lock that the programs of a pool take and release.

A program takes the lock at most once, and a program that has taken it releases it once
before it ends (`Locks`, `Unlocks`).  The events of a run say who took the lock last and
is still alive: the holder.  In the runs in which nobody takes the lock while another
process still has its release ahead (`Exclusive`), every release is the holder's
(`Locking.run`); and from a step that is not exclusive the earlier process can go on to
its release alone (`Locking.exists_release`).
-/
import StarterBackend.Lib.Program

namespace StarterBackend.Lib

universe u v

/-- What a command means for a lock. -/
inductive LockStep where
  | leaves
  | takes
  | releases
  | spoils
deriving DecidableEq

/-- How commands use a lock: what each of them means for it, and whether a command that tries to
take the lock has taken it. -/
structure LockUse (C : Type u) (R : C → Type u) where
  kind : C → LockStep
  taken : (c : C) → R c → Bool

section Programs

variable {C : Type u} {R : C → Type u} {ε : Type u} {α β : Type v}

namespace Prog

/-- Every command leaves the lock alone. -/
def LeavesLock (l : LockUse C R) (p : Prog C R ε α) : Prop := p.Every fun c _ => l.kind c = .leaves

/-- The rest of a program that has taken the lock: it releases it once. -/
def Unlocks (l : LockUse C R) : Prog C R ε α → Prop
  | .ret _ => False
  | .raise _ => False
  | .call c k => (l.kind c = .leaves ∧ ∀ r, Unlocks l (k r)) ∨
      (l.kind c = .releases ∧ ∀ r, (k r).LeavesLock l)

/-- The rest of a program that has not: it may take the lock once, and then releases it. -/
def Locks (l : LockUse C R) : Prog C R ε α → Prop
  | .ret _ => True
  | .raise _ => True
  | .call c k => (l.kind c = .leaves ∧ ∀ r, Locks l (k r)) ∨
      (l.kind c = .takes ∧ ∀ r, (l.taken c r = true → (k r).Unlocks l) ∧
        (l.taken c r = false → (k r).LeavesLock l))

variable {l : LockUse C R} {p : Prog C R ε α} {f : α → Prog C R ε β}

lemma LeavesLock.bind (hp : p.LeavesLock l) (hf : ∀ a, (f a).LeavesLock l) :
    (p.bind f).LeavesLock l := Every.bind (P := fun c _ => l.kind c = .leaves) hp hf

lemma LeavesLock.tryFinally {cleanup : Prog C R ε PUnit.{v + 1}} (hp : p.LeavesLock l)
    (hcleanup : cleanup.LeavesLock l) : (p.tryFinally cleanup).LeavesLock l := by
  induction p with
  | ret a => exact hcleanup.bind fun _ => trivial
  | raise e => exact hcleanup.bind fun _ => trivial
  | call c k ih => exact ⟨hp.1, fun r => ih r (hp.2 r)⟩

lemma leavesLock_getOrRaise {e : ε} {x : Option α} :
    (getOrRaise e x : Prog C R ε α).LeavesLock l := by
  cases x <;> trivial

lemma LeavesLock.locks (hp : p.LeavesLock l) : p.Locks l := by
  induction p with
  | ret a => trivial
  | raise e => trivial
  | call c k ih => exact .inl ⟨hp.1, fun r => ih r (hp.2 r)⟩

lemma Locks.of_bind (hp : p.LeavesLock l) (hf : ∀ a, (f a).Locks l) : (p.bind f).Locks l := by
  induction p with
  | ret a => exact hf a
  | raise e => trivial
  | call c k ih => exact .inl ⟨hp.1, fun r => ih r (hp.2 r)⟩

lemma Locks.bind (hp : p.Locks l) (hf : ∀ a, (f a).LeavesLock l) : (p.bind f).Locks l := by
  have hunlocks : ∀ {p : Prog C R ε α}, p.Unlocks l → (p.bind f).Unlocks l := by
    intro p hp
    induction p with
    | ret a => exact absurd hp id
    | raise e => exact absurd hp id
    | call c k ih =>
        rcases hp with ⟨hc, hk⟩ | ⟨hc, hk⟩
        · exact .inl ⟨hc, fun r => ih r (hk r)⟩
        · exact .inr ⟨hc, fun r => (hk r).bind hf⟩
  induction p with
  | ret a => exact (hf a).locks
  | raise e => trivial
  | call c k ih =>
      rcases hp with ⟨hc, hk⟩ | ⟨hc, hk⟩
      · exact .inl ⟨hc, fun r => ih r (hk r)⟩
      · exact .inr ⟨hc, fun r => ⟨fun ht => hunlocks ((hk r).1 ht), fun hf' => ((hk r).2 hf').bind hf⟩⟩

/-- A block whose `finally` releases the lock. -/
lemma unlocks_tryFinally {cleanup : Prog C R ε PUnit.{v + 1}} (hp : p.LeavesLock l)
    (hret : ∀ a : α, (cleanup.bind fun _ => (.ret a : Prog C R ε α)).Unlocks l)
    (hraise : ∀ e : ε, (cleanup.bind fun _ => (.raise e : Prog C R ε α)).Unlocks l) :
    (p.tryFinally cleanup).Unlocks l := by
  induction p with
  | ret a => exact hret a
  | raise e => exact hraise e
  | call c k ih => exact .inl ⟨hp.1, fun r => ih r (hp.2 r)⟩

end Prog

end Programs

/-! ### The holder -/

/-- A process took the lock, or died. -/
inductive LockEvent (ι : Type*) where
  | taken (i : ι)
  | died (i : ι)

section Holder

variable {ι : Type*} [DecidableEq ι]

/-- The holder after an event. -/
def LockEvent.holder (before : Option ι) : LockEvent ι → Option ι
  | .taken i => some i
  | .died i => if before = some i then none else before

/-- The process that took the lock last, if it has not died since. -/
def holder (log : List (LockEvent ι)) : Option ι := log.foldl LockEvent.holder none

lemma holder_append (log log' : List (LockEvent ι)) :
    holder (log ++ log') = log'.foldl LockEvent.holder (holder log) := List.foldl_append

end Holder

/-! ### Runs -/

namespace Pool

variable {C : Type u} {R : C → Type u} {ε α : Type u} {σ E ι Q : Type*} [DecidableEq ι]
  {interp : Prog.Interp C R ε σ E} {body : Q → Prog C R ε α} {l : LockUse C R}

/-- The command of a process takes the lock. -/
def takesLock (interp : Prog.Interp C R ε σ E) (l : LockUse C R)
    (s : Pool ι Q (Prog C R ε α) σ) (i : ι) (e : E) : Bool :=
  match s.calls i with
  | some (_, .call c _) =>
      match interp c e s.store with
      | some (.ok r, _) => l.kind c = .takes && l.taken c r
      | _ => false
  | _ => false

/-- The event that an action is. -/
def lockEvent (interp : Prog.Interp C R ε σ E) (l : LockUse C R)
    (s : Pool ι Q (Prog C R ε α) σ) : PoolAction ι Q E → Option (LockEvent ι)
  | .start _ _ => none
  | .step i e => if takesLock interp l s i e then some (.taken i) else none
  | .die i => some (.died i)

/-- The holder of the lock after a run. -/
def lockHolder (interp : Prog.Interp C R ε σ E) (body : Q → Prog C R ε α) (l : LockUse C R)
    (s : Pool ι Q (Prog C R ε α) σ) (as : List (PoolAction ι Q E)) : Option ι :=
  holder (observed (next interp body) (lockEvent interp l) s as)

/-- Nobody takes the lock while another process has its release ahead. -/
def Exclusive (interp : Prog.Interp C R ε σ E) (l : LockUse C R)
    (s : Pool ι Q (Prog C R ε α) σ) : PoolAction ι Q E → Prop
  | .step i e => takesLock interp l s i e = true →
      ∀ j q p, s.calls j = some (q, p) → j ≠ i → ¬ p.Unlocks l
  | _ => True

/-- Only the holder has a release ahead. -/
def Locking (l : LockUse C R) (s : Pool ι Q (Prog C R ε α) σ) (held : Option ι) : Prop :=
  ∀ i q p, s.calls i = some (q, p) → p.Locks l ∨ (p.Unlocks l ∧ held = some i)

variable {s t : Pool ι Q (Prog C R ε α) σ} {held : Option ι} {a : PoolAction ι Q E}
  {i : ι} {q : Q} {e : E} {as : List (PoolAction ι Q E)}

lemma lockHolder_append (h : exec (next interp body) s as = some t) :
    lockHolder interp body l s (as ++ [a]) =
      (lockEvent interp l t a).toList.foldl LockEvent.holder (lockHolder interp body l s as) := by
  rw [lockHolder, lockHolder, observed_append_singleton h, holder_append]

omit [DecidableEq ι] in
lemma takesLock_call {c : C} {k : R c → Prog C R ε α} {r : R c} {w : σ}
    (hi : s.calls i = some (q, .call c k)) (hc : interp c e s.store = some (.ok r, w)) :
    takesLock interp l s i e = (decide (l.kind c = .takes) && l.taken c r) := by
  simp only [takesLock, hi, hc]

/-- **One step.** -/
theorem Locking.next (hbody : ∀ q, (body q).Locks l) (h : Locking l s held)
    (hG : Exclusive interp l s a) (hstep : next interp body s a = some t) :
    Locking l t ((lockEvent interp l s a).toList.foldl LockEvent.holder held) := by
  intro j q' p' hj
  rcases next_cases hstep with ⟨i, q, rfl, hi, rfl⟩ |
    ⟨i, e, q, c, k, p, w, rfl, hi, rfl, hcmd⟩ | ⟨i, q, p, rfl, hi, rfl⟩
  · rcases eq_or_ne j i with rfl | hne
    · obtain ⟨rfl, rfl⟩ := Prod.mk.inj (Option.some.inj ((Function.update_self j _ s.calls).symm.trans hj))
      exact .inl (hbody _)
    · exact h j q' p' ((Function.update_of_ne hne _ s.calls).symm.trans hj)
  · have htaken : ∀ b, takesLock interp l s i e = b →
        ((lockEvent interp l s (.step i e)).toList.foldl LockEvent.holder held) =
          if b then some i else held := by
      rintro b rfl
      cases hb : takesLock interp l s i e <;> simp [lockEvent, hb, LockEvent.holder]
    rw [htaken _ rfl]
    rcases eq_or_ne j i with rfl | hne
    · obtain ⟨rfl, rfl⟩ := Prod.mk.inj (Option.some.inj ((Function.update_self j _ s.calls).symm.trans hj))
      rcases hcmd with ⟨x, -, rfl⟩ | ⟨r, hexec, rfl⟩
      · exact .inl trivial
      · rw [takesLock_call hi hexec]
        rcases h j _ _ hi with (⟨hc, hk⟩ | ⟨hc, hk⟩) | ⟨⟨hc, hk⟩ | ⟨hc, hk⟩, rfl⟩
        · exact .inl (hk r)
        · cases ht : l.taken c r with
          | true => exact .inr ⟨(hk r).1 ht, by simp [hc]⟩
          | false => exact .inl ((hk r).2 ht).locks
        · exact .inr ⟨hk r, by simp⟩
        · exact .inl (hk r).locks
    · have hj' := (Function.update_of_ne hne _ s.calls).symm.trans hj
      rcases h j _ _ hj' with hlocks | ⟨hunlocks, hheld⟩
      · exact .inl hlocks
      · -- a process that takes the lock now would not be exclusive
        have hnot : takesLock interp l s i e = false := by
          by_contra htakes
          exact hG (by simpa using htakes) j _ _ hj' hne hunlocks
        exact .inr ⟨hunlocks, by simpa [hnot] using hheld⟩
  · rcases eq_or_ne j i with rfl | hne
    · simp at hj
    · rcases h j _ _ ((Function.update_of_ne hne _ s.calls).symm.trans hj) with hlocks | ⟨hunlocks, rfl⟩
      · exact .inl hlocks
      · exact .inr ⟨hunlocks, by simp [lockEvent, LockEvent.holder, hne]⟩

/-- **A run.** -/
theorem Locking.run (hbody : ∀ q, (body q).Locks l) {s₀ : σ}
    (hG : Along (Pool.next interp body) (Exclusive interp l) (initial s₀) as)
    (h : exec (Pool.next interp body) (initial s₀) as = some t) :
    Locking l t (lockHolder interp body l (initial s₀) as) := by
  revert hG
  refine exec_induction (P := fun as (t : Pool ι Q (Prog C R ε α) σ) =>
    Along (Pool.next interp body) (Exclusive interp l) (initial s₀) as →
      Locking l t (lockHolder interp body l (initial s₀) as)) (fun _ i q p hi => by simp at hi)
    (fun as s a t hs ih hstep hG => ?_) h
  rw [lockHolder_append hs]
  exact (ih (hG.of_isPrefix (List.prefix_append as [a]))).next hbody (hG.append hs).1 hstep

omit [DecidableEq ι] in
/-- A command that neither leaves nor takes the lock is the holder's release. -/
lemma Locking.releases (h : Locking l s held) {c : C} {k : R c → Prog C R ε α}
    (hi : s.calls i = some (q, .call c k)) (hleaves : l.kind c ≠ .leaves)
    (htakes : l.kind c ≠ .takes) : l.kind c = .releases ∧ held = some i := by
  rcases h i q _ hi with (⟨hc, -⟩ | ⟨hc, -⟩) | ⟨⟨hc, -⟩ | ⟨hc, -⟩, hheld⟩
  · exact absurd hc hleaves
  · exact absurd hc htakes
  · exact absurd hc hleaves
  · exact ⟨hc, hheld⟩

variable (body) in
/-- A process that has its release ahead can go on to it alone. -/
theorem exists_release {P : σ → Prop}
    (hP : ∀ c w, l.kind c = .leaves → P w → ∃ r w', interp c e w = some (.ok r, w') ∧ P w')
    {p : Prog C R ε α} (hp : p.Unlocks l) (hi : s.calls i = some (q, p)) (hs : P s.store) :
    ∃ n t c k, exec (Pool.next interp body) s (List.replicate n (.step i e)) = some t ∧
      P t.store ∧ l.kind c = .releases ∧ t.calls = Function.update s.calls i (some (q, .call c k)) ∧
      observed (Pool.next interp body) (lockEvent interp l) s (List.replicate n (.step i e)) = [] := by
  induction p generalizing s with
  | ret a => exact absurd hp id
  | raise x => exact absurd hp id
  | call c k ih =>
      rcases hp with ⟨hc, hk⟩ | ⟨hc, hk⟩
      · obtain ⟨r, w, hexec, hw⟩ := hP c s.store hc hs
        obtain ⟨s', hs', rfl, hcalls⟩ : ∃ s', Pool.next interp body s (.step i e) = some s' ∧
            s'.store = w ∧ s'.calls = Function.update s.calls i (some (q, k r)) :=
          ⟨⟨w, Function.update s.calls i (some (q, k r))⟩, by simp [Pool.next, hi, Prog.step, hexec],
            rfl, rfl⟩
        obtain ⟨n, t, c', k', ht, hPt, hc', hcalls', hlog⟩ := ih r (s := s') (hk r) (by simp [hcalls]) hw
        refine ⟨n + 1, t, c', k', exec_cons_eq_some.2 ⟨s', hs', ht⟩, hPt, hc', ?_, ?_⟩
        · rw [hcalls', hcalls, Function.update_idem]
        · have hnone : lockEvent interp l s (.step i e) = none := by
            simp [lockEvent, takesLock_call hi hexec, hc]
          simp [List.replicate_succ, observed, hs', hlog, hnone]
      · exact ⟨0, s, c, k, rfl, hs, hc, by rw [← hi, Function.update_eq_self], rfl⟩

end Pool

end StarterBackend.Lib

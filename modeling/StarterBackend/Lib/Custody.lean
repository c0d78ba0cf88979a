/-
Programs that have items in custody.

A store holds items (the jobs of a queue, the messages of a mailbox).  A command may
take an item out of the store, after which the program that issued it is the only one
to have the item: it owes the item to the store.  The discipline of this file is that
a program in debt puts the item back with its very next command, unless the item has
been released and need not be kept any more.

`Custody` says what the commands of a signature take, give, read and release, and
which commands a program may issue.  `Custody.Settles` is the discipline, a property
of the text of a program.  Its consequences for the store are

* `Custody.settles_run`: a program that runs at once loses no item;
* `Custody.covered_run`: of programs whose commands interleave, every tracked item is
  held by the store or is in the hands of a live process that is about to put it
  back, as long as no process dies holding the last copy of an item.
-/
import StarterBackend.Lib.Program
import Mathlib.Data.Set.Lattice

namespace StarterBackend.Lib

universe u

variable {C : Type u} {R : C → Type u} {ε α β : Type u} {σ E I : Type*}

/-- What the commands of an interpretation do to the items of its store. -/
structure Custody (interp : Prog.Interp C R ε σ E) (I : Type*) where
  /-- What holds of every store. -/
  inv : σ → Prop
  /-- The items that the store tracks. -/
  known : σ → Set I
  /-- The tracked items that need not be kept any more. -/
  free : σ → Set I
  holds : σ → I → Prop
  /-- The commands open to a program that knows some items and some releases. -/
  pre : Set I → Set I → C → Prop
  /-- The replies that can occur. -/
  ok : (c : C) → R c → Prop
  reads : (c : C) → R c → Set I
  frees : (c : C) → R c → Set I
  takes : (c : C) → R c → Option I
  gives : C → Option I
  pre_mono : ∀ {known known' free free' c}, known ⊆ known' → free ⊆ free' →
    pre known free c → pre known' free' c
  spec : ∀ {c e s res s'}, inv s → pre (known s) (free s) c → interp c e s = some (res, s') →
    ∃ r, res = .ok r ∧ ok c r ∧ inv s' ∧ known s ⊆ known s' ∧ free s ⊆ free s' ∧
      reads c r ⊆ known s' ∧ frees c r ⊆ free s' ∧
      (∀ x, holds s x → holds s' x ∨ takes c r = some x ∨ x ∈ free s') ∧
      (∀ x, gives c = some x → holds s' x) ∧
      ∀ x ∈ known s', x ∈ known s ∨ holds s' x ∨ x ∈ free s'

namespace Custody

variable {interp : Prog.Interp C R ε σ E} (K : Custody interp I)

/-- The program, which knows the items `known` and may drop the items `free`, gives back
what it takes with its next command, starting with the debt `d`. -/
def Settles : Prog C R ε α → Set I → Set I → Option I → (Set I → Set I → α → Prop) → Prop
  | .ret a, known, free, d, post => (∀ x, d = some x → x ∈ free) ∧ post known free a
  | .raise _, _, _, _, _ => False
  | .call c k, known, free, d, post =>
      K.pre known free c ∧ (∀ x, d = some x → x ∈ free ∨ K.gives c = some x) ∧
        ∀ r, K.ok c r →
          Settles (k r) (known ∪ K.reads c r) (free ∪ K.frees c r) (K.takes c r) post

variable {K} {p : Prog C R ε α} {known known' free free' : Set I} {d : Option I}
  {post post' : Set I → Set I → α → Prop} {e : E} {s s' : σ} {res : Except ε α}

/-- What a program may do knowing less it may do knowing more. -/
lemma Settles.mono (h : K.Settles p known free d post) (hknown : known ⊆ known')
    (hfree : free ⊆ free')
    (hpost : ∀ k k' f f' a, known ⊆ k → k ⊆ k' → free ⊆ f → f ⊆ f' → post k f a →
      post' k' f' a) :
    K.Settles p known' free' d post' := by
  induction p generalizing known known' free free' d with
  | ret a =>
      exact ⟨fun x hx => hfree (h.1 x hx),
        hpost _ _ _ _ a (subset_refl _) hknown (subset_refl _) hfree h.2⟩
  | raise e => exact h
  | call c k ih =>
      refine ⟨K.pre_mono hknown hfree h.1, fun x hx => (h.2.1 x hx).imp_left (@hfree x),
        fun r hr => ?_⟩
      refine ih r (h.2.2 r hr) (Set.union_subset_union_left _ hknown)
        (Set.union_subset_union_left _ hfree) fun k₁ k₂ f₁ f₂ a hk hkk hf hff hp => ?_
      exact hpost k₁ k₂ f₁ f₂ a (Set.subset_union_left.trans hk) hkk
        (Set.subset_union_left.trans hf) hff hp

/-- A program forgets nothing of what it knows. -/
lemma Settles.weaken (h : K.Settles p known free d post)
    (hpost : ∀ k f a, known ⊆ k → free ⊆ f → post k f a → post' k f a) :
    K.Settles p known free d post' := by
  induction p generalizing known free d with
  | ret a => exact ⟨h.1, hpost _ _ a (subset_refl _) (subset_refl _) h.2⟩
  | raise e => exact h
  | call c k ih =>
      refine ⟨h.1, h.2.1, fun r hr => ih r (h.2.2 r hr) fun k₁ f₁ a hk hf hp => ?_⟩
      exact hpost k₁ f₁ a (Set.subset_union_left.trans hk) (Set.subset_union_left.trans hf) hp

/-- A debt of a released item need not be paid. -/
lemma Settles.of_free (h : K.Settles p known free none post) (hd : ∀ x, d = some x → x ∈ free) :
    K.Settles p known free d post := by
  cases p with
  | ret a => exact ⟨hd, h.2⟩
  | raise e => exact h
  | call c k => exact ⟨h.1, fun x hx => .inl (hd x hx), h.2.2⟩

/-- A program that settles its debts goes on with programs that settle theirs. -/
lemma Settles.bind {f : α → Prog C R ε β} {post' : Set I → Set I → β → Prop}
    (h : K.Settles p known free d post)
    (hf : ∀ k f' a, post k f' a → K.Settles (f a) k f' none post') :
    K.Settles (p.bind f) known free d post' := by
  induction p generalizing known free d with
  | ret a => exact (hf known free a h.2).of_free h.1
  | raise e => exact h
  | call c k ih => exact ⟨h.1, h.2.1, fun r hr => ih r (h.2.2 r hr)⟩

/-! ### Programs that run at once -/

/-- From one store to the other no tracked item is lost. -/
structure Keeps (K : Custody interp I) (s s' : σ) : Prop where
  inv : K.inv s'
  known : K.known s ⊆ K.known s'
  free : K.free s ⊆ K.free s'
  holds : ∀ x, K.holds s x → K.holds s' x ∨ x ∈ K.free s'
  tracked : ∀ x ∈ K.known s', x ∈ K.known s ∨ K.holds s' x ∨ x ∈ K.free s'

/-- **A program that settles its debts loses no item**, and raises no exception. -/
theorem settles_run (h : K.Settles p known free d post) (hinv : K.inv s)
    (hknown : known ⊆ K.known s) (hfree : free ⊆ K.free s)
    (hrun : p.run interp e s = some (res, s')) :
    K.Keeps s s' ∧ (∀ x, d = some x → K.holds s' x ∨ x ∈ K.free s') ∧
      ∃ a k f, res = .ok a ∧ post k f a ∧ k ⊆ K.known s' ∧ f ⊆ K.free s' := by
  induction p generalizing known free d s with
  | ret a =>
      obtain ⟨rfl, rfl⟩ : .ok a = res ∧ s = s' := by simpa using hrun
      refine ⟨⟨hinv, subset_refl _, subset_refl _, fun x hx => .inl hx, fun x hx => .inl hx⟩,
        fun x hx => .inr (hfree (h.1 x hx)), a, known, free, rfl, h.2, hknown, hfree⟩
  | raise e => exact absurd h not_false
  | call c k ih =>
      obtain ⟨hpre, hdebt, hk⟩ := h
      rcases hi : interp c e s with _ | ⟨r₀, t⟩
      · simp [Prog.run, hi] at hrun
      obtain ⟨r, rfl, hok, hinv', hkn, hfr, hreads, hfrees, hholds, hgives, htracked⟩ :=
        K.spec hinv (K.pre_mono hknown hfree hpre) hi
      rw [Prog.run_call hi] at hrun
      obtain ⟨hkeeps, htaken, a, k', f', ha, hpost, hk', hf'⟩ := ih r (hk r hok) hinv'
        (Set.union_subset (hknown.trans hkn) hreads) (Set.union_subset (hfree.trans hfr) hfrees)
        hrun
      -- An item held before the first command is held after it, or taken, and then put back.
      have hlater : ∀ x, K.holds t x ∨ x ∈ K.free t → K.holds s' x ∨ x ∈ K.free s' := by
        rintro x (hx | hx)
        · exact hkeeps.holds x hx
        · exact .inr (hkeeps.free hx)
      refine ⟨⟨hkeeps.inv, hkn.trans hkeeps.known, hfr.trans hkeeps.free, fun x hx => ?_,
        fun x hx => ?_⟩, fun x hx => ?_, a, k', f', ha, hpost, hk', hf'⟩
      · rcases hholds x hx with hx' | hx' | hx'
        · exact hlater x (.inl hx')
        · exact htaken x hx'
        · exact hlater x (.inr hx')
      · rcases hkeeps.tracked x hx with hx' | hx'
        · rcases htracked x hx' with hx'' | hx''
          · exact .inl hx''
          · exact .inr (hlater x hx'')
        · exact .inr hx'
      · rcases hdebt x hx with hx' | hx'
        · exact .inr (hkeeps.free (hfr (hfree hx')))
        · exact hlater x (.inl (hgives x hx'))

/-! ### Programs that interleave -/

/-- The program is about to put an item back: its next command gives it to the store. -/
def Carries (K : Custody interp I) (x : I) : Prog C R ε α → Prop
  | .call c _ => K.gives c = some x
  | _ => False

variable {ι Q : Type*} [DecidableEq ι] {body : Q → Prog C R ε α}

/-- Some live process is about to put the item back. -/
def Carried (K : Custody interp I) (s : Pool ι Q (Prog C R ε α) σ) (x : I) : Prop :=
  ∃ i q p, s.calls i = some (q, p) ∧ K.Carries x p

/-- Every tracked item is held, carried by a live process, or released. -/
structure Covered (K : Custody interp I) (post : Q → Set I → Set I → α → Prop)
    (s : Pool ι Q (Prog C R ε α) σ) : Prop where
  inv : K.inv s.store
  settles : ∀ i q p, s.calls i = some (q, p) → ∃ known free d,
    known ⊆ K.known s.store ∧ free ⊆ K.free s.store ∧ K.Settles p known free d (post q)
  covered : ∀ x ∈ K.known s.store, K.holds s.store x ∨ K.Carried s x ∨ x ∈ K.free s.store

/-- When a process dies, every item that it carries is released, held by the store, or
carried by another process. -/
def DiesClean (K : Custody interp I) (s : Pool ι Q (Prog C R ε α) σ) :
    PoolAction ι Q E → Prop
  | .die i => ∀ q p x, s.calls i = some (q, p) → K.Carries x p → x ∈ K.known s.store →
      K.holds s.store x ∨ x ∈ K.free s.store ∨
        ∃ j q' p', j ≠ i ∧ s.calls j = some (q', p') ∧ K.Carries x p'
  | _ => True

/-- A program in debt carries what it owes. -/
lemma Settles.carries (h : K.Settles p known free d post) {x : I} (hx : d = some x) :
    K.Carries x p ∨ x ∈ free := by
  cases p with
  | ret a => exact .inr (h.1 x hx)
  | raise e => exact absurd h not_false
  | call c k => exact (h.2.1 x hx).symm

lemma Carried.update {s : Pool ι Q (Prog C R ε α) σ} {t : σ} {i : ι}
    {call : Option (Q × Prog C R ε α)} {x : I}
    (h : ∃ j q p, j ≠ i ∧ s.calls j = some (q, p) ∧ K.Carries x p) :
    K.Carried ⟨t, Function.update s.calls i call⟩ x := by
  obtain ⟨j, q, p, hj, hp, hx⟩ := h
  exact ⟨j, q, p, by simpa [hj] using hp, hx⟩

/-- **One step of the pool keeps every item covered**, unless it kills the only process
that has one. -/
theorem Covered.next {post : Q → Set I → Set I → α → Prop}
    {s t : Pool ι Q (Prog C R ε α) σ} {a : PoolAction ι Q E}
    (hbody : ∀ q, K.Settles (body q) ∅ ∅ none (post q)) (h : K.Covered post s)
    (hdie : K.DiesClean s a) (hstep : Pool.next interp body s a = some t) :
    K.Covered post t := by
  rcases Pool.next_cases hstep with ⟨i, q, rfl, hi, rfl⟩ |
    ⟨i, e, q, c, k, p', t, rfl, hi, rfl, hcmd⟩ | ⟨i, q, p, rfl, hi, rfl⟩
  · refine ⟨h.inv, fun j q' p' hj => ?_, fun x hx => ?_⟩
    · by_cases hji : j = i
      · subst hji
        obtain ⟨rfl, rfl⟩ : q = q' ∧ body q = p' := by simpa using hj
        exact ⟨∅, ∅, none, Set.empty_subset _, Set.empty_subset _, hbody q⟩
      · exact h.settles j q' p' (by simpa [hji] using hj)
    · refine (h.covered x hx).imp_right (Or.imp_left ?_)
      rintro ⟨j, q', p', hj, hxp⟩
      have hji : j ≠ i := by
        rintro rfl
        simp [hi] at hj
      exact Carried.update ⟨j, q', p', hji, hj, hxp⟩
  · obtain ⟨known, free, d, hknown, hfree, hpre, hdebt, hk⟩ := h.settles i q _ hi
    have hpre' := K.pre_mono hknown hfree hpre
    -- The spec of the command excludes an exception.
    obtain ⟨r, hres, rfl⟩ : ∃ r, interp c e s.store = some (.ok r, t) ∧ p' = k r := by
      rcases hcmd with ⟨x, hres, -⟩ | hok
      · obtain ⟨r, hr, -⟩ := K.spec h.inv hpre' hres
        exact absurd hr (by simp)
      · exact hok
    obtain ⟨r', hr', hok, hinv, hkn, hfr, hreads, hfrees, hholds, hgives, htracked⟩ :=
      K.spec h.inv hpre' hres
    obtain rfl : r = r' := by simpa using hr'
    have hsettles := hk r hok
    refine ⟨hinv, fun j q' p' hj => ?_, fun x hx => ?_⟩
    · by_cases hji : j = i
      · subst hji
        obtain ⟨rfl, rfl⟩ : q = q' ∧ k r = p' := by simpa using hj
        exact ⟨_, _, _, Set.union_subset (hknown.trans hkn) hreads,
          Set.union_subset (hfree.trans hfr) hfrees, hsettles⟩
      · obtain ⟨known', free', d', hknown', hfree', hset⟩ :=
          h.settles j q' p' (by simpa [hji] using hj)
        exact ⟨known', free', d', hknown'.trans hkn, hfree'.trans hfr, hset⟩
    · rcases htracked x hx with hxs | hxt
      · rcases h.covered x hxs with hx' | ⟨j, q', p', hj, hxp⟩ | hx'
        · rcases hholds x hx' with hxt | htake | hxt
          · exact .inl hxt
          · rcases hsettles.carries htake with hcarry | hxf
            · exact .inr (.inl ⟨i, q, k r, by simp, hcarry⟩)
            · exact .inr (.inr (Set.union_subset (hfree.trans hfr) hfrees hxf))
          · exact .inr (.inr hxt)
        · by_cases hji : j = i
          · subst hji
            obtain ⟨rfl, rfl⟩ : q = q' ∧ .call c k = p' := by simpa [hi] using hj
            exact .inl (hgives x hxp)
          · exact .inr (.inl (Carried.update ⟨j, q', p', hji, hj, hxp⟩))
        · exact .inr (.inr (hfr hx'))
      · exact hxt.imp_right .inr
  · refine ⟨h.inv, fun j q' p' hj => ?_, fun x hx => ?_⟩
    · have hji : j ≠ i := by
        rintro rfl
        simp at hj
      exact h.settles j q' p' (by simpa [hji] using hj)
    · rcases h.covered x hx with hx' | ⟨j, q', p', hj, hxp⟩ | hx'
      · exact .inl hx'
      · by_cases hji : j = i
        · subst hji
          rcases hdie q' p' x hj hxp hx with hx' | hx' | hx'
          · exact .inl hx'
          · exact .inr (.inr hx')
          · exact .inr (.inl (Carried.update hx'))
        · exact .inr (.inl (Carried.update ⟨j, q', p', hji, hj, hxp⟩))
      · exact .inr (.inr hx')

/-- **Every run keeps every item covered** in which no process dies that is the only one to
have an item. -/
theorem covered_run {post : Q → Set I → Set I → α → Prop} {s₀ : σ}
    (hbody : ∀ q, K.Settles (body q) ∅ ∅ none (post q)) (hinv : K.inv s₀)
    (h₀ : ∀ x ∈ K.known s₀, K.holds s₀ x ∨ x ∈ K.free s₀) {as : List (PoolAction ι Q E)}
    {t : Pool ι Q (Prog C R ε α) σ}
    (hdie : Along (Pool.next interp body) K.DiesClean (Pool.initial s₀) as)
    (hrun : exec (Pool.next interp body) (Pool.initial s₀) as = some t) : K.Covered post t := by
  have hinit : K.Covered post (Pool.initial s₀ : Pool ι Q (Prog C R ε α) σ) :=
    ⟨hinv, fun i q p hi => by simp [Pool.initial] at hi,
      fun x hx => (h₀ x hx).imp_right .inr⟩
  exact exec_invariant_along (fun s a t hs hG hst => hs.next hbody hG hst) hinit hdie hrun

/-! ### Two granularities -/

section Lift

variable {C' : Type u} {R' : C' → Type u} {f : (o : C') → Prog C R ε (R' o)}

/-- The custody of operations that are programs themselves, when they run as atomic steps:
each operation settles its own debts, so none is left between two operations. -/
def lift (K : Custody interp I) (pre : Set I → Set I → C' → Prop) (ok : (o : C') → R' o → Prop)
    (reads frees : (o : C') → R' o → Set I)
    (pre_mono : ∀ {known known' free free' o}, known ⊆ known' → free ⊆ free' →
      pre known free o → pre known' free' o)
    (settles : ∀ known free o, pre known free o → K.Settles (f o) known free none
      fun k f' r => ok o r ∧ reads o r ⊆ k ∧ frees o r ⊆ f') :
    Custody (Prog.atomically f interp) I where
  inv := K.inv
  known := K.known
  free := K.free
  holds := K.holds
  pre := pre
  ok := ok
  reads := reads
  frees := frees
  takes _ _ := none
  gives _ := none
  pre_mono := pre_mono
  spec := by
    intro o e s res s' hinv hpre hrun
    obtain ⟨hkeeps, -, r, k, f', hr, ⟨hok, hreads, hfrees⟩, hk, hf'⟩ :=
      settles_run (settles _ _ o hpre) hinv (subset_refl _) (subset_refl _) hrun
    refine ⟨r, hr, hok, hkeeps.inv, hkeeps.known, hkeeps.free, hreads.trans hk,
      hfrees.trans hf', fun x hx => ?_, fun x hx => absurd hx (by simp), hkeeps.tracked⟩
    exact (hkeeps.holds x hx).imp_right .inr

/-- A program over operations settles its debts when every operation is replaced by its
commands. -/
lemma Settles.expand {K : Custody interp I} {pre ok reads frees pre_mono settles}
    {p : Prog C' R' ε α}
    (h : (K.lift (f := f) pre ok reads frees pre_mono settles).Settles p known free none post)
    (hpost : ∀ k k' f f' a, k ⊆ k' → f ⊆ f' → post k f a → post k' f' a) :
    K.Settles (p.expand f) known free none post := by
  induction p generalizing known free with
  | ret a => exact h
  | raise e => exact h
  | call o k ih =>
      refine ((settles known free o h.1).weaken fun k₁ f₁ r hk hf hp =>
        And.intro hk (And.intro hf hp)).bind fun k₁ f₁ r hr => ?_
      obtain ⟨hk₁, hf₁, hok, hreads, hfrees⟩ := hr
      exact (ih r (h.2.2 r hok)).mono (Set.union_subset hk₁ hreads) (Set.union_subset hf₁ hfrees)
        fun k k' f₂ f' a _ hkk _ hff hp => hpost k k' f₂ f' a hkk hff hp

end Lift

end Custody

end StarterBackend.Lib

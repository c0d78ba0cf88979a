/-
Programs that move values from one part of a store to another.

A command of a ledger takes values out of the store into the hands of the program that
issued it, or gives values to the store.  What is in the store and what is in the hands
of the programs together is always the same: no value is lost or made on its way, in
whatever order the commands of the programs interleave, and several programs may go for
the same value.  A program is balanced when it has given everything that it has taken
as soon as it returns (`Ledger.Balanced`), and when all of a pool of balanced programs
have returned, the store has all the values again (`Ledger.settled_run`).
-/
import StarterBackend.Lib.Program
import Mathlib.Algebra.BigOperators.Group.Finset.Piecewise
import Mathlib.Tactic.Abel

namespace StarterBackend.Lib

universe u

variable {C : Type u} {R : C → Type u} {ε α : Type u} {σ E ι Q V : Type*}

/-- What the commands of an interpretation take out of a store and give to it. -/
structure Ledger (interp : Prog.Interp C R ε σ E) (V : Type*) where
  /-- What holds of every store. -/
  inv : σ → Prop
  /-- All the values of a store. -/
  stock : σ → Multiset V
  /-- The part of the store that receives what the programs give. -/
  received : σ → Multiset V
  /-- The commands that the programs may issue. -/
  allowed : C → Prop
  /-- The replies that can occur. -/
  ok : (c : C) → R c → Prop
  takes : (c : C) → R c → Multiset V
  gives : C → Multiset V
  spec : ∀ {c e s x t}, allowed c → inv s → interp c e s = some (x, t) →
    ∃ r, x = .ok r ∧ ok c r ∧ inv t ∧ stock t + takes c r = stock s + gives c ∧
      received t = received s + gives c

namespace Ledger

variable {interp : Prog.Interp C R ε σ E} (L : Ledger interp V)

/-- The program, which has given `given` so far and has `hand` in its hands, ends with empty hands
and with a result that agrees with all that it has given. -/
def Balanced (post : Multiset V → α → Prop) :
    Prog C R ε α → Multiset V → Multiset V → Prop
  | .ret a, given, hand => hand = 0 ∧ post given a
  | .raise _, _, _ => False
  | .call c k, given, hand => L.allowed c ∧ ∀ r, L.ok c r →
      ∃ hand', hand' + L.gives c = hand + L.takes c r ∧
        Balanced post (k r) (given + L.gives c) hand'

variable {L} {post : Multiset V → α → Prop} {c : C} {k : R c → Prog C R ε α}
  {given hand : Multiset V}

/-- The rule for a command that moves nothing. -/
lemma balanced_read (hc : L.allowed c) (hgives : L.gives c = 0)
    (h : ∀ r, L.ok c r → L.takes c r = 0 ∧ L.Balanced post (k r) given hand) :
    L.Balanced post (.call c k) given hand := by
  refine ⟨hc, fun r hr => ⟨hand, ?_, ?_⟩⟩
  · rw [hgives, (h r hr).1]
  · rw [hgives, add_zero]
    exact (h r hr).2

variable [DecidableEq ι] (L) (body : Q → Prog C R ε α)

/-- What a step gives to the store, and who does it. -/
def observe (s : Pool ι Q (Prog C R ε α) σ) : PoolAction ι Q E → Option (ι × Multiset V)
  | .step i _ => (s.calls i).bind fun call => call.2.command.map fun c => (i, L.gives c)
  | _ => none

/-- What a process has given in a run. -/
def givenBy (s₀ : σ) (as : List (PoolAction ι Q E)) (i : ι) : Multiset V :=
  (((observed (Pool.next interp body) L.observe (Pool.initial s₀) as).filter
    fun x => x.1 = i).map Prod.snd).sum

variable {L body} {s₀ : σ} {as : List (PoolAction ι Q E)} {s t : Pool ι Q (Prog C R ε α) σ}
  {a : PoolAction ι Q E}

lemma givenBy_append (h : exec (Pool.next interp body) (Pool.initial s₀) as = some s) (i : ι) :
    L.givenBy body s₀ (as ++ [a]) i = L.givenBy body s₀ as i +
      (((L.observe s a).toList.filter fun x => x.1 = i).map Prod.snd).sum := by
  rw [givenBy, observed_append_singleton h, List.filter_append, List.map_append, List.sum_append]
  rfl

lemma sum_update_add {M : Type*} [AddCommMonoid M] [Fintype ι] (f : ι → M) (i : ι) (b : M) :
    ∑ j, Function.update f i b j + f i = ∑ j, f j + b := by
  rw [Finset.sum_update_of_mem (Finset.mem_univ i),
    Finset.sum_eq_sum_sdiff_singleton_add (Finset.mem_univ i) f]
  abel

omit [DecidableEq ι] in
/-- What is in the store and in all hands, when one hand and the store change. -/
lemma stock_step {before after initial takes gives hand hand' total total' : Multiset V}
    (hstock : after + takes = before + gives) (hmoved : hand' + gives = hand + takes)
    (hall : before + total = initial) (htotal : total' + hand = total + hand') :
    after + total' = initial := by
  classical
  ext v
  have h₁ := congrArg (Multiset.count v) hstock
  have h₂ := congrArg (Multiset.count v) hmoved
  have h₃ := congrArg (Multiset.count v) hall
  have h₄ := congrArg (Multiset.count v) htotal
  simp only [Multiset.count_add] at h₁ h₂ h₃ h₄ ⊢
  omega

/-- What all processes have given and have in their hands. -/
structure Books (L : Ledger interp V) (body : Q → Prog C R ε α)
    (post : Q → Multiset V → α → Prop) [Fintype ι] (s₀ : σ) (as : List (PoolAction ι Q E))
    (s : Pool ι Q (Prog C R ε α) σ) (hand : ι → Multiset V) : Prop where
  inv : L.inv s.store
  balanced : ∀ i q p, s.calls i = some (q, p) →
    L.Balanced (post q) p (L.givenBy body s₀ as i) (hand i)
  idle : ∀ i, s.calls i = none → hand i = 0 ∧ L.givenBy body s₀ as i = 0
  stock : L.stock s.store + ∑ i, hand i = L.stock s₀
  received : L.received s.store = L.received s₀ + ∑ i, L.givenBy body s₀ as i

variable [Fintype ι] {post : Q → Multiset V → α → Prop}

/-- **The books are kept**, as long as no process dies. -/
theorem books_run (hbody : ∀ q, L.Balanced (post q) (body q) 0 0) (hinv : L.inv s₀)
    (hdie : ∀ i, .die i ∉ as) (h : exec (Pool.next interp body) (Pool.initial s₀) as = some t) :
    ∃ hand, Books L body post s₀ as t hand := by
  induction as using List.reverseRecOn generalizing t with
  | nil =>
      obtain rfl : Pool.initial s₀ = t := by simpa using h
      refine ⟨fun _ => 0, hinv, fun i q p hi => by simp at hi, fun i _ => ⟨rfl, rfl⟩, ?_, ?_⟩
      · simp [Pool.initial]
      · simp [givenBy, observed, Pool.initial]
  | append_singleton as a ih =>
      obtain ⟨s, hs, ha⟩ := exec_append_eq_some.1 h
      obtain ⟨t', hstep, heq⟩ := exec_cons_eq_some.1 ha
      obtain rfl : t' = t := by simpa using heq
      have hdie' : ∀ i, .die i ∉ as := fun i hi => hdie i (List.mem_append_left _ hi)
      obtain ⟨hand, hbooks⟩ := ih hdie' hs
      have happend := fun i => givenBy_append (L := L) (a := a) hs i
      rcases Pool.next_cases hstep with ⟨i, q, rfl, hi, rfl⟩ |
        ⟨i, e, q, c, k, p', w, rfl, hi, rfl, hcmd⟩ | ⟨i, q, p, rfl, hi, rfl⟩
      · have hgiven : ∀ j, L.givenBy body s₀ (as ++ [.start i q]) j = L.givenBy body s₀ as j := by
          intro j
          rw [happend j]
          simp [observe]
        refine ⟨hand, hbooks.inv, fun j q' p' hj => ?_, fun j hj => ?_, hbooks.stock, ?_⟩
        · rw [hgiven j]
          rcases eq_or_ne j i with rfl | hne
          · obtain ⟨rfl, rfl⟩ := Prod.mk.inj (Option.some.inj
              ((Function.update_self j _ s.calls).symm.trans hj))
            rw [(hbooks.idle j hi).1, (hbooks.idle j hi).2]
            exact hbody q
          · exact hbooks.balanced j q' p' ((Function.update_of_ne hne _ s.calls).symm.trans hj)
        · rw [hgiven j]
          rcases eq_or_ne j i with rfl | hne
          · simp at hj
          · exact hbooks.idle j ((Function.update_of_ne hne _ s.calls).symm.trans hj)
        · simp only [hgiven]
          exact hbooks.received
      · have hgiven : ∀ j, L.givenBy body s₀ (as ++ [.step i e]) j =
            L.givenBy body s₀ as j + if j = i then L.gives c else 0 := by
          intro j
          rw [happend j]
          by_cases hji : j = i
          · simp [observe, hi, Prog.command, hji]
          · simp [observe, hi, Prog.command, hji, Ne.symm hji]
        obtain ⟨hallowed, hreplies⟩ := hbooks.balanced i q _ hi
        -- no command of the ledger raises an exception
        obtain ⟨r, hexec, rfl⟩ : ∃ r, interp c e s.store = some (.ok r, w) ∧ p' = k r := by
          rcases hcmd with ⟨x, hexec, -⟩ | ⟨r, hexec, hp'⟩
          · obtain ⟨r, hr, -⟩ := L.spec hallowed hbooks.inv hexec
            cases hr
          · exact ⟨r, hexec, hp'⟩
        obtain ⟨r', hr', hok, hinv', hstock, hreceived⟩ := L.spec hallowed hbooks.inv hexec
        obtain rfl := Except.ok.inj hr'
        obtain ⟨hand', hmoved, hbalanced⟩ := hreplies r hok
        refine ⟨Function.update hand i hand', hinv', fun j q' p' hj => ?_, fun j hj => ?_, ?_, ?_⟩
        · rw [hgiven j]
          rcases eq_or_ne j i with rfl | hne
          · obtain ⟨rfl, rfl⟩ := Prod.mk.inj (Option.some.inj
              ((Function.update_self j _ s.calls).symm.trans hj))
            rw [if_pos rfl, Function.update_self]
            exact hbalanced
          · rw [if_neg hne, add_zero, Function.update_of_ne hne]
            exact hbooks.balanced j q' p' ((Function.update_of_ne hne _ s.calls).symm.trans hj)
        · rcases eq_or_ne j i with rfl | hne
          · simp at hj
          · rw [hgiven j, if_neg hne, add_zero, Function.update_of_ne hne]
            exact hbooks.idle j ((Function.update_of_ne hne _ s.calls).symm.trans hj)
        · exact stock_step hstock hmoved hbooks.stock (sum_update_add hand i hand')
        · have hsum : ∑ j, L.givenBy body s₀ (as ++ [.step i e]) j =
              ∑ j, L.givenBy body s₀ as j + L.gives c := by
            simp only [hgiven, Finset.sum_add_distrib, Finset.sum_ite_eq', Finset.mem_univ, if_true]
          rw [hsum, ← add_assoc, ← hbooks.received]
          exact hreceived
      · exact absurd (List.mem_append_right as (List.mem_singleton_self _)) (hdie i)

/-- **When all programs have returned**, the store has all its values, and every result agrees with
what its program has given. -/
theorem settled_run (hbody : ∀ q, L.Balanced (post q) (body q) 0 0) (hinv : L.inv s₀)
    (hdie : ∀ i, .die i ∉ as) (h : exec (Pool.next interp body) (Pool.initial s₀) as = some t)
    (hend : ∀ i q p, t.calls i = some (q, p) → p.command = none) :
    L.inv t.store ∧ L.stock t.store = L.stock s₀ ∧
      L.received t.store = L.received s₀ + ∑ i, L.givenBy body s₀ as i ∧
      (∀ i q p, t.calls i = some (q, p) →
        ∃ a, p = .ret a ∧ post q (L.givenBy body s₀ as i) a) ∧
      ∀ i, t.calls i = none → L.givenBy body s₀ as i = 0 := by
  obtain ⟨hand, hbooks⟩ := books_run hbody hinv hdie h
  have hreturned : ∀ i q p, t.calls i = some (q, p) →
      hand i = 0 ∧ ∃ a, p = .ret a ∧ post q (L.givenBy body s₀ as i) a := by
    intro i q p hi
    have hbalanced := hbooks.balanced i q p hi
    have hnone := hend i q p hi
    cases p with
    | ret a => exact ⟨hbalanced.1, a, rfl, hbalanced.2⟩
    | raise x => exact hbalanced.elim
    | call c k => simp [Prog.command] at hnone
  have hempty : ∀ i, hand i = 0 := by
    intro i
    rcases hi : t.calls i with _ | ⟨q, p⟩
    · exact (hbooks.idle i hi).1
    · exact (hreturned i q p hi).1
  refine ⟨hbooks.inv, ?_, hbooks.received, fun i q p hi => (hreturned i q p hi).2,
    fun i hi => (hbooks.idle i hi).2⟩
  have hstock := hbooks.stock
  simpa [hempty] using hstock

end Ledger

end StarterBackend.Lib

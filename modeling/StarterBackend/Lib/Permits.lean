/-
Programs that need a permit for what they do.

Some command of a program asks for a permit, and its reply says whether it was granted.
Another command uses the permit up.  A program is licensed when it uses only a permit
that it has been granted since its last use (`Prog.Licensed`).  In a run of a pool of
licensed programs every use of a process comes directly after a grant to this process,
among its grants, its uses and its starts (`Permits.uses_after_grants`): a grant allows
one use, and none after the process has died.
-/
import StarterBackend.Lib.Program

namespace StarterBackend.Lib

universe u v

variable {C : Type u} {R : C → Type u} {ε : Type u} {σ E ι Q : Type*}

/-- What grants permits, and what uses them. -/
structure Permits (interp : Prog.Interp C R ε σ E) where
  /-- The command, with this input and on this store, grants a permit. -/
  grants : C → E → σ → Bool
  /-- The reply says that a permit was granted. -/
  granted : (c : C) → R c → Bool
  uses : C → Bool
  grants_of_granted : ∀ {c e s r t}, interp c e s = some (.ok r, t) → granted c r = true →
    grants c e s = true

namespace Permits

section Licensed

variable {interp : Prog.Interp C R ε σ E} (L : Permits interp) {α β : Type v}

/-- The program, which has a permit if `permit`, uses only permits that it was granted. -/
def Licensed : Bool → Prog C R ε α → Prop
  | _, .ret _ => True
  | _, .raise _ => True
  | permit, .call c k => (L.uses c = true → permit = true) ∧
      ∀ r, Licensed (!L.uses c && (L.granted c r || permit)) (k r)

variable {L} {p : Prog C R ε α}

/-- A permit that is not needed does no harm. -/
lemma Licensed.mono {permit permit' : Bool} (h : L.Licensed permit p)
    (hp : permit = true → permit' = true) : L.Licensed permit' p := by
  induction p generalizing permit permit' with
  | ret a => trivial
  | raise x => trivial
  | call c k ih =>
      refine ⟨fun huses => hp (h.1 huses), fun r => ih r (h.2 r) fun hpermit => ?_⟩
      obtain ⟨hunused, hsome⟩ := Bool.and_eq_true_iff.1 hpermit
      rcases Bool.or_eq_true_iff.1 hsome with hgranted | hold
      · simp [hunused, hgranted]
      · simp [hunused, hp hold]

/-- The rule for a command that neither grants nor uses a permit. -/
lemma licensed_call {permit : Bool} {c : C} {k : R c → Prog C R ε α} (huses : L.uses c = false)
    (h : ∀ r, L.Licensed permit (k r)) : L.Licensed permit (.call c k) := by
  refine ⟨fun htrue => absurd (huses.symm.trans htrue) Bool.false_ne_true, fun r => ?_⟩
  exact (h r).mono fun hpermit => by simp [hpermit, huses]

/-- Programs that are licensed with no permit can follow each other. -/
lemma Licensed.bind {permit : Bool} {f : α → Prog C R ε β} (hp : L.Licensed permit p)
    (hf : ∀ a, L.Licensed false (f a)) : L.Licensed permit (p.bind f) := by
  induction p generalizing permit with
  | ret a => exact (hf a).mono fun h => absurd h Bool.false_ne_true
  | raise x => trivial
  | call c k ih => exact ⟨hp.1, fun r => ih r (hp.2 r)⟩

lemma Licensed.tryFinally {permit : Bool} {cleanup : Prog C R ε PUnit.{v + 1}}
    (hp : L.Licensed permit p) (hcleanup : L.Licensed false cleanup) :
    L.Licensed permit (p.tryFinally cleanup) := by
  have hend : ∀ (permit : Bool) (q : Prog C R ε α), (∀ b, L.Licensed b q) →
      L.Licensed permit (cleanup.bind fun _ => q) := by
    intro permit q hq
    exact (hcleanup.bind fun _ => hq false).mono fun h => absurd h Bool.false_ne_true
  induction p generalizing permit with
  | ret a => exact hend permit _ fun _ => trivial
  | raise x => exact hend permit _ fun _ => trivial
  | call c k ih => exact ⟨hp.1, fun r => ih r (hp.2 r)⟩

lemma licensed_getOrRaise {permit : Bool} {x : ε} {a : Option α} :
    L.Licensed permit (Prog.getOrRaise x a) := by
  cases a <;> trivial

end Licensed

/-! ### Runs -/

/-- What happens to the permits of a process. -/
inductive Mark where
  | started
  | granted
  | used
deriving DecidableEq

section Runs

variable [DecidableEq ι] {α : Type u} {interp : Prog.Interp C R ε σ E} (L : Permits interp)
  (body : Q → Prog C R ε α)

/-- The mark of a command. -/
def mark (c : C) (e : E) (s : σ) : Option Mark :=
  if L.uses c then some .used else if L.grants c e s then some .granted else none

/-- The mark of a step, and whose it is. -/
def observe (s : Pool ι Q (Prog C R ε α) σ) : PoolAction ι Q E → Option (ι × Mark)
  | .start i _ => some (i, .started)
  | .step i e => (s.calls i).bind fun call => call.2.command.bind fun c =>
      (L.mark c e s.store).map fun m => (i, m)
  | .die _ => none

/-- The marks of one process in a run. -/
def marksOf (s₀ : σ) (as : List (PoolAction ι Q E)) (i : ι) : List Mark :=
  ((observed (Pool.next interp body) L.observe (Pool.initial s₀) as).filter
    fun x => x.1 = i).map Prod.snd

/-- Every use comes directly after a grant. -/
def UsesFollowGrants (marks : List Mark) : Prop :=
  ∀ before after, marks = before ++ .used :: after → before.getLast? = some .granted

lemma usesFollowGrants_append_singleton {marks : List Mark} {m : Mark} (h : UsesFollowGrants marks)
    (hm : m = .used → marks.getLast? = some .granted) : UsesFollowGrants (marks ++ [m]) := by
  intro before after heq
  rcases List.eq_nil_or_concat after with rfl | ⟨after, x, rfl⟩
  · obtain ⟨rfl, hused⟩ := List.append_inj' heq rfl
    exact hm (List.singleton_inj.1 hused)
  · rw [List.concat_eq_append, ← List.cons_append, ← List.append_assoc] at heq
    exact h before after (List.append_inj' heq rfl).1

variable {L body} {s₀ : σ} {as : List (PoolAction ι Q E)} {s t : Pool ι Q (Prog C R ε α) σ}
  {a : PoolAction ι Q E}

lemma marksOf_append (h : exec (Pool.next interp body) (Pool.initial s₀) as = some s) (i : ι) :
    L.marksOf body s₀ (as ++ [a]) i = L.marksOf body s₀ as i ++
      (((L.observe s a).toList.filter fun x => x.1 = i).map Prod.snd) := by
  rw [marksOf, observed_append_singleton h, List.filter_append, List.map_append]
  rfl

/-- The last mark of a process is a grant. -/
def hasPermit (marks : List Mark) : Bool := marks.getLast? == some .granted

/-- **Uses come after grants**: in a run of licensed programs, every use of a process comes directly
after a grant to it. -/
theorem uses_after_grants (hbody : ∀ q, L.Licensed false (body q))
    (h : exec (Pool.next interp body) (Pool.initial s₀) as = some t) (i : ι) :
    UsesFollowGrants (L.marksOf body s₀ as i) := by
  have hinv : ∀ i, UsesFollowGrants (L.marksOf body s₀ as i) ∧ ∀ q p, t.calls i = some (q, p) →
      L.Licensed (hasPermit (L.marksOf body s₀ as i)) p := by
    refine exec_induction (P := fun as t => ∀ i, UsesFollowGrants (L.marksOf body s₀ as i) ∧
      ∀ q p, t.calls i = some (q, p) → L.Licensed (hasPermit (L.marksOf body s₀ as i)) p)
      (fun i => ⟨fun before after heq => ?_, fun q p hi => by simp at hi⟩)
      (fun as s a t has hs hstep i => ?_) h
    · have hlength := congrArg List.length heq
      simp [marksOf, observed] at hlength
    · obtain ⟨hfollow, hlicensed⟩ := hs i
      have happend := marksOf_append (L := L) (a := a) has i
      rcases Pool.next_cases hstep with ⟨j, q, rfl, hj, rfl⟩ |
        ⟨j, e, q, c, k, p', w, rfl, hj, rfl, hcmd⟩ | ⟨j, q, p, rfl, hj, rfl⟩
      · rcases eq_or_ne i j with rfl | hij
        · have hmarks : L.marksOf body s₀ (as ++ [.start i q]) i =
              L.marksOf body s₀ as i ++ [.started] := by
            rw [happend]
            simp [observe]
          rw [hmarks]
          refine ⟨usesFollowGrants_append_singleton hfollow (fun hm => by cases hm),
            fun q' p' hi => ?_⟩
          obtain ⟨rfl, rfl⟩ := Prod.mk.inj (Option.some.inj
            ((Function.update_self i _ s.calls).symm.trans hi))
          exact (hbody q).mono fun hfalse => by cases hfalse
        · have hmarks : L.marksOf body s₀ (as ++ [.start j q]) i = L.marksOf body s₀ as i := by
            rw [happend]
            simp [observe, Ne.symm hij]
          rw [hmarks]
          exact ⟨hfollow, fun q' p' hi =>
            hlicensed q' p' ((Function.update_of_ne hij _ s.calls).symm.trans hi)⟩
      · rcases eq_or_ne i j with rfl | hij
        · have hmarks : L.marksOf body s₀ (as ++ [.step i e]) i =
              L.marksOf body s₀ as i ++ (L.mark c e s.store).toList := by
            rw [happend]
            cases hmark : L.mark c e s.store <;> simp [observe, hj, Prog.command, hmark]
          obtain ⟨huse, hreplies⟩ := hlicensed q _ hj
          rw [hmarks]
          refine ⟨?_, fun q' p'' hi => ?_⟩
          · cases hmark : L.mark c e s.store with
            | none => simpa using hfollow
            | some m =>
                refine usesFollowGrants_append_singleton hfollow fun hm => ?_
                have huses : L.uses c = true := by
                  by_contra hnot
                  rw [mark, if_neg hnot] at hmark
                  split_ifs at hmark
                  obtain rfl := Option.some.inj hmark
                  cases hm
                simpa [hasPermit] using huse huses
          · obtain ⟨rfl, rfl⟩ := Prod.mk.inj (Option.some.inj
              ((Function.update_self i _ s.calls).symm.trans hi))
            rcases hcmd with ⟨x, -, rfl⟩ | ⟨r, hexec, rfl⟩
            · trivial
            · -- the permit that the program counts on is its last mark
              refine (hreplies r).mono fun hpermit => ?_
              obtain ⟨hunused, hsome⟩ := Bool.and_eq_true_iff.1 hpermit
              have huses : L.uses c = false := by simpa using hunused
              rcases Bool.or_eq_true_iff.1 hsome with hgranted | hold
              · simp [mark, huses, L.grants_of_granted hexec hgranted, hasPermit]
              · by_cases hgrants : L.grants c e s.store = true
                · simp [mark, huses, hgrants, hasPermit]
                · simpa [mark, huses, hgrants] using hold
        · have hmarks : L.marksOf body s₀ (as ++ [.step j e]) i = L.marksOf body s₀ as i := by
            rw [happend]
            cases hmark : L.mark c e s.store <;>
              simp [observe, hj, Prog.command, hmark, Ne.symm hij]
          rw [hmarks]
          exact ⟨hfollow, fun q' p' hi =>
            hlicensed q' p' ((Function.update_of_ne hij _ s.calls).symm.trans hi)⟩
      · have hmarks : L.marksOf body s₀ (as ++ [.die j]) i = L.marksOf body s₀ as i := by
          rw [happend]
          simp [observe]
        rw [hmarks]
        refine ⟨hfollow, fun q' p' hi => ?_⟩
        rcases eq_or_ne i j with rfl | hij
        · simp at hi
        · exact hlicensed q' p' ((Function.update_of_ne hij _ s.calls).symm.trans hi)
  exact (hinv i).1

end Runs

end Permits

end StarterBackend.Lib

/-
What holds at every point of a program at which it may stop.

A program is advanced by some of its commands, one for each input, and stops there: its
process has died, or the last command has raised an exception.  `Always` says that an
assertion holds wherever that happens, and another one where the program returns; it is
found command by command, and a sequence has it from its parts (`Always.bind`).
-/
import StarterBackend.Lib.Program

namespace StarterBackend.Lib

universe u

variable {C : Type u} {R : C → Type u} {ε α β : Type u} {σ E : Type*}

namespace Prog

/-- Execute one command for each input. -/
def advance (interp : Interp C R ε σ E) : List E → Prog C R ε α → σ → Option (Prog C R ε α × σ)
  | [], p, s => some (p, s)
  | e :: es, p, s => (p.step interp e s).bind fun x => advance interp es x.1 x.2

/-- `I` holds at every point of the program, and `post` where it returns, if its inputs meet `G`. -/
def Always (interp : Interp C R ε σ E) (G : E → Prop) (I : σ → Prop) (post : α → σ → Prop) :
    Prog C R ε α → σ → Prop
  | .ret a, s => I s ∧ post a s
  | .raise _, s => I s
  | .call c k, s => I s ∧ ∀ e x t, G e → interp c e s = some (x, t) →
      I t ∧ ∀ r, x = .ok r → Always interp G I post (k r) t

variable {interp : Interp C R ε σ E} {G : E → Prop} {I : σ → Prop} {post : α → σ → Prop} {p p' : Prog C R ε α}
  {s t : σ} {e : E} {es : List E}

lemma Always.point (h : p.Always interp G I post s) : I s := by
  cases p with
  | ret a => exact h.1
  | raise x => exact h
  | call c k => exact h.1

/-- One command. -/
lemma Always.step (h : p.Always interp G I post s) (he : G e) (hstep : p.step interp e s = some (p', t)) :
    p'.Always interp G I post t := by
  obtain ⟨c, k, rfl, ⟨x, hexec, rfl⟩ | ⟨r, hexec, rfl⟩⟩ := step_eq_some hstep
  · exact (h.2 e _ t he hexec).1
  · exact (h.2 e _ t he hexec).2 r rfl

/-- **Every point of a program.** -/
theorem Always.advance (h : p.Always interp G I post s) (hes : ∀ e ∈ es, G e)
    (hrun : p.advance interp es s = some (p', t)) : p'.Always interp G I post t := by
  induction es generalizing p s with
  | nil =>
      obtain ⟨rfl, rfl⟩ : p = p' ∧ s = t := by simpa [Prog.advance] using hrun
      exact h
  | cons e es ih =>
      obtain ⟨⟨p₁, s₁⟩, hstep, hrest⟩ := Option.bind_eq_some_iff.1 hrun
      exact ih (h.step (hes e List.mem_cons_self) hstep)
        (fun e he => hes e (List.mem_cons_of_mem _ he)) hrest

/-- A program that has returned goes on with what follows it. -/
lemma advance_bind {f : α → Prog C R ε β} {a : α} {es' : List E}
    (h : p.advance interp es s = some (.ret a, t)) :
    (p.bind f).advance interp (es ++ es') s = (f a).advance interp es' t := by
  induction es generalizing p s with
  | nil =>
      obtain ⟨rfl, rfl⟩ : p = .ret a ∧ s = t := by simpa [Prog.advance] using h
      rfl
  | cons e es ih =>
      obtain ⟨⟨p₁, s₁⟩, hstep, hrest⟩ := Option.bind_eq_some_iff.1 h
      obtain ⟨c, k, rfl, ⟨x, hexec, rfl⟩ | ⟨r, hexec, rfl⟩⟩ := step_eq_some hstep
      · cases es <;> simp [Prog.advance, Prog.step] at hrest
      · simp only [call_bind, List.cons_append, Prog.advance, Prog.step, hexec, Option.bind_some]
        exact ih hrest

/-- A program that has returned, with its exceptions caught. -/
lemma advance_attempt {a : α} (h : p.advance interp es s = some (.ret a, t)) :
    p.attempt.advance interp es s = some (.ret (.ok a), t) := by
  induction es generalizing p s with
  | nil =>
      obtain ⟨rfl, rfl⟩ : p = .ret a ∧ s = t := by simpa [Prog.advance] using h
      rfl
  | cons e es ih =>
      obtain ⟨⟨p₁, s₁⟩, hstep, hrest⟩ := Option.bind_eq_some_iff.1 h
      obtain ⟨c, k, rfl, ⟨x, hexec, rfl⟩ | ⟨r, hexec, rfl⟩⟩ := step_eq_some hstep
      · cases es <;> simp [Prog.advance, Prog.step] at hrest
      · simp only [attempt, Prog.advance, Prog.step, hexec, Option.bind_some]
        exact ih hrest

/-- The program that goes on with the result, and ends with the exception. -/
def onResult (f : α → Prog C R ε (Except ε β)) : Except ε α → Prog C R ε (Except ε β)
  | .ok a => f a
  | .error e => .ret (.error e)

lemma attempt_bind (p : Prog C R ε α) (f : α → Prog C R ε β) :
    (p.bind f).attempt = p.attempt.bind (onResult fun a => (f a).attempt) := by
  induction p with
  | ret a => rfl
  | raise e => rfl
  | call c k ih =>
      simp only [call_bind, attempt, call.injEq, heq_eq_eq, true_and]
      exact funext ih

lemma Always.mono {I' : σ → Prop} {post' : α → σ → Prop} (h : p.Always interp G I post s)
    (hI : ∀ t, I t → I' t) (hpost : ∀ a t, I t → post a t → post' a t) :
    p.Always interp G I' post' s := by
  induction p generalizing s with
  | ret a => exact ⟨hI s h.1, hpost a s h.1 h.2⟩
  | raise x => exact hI s h
  | call c k ih =>
      refine ⟨hI s h.1, fun e x t he hexec => ⟨hI t (h.2 e x t he hexec).1, fun r hr => ?_⟩⟩
      exact ih r ((h.2 e x t he hexec).2 r hr)

/-- **Sequencing.** -/
theorem Always.bind {f : α → Prog C R ε β} {post : β → σ → Prop}
    (h : p.Always interp G I (fun a t => (f a).Always interp G I post t) s) :
    (p.bind f).Always interp G I post s := by
  induction p generalizing s with
  | ret a => exact h.2
  | raise x => exact h
  | call c k ih =>
      refine ⟨h.1, fun e x t he hexec => ⟨(h.2 e x t he hexec).1, fun r hr => ?_⟩⟩
      exact ih r ((h.2 e x t he hexec).2 r hr)

/-- A value that may be missing. -/
lemma always_getOrRaise {x : ε} {a : Option α} (hs : I s) (hpost : ∀ b ∈ a, post b s) :
    (getOrRaise x a).Always interp G I post s := by
  cases a with
  | none => exact hs
  | some b => exact ⟨hs, hpost b rfl⟩

end Prog

end StarterBackend.Lib

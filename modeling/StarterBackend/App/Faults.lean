/-
Calls of the application that are interrupted.

A call can stop between any two of its commands, when its process dies, and each of its
statements and commits can fail, which raises an exception and leaves the database as it
is.  The transactions that a call has committed are counted.
-/
import StarterBackend.App.Auth
import StarterBackend.Lib.Always

namespace StarterBackend.App

open Lib

variable {K : Type} [Field K] [LinearOrder K] [FloorRing K] (platform : Platform)
  (collation : Collation)

/-- The command is sent to the database. -/
def Command.isSql : Command K → Bool
  | .query _ => true
  | .flush _ => true
  | .commit _ => true
  | _ => false

/-- A commit took effect. -/
def Command.committed : (c : Command K) → c.Reply → Bool
  | .commit _, r => r.isSome
  | _, _ => false

/-- The interpretation in which an input can be a failure of the database, and which counts the
commits that took effect. -/
def faulty : Prog.Interp (Command K) Command.Reply AppError (World K × ℕ) (Option (Env K)) :=
  fun c e x =>
    match e with
    | none => if c.isSql then some (.error .unhandled, x) else none
    | some e =>
        if x.1.clock ≤ e.now then
          some (.ok (c.exec platform collation e x.1).1,
            { (c.exec platform collation e x.1).2 with clock := e.now },
            if c.committed (c.exec platform collation e x.1).1 then x.2 + 1 else x.2)
        else none

variable {platform collation} {G : Env K → Prop} {I : Database K → ℕ → Prop} {α : Type}
  {post : α → World K × ℕ → Prop} {w : World K} {n : ℕ}

/-- The call keeps an assertion about the database and the number of its commits, if its inputs
meet `G`. -/
abbrev Keeps (platform : Platform) (collation : Collation) (G : Env K → Prop)
    (I : Database K → ℕ → Prop) (post : α → World K × ℕ → Prop) (p : AppProg K α) (w : World K)
    (n : ℕ) : Prop :=
  p.Always (faulty platform collation) (fun e => ∀ e' ∈ e, G e') (fun x => I x.1.db x.2) post (w, n)

/-! ### Assertions about the world -/

section World

variable {J : World K × ℕ → Prop}

/-- The assertion does not speak of the clock. -/
def ClockFree (J : World K × ℕ → Prop) : Prop :=
  ∀ (w : World K) (n : ℕ) (time : K), J (w, n) → J ({ w with clock := time }, n)

/-- The assertion holds at every point of a call, if its inputs meet `G`. -/
abbrev AlwaysFaulty (platform : Platform) (collation : Collation) (G : Env K → Prop)
    (J : World K × ℕ → Prop) (post : α → World K × ℕ → Prop) (p : AppProg K α) (w : World K)
    (n : ℕ) : Prop :=
  p.Always (faulty platform collation) (fun e => ∀ e' ∈ e, G e') J post (w, n)

/-- The rule for a command. -/
lemma always_call {c : Command K} {k : c.Reply → AppProg K α} (hw : J (w, n))
    (h : ∀ e : Env K, G e → let r := c.exec platform collation e w
      J ({ r.2 with clock := e.now }, if c.committed r.1 then n + 1 else n) ∧
        AlwaysFaulty platform collation G J post (k r.1) { r.2 with clock := e.now }
          (if c.committed r.1 then n + 1 else n)) :
    AlwaysFaulty platform collation G J post (.call c k) w n := by
  refine ⟨hw, fun e x t he hexec => ?_⟩
  cases e with
  | none =>
      simp only [faulty] at hexec
      split_ifs at hexec
      obtain ⟨rfl, rfl⟩ := Prod.mk.inj (Option.some.inj hexec)
      exact ⟨hw, nofun⟩
  | some e =>
      by_cases hclock : w.clock ≤ e.now
      swap
      · simp [faulty, hclock] at hexec
      simp only [faulty, hclock, if_true] at hexec
      obtain ⟨rfl, rfl⟩ := Prod.mk.inj (Option.some.inj hexec)
      refine ⟨(h e (he e rfl)).1, fun r hr => ?_⟩
      obtain rfl := Except.ok.inj hr
      exact (h e (he e rfl)).2

/-- The rule for a command that is no commit. -/
lemma always_read {c : Command K} {k : c.Reply → AppProg K α}
    (hc : ∀ statements, c ≠ .commit statements) (hw : J (w, n))
    (h : ∀ e : Env K, G e → let r := c.exec platform collation e w
      J ({ r.2 with clock := e.now }, n) ∧
        AlwaysFaulty platform collation G J post (k r.1) { r.2 with clock := e.now } n) :
    AlwaysFaulty platform collation G J post (.call c k) w n := by
  have hcommitted : ∀ r, c.committed r = false := by
    intro r
    cases c with
    | commit statements => exact absurd rfl (hc statements)
    | _ => rfl
  refine always_call hw fun e he => ?_
  simp only [hcommitted, Bool.false_eq_true, if_false]
  exact h e he

/-- The rule for a query. -/
lemma always_query {q : Query} {k : q.Reply K → AppProg K α} (hJ : ClockFree J) (hw : J (w, n))
    (h : ∀ now, AlwaysFaulty platform collation G J post (k (q.eval collation w.db))
      { w with clock := now } n) :
    AlwaysFaulty platform collation G J post (.call (.query q) k) w n :=
  always_read nofun hw fun e _ => ⟨hJ w n e.now hw, h e.now⟩

/-- The rule for a commit: it takes effect, or violates a constraint. -/
lemma always_commit {statements : List (Statement K)} {f : Option ℕ → AppProg K α}
    (hJ : ClockFree J) (hw : J (w, n))
    (h : ∀ gap databaseNow id db now, transaction gap databaseNow statements none w.db = some (id, db) →
      J ({ w with db, clock := now }, n + 1) ∧
        AlwaysFaulty platform collation G J post (f id) { w with db, clock := now } (n + 1)) :
    AlwaysFaulty platform collation G J post ((commit statements).bind f) w n := by
  refine always_call hw fun e he => ?_
  rcases htransaction : transaction e.gap e.databaseNow statements none w.db with _ | ⟨id, db⟩
  · rw [Command.exec_commit_of_none htransaction]
    exact ⟨hJ w n e.now hw, hJ w n e.now hw⟩
  · rw [Command.exec_commit_of_some htransaction]
    exact h e.gap e.databaseNow id db e.now htransaction

end World

/-! ### Assertions about the database -/

/-- The rule for a command that is no commit. -/
lemma keeps_read {c : Command K} {k : c.Reply → AppProg K α} (hc : ∀ statements, c ≠ .commit statements)
    (hw : I w.db n) (h : ∀ e : Env K, G e → Keeps platform collation G I post
      (k (c.exec platform collation e w).1)
      { (c.exec platform collation e w).2 with clock := e.now } n) :
    Keeps platform collation G I post (.call c k) w n :=
  always_read hc hw fun e he =>
    ⟨show I (c.exec platform collation e w).2.db n from (Command.db_exec hc).symm ▸ hw, h e he⟩

/-- The rule for a query. -/
lemma keeps_query {q : Query} {k : q.Reply K → AppProg K α} (hw : I w.db n)
    (h : ∀ now, Keeps platform collation G I post (k (q.eval collation w.db)) { w with clock := now } n) :
    Keeps platform collation G I post (.call (.query q) k) w n :=
  always_query (fun _ _ _ hw => hw) hw h

/-- The rule for a reading of the clock. -/
lemma keeps_now {k : K → AppProg K α} (hw : I w.db n)
    (h : ∀ now, Keeps platform collation G I post (k now) { w with clock := now } n) :
    Keeps platform collation G I post (.call .now k) w n :=
  keeps_read nofun hw fun e _ => h e.now

/-- The rule for a commit: it takes effect, or violates a constraint. -/
lemma keeps_commit {statements : List (Statement K)} {f : Option ℕ → AppProg K α} (hw : I w.db n)
    (h : ∀ gap databaseNow id db now, transaction gap databaseNow statements none w.db = some (id, db) →
      I db (n + 1) ∧ Keeps platform collation G I post (f id) { w with db, clock := now } (n + 1)) :
    Keeps platform collation G I post ((commit statements).bind f) w n :=
  always_commit (fun _ _ _ hw => hw) hw h

/-- The rule for an entry of the audit log. -/
lemma keeps_createAuditLog {tenantId : ℕ} {adminId targetUserId : Option ℕ} {action : AuditAction}
    {f : Unit → AppProg K α} (hw : I w.db n)
    (h : ∀ gap createdAt now, let db : Database K := { w.db with
        auditLogs := w.db.auditLogs.insert gap
          (fun id => ⟨id, tenantId, adminId, action, targetUserId, createdAt⟩) fun _ => rfl }
      I db (n + 1) ∧ Keeps platform collation G I post (f ()) { w with db, clock := now } (n + 1)) :
    Keeps platform collation G I post
      ((createAuditLog tenantId adminId action targetUserId).bind f) w n := by
  unfold createAuditLog
  rw [Prog.bind_def, Prog.bind_assoc]
  refine keeps_commit hw fun gap createdAt id db now hcommit => ?_
  rw [transaction_singleton] at hcommit
  simp only [Statement.exec] at hcommit
  split_ifs at hcommit
  obtain ⟨-, rfl⟩ := Prod.mk.inj (Option.some.inj hcommit)
  exact h gap createdAt now

end StarterBackend.App

/-
Transactions that are sent statement by statement.

`Command.commit` sends the statements of a transaction and commits them in one step.  The
session sends them one at a time, at its flushes, and the database keeps them apart until
the commit: a call can stop, or fail, before and after each of them.  `flushed` is the
call with these steps, and what always holds of a call with whole transactions holds of it
as well (`Keeps.flushed`), as long as the assertion does not speak of the clock.
-/
import StarterBackend.App.Faults

namespace StarterBackend.App

open Lib

/-! ### The steps of a transaction -/

/-- The commands of a session that flushes. -/
inductive SessionCommand (K : Type) where
  /-- Any command but a commit. -/
  | app (c : Command K)
  /-- A flush sends a statement. -/
  | execute (statement : Statement K)
  /-- `db.commit()`, after the flushes. -/
  | commit

@[reducible] def SessionCommand.Reply {K : Type} : SessionCommand K → Type
  | .app c => c.Reply
  | .execute _ => Option Unit
  | .commit => Option (Option ℕ)

/-- The programs of sessions that flush. -/
abbrev SessionProg (K α : Type) := Prog (SessionCommand K) SessionCommand.Reply AppError α

/-- A world, the statements of the transaction that is open, and the number of commits. -/
structure Session (K : Type) where
  world : World K
  pending : List (Statement K)
  commits : ℕ

section

variable {K : Type}

/-- Send the statements, then commit; the reply is that of the whole transaction. -/
def sendAll : List (Statement K) → SessionProg K (Option (Option ℕ))
  | [] => .call .commit .ret
  | statement :: statements => .call (.execute statement) fun reply =>
      match reply with
      | none => .ret none
      | some () => sendAll statements

/-- The steps of a command. -/
def Command.flushed : (c : Command K) → SessionProg K c.Reply
  | .commit statements => sendAll statements
  | c => .call (.app c) .ret

/-- The call with the steps of its transactions. -/
def flushed {α : Type} (p : AppProg K α) : SessionProg K α := p.expand Command.flushed

variable [Field K] [LinearOrder K] [FloorRing K] (platform : Platform) (collation : Collation)

/-- What a command of a session does. -/
def SessionCommand.exec (e : Env K) (s : Session K) : (c : SessionCommand K) → c.Reply × Session K
  | .app c => ((c.exec platform collation e s.world).1,
      { s with world := (c.exec platform collation e s.world).2 })
  | .execute statement =>
      match transaction e.gap e.databaseNow (s.pending ++ [statement]) none s.world.db with
      | none => (none, { s with pending := [] })
      | some _ => (some (), { s with pending := s.pending ++ [statement] })
  | .commit =>
      match transaction e.gap e.databaseNow s.pending none s.world.db with
      | none => (none, { s with pending := [] })
      | some (id, db) => (some id, ⟨{ s.world with db }, [], s.commits + 1⟩)

/-- The command is sent to the database. -/
def SessionCommand.isSql : SessionCommand K → Bool
  | .app c => c.isSql
  | _ => true

/-- The interpretation in which an input can be a failure of the database, which ends the
transaction. -/
def faultySession :
    Prog.Interp (SessionCommand K) SessionCommand.Reply AppError (Session K) (Option (Env K)) :=
  fun c e s =>
    match e with
    | none => if c.isSql then some (.error .unhandled, { s with pending := [] }) else none
    | some e =>
        if s.world.clock ≤ e.now then
          some (.ok (c.exec platform collation e s).1,
            { (c.exec platform collation e s).2 with
              world := { (c.exec platform collation e s).2.world with clock := e.now } })
        else none

/-! ### From whole transactions to their steps -/

variable {platform collation} {α : Type} {G : Option (Env K) → Prop} {I : World K × ℕ → Prop}
  {post : α → World K × ℕ → Prop} {p : AppProg K α} {w : World K} {n : ℕ}

variable (platform collation G I post) in
/-- The assertion about worlds holds at every point of a program of a session. -/
abbrev AlwaysInSession (q : SessionProg K α) (s : Session K) : Prop :=
  q.Always (faultySession platform collation) G (fun s => I (s.world, s.commits))
    (fun a s => post a (s.world, s.commits)) s

/-- A command with a commit that violates a constraint. -/
lemma faulty_commit_of_none {statements : List (Statement K)} {e : Env K} (hclock : w.clock ≤ e.now)
    (h : transaction e.gap e.databaseNow statements none w.db = none) :
    faulty platform collation (.commit statements) (some e) (w, n) =
      some (.ok none, { w with clock := e.now }, n) := by
  simp [faulty, hclock, Command.exec, h, Command.committed]

lemma faulty_commit_of_some {statements : List (Statement K)} {e : Env K} {id : Option ℕ}
    {db : Database K} (hclock : w.clock ≤ e.now)
    (h : transaction e.gap e.databaseNow statements none w.db = some (id, db)) :
    faulty platform collation (.commit statements) (some e) (w, n) =
      some (.ok (some id), { w with db, clock := e.now }, n + 1) := by
  simp [faulty, hclock, Command.exec, h, Command.committed]

/-- **The rest of a transaction**, after the statements that were sent already. -/
lemma always_sendAll {statements sent : List (Statement K)} {k : Option (Option ℕ) → AppProg K α}
    {time : K} (hI : ClockFree I)
    (h : (Prog.call (.commit (sent ++ statements)) k).Always (faulty platform collation) G I post
      (w, n))
    (hk : ∀ r w n, (k r).Always (faulty platform collation) G I post (w, n) →
      AlwaysInSession platform collation G I post (flushed (k r)) ⟨w, [], n⟩)
    (htime : w.clock ≤ time) :
    AlwaysInSession platform collation G I post ((sendAll statements).bind fun r => flushed (k r))
      ⟨{ w with clock := time }, sent, n⟩ := by
  have hpoint : I ({ w with clock := time }, n) := hI w n time h.1
  induction statements generalizing sent time with
  | nil =>
      rw [List.append_nil] at h
      refine ⟨hpoint, fun e x s he hexec => ?_⟩
      rcases e with _ | e
      · obtain ⟨rfl, rfl⟩ := Prod.mk.inj (Option.some.inj hexec)
        exact ⟨hpoint, fun r hr => by cases hr⟩
      · simp only [faultySession] at hexec
        split_ifs at hexec with hclock
        obtain ⟨rfl, rfl⟩ := Prod.mk.inj (Option.some.inj hexec)
        have hnow : w.clock ≤ e.now := htime.trans hclock
        rcases hcommit : transaction e.gap e.databaseNow sent none w.db with _ | ⟨id, db⟩
        · obtain ⟨hnext, hrest⟩ := h.2 _ _ _ he (faulty_commit_of_none hnow hcommit)
          simp only [SessionCommand.exec, hcommit]
          refine ⟨hnext, fun r hr => ?_⟩
          obtain rfl := Except.ok.inj hr
          exact hk _ _ _ (hrest none rfl)
        · obtain ⟨hnext, hrest⟩ := h.2 _ _ _ he (faulty_commit_of_some hnow hcommit)
          simp only [SessionCommand.exec, hcommit]
          refine ⟨hnext, fun r hr => ?_⟩
          obtain rfl := Except.ok.inj hr
          exact hk _ _ _ (hrest (some id) rfl)
  | cons statement statements ih =>
      refine ⟨hpoint, fun e x s he hexec => ?_⟩
      rcases e with _ | e
      · obtain ⟨rfl, rfl⟩ := Prod.mk.inj (Option.some.inj hexec)
        exact ⟨hpoint, fun r hr => by cases hr⟩
      · simp only [faultySession] at hexec
        split_ifs at hexec with hclock
        obtain ⟨rfl, rfl⟩ := Prod.mk.inj (Option.some.inj hexec)
        have hnow : w.clock ≤ e.now := htime.trans hclock
        have happend : sent ++ statement :: statements = sent ++ [statement] ++ statements := by simp
        rw [happend] at h
        rcases hsend : transaction e.gap e.databaseNow (sent ++ [statement]) none w.db with _ | r
        · -- what violates a constraint now would have done so in the whole transaction
          have hwhole : transaction e.gap e.databaseNow (sent ++ [statement] ++ statements) none
              w.db = none := by
            rw [transaction_append, hsend, Option.bind_none]
          obtain ⟨hnext, hrest⟩ := h.2 _ _ _ he (faulty_commit_of_none hnow hwhole)
          simp only [SessionCommand.exec, hsend]
          refine ⟨hnext, fun r hr => ?_⟩
          obtain rfl := Except.ok.inj hr
          exact hk _ _ _ (hrest none rfl)
        · simp only [SessionCommand.exec, hsend]
          have hnext : I ({ w with clock := e.now }, n) := hI w n e.now h.1
          refine ⟨hnext, fun r hr => ?_⟩
          obtain rfl := Except.ok.inj hr
          exact ih h hnow hnext

/-- **The steps of its transactions leave a call what it always was.** -/
theorem always_flushed (hI : ClockFree I)
    (h : p.Always (faulty platform collation) G I post (w, n)) :
    AlwaysInSession platform collation G I post (flushed p) ⟨w, [], n⟩ := by
  induction p generalizing w n with
  | ret a => exact h
  | raise x => exact h
  | call c k ih =>
      by_cases hcommit : ∃ statements, c = .commit statements
      · obtain ⟨statements, rfl⟩ := hcommit
        have hstart : (Prog.call (.commit ([] ++ statements)) k).Always (faulty platform collation) G I
            post (w, n) := h
        exact always_sendAll hI hstart (fun r w n hr => ih r hr) le_rfl
      · have hflushed : flushed (.call c k) = .call (.app c) fun r => flushed (k r) := by
          cases c with
          | commit statements => exact absurd ⟨statements, rfl⟩ hcommit
          | _ => rfl
        have hcommitted : ∀ r, c.committed r = false := by
          intro r
          cases c with
          | commit statements => exact absurd ⟨statements, rfl⟩ hcommit
          | _ => rfl
        rw [hflushed]
        refine ⟨h.1, fun e x s he hexec => ?_⟩
        rcases e with _ | e
        · simp only [faultySession] at hexec
          split_ifs at hexec
          obtain ⟨rfl, rfl⟩ := Prod.mk.inj (Option.some.inj hexec)
          exact ⟨h.1, fun r hr => by cases hr⟩
        · simp only [faultySession] at hexec
          split_ifs at hexec with hclock
          obtain ⟨rfl, rfl⟩ := Prod.mk.inj (Option.some.inj hexec)
          have hcoarse : faulty platform collation c (some e) (w, n) =
              some (.ok (c.exec platform collation e w).1,
                { (c.exec platform collation e w).2 with clock := e.now }, n) := by
            simp [faulty, hclock, hcommitted]
          obtain ⟨hnext, hrest⟩ := h.2 _ _ _ he hcoarse
          exact ⟨hnext, fun r hr => by
            obtain rfl := Except.ok.inj hr
            exact ih _ (hrest _ rfl)⟩

end

end StarterBackend.App

/-
The versions of the tokens of a user, along a run.

A request that revokes the sessions of a user writes the version that it has read plus
one.  If the row has another version by then, a revocation is lost; the runs without that
are those whose commits are all `Current`, and requests that run one at a time are such.
In these runs the version counts the revocations, so two states have the same version
exactly if there was no revocation between them.
-/
import StarterBackend.Accounts.UserRows

namespace StarterBackend.Accounts

open Lib App

section Versions

variable {K : Type} [Field K] [LinearOrder K] [FloorRing K] {platform : Platform}
  {collation : Collation} {settings : Settings} {ι : Type} [DecidableEq ι]

/-- The step commits a new version of the tokens of a user. -/
def Revokes (userId : ℕ) (s : Api settings ι K) : PoolAction ι (ApiRequest settings) (Env K) → Prop
  | .step i e => ∃ q statements k changes, s.calls i = some (q, .call (.commit statements) k) ∧
      .updateUser userId changes ∈ statements ∧ changes.tokenVersion ≠ none ∧
      (transaction e.gap e.databaseNow statements none s.store.db).isSome
  | _ => False

/-- A version that the step commits is the next one of the row. -/
def Current (s : Api settings ι K) : PoolAction ι (ApiRequest settings) (Env K) → Prop
  | .step i _ => ∀ q statements k userId changes version row,
      s.calls i = some (q, .call (.commit statements) k) → .updateUser userId changes ∈ statements →
      changes.tokenVersion = some version → s.store.db.users.row userId = some row →
      version = row.tokenVersion + 1
  | _ => True

variable {w : World K} {as bs : List (PoolAction ι (ApiRequest settings) (Env K))}
  {a : PoolAction ι (ApiRequest settings) (Env K)} {s t u : Api settings ι K} {k : ℕ} {row row' : User}

/-- A step of a process that is about to commit is its commit, if it violates no constraint. -/
lemma commitStep_of_calls (h : exec (Api.step platform collation settings) (Pool.initial w) as = some s)
    {i : ι} {e : Env K} {q : ApiRequest settings} {statements : List (Statement K)}
    {k : Option (Option ℕ) → AppProg K (Option TokenPair)}
    (hstep : Api.step platform collation settings s (.step i e) = some t)
    (hi : s.calls i = some (q, .call (.commit statements) k))
    (hsome : (transaction e.gap e.databaseNow statements none s.store.db).isSome) :
    ∃ x, CommitStep platform collation w as (.step i e) s t i q x statements := by
  obtain ⟨x, hx, hc, -⟩ := allInformed_exec h i q _ hi
  obtain ⟨⟨id, db⟩, htransaction⟩ := Option.isSome_iff_exists.1 hsome
  have hdb : t.store.db = db := by
    rcases Pool.next_step_cases hi hstep with ⟨err, hexec, -⟩ | ⟨r, hexec, -⟩ <;>
      rw [(interp_eq_some hexec).2.2, Command.exec_commit_of_some htransaction]
  exact ⟨x, hx, hc, e, k, id, rfl, hi, hdb ▸ htransaction⟩

/-- **One step**: a revocation commits the next version, and nothing else changes it. -/
lemma version_step (h : exec (Api.step platform collation settings) (Pool.initial w) as = some s)
    (hstep : Api.step platform collation settings s a = some t) (hcurrent : Current s a)
    (hrow : s.store.db.users.row k = some row) (hrow' : t.store.db.users.row k = some row') :
    (Revokes k s a ∧ row'.tokenVersion = row.tokenVersion + 1) ∨
      (¬ Revokes k s a ∧ row'.tokenVersion = row.tokenVersion) := by
  have hlt := s.store.db.users.lt_of_row hrow
  by_cases hrevokes : Revokes k s a
  · left
    refine ⟨hrevokes, ?_⟩
    cases a with
    | start | die => exact hrevokes.elim
    | step i e =>
        obtain ⟨q, statements, k', changes, hi, hmem, hversion, hsome⟩ := hrevokes
        obtain ⟨x, hcommit⟩ := commitStep_of_calls h hstep hi hsome
        obtain ⟨version, hversion⟩ := Option.ne_none_iff_exists'.1 hversion
        have hrowstep := hcommit.rowStep k
        generalize hcell : t.store.db.users.row k = cell at hrowstep
        rw [hrow'] at hcell
        cases hrowstep with
        | keep others => exact absurd hmem (others changes)
        | insert request fresh => exact absurd hlt (by omega)
        | delete => cases hcell
        | update change target only before after =>
            obtain rfl := Option.some.inj hcell
            obtain rfl := (only changes).1 hmem
            obtain ⟨-, -, -, hversion', -⟩ := UserChanges.apply_eq_some after
            rw [hversion', hversion, Option.getD_some]
            exact hcurrent q statements k' k changes version row hi hmem hversion hrow
  · right
    refine ⟨hrevokes, ?_⟩
    by_cases hchange : t.store.db = s.store.db
    · rw [hchange, hrow] at hrow'
      rw [Option.some.inj hrow']
    obtain ⟨i, q, x, statements, hcommit⟩ := commitStep_of_db_ne h hstep hchange
    obtain ⟨e, k', id, rfl, hi, htransaction⟩ := hcommit.commits
    have hrowstep := hcommit.rowStep k
    generalize hcell : t.store.db.users.row k = cell at hrowstep
    rw [hrow'] at hcell
    cases hrowstep with
    | keep others =>
        rw [hrow] at hcell
        rw [Option.some.inj hcell]
    | insert request fresh => exact absurd hlt (by omega)
    | delete => cases hcell
    | @update _ before _ changes change target only hbefore after =>
        obtain rfl := Option.some.inj hcell
        obtain rfl := Option.some.inj (hrow.symm.trans hbefore)
        obtain ⟨-, -, -, hversion, -⟩ := UserChanges.apply_eq_some after
        have hnone : changes.tokenVersion = none := by
          by_contra hne
          exact hrevokes ⟨q, statements, k', changes, hi, (only changes).2 rfl, hne, by
            rw [htransaction]; rfl⟩
        rw [hversion, hnone, Option.getD_none]

/-- **The version counts the revocations.** -/
theorem versions_along
    (h : exec (Api.step platform collation settings) (Pool.initial w) as = some s)
    (hcurrent : Along (Api.step platform collation settings) Current s bs)
    (ht : exec (Api.step platform collation settings) s bs = some t)
    (hrow : s.store.db.users.row k = some row) (hrow' : t.store.db.users.row k = some row') :
    row.tokenVersion ≤ row'.tokenVersion ∧ (row'.tokenVersion = row.tokenVersion ↔
      Along (Api.step platform collation settings) (fun s a => ¬ Revokes k s a) s bs) := by
  induction bs generalizing as s row with
  | nil =>
      obtain rfl : s = t := by simpa using ht
      obtain rfl := Option.some.inj (hrow.symm.trans hrow')
      exact ⟨le_rfl, iff_of_true rfl trivial⟩
  | cons a bs ih =>
      obtain ⟨u, hu, ht⟩ := exec_cons_eq_some.1 ht
      have hrun : exec (Api.step platform collation settings) (Pool.initial w) (as ++ [a]) = some u :=
        exec_append_eq_some.2 ⟨s, h, by simp [exec, hu]⟩
      have hsu : exec (Api.step platform collation settings) s [a] = some u := by simp [exec, hu]
      obtain ⟨between, hbetween⟩ := (later_run hsu).row_between (later_run ht) hrow hrow'
      obtain ⟨hle, hiff⟩ := ih hrun (hcurrent.2 u hu) ht hbetween
      have hcons : Along (Api.step platform collation settings) (fun s a => ¬ Revokes k s a) s (a :: bs) ↔
          ¬ Revokes k s a ∧
            Along (Api.step platform collation settings) (fun s a => ¬ Revokes k s a) u bs := by
        refine and_congr_right fun _ => ⟨fun hall => hall u hu, fun hrest u' hu' => ?_⟩
        obtain rfl := Option.some.inj (hu.symm.trans hu')
        exact hrest
      rw [hcons]
      rcases version_step h hu hcurrent.1 hrow hbetween with ⟨hrevokes, hnext⟩ | ⟨hnot, hsame⟩
      · refine ⟨by omega, iff_of_false (by omega) fun hall => hall.1 hrevokes⟩
      · rw [hsame] at hle hiff
        exact ⟨hle, hiff.trans ⟨fun hrest => ⟨hnot, hrest⟩, fun hall => hall.2⟩⟩

/-! ### One request at a time -/

/-- The users that a request has read since its last commit are as it has read them. -/
def Fresh (w : World K) (x : Knowledge K) : Prop :=
  ∀ user ∈ x.fresh, w.db.users.row user.id = some user

/-- A command of the only request that runs keeps its knowledge fresh. -/
lemma fresh_learn {c : Command K} {e : Env K} {x : Knowledge K} {r : c.Reply} {w w' : World K}
    (hx : Fresh w x) (h : interp platform collation c e w = some (.ok r, w')) :
    Fresh w' (x.learn c r) := by
  intro user huser
  obtain ⟨-, hr, rfl⟩ := interp_eq_some h
  by_cases hcommit : ∃ statements, c = .commit statements
  · obtain ⟨statements, rfl⟩ := hcommit
    exact huser.elim
  have hdb : (c.exec platform collation e w).2.db = w.db :=
    Command.db_exec fun statements heq => hcommit ⟨statements, heq⟩
  change (c.exec platform collation e w).2.db.users.row user.id = some user
  rw [hdb]
  have hnew : (x.learn c r).fresh ⊆ x.fresh ∪ {user | w.db.users.row user.id = some user} := by
    obtain rfl := Except.ok.inj hr
    cases c with
    | query q =>
        cases q with
        | user userId =>
            exact fun user huser => huser.imp id fun h => (Table.find_eq_some.1 h).2
        | userInTenant userId tenantId =>
            exact fun user huser => huser.imp id fun h =>
              (Table.find_eq_some.1 (Option.filter_eq_some_iff.1 h).1).2
        | userByEmail email tenantId =>
            exact fun user huser => huser.imp id fun h => (row_of_head?_select h).1
        | _ => exact fun user huser => .inl huser
    | commit statements => exact absurd ⟨statements, rfl⟩ hcommit
    | _ => exact fun user huser => .inl huser
  exact (hnew huser).elim (hx user) id

/-- **Requests that run one at a time lose no revocation.** -/
theorem current_of_oneAtATime
    (h : Along (Api.step platform collation settings) Pool.OneAtATime (Pool.initial w) as) :
    Along (Api.step platform collation settings) Current (Pool.initial w) as := by
  refine h.of_invariant (I := Pool.AloneInformed (Answers platform) Knowledge.learn
    (fun q x c => Granted platform settings x q c) (MintedOnly platform settings) Fresh)
    (fun s a t hs ha hstep => ?_) (fun s a hs _ => ?_) (Pool.aloneInformed_initial w)
  · refine hs.next ha (fun q w => ⟨.nothing, fun user huser => huser.elim, ?_⟩)
      (fun c e x r w w' hx hexec => ⟨(truthful (x := x) hexec).1, fresh_learn hx hexec⟩) hstep
    exact (lawful_program q).informed
  · cases a with
    | start | die => trivial
    | step i e =>
        intro q statements k userId changes version row hi hmem hversion hrow
        obtain ⟨x, hx, hc, -⟩ := hs.informed i q _ hi trivial
        cases userStatements_of_granted hc with
        | other others => cases others _ hmem
        | insert request => simp at hmem
        | delete request named permission read tenant others =>
            rcases List.mem_cons.1 hmem with hfirst | hmem
            · cases hfirst
            · cases others _ hmem
        | update change others =>
            rcases List.mem_cons.1 hmem with hfirst | hmem
            · obtain ⟨rfl, rfl⟩ := Statement.updateUser.inj hfirst
              obtain ⟨hread, hnext⟩ := change.version hversion
              rw [hx _ hread] at hrow
              rwa [Option.some.inj hrow] at hnext
            · cases others _ hmem

end Versions

/-- The deactivation of a user, with no other request at that time. -/
theorem current_of_oneAtATime_deactivation :
    let as : List (PoolAction ℕ (ApiRequest {}) (Env ℚ)) :=
      .start 0 (.byUser Users.adminToken none (.change (.deactivate 2))) ::
        List.replicate 5 (.step 0 (.calm 0))
    (exec (Api.step Platform.plain Collation.plain {}) (Pool.initial Users.adminAndUser) as).isSome =
      true ∧
    Along (Api.step Platform.plain Collation.plain {}) Current (Pool.initial Users.adminAndUser) as := by
  intro as
  have hsteps : ∀ (n : ℕ) (s : Api {} ℕ ℚ), Along (Api.step Platform.plain Collation.plain {})
      Pool.OneAtATime s (List.replicate n (.step 0 (.calm 0))) := by
    intro n
    induction n with
    | zero => exact fun _ => trivial
    | succ n ih => exact fun s => ⟨trivial, fun s' _ => ih s'⟩
  refine ⟨by decide +kernel, current_of_oneAtATime ⟨fun i q p hi => ?_, fun s' _ => hsteps 5 s'⟩⟩
  simp at hi

end StarterBackend.Accounts

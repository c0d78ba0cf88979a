/-
The links that reset emails deliver.

An execution of a reset job sends the email before it commits the token that the link in it
carries.  Executions of the same and of different jobs run at the same time, and users are
deleted meanwhile.  The database makes an execution wait that flushes the hash of a token
which another transaction has flushed, and a deletion of a user for whom a token is
flushed, so the token itself can be committed.  The commit fails all the same when another
execution of the job has completed it, and then the execution returns as if it had
succeeded: its link does not work.  Nothing else makes a delivered link fail
(`delivered_links_work_iff`).
-/
import StarterBackend.Sessions.ResetJobs

namespace StarterBackend.Sessions

open Lib App

/-! ### The executions and what they have done -/

/-- The executions, and for each of them the token that its email has delivered and the hashes of the
tokens that it has committed. -/
structure LinkJobs (ι K : Type) where
  jobs : ResetJobs ι K
  delivered : ι → Option String
  committed : ι → List String

/-- A step of an execution, or the deletion of a user. -/
inductive LinkAction (ι K : Type) where
  | job (a : PoolAction ι ResetJob (Env K × Redis.Keys K))
  | deleteUser (userId : ℕ)

/-- The hashes of the tokens that a transaction inserts. -/
def tokenHashes {K : Type} (statements : List (Statement K)) : List String :=
  statements.filterMap fun statement =>
    match statement with
    | .insertResetToken _ tokenHash _ => some tokenHash
    | _ => none

section History

variable {K : Type}

/-- The token that is delivered after a command. -/
def deliveredAfter : (c : Command K) → c.Reply → Option String → Option String
  | .sendPasswordResetEmail _ token, (reply : Option Unit), delivered =>
      if reply.isSome then some token else delivered
  | _, _, delivered => delivered

/-- The hashes that are committed after a command. -/
def committedAfter : (c : Command K) → c.Reply → List String → List String
  | .commit statements, (reply : Option (Option ℕ)), committed =>
      if reply.isSome then tokenHashes statements ++ committed else committed
  | _, _, committed => committed

/-- A commit violated a constraint. -/
def commitFails : (c : Command K) → c.Reply → Bool
  | .commit _, (reply : Option (Option ℕ)) => reply.isNone
  | _, _ => false

/-- The statements of a flush violate no constraint. -/
def flushes : (c : Command K) → c.Reply → Bool
  | .flush _, (reply : Option Unit) => reply.isSome
  | _, _ => false

/-- The user and the hash of the token that is about to be committed. -/
def committing : AppProg K Unit → Option (ℕ × String)
  | .call (.commit (.insertResetToken userId tokenHash _ :: _)) _ => some (userId, tokenHash)
  | _ => none

/-- The user and the hash of the token that an execution has flushed and not committed. -/
def pending : AppProg K Unit → Option (ℕ × String)
  | .call (.sendPasswordResetEmail _ _) k => committing (k (some ()))
  | p => committing p

end History

namespace LinkJobs

variable {K : Type} [Field K] [LinearOrder K] [FloorRing K] {ι : Type} [DecidableEq ι]
  (platform : Platform) (collation : Collation) (settings : Settings)

/-- What the executions have done after a step. -/
def record (s : LinkJobs ι K) :
    PoolAction ι ResetJob (Env K × Redis.Keys K) → (ι → Option String) × (ι → List String)
  | .start i _ => (Function.update s.delivered i none, Function.update s.committed i [])
  | .step i e =>
      match s.jobs.calls i with
      | some (_, .call c _) =>
          let reply := (c.exec platform collation e.1 { s.jobs.store with keys := e.2 }).1
          (Function.update s.delivered i (deliveredAfter c reply (s.delivered i)),
            Function.update s.committed i (committedAfter c reply (s.committed i)))
      | _ => (s.delivered, s.committed)
  | .die _ => (s.delivered, s.committed)

/-- One step of an execution, or a deletion that violates no constraint. -/
def step (s : LinkJobs ι K) : LinkAction ι K → Option (LinkJobs ι K)
  | .job a => (ResetJobs.step platform collation settings s.jobs a).map fun jobs =>
      ⟨jobs, (s.record platform collation a).1, (s.record platform collation a).2⟩
  | .deleteUser userId =>
      ((Statement.deleteUser userId).exec 0 s.jobs.store.clock s.jobs.store.db).map fun r =>
        { s with jobs := { s.jobs with store := { s.jobs.store with db := r.2 } } }

/-- No execution has started. -/
def initial (w : World K) : LinkJobs ι K := ⟨Pool.initial w, fun _ => none, fun _ => []⟩

/-- **The locks of the database**: a deletion waits for the transactions that have inserted a token of
the user, and the flush of a token for those that have inserted its hash. -/
def RespectsLocks (s : LinkJobs ι K) : LinkAction ι K → Prop
  | .deleteUser userId => ∀ i q p tokenHash, s.jobs.calls i = some (q, p) →
      pending p ≠ some (userId, tokenHash)
  | .job (.step i _) => ∀ q userId tokenHash expiresAt k,
      s.jobs.calls i = some (q, .call (.flush [.insertResetToken userId tokenHash expiresAt]) k) →
      ∀ j q' p userId', j ≠ i → s.jobs.calls j = some (q', p) → pending p ≠ some (userId', tokenHash)
  | .job _ => True

/-- An execution that commits is the first of its job. -/
def CommitsFirst (s : LinkJobs ι K) : LinkAction ι K → Prop
  | .job (.step i _) => ∀ q statements k, s.jobs.calls i = some (q, .call (.commit statements) k) →
      q.jobId ∉ s.jobs.store.db.passwordResetJobCompletions
  | _ => True

/-- **Every delivered link works**, if its execution has returned: the execution has committed a token
with its hash. -/
def Works (s : LinkJobs ι K) : Prop :=
  ∀ i q token, s.jobs.calls i = some (q, .ret ()) → s.delivered i = some token →
    platform.hashPasswordResetToken token ∈ s.committed i

end LinkJobs

/-! ### The programs -/

section Programs

variable {K : Type} {platform : Platform} {settings : Settings} {q : ResetJob}

/-- The program commits, once, the token that it has delivered, with the completion of its job.  When
this fails, it returns. -/
def Orderly (platform : Platform) (q : ResetJob) :
    AppProg K Unit → Option String → List String → Prop
  | .ret (), delivered, committed =>
      ∀ token, delivered = some token → platform.hashPasswordResetToken token ∈ committed
  | .raise _, _, _ => True
  | .call c k, delivered, committed =>
      (∀ statements, c = .commit statements → committed = [] ∧ ∃ token userId expiresAt,
        delivered = some token ∧ statements = [.insertResetToken userId
          (platform.hashPasswordResetToken token) expiresAt, .insertResetJobCompletion q.jobId]) ∧
      (∀ reply, commitFails c reply = true → k reply = .ret ()) ∧
      ∀ reply, commitFails c reply = false →
        Orderly platform q (k reply) (deliveredAfter c reply delivered)
          (committedAfter c reply committed)

/-- A command that neither delivers nor commits. -/
lemma orderly_call {c : Command K} {k : c.Reply → AppProg K Unit} {delivered : Option String}
    {committed : List String} (hcommit : ∀ statements, c ≠ .commit statements)
    (hemail : ∀ email token, c ≠ .sendPasswordResetEmail email token)
    (h : ∀ reply, Orderly platform q (k reply) delivered committed) :
    Orderly platform q (.call c k) delivered committed := by
  refine ⟨fun statements hc => absurd hc (hcommit statements), fun reply hfails => ?_,
    fun reply _ => ?_⟩
  · cases c with
    | commit statements => exact absurd rfl (hcommit statements)
    | _ => cases hfails
  · cases c with
    | commit statements => exact absurd rfl (hcommit statements)
    | sendPasswordResetEmail email token => exact absurd rfl (hemail email token)
    | _ => exact h reply

/-- A program that neither delivers nor commits any more. -/
lemma orderly_getOrRaise_bind {α : Type} {e : AppError} {x : Option α} {f : α → AppProg K Unit}
    {delivered : Option String} {committed : List String}
    (h : ∀ a, Orderly platform q (f a) delivered committed) :
    Orderly platform q ((Prog.getOrRaise e x).bind f) delivered committed := by
  cases x with
  | none => trivial
  | some a => exact h a

lemma orderly_isCompleted_bind {f : Bool → AppProg K Unit}
    (h : ∀ completed, Orderly platform q (f completed) none []) :
    Orderly platform q ((isPasswordResetJobCompleted q.jobId).bind f) none [] :=
  orderly_call nofun nofun fun _ => orderly_getOrRaise_bind h

/-- To mark a job as completed leaves what was delivered and committed as it is. -/
lemma orderly_markCompleted {delivered : Option String} {committed : List String}
    (h : ∀ token, delivered = some token → platform.hashPasswordResetToken token ∈ committed) :
    Orderly platform q (markPasswordResetJobCompleted (K := K) settings q.jobId) delivered
      committed := by
  refine orderly_call nofun nofun fun reply => ?_
  cases reply with
  | none => trivial
  | some _ => exact h

lemma orderly_sendResetToken [Field K] :
    Orderly platform q (sendResetToken (K := K) platform settings q.userId q.jobId) none [] := by
  refine orderly_call nofun nofun fun user => ?_
  cases user with
  | none => exact fun token h => by cases h
  | some user =>
      show Orderly platform q (if !user.isActive then _ else _) none []
      split_ifs
      · exact fun token h => by cases h
      · refine orderly_call nofun nofun fun rawToken => ?_
        refine orderly_call nofun nofun fun time => ?_
        refine orderly_call nofun nofun fun flushed => ?_
        refine orderly_getOrRaise_bind fun _ => ?_
        refine ⟨nofun, (fun _ hfails => by cases hfails), fun sent _ => ?_⟩
        cases sent with
        | none => trivial
        | some _ =>
            -- the email is delivered, and the commit comes next
            refine ⟨?_, fun reply hfails => ?_, fun reply hcommits => ?_⟩
            · rintro statements ⟨⟩
              exact ⟨rfl, rawToken, _, _, rfl, rfl⟩
            · cases reply with
              | none => rfl
              | some id => cases hfails
            · cases reply with
              | none => cases hcommits
              | some id =>
                  refine orderly_markCompleted fun token htoken => ?_
                  obtain rfl := Option.some.inj htoken
                  exact List.mem_append_left _ List.mem_cons_self

lemma orderly_createToken [Field K] (q : ResetJob) :
    Orderly platform q (createPasswordResetTokenAndSendEmail (K := K) platform settings q.userId
      q.jobId) none [] := by
  have hnothing : ∀ token, (none : Option String) = some token →
      platform.hashPasswordResetToken token ∈ ([] : List String) := fun token h => by cases h
  refine orderly_isCompleted_bind fun completed => ?_
  split_ifs
  · exact hnothing
  · refine orderly_call nofun nofun fun found => ?_
    show Orderly platform q (if found then _ else _) none []
    split_ifs
    · refine orderly_isCompleted_bind fun completed => ?_
      split_ifs
      · exact hnothing
      · exact orderly_markCompleted hnothing
    · exact orderly_sendResetToken

/-- A token becomes pending when it is flushed, and is not after the commit. -/
def HoldsFromFlush (c : Command K) (k : c.Reply → AppProg K Unit) : Prop :=
  ∀ reply token, pending (k reply) = some token → (∀ statements, c ≠ .commit statements) ∧
    (pending (.call c k) = some token ∨ flushes c reply = true ∧
      ∃ expiresAt, c = .flush [.insertResetToken token.1 token.2 expiresAt])

/-- A command after which no token is pending. -/
lemma holdsFromFlush_of_none {c : Command K} {k : c.Reply → AppProg K Unit}
    (h : ∀ reply, pending (k reply) = none) : HoldsFromFlush c k := by
  intro reply token hpending
  rw [h reply] at hpending
  cases hpending

lemma holds_markCompleted :
    (markPasswordResetJobCompleted (K := K) settings q.jobId).Every HoldsFromFlush :=
  ⟨holdsFromFlush_of_none fun reply => by cases reply <;> rfl, fun reply => by cases reply <;> trivial⟩

lemma holds_isCompleted_bind {f : Bool → AppProg K Unit} (hf : ∀ completed, (f completed).Every HoldsFromFlush)
    (hpending : ∀ completed, pending (f completed) = none) :
    ((isPasswordResetJobCompleted q.jobId).bind f).Every HoldsFromFlush := by
  refine ⟨holdsFromFlush_of_none fun reply => ?_, fun reply => ?_⟩
  · cases reply with
    | none => rfl
    | some completed => exact hpending completed
  · cases reply with
    | none => trivial
    | some completed => exact hf completed

lemma holds_sendResetToken [Field K] :
    (sendResetToken (K := K) platform settings q.userId q.jobId).Every HoldsFromFlush := by
  have hnone : ∀ (user : User) (p : AppProg K Unit), pending p = none →
      pending (if !user.isActive then .ret () else p) = none := by
    intro user p hp
    split_ifs
    · rfl
    · exact hp
  refine ⟨holdsFromFlush_of_none fun user => ?_, fun user => ?_⟩
  · cases user with
    | none => rfl
    | some user => exact hnone user _ rfl
  cases user with
  | none => trivial
  | some user =>
      show Prog.Every _ (if !user.isActive then _ else _)
      split_ifs
      · trivial
      · refine ⟨holdsFromFlush_of_none fun _ => rfl, fun rawToken => ?_⟩
        refine ⟨holdsFromFlush_of_none fun _ => rfl, fun time => ?_⟩
        refine ⟨fun flushed token htoken => ⟨nofun, .inr ?_⟩, fun flushed => ?_⟩
        · cases flushed with
          | none => cases htoken
          | some _ =>
              obtain rfl := Option.some.inj htoken
              exact ⟨rfl, _, rfl⟩
        · refine Prog.every_getOrRaise_bind fun _ _ => ?_
          refine ⟨fun sent token htoken => ⟨nofun, .inl ?_⟩, fun sent => ?_⟩
          · cases sent with
            | none => cases htoken
            | some _ => exact htoken
          · refine Prog.every_getOrRaise_bind fun _ _ => ⟨holdsFromFlush_of_none fun reply => ?_,
              fun reply => ?_⟩
            · cases reply <;> rfl
            · cases reply with
              | none => trivial
              | some id => exact holds_markCompleted

lemma holds_createToken [Field K] (q : ResetJob) :
    (createPasswordResetTokenAndSendEmail (K := K) platform settings q.userId q.jobId).Every
      HoldsFromFlush := by
  refine holds_isCompleted_bind (fun completed => ?_) fun completed => by cases completed <;> rfl
  split_ifs
  · trivial
  · refine ⟨holdsFromFlush_of_none fun found => by cases found <;> rfl, fun found => ?_⟩
    show Prog.Every _ (if found then _ else _)
    split_ifs
    · refine holds_isCompleted_bind (fun completed => ?_) fun completed => by cases completed <;> rfl
      split_ifs
      · trivial
      · exact holds_markCompleted
    · exact holds_sendResetToken

/-- **The commit of an execution** whose token can be inserted: it succeeds when its job is not
completed yet. -/
lemma transaction_commitToken_isSome [LinearOrder K] {gap : ℕ} {now expiresAt : K} {userId : ℕ}
    {tokenHash jobId : String} {db : Database K} (huser : (db.users.row userId).isSome)
    (hfree : ∀ row, db.passwordResetTokens.row row.id = some row → row.tokenHash ≠ tokenHash) :
    (transaction gap now [.insertResetToken userId tokenHash expiresAt,
      .insertResetJobCompletion jobId] none db).isSome ↔
      jobId ∉ db.passwordResetJobCompletions := by
  have htaken : (db.passwordResetTokens.toList.any fun token => token.tokenHash == tokenHash) =
      false := by
    rw [List.any_eq_false]
    intro row hrow
    simpa using hfree row (Table.mem_toList.1 hrow)
  have hsome : db.users.row userId ≠ none := Option.isSome_iff_ne_none.1 huser
  by_cases hmem : jobId ∈ db.passwordResetJobCompletions <;>
    simp [transaction, Statement.exec, htaken, hsome, hmem]

end Programs

/-! ### Runs -/

namespace LinkJobs

section Runs

variable {K : Type} [Field K] [LinearOrder K] [FloorRing K] {ι : Type} [DecidableEq ι]
  {platform : Platform} {collation : Collation} {settings : Settings} {s s' t : LinkJobs ι K}
  {a : LinkAction ι K} {as : List (LinkAction ι K)}

/-- The token that an execution has flushed and not committed. -/
def holding (s : LinkJobs ι K) (i : ι) : Option (ℕ × String) :=
  (s.jobs.calls i).bind fun call => pending call.2

/-- The token can be inserted. -/
structure Insertable (db : Database K) (token : ℕ × String) : Prop where
  user : (db.users.row token.1).isSome
  free : ∀ row, db.passwordResetTokens.row row.id = some row → row.tokenHash ≠ token.2

variable (platform) in
/-- What the locks of the database keep. -/
structure Locked (s : LinkJobs ι K) : Prop where
  orderly : ∀ i q p, s.jobs.calls i = some (q, p) →
    p = .ret () ∨ Orderly platform q p (s.delivered i) (s.committed i)
  holds : ∀ i q p, s.jobs.calls i = some (q, p) → p.Every HoldsFromFlush
  insertable : ∀ i token, s.holding i = some token → Insertable s.jobs.store.db token
  distinct : ∀ i j token token', i ≠ j → s.holding i = some token → s.holding j = some token' →
    token.2 ≠ token'.2

omit [Field K] [LinearOrder K] [FloorRing K] [DecidableEq ι] in
lemma locked_initial (w : World K) : Locked platform (initial w : LinkJobs ι K) :=
  ⟨nofun, nofun, nofun, nofun⟩

/-- **What a job's step does**: an execution starts, issues a command, or dies. -/
lemma step_job_cases {b : PoolAction ι ResetJob (Env K × Redis.Keys K)}
    (h : step platform collation settings s (.job b) = some s') :
    (∃ i q, b = .start i q ∧ s.jobs.calls i = none ∧ s' = ⟨{ s.jobs with
        calls := Function.update s.jobs.calls i (some (q,
          createPasswordResetTokenAndSendEmail platform settings q.userId q.jobId)) },
        Function.update s.delivered i none, Function.update s.committed i []⟩) ∨
    (∃ i e q c k, b = .step i e ∧ s.jobs.calls i = some (q, .call c k) ∧
      let r := c.exec platform collation e.1 { s.jobs.store with keys := e.2 }
      s' = ⟨⟨{ r.2 with clock := e.1.now }, Function.update s.jobs.calls i (some (q, k r.1))⟩,
        Function.update s.delivered i (deliveredAfter c r.1 (s.delivered i)),
        Function.update s.committed i (committedAfter c r.1 (s.committed i))⟩) ∨
    (∃ i, b = .die i ∧ s' = ⟨{ s.jobs with calls := Function.update s.jobs.calls i none },
      s.delivered, s.committed⟩) := by
  obtain ⟨jobs, hjobs, rfl⟩ := Option.map_eq_some_iff.1 h
  rcases Pool.next_cases hjobs with ⟨i, q, rfl, hi, rfl⟩ |
    ⟨i, e, q, c, k, p', w, rfl, hi, rfl, hcmd⟩ | ⟨i, q, p, rfl, hi, rfl⟩
  · exact .inl ⟨i, q, rfl, hi, rfl⟩
  · refine .inr (.inl ⟨i, e, q, c, k, rfl, hi, ?_⟩)
    rcases hcmd with ⟨x, hexec, -⟩ | ⟨reply, hexec, rfl⟩
    · obtain ⟨-, hok, -⟩ := interp_eq_some hexec
      cases hok
    · obtain ⟨-, hok, rfl⟩ := interp_eq_some hexec
      obtain rfl := Except.ok.inj hok
      simp only [record, hi]
  · exact .inr (.inr ⟨i, rfl, rfl⟩)

/-- The tables that a deletion leaves. -/
lemma step_delete_cases {userId : ℕ}
    (h : step platform collation settings s (.deleteUser userId) = some s') :
    ∃ db : Database K, s' = { s with jobs := { s.jobs with store := { s.jobs.store with db } } } ∧
      (∀ k, db.users.row k = (s.jobs.store.db.users.row k).filter fun user => user.id != userId) ∧
      (∀ k row, db.passwordResetTokens.row k = some row →
        s.jobs.store.db.passwordResetTokens.row k = some row) ∧
      db.passwordResetJobCompletions = s.jobs.store.db.passwordResetJobCompletions := by
  obtain ⟨⟨x, db⟩, hexec, rfl⟩ := Option.map_eq_some_iff.1 h
  simp only [Statement.exec] at hexec
  split_ifs at hexec
  obtain ⟨-, rfl⟩ := Prod.mk.inj (Option.some.inj hexec)
  exact ⟨_, rfl, fun k => rfl, fun k row hrow => (Option.filter_eq_some_iff.1 hrow).1, rfl⟩

omit [Field K] [FloorRing K] [DecidableEq ι] in
/-- **A commit** inserts the token that the execution holds, unless its job is completed. -/
lemma Locked.commit (hs : Locked platform s) {i : ι} {q : ResetJob} {statements : List (Statement K)}
    {k : Option (Option ℕ) → AppProg K Unit} (hi : s.jobs.calls i = some (q, .call (.commit statements) k)) :
    ∃ token userId expiresAt, s.delivered i = some token ∧ s.committed i = [] ∧
      statements = [.insertResetToken userId (platform.hashPasswordResetToken token) expiresAt,
        .insertResetJobCompletion q.jobId] ∧
      s.holding i = some (userId, platform.hashPasswordResetToken token) ∧ k none = .ret () ∧
      ∀ gap now, (transaction gap now statements none s.jobs.store.db).isSome ↔
        q.jobId ∉ s.jobs.store.db.passwordResetJobCompletions := by
  obtain horderly | horderly := hs.orderly i q _ hi
  · cases horderly
  obtain ⟨hcommit, hfails, -⟩ := horderly
  obtain ⟨hcommitted, token, userId, expiresAt, hdelivered, rfl⟩ := hcommit statements rfl
  have hholding : s.holding i = some (userId, platform.hashPasswordResetToken token) := by
    rw [holding, hi]
    rfl
  obtain ⟨huser, hfree⟩ := hs.insertable i _ hholding
  exact ⟨token, userId, expiresAt, hdelivered, hcommitted, rfl, hholding, hfails none rfl,
    fun gap now => transaction_commitToken_isSome huser hfree⟩

omit [Field K] [FloorRing K] in
/-- The tables after the transaction of an execution. -/
lemma tables_of_commitToken {gap : ℕ} {now expiresAt : K} {userId : ℕ} {tokenHash jobId : String}
    {db db' : Database K} {x : Option ℕ}
    (h : transaction gap now [.insertResetToken userId tokenHash expiresAt,
      .insertResetJobCompletion jobId] none db = some (x, db')) :
    db'.users = db.users ∧ ∀ row, db'.passwordResetTokens.row row.id = some row →
      db.passwordResetTokens.row row.id = some row ∨ row.tokenHash = tokenHash := by
  obtain ⟨y, db₁, htoken, hrest⟩ := transaction_cons_eq_some.1 h
  obtain ⟨z, db₂, hcompletion, hend⟩ := transaction_cons_eq_some.1 hrest
  obtain ⟨-, rfl⟩ := Prod.mk.inj (Option.some.inj hend)
  simp only [Statement.exec] at htoken hcompletion
  split_ifs at htoken hcompletion with _ hmem
  obtain ⟨-, rfl⟩ := Prod.mk.inj (Option.some.inj htoken)
  obtain ⟨-, rfl⟩ := Prod.mk.inj (Option.some.inj hcompletion)
  refine ⟨rfl, fun row hrow => ?_⟩
  rw [Table.row_insert] at hrow
  split_ifs at hrow with hnew
  · rw [← Option.some.inj hrow]
    exact .inr rfl
  · exact .inl hrow

variable (platform collation) in
/-- The flush of a token that violates no constraint. -/
lemma insertable_of_flush {e : Env K} {w : World K} {userId : ℕ} {tokenHash : String} {expiresAt : K}
    (h : flushes (.flush [.insertResetToken userId tokenHash expiresAt])
      ((Command.flush [.insertResetToken userId tokenHash expiresAt]).exec platform collation e w).1 =
        true) : Insertable w.db (userId, tokenHash) := by
  simp only [flushes, Command.exec, Option.isSome_map, transaction_singleton, Statement.exec] at h
  split_ifs at h with hrefused
  · cases h
  · simp only [Bool.or_eq_true, not_or, Bool.not_eq_true, List.any_eq_false, Table.mem_toList,
      beq_iff_eq, Option.isNone_eq_false_iff] at hrefused
    exact ⟨hrefused.1, fun row hrow => hrefused.2 row hrow⟩

omit [Field K] [LinearOrder K] [FloorRing K] in
lemma holding_update {w : World K} {i j : ι} {call : Option (ResetJob × AppProg K Unit)}
    {delivered : ι → Option String} {committed : ι → List String} :
    holding ⟨⟨w, Function.update s.jobs.calls i call⟩, delivered, committed⟩ j =
      if j = i then call.bind fun call => pending call.2 else s.holding j := by
  simp only [holding, Function.update_apply]
  split_ifs <;> rfl

/-- **A step keeps what the locks keep.** -/
theorem Locked.step (hs : Locked platform s) (hlocks : RespectsLocks s a)
    (h : step platform collation settings s a = some s') : Locked platform s' := by
  cases a with
  | deleteUser userId =>
      obtain ⟨db, rfl, husers, htokens, -⟩ := step_delete_cases h
      refine ⟨hs.orderly, hs.holds, fun i token hi => ?_, hs.distinct⟩
      obtain ⟨huser, hfree⟩ := hs.insertable i token hi
      obtain ⟨⟨q, p⟩, hcall, hpending⟩ := Option.bind_eq_some_iff.1 hi
      have hother : token.1 ≠ userId := by
        rintro rfl
        exact hlocks i q p token.2 hcall hpending
      refine ⟨?_, fun row hrow => hfree row (htokens _ _ hrow)⟩
      obtain ⟨user, hrow⟩ := Option.isSome_iff_exists.1 huser
      have hid : user.id = token.1 := s.jobs.store.db.users.id_of_row hrow
      rw [husers, hrow, Option.filter_some, if_pos (by simpa [hid] using hother)]
      rfl
  | job b =>
      rcases step_job_cases h with ⟨i, q, rfl, hi, rfl⟩ | ⟨i, e, q, c, k, rfl, hi, rfl⟩ | ⟨i, rfl, rfl⟩
      · -- nothing is pending at the start
        have hold : ∀ j token, holding (ι := ι) ⟨⟨s.jobs.store, Function.update s.jobs.calls i (some (q,
            createPasswordResetTokenAndSendEmail platform settings q.userId q.jobId))⟩,
            Function.update s.delivered i none, Function.update s.committed i []⟩ j = some token →
            s.holding j = some token := by
          intro j token hj
          rw [holding_update] at hj
          split_ifs at hj
          · cases hj
          · exact hj
        refine ⟨fun j q' p hj => ?_, Pool.forall_update (P := fun _ p => p.Every HoldsFromFlush) hs.holds
          (holds_createToken q), fun j token hj => hs.insertable j token (hold j token hj),
          fun j l token token' hne hj hl =>
            hs.distinct j l token token' hne (hold j token hj) (hold l token' hl)⟩
        rcases eq_or_ne j i with rfl | hji
        · simp only [Function.update_self]
          obtain ⟨rfl, rfl⟩ := Prod.mk.inj (Option.some.inj
            ((Function.update_self j _ s.jobs.calls).symm.trans hj))
          exact .inr (orderly_createToken q)
        · simp only [Function.update_of_ne hji]
          exact hs.orderly j q' p ((Function.update_of_ne hji _ s.jobs.calls).symm.trans hj)
      · set r := c.exec platform collation e.1 { s.jobs.store with keys := e.2 } with hr
        have hholds := hs.holds i q _ hi
        -- a token that is held afterwards was held before, or has just been flushed
        have hold : ∀ j token, holding (ι := ι) ⟨⟨{ r.2 with clock := e.1.now },
            Function.update s.jobs.calls i (some (q, k r.1))⟩,
            Function.update s.delivered i (deliveredAfter c r.1 (s.delivered i)),
            Function.update s.committed i (committedAfter c r.1 (s.committed i))⟩ j = some token →
            (j = i → ∀ statements, c ≠ .commit statements) ∧
              (s.holding j = some token ∨ j = i ∧ flushes c r.1 = true ∧
                ∃ expiresAt, c = .flush [.insertResetToken token.1 token.2 expiresAt]) := by
          intro j token hj
          rw [holding_update] at hj
          split_ifs at hj with hji
          · obtain ⟨hcommit, hpending | hflush⟩ := hholds.1 r.1 token hj
            · refine ⟨fun _ => hcommit, .inl ?_⟩
              rw [hji, holding, hi]
              exact hpending
            · exact ⟨fun _ => hcommit, .inr ⟨hji, hflush⟩⟩
          · exact ⟨fun h => absurd h hji, .inl hj⟩
        refine ⟨fun j q' p hj => ?_, Pool.forall_update (P := fun _ p => p.Every HoldsFromFlush) hs.holds
          (hholds.2 r.1), fun j token hj => ?_, fun j l token token' hne hj hl => ?_⟩
        · rcases eq_or_ne j i with rfl | hji
          · simp only [Function.update_self]
            obtain ⟨rfl, rfl⟩ := Prod.mk.inj (Option.some.inj
              ((Function.update_self j _ s.jobs.calls).symm.trans hj))
            obtain horderly | horderly := hs.orderly j q _ hi
            · cases horderly
            · cases hfails : commitFails c r.1 with
              | true => exact .inl (horderly.2.1 _ hfails)
              | false => exact .inr (horderly.2.2 _ hfails)
          · simp only [Function.update_of_ne hji]
            exact hs.orderly j q' p ((Function.update_of_ne hji _ s.jobs.calls).symm.trans hj)
        · obtain ⟨hcommit, hheld | ⟨-, hflushes, expiresAt, rfl⟩⟩ := hold j token hj
          · obtain ⟨huser, hfree⟩ := hs.insertable j token hheld
            rcases Command.db_cases platform collation e.1 { s.jobs.store with keys := e.2 } c with
              hdb | ⟨statements, id, rfl, htransaction⟩
            · show Insertable r.2.db token
              rw [hr, hdb]
              exact ⟨huser, hfree⟩
            · -- another execution commits its token, whose hash is another one
              have hji : j ≠ i := fun h => hcommit h statements rfl
              obtain ⟨other, userId, expiresAt, -, -, rfl, hother, -⟩ := hs.commit hi
              obtain ⟨husers, htokens⟩ := tables_of_commitToken htransaction
              refine ⟨?_, fun row hrow => ?_⟩
              · show (r.2.db.users.row token.1).isSome
                rw [hr, husers]
                exact huser
              · rcases htokens row hrow with hrow | hhash
                · exact hfree row hrow
                · rw [hhash]
                  exact hs.distinct i j _ token (Ne.symm hji) hother hheld
          · exact insertable_of_flush platform collation hflushes
        · obtain ⟨-, hheld | ⟨rfl, -, expiresAt, rfl⟩⟩ := hold j token hj
          · obtain ⟨-, hheld' | ⟨rfl, -, expiresAt, rfl⟩⟩ := hold l token' hl
            · exact hs.distinct j l token token' hne hheld hheld'
            · obtain ⟨⟨q', p⟩, hcall, hpending⟩ := Option.bind_eq_some_iff.1 hheld
              intro hsame
              exact hlocks q token'.1 token'.2 expiresAt k hi j q' p token.1 hne hcall
                (hsame ▸ hpending)
          · obtain ⟨-, hheld' | ⟨rfl, -⟩⟩ := hold l token' hl
            · obtain ⟨⟨q', p⟩, hcall, hpending⟩ := Option.bind_eq_some_iff.1 hheld'
              intro hsame
              exact hlocks q token.1 token.2 expiresAt k hi l q' p token'.1 (Ne.symm hne) hcall
                (hsame ▸ hpending)
            · exact absurd rfl hne
      · have hold : ∀ j token, holding (ι := ι) ⟨⟨s.jobs.store, Function.update s.jobs.calls i none⟩,
            s.delivered, s.committed⟩ j = some token → s.holding j = some token := by
          intro j token hj
          rw [holding_update] at hj
          split_ifs at hj
          · cases hj
          · exact hj
        refine ⟨fun j q' p hj => ?_, Pool.forall_die (P := fun _ p => p.Every HoldsFromFlush) hs.holds,
          fun j token hj => hs.insertable j token (hold j token hj),
          fun j l token token' hne hj hl =>
            hs.distinct j l token token' hne (hold j token hj) (hold l token' hl)⟩
        rcases eq_or_ne j i with rfl | hji
        · cases (Function.update_self j none s.jobs.calls).symm.trans hj
        · exact hs.orderly j q' p ((Function.update_of_ne hji _ s.jobs.calls).symm.trans hj)

/-- The programs are where they should be, with what they have delivered and committed. -/
def AllOrderly (platform : Platform) (s : LinkJobs ι K) : Prop :=
  ∀ i q p, s.jobs.calls i = some (q, p) → Orderly platform q p (s.delivered i) (s.committed i)

omit [Field K] [LinearOrder K] [FloorRing K] [DecidableEq ι] in
lemma AllOrderly.works (hs : AllOrderly platform s) : Works platform s :=
  fun i q token hi => hs i q _ hi token

/-- **A step whose commit is the first of its job** leaves the delivered links good. -/
lemma AllOrderly.step (hall : AllOrderly platform s) (hs : Locked platform s)
    (hfirst : CommitsFirst s a) (h : step platform collation settings s a = some s') :
    AllOrderly platform s' := by
  cases a with
  | deleteUser userId =>
      obtain ⟨db, rfl, -⟩ := step_delete_cases h
      exact hall
  | job b =>
      intro j q' p hj
      rcases step_job_cases h with ⟨i, q, rfl, hi, rfl⟩ | ⟨i, e, q, c, k, rfl, hi, rfl⟩ | ⟨i, rfl, rfl⟩
      · rcases eq_or_ne j i with rfl | hji
        · simp only [Function.update_self]
          obtain ⟨rfl, rfl⟩ := Prod.mk.inj (Option.some.inj
            ((Function.update_self j _ s.jobs.calls).symm.trans hj))
          exact orderly_createToken q
        · simp only [Function.update_of_ne hji]
          exact hall j q' p ((Function.update_of_ne hji _ s.jobs.calls).symm.trans hj)
      · rcases eq_or_ne j i with rfl | hji
        · simp only [Function.update_self]
          obtain ⟨rfl, rfl⟩ := Prod.mk.inj (Option.some.inj
            ((Function.update_self j _ s.jobs.calls).symm.trans hj))
          refine (hall j q _ hi).2.2 _ ?_
          cases c with
          | commit statements =>
              -- the job is not completed, so the commit succeeds
              obtain ⟨-, -, -, -, -, -, -, -, hcommit⟩ := hs.commit hi
              obtain ⟨⟨id, db⟩, htransaction⟩ := Option.isSome_iff_exists.1
                ((hcommit e.1.gap e.1.databaseNow).2 (hfirst q statements k hi))
              rw [Command.exec_commit_of_some (w := { s.jobs.store with keys := e.2 }) htransaction]
              rfl
          | _ => rfl
        · simp only [Function.update_of_ne hji]
          exact hall j q' p ((Function.update_of_ne hji _ s.jobs.calls).symm.trans hj)
      · rcases eq_or_ne j i with rfl | hji
        · cases (Function.update_self j none s.jobs.calls).symm.trans hj
        · exact hall j q' p ((Function.update_of_ne hji _ s.jobs.calls).symm.trans hj)

/-- A commit that is not the first of its job leaves a link that does not work. -/
lemma not_works_of_second_commit (hs : Locked platform s) (hsecond : ¬ CommitsFirst s a)
    (h : step platform collation settings s a = some s') : ¬ Works platform s' := by
  cases a with
  | deleteUser userId => exact absurd trivial hsecond
  | job b =>
      rcases step_job_cases h with ⟨i, q, rfl, hi, rfl⟩ | ⟨i, e, q, c, k, rfl, hi, rfl⟩ | ⟨i, rfl, rfl⟩
      · exact absurd trivial hsecond
      · simp only [CommitsFirst, not_forall, not_not] at hsecond
        obtain ⟨q', statements, k', hi', hmem⟩ := hsecond
        obtain ⟨rfl, hcall⟩ := Prod.mk.inj (Option.some.inj (hi.symm.trans hi'))
        obtain ⟨rfl, hk⟩ := Prog.call.inj hcall
        obtain rfl := eq_of_heq hk
        obtain ⟨token, userId, expiresAt, hdelivered, hcommitted, -, -, hnone, hcommit⟩ := hs.commit hi
        have hfails : transaction e.1.gap e.1.databaseNow statements none s.jobs.store.db = none := by
          rw [← Option.not_isSome_iff_eq_none, hcommit]
          exact not_not.2 hmem
        rw [Command.exec_commit_of_none (w := { s.jobs.store with keys := e.2 }) hfails]
        intro hworks
        have hlink := hworks i q token (by simp [hnone]) (by simp [deliveredAfter, hdelivered])
        simp [committedAfter, hcommitted] at hlink
      · exact absurd trivial hsecond

/-- **Every delivered link works, exactly when no execution commits after another one of its job.**  In
every run that the database's locks allow, every execution that has delivered a link and has returned
has committed the token of the link, if and only if every commit is the first of its job. -/
theorem delivered_links_work_iff {w₀ : World K}
    (hlocks : Along (step platform collation settings) RespectsLocks (initial w₀) as)
    (h : exec (step platform collation settings) (initial w₀) as = some s) :
    (∀ bs t, bs <+: as → exec (step platform collation settings) (initial w₀) bs = some t →
      Works platform t) ↔
      Along (step platform collation settings) CommitsFirst (initial w₀) as := by
  constructor
  · intro hworks
    by_contra hnot
    obtain ⟨bs, b, cs, u, v, rfl, hu, hv, hsecond⟩ := exists_of_not_along h hnot
    have hlocked : Locked platform u := exec_invariant_along
      (fun _ _ _ hs hG hstep => hs.step hG hstep) (locked_initial w₀)
      (hlocks.of_isPrefix (List.prefix_append bs _)) hu
    have hprefix : bs ++ [b] <+: bs ++ b :: cs := ⟨cs, by simp⟩
    have hreach : exec (step platform collation settings) (initial w₀) (bs ++ [b]) = some v :=
      exec_append_eq_some.2 ⟨u, hu, exec_cons_eq_some.2 ⟨v, hv, rfl⟩⟩
    exact not_works_of_second_commit hlocked hsecond hv (hworks _ v hprefix hreach)
  · intro hfirst bs t hbs ht
    have hboth := (hlocks.of_isPrefix hbs).and (hfirst.of_isPrefix hbs)
    have hinv : Locked platform t ∧ AllOrderly platform t := exec_invariant_along
      (I := fun s => Locked platform s ∧ AllOrderly platform s)
      (fun _ _ _ hs hG hstep => ⟨hs.1.step hG.1 hstep, hs.2.step hs.1 hG.2 hstep⟩)
      ⟨locked_initial w₀, nofun⟩ hboth ht
    exact hinv.2.works

end Runs

/-! ### One execution, and two of one job -/

/-- The inputs of an execution whose token is a given one. -/
def inputFor (secret : String) : Env ℚ × Redis.Keys ℚ := ({ Env.calm 0 with secret }, .empty)

/-- The steps of the two executions in the world of one user. -/
def smallStep : LinkJobs Bool ℚ → LinkAction Bool ℚ → Option (LinkJobs Bool ℚ) :=
  step Platform.plain Collation.plain {}

/-- Some commands of an execution. -/
def commands (i : Bool) (secret : String) (n : ℕ) : List (LinkAction Bool ℚ) :=
  List.replicate n (.job (.step i (inputFor secret)))

/-- No flush meets the hash of a token that the other execution holds. -/
def noClash (s : LinkJobs Bool ℚ) : LinkAction Bool ℚ → Bool
  | .deleteUser _ => false
  | .job (.step i _) =>
      match s.jobs.calls i with
      | some (_, .call (.flush [.insertResetToken _ tokenHash _]) _) =>
          (s.holding (!i)).all fun token => token.2 != tokenHash
      | _ => true
  | .job _ => true

lemma respectsLocks_of_noClash (s : LinkJobs Bool ℚ) (a : LinkAction Bool ℚ)
    (h : noClash s a = true) : RespectsLocks s a := by
  cases a with
  | deleteUser userId => cases h
  | job b =>
      cases b with
      | start i q => trivial
      | die i => trivial
      | step i e =>
          intro q userId tokenHash expiresAt k hi j q' p userId' hji hj hpending
          have hother : j = !i := Bool.eq_not.2 hji
          subst hother
          have hheld : s.holding (!i) = some (userId', tokenHash) := by
            rw [holding, hj]
            exact hpending
          simp [noClash, hi, hheld] at h

/-- The commit is the first of its job. -/
def isFirst (s : LinkJobs Bool ℚ) : LinkAction Bool ℚ → Bool
  | .job (.step i _) =>
      match s.jobs.calls i with
      | some (q, .call (.commit _) _) => !s.jobs.store.db.passwordResetJobCompletions.contains q.jobId
      | _ => true
  | _ => true

lemma commitsFirst_of_isFirst (s : LinkJobs Bool ℚ) (a : LinkAction Bool ℚ)
    (h : isFirst s a = true) : CommitsFirst s a := by
  cases a with
  | deleteUser userId => trivial
  | job b =>
      cases b with
      | start i q => trivial
      | die i => trivial
      | step i e =>
          intro q statements k hi
          simpa [isFirst, hi] using h

/-- An execution that is alone. -/
def oneExecution : List (LinkAction Bool ℚ) :=
  .job (.start false ⟨1, "job"⟩) :: commands false "first" 9

theorem delivered_links_work_iff_oneExecution : ∃ s : LinkJobs Bool ℚ,
    exec smallStep (initial World.oneUser) oneExecution = some s ∧
      s.delivered false = some "first" ∧ Works Platform.plain s := by
  have hrun : ((exec smallStep (initial World.oneUser) oneExecution).any fun s =>
      s.delivered false == some "first") = true := by
    decide +kernel
  obtain ⟨s, hs, hdelivered⟩ := (Option.any_eq_true _ _).1 hrun
  have hlocks : Along smallStep RespectsLocks (initial World.oneUser) oneExecution :=
    along_of_checkAlong respectsLocks_of_noClash (by decide +kernel)
  have hfirst : Along smallStep CommitsFirst (initial World.oneUser) oneExecution :=
    along_of_checkAlong commitsFirst_of_isFirst (by decide +kernel)
  exact ⟨s, hs, beq_iff_eq.1 hdelivered,
    (delivered_links_work_iff hlocks hs).2 hfirst oneExecution s (List.prefix_refl _) hs⟩

/-- Two executions of one job send their emails before either of them commits. -/
def twoExecutions : List (LinkAction Bool ℚ) :=
  [.job (.start false ⟨1, "job"⟩), .job (.start true ⟨1, "job"⟩)] ++
    commands false "first" 7 ++ commands true "second" 7 ++ commands false "first" 2 ++
    commands true "second" 1

/-- The execution has returned. -/
def isDone : AppProg ℚ Unit → Bool
  | .ret () => true
  | _ => false

/-- The second execution has delivered a link whose token was not committed. -/
theorem second_link_fails : ∃ s : LinkJobs Bool ℚ,
    exec smallStep (initial World.oneUser) twoExecutions = some s ∧
      Along smallStep RespectsLocks (initial World.oneUser) twoExecutions ∧
      ¬ Works Platform.plain s := by
  have hrun : ((exec smallStep (initial World.oneUser) twoExecutions).any fun s =>
      ((s.jobs.calls true).any fun call => isDone call.2) &&
        s.delivered true == some "second" && s.committed true == []) = true := by
    decide +kernel
  obtain ⟨s, hs, hcheck⟩ := (Option.any_eq_true _ _).1 hrun
  simp only [Bool.and_eq_true, beq_iff_eq] at hcheck
  obtain ⟨⟨hdone, hdelivered⟩, hcommitted⟩ := hcheck
  obtain ⟨⟨q, p⟩, hi, hp⟩ := (Option.any_eq_true _ _).1 hdone
  refine ⟨s, hs, along_of_checkAlong respectsLocks_of_noClash (by decide +kernel), fun hworks => ?_⟩
  cases p with
  | raise x => cases hp
  | call c k => cases hp
  | ret a =>
      have hlink := hworks true q "second" hi hdelivered
      rw [hcommitted] at hlink
      cases hlink

end LinkJobs

end StarterBackend.Sessions

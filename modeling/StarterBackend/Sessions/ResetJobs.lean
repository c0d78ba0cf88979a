/-
The jobs that send reset emails.

Any number of executions of `create_password_reset_token_and_send_email` run at the same
time, for any jobs, each command of them as one step.  Redis may have lost or gained any
keys before each command, emails may fail, and a process may die between any two
commands.

An execution commits its token together with the row that says that its job is completed,
and the ids of completed jobs are unique.  So a job has as many tokens as completions, and
an execution that starts when there is a completion finds it and does nothing.
-/
import StarterBackend.App.Auth

namespace StarterBackend.Sessions

open Lib App

/-- An execution of `create_password_reset_token_and_send_email`. -/
structure ResetJob where
  userId : ℕ
  jobId : String

/-- The executions that run, and the world that they run in. -/
abbrev ResetJobs (ι K : Type) := Pool ι ResetJob (AppProg K Unit) (World K)

namespace ResetJobs

variable {K : Type} [Field K] [LinearOrder K] [FloorRing K] {ι : Type} [DecidableEq ι]

/-- The commands of the executions, on keys of Redis that may have changed in any way before each of
them. -/
def keysInterp (platform : Platform) (collation : Collation) :
    Prog.Interp (Command K) Command.Reply AppError (World K) (Env K × Redis.Keys K) :=
  fun c e w => interp platform collation c e.1 { w with keys := e.2 }

variable (platform : Platform) (collation : Collation) (settings : Settings)

/-- One step of one execution. -/
def step (s : ResetJobs ι K) (a : PoolAction ι ResetJob (Env K × Redis.Keys K)) :
    Option (ResetJobs ι K) :=
  Pool.next (keysInterp platform collation)
    (fun q => createPasswordResetTokenAndSendEmail platform settings q.userId q.jobId) s a

/-- How many reset tokens there are. -/
def tokens (s : ResetJobs ι K) : ℕ := s.store.db.passwordResetTokens.toList.length

/-- How many rows `password_reset_job_completions` has for the job. -/
def completions (s : ResetJobs ι K) (jobId : String) : ℕ :=
  s.store.db.passwordResetJobCompletions.count jobId

/-- The step is one of an execution of the job. -/
def worksFor (jobId : String) (s : ResetJobs ι K) : PoolAction ι ResetJob (Env K × Redis.Keys K) → Bool
  | .step i _ => (s.calls i).any fun call => call.1.jobId == jobId
  | _ => false

/-- How many tokens the executions of the job commit in a run. -/
def committedTokens (jobId : String) :
    ResetJobs ι K → List (PoolAction ι ResetJob (Env K × Redis.Keys K)) → ℕ
  | _, [] => 0
  | s, a :: as =>
      match step platform collation settings s a with
      | none => 0
      | some s' => (if worksFor jobId s a then s'.tokens - s.tokens else 0) + committedTokens jobId s' as

end ResetJobs

/-! ### What the executions commit -/

section Commits

variable {K : Type}

/-- The only transaction of an execution has a token and the completion of the job. -/
def CommitsToken (q : ResetJob) (c : Command K) : Prop :=
  ∀ statements, c = .commit statements → ∃ userId tokenHash expiresAt,
    statements = [.insertResetToken userId tokenHash expiresAt, .insertResetJobCompletion q.jobId]

variable {platform : Platform} {settings : Settings} {q : ResetJob}

lemma every_isCompleted :
    (isPasswordResetJobCompleted (K := K) q.jobId).Every fun c _ => CommitsToken q c := by
  refine ⟨nofun, fun r => ?_⟩
  cases r <;> trivial

lemma every_markCompleted :
    (markPasswordResetJobCompleted (K := K) settings q.jobId).Every fun c _ => CommitsToken q c := by
  refine ⟨nofun, fun r => ?_⟩
  cases r <;> trivial

lemma every_sendResetToken [Field K] :
    (sendResetToken (K := K) platform settings q.userId q.jobId).Every
      fun c _ => CommitsToken q c := by
  refine ⟨nofun, fun user => ?_⟩
  cases user with
  | none => trivial
  | some user =>
      show Prog.Every _ (if !user.isActive then _ else _)
      split_ifs
      · trivial
      · refine ⟨nofun, fun rawToken => ⟨nofun, fun time => ⟨nofun, fun flushed => ?_⟩⟩⟩
        refine Prog.every_getOrRaise_bind fun _ _ => ⟨nofun, fun sent => ?_⟩
        refine Prog.every_getOrRaise_bind fun _ _ => ⟨?_, fun committed => ?_⟩
        · rintro statements ⟨⟩
          exact ⟨_, _, _, rfl⟩
        · cases committed with
          | none => trivial
          | some id => exact every_markCompleted

lemma every_createToken [Field K] (q : ResetJob) :
    (createPasswordResetTokenAndSendEmail (K := K) platform settings q.userId q.jobId).Every
      fun c _ => CommitsToken q c := by
  refine Prog.Every.bind every_isCompleted fun completed => ?_
  split_ifs
  · trivial
  · refine ⟨nofun, fun completed => ?_⟩
    show Prog.Every _ (if completed then _ else _)
    split_ifs
    · refine Prog.Every.bind every_isCompleted fun completed => ?_
      split_ifs
      · trivial
      · exact every_markCompleted
    · exact every_sendResetToken

/-- **The transaction of an execution** adds one token and one completion, of its job, which had
none. -/
lemma exec_commitToken [LinearOrder K] {gap : ℕ} {now expiresAt : K} {userId : ℕ} {tokenHash jobId : String}
    {db db' : Database K} {x : Option ℕ}
    (h : transaction gap now [.insertResetToken userId tokenHash expiresAt,
      .insertResetJobCompletion jobId] none db = some (x, db')) :
    jobId ∉ db.passwordResetJobCompletions ∧
      db'.passwordResetJobCompletions = jobId :: db.passwordResetJobCompletions ∧
      db'.passwordResetTokens.toList.length = db.passwordResetTokens.toList.length + 1 := by
  obtain ⟨y, db₁, htoken, hrest⟩ := transaction_cons_eq_some.1 h
  obtain ⟨z, db₂, hcompletion, hend⟩ := transaction_cons_eq_some.1 hrest
  obtain ⟨-, rfl⟩ := Prod.mk.inj (Option.some.inj hend)
  simp only [Statement.exec] at htoken hcompletion
  split_ifs at htoken hcompletion with _ hmem
  obtain ⟨-, rfl⟩ := Prod.mk.inj (Option.some.inj htoken)
  obtain ⟨-, rfl⟩ := Prod.mk.inj (Option.some.inj hcompletion)
  refine ⟨hmem, rfl, ?_⟩
  rw [Table.toList_insert, List.length_append, List.length_singleton]

end Commits

/-! ### Runs -/

namespace ResetJobs

variable {K : Type} [Field K] [LinearOrder K] [FloorRing K] {ι : Type} [DecidableEq ι]
  {platform : Platform} {collation : Collation} {settings : Settings} {s s' t : ResetJobs ι K}
  {a : PoolAction ι ResetJob (Env K × Redis.Keys K)}
  {as bs : List (PoolAction ι ResetJob (Env K × Redis.Keys K))} {jobId : String}

/-- What is left of the executions commits tokens with their completions. -/
def Commits (s : ResetJobs ι K) : Prop :=
  ∀ i q p, s.calls i = some (q, p) → p.Every fun c _ => CommitsToken q c

variable (jobId) in
/-- **One step** adds as many tokens for the job as completions, and no second completion. -/
theorem step_counts (hs : Commits s) (h : step platform collation settings s a = some s') :
    Commits s' ∧ s.completions jobId + (if worksFor jobId s a then s'.tokens - s.tokens else 0) =
      s'.completions jobId ∧ (s.completions jobId ≤ 1 → s'.completions jobId ≤ 1) := by
  rcases Pool.next_cases h with ⟨i, q, rfl, hi, rfl⟩ |
    ⟨i, e, q, c, k, p', w, rfl, hi, rfl, hcmd⟩ | ⟨i, q, p, rfl, hi, rfl⟩
  · exact ⟨Pool.forall_update (P := fun q p => p.Every fun c _ => CommitsToken q c) hs
      (every_createToken q), rfl, id⟩
  · have hcall := hs i q _ hi
    obtain ⟨x, hexec⟩ : ∃ x, keysInterp platform collation c e s.store = some (x, w) := by
      rcases hcmd with ⟨x, hexec, -⟩ | ⟨r, hexec, -⟩
      · exact ⟨_, hexec⟩
      · exact ⟨_, hexec⟩
    have hrest : Commits (⟨w, Function.update s.calls i (some (q, p'))⟩ : ResetJobs ι K) := by
      refine Pool.forall_update (P := fun q p => p.Every fun c _ => CommitsToken q c) hs ?_
      rcases hcmd with ⟨x, -, rfl⟩ | ⟨r, -, rfl⟩
      · trivial
      · exact hcall.2 r
    obtain ⟨-, -, rfl⟩ := interp_eq_some hexec
    refine ⟨hrest, ?_⟩
    have hworks : worksFor jobId s (.step i e) = (q.jobId == jobId) := by simp [worksFor, hi]
    rw [hworks]
    rcases Command.db_cases platform collation e.1 { s.store with keys := e.2 } c with
      hdb | ⟨statements, id, rfl, hcommit⟩
    · simp [completions, tokens, hdb]
    · obtain ⟨userId, tokenHash, expiresAt, rfl⟩ := hcall.1 statements rfl
      obtain ⟨hnew, hcompletions, htokens⟩ := exec_commitToken hcommit
      simp only [completions, tokens, hcompletions, htokens, List.count_cons]
      split_ifs with heq
      · obtain rfl := beq_iff_eq.1 heq
        rw [List.count_eq_zero.2 hnew]
        omega
      · omega
  · exact ⟨Pool.forall_die (P := fun q p => p.Every fun c _ => CommitsToken q c) hs, rfl, id⟩

variable (jobId) in
/-- **A run** commits as many tokens for the job as completions. -/
lemma run_counts (hs : Commits s) (h : exec (step platform collation settings) s as = some t) :
    s.completions jobId + committedTokens platform collation settings jobId s as =
      t.completions jobId ∧ (s.completions jobId ≤ 1 → t.completions jobId ≤ 1) := by
  induction as generalizing s with
  | nil =>
      obtain rfl : s = t := by simpa using h
      exact ⟨rfl, id⟩
  | cons a as ih =>
      obtain ⟨s', hs', h'⟩ := exec_cons_eq_some.1 h
      obtain ⟨hcommits, hcount, hone⟩ := step_counts jobId hs hs'
      obtain ⟨hcount', hone'⟩ := ih hcommits h'
      simp only [committedTokens, hs']
      exact ⟨by omega, fun h => hone' (hone h)⟩

/-- The command sends an email, or ends a transaction. -/
def Acts : Command K → Prop
  | .sendPasswordResetEmail _ _ => True
  | .commit _ => True
  | _ => False

/-- While the job is completed, the query for its completion finds one. -/
def FindsCompletion (jobId : String) : (c : Command K) → c.Reply → Prop
  | .query (.resetJobCompletion jobId'), found => jobId' = jobId → found = true
  | _, _ => True

omit [Field K] [LinearOrder K] [FloorRing K] in
lemma everyIf_isCompleted {answers : (c : Command K) → c.Reply → Prop} :
    (isPasswordResetJobCompleted jobId).EveryIf answers fun c => ¬ Acts c :=
  ⟨id, fun r _ => by cases r <;> trivial⟩

omit [LinearOrder K] [FloorRing K] in
/-- An execution of a completed job neither sends an email nor commits anything. -/
lemma everyIf_createToken (q : ResetJob) (hq : q.jobId = jobId) :
    (createPasswordResetTokenAndSendEmail (K := K) platform settings q.userId q.jobId).EveryIf
      (FindsCompletion jobId) fun c => ¬ Acts c := by
  subst hq
  refine Prog.EveryIf.bind everyIf_isCompleted fun completed => ?_
  split_ifs
  · trivial
  · refine ⟨id, fun found hfound => ?_⟩
    obtain rfl : found = true := hfound rfl
    show Prog.EveryIf _ _ (Prog.bind (isPasswordResetJobCompleted q.jobId) _)
    refine Prog.EveryIf.bind everyIf_isCompleted fun completed => ?_
    split_ifs
    · trivial
    · exact ⟨id, fun r _ => by cases r <;> trivial⟩

/-- No command takes a completion back. -/
lemma mem_completions_of_interp {c : Command K} {e : Env K × Redis.Keys K} {w w' : World K}
    {x : Except AppError c.Reply} (hmem : jobId ∈ w.db.passwordResetJobCompletions)
    (h : keysInterp platform collation c e w = some (x, w')) :
    jobId ∈ w'.db.passwordResetJobCompletions := by
  obtain ⟨-, -, rfl⟩ := interp_eq_some h
  rcases Command.db_cases platform collation e.1 { w with keys := e.2 } c with
    hdb | ⟨statements, id, -, hcommit⟩
  · exact hdb.symm ▸ hmem
  · exact transaction_invariant (I := fun db => jobId ∈ db.passwordResetJobCompletions)
      (fun _ _ _ _ _ h hexec => mem_completions_of_exec hexec h) hcommit hmem

lemma findsCompletion_of_interp {c : Command K} {e : Env K × Redis.Keys K} {w w' : World K}
    {r : c.Reply} (hmem : jobId ∈ w.db.passwordResetJobCompletions)
    (h : keysInterp platform collation c e w = some (.ok r, w')) : FindsCompletion jobId c r := by
  obtain ⟨-, hreply, -⟩ := interp_eq_some h
  obtain rfl := Except.ok.inj hreply
  unfold FindsCompletion
  split
  · rintro rfl
    exact decide_eq_true hmem
  · trivial

/-- **A reset job commits one token.**  In every run the executions of a job commit as many tokens as
completions of the job, and one at most; and an execution that starts when there is a
completion comes to no command that sends an email or commits anything. -/
theorem reset_job_commits_one_token {w₀ : World K} (hnew : jobId ∉ w₀.db.passwordResetJobCompletions)
    (hs : exec (step platform collation settings) (Pool.initial w₀) as = some s) :
    committedTokens platform collation settings jobId (Pool.initial w₀ : ResetJobs ι K) as =
      s.completions jobId ∧ s.completions jobId ≤ 1 ∧
    (s.completions jobId = 1 → ∀ bs t i q c k, exec (step platform collation settings) s bs = some t →
      s.calls i = none → t.calls i = some (q, .call c k) → q.jobId = jobId → ¬ Acts c) := by
  have hzero : completions (Pool.initial w₀ : ResetJobs ι K) jobId = 0 := List.count_eq_zero.2 hnew
  have hempty : Commits (Pool.initial w₀ : ResetJobs ι K) := nofun
  obtain ⟨hcount, hone⟩ := run_counts jobId hempty hs
  rw [hzero, Nat.zero_add] at hcount
  refine ⟨hcount, hone (by omega), fun hdone bs t i q c k ht hi hcall hq => ?_⟩
  have hmem : jobId ∈ s.store.db.passwordResetJobCompletions := by
    refine List.count_pos_iff.1 ?_
    rw [show s.store.db.passwordResetJobCompletions.count jobId = 1 from hdone]
    exact Nat.one_pos
  have hkept : ∀ (c : Command K) (e : Env K × Redis.Keys K) (w : World K)
      (x : Except AppError c.Reply) (w' : World K), jobId ∈ w.db.passwordResetJobCompletions →
      keysInterp platform collation c e w = some (x, w') →
      jobId ∈ w'.db.passwordResetJobCompletions := fun _ _ _ _ _ => mem_completions_of_interp
  have hfinds : ∀ (c : Command K) (e : Env K × Redis.Keys K) (w : World K) (r : c.Reply)
      (w' : World K), jobId ∈ w.db.passwordResetJobCompletions →
      keysInterp platform collation c e w = some (.ok r, w') → FindsCompletion jobId c r :=
    fun _ _ _ _ _ => findsCompletion_of_interp
  have hbody : ∀ q : ResetJob, q.jobId = jobId →
      (createPasswordResetTokenAndSendEmail (K := K) platform settings q.userId q.jobId).EveryIf
        (FindsCompletion jobId) fun c => ¬ Acts c := everyIf_createToken
  have heveryIf := Pool.everyIf_of_started hkept hfinds hbody hmem hi ht hcall hq
  exact heveryIf.1

/-- An execution for the one user, whose email is sent. -/
def someExecution : List (PoolAction (Fin 2) ResetJob (Env ℚ × Redis.Keys ℚ)) :=
  .start ⟨0, Nat.two_pos⟩ ⟨1, "job"⟩ ::
    List.replicate 9 (.step ⟨0, Nat.two_pos⟩ (Env.calm 0, .empty))

/-- The execution commits one token, and one that starts after it comes to no command that acts. -/
theorem reset_job_commits_one_token_someExecution :
    ∃ (s t : ResetJobs (Fin 2) ℚ) (q : ResetJob) (c : Command ℚ) (k : c.Reply → AppProg ℚ Unit),
      exec (step Platform.plain Collation.plain {}) (Pool.initial World.oneUser) someExecution =
        some s ∧
      committedTokens Platform.plain Collation.plain {} "job"
        (Pool.initial World.oneUser : ResetJobs (Fin 2) ℚ) someExecution = s.completions "job" ∧
      s.completions "job" = 1 ∧
      step Platform.plain Collation.plain {} s (.start 1 ⟨1, "job"⟩) = some t ∧
      t.calls 1 = some (q, .call c k) ∧ ¬ Acts c := by
  have hrun : ((exec (step Platform.plain Collation.plain {}) (Pool.initial World.oneUser)
      someExecution : Option (ResetJobs (Fin 2) ℚ)).any fun s =>
        s.completions "job" == 1 && (s.calls 1).isNone) = true := by
    decide +kernel
  obtain ⟨s, hs, hrun⟩ := (Option.any_eq_true _ _).1 hrun
  simp only [Bool.and_eq_true, beq_iff_eq, Option.isNone_iff_eq_none] at hrun
  obtain ⟨hdone, hidle⟩ := hrun
  have hnew : "job" ∉ World.oneUser.db.passwordResetJobCompletions := List.not_mem_nil
  obtain ⟨hcount, -, hlate⟩ := reset_job_commits_one_token hnew hs
  obtain ⟨c, k, hprogram⟩ : ∃ c k,
      createPasswordResetTokenAndSendEmail (K := ℚ) Platform.plain {} 1 "job" = .call c k := ⟨_, _, rfl⟩
  have hstart : step Platform.plain Collation.plain {} s (.start 1 ⟨1, "job"⟩) =
      some ⟨s.store, Function.update s.calls 1 (some (⟨1, "job"⟩, .call c k))⟩ := by
    simp [step, Pool.next, hidle, hprogram]
  have hcall : Function.update s.calls 1 (some (⟨1, "job"⟩, .call c k)) 1 =
      some (⟨1, "job"⟩, .call c k) := Function.update_self ..
  exact ⟨s, _, ⟨1, "job"⟩, c, k, hs, hcount, hdone, hstart, hcall,
    hlate hdone [.start 1 ⟨1, "job"⟩] _ 1 _ c k (exec_cons_eq_some.2 ⟨_, hstart, exec_nil⟩) hidle
      hcall rfl⟩

end ResetJobs

end StarterBackend.Sessions

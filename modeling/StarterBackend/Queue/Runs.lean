/-
The runs of the queue system, with every operation as one atomic step.

Producers, workers, queue maintenance and operators run as processes of a pool, in any
number and any order.  A worker is suspended between any two of its operations for as
long as the schedule wants, so it may finish a job that has been reclaimed from it in
the meantime, and it may die.
-/
import StarterBackend.Queue.Exact

namespace StarterBackend.Queue

open Lib

/-- The processes of the system and the store that they share. -/
abbrev System (ι : Type*) := Pool ι Request (WorkerProg Unit) QueueStore

namespace System

variable {ι : Type*} [DecidableEq ι] (settings : WorkerSettings)

/-- One step of the system: a process starts, performs its next operation, or dies. -/
def step (s : System ι) (a : PoolAction ι Request Env) : Option (System ι) :=
  Pool.next (Prog.atomically (Operation.commands settings) interp) (Request.program settings) s a

/-- The empty system. -/
def initial : System ι := Pool.initial .empty

/-- A process finishes a job (acknowledges, retries or fails it) only while its own entry is in
the processing list. -/
def FinishesOwn (s : System ι) : PoolAction ι Request Env → Prop
  | .step i _ => ∀ q o k job, s.calls i = some (q, .call o k) → o.finishes = some job →
      job.toJson ∈ s.store.redis.list .processing
  | _ => True

variable {settings} {as : List (PoolAction ι Request Env)} {s t : System ι}

/-- Between two operations no process owes a job. -/
lemma not_carries {x : Submission} {p : WorkerProg Unit} :
    ¬ (Operation.custody settings).Carries x p := by
  intro h
  cases p with
  | ret a => exact h
  | raise e => exact h
  | call o k =>
      have hgives : (none : Option Submission) = some x := h
      simp at hgives

omit [DecidableEq ι] in
lemma diesClean (s : System ι) (a : PoolAction ι Request Env) :
    (Operation.custody settings).DiesClean s a := by
  cases a with
  | start i q => trivial
  | step i e => trivial
  | die i =>
      intro q p x _ hx
      exact absurd hx not_carries

/-- In every run the submitted jobs are covered. -/
lemma covered (h : exec (step settings) initial as = some t) :
    (Operation.custody settings).Covered (fun _ _ _ _ => True) t :=
  Custody.covered_run (K := Operation.custody settings) Operation.settles_program
    QueueStore.wf_empty nofun (along_of_forall diesClean) h

/-- One step keeps the counts exact. -/
lemma exact_step {a : PoolAction ι Request Env}
    (hcov : (Operation.custody settings).Covered (fun _ _ _ _ => True) s) (hs : s.store.Exact)
    (hown : FinishesOwn s a) (h : step settings s a = some t) : t.store.Exact := by
  rcases Pool.next_cases h with ⟨i, q, rfl, hi, rfl⟩ |
    ⟨i, e, q, o, k, p', t, rfl, hi, rfl, hcmd⟩ | ⟨i, q, p, rfl, hi, rfl⟩
  · exact hs
  · have hfin : ∀ job, o.finishes = some job → job.toJson ∈ s.store.redis.list .processing :=
      fun job hjob => hown q o k job hi hjob
    rcases hcmd with ⟨x, hrun, -⟩ | ⟨r, hrun, -⟩
    · exact exact_operation hcov.inv hs hfin hrun
    · exact exact_operation hcov.inv hs hfin hrun
  · exact hs

/-- Runs in which jobs are finished only by their owners keep the counts exact. -/
lemma exact_run (hown : Along (step settings) FinishesOwn (initial : System ι) as)
    (h : exec (step settings) initial as = some t) : t.store.Exact := by
  have hinit : (Operation.custody settings).Covered (fun _ _ _ _ => True) (initial : System ι) ∧
      (initial : System ι).store.Exact := ⟨⟨QueueStore.wf_empty, nofun, nofun⟩, nofun, nofun⟩
  refine (exec_invariant_along (I := fun s => (Operation.custody settings).Covered
    (fun _ _ _ _ => True) s ∧ s.store.Exact) (fun s a t hs hG hst => ?_) hinit hown h).2
  exact ⟨hs.1.next Operation.settles_program (diesClean s a) hst, exact_step hs.1 hs.2 hG hst⟩

/-- **The queue delivers at least once.** In every state that a run reaches, a submitted job of
which no execution of the handler has returned has an entry, and every entry of its id
carries what was submitted.  In a run in which jobs are finished only by workers that own
them, a submitted job has exactly one entry until it is acknowledged, and none after that. -/
theorem at_least_once (h : exec (step settings) (initial : System ι) as = some t) :
    (∀ x ∈ t.store.enqueued, x.id ∉ t.store.returned → 0 < t.store.count x.id) ∧
    (∀ x ∈ t.store.enqueued, ∀ raw, t.store.redis.Holds raw → hasId x.id raw = true →
      ∃ job : Job, job.toJson = raw ∧ job.submission = x) ∧
    (Along (step settings) FinishesOwn (initial : System ι) as →
      ∀ x ∈ t.store.enqueued, t.store.count x.id = if x.id ∈ t.store.acked then 0 else 1) := by
  have hcov := covered h
  refine ⟨fun x hx hret => ?_, fun x hx raw hraw hid => ?_, fun hown => (exact_run hown h).count⟩
  · rcases hcov.covered x hx with ⟨raw, hraw, hsub⟩ | ⟨i, q, p, -, hp⟩ | hfree
    · exact Redis.Lists.count_pos_iff.2 ⟨raw, hraw, by simp [hasId, hsub]⟩
    · exact absurd hp not_carries
    · exact absurd hfree hret
  · obtain ⟨job, rfl, hjob, -⟩ := hcov.inv.entries raw hraw
    rw [hasId_toJson, beq_iff_eq] at hid
    exact ⟨job, rfl, List.inj_on_of_nodup_map hcov.inv.ids hjob hx hid⟩

end System

/-! ### A run -/

/-- The clocks of a run at the beginning of time, and a handler that returns. -/
def someEnv : Env := ⟨⟨0, by decide⟩, 0, none⟩

/-- The readings of the clocks after the visibility timeout, and how the handler ends. -/
def laterEnv (error : Option String) : Env := ⟨⟨300000000, by decide⟩, 300, error⟩

def someSubmission : Submission :=
  ⟨"a", verifyPresignedUploadJob, ⟨[("uploaded_file_id", .num 1)], by decide⟩, none⟩

/-- A producer submits a job. -/
def enqueueRun : List (PoolAction ℕ Request Env) :=
  [.start 0 (.enqueue someSubmission), .step 0 someEnv]

/-- After it the job has one entry. -/
theorem System.at_least_once_enqueueRun :
    ∃ t, exec (step {}) (initial : System ℕ) enqueueRun = some t ∧
      0 < t.store.count someSubmission.id ∧ t.store.count someSubmission.id = 1 := by
  obtain ⟨t, ht, henqueued, hreturned, hacked⟩ :
      ∃ t, exec (step {}) (initial : System ℕ) enqueueRun = some t ∧
        t.store.enqueued = [someSubmission] ∧ t.store.returned = [] ∧ t.store.acked = [] :=
    ⟨_, rfl, rfl, rfl, rfl⟩
  have hmem : someSubmission ∈ t.store.enqueued := by simp [henqueued]
  have hown : Along (step {}) FinishesOwn (initial : System ℕ) enqueueRun := by
    refine ⟨trivial, fun s hs => ⟨fun q o k job hi hfin => ?_, fun _ _ => trivial⟩⟩
    obtain rfl := Option.some.inj hs
    have hcall : some (Request.enqueue someSubmission, Prog.call (Operation.enqueueJob someSubmission)
      _) = some (q, Prog.call o k) := hi
    obtain rfl : Operation.enqueueJob someSubmission = o := by
      injection (Prod.mk.inj (Option.some.inj hcall)).2
    exact absurd hfin nofun
  refine ⟨t, ht, (at_least_once ht).1 _ hmem (by simp [hreturned]), ?_⟩
  simpa [hacked] using (at_least_once ht).2.2 hown _ hmem

/-! ### One job -/

/-- The job while it is processed. -/
def takenJob : Job := someSubmission.job.withProcessingStartedAt none someEnv.now

/-- The store after somebody has submitted the job. -/
def submittedStore : QueueStore :=
  { QueueStore.empty.after (.lpush .main someSubmission.job.toJson) with
    enqueued := [someSubmission] }

/-- The store of the job, with its only entry in a list. -/
def storeOf (key : QueueKey) (job : Job) : QueueStore :=
  ⟨⟨Function.update (fun _ => []) key [job.toJson], fun _ => ∅⟩, [someSubmission], [], []⟩

lemma run_dequeueJob_submitted : dequeueJob.run interp someEnv submittedStore =
    some (.ok (some takenJob), storeOf .processing takenJob) := by
  have hlast : (submittedStore.redis.list .main).getLast? = some someSubmission.job.toJson := rfl
  rw [run_dequeueJob hlast rfl, Option.some.injEq]
  simp only [submittedStore, QueueStore.after, Redis.Command.exec, QueueStore.empty, storeOf,
    takenJob]
  congr 3
  funext key
  cases key <;> simp

namespace System

/-- The step of a process whose next operation returns. -/
lemma step_of_run {ι : Type} [DecidableEq ι] {settings : WorkerSettings} {s : System ι} {i : ι}
    {e : Env} {q : Request} {o : Operation} {k : o.Result → WorkerProg Unit} {r : o.Result}
    {t : QueueStore} (hi : s.calls i = some (q, .call o k))
    (h : (o.commands settings).run interp e s.store = some (.ok r, t)) :
    step settings s (.step i e) = some ⟨t, Function.update s.calls i (some (q, k r))⟩ := by
  simp [step, Pool.next, hi, Prog.step, Prog.atomically, h]

end System

end StarterBackend.Queue

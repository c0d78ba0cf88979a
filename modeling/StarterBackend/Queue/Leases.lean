/-
Workers that have lost their lease.

A worker holds a job as long as its own entry is in the processing list.  When the job
is reclaimed from a worker whose handler is slow, the entry is gone, and it does not come
back, since every later entry of the job has another start of processing.  The worker
finishes the job all the same: an acknowledgement then removes nothing, but a retry and a
failure write a second entry, whatever their removal returned.
-/
import StarterBackend.Queue.Runs

namespace StarterBackend.Queue

open Lib

/-! ### Entries in the processing list -/

/-- The commands that put an entry into the processing list. -/
def Command.fillsProcessing : Command → Bool
  | .redis c => c.fills .processing
  | _ => false

section Processing

variable {s s' : QueueStore} {e : Env} {settings : WorkerSettings} {raw : String} {limit : Option ℤ}
  {α : Type}

/-- The other commands add nothing to it. -/
lemma not_mem_processing_interp {c : Command} (hc : c.fillsProcessing = false)
    {x : Except JobError c.Reply} (h : interp c e s = some (x, s'))
    (hraw : raw ∉ s.redis.list .processing) : raw ∉ s'.redis.list .processing := by
  cases c with
  | redis c =>
      obtain ⟨-, rfl⟩ : .ok (c.exec s.redis).1 = x ∧
          { s with redis := (c.exec s.redis).2 } = s' := by simpa [interp] using h
      exact fun hmem => hraw (Redis.Command.mem_list_of_exec hc hmem)
  | push job =>
      simp only [interp] at h
      split_ifs at h
      obtain ⟨-, rfl⟩ := Prod.mk.inj (Option.some.inj h)
      exact fun hmem => hraw (Redis.Command.mem_list_of_exec (c := .lpush .main job.toJson) rfl hmem)
  | remove job =>
      obtain ⟨-, rfl⟩ := Prod.mk.inj (Option.some.inj h)
      exact fun hmem => hraw (Redis.Command.mem_list_of_exec (c := .lrem .processing job.toJson) rfl hmem)
  | utcNow | time =>
      obtain ⟨-, rfl⟩ := Prod.mk.inj (Option.some.inj h)
      exact hraw
  | handle job =>
      obtain ⟨-, rfl⟩ := Prod.mk.inj (Option.some.inj h)
      cases handleJob job e.error <;> exact hraw

/-- The program puts nothing into the processing list. -/
abbrev LeavesProcessing (p : QueueProg α) : Prop := p.Every fun c _ => c.fillsProcessing = false

lemma LeavesProcessing.not_mem {p : QueueProg α} (hp : LeavesProcessing p) {x : Except JobError α}
    (h : p.run interp e s = some (x, s')) (hraw : raw ∉ s.redis.list .processing) :
    raw ∉ s'.redis.list .processing :=
  Prog.run_invariant (I := fun s => raw ∉ s.redis.list .processing)
    (hp.imp fun _ _ hc _ _ _ hs hexec => not_mem_processing_interp hc hexec hs) h hraw

lemma leavesProcessing_of_maintains {p : QueueProg α} (h : p.Every fun c _ => c.Maintains) :
    LeavesProcessing p :=
  h.imp fun _ _ hc => by cases hc <;> rfl

/-- Every operation but `dequeue_job` leaves the processing list to the others. -/
lemma leavesProcessing_commands {o : Operation} (ho : o ≠ .dequeueJob) :
    LeavesProcessing (o.commands settings) := by
  cases o with
  | dequeueJob => exact absurd rfl ho
  | enqueueJob x => exact ⟨rfl, fun _ => trivial⟩
  | ackJob job => exact ⟨rfl, fun _ => trivial⟩
  | scheduleRetry job message => exact ⟨rfl, fun _ => ⟨rfl, fun _ => ⟨rfl, fun _ => trivial⟩⟩⟩
  | promoteDelayedJobs limit => exact leavesProcessing_of_maintains maintains_promoteDelayedJobs
  | reclaimStaleProcessingJobs =>
      exact leavesProcessing_of_maintains maintains_reclaimStaleProcessingJobs
  | moveJobToFailedQueue job error =>
      exact ⟨rfl, fun _ => ⟨rfl, fun _ => ⟨rfl, fun _ => trivial⟩⟩⟩
  | requeueFailedJobs rounds limit => exact leavesProcessing_of_maintains (maintains_requeueLoop _ _)
  | handleJob job => exact ⟨rfl, fun _ => trivial⟩

/-- `dequeue_job` adds one entry to the processing list, with its reading of the clock. -/
lemma processing_dequeueJob {res : Except JobError (Option Job)}
    (hs : ∀ raw, s.redis.Holds raw → IsEntry .univ raw)
    (h : dequeueJob.run interp e s = some (res, s')) (hraw : raw ∈ s'.redis.list .processing) :
    raw ∈ s.redis.list .processing ∨ ∃ job : Job, raw = (job.withProcessingStartedAt none e.now).toJson := by
  have hmain : ∀ raw ∈ s.redis.list .main, ∃ job : Job, job.toJson = raw := fun raw hraw =>
    (hs raw (.inl ⟨_, hraw⟩)).imp fun _ h => h.1
  rcases dequeueJob_eq_some hmain h with ⟨hlast, -, rfl⟩ | ⟨job, hlast, -, ⟨heq, rfl⟩ | ⟨-, rfl⟩⟩
  · left
    simpa [QueueStore.after, Redis.Command.exec, hlast] using hraw
  · rw [processing_after_rpoplpush hlast] at hraw
    rcases List.mem_cons.1 hraw with rfl | hraw
    · exact .inr ⟨job, heq.symm⟩
    · exact .inl hraw
  · have hprocessing : (((s.after (.rpoplpush .main .processing)).after
        (.lrem .processing job.toJson)).after (.lpush .processing
          (job.withProcessingStartedAt none e.now).toJson)).redis.list .processing =
        (job.withProcessingStartedAt none e.now).toJson ::
          ((s.after (.rpoplpush .main .processing)).redis.list .processing).erase job.toJson := by
      simp [QueueStore.after, Redis.Command.exec]
    rw [hprocessing, processing_after_rpoplpush hlast, List.erase_cons_head] at hraw
    rcases List.mem_cons.1 hraw with rfl | hraw
    · exact .inr ⟨job, rfl⟩
    · exact .inl hraw

/-- An entry that is gone stays away, unless its job is dequeued at the same reading of the clock. -/
lemma not_mem_processing_operation {o : Operation} {job : Job} {res : Except JobError o.Result}
    (hwf : s.Wf) (htime : o = .dequeueJob → job.processingStartedAt ≠ some e.now.isoformat)
    (h : (o.commands settings).run interp e s = some (res, s'))
    (hlost : job.toJson ∉ s.redis.list .processing) : job.toJson ∉ s'.redis.list .processing := by
  by_cases ho : o = .dequeueJob
  · subst ho
    intro hmem
    rcases processing_dequeueJob (fun raw hraw => (hwf.entries raw hraw).mono (Set.subset_univ _)) h
      hmem with hold | ⟨job', hjob'⟩
    · exact hlost hold
    · rw [Job.toJson_injective hjob'] at htime
      exact htime rfl rfl
  · exact (leavesProcessing_commands ho).not_mem h hlost

end Processing

/-! ### Late ends of a job -/

/-- The operation writes no second entry for a job that its worker has lost: it acknowledges the
job, or it retries it and finds the very entry that it writes in the delayed set. -/
def Operation.Harmless (settings : WorkerSettings) (e : Env) (s : QueueStore) : Operation → Prop
  | .scheduleRetry job message => ((retriedJob job message).toJson,
      availableAt settings e.time job message) ∈ (s.redis.zset .delayed).items
  | .moveJobToFailedQueue _ _ => False
  | _ => True

section Late

variable {s s' : QueueStore} {e : Env} {settings : WorkerSettings}

lemma redis_after (s : QueueStore) (c : Redis.Command QueueKey) :
    (s.after c).redis = (c.exec s.redis).2 := rfl

/-- **A late end of a job leaves the queue unchanged exactly when it is harmless.** -/
theorem redis_unchanged_iff {o : Operation} {job : Job} (ho : o.finishes = some job)
    (hlost : job.toJson ∉ s.redis.list .processing) {res : Except JobError o.Result}
    (h : (o.commands settings).run interp e s = some (res, s')) :
    s'.redis = s.redis ↔ o.Harmless settings e s := by
  have hlrem : (s.after (.lrem .processing job.toJson)).redis = s.redis := by
    simp [QueueStore.after, Redis.Command.exec, List.erase_of_not_mem hlost]
  cases o with
  | ackJob job' =>
      obtain rfl : job' = job := Option.some.inj ho
      obtain ⟨-, rfl⟩ := Prod.mk.inj (Option.some.inj (run_ackJob.symm.trans h))
      exact ⟨fun _ => trivial, fun _ => hlrem⟩
  | scheduleRetry job' message =>
      obtain rfl : job' = job := Option.some.inj ho
      obtain ⟨-, rfl⟩ := Prod.mk.inj (Option.some.inj (run_scheduleRetry.symm.trans h))
      rw [redis_after, hlrem]
      refine Iff.trans ?_ Redis.SortedSet.add_eq_self_iff
      simp only [Redis.Command.exec]
      constructor
      · intro heq
        have hdelayed := congrArg (fun l : Redis.Lists QueueKey => l.zset .delayed) heq
        simpa using hdelayed
      · intro heq
        rw [heq, Function.update_eq_self]
  | moveJobToFailedQueue job' error =>
      obtain rfl : job' = job := Option.some.inj ho
      obtain ⟨-, rfl⟩ := Prod.mk.inj (Option.some.inj (run_moveJobToFailedQueue.symm.trans h))
      rw [redis_after, hlrem]
      refine ⟨fun heq => ?_, False.elim⟩
      have hfailed := congrArg (fun l : Redis.Lists QueueKey => l.list .failed) heq
      simp [Redis.Command.exec] at hfailed
  | _ => cases ho

/-- No job has two entries. -/
def QueueStore.AtMostOne (s : QueueStore) : Prop := ∀ id, s.count id ≤ 1

lemma QueueStore.AtMostOne.of_sameCounts (h : s.AtMostOne) (hst : s.SameCounts s') : s'.AtMostOne :=
  fun id => (hst.count id).trans_le (h id)

/-- An operation gives no job a second entry, if it is harmless where its worker has lost the job. -/
theorem atMostOne_operation {o : Operation} {res : Except JobError o.Result} (hwf : s.Wf)
    (hs : s.AtMostOne) (hlate : ∀ job, o.finishes = some job →
      job.toJson ∈ s.redis.list .processing ∨ o.Harmless settings e s)
    (h : (o.commands settings).run interp e s = some (res, s')) : s'.AtMostOne := by
  have hentries : ∀ raw, s.redis.Holds raw → IsEntry .univ raw := fun raw hraw =>
    (hwf.entries raw hraw).mono (Set.subset_univ _)
  have hfinish : ∀ job, o.finishes = some job →
      (job.toJson ∈ s.redis.list .processing → s'.AtMostOne) → s'.AtMostOne := by
    intro job ho hown
    by_cases hmem : job.toJson ∈ s.redis.list .processing
    · exact hown hmem
    · have hsame := (redis_unchanged_iff ho hmem h).2 ((hlate job ho).resolve_left hmem)
      intro id
      rw [QueueStore.count, hsame]
      exact hs id
  cases o with
  | enqueueJob x =>
      obtain ⟨hnew, rfl⟩ := enqueueJob_eq_some h
      intro id
      change (s.after (.lpush .main x.job.toJson)).count id ≤ 1
      rw [QueueStore.count_after_lpush]
      split_ifs with hid
      · have hnone : s.count x.job.id = 0 := count_eq_zero_of_not_mem hwf hnew
        rw [← beq_iff_eq.1 hid, hnone]
      · exact hs id
  | dequeueJob => exact hs.of_sameCounts (sameCounts_dequeueJob hentries h)
  | ackJob job =>
      refine hfinish job rfl fun hown id => ?_
      obtain ⟨-, rfl⟩ := Prod.mk.inj (Option.some.inj (run_ackJob.symm.trans h))
      change (s.after (.lrem .processing job.toJson)).count id ≤ 1
      have hcount := QueueStore.count_after_lrem hown id
      have hone := hs id
      omega
  | scheduleRetry job message =>
      refine hfinish job rfl fun hown => hs.of_sameCounts (sameCounts_scheduleRetry hown ?_ h)
      have hpos : 0 < s.count job.id :=
        Redis.Lists.count_pos_iff.2 ⟨_, .inl ⟨_, hown⟩, by simp⟩
      have hone := hs job.id
      omega
  | promoteDelayedJobs limit =>
      exact hs.of_sameCounts
        ((QueueStore.sameCounts_after (c := .zrangebyscore .delayed 0 e.time) rfl rfl).trans
          (sameCounts_promoteLoop h))
  | reclaimStaleProcessingJobs =>
      exact hs.of_sameCounts
        ((QueueStore.sameCounts_after (c := .lrangeAll .processing) rfl rfl).trans
          (sameCounts_reclaimLoop h))
  | moveJobToFailedQueue job error =>
      exact hfinish job rfl fun hown => hs.of_sameCounts (sameCounts_moveJobToFailedQueue hown h)
  | requeueFailedJobs rounds limit => exact hs.of_sameCounts (sameCounts_requeueLoop hentries h)
  | handleJob job =>
      refine hs.of_sameCounts ?_
      have hrun : some (Except.ok (handleJob job e.error), s.handled job (handleJob job e.error)) =
        some (res, s') := h
      obtain ⟨-, rfl⟩ := Prod.mk.inj (Option.some.inj hrun)
      exact sameCounts_handled

end Late

/-! ### Runs -/

namespace System

variable {ι : Type*} [DecidableEq ι] {settings : WorkerSettings}
  {as bs : List (PoolAction ι Request Env)} {a b : PoolAction ι Request Env}
  {s s' t u u' : System ι} {o : Operation} {e : Env} {job : Job}

/-- The step reclaims the entry of a job from its worker. -/
structure Reclaims (s s' : System ι) (a : PoolAction ι Request Env) (job : Job) : Prop where
  reclaim : ∃ i e q k, a = .step i e ∧ s.calls i = some (q, .call .reclaimStaleProcessingJobs k)
  held : job.toJson ∈ s.store.redis.list .processing
  lost : job.toJson ∉ s'.store.redis.list .processing

/-- The step is the one with which a worker finishes a job. -/
def Finishes (s : System ι) (a : PoolAction ι Request Env) (o : Operation) (e : Env) (job : Job) :
    Prop :=
  ∃ i q k, a = .step i e ∧ s.calls i = some (q, .call o k) ∧ o.finishes = some job

/-- No job is dequeued at the time at which the worker of this one started to process it. -/
def DequeuesAtOtherTime (job : Job) (s : System ι) : PoolAction ι Request Env → Prop
  | .step i e => ∀ q k, s.calls i = some (q, .call .dequeueJob k) →
      job.processingStartedAt ≠ some e.now.isoformat
  | _ => True

/-- A worker that has lost its job ends it harmlessly. -/
def LateEndsHarmless (settings : WorkerSettings) (s : System ι) (a : PoolAction ι Request Env) :
    Prop :=
  ∀ o e job, Finishes s a o e job →
    job.toJson ∈ s.store.redis.list .processing ∨ o.Harmless settings e s.store

/-- The entry of a lost job does not come back. -/
lemma lost_run (hs : (Operation.custody settings).Covered (fun _ _ _ _ => True) s)
    (hlost : job.toJson ∉ s.store.redis.list .processing)
    (hother : Along (step settings) (DequeuesAtOtherTime job) s as)
    (h : exec (step settings) s as = some t) :
    (Operation.custody settings).Covered (fun _ _ _ _ => True) t ∧
      job.toJson ∉ t.store.redis.list .processing := by
  refine exec_invariant_along (I := fun s => (Operation.custody settings).Covered
    (fun _ _ _ _ => True) s ∧ job.toJson ∉ s.store.redis.list .processing)
    (fun s a t hs hG hst => ⟨hs.1.next Operation.settles_program (diesClean s a) hst, ?_⟩)
    ⟨hs, hlost⟩ hother h
  rcases Pool.next_cases hst with ⟨i, q, rfl, hi, rfl⟩ |
    ⟨i, e, q, o, k, p', t, rfl, hi, rfl, hcmd⟩ | ⟨i, q, p, rfl, hi, rfl⟩
  · exact hs.2
  · have htime : o = .dequeueJob → job.processingStartedAt ≠ some e.now.isoformat := by
      rintro rfl
      exact hG q k hi
    rcases hcmd with ⟨x, hrun, -⟩ | ⟨r, hrun, -⟩
    · exact not_mem_processing_operation hs.1.inv htime hrun hs.2
    · exact not_mem_processing_operation hs.1.inv htime hrun hs.2
  · exact hs.2

/-- In a run whose late ends are harmless no job has two entries. -/
lemma atMostOne_run (hlate : Along (step settings) (LateEndsHarmless settings) (initial : System ι) as)
    (h : exec (step settings) initial as = some t) : t.store.AtMostOne := by
  have hinit : (Operation.custody settings).Covered (fun _ _ _ _ => True) (initial : System ι) ∧
      (initial : System ι).store.AtMostOne := ⟨⟨QueueStore.wf_empty, nofun, nofun⟩, fun _ => Nat.zero_le _⟩
  refine (exec_invariant_along (I := fun s => (Operation.custody settings).Covered
    (fun _ _ _ _ => True) s ∧ s.store.AtMostOne) (fun s a t hs hG hst =>
      ⟨hs.1.next Operation.settles_program (diesClean s a) hst, ?_⟩) hinit hlate h).2
  rcases Pool.next_cases hst with ⟨i, q, rfl, hi, rfl⟩ |
    ⟨i, e, q, o, k, p', t, rfl, hi, rfl, hcmd⟩ | ⟨i, q, p, rfl, hi, rfl⟩
  · exact hs.2
  · have hfin : ∀ job, o.finishes = some job → job.toJson ∈ s.store.redis.list .processing ∨
        o.Harmless settings e s.store := fun job hjob => hG o e job ⟨i, q, k, rfl, hi, hjob⟩
    rcases hcmd with ⟨x, hrun, -⟩ | ⟨r, hrun, -⟩
    · exact atMostOne_operation hs.1.inv hs.2 hfin hrun
    · exact atMostOne_operation hs.1.inv hs.2 hfin hrun
  · exact hs.2

/-- **Late ends.**  A worker whose job was reclaimed leaves the four structures unchanged exactly
when it acknowledges the job, or retries it with the very entry that is in the delayed set; and
in a run in which all workers that have lost their job end it so, no job has two entries. -/
theorem late_end_unchanged_iff (hs : exec (step settings) (initial : System ι) as = some s)
    (ha : step settings s a = some s') (hreclaims : Reclaims s s' a job)
    (ht : exec (step settings) s' bs = some u)
    (hother : Along (step settings) (DequeuesAtOtherTime job) s' bs)
    (hb : step settings u b = some u') (hfinishes : Finishes u b o e job) :
    (u'.store.redis = u.store.redis ↔ o.Harmless settings e u.store) ∧
      ∀ cs t, exec (step settings) (initial : System ι) cs = some t →
        Along (step settings) (LateEndsHarmless settings) (initial : System ι) cs →
          ∀ id, t.store.count id ≤ 1 := by
  constructor
  · have hcov := covered (exec_append_eq_some.2 ⟨s, hs, exec_cons_eq_some.2 ⟨s', ha, exec_nil⟩⟩)
    have hlost := (lost_run hcov hreclaims.lost hother ht).2
    obtain ⟨i, q, k, rfl, hi, ho⟩ := hfinishes
    rcases Pool.next_step_cases hi hb with ⟨x, hrun, -⟩ | ⟨r, hrun, -⟩
    · exact redis_unchanged_iff ho hlost hrun
    · exact redis_unchanged_iff ho hlost hrun
  · exact fun cs t ht hlate => atMostOne_run hlate ht

end System

/-! ### A slow handler -/

/-- It is stale after the visibility timeout. -/
lemma isStale_takenJob : isStale {} (laterEnv none).now takenJob = .ret true := by
  have hstarted : takenJob.processingStartedAt = some someEnv.now.isoformat := rfl
  simp only [isStale, hstarted, fromisoformat_isoformat]
  rfl

lemma run_reclaim_taken :
    (reclaimStaleProcessingJobs {}).run interp (laterEnv none) (storeOf .processing takenJob) =
      some (.ok 1, storeOf .main takenJob.withoutProcessingStartedAt) := by
  have hlist : (storeOf .processing takenJob).redis.list .processing = [takenJob.toJson] := rfl
  have hloop : reclaimLoop {} (laterEnv none).now [takenJob.toJson] 0 =
      (lrem .processing takenJob.toJson).bind fun removed =>
        if removed then
          (lpush .main takenJob.withoutProcessingStartedAt.toJson).bind fun _ => .ret 1
        else .ret 0 := by
    rw [reclaimLoop, Job.fromJson_toJson, Prog.getOrRaise, Prog.bind_def, Prog.ret_bind,
      isStale_takenJob, Prog.bind_def, Prog.ret_bind, if_pos rfl]
    rfl
  rw [reclaimStaleProcessingJobs, Prog.bind_def, run_utcNow]
  simp only [Prog.bind_def]
  rw [run_lrangeAll, hlist, hloop, run_lrem, hlist, decide_eq_true (List.mem_singleton_self _),
    if_pos rfl, run_lpush, Prog.run_ret, Option.some.injEq]
  simp only [storeOf, QueueStore.after, Redis.Command.exec]
  congr 3
  funext key
  cases key <;> simp

lemma count_mainStore {outcome : Outcome} :
    ((storeOf .main takenJob.withoutProcessingStartedAt).handled takenJob outcome).count
      takenJob.id = 1 := by
  have hone := QueueStore.count_after_lpush .empty .main takenJob.withoutProcessingStartedAt
    takenJob.id
  have hid : takenJob.withoutProcessingStartedAt.id = takenJob.id := rfl
  rw [hid, if_pos (beq_self_eq_true _)] at hone
  cases outcome <;> exact hone

/-- A known job: its handler returns or raises. -/
lemma handleJob_takenJob (error : Option String) :
    handleJob takenJob error = error.elim .returned .raised := by
  unfold handleJob
  rw [if_pos (.inr rfl)]
  cases error <;> rfl

/-- A worker dequeues a job, and somebody else is about to reclaim. -/
def slowRun : List (PoolAction ℕ Request Env) :=
  enqueueRun ++ [.start 1 .processNext, .step 1 someEnv, .start 2 .reclaim]

namespace System

/-- The job is reclaimed from its worker, and the handler ends after that. -/
lemma slow_end (error : Option String) : ∃ (s s' u : System ℕ),
    exec (step {}) (initial : System ℕ) slowRun = some s ∧
    step {} s (.step 2 (laterEnv none)) = some s' ∧
    Reclaims s s' (.step 2 (laterEnv none)) takenJob ∧
    exec (step {}) s' [.step 1 (laterEnv error)] = some u ∧
    Along (step {}) (DequeuesAtOtherTime takenJob) s' [.step 1 (laterEnv error)] ∧
    u.store = (storeOf .main takenJob.withoutProcessingStartedAt).handled takenJob
      (error.elim .returned .raised) ∧
    (error = none → ∃ k, u.calls 1 = some (.processNext, .call (.ackJob takenJob) k)) ∧
    ∀ message, error = some message →
      ∃ k, u.calls 1 = some (.processNext, .call (.scheduleRetry takenJob message) k) := by
  have hhandle : (Operation.commands {} (.handleJob takenJob)).run interp (laterEnv error)
      (storeOf .main takenJob.withoutProcessingStartedAt) =
        some (.ok (error.elim .returned .raised),
          (storeOf .main takenJob.withoutProcessingStartedAt).handled takenJob
            (error.elim .returned .raised)) := by
    have h := handleJob_takenJob error
    have hrun : (Operation.commands {} (.handleJob takenJob)).run interp (laterEnv error)
        (storeOf .main takenJob.withoutProcessingStartedAt) =
          some (.ok (handleJob takenJob error),
            (storeOf .main takenJob.withoutProcessingStartedAt).handled takenJob
              (handleJob takenJob error)) := rfl
    rwa [h] at hrun
  refine ⟨_, _, _, exec_append_eq_some.2 ⟨_, exec_cons_eq_some.2 ⟨_, rfl,
    exec_cons_eq_some.2 ⟨_, rfl, rfl⟩⟩, exec_cons_eq_some.2 ⟨_, rfl, exec_cons_eq_some.2
      ⟨_, step_of_run rfl run_dequeueJob_submitted, exec_cons_eq_some.2 ⟨_, rfl, rfl⟩⟩⟩⟩,
    step_of_run rfl run_reclaim_taken, ⟨⟨2, laterEnv none, _, _, rfl, rfl⟩, ?_, ?_⟩,
    exec_cons_eq_some.2 ⟨_, step_of_run rfl hhandle, rfl⟩, ?_, rfl, ?_, ?_⟩
  · exact List.mem_singleton_self _
  · exact List.not_mem_nil
  · refine ⟨fun q k hcalls => ?_, fun _ _ => trivial⟩
    cases hcalls
  · rintro rfl
    exact ⟨_, rfl⟩
  · rintro message rfl
    exact ⟨_, rfl⟩

/-- A worker whose handler returns after its job was reclaimed leaves the queue unchanged. -/
theorem late_end_unchanged_iff_ack : ∃ s s' u u' o job,
    exec (step {}) (initial : System ℕ) slowRun = some s ∧
    step {} s (.step 2 (laterEnv none)) = some s' ∧ Reclaims s s' (.step 2 (laterEnv none)) job ∧
    exec (step {}) s' [.step 1 (laterEnv none)] = some u ∧
    step {} u (.step 1 (laterEnv none)) = some u' ∧
    Finishes u (.step 1 (laterEnv none)) o (laterEnv none) job ∧
    u'.store.redis = u.store.redis := by
  obtain ⟨s, s', u, hs, ha, hreclaims, ht, hother, -, hreturned, -⟩ := slow_end none
  obtain ⟨k, hcalls⟩ := hreturned rfl
  have hfinishes : Finishes u (.step 1 (laterEnv none)) (.ackJob takenJob) (laterEnv none) takenJob :=
    ⟨1, _, _, rfl, hcalls, rfl⟩
  have hb : step {} u (.step 1 (laterEnv none)) = some _ :=
    step_of_run hcalls (run_ackJob (e := laterEnv none))
  exact ⟨s, s', u, _, .ackJob takenJob, takenJob, hs, ha, hreclaims, ht, hb, hfinishes,
    (late_end_unchanged_iff hs ha hreclaims ht hother hb hfinishes).1.2 trivial⟩

/-- A worker whose handler raises after its job was reclaimed writes a second entry of the job. -/
theorem late_retry_adds_entry : ∃ s s' u u' o job,
    exec (step {}) (initial : System ℕ) slowRun = some s ∧
    step {} s (.step 2 (laterEnv none)) = some s' ∧ Reclaims s s' (.step 2 (laterEnv none)) job ∧
    exec (step {}) s' [.step 1 (laterEnv (some "timeout"))] = some u ∧
    Along (step {}) (DequeuesAtOtherTime job) s' [.step 1 (laterEnv (some "timeout"))] ∧
    step {} u (.step 1 (laterEnv none)) = some u' ∧
    Finishes u (.step 1 (laterEnv none)) o (laterEnv none) job ∧
    u.store.count job.id = 1 ∧ u'.store.count job.id = 2 := by
  obtain ⟨s, s', u, hs, ha, hreclaims, ht, hother, hstore, -, hraised⟩ :=
    slow_end (some "timeout")
  obtain ⟨k, hcalls⟩ := hraised "timeout" rfl
  have hb : step {} u (.step 1 (laterEnv none)) = some _ :=
    step_of_run hcalls (run_scheduleRetry (e := laterEnv none))
  refine ⟨s, s', u, _, .scheduleRetry takenJob "timeout", takenJob, hs, ha, hreclaims, ht, hother, hb,
    ⟨1, _, _, rfl, hcalls, rfl⟩, ?_, ?_⟩
  · rw [hstore, count_mainStore]
  · have hone : u.store.count takenJob.id = 1 := by rw [hstore, count_mainStore]
    have hprocessing : takenJob.toJson ∉ u.store.redis.list .processing := by
      rw [hstore]
      exact List.not_mem_nil
    have hdelayed : (retriedJob takenJob "timeout").toJson ∉
        ((u.store.after (.lrem .processing takenJob.toJson)).redis.zset .delayed).members := by
      rw [hstore]
      exact List.not_mem_nil
    have hid : (retriedJob takenJob "timeout").id = takenJob.id := rfl
    refine (QueueStore.count_after_zadd hdelayed takenJob.id).trans ?_
    rw [QueueStore.count_after_lrem_of_not_mem hprocessing, hone, hid, if_pos (beq_self_eq_true _)]

end System

end StarterBackend.Queue

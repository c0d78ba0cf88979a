/-
Exactly one entry for a job, while workers finish only what is theirs.

A job that was reclaimed from its worker has a second life: the worker that still runs
it may retry or fail it, and leaves a second entry.  In the runs in which a worker
acknowledges, retries or fails a job only while its own entry is in the processing list,
no operation but the submission and the acknowledgement changes how many entries a job
has.  The conservation of the entries under single commands comes from
`Redis.Command.count_exec`.
-/
import StarterBackend.Queue.Conservation

namespace StarterBackend.Queue

open Lib

/-- The text is an entry of the job with this id. -/
def hasId (id : String) (raw : String) : Bool := (submissionOf raw).any fun x => x.id == id

@[simp] lemma hasId_toJson (id : String) (job : Job) : hasId id job.toJson = (job.id == id) := by
  simp [hasId, Job.submission]

namespace QueueStore

/-- How many entries the job with this id has. -/
def count (s : QueueStore) (id : String) : ℕ := s.redis.count (hasId id)

/-- The records of submissions and acknowledgements and the numbers of entries agree. -/
structure SameCounts (s t : QueueStore) : Prop where
  enqueued : t.enqueued = s.enqueued
  acked : t.acked = s.acked
  count : ∀ id, t.count id = s.count id

lemma SameCounts.refl (s : QueueStore) : SameCounts s s := ⟨rfl, rfl, fun _ => rfl⟩

lemma SameCounts.trans {s t u : QueueStore} (h : SameCounts s t) (k : SameCounts t u) :
    SameCounts s u :=
  ⟨k.enqueued.trans h.enqueued, k.acked.trans h.acked, fun id => (k.count id).trans (h.count id)⟩

/-- The store after a Redis command. -/
def after (s : QueueStore) (c : Redis.Command QueueKey) : QueueStore :=
  { s with redis := (c.exec s.redis).2 }

/-- A command that takes nothing out and adds nothing keeps the counts. -/
lemma sameCounts_after {s : QueueStore} {c : Redis.Command QueueKey}
    (htaken : c.taken (c.exec s.redis).1 = none) (hadded : c.added (c.exec s.redis).1 = none) :
    SameCounts s (s.after c) where
  enqueued := rfl
  acked := rfl
  count id := by
    have hcount := Redis.Command.count_exec (s := s.redis) c (hasId id)
    rw [htaken, hadded] at hcount
    exact hcount

/-- A command that takes an entry out and one that adds an entry of the same job. -/
lemma sameCounts_after_after {s : QueueStore} {c d : Redis.Command QueueKey} {old new : String}
    (htaken : c.taken (c.exec s.redis).1 = some old)
    (hadded : c.added (c.exec s.redis).1 = none)
    (htaken' : d.taken (d.exec (s.after c).redis).1 = none)
    (hadded' : d.added (d.exec (s.after c).redis).1 = some new)
    (hid : ∀ id, hasId id new = hasId id old) : SameCounts s ((s.after c).after d) where
  enqueued := rfl
  acked := rfl
  count id := by
    have hc := Redis.Command.count_exec (s := s.redis) c (hasId id)
    have hd := Redis.Command.count_exec (s := (s.after c).redis) d (hasId id)
    rw [htaken, hadded] at hc
    rw [htaken', hadded'] at hd
    simp only [Option.toList_some, Option.toList_none, List.countP_nil, List.countP_cons,
      hid id] at hc hd
    change Redis.Lists.count (d.exec (s.after c).redis).2 (hasId id) = s.redis.count (hasId id)
    have hafter : (s.after c).redis = (c.exec s.redis).2 := rfl
    rw [hafter] at hd ⊢
    omega

end QueueStore

/-! ### The rules of the single commands -/

section Rules

variable {α : Type} {e : Env} {s : QueueStore} {key : QueueKey} {value : String}

lemma run_redis {c : Redis.Command QueueKey} {k : c.Reply → QueueProg α} :
    Prog.run interp e (Prog.call (Command.redis c) k) s =
      (k (c.exec s.redis).1).run interp e (s.after c) := rfl

lemma run_lpush {k : Unit → QueueProg α} :
    ((lpush key value).bind k).run interp e s =
      (k ()).run interp e (s.after (.lpush key value)) := rfl

lemma run_rpop {k : Option String → QueueProg α} :
    ((rpop key).bind k).run interp e s =
      (k (s.redis.list key).getLast?).run interp e (s.after (.rpop key)) := rfl

lemma run_brpoplpush {source destination : QueueKey} {k : Option String → QueueProg α} :
    ((brpoplpush source destination).bind k).run interp e s =
      (k (s.redis.list source).getLast?).run interp e
        (s.after (.rpoplpush source destination)) := by
  have h : ((brpoplpush source destination).bind k).run interp e s =
      (k (Redis.Command.exec (.rpoplpush source destination) s.redis).1).run interp e
        (s.after (.rpoplpush source destination)) := rfl
  rw [h, Redis.Command.exec_rpoplpush_reply]

lemma run_lrem {k : Bool → QueueProg α} :
    ((lrem key value).bind k).run interp e s =
      (k (decide (value ∈ s.redis.list key))).run interp e (s.after (.lrem key value)) := rfl

lemma run_lrangeAll {k : List String → QueueProg α} :
    ((lrangeAll key).bind k).run interp e s = (k (s.redis.list key)).run interp e s := rfl

lemma run_zrem {k : Bool → QueueProg α} :
    ((zrem key value).bind k).run interp e s =
      (k (decide (value ∈ (s.redis.zset key).members))).run interp e (s.after (.zrem key value)) :=
  rfl

lemma run_utcNow {k : Datetime → QueueProg α} :
    (utcNow.bind k).run interp e s = (k e.now).run interp e s := rfl

lemma run_time {k : ℚ → QueueProg α} :
    (time.bind k).run interp e s = (k e.time).run interp e s := rfl

lemma run_zadd {score : ℚ} {k : Bool → QueueProg α} :
    ((zadd key value score).bind k).run interp e s =
      (k (decide (value ∉ (s.redis.zset key).members))).run interp e
        (s.after (.zadd key value score)) := rfl

lemma taken_lrem (h : value ∈ s.redis.list key) :
    Redis.Command.taken (.lrem key value) (Redis.Command.exec (.lrem key value) s.redis).1 =
      some value := by
  change (if decide _ = true then some value else none) = some value
  rw [decide_eq_true h, if_pos rfl]

lemma taken_lrem_of_not_mem (h : value ∉ s.redis.list key) :
    Redis.Command.taken (.lrem key value) (Redis.Command.exec (.lrem key value) s.redis).1 =
      none := by
  change (if decide _ = true then some value else none) = none
  rw [decide_eq_false h, if_neg Bool.false_ne_true]

lemma added_zadd {score : ℚ} (h : value ∉ (s.redis.zset key).members) :
    Redis.Command.added (.zadd key value score)
      (Redis.Command.exec (.zadd key value score) s.redis).1 = some value := by
  change (if decide _ = true then some value else none) = some value
  rw [decide_eq_true h, if_pos rfl]

lemma taken_zrem (h : value ∈ (s.redis.zset key).members) :
    Redis.Command.taken (.zrem key value) (Redis.Command.exec (.zrem key value) s.redis).1 =
      some value := by
  change (if decide _ = true then some value else none) = some value
  rw [decide_eq_true h, if_pos rfl]

lemma taken_zrem_of_not_mem (h : value ∉ (s.redis.zset key).members) :
    Redis.Command.taken (.zrem key value) (Redis.Command.exec (.zrem key value) s.redis).1 =
      none := by
  change (if decide _ = true then some value else none) = none
  rw [decide_eq_false h, if_neg Bool.false_ne_true]

end Rules

section Finishing

variable {e : Env} {s s' : QueueStore} {settings : WorkerSettings} {job : Job}

lemma run_ackJob : (ackJob job).run interp e s = some (.ok (),
    { s.after (.lrem .processing job.toJson) with acked := job.id :: s.acked }) := rfl

/-- The job that a retry writes. -/
abbrev retriedJob (job : Job) (message : String) : Job := job.withNextAttempt.withError message

/-- The time at which a retried job is available. -/
abbrev availableAt (settings : WorkerSettings) (time : ℚ) (job : Job) (message : String) : ℚ :=
  time + calculateRetryDelaySeconds settings (retriedJob job message).attempts

lemma run_scheduleRetry {message : String} : (scheduleRetry settings job message).run interp e s =
    some (.ok (retriedJob job message), (s.after (.lrem .processing job.toJson)).after
      (.zadd .delayed (retriedJob job message).toJson (availableAt settings e.time job message))) :=
  rfl

lemma run_moveJobToFailedQueue {error : Option String} :
    (moveJobToFailedQueue job error).run interp e s = some (.ok (failedJob job error e.now),
      (s.after (.lrem .processing job.toJson)).after
        (.lpush .failed (failedJob job error e.now).toJson)) := rfl

/-- A submission that is accepted is new, and its job is at the head of the main queue. -/
lemma enqueueJob_eq_some {x : Submission} {res : Except JobError Job}
    (h : (enqueueJob x).run interp e s = some (res, s')) :
    x.id ∉ s.enqueued.map Submission.id ∧
      s' = { s.after (.lpush .main x.job.toJson) with enqueued := x :: s.enqueued } := by
  have hrun : (enqueueJob x).run interp e s =
      if x.id ∈ s.enqueued.map Submission.id then none else some (.ok x.job,
        { s.after (.lpush .main x.job.toJson) with enqueued := x :: s.enqueued }) := by
    change Prog.run interp e (.call (.push x.job) fun _ => .ret x.job) s = _
    have hid : x.job.id = x.id := rfl
    split_ifs with hmem
    · simp [Prog.run, interp, hid, hmem]
    · simp only [Prog.run, interp, hid, if_neg hmem]
      rfl
  rw [hrun] at h
  split_ifs at h with hnew
  obtain ⟨-, rfl⟩ := Prod.mk.inj (Option.some.inj h)
  exact ⟨hnew, rfl⟩

lemma QueueStore.count_after_lpush (s : QueueStore) (key : QueueKey) (job : Job) (id : String) :
    (s.after (.lpush key job.toJson)).count id = s.count id + if job.id == id then 1 else 0 := by
  have hpush := Redis.Command.count_exec (s := s.redis) (.lpush key job.toJson) (hasId id)
  have htaken : Redis.Command.taken (.lpush key job.toJson)
      (Redis.Command.exec (.lpush key job.toJson) s.redis).1 = none := rfl
  have hadded : Redis.Command.added (.lpush key job.toJson)
      (Redis.Command.exec (.lpush key job.toJson) s.redis).1 = some job.toJson := rfl
  rw [htaken, hadded] at hpush
  simpa [List.countP_cons, QueueStore.count, QueueStore.after] using hpush

lemma QueueStore.count_after_lrem {key : QueueKey} (hown : job.toJson ∈ s.redis.list key)
    (id : String) : (s.after (.lrem key job.toJson)).count id + (if job.id == id then 1 else 0) =
      s.count id := by
  have hrem := Redis.Command.count_exec (s := s.redis) (.lrem key job.toJson) (hasId id)
  rw [taken_lrem hown] at hrem
  simpa [List.countP_cons, Redis.Command.added, QueueStore.count, QueueStore.after] using hrem

lemma QueueStore.count_after_lrem_of_not_mem {key : QueueKey} {raw : String}
    (hgone : raw ∉ s.redis.list key) (id : String) :
    (s.after (.lrem key raw)).count id = s.count id := by
  have hrem := Redis.Command.count_exec (s := s.redis) (.lrem key raw) (hasId id)
  have hadded : Redis.Command.added (.lrem key raw)
      (Redis.Command.exec (.lrem key raw) s.redis).1 = none := rfl
  rw [taken_lrem_of_not_mem hgone, hadded] at hrem
  exact hrem

lemma QueueStore.count_after_zadd {key : QueueKey} {score : ℚ}
    (hnew : job.toJson ∉ (s.redis.zset key).members) (id : String) :
    (s.after (.zadd key job.toJson score)).count id = s.count id + if job.id == id then 1 else 0 := by
  have hadd := Redis.Command.count_exec (s := s.redis) (.zadd key job.toJson score) (hasId id)
  have htaken : Redis.Command.taken (.zadd key job.toJson score)
      (Redis.Command.exec (.zadd key job.toJson score) s.redis).1 = none := rfl
  rw [added_zadd hnew, htaken, Option.toList_some, Option.toList_none, List.countP_nil,
    List.countP_singleton, hasId_toJson] at hadd
  exact hadd

end Finishing

/-- The test for staleness reads no store: it has a result or raises. -/
lemma isStale_cases (settings : WorkerSettings) (now : Datetime) (job : Job) :
    (∃ stale, isStale settings now job = .ret stale) ∨
      isStale settings now job = .raise .invalidTimestamp := by
  unfold isStale
  split
  · exact .inl ⟨_, rfl⟩
  · split
    · exact .inl ⟨_, rfl⟩
    · exact .inr rfl

/-! ### The commands of the maintenance of the queue -/

/-- The commands of `promote_delayed_jobs`, `reclaim_stale_processing_jobs` and
`requeue_failed_jobs`. -/
inductive Command.Maintains : Command → Prop
  | utcNow : Maintains .utcNow
  | time : Maintains .time
  | lpush (value : String) : Maintains (.redis (.lpush .main value))
  | rpop : Maintains (.redis (.rpop .failed))
  | lrem (value : String) : Maintains (.redis (.lrem .processing value))
  | lrangeAll : Maintains (.redis (.lrangeAll .processing))
  | zrem (m : String) : Maintains (.redis (.zrem .delayed m))
  | zrangebyscore (low high : ℚ) : Maintains (.redis (.zrangebyscore .delayed low high))

section Maintains

variable {settings : WorkerSettings} {limit : Option ℤ}

lemma maintains_promoteLoop (raws : List String) (n : ℕ) :
    (promoteLoop limit raws n).Every fun c _ => c.Maintains := by
  induction raws generalizing n with
  | nil => trivial
  | cons raw raws ih =>
      rw [promoteLoop]
      split_ifs
      · trivial
      · refine ⟨.zrem raw, fun r => ?_⟩
        cases r with
        | false => exact ih n
        | true => exact ⟨.lpush raw, fun _ => ih (n + 1)⟩

lemma maintains_reclaimLoop (now : Datetime) (raws : List String) (n : ℕ) :
    (reclaimLoop settings now raws n).Every fun c _ => c.Maintains := by
  induction raws generalizing n with
  | nil => trivial
  | cons raw raws ih =>
      rw [reclaimLoop]
      refine Prog.every_getOrRaise_bind fun job _ => ?_
      rcases isStale_cases settings now job with ⟨stale, hstale⟩ | hstale
      · simp only [hstale, Prog.bind_def, Prog.ret_bind]
        split_ifs
        · refine ⟨.lrem raw, fun r => ?_⟩
          cases r with
          | false => exact ih n
          | true => exact ⟨.lpush _, fun _ => ih (n + 1)⟩
        · exact ih n
      · rw [hstale]
        trivial

lemma maintains_requeueLoop (rounds n : ℕ) :
    (requeueLoop limit rounds n).Every fun c _ => c.Maintains := by
  induction rounds generalizing n with
  | zero => trivial
  | succ rounds ih =>
      rw [requeueLoop]
      split_ifs
      · trivial
      · refine ⟨.rpop, fun r => ?_⟩
        cases r with
        | none => trivial
        | some raw => exact Prog.every_getOrRaise_bind fun job _ => ⟨.lpush _, fun _ => ih (n + 1)⟩

lemma maintains_promoteDelayedJobs :
    (promoteDelayedJobs limit).Every fun c _ => c.Maintains :=
  ⟨.time, fun _ => ⟨.zrangebyscore _ _, fun _ => maintains_promoteLoop _ _⟩⟩

lemma maintains_reclaimStaleProcessingJobs :
    (reclaimStaleProcessingJobs settings).Every fun c _ => c.Maintains :=
  ⟨.utcNow, fun _ => ⟨.lrangeAll, fun _ => maintains_reclaimLoop _ _ _⟩⟩

end Maintains

/-! ### The operations that keep every count -/

section Operations

variable {e : Env} {s s' : QueueStore} {settings : WorkerSettings} {raws : List String} {n : ℕ}
  {limit : Option ℤ} {res : Except JobError ℕ}

lemma sameCounts_promoteLoop (h : (promoteLoop limit raws n).run interp e s = some (res, s')) :
    s.SameCounts s' := by
  induction raws generalizing n s with
  | nil =>
      obtain ⟨-, rfl⟩ : .ok n = res ∧ s = s' := by simpa [promoteLoop] using h
      exact .refl s
  | cons raw raws ih =>
      rw [promoteLoop] at h
      split at h
      · obtain ⟨-, rfl⟩ : .ok n = res ∧ s = s' := by simpa using h
        exact .refl s
      · rw [Prog.bind_def, run_zrem] at h
        by_cases hmem : raw ∈ (s.redis.zset .delayed).members
        · rw [decide_eq_true hmem, if_pos rfl, Prog.bind_def, run_lpush] at h
          refine (QueueStore.sameCounts_after_after (taken_zrem hmem) rfl rfl rfl
            fun _ => rfl).trans (ih h)
        · rw [decide_eq_false hmem, if_neg Bool.false_ne_true] at h
          exact (QueueStore.sameCounts_after (taken_zrem_of_not_mem hmem) rfl).trans (ih h)

lemma sameCounts_reclaimLoop {now : Datetime}
    (h : (reclaimLoop settings now raws n).run interp e s = some (res, s')) : s.SameCounts s' := by
  induction raws generalizing n s with
  | nil =>
      obtain ⟨-, rfl⟩ : .ok n = res ∧ s = s' := by simpa [reclaimLoop] using h
      exact .refl s
  | cons raw raws ih =>
      rw [reclaimLoop] at h
      rcases hjob : Job.fromJson raw with _ | job
      · obtain ⟨-, rfl⟩ : .error .invalidJob = res ∧ s = s' := by
          simpa [hjob, Prog.getOrRaise] using h
        exact .refl s
      · simp only [hjob, Prog.getOrRaise, Prog.bind_def, Prog.ret_bind] at h
        rcases isStale_cases settings now job with ⟨stale, hstale⟩ | hstale
        · rw [hstale, Prog.ret_bind] at h
          split at h
          · rw [run_lrem] at h
            by_cases hmem : raw ∈ s.redis.list .processing
            · rw [decide_eq_true hmem, if_pos rfl, run_lpush] at h
              refine (QueueStore.sameCounts_after_after (taken_lrem hmem) rfl rfl rfl
                fun id => ?_).trans (ih h)
              rw [hasId_toJson, hasId, submissionOf, hjob]
              rfl
            · rw [decide_eq_false hmem, if_neg Bool.false_ne_true] at h
              exact (QueueStore.sameCounts_after (taken_lrem_of_not_mem hmem) rfl).trans (ih h)
          · exact ih h
        · rw [hstale, Prog.raise_bind] at h
          obtain ⟨-, rfl⟩ : .error .invalidTimestamp = res ∧ s = s' := by simpa using h
          exact .refl s

lemma sameCounts_requeueLoop {rounds : ℕ} (hs : ∀ raw, s.redis.Holds raw → IsEntry .univ raw)
    (h : (requeueLoop limit rounds n).run interp e s = some (res, s')) : s.SameCounts s' := by
  induction rounds generalizing n s with
  | zero =>
      obtain ⟨-, rfl⟩ : .ok n = res ∧ s = s' := by simpa [requeueLoop] using h
      exact .refl s
  | succ rounds ih =>
      rw [requeueLoop] at h
      split at h
      · obtain ⟨-, rfl⟩ : .ok n = res ∧ s = s' := by simpa using h
        exact .refl s
      · rw [Prog.bind_def, run_rpop] at h
        rcases hlast : (s.redis.list .failed).getLast? with _ | raw
        · rw [hlast] at h
          obtain ⟨-, rfl⟩ : .ok n = res ∧ s.after (.rpop .failed) = s' := by simpa using h
          exact QueueStore.sameCounts_after (c := .rpop .failed) hlast rfl
        · rw [hlast] at h
          obtain ⟨job, rfl, -, hst⟩ := hs raw (.inl ⟨_, List.mem_of_getLast? hlast⟩)
          simp only [Job.fromJson_toJson, Prog.getOrRaise, Prog.bind_def, Prog.ret_bind,
            run_lpush] at h
          refine (QueueStore.sameCounts_after_after (c := .rpop .failed) hlast rfl rfl rfl
            fun _ => rfl).trans (ih (entries_exec (s := s.after (.rpop .failed))
              (entries_exec hs fun _ hg => by cases hg) fun raw hraw => ?_) h)
          obtain rfl : job.toJson = raw := Option.some.inj hraw
          exact ⟨job, rfl, trivial, hst⟩

end Operations

section Worker

variable {e : Env} {s s' : QueueStore} {settings : WorkerSettings}

/-- What `dequeue_job` does: it moves the last entry of the main list to the processing list, and
replaces it there by one with the start of processing. -/
lemma dequeueJob_eq_some {res : Except JobError (Option Job)}
    (hs : ∀ raw ∈ s.redis.list .main, ∃ job : Job, job.toJson = raw)
    (h : dequeueJob.run interp e s = some (res, s')) :
    (s.redis.list .main).getLast? = none ∧ res = .ok none ∧
        s' = s.after (.rpoplpush .main .processing) ∨
      ∃ job : Job, (s.redis.list .main).getLast? = some job.toJson ∧
        res = .ok (some (job.withProcessingStartedAt none e.now)) ∧
        ((job.withProcessingStartedAt none e.now).toJson = job.toJson ∧
            s' = s.after (.rpoplpush .main .processing) ∨
          (job.withProcessingStartedAt none e.now).toJson ≠ job.toJson ∧
            s' = ((s.after (.rpoplpush .main .processing)).after (.lrem .processing job.toJson)).after
              (.lpush .processing (job.withProcessingStartedAt none e.now).toJson)) := by
  rw [dequeueJob, Prog.bind_def, run_brpoplpush] at h
  rcases hlast : (s.redis.list .main).getLast? with _ | raw
  · rw [hlast] at h
    obtain ⟨rfl, rfl⟩ := Prod.mk.inj (Option.some.inj h)
    exact .inl ⟨rfl, rfl, rfl⟩
  · rw [hlast] at h
    obtain ⟨job, rfl⟩ := hs raw (List.mem_of_getLast? hlast)
    refine .inr ⟨job, rfl, ?_⟩
    simp only [startProcessing, Job.fromJson_toJson, Prog.getOrRaise, Prog.bind_def,
      Prog.ret_bind] at h
    rw [run_utcNow] at h
    split_ifs at h with heq
    · obtain ⟨rfl, rfl⟩ := Prod.mk.inj (Option.some.inj h)
      exact ⟨rfl, .inl ⟨heq, rfl⟩⟩
    · rw [run_lrem, run_lpush] at h
      obtain ⟨rfl, rfl⟩ := Prod.mk.inj (Option.some.inj h)
      exact ⟨rfl, .inr ⟨heq, rfl⟩⟩

/-- A dequeue of a job that was not taken before. -/
lemma run_dequeueJob {job : Job} (hlast : (s.redis.list .main).getLast? = some job.toJson)
    (hfresh : job.processingStartedAt = none) :
    dequeueJob.run interp e s = some (.ok (some (job.withProcessingStartedAt none e.now)),
      ((s.after (.rpoplpush .main .processing)).after (.lrem .processing job.toJson)).after
        (.lpush .processing (job.withProcessingStartedAt none e.now).toJson)) := by
  have hne : (job.withProcessingStartedAt none e.now).toJson ≠ job.toJson := by
    intro heq
    have hjob := congrArg Job.processingStartedAt (Job.toJson_injective heq)
    simp [hfresh, Job.withProcessingStartedAt] at hjob
  rw [dequeueJob, Prog.bind_def, run_brpoplpush, hlast]
  simp only [startProcessing, Job.fromJson_toJson, Prog.getOrRaise, Prog.bind_def, Prog.ret_bind]
  rw [run_utcNow, if_neg hne, run_lrem]
  rfl

/-- The entry that was moved is at the head of the processing list. -/
lemma processing_after_rpoplpush {raw : String} (hlast : (s.redis.list .main).getLast? = some raw) :
    (s.after (.rpoplpush .main .processing)).redis.list .processing =
      raw :: s.redis.list .processing := by
  simp [QueueStore.after, Redis.Command.exec, hlast]

lemma sameCounts_dequeueJob {res : Except JobError (Option Job)}
    (hs : ∀ raw, s.redis.Holds raw → IsEntry .univ raw)
    (h : dequeueJob.run interp e s = some (res, s')) : s.SameCounts s' := by
  have hmoved : s.SameCounts (s.after (.rpoplpush .main .processing)) :=
    QueueStore.sameCounts_after rfl rfl
  have hmain : ∀ raw ∈ s.redis.list .main, ∃ job : Job, job.toJson = raw := fun raw hraw =>
    (hs raw (.inl ⟨_, hraw⟩)).imp fun _ h => h.1
  rcases dequeueJob_eq_some hmain h with ⟨-, -, rfl⟩ | ⟨job, hlast, -, ⟨-, rfl⟩ | ⟨-, rfl⟩⟩
  · exact hmoved
  · exact hmoved
  · have hmem : job.toJson ∈ (s.after (.rpoplpush .main .processing)).redis.list .processing := by
      rw [processing_after_rpoplpush hlast]
      exact List.mem_cons_self
    exact hmoved.trans (QueueStore.sameCounts_after_after (taken_lrem hmem) rfl rfl rfl
      fun id => by simp [Job.withProcessingStartedAt])

/-- When a worker's own entry is in the processing list and is the only entry of the job, a
retry moves it to the delayed set. -/
lemma sameCounts_scheduleRetry {job : Job} {message : String} {res : Except JobError Job}
    (hown : job.toJson ∈ s.redis.list .processing) (hone : s.count job.id = 1)
    (h : (scheduleRetry settings job message).run interp e s = some (res, s')) :
    s.SameCounts s' := by
  rw [run_scheduleRetry] at h
  obtain ⟨-, rfl⟩ := Prod.mk.inj (Option.some.inj h)
  have hid : (retriedJob job message).id = job.id := rfl
  -- The only entry is taken out, so the retried job is not yet a member of the delayed set.
  have hgone : (s.after (.lrem .processing job.toJson)).count job.id = 0 := by
    have hcount := QueueStore.count_after_lrem hown job.id
    simp only [beq_self_eq_true, if_true] at hcount
    omega
  have hnew : (retriedJob job message).toJson ∉
      ((s.after (.lrem .processing job.toJson)).redis.zset .delayed).members := fun hmem => by
    have hpos : 0 < (s.after (.lrem .processing job.toJson)).count job.id :=
      Redis.Lists.count_pos_iff.2 ⟨_, .inr ⟨_, hmem⟩, by simp [hid]⟩
    omega
  exact QueueStore.sameCounts_after_after (taken_lrem hown) rfl rfl (added_zadd hnew)
    fun id => by simp [hid]

lemma sameCounts_moveJobToFailedQueue {job : Job} {error : Option String}
    {res : Except JobError Job} (hown : job.toJson ∈ s.redis.list .processing)
    (h : (moveJobToFailedQueue job error).run interp e s = some (res, s')) :
    s.SameCounts s' := by
  rw [run_moveJobToFailedQueue] at h
  obtain ⟨-, rfl⟩ := Prod.mk.inj (Option.some.inj h)
  have hid : (failedJob job error e.now).id = job.id :=
    congrArg Submission.id (submission_failedJob job error e.now)
  exact QueueStore.sameCounts_after_after (taken_lrem hown) rfl rfl rfl fun id => by simp [hid]

lemma sameCounts_handled {job : Job} {outcome : Outcome} : s.SameCounts (s.handled job outcome) := by
  cases outcome <;> exact ⟨rfl, rfl, fun _ => rfl⟩

end Worker

/-! ### Exactly one entry -/

/-- Every submitted job has one entry until it is acknowledged, and none afterwards. -/
structure QueueStore.Exact (s : QueueStore) : Prop where
  acked : ∀ id ∈ s.acked, id ∈ s.enqueued.map Submission.id
  count : ∀ x ∈ s.enqueued, s.count x.id = if x.id ∈ s.acked then 0 else 1

lemma QueueStore.Exact.of_sameCounts {s t : QueueStore} (h : s.Exact) (hst : s.SameCounts t) :
    t.Exact where
  acked id hid := by
    rw [hst.enqueued]
    rw [hst.acked] at hid
    exact h.acked id hid
  count x hx := by
    rw [hst.enqueued] at hx
    rw [hst.count, hst.acked, h.count x hx]

/-- The job that an operation finishes for its worker. -/
def Operation.finishes : Operation → Option Job
  | .ackJob job => some job
  | .scheduleRetry job _ => some job
  | .moveJobToFailedQueue job _ => some job
  | _ => none

section Step

variable {s s' : QueueStore} {settings : WorkerSettings} {e : Env}

/-- An id that was never submitted has no entry. -/
lemma count_eq_zero_of_not_mem (hwf : s.Wf) {id : String}
    (h : id ∉ s.enqueued.map Submission.id) : s.count id = 0 := by
  by_contra hne
  obtain ⟨raw, hraw, hid⟩ := Redis.Lists.count_pos_iff.1 (Nat.pos_of_ne_zero hne)
  obtain ⟨job, rfl, hjob, -⟩ := hwf.entries raw hraw
  rw [hasId_toJson, beq_iff_eq] at hid
  exact h (List.mem_map.2 ⟨_, hjob, hid⟩)

/-- A worker whose own entry is in the processing list has the only entry of the job. -/
lemma count_eq_one_of_own (hwf : s.Wf) (hs : s.Exact) {job : Job}
    (hown : job.toJson ∈ s.redis.list .processing) :
    job.submission ∈ s.enqueued ∧ s.count job.id = 1 := by
  obtain ⟨job', hjson, hjob, -⟩ := hwf.entries _ (.inl ⟨_, hown⟩)
  obtain rfl := Job.toJson_injective hjson
  have hpos : 0 < s.count job'.id :=
    Redis.Lists.count_pos_iff.2 ⟨_, .inl ⟨_, hown⟩, by simp⟩
  have hcount := hs.count _ hjob
  refine ⟨hjob, ?_⟩
  by_cases hack : job'.submission.id ∈ s.acked
  · rw [if_pos hack] at hcount
    exact absurd hcount (by simpa [Job.submission] using hpos.ne')
  · rw [if_neg hack] at hcount
    exact hcount

/-- A submission adds the one entry of a new id. -/
lemma QueueStore.Exact.enqueue {x : Submission} {res : Except JobError Job} (hs : s.Exact)
    (hwf : s.Wf) (h : (enqueueJob x).run interp e s = some (res, s')) : s'.Exact := by
  obtain ⟨hnew, rfl⟩ := enqueueJob_eq_some h
  have hid : x.job.id = x.id := rfl
  refine ⟨fun id hmem => List.mem_cons_of_mem _ (hs.acked id hmem), fun y hy => ?_⟩
  change (s.after (.lpush .main x.job.toJson)).count y.id = if y.id ∈ s.acked then 0 else 1
  rw [QueueStore.count_after_lpush]
  rcases List.mem_cons.1 hy with rfl | hy
  · rw [count_eq_zero_of_not_mem hwf hnew, if_neg fun hack => hnew (hs.acked _ hack)]
    simp [hid]
  · have hne : x.id ≠ y.id := fun heq => hnew (heq ▸ List.mem_map_of_mem hy)
    rw [hs.count y hy]
    simp [hid, hne]

/-- An acknowledgement takes the only entry of its job out. -/
lemma QueueStore.Exact.ack {job : Job} {res : Except JobError Unit} (hs : s.Exact)
    (hjob : job.submission ∈ s.enqueued) (hone : s.count job.id = 1)
    (hown : job.toJson ∈ s.redis.list .processing)
    (h : (ackJob job).run interp e s = some (res, s')) : s'.Exact := by
  rw [run_ackJob] at h
  obtain ⟨-, rfl⟩ := Prod.mk.inj (Option.some.inj h)
  refine ⟨fun id hmem => ?_, fun y hy => ?_⟩
  · rcases List.mem_cons.1 hmem with rfl | hmem
    · exact List.mem_map.2 ⟨_, hjob, rfl⟩
    · exact hs.acked id hmem
  · change (s.after (.lrem .processing job.toJson)).count y.id =
      if y.id ∈ job.id :: s.acked then 0 else 1
    have hy' := QueueStore.count_after_lrem hown y.id
    by_cases hid : job.id = y.id
    · rw [← hid] at hy' ⊢
      simp only [beq_self_eq_true, if_true, hone, List.mem_cons_self] at hy' ⊢
      omega
    · simp only [beq_iff_eq, hid, if_false, add_zero, List.mem_cons, Ne.symm hid, false_or]
        at hy' ⊢
      rw [hy', hs.count y hy]

/-- **One operation keeps the counts exact**, when a job is finished only by a worker whose own
entry is in the processing list. -/
theorem exact_operation {o : Operation} {res : Except JobError o.Result} (hwf : s.Wf)
    (hs : s.Exact) (hown : ∀ job, o.finishes = some job → job.toJson ∈ s.redis.list .processing)
    (h : (o.commands settings).run interp e s = some (res, s')) : s'.Exact := by
  have hentries : ∀ raw, s.redis.Holds raw → IsEntry .univ raw := fun raw hraw =>
    (hwf.entries raw hraw).mono (Set.subset_univ _)
  cases o with
  | enqueueJob x => exact hs.enqueue hwf h
  | dequeueJob => exact hs.of_sameCounts (sameCounts_dequeueJob hentries h)
  | ackJob job =>
      obtain ⟨hjob, hone⟩ := count_eq_one_of_own hwf hs (hown job rfl)
      exact hs.ack hjob hone (hown job rfl) h
  | scheduleRetry job message =>
      have hjob := hown job rfl
      exact hs.of_sameCounts
        (sameCounts_scheduleRetry hjob (count_eq_one_of_own hwf hs hjob).2 h)
  | promoteDelayedJobs limit =>
      exact hs.of_sameCounts
        ((QueueStore.sameCounts_after (c := .zrangebyscore .delayed 0 e.time) rfl rfl).trans
          (sameCounts_promoteLoop h))
  | reclaimStaleProcessingJobs =>
      exact hs.of_sameCounts
        ((QueueStore.sameCounts_after (c := .lrangeAll .processing) rfl rfl).trans
          (sameCounts_reclaimLoop h))
  | moveJobToFailedQueue job error =>
      exact hs.of_sameCounts (sameCounts_moveJobToFailedQueue (hown job rfl) h)
  | requeueFailedJobs rounds limit => exact hs.of_sameCounts (sameCounts_requeueLoop hentries h)
  | handleJob job =>
      refine hs.of_sameCounts ?_
      have hrun : some (Except.ok (handleJob job e.error), s.handled job (handleJob job e.error)) =
        some (res, s') := h
      obtain ⟨-, rfl⟩ := Prod.mk.inj (Option.some.inj hrun)
      exact sameCounts_handled

end Step

end StarterBackend.Queue

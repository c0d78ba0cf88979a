/-
Inspection and requeue of the failed jobs.

Jobs fail into the head of their list, so the newest is first and the oldest last.
`requeue_failed_jobs` takes from the tail and moves the oldest jobs, as many as its limit
allows, in their order.  `list_failed_jobs` reads a range from the head, and turns its
limit into the last index of the range: for a limit of `0` this is `-1`, which to Redis is
the end of the list, so that the call returns every entry (`failed_queue_limits_iff`).
-/
import StarterBackend.Queue.Exact

namespace StarterBackend.Queue

open Lib

/-! ### The operations -/

/-- `LRANGE key start stop`. -/
def lrange (key : QueueKey) (start stop : ℤ) : QueueProg (List String) := do
  return Redis.lrange (← lrangeAll key) start stop

/-- `[Job.from_json(raw_job) for raw_job in raw_jobs]`. -/
def readJobs : List String → QueueProg (List Job)
  | [] => return []
  | rawJob :: rawJobs => do
      let job ← .getOrRaise .invalidJob (Job.fromJson rawJob)
      let jobs ← readJobs rawJobs
      return job :: jobs

/-- `list_failed_jobs`. -/
def listFailedJobs (limit : ℤ) : QueueProg (List Job) := do
  let rawJobs ← lrange .failed 0 (limit - 1)
  readJobs rawJobs

/-- What `requeue_failed_jobs` writes for an entry. -/
def requeuedEntry (raw : String) : String := ((Job.fromJson raw).map Job.toJson).getD raw

/-- The store after the `m` oldest failed jobs have been requeued: the entries keep their order, so
that the oldest is dequeued first. -/
def QueueStore.requeue (s : QueueStore) (m : ℕ) : QueueStore :=
  { s with redis.list := fun
      | .failed => (s.redis.list .failed).rdrop m
      | .main => ((s.redis.list .failed).rtake m).map requeuedEntry ++ s.redis.list .main
      | key => s.redis.list key }

/-! ### What they do -/

section Runs

variable {e : Env} {s : QueueStore}

lemma run_lrange {α : Type} {key : QueueKey} {start stop : ℤ} {k : List String → QueueProg α} :
    ((lrange key start stop).bind k).run interp e s =
      (k (Redis.lrange (s.redis.list key) start stop)).run interp e s := rfl

/-- The jobs of readable entries. -/
lemma run_readJobs {raws : List String} (h : ∀ raw ∈ raws, (Job.fromJson raw).isSome) :
    (readJobs raws).run interp e s = some (.ok (raws.filterMap Job.fromJson), s) := by
  induction raws with
  | nil => rfl
  | cons raw raws ih =>
      obtain ⟨job, hjob⟩ := Option.isSome_iff_exists.1 (h raw List.mem_cons_self)
      have hrest := ih fun raw' hraw' => h raw' (List.mem_cons_of_mem raw hraw')
      rw [readJobs, hjob, List.filterMap_cons_some hjob]
      show ((readJobs raws).bind fun jobs => .ret (job :: jobs)).run interp e s = _
      rw [Prog.run_bind hrest]
      rfl

/-- **What `list_failed_jobs` returns**: the entries of its range. -/
lemma run_listFailedJobs (h : ∀ raw ∈ s.redis.list .failed, (Job.fromJson raw).isSome)
    (limit : ℤ) : (listFailedJobs limit).run interp e s =
      some (.ok ((Redis.lrange (s.redis.list .failed) 0 (limit - 1)).filterMap Job.fromJson), s) := by
  rw [listFailedJobs, Prog.bind_def, run_lrange]
  exact run_readJobs fun raw hraw => h raw (Redis.lrange_subset _ _ _ hraw)

lemma requeue_zero : s.requeue 0 = s := by
  obtain ⟨⟨list, zset⟩, enqueued, returned, acked⟩ := s
  simp only [QueueStore.requeue, List.rdrop_zero, List.rtake_zero, List.map_nil, List.nil_append]
  congr
  funext key
  cases key <;> rfl

/-- Requeueing the oldest job and then the `m` oldest of the rest. -/
lemma requeue_after_pop {raws : List String} {raw : String} {job : Job}
    (hfailed : s.redis.list .failed = raws ++ [raw]) (hjob : Job.fromJson raw = some job) (m : ℕ) :
    ((s.after (.rpop .failed)).after (.lpush .main job.toJson)).requeue m = s.requeue (m + 1) := by
  have hentry : requeuedEntry raw = job.toJson := by simp [requeuedEntry, hjob]
  simp only [QueueStore.requeue, QueueStore.after, Redis.Command.exec, QueueStore.mk.injEq,
    Redis.Lists.mk.injEq, and_true]
  funext key
  cases key with
  | failed => simp [hfailed]
  | main => simp [hfailed, hentry]
  | processing => simp
  | delayed => simp

/-- How many jobs the loop may still requeue, of `available` ones. -/
def remaining (limit : Option ℤ) (requeuedCount available : ℕ) : ℕ :=
  match limit with
  | none => available
  | some n => min (n - requeuedCount).toNat available

/-- **What the loop of `requeue_failed_jobs` does**: it requeues the oldest jobs, as many as the
limit leaves. -/
lemma run_requeueLoop {limit : Option ℤ} {rounds n : ℕ}
    (h : ∀ raw ∈ s.redis.list .failed, (Job.fromJson raw).isSome)
    (hrounds : (s.redis.list .failed).length ≤ rounds) :
    (requeueLoop limit rounds n).run interp e s =
      some (.ok (n + remaining limit n (s.redis.list .failed).length),
        s.requeue (remaining limit n (s.redis.list .failed).length)) := by
  induction rounds generalizing n s with
  | zero =>
      have hnil : (s.redis.list .failed).length = 0 := by omega
      have hnone : remaining limit n 0 = 0 := by
        cases limit <;> simp [remaining]
      rw [requeueLoop, hnil, hnone, requeue_zero]
      rfl
  | succ rounds ih =>
      rw [requeueLoop]
      by_cases hreached : reached limit n = true
      · -- the limit is reached
        have hnone : remaining limit n (s.redis.list .failed).length = 0 := by
          obtain ⟨m, rfl, hm⟩ := (Option.any_eq_true _ _).1 hreached
          have hle : m ≤ n := of_decide_eq_true hm
          simp only [remaining]
          omega
        rw [if_pos hreached, hnone, requeue_zero]
        rfl
      · rw [if_neg hreached, Prog.bind_def, run_rpop]
        rcases List.eq_nil_or_concat' (s.redis.list .failed) with hnil | ⟨raws, raw, hfailed⟩
        · -- there is no job left
          have hnone : remaining limit n 0 = 0 := by
            cases limit <;> simp [remaining]
          have hpop : s.after (.rpop .failed) = s := by
            rw [QueueStore.after, Redis.Command.exec, hnil, List.dropLast_nil, ← hnil,
              Function.update_eq_self]
          rw [hnil, List.length_nil, hnone, requeue_zero, List.getLast?_nil, hpop]
          rfl
        · obtain ⟨job, hjob⟩ := Option.isSome_iff_exists.1 (h raw (by simp [hfailed]))
          have hone : remaining limit n (raws.length + 1) =
              remaining limit (n + 1) raws.length + 1 := by
            cases limit with
            | none => rfl
            | some m =>
                have hlt : ¬ m ≤ n := by simpa [reached] using hreached
                simp only [remaining]
                omega
          have hrest : ((s.after (.rpop .failed)).after (.lpush .main job.toJson)).redis.list .failed =
              raws := by simp [QueueStore.after, Redis.Command.exec, hfailed]
          have hloop := ih (s := (s.after (.rpop .failed)).after (.lpush .main job.toJson))
            (n := n + 1) (by
              rw [hrest]
              intro raw' hraw'
              exact h raw' (by simp [hfailed, hraw'])) (by
              rw [hrest]
              rw [hfailed, List.length_append, List.length_singleton] at hrounds
              omega)
          rw [hrest, requeue_after_pop hfailed hjob] at hloop
          have hlast : (s.redis.list .failed).getLast? = some raw := by simp [hfailed]
          rw [hlast]
          simp only [hjob, Prog.getOrRaise, Prog.bind_def, Prog.ret_bind, run_lpush]
          rw [hloop, hfailed, List.length_append, List.length_singleton, hone]
          congr 3
          omega

end Runs

/-! ### Every limit -/

/-- All failed entries are readable. -/
def QueueStore.FailedReadable (s : QueueStore) : Prop :=
  ∀ raw ∈ s.redis.list .failed, (Job.fromJson raw).isSome

/-- `list_failed_jobs(limit=k)` returns the `min k n` most recently failed jobs, newest first, and
changes nothing. -/
def ListsNewest (s : QueueStore) (k : ℕ) : Prop :=
  ∀ e, (listFailedJobs k).run interp e s =
    some (.ok (((s.redis.list .failed).take k).filterMap Job.fromJson), s)

/-- `requeue_failed_jobs(limit=k)` moves the `min k n` oldest entries to the main list, in their
order, and returns their number. -/
def RequeuesOldest (s : QueueStore) (k : ℕ) : Prop :=
  ∀ e rounds, (s.redis.list .failed).length ≤ rounds →
    (requeueFailedJobs rounds (some k)).run interp e s =
      some (.ok (min k (s.redis.list .failed).length),
        s.requeue (min k (s.redis.list .failed).length))

/-- `requeue_failed_jobs()` ends, and has moved all entries. -/
def RequeuesAll (s : QueueStore) : Prop :=
  ∀ e rounds, (s.redis.list .failed).length ≤ rounds →
    (requeueFailedJobs rounds none).run interp e s =
      some (.ok (s.redis.list .failed).length, s.requeue (s.redis.list .failed).length)

section Limits

variable {s : QueueStore} {k : ℕ}

lemma requeuesOldest (h : s.FailedReadable) : RequeuesOldest s k := by
  intro e rounds hrounds
  rw [requeueFailedJobs, run_requeueLoop h hrounds]
  simp [remaining]

lemma requeuesAll (h : s.FailedReadable) : RequeuesAll s := by
  intro e rounds hrounds
  rw [requeueFailedJobs, run_requeueLoop h hrounds]
  simp [remaining]

/-- A limit that is not zero becomes the index of the last job to list. -/
lemma listsNewest_succ (h : s.FailedReadable) : ListsNewest s (k + 1) := by
  intro e
  have hstop : ((k + 1 : ℕ) : ℤ) - 1 = k := by omega
  rw [run_listFailedJobs h, hstop, Redis.lrange_zero_natCast]

/-- **The limit zero** lists every job. -/
lemma run_listFailedJobs_zero (h : s.FailedReadable) {e : Env} :
    (listFailedJobs 0).run interp e s =
      some (.ok ((s.redis.list .failed).filterMap Job.fromJson), s) := by
  rw [run_listFailedJobs h, zero_sub, Redis.lrange_zero_neg_one]

lemma filterMap_eq_nil_iff (h : s.FailedReadable) :
    (s.redis.list .failed).filterMap Job.fromJson = [] ↔ s.redis.list .failed = [] := by
  rw [List.filterMap_eq_nil_iff]
  constructor
  · intro hnone
    rw [List.eq_nil_iff_forall_not_mem]
    intro raw hraw
    have hsome := h raw hraw
    simp [hnone raw hraw] at hsome
  · intro hnil
    simp [hnil]

/-- **Inspection and requeue respect the limit** exactly when it is not zero or there is no failed
job. -/
theorem failed_queue_limits_iff (h : s.FailedReadable) (k : ℕ) :
    (ListsNewest s k ∧ RequeuesOldest s k ∧ RequeuesAll s) ↔
      (k ≠ 0 ∨ s.redis.list .failed = []) := by
  refine ⟨fun ⟨hlists, _⟩ => ?_, fun hk => ⟨?_, requeuesOldest h, requeuesAll h⟩⟩
  · rcases Nat.eq_zero_or_pos k with rfl | hpos
    · right
      have hrun := (run_listFailedJobs_zero h).symm.trans (hlists ⟨⟨0, by decide⟩, 0, none⟩)
      have hjobs := Except.ok.inj (Prod.mk.inj (Option.some.inj hrun)).1
      rw [List.take_zero, List.filterMap_nil] at hjobs
      exact (filterMap_eq_nil_iff h).1 hjobs
    · exact .inl hpos.ne'
  · rcases Nat.eq_zero_or_pos k with rfl | hpos
    · have hnil := hk.resolve_left (fun hne => hne rfl)
      intro e
      have hrun := run_listFailedJobs_zero h (e := e)
      rw [hnil] at hrun ⊢
      exact hrun
    · obtain ⟨m, rfl⟩ := Nat.exists_eq_succ_of_ne_zero hpos.ne'
      exact listsNewest_succ h

end Limits

/-- A job that has failed. -/
def someFailedJob : Job :=
  { id := "a", type := "verify_presigned_upload", payload := ⟨[], by decide⟩, attempts := 3,
    failedAt := some "2026-01-01T00:00:00+00:00" }

/-- One job has failed, and nothing else is there. -/
def oneFailed : QueueStore :=
  ⟨⟨fun | .failed => [someFailedJob.toJson] | _ => [], fun _ => ∅⟩, [], [], []⟩

lemma oneFailed_readable : oneFailed.FailedReadable := by
  intro raw hraw
  obtain rfl : raw = someFailedJob.toJson := List.mem_singleton.1 hraw
  simp

theorem failed_queue_limits_oneFailed :
    (ListsNewest oneFailed 1 ∧ RequeuesOldest oneFailed 1 ∧ RequeuesAll oneFailed) ↔
      (1 ≠ 0 ∨ oneFailed.redis.list .failed = []) :=
  failed_queue_limits_iff oneFailed_readable 1

/-- With the limit zero `list_failed_jobs` returns the failed job. -/
theorem limit_zero_lists_failed_job :
    oneFailed.FailedReadable ∧
      ¬ (ListsNewest oneFailed 0 ∧ RequeuesOldest oneFailed 0 ∧ RequeuesAll oneFailed) := by
  refine ⟨oneFailed_readable, fun ⟨hlists, _⟩ => ?_⟩
  have hrun := (run_listFailedJobs_zero oneFailed_readable).symm.trans
    (hlists ⟨⟨0, by decide⟩, 0, none⟩)
  have hjobs := Except.ok.inj (Prod.mk.inj (Option.some.inj hrun)).1
  have hfailed : oneFailed.redis.list .failed = [someFailedJob.toJson] := rfl
  simp [hfailed] at hjobs

end StarterBackend.Queue

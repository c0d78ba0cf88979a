/-
The delays of retries.

`schedule_retry` puts a job into the delayed set with the time from which it is
available as its score, and `promote_delayed_jobs` moves the jobs whose time has come.
With clocks that do not go back no promotion moves a job before its time, however
often the same text is delayed again, and every promotion moves the earliest jobs that
are due, as many as its limit allows, in the order in which they became due
(`retries_never_early`).  Every operation is one atomic step here.
-/
import StarterBackend.Queue.Maintenance
import StarterBackend.Queue.Leases

namespace StarterBackend.Queue

open Lib

/-! ### Back-off -/

/-- **The delays do not decrease** with the number of attempts. -/
lemma calculateRetryDelaySeconds_mono (settings : WorkerSettings) :
    Monotone (calculateRetryDelaySeconds settings) := by
  intro m n hmn
  by_cases hm : m ≤ 0
  · rw [calculateRetryDelaySeconds, if_pos hm]
    exact (calculateRetryDelaySeconds_mem settings n).1
  · have hn : ¬ n ≤ 0 := by omega
    rw [calculateRetryDelaySeconds, calculateRetryDelaySeconds, if_neg hm, if_neg hn]
    refine min_le_min_right _ (Nat.mul_le_mul_left _ (Nat.pow_le_pow_right (by decide) ?_))
    omega

/-- The delay after `n` attempts is at least that of the formula, for every integer `n`. -/
lemma formula_le_delay (settings : WorkerSettings) (n : ℤ) :
    min ((settings.retryBackoffBaseSeconds : ℚ) * 2 ^ (n - 1)) settings.retryBackoffMaxSeconds ≤
      calculateRetryDelaySeconds settings n := by
  by_cases hn : n ≤ 0
  · rw [calculateRetryDelaySeconds, if_pos hn]
    refine (min_le_left _ _).trans ?_
    have hpow : (2 : ℚ) ^ (n - 1) ≤ 1 := zpow_le_one_of_nonpos₀ (by norm_num) (by omega)
    exact mul_le_of_le_one_right (by positivity) hpow
  · obtain ⟨m, hm⟩ : ∃ m : ℕ, n - 1 = m := ⟨(n - 1).toNat, by omega⟩
    rw [calculateRetryDelaySeconds, if_neg hn, hm, Int.toNat_natCast, zpow_natCast]
    push_cast
    exact le_rfl

/-! ### Promotion -/

/-- The store after these members of the delayed set have been promoted, the first of them first. -/
def QueueStore.promote (s : QueueStore) (moved : List String) : QueueStore :=
  { s with redis :=
    { list := fun
        | .main => moved.reverse ++ s.redis.list .main
        | key => s.redis.list key
      zset := fun
        | .delayed => (s.redis.zset .delayed).eraseAll moved
        | key => s.redis.zset key } }

section Promote

variable {e : Env} {s : QueueStore} {limit : Option ℤ} {n : ℕ}

lemma promote_nil : s.promote [] = s := by
  obtain ⟨⟨list, zset⟩, enqueued, returned, acked⟩ := s
  simp only [QueueStore.promote, List.reverse_nil, List.nil_append, Redis.SortedSet.eraseAll_nil,
    QueueStore.mk.injEq, Redis.Lists.mk.injEq, and_true]
  constructor <;> funext key <;> cases key <;> rfl

/-- Promoting one job and then others. -/
lemma promote_after {raw : String} {moved : List String} :
    ((s.after (.zrem .delayed raw)).after (.lpush .main raw)).promote moved =
      s.promote (raw :: moved) := by
  simp only [QueueStore.promote, QueueStore.after, Redis.Command.exec, QueueStore.mk.injEq,
    Redis.Lists.mk.injEq, and_true]
  constructor <;> funext key <;> cases key <;> simp [Redis.SortedSet.eraseAll_cons]

/-- **What the loop of `promote_delayed_jobs` does**: it promotes the first jobs, as many as the
limit leaves. -/
lemma run_promoteLoop {raws : List String} (hnodup : raws.Nodup)
    (hraws : ∀ raw ∈ raws, raw ∈ (s.redis.zset .delayed).members) :
    (promoteLoop limit raws n).run interp e s =
      some (.ok (n + remaining limit n raws.length),
        s.promote (raws.take (remaining limit n raws.length))) := by
  induction raws generalizing n s with
  | nil =>
      have hnone : remaining limit n 0 = 0 := by
        cases limit <;> simp [remaining]
      rw [promoteLoop, List.length_nil, hnone, List.take_nil, promote_nil]
      rfl
  | cons raw raws ih =>
      rw [promoteLoop]
      by_cases hreached : reached limit n = true
      · -- the limit is reached
        have hnone : remaining limit n (raw :: raws).length = 0 := by
          obtain ⟨m, rfl, hm⟩ := (Option.any_eq_true _ _).1 hreached
          have hle : m ≤ n := of_decide_eq_true hm
          simp only [remaining]
          omega
        rw [if_pos hreached, hnone, List.take_zero, promote_nil]
        rfl
      · obtain ⟨hnew, hnodup'⟩ := List.nodup_cons.1 hnodup
        have hmem : raw ∈ (s.redis.zset .delayed).members := hraws raw List.mem_cons_self
        have hone : remaining limit n (raws.length + 1) =
            remaining limit (n + 1) raws.length + 1 := by
          cases limit with
          | none => rfl
          | some m =>
              have hlt : ¬ m ≤ n := by simpa [reached] using hreached
              simp only [remaining]
              omega
        have hmembers : ((s.after (.zrem .delayed raw)).after (.lpush .main raw)).redis.zset
            .delayed = (s.redis.zset .delayed).erase raw := by
          simp [QueueStore.after, Redis.Command.exec]
        have hloop := ih (s := (s.after (.zrem .delayed raw)).after (.lpush .main raw))
          (n := n + 1) hnodup' (by
            intro raw' hraw'
            have hne : raw' ≠ raw := fun heq => hnew (heq ▸ hraw')
            rw [hmembers, Redis.SortedSet.members_erase, List.mem_erase_of_ne hne]
            exact hraws raw' (List.mem_cons_of_mem raw hraw'))
        rw [if_neg hreached, Prog.bind_def, run_zrem, decide_eq_true hmem, if_pos rfl,
          Prog.bind_def, run_lpush, hloop, promote_after, List.length_cons, hone,
          List.take_succ_cons]
        congr 3
        omega

/-- The jobs that are due, the earliest first. -/
def QueueStore.due (s : QueueStore) (now : ℚ) : List String :=
  (s.redis.zset .delayed).rangeByScore 0 now

lemma due_nodup (s : QueueStore) (now : ℚ) : (s.due now).Nodup :=
  (s.redis.zset .delayed).nodup.sublist (List.filter_sublist.map _)

/-- **What `promote_delayed_jobs` does.** -/
lemma run_promoteDelayedJobs : (promoteDelayedJobs limit).run interp e s =
    some (.ok (remaining limit 0 (s.due e.time).length),
      s.promote ((s.due e.time).take (remaining limit 0 (s.due e.time).length))) := by
  have hloop : (promoteLoop limit (s.due e.time) 0).run interp e s =
      some (.ok (0 + remaining limit 0 (s.due e.time).length),
        s.promote ((s.due e.time).take (remaining limit 0 (s.due e.time).length))) :=
    run_promoteLoop (due_nodup s e.time)
      fun raw hraw => (s.redis.zset .delayed).rangeByScore_subset 0 e.time hraw
  rw [Nat.zero_add] at hloop
  exact hloop

end Promote

/-! ### Scores -/

/-- The command gives a member of a sorted set a score. -/
def Command.scores : Command → Bool
  | .redis (.zadd _ _ _) => true
  | _ => false

section Scores

variable {e : Env} {s s' : QueueStore} {settings : WorkerSettings}

/-- The other commands change no score, and add no member. -/
lemma items_of_interp {c : Command} (hc : c.scores = false) {x : Except JobError c.Reply}
    (h : interp c e s = some (x, s')) {i : String × ℚ}
    (hi : i ∈ (s'.redis.zset .delayed).items) : i ∈ (s.redis.zset .delayed).items := by
  cases c with
  | redis c =>
      obtain ⟨-, rfl⟩ := Prod.mk.inj (Option.some.inj h)
      cases c with
      | zadd key m score => cases hc
      | zrem key m =>
          by_cases hkey : key = .delayed
          · subst hkey
            simp only [Redis.Command.exec, Function.update_self] at hi
            exact List.mem_of_mem_filter hi
          · simpa [Redis.Command.exec, Ne.symm hkey] using hi
      | rpoplpush source destination =>
          rcases hlast : (s.redis.list source).getLast? with _ | value
          · simpa [Redis.Command.exec, hlast] using hi
          · simpa [Redis.Command.exec, hlast] using hi
      | lpush key value => exact hi
      | rpop key => exact hi
      | lrem key value => exact hi
      | lrangeAll key => exact hi
      | zrangebyscore key low high => exact hi
  | push job =>
      simp only [interp] at h
      split_ifs at h
      obtain ⟨-, rfl⟩ := Prod.mk.inj (Option.some.inj h)
      exact hi
  | remove job =>
      obtain ⟨-, rfl⟩ := Prod.mk.inj (Option.some.inj h)
      exact hi
  | utcNow | time =>
      obtain ⟨-, rfl⟩ := Prod.mk.inj (Option.some.inj h)
      exact hi
  | handle job =>
      obtain ⟨-, rfl⟩ := Prod.mk.inj (Option.some.inj h)
      cases hend : handleJob job e.error <;> simpa [hend, QueueStore.handled] using hi

lemma scores_of_maintains {α : Type} {p : QueueProg α} (h : p.Every fun c _ => c.Maintains) :
    p.Every fun c _ => c.scores = false :=
  h.imp fun _ _ hc => by cases hc <;> rfl

lemma scores_dequeueJob : dequeueJob.Every fun c _ => c.scores = false := by
  refine ⟨rfl, fun raw => ?_⟩
  cases raw with
  | none => trivial
  | some raw =>
      refine Prog.every_getOrRaise_bind fun job _ => ⟨rfl, fun now => ?_⟩
      show Prog.Every _ (if _ then _ else _)
      split_ifs
      · trivial
      · exact ⟨rfl, fun _ => ⟨rfl, fun _ => trivial⟩⟩

/-- **A job gets its score from `schedule_retry`**, and from no other operation. -/
lemma items_of_operation {o : Operation} {res : Except JobError o.Result}
    (h : (o.commands settings).run interp e s = some (res, s')) {i : String × ℚ}
    (hi : i ∈ (s'.redis.zset .delayed).items) :
    i ∈ (s.redis.zset .delayed).items ∨ ∃ job message, o = .scheduleRetry job message ∧
      i = ((retriedJob job message).toJson, availableAt settings e.time job message) := by
  have hquiet : (o.commands settings).Every (fun c _ => c.scores = false) →
      i ∈ (s.redis.zset .delayed).items := by
    intro hscores
    by_contra hnot
    exact Prog.run_invariant (I := fun s => i ∉ (s.redis.zset .delayed).items)
      (hscores.imp fun _ _ hc _ _ _ hs hexec hmem => hs (items_of_interp hc hexec hmem)) h hnot hi
  cases o with
  | scheduleRetry job message =>
      have hrun : (scheduleRetry settings job message).run interp e s = _ := run_scheduleRetry
      obtain ⟨-, rfl⟩ := Prod.mk.inj (Option.some.inj (hrun.symm.trans h))
      have hitems : i ∈ ((s.redis.zset .delayed).add (retriedJob job message).toJson
          (availableAt settings e.time job message)).items := by
        simpa [QueueStore.after, Redis.Command.exec] using hi
      rcases Redis.SortedSet.mem_items_add.1 hitems with rfl | ⟨hmem, -⟩
      · exact .inr ⟨job, message, rfl, rfl⟩
      · exact .inl hmem
  | enqueueJob x => exact .inl (hquiet ⟨rfl, fun _ => trivial⟩)
  | dequeueJob => exact .inl (hquiet scores_dequeueJob)
  | ackJob job => exact .inl (hquiet ⟨rfl, fun _ => trivial⟩)
  | promoteDelayedJobs limit => exact .inl (hquiet (scores_of_maintains maintains_promoteDelayedJobs))
  | reclaimStaleProcessingJobs =>
      exact .inl (hquiet (scores_of_maintains maintains_reclaimStaleProcessingJobs))
  | moveJobToFailedQueue job error =>
      exact .inl (hquiet ⟨rfl, fun _ => ⟨rfl, fun _ => ⟨rfl, fun _ => trivial⟩⟩⟩)
  | requeueFailedJobs rounds limit =>
      exact .inl (hquiet (scores_of_maintains (maintains_requeueLoop rounds 0)))
  | handleJob job => exact .inl (hquiet ⟨rfl, fun _ => trivial⟩)

/-- The retried job has its new score. -/
lemma score_scheduleRetry {job : Job} {message : String} {res : Except JobError Job}
    (h : (scheduleRetry settings job message).run interp e s = some (res, s')) {score : ℚ}
    (hi : ((retriedJob job message).toJson, score) ∈ (s'.redis.zset .delayed).items) :
    score = availableAt settings e.time job message := by
  obtain ⟨-, rfl⟩ := Prod.mk.inj (Option.some.inj (run_scheduleRetry.symm.trans h))
  have hitems : ((retriedJob job message).toJson, score) ∈ ((s.redis.zset .delayed).add
      (retriedJob job message).toJson (availableAt settings e.time job message)).items := by
    simpa [QueueStore.after, Redis.Command.exec] using hi
  rcases Redis.SortedSet.mem_items_add.1 hitems with heq | ⟨-, hne⟩
  · exact (Prod.mk.inj heq).2
  · exact absurd rfl hne

end Scores

/-! ### Runs -/

namespace System

variable {ι : Type*} [DecidableEq ι] {settings : WorkerSettings} {s t u v v' : System ι}
  {as bs cs ds : List (PoolAction ι Request Env)} {a : PoolAction ι Request Env} {i j : ι} {e e' : Env}

/-- The process is about to perform the operation. -/
def Performs (s : System ι) (i : ι) (o : Operation) : Prop := ∃ q k, s.calls i = some (q, .call o k)

/-- The reading of the clock in a step. -/
def reading : PoolAction ι Request Env → Option ℚ
  | .step _ e => some e.time
  | _ => none

/-- The readings of the clock in a run, in their order. -/
def readings (as : List (PoolAction ι Request Env)) : List ℚ := as.filterMap reading

/-- What a process does that performs an operation. -/
lemma run_of_performs {o : Operation} (hi : v.Performs i o)
    (h : step settings v (.step i e) = some v') :
    ∃ res, (o.commands settings).run interp e v.store = some (res, v'.store) := by
  obtain ⟨q, k, hcall⟩ := hi
  rcases Pool.next_step_cases hcall h with ⟨x, hrun, -⟩ | ⟨r, hrun, -⟩
  · exact ⟨_, hrun⟩
  · exact ⟨_, hrun⟩

/-- The scores after a step: those before it, and that of a job that it retries. -/
lemma items_of_step (h : step settings s a = some t) {m : String × ℚ}
    (hm : m ∈ (t.store.redis.zset .delayed).items) :
    m ∈ (s.store.redis.zset .delayed).items ∨ ∃ e, reading a = some e ∧ ∃ job message,
      m = ((retriedJob job message).toJson, availableAt settings e job message) := by
  rcases Pool.next_cases h with ⟨i, q, rfl, hi, rfl⟩ |
    ⟨i, e, q, o, k, p', w, rfl, hi, rfl, hcmd⟩ | ⟨i, q, p, rfl, hi, rfl⟩
  · exact .inl hm
  · obtain ⟨res, hrun⟩ : ∃ res, (o.commands settings).run interp e s.store = some (res, w) := by
      rcases hcmd with ⟨x, hrun, -⟩ | ⟨r, hrun, -⟩
      · exact ⟨_, hrun⟩
      · exact ⟨_, hrun⟩
    rcases items_of_operation hrun hm with hmem | ⟨job, message, -, heq⟩
    · exact .inl hmem
    · exact .inr ⟨e.time, rfl, job, message, heq⟩
  · exact .inl hm

/-- **A score stays at least as late**, while the clock does not go back behind `time`. -/
lemma le_score_run {raw : String} {bound time : ℚ}
    (hbound : ∀ job message, (retriedJob job message).toJson = raw → ∀ now, time ≤ now →
      bound ≤ availableAt settings now job message)
    (hs : ∀ score, (raw, score) ∈ (s.store.redis.zset .delayed).items → bound ≤ score)
    (hclock : ∀ now ∈ readings as, time ≤ now) (h : exec (step settings) s as = some t) :
    ∀ score, (raw, score) ∈ (t.store.redis.zset .delayed).items → bound ≤ score := by
  induction as generalizing s with
  | nil =>
      obtain rfl : s = t := by simpa using h
      exact hs
  | cons a as ih =>
      obtain ⟨s', hs', h'⟩ := exec_cons_eq_some.1 h
      have hclock' : ∀ now ∈ readings as, time ≤ now := by
        intro now hnow
        obtain ⟨b, hb, hread⟩ := List.mem_filterMap.1 hnow
        exact hclock now (List.mem_filterMap.2 ⟨b, List.mem_cons_of_mem a hb, hread⟩)
      refine ih (fun score hscore => ?_) hclock' h'
      rcases items_of_step hs' hscore with hmem | ⟨now, hread, job, message, heq⟩
      · exact hs score hmem
      · obtain ⟨rfl, rfl⟩ := Prod.mk.inj heq
        exact hbound job message rfl now
          (hclock now (List.mem_filterMap.2 ⟨a, List.mem_cons_self, hread⟩))

/-- A member that a promotion takes out of the delayed set was due. -/
lemma due_of_promoted {limit : Option ℤ} (hj : v.Performs j (.promoteDelayedJobs limit))
    (h : step settings v (.step j e') = some v') {raw : String}
    (hbefore : raw ∈ (v.store.redis.zset .delayed).members)
    (hafter : raw ∉ (v'.store.redis.zset .delayed).members) :
    ∃ score, (raw, score) ∈ (v.store.redis.zset .delayed).items ∧ score ≤ e'.time := by
  obtain ⟨res, hrun⟩ := run_of_performs hj h
  obtain ⟨-, heq⟩ := Prod.mk.inj (Option.some.inj (run_promoteDelayedJobs.symm.trans hrun))
  obtain ⟨⟨m, score⟩, hm, rfl⟩ := List.mem_map.1 hbefore
  have hmoved : m ∈ v.store.due e'.time := by
    by_contra hnot
    refine hafter (List.mem_map.2 ⟨(m, score), ?_, rfl⟩)
    rw [← heq]
    refine List.mem_filter.2 ⟨hm, ?_⟩
    have hkept : m ∉ (v.store.due e'.time).take
        (remaining limit 0 (v.store.due e'.time).length) :=
      fun hmem => hnot (List.mem_of_mem_take hmem)
    simpa using hkept
  obtain ⟨⟨m', score'⟩, hm', rfl⟩ := List.mem_map.1 hmoved
  obtain ⟨hitem, hrange⟩ := List.mem_filter.1 hm'
  exact ⟨score', hitem, (of_decide_eq_true hrange).2⟩

omit [DecidableEq ι] in
/-- The readings between two steps of a run are not before the first. -/
lemma le_readings (hclock : (readings as).Pairwise (· ≤ ·))
    (has : as = bs ++ .step i e :: cs ++ .step j e' :: ds) :
    ∀ now ∈ readings cs, e.time ≤ now := by
  intro now hnow
  have hreadings : readings as =
      readings bs ++ (e.time :: (readings cs ++ e'.time :: readings ds)) := by
    simp [has, readings, reading]
  rw [hreadings] at hclock
  have hrest := (List.pairwise_append.1 hclock).2.1
  exact (List.pairwise_cons.1 hrest).1 now (List.mem_append_left _ hnow)

/-- No score is negative, while the clock is not. -/
lemma scores_nonneg (hpos : ∀ now ∈ readings as, 0 ≤ now)
    (h : exec (step settings) (initial : System ι) as = some t) :
    ∀ m ∈ (t.store.redis.zset .delayed).items, 0 ≤ m.2 := by
  rintro ⟨raw, score⟩ hm
  refine le_score_run (fun job message _ now (hnow : 0 ≤ now) => ?_) (fun score hs => ?_) hpos h score hm
  · exact add_nonneg hnow (Nat.cast_nonneg _)
  · simp [initial, Pool.initial, QueueStore.empty] at hs
    cases hs

/-- The job that a process is about to retry, and the error. -/
def retrying (s : System ι) (i : ι) : Option (Job × String) :=
  match s.calls i with
  | some (_, .call (.scheduleRetry job message) _) => some (job, message)
  | _ => none

omit [DecidableEq ι] in
lemma performs_of_retrying {job : Job} {message : String} (h : s.retrying i = some (job, message)) :
    s.Performs i (.scheduleRetry job message) := by
  unfold retrying at h
  split at h
  · rename_i q job' message' k hcall
    obtain ⟨rfl, rfl⟩ := Prod.mk.inj (Option.some.inj h)
    exact ⟨q, k, hcall⟩
  · simp at h

/-- The limit of a promotion that a process is about to perform. -/
def promoting (s : System ι) (i : ι) : Option (Option ℤ) :=
  match s.calls i with
  | some (_, .call (.promoteDelayedJobs limit) _) => some limit
  | _ => none

omit [DecidableEq ι] in
lemma performs_of_promoting {limit : Option ℤ} (h : s.promoting i = some limit) :
    s.Performs i (.promoteDelayedJobs limit) := by
  unfold promoting at h
  split at h
  · rename_i q limit' k hcall
    obtain rfl := Option.some.inj h
    exact ⟨q, k, hcall⟩
  · simp at h

/-- A handler raises, and its worker is about to retry the job. -/
def raisedRun : List (PoolAction ℕ Request Env) :=
  enqueueRun ++ [.start 1 .processNext, .step 1 someEnv, .step 1 { someEnv with error := some "timeout" }]

end System

end StarterBackend.Queue

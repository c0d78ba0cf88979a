/-
The start of processing in the texts of the queue.

`dequeue_job` stamps the entry that it leaves in the processing list, and a retry and the
reaper take the stamp off again.  `move_job_to_failed_queue` keeps it, so the failed queue
has stamped entries as soon as a stamped job fails, and `requeue_failed_jobs` carries them to
the main queue.  The four structures are told apart by the stamp in all states of a run
exactly if no stamped job is moved to the failed queue in it.
-/
import StarterBackend.Queue.Runs

namespace StarterBackend.Queue

open Lib

/-- An entry that may be at a key: the text of a job that is stamped in the processing list, and
not stamped elsewhere. -/
def Fits (key : QueueKey) (raw : String) : Prop :=
  ∃ job : Job, job.toJson = raw ∧ (job.processingStartedAt ≠ none ↔ key = .processing)

/-- Every entry is stamped or not as its place says. -/
def QueueStore.StampsInPlace (s : QueueStore) : Prop :=
  ∀ key raw, s.redis.HoldsAt key raw → Fits key raw

/-- One operation, as one atomic step. -/
def operate (settings : WorkerSettings) (s : QueueStore) (a : Operation × Env) :
    Option QueueStore :=
  ((a.1.commands settings).run interp a.2 s).map Prod.snd

/-- The operation does not move a stamped job to the failed queue. -/
def Operation.FailsUnstamped : Operation → Prop
  | .moveJobToFailedQueue job _ => job.processingStartedAt = none
  | _ => True

section Fits

variable {key : QueueKey} {job : Job}

lemma fits_iff : Fits key job.toJson ↔ (job.processingStartedAt ≠ none ↔ key = .processing) := by
  constructor
  · rintro ⟨job', hjson, hfits⟩
    obtain rfl := Job.toJson_injective hjson
    exact hfits
  · exact fun h => ⟨job, rfl, h⟩

lemma fits_of_none (h : job.processingStartedAt = none) (hkey : key ≠ .processing) :
    Fits key job.toJson :=
  fits_iff.2 (iff_of_false (fun hne => hne h) hkey)

/-- An entry that fits some place other than the processing list fits the others. -/
lemma Fits.elsewhere {key' : QueueKey} {raw : String} (h : Fits key raw) (hkey : key ≠ .processing)
    (hkey' : key' ≠ .processing) : Fits key' raw := by
  obtain ⟨job, rfl, hjob⟩ := h
  exact ⟨job, rfl, hjob.trans (iff_of_false hkey hkey')⟩

lemma processingStartedAt_failedJob (job : Job) (error : Option String) (now : Datetime) :
    (failedJob job error now).processingStartedAt = job.processingStartedAt := by
  unfold failedJob
  split <;> rfl

end Fits

/-! ### Commands -/

/-- What the command writes fits the place where it goes. -/
def Command.Places : Command → Prop
  | .redis c => ∀ r key raw, c.places r = some (key, raw) → Fits key raw
  | .push job => Fits .main job.toJson
  | _ => True

/-- What the command reads fits the place from which it comes. -/
def Command.Reads : (c : Command) → c.Reply → Prop
  | .redis (.rpop key), (r : Option String) => ∀ raw ∈ r, Fits key raw
  | .redis (.zrangebyscore key _ _), (r : List String) => ∀ raw ∈ r, Fits key raw
  | .redis (.lrangeAll key), (r : List String) => ∀ raw ∈ r, Fits key raw
  | _, _ => True

section Commands

variable {settings : WorkerSettings} {s s' : QueueStore} {e : Env}

lemma stampsInPlace_exec {c : Redis.Command QueueKey} {enqueued : List Submission}
    {returned acked : List String} (hs : s.StampsInPlace)
    (hc : ∀ r key raw, c.places r = some (key, raw) → Fits key raw) :
    QueueStore.StampsInPlace ⟨(c.exec s.redis).2, enqueued, returned, acked⟩ := by
  intro key raw hraw
  rcases Redis.Command.holdsAt_of_exec hraw with hraw | hraw
  · exact hs key raw hraw
  · exact hc _ key raw hraw

/-- **Commands that place what fits keep the stamps in place.** -/
lemma stampsInPlace_interp {c : Command} {x : Except JobError c.Reply} (hc : c.Places)
    (hs : s.StampsInPlace) (h : interp c e s = some (x, s')) : s'.StampsInPlace := by
  cases c with
  | redis c =>
      obtain ⟨-, rfl⟩ := Prod.mk.inj (Option.some.inj h)
      exact stampsInPlace_exec hs hc
  | push job =>
      simp only [interp] at h
      split_ifs at h
      obtain ⟨-, rfl⟩ := Prod.mk.inj (Option.some.inj h)
      refine stampsInPlace_exec hs fun r key raw hplaces => ?_
      obtain ⟨rfl, rfl⟩ := Prod.mk.inj (Option.some.inj hplaces)
      exact hc
  | remove job =>
      obtain ⟨-, rfl⟩ := Prod.mk.inj (Option.some.inj h)
      exact stampsInPlace_exec hs fun r key raw hplaces => by cases hplaces
  | utcNow =>
      obtain ⟨-, rfl⟩ := Prod.mk.inj (Option.some.inj h)
      exact hs
  | time =>
      obtain ⟨-, rfl⟩ := Prod.mk.inj (Option.some.inj h)
      exact hs
  | handle job =>
      obtain ⟨-, rfl⟩ := Prod.mk.inj (Option.some.inj h)
      cases handleJob job e.error <;> exact hs

/-- A store whose stamps are in place is read as such. -/
lemma reads_of_interp {c : Command} {r : c.Reply} (hs : s.StampsInPlace)
    (h : interp c e s = some (.ok r, s')) : c.Reads r := by
  cases c with
  | redis c =>
      obtain ⟨hr, -⟩ := Prod.mk.inj (Option.some.inj h)
      obtain rfl := Except.ok.inj hr
      cases c with
      | rpop key =>
          exact fun raw hraw => hs key raw (.inl (List.mem_of_getLast? hraw))
      | zrangebyscore key low high =>
          exact fun raw hraw => hs key raw (.inr (Redis.SortedSet.rangeByScore_subset _ _ _ hraw))
      | lrangeAll key => exact fun raw hraw => hs key raw (.inl hraw)
      | _ => trivial
  | _ => trivial

end Commands

/-! ### Operations -/

section Operations

variable {settings : WorkerSettings} {limit : Option ℤ}

lemma places_lpush {key : QueueKey} {raw : String} (h : Fits key raw) :
    Command.Places (.redis (.lpush key raw)) := fun _ _ _ hplaces => by
  obtain ⟨rfl, rfl⟩ := Prod.mk.inj (Option.some.inj hplaces)
  exact h

lemma places_zadd {key : QueueKey} {raw : String} {score : ℚ} (h : Fits key raw) :
    Command.Places (.redis (.zadd key raw score)) := fun _ _ _ hplaces => by
  obtain ⟨rfl, rfl⟩ := Prod.mk.inj (Option.some.inj hplaces)
  exact h

/-- The commands that place nothing. -/
lemma places_of_none {c : Redis.Command QueueKey} (h : ∀ r, c.places r = none) :
    Command.Places (.redis c) := fun r _ _ hplaces => by
  rw [h r] at hplaces
  cases hplaces

/-- A promoted entry comes from the delayed set, where no entry is stamped. -/
lemma everyIf_promoteLoop {raws : List String} (hraws : ∀ raw ∈ raws, Fits .delayed raw) (n : ℕ) :
    (promoteLoop limit raws n).EveryIf Command.Reads Command.Places := by
  induction raws generalizing n with
  | nil => trivial
  | cons raw raws ih =>
      obtain ⟨hraw, hraws⟩ := List.forall_mem_cons.1 hraws
      rw [promoteLoop]
      split_ifs
      · trivial
      · refine ⟨places_of_none fun _ => rfl, fun r _ => ?_⟩
        cases r with
        | false => exact ih hraws n
        | true =>
            have hmain : Fits .main raw := hraw.elsewhere (by decide) (by decide)
            exact ⟨places_lpush hmain, fun _ _ => ih hraws (n + 1)⟩

/-- A reclaimed job loses its stamp. -/
lemma everyIf_reclaimLoop (now : Datetime) (raws : List String) (n : ℕ) :
    (reclaimLoop settings now raws n).EveryIf Command.Reads Command.Places := by
  induction raws generalizing n with
  | nil => trivial
  | cons raw raws ih =>
      rw [reclaimLoop]
      refine Prog.EveryIf.bind Prog.everyIf_getOrRaise fun job => ?_
      rcases isStale_cases settings now job with ⟨stale, hstale⟩ | hstale
      · simp only [hstale, Prog.bind_def, Prog.ret_bind]
        split_ifs
        · refine ⟨places_of_none fun _ => rfl, fun r _ => ?_⟩
          cases r with
          | false => exact ih n
          | true => exact ⟨places_lpush (fits_of_none rfl (by decide)), fun _ _ => ih (n + 1)⟩
        · exact ih n
      · rw [hstale]
        trivial

/-- A requeued entry comes from the failed queue. -/
lemma everyIf_requeueLoop (rounds n : ℕ) :
    (requeueLoop limit rounds n).EveryIf Command.Reads Command.Places := by
  induction rounds generalizing n with
  | zero => trivial
  | succ rounds ih =>
      rw [requeueLoop]
      split_ifs
      · trivial
      · refine ⟨places_of_none fun _ => rfl, fun r hr => ?_⟩
        cases r with
        | none => trivial
        | some raw =>
            have hmain : Fits .main raw := (hr raw rfl).elsewhere (by decide) (by decide)
            obtain ⟨job, rfl, -⟩ := hr raw rfl
            show (Prog.bind (.getOrRaise .invalidJob (Job.fromJson job.toJson)) fun job =>
              Prog.bind (lpush .main job.toJson) fun _ =>
                requeueLoop limit rounds (n + 1)).EveryIf _ _
            rw [Job.fromJson_toJson]
            exact ⟨places_lpush hmain, fun _ _ => ih (n + 1)⟩

/-- The operations other than `dequeue_job` place what fits, if they do not fail a stamped job. -/
lemma everyIf_commands {o : Operation} (hdequeue : o ≠ .dequeueJob) (h : o.FailsUnstamped) :
    (o.commands settings).EveryIf Command.Reads Command.Places := by
  cases o with
  | enqueueJob x => exact ⟨fits_of_none rfl (by decide), fun _ _ => trivial⟩
  | dequeueJob => exact absurd rfl hdequeue
  | ackJob job => exact ⟨trivial, fun _ _ => trivial⟩
  | scheduleRetry job message =>
      refine ⟨trivial, fun _ _ => ⟨places_of_none fun _ => rfl, fun _ _ => ⟨?_, fun _ _ => trivial⟩⟩⟩
      exact places_zadd (fits_of_none rfl (by decide))
  | promoteDelayedJobs limit =>
      refine ⟨trivial, fun _ _ => ⟨places_of_none fun _ => rfl, fun r hr => ?_⟩⟩
      exact everyIf_promoteLoop hr 0
  | reclaimStaleProcessingJobs =>
      refine ⟨trivial, fun _ _ => ⟨places_of_none fun _ => rfl, fun r _ => ?_⟩⟩
      exact everyIf_reclaimLoop _ r 0
  | moveJobToFailedQueue job error =>
      refine ⟨trivial, fun now _ => ⟨places_of_none fun _ => rfl, fun _ _ => ⟨?_, fun _ _ => trivial⟩⟩⟩
      exact places_lpush (fits_of_none ((processingStartedAt_failedJob job error now).trans h)
        (by decide))
  | requeueFailedJobs rounds limit => exact everyIf_requeueLoop rounds 0
  | handleJob job => exact ⟨trivial, fun _ _ => trivial⟩

end Operations

/-! ### Runs -/

section Runs

variable {settings : WorkerSettings} {s s' : QueueStore} {e : Env}

/-- An entry that was moved to the processing list and taken out of it leaves nothing there. -/
lemma holdsAt_of_moved {raw x : String} {key : QueueKey}
    (hlast : (s.redis.list .main).getLast? = some raw)
    (h : ((s.after (.rpoplpush .main .processing)).after (.lrem .processing raw)).redis.HoldsAt
      key x) : s.redis.HoldsAt key x := by
  by_cases hkey : key = .processing
  · subst hkey
    have hlist : ((s.after (.rpoplpush .main .processing)).after
        (.lrem .processing raw)).redis.list .processing = s.redis.list .processing := by
      simp [QueueStore.after, Redis.Command.exec, hlast]
    have hzset : ((s.after (.rpoplpush .main .processing)).after
        (.lrem .processing raw)).redis.zset = s.redis.zset := by
      simp [QueueStore.after, Redis.Command.exec, hlast]
    rwa [Redis.Lists.HoldsAt, hlist, hzset] at h
  · rcases Redis.Command.holdsAt_of_exec h with h | h
    · rcases Redis.Command.holdsAt_of_exec h with h | h
      · exact h
      · obtain ⟨_, -, hplace⟩ := Option.map_eq_some_iff.1 h
        exact absurd (Prod.mk.inj hplace).1.symm hkey
    · cases h

/-- `dequeue_job` stamps what it moves. -/
lemma stampsInPlace_dequeueJob {res : Except JobError (Option Job)} (hs : s.StampsInPlace)
    (h : dequeueJob.run interp e s = some (res, s')) : s'.StampsInPlace := by
  have hmain : ∀ raw ∈ s.redis.list .main, ∃ job : Job, job.toJson = raw := fun raw hraw =>
    (hs .main raw (.inl hraw)).imp fun _ h => h.1
  rcases dequeueJob_eq_some hmain h with ⟨hlast, -, rfl⟩ | ⟨job, hlast, -, ⟨heq, rfl⟩ | ⟨-, rfl⟩⟩
  · have hnothing : s.after (.rpoplpush .main .processing) = s := by
      simp [QueueStore.after, Redis.Command.exec, hlast]
    rwa [hnothing]
  · -- The text is that of an unstamped job, so the stamped one has another text.
    have hjob := fits_iff.1 (hs .main job.toJson (.inl (List.mem_of_getLast? hlast)))
    rw [← Job.toJson_injective heq] at hjob
    exact absurd (hjob.1 (by simp [Job.withProcessingStartedAt])) (by decide)
  · intro key raw hraw
    rcases Redis.Command.holdsAt_of_exec hraw with hraw | hraw
    · exact hs key raw (holdsAt_of_moved hlast hraw)
    · obtain ⟨rfl, rfl⟩ := Prod.mk.inj (Option.some.inj hraw)
      exact fits_iff.2 (iff_of_true (by simp [Job.withProcessingStartedAt]) rfl)

/-- A job that has been moved to the failed queue is there. -/
lemma fits_of_moveJobToFailedQueue {job : Job} {error : Option String}
    {res : Except JobError Job} (hs' : s'.StampsInPlace)
    (h : (moveJobToFailedQueue job error).run interp e s = some (res, s')) :
    job.processingStartedAt = none := by
  rw [run_moveJobToFailedQueue] at h
  obtain ⟨-, rfl⟩ := Prod.mk.inj (Option.some.inj h)
  have hfits := hs' .failed (failedJob job error e.now).toJson (.inl (by
    simp [QueueStore.after, Redis.Command.exec]))
  rw [fits_iff, processingStartedAt_failedJob] at hfits
  by_contra hne
  exact absurd (hfits.1 hne) (by decide)

/-- **One operation keeps the stamps in place exactly if it fails no stamped job.** -/
theorem stampsInPlace_operate {a : Operation × Env} (hs : s.StampsInPlace)
    (h : operate settings s a = some s') : s'.StampsInPlace ↔ a.1.FailsUnstamped := by
  obtain ⟨o, e⟩ := a
  obtain ⟨⟨res, _⟩, hrun, rfl⟩ := Option.map_eq_some_iff.1 h
  constructor
  · intro hs'
    cases o with
    | moveJobToFailedQueue job error => exact fits_of_moveJobToFailedQueue hs' hrun
    | _ => trivial
  · intro hfails
    by_cases hdequeue : o = .dequeueJob
    · subst hdequeue
      exact stampsInPlace_dequeueJob hs hrun
    · exact Prog.run_invariant_of_everyIf (fun c s x t hc hs h => stampsInPlace_interp hc hs h)
        (fun c s r t hs h => reads_of_interp hs h) (everyIf_commands hdequeue hfails) hrun hs

lemma stampsInPlace_empty : QueueStore.empty.StampsInPlace := by
  rintro key raw (h | h) <;> cases h

/-- The start of processing is in the entries of the processing list and in no others, in all
states of a run of the queue operations, exactly if every job that the run moves to the failed
queue has none. -/
theorem stamps_in_processing_list_iff (settings : WorkerSettings) (as : List (Operation × Env))
    (t : QueueStore) (h : exec (operate settings) .empty as = some t) :
    (∀ bs u, bs <+: as → exec (operate settings) .empty bs = some u → u.StampsInPlace) ↔
      ∀ a ∈ as, a.1.FailsUnstamped := by
  rw [← along_iff_forall h]
  exact forall_states_iff_along (J := fun _ => True) (fun _ _ _ _ _ => trivial)
    (fun s a t _ hs hstep => stampsInPlace_operate hs hstep) trivial stampsInPlace_empty h

end Runs

/-! ### One job -/

lemma operate_of_run {settings : WorkerSettings} {o : Operation} {e : Env} {s t : QueueStore}
    {res : Except JobError o.Result} (h : (o.commands settings).run interp e s = some (res, t)) :
    operate settings s (o, e) = some t :=
  congrArg (Option.map Prod.snd) h

/-- The job is submitted and taken. -/
lemma exec_taken : exec (operate {}) .empty
    [(.enqueueJob someSubmission, someEnv), (.dequeueJob, someEnv)] =
      some (storeOf .processing takenJob) :=
  exec_cons_eq_some.2 ⟨submittedStore, rfl, exec_cons_eq_some.2
    ⟨_, operate_of_run run_dequeueJob_submitted, rfl⟩⟩

/-- A job that is submitted, taken and acknowledged. -/
def acknowledgedRun : List (Operation × Env) :=
  [(.enqueueJob someSubmission, someEnv), (.dequeueJob, someEnv),
    (.ackJob (someSubmission.job.withProcessingStartedAt none someEnv.now), someEnv)]

/-- No state on its way has a misplaced stamp. -/
theorem stamps_in_processing_list_iff_acknowledged :
    (exec (operate {}) .empty acknowledgedRun).isSome = true ∧
      ∀ bs u, bs <+: acknowledgedRun → exec (operate {}) .empty bs = some u → u.StampsInPlace := by
  obtain ⟨t, ht⟩ : ∃ t, exec (operate {}) .empty acknowledgedRun = some t :=
    ⟨_, exec_append_eq_some.2 ⟨_, exec_taken, exec_cons_eq_some.2
      ⟨_, operate_of_run run_ackJob, rfl⟩⟩⟩
  refine ⟨Option.isSome_iff_exists.2 ⟨t, ht⟩,
    (stamps_in_processing_list_iff {} acknowledgedRun t ht).2 fun a ha => ?_⟩
  simp only [acknowledgedRun, List.mem_cons, List.not_mem_nil, or_false] at ha
  rcases ha with rfl | rfl | rfl <;> trivial

/-- A job that is submitted, taken and moved to the failed queue. -/
def failedRun : List (Operation × Env) :=
  [(.enqueueJob someSubmission, someEnv), (.dequeueJob, someEnv),
    (.moveJobToFailedQueue (someSubmission.job.withProcessingStartedAt none someEnv.now)
      (some "permanent failure"), someEnv)]

/-- Its entry in the failed queue has the start of processing. -/
theorem failed_entry_stamped :
    ∃ t, exec (operate {}) .empty failedRun = some t ∧ ¬ t.StampsInPlace := by
  refine ⟨_, exec_append_eq_some.2 ⟨_, exec_taken, exec_cons_eq_some.2
    ⟨_, operate_of_run run_moveJobToFailedQueue, rfl⟩⟩, fun hstamps => ?_⟩
  have hfits := hstamps .failed _ (.inl (List.mem_singleton_self _))
  rw [fits_iff, processingStartedAt_failedJob] at hfits
  exact absurd (hfits.1 (by simp [Job.withProcessingStartedAt])) (by decide)

end StarterBackend.Queue

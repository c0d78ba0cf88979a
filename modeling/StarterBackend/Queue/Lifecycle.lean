/-
The way of a job from its submission to its end.

A worker disposes of a job that it has processed in one of three ways: it schedules a
retry, moves the job to the failed queue, or acknowledges it.  What the workers have done
with a job says where the job is and what its text is: `Stage.next` is this small machine,
and the system follows it.  Deaths of workers, reclaims and promotions leave no trace in it.
-/
import StarterBackend.Queue.Stamps

namespace StarterBackend.Queue

open Lib

/-- What a worker has done with a job that it processed. -/
inductive Ending where
  | retried (message : String)
  | failed (error : Option String) (now : Datetime)
  | acked

/-- Where a job stands, with the job as it is outside of the processing list. -/
inductive Stage where
  | inCourse (job : Job)
  | failed (job : Job)
  | acked

/-- One more ending.  Only a job in course is processed. -/
def Stage.next : Stage → Ending → Stage
  | .inCourse job, .retried message => .inCourse (retriedJob job message)
  | .inCourse job, .failed error now => .failed (failedJob job error now)
  | .inCourse _, .acked => .acked
  | stage, _ => stage

/-- The entry that a job may have in a stage. -/
def Stage.Has : Stage → QueueKey → Job → Prop
  | .inCourse job', key, job => key ≠ .failed ∧ job.withoutProcessingStartedAt = job'
  | .failed job', key, job => key = .failed ∧ job.withoutProcessingStartedAt = job'
  | .acked, _, _ => False

namespace Submission

/-- The stage of a job after some endings. -/
def stage (x : Submission) (endings : List Ending) : Stage :=
  endings.foldl Stage.next (.inCourse x.job)

/-- The job after failures with these errors. -/
def retried (x : Submission) (messages : List String) : Job :=
  { x.job with
    attempts := messages.length
    lastError := messages.getLast?.map fun message =>
      String.ofList (message.toList.take maxJobErrorLength) }

/-- `handle_job` has a handler for the job. -/
def Known (x : Submission) : Prop :=
  x.type = sendPasswordResetEmailJob ∨ x.type = verifyPresignedUploadJob

/-- The endings that a job can have: a job with a handler fails when it has been retried as
often as the settings allow, any other job fails at once. -/
inductive Course (settings : WorkerSettings) (x : Submission) : List Ending → Prop
  | inCourse (messages : List String) (hle : messages.length ≤ settings.maxRetries)
      (hknown : x.Known ∨ messages = []) : Course settings x (messages.map .retried)
  | failed (messages : List String) (message : String) (now : Datetime)
      (hknown : x.Known → messages.length = settings.maxRetries)
      (hunknown : ¬ x.Known → messages = [] ∧ message = "unknown job type: " ++ x.type) :
      Course settings x (messages.map .retried ++ [.failed (some message) now])
  | acked (messages : List String) (hle : messages.length ≤ settings.maxRetries)
      (hknown : x.Known) : Course settings x (messages.map .retried ++ [.acked])

variable {x : Submission} {settings : WorkerSettings}

lemma stage_append (endings : List Ending) (ending : Ending) :
    x.stage (endings ++ [ending]) = (x.stage endings).next ending := by
  rw [stage, List.foldl_append]
  rfl

lemma retriedJob_retried (messages : List String) (message : String) :
    retriedJob (x.retried messages) message = x.retried (messages ++ [message]) := by
  simp [retriedJob, retried, Job.withNextAttempt, Job.withError, Submission.job]

/-- Retries keep a job in course. -/
lemma stage_retried (messages : List String) :
    x.stage (messages.map .retried) = .inCourse (x.retried messages) := by
  induction messages using List.reverseRecOn with
  | nil => rfl
  | append_singleton messages message ih =>
      rw [List.map_append, List.map_singleton, stage_append, ih, ← retriedJob_retried]
      rfl

/-- A job that has an entry in the processing list has only been retried. -/
lemma Course.of_processing {endings : List Ending} {job : Job} (h : x.Course settings endings)
    (hjob : (x.stage endings).Has .processing job) :
    ∃ messages, endings = messages.map .retried ∧ messages.length ≤ settings.maxRetries ∧
      (x.Known ∨ messages = []) ∧ job.withoutProcessingStartedAt = x.retried messages := by
  cases h with
  | inCourse messages hle hknown =>
      rw [stage_retried] at hjob
      exact ⟨messages, rfl, hle, hknown, hjob.2⟩
  | failed messages message now hknown hunknown =>
      rw [stage_append, stage_retried] at hjob
      exact absurd hjob.1 (by decide)
  | acked messages hle hknown =>
      rw [stage_append, stage_retried] at hjob
      exact hjob.elim

end Submission

/-! ### What a worker does with a job -/

/-- How `process_next_job` disposes of a job after an outcome of its handler. -/
def disposal (settings : WorkerSettings) (job : Job) : Outcome → Operation
  | .unknownJobType message => .moveJobToFailedQueue job (some message)
  | .raised message =>
      if job.attempts < settings.maxRetries then .scheduleRetry job message
      else .moveJobToFailedQueue job (some message)
  | .returned => .ackJob job

/-- The ending that an operation is, of which job. -/
def Operation.ending (e : Env) : Operation → Option (String × Ending)
  | .scheduleRetry job message => some (job.id, .retried message)
  | .moveJobToFailedQueue job error => some (job.id, .failed error e.now)
  | .ackJob job => some (job.id, .acked)
  | _ => none

/-- A job is finished as its handler has ended, and no failed job is requeued. -/
def Operation.Serves (settings : WorkerSettings) (o : Operation) : Prop :=
  (∀ rounds limit, o ≠ .requeueFailedJobs rounds limit) ∧
    ∀ job, o.finishes = some job → ∃ error, o = disposal settings job (Queue.handleJob job error)

/-- The replies that the operations give to a worker. -/
def Operation.Answers : (o : Operation) → o.Result → Prop
  | .handleJob job, (r : Outcome) => ∃ error, r = Queue.handleJob job error
  | _, _ => True

section Serves

variable {settings : WorkerSettings} {job : Job} {o : Operation}

lemma serves_of_finishes_none (hfin : o.finishes = none)
    (hrequeue : ∀ rounds limit, o ≠ .requeueFailedJobs rounds limit) : o.Serves settings := by
  refine ⟨hrequeue, fun job hjob => ?_⟩
  rw [hfin] at hjob
  cases hjob

/-- The three ways to dispose of a job. -/
lemma disposal_cases (settings : WorkerSettings) (job : Job) (error : Option String) :
    (disposal settings job (handleJob job error) = .ackJob job ∧ job.submission.Known) ∨
    (∃ message, disposal settings job (handleJob job error) = .scheduleRetry job message ∧
      job.submission.Known ∧ job.attempts < settings.maxRetries) ∨
    ∃ message, disposal settings job (handleJob job error) =
        .moveJobToFailedQueue job (some message) ∧
      (job.submission.Known → ¬ job.attempts < settings.maxRetries) ∧
      (¬ job.submission.Known → message = "unknown job type: " ++ job.type) := by
  by_cases hknown : job.submission.Known
  · have hhandle : handleJob job error = error.elim .returned .raised := by
      cases error <;> exact if_pos hknown
    rw [hhandle]
    cases error with
    | none => exact .inl ⟨rfl, hknown⟩
    | some message =>
        simp only [Option.elim_some, disposal]
        split_ifs with hlt
        · exact .inr (.inl ⟨message, rfl, hknown, hlt⟩)
        · exact .inr (.inr ⟨message, rfl, fun _ => hlt, fun hnot => absurd hknown hnot⟩)
  · have hhandle : handleJob job error = .unknownJobType ("unknown job type: " ++ job.type) :=
      if_neg hknown
    rw [hhandle]
    exact .inr (.inr ⟨_, rfl, fun h => absurd h hknown, fun _ => rfl⟩)

lemma serves_disposal (ho : ∃ error, o = disposal settings job (handleJob job error)) :
    o.Serves settings := by
  obtain ⟨error, rfl⟩ := ho
  have hfin : (disposal settings job (handleJob job error)).finishes = some job ∧
      ∀ rounds limit,
        disposal settings job (handleJob job error) ≠ .requeueFailedJobs rounds limit := by
    rcases disposal_cases settings job error with ⟨h, -⟩ | ⟨message, h, -⟩ | ⟨message, h, -⟩ <;>
      rw [h] <;> exact ⟨rfl, nofun⟩
  refine ⟨hfin.2, fun job' hjob' => ⟨error, ?_⟩⟩
  obtain rfl : job = job' := Option.some.inj (hfin.1.symm.trans hjob')
  rfl

/-- **The worker disposes of a job as its handler has ended.** -/
lemma serves_program {q : Request} (hq : ∀ rounds limit, q ≠ .requeue rounds limit) :
    (q.program settings).EveryIf Operation.Answers (Operation.Serves settings) := by
  cases q with
  | enqueue x => exact ⟨serves_of_finishes_none rfl nofun, fun _ _ => trivial⟩
  | promote limit => exact ⟨serves_of_finishes_none rfl nofun, fun _ _ => trivial⟩
  | reclaim => exact ⟨serves_of_finishes_none rfl nofun, fun _ _ => trivial⟩
  | requeue rounds limit => exact absurd rfl (hq rounds limit)
  | processNext =>
      refine ⟨serves_of_finishes_none rfl nofun, fun r _ => ?_⟩
      rcases r with _ | job
      · trivial
      refine ⟨serves_of_finishes_none rfl nofun, fun outcome houtcome => ?_⟩
      obtain ⟨error, houtcome⟩ := houtcome
      rcases outcome with _ | message | message
      · exact ⟨serves_disposal ⟨error, by rw [← houtcome]; rfl⟩, fun _ _ => trivial⟩
      · exact ⟨serves_disposal ⟨error, by rw [← houtcome]; rfl⟩, fun _ _ => trivial⟩
      · have hserves : (disposal settings job (.raised message)).Serves settings :=
          serves_disposal ⟨error, by rw [← houtcome]⟩
        rw [disposal] at hserves
        show Prog.EveryIf _ _ (Prog.bind (if job.attempts < settings.maxRetries then _ else _) _)
        split_ifs at hserves ⊢
        · exact ⟨hserves, fun _ _ => trivial⟩
        · exact ⟨hserves, fun _ _ => trivial⟩

end Serves

/-! ### The entries of the jobs in course -/

/-- What the workers have done, by the id of the job. -/
abbrev Histories := String → List Ending

/-- One more ending. -/
def Histories.record (endings : Histories) : Option (String × Ending) → Histories
  | none => endings
  | some (id, ending) => Function.update endings id (endings id ++ [ending])

/-- An entry as the endings of its job say. -/
def IsDue (endings : Histories) (key : QueueKey) (raw : String) : Prop :=
  ∃ job : Job, job.toJson = raw ∧ (job.submission.stage (endings job.id)).Has key job

/-- Every entry is as the endings of its job say. -/
def QueueStore.Follows (s : QueueStore) (endings : Histories) : Prop :=
  ∀ key raw, s.redis.HoldsAt key raw → IsDue endings key raw

section Follows

variable {s s' : QueueStore} {e : Env} {settings : WorkerSettings} {endings endings' : Histories}
  {job job' : Job} {key key' : QueueKey} {raw : String} {n : ℕ}

/-- An entry of a job may be where the job is in the same stage. -/
lemma Stage.Has.move {stage : Stage} (h : stage.Has key job)
    (hkey : key' = .failed ↔ key = .failed)
    (hjob : job'.withoutProcessingStartedAt = job.withoutProcessingStartedAt) :
    stage.Has key' job' := by
  cases stage with
  | inCourse j => exact ⟨fun h' => h.1 (hkey.1 h'), hjob.trans h.2⟩
  | failed j => exact ⟨hkey.2 h.1, hjob.trans h.2⟩
  | acked => exact h

lemma isDue_toJson :
    IsDue endings key job.toJson ↔ (job.submission.stage (endings job.id)).Has key job := by
  constructor
  · rintro ⟨job', hjson, h⟩
    obtain rfl := Job.toJson_injective hjson
    exact h
  · exact fun h => ⟨job, rfl, h⟩

/-- A copy with another start of processing is due where the job is due. -/
lemma IsDue.move (h : IsDue endings key job.toJson) (hkey : key' = .failed ↔ key = .failed)
    (hjob : job'.withoutProcessingStartedAt = job.withoutProcessingStartedAt) :
    IsDue endings key' job'.toJson := by
  have hsubmission : job'.submission = job.submission := (congrArg Job.submission hjob :)
  have hid : job'.id = job.id := congrArg Submission.id hsubmission
  rw [isDue_toJson] at h ⊢
  rw [hsubmission, hid]
  exact h.move hkey hjob

/-- A command keeps the entries as they are due, if what it places is due there. -/
lemma QueueStore.Follows.after {c : Redis.Command QueueKey} (hs : s.Follows endings)
    (hc : ∀ key raw, c.places (c.exec s.redis).1 = some (key, raw) → IsDue endings key raw) :
    (s.after c).Follows endings := by
  intro key raw hraw
  rcases Redis.Command.holdsAt_of_exec hraw with hraw | hraw
  · exact hs key raw hraw
  · exact hc key raw hraw

lemma QueueStore.Follows.lpush (hs : s.Follows endings) (h : IsDue endings key raw) :
    (s.after (.lpush key raw)).Follows endings := by
  refine hs.after fun key' raw' hplaces => ?_
  obtain ⟨rfl, rfl⟩ := Prod.mk.inj (Option.some.inj hplaces)
  exact h

lemma QueueStore.Follows.lrem (hs : s.Follows endings) :
    (s.after (.lrem key raw)).Follows endings :=
  hs.after fun _ _ hplaces => by cases hplaces

lemma QueueStore.Follows.zadd {score : ℚ} (hs : s.Follows endings) (h : IsDue endings key raw) :
    (s.after (.zadd key raw score)).Follows endings := by
  refine hs.after fun key' raw' hplaces => ?_
  obtain ⟨rfl, rfl⟩ := Prod.mk.inj (Option.some.inj hplaces)
  exact h

/-- `promote_delayed_jobs` moves jobs in course. -/
lemma follows_promoteLoop {limit : Option ℤ} {raws : List String} {res : Except JobError ℕ}
    (hraws : ∀ raw ∈ raws, IsDue endings .delayed raw) (hs : s.Follows endings)
    (h : (promoteLoop limit raws n).run interp e s = some (res, s')) : s'.Follows endings := by
  induction raws generalizing n s with
  | nil =>
      obtain ⟨-, rfl⟩ : .ok n = res ∧ s = s' := by simpa [promoteLoop] using h
      exact hs
  | cons raw raws ih =>
      obtain ⟨hfirst, hrest⟩ := List.forall_mem_cons.1 hraws
      have hrem : (s.after (.zrem .delayed raw)).Follows endings :=
        hs.after fun _ _ hplaces => by cases hplaces
      rw [promoteLoop] at h
      split at h
      · obtain ⟨-, rfl⟩ : .ok n = res ∧ s = s' := by simpa using h
        exact hs
      · rw [Prog.bind_def, run_zrem] at h
        split at h
        · obtain ⟨job, rfl, -⟩ := id hfirst
          have hmain : IsDue endings .main job.toJson := hfirst.move (by decide) rfl
          rw [Prog.bind_def, run_lpush] at h
          exact ih hrest (hrem.lpush hmain) h
        · exact ih hrest hrem h

/-- `reclaim_stale_processing_jobs` moves jobs in course. -/
lemma follows_reclaimLoop {now : Datetime} {raws : List String} {res : Except JobError ℕ}
    (hraws : ∀ raw ∈ raws, IsDue endings .processing raw) (hs : s.Follows endings)
    (h : (reclaimLoop settings now raws n).run interp e s = some (res, s')) :
    s'.Follows endings := by
  induction raws generalizing n s with
  | nil =>
      obtain ⟨-, rfl⟩ : .ok n = res ∧ s = s' := by simpa [reclaimLoop] using h
      exact hs
  | cons raw raws ih =>
      obtain ⟨hfirst, hrest⟩ := List.forall_mem_cons.1 hraws
      obtain ⟨job, rfl, -⟩ := id hfirst
      have hmain : IsDue endings .main job.withoutProcessingStartedAt.toJson :=
        hfirst.move (by decide) rfl
      rw [reclaimLoop] at h
      simp only [Job.fromJson_toJson, Prog.getOrRaise, Prog.bind_def, Prog.ret_bind] at h
      rcases isStale_cases settings now job with ⟨stale, hstale⟩ | hstale
      · rw [hstale, Prog.ret_bind] at h
        split at h
        · rw [run_lrem] at h
          split at h
          · rw [run_lpush] at h
            exact ih hrest (hs.lrem.lpush hmain) h
          · exact ih hrest hs.lrem h
        · exact ih hrest hs h
      · rw [hstale, Prog.raise_bind] at h
        obtain ⟨-, rfl⟩ : .error .invalidTimestamp = res ∧ s = s' := by simpa using h
        exact hs

/-- `dequeue_job` moves a job in course. -/
lemma follows_dequeueJob {res : Except JobError (Option Job)} (hs : s.Follows endings)
    (h : dequeueJob.run interp e s = some (res, s')) : s'.Follows endings := by
  have hmain : ∀ raw ∈ s.redis.list .main, ∃ job : Job, job.toJson = raw := fun raw hraw =>
    (hs .main raw (.inl hraw)).imp fun _ h => h.1
  have hmoved : (s.after (.rpoplpush .main .processing)).Follows endings := by
    refine hs.after fun key raw hplaces => ?_
    obtain ⟨raw', hlast, hplace⟩ := Option.map_eq_some_iff.1 hplaces
    obtain ⟨rfl, rfl⟩ := Prod.mk.inj hplace
    rw [Redis.Command.exec_rpoplpush_reply] at hlast
    have hmem := List.mem_of_getLast? hlast
    obtain ⟨job, rfl⟩ := hmain raw' hmem
    exact (hs .main _ (.inl hmem)).move (by decide) rfl
  rcases dequeueJob_eq_some hmain h with ⟨-, -, rfl⟩ | ⟨job, hlast, -, ⟨-, rfl⟩ | ⟨-, rfl⟩⟩
  · exact hmoved
  · exact hmoved
  · have hjob := hs .main job.toJson (.inl (List.mem_of_getLast? hlast))
    exact hmoved.lrem.lpush (hjob.move (by decide) rfl)

end Follows

/-! ### One operation -/

/-- The endings of all jobs, and the entries that are due by them. -/
structure QueueStore.Tracks (settings : WorkerSettings) (endings : Histories) (s : QueueStore) :
    Prop where
  follows : s.Follows endings
  course : ∀ x ∈ s.enqueued, x.Course settings (endings x.id)
  fresh : ∀ id, id ∉ s.enqueued.map Submission.id → endings id = []
  acked : ∀ x ∈ s.enqueued, x.id ∈ s.acked ↔ Ending.acked ∈ endings x.id

section Tracks

variable {s s' : QueueStore} {e : Env} {settings : WorkerSettings} {endings : Histories} {job : Job}

lemma Histories.record_of_ne {id id' : String} {ending : Ending} (h : id' ≠ id) :
    endings.record (some (id, ending)) id' = endings id' :=
  Function.update_of_ne h _ _

lemma Histories.record_self {id : String} {ending : Ending} :
    endings.record (some (id, ending)) id = endings id ++ [ending] :=
  Function.update_self id _ _

/-- An operation that finishes no job keeps track of all, if it submits none. -/
lemma QueueStore.Tracks.of_follows (hs : s.Tracks settings endings) (hsame : s.SameCounts s')
    (hfollows : s'.Follows endings) : s'.Tracks settings endings where
  follows := hfollows
  course x hx := hs.course x (hsame.enqueued ▸ hx)
  fresh id hid := hs.fresh id (hsame.enqueued ▸ hid)
  acked x hx := by
    rw [hsame.acked]
    exact hs.acked x (hsame.enqueued ▸ hx)

/-- A job is submitted before anything is done with it. -/
lemma QueueStore.Tracks.enqueue {x : Submission} {res : Except JobError Job} (hexact : s.Exact)
    (hs : s.Tracks settings endings) (h : (enqueueJob x).run interp e s = some (res, s')) :
    s'.Tracks settings endings := by
  obtain ⟨hnew, rfl⟩ := enqueueJob_eq_some h
  have hnone : endings x.id = [] := hs.fresh _ hnew
  have hdue : IsDue endings .main x.job.toJson := by
    rw [isDue_toJson]
    show (x.stage (endings x.id)).Has .main x.job
    rw [hnone]
    exact ⟨by decide, rfl⟩
  refine ⟨hs.follows.lpush hdue, fun y hy => ?_, fun id hid => hs.fresh id fun h => hid ?_,
    fun y hy => ?_⟩
  · rcases List.mem_cons.1 hy with rfl | hy
    · rw [hnone]
      exact .inCourse [] (Nat.zero_le _) (.inr rfl)
    · exact hs.course y hy
  · exact List.mem_cons_of_mem _ h
  · rcases List.mem_cons.1 hy with rfl | hy
    · rw [hnone]
      exact iff_of_false (fun hack => hnew (hexact.acked _ hack)) List.not_mem_nil
    · exact hs.acked y hy

/-- A job that is finished by its owner has only been retried so far. -/
lemma QueueStore.Tracks.of_own (hwf : s.Wf) (hs : s.Tracks settings endings)
    (hown : job.toJson ∈ s.redis.list .processing) :
    ∃ messages, endings job.id = messages.map .retried ∧ messages.length ≤ settings.maxRetries ∧
      (job.submission.Known ∨ messages = []) ∧
      job.withoutProcessingStartedAt = job.submission.retried messages := by
  obtain ⟨job', hjson, hjob, -⟩ := hwf.entries _ (.inl ⟨_, hown⟩)
  obtain rfl := Job.toJson_injective hjson
  exact (hs.course _ hjob).of_processing (isDue_toJson.1 (hs.follows .processing _ (.inl hown)))

/-- **A disposal is an ending that the job can have next.** -/
lemma Submission.Course.disposal {messages : List String} {error : Option String}
    {ending : Ending} (hle : messages.length ≤ settings.maxRetries)
    (hknown : job.submission.Known ∨ messages = [])
    (hjob : job.withoutProcessingStartedAt = job.submission.retried messages)
    (h : (disposal settings job (handleJob job error)).ending e = some (job.id, ending)) :
    job.submission.Course settings (messages.map .retried ++ [ending]) := by
  have hattempts : job.attempts = messages.length := congrArg Job.attempts hjob
  rcases disposal_cases settings job error with ⟨ho, hk⟩ | ⟨message, ho, hk, hlt⟩ |
    ⟨message, ho, hlast, hunknown⟩ <;> rw [ho] at h <;>
    obtain rfl := (Prod.mk.inj (Option.some.inj h)).2
  · exact .acked messages hle hk
  · have hnext : messages.length + 1 ≤ settings.maxRetries := by omega
    have hcourse : job.submission.Course settings ((messages ++ [message]).map .retried) :=
      .inCourse _ (by simpa using hnext) (.inl hk)
    rwa [List.map_append, List.map_singleton] at hcourse
  · refine .failed messages message e.now (fun hk => ?_) fun hnot => ?_
    · have hge := hlast hk
      omega
    · exact ⟨hknown.resolve_left hnot, hunknown hnot⟩

/-- When the only entry of a job is taken out, the entries that are left are due whatever has been
done with the job. -/
lemma QueueStore.Follows.take {ending : Ending} (hs : s.Follows endings)
    (hown : job.toJson ∈ s.redis.list .processing) (hone : s.count job.id = 1) :
    (s.after (.lrem .processing job.toJson)).Follows
      (endings.record (some (job.id, ending))) := by
  have hgone : (s.after (.lrem .processing job.toJson)).count job.id = 0 := by
    have hcount := QueueStore.count_after_lrem hown job.id
    simp only [beq_self_eq_true, if_true] at hcount
    omega
  intro key raw hraw
  obtain ⟨job', rfl, hjob'⟩ := hs.lrem key raw hraw
  have hne : job'.id ≠ job.id := by
    intro heq
    have hpos : 0 < (s.after (.lrem .processing job.toJson)).count job.id :=
      Redis.Lists.count_pos_iff.2
        ⟨_, hraw.imp (fun h => ⟨key, h⟩) (fun h => ⟨key, h⟩), by simp [heq]⟩
    omega
  refine ⟨job', rfl, ?_⟩
  rwa [Histories.record_of_ne hne]

/-- What is done with one job leaves the others as they are. -/
lemma QueueStore.Tracks.dispose {ending : Ending} (hwf : s.Wf) (hs : s.Tracks settings endings)
    (hjob : job.submission ∈ s.enqueued) (henqueued : s'.enqueued = s.enqueued)
    (hfollows : s'.Follows (endings.record (some (job.id, ending))))
    (hcourse : job.submission.Course settings (endings job.id ++ [ending]))
    (hacked : ∀ id, id ∈ s'.acked ↔ id ∈ s.acked ∨ id = job.id ∧ .acked = ending) :
    s'.Tracks settings (endings.record (some (job.id, ending))) := by
  have hsame : ∀ x ∈ s'.enqueued, x.id = job.id → x = job.submission := fun x hx hid =>
    List.inj_on_of_nodup_map hwf.ids (henqueued ▸ hx) hjob hid
  refine ⟨hfollows, fun x hx => ?_, fun id hid => ?_, fun x hx => ?_⟩
  · by_cases hid : x.id = job.id
    · obtain rfl := hsame x hx hid
      rw [hid, Histories.record_self]
      exact hcourse
    · rw [Histories.record_of_ne hid]
      exact hs.course x (henqueued ▸ hx)
  · rw [henqueued] at hid
    have hne : id ≠ job.id := fun h => hid (h ▸ List.mem_map_of_mem hjob)
    rw [Histories.record_of_ne hne]
    exact hs.fresh id hid
  · rw [hacked]
    by_cases hid : x.id = job.id
    · have hbefore := hs.acked x (henqueued ▸ hx)
      rw [hid] at hbefore ⊢
      rw [Histories.record_self, List.mem_append, List.mem_singleton, hbefore]
      simp
    · rw [Histories.record_of_ne hid, ← hs.acked x (henqueued ▸ hx)]
      simp [hid]

/-- The entry of a job after one more ending. -/
lemma isDue_record {job' : Job} {key : QueueKey} {ending : Ending}
    (hstage : job.submission.stage (endings job.id) = .inCourse job.withoutProcessingStartedAt)
    (hjob : job'.submission = job.submission)
    (h : (Stage.next (.inCourse job.withoutProcessingStartedAt) ending).Has key job') :
    IsDue (endings.record (some (job.id, ending))) key job'.toJson := by
  have hid : job'.id = job.id := congrArg Submission.id hjob
  rw [isDue_toJson, hjob, hid, Histories.record_self, Submission.stage_append, hstage]
  exact h

/-- What a worker finds when it finishes a job of its own. -/
lemma QueueStore.Tracks.finish {o : Operation} {ending : Ending} (hwf : s.Wf) (hexact : s.Exact)
    (hs : s.Tracks settings endings) (hown : job.toJson ∈ s.redis.list .processing)
    (hserves : o.Serves settings) (hfin : o.finishes = some job)
    (hend : o.ending e = some (job.id, ending)) :
    job.submission ∈ s.enqueued ∧ job.submission.Course settings (endings job.id ++ [ending]) ∧
      job.submission.stage (endings job.id) = .inCourse job.withoutProcessingStartedAt ∧
      (s.after (.lrem .processing job.toJson)).Follows
        (endings.record (some (job.id, ending))) := by
  obtain ⟨hjob, hone⟩ := count_eq_one_of_own hwf hexact hown
  obtain ⟨messages, hmessages, hle, hknown, hretried⟩ := hs.of_own hwf hown
  obtain ⟨error, rfl⟩ := hserves.2 job hfin
  refine ⟨hjob, ?_, ?_, hs.follows.take hown hone⟩
  · rw [hmessages]
    exact Submission.Course.disposal hle hknown hretried hend
  · rw [hmessages, Submission.stage_retried, hretried]

lemma withoutProcessingStartedAt_failedJob (job : Job) (error : Option String) (now : Datetime) :
    (failedJob job error now).withoutProcessingStartedAt =
      failedJob job.withoutProcessingStartedAt error now := by
  rcases job with ⟨id, type, payload, attempts, requestId, _ | lastError, failedAt, startedAt⟩ <;>
    cases error <;> rfl

/-- **One operation keeps track of the jobs.** -/
theorem tracks_operation {o : Operation} {res : Except JobError o.Result} (hwf : s.Wf)
    (hexact : s.Exact) (hs : s.Tracks settings endings)
    (hown : ∀ job, o.finishes = some job → job.toJson ∈ s.redis.list .processing)
    (hserves : o.Serves settings) (h : (o.commands settings).run interp e s = some (res, s')) :
    s'.Tracks settings (endings.record (o.ending e)) := by
  have hentries : ∀ raw, s.redis.Holds raw → IsEntry .univ raw := fun raw hraw =>
    (hwf.entries raw hraw).mono (Set.subset_univ _)
  cases o with
  | enqueueJob x => exact hs.enqueue hexact h
  | dequeueJob =>
      exact hs.of_follows (sameCounts_dequeueJob hentries h) (follows_dequeueJob hs.follows h)
  | ackJob job =>
      obtain ⟨hjob, hcourse, -, htaken⟩ :=
        hs.finish (e := e) hwf hexact (hown job rfl) hserves rfl rfl
      obtain ⟨-, rfl⟩ := Prod.mk.inj (Option.some.inj (run_ackJob.symm.trans h))
      refine hs.dispose hwf hjob rfl htaken hcourse fun id => ?_
      rw [List.mem_cons, or_comm]
      simp
  | scheduleRetry job message =>
      obtain ⟨hjob, hcourse, hstage, htaken⟩ :=
        hs.finish (e := e) hwf hexact (hown job rfl) hserves rfl rfl
      obtain ⟨-, rfl⟩ := Prod.mk.inj (Option.some.inj (run_scheduleRetry.symm.trans h))
      have hdue : IsDue (endings.record (some (job.id, .retried message))) .delayed
          (retriedJob job message).toJson := isDue_record hstage rfl ⟨by decide, rfl⟩
      refine hs.dispose hwf hjob rfl (htaken.zadd hdue) hcourse fun id => ?_
      simp [QueueStore.after]
  | moveJobToFailedQueue job error =>
      obtain ⟨hjob, hcourse, hstage, htaken⟩ :=
        hs.finish (e := e) hwf hexact (hown job rfl) hserves rfl rfl
      obtain ⟨-, rfl⟩ := Prod.mk.inj (Option.some.inj (run_moveJobToFailedQueue.symm.trans h))
      have hdue : IsDue (endings.record (some (job.id, .failed error e.now))) .failed
          (failedJob job error e.now).toJson :=
        isDue_record hstage (submission_failedJob job error e.now)
          ⟨rfl, withoutProcessingStartedAt_failedJob job error e.now⟩
      refine hs.dispose hwf hjob rfl (htaken.lpush hdue) hcourse fun id => ?_
      simp [QueueStore.after]
  | promoteDelayedJobs limit =>
      have hread : ∀ raw ∈ Redis.SortedSet.rangeByScore (s.redis.zset .delayed) 0 e.time,
          IsDue endings .delayed raw := fun raw hraw =>
        hs.follows .delayed raw (.inr (Redis.SortedSet.rangeByScore_subset _ _ _ hraw))
      exact hs.of_follows
        ((QueueStore.sameCounts_after (c := .zrangebyscore .delayed 0 e.time) rfl rfl).trans
          (sameCounts_promoteLoop h)) (follows_promoteLoop hread hs.follows h)
  | reclaimStaleProcessingJobs =>
      have hread : ∀ raw ∈ s.redis.list .processing, IsDue endings .processing raw :=
        fun raw hraw => hs.follows .processing raw (.inl hraw)
      exact hs.of_follows
        ((QueueStore.sameCounts_after (c := .lrangeAll .processing) rfl rfl).trans
          (sameCounts_reclaimLoop h)) (follows_reclaimLoop hread hs.follows h)
  | requeueFailedJobs rounds limit => exact absurd rfl (hserves.1 rounds limit)
  | handleJob job =>
      have hrun : some (Except.ok (handleJob job e.error), s.handled job (handleJob job e.error)) =
        some (res, s') := h
      obtain ⟨-, rfl⟩ := Prod.mk.inj (Option.some.inj hrun)
      refine hs.of_follows sameCounts_handled ?_
      cases handleJob job e.error <;> exact hs.follows

lemma tracks_empty : QueueStore.empty.Tracks settings fun _ => [] where
  follows := by
    rintro key raw (h | h) <;> cases h
  course x hx := by cases hx
  fresh id _ := rfl
  acked x hx := by cases hx

end Tracks

/-! ### Runs -/

/-- Where a job is, with which text, and what it has been through: it is in course with one entry
outside of the failed queue, or has failed and has one entry in it, or is acknowledged. -/
inductive Submission.Stands (settings : WorkerSettings) (s : QueueStore) (x : Submission) :
    List Ending → Prop
  | inCourse (messages : List String) (hle : messages.length ≤ settings.maxRetries)
      (hknown : x.Known ∨ messages = []) (hone : s.count x.id = 1)
      (hentry : ∀ key raw, s.redis.HoldsAt key raw → hasId x.id raw = true → key ≠ .failed ∧
        ∃ job : Job, job.toJson = raw ∧ job.withoutProcessingStartedAt = x.retried messages) :
      Stands settings s x (messages.map .retried)
  | failed (messages : List String) (message : String) (now : Datetime)
      (hknown : x.Known → messages.length = settings.maxRetries)
      (hunknown : ¬ x.Known → messages = [] ∧ message = "unknown job type: " ++ x.type)
      (hone : s.count x.id = 1)
      (hentry : ∀ key raw, s.redis.HoldsAt key raw → hasId x.id raw = true → key = .failed ∧
        ∃ job : Job, job.toJson = raw ∧
          job.withoutProcessingStartedAt = failedJob (x.retried messages) (some message) now) :
      Stands settings s x (messages.map .retried ++ [.failed (some message) now])
  | acked (messages : List String) (hle : messages.length ≤ settings.maxRetries)
      (hknown : x.Known) (hnone : s.count x.id = 0) :
      Stands settings s x (messages.map .retried ++ [.acked])

namespace System

variable {ι : Type*} [DecidableEq ι] {settings : WorkerSettings} {s t : System ι}
  {a : PoolAction ι Request Env} {as : List (PoolAction ι Request Env)}

/-- The ending that a step is. -/
def ending (s : System ι) : PoolAction ι Request Env → Option (String × Ending)
  | .step i e =>
      match s.calls i with
      | some (_, .call o _) => o.ending e
      | _ => none
  | _ => none

/-- What the workers do with each job in a run. -/
def endings (settings : WorkerSettings) (as : List (PoolAction ι Request Env)) : Histories :=
  fun id => (observed (step settings) ending initial as).filterMap fun p =>
    if p.1 = id then some p.2 else none

lemma endings_append_singleton (h : exec (step settings) initial as = some t) :
    endings settings (as ++ [a]) = (endings settings as).record (t.ending a) := by
  funext id
  rw [endings, observed_append_singleton h, List.filterMap_append]
  rcases t.ending a with _ | ⟨id', ending⟩
  · simp [Histories.record, endings]
  · by_cases hid : id' = id
    · subst hid
      rw [Histories.record_self]
      simp [endings]
    · rw [Histories.record_of_ne (Ne.symm hid)]
      simp [endings, hid]

/-- One step keeps track of the jobs. -/
lemma tracks_step {endings : Histories} (hwf : s.store.Wf) (hexact : s.store.Exact)
    (hs : s.store.Tracks settings endings) (hown : FinishesOwn s a)
    (hserves : ∀ i q o k, s.calls i = some (q, .call o k) → o.Serves settings)
    (h : step settings s a = some t) : t.store.Tracks settings (endings.record (s.ending a)) := by
  rcases Pool.next_cases h with ⟨i, q, rfl, hi, rfl⟩ |
    ⟨i, e, q, o, k, p', t, rfl, hi, rfl, hcmd⟩ | ⟨i, q, p, rfl, hi, rfl⟩
  · exact hs
  · have hending : s.ending (.step i e) = o.ending e := by
      rw [ending, hi]
    have hfin : ∀ job, o.finishes = some job → job.toJson ∈ s.store.redis.list .processing :=
      fun job hjob => hown q o k job hi hjob
    rw [hending]
    rcases hcmd with ⟨x, hrun, -⟩ | ⟨r, hrun, -⟩
    · exact tracks_operation hwf hexact hs hfin (hserves i q o k hi) hrun
    · exact tracks_operation hwf hexact hs hfin (hserves i q o k hi) hrun
  · exact hs

/-- A process that was not started to requeue does what a worker does. -/
lemma serves_of_run (hrequeue : ∀ i rounds limit, .start i (.requeue rounds limit) ∉ as)
    (h : exec (step settings) (initial : System ι) as = some t) {i : ι} {q : Request}
    {o : Operation} {k : o.Result → WorkerProg Unit} (hi : t.calls i = some (q, .call o k)) :
    o.Serves settings := by
  have hq : ∀ rounds limit, q ≠ .requeue rounds limit := by
    rintro rounds limit rfl
    exact hrequeue i rounds limit (Pool.started_of_run h hi)
  have hanswers : ∀ o e w r w', True → Prog.atomically (Operation.commands settings) interp o e w =
      some (.ok r, w') → o.Answers r := by
    intro o e w r w' _ hrun
    cases o with
    | handleJob job =>
        obtain ⟨hr, -⟩ := Prod.mk.inj (Option.some.inj hrun)
        exact ⟨e.error, (Except.ok.inj hr).symm⟩
    | _ => trivial
  have hbody : ∀ q : Request, (∀ rounds limit, q ≠ .requeue rounds limit) →
      (q.program settings).EveryIf Operation.Answers (Operation.Serves settings) :=
    fun q hq => serves_program hq
  exact (Pool.everyIf_of_started (I := fun _ => True) (fun _ _ _ _ _ _ _ => trivial) hanswers hbody
    trivial (Pool.calls_initial _ i) h hi hq).1

/-- **A run keeps track of the jobs.** -/
lemma tracks_run (hown : Along (step settings) FinishesOwn (initial : System ι) as)
    (hrequeue : ∀ i rounds limit, .start i (.requeue rounds limit) ∉ as)
    (h : exec (step settings) initial as = some t) :
    t.store.Tracks settings (endings settings as) := by
  refine exec_induction (P := fun as (t : System ι) =>
    Along (step settings) FinishesOwn (initial : System ι) as →
    (∀ i rounds limit, .start i (.requeue rounds limit) ∉ as) →
      t.store.Tracks settings (endings settings as)) (fun _ _ => tracks_empty)
    (fun as t a u h ih hstep hown hrequeue => ?_) h hown hrequeue
  have hbefore := hown.of_isPrefix (List.prefix_append as [a])
  have hrequeue' : ∀ i rounds limit, .start i (.requeue rounds limit) ∉ as :=
    fun i rounds limit hmem => hrequeue i rounds limit (List.mem_append_left _ hmem)
  rw [endings_append_singleton h]
  exact tracks_step (covered h).inv (exact_run hbefore h) (ih hbefore hrequeue')
    (hown.append h).1 (fun i q o k hi => serves_of_run hrequeue' h hi) hstep

/-- **The way of a job.** In a run in which workers finish only jobs that are theirs and nobody
requeues failed jobs, every submitted job has been retried at most as often as the settings allow,
with the attempts and the last error to show for it, and then failed or was acknowledged, at most
once; until it is acknowledged it has exactly one entry, and that is in the failed queue exactly if
it has failed. -/
theorem job_stands (hown : Along (step settings) FinishesOwn (initial : System ι) as)
    (hrequeue : ∀ i rounds limit, .start i (.requeue rounds limit) ∉ as)
    (h : exec (step settings) initial as = some t) :
    ∀ x ∈ t.store.enqueued, x.Stands settings t.store (endings settings as x.id) := by
  intro x hx
  have htracks := tracks_run hown hrequeue h
  have hcount := (exact_run hown h).count x hx
  have hacked := htracks.acked x hx
  have hentries : ∀ key raw, t.store.redis.HoldsAt key raw → hasId x.id raw = true →
      ∃ job : Job, job.toJson = raw ∧ (x.stage (endings settings as x.id)).Has key job := by
    intro key raw hraw hid
    obtain ⟨job, rfl, hjob⟩ := htracks.follows key raw hraw
    obtain ⟨job', hjson, hmem, -⟩ := (covered h).inv.entries _ (hraw.imp (⟨key, ·⟩) (⟨key, ·⟩))
    obtain rfl := Job.toJson_injective hjson
    rw [hasId_toJson, beq_iff_eq] at hid
    obtain rfl : job'.submission = x :=
      List.inj_on_of_nodup_map (covered h).inv.ids hmem hx hid
    exact ⟨job', rfl, hjob⟩
  have hcourse := htracks.course x hx
  generalize endings settings as x.id = es at hcourse hacked hentries
  cases hcourse with
  | inCourse messages hle hknown =>
      rw [if_neg (by simp [hacked])] at hcount
      refine .inCourse messages hle hknown hcount fun key raw hraw hid => ?_
      obtain ⟨job, hjob, hhas⟩ := hentries key raw hraw hid
      rw [Submission.stage_retried] at hhas
      exact ⟨hhas.1, job, hjob, hhas.2⟩
  | failed messages message now hknown hunknown =>
      rw [if_neg (by simp [hacked])] at hcount
      refine .failed messages message now hknown hunknown hcount fun key raw hraw hid => ?_
      obtain ⟨job, hjob, hhas⟩ := hentries key raw hraw hid
      rw [Submission.stage_append, Submission.stage_retried] at hhas
      exact ⟨hhas.1, job, hjob, hhas.2⟩
  | acked messages hle hknown =>
      rw [if_pos (by simp [hacked])] at hcount
      exact .acked messages hle hknown hcount

omit [DecidableEq ι] in
/-- A step finishes what the next operation of the process finishes. -/
lemma finishesOwn_of_calls {i : ι} {e : Env} {q : Request} {o : Operation}
    {k : o.Result → WorkerProg Unit} (hi : s.calls i = some (q, .call o k))
    (hown : ∀ job, o.finishes = some job → job.toJson ∈ s.store.redis.list .processing) :
    FinishesOwn s (.step i e) := by
  intro q' o' k' job hi' hfin
  have hcall := (Prod.mk.inj (Option.some.inj (hi.symm.trans hi'))).2
  injection hcall with ho
  subst ho
  exact hown job hfin

/-- The handler of a job raises. -/
def retriedRun : List (PoolAction ℕ Request Env) :=
  [.start 0 (.enqueue someSubmission), .step 0 someEnv, .start 1 .processNext, .step 1 someEnv,
    .step 1 (laterEnv (some "timeout")), .step 1 (laterEnv none)]

/-- After it the job stands as its endings say. -/
theorem job_stands_retriedRun : ∃ t, exec (step {}) (initial : System ℕ) retriedRun = some t ∧
    someSubmission ∈ t.store.enqueued ∧
    someSubmission.Stands {} t.store (endings {} retriedRun someSubmission.id) := by
  have hhandle : (Operation.commands {} (.handleJob takenJob)).run interp (laterEnv (some "timeout"))
      (storeOf .processing takenJob) = some (.ok (.raised "timeout"), storeOf .processing takenJob) :=
    rfl
  obtain ⟨t, ht, hown, hmem⟩ : ∃ t, exec (step {}) (initial : System ℕ) retriedRun = some t ∧
      Along (step {}) FinishesOwn (initial : System ℕ) retriedRun ∧
      someSubmission ∈ t.store.enqueued := by
    refine ⟨_, exec_cons_eq_some.2 ⟨_, rfl, exec_cons_eq_some.2 ⟨_, rfl, exec_cons_eq_some.2 ⟨_, rfl,
      exec_cons_eq_some.2 ⟨_, step_of_run rfl run_dequeueJob_submitted, exec_cons_eq_some.2
        ⟨_, step_of_run rfl hhandle, exec_cons_eq_some.2 ⟨_, step_of_run rfl run_scheduleRetry, rfl⟩⟩⟩⟩⟩⟩,
      along_cons_of_step trivial rfl (along_cons_of_step (finishesOwn_of_calls rfl nofun) rfl
        (along_cons_of_step trivial rfl (along_cons_of_step (finishesOwn_of_calls rfl nofun)
          (step_of_run rfl run_dequeueJob_submitted) (along_cons_of_step
            (finishesOwn_of_calls rfl nofun) (step_of_run rfl hhandle) (along_cons_of_step
              (finishesOwn_of_calls rfl fun job hjob => ?_) (step_of_run rfl run_scheduleRetry)
              along_nil))))), List.mem_singleton_self _⟩
    obtain rfl : takenJob = job := Option.some.inj hjob
    exact List.mem_singleton_self _
  exact ⟨t, ht, hmem, job_stands hown (by simp [retriedRun]) ht _ hmem⟩

end System

end StarterBackend.Queue

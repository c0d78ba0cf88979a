/-
The operations of the queue, as programs over Redis commands.

Each operation of `job_queue.py` is the sequence of the commands that it issues, with
its readings of the clock.  Three commands carry a record that no operation reads:
the `LPUSH` of `enqueue_job` (which ids were submitted), the `LREM` of `ack_job` (which
were acknowledged) and the call of the handler (which returned).  An id is submitted
once, since `uuid7` never returns the same id twice.

The operations are themselves the commands of `process_next_job`, so that one text of
the worker is read at both granularities: with every operation as one step, and with
every Redis command as one step.
-/
import StarterBackend.Queue.Job
import StarterBackend.Lib.RedisLists
import StarterBackend.Lib.Custody

namespace StarterBackend.Queue

open Lib

/-- The keys of the four structures of the queue. -/
inductive QueueKey where
  | main
  | processing
  | delayed
  | failed
deriving DecidableEq

instance : Fintype QueueKey :=
  ⟨{.main, .processing, .delayed, .failed}, fun key => by cases key <;> decide⟩

/-- The exceptions of an operation: an entry that is not the text of a job, and a start of
processing that is not a time with an offset. -/
inductive JobError where
  | invalidJob
  | invalidTimestamp

/-- How a handler ends. -/
inductive Outcome where
  | returned
  | unknownJobType (message : String)
  | raised (message : String)

/-! ### Commands -/

/-- The commands that the operations and the worker issue. -/
inductive Command where
  | redis (c : Redis.Command QueueKey)
  /-- `redis.lpush(queue_name, job.to_json())` in `enqueue_job`. -/
  | push (job : Job)
  /-- `redis.lrem(processing_queue_name, 1, job.to_json())` in `ack_job`. -/
  | remove (job : Job)
  /-- `datetime.now(timezone.utc)`. -/
  | utcNow
  /-- `time.time()`. -/
  | time
  /-- `handle_job(job)`. -/
  | handle (job : Job)

def Command.Reply : Command → Type
  | .redis c => c.Reply
  | .push _ => Unit
  | .remove _ => Unit
  | .utcNow => Datetime
  | .time => ℚ
  | .handle _ => Outcome

abbrev QueueProg (α : Type) := Prog Command Command.Reply JobError α

def issue (c : Command) : QueueProg c.Reply := .cmd c

def lpush (key : QueueKey) (value : String) : QueueProg Unit := issue (.redis (.lpush key value))

def rpop (key : QueueKey) : QueueProg (Option String) := issue (.redis (.rpop key))

/-- `BRPOPLPUSH`; its timeout is an empty reply. -/
def brpoplpush (source destination : QueueKey) : QueueProg (Option String) :=
  issue (.redis (.rpoplpush source destination))

/-- `LREM key 1 value`. -/
def lrem (key : QueueKey) (value : String) : QueueProg Bool := issue (.redis (.lrem key value))

/-- `LRANGE key 0 -1`. -/
def lrangeAll (key : QueueKey) : QueueProg (List String) := issue (.redis (.lrangeAll key))

def zadd (key : QueueKey) (m : String) (score : ℚ) : QueueProg Bool :=
  issue (.redis (.zadd key m score))

def zrem (key : QueueKey) (m : String) : QueueProg Bool := issue (.redis (.zrem key m))

def zrangebyscore (key : QueueKey) (low high : ℚ) : QueueProg (List String) :=
  issue (.redis (.zrangebyscore key low high))

def utcNow : QueueProg Datetime := issue .utcNow

def time : QueueProg ℚ := issue .time

/-! ### Operations -/

/-- The job that `enqueue_job` makes, with the id that `uuid7` returns and the id of the
request. -/
def Submission.job (x : Submission) : Job :=
  { id := x.id, type := x.type, payload := x.payload, requestId := x.requestId }

@[simp] lemma Submission.submission_job (x : Submission) : x.job.submission = x := rfl

/-- `enqueue_job`. -/
def enqueueJob (x : Submission) : QueueProg Job := do
  let _ ← issue (.push x.job)
  return x.job

/-- The rest of `dequeue_job`, once `BRPOPLPUSH` has moved an entry. -/
def startProcessing (rawJob : String) : QueueProg (Option Job) := do
  let job ← .getOrRaise .invalidJob (Job.fromJson rawJob)
  let processingJob := job.withProcessingStartedAt none (← utcNow)
  if processingJob.toJson = rawJob then
    return some processingJob
  else
    let _ ← lrem .processing rawJob
    lpush .processing processingJob.toJson
    return some processingJob

/-- `dequeue_job`. -/
def dequeueJob : QueueProg (Option Job) := do
  match ← brpoplpush .main .processing with
  | none => return none
  | some rawJob => startProcessing rawJob

/-- `ack_job`. -/
def ackJob (job : Job) : QueueProg Unit := issue (.remove job)

/-- `schedule_retry`. -/
def scheduleRetry (settings : WorkerSettings) (job : Job) (errorMessage : String) :
    QueueProg Job := do
  let retriedJob := job.withNextAttempt.withError errorMessage
  let currentTime ← time
  let availableAt := currentTime + calculateRetryDelaySeconds settings retriedJob.attempts
  let _ ← lrem .processing job.toJson
  let _ ← zadd .delayed retriedJob.toJson availableAt
  return retriedJob

/-- `limit is not None and count >= limit`. -/
def reached (limit : Option ℤ) (count : ℕ) : Bool := limit.any fun (n : ℤ) => decide (n ≤ count)

/-- The loop of `promote_delayed_jobs`, after `promotedCount` jobs. -/
def promoteLoop (limit : Option ℤ) : List String → ℕ → QueueProg ℕ
  | [], promotedCount => return promotedCount
  | rawJob :: rawJobs, promotedCount => do
      if reached limit promotedCount then
        return promotedCount
      else if ← zrem .delayed rawJob then
        lpush .main rawJob
        promoteLoop limit rawJobs (promotedCount + 1)
      else
        promoteLoop limit rawJobs promotedCount

/-- `promote_delayed_jobs`. -/
def promoteDelayedJobs (limit : Option ℤ) : QueueProg ℕ := do
  let currentTime ← time
  let rawJobs ← zrangebyscore .delayed 0 currentTime
  promoteLoop limit rawJobs 0

/-- The test `is_stale` of `reclaim_stale_processing_jobs`. -/
def isStale (settings : WorkerSettings) (currentTime : Datetime) (job : Job) :
    QueueProg Bool :=
  match job.processingStartedAt with
  | none => return true
  | some text =>
      match fromisoformat text with
      | some (.aware startedAt) =>
          return decide (settings.processingVisibilityTimeoutSeconds * 1000000 ≤
            (currentTime.micros : ℤ) - startedAt)
      | _ => .raise .invalidTimestamp

/-- The loop of `reclaim_stale_processing_jobs`, after `reclaimedCount` jobs. -/
def reclaimLoop (settings : WorkerSettings) (currentTime : Datetime) :
    List String → ℕ → QueueProg ℕ
  | [], reclaimedCount => return reclaimedCount
  | rawJob :: rawJobs, reclaimedCount => do
      let job ← .getOrRaise .invalidJob (Job.fromJson rawJob)
      if ← isStale settings currentTime job then
        if ← lrem .processing rawJob then
          lpush .main job.withoutProcessingStartedAt.toJson
          reclaimLoop settings currentTime rawJobs (reclaimedCount + 1)
        else
          reclaimLoop settings currentTime rawJobs reclaimedCount
      else
        reclaimLoop settings currentTime rawJobs reclaimedCount

/-- `reclaim_stale_processing_jobs`. -/
def reclaimStaleProcessingJobs (settings : WorkerSettings) : QueueProg ℕ := do
  let currentTime ← utcNow
  let rawJobs ← lrangeAll .processing
  reclaimLoop settings currentTime rawJobs 0

/-- The `failed_job` of `move_job_to_failed_queue`. -/
def failedJob (job : Job) (error : Option String) (now : Datetime) : Job :=
  match error, job.lastError with
  | some message, _ => (job.withFailedAt none now).withError message
  | none, some message => (job.withFailedAt none now).withError message
  | none, none => job.withFailedAt none now

/-- `move_job_to_failed_queue`. -/
def moveJobToFailedQueue (job : Job) (error : Option String) : QueueProg Job := do
  let failed := failedJob job error (← utcNow)
  let _ ← lrem .processing job.toJson
  lpush .failed failed.toJson
  return failed

/-- The loop of `requeue_failed_jobs`, after `requeuedCount` jobs.  The loop has no bound of
its own; `rounds` bounds the rounds that are looked at. -/
def requeueLoop (limit : Option ℤ) : ℕ → ℕ → QueueProg ℕ
  | 0, requeuedCount => return requeuedCount
  | rounds + 1, requeuedCount => do
      if reached limit requeuedCount then
        return requeuedCount
      else
        match ← rpop .failed with
        | none => return requeuedCount
        | some rawJob =>
            let job ← .getOrRaise .invalidJob (Job.fromJson rawJob)
            lpush .main job.toJson
            requeueLoop limit rounds (requeuedCount + 1)

/-- `requeue_failed_jobs`. -/
def requeueFailedJobs (rounds : ℕ) (limit : Option ℤ) : QueueProg ℕ := requeueLoop limit rounds 0

/-! ### The worker -/

/-- The operations as the commands of the programs that call them. -/
inductive Operation where
  | enqueueJob (x : Submission)
  | dequeueJob
  | ackJob (job : Job)
  | scheduleRetry (job : Job) (errorMessage : String)
  | promoteDelayedJobs (limit : Option ℤ)
  | reclaimStaleProcessingJobs
  | moveJobToFailedQueue (job : Job) (error : Option String)
  | requeueFailedJobs (rounds : ℕ) (limit : Option ℤ)
  | handleJob (job : Job)

def Operation.Result : Operation → Type
  | .enqueueJob _ => Job
  | .dequeueJob => Option Job
  | .ackJob _ => Unit
  | .scheduleRetry _ _ => Job
  | .promoteDelayedJobs _ => ℕ
  | .reclaimStaleProcessingJobs => ℕ
  | .moveJobToFailedQueue _ _ => Job
  | .requeueFailedJobs _ _ => ℕ
  | .handleJob _ => Outcome

/-- The commands of an operation. -/
def Operation.commands (settings : WorkerSettings) : (o : Operation) → QueueProg o.Result
  | .enqueueJob x => Queue.enqueueJob x
  | .dequeueJob => Queue.dequeueJob
  | .ackJob job => Queue.ackJob job
  | .scheduleRetry job errorMessage => Queue.scheduleRetry settings job errorMessage
  | .promoteDelayedJobs limit => Queue.promoteDelayedJobs limit
  | .reclaimStaleProcessingJobs => Queue.reclaimStaleProcessingJobs settings
  | .moveJobToFailedQueue job error => Queue.moveJobToFailedQueue job error
  | .requeueFailedJobs rounds limit => Queue.requeueFailedJobs rounds limit
  | .handleJob job => issue (.handle job)

abbrev WorkerProg (α : Type) := Prog Operation Operation.Result JobError α

/-- Call one operation. -/
def perform (o : Operation) : WorkerProg o.Result := .cmd o

/-- `process_next_job`. -/
def processNextJob (settings : WorkerSettings) : WorkerProg Bool := do
  match ← perform .dequeueJob with
  | none => return false
  | some job =>
      match ← perform (.handleJob job) with
      | .unknownJobType message =>
          let _ ← perform (.moveJobToFailedQueue job (some message))
          return true
      | .raised message =>
          if job.attempts < settings.maxRetries then
            let _ ← perform (.scheduleRetry job message)
            return true
          else
            let _ ← perform (.moveJobToFailedQueue job (some message))
            return true
      | .returned =>
          perform (.ackJob job)
          return true

/-- What a process of the system is started for: a producer submits a job, a worker
processes the next one or maintains the queue, an operator requeues failed jobs. -/
inductive Request where
  | enqueue (x : Submission)
  | processNext
  | promote (limit : Option ℤ)
  | reclaim
  | requeue (rounds : ℕ) (limit : Option ℤ)

/-- The program of a request. -/
def Request.program (settings : WorkerSettings) : Request → WorkerProg Unit
  | .enqueue x => do
      let _ ← perform (.enqueueJob x)
  | .processNext => do
      let _ ← processNextJob settings
  | .promote limit => do
      let _ ← perform (.promoteDelayedJobs limit)
  | .reclaim => do
      let _ ← perform .reclaimStaleProcessingJobs
  | .requeue rounds limit => do
      let _ ← perform (.requeueFailedJobs rounds limit)

/-! ### What the commands do -/

/-- The Redis structures of the queue, with the records of what happened. -/
structure QueueStore where
  redis : Redis.Lists QueueKey
  /-- What was submitted. -/
  enqueued : List Submission
  /-- The ids of which an execution of the handler has returned normally. -/
  returned : List String
  /-- The ids of which `ack_job` has been called. -/
  acked : List String

/-- Nothing has happened yet. -/
def QueueStore.empty : QueueStore := ⟨⟨fun _ => [], fun _ => ∅⟩, [], [], []⟩

/-- What the environment chooses at a step: the readings of the clocks, and whether a handler
raises. -/
structure Env where
  now : Datetime
  time : ℚ
  error : Option String

/-- `SEND_PASSWORD_RESET_EMAIL_JOB`. -/
def sendPasswordResetEmailJob : String := "send_password_reset_email"

/-- `VERIFY_PRESIGNED_UPLOAD_JOB`. -/
def verifyPresignedUploadJob : String := "verify_presigned_upload"

/-- `handle_job`: the two known handlers return or raise, any other type is unknown. -/
def handleJob (job : Job) (error : Option String) : Outcome :=
  if job.type = sendPasswordResetEmailJob ∨ job.type = verifyPresignedUploadJob then
    match error with
    | none => .returned
    | some message => .raised message
  else .unknownJobType ("unknown job type: " ++ job.type)

/-- The record of a handler that has ended. -/
def QueueStore.handled (s : QueueStore) (job : Job) : Outcome → QueueStore
  | .returned => { s with returned := job.id :: s.returned }
  | _ => s

def interp : Prog.Interp Command Command.Reply JobError QueueStore Env
  | .redis c, _, s => some (.ok (c.exec s.redis).1, { s with redis := (c.exec s.redis).2 })
  | .push job, _, s =>
      if job.id ∈ s.enqueued.map Submission.id then none
      else some (.ok (), { s with
        redis := (Redis.Command.exec (.lpush .main job.toJson) s.redis).2
        enqueued := job.submission :: s.enqueued })
  | .remove job, _, s =>
      some (.ok (), { s with
        redis := (Redis.Command.exec (.lrem .processing job.toJson) s.redis).2
        acked := job.id :: s.acked })
  | .utcNow, e, s => some (.ok e.now, s)
  | .time, e, s => some (.ok e.time, s)
  | .handle job, e, s =>
      some (.ok (handleJob job e.error), s.handled job (handleJob job e.error))

end StarterBackend.Queue

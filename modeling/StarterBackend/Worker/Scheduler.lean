/-
Scheduled maintenance on many workers.

Every worker keeps the time of its last attempt to itself, and all workers share one lock
in Redis, which nobody releases: it expires.  Workers start, die and raise at any point,
their own clocks read anything, and the reply of Redis may be lost after the lock was
taken.  Two acquisitions of the lock are still an interval apart, and a worker enters the
cleanup only after an acquisition of its own, once for each (`maintenance_once_per_interval`).
-/
import StarterBackend.Lib.Permits
import StarterBackend.Lib.RedisKeys
import Mathlib.Data.Rat.Cast.Order

namespace StarterBackend.Worker

open Lib

/-! ### The worker -/

/-- The settings of the scheduled maintenance. -/
structure MaintenanceSettings where
  enabled : Bool := true
  intervalSeconds : ℕ := 3600
  lockKey : String := "app_jobs_maintenance_lock"
  interval_pos : 0 < intervalSeconds := by decide

/-- The four cleanups of a maintenance. -/
inductive Cleanup where
  | passwordResetTokens
  | idempotencyRecords
  | webhookEvents
  | auditLogs
deriving DecidableEq

/-- What a worker calls. -/
inductive Command where
  | monotonic
  /-- `redis.set(key, value, nx=True, ex=ttl)`. -/
  | setNxEx (key value : String) (ttl : ℕ)
  | sessionLocal
  | cleanup (c : Cleanup)
  | close
  | shutdownRequested
  | maybeRunQueueMaintenance
  | processNextJob

/-- The replies; `none` is an exception. -/
def Command.Reply (K : Type) : Command → Type
  | .monotonic => K
  | .setNxEx _ _ _ => Option Bool
  | .shutdownRequested => Bool
  | _ => Option Unit

/-- An exception that nobody catches. -/
inductive WorkerError where
  | raised

abbrev WorkerProg (K α : Type) := Prog Command (Command.Reply K) WorkerError α

section Programs

variable {K : Type}

def issue (c : Command) : WorkerProg K (c.Reply K) := .cmd c

/-- The reply of a call, or its exception. -/
def orRaise {α : Type} (reply : Option α) : WorkerProg K α := .getOrRaise .raised reply

/-- `time.monotonic()`. -/
def monotonic : WorkerProg K K := issue .monotonic

/-- `worker_shutdown_requested()`. -/
def workerShutdownRequested : WorkerProg K Bool := issue .shutdownRequested

/-- `SessionLocal()`. -/
def sessionLocal : WorkerProg K Unit := (issue .sessionLocal).bind orRaise

/-- One of the cleanups. -/
def cleanup (c : Cleanup) : WorkerProg K Unit := (issue (.cleanup c)).bind orRaise

/-- `db.close()`. -/
def closeSession : WorkerProg K Unit := (issue .close).bind orRaise

/-- `maybe_run_queue_maintenance`. -/
def maybeRunQueueMaintenance : WorkerProg K Unit := (issue .maybeRunQueueMaintenance).bind orRaise

/-- `process_next_job`. -/
def processNextJob : WorkerProg K Unit := (issue .processNextJob).bind orRaise

variable (settings : MaintenanceSettings)

/-- `try_acquire_maintenance_lock`. -/
def tryAcquireMaintenanceLock (ttlSeconds : ℕ) : WorkerProg K Bool :=
  (issue (.setNxEx settings.lockKey "1" ttlSeconds)).bind orRaise

/-- The cleanups, in their order. -/
def cleanups : WorkerProg K Unit := do
  cleanup .passwordResetTokens
  cleanup .idempotencyRecords
  cleanup .webhookEvents
  cleanup .auditLogs

/-- `run_scheduled_maintenance`. -/
def runScheduledMaintenance : WorkerProg K Bool := do
  if !settings.enabled then return false
  else if !(← tryAcquireMaintenanceLock settings settings.intervalSeconds) then return false
  else
    sessionLocal
    cleanups.tryFinally closeSession
    return true

variable [Field K] [LinearOrder K]

/-- `maybe_run_scheduled_maintenance`, with the time of the last attempt, and the new one. -/
def maybeRunScheduledMaintenance (lastMaintenanceAttemptAt : K) : WorkerProg K (K × Bool) := do
  let currentTime ← monotonic
  if currentTime - lastMaintenanceAttemptAt < settings.intervalSeconds then
    return (lastMaintenanceAttemptAt, false)
  else
    return (currentTime, ← runScheduledMaintenance settings)

/-- The loop of `run_worker`.  It has no bound of its own; `rounds` bounds the rounds that are
looked at. -/
def runWorker : ℕ → K → WorkerProg K Unit
  | 0, _ => return ()
  | rounds + 1, lastMaintenanceAttemptAt => do
      if ← workerShutdownRequested then return ()
      else
        let attempt ← maybeRunScheduledMaintenance settings lastMaintenanceAttemptAt
        if ← workerShutdownRequested then return ()
        else
          maybeRunQueueMaintenance
          processNextJob
          runWorker rounds attempt.1

end Programs

/-! ### What the calls do -/

/-- What the environment chooses at a step: the clocks of Redis and of the worker, and what
fails. -/
structure Env (K : Type) where
  now : K
  lingers : Bool := false
  monotonic : K
  fails : Bool := false
  replyLost : Bool := false
  shutdown : Bool := false

section Exec

variable {K : Type} [Field K] [LinearOrder K]

/-- The reply of a call, and the keys of Redis after it. -/
def Command.exec (e : Env K) : (c : Command) → Redis.Keys K → c.Reply K × Redis.Keys K
  | .monotonic, keys => (e.monotonic, keys)
  | .setNxEx key value ttl, keys =>
      if e.fails then (none, keys)
      else
        let set := keys.setNxEx e.now e.lingers key value ttl
        (if e.replyLost then none else some set.1, set.2)
  | .shutdownRequested, keys => (e.shutdown, keys)
  | .sessionLocal, keys => (if e.fails then none else some (), keys)
  | .cleanup _, keys => (if e.fails then none else some (), keys)
  | .close, keys => (if e.fails then none else some (), keys)
  | .maybeRunQueueMaintenance, keys => (if e.fails then none else some (), keys)
  | .processNextJob, keys => (if e.fails then none else some (), keys)

def interp : Prog.Interp Command (Command.Reply K) WorkerError (Redis.Keys K) (Env K) :=
  fun c e keys => some (.ok (c.exec e keys).1, (c.exec e keys).2)

/-- The call takes the lock of a key. -/
def acquires : Command → Env K → Redis.Keys K → Bool
  | .setNxEx key _ _, e, keys => !e.fails && !keys.contains e.now e.lingers key
  | _, _, _ => false

/-- The reply says that the lock was taken. -/
def acquired : (c : Command) → c.Reply K → Bool
  | .setNxEx _ _ _, (reply : Option Bool) => reply == some true
  | _, _ => false

/-- The first call of the cleanup. -/
def enters : Command → Bool
  | .cleanup .passwordResetTokens => true
  | _ => false

/-- The acquisitions of the lock as permits to enter the cleanup. -/
def lockPermits : Permits (interp (K := K)) where
  grants := acquires
  granted := acquired
  uses := enters
  grants_of_granted := by
    intro c e keys r t h hr
    obtain ⟨hreply, -⟩ := Prod.mk.inj (Option.some.inj h)
    obtain rfl := Except.ok.inj hreply
    cases c with
    | setNxEx key value ttl =>
        simp only [acquired, Command.exec, acquires] at hr ⊢
        by_cases hfails : e.fails = true
        · simp [hfails] at hr
        · by_cases hheld : keys.contains e.now e.lingers key = true
          · by_cases hlost : e.replyLost = true <;>
              simp [hfails, hlost, Redis.Keys.setNxEx, hheld] at hr
          · simp [hfails, hheld]
    | _ => cases hr

/-! ### The programs are licensed -/

variable {settings : MaintenanceSettings}

lemma licensed_orRaise {α : Type} {permit : Bool} {reply : Option α} :
    lockPermits.Licensed permit (orRaise reply : WorkerProg K α) := Permits.licensed_getOrRaise

/-- A call that neither takes the lock nor enters the cleanup. -/
lemma licensed_issue {permit : Bool} {c : Command} (henters : enters c = false)
    {f : c.Reply K → WorkerProg K Unit} (hf : ∀ r, lockPermits.Licensed permit (f r)) :
    lockPermits.Licensed permit ((issue c).bind f) := Permits.licensed_call henters hf

lemma licensed_cleanups : lockPermits.Licensed true (cleanups : WorkerProg K Unit) := by
  have hrest : ∀ c, enters (.cleanup c) = false →
      lockPermits.Licensed false (cleanup c : WorkerProg K Unit) := by
    intro c hc
    exact licensed_issue hc fun r => licensed_orRaise
  refine Permits.Licensed.bind ⟨fun _ => rfl, fun r => licensed_orRaise.mono fun h => h⟩ fun _ => ?_
  refine (hrest _ rfl).bind fun _ => ?_
  exact (hrest _ rfl).bind fun _ => hrest _ rfl

lemma licensed_closeSession : lockPermits.Licensed false (closeSession : WorkerProg K Unit) :=
  licensed_issue rfl fun _ => licensed_orRaise

/-- The cleanup is entered with the lock that was just taken. -/
lemma licensed_runScheduledMaintenance :
    lockPermits.Licensed false (runScheduledMaintenance settings : WorkerProg K Bool) := by
  unfold runScheduledMaintenance
  split_ifs with henabled
  · trivial
  · refine ⟨fun h => absurd h Bool.false_ne_true, fun reply => ?_⟩
    rcases reply with _ | _ | _
    · trivial
    · trivial
    · show lockPermits.Licensed true (sessionLocal.bind fun _ =>
        (cleanups.tryFinally closeSession).bind fun _ => .ret true)
      refine Permits.licensed_call rfl fun opened => ?_
      rcases opened with _ | _
      · trivial
      · show lockPermits.Licensed true ((cleanups.tryFinally closeSession).bind fun _ => .ret true)
        refine Permits.Licensed.bind ?_ fun _ => trivial
        exact licensed_cleanups.tryFinally licensed_closeSession

lemma licensed_maybeRunScheduledMaintenance (last : K) :
    lockPermits.Licensed false (maybeRunScheduledMaintenance settings last) := by
  refine Permits.licensed_call rfl fun (currentTime : K) => ?_
  show lockPermits.Licensed false (if currentTime - last < settings.intervalSeconds then
    .ret (last, false) else (runScheduledMaintenance settings).bind fun ran => .ret (currentTime, ran))
  split_ifs with hrecent
  · trivial
  · exact licensed_runScheduledMaintenance.bind fun _ => trivial

lemma licensed_runWorker (rounds : ℕ) (last : K) :
    lockPermits.Licensed false (runWorker settings rounds last) := by
  induction rounds generalizing last with
  | zero => trivial
  | succ rounds ih =>
      refine Permits.licensed_call rfl fun shutdown => ?_
      cases shutdown with
      | true => trivial
      | false =>
          refine (licensed_maybeRunScheduledMaintenance last).bind fun attempt => ?_
          refine Permits.licensed_call rfl fun shutdown => ?_
          cases shutdown with
          | true => trivial
          | false =>
              refine (licensed_issue rfl fun _ => licensed_orRaise).bind fun _ => ?_
              exact (licensed_issue rfl fun _ => licensed_orRaise).bind fun _ => ih attempt.1

/-! ### Which keys are set -/

/-- The call sets no key but the lock, and the lock for an interval. -/
def Command.SetsOnlyLock (settings : MaintenanceSettings) : Command → Prop
  | .setNxEx key _ ttl => key = settings.lockKey ∧ ttl = settings.intervalSeconds
  | _ => True

/-- The program sets no key but the lock. -/
abbrev SetsOnlyLock {α : Type} (settings : MaintenanceSettings) (p : WorkerProg K α) : Prop :=
  p.Every fun c _ => c.SetsOnlyLock settings

omit [Field K] [LinearOrder K] in
lemma setsOnlyLock_cleanup (c : Cleanup) : SetsOnlyLock settings (cleanup c : WorkerProg K Unit) :=
  ⟨trivial, fun _ => Prog.every_getOrRaise⟩

omit [Field K] [LinearOrder K] in
lemma setsOnlyLock_cleanups : SetsOnlyLock settings (cleanups : WorkerProg K Unit) :=
  (setsOnlyLock_cleanup _).bind fun _ => (setsOnlyLock_cleanup _).bind fun _ =>
    (setsOnlyLock_cleanup _).bind fun _ => setsOnlyLock_cleanup _

omit [Field K] [LinearOrder K] in
lemma setsOnlyLock_runScheduledMaintenance :
    SetsOnlyLock settings (runScheduledMaintenance settings : WorkerProg K Bool) := by
  unfold runScheduledMaintenance
  split_ifs with henabled
  · trivial
  · refine Prog.Every.bind ⟨⟨rfl, rfl⟩, fun _ => Prog.every_getOrRaise⟩ fun taken => ?_
    cases taken with
    | false => trivial
    | true =>
        refine Prog.Every.bind ⟨trivial, fun _ => Prog.every_getOrRaise⟩ fun _ => ?_
        refine Prog.Every.bind ?_ fun _ => trivial
        exact setsOnlyLock_cleanups.tryFinally ⟨trivial, fun _ => Prog.every_getOrRaise⟩

lemma setsOnlyLock_maybeRunScheduledMaintenance (last : K) :
    SetsOnlyLock settings (maybeRunScheduledMaintenance settings last) := by
  refine ⟨trivial, fun (currentTime : K) => ?_⟩
  show SetsOnlyLock settings (if currentTime - last < settings.intervalSeconds then
    .ret (last, false) else (runScheduledMaintenance settings).bind fun ran => .ret (currentTime, ran))
  split_ifs with hrecent
  · trivial
  · exact setsOnlyLock_runScheduledMaintenance.bind fun _ => trivial

lemma setsOnlyLock_runWorker (rounds : ℕ) (last : K) :
    SetsOnlyLock settings (runWorker settings rounds last) := by
  induction rounds generalizing last with
  | zero => trivial
  | succ rounds ih =>
      refine ⟨trivial, fun shutdown => ?_⟩
      cases shutdown with
      | true => trivial
      | false =>
          refine Prog.Every.bind (p := maybeRunScheduledMaintenance settings last)
            (setsOnlyLock_maybeRunScheduledMaintenance last) fun attempt => ?_
          refine ⟨trivial, fun shutdown => ?_⟩
          cases shutdown with
          | true => trivial
          | false =>
              refine Prog.Every.bind (p := maybeRunQueueMaintenance)
                ⟨trivial, fun _ => Prog.every_getOrRaise⟩ fun _ => ?_
              exact Prog.Every.bind (p := processNextJob)
                ⟨trivial, fun _ => Prog.every_getOrRaise⟩ fun _ => ih attempt.1

/-! ### Runs of the workers -/

variable {ι : Type} [DecidableEq ι]

/-- The workers, each started for some number of rounds, and the keys of Redis. -/
abbrev Workers (ι K : Type) := Pool ι ℕ (WorkerProg K Unit) (Redis.Keys K)

/-- A step: a worker starts, with the last attempt at the time 0 of its clock, executes its next
call, or dies. -/
def Workers.next (settings : MaintenanceSettings) :
    Workers ι K → PoolAction ι ℕ (Env K) → Option (Workers ι K) :=
  Pool.next interp fun rounds => runWorker settings rounds 0

/-- The time at which a step takes the lock. -/
def Workers.acquisition (s : Workers ι K) : PoolAction ι ℕ (Env K) → Option K
  | .step i e => (s.calls i).bind fun call => call.2.command.bind fun c =>
      if acquires c e s.store then some e.now else none
  | _ => none

/-- The times at which the lock is taken in a run, by any worker. -/
def acquisitions (settings : MaintenanceSettings) (keys : Redis.Keys K)
    (as : List (PoolAction ι ℕ (Env K))) : List K :=
  observed (Workers.next settings) Workers.acquisition (Pool.initial keys) as

/-- Any two of the times are at least an interval apart. -/
def AnIntervalApart (settings : MaintenanceSettings) (times : List K) : Prop :=
  times.Pairwise fun t₁ t₂ : K => t₁ + settings.intervalSeconds ≤ t₂

/-- The acquisitions of the lock and the entries into the cleanup of one worker, and its starts, in
their order. -/
def marksOf (settings : MaintenanceSettings) (keys : Redis.Keys K)
    (as : List (PoolAction ι ℕ (Env K))) (i : ι) : List Permits.Mark :=
  lockPermits.marksOf (fun rounds => runWorker settings rounds 0) keys as i

/-- **A call on a held lock.**  It keeps it; and it takes it only when the time is up. -/
lemma heldUntil_exec {c : Command} {e : Env K} {keys : Redis.Keys K} {time : K}
    (hc : c.SetsOnlyLock settings) (h : keys.HeldUntil settings.lockKey time) :
    (acquires c e keys = true → time ≤ e.now) ∧
      (acquires c e keys = false → (c.exec e keys).2.HeldUntil settings.lockKey time) := by
  cases c with
  | setNxEx key value ttl =>
      obtain ⟨rfl, rfl⟩ := hc
      constructor
      · intro htaken
        simp only [acquires, Bool.and_eq_true, Bool.not_eq_true'] at htaken
        by_contra! hearly
        exact Bool.false_ne_true (htaken.2.symm.trans (h.contains hearly))
      · intro hnot
        simp only [acquires, Bool.and_eq_false_iff, Bool.not_eq_false'] at hnot
        rcases hnot with hfails | hheld
        · simpa [Command.exec, hfails] using h
        · by_cases hfails : e.fails = true <;>
            simpa [Command.exec, hfails, Redis.Keys.setNxEx, hheld] using h
  | _ => exact ⟨fun htaken => absurd htaken Bool.false_ne_true, fun _ => h⟩

/-- A call that takes the lock holds it for an interval. -/
lemma heldUntil_of_acquires {c : Command} {e : Env K} {keys : Redis.Keys K}
    (hc : c.SetsOnlyLock settings) (h : acquires c e keys = true) :
    (c.exec e keys).2.HeldUntil settings.lockKey (e.now + settings.intervalSeconds) := by
  cases c with
  | setNxEx key value ttl =>
      obtain ⟨rfl, rfl⟩ := hc
      simp only [acquires, Bool.and_eq_true, Bool.not_eq_true'] at h
      simp only [Command.exec, h.1, Redis.Keys.setNxEx, h.2]
      exact Redis.Keys.heldUntil_setEx_self (by simp)
  | _ => cases h

variable {keys : Redis.Keys K} {as : List (PoolAction ι ℕ (Env K))} {s t : Workers ι K}

lemma acquisitions_append {a : PoolAction ι ℕ (Env K)}
    (h : exec (Workers.next settings) (Pool.initial keys) as = some s) :
    acquisitions settings keys (as ++ [a]) =
      acquisitions settings keys as ++ (s.acquisition a).toList :=
  observed_append_singleton h

/-- The acquisitions so far are an interval apart, and the lock is held for an interval after each
of them. -/
lemma spaced_run [IsStrictOrderedRing K]
    (h : exec (Workers.next settings) (Pool.initial keys) as = some t) :
    AnIntervalApart settings (acquisitions settings keys as) ∧
      ∀ time ∈ acquisitions settings keys as,
        t.store.HeldUntil settings.lockKey (time + settings.intervalSeconds) := by
  refine exec_induction (P := fun as (t : Workers ι K) =>
    AnIntervalApart settings (acquisitions settings keys as) ∧
      ∀ time ∈ acquisitions settings keys as,
        t.store.HeldUntil settings.lockKey (time + settings.intervalSeconds))
    ⟨by simp [AnIntervalApart, acquisitions, observed], fun time htime => absurd htime List.not_mem_nil⟩
    (fun as s a t has hs hstep => ?_) h
  obtain ⟨hspaced, hheld⟩ := hs
  rw [acquisitions_append has]
  rcases Pool.next_cases hstep with ⟨i, q, rfl, hi, rfl⟩ |
    ⟨i, e, q, c, k, p', w, rfl, hi, rfl, hcmd⟩ | ⟨i, q, p, rfl, hi, rfl⟩
  · rw [show s.acquisition (.start i q) = none from rfl, Option.toList_none, List.append_nil]
    exact ⟨hspaced, hheld⟩
  · have hc : c.SetsOnlyLock settings :=
      (Pool.every_run (fun rounds => setsOnlyLock_runWorker rounds 0) has hi).1
    obtain rfl : w = (c.exec e s.store).2 := by
      rcases hcmd with ⟨x, hexec, -⟩ | ⟨r, hexec, -⟩
      · cases hexec
      · exact (Prod.mk.inj (Option.some.inj hexec)).2.symm
    have hacquisition : s.acquisition (.step i e) =
        if acquires c e s.store then some e.now else none := by
      simp [Workers.acquisition, hi, Prog.command]
    rw [hacquisition]
    by_cases htaken : acquires c e s.store = true
    · -- the lock was free, so every earlier acquisition is an interval old
      have hlate : ∀ time ∈ acquisitions settings keys as,
          time + settings.intervalSeconds ≤ e.now := by
        intro time htime
        exact (heldUntil_exec hc (hheld time htime)).1 htaken
      have hnow := heldUntil_of_acquires hc htaken
      rw [if_pos htaken, Option.toList_some]
      refine ⟨List.pairwise_append.2 ⟨hspaced, List.pairwise_singleton _ _, ?_⟩, ?_⟩
      · intro time htime now hmem
        rw [List.mem_singleton] at hmem
        rw [hmem]
        exact hlate time htime
      · intro time htime
        rcases List.mem_append.1 htime with hold | hnew
        · obtain ⟨entry, hentry, hdeadline⟩ := hnow
          refine ⟨entry, hentry, fun deadline hmem => ?_⟩
          have hinterval : (0 : K) ≤ settings.intervalSeconds := Nat.cast_nonneg _
          calc time + settings.intervalSeconds ≤ e.now := hlate time hold
            _ ≤ e.now + settings.intervalSeconds := le_add_of_nonneg_right hinterval
            _ ≤ deadline := hdeadline deadline hmem
        · rw [List.mem_singleton] at hnew
          rw [hnew]
          exact hnow
    · rw [if_neg htaken, Option.toList_none, List.append_nil]
      refine ⟨hspaced, fun time htime => ?_⟩
      exact (heldUntil_exec hc (hheld time htime)).2 (Bool.eq_false_iff.2 htaken)
  · rw [show s.acquisition (.die i) = none from rfl, Option.toList_none, List.append_nil]
    exact ⟨hspaced, hheld⟩

/-- **Maintenance runs at most once per interval across the workers**: in every run, every entry of
a worker into the cleanup comes directly after an acquisition of the lock by this worker, among its
entries, its acquisitions and its starts; and any two acquisitions of the lock, by whichever
workers, are at least an interval apart. -/
theorem maintenance_once_per_interval [IsStrictOrderedRing K]
    (h : exec (Workers.next settings) (Pool.initial keys) as = some t) :
    (∀ i, Permits.UsesFollowGrants (marksOf settings keys as i)) ∧
      AnIntervalApart settings (acquisitions settings keys as) :=
  ⟨Permits.uses_after_grants (fun rounds => licensed_runWorker rounds 0) h, (spaced_run h).1⟩

/-- A run of two workers: the first one cleans up at the time 0 and dies, the second one is denied
the lock at 100, dies, and gets the lock after its restart, at 3600. -/
def twoWorkersRun : List (PoolAction Bool ℕ (Env ℚ)) :=
  let at_ (now : ℚ) : Env ℚ := { now := now, monotonic := 5000 + now }
  [.start false 1] ++ List.replicate 5 (.step false (at_ 0)) ++ [.die false, .start true 1] ++
    List.replicate 6 (.step true (at_ 100)) ++ [.die true, .start true 1] ++
    List.replicate 12 (.step true (at_ 3600))

theorem maintenance_once_per_interval_twoWorkers :
    (∀ i, Permits.UsesFollowGrants (marksOf { } Redis.Keys.empty twoWorkersRun i)) ∧
      acquisitions { } Redis.Keys.empty twoWorkersRun = [0, 3600] ∧
      AnIntervalApart { } (acquisitions { } Redis.Keys.empty twoWorkersRun) := by
  have hrun : (exec (Workers.next { }) (Pool.initial Redis.Keys.empty) twoWorkersRun).isSome := by
    decide +kernel
  obtain ⟨t, ht⟩ := Option.isSome_iff_exists.1 hrun
  obtain ⟨hmarks, hspaced⟩ := maintenance_once_per_interval ht
  exact ⟨hmarks, by decide +kernel, hspaced⟩

end Exec

end StarterBackend.Worker

/-
Entries that cannot be read.

`reclaim_stale_processing_jobs` and `dequeue_job` parse every entry that they meet, and
nothing around them catches the exception.  One unreadable entry in the processing list
ends every reclaim, and one at the tail of the main list ends the call of
`process_next_job`, which has moved it to the processing list by then
(`bad_entries_harmless_iff`).  The text of a job is readable here when its fields have
the types that `to_json` writes, and a time when it has the form that `isoformat` writes.
-/
import StarterBackend.Queue.Maintenance

namespace StarterBackend.Queue

open Lib

/-! ### Reclaiming -/

/-- The test for staleness has found the job stale. -/
def foundStale : QueueProg Bool → Bool
  | .ret stale => stale
  | _ => false

/-- A readable entry that is stale at the time `now`. -/
def staleEntry (settings : WorkerSettings) (now : Datetime) (raw : String) : Bool :=
  (Job.fromJson raw).any fun job => foundStale (isStale settings now job)

/-- The store with other entries in the processing and the main list. -/
def QueueStore.withLists (s : QueueStore) (processing main : List String) : QueueStore :=
  { s with redis.list := fun
      | .processing => processing
      | .main => main
      | key => s.redis.list key }

/-- The store after every stale entry has been moved back to the main list. -/
def QueueStore.reclaim (s : QueueStore) (settings : WorkerSettings) (now : Datetime) : QueueStore :=
  s.withLists ((s.redis.list .processing).filter fun raw => !staleEntry settings now raw)
    ((((s.redis.list .processing).filter (staleEntry settings now)).map reclaimedEntry).reverse ++
      s.redis.list .main)

section Reclaim

variable {settings : WorkerSettings} {e : Env} {s : QueueStore} {now : Datetime} {n : ℕ}

lemma withLists_self : s.withLists (s.redis.list .processing) (s.redis.list .main) = s := by
  obtain ⟨⟨list, zset⟩, enqueued, returned, acked⟩ := s
  simp only [QueueStore.withLists, QueueStore.mk.injEq, Redis.Lists.mk.injEq, and_true]
  funext key
  cases key <;> rfl

/-- Moving one entry, and then the lists of the rest. -/
lemma withLists_after_move {raw value : String} {processing main : List String} :
    ((s.after (.lrem .processing raw)).after (.lpush .main value)).withLists processing main =
      s.withLists processing main := by
  simp only [QueueStore.withLists, QueueStore.after, Redis.Command.exec, QueueStore.mk.injEq,
    Redis.Lists.mk.injEq, and_true]
  funext key
  cases key <;> simp

/-- What the test finds for a readable entry. -/
lemma staleEntry_of_readable {raw : String} {job : Job} {stale : Bool}
    (hjob : Job.fromJson raw = some job) (hstale : isStale settings now job = .ret stale) :
    staleEntry settings now raw = stale := by
  rw [staleEntry, hjob, Option.any_some, hstale, foundStale]

/-- **The loop of the reclaim on readable entries**: `done` is what it has left in the list. -/
lemma run_reclaimLoop {done raws : List String} (hraws : ∀ raw ∈ raws, Readable raw)
    (hdone : ∀ raw ∈ done, staleEntry settings now raw = false)
    (hlist : s.redis.list .processing = done ++ raws) :
    (reclaimLoop settings now raws n).run interp e s =
      some (.ok (n + (raws.filter (staleEntry settings now)).length),
        s.withLists (done ++ raws.filter fun raw => !staleEntry settings now raw)
          (((raws.filter (staleEntry settings now)).map reclaimedEntry).reverse ++
            s.redis.list .main)) := by
  induction raws generalizing n s done with
  | nil =>
      have hself : s.withLists (done ++ []) (s.redis.list .main) = s := by
        rw [← hlist, withLists_self]
      show some (_, s) = some (_, s.withLists (done ++ []) (s.redis.list .main))
      rw [hself]
      rfl
  | cons raw raws ih =>
      have hrest : ∀ raw' ∈ raws, Readable raw' := fun raw' hraw' =>
        hraws raw' (List.mem_cons_of_mem raw hraw')
      obtain ⟨job, hjob, hstart⟩ := hraws raw List.mem_cons_self
      obtain ⟨stale, hstale⟩ := isStale_of_readable settings now hstart
      have hentry := staleEntry_of_readable hjob hstale
      rw [reclaimLoop, hjob]
      simp only [Prog.getOrRaise, Prog.bind_def, Prog.ret_bind, hstale]
      cases stale with
      | false =>
          have hkeep : s.redis.list .processing = (done ++ [raw]) ++ raws := by simp [hlist]
          have hloop := ih (s := s) (n := n) hrest (by
            intro raw' hraw'
            rcases List.mem_append.1 hraw' with hmem | hmem
            · exact hdone raw' hmem
            · rw [List.mem_singleton.1 hmem, hentry]) hkeep
          rw [if_neg Bool.false_ne_true, hloop]
          simp [hentry]
      | true =>
          have hmem : raw ∈ s.redis.list .processing := by simp [hlist]
          rw [if_pos rfl, run_lrem, decide_eq_true hmem, if_pos rfl, run_lpush]
          -- the entry is stale, so the first one with this text is where the loop stands
          have hnot : raw ∉ done := by
            intro hraw
            have hfalse := hdone raw hraw
            rw [hentry] at hfalse
            cases hfalse
          have herase : ((s.after (.lrem .processing raw)).after
              (.lpush .main job.withoutProcessingStartedAt.toJson)).redis.list .processing =
                done ++ raws := by
            simp [QueueStore.after, Redis.Command.exec, hlist, List.erase_append_right _ hnot]
          have hmain : ((s.after (.lrem .processing raw)).after
              (.lpush .main job.withoutProcessingStartedAt.toJson)).redis.list .main =
                reclaimedEntry raw :: s.redis.list .main := by
            simp [QueueStore.after, Redis.Command.exec, reclaimedEntry, hjob]
          rw [ih hrest hdone herase, hmain, withLists_after_move]
          simp [hentry]
          omega

/-- An entry that is not readable ends the loop with an exception. -/
lemma run_reclaimLoop_raises {raws : List String} (h : ∃ raw ∈ raws, ¬ Readable raw) :
    ∃ x s', (reclaimLoop settings now raws n).run interp e s = some (.error x, s') := by
  induction raws generalizing n s with
  | nil => simp at h
  | cons raw raws ih =>
      rw [reclaimLoop]
      cases hjob : Job.fromJson raw with
      | none => exact ⟨.invalidJob, s, rfl⟩
      | some job =>
          simp only [Prog.getOrRaise, Prog.bind_def, Prog.ret_bind]
          rcases isStale_cases settings now job with ⟨stale, hstale⟩ | hraise
          · have hreadable : Readable raw := by
              refine ⟨job, hjob, fun text htext => ?_⟩
              simp only [isStale, htext] at hstale
              split at hstale
              · exact ⟨_, by assumption⟩
              · cases hstale
            have hrest : ∃ raw' ∈ raws, ¬ Readable raw' := by
              obtain ⟨raw', hmem, hbad⟩ := h
              rcases List.mem_cons.1 hmem with rfl | hmem
              · exact absurd hreadable hbad
              · exact ⟨raw', hmem, hbad⟩
            rw [hstale, Prog.ret_bind]
            split_ifs
            · rw [run_lrem]
              split_ifs
              · rw [run_lpush]
                exact ih hrest
              · exact ih hrest
            · exact ih hrest
          · rw [hraise]
            exact ⟨.invalidTimestamp, s, rfl⟩

end Reclaim

/-! ### One bad entry -/

/-- `reclaim_stale_processing_jobs` returns, and has moved every readable stale entry back to the
main list. -/
def ReclaimsStale (settings : WorkerSettings) (s : QueueStore) : Prop :=
  ∀ e, ∃ n, (reclaimStaleProcessingJobs settings).run interp e s =
    some (.ok n, s.reclaim settings e.now)

/-- With an unreadable entry at the tail of the main list, `process_next_job` returns. -/
def PassesUnreadable (settings : WorkerSettings) (s : QueueStore) : Prop :=
  ∀ raw, (s.redis.list .main).getLast? = some raw → Job.fromJson raw = none → ∀ e, ∃ found s',
    (processNextJob settings).run (Prog.atomically (Operation.commands settings) interp) e s =
      some (.ok found, s')

section BadEntries

variable {settings : WorkerSettings} {s : QueueStore}

lemma run_reclaim {e : Env} : (reclaimStaleProcessingJobs settings).run interp e s =
    (reclaimLoop settings e.now (s.redis.list .processing) 0).run interp e s := rfl

lemma reclaimsStale_iff : ReclaimsStale settings s ↔
    ∀ raw ∈ s.redis.list .processing, Readable raw := by
  constructor
  · intro h raw hraw
    by_contra hbad
    obtain ⟨n, hn⟩ := h ⟨⟨0, by decide⟩, 0, none⟩
    obtain ⟨x, s', hx⟩ : ∃ x s', (reclaimLoop settings ⟨0, by decide⟩ (s.redis.list .processing) 0).run
        interp ⟨⟨0, by decide⟩, 0, none⟩ s = some (.error x, s') :=
      run_reclaimLoop_raises ⟨raw, hraw, hbad⟩
    rw [run_reclaim, hx] at hn
    cases hn
  · intro h e
    have hnone : ∀ raw ∈ ([] : List String), staleEntry settings e.now raw = false := by simp
    exact ⟨_, run_reclaimLoop h hnone rfl⟩

/-- An entry that is no job is moved to the processing list, and then the exception comes. -/
lemma run_dequeueJob_unreadable {e : Env} {raw : String}
    (hlast : (s.redis.list .main).getLast? = some raw) (hjob : Job.fromJson raw = none) :
    dequeueJob.run interp e s =
      some (.error .invalidJob, s.after (.rpoplpush .main .processing)) := by
  rw [dequeueJob, Prog.bind_def, run_brpoplpush, hlast]
  simp only [startProcessing, hjob]
  rfl

lemma run_processNextJob_unreadable {e : Env} {raw : String}
    (hlast : (s.redis.list .main).getLast? = some raw) (hjob : Job.fromJson raw = none) :
    (processNextJob settings).run (Prog.atomically (Operation.commands settings) interp) e s =
      some (.error .invalidJob, s.after (.rpoplpush .main .processing)) := by
  refine Prog.run_bind_raise ?_
  have hrun : Prog.atomically (Operation.commands settings) interp .dequeueJob e s =
      some (.error .invalidJob, s.after (.rpoplpush .main .processing)) :=
    run_dequeueJob_unreadable hlast hjob
  show Prog.run _ e (.call _ .ret) s = _
  simp only [Prog.run, hrun]

end BadEntries

/-- An entry that is no text of a job, before a stale one. -/
def badEntry : QueueStore :=
  ⟨⟨fun | .processing => ["[", someFailedJob.toJson] | _ => [], fun _ => ∅⟩, [], [], []⟩

end StarterBackend.Queue

/-
Workers that dequeue while others reclaim, with single commands as their steps.

`dequeue_job` first moves an entry to the processing list and replaces it there by one with
the start of processing two commands later.  In between the entry has no start, or the
start of an earlier life of the job, and `reclaim_stale_processing_jobs` takes it for a
stale one.  Where that does not happen, a job that is being processed is reclaimed after
the visibility timeout only, and no job has two entries.

The programs are followed through their phases (`Phase`).  A state of the system is seen as
the phases of its processes with the two lists and the clock (`View`), and `Phase.Move` says
all that one command can do to them.
-/
import StarterBackend.Queue.Runs

namespace StarterBackend.Queue

open Lib

/-- What a process of the system does. -/
inductive ReaperCall where
  | dequeue
  | reclaim

/-- The program of a process; a reclaim has no job as its result. -/
def ReaperCall.program (settings : WorkerSettings) : ReaperCall → QueueProg (Option Job)
  | .dequeue => dequeueJob
  | .reclaim => do
      let _ ← reclaimStaleProcessingJobs settings
      return none

/-- The processes, with the store and the clock, in microseconds. -/
abbrev ReaperPool (ι : Type*) := Pool ι ReaperCall (QueueProg (Option Job)) (QueueStore × ℕ)

/-- One step of one process, at the time that its clock shows. -/
def ReaperPool.step {ι : Type*} [DecidableEq ι] (settings : WorkerSettings) (s : ReaperPool ι)
    (a : PoolAction ι ReaperCall Env) : Option (ReaperPool ι) :=
  Pool.next (interp.timed fun e => e.now.micros) (ReaperCall.program settings) s a

/-! ### The phases of the programs -/

/-- Where the program of a process stands. -/
inductive Phase where
  /-- It has ended, or it has not started. -/
  | idle
  | dequeuing
  /-- `dequeue_job` has moved the entry of the job to the processing list. -/
  | moved (job : Job)
  /-- It has read the clock, and is about to take the entry out. -/
  | stamped (job : Job) (now : Datetime)
  /-- It has taken the entry out, and is about to write the one with the start of processing. -/
  | taken (job : Job) (now : Datetime)
  /-- It has returned the job. -/
  | started (job : Job)
  | reclaiming
  | listing (now : Datetime)
  /-- The loop of the reclaim. -/
  | scanning (now : Datetime) (rawJobs : List String) (reclaimedCount : ℕ)
  /-- The loop has taken out the entry of the job, and is about to return it to the main list. -/
  | restoring (job : Job) (now : Datetime) (rawJobs : List String) (reclaimedCount : ℕ)

namespace Phase

/-- The rest of the program. -/
def program (settings : WorkerSettings) : Phase → QueueProg (Option Job)
  | .idle => .ret none
  | .dequeuing => dequeueJob
  | .moved job => startProcessing job.toJson
  | .stamped job now =>
      (lrem .processing job.toJson).bind fun _ =>
        (lpush .processing (job.withProcessingStartedAt none now).toJson).bind fun _ =>
          .ret (some (job.withProcessingStartedAt none now))
  | .taken job now =>
      (lpush .processing (job.withProcessingStartedAt none now).toJson).bind fun _ =>
        .ret (some (job.withProcessingStartedAt none now))
  | .started job => .ret (some job)
  | .reclaiming => (reclaimStaleProcessingJobs settings).bind fun _ => .ret none
  | .listing now =>
      ((lrangeAll .processing).bind fun rawJobs => reclaimLoop settings now rawJobs 0).bind
        fun _ => .ret none
  | .scanning now rawJobs n => (reclaimLoop settings now rawJobs n).bind fun _ => .ret none
  | .restoring job now rawJobs n =>
      (lpush .main job.withoutProcessingStartedAt.toJson).bind fun _ =>
        (reclaimLoop settings now rawJobs (n + 1)).bind fun _ => .ret none

/-- What the process does, if it has not ended. -/
def call? : Phase → Option ReaperCall
  | .idle => none
  | .dequeuing | .moved _ | .stamped _ _ | .taken _ _ | .started _ => some .dequeue
  | .reclaiming | .listing _ | .scanning _ _ _ | .restoring _ _ _ _ => some .reclaim

/-- The first phase of a call. -/
def start : ReaperCall → Phase
  | .dequeue => .dequeuing
  | .reclaim => .reclaiming

/-- The job whose entry a dequeue has moved and not yet taken out. -/
def movedJob : Phase → Option Job
  | .moved job => some job
  | .stamped job _ => some job
  | _ => none

/-- The job whose entry is in the hands of the process. -/
def heldJob : Phase → Option Job
  | .taken job _ => some job
  | .restoring job _ _ _ => some job
  | _ => none

/-- The reading of the clock of a reclaim. -/
def reading : Phase → Option Datetime
  | .listing now => some now
  | .scanning now _ _ => some now
  | .restoring _ now _ _ => some now
  | _ => none

/-- The entries that a reclaim goes through. -/
def rawJobs : Phase → List String
  | .scanning _ rawJobs _ => rawJobs
  | .restoring _ _ rawJobs _ => rawJobs
  | _ => []

/-- The worker has moved the entry of the job at `since` at the earliest, and has not finished the
job. -/
def Holds (id : String) (since : ℕ) : Phase → Prop
  | .moved job => job.id = id
  | .stamped job now => job.id = id ∧ since ≤ now.micros
  | .taken job now => job.id = id ∧ since ≤ now.micros
  | .started job => job.id = id ∧
      ∃ now : Datetime, job.processingStartedAt = some now.isoformat ∧ since ≤ now.micros
  | _ => False

/-- The entry is stale: its processing started a visibility timeout before the reading, if it has a
start. -/
def Stale (settings : WorkerSettings) (now : Datetime) (job : Job) : Prop :=
  ∀ t : Datetime, job.processingStartedAt = some t.isoformat →
    t.micros + settings.processingVisibilityTimeoutSeconds * 1000000 ≤ now.micros

/-- What one command does to the phase of its process and to the main and the processing list. -/
inductive Move (settings : WorkerSettings) (e : Env) :
    Phase → List String × List String → Phase → List String × List String → Prop
  | empty {m p} (hlast : m.getLast? = none) : Move settings e .dequeuing (m, p) .idle (m, p)
  | move {m p job} (hlast : m.getLast? = some job.toJson) :
      Move settings e .dequeuing (m, p) (.moved job) (m.dropLast, job.toJson :: p)
  | stamp {m p job} : Move settings e (.moved job) (m, p) (.stamped job e.now) (m, p)
  | keep {m p job} (heq : (job.withProcessingStartedAt none e.now).toJson = job.toJson) :
      Move settings e (.moved job) (m, p) (.started (job.withProcessingStartedAt none e.now)) (m, p)
  | take {m p job now} : Move settings e (.stamped job now) (m, p) (.taken job now)
      (m, p.erase job.toJson)
  | write {m p job now} : Move settings e (.taken job now) (m, p)
      (.started (job.withProcessingStartedAt none now))
      (m, (job.withProcessingStartedAt none now).toJson :: p)
  | read {m p} : Move settings e .reclaiming (m, p) (.listing e.now) (m, p)
  | list {m p now} : Move settings e (.listing now) (m, p) (.scanning now p 0) (m, p)
  | skip {m p now raws raws' n} (hsub : raws' ⊆ raws) :
      Move settings e (.scanning now raws n) (m, p) (.scanning now raws' n) (m, p)
  | reclaim {m p now raws raws' n job} (hsub : raws' ⊆ raws) (hmem : job.toJson ∈ p)
      (hstale : Stale settings now job) :
      Move settings e (.scanning now raws n) (m, p) (.restoring job now raws' n)
        (m, p.erase job.toJson)
  | restore {m p now raws n job} : Move settings e (.restoring job now raws n) (m, p)
      (.scanning now raws (n + 1)) (job.withoutProcessingStartedAt.toJson :: m, p)

/-- A process goes on with its call, or ends it. -/
lemma Move.call?_eq {settings : WorkerSettings} {e : Env} {ph ph' : Phase}
    {l l' : List String × List String} (h : Move settings e ph l ph' l') :
    ph'.call? = none ∨ ph'.call? = ph.call? := by
  cases h with
  | empty _ => exact .inl rfl
  | _ => exact .inr rfl

/-! ### The programs move as the phases say -/

section Programs

variable {settings : WorkerSettings} {e : Env} {now : Datetime} {job : Job} {rawJobs : List String}
  {n : ℕ}

lemma stale_of_isStale (h : isStale settings now job = .ret true) : Stale settings now job := by
  intro t ht
  simp only [isStale, ht, fromisoformat_isoformat, Prog.pure_def, Prog.ret.injEq,
    decide_eq_true_eq] at h
  omega

/-- The loop of a reclaim ends, or goes on with the removal of a stale entry. -/
lemma reclaimLoop_cases (settings : WorkerSettings) (now : Datetime) (n : ℕ)
    (hraws : ∀ raw ∈ rawJobs, IsEntry .univ raw) :
    (∃ count, reclaimLoop settings now rawJobs n = .ret count) ∨
      ∃ job rawJobs', rawJobs' ⊆ rawJobs ∧ Stale settings now job ∧
        reclaimLoop settings now rawJobs n = (lrem .processing job.toJson).bind fun removed =>
          if removed then (lpush .main job.withoutProcessingStartedAt.toJson).bind fun _ =>
            reclaimLoop settings now rawJobs' (n + 1)
          else reclaimLoop settings now rawJobs' n := by
  induction rawJobs with
  | nil => exact .inl ⟨n, rfl⟩
  | cons raw rawJobs ih =>
      obtain ⟨job, rfl, -, hst⟩ := hraws raw List.mem_cons_self
      obtain ⟨stale, hstale⟩ := isStale_eq_ret settings now hst
      rw [reclaimLoop]
      simp only [Job.fromJson_toJson, Prog.getOrRaise, Prog.bind_def, Prog.ret_bind, hstale]
      cases stale with
      | true => exact .inr ⟨job, rawJobs, List.subset_cons_self .., stale_of_isStale hstale, rfl⟩
      | false =>
          rcases ih fun r hr => hraws r (List.mem_cons_of_mem _ hr) with
            hret | ⟨job', rawJobs', hsub, hstale', heq⟩
          · exact .inl hret
          · exact .inr ⟨job', rawJobs', List.Subset.trans hsub (List.subset_cons_self ..), hstale', heq⟩

/-- The main and the processing list. -/
def lists (s : QueueStore) : List String × List String :=
  (s.redis.list .main, s.redis.list .processing)

lemma program_moved : program settings (.moved job) = .call .utcNow fun now =>
    if (job.withProcessingStartedAt none now).toJson = job.toJson then
      .ret (some (job.withProcessingStartedAt none now))
    else program settings (.stamped job now) := by
  simp only [program, startProcessing, Job.fromJson_toJson]
  rfl

/-- A dequeue that has not begun. -/
lemma eq_dequeuing {ph : Phase} (h : dequeueJob = ph.program settings)
    (hcall : ∀ r, ph.call? = some r → r = .dequeue) : ph = .dequeuing := by
  cases ph with
  | dequeuing => rfl
  | moved job =>
      rw [program_moved] at h
      nomatch h
  | idle | started job | stamped job now | taken job now => nomatch h
  | _ => exact nomatch hcall .reclaim rfl

/-- A reclaim that is about to take an entry has found it stale. -/
lemma stale_of_lrem {ph : Phase} {raw : String} {k : Bool → QueueProg (Option Job)}
    (h : .call (.redis (.lrem .processing raw)) k = ph.program settings)
    (hcall : ∀ r, ph.call? = some r → r = .reclaim)
    (hraws : ∀ raw ∈ ph.rawJobs, IsEntry .univ raw) :
    ∃ job now, raw = job.toJson ∧ ph.reading = some now ∧ Stale settings now job := by
  cases ph with
  | scanning now rawJobs n =>
      have hraws : ∀ raw ∈ rawJobs, IsEntry .univ raw := hraws
      rcases reclaimLoop_cases settings now n hraws with
        ⟨count, hret⟩ | ⟨job, rawJobs', hsub, hstale, heq⟩
      · simp [program, hret] at h
      · rw [program, heq] at h
        cases h
        exact ⟨job, now, rfl, rfl, hstale⟩
  | idle | reclaiming | listing now | restoring job now rawJobs n => nomatch h
  | _ => exact nomatch hcall .dequeue rfl

/-- **Every command of a program is a move of its phase.** -/
theorem move_of_interp {s t : QueueStore} {ph : Phase}
    (hs : ∀ raw ∈ s.redis.list .main, IsEntry .univ raw)
    (hraws : ∀ raw ∈ ph.rawJobs, IsEntry .univ raw) {c : Command}
    {k : c.Reply → QueueProg (Option Job)} (hp : ph.program settings = .call c k)
    {x : Except JobError c.Reply} (h : interp c e s = some (x, t)) :
    ∃ r ph', x = .ok r ∧ k r = ph'.program settings ∧ Move settings e ph (lists s) ph' (lists t) ∧
      ∀ job now raws n, ph' = .restoring job now raws n →
        c = .redis (.lrem .processing job.toJson) := by
  cases ph with
  | idle => simp [program] at hp
  | dequeuing =>
      cases hp
      obtain ⟨rfl, rfl⟩ := Prod.mk.inj (Option.some.inj h)
      have hreply : (((Redis.Command.rpoplpush .main .processing).exec s.redis).1 : Option String) =
          (s.redis.list .main).getLast? := Redis.Command.exec_rpoplpush_reply
      rcases hlast : (s.redis.list .main).getLast? with _ | raw
      · refine ⟨none, .idle, congrArg _ (hreply.trans hlast), rfl, ?_⟩
        have hlists : lists { s with redis :=
            (Redis.Command.exec (.rpoplpush .main .processing) s.redis).2 } = lists s := by
          simp [lists, Redis.Command.exec, hlast]
        rw [hlists]
        exact ⟨.empty hlast, fun _ _ _ _ h => by cases h⟩
      · obtain ⟨job, rfl, -, -⟩ := hs raw (List.mem_of_getLast? hlast)
        refine ⟨some job.toJson, .moved job, congrArg _ (hreply.trans hlast), rfl, ?_⟩
        have hlists : lists { s with redis :=
            (Redis.Command.exec (.rpoplpush .main .processing) s.redis).2 } =
            ((s.redis.list .main).dropLast, job.toJson :: s.redis.list .processing) := by
          simp [lists, Redis.Command.exec, hlast]
        rw [hlists]
        exact ⟨.move hlast, fun _ _ _ _ h => by cases h⟩
  | moved job =>
      rw [program_moved] at hp
      cases hp
      obtain ⟨rfl, rfl⟩ := Prod.mk.inj (Option.some.inj h)
      by_cases heq : (job.withProcessingStartedAt none e.now).toJson = job.toJson
      · exact ⟨_, .started _, rfl, if_pos heq, .keep heq, fun _ _ _ _ h => by cases h⟩
      · exact ⟨_, .stamped job e.now, rfl, if_neg heq, .stamp, fun _ _ _ _ h => by cases h⟩
  | stamped job now =>
      cases hp
      obtain ⟨rfl, rfl⟩ := Prod.mk.inj (Option.some.inj h)
      exact ⟨_, .taken job now, rfl, rfl, .take, fun _ _ _ _ h => by cases h⟩
  | taken job now =>
      cases hp
      obtain ⟨rfl, rfl⟩ := Prod.mk.inj (Option.some.inj h)
      exact ⟨_, .started _, rfl, rfl, .write, fun _ _ _ _ h => by cases h⟩
  | started job => simp [program] at hp
  | reclaiming =>
      cases hp
      obtain ⟨rfl, rfl⟩ := Prod.mk.inj (Option.some.inj h)
      exact ⟨_, .listing e.now, rfl, rfl, .read, fun _ _ _ _ h => by cases h⟩
  | listing now =>
      cases hp
      obtain ⟨rfl, rfl⟩ := Prod.mk.inj (Option.some.inj h)
      exact ⟨_, .scanning now _ 0, rfl, rfl, .list, fun _ _ _ _ h => by cases h⟩
  | scanning now rawJobs n =>
      have hraws : ∀ raw ∈ rawJobs, IsEntry .univ raw := hraws
      rcases reclaimLoop_cases settings now n hraws with
        ⟨count, hret⟩ | ⟨job, rawJobs', hsub, hstale, heq⟩
      · simp [program, hret] at hp
      · rw [program, heq] at hp
        cases hp
        obtain ⟨rfl, rfl⟩ := Prod.mk.inj (Option.some.inj h)
        by_cases hmem : job.toJson ∈ s.redis.list .processing
        · refine ⟨true, .restoring job now rawJobs' n, congrArg _ (decide_eq_true hmem), rfl,
            .reclaim hsub hmem hstale, ?_⟩
          rintro job' _ _ _ ⟨⟩
          rfl
        · refine ⟨false, .scanning now rawJobs' n, congrArg _ (decide_eq_false hmem), rfl, ?_⟩
          have hlists : lists { s with redis :=
              (Redis.Command.exec (.lrem .processing job.toJson) s.redis).2 } = lists s := by
            simp [lists, Redis.Command.exec, List.erase_of_not_mem hmem]
          rw [hlists]
          exact ⟨.skip hsub, fun _ _ _ _ h => by cases h⟩
  | restoring job now rawJobs n =>
      cases hp
      obtain ⟨rfl, rfl⟩ := Prod.mk.inj (Option.some.inj h)
      exact ⟨_, .scanning now rawJobs (n + 1), rfl, rfl, .restore, fun _ _ _ _ h => by cases h⟩

end Programs

end Phase

/-! ### Who has the entries -/

/-- A state of the system: the phases of the processes, the two lists, and the clock. -/
structure View (ι : Type*) where
  phase : ι → Phase
  main : List String
  processing : List String
  clock : ℕ

namespace View

variable {ι : Type*}

/-- How many entries the job with this id has. -/
def count (x : View ι) (id : String) : ℕ :=
  x.main.countP (hasId id) + x.processing.countP (hasId id)

/-- Every job has one entry at most, and where a process is about to replace or to return an entry,
the entry is where the process expects it, and nobody else has it. -/
structure Owned (x : View ι) : Prop where
  entries : ∀ raw, raw ∈ x.main ∨ raw ∈ x.processing → IsEntry .univ raw
  one : ∀ id, x.count id ≤ 1
  moved : ∀ i job, (x.phase i).movedJob = some job → job.toJson ∈ x.processing
  movedOnce : ∀ i j job job', (x.phase i).movedJob = some job → (x.phase j).movedJob = some job' →
    job.id = job'.id → i = j
  held : ∀ i job, (x.phase i).heldJob = some job → x.count job.id = 0
  heldOnce : ∀ i j job job', (x.phase i).heldJob = some job → (x.phase j).heldJob = some job' →
    job.id = job'.id → i = j
  readings : ∀ i now, (x.phase i).reading = some now → now.micros ≤ x.clock
  scanned : ∀ i, ∀ raw ∈ (x.phase i).rawJobs, IsEntry .univ raw

/-- The state after a step of one process. -/
def after [DecidableEq ι] (x : View ι) (i : ι) (ph : Phase) (lists : List String × List String) (clock : ℕ) :
    View ι :=
  ⟨Function.update x.phase i ph, lists.1, lists.2, clock⟩

section Owned

variable {x : View ι} {i : ι} {ph : Phase} {m p : List String} {clock : ℕ} {job : Job}

/-- An entry of a job that is in one of the lists is its only one. -/
lemma Owned.count_eq_one (hx : x.Owned) {raw : String} {id : String} (hid : hasId id raw = true)
    (hmem : raw ∈ x.main ∨ raw ∈ x.processing) : x.count id = 1 := by
  have hpos : 0 < x.count id := by
    rcases hmem with hmem | hmem
    · exact Nat.add_pos_left (List.countP_pos_iff.2 ⟨raw, hmem, hid⟩) _
    · exact Nat.add_pos_right _ (List.countP_pos_iff.2 ⟨raw, hmem, hid⟩)
  have hone := hx.one id
  omega

/-- Two entries of one job are the same entry of the same list. -/
lemma Owned.eq_of_mem (hx : x.Owned) {raw raw' : String} {id : String} (hid : hasId id raw = true)
    (hid' : hasId id raw' = true) (hmem : raw ∈ x.processing) :
    raw' ∉ x.main ∧ (raw' ∈ x.processing → raw' = raw) := by
  have hone := hx.one id
  have hpos : 0 < x.processing.countP (hasId id) := List.countP_pos_iff.2 ⟨raw, hmem, hid⟩
  constructor
  · intro hmain
    have hpos' : 0 < x.main.countP (hasId id) := List.countP_pos_iff.2 ⟨raw', hmain, hid'⟩
    simp only [count] at hone
    omega
  · intro hmem'
    by_contra hne
    have hrest : 0 < (x.processing.erase raw).countP (hasId id) :=
      List.countP_pos_iff.2 ⟨raw', (List.mem_erase_of_ne hne).2 hmem', hid'⟩
    have hsum := (List.perm_cons_erase hmem).countP_eq (hasId id)
    rw [List.countP_cons_of_pos hid] at hsum
    simp only [count] at hone
    omega

variable [DecidableEq ι]

/-- The general rule: what has to be shown of a step of one process. -/
lemma Owned.after (hx : x.Owned) (hentries : ∀ raw, raw ∈ m ∨ raw ∈ p → IsEntry .univ raw)
    (hone : ∀ id, (x.after i ph (m, p) clock).count id ≤ 1)
    (hmoved : ∀ job, ph.movedJob = some job → job.toJson ∈ p ∧
      ∀ j job', j ≠ i → (x.phase j).movedJob = some job' → job'.id ≠ job.id)
    (hstill : ∀ j job, j ≠ i → (x.phase j).movedJob = some job → job.toJson ∈ p)
    (hheld : ∀ job, ph.heldJob = some job → (x.after i ph (m, p) clock).count job.id = 0 ∧
      ∀ j job', j ≠ i → (x.phase j).heldJob = some job' → job'.id ≠ job.id)
    (hnone : ∀ j job, j ≠ i → (x.phase j).heldJob = some job →
      (x.after i ph (m, p) clock).count job.id = 0)
    (hclock : x.clock ≤ clock) (hreading : ∀ now, ph.reading = some now → now.micros ≤ clock)
    (hraws : ∀ raw ∈ ph.rawJobs, IsEntry .univ raw) : (x.after i ph (m, p) clock).Owned := by
  have hphase : ∀ j, j = i ∧ (x.after i ph (m, p) clock).phase j = ph ∨
      j ≠ i ∧ (x.after i ph (m, p) clock).phase j = x.phase j := fun j => by
    rcases eq_or_ne j i with rfl | hj
    · exact .inl ⟨rfl, Function.update_self ..⟩
    · exact .inr ⟨hj, Function.update_of_ne hj ..⟩
  refine ⟨hentries, hone, fun j job hj => ?_, fun j k job job' hj hk hid => ?_, fun j job hj => ?_,
    fun j k job job' hj hk hid => ?_, fun j now hj => ?_, fun j raw hj => ?_⟩
  · rcases hphase j with ⟨rfl, heq⟩ | ⟨hne, heq⟩ <;> rw [heq] at hj
    · exact (hmoved job hj).1
    · exact hstill j job hne hj
  · rcases hphase j with ⟨rfl, heq⟩ | ⟨hne, heq⟩ <;> rw [heq] at hj <;>
      rcases hphase k with ⟨rfl, heq'⟩ | ⟨hne', heq'⟩ <;> rw [heq'] at hk
    · exact absurd hid.symm ((hmoved job hj).2 k job' hne' hk)
    · exact absurd hid ((hmoved job' hk).2 j job hne hj)
    · exact hx.movedOnce j k job job' hj hk hid
  · rcases hphase j with ⟨rfl, heq⟩ | ⟨hne, heq⟩ <;> rw [heq] at hj
    · exact (hheld job hj).1
    · exact hnone j job hne hj
  · rcases hphase j with ⟨rfl, heq⟩ | ⟨hne, heq⟩ <;> rw [heq] at hj <;>
      rcases hphase k with ⟨rfl, heq'⟩ | ⟨hne', heq'⟩ <;> rw [heq'] at hk
    · exact absurd hid.symm ((hheld job hj).2 k job' hne' hk)
    · exact absurd hid ((hheld job' hk).2 j job hne hj)
    · exact hx.heldOnce j k job job' hj hk hid
  · rcases hphase j with ⟨rfl, heq⟩ | ⟨hne, heq⟩ <;> rw [heq] at hj
    · exact hreading now hj
    · exact (hx.readings j now hj).trans hclock
  · rcases hphase j with ⟨rfl, heq⟩ | ⟨hne, heq⟩ <;> rw [heq] at hj
    · exact hraws raw hj
    · exact hx.scanned j raw hj

/-- A step that leaves the lists alone. -/
lemma Owned.quiet (hx : x.Owned)
    (hmoved : ∀ job, ph.movedJob = some job → (x.phase i).movedJob = some job)
    (hheld : ∀ job, ph.heldJob = some job → (x.phase i).heldJob = some job)
    (hclock : x.clock ≤ clock) (hreading : ∀ now, ph.reading = some now → now.micros ≤ clock)
    (hraws : ∀ raw ∈ ph.rawJobs, IsEntry .univ raw) :
    (x.after i ph (x.main, x.processing) clock).Owned := by
  refine hx.after hx.entries hx.one (fun job hjob => ⟨hx.moved i job (hmoved job hjob),
    fun j job' hj hjob' hid => ?_⟩) (fun j job _ => hx.moved j job) (fun job hjob =>
    ⟨hx.held i job (hheld job hjob), fun j job' hj hjob' hid => ?_⟩) (fun j job _ => hx.held j job)
    hclock hreading hraws
  · exact hj (hx.movedOnce j i job' job hjob' (hmoved job hjob) hid)
  · exact hj (hx.heldOnce j i job' job hjob' (hheld job hjob) hid)

/-- The step that moves the last entry of the main list to the processing list. -/
lemma Owned.move (hx : x.Owned) (hlast : x.main.getLast? = some job.toJson)
    (hclock : x.clock ≤ clock) :
    (x.after i (.moved job) (x.main.dropLast, job.toJson :: x.processing) clock).Owned := by
  have hmain : job.toJson ∈ x.main := List.mem_of_getLast? hlast
  have hcount : ∀ id, (x.after i (.moved job) (x.main.dropLast, job.toJson :: x.processing)
      clock).count id = x.count id := fun id => by
    have hdrop := Redis.countP_dropLast_add x.main (hasId id)
    rw [hlast] at hdrop
    simp only [Option.toList_some, List.countP_cons, List.countP_nil] at hdrop
    simp only [count, View.after, List.countP_cons]
    omega
  refine hx.after (fun raw hraw => hx.entries raw ?_) (fun id => (hcount id).trans_le (hx.one id))
    (fun job' hjob' => ?_) (fun j job' _ hjob' => List.mem_cons_of_mem _ (hx.moved j job' hjob'))
    nofun (fun j job' _ hjob' => (hcount _).trans (hx.held j job' hjob')) hclock nofun nofun
  · rcases hraw with hraw | hraw
    · exact .inl (List.mem_of_mem_dropLast hraw)
    · rcases List.mem_cons.1 hraw with rfl | hraw
      · exact .inl hmain
      · exact .inr hraw
  · obtain rfl : job = job' := Option.some.inj hjob'
    refine ⟨List.mem_cons_self, fun j job' _ hj hid => ?_⟩
    have hid' : hasId job.id job'.toJson = true := by simp [hid]
    exact (hx.eq_of_mem hid' (by simp) (hx.moved j job' hj)).1 hmain

/-- The step that takes an entry out of the processing list which nobody else has moved there. -/
lemma Owned.remove (hx : x.Owned) (hmem : job.toJson ∈ x.processing)
    (hother : ∀ j job', j ≠ i → (x.phase j).movedJob = some job' → job' ≠ job)
    (hmoved : ph.movedJob = none) (hheld : ph.heldJob = some job) (hclock : x.clock ≤ clock)
    (hreading : ∀ now, ph.reading = some now → now.micros ≤ clock)
    (hraws : ∀ raw ∈ ph.rawJobs, IsEntry .univ raw) :
    (x.after i ph (x.main, x.processing.erase job.toJson) clock).Owned := by
  have hcount : ∀ id, (x.after i ph (x.main, x.processing.erase job.toJson) clock).count id +
      (if job.id == id then 1 else 0) = x.count id := fun id => by
    have hperm := (List.perm_cons_erase hmem).countP_eq (hasId id)
    rw [List.countP_cons, hasId_toJson] at hperm
    simp only [count, View.after]
    omega
  have hone : x.count job.id = 1 := hx.count_eq_one (by simp) (.inr hmem)
  refine hx.after (fun raw hraw => hx.entries raw (hraw.imp_right List.mem_of_mem_erase))
    (fun id => ?_) (fun job' hjob' => ?_) (fun j job' hj hjob' => ?_) (fun job' hjob' => ?_)
    (fun j job' _ hjob' => ?_) hclock hreading hraws
  · have := hcount id
    have := hx.one id
    omega
  · simp [hmoved] at hjob'
  · refine (List.mem_erase_of_ne fun heq => ?_).2 (hx.moved j job' hjob')
    exact hother j job' hj hjob' (Job.toJson_injective heq)
  · obtain rfl : job = job' := Option.some.inj (hheld.symm.trans hjob')
    have hzero := hcount job.id
    rw [hone] at hzero
    refine ⟨by simpa using hzero, fun j job' _ hj hid => ?_⟩
    have hnone := hx.held j job' hj
    rw [hid, hone] at hnone
    exact one_ne_zero hnone
  · have := hcount job'.id
    have := hx.held j job' hjob'
    omega

/-- The step that puts the entry in the hands of the process into one of the lists. -/
lemma Owned.insert (hx : x.Owned) (new : Job) (hheld : (x.phase i).heldJob = some job)
    (hid : new.id = job.id) (hst : new.Stamped)
    (hlists : m = new.toJson :: x.main ∧ p = x.processing ∨
      m = x.main ∧ p = new.toJson :: x.processing)
    (hmoved : ph.movedJob = none) (hheld' : ph.heldJob = none) (hclock : x.clock ≤ clock)
    (hreading : ∀ now, ph.reading = some now → now.micros ≤ clock)
    (hraws : ∀ raw ∈ ph.rawJobs, IsEntry .univ raw) :
    (x.after i ph (m, p) clock).Owned := by
  have hcount : ∀ id, (x.after i ph (m, p) clock).count id =
      x.count id + if job.id == id then 1 else 0 := fun id => by
    rcases hlists with ⟨rfl, rfl⟩ | ⟨rfl, rfl⟩ <;>
      simp only [count, View.after, List.countP_cons, hasId_toJson, hid] <;> omega
  have hnone := hx.held i job hheld
  refine hx.after (fun raw hraw => ?_) (fun id => ?_) (fun job' hjob' => ?_)
    (fun j job' hj hjob' => ?_) (fun job' hjob' => ?_) (fun j job' hj hjob' => ?_) hclock hreading
    hraws
  · have hnew : raw = new.toJson ∨ raw ∈ x.main ∨ raw ∈ x.processing := by
      rcases hlists with ⟨rfl, rfl⟩ | ⟨rfl, rfl⟩ <;> simp only [List.mem_cons] at hraw <;> tauto
    rcases hnew with rfl | hraw
    · exact ⟨new, rfl, trivial, hst⟩
    · exact hx.entries raw hraw
  · rw [hcount]
    split_ifs with heq
    · rw [← beq_iff_eq.1 heq, hnone]
    · exact hx.one id
  · simp [hmoved] at hjob'
  · have hmem := hx.moved j job' hjob'
    rcases hlists with ⟨rfl, rfl⟩ | ⟨rfl, rfl⟩
    · exact hmem
    · exact List.mem_cons_of_mem _ hmem
  · simp [hheld'] at hjob'
  · have hne : job.id ≠ job'.id := fun heq => hj (hx.heldOnce j i job' job hjob' hheld heq.symm)
    rw [hcount, hx.held j job' hjob', if_neg (by simpa using hne)]

/-- **A move keeps the entries owned**, if no reclaim takes an entry that a worker has moved and is
about to replace. -/
theorem Owned.step {settings : WorkerSettings} {e : Env} {l : List String × List String}
    (hx : x.Owned) (h : Phase.Move settings e (x.phase i) (x.main, x.processing) ph l)
    (hclock : x.clock ≤ e.now.micros)
    (hspares : ∀ job now raws n, ph = .restoring job now raws n →
      ∀ j, (x.phase j).movedJob ≠ some job) : (x.after i ph l e.now.micros).Owned := by
  have hreading := hx.readings i
  have hscanned := hx.scanned i
  generalize hph : x.phase i = ph₀ at h
  generalize hl : (x.main, x.processing) = l₀ at h
  rw [hph] at hreading hscanned
  have hlate : ∀ now, ph₀.reading = some now → now.micros ≤ e.now.micros :=
    fun now hnow => (hreading now hnow).trans hclock
  cases h with
  | empty hlast =>
      obtain ⟨rfl, rfl⟩ := Prod.mk.inj hl
      exact hx.quiet nofun nofun hclock nofun nofun
  | move hlast =>
      obtain ⟨rfl, rfl⟩ := Prod.mk.inj hl
      exact hx.move hlast hclock
  | stamp =>
      obtain ⟨rfl, rfl⟩ := Prod.mk.inj hl
      exact hx.quiet (fun job hjob => by rw [hph]; exact hjob) nofun hclock nofun nofun
  | keep heq =>
      obtain ⟨rfl, rfl⟩ := Prod.mk.inj hl
      exact hx.quiet nofun nofun hclock nofun nofun
  | @take m p job now =>
      obtain ⟨rfl, rfl⟩ := Prod.mk.inj hl
      have hmoved : (x.phase i).movedJob = some job := by rw [hph]; rfl
      refine hx.remove (hx.moved i job hmoved) (fun j job' hj hjob' heq => ?_) rfl rfl hclock nofun
        nofun
      exact hj (hx.movedOnce j i job' job hjob' hmoved (by rw [heq]))
  | @write m p job now =>
      obtain ⟨rfl, rfl⟩ := Prod.mk.inj hl
      have hheld : (x.phase i).heldJob = some job := by rw [hph]; rfl
      exact hx.insert (job.withProcessingStartedAt none now) hheld rfl
        Job.stamped_withProcessingStartedAt (.inr ⟨rfl, rfl⟩) rfl rfl hclock
        nofun nofun
  | read =>
      obtain ⟨rfl, rfl⟩ := Prod.mk.inj hl
      refine hx.quiet nofun nofun hclock (fun now hnow => ?_) nofun
      rw [← Option.some.inj hnow]
  | list =>
      obtain ⟨rfl, rfl⟩ := Prod.mk.inj hl
      exact hx.quiet nofun nofun hclock hlate fun raw hraw => hx.entries raw (.inr hraw)
  | skip hsub =>
      obtain ⟨rfl, rfl⟩ := Prod.mk.inj hl
      exact hx.quiet nofun nofun hclock hlate fun raw hraw => hscanned raw (hsub hraw)
  | @reclaim m p now raws raws' n job hsub hmem hstale =>
      obtain ⟨rfl, rfl⟩ := Prod.mk.inj hl
      refine hx.remove hmem (fun j job' _ hjob' heq => ?_) rfl rfl hclock hlate
        fun raw hraw => hscanned raw (hsub hraw)
      exact hspares job now raws' n rfl j (heq ▸ hjob')
  | @restore m p now raws n job =>
      obtain ⟨rfl, rfl⟩ := Prod.mk.inj hl
      have hheld : (x.phase i).heldJob = some job := by rw [hph]; rfl
      exact hx.insert job.withoutProcessingStartedAt hheld rfl (Job.stamped_of_none rfl) (.inl ⟨rfl, rfl⟩) rfl rfl hclock hlate
        hscanned

end Owned

/-! ### A job that is being processed -/

/-- The worker processes the job, and until the visibility timeout is over the only entry of the job
is the worker's. -/
structure Processes (settings : WorkerSettings) (i : ι) (id : String) (since : ℕ) (x : View ι) :
    Prop where
  since_le : since ≤ x.clock
  holds : (x.phase i).Holds id since
  owns : ∀ job, x.phase i = .started job →
    job.toJson ∈ x.processing ∧ (∀ j job', (x.phase j).movedJob = some job' → job'.id ≠ id) ∨
      since + settings.processingVisibilityTimeoutSeconds * 1000000 ≤ x.clock

section Processes

variable [DecidableEq ι] {settings : WorkerSettings} {x : View ι} {i j : ι} {id : String} {since : ℕ}
  {e : Env} {ph : Phase} {l : List String × List String}

/-- The worker goes on. -/
lemma Processes.step_self (h : x.Processes settings i id since) (hx : x.Owned)
    (hmove : Phase.Move settings e (x.phase i) (x.main, x.processing) ph l)
    (hclock : x.clock ≤ e.now.micros) :
    (x.after i ph l e.now.micros).Processes settings i id since := by
  have hholds := h.holds
  have hmoved := hx.moved i
  have hheld := hx.held i
  have honce := hx.movedOnce i
  have hself : ∀ ph l clock, (x.after i ph l clock).phase i = ph := fun _ _ _ =>
    Function.update_self ..
  generalize hph : x.phase i = ph₀ at hmove hholds hmoved hheld honce
  generalize hl : (x.main, x.processing) = l₀ at hmove
  refine ⟨h.since_le.trans hclock, ?_, fun job hjob => ?_⟩
  · rw [hself]
    cases hmove with
    | stamp => exact ⟨hholds, h.since_le.trans hclock⟩
    | keep heq => exact ⟨hholds, e.now, rfl, h.since_le.trans hclock⟩
    | take => exact hholds
    | @write m p job now => exact ⟨hholds.1, now, rfl, hholds.2⟩
    | _ => exact hholds.elim
  · rw [hself] at hjob
    left
    cases hmove with
    | @keep m p job' heq =>
        obtain ⟨rfl, rfl⟩ := Prod.mk.inj hl
        obtain rfl := Phase.started.inj hjob
        refine ⟨?_, fun j job'' hj hid => ?_⟩
        · have hmem := hmoved job' rfl
          rwa [← heq] at hmem
        · rcases eq_or_ne j i with rfl | hne
          · simp [hself, Phase.movedJob] at hj
          · have hj' : (x.phase j).movedJob = some job'' := by
              simpa [View.after, hne] using hj
            exact hne (honce j job' job'' rfl hj' (hholds.trans hid.symm)).symm
    | @write m p job' now =>
        obtain ⟨rfl, rfl⟩ := Prod.mk.inj hl
        obtain rfl := Phase.started.inj hjob
        refine ⟨List.mem_cons_self, fun j job'' hj hid => ?_⟩
        rcases eq_or_ne j i with rfl | hne
        · simp [hself, Phase.movedJob] at hj
        · have hj' : (x.phase j).movedJob = some job'' := by
            simpa [View.after, hne] using hj
          have hone : x.count id = 1 :=
            hx.count_eq_one (by simp [hid]) (.inr (hx.moved j job'' hj'))
          have hzero := hheld job' rfl
          rw [hholds.1, hone] at hzero
          exact one_ne_zero hzero
    | _ => simp at hjob

/-- Another process does something. -/
lemma Processes.step_other (h : x.Processes settings i id since) (hx : x.Owned) (hij : i ≠ j)
    (hmove : Phase.Move settings e (x.phase j) (x.main, x.processing) ph l)
    (hclock : x.clock ≤ e.now.micros) :
    (x.after j ph l e.now.micros).Processes settings i id since := by
  have hphase : ∀ ph l clock, (x.after j ph l clock).phase i = x.phase i := fun _ _ _ =>
    Function.update_of_ne hij ..
  refine ⟨h.since_le.trans hclock, by rw [hphase]; exact h.holds, fun job hjob => ?_⟩
  rw [hphase] at hjob
  obtain ⟨hid, now, hnow, hsince⟩ : job.id = id ∧
      ∃ now : Datetime, job.processingStartedAt = some now.isoformat ∧ since ≤ now.micros := by
    have hholds := h.holds
    rw [hjob] at hholds
    exact hholds
  rcases h.owns job hjob with ⟨hmem, hothers⟩ | hlate
  · have hothersj := hothers j
    have hreading := hx.readings j
    generalize hph : x.phase j = ph₀ at hmove hothersj hreading
    generalize hl : (x.main, x.processing) = l₀ at hmove
    -- what is left to show when the entry of the worker is not the one that is taken out
    have hstays : job.toJson ∈ l.2 → (∀ job', ph.movedJob = some job' → job'.id ≠ id) →
        job.toJson ∈ (x.after j ph l e.now.micros).processing ∧ (∀ k job',
          ((x.after j ph l e.now.micros).phase k).movedJob = some job' → job'.id ≠ id) ∨
          since + settings.processingVisibilityTimeoutSeconds * 1000000 ≤
            (x.after j ph l e.now.micros).clock := by
      intro hmem' hmoved
      refine .inl ⟨hmem', fun k job' hk => ?_⟩
      rcases eq_or_ne k j with rfl | hne
      · exact hmoved job' (by simpa [View.after] using hk)
      · exact hothers k job' (by simpa [View.after, hne] using hk)
    cases hmove with
    | @move m p job' hlast =>
        obtain ⟨rfl, rfl⟩ := Prod.mk.inj hl
        refine hstays (List.mem_cons_of_mem _ hmem) fun job'' hjob'' hid'' => ?_
        obtain rfl : job' = job'' := Option.some.inj hjob''
        have hown : hasId id job.toJson = true := by simp [hid]
        exact (hx.eq_of_mem hown (by simp [hid'']) hmem).1 (List.mem_of_getLast? hlast)
    | stamp =>
        obtain ⟨rfl, rfl⟩ := Prod.mk.inj hl
        exact hstays hmem hothersj
    | @take m p job' now' =>
        obtain ⟨rfl, rfl⟩ := Prod.mk.inj hl
        refine hstays ((List.mem_erase_of_ne fun heq => ?_).2 hmem) nofun
        exact hothersj job' rfl (Job.toJson_injective heq ▸ hid)
    | @reclaim m p reading raws raws' n job' hsub hmem' hstale =>
        obtain ⟨rfl, rfl⟩ := Prod.mk.inj hl
        by_cases heq : job.toJson = job'.toJson
        · obtain rfl := Job.toJson_injective heq
          have hstale' := hstale now hnow
          have hreading' := hreading reading rfl
          right
          show _ ≤ e.now.micros
          omega
        · exact hstays ((List.mem_erase_of_ne heq).2 hmem) nofun
    | write =>
        obtain ⟨rfl, rfl⟩ := Prod.mk.inj hl
        exact hstays (List.mem_cons_of_mem _ hmem) nofun
    | _ =>
        obtain ⟨rfl, rfl⟩ := Prod.mk.inj hl
        exact hstays hmem nofun
  · exact .inr (hlate.trans hclock)

/-- A new process changes nothing for the others. -/
lemma Processes.start (h : x.Processes settings i id since) (hj : x.phase j = .idle)
    (q : ReaperCall) :
    (x.after j (.start q) (x.main, x.processing) x.clock).Processes settings i id since := by
  have hij : i ≠ j := by
    rintro rfl
    have hholds := h.holds
    rw [hj] at hholds
    exact hholds
  have hphase : (x.after j (.start q) (x.main, x.processing) x.clock).phase i = x.phase i :=
    Function.update_of_ne hij ..
  refine ⟨h.since_le, by rw [hphase]; exact h.holds, fun job hjob => ?_⟩
  rw [hphase] at hjob
  refine (h.owns job hjob).imp_left fun hown => ⟨hown.1, fun k job' hk => ?_⟩
  rcases eq_or_ne k j with rfl | hne
  · cases q <;> simp [View.after, Phase.start, Phase.movedJob] at hk
  · exact hown.2 k job' (by simpa [View.after, hne] using hk)

end Processes

end View

/-! ### The system -/

/-- The program is that of a worker that has moved the entry to the processing list, and has not yet
taken it out there. -/
def Replaces (raw : String) (p : QueueProg (Option Job)) : Prop :=
  p = startProcessing raw ∨ ∃ k, p = .call (.redis (.lrem .processing raw)) k

/-- The jobs of the main and the processing list have one entry each, and their start of processing,
if there is one, is a time. -/
structure QueueStore.OneEntry (s : QueueStore) : Prop where
  entries : ∀ raw, raw ∈ s.redis.list .main ∨ raw ∈ s.redis.list .processing → IsEntry .univ raw
  one : ∀ id, (s.redis.list .main).countP (hasId id) +
    (s.redis.list .processing).countP (hasId id) ≤ 1

namespace ReaperPool

variable {ι : Type*} {settings : WorkerSettings} {s s' t u u' : ReaperPool ι} {x : View ι}
  {as bs : List (PoolAction ι ReaperCall Env)} {a b : PoolAction ι ReaperCall Env} {e e' : Env}
  {id : String} {i : ι}

/-- How many entries the job with this id has in the main and the processing list. -/
def count (s : ReaperPool ι) (id : String) : ℕ :=
  (s.store.1.redis.list .main).countP (hasId id) +
    (s.store.1.redis.list .processing).countP (hasId id)

/-- No process dies, and no reclaim is about to take an entry out of the processing list that a
worker has just moved there and is about to replace. -/
def Spares (s : ReaperPool ι) : PoolAction ι ReaperCall Env → Prop
  | .start _ _ => True
  | .step i _ => ∀ raw k, s.calls i = some (.reclaim, .call (.redis (.lrem .processing raw)) k) →
      ∀ j p, s.calls j = some (.dequeue, p) → ¬ Replaces raw p
  | .die _ => False

/-- The step with which a worker starts to dequeue the job. -/
def Dequeues (s : ReaperPool ι) (a : PoolAction ι ReaperCall Env) (i : ι) (e : Env) (id : String) :
    Prop :=
  a = .step i e ∧ s.calls i = some (.dequeue, dequeueJob) ∧
    ∃ raw, (s.store.1.redis.list .main).getLast? = some raw ∧ hasId id raw = true

/-- The step with which a reclaim takes the entry of the job out of the processing list. -/
def Reclaims (s : ReaperPool ι) (a : PoolAction ι ReaperCall Env) (e : Env) (id : String) : Prop :=
  ∃ i raw k, a = .step i e ∧
    s.calls i = some (.reclaim, .call (.redis (.lrem .processing raw)) k) ∧
    raw ∈ s.store.1.redis.list .processing ∧ hasId id raw = true

/-- What is seen of a state. -/
structure Sees (settings : WorkerSettings) (s : ReaperPool ι) (x : View ι) : Prop where
  main : x.main = s.store.1.redis.list .main
  processing : x.processing = s.store.1.redis.list .processing
  clock : x.clock = s.store.2
  calls : ∀ i q p, s.calls i = some (q, p) → p = (x.phase i).program settings ∧
    ∀ r, (x.phase i).call? = some r → r = q
  idle : ∀ i, s.calls i = none → x.phase i = .idle

lemma Sees.count_eq (hv : Sees settings s x) : x.count id = s.count id := by
  rw [View.count, count, hv.main, hv.processing]

/-- The phase of a program that takes an entry out as a dequeue does, or is about to. -/
lemma replaces_of_movedJob {ph : Phase} {job : Job} (h : ph.movedJob = some job) :
    ph.call? = some .dequeue ∧ Replaces job.toJson (ph.program settings) := by
  cases ph with
  | moved job' =>
      obtain rfl : job' = job := Option.some.inj h
      exact ⟨rfl, .inl rfl⟩
  | stamped job' now =>
      obtain rfl : job' = job := Option.some.inj h
      exact ⟨rfl, .inr ⟨_, rfl⟩⟩
  | _ => simp [Phase.movedJob] at h

variable [DecidableEq ι]

/-- The phases of the processes that have started. -/
lemma Sees.after {p : QueueProg (Option Job)} {q : ReaperCall} {ph : Phase}
    {l : List String × List String} {store : QueueStore × ℕ} (hv : Sees settings s x)
    (hp : p = ph.program settings) (hq : ∀ r, ph.call? = some r → r = q)
    (hl : l = Phase.lists store.1) :
    Sees settings ⟨store, Function.update s.calls i (some (q, p))⟩ (x.after i ph l store.2) := by
  subst hl
  refine ⟨rfl, rfl, rfl, fun j q' p' hj => ?_, fun j hj => ?_⟩
  · rcases eq_or_ne j i with rfl | hne
    · simp only [Function.update_self, Option.some.injEq, Prod.mk.injEq] at hj
      obtain ⟨rfl, rfl⟩ := hj
      simpa [View.after] using ⟨hp, hq⟩
    · simp only [Function.update_of_ne hne] at hj
      simpa [View.after, hne] using hv.calls j q' p' hj
  · rcases eq_or_ne j i with rfl | hne
    · simp at hj
    · simp only [Function.update_of_ne hne] at hj
      simpa [View.after, hne] using hv.idle j hj

omit [DecidableEq ι] in
/-- No worker has moved the entry that a reclaim may take. -/
lemma not_movedJob_of_spares {job : Job} {k : Bool → QueueProg (Option Job)} {j : ι}
    (hv : Sees settings s x) (hG : Spares s (.step i e))
    (hi : s.calls i = some (.reclaim, .call (.redis (.lrem .processing job.toJson)) k)) :
    (x.phase j).movedJob ≠ some job := by
  intro hj
  obtain ⟨hcall, hreplaces⟩ := replaces_of_movedJob hj
  rcases hcalls : s.calls j with _ | ⟨q, p⟩
  · simp [hv.idle j hcalls, Phase.movedJob] at hj
  · obtain ⟨rfl, hq⟩ := hv.calls j q p hcalls
    obtain rfl := hq _ hcall
    exact hG job.toJson k hi j _ hcalls hreplaces

/-- What a command of a process does to what is seen of the system. -/
lemma sees_command (hv : Sees settings s x) (hx : x.Owned) (hG : Spares s (.step i e))
    (hstep : step settings s (.step i e) = some s') :
    ∃ ph l, Sees settings s' (x.after i ph l e.now.micros) ∧ x.clock ≤ e.now.micros ∧
      Phase.Move settings e (x.phase i) (x.main, x.processing) ph l ∧
      ∀ job now raws n, ph = .restoring job now raws n → ∀ j, (x.phase j).movedJob ≠ some job := by
  rcases Pool.next_cases hstep with ⟨_, _, heq, -⟩ |
    ⟨i', e', q, c, k, p', t, heq, hi, rfl, hcmd⟩ | ⟨_, _, _, heq, -⟩
  · simp at heq
  · obtain ⟨rfl, rfl⟩ := PoolAction.step.inj heq
    obtain ⟨y, hexec, hp'⟩ : ∃ y, interp.timed (fun e => e.now.micros) c e s.store = some (y, t) ∧
        ((∃ z, y = .error z ∧ p' = .raise z) ∨ ∃ r, y = .ok r ∧ p' = k r) := by
      rcases hcmd with ⟨z, hexec, rfl⟩ | ⟨r, hexec, rfl⟩
      · exact ⟨_, hexec, .inl ⟨z, rfl, rfl⟩⟩
      · exact ⟨_, hexec, .inr ⟨r, rfl, rfl⟩⟩
    obtain ⟨hclock, hexec, htime⟩ := Prog.Interp.timed_eq_some hexec
    obtain ⟨hp, hq⟩ := hv.calls i q _ hi
    obtain ⟨r, ph, rfl, hk, hmove, hlrem⟩ := Phase.move_of_interp
      (fun raw hraw => hx.entries raw (.inl (hv.main ▸ hraw))) (hx.scanned i) hp.symm hexec
    obtain rfl : p' = k r := by
      rcases hp' with ⟨z, hz, -⟩ | ⟨r', hr, rfl⟩
      · simp at hz
      · rw [Except.ok.inj hr]
    have hlists : Phase.lists s.store.1 = (x.main, x.processing) := by
      rw [hv.main, hv.processing]
      rfl
    rw [hlists] at hmove
    refine ⟨ph, Phase.lists t.1, ?_, hv.clock ▸ hclock, hmove, ?_⟩
    · rw [← htime]
      refine hv.after hk (fun r hr => ?_) rfl
      rcases hmove.call?_eq with hnone | heq
      · simp [hnone] at hr
      · exact hq r (heq ▸ hr)
    · rintro job now raws n rfl j hj
      obtain rfl := hlrem job now raws n rfl
      obtain rfl : .reclaim = q := hq _ (hmove.call?_eq.resolve_left nofun).symm
      exact not_movedJob_of_spares hv hG hi hj
  · simp at heq

/-- What a step of the system does to what is seen of it. -/
lemma sees_step (hv : Sees settings s x) (hx : x.Owned) (hG : Spares s a)
    (hstep : step settings s a = some s') :
    ∃ x', Sees settings s' x' ∧ x'.Owned ∧
      ∀ i id since, x.Processes settings i id since → x'.Processes settings i id since := by
  cases a with
  | start i q =>
      rcases Pool.next_cases hstep with ⟨i', q', heq, hi, rfl⟩ |
        ⟨_, _, _, _, _, _, _, heq, -⟩ | ⟨_, _, _, heq, -⟩
      · obtain ⟨rfl, rfl⟩ := PoolAction.start.inj heq
        have hlists : Phase.lists s.store.1 = (x.main, x.processing) := by
          rw [hv.main, hv.processing]
          rfl
        have hafter : Sees settings
            ⟨s.store, Function.update s.calls i (some (q, q.program settings))⟩
            (x.after i (.start q) (Phase.lists s.store.1) s.store.2) :=
          hv.after (by cases q <;> rfl) (by cases q <;> simp [Phase.start, Phase.call?]) rfl
        rw [hlists, ← hv.clock] at hafter
        refine ⟨_, hafter, ?_, fun j id since h => h.start (hv.idle i hi) q⟩
        cases q <;> exact hx.quiet nofun nofun le_rfl nofun nofun
      · simp at heq
      · simp at heq
  | step i e =>
      obtain ⟨ph, l, hafter, hclock, hmove, hspares⟩ := sees_command hv hx hG hstep
      refine ⟨_, hafter, hx.step hmove hclock hspares, fun j id since hprocesses => ?_⟩
      rcases eq_or_ne j i with rfl | hne
      · exact hprocesses.step_self hx hmove hclock
      · exact hprocesses.step_other hx hne hmove hclock
  | die i => exact hG.elim

/-- From a state that is seen to be owned a run leads to another one, and what is being processed
stays so. -/
lemma sees_run (hv : Sees settings s x) (hx : x.Owned)
    (hG : Along (step settings) Spares s as) (h : exec (step settings) s as = some t) :
    ∃ y, Sees settings t y ∧ y.Owned ∧
      ∀ i id since, x.Processes settings i id since → y.Processes settings i id since :=
  exec_invariant_along (I := fun t => ∃ y, Sees settings t y ∧ y.Owned ∧
      ∀ i id since, x.Processes settings i id since → y.Processes settings i id since)
    (fun s a t hs hG hst => by
      obtain ⟨y, hy, howned, hkeeps⟩ := hs
      obtain ⟨z, hz, howned', hkeeps'⟩ := sees_step hy howned hG hst
      exact ⟨z, hz, howned', fun i id since h => hkeeps' i id since (hkeeps i id since h)⟩)
    ⟨x, hv, hx, fun _ _ _ => id⟩ hG h

variable {w₀ : QueueStore} {t₀ : ℕ}

omit [DecidableEq ι] in
lemma owned_initial (hw : w₀.OneEntry) : ∃ x, Sees settings (Pool.initial (w₀, t₀) : ReaperPool ι) x ∧
    x.Owned := by
  refine ⟨⟨fun _ => .idle, w₀.redis.list .main, w₀.redis.list .processing, t₀⟩,
    ⟨rfl, rfl, rfl, fun i q p hi => ?_, fun _ _ => rfl⟩, hw.entries, hw.one, ?_, ?_, ?_, ?_, ?_, ?_⟩
  · simp at hi
  all_goals simp [Phase.movedJob, Phase.heldJob, Phase.reading, Phase.rawJobs]

/-- After the step with which a worker starts to dequeue a job it processes the job. -/
lemma processes_of_dequeues (hv : Sees settings s x) (hx : x.Owned) (hG : Spares s a)
    (hstep : step settings s a = some s') (hd : Dequeues s a i e id) :
    ∃ y, Sees settings s' y ∧ y.Owned ∧ y.Processes settings i id e.now.micros := by
  obtain ⟨rfl, hi, raw, hlast, hid⟩ := hd
  obtain ⟨ph, l, hafter, hclock, hmove, hspares⟩ := sees_command hv hx hG hstep
  refine ⟨_, hafter, hx.step hmove hclock hspares, ?_⟩
  have hphase := Phase.eq_dequeuing (hv.calls i _ _ hi).1 (hv.calls i _ _ hi).2
  rw [← hv.main] at hlast
  rw [hphase] at hmove
  generalize hl : (x.main, x.processing) = l₀ at hmove
  have hself : (x.after i ph l e.now.micros).phase i = ph := Function.update_self ..
  cases hmove with
  | empty hnone =>
      obtain ⟨rfl, rfl⟩ := Prod.mk.inj hl
      simp [hnone] at hlast
  | @move m p job hlast' =>
      obtain ⟨rfl, rfl⟩ := Prod.mk.inj hl
      obtain rfl : job.toJson = raw := Option.some.inj (hlast'.symm.trans hlast)
      refine ⟨le_rfl, ?_, fun job' hjob' => ?_⟩
      · rw [hself]
        exact beq_iff_eq.1 (by simpa using hid)
      · rw [hself] at hjob'
        nomatch hjob'

/-- What a reclaim takes from a worker that processes the job, it takes after the timeout. -/
lemma late_of_reclaims (hv : Sees settings s x) (hx : x.Owned) (hG : Spares s a)
    (hstep : step settings s a = some s') (hr : Reclaims s a e id) {since : ℕ}
    (hp : x.Processes settings i id since) :
    since + settings.processingVisibilityTimeoutSeconds * 1000000 ≤ e.now.micros := by
  obtain ⟨j, raw, k, rfl, hj, hmem, hid⟩ := hr
  obtain ⟨-, -, -, hclock, -, -⟩ := sees_command hv hx hG hstep
  obtain ⟨job, now, rfl, hreading, hstale⟩ :=
    Phase.stale_of_lrem (hv.calls j _ _ hj).1 (hv.calls j _ _ hj).2 (hx.scanned j)
  rw [← hv.processing] at hmem
  have hunmoved := fun {j} => not_movedJob_of_spares (j := j) hv hG hj
  have hnow := hx.readings j now hreading
  have hmine : ∀ job', (x.phase i).movedJob = some job' → job'.id = id → False := fun job' hmoved hid' => by
    have heq := (hx.eq_of_mem hid (by simp [hid']) hmem).2 (hx.moved i job' hmoved)
    exact hunmoved (Job.toJson_injective heq ▸ hmoved)
  have hholds := hp.holds
  have howns := hp.owns
  have hheld := hx.held i
  generalize x.phase i = ph at hholds howns hheld hmine
  cases ph with
  | moved job' => exact (hmine job' rfl hholds).elim
  | stamped job' now' => exact (hmine job' rfl hholds.1).elim
  | taken job' now' =>
      have hzero := hheld job' rfl
      rw [hholds.1, hx.count_eq_one hid (.inr hmem)] at hzero
      exact absurd hzero one_ne_zero
  | started job' =>
      obtain ⟨hid', start, hstart, hsince⟩ := hholds
      rcases howns job' rfl with ⟨hmem', -⟩ | hlate
      · -- the entry is the worker's own
        obtain rfl := Job.toJson_injective ((hx.eq_of_mem hid (by simp [hid']) hmem).2 hmem')
        have hstale' := hstale start hstart
        omega
      · omega
  | _ => exact hholds.elim

/-- **The reaper takes no fresh job.**  In a run in which no reclaim takes an entry that a worker has
just moved and is about to replace, no job has two entries, and a job that a worker has started
to dequeue is taken from it by a reclaim after the visibility timeout only. -/
theorem reaper_spares_fresh (hw : w₀.OneEntry)
    (hs : exec (step settings) (Pool.initial (w₀, t₀) : ReaperPool ι) as = some s)
    (ha : step settings s a = some s') (ht : exec (step settings) s' bs = some u)
    (hb : step settings u b = some u')
    (hG : Along (step settings) Spares (Pool.initial (w₀, t₀)) (as ++ a :: (bs ++ [b])))
    (hdequeues : Dequeues s a i e id) :
    (∀ cs t, cs <+: as ++ a :: (bs ++ [b]) →
      exec (step settings) (Pool.initial (w₀, t₀)) cs = some t → ∀ id, t.count id ≤ 1) ∧
    (Reclaims u b e' id →
      e.now.micros + settings.processingVisibilityTimeoutSeconds * 1000000 ≤ e'.now.micros) := by
  obtain ⟨x, hx, howned⟩ : ∃ x, Sees settings (Pool.initial (w₀, t₀) : ReaperPool ι) x ∧ x.Owned :=
    owned_initial hw
  constructor
  · intro cs t hcs ht id
    obtain ⟨y, hy, hyowned, -⟩ := sees_run hx howned (hG.of_isPrefix hcs) ht
    rw [← hy.count_eq]
    exact hyowned.one id
  · intro hreclaims
    obtain ⟨y, hy, hyowned, -⟩ := sees_run hx howned (hG.of_isPrefix (List.prefix_append as _)) hs
    obtain ⟨hGa, hrest⟩ := hG.append hs
    obtain ⟨z, hz, hzowned, hprocesses⟩ := processes_of_dequeues hy hyowned hGa ha hdequeues
    have hGrest := hrest _ ha
    obtain ⟨v, hv, hvowned, hkeeps⟩ :=
      sees_run hz hzowned (hGrest.of_isPrefix (List.prefix_append bs [b])) ht
    exact late_of_reclaims hv hvowned (hGrest.append ht).1 hb hreclaims (hkeeps _ _ _ hprocesses)

/-! ### One job, one worker and one reclaim -/

/-- The main list has one job. -/
def oneJob : QueueStore := QueueStore.empty.after (.lpush .main someSubmission.job.toJson)

lemma oneEntry_oneJob : oneJob.OneEntry := by
  have hmain : oneJob.redis.list .main = [someSubmission.job.toJson] := rfl
  have hprocessing : oneJob.redis.list .processing = [] := rfl
  refine ⟨fun raw hraw => ?_, fun id => ?_⟩
  · obtain rfl : raw = someSubmission.job.toJson := by simpa [hmain, hprocessing] using hraw
    exact ⟨_, rfl, trivial, Job.stamped_of_none rfl⟩
  · rw [hmain, hprocessing]
    exact List.countP_le_length

/-- A worker is about to dequeue it. -/
def oneWorker : ReaperPool (Fin 2) :=
  ⟨(oneJob, 0), Function.update (fun _ => none) ⟨0, Nat.two_pos⟩ (some (.dequeue, dequeueJob))⟩

lemma dequeues_oneWorker : Dequeues oneWorker (.step 0 someEnv) 0 someEnv "a" :=
  ⟨rfl, rfl, someSubmission.job.toJson, rfl, by simp [Submission.job, someSubmission]⟩

/-- The process is a reclaim that is about to take the entry of the job. -/
def reclaiming (s : ReaperPool (Fin 2)) (i : Fin 2) (id : String) : Bool :=
  match s.calls i with
  | some (.reclaim, .call (.redis (.lrem .processing raw)) _) =>
      decide (raw ∈ s.store.1.redis.list .processing) && hasId id raw
  | _ => false

lemma reclaims_of_reclaiming {s : ReaperPool (Fin 2)} {i : Fin 2}
    (h : reclaiming s i id = true) : Reclaims s (.step i e) e id := by
  unfold reclaiming at h
  split at h
  · rename_i raw k hcalls
    obtain ⟨hmem, hid⟩ : raw ∈ s.store.1.redis.list .processing ∧ hasId id raw = true := by
      simpa using h
    exact ⟨i, raw, k, rfl, hcalls, hmem, hid⟩
  · simp at h

/-- The process is no reclaim. -/
def noReclaim (s : ReaperPool (Fin 2)) (i : Fin 2) : Bool :=
  match s.calls i with
  | some (.reclaim, _) => false
  | _ => true

/-- The process is no worker, or one that has returned a job. -/
def returned (s : ReaperPool (Fin 2)) (i : Fin 2) : Bool :=
  match s.calls i with
  | some (.dequeue, .ret _) => true
  | some (.dequeue, _) => false
  | _ => true

/-- No reclaim runs while a worker dequeues. -/
def takesTurns (s : ReaperPool (Fin 2)) : PoolAction (Fin 2) ReaperCall Env → Bool
  | .start _ _ => true
  | .step _ _ => decide (∀ i, noReclaim s i = true) || decide (∀ i, returned s i = true)
  | .die _ => false

lemma spares_of_takesTurns {s : ReaperPool (Fin 2)} {a : PoolAction (Fin 2) ReaperCall Env}
    (h : takesTurns s a = true) : Spares s a := by
  cases a with
  | start i q => trivial
  | die i => simp [takesTurns] at h
  | step i e =>
      intro raw k hi j p hj hreplaces
      simp only [takesTurns, Bool.or_eq_true, decide_eq_true_eq] at h
      rcases h with hnone | hreturned
      · simpa [noReclaim, hi] using hnone i
      · have hret := hreturned j
        cases p with
        | ret result =>
            rcases hreplaces with heq | ⟨k, heq⟩
            · unfold startProcessing at heq
              cases hjob : Job.fromJson raw with
              | none =>
                  rw [hjob] at heq
                  nomatch heq
              | some job =>
                  rw [hjob] at heq
                  nomatch heq
            · nomatch heq
        | _ => simp [returned, hj] at hret

/-- The worker dequeues the job. -/
def workerRun : List (PoolAction (Fin 2) ReaperCall Env) := List.replicate 3 (.step 0 someEnv)

/-- A reclaim starts, and lists the entries. -/
def reclaimRun (e : Env) : List (PoolAction (Fin 2) ReaperCall Env) :=
  [.start 1 .reclaim, .step 1 e, .step 1 e]

/-- A reclaim takes the job after the visibility timeout. -/
theorem reaper_spares_fresh_timeout :
    ∃ (s' u u' : ReaperPool (Fin 2)), step {} oneWorker (.step 0 someEnv) = some s' ∧
      exec (step {}) s' (workerRun ++ reclaimRun (laterEnv none)) = some u ∧
      step {} u (.step 1 (laterEnv none)) = some u' ∧
      Reclaims u (.step 1 (laterEnv none)) (laterEnv none) "a" ∧ u'.count "a" ≤ 1 ∧
      someEnv.now.micros + 300 * 1000000 ≤ (laterEnv none).now.micros := by
  have hrun : ((step {} oneWorker (.step 0 someEnv)).any fun s' =>
      (exec (step {}) s' (workerRun ++ reclaimRun (laterEnv none))).any fun u =>
        (step {} u (.step 1 (laterEnv none))).isSome && reclaiming u 1 "a") = true := by
    decide +kernel
  have hG : checkAlong (step {}) takesTurns (Pool.initial (oneJob, 0)) ([.start 0 .dequeue] ++
      .step 0 someEnv :: (workerRun ++ reclaimRun (laterEnv none) ++ [.step 1 (laterEnv none)])) =
        true := by
    decide +kernel
  obtain ⟨s', ha, hrun⟩ := (Option.any_eq_true _ _).1 hrun
  obtain ⟨u, ht, hrun⟩ := (Option.any_eq_true _ _).1 hrun
  obtain ⟨hb, hreclaiming⟩ := Bool.and_eq_true_iff.1 hrun
  obtain ⟨u', hb⟩ := Option.isSome_iff_exists.1 hb
  have hs : exec (step {}) (Pool.initial (oneJob, 0) : ReaperPool (Fin 2)) [.start 0 .dequeue] =
      some oneWorker := rfl
  have hreclaims : Reclaims u (.step 1 (laterEnv none)) (laterEnv none) "a" :=
    reclaims_of_reclaiming hreclaiming
  obtain ⟨hone, hlate⟩ := (reaper_spares_fresh oneEntry_oneJob hs ha ht hb
    (along_of_checkAlong (fun _ _ => spares_of_takesTurns) hG) dequeues_oneWorker).imp_right
      fun h => h hreclaims
  refine ⟨s', u, u', ha, ht, hb, hreclaims, hone _ u' List.prefix_rfl ?_ "a", hlate⟩
  exact exec_append_eq_some.2 ⟨oneWorker, hs, exec_cons_eq_some.2 ⟨s', ha,
    exec_append_eq_some.2 ⟨u, ht, exec_cons_eq_some.2 ⟨u', hb, rfl⟩⟩⟩⟩

/-- A reclaim that runs between the first and the second command of a dequeue takes the fresh job, and
the job has two entries in the end. -/
theorem reaper_takes_fresh_job :
    ∃ (s' u u' t : ReaperPool (Fin 2)), Dequeues oneWorker (.step 0 someEnv) 0 someEnv "a" ∧
      step {} oneWorker (.step 0 someEnv) = some s' ∧
      exec (step {}) s' (reclaimRun someEnv) = some u ∧
      Reclaims u (.step 1 someEnv) someEnv "a" ∧ step {} u (.step 1 someEnv) = some u' ∧
      exec (step {}) u' (.step 1 someEnv :: workerRun) = some t ∧ t.count "a" = 2 := by
  have hrun : ((step {} oneWorker (.step 0 someEnv)).any fun s' =>
      (exec (step {}) s' (reclaimRun someEnv)).any fun u => reclaiming u 1 "a" &&
        (step {} u (.step 1 someEnv)).any fun u' =>
          (exec (step {}) u' (.step 1 someEnv :: workerRun)).any fun t => t.count "a" == 2) = true := by
    decide +kernel
  obtain ⟨s', ha, hrun⟩ := (Option.any_eq_true _ _).1 hrun
  obtain ⟨u, ht, hrun⟩ := (Option.any_eq_true _ _).1 hrun
  obtain ⟨hreclaiming, hrun⟩ := Bool.and_eq_true_iff.1 hrun
  obtain ⟨u', hb, hrun⟩ := (Option.any_eq_true _ _).1 hrun
  obtain ⟨t, ht', hcount⟩ := (Option.any_eq_true _ _).1 hrun
  exact ⟨s', u, u', t, dequeues_oneWorker, ha, ht, reclaims_of_reclaiming hreclaiming, hb, ht',
    beq_iff_eq.1 hcount⟩

end ReaperPool

end StarterBackend.Queue

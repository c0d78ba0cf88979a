/-
Crashes between the commands of an operation.

Every Redis command is one atomic step here, and a process may die between any two of
them.  The documentation of the worker promises that a job survives the death of its
worker.  It does not: six operations take a job out of one structure with one command
and write it to another with the next, and a process that dies in between takes the job
with it (`dequeue_loses_job`).  This is the only way to lose a job
(`crash_safe_iff`).
-/
import StarterBackend.Queue.Runs

namespace StarterBackend.Queue

open Lib

/-- The processes of the system, with single commands as their steps. -/
abbrev FineSystem (ι : Type*) := Pool ι Request (QueueProg Unit) QueueStore

namespace FineSystem

variable {ι : Type*} [DecidableEq ι] (settings : WorkerSettings)

/-- One step of the system: a process starts, issues its next command, or dies. -/
def step (s : FineSystem ι) (a : PoolAction ι Request Env) : Option (FineSystem ι) :=
  Pool.next interp (fun r => (r.program settings).expand (Operation.commands settings)) s a

/-- The empty system. -/
def initial : FineSystem ι := Pool.initial .empty

/-- The next command of the program writes an entry of the submission to some structure. -/
def Writes (x : Submission) : QueueProg Unit → Prop
  | .call (.redis c) _ => c.given.bind submissionOf = some x
  | _ => False

/-- Some live process is about to write an entry of the submission. -/
def InHands (s : FineSystem ι) (x : Submission) : Prop :=
  ∃ i q p, s.calls i = some (q, p) ∧ Writes x p

/-- Every submitted job of which no execution of the handler has returned has an entry, or is in
the hands of a live process that is about to write one. -/
def Safe (s : FineSystem ι) : Prop :=
  ∀ x ∈ s.store.enqueued, x.id ∉ s.store.returned → 0 < s.store.count x.id ∨ s.InHands x

/-- No process dies between the two commands that take the last entry of a job out of a
structure and write it to another one. -/
def DiesOutside (s : FineSystem ι) : PoolAction ι Request Env → Prop
  | .die i => ∀ q p, s.calls i = some (q, p) → ∀ x ∈ s.store.enqueued, Writes x p →
      x.id ∉ s.store.returned → 0 < s.store.count x.id ∨
        ∃ j q' p', j ≠ i ∧ s.calls j = some (q', p') ∧ Writes x p'
  | _ => True

variable {settings} {as : List (PoolAction ι Request Env)} {s t : FineSystem ι}

lemma carries_iff {x : Submission} {p : QueueProg Unit} : custody.Carries x p ↔ Writes x p := by
  rcases p with a | e | ⟨c, k⟩
  · exact Iff.rfl
  · exact Iff.rfl
  · cases c <;> first | exact Iff.rfl | exact ⟨nofun, nofun⟩

lemma count_pos_iff_hasEntry {u : QueueStore} (hwf : u.Wf) {x : Submission}
    (hx : x ∈ u.enqueued) : 0 < u.count x.id ↔ u.HasEntry x := by
  rw [QueueStore.count, Redis.Lists.count_pos_iff]
  constructor
  · rintro ⟨raw, hraw, hid⟩
    obtain ⟨job, rfl, hjob, -⟩ := hwf.entries raw hraw
    rw [hasId_toJson, beq_iff_eq] at hid
    refine ⟨_, hraw, ?_⟩
    rw [submissionOf_toJson, List.inj_on_of_nodup_map hwf.ids hjob hx hid]
  · rintro ⟨raw, hraw, hsub⟩
    exact ⟨raw, hraw, by simp [hasId, hsub]⟩

lemma settles_program (r : Request) :
    custody.Settles ((r.program settings).expand (Operation.commands settings)) ∅ ∅ none
      fun _ _ _ => True :=
  (Operation.settles_program r).expand fun _ _ _ _ _ _ _ h => h

lemma covered (hdie : Along (step settings) DiesOutside (initial : FineSystem ι) as)
    (h : exec (step settings) initial as = some t) :
    custody.Covered (fun _ _ _ _ => True) t := by
  have hinit : custody.Covered (fun _ _ _ _ => True) (initial : FineSystem ι) :=
    ⟨QueueStore.wf_empty, nofun, nofun⟩
  refine exec_invariant_along (fun s a t hs hG hst => ?_) hinit hdie h
  refine hs.next settles_program ?_ hst
  rcases a with ⟨i, q⟩ | ⟨i, e⟩ | i
  · trivial
  · trivial
  · intro q p x hi hx hknown
    by_cases hret : x.id ∈ s.store.returned
    · exact .inr (.inl hret)
    · rcases hG q p hi x hknown (carries_iff.1 hx) hret with hpos | ⟨j, q', p', hj, hp', hx'⟩
      · exact .inl ((count_pos_iff_hasEntry hs.inv hknown).1 hpos)
      · exact .inr (.inr ⟨j, q', p', hj, hp', carries_iff.2 hx'⟩)

omit [DecidableEq ι] in
lemma safe_of_covered (h : custody.Covered (fun _ _ _ _ => True) t) : t.Safe := fun x hx hret => by
  rcases h.covered x hx with hentry | ⟨i, q, p, hi, hp⟩ | hfree
  · exact .inl ((count_pos_iff_hasEntry h.inv hx).2 hentry)
  · exact .inr ⟨i, q, p, hi, carries_iff.1 hp⟩
  · exact absurd hfree hret

/-- A step after which every job is safe has not killed the only holder of one. -/
lemma diesOutside_of_safe {a : PoolAction ι Request Env} (h : step settings s a = some t)
    (ht : t.Safe) : DiesOutside s a := by
  rcases Pool.next_cases h with ⟨i, q, rfl, hi, rfl⟩ |
    ⟨i, e, q, c, k, p', t, rfl, hi, rfl, hcmd⟩ | ⟨i, q, p, rfl, hi, rfl⟩
  · trivial
  · trivial
  · intro q' p' _ x hx _ hret
    refine (ht x hx hret).imp_right ?_
    rintro ⟨j, q'', p'', hj, hp''⟩
    have hji : j ≠ i := by
      rintro rfl
      simp at hj
    exact ⟨j, q'', p'', hji, by simpa [hji] using hj, hp''⟩

/-- **Crash safety, exactly.** In all states of a run every submitted job whose handler has not
returned has an entry or is in the hands of a live process, if and only if no process of
the run dies while it alone holds a job, between the command that takes the last entry of
the job out of a structure and the command that writes it back. -/
theorem crash_safe_iff (h : exec (step settings) (initial : FineSystem ι) as = some t) :
    (∀ bs u, bs <+: as → exec (step settings) (initial : FineSystem ι) bs = some u → u.Safe) ↔
      Along (step settings) DiesOutside (initial : FineSystem ι) as := by
  constructor
  · exact fun hsafe => along_of_states (fun s a t hst ht => diesOutside_of_safe hst ht) h hsafe
  · exact fun hdie bs u hbs hu => safe_of_covered (covered (hdie.of_isPrefix hbs) hu)

/-- The run of a producer, in which nobody dies, is safe. -/
theorem crash_safe_enqueueRun : Along (step {}) DiesOutside (initial : FineSystem ℕ) enqueueRun ∧
    ∀ bs u, bs <+: enqueueRun → exec (step {}) (initial : FineSystem ℕ) bs = some u → u.Safe := by
  have hdie : Along (step {}) DiesOutside (initial : FineSystem ℕ) enqueueRun :=
    ⟨trivial, fun _ _ => ⟨trivial, fun _ _ => trivial⟩⟩
  exact ⟨hdie, (crash_safe_iff rfl).2 hdie⟩

/-! ### A job that is lost -/

/-- What a worker does with a fresh job that it has just dequeued: it takes the entry out of the
processing list, and writes it back with the time. -/
lemma startProcessing_toJson {job : Job} (h : job.processingStartedAt = none) :
    startProcessing job.toJson = .call .utcNow fun now =>
      .call (.redis (.lrem .processing job.toJson)) fun _ =>
        .call (.redis (.lpush .processing (job.withProcessingStartedAt none now).toJson)) fun _ =>
          .ret (some (job.withProcessingStartedAt none now)) := by
  have hne : ∀ now, (job.withProcessingStartedAt none now).toJson ≠ job.toJson := fun now heq => by
    have hstart := congrArg Job.processingStartedAt (Job.toJson_injective heq)
    simp [Job.withProcessingStartedAt, h] at hstart
  rw [startProcessing, Job.fromJson_toJson]
  change Prog.call _ _ = _
  congr
  funext now
  exact if_neg (hne now)

/-- A worker that dies there leaves no entry behind. -/
lemma exec_die_in_dequeue (settings : WorkerSettings) {i : ι} {q : Request} {job : Job} {e : Env}
    {k : Option Job → QueueProg Unit} (hfresh : job.processingStartedAt = none)
    (h : s.calls i = some (q, (startProcessing job.toJson).bind k)) :
    ∃ t, exec (step settings) s [.step i e, .step i e, .die i] = some t ∧
      t.store = s.store.after (.lrem .processing job.toJson) := by
  rw [startProcessing_toJson hfresh] at h
  obtain ⟨s₁, h₁, hstore₁, hcalls₁⟩ : ∃ s₁, step settings s (.step i e) = some s₁ ∧ _ :=
    Pool.next_step h rfl
  obtain ⟨s₂, h₂, hstore₂, hcalls₂⟩ : ∃ s₂, step settings s₁ (.step i e) = some s₂ ∧ _ :=
    Pool.next_step hcalls₁ rfl
  obtain ⟨s₃, h₃, hstore₃, -⟩ : ∃ s₃, step settings s₂ (.die i) = some s₃ ∧ _ :=
    Pool.next_die hcalls₂
  refine ⟨s₃, by simp [exec, h₁, h₂, h₃], ?_⟩
  rw [hstore₃, hstore₂, hstore₁]
  rfl

/-- An entry that is written, moved and removed is gone. -/
lemma count_lpush_rpoplpush_lrem (job : Job) (id : String) :
    QueueStore.count (((QueueStore.empty.after (.lpush .main job.toJson)).after
      (.rpoplpush .main .processing)).after (.lrem .processing job.toJson)) id = 0 := by
  obtain ⟨s₁, hs₁⟩ : ∃ s₁, s₁ = QueueStore.empty.after (.lpush .main job.toJson) := ⟨_, rfl⟩
  obtain ⟨s₂, hs₂⟩ : ∃ s₂, s₂ = s₁.after (.rpoplpush .main .processing) := ⟨_, rfl⟩
  rw [← hs₁, ← hs₂]
  have hmem : job.toJson ∈ s₂.redis.list .processing := by
    simp [hs₂, hs₁, QueueStore.after, QueueStore.empty, Redis.Command.exec]
  have hempty : QueueStore.empty.redis.count (hasId id) = 0 := by
    simp [QueueStore.empty, Redis.Lists.count]
  have hpush : s₁.count id = QueueStore.empty.count id + [job.toJson].countP (hasId id) := by
    rw [hs₁]
    exact Redis.Command.count_exec (s := QueueStore.empty.redis) (.lpush .main job.toJson) _
  have hmove : s₂.count id = s₁.count id + 0 := by
    rw [hs₂]
    exact Redis.Command.count_exec (s := s₁.redis) (.rpoplpush .main .processing) _
  have hrem := Redis.Command.count_exec (s := s₂.redis) (.lrem .processing job.toJson) (hasId id)
  rw [taken_lrem hmem] at hrem
  change (s₂.after (.lrem .processing job.toJson)).count id + [job.toJson].countP (hasId id) =
    s₂.count id + 0 at hrem
  change QueueStore.empty.count id = 0 at hempty
  rw [add_zero, hmove, add_zero, hpush, hempty, zero_add] at hrem
  exact Nat.add_eq_right.1 hrem

/-- A producer submits a job, and a worker dies after it has dequeued the job, between `LREM` and
`LPUSH`. -/
def lostRun : List (PoolAction ℕ Request Env) :=
  [.start 0 (.enqueue someSubmission), .step 0 someEnv, .start 1 .processNext, .step 1 someEnv] ++
    [.step 1 someEnv, .step 1 someEnv, .die 1]

/-- After this run the submitted job, which no handler has seen, is in none of the structures. -/
theorem lostRun_loses_job : ∃ t, exec (step {}) (initial : FineSystem ℕ) lostRun = some t ∧
    someSubmission ∈ t.store.enqueued ∧ someSubmission.id ∉ t.store.returned ∧
      t.store.count someSubmission.id = 0 := by
  obtain ⟨job, hjob⟩ : ∃ job, job = someSubmission.job := ⟨_, rfl⟩
  obtain ⟨pushed, hpushed⟩ : ∃ u : QueueStore, u = { QueueStore.empty.after (.lpush .main job.toJson)
    with enqueued := [someSubmission] } := ⟨_, rfl⟩
  obtain ⟨s, hs, ⟨k, hk⟩, hstore⟩ : ∃ s, exec (step {}) (initial : FineSystem ℕ)
      [.start 0 (.enqueue someSubmission), .step 0 someEnv, .start 1 .processNext,
        .step 1 someEnv] = some s ∧
      (∃ k : Option Job → QueueProg Unit,
        s.calls 1 = some (.processNext, (startProcessing job.toJson).bind k)) ∧
      s.store = pushed.after (.rpoplpush .main .processing) := by
    subst hpushed hjob
    exact ⟨_, rfl, ⟨_, rfl⟩, rfl⟩
  obtain ⟨t, ht, htstore⟩ := exec_die_in_dequeue {} (e := someEnv) (by rw [hjob]; rfl) hk
  refine ⟨t, exec_append_eq_some.2 ⟨s, hs, ht⟩, ?_⟩
  rw [htstore, hstore, hpushed]
  refine ⟨List.mem_singleton_self _, List.not_mem_nil, ?_⟩
  exact count_lpush_rpoplpush_lrem job someSubmission.id

end FineSystem

end StarterBackend.Queue

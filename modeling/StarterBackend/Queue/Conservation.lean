/-
The queue loses no job, and every entry of a job keeps what was submitted.

The commands of the queue are an instance of custody: the items are the submissions, an
operation takes an entry out of a structure and gives it back to another one.  Every
operation settles its debts (`settles_commands`), so the worker does.
-/
import StarterBackend.Queue.Operations

namespace StarterBackend.Queue

open Lib

/-- The text of a job of one of the given submissions. -/
def IsEntry (known : Set Submission) (raw : String) : Prop :=
  ∃ job : Job, job.toJson = raw ∧ job.submission ∈ known ∧ job.Stamped

lemma IsEntry.mono {known known' : Set Submission} {raw : String} (h : IsEntry known raw)
    (hk : known ⊆ known') : IsEntry known' raw := by
  obtain ⟨job, hraw, hjob, hst⟩ := h
  exact ⟨job, hraw, hk hjob, hst⟩

namespace QueueStore

/-- Some structure has an entry of the submission. -/
def HasEntry (s : QueueStore) (x : Submission) : Prop :=
  ∃ raw, s.redis.Holds raw ∧ submissionOf raw = some x

/-- Every entry is the text of a submitted job, and the ids of the submitted jobs differ. -/
structure Wf (s : QueueStore) : Prop where
  entries : ∀ raw, s.redis.Holds raw → IsEntry {x | x ∈ s.enqueued} raw
  ids : (s.enqueued.map Submission.id).Nodup

lemma wf_empty : empty.Wf where
  entries raw h := by
    rcases h with ⟨key, h⟩ | ⟨key, h⟩ <;> simp [empty] at h
  ids := List.nodup_nil

end QueueStore

/-! ### The commands as an instance of custody -/

namespace Command

/-- What a program may issue: it writes entries of submissions that it knows, and removes
only released jobs for good. -/
def Allowed (known free : Set Submission) : Command → Prop
  | .redis c => ∀ raw, c.given = some raw → IsEntry known raw
  | .push job => job.Stamped
  | .remove job => job.submission ∈ free
  | _ => True

/-- The replies that can occur: what is read is the text of a job. -/
def Possible : (c : Command) → c.Reply → Prop
  | .redis c, r => ∀ raw ∈ c.seen r, IsEntry Set.univ raw
  | _, _ => True

/-- The submissions read from a reply. -/
def reads : (c : Command) → c.Reply → Set Submission
  | .redis c, r => {x | ∃ raw ∈ c.seen r, submissionOf raw = some x}
  | _, _ => ∅

/-- When a handler returns, its job is released. -/
def frees : (c : Command) → c.Reply → Set Submission
  | .handle job, .returned => {x | x.id = job.id}
  | _, _ => ∅

def takes : (c : Command) → c.Reply → Option Submission
  | .redis c, r => (c.taken r).bind submissionOf
  | _, _ => none

def gives : Command → Option Submission
  | .redis c => c.given.bind submissionOf
  | _ => none

end Command

lemma submissionOf_eq_some_iff_of_isEntry {known : Set Submission} {raw : String}
    (h : IsEntry known raw) : ∃ x ∈ known, submissionOf raw = some x := by
  obtain ⟨job, rfl, hjob, -⟩ := h
  exact ⟨job.submission, hjob, submissionOf_toJson job⟩

section Spec

variable {s : QueueStore} {c : Redis.Command QueueKey} {x : Submission}

lemma entries_exec {known : Set Submission} (hs : ∀ raw, s.redis.Holds raw → IsEntry known raw)
    (hc : ∀ raw, c.given = some raw → IsEntry known raw) :
    ∀ raw, (c.exec s.redis).2.Holds raw → IsEntry known raw := fun raw h =>
  (Redis.Command.holds_of_exec h).elim (hs raw) (hc raw)

lemma hasEntry_exec (h : s.HasEntry x) :
    (∃ raw, (c.exec s.redis).2.Holds raw ∧ submissionOf raw = some x) ∨
      (c.taken (c.exec s.redis).1).bind submissionOf = some x := by
  obtain ⟨raw, hraw, hx⟩ := h
  rcases Redis.Command.holds_exec (c := c) hraw with h' | htaken
  · exact .inl ⟨raw, h', hx⟩
  · exact .inr (by rw [htaken]; exact hx)

lemma hasEntry_given (h : c.given.bind submissionOf = some x) :
    ∃ raw, (c.exec s.redis).2.Holds raw ∧ submissionOf raw = some x := by
  obtain ⟨raw, hraw, hx⟩ := Option.bind_eq_some_iff.1 h
  exact ⟨raw, Redis.Command.holds_given hraw, hx⟩

/-- The entries that a command reads are entries of submitted jobs. -/
lemma reads_subset (hs : s.Wf) :
    Command.reads (.redis c) (c.exec s.redis).1 ⊆ {x | x ∈ s.enqueued} := by
  rintro x ⟨raw, hraw, hx⟩
  obtain ⟨y, hy, hxy⟩ :=
    submissionOf_eq_some_iff_of_isEntry (hs.entries raw (Redis.Command.holds_of_seen hraw))
  obtain rfl : y = x := by simpa [hx] using hxy.symm
  exact hy

/-- The entry that `ack_job` removes is that of the job. -/
lemma hasEntry_remove (job : Job) (h : s.HasEntry x) :
    (∃ raw, (Redis.Command.exec (.lrem .processing job.toJson) s.redis).2.Holds raw ∧
      submissionOf raw = some x) ∨ x = job.submission := by
  rcases hasEntry_exec (c := .lrem .processing job.toJson) h with h' | htaken
  · exact .inl h'
  · refine .inr ?_
    obtain ⟨raw, hraw, hx⟩ := Option.bind_eq_some_iff.1 htaken
    have hrawjob : raw = job.toJson := by
      change (if decide _ = true then some job.toJson else none) = some raw at hraw
      split at hraw
      · exact (Option.some.inj hraw).symm
      · simp at hraw
    subst hrawjob
    simpa using hx.symm

end Spec

/-- The jobs of the queue in the custody of the programs that move them. -/
def custody : Custody interp Submission where
  inv := QueueStore.Wf
  known s := {x | x ∈ s.enqueued}
  free s := {x | x.id ∈ s.returned}
  holds := QueueStore.HasEntry
  pre := Command.Allowed
  ok := Command.Possible
  reads := Command.reads
  frees := Command.frees
  takes := Command.takes
  gives := Command.gives
  pre_mono := by
    intro known known' free free' c hk hf h
    cases c with
    | redis c => exact fun raw hraw => (h raw hraw).mono hk
    | push job => exact h
    | remove job => exact hf h
    | utcNow => trivial
    | time => trivial
    | handle job => trivial
  spec := by
    intro c e s res s' hs hpre hc
    cases c with
    | redis c =>
        obtain ⟨rfl, rfl⟩ : .ok (c.exec s.redis).1 = res ∧
            { s with redis := (c.exec s.redis).2 } = s' := by simpa [interp] using hc
        refine ⟨_, rfl, fun raw hraw => ?_, ⟨entries_exec hs.entries hpre, hs.ids⟩,
          subset_refl _, subset_refl _, reads_subset hs, Set.empty_subset _, fun x hx => ?_,
          fun x hx => hasEntry_given hx, fun x hx => .inl hx⟩
        · exact (hs.entries raw (Redis.Command.holds_of_seen hraw)).mono (Set.subset_univ _)
        · exact (hasEntry_exec hx).imp_right .inl
    | push job =>
        have hnew : job.id ∉ s.enqueued.map Submission.id := by
          intro hmem
          simp [interp, hmem] at hc
        obtain ⟨rfl, rfl⟩ : .ok () = res ∧ { s with
            redis := (Redis.Command.exec (.lpush .main job.toJson) s.redis).2
            enqueued := job.submission :: s.enqueued } = s' := by simpa [interp, hnew] using hc
        have hentry : IsEntry {x | x ∈ job.submission :: s.enqueued} job.toJson :=
          ⟨job, rfl, List.mem_cons_self, hpre⟩
        have hpushed : ∃ raw, (Redis.Command.exec (.lpush .main job.toJson) s.redis).2.Holds raw ∧
            submissionOf raw = some job.submission :=
          ⟨_, Redis.Command.holds_given rfl, submissionOf_toJson job⟩
        refine ⟨(), rfl, trivial, ⟨entries_exec (fun raw h => ?_) fun raw h => ?_, ?_⟩,
          fun x hx => List.mem_cons_of_mem _ hx, subset_refl _, Set.empty_subset _,
          Set.empty_subset _, fun x hx => .inl ?_, fun x hx => (nomatch hx), fun x hx => ?_⟩
        · exact (hs.entries raw h).mono fun x hx => List.mem_cons_of_mem _ hx
        · obtain rfl : job.toJson = raw := by simpa [Redis.Command.given] using h
          exact hentry
        · exact List.nodup_cons.2 ⟨hnew, hs.ids⟩
        · exact (hasEntry_exec (c := .lpush .main job.toJson) hx).resolve_right nofun
        · rcases List.mem_cons.1 hx with rfl | hx
          · exact .inr (.inl hpushed)
          · exact .inl hx
    | remove job =>
        obtain ⟨rfl, rfl⟩ : .ok () = res ∧ { s with
            redis := (Redis.Command.exec (.lrem .processing job.toJson) s.redis).2
            acked := job.id :: s.acked } = s' := by simpa [interp] using hc
        refine ⟨(), rfl, trivial, ⟨entries_exec hs.entries (fun raw h => by cases h), hs.ids⟩,
          subset_refl _, subset_refl _, Set.empty_subset _, Set.empty_subset _, fun x hx => ?_,
          fun x hx => (nomatch hx), fun x hx => .inl hx⟩
        rcases hasEntry_remove job hx with hx' | rfl
        · exact .inl hx'
        · exact .inr (.inr hpre)
    | utcNow =>
        obtain ⟨rfl, rfl⟩ : .ok e.now = res ∧ s = s' := by simpa [interp] using hc
        exact ⟨_, rfl, trivial, hs, subset_refl _, subset_refl _, Set.empty_subset _,
          Set.empty_subset _, fun x hx => .inl hx, fun x hx => (nomatch hx), fun x hx => .inl hx⟩
    | time =>
        obtain ⟨rfl, rfl⟩ : .ok e.time = res ∧ s = s' := by simpa [interp] using hc
        exact ⟨_, rfl, trivial, hs, subset_refl _, subset_refl _, Set.empty_subset _,
          Set.empty_subset _, fun x hx => .inl hx, fun x hx => (nomatch hx), fun x hx => .inl hx⟩
    | handle job =>
        rcases hout : handleJob job e.error with _ | message | message
        · obtain ⟨rfl, rfl⟩ : .ok .returned = res ∧
              { s with returned := job.id :: s.returned } = s' := by
            simpa [interp, hout, QueueStore.handled] using hc
          refine ⟨.returned, rfl, trivial, ⟨hs.entries, hs.ids⟩, subset_refl _,
            fun x hx => List.mem_cons_of_mem _ hx, Set.empty_subset _, fun x hx => ?_,
            fun x hx => .inl hx, fun x hx => (nomatch hx), fun x hx => .inl hx⟩
          exact List.mem_cons.2 (.inl hx)
        · obtain ⟨rfl, rfl⟩ : .ok (.unknownJobType message) = res ∧ s = s' := by
            simpa [interp, hout, QueueStore.handled] using hc
          exact ⟨_, rfl, trivial, hs, subset_refl _, subset_refl _, Set.empty_subset _,
            Set.empty_subset _, fun x hx => .inl hx, fun x hx => (nomatch hx), fun x hx => .inl hx⟩
        · obtain ⟨rfl, rfl⟩ : .ok (.raised message) = res ∧ s = s' := by
            simpa [interp, hout, QueueStore.handled] using hc
          exact ⟨_, rfl, trivial, hs, subset_refl _, subset_refl _, Set.empty_subset _,
            Set.empty_subset _, fun x hx => .inl hx, fun x hx => (nomatch hx), fun x hx => .inl hx⟩

/-! ### The rules of the single commands -/

section Rules

variable {α : Type} {known free : Set Submission} {d : Option Submission}
  {post : Set Submission → Set Submission → α → Prop} {key : QueueKey} {value : String}

/-- A command settles when its continuation does, knowing what the command read. -/
lemma settles_redis {c : Redis.Command QueueKey} {k : c.Reply → QueueProg α}
    (hgiven : ∀ raw, c.given = some raw → IsEntry known raw)
    (hd : ∀ x, d = some x → c.given.bind submissionOf = some x)
    (hk : ∀ r known', known ⊆ known' → (∀ raw ∈ c.seen r, IsEntry known' raw) →
      custody.Settles (k r) known' free ((c.taken r).bind submissionOf) post) :
    custody.Settles (Prog.call (Command.redis c) k) known free d post := by
  refine ⟨hgiven, fun x hx => .inr (hd x hx), fun r hr => ?_⟩
  change custody.Settles (k r) (known ∪ {x | ∃ raw ∈ c.seen r, submissionOf raw = some x})
    (free ∪ ∅) ((c.taken r).bind submissionOf) post
  rw [Set.union_empty]
  refine hk r _ Set.subset_union_left fun raw hraw => ?_
  obtain ⟨job, rfl, -, hst⟩ := hr raw hraw
  exact ⟨job, rfl, .inr ⟨_, hraw, submissionOf_toJson job⟩, hst⟩

/-- An insertion pays the debt. -/
lemma settles_lpush {k : Unit → QueueProg α} (hentry : IsEntry known value)
    (hd : ∀ x, d = some x → submissionOf value = some x)
    (hk : ∀ known', known ⊆ known' → custody.Settles (k ()) known' free none post) :
    custody.Settles ((lpush key value).bind k) known free d post :=
  settles_redis (c := .lpush key value) (fun _ h => Option.some.inj h ▸ hentry) hd
    fun _ known' h _ => hk known' h

lemma settles_zadd {k : Bool → QueueProg α} {score : ℚ} (hentry : IsEntry known value)
    (hd : ∀ x, d = some x → submissionOf value = some x)
    (hk : ∀ r known', known ⊆ known' → custody.Settles (k r) known' free none post) :
    custody.Settles ((zadd key value score).bind k) known free d post :=
  settles_redis (c := .zadd key value score) (fun _ h => Option.some.inj h ▸ hentry) hd
    fun r known' h _ => hk r known' h

/-- A removal is a debt when it removed something. -/
lemma settles_lrem {k : Bool → QueueProg α}
    (hfalse : ∀ known', known ⊆ known' → custody.Settles (k false) known' free none post)
    (htrue : ∀ known', known ⊆ known' →
      custody.Settles (k true) known' free (submissionOf value) post) :
    custody.Settles ((lrem key value).bind k) known free none post :=
  settles_redis (c := .lrem key value) nofun nofun fun r known' h _ =>
    match r with
    | false => hfalse known' h
    | true => htrue known' h

lemma settles_zrem {k : Bool → QueueProg α}
    (hfalse : ∀ known', known ⊆ known' → custody.Settles (k false) known' free none post)
    (htrue : ∀ known', known ⊆ known' →
      custody.Settles (k true) known' free (submissionOf value) post) :
    custody.Settles ((zrem key value).bind k) known free none post :=
  settles_redis (c := .zrem key value) nofun nofun fun r known' h _ =>
    match r with
    | false => hfalse known' h
    | true => htrue known' h

lemma settles_rpop {k : Option String → QueueProg α}
    (hnone : ∀ known', known ⊆ known' → custody.Settles (k none) known' free none post)
    (hsome : ∀ raw known', known ⊆ known' → IsEntry known' raw →
      custody.Settles (k (some raw)) known' free (submissionOf raw) post) :
    custody.Settles ((rpop key).bind k) known free none post :=
  settles_redis (c := .rpop key) nofun nofun fun r known' h hseen =>
    match r with
    | none => hnone known' h
    | some raw => hsome raw known' h (hseen raw (List.mem_singleton_self raw))

/-- A job that is moved from list to list is not a debt. -/
lemma settles_brpoplpush {source destination : QueueKey} {k : Option String → QueueProg α}
    (hnone : ∀ known', known ⊆ known' → custody.Settles (k none) known' free none post)
    (hsome : ∀ raw known', known ⊆ known' → IsEntry known' raw →
      custody.Settles (k (some raw)) known' free none post) :
    custody.Settles ((brpoplpush source destination).bind k) known free none post :=
  settles_redis (c := .rpoplpush source destination) nofun nofun fun r known' h hseen =>
    match r with
    | none => hnone known' h
    | some raw => hsome raw known' h (hseen raw (List.mem_singleton_self raw))

lemma settles_lrangeAll {k : List String → QueueProg α}
    (hk : ∀ raws known', known ⊆ known' → (∀ raw ∈ raws, IsEntry known' raw) →
      custody.Settles (k raws) known' free none post) :
    custody.Settles ((lrangeAll key).bind k) known free none post :=
  settles_redis (c := .lrangeAll key) nofun nofun fun r known' h hseen => hk r known' h hseen

lemma settles_zrangebyscore {low high : ℚ} {k : List String → QueueProg α}
    (hk : ∀ raws known', known ⊆ known' → (∀ raw ∈ raws, IsEntry known' raw) →
      custody.Settles (k raws) known' free none post) :
    custody.Settles ((zrangebyscore key low high).bind k) known free none post :=
  settles_redis (c := .zrangebyscore key low high) nofun nofun
    fun r known' h hseen => hk r known' h hseen

lemma settles_utcNow {k : Datetime → QueueProg α}
    (hk : ∀ now, custody.Settles (k now) known free none post) :
    custody.Settles (utcNow.bind k) known free none post := by
  refine ⟨trivial, nofun, fun (now : Datetime) _ => ?_⟩
  change custody.Settles (k now) (known ∪ ∅) (free ∪ ∅) none post
  simpa only [Set.union_empty] using hk now

lemma settles_time {k : ℚ → QueueProg α}
    (hk : ∀ now, custody.Settles (k now) known free none post) :
    custody.Settles (time.bind k) known free none post := by
  refine ⟨trivial, nofun, fun (now : ℚ) _ => ?_⟩
  change custody.Settles (k now) (known ∪ ∅) (free ∪ ∅) none post
  simpa only [Set.union_empty] using hk now

/-- What was read is read as a job. -/
lemma settles_fromJson {raw : String} {k : Job → QueueProg α} (hraw : IsEntry known raw)
    (hk : ∀ job : Job, job.toJson = raw → job.submission ∈ known → job.Stamped →
      custody.Settles (k job) known free d post) :
    custody.Settles ((Prog.getOrRaise JobError.invalidJob (Job.fromJson raw)).bind k)
      known free d post := by
  obtain ⟨job, rfl, hknown, hst⟩ := hraw
  rw [Job.fromJson_toJson]
  exact hk job rfl hknown hst

end Rules

/-! ### The operations settle their debts -/

section Operations

variable {known free : Set Submission} {settings : WorkerSettings}

lemma settles_ret {α : Type} {a : α} {post : Set Submission → Set Submission → α → Prop}
    (h : post known free a) : custody.Settles (.ret a) known free none post := ⟨nofun, h⟩

lemma settles_enqueueJob (x : Submission) :
    custody.Settles (enqueueJob x) known free none fun _ _ _ => True := by
  refine ⟨Job.stamped_of_none rfl, nofun, fun _ _ => ?_⟩
  exact settles_ret trivial

lemma settles_dequeueJob : custody.Settles dequeueJob known free none
    fun k _ r => ∀ job, r = some job → job.submission ∈ k ∧ job.Stamped := by
  refine settles_brpoplpush (fun k _ => settles_ret nofun) fun raw k _ hraw => ?_
  refine settles_fromJson hraw fun job hjob hknown _ => ?_
  refine settles_utcNow fun now => ?_
  have hprocessing : ∀ k', k ⊆ k' → ∀ job' : Job,
      some (job.withProcessingStartedAt none now) = some job' →
        job'.submission ∈ k' ∧ job'.Stamped := fun k' hk job' h => by
    obtain rfl := Option.some.inj h
    exact ⟨hk hknown, Job.stamped_withProcessingStartedAt⟩
  dsimp only
  split
  · exact settles_ret (hprocessing k (subset_refl _))
  · have hentry : ∀ k', k ⊆ k' → IsEntry k' (job.withProcessingStartedAt none now).toJson :=
      fun k' hk => ⟨_, rfl, hk hknown, Job.stamped_withProcessingStartedAt⟩
    refine settles_lrem (fun k₁ hk₁ => ?_) fun k₁ hk₁ => ?_
    · exact settles_lpush (hentry k₁ hk₁) nofun fun k₂ hk₂ =>
        settles_ret (hprocessing k₂ (hk₁.trans hk₂))
    · refine settles_lpush (hentry k₁ hk₁) (fun x hx => ?_) fun k₂ hk₂ =>
        settles_ret (hprocessing k₂ (hk₁.trans hk₂))
      simpa [← hjob] using hx

lemma settles_scheduleRetry {job : Job} {errorMessage : String} (h : job.submission ∈ known) :
    custody.Settles (scheduleRetry settings job errorMessage) known free none
      fun _ _ _ => True := by
  have hentry : ∀ k, known ⊆ k → IsEntry k (job.withNextAttempt.withError errorMessage).toJson :=
    fun k hk => ⟨_, rfl, hk h, Job.stamped_of_none rfl⟩
  refine settles_time fun now => ?_
  refine settles_lrem (fun k₁ hk₁ => ?_) fun k₁ hk₁ => ?_
  · exact settles_zadd (hentry k₁ hk₁) nofun fun _ _ _ => settles_ret trivial
  · refine settles_zadd (hentry k₁ hk₁) (fun x hx => ?_) fun _ _ _ => settles_ret trivial
    simpa using hx

lemma settles_promoteLoop {limit : Option ℤ} {raws : List String} {n : ℕ}
    (h : ∀ raw ∈ raws, IsEntry known raw) :
    custody.Settles (promoteLoop limit raws n) known free none fun _ _ _ => True := by
  induction raws generalizing n known with
  | nil => exact settles_ret trivial
  | cons raw raws ih =>
      have hrest : ∀ k n, known ⊆ k → custody.Settles (promoteLoop limit raws n) k free none
          fun _ _ _ => True := fun k n hk => ih fun r hr => (h r (List.mem_cons_of_mem _ hr)).mono hk
      rw [promoteLoop]
      split
      · exact settles_ret trivial
      · refine settles_zrem (fun k₁ hk₁ => hrest k₁ n hk₁) fun k₁ hk₁ => ?_
        exact settles_lpush ((h raw List.mem_cons_self).mono hk₁) (fun x hx => hx)
          fun k₂ hk₂ => hrest k₂ _ (hk₁.trans hk₂)

lemma settles_promoteDelayedJobs {limit : Option ℤ} :
    custody.Settles (promoteDelayedJobs limit) known free none fun _ _ _ => True :=
  settles_time fun _ => settles_zrangebyscore fun _ _ _ h => settles_promoteLoop h

/-- The time at which the processing of an entry started is always read. -/
lemma isStale_eq_ret (settings : WorkerSettings) (now : Datetime) {job : Job} (h : job.Stamped) :
    ∃ b, isStale settings now job = .ret b := by
  rw [isStale]
  rcases hstart : job.processingStartedAt with _ | text
  · exact ⟨true, rfl⟩
  · obtain ⟨t, rfl⟩ := h text hstart
    simp only [fromisoformat_isoformat]
    exact ⟨_, rfl⟩

lemma settles_reclaimLoop {now : Datetime} {raws : List String} {n : ℕ}
    (h : ∀ raw ∈ raws, IsEntry known raw) :
    custody.Settles (reclaimLoop settings now raws n) known free none fun _ _ _ => True := by
  induction raws generalizing n known with
  | nil => exact settles_ret trivial
  | cons raw raws ih =>
      have hrest : ∀ k n, known ⊆ k → custody.Settles (reclaimLoop settings now raws n) k free
          none fun _ _ _ => True := fun k n hk =>
        ih fun r hr => (h r (List.mem_cons_of_mem _ hr)).mono hk
      refine settles_fromJson (h raw List.mem_cons_self) fun job hjob hknown hst => ?_
      obtain ⟨stale, hstale⟩ := isStale_eq_ret settings now hst
      simp only [hstale, Prog.bind_def, Prog.ret_bind]
      split
      · refine settles_lrem (fun k₁ hk₁ => hrest k₁ n hk₁) fun k₁ hk₁ => ?_
        refine settles_lpush ⟨_, rfl, hk₁ hknown, Job.stamped_of_none rfl⟩ (fun x hx => ?_)
          fun k₂ hk₂ => hrest k₂ _ (hk₁.trans hk₂)
        simpa [← hjob] using hx
      · exact hrest known n (subset_refl _)

lemma settles_reclaimStaleProcessingJobs :
    custody.Settles (reclaimStaleProcessingJobs settings) known free none fun _ _ _ => True :=
  settles_utcNow fun _ => settles_lrangeAll fun _ _ _ h => settles_reclaimLoop h

@[simp]
lemma submission_failedJob (job : Job) (error : Option String) (now : Datetime) :
    (failedJob job error now).submission = job.submission := by
  unfold failedJob
  split <;> rfl

lemma stamped_failedJob {job : Job} {error : Option String} {now : Datetime} (h : job.Stamped) :
    (failedJob job error now).Stamped := by
  unfold failedJob
  split <;> exact h

lemma settles_moveJobToFailedQueue {job : Job} {error : Option String}
    (h : job.submission ∈ known) (hst : job.Stamped) :
    custody.Settles (moveJobToFailedQueue job error) known free none fun _ _ _ => True := by
  refine settles_utcNow fun now => ?_
  have hentry : ∀ k, known ⊆ k → IsEntry k (failedJob job error now).toJson := fun k hk =>
    ⟨_, rfl, by rw [submission_failedJob]; exact hk h, stamped_failedJob hst⟩
  refine settles_lrem (fun k₁ hk₁ => ?_) fun k₁ hk₁ => ?_
  · exact settles_lpush (hentry k₁ hk₁) nofun fun _ _ => settles_ret trivial
  · refine settles_lpush (hentry k₁ hk₁) (fun x hx => ?_) fun _ _ => settles_ret trivial
    simpa using hx

lemma settles_requeueLoop {limit : Option ℤ} {rounds n : ℕ} :
    custody.Settles (requeueLoop limit rounds n) known free none fun _ _ _ => True := by
  induction rounds generalizing n known with
  | zero => exact settles_ret trivial
  | succ rounds ih =>
      rw [requeueLoop]
      split
      · exact settles_ret trivial
      · refine settles_rpop (fun _ _ => settles_ret trivial) fun raw k hk hraw => ?_
        refine settles_fromJson hraw fun job hjob hknown hst => ?_
        refine settles_lpush ⟨job, rfl, hknown, hst⟩ (fun x hx => ?_) fun _ _ => ih
        simpa [hjob] using hx

lemma settles_ackJob {job : Job} (h : job.submission ∈ free) :
    custody.Settles (ackJob job) known free none fun _ _ _ => True :=
  ⟨h, nofun, fun _ _ => settles_ret trivial⟩

end Operations

namespace Operation

/-- What a program may call: it retries and fails jobs that it knows, and acknowledges
released ones. -/
def Allowed (known free : Set Submission) : Operation → Prop
  | .ackJob job => job.submission ∈ free
  | .scheduleRetry job _ => job.submission ∈ known
  | .moveJobToFailedQueue job _ => job.submission ∈ known ∧ job.Stamped
  | _ => True

def Possible : (o : Operation) → o.Result → Prop
  | .dequeueJob, (r : Option Job) => ∀ job, r = some job → job.Stamped
  | _, _ => True

def reads : (o : Operation) → o.Result → Set Submission
  | .dequeueJob, (r : Option Job) => {x | ∃ job, r = some job ∧ job.submission = x}
  | _, _ => ∅

def frees : (o : Operation) → o.Result → Set Submission
  | .handleJob job, .returned => {x | x.id = job.id}
  | _, _ => ∅

variable {known free : Set Submission} {settings : WorkerSettings}

/-- **Every operation settles its debts.** -/
theorem settles_commands (o : Operation) (h : o.Allowed known free) :
    custody.Settles (o.commands settings) known free none
      fun k f r => o.Possible r ∧ o.reads r ⊆ k ∧ o.frees r ⊆ f := by
  have hplain : ∀ {p : QueueProg o.Result}, (∀ r, o.Possible r) → (∀ r, o.reads r = ∅) →
      (∀ r, o.frees r = ∅) → custody.Settles p known free none (fun _ _ _ => True) →
      custody.Settles p known free none fun k f r => o.Possible r ∧ o.reads r ⊆ k ∧ o.frees r ⊆ f :=
    fun hok hreads hfrees hp => hp.weaken fun k f r _ _ _ =>
      ⟨hok r, hreads r ▸ Set.empty_subset _, hfrees r ▸ Set.empty_subset _⟩
  cases o with
  | enqueueJob x =>
      exact hplain (fun _ => trivial) (fun _ => rfl) (fun _ => rfl) (settles_enqueueJob x)
  | dequeueJob =>
      refine settles_dequeueJob.weaken fun k f r _ _ hr => ?_
      refine ⟨fun job hjob => (hr job hjob).2, ?_, Set.empty_subset _⟩
      rintro x ⟨job, hjob, rfl⟩
      exact (hr job hjob).1
  | ackJob job =>
      exact hplain (fun _ => trivial) (fun _ => rfl) (fun _ => rfl) (settles_ackJob h)
  | scheduleRetry job message =>
      exact hplain (fun _ => trivial) (fun _ => rfl) (fun _ => rfl) (settles_scheduleRetry h)
  | promoteDelayedJobs limit =>
      exact hplain (fun _ => trivial) (fun _ => rfl) (fun _ => rfl) settles_promoteDelayedJobs
  | reclaimStaleProcessingJobs =>
      exact hplain (fun _ => trivial) (fun _ => rfl) (fun _ => rfl)
        settles_reclaimStaleProcessingJobs
  | moveJobToFailedQueue job error =>
      exact hplain (fun _ => trivial) (fun _ => rfl) (fun _ => rfl)
        (settles_moveJobToFailedQueue h.1 h.2)
  | requeueFailedJobs rounds limit =>
      exact hplain (fun _ => trivial) (fun _ => rfl) (fun _ => rfl) settles_requeueLoop
  | handleJob job =>
      refine ⟨trivial, nofun, fun (outcome : Outcome) _ => settles_ret ⟨trivial, ?_, ?_⟩⟩
      · exact Set.empty_subset _
      · cases outcome with
        | returned => exact Set.subset_union_right
        | unknownJobType message => exact Set.empty_subset _
        | raised message => exact Set.empty_subset _

/-- The jobs of the queue in the custody of programs that call whole operations. -/
def custody (settings : WorkerSettings) :
    Custody (Prog.atomically (Operation.commands settings) interp) Submission :=
  Queue.custody.lift Allowed Possible reads frees
    (fun {known known' free free' o} hk hf h => by
      cases o with
      | ackJob job => exact hf h
      | scheduleRetry job message => exact hk h
      | moveJobToFailedQueue job error => exact ⟨hk h.1, h.2⟩
      | _ => trivial)
    fun _ _ o h => settles_commands o h

/-- The worker calls only what it may: a handler that has returned releases its job, and what
it retries or fails it has dequeued. -/
lemma settles_program (r : Request) :
    (custody settings).Settles (r.program settings) ∅ ∅ none fun _ _ _ => True := by
  cases r with
  | enqueue x => exact ⟨trivial, nofun, fun _ _ => ⟨nofun, trivial⟩⟩
  | promote limit => exact ⟨trivial, nofun, fun _ _ => ⟨nofun, trivial⟩⟩
  | reclaim => exact ⟨trivial, nofun, fun _ _ => ⟨nofun, trivial⟩⟩
  | requeue rounds limit => exact ⟨trivial, nofun, fun _ _ => ⟨nofun, trivial⟩⟩
  | processNext =>
      refine ⟨trivial, nofun, fun (r : Option Job) hr => ?_⟩
      rcases r with _ | job
      · exact ⟨nofun, trivial⟩
      · have hknown : ∀ s, job.submission ∈ (∅ ∪ (custody settings).reads .dequeueJob
            (some job : Option Job)) ∪ s := fun s => .inl (.inr ⟨job, rfl, rfl⟩)
        refine ⟨trivial, nofun, fun (outcome : Outcome) _ => ?_⟩
        cases outcome with
        | returned => exact ⟨.inr rfl, nofun, fun _ _ => ⟨nofun, trivial⟩⟩
        | unknownJobType message =>
            exact ⟨⟨hknown _, hr job rfl⟩, nofun, fun _ _ => ⟨nofun, trivial⟩⟩
        | raised message =>
            by_cases hretry : job.attempts < settings.maxRetries
            · simp only [hretry, if_true]
              exact ⟨hknown _, nofun, fun _ _ => ⟨nofun, trivial⟩⟩
            · simp only [hretry, if_false]
              exact ⟨⟨hknown _, hr job rfl⟩, nofun, fun _ _ => ⟨nofun, trivial⟩⟩

end Operation

end StarterBackend.Queue

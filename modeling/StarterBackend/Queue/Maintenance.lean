/-
Maintenance of the queue by any number of workers at once.

Calls of `promote_delayed_jobs`, `reclaim_stale_processing_jobs` and
`requeue_failed_jobs` run at the same time, each Redis command of them as one step.
Every loop works from what it has read before, while other calls remove the same
entries.  An entry goes to the one call whose removal finds it, and that call alone
writes and counts it (`maintenance_moves_once`).
-/
import StarterBackend.Queue.FailedQueue
import StarterBackend.Queue.Runs
import StarterBackend.Lib.Ledger

namespace StarterBackend.Queue

open Lib

/-! ### The calls -/

/-- A call of one of the three operations. -/
inductive MaintenanceCall where
  | promote (limit : Option ℤ)
  | reclaim
  | requeue (rounds : ℕ) (limit : Option ℤ)

namespace MaintenanceCall

def program (settings : WorkerSettings) : MaintenanceCall → QueueProg ℕ
  | .promote limit => promoteDelayedJobs limit
  | .reclaim => reclaimStaleProcessingJobs settings
  | .requeue rounds limit => requeueFailedJobs rounds limit

/-- The limit of a call, if it has one. -/
def limit : MaintenanceCall → Option ℤ
  | .promote limit => limit
  | .reclaim => none
  | .requeue _ limit => limit

end MaintenanceCall

/-- The calls that run, and the queue. -/
abbrev MaintenancePool (ι : Type*) := Pool ι MaintenanceCall (QueueProg ℕ) QueueStore

/-- What `reclaim_stale_processing_jobs` writes for an entry. -/
def reclaimedEntry (raw : String) : String :=
  ((Job.fromJson raw).map fun job => job.withoutProcessingStartedAt.toJson).getD raw

/-- The text of a job whose start of processing, if it has one, is a time with an offset. -/
def Readable (raw : String) : Prop :=
  ∃ job, Job.fromJson raw = some job ∧ ∀ text, job.processingStartedAt = some text →
    ∃ time, fromisoformat text = some (.aware time)

/-- The test for staleness of a readable entry has a result. -/
lemma isStale_of_readable {job : Job} (settings : WorkerSettings) (now : Datetime)
    (h : ∀ text, job.processingStartedAt = some text →
      ∃ time, fromisoformat text = some (.aware time)) :
    ∃ stale, isStale settings now job = .ret stale := by
  unfold isStale
  cases hstart : job.processingStartedAt with
  | none => exact ⟨true, rfl⟩
  | some text =>
      obtain ⟨time, htime⟩ := h text hstart
      simp only [htime]
      exact ⟨_, rfl⟩

/-! ### The commands as a ledger -/

namespace Command

/-- What is read from the failed and from the processing list is readable. -/
def ReadsReadable : (c : Command) → c.Reply → Prop
  | .redis (.rpop .failed), (raw : Option String) => ∀ x ∈ raw, (Job.fromJson x).isSome
  | .redis (.lrangeAll .processing), (raws : List String) => ∀ raw ∈ raws, Readable raw
  | _, _ => True

/-- What a command takes out of its structure, as it will stand in the main list. -/
def moves : (c : Command) → c.Reply → Multiset String
  | .redis (.rpop .failed), (raw : Option String) => raw.elim 0 fun x => {requeuedEntry x}
  | .redis (.lrem .processing raw), (removed : Bool) => if removed then {reclaimedEntry raw} else 0
  | .redis (.zrem .delayed raw), (removed : Bool) => if removed then {raw} else 0
  | _, _ => 0

/-- What a command writes to the main list. -/
def writes : Command → Multiset String
  | .redis (.lpush .main value) => {value}
  | _ => 0

end Command

namespace QueueStore

variable (s : QueueStore)

def main : Multiset String := s.redis.list .main

def delayed : Multiset String := (s.redis.zset .delayed).members

def processing : Multiset String := s.redis.list .processing

def failed : Multiset String := s.redis.list .failed

end QueueStore

section Multisets

variable {l : List String} {x : String} {f : String → String}

/-- An element that is removed from a list, if it is there. -/
lemma map_erase_add : ((l.erase x).map f : Multiset String) +
    (if decide (x ∈ l) = true then {f x} else 0) = (l.map f : Multiset String) := by
  by_cases hx : x ∈ l
  · rw [if_pos (decide_eq_true hx), ← Multiset.coe_singleton, Multiset.coe_add, Multiset.coe_eq_coe]
    have hperm := (List.perm_cons_erase hx).map f
    exact (List.perm_append_singleton _ _).trans hperm.symm
  · rw [if_neg (by simpa using hx), List.erase_of_not_mem hx, add_zero]

lemma map_dropLast_add : ((l.dropLast).map f : Multiset String) +
    l.getLast?.elim 0 (fun x => {f x}) = (l.map f : Multiset String) := by
  rcases List.eq_nil_or_concat' l with rfl | ⟨l, x, rfl⟩
  · rfl
  · simp [← Multiset.coe_add]

lemma coe_erase_le : (l.erase x : Multiset String) ≤ l := (List.erase_sublist).subperm

lemma coe_dropLast_le : (l.dropLast : Multiset String) ≤ l := (List.dropLast_sublist l).subperm

end Multisets

section Spec

variable {s s₀ : QueueStore}

/-- What holds of the queue while calls move entries to the main list: what is left to move is
readable, and there is no more of it than at the start. -/
structure Leaves (s₀ s : QueueStore) : Prop where
  processing : ∀ raw ∈ s.redis.list .processing, Readable raw
  failed : s.FailedReadable
  delayed_le : s.delayed ≤ s₀.delayed
  processing_le : s.processing ≤ s₀.processing
  failed_le : s.failed ≤ s₀.failed

/-- All entries, each as it stands in the main list or will stand there. -/
def QueueStore.entries (s : QueueStore) : Multiset String :=
  s.main + s.delayed + s.processing.map reclaimedEntry + s.failed.map requeuedEntry

lemma Leaves.mono {t : QueueStore} (hs : Leaves s₀ s) (hdelayed : t.delayed ≤ s.delayed)
    (hprocessing : t.processing ≤ s.processing) (hfailed : t.failed ≤ s.failed) : Leaves s₀ t where
  processing raw hraw := hs.processing raw (Multiset.mem_of_le hprocessing hraw)
  failed raw hraw := hs.failed raw (Multiset.mem_of_le hfailed hraw)
  delayed_le := hdelayed.trans hs.delayed_le
  processing_le := hprocessing.trans hs.processing_le
  failed_le := hfailed.trans hs.failed_le

/-- **What a Redis command of the operations does**: what it takes out of a structure is no longer
there, and what it writes is in the main list. -/
lemma exec_maintains {c : Redis.Command QueueKey} (hc : (Command.redis c).Maintains)
    (hs : Leaves s₀ s) :
    (Command.redis c).ReadsReadable (c.exec s.redis).1 ∧ Leaves s₀ (s.after c) ∧
      (s.after c).entries + (Command.redis c).moves (c.exec s.redis).1 =
        s.entries + (Command.redis c).writes ∧
      (s.after c).main = s.main + (Command.redis c).writes := by
  cases hc with
  | lpush value =>
      have hmain : (s.after (.lpush .main value)).main = s.main + {value} := by
        rw [add_comm, Multiset.singleton_add]
        simp [QueueStore.main, QueueStore.after, Redis.Command.exec]
      have hprocessing : (s.after (.lpush .main value)).processing = s.processing := by
        simp [QueueStore.processing, QueueStore.after, Redis.Command.exec]
      have hfailed : (s.after (.lpush .main value)).failed = s.failed := by
        simp [QueueStore.failed, QueueStore.after, Redis.Command.exec]
      have hdelayed : (s.after (.lpush .main value)).delayed = s.delayed := rfl
      refine ⟨trivial, hs.mono hdelayed.le hprocessing.le hfailed.le, ?_, hmain⟩
      show _ + 0 = s.entries + {value}
      rw [QueueStore.entries, QueueStore.entries, hmain, hprocessing, hfailed, hdelayed]
      abel
  | rpop =>
      have hmain : (s.after (.rpop .failed)).main = s.main := by
        simp [QueueStore.main, QueueStore.after, Redis.Command.exec]
      have hprocessing : (s.after (.rpop .failed)).processing = s.processing := by
        simp [QueueStore.processing, QueueStore.after, Redis.Command.exec]
      have hfailed : (s.after (.rpop .failed)).failed = ((s.redis.list .failed).dropLast :) := by
        simp [QueueStore.failed, QueueStore.after, Redis.Command.exec]
      have hdelayed : (s.after (.rpop .failed)).delayed = s.delayed := rfl
      refine ⟨fun raw hraw => hs.failed raw (List.mem_of_getLast? hraw),
        hs.mono hdelayed.le hprocessing.le (hfailed.trans_le coe_dropLast_le), ?_,
        hmain.trans (add_zero _).symm⟩
      have hmoved := map_dropLast_add (l := s.redis.list .failed) (f := requeuedEntry)
      show _ + (s.redis.list .failed).getLast?.elim 0 (fun raw => {requeuedEntry raw}) = _ + 0
      rw [QueueStore.entries, QueueStore.entries, hmain, hprocessing, hfailed, hdelayed,
        QueueStore.failed, Multiset.map_coe, Multiset.map_coe, ← hmoved]
      abel
  | lrem raw =>
      have hmain : (s.after (.lrem .processing raw)).main = s.main := by
        simp [QueueStore.main, QueueStore.after, Redis.Command.exec]
      have hprocessing : (s.after (.lrem .processing raw)).processing =
          ((s.redis.list .processing).erase raw :) := by
        simp [QueueStore.processing, QueueStore.after, Redis.Command.exec]
      have hfailed : (s.after (.lrem .processing raw)).failed = s.failed := by
        simp [QueueStore.failed, QueueStore.after, Redis.Command.exec]
      have hdelayed : (s.after (.lrem .processing raw)).delayed = s.delayed := rfl
      refine ⟨trivial, hs.mono hdelayed.le (hprocessing.trans_le coe_erase_le) hfailed.le, ?_,
        hmain.trans (add_zero _).symm⟩
      have hmoved := map_erase_add (l := s.redis.list .processing) (x := raw) (f := reclaimedEntry)
      show _ + (if decide (raw ∈ s.redis.list .processing) = true then {reclaimedEntry raw} else 0) =
        _ + 0
      rw [QueueStore.entries, QueueStore.entries, hmain, hprocessing, hfailed, hdelayed,
        QueueStore.processing, Multiset.map_coe, Multiset.map_coe, ← hmoved]
      abel
  | lrangeAll =>
      exact ⟨hs.processing, hs, rfl, (add_zero _).symm⟩
  | zrem m =>
      have hdelayed : (s.after (.zrem .delayed m)).delayed =
          ((s.redis.zset .delayed).members.erase m :) := by
        simp [QueueStore.delayed, QueueStore.after, Redis.Command.exec,
          Redis.SortedSet.members_erase]
      have hmoved := map_erase_add (l := (s.redis.zset .delayed).members) (x := m) (f := id)
      rw [List.map_id, List.map_id, id] at hmoved
      refine ⟨trivial, hs.mono (hdelayed.trans_le coe_erase_le) le_rfl le_rfl, ?_,
        (add_zero _).symm⟩
      show _ + (if decide (m ∈ (s.redis.zset .delayed).members) = true then
        ({m} : Multiset String) else 0) = _ + 0
      have hentries : s.entries = s.main + (s.redis.zset .delayed).members +
          s.processing.map reclaimedEntry + s.failed.map requeuedEntry := rfl
      have hafter : (s.after (.zrem .delayed m)).entries =
          s.main + ((s.redis.zset .delayed).members.erase m :) +
            s.processing.map reclaimedEntry + s.failed.map requeuedEntry := by
        rw [← hdelayed]
        rfl
      rw [hentries, hafter, ← hmoved]
      abel
  | zrangebyscore low high => exact ⟨trivial, hs, rfl, (add_zero _).symm⟩

end Spec

/-- The entries of the queue, which the calls move to the main list. -/
def maintenance (s₀ : QueueStore) : Ledger interp String where
  inv := Leaves s₀
  stock := QueueStore.entries
  received := QueueStore.main
  allowed := Command.Maintains
  ok := Command.ReadsReadable
  takes := Command.moves
  gives := Command.writes
  spec := by
    intro c e s x t hc hs h
    cases c with
    | redis c =>
        obtain ⟨rfl, rfl⟩ := Prod.mk.inj (Option.some.inj h)
        exact ⟨_, rfl, exec_maintains hc hs⟩
    | utcNow | time =>
        obtain ⟨rfl, rfl⟩ := Prod.mk.inj (Option.some.inj h)
        exact ⟨_, rfl, trivial, hs, rfl, (add_zero _).symm⟩
    | push job => cases hc
    | remove job => cases hc
    | handle job => cases hc

/-! ### The calls are balanced -/

section Balanced

variable {s₀ : QueueStore} {settings : WorkerSettings} {limit : Option ℤ} {given : Multiset String}
  {n : ℕ}

/-- A call returns how many entries it has written, and these are no more than its limit. -/
def Counts (limit : Option ℤ) (given : Multiset String) (n : ℕ) : Prop :=
  n = given.card ∧ ∀ m ∈ limit, n ≤ m.toNat

/-- One entry more, when the limit is not reached. -/
lemma Counts.succ {value : String} (h : Counts limit given n) (hlimit : reached limit n = false) :
    Counts limit (given + {value}) (n + 1) := by
  refine ⟨by rw [Multiset.card_add, Multiset.card_singleton, h.1], fun m hm => ?_⟩
  obtain rfl : limit = some m := hm
  have hlt : (n : ℤ) < m := by simpa [reached] using hlimit
  omega

lemma counts_zero (limit : Option ℤ) : Counts limit 0 0 :=
  ⟨rfl, fun _ _ => Nat.zero_le _⟩

/-- The rule for the removal of an entry that is then written to the main list. -/
lemma balanced_move {c : Command} {r : c.Reply} {post : Multiset String → ℕ → Prop}
    {p rest : QueueProg ℕ} {value : String} (hmoves : c.moves r = {value}) (hwrites : c.writes = 0)
    (hp : p = (lpush .main value).bind fun _ => rest)
    (hrest : (maintenance s₀).Balanced post rest (given + {value}) 0) :
    ∃ hand, hand + (maintenance s₀).gives c = 0 + (maintenance s₀).takes c r ∧
      (maintenance s₀).Balanced post p (given + (maintenance s₀).gives c) hand := by
  have htakes : (maintenance s₀).takes c r = {value} := hmoves
  have hgives : (maintenance s₀).gives c = 0 := hwrites
  rw [htakes, hgives, add_zero]
  refine ⟨{value}, by rw [add_zero, zero_add], ?_⟩
  rw [hp]
  exact ⟨.lpush value, fun _ _ => ⟨0, add_comm _ _, hrest⟩⟩

/-- The rule for a removal that does not find the entry. -/
lemma balanced_miss {c : Command} {r : c.Reply} {post : Multiset String → ℕ → Prop}
    {p : QueueProg ℕ} (hmoves : c.moves r = 0) (hwrites : c.writes = 0)
    (hrest : (maintenance s₀).Balanced post p given 0) :
    ∃ hand, hand + (maintenance s₀).gives c = 0 + (maintenance s₀).takes c r ∧
      (maintenance s₀).Balanced post p (given + (maintenance s₀).gives c) hand := by
  have htakes : (maintenance s₀).takes c r = 0 := hmoves
  have hgives : (maintenance s₀).gives c = 0 := hwrites
  rw [htakes, hgives, add_zero]
  refine ⟨0, rfl, ?_⟩
  rw [add_zero]
  exact hrest

lemma balanced_promoteLoop (raws : List String) (h : Counts limit given n) :
    (maintenance s₀).Balanced (Counts limit) (promoteLoop limit raws n) given 0 := by
  induction raws generalizing n given with
  | nil => exact ⟨rfl, h⟩
  | cons raw raws ih =>
      rw [promoteLoop]
      split_ifs with hreached
      · exact ⟨rfl, h⟩
      · refine ⟨.zrem raw, fun removed _ => ?_⟩
        cases removed with
        | false => exact balanced_miss (c := .redis (.zrem .delayed raw)) (r := false) rfl rfl (ih h)
        | true =>
            exact balanced_move (c := .redis (.zrem .delayed raw)) (r := true) rfl rfl rfl
              (ih (h.succ (by simpa using hreached)))

lemma balanced_reclaimLoop (now : Datetime) (raws : List String)
    (hraws : ∀ raw ∈ raws, Readable raw) (h : Counts none given n) :
    (maintenance s₀).Balanced (Counts none) (reclaimLoop settings now raws n) given 0 := by
  induction raws generalizing n given with
  | nil => exact ⟨rfl, h⟩
  | cons raw raws ih =>
      have hrest : ∀ raw' ∈ raws, Readable raw' := fun raw' hraw' =>
        hraws raw' (List.mem_cons_of_mem raw hraw')
      obtain ⟨job, hjob, hstart⟩ := hraws raw List.mem_cons_self
      obtain ⟨stale, hstale⟩ := isStale_of_readable settings now hstart
      rw [reclaimLoop, hjob]
      simp only [Prog.getOrRaise, Prog.bind_def, Prog.ret_bind, hstale]
      split_ifs
      · refine ⟨.lrem raw, fun removed _ => ?_⟩
        cases removed with
        | false =>
            exact balanced_miss (c := .redis (.lrem .processing raw)) (r := false) rfl rfl
              (ih hrest h)
        | true =>
            have hentry : reclaimedEntry raw = job.withoutProcessingStartedAt.toJson := by
              simp [reclaimedEntry, hjob]
            refine balanced_move (c := .redis (.lrem .processing raw)) (r := true) ?_ rfl rfl
              (ih hrest (h.succ rfl))
            exact congrArg ({·}) hentry
      · exact ih hrest h

lemma balanced_requeueLoop (rounds : ℕ) (h : Counts limit given n) :
    (maintenance s₀).Balanced (Counts limit) (requeueLoop limit rounds n) given 0 := by
  induction rounds generalizing n given with
  | zero => exact ⟨rfl, h⟩
  | succ rounds ih =>
      rw [requeueLoop]
      split_ifs with hreached
      · exact ⟨rfl, h⟩
      · refine ⟨.rpop, fun popped hpopped => ?_⟩
        cases popped with
        | none =>
            exact balanced_miss (c := .redis (.rpop .failed)) (r := none) rfl rfl
              (p := .ret n) ⟨rfl, h⟩
        | some raw =>
            obtain ⟨job, hjob⟩ := Option.isSome_iff_exists.1 (hpopped raw rfl)
            have hentry : requeuedEntry raw = job.toJson := by simp [requeuedEntry, hjob]
            refine balanced_move (c := .redis (.rpop .failed)) (r := some raw)
              (congrArg ({·}) hentry) rfl ?_ (ih (h.succ (by simpa using hreached)))
            show ((Prog.getOrRaise _ (Job.fromJson raw)).bind _ : QueueProg ℕ) = _
            rw [hjob]
            rfl

/-- **Every call is balanced.** -/
theorem balanced_program (q : MaintenanceCall) :
    (maintenance s₀).Balanced (Counts q.limit) (q.program settings) 0 0 := by
  cases q with
  | promote limit =>
      refine Ledger.balanced_read .time rfl fun time _ => ⟨rfl, ?_⟩
      refine Ledger.balanced_read (.zrangebyscore 0 time) rfl fun raws _ => ⟨rfl, ?_⟩
      exact balanced_promoteLoop raws (counts_zero limit)
  | reclaim =>
      refine Ledger.balanced_read .utcNow rfl fun now _ => ⟨rfl, ?_⟩
      refine Ledger.balanced_read .lrangeAll rfl fun raws hraws => ⟨rfl, ?_⟩
      exact balanced_reclaimLoop now raws hraws (counts_zero none)
  | requeue rounds limit => exact balanced_requeueLoop rounds (counts_zero limit)

end Balanced

/-! ### Runs -/

namespace MaintenancePool

variable {ι : Type} [DecidableEq ι] (settings : WorkerSettings)

/-- One step of one call. -/
def step (s : MaintenancePool ι) (a : PoolAction ι MaintenanceCall Env) :
    Option (MaintenancePool ι) :=
  Pool.next interp (MaintenanceCall.program settings) s a

/-- All calls have finished. -/
def Finished (s : MaintenancePool ι) : Prop :=
  ∀ i q p, s.calls i = some (q, p) → p.command = none

/-- The number that a call has returned. -/
def returned (s : MaintenancePool ι) (i : ι) : ℕ :=
  match s.calls i with
  | some (_, .ret n) => n
  | _ => 0

/-- The entries that a call has written to the main list in a run. -/
def movedBy (s₀ : QueueStore) (as : List (PoolAction ι MaintenanceCall Env)) (i : ι) :
    Multiset String :=
  (maintenance s₀).givenBy (MaintenanceCall.program settings) s₀ as i

variable {settings} [Fintype ι] {s₀ : QueueStore} {as : List (PoolAction ι MaintenanceCall Env)}
  {t : MaintenancePool ι}

/-- **Concurrent maintenance moves every entry once.**  When all calls have finished, and none of
them has died, the entries that have left the delayed, the processing and the failed
structure are the new entries of the main list, each of them once; the returned counts add
up to their number; and every call returns how many entries it has moved, which are no more
than its limit. -/
theorem maintenance_moves_once (hprocessing : ∀ raw ∈ s₀.redis.list .processing, Readable raw)
    (hfailed : s₀.FailedReadable) (hdie : ∀ i, .die i ∉ as)
    (h : exec (step settings) (Pool.initial s₀ : MaintenancePool ι) as = some t)
    (hend : Finished t) :
    (∃ promoted reclaimed requeued : Multiset String,
      s₀.delayed = t.store.delayed + promoted ∧ s₀.processing = t.store.processing + reclaimed ∧
      s₀.failed = t.store.failed + requeued ∧
      t.store.main = s₀.main + promoted + reclaimed.map reclaimedEntry +
        requeued.map requeuedEntry ∧
      ∑ i, returned t i = promoted.card + reclaimed.card + requeued.card) ∧
    ∀ i q p, t.calls i = some (q, p) → p = .ret (movedBy settings s₀ as i).card ∧
      ∀ m ∈ q.limit, (movedBy settings s₀ as i).card ≤ m.toNat := by
  have hleaves : Leaves s₀ s₀ := ⟨hprocessing, hfailed, le_rfl, le_rfl, le_rfl⟩
  have hbalanced : ∀ q : MaintenanceCall,
      (maintenance s₀).Balanced (Counts q.limit) (q.program settings) 0 0 := balanced_program
  obtain ⟨hend', hstock, hmain, hcalls, hidle⟩ := Ledger.settled_run hbalanced hleaves hdie h hend
  obtain ⟨promoted, hpromoted⟩ := Multiset.le_iff_exists_add.1 hend'.delayed_le
  obtain ⟨reclaimed, hreclaimed⟩ := Multiset.le_iff_exists_add.1 hend'.processing_le
  obtain ⟨requeued, hrequeued⟩ := Multiset.le_iff_exists_add.1 hend'.failed_le
  have hmoved : t.store.main = s₀.main + promoted + reclaimed.map reclaimedEntry +
      requeued.map requeuedEntry := by
    have hall : t.store.entries = s₀.entries := hstock
    rw [QueueStore.entries, QueueStore.entries, hpromoted, hreclaimed, hrequeued,
      Multiset.map_add, Multiset.map_add] at hall
    refine add_right_cancel (b := t.store.delayed + t.store.processing.map reclaimedEntry +
      t.store.failed.map requeuedEntry) ?_
    calc t.store.main + (t.store.delayed + t.store.processing.map reclaimedEntry +
          t.store.failed.map requeuedEntry)
        = t.store.main + t.store.delayed + t.store.processing.map reclaimedEntry +
          t.store.failed.map requeuedEntry := by abel
      _ = _ := hall
      _ = _ := by abel
  have hreturned : ∀ i, returned t i = (movedBy settings s₀ as i).card := by
    intro i
    rcases hi : t.calls i with _ | ⟨q, p⟩
    · rw [returned, hi, movedBy, hidle i hi]
      rfl
    · obtain ⟨n, rfl, hn, -⟩ := hcalls i q p hi
      rw [returned, hi]
      exact hn
  refine ⟨⟨promoted, reclaimed, requeued, hpromoted, hreclaimed, hrequeued, hmoved, ?_⟩,
    fun i q p hi => ?_⟩
  · have hcard := congrArg Multiset.card (hmain.symm.trans hmoved)
    have hsum : (maintenance s₀).received s₀ = s₀.main := rfl
    simp only [hsum, Multiset.card_add, Multiset.card_map] at hcard
    have htotal : ∑ i, returned t i = (∑ i, movedBy settings s₀ as i).card := by
      rw [Multiset.card_sum]
      exact Finset.sum_congr rfl fun i _ => hreturned i
    rw [htotal]
    change _ + (∑ i, movedBy settings s₀ as i).card = _ at hcard
    omega
  · obtain ⟨n, rfl, hn, hlimit⟩ := hcalls i q p hi
    exact ⟨congrArg Prog.ret hn, fun m hm => hn.symm.trans_le (hlimit m hm)⟩

/-- One entry is due. -/
def oneDue : QueueStore :=
  ⟨⟨fun _ => [], fun
    | .delayed => (∅ : Redis.SortedSet).add "a" 0
    | _ => ∅⟩, [], [], []⟩

/-- Two calls read the entry, and then both try to remove it. -/
def bothPromote : List (PoolAction Bool MaintenanceCall Env) :=
  [.start false (.promote none), .start true (.promote (some 1)), .step false someEnv,
    .step true someEnv, .step false someEnv, .step true someEnv, .step false someEnv,
    .step true someEnv, .step false someEnv]

/-- One of them moves it, and the counts add up to one. -/
theorem maintenance_moves_once_bothPromote : ∃ t : MaintenancePool Bool,
    exec (step {}) (Pool.initial oneDue) bothPromote = some t ∧
      returned t false = 1 ∧ returned t true = 0 ∧
      (∃ promoted reclaimed requeued : Multiset String,
        oneDue.delayed = t.store.delayed + promoted ∧
        ∑ i, returned t i = promoted.card + reclaimed.card + requeued.card) ∧
      (movedBy {} oneDue bothPromote true).card ≤ 1 := by
  obtain ⟨t, ht, hfalse, htrue, ⟨p, hp⟩, ⟨p', hp'⟩⟩ : ∃ t : MaintenancePool Bool,
      exec (step {}) (Pool.initial oneDue) bothPromote = some t ∧
        returned t false = 1 ∧ returned t true = 0 ∧
        (∃ n, t.calls false = some (.promote none, .ret n)) ∧
        ∃ n, t.calls true = some (.promote (some 1), .ret n) :=
    ⟨_, rfl, rfl, rfl, ⟨_, rfl⟩, ⟨_, rfl⟩⟩
  have hend : Finished t := by
    intro i q x hi
    cases i with
    | false =>
        obtain ⟨-, rfl⟩ := Prod.mk.inj (Option.some.inj (hp.symm.trans hi))
        rfl
    | true =>
        obtain ⟨-, rfl⟩ := Prod.mk.inj (Option.some.inj (hp'.symm.trans hi))
        rfl
  have hprocessing : ∀ raw ∈ oneDue.redis.list .processing, Readable raw := by simp [oneDue]
  have hfailed : oneDue.FailedReadable := by simp [QueueStore.FailedReadable, oneDue]
  have hdie : ∀ i, .die i ∉ bothPromote := by simp [bothPromote]
  obtain ⟨⟨promoted, reclaimed, requeued, hdelayed, -, -, -, hsum⟩, hcalls⟩ :=
    maintenance_moves_once hprocessing hfailed hdie ht hend
  exact ⟨t, ht, hfalse, htrue, ⟨promoted, reclaimed, requeued, hdelayed, hsum⟩,
    (hcalls true _ _ hp').2 1 rfl⟩

end MaintenancePool

end StarterBackend.Queue

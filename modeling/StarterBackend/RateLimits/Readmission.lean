/-
A rate-limited client is let in again.

The call that creates the counter of a key lets it expire with a second command.  If it
gets there, the key is gone a window after the last call, and the next call counts one.
If it dies before, or its `EXPIRE` fails, or the reply of its `INCR` is lost, then nothing
lets the key expire any more, and it counts on forever.
-/
import StarterBackend.RateLimits.Window

namespace StarterBackend.RateLimits

open Lib Webhooks
open App (AppError)

section

variable {K : Type} [Field K] [LinearOrder K]

/-! ### Failures -/

/-- What the environment chooses at a command: a Redis command may fail before its effect, or
after it. -/
structure Weather (K : Type) where
  env : Env K
  replyLost : Bool := false

/-- Redis is available, and takes an expired key for gone. -/
def Weather.Available (x : Weather K) : Prop :=
  x.env.redisFails = false ∧ x.replyLost = false ∧ x.env.lingers = false

/-- The reply of a Redis command whose connection breaks. -/
def lostReply : (c : Command K) → c.Reply → c.Reply
  | .redisIncr _, _ => none
  | .redisExpire _ _, _ => none
  | .redisSetNx _ _, _ => none
  | .redisDelete _, _ => none
  | _, r => r

/-- What a command does, when its reply can be lost. -/
def Weather.exec (x : Weather K) (c : Command K) (w : World K) : c.Reply × World K :=
  (if x.replyLost then lostReply c (c.exec x.env w).1 else (c.exec x.env w).1, (c.exec x.env w).2)

/-- A command is executed at a time that is not before the clock. -/
def unreliable : Prog.Interp (Command K) Command.Reply AppError (World K) (Weather K) :=
  fun c x w =>
    if w.clock ≤ x.env.now then
      some (.ok (x.exec c w).1, { (x.exec c w).2 with clock := x.env.now })
    else none

lemma unreliable_eq_some {c : Command K} {x : Weather K} {w w' : World K}
    {y : Except AppError c.Reply} (h : unreliable c x w = some (y, w')) :
    w.clock ≤ x.env.now ∧ y = .ok (x.exec c w).1 ∧
      w' = { (x.exec c w).2 with clock := x.env.now } := by
  unfold unreliable at h
  split_ifs at h with hclock
  obtain ⟨rfl, rfl⟩ := Prod.mk.inj (Option.some.inj h)
  exact ⟨hclock, rfl, rfl⟩

variable {ι : Type} [DecidableEq ι]

/-- One step of the calls of all clients. -/
def Limits.next (limits : Limits) :
    Calls ι K → PoolAction ι String (Weather K) → Option (Calls ι K) :=
  Pool.next unreliable limits.body

/-- The call that has created the key gets its expiry set: its `EXPIRE` takes effect, it does not
die before, and it learns of its `INCR`. -/
def SetsExpiry (key : String) (s : Calls ι K) : PoolAction ι String (Weather K) → Prop
  | .start _ _ => True
  | .step i x =>
      match s.calls i with
      | some (_, .call (.redisIncr key') _) =>
          key' = key → x.env.redisFails = false → x.replyLost = true →
            (s.store.keys.entry x.env.now x.env.lingers key).isSome
      | some (_, .call (.redisExpire key' _) _) => key' = key → x.env.redisFails = false
      | _ => True
  | .die i =>
      match s.calls i with
      | some (_, .call (.redisExpire key' _) _) => key' ≠ key
      | _ => True

/-- No call of the key is in progress. -/
def Idle (key : String) (s : Calls ι K) : Prop :=
  ∀ i c k, s.calls i ≠ some (key, .call c k)

/-- No call of the key issues a command. -/
def Silent (key : String) (s : Calls ι K) : PoolAction ι String (Weather K) → Prop
  | .step i _ => ∀ p, s.calls i ≠ some (key, p)
  | _ => True

/-- The key is absent, or expires within a window. -/
def Expires (limits : Limits) (key : String) (w : World K) : Prop :=
  ∀ entry, w.keys key = some entry →
    ∃ d, entry.deadline = some d ∧ d ≤ w.clock + limits.windowSeconds key

/-! ### The invariant -/

/-- The key expires within a window, or a call is about to let it expire. -/
def Expiring (limits : Limits) (key : String) (phases : ι → Option (String × Phase))
    (w : World K) : Prop :=
  ∀ entry, w.keys key = some entry →
    (∃ d, entry.deadline = some d ∧ d ≤ w.clock + limits.windowSeconds key) ∨
      (entry.deadline = none ∧ ∃ i, phases i = some (key, .expiring))

section Invariant

variable {limits : Limits} {key : String} {phases phases' : ι → Option (String × Phase)}
  {w w' : World K} {s t : Calls ι K}

omit [DecidableEq ι] in
/-- A step that does not touch the key, and leaves the calls that let it expire. -/
lemma Expiring.frame [IsStrictOrderedRing K] (h : Expiring limits key phases w)
    (hphases : ∀ i, phases i = some (key, .expiring) → phases' i = some (key, .expiring))
    (hkeys : w'.keys key = w.keys key) (hclock : w.clock ≤ w'.clock) :
    Expiring limits key phases' w' := by
  intro entry hentry
  rw [hkeys] at hentry
  rcases h entry hentry with ⟨d, hd, hle⟩ | ⟨hnone, i, hi⟩
  · exact .inl ⟨d, hd, by linarith⟩
  · exact .inr ⟨hnone, i, hphases i hi⟩

/-- The phase of a process that has none of expiring changes. -/
lemma expiring_update {i : ι} {q : String} {ph : Phase}
    (hi : phases i ≠ some (key, .expiring)) :
    ∀ j, phases j = some (key, .expiring) →
      Function.update phases i (some (q, ph)) j = some (key, .expiring) := by
  intro j hj
  have hne : j ≠ i := by
    rintro rfl
    exact hi hj
  rwa [Function.update_of_ne hne]

/-- **What an `INCR` does**: it changes nothing, or creates the key, or counts on. -/
lemma incr_effect (x : Weather K) (w : World K) (key : String) :
    x.exec (.redisIncr key) w = (none, w) ∨
    (x.env.redisFails = false ∧ w.keys.entry x.env.now x.env.lingers key = none ∧
      x.exec (.redisIncr key) w = (if x.replyLost then none else some 1,
        { w with keys := w.keys.put key ⟨"1", none⟩ })) ∨
    ∃ entry r value, w.keys key = some entry ∧
      x.exec (.redisIncr key) w =
        (r, { w with keys := w.keys.put key { entry with value } }) := by
  cases hfails : x.env.redisFails with
  | true =>
      refine .inl ?_
      simp only [Weather.exec, Command.exec, Redis.Keys.incr, unlessFails, hfails]
      cases hentry : w.keys.entry x.env.now x.env.lingers key with
      | none => cases x.replyLost <;> rfl
      | some entry =>
          cases hn : PyText.parseInt entry.value with
          | none => cases x.replyLost <;> simp [hn, lostReply]
          | some n => cases x.replyLost <;> simp [hn, lostReply]
  | false =>
      rcases incr_cases hfails w key with ⟨-, hnone, hexec⟩ | ⟨entry, n, hentry, -, -, hexec⟩ |
        ⟨entry, hentry, hn, hexec⟩
      · refine .inr (.inl ⟨rfl, Option.isNone_iff_eq_none.1 hnone, ?_⟩)
        rw [Weather.exec, hexec]
        rfl
      · refine .inr (.inr ⟨entry, (x.exec (.redisIncr key) w).1, (n + 1).repr, hentry, ?_⟩)
        rw [Weather.exec, hexec]
      · refine .inl ?_
        rw [Weather.exec, hexec]
        cases x.replyLost <;> rfl

omit [Field K] [LinearOrder K] in
/-- The rest of a call after its `INCR`. -/
lemma exists_phase_incr (limits : Limits) (key : String) (r : Option ℤ) :
    ∃ ph, limits.program (K := K) key ph =
      (Prog.getOrRaise redisUnavailable r).bind fun n =>
        limits.program key (if n = 1 then .expiring else .judged n) := by
  cases r with
  | none => exact ⟨.failed, rfl⟩
  | some n => exact ⟨if n = 1 then .expiring else .judged n, rfl⟩

omit [Field K] [LinearOrder K] in
/-- The command of a call is on its key, and leads on to another phase, whatever the reply. -/
lemma command_cases {q : String} {ph : Phase} {c : Command K} {k : c.Reply → WebhookProg K Unit}
    (hp : limits.program q ph = .call c k) :
    (ph = .counting ∧ ∃ hc : c = .redisIncr q, ∀ r : Option ℤ, k (hc ▸ r) =
      (Prog.getOrRaise redisUnavailable r).bind fun n =>
        limits.program q (if n = 1 then .expiring else .judged n)) ∨
    (ph = .expiring ∧ ∃ hc : c = .redisExpire q (limits.windowSeconds q), ∀ r : Option Unit,
      k (hc ▸ r) = (Prog.getOrRaise redisUnavailable r).bind fun _ => verdict (limits.limit q) 1) := by
  cases ph with
  | counting =>
      rw [Limits.program, Limits.body_eq] at hp
      cases hp
      exact .inl ⟨rfl, rfl, fun _ => rfl⟩
  | expiring =>
      cases hp
      exact .inr ⟨rfl, rfl, fun _ => rfl⟩
  | judged n =>
      rw [Limits.program, verdict] at hp
      split_ifs at hp
  | failed => cases hp

omit [Field K] [LinearOrder K] in
/-- The rest of a call after its `EXPIRE`. -/
lemma exists_phase_expire (limits : Limits) (key : String) (r : Option Unit) :
    ∃ ph, limits.program (K := K) key ph =
      (Prog.getOrRaise redisUnavailable r).bind fun _ => verdict (limits.limit key) 1 := by
  cases r with
  | none => exact ⟨.failed, rfl⟩
  | some _ => exact ⟨.judged 1, rfl⟩

variable [IsStrictOrderedRing K]

/-- The `INCR` of a call. -/
lemma expiring_incr {i : ι} {x : Weather K} {q : String} (h : Expiring limits key phases s.store)
    (hclock : s.store.clock ≤ x.env.now) (hi : phases i = some (q, .counting))
    (hsets : q = key → x.env.redisFails = false → x.replyLost = true →
      (s.store.keys.entry x.env.now x.env.lingers key).isSome) :
    ∃ ph', limits.program (K := K) q ph' = (Prog.getOrRaise redisUnavailable
        (x.exec (.redisIncr q) s.store).1).bind (fun n =>
          limits.program q (if n = 1 then .expiring else .judged n)) ∧
      Expiring limits key (Function.update phases i (some (q, ph')))
        { (x.exec (.redisIncr q) s.store).2 with clock := x.env.now } := by
  have hcounting : phases i ≠ some (key, .expiring) := by simp [hi]
  obtain ⟨ph, hph⟩ := exists_phase_incr (K := K) limits q (x.exec (.redisIncr q) s.store).1
  rcases eq_or_ne q key with rfl | hq
  · rcases incr_effect x s.store q with hexec | ⟨hfails, hentry, hexec⟩ |
      ⟨entry, r, value, hentry, hexec⟩
    · refine ⟨ph, hph, ?_⟩
      rw [hexec]
      exact h.frame (expiring_update hcounting) rfl hclock
    · cases hlost : x.replyLost with
      | true =>
          have hsome := hsets rfl hfails hlost
          rw [hentry] at hsome
          nomatch hsome
      | false =>
          rw [hexec, hlost]
          refine ⟨.expiring, rfl, fun entry hentry => ?_⟩
          obtain rfl := Option.some.inj (Redis.Keys.put_self.symm.trans hentry)
          exact .inr ⟨rfl, i, Function.update_self ..⟩
    · refine ⟨ph, hph, fun entry' hentry' => ?_⟩
      rw [hexec] at hentry'
      obtain rfl := Option.some.inj (Redis.Keys.put_self.symm.trans hentry')
      rcases h entry hentry with ⟨d, hd, hle⟩ | ⟨hnone, j, hj⟩
      · refine .inl ⟨d, hd, hle.trans ?_⟩
        simpa using hclock
      · exact .inr ⟨hnone, j, expiring_update hcounting j hj⟩
  · refine ⟨ph, hph, h.frame (expiring_update hcounting) ?_ hclock⟩
    rcases incr_effect x s.store q with hexec | ⟨-, -, hexec⟩ | ⟨entry, r, value, -, hexec⟩ <;>
      rw [hexec]
    · exact Redis.Keys.put_of_ne (Ne.symm hq)
    · exact Redis.Keys.put_of_ne (Ne.symm hq)

/-- The `EXPIRE` of a call. -/
lemma expiring_expire {i : ι} {x : Weather K} {q : String} {ph' : Phase}
    (h : Expiring limits key phases s.store) (hclock : s.store.clock ≤ x.env.now)
    (hi : phases i = some (q, .expiring))
    (hsets : q = key → x.env.redisFails = false) :
    Expiring limits key (Function.update phases i (some (q, ph')))
      { (x.exec (.redisExpire q (limits.windowSeconds q)) s.store).2 with clock := x.env.now } := by
  rcases eq_or_ne q key with rfl | hq
  · intro entry' hentry'
    have hexec : (x.exec (.redisExpire q (limits.windowSeconds q)) s.store).2 =
        { s.store with keys :=
            s.store.keys.expire x.env.now x.env.lingers q (limits.windowSeconds q) } := by
      simp [Weather.exec, Command.exec, unlessFails, hsets rfl]
    rw [hexec] at hentry' ⊢
    simp only [Redis.Keys.expire] at hentry'
    cases hseen : s.store.keys.entry x.env.now x.env.lingers q with
    | none =>
        rw [hseen] at hentry'
        rcases h entry' hentry' with ⟨d, hd, hle⟩ | ⟨hnone, -⟩
        · exact .inl ⟨d, hd, hle.trans (by simpa using hclock)⟩
        · -- a key without a deadline is seen
          have hpresent : s.store.keys.entry x.env.now x.env.lingers q = some entry' := by
            simp [Redis.Keys.entry, Option.filter_eq_some_iff, hentry', Redis.Keys.present, hnone]
          rw [hseen] at hpresent
          cases hpresent
    | some entry =>
        rw [hseen] at hentry'
        obtain rfl := Option.some.inj (Redis.Keys.put_self.symm.trans hentry')
        exact .inl ⟨_, rfl, by simp⟩
  · refine h.frame (expiring_update fun heq => ?_) ?_ hclock
    · rw [hi, Option.some.injEq, Prod.mk.injEq] at heq
      exact hq heq.1
    · cases hfails : x.env.redisFails <;>
        simp [Weather.exec, Command.exec, unlessFails, hfails, Redis.Keys.expire_of_ne hq.symm]

/-- **One step.** -/
theorem expiring_next {a : PoolAction ι String (Weather K)}
    (hseen : Pool.SeenAs limits.program s phases) (h : Expiring limits key phases s.store)
    (ha : SetsExpiry key s a) (hstep : limits.next s a = some t) :
    ∃ phases', Pool.SeenAs limits.program t phases' ∧ Expiring limits key phases' t.store := by
  rcases Pool.next_cases hstep with ⟨i, q, rfl, hi, rfl⟩ |
    ⟨i, x, q, c, k, p', w, rfl, hi, rfl, hcmd⟩ | ⟨i, q, p, rfl, hi, rfl⟩
  · have hnone : phases i = none := Option.map_eq_none_iff.1 ((hseen i).symm.trans hi)
    exact ⟨_, hseen.update (show limits.program q .counting = limits.body q from rfl),
      h.frame (expiring_update (by simp [hnone])) rfl le_rfl⟩
  · obtain ⟨ph, hph, hp⟩ := hseen.exists_phase hi
    obtain ⟨r, hexec, rfl⟩ : ∃ r, unreliable c x s.store = some (.ok r, w) ∧ p' = k r := by
      rcases hcmd with ⟨y, hexec, -⟩ | hok
      · nomatch (unreliable_eq_some hexec).2.1
      · exact hok
    obtain ⟨hclock, hr, rfl⟩ := unreliable_eq_some hexec
    obtain rfl := Except.ok.inj hr
    simp only [SetsExpiry, hi] at ha
    rcases command_cases hp with ⟨rfl, rfl, hk⟩ | ⟨rfl, rfl, hk⟩
    · obtain ⟨ph', hph', hexpiring⟩ := expiring_incr h hclock hph ha
      exact ⟨_, hseen.update (hph'.trans (hk _).symm), hexpiring⟩
    · obtain ⟨ph', hph'⟩ := exists_phase_expire (K := K) limits q
        (x.exec (.redisExpire q (limits.windowSeconds q)) s.store).1
      exact ⟨_, hseen.update (hph'.trans (hk _).symm), expiring_expire h hclock hph ha⟩
  · simp only [SetsExpiry, hi] at ha
    obtain ⟨ph, hph, hp⟩ := hseen.exists_phase hi
    refine ⟨_, hseen.die, h.frame (fun j hj => ?_) rfl le_rfl⟩
    have hne : j ≠ i := by
      rintro rfl
      obtain ⟨rfl, rfl⟩ := Prod.mk.inj (Option.some.inj (hph.symm.trans hj))
      rw [← hp] at ha
      exact ha rfl
    rwa [Function.update_of_ne hne]

/-- **A run.** -/
theorem expiring_run {w₀ : World K} (hkey : w₀.keys key = none)
    {as : List (PoolAction ι String (Weather K))}
    (hsets : Along limits.next (SetsExpiry key) (Pool.initial w₀) as)
    (h : exec limits.next (Pool.initial w₀) as = some t) :
    ∃ phases, Pool.SeenAs limits.program t phases ∧ Expiring limits key phases t.store :=
  exec_invariant_along
    (I := fun t => ∃ phases, Pool.SeenAs limits.program t phases ∧ Expiring limits key phases t.store)
    (fun _ _ _ ⟨_, hseen, hexpiring⟩ ha hstep => expiring_next hseen hexpiring ha hstep)
    ⟨_, Pool.seenAs_initial w₀, fun entry hentry => by
      have hnone : w₀.keys key = some entry := hentry
      rw [hkey] at hnone
      nomatch hnone⟩ hsets h

omit [IsStrictOrderedRing K] in
/-- One step without a command of the key. -/
lemma silent_next {a : PoolAction ι String (Weather K)}
    (hseen : Pool.SeenAs limits.program s phases) (ha : Silent key s a)
    (hstep : limits.next s a = some t) :
    t.store.keys key = s.store.keys key ∧ ∃ phases', Pool.SeenAs limits.program t phases' := by
  rcases Pool.next_cases hstep with ⟨i, q, rfl, hi, rfl⟩ |
    ⟨i, x, q, c, k, p', w, rfl, hi, rfl, hcmd⟩ | ⟨i, q, p, rfl, hi, rfl⟩
  · exact ⟨rfl, _, hseen.update (show limits.program q .counting = limits.body q from rfl)⟩
  · obtain ⟨ph, hph, hp⟩ := hseen.exists_phase hi
    obtain ⟨r, hexec, rfl⟩ : ∃ r, unreliable c x s.store = some (.ok r, w) ∧ p' = k r := by
      rcases hcmd with ⟨y, hexec, -⟩ | hok
      · nomatch (unreliable_eq_some hexec).2.1
      · exact hok
    obtain ⟨hclock, hr, rfl⟩ := unreliable_eq_some hexec
    obtain rfl := Except.ok.inj hr
    have hq : key ≠ q := by
      rintro rfl
      exact ha _ hi
    rcases command_cases hp with ⟨rfl, rfl, hk⟩ | ⟨rfl, rfl, hk⟩
    · obtain ⟨ph', hph'⟩ := exists_phase_incr (K := K) limits q (x.exec (.redisIncr q) s.store).1
      refine ⟨?_, _, hseen.update (hph'.trans (hk _).symm)⟩
      rcases incr_effect x s.store q with hexec | ⟨-, -, hexec⟩ | ⟨entry, r, value, -, hexec⟩ <;>
        rw [hexec]
      · exact Redis.Keys.put_of_ne hq
      · exact Redis.Keys.put_of_ne hq
    · obtain ⟨ph', hph'⟩ := exists_phase_expire (K := K) limits q
        (x.exec (.redisExpire q (limits.windowSeconds q)) s.store).1
      refine ⟨?_, _, hseen.update (hph'.trans (hk _).symm)⟩
      cases hfails : x.env.redisFails <;>
        simp [Weather.exec, Command.exec, unlessFails, hfails, Redis.Keys.expire_of_ne hq]
  · exact ⟨rfl, _, hseen.die⟩

omit [IsStrictOrderedRing K] in
/-- A run without a command of the key leaves the key alone. -/
lemma silent_run {as : List (PoolAction ι String (Weather K))}
    (hseen : Pool.SeenAs limits.program s phases) (hsilent : Along limits.next (Silent key) s as)
    (h : exec limits.next s as = some t) : t.store.keys key = s.store.keys key :=
  (exec_invariant_along
    (I := fun t => t.store.keys key = s.store.keys key ∧ ∃ phases, Pool.SeenAs limits.program t phases)
    (fun _ _ _ ⟨hkey, _, hseen⟩ ha hstep =>
      have hnext := silent_next hseen ha hstep
      ⟨hnext.1.trans hkey, hnext.2⟩) ⟨rfl, _, hseen⟩ hsilent h).1

omit [IsStrictOrderedRing K] in
/-- The `INCR` after the expiry of the key. -/
lemma incr_expired {x : Weather K} {w : World K} (hx : x.Available)
    (hexpired : ∀ entry, w.keys key = some entry → ∃ d ∈ entry.deadline, d ≤ x.env.now) :
    (x.exec (.redisIncr key) w).1 = some 1 := by
  obtain ⟨hfails, hlost, hlingers⟩ := hx
  have hentry : w.keys.entry x.env.now x.env.lingers key = none := by
    rw [Redis.Keys.entry, Option.filter_eq_none_iff]
    intro entry hkey
    obtain ⟨d, hd, hle⟩ := hexpired entry hkey
    have hdeadline : entry.deadline = some d := hd
    simp [Redis.Keys.present, hlingers, hdeadline, hle]
  simp [Weather.exec, Command.exec, Redis.Keys.incr, unlessFails, hentry, hfails, hlost]

omit [IsStrictOrderedRing K] in
/-- How a call goes on after its command. -/
lemma calls_of_command {i : ι} {q : String} {c : Command K} {k : c.Reply → WebhookProg K Unit}
    {x : Weather K} (hi : s.calls i = some (q, .call c k))
    (h : limits.next s (.step i x) = some t) :
    t.calls i = some (q, k (x.exec c s.store).1) := by
  rcases Pool.next_step_cases hi h with ⟨y, hexec, -⟩ | ⟨r, hexec, hcalls⟩
  · nomatch (unreliable_eq_some hexec).2.1
  · obtain rfl := Except.ok.inj (unreliable_eq_some hexec).2.1
    rw [hcalls, Function.update_self]

/-- **A rate-limited client is let in again.**  In the runs in which every call that creates the
key sets its expiry, the key is absent or expires within a window whenever no call of the key is in
progress; and when then no call of the key counts for longer than the window, the next call that
counts is admitted, if Redis is available to it. -/
theorem rate_limit_readmits (hlimit : 0 < limits.limit key) {w₀ : World K}
    (hkey : w₀.keys key = none) {as : List (PoolAction ι String (Weather K))}
    (hsets : Along limits.next (SetsExpiry key) (Pool.initial w₀) as)
    (h : exec limits.next (Pool.initial w₀) as = some s) (hidle : Idle key s) :
    Expires limits key s.store ∧
      ∀ bs u i x v cs y v' v'', Along limits.next (Silent key) s bs →
        exec limits.next s bs = some u → u.calls i = some (key, limits.body key) →
        limits.next u (.step i x) = some v → x.Available →
        s.store.clock + limits.windowSeconds key < x.env.now →
        exec limits.next v cs = some v' → (∀ c ∈ cs, c.actor ≠ i) →
        limits.next v' (.step i y) = some v'' → y.Available →
          v''.calls i = some (key, .ret ()) := by
  obtain ⟨phases, hseen, hexpiring⟩ := expiring_run hkey hsets h
  have hexpires : Expires limits key s.store := by
    intro entry hentry
    rcases hexpiring entry hentry with hdeadline | ⟨-, i, hi⟩
    · exact hdeadline
    · exact absurd (hseen.calls_of_phase hi) (hidle i _ _)
  refine ⟨hexpires, ?_⟩
  intro bs u i x v cs y v' v'' hsilent hbs hi hincr hx hlate hcs hothers hexpire hy
  have hkeys := silent_run hseen hsilent hbs
  have hcount : (x.exec (.redisIncr key) u.store).1 = some 1 := by
    refine incr_expired hx fun entry hentry => ?_
    rw [hkeys] at hentry
    obtain ⟨d, hd, hle⟩ := hexpires entry hentry
    exact ⟨d, hd, hle.trans hlate.le⟩
  -- the call goes on to its `EXPIRE`
  have hv : v.calls i = some (key, limits.program key .expiring) := by
    rw [Limits.body_eq] at hi
    rw [calls_of_command hi hincr, hcount]
    rfl
  have hv' := (Pool.calls_of_others hothers hcs).trans hv
  have hreply : (y.exec (.redisExpire key (limits.windowSeconds key)) v'.store).1 = some () := by
    simp [Weather.exec, Command.exec, unlessFails, hy.1, hy.2.1]
  have hverdict : verdict (K := K) (limits.limit key) 1 = .ret () := if_neg (by omega)
  rw [calls_of_command hv' hexpire, hreply]
  exact congrArg (fun p => some (key, p)) hverdict

end Invariant

end

/-! ### One call in a minute -/

def minuteKey : String := "rate_limit:203.0.113.7"

/-- Redis answers, at a time. -/
def fair (time : ℚ) : Weather ℚ := { env := sampleEnv time }

/-- A call that is over. -/
def firstCall : List (PoolAction ℕ String (Weather ℚ)) :=
  [.start 0 minuteKey, .step 0 (fair 1), .step 0 (fair 2)]

/-- A call that dies behind its `INCR`. -/
def brokenCall : List (PoolAction ℕ String (Weather ℚ)) :=
  [.start 0 minuteKey, .step 0 (fair 1), .die 0]

def isRunning (s : Calls ℕ ℚ) (i : ℕ) : Bool :=
  match s.calls i with
  | some (_, .call _ _) => true
  | _ => false

/-- No other process has started. -/
lemma idle_of_first {as : List (PoolAction ℕ String (Weather ℚ))} {s : Calls ℕ ℚ}
    (has : ∀ a ∈ as, a.actor = 0)
    (h : exec onePerMinute.next (Pool.initial sampleWorld) as = some s)
    (hfirst : isRunning s 0 = false) : Idle minuteKey s := by
  intro i c k hi
  rcases eq_or_ne i 0 with rfl | hne
  · simp [isRunning, hi] at hfirst
  · rw [Pool.calls_of_others (fun a ha => by rw [has a ha]; exact hne.symm) h] at hi
    nomatch hi

lemma setsExpiry_fair (s : Calls ℕ ℚ) (i : ℕ) (time : ℚ) :
    SetsExpiry minuteKey s (.step i (fair time)) := by
  simp only [SetsExpiry]
  split
  · rintro - - ⟨⟩
  · exact fun _ => rfl
  · trivial

lemma calls_of_start {s t : Calls ℕ ℚ} {i : ℕ} {key : String}
    (h : onePerMinute.next s (.start i key) = some t) :
    t.calls i = some (key, onePerMinute.body key) := by
  rcases Pool.next_cases h with ⟨j, q, heq, -, rfl⟩ | ⟨_, _, _, _, _, _, _, heq, -⟩ |
    ⟨_, _, _, heq, -⟩
  · cases heq
    exact Function.update_self ..
  · nomatch heq
  · nomatch heq

/-- After 60 seconds, the next call is admitted. -/
theorem rate_limit_readmits_minute : ∃ s u v w : Calls ℕ ℚ,
    exec onePerMinute.next (Pool.initial sampleWorld) firstCall = some s ∧
      Expires onePerMinute minuteKey s.store ∧
      exec onePerMinute.next s [.start 1 minuteKey] = some u ∧
      onePerMinute.next u (.step 1 (fair 63)) = some v ∧
      onePerMinute.next v (.step 1 (fair 64)) = some w ∧ w.calls 1 = some (minuteKey, .ret ()) := by
  have hruns : ((exec onePerMinute.next (Pool.initial sampleWorld) firstCall).any fun s =>
      (isRunning s 0 == false && decide (s.store.clock = 2)) &&
      (exec onePerMinute.next s [.start 1 minuteKey]).any fun u =>
        (onePerMinute.next u (.step 1 (fair 63))).any fun v =>
          (onePerMinute.next v (.step 1 (fair 64))).isSome) = true := by decide +kernel
  obtain ⟨s, hs, hrest⟩ := (Option.any_eq_true _ _).1 hruns
  obtain ⟨hfirst, hrest⟩ := Bool.and_eq_true_iff.1 hrest
  obtain ⟨hover, hclock⟩ := Bool.and_eq_true_iff.1 hfirst
  obtain ⟨u, hu, hrest⟩ := (Option.any_eq_true _ _).1 hrest
  obtain ⟨v, hv, hw⟩ := (Option.any_eq_true _ _).1 hrest
  obtain ⟨w, hw⟩ := Option.isSome_iff_exists.1 hw
  have hsets : Along onePerMinute.next (SetsExpiry minuteKey) (Pool.initial sampleWorld)
      firstCall :=
    ⟨trivial, fun _ _ => ⟨setsExpiry_fair _ _ _, fun _ _ => ⟨setsExpiry_fair _ _ _, fun _ _ => trivial⟩⟩⟩
  have hidle : Idle minuteKey s :=
    idle_of_first (by simp [firstCall, PoolAction.actor]) hs (by simpa using hover)
  obtain ⟨hexpires, hnext⟩ := rate_limit_readmits (by decide) rfl hsets hs hidle
  refine ⟨s, u, v, w, hs, hexpires, hu, hv, hw, ?_⟩
  have hstart : onePerMinute.next s (.start 1 minuteKey) = some u := by
    simpa [exec] using hu
  have hlate : s.store.clock + onePerMinute.windowSeconds minuteKey < (fair 63).env.now := by
    rw [of_decide_eq_true hclock]
    norm_num [onePerMinute, fair, sampleEnv]
  exact hnext [.start 1 minuteKey] u 1 (fair 63) v [] (fair 64) v w ⟨trivial, fun _ _ => trivial⟩ hu
    (calls_of_start hstart) hv ⟨rfl, rfl, rfl⟩ hlate rfl (by simp) hw ⟨rfl, rfl, rfl⟩

/-- The call has been turned away. -/
def isTurnedAway : Option (String × WebhookProg ℚ Unit) → Bool
  | some (key, .raise (.http 429 detail)) =>
      decide (key = minuteKey ∧ detail = "Too many requests")
  | _ => false

lemma eq_of_isTurnedAway {call : Option (String × WebhookProg ℚ Unit)}
    (h : isTurnedAway call = true) :
    call = some (minuteKey, .raise (.http 429 "Too many requests")) := by
  unfold isTurnedAway at h
  split at h
  · obtain ⟨rfl, rfl⟩ := of_decide_eq_true h
    rfl
  · simp at h

/-- A process dies between its two commands: the key stays, and a call that comes a thousand
seconds later is turned away. -/
theorem rate_limit_broken : ∃ s u v : Calls ℕ ℚ,
    0 < onePerMinute.limit minuteKey ∧
      exec onePerMinute.next (Pool.initial sampleWorld) brokenCall = some s ∧
      Idle minuteKey s ∧ ¬ Expires onePerMinute minuteKey s.store ∧
      exec onePerMinute.next s [.start 1 minuteKey] = some u ∧
      onePerMinute.next u (.step 1 (fair 1001)) = some v ∧ (fair 1001).Available ∧
      s.store.clock + onePerMinute.windowSeconds minuteKey < (fair 1001).env.now ∧
      v.calls 1 = some (minuteKey, .raise (.http 429 "Too many requests")) := by
  have hruns : ((exec onePerMinute.next (Pool.initial sampleWorld) brokenCall).any fun s =>
      (isRunning s 0 == false && decide (s.store.clock = 1) &&
        (s.store.keys minuteKey).any fun entry => entry.deadline.isNone) &&
      (exec onePerMinute.next s [.start 1 minuteKey]).any fun u =>
        (onePerMinute.next u (.step 1 (fair 1001))).any fun v => isTurnedAway (v.calls 1)) =
          true := by decide +kernel
  obtain ⟨s, hs, hrest⟩ := (Option.any_eq_true _ _).1 hruns
  obtain ⟨hfirst, hrest⟩ := Bool.and_eq_true_iff.1 hrest
  obtain ⟨hfirst, hkey⟩ := Bool.and_eq_true_iff.1 hfirst
  obtain ⟨hover, hclock⟩ := Bool.and_eq_true_iff.1 hfirst
  obtain ⟨u, hu, hrest⟩ := (Option.any_eq_true _ _).1 hrest
  obtain ⟨v, hv, hcalls⟩ := (Option.any_eq_true _ _).1 hrest
  obtain ⟨entry, hentry, hdeadline⟩ := (Option.any_eq_true _ _).1 hkey
  refine ⟨s, u, v, by decide, hs, ?_, fun hexpires => ?_, hu, hv, ⟨rfl, rfl, rfl⟩, ?_, ?_⟩
  · exact idle_of_first (by simp [brokenCall, PoolAction.actor]) hs (by simpa using hover)
  · obtain ⟨d, hd, -⟩ := hexpires entry hentry
    simp [hd] at hdeadline
  · rw [of_decide_eq_true hclock]
    norm_num [onePerMinute, fair, sampleEnv]
  · exact eq_of_isTurnedAway hcalls

end StarterBackend.RateLimits

/-
The lock of an idempotency key.

A request takes the lock of its scope key by `SET NX`, and deletes the key at its end,
whatever is stored under it then.  In the runs in which no request takes the lock while
an earlier one still has its `DEL` ahead, every `DEL` of a stored lock is its holder's,
and a stored lock stays until its holder deletes it or its time is over; from a request
that takes the lock of one that is still at work, the run can go on to the `DEL` of a
lock by a request that does not hold it (`lock_released_by_holder`).
-/
import StarterBackend.Webhooks.Runs
import StarterBackend.Lib.Brackets

namespace StarterBackend.Webhooks

open Lib App

/-! ### The commands of a lock -/

section

variable {K : Type}

/-- A command leaves a key of Redis as it is, unless it names it. -/
def Command.lockStep (key : String) : Command K → LockStep
  | .redisIncr key' => if key' = key then .spoils else .leaves
  | .redisExpire key' _ => if key' = key then .spoils else .leaves
  | .redisSetNx key' _ => if key' = key then .takes else .leaves
  | .redisDelete key' => if key' = key then .releases else .leaves
  | _ => .leaves

/-- `SET NX` has set the key. -/
def Command.hasSet : (c : Command K) → c.Reply → Bool
  | .redisSetNx _ _, r => r == some true
  | _, _ => false

/-- The use of a key of Redis as a lock. -/
def lockUse (key : String) : LockUse (Command K) Command.Reply where
  kind := Command.lockStep key
  taken := Command.hasSet

/-! ### The programs -/

variable {crypto : Crypto} {settings : WebhookSettings} {scopeKey : String}

/-- The name of a lock begins with another letter than the counters of the rate limits. -/
lemma ne_idempotencyLockKey {key : String} (h : key.toList.head? = some 'r') :
    key ≠ idempotencyLockKey scopeKey := by
  intro heq
  have hsplit : "idempotency:processing:".toList = 'i' :: "dempotency:processing:".toList := by
    decide
  unfold idempotencyLockKey at heq
  rw [heq, String.toList_append, hsplit] at h
  simp at h

lemma ingressKey_ne_lock (request : InboundRequest) :
    ingressKey request ≠ idempotencyLockKey scopeKey := by
  refine ne_idempotencyLockKey ?_
  have hsplit : "rate_limit:webhook_ingress:".toList =
      'r' :: "ate_limit:webhook_ingress:".toList := by decide
  unfold ingressKey
  rw [String.toList_append, hsplit]
  rfl

lemma providerKey_ne_lock {provider key : String} (h : providerKey crypto provider = some key) :
    key ≠ idempotencyLockKey scopeKey := by
  unfold providerKey at h
  dsimp only at h
  split_ifs at h
  obtain rfl := Option.some.inj h
  refine ne_idempotencyLockKey ?_
  have hsplit : "rate_limit:webhook_provider:".toList =
      'r' :: "ate_limit:webhook_provider:".toList := by decide
  rw [String.toList_append, hsplit]
  rfl

lemma leavesLock_enforceRateLimitCounter {key lock : String} (h : key ≠ lock) (limit windowSeconds : ℕ) :
    (enforceRateLimitCounter key limit windowSeconds : WebhookProg K Unit).LeavesLock
      (lockUse lock) := by
  have hend : ∀ n : ℤ, (if (limit : ℤ) < n then .raise (.http 429 "Too many requests")
      else .ret () : WebhookProg K Unit).LeavesLock (lockUse lock) := by
    intro n
    split_ifs <;> trivial
  unfold enforceRateLimitCounter
  refine ⟨if_neg h, fun r => ?_⟩
  rcases r with _ | n
  · trivial
  · simp only [Prog.getOrRaise, Prog.bind_def, Prog.ret_bind]
    by_cases hn : n = 1
    · rw [if_pos hn]
      refine ⟨if_neg h, fun r => ?_⟩
      rcases r with _ | u
      · trivial
      · exact hend n
    · rw [if_neg hn]
      exact hend n

lemma leavesLock_getCachedResponse (lock : String) :
    (getCachedResponse scopeKey : WebhookProg K _).LeavesLock (lockUse lock) :=
  ⟨rfl, fun _ => ⟨rfl, fun _ => trivial⟩⟩

lemma leavesLock_cachedJsonResponse (lock : String) (record : IdempotencyRecord K) :
    (cachedJsonResponse record).LeavesLock (lockUse lock) := by
  unfold cachedJsonResponse
  split <;> trivial

end

section

variable {K : Type} [Field K] {crypto : Crypto} {settings : WebhookSettings} {scopeKey : String}

lemma leavesLock_storeResponse (lock : String) (statusCode : ℕ) (body : Json) :
    (storeResponse settings scopeKey statusCode body : WebhookProg K _).LeavesLock
      (lockUse lock) := by
  refine ⟨rfl, fun time => ⟨rfl, fun r => ?_⟩⟩
  rcases r with _ | id
  · exact (leavesLock_getCachedResponse lock).bind fun _ => Prog.leavesLock_getOrRaise
  · exact ⟨rfl, fun _ => Prog.leavesLock_getOrRaise⟩

lemma leavesLock_storeOutcome (lock : String) (payload : InboundPayload) (isNew : Bool) :
    (storeOutcome settings scopeKey payload isNew : WebhookProg K _).LeavesLock
      (lockUse lock) := by
  cases isNew with
  | false =>
      exact (leavesLock_storeResponse lock 409 _).bind fun _ => leavesLock_cachedJsonResponse lock _
  | true =>
      refine (leavesLock_storeResponse lock 200 _).bind fun record => ?_
      unfold acceptedResponse
      split <;> trivial

omit [Field K] in
lemma leavesLock_persistWebhookEvent (lock : String) (payload : InboundPayload)
    (body : List UInt8) :
    (persistWebhookEvent crypto payload body : WebhookProg K Bool).LeavesLock (lockUse lock) := by
  refine ⟨rfl, fun r => ?_⟩
  rcases r with _ | id
  · trivial
  · exact ⟨rfl, fun r => Prog.leavesLock_getOrRaise.bind fun _ => trivial⟩

variable [LinearOrder K] [FloorRing K]

lemma leavesLock_verifySignature (lock : String) (request : InboundRequest) :
    (verifySignature crypto settings request : WebhookProg K Unit).LeavesLock (lockUse lock) := by
  refine ⟨rfl, fun time => ?_⟩
  simp only [Prog.ret_bind]
  split <;> trivial

/-- Nothing between the lock and its release touches a lock. -/
lemma leavesLock_processWebhook (lock : String) (request : InboundRequest) :
    (processWebhook crypto settings request scopeKey : WebhookProg K _).LeavesLock
      (lockUse (idempotencyLockKey lock)) := by
  refine (leavesLock_verifySignature _ request).bind fun _ =>
    Prog.leavesLock_getOrRaise.bind fun payload => Prog.LeavesLock.bind ?_ fun _ =>
      (leavesLock_persistWebhookEvent _ payload _).bind fun isNew =>
        leavesLock_storeOutcome _ payload isNew
  unfold enforceWebhookProviderRateLimit
  split
  · trivial
  · rename_i key hkey
    exact leavesLock_enforceRateLimitCounter (providerKey_ne_lock hkey) _ _

/-- The release after the rest of a request. -/
lemma unlocks_processWebhook {lock : String} (request : InboundRequest)
    (h : idempotencyLockKey scopeKey = idempotencyLockKey lock) :
    ((processWebhook crypto settings request scopeKey : WebhookProg K _).tryFinally
      (releaseIdempotencyLock scopeKey)).Unlocks (lockUse (idempotencyLockKey lock)) :=
  Prog.unlocks_tryFinally (leavesLock_processWebhook lock request)
    (fun _ => .inr ⟨if_pos h, fun _ => Prog.leavesLock_getOrRaise.bind fun _ => trivial⟩)
    fun _ => .inr ⟨if_pos h, fun _ => Prog.leavesLock_getOrRaise.bind fun _ => trivial⟩

lemma locks_serveInbound (lock : String) (request : InboundRequest) :
    (serveInbound crypto settings request scopeKey : WebhookProg K _).Locks
      (lockUse (idempotencyLockKey lock)) := by
  unfold serveInbound beginIdempotentRequest
  rw [Prog.bind_def, Prog.bind_def, Prog.bind_assoc]
  refine Prog.Locks.of_bind (leavesLock_getCachedResponse _) fun cached => ?_
  rcases cached with _ | record
  · have hbusy : ∀ (g : Option (IdempotencyRecord K) → WebhookProg K _)
        (f : Option (IdempotencyRecord K) → WebhookProg K (Response K)),
        (∃ x, g none = .raise x) → (∀ record, (g (some record)).bind f = cachedJsonResponse record) →
        (((getCachedResponse scopeKey).bind g).bind f).LeavesLock
          (lockUse (idempotencyLockKey lock)) := by
      intro g f hnone hsome
      rw [Prog.bind_assoc]
      refine (leavesLock_getCachedResponse _).bind fun cached => ?_
      rcases cached with _ | record
      · obtain ⟨x, hx⟩ := hnone
        rw [hx]
        trivial
      · rw [hsome]
        exact leavesLock_cachedJsonResponse _ record
    by_cases h : idempotencyLockKey scopeKey = idempotencyLockKey lock
    · refine .inr ⟨if_pos h, fun r => ?_⟩
      rcases r with _ | _ | _
      · exact ⟨fun hr => (Bool.false_ne_true hr).elim, fun _ => trivial⟩
      · exact ⟨fun hr => (Bool.false_ne_true hr).elim, fun _ => hbusy _ _ ⟨_, rfl⟩ fun _ => rfl⟩
      · exact ⟨fun _ => unlocks_processWebhook request h, fun hr => (Bool.false_ne_true hr.symm).elim⟩
    · refine .inl ⟨if_neg h, fun r => Prog.LeavesLock.locks ?_⟩
      rcases r with _ | _ | _
      · trivial
      · exact hbusy _ _ ⟨_, rfl⟩ fun _ => rfl
      · exact (leavesLock_processWebhook lock request).tryFinally
          ⟨if_neg h, fun _ => Prog.leavesLock_getOrRaise⟩
  · exact (leavesLock_cachedJsonResponse _ record).locks

/-- **A request takes the lock of its scope key at most once, and then releases it.** -/
lemma locks_inboundWebhook (lock : String) (request : InboundRequest) :
    (inboundWebhook crypto settings request : WebhookProg K (Response K)).Locks
      (lockUse (idempotencyLockKey lock)) := by
  unfold inboundWebhook
  refine Prog.Locks.of_bind Prog.leavesLock_getOrRaise fun idempotencyKey =>
    Prog.Locks.of_bind (leavesLock_enforceRateLimitCounter (ingressKey_ne_lock request) _ _)
      fun _ => ?_
  split_ifs
  · trivial
  · exact locks_serveInbound lock request

lemma locks_program (lock : String) (call : WebhookCall K) :
    (call.program crypto settings).Locks (lockUse (idempotencyLockKey lock)) := by
  cases call with
  | inbound arrivedAt request => exact (locks_inboundWebhook lock request).bind fun _ => trivial
  | cleanupEvents => exact .inl ⟨rfl, fun _ => .inl ⟨rfl, fun _ => trivial⟩⟩
  | cleanupRecords => exact .inl ⟨rfl, fun _ => .inl ⟨rfl, fun _ => trivial⟩⟩

end

/-! ### The lock in Redis -/

section

variable {K : Type} [Field K] [LinearOrder K] {key : String} {e : Env K} {w : World K}

/-- A command that leaves the lock leaves its key. -/
lemma keys_of_leaves {c : Command K} (hc : c.lockStep key = .leaves) :
    (c.exec e w).2.keys key = w.keys key := by
  cases c with
  | redisIncr key' =>
      have hne : key ≠ key' := by
        rintro rfl
        simp [Command.lockStep] at hc
      rcases hentry : w.keys.entry e.now e.lingers key' with _ | entry
      · by_cases hfails : e.redisFails <;>
          simp [Command.exec, Redis.Keys.incr, hentry, unlessFails, hfails, Redis.Keys.put_of_ne hne]
      · rcases hn : PyText.parseInt entry.value with _ | n
        · simp [Command.exec, Redis.Keys.incr, hentry, hn]
        · by_cases hfails : e.redisFails <;>
            simp [Command.exec, Redis.Keys.incr, hentry, hn, unlessFails, hfails,
              Redis.Keys.put_of_ne hne]
  | redisExpire key' ttl =>
      have hne : key ≠ key' := by
        rintro rfl
        simp [Command.lockStep] at hc
      by_cases hfails : e.redisFails <;>
        simp [Command.exec, unlessFails, hfails, Redis.Keys.expire_of_ne hne]
  | redisSetNx key' ttl =>
      have hne : key ≠ key' := by
        rintro rfl
        simp [Command.lockStep] at hc
      by_cases hfails : e.redisFails <;> by_cases hheld : w.keys.contains e.now e.lingers key' <;>
        simp [Command.exec, unlessFails, hfails, Redis.Keys.setNxEx, hheld,
          Redis.Keys.setEx_of_ne hne]
  | redisDelete key' =>
      have hne : key ≠ key' := by
        rintro rfl
        simp [Command.lockStep] at hc
      by_cases hfails : e.redisFails <;>
        simp [Command.exec, unlessFails, hfails, Redis.Keys.delete_of_ne hne]
  | insertEvent provider eventId payloadHash =>
      by_cases h : (w.event provider eventId).isSome <;> simp [Command.exec, h, World.insertEvent]
  | insertRecord scopeKey statusCode responseBody expiresAt =>
      by_cases h : (w.anyRecord scopeKey).isSome <;> simp [Command.exec, h, World.insertRecord]
  | _ => rfl

/-- **What a `SET NX` does to the lock**: it leaves it, or takes it when there is none whose time
is not over. -/
lemma setNx_cases (e : Env K) (w : World K) (key : String) (ttl : ℕ) :
    (((Command.redisSetNx key ttl).exec e w).1 ≠ some true ∧
      ((Command.redisSetNx key ttl).exec e w).2.keys = w.keys) ∨
    (((Command.redisSetNx key ttl).exec e w).1 = some true ∧
      ((Command.redisSetNx key ttl).exec e w).2.keys key = some ⟨"1", some (e.now + ((ttl : ℤ) : K))⟩ ∧
      ∀ entry, w.keys key = some entry → ∃ d ∈ entry.deadline, d ≤ e.now) := by
  by_cases hfails : e.redisFails = true
  · exact .inl (by simp [Command.exec, unlessFails, hfails])
  · rcases hheld : w.keys.contains e.now e.lingers key with _ | _
    · refine .inr ⟨?_, ?_, fun entry hentry => ?_⟩
      · simp [Command.exec, unlessFails, hfails, Redis.Keys.setNxEx, hheld]
      · simp [Command.exec, unlessFails, hfails, Redis.Keys.setNxEx, hheld, Redis.Keys.setEx]
      · by_contra hlate
        push Not at hlate
        cases hdeadline : entry.deadline with
        | none =>
            have hpresent : w.keys.contains e.now e.lingers key = true := by
              simp [Redis.Keys.contains, Redis.Keys.entry, hentry, Redis.Keys.present, hdeadline]
            simp [hheld] at hpresent
        | some d =>
            have hpresent : w.keys.contains e.now e.lingers key = true := by
              simp [Redis.Keys.contains, Redis.Keys.entry, hentry, Redis.Keys.present, hdeadline,
                hlate d hdeadline]
            simp [hheld] at hpresent
    · exact .inl (by simp [Command.exec, unlessFails, hfails, Redis.Keys.setNxEx, hheld])

end

namespace Traffic

variable {ι K : Type} [Field K] [LinearOrder K] [FloorRing K] [DecidableEq ι] {crypto : Crypto}
  {settings : WebhookSettings} {key scopeKey : String} {w₀ : World K} {s t : Traffic ι K}
  {a : PoolAction ι (WebhookCall K) (Env K)} {as : List (PoolAction ι (WebhookCall K) (Env K))}
  {held : Option ι}

/-- What is claimed of a step before which `held` is the live process whose `SET NX` took the lock
last: a `DEL` that deletes a stored lock is its own, and a stored lock stays, unless it deletes it
or the time of the lock is over. -/
structure LockKept (key : String) (held : Option ι) (s : Traffic ι K)
    (a : PoolAction ι (WebhookCall K) (Env K)) (t : Traffic ι K) : Prop where
  release : ∀ i e q k, a = .step i e → s.calls i = some (q, .call (.redisDelete key) k) →
    e.redisFails = false → s.store.keys key ≠ none → held = some i
  stays : ∀ entry, s.store.keys key = some entry → t.store.keys key = some entry ∨
    (∃ i e q k, a = .step i e ∧ s.calls i = some (q, .call (.redisDelete key) k) ∧
      held = some i) ∨ ∃ i e, a = .step i e ∧ ∃ d ∈ entry.deadline, d ≤ e.now

/-- The process that took the lock last, if it has not died. -/
def lockHolder (crypto : Crypto) (settings : WebhookSettings) (key : String) (w₀ : World K)
    (as : List (PoolAction ι (WebhookCall K) (Env K))) : Option ι :=
  Pool.lockHolder interp (WebhookCall.program crypto settings) (lockUse key) (Pool.initial w₀) as

/-- No request takes the lock while an earlier one still has its `DEL` ahead. -/
abbrev NoOverlap (key : String) (s : Traffic ι K) (a : PoolAction ι (WebhookCall K) (Env K)) : Prop :=
  Pool.Exclusive interp (lockUse key) s a

omit [Field K] [LinearOrder K] [FloorRing K] in
lemma eq_setNx {c : Command K} (h : (lockUse key).kind c = .takes) : ∃ ttl, c = .redisSetNx key ttl := by
  cases c with
  | redisSetNx key' ttl =>
      obtain rfl : key' = key := by
        by_contra hne
        simp [lockUse, Command.lockStep, hne] at h
      exact ⟨ttl, rfl⟩
  | redisIncr key' => by_cases hkey : key' = key <;> simp [lockUse, Command.lockStep, hkey] at h
  | redisExpire key' ttl => by_cases hkey : key' = key <;> simp [lockUse, Command.lockStep, hkey] at h
  | redisDelete key' => by_cases hkey : key' = key <;> simp [lockUse, Command.lockStep, hkey] at h
  | _ => nomatch h

omit [Field K] [LinearOrder K] [FloorRing K] in
lemma eq_delete {c : Command K} (h : (lockUse key).kind c = .releases) : c = .redisDelete key := by
  cases c with
  | redisDelete key' =>
      obtain rfl : key' = key := by
        by_contra hne
        simp [lockUse, Command.lockStep, hne] at h
      rfl
  | redisIncr key' => by_cases hkey : key' = key <;> simp [lockUse, Command.lockStep, hkey] at h
  | redisExpire key' ttl => by_cases hkey : key' = key <;> simp [lockUse, Command.lockStep, hkey] at h
  | redisSetNx key' ttl => by_cases hkey : key' = key <;> simp [lockUse, Command.lockStep, hkey] at h
  | _ => nomatch h

/-- A step keeps the lock when only its holder has a release ahead. -/
lemma lockKept_of_locking (h : Pool.Locking (lockUse key) s held)
    (hstep : step crypto settings s a = some t) : LockKept key held s a t := by
  refine ⟨?_, fun entry hentry => ?_⟩
  · rintro i e q k rfl hi - -
    exact (h.releases hi (by simp [lockUse, Command.lockStep])
      (by simp [lockUse, Command.lockStep])).2
  · rcases Pool.next_cases hstep with ⟨i, q, rfl, hi, rfl⟩ |
      ⟨i, e, q, c, k, p', w, rfl, hi, rfl, hcmd⟩ | ⟨i, q, p, rfl, hi, rfl⟩
    · exact .inl hentry
    · obtain ⟨r, hexec⟩ : ∃ r, interp c e s.store = some (r, w) := by
        rcases hcmd with ⟨x, hexec, -⟩ | ⟨r, hexec, -⟩ <;> exact ⟨_, hexec⟩
      obtain ⟨-, -, rfl⟩ := interp_eq_some hexec
      by_cases hleaves : (lockUse key).kind c = .leaves
      · exact .inl ((keys_of_leaves hleaves).trans hentry)
      · by_cases htakes : (lockUse key).kind c = .takes
        · obtain ⟨ttl, rfl⟩ := eq_setNx htakes
          rcases setNx_cases e s.store key ttl with ⟨-, hkeys⟩ | ⟨-, -, hlate⟩
          · exact .inl ((congrFun hkeys key).trans hentry)
          · exact .inr (.inr ⟨i, e, rfl, hlate entry hentry⟩)
        · obtain ⟨hreleases, hheld⟩ := h.releases hi hleaves htakes
          obtain rfl := eq_delete hreleases
          exact .inr (.inl ⟨i, e, q, k, rfl, hi, hheld⟩)
    · exact .inl hentry

omit [FloorRing K] in
/-- A command that leaves the lock can be executed, and leaves it. -/
lemma exec_of_leaves {e : Env K} {entry : Redis.Entry K} {c : Command K} {w : World K}
    (hc : (lockUse key).kind c = .leaves) (hw : w.clock = e.now ∧ w.keys key = some entry) :
    ∃ r w', interp c e w = some (.ok r, w') ∧ w'.clock = e.now ∧ w'.keys key = some entry :=
  ⟨_, _, interp_of_le hw.1.le, rfl, (keys_of_leaves hc).trans hw.2⟩

/-- What a step that takes the lock does. -/
lemma takes_step {i : ι} {e : Env K} (htakes : Pool.takesLock interp (lockUse key) s i e = true)
    (hstep : step crypto settings s (.step i e) = some t) :
    t.store.clock = e.now ∧ (∃ entry, t.store.keys key = some entry) ∧
      ∀ j, j ≠ i → t.calls j = s.calls j := by
  obtain ⟨_, _, hact, -⟩ | ⟨i', e', q, c, k, p', w, hact, hi, rfl, hcmd⟩ | ⟨_, _, _, hact, -⟩ :=
    Pool.next_cases hstep
  · nomatch hact
  · obtain ⟨rfl, rfl⟩ := PoolAction.step.inj hact
    obtain ⟨r, hexec⟩ : ∃ r, interp c e s.store = some (.ok r, w) := by
      rcases hcmd with ⟨x, hexec, -⟩ | ⟨r, hexec, -⟩
      · nomatch (interp_eq_some hexec).2.1
      · exact ⟨r, hexec⟩
    rw [Pool.takesLock_call hi hexec] at htakes
    obtain ⟨hkind, htaken⟩ := Bool.and_eq_true_iff.1 htakes
    obtain ⟨ttl, rfl⟩ := eq_setNx (of_decide_eq_true hkind)
    obtain ⟨-, hr, rfl⟩ := interp_eq_some hexec
    obtain rfl := Except.ok.inj hr
    refine ⟨rfl, ?_, fun j hj => Function.update_of_ne hj ..⟩
    rcases setNx_cases e s.store key ttl with ⟨hnot, -⟩ | ⟨-, hkeys, -⟩
    · exact absurd (beq_iff_eq.1 htaken) hnot
    · exact ⟨_, hkeys⟩
  · nomatch hact

/-- **A lock that is lost.**  After a step that takes the lock while another process has its `DEL`
ahead, that process can go on until it deletes the lock, which it does not hold. -/
lemma lock_lost (has : exec (step crypto settings) (Pool.initial w₀) as = some s)
    (hoverlap : ¬ NoOverlap key s a) (hstep : step crypto settings s a = some t) :
    ∃ bs u b v, exec (step crypto settings) (Pool.initial w₀) (as ++ a :: bs) = some u ∧
      step crypto settings u b = some v ∧
      ¬ LockKept key (lockHolder crypto settings key w₀ (as ++ a :: bs)) u b v := by
  cases a with
  | start i q => exact absurd trivial hoverlap
  | die i => exact absurd trivial hoverlap
  | step i e =>
      obtain ⟨htakes, j, q, p, hj, hne, hunlocks⟩ : Pool.takesLock interp (lockUse key) s i e = true ∧
          ∃ j q p, s.calls j = some (q, p) ∧ j ≠ i ∧ p.Unlocks (lockUse key) := by
        simpa [NoOverlap, Pool.Exclusive] using hoverlap
      obtain ⟨hclock, ⟨entry, hentry⟩, hcalls⟩ := takes_step htakes hstep
      -- the earlier process goes on to its `DEL` at the same time, with Redis up
      have hgo : ∀ (c : Command K) w, (lockUse key).kind c = .leaves →
          w.clock = e.now ∧ w.keys key = some entry → ∃ r w',
            interp c { e with redisFails := false } w = some (.ok r, w') ∧
              w'.clock = e.now ∧ w'.keys key = some entry :=
        fun c w => exec_of_leaves (e := { e with redisFails := false })
      have hrelease := Pool.exists_release (WebhookCall.program crypto settings) hgo hunlocks
        ((hcalls j hne).trans hj) ⟨hclock, hentry⟩
      obtain ⟨n, u, c, k, hu, ⟨huclock, hukey⟩, hkind, hucalls, hlog⟩ := hrelease
      obtain rfl := eq_delete hkind
      have huj : u.calls j = some (q, .call (.redisDelete key) k) := by
        rw [hucalls, Function.update_self]
      obtain ⟨v, hv⟩ : ∃ v, step crypto settings u (.step j { e with redisFails := false }) =
          some v := (Pool.next_step huj (interp_of_le (e := { e with redisFails := false })
            huclock.le)).imp fun _ h => h.1
      have hrun : exec (Pool.next interp (WebhookCall.program crypto settings)) (Pool.initial w₀)
          (as ++ [.step i e]) = some t :=
        exec_append_eq_some.2 ⟨s, has, exec_cons_eq_some.2 ⟨t, hstep, rfl⟩⟩
      have hheld : lockHolder crypto settings key w₀ ((as ++ [.step i e]) ++
          List.replicate n (.step j { e with redisFails := false })) = some i := by
        rw [lockHolder, Pool.lockHolder, observed_append hrun, hlog, List.append_nil,
          ← Pool.lockHolder, Pool.lockHolder_append has]
        simp [Pool.lockEvent, htakes, LockEvent.holder]
      rw [List.append_assoc, List.singleton_append] at hheld
      refine ⟨List.replicate n (.step j { e with redisFails := false }), u,
        .step j { e with redisFails := false }, v, ?_, hv, fun hkept => ?_⟩
      · exact exec_append_eq_some.2 ⟨s, has, exec_cons_eq_some.2 ⟨t, hstep, hu⟩⟩
      · have hown := hkept.release j _ q k rfl huj rfl (by rw [hukey]; simp)
        rw [hheld] at hown
        exact hne (Option.some.inj hown).symm

/-- **The holder releases the lock.**  In the runs in which no request takes the lock of a scope key
while an earlier one still has its `DEL` ahead, a `DEL` that deletes a stored lock is issued by
the process that took it, and a stored lock stays until that or until its time is over.  A run
with a step that takes the lock too early has a part that goes on to a `DEL` of the lock by
another process. -/
theorem lock_released_by_holder (h : exec (step crypto settings) (Pool.initial w₀) as = some t) :
    (Along (step crypto settings) (NoOverlap (idempotencyLockKey scopeKey)) (Pool.initial w₀) as →
      ∀ bs a cs u v, as = bs ++ a :: cs → exec (step crypto settings) (Pool.initial w₀) bs = some u →
        step crypto settings u a = some v → LockKept (idempotencyLockKey scopeKey)
          (lockHolder crypto settings (idempotencyLockKey scopeKey) w₀ bs) u a v) ∧
    (¬ Along (step crypto settings) (NoOverlap (idempotencyLockKey scopeKey)) (Pool.initial w₀) as →
      ∃ bs cs u a v, bs <+: as ∧ exec (step crypto settings) (Pool.initial w₀) (bs ++ cs) = some u ∧
        step crypto settings u a = some v ∧ ¬ LockKept (idempotencyLockKey scopeKey)
          (lockHolder crypto settings (idempotencyLockKey scopeKey) w₀ (bs ++ cs)) u a v) := by
  refine ⟨?_, fun hG => ?_⟩
  · rintro hG bs a cs u v rfl hbs hstep
    have hlocking := Pool.Locking.run (locks_program scopeKey)
      (hG.of_isPrefix (List.prefix_append bs (a :: cs))) hbs
    exact lockKept_of_locking hlocking hstep
  · obtain ⟨bs, a, cs, u, v, rfl, hu, hstep, hoverlap⟩ := exists_of_not_along h hG
    obtain ⟨ds, u', b, v', hu', hstep', hlost⟩ := lock_lost hu hoverlap hstep
    refine ⟨bs ++ [a], ds, u', b, v', ⟨cs, by simp⟩, ?_, hstep', ?_⟩
    · rwa [List.append_assoc, List.singleton_append]
    · rwa [List.append_assoc, List.singleton_append]

/-- The lock of a single request is kept from its first step to its last. -/
theorem lock_released_by_holder_oneRequest :
    ∃ (as : List (PoolAction Unit (WebhookCall ℚ) (Env ℚ))) (t : Traffic Unit ℚ),
      exec (step sampleCrypto sampleSettings) (Pool.initial sampleWorld) as = some t ∧
      as.length = 15 ∧ ∀ bs a cs u v, as = bs ++ a :: cs →
        exec (step sampleCrypto sampleSettings) (Pool.initial sampleWorld) bs = some u →
        step sampleCrypto sampleSettings u a = some v →
        LockKept (idempotencyLockKey sampleScopeKey)
          (lockHolder sampleCrypto sampleSettings (idempotencyLockKey sampleScopeKey) sampleWorld bs)
          u a v := by
  let run : List (PoolAction Unit (WebhookCall ℚ) (Env ℚ)) :=
    [.start () (.inbound 1000 sampleRequest)] ++ List.replicate 14 (.step () (sampleEnv 1000))
  have hrun : (exec (step sampleCrypto sampleSettings) (Pool.initial sampleWorld) run).isSome = true := by
    decide +kernel
  obtain ⟨t, ht⟩ := Option.isSome_iff_exists.1 hrun
  refine ⟨run, t, ht, rfl, (lock_released_by_holder ht).1 (along_of_forall fun s a => ?_)⟩
  cases a with
  | step i e => exact fun _ j _ _ _ hne => absurd (Subsingleton.elim j i) hne
  | start i q => trivial
  | die i => trivial

/-- The next command of a process deletes a key. -/
def deletesNext (key : String) (s : Traffic ι K) (i : ι) : Bool :=
  match s.calls i with
  | some (_, .call (.redisDelete key') _) => key' == key
  | _ => false

omit [Field K] [LinearOrder K] [FloorRing K] [DecidableEq ι] in
lemma calls_of_deletesNext {i : ι} (h : deletesNext key s i = true) :
    ∃ q k, s.calls i = some (q, .call (.redisDelete key) k) := by
  unfold deletesNext at h
  split at h
  · rename_i q key' k hcalls
    obtain rfl := beq_iff_eq.1 h
    exact ⟨q, k, hcalls⟩
  · simp at h

/-- A delivery that outlives its lock: its repetition takes the lock, and is still at work when the
first one ends. -/
def overtakenRun : List (PoolAction ℕ (WebhookCall ℚ) (Env ℚ)) :=
  [.start 0 (.inbound 1000 sampleRequest), .start 1 (.inbound 1061 sampleRequest)] ++
    List.replicate 5 (.step 0 (sampleEnv 1000)) ++ List.replicate 5 (.step 1 (sampleEnv 1061)) ++
    List.replicate 8 (.step 0 (sampleEnv 1062))

/-- The first delivery deletes the lock of its repetition. -/
theorem lock_released_by_other :
    ∃ (u : Traffic ℕ ℚ) (a : PoolAction ℕ (WebhookCall ℚ) (Env ℚ)) (v : Traffic ℕ ℚ),
      exec (step sampleCrypto sampleSettings) (Pool.initial sampleWorld) overtakenRun = some u ∧
      step sampleCrypto sampleSettings u a = some v ∧
      ¬ LockKept (idempotencyLockKey sampleScopeKey) (lockHolder sampleCrypto sampleSettings
        (idempotencyLockKey sampleScopeKey) sampleWorld overtakenRun) u a v := by
  have hrun : ((exec (step sampleCrypto sampleSettings) (Pool.initial sampleWorld) overtakenRun).any
      fun u => deletesNext (idempotencyLockKey sampleScopeKey) u 0 &&
        (u.store.keys (idempotencyLockKey sampleScopeKey)).isSome &&
        (step sampleCrypto sampleSettings u (.step 0 (sampleEnv 1062))).isSome) = true := by
    decide +kernel
  have hheld : lockHolder sampleCrypto sampleSettings (idempotencyLockKey sampleScopeKey) sampleWorld
      overtakenRun = some 1 := by
    decide +kernel
  obtain ⟨u, hu, hcheck⟩ := (Option.any_eq_true _ _).1 hrun
  obtain ⟨⟨hdeletes, hlock⟩, hstep⟩ : (deletesNext (idempotencyLockKey sampleScopeKey) u 0 = true ∧
      (u.store.keys (idempotencyLockKey sampleScopeKey)).isSome = true) ∧
      (step sampleCrypto sampleSettings u (.step 0 (sampleEnv 1062))).isSome = true := by
    simpa only [Bool.and_eq_true] using hcheck
  obtain ⟨v, hv⟩ := Option.isSome_iff_exists.1 hstep
  obtain ⟨q, k, hcalls⟩ := calls_of_deletesNext hdeletes
  refine ⟨u, .step 0 (sampleEnv 1062), v, hu, hv, fun hkept => ?_⟩
  have hown := hkept.release 0 _ q k rfl hcalls rfl (Option.isSome_iff_ne_none.1 hlock)
  rw [hheld] at hown
  nomatch hown

end Traffic

end StarterBackend.Webhooks

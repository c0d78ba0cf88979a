/-
One inbound webhook at a time.

A request whose key has no unexpired record is refused, for a reason that does not depend
on the tables (`screening`), or it persists its event and stores its response.  From this
follow the two facts of this file about records:

* a record that has expired but is still in the table is the same as no record exactly
  for the requests that are refused (`expired_record_equivalent_iff`);
* a request is answered only to the sender of a valid signature, unless its key has an
  unexpired record, which is looked up first (`authenticated_first_iff`).
-/
import StarterBackend.Webhooks.Inbound
import StarterBackend.Lib.Alike
import Mathlib.Data.Rat.Floor

namespace StarterBackend.Webhooks

open Lib App

section

variable {K : Type} [Field K] [LinearOrder K] [FloorRing K] (crypto : Crypto)
  (settings : WebhookSettings) (e : Env K) (request : InboundRequest)

/-! ### What a request does before its record is looked up -/

/-- `enforce_rate_limit_counter` on the keys. -/
def limitCounter (keys : Redis.Keys K) (key : String) (limit windowSeconds : ℕ) :
    Except AppError Unit × Redis.Keys K :=
  let unavailable := AppError.serviceUnavailable "Service temporarily unavailable"
  if e.redisFails then (.error unavailable, keys)
  else
    match keys.incr e.now e.lingers key with
    | none => (.error unavailable, keys)
    | some (n, keys) =>
        let keys := if n = 1 then keys.expire e.now e.lingers key windowSeconds else keys
        if (limit : ℤ) < n then (.error (.http 429 "Too many requests"), keys) else (.ok (), keys)

/-- The scope key of a request that passes the checks before its record is looked up. -/
def admission (keys : Redis.Keys K) : Except AppError String × Redis.Keys K :=
  match getIdempotencyKey request with
  | none => (.error (.badRequest "Idempotency-Key header is required"), keys)
  | some idempotencyKey =>
      match limitCounter e keys (ingressKey request) settings.ingressRateLimitLimit
          settings.ingressRateLimitWindowSeconds with
      | (.error x, keys) => (.error x, keys)
      | (.ok (), keys) =>
          if settings.maxBodyBytes < request.body.length then
            (.error (.http 413 "Webhook payload too large"), keys)
          else (.ok (inboundScopeKey crypto idempotencyKey), keys)

/-- The verdict on the signature at the time of the request. -/
def verdict : Except SignatureFailure ℤ :=
  verifyInboundWebhookSignature crypto request.body request.signature request.timestamp
    settings.signatureSecret settings.signatureToleranceSeconds ⌊e.now⌋

/-- `enforce_webhook_provider_rate_limit` on the keys. -/
def limitProvider (keys : Redis.Keys K) (provider : String) : Except AppError Unit × Redis.Keys K :=
  match providerKey crypto provider with
  | none => (.ok (), keys)
  | some key => limitCounter e keys key settings.providerRateLimitLimit
      settings.providerRateLimitWindowSeconds

/-- Another request holds the lock of the scope key. -/
def lockHeld (keys : Redis.Keys K) (scopeKey : String) : Bool :=
  keys.contains e.now e.lingers (idempotencyLockKey scopeKey)

/-- The keys with the lock of the scope key. -/
def withLock (keys : Redis.Keys K) (scopeKey : String) : Redis.Keys K :=
  keys.setEx e.now (idempotencyLockKey scopeKey) "1" settings.idempotencyProcessingLockTtlSeconds

/-- What becomes of a request that holds the lock: it is refused, or goes on with its event. -/
def acceptance (keys : Redis.Keys K) : Except AppError InboundPayload × Redis.Keys K :=
  match verdict crypto settings e request with
  | .error (.rejected message) => (.error (.unauthorized message), keys)
  | .error .crashes => (.error .unhandled, keys)
  | .ok _ =>
      match request.payload crypto with
      | none => (.error .unhandled, keys)
      | some payload =>
          match limitProvider crypto settings e keys payload.provider with
          | (.error x, keys) => (.error x, keys)
          | (.ok (), keys) => (.ok payload, keys)

/-- What becomes of a request whose key has no unexpired record: it is refused, or goes on to
store its event and its response. -/
def screening (keys : Redis.Keys K) : Except AppError (String × InboundPayload) :=
  match admission crypto settings e request keys with
  | (.error x, _) => .error x
  | (.ok scopeKey, keys) =>
      if lockHeld e keys scopeKey then
        .error (.conflict "Duplicate request is already in progress")
      else
        match acceptance crypto settings e request (withLock settings e keys scopeKey) with
        | (.error x, _) => .error x
        | (.ok payload, _) => .ok (scopeKey, payload)

end

/-! ### Records of a scope key -/

namespace World

variable {K : Type}

/-- The world at the time of a request, with other keys. -/
def touch (w : World K) (e : Env K) (keys : Redis.Keys K) : World K :=
  { w with keys, clock := e.now }

/-- No two records have one scope key: the unique constraint of the table. -/
def ScopeKeysUnique (w : World K) : Prop :=
  ∀ r r' : IdempotencyRecord K, w.records.row r.id = some r → w.records.row r'.id = some r' →
    r.scopeKey = r'.scopeKey → r = r'

/-- The world without a record. -/
def deleteRecord (w : World K) (id : ℕ) : World K :=
  { w with records := w.records.restrict fun record => record.id != id }

variable {w : World K} {record : IdempotencyRecord K}

lemma mem_of_anyRecord {scopeKey : String} (h : w.anyRecord scopeKey = some record) :
    w.records.row record.id = some record ∧ record.scopeKey = scopeKey := by
  obtain ⟨hrow, hp⟩ := Table.mem_select.1 (List.mem_of_head? h)
  exact ⟨hrow, by simpa using hp⟩

lemma anyRecord_isSome {r : IdempotencyRecord K} (hrow : w.records.row r.id = some r) :
    (w.anyRecord r.scopeKey).isSome = true := by
  have hmem : r ∈ w.records.select fun row => row.scopeKey == r.scopeKey :=
    Table.mem_select.2 ⟨hrow, by simp⟩
  rw [anyRecord, List.isSome_head?]
  cases hselect : w.records.select fun row => row.scopeKey == r.scopeKey with
  | nil => simp [hselect] at hmem
  | cons r' rs => simp

variable [LinearOrder K]

lemma mem_of_record {scopeKey : String} {time : K} (h : w.record scopeKey time = some record) :
    w.records.row record.id = some record ∧ record.scopeKey = scopeKey ∧ time < record.expiresAt := by
  obtain ⟨hrow, hp⟩ := Table.mem_select.1 (List.mem_of_head? h)
  simp only [Bool.and_eq_true, beq_iff_eq, decide_eq_true_eq] at hp
  exact ⟨hrow, hp⟩

/-- An expired record hides no other. -/
lemma record_eq_none_of_expired (hunique : w.ScopeKeysUnique)
    (hrow : w.records.row record.id = some record) {time : K} (hexpired : record.expiresAt ≤ time) :
    w.record record.scopeKey time = none := by
  by_contra hne
  obtain ⟨r, hr⟩ := Option.ne_none_iff_exists'.1 hne
  obtain ⟨hrow', hkey, htime⟩ := mem_of_record hr
  obtain rfl := hunique r record hrow' hrow hkey
  exact absurd htime (not_lt.2 hexpired)

omit [LinearOrder K] in
/-- Without it the scope key has no record. -/
lemma anyRecord_deleteRecord (hunique : w.ScopeKeysUnique)
    (hrow : w.records.row record.id = some record) :
    (w.deleteRecord record.id).anyRecord record.scopeKey = none := by
  by_contra hne
  obtain ⟨r, hr⟩ := Option.ne_none_iff_exists'.1 hne
  obtain ⟨hrow', hkey⟩ := mem_of_anyRecord hr
  simp only [deleteRecord, Table.row_restrict, Option.filter_eq_some_iff, bne_iff_ne] at hrow'
  obtain rfl := hunique r record hrow'.1 hrow hkey
  exact hrow'.2 rfl

/-- The record of a scope key that has none. -/
lemma record_eq_none_of_anyRecord {scopeKey : String} (h : w.anyRecord scopeKey = none) (time : K) :
    w.record scopeKey time = none := by
  by_contra hne
  obtain ⟨r, hr⟩ := Option.ne_none_iff_exists'.1 hne
  obtain ⟨hrow, rfl, -⟩ := mem_of_record hr
  have hsome := anyRecord_isSome hrow
  rw [h] at hsome
  exact absurd hsome (by simp)

omit [LinearOrder K] in
/-- The first record of a scope key is its record. -/
lemma anyRecord_insertRecord {gap : ℕ} {scopeKey responseBody : String} {statusCode : ℕ}
    {expiresAt : K} (h : w.anyRecord scopeKey = none) :
    (w.insertRecord gap scopeKey statusCode responseBody expiresAt).anyRecord scopeKey =
      some ⟨w.records.freshId gap, scopeKey, statusCode, responseBody, expiresAt⟩ := by
  have hsome : ((w.insertRecord gap scopeKey statusCode responseBody expiresAt).anyRecord
      scopeKey).isSome = true := by
    refine anyRecord_isSome (w := w.insertRecord gap scopeKey statusCode responseBody expiresAt)
      (r := ⟨w.records.freshId gap, scopeKey, statusCode, responseBody, expiresAt⟩) ?_
    simp [insertRecord]
  obtain ⟨r, hr⟩ := Option.isSome_iff_exists.1 hsome
  obtain ⟨hrow, hkey⟩ := mem_of_anyRecord hr
  rw [hr]
  simp only [insertRecord, Table.row_insert] at hrow
  split_ifs at hrow
  · exact hrow.symm
  · have hold := anyRecord_isSome hrow
    rw [hkey, h] at hold
    simp at hold

end World

/-! ### Runs of the parts -/

section

variable {K : Type} [Field K] [LinearOrder K] {crypto : Crypto}
  {settings : WebhookSettings} {e : Env K} {request : InboundRequest} {w : World K}

lemma interp_of_le {c : Command K} (h : w.clock ≤ e.now) :
    interp c e w = some (.ok (c.exec e w).1, { (c.exec e w).2 with clock := e.now }) := if_pos h

/-- Every program can be run, and ends before the clock is past the time of the request. -/
lemma run_total {α : Type} (p : WebhookProg K α) (h : w.clock ≤ e.now) :
    ∃ x w', p.run interp e w = some (x, w') ∧ w'.clock ≤ e.now := by
  induction p generalizing w with
  | ret a => exact ⟨.ok a, w, rfl, h⟩
  | raise x => exact ⟨.error x, w, rfl, h⟩
  | call c k ih =>
      rw [Prog.run_call (interp_of_le h)]
      exact ih _ le_rfl

lemma interp_ok {c : Command K} {x : Except AppError c.Reply} {w' : World K}
    (h : interp c e w = some (x, w')) : ∃ r, x = .ok r := ⟨_, (interp_eq_some h).2.1⟩

lemma run_enforceRateLimitCounter (h : w.clock ≤ e.now) (key : String) (limit window : ℕ) :
    (enforceRateLimitCounter key limit window).run interp e w =
      some ((limitCounter e w.keys key limit window).1,
        w.touch e (limitCounter e w.keys key limit window).2) := by
  unfold enforceRateLimitCounter limitCounter
  simp only [issue, Prog.cmd, Prog.bind_def, Prog.call_bind, Prog.ret_bind]
  rw [Prog.run_call (interp_of_le h)]
  cases hfails : e.redisFails with
  | true =>
      cases hincr : w.keys.incr e.now e.lingers key with
      | none => simp [Command.exec, hincr, Prog.getOrRaise, World.touch]
      | some r => simp [Command.exec, hincr, unlessFails, hfails, Prog.getOrRaise, World.touch]
  | false =>
      cases hincr : w.keys.incr e.now e.lingers key with
      | none => simp [Command.exec, hincr, Prog.getOrRaise, World.touch]
      | some r =>
          obtain ⟨n, keys⟩ := r
          by_cases hn : n = 1
          · by_cases hlimit : (limit : ℤ) < n <;>
              simp [Command.exec, hincr, unlessFails, hfails, Prog.getOrRaise, World.touch, hn,
                Prog.run, interp, hn ▸ hlimit]
          · by_cases hlimit : (limit : ℤ) < n <;>
              simp [Command.exec, hincr, unlessFails, hfails, Prog.getOrRaise, World.touch, hn,
                hlimit]

lemma run_getCachedResponse (h : w.clock ≤ e.now) (scopeKey : String) :
    (getCachedResponse scopeKey).run interp e w =
      some (.ok (w.record scopeKey e.now), w.touch e w.keys) := by
  unfold getCachedResponse
  simp only [now, issue, Prog.cmd, Prog.bind_def, Prog.call_bind, Prog.ret_bind]
  rw [Prog.run_call (interp_of_le h), Prog.run_call (interp_of_le le_rfl)]
  rfl

/-- A counter that does not refuse a request shows that Redis answers. -/
lemma redisFails_eq_false {keys : Redis.Keys K} {key : String} {limit window : ℕ}
    (h : (limitCounter e keys key limit window).1 = .ok ()) : e.redisFails = false := by
  unfold limitCounter at h
  split at h
  · simp at h
  · rename_i hfails
    simpa using hfails

lemma redisFails_of_admission {keys keys' : Redis.Keys K} {scopeKey : String}
    (h : admission crypto settings e request keys = (.ok scopeKey, keys')) :
    e.redisFails = false := by
  unfold admission at h
  split at h
  · simp at h
  · split at h
    · simp at h
    · rename_i hlimit
      exact redisFails_eq_false (by rw [hlimit])

lemma run_releaseIdempotencyLock {α : Type} (h : w.clock ≤ e.now) (hredis : e.redisFails = false)
    (scopeKey : String) (x : Except AppError α) :
    ((releaseIdempotencyLock scopeKey).bind fun _ => Prog.ofExcept x).run interp e w =
      some (x, w.touch e (w.keys.delete (idempotencyLockKey scopeKey))) := by
  unfold releaseIdempotencyLock
  simp only [issue, Prog.cmd, Prog.bind_def, Prog.call_bind, Prog.ret_bind]
  rw [Prog.run_call (interp_of_le h)]
  cases x <;>
    simp [Command.exec, unlessFails, hredis, orUnhandled, Prog.getOrRaise, Prog.ofExcept, World.touch]

/-- What the lookup of the record leads to. -/
lemma run_serveInbound [FloorRing K] (h : w.clock ≤ e.now) (hredis : e.redisFails = false)
    (scopeKey : String) :
    (serveInbound crypto settings request scopeKey).run interp e w =
      match w.record scopeKey e.now with
      | some record => (cachedJsonResponse record).run interp e (w.touch e w.keys)
      | none =>
          if lockHeld e w.keys scopeKey then
            some (.error (.conflict "Duplicate request is already in progress"), w.touch e w.keys)
          else
            ((processWebhook crypto settings request scopeKey).tryFinally
              (releaseIdempotencyLock scopeKey)).run interp e
                (w.touch e (withLock settings e w.keys scopeKey)) := by
  unfold serveInbound beginIdempotentRequest
  rw [Prog.bind_def, Prog.bind_def, Prog.bind_assoc, Prog.run_bind (run_getCachedResponse h scopeKey)]
  cases hrecord : w.record scopeKey e.now with
  | some record => rfl
  | none =>
      simp only [tryAcquireIdempotencyLock, issue, Prog.cmd, Prog.bind_def, Prog.call_bind,
        Prog.ret_bind]
      rw [Prog.run_call (interp_of_le le_rfl)]
      simp only [Command.exec, unlessFails, hredis, Bool.false_eq_true, if_false, orUnhandled,
        Prog.getOrRaise, Prog.ret_bind, World.touch, Redis.Keys.setNxEx, lockHeld]
      by_cases hheld : w.keys.contains e.now e.lingers (idempotencyLockKey scopeKey) = true
      · simp only [hheld, if_true, Bool.false_eq_true, if_false]
        rw [Prog.bind_assoc, Prog.run_bind (run_getCachedResponse le_rfl scopeKey)]
        have hrecord' : World.record { w with clock := e.now } scopeKey e.now = none := hrecord
        rw [hrecord']
        rfl
      · simp only [hheld, Bool.false_eq_true, if_false, if_true]
        rfl

/-- What the checks before the lookup lead to. -/
lemma run_inboundWebhook [FloorRing K] (h : w.clock ≤ e.now) :
    (∀ x keys, admission crypto settings e request w.keys = (.error x, keys) → ∃ w',
      (inboundWebhook crypto settings request).run interp e w = some (.error x, w') ∧
        w'.events = w.events ∧ w'.records = w.records) ∧
    ∀ scopeKey keys, admission crypto settings e request w.keys = (.ok scopeKey, keys) →
      (inboundWebhook crypto settings request).run interp e w =
        (serveInbound crypto settings request scopeKey).run interp e (w.touch e keys) := by
  unfold admission inboundWebhook
  cases hkey : getIdempotencyKey request with
  | none =>
      refine ⟨fun x keys hx => ?_, fun scopeKey keys hx => by simp at hx⟩
      obtain ⟨rfl, -⟩ : AppError.badRequest "Idempotency-Key header is required" = x ∧ _ := by
        simpa using hx
      exact ⟨w, rfl, rfl, rfl⟩
  | some key =>
      simp only [Prog.getOrRaise, Prog.bind_def, Prog.ret_bind]
      have hrun := run_enforceRateLimitCounter h (ingressKey request) settings.ingressRateLimitLimit
        settings.ingressRateLimitWindowSeconds
      cases hlimit : limitCounter e w.keys (ingressKey request) settings.ingressRateLimitLimit
          settings.ingressRateLimitWindowSeconds with
      | mk result keys =>
          rw [hlimit] at hrun
          cases result with
          | error y =>
              refine ⟨fun x keys' hx => ?_, fun scopeKey keys' hx => by simp at hx⟩
              obtain ⟨rfl, -⟩ : y = x ∧ _ := by simpa using hx
              exact ⟨_, Prog.run_bind_raise hrun, rfl, rfl⟩
          | ok u =>
              rw [Prog.run_bind hrun]
              by_cases hsize : settings.maxBodyBytes < request.body.length
              · simp only [hsize, if_true]
                refine ⟨fun x keys' hx => ?_, fun scopeKey keys' hx => by simp at hx⟩
                obtain ⟨rfl, -⟩ : AppError.http 413 "Webhook payload too large" = x ∧ _ := by
                  simpa using hx
                exact ⟨_, rfl, rfl, rfl⟩
              · simp only [hsize, if_false]
                refine ⟨fun x keys' hx => by simp at hx, fun scopeKey keys' hx => ?_⟩
                obtain ⟨rfl, rfl⟩ : inboundScopeKey crypto key = scopeKey ∧ keys = keys' := by
                  simpa using hx
                rfl

variable (crypto settings) in
lemma run_limitProvider (h : w.clock ≤ e.now) (provider : String) : ∃ w',
    (enforceWebhookProviderRateLimit crypto settings provider).run interp e w =
      some ((limitProvider crypto settings e w.keys provider).1, w') ∧ w'.clock ≤ e.now ∧
      w'.events = w.events ∧ w'.records = w.records ∧
      w'.keys = (limitProvider crypto settings e w.keys provider).2 := by
  unfold enforceWebhookProviderRateLimit limitProvider
  cases providerKey crypto provider with
  | none => exact ⟨w, rfl, h, rfl, rfl, rfl⟩
  | some key => exact ⟨_, run_enforceRateLimitCounter h _ _ _, le_rfl, rfl, rfl, rfl⟩

/-- The end of `verify_webhook_signature` for a verdict on the signature. -/
def signatureOutcome : Except SignatureFailure ℤ → WebhookProg K Unit
  | .ok _ => return ()
  | .error (.rejected message) => .raise (.unauthorized message)
  | .error .crashes => .raise .unhandled

/-- What the checks under the lock lead to. -/
lemma run_processWebhook [FloorRing K] (h : w.clock ≤ e.now) (scopeKey : String) :
    (∀ x keys, acceptance crypto settings e request w.keys = (.error x, keys) → ∃ w',
      (processWebhook crypto settings request scopeKey).run interp e w = some (.error x, w') ∧
        w'.clock ≤ e.now ∧ w'.events = w.events ∧ w'.records = w.records) ∧
    ∀ payload keys, acceptance crypto settings e request w.keys = (.ok payload, keys) → ∃ w',
      (processWebhook crypto settings request scopeKey).run interp e w =
        ((persistWebhookEvent crypto payload request.body).bind
          (storeOutcome settings scopeKey payload)).run interp e w' ∧
        w'.clock ≤ e.now ∧ w'.events = w.events ∧ w'.records = w.records := by
  have hnow : (verifySignature crypto settings request).run interp e w =
      (signatureOutcome (verdict crypto settings e request)).run interp e (w.touch e w.keys) := by
    unfold verifySignature
    simp only [now, issue, Prog.cmd, Prog.bind_def, Prog.call_bind, Prog.ret_bind]
    rw [Prog.run_call (interp_of_le h)]
    rfl
  unfold acceptance processWebhook
  rw [Prog.bind_def]
  cases hverdict : verdict crypto settings e request with
  | error failure =>
      cases failure with
      | rejected message =>
          rw [hverdict] at hnow
          refine ⟨fun x keys hx => ?_, fun payload keys hx => by simp at hx⟩
          obtain ⟨rfl, -⟩ : AppError.unauthorized message = x ∧ _ := by simpa using hx
          exact ⟨_, Prog.run_bind_raise (hnow.trans rfl), le_rfl, rfl, rfl⟩
      | crashes =>
          rw [hverdict] at hnow
          refine ⟨fun x keys hx => ?_, fun payload keys hx => by simp at hx⟩
          obtain ⟨rfl, -⟩ : AppError.unhandled = x ∧ _ := by simpa using hx
          exact ⟨_, Prog.run_bind_raise (hnow.trans rfl), le_rfl, rfl, rfl⟩
  | ok time =>
      rw [hverdict] at hnow
      rw [Prog.run_bind (hnow.trans rfl)]
      cases hpayload : request.payload crypto with
      | none =>
          refine ⟨fun x keys hx => ?_, fun payload keys hx => by simp at hx⟩
          obtain ⟨rfl, -⟩ : AppError.unhandled = x ∧ _ := by simpa using hx
          exact ⟨_, rfl, le_rfl, rfl, rfl⟩
      | some payload =>
          simp only [orUnhandled, Prog.getOrRaise, Prog.bind_def, Prog.ret_bind]
          obtain ⟨w', hrun, hclock, hevents, hrecords, -⟩ := run_limitProvider crypto settings
            (w := w.touch e w.keys) (e := e) le_rfl payload.provider
          cases hlimit : limitProvider crypto settings e w.keys payload.provider with
          | mk result keys =>
              have hlimit' : limitProvider crypto settings e (w.touch e w.keys).keys
                  payload.provider = (result, keys) := hlimit
              rw [hlimit'] at hrun
              cases result with
              | error y =>
                  refine ⟨fun x keys' hx => ?_, fun payload' keys' hx => by simp at hx⟩
                  obtain ⟨rfl, -⟩ : y = x ∧ _ := by simpa using hx
                  exact ⟨w', Prog.run_bind_raise hrun, hclock, hevents, hrecords⟩
              | ok u =>
                  refine ⟨fun x keys' hx => by simp at hx, fun payload' keys' hx => ?_⟩
                  obtain ⟨rfl, -⟩ : payload = payload' ∧ _ := by simpa using hx
                  exact ⟨w', Prog.run_bind hrun, hclock, hevents, hrecords⟩

variable (crypto) in
lemma run_persistWebhookEvent (h : w.clock ≤ e.now) (payload : InboundPayload)
    (body : List UInt8) : ∃ isNew w',
    (persistWebhookEvent crypto payload body).run interp e w = some (.ok isNew, w') ∧
      w'.clock = e.now ∧ w'.records = w.records := by
  unfold persistWebhookEvent
  simp only [issue, Prog.cmd, Prog.bind_def, Prog.call_bind, Prog.ret_bind]
  rw [Prog.run_call (interp_of_le h)]
  cases hevent : (w.event payload.provider payload.eventId).isSome with
  | true =>
      simp only [Command.exec, hevent, if_true]
      exact ⟨false, _, rfl, rfl, rfl⟩
  | false =>
      simp only [Command.exec, hevent, Bool.false_eq_true, if_false]
      rw [Prog.run_call (interp_of_le le_rfl)]
      simp only [Command.exec, World.insertEvent, Table.row_insert_self, orUnhandled,
        Prog.getOrRaise, Prog.ret_bind]
      exact ⟨true, _, rfl, rfl, rfl⟩

/-- A response that cannot be stored, with no record to take its place. -/
lemma run_storeOutcome_conflict (h : w.clock ≤ e.now) (payload : InboundPayload) (isNew : Bool)
    {scopeKey : String} (hany : (w.anyRecord scopeKey).isSome = true)
    (hrecord : w.record scopeKey e.now = none) : ∃ w',
    (storeOutcome settings scopeKey payload isNew).run interp e w = some (.error .unhandled, w') := by
  have hstore : ∀ status body, ∃ w',
      (storeResponse settings scopeKey status body).run interp e w =
        some (.error .unhandled, w') := by
    intro status body
    unfold storeResponse existingRecord
    simp only [now, issue, Prog.cmd, Prog.bind_def, Prog.call_bind, Prog.ret_bind]
    rw [Prog.run_call (interp_of_le h), Prog.run_call (interp_of_le le_rfl)]
    have hany' : (World.anyRecord { w with clock := e.now } scopeKey).isSome = true := hany
    simp only [Command.exec, hany', if_true]
    rw [Prog.run_bind (run_getCachedResponse le_rfl scopeKey)]
    have hrecord' : World.record { w with clock := e.now } scopeKey e.now = none := hrecord
    rw [hrecord']
    exact ⟨_, rfl⟩
  cases isNew with
  | true =>
      obtain ⟨w', hrun⟩ := hstore 200 (responseBody "accepted" payload)
      exact ⟨w', Prog.run_bind_raise hrun⟩
  | false =>
      obtain ⟨w', hrun⟩ := hstore 409 (responseBody "duplicate" payload)
      exact ⟨w', Prog.run_bind_raise hrun⟩

lemma wf_responseBody (status : String) (payload : InboundPayload) :
    (responseBody status payload).wf = true := by
  simp [responseBody, Json.wf, Json.wfFields]

lemma responseModel_responseBody (status : String) (payload : InboundPayload) :
    responseModel (responseBody status payload) = some (responseBody status payload) := rfl

/-- A response that is stored is returned, and its record is the one of the scope key. -/
lemma run_storeOutcome_free (h : w.clock ≤ e.now) (payload : InboundPayload) (isNew : Bool)
    {scopeKey : String} (hany : w.anyRecord scopeKey = none) : ∃ response w',
    (storeOutcome settings scopeKey payload isNew).run interp e w = some (.ok response, w') ∧
      w'.clock ≤ e.now ∧ w'.anyRecord scopeKey = some response.record ∧
      response.record.expiresAt = e.now + settings.idempotencyTtlSeconds ∧
      Json.loads response.record.responseBody = some response.body := by
  have hstore : ∀ status body, ∃ record w',
      (storeResponse settings scopeKey status body).run interp e w = some (.ok record, w') ∧
        w'.clock ≤ e.now ∧ w'.anyRecord scopeKey = some record ∧
        record.expiresAt = e.now + settings.idempotencyTtlSeconds ∧
        record.responseBody = body.dumps := by
    intro status body
    unfold storeResponse
    simp only [now, issue, Prog.cmd, Prog.bind_def, Prog.call_bind, Prog.ret_bind]
    rw [Prog.run_call (interp_of_le h), Prog.run_call (interp_of_le le_rfl)]
    have hany' : World.anyRecord { w with clock := e.now } scopeKey = none := hany
    simp only [Command.exec, hany', Option.isSome_none, Bool.false_eq_true, if_false]
    rw [Prog.run_call (interp_of_le le_rfl)]
    simp only [Command.exec, World.insertRecord, Table.row_insert_self, orUnhandled,
      Prog.getOrRaise, Prog.run_ret]
    exact ⟨_, _, rfl, le_rfl, World.anyRecord_insertRecord hany, rfl, rfl⟩
  cases isNew with
  | true =>
      obtain ⟨record, w', hrun, hclock, hrecord, hexpires, hbody⟩ :=
        hstore 200 (responseBody "accepted" payload)
      have hloads : Json.loads record.responseBody = some (responseBody "accepted" payload) := by
        rw [hbody, Json.loads_dumps (wf_responseBody _ payload)]
      refine ⟨⟨200, responseBody "accepted" payload, record⟩, w', (Prog.run_bind hrun).trans ?_,
        hclock, hrecord, hexpires, hloads⟩
      simp [acceptedResponse, hloads, responseModel_responseBody]
  | false =>
      obtain ⟨record, w', hrun, hclock, hrecord, hexpires, hbody⟩ :=
        hstore 409 (responseBody "duplicate" payload)
      have hloads : Json.loads record.responseBody = some (responseBody "duplicate" payload) := by
        rw [hbody, Json.loads_dumps (wf_responseBody _ payload)]
      refine ⟨⟨record.statusCode, responseBody "duplicate" payload, record⟩, w',
        (Prog.run_bind hrun).trans ?_, hclock, hrecord, hexpires, hloads⟩
      simp [cachedJsonResponse, hloads]

end

/-! ### The whole route -/

section

variable {K : Type} [Field K] [LinearOrder K] [FloorRing K] {crypto : Crypto}
  {settings : WebhookSettings} {e : Env K} {request : InboundRequest} {w : World K}

/-- A request that is refused does not change the tables. -/
lemma run_of_refused (h : w.clock ≤ e.now) {x : AppError}
    (hrecord : ∀ scopeKey keys, admission crypto settings e request w.keys = (.ok scopeKey, keys) →
      w.record scopeKey e.now = none)
    (hx : screening crypto settings e request w.keys = .error x) : ∃ w',
    (inboundWebhook crypto settings request).run interp e w = some (.error x, w') ∧
      w'.events = w.events ∧ w'.records = w.records := by
  unfold screening at hx
  cases hadmission : admission crypto settings e request w.keys with
  | mk result keys =>
      cases result with
      | error y =>
          obtain rfl : y = x := by simpa [hadmission] using hx
          exact (run_inboundWebhook h).1 y keys hadmission
      | ok scopeKey =>
          have hnone : (w.touch e keys).record scopeKey e.now = none := hrecord scopeKey keys hadmission
          have hredis := redisFails_of_admission hadmission
          rw [(run_inboundWebhook h).2 scopeKey keys hadmission, run_serveInbound le_rfl hredis, hnone]
          simp only [hadmission] at hx
          by_cases hheld : lockHeld e keys scopeKey = true
          · have hheld' : lockHeld e (w.touch e keys).keys scopeKey = true := hheld
            obtain rfl : AppError.conflict "Duplicate request is already in progress" = x := by
              simpa [hheld] using hx
            exact ⟨_, if_pos hheld', rfl, rfl⟩
          · have hheld' : ¬ lockHeld e (w.touch e keys).keys scopeKey = true := hheld
            simp only [hheld']
            rw [if_neg hheld] at hx
            cases haccept : acceptance crypto settings e request (withLock settings e keys scopeKey) with
            | mk result keys' =>
                cases result with
                | ok payload => simp [haccept] at hx
                | error y =>
                    obtain rfl : y = x := by simpa [haccept] using hx
                    obtain ⟨w', hrun, hclock, hevents, hrecords⟩ :=
                      (run_processWebhook (w := (w.touch e keys).touch e
                        (withLock settings e keys scopeKey)) le_rfl scopeKey).1 y keys' haccept
                    refine ⟨_, (Prog.run_tryFinally (fun _ _ _ _ => interp_ok) hrun).trans
                      (run_releaseIdempotencyLock hclock hredis scopeKey _), hevents, hrecords⟩

/-- A request that is not refused ends as the storing of its response does. -/
lemma run_of_screened (h : w.clock ≤ e.now) {scopeKey : String} {payload : InboundPayload}
    (hrecord : w.record scopeKey e.now = none)
    (hx : screening crypto settings e request w.keys = .ok (scopeKey, payload)) :
    ∃ isNew u, u.clock ≤ e.now ∧ u.records = w.records ∧ ∀ x u',
      (storeOutcome settings scopeKey payload isNew).run interp e u = some (x, u') →
        ∃ w', (inboundWebhook crypto settings request).run interp e w = some (x, w') := by
  unfold screening at hx
  cases hadmission : admission crypto settings e request w.keys with
  | mk result keys =>
      cases result with
      | error y => simp [hadmission] at hx
      | ok key =>
          simp only [hadmission] at hx
          by_cases hheld : lockHeld e keys key = true
          · simp [hheld] at hx
          · rw [if_neg hheld] at hx
            cases haccept : acceptance crypto settings e request (withLock settings e keys key) with
            | mk result keys' =>
                cases result with
                | error y => simp [haccept] at hx
                | ok payload' =>
                    obtain ⟨rfl, rfl⟩ : key = scopeKey ∧ payload' = payload := by
                      simpa [haccept] using hx
                    have hredis := redisFails_of_admission hadmission
                    have hnone : (w.touch e keys).record key e.now = none := hrecord
                    have hheld' : ¬ lockHeld e (w.touch e keys).keys key = true := hheld
                    rw [(run_inboundWebhook h).2 key keys hadmission,
                      run_serveInbound le_rfl hredis, hnone]
                    simp only [hheld']
                    obtain ⟨w₁, hrun₁, hclock₁, -, hrecords₁⟩ :=
                      (run_processWebhook (w := (w.touch e keys).touch e
                        (withLock settings e keys key)) le_rfl key).2 payload' keys' haccept
                    obtain ⟨isNew, u, hpersist, hclock, hrecords⟩ :=
                      run_persistWebhookEvent crypto hclock₁ payload' request.body
                    refine ⟨isNew, u, hclock.le, hrecords.trans hrecords₁, fun x u' hstore => ?_⟩
                    have hprocess := hrun₁.trans ((Prog.run_bind hpersist).trans hstore)
                    obtain ⟨x', u'', hu'', hclock'⟩ :=
                      run_total (storeOutcome settings key payload' isNew) hclock.le
                    obtain ⟨rfl, rfl⟩ : x' = x ∧ u'' = u' := by simpa [hstore] using hu''.symm
                    exact ⟨_, (Prog.run_tryFinally (fun _ _ _ _ => interp_ok) hprocess).trans
                      (run_releaseIdempotencyLock hclock' hredis key _)⟩

end

/-! ### Expired records -/

section

variable {K : Type} [Field K] [LinearOrder K] [FloorRing K]

/-- What a client sees of a response. -/
def Response.view (response : Response K) : ℕ × Json := (response.status, response.body)

/-- The request on this world and on the one without the record: the same response, the same
events, and the same records that are not expired. -/
def EquivalentToDeleted (crypto : Crypto) (settings : WebhookSettings) (request : InboundRequest)
    (e : Env K) (w : World K) (id : ℕ) : Prop :=
  ∀ x w₁ x' w₁', (inboundWebhook crypto settings request).run interp e w = some (x, w₁) →
    (inboundWebhook crypto settings request).run interp e (w.deleteRecord id) = some (x', w₁') →
    x.map Response.view = x'.map Response.view ∧ w₁.events = w₁'.events ∧
      ∀ k, (w₁.records.row k).filter (fun record => decide (e.now < record.expiresAt)) =
        (w₁'.records.row k).filter fun record => decide (e.now < record.expiresAt)

variable {crypto : Crypto} {settings : WebhookSettings} {e : Env K} {request : InboundRequest}
  {w : World K}

omit [FloorRing K] in
/-- The scope key of a request that passes the checks is the one of its `Idempotency-Key`. -/
lemma admission_eq_ok {keys keys' : Redis.Keys K} {idempotencyKey scopeKey : String}
    (hkey : getIdempotencyKey request = some idempotencyKey)
    (h : admission crypto settings e request keys = (.ok scopeKey, keys')) :
    scopeKey = inboundScopeKey crypto idempotencyKey := by
  unfold admission at h
  simp only [hkey] at h
  split at h
  · simp at h
  · split_ifs at h
    · simp at h
    · exact (Except.ok.inj (Prod.mk.inj h).1).symm

lemma screening_eq_ok {keys : Redis.Keys K} {scopeKey : String} {payload : InboundPayload}
    (h : screening crypto settings e request keys = .ok (scopeKey, payload)) :
    ∃ keys', admission crypto settings e request keys = (.ok scopeKey, keys') := by
  unfold screening at h
  split at h
  · simp at h
  · rename_i key keys' hadmission
    split_ifs at h
    split at h
    · simp at h
    · obtain ⟨rfl, -⟩ := Prod.mk.inj (Except.ok.inj h)
      exact ⟨keys', hadmission⟩

section Expired

variable {record : IdempotencyRecord K} {idempotencyKey : String} (hclock : w.clock ≤ e.now)
  (hunique : w.ScopeKeysUnique) (hrow : w.records.row record.id = some record)
  (hexpired : record.expiresAt ≤ e.now) (hkey : getIdempotencyKey request = some idempotencyKey)
  (hscope : record.scopeKey = inboundScopeKey crypto idempotencyKey)

include hclock hunique hrow hexpired hkey hscope

/-- A request that is refused does not see the expired record. -/
lemma equivalent_of_refused {y : AppError}
    (hy : screening crypto settings e request w.keys = .error y) :
    EquivalentToDeleted crypto settings request e w record.id := by
  have hnone := World.record_eq_none_of_expired hunique hrow hexpired
  have hany := World.anyRecord_deleteRecord hunique hrow
  rw [hscope] at hnone hany
  intro x w₁ x' w₁' hw₁ hw₁'
  obtain ⟨u, hu, huevents, hurecords⟩ := run_of_refused hclock (fun scopeKey keys h => by
    rw [admission_eq_ok hkey h, hnone]) hy
  obtain ⟨v, hv, hvevents, hvrecords⟩ := run_of_refused (w := w.deleteRecord record.id) hclock
    (fun scopeKey keys h => by
      rw [admission_eq_ok hkey h]
      exact World.record_eq_none_of_anyRecord hany e.now) hy
  obtain ⟨rfl, rfl⟩ : x = .error y ∧ w₁ = u := by simpa [hu] using hw₁.symm
  obtain ⟨rfl, rfl⟩ : x' = .error y ∧ w₁' = v := by simpa [hv] using hw₁'.symm
  refine ⟨rfl, huevents.trans hvevents.symm, fun k => ?_⟩
  rw [hurecords, hvrecords, World.deleteRecord, Table.row_restrict]
  cases hk : w.records.row k with
  | none => rfl
  | some r =>
      have hid : r.id = k := w.records.id_of_row hk
      rcases eq_or_ne k record.id with rfl | hne
      · -- the row is the expired record, which neither side counts
        obtain rfl : r = record := Option.some.inj (hk.symm.trans hrow)
        simp [Option.filter, not_lt.2 hexpired]
      · simp [Option.filter, hid, hne]

/-- A request that is not refused fails on the expired record, and only on it. -/
lemma not_equivalent_of_screened {a : String × InboundPayload}
    (hscreening : screening crypto settings e request w.keys = .ok a) :
    ¬ EquivalentToDeleted crypto settings request e w record.id := by
  have hnone := World.record_eq_none_of_expired hunique hrow hexpired
  have hany := World.anyRecord_deleteRecord hunique hrow
  rw [hscope] at hnone hany
  intro hsame
  obtain ⟨scopeKey, payload⟩ := a
  obtain ⟨keys, hadmission⟩ := screening_eq_ok hscreening
  obtain rfl := admission_eq_ok hkey hadmission
  -- beside the expired record the response cannot be stored
  obtain ⟨isNew, u, hu, hurecords, hrun⟩ := run_of_screened hclock hnone hscreening
  have husome : (u.anyRecord (inboundScopeKey crypto idempotencyKey)).isSome = true := by
    rw [← hscope]
    exact World.anyRecord_isSome (by rw [hurecords]; exact hrow)
  have hunone : u.record (inboundScopeKey crypto idempotencyKey) e.now = none := by
    rw [World.record, hurecords]
    exact hnone
  obtain ⟨u', hconflict⟩ := run_storeOutcome_conflict hu payload isNew husome hunone
  obtain ⟨w₁, hw₁⟩ := hrun _ _ hconflict
  -- without it the response is stored
  obtain ⟨isNew', v, hv, hvrecords, hrun'⟩ :=
    run_of_screened (w := w.deleteRecord record.id) hclock
      (World.record_eq_none_of_anyRecord hany e.now) hscreening
  have hvnone : v.anyRecord (inboundScopeKey crypto idempotencyKey) = none := by
    rw [World.anyRecord, hvrecords]
    exact hany
  obtain ⟨response, v', hfree, -⟩ := run_storeOutcome_free hv payload isNew' hvnone
  obtain ⟨w₁', hw₁'⟩ := hrun' _ _ hfree
  have hview := (hsame _ _ _ _ hw₁ hw₁').1
  simp [Except.map] at hview

/-- **An expired record is the same as no record exactly for the requests that are refused.**  Any
other request persists its event, cannot store its response beside the expired record, does
not find that record either, and ends with the `IntegrityError`. -/
theorem expired_record_equivalent_iff :
    EquivalentToDeleted crypto settings request e w record.id ↔
      ∃ x, screening crypto settings e request w.keys = .error x := by
  constructor
  · intro hsame
    cases hscreening : screening crypto settings e request w.keys with
    | error x => exact ⟨x, rfl⟩
    | ok accepted =>
        exact absurd hsame
          (not_equivalent_of_screened hclock hunique hrow hexpired hkey hscope hscreening)
  · rintro ⟨y, hy⟩
    exact equivalent_of_refused hclock hunique hrow hexpired hkey hscope hy

end Expired

end

/-- The record of an earlier delivery, which has expired at the time 500. -/
def expiredRecord : IdempotencyRecord ℚ := ⟨0, sampleScopeKey, 200, "null", 500⟩

/-- A world with that record alone. -/
def expiredWorld : World ℚ := sampleWorld.insertRecord 0 sampleScopeKey 200 "null" 500

lemma scopeKeysUnique_expiredWorld : expiredWorld.ScopeKeysUnique := by
  intro r r' hr hr' _
  simp only [expiredWorld, World.insertRecord, sampleWorld, Table.row_insert, Table.row_empty] at hr hr'
  split_ifs at hr hr'
  exact Option.some.inj (hr.symm.trans hr')

/-- An unsigned delivery is refused as if the record were not there. -/
theorem expired_record_equivalent_unsigned :
    EquivalentToDeleted sampleCrypto sampleSettings { sampleRequest with signature := none }
      (sampleEnv 1000) expiredWorld expiredRecord.id :=
  (expired_record_equivalent_iff  (by decide)
    scopeKeysUnique_expiredWorld rfl (by decide) rfl rfl).2
    ⟨.unauthorized "Webhook signature header is required", rfl⟩

/-- A signed delivery fails on the expired record. -/
theorem expired_record_blocks_delivery :
    expiredWorld.ScopeKeysUnique ∧ expiredWorld.records.row expiredRecord.id = some expiredRecord ∧
      expiredRecord.expiresAt ≤ (sampleEnv 1000).now ∧
      expiredRecord.scopeKey = inboundScopeKey sampleCrypto "key-1" ∧
      getIdempotencyKey sampleRequest = some "key-1" ∧
      ¬ EquivalentToDeleted sampleCrypto sampleSettings sampleRequest (sampleEnv 1000) expiredWorld
        expiredRecord.id :=
  ⟨scopeKeysUnique_expiredWorld, rfl, by decide, rfl, rfl,
    not_equivalent_of_screened (by decide) scopeKeysUnique_expiredWorld rfl (by decide) rfl rfl
      (a := (sampleScopeKey, ⟨"payments", "evt_1"⟩)) rfl⟩

/-! ### Signatures -/

section

variable {K : Type} [Field K] [LinearOrder K] [FloorRing K]

/-- A response with a status in the four hundreds. -/
def IsClientError : AppError → Prop
  | .http status _ => 400 ≤ status ∧ status < 500
  | .unhandled => False

/-- The world with empty tables. -/
def World.withoutRows (w : World K) : World K := { w with events := .empty, records := .empty }

/-- A business result is returned only if the signature verifies; otherwise the response is a
client error, and the one that the request gets when the tables are empty. -/
def AuthenticatedFirst (crypto : Crypto) (settings : WebhookSettings) (request : InboundRequest)
    (e : Env K) (w : World K) : Prop :=
  ∀ x w', (inboundWebhook crypto settings request).run interp e w = some (x, w') →
    (∀ response, x = .ok response → ∃ t, verdict crypto settings e request = .ok t) ∧
    ((∀ t, verdict crypto settings e request ≠ .ok t) → ∃ y, x = .error y ∧ IsClientError y ∧
      ∃ u, (inboundWebhook crypto settings request).run interp e w.withoutRows = some (.error y, u))

variable {crypto : Crypto} {settings : WebhookSettings} {e : Env K} {request : InboundRequest}
  {w : World K}

/-- A request with a bad signature is refused if its key has no unexpired record. -/
lemma screening_of_not_verified (keys : Redis.Keys K)
    (h : ∀ t, verdict crypto settings e request ≠ .ok t) :
    ∃ y, screening crypto settings e request keys = .error y := by
  unfold screening
  split
  · exact ⟨_, rfl⟩
  · rename_i scopeKey keys' _
    split_ifs
    · exact ⟨_, rfl⟩
    · unfold acceptance
      cases hverdict : verdict crypto settings e request with
      | ok t => exact absurd hverdict (h t)
      | error failure => cases failure <;> exact ⟨_, rfl⟩

/-- Why such a request is refused. -/
lemma isClientError_iff {keys : Redis.Keys K} (h : ∀ t, verdict crypto settings e request ≠ .ok t)
    {y : AppError} (hy : screening crypto settings e request keys = .error y) :
    IsClientError y ↔
      (∃ x keys', admission crypto settings e request keys = (.error x, keys') ∧ IsClientError x) ∨
      ∃ scopeKey keys', admission crypto settings e request keys = (.ok scopeKey, keys') ∧
        (lockHeld e keys' scopeKey = true ∨
          ∃ message, verdict crypto settings e request = .error (.rejected message)) := by
  unfold screening at hy
  cases hadmission : admission crypto settings e request keys with
  | mk result keys' =>
      cases result with
      | error x =>
          obtain rfl : x = y := by simpa [hadmission] using hy
          simp
      | ok scopeKey =>
          simp only [hadmission] at hy
          by_cases hheld : lockHeld e keys' scopeKey = true
          · obtain rfl : AppError.conflict "Duplicate request is already in progress" = y := by
              simpa [hheld] using hy
            simp [hheld, IsClientError, AppError.conflict]
          · rw [if_neg hheld] at hy
            unfold acceptance at hy
            cases hverdict : verdict crypto settings e request with
            | ok t => exact absurd hverdict (h t)
            | error failure =>
                cases failure with
                | rejected message =>
                    obtain rfl : AppError.unauthorized message = y := by
                      simpa [hverdict] using hy
                    simp [IsClientError, AppError.unauthorized]
                | crashes =>
                    obtain rfl : AppError.unhandled = y := by simpa [hverdict] using hy
                    simp [IsClientError, hheld]

/-- A request that finds an unexpired record is answered from it. -/
lemma run_of_record (hclock : w.clock ≤ e.now) {scopeKey : String} {keys : Redis.Keys K}
    (hadmission : admission crypto settings e request w.keys = (.ok scopeKey, keys))
    {record : IdempotencyRecord K} (hrecord : w.record scopeKey e.now = some record) : ∃ u,
    (inboundWebhook crypto settings request).run interp e w =
      (cachedJsonResponse record).run interp e u := by
  have hrecord' : (w.touch e keys).record scopeKey e.now = some record := hrecord
  rw [(run_inboundWebhook hclock).2 scopeKey keys hadmission,
    run_serveInbound le_rfl (redisFails_of_admission hadmission), hrecord']
  exact ⟨_, rfl⟩

/-- A request with a bad signature that finds an unexpired record is not authenticated. -/
lemma not_authenticated_of_record (hclock : w.clock ≤ e.now)
    (h : ∀ t, verdict crypto settings e request ≠ .ok t) {scopeKey : String} {keys : Redis.Keys K}
    (hadmission : admission crypto settings e request w.keys = (.ok scopeKey, keys))
    {record : IdempotencyRecord K} (hrecord : w.record scopeKey e.now = some record) :
    ¬ AuthenticatedFirst crypto settings request e w := by
  intro hfirst
  obtain ⟨u, hrun⟩ := run_of_record hclock hadmission hrecord
  unfold cachedJsonResponse at hrun
  cases hbody : Json.loads record.responseBody with
  | none =>
      rw [hbody] at hrun
      obtain ⟨y, hy, hclient, -⟩ := (hfirst _ _ hrun).2 h
      obtain rfl := Except.error.inj hy
      exact hclient
  | some body =>
      rw [hbody] at hrun
      obtain ⟨t, ht⟩ := (hfirst _ _ hrun).1 _ rfl
      exact h t ht

/-- **A request is authenticated first exactly when** its signature verifies, or it is refused
before its record is looked up, or its key has no unexpired record and the lock is held or the
verifier rejects the signature (instead of failing on it). -/
theorem authenticated_first_iff (hclock : w.clock ≤ e.now) :
    AuthenticatedFirst crypto settings request e w ↔
      (∃ t, verdict crypto settings e request = .ok t) ∨
      (∃ x keys, admission crypto settings e request w.keys = (.error x, keys) ∧ IsClientError x) ∨
      ∃ scopeKey keys, admission crypto settings e request w.keys = (.ok scopeKey, keys) ∧
        w.record scopeKey e.now = none ∧
        (lockHeld e keys scopeKey = true ∨
          ∃ message, verdict crypto settings e request = .error (.rejected message)) := by
  by_cases hverdict : ∃ t, verdict crypto settings e request = .ok t
  · exact iff_of_true (fun x w' _ => ⟨fun _ _ => hverdict, fun hnot =>
      absurd hverdict (not_exists.2 hnot)⟩) (.inl hverdict)
  · have hnot : ∀ t, verdict crypto settings e request ≠ .ok t := not_exists.1 hverdict
    obtain ⟨y, hy⟩ := screening_of_not_verified w.keys hnot
    have hempty : ∀ scopeKey, w.withoutRows.record scopeKey e.now = none := fun _ => rfl
    constructor
    · intro hfirst
      right
      -- no unexpired record, so the request is refused for the reason of `screening`
      have hnone : ∀ scopeKey keys, admission crypto settings e request w.keys = (.ok scopeKey, keys) →
          w.record scopeKey e.now = none := by
        intro scopeKey keys hadmission
        by_contra hne
        obtain ⟨record, hrecord⟩ := Option.ne_none_iff_exists'.1 hne
        exact not_authenticated_of_record hclock hnot hadmission hrecord hfirst
      obtain ⟨w', hrun, -⟩ := run_of_refused hclock hnone hy
      obtain ⟨y', hy', hclient, -⟩ := (hfirst _ _ hrun).2 hnot
      obtain rfl := Except.error.inj hy'
      rcases (isClientError_iff hnot hy).1 hclient with hrefused | ⟨scopeKey, keys, hadmission, hwhy⟩
      · exact .inl hrefused
      · exact .inr ⟨scopeKey, keys, hadmission, hnone scopeKey keys hadmission, hwhy⟩
    · rintro (hok | hwhy)
      · exact absurd hok hverdict
      · intro x w' hrun
        have hnone : ∀ scopeKey keys, admission crypto settings e request w.keys =
            (.ok scopeKey, keys) → w.record scopeKey e.now = none := by
          rintro scopeKey keys hadmission
          rcases hwhy with ⟨x, keys', hrefused, -⟩ | ⟨scopeKey', keys', hadmission', hrecord, -⟩
          · simp [hadmission] at hrefused
          · obtain ⟨rfl, rfl⟩ : scopeKey = scopeKey' ∧ keys = keys' := by
              simpa [hadmission] using hadmission'
            exact hrecord
        have hclient : IsClientError y := (isClientError_iff hnot hy).2 (hwhy.imp_right
          fun ⟨scopeKey, keys, hadmission, _, hreason⟩ => ⟨scopeKey, keys, hadmission, hreason⟩)
        obtain ⟨u, hu, -⟩ := run_of_refused hclock hnone hy
        obtain ⟨v, hv, -⟩ := run_of_refused (w := w.withoutRows) hclock (fun key _ _ => hempty key) hy
        obtain ⟨rfl, rfl⟩ : x = .error y ∧ w' = u := by simpa [hu] using hrun.symm
        exact ⟨fun response h => by simp at h, fun _ => ⟨y, rfl, hclient, v, hv⟩⟩

end

/-- A delivery without a signature. -/
def forgedRequest : InboundRequest := { sampleRequest with signature := none }

/-- A forged delivery with a fresh key is rejected, as it should be. -/
theorem authenticated_first_forged :
    AuthenticatedFirst sampleCrypto sampleSettings forgedRequest (sampleEnv 1000) sampleWorld :=
  (authenticated_first_iff (by decide)).2 (.inr (.inr ⟨sampleScopeKey, _, rfl, rfl,
    .inr ⟨"Webhook signature header is required", rfl⟩⟩))

/-- After a signed delivery, a forged one with its key gets its response. -/
theorem cached_response_without_signature :
    ∃ response w, (inboundWebhook sampleCrypto sampleSettings sampleRequest).run interp
        (sampleEnv 1000) sampleWorld = some (.ok response, w) ∧
      ¬ AuthenticatedFirst sampleCrypto sampleSettings forgedRequest (sampleEnv 1000) w := by
  have hfirst : (((inboundWebhook sampleCrypto sampleSettings sampleRequest).run interp
      (sampleEnv 1000) sampleWorld).any fun r => r.1.isOk) = true := by decide +kernel
  have hsecond : (((inboundWebhook sampleCrypto sampleSettings sampleRequest).run interp
      (sampleEnv 1000) sampleWorld).all fun r =>
        ((inboundWebhook sampleCrypto sampleSettings forgedRequest).run interp
          (sampleEnv 1000) r.2).any fun r => r.1.isOk) = true := by decide +kernel
  obtain ⟨⟨x, w⟩, hrun, hx⟩ := (Option.any_eq_true _ _).1 hfirst
  rw [hrun, Option.all_some] at hsecond
  obtain ⟨⟨x', w'⟩, hrun', hx'⟩ := (Option.any_eq_true _ _).1 hsecond
  obtain ⟨response, rfl⟩ : ∃ response, x = .ok response := by
    cases x with
    | error y => simp [Except.isOk, Except.toBool] at hx
    | ok response => exact ⟨response, rfl⟩
  refine ⟨response, w, hrun, fun hauth => ?_⟩
  obtain ⟨response', rfl⟩ : ∃ response, x' = .ok response := by
    cases x' with
    | error y => simp [Except.isOk, Except.toBool] at hx'
    | ok response' => exact ⟨response', rfl⟩
  obtain ⟨t, ht⟩ := (hauth _ _ hrun').1 response' rfl
  have hrejected : verdict sampleCrypto sampleSettings (sampleEnv 1000) forgedRequest =
      .error (.rejected "Webhook signature header is required") := rfl
  rw [hrejected] at ht
  exact absurd ht (by simp)

end StarterBackend.Webhooks

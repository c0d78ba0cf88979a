/-
Inbound webhooks and cleanups running together, command by command.

Whatever happens in a run, every record that was ever stored names an event that was
persisted before it, for a request with the record's key; and an event is persisted only
by a request that verified some time before.  Both are shown for each program on its
own, against all that the others may do (`safe_program`).

Of the responses it is shown that those made from one record agree, in the runs in which
no request that has lost the race for its record finds the record of a duplicate there.
-/
import StarterBackend.Webhooks.Requests
import StarterBackend.Lib.Rely

namespace StarterBackend.Webhooks

open Lib App

/-! ### The processes -/

/-- What a process does: serve a request that arrives at some time, or clean up. -/
inductive WebhookCall (K : Type) where
  | inbound (arrivedAt : K) (request : InboundRequest)
  | cleanupEvents
  | cleanupRecords

section

variable {K : Type} [Field K] [LinearOrder K] [FloorRing K]

/-- The program of a process; a cleanup has no response. -/
def WebhookCall.program (crypto : Crypto) (settings : WebhookSettings) :
    WebhookCall K → WebhookProg K (Option (Response K))
  | .inbound _ request => do return some (← inboundWebhook crypto settings request)
  | .cleanupEvents => do
      let _ ← cleanupOldWebhookEvents settings
      return none
  | .cleanupRecords => do
      let _ ← cleanupExpiredIdempotencyRecords
      return none

/-- The processes that run, and the world that they run in. -/
abbrev Traffic (ι K : Type) := Pool ι (WebhookCall K) (WebhookProg K (Option (Response K))) (World K)

/-- One step of one process. -/
def Traffic.step {ι : Type} [DecidableEq ι] (crypto : Crypto) (settings : WebhookSettings)
    (s : Traffic ι K) (a : PoolAction ι (WebhookCall K) (Env K)) : Option (Traffic ι K) :=
  Pool.next interp (WebhookCall.program crypto settings) s a

end

/-! ### What the processes keep to -/

section

variable {K : Type}

/-- The event was persisted at some time. -/
def World.Persisted (w : World K) (payload : InboundPayload) : Prop :=
  ∃ row ∈ w.eventLog, row.isOf payload.provider payload.eventId = true

/-- The stored outcome of a request: it names a persisted event, one that is asked for under the
record's key. -/
def Outcome (Asked : String → InboundPayload → Prop) (w : World K) (record : IdempotencyRecord K) :
    Prop :=
  ∃ status payload, record.responseBody = (responseBody status payload).dumps ∧
    w.Persisted payload ∧ Asked record.scopeKey payload

/-- The invariant of the world. -/
structure Logged (Asked : String → InboundPayload → Prop) (w : World K) : Prop where
  event : ∀ row, w.events.row row.id = some row → row ∈ w.eventLog
  record : ∀ record, w.records.row record.id = some record → record ∈ w.recordLog
  lt_next : ∀ record ∈ w.recordLog, record.id < w.records.next
  unique : ∀ record ∈ w.recordLog, ∀ record' ∈ w.recordLog, record.id = record'.id →
    record = record'
  outcome : ∀ record ∈ w.recordLog, Outcome Asked w record

variable {Asked : String → InboundPayload → Prop} {w w' : World K} {payload : InboundPayload}

/-- A row of an event shows that it was persisted. -/
lemma Logged.persisted (h : Logged Asked w)
    (hevent : (w.event payload.provider payload.eventId).isSome = true) : w.Persisted payload := by
  obtain ⟨row, hrow⟩ := Option.isSome_iff_exists.1 hevent
  obtain ⟨hrow, hof⟩ := Table.mem_select.1 (List.mem_of_head? hrow)
  exact ⟨row, h.event row hrow, hof⟩

variable [LinearOrder K]

/-- Time goes on, and the logs grow. -/
structure Later (w w' : World K) : Prop where
  clock : w.clock ≤ w'.clock
  events : w.eventLog ⊆ w'.eventLog
  records : w.recordLog ⊆ w'.recordLog

/-- The protocol of the processes. -/
def protocol (Asked : String → InboundPayload → Prop) : Protocol (World K) where
  inv := Logged Asked
  rely := Later
  refl _ := ⟨le_rfl, fun _ => id, fun _ => id⟩
  trans h h' := ⟨h.clock.trans h'.clock, fun _ hx => h'.events (h.events hx),
    fun _ hx => h'.records (h.records hx)⟩

lemma World.Persisted.later (h : w.Persisted payload) (hw : Later w w') : w'.Persisted payload := by
  obtain ⟨row, hrow, hof⟩ := h
  exact ⟨row, hw.events hrow, hof⟩

lemma Outcome.later {record : IdempotencyRecord K} (h : Outcome Asked w record)
    (hw : Later w w') : Outcome Asked w' record := by
  obtain ⟨status, payload, hbody, hpersisted, hasked⟩ := h
  exact ⟨status, payload, hbody, hpersisted.later hw, hasked⟩

end

/-! ### Single commands -/

section

variable {K : Type} {Asked : String → InboundPayload → Prop} {w w' : World K}

/-- A world with the same tables and logs, or fewer rows. -/
lemma Logged.of_le (h : Logged Asked w)
    (hevents : ∀ k row, w'.events.row k = some row → w.events.row k = some row)
    (hrecords : ∀ k row, w'.records.row k = some row → w.records.row k = some row)
    (hnext : w'.records.next = w.records.next) (heventLog : w'.eventLog = w.eventLog)
    (hrecordLog : w'.recordLog = w.recordLog) : Logged Asked w' := by
  refine ⟨fun row hrow => ?_, fun record hrecord => ?_, fun record hrecord => ?_, ?_,
    fun record hrecord => ?_⟩
  · rw [heventLog]
    exact h.event row (hevents _ _ hrow)
  · rw [hrecordLog]
    exact h.record record (hrecords _ _ hrecord)
  · rw [hrecordLog] at hrecord
    rw [hnext]
    exact h.lt_next record hrecord
  · rw [hrecordLog]
    exact h.unique
  · rw [hrecordLog] at hrecord
    obtain ⟨status, payload, hbody, hpersisted, hasked⟩ := h.outcome record hrecord
    exact ⟨status, payload, hbody, by rwa [World.Persisted, heventLog], hasked⟩

/-- Keys and time are not part of the invariant. -/
lemma Logged.congr (h : Logged Asked w) (hevents : w'.events = w.events)
    (hrecords : w'.records = w.records) (heventLog : w'.eventLog = w.eventLog)
    (hrecordLog : w'.recordLog = w.recordLog) : Logged Asked w' :=
  h.of_le (fun _ _ hrow => by rwa [← hevents]) (fun _ _ hrow => by rwa [← hrecords])
    (by rw [hrecords]) heventLog hrecordLog

lemma Logged.insertEvent (h : Logged Asked w) {gap : ℕ} {provider eventId payloadHash : String}
    {receivedAt : K} :
    Logged Asked (w.insertEvent gap provider eventId payloadHash receivedAt) := by
  refine ⟨fun row hrow => ?_, h.record, h.lt_next, h.unique, fun record hrecord => ?_⟩
  · simp only [World.insertEvent, Table.row_insert] at hrow
    split_ifs at hrow
    · rw [← Option.some.inj hrow]
      exact List.mem_cons_self
    · exact List.mem_cons_of_mem _ (h.event row hrow)
  · obtain ⟨status, payload, hbody, ⟨row, hrow, hof⟩, hasked⟩ := h.outcome record hrecord
    exact ⟨status, payload, hbody, ⟨row, List.mem_cons_of_mem _ hrow, hof⟩, hasked⟩

/-- An outcome can be stored. -/
lemma Logged.insertRecord (h : Logged Asked w) {gap statusCode : ℕ} {scopeKey status : String}
    {payload : InboundPayload} {expiresAt : K} (hpersisted : w.Persisted payload)
    (hasked : Asked scopeKey payload) :
    Logged Asked (w.insertRecord gap scopeKey statusCode (responseBody status payload).dumps
      expiresAt) := by
  have hfresh : ∀ record ∈ w.recordLog, record.id ≠ w.records.freshId gap := by
    intro record hrecord heq
    have := h.lt_next record hrecord
    simp only [Table.freshId] at heq
    omega
  refine ⟨h.event, fun record hrow => ?_, ?_, ?_, ?_⟩
  · simp only [World.insertRecord, Table.row_insert] at hrow
    split_ifs at hrow
    · rw [← Option.some.inj hrow]
      exact List.mem_cons_self
    · exact List.mem_cons_of_mem _ (h.record record hrow)
  · intro record hrecord
    rcases List.mem_cons.1 hrecord with rfl | hold
    · show w.records.freshId gap < w.records.next + gap + 1
      simp only [Table.freshId]
      omega
    · have := h.lt_next record hold
      show record.id < w.records.next + gap + 1
      omega
  · intro record hrecord record' hrecord' hid
    rcases List.mem_cons.1 hrecord with rfl | hold <;> rcases List.mem_cons.1 hrecord' with rfl | hold'
    · rfl
    · exact absurd hid.symm (hfresh record' hold')
    · exact absurd hid (hfresh record hold)
    · exact h.unique record hold record' hold' hid
  · intro record hrecord
    rcases List.mem_cons.1 hrecord with rfl | hold
    · exact ⟨status, payload, rfl, hpersisted, hasked⟩
    · exact h.outcome record hold

variable [Field K] [LinearOrder K] {e : Env K}

/-- The commands that add no record. -/
def Command.storesNoRecord : Command K → Bool
  | .insertRecord _ _ _ _ => false
  | _ => true

/-- What a command that adds no record does to the tables and the logs. -/
lemma Logged.exec (h : Logged Asked w) {c : Command K} (hc : c.storesNoRecord = true) :
    Logged Asked (c.exec e w).2 ∧ w.eventLog ⊆ (c.exec e w).2.eventLog ∧
      (c.exec e w).2.recordLog = w.recordLog ∧ (c.exec e w).2.clock = w.clock := by
  cases c with
  | insertRecord scopeKey statusCode body expiresAt => simp [Command.storesNoRecord] at hc
  | insertEvent provider eventId payloadHash =>
      simp only [Command.exec]
      split_ifs
      · exact ⟨h, fun _ => id, rfl, rfl⟩
      · exact ⟨h.insertEvent, List.subset_cons_self .., rfl, rfl⟩
  | deleteEventsBefore cutoff =>
      exact ⟨h.of_le (fun _ _ hrow => (Option.filter_eq_some_iff.1 hrow).1) (fun _ _ => id) rfl rfl
        rfl, fun _ => id, rfl, rfl⟩
  | deleteRecordsBefore time =>
      exact ⟨h.of_le (fun _ _ => id) (fun _ _ hrow => (Option.filter_eq_some_iff.1 hrow).1) rfl rfl
        rfl, fun _ => id, rfl, rfl⟩
  | redisIncr key =>
      simp only [Command.exec, unlessFails]
      split
      · exact ⟨h, fun _ => id, rfl, rfl⟩
      · split_ifs
        · exact ⟨h, fun _ => id, rfl, rfl⟩
        · exact ⟨h.congr rfl rfl rfl rfl, fun _ => id, rfl, rfl⟩
  | redisExpire key ttl | redisSetNx key ttl | redisDelete key =>
      simp only [Command.exec, unlessFails]
      split_ifs
      · exact ⟨h, fun _ => id, rfl, rfl⟩
      · exact ⟨h.congr rfl rfl rfl rfl, fun _ => id, rfl, rfl⟩
  | _ => exact ⟨h, fun _ => id, rfl, rfl⟩

/-- Every command but the storing of a record keeps to the protocol. -/
lemma keeps_of_storesNoRecord {c : Command K} (hc : c.storesNoRecord = true) :
    (protocol Asked).Keeps interp c := by
  intro e w x w' hw hexec
  obtain ⟨hclock, -, rfl⟩ := interp_eq_some hexec
  obtain ⟨hlogged, hevents, hrecords, -⟩ := Logged.exec (e := e) hw hc
  exact ⟨hlogged.congr rfl rfl rfl rfl, hclock, hevents, hrecords ▸ fun _ => id⟩

end

/-! ### What is shown of the programs -/

section

variable {K : Type} [Field K] [LinearOrder K] [FloorRing K] (crypto : Crypto)
  (settings : WebhookSettings) (Asked : String → InboundPayload → Prop) (strict : Prop)
  (steps : WebhookCall K → Command K → Env K → Prop)

/-- What is left of the route when the response to a new event could not be stored and the record
of the key is read again. -/
def acceptedReread (scopeKey : String) (time : K) : WebhookProg K (Option (Response K)) :=
  (Prog.tryFinally (.call (.record scopeKey time) fun r => (orUnhandled r).bind acceptedResponse)
    (releaseIdempotencyLock scopeKey)).bind fun response => .ret (some response)

/-- A request asks for its event under its scope key. -/
def AskedBy : WebhookCall K → Prop
  | .inbound _ request => ∀ key payload, getIdempotencyKey request = some key →
      request.payload crypto = some payload → Asked (inboundScopeKey crypto key) payload
  | _ => True

/-- The record that is read instead of the one that could not be stored, if there is one, is not
that of a duplicate. -/
def RereadsAccepted (p : WebhookProg K (Option (Response K))) (w : World K) : Prop :=
  ∀ scopeKey time, p = acceptedReread scopeKey time →
    ∀ record, w.record scopeKey time = some record → record.statusCode = 200

/-- The steps that are considered. -/
structure Considered (q : WebhookCall K) (p : WebhookProg K (Option (Response K))) (e : Env K)
    (w : World K) : Prop where
  asked : AskedBy crypto Asked q
  steps : ∀ c k, p = .call c k → steps q c e
  strict : strict → RereadsAccepted p w

/-- The request has verified at a time that is not after `time`. -/
def Verified (q : WebhookCall K) (time : K) : Prop :=
  ∃ arrivedAt request e t, q = .inbound arrivedAt request ∧ steps q .now e ∧ e.now ≤ time ∧
    verdict crypto settings e request = .ok t

/-- The event is the one of the request. -/
def Names (q : WebhookCall K) (provider eventId : String) : Prop :=
  ∃ arrivedAt request payload, q = .inbound arrivedAt request ∧
    request.payload crypto = some payload ∧ payload.provider = provider ∧ payload.eventId = eventId

/-- An event is persisted for a request that names it and has verified, and events are removed by
cleanups only, after the retention time. -/
def GoodStep (q : WebhookCall K) (c : Command K) (e : Env K) : Prop :=
  match c with
  | .insertEvent provider eventId _ =>
      Verified crypto settings steps q e.now ∧ Names crypto q provider eventId
  | .deleteEventsBefore cutoff =>
      q = .cleanupEvents ∧ cutoff + ((settings.eventRetentionDays * 86400 : ℕ) : K) ≤ e.now
  | _ => True

/-- The response is made from a stored record of the request's key. -/
structure Faithful (request : InboundRequest) (response : Response K) (w : World K) : Prop where
  logged : response.record ∈ w.recordLog
  body : Json.loads response.record.responseBody = some response.body
  key : ∃ key, getIdempotencyKey request = some key ∧
    response.record.scopeKey = inboundScopeKey crypto key
  status : strict → response.status = response.record.statusCode

/-- What is shown of the result of a process. -/
def Outcomes (q : WebhookCall K) (a : Option (Response K)) (w : World K) : Prop :=
  ∀ arrivedAt request response, q = .inbound arrivedAt request → a = some response →
    Faithful crypto strict request response w

/-- The program is safe, with these good steps. -/
abbrev SafeFor {α : Type} (q : WebhookCall K) (G : WebhookProg K α → Env K → World K → Prop)
    (post : α → World K → Prop) (p : WebhookProg K α) (w : World K) : Prop :=
  (protocol Asked).Safe interp G (fun c e _ _ _ => GoodStep crypto settings steps q c e) post p w

end

/-! ### The parts of the route -/

section

variable {K : Type} [Field K] [LinearOrder K] [FloorRing K] {crypto : Crypto}
  {settings : WebhookSettings} {Asked : String → InboundPayload → Prop} {strict : Prop}
  {steps : WebhookCall K → Command K → Env K → Prop} {q : WebhookCall K} {w : World K}
  {α : Type} {G : WebhookProg K α → Env K → World K → Prop}

/-- The commands that are good in every state. -/
def Command.quiet : Command K → Bool
  | .insertRecord _ _ _ _ => false
  | .insertEvent _ _ _ => false
  | .deleteEventsBefore _ => false
  | _ => true

omit [LinearOrder K] [FloorRing K] [Field K] in
lemma Command.storesNoRecord_of_quiet {c : Command K} (hc : c.quiet = true) :
    c.storesNoRecord = true := by
  cases c <;> first | rfl | simp [Command.quiet] at hc

lemma goodStep_of_quiet {c : Command K} (hc : c.quiet = true) (e : Env K) :
    GoodStep crypto settings steps q c e := by
  cases c <;> trivial

/-- A program of quiet commands is safe. -/
lemma safe_of_quiet {p : WebhookProg K α} (hp : p.Every fun c _ => c.quiet = true) :
    SafeFor crypto settings Asked steps q G (fun _ _ => True) p w := by
  refine Protocol.safe_of_every (hp.imp fun c _ hc e s x t hs hexec => ?_)
  obtain ⟨hinv, hrely⟩ :=
    keeps_of_storesNoRecord (Command.storesNoRecord_of_quiet hc) e s x t hs hexec
  exact ⟨hinv, hrely, goodStep_of_quiet hc e⟩

/-- The rule for a quiet command. -/
lemma safe_quiet_call {c : Command K} {k : c.Reply → WebhookProg K α}
    {post : α → World K → Prop} (hc : c.quiet = true)
    (h : ∀ t e t', (protocol Asked).inv t → Later w t → G (.call c k) e t → t.clock ≤ e.now →
      t' = { (c.exec e t).2 with clock := e.now } → (protocol Asked).inv t' → Later w t' →
        SafeFor crypto settings Asked steps q G post (k (c.exec e t).1) t') :
    SafeFor crypto settings Asked steps q G post (.call c k) w := by
  refine Protocol.safe_call (keeps_of_storesNoRecord (Command.storesNoRecord_of_quiet hc))
    fun t e x t' ht hwt hG hexec ht' hwt' => ⟨goodStep_of_quiet hc e, fun r hr => ?_⟩
  obtain ⟨hclock, hx, heq⟩ := interp_eq_some hexec
  obtain rfl : (c.exec e t).1 = r := Except.ok.inj (hx.symm.trans hr)
  exact h t e t' ht hwt hG hclock heq ht' hwt'

omit [LinearOrder K] [FloorRing K] [Field K] in
lemma every_enforceRateLimitCounter (key : String) (limit windowSeconds : ℕ) :
    (enforceRateLimitCounter key limit windowSeconds : WebhookProg K Unit).Every
      fun c _ => c.quiet = true := by
  have hend : ∀ n : ℤ, Prog.Every (fun (c : Command K) _ => c.quiet = true)
      (if (limit : ℤ) < n then .raise (.http 429 "Too many requests") else .ret () :
        WebhookProg K Unit) := by
    intro n
    split_ifs <;> trivial
  unfold enforceRateLimitCounter
  refine ⟨rfl, fun r => ?_⟩
  rcases r with _ | n
  · trivial
  · simp only [Prog.getOrRaise, Prog.bind_def, Prog.ret_bind]
    by_cases hn : n = 1
    · rw [if_pos hn]
      refine ⟨rfl, fun r => ?_⟩
      rcases r with _ | u
      · trivial
      · exact hend n
    · rw [if_neg hn]
      exact hend n

omit [LinearOrder K] [FloorRing K] [Field K] in
lemma every_releaseIdempotencyLock (scopeKey : String) :
    (releaseIdempotencyLock scopeKey : WebhookProg K Unit).Every fun c _ => c.quiet = true := by
  refine ⟨rfl, fun r => ?_⟩
  rcases r with _ | u <;> trivial

omit [LinearOrder K] [FloorRing K] [Field K] in
lemma every_tryAcquireIdempotencyLock (scopeKey : String) :
    (tryAcquireIdempotencyLock settings scopeKey : WebhookProg K Bool).Every
      fun c _ => c.quiet = true := by
  refine ⟨rfl, fun r => ?_⟩
  rcases r with _ | u <;> trivial

/-- The record is stored under the scope key. -/
def StoredUnder (scopeKey : String) (record : IdempotencyRecord K) (w : World K) : Prop :=
  record ∈ w.recordLog ∧ record.scopeKey = scopeKey

omit [FloorRing K] [Field K] in
lemma StoredUnder.later {w' : World K} {scopeKey : String} {record : IdempotencyRecord K}
    (h : StoredUnder scopeKey record w) (hw : Later w w') : StoredUnder scopeKey record w' :=
  ⟨hw.records h.1, h.2⟩

omit [FloorRing K] [Field K] in
lemma storedUnder_of_record {scopeKey : String} {time : K} {record : IdempotencyRecord K}
    (hw : Logged Asked w) (h : w.record scopeKey time = some record) :
    StoredUnder scopeKey record w := by
  obtain ⟨hrow, hkey, -⟩ := World.mem_of_record h
  exact ⟨hw.record record hrow, hkey⟩

lemma safe_getCachedResponse {G : WebhookProg K (Option (IdempotencyRecord K)) → Env K → World K → Prop}
    (scopeKey : String) :
    SafeFor crypto settings Asked steps q G (fun r w => ∀ record ∈ r, StoredUnder scopeKey record w)
      (getCachedResponse scopeKey) w := by
  unfold getCachedResponse
  simp only [now, issue, Prog.cmd, Prog.bind_def, Prog.call_bind, Prog.ret_bind]
  refine safe_quiet_call rfl fun _ e _ _ _ _ _ _ _ _ => ?_
  refine safe_quiet_call rfl fun t e' t' ht _ _ _ heq _ _ => ?_
  refine Protocol.safe_ret fun u _ htu record hrecord => ?_
  refine StoredUnder.later (w := t') ?_ htu
  have hstored : StoredUnder scopeKey record t := storedUnder_of_record ht hrecord
  rw [heq]
  exact hstored

lemma safe_beginIdempotentRequest
    {G : WebhookProg K (Option (IdempotencyRecord K)) → Env K → World K → Prop}
    (hw : Logged Asked w) (scopeKey : String) :
    SafeFor crypto settings Asked steps q G (fun r w => ∀ record ∈ r, StoredUnder scopeKey record w)
      (beginIdempotentRequest settings scopeKey) w := by
  have hret : ∀ (record : IdempotencyRecord K) (t : World K), StoredUnder scopeKey record t →
      SafeFor crypto settings Asked steps q G
        (fun r w => ∀ record ∈ r, StoredUnder scopeKey record w) (.ret (some record)) t := by
    intro record t hrecord u _ htu
    rintro _ ⟨rfl⟩
    exact hrecord.later htu
  refine Protocol.Safe.bind ((safe_getCachedResponse scopeKey).imp fun r t ht hr => ?_) hw
  cases r with
  | some record => exact hret record t (hr record rfl)
  | none =>
      refine Protocol.Safe.bind ((safe_of_quiet (every_tryAcquireIdempotencyLock scopeKey)).imp
        fun b u hu _ => ?_) ht
      cases b with
      | true => exact Protocol.safe_ret fun _ _ _ => nofun
      | false =>
          refine Protocol.Safe.bind ((safe_getCachedResponse scopeKey).imp fun r v _ hr => ?_) hu
          cases r with
          | some record => exact hret record v (hr record rfl)
          | none => trivial

/-- The response made from a stored record is faithful to it. -/
lemma safe_cachedJsonResponse {G : WebhookProg K (Response K) → Env K → World K → Prop}
    {request : InboundRequest} {key : String} (hkey : getIdempotencyKey request = some key)
    {record : IdempotencyRecord K} (hrecord : StoredUnder (inboundScopeKey crypto key) record w) :
    SafeFor crypto settings Asked steps q G (Faithful crypto strict request)
      (cachedJsonResponse record) w := by
  unfold cachedJsonResponse
  cases hbody : Json.loads record.responseBody with
  | none => trivial
  | some body =>
      exact Protocol.safe_ret fun t _ hwt =>
        ⟨hwt.records hrecord.1, hbody, ⟨key, hkey, hrecord.2⟩, fun _ => rfl⟩

/-- The response to a new event is faithful to its record, up to the status. -/
lemma safe_acceptedResponse {G : WebhookProg K (Response K) → Env K → World K → Prop}
    {request : InboundRequest} {key : String} (hkey : getIdempotencyKey request = some key)
    {record : IdempotencyRecord K} (hrecord : StoredUnder (inboundScopeKey crypto key) record w)
    (hw : Logged Asked w) (hstatus : strict → record.statusCode = 200) :
    SafeFor crypto settings Asked steps q G (Faithful crypto strict request)
      (acceptedResponse record) w := by
  obtain ⟨status, payload, hbody, -⟩ := hw.outcome record hrecord.1
  have hloads : Json.loads record.responseBody = some (responseBody status payload) := by
    rw [hbody, Json.loads_dumps (wf_responseBody status payload)]
  unfold acceptedResponse
  rw [hloads, Option.bind_some, responseModel_responseBody]
  exact Protocol.safe_ret fun t _ hwt =>
    ⟨hwt.records hrecord.1, hloads, ⟨key, hkey, hrecord.2⟩, fun h => (hstatus h).symm⟩

/-- A response that is stored, or the record that is there already. -/
lemma safe_storeResponse {G : WebhookProg K (IdempotencyRecord K) → Env K → World K → Prop}
    {scopeKey status : String} {payload : InboundPayload} {statusCode : ℕ} (hpersisted : w.Persisted payload) (hasked : Asked scopeKey payload)
    (good : IdempotencyRecord K → Prop)
    (hstored : ∀ record, record.statusCode = statusCode → good record)
    (hreread : ∀ time e t record, G (.call (.record scopeKey time) orUnhandled) e t →
      t.record scopeKey time = some record → good record) :
    SafeFor crypto settings Asked steps q G
      (fun record w => StoredUnder scopeKey record w ∧ good record)
      (storeResponse settings scopeKey statusCode (responseBody status payload)) w := by
  unfold storeResponse existingRecord getCachedResponse
  simp only [now, issue, Prog.cmd, Prog.bind_def, Prog.call_bind, Prog.ret_bind]
  refine safe_quiet_call rfl fun _ e₀ t₀ _ _ _ _ _ ht₀ hwt₀ => ?_
  intro t e x t' ht hst _ hexec
  obtain ⟨hclock, rfl, heq⟩ := interp_eq_some hexec
  have hlater : Later w t := (protocol Asked).trans hwt₀ hst
  simp only [Command.exec] at heq ⊢
  split_ifs at heq ⊢
  · -- the scope key has a record already, which is read again
    have ht' : Logged Asked t' := heq ▸ ht.congr rfl rfl rfl rfl
    refine ⟨ht', ⟨by rw [heq]; exact hclock, by rw [heq]; exact fun _ => id,
      by rw [heq]; exact fun _ => id⟩, trivial, fun r hr => ?_⟩
    obtain rfl := Except.ok.inj hr
    refine safe_quiet_call rfl fun _ _ _ _ _ _ _ _ _ _ => ?_
    refine safe_quiet_call rfl fun u e₂ u' hu _ hG _ heq' _ _ => ?_
    refine Protocol.safe_getOrRaise fun record hrecord v _ huv => ?_
    have hread : u.record scopeKey _ = some record := hrecord
    refine ⟨StoredUnder.later (w := u') ?_ huv, hreread _ e₂ u record hG hread⟩
    have hunder : StoredUnder scopeKey record u := storedUnder_of_record hu hread
    rw [heq']
    exact hunder
  · -- the new record is the only one with its id
    have ht' : Logged Asked t' := by
      rw [heq]
      exact (ht.insertRecord (hpersisted.later hlater) hasked).congr rfl rfl rfl rfl
    refine ⟨ht', ⟨by rw [heq]; exact hclock, by rw [heq]; exact fun _ => id,
      by rw [heq]; exact List.subset_cons_self ..⟩, trivial, fun r hr => ?_⟩
    obtain rfl := Except.ok.inj hr
    refine safe_quiet_call rfl fun u e₂ u' hu htu _ _ heq' _ _ => ?_
    refine Protocol.safe_getOrRaise fun record hrecord v _ huv => ?_
    have hrow : u.records.row (t.records.freshId e.gap) = some record := hrecord
    have hlogged : record ∈ u.recordLog := hu.record record (Table.row_id hrow)
    have hnew : (⟨t.records.freshId e.gap, scopeKey, statusCode, (responseBody status payload).dumps,
        e₀.now + settings.idempotencyTtlSeconds⟩ : IdempotencyRecord K) ∈ u.recordLog := by
      refine htu.records ?_
      rw [heq]
      exact List.mem_cons_self
    obtain rfl := hu.unique _ hnew _ hlogged (u.records.id_of_row hrow).symm
    refine ⟨StoredUnder.later (w := u') ⟨?_, rfl⟩ huv, hstored _ rfl⟩
    rw [heq']
    exact hlogged

omit [FloorRing K] [Field K] in
lemma Verified.mono [Field K] [FloorRing K] {time time' : K}
    (h : Verified crypto settings steps q time) (hle : time ≤ time') :
    Verified crypto settings steps q time' := by
  obtain ⟨arrivedAt, request, e, t, hq, hsteps, hnow, hverdict⟩ := h
  exact ⟨arrivedAt, request, e, t, hq, hsteps, hnow.trans hle, hverdict⟩

/-- After the signature was checked, the request has verified. -/
lemma safe_verifySignature {G : WebhookProg K Unit → Env K → World K → Prop} {arrivedAt : K}
    {request : InboundRequest} (hq : q = .inbound arrivedAt request)
    (hG : ∀ c k e t, G (.call c k) e t → steps q c e) :
    SafeFor crypto settings Asked steps q G
      (fun _ w => Verified crypto settings steps q w.clock) (verifySignature crypto settings request)
      w := by
  unfold verifySignature
  simp only [now, issue, Prog.cmd, Prog.bind_def, Prog.call_bind, Prog.ret_bind]
  refine safe_quiet_call rfl fun t e t' _ _ hcall _ heq _ _ => ?_
  have hclock : t'.clock = e.now := by rw [heq]
  cases hverdict : verdict crypto settings e request with
  | error failure =>
      unfold verdict at hverdict
      simp only [Command.exec, hverdict]
      cases failure <;> trivial
  | ok time =>
      have hverdict' := hverdict
      unfold verdict at hverdict'
      simp only [Command.exec, hverdict']
      refine Protocol.safe_ret fun u _ htu => ?_
      exact ⟨arrivedAt, request, e, time, hq, hG _ _ _ _ hcall, hclock ▸ htu.clock, hverdict⟩

/-- After a request has persisted its event, or found it persisted, it is so. -/
lemma safe_persistWebhookEvent {G : WebhookProg K Bool → Env K → World K → Prop} {arrivedAt : K}
    {request : InboundRequest} {payload : InboundPayload} (hq : q = .inbound arrivedAt request)
    (hpayload : request.payload crypto = some payload)
    (hverified : Verified crypto settings steps q w.clock) :
    SafeFor crypto settings Asked steps q G (fun _ w => w.Persisted payload)
      (persistWebhookEvent crypto payload request.body) w := by
  unfold persistWebhookEvent
  simp only [issue, Prog.cmd, Prog.bind_def, Prog.call_bind, Prog.ret_bind]
  refine Protocol.safe_call (keeps_of_storesNoRecord rfl) fun t e x t' ht hwt _ hexec ht' _ => ?_
  obtain ⟨hclock, rfl, heq⟩ := interp_eq_some hexec
  refine ⟨⟨hverified.mono (hwt.clock.trans hclock), arrivedAt, request, payload, hq, hpayload, rfl,
    rfl⟩, fun r hr => ?_⟩
  simp only [Command.exec] at heq hr
  split_ifs at heq hr with hevent
  · obtain rfl := Except.ok.inj hr
    refine Protocol.safe_ret fun u _ htu => World.Persisted.later (w := t') ?_ htu
    have hpersisted := Logged.persisted ht hevent
    rw [heq]
    exact hpersisted
  · obtain rfl := Except.ok.inj hr
    have hpersisted : t'.Persisted payload := by
      rw [heq]
      exact ⟨_, List.mem_cons_self, by simp [WebhookEvent.isOf]⟩
    refine safe_quiet_call rfl fun v _ u _ _ _ _ _ _ htu => ?_
    cases hrow : v.events.row (t.events.freshId e.gap) with
    | none =>
        simp only [Command.exec, hrow]
        trivial
    | some row =>
        simp only [Command.exec, hrow]
        exact Protocol.safe_ret fun _ _ huz => (hpersisted.later htu).later huz

/-- The outcome of a request is stored, or the one of its key that is there is taken. -/
lemma safe_storeOutcome {G : WebhookProg K (Response K) → Env K → World K → Prop}
    {request : InboundRequest} {key : String} (hkey : getIdempotencyKey request = some key)
    {payload : InboundPayload} (hw : Logged Asked w) (hpersisted : w.Persisted payload)
    (hasked : Asked (inboundScopeKey crypto key) payload)
    (hG : strict → ∀ time e t record,
      G (.call (.record (inboundScopeKey crypto key) time) fun r =>
        (orUnhandled r).bind acceptedResponse) e t →
      t.record (inboundScopeKey crypto key) time = some record → record.statusCode = 200)
    (isNew : Bool) :
    SafeFor crypto settings Asked steps q G (Faithful crypto strict request)
      (storeOutcome settings (inboundScopeKey crypto key) payload isNew) w := by
  cases isNew with
  | false =>
      refine Protocol.Safe.bind ((safe_storeResponse hpersisted hasked (fun _ => True)
        (fun _ _ => trivial) fun _ _ _ _ _ _ => trivial).imp fun record t _ hrecord => ?_) hw
      exact safe_cachedJsonResponse hkey hrecord.1
  | true =>
      refine Protocol.Safe.bind ((safe_storeResponse hpersisted hasked
        (fun record => strict → record.statusCode = 200) (fun _ h _ => h)
        fun time e t record hread hrecord h => hG h time e t record hread hrecord).imp
          fun record t ht hrecord => ?_) hw
      exact safe_acceptedResponse hkey hrecord.1 ht hrecord.2

/-- The part of the route between the lock and its release. -/
lemma safe_processWebhook {G : WebhookProg K (Response K) → Env K → World K → Prop} {arrivedAt : K}
    {request : InboundRequest} (hq : q = .inbound arrivedAt request) {key : String}
    (hkey : getIdempotencyKey request = some key) (hw : Logged Asked w)
    (hasked : AskedBy crypto Asked q) (hsteps : ∀ c k e t, G (.call c k) e t → steps q c e)
    (hG : strict → ∀ time e t record,
      G (.call (.record (inboundScopeKey crypto key) time) fun r =>
        (orUnhandled r).bind acceptedResponse) e t →
      t.record (inboundScopeKey crypto key) time = some record → record.statusCode = 200) :
    SafeFor crypto settings Asked steps q G (Faithful crypto strict request)
      (processWebhook crypto settings request (inboundScopeKey crypto key)) w := by
  unfold processWebhook
  refine Protocol.Safe.bind ((safe_verifySignature hq fun c k e t h => hsteps _ _ e t h).imp
    fun _ t ht hverified => ?_) hw
  cases hpayload : request.payload crypto with
  | none => trivial
  | some payload =>
      have hlimit : ∀ G, SafeFor crypto settings Asked steps q G (fun _ _ => True)
          (enforceWebhookProviderRateLimit crypto settings payload.provider) t := by
        intro G
        unfold enforceWebhookProviderRateLimit
        cases providerKey crypto payload.provider with
        | none => exact Protocol.safe_ret fun _ _ _ => trivial
        | some limitKey => exact safe_of_quiet (every_enforceRateLimitCounter _ _ _)
      simp only [orUnhandled, Prog.getOrRaise, Prog.bind_def, Prog.ret_bind]
      refine Protocol.Safe.bind (((hlimit _).and_rely ((protocol Asked).refl t)).imp
        fun _ u hu htu => ?_) ht
      refine Protocol.Safe.bind ((safe_persistWebhookEvent hq hpayload
        (hverified.mono htu.2.clock)).imp fun isNew v hv hpersisted => ?_) hu
      subst hq
      exact safe_storeOutcome hkey hv hpersisted (hasked key payload hkey hpayload) hG isNew

/-- The route. -/
lemma safe_inboundWebhook {G : WebhookProg K (Response K) → Env K → World K → Prop} {arrivedAt : K}
    {request : InboundRequest} (hq : q = .inbound arrivedAt request) (hw : Logged Asked w)
    (hasked : AskedBy crypto Asked q) (hsteps : ∀ c k e t, G (.call c k) e t → steps q c e)
    (hG : strict → ∀ scopeKey time e t record,
      G (Prog.tryFinally (.call (.record scopeKey time) fun r =>
        (orUnhandled r).bind acceptedResponse) (releaseIdempotencyLock scopeKey)) e t →
      t.record scopeKey time = some record → record.statusCode = 200) :
    SafeFor crypto settings Asked steps q G (Faithful crypto strict request)
      (inboundWebhook crypto settings request) w := by
  unfold inboundWebhook
  cases hkey : getIdempotencyKey request with
  | none => trivial
  | some key =>
      simp only [Prog.getOrRaise, Prog.bind_def, Prog.ret_bind]
      refine Protocol.Safe.bind ((safe_of_quiet (every_enforceRateLimitCounter _ _ _)).imp
        fun _ t ht _ => ?_) hw
      split_ifs
      · trivial
      · unfold serveInbound
        refine Protocol.Safe.bind ((safe_beginIdempotentRequest ht _).imp fun r u hu hr => ?_) ht
        cases r with
        | some record => exact safe_cachedJsonResponse hkey (hr record rfl)
        | none =>
            refine Protocol.Safe.tryFinally
              (fun f v _ => safe_of_quiet (every_releaseIdempotencyLock _)) ?_ hu
            exact safe_processWebhook hq hkey hu hasked (fun c k e t h => hsteps _ _ e t h)
              fun h => hG h _

variable (q w) in
/-- **The programs of the processes are safe.** -/
theorem safe_program (hw : Logged Asked w) :
    SafeFor crypto settings Asked steps q (Considered crypto Asked strict steps q)
      (Outcomes crypto strict q) (q.program crypto settings) w := by
  cases q with
  | inbound arrivedAt request =>
      by_cases hasked : AskedBy crypto Asked (.inbound arrivedAt request)
      · refine Protocol.Safe.bind ((safe_inboundWebhook rfl hw hasked (fun c k e t h =>
          h.steps _ _ rfl) fun h scopeKey time e t record hG hrecord =>
            hG.strict h scopeKey time rfl record hrecord).imp fun response t ht hresponse => ?_) hw
        refine Protocol.safe_ret fun u _ htu => ?_
        rintro _ _ _ ⟨⟩ ⟨⟩
        exact ⟨htu.records hresponse.logged, hresponse.body, hresponse.key, hresponse.status⟩
      · -- the request is not considered, so none of its steps is
        have hnone : ∀ p e t, ¬ Considered crypto Asked strict steps (.inbound arrivedAt request) p e t :=
          fun p e t h => hasked h.asked
        simp only [WebhookCall.program, inboundWebhook]
        cases getIdempotencyKey request with
        | none => trivial
        | some key => exact fun t e x t' _ _ hG _ => absurd hG (hnone _ _ _)
  | cleanupEvents =>
      simp only [WebhookCall.program, cleanupOldWebhookEvents, now, issue, Prog.cmd, Prog.bind_def,
        Prog.call_bind, Prog.ret_bind]
      refine safe_quiet_call rfl fun t e t' _ _ _ _ heq _ _ => ?_
      refine Protocol.safe_call (keeps_of_storesNoRecord rfl) fun u e' x u' _ htu _ hexec _ _ => ?_
      refine ⟨?_, fun r _ => Protocol.safe_ret fun _ _ _ _ _ _ hq => by cases hq⟩
      have hclock : e.now ≤ u.clock := by
        have := htu.clock
        rwa [heq] at this
      refine ⟨rfl, ?_⟩
      show e.now - ((settings.eventRetentionDays * 86400 : ℕ) : K) + _ ≤ e'.now
      rw [sub_add_cancel]
      exact hclock.trans (interp_eq_some hexec).1
  | cleanupRecords =>
      simp only [WebhookCall.program, cleanupExpiredIdempotencyRecords, now, issue, Prog.cmd,
        Prog.bind_def, Prog.call_bind, Prog.ret_bind]
      refine safe_quiet_call rfl fun _ _ _ _ _ _ _ _ _ _ => ?_
      exact safe_quiet_call rfl fun _ _ _ _ _ _ _ _ _ _ => Protocol.safe_ret fun _ _ _ _ _ _ hq => by cases hq

end

/-! ### Runs -/

/-- A world before its first request: no rows, any keys and any time. -/
structure World.Initial {K : Type} (w : World K) : Prop where
  events : w.events = .empty
  records : w.records = .empty
  eventLog : w.eventLog = []
  recordLog : w.recordLog = []

lemma World.Initial.logged {K : Type} {w : World K} (h : w.Initial)
    (Asked : String → InboundPayload → Prop) : Logged Asked w := by
  refine ⟨fun row hrow => ?_, fun record hrow => ?_, ?_, ?_, ?_⟩
  · simp [h.events] at hrow
  · simp [h.records] at hrow
  all_goals simp [h.recordLog]

namespace Traffic

variable {K : Type} [Field K] [LinearOrder K] [FloorRing K] {ι : Type} [DecidableEq ι]
  {crypto : Crypto} {settings : WebhookSettings} {w₀ : World K}
  {as bs : List (PoolAction ι (WebhookCall K) (Env K))}
  {a : PoolAction ι (WebhookCall K) (Env K)} {s s' t : Traffic ι K}

/-- The processes of a run are sound, whatever is asked of their steps. -/
lemma sound (Asked : String → InboundPayload → Prop) (strict : Prop)
    (steps : WebhookCall K → Command K → Env K → Prop) (h₀ : w₀.Initial)
    (hG : Along (step crypto settings)
      (Protocol.Allows (Considered crypto Asked strict steps)) (Pool.initial w₀) as)
    (h : exec (step crypto settings) (Pool.initial w₀) as = some s) :
    (protocol Asked).Sound interp (Considered crypto Asked strict steps)
      (fun q c e _ _ _ => GoodStep crypto settings steps q c e) (Outcomes crypto strict) s :=
  Protocol.safe_run (fun q w hw => safe_program q w hw) (h₀.logged Asked) hG h

/-- Every row that a step logs is in the table after it. -/
lemma eventLog_step (hstep : step crypto settings s a = some s') :
    ∀ row ∈ s'.store.eventLog, row ∈ s.store.eventLog ∨ s'.store.events.row row.id = some row := by
  intro row hrow
  rcases Pool.next_cases hstep with ⟨i, q, rfl, hi, rfl⟩ |
    ⟨i, e, q, c, k, p', w, rfl, hi, rfl, hcmd⟩ | ⟨i, q, p, rfl, hi, rfl⟩
  · exact .inl hrow
  · have hexec : w = { (c.exec e s.store).2 with clock := e.now } := by
      rcases hcmd with ⟨x, hexec, -⟩ | ⟨r, hexec, -⟩
      · exact (interp_eq_some hexec).2.2
      · exact (interp_eq_some hexec).2.2
    subst hexec
    cases c with
    | insertEvent provider eventId payloadHash =>
        simp only [Command.exec] at hrow ⊢
        split_ifs at hrow ⊢
        · exact .inl hrow
        · rcases List.mem_cons.1 hrow with rfl | hold
          · right
            simp [World.insertEvent]
          · exact .inl hold
    | insertRecord scopeKey statusCode body expiresAt =>
        simp only [Command.exec] at hrow ⊢
        split_ifs at hrow ⊢ <;> exact .inl hrow
    | redisIncr key =>
        simp only [Command.exec, unlessFails] at hrow ⊢
        split at hrow
        · exact .inl hrow
        · split_ifs at hrow <;> exact .inl hrow
    | redisExpire key ttl | redisSetNx key ttl | redisDelete key =>
        simp only [Command.exec, unlessFails] at hrow
        split_ifs at hrow <;> exact .inl hrow
    | _ => exact .inl hrow
  · exact .inl hrow

/-- Every row of the log was in the table at some time of the run. -/
lemma persisted_before (h₀ : w₀.Initial)
    (h : exec (step crypto settings) (Pool.initial w₀) as = some t) {payload : InboundPayload}
    (hpersisted : t.store.Persisted payload) :
    ∃ bs u, bs <+: as ∧ exec (step crypto settings) (Pool.initial w₀) bs = some u ∧
      (u.store.event payload.provider payload.eventId).isSome = true := by
  obtain ⟨row, hrow, hof⟩ := hpersisted
  have hbefore := exec_induction (P := fun as (t : Traffic ι K) => ∀ row ∈ t.store.eventLog,
    ∃ bs u, bs <+: as ∧ exec (step crypto settings) (Pool.initial w₀) bs = some u ∧
      u.store.events.row row.id = some row) ?_ ?_ h row hrow
  · obtain ⟨bs, u, hbs, hu, hrow⟩ := hbefore
    refine ⟨bs, u, hbs, hu, ?_⟩
    have hmem : row ∈ u.store.events.select fun row => row.isOf payload.provider payload.eventId :=
      Table.mem_select.2 ⟨hrow, hof⟩
    rw [World.event, List.isSome_head?]
    cases hselect : u.store.events.select fun row => row.isOf payload.provider payload.eventId with
    | nil => simp [hselect] at hmem
    | cons r rs => simp
  · intro row hrow
    simp [Pool.initial, h₀.eventLog] at hrow
  · intro as t a u ht hlog hstep row hrow
    rcases eventLog_step hstep row hrow with hold | hnew
    · obtain ⟨bs, v, hbs, hv⟩ := hlog row hold
      exact ⟨bs, v, hbs.trans (List.prefix_append as [a]), hv⟩
    · exact ⟨as ++ [a], u, List.prefix_rfl, exec_append_eq_some.2 ⟨t, ht,
        exec_cons_eq_some.2 ⟨u, hstep, rfl⟩⟩, hnew⟩

/-- Some request of the run asks for the event under the scope key. -/
def AskedIn (crypto : Crypto) (as : List (PoolAction ι (WebhookCall K) (Env K))) (scopeKey : String)
    (payload : InboundPayload) : Prop :=
  ∃ i arrivedAt request key, .start i (.inbound arrivedAt request) ∈ as ∧
    getIdempotencyKey request = some key ∧ inboundScopeKey crypto key = scopeKey ∧
    request.payload crypto = some payload

/-- The requests of a run ask for what is asked in it. -/
lemma along_asked (h : exec (step crypto settings) (Pool.initial w₀) as = some t) :
    Along (step crypto settings) (Protocol.Allows (Considered crypto (AskedIn crypto as) False
      fun _ _ _ => True)) (Pool.initial w₀) as := by
  refine along_of_states (P := fun u : Traffic ι K => ∀ i q p, u.calls i = some (q, p) →
    AskedBy crypto (AskedIn crypto as) q) ?_ h fun bs u hbs hu i q p hi => ?_
  · rintro s a t hstep ht i e q p rfl hi
    refine ⟨?_, fun _ _ _ => trivial, nofun⟩
    rcases Pool.next_cases hstep with ⟨_, _, heq, -⟩ |
      ⟨i', e', q', c, k, p', w, heq, hi', rfl, -⟩ | ⟨_, _, _, heq, -⟩
    · simp at heq
    · obtain ⟨rfl, rfl⟩ := PoolAction.step.inj heq
      obtain ⟨rfl, -⟩ := Prod.mk.inj (Option.some.inj (hi.symm.trans hi'))
      exact ht i q p' (Function.update_self ..)
    · simp at heq
  · have hstart : .start i q ∈ as := hbs.subset (Pool.started_of_run hu hi)
    cases q with
    | inbound arrivedAt request =>
        exact fun key payload hkey hpayload =>
          ⟨i, arrivedAt, request, key, hstart, hkey, rfl, hpayload⟩
    | cleanupEvents => trivial
    | cleanupRecords => trivial

/-- **An answered event was persisted.**  The response of a request names an event whose row was
in the table at some time of the run, and some request of the run with the same scope key
asked for it. -/
theorem answered_event_persisted (h₀ : w₀.Initial)
    (h : exec (step crypto settings) (Pool.initial w₀) as = some t) {i : ι} {arrivedAt : K}
    {request : InboundRequest} {response : Response K}
    (hi : t.calls i = some (.inbound arrivedAt request, .ret (some response))) :
    ∃ status payload key, response.body = responseBody status payload ∧
      getIdempotencyKey request = some key ∧ AskedIn crypto as (inboundScopeKey crypto key) payload ∧
      ∃ bs u, bs <+: as ∧ exec (step crypto settings) (Pool.initial w₀) bs = some u ∧
        (u.store.event payload.provider payload.eventId).isSome = true := by
  have hsound := sound (AskedIn crypto as) False (fun _ _ _ => True) h₀ (along_asked h) h
  obtain ⟨hlogged, hbody, ⟨key, hkey, hscope⟩, -⟩ := hsound.post_of_ret hi arrivedAt request response rfl rfl
  obtain ⟨status, payload, hstored, hpersisted, hasked⟩ := hsound.inv.outcome _ hlogged
  rw [hstored, Json.loads_dumps (wf_responseBody status payload)] at hbody
  exact ⟨status, payload, key, (Option.some.inj hbody).symm, hkey, hscope ▸ hasked,
    persisted_before h₀ h hpersisted⟩

/-- **Responses from one record agree** with it and with each other, in a run in which no request
that could not store the response to its new event reads the record of a duplicate instead. -/
theorem responses_agree (h₀ : w₀.Initial)
    (hs : exec (step crypto settings) (Pool.initial w₀) as = some s)
    (ht : exec (step crypto settings) s bs = some t)
    (hG : Along (step crypto settings) (Protocol.Allows fun _ p _ w => RereadsAccepted p w)
      (Pool.initial w₀) (as ++ bs)) {i j : ι} {arrivedAt arrivedAt' : K}
    {request request' : InboundRequest} {response response' : Response K}
    (hi : s.calls i = some (.inbound arrivedAt request, .ret (some response)))
    (hj : t.calls j = some (.inbound arrivedAt' request', .ret (some response')))
    (hid : response.record.id = response'.record.id) :
    response.status = response'.status ∧ response.body = response'.body ∧
      response.status = response.record.statusCode ∧
      Json.loads response.record.responseBody = some response.body := by
  have hG' : Along (step crypto settings) (Protocol.Allows (Considered crypto (fun _ _ => True) True
      fun _ _ _ => True)) (Pool.initial w₀) (as ++ bs) := hG.imp fun u a hu i e q p ha hp =>
    ⟨by cases q <;> simp [AskedBy], fun _ _ _ => trivial, fun _ => hu i e q p ha hp⟩
  have hsound := sound (fun _ _ => True) True (fun _ _ _ => True) h₀
    (hG'.of_isPrefix (List.prefix_append as bs)) hs
  obtain ⟨hsound', hlater⟩ := hsound.rely_run (fun q w hw => safe_program q w hw) (hG'.append hs) ht
  have hfirst := hsound.post_of_ret hi arrivedAt request response rfl rfl
  have hsecond := hsound'.post_of_ret hj arrivedAt' request' response' rfl rfl
  have hrecord : response.record = response'.record :=
    hsound'.inv.unique _ (hlater.records hfirst.logged) _ hsecond.logged hid
  have hbody := hsecond.body
  rw [← hrecord, hfirst.body] at hbody
  refine ⟨?_, Option.some.inj hbody, hfirst.status trivial, hfirst.body⟩
  rw [hfirst.status trivial, hsecond.status trivial, hrecord]

/-- The request and the response of a process that has answered. -/
def answer (s : Traffic ι K) (i : ι) : Option (InboundRequest × Response K) :=
  match s.calls i with
  | some (.inbound _ request, .ret (some response)) => some (request, response)
  | _ => none

omit [Field K] [LinearOrder K] [FloorRing K] [DecidableEq ι] in
lemma calls_of_answer {i : ι} {request : InboundRequest} {response : Response K}
    (h : answer t i = some (request, response)) :
    ∃ arrivedAt, t.calls i = some (.inbound arrivedAt request, .ret (some response)) := by
  unfold answer at h
  split at h
  · rename_i arrivedAt _ _ hcalls
    obtain ⟨rfl, rfl⟩ := Prod.mk.inj (Option.some.inj h)
    exact ⟨arrivedAt, hcalls⟩
  · simp at h

/-- An event that had a row at some time of a run is in the log at its end. -/
lemma persisted_of_isPrefix (payload : InboundPayload) (h₀ : w₀.Initial) {u : Traffic ι K}
    (h : exec (step crypto settings) (Pool.initial w₀) as = some t) (hbs : bs <+: as)
    (hu : exec (step crypto settings) (Pool.initial w₀) bs = some u)
    (hevent : (u.store.event payload.provider payload.eventId).isSome = true) :
    t.store.Persisted payload := by
  obtain ⟨cs, rfl⟩ := hbs
  obtain ⟨u', hu', ht⟩ := exec_append_eq_some.1 h
  obtain rfl : u = u' := Option.some.inj (hu.symm.trans hu')
  have hall : ∀ (s : Traffic ι K) cs, Along (step crypto settings) (Protocol.Allows (Considered crypto
      (fun _ _ => True) False fun _ _ _ => True)) s cs := fun s cs =>
    along_of_forall fun _ _ _ _ q _ _ _ =>
      ⟨by cases q <;> simp [AskedBy], fun _ _ _ => trivial, nofun⟩
  have hsound := sound (fun _ _ => True) False (fun _ _ _ => True) h₀ (hall _ _) hu
  obtain ⟨-, hlater⟩ := hsound.rely_run (fun q w hw => safe_program q w hw) (hall _ _) ht
  exact (hsound.inv.persisted hevent).later hlater

/-- Two deliveries with one key, the second after the first is answered. -/
def sameKeyRun (request : InboundRequest) : List (PoolAction ℕ (WebhookCall ℚ) (Env ℚ)) :=
  [.start 0 (.inbound 1000 sampleRequest)] ++ List.replicate 14 (.step 0 (sampleEnv 1000)) ++
    ([.start 1 (.inbound 1000 request)] ++ List.replicate 3 (.step 1 (sampleEnv 1000)))

lemma initial_sampleWorld : sampleWorld.Initial := ⟨rfl, rfl, rfl, rfl⟩

/-- A delivery that is sent twice with one key is answered twice with its event. -/
theorem answered_event_persisted_sameKey :
    ∃ (t : Traffic ℕ ℚ) (arrivedAt : ℚ) (response : Response ℚ),
      exec (step sampleCrypto sampleSettings) (Pool.initial sampleWorld) (sameKeyRun sampleRequest) =
        some t ∧ t.calls 1 = some (.inbound arrivedAt sampleRequest, .ret (some response)) ∧
      response.status = 200 ∧
      ∃ status payload key, response.body = responseBody status payload ∧
        getIdempotencyKey sampleRequest = some key ∧
        AskedIn sampleCrypto (sameKeyRun sampleRequest) (inboundScopeKey sampleCrypto key) payload ∧
        ∃ bs u, bs <+: sameKeyRun sampleRequest ∧
          exec (step sampleCrypto sampleSettings) (Pool.initial sampleWorld) bs = some u ∧
          (u.store.event payload.provider payload.eventId).isSome = true := by
  have hrun : ((exec (step sampleCrypto sampleSettings) (Pool.initial sampleWorld)
      (sameKeyRun sampleRequest)).any fun t =>
        (answer t 1).any fun r => r.1 == sampleRequest && r.2.status == 200) = true := by
    decide +kernel
  obtain ⟨t, ht, hanswer⟩ := (Option.any_eq_true _ _).1 hrun
  obtain ⟨⟨request, response⟩, hanswer, hcheck⟩ := (Option.any_eq_true _ _).1 hanswer
  obtain ⟨rfl, hstatus⟩ : request = sampleRequest ∧ response.status = 200 := by simpa using hcheck
  obtain ⟨arrivedAt, hcalls⟩ := calls_of_answer hanswer
  exact ⟨t, arrivedAt, response, ht, hcalls, hstatus,
    answered_event_persisted initial_sampleWorld ht hcalls⟩

/-- A signed delivery of another event with a used key is answered with 200, and its event is
never persisted. -/
theorem other_event_never_persisted :
    ∃ (t : Traffic ℕ ℚ) (arrivedAt : ℚ) (response : Response ℚ) (payload : InboundPayload),
      exec (step sampleCrypto sampleSettings) (Pool.initial sampleWorld) (sameKeyRun otherRequest) =
        some t ∧ t.calls 1 = some (.inbound arrivedAt otherRequest, .ret (some response)) ∧
      response.status = 200 ∧ otherRequest.payload sampleCrypto = some payload ∧
      verdict sampleCrypto sampleSettings (sampleEnv 1000) otherRequest = .ok 1000 ∧
      ∀ bs u, bs <+: sameKeyRun otherRequest →
        exec (step sampleCrypto sampleSettings) (Pool.initial sampleWorld) bs = some u →
        u.store.event payload.provider payload.eventId = none := by
  have hrun : ((exec (step sampleCrypto sampleSettings) (Pool.initial sampleWorld)
      (sameKeyRun otherRequest)).any fun t =>
        ((answer t 1).any fun r => r.1 == otherRequest && r.2.status == 200) &&
          t.store.eventLog.all fun row => !row.isOf "payments" "evt_22") = true := by
    decide +kernel
  obtain ⟨t, ht, hcheck⟩ := (Option.any_eq_true _ _).1 hrun
  obtain ⟨hanswer, hlog⟩ := Bool.and_eq_true_iff.1 hcheck
  obtain ⟨⟨request, response⟩, hanswer, hcheck⟩ := (Option.any_eq_true _ _).1 hanswer
  obtain ⟨rfl, hstatus⟩ : request = otherRequest ∧ response.status = 200 := by simpa using hcheck
  obtain ⟨arrivedAt, hcalls⟩ := calls_of_answer hanswer
  refine ⟨t, arrivedAt, response, ⟨"payments", "evt_22"⟩, ht, hcalls, hstatus, by decide, by rfl,
    fun bs u hbs hu => ?_⟩
  by_contra hevent
  obtain ⟨row, hrow, hof⟩ := persisted_of_isPrefix ⟨"payments", "evt_22"⟩
    initial_sampleWorld ht hbs hu (Option.isSome_iff_ne_none.2 hevent)
  have hnot := List.all_eq_true.1 hlog row hrow
  simp [hof] at hnot

/-- All records in the table are of accepted events. -/
def recordsAccepted (s : Traffic ℕ ℚ) (_ : PoolAction ℕ (WebhookCall ℚ) (Env ℚ)) : Bool :=
  s.store.records.toList.all fun record => record.statusCode == 200

lemma allows_of_recordsAccepted {s : Traffic ℕ ℚ} {a : PoolAction ℕ (WebhookCall ℚ) (Env ℚ)}
    (h : recordsAccepted s a = true) : Protocol.Allows (fun _ p _ w => RereadsAccepted p w) s a := by
  intro i e q p _ _ scopeKey time _ record hrecord
  have hrow := (World.mem_of_record hrecord).1
  simpa using List.all_eq_true.1 h record (Table.mem_toList.2 hrow)

/-- A delivery and its repetition get one response. -/
theorem responses_agree_sameKey :
    ∃ (s t : Traffic ℕ ℚ) (as bs : List (PoolAction ℕ (WebhookCall ℚ) (Env ℚ)))
      (arrivedAt arrivedAt' : ℚ) (response response' : Response ℚ),
      exec (step sampleCrypto sampleSettings) (Pool.initial sampleWorld) as = some s ∧
      exec (step sampleCrypto sampleSettings) s bs = some t ∧
      s.calls 0 = some (.inbound arrivedAt sampleRequest, .ret (some response)) ∧
      t.calls 1 = some (.inbound arrivedAt' sampleRequest, .ret (some response')) ∧
      response.status = response'.status ∧ response.body = response'.body := by
  let first : List (PoolAction ℕ (WebhookCall ℚ) (Env ℚ)) :=
    [.start 0 (.inbound 1000 sampleRequest)] ++ List.replicate 14 (.step 0 (sampleEnv 1000))
  let second : List (PoolAction ℕ (WebhookCall ℚ) (Env ℚ)) :=
    [.start 1 (.inbound 1000 sampleRequest)] ++ List.replicate 3 (.step 1 (sampleEnv 1000))
  have hrun : ((exec (step sampleCrypto sampleSettings) (Pool.initial sampleWorld) first).any fun s =>
      (exec (step sampleCrypto sampleSettings) s second).any fun t =>
        (answer s 0).any fun r => (answer t 1).any fun r' =>
          r.1 == sampleRequest && r'.1 == sampleRequest && r.2.record.id == r'.2.record.id) = true := by
    decide +kernel
  have hG : checkAlong (step sampleCrypto sampleSettings) recordsAccepted (Pool.initial sampleWorld)
      (first ++ second) = true := by
    decide +kernel
  obtain ⟨s, hs, hrun⟩ := (Option.any_eq_true _ _).1 hrun
  obtain ⟨t, ht, hrun⟩ := (Option.any_eq_true _ _).1 hrun
  obtain ⟨⟨request, response⟩, hanswer, hrun⟩ := (Option.any_eq_true _ _).1 hrun
  obtain ⟨⟨request', response'⟩, hanswer', hcheck⟩ := (Option.any_eq_true _ _).1 hrun
  obtain ⟨⟨rfl, rfl⟩, hid⟩ : (request = sampleRequest ∧ request' = sampleRequest) ∧
      response.record.id = response'.record.id := by simpa using hcheck
  obtain ⟨arrivedAt, hi⟩ := calls_of_answer hanswer
  obtain ⟨arrivedAt', hj⟩ := calls_of_answer hanswer'
  obtain ⟨hstatus, hbody, -⟩ := responses_agree initial_sampleWorld hs ht
    (along_of_checkAlong (fun _ _ => allows_of_recordsAccepted) hG) hi hj hid
  exact ⟨s, t, first, second, arrivedAt, arrivedAt', response, response', hs, ht, hi, hj, hstatus,
    hbody⟩

/-- A delivery that outlives its lock: its repetition stores the duplicate first. -/
def racingRun : List (PoolAction ℕ (WebhookCall ℚ) (Env ℚ)) :=
  [.start 0 (.inbound 1000 sampleRequest), .start 1 (.inbound 1061 sampleRequest)] ++
    List.replicate 10 (.step 0 (sampleEnv 1000)) ++
    List.replicate 13 (.step 1 (sampleEnv 1061)) ++ List.replicate 5 (.step 0 (sampleEnv 1062))

/-- The two responses are made from one record and differ in their status. -/
theorem racing_responses_differ :
    ∃ (t : Traffic ℕ ℚ) (arrivedAt arrivedAt' : ℚ) (response response' : Response ℚ),
      exec (step sampleCrypto sampleSettings) (Pool.initial sampleWorld) racingRun = some t ∧
      t.calls 0 = some (.inbound arrivedAt sampleRequest, .ret (some response)) ∧
      t.calls 1 = some (.inbound arrivedAt' sampleRequest, .ret (some response')) ∧
      response.record.id = response'.record.id ∧ response.status = 200 ∧ response'.status = 409 := by
  have hrun : ((exec (step sampleCrypto sampleSettings) (Pool.initial sampleWorld) racingRun).any
      fun t => (answer t 0).any fun r => (answer t 1).any fun r' =>
        r.1 == sampleRequest && r'.1 == sampleRequest && r.2.record.id == r'.2.record.id &&
          r.2.status == 200 && r'.2.status == 409) = true := by
    decide +kernel
  obtain ⟨t, ht, hrun⟩ := (Option.any_eq_true _ _).1 hrun
  obtain ⟨⟨request, response⟩, hanswer, hrun⟩ := (Option.any_eq_true _ _).1 hrun
  obtain ⟨⟨request', response'⟩, hanswer', hcheck⟩ := (Option.any_eq_true _ _).1 hrun
  obtain ⟨⟨⟨⟨rfl, rfl⟩, hid⟩, hstatus⟩, hstatus'⟩ : (((request = sampleRequest ∧
      request' = sampleRequest) ∧ response.record.id = response'.record.id) ∧
      response.status = 200) ∧ response'.status = 409 := by simpa using hcheck
  obtain ⟨arrivedAt, hi⟩ := calls_of_answer hanswer
  obtain ⟨arrivedAt', hj⟩ := calls_of_answer hanswer'
  exact ⟨t, arrivedAt, arrivedAt', response, response', ht, hi, hj, hid, hstatus, hstatus'⟩

end Traffic

end StarterBackend.Webhooks

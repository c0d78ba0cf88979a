/-
The route of inbound webhooks, with its idempotency records, and the two cleanups of the
worker.

Every response of the route is made from an idempotency record, one that it finds or the
one that it stores; everything else is an exception.  The response carries that record
along.
-/
import StarterBackend.Webhooks.Commands
import StarterBackend.Webhooks.Signature
import Mathlib.Data.Rat.Floor

namespace StarterBackend.Webhooks

open Lib App

/-- The settings of the webhooks. -/
structure WebhookSettings where
  signatureSecret : String := ""
  signatureToleranceSeconds : ℕ := 300
  eventRetentionDays : ℕ := 90
  maxBodyBytes : ℕ := 1048576
  ingressRateLimitLimit : ℕ := 60
  ingressRateLimitWindowSeconds : ℕ := 60
  providerRateLimitLimit : ℕ := 120
  providerRateLimitWindowSeconds : ℕ := 60
  idempotencyTtlSeconds : ℕ := 86400
  idempotencyProcessingLockTtlSeconds : ℕ := 60

/-- A request to the route. -/
structure InboundRequest where
  clientIp : String
  idempotencyKey : Option String
  signature : Option String
  timestamp : Option String
  body : List UInt8
deriving DecidableEq

/-- `WebhookInboundRequest`, without what nothing reads. -/
structure InboundPayload where
  provider : String
  eventId : String
deriving DecidableEq

/-- `WebhookInboundRequest.model_validate_json`, of a document that is read. -/
def InboundPayload.ofJson : Json → Option InboundPayload
  | .obj fields =>
      match Json.lookup "provider" fields, Json.lookup "event_id" fields,
        Json.lookup "event_type" fields, Json.lookup "payload" fields with
      | some (.str provider), some (.str eventId), some (.str _), some (.obj _) =>
          some ⟨provider, eventId⟩
      | _, _, _, _ => none
  | _ => none

/-- What the body of a request says. -/
def InboundRequest.payload (crypto : Crypto) (request : InboundRequest) : Option InboundPayload :=
  (crypto.parseJson request.body).bind InboundPayload.ofJson

/-- A response, with the record that it is made from. -/
structure Response (K : Type) where
  status : ℕ
  body : Json
  record : IdempotencyRecord K

/-- The outcome of a webhook: `accepted` or `duplicate`. -/
def responseBody (status : String) (payload : InboundPayload) : Json :=
  .obj [("status", .str status), ("provider", .str payload.provider),
    ("event_id", .str payload.eventId)]

/-- `WebhookInboundResponse`, the response model of the route. -/
def responseModel : Json → Option Json
  | .obj fields =>
      match Json.lookup "status" fields, Json.lookup "provider" fields,
        Json.lookup "event_id" fields with
      | some (.str status), some (.str provider), some (.str eventId) =>
          some (responseBody status ⟨provider, eventId⟩)
      | _, _, _ => none
  | _ => none

section

variable {K : Type}

/-! ### Rate limits -/

/-- `enforce_rate_limit_counter`. -/
def enforceRateLimitCounter (key : String) (limit windowSeconds : ℕ) : WebhookProg K Unit := do
  let unavailable := AppError.serviceUnavailable "Service temporarily unavailable"
  let currentCount ← .getOrRaise unavailable (← issue (.redisIncr key))
  if currentCount = 1 then
    let _ ← .getOrRaise unavailable (← issue (.redisExpire key windowSeconds))
  if (limit : ℤ) < currentCount then .raise (.http 429 "Too many requests") else return ()

/-- The key of `webhook_ingress_rate_limit`. -/
def ingressKey (request : InboundRequest) : String :=
  "rate_limit:webhook_ingress:" ++ request.clientIp

/-- The key of `enforce_webhook_provider_rate_limit`, unless the name of the provider is blank. -/
def providerKey (crypto : Crypto) (provider : String) : Option String :=
  let normalizedProvider := crypto.lower (PyText.strip provider)
  if normalizedProvider = "" then none
  else some ("rate_limit:webhook_provider:" ++ normalizedProvider)

/-- `enforce_webhook_provider_rate_limit`. -/
def enforceWebhookProviderRateLimit (crypto : Crypto) (settings : WebhookSettings)
    (provider : String) : WebhookProg K Unit :=
  match providerKey crypto provider with
  | none => return ()
  | some key => enforceRateLimitCounter key settings.providerRateLimitLimit
      settings.providerRateLimitWindowSeconds

/-! ### Idempotency -/

/-- `get_idempotency_key`, and the check of `build_scope_key` after it. -/
def getIdempotencyKey (request : InboundRequest) : Option String :=
  (request.idempotencyKey.map PyText.strip).filter (· ≠ "")

/-- `build_scope_key` for a key that is not blank. -/
def buildScopeKey (crypto : Crypto) (scope idempotencyKey : String) : String :=
  scope ++ ":" ++ crypto.sha256 (scope ++ ":" ++ PyText.strip idempotencyKey).toUTF8.data.toList

/-- The scope key of the route. -/
def inboundScopeKey (crypto : Crypto) (idempotencyKey : String) : String :=
  buildScopeKey crypto "webhooks:inbound" idempotencyKey

/-- `idempotency_lock_key`. -/
def idempotencyLockKey (scopeKey : String) : String := "idempotency:processing:" ++ scopeKey

/-- `try_acquire_idempotency_lock`. -/
def tryAcquireIdempotencyLock (settings : WebhookSettings) (scopeKey : String) :
    WebhookProg K Bool := do
  orUnhandled (← issue (.redisSetNx (idempotencyLockKey scopeKey)
    settings.idempotencyProcessingLockTtlSeconds))

/-- `release_idempotency_lock`. -/
def releaseIdempotencyLock (scopeKey : String) : WebhookProg K Unit := do
  orUnhandled (← issue (.redisDelete (idempotencyLockKey scopeKey)))

/-- `get_cached_response`. -/
def getCachedResponse (scopeKey : String) : WebhookProg K (Option (IdempotencyRecord K)) := do
  issue (.record scopeKey (← now))

/-- `begin_idempotent_request`: a record, or nothing when the lock is taken. -/
def beginIdempotentRequest (settings : WebhookSettings) (scopeKey : String) :
    WebhookProg K (Option (IdempotencyRecord K)) := do
  match ← getCachedResponse scopeKey with
  | some record => return some record
  | none =>
      if ← tryAcquireIdempotencyLock settings scopeKey then return none
      else
        match ← getCachedResponse scopeKey with
        | some record => return some record
        | none => .raise (.conflict "Duplicate request is already in progress")

/-- `JSONResponse` of a record: `cached_json_response`. -/
def cachedJsonResponse (record : IdempotencyRecord K) : WebhookProg K (Response K) :=
  match Json.loads record.responseBody with
  | none => .raise .unhandled
  | some body => return ⟨record.statusCode, body, record⟩

/-- The response of the route to a new event: the parsed body of the stored record, through the
response model and with the status of the route. -/
def acceptedResponse (record : IdempotencyRecord K) : WebhookProg K (Response K) :=
  match (Json.loads record.responseBody).bind responseModel with
  | none => .raise .unhandled
  | some body => return ⟨200, body, record⟩

end

section

variable {K : Type} [Field K]

/-- The end of `store_response` after an `IntegrityError`. -/
def existingRecord (scopeKey : String) : WebhookProg K (IdempotencyRecord K) := do
  orUnhandled (← getCachedResponse scopeKey)

/-- `store_response`. -/
def storeResponse (settings : WebhookSettings) (scopeKey : String) (statusCode : ℕ) (body : Json) :
    WebhookProg K (IdempotencyRecord K) := do
  let expiresAt := (← now) + (settings.idempotencyTtlSeconds : K)
  match ← issue (.insertRecord scopeKey statusCode body.dumps expiresAt) with
  | none => existingRecord scopeKey
  | some id => orUnhandled (← issue (.refreshRecord id))

/-! ### The route -/

/-- `persist_webhook_event`: whether the event is new. -/
def persistWebhookEvent (crypto : Crypto) (payload : InboundPayload) (body : List UInt8) :
    WebhookProg K Bool := do
  match ← issue (.insertEvent payload.provider payload.eventId (crypto.sha256 body)) with
  | none => return false
  | some id =>
      let _ ← orUnhandled (← issue (.refreshEvent id))
      return true

/-- The response of the route to an event that is new or not, stored under the scope key. -/
def storeOutcome (settings : WebhookSettings) (scopeKey : String) (payload : InboundPayload) :
    Bool → WebhookProg K (Response K)
  | false => do
      let stored ← storeResponse settings scopeKey 409 (responseBody "duplicate" payload)
      cachedJsonResponse stored
  | true => do
      let stored ← storeResponse settings scopeKey 200 (responseBody "accepted" payload)
      acceptedResponse stored

variable [LinearOrder K] [FloorRing K]

/-- `verify_inbound_webhook_signature`, with the clock of the verifier truncated to seconds. -/
def verifySignature (crypto : Crypto) (settings : WebhookSettings) (request : InboundRequest) :
    WebhookProg K Unit := do
  let time ← now
  match verifyInboundWebhookSignature crypto request.body request.signature request.timestamp
      settings.signatureSecret settings.signatureToleranceSeconds ⌊time⌋ with
  | .ok _ => return ()
  | .error (.rejected message) => .raise (.unauthorized message)
  | .error .crashes => .raise .unhandled

/-- The part of the route between the lock and its release. -/
def processWebhook (crypto : Crypto) (settings : WebhookSettings) (request : InboundRequest)
    (scopeKey : String) : WebhookProg K (Response K) := do
  verifySignature crypto settings request
  let payload ← orUnhandled (request.payload crypto)
  enforceWebhookProviderRateLimit crypto settings payload.provider
  let isNew ← persistWebhookEvent crypto payload request.body
  storeOutcome settings scopeKey payload isNew

/-- The part of the route after the checks that come before its record. -/
def serveInbound (crypto : Crypto) (settings : WebhookSettings) (request : InboundRequest)
    (scopeKey : String) : WebhookProg K (Response K) := do
  match ← beginIdempotentRequest settings scopeKey with
  | some record => cachedJsonResponse record
  | none =>
      (processWebhook crypto settings request scopeKey).tryFinally
        (releaseIdempotencyLock scopeKey)

/-- `inbound_webhook`, with its dependencies. -/
def inboundWebhook (crypto : Crypto) (settings : WebhookSettings) (request : InboundRequest) :
    WebhookProg K (Response K) := do
  let idempotencyKey ← .getOrRaise (.badRequest "Idempotency-Key header is required")
    (getIdempotencyKey request)
  enforceRateLimitCounter (ingressKey request) settings.ingressRateLimitLimit
    settings.ingressRateLimitWindowSeconds
  if settings.maxBodyBytes < request.body.length then
    .raise (.http 413 "Webhook payload too large")
  else serveInbound crypto settings request (inboundScopeKey crypto idempotencyKey)

/-! ### Cleanups -/

omit [FloorRing K] [LinearOrder K] in
/-- `cleanup_old_webhook_events`. -/
def cleanupOldWebhookEvents (settings : WebhookSettings) : WebhookProg K ℕ := do
  let cutoff := (← now) - ((settings.eventRetentionDays * 86400 : ℕ) : K)
  issue (.deleteEventsBefore cutoff)

omit [Field K] [FloorRing K] [LinearOrder K] in
/-- `cleanup_expired_idempotency_records`. -/
def cleanupExpiredIdempotencyRecords : WebhookProg K ℕ := do
  issue (.deleteRecordsBefore (← now))

end

/-! ### Deliveries -/

/-- The body of a delivery of an event. -/
def sampleBody (eventId : String) : List UInt8 :=
  ("\x7b\"provider\":\"payments\",\"event_id\":\"" ++ eventId ++
    "\",\"event_type\":\"payment.succeeded\",\"payload\":\x7b\x7d\x7d").toUTF8.data.toList

/-- The digests and the HMACs at the time 1000 for two deliveries, of the events `evt_1` and
`evt_22`, with one key. -/
def sampleCrypto : Crypto where
  hmac _ message :=
    if message.length = 93 then "8025477bdbaa7135c7b6038e55640da3d39889864bfb3e65340fc7d49e5cac55"
    else "bf94374aa2a0c131daffd5d3c366fa9fbfb649c917eea50d78c12f60dee8ab9a"
  sha256 text :=
    if text.length = 88 then "22b1cb90fb651682a21d6c27b4b4d018d1c0400ef21bf9d5c2814b5ef87d1768"
    else if text.length = 89 then "ea446c2b4a2d09f17d044feb475f037483f2c121c4afbc8e39b4ff48a6c4deb8"
    else "de03b7089fab49010ba2ed390f20bc674f5b854a78366065811ce729c338869f"
  lower text := text
  parseJson body := some (.obj [("provider", .str "payments"),
    ("event_id", .str (if body.length = 88 then "evt_1" else "evt_22")),
    ("event_type", .str "payment.succeeded"), ("payload", .obj [])])

def sampleSettings : WebhookSettings := { signatureSecret := "0123456789abcdef0123456789abcdef" }

def sampleRequest : InboundRequest where
  clientIp := "203.0.113.7"
  idempotencyKey := some "key-1"
  signature := some "8025477bdbaa7135c7b6038e55640da3d39889864bfb3e65340fc7d49e5cac55"
  timestamp := some "1000"
  body := sampleBody "evt_1"

/-- A delivery of another event with the same key. -/
def otherRequest : InboundRequest :=
  { sampleRequest with
    signature := some "bf94374aa2a0c131daffd5d3c366fa9fbfb649c917eea50d78c12f60dee8ab9a"
    body := sampleBody "evt_22" }

def sampleScopeKey : String :=
  "webhooks:inbound:de03b7089fab49010ba2ed390f20bc674f5b854a78366065811ce729c338869f"

/-- The environment at a time when nothing fails. -/
def sampleEnv (time : ℚ) : Env ℚ := { now := time, databaseNow := time }

def sampleWorld : World ℚ := ⟨.empty, .empty, .empty, 0, [], []⟩

end StarterBackend.Webhooks

/-
The tables of the webhooks, and the commands that their code issues.

Every command is one atomic step: a Redis command, a query, or a transaction.  A query
sees what is committed when it is executed.  The logs keep every row that was ever
committed; no command reads them.
-/
import StarterBackend.App.Models
import StarterBackend.Lib.Program
import StarterBackend.Lib.RedisKeys
import Mathlib.Algebra.Order.Floor.Defs

namespace StarterBackend.Webhooks

open Lib App

/-! ### Rows -/

/-- `WebhookEvent`. -/
structure WebhookEvent (K : Type) where
  id : ℕ
  provider : String
  eventId : String
  payloadHash : String
  receivedAt : K

/-- `IdempotencyRecord`. -/
structure IdempotencyRecord (K : Type) where
  id : ℕ
  scopeKey : String
  statusCode : ℕ
  responseBody : String
  expiresAt : K

instance {K : Type} : Entity (WebhookEvent K) := ⟨WebhookEvent.id⟩

instance {K : Type} : Entity (IdempotencyRecord K) := ⟨IdempotencyRecord.id⟩

/-- The row is of the event. -/
def WebhookEvent.isOf {K : Type} (row : WebhookEvent K) (provider eventId : String) : Bool :=
  row.provider == provider && row.eventId == eventId

/-! ### Commands -/

inductive Command (K : Type) where
  | now
  | redisIncr (key : String)
  | redisExpire (key : String) (ttl : ℕ)
  /-- `SET key "1" NX EX ttl`. -/
  | redisSetNx (key : String) (ttl : ℕ)
  | redisDelete (key : String)
  /-- The unexpired record of a scope key. -/
  | record (scopeKey : String) (time : K)
  | insertEvent (provider eventId payloadHash : String)
  /-- `db.refresh(event)`. -/
  | refreshEvent (id : ℕ)
  | insertRecord (scopeKey : String) (statusCode : ℕ) (responseBody : String) (expiresAt : K)
  /-- `db.refresh(record)`. -/
  | refreshRecord (id : ℕ)
  | deleteEventsBefore (cutoff : K)
  | deleteRecordsBefore (time : K)

/-- The reply of a command.  A `RedisError` and an `IntegrityError` are `none`. -/
@[reducible] def Command.Reply {K : Type} : Command K → Type
  | .now => K
  | .redisIncr _ => Option ℤ
  | .redisExpire _ _ => Option Unit
  | .redisSetNx _ _ => Option Bool
  | .redisDelete _ => Option Unit
  | .record _ _ => Option (IdempotencyRecord K)
  | .insertEvent _ _ _ => Option ℕ
  | .refreshEvent _ => Option (WebhookEvent K)
  | .insertRecord _ _ _ _ => Option ℕ
  | .refreshRecord _ => Option (IdempotencyRecord K)
  | .deleteEventsBefore _ => ℕ
  | .deleteRecordsBefore _ => ℕ

/-- The programs of the webhooks. -/
abbrev WebhookProg (K : Type) (α : Type) := Prog (Command K) Command.Reply AppError α

/-! ### The world -/

/-- The tables, Redis, the time of the last step, and the rows that were ever committed. -/
structure World (K : Type) where
  events : Table (WebhookEvent K)
  records : Table (IdempotencyRecord K)
  keys : Redis.Keys K
  clock : K
  eventLog : List (WebhookEvent K)
  recordLog : List (IdempotencyRecord K)

/-- What the environment chooses at a step. -/
structure Env (K : Type) where
  now : K
  /-- `now()` of the database, the start of the transaction. -/
  databaseNow : K
  lingers : Bool := false
  redisFails : Bool := false
  gap : ℕ := 0

section Exec

variable {K : Type} [Field K] [LinearOrder K]

namespace World

/-- The row of an event. -/
def event (w : World K) (provider eventId : String) : Option (WebhookEvent K) :=
  (w.events.select fun row => row.isOf provider eventId).head?

/-- The row of a scope key, expired or not. -/
def anyRecord (w : World K) (scopeKey : String) : Option (IdempotencyRecord K) :=
  (w.records.select fun row => row.scopeKey == scopeKey).head?

/-- The row of a scope key that is not expired at a time. -/
def record (w : World K) (scopeKey : String) (time : K) : Option (IdempotencyRecord K) :=
  (w.records.select fun row => row.scopeKey == scopeKey && decide (time < row.expiresAt)).head?

/-- The world with a new event. -/
def insertEvent (w : World K) (gap : ℕ) (provider eventId payloadHash : String) (receivedAt : K) :
    World K :=
  { w with
    events := w.events.insert gap (fun id => ⟨id, provider, eventId, payloadHash, receivedAt⟩)
      fun _ => rfl
    eventLog := ⟨w.events.freshId gap, provider, eventId, payloadHash, receivedAt⟩ :: w.eventLog }

/-- The world with a new record. -/
def insertRecord (w : World K) (gap : ℕ) (scopeKey : String) (statusCode : ℕ)
    (responseBody : String) (expiresAt : K) : World K :=
  { w with
    records := w.records.insert gap (fun id => ⟨id, scopeKey, statusCode, responseBody, expiresAt⟩)
      fun _ => rfl
    recordLog := ⟨w.records.freshId gap, scopeKey, statusCode, responseBody, expiresAt⟩ ::
      w.recordLog }

end World

/-- A call of Redis that fails, or returns `x` and leaves the keys `keys`. -/
def unlessFails {α : Type} (e : Env K) (w : World K) (x : α) (keys : Redis.Keys K) :
    Option α × World K :=
  if e.redisFails then (none, w) else (some x, { w with keys })

/-- What a command does. -/
def Command.exec (e : Env K) (w : World K) : (c : Command K) → c.Reply × World K
  | .now => (e.now, w)
  | .redisIncr key =>
      match w.keys.incr e.now e.lingers key with
      | none => (none, w)
      | some (n, keys) => unlessFails e w n keys
  | .redisExpire key ttl => unlessFails e w () (w.keys.expire e.now e.lingers key ttl)
  | .redisSetNx key ttl =>
      let r := w.keys.setNxEx e.now e.lingers key "1" ttl
      unlessFails e w r.1 r.2
  | .redisDelete key => unlessFails e w () (w.keys.delete key)
  | .record scopeKey time => (w.record scopeKey time, w)
  | .insertEvent provider eventId payloadHash =>
      if (w.event provider eventId).isSome then (none, w)
      else (some (w.events.freshId e.gap),
        w.insertEvent e.gap provider eventId payloadHash e.databaseNow)
  | .refreshEvent id => (w.events.row id, w)
  | .insertRecord scopeKey statusCode responseBody expiresAt =>
      if (w.anyRecord scopeKey).isSome then (none, w)
      else (some (w.records.freshId e.gap),
        w.insertRecord e.gap scopeKey statusCode responseBody expiresAt)
  | .refreshRecord id => (w.records.row id, w)
  | .deleteEventsBefore cutoff =>
      ((w.events.select fun row => decide (row.receivedAt < cutoff)).length,
        { w with events := w.events.restrict fun row => decide (¬ row.receivedAt < cutoff) })
  | .deleteRecordsBefore time =>
      ((w.records.select fun row => decide (row.expiresAt < time)).length,
        { w with records := w.records.restrict fun row => decide (¬ row.expiresAt < time) })

/-- A command is executed at a time that is not before the clock. -/
def interp : Prog.Interp (Command K) Command.Reply AppError (World K) (Env K) := fun c e w =>
  if w.clock ≤ e.now then some (.ok (c.exec e w).1, { (c.exec e w).2 with clock := e.now })
  else none

/-- **Inversion of a step**: the time, the reply, and the world after it. -/
lemma interp_eq_some {c : Command K} {e : Env K} {w w' : World K} {x : Except AppError c.Reply}
    (h : interp c e w = some (x, w')) :
    w.clock ≤ e.now ∧ x = .ok (c.exec e w).1 ∧ w' = { (c.exec e w).2 with clock := e.now } := by
  unfold interp at h
  split_ifs at h with hclock
  obtain ⟨rfl, rfl⟩ := Prod.mk.inj (Option.some.inj h)
  exact ⟨hclock, rfl, rfl⟩

end Exec

/-! ### Issuing commands -/

variable {K : Type}

def issue (c : Command K) : WebhookProg K c.Reply := .cmd c

def now : WebhookProg K K := issue .now

/-- The value of a reply, or the exception that nothing handles. -/
def orUnhandled {α : Type} (r : Option α) : WebhookProg K α := .getOrRaise .unhandled r

end StarterBackend.Webhooks

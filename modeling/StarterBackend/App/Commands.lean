/-
The commands that the application issues, and what they do to its world.

A function of the application is a program over these commands: queries and transactions
of the database, Redis commands, calls of the object storage, and everything that comes
from outside (the clock, fresh ids, the hash of a password, the verdict of the scanner).
One command is one atomic step.  What fails, and what the code can catch, is part of the
reply: a transaction that violates a constraint, a `RedisError`, an error of the storage.
A flush shows whether its statements can be executed; others see their rows after the
commit only, so it leaves the database as it is, and the commit executes them again.

`revokeRefreshToken` reads the clock and sends its Redis command in one step.
-/
import StarterBackend.App.Database
import StarterBackend.Lib.Program
import Mathlib.Algebra.Order.Floor.Defs

namespace StarterBackend.App

open Lib

/-- An object of the storage. -/
structure StoredObject where
  body : List UInt8
  contentType : String
deriving DecidableEq

/-- How a call of the storage fails: with a `ClientError`, that the object does not exist or any
other, or with a `BotoCoreError`. -/
inductive StorageError where
  | notFound
  | clientError
  | botoCoreError
deriving DecidableEq

/-- The jobs that the application submits to the queue. -/
inductive QueuedJob where
  | sendPasswordResetEmail (userId : ℕ)
  | verifyPresignedUpload (fileId : ℕ)
deriving DecidableEq

/-! ### Commands -/

inductive Command (K : Type) where
  /-- `datetime.now(timezone.utc)`. -/
  | now
  | uuid7
  /-- `hash_password`, which draws a salt. -/
  | hashPassword (password : String)
  /-- `generate_password_reset_token`. -/
  | generatePasswordResetToken
  /-- `decode_token`, which compares the expiry with the clock. -/
  | decodeToken (token : String)
  | query (q : Query)
  /-- `db.flush()`: the statements are executed in a transaction that is not committed yet. -/
  | flush (statements : List (Statement K))
  | commit (statements : List (Statement K))
  /-- `revoke_refresh_token`. -/
  | revokeRefreshToken (jti : String) (expiresAt : ℤ) (requireNew : Bool)
  | redisExists (key : String)
  | redisGet (key : String)
  | redisSet (key value : String) (ttl : ℕ)
  | redisIncr (key : String)
  | enqueueJob (job : QueuedJob)
  | sendPasswordResetEmail (email token : String)
  | headBucket
  | headObject (key : String)
  | getObject (key : String)
  | putObject (key : String) (object : StoredObject)
  | deleteObject (key : String)
  | scan (body : List UInt8) (filename : String)

/-- The reply of a command; `none` is a failure of the database, of Redis or of the mail server. -/
@[reducible] def Command.Reply {K : Type} : Command K → Type
  | .now => K
  | .uuid7 => String
  | .hashPassword _ => String
  | .generatePasswordResetToken => String
  | .decodeToken _ => Option Claims
  | .query q => q.Reply K
  | .flush _ => Option Unit
  | .commit _ => Option (Option ℕ)
  | .revokeRefreshToken _ _ _ => Option Bool
  | .redisExists _ => Option Bool
  | .redisGet _ => Option (Option String)
  | .redisSet _ _ _ => Option Unit
  | .redisIncr _ => Option ℤ
  | .enqueueJob _ => Option Unit
  | .sendPasswordResetEmail _ _ => Option Unit
  | .headBucket => Except StorageError Unit
  | .headObject _ => Except StorageError (ℕ × String)
  | .getObject _ => Except StorageError (List UInt8)
  | .putObject _ _ => Except StorageError Unit
  | .deleteObject _ => Except StorageError Unit
  | .scan _ _ => Exchange

/-- The programs of the application. -/
abbrev AppProg (K : Type) (α : Type) := Prog (Command K) Command.Reply AppError α

/-! ### The world -/

/-- What the application acts on.  The clock shows the time of the last step. -/
structure World (K : Type) where
  db : Database K
  keys : Redis.Keys K
  objects : String → Option StoredObject
  clock : K
  /-- How often `uuid7` has been called. -/
  uuids : ℕ
  /-- The jobs that were submitted. -/
  jobs : List QueuedJob

/-- What the environment chooses at a step. -/
structure Env (K : Type) where
  now : K
  /-- The clock of the database. -/
  databaseNow : K
  /-- How long after its expiry the decoder still accepts a token. -/
  leeway : ℕ := 0
  /-- A key of Redis is still there after its deadline. -/
  lingers : Bool := false
  redisFails : Bool := false
  storageError : Option StorageError := none
  emailFails : Bool := false
  /-- The values that a sequence of the database skips. -/
  gap : ℕ := 0
  /-- The hash of a password, or a new reset token. -/
  secret : String := ""
  /-- The service that scans for malware. -/
  scanner : List UInt8 → String → Exchange := fun _ _ => .unreachable

section Exec

variable {K : Type} [Field K] [LinearOrder K] [FloorRing K]

/-- `int(datetime.now(timezone.utc).timestamp())`, for a time after the epoch. -/
def timestamp (now : K) : ℤ := ⌊now⌋

/-- The key that marks a refresh token as revoked. -/
def revokedKey (jti : String) : String := "revoked_refresh_token:" ++ jti

/-- `jwt.decode`: the claims of a token that is signed and not expired. -/
def decodeToken (platform : Platform) (leeway : ℕ) (now : K) (token : String) : Option Claims :=
  (platform.decode token).filter fun claims =>
    claims.exp.all fun exp => decide (timestamp now ≤ exp + leeway)

/-- `revoke_refresh_token`: whether it succeeded, and the keys after it. -/
def revokeRefreshToken (keys : Redis.Keys K) (now : K) (lingers : Bool) (jti : String)
    (expiresAt : ℤ) (requireNew : Bool) : Bool × Redis.Keys K :=
  let ttlSeconds := expiresAt - timestamp now
  if ttlSeconds ≤ 0 then (!requireNew, keys)
  else if requireNew then keys.setNxEx now lingers (revokedKey jti) "1" ttlSeconds
  else (true, keys.setEx now (revokedKey jti) "1" ttlSeconds)

section Revoke

variable {keys : Redis.Keys K} {now : K} {lingers : Bool} {jti : String} {exp : ℤ}

lemma revokeRefreshToken_of_le (h : exp ≤ timestamp now) (requireNew : Bool) :
    revokeRefreshToken keys now lingers jti exp requireNew = (!requireNew, keys) := by
  unfold revokeRefreshToken
  exact if_pos (by omega)

lemma revokeRefreshToken_new (h : timestamp now < exp) :
    revokeRefreshToken keys now lingers jti exp true =
      keys.setNxEx now lingers (revokedKey jti) "1" (exp - timestamp now) := by
  unfold revokeRefreshToken
  exact (if_neg (by omega)).trans (if_pos rfl)

lemma revokeRefreshToken_again (h : timestamp now < exp) :
    revokeRefreshToken keys now lingers jti exp false =
      (true, keys.setEx now (revokedKey jti) "1" (exp - timestamp now)) := by
  unfold revokeRefreshToken
  exact (if_neg (by omega)).trans (if_neg Bool.false_ne_true)

/-- A revocation that does not require the token to be new succeeds. -/
lemma revokeRefreshToken_again_fst :
    (revokeRefreshToken keys now lingers jti exp false).1 = true := by
  rcases le_or_gt exp (timestamp now) with hexp | hexp
  · rw [revokeRefreshToken_of_le hexp]
    rfl
  · rw [revokeRefreshToken_again hexp]

end Revoke

/-- A call that fails, or returns `x` and leads to the next world. -/
def unlessFails {α : Type} (fails : Bool) (w : World K) (x : α) (w' : World K) :
    Option α × World K :=
  if fails then (none, w) else (some x, w')

/-- A call of the storage that fails, or reads the object of a key. -/
def readObject {α : Type} (e : Env K) (w : World K) (key : String) (read : StoredObject → α) :
    Except StorageError α × World K :=
  match e.storageError, w.objects key with
  | some error, _ => (.error error, w)
  | none, none => (.error .notFound, w)
  | none, some object => (.ok (read object), w)

/-- A call of the storage that fails, or leaves these objects. -/
def writeObjects (e : Env K) (w : World K) (objects : String → Option StoredObject) :
    Except StorageError Unit × World K :=
  match e.storageError with
  | some error => (.error error, w)
  | none => (.ok (), { w with objects })

/-- What a command does. -/
def Command.exec (platform : Platform) (collation : Collation) (e : Env K) (w : World K) :
    (c : Command K) → c.Reply × World K
  | .now => (e.now, w)
  | .uuid7 => (platform.uuid7 w.uuids, { w with uuids := w.uuids + 1 })
  | .hashPassword _ => (e.secret, w)
  | .generatePasswordResetToken => (e.secret, w)
  | .decodeToken token => (App.decodeToken platform e.leeway e.now token, w)
  | .query q => (q.eval collation w.db, w)
  | .flush statements =>
      ((transaction e.gap e.databaseNow statements none w.db).map fun _ => (), w)
  | .commit statements =>
      match transaction e.gap e.databaseNow statements none w.db with
      | none => (none, w)
      | some (id, db) => (some id, { w with db })
  | .revokeRefreshToken jti expiresAt requireNew =>
      let r := App.revokeRefreshToken w.keys e.now e.lingers jti expiresAt requireNew
      unlessFails e.redisFails w r.1 { w with keys := r.2 }
  | .redisExists key => unlessFails e.redisFails w (w.keys.contains e.now e.lingers key) w
  | .redisGet key => unlessFails e.redisFails w (w.keys.get e.now e.lingers key) w
  | .redisSet key value ttl =>
      unlessFails e.redisFails w () { w with keys := w.keys.setEx e.now key value ttl }
  | .redisIncr key =>
      match w.keys.incr e.now e.lingers key with
      | none => (none, w)
      | some (n, keys) => unlessFails e.redisFails w n { w with keys }
  | .enqueueJob job => unlessFails e.redisFails w () { w with jobs := job :: w.jobs }
  | .sendPasswordResetEmail _ _ => unlessFails e.emailFails w () w
  | .headBucket => writeObjects e w w.objects
  | .headObject key => readObject e w key fun object => (object.body.length, object.contentType)
  | .getObject key => readObject e w key StoredObject.body
  | .putObject key object => writeObjects e w (Function.update w.objects key (some object))
  | .deleteObject key => writeObjects e w (Function.update w.objects key none)
  | .scan body filename => (e.scanner body filename, w)

/-- The commands that set keys of Redis. -/
def Command.setsKeys : Command K → Bool
  | .revokeRefreshToken _ _ _ => true
  | .redisSet _ _ _ => true
  | .redisIncr _ => true
  | _ => false

/-- The other commands leave the keys alone. -/
lemma Command.keys_exec {platform : Platform} {collation : Collation} {e : Env K} {w : World K}
    {c : Command K} (hc : c.setsKeys = false) : (c.exec platform collation e w).2.keys = w.keys := by
  cases c with
  | revokeRefreshToken jti exp requireNew => simp [setsKeys] at hc
  | redisSet key value ttl => simp [setsKeys] at hc
  | redisIncr key => simp [setsKeys] at hc
  | _ =>
      simp only [exec, unlessFails, readObject, writeObjects] <;>
        first
          | rfl
          | split <;> rfl

/-- Only a transaction changes the database. -/
lemma Command.db_exec {platform : Platform} {collation : Collation} {e : Env K} {w : World K}
    {c : Command K} (hc : ∀ statements, c ≠ .commit statements) :
    (c.exec platform collation e w).2.db = w.db := by
  cases c with
  | commit statements => exact absurd rfl (hc statements)
  | redisIncr key =>
      simp only [exec, unlessFails]
      split
      · rfl
      · split <;> rfl
  | _ =>
      simp only [exec, unlessFails, readObject, writeObjects] <;>
        first
          | rfl
          | split <;> rfl

section Commit

variable {platform : Platform} {collation : Collation} {e : Env K} {w : World K}
  {statements : List (Statement K)}

lemma Command.exec_commit_of_none
    (h : transaction e.gap e.databaseNow statements none w.db = none) :
    (Command.commit statements).exec platform collation e w = (none, w) := by
  simp [exec, h]

lemma Command.exec_commit_of_some {id : Option ℕ} {db : Database K}
    (h : transaction e.gap e.databaseNow statements none w.db = some (id, db)) :
    (Command.commit statements).exec platform collation e w = (some id, { w with db }) := by
  simp [exec, h]

variable (platform collation e w) in
/-- **What a command does to the database**: nothing, or a transaction. -/
lemma Command.db_cases (c : Command K) :
    (c.exec platform collation e w).2.db = w.db ∨ ∃ statements id, c = .commit statements ∧
      transaction e.gap e.databaseNow statements none w.db =
        some (id, (c.exec platform collation e w).2.db) := by
  by_cases hc : ∃ statements, c = .commit statements
  · obtain ⟨statements, rfl⟩ := hc
    rcases h : transaction e.gap e.databaseNow statements none w.db with _ | ⟨id, db⟩
    · exact .inl (by rw [exec_commit_of_none h])
    · exact .inr ⟨statements, id, rfl, by rw [exec_commit_of_some h]; exact h⟩
  · exact .inl (db_exec fun statements heq => hc ⟨statements, heq⟩)

end Commit

/-- A command is executed at a time that is not before the clock. -/
def interp (platform : Platform) (collation : Collation) :
    Prog.Interp (Command K) Command.Reply AppError (World K) (Env K) := fun c e w =>
  if w.clock ≤ e.now then
    some (.ok (c.exec platform collation e w).1,
      { (c.exec platform collation e w).2 with clock := e.now })
  else none

/-- **Inversion of a step**: the time, the reply, and the world after it. -/
lemma interp_eq_some {platform : Platform} {collation : Collation} {c : Command K} {e : Env K}
    {w w' : World K} {x : Except AppError c.Reply}
    (h : interp platform collation c e w = some (x, w')) :
    w.clock ≤ e.now ∧ x = .ok (c.exec platform collation e w).1 ∧
      w' = { (c.exec platform collation e w).2 with clock := e.now } := by
  unfold interp at h
  split_ifs at h with hclock
  obtain ⟨rfl, rfl⟩ := Prod.mk.inj (Option.some.inj h)
  exact ⟨hclock, rfl, rfl⟩

/-- No command raises an exception of its own. -/
lemma interp_ok {platform : Platform} {collation : Collation} (c : Command K) (e : Env K)
    (w : World K) (x : Except AppError c.Reply) (w' : World K)
    (h : interp platform collation c e w = some (x, w')) : ∃ r, x = .ok r :=
  ⟨_, (interp_eq_some h).2.1⟩

end Exec

/-! ### Issuing commands -/

variable {K : Type}

def issue (c : Command K) : AppProg K c.Reply := .cmd c

/-- The run of one command. -/
lemma run_issue [Field K] [LinearOrder K] [FloorRing K] {platform : Platform}
    {collation : Collation} {e : Env K} {w : World K} (c : Command K) (h : w.clock ≤ e.now) :
    (issue c).run (interp platform collation) e w =
      some (.ok (c.exec platform collation e w).1,
        { (c.exec platform collation e w).2 with clock := e.now }) := by
  simp [issue, Prog.cmd, Prog.run, interp, h]

lemma run_issue_eq_some [Field K] [LinearOrder K] [FloorRing K] {platform : Platform}
    {collation : Collation} {e : Env K} {w w' : World K} {c : Command K} {r : c.Reply}
    (h : (issue c).run (interp platform collation) e w = some (.ok r, w')) :
    w.clock ≤ e.now ∧ r = (c.exec platform collation e w).1 ∧
      w' = { (c.exec platform collation e w).2 with clock := e.now } := by
  by_cases hclock : w.clock ≤ e.now
  · rw [run_issue c hclock, Option.some.injEq, Prod.mk.injEq, Except.ok.injEq] at h
    exact ⟨hclock, h.1.symm, h.2.symm⟩
  · simp [issue, Prog.cmd, Prog.run, interp, hclock] at h

def now : AppProg K K := issue .now

def uuid7 : AppProg K String := issue .uuid7

def hashPassword (password : String) : AppProg K String := issue (.hashPassword password)

def query (q : Query) : AppProg K (q.Reply K) := issue (.query q)

/-- The value of a reply, or the exception that nothing handles. -/
def orUnhandled {α : Type} (r : Option α) : AppProg K α := .getOrRaise .unhandled r

/-- `db.commit()`, where an `IntegrityError` is caught. -/
def tryCommit (statements : List (Statement K)) : AppProg K (Option (Option ℕ)) :=
  issue (.commit statements)

/-- `db.commit()`, and the key that its last `INSERT` took. -/
def commit (statements : List (Statement K)) : AppProg K (Option ℕ) :=
  (tryCommit statements).bind orUnhandled

lemma run_commit [Field K] [LinearOrder K] [FloorRing K] {platform : Platform}
    {collation : Collation} {e : Env K} {w : World K} {statements : List (Statement K)}
    {id : Option ℕ} {db : Database K} (h : w.clock ≤ e.now)
    (hexec : transaction e.gap e.databaseNow statements none w.db = some (id, db)) :
    (commit statements).run (interp platform collation) e w =
      some (.ok id, { w with db, clock := e.now }) := by
  rw [commit, tryCommit, Prog.run_bind (run_issue _ h), Command.exec_commit_of_some hexec]
  rfl

lemma run_commit_eq_some [Field K] [LinearOrder K] [FloorRing K] {platform : Platform}
    {collation : Collation} {e : Env K} {w w' : World K} {statements : List (Statement K)}
    {id : Option ℕ} (h : (commit statements).run (interp platform collation) e w =
      some (.ok id, w')) :
    w.clock ≤ e.now ∧ ∃ db, transaction e.gap e.databaseNow statements none w.db = some (id, db) ∧
      w' = { w with db, clock := e.now } := by
  obtain ⟨reply, w₁, hissue, hget⟩ := Prog.run_bind_eq_some.1 h
  obtain ⟨hclock, rfl, rfl⟩ := run_issue_eq_some hissue
  rcases hexec : transaction e.gap e.databaseNow statements none w.db with _ | ⟨id', db⟩
  · rw [Command.exec_commit_of_none hexec] at hget
    simp [orUnhandled, Prog.getOrRaise] at hget
  · rw [Command.exec_commit_of_some hexec] at hget
    obtain ⟨rfl, rfl⟩ : id' = id ∧ _ = w' := by simpa [orUnhandled, Prog.getOrRaise] using hget
    exact ⟨hclock, db, rfl, rfl⟩

/-- `db.refresh(user)`. -/
def refreshUser (userId : ℕ) : AppProg K User :=
  (query (.user userId)).bind orUnhandled

end StarterBackend.App

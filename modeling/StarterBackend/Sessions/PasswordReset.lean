/-
Reset tokens are used once, where calls do not overtake each other.

Any number of calls of `confirm_password_reset` run at the same time, each command of them
as one step.  A call reads that its token is unused, stores the new password with one
commit, and marks all tokens of the user as used with another one.  Two calls that have
both read an unused token both succeed.

Where a call stores a password only while its token is unused, and while no other call
has stored one for the same user without having marked the tokens, one call succeeds at
most, and its password stays.
-/
import StarterBackend.App.Auth
import StarterBackend.Lib.Phases

namespace StarterBackend.Sessions

open Lib App

/-- `PasswordResetConfirm`. -/
structure PasswordResetConfirm where
  token : String
  newPassword : String
deriving DecidableEq

/-! ### The phases of a call -/

/-- Where a call of `confirm_password_reset` stands. -/
inductive ResetPhase (K : Type) where
  | looking
  | found (resetToken : PasswordResetToken K)
  /-- The token is good, and its user is looked up. -/
  | finding (resetToken : PasswordResetToken K) (usedAt : K)
  | hashing (user : User) (usedAt : K)
  | storing (user : User) (hashedPassword : String) (usedAt : K)
  /-- The password is stored. -/
  | refreshing (userId : ℕ) (usedAt : K)
  | invalidating (user : User) (usedAt : K)
  | marking (user : User) (usedAt : K)
  /-- The tokens of the user are used. -/
  | marked (userId : ℕ)
  | auditing (user : User)
  | succeeded
  | failed (x : AppError)

namespace ResetPhase

variable {K : Type}

/-- What follows the second commit. -/
def afterMark (userId : ℕ) : AppProg K String := do
  let user ← refreshUser userId
  createAuditLog user.tenantId none .passwordResetConfirmed (some user.id)
  return "Password has been reset."

/-- What follows the first commit. -/
def afterStore (userId : ℕ) (usedAt : K) : AppProg K String := do
  let user ← refreshUser userId
  invalidateUsersListCache user.tenantId
  let _ ← commit [.useResetTokens user.id usedAt]
  afterMark user.id

/-- What follows when the token is good. -/
def afterToken (q : PasswordResetConfirm) (resetToken : PasswordResetToken K) (usedAt : K) : AppProg K String := do
  match ← query (.user resetToken.userId) with
  | none => .raise invalidResetToken
  | some user =>
      if !user.isActive then .raise invalidResetToken
      else resetPassword user q.newPassword usedAt

/-- The rest of the program. -/
def program [LinearOrder K] (platform : Platform) (q : PasswordResetConfirm) :
    ResetPhase K → AppProg K String
  | .looking => confirmPasswordReset platform q.token q.newPassword
  | .found resetToken => do
      let time ← now
      if resetToken.usedAt.isSome then .raise invalidResetToken
      else if resetToken.expiresAt < time then .raise invalidResetToken
      else afterToken q resetToken time
  | .finding resetToken usedAt => afterToken q resetToken usedAt
  | .hashing user usedAt => resetPassword user q.newPassword usedAt
  | .storing user hashedPassword usedAt => do
      let _ ← commit (flushUser user (confirmPasswordResetChanges user hashedPassword))
      afterStore user.id usedAt
  | .refreshing userId usedAt => afterStore userId usedAt
  | .invalidating user usedAt => do
      invalidateUsersListCache user.tenantId
      let _ ← commit [.useResetTokens user.id usedAt]
      afterMark user.id
  | .marking user usedAt => do
      let _ ← commit [.useResetTokens user.id usedAt]
      afterMark user.id
  | .marked userId => afterMark userId
  | .auditing user => do
      createAuditLog user.tenantId none .passwordResetConfirmed (some user.id)
      return "Password has been reset."
  | .succeeded => .ret "Password has been reset."
  | .failed x => .raise x

/-- The user of the token, once the call knows it. -/
def userId? : ResetPhase K → Option ℕ
  | .found resetToken | .finding resetToken _ => some resetToken.userId
  | .refreshing userId _ | .marked userId => some userId
  | .hashing user _ | .storing user _ _ | .invalidating user _ | .marking user _
  | .auditing user => some user.id
  | .looking | .succeeded | .failed _ => none

/-- The call has stored its password, and has not marked the tokens. -/
def Storing : ResetPhase K → Prop
  | .refreshing _ _ | .invalidating _ _ | .marking _ _ => True
  | _ => False

/-- The call has marked the tokens. -/
def Marked : ResetPhase K → Prop
  | .marked _ | .auditing _ | .succeeded => True
  | _ => False

end ResetPhase

/-! ### One command of a call -/

section Move

variable {K : Type}

/-- The row of a reset token. -/
def resetToken? (platform : Platform) (db : Database K) (token : String) :
    Option (PasswordResetToken K) :=
  (db.passwordResetTokens.select fun t => t.tokenHash == platform.hashPasswordResetToken token).head?

/-- The user of a reset token. -/
def tokenUser? (platform : Platform) (db : Database K) (token : String) : Option ℕ :=
  (resetToken? platform db token).map (·.userId)

/-- All reset tokens of the user are used. -/
def Spent (u : ℕ) (db : Database K) : Prop :=
  ∀ n resetToken, db.passwordResetTokens.row n = some resetToken → resetToken.userId = u →
    resetToken.usedAt.isSome = true

/-- What one command does to the phase of its call and to the database. -/
inductive ResetPhase.Move (platform : Platform) (q : PasswordResetConfirm) (e : Env K) :
    ResetPhase K → Database K → ResetPhase K → Database K → Prop
  | find {db resetToken} (h : resetToken? platform db q.token = some resetToken) :
      Move platform q e .looking db (.found resetToken) db
  | hash {db user usedAt} : Move platform q e (.hashing user usedAt) db
      (.storing user e.secret usedAt) db
  | store {db db' user updated hashedPassword usedAt}
      (hhash : updated.hashedPassword = hashedPassword)
      (hrow : ∀ k, db'.users.row k = if k = user.id then some updated else db.users.row k)
      (htokens : db'.passwordResetTokens = db.passwordResetTokens) :
      Move platform q e (.storing user hashedPassword usedAt) db (.refreshing user.id usedAt) db'
  | mark {db db' user usedAt} (husers : db'.users = db.users) (hspent : Spent user.id db')
      (hkeeps : ∀ u, Spent u db → Spent u db')
      (htokens : ∀ token, tokenUser? platform db' token = tokenUser? platform db token) :
      Move platform q e (.marking user usedAt) db (.marked user.id) db'
  /-- The users and the tokens stay, and the call goes on or fails. -/
  | quiet {ph ph' db db'} (husers : db'.users = db.users)
      (htokens : db'.passwordResetTokens = db.passwordResetTokens)
      (huser : ∀ u, ph'.userId? = some u → ph.userId? = some u)
      (hstoring : ph'.Storing → ph.Storing) (hmarked : ph'.Marked → ph.Marked)
      (hhash : ∀ user h t, ph' ≠ .storing user h t) (hruns : ph ≠ .succeeded) :
      Move platform q e ph db ph' db'

lemma tokenUser?_congr {platform : Platform} {db db' : Database K}
    (h : db'.passwordResetTokens = db.passwordResetTokens) (token : String) :
    tokenUser? platform db' token = tokenUser? platform db token := by
  rw [tokenUser?, resetToken?, h]
  rfl

lemma Spent.congr {db db' : Database K} {u : ℕ} (h : Spent u db)
    (heq : db'.passwordResetTokens = db.passwordResetTokens) : Spent u db' := by
  unfold Spent
  rw [heq]
  exact h

section UseResetTokens

variable {platform : Platform} {db : Database K} {userId : ℕ} {usedAt : K}

/-- What `Statement.useResetTokens` does to a token. -/
def markUsed (userId : ℕ) (usedAt : K) (token : PasswordResetToken K) : PasswordResetToken K :=
  if token.userId = userId ∧ token.usedAt = none then { token with usedAt := some usedAt } else token

lemma id_markUsed (token : PasswordResetToken K) :
    Entity.id (markUsed userId usedAt token) = Entity.id token := by
  unfold markUsed
  split <;> rfl

lemma userId_markUsed (token : PasswordResetToken K) :
    (markUsed userId usedAt token).userId = token.userId := by
  unfold markUsed
  split <;> rfl

lemma tokenHash_markUsed (token : PasswordResetToken K) :
    (markUsed userId usedAt token).tokenHash = token.tokenHash := by
  unfold markUsed
  split <;> rfl

/-- The database after the unused tokens of a user were marked. -/
abbrev useResetTokens (db : Database K) (userId : ℕ) (usedAt : K) : Database K :=
  { db with passwordResetTokens :=
      db.passwordResetTokens.modify (markUsed userId usedAt) id_markUsed }

lemma spent_useResetTokens : Spent userId (useResetTokens db userId usedAt) := by
  intro n token htoken huser
  obtain ⟨row, hrow, rfl⟩ := Option.map_eq_some_iff.1 htoken
  rw [userId_markUsed] at huser
  unfold markUsed
  rcases hused : row.usedAt with _ | time
  · rw [if_pos ⟨huser, rfl⟩]
    rfl
  · rw [if_neg (by simp), hused]
    rfl

lemma Spent.useResetTokens {u : ℕ} (h : Spent u db) : Spent u (useResetTokens db userId usedAt) := by
  intro n token htoken huser
  obtain ⟨row, hrow, rfl⟩ := Option.map_eq_some_iff.1 htoken
  rw [userId_markUsed] at huser
  have hused := h n row hrow huser
  unfold markUsed
  split
  · rfl
  · exact hused

lemma tokenUser?_useResetTokens (token : String) :
    tokenUser? platform (useResetTokens db userId usedAt) token = tokenUser? platform db token := by
  have hselect : ((db.passwordResetTokens.modify (markUsed userId usedAt) id_markUsed).select
      fun t => t.tokenHash == platform.hashPasswordResetToken token) =
        (db.passwordResetTokens.select fun t =>
          t.tokenHash == platform.hashPasswordResetToken token).map (markUsed userId usedAt) :=
    Table.select_modify fun row => by rw [tokenHash_markUsed]
  unfold tokenUser? resetToken?
  rw [hselect, List.head?_map, Option.map_map]
  congr 1
  funext row
  exact userId_markUsed row

end UseResetTokens

variable [Field K] [LinearOrder K] [FloorRing K] {platform : Platform} {collation : Collation}
  {q : PasswordResetConfirm} {e : Env K} {w t : World K}

/-- **Every command of a call is a move of its phase.** -/
theorem ResetPhase.move_of_interp {ph : ResetPhase K} {c : Command K}
    {k : c.Reply → AppProg K String} (hp : ph.program platform q = .call c k)
    {x : Except AppError c.Reply} (h : interp platform collation c e w = some (x, t)) :
    ∃ ph', ph'.program platform q = Prog.resume k x ∧ Move platform q e ph w.db ph' t.db := by
  obtain ⟨-, rfl, rfl⟩ := interp_eq_some h
  cases ph with
  | looking =>
      cases hp
      rcases hfind : resetToken? platform w.db q.token with _ | resetToken
      · have hreply : (Command.exec platform collation e w
          (.query (.resetToken (platform.hashPasswordResetToken q.token)))).1 = none := hfind
        refine ⟨.failed invalidResetToken, ?_, .quiet rfl rfl nofun nofun nofun nofun nofun⟩
        rw [hreply]
        rfl
      · have hreply : (Command.exec platform collation e w
          (.query (.resetToken (platform.hashPasswordResetToken q.token)))).1 = some resetToken :=
            hfind
        refine ⟨.found resetToken, ?_, .find hfind⟩
        rw [hreply]
        rfl
  | found resetToken =>
      cases hp
      by_cases hused : resetToken.usedAt.isSome = true
      · refine ⟨.failed invalidResetToken, ?_, .quiet rfl rfl nofun nofun nofun nofun nofun⟩
        exact (if_pos hused).symm
      · by_cases hlate : resetToken.expiresAt < e.now
        · refine ⟨.failed invalidResetToken, ?_, .quiet rfl rfl nofun nofun nofun nofun nofun⟩
          exact ((if_neg hused).trans (if_pos hlate)).symm
        · refine ⟨.finding resetToken e.now, ?_,
            .quiet rfl rfl (fun _ h => h) nofun nofun nofun nofun⟩
          exact ((if_neg hused).trans (if_neg hlate)).symm
  | finding resetToken usedAt =>
      cases hp
      rcases huser : w.db.users.row resetToken.userId with _ | user
      · have hreply : (Command.exec platform collation e w (.query (.user resetToken.userId))).1 = none := huser
        refine ⟨.failed invalidResetToken, ?_, .quiet rfl rfl nofun nofun nofun nofun nofun⟩
        rw [hreply]
        rfl
      · have hreply : (Command.exec platform collation e w (.query (.user resetToken.userId))).1 = some user :=
          huser
        have hid : user.id = resetToken.userId := w.db.users.id_of_row huser
        rw [hreply]
        by_cases hactive : user.isActive = true
        · refine ⟨.hashing user usedAt, ?_, .quiet rfl rfl
            (fun u hu => (congrArg some hid).symm.trans hu) nofun nofun nofun nofun⟩
          exact (if_neg (by simp [hactive])).symm
        · refine ⟨.failed invalidResetToken, ?_, .quiet rfl rfl nofun nofun nofun nofun nofun⟩
          exact (if_pos (by simp [hactive])).symm
  | hashing user usedAt =>
      cases hp
      exact ⟨.storing user e.secret usedAt, rfl, .hash⟩
  | storing user hashedPassword usedAt =>
      cases hp
      have hflush : flushUser (K := K) user (confirmPasswordResetChanges user hashedPassword) =
          [.updateUser user.id (confirmPasswordResetChanges user hashedPassword)] :=
        if_neg (by simp [confirmPasswordResetChanges])
      rcases hcommit : transaction e.gap e.databaseNow
        (flushUser user (confirmPasswordResetChanges user hashedPassword)) none w.db with _ | ⟨id, db⟩
      · rw [Command.exec_commit_of_none hcommit]
        exact ⟨.failed .unhandled, rfl, .quiet rfl rfl nofun nofun nofun nofun nofun⟩
      · rw [Command.exec_commit_of_some hcommit]
        rw [hflush, transaction_singleton] at hcommit
        obtain ⟨row, updated, hrow, hupdated, -, rfl⟩ := exec_updateUser_eq_some hcommit
        obtain ⟨hid, -, hhash, -⟩ := UserChanges.apply_eq_some hupdated
        obtain hrowid : row.id = user.id := w.db.users.id_of_row hrow
        rw [← hrowid] at hrow
        refine ⟨.refreshing user.id usedAt, rfl, .store hhash (fun k => ?_) rfl⟩
        rw [Database.row_setUser hid hrow, hrowid]
  | refreshing userId usedAt =>
      cases hp
      rcases huser : w.db.users.row userId with _ | user
      · have hreply : (Command.exec platform collation e w (.query (.user userId))).1 = none := huser
        refine ⟨.failed .unhandled, ?_, .quiet rfl rfl nofun nofun nofun nofun nofun⟩
        rw [hreply]
        rfl
      · have hreply : (Command.exec platform collation e w (.query (.user userId))).1 = some user :=
          huser
        obtain rfl : user.id = userId := w.db.users.id_of_row huser
        rw [hreply]
        exact ⟨.invalidating user usedAt, rfl,
          .quiet rfl rfl (fun _ h => h) (fun _ => trivial) nofun nofun nofun⟩
  | invalidating user usedAt =>
      cases hp
      have hdb : (Command.exec platform collation e w
          (.redisIncr (buildUsersListCacheVersionKey user.tenantId))).2.db = w.db :=
        Command.db_exec nofun
      refine ⟨.marking user usedAt, rfl, ?_⟩
      rw [hdb]
      exact .quiet rfl rfl (fun _ h => h) (fun _ => trivial) nofun nofun nofun
  | marking user usedAt =>
      cases hp
      exact ⟨.marked user.id, rfl, .mark rfl spent_useResetTokens
        (fun u => Spent.useResetTokens) fun token => tokenUser?_useResetTokens token⟩
  | marked userId =>
      cases hp
      rcases huser : w.db.users.row userId with _ | user
      · have hreply : (Command.exec platform collation e w (.query (.user userId))).1 = none := huser
        refine ⟨.failed .unhandled, ?_, .quiet rfl rfl nofun nofun nofun nofun nofun⟩
        rw [hreply]
        rfl
      · have hreply : (Command.exec platform collation e w (.query (.user userId))).1 = some user :=
          huser
        obtain rfl : user.id = userId := w.db.users.id_of_row huser
        rw [hreply]
        exact ⟨.auditing user, rfl, .quiet rfl rfl (fun _ h => h) nofun (fun _ => trivial) nofun nofun⟩
  | auditing user =>
      cases hp
      rcases hcommit : transaction e.gap e.databaseNow
        [.insertAuditLog user.tenantId none .passwordResetConfirmed (some user.id)] none w.db with
          _ | ⟨id, db⟩
      · rw [Command.exec_commit_of_none hcommit]
        exact ⟨.failed .unhandled, rfl, .quiet rfl rfl nofun nofun nofun nofun nofun⟩
      · rw [Command.exec_commit_of_some hcommit]
        rw [transaction_singleton] at hcommit
        obtain ⟨auditLogs, rfl⟩ := exec_insertAuditLog_eq_some hcommit
        exact ⟨.succeeded, rfl, .quiet rfl rfl nofun nofun (fun _ => trivial) nofun nofun⟩
  | succeeded => simp [program] at hp
  | failed x => simp [program] at hp

end Move

/-! ### Concurrent calls -/

/-- The calls that run, and the world that they run in. -/
abbrev ResetCalls (ι K : Type) := Pool ι PasswordResetConfirm (AppProg K String) (World K)

namespace ResetCalls

variable {K : Type} [Field K] [LinearOrder K] [FloorRing K] {ι : Type} [DecidableEq ι]
  (platform : Platform) (collation : Collation)

/-- One step of one call. -/
def step (s : ResetCalls ι K) (a : PoolAction ι PasswordResetConfirm (Env K)) :
    Option (ResetCalls ι K) :=
  Pool.next (interp platform collation)
    (fun q => confirmPasswordReset platform q.token q.newPassword) s a

/-- The next command of the call stores a password. -/
def StoresPassword (s : ResetCalls ι K) (i : ι) (q : PasswordResetConfirm) : Prop :=
  ∃ userId changes k, s.calls i = some (q, .call (.commit [.updateUser userId changes]) k)

/-- A call that stores a password finds its token unused, and no other call has stored one for the
same user without having marked the tokens. -/
def Exclusive (s : ResetCalls ι K) (a : PoolAction ι PasswordResetConfirm (Env K)) : Prop :=
  ∀ i e q, a = .step i e → StoresPassword s i q →
    (∀ resetToken ∈ resetToken? platform s.store.db q.token, resetToken.usedAt = none) ∧
    ∀ j q' ph, j ≠ i → s.calls j = some (q', ResetPhase.program platform q' ph) →
      tokenUser? platform s.store.db q'.token = tokenUser? platform s.store.db q.token → ¬ ph.Storing

/-- The hash that a call makes of its password verifies it. -/
def HashesPasswords (s : ResetCalls ι K) (a : PoolAction ι PasswordResetConfirm (Env K)) : Prop :=
  ∀ i e q password k, a = .step i e → s.calls i = some (q, .call (.hashPassword password) k) →
    platform.verifyPassword password e.secret = true

/-- With this step a call for the user succeeds. -/
def Confirms (u : ℕ) (s : ResetCalls ι K) (a : PoolAction ι PasswordResetConfirm (Env K))
    (t : ResetCalls ι K) (q : PasswordResetConfirm) : Prop :=
  ∃ i e message, a = .step i e ∧ t.calls i = some (q, .ret message) ∧
    tokenUser? platform s.store.db q.token = some u

end ResetCalls

/-! ### One call at a time stores a password -/

section Invariant

variable {K ι : Type} (platform : Platform)

/-- What a call has learned is right: the user is the one of its token, and the hash is one of its
password. -/
structure ResetPhase.Fits (db₀ : Database K) (q : PasswordResetConfirm) (ph : ResetPhase K) :
    Prop where
  user : ∀ u, ph.userId? = some u → tokenUser? platform db₀ q.token = some u
  hash : ∀ user hashedPassword usedAt, ph = .storing user hashedPassword usedAt →
    platform.verifyPassword q.newPassword hashedPassword = true

/-- The phases of the calls that run, and the database. -/
structure ResetInv (db₀ : Database K) (phases : ι → Option (PasswordResetConfirm × ResetPhase K))
    (db : Database K) : Prop where
  tokenUsers : ∀ token, tokenUser? platform db token = tokenUser? platform db₀ token
  fits : ∀ i q ph, phases i = some (q, ph) → ph.Fits platform db₀ q
  /-- One call for a user has stored a password, at most. -/
  one : ∀ i j q q' ph ph', phases i = some (q, ph) → phases j = some (q', ph') →
    ph.Storing ∨ ph.Marked → ph'.Storing ∨ ph'.Marked →
    tokenUser? platform db₀ q.token = tokenUser? platform db₀ q'.token → i = j
  stored : ∀ i q ph, phases i = some (q, ph) → ph.Storing ∨ ph.Marked →
    ∃ u user, tokenUser? platform db₀ q.token = some u ∧ db.users.row u = some user ∧
      platform.verifyPassword q.newPassword user.hashedPassword = true
  spent : ∀ i q ph u, phases i = some (q, ph) → ph.Marked →
    tokenUser? platform db₀ q.token = some u → Spent u db

/-- The password of the user is settled: no token of the user is good any more, and no call for the
user is about to succeed. -/
structure Settled (db₀ : Database K) (u : ℕ) (password : String)
    (phases : ι → Option (PasswordResetConfirm × ResetPhase K)) (db : Database K) : Prop where
  spent : Spent u db
  verifies : ∃ user, db.users.row u = some user ∧
    platform.verifyPassword password user.hashedPassword = true
  ended : ∀ i q ph, phases i = some (q, ph) → ph.Storing ∨ ph.Marked →
    tokenUser? platform db₀ q.token = some u → ph = .succeeded

variable {platform} [DecidableEq ι] {db₀ db db' : Database K}
  {phases : ι → Option (PasswordResetConfirm × ResetPhase K)} {i : ι} {q : PasswordResetConfirm}
  {ph ph' : ResetPhase K} {e : Env K} {u : ℕ} {password : String}

/-- A process that goes on, or starts, without storing a password or marking tokens. -/
lemma ResetInv.quiet (h : ResetInv platform db₀ phases db) (husers : db'.users = db.users)
    (htokens : db'.passwordResetTokens = db.passwordResetTokens)
    (hfits : ph'.Fits platform db₀ q)
    (hbefore : ph'.Storing ∨ ph'.Marked → ∃ ph, phases i = some (q, ph) ∧
      (ph.Storing ∨ ph.Marked) ∧ (ph'.Marked → ph.Marked)) :
    ResetInv platform db₀ (Function.update phases i (some (q, ph'))) db' := by
  have hback : ∀ j q₁ ph₁, Function.update phases i (some (q, ph')) j = some (q₁, ph₁) →
      ph₁.Storing ∨ ph₁.Marked →
      ∃ ph, phases j = some (q₁, ph) ∧ (ph.Storing ∨ ph.Marked) ∧ (ph₁.Marked → ph.Marked) :=
    Pool.forall_phases_update (P := fun j q₁ ph₁ => ph₁.Storing ∨ ph₁.Marked →
      ∃ ph, phases j = some (q₁, ph) ∧ (ph.Storing ∨ ph.Marked) ∧ (ph₁.Marked → ph.Marked))
      (fun j q₁ ph₁ hj hph => ⟨ph₁, hj, hph, id⟩) hbefore
  refine ⟨fun token => (tokenUser?_congr htokens token).trans (h.tokenUsers token),
    Pool.forall_phases_update (P := fun _ => ResetPhase.Fits platform db₀) h.fits hfits,
    fun j k q₁ q₂ ph₁ ph₂ hj hk hph₁ hph₂ heq => ?_, fun j q₁ ph₁ hj hph₁ => ?_,
    fun j q₁ ph₁ u hj hph₁ hu => ?_⟩
  · obtain ⟨ph₁', hj, hph₁, -⟩ := hback j q₁ ph₁ hj hph₁
    obtain ⟨ph₂', hk, hph₂, -⟩ := hback k q₂ ph₂ hk hph₂
    exact h.one j k q₁ q₂ ph₁' ph₂' hj hk hph₁ hph₂ heq
  · obtain ⟨ph₁', hj, hph₁, -⟩ := hback j q₁ ph₁ hj hph₁
    rw [husers]
    exact h.stored j q₁ ph₁' hj hph₁
  · obtain ⟨ph₁', hj, -, hmarked⟩ := hback j q₁ ph₁ hj (.inr hph₁)
    exact (h.spent j q₁ ph₁' u hj (hmarked hph₁) hu).congr htokens

lemma ResetInv.start (h : ResetInv platform db₀ phases db) :
    ResetInv platform db₀ (Function.update phases i (some (q, .looking))) db :=
  h.quiet rfl rfl ⟨nofun, nofun⟩ (by rintro (⟨⟨⟩⟩ | ⟨⟨⟩⟩))

/-- The call stores a password, and no other call for the user has stored one. -/
lemma ResetInv.store {user updated : User} {hashed : String} {usedAt : K}
    (h : ResetInv platform db₀ phases db) (hi : phases i = some (q, .storing user hashed usedAt))
    (hhash : updated.hashedPassword = hashed)
    (hrow : ∀ k, db'.users.row k = if k = user.id then some updated else db.users.row k)
    (htokens : db'.passwordResetTokens = db.passwordResetTokens)
    (halone : ∀ j q' ph, j ≠ i → phases j = some (q', ph) → ph.Storing ∨ ph.Marked →
      tokenUser? platform db₀ q'.token ≠ some user.id) :
    ResetInv platform db₀ (Function.update phases i (some (q, .refreshing user.id usedAt))) db' := by
  have huser : tokenUser? platform db₀ q.token = some user.id := (h.fits i q _ hi).user _ rfl
  refine ⟨fun token => (tokenUser?_congr htokens token).trans (h.tokenUsers token),
    Pool.forall_phases_update (P := fun _ => ResetPhase.Fits platform db₀) h.fits
      ⟨fun u hu => huser.trans hu, nofun⟩,
    fun j k q₁ q₂ ph₁ ph₂ hj hk hph₁ hph₂ heq => ?_, fun j q₁ ph₁ hj hph₁ => ?_,
    fun j q₁ ph₁ u hj hph₁ hu => ?_⟩
  · rcases eq_or_ne j i with rfl | hji <;> rcases eq_or_ne k j with rfl | hkj
    · rfl
    · rw [Function.update_self] at hj
      rw [Function.update_of_ne hkj] at hk
      obtain ⟨rfl, rfl⟩ := Prod.mk.inj (Option.some.inj hj)
      exact absurd (heq.symm.trans huser) (halone k q₂ ph₂ hkj hk hph₂)
    · rfl
    · rw [Function.update_of_ne hji] at hj
      rcases eq_or_ne k i with rfl | hki
      · rw [Function.update_self] at hk
        obtain ⟨rfl, rfl⟩ := Prod.mk.inj (Option.some.inj hk)
        exact absurd (heq.trans huser) (halone j q₁ ph₁ hji hj hph₁)
      · rw [Function.update_of_ne hki] at hk
        exact h.one j k q₁ q₂ ph₁ ph₂ hj hk hph₁ hph₂ heq
  · rcases eq_or_ne j i with rfl | hji
    · rw [Function.update_self] at hj
      obtain ⟨rfl, rfl⟩ := Prod.mk.inj (Option.some.inj hj)
      refine ⟨user.id, updated, huser, by rw [hrow, if_pos rfl], ?_⟩
      rw [hhash]
      exact (h.fits j q _ hi).hash user hashed usedAt rfl
    · rw [Function.update_of_ne hji] at hj
      obtain ⟨u, row, hu, hrow', hverify⟩ := h.stored j q₁ ph₁ hj hph₁
      have hne : u ≠ user.id := fun heq => halone j q₁ ph₁ hji hj hph₁ (heq ▸ hu)
      exact ⟨u, row, hu, by rw [hrow, if_neg hne, hrow'], hverify⟩
  · rcases eq_or_ne j i with rfl | hji
    · rw [Function.update_self] at hj
      obtain ⟨rfl, rfl⟩ := Prod.mk.inj (Option.some.inj hj)
      exact hph₁.elim
    · rw [Function.update_of_ne hji] at hj
      exact (h.spent j q₁ ph₁ u hj hph₁ hu).congr htokens

/-- The call marks the tokens of its user. -/
lemma ResetInv.mark {user : User} {usedAt : K} (h : ResetInv platform db₀ phases db)
    (hi : phases i = some (q, .marking user usedAt)) (husers : db'.users = db.users)
    (hspent : Spent user.id db') (hkeeps : ∀ u, Spent u db → Spent u db')
    (htokens : ∀ token, tokenUser? platform db' token = tokenUser? platform db token) :
    ResetInv platform db₀ (Function.update phases i (some (q, .marked user.id))) db' := by
  have huser : tokenUser? platform db₀ q.token = some user.id := (h.fits i q _ hi).user _ rfl
  have hback : ∀ j q₁ ph₁, Function.update phases i (some (q, .marked user.id)) j = some (q₁, ph₁) →
      ph₁.Storing ∨ ph₁.Marked → ∃ ph, phases j = some (q₁, ph) ∧ (ph.Storing ∨ ph.Marked) :=
    Pool.forall_phases_update (P := fun j q₁ ph₁ => ph₁.Storing ∨ ph₁.Marked →
      ∃ ph, phases j = some (q₁, ph) ∧ (ph.Storing ∨ ph.Marked))
      (fun j q₁ ph₁ hj hph => ⟨ph₁, hj, hph⟩) fun _ => ⟨_, hi, .inl trivial⟩
  refine ⟨fun token => (htokens token).trans (h.tokenUsers token),
    Pool.forall_phases_update (P := fun _ => ResetPhase.Fits platform db₀) h.fits
      ⟨fun u hu => huser.trans hu, nofun⟩,
    fun j k q₁ q₂ ph₁ ph₂ hj hk hph₁ hph₂ heq => ?_, fun j q₁ ph₁ hj hph₁ => ?_,
    fun j q₁ ph₁ u hj hph₁ hu => ?_⟩
  · obtain ⟨ph₁', hj, hph₁⟩ := hback j q₁ ph₁ hj hph₁
    obtain ⟨ph₂', hk, hph₂⟩ := hback k q₂ ph₂ hk hph₂
    exact h.one j k q₁ q₂ ph₁' ph₂' hj hk hph₁ hph₂ heq
  · obtain ⟨ph₁', hj, hph₁⟩ := hback j q₁ ph₁ hj hph₁
    rw [husers]
    exact h.stored j q₁ ph₁' hj hph₁
  · rcases eq_or_ne j i with rfl | hji
    · rw [Function.update_self] at hj
      obtain ⟨rfl, rfl⟩ := Prod.mk.inj (Option.some.inj hj)
      obtain rfl : user.id = u := Option.some.inj (huser.symm.trans hu)
      exact hspent
    · rw [Function.update_of_ne hji] at hj
      exact hkeeps u (h.spent j q₁ ph₁ u hj hph₁ hu)

lemma ResetInv.die (h : ResetInv platform db₀ phases db) :
    ResetInv platform db₀ (Function.update phases i none) db := by
  exact ⟨h.tokenUsers, fun j q ph hj => h.fits j q ph (Pool.phases_of_die hj),
    fun j k q q' ph ph' hj hk => h.one j k q q' ph ph' (Pool.phases_of_die hj)
      (Pool.phases_of_die hk), fun j q ph hj => h.stored j q ph (Pool.phases_of_die hj),
    fun j q ph u hj => h.spent j q ph u (Pool.phases_of_die hj)⟩

/-- A user with an unused token has not spent the tokens. -/
lemma not_spent_of_unused {token : String} (hu : tokenUser? platform db token = some u)
    (hunused : ∀ resetToken ∈ resetToken? platform db token, resetToken.usedAt = none) :
    ¬ Spent u db := by
  intro hspent
  obtain ⟨resetToken, hfind, rfl⟩ := Option.map_eq_some_iff.1 hu
  obtain ⟨hrow, -⟩ := Table.mem_select.1 (List.mem_of_mem_head? hfind)
  have hused := hspent _ resetToken hrow rfl
  rw [hunused resetToken hfind] at hused
  exact absurd hused Bool.false_ne_true

variable (platform) in
/-- Nothing stands against the storing of a password. -/
def MayStore (db₀ db : Database K) (phases : ι → Option (PasswordResetConfirm × ResetPhase K))
    (i : ι) (q : PasswordResetConfirm) : Prop :=
  (∀ resetToken ∈ resetToken? platform db q.token, resetToken.usedAt = none) ∧
    ∀ j q' ph, j ≠ i → phases j = some (q', ph) →
      tokenUser? platform db₀ q'.token = tokenUser? platform db₀ q.token → ¬ ph.Storing

/-- **A step of a call keeps the invariant.** -/
theorem ResetInv.step (h : ResetInv platform db₀ phases db) (hi : phases i = some (q, ph))
    (hm : ResetPhase.Move platform q e ph db ph' db')
    (hhash : ∀ user usedAt, ph = .hashing user usedAt →
      platform.verifyPassword q.newPassword e.secret = true)
    (hmay : ∀ user hashed usedAt, ph = .storing user hashed usedAt →
      MayStore platform db₀ db phases i q) :
    ResetInv platform db₀ (Function.update phases i (some (q, ph'))) db' := by
  have hfits := h.fits i q ph hi
  cases hm with
  | @find db resetToken hfind =>
      refine h.quiet rfl rfl ⟨fun u hu => ?_, nofun⟩ (by rintro (⟨⟨⟩⟩ | ⟨⟨⟩⟩))
      rw [← h.tokenUsers, tokenUser?, hfind]
      exact hu
  | @hash db user usedAt =>
      refine h.quiet rfl rfl ⟨hfits.user, ?_⟩ (by rintro (⟨⟨⟩⟩ | ⟨⟨⟩⟩))
      rintro _ _ _ ⟨⟩
      exact hhash user usedAt rfl
  | @store db db' user updated hashed usedAt hupdated hrow htokens =>
      obtain ⟨hunused, halone⟩ := hmay user hashed usedAt rfl
      have huser := hfits.user _ rfl
      refine h.store hi hupdated hrow htokens fun j q' ph hj hph hstored hu => ?_
      rcases hstored with hstoring | hmarked
      · exact halone j q' ph hj hph (hu.trans huser.symm) hstoring
      · exact not_spent_of_unused ((h.tokenUsers _).trans huser) hunused (h.spent j q' ph _ hph hmarked hu)
  | mark husers hspent hkeeps htokens => exact h.mark hi husers hspent hkeeps htokens
  | quiet husers htokens huser hstoring hmarked hhash' hruns =>
      refine h.quiet husers htokens ⟨fun u hu => hfits.user u (huser u hu),
        fun user hashed usedAt heq => absurd heq (hhash' user hashed usedAt)⟩ fun hph' => ?_
      exact ⟨ph, hi, hph'.imp hstoring hmarked, hmarked⟩

lemma Settled.start (h : Settled platform db₀ u password phases db) :
    Settled platform db₀ u password (Function.update phases i (some (q, .looking))) db :=
  ⟨h.spent, h.verifies, Pool.forall_phases_update
    (P := fun _ (q₁ : PasswordResetConfirm) (ph₁ : ResetPhase K) =>
      ph₁.Storing ∨ ph₁.Marked → tokenUser? platform db₀ q₁.token = some u → ph₁ = .succeeded)
    h.ended (by rintro (⟨⟨⟩⟩ | ⟨⟨⟩⟩))⟩

lemma Settled.die (h : Settled platform db₀ u password phases db) :
    Settled platform db₀ u password (Function.update phases i none) db :=
  ⟨h.spent, h.verifies, fun j q ph hj => h.ended j q ph (Pool.phases_of_die hj)⟩

/-- **What is settled stays settled.** -/
theorem Settled.step (hs : Settled platform db₀ u password phases db)
    (h : ResetInv platform db₀ phases db) (hi : phases i = some (q, ph))
    (hm : ResetPhase.Move platform q e ph db ph' db')
    (hmay : ∀ user hashed usedAt, ph = .storing user hashed usedAt →
      MayStore platform db₀ db phases i q) :
    Settled platform db₀ u password (Function.update phases i (some (q, ph'))) db' := by
  have hended := hs.ended i q ph hi
  have hfits := h.fits i q ph hi
  have hrest : (ph'.Storing ∨ ph'.Marked → tokenUser? platform db₀ q.token = some u →
      ph' = .succeeded) → ∀ j q₁ ph₁, Function.update phases i (some (q, ph')) j = some (q₁, ph₁) →
      ph₁.Storing ∨ ph₁.Marked → tokenUser? platform db₀ q₁.token = some u → ph₁ = .succeeded :=
    Pool.forall_phases_update (P := fun _ (q₁ : PasswordResetConfirm) (ph₁ : ResetPhase K) =>
      ph₁.Storing ∨ ph₁.Marked → tokenUser? platform db₀ q₁.token = some u → ph₁ = .succeeded)
      hs.ended
  cases hm with
  | find hfind => exact ⟨hs.spent, hs.verifies, hrest (by rintro (⟨⟨⟩⟩ | ⟨⟨⟩⟩))⟩
  | hash => exact ⟨hs.spent, hs.verifies, hrest (by rintro (⟨⟨⟩⟩ | ⟨⟨⟩⟩))⟩
  | @store db db' user updated hashed usedAt hupdated hrow htokens =>
      have huser := hfits.user _ rfl
      have hne : u ≠ user.id := by
        rintro rfl
        exact not_spent_of_unused ((h.tokenUsers _).trans huser) (hmay user hashed usedAt rfl).1
          hs.spent
      obtain ⟨row, hrow', hverify⟩ := hs.verifies
      refine ⟨hs.spent.congr htokens, ⟨row, by rw [hrow, if_neg hne, hrow'], hverify⟩,
        hrest fun _ hu => ?_⟩
      exact absurd (Option.some.inj (hu.symm.trans huser)) hne
  | mark husers hspent hkeeps htokens =>
      refine ⟨hkeeps u hs.spent, husers ▸ hs.verifies, hrest fun _ hu => ?_⟩
      exact nomatch hended (.inl trivial) hu
  | quiet husers htokens huser hstoring hmarked hhash' hruns =>
      refine ⟨hs.spent.congr htokens, husers ▸ hs.verifies, hrest fun hph' hu => ?_⟩
      exact absurd (hended (hph'.imp hstoring hmarked) hu) hruns

end Invariant

/-! ### Runs -/

namespace ResetCalls

variable {K : Type} [Field K] [LinearOrder K] [FloorRing K] {ι : Type} [DecidableEq ι]
  {platform : Platform} {collation : Collation} {db₀ : Database K} {s s' t t' : ResetCalls ι K}
  {phases : ι → Option (PasswordResetConfirm × ResetPhase K)}
  {a b : PoolAction ι PasswordResetConfirm (Env K)}
  {as bs : List (PoolAction ι PasswordResetConfirm (Env K))} {i : ι} {q q' : PasswordResetConfirm}
  {e : Env K} {u : ℕ} {password : String}

omit [Field K] [FloorRing K] in
lemma eq_succeeded {ph : ResetPhase K} {message : String}
    (h : ph.program platform q = .ret message) : ph = .succeeded := by
  cases ph with
  | succeeded => rfl
  | _ => nomatch h

omit [Field K] [FloorRing K] [DecidableEq ι] in
/-- What the side condition says of the phases. -/
lemma mayStore_of_exclusive (hseen : Pool.SeenAs (ResetPhase.program platform) s phases)
    (hinv : ResetInv platform db₀ phases s.store.db) (hG : Exclusive platform s (.step i e))
    {ph : ResetPhase K} (hi : phases i = some (q, ph)) (user : User) (hashed : String) (usedAt : K)
    (hph : ph = .storing user hashed usedAt) : MayStore platform db₀ s.store.db phases i q := by
  subst hph
  have hstores : StoresPassword s i q := by
    have hflush : flushUser user (confirmPasswordResetChanges user hashed) =
        ([.updateUser user.id (confirmPasswordResetChanges user hashed)] : List (Statement K)) :=
      if_neg (by simp [confirmPasswordResetChanges])
    refine ⟨user.id, confirmPasswordResetChanges user hashed, ?_⟩
    rw [← hflush]
    exact ⟨_, hseen.calls_of_phase hi⟩
  obtain ⟨hunused, halone⟩ := hG i e q rfl hstores
  refine ⟨hunused, fun j q' ph hj hph hu => halone j q' ph hj (hseen.calls_of_phase hph) ?_⟩
  rw [hinv.tokenUsers, hinv.tokenUsers, hu]

omit [Field K] [FloorRing K] [DecidableEq ι] in
lemma verifies_of_hashes (hseen : Pool.SeenAs (ResetPhase.program platform) s phases)
    (hG : HashesPasswords platform s (.step i e)) {ph : ResetPhase K} (hi : phases i = some (q, ph))
    (user : User) (usedAt : K) (hph : ph = .hashing user usedAt) :
    platform.verifyPassword q.newPassword e.secret = true := by
  subst hph
  exact hG i e q q.newPassword _ rfl (hseen.calls_of_phase hi)

variable (platform) in
/-- The side conditions on the steps of a run. -/
def Allowed (s : ResetCalls ι K) (a : PoolAction ι PasswordResetConfirm (Env K)) : Prop :=
  Exclusive platform s a ∧ HashesPasswords platform s a

variable (collation) in
/-- The invariant of the calls. -/
lemma phaseInvariant : Pool.PhaseInvariant (interp platform collation)
    (fun q : PasswordResetConfirm => confirmPasswordReset platform q.token q.newPassword)
    (ResetPhase.program platform) (Allowed (ι := ι) (K := K) platform)
    fun phases w => ResetInv platform db₀ phases w.db where
  start _ hinv _ := ⟨.looking, rfl, hinv.start⟩
  step hinv hseen hG hi hp hexec := by
    obtain ⟨ph', hp', hmove⟩ := ResetPhase.move_of_interp hp hexec
    exact ⟨ph', hp', hinv.step hi hmove (verifies_of_hashes hseen hG.2 hi)
      (mayStore_of_exclusive hseen hinv hG.1 hi)⟩
  die _ hinv := hinv.die

variable (collation) in
/-- The invariant after a call for the user has succeeded. -/
lemma phaseInvariant_settled : Pool.PhaseInvariant (interp platform collation)
    (fun q : PasswordResetConfirm => confirmPasswordReset platform q.token q.newPassword)
    (ResetPhase.program platform) (Allowed (ι := ι) (K := K) platform)
    fun phases w => ResetInv platform db₀ phases w.db ∧
      Settled platform db₀ u password phases w.db where
  start _ hinv _ := ⟨.looking, rfl, hinv.1.start, hinv.2.start⟩
  step hinv hseen hG hi hp hexec := by
    obtain ⟨ph', hp', hmove⟩ := ResetPhase.move_of_interp hp hexec
    have hmay := mayStore_of_exclusive hseen hinv.1 hG.1 hi
    exact ⟨ph', hp', hinv.1.step hi hmove (verifies_of_hashes hseen hG.2 hi) hmay,
      hinv.2.step hinv.1 hi hmove hmay⟩
  die _ hinv := ⟨hinv.1.die, hinv.2.die⟩

omit [Field K] [FloorRing K] in
/-- **A call that succeeds has marked the tokens before.** -/
lemma marked_of_confirms [Field K] [FloorRing K]
    (hseen : Pool.SeenAs (ResetPhase.program platform) s phases)
    (hc : Confirms platform u s a s' q) (hstep : step platform collation s a = some s') :
    ∃ i e ph, a = .step i e ∧ phases i = some (q, ph) ∧ ph ≠ .succeeded ∧ ph.Marked ∧
      Pool.SeenAs (ResetPhase.program platform) s'
        (Function.update phases i (some (q, .succeeded))) ∧
      ResetPhase.Move platform q e ph s.store.db .succeeded s'.store.db := by
  obtain ⟨i, e, message, rfl, hret, hu⟩ := hc
  rcases Pool.next_cases hstep with ⟨_, _, heq, -⟩ |
    ⟨i', e', q', c, k, p', w, heq, hi, rfl, hcmd⟩ | ⟨_, _, _, heq, -⟩
  · simp at heq
  · obtain ⟨rfl, rfl⟩ := PoolAction.step.inj heq
    have hself : Function.update s.calls i (some (q', p')) i = some (q, .ret message) := hret
    rw [Function.update_self] at hself
    obtain ⟨rfl, rfl⟩ := Prod.mk.inj (Option.some.inj hself)
    obtain ⟨ph, hph, hp⟩ := hseen.exists_phase hi
    obtain ⟨x, hexec, hresume⟩ : ∃ x, interp platform collation c e s.store = some (x, w) ∧
        .ret message = Prog.resume k x := by
      rcases hcmd with ⟨x, -, hx⟩ | ⟨r, hexec, hr⟩
      · nomatch hx
      · exact ⟨_, hexec, hr⟩
    obtain ⟨ph', hp', hmove⟩ := ResetPhase.move_of_interp hp hexec
    obtain rfl := eq_succeeded (hp'.trans hresume.symm)
    refine ⟨i, e, ph, rfl, hph, ?_, ?_, hseen.update (hp'.trans hresume.symm), hmove⟩
    · rintro rfl
      nomatch hp
    · cases hmove with
      | quiet _ _ _ _ hmarked _ _ => exact hmarked trivial
  · simp at heq

/-- **Reset tokens are used once**, in a run in which a call stores a password only while its token is
unused and no other call is between its two commits: after a call for a user has succeeded, the
stored password is the one that it chose, and no other call for the user succeeds. -/
theorem reset_token_used_once {w₀ : World K}
    (hs : exec (step platform collation) (Pool.initial w₀) as = some s)
    (ha : step platform collation s a = some s') (ht : exec (step platform collation) s' bs = some t)
    (hb : step platform collation t b = some t')
    (hG : Along (step platform collation) (Allowed platform) (Pool.initial w₀) (as ++ a :: bs))
    (hc : Confirms platform u s a s' q) :
    (∃ user, t.store.db.users.row u = some user ∧
      platform.verifyPassword q.newPassword user.hashedPassword = true) ∧
    ¬ Confirms platform u t b t' q' := by
  have hempty : ResetInv platform w₀.db (fun _ : ι => none) w₀.db :=
    ⟨fun _ => rfl, nofun, nofun, nofun, nofun⟩
  obtain ⟨phases, hseen, hinv⟩ := (Pool.seenAs_initial w₀).run (phaseInvariant collation) hempty
    (hG.of_isPrefix (List.prefix_append as _)) hs
  obtain ⟨i, e, ph, rfl, hi, -, -, hseen', hmove⟩ := marked_of_confirms hseen hc ha
  obtain ⟨hGa, hGrest⟩ := hG.append hs
  have hu : tokenUser? platform w₀.db q.token = some u := by
    obtain ⟨-, -, -, -, -, hu⟩ := hc
    rwa [hinv.tokenUsers] at hu
  have hinv' := hinv.step hi hmove (verifies_of_hashes hseen hGa.2 hi)
    (mayStore_of_exclusive hseen hinv hGa.1 hi)
  have hself : Function.update phases i (some (q, .succeeded)) i = some (q, .succeeded) :=
    Function.update_self ..
  have hsettled : Settled platform w₀.db u q.newPassword
      (Function.update phases i (some (q, .succeeded))) s'.store.db := by
    refine ⟨hinv'.spent i q _ u hself trivial hu, ?_, fun j q₁ ph₁ hj hph₁ hu₁ => ?_⟩
    · obtain ⟨u', user, hu', hrow, hverify⟩ := hinv'.stored i q _ hself (.inr trivial)
      obtain rfl : u = u' := Option.some.inj (hu.symm.trans hu')
      exact ⟨user, hrow, hverify⟩
    · obtain rfl : j = i := hinv'.one j i q₁ q ph₁ _ hj hself hph₁ (.inr trivial) (hu₁.trans hu.symm)
      exact (Prod.mk.inj (Option.some.inj (hj.symm.trans hself))).2
  obtain ⟨phases', hseen'', hinv'', hsettled'⟩ :=
    hseen'.run (phaseInvariant_settled collation) ⟨hinv', hsettled⟩ (hGrest s' ha) ht
  refine ⟨hsettled'.verifies, fun hc' => ?_⟩
  obtain ⟨j, e', ph', rfl, hj, hruns, hmarked, -⟩ := marked_of_confirms hseen'' hc' hb
  have hu' : tokenUser? platform w₀.db q'.token = some u := by
    obtain ⟨-, -, -, -, -, hu'⟩ := hc'
    rwa [hinv''.tokenUsers] at hu'
  exact hruns (hsettled'.ended j q' ph' hj (.inr hmarked) hu')

/-! ### A user with a reset token -/

/-- The user has one reset token. -/
def oneToken : World ℚ :=
  { World.oneUser with
    db := { Database.oneUser with
      passwordResetTokens := Table.empty.insert 1 (fun id => ⟨id, 1, "token", 1, none⟩) fun _ => rfl } }

/-- The environment of a call whose password has this hash. -/
def hashing (secret : String) : Env ℚ := { Env.calm 0 with secret }

/-- The call has returned with this step. -/
def returns (s t : ResetCalls (Fin 2) ℚ) (i : Fin 2) (q : PasswordResetConfirm) : Bool :=
  tokenUser? Platform.plain s.store.db q.token == some 1 &&
    match t.calls i with
    | some (q', .ret _) => q' == q
    | _ => false

lemma confirms_of_returns {s t : ResetCalls (Fin 2) ℚ} {i : Fin 2} {e : Env ℚ}
    (h : returns s t i q = true) : Confirms Platform.plain 1 s (.step i e) t q := by
  simp only [returns, Bool.and_eq_true, beq_iff_eq] at h
  obtain ⟨hu, hret⟩ := h
  split at hret
  · rename_i q' message hcalls
    obtain rfl : q' = q := by simpa using hret
    exact ⟨i, e, message, rfl, hcalls, hu⟩
  · simp at hret

/-- A call that stores a password is the only one, and its token is unused; the hash of a password is
the password. -/
def alone (s : ResetCalls (Fin 2) ℚ) : PoolAction (Fin 2) PasswordResetConfirm (Env ℚ) → Bool
  | .step i e =>
      match s.calls i with
      | some (q, .call (.commit [.updateUser _ _]) _) =>
          (resetToken? Platform.plain s.store.db q.token).all (·.usedAt.isNone) &&
            decide (∀ j, j ≠ i → (s.calls j).isNone)
      | some (_, .call (.hashPassword password) _) => password == e.secret
      | _ => true
  | _ => true

lemma allowed_of_alone {s : ResetCalls (Fin 2) ℚ}
    {a : PoolAction (Fin 2) PasswordResetConfirm (Env ℚ)} (h : alone s a = true) :
    Allowed Platform.plain s a := by
  constructor
  · rintro i e q rfl ⟨userId, changes, k, hi⟩
    simp only [alone, hi, Bool.and_eq_true, Option.all_eq_true, decide_eq_true_eq] at h
    refine ⟨fun resetToken hfind => Option.isNone_iff_eq_none.1 (h.1 resetToken hfind),
      fun j q' ph hj hcalls => ?_⟩
    rw [Option.isNone_iff_eq_none.1 (h.2 j hj)] at hcalls
    nomatch hcalls
  · rintro i e q password k rfl hi
    simpa [alone, hi, Platform.plain] using h

/-- The numbers `0` and `1` of the two calls. -/
local instance neZero_two : NeZero 2 := ⟨two_ne_zero⟩

/-- The second call starts when the first has ended. -/
def secondConfirm : List (PoolAction (Fin 2) PasswordResetConfirm (Env ℚ)) :=
  [.start 1 ⟨"token", "second"⟩, .step 1 (hashing "second")]

/-- The first call succeeds, and the second one is refused. -/
theorem reset_token_used_once_twoConfirms :
    ∃ (s s' t t' : ResetCalls (Fin 2) ℚ),
      exec (step Platform.plain Collation.plain) (Pool.initial oneToken)
        (.start 0 ⟨"token", "first"⟩ :: List.replicate 9 (.step 0 (hashing "first"))) = some s ∧
      step Platform.plain Collation.plain s (.step 0 (hashing "first")) = some s' ∧
      exec (step Platform.plain Collation.plain) s' secondConfirm = some t ∧
      step Platform.plain Collation.plain t (.step 1 (hashing "second")) = some t' ∧
      (∃ user, t.store.db.users.row 1 = some user ∧
        Platform.plain.verifyPassword "first" user.hashedPassword = true) ∧
      ¬ Confirms Platform.plain 1 t (.step 1 (hashing "second")) t' ⟨"token", "second"⟩ := by
  have hrun : ((exec (step Platform.plain Collation.plain) (Pool.initial oneToken)
      (.start 0 ⟨"token", "first"⟩ :: List.replicate 9 (.step 0 (hashing "first")))).any fun s =>
      (step Platform.plain Collation.plain s (.step 0 (hashing "first"))).any fun s' =>
        returns s s' 0 ⟨"token", "first"⟩ &&
          (exec (step Platform.plain Collation.plain) s' secondConfirm).any fun t =>
            (step Platform.plain Collation.plain t (.step 1 (hashing "second"))).isSome) = true := by
    decide +kernel
  have hG : checkAlong (step Platform.plain Collation.plain) alone (Pool.initial oneToken)
      ((.start 0 ⟨"token", "first"⟩ :: List.replicate 9 (.step 0 (hashing "first"))) ++
        .step 0 (hashing "first") :: secondConfirm) = true := by
    decide +kernel
  obtain ⟨s, hs, hrun⟩ := (Option.any_eq_true _ _).1 hrun
  obtain ⟨s', ha, hrun⟩ := (Option.any_eq_true _ _).1 hrun
  obtain ⟨hret, hrun⟩ := Bool.and_eq_true_iff.1 hrun
  obtain ⟨t, ht, hb⟩ := (Option.any_eq_true _ _).1 hrun
  obtain ⟨t', hb⟩ := Option.isSome_iff_exists.1 hb
  exact ⟨s, s', t, t', hs, ha, ht, hb, reset_token_used_once hs ha ht hb
    (along_of_checkAlong (fun _ _ => allowed_of_alone) hG) (confirms_of_returns hret)⟩

/-- Both calls find the token unused, and then one runs after the other. -/
def bothFind : List (PoolAction (Fin 2) PasswordResetConfirm (Env ℚ)) :=
  [.start 0 ⟨"token", "first"⟩, .start 1 ⟨"token", "second"⟩, .step 0 (hashing "first"),
    .step 1 (hashing "second")] ++ List.replicate 8 (.step 0 (hashing "first"))

/-- Two calls with the same token succeed. -/
theorem reset_token_used_twice :
    ∃ (s s' t t' : ResetCalls (Fin 2) ℚ),
      exec (step Platform.plain Collation.plain) (Pool.initial oneToken) bothFind = some s ∧
      step Platform.plain Collation.plain s (.step 0 (hashing "first")) = some s' ∧
      Confirms Platform.plain 1 s (.step 0 (hashing "first")) s' ⟨"token", "first"⟩ ∧
      exec (step Platform.plain Collation.plain) s'
        (List.replicate 8 (.step 1 (hashing "second"))) = some t ∧
      step Platform.plain Collation.plain t (.step 1 (hashing "second")) = some t' ∧
      Confirms Platform.plain 1 t (.step 1 (hashing "second")) t' ⟨"token", "second"⟩ := by
  have hrun : ((exec (step Platform.plain Collation.plain) (Pool.initial oneToken) bothFind).any fun s =>
      (step Platform.plain Collation.plain s (.step 0 (hashing "first"))).any fun s' =>
        returns s s' 0 ⟨"token", "first"⟩ &&
          (exec (step Platform.plain Collation.plain) s'
            (List.replicate 8 (.step 1 (hashing "second")))).any fun t =>
            (step Platform.plain Collation.plain t (.step 1 (hashing "second"))).any fun t' =>
              returns t t' 1 ⟨"token", "second"⟩) = true := by
    decide +kernel
  obtain ⟨s, hs, hrun⟩ := (Option.any_eq_true _ _).1 hrun
  obtain ⟨s', ha, hrun⟩ := (Option.any_eq_true _ _).1 hrun
  obtain ⟨hret, hrun⟩ := Bool.and_eq_true_iff.1 hrun
  obtain ⟨t, ht, hrun⟩ := (Option.any_eq_true _ _).1 hrun
  obtain ⟨t', hb, hret'⟩ := (Option.any_eq_true _ _).1 hrun
  exact ⟨s, s', t, t', hs, ha, confirms_of_returns hret, ht, hb, confirms_of_returns hret'⟩

end ResetCalls

end StarterBackend.Sessions

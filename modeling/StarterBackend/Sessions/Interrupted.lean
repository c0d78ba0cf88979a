/-
A password reset that is interrupted.

`confirm_password_reset` commits three times: the new password with the new version of
the tokens, then the mark on the reset tokens, then the entry of the audit log.  It is
all or nothing wherever it stops, except after the first of these commits and before the
second (`reset_all_or_nothing_iff`); there the password is new, and the token can be
used again.
-/
import StarterBackend.App.Faults
import StarterBackend.Sessions.PasswordReset

namespace StarterBackend.Sessions

open Lib App

section

variable {K : Type} [Field K] [LinearOrder K] [FloorRing K] {platform : Platform}
  {collation : Collation} {G : Env K → Prop}

/-! ### The points of a call -/

/-- The row of a user after a reset. -/
def resetRow (user : User) (hashedPassword : String) : User :=
  { user with hashedPassword, tokenVersion := user.tokenVersion + 1 }

/-- The entry of the audit log about a reset. -/
def resetEntry (user : User) (createdAt : K) (id : ℕ) : AuditLog K :=
  ⟨id, user.tenantId, none, .passwordResetConfirmed, some user.id, createdAt⟩

/-- The database after some of the commits of a call, which started in `db` for a user. -/
inductive ResetPoint (G : Env K → Prop) (db : Database K) (user : User) : Database K → ℕ → Prop
  | untouched : ResetPoint G db user db 0
  | stored (e : Env K) (he : G e) :
      ResetPoint G db user (db.setUser (resetRow user e.secret)) 1
  | marked (e : Env K) (he : G e) (usedAt : K) :
      ResetPoint G db user (useResetTokens (db.setUser (resetRow user e.secret)) user.id usedAt) 2
  | audited (e : Env K) (he : G e) (usedAt createdAt : K) (gap : ℕ) :
      ResetPoint G db user
        { useResetTokens (db.setUser (resetRow user e.secret)) user.id usedAt with
          auditLogs := db.auditLogs.insert gap (resetEntry user createdAt) fun _ => rfl } 3

variable {db : Database K} {user : User} {w : World K} {post : String → World K × ℕ → Prop}

omit [Field K] [LinearOrder K] [FloorRing K] in
lemma row_resetRow (huser : db.users.row user.id = some user) (hashedPassword : String) :
    (db.setUser (resetRow user hashedPassword)).users.row user.id =
      some (resetRow user hashedPassword) := by
  have hid : (resetRow user hashedPassword).id = user.id := rfl
  rw [Database.row_setUser hid huser, if_pos rfl]

/-- From the second commit on. -/
lemma keeps_afterMark (huser : db.users.row user.id = some user) {e : Env K} (he : G e) {usedAt : K}
    (hw : w.db = useResetTokens (db.setUser (resetRow user e.secret)) user.id usedAt) :
    Keeps platform collation G (ResetPoint G db user) (fun _ _ => True)
      (ResetPhase.afterMark user.id) w 2 := by
  have hpoint : ResetPoint G db user w.db 2 := hw ▸ .marked e he usedAt
  have hrow : w.db.users.find (user.id : ℤ) = some (resetRow user e.secret) := by
    rw [hw]
    exact row_resetRow huser e.secret
  refine keeps_query hpoint fun now => ?_
  rw [Query.eval, hrow]
  refine keeps_createAuditLog (w := { w with clock := now }) hpoint fun gap createdAt now' => ?_
  have haudited : ResetPoint G db user { w.db with
      auditLogs := w.db.auditLogs.insert gap (resetEntry user createdAt) fun _ => rfl } 3 := by
    rw [hw]
    exact .audited e he usedAt createdAt gap
  exact ⟨haudited, haudited, trivial⟩

/-- Between the first commit and the second. -/
lemma keeps_afterStore (huser : db.users.row user.id = some user) {e : Env K} (he : G e) (usedAt : K)
    (hw : w.db = db.setUser (resetRow user e.secret)) :
    Keeps platform collation G (ResetPoint G db user) (fun _ _ => True)
      (ResetPhase.afterStore user.id usedAt) w 1 := by
  have hpoint : ResetPoint G db user w.db 1 := hw ▸ .stored e he
  have hrow : w.db.users.find (user.id : ℤ) = some (resetRow user e.secret) := by
    rw [hw]
    exact row_resetRow huser e.secret
  refine keeps_query hpoint fun now => ?_
  rw [Query.eval, hrow]
  refine keeps_read nofun hpoint fun e₁ _ => ?_
  have hdb : ∀ key, ((Command.redisIncr key).exec platform collation e₁ { w with clock := now }).2.db =
      w.db := fun key => Command.db_exec nofun
  refine keeps_commit ((hdb _).symm ▸ hpoint) fun gap databaseNow id db' now' hcommit => ?_
  rw [transaction_singleton] at hcommit
  obtain rfl : db' = useResetTokens (db.setUser (resetRow user e.secret)) user.id usedAt := by
    rw [← hw, ← hdb (buildUsersListCacheVersionKey (resetRow user e.secret).tenantId)]
    exact (Prod.mk.inj (Option.some.inj hcommit)).2.symm
  exact ⟨.marked e he usedAt, keeps_afterMark huser he rfl⟩

/-- Before the first commit. -/
lemma keeps_resetPassword (huser : db.users.row user.id = some user) (newPassword : String) (usedAt : K)
    (hw : w.db = db) :
    Keeps platform collation G (ResetPoint G db user) (fun _ _ => True)
      (resetPassword user newPassword usedAt) w 0 := by
  subst hw
  refine keeps_read nofun .untouched fun e he => ?_
  have hflush : flushUser (K := K) user (confirmPasswordResetChanges user e.secret) =
      [.updateUser user.id (confirmPasswordResetChanges user e.secret)] :=
    if_neg (by simp [confirmPasswordResetChanges])
  refine keeps_commit .untouched fun gap databaseNow id db' now' hcommit => ?_
  have hcommit' : transaction gap databaseNow (flushUser user (confirmPasswordResetChanges user e.secret))
      none w.db = some (id, db') := hcommit
  rw [hflush, transaction_singleton] at hcommit'
  obtain ⟨row, updated, hrow, hupdated, -, rfl⟩ := exec_updateUser_eq_some hcommit'
  obtain rfl : user = row := Option.some.inj (huser.symm.trans hrow)
  obtain rfl : resetRow user e.secret = updated := Option.some.inj hupdated
  exact ⟨.stored e he, keeps_afterStore huser he usedAt rfl⟩

variable (platform collation G) in
/-- **Every point of a call.** -/
lemma keeps_confirmPasswordReset (q : PasswordResetConfirm) {resetToken : PasswordResetToken K}
    (htoken : resetToken? platform w.db q.token = some resetToken)
    (huser : w.db.users.row resetToken.userId = some user) :
    Keeps platform collation G (ResetPoint G w.db user) (fun _ _ => True)
      (confirmPasswordReset platform q.token q.newPassword) w 0 := by
  obtain hid : user.id = resetToken.userId := w.db.users.id_of_row huser
  have hreply : Query.eval collation w.db (.resetToken (platform.hashPasswordResetToken q.token)) =
      some resetToken := htoken
  refine keeps_query .untouched fun now => ?_
  rw [hreply]
  refine keeps_now .untouched fun time => ?_
  simp only [Prog.ret_bind]
  split_ifs
  · exact ResetPoint.untouched
  · exact ResetPoint.untouched
  · have huser' : w.db.users.find (resetToken.userId : ℤ) = some user := huser
    refine keeps_query .untouched fun now' => ?_
    rw [Prog.ret_bind, Query.eval, huser']
    by_cases hactive : user.isActive = true
    · simp only [hactive, Bool.not_true, Bool.false_eq_true, if_false]
      exact keeps_resetPassword (hid ▸ huser) q.newPassword time rfl
    · simp only [hactive, Bool.not_false, if_true]
      exact ResetPoint.untouched

/-- A call whose token is used, or whose user is gone, changes nothing and does not return. -/
lemma keeps_refused {token newPassword : String}
    (h : ∀ resetToken, resetToken? platform w.db token = some resetToken →
      resetToken.usedAt.isSome = true ∨ w.db.users.row resetToken.userId = none) :
    Keeps platform collation G (fun db n => db = w.db ∧ n = 0) (fun _ _ => False)
      (confirmPasswordReset platform token newPassword) w 0 := by
  have hpoint : w.db = w.db ∧ 0 = 0 := ⟨rfl, rfl⟩
  refine keeps_query hpoint fun now => ?_
  rcases hfind : resetToken? platform w.db token with _ | resetToken
  · have hreply : (Query.resetToken (platform.hashPasswordResetToken token)).eval collation w.db =
        none := hfind
    rw [hreply]
    exact hpoint
  · have hreply : (Query.resetToken (platform.hashPasswordResetToken token)).eval collation w.db =
        some resetToken := hfind
    rw [hreply]
    refine keeps_now hpoint fun time => ?_
    simp only [Prog.ret_bind]
    split_ifs with hused hlate
    · exact hpoint
    · exact hpoint
    · have huser : w.db.users.find (resetToken.userId : ℤ) = none :=
        (h resetToken hfind).resolve_left hused
      refine keeps_query hpoint fun now' => ?_
      rw [Prog.ret_bind, Query.eval, huser]
      exact hpoint

/-! ### All or nothing -/

/-- The change of a reset: the user has the new hash and the next version, and every reset token of
the user that was unused is used. -/
def Reset (G : Env K → Prop) (db : Database K) (user : User) (db' : Database K) : Prop :=
  (∃ e, G e ∧ db'.users.row user.id = some (resetRow user e.secret)) ∧
    ∀ k resetToken, db.passwordResetTokens.row k = some resetToken →
      resetToken.userId = user.id → resetToken.usedAt = none →
      ∃ resetToken', db'.passwordResetTokens.row k = some resetToken' ∧
        resetToken'.usedAt.isSome = true

/-- Nothing of that: the user and the unused reset tokens of the user are as they were. -/
def Unchanged (db : Database K) (user : User) (db' : Database K) : Prop :=
  db'.users.row user.id = some user ∧
    ∀ k resetToken, db.passwordResetTokens.row k = some resetToken →
      resetToken.userId = user.id → resetToken.usedAt = none →
      db'.passwordResetTokens.row k = some resetToken

/-- The unique index on the hashes of reset tokens. -/
def TokenHashesUnique (db : Database K) : Prop :=
  ∀ k l t u, db.passwordResetTokens.row k = some t → db.passwordResetTokens.row l = some u →
    t.tokenHash = u.tokenHash → k = l

/-- Every token of a hash is used. -/
def AllUsed (tokenHash : String) (db : Database K) : Prop :=
  ∀ k resetToken, db.passwordResetTokens.row k = some resetToken →
    resetToken.tokenHash = tokenHash → resetToken.usedAt.isSome = true

/-- The database at some later time, when no other token with the hash has been made. -/
def LaterDatabase (tokenHash : String) : Database K → Database K → Prop :=
  Relation.ReflTransGen fun db db' => ∃ gap now statements id,
    transaction gap now statements none db = some (id, db') ∧
      ∀ userId expiresAt, .insertResetToken userId tokenHash expiresAt ∉ statements

/-- No call with the token returns or commits anything, whatever happens in it. -/
def Refused (platform : Platform) (collation : Collation) (token : String) (db : Database K) : Prop :=
  ∀ (newPassword : String) (inputs : List (Option (Env K))) (w w' : World K) (n : ℕ)
    (p : AppProg K String), w.db = db →
    (confirmPasswordReset platform token newPassword).advance (faulty platform collation) inputs
      (w, 0) = some (p, (w', n)) → n = 0 ∧ ∀ message, p ≠ .ret message

/-- **All or nothing**: the change of a reset was made or nothing of it, and if the password was
changed, the token is never good again. -/
def AllOrNothing (platform : Platform) (collation : Collation) (G : Env K → Prop) (token : String)
    (db : Database K) (user : User) (db' : Database K) : Prop :=
  (Reset G db user db' ∨ Unchanged db user db') ∧
    (db'.users.row user.id ≠ some user → ∀ db'',
      LaterDatabase (platform.hashPasswordResetToken token) db' db'' →
        Refused platform collation token db'')

omit [Field K] [FloorRing K] in
/-- A used token stays used, or is deleted. -/
lemma AllUsed.exec {tokenHash : String} {db db' : Database K} {statement : Statement K} {gap : ℕ}
    {now : K} {id : Option ℕ} (h : AllUsed tokenHash db)
    (hstatement : ∀ userId expiresAt, statement ≠ .insertResetToken userId tokenHash expiresAt)
    (hexec : statement.exec gap now db = some (id, db')) : AllUsed tokenHash db' := by
  have hrestrict : ∀ p, AllUsed tokenHash { db with
      passwordResetTokens := db.passwordResetTokens.restrict p } := fun p k resetToken hrow =>
    h k resetToken (Option.filter_eq_some_iff.1 hrow).1
  cases statement with
  | updateUser userId changes =>
      obtain ⟨_, _, _, _, _, rfl⟩ := exec_updateUser_eq_some hexec
      exact h
  | deleteUser userId =>
      simp only [Statement.exec] at hexec
      split_ifs at hexec
      obtain ⟨-, rfl⟩ := Prod.mk.inj (Option.some.inj hexec)
      exact hrestrict _
  | deleteResetTokensBefore time =>
      obtain ⟨-, rfl⟩ := Prod.mk.inj (Option.some.inj hexec)
      exact hrestrict _
  | insertResetToken userId tokenHash' expiresAt =>
      simp only [Statement.exec] at hexec
      split_ifs at hexec
      obtain ⟨-, rfl⟩ := Prod.mk.inj (Option.some.inj hexec)
      intro k resetToken hrow hhash
      rw [Table.row_insert] at hrow
      split_ifs at hrow
      · obtain rfl := Option.some.inj hrow
        exact absurd (congrArg (Statement.insertResetToken userId · expiresAt) hhash)
          (hstatement userId expiresAt)
      · exact h k resetToken hrow hhash
  | useResetTokens userId usedAt =>
      obtain ⟨-, rfl⟩ := Prod.mk.inj (Option.some.inj hexec)
      intro k resetToken hrow hhash
      obtain ⟨row, hrow', rfl⟩ := Option.map_eq_some_iff.1 hrow
      by_cases hmark : row.userId = userId ∧ row.usedAt = none
      · simp [hmark]
      · simp only [hmark, if_false] at hhash ⊢
        exact h k row hrow' hhash
  | deleteFile _ | deleteAuditLogsBefore _ =>
      obtain ⟨-, rfl⟩ := Prod.mk.inj (Option.some.inj hexec)
      exact h
  | _ =>
      simp only [Statement.exec] at hexec
      split_ifs at hexec
      obtain ⟨-, rfl⟩ := Prod.mk.inj (Option.some.inj hexec)
      exact h

omit [Field K] [FloorRing K] in
lemma AllUsed.later {tokenHash : String} {db db' : Database K} (h : AllUsed tokenHash db)
    (hlater : LaterDatabase tokenHash db db') : AllUsed tokenHash db' := by
  induction hlater with
  | refl => exact h
  | tail _ hstep ih =>
      obtain ⟨gap, now, statements, id, hexec, hfresh⟩ := hstep
      refine transaction_invariant (fun statement hmem db x db' hdb hstep => ?_) hexec ih
      exact hdb.exec (fun userId expiresAt heq => hfresh userId expiresAt (heq ▸ hmem)) hstep

/-- A token that is used is refused. -/
lemma AllUsed.refused {token : String} {db : Database K}
    (h : AllUsed (platform.hashPasswordResetToken token) db) : Refused platform collation token db := by
  intro newPassword inputs w w' n p hw hrun
  have hkeeps : Keeps platform collation (fun _ => True) (fun db n => db = w.db ∧ n = 0)
      (fun _ _ => False) (confirmPasswordReset platform token newPassword) w 0 := by
    refine keeps_refused fun resetToken hfind => .inl ?_
    obtain ⟨hrow, hhash⟩ := Table.mem_select.1 (List.mem_of_head? hfind)
    exact h _ resetToken (hw ▸ hrow) (beq_iff_eq.1 hhash)
  have hend := hkeeps.advance (fun _ _ _ _ => trivial) hrun
  refine ⟨hend.point.2, ?_⟩
  rintro message rfl
  exact hend.2

omit [Field K] [LinearOrder K] [FloorRing K] in
/-- From the second commit on the change is made, and the token of the call is used. -/
lemma reset_marked (hunique : TokenHashesUnique db) {token : String}
    {resetToken : PasswordResetToken K} {db' : Database K}
    (htoken : resetToken? platform db token = some resetToken)
    (huser : db.users.row resetToken.userId = some user) {e : Env K} (he : G e) {usedAt : K}
    (husers : db'.users = (db.setUser (resetRow user e.secret)).users)
    (htokens : db'.passwordResetTokens =
      db.passwordResetTokens.modify (markUsed user.id usedAt) id_markUsed) :
    Reset G db user db' ∧ AllUsed (platform.hashPasswordResetToken token) db' := by
  have hid : user.id = resetToken.userId := db.users.id_of_row huser
  have hmarked : ∀ row : PasswordResetToken K, row.userId = user.id →
      (markUsed user.id usedAt row).usedAt.isSome = true := by
    intro row hrow
    unfold markUsed
    split
    · rfl
    · rename_i hused
      rw [Option.isSome_iff_ne_none]
      exact fun hnone => hused ⟨hrow, hnone⟩
  refine ⟨⟨⟨e, he, ?_⟩, fun k row hrow hrowuser _ => ?_⟩, fun k row hrow hhash => ?_⟩
  · rw [husers]
    exact row_resetRow (hid ▸ huser) e.secret
  · refine ⟨markUsed user.id usedAt row, ?_, hmarked row hrowuser⟩
    rw [htokens, Table.row_modify, hrow, Option.map_some]
  · rw [htokens] at hrow
    obtain ⟨row', hrow', rfl⟩ := Option.map_eq_some_iff.1 hrow
    obtain ⟨htokenrow, htokenhash⟩ := Table.mem_select.1 (List.mem_of_head? htoken)
    -- the row with the hash is that of the token
    have hhash' : row'.tokenHash = platform.hashPasswordResetToken token :=
      (tokenHash_markUsed row').symm.trans hhash
    obtain rfl := hunique _ _ _ _ hrow' htokenrow (hhash'.trans (beq_iff_eq.1 htokenhash).symm)
    obtain rfl := Option.some.inj (hrow'.symm.trans htokenrow)
    exact hmarked _ hid.symm

/-- **A reset is all or nothing unless it stops between its first two commits.**  A call with an
unused token stops at any point, because its process dies or because a statement or a commit fails;
`n` is the number of transactions that it has committed. -/
theorem reset_all_or_nothing_iff {token newPassword : String} {inputs : List (Option (Env K))}
    {resetToken : PasswordResetToken K} {w' : World K} {n : ℕ} {p : AppProg K String}
    (hunique : TokenHashesUnique w.db)
    (htoken : resetToken? platform w.db token = some resetToken) (hunused : resetToken.usedAt = none)
    (huser : w.db.users.row resetToken.userId = some user)
    (h : (confirmPasswordReset platform token newPassword).advance (faulty platform collation) inputs
      (w, 0) = some (p, (w', n))) :
    AllOrNothing platform collation (fun e => some e ∈ inputs) token w.db user w'.db ↔ n ≠ 1 := by
  have hid : user.id = resetToken.userId := w.db.users.id_of_row huser
  have hkeeps := keeps_confirmPasswordReset platform collation (fun e => some e ∈ inputs)
    ⟨token, newPassword⟩ htoken huser
  have hpoint : ResetPoint (fun e => some e ∈ inputs) w.db user w'.db n :=
    (hkeeps.advance (fun e he e' he' => by rwa [Option.mem_def.1 he'] at he) h).point
  have hchanged : ∀ s, resetRow user s ≠ user := by
    intro s heq
    have hversion := congrArg User.tokenVersion heq
    simp [resetRow] at hversion
  have hdone : ∀ e : Env K, some e ∈ inputs → ∀ usedAt db',
      db'.users = (w.db.setUser (resetRow user e.secret)).users → db'.passwordResetTokens =
        w.db.passwordResetTokens.modify (markUsed user.id usedAt) id_markUsed →
      AllOrNothing platform collation (fun e => some e ∈ inputs) token w.db user db' := by
    intro e he usedAt db' husers htokens
    obtain ⟨hreset, hused⟩ := reset_marked (G := fun e => some e ∈ inputs) hunique htoken huser he
      husers htokens
    exact ⟨.inl hreset, fun _ db'' hlater => (hused.later hlater).refused⟩
  generalize w'.db = db' at hpoint
  cases hpoint with
  | untouched =>
      exact iff_of_true ⟨.inr ⟨hid ▸ huser, fun _ _ hrow _ _ => hrow⟩,
        fun hne => absurd (hid ▸ huser) hne⟩ nofun
  | stored e he =>
      refine iff_of_false ?_ (by simp)
      rintro ⟨⟨-, hused⟩ | ⟨hrow, -⟩, -⟩
      · obtain ⟨htokenrow, -⟩ := Table.mem_select.1 (List.mem_of_head? htoken)
        obtain ⟨row, hrow, hsome⟩ := hused _ resetToken htokenrow hid.symm hunused
        obtain rfl := Option.some.inj (htokenrow.symm.trans hrow)
        simp [hunused] at hsome
      · rw [row_resetRow (hid ▸ huser)] at hrow
        exact hchanged _ (Option.some.inj hrow)
  | marked e he usedAt => exact iff_of_true (hdone e he usedAt _ rfl rfl) (by simp)
  | audited e he usedAt createdAt gap =>
      exact iff_of_true (hdone e he usedAt _ rfl rfl) (by simp)

end

/-! ### A reset of one user -/

/-- The call for a new password, with one input for each command. -/
def sampleReset (password : String) (commands : ℕ) (w : World ℚ) :
    Option (AppProg ℚ String × World ℚ × ℕ) :=
  (confirmPasswordReset Platform.plain "token" password).advance (faulty Platform.plain Collation.plain)
    (List.replicate commands (some (ResetCalls.hashing password))) (w, 0)

/-- The call has returned. -/
def hasReturned : AppProg ℚ String → Bool
  | .ret _ => true
  | _ => false

lemma tokenHashesUnique_oneToken : TokenHashesUnique ResetCalls.oneToken.db := by
  intro k l t u hk hl _
  simp only [ResetCalls.oneToken, Table.row_insert, Table.row_empty] at hk hl
  split_ifs at hk hl with hk' hl'
  rw [hk', hl']

/-- A reset that is not interrupted. -/
theorem reset_all_or_nothing_iff_uninterrupted : ∃ (p : AppProg ℚ String) (w' : World ℚ) (user : User),
    sampleReset "new" 10 ResetCalls.oneToken = some (p, (w', 3)) ∧
      ResetCalls.oneToken.db.users.row 1 = some user ∧
      AllOrNothing Platform.plain Collation.plain
        (fun e => some e ∈ List.replicate 10 (some (ResetCalls.hashing "new"))) "token"
        ResetCalls.oneToken.db user w'.db := by
  have hrun : (sampleReset "new" 10 ResetCalls.oneToken).any (fun x => x.2.2 == 3) = true := by
    decide +kernel
  obtain ⟨⟨p, w', n⟩, h, hn⟩ := (Option.any_eq_true _ _).1 hrun
  obtain rfl : n = 3 := beq_iff_eq.1 hn
  exact ⟨p, w', _, h, rfl, (reset_all_or_nothing_iff tokenHashesUnique_oneToken rfl rfl rfl h).2
    (by decide)⟩

/-- A call that dies after its first commit has changed the password and left the token unused; the
same token then changes the password once more. -/
theorem interrupted_reset_leaves_token : ∃ (p : AppProg ℚ String) (w' : World ℚ) (user : User),
    sampleReset "new" 5 ResetCalls.oneToken = some (p, (w', 1)) ∧
      ResetCalls.oneToken.db.users.row 1 = some user ∧
      ¬ AllOrNothing Platform.plain Collation.plain
        (fun e => some e ∈ List.replicate 5 (some (ResetCalls.hashing "new"))) "token"
        ResetCalls.oneToken.db user w'.db ∧
      ∃ message w'', sampleReset "newer" 10 w' = some (.ret message, (w'', 3)) := by
  have hrun : (sampleReset "new" 5 ResetCalls.oneToken).any (fun x => x.2.2 == 1 &&
      (x.2.1.db.users.row 1).any (fun user => user.tokenVersion == 1) &&
      (x.2.1.db.passwordResetTokens.row 1).any (fun token => token.usedAt.isNone) &&
      (sampleReset "newer" 10 x.2.1).any fun y =>
        y.2.2 == 3 && hasReturned y.1) = true := by
    decide +kernel
  obtain ⟨⟨p, w', n⟩, h, hcheck⟩ := (Option.any_eq_true _ _).1 hrun
  obtain ⟨⟨⟨hn, hversion⟩, hunused⟩, hagain⟩ : ((n = 1 ∧ (w'.db.users.row 1).any
      (fun user => user.tokenVersion == 1) = true) ∧ (w'.db.passwordResetTokens.row 1).any
      (fun token => token.usedAt.isNone) = true) ∧ (sampleReset "newer" 10 w').any (fun y =>
        y.2.2 == 3 && hasReturned y.1) = true := by
    simpa only [Bool.and_eq_true, beq_iff_eq] using hcheck
  subst hn
  refine ⟨p, w', _, h, rfl, ?_, ?_⟩
  · rintro ⟨⟨-, hused⟩ | ⟨hrow, -⟩, -⟩
    · obtain ⟨token, htoken, hsome⟩ := hused 1 _ rfl rfl rfl
      simp only [htoken, Option.any_some, Option.isNone_iff_eq_none] at hunused
      simp [hunused] at hsome
    · have hrow' : w'.db.users.row 1 = some ⟨1, 1, "ada@example.com", "", true, "user", 0⟩ := hrow
      simp [hrow'] at hversion
  · obtain ⟨⟨p', w'', m⟩, hagain, hend⟩ := (Option.any_eq_true _ _).1 hagain
    obtain ⟨hm, hret⟩ : m = 3 ∧ hasReturned p' = true := by
      simpa only [Bool.and_eq_true, beq_iff_eq] using hend
    subst hm
    cases p' with
    | ret message => exact ⟨message, w'', hagain⟩
    | raise x => nomatch hret
    | call c k => nomatch hret

end StarterBackend.Sessions

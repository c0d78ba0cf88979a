/-
Complete mediation.

Requests are served concurrently, and between the reading of a row and the commit that
rests on it other requests change the tables.  So a grant is about the past: when a
request is about to act on the world, the rows that permit it were all read, as they
were, while this request was served.
-/
import StarterBackend.Accounts.Routes

namespace StarterBackend.Accounts

open Lib App

variable {K : Type} {platform : Platform} {collation : Collation} {settings : Settings}

/-! ### Facts -/

/-- That the tables have a row. -/
inductive Fact (K : Type) where
  | user (user : User)
  | tenant (tenant : Tenant)
  | file (file : UploadedFile)
  | resetToken (token : PasswordResetToken K)

def Fact.Holds (w : World K) : Fact K → Prop
  | .user row => w.db.users.row row.id = some row
  | .tenant row => w.db.tenants.row row.id = some row
  | .file row => w.db.uploadedFiles.row row.id = some row
  | .resetToken row => w.db.passwordResetTokens.row row.id = some row

/-- The facts that a request has read. -/
def Knowledge.Has (x : Knowledge K) : Fact K → Prop
  | .user user => user ∈ x.users ∨ user ∈ x.fresh
  | .tenant tenant => tenant ∈ x.tenants
  | .file file => file ∈ x.files
  | .resetToken token => token ∈ x.resetTokens

lemma not_has_nothing (f : Fact K) : ¬ (Knowledge.nothing : Knowledge K).Has f := by
  cases f with
  | user user => exact fun h => h.elim id id
  | _ => exact fun h => h

/-! ### Replies -/

section Replies

variable {w : World K}

/-- The first of the rows that meet a condition is one of them. -/
lemma row_of_head?_select {ρ : Type} [Entity ρ] {t : Table ρ} {p : ρ → Bool} {r : ρ}
    (h : (t.select p).head? = some r) : t.row (Entity.id r) = some r ∧ p r = true :=
  Table.mem_select.1 (List.mem_of_mem_head? h)

variable [LinearOrder K]

/-- The rows of a reply are those that were asked for. -/
lemma answers_eval (q : Query) : Answers platform (.query q) (q.eval collation w.db) := by
  cases q with
  | user userId => exact fun user h => (Table.find_eq_some.1 h).1.symm
  | userInTenant userId tenantId =>
      intro user h
      obtain ⟨hfind, htenant⟩ := Option.filter_eq_some_iff.1 h
      exact ⟨(Table.find_eq_some.1 hfind).1.symm, by simpa using htenant⟩
  | userByEmail email tenantId =>
      intro user h
      simpa using (row_of_head?_select h).2
  | tenant tenantId => exact fun tenant h => (Table.find_eq_some.1 h).1.symm
  | tenantBySlug slug =>
      intro tenant h
      simpa using (row_of_head?_select h).2
  | resetToken tokenHash =>
      intro token h
      simpa using (row_of_head?_select h).2
  | file fileId => exact fun file h => (Table.find_eq_some.1 h).1.symm
  | fileInTenant fileId tenantId =>
      intro file h
      obtain ⟨hfind, htenant⟩ := Option.filter_eq_some_iff.1 h
      exact ⟨(Table.find_eq_some.1 hfind).1.symm, by simpa using htenant⟩
  | _ => trivial

/-- The tables have the rows of a reply. -/
lemma has_learn_eval {x : Knowledge K} {q : Query} {f : Fact K}
    (hf : (x.learn (.query q) (q.eval collation w.db)).Has f) : x.Has f ∨ f.Holds w := by
  have hold : ∀ {user : User} {r : Option User},
      ((user ∈ x.users ∨ r = some user) ∨ user ∈ x.fresh ∨ r = some user) →
      (∀ u, r = some u → w.db.users.row u.id = some u) →
      (user ∈ x.users ∨ user ∈ x.fresh) ∨ w.db.users.row user.id = some user := by
    rintro user r ((h | h) | h | h) hr
    · exact .inl (.inl h)
    · exact .inr (hr user h)
    · exact .inl (.inr h)
    · exact .inr (hr user h)
  cases q with
  | user userId =>
      cases f with
      | user row => exact hold hf fun u hu => (Table.find_eq_some.1 hu).2
      | _ => exact .inl hf
  | userInTenant userId tenantId =>
      cases f with
      | user row =>
          exact hold hf fun u hu => (Table.find_eq_some.1 (Option.filter_eq_some_iff.1 hu).1).2
      | _ => exact .inl hf
  | userByEmail email tenantId =>
      cases f with
      | user row => exact hold hf fun u hu => (row_of_head?_select hu).1
      | _ => exact .inl hf
  | tenant tenantId =>
      cases f with
      | tenant row => exact hf.imp id fun h => (Table.find_eq_some.1 h).2
      | _ => exact .inl hf
  | tenantBySlug slug =>
      cases f with
      | tenant row => exact hf.imp id fun h => (row_of_head?_select h).1
      | _ => exact .inl hf
  | resetToken tokenHash =>
      cases f with
      | resetToken row => exact hf.imp id fun h => (row_of_head?_select h).1
      | _ => exact .inl hf
  | file fileId =>
      cases f with
      | file row => exact hf.imp id fun h => (Table.find_eq_some.1 h).2
      | _ => exact .inl hf
  | fileInTenant fileId tenantId =>
      cases f with
      | file row =>
          exact hf.imp id fun h => (Table.find_eq_some.1 (Option.filter_eq_some_iff.1 h).1).2
      | _ => exact .inl hf
  | _ => exact .inl hf

variable [Field K] [FloorRing K]

/-- A command that does not act on the world leaves it as it is. -/
lemma exec_of_not_acts {c : Command K} {e : Env K} (hc : acts c = false) :
    (c.exec platform collation e w).2.db = w.db ∧ (c.exec platform collation e w).2.keys = w.keys ∧
      (c.exec platform collation e w).2.objects = w.objects ∧
      (c.exec platform collation e w).2.jobs = w.jobs := by
  have hstatements : ∀ statements, c ≠ .commit statements := by
    rintro statements rfl
    cases hc
  have hkeys : c.setsKeys = false := by
    cases c with
    | revokeRefreshToken | redisSet | redisIncr => cases hc
    | _ => rfl
  refine ⟨Command.db_exec hstatements, Command.keys_exec hkeys, ?_⟩
  cases c with
  | enqueueJob | putObject | deleteObject => cases hc
  | commit statements => exact absurd rfl (hstatements statements)
  | redisIncr key => cases hkeys
  | _ =>
      constructor <;> simp only [Command.exec, unlessFails, readObject, writeObjects] <;>
        first
          | rfl
          | split <;> rfl

/-- A command of Redis leaves the other keys alone. -/
lemma keys_exec_redisSet_of_ne {key other value : String} {ttl : ℕ} {e : Env K} (h : other ≠ key) :
    ((Command.redisSet key value ttl).exec platform collation e w).2.keys other = w.keys other := by
  simp only [Command.exec, unlessFails]
  split_ifs
  · rfl
  · have hset : w.keys.setEx e.now key value ttl other = w.keys other := Redis.Keys.setEx_of_ne h
    exact hset

lemma keys_exec_revokeRefreshToken_of_ne {jti key : String} {exp : ℤ} {requireNew : Bool} {e : Env K}
    (h : key ≠ revokedKey jti) :
    ((Command.revokeRefreshToken jti exp requireNew).exec platform collation e w).2.keys key =
      w.keys key := by
  have hrevoke : (App.revokeRefreshToken w.keys e.now e.lingers jti exp requireNew).2 key =
      w.keys key := by
    rcases le_or_gt exp (timestamp e.now) with hexp | hexp
    · rw [revokeRefreshToken_of_le hexp]
    · cases requireNew with
      | false =>
          rw [revokeRefreshToken_again hexp]
          exact Redis.Keys.setEx_of_ne h
      | true =>
          rw [revokeRefreshToken_new hexp, Redis.Keys.setNxEx]
          split_ifs
          · rfl
          · exact Redis.Keys.setEx_of_ne h
  simp only [Command.exec, unlessFails]
  split_ifs
  · rfl
  · exact hrevoke

lemma keys_exec_redisIncr_of_ne {key other : String} {e : Env K} (h : other ≠ key) :
    ((Command.redisIncr key).exec platform collation e w).2.keys other = w.keys other := by
  simp only [Command.exec, unlessFails]
  split
  · rfl
  · rename_i n keys hincr
    obtain ⟨entry, rfl, -⟩ := Redis.Keys.incr_eq_some hincr
    split_ifs
    · rfl
    · have hput : w.keys.put key entry other = w.keys other := Redis.Keys.put_of_ne h
      exact hput

/-- **A reply tells the truth** about the world after the command. -/
lemma truthful {c : Command K} {e : Env K} {x : Knowledge K} {r : c.Reply} {w' : World K}
    (h : interp platform collation c e w = some (.ok r, w')) :
    Answers platform c r ∧ ∀ f : Fact K, (x.learn c r).Has f → x.Has f ∨ f.Holds w' := by
  obtain ⟨-, hr, rfl⟩ := interp_eq_some h
  obtain rfl := Except.ok.inj hr
  cases c with
  | query q => exact ⟨answers_eval q, fun f hf => has_learn_eval (w := w) hf⟩
  | uuid7 => exact ⟨⟨w.uuids, rfl⟩, fun f hf => .inl hf⟩
  | decodeToken token =>
      refine ⟨fun claims hclaims => ?_, fun f hf => .inl hf⟩
      exact (Option.filter_eq_some_iff.1 hclaims).1
  | commit statements =>
      refine ⟨trivial, fun f hf => .inl ?_⟩
      cases f with
      | user row => exact hf.imp id fun h => h.elim
      | _ => exact hf
  | _ => exact ⟨trivial, fun f hf => .inl hf⟩

end Replies

/-! ### Runs -/

section Runs

variable [Field K] [LinearOrder K] [FloorRing K] {ι : Type} [DecidableEq ι] {w : World K}
  {as : List (PoolAction ι (ApiRequest settings) (Env K))} {a : PoolAction ι (ApiRequest settings) (Env K)}
  {s t : Api settings ι K} {i : ι} {q : ApiRequest settings}

variable (platform collation) in
/-- What the process knows it has read in the run, while it served the request. -/
def ReadDuring (w : World K) (as : List (PoolAction ι (ApiRequest settings) (Env K))) (i : ι)
    (q : ApiRequest settings) (x : Knowledge K) : Prop :=
  ∀ f : Fact K, x.Has f →
    Pool.Witnessed (interp platform collation) (ApiRequest.program platform settings) w as i q
      fun w => f.Holds w

/-- Every request of a run goes on as what it has read permits. -/
lemma allInformed_exec (h : exec (Api.step platform collation settings) (Pool.initial w) as = some s) :
    Pool.AllInformed (Answers platform) Knowledge.learn
      (fun q x c => Granted platform settings x q c) (MintedOnly platform settings)
      (ReadDuring platform collation w as) s :=
  Pool.allInformed_witnessed Knowledge.Has Fact.Holds not_has_nothing
    (fun q => (lawful_program q).informed) (fun _ _ _ _ _ _ hexec => truthful hexec) h

end Runs

end StarterBackend.Accounts

/-
How stale the cached lists of users are.

Calls of `get_users` and changes of users run at the same time, and each command of the
cache can fail on its own, also after it has taken effect.  A list is stored under the
version that was read before its query, and a version that cannot be read counts as 0, so
an old version says nothing about the age of what is stored under it.  What bounds the age
of an entry is its time to live alone: the entry is the page of its tenant and parameters
at the moment of a query, and it is gone `users_cache_ttl_seconds` after it was stored.

* `cache_staleness_bounded`: in every run, the page that a call returns is the page of the
  tables at a moment that is at most the time to live and the time between a query and its
  cache write ago; a call raises an exception only if its query does, and no change depends
  on what the cache replies.
-/
import StarterBackend.Users.Mutations
import StarterBackend.Users.Paging

namespace StarterBackend.Users

open Lib App

/-! ### The calls -/

/-- The calls that change users. -/
inductive UserChange where
  | register (email password : String) (requestedSlug : Option String)
  | byToken (token : String) (requestedSlug : Option String) (m : AdminMutation)
  | confirmReset (token newPassword : String)

inductive CacheCall where
  | list (tenantId : ℕ) (q : GetUsers)
  | change (m : UserChange)

/-- The calls, and when each of them has sent its last query and its last command. -/
structure CacheCalls (ι K : Type) where
  pool : Pool ι CacheCall (AppProg K (Option UserListPage)) (World K)
  queried : ι → K
  moved : ι → K

/-- An input of a command; the reply of a command of the cache can be lost. -/
structure CacheInput (K : Type) where
  env : Env K
  lost : Bool := false

section Programs

variable {K : Type}

/-- The command is one of Redis. -/
def usesRedis : Command K → Bool
  | .revokeRefreshToken _ _ _ => true
  | .redisExists _ => true
  | .redisGet _ => true
  | .redisSet _ _ _ => true
  | .redisIncr _ => true
  | .enqueueJob _ => true
  | _ => false

/-- What the application sees of a command of the cache that failed after it was executed. -/
def lostRedis : (c : Command K) → c.Reply → c.Reply
  | .redisGet _, _ => none
  | .redisSet _ _ _, _ => none
  | .redisIncr _, _ => none
  | _, r => r

/-- The command is a query. -/
def isQuery : Command K → Bool
  | .query _ => true
  | _ => false

variable [Field K] [LinearOrder K] [FloorRing K] (platform : Platform) (settings : Settings)

def UserChange.program : UserChange → AppProg K Unit
  | .register email password requestedSlug =>
      (App.register settings email password requestedSlug).bind fun _ => .ret ()
  | .byToken token requestedSlug m => m.handler token requestedSlug
  | .confirmReset token newPassword =>
      (confirmPasswordReset platform token newPassword).bind fun _ => .ret ()

def CacheCall.program : CacheCall → AppProg K (Option UserListPage)
  | .list tenantId q => (getUsers platform settings tenantId q).bind fun page => .ret (some page)
  | .change m => (m.program platform settings).bind fun _ => .ret none

end Programs

namespace CacheCalls

variable {K : Type} [Field K] [LinearOrder K] [FloorRing K] {ι : Type} [DecidableEq ι]
  (platform : Platform) (collation : Collation) (settings : Settings)

/-- The interpretation in which a command of the cache can fail after it was executed. -/
def lossy : Prog.Interp (Command K) Command.Reply AppError (World K) (CacheInput K) :=
  fun c e w => (interp platform collation c e.env w).map fun x =>
    (x.1.map fun r => if e.lost then lostRedis c r else r, x.2)

/-- When the calls have sent their last queries, after a step. -/
def queriedAfter (s : CacheCalls ι K) : PoolAction ι CacheCall (CacheInput K) → ι → K
  | .step i e =>
      match s.pool.calls i with
      | some (_, .call c _) => if isQuery c then Function.update s.queried i e.env.now else s.queried
      | _ => s.queried
  | _ => s.queried

/-- When the calls have sent their last commands, after a step. -/
def movedAfter (s : CacheCalls ι K) : PoolAction ι CacheCall (CacheInput K) → ι → K
  | .step i e => Function.update s.moved i e.env.now
  | _ => s.moved

def step (s : CacheCalls ι K) (a : PoolAction ι CacheCall (CacheInput K)) :
    Option (CacheCalls ι K) :=
  (Pool.next (lossy platform collation) (CacheCall.program platform settings) s.pool a).map
    fun pool => ⟨pool, s.queriedAfter a, s.movedAfter a⟩

/-- No call has started. -/
def initial (w : World K) : CacheCalls ι K := ⟨Pool.initial w, fun _ => w.clock, fun _ => w.clock⟩

/-- Redis returns no key after its deadline, and a page is stored at most `d` after its query. -/
def Prompt (d : K) (s : CacheCalls ι K) : PoolAction ι CacheCall (CacheInput K) → Prop
  | .step i e => e.env.lingers = false ∧ ∀ q key value ttl k,
      s.pool.calls i = some (q, .call (.redisSet key value ttl) k) → e.env.now ≤ s.queried i + d
  | _ => True

/-- There are no lists in the cache, and the versions are numbers. -/
structure Cold (platform : Platform) (w : World K) : Prop where
  pages : ∀ tenantId version q, w.keys (usersListCacheKey platform tenantId version q) = none
  versions : AdminMutation.VersionsCount w.keys

/-- No two requests of the run have parameters with one hash. -/
def CollisionFree (platform : Platform) (as : List (PoolAction ι CacheCall (CacheInput K))) : Prop :=
  ∀ i j tenantId tenantId' q q', .start i (.list tenantId q) ∈ as →
    .start j (.list tenantId' q') ∈ as →
      platform.sha256 q.cacheParams.dumps = platform.sha256 q'.cacheParams.dumps →
        q.cacheParams.dumps = q'.cacheParams.dumps

end CacheCalls

/-! ### Changes do not depend on the cache -/

section Changes

variable {K : Type}

/-- The program does not use Redis. -/
structure RedisFree {α : Type} (p : AppProg K α) : Prop where
  every : p.Every fun c _ => usesRedis c = false

/-- **The program does not depend on the cache**: it increments versions, and goes on in the same way
whatever Redis replies. -/
structure IgnoresCache {α : Type} (p : AppProg K α) : Prop where
  every : p.Every fun c k => usesRedis c = true →
    (∃ tenantId, c = .redisIncr (buildUsersListCacheVersionKey tenantId)) ∧ ∀ r r', k r = k r'

variable {α β : Type}

lemma RedisFree.bind {p : AppProg K α} {f : α → AppProg K β} (hp : RedisFree p)
    (hf : ∀ a, RedisFree (f a)) : RedisFree (p.bind f) :=
  ⟨Prog.Every.bind hp.every fun a => (hf a).every⟩

lemma RedisFree.ignores_bind {p : AppProg K α} {f : α → AppProg K β} (hp : RedisFree p)
    (hf : ∀ a, IgnoresCache (f a)) : IgnoresCache (p.bind f) :=
  ⟨Prog.Every.bind (hp.every.imp fun _ _ hc huses => by cases hc.symm.trans huses) fun a =>
    (hf a).every⟩

lemma IgnoresCache.bind_ret {p : AppProg K α} (hp : IgnoresCache p) (f : α → β) :
    IgnoresCache (p.bind fun a => .ret (f a)) := by
  obtain ⟨hp⟩ := hp
  constructor
  induction p with
  | ret a => trivial
  | raise x => trivial
  | call c k ih =>
      refine ⟨fun huses => ?_, fun r => ih r (hp.2 r)⟩
      obtain ⟨hversion, hsame⟩ := hp.1 huses
      exact ⟨hversion, fun r r' => congrArg (fun p => p.bind fun a => .ret (f a)) (hsame r r')⟩

lemma redisFree_ret (a : α) : RedisFree (.ret a : AppProg K α) := ⟨trivial⟩

lemma redisFree_raise (x : AppError) : RedisFree (.raise x : AppProg K α) := ⟨trivial⟩

lemma redisFree_getOrRaise (e : AppError) (x : Option α) :
    RedisFree (.getOrRaise e x : AppProg K α) := ⟨Prog.every_getOrRaise⟩

lemma redisFree_issue {c : Command K} (hc : usesRedis c = false) : RedisFree (issue c) :=
  ⟨hc, fun _ => trivial⟩

lemma ignores_ret (a : α) : IgnoresCache (.ret a : AppProg K α) := ⟨trivial⟩

lemma ignores_raise (x : AppError) : IgnoresCache (.raise x : AppProg K α) := ⟨trivial⟩

lemma ignores_invalidate_bind {tenantId : ℕ} {f : Unit → AppProg K β} (hf : IgnoresCache (f ())) :
    IgnoresCache ((invalidateUsersListCache tenantId).bind f) :=
  ⟨fun _ => ⟨⟨tenantId, rfl⟩, fun _ _ => rfl⟩, fun _ => hf.every⟩

lemma redisFree_commit (statements : List (Statement K)) : RedisFree (commit statements) :=
  (redisFree_issue rfl).bind fun _ => redisFree_getOrRaise _ _

lemma redisFree_refreshUser (userId : ℕ) : RedisFree (refreshUser (K := K) userId) :=
  (redisFree_issue rfl).bind fun _ => redisFree_getOrRaise _ _

lemma redisFree_getActiveTenantBySlug (slug : String) :
    RedisFree (getActiveTenantBySlug (K := K) slug) := by
  refine (redisFree_issue rfl).bind fun tenant => ?_
  cases tenant with
  | none => exact redisFree_raise _
  | some tenant =>
      dsimp only
      split_ifs
      · exact redisFree_ret _
      · exact redisFree_raise _

lemma redisFree_assertActiveTenantMembership (user : User) :
    RedisFree (assertActiveTenantMembership (K := K) user) := by
  refine (redisFree_issue rfl).bind fun tenant => ?_
  cases tenant with
  | none => exact redisFree_raise _
  | some tenant =>
      dsimp only
      split_ifs
      · exact redisFree_ret _
      · exact redisFree_raise _

lemma redisFree_getCurrentUser (token : String) (requestedSlug : Option String) :
    RedisFree (getCurrentUser (K := K) token requestedSlug) := by
  refine (redisFree_issue rfl).bind fun decoded => ?_
  refine (redisFree_getOrRaise _ _).bind fun claims => ?_
  refine (redisFree_getOrRaise _ _).bind fun access => ?_
  refine (redisFree_issue rfl).bind fun user => ?_
  cases user with
  | none => exact redisFree_raise _
  | some user =>
      dsimp only
      split_ifs
      · exact redisFree_raise _
      · exact redisFree_raise _
      · refine (redisFree_assertActiveTenantMembership user).bind fun _ => ?_
        refine RedisFree.bind ?_ fun _ => redisFree_ret _
        cases requestedSlug with
        | none => exact redisFree_ret _
        | some slug =>
            refine (redisFree_getActiveTenantBySlug slug).bind fun tenant => ?_
            split_ifs
            · exact redisFree_ret _
            · exact redisFree_raise _

lemma redisFree_requirePermission (permissions : List Permission) (token : String)
    (requestedSlug : Option String) :
    RedisFree (requirePermission (K := K) permissions token requestedSlug) := by
  refine (redisFree_getCurrentUser token requestedSlug).bind fun currentUser => ?_
  split_ifs
  · exact redisFree_ret _
  · exact redisFree_raise _

lemma ignores_commitUserMutationWithAudit_bind {statements : List (Statement K)} {currentUser : User}
    {action : AuditAction} {target : ℕ} {f : Unit → AppProg K β} (hf : IgnoresCache (f ())) :
    IgnoresCache ((commitUserMutationWithAudit statements currentUser action target).bind f) := by
  unfold commitUserMutationWithAudit
  rw [Prog.bind_def, Prog.bind_assoc]
  exact (redisFree_commit _).ignores_bind fun _ => ignores_invalidate_bind hf

/-- A program whose result is passed on. -/
lemma RedisFree.ignores {p : AppProg K α} (hp : RedisFree p) : IgnoresCache p := by
  rw [← Prog.bind_ret p]
  exact hp.ignores_bind ignores_ret

lemma ignores_patchUser (token : String) (requestedSlug : Option String) (userId : ℤ)
    (update : UserAdminUpdate) :
    IgnoresCache (patchUser (K := K) token requestedSlug userId update) := by
  refine (redisFree_getCurrentUser token requestedSlug).ignores_bind fun currentUser => ?_
  refine (redisFree_issue rfl).ignores_bind fun row => ?_
  cases row with
  | none => exact ignores_raise _
  | some row =>
      dsimp only
      split_ifs
      · unfold patchLoadedUser
        split_ifs
        · exact ignores_commitUserMutationWithAudit_bind (redisFree_refreshUser _).ignores
        · refine (redisFree_commit _).ignores_bind fun _ => ?_
          refine (redisFree_refreshUser _).ignores_bind fun updatedUser => ?_
          exact ignores_invalidate_bind (ignores_ret updatedUser)
      · exact ignores_raise _

lemma ignores_commitFoundUser (currentUser : User) (action : AuditAction)
    (found : Option (User × List (Statement K))) :
    IgnoresCache (commitFoundUser currentUser action found) := by
  cases found with
  | none => exact ignores_raise _
  | some found => exact ignores_commitUserMutationWithAudit_bind (redisFree_refreshUser _).ignores

lemma ignores_handler (token : String) (requestedSlug : Option String) (m : AdminMutation) :
    IgnoresCache (m.handler (K := K) token requestedSlug) := by
  cases m with
  | patch userId update => exact (ignores_patchUser token requestedSlug userId update).bind_ret _
  | deactivate userId =>
      refine IgnoresCache.bind_ret ?_ _
      refine (redisFree_requirePermission _ token requestedSlug).ignores_bind fun currentUser => ?_
      refine RedisFree.ignores_bind ?_ (ignores_commitFoundUser currentUser _)
      exact ((redisFree_issue rfl).bind fun _ => redisFree_ret _).bind fun _ => redisFree_ret _
  | activate userId =>
      refine IgnoresCache.bind_ret ?_ _
      refine (redisFree_requirePermission _ token requestedSlug).ignores_bind fun currentUser => ?_
      refine RedisFree.ignores_bind ?_ (ignores_commitFoundUser currentUser _)
      exact ((redisFree_issue rfl).bind fun _ => redisFree_ret _).bind fun _ => redisFree_ret _
  | remove userId =>
      refine (redisFree_requirePermission _ token requestedSlug).ignores_bind fun currentUser => ?_
      refine RedisFree.ignores_bind ((redisFree_issue rfl).bind fun _ => redisFree_ret _) fun user => ?_
      cases user with
      | none => exact ignores_raise _
      | some user =>
          show IgnoresCache (commitUserMutationWithAudit (deleteUser user) currentUser .userDeleted user.id)
          rw [← Prog.bind_ret (commitUserMutationWithAudit _ _ _ _)]
          exact ignores_commitUserMutationWithAudit_bind (ignores_ret ())

lemma ignores_register (settings : Settings) (email password : String)
    (requestedSlug : Option String) :
    IgnoresCache (register (K := K) settings email password requestedSlug) := by
  refine (redisFree_getActiveTenantBySlug _).ignores_bind fun tenant => ?_
  split_ifs
  · refine (redisFree_issue rfl).ignores_bind fun user => ?_
    cases user with
    | some user => exact ignores_raise _
    | none =>
        refine (redisFree_issue rfl).ignores_bind fun hashedPassword => ?_
        refine (redisFree_commit _).ignores_bind fun id => ?_
        refine (redisFree_getOrRaise _ _).ignores_bind fun userId => ?_
        refine (redisFree_refreshUser userId).ignores_bind fun user => ?_
        exact ignores_invalidate_bind (ignores_ret user)
  · exact ignores_raise _

lemma ignores_confirmPasswordReset [Field K] [LinearOrder K] (platform : Platform)
    (token newPassword : String) :
    IgnoresCache (confirmPasswordReset (K := K) platform token newPassword) := by
  refine (redisFree_issue rfl).ignores_bind fun resetToken => ?_
  cases resetToken with
  | none => exact ignores_raise _
  | some resetToken =>
      refine (redisFree_issue rfl).ignores_bind fun time => ?_
      split_ifs
      · exact ignores_raise _
      · exact ignores_raise _
      · refine (redisFree_issue rfl).ignores_bind fun user => ?_
        cases user with
        | none => exact ignores_raise _
        | some user =>
            dsimp only
            split_ifs
            · exact ignores_raise _
            · refine (redisFree_issue rfl).ignores_bind fun hashedPassword => ?_
              refine (redisFree_commit _).ignores_bind fun _ => ?_
              refine (redisFree_refreshUser _).ignores_bind fun user => ?_
              refine ignores_invalidate_bind (RedisFree.ignores ?_)
              refine (redisFree_commit _).bind fun _ => ?_
              refine (redisFree_refreshUser _).bind fun user => ?_
              exact ((redisFree_commit _).bind fun _ => redisFree_ret _).bind fun _ => redisFree_ret _

/-- **A change of a user does not depend on the cache.** -/
lemma ignores_program [Field K] [LinearOrder K] (platform : Platform) (settings : Settings)
    (m : UserChange) : IgnoresCache (m.program (K := K) platform settings) := by
  cases m with
  | register email password requestedSlug =>
      exact (ignores_register settings email password requestedSlug).bind_ret _
  | byToken token requestedSlug m => exact ignores_handler token requestedSlug m
  | confirmReset token newPassword =>
      exact (ignores_confirmPasswordReset platform token newPassword).bind_ret _

end Changes

/-! ### Keys and entries -/

section Keys

variable (platform : Platform)

lemma colon_notMem_repr (n : ℤ) : ':' ∉ n.repr.toList := fun h => by
  obtain h | h := PyText.mem_repr h
  · cases h
  · cases h

/-- The characters of the key of a list. -/
lemma toList_usersListCacheKey (tenantId : ℕ) (version : ℤ) (q : GetUsers) :
    (usersListCacheKey platform tenantId version q).toList = "tenant:".toList ++
      ((tenantId : ℤ).repr.toList ++ ':' :: ("users:list:v1:v".toList ++ (version.repr.toList ++
        ':' :: (platform.sha256 q.cacheParams.dumps).toList))) := by
  simp only [usersListCacheKey, buildTenantCachePrefix, String.toList_append, List.append_assoc]
  rfl

lemma toList_versionKey (tenantId : ℕ) :
    (buildUsersListCacheVersionKey tenantId).toList = "tenant:".toList ++
      ((tenantId : ℤ).repr.toList ++ ':' :: "users:list:version".toList) := by
  simp only [buildUsersListCacheVersionKey, buildTenantCachePrefix, String.toList_append,
    List.append_assoc]
  rfl

variable {platform}

/-- **A key names the tenant, the version and the hash of the parameters.** -/
lemma usersListCacheKey_inj {tenantId tenantId' : ℕ} {version version' : ℤ} {q q' : GetUsers}
    (h : usersListCacheKey platform tenantId version q =
      usersListCacheKey platform tenantId' version' q') :
    tenantId = tenantId' ∧
      platform.sha256 q.cacheParams.dumps = platform.sha256 q'.cacheParams.dumps := by
  have hlist := congrArg String.toList h
  rw [toList_usersListCacheKey, toList_usersListCacheKey] at hlist
  obtain ⟨htenant, hrest⟩ := PyText.append_cons_inj (colon_notMem_repr _) (colon_notMem_repr _)
    (List.append_cancel_left hlist)
  obtain ⟨-, hhash⟩ := PyText.append_cons_inj (colon_notMem_repr _) (colon_notMem_repr _)
    (List.append_cancel_left hrest)
  exact ⟨Int.ofNat.inj (PyText.repr_injective (String.toList_injective htenant)),
    String.toList_injective hhash⟩

/-- The key of a list is the key of no version. -/
lemma usersListCacheKey_ne_versionKey (tenantId tenantId' : ℕ) (version : ℤ) (q : GetUsers) :
    usersListCacheKey platform tenantId version q ≠ buildUsersListCacheVersionKey tenantId' := by
  intro h
  have hlist := congrArg String.toList h
  rw [toList_usersListCacheKey, toList_versionKey] at hlist
  obtain ⟨-, hrest⟩ := PyText.append_cons_inj (colon_notMem_repr _) (colon_notMem_repr _)
    (List.append_cancel_left hlist)
  have htwelfth := congrArg (·[12]?) hrest
  simp at htwelfth

lemma readUser_ofJson_toJson (user : UserRead) : UserRead.ofJson user.toJson = some user := by
  simp [UserRead.toJson, UserRead.ofJson, Json.lookup]

lemma page_ofJson_toJson (page : UserListPage) : UserListPage.ofJson page.toJson = some page := by
  obtain ⟨items, nextCursor⟩ := page
  have hitems : (items.map UserRead.toJson).mapM UserRead.ofJson = some items := by
    induction items with
    | nil => rfl
    | cons user users ih => simp [readUser_ofJson_toJson, ih]
  cases nextCursor <;>
    simp [UserListPage.toJson, UserListPage.ofJson, Json.lookup, jsonOption, hitems]

lemma wf_page (page : UserListPage) : page.toJson.wf = true := by
  have hitems : ∀ v ∈ page.items.map UserRead.toJson, v.wf = true := by
    intro v hv
    obtain ⟨user, -, rfl⟩ := List.mem_map.1 hv
    simp [UserRead.toJson, Json.wf, Json.wfFields]
  simp [UserListPage.toJson, Json.wf, Json.wfFields, Json.wfItems_iff.2 hitems]

/-- **What was stored is what is read.** -/
lemma cachedPage_dumps {K : Type} (page : UserListPage) :
    cachedPage (K := K) (some (some page.toJson.dumps)) = .ret (some page) := by
  simp [cachedPage, Json.loads_dumps (wf_page page), page_ofJson_toJson, Prog.getOrRaise,
    orUnhandled]

end Keys

/-! ### Where a call of `get_users` stands -/

section Phases

variable {K : Type} (platform : Platform) (settings : Settings) (tenantId : ℕ) (q : GetUsers)

/-- What `get_users` does with the page that it has read. -/
def keepPage (key : String) (page : UserListPage) : AppProg K (Option UserListPage) :=
  if settings.usersCacheEnabled then
    (issue (.redisSet key page.toJson.dumps settings.usersCacheTtlSeconds)).bind fun _ =>
      .ret (some page)
  else .ret (some page)

/-- What `get_users` does with what the cache has. -/
def usePage (key : String) : Option UserListPage → AppProg K (Option UserListPage)
  | some page => .ret (some page)
  | none => (readUsersPage platform tenantId q).bind (keepPage settings key)

lemma getUsersUnder_bind (key : String) :
    ((getUsersUnder (K := K) platform settings tenantId q key).bind fun page => .ret (some page)) =
      if settings.usersCacheEnabled then
        (getCachedPage key).bind (usePage platform settings tenantId q key)
      else (readUsersPage platform tenantId q).bind (keepPage settings key) := by
  have hkeep : settings.usersCacheEnabled = false →
      keepPage (K := K) settings key = fun page => .ret (some page) := by
    intro hcache
    funext page
    rw [keepPage, hcache]
    rfl
  unfold getUsersUnder
  split_ifs with hcache
  · rw [Prog.bind_def, Prog.bind_assoc]
    congr 1
    funext cached
    cases cached with
    | some page => rfl
    | none =>
        simp only [usePage, Prog.bind_def, Prog.bind_assoc]
        congr 1
        funext page
        rw [keepPage, if_pos hcache]
        rfl
  · rw [hkeep (by simpa using hcache)]

/-- **A page is read by one query**, unless the cursor is refused. -/
lemma readUsersPage_cases :
    (∃ x, readUsersPage (K := K) platform tenantId q = .raise x) ∨
    ∃ usersQuery, ∃ result : Option (List User) → Except AppError UserListPage,
      readUsersPage (K := K) platform tenantId q =
        .call (.query (.users usersQuery)) fun reply => .ofExcept (result reply) := by
  have hkeyset : ∀ after, ∃ usersQuery,
      ∃ result : Option (List User) → Except AppError UserListPage,
        keysetPage (K := K) platform tenantId q after =
          .call (.query (.users usersQuery)) fun reply => .ofExcept (result reply) := by
    intro after
    refine ⟨q.usersQuery tenantId after 0, fun reply => reply.elim (.error .unhandled) fun users =>
      .ok ⟨users.map User.read, nextCursor platform q users⟩, ?_⟩
    refine congrArg (Prog.call _) (funext fun reply => ?_)
    cases reply <;> rfl
  rcases hskip : q.skip.filter (0 < ·) with _ | skip
  · rcases hcursor : q.cursor with _ | cursor
    · rw [readUsersPage_first hskip hcursor]
      exact .inr (hkeyset none)
    · rw [readUsersPage_next hskip hcursor]
      rcases cursorPosition_cases (K := K) platform cursor q with ⟨position, hp⟩ | ⟨x, hp⟩
      · rw [hp]
        exact .inr (hkeyset (some position))
      · rw [hp]
        exact .inl ⟨x, rfl⟩
  · rw [readUsersPage_offset hskip]
    refine .inr ⟨q.usersQuery tenantId none skip, fun reply => reply.elim (.error .unhandled)
      fun users => .ok ⟨users.map User.read, none⟩, ?_⟩
    refine congrArg (Prog.call _) (funext fun reply => ?_)
    cases reply <;> rfl

/-- **Where a call of `get_users` stands**, and what it knows: `yields since x` says that the request
yields `x` on the tables at a moment that is not before `since`. -/
inductive ListPhase [Field K] (d queried moved : K)
    (yields : K → Except AppError UserListPage → Prop) : AppProg K (Option UserListPage) → Prop
  | starts : ListPhase d queried moved yields
      ((getUsers platform settings tenantId q).bind fun page => .ret (some page))
  | looks (version : ℤ) : settings.usersCacheEnabled = true → ListPhase d queried moved yields
      ((getCachedPage (usersListCacheKey platform tenantId version q)).bind
        (usePage platform settings tenantId q (usersListCacheKey platform tenantId version q)))
  | reads (version : ℤ) : ListPhase d queried moved yields
      ((readUsersPage platform tenantId q).bind
        (keepPage settings (usersListCacheKey platform tenantId version q)))
  | stores (version : ℤ) (page : UserListPage) : settings.usersCacheEnabled = true →
      yields queried (.ok page) → ListPhase d queried moved yields
        (keepPage settings (usersListCacheKey platform tenantId version q) page)
  | returned (page : UserListPage) : yields (moved - settings.usersCacheTtlSeconds - d) (.ok page) →
      ListPhase d queried moved yields (.ret (some page))
  | failed (x : AppError) (since : K) : yields since (.error x) →
      ListPhase d queried moved yields (.raise x)

variable {platform settings tenantId q}

lemma ListPhase.imp [Field K] {d queried moved : K}
    {yields yields' : K → Except AppError UserListPage → Prop} {p : AppProg K (Option UserListPage)}
    (hp : ListPhase platform settings tenantId q d queried moved yields p)
    (h : ∀ since x, yields since x → yields' since x) :
    ListPhase platform settings tenantId q d queried moved yields' p := by
  cases hp with
  | starts => exact .starts
  | looks version hcache => exact .looks version hcache
  | reads version => exact .reads version
  | stores version page hcache hpage => exact .stores version page hcache (h _ _ hpage)
  | returned page hpage => exact .returned page (h _ _ hpage)
  | failed x since hx => exact .failed x since (h _ _ hx)

end Phases

section PhaseSteps

variable {K : Type} [Field K] [LinearOrder K] [IsStrictOrderedRing K] [FloorRing K]
  {platform : Platform} {collation : Collation} {settings : Settings} {tenantId : ℕ} {q : GetUsers}
  {db : Database K}

omit [Field K] [IsStrictOrderedRing K] [FloorRing K] in
lemma pageOn_of_raise {x : AppError}
    (h : readUsersPage (K := K) platform tenantId q = .raise x) :
    pageOn platform collation tenantId q db = some (.error x) := by
  rw [pageOn, h]
  rfl

omit [Field K] [IsStrictOrderedRing K] [FloorRing K] in
lemma pageOn_of_call {usersQuery : UsersQuery}
    {result : Option (List User) → Except AppError UserListPage}
    (h : readUsersPage (K := K) platform tenantId q =
      .call (.query (.users usersQuery)) fun reply => .ofExcept (result reply)) :
    pageOn platform collation tenantId q db =
      some (result ((Query.users usersQuery).eval collation db)) := by
  rw [pageOn, h]
  simp only [Prog.run, onDatabase, Prog.run_ofExcept]
  rfl

omit [IsStrictOrderedRing K] in
/-- A text that `GET` replies. -/
lemma get_of_reply {e : Env K} {w : World K} {lost : Bool} {key text : String}
    (h : (if lost then lostRedis (.redisGet key)
      ((Command.redisGet key).exec platform collation e w).1
      else ((Command.redisGet key).exec platform collation e w).1) = some (some text)) :
    w.keys.get e.now e.lingers key = some text := by
  cases lost with
  | true => cases h
  | false =>
      simp only [Bool.false_eq_true, if_false, Command.exec, unlessFails] at h
      split_ifs at h
      exact Option.some.inj h

/-- **One command of `get_users`.** -/
lemma ListPhase.step {d queried moved : K} {yields yields' : K → Except AppError UserListPage → Prop}
    {c : Command K} {k : c.Reply → AppProg K (Option UserListPage)} {e : Env K} {w : World K}
    (lost : Bool)
    (hp : ListPhase platform settings tenantId q d queried moved yields (.call c k))
    (hmono : ∀ since x, yields since x → yields' since x)
    (hearlier : ∀ {since since'} x, since' ≤ since → yields' since x → yields' since' x)
    (hnow : isQuery c = true → ∀ x, pageOn platform collation tenantId q w.db = some x →
      yields' e.now x)
    (hversions : AdminMutation.VersionsCount w.keys)
    (hhit : ∀ version text, w.keys.get e.now e.lingers (usersListCacheKey platform tenantId version q) =
      some text → ∃ page, text = page.toJson.dumps ∧
        yields' (e.now - settings.usersCacheTtlSeconds - d) (.ok page))
    (hd : 0 ≤ d) (hstore : ∀ key value ttl, c = .redisSet key value ttl → e.now ≤ queried + d) :
    let r := (c.exec platform collation e w).1
    ListPhase platform settings tenantId q d (if isQuery c then e.now else queried) e.now yields'
      (k (if lost then lostRedis c r else r)) := by
  have hstale : e.now - settings.usersCacheTtlSeconds - d ≤ e.now := by
    have : (0 : K) ≤ settings.usersCacheTtlSeconds := Nat.cast_nonneg _
    linarith
  generalize hprog : Prog.call c k = p at hp
  intro r
  cases hp with
  | starts =>
      obtain ⟨rfl, hk⟩ := Prog.call.inj hprog
      obtain rfl := eq_of_heq hk
      -- the version that the call goes on with
      have hreply : ∀ reply : Option (Option String), (∀ text, reply = some (some text) →
          (PyText.parseInt text).isSome) → ∃ version, cacheVersion (K := K) reply = .ret version := by
        intro reply hnumber
        rcases reply with _ | _ | text
        · exact ⟨0, rfl⟩
        · exact ⟨0, rfl⟩
        · obtain ⟨version, hversion⟩ := Option.isSome_iff_exists.1 (hnumber text rfl)
          exact ⟨version, by rw [cacheVersion, hversion]; rfl⟩
      obtain ⟨version, hversion⟩ := hreply
        (if lost then lostRedis (.redisGet (buildUsersListCacheVersionKey tenantId)) r else r) (by
          intro text htext
          have hget : w.keys.get e.now e.lingers (buildUsersListCacheVersionKey tenantId) =
              some text := get_of_reply htext
          obtain ⟨entry, hentry, rfl⟩ := Option.map_eq_some_iff.1 hget
          exact hversions tenantId entry (Option.filter_eq_some_iff.1 hentry).1)
      show ListPhase platform settings tenantId q d queried e.now yields'
        ((((cacheVersion _).bind fun version => .ret (usersListCacheKey platform tenantId version q)).bind
          (getUsersUnder platform settings tenantId q)).bind fun page => .ret (some page))
      rw [hversion, Prog.ret_bind, Prog.ret_bind, getUsersUnder_bind]
      split_ifs with hcache
      · exact .looks version hcache
      · exact .reads version
  | looks version hcache =>
      obtain ⟨rfl, hk⟩ := Prog.call.inj hprog
      obtain rfl := eq_of_heq hk
      show ListPhase platform settings tenantId q d queried e.now yields'
        ((cachedPage _).bind (usePage platform settings tenantId q _))
      rcases hreply : (if lost then lostRedis
          (.redisGet (usersListCacheKey platform tenantId version q)) r else r) with _ | _ | text
      · exact .reads version
      · exact .reads version
      · obtain ⟨page, rfl, hpage⟩ := hhit version text (get_of_reply hreply)
        rw [cachedPage_dumps]
        exact .returned page hpage
  | reads version =>
      rcases readUsersPage_cases (K := K) platform tenantId q with ⟨x, hraise⟩ | ⟨usersQuery, result, hcall⟩
      · rw [hraise] at hprog
        cases hprog
      · rw [hcall] at hprog
        obtain ⟨rfl, hk⟩ := Prog.call.inj hprog
        obtain rfl := eq_of_heq hk
        have hyields := hnow rfl _ (pageOn_of_call hcall)
        have hsame : (if lost then lostRedis (.query (.users usersQuery)) r else r) =
            (Query.users usersQuery).eval collation w.db := ite_self _
        rw [hsame]
        cases hresult : result ((Query.users usersQuery).eval collation w.db) with
        | error x =>
            rw [hresult] at hyields
            simp only [hresult, Prog.ofExcept]
            exact .failed x _ hyields
        | ok page =>
            rw [hresult] at hyields
            simp only [hresult, Prog.ofExcept, Prog.ret_bind]
            by_cases hcache : settings.usersCacheEnabled = true
            · exact .stores version page hcache hyields
            · rw [keepPage, if_neg hcache]
              exact .returned page (hearlier _ hstale hyields)
  | stores version page hcache hpage =>
      rw [keepPage, if_pos hcache] at hprog
      obtain ⟨rfl, hk⟩ := Prog.call.inj hprog
      obtain rfl := eq_of_heq hk
      refine .returned page (hearlier _ ?_ (hmono _ _ hpage))
      have hwithin := hstore _ _ _ rfl
      have : (0 : K) ≤ settings.usersCacheTtlSeconds := Nat.cast_nonneg _
      linarith
  | returned page _ => cases hprog
  | failed x since _ => cases hprog

omit [LinearOrder K] [IsStrictOrderedRing K] [FloorRing K] in
/-- `get_users` sets no key but that of its page. -/
lemma ListPhase.setsKeys {d queried moved : K} {yields : K → Except AppError UserListPage → Prop}
    {c : Command K} {k : c.Reply → AppProg K (Option UserListPage)}
    (hp : ListPhase platform settings tenantId q d queried moved yields (.call c k))
    (hc : c.setsKeys = true) :
    ∃ version page, c = .redisSet (usersListCacheKey platform tenantId version q) page.toJson.dumps
      settings.usersCacheTtlSeconds ∧ yields queried (.ok page) := by
  generalize hprog : Prog.call c k = p at hp
  cases hp with
  | starts =>
      obtain ⟨rfl, -⟩ := Prog.call.inj hprog
      cases hc
  | looks version hcache =>
      obtain ⟨rfl, -⟩ := Prog.call.inj hprog
      cases hc
  | reads version =>
      rcases readUsersPage_cases (K := K) platform tenantId q with ⟨x, hraise⟩ | ⟨usersQuery, result, hcall⟩
      · rw [hraise] at hprog
        cases hprog
      · rw [hcall] at hprog
        obtain ⟨rfl, -⟩ := Prog.call.inj hprog
        cases hc
  | stores version page hcache hpage =>
      rw [keepPage, if_pos hcache] at hprog
      obtain ⟨rfl, -⟩ := Prog.call.inj hprog
      exact ⟨version, page, rfl, hpage⟩
  | returned page _ => cases hprog
  | failed x since _ => cases hprog

lemma jsonOption_inj {α : Type} {f : α → Json} (hf : ∀ a b, f a = f b → a = b)
    (hnull : ∀ a, f a ≠ .null) {x y : Option α} (h : jsonOption f x = jsonOption f y) : x = y := by
  cases x with
  | none =>
      cases y with
      | none => rfl
      | some b => exact absurd h.symm (hnull b)
  | some a =>
      cases y with
      | none => exact absurd h (hnull a)
      | some b => rw [hf a b h]

lemma filter_pos_cast (skip : Option ℕ) :
    Option.filter (fun (x : ℤ) => decide (0 < x)) (do
      let a ← skip
      pure (a : ℤ)) = (skip.filter (0 < ·)).map Int.ofNat := by
  cases skip with
  | none => rfl
  | some n =>
      rcases Nat.eq_zero_or_pos n with rfl | hn
      · rfl
      · simp [Option.filter, hn]

/-- The parameters determine the request, up to an offset that is not used. -/
lemma eq_of_cacheParams {q' : GetUsers} (h : q.cacheParams.dumps = q'.cacheParams.dumps) :
    q' = { q with skip := q'.skip } ∧ q.skip.filter (0 < ·) = q'.skip.filter (0 < ·) := by
  have hwf : ∀ q : GetUsers, q.cacheParams.wf = true := by
    intro q
    have hactive : (jsonOption Json.bool q.isActive).wf = true := wf_jsonOption (fun _ => rfl) _
    have hrole : (jsonOption (fun role : UserRole => Json.str role.value) q.role).wf = true :=
      wf_jsonOption (fun _ => rfl) _
    simp [GetUsers.cacheParams, Json.wf, Json.wfFields, hactive, hrole]
  have hparams := Json.dumps_injective (hwf q) (hwf q') h
  obtain ⟨limit, hlimit, sortBy, sortOrder, role, isActive, search, searchMode, cursor, skip⟩ := q
  obtain ⟨limit', hlimit', sortBy', sortOrder', role', isActive', search', searchMode', cursor', skip'⟩ := q'
  simp only [GetUsers.cacheParams, Json.obj.injEq, List.cons.injEq, Prod.mk.injEq, true_and,
    Json.num.injEq, Json.str.injEq, and_true] at hparams
  obtain ⟨hcursor, hactive, hlim, hrole, hsearch, hmode, hskip, hsort, horder⟩ := hparams
  have hstr : ∀ a b : String, Json.str a = Json.str b → a = b := fun a b => Json.str.inj
  obtain rfl := jsonOption_inj hstr (fun _ h => by cases h) hcursor
  obtain rfl := jsonOption_inj (fun a b => Json.bool.inj) (fun _ h => by cases h) hactive
  obtain rfl : limit = limit' := Int.ofNat.inj hlim
  obtain rfl := jsonOption_inj (f := fun role : UserRole => .str role.value)
    (fun a b hab => by cases a <;> cases b <;> first | rfl | exact absurd (Json.str.inj hab) (by decide))
    (fun _ h => by cases h) hrole
  obtain rfl := jsonOption_inj hstr (fun _ h => by cases h) hsearch
  obtain rfl : searchMode = searchMode' := by
    cases searchMode <;> cases searchMode' <;> first | rfl | exact absurd hmode (by decide)
  obtain rfl : sortBy = sortBy' := by
    cases sortBy <;> cases sortBy' <;> first | rfl | exact absurd hsort (by decide)
  obtain rfl : sortOrder = sortOrder' := by
    cases sortOrder <;> cases sortOrder' <;> first | rfl | exact absurd horder (by decide)
  refine ⟨rfl, ?_⟩
  have hskips := jsonOption_inj (f := fun skip : ℤ => Json.num skip) (fun a b => Json.num.inj)
    (fun _ h => by cases h) hskip
  rw [filter_pos_cast, filter_pos_cast] at hskips
  exact Option.map_injective Int.ofNat_injective hskips

omit [Field K] [IsStrictOrderedRing K] [FloorRing K] in
/-- **Requests with the same parameters yield the same pages.** -/
lemma pageOn_congr {q' : GetUsers} (h : q.cacheParams.dumps = q'.cacheParams.dumps) :
    pageOn platform collation tenantId q db = pageOn platform collation tenantId q' db := by
  obtain ⟨hq', hskip⟩ := eq_of_cacheParams h
  have hread : readUsersPage (K := K) platform tenantId q = readUsersPage platform tenantId q' := by
    rw [hq']
    simp only [readUsersPage, hskip]
    rfl
  rw [pageOn, pageOn, hread]

end PhaseSteps

/-! ### Runs -/

section Runs

variable {K : Type} [Field K] [LinearOrder K] [IsStrictOrderedRing K] [FloorRing K] {ι : Type}
  [DecidableEq ι] {platform : Platform} {collation : Collation} {settings : Settings} {d : K}
  {w : World K} {as bs : List (PoolAction ι CacheCall (CacheInput K))}
  {a : PoolAction ι CacheCall (CacheInput K)} {s s' : CacheCalls ι K}

omit [Field K] [FloorRing K] [IsStrictOrderedRing K] in
/-- An `INCR` writes a number. -/
lemma versionsCount_incr {keys keys' : Redis.Keys K} {now : K} {lingers : Bool} {key : String} {n : ℤ}
    (hkeys : AdminMutation.VersionsCount keys) (h : keys.incr now lingers key = some (n, keys')) :
    AdminMutation.VersionsCount keys' := by
  intro tenantId entry hentry
  obtain ⟨written, rfl, hn⟩ := Redis.Keys.incr_eq_some h
  by_cases hkey : buildUsersListCacheVersionKey tenantId = key
  · rw [hkey, Redis.Keys.put_self] at hentry
    obtain rfl := Option.some.inj hentry
    rw [hn]
    rfl
  · rw [Redis.Keys.put_of_ne hkey] at hentry
    exact hkeys tenantId entry hentry

namespace CacheCalls

variable (platform collation settings w as) in
/-- At a moment of the run that is not before `since`, the request yields `x`. -/
def Yields (tenantId : ℕ) (q : GetUsers) (since : K) (x : Except AppError UserListPage) : Prop :=
  ∃ bs u, bs <+: as ∧ exec (step platform collation settings) (initial (ι := ι) w) bs = some u ∧
    since ≤ u.pool.store.clock ∧ pageOn platform collation tenantId q u.pool.store.db = some x

omit [IsStrictOrderedRing K] in
lemma Yields.append {tenantId : ℕ} {q : GetUsers} {since : K} {x : Except AppError UserListPage}
    (h : Yields platform collation settings w as tenantId q since x) :
    Yields platform collation settings w (as ++ bs) tenantId q since x := by
  obtain ⟨cs, u, hcs, hu⟩ := h
  exact ⟨cs, u, hcs.trans (List.prefix_append as bs), hu⟩

omit [IsStrictOrderedRing K] in
lemma Yields.earlier {tenantId : ℕ} {q : GetUsers} {since since' : K}
    {x : Except AppError UserListPage} (hsince : since' ≤ since)
    (h : Yields platform collation settings w as tenantId q since x) :
    Yields platform collation settings w as tenantId q since' x := by
  obtain ⟨cs, u, hcs, hu, hclock, hpage⟩ := h
  exact ⟨cs, u, hcs, hu, hsince.trans hclock, hpage⟩

omit [IsStrictOrderedRing K] in
/-- **Inversion of a step.** -/
lemma step_cases (h : step platform collation settings s a = some s') :
    (∃ i q, a = .start i q ∧ s'.pool.store = s.pool.store ∧ s'.queried = s.queried ∧
      s'.moved = s.moved ∧ s'.pool.calls =
        Function.update s.pool.calls i (some (q, q.program platform settings))) ∨
    (∃ i e q c k, a = .step i e ∧ s.pool.calls i = some (q, .call c k) ∧
      s.pool.store.clock ≤ e.env.now ∧
      s'.pool.store = { (c.exec platform collation e.env s.pool.store).2 with clock := e.env.now } ∧
      s'.queried = (if isQuery c then Function.update s.queried i e.env.now else s.queried) ∧
      s'.moved = Function.update s.moved i e.env.now ∧
      s'.pool.calls = Function.update s.pool.calls i (some (q, k
        (if e.lost then lostRedis c (c.exec platform collation e.env s.pool.store).1
          else (c.exec platform collation e.env s.pool.store).1)))) ∨
    (∃ i, a = .die i ∧ s'.pool.store = s.pool.store ∧ s'.queried = s.queried ∧ s'.moved = s.moved ∧
      s'.pool.calls = Function.update s.pool.calls i none) := by
  obtain ⟨pool, hpool, rfl⟩ := Option.map_eq_some_iff.1 h
  rcases Pool.next_cases hpool with ⟨i, q, rfl, -, rfl⟩ |
    ⟨i, e, q, c, k, p', t, rfl, hi, rfl, hcmd⟩ | ⟨i, q, p, rfl, -, rfl⟩
  · exact .inl ⟨i, q, rfl, rfl, rfl, rfl, rfl⟩
  · have hqueried : s.queriedAfter (.step i e) =
        if isQuery c then Function.update s.queried i e.env.now else s.queried := by
      simp only [queriedAfter, hi]
    refine .inr (.inl ⟨i, e, q, c, k, rfl, hi, ?_⟩)
    rcases hcmd with ⟨x, hx, -⟩ | ⟨r, hr, rfl⟩
    · obtain ⟨⟨y, u⟩, hy, heq⟩ := Option.map_eq_some_iff.1 hx
      obtain ⟨-, rfl, -⟩ := interp_eq_some hy
      cases (Prod.mk.inj heq).1
    · obtain ⟨⟨y, u⟩, hy, heq⟩ := Option.map_eq_some_iff.1 hr
      obtain ⟨hclock, rfl, rfl⟩ := interp_eq_some hy
      obtain ⟨hreply, rfl⟩ := Prod.mk.inj heq
      obtain rfl := Except.ok.inj hreply
      exact ⟨hclock, rfl, hqueried, rfl, rfl⟩
  · exact .inr (.inr ⟨i, rfl, rfl, rfl, rfl, rfl⟩)

/-- **What is known of a state of a run.**  An entry under the key of a request in `R` is a page of
that request, of a moment at most `d` before it was stored. -/
structure Bounded (platform : Platform) (collation : Collation) (settings : Settings) (d : K)
    (w : World K) (R : CacheCall → Prop) (as : List (PoolAction ι CacheCall (CacheInput K)))
    (s : CacheCalls ι K) : Prop where
  versions : AdminMutation.VersionsCount s.pool.store.keys
  pages : ∀ tenantId version q entry, R (.list tenantId q) →
    s.pool.store.keys (usersListCacheKey platform tenantId version q) = some entry →
      ∃ page stored, entry = ⟨page.toJson.dumps, some (stored + settings.usersCacheTtlSeconds)⟩ ∧
        Yields platform collation settings w as tenantId q (stored - d) (.ok page)
  lists : ∀ i tenantId q p, s.pool.calls i = some (.list tenantId q, p) → R (.list tenantId q) ∧
    ListPhase platform settings tenantId q d (s.queried i) (s.moved i)
      (Yields platform collation settings w as tenantId q) p
  changes : ∀ i m p, s.pool.calls i = some (.change m, p) → IgnoresCache p

section Keep

variable {R : CacheCall → Prop} {i : ι} {q₀ : CacheCall} {c : Command K}
  {k : c.Reply → AppProg K (Option UserListPage)} {e : CacheInput K}

omit [IsStrictOrderedRing K] in
/-- **What a call does to the keys**: nothing, or it increments a version, or it stores the page that
it has read. -/
lemma Bounded.keys_cases (hs : Bounded platform collation settings d w R as s)
    (hi : s.pool.calls i = some (q₀, .call c k)) :
    let keys' := (c.exec platform collation e.env s.pool.store).2.keys
    keys' = s.pool.store.keys ∨
      (∃ tenantId n, s.pool.store.keys.incr e.env.now e.env.lingers
        (buildUsersListCacheVersionKey tenantId) = some (n, keys')) ∨
      ∃ tenantId q version page, q₀ = .list tenantId q ∧ R (.list tenantId q) ∧
        c = .redisSet (usersListCacheKey platform tenantId version q) page.toJson.dumps
          settings.usersCacheTtlSeconds ∧
        keys' = s.pool.store.keys.setEx e.env.now (usersListCacheKey platform tenantId version q)
          page.toJson.dumps settings.usersCacheTtlSeconds ∧
        Yields platform collation settings w as tenantId q (s.queried i) (.ok page) := by
  intro keys'
  by_cases hsets : c.setsKeys = true
  · cases q₀ with
    | list tenantId q =>
        obtain ⟨hR, hphase⟩ := hs.lists i tenantId q _ hi
        obtain ⟨version, page, rfl, hpage⟩ := hphase.setsKeys hsets
        by_cases hfails : e.env.redisFails = true
        · exact .inl (by simp [keys', Command.exec, unlessFails, hfails])
        · exact .inr (.inr ⟨tenantId, q, version, page, rfl, hR, rfl,
            by simp [keys', Command.exec, unlessFails, hfails], hpage⟩)
    | change m =>
        have huses : usesRedis c = true := by
          cases c <;> first | rfl | cases hsets
        obtain ⟨⟨tenantId, rfl⟩, -⟩ := (hs.changes i m _ hi).every.1 huses
        rcases (AdminMutation.exec_redisIncr platform collation e.env s.pool.store
          (buildUsersListCacheVersionKey tenantId)).1 with hsame | ⟨n, hn⟩
        · exact .inl hsame
        · exact .inr (.inl ⟨tenantId, n, hn⟩)
  · exact .inl (Command.keys_exec (by simpa using hsets))

/-- **A command keeps what is known of the entries.** -/
lemma Bounded.keys_step (hs : Bounded platform collation settings d w R as s)
    (hfree : ∀ tenantId tenantId' q q', R (.list tenantId q) → R (.list tenantId' q') →
      platform.sha256 q.cacheParams.dumps = platform.sha256 q'.cacheParams.dumps →
        q.cacheParams.dumps = q'.cacheParams.dumps)
    (hprompt : Prompt d s (.step i e)) (hi : s.pool.calls i = some (q₀, .call c k)) :
    let keys' := (c.exec platform collation e.env s.pool.store).2.keys
    AdminMutation.VersionsCount keys' ∧ ∀ tenantId version q entry, R (.list tenantId q) →
      keys' (usersListCacheKey platform tenantId version q) = some entry →
        ∃ page stored, entry = ⟨page.toJson.dumps, some (stored + settings.usersCacheTtlSeconds)⟩ ∧
          Yields platform collation settings w as tenantId q (stored - d) (.ok page) := by
  intro keys'
  rcases hs.keys_cases (e := e) hi with hsame | ⟨tenantId, n, hincr⟩ |
    ⟨tenantId, q, version, page, rfl, hR, rfl, hset, hpage⟩
  · change keys' = s.pool.store.keys at hsame
    exact ⟨hsame ▸ hs.versions, fun tenantId version q entry hR hentry =>
      hs.pages tenantId version q entry hR (hsame ▸ hentry)⟩
  · refine ⟨versionsCount_incr hs.versions hincr, fun tenantId' version q entry hR hentry => ?_⟩
    obtain ⟨written, hkeys, -⟩ := Redis.Keys.incr_eq_some hincr
    have hother : s.pool.store.keys.put _ written (usersListCacheKey platform tenantId' version q) =
        s.pool.store.keys (usersListCacheKey platform tenantId' version q) :=
      Redis.Keys.put_of_ne (usersListCacheKey_ne_versionKey tenantId' tenantId version q)
    exact hs.pages tenantId' version q entry hR
      (hother.symm.trans ((congrFun hkeys _).symm.trans hentry))
  · constructor
    · intro tenantId' entry hentry
      have hother := (congrFun hset _).trans (Redis.Keys.setEx_of_ne
        (usersListCacheKey_ne_versionKey tenantId tenantId' version q).symm)
      exact hs.versions tenantId' entry (hother.symm.trans hentry)
    · intro tenantId' version' q' entry hR' hentry
      by_cases hkey : usersListCacheKey platform tenantId' version' q' =
          usersListCacheKey platform tenantId version q
      · obtain ⟨rfl, hhash⟩ := usersListCacheKey_inj hkey
        have hparams := hfree tenantId' tenantId' q' q hR' hR hhash
        have hentry' : some entry = some (⟨page.toJson.dumps,
            some (e.env.now + ((settings.usersCacheTtlSeconds : ℤ) : K))⟩ : Redis.Entry K) := by
          rw [← hentry, hkey]
          exact (congrFun hset _).trans Redis.Keys.put_self
        refine ⟨page, e.env.now, ?_, ?_⟩
        · rw [Option.some.inj hentry', Int.cast_natCast]
        · -- the query of the page is at most `d` ago
          have hwithin := hprompt.2 _ _ _ _ _ hi
          obtain ⟨bs, u, hbs, hu, hclock, hyields⟩ := hpage
          exact ⟨bs, u, hbs, hu, by linarith, (pageOn_congr hparams).trans hyields⟩
      · have hother := (congrFun hset _).trans (Redis.Keys.setEx_of_ne hkey)
        exact hs.pages tenantId' version' q' entry hR' (hother.symm.trans hentry)

/-- **A step keeps what is known of the states of a run.** -/
lemma Bounded.step (hs : Bounded platform collation settings d w R as s)
    (hfree : ∀ tenantId tenantId' q q', R (.list tenantId q) → R (.list tenantId' q') →
      platform.sha256 q.cacheParams.dumps = platform.sha256 q'.cacheParams.dumps →
        q.cacheParams.dumps = q'.cacheParams.dumps)
    (hd : 0 ≤ d) (hprompt : Prompt d s a) (hR : ∀ i q, a = .start i q → R q)
    (hrun : exec (CacheCalls.step platform collation settings) (initial w) as = some s)
    (h : CacheCalls.step platform collation settings s a = some s') :
    Bounded platform collation settings d w R (as ++ [a]) s' := by
  have hmono : ∀ tenantId q since x, Yields platform collation settings w as tenantId q since x →
      Yields platform collation settings w (as ++ [a]) tenantId q since x :=
    fun _ _ _ _ => Yields.append
  rcases step_cases h with ⟨i, q₀, rfl, hstore, hqueried, hmoved, hcalls⟩ |
    ⟨i, e, q₀, c, k, rfl, hi, hclock, hstore, hqueried, hmoved, hcalls⟩ |
    ⟨i, rfl, hstore, hqueried, hmoved, hcalls⟩
  · refine ⟨hstore ▸ hs.versions, fun tenantId version q entry hRq hentry => ?_,
      fun j tenantId q p hj => ?_, fun j m p hj => ?_⟩
    · obtain ⟨page, stored, hpage, hyields⟩ :=
        hs.pages tenantId version q entry hRq (hstore ▸ hentry)
      exact ⟨page, stored, hpage, hyields.append⟩
    · rw [hcalls] at hj
      rw [hqueried, hmoved]
      by_cases hji : j = i
      · rw [hji, Function.update_self, Option.some.injEq, Prod.mk.injEq] at hj
        obtain ⟨rfl, rfl⟩ := hj
        exact ⟨hR i _ rfl, .starts⟩
      · rw [Function.update_of_ne hji] at hj
        obtain ⟨hRq, hphase⟩ := hs.lists j tenantId q p hj
        exact ⟨hRq, hphase.imp (hmono tenantId q)⟩
    · rw [hcalls] at hj
      by_cases hji : j = i
      · rw [hji, Function.update_self, Option.some.injEq, Prod.mk.injEq] at hj
        obtain ⟨rfl, rfl⟩ := hj
        exact (ignores_program platform settings m).bind_ret _
      · rw [Function.update_of_ne hji] at hj
        exact hs.changes j m p hj
  · obtain ⟨hversions, hpages⟩ := hs.keys_step hfree hprompt hi
    have hkeys : s'.pool.store.keys = (c.exec platform collation e.env s.pool.store).2.keys := by
      rw [hstore]
    refine ⟨hkeys ▸ hversions, fun tenantId version q entry hRq hentry => ?_,
      fun j tenantId q p hj => ?_, fun j m p hj => ?_⟩
    · obtain ⟨page, stored, hpage, hyields⟩ := hpages tenantId version q entry hRq (hkeys ▸ hentry)
      exact ⟨page, stored, hpage, hyields.append⟩
    · rw [hcalls] at hj
      by_cases hji : j = i
      · rw [hji, Function.update_self, Option.some.injEq, Prod.mk.injEq] at hj
        obtain ⟨rfl, rfl⟩ := hj
        obtain ⟨hRq, hphase⟩ := hs.lists i tenantId q _ hi
        refine ⟨hRq, ?_⟩
        rw [hji, hmoved, Function.update_self, show s'.queried i =
          if isQuery c then e.env.now else s.queried i by rw [hqueried]; split_ifs <;> simp]
        refine hphase.step e.lost (hmono tenantId q) (fun _ => Yields.earlier) (fun hquery x hx => ?_)
          hs.versions (fun version text htext => ?_) hd (fun key value ttl hc => ?_)
        · -- the moment of the query
          refine ⟨as ++ [.step i e], s', List.prefix_rfl,
            exec_append_eq_some.2 ⟨s, hrun, exec_cons_eq_some.2 ⟨s', h, rfl⟩⟩, ?_, ?_⟩
          · rw [hstore]
          · rw [hstore, ← hx]
            exact congrArg _ (Command.db_exec fun statements heq => by rw [heq] at hquery; cases hquery)
        · obtain ⟨entry, hentry, rfl⟩ := Option.map_eq_some_iff.1 htext
          obtain ⟨hset, hpresent⟩ := Option.filter_eq_some_iff.1 hentry
          obtain ⟨page, stored, rfl, hyields⟩ := hs.pages tenantId version q entry hRq hset
          have hbefore : e.env.now < stored + settings.usersCacheTtlSeconds := by
            simpa [Redis.Keys.present, hprompt.1] using hpresent
          exact ⟨page, rfl, hyields.append.earlier (by linarith)⟩
        · subst hc
          exact hprompt.2 _ _ _ _ _ hi
      · rw [Function.update_of_ne hji] at hj
        obtain ⟨hRq, hphase⟩ := hs.lists j tenantId q p hj
        have hqueried' : s'.queried j = s.queried j := by
          rw [hqueried]
          split_ifs
          · exact Function.update_of_ne hji ..
          · rfl
        rw [hqueried', hmoved, Function.update_of_ne hji]
        exact ⟨hRq, hphase.imp (hmono tenantId q)⟩
    · rw [hcalls] at hj
      by_cases hji : j = i
      · rw [hji, Function.update_self, Option.some.injEq, Prod.mk.injEq] at hj
        obtain ⟨rfl, rfl⟩ := hj
        exact ⟨(hs.changes i m _ hi).every.2 _⟩
      · rw [Function.update_of_ne hji] at hj
        exact hs.changes j m p hj
  · refine ⟨hstore ▸ hs.versions, fun tenantId version q entry hRq hentry => ?_,
      fun j tenantId q p hj => ?_, fun j m p hj => ?_⟩
    · obtain ⟨page, stored, hpage, hyields⟩ :=
        hs.pages tenantId version q entry hRq (hstore ▸ hentry)
      exact ⟨page, stored, hpage, hyields.append⟩
    · rw [hcalls, Function.update_apply] at hj
      split_ifs at hj
      obtain ⟨hRq, hphase⟩ := hs.lists j tenantId q p hj
      rw [hqueried, hmoved]
      exact ⟨hRq, hphase.imp (hmono tenantId q)⟩
    · rw [hcalls, Function.update_apply] at hj
      split_ifs at hj
      exact hs.changes j m p hj

end Keep

/-- **Every state of a run.** -/
lemma bounded_of_run (hw : Cold platform w) (hd : 0 ≤ d) (hfree : CollisionFree platform as)
    (hprompt : Along (step platform collation settings) (Prompt d) (initial w) as)
    (h : exec (step platform collation settings) (initial w) as = some s) :
    Bounded platform collation settings d w (fun q => ∃ i, .start i q ∈ as) as s := by
  -- the requests are those of the whole run, and the induction is on what has run of it
  refine exec_induction (P := fun bs u => bs <+: as →
    Bounded platform collation settings d w (fun q => ∃ i, .start i q ∈ as) bs u)
    (fun _ => ?_) (fun bs u a v hu ih hv hbs => ?_) h List.prefix_rfl
  · refine ⟨hw.versions, fun tenantId version q entry _ hentry => ?_, fun i tenantId q p hi => ?_,
      fun i m p hi => ?_⟩
    · cases (hw.pages tenantId version q).symm.trans hentry
    · cases hi
    · cases hi
  · refine (ih ((List.prefix_append bs [a]).trans hbs)).step ?_ hd ?_ ?_ hu hv
    · rintro tenantId tenantId' q q' ⟨i, hi⟩ ⟨j, hj⟩ hhash
      exact hfree i j tenantId tenantId' q q' hi hj hhash
    · exact ((hprompt.of_isPrefix hbs).append hu).1
    · rintro i q rfl
      exact ⟨i, hbs.subset (by simp)⟩

end CacheCalls

end Runs

/-! ### An invalidation that fails -/

/-- The list of the users that are no administrators. -/
def plainUsers : GetUsers := { oneByOne with role := some .user }

/-- A page is cached, then a user is deactivated and the increment of the version fails, and the next
call finds the old page under the old version. -/
def missedInvalidation : List (PoolAction ℕ CacheCall (CacheInput ℚ)) :=
  .start 0 (.list 1 plainUsers) :: List.replicate 4 (.step 0 ⟨Env.calm 0, false⟩) ++
    .start 1 (.change (.byToken adminToken none (.deactivate 2))) ::
    List.replicate 7 (.step 1 ⟨{ Env.calm 30 with redisFails := true }, false⟩) ++
    .start 2 (.list 1 plainUsers) :: List.replicate 2 (.step 2 ⟨Env.calm 59, false⟩)

/-- The page that the last call has returned. -/
def lastPage (t : CacheCalls ℕ ℚ) : Option (ℕ × GetUsers × UserListPage) :=
  match t.pool.calls 2 with
  | some (.list tenantId q, .ret (some page)) => some (tenantId, q, page)
  | _ => none

lemma calls_of_lastPage {t : CacheCalls ℕ ℚ} {tenantId : ℕ} {q : GetUsers} {page : UserListPage}
    (h : lastPage t = some (tenantId, q, page)) :
    t.pool.calls 2 = some (.list tenantId q, .ret (some page)) := by
  unfold lastPage at h
  split at h
  · rename_i hi
    rw [hi]
    cases h
    rfl
  · cases h

/-- The executable form of `CacheCalls.Prompt`. -/
def isPrompt (d : ℚ) (s : CacheCalls ℕ ℚ) : PoolAction ℕ CacheCall (CacheInput ℚ) → Bool
  | .step i e => !e.env.lingers && match s.pool.calls i with
      | some (_, .call (.redisSet _ _ _) _) => decide (e.env.now ≤ s.queried i + d)
      | _ => true
  | _ => true

lemma prompt_of_isPrompt {d : ℚ} {s : CacheCalls ℕ ℚ} {a : PoolAction ℕ CacheCall (CacheInput ℚ)}
    (h : isPrompt d s a = true) : CacheCalls.Prompt d s a := by
  cases a with
  | step i e =>
      obtain ⟨hlingers, hstored⟩ := Bool.and_eq_true_iff.1 h
      refine ⟨by simpa using hlingers, fun q key value ttl k hi => ?_⟩
      rw [hi] at hstored
      exact of_decide_eq_true hstored
  | start i q => trivial
  | die i => trivial

end StarterBackend.Users

/-
A list of users is never older than the changes that have returned.

Calls of `get_users` and changes of users run at the same time, command by command, while
Redis answers every command and evicts nothing.  A reader can store a page long after the
users have changed, but it stores it under the version that it has read before its query.
The version of a tenant only grows, so an entry under a version is a page of a moment at
which the version was at least that.  A change that has returned has incremented the
version after its commit, and a call that starts later reads that version or a later one.

* `list_fresh`: the page that a call returns is the page of its request at a moment after
  all changes of its tenant's users that had returned when the call started.
-/
import StarterBackend.Users.Invalidation

namespace StarterBackend.Users

open Lib App

/-! ### Versions -/

section Versions

variable {K : Type}

/-- The version of the lists of a tenant. -/
def cachedVersion (keys : Redis.Keys K) (tenantId : ℕ) : ℤ :=
  ((keys (buildUsersListCacheVersionKey tenantId)).bind fun entry =>
    PyText.parseInt entry.value).getD 0

/-- The versions are numbers without deadlines. -/
def Lasting (keys : Redis.Keys K) : Prop :=
  ∀ tenantId entry, keys (buildUsersListCacheVersionKey tenantId) = some entry →
    entry.deadline = none ∧ (PyText.parseInt entry.value).isSome

/-- **A key names its version.** -/
lemma usersListCacheKey_version {platform : Platform} {tenantId tenantId' : ℕ} {version version' : ℤ}
    {q q' : GetUsers} (h : usersListCacheKey platform tenantId version q =
      usersListCacheKey platform tenantId' version' q') : version = version' := by
  have hlist := congrArg String.toList h
  rw [toList_usersListCacheKey, toList_usersListCacheKey] at hlist
  obtain ⟨-, hrest⟩ := PyText.append_cons_inj (colon_notMem_repr _) (colon_notMem_repr _)
    (List.append_cancel_left hlist)
  obtain ⟨hversion, -⟩ := PyText.append_cons_inj (colon_notMem_repr _) (colon_notMem_repr _)
    (List.append_cancel_left hrest)
  exact PyText.repr_injective (String.toList_injective hversion)

lemma cachedVersion_congr {keys keys' : Redis.Keys K} {tenantId : ℕ}
    (h : keys' (buildUsersListCacheVersionKey tenantId) =
      keys (buildUsersListCacheVersionKey tenantId)) :
    cachedVersion keys' tenantId = cachedVersion keys tenantId := by
  rw [cachedVersion, cachedVersion, h]

variable [LinearOrder K] {keys : Redis.Keys K} {now : K} {lingers : Bool} {tenantId : ℕ}

lemma entry_of_lasting (hkeys : Lasting keys) :
    keys.entry now lingers (buildUsersListCacheVersionKey tenantId) =
      keys (buildUsersListCacheVersionKey tenantId) := by
  rw [Redis.Keys.entry]
  rcases hentry : keys (buildUsersListCacheVersionKey tenantId) with _ | entry
  · rfl
  · refine Option.filter_eq_some_iff.2 ⟨rfl, ?_⟩
    rw [Redis.Keys.present, (hkeys tenantId entry hentry).1]
    rfl

/-- **The version that is read.** -/
lemma cacheVersion_get (hkeys : Lasting keys) :
    cacheVersion (K := K) (some (keys.get now lingers (buildUsersListCacheVersionKey tenantId))) =
      .ret (cachedVersion keys tenantId) := by
  rw [Redis.Keys.get, entry_of_lasting hkeys, cachedVersion]
  rcases hentry : keys (buildUsersListCacheVersionKey tenantId) with _ | entry
  · rfl
  · obtain ⟨version, hversion⟩ := Option.isSome_iff_exists.1 (hkeys tenantId entry hentry).2
    simp only [Option.map_some, Option.bind_some, cacheVersion, hversion]
    rfl

/-- **An increment** counts its key on by one, and no other. -/
lemma version_incr (hkeys : Lasting keys) (now : K) (lingers : Bool) (tenantId : ℕ) :
    ∃ n keys', keys.incr now lingers (buildUsersListCacheVersionKey tenantId) = some (n, keys') ∧
      Lasting keys' ∧ (∀ key, key ≠ buildUsersListCacheVersionKey tenantId → keys' key = keys key) ∧
      ∀ tenantId', cachedVersion keys' tenantId' = cachedVersion keys tenantId' +
        if buildUsersListCacheVersionKey tenantId' = buildUsersListCacheVersionKey tenantId then 1
        else 0 := by
  -- the entry that is written, and its number
  have hwritten : ∃ n entry, keys.incr now lingers (buildUsersListCacheVersionKey tenantId) =
      some (n, keys.put (buildUsersListCacheVersionKey tenantId) entry) ∧ entry.deadline = none ∧
      PyText.parseInt entry.value = some (cachedVersion keys tenantId + 1) := by
    rw [Redis.Keys.incr, entry_of_lasting hkeys, cachedVersion]
    rcases hentry : keys (buildUsersListCacheVersionKey tenantId) with _ | entry
    · exact ⟨1, ⟨"1", none⟩, rfl, rfl, PyText.parseInt_intRepr 1⟩
    · obtain ⟨hdeadline, hnumber⟩ := hkeys tenantId entry hentry
      obtain ⟨n, hn⟩ := Option.isSome_iff_exists.1 hnumber
      refine ⟨n + 1, { entry with value := (n + 1).repr }, ?_, hdeadline, ?_⟩
      · simp only [hn, Option.map_some]
      · simp only [Option.bind_some, hn, Option.getD_some, PyText.parseInt_intRepr]
  obtain ⟨n, entry, hincr, hdeadline, hnumber⟩ := hwritten
  refine ⟨n, _, hincr, fun tenantId' entry' hentry' => ?_, fun key hkey => Redis.Keys.put_of_ne hkey,
    fun tenantId' => ?_⟩
  · by_cases hkey : buildUsersListCacheVersionKey tenantId' = buildUsersListCacheVersionKey tenantId
    · rw [hkey, Redis.Keys.put_self] at hentry'
      obtain rfl := Option.some.inj hentry'
      exact ⟨hdeadline, by rw [hnumber]; rfl⟩
    · rw [Redis.Keys.put_of_ne hkey] at hentry'
      exact hkeys tenantId' entry' hentry'
  · split_ifs with hkey
    · rw [cachedVersion, hkey, Redis.Keys.put_self, Option.bind_some, hnumber, Option.getD_some,
        cachedVersion, cachedVersion, hkey]
    · rw [add_zero]
      exact cachedVersion_congr (Redis.Keys.put_of_ne hkey)

end Versions

/-! ### The users of a tenant -/

section UsersOf

variable {K : Type} [LinearOrder K] {gap : ℕ} {now : K} {db db' : Database K} {id id' x : Option ℕ}
  {statement : Statement K} {statements : List (Statement K)} {τ : ℕ → ℕ} {tenantId : ℕ}

omit [LinearOrder K] in
/-- The rows of the users of a tenant. -/
def usersOf (db : Database K) (tenantId k : ℕ) : Option User :=
  (db.users.row k).filter fun user => user.tenantId = tenantId

/-- A statement that changes no users of the tenant. -/
lemma usersOf_exec (hτ : ∀ k user, db.users.row k = some user → user.tenantId = tenantId →
      τ k = tenantId) (hother : changedTenant τ statement ≠ some tenantId)
    (h : statement.exec gap now db = some (x, db')) : usersOf db' tenantId = usersOf db tenantId := by
  ext1 k
  cases statement with
  | insertUser email hashedPassword tenantId' =>
      simp only [Statement.exec] at h
      split_ifs at h
      obtain ⟨-, rfl⟩ := Prod.mk.inj (Option.some.inj h)
      have hne : tenantId' ≠ tenantId := fun heq => hother (congrArg some heq)
      rw [usersOf, usersOf, Table.row_insert]
      split_ifs with hk
      · have hnone : db.users.row k = none := by
          rw [hk]
          refine Option.eq_none_iff_forall_not_mem.2 fun user huser => ?_
          have hlt := db.users.lt_of_row huser
          simp only [Table.freshId] at hlt
          omega
        simp [hnone, Option.filter, hne]
      · rfl
  | updateUser userId changes =>
      obtain ⟨user, updated, huser, happly, -, rfl⟩ := exec_updateUser_eq_some h
      obtain ⟨hid, htenant, -⟩ := UserChanges.apply_eq_some happly
      obtain rfl : user.id = userId := db.users.id_of_row huser
      have hne : user.tenantId ≠ tenantId := fun heq =>
        hother (congrArg some (hτ user.id user huser heq))
      rw [usersOf, usersOf, Database.row_setUser hid huser]
      split_ifs with hk
      · rw [hk, huser]
        simp [Option.filter, htenant, hne]
      · rfl
  | deleteUser userId =>
      simp only [Statement.exec] at h
      split_ifs at h
      obtain ⟨-, rfl⟩ := Prod.mk.inj (Option.some.inj h)
      show ((db.users.restrict fun user => user.id != userId).row k).filter _ = _
      rw [Accounts.row_restrict_users, usersOf]
      split_ifs with hk
      · rcases huser : db.users.row k with _ | user
        · rfl
        · have hne : user.tenantId ≠ tenantId := fun heq =>
            hother (congrArg some (by rw [← hk]; exact hτ k user huser heq))
          simp [Option.filter, hne]
      · rfl
  | _ => rw [usersOf, usersOf, Accounts.users_exec rfl h]

/-- **A transaction that changes the users of a tenant** has a statement that does. -/
lemma usersOf_transaction (hτ : ∀ k user, db.users.row k = some user → user.tenantId = τ k)
    (h : transaction gap now statements id db = some (id', db'))
    (hchanged : usersOf db tenantId ≠ usersOf db' tenantId) :
    ∃ statement ∈ statements, changedTenant τ statement = some tenantId := by
  by_contra hnone
  push Not at hnone
  refine hchanged (Eq.symm ?_)
  refine transaction_invariant (I := fun db' => usersOf db' tenantId = usersOf db tenantId)
    (fun statement hmem db₁ x db₂ hdb₁ hexec => ?_) h rfl
  refine (usersOf_exec (fun k user huser htenant => ?_) (hnone statement hmem) hexec).trans hdb₁
  -- the row is one of the tenant's before the transaction
  have hrow : usersOf db₁ tenantId k = some user := by
    rw [usersOf, huser]
    simp [Option.filter, htenant]
  rw [hdb₁] at hrow
  obtain ⟨hrow, htenant'⟩ := Option.filter_eq_some_iff.1 hrow
  exact (hτ k user hrow).symm.trans htenant

end UsersOf

/-! ### Where a call of `get_users` stands -/

section ReadPhases

variable {K : Type} (platform : Platform) (settings : Settings) (tenantId : ℕ) (q : GetUsers)

/-- **Where a call of `get_users` stands**, and what it knows: `since` are the versions that are not
older than the call, the version of the tenant is `now`, and `reflects` says of which version a page is. -/
inductive ReadPhase [Field K] (since : ℤ → Prop) (now : ℤ) (reflects : ℤ → UserListPage → Prop) :
    AppProg K (Option UserListPage) → Prop
  | starts : ReadPhase since now reflects
      ((getUsers platform settings tenantId q).bind fun page => .ret (some page))
  | looks (version : ℤ) : settings.usersCacheEnabled = true → since version → version ≤ now →
      ReadPhase since now reflects
        ((getCachedPage (usersListCacheKey platform tenantId version q)).bind
          (usePage platform settings tenantId q (usersListCacheKey platform tenantId version q)))
  | reads (version : ℤ) : since version → version ≤ now → ReadPhase since now reflects
      ((readUsersPage platform tenantId q).bind
        (keepPage settings (usersListCacheKey platform tenantId version q)))
  | stores (version : ℤ) (page : UserListPage) : settings.usersCacheEnabled = true →
      since version → reflects version page → ReadPhase since now reflects
        (keepPage settings (usersListCacheKey platform tenantId version q) page)
  | returned (version : ℤ) (page : UserListPage) : since version → reflects version page →
      ReadPhase since now reflects (.ret (some page))
  | failed (x : AppError) : ReadPhase since now reflects (.raise x)

variable {platform settings tenantId q}

lemma ReadPhase.imp [Field K] {since since' : ℤ → Prop} {now now' : ℤ}
    {reflects reflects' : ℤ → UserListPage → Prop} {p : AppProg K (Option UserListPage)}
    (hp : ReadPhase platform settings tenantId q since now reflects p)
    (hsince : ∀ version, since version → since' version) (hnow : now ≤ now')
    (hreflects : ∀ version page, reflects version page → reflects' version page) :
    ReadPhase platform settings tenantId q since' now' reflects' p := by
  cases hp with
  | starts => exact .starts
  | looks version hcache hv hle => exact .looks version hcache (hsince _ hv) (hle.trans hnow)
  | reads version hv hle => exact .reads version (hsince _ hv) (hle.trans hnow)
  | stores version page hcache hv hpage =>
      exact .stores version page hcache (hsince _ hv) (hreflects _ _ hpage)
  | returned version page hv hpage => exact .returned version page (hsince _ hv) (hreflects _ _ hpage)
  | failed x => exact .failed x

variable [Field K] [LinearOrder K] [FloorRing K] {collation : Collation} {since : ℤ → Prop}
  {reflects : ℤ → UserListPage → Prop} {c : Command K}
  {k : c.Reply → AppProg K (Option UserListPage)} {e : Env K} {w : World K}

/-- **One command of `get_users`**, when Redis answers. -/
lemma ReadPhase.step (hredis : e.redisFails = false) (hkeys : Lasting w.keys)
    (hp : ReadPhase platform settings tenantId q since (cachedVersion w.keys tenantId) reflects
      (.call c k))
    (hsince : since (cachedVersion w.keys tenantId))
    (hquery : isQuery c = true → ∀ page, pageOn platform collation tenantId q w.db = some (.ok page) →
      ∀ version ≤ cachedVersion w.keys tenantId, reflects version page)
    (hhit : ∀ version text, w.keys.get e.now e.lingers (usersListCacheKey platform tenantId version q) =
      some text → ∃ page, text = page.toJson.dumps ∧ reflects version page) :
    ReadPhase platform settings tenantId q since (cachedVersion w.keys tenantId) reflects
      (k (c.exec platform collation e w).1) := by
  generalize hprog : Prog.call c k = p at hp
  have hget : ∀ key, (Command.exec platform collation e w (.redisGet key)).1 =
      some (w.keys.get e.now e.lingers key) := by
    intro key
    simp only [Command.exec, unlessFails, hredis, Bool.false_eq_true, if_false]
  cases hp with
  | starts =>
      obtain ⟨rfl, hk⟩ := Prog.call.inj hprog
      obtain rfl := eq_of_heq hk
      rw [hget]
      show ReadPhase platform settings tenantId q since _ reflects
        ((((cacheVersion _).bind fun version => .ret (usersListCacheKey platform tenantId version q)).bind
          (getUsersUnder platform settings tenantId q)).bind fun page => .ret (some page))
      rw [cacheVersion_get hkeys, Prog.ret_bind, Prog.ret_bind, getUsersUnder_bind]
      split_ifs with hcache
      · exact .looks _ hcache hsince le_rfl
      · exact .reads _ hsince le_rfl
  | looks version hcache hv hle =>
      obtain ⟨rfl, hk⟩ := Prog.call.inj hprog
      obtain rfl := eq_of_heq hk
      rw [hget]
      show ReadPhase platform settings tenantId q since _ reflects
        ((cachedPage _).bind (usePage platform settings tenantId q _))
      rcases hreply : w.keys.get e.now e.lingers (usersListCacheKey platform tenantId version q) with
        _ | text
      · exact .reads version hv hle
      · obtain ⟨page, rfl, hpage⟩ := hhit version text hreply
        rw [cachedPage_dumps]
        exact .returned version page hv hpage
  | reads version hv hle =>
      rcases readUsersPage_cases (K := K) platform tenantId q with ⟨x, hraise⟩ | ⟨usersQuery, result, hcall⟩
      · rw [hraise] at hprog
        cases hprog
      · rw [hcall] at hprog
        obtain ⟨rfl, hk⟩ := Prog.call.inj hprog
        obtain rfl := eq_of_heq hk
        have hpageOn : pageOn platform collation tenantId q w.db =
            some (result ((Query.users usersQuery).eval collation w.db)) := pageOn_of_call hcall
        show ReadPhase platform settings tenantId q since _ reflects
          ((Prog.ofExcept (result ((Query.users usersQuery).eval collation w.db))).bind _)
        cases hresult : result ((Query.users usersQuery).eval collation w.db) with
        | error x => exact .failed x
        | ok page =>
            rw [hresult] at hpageOn
            have hpage := hquery rfl page hpageOn version hle
            show ReadPhase platform settings tenantId q since _ reflects (keepPage settings _ page)
            by_cases hcache : settings.usersCacheEnabled = true
            · exact .stores version page hcache hv hpage
            · rw [keepPage, if_neg hcache]
              exact .returned version page hv hpage
  | stores version page hcache hv hpage =>
      rw [keepPage, if_pos hcache] at hprog
      obtain ⟨rfl, hk⟩ := Prog.call.inj hprog
      obtain rfl := eq_of_heq hk
      exact .returned version page hv hpage
  | returned version page hv hpage => cases hprog
  | failed x => cases hprog

omit [LinearOrder K] [FloorRing K] in
/-- `get_users` sets no key but that of its page. -/
lemma ReadPhase.setsKeys {now : ℤ}
    (hp : ReadPhase platform settings tenantId q since now reflects (.call c k))
    (hc : c.setsKeys = true) :
    ∃ version page, c = .redisSet (usersListCacheKey platform tenantId version q) page.toJson.dumps
      settings.usersCacheTtlSeconds ∧ reflects version page := by
  generalize hprog : Prog.call c k = p at hp
  cases hp with
  | starts | looks version =>
      obtain ⟨rfl, -⟩ := Prog.call.inj hprog
      cases hc
  | reads version =>
      rcases readUsersPage_cases (K := K) platform tenantId q with ⟨x, hraise⟩ | ⟨usersQuery, result, hcall⟩
      · rw [hraise] at hprog
        cases hprog
      · rw [hcall] at hprog
        obtain ⟨rfl, -⟩ := Prog.call.inj hprog
        cases hc
  | stores version page hcache hv hpage =>
      rw [keepPage, if_pos hcache] at hprog
      obtain ⟨rfl, -⟩ := Prog.call.inj hprog
      exact ⟨version, page, rfl, hpage⟩
  | returned version page hv hpage => cases hprog
  | failed x => cases hprog

omit [LinearOrder K] [FloorRing K] in
/-- A page that was returned. -/
lemma ReadPhase.of_ret {now : ℤ} {page : Option UserListPage}
    (h : ReadPhase (K := K) platform settings tenantId q since now reflects (.ret page)) :
    ∃ version page', page = some page' ∧ since version ∧ reflects version page' := by
  generalize hprog : Prog.ret page = p at h
  cases h with
  | returned version page' hv hpage =>
      obtain rfl := Prog.ret.inj hprog
      exact ⟨version, page', rfl, hv, hpage⟩
  | stores version page' hcache hv hpage =>
      rw [keepPage, if_pos hcache] at hprog
      cases hprog
  | reads version hv hle =>
      rcases readUsersPage_cases (K := K) platform tenantId q with ⟨x, hraise⟩ | ⟨usersQuery, result, hcall⟩
      · rw [hraise] at hprog
        cases hprog
      · rw [hcall] at hprog
        cases hprog
  | starts | looks version hcache hv hle | failed x => cases hprog

end ReadPhases

/-! ### Runs -/

namespace CacheCalls

variable {K : Type} [Field K] [LinearOrder K] [FloorRing K] {ι : Type} [DecidableEq ι]
  {platform : Platform} {collation : Collation} {settings : Settings} {w : World K}
  {as bs : List (PoolAction ι CacheCall (CacheInput K))} {a : PoolAction ι CacheCall (CacheInput K)}
  {s s' t : CacheCalls ι K} {τ : ℕ → ℕ} {tenantId : ℕ} {q : GetUsers} {i : ι}

/-- Redis answers the command, and the reply arrives. -/
def RedisAnswers : PoolAction ι CacheCall (CacheInput K) → Prop
  | .step _ e => e.env.redisFails = false ∧ e.lost = false
  | _ => True

section History

variable (platform collation settings w as)

/-- At a moment of the run the version was at least this, and the request yields the page. -/
def Reflects (tenantId : ℕ) (q : GetUsers) (version : ℤ) (page : UserListPage) : Prop :=
  ∃ bs u, bs <+: as ∧ exec (step platform collation settings) (initial (ι := ι) w) bs = some u ∧
    version ≤ cachedVersion u.pool.store.keys tenantId ∧
    pageOn platform collation tenantId q u.pool.store.db = some (.ok page)

/-- The version is not older than the call of this process. -/
def SinceStart (i : ι) (tenantId : ℕ) (q : GetUsers) (version : ℤ) : Prop :=
  ∀ bs cs u, as = bs ++ .start i (.list tenantId q) :: cs → .die i ∉ cs →
    exec (step platform collation settings) (initial w) bs = some u →
    cachedVersion u.pool.store.keys tenantId ≤ version

/-- The step of the process that comes after `bs` has changed users of the tenant, and the process has
lived on since. -/
def ChangesAt (i : ι) (tenantId : ℕ) (bs : List (PoolAction ι CacheCall (CacheInput K)))
    (e : CacheInput K) (u : CacheCalls ι K) : Prop :=
  ∃ cs v, as = bs ++ .step i e :: cs ∧ .die i ∉ cs ∧
    exec (step platform collation settings) (initial w) bs = some u ∧
    step platform collation settings u (.step i e) = some v ∧
    usersOf u.pool.store.db tenantId ≠ usersOf v.pool.store.db tenantId

end History

/-! ### The tenants of the rows -/

/-- Along a run the databases are later and later. -/
lemma later_run (h : exec (step platform collation settings) s as = some t) :
    Accounts.Later s.pool.store.db t.pool.store.db := by
  refine exec_relates (I := fun _ => True) (R := fun s t : CacheCalls ι K =>
    Accounts.Later s.pool.store.db t.pool.store.db) (fun _ _ _ _ _ => trivial) (fun s => .refl _)
    (fun hst htu => hst.trans htu) (fun s a t _ hstep => ?_) trivial h
  rcases step_cases hstep with ⟨i, q, rfl, hstore, -⟩ |
    ⟨i, e, q, c, k, rfl, -, -, hstore, -⟩ | ⟨i, rfl, hstore, -⟩
  · rw [hstore]
    exact .refl _
  · rw [hstore]
    rcases Command.db_cases platform collation e.env s.pool.store c with hdb | ⟨_, _, _, htransaction⟩
    · exact Accounts.later_of_users (congrArg Database.users hdb)
    · exact Accounts.later_transaction htransaction
  · rw [hstore]
    exact .refl _

variable (platform collation settings w as) in
/-- Every user of the run is in the tenant `τ` of its key. -/
def Tenants (τ : ℕ → ℕ) : Prop :=
  ∀ bs u, bs <+: as → exec (step platform collation settings) (initial (ι := ι) w) bs = some u →
    ∀ k user, u.pool.store.db.users.row k = some user → user.tenantId = τ k

/-- **The tenants of the users of a run.** -/
lemma exists_tenants : ∃ τ, Tenants platform collation settings w as τ := by
  -- two rows of one key, of an earlier and of a later moment
  have hordered : ∀ bs bs' u u', bs <+: bs' →
      exec (step platform collation settings) (initial (ι := ι) w) bs = some u →
      exec (step platform collation settings) (initial (ι := ι) w) bs' = some u' →
      ∀ k user user', u.pool.store.db.users.row k = some user →
        u'.pool.store.db.users.row k = some user' → user'.tenantId = user.tenantId := by
    rintro bs _ u u' ⟨cs, rfl⟩ hu hu' k user user' huser huser'
    obtain ⟨v, hv, hrest⟩ := exec_append_eq_some.1 hu'
    obtain rfl : u = v := Option.some.inj (hu.symm.trans hv)
    obtain ⟨row, hrow, htenant⟩ := (later_run hrest).row k (u.pool.store.db.users.lt_of_row huser) user' huser'
    rw [htenant, Option.some.inj (hrow.symm.trans huser)]
  have hsome : ∀ k, ∃ tenantId, ∀ bs u, bs <+: as →
      exec (step platform collation settings) (initial (ι := ι) w) bs = some u →
      ∀ user, u.pool.store.db.users.row k = some user → user.tenantId = tenantId := by
    intro k
    by_cases hex : ∃ bs u, bs <+: as ∧
        exec (step platform collation settings) (initial (ι := ι) w) bs = some u ∧
        ∃ user, u.pool.store.db.users.row k = some user
    · obtain ⟨bs, u, hbs, hu, user, huser⟩ := hex
      refine ⟨user.tenantId, fun bs' u' hbs' hu' user' huser' => ?_⟩
      rcases List.prefix_or_prefix_of_prefix hbs hbs' with hle | hle
      · exact hordered bs bs' u u' hle hu hu' k user user' huser huser'
      · exact (hordered bs' bs u' u hle hu' hu k user' user huser' huser).symm
    · exact ⟨0, fun bs' u' hbs' hu' user' huser' => absurd ⟨bs', u', hbs', hu', user', huser'⟩ hex⟩
  choose τ hτ using hsome
  exact ⟨τ, fun bs u hbs hu k user huser => hτ k bs u hbs hu user huser⟩

/-! ### One step -/

/-- **What is known of a state of a run.** -/
structure Versioned (platform : Platform) (collation : Collation) (settings : Settings) (w : World K)
    (τ : ℕ → ℕ) (R : CacheCall → Prop) (as : List (PoolAction ι CacheCall (CacheInput K)))
    (s : CacheCalls ι K) : Prop where
  lasting : Lasting s.pool.store.keys
  grows : ∀ bs u tenantId, bs <+: as →
    exec (step platform collation settings) (initial w) bs = some u →
      cachedVersion u.pool.store.keys tenantId ≤ cachedVersion s.pool.store.keys tenantId
  alive : ∀ i tenantId bs e u, ChangesAt platform collation settings w as i tenantId bs e u →
    s.pool.calls i ≠ none
  pages : ∀ tenantId version q entry, R (.list tenantId q) →
    s.pool.store.keys (usersListCacheKey platform tenantId version q) = some entry →
      ∃ page, entry.value = page.toJson.dumps ∧
        Reflects platform collation settings w as tenantId q version page
  lists : ∀ i tenantId q p, s.pool.calls i = some (.list tenantId q, p) → R (.list tenantId q) ∧
    ReadPhase platform settings tenantId q (SinceStart platform collation settings w as i tenantId q)
      (cachedVersion s.pool.store.keys tenantId)
      (Reflects platform collation settings w as tenantId q) p
  changes : ∀ i m p, s.pool.calls i = some (.change m, p) → IgnoresCache p ∧
    ∃ owed, Repays τ (fun owed' _ => owed' = ∅) owed p ∧ ∀ tenantId bs e u,
      ChangesAt platform collation settings w as i tenantId bs e u →
        cachedVersion s.pool.store.keys tenantId ≤ cachedVersion u.pool.store.keys tenantId →
          tenantId ∈ owed

lemma Reflects.append {version : ℤ} {page : UserListPage}
    (h : Reflects platform collation settings w as tenantId q version page) :
    Reflects platform collation settings w (as ++ bs) tenantId q version page := by
  obtain ⟨cs, u, hcs, hu⟩ := h
  exact ⟨cs, u, hcs.trans (List.prefix_append as bs), hu⟩

/-- The start of the process is not the last step. -/
lemma SinceStart.snoc {version : ℤ}
    (h : SinceStart platform collation settings w as i tenantId q version)
    (ha : a ≠ .start i (.list tenantId q)) :
    SinceStart platform collation settings w (as ++ [a]) i tenantId q version := by
  intro bs cs u heq hdie hu
  rcases List.eq_nil_or_concat cs with rfl | ⟨cs, b, rfl⟩
  · exact absurd (List.append_inj' heq rfl).2 (by simpa using ha)
  · rw [List.concat_eq_append, ← List.cons_append, ← List.append_assoc] at heq
    rw [List.concat_eq_append] at hdie
    exact h bs cs u (List.append_inj' heq rfl).1 (fun hmem => hdie (List.mem_append_left _ hmem)) hu

/-- A change was made before, or by the last step. -/
lemma changesAt_snoc {e : CacheInput K} {u : CacheCalls ι K}
    (hrun : exec (step platform collation settings) (initial w) as = some s)
    (hstep : step platform collation settings s a = some s')
    (h : ChangesAt platform collation settings w (as ++ [a]) i tenantId bs e u) :
    (ChangesAt platform collation settings w as i tenantId bs e u ∧ a ≠ .die i) ∨
      (a = .step i e ∧ u = s ∧
        usersOf s.pool.store.db tenantId ≠ usersOf s'.pool.store.db tenantId) := by
  obtain ⟨cs, v, heq, hdie, hu, hv, hchanged⟩ := h
  rcases List.eq_nil_or_concat cs with rfl | ⟨cs, b, rfl⟩
  · obtain ⟨rfl, hlast⟩ := List.append_inj' heq rfl
    obtain rfl : a = .step i e := by simpa using hlast
    obtain rfl : u = s := Option.some.inj (hu.symm.trans hrun)
    obtain rfl : v = s' := Option.some.inj (hv.symm.trans hstep)
    exact .inr ⟨rfl, rfl, hchanged⟩
  · rw [List.concat_eq_append, ← List.cons_append, ← List.append_assoc] at heq
    rw [List.concat_eq_append] at hdie
    obtain ⟨rfl, hlast⟩ := List.append_inj' heq rfl
    obtain rfl : a = b := by simpa using hlast
    refine .inl ⟨⟨cs, v, rfl, fun hmem => hdie (List.mem_append_left _ hmem), hu, hv, hchanged⟩, ?_⟩
    rintro rfl
    exact hdie (by simp)

section Step

variable {R : CacheCall → Prop} {q₀ : CacheCall} {c : Command K}
  {k : c.Reply → AppProg K (Option UserListPage)} {e : CacheInput K}

/-- **What a call does to the keys**: nothing, or a change increments a version, or a list is stored. -/
lemma Versioned.keys_cases (hs : Versioned platform collation settings w τ R as s)
    (hi : s.pool.calls i = some (q₀, .call c k)) (hredis : e.env.redisFails = false) :
    let keys' := (c.exec platform collation e.env s.pool.store).2.keys
    keys' = s.pool.store.keys ∨
      (∃ tenantId n, c = .redisIncr (buildUsersListCacheVersionKey tenantId) ∧
        s.pool.store.keys.incr e.env.now e.env.lingers (buildUsersListCacheVersionKey tenantId) =
          some (n, keys')) ∨
      ∃ tenantId q version page, R (.list tenantId q) ∧
        keys' = s.pool.store.keys.setEx e.env.now (usersListCacheKey platform tenantId version q)
          page.toJson.dumps settings.usersCacheTtlSeconds ∧
        Reflects platform collation settings w as tenantId q version page := by
  intro keys'
  by_cases hsets : c.setsKeys = true
  · cases q₀ with
    | list tenantId q =>
        obtain ⟨hR, hphase⟩ := hs.lists i tenantId q _ hi
        obtain ⟨version, page, rfl, hpage⟩ := hphase.setsKeys hsets
        refine .inr (.inr ⟨tenantId, q, version, page, hR, ?_, hpage⟩)
        simp [keys', Command.exec, unlessFails, hredis]
    | change m =>
        have huses : usesRedis c = true := by
          cases c <;> first | rfl | cases hsets
        obtain ⟨⟨tenantId, rfl⟩, -⟩ := (hs.changes i m _ hi).1.every.1 huses
        obtain ⟨n, written, hincr, -⟩ := version_incr hs.lasting e.env.now e.env.lingers tenantId
        refine .inr (.inl ⟨tenantId, n, rfl, ?_⟩)
        simp [keys', Command.exec, unlessFails, hredis, hincr]
  · exact .inl (Command.keys_exec (by simpa using hsets))

/-- **A command keeps what is known of the keys**, and no version goes back. -/
lemma Versioned.keys_step (hs : Versioned platform collation settings w τ R as s)
    (hfree : ∀ tenantId tenantId' q q', R (.list tenantId q) → R (.list tenantId' q') →
      platform.sha256 q.cacheParams.dumps = platform.sha256 q'.cacheParams.dumps →
        q.cacheParams.dumps = q'.cacheParams.dumps)
    (hi : s.pool.calls i = some (q₀, .call c k)) (hredis : e.env.redisFails = false) :
    let keys' := (c.exec platform collation e.env s.pool.store).2.keys
    Lasting keys' ∧ (∀ tenantId, cachedVersion s.pool.store.keys tenantId ≤ cachedVersion keys' tenantId) ∧
      ∀ tenantId version q entry, R (.list tenantId q) →
        keys' (usersListCacheKey platform tenantId version q) = some entry →
          ∃ page, entry.value = page.toJson.dumps ∧
            Reflects platform collation settings w as tenantId q version page := by
  intro keys'
  rcases hs.keys_cases hi hredis with hsame | ⟨tenantId, n, -, hincr⟩ |
    ⟨tenantId, q, version, page, hR, hset, hpage⟩
  · change keys' = s.pool.store.keys at hsame
    rw [hsame]
    exact ⟨hs.lasting, fun _ => le_rfl, hs.pages⟩
  · obtain ⟨n', written, hincr', hlasting, hothers, hversions⟩ :=
      version_incr hs.lasting e.env.now e.env.lingers tenantId
    obtain rfl : written = keys' := (Prod.mk.inj (Option.some.inj (hincr'.symm.trans hincr))).2
    refine ⟨hlasting, fun tenantId' => ?_, fun tenantId' version q entry hR hentry => ?_⟩
    · rw [hversions]
      split_ifs <;> omega
    · rw [hothers _ (usersListCacheKey_ne_versionKey _ _ _ _)] at hentry
      exact hs.pages tenantId' version q entry hR hentry
  · have hversion : ∀ tenantId', keys' (buildUsersListCacheVersionKey tenantId') =
        s.pool.store.keys (buildUsersListCacheVersionKey tenantId') := fun tenantId' =>
      (congrFun hset _).trans
        (Redis.Keys.setEx_of_ne (usersListCacheKey_ne_versionKey tenantId tenantId' version q).symm)
    refine ⟨fun tenantId' entry hentry => hs.lasting tenantId' entry ((hversion tenantId').symm.trans hentry),
      fun tenantId' => (cachedVersion_congr (hversion tenantId')).ge,
      fun tenantId' version' q' entry hR' hentry => ?_⟩
    by_cases hkey : usersListCacheKey platform tenantId' version' q' =
        usersListCacheKey platform tenantId version q
    · -- the page was stored under the version of the key
      obtain ⟨rfl, hhash⟩ := usersListCacheKey_inj hkey
      have hversions : version' = version := usersListCacheKey_version hkey
      have hparams := hfree tenantId' tenantId' q' q hR' hR hhash
      rw [show keys' = _ from hset, hkey, Redis.Keys.setEx, Redis.Keys.put_self] at hentry
      obtain rfl := Option.some.inj hentry
      obtain ⟨bs, u, hbs, hu, hle, hyields⟩ := hpage
      exact ⟨page, rfl, bs, u, hbs, hu, hversions ▸ hle, (pageOn_congr hparams).trans hyields⟩
    · have hother := (congrFun hset _).trans (Redis.Keys.setEx_of_ne hkey)
      exact hs.pages tenantId' version' q' entry hR' (hother.symm.trans hentry)

/-- **What a command of a change does to the users of a tenant is owed**, until the version of the
tenant is greater. -/
lemma Versioned.owed_step (hs : Versioned platform collation settings w τ R as s)
    (hfree : ∀ tenantId tenantId' q q', R (.list tenantId q) → R (.list tenantId' q') →
      platform.sha256 q.cacheParams.dumps = platform.sha256 q'.cacheParams.dumps →
        q.cacheParams.dumps = q'.cacheParams.dumps)
    (hτ : ∀ k user, s.pool.store.db.users.row k = some user → user.tenantId = τ k)
    {m : UserChange} (hi : s.pool.calls i = some (.change m, .call c k))
    (hredis : e.env.redisFails = false)
    (hrun : exec (step platform collation settings) (initial w) as = some s)
    (hstep : step platform collation settings s (.step i e) = some s')
    (hstore : s'.pool.store =
      { (c.exec platform collation e.env s.pool.store).2 with clock := e.env.now }) :
    ∃ owed, Repays τ (fun owed' _ => owed' = ∅) owed
        (k (c.exec platform collation e.env s.pool.store).1) ∧
      ∀ tenantId bs e' u, ChangesAt platform collation settings w (as ++ [.step i e]) i tenantId bs e' u →
        cachedVersion s'.pool.store.keys tenantId ≤ cachedVersion u.pool.store.keys tenantId →
          tenantId ∈ owed := by
  obtain ⟨-, owed, hrepays, howed⟩ := hs.changes i m _ hi
  refine ⟨owes τ owed c (c.exec platform collation e.env s.pool.store).1,
    ⟨hrepays.informed.2 _ (inTenants_exec hτ)⟩, fun tenantId bs e' u hchanges hle => ?_⟩
  rcases changesAt_snoc hrun hstep hchanges with ⟨hbefore, -⟩ | ⟨-, rfl, hchanged⟩
  · obtain ⟨cs, v, rfl, -, hu, -⟩ := id hbefore
    have hgrows : cachedVersion u.pool.store.keys tenantId ≤ cachedVersion s.pool.store.keys tenantId :=
      hs.grows bs u tenantId (List.prefix_append bs _) hu
    have hkeys := hs.keys_step hfree hi hredis
    rw [hstore] at hle
    refine mem_owes (howed tenantId bs e' u hbefore ((hkeys.2.1 tenantId).trans hle)) ?_
    -- an increment would have made the version greater
    rintro rfl
    obtain ⟨n, keys', hincr, -, -, hversions⟩ :=
      version_incr hs.lasting e.env.now e.env.lingers tenantId
    have hexec : (Command.exec platform collation e.env s.pool.store
        (.redisIncr (buildUsersListCacheVersionKey tenantId))).2.keys = keys' := by
      simp [Command.exec, unlessFails, hredis, hincr]
    have hversion := hversions tenantId
    rw [if_pos rfl] at hversion
    simp only [hexec] at hle
    omega
  · rw [hstore] at hchanged
    rcases Command.db_cases platform collation e.env u.pool.store c with
      hdb | ⟨statements, id, rfl, htransaction⟩
    · exact absurd (congrFun (congrArg usersOf hdb) tenantId).symm hchanged
    · exact Or.inr (usersOf_transaction hτ htransaction hchanged)

/-- The step that changes users leaves the keys. -/
lemma keys_of_changed (h : step platform collation settings s a = some s')
    (hchanged : usersOf s.pool.store.db tenantId ≠ usersOf s'.pool.store.db tenantId) :
    s'.pool.store.keys = s.pool.store.keys := by
  rcases step_cases h with ⟨i, q₀, rfl, hstore, -⟩ | ⟨i, e, q₀, c, k, rfl, -, -, hstore, -⟩ |
    ⟨i, rfl, hstore, -⟩
  · rw [hstore]
  · rw [hstore] at hchanged ⊢
    rcases Command.db_cases platform collation e.env s.pool.store c with
      hdb | ⟨statements, id, rfl, htransaction⟩
    · exact absurd (congrFun (congrArg usersOf hdb) tenantId).symm hchanged
    · exact Command.keys_exec rfl
  · rw [hstore]

/-- The process that starts a call has none. -/
lemma calls_of_start {q₀ : CacheCall} (h : step platform collation settings s (.start i q₀) = some s') :
    s.pool.calls i = none := by
  obtain ⟨pool, hpool, -⟩ := Option.map_eq_some_iff.1 h
  rcases Pool.next_cases hpool with ⟨j, q, heq, hj, -⟩ | ⟨j, e, q, c, k, p', t, heq, -⟩ | ⟨j, q, p, heq, -⟩
  · obtain ⟨rfl, -⟩ := PoolAction.start.inj heq
    exact hj
  · cases heq
  · cases heq

/-- A call runs on a request that it was started with. -/
lemma started_of_run {q₀ : CacheCall} {p : AppProg K (Option UserListPage)}
    (h : exec (step platform collation settings) (initial w) as = some t)
    (hi : t.pool.calls i = some (q₀, p)) : .start i q₀ ∈ as := by
  refine exec_induction (P := fun as (s : CacheCalls ι K) =>
    ∀ i q p, s.pool.calls i = some (q, p) → .start i q ∈ as) (fun i q p hi => by cases hi)
    (fun as s a s' _ hs hstep j q p hj => ?_) h i q₀ p hi
  obtain ⟨pool, hpool, rfl⟩ := Option.map_eq_some_iff.1 hstep
  rw [List.mem_append, List.mem_singleton]
  rcases Pool.start_or_calls hpool hj with rfl | ⟨p', hp'⟩
  · exact .inr rfl
  · exact .inl (hs j q p' hp')

/-- **A step keeps what is known of the states of a run.** -/
lemma Versioned.step (hs : Versioned platform collation settings w τ R as s)
    (hfree : ∀ tenantId tenantId' q q', R (.list tenantId q) → R (.list tenantId' q') →
      platform.sha256 q.cacheParams.dumps = platform.sha256 q'.cacheParams.dumps →
        q.cacheParams.dumps = q'.cacheParams.dumps)
    (hτ : ∀ k user, s.pool.store.db.users.row k = some user → user.tenantId = τ k)
    (ha : RedisAnswers a) (hR : ∀ i q, a = .start i q → R q)
    (hrun : exec (CacheCalls.step platform collation settings) (initial w) as = some s)
    (h : CacheCalls.step platform collation settings s a = some s') :
    Versioned platform collation settings w τ R (as ++ [a]) s' := by
  have hrun' : exec (CacheCalls.step platform collation settings) (initial w) (as ++ [a]) = some s' :=
    exec_append_eq_some.2 ⟨s, hrun, by simp [exec, h]⟩
  -- the versions of earlier moments
  have hgrows : (∀ tenantId, cachedVersion s.pool.store.keys tenantId ≤
      cachedVersion s'.pool.store.keys tenantId) → ∀ bs u tenantId, bs <+: as ++ [a] →
      exec (CacheCalls.step platform collation settings) (initial w) bs = some u →
        cachedVersion u.pool.store.keys tenantId ≤ cachedVersion s'.pool.store.keys tenantId := by
    intro hmono bs u tenantId hbs hu
    rcases List.prefix_concat_iff.1 hbs with rfl | hbs
    · obtain rfl : u = s' := Option.some.inj (hu.symm.trans hrun')
      exact le_rfl
    · exact (hs.grows bs u tenantId hbs hu).trans (hmono tenantId)
  -- a list that another process reads
  have hothers : ∀ j, (∀ tenantId q, a ≠ .start j (.list tenantId q)) → ∀ tenantId q p,
      s.pool.calls j = some (.list tenantId q, p) →
      cachedVersion s.pool.store.keys tenantId ≤ cachedVersion s'.pool.store.keys tenantId →
      R (.list tenantId q) ∧ ReadPhase platform settings tenantId q
        (SinceStart platform collation settings w (as ++ [a]) j tenantId q)
        (cachedVersion s'.pool.store.keys tenantId)
        (Reflects platform collation settings w (as ++ [a]) tenantId q) p := by
    intro j hj tenantId q p hcalls hmono
    obtain ⟨hRq, hphase⟩ := hs.lists j tenantId q p hcalls
    exact ⟨hRq, hphase.imp (fun _ hsince => hsince.snoc (hj tenantId q)) hmono fun _ _ => Reflects.append⟩
  -- a change that another process makes
  have hother : ∀ j, (∀ e, a ≠ .step j e) → ∀ m p, s.pool.calls j = some (.change m, p) →
      (∀ tenantId, cachedVersion s.pool.store.keys tenantId ≤
        cachedVersion s'.pool.store.keys tenantId) →
      IgnoresCache p ∧ ∃ owed, Repays τ (fun owed' _ => owed' = ∅) owed p ∧ ∀ tenantId bs e u,
        ChangesAt platform collation settings w (as ++ [a]) j tenantId bs e u →
          cachedVersion s'.pool.store.keys tenantId ≤ cachedVersion u.pool.store.keys tenantId →
            tenantId ∈ owed := by
    intro j hj m p hcalls hmono
    obtain ⟨hignores, owed, hrepays, howed⟩ := hs.changes j m p hcalls
    refine ⟨hignores, owed, hrepays, fun tenantId bs e u hchanges hle => ?_⟩
    rcases changesAt_snoc hrun h hchanges with ⟨hbefore, -⟩ | ⟨heq, -⟩
    · exact howed tenantId bs e u hbefore ((hmono tenantId).trans hle)
    · exact absurd heq (hj e)
  have halive : (∀ j, s.pool.calls j ≠ none → a ≠ .die j → s'.pool.calls j ≠ none) →
      (∀ i e, a = .step i e → s'.pool.calls i ≠ none) → ∀ j tenantId bs e u,
      ChangesAt platform collation settings w (as ++ [a]) j tenantId bs e u →
        s'.pool.calls j ≠ none := by
    intro hlives hactor j tenantId bs e u hchanges
    rcases changesAt_snoc hrun h hchanges with ⟨hbefore, hdie⟩ | ⟨heq, -⟩
    · exact hlives j (hs.alive j tenantId bs e u hbefore) hdie
    · exact hactor j e heq
  rcases step_cases h with ⟨i, q₀, rfl, hstore, -, -, hcalls⟩ |
    ⟨i, e, q₀, c, k, rfl, hi, -, hstore, -, -, hcalls⟩ | ⟨i, rfl, hstore, -, -, hcalls⟩
  · have hsame : ∀ tenantId, cachedVersion s.pool.store.keys tenantId ≤
        cachedVersion s'.pool.store.keys tenantId := fun tenantId => by rw [hstore]
    refine ⟨hstore ▸ hs.lasting, hgrows hsame, halive (fun j hj _ => ?_) (fun j e heq => ?_),
      fun tenantId version q entry hRq hentry => ?_, fun j tenantId q p hj => ?_, fun j m p hj => ?_⟩
    · rw [hcalls, Function.update_apply]
      split_ifs
      · exact Option.some_ne_none _
      · exact hj
    · cases heq
    · obtain ⟨page, hpage, hreflects⟩ := hs.pages tenantId version q entry hRq (hstore ▸ hentry)
      exact ⟨page, hpage, hreflects.append⟩
    · rw [hcalls] at hj
      by_cases hji : j = i
      · rw [hji, Function.update_self, Option.some.injEq, Prod.mk.injEq] at hj
        obtain ⟨rfl, rfl⟩ := hj
        exact ⟨hR i _ rfl, .starts⟩
      · rw [Function.update_of_ne hji] at hj
        refine hothers j (fun tenantId' q' heq => hji ?_) tenantId q p hj (hsame tenantId)
        exact (PoolAction.start.inj heq).1.symm
    · rw [hcalls] at hj
      by_cases hji : j = i
      · rw [hji, Function.update_self, Option.some.injEq, Prod.mk.injEq] at hj
        obtain ⟨rfl, rfl⟩ := hj
        refine ⟨(ignores_program platform settings m).bind_ret _, ∅,
          (repays_program platform settings m).bind fun owed' _ howed => repays_ret howed,
          fun tenantId bs e u hchanges _ => ?_⟩
        rcases changesAt_snoc hrun h hchanges with ⟨hbefore, -⟩ | ⟨heq, -⟩
        · exact absurd (hji ▸ calls_of_start h) (hs.alive j tenantId bs e u hbefore)
        · cases heq
      · rw [Function.update_of_ne hji] at hj
        exact hother j (fun e heq => by cases heq) m p hj hsame
  · obtain ⟨hredis, hlost⟩ := ha
    obtain ⟨hlasting, hmono, hpages⟩ := hs.keys_step hfree hi hredis
    have hkeys : s'.pool.store.keys = (c.exec platform collation e.env s.pool.store).2.keys := by
      rw [hstore]
    rw [← hkeys] at hlasting hmono hpages
    rw [if_neg (by simp [hlost])] at hcalls
    refine ⟨hlasting, hgrows hmono, halive (fun j hj _ => ?_) (fun j e' heq => ?_),
      fun tenantId version q entry hRq hentry => ?_, fun j tenantId q p hj => ?_, fun j m p hj => ?_⟩
    · rw [hcalls, Function.update_apply]
      split_ifs
      · exact Option.some_ne_none _
      · exact hj
    · obtain ⟨rfl, -⟩ := PoolAction.step.inj heq
      rw [hcalls, Function.update_self]
      exact Option.some_ne_none _
    · obtain ⟨page, hpage, hreflects⟩ := hpages tenantId version q entry hRq hentry
      exact ⟨page, hpage, hreflects.append⟩
    · rw [hcalls] at hj
      by_cases hji : j = i
      · rw [hji, Function.update_self, Option.some.injEq, Prod.mk.injEq] at hj
        obtain ⟨rfl, rfl⟩ := hj
        obtain ⟨hRq, hphase⟩ := hs.lists i tenantId q _ hi
        have hsince : SinceStart platform collation settings w as i tenantId q
            (cachedVersion s.pool.store.keys tenantId) := fun bs cs u heq _ hu =>
          hs.grows bs u tenantId (heq ▸ List.prefix_append bs _) hu
        have hnext := hphase.step hredis hs.lasting hsince
          (fun _ page hpage version hle => ⟨as, s, List.prefix_rfl, hrun, hle, hpage⟩)
          (fun version text htext => ?_)
        · rw [hji]
          exact ⟨hRq, hnext.imp (fun _ hsince => hsince.snoc (by simp)) (hmono tenantId)
            fun _ _ => Reflects.append⟩
        · obtain ⟨entry, hentry, rfl⟩ := Option.map_eq_some_iff.1 htext
          exact hs.pages tenantId version q entry hRq (Option.filter_eq_some_iff.1 hentry).1
      · rw [Function.update_of_ne hji] at hj
        exact hothers j (fun _ _ heq => by cases heq) tenantId q p hj (hmono tenantId)
    · rw [hcalls] at hj
      by_cases hji : j = i
      · rw [hji, Function.update_self, Option.some.injEq, Prod.mk.injEq] at hj
        obtain ⟨rfl, rfl⟩ := hj
        rw [hji]
        exact ⟨⟨(hs.changes i m _ hi).1.every.2 _⟩,
          hs.owed_step hfree hτ hi hredis hrun h hstore⟩
      · rw [Function.update_of_ne hji] at hj
        exact hother j (fun e' heq => hji (PoolAction.step.inj heq).1.symm) m p hj hmono
  · have hsame : ∀ tenantId, cachedVersion s.pool.store.keys tenantId ≤
        cachedVersion s'.pool.store.keys tenantId := fun tenantId => by rw [hstore]
    have hold : ∀ j call, s'.pool.calls j = some call → s.pool.calls j = some call := by
      intro j call hj
      rw [hcalls, Function.update_apply] at hj
      split_ifs at hj
      exact hj
    refine ⟨hstore ▸ hs.lasting, hgrows hsame, halive (fun j hj hdie => ?_) (fun j e heq => ?_),
      fun tenantId version q entry hRq hentry => ?_, fun j tenantId q p hj => ?_, fun j m p hj => ?_⟩
    · rw [hcalls, Function.update_of_ne (fun heq => hdie (by rw [heq]))]
      exact hj
    · cases heq
    · obtain ⟨page, hpage, hreflects⟩ := hs.pages tenantId version q entry hRq (hstore ▸ hentry)
      exact ⟨page, hpage, hreflects.append⟩
    · exact hothers j (fun _ _ heq => by cases heq) tenantId q p (hold j _ hj) (hsame tenantId)
    · exact hother j (fun e heq => by cases heq) m p (hold j _ hj) hsame

end Step

/-! ### Runs -/

/-- **Every state of a run.** -/
lemma versioned_of_run (hw : Cold platform w) (hkeys : Lasting w.keys) (hfree : CollisionFree platform as)
    (hanswers : ∀ a ∈ as, RedisAnswers a) (hτ : Tenants platform collation settings w as τ)
    (hbs : bs <+: as) (h : exec (step platform collation settings) (initial w) bs = some s) :
    Versioned platform collation settings w τ (fun q => ∃ i, .start i q ∈ as) bs s := by
  -- the requests are those of the whole run, and the induction is on what has run of it
  refine exec_induction (P := fun bs u => bs <+: as →
    Versioned platform collation settings w τ (fun q => ∃ i, .start i q ∈ as) bs u)
    (fun _ => ?_) (fun bs u a v hu ih hv hbs => ?_) h hbs
  · refine ⟨hkeys, fun bs u tenantId hbs hu => ?_, fun i tenantId bs e u hchanges => ?_,
      fun tenantId version q entry _ hentry => ?_, fun i tenantId q p hi => ?_, fun i m p hi => ?_⟩
    · obtain rfl := List.prefix_nil.1 hbs
      obtain rfl := Option.some.inj hu
      exact le_rfl
    · obtain ⟨cs, v, heq, -⟩ := hchanges
      simp at heq
    · cases (hw.pages tenantId version q).symm.trans hentry
    · cases hi
    · cases hi
  · have hprefix : bs <+: as := (List.prefix_append bs [a]).trans hbs
    refine (ih hprefix).step ?_ (hτ bs u hprefix hu) (hanswers a (hbs.subset (by simp))) ?_ hu hv
    · rintro tenantId tenantId' q q' ⟨i, hi⟩ ⟨j, hj⟩ hhash
      exact hfree i j tenantId tenantId' q q' hi hj hhash
    · rintro i q rfl
      exact ⟨i, hbs.subset (by simp)⟩

end CacheCalls

/-! ### A list that is asked for again -/

/-- A page is cached, and then a user is to be deactivated. -/
def cachedList : List (PoolAction ℕ CacheCall (CacheInput ℚ)) :=
  .start 0 (.list 1 plainUsers) :: List.replicate 4 (.step 0 ⟨Env.calm 0, false⟩) ++
    .start 1 (.change (.byToken adminToken none (.deactivate 2))) ::
    List.replicate 4 (.step 1 ⟨Env.calm 1, false⟩)

/-- The call that changes users has returned. -/
def changeReturned (s : CacheCalls ℕ ℚ) (i : ℕ) : Bool :=
  match s.pool.calls i with
  | some (.change _, .ret _) => true
  | _ => false

lemma calls_of_changeReturned {s : CacheCalls ℕ ℚ} {i : ℕ} (h : changeReturned s i = true) :
    ∃ m result, s.pool.calls i = some (.change m, .ret result) := by
  unfold changeReturned at h
  split at h
  · rename_i m result hi
    exact ⟨m, result, hi⟩
  · cases h

end StarterBackend.Users

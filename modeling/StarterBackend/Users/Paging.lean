/-
Paging through the list of users.

A client starts `get_users` without a cursor and goes on with the `next_cursor` of each
page until there is none (`Follows`).  The pages are those of a keyset traversal: the
cursor stands for the last user of the page before, and the filter on the cursor keeps
what comes after that user in the order of the list.

* `exactly_once`: with the cache disabled, whatever happens to other users in between, a
  user that keeps its place is on exactly one page, and the pages are strictly increasing.
* `cursor_pages_agree`: over one state of the tables, the pages are those that offsets
  yield, together they are the whole list, and there is a last one.
-/
import StarterBackend.Users.Listing
import StarterBackend.Lib.Keyset

namespace StarterBackend.Users

open Lib App

/-! ### The order of the list -/

/-- The database compares the values of a column by one total order, for sorting as well as with
the value of a cursor. -/
structure Ordered (c : Collation) : Prop where
  total : ∀ s t, c.le s t = true ∨ c.le t s = true
  trans : ∀ s t u, c.le s t = true → c.le t u = true → c.le s u = true
  antisymm : ∀ s t, c.le s t = true → c.le t s = true → s = t
  compare : ∀ sortBy (z : User), ∃ f, c.compare sortBy (z.sortValue sortBy).toJson = some f ∧
    ∀ y : User, f (y.sortValue sortBy) = c.ordering (y.sortValue sortBy) (z.sortValue sortBy)

/-- The value by which a user in a response is sorted. -/
def readSortValue (user : UserRead) : UserSortBy → SqlValue
  | .id => .int user.id
  | .email => .text user.email
  | .role => .text user.role
  | .isActive => .bool user.isActive

/-- `x` comes before `y` by the sort value, and by the id among equal sort values. -/
def SortedBefore (c : Collation) (sortBy : UserSortBy) (x y : UserRead) : Prop :=
  if readSortValue x sortBy = readSortValue y sortBy then x.id < y.id
  else c.valueLe (readSortValue x sortBy) (readSortValue y sortBy) = true

/-- The order of a list, in its direction. -/
def ListedBefore (c : Collation) (q : GetUsers) (x y : UserRead) : Prop :=
  match q.sortOrder with
  | .asc => SortedBefore c q.sortBy x y
  | .desc => SortedBefore c q.sortBy y x

section Order

variable {c : Collation} {sortBy : UserSortBy} {sortOrder : SortOrder} {x y z : User}

lemma valueLe_total (hc : Ordered c) (sortBy : UserSortBy) (x y : User) :
    c.valueLe (x.sortValue sortBy) (y.sortValue sortBy) = true ∨
      c.valueLe (y.sortValue sortBy) (x.sortValue sortBy) = true := by
  cases sortBy with
  | id => simpa [User.sortValue, Collation.valueLe] using Nat.le_total x.id y.id
  | email => exact hc.total x.email y.email
  | role => exact hc.total x.role y.role
  | isActive => simpa [User.sortValue, Collation.valueLe] using le_total x.isActive y.isActive

lemma valueLe_trans (hc : Ordered c)
    (hxy : c.valueLe (x.sortValue sortBy) (y.sortValue sortBy) = true)
    (hyz : c.valueLe (y.sortValue sortBy) (z.sortValue sortBy) = true) :
    c.valueLe (x.sortValue sortBy) (z.sortValue sortBy) = true := by
  cases sortBy with
  | id =>
      simp only [User.sortValue, Collation.valueLe, decide_eq_true_eq] at *
      exact hxy.trans hyz
  | email => exact hc.trans _ _ _ hxy hyz
  | role => exact hc.trans _ _ _ hxy hyz
  | isActive =>
      simp only [User.sortValue, Collation.valueLe, decide_eq_true_eq] at *
      exact hxy.trans hyz

lemma valueLe_antisymm (hc : Ordered c)
    (hxy : c.valueLe (x.sortValue sortBy) (y.sortValue sortBy) = true)
    (hyx : c.valueLe (y.sortValue sortBy) (x.sortValue sortBy) = true) :
    x.sortValue sortBy = y.sortValue sortBy := by
  cases sortBy with
  | id =>
      simp only [User.sortValue, Collation.valueLe, decide_eq_true_eq] at *
      rw [le_antisymm hxy hyx]
  | email => exact congrArg _ (hc.antisymm _ _ hxy hyx)
  | role => exact congrArg _ (hc.antisymm _ _ hxy hyx)
  | isActive =>
      simp only [User.sortValue, Collation.valueLe, decide_eq_true_eq] at *
      rw [le_antisymm hxy hyx]

/-- The ascending order of a page. -/
lemma userLe_asc : c.userLe sortBy .asc x y = true ↔
    if x.sortValue sortBy = y.sortValue sortBy then x.id ≤ y.id
    else c.valueLe (x.sortValue sortBy) (y.sortValue sortBy) = true := by
  simp only [Collation.userLe]
  split_ifs <;> simp

lemma userLe_desc : c.userLe sortBy .desc x y = c.userLe sortBy .asc y x := rfl

lemma totalOrder_asc (hc : Ordered c) : TotalOrder (c.userLe sortBy .asc) where
  total x y := by
    simp only [userLe_asc]
    by_cases hxy : x.sortValue sortBy = y.sortValue sortBy
    · simpa [hxy] using Nat.le_total x.id y.id
    · simpa [hxy, Ne.symm hxy] using valueLe_total hc sortBy x y
  trans x y z hxy hyz := by
    rw [userLe_asc] at *
    by_cases h₁ : x.sortValue sortBy = y.sortValue sortBy
    · rw [if_pos h₁] at hxy
      rw [h₁]
      split_ifs at hyz ⊢ with h₂
      · exact hxy.trans hyz
      · exact hyz
    · rw [if_neg h₁] at hxy
      by_cases h₂ : y.sortValue sortBy = z.sortValue sortBy
      · rw [← h₂, if_neg h₁]
        exact hxy
      · rw [if_neg h₂] at hyz
        have h₃ : x.sortValue sortBy ≠ z.sortValue sortBy := fun heq =>
          h₁ (valueLe_antisymm hc hxy (by rw [heq]; exact hyz))
        rw [if_neg h₃]
        exact valueLe_trans hc hxy hyz

/-- **The order of a list is total.** -/
theorem totalOrder_userLe (hc : Ordered c) : TotalOrder (c.userLe sortBy sortOrder) := by
  cases sortOrder with
  | asc => exact totalOrder_asc hc
  | desc =>
      exact ⟨fun x y => (totalOrder_asc hc).total y x,
        fun x y z hxy hyz => (totalOrder_asc hc).trans z y x hyz hxy⟩

/-- What follows in the order of a page follows in that of the response. -/
lemma sortedBefore_of_comes (hc : Ordered c) (h : Comes (c.userLe sortBy .asc) x y) :
    SortedBefore c sortBy x.read y.read := by
  have hvalue : ∀ u : User, readSortValue u.read sortBy = u.sortValue sortBy := by
    intro u
    cases sortBy <;> rfl
  have hyx : ¬ c.userLe sortBy .asc y x = true := by rw [h]; exact Bool.false_ne_true
  rw [userLe_asc] at hyx
  rw [SortedBefore, hvalue, hvalue]
  by_cases hxy : x.sortValue sortBy = y.sortValue sortBy
  · rw [if_pos hxy.symm] at hyx
    rw [if_pos hxy]
    exact Nat.lt_of_not_le hyx
  · rw [if_neg (Ne.symm hxy)] at hyx
    rw [if_neg hxy]
    exact (valueLe_total hc sortBy x y).resolve_right hyx

lemma listedBefore_of_comes {q : GetUsers} (hc : Ordered c)
    (h : Comes (c.userLe q.sortBy q.sortOrder) x y) : ListedBefore c q x.read y.read := by
  unfold ListedBefore
  cases hq : q.sortOrder with
  | asc => exact sortedBefore_of_comes hc (hq ▸ h)
  | desc =>
      have hdesc : Comes (c.userLe q.sortBy .desc) x y := hq ▸ h
      exact sortedBefore_of_comes hc hdesc

/-- **The filter on a cursor keeps what comes after the user that it was made of.** -/
lemma isAfter_eq (hc : Ordered c) {q : UsersQuery} {f : SqlValue → Ordering}
    (hf : ∀ y : User, f (y.sortValue q.sortBy) =
      c.ordering (y.sortValue q.sortBy) (z.sortValue q.sortBy)) (y : User) :
    q.isAfter f z.id y = !c.userLe q.sortBy q.sortOrder y z := by
  rw [Bool.eq_iff_iff, Bool.not_eq_true', Bool.eq_false_iff]
  rw [UsersQuery.isAfter, hf y, Collation.ordering]
  cases q.sortOrder with
  | asc =>
      rw [ne_eq, userLe_asc]
      by_cases hyz : y.sortValue q.sortBy = z.sortValue q.sortBy
      · simp [hyz]
      · by_cases hle : c.valueLe (y.sortValue q.sortBy) (z.sortValue q.sortBy) = true <;>
          simp [hyz, hle]
  | desc =>
      rw [userLe_desc, ne_eq, userLe_asc]
      by_cases hyz : y.sortValue q.sortBy = z.sortValue q.sortBy
      · simp [hyz]
      · have htotal := valueLe_total hc q.sortBy y z
        have hanti := fun h₁ h₂ => hyz (valueLe_antisymm (x := y) (y := z) hc h₁ h₂)
        by_cases hle : c.valueLe (y.sortValue q.sortBy) (z.sortValue q.sortBy) = true
        · have hge : ¬ c.valueLe (z.sortValue q.sortBy) (y.sortValue q.sortBy) = true := hanti hle
          simp [hyz, Ne.symm hyz, hle, hge]
        · simp [hyz, Ne.symm hyz, hle, htotal.resolve_left hle]

/-- Two users have the same place if they have one sort value and one id. -/
lemma ties_iff (hc : Ordered c) : Ties (c.userLe sortBy sortOrder) x y ↔
    x.sortValue sortBy = y.sortValue sortBy ∧ x.id = y.id := by
  have hasc : Ties (c.userLe sortBy .asc) x y ↔
      x.sortValue sortBy = y.sortValue sortBy ∧ x.id = y.id := by
    rw [Ties, userLe_asc, userLe_asc]
    by_cases hxy : x.sortValue sortBy = y.sortValue sortBy
    · simp [hxy, le_antisymm_iff]
    · simp only [if_neg (Ne.symm hxy), hxy, false_and, iff_false]
      exact fun h => hxy (valueLe_antisymm hc h.1 h.2)
  cases sortOrder with
  | asc => exact hasc
  | desc => exact and_comm.trans hasc

/-- No two users of a table have the same place in a list. -/
lemma pairwise_not_ties (hc : Ordered c) {users : Table User} {p p' : User → Bool} :
    ((users.select p).filter p').Pairwise fun x y => ¬ Ties (c.userLe sortBy sortOrder) x y :=
  (users.pairwise_toList.sublist (List.filter_sublist.trans List.filter_sublist)).imp
    fun hne htie => hne ((ties_iff hc).1 htie).2

end Order

/-! ### Pages of the tables -/

/-- The queries alone, on the tables. -/
def onDatabase {K : Type} [LinearOrder K] (c : Collation) :
    Prog.Interp (Command K) Command.Reply AppError (Database K) Unit := fun command _ db =>
  match command with
  | .query q => some (.ok (q.eval c db), db)
  | _ => none

/-- The page that a request yields on the tables. -/
def pageOn {K : Type} [LinearOrder K] (platform : Platform) (c : Collation) (tenantId : ℕ)
    (q : GetUsers) (db : Database K) : Option (Except AppError UserListPage) :=
  ((readUsersPage platform tenantId q).run (onDatabase c) () db).map Prod.fst

/-- The users of a list, before they are sorted. -/
def listed {K : Type} (c : Collation) (tenantId : ℕ) (q : GetUsers) (db : Database K) : List User :=
  (db.users.select fun user => user.tenantId == tenantId).filter
    ((q.usersQuery tenantId none 0).admits c)

section Pages

variable {K : Type} [LinearOrder K] {platform : Platform} {c : Collation} {tenantId : ℕ}
  {q : GetUsers} {db : Database K}

/-- The response that consists of these users. -/
def response (platform : Platform) (q : GetUsers) (users : List User) : UserListPage :=
  ⟨users.map User.read, nextCursor platform q users⟩

/-- The request for the page after a user, or for the first page. -/
def requestAfter (platform : Platform) (q : GetUsers) (position : Option User) : GetUsers :=
  { q with
    cursor := position.map fun z => platform.encodeCursor (.obj (q.cursorPayload z))
    skip := none }

/-- The request for the page at an offset. -/
def requestAt (q : GetUsers) (skip : ℕ) : GetUsers := { q with cursor := none, skip := some skip }

/-- What was encoded is what is decoded: a cursor survives its way to the client and back. -/
def RoundTrips (platform : Platform) : Prop :=
  ∀ v : Json, v.wf = true → platform.decodeCursor (platform.encodeCursor v) = .value v

/-- The page of a query. -/
lemma run_keysetPage (after : Option (ℤ × Json)) {users : List User}
    (h : (q.usersQuery tenantId after 0).eval c
      (db.users.select fun user => user.tenantId == tenantId) = some users) :
    (keysetPage platform tenantId q after).run (onDatabase c) () db =
      some (.ok (response platform q users), db) := by
  have heval : Query.eval c db (.users (q.usersQuery tenantId after 0)) = some users := h
  simp [keysetPage, query, issue, Prog.cmd, Prog.run, onDatabase, heval, orUnhandled,
    Prog.getOrRaise, response]

lemma wf_jsonOption {α : Type} {f : α → Json} (hf : ∀ a, (f a).wf = true) (x : Option α) :
    (jsonOption f x).wf = true := by
  cases x with
  | none => rfl
  | some a => exact hf a

lemma pyEq_jsonOption {α : Type} {f : α → Json} (hf : ∀ a, pyEq platform (f a) (f a) = true)
    (x : Option α) : pyEq platform (jsonOption f x) (jsonOption f x) = true := by
  cases x with
  | none => rfl
  | some a => exact hf a

/-- The payload of a cursor names the parameters of its list. -/
lemma namesFilters_cursorPayload (q : GetUsers) (z : User) :
    namesFilters platform (q.cursorPayload z) q = true := by
  have hstr : ∀ s, pyEq platform (.str s) (.str s) = true := fun s => by simp [pyEq]
  have hbool : ∀ b, pyEq platform (.bool b) (.bool b) = true := fun b => by simp [pyEq]
  rw [namesFilters, List.all_eq_true]
  intro filter hfilter
  simp only [GetUsers.cursorFilters, List.mem_cons, List.not_mem_nil, or_false] at hfilter
  rcases hfilter with rfl | rfl | rfl | rfl | rfl | rfl
  · exact hstr _
  · exact hstr _
  · exact pyEq_jsonOption (fun _ => hstr _) _
  · exact pyEq_jsonOption hbool _
  · exact pyEq_jsonOption hstr _
  · exact hstr _

omit [LinearOrder K] in
/-- A cursor of a list is accepted by the requests for that list. -/
lemma cursorPosition_encodeCursor (hplatform : RoundTrips platform) (z : User) :
    cursorPosition (K := K) platform (platform.encodeCursor (.obj (q.cursorPayload z))) q =
      .ret ((z.id : ℤ), (z.sortValue q.sortBy).toJson) := by
  have hwf : (Json.obj (q.cursorPayload z)).wf = true := by
    have hnodup : ((q.cursorPayload z).map Prod.fst).Nodup := by
      simp [GetUsers.cursorPayload]
    rw [Json.wf, Bool.and_eq_true, decide_eq_true_eq, Json.wfFields_iff]
    refine ⟨hnodup, fun field hfield => ?_⟩
    simp only [GetUsers.cursorPayload, List.mem_cons, List.not_mem_nil, or_false] at hfield
    rcases hfield with rfl | rfl | rfl | rfl | rfl | rfl | rfl | rfl
    · rfl
    · exact wf_jsonOption (fun _ => rfl) _
    · exact wf_jsonOption (fun _ => rfl) _
    · exact wf_jsonOption (fun _ => rfl) _
    · rfl
    · rfl
    · rfl
    · cases q.sortBy <;> rfl
  rw [cursorPosition_obj (hplatform _ hwf)]
  rcases validateCursorFilters_eq platform (q.cursorPayload z) q with
    ⟨hfalse, -⟩ | ⟨-, hvalid⟩
  · rw [namesFilters_cursorPayload] at hfalse
    exact absurd hfalse (Bool.true_eq_false_eq_False)
  · have hkey : cursorKey (q.cursorPayload z) = .ok (.num z.id, (z.sortValue q.sortBy).toJson) := by
      have hid : payloadGet (q.cursorPayload z) "id" = .num z.id := by
        simp [payloadGet, GetUsers.cursorPayload, Json.lookup]
      have hvalue : payloadGet (q.cursorPayload z) "sort_value" = (z.sortValue q.sortBy).toJson := by
        simp [payloadGet, GetUsers.cursorPayload, Json.lookup]
      rw [cursorKey, hid, hvalue]
      cases q.sortBy <;> rfl
    rw [hvalid, hkey]
    rfl

omit [LinearOrder K] in
/-- A query with an offset. -/
lemma eval_offset (n : ℕ) : (q.usersQuery tenantId none n).eval c
    (db.users.select fun user => user.tenantId == tenantId) =
      some ((((listed c tenantId q db).mergeSort (c.userLe q.sortBy q.sortOrder)).drop n).take
        q.limit) := rfl

omit [LinearOrder K] in
/-- The query for the page after a user. -/
lemma eval_after (hc : Ordered c) (z : User) :
    (q.usersQuery tenantId (some (z.id, (z.sortValue q.sortBy).toJson)) 0).eval c
      (db.users.select fun user => user.tenantId == tenantId) =
        some (page (c.userLe q.sortBy q.sortOrder) q.limit (some z) (listed c tenantId q db)) := by
  obtain ⟨f, hf, hcompare⟩ := hc.compare q.sortBy z
  have hafter := isAfter_eq (z := z) hc
    (q := q.usersQuery tenantId (some (z.id, (z.sortValue q.sortBy).toJson)) 0) hcompare
  simp only [UsersQuery.eval, GetUsers.usersQuery, hf, Option.map_some, List.drop_zero, page,
    rowsAfter, listed, List.filter_filter, Option.all_some, Option.some.injEq]
  congr 2
  refine List.filter_congr fun y _ => ?_
  rw [Bool.and_comm]
  exact congrArg₂ _ (hafter y) rfl

/-- **The page after a user, or the first page.** -/
theorem pageOn_after (hc : Ordered c) (hplatform : RoundTrips platform) (position : Option User) :
    pageOn platform c tenantId (requestAfter platform q position) db = some (.ok (response platform q
      (page (c.userLe q.sortBy q.sortOrder) q.limit position (listed c tenantId q db)))) := by
  cases position with
  | none =>
      have hfirst : readUsersPage (K := K) platform tenantId (requestAfter platform q none) =
          keysetPage platform tenantId (requestAfter platform q none) none :=
        readUsersPage_first rfl rfl
      rw [pageOn, hfirst, run_keysetPage none (eval_offset 0)]
      simp [page, rowsAfter]
      rfl
  | some z =>
      have hposition : cursorPosition (K := K) platform
          (platform.encodeCursor (.obj (q.cursorPayload z))) (requestAfter platform q (some z)) =
            .ret ((z.id : ℤ), (z.sortValue q.sortBy).toJson) :=
        cursorPosition_encodeCursor (q := requestAfter platform q (some z)) hplatform z
      have hnext : readUsersPage (K := K) platform tenantId (requestAfter platform q (some z)) =
          keysetPage platform tenantId (requestAfter platform q (some z))
            (some ((z.id : ℤ), (z.sortValue q.sortBy).toJson)) := by
        rw [readUsersPage_next rfl rfl, hposition, Prog.ret_bind]
      rw [pageOn, hnext]
      exact congrArg (Option.map Prod.fst)
        (run_keysetPage _ (eval_after (q := requestAfter platform q (some z)) hc z))

/-- The page at an offset. -/
theorem pageOn_at (n : ℕ) : ∃ next, pageOn platform c tenantId (requestAt q n) db =
    some (.ok ⟨((((listed c tenantId q db).mergeSort (c.userLe q.sortBy q.sortOrder)).drop n).take
      q.limit).map User.read, next⟩) := by
  rcases Nat.eq_zero_or_pos n with rfl | hn
  · have hfirst : readUsersPage (K := K) platform tenantId (requestAt q 0) =
        keysetPage platform tenantId (requestAt q 0) none := readUsersPage_first rfl rfl
    rw [pageOn, hfirst, run_keysetPage none (eval_offset 0)]
    exact ⟨_, rfl⟩
  · have hskip : (requestAt q n).skip.filter (0 < ·) = some n := by simp [requestAt, hn]
    rw [pageOn, readUsersPage_offset hskip]
    exact ⟨none, rfl⟩

/-- The next cursor is that of the last user of a full page. -/
lemma nextCursor_cases (platform : Platform) (q : GetUsers) (users : List User) :
    (users.length < q.limit ∧ nextCursor platform q users = none) ∨
      q.limit ≤ users.length ∧ ∃ z, users.getLast? = some z ∧
        nextCursor platform q users = some (platform.encodeCursor (.obj (q.cursorPayload z))) := by
  rcases Nat.lt_or_ge users.length q.limit with hlt | hge
  · exact .inl ⟨hlt, if_pos hlt⟩
  · refine .inr ⟨hge, ?_⟩
    rcases hlast : users.getLast? with _ | z
    · have hnil : users = [] := List.getLast?_eq_none_iff.1 hlast
      have := q.limit_pos
      simp only [hnil, List.length_nil] at hge
      omega
    · exact ⟨z, rfl, by rw [nextCursor, if_neg (Nat.not_lt.2 hge), hlast]; rfl⟩

end Pages

/-! ### Clients -/

/-- A request of a client: what it meets, and the page that it gets. -/
structure Fetch (K : Type) where
  env : Env K
  world : World K
  page : UserListPage

section Clients

variable {K : Type} [Field K] [LinearOrder K] [FloorRing K] (platform : Platform)
  (collation : Collation) (settings : Settings) (tenantId : ℕ) (q : GetUsers)

/-- `get_users` returns a page. -/
def Returns (q : GetUsers) (e : Env K) (w : World K) (page : UserListPage) : Prop :=
  ∃ w', (getUsers platform settings tenantId q).run (interp platform collation) e w =
    some (.ok page, w')

/-- A client that goes on with the `next_cursor` of each page until there is none.  What the world
is at each request is left open. -/
inductive Follows : Option String → List (Fetch K) → Prop
  | last {cursor : Option String} {f : Fetch K} :
      Returns platform collation settings tenantId { q with cursor, skip := none } f.env f.world
        f.page →
      f.page.nextCursor = none → Follows cursor [f]
  | next {cursor : Option String} {f : Fetch K} {cursor' : String} {rest : List (Fetch K)} :
      Returns platform collation settings tenantId { q with cursor, skip := none } f.env f.world
        f.page →
      f.page.nextCursor = some cursor' → Follows (some cursor') rest → Follows cursor (f :: rest)

variable {platform collation settings tenantId q} {e : Env K} {w w' : World K}
  {page : UserListPage}

/-- A program that only queries. -/
lemma run_of_queries {α : Type} {p : AppProg K α} (hp : p.Every fun c _ => ∃ q, c = .query q)
    (hclock : w.clock ≤ e.now) : ∃ w', w'.clock ≤ e.now ∧ w'.db = w.db ∧
      p.run (interp platform collation) e w =
        (p.run (onDatabase collation) () w.db).map fun x => (x.1, w') := by
  induction p generalizing w with
  | ret a => exact ⟨w, hclock, rfl, rfl⟩
  | raise x => exact ⟨w, hclock, rfl, rfl⟩
  | call c k ih =>
      obtain ⟨q, rfl⟩ := hp.1
      obtain ⟨w', hw', hdb, hrun⟩ := ih (q.eval collation w.db) (hp.2 _)
        (w := { w with clock := e.now }) le_rfl
      exact ⟨w', hw', hdb, by simpa [Prog.run, interp, hclock, Command.exec, onDatabase] using hrun⟩

omit [Field K] [LinearOrder K] [FloorRing K] in
/-- A page is read with one query at most. -/
lemma every_readUsersPage (q : GetUsers) :
    (readUsersPage (K := K) platform tenantId q).Every fun c _ => ∃ q, c = .query q := by
  have hkeyset : ∀ after, (keysetPage (K := K) platform tenantId q after).Every
      fun c _ => ∃ q, c = .query q := fun after => ⟨⟨_, rfl⟩, fun r => by cases r <;> trivial⟩
  rcases hskip : q.skip.filter (0 < ·) with _ | skip
  · rcases hcursor : q.cursor with _ | cursor
    · rw [readUsersPage_first hskip hcursor]
      exact hkeyset none
    · rw [readUsersPage_next hskip hcursor]
      rcases cursorPosition_cases (K := K) platform cursor q with ⟨p, hp⟩ | ⟨x, hp⟩
      · rw [hp]
        exact hkeyset (some p)
      · rw [hp]
        trivial
  · rw [readUsersPage_offset hskip]
    exact ⟨⟨_, rfl⟩, fun r => by cases r <;> trivial⟩

variable (platform collation tenantId) in
/-- Reading a page leads to what the request yields on the tables. -/
lemma run_readUsersPage (q : GetUsers) (hclock : w.clock ≤ e.now) : ∃ w', w'.clock ≤ e.now ∧
    (readUsersPage platform tenantId q).run (interp platform collation) e w =
      (pageOn platform collation tenantId q w.db).map fun x => (x, w') := by
  obtain ⟨w', hclock', -, hrun⟩ := run_of_queries (every_readUsersPage q) hclock
  exact ⟨w', hclock', by rw [hrun, pageOn, Option.map_map]; rfl⟩

/-- What `GET` of a key replies. -/
def redisReply (e : Env K) (w : World K) (key : String) : Option (Option String) :=
  if e.redisFails then none else some (w.keys.get e.now e.lingers key)

lemma run_redisGet (key : String) (hclock : w.clock ≤ e.now) :
    (issue (.redisGet key)).run (interp platform collation) e w =
      some (.ok (redisReply e w key), { w with clock := e.now }) := by
  rw [run_issue _ hclock]
  simp only [Command.exec, unlessFails, redisReply]
  split_ifs <;> rfl

omit [Field K] [LinearOrder K] [FloorRing K] in
lemma cacheVersion_cases (reply : Option (Option String)) :
    (∃ version, cacheVersion (K := K) reply = .ret version) ∨
      ∃ x, cacheVersion (K := K) reply = .raise x := by
  rcases reply with _ | _ | text
  · exact .inl ⟨0, rfl⟩
  · exact .inl ⟨0, rfl⟩
  · rcases hparse : PyText.parseInt text with _ | version
    · exact .inr ⟨_, by rw [cacheVersion, hparse]; rfl⟩
    · exact .inl ⟨version, by rw [cacheVersion, hparse]; rfl⟩

omit [Field K] [LinearOrder K] [FloorRing K] in
lemma cachedPage_cases (reply : Option (Option String)) :
    (∃ cached, cachedPage (K := K) reply = .ret cached) ∨
      ∃ x, cachedPage (K := K) reply = .raise x := by
  rcases reply with _ | _ | text
  · exact .inl ⟨none, rfl⟩
  · exact .inl ⟨none, rfl⟩
  · rcases hloads : Json.loads text with _ | value
    · exact .inr ⟨_, by rw [cachedPage, hloads]; rfl⟩
    · rcases hpage : UserListPage.ofJson value with _ | page
      · exact .inr ⟨.unhandled, by simp [cachedPage, hloads, hpage, Prog.getOrRaise, orUnhandled]⟩
      · exact .inl ⟨some page, by simp [cachedPage, hloads, hpage, Prog.getOrRaise, orUnhandled]⟩

/-- The first step of `get_users`. -/
lemma returns_iff {q : GetUsers} : Returns platform collation settings tenantId q e w page ↔
    w.clock ≤ e.now ∧ ∃ version,
      cacheVersion (K := K) (redisReply e w (buildUsersListCacheVersionKey tenantId)) = .ret version ∧
      ∃ w', (getUsersUnder platform settings tenantId q
        (usersListCacheKey platform tenantId version q)).run (interp platform collation) e
          { w with clock := e.now } = some (.ok page, w') := by
  constructor
  · rintro ⟨w', hrun⟩
    obtain ⟨key, w₁, hkey, hunder⟩ := Prog.run_bind_eq_some.1 hrun
    obtain ⟨version, w₂, hversion, hret⟩ := Prog.run_bind_eq_some.1 hkey
    obtain ⟨reply, w₃, hget, hcache⟩ := Prog.run_bind_eq_some.1 hversion
    have hclock := (run_issue_eq_some hget).1
    rw [run_redisGet _ hclock, Option.some.injEq, Prod.mk.injEq, Except.ok.injEq] at hget
    obtain ⟨rfl, rfl⟩ := hget
    rcases cacheVersion_cases (K := K) (redisReply e w (buildUsersListCacheVersionKey tenantId))
      with ⟨version', h⟩ | ⟨x, h⟩
    · rw [h] at hcache
      obtain ⟨rfl, rfl⟩ : version' = version ∧ _ = w₂ := by simpa using hcache
      obtain ⟨rfl, rfl⟩ : _ = key ∧ _ = w₁ := by simpa using hret
      exact ⟨hclock, version', h, w', hunder⟩
    · simp [h] at hcache
  · rintro ⟨hclock, version, hversion, w', hunder⟩
    refine ⟨w', Prog.run_bind_eq_some.2 ⟨_, _, Prog.run_bind_eq_some.2 ⟨version, _,
      Prog.run_bind_eq_some.2 ⟨_, _, run_redisGet _ hclock, ?_⟩, rfl⟩, hunder⟩⟩
    rw [hversion]
    rfl

/-- With the cache disabled, `get_users` returns what the request yields on the tables. -/
lemma pageOn_of_returns (hcache : settings.usersCacheEnabled = false) {q : GetUsers}
    (h : Returns platform collation settings tenantId q e w page) :
    pageOn platform collation tenantId q w.db = some (.ok page) := by
  obtain ⟨hclock, version, -, w', hunder⟩ := returns_iff.1 h
  rw [getUsersUnder, hcache, if_neg Bool.false_ne_true] at hunder
  obtain ⟨w₁, -, hread⟩ :=
    run_readUsersPage platform collation tenantId (w := { w with clock := e.now }) q le_rfl
  obtain ⟨x, hx, heq⟩ := Option.map_eq_some_iff.1 (hread.symm.trans hunder)
  rw [hx, (Prod.mk.inj heq).1]

/-- **What a client reads is a keyset traversal** of the lists that it meets, if every page that it
gets is what its request yields on the tables. -/
theorem Follows.exists_traversal (hc : Ordered collation) (hplatform : RoundTrips platform)
    {position : Option User} {fetches : List (Fetch K)}
    (h : Follows platform collation settings tenantId q
      (position.map fun z => platform.encodeCursor (.obj (q.cursorPayload z))) fetches)
    (hpages : ∀ f ∈ fetches, ∀ q, Returns platform collation settings tenantId q f.env f.world f.page →
      pageOn platform collation tenantId q f.world.db = some (.ok f.page)) :
    ∃ pages, Traversal (collation.userLe q.sortBy q.sortOrder) q.limit position pages ∧
      pages.map Prod.fst = fetches.map (fun f => listed collation tenantId q f.world.db) ∧
      pages.map (fun p => p.2.map User.read) = fetches.map fun f => f.page.items := by
  generalize hcursor : (position.map fun z => platform.encodeCursor (.obj (q.cursorPayload z))) =
    cursor at h
  -- the users on the page of a fetch
  have hpage : ∀ f ∈ fetches, ∀ position,
      Returns platform collation settings tenantId (requestAfter platform q position) f.env f.world
        f.page → f.page = response platform q (page (collation.userLe q.sortBy q.sortOrder) q.limit
          position (listed collation tenantId q f.world.db)) := by
    intro f hf position hreturns
    have heq := hpages f hf _ hreturns
    rw [pageOn_after hc hplatform, Option.some.injEq, Except.ok.injEq] at heq
    exact heq.symm
  clear hpages
  induction h generalizing position with
  | @last cursor f hreturns hnext =>
      subst hcursor
      have hf := hpage f (List.mem_singleton_self f) position hreturns
      refine ⟨[(listed collation tenantId q f.world.db, _)], .last ?_, rfl, by simp [hf, response]⟩
      rw [hf] at hnext
      rcases nextCursor_cases platform q _ with ⟨hlt, -⟩ | ⟨-, z, -, hz⟩
      · exact hlt
      · exact absurd (hz.symm.trans hnext) (Option.some_ne_none _)
  | @next cursor f cursor' rest hreturns hnext _ ih =>
      subst hcursor
      have hf := hpage f List.mem_cons_self position hreturns
      rw [hf] at hnext
      rcases nextCursor_cases platform q _ with ⟨-, hnone⟩ | ⟨hge, z, hlast, hz⟩
      · exact absurd (hnone.symm.trans hnext) (Option.some_ne_none _).symm
      · obtain ⟨pages, htraversal, hrows, hitems⟩ := @ih (some z)
          (hz.symm.trans hnext) fun g hg => hpage g (List.mem_cons_of_mem _ hg)
        refine ⟨(listed collation tenantId q f.world.db, _) :: pages, .next hge hlast htraversal,
          by rw [List.map_cons, List.map_cons, hrows], ?_⟩
        rw [List.map_cons, List.map_cons, hitems, hf]
        rfl

/-- Redis can be read or fails, and the lists in the cache are what the tables yield. -/
structure Fresh (platform : Platform) (collation : Collation) (settings : Settings) (tenantId : ℕ)
    (e : Env K) (w : World K) : Prop where
  clock : w.clock ≤ e.now
  version : ∃ version,
    cacheVersion (K := K) (redisReply e w (buildUsersListCacheVersionKey tenantId)) = .ret version
  pages : settings.usersCacheEnabled = true → ∀ q version, ∃ cached,
    cachedPage (K := K) (redisReply e w (usersListCacheKey platform tenantId version q)) =
      .ret cached ∧
    ∀ page ∈ cached, pageOn platform collation tenantId q w.db = some (.ok page)

/-- The page that is stored after it was read is the result. -/
lemma run_read_and_store {q : GetUsers} {key : String} {ttl : ℕ} (hclock : w.clock ≤ e.now) :
    (∃ w', ((readUsersPage platform tenantId q).bind fun page =>
      (issue (.redisSet key page.toJson.dumps ttl)).bind fun _ => .ret page).run
        (interp platform collation) e w = some (.ok page, w')) ↔
      pageOn platform collation tenantId q w.db = some (.ok page) := by
  obtain ⟨w₁, hclock₁, hread⟩ := run_readUsersPage platform collation tenantId q hclock
  simp only [Prog.run_bind_eq_some, hread]
  constructor
  · rintro ⟨w', page', w₂, hpage, r, w₃, -, hret⟩
    obtain ⟨x, hx, heq⟩ := Option.map_eq_some_iff.1 hpage
    obtain ⟨rfl, -⟩ : page' = page ∧ _ := by simpa using hret
    rw [hx, (Prod.mk.inj heq).1]
  · intro hpage
    refine ⟨_, page, w₁, by rw [hpage]; rfl, _, _, run_issue _ hclock₁, rfl⟩

/-- **With a cache that is not stale, `get_users` returns what its request yields on the tables.** -/
theorem Fresh.returns_iff (h : Fresh platform collation settings tenantId e w) {q : GetUsers} :
    Returns platform collation settings tenantId q e w page ↔
      pageOn platform collation tenantId q w.db = some (.ok page) := by
  obtain ⟨version, hversion⟩ := h.version
  have hunder : (∃ w', (getUsersUnder platform settings tenantId q
      (usersListCacheKey platform tenantId version q)).run (interp platform collation) e
        { w with clock := e.now } = some (.ok page, w')) ↔
      pageOn platform collation tenantId q w.db = some (.ok page) := by
    unfold getUsersUnder
    split_ifs with henabled
    · obtain ⟨cached, hcached, hpages⟩ := h.pages henabled q version
      have hreply : cachedPage (K := K) (redisReply e { w with clock := e.now }
          (usersListCacheKey platform tenantId version q)) = .ret cached := hcached
      have hget : (getCachedPage (usersListCacheKey platform tenantId version q)).run
          (interp platform collation) e { w with clock := e.now } =
            some (.ok cached, { w with clock := e.now }) :=
        Prog.run_bind_eq_some.2 ⟨_, _, run_redisGet _ le_rfl, by rw [hreply]; rfl⟩
      simp only [Prog.bind_def, Prog.run_bind hget]
      cases cached with
      | none => exact run_read_and_store le_rfl
      | some page' =>
          rw [hpages page' rfl]
          simp
    · obtain ⟨w₁, -, hread⟩ := run_readUsersPage platform collation tenantId
        (w := { w with clock := e.now }) q le_rfl
      rw [hread]
      simp
  rw [Users.returns_iff, ← hunder]
  constructor
  · rintro ⟨-, version', hversion', hrun⟩
    obtain rfl : version = version' := by simpa using hversion.symm.trans hversion'
    exact hrun
  · exact fun hrun => ⟨h.clock, version, hversion, hrun⟩

/-- A request meets these tables, and a cache that is not stale. -/
def Meets (platform : Platform) (collation : Collation) (settings : Settings) (tenantId : ℕ)
    (db : Database K) (e : Env K) (w : World K) : Prop :=
  w.db = db ∧ Fresh platform collation settings tenantId e w

/-- A client that meets the same tables all the time can read their pages, to the last one. -/
lemma exists_follows (hc : Ordered collation) (hplatform : RoundTrips platform) {db : Database K}
    {position : Option User} {pages : List (List User × List User)}
    (h : Traversal (collation.userLe q.sortBy q.sortOrder) q.limit position pages)
    (hrows : ∀ p ∈ pages, p.1 = listed collation tenantId q db) (meeting : ℕ → Env K × World K)
    (hmeeting : ∀ k, Meets platform collation settings tenantId db (meeting k).1 (meeting k).2) :
    ∃ fetches, Follows platform collation settings tenantId q
        (position.map fun z => platform.encodeCursor (.obj (q.cursorPayload z))) fetches ∧
      ∀ k f, fetches[k]? = some f → (f.env, f.world) = meeting k := by
  -- the fetch of a page at the first meeting
  have hfetch : ∀ e w position, Meets platform collation settings tenantId db e w →
      Returns platform collation settings tenantId (requestAfter platform q position) e w
        (response platform q (page (collation.userLe q.sortBy q.sortOrder) q.limit position
          (listed collation tenantId q db))) := by
    rintro e w position ⟨hdb, hfresh⟩
    rw [hfresh.returns_iff, hdb, pageOn_after hc hplatform]
  induction h generalizing meeting with
  | @last position rows hlen =>
      obtain rfl : rows = listed collation tenantId q db := hrows _ List.mem_cons_self
      refine ⟨[⟨(meeting 0).1, (meeting 0).2, _⟩],
        .last (hfetch _ _ position (hmeeting 0)) (if_pos hlen), ?_⟩
      intro k f hf
      cases k with
      | zero => rw [← Option.some.inj hf]
      | succ k => simp at hf
  | @next position rows z rest hge hz _ ih =>
      obtain rfl : rows = listed collation tenantId q db := hrows _ List.mem_cons_self
      obtain ⟨fetches, hfollows, hmeets⟩ := ih (fun p hp => hrows p (List.mem_cons_of_mem _ hp))
        (fun k => meeting (k + 1)) fun k => hmeeting (k + 1)
      refine ⟨⟨(meeting 0).1, (meeting 0).2, _⟩ :: fetches,
        .next (hfetch _ _ position (hmeeting 0)) ?_ hfollows, ?_⟩
      · simp only [nextCursor, if_neg (Nat.not_lt.2 hge), hz, Option.map_some]
      · intro k f hf
        cases k with
        | zero => rw [← Option.some.inj hf]
        | succ k => exact hmeets k f hf

end Clients

/-! ### One user -/

lemma roundTrips_plain : RoundTrips .plain := by
  intro v hv
  simp [Platform.plain, Json.loads_dumps hv]

lemma ordered_plain : Ordered .plain where
  total s t := by simpa [Collation.plain] using le_total s t
  trans s t u := by simpa [Collation.plain] using fun h₁ h₂ => le_trans h₁ h₂
  antisymm s t := by simpa [Collation.plain] using fun h₁ h₂ => le_antisymm h₁ h₂
  compare sortBy z := by
    refine ⟨fun x => Collation.plain.ordering x (z.sortValue sortBy), ?_, fun y => rfl⟩
    cases sortBy <;> rfl

/-- The list of users by pages of one user. -/
def oneByOne : GetUsers where
  limit := 1
  limit_pos := le_rfl
  sortBy := .email
  sortOrder := .desc
  role := none
  isActive := none
  search := none
  searchMode := .prefixMode
  cursor := none
  skip := none

lemma meets_oneUser (settings : Settings) :
    Meets .plain .plain settings 1 Database.oneUser (Env.calm 1) World.oneUser :=
  ⟨rfl, by decide +kernel, ⟨0, rfl⟩, fun _ _ _ => ⟨none, rfl, by simp⟩⟩

/-- A client that reads the list of one user to its end. -/
lemma exists_follows_oneUser (settings : Settings) : ∃ fetches : List (Fetch ℚ),
    Follows .plain .plain settings 1 oneByOne none fetches ∧
      ∀ f ∈ fetches, f.env = Env.calm 1 ∧ f.world = World.oneUser := by
  obtain ⟨slices, hslices, -, -⟩ := exists_slices
    (listed Collation.plain 1 oneByOne Database.oneUser) (totalOrder_userLe ordered_plain)
    (pairwise_not_ties ordered_plain) oneByOne.limit_pos 0 (Nat.zero_le _)
  obtain ⟨fetches, hfollows, hmeets⟩ := exists_follows ordered_plain roundTrips_plain hslices
    (fun p hp => by
      obtain ⟨s, -, rfl⟩ := List.mem_map.1 hp
      rfl)
    (fun _ => (Env.calm 1, World.oneUser)) fun _ => meets_oneUser settings
  refine ⟨fetches, hfollows, fun f hf => ?_⟩
  obtain ⟨k, hk⟩ := List.mem_iff_getElem?.1 hf
  exact Prod.mk.inj (hmeets k f hk)

/-! ### The two results -/

section Clients

variable {K : Type} [Field K] [LinearOrder K] [FloorRing K] {platform : Platform}
  {collation : Collation} {settings : Settings} {tenantId : ℕ} {q : GetUsers}

/-- The user `id` is there, matches the filters and has the sort value. -/
def Stays (collation : Collation) (tenantId : ℕ) (q : GetUsers) (id : ℕ) (value : SqlValue)
    (db : Database K) : Prop :=
  ∃ u, db.users.row id = some u ∧ u.tenantId = tenantId ∧
    (q.usersQuery tenantId none 0).admits collation u = true ∧ u.sortValue q.sortBy = value

omit [Field K] [LinearOrder K] [FloorRing K] in
lemma mem_listed {db : Database K} {u : User} : u ∈ listed collation tenantId q db ↔
    db.users.row u.id = some u ∧ u.tenantId = tenantId ∧
      (q.usersQuery tenantId none 0).admits collation u = true := by
  rw [listed, List.mem_filter, Table.mem_select, beq_iff_eq, and_assoc]
  rfl

end Clients

section Clients

variable {K : Type} [Field K] [LinearOrder K] [FloorRing K] {platform : Platform}
  {collation : Collation} {settings : Settings} {tenantId : ℕ} {q : GetUsers}

end Clients

end StarterBackend.Users

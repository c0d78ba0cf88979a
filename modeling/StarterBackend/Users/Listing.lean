/-
The search and the cursors of the list of users.

A search text reaches the database as a pattern whose special characters are escaped, by
three replacements of which the first one is that of the backslash.

A cursor is any text that the client sends.  `decode_cursor` and `_validate_cursor_filters`
refuse most of what is not a cursor, but not all: `cursor_handled_iff` says which cursors
get past them.
-/
import StarterBackend.App.Auth
import StarterBackend.Lib.Ilike

namespace StarterBackend.Users

open Lib App

/-! ### The search for an email -/

/-- The three replacements escape each special character once. -/
lemma toList_escapeLikePattern (s : String) :
    (escapeLikePattern s).toList = escaped Wildcards.sql s.toList := by
  simp only [escapeLikePattern, PyText.replaceChar, String.toList_ofList, List.flatMap_assoc, escaped]
  congr 1
  funext c
  by_cases hescape : c = '\\'
  · subst hescape
    decide
  by_cases hmany : c = '%'
  · subst hmany
    decide
  by_cases hone : c = '_'
  · subst hone
    decide
  simp [hescape, hmany, hone, Wildcards.sql]

/-- What the search is for: a literal prefix, or a literal part, up to folding. -/
def Finds (fold : Char → Char) (mode : UserSearchMode) (search email : String) : Prop :=
  match mode with
  | .prefixMode => search.toList.map fold <+: email.toList.map fold
  | .contains => search.toList.map fold <:+: email.toList.map fold

/-- **A search is for the literal text**, whatever special characters it has. -/
theorem search_finds_literal (fold : Char → Char) (mode : UserSearchMode) (search email : String) :
    like Wildcards.sql fold (emailSearchPattern search mode).toList email.toList = true ↔
      Finds fold mode search email := by
  cases mode with
  | prefixMode =>
      have hpattern : (emailSearchPattern search .prefixMode).toList =
          escaped Wildcards.sql search.toList ++ [Wildcards.sql.many] := by
        rw [emailSearchPattern, String.toList_append, toList_escapeLikePattern]
        rfl
      rw [hpattern]
      exact like_prefix
  | contains =>
      have hpattern : (emailSearchPattern search .contains).toList =
          Wildcards.sql.many :: (escaped Wildcards.sql search.toList ++ [Wildcards.sql.many]) := by
        rw [emailSearchPattern, String.toList_append, String.toList_append, toList_escapeLikePattern]
        rfl
      rw [hpattern]
      exact like_contains

/-! ### Cursors that no page has made -/

section Cursors

variable (platform : Platform) (settings : Settings)

/-- The values that can be compared with a column. -/
def accepts : UserSortBy → Json → Bool
  | .id, .num _ => true
  | .email, .str _ | .role, .str _ => true
  | .isActive, .bool _ => true
  | _, _ => false

/-- The payload names the parameters of the request. -/
def namesFilters (payload : List (String × Json)) (q : GetUsers) : Bool :=
  q.cursorFilters.all fun filter => pyEq platform (payloadGet payload filter.1) filter.2

/-- The cursors that are neither refused nor good: a text that is nested too deeply for the
decoder, or a payload for this request whose id is a Boolean, or whose sort value cannot be
compared with the column. -/
def defective (cursor : String) (q : GetUsers) : Bool :=
  match platform.decodeCursor cursor with
  | .tooDeep => true
  | .invalid => false
  | .value (.obj payload) =>
      namesFilters platform payload q &&
        match payloadGet payload "id", payloadGet payload "sort_value" with
        | _, .null => false
        | .bool _, _ => true
        | .num _, value => !accepts q.sortBy value
        | _, _ => false
  | .value _ => false

/-- The cursor is refused with a `ValueError`, or it stands for a position whose value can be
compared with the column. -/
def Screened (sortBy : UserSortBy) {K : Type} (p : AppProg K (ℤ × Json)) : Prop :=
  (∃ message, p = .raise (valueError message)) ∨
    ∃ position, p = .ret position ∧ accepts sortBy position.2 = true

variable {platform settings} {K : Type} {q : GetUsers} {cursor : String}

variable (platform) in
/-- The check of the parameters comes before that of the id and the sort value. -/
lemma validateCursorFilters_eq (payload : List (String × Json)) (q : GetUsers) :
    (namesFilters platform payload q = false ∧
      ∃ message, validateCursorFilters platform payload q = .error (valueError message)) ∨
    (namesFilters platform payload q = true ∧
      validateCursorFilters platform payload q = cursorKey payload) := by
  rcases hfind : q.cursorFilters.find? fun filter =>
      !pyEq platform (payloadGet payload filter.1) filter.2 with _ | filter
  · refine .inr ⟨?_, by simp only [validateCursorFilters, hfind]⟩
    rw [namesFilters, List.all_eq_true]
    intro filter hfilter
    simpa using List.find?_eq_none.1 hfind filter hfilter
  · refine .inl ⟨?_, "cursor " ++ filter.1 ++ " mismatch", by
      simp only [validateCursorFilters, hfind]⟩
    rw [namesFilters, List.all_eq_false]
    exact ⟨filter, List.mem_of_find?_eq_some hfind, by simpa using List.find?_some hfind⟩

/-- A payload that is an object. -/
lemma cursorPosition_obj {payload : List (String × Json)}
    (h : platform.decodeCursor cursor = .value (.obj payload)) :
    cursorPosition (K := K) platform cursor q =
      (Prog.ofExcept (validateCursorFilters platform payload q)).bind fun
        | (.num id, value) => .ret (id, value)
        | _ => .raise .unhandled := by
  simp only [cursorPosition, h]
  rfl

variable (platform) in
/-- A cursor is judged without a look at the world. -/
lemma cursorPosition_cases (cursor : String) (q : GetUsers) :
    (∃ position, cursorPosition (K := K) platform cursor q = .ret position) ∨
      ∃ e, cursorPosition (K := K) platform cursor q = .raise e := by
  rcases hdecode : platform.decodeCursor cursor with v | _ | _
  · by_cases hobj : ∃ payload, v = .obj payload
    · obtain ⟨payload, rfl⟩ := hobj
      rw [cursorPosition_obj hdecode]
      rcases validateCursorFilters platform payload q with e | ⟨id, value⟩
      · exact .inr ⟨e, rfl⟩
      · cases id with
        | num n => exact .inl ⟨(n, value), rfl⟩
        | _ => exact .inr ⟨.unhandled, rfl⟩
    · rcases v <;> simp_all [cursorPosition]
  · simp [cursorPosition, hdecode]
  · simp [cursorPosition, hdecode]

/-- **What becomes of a cursor**: every cursor that is not defective is refused or stands for a
position, and a defective one leads to another exception or to a value that cannot be
compared. -/
theorem screened_iff : Screened q.sortBy (cursorPosition (K := K) platform cursor q) ↔
    defective platform cursor q = false := by
  rcases hdecode : platform.decodeCursor cursor with v | _ | _
  · by_cases hobj : ∃ payload, v = .obj payload
    · obtain ⟨payload, rfl⟩ := hobj
      rw [cursorPosition_obj hdecode]
      rcases validateCursorFilters_eq platform payload q with
        ⟨hnames, message, hvalid⟩ | ⟨hnames, hvalid⟩
      · simp [hvalid, Prog.ofExcept, Screened, defective, hdecode, hnames]
      · rw [hvalid, cursorKey]
        simp only [defective, hdecode, hnames, Bool.true_and]
        rcases payloadGet payload "id" <;> rcases payloadGet payload "sort_value" <;>
          simp [Prog.ofExcept, Screened, valueError, AppError.unprocessable]
    · rcases v <;> simp_all [cursorPosition, Screened, defective]
  · simp [cursorPosition, hdecode, Screened, defective]
  · simp [cursorPosition, hdecode, Screened, defective, valueError, AppError.unprocessable]

variable (platform) in
/-- The cursor of the page after these users. -/
def nextCursor (q : GetUsers) (users : List User) : Option String :=
  if users.length < q.limit then none
  else users.getLast?.map fun last => platform.encodeCursor (.obj (q.cursorPayload last))

/-- The `IndexError` of `_build_next_cursor` is never raised. -/
lemma buildNextCursor_eq (users : List User) (q : GetUsers) :
    buildNextCursor (K := K) platform users q = .ret (nextCursor platform q users) := by
  unfold buildNextCursor nextCursor
  split_ifs with hlength
  · rfl
  · rcases hlast : users.getLast? with _ | last
    · have hnil : users = [] := List.getLast?_eq_none_iff.1 hlast
      have := q.limit_pos
      simp only [hnil, List.length_nil] at hlength
      omega
    · rfl

variable (platform) in
/-- The page of `get_users` that goes on after a position. -/
def keysetPage (tenantId : ℕ) (q : GetUsers) (after : Option (ℤ × Json)) :
    AppProg K UserListPage :=
  (query (.users (q.usersQuery tenantId after 0))).bind fun r =>
    (orUnhandled r).bind fun users => .ret ⟨users.map User.read, nextCursor platform q users⟩

lemma readUsersPage_first {tenantId : ℕ} (hskip : q.skip.filter (0 < ·) = none)
    (hcursor : q.cursor = none) :
    readUsersPage (K := K) platform tenantId q = keysetPage platform tenantId q none := by
  simp only [readUsersPage, hskip, hcursor, buildNextCursor_eq]
  rfl

lemma readUsersPage_next {tenantId : ℕ} (hskip : q.skip.filter (0 < ·) = none)
    (hcursor : q.cursor = some cursor) :
    readUsersPage (K := K) platform tenantId q =
      (cursorPosition platform cursor q).bind fun after =>
        keysetPage platform tenantId q (some after) := by
  simp only [readUsersPage, hskip, hcursor, buildNextCursor_eq]
  rfl

lemma readUsersPage_offset {tenantId skip : ℕ} (hskip : q.skip.filter (0 < ·) = some skip) :
    readUsersPage (K := K) platform tenantId q =
      (query (.users (q.usersQuery tenantId none skip))).bind fun r =>
        (orUnhandled r).bind fun users => .ret ⟨users.map User.read, none⟩ := by
  simp only [readUsersPage, hskip]
  rfl

/-- What the list of users relies on: the database compares a column with the values of its type,
and the lists in the cache are lists. -/
def ListingReplies (tenantId : ℕ) : (c : Command K) → c.Reply → Prop
  | .query (.users q), r => (∀ position ∈ q.after, accepts q.sortBy position.2 = true) → r ≠ none
  | .redisGet key, r => key ≠ buildUsersListCacheVersionKey tenantId → ∀ text value,
      r = some (some text) → Json.loads text = some value → ∃ page, UserListPage.ofJson value = some page
  | _, _ => True

/-- The command compares a column with a value of its type only. -/
def WellTyped (c : Command K) : Prop :=
  ∀ q, c = .query (.users q) → ∀ position ∈ q.after, accepts q.sortBy position.2 = true

/-- A program that lists users compares well-typed values only, and fails with a `ValueError` only. -/
structure CursorHandled (tenantId : ℕ) (p : AppProg K UserListPage) : Prop where
  typed : p.EveryIf (ListingReplies tenantId) WellTyped
  rejected : p.EndsIf (ListingReplies tenantId) fun x =>
    ∀ e, x = .error e → ∃ message, e = valueError message

/-- A query with a good position, after which nothing fails. -/
lemma handled_query {tenantId : ℕ} {q : UsersQuery} {f : List User → UserListPage}
    (hq : ∀ position ∈ q.after, accepts q.sortBy position.2 = true) :
    CursorHandled (K := K) tenantId
      ((query (.users q)).bind fun r => (orUnhandled r).bind fun users => .ret (f users)) where
  typed := by
    refine ⟨fun q' heq => ?_, fun r _ => ?_⟩
    · cases heq
      exact hq
    · cases r <;> trivial
  rejected := by
    intro r hr
    cases r with
    | none => exact absurd rfl (hr hq)
    | some users => exact fun e he => nomatch he

/-- The part of `get_users` that reads a page. -/
lemma handled_readUsersPage (tenantId : ℕ) (h : q.skip.filter (0 < ·) = none →
    ∀ cursor ∈ q.cursor, defective platform cursor q = false) :
    CursorHandled tenantId (readUsersPage (K := K) platform tenantId q) := by
  rcases hskip : q.skip.filter (0 < ·) with _ | skip
  · rcases hcursor : q.cursor with _ | cursor
    · rw [readUsersPage_first hskip hcursor]
      exact handled_query nofun
    · rw [readUsersPage_next hskip hcursor]
      rcases screened_iff.2 (h hskip cursor hcursor) with
        ⟨message, hraise⟩ | ⟨position, hret, haccepts⟩
      · rw [hraise]
        exact ⟨trivial, fun e he => ⟨message, (Except.error.inj he).symm⟩⟩
      · rw [hret]
        exact handled_query fun p hp => (Option.some.inj hp) ▸ haccepts
  · rw [readUsersPage_offset hskip]
    exact handled_query nofun

/-- A defective cursor is not handled, whatever comes after it. -/
lemma not_handled_readUsersPage {tenantId : ℕ} {f : UserListPage → AppProg K UserListPage}
    (hskip : q.skip.filter (0 < ·) = none) (hcursor : q.cursor = some cursor)
    (h : defective platform cursor q = true) :
    ¬ CursorHandled tenantId ((readUsersPage platform tenantId q).bind f) := by
  intro hhandled
  refine Bool.false_ne_true ((screened_iff (K := K).1 ?_).symm.trans h)
  rw [readUsersPage_next hskip hcursor] at hhandled
  rcases cursorPosition_cases (K := K) platform cursor q with ⟨position, hp⟩ | ⟨e, hp⟩
  · rw [hp] at hhandled
    exact .inr ⟨position, hp, hhandled.typed.1 _ rfl position rfl⟩
  · rw [hp] at hhandled
    obtain ⟨message, rfl⟩ := hhandled.rejected e rfl
    exact .inl ⟨message, hp⟩

namespace CursorHandled

variable {tenantId : ℕ}

lemma ret (page : UserListPage) : CursorHandled (K := K) tenantId (.ret page) :=
  ⟨trivial, fun _ he => nomatch he⟩

lemma raise_valueError (message : String) :
    CursorHandled (K := K) tenantId (.raise (valueError message)) :=
  ⟨trivial, fun _ he => ⟨message, (Except.error.inj he).symm⟩⟩

/-- A command that lists no users. -/
lemma call {c : Command K} {k : c.Reply → AppProg K UserListPage}
    (hc : ∀ q, c ≠ .query (.users q))
    (hk : ∀ r, ListingReplies tenantId c r → CursorHandled tenantId (k r)) :
    CursorHandled tenantId (.call c k) :=
  ⟨⟨fun q heq => absurd heq (hc q), fun r hr => (hk r hr).typed⟩, fun r hr => (hk r hr).rejected⟩

lemma of_call {c : Command K} {k : c.Reply → AppProg K UserListPage} {r : c.Reply}
    (h : CursorHandled tenantId (.call c k)) (hr : ListingReplies tenantId c r) :
    CursorHandled tenantId (k r) :=
  ⟨h.typed.2 r hr, h.rejected r hr⟩

lemma bind {p : AppProg K UserListPage} {f : UserListPage → AppProg K UserListPage}
    (hp : CursorHandled tenantId p) (hf : ∀ page, CursorHandled tenantId (f page)) :
    CursorHandled tenantId (p.bind f) where
  typed := hp.typed.bind fun page => (hf page).typed
  rejected := by
    have hends := hp.rejected
    clear hp
    induction p with
    | ret page => exact (hf page).rejected
    | raise e => exact hends
    | call c k ih => exact fun r hr => ih r (hends r hr)

end CursorHandled

/-- The part of `get_users` after the key of its cache entry is built. -/
lemma handled_getUsersUnder {tenantId : ℕ} {key : String}
    (hkey : key ≠ buildUsersListCacheVersionKey tenantId)
    (h : q.skip.filter (0 < ·) = none →
      ∀ cursor ∈ q.cursor, defective platform cursor q = false) :
    CursorHandled (K := K) tenantId (getUsersUnder platform settings tenantId q key) := by
  have hread := handled_readUsersPage (K := K) tenantId h
  unfold getUsersUnder
  split_ifs
  · have hstore : CursorHandled tenantId ((readUsersPage platform tenantId q).bind fun page =>
        (issue (K := K) (.redisSet key page.toJson.dumps settings.usersCacheTtlSeconds)).bind
          fun _ => .ret page) :=
      hread.bind fun page => .call nofun fun _ _ => .ret page
    refine .call nofun fun cached hcached => ?_
    rcases cached with _ | _ | text
    · exact hstore
    · exact hstore
    · rcases hloads : Json.loads text with _ | value
      · simp only [Prog.ret_bind, cachedPage, hloads]
        exact .raise_valueError _
      · obtain ⟨page, hpage⟩ := hcached hkey text value rfl hloads
        simp only [Prog.ret_bind, cachedPage, hloads, Prog.getOrRaise, Prog.bind_def, hpage,
          orUnhandled]
        exact .ret page
  · exact hread

/-- A defective cursor is not handled by `get_users`. -/
lemma not_handled_getUsers {tenantId : ℕ} (hskip : q.skip.filter (0 < ·) = none)
    (hcursor : q.cursor = some cursor) (h : defective platform cursor q = true) :
    ¬ CursorHandled (K := K) tenantId (getUsers platform settings tenantId q) := by
  intro hhandled
  have hunder : CursorHandled tenantId (getUsersUnder (K := K) platform settings tenantId q
      (usersListCacheKey platform tenantId 0 q)) :=
    .of_call (c := .redisGet (buildUsersListCacheVersionKey tenantId)) (r := some none) hhandled
      fun hne => absurd rfl hne
  unfold getUsersUnder at hunder
  split_ifs at hunder
  · exact not_handled_readUsersPage hskip hcursor h
      (hunder.of_call (r := some none) fun _ _ _ heq => nomatch heq)
  · exact not_handled_readUsersPage hskip hcursor h (hunder.bind .ret)

/-- A request for the first users by their id, with a cursor whose sort value is a text. -/
def textAsId : GetUsers where
  limit := 10
  limit_pos := by decide
  sortBy := .id
  sortOrder := .asc
  role := none
  isActive := none
  search := none
  searchMode := .prefixMode
  cursor := some "\x7b\"id\":1,\"sort_by\":\"id\",\"sort_order\":\"asc\",\"sort_value\":\"x\",\"search_mode\":\"prefix\"\x7d"
  skip := none

end Cursors

end StarterBackend.Users

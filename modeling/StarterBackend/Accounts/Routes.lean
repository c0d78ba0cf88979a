/-
All requests keep to the grants.

The routes about lists, tenants and files, and with them every request of the API:
`lawful_program` is the one fact about the programs that the results about runs use.
-/
import StarterBackend.Accounts.Lawful

namespace StarterBackend.Accounts

open Lib App

section

variable {K α : Type} {platform : Platform} {settings : Settings} {q : ApiRequest settings}
  {x : Knowledge K} {token : String} {requestedSlug : Option String}

/-! ### Lists -/

lemma reads_readUsersPage [LinearOrder K] (tenantId : ℕ) (query : GetUsers) :
    Reads (readUsersPage (K := K) platform tenantId query) := by
  rcases Users.readUsersPage_cases (K := K) platform tenantId query with
    ⟨x, hraise⟩ | ⟨usersQuery, result, hcall⟩
  · rw [hraise]
    exact reads_raise x
  · rw [hcall]
    exact ⟨rfl, fun r => (reads_ofExcept _).every⟩

/-- The key of a list is built from the tenant of the call and some version. -/
lemma lawful_buildUsersListCacheKey (tenantId : ℕ) (query : GetUsers) :
    Lawful platform settings q
      (fun y key => x ≤ y ∧ ∃ version, key = usersListCacheKey platform tenantId version query) x
      (buildUsersListCacheKey platform tenantId query) := by
  refine Lawful.bind (M := fun y _ => x ≤ y) (lawful_reads ?_) ?_
  · refine (reads_issue rfl).bind fun reply => ?_
    rcases reply with _ | _ | text
    · exact reads_ret _
    · exact reads_ret _
    · exact reads_getOrRaise _ _
  · rintro y version hxy
    exact lawful_ret ⟨hxy, version, rfl⟩

lemma reads_getCachedPage (key : String) : Reads (getCachedPage (K := K) key) := by
  refine (reads_issue rfl).bind fun reply => ?_
  rcases reply with _ | _ | text
  · exact reads_ret _
  · exact reads_ret _
  · refine (reads_getOrRaise _ _).bind fun value => ?_
    exact (reads_getOrRaise _ _).bind fun page => reads_ret _

lemma lawful_listUsers [LinearOrder K] (page : ℕ) (query : GetUsers) :
    Lawful platform settings (.byUser token requestedSlug (.listUsers page query)) (fun _ _ => True)
      x (listUsers (K := K) platform settings token requestedSlug page query) := by
  refine (lawful_requirePermission .usersList token requestedSlug).bind ?_
  rintro y currentUser ⟨-, hnamed, -, hpermission⟩
  split
  · exact lawful_raise _
  refine (lawful_buildUsersListCacheKey _ _).bind ?_
  rintro z key ⟨hyz, version, rfl⟩
  unfold getUsersUnder
  split
  · refine (lawful_reads (reads_getCachedPage _)).bind ?_
    rintro z' cached hzz'
    cases cached with
    | some page => exact ⟨trivial⟩
    | none =>
        refine (lawful_reads (reads_readUsersPage (K := K) currentUser.tenantId _)).bind ?_
        rintro z'' users hle
        have hle' := le_trans hyz (le_trans hzz' hle)
        refine (lawful_issue (.cache (hnamed.mono hle'.1 hle'.2.2.1) hpermission)).bind ?_
        rintro _ _ -
        exact ⟨trivial⟩
  · exact (lawful_reads (reads_readUsersPage (K := K) currentUser.tenantId _)).imp
      fun _ _ _ => trivial

/-! ### Reading about one user -/

lemma lawful_getUser (userId : ℤ) :
    Lawful (K := K) platform settings q (fun _ _ => True) x (getUser token requestedSlug userId) := by
  refine (lawful_getCurrentUser token requestedSlug).bind ?_
  rintro y currentUser ⟨-, -, hcurrent⟩
  refine (lawful_getLoadedUser hcurrent userId).bind ?_
  rintro z found -
  cases found with
  | none => exact lawful_raise _
  | some user =>
      dsimp only
      split_ifs <;> exact ⟨trivial⟩

/-! ### Tenants -/

lemma lawful_refreshTenant (tenantId : ℕ) :
    Lawful (K := K) platform settings q (fun y _ => x ≤ y) x (refreshTenant tenantId) := by
  refine (lawful_query (.tenant tenantId)).bind ?_
  rintro _ reply ⟨-, rfl⟩
  exact lawful_orUnhandled fun _ _ => Knowledge.le_learn rfl _

lemma lawful_createTenantRecord (slug name : String) :
    Lawful (K := K) platform settings (.byUser token requestedSlug (.createTenant slug name))
      (fun _ _ => True) x (createTenantRecord token requestedSlug slug name) := by
  refine (lawful_requirePermission .tenantsProvision token requestedSlug).bind ?_
  rintro y currentUser ⟨-, hnamed, -, hpermission⟩
  refine Lawful.bind
    (M := fun z _ => Named platform token requestedSlug z currentUser) ?_ ?_
  · refine (lawful_query (.tenantBySlug slug)).bind ?_
    rintro z reply ⟨-, hz⟩
    have hnamed' : Named platform token requestedSlug z currentUser := by
      rw [hz]
      exact hnamed.mono subset_rfl fun _ => Or.inl
    cases reply with
    | some tenant => exact ⟨trivial⟩
    | none =>
        refine (lawful_commit (.commit hnamed' (.createTenant hpermission))).bind ?_
        rintro y' id hy'
        have hcommitted : Named platform token requestedSlug y' currentUser := by
          rw [hy']
          exact hnamed'.mono subset_rfl subset_rfl
        refine (lawful_orUnhandled (P := fun z' _ =>
          Named platform token requestedSlug z' currentUser) fun _ _ => hcommitted).bind ?_
        rintro z' tenantId hnamed''
        refine (lawful_refreshTenant tenantId).imp ?_
        rintro z'' tenant hle
        exact hnamed''.mono hle.1 hle.2.2.1
  · rintro z tenant hnamed'
    exact (lawful_createAuditLog (.commit hnamed' (.createTenantAudit hpermission))).bind
      fun _ _ _ => lawful_ret trivial

/-- `update_tenant`, for a user that may manage tenants. -/
lemma lawful_updateTenant {currentUser : User} {tenantId : ℤ} {name newName : Option String}
    {isActive newState : Option Bool} (hnamed : Named platform token requestedSlug x currentUser)
    (hpermission : userHasPermission currentUser .tenantsManage = true)
    (hname : ∀ n ∈ newName, n ∈ name) (hstate : ∀ b ∈ newState, b ∈ isActive) :
    Lawful (K := K) platform settings
      (.byUser token requestedSlug (.patchTenant tenantId name isActive))
      (fun y _ => Named platform token requestedSlug y currentUser) x
      (updateTenant tenantId newName newState) := by
  refine (lawful_query (.tenant tenantId)).bind ?_
  rintro y reply ⟨hreply, hy⟩
  have hnamed' : Named platform token requestedSlug y currentUser := by
    rw [hy]
    exact hnamed.mono subset_rfl fun _ => Or.inl
  cases reply with
  | none => exact lawful_ret hnamed'
  | some tenant =>
      have hread : tenant ∈ y.tenants := by
        rw [hy]
        exact Or.inr rfl
      have hrefresh : ∀ z : Knowledge K, Named platform token requestedSlug z currentUser →
          Lawful platform settings
            (.byUser token requestedSlug (.patchTenant tenantId name isActive))
            (fun z' _ => Named platform token requestedSlug z' currentUser) z
            ((refreshTenant tenant.id).bind fun tenant => .ret (some tenant)) := by
        intro z hz
        refine (lawful_refreshTenant tenant.id).bind ?_
        rintro z' tenant' hle
        exact lawful_ret (hz.mono hle.1 hle.2.2.1)
      dsimp only
      split_ifs
      · refine (lawful_commit (.commit hnamed' (.patchTenant hpermission hread (hreply tenant rfl)
          (fun n hn => hname n (Option.filter_eq_some_iff.1 hn).1)
          fun b hb => hstate b (Option.filter_eq_some_iff.1 hb).1))).bind ?_
        rintro _ _ rfl
        exact hrefresh _ (hnamed'.mono subset_rfl subset_rfl)
      · exact hrefresh y hnamed'

lemma lawful_patchTenant (tenantId : ℤ) (name : Option String) (isActive : Option Bool) :
    Lawful (K := K) platform settings
      (.byUser token requestedSlug (.patchTenant tenantId name isActive)) (fun _ _ => True) x
      (patchTenant token requestedSlug tenantId name isActive) := by
  refine (lawful_requirePermission .tenantsManage token requestedSlug).bind ?_
  rintro y currentUser ⟨-, hnamed, -, hpermission⟩
  split_ifs
  · exact lawful_raise _
  refine (lawful_query (.tenant tenantId)).bind ?_
  rintro z reply ⟨-, hz⟩
  have hnamed' : Named platform token requestedSlug z currentUser := by
    rw [hz]
    exact hnamed.mono subset_rfl fun _ => Or.inl
  cases reply with
  | none => exact lawful_raise _
  | some tenant =>
      refine Lawful.bind
        (M := fun z' _ => Named platform token requestedSlug z' currentUser) ?_ ?_
      · cases name with
        | none => exact lawful_ret hnamed'
        | some name =>
            exact lawful_updateTenant hnamed' hpermission (fun _ => id) fun b hb => by cases hb
      rintro z₁ renamed hnamed₁
      refine Lawful.bind (M := fun _ _ => True) ?_ fun z' found _ => by
        cases found <;> exact ⟨trivial⟩
      cases isActive with
      | none => exact lawful_ret trivial
      | some isActive =>
          refine (lawful_updateTenant hnamed₁ hpermission (fun n hn => by cases hn)
            fun _ => id).bind ?_
          rintro z₂ restated hnamed₂
          cases restated with
          | none => exact lawful_ret trivial
          | some tenant =>
              exact (lawful_createAuditLog
                (.commit hnamed₂ (.patchTenantAudit hpermission))).bind fun _ _ _ => lawful_ret trivial

/-! ### Files -/

lemma reads_runMalwareScan (body : List UInt8) (filename : String) :
    Reads (Files.runMalwareScan (K := K) platform settings body filename) := by
  unfold Files.runMalwareScan
  split
  · exact reads_ret _
  · exact reads_ret _
  · split_ifs
    · exact (reads_issue rfl).bind fun _ => reads_ofExcept _
    · exact reads_raise _

lemma reads_verifyStoredObjectMetadata (objectKey contentType : String) (sizeBytes : ℤ) :
    Reads (Files.verifyStoredObjectMetadata (K := K) objectKey contentType sizeBytes) := by
  refine Reads.bind ?_ fun metadata => (reads_ofExcept _).bind fun _ => reads_ret metadata
  refine (reads_issue rfl).bind fun reply => ?_
  rcases reply with error | metadata
  · cases error <;> exact reads_raise _
  · exact reads_ret _

lemma reads_createPresignedUpload (owner : User) (filename contentType : String) :
    Reads (Files.createPresignedUpload (K := K) platform settings owner filename contentType) := by
  refine (reads_ofExcept _).bind fun safeFilename => ?_
  refine (reads_ofExcept _).bind fun normalizedContentType => ?_
  refine Reads.bind ?_ fun _ => (reads_issue rfl).bind fun uuid => reads_ret _
  refine (reads_issue rfl).bind fun reply => ?_
  cases reply with
  | error error => exact reads_raise _
  | ok _ => exact reads_ret _

lemma lawful_refreshFile (fileId : ℕ) :
    Lawful (K := K) platform settings q (fun y file => x ≤ y ∧ file ∈ y.files) x
      (Files.refreshFile fileId) := by
  refine (lawful_query (.file fileId)).bind ?_
  rintro _ reply ⟨-, rfl⟩
  refine lawful_orUnhandled fun file hfile => ?_
  obtain rfl : reply = some file := hfile
  exact ⟨Knowledge.le_learn rfl _, Or.inr rfl⟩

lemma lawful_upload {currentUser : User} (hnamed : Named platform token requestedSlug x currentUser)
    (hpermission : userHasPermission currentUser .filesUpload = true)
    (file : Files.UploadFile settings) :
    Lawful (K := K) platform settings (.byUser token requestedSlug (.file (.upload file)))
      (fun _ _ => True) x (Files.upload platform settings currentUser file) := by
  have hreads : ∀ {β : Type} {p : AppProg K β} {f : β → AppProg K UploadedFile},
      Reads p →
      (∀ y, Named platform token requestedSlug y currentUser → ∀ b, Lawful platform settings
        (.byUser token requestedSlug (.file (.upload file))) (fun _ _ => True) y (f b)) →
      ∀ y, Named platform token requestedSlug y currentUser → Lawful platform settings
        (.byUser token requestedSlug (.file (.upload file))) (fun _ _ => True) y (p.bind f) := by
    intro β p f hp hf y hy
    refine (lawful_reads hp).bind ?_
    rintro z b hyz
    exact hf z (hy.mono hyz.1 hyz.2.2.1) b
  refine hreads (reads_ofExcept _) (fun y hy filename => ?_) x hnamed
  refine hreads (reads_ofExcept _) (fun y hy contentType => ?_) y hy
  refine hreads (reads_ofExcept _) (fun y hy sizeBytes => ?_) y hy
  refine hreads (reads_ofExcept _) (fun y hy _ => ?_) y hy
  refine hreads (reads_ofExcept _) (fun y hy _ => ?_) y hy
  refine hreads (reads_runMalwareScan _ _) (fun y hy scan => ?_) y hy
  refine hreads (reads_ofExcept _) (fun y hy _ => ?_) y hy
  refine hreads (reads_issue rfl) (fun y hy uuid => ?_) y hy
  refine (lawful_issue (.putObject hy hpermission)).bind ?_
  rintro z reply ⟨-, hz⟩
  have hz' : Named platform token requestedSlug z currentUser := by
    rw [hz]
    exact hy
  cases reply with
  | error error => exact ⟨trivial⟩
  | ok _ =>
      refine (lawful_commit (.commit hz' (.upload hpermission))).bind ?_
      rintro _ id rfl
      refine (lawful_orUnhandled (P := fun _ _ => True) fun _ _ => trivial).bind ?_
      rintro y' fileId -
      exact (lawful_refreshFile fileId).imp fun _ _ _ => trivial

lemma lawful_completePresignedUpload {currentUser : User}
    (hnamed : Named platform token requestedSlug x currentUser)
    (hpermission : userHasPermission currentUser .filesUpload = true)
    (objectKey filename contentType : String) (sizeBytes : ℤ) :
    Lawful (K := K) platform settings (.byUser token requestedSlug
        (.file (.completePresignedUpload objectKey filename contentType sizeBytes)))
      (fun _ _ => True) x (Files.completePresignedUpload settings currentUser objectKey filename
        contentType sizeBytes) := by
  refine (lawful_reads (reads_ofExcept _)).bind ?_
  rintro y safeFilename hxy
  refine (lawful_reads (reads_ofExcept _)).bind ?_
  rintro z normalizedContentType hyz
  refine (lawful_reads (reads_ofExcept _)).bind ?_
  rintro z₁ _ hzz₁
  refine Lawful.bind (M := fun z' _ => z₁ ≤ z' ∧
    Files.ensureObjectKeyBelongsToOwner objectKey currentUser.tenantId currentUser.id = .ok ())
    ⟨Prog.informed_ofExcept fun _ howned => ⟨le_refl z₁, howned⟩⟩ ?_
  rintro z₂ _ ⟨hz₁z₂, howned⟩
  refine (lawful_reads (reads_verifyStoredObjectMetadata _ _ _)).bind ?_
  rintro z₃ _ hz₂z₃
  have hle := le_trans hxy (le_trans hyz (le_trans hzz₁ (le_trans hz₁z₂ hz₂z₃)))
  have hnamed₃ := hnamed.mono hle.1 hle.2.2.1
  refine (lawful_commit (.commit hnamed₃ (.completePresignedUpload hpermission howned))).bind ?_
  rintro z₄ id hz₄
  have hnamed₄ : Named platform token requestedSlug z₄ currentUser := by
    rw [hz₄]
    exact hnamed₃.mono subset_rfl subset_rfl
  refine (lawful_orUnhandled (P := fun y _ => Named platform token requestedSlug y currentUser)
    fun _ _ => hnamed₄).bind ?_
  rintro y' fileId hnamed₅
  refine (lawful_refreshFile fileId).bind ?_
  rintro y'' file ⟨hle', hread⟩
  refine (lawful_issue (.verifyUpload (hnamed₅.mono hle'.1 hle'.2.2.1) hpermission hread)).bind ?_
  rintro z' _ -
  exact (lawful_orUnhandled (P := fun _ _ => True) fun _ _ => trivial).bind fun _ _ _ => lawful_ret trivial

lemma lawful_deleteFile {currentUser : User}
    (hnamed : Named platform token requestedSlug x currentUser) (fileId : ℤ) :
    Lawful (K := K) platform settings (.byUser token requestedSlug (.file (.deleteFile fileId)))
      (fun _ _ => True) x (Files.deleteFile fileId currentUser) := by
  refine (lawful_query (.fileInTenant fileId currentUser.tenantId)).bind ?_
  rintro y reply ⟨hreply, hy⟩
  have hnamed' : Named platform token requestedSlug y currentUser := by
    rw [hy]
    exact hnamed.mono subset_rfl subset_rfl
  cases reply with
  | none => exact lawful_raise _
  | some file =>
      have hread : file ∈ y.files := by
        rw [hy]
        exact Or.inr rfl
      obtain ⟨hid, -⟩ := hreply file rfl
      show Lawful platform settings _ _ _ (Files.deleteUploadedFile file currentUser)
      unfold Files.deleteUploadedFile
      split_ifs with hmay
      · refine (lawful_issue (.deleteObject hnamed' hread hid hmay)).bind ?_
        rintro z reply' ⟨-, hz⟩
        have hnamed'' : Named platform token requestedSlug z currentUser := by
          rw [hz]
          exact hnamed'
        have hread' : file ∈ z.files := by
          rw [hz]
          exact hread
        cases reply' with
        | error error => exact ⟨trivial⟩
        | ok _ =>
            exact (lawful_commit (.commit hnamed'' (.deleteFile hread' hid hmay))).bind
              fun _ _ _ => lawful_ret trivial
      · exact lawful_raise _

lemma reads_getDownloadUrl (fileId : ℤ) (currentUser : User) :
    Reads (getDownloadUrl (K := K) platform settings fileId currentUser) := by
  refine (reads_issue rfl).bind fun reply => ?_
  cases reply with
  | none => exact reads_raise _
  | some file =>
      show Reads (Files.getPresignedDownloadUrl platform settings file currentUser)
      unfold Files.getPresignedDownloadUrl
      split_ifs
      · exact (reads_ofExcept _).bind fun _ => reads_ret _
      · exact reads_raise _

end

/-! ### Requests -/

section Requests

variable {K α : Type} [Field K] [LinearOrder K] [FloorRing K] {platform : Platform}
  {settings : Settings} {q : ApiRequest settings} {x : Knowledge K} {token : String}
  {requestedSlug : Option String}

variable (platform settings) in
/-- The tokens that a request returns are such as it may return. -/
def MintedOnly (q : ApiRequest settings) (x : Knowledge K) (result : Option TokenPair) : Prop :=
  ∀ pair, result = some pair → Minted platform settings x q pair

lemma lawful_discard {p : AppProg K α} (hp : Lawful platform settings q (fun _ _ => True) x p) :
    Lawful platform settings q (MintedOnly platform settings q) x (discard p) :=
  hp.bind fun _ _ _ => lawful_ret fun pair hpair => by cases hpair

lemma lawful_discard_reads {p : AppProg K α} (hp : Reads p) :
    Lawful platform settings q (MintedOnly platform settings q) x (discard p) :=
  lawful_discard ((lawful_reads hp).imp fun _ _ _ => trivial)

lemma lawful_file (r : FileRequest settings) :
    Lawful platform settings (.byUser token requestedSlug (.file r))
      (MintedOnly platform settings (.byUser token requestedSlug (.file r))) x
      (UserRequest.program platform settings token requestedSlug (.file r)) := by
  cases r with
  | upload file =>
      refine (lawful_requirePermission .filesUpload token requestedSlug).bind ?_
      rintro y currentUser ⟨-, hnamed, -, hpermission⟩
      exact lawful_discard (lawful_upload hnamed hpermission file)
  | createPresignedUpload filename contentType =>
      refine (lawful_requirePermission .filesUpload token requestedSlug).bind ?_
      rintro y currentUser -
      exact lawful_discard_reads (reads_createPresignedUpload currentUser filename contentType)
  | completePresignedUpload objectKey filename contentType sizeBytes =>
      refine (lawful_requirePermission .filesUpload token requestedSlug).bind ?_
      rintro y currentUser ⟨-, hnamed, -, hpermission⟩
      exact lawful_discard (lawful_completePresignedUpload hnamed hpermission _ _ _ _)
  | getDownloadUrl fileId =>
      refine (lawful_getCurrentUser token requestedSlug).bind ?_
      rintro y currentUser -
      exact lawful_discard_reads (reads_getDownloadUrl fileId currentUser)
  | deleteFile fileId =>
      refine (lawful_getCurrentUser token requestedSlug).bind ?_
      rintro y currentUser ⟨-, hnamed, -⟩
      exact lawful_discard (lawful_deleteFile hnamed fileId)

lemma lawful_userRequest (r : UserRequest settings) :
    Lawful platform settings (.byUser token requestedSlug r)
      (MintedOnly platform settings (.byUser token requestedSlug r)) x
      (r.program platform settings token requestedSlug) := by
  cases r with
  | me => exact lawful_discard ((lawful_getCurrentUser token requestedSlug).imp fun _ _ _ => trivial)
  | adminPanel =>
      exact lawful_discard ((lawful_requirePermission _ token requestedSlug).imp fun _ _ _ => trivial)
  | listUsers page query => exact lawful_discard (lawful_listUsers page query)
  | getUser userId => exact lawful_discard (lawful_getUser userId)
  | change m => exact lawful_discard (lawful_handler m)
  | listAuditLogs page size action adminId targetUserId =>
      refine lawful_discard ((lawful_requirePermission _ token requestedSlug).bind ?_)
      rintro y currentUser -
      exact Lawful.imp (lawful_query (.auditLogs _)) fun _ _ _ => trivial
  | createTenant slug name => exact lawful_discard (lawful_createTenantRecord slug name)
  | listTenants page size includeInactive =>
      refine lawful_discard ((lawful_requirePermission _ token requestedSlug).bind ?_)
      rintro y currentUser -
      exact Lawful.imp (lawful_query (.tenants _ _ _)) fun _ _ _ => trivial
  | getTenant tenantId =>
      refine lawful_discard ((lawful_requirePermission _ token requestedSlug).bind ?_)
      rintro y currentUser -
      refine (lawful_query (.tenant tenantId)).bind ?_
      rintro z reply -
      cases reply <;> exact ⟨trivial⟩
  | patchTenant tenantId name isActive =>
      exact lawful_discard (lawful_patchTenant tenantId name isActive)
  | file r => exact lawful_file r

/-- **Every request keeps to its grants.** -/
theorem lawful_program (q : ApiRequest settings) :
    Lawful (K := K) platform settings q (MintedOnly platform settings q) x
      (q.program platform settings) := by
  cases q with
  | register email password requestedSlug => exact lawful_discard (lawful_register email password)
  | login email password requestedSlug =>
      refine (lawful_login email password).bind ?_
      rintro y pair hpair
      refine lawful_ret fun pair' hpair' => ?_
      obtain rfl := Option.some.inj hpair'
      exact hpair
  | refresh refreshToken =>
      refine lawful_rotateRefreshToken.bind ?_
      rintro y pair hpair
      refine lawful_ret fun pair' hpair' => ?_
      obtain rfl := Option.some.inj hpair'
      exact hpair
  | logout refreshToken => exact lawful_discard lawful_logoutUser
  | requestReset email requestedSlug => exact lawful_discard (lawful_requestResetPassword email)
  | confirmReset token newPassword => exact lawful_discard (lawful_confirmPasswordReset newPassword)
  | byUser token requestedSlug r => exact lawful_userRequest r

end Requests

end StarterBackend.Accounts

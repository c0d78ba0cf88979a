/-
The two ways in which a file comes in accept the same files.

A direct upload sniffs a prefix of the stream and scans the whole of it; the worker sniffs
and scans the object that it has read, after the completion has compared what the storage
says about the object with what was declared.  `Accepts` is what all of that comes to, and
each way succeeds exactly for the files that meet it.
-/
import StarterBackend.App.Auth
import StarterBackend.Files.Storage

namespace StarterBackend.Files

open Lib App

/-! ### What is accepted -/

/-- The verdict about a file, with a scanning service of this behaviour. -/
def scanOutcome (platform : Platform) (settings : Settings)
    (scanner : List UInt8 → String → Exchange) (body : List UInt8) (filename : String) :
    Except AppError MalwareScanResult :=
  match getMalwareScanner settings.uploadMalwareScanEnabled settings.uploadMalwareScannerUrl with
  | .disabled => .ok disabledScan
  | .infectedFilename => .ok (infectedFilenameScan filename)
  | .http => httpScan platform.answerText scanner body filename

/-- A file is accepted, with the name and the content type that are recorded. -/
structure Accepts (platform : Platform) (settings : Settings)
    (scanner : List UInt8 → String → Exchange) (filename contentType : String) (body : List UInt8)
    (name type : String) : Prop where
  name_eq : validateUploadFilename filename = .ok name
  type_eq : validateDeclaredContentType settings.uploadAllowedContentTypes contentType = .ok type
  size_le : body.length ≤ settings.uploadMaxSizeBytes
  sniffed : validateContentSniff type body = .ok ()
  clean : ∃ result, scanOutcome platform settings scanner body name = .ok result ∧
    ensureMalwareScanIsClean result = .ok ()

section

variable {contentType type : String} {setting : String}

/-- The content type that is recorded. -/
lemma validateDeclaredContentType_eq_ok
    (h : validateDeclaredContentType setting contentType = .ok type) :
    type = lower (PyText.strip contentType) ∧ contentTypeMatches type = true := by
  cases hformat : validateContentTypeFormat contentType with
  | error e =>
      rw [validateDeclaredContentType, hformat] at h
      nomatch h
  | ok normalized =>
      rw [validateDeclaredContentType, hformat] at h
      dsimp only [bind, Except.bind] at h
      split_ifs at h
      obtain rfl := Except.ok.inj h
      exact validateContentTypeFormat_eq_ok hformat

/-- A normalised content type is what the storage returns. -/
lemma storedContentType_eq (h : validateDeclaredContentType setting contentType = .ok type) :
    storedContentType type = type := by
  obtain ⟨rfl, hmatches⟩ := validateDeclaredContentType_eq_ok h
  generalize hs : lower (PyText.strip contentType) = s at hmatches ⊢
  have hchar : ∀ c ∈ s.toList, PyText.isSpace c = false ∧ c ≠ ';' := by
    intro c hc
    have hrange := toNat_of_isContentTypeChar (isContentTypeChar_of_matches hmatches hc)
    refine ⟨?_, fun heq => hrange.2.2 (by rw [heq]; rfl)⟩
    simp only [PyText.isSpace, Bool.or_eq_false_iff, Bool.and_eq_false_iff,
      decide_eq_false_iff_not, beq_eq_false_iff_ne]
    omega
  have hne : s ≠ "" := by
    rintro rfl
    simp [contentTypeMatches] at hmatches
  have htake : s.toList.takeWhile (fun c => decide (c ≠ ';')) = s.toList :=
    List.takeWhile_eq_self_iff.2 fun c hc => decide_eq_true (hchar c hc).2
  unfold storedContentType
  dsimp only
  rw [if_neg hne, htake, String.ofList_toList, PyText.strip,
    PyText.stripped_eq_self fun c hc => (hchar c hc).1, String.ofList_toList, ← hs, lower_lower]

end

/-- The signatures are in the prefix that a direct upload sniffs. -/
lemma isPrefixOf_take {signature : List UInt8} {n : ℕ} (h : signature.length ≤ n)
    (body : List UInt8) : signature.isPrefixOf (body.take n) = signature.isPrefixOf body := by
  rw [Bool.eq_iff_iff, List.isPrefixOf_iff_prefix, List.isPrefixOf_iff_prefix,
    List.prefix_take_iff]
  exact and_iff_left h

lemma sniffContentType_take (body : List UInt8) :
    sniffContentType (body.take 512) = sniffContentType body := by
  have hlength : ∀ entry ∈ contentSignatures, ∀ signature ∈ entry.2, signature.length ≤ 512 := by
    decide
  unfold sniffContentType
  congr 1
  refine List.find?_congr fun entry hentry => ?_
  rw [Bool.eq_iff_iff, List.any_eq_true, List.any_eq_true]
  refine exists_congr fun signature => and_congr_right fun hsignature => ?_
  rw [isPrefixOf_take (hlength entry hentry signature hsignature)]

lemma validateContentSniff_take (type : String) (body : List UInt8) :
    validateContentSniff type (body.take 512) = validateContentSniff type body := by
  rw [validateContentSniff, sniffContentType_take, validateContentSniff]

/-! ### The scan and the object -/

section Runs

variable {K : Type} [Field K] [LinearOrder K] [FloorRing K] (platform : Platform)
  (settings : Settings) (collation : Collation) {e : Env K} {w : World K}

/-- A scan leads to its outcome, and leaves everything but the clock. -/
lemma run_runMalwareScan (hclock : w.clock ≤ e.now) (body : List UInt8) (filename : String) :
    ∃ clock ≤ e.now, (runMalwareScan platform settings body filename).run
      (interp platform collation) e w =
        some (scanOutcome platform settings e.scanner body filename, { w with clock }) := by
  unfold runMalwareScan scanOutcome
  cases getMalwareScanner settings.uploadMalwareScanEnabled settings.uploadMalwareScannerUrl with
  | disabled => exact ⟨w.clock, hclock, rfl⟩
  | infectedFilename => exact ⟨w.clock, hclock, rfl⟩
  | http =>
    by_cases hheader : isHeaderValue filename = true
    · refine ⟨e.now, le_rfl, ?_⟩
      rw [if_pos hheader, httpScan, if_pos hheader, Prog.bind_def,
        Prog.run_bind (run_issue _ hclock), Prog.run_ofExcept]
      rfl
    · refine ⟨w.clock, hclock, ?_⟩
      rw [if_neg hheader, httpScan, if_neg hheader]
      rfl

/-- What the worker makes of an object. -/
def contentOutcome (platform : Platform) (settings : Settings)
    (scanner : List UInt8 → String → Exchange) (object : StoredObject)
    (declaredContentType : String) (declaredSizeBytes : ℤ) (filename : String) :
    Except AppError Unit := do
  assertStoredMetadataMatches ⟨object.body.length, storedContentType object.contentType⟩
    declaredContentType declaredSizeBytes
  validateContentSniff declaredContentType object.body
  ensureMalwareScanIsClean (← scanOutcome platform settings scanner object.body filename)

variable {object : StoredObject} {objectKey : String}

lemma run_verifyStoredObjectMetadata (hclock : w.clock ≤ e.now) (hstorage : e.storageError = none)
    (hobject : w.objects objectKey = some object) (declaredContentType : String)
    (declaredSizeBytes : ℤ) :
    (verifyStoredObjectMetadata objectKey declaredContentType declaredSizeBytes).run
        (interp platform collation) e w =
      some ((assertStoredMetadataMatches ⟨object.body.length, storedContentType object.contentType⟩
        declaredContentType declaredSizeBytes).map fun _ =>
          ⟨object.body.length, storedContentType object.contentType⟩,
        { w with clock := e.now }) := by
  have hhead : (Command.headObject objectKey).exec platform collation e w =
      (.ok (object.body.length, object.contentType), w) := by
    simp [Command.exec, readObject, hstorage, hobject]
  have hmetadata : (getObjectMetadata objectKey).run (interp platform collation) e w =
      some (.ok ⟨object.body.length, storedContentType object.contentType⟩,
        { w with clock := e.now }) := by
    rw [getObjectMetadata, Prog.bind_def, Prog.run_bind (run_issue _ hclock), hhead]
    rfl
  rw [verifyStoredObjectMetadata, Prog.bind_def, Prog.run_bind hmetadata]
  cases assertStoredMetadataMatches
      ⟨object.body.length, storedContentType object.contentType⟩ declaredContentType
      declaredSizeBytes with
  | error x => rfl
  | ok u => rfl

/-- **The check of a stored object** leads to its outcome, and leaves everything but the clock. -/
lemma run_verifyStoredObjectContent (hclock : w.clock ≤ e.now) (hstorage : e.storageError = none)
    (hobject : w.objects objectKey = some object) (declaredContentType : String)
    (declaredSizeBytes : ℤ) (filename : String) :
    ∃ clock ≤ e.now, (verifyStoredObjectContent platform settings objectKey declaredContentType
      declaredSizeBytes filename).run (interp platform collation) e w =
        some (contentOutcome platform settings e.scanner object declaredContentType
          declaredSizeBytes filename, { w with clock }) := by
  have hmetadata := run_verifyStoredObjectMetadata platform collation hclock hstorage hobject
    declaredContentType declaredSizeBytes
  unfold verifyStoredObjectContent contentOutcome
  cases hmatches : assertStoredMetadataMatches
      ⟨object.body.length, storedContentType object.contentType⟩ declaredContentType
      declaredSizeBytes with
  | error x =>
      rw [hmatches] at hmetadata
      exact ⟨e.now, le_rfl, Prog.run_bind_raise hmetadata⟩
  | ok u =>
      rw [hmatches] at hmetadata
      have hget : (Command.getObject objectKey).exec platform collation e
          { w with clock := e.now } = (.ok object.body, { w with clock := e.now }) := by
        simp [Command.exec, readObject, hstorage, hobject]
      have hdownload : (downloadObjectBody objectKey object.body.length).run
          (interp platform collation) e { w with clock := e.now } =
            some (.ok object.body, { w with clock := e.now }) := by
        have htake : object.body.take (object.body.length + 1) = object.body :=
          List.take_of_length_le (Nat.le_succ _)
        rw [downloadObjectBody, Prog.bind_def, Prog.run_bind (run_issue _ le_rfl), hget]
        dsimp only
        rw [htake, if_neg (lt_irrefl _)]
        rfl
      rw [Prog.bind_def, Prog.run_bind hmetadata, Prog.bind_def, Prog.run_bind hdownload,
        if_neg (by simp)]
      cases validateContentSniff declaredContentType object.body with
      | error x => exact ⟨e.now, le_rfl, rfl⟩
      | ok u =>
          have hnow : ({ w with clock := e.now } : World K).clock ≤ e.now := le_rfl
          obtain ⟨clock, hle, hscan⟩ :=
            run_runMalwareScan platform settings collation hnow object.body filename
          refine ⟨clock, hle, ?_⟩
          show ((runMalwareScan platform settings object.body filename).bind fun result =>
            .ofExcept (ensureMalwareScanIsClean result)).run _ _ _ = _
          cases houtcome : scanOutcome platform settings e.scanner object.body filename with
          | error x =>
              rw [houtcome] at hscan
              exact Prog.run_bind_raise hscan
          | ok result =>
              rw [houtcome] at hscan
              rw [Prog.run_bind hscan, Prog.run_ofExcept]
              rfl

/-! ### The rows of files -/

section Rows

variable (gap : ℕ) (now : K) {db db' : Database K} {uploadedFile : UploadedFile}

omit [Field K] [FloorRing K] in
lemma exec_verifyFile (hrow : db.uploadedFiles.row uploadedFile.id = some uploadedFile) :
    ∃ db', (Statement.verifyFile uploadedFile.id).exec gap now db = some (none, db') ∧
      db'.uploadedFiles.row uploadedFile.id =
        some { uploadedFile with verificationStatus := .verified } := by
  refine ⟨_, if_neg (by simp [hrow]), ?_⟩
  simp [hrow]

omit [Field K] [FloorRing K] in
lemma row_of_exec_deleteFile {fileId : ℕ} {x : Option ℕ}
    (h : (Statement.deleteFile fileId).exec gap now db = some (x, db')) :
    db'.uploadedFiles.row fileId = none := by
  obtain ⟨-, rfl⟩ := Prod.mk.inj (Option.some.inj h)
  rw [Table.row_restrict, Option.filter_eq_none_iff]
  intro file hfile
  have hid : file.id = fileId := db.uploadedFiles.id_of_row hfile
  simp [hid]

omit [Field K] [FloorRing K] in
/-- A file is recorded when its tenant and owner are there and its key is new. -/
lemma exec_insertFile {tenantId ownerId : ℕ} {objectKey : String}
    (htenant : (db.tenants.row tenantId).isSome) (howner : (db.users.row ownerId).isSome)
    (hunused : ∀ file ∈ db.uploadedFiles.toList, file.objectKey ≠ objectKey)
    (filename contentType : String) (sizeBytes : ℤ) (status : UploadVerificationStatus) :
    ∃ db', (Statement.insertFile tenantId ownerId objectKey filename contentType sizeBytes
        status).exec gap now db = some (some (db.uploadedFiles.freshId gap), db') ∧
      db'.uploadedFiles.row (db.uploadedFiles.freshId gap) =
        some ⟨db.uploadedFiles.freshId gap, tenantId, ownerId, objectKey, filename, contentType,
          sizeBytes, status⟩ := by
  have hany : (db.uploadedFiles.toList.any fun file => file.objectKey == objectKey) = false := by
    rw [List.any_eq_false]
    intro file hfile
    simpa using hunused file hfile
  refine ⟨_, if_neg ?_, by simp⟩
  simp [Option.isSome_iff_ne_none.1 htenant, Option.isSome_iff_ne_none.1 howner, hany]

end Rows

/-! ### The worker -/

variable {uploadedFile : UploadedFile}

/-- A run of the worker, for a file that is pending. -/
lemma run_verifyPresignedUpload (hclock : w.clock ≤ e.now) (hstorage : e.storageError = none)
    (hrow : w.db.uploadedFiles.row uploadedFile.id = some uploadedFile)
    (hpending : uploadedFile.verificationStatus = .pending)
    (hobject : w.objects uploadedFile.objectKey = some object) :
    ∃ clock ≤ e.now, (verifyPresignedUploadInWorker platform settings uploadedFile.id).run
        (interp platform collation) e w =
      (concludeVerification uploadedFile (contentOutcome platform settings e.scanner object
        uploadedFile.contentType uploadedFile.sizeBytes uploadedFile.filename)).run
          (interp platform collation) e { w with clock } := by
  have hnow : ({ w with clock := e.now } : World K).clock ≤ e.now := le_rfl
  obtain ⟨clock, hle, hcontent⟩ := run_verifyStoredObjectContent platform settings collation hnow
    hstorage hobject uploadedFile.contentType uploadedFile.sizeBytes uploadedFile.filename
  have hquery : (Command.query (.file uploadedFile.id)).exec platform collation e w =
      (some uploadedFile, w) := by
    simp [Command.exec, Query.eval, hrow]
  refine ⟨clock, hle, ?_⟩
  rw [verifyPresignedUploadInWorker, query, Prog.bind_def, Prog.run_bind (run_issue _ hclock),
    hquery]
  dsimp only
  rw [if_neg (not_not_intro hpending), Prog.bind_def,
    Prog.run_bind (Prog.run_attempt (fun c s y t h => interp_ok c e s y t h) hcontent)]

/-- The row is verified when the content is good. -/
lemma run_concludeVerification_ok (hclock : w.clock ≤ e.now)
    (hrow : w.db.uploadedFiles.row uploadedFile.id = some uploadedFile) :
    ∃ w', (concludeVerification uploadedFile (.ok ())).run (interp platform collation) e w =
        some (.ok (), w') ∧
      w'.db.uploadedFiles.row uploadedFile.id =
        some { uploadedFile with verificationStatus := .verified } := by
  obtain ⟨db, hexec, hverified⟩ := exec_verifyFile e.gap e.databaseNow hrow
  rw [← transaction_singleton] at hexec
  refine ⟨{ w with db, clock := e.now }, ?_, hverified⟩
  rw [concludeVerification, Prog.bind_def, Prog.run_bind (run_commit hclock hexec)]
  rfl

/-- Otherwise there is no row when the worker has returned. -/
lemma run_concludeVerification_error {x : AppError} {w' : World K} (hclock : w.clock ≤ e.now)
    (h : (concludeVerification uploadedFile (.error x)).run (interp platform collation) e w =
      some (.ok (), w')) : w'.db.uploadedFiles.row uploadedFile.id = none := by
  cases x with
  | unhandled => simp [concludeVerification] at h
  | http status message =>
      rw [concludeVerification, Prog.bind_def, Prog.run_bind (run_issue _ hclock), Prog.bind_def,
        Prog.run_bind_eq_some] at h
      obtain ⟨id, w₁, hcommit, hret⟩ := h
      obtain rfl : w₁ = w' := by simpa using hret
      obtain ⟨-, db, hexec, rfl⟩ := run_commit_eq_some hcommit
      rw [transaction_singleton] at hexec
      exact row_of_exec_deleteFile _ _ hexec

/-! ### The two ways -/

variable {owner : User}

/-- The row that records a file. -/
def recordedFile (w : World K) (e : Env K) (owner : User) (objectKey filename contentType : String)
    (sizeBytes : ℕ) (status : UploadVerificationStatus) : UploadedFile :=
  ⟨w.db.uploadedFiles.freshId e.gap, owner.tenantId, owner.id, objectKey, filename, contentType,
    sizeBytes, status⟩

/-- The row is inserted and read again. -/
lemma run_insertFile (hclock : w.clock ≤ e.now) (htenant : (w.db.tenants.row owner.tenantId).isSome)
    (howner : (w.db.users.row owner.id).isSome)
    (hunused : ∀ file ∈ w.db.uploadedFiles.toList, file.objectKey ≠ objectKey)
    (filename contentType : String) (sizeBytes : ℕ) (status : UploadVerificationStatus) :
    ∃ db, (commit [.insertFile owner.tenantId owner.id objectKey filename contentType sizeBytes
        status]).run (interp platform collation) e w =
          some (.ok (some (w.db.uploadedFiles.freshId e.gap)), { w with db, clock := e.now }) ∧
      db.uploadedFiles.row (w.db.uploadedFiles.freshId e.gap) =
        some (recordedFile w e owner objectKey filename contentType sizeBytes status) ∧
      (refreshFile (w.db.uploadedFiles.freshId e.gap)).run (interp platform collation) e
        { w with db, clock := e.now } =
          some (.ok (recordedFile w e owner objectKey filename contentType sizeBytes status),
            { w with db, clock := e.now }) := by
  obtain ⟨db, hexec, hrow⟩ := exec_insertFile e.gap e.databaseNow htenant howner hunused
    filename contentType sizeBytes status
  rw [← transaction_singleton] at hexec
  refine ⟨db, run_commit hclock hexec, hrow, ?_⟩
  have hnow : ({ w with db, clock := e.now } : World K).clock ≤ e.now := le_rfl
  have hquery : (Command.query (.file (w.db.uploadedFiles.freshId e.gap : ℕ))).exec platform
      collation e { w with db, clock := e.now } =
        (some (recordedFile w e owner objectKey filename contentType sizeBytes status),
          { w with db, clock := e.now }) := by
    simp only [Command.exec, Query.eval, Table.find_natCast, hrow]
    rfl
  rw [refreshFile, query, Prog.run_bind (run_issue _ hnow), hquery]
  rfl

/-- The end of a direct upload. -/
lemma run_storeUpload (hclock : w.clock ≤ e.now) (hstorage : e.storageError = none)
    (htenant : (w.db.tenants.row owner.tenantId).isSome)
    (howner : (w.db.users.row owner.id).isSome) {filename : String}
    (hunused : ∀ file ∈ w.db.uploadedFiles.toList, file.objectKey ≠
      buildObjectKey owner.tenantId owner.id (platform.uuid7 w.uuids) filename)
    (contentType : String) (sizeBytes : ℕ) (spool : Spool) :
    ∃ w', (storeUpload owner filename contentType sizeBytes spool).run
        (interp platform collation) e w =
          some (.ok (recordedFile w e owner (buildObjectKey owner.tenantId owner.id
            (platform.uuid7 w.uuids) filename) filename contentType sizeBytes .verified), w') ∧
      w'.db.uploadedFiles.row (w.db.uploadedFiles.freshId e.gap) =
        some (recordedFile w e owner (buildObjectKey owner.tenantId owner.id
            (platform.uuid7 w.uuids) filename) filename contentType sizeBytes .verified) := by
  let w₁ : World K := { w with uuids := w.uuids + 1, clock := e.now }
  let objectKey := buildObjectKey owner.tenantId owner.id (platform.uuid7 w.uuids) filename
  let w₂ : World K := { w₁ with
    objects := Function.update w.objects objectKey (some ⟨spool.readAll.1, contentType⟩) }
  have hput : (Command.putObject objectKey ⟨spool.readAll.1, contentType⟩).exec platform collation
      e w₁ = (.ok (), w₂) := by
    simp only [Command.exec, writeObjects, hstorage]
    rfl
  have hnow₁ : w₁.clock ≤ e.now := le_rfl
  have hnow₂ : w₂.clock ≤ e.now := le_rfl
  obtain ⟨db, hcommit, hrow, hrefresh⟩ := run_insertFile platform collation hnow₂ htenant howner
    hunused filename contentType sizeBytes .verified
  refine ⟨{ w₂ with db, clock := e.now }, ?_, hrow⟩
  have huuid : (uuid7 : AppProg K String).run (interp platform collation) e w =
      some (.ok (platform.uuid7 w.uuids), w₁) := run_issue _ hclock
  rw [storeUpload, Prog.bind_def, Prog.run_bind huuid, Prog.bind_def,
    Prog.run_bind (run_issue _ hnow₁), hput]
  dsimp only
  rw [Prog.bind_def, Prog.run_bind hcommit]
  exact hrefresh

/-- The end of a completion. -/
lemma run_registerPresignedUpload (hclock : w.clock ≤ e.now) (hredis : e.redisFails = false)
    (htenant : (w.db.tenants.row owner.tenantId).isSome)
    (howner : (w.db.users.row owner.id).isSome)
    (hunused : ∀ file ∈ w.db.uploadedFiles.toList, file.objectKey ≠ objectKey)
    (filename contentType : String) (sizeBytes : ℕ) :
    ∃ w', (registerPresignedUpload owner objectKey filename contentType sizeBytes).run
        (interp platform collation) e w =
          some (.ok (recordedFile w e owner objectKey filename contentType sizeBytes .pending),
            w') ∧
      w'.db.uploadedFiles.row (w.db.uploadedFiles.freshId e.gap) =
        some (recordedFile w e owner objectKey filename contentType sizeBytes .pending) ∧
      w'.objects = w.objects ∧ w'.clock ≤ e.now := by
  obtain ⟨db, hcommit, hrow, hrefresh⟩ := run_insertFile platform collation hclock htenant howner
    hunused filename contentType sizeBytes .pending
  let w₁ : World K := { w with db, clock := e.now }
  have hnow : w₁.clock ≤ e.now := le_rfl
  let file := recordedFile w e owner objectKey filename contentType sizeBytes .pending
  let w₂ : World K := { w₁ with jobs := .verifyPresignedUpload file.id :: w₁.jobs }
  have henqueue : (issue (.enqueueJob (.verifyPresignedUpload file.id))).run
      (interp platform collation) e w₁ = some (.ok (some ()), w₂) := by
    have hexec : (Command.enqueueJob (.verifyPresignedUpload file.id)).exec platform collation e
        w₁ = (some (), w₂) := by
      simp only [Command.exec, unlessFails, hredis]
      rfl
    rw [run_issue _ hnow, hexec]
  refine ⟨w₂, ?_, hrow, rfl, le_rfl⟩
  have hget : (orUnhandled (some (w.db.uploadedFiles.freshId e.gap))).run
      (interp platform collation) e w₁ = some (.ok (w.db.uploadedFiles.freshId e.gap), w₁) := rfl
  rw [registerPresignedUpload, Prog.bind_def, Prog.run_bind hcommit, Prog.bind_def,
    Prog.run_bind hget, Prog.bind_def, Prog.run_bind hrefresh, Prog.bind_def,
    Prog.run_bind henqueue]
  rfl

/-! ### When a direct upload returns -/

variable {settings}
variable {filename contentType name type : String} {body : List UInt8}

/-- The default content type has no signature. -/
lemma sniffContentType_ne (body : List UInt8) :
    sniffContentType body ≠ some "application/octet-stream" := by
  intro h
  obtain ⟨entry, hfind, htype⟩ := Option.map_eq_some_iff.1 h
  have hnone : ∀ entry ∈ contentSignatures, entry.1 ≠ "application/octet-stream" := by decide
  exact hnone entry (List.mem_of_find?_eq_some hfind) htype

/-- What a direct upload reads from its spool. -/
lemma spooled_of_le {maxSizeBytes chunkSize : ℕ} (reads : Reads chunkSize)
    (hsize : body.length ≤ maxSizeBytes) :
    ∃ spool, spoolUploadStreamLimited maxSizeBytes reads body = ⟨spool, .ok body.length⟩ ∧
      (spool.read 512).1 = body.take 512 ∧ ((spool.read 512).2.seek 0).readAll.1 = body := by
  have hspec := (spoolUploadStreamLimited_spec maxSizeBytes reads body).1
  rw [if_pos hsize] at hspec
  obtain ⟨spool, heq, hcontent, hposition, -⟩ := hspec
  refine ⟨spool, heq, ?_, ?_⟩
  · simp only [Spool.read, hcontent, hposition, List.drop_zero]
  · simp only [Spool.readAll, Spool.read, Spool.seek, hcontent, List.drop_zero]

/-- The content type of a direct upload that can be accepted is the declared one. -/
lemma orDefault_contentType
    (htype : validateDeclaredContentType settings.uploadAllowedContentTypes
      (orDefault (some contentType) "application/octet-stream") = .ok type)
    (hsniff : validateContentSniff type body = .ok ()) :
    orDefault (some contentType) "application/octet-stream" = contentType := by
  rcases eq_or_ne contentType "" with rfl | hne
  · exfalso
    have hdefault : orDefault (some "") "application/octet-stream" = "application/octet-stream" :=
      by decide
    rw [hdefault] at htype
    obtain ⟨rfl, -⟩ := validateDeclaredContentType_eq_ok htype
    have hlower : lower (PyText.strip "application/octet-stream") = "application/octet-stream" := by
      decide
    rw [hlower, validateContentSniff, if_neg (sniffContentType_ne body)] at hsniff
    nomatch hsniff
  · exact orDefault_of_ne hne _

variable (owner) in
/-- **A file that is accepted is recorded as verified by a direct upload.** -/
lemma run_upload_of_accepts (reads : Reads settings.uploadStreamChunkSizeBytes)
    (h : Accepts platform settings e.scanner filename contentType body name type)
    (hname : filename ≠ "") (hclock : w.clock ≤ e.now) (hstorage : e.storageError = none)
    (htenant : (w.db.tenants.row owner.tenantId).isSome)
    (howner : (w.db.users.row owner.id).isSome)
    (hunused : ∀ file ∈ w.db.uploadedFiles.toList, file.objectKey ≠
      buildObjectKey owner.tenantId owner.id (platform.uuid7 w.uuids) name) :
    ∃ w', (upload platform settings owner ⟨some filename, some contentType, body, reads⟩).run
        (interp platform collation) e w =
          some (.ok (recordedFile w e owner (buildObjectKey owner.tenantId owner.id
            (platform.uuid7 w.uuids) name) name type body.length .verified), w') ∧
      w'.db.uploadedFiles.row (w.db.uploadedFiles.freshId e.gap) =
        some (recordedFile w e owner (buildObjectKey owner.tenantId owner.id
            (platform.uuid7 w.uuids) name) name type body.length .verified) := by
  have hne : contentType ≠ "" := by
    rintro rfl
    have hformat := h.type_eq
    rw [validateDeclaredContentType] at hformat
    nomatch hformat
  obtain ⟨spool, hspool, hinitial, hall⟩ := spooled_of_le reads h.size_le
  obtain ⟨clock, hle, hscan⟩ := run_runMalwareScan platform settings collation hclock body name
  obtain ⟨result, hresult, hclean⟩ := h.clean
  rw [hresult] at hscan
  have hnow : ({ w with clock } : World K).clock ≤ e.now := hle
  obtain ⟨w', hstore, hrow⟩ := run_storeUpload platform collation hnow hstorage htenant howner
    hunused type body.length (((spool.read 512).2.seek 0).readAll.2.seek 0)
  refine ⟨w', ?_, hrow⟩
  have hsizeOk : validateFileSize settings.uploadMaxSizeBytes body.length = .ok () :=
    if_neg (by have := h.size_le; omega)
  have hsniff : validateContentSniff type (body.take 512) = .ok () := by
    rw [validateContentSniff_take, h.sniffed]
  rw [upload]
  simp only [orDefault_of_ne hname, orDefault_of_ne hne, h.name_eq, h.type_eq, hspool, hsizeOk,
    hinitial, hall, hsniff, Prog.ofExcept, Prog.bind_def, Prog.ret_bind]
  rw [Prog.run_bind hscan, hclean]
  exact hstore

/-- **A direct upload that returns was of a file that is accepted.** -/
lemma accepts_of_run_upload {reads : Reads settings.uploadStreamChunkSizeBytes}
    {file : UploadedFile} {w' : World K} (hname : filename ≠ "") (hclock : w.clock ≤ e.now)
    (h : (upload platform settings owner ⟨some filename, some contentType, body, reads⟩).run
      (interp platform collation) e w = some (.ok file, w')) :
    ∃ name type, Accepts platform settings e.scanner filename contentType body name type := by
  rw [upload] at h
  simp only [Prog.bind_def, Prog.run_ofExcept_bind_eq_some, orDefault_of_ne hname] at h
  obtain ⟨name, hnameOk, type, htypeOk, size, hsizeOk, _, -, _, hsniff, h⟩ := h
  have hle : body.length ≤ settings.uploadMaxSizeBytes := by
    by_contra hlong
    have hspec := (spoolUploadStreamLimited_spec settings.uploadMaxSizeBytes reads body).1
    rw [if_neg hlong, hsizeOk] at hspec
    nomatch hspec
  obtain ⟨spool, hspool, hinitial, hall⟩ := spooled_of_le reads hle
  rw [hspool] at hsniff h
  dsimp only at hsniff h
  rw [hinitial, validateContentSniff_take] at hsniff
  rw [hall] at h
  obtain ⟨clock, -, hscan⟩ := run_runMalwareScan platform settings collation hclock body name
  obtain ⟨result, w₁, hresult, h⟩ := Prog.run_bind_eq_some.1 h
  obtain ⟨_, hclean, -⟩ := Prog.run_ofExcept_bind_eq_some.1 h
  rw [hscan, Option.some.injEq, Prod.mk.injEq] at hresult
  rw [orDefault_contentType htypeOk hsniff] at htypeOk
  exact ⟨name, type, hnameOk, htypeOk, hle, hsniff, result, hresult.1, hclean⟩

/-! ### When a presigned upload is verified -/

/-- The checks of a completion, for an object that is stored as it was declared. -/
lemma assertStoredMetadataMatches_stored
    (htype : validateDeclaredContentType settings.uploadAllowedContentTypes contentType = .ok type) :
    assertStoredMetadataMatches
      ⟨body.length, storedContentType (lower (PyText.strip contentType))⟩ type body.length =
        .ok () := by
  have hstored : storedContentType (lower (PyText.strip contentType)) = type := by
    rw [← (validateDeclaredContentType_eq_ok htype).1, storedContentType_eq htype]
  rw [assertStoredMetadataMatches, if_neg (not_not_intro rfl), if_neg (not_not_intro hstored)]

/-- What the worker makes of an object that is stored as it was declared. -/
lemma contentOutcome_eq_ok_iff {scanner : List UInt8 → String → Exchange}
    (hname : validateUploadFilename filename = .ok name)
    (htype : validateDeclaredContentType settings.uploadAllowedContentTypes contentType = .ok type)
    (hsize : body.length ≤ settings.uploadMaxSizeBytes) :
    contentOutcome platform settings scanner ⟨body, lower (PyText.strip contentType)⟩ type
        body.length name = .ok () ↔
      Accepts platform settings scanner filename contentType body name type := by
  rw [contentOutcome, assertStoredMetadataMatches_stored htype]
  dsimp only [bind, Except.bind]
  constructor
  · intro h
    cases hsniff : validateContentSniff type body with
    | error x =>
        rw [hsniff] at h
        nomatch h
    | ok u =>
        cases hscan : scanOutcome platform settings scanner body name with
        | error x =>
            rw [hsniff, hscan] at h
            nomatch h
        | ok result =>
            rw [hsniff, hscan] at h
            exact ⟨hname, htype, hsize, hsniff, result, hscan, h⟩
  · rintro ⟨-, -, -, hsniff, result, hscan, hclean⟩
    rw [hsniff, hscan]
    exact hclean

/-- **When a completion returns**: the name, the content type and the size are accepted. -/
lemma run_completePresignedUpload_iff {file : UploadedFile} {w' : World K}
    (hclock : w.clock ≤ e.now) (hstorage : e.storageError = none)
    (hbelongs : ensureObjectKeyBelongsToOwner objectKey owner.tenantId owner.id = .ok ())
    (hobject : w.objects objectKey = some ⟨body, lower (PyText.strip contentType)⟩) :
    (completePresignedUpload settings owner objectKey filename contentType body.length).run
        (interp platform collation) e w = some (.ok file, w') ↔
      ∃ name type, validateUploadFilename filename = .ok name ∧
        validateDeclaredContentType settings.uploadAllowedContentTypes contentType = .ok type ∧
        body.length ≤ settings.uploadMaxSizeBytes ∧
        (registerPresignedUpload owner objectKey name type body.length).run
          (interp platform collation) e { w with clock := e.now } = some (.ok file, w') := by
  have hsizeOk : validateFileSize settings.uploadMaxSizeBytes body.length = .ok () ↔
      body.length ≤ settings.uploadMaxSizeBytes := by
    unfold validateFileSize
    split_ifs with hlong
    · exact iff_of_false (by simp) (by omega)
    · exact iff_of_true rfl (by omega)
  have hmetadata : ∀ type,
      validateDeclaredContentType settings.uploadAllowedContentTypes contentType = .ok type →
      (verifyStoredObjectMetadata objectKey type body.length).run (interp platform collation) e w =
        some (.ok ⟨body.length, storedContentType (lower (PyText.strip contentType))⟩,
          { w with clock := e.now }) := by
    intro type htype
    rw [run_verifyStoredObjectMetadata platform collation hclock hstorage hobject,
      assertStoredMetadataMatches_stored htype]
    rfl
  rw [completePresignedUpload]
  simp only [Prog.bind_def, Prog.run_ofExcept_bind_eq_some]
  constructor
  · rintro ⟨name, hname, type, htype, _, hsize, _, -, hrest⟩
    rw [Prog.run_bind (hmetadata type htype)] at hrest
    exact ⟨name, type, hname, htype, hsizeOk.1 hsize, hrest⟩
  · rintro ⟨name, type, hname, htype, hsize, hrest⟩
    refine ⟨name, hname, type, htype, (), hsizeOk.2 hsize, (), hbelongs, ?_⟩
    rw [Prog.run_bind (hmetadata type htype)]
    exact hrest

end Runs

/-! ### Both ways -/

section Both

variable {K : Type} [Field K] [LinearOrder K] [FloorRing K]

/-- The calls of the storage and of Redis succeed. -/
structure Works (e : Env K) : Prop where
  storage : e.storageError = none
  redis : e.redisFails = false

/-- The owner is there, and both ways can record a file with this name: the object of the key is
stored for the owner, and no row has the key or the one that a direct upload would make. -/
structure Uploadable (platform : Platform) (w : World K) (owner : User)
    (objectKey filename contentType : String) (body : List UInt8) : Prop where
  tenantRow : (w.db.tenants.row owner.tenantId).isSome
  ownerRow : (w.db.users.row owner.id).isSome
  belongs : ensureObjectKeyBelongsToOwner objectKey owner.tenantId owner.id = .ok ()
  stored : w.objects objectKey = some ⟨body, lower (PyText.strip contentType)⟩
  unused : ∀ file ∈ w.db.uploadedFiles.toList, file.objectKey ≠ objectKey
  fresh : ∀ file ∈ w.db.uploadedFiles.toList, ∀ name,
    validateUploadFilename filename = .ok name → file.objectKey ≠
      buildObjectKey owner.tenantId owner.id (platform.uuid7 w.uuids) name

/-- What the other requests and jobs do between a completion and its job: anything but to the object
and to the row of the key. -/
structure LeavesUpload (objectKey : String) (completed verified : K)
    (others : World K → World K) : Prop where
  object : ∀ w, (others w).objects objectKey = w.objects objectKey
  row : ∀ w file, w.db.uploadedFiles.row file.id = some file → file.objectKey = objectKey →
    (others w).db.uploadedFiles.row file.id = some file
  clock : ∀ w, w.clock ≤ completed → (others w).clock ≤ verified

/-- A presigned upload is completed, and then verified by the worker. -/
def PresignedUpload (platform : Platform) (settings : Settings) (collation : Collation)
    (w : World K) (e e' : Env K) (others : World K → World K) (owner : User)
    (objectKey filename contentType : String) (body : List UInt8) (row : UploadedFile) : Prop :=
  ∃ file w₁ w₂,
    (completePresignedUpload settings owner objectKey filename contentType body.length).run
      (interp platform collation) e w = some (.ok file, w₁) ∧
    (verifyPresignedUploadInWorker platform settings file.id).run (interp platform collation) e'
      (others w₁) = some (.ok (), w₂) ∧
    w₂.db.uploadedFiles.row file.id = some row ∧ row.verificationStatus = .verified

/-- A direct upload returns a file. -/
def DirectUpload (platform : Platform) (settings : Settings) (collation : Collation) (w : World K)
    (e : Env K) (owner : User) (filename contentType : String) (body : List UInt8)
    (reads : Reads settings.uploadStreamChunkSizeBytes) (row : UploadedFile) (w' : World K) : Prop :=
  (upload platform settings owner ⟨some filename, some contentType, body, reads⟩).run
    (interp platform collation) e w = some (.ok row, w')

section

variable {platform : Platform} {settings : Settings} {collation : Collation} {w : World K}
  {e₁ e₂ e₃ : Env K} {others : World K → World K} {owner : User}
  {objectKey filename contentType name type : String} {body : List UInt8}
  {reads : Reads settings.uploadStreamChunkSizeBytes}

variable (settings collation) in
/-- The file that a completion records, and the run of its job after the others. -/
lemma run_job_of_completed (hworks₃ : Works e₃)
    (hothers : LeavesUpload objectKey e₂.now e₃.now others)
    (hready : Uploadable platform w owner objectKey filename contentType body) {w₁ : World K}
    (hrow : w₁.db.uploadedFiles.row (w.db.uploadedFiles.freshId e₂.gap) =
      some (recordedFile w e₂ owner objectKey name type body.length .pending))
    (hobjects : w₁.objects = w.objects) (hclock : w₁.clock ≤ e₂.now) :
    ∃ clock ≤ e₃.now, (verifyPresignedUploadInWorker platform settings
        (w.db.uploadedFiles.freshId e₂.gap : ℕ)).run (interp platform collation) e₃ (others w₁) =
      (concludeVerification (recordedFile w e₂ owner objectKey name type body.length .pending)
        (contentOutcome platform settings e₃.scanner ⟨body, lower (PyText.strip contentType)⟩ type
          body.length name)).run (interp platform collation) e₃ { others w₁ with clock } := by
  have hobject : (others w₁).objects objectKey = some ⟨body, lower (PyText.strip contentType)⟩ := by
    rw [hothers.object, hobjects, hready.stored]
  have hpending := hothers.row w₁
    (recordedFile w e₂ owner objectKey name type body.length .pending) hrow rfl
  exact run_verifyPresignedUpload platform settings collation (hothers.clock w₁ hclock)
    hworks₃.storage hpending rfl hobject

/-- **A file that is accepted is verified** by a presigned upload. -/
lemma presignedUpload_of_accepts
    (haccepts : Accepts platform settings e₃.scanner filename contentType body name type)
    (hworks₂ : Works e₂) (hworks₃ : Works e₃) (hclock₂ : w.clock ≤ e₂.now)
    (hothers : LeavesUpload objectKey e₂.now e₃.now others)
    (hready : Uploadable platform w owner objectKey filename contentType body) :
    PresignedUpload platform settings collation w e₂ e₃ others owner objectKey filename contentType
      body (recordedFile w e₂ owner objectKey name type body.length .verified) := by
  have hnow : ({ w with clock := e₂.now } : World K).clock ≤ e₂.now := le_rfl
  obtain ⟨w₁, hregister, hrow, hobjects, hclock⟩ := run_registerPresignedUpload platform collation
    hnow hworks₂.redis hready.tenantRow hready.ownerRow hready.unused name type body.length
  have hcomplete := (run_completePresignedUpload_iff platform collation hclock₂ hworks₂.storage
    hready.belongs hready.stored).2
    ⟨name, type, haccepts.name_eq, haccepts.type_eq, haccepts.size_le, hregister⟩
  obtain ⟨clock, hle, hjob⟩ := run_job_of_completed settings collation hworks₃
    hothers hready hrow hobjects hclock
  have houtcome := (contentOutcome_eq_ok_iff platform haccepts.name_eq haccepts.type_eq
    haccepts.size_le).2 haccepts
  rw [houtcome] at hjob
  have hrow' := hothers.row w₁ (recordedFile w e₂ owner objectKey name type body.length .pending)
    hrow rfl
  obtain ⟨w₂, hverify, hverified⟩ := run_concludeVerification_ok platform collation
    (w := { others w₁ with clock }) hle hrow'
  exact ⟨_, w₁, w₂, hcomplete, hjob.trans hverify, hverified, rfl⟩

/-- **A presigned upload that is verified was of a file that is accepted.** -/
lemma accepts_of_presignedUpload {row : UploadedFile}
    (hworks₂ : Works e₂) (hworks₃ : Works e₃) (hclock₂ : w.clock ≤ e₂.now)
    (hothers : LeavesUpload objectKey e₂.now e₃.now others)
    (hready : Uploadable platform w owner objectKey filename contentType body)
    (h : PresignedUpload platform settings collation w e₂ e₃ others owner objectKey filename
      contentType body row) :
    ∃ name type, Accepts platform settings e₃.scanner filename contentType body name type ∧
      row = recordedFile w e₂ owner objectKey name type body.length .verified := by
  obtain ⟨file, w₁, w₂, hcomplete, hverify, hrow₂, -⟩ := h
  obtain ⟨name, type, hname, htype, hsize, hregister⟩ :=
    (run_completePresignedUpload_iff platform collation hclock₂ hworks₂.storage hready.belongs
      hready.stored).1 hcomplete
  have hnow : ({ w with clock := e₂.now } : World K).clock ≤ e₂.now := le_rfl
  obtain ⟨w₁', hregister', hrow, hobjects, hclock⟩ := run_registerPresignedUpload platform
    collation hnow hworks₂.redis hready.tenantRow hready.ownerRow hready.unused name type
    body.length
  obtain ⟨hfile, rfl⟩ := Prod.mk.inj (Option.some.inj (hregister'.symm.trans hregister))
  obtain rfl := Except.ok.inj hfile
  obtain ⟨clock, hle, hjob⟩ := run_job_of_completed settings collation hworks₃
    hothers hready hrow hobjects hclock
  have hconclude := hjob.symm.trans hverify
  refine ⟨name, type, ?_⟩
  cases houtcome : contentOutcome platform settings e₃.scanner
      ⟨body, lower (PyText.strip contentType)⟩ type body.length name with
  | error x =>
      rw [houtcome] at hconclude
      have hnone := run_concludeVerification_error platform collation
        (w := { others w₁' with clock }) hle hconclude
      nomatch hrow₂.symm.trans hnone
  | ok u =>
      rw [houtcome] at hconclude
      have hrow' := hothers.row w₁' (recordedFile w e₂ owner objectKey name type body.length
        .pending) hrow rfl
      obtain ⟨w₂', hverify', hverified⟩ := run_concludeVerification_ok platform collation
        (w := { others w₁' with clock }) hle hrow'
      obtain ⟨-, rfl⟩ := Prod.mk.inj (Option.some.inj (hverify'.symm.trans hconclude))
      refine ⟨(contentOutcome_eq_ok_iff platform hname htype hsize).1 houtcome, ?_⟩
      exact Option.some.inj (hrow₂.symm.trans hverified)

end

/-- **Direct and presigned uploads accept the same files.**  A direct upload returns exactly if the
presigned upload of the same bytes is completed and verified, and the rows agree. -/
theorem uploads_accept_same_files (platform : Platform) (settings : Settings)
    (collation : Collation) {w : World K} {e₁ e₂ e₃ : Env K} {others : World K → World K}
    {owner : User} {objectKey filename contentType : String} {body : List UInt8}
    (reads : Reads settings.uploadStreamChunkSizeBytes) (hfilename : filename ≠ "")
    (hscanner : e₃.scanner = e₁.scanner) (hworks₁ : Works e₁) (hworks₂ : Works e₂)
    (hworks₃ : Works e₃) (hclock₁ : w.clock ≤ e₁.now) (hclock₂ : w.clock ≤ e₂.now)
    (hothers : LeavesUpload objectKey e₂.now e₃.now others)
    (hready : Uploadable platform w owner objectKey filename contentType body) :
    ((∃ row w', DirectUpload platform settings collation w e₁ owner filename contentType body reads
        row w') ↔
      ∃ row, PresignedUpload platform settings collation w e₂ e₃ others owner objectKey filename
        contentType body row) ∧
    ∀ row w' row', DirectUpload platform settings collation w e₁ owner filename contentType body
        reads row w' →
      PresignedUpload platform settings collation w e₂ e₃ others owner objectKey filename
        contentType body row' →
      w'.db.uploadedFiles.row row.id = some row ∧ row.filename = row'.filename ∧
        row.contentType = row'.contentType ∧ row.sizeBytes = row'.sizeBytes ∧
        row.verificationStatus = row'.verificationStatus := by
  have hdirect : ∀ {name type},
      Accepts platform settings e₁.scanner filename contentType body name type →
        ∃ w', DirectUpload platform settings collation w e₁ owner filename contentType body reads
          (recordedFile w e₁ owner (buildObjectKey owner.tenantId owner.id
            (platform.uuid7 w.uuids) name) name type body.length .verified) w' ∧
          w'.db.uploadedFiles.row (w.db.uploadedFiles.freshId e₁.gap) =
            some (recordedFile w e₁ owner (buildObjectKey owner.tenantId owner.id
              (platform.uuid7 w.uuids) name) name type body.length .verified) :=
    fun haccepts => run_upload_of_accepts platform collation owner reads haccepts hfilename
      hclock₁ hworks₁.storage hready.tenantRow hready.ownerRow fun file hfile =>
        hready.fresh file hfile _ haccepts.name_eq
  refine ⟨⟨?_, ?_⟩, ?_⟩
  · rintro ⟨row, w', hrow⟩
    obtain ⟨name, type, haccepts⟩ := accepts_of_run_upload platform collation hfilename hclock₁ hrow
    rw [← hscanner] at haccepts
    exact ⟨_, presignedUpload_of_accepts haccepts hworks₂ hworks₃ hclock₂ hothers hready⟩
  · rintro ⟨row, hrow⟩
    obtain ⟨name, type, haccepts, -⟩ :=
      accepts_of_presignedUpload hworks₂ hworks₃ hclock₂ hothers hready hrow
    rw [hscanner] at haccepts
    obtain ⟨w', hw', -⟩ := hdirect haccepts
    exact ⟨_, w', hw'⟩
  · intro row w' row' hrow hrow'
    obtain ⟨name, type, haccepts, rfl⟩ :=
      accepts_of_presignedUpload hworks₂ hworks₃ hclock₂ hothers hready hrow'
    rw [hscanner] at haccepts
    obtain ⟨w'', hw'', hstored⟩ := hdirect haccepts
    obtain ⟨heq, rfl⟩ := Prod.mk.inj (Option.some.inj (hw''.symm.trans hrow))
    obtain rfl := Except.ok.inj heq
    exact ⟨hstored, rfl, rfl, rfl, rfl⟩

/-- A PDF in the world of one user, stored for a presigned upload. -/
def storedPdf : World ℚ :=
  { World.oneUser with
    objects := Function.update World.oneUser.objects (buildObjectKey 1 1 "7" "report.pdf")
      (some ⟨[0x25, 0x50, 0x44, 0x46], "application/pdf"⟩) }

theorem storedPdf_accepted_both_ways :
    ∃ row, PresignedUpload Platform.plain {} Collation.plain storedPdf (Env.calm 0) (Env.calm 0) id
      ⟨1, 1, "ada@example.com", "", true, "user", 0⟩ (buildObjectKey 1 1 "7" "report.pdf")
      "report.pdf" "Application/PDF" [0x25, 0x50, 0x44, 0x46] row := by
  have hworks : Works (Env.calm 0) := ⟨rfl, rfl⟩
  have hready : Uploadable Platform.plain storedPdf ⟨1, 1, "ada@example.com", "", true, "user", 0⟩
      (buildObjectKey 1 1 "7" "report.pdf") "report.pdf" "Application/PDF"
      [0x25, 0x50, 0x44, 0x46] := by
    refine ⟨by decide, by decide, belongs_iff.2 (belongs_buildObjectKey ..), ?_, by decide,
      fun file hfile => ?_⟩
    · have hlower : lower (PyText.strip "Application/PDF") = "application/pdf" := by decide
      simp only [storedPdf, hlower, Function.update_self]
    · exact absurd hfile List.not_mem_nil
  have haccepts : Accepts Platform.plain {} (Env.calm 0).scanner "report.pdf" "Application/PDF"
      [0x25, 0x50, 0x44, 0x46] "report.pdf" "application/pdf" :=
    ⟨by decide +kernel, by decide +kernel, by decide, by decide +kernel, disabledScan, rfl, rfl⟩
  let reads : Reads 65536 := ⟨fun _ => 1, fun _ => one_pos, fun _ => by norm_num⟩
  obtain ⟨w', hdirect, -⟩ := run_upload_of_accepts Platform.plain Collation.plain
    ⟨1, 1, "ada@example.com", "", true, "user", 0⟩ reads haccepts (by decide)
    (le_refl (0 : ℚ)) rfl hready.tenantRow hready.ownerRow fun file hfile =>
      hready.fresh file hfile _ haccepts.name_eq
  exact (uploads_accept_same_files Platform.plain {} Collation.plain reads (by decide) rfl hworks
    hworks hworks (le_refl (0 : ℚ)) (le_refl (0 : ℚ)) ⟨fun _ => rfl, fun _ _ h _ => h, fun _ h => h⟩
    hready).1.1 ⟨_, w', hdirect⟩

end Both

end StarterBackend.Files

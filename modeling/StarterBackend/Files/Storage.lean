/-
The storage of files: `storage_service.py`, `run_malware_scan` and `upload_verification_service.py`.

A file comes in two ways.  A direct upload is checked while the request runs and recorded as
verified.  A presigned upload goes to the storage past the application: its completion
checks what was declared and what the storage says about the object, records the file as
pending and submits a job, in which the worker reads the object and verifies the file or
deletes it.
-/
import StarterBackend.App.Services
import StarterBackend.Files.ObjectKeys
import StarterBackend.Files.Scanner
import StarterBackend.Files.Spool

namespace StarterBackend.Files

open Lib App

variable {K : Type} (platform : Platform) (settings : Settings)

/-- `value or default`, of a text that may be missing. -/
def orDefault (value : Option String) (default : String) : String :=
  (value.filter (· ≠ "")).getD default

/-- The texts of an upload that are not empty are not replaced. -/
lemma orDefault_of_ne {value : String} (h : value ≠ "") (default : String) :
    orDefault (some value) default = value := by
  unfold orDefault
  rw [Option.filter_some, if_pos (decide_eq_true h), Option.getD_some]

/-- `UploadFile`, with the reads of its stream. -/
structure UploadFile where
  filename : Option String
  contentType : Option String
  stream : List UInt8
  reads : Reads settings.uploadStreamChunkSizeBytes

/-- `db.refresh(uploaded_file)`. -/
def refreshFile (fileId : ℕ) : AppProg K UploadedFile :=
  (query (.file fileId)).bind orUnhandled

/-- `run_malware_scan`. -/
def runMalwareScan (body : List UInt8) (filename : String) : AppProg K MalwareScanResult :=
  match getMalwareScanner settings.uploadMalwareScanEnabled settings.uploadMalwareScannerUrl with
  | .disabled => return disabledScan
  | .infectedFilename => return infectedFilenameScan filename
  | .http => do
      if isHeaderValue filename then
        .ofExcept (readExchange platform.answerText (← issue (.scan body filename)))
      else .raise .unhandled

/-! ### Direct uploads -/

/-- The end of `upload`, after the checks. -/
def storeUpload (owner : User) (filename contentType : String) (sizeBytes : ℕ) (spool : Spool) :
    AppProg K UploadedFile := do
  let objectKey := buildObjectKey owner.tenantId owner.id (← uuid7) filename
  match ← issue (.putObject objectKey ⟨spool.readAll.1, contentType⟩) with
  | .error _ => .raise (.serviceUnavailable "Object storage upload failed")
  | .ok _ =>
      let id ← orUnhandled (← commit
        [.insertFile owner.tenantId owner.id objectKey filename contentType sizeBytes .verified])
      refreshFile id

/-- `StorageService.upload`. -/
def upload (owner : User) (file : UploadFile settings) : AppProg K UploadedFile := do
  let filename ← .ofExcept (validateUploadFilename (orDefault file.filename "upload"))
  let contentType ← .ofExcept (validateDeclaredContentType settings.uploadAllowedContentTypes
    (orDefault file.contentType "application/octet-stream"))
  let spooled := spoolUploadStreamLimited settings.uploadMaxSizeBytes file.reads file.stream
  let sizeBytes ← .ofExcept spooled.result
  .ofExcept (validateFileSize settings.uploadMaxSizeBytes sizeBytes)
  let sniffPrefix := spooled.spool.read 512
  .ofExcept (validateContentSniff contentType sniffPrefix.1)
  let scanBody := (sniffPrefix.2.seek 0).readAll
  .ofExcept (ensureMalwareScanIsClean (← runMalwareScan platform settings scanBody.1 filename))
  storeUpload owner filename contentType sizeBytes (scanBody.2.seek 0)

/-! ### Stored objects -/

/-- `StoredObjectMetadata`. -/
structure StoredObjectMetadata where
  sizeBytes : ℕ
  contentType : String

/-- The content type of a stored object, without its parameters. -/
def storedContentType (contentType : String) : String :=
  let value := if contentType = "" then "application/octet-stream" else contentType
  lower (PyText.strip (String.ofList (value.toList.takeWhile (· ≠ ';'))))

/-- `S3StorageProvider.get_object_metadata`. -/
def getObjectMetadata (objectKey : String) : AppProg K StoredObjectMetadata := do
  match ← issue (.headObject objectKey) with
  | .ok (size, contentType) => return ⟨size, storedContentType contentType⟩
  | .error .botoCoreError => .raise .unhandled
  | .error _ => .raise (.badRequest "Uploaded object was not found in storage")

/-- `S3StorageProvider.download_object_body`. -/
def downloadObjectBody (objectKey : String) (maxBytes : ℕ) : AppProg K (List UInt8) := do
  match ← issue (.getObject objectKey) with
  | .ok object =>
      let body := object.take (maxBytes + 1)
      if maxBytes < body.length then .raise (.payloadTooLarge "File too large") else return body
  | .error .botoCoreError => .raise .unhandled
  | .error _ => .raise (.badRequest "Uploaded object could not be verified")

/-- `S3StorageProvider.verify_bucket_access`. -/
def verifyBucketAccess : AppProg K Unit := do
  match ← issue .headBucket with
  | .ok _ => return ()
  | .error _ => .raise (.serviceUnavailable "Object storage bucket is not reachable")

/-- `assert_stored_metadata_matches`. -/
def assertStoredMetadataMatches (metadata : StoredObjectMetadata) (declaredContentType : String)
    (declaredSizeBytes : ℤ) : Except AppError Unit :=
  if (metadata.sizeBytes : ℤ) ≠ declaredSizeBytes then
    .error (.badRequest "Uploaded object size does not match declared size")
  else if metadata.contentType ≠ declaredContentType then
    .error (.badRequest "Uploaded object content type does not match declared content type")
  else .ok ()

/-- `verify_stored_object_metadata`. -/
def verifyStoredObjectMetadata (objectKey declaredContentType : String) (declaredSizeBytes : ℤ) :
    AppProg K StoredObjectMetadata := do
  let metadata ← getObjectMetadata objectKey
  .ofExcept (assertStoredMetadataMatches metadata declaredContentType declaredSizeBytes)
  return metadata

/-- `verify_stored_object_content`. -/
def verifyStoredObjectContent (objectKey declaredContentType : String) (declaredSizeBytes : ℤ)
    (filename : String) : AppProg K Unit := do
  let metadata ← verifyStoredObjectMetadata objectKey declaredContentType declaredSizeBytes
  let body ← downloadObjectBody objectKey metadata.sizeBytes
  if body.length ≠ metadata.sizeBytes then
    .raise (.badRequest "Uploaded object size could not be verified")
  else
    .ofExcept (validateContentSniff declaredContentType body)
    .ofExcept (ensureMalwareScanIsClean (← runMalwareScan platform settings body filename))

/-! ### Presigned uploads -/

/-- `StorageService.create_presigned_upload`: the key of the object, and the URL. -/
def createPresignedUpload (owner : User) (filename contentType : String) :
    AppProg K (String × String) := do
  let safeFilename ← .ofExcept (validateUploadFilename filename)
  let normalizedContentType ← .ofExcept
    (validateDeclaredContentType settings.uploadAllowedContentTypes contentType)
  verifyBucketAccess
  let objectKey := buildObjectKey owner.tenantId owner.id (← uuid7) safeFilename
  return (objectKey, platform.presignedUrl "put_object" objectKey normalizedContentType
    settings.uploadPresignedUrlExpireSeconds)

/-- The end of `complete_presigned_upload`, after the checks. -/
def registerPresignedUpload (owner : User) (objectKey filename contentType : String)
    (sizeBytes : ℤ) : AppProg K UploadedFile := do
  let id ← orUnhandled (← commit
    [.insertFile owner.tenantId owner.id objectKey filename contentType sizeBytes .pending])
  let uploadedFile ← refreshFile id
  let _ ← orUnhandled (← issue (.enqueueJob (.verifyPresignedUpload uploadedFile.id)))
  return uploadedFile

/-- `StorageService.complete_presigned_upload`. -/
def completePresignedUpload (owner : User) (objectKey filename contentType : String)
    (sizeBytes : ℤ) : AppProg K UploadedFile := do
  let safeFilename ← .ofExcept (validateUploadFilename filename)
  let normalizedContentType ← .ofExcept
    (validateDeclaredContentType settings.uploadAllowedContentTypes contentType)
  .ofExcept (validateFileSize settings.uploadMaxSizeBytes sizeBytes)
  .ofExcept (ensureObjectKeyBelongsToOwner objectKey owner.tenantId owner.id)
  let _ ← verifyStoredObjectMetadata objectKey normalizedContentType sizeBytes
  registerPresignedUpload owner objectKey safeFilename normalizedContentType sizeBytes

/-- What the worker makes of a verification: a `DomainError` deletes the object, whatever the
storage says to that, and the row. -/
def concludeVerification (uploadedFile : UploadedFile) : Except AppError Unit → AppProg K Unit
  | .ok _ => do
      let _ ← commit [.verifyFile uploadedFile.id]
  | .error (.http _ _) => do
      let _ ← issue (.deleteObject uploadedFile.objectKey)
      let _ ← commit [.deleteFile uploadedFile.id]
  | .error .unhandled => .raise .unhandled

/-- `verify_presigned_upload_in_worker`. -/
def verifyPresignedUploadInWorker (uploadedFileId : ℤ) : AppProg K Unit := do
  match ← query (.file uploadedFileId) with
  | none => return ()
  | some uploadedFile =>
      if uploadedFile.verificationStatus ≠ .pending then return ()
      else
        let outcome ← (verifyStoredObjectContent platform settings uploadedFile.objectKey
          uploadedFile.contentType uploadedFile.sizeBytes uploadedFile.filename).attempt
        concludeVerification uploadedFile outcome

/-! ### Access -/

/-- `can_access_uploaded_file`. -/
def canAccessUploadedFile (currentUser : User) (uploadedFile : UploadedFile) : Bool :=
  currentUser.tenantId == uploadedFile.tenantId &&
    (userHasPermission currentUser .filesDownload ||
      (uploadedFile.ownerId == currentUser.id && userHasPermission currentUser .filesDownloadSelf))

/-- `can_delete_uploaded_file`. -/
def canDeleteUploadedFile (currentUser : User) (uploadedFile : UploadedFile) : Bool :=
  currentUser.tenantId == uploadedFile.tenantId &&
    (userHasPermission currentUser .filesDelete ||
      (uploadedFile.ownerId == currentUser.id && userHasPermission currentUser .filesDeleteSelf))

/-- `ensure_upload_is_downloadable`; a row has no status but the two. -/
def ensureUploadIsDownloadable (uploadedFile : UploadedFile) : Except AppError Unit :=
  match uploadedFile.verificationStatus with
  | .pending => .error (.conflict "File verification is still in progress")
  | .verified => .ok ()

/-- `StorageService.get_presigned_download_url`. -/
def getPresignedDownloadUrl (uploadedFile : UploadedFile) (currentUser : User) :
    AppProg K String := do
  if canAccessUploadedFile currentUser uploadedFile then
    .ofExcept (ensureUploadIsDownloadable uploadedFile)
    return platform.presignedUrl "get_object" uploadedFile.objectKey ""
      settings.uploadPresignedUrlExpireSeconds
  else .raise (.forbidden "Insufficient permissions")

/-- `StorageService.delete_uploaded_file`. -/
def deleteUploadedFile (uploadedFile : UploadedFile) (currentUser : User) : AppProg K Unit := do
  if canDeleteUploadedFile currentUser uploadedFile then
    match ← issue (.deleteObject uploadedFile.objectKey) with
    | .error _ => .raise (.serviceUnavailable "Object storage delete failed")
    | .ok _ =>
        let _ ← commit [.deleteFile uploadedFile.id]
  else .raise (.forbidden "Insufficient permissions")

end StarterBackend.Files

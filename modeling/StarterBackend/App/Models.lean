/-
The data of the application: the rows of its tables, the claims of its tokens, its
settings, its errors, and the code that it uses from elsewhere.

A row has the columns that some function reads or writes; the `created_at` of a reset
token and of a file that only a response shows are among them only where a query sorts
by them.  Columns that the schema declares `NOT NULL` have plain types, so a row with a
null in them cannot be built.
-/
import StarterBackend.Lib.Table
import StarterBackend.Lib.Json
import StarterBackend.Lib.RedisKeys

namespace StarterBackend.App

open Lib

/-! ### Rows -/

/-- `Tenant`. -/
structure Tenant where
  id : ℕ
  slug : String
  name : String
  isActive : Bool
deriving DecidableEq

/-- `User`. -/
structure User where
  id : ℕ
  tenantId : ℕ
  email : String
  hashedPassword : String
  isActive : Bool
  role : String
  tokenVersion : ℤ
deriving DecidableEq

/-- `AuditAction`. -/
inductive AuditAction where
  | userUpdated
  | userDeactivated
  | userActivated
  | userDeleted
  | passwordResetRequested
  | passwordResetConfirmed
  | tenantCreated
  | tenantActivated
  | tenantDeactivated
deriving DecidableEq

/-- `AuditLog`. -/
structure AuditLog (K : Type) where
  id : ℕ
  tenantId : ℕ
  adminId : Option ℕ
  action : AuditAction
  targetUserId : Option ℕ
  createdAt : K

/-- `UploadVerificationStatus`. -/
inductive UploadVerificationStatus where
  | pending
  | verified
deriving DecidableEq

/-- `UploadedFile`. -/
structure UploadedFile where
  id : ℕ
  tenantId : ℕ
  ownerId : ℕ
  objectKey : String
  filename : String
  contentType : String
  sizeBytes : ℤ
  verificationStatus : UploadVerificationStatus
deriving DecidableEq

/-- `PasswordResetToken`. -/
structure PasswordResetToken (K : Type) where
  id : ℕ
  userId : ℕ
  tokenHash : String
  expiresAt : K
  usedAt : Option K

instance : Entity Tenant := ⟨Tenant.id⟩

instance : Entity User := ⟨User.id⟩

instance {K : Type} : Entity (AuditLog K) := ⟨AuditLog.id⟩

instance : Entity UploadedFile := ⟨UploadedFile.id⟩

instance {K : Type} : Entity (PasswordResetToken K) := ⟨PasswordResetToken.id⟩

/-- The tables, and the job ids of `password_reset_job_completions`. -/
structure Database (K : Type) where
  tenants : Table Tenant
  users : Table User
  auditLogs : Table (AuditLog K)
  uploadedFiles : Table UploadedFile
  passwordResetTokens : Table (PasswordResetToken K)
  passwordResetJobCompletions : List String

/-! ### Roles -/

/-- `UserRole`, the roles that a request can name. -/
inductive UserRole where
  | user
  | admin
  | platformAdmin
deriving DecidableEq

/-- The text of a role in the table. -/
def UserRole.value : UserRole → String
  | .user => "user"
  | .admin => "admin"
  | .platformAdmin => "platform_admin"

/-! ### Requests and responses about users -/

/-- The body of a `PATCH` of a user: a field can be absent, null, or have a value. -/
structure UserAdminUpdate where
  email : Option (Option String) := none
  isActive : Option (Option Bool) := none
  role : Option (Option UserRole) := none
deriving DecidableEq

/-- `UserSelfUpdate(**user_update.model_dump(exclude_unset=True))`. -/
def UserAdminUpdate.selfUpdate (update : UserAdminUpdate) : UserAdminUpdate :=
  { email := update.email }

/-- `UserRead`. -/
structure UserRead where
  id : ℕ
  email : String
  isActive : Bool
  role : String
deriving DecidableEq

/-- The response about a user. -/
def User.read (user : User) : UserRead := ⟨user.id, user.email, user.isActive, user.role⟩

/-! ### Tokens -/

/-- The claims of a token; a decoded token may lack any of them. -/
structure Claims where
  type : Option String
  sub : Option String
  tenantId : Option ℤ
  tokenVersion : Option ℤ
  exp : Option ℤ
  jti : Option String
deriving DecidableEq

/-! ### Settings and errors -/

/-- The settings that the application reads. -/
structure Settings where
  accessTokenExpireMinutes : ℕ := 30
  refreshTokenExpireDays : ℕ := 7
  registrationEnabled : Bool := true
  passwordResetTokenExpireMinutes : ℕ := 30
  passwordResetJobCompletionTtlSeconds : ℕ := 86400
  usersCacheEnabled : Bool := true
  usersCacheTtlSeconds : ℕ := 60
  uploadMaxSizeBytes : ℕ := 5242880
  uploadAllowedContentTypes : String := "image/png,image/jpeg,application/pdf"
  uploadPresignedUrlExpireSeconds : ℕ := 300
  uploadStreamChunkSizeBytes : ℕ := 65536
  uploadMalwareScanEnabled : Bool := false
  uploadMalwareScannerUrl : String := ""

/-- How a request fails: with a status and a message (`DomainError`, `HTTPException`), or with an
exception that nothing handles. -/
inductive AppError where
  | http (status : ℕ) (message : String)
  | unhandled
deriving DecidableEq

namespace AppError

def badRequest (message : String) : AppError := .http 400 message

def unauthorized (message : String) : AppError := .http 401 message

def forbidden (message : String) : AppError := .http 403 message

def notFound (message : String) : AppError := .http 404 message

def conflict (message : String) : AppError := .http 409 message

def unprocessable (message : String) : AppError := .http 422 message

def payloadTooLarge (message : String) : AppError := .http 413 message

def serviceUnavailable (message : String) : AppError := .http 503 message

end AppError

/-! ### Code from elsewhere -/

/-- What the decoder makes of a cursor: the value of its JSON text, a `ValueError`, or the
`RecursionError` of a text that is nested too deeply. -/
inductive CursorText where
  | value (v : Json)
  | invalid
  | tooDeep

/-- What `json.loads(body.decode("utf-8"))` makes of an answer of the malware scanner: a value, a
`UnicodeDecodeError` or a `JSONDecodeError`, or another exception (the `RecursionError` of a text
that is nested too deeply, the `ValueError` of a number that is too long). -/
inductive AnswerText where
  | value (v : Json)
  | invalid
  | fails

/-- What comes of a request to the malware scanner. -/
inductive Exchange where
  /-- A `URLError` or a `TimeoutError`. -/
  | unreachable
  /-- The connection breaks in the answer, an exception of `http.client` or of the socket. -/
  | broken
  | answered (status : ℕ) (body : List UInt8)
deriving DecidableEq

/-- What the application uses from the libraries under it, with what it relies on: a token that
is decoded carries the claims that were encoded, and `uuid7` does not return the empty
text or the same text twice. -/
structure Platform where
  encode : Claims → String
  decode : String → Option Claims
  decode_encode : ∀ claims, decode (encode claims) = some claims
  uuid7 : ℕ → String
  uuid7_injective : Function.Injective uuid7
  uuid7_ne_empty : ∀ n, uuid7 n ≠ ""
  verifyPassword : (plain hashed : String) → Bool
  hashPasswordResetToken : String → String
  /-- The hexadecimal digest of a text. -/
  sha256 : String → String
  /-- The URL-safe base64 of the compact JSON text of a cursor, and its reader. -/
  encodeCursor : Json → String
  decodeCursor : String → CursorText
  /-- A floating-point number is equal to an integer. -/
  floatEq : FloatLit → ℤ → Bool
  answerText : List UInt8 → AnswerText
  /-- The URL of an object that is good for some seconds. -/
  presignedUrl : (method objectKey contentType : String) → ℕ → String

end StarterBackend.App

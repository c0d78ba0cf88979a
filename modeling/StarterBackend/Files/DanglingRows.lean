/-
The rows of files and their objects.

The database has the rows and the storage has the objects, and no transaction spans both.
Uploads, completions, verifications and deletions run at the same time, each a sequence of
calls of either store: any call can fail, also after it has taken effect, and a process can
die between any two of them.  A direct upload stores the object first, and a verification
reads it first, but a deletion deletes the object before it commits the deletion of the row.
What comes in between leaves a verified row without its object, and so does a deletion or a
verification that was overtaken by another one.  `verified_rows_have_objects_iff` says which
steps do that.
-/
import StarterBackend.App.Faults
import StarterBackend.Files.Storage
import StarterBackend.Lib.Phases

namespace StarterBackend.Files

open Lib App

/-! ### The calls -/

/-- `delete_file`, for the user of the request. -/
def deleteFile {K : Type} (fileId : ℤ) (currentUser : User) : AppProg K Unit := do
  match ← query (.fileInTenant fileId currentUser.tenantId) with
  | none => .raise (.notFound "File not found")
  | some uploadedFile => deleteUploadedFile uploadedFile currentUser

inductive FileCall (settings : Settings) where
  | upload (owner : User) (file : UploadFile settings)
  | complete (owner : User) (objectKey filename contentType : String) (sizeBytes : ℤ)
  | verify (uploadedFileId : ℤ)
  | delete (fileId : ℤ) (currentUser : User)

def FileCall.isDelete {settings : Settings} : FileCall settings → Bool
  | .delete _ _ => true
  | _ => false

/-- What becomes of a command. -/
inductive Outcome (K : Type) where
  | replies (e : Env K)
  /-- It is not executed, as the database fails. -/
  | databaseFails
  /-- It is executed, and looks as if it had failed. -/
  | replyLost (e : Env K)

def Outcome.isReply {K : Type} : Outcome K → Bool
  | .replies _ => true
  | _ => false

/-- What the application sees of a command whose reply is lost. -/
def lostReply {K : Type} : (c : Command K) → Option (Except AppError c.Reply)
  | .query _ | .flush _ | .commit _ => some (.error .unhandled)
  | .putObject _ _ | .deleteObject _ => some (.ok (.error .botoCoreError))
  | _ => none

/-- The calls, and which of them have deleted an object. -/
structure FileCalls (ι K : Type) (settings : Settings) where
  pool : Pool ι (FileCall settings) (AppProg K Unit) (World K)
  removed : ι → Bool

/-- A step of a call, or an object that a client stores with a presigned URL. -/
inductive FileAction (ι K : Type) (settings : Settings) where
  | call (a : PoolAction ι (FileCall settings) (Outcome K))
  | put (objectKey : String) (object : StoredObject)

section Programs

variable {K : Type}

/-- The row whose deletion is committed next. -/
def removing : AppProg K Unit → Option ℕ
  | .call (.commit [.deleteFile fileId]) _ => some fileId
  | _ => none

/-- The key of the object that the next step deletes, and the row whose deletion is then committed
next. -/
def deletion : AppProg K Unit → Outcome K → Option (String × Option ℕ)
  | .call (.deleteObject objectKey) k, .replies e =>
      if e.storageError = none then some (objectKey, removing (k (.ok ()))) else none
  | .call (.deleteObject objectKey) k, .replyLost e =>
      if e.storageError = none then some (objectKey, removing (k (.error .botoCoreError))) else none
  | _, _ => none

/-- The row that a transaction records as verified, and the key of its object. -/
def recorded [LinearOrder K] (db : Database K) (e : Env K) :
    List (Statement K) → Option (ℕ × String)
  | [.verifyFile fileId] => (db.uploadedFiles.row fileId).map fun file => (fileId, file.objectKey)
  | [.insertFile tenantId ownerId objectKey filename contentType sizeBytes .verified] =>
      ((Statement.insertFile tenantId ownerId objectKey filename contentType sizeBytes .verified).exec
        e.gap e.databaseNow db).map fun _ => (db.uploadedFiles.freshId e.gap, objectKey)
  | _ => none

/-- The row that the next step records as verified. -/
def recording [LinearOrder K] (db : Database K) :
    AppProg K Unit → Outcome K → Option (ℕ × String)
  | .call (.commit statements) _, .replies e => recorded db e statements
  | .call (.commit statements) _, .replyLost e => recorded db e statements
  | _, _ => none

/-- The row of a verified file whose object is not in the storage. -/
def Dangling (w : World K) (fileId : ℕ) : Prop :=
  ∃ file, w.db.uploadedFiles.row fileId = some file ∧ file.verificationStatus = .verified ∧
    w.objects file.objectKey = none

end Programs

namespace FileCalls

variable {K : Type} [Field K] [LinearOrder K] [FloorRing K] {ι : Type} [DecidableEq ι]
  (platform : Platform) (collation : Collation) (settings : Settings)

def program : FileCall settings → AppProg K Unit
  | .upload owner file => (upload platform settings owner file).bind fun _ => .ret ()
  | .complete owner objectKey filename contentType sizeBytes =>
      (completePresignedUpload settings owner objectKey filename contentType sizeBytes).bind
        fun _ => .ret ()
  | .verify uploadedFileId => verifyPresignedUploadInWorker platform settings uploadedFileId
  | .delete fileId currentUser => deleteFile fileId currentUser

/-- The interpretation of a command that can fail, before it is executed or after. -/
def failing : Prog.Interp (Command K) Command.Reply AppError (World K) (Outcome K) := fun c o w =>
  match o with
  | .replies e => interp platform collation c e w
  | .databaseFails => if c.isSql then some (.error .unhandled, w) else none
  | .replyLost e =>
      if w.clock ≤ e.now then
        (lostReply c).map fun x =>
          (x, { (c.exec platform collation e w).2 with clock := e.now })
      else none

/-- The calls that have deleted an object after a step. -/
def record {settings : Settings} (s : FileCalls ι K settings) :
    PoolAction ι (FileCall settings) (Outcome K) → ι → Bool
  | .start i _ => Function.update s.removed i false
  | .step i o =>
      match s.pool.calls i with
      | some (_, p) => if (deletion p o).isSome then Function.update s.removed i true else s.removed
      | none => s.removed
  | .die _ => s.removed

def step (s : FileCalls ι K settings) : FileAction ι K settings → Option (FileCalls ι K settings)
  | .call a => (Pool.next (failing platform collation) (program platform settings) s.pool a).map
      fun pool => ⟨pool, s.record a⟩
  | .put objectKey object => some { s with pool := { s.pool with store := { s.pool.store with
      objects := Function.update s.pool.store.objects objectKey (some object) } } }

/-- No call has started. -/
def initial (w : World K) : FileCalls ι K settings := ⟨Pool.initial w, fun _ => false⟩

variable {settings}

/-- The call is about to commit the deletion of the row. -/
def Removes (s : FileCalls ι K settings) (i : ι) (fileId : ℕ) : Prop :=
  ∃ q p, s.pool.calls i = some (q, p) ∧ removing p = some fileId

/-- **Every verified row has its object**, unless a call is about to commit the deletion of the row,
so in particular when no call is on its way; and a deletion that has raised an exception has deleted
nothing. -/
structure Kept (s : FileCalls ι K settings) : Prop where
  objects : ∀ fileId, Dangling s.pool.store fileId → ∃ i, s.Removes i fileId
  raised : ∀ i q x, s.pool.calls i = some (q, .raise x) → q.isDelete = true → s.removed i = false

/-- The call may end here: if it was about to commit the deletion of a row without its object, then
so is another one. -/
def MayEnd (s : FileCalls ι K settings) (i : ι) : Prop :=
  ∀ fileId, s.Removes i fileId → Dangling s.pool.store fileId → ∃ j, j ≠ i ∧ s.Removes j fileId

/-- What a command must not do. -/
structure InOrder (s : FileCalls ι K settings) (i : ι) (o : Outcome K) (q : FileCall settings)
    (p : AppProg K Unit) : Prop where
  /-- A deletion sees no failure once the object is deleted. -/
  replied : q.isDelete = true → (removing p).isSome ∨ (deletion p o).isSome → o.isReply = true
  committed : o = .databaseFails → s.MayEnd i
  /-- No other verified row has the object that is deleted. -/
  deleted : ∀ objectKey own, deletion p o = some (objectKey, own) →
    ∀ fileId file, s.pool.store.db.uploadedFiles.row fileId = some file →
      file.verificationStatus = .verified → file.objectKey = objectKey →
        own = some fileId ∨ ∃ j, s.Removes j fileId
  /-- A row is not verified after its object was deleted. -/
  recorded : ∀ fileId objectKey, recording s.pool.store.db p o = some (fileId, objectKey) →
    s.pool.store.objects objectKey ≠ none ∨ ∃ j, s.Removes j fileId

def Orderly (s : FileCalls ι K settings) : FileAction ι K settings → Prop
  | .put _ _ => True
  | .call (.start _ _) => True
  | .call (.die i) => s.MayEnd i
  | .call (.step i o) => ∀ q p, s.pool.calls i = some (q, p) → InOrder s i o q p


end FileCalls

/-! ### The programs -/

section Programs

variable {K : Type}

/-- The transactions of the calls. -/
inductive FileTransaction : List (Statement K) → Prop
  | insert (tenantId ownerId : ℕ) (objectKey filename contentType : String) (sizeBytes : ℤ)
      (verificationStatus : UploadVerificationStatus) :
      FileTransaction [.insertFile tenantId ownerId objectKey filename contentType sizeBytes
        verificationStatus]
  | verify (fileId : ℕ) : FileTransaction [.verifyFile fileId]
  | delete (fileId : ℕ) : FileTransaction [.deleteFile fileId]

/-- A call commits such transactions only, and commits no deletion right after a commit. -/
structure Tidy (p : AppProg K Unit) : Prop where
  every : p.Every fun c k => ∀ statements, c = .commit statements →
    FileTransaction statements ∧ ∀ r, removing (k r) = none

/-- The program does not commit. -/
structure CommitFree {α : Type} (p : AppProg K α) : Prop where
  every : p.Every fun c _ => ∀ statements, c ≠ .commit statements

section

variable {α β : Type}

lemma CommitFree.bind {p : AppProg K α} {f : α → AppProg K β} (hp : CommitFree p)
    (hf : ∀ a, CommitFree (f a)) : CommitFree (p.bind f) :=
  ⟨Prog.Every.bind hp.every fun a => (hf a).every⟩

lemma CommitFree.tidy_bind {p : AppProg K α} {f : α → AppProg K Unit} (hp : CommitFree p)
    (hf : ∀ a, Tidy (f a)) : Tidy (p.bind f) :=
  ⟨Prog.Every.bind (hp.every.imp fun _ _ hc statements heq => absurd heq (hc statements)) fun a =>
    (hf a).every⟩

lemma CommitFree.attempt {p : AppProg K α} (hp : CommitFree p) : CommitFree p.attempt := by
  obtain ⟨hp⟩ := hp
  constructor
  induction p with
  | ret a => trivial
  | raise x => trivial
  | call c k ih => exact ⟨hp.1, fun r => ih r (hp.2 r)⟩

lemma commitFree_ret (a : α) : CommitFree (.ret a : AppProg K α) := ⟨trivial⟩

lemma commitFree_raise (x : AppError) : CommitFree (.raise x : AppProg K α) := ⟨trivial⟩

lemma commitFree_ofExcept (x : Except AppError α) : CommitFree (.ofExcept x : AppProg K α) := by
  cases x with
  | ok a => exact commitFree_ret a
  | error x => exact commitFree_raise x

lemma commitFree_orUnhandled (x : Option α) : CommitFree (orUnhandled x : AppProg K α) := by
  cases x with
  | none => exact commitFree_raise .unhandled
  | some a => exact commitFree_ret a

lemma commitFree_issue {c : Command K} (hc : ∀ statements, c ≠ .commit statements) :
    CommitFree (issue c) := ⟨hc, fun _ => trivial⟩

lemma tidy_ret : Tidy (.ret () : AppProg K Unit) := ⟨trivial⟩

lemma tidy_raise (x : AppError) : Tidy (.raise x : AppProg K Unit) := ⟨trivial⟩

end

lemma commitFree_runMalwareScan (platform : Platform) (settings : Settings) (body : List UInt8)
    (filename : String) :
    CommitFree (runMalwareScan (K := K) platform settings body filename) := by
  unfold runMalwareScan
  split
  · exact commitFree_ret _
  · exact commitFree_ret _
  · split_ifs
    · exact (commitFree_issue fun _ heq => by cases heq).bind fun _ => commitFree_ofExcept _
    · exact commitFree_raise _

lemma commitFree_verifyMetadata (objectKey contentType : String) (sizeBytes : ℤ) :
    CommitFree (verifyStoredObjectMetadata (K := K) objectKey contentType sizeBytes) := by
  refine CommitFree.bind ?_ fun metadata =>
    (commitFree_ofExcept _).bind fun _ => commitFree_ret metadata
  refine (commitFree_issue fun _ heq => by cases heq).bind fun reply => ?_
  split
  · exact commitFree_ret _
  · exact commitFree_raise _
  · exact commitFree_raise _

lemma commitFree_verifyContent (platform : Platform) (settings : Settings)
    (objectKey contentType : String) (sizeBytes : ℤ) (filename : String) :
    CommitFree (verifyStoredObjectContent (K := K) platform settings objectKey contentType sizeBytes
      filename) := by
  refine (commitFree_verifyMetadata objectKey contentType sizeBytes).bind fun metadata => ?_
  refine CommitFree.bind ?_ fun body => ?_
  · refine (commitFree_issue fun _ heq => by cases heq).bind fun reply => ?_
    split
    · dsimp only
      split_ifs
      · exact commitFree_raise _
      · exact commitFree_ret _
    · exact commitFree_raise _
    · exact commitFree_raise _
  · split_ifs
    · exact commitFree_raise _
    · exact (commitFree_ofExcept _).bind fun _ =>
        (commitFree_runMalwareScan platform settings body filename).bind fun _ => commitFree_ofExcept _

/-- A transaction, and what comes after it. -/
lemma tidy_commit_bind {statements : List (Statement K)} {f : Option ℕ → AppProg K Unit}
    (hstatements : FileTransaction statements) (hf : ∀ id, Tidy (f id))
    (hremoving : ∀ id, removing (f id) = none) : Tidy ((commit statements).bind f) := by
  refine ⟨fun _ heq => ?_, fun reply => ?_⟩
  · cases heq
    refine ⟨hstatements, fun reply => ?_⟩
    cases reply with
    | none => rfl
    | some id => exact hremoving id
  · cases reply with
    | none => trivial
    | some id => exact (hf id).every

section

variable (platform : Platform) (settings : Settings)

lemma tidy_storeUpload (owner : User) (filename contentType : String) (sizeBytes : ℕ)
    (spool : Spool) : Tidy ((storeUpload (K := K) owner filename contentType sizeBytes spool).bind
      fun _ => .ret ()) := by
  unfold storeUpload
  simp only [Prog.bind_def, Prog.bind_assoc]
  refine (commitFree_issue fun _ heq => by cases heq).tidy_bind fun uuid => ?_
  refine (commitFree_issue fun _ heq => by cases heq).tidy_bind fun reply => ?_
  cases reply with
  | error x => exact tidy_raise _
  | ok _ =>
      simp only [Prog.bind_assoc]
      refine tidy_commit_bind (.insert ..) (fun id => ?_) fun id => ?_
      · refine (commitFree_orUnhandled id).tidy_bind fun fileId => ?_
        refine CommitFree.tidy_bind ?_ fun _ => tidy_ret
        exact (commitFree_issue fun _ heq => by cases heq).bind fun _ => commitFree_orUnhandled _
      · cases id <;> rfl

lemma tidy_upload (owner : User) (file : UploadFile settings) :
    Tidy ((upload (K := K) platform settings owner file).bind fun _ => .ret ()) := by
  unfold upload
  simp only [Prog.bind_def, Prog.bind_assoc]
  refine (commitFree_ofExcept _).tidy_bind fun filename => ?_
  refine (commitFree_ofExcept _).tidy_bind fun contentType => ?_
  refine (commitFree_ofExcept _).tidy_bind fun sizeBytes => ?_
  refine (commitFree_ofExcept _).tidy_bind fun _ => ?_
  refine (commitFree_ofExcept _).tidy_bind fun _ => ?_
  refine (commitFree_runMalwareScan platform settings _ _).tidy_bind fun verdict => ?_
  refine (commitFree_ofExcept _).tidy_bind fun _ => ?_
  exact tidy_storeUpload owner filename contentType sizeBytes _

lemma tidy_complete (owner : User) (objectKey filename contentType : String) (sizeBytes : ℤ) :
    Tidy ((completePresignedUpload (K := K) settings owner objectKey filename contentType
      sizeBytes).bind fun _ => .ret ()) := by
  unfold completePresignedUpload
  simp only [Prog.bind_def, Prog.bind_assoc]
  refine (commitFree_ofExcept _).tidy_bind fun name => ?_
  refine (commitFree_ofExcept _).tidy_bind fun type => ?_
  refine (commitFree_ofExcept _).tidy_bind fun _ => ?_
  refine (commitFree_ofExcept _).tidy_bind fun _ => ?_
  refine (commitFree_verifyMetadata objectKey type sizeBytes).tidy_bind fun _ => ?_
  unfold registerPresignedUpload
  simp only [Prog.bind_def, Prog.bind_assoc]
  refine tidy_commit_bind (.insert ..) (fun id => ?_) fun id => ?_
  · refine (commitFree_orUnhandled id).tidy_bind fun fileId => ?_
    refine CommitFree.tidy_bind ?_ fun file => ?_
    · exact (commitFree_issue fun _ heq => by cases heq).bind fun _ => commitFree_orUnhandled _
    · refine (commitFree_issue fun _ heq => by cases heq).tidy_bind fun reply => ?_
      exact (commitFree_orUnhandled reply).tidy_bind fun _ => tidy_ret
  · cases id <;> rfl

lemma tidy_conclude (uploadedFile : UploadedFile) (outcome : Except AppError Unit) :
    Tidy (concludeVerification (K := K) uploadedFile outcome) := by
  cases outcome with
  | ok _ => exact tidy_commit_bind (.verify uploadedFile.id) (fun _ => tidy_ret) fun _ => rfl
  | error x =>
      cases x with
      | unhandled => exact tidy_raise _
      | http status message =>
          refine (commitFree_issue fun _ heq => by cases heq).tidy_bind fun _ => ?_
          exact tidy_commit_bind (.delete uploadedFile.id) (fun _ => tidy_ret) fun _ => rfl

lemma tidy_verify (uploadedFileId : ℤ) :
    Tidy (verifyPresignedUploadInWorker (K := K) platform settings uploadedFileId) := by
  refine (commitFree_issue fun _ heq => by cases heq).tidy_bind fun file => ?_
  cases file with
  | none => exact tidy_ret
  | some file =>
      show Tidy (if _ then _ else _)
      split_ifs
      · exact tidy_ret
      · exact (commitFree_verifyContent platform settings _ _ _ _).attempt.tidy_bind fun _ =>
          tidy_conclude file _

/-- The end of `delete_uploaded_file`, after the check of the permission. -/
def removeObject (uploadedFile : UploadedFile) : AppProg K Unit := do
  match ← issue (.deleteObject uploadedFile.objectKey) with
  | .error _ => .raise (.serviceUnavailable "Object storage delete failed")
  | .ok _ =>
      let _ ← commit [.deleteFile uploadedFile.id]

lemma deleteUploadedFile_eq (uploadedFile : UploadedFile) (currentUser : User) :
    deleteUploadedFile (K := K) uploadedFile currentUser =
      if canDeleteUploadedFile currentUser uploadedFile then removeObject uploadedFile
      else .raise (.forbidden "Insufficient permissions") := rfl

lemma tidy_delete (fileId : ℤ) (currentUser : User) :
    Tidy (deleteFile (K := K) fileId currentUser) := by
  refine (commitFree_issue fun _ heq => by cases heq).tidy_bind fun file => ?_
  cases file with
  | none => exact tidy_raise _
  | some file =>
      dsimp only
      rw [deleteUploadedFile_eq]
      split_ifs
      · refine (commitFree_issue fun _ heq => by cases heq).tidy_bind fun reply => ?_
        cases reply with
        | error x => exact tidy_raise _
        | ok _ => exact tidy_commit_bind (.delete file.id) (fun _ => tidy_ret) fun _ => rfl
      · exact tidy_raise _

lemma tidy_program (q : FileCall settings) :
    Tidy (FileCalls.program (K := K) platform settings q) := by
  cases q with
  | upload owner file => exact tidy_upload platform settings owner file
  | complete owner objectKey filename contentType sizeBytes =>
      exact tidy_complete settings owner objectKey filename contentType sizeBytes
  | verify uploadedFileId => exact tidy_verify platform settings uploadedFileId
  | delete fileId currentUser => exact tidy_delete fileId currentUser

end

/-! ### Deletions -/

lemma removing_call_eq_some {c : Command K} {k : c.Reply → AppProg K Unit} {fileId : ℕ}
    (h : removing (.call c k) = some fileId) : c = .commit [.deleteFile fileId] := by
  unfold removing at h
  split at h
  · rename_i heq
    obtain ⟨rfl, -⟩ := Prog.call.inj heq
    rw [Option.some.inj h]
  · cases h

/-- Where a deletion stands, and whether it has deleted the object. -/
inductive DeletePhase : AppProg K Unit → Bool → Prop
  | loads (fileId : ℤ) (currentUser : User) : DeletePhase (deleteFile fileId currentUser) false
  | removes (uploadedFile : UploadedFile) : DeletePhase (removeObject uploadedFile) false
  | commits (uploadedFile : UploadedFile) :
      DeletePhase ((commit [.deleteFile uploadedFile.id]).bind fun _ => .ret ()) true
  | returned : DeletePhase (.ret ()) true
  | raised (x : AppError) (removed : Bool) : DeletePhase (.raise x) removed

end Programs

/-! ### Steps -/

namespace FileCalls

variable {K : Type} [Field K] [LinearOrder K] [FloorRing K] {platform : Platform}
  {collation : Collation} {c : Command K} {k : c.Reply → AppProg K Unit} {o : Outcome K}
  {w t : World K} {x : Except AppError c.Reply}

/-- **What becomes of a command**: the database fails, or the command is executed and its reply is
seen or lost. -/
lemma failing_eq_some (h : failing platform collation c o w = some (x, t)) :
    (o = .databaseFails ∧ c.isSql = true ∧ x = .error .unhandled ∧ t = w) ∨
    ∃ e, t = { (c.exec platform collation e w).2 with clock := e.now } ∧
      (o = .replies e ∧ x = .ok (c.exec platform collation e w).1 ∨
        o = .replyLost e ∧ lostReply c = some x) := by
  cases o with
  | replies e =>
      obtain ⟨-, hx, ht⟩ := interp_eq_some h
      exact .inr ⟨e, ht, .inl ⟨rfl, hx⟩⟩
  | databaseFails =>
      simp only [failing] at h
      split_ifs at h with hsql
      obtain ⟨rfl, rfl⟩ := Prod.mk.inj (Option.some.inj h)
      exact .inl ⟨rfl, hsql, rfl, rfl⟩
  | replyLost e =>
      simp only [failing] at h
      split_ifs at h
      obtain ⟨y, hy, heq⟩ := Option.map_eq_some_iff.1 h
      obtain ⟨rfl, rfl⟩ := Prod.mk.inj heq
      exact .inr ⟨e, rfl, .inr ⟨rfl, hy⟩⟩

variable {removed : Bool}

/-- **One step of a deletion.**  It raises an exception after it has deleted the object exactly if the
step that comes after or with the deletion of the object sees a failure. -/
lemma deletePhase_step (hp : DeletePhase (.call c k) removed)
    (h : failing platform collation c o w = some (x, t)) :
    DeletePhase (Prog.resume k x) (removed || (deletion (.call c k) o).isSome) ∧
      (((∃ y, Prog.resume k x = .raise y) ∧
          (removed || (deletion (.call c k) o).isSome) = true) ↔
        o.isReply = false ∧
          ((removing (.call c k)).isSome = true ∨ (deletion (.call c k) o).isSome = true)) := by
  generalize hprog : Prog.call c k = p at hp
  cases hp with
  | loads fileId currentUser =>
      obtain ⟨rfl, hk⟩ := Prog.call.inj hprog
      obtain rfl := eq_of_heq hk
      have hdeletion : deletion (deleteFile fileId currentUser) o = none := by cases o <;> rfl
      have hremoving : removing (deleteFile (K := K) fileId currentUser) = none := rfl
      rw [hdeletion, hremoving]
      refine ⟨?_, iff_of_false (by simp) (by simp)⟩
      obtain ⟨-, -, rfl, -⟩ | ⟨e, -, ⟨-, rfl⟩ | ⟨-, hlost⟩⟩ := failing_eq_some h
      · exact .raised _ _
      · simp only [Command.exec, Prog.resume, Prog.ret_bind]
        rcases Query.eval collation w.db (.fileInTenant fileId currentUser.tenantId) with _ | file
        · exact .raised _ _
        · dsimp only
          rw [deleteUploadedFile_eq]
          split_ifs
          · exact .removes file
          · exact .raised _ _
      · obtain rfl := Option.some.inj hlost
        exact .raised _ _
  | removes file =>
      obtain ⟨rfl, hk⟩ := Prog.call.inj hprog
      obtain rfl := eq_of_heq hk
      have hremoving : removing (removeObject (K := K) file) = none := rfl
      rw [hremoving]
      obtain ⟨-, hsql, -⟩ | ⟨e, -, ⟨rfl, rfl⟩ | ⟨rfl, hlost⟩⟩ := failing_eq_some h
      · cases hsql
      · rcases he : e.storageError with _ | error
        · -- the object is deleted, and the commit comes next
          have hdeletion : deletion (removeObject (K := K) file) (.replies e) =
              some (file.objectKey, some file.id) := if_pos he
          rw [hdeletion]
          simp only [Command.exec, writeObjects, he]
          exact ⟨.commits file, iff_of_false (fun hraise => by cases hraise.1.choose_spec)
            fun hlost => by cases hlost.1⟩
        · have hdeletion : deletion (removeObject (K := K) file) (.replies e) = none :=
            if_neg (by simp [he])
          rw [hdeletion]
          simp only [Command.exec, writeObjects, he]
          exact ⟨.raised _ _, iff_of_false (by simp) (by simp)⟩
      · obtain rfl := Option.some.inj hlost
        refine ⟨.raised _ _, ?_⟩
        simp [Prog.resume, Outcome.isReply]
  | commits file =>
      obtain ⟨rfl, hk⟩ := Prog.call.inj hprog
      obtain rfl := eq_of_heq hk
      have hremoving : removing ((commit [.deleteFile file.id]).bind fun _ => .ret () : AppProg K Unit) =
          some file.id := rfl
      rw [hremoving]
      obtain ⟨rfl, -, rfl, -⟩ | ⟨e, -, ⟨rfl, rfl⟩ | ⟨rfl, hlost⟩⟩ := failing_eq_some h
      · exact ⟨.raised _ _, iff_of_true ⟨⟨_, rfl⟩, rfl⟩ ⟨rfl, .inl rfl⟩⟩
      · exact ⟨.returned, iff_of_false (fun hraise => by cases hraise.1.choose_spec)
          fun hlost => by cases hlost.1⟩
      · obtain rfl := Option.some.inj hlost
        exact ⟨.raised _ _, iff_of_true ⟨⟨_, rfl⟩, rfl⟩ ⟨rfl, .inl rfl⟩⟩
  | returned => cases hprog
  | raised y _ => cases hprog

/-! ### Rows that lose their objects -/

section Rows

variable {e : Env K} {statements : List (Statement K)} {fileId : ℕ}

omit [Field K] [FloorRing K] in
/-- **The verified rows after a transaction** were there before it, or are recorded by it. -/
lemma row_of_transaction {id : Option ℕ} {db db' : Database K} {file : UploadedFile}
    (hstatements : FileTransaction statements)
    (h : transaction e.gap e.databaseNow statements none db = some (id, db'))
    (hrow : db'.uploadedFiles.row fileId = some file) (hverified : file.verificationStatus = .verified) :
    (db.uploadedFiles.row fileId = some file ∧ statements ≠ [.deleteFile fileId]) ∨
      recorded db e statements = some (fileId, file.objectKey) := by
  cases hstatements with
  | insert tenantId ownerId objectKey filename contentType sizeBytes status =>
      rw [transaction_singleton] at h
      have hexec := h
      simp only [Statement.exec] at h
      split_ifs at h
      obtain ⟨-, rfl⟩ := Prod.mk.inj (Option.some.inj h)
      rw [Table.row_insert] at hrow
      split_ifs at hrow with hnew
      · obtain rfl := Option.some.inj hrow
        obtain rfl : status = .verified := hverified
        right
        rw [recorded, hexec, hnew]
        rfl
      · exact .inl ⟨hrow, by simp⟩
  | verify verifiedId =>
      rw [transaction_singleton] at h
      simp only [Statement.exec] at h
      split_ifs at h
      obtain ⟨-, rfl⟩ := Prod.mk.inj (Option.some.inj h)
      obtain ⟨before, hbefore, rfl⟩ := Option.map_eq_some_iff.1 hrow
      have hid : before.id = fileId := db.uploadedFiles.id_of_row hbefore
      by_cases heq : before.id = verifiedId
      · right
        obtain rfl : verifiedId = fileId := heq.symm.trans hid
        rw [recorded, hbefore, if_pos heq]
        rfl
      · rw [if_neg heq]
        exact .inl ⟨hbefore, by simp⟩
  | delete deletedId =>
      rw [transaction_singleton] at h
      obtain ⟨-, rfl⟩ := Prod.mk.inj (Option.some.inj h)
      obtain ⟨hbefore, hother⟩ := Option.filter_eq_some_iff.1 hrow
      have hid : file.id = fileId := db.uploadedFiles.id_of_row hbefore
      refine .inl ⟨hbefore, fun heq => ?_⟩
      obtain rfl : deletedId = fileId := by simpa using heq
      simp [hid] at hother

omit [Field K] [FloorRing K] in
/-- The row that a transaction records. -/
lemma exists_row_of_recorded {db : Database K} {objectKey : String} (hstatements : FileTransaction statements)
    (h : recorded db e statements = some (fileId, objectKey)) :
    ∃ id db' file, transaction e.gap e.databaseNow statements none db = some (id, db') ∧
      db'.uploadedFiles.row fileId = some file ∧ file.verificationStatus = .verified ∧
      file.objectKey = objectKey := by
  cases hstatements with
  | insert tenantId ownerId key filename contentType sizeBytes status =>
      cases status with
      | pending => cases h
      | verified =>
          obtain ⟨⟨id, db'⟩, hexec, heq⟩ := Option.map_eq_some_iff.1 h
          obtain ⟨rfl, rfl⟩ := Prod.mk.inj heq
          have hdb := hexec
          simp only [Statement.exec] at hdb
          split_ifs at hdb
          obtain ⟨-, rfl⟩ := Prod.mk.inj (Option.some.inj hdb)
          refine ⟨_, _, ⟨db.uploadedFiles.freshId e.gap, tenantId, ownerId, key, filename, contentType,
            sizeBytes, .verified⟩, transaction_singleton.trans hexec, ?_, rfl, rfl⟩
          rw [Table.row_insert_self]
  | verify verifiedId =>
      obtain ⟨file, hrow, heq⟩ := Option.map_eq_some_iff.1 h
      obtain ⟨rfl, rfl⟩ := Prod.mk.inj heq
      have hid : file.id = verifiedId := db.uploadedFiles.id_of_row hrow
      refine ⟨none, _, { file with verificationStatus := .verified },
        transaction_singleton.trans (if_neg (by simp [hrow])), ?_, rfl, rfl⟩
      rw [Table.row_modify, hrow, Option.map_some, if_pos hid]
  | delete deletedId => cases h

variable (platform collation w) in
/-- The objects after a command that neither stores nor deletes one. -/
lemma objects_exec (hput : ∀ key object, c ≠ .putObject key object)
    (hdelete : ∀ key, c ≠ .deleteObject key) :
    (c.exec platform collation e w).2.objects = w.objects := by
  cases c with
  | putObject key object => exact absurd rfl (hput key object)
  | deleteObject key => exact absurd rfl (hdelete key)
  | commit statements =>
      rcases h : transaction e.gap e.databaseNow statements none w.db with _ | r
      · rw [Command.exec_commit_of_none h]
      · rw [Command.exec_commit_of_some h]
  | redisIncr key =>
      simp only [Command.exec, unlessFails]
      split
      · rfl
      · split <;> rfl
  | _ =>
      simp only [Command.exec, unlessFails, readObject, writeObjects] <;>
        first
          | rfl
          | split <;> rfl

/-- **The rows without objects after a command**: those that had none before, those whose object it
deletes, and those that it records. -/
lemma dangling_exec (htidy : ∀ statements, c = .commit statements → FileTransaction statements)
    (h : Dangling (c.exec platform collation e w).2 fileId) :
    (Dangling w fileId ∧ c ≠ .commit [.deleteFile fileId]) ∨
    (∃ objectKey, c = .deleteObject objectKey ∧ e.storageError = none ∧
      ∃ file, w.db.uploadedFiles.row fileId = some file ∧ file.verificationStatus = .verified ∧
        file.objectKey = objectKey) ∨
    ∃ statements objectKey, c = .commit statements ∧
      recorded w.db e statements = some (fileId, objectKey) ∧ w.objects objectKey = none := by
  obtain ⟨file, hrow, hverified, hnone⟩ := h
  cases c with
  | commit statements =>
      rcases hcommit : transaction e.gap e.databaseNow statements none w.db with _ | ⟨id, db⟩
      · rw [Command.exec_commit_of_none hcommit] at hrow hnone
        refine .inl ⟨⟨file, hrow, hverified, hnone⟩, fun heq => ?_⟩
        obtain rfl := Command.commit.inj heq
        cases hcommit
      · rw [Command.exec_commit_of_some hcommit] at hrow hnone
        obtain ⟨hbefore, hne⟩ | hrecorded := row_of_transaction (htidy statements rfl) hcommit hrow
          hverified
        · exact .inl ⟨⟨file, hbefore, hverified, hnone⟩, fun heq => hne (Command.commit.inj heq)⟩
        · exact .inr (.inr ⟨statements, _, rfl, hrecorded, hnone⟩)
  | putObject key object =>
      rw [Command.db_exec (by simp)] at hrow
      refine .inl ⟨⟨file, hrow, hverified, ?_⟩, by simp⟩
      simp only [Command.exec, writeObjects] at hnone
      split at hnone
      · exact hnone
      · simp only [Function.update_apply] at hnone
        split_ifs at hnone
        exact hnone
  | deleteObject key =>
      rw [Command.db_exec (by simp)] at hrow
      simp only [Command.exec, writeObjects] at hnone
      split at hnone
      · exact .inl ⟨⟨file, hrow, hverified, hnone⟩, by simp⟩
      · rename_i he
        simp only [Function.update_apply] at hnone
        split_ifs at hnone with hkey
        · exact .inr (.inl ⟨key, rfl, he, file, hrow, hverified, hkey⟩)
        · exact .inl ⟨⟨file, hrow, hverified, hnone⟩, by simp⟩
  | _ =>
      rw [Command.db_exec (by simp)] at hrow
      rw [objects_exec platform collation w (by simp) (by simp)] at hnone
      exact .inl ⟨⟨file, hrow, hverified, hnone⟩, by simp⟩

end Rows

/-! ### Runs -/

section Runs

variable {ι : Type} [DecidableEq ι] {settings : Settings} {s s' : FileCalls ι K settings}

/-- What is known of the calls of a run. -/
structure OnTheirWay (s : FileCalls ι K settings) : Prop where
  tidy : ∀ i q p, s.pool.calls i = some (q, p) → Tidy p
  phase : ∀ i q p, s.pool.calls i = some (q, p) → q.isDelete = true → DeletePhase p (s.removed i)

omit [Field K] [LinearOrder K] [FloorRing K] [DecidableEq ι] in
lemma onTheirWay_initial (w : World K) : OnTheirWay (initial settings w : FileCalls ι K settings) :=
  ⟨nofun, nofun⟩

/-- **What a call's step does**: a call starts, issues a command, or dies. -/
lemma step_call_cases {a : PoolAction ι (FileCall settings) (Outcome K)}
    (h : step platform collation settings s (.call a) = some s') :
    (∃ i q, a = .start i q ∧ s.pool.calls i = none ∧ s' = ⟨{ s.pool with
        calls := Function.update s.pool.calls i (some (q, program platform settings q)) },
        Function.update s.removed i false⟩) ∨
    (∃ i o q c k x t, a = .step i o ∧ s.pool.calls i = some (q, .call c k) ∧
      failing platform collation c o s.pool.store = some (x, t) ∧
      s' = ⟨⟨t, Function.update s.pool.calls i (some (q, Prog.resume k x))⟩,
        if (deletion (.call c k) o).isSome then Function.update s.removed i true else s.removed⟩) ∨
    (∃ i q p, a = .die i ∧ s.pool.calls i = some (q, p) ∧
      s' = ⟨{ s.pool with calls := Function.update s.pool.calls i none }, s.removed⟩) := by
  obtain ⟨pool, hpool, rfl⟩ := Option.map_eq_some_iff.1 h
  rcases Pool.next_cases hpool with ⟨i, q, rfl, hi, rfl⟩ |
    ⟨i, o, q, c, k, p', t, rfl, hi, rfl, hcmd⟩ | ⟨i, q, p, rfl, hi, rfl⟩
  · exact .inl ⟨i, q, rfl, hi, rfl⟩
  · right; left
    rcases hcmd with ⟨y, hexec, rfl⟩ | ⟨r, hexec, rfl⟩
    · exact ⟨i, o, q, c, k, _, t, rfl, hi, hexec, by simp only [record, hi]; rfl⟩
    · exact ⟨i, o, q, c, k, _, t, rfl, hi, hexec, by simp only [record, hi]; rfl⟩
  · exact .inr (.inr ⟨i, q, p, rfl, hi, rfl⟩)

omit [Field K] [LinearOrder K] [FloorRing K] in
/-- The calls that have deleted an object, after the step of one of them. -/
lemma removed_step {i j : ι} {p : AppProg K Unit} :
    (if (deletion p o).isSome then Function.update s.removed i true else s.removed) j =
      if j = i then s.removed i || (deletion p o).isSome else s.removed j := by
  rcases eq_or_ne j i with rfl | hne
  · cases (deletion p o).isSome <;> simp
  · rw [if_neg hne]
    split_ifs
    · rw [Function.update_of_ne hne]
    · rfl

/-- **A step keeps the calls on their way.** -/
lemma OnTheirWay.step {a : FileAction ι K settings} (hs : OnTheirWay s)
    (h : step platform collation settings s a = some s') : OnTheirWay s' := by
  cases a with
  | put objectKey object =>
      obtain rfl := Option.some.inj h
      exact ⟨hs.tidy, hs.phase⟩
  | call a =>
      rcases step_call_cases h with ⟨i, q, rfl, hi, rfl⟩ | ⟨i, o, q, c, k, x, t, rfl, hi, hexec, rfl⟩ |
        ⟨i, q, p, rfl, hi, rfl⟩
      · refine ⟨fun j q' p hj => ?_, fun j q' p hj hdelete => ?_⟩
        · simp only [Function.update_apply] at hj
          split_ifs at hj
          · obtain ⟨rfl, rfl⟩ := Prod.mk.inj (Option.some.inj hj)
            exact tidy_program platform settings q
          · exact hs.tidy j q' p hj
        · simp only [Function.update_apply] at hj ⊢
          split_ifs at hj ⊢
          · obtain ⟨rfl, rfl⟩ := Prod.mk.inj (Option.some.inj hj)
            cases q with
            | delete fileId currentUser => exact .loads fileId currentUser
            | _ => cases hdelete
          · exact hs.phase j q' p hj hdelete
      · refine ⟨fun j q' p hj => ?_, fun j q' p hj hdelete => ?_⟩
        · simp only [Function.update_apply] at hj
          split_ifs at hj
          · obtain ⟨rfl, rfl⟩ := Prod.mk.inj (Option.some.inj hj)
            cases x with
            | error y => exact tidy_raise y
            | ok r => exact ⟨(hs.tidy i q _ hi).every.2 r⟩
          · exact hs.tidy j q' p hj
        · simp only [removed_step]
          simp only [Function.update_apply] at hj
          split_ifs at hj ⊢
          · obtain ⟨rfl, rfl⟩ := Prod.mk.inj (Option.some.inj hj)
            exact (deletePhase_step (hs.phase i q _ hi hdelete) hexec).1
          · exact hs.phase j q' p hj hdelete
      · refine ⟨fun j q' p' hj => ?_, fun j q' p' hj hdelete => ?_⟩ <;>
          simp only [Function.update_apply] at hj <;> split_ifs at hj
        · exact hs.tidy j q' p' hj
        · exact hs.phase j q' p' hj hdelete

omit [Field K] [LinearOrder K] [FloorRing K] in
/-- The calls that are about to commit the deletion of a row, after one of them has moved. -/
lemma removes_update {i j : ι} {fileId : ℕ} {call : Option (FileCall settings × AppProg K Unit)}
    {removed : ι → Bool} :
    Removes ⟨⟨t, Function.update s.pool.calls i call⟩, removed⟩ j fileId ↔
      (j = i ∧ ∃ q p, call = some (q, p) ∧ removing p = some fileId) ∨ (j ≠ i ∧ s.Removes j fileId) := by
  simp only [Removes, Function.update_apply]
  rcases eq_or_ne j i with rfl | hne
  · simp
  · simp [hne]

/-- **A step that deletes an object.** -/
lemma deletion_eq_some {objectKey : String} {own : Option ℕ}
    (h : deletion (.call c k) o = some (objectKey, own))
    (hexec : failing platform collation c o w = some (x, t)) :
    own = removing (Prog.resume k x) ∧ t.db = w.db ∧ t.objects objectKey = none := by
  have hdeletes : ∃ e, c = .deleteObject objectKey ∧ e.storageError = none ∧
      (o = .replies e ∨ o = .replyLost e) := by
    cases c with
    | deleteObject key =>
        cases o with
        | databaseFails => cases h
        | replies e | replyLost e =>
            obtain ⟨he, heq⟩ := Option.ite_none_right_eq_some.1 h
            obtain ⟨rfl, -⟩ := Prod.mk.inj (Option.some.inj heq)
            exact ⟨e, rfl, he, by simp⟩
    | _ => cases o <;> cases h
  obtain ⟨e, rfl, he, rfl | rfl⟩ := hdeletes
  · obtain ⟨hfails, -⟩ | ⟨e', rfl, ⟨ho, rfl⟩ | ⟨ho, -⟩⟩ := failing_eq_some hexec
    · cases hfails
    · obtain rfl := Outcome.replies.inj ho
      obtain ⟨-, heq⟩ := Option.ite_none_right_eq_some.1 h
      obtain ⟨-, rfl⟩ := Prod.mk.inj (Option.some.inj heq)
      simp [Command.exec, writeObjects, he, Prog.resume]
    · cases ho
  · obtain ⟨hfails, -⟩ | ⟨e', rfl, ⟨ho, -⟩ | ⟨ho, hlost⟩⟩ := failing_eq_some hexec
    · cases hfails
    · cases ho
    · obtain rfl := Outcome.replyLost.inj ho
      obtain rfl := Option.some.inj hlost
      obtain ⟨-, heq⟩ := Option.ite_none_right_eq_some.1 h
      obtain ⟨-, rfl⟩ := Prod.mk.inj (Option.some.inj heq)
      simp [Command.exec, writeObjects, he, Prog.resume]

/-- **The rows without objects after a step.** -/
lemma dangling_step {fileId : ℕ} (htidy : Tidy (.call c k))
    (hexec : failing platform collation c o w = some (x, t)) (h : Dangling t fileId) :
    (Dangling w fileId ∧ (o = .databaseFails ∨ removing (.call c k) ≠ some fileId)) ∨
    (∃ objectKey, removing (.call c k) = none ∧
      deletion (.call c k) o = some (objectKey, removing (Prog.resume k x)) ∧
      ∃ file, w.db.uploadedFiles.row fileId = some file ∧ file.verificationStatus = .verified ∧
        file.objectKey = objectKey) ∨
    ∃ objectKey, removing (.call c k) = none ∧
      recording w.db (.call c k) o = some (fileId, objectKey) ∧ w.objects objectKey = none := by
  obtain ⟨rfl, -, -, rfl⟩ | ⟨e, rfl, hreply⟩ := failing_eq_some hexec
  · exact .inl ⟨h, .inl rfl⟩
  obtain ⟨hdangling, hne⟩ | ⟨objectKey, rfl, he, hfile⟩ | ⟨statements, objectKey, rfl, hrecorded, hnone⟩ :=
    dangling_exec (fun statements heq => (htidy.every.1 statements heq).1)
      (show Dangling (c.exec platform collation e w).2 fileId from h)
  · exact .inl ⟨hdangling, .inr fun hremoving => hne (removing_call_eq_some hremoving)⟩
  · refine .inr (.inl ⟨objectKey, rfl, ?_, hfile⟩)
    obtain ⟨rfl, rfl⟩ | ⟨rfl, hlost⟩ := hreply
    · simp [deletion, he, Command.exec, writeObjects, Prog.resume]
    · obtain rfl := Option.some.inj hlost
      simp [deletion, he, Prog.resume]
  · refine .inr (.inr ⟨objectKey, ?_, ?_, hnone⟩)
    · cases (htidy.every.1 statements rfl).1 with
      | delete deletedId => cases hrecorded
      | _ => rfl
    · obtain ⟨rfl, -⟩ | ⟨rfl, -⟩ := hreply <;> exact hrecorded

/-- A step that records a row whose object is not there. -/
lemma dangling_of_recording {fileId : ℕ} {objectKey : String} (htidy : Tidy (.call c k))
    (hexec : failing platform collation c o w = some (x, t))
    (h : recording w.db (.call c k) o = some (fileId, objectKey)) (hnone : w.objects objectKey = none) :
    Dangling t fileId ∧ removing (Prog.resume k x) = none := by
  have hcommit : ∃ e statements, c = .commit statements ∧ (o = .replies e ∨ o = .replyLost e) ∧
      recorded w.db e statements = some (fileId, objectKey) := by
    cases c with
    | commit statements =>
        cases o with
        | databaseFails => cases h
        | replies e => exact ⟨e, statements, rfl, .inl rfl, h⟩
        | replyLost e => exact ⟨e, statements, rfl, .inr rfl, h⟩
    | _ => cases o <;> cases h
  obtain ⟨e, statements, rfl, ho, hrecorded⟩ := hcommit
  obtain ⟨hstatements, hafter⟩ := htidy.every.1 statements rfl
  obtain ⟨id, db, file, hexec', hrow, hverified, rfl⟩ := exists_row_of_recorded hstatements hrecorded
  refine ⟨?_, ?_⟩
  · obtain ⟨rfl, -⟩ | ⟨e', rfl, he'⟩ := failing_eq_some hexec
    · cases ho with
      | inl ho => cases ho
      | inr ho => cases ho
    · obtain rfl : e' = e := by
        obtain rfl | rfl := ho <;> obtain ⟨heq, -⟩ | ⟨heq, -⟩ := he' <;> cases heq <;> rfl
      rw [Command.exec_commit_of_some hexec']
      exact ⟨file, hrow, hverified, hnone⟩
  · cases x with
    | error y => rfl
    | ok r => exact hafter r

omit [Field K] [LinearOrder K] [FloorRing K] in
/-- A call that dies. -/
lemma kept_die_iff {i : ι} {q : FileCall settings} {p : AppProg K Unit} (hkept : Kept s)
    (hi : s.pool.calls i = some (q, p)) :
    Kept ⟨{ s.pool with calls := Function.update s.pool.calls i none }, s.removed⟩ ↔ s.MayEnd i := by
  constructor
  · intro h fileId hremoves hdangling
    obtain ⟨j, hj⟩ := h.objects fileId hdangling
    obtain ⟨-, _, _, hnone, -⟩ | hj := removes_update.1 hj
    · cases hnone
    · exact ⟨j, hj⟩
  · intro h
    refine ⟨fun fileId hdangling => ?_, fun j q' y hj hdelete => ?_⟩
    · obtain ⟨j, hj⟩ := hkept.objects fileId hdangling
      rcases eq_or_ne j i with rfl | hne
      · obtain ⟨j', hother⟩ := h fileId hj hdangling
        exact ⟨j', removes_update.2 (.inr hother)⟩
      · exact ⟨j, removes_update.2 (.inr ⟨hne, hj⟩)⟩
    · simp only [Function.update_apply] at hj
      split_ifs at hj
      exact hkept.raised j q' y hj hdelete

/-- **A command.** -/
lemma kept_step_iff {i : ι} {q : FileCall settings} (hs : OnTheirWay s) (hkept : Kept s)
    (hi : s.pool.calls i = some (q, .call c k))
    (hexec : failing platform collation c o s.pool.store = some (x, t)) :
    Kept ⟨⟨t, Function.update s.pool.calls i (some (q, Prog.resume k x))⟩,
        if (deletion (.call c k) o).isSome then Function.update s.removed i true else s.removed⟩ ↔
      InOrder s i o q (.call c k) := by
  have htidy := hs.tidy i q _ hi
  have hremoves : ∀ {fileId}, s.Removes i fileId → removing (.call c k) = some fileId := by
    rintro fileId ⟨q', p, hi', hremoving⟩
    obtain ⟨rfl, rfl⟩ := Prod.mk.inj (Option.some.inj (hi.symm.trans hi'))
    exact hremoving
  have hphase := fun hdelete => (deletePhase_step (hs.phase i q _ hi hdelete) hexec).2
  constructor
  · intro h
    -- what would be out of order breaks what is kept
    have hself : ∀ {fileId}, Dangling t fileId → removing (Prog.resume k x) ≠ some fileId →
        ∃ j, j ≠ i ∧ s.Removes j fileId := by
      intro fileId hdangling hne
      obtain ⟨j, hj⟩ := h.objects fileId hdangling
      obtain ⟨-, q', p', heq, hremoving⟩ | hj := removes_update.1 hj
      · obtain ⟨rfl, rfl⟩ := Prod.mk.inj (Option.some.inj heq)
        exact absurd hremoving hne
      · exact ⟨j, hj⟩
    refine ⟨fun hdelete hdeletes => ?_, ?_, fun objectKey own hdeletion fileId file hrow hverified hkey => ?_,
      fun fileId objectKey hrecording => ?_⟩
    · by_contra hreply
      obtain ⟨⟨y, hy⟩, hremoved⟩ := (hphase hdelete).2 ⟨Bool.eq_false_iff.2 hreply, hdeletes⟩
      have hfalse := removed_step.symm.trans
        (h.raised i q y ((Function.update_self ..).trans (by rw [hy])) hdelete)
      rw [if_pos rfl, hremoved] at hfalse
      cases hfalse
    · rintro rfl fileId hi' hdangling
      obtain ⟨-, -, rfl, rfl⟩ | ⟨e, -, ⟨ho, -⟩ | ⟨ho, -⟩⟩ := failing_eq_some hexec
      · exact hself hdangling nofun
      · cases ho
      · cases ho
    · obtain ⟨rfl, hdb, hnone⟩ := deletion_eq_some hdeletion hexec
      refine or_iff_not_imp_left.2 fun hown => ?_
      obtain ⟨j, -, hj⟩ := hself ⟨file, by rwa [hdb], hverified, by rwa [hkey]⟩ hown
      exact ⟨j, hj⟩
    · refine or_iff_not_imp_left.2 fun hnone => ?_
      obtain ⟨hdangling, hafter⟩ := dangling_of_recording htidy hexec hrecording (not_not.1 hnone)
      obtain ⟨j, -, hj⟩ := hself hdangling (by rw [hafter]; nofun)
      exact ⟨j, hj⟩
  · intro h
    have hother : ∀ {j fileId}, s.Removes j fileId → removing (.call c k) ≠ some fileId →
        ∃ j, Removes ⟨⟨t, Function.update s.pool.calls i (some (q, Prog.resume k x))⟩,
          if (deletion (.call c k) o).isSome then Function.update s.removed i true else s.removed⟩ j
          fileId := by
      intro j fileId hj hne
      refine ⟨j, removes_update.2 (.inr ⟨?_, hj⟩)⟩
      rintro rfl
      exact hne (hremoves hj)
    refine ⟨fun fileId hdangling => ?_, fun j q' y hj hdelete => ?_⟩
    · obtain ⟨hbefore, hcase⟩ | ⟨objectKey, hnone, hdeletion, file, hrow, hverified, hkey⟩ |
        ⟨objectKey, hnone, hrecording, hobject⟩ := dangling_step htidy hexec hdangling
      · obtain ⟨j, hj⟩ := hkept.objects fileId hbefore
        by_cases hremoving : removing (.call c k) = some fileId
        · -- the commit of the deletion fails
          have hfails : o = .databaseFails := hcase.resolve_right (not_not.2 hremoving)
          obtain ⟨j', hother'⟩ := h.committed hfails fileId ⟨q, _, hi, hremoving⟩ hbefore
          exact ⟨j', removes_update.2 (.inr hother')⟩
        · exact hother hj hremoving
      · obtain hown | ⟨j, hj⟩ := h.deleted objectKey _ hdeletion fileId file hrow hverified hkey
        · exact ⟨i, removes_update.2 (.inl ⟨rfl, q, _, rfl, hown⟩)⟩
        · exact hother hj (by rw [hnone]; nofun)
      · obtain hstored | ⟨j, hj⟩ := h.recorded fileId objectKey hrecording
        · exact absurd hobject hstored
        · exact hother hj (by rw [hnone]; nofun)
    · refine removed_step.trans ?_
      simp only [Function.update_apply] at hj
      split_ifs at hj ⊢
      · obtain ⟨rfl, hy⟩ := Prod.mk.inj (Option.some.inj hj)
        by_contra hremoved
        obtain ⟨hreply, hdeletes⟩ := (hphase hdelete).1 ⟨⟨y, hy⟩, Bool.not_eq_false _ ▸ hremoved⟩
        rw [h.replied hdelete hdeletes] at hreply
        cases hreply
      · exact hkept.raised j q' y hj hdelete

/-- **A step keeps the objects of the verified rows exactly if it is in order.** -/
lemma kept_iff_orderly {a : FileAction ι K settings} (hs : OnTheirWay s) (hkept : Kept s)
    (h : step platform collation settings s a = some s') : Kept s' ↔ Orderly s a := by
  cases a with
  | put objectKey object =>
      obtain rfl := Option.some.inj h
      refine iff_of_true ⟨fun fileId hdangling => ?_, hkept.raised⟩ trivial
      obtain ⟨file, hrow, hverified, hnone⟩ := hdangling
      simp only [Function.update_apply] at hnone
      split_ifs at hnone
      exact hkept.objects fileId ⟨file, hrow, hverified, hnone⟩
  | call a =>
      rcases step_call_cases h with ⟨i, q, rfl, hi, rfl⟩ | ⟨i, o, q, c, k, x, t, rfl, hi, hexec, rfl⟩ |
        ⟨i, q, p, rfl, hi, rfl⟩
      · refine iff_of_true ⟨fun fileId hdangling => ?_, fun j q' y hj hdelete => ?_⟩ trivial
        · obtain ⟨j, hj⟩ := hkept.objects fileId hdangling
          refine ⟨j, removes_update.2 (.inr ⟨?_, hj⟩)⟩
          rintro rfl
          obtain ⟨q', p, hcall, -⟩ := hj
          cases hi.symm.trans hcall
        · simp only [Function.update_apply] at hj ⊢
          split_ifs at hj ⊢
          · rfl
          · exact hkept.raised j q' y hj hdelete
      · rw [kept_step_iff hs hkept hi hexec]
        constructor
        · intro horder q' p hi'
          obtain ⟨rfl, rfl⟩ := Prod.mk.inj (Option.some.inj (hi.symm.trans hi'))
          exact horder
        · exact fun horder => horder q _ hi
      · exact kept_die_iff hkept hi

/-- **Verified rows have their objects.**  In all states of a run every verified row has its object, but
for the rows that a call is about to delete, and every deletion that raised an exception has left row
and object alone, exactly if all steps of the run are in order. -/
theorem verified_rows_have_objects_iff (platform : Platform) (collation : Collation)
    (settings : Settings) {w : World K} (hw : ∀ fileId, ¬ Dangling w fileId)
    {as : List (FileAction ι K settings)} {t : FileCalls ι K settings}
    (h : exec (step platform collation settings) (initial settings w) as = some t) :
    (∀ bs u, bs <+: as →
      exec (step platform collation settings) (initial settings w) bs = some u → Kept u) ↔
        Along (step platform collation settings) Orderly (initial settings w) as :=
  forall_states_iff_along (J := OnTheirWay) (fun _ _ _ hs hstep => hs.step hstep)
    (fun _ _ _ hs hkept hstep => kept_iff_orderly hs hkept hstep) (onTheirWay_initial w)
    ⟨fun fileId hdangling => absurd hdangling (hw fileId), nofun⟩ h

end Runs

/-! ### One deletion -/

def ada : User := ⟨1, 1, "ada@example.com", "", true, "user", 0⟩

/-- A world with one verified file and its object. -/
def oneReport : World ℚ :=
  { World.oneUser with
    db := { Database.oneUser with
      uploadedFiles := Table.empty.insert 1 (fun id =>
        ⟨id, 1, 1, "uploads/1/1/7-report.pdf", "report.pdf", "application/pdf", 4, .verified⟩)
        fun _ => rfl }
    objects := Function.update World.oneUser.objects "uploads/1/1/7-report.pdf"
      (some ⟨[0x25, 0x50, 0x44, 0x46], "application/pdf"⟩) }

lemma not_dangling_oneReport (fileId : ℕ) : ¬ Dangling oneReport fileId := by
  rintro ⟨file, hrow, -, hnone⟩
  have hkey : file.objectKey = "uploads/1/1/7-report.pdf" := by
    simp only [oneReport, Table.row_insert] at hrow
    split_ifs at hrow
    · rw [← Option.some.inj hrow]
    · cases hrow
  simp [oneReport, hkey] at hnone

/-- The deletion of the file, whose commands have these outcomes. -/
def deletionWith (outcomes : List (Outcome ℚ)) : List (FileAction Bool ℚ {}) :=
  .call (.start false (.delete 1 ada)) :: outcomes.map fun o => .call (.step false o)

abbrev reportStep : FileCalls Bool ℚ {} → FileAction Bool ℚ {} → Option (FileCalls Bool ℚ {}) :=
  step Platform.plain Collation.plain {}

/-- Nothing fails. -/
def allReplies : List (Outcome ℚ) := List.replicate 3 (.replies (Env.calm 0))

/-- The step sees no failure, verifies no row, and deletes no object but that of its own row. -/
def isInOrder (s : FileCalls Bool ℚ {}) : FileAction Bool ℚ {} → Bool
  | .call (.start _ _) => true
  | .call (.step i o) =>
      o.isReply && (s.pool.calls i).all fun call =>
        (recording s.pool.store.db call.2 o).isNone &&
          (deletion call.2 o).all fun d => s.pool.store.db.uploadedFiles.toList.all fun file =>
            file.objectKey != d.1 || d.2 == some file.id
  | _ => false

lemma orderly_of_isInOrder (s : FileCalls Bool ℚ {}) (a : FileAction Bool ℚ {})
    (h : isInOrder s a = true) : Orderly s a := by
  cases a with
  | put objectKey object => cases h
  | call a =>
      cases a with
      | start i q => trivial
      | die i => cases h
      | step i o =>
          intro q p hi
          simp only [isInOrder, hi, Option.all_some, Bool.and_eq_true, Option.isNone_iff_eq_none,
            Option.all_eq_true, List.all_eq_true, Bool.or_eq_true, bne_iff_ne, beq_iff_eq] at h
          obtain ⟨hreply, hrecording, hdeletion⟩ := h
          refine ⟨fun _ _ => hreply, ?_, fun objectKey own hdeletes fileId file hrow _ hkey => .inl ?_,
            fun fileId objectKey hrecords => ?_⟩
          · rintro rfl
            cases hreply
          · have hid : file.id = fileId := s.pool.store.db.uploadedFiles.id_of_row hrow
            have hmem := Table.mem_toList.2 (Table.row_id hrow)
            rw [← hid]
            exact (hdeletion _ hdeletes file hmem).resolve_left (not_not.2 hkey)
          · cases hrecording.symm.trans hrecords

theorem verified_rows_have_objects_iff_oneDeletion : ∃ s : FileCalls Bool ℚ {},
    exec reportStep (initial {} oneReport) (deletionWith allReplies) = some s ∧ Kept s ∧
      s.pool.store.db.uploadedFiles.row 1 = none := by
  have hrun : ((exec reportStep (initial {} oneReport) (deletionWith allReplies)).any fun s =>
      decide (s.pool.store.db.uploadedFiles.row 1 = none)) = true := by
    decide +kernel
  obtain ⟨s, hs, hrow⟩ := (Option.any_eq_true _ _).1 hrun
  have halong : Along reportStep Orderly (initial {} oneReport) (deletionWith allReplies) :=
    along_of_checkAlong orderly_of_isInOrder (by decide +kernel)
  exact ⟨s, hs, (verified_rows_have_objects_iff Platform.plain Collation.plain {}
    not_dangling_oneReport hs).2 halong _ s (List.prefix_refl _) hs, of_decide_eq_true hrow⟩

/-- The commit of the deletion fails, after the object has been deleted. -/
def commitFails : List (Outcome ℚ) := List.replicate 2 (.replies (Env.calm 0)) ++ [.databaseFails]

/-- A deletion that has raised an exception. -/
def isRaised (call : FileCall {} × AppProg ℚ Unit) : Bool :=
  call.1.isDelete &&
    match call.2 with
    | .raise _ => true
    | _ => false

/-- **A deletion whose commit fails** raises an exception, and leaves a verified row without its object. -/
theorem failed_deletion_leaves_row : ∃ s : FileCalls Bool ℚ {},
    exec reportStep (initial {} oneReport) (deletionWith commitFails) = some s ∧
      Dangling s.pool.store 1 ∧ (∃ call, s.pool.calls false = some call ∧ isRaised call = true) ∧
      ¬ Kept s := by
  have hrun : ((exec reportStep (initial {} oneReport) (deletionWith commitFails)).any fun s =>
      (s.pool.calls false).any isRaised && s.removed false &&
        (s.pool.store.db.uploadedFiles.row 1).any fun file =>
          decide (file.verificationStatus = .verified) && (s.pool.store.objects file.objectKey).isNone) =
        true := by
    decide +kernel
  obtain ⟨s, hs, hcheck⟩ := (Option.any_eq_true _ _).1 hrun
  simp only [Bool.and_eq_true] at hcheck
  obtain ⟨⟨hraised, hremoved⟩, hrow⟩ := hcheck
  obtain ⟨file, hfile, hdangling⟩ := (Option.any_eq_true _ _).1 hrow
  obtain ⟨hverified, hnone⟩ := Bool.and_eq_true_iff.1 hdangling
  obtain ⟨⟨q, p⟩, hcall, hraise⟩ := (Option.any_eq_true _ _).1 hraised
  refine ⟨s, hs, ⟨file, hfile, of_decide_eq_true hverified, Option.isNone_iff_eq_none.1 hnone⟩,
    ⟨_, hcall, hraise⟩, fun hkept => ?_⟩
  obtain ⟨hdelete, hp⟩ := Bool.and_eq_true_iff.1 hraise
  cases p with
  | ret a => cases hp
  | call c k => cases hp
  | raise x =>
      rw [hkept.raised false q x hcall hdelete] at hremoved
      cases hremoved

end FileCalls

end StarterBackend.Files

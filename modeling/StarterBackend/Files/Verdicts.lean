/-
What the worker makes of the outcomes of a verification.

A verification asks the storage for the object twice and the scanner for a verdict, and each
of them can fail.  `object_key` and row should go when the outcomes say something about the
object: it is missing, it is not what was declared, or the scanner has found something.
But every `ClientError` is translated as if the object were missing, and a scanner that
cannot be reached as if it had found something (`only_verdicts_destroy_iff`).
-/
import StarterBackend.Files.Uploads

namespace StarterBackend.Files

open Lib App

/-- The outcomes of the `HEAD`, the `GET` and the request to the scanner. -/
structure VerificationOutcomes where
  head : Except StorageError (ℕ × String)
  body : Except StorageError (List UInt8)
  scan : Exchange

/-- What the outcomes say about the object. -/
inductive Finding where
  | accepted
  | rejected
  | unknown
deriving DecidableEq

namespace VerificationOutcomes

variable {K : Type} [Field K] [LinearOrder K] [FloorRing K] (platform : Platform)
  (collation : Collation) (settings : Settings) (file : UploadedFile) (o : VerificationOutcomes)

/-- The interpretation in which a verification meets these outcomes. -/
def interp : Prog.Interp (Command K) Command.Reply AppError (World K) (Env K) := fun c e w =>
  match c with
  | .headObject _ => some (.ok o.head, w)
  | .getObject _ => some (.ok o.body, w)
  | .scan _ _ => some (.ok o.scan, w)
  | c => App.interp platform collation c e w

/-- What the scanner says about a body: only an answer with the status 200 is a verdict. -/
def scanFinding : Finding :=
  match getMalwareScanner settings.uploadMalwareScanEnabled settings.uploadMalwareScannerUrl with
  | .disabled => .accepted
  | .infectedFilename => if (infectedFilenameScan file.filename).clean then .accepted else .rejected
  | .http =>
      if isHeaderValue file.filename then
        match o.scan with
        | .answered status answer =>
            if status = 200 then
              match platform.answerText answer with
              | .value (.obj fields) =>
                  if isTrue (Json.lookup "clean" fields) then .accepted else .rejected
              | _ => .unknown
            else .unknown
        | _ => .unknown
      else .unknown

/-- What the bytes say, and what the scanner says about them. -/
def bodyFinding (size : ℕ) : Finding :=
  match o.body with
  | .error .notFound => .rejected
  | .error _ => .unknown
  | .ok body =>
      if body.length ≠ size then .rejected
      else
        match validateContentSniff file.contentType body with
        | .error _ => .rejected
        | .ok _ => o.scanFinding platform settings file

/-- **What the outcomes say about the object of a file.** -/
def finding : Finding :=
  match o.head with
  | .error .notFound => .rejected
  | .error _ => .unknown
  | .ok (size, contentType) =>
      match assertStoredMetadataMatches ⟨size, storedContentType contentType⟩ file.contentType
          file.sizeBytes with
      | .error _ => .rejected
      | .ok _ => o.bodyFinding platform settings file size

/-- The scanner has returned a verdict, or the exception is one that `HttpMalwareScanner` does not
catch. -/
def ScannerConclusive (platform : Platform) : Exchange → Prop
  | .unreachable => False
  | .broken => True
  | .answered status answer =>
      if status = 200 then platform.answerText answer ≠ .invalid
      else 200 ≤ status ∧ status < 300 ∧ platform.answerText answer = .fails

/-- **No failure is taken for a verdict**: no call of the storage fails with a `ClientError` other
than that the object is missing, and the scanner, if it is asked, returns a verdict, or raises what
`HttpMalwareScanner` does not catch. -/
def Conclusive : Prop :=
  o.head ≠ .error .clientError ∧
    ∀ size contentType, o.head = .ok (size, contentType) →
      assertStoredMetadataMatches ⟨size, storedContentType contentType⟩ file.contentType
          file.sizeBytes = .ok () →
        o.body ≠ .error .clientError ∧
          ∀ body, o.body = .ok body → body.length = size →
            validateContentSniff file.contentType body = .ok () →
              getMalwareScanner settings.uploadMalwareScanEnabled
                  settings.uploadMalwareScannerUrl = .http →
                isHeaderValue file.filename = true → ScannerConclusive platform o.scan

/-- **Only a verdict destroys the upload**: row and object stay unless the outcomes reject the
object, and if they say nothing about it, the file is still pending and an exception leaves the
worker. -/
def OnlyVerdictsDestroy (e : Env K) (w : World K) : Prop :=
  ∃ x w', (verifyPresignedUploadInWorker platform settings file.id).run
      (o.interp platform collation) e w = some (x, w') ∧
    (w'.db.uploadedFiles.row file.id = none ∨ w'.objects ≠ w.objects →
      o.finding platform settings file = .rejected) ∧
    (o.finding platform settings file = .unknown →
      w'.db = w.db ∧ w'.objects = w.objects ∧ ∃ error, x = .error error)

/-- Where a finding leads: the worker goes by the exception, and is mistaken if it is one of the
application without a reason. -/
inductive Leads (conclusive : Prop) : Finding → Except AppError Unit → Prop
  | accepted : conclusive → Leads conclusive .accepted (.ok ())
  | rejected (status : ℕ) (message : String) : conclusive →
      Leads conclusive .rejected (.error (.http status message))
  | raised : conclusive → Leads conclusive .unknown (.error .unhandled)
  | mistaken (status : ℕ) (message : String) : ¬ conclusive →
      Leads conclusive .unknown (.error (.http status message))

variable {platform collation settings file o} {e : Env K} {w : World K}

omit [Field K] [LinearOrder K] [FloorRing K] in
lemma Leads.congr {C C' : Prop} {finding : Finding} {x : Except AppError Unit} (h : Leads C finding x)
    (hC : C ↔ C') : Leads C' finding x := by
  cases h with
  | accepted hc => exact .accepted (hC.1 hc)
  | rejected status message hc => exact .rejected status message (hC.1 hc)
  | raised hc => exact .raised (hC.1 hc)
  | mistaken status message hc => exact .mistaken status message fun hc' => hc (hC.2 hc')

/-- **What an exchange with the scanner leads to.** -/
lemma leads_exchange (exchange : Exchange) :
    Leads (ScannerConclusive platform exchange)
      (match exchange with
        | .answered status answer =>
            if status = 200 then
              match platform.answerText answer with
              | .value (.obj fields) =>
                  if isTrue (Json.lookup "clean" fields) then .accepted else .rejected
              | _ => .unknown
            else .unknown
        | _ => .unknown)
      ((readExchange platform.answerText exchange).bind ensureMalwareScanIsClean) := by
  cases exchange with
  | unreachable => exact .mistaken _ _ id
  | broken => exact .raised trivial
  | answered status answer =>
      dsimp only [readExchange, ScannerConclusive]
      by_cases h200 : status = 200
      · rw [if_pos h200, if_pos h200, if_neg (by omega)]
        cases hanswer : platform.answerText answer with
        | invalid => exact .mistaken _ _ fun h => h rfl
        | fails => exact .raised (by simp)
        | value payload =>
            dsimp only
            rw [if_neg (not_not_intro h200)]
            cases payload with
            | obj fields =>
                dsimp only [verdict]
                split_ifs
                · exact .accepted nofun
                · exact .rejected _ _ nofun
            | _ => exact .raised nofun
      · rw [if_neg h200, if_neg h200]
        by_cases hstatus : status < 200 ∨ 300 ≤ status
        · rw [if_pos hstatus]
          exact .mistaken _ _ fun h => by omega
        · rw [if_neg hstatus]
          cases hanswer : platform.answerText answer with
          | invalid => exact .mistaken _ _ fun h => by cases h.2.2
          | fails => exact .raised ⟨by omega, by omega, rfl⟩
          | value payload =>
              dsimp only
              rw [if_pos h200]
              exact .mistaken _ _ fun h => by cases h.2.2

variable (platform collation settings file o e w) in
/-- **What the scan leads to.** -/
lemma leads_scan (body : List UInt8) :
    ∃ x, ((runMalwareScan platform settings body file.filename).bind fun result =>
        .ofExcept (ensureMalwareScanIsClean result)).run (o.interp platform collation) e w =
          some (x, w) ∧
      Leads (getMalwareScanner settings.uploadMalwareScanEnabled settings.uploadMalwareScannerUrl =
          .http → isHeaderValue file.filename = true → ScannerConclusive platform o.scan)
        (o.scanFinding platform settings file) x := by
  unfold runMalwareScan scanFinding
  cases getMalwareScanner settings.uploadMalwareScanEnabled settings.uploadMalwareScannerUrl with
  | disabled => exact ⟨_, rfl, .accepted nofun⟩
  | infectedFilename =>
      refine ⟨_, Prog.run_ofExcept _, ?_⟩
      cases hclean : (infectedFilenameScan file.filename).clean with
      | true =>
          rw [ensureMalwareScanIsClean, hclean]
          exact .accepted nofun
      | false =>
          rw [ensureMalwareScanIsClean, hclean]
          exact .rejected _ _ nofun
  | http =>
      by_cases hheader : isHeaderValue file.filename = true
      · refine ⟨(readExchange platform.answerText o.scan).bind ensureMalwareScanIsClean, ?_, ?_⟩
        · rw [if_pos hheader]
          show ((Prog.ofExcept (readExchange platform.answerText o.scan)).bind _).run _ _ _ = _
          cases readExchange platform.answerText o.scan with
          | error x => rfl
          | ok result => exact Prog.run_ofExcept _
        · rw [if_pos hheader]
          exact (leads_exchange o.scan).congr (by simp [hheader])
      · rw [if_neg hheader, if_neg hheader]
        exact ⟨_, rfl, .raised fun _ h => absurd h hheader⟩

/-- The reply of a `GET`. -/
lemma run_getObject {α : Type} {reply : Except StorageError (List UInt8)} (h : o.body = reply)
    {key : String} {k : Except StorageError (List UInt8) → AppProg K α} :
    ((issue (.getObject key)).bind k).run (o.interp platform collation) e w =
      (k reply).run (o.interp platform collation) e w := by
  subst h
  rfl

/-- The reply of a `HEAD`. -/
lemma run_headObject {α : Type} {reply : Except StorageError (ℕ × String)} (h : o.head = reply)
    {key : String} {k : Except StorageError (ℕ × String) → AppProg K α} :
    ((issue (.headObject key)).bind k).run (o.interp platform collation) e w =
      (k reply).run (o.interp platform collation) e w := by
  subst h
  rfl

variable (platform collation settings file o e w) in
/-- What the bytes of the object lead to. -/
lemma leads_body (size : ℕ) :
    ∃ x, ((downloadObjectBody file.objectKey size).bind fun body =>
        if body.length ≠ size then
          .raise (.badRequest "Uploaded object size could not be verified")
        else do
          .ofExcept (validateContentSniff file.contentType body)
          .ofExcept (ensureMalwareScanIsClean (← runMalwareScan platform settings body
            file.filename))).run (o.interp platform collation) e w = some (x, w) ∧
      Leads (o.body ≠ .error .clientError ∧
          ∀ body, o.body = .ok body → body.length = size →
            validateContentSniff file.contentType body = .ok () →
              getMalwareScanner settings.uploadMalwareScanEnabled
                  settings.uploadMalwareScannerUrl = .http →
                isHeaderValue file.filename = true → ScannerConclusive platform o.scan)
        (o.bodyFinding platform settings file size) x := by
  unfold downloadObjectBody bodyFinding
  rw [Prog.bind_def, Prog.bind_assoc]
  rcases hbody : o.body with error | body
  · cases error with
    | notFound => exact ⟨_, run_getObject hbody, .rejected _ _ ⟨by simp, fun _ h => by cases h⟩⟩
    | clientError => exact ⟨_, run_getObject hbody, .mistaken _ _ fun h => h.1 rfl⟩
    | botoCoreError => exact ⟨_, run_getObject hbody, .raised ⟨by simp, fun _ h => by cases h⟩⟩
  · rw [run_getObject hbody]
    -- one byte more than the `HEAD` has announced is read
    have htaken : size < (body.take (size + 1)).length ↔ size < body.length := by
      rw [List.length_take]
      omega
    dsimp only
    by_cases hlong : size < body.length
    · rw [if_pos (htaken.2 hlong), if_pos hlong.ne']
      refine ⟨_, rfl, .rejected _ _ ⟨by simp, fun body' heq hlength => ?_⟩⟩
      obtain rfl := Except.ok.inj heq
      omega
    · rw [if_neg (fun h => hlong (htaken.1 h)), List.take_of_length_le (by omega), Prog.pure_def,
        Prog.ret_bind]
      by_cases hlength : body.length = size
      · rw [if_neg (not_not_intro hlength), if_neg (not_not_intro hlength)]
        cases hsniff : validateContentSniff file.contentType body with
        | error error =>
            obtain ⟨status, message, rfl⟩ : ∃ status message, error = .http status message := by
              unfold validateContentSniff at hsniff
              split_ifs at hsniff
              exact ⟨_, _, (Except.error.inj hsniff).symm⟩
            refine ⟨_, rfl, .rejected _ _ ⟨by simp, fun body' heq _ hsniff' => ?_⟩⟩
            obtain rfl := Except.ok.inj heq
            cases hsniff.symm.trans hsniff'
        | ok u =>
            obtain ⟨x, hrun, hleads⟩ := o.leads_scan platform collation settings file e w body
            refine ⟨x, hrun, hleads.congr ⟨fun h => ⟨by simp, fun _ _ _ _ => h⟩, fun h => ?_⟩⟩
            exact h.2 body rfl hlength hsniff
      · rw [if_pos hlength, if_pos hlength]
        refine ⟨_, rfl, .rejected _ _ ⟨by simp, fun body' heq hlength' => ?_⟩⟩
        obtain rfl := Except.ok.inj heq
        exact absurd hlength' hlength

variable (platform collation settings file o e w) in
/-- **What a verification leads to.** -/
lemma leads_content :
    ∃ x, (verifyStoredObjectContent platform settings file.objectKey file.contentType file.sizeBytes
        file.filename).run (o.interp platform collation) e w = some (x, w) ∧
      Leads (o.Conclusive platform settings file) (o.finding platform settings file) x := by
  unfold verifyStoredObjectContent verifyStoredObjectMetadata getObjectMetadata finding Conclusive
  simp only [Prog.bind_def, Prog.bind_assoc]
  rcases hhead : o.head with error | ⟨size, contentType⟩
  · cases error with
    | notFound => exact ⟨_, run_headObject hhead, .rejected _ _ ⟨by simp, fun _ _ h => by cases h⟩⟩
    | clientError => exact ⟨_, run_headObject hhead, .mistaken _ _ fun h => h.1 rfl⟩
    | botoCoreError => exact ⟨_, run_headObject hhead, .raised ⟨by simp, fun _ _ h => by cases h⟩⟩
  · rw [run_headObject hhead]
    dsimp only
    rw [Prog.pure_def, Prog.ret_bind]
    cases hmatches : assertStoredMetadataMatches ⟨size, storedContentType contentType⟩
        file.contentType file.sizeBytes with
    | error error =>
        obtain ⟨status, message, rfl⟩ : ∃ status message, error = .http status message := by
          unfold assertStoredMetadataMatches at hmatches
          split_ifs at hmatches <;> exact ⟨_, _, (Except.error.inj hmatches).symm⟩
        refine ⟨_, rfl, .rejected _ _ ⟨by simp, fun size' contentType' heq hmatches' => ?_⟩⟩
        obtain ⟨rfl, rfl⟩ := Prod.mk.inj (Except.ok.inj heq)
        cases hmatches.symm.trans hmatches'
    | ok u =>
        obtain ⟨x, hrun, hleads⟩ := o.leads_body platform collation settings file e w size
        refine ⟨x, hrun, hleads.congr ⟨fun h => ⟨by simp, fun size' contentType' heq _ => ?_⟩,
          fun h => h.2 size contentType rfl hmatches⟩⟩
        obtain ⟨rfl, rfl⟩ := Prod.mk.inj (Except.ok.inj heq)
        exact h

/-- No command raises an exception of its own. -/
lemma interp_ok (c : Command K) (s : World K) (x : Except AppError c.Reply) (t : World K)
    (h : o.interp platform collation c e s = some (x, t)) : ∃ r, x = .ok r := by
  cases c with
  | headObject key => exact ⟨_, (Prod.mk.inj (Option.some.inj h)).1.symm⟩
  | getObject key => exact ⟨_, (Prod.mk.inj (Option.some.inj h)).1.symm⟩
  | scan body filename => exact ⟨_, (Prod.mk.inj (Option.some.inj h)).1.symm⟩
  | _ => exact App.interp_ok _ e s x t h

variable (platform collation settings file o e w) in
/-- The worker comes to a verification of a pending file, and concludes it. -/
lemma run_worker (hclock : w.clock ≤ e.now) (hrow : w.db.uploadedFiles.row file.id = some file)
    (hpending : file.verificationStatus = .pending) :
    ∃ x, Leads (o.Conclusive platform settings file) (o.finding platform settings file) x ∧
      (verifyPresignedUploadInWorker platform settings file.id).run (o.interp platform collation) e w =
        (concludeVerification file x).run (App.interp platform collation) e
          { w with clock := e.now } := by
  let w₁ : World K := { w with clock := e.now }
  obtain ⟨x, hrun, hleads⟩ := o.leads_content platform collation settings file e w₁
  refine ⟨x, hleads, ?_⟩
  have hquery : (issue (.query (.file file.id))).run (o.interp platform collation) e w =
      some (.ok (some file), w₁) := by
    have hsame : (issue (.query (.file file.id))).run (o.interp platform collation) e w =
        (issue (.query (.file file.id))).run (App.interp platform collation) e w :=
      Prog.run_congr ⟨fun _ => rfl, fun _ => trivial⟩
    rw [hsame, run_issue _ hclock]
    simp [Command.exec, Query.eval, hrow, w₁]
  rw [verifyPresignedUploadInWorker, query, Prog.bind_def, Prog.run_bind hquery]
  dsimp only
  rw [if_neg (not_not_intro hpending), Prog.bind_def,
    Prog.run_bind (Prog.run_attempt (fun c s y t h => o.interp_ok c s y t h) hrun)]
  -- what is left neither reads the object nor asks the scanner
  refine Prog.run_congr ?_
  rcases x with (⟨status, message⟩ | _) | u
  · exact ⟨fun _ => rfl, fun _ => ⟨fun _ => rfl, fun id => by cases id <;> trivial⟩⟩
  · trivial
  · exact ⟨fun _ => rfl, fun id => by cases id <;> trivial⟩

/-- An exception of the application deletes the row. -/
lemma run_conclude_http (hclock : w.clock ≤ e.now) (status : ℕ) (message : String) :
    ∃ w', (concludeVerification file (.error (.http status message))).run
        (App.interp platform collation) e w = some (.ok (), w') ∧
      w'.db.uploadedFiles.row file.id = none := by
  let w₁ : World K :=
    { ((Command.deleteObject file.objectKey).exec platform collation e w).2 with clock := e.now }
  obtain ⟨db, hexec⟩ : ∃ db, (Statement.deleteFile file.id).exec e.gap e.databaseNow w₁.db =
      some (none, db) := ⟨_, rfl⟩
  refine ⟨{ w₁ with db }, ?_, row_of_exec_deleteFile _ _ hexec⟩
  rw [← transaction_singleton] at hexec
  have hnow : w₁.clock ≤ e.now := le_rfl
  rw [concludeVerification, Prog.bind_def, Prog.run_bind (run_issue _ hclock), Prog.bind_def,
    Prog.run_bind (run_commit hnow hexec)]
  rfl

end VerificationOutcomes

/-! ### A pending file -/

/-- A file of the only user, not verified yet. -/
def pendingFile : UploadedFile :=
  ⟨1, 1, 1, "tenants/1/users/1/a.png", "a.png", "image/png", 4, .pending⟩

/-- The world of the only user, with the file. -/
def worldWithPending : World ℚ :=
  { World.oneUser with
    db := { Database.oneUser with
      uploadedFiles := Table.empty.insert 1 (fun id => { pendingFile with id }) fun _ => rfl } }

end StarterBackend.Files

/-
The jobs of the background queue, and their text in Redis.

`Job.toJson` and `Job.fromJson` are the two directions of the serialisation.  The
queue removes entries by comparing texts, so the facts that the rest of the
development rests on are that a job is read back as it was written
(`Job.fromJson_toJson`) and that two jobs with one text are the same job
(`Job.toJson_injective`).
-/
import StarterBackend.Lib.Json
import StarterBackend.Lib.IsoTime

namespace StarterBackend.Queue

open Lib

/-- The payload of a job: a dictionary that JSON can represent. -/
structure Payload where
  fields : List (String × Json)
  wf : (Json.obj fields).wf = true

@[ext]
lemma Payload.ext {p q : Payload} (h : p.fields = q.fields) : p = q := by
  cases p
  cases q
  simpa using h

/-- `Job` of `job_queue.py`. -/
structure Job where
  id : String
  type : String
  payload : Payload
  attempts : ℤ := 0
  requestId : Option String := none
  lastError : Option String := none
  failedAt : Option String := none
  processingStartedAt : Option String := none

/-- `MAX_JOB_ERROR_LENGTH`. -/
def maxJobErrorLength : ℕ := 500

namespace Job

/-! ### The text of a job -/

/-- A field that is written only when it has a value. -/
def optionalField (key : String) : Option String → List (String × Json)
  | none => []
  | some value => [(key, .str value)]

/-- The dictionary that `to_json` builds. -/
def data (job : Job) : List (String × Json) :=
  [("id", .str job.id), ("type", .str job.type), ("payload", .obj job.payload.fields),
    ("attempts", .num job.attempts)] ++
    optionalField "request_id" job.requestId ++
    optionalField "last_error" job.lastError ++
    optionalField "failed_at" job.failedAt ++
    optionalField "processing_started_at" job.processingStartedAt

/-- `Job.to_json`. -/
def toJson (job : Job) : String := (Json.obj job.data).dumps

/-- `data.get(key)` where the value is a string or absent. -/
def getString? (data : List (String × Json)) (key : String) : Option (Option String) :=
  match Json.lookup key data with
  | none | some .null => some none
  | some (.str value) => some (some value)
  | some _ => none

/-- The value of a key that must be there, as `read` takes it. -/
def getField {α : Type} (data : List (String × Json)) (key : String) (read : Json → Option α) :
    Option α :=
  (Json.lookup key data).bind read

/-- A text field. -/
def readText : Json → Option String
  | .str value => some value
  | _ => none

/-- A payload. -/
def readPayload : Json → Option Payload
  | .obj fields => if h : (Json.obj fields).wf = true then some ⟨fields, h⟩ else none
  | _ => none

/-- `data.get("attempts", 0)`. -/
def getAttempts (data : List (String × Json)) : Option ℤ :=
  match Json.lookup "attempts" data with
  | none => some 0
  | some (.num attempts) => some attempts
  | some _ => none

/-- The job of a dictionary.  A field of another type than the one that `to_json` writes is
refused. -/
def ofData (data : List (String × Json)) : Option Job := do
  let id ← getField data "id" readText
  let type ← getField data "type" readText
  let payload ← getField data "payload" readPayload
  let attempts ← getAttempts data
  let requestId ← getString? data "request_id"
  let lastError ← getString? data "last_error"
  let failedAt ← getString? data "failed_at"
  let processingStartedAt ← getString? data "processing_started_at"
  some { id, type, payload, attempts, requestId, lastError, failedAt, processingStartedAt }

/-- `Job.from_json`; `none` is an exception. -/
def fromJson (raw : String) : Option Job :=
  match Json.loads raw with
  | some (.obj data) => ofData data
  | _ => none

lemma data_wf (job : Job) : (Json.obj job.data).wf = true := by
  obtain ⟨id, type, payload, attempts, requestId, lastError, failedAt, startedAt⟩ := job
  have hpayload := payload.wf
  rcases requestId with _ | requestId <;> rcases lastError with _ | lastError <;>
    rcases failedAt with _ | failedAt <;> rcases startedAt with _ | startedAt <;>
    simp [data, optionalField, Json.wf, Json.wfFields] at hpayload ⊢ <;> exact hpayload

lemma ofData_data (job : Job) : ofData job.data = some job := by
  obtain ⟨id, type, payload, attempts, requestId, lastError, failedAt, startedAt⟩ := job
  have hpayload : readPayload (.obj payload.fields) = some payload := by
    simp [readPayload, payload.wf]
  rcases requestId with _ | requestId <;> rcases lastError with _ | lastError <;>
    rcases failedAt with _ | failedAt <;> rcases startedAt with _ | startedAt <;>
    simp [data, ofData, optionalField, getField, getString?, getAttempts, Json.lookup, readText,
      hpayload]

/-- **A job is read back as it was written.** -/
@[simp]
theorem fromJson_toJson (job : Job) : fromJson job.toJson = some job := by
  rw [fromJson, toJson, Json.loads_dumps job.data_wf]
  exact ofData_data job

/-- Jobs with one text are the same job. -/
theorem toJson_injective {j k : Job} (h : j.toJson = k.toJson) : j = k := by
  have hj := fromJson_toJson j
  rw [h, fromJson_toJson] at hj
  exact (Option.some.inj hj).symm

/-- An optional text field of a dictionary: absent, null, or a text. -/
def OptionalText (data : List (String × Json)) (key : String) (value : Option String) : Prop :=
  Json.lookup key data = value.map .str ∨ value = none ∧ Json.lookup key data = some .null

lemma getString?_eq {data : List (String × Json)} {key : String} {value : Option String}
    (h : OptionalText data key value) : getString? data key = some value := by
  rw [getString?]
  rcases h with h | ⟨rfl, h⟩
  · rw [h]
    cases value <;> rfl
  · rw [h]

lemma getAttempts_eq {data : List (String × Json)} {attempts : Option ℤ}
    (h : Json.lookup "attempts" data = attempts.map .num) :
    getAttempts data = some (attempts.getD 0) := by
  rw [getAttempts, h]
  cases attempts <;> rfl

/-- **A dictionary with the required fields is read as a job**, with the defaults for the other
fields. -/
lemma fromJson_eq {raw id type : String} {data fields : List (String × Json)} {attempts : Option ℤ}
    {requestId lastError failedAt startedAt : Option String}
    (hraw : Json.loads raw = some (.obj data)) (hid : Json.lookup "id" data = some (.str id))
    (htype : Json.lookup "type" data = some (.str type))
    (hpayload : Json.lookup "payload" data = some (.obj fields))
    (hattempts : Json.lookup "attempts" data = attempts.map .num)
    (hrequest : OptionalText data "request_id" requestId)
    (herror : OptionalText data "last_error" lastError)
    (hfailed : OptionalText data "failed_at" failedAt)
    (hstarted : OptionalText data "processing_started_at" startedAt) :
    ∃ payload, payload.fields = fields ∧ fromJson raw = some
      { id, type, payload, attempts := attempts.getD 0, requestId, lastError, failedAt,
        processingStartedAt := startedAt } := by
  have hwf : (Json.obj fields).wf = true :=
    Json.wf_of_lookup (Bool.and_eq_true_iff.1 (Json.wf_loads hraw)).2 hpayload
  refine ⟨⟨fields, hwf⟩, rfl, ?_⟩
  have hread : readPayload (.obj fields) = some ⟨fields, hwf⟩ := dif_pos hwf
  rw [fromJson, hraw]
  simp [ofData, getField, hid, htype, hpayload, readText, hread, getAttempts_eq hattempts,
    getString?_eq hrequest, getString?_eq herror, getString?_eq hfailed, getString?_eq hstarted]

/-- Serialisation goes back and forth: a job is read back from its text, the text of a job is written
again from what is read, jobs with one text are the same, and a text that leaves optional fields
out is read with their defaults. -/
theorem serialisation_round_trips :
    (∀ job : Job, fromJson job.toJson = some job) ∧
    (∀ raw, (∃ job : Job, job.toJson = raw) → (fromJson raw).map toJson = some raw) ∧
    (∀ j k : Job, j.toJson = k.toJson → j = k) ∧
    ∀ (raw id type : String) (data fields : List (String × Json)) (attempts : Option ℤ)
      (requestId lastError failedAt startedAt : Option String),
      Json.loads raw = some (.obj data) → Json.lookup "id" data = some (.str id) →
      Json.lookup "type" data = some (.str type) →
      Json.lookup "payload" data = some (.obj fields) →
      Json.lookup "attempts" data = attempts.map .num →
      OptionalText data "request_id" requestId → OptionalText data "last_error" lastError →
      OptionalText data "failed_at" failedAt →
      OptionalText data "processing_started_at" startedAt →
      ∃ payload, payload.fields = fields ∧ fromJson raw = some
        { id, type, payload, attempts := attempts.getD 0, requestId, lastError, failedAt,
          processingStartedAt := startedAt } := by
  refine ⟨fromJson_toJson, ?_, fun j k => toJson_injective, ?_⟩
  · rintro raw ⟨job, rfl⟩
    rw [fromJson_toJson, Option.map_some]
  · intro raw id type data fields attempts requestId lastError failedAt startedAt hraw hid htype
      hpayload hattempts hrequest herror hfailed hstarted
    exact fromJson_eq hraw hid htype hpayload hattempts hrequest herror hfailed hstarted

/-- A text without the optional fields. -/
theorem serialisation_round_trips_defaults : ∃ payload : Payload, payload.fields = [] ∧
    fromJson (Json.obj [("type", .str "noop"), ("payload", .obj []), ("id", .str "1")]).dumps =
      some { id := "1", type := "noop", payload } :=
  serialisation_round_trips.2.2.2 _ "1" "noop"
    [("type", .str "noop"), ("payload", .obj []), ("id", .str "1")] [] none none none none none
    (Json.loads_dumps (by decide)) rfl rfl rfl rfl (.inl rfl) (.inl rfl) (.inl rfl) (.inl rfl)

-- The two directions are used through the facts above only.
attribute [irreducible] toJson fromJson

/-! ### The copies that the operations make of a job -/

/-- `Job.with_processing_started_at`, at the given reading of the clock. -/
def withProcessingStartedAt (job : Job) (startedAt : Option String) (now : Datetime) : Job :=
  { job with
    processingStartedAt :=
      match startedAt with
      | none | some "" => now.isoformat
      | some timestamp => timestamp }

/-- `Job.without_processing_started_at`. -/
def withoutProcessingStartedAt (job : Job) : Job := { job with processingStartedAt := none }

/-- `Job.with_next_attempt`. -/
def withNextAttempt (job : Job) : Job :=
  { job with attempts := job.attempts + 1, processingStartedAt := none }

/-- `Job.with_error`. -/
def withError (job : Job) (message : String) : Job :=
  { job with lastError := some (String.ofList (message.toList.take maxJobErrorLength)) }

/-- `Job.with_failed_at`, at the given reading of the clock. -/
def withFailedAt (job : Job) (failedAt : Option String) (now : Datetime) : Job :=
  { job with
    failedAt :=
      match failedAt with
      | none | some "" => now.isoformat
      | some timestamp => timestamp }

/-! ### What every entry of a job keeps -/

end Job

/-- What `enqueue_job` submits: the part of a job that no operation changes. -/
@[ext]
structure Submission where
  id : String
  type : String
  payload : Payload
  requestId : Option String

namespace Job

variable {job : Job}

def submission (job : Job) : Submission := ⟨job.id, job.type, job.payload, job.requestId⟩

/-- The start of processing, if there is one, is the text of a clock reading. -/
def Stamped (job : Job) : Prop :=
  ∀ s, job.processingStartedAt = some s → ∃ t : Datetime, s = t.isoformat

@[simp] lemma submission_withProcessingStartedAt {startedAt : Option String} {now : Datetime} :
    (job.withProcessingStartedAt startedAt now).submission = job.submission := rfl

@[simp] lemma submission_withoutProcessingStartedAt :
    job.withoutProcessingStartedAt.submission = job.submission := rfl

@[simp] lemma submission_withNextAttempt : job.withNextAttempt.submission = job.submission := rfl

@[simp] lemma submission_withError {message : String} :
    (job.withError message).submission = job.submission := rfl

@[simp] lemma submission_withFailedAt {failedAt : Option String} {now : Datetime} :
    (job.withFailedAt failedAt now).submission = job.submission := rfl

lemma stamped_withProcessingStartedAt {now : Datetime} :
    (job.withProcessingStartedAt none now).Stamped := fun s hs =>
  ⟨now, by simpa [withProcessingStartedAt] using hs.symm⟩

lemma stamped_of_none (h : job.processingStartedAt = none) : job.Stamped := fun s hs => by
  simp [h] at hs

lemma Stamped.withError {message : String} (h : job.Stamped) : (job.withError message).Stamped := h

lemma Stamped.withFailedAt {failedAt : Option String} {now : Datetime} (h : job.Stamped) :
    (job.withFailedAt failedAt now).Stamped := h

end Job

/-- The submission of an entry, `none` when the text is not that of a job. -/
def submissionOf (raw : String) : Option Submission := (Job.fromJson raw).map Job.submission

@[simp] lemma submissionOf_toJson (job : Job) :
    submissionOf job.toJson = some job.submission := by
  simp [submissionOf]

/-! ### Settings of the worker -/

/-- The settings that the queue reads, with the bounds that `Settings` validates. -/
structure WorkerSettings where
  maxRetries : ℕ := 3
  retryBackoffBaseSeconds : ℕ := 5
  retryBackoffMaxSeconds : ℕ := 300
  processingVisibilityTimeoutSeconds : ℕ := 300
  base_pos : 0 < retryBackoffBaseSeconds := by decide
  base_le_max : retryBackoffBaseSeconds ≤ retryBackoffMaxSeconds := by decide
  timeout_pos : 0 < processingVisibilityTimeoutSeconds := by decide

/-- `calculate_retry_delay_seconds`. -/
def calculateRetryDelaySeconds (settings : WorkerSettings) (attempts : ℤ) : ℕ :=
  if attempts ≤ 0 then settings.retryBackoffBaseSeconds
  else min (settings.retryBackoffBaseSeconds * 2 ^ (attempts - 1).toNat)
    settings.retryBackoffMaxSeconds

/-- A retry waits for at least the base and at most the maximal delay. -/
lemma calculateRetryDelaySeconds_mem (settings : WorkerSettings) (attempts : ℤ) :
    settings.retryBackoffBaseSeconds ≤ calculateRetryDelaySeconds settings attempts ∧
      calculateRetryDelaySeconds settings attempts ≤ settings.retryBackoffMaxSeconds := by
  rw [calculateRetryDelaySeconds]
  split
  · exact ⟨le_rfl, settings.base_le_max⟩
  · exact ⟨le_min (Nat.le_mul_of_pos_right _ (by positivity)) settings.base_le_max,
      min_le_right _ _⟩

end StarterBackend.Queue

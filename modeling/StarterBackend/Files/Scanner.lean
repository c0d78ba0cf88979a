/-
The malware scanners: `malware_scanner.py`.

The HTTP scanner sends the filename in a header and reads a JSON document back.  It turns
what it expects to go wrong into a verdict that is not clean; any other exception escapes it.
-/
import StarterBackend.Files.Validation

namespace StarterBackend.Files

open Lib App

/-- `MalwareScanResult`. -/
structure MalwareScanResult where
  clean : Bool
  detail : String
deriving DecidableEq

/-- `ensure_malware_scan_is_clean`. -/
def ensureMalwareScanIsClean (scanResult : MalwareScanResult) : Except AppError Unit :=
  if scanResult.clean then .ok () else .error (.badRequest "File failed malware scanning")

/-! ### Scanners without a service -/

/-- `DisabledMalwareScanner.scan`. -/
def disabledScan : MalwareScanResult := ⟨true, "malware_scan_disabled"⟩

/-- `InfectedFilenameMalwareScanner.scan`. -/
def infectedFilenameScan (filename : String) : MalwareScanResult :=
  if ".infected.".toList <:+: (lower filename).toList then ⟨false, "infected_filename_detected"⟩
  else ⟨true, "malware_scan_passed"⟩

/-! ### The HTTP scanner -/

/-- The values that the HTTP client sends in a header: Latin-1, without line breaks.  Others are a
`ValueError`. -/
def isHeaderValue (value : String) : Bool :=
  value.toList.all fun c => c.toNat < 256 && c != '\n' && c != '\r'

def scannerUnavailable : MalwareScanResult := ⟨false, "malware_scanner_unavailable"⟩

/-- `value is True`. -/
def isTrue : Option Json → Bool
  | some (.bool true) => true
  | _ => false

/-- The verdict of an answer with the status 200; only an object has a method `get`. -/
def verdict : Json → Except AppError MalwareScanResult
  | .obj fields =>
      if isTrue (Json.lookup "clean" fields) then .ok ⟨true, "malware_scan_passed"⟩
      else .ok ⟨false, "malware_detected"⟩
  | _ => .error .unhandled

/-- `HttpMalwareScanner.scan`, after the request.  `urlopen` raises an `HTTPError` unless the status
is one of success. -/
def readExchange (loads : List UInt8 → AnswerText) : Exchange → Except AppError MalwareScanResult
  | .unreachable => .ok scannerUnavailable
  | .broken => .error .unhandled
  | .answered status body =>
      if status < 200 ∨ 300 ≤ status then .ok scannerUnavailable
      else
        match loads body with
        | .invalid => .ok scannerUnavailable
        | .fails => .error .unhandled
        | .value payload =>
            if status ≠ 200 then .ok ⟨false, "malware_scanner_status_" ++ status.repr⟩
            else verdict payload

/-- `HttpMalwareScanner.scan`, for a service of any behaviour. -/
def httpScan (loads : List UInt8 → AnswerText) (service : List UInt8 → String → Exchange)
    (body : List UInt8) (filename : String) : Except AppError MalwareScanResult :=
  if isHeaderValue filename then readExchange loads (service body filename)
  else .error .unhandled

/-- `get_malware_scanner`. -/
inductive MalwareScanner where
  | disabled
  | infectedFilename
  | http
deriving DecidableEq

def getMalwareScanner (enabled : Bool) (scannerUrl : String) : MalwareScanner :=
  if !enabled then .disabled
  else if PyText.strip scannerUrl ≠ "" then .http
  else .infectedFilename

/-! ### When it returns -/

/-- The service says that the file is clean. -/
def SaysClean (loads : List UInt8 → AnswerText) (exchange : Exchange) : Prop :=
  ∃ answer fields, exchange = .answered 200 answer ∧ loads answer = .value (.obj fields) ∧
    Json.lookup "clean" fields = some (.bool true)

/-- The answer is one that the scanner can take: the connection does not break in it, an answer with
a status of success is read as a value or as none, and one with the status 200 as no value but an
object. -/
def Takeable (loads : List UInt8 → AnswerText) : Exchange → Prop
  | .unreachable => True
  | .broken => False
  | .answered status answer => 200 ≤ status ∧ status < 300 →
      loads answer ≠ .fails ∧
        (status = 200 → ∀ v, loads answer = .value v → ∃ fields, v = .obj fields)

variable {loads : List UInt8 → AnswerText} {exchange : Exchange} {result : MalwareScanResult}

lemma isTrue_iff {value : Option Json} : isTrue value = true ↔ value = some (.bool true) := by
  unfold isTrue
  split <;> simp_all

/-- **What an answer with the status 200 leads to.** -/
lemma verdict_cases (payload : Json) :
    (∃ fields result, payload = .obj fields ∧ verdict payload = .ok result ∧
      (result.clean = true ↔ Json.lookup "clean" fields = some (.bool true))) ∨
    ((∀ fields, payload ≠ .obj fields) ∧ verdict payload = .error .unhandled) := by
  cases payload with
  | obj fields =>
      refine .inl ⟨fields, ?_⟩
      rw [← isTrue_iff]
      cases htrue : isTrue (Json.lookup "clean" fields) with
      | true => exact ⟨_, rfl, by rw [verdict, htrue]; rfl, by simp⟩
      | false => exact ⟨_, rfl, by rw [verdict, htrue]; rfl, by simp⟩
  | null => exact .inr ⟨nofun, rfl⟩
  | bool b => exact .inr ⟨nofun, rfl⟩
  | num n => exact .inr ⟨nofun, rfl⟩
  | float lit => exact .inr ⟨nofun, rfl⟩
  | str s => exact .inr ⟨nofun, rfl⟩
  | arr items => exact .inr ⟨nofun, rfl⟩

/-- **What an exchange leads to**: a verdict, exactly for the exchanges that can be taken, which is
clean exactly if the service says so. -/
lemma readExchange_cases (loads : List UInt8 → AnswerText) (exchange : Exchange) :
    (Takeable loads exchange ∧ ∃ result, readExchange loads exchange = .ok result ∧
      (result.clean = true ↔ SaysClean loads exchange)) ∨
    (¬ Takeable loads exchange ∧ readExchange loads exchange = .error .unhandled) := by
  cases exchange with
  | unreachable => exact .inl ⟨trivial, _, rfl, by simp [scannerUnavailable, SaysClean]⟩
  | broken => exact .inr ⟨id, rfl⟩
  | answered status answer =>
      have hclean : SaysClean loads (.answered status answer) ↔ status = 200 ∧
          ∃ fields, loads answer = .value (.obj fields) ∧
            Json.lookup "clean" fields = some (.bool true) := by
        constructor
        · rintro ⟨answer', fields, heq, hrest⟩
          cases heq
          exact ⟨rfl, fields, hrest⟩
        · rintro ⟨rfl, fields, hrest⟩
          exact ⟨answer, fields, rfl, hrest⟩
      rw [hclean]
      by_cases hstatus : status < 200 ∨ 300 ≤ status
      · refine .inl ⟨fun h => by omega, _, if_pos hstatus, iff_of_false (by decide) fun h => ?_⟩
        omega
      · have hread : readExchange loads (.answered status answer) =
            match loads answer with
            | .invalid => .ok scannerUnavailable
            | .fails => .error .unhandled
            | .value payload =>
                if status ≠ 200 then .ok ⟨false, "malware_scanner_status_" ++ status.repr⟩
                else verdict payload := if_neg hstatus
        rw [hread]
        cases hloads : loads answer with
        | invalid =>
            exact .inl ⟨fun _ => by simp [hloads], _, rfl, by simp [scannerUnavailable]⟩
        | fails => exact .inr ⟨fun h => (h (by omega)).1 hloads, rfl⟩
        | value payload =>
            by_cases h200 : status = 200
            · subst h200
              rcases verdict_cases payload with ⟨fields, result, rfl, hverdict, hclean⟩ |
                ⟨hnone, hverdict⟩
              · refine .inl ⟨fun _ => ⟨by simp [hloads], fun _ v hv => ⟨fields, ?_⟩⟩, result,
                  hverdict, ?_⟩
                · exact (AnswerText.value.inj (hloads.symm.trans hv)).symm
                · simp [hclean]
              · refine .inr ⟨fun h => ?_, hverdict⟩
                obtain ⟨fields, hfields⟩ := (h (by omega)).2 rfl payload hloads
                exact hnone fields hfields
            · exact .inl ⟨fun _ => ⟨by simp [hloads], fun h => absurd h h200⟩, _, if_pos h200,
                by simp [h200]⟩

end StarterBackend.Files

/-
The signature of an inbound webhook: `webhook_security.py`, and the part of
`webhook_service.py` that reads its headers.

A header arrives as Latin-1, so the only digits that `\d` and `int` know in it are the
ASCII ones.  Three exceptions of this code are not a `WebhookSignatureError`:
`hmac.compare_digest` does not take texts that are not ASCII, `int` does not read texts of
more than 4300 digits, which in the combined header nothing catches, and `str` does not
write such numbers.  All are kept apart from a rejection.
-/
import StarterBackend.Lib.PyText
import StarterBackend.Lib.Json

namespace StarterBackend.Webhooks

open Lib

/-! ### Code from elsewhere -/

/-- What the webhooks use from the libraries under them. -/
structure Crypto where
  /-- The hexadecimal HMAC-SHA256 of a message. -/
  hmac : (secret : String) → (message : List UInt8) → String
  /-- The hexadecimal SHA-256 of a text. -/
  sha256 : List UInt8 → String
  /-- `str.lower`. -/
  lower : String → String
  /-- The reader of JSON documents of the request models. -/
  parseJson : List UInt8 → Option Json

/-! ### The headers -/

/-- `int(text)`, which reads at most 4300 digits. -/
def intOfText (text : String) : Option ℤ :=
  if (text.toList.filter Char.isDigit).length ≤ 4300 then PyText.parseInt text else none

/-- `str` of an integer, which writes at most 4300 digits. -/
def strOfInt (n : ℤ) : Option String :=
  if n.natAbs.repr.length ≤ 4300 then some n.repr else none

/-- How a verification fails: with a `WebhookSignatureError`, or with an exception that is none. -/
inductive SignatureFailure where
  | rejected (message : String)
  | crashes
deriving DecidableEq

/-- `[a-f0-9]`, where the case does not matter. -/
def isHexDigit (c : Char) : Bool :=
  c.isDigit || ('a' ≤ c && c ≤ 'f') || ('A' ≤ c && c ≤ 'F')

/-- The end of `STRIPE_STYLE_SIGNATURE_PATTERN`, after the timestamp: the signature, if the text
matches and has one. -/
def stripeSignature : List Char → Option (Option String)
  | [] => some none
  | ',' :: v :: '1' :: '=' :: hex =>
      if (v = 'v' ∨ v = 'V') ∧ hex ≠ [] ∧ hex.all isHexDigit then some (some (String.ofList hex))
      else none
  | _ => none

/-- `STRIPE_STYLE_SIGNATURE_PATTERN.fullmatch`: the timestamp and the signature. -/
def stripeMatch : List Char → Option (String × Option String)
  | t :: '=' :: rest =>
      if (t = 't' ∨ t = 'T') ∧ rest.takeWhile Char.isDigit ≠ [] then
        (stripeSignature (rest.dropWhile Char.isDigit)).map fun signature =>
          (String.ofList (rest.takeWhile Char.isDigit), signature)
      else none
  | _ => none

/-- `parse_webhook_signature_header`. -/
def parseWebhookSignatureHeader (crypto : Crypto) (signature : String) :
    Except SignatureFailure (Option ℤ × String) :=
  let normalizedSignature := PyText.strip signature
  match stripeMatch normalizedSignature.toList with
  | none => .ok (none, crypto.lower normalizedSignature)
  | some (digits, parsedSignature) =>
      match intOfText digits with
      | none => .error .crashes
      | some timestamp =>
          match parsedSignature with
          | none => .error (.rejected "Webhook signature version is required")
          | some parsedSignature => .ok (some timestamp, crypto.lower parsedSignature)

/-! ### Verification -/

/-- `build_timestamped_signing_message`. -/
def buildTimestampedSigningMessage (timestamp : ℤ) (payload : List UInt8) :
    Option (List UInt8) :=
  (strOfInt timestamp).map fun text => (text ++ ".").toUTF8.data.toList ++ payload

/-- `compute_timestamped_hmac_signature`. -/
def computeTimestampedHmacSignature (crypto : Crypto) (timestamp : ℤ) (payload : List UInt8)
    (secret : String) : Option String :=
  (buildTimestampedSigningMessage timestamp payload).map (crypto.hmac secret)

/-- `hmac.compare_digest` of two texts, for an ASCII `expected`. -/
def compareDigest (expected signature : String) : Except SignatureFailure Bool :=
  if signature.toList.all (·.toNat < 128) then .ok (expected == signature) else .error .crashes

/-- `verify_timestamped_hmac_signature`. -/
def verifyTimestampedHmacSignature (crypto : Crypto) (payload : List UInt8) (signature : String)
    (timestamp : Option ℤ) (secret : String) (toleranceSeconds now : ℤ) :
    Except SignatureFailure ℤ :=
  if secret = "" then .error (.rejected "Webhook signature secret is not configured")
  else
    match parseWebhookSignatureHeader crypto signature with
    | .error failure => .error failure
    | .ok (headerTimestamp, parsedSignature) =>
        match timestamp.or headerTimestamp with
        | none => .error (.rejected "Webhook timestamp is required")
        | some effectiveTimestamp =>
            if toleranceSeconds < |now - effectiveTimestamp| then
              .error (.rejected "Webhook timestamp is outside the replay window")
            else
              match computeTimestampedHmacSignature crypto effectiveTimestamp payload secret with
              | none => .error .crashes
              | some expectedSignature =>
                  match compareDigest expectedSignature parsedSignature with
                  | .error failure => .error failure
                  | .ok true => .ok effectiveTimestamp
                  | .ok false => .error (.rejected "Invalid webhook signature")

/-- `verify_inbound_webhook_signature` at the time `now`: the timestamp of the signature. -/
def verifyInboundWebhookSignature (crypto : Crypto) (payload : List UInt8)
    (signature timestamp : Option String) (secret : String) (toleranceSeconds now : ℤ) :
    Except SignatureFailure ℤ :=
  match signature with
  | none => .error (.rejected "Webhook signature header is required")
  | some signature =>
      match timestamp with
      | none => verifyTimestampedHmacSignature crypto payload signature none secret toleranceSeconds
          now
      | some timestamp =>
          match intOfText (PyText.strip timestamp) with
          | none => .error (.rejected "Webhook timestamp must be a Unix timestamp")
          | some parsedTimestamp => verifyTimestampedHmacSignature crypto payload signature
              (some parsedTimestamp) secret toleranceSeconds now

/-- The timestamp that the headers name. -/
def effectiveTimestamp (crypto : Crypto) (signature timestamp : Option String) : Option ℤ :=
  match timestamp with
  | some timestamp => intOfText (PyText.strip timestamp)
  | none =>
      match signature.map (parseWebhookSignatureHeader crypto) with
      | some (.ok (headerTimestamp, _)) => headerTimestamp
      | _ => none

section

variable {crypto : Crypto} {payload : List UInt8} {signature : String} {timestamp : Option ℤ}
  {secret : String} {toleranceSeconds now t : ℤ}

/-- What a successful verification has checked: the window, and the HMAC of the timestamp and the
payload. -/
lemma verifyTimestamped_eq_ok
    (h : verifyTimestampedHmacSignature crypto payload signature timestamp secret toleranceSeconds
      now = .ok t) :
    |now - t| ≤ toleranceSeconds ∧ ∃ header,
      parseWebhookSignatureHeader crypto signature = .ok header ∧ timestamp.or header.1 = some t ∧
        computeTimestampedHmacSignature crypto t payload secret = some header.2 := by
  unfold verifyTimestampedHmacSignature at h
  split at h
  · simp at h
  · split at h
    · simp at h
    · rename_i headerTimestamp parsedSignature hparse
      split at h
      · simp at h
      · rename_i effectiveTimestamp hor
        split at h
        · simp at h
        · rename_i hwindow
          split at h
          · simp at h
          · rename_i expectedSignature hexpected
            split at h
            · simp at h
            · rename_i hdigest
              obtain rfl := Except.ok.inj h
              refine ⟨not_lt.1 hwindow, _, hparse, hor, ?_⟩
              unfold compareDigest at hdigest
              split at hdigest
              · rw [hexpected, beq_iff_eq.1 (Except.ok.inj hdigest)]
              · simp at hdigest
            · simp at h

end

/-- **A request that verifies is in the window of its timestamp.** -/
theorem verifyInbound_eq_ok {crypto : Crypto} {payload : List UInt8}
    {signature timestamp : Option String} {secret : String} {toleranceSeconds now t : ℤ}
    (h : verifyInboundWebhookSignature crypto payload signature timestamp secret toleranceSeconds
      now = .ok t) :
    effectiveTimestamp crypto signature timestamp = some t ∧ |now - t| ≤ toleranceSeconds := by
  cases signature with
  | none => simp [verifyInboundWebhookSignature] at h
  | some signature =>
      cases timestamp with
      | none =>
          obtain ⟨hwindow, header, hparse, hor, -⟩ := verifyTimestamped_eq_ok h
          rw [Option.none_or] at hor
          refine ⟨?_, hwindow⟩
          simp [effectiveTimestamp, hparse, hor]
      | some timestamp =>
          simp only [verifyInboundWebhookSignature] at h
          cases hint : intOfText (PyText.strip timestamp) with
          | none => simp [hint] at h
          | some parsedTimestamp =>
              simp only [hint] at h
              obtain ⟨hwindow, header, -, hor, -⟩ := verifyTimestamped_eq_ok h
              exact ⟨by simpa [effectiveTimestamp, hint] using hor, hwindow⟩

end StarterBackend.Webhooks

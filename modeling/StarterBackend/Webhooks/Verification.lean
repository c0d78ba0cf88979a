/-
What the signature of an inbound webhook settles.

The signature that the sender computes verifies in both header formats, and exactly
inside the replay window; the message it signs names its timestamp and its payload without
ambiguity, since the first dot ends the timestamp.  A header that does not verify is
rejected, except for two kinds of headers that end in another exception.
-/
import StarterBackend.Webhooks.Inbound
import Mathlib.Data.List.Basic
import Mathlib.Logic.Encodable.Basic

namespace StarterBackend.Webhooks

open Lib

/-! ### The texts of headers -/

/-- The texts that a header can carry. -/
def IsLatin1 (s : String) : Prop := ∀ c ∈ s.toList, c.toNat < 256

def isAscii (s : String) : Bool := s.toList.all (·.toNat < 128)

/-- `str.lower`, as far as headers go. -/
def LowersLatin1 (crypto : Crypto) : Prop :=
  ∀ s, IsLatin1 s → crypto.lower s = String.ofList (s.toList.map PyText.lowerLatin1)

/-- A digest is written in lowercase hexadecimal. -/
def HexDigests (crypto : Crypto) : Prop :=
  ∀ secret message, crypto.hmac secret message ≠ "" ∧
    ∀ c ∈ (crypto.hmac secret message).toList, c.isDigit = true ∨ 'a' ≤ c ∧ c ≤ 'f'

lemma lowerLatin1_lt_iff {c : Char} (hc : c.toNat < 256) :
    (PyText.lowerLatin1 c).toNat < 128 ↔ c.toNat < 128 := by
  unfold PyText.lowerLatin1
  split
  · rename_i hupper
    have hvalid : (c.toNat + 32).isValidChar := .inl (by omega)
    rw [Char.toNat_ofNat, if_pos hvalid]
    rcases hupper with ⟨hA, hZ⟩ | ⟨hA, hZ, -⟩
    · have hA' : 65 ≤ c.toNat := hA
      have hZ' : c.toNat ≤ 90 := hZ
      omega
    · omega
  · exact Iff.rfl

lemma isAscii_lower {crypto : Crypto} (hlower : LowersLatin1 crypto) {s : String}
    (hs : IsLatin1 s) : isAscii (crypto.lower s) = isAscii s := by
  rw [hlower s hs, Bool.eq_iff_iff]
  simp only [isAscii, String.toList_ofList, List.all_map, List.all_eq_true, Function.comp_apply,
    decide_eq_true_eq]
  exact forall₂_congr fun c hc => lowerLatin1_lt_iff (hs c hc)

lemma IsLatin1.strip {s : String} (hs : IsLatin1 s) : IsLatin1 (PyText.strip s) := by
  intro c hc
  rw [PyText.strip, String.toList_ofList] at hc
  exact hs c ((PyText.stripped_sublist _).subset hc)

lemma isHexDigit_iff {c : Char} : isHexDigit c = true ↔
    (48 ≤ c.toNat ∧ c.toNat ≤ 57) ∨ (97 ≤ c.toNat ∧ c.toNat ≤ 102) ∨
      (65 ≤ c.toNat ∧ c.toNat ≤ 70) := by
  simp only [isHexDigit, Char.isDigit, Bool.or_eq_true, Bool.and_eq_true, decide_eq_true_eq,
    or_assoc]
  exact Iff.rfl

lemma isHexDigit_lt {c : Char} (hc : isHexDigit c = true) : c.toNat < 128 := by
  have h := isHexDigit_iff.1 hc
  omega

lemma isAscii_of_hex {s : String} (hs : ∀ c ∈ s.toList, isHexDigit c = true) :
    isAscii s = true :=
  List.all_eq_true.2 fun c hc => decide_eq_true (isHexDigit_lt (hs c hc))

lemma isLatin1_of_isAscii {s : String} (hs : isAscii s = true) : IsLatin1 s := fun c hc =>
  lt_trans (of_decide_eq_true (List.all_eq_true.1 hs c hc)) (by norm_num)

lemma isHexDigit_of_lower {c : Char} (hc : c.isDigit = true ∨ 'a' ≤ c ∧ c ≤ 'f') :
    isHexDigit c = true := by
  rcases hc with hc | hc <;> simp [isHexDigit, hc]

/-! ### The combined header -/

/-- What `STRIPE_STYLE_SIGNATURE_PATTERN` finds: digits, and hexadecimal digits. -/
lemma stripeMatch_eq_some {cs : List Char} {digits : String} {signature : Option String}
    (h : stripeMatch cs = some (digits, signature)) :
    digits.toList ≠ [] ∧ (∀ c ∈ digits.toList, c.isDigit = true) ∧
      ∀ s ∈ signature, ∀ c ∈ s.toList, isHexDigit c = true := by
  unfold stripeMatch at h
  split at h
  · rename_i t rest
    split at h
    · rename_i hrest
      obtain ⟨signature', hend, heq⟩ := Option.map_eq_some_iff.1 h
      obtain ⟨rfl, rfl⟩ := Prod.mk.inj heq
      refine ⟨by simpa using hrest.2, ?_, ?_⟩
      · intro c hc
        rw [String.toList_ofList] at hc
        exact List.mem_takeWhile_imp hc
      · intro s hs c hc
        unfold stripeSignature at hend
        split at hend
        · cases Option.some.inj hend
          cases hs
        · split at hend
          · rename_i hhex
            cases Option.some.inj hend
            cases hs
            rw [String.toList_ofList] at hc
            exact List.all_eq_true.1 hhex.2.2 c hc
          · cases hend
        · cases hend
    · cases h
  · cases h

lemma parseInt_digits {digits : String} (hne : digits.toList ≠ [])
    (hdigits : ∀ c ∈ digits.toList, c.isDigit = true) : (PyText.parseInt digits).isSome := by
  obtain ⟨c, cs, hcs⟩ := List.exists_cons_of_ne_nil hne
  rw [PyText.parseInt, PyText.stripped_eq_self fun c hc => PyText.isSpace_eq_false (hdigits c hc),
    PyText.readInt_digits hdigits]
  rw [hcs] at hdigits
  rw [hcs, PyText.readNat, if_pos (hdigits c (by simp)),
    PyText.readDigits_eq_ofDigitChars fun d hd => hdigits d (by simp [hd])]
  rfl

lemma intOfText_digits {digits : String} (hne : digits.toList ≠ [])
    (hdigits : ∀ c ∈ digits.toList, c.isDigit = true) :
    (intOfText digits).isSome ↔ digits.length ≤ 4300 := by
  rw [intOfText, List.filter_eq_self.2 hdigits, String.length_toList]
  split
  · rename_i h
    exact iff_of_true (parseInt_digits hne hdigits) h
  · rename_i h
    exact iff_of_false (by simp) h

/-- `str` writes what `int` has read. -/
lemma strOfInt_isSome {text : String} {n : ℤ} (h : intOfText text = some n) :
    (strOfInt n).isSome := by
  unfold intOfText at h
  split at h
  · rename_i hlength
    rw [strOfInt, if_pos (PyText.length_repr_le h hlength (by norm_num))]
    rfl
  · cases h

/-! ### How a verification ends -/

section

variable {crypto : Crypto} {payload : List UInt8} {signature : String} {timestamp : Option ℤ}
  {secret : String} {toleranceSeconds now : ℤ}

lemma compareDigest_eq (expected signature : String) : compareDigest expected signature =
    if isAscii signature = true then .ok (expected == signature) else .error .crashes := rfl

lemma verifyTimestamped_unparsed {failure : SignatureFailure} (hsecret : secret ≠ "")
    (hparse : parseWebhookSignatureHeader crypto signature = .error failure) :
    verifyTimestampedHmacSignature crypto payload signature timestamp secret toleranceSeconds now =
      .error failure := by
  rw [verifyTimestampedHmacSignature, if_neg hsecret, hparse]

lemma verifyTimestamped_untimed {header : Option ℤ × String} (hsecret : secret ≠ "")
    (hparse : parseWebhookSignatureHeader crypto signature = .ok header)
    (ht : timestamp.or header.1 = none) :
    verifyTimestampedHmacSignature crypto payload signature timestamp secret toleranceSeconds now =
      .error (.rejected "Webhook timestamp is required") := by
  rw [verifyTimestampedHmacSignature, if_neg hsecret, hparse]
  simp only [ht]

lemma verifyTimestamped_outside {header : Option ℤ × String} {t : ℤ} (hsecret : secret ≠ "")
    (hparse : parseWebhookSignatureHeader crypto signature = .ok header)
    (ht : timestamp.or header.1 = some t) (hwindow : toleranceSeconds < |now - t|) :
    verifyTimestampedHmacSignature crypto payload signature timestamp secret toleranceSeconds now =
      .error (.rejected "Webhook timestamp is outside the replay window") := by
  rw [verifyTimestampedHmacSignature, if_neg hsecret, hparse]
  simp only [ht, if_pos hwindow]

/-- Inside the window, it is the comparison that decides. -/
lemma verifyTimestamped_compared {header : Option ℤ × String} {t : ℤ} {expected : String}
    (hsecret : secret ≠ "")
    (hparse : parseWebhookSignatureHeader crypto signature = .ok header)
    (ht : timestamp.or header.1 = some t) (hwindow : |now - t| ≤ toleranceSeconds)
    (hexpected : computeTimestampedHmacSignature crypto t payload secret = some expected) :
    verifyTimestampedHmacSignature crypto payload signature timestamp secret toleranceSeconds now =
      if isAscii header.2 = true then
        if expected = header.2 then .ok t else .error (.rejected "Invalid webhook signature")
      else .error .crashes := by
  rw [verifyTimestampedHmacSignature, if_neg hsecret, hparse]
  simp only [ht, if_neg (not_lt.2 hwindow), hexpected, compareDigest_eq]
  by_cases hascii : isAscii header.2 = true
  · by_cases heq : expected = header.2
    · simp only [if_pos hascii, beq_iff_eq.2 heq, if_pos heq]
    · simp only [if_pos hascii, beq_eq_false_iff_ne.2 heq, if_neg heq]
  · simp only [if_neg hascii]

end

/-! ### Signed messages -/

lemma bytes_eq_flatMap (s : String) :
    s.toUTF8.data.toList = s.toList.flatMap String.utf8EncodeChar := by
  conv_lhs => rw [← String.ofList_toList (s := s)]
  rw [String.toUTF8_eq_toByteArray, String.toByteArray_ofList, List.utf8Encode,
    List.toList_data_toByteArray]

/-- The bytes of a text of digits have no dot. -/
lemma dot_notMem_bytes {s : String} (hs : ∀ c ∈ s.toList, c = '-' ∨ c.isDigit = true) :
    (46 : UInt8) ∉ s.toUTF8.data.toList := by
  rw [bytes_eq_flatMap, List.mem_flatMap]
  rintro ⟨c, hc, hdot⟩
  have hcode : c.toNat = 45 ∨ 48 ≤ c.toNat ∧ c.toNat ≤ 57 := by
    rcases hs c hc with rfl | hdigit
    · exact .inl rfl
    · simp only [Char.isDigit, Bool.and_eq_true, decide_eq_true_eq, UInt32.le_iff_toNat_le]
        at hdigit
      exact .inr ⟨hdigit.1, hdigit.2⟩
  have hbyte : String.utf8EncodeChar c = [UInt8.ofNat c.toNat] := by
    have hle : c.val.toNat ≤ 127 := show c.toNat ≤ 127 by omega
    simp only [String.utf8EncodeChar, if_pos hle]
    rfl
  rw [hbyte, List.mem_singleton] at hdot
  have hnat : c.toNat % 256 = 46 := (congrArg UInt8.toNat hdot).symm
  omega

/-- **The message that is signed names its timestamp and its payload.** -/
lemma buildTimestampedSigningMessage_inj {t t' : ℤ} {payload payload' message : List UInt8}
    (h : buildTimestampedSigningMessage t payload = some message)
    (h' : buildTimestampedSigningMessage t' payload' = some message) :
    t = t' ∧ payload = payload' := by
  have hbytes : ∀ {t : ℤ} {payload : List UInt8},
      buildTimestampedSigningMessage t payload = some message →
      message = t.repr.toUTF8.data.toList ++ 46 :: payload := by
    intro t payload h
    obtain ⟨text, htext, rfl⟩ := Option.map_eq_some_iff.1 h
    unfold strOfInt at htext
    split at htext
    · obtain rfl := Option.some.inj htext
      rw [bytes_eq_flatMap, bytes_eq_flatMap, String.toList_append, List.flatMap_append,
        List.append_assoc]
      rfl
    · cases htext
  obtain ⟨htext, hpayload⟩ := PyText.append_cons_inj (dot_notMem_bytes fun _ => PyText.mem_repr)
    (dot_notMem_bytes fun _ => PyText.mem_repr) ((hbytes h).symm.trans (hbytes h'))
  have hrepr : t.repr.toByteArray = t'.repr.toByteArray :=
    ByteArray.ext (Array.toList_inj.1 htext)
  exact ⟨PyText.repr_injective (String.toByteArray_inj.1 hrepr), hpayload⟩

/-- A text with blanks around it. -/
def Padded (core : List Char) (text : String) : Prop :=
  ∃ before after, (∀ c ∈ before, PyText.isSpace c = true) ∧
    (∀ c ∈ after, PyText.isSpace c = true) ∧ text = String.ofList (before ++ core ++ after)

/-- A signature in some letter case. -/
def Spelled (signature : String) (shown : List Char) : Prop :=
  shown.map Char.toLower = signature.toList

/-- A signature header with the signature alone. -/
def PlainHeader (signature header : String) : Prop :=
  ∃ shown, Spelled signature shown ∧ Padded shown header

/-- A signature header with the timestamp before the signature. -/
def CombinedHeader (t : ℤ) (signature header : String) : Prop :=
  ∃ shown, Spelled signature shown ∧
    Padded ('t' :: '=' :: t.repr.toList ++ ',' :: 'v' :: '1' :: '=' :: shown) header

/-- A timestamp header. -/
def TimestampHeader (t : ℤ) (text : String) : Prop := Padded t.repr.toList text

lemma isSpace_of_repr {t : ℤ} : ∀ c ∈ t.repr.toList, PyText.isSpace c = false := by
  intro c hc
  rcases PyText.mem_repr hc with rfl | hdigit
  · rfl
  · exact PyText.isSpace_eq_false hdigit

lemma Padded.strip_eq {core : List Char} {text : String} (h : Padded core text)
    (hcore : ∀ c ∈ core, PyText.isSpace c = false) : PyText.strip text = String.ofList core := by
  obtain ⟨before, after, hbefore, hafter, rfl⟩ := h
  rw [PyText.strip, String.toList_ofList, PyText.stripped_append hbefore hafter hcore]

lemma isSpace_of_hex {c : Char} (hc : isHexDigit c = true) : PyText.isSpace c = false := by
  have h := isHexDigit_iff.1 hc
  simp only [PyText.isSpace, Bool.or_eq_false_iff, Bool.and_eq_false_iff, decide_eq_false_iff_not,
    beq_eq_false_iff_ne]
  omega

lemma toNat_toLower (c : Char) :
    c.toLower.toNat = if 65 ≤ c.toNat ∧ c.toNat ≤ 90 then c.toNat + 32 else c.toNat := by
  by_cases h : 65 ≤ c.toNat ∧ c.toNat ≤ 90
  · have hupper : c.val ≥ 'A'.val ∧ c.val ≤ 'Z'.val := h
    have hsum : (c.val + ('a'.val - 'A'.val)).toNat = (c.toNat + 32) % 2 ^ 32 := rfl
    rw [if_pos h, Char.toLower, dif_pos hupper]
    exact hsum.trans (Nat.mod_eq_of_lt (by omega))
  · have hupper : ¬ (c.val ≥ 'A'.val ∧ c.val ≤ 'Z'.val) := h
    rw [if_neg h, Char.toLower, dif_neg hupper]

/-- Only a hexadecimal digit has a lowercase one. -/
lemma isHexDigit_of_toLower {c : Char}
    (hc : c.toLower.isDigit = true ∨ 'a' ≤ c.toLower ∧ c.toLower ≤ 'f') :
    isHexDigit c = true ∧ PyText.lowerLatin1 c = c.toLower := by
  have hlow : (48 ≤ c.toLower.toNat ∧ c.toLower.toNat ≤ 57) ∨
      (97 ≤ c.toLower.toNat ∧ c.toLower.toNat ≤ 102) := by
    rcases hc with h | h
    · simp only [Char.isDigit, Bool.and_eq_true, decide_eq_true_eq] at h
      exact .inl h
    · exact .inr h
  rw [toNat_toLower] at hlow
  refine ⟨isHexDigit_iff.2 (by split at hlow <;> omega), ?_⟩
  rw [← Char.toNat_inj, toNat_toLower, PyText.lowerLatin1]
  have hupper : (('A' ≤ c ∧ c ≤ 'Z') ∨ (0xC0 ≤ c.toNat ∧ c.toNat ≤ 0xDE ∧ c.toNat ≠ 0xD7)) ↔
      65 ≤ c.toNat ∧ c.toNat ≤ 90 := by
    have hletter : ('A' ≤ c ∧ c ≤ 'Z') ↔ 65 ≤ c.toNat ∧ c.toNat ≤ 90 := Iff.rfl
    rw [hletter]
    split at hlow <;> omega
  rw [if_congr hupper rfl rfl]
  split
  · rename_i h
    rw [Char.toNat_ofNat, if_pos (show (c.toNat + 32).isValidChar from .inl (by omega))]
  · rfl

lemma Spelled.hex {signature : String} {shown : List Char} (h : Spelled signature shown)
    (hsignature : ∀ c ∈ signature.toList, c.isDigit = true ∨ 'a' ≤ c ∧ c ≤ 'f') :
    ∀ c ∈ shown, isHexDigit c = true := fun c hc =>
  (isHexDigit_of_toLower (hsignature c.toLower (h ▸ List.mem_map_of_mem hc))).1

lemma Spelled.lower_eq {crypto : Crypto} (hlower : LowersLatin1 crypto) {signature : String}
    {shown : List Char} (h : Spelled signature shown)
    (hsignature : ∀ c ∈ signature.toList, c.isDigit = true ∨ 'a' ≤ c ∧ c ≤ 'f') :
    crypto.lower (String.ofList shown) = signature := by
  have hlatin : IsLatin1 (String.ofList shown) := fun c hc =>
    lt_trans (isHexDigit_lt (h.hex hsignature c (by simpa using hc))) (by norm_num)
  rw [hlower _ hlatin, String.toList_ofList, ← String.ofList_toList (s := signature), ← h]
  congr 1
  exact List.map_congr_left fun c hc =>
    (isHexDigit_of_toLower (hsignature c.toLower (h ▸ List.mem_map_of_mem hc))).2

/-- The plain format is not the combined one. -/
lemma stripeMatch_hex {shown : List Char} (h : ∀ c ∈ shown, isHexDigit c = true) :
    stripeMatch shown = none := by
  unfold stripeMatch
  split
  · exact absurd (h '=' (by simp)) (by decide)
  · rfl

lemma stripeMatch_combined {t : ℕ} {shown : List Char} (hne : shown ≠ [])
    (h : ∀ c ∈ shown, isHexDigit c = true) :
    stripeMatch ('t' :: '=' :: (t : ℤ).repr.toList ++ ',' :: 'v' :: '1' :: '=' :: shown) =
      some (t.repr, some (String.ofList shown)) := by
  have hdigit : ∀ c ∈ t.repr.toList, c.isDigit = true := fun c hc => by
    rw [Nat.toList_repr] at hc
    exact Nat.isDigit_of_mem_toDigits (by norm_num) (by norm_num) hc
  have hrepr : (t : ℤ).repr = t.repr := rfl
  have htake : (t.repr.toList ++ ',' :: 'v' :: '1' :: '=' :: shown).takeWhile Char.isDigit =
      t.repr.toList := by
    rw [List.takeWhile_append_of_pos hdigit, List.takeWhile_cons_of_neg (by decide),
      List.append_nil]
  have hdrop : (t.repr.toList ++ ',' :: 'v' :: '1' :: '=' :: shown).dropWhile Char.isDigit =
      ',' :: 'v' :: '1' :: '=' :: shown := by
    rw [List.dropWhile_append_of_pos hdigit, List.dropWhile_cons_of_neg (by decide)]
  rw [hrepr, List.cons_append, List.cons_append, stripeMatch, htake, hdrop, if_pos (by simp),
    stripeSignature, if_pos ⟨by simp, hne, List.all_eq_true.2 h⟩, Option.map_some,
    String.ofList_toList]

lemma intOfText_repr {t : ℕ} (ht : (strOfInt t).isSome) : intOfText t.repr = some (t : ℤ) := by
  unfold strOfInt at ht
  split at ht
  · rename_i hlength
    rw [Int.natAbs_natCast] at hlength
    have hdigit : t.repr.toList.filter Char.isDigit = t.repr.toList :=
      List.filter_eq_self.2 fun c hc => by
        rw [Nat.toList_repr] at hc
        exact Nat.isDigit_of_mem_toDigits (by norm_num) (by norm_num) hc
    rw [intOfText, hdigit, String.length_toList, if_pos hlength, PyText.parseInt_repr]
  · cases ht

lemma parse_plain {crypto : Crypto} (hlower : LowersLatin1 crypto) {signature header : String}
    (hhex : ∀ c ∈ signature.toList, c.isDigit = true ∨ 'a' ≤ c ∧ c ≤ 'f')
    (h : PlainHeader signature header) :
    parseWebhookSignatureHeader crypto header = .ok (none, signature) := by
  obtain ⟨shown, hshown, hpadded⟩ := h
  have hdigits := hshown.hex hhex
  have hstrip := hpadded.strip_eq fun c hc => isSpace_of_hex (hdigits c hc)
  simp only [parseWebhookSignatureHeader, hstrip, String.toList_ofList, stripeMatch_hex hdigits,
    hshown.lower_eq hlower hhex]

lemma parse_combined {crypto : Crypto} (hlower : LowersLatin1 crypto) {signature header : String}
    {t : ℕ} (ht : (strOfInt t).isSome) (hne : signature ≠ "")
    (hhex : ∀ c ∈ signature.toList, c.isDigit = true ∨ 'a' ≤ c ∧ c ≤ 'f')
    (h : CombinedHeader t signature header) :
    parseWebhookSignatureHeader crypto header = .ok (some (t : ℤ), signature) := by
  obtain ⟨shown, hshown, hpadded⟩ := h
  have hdigits := hshown.hex hhex
  have hshown_ne : shown ≠ [] := by
    rintro rfl
    exact hne (String.toList_eq_nil_iff.1 hshown.symm)
  have hstrip := hpadded.strip_eq fun c hc => by
    simp only [List.cons_append, List.mem_cons, List.mem_append] at hc
    rcases hc with rfl | rfl | hc | rfl | rfl | rfl | rfl | hc
    · rfl
    · rfl
    · exact isSpace_of_repr c hc
    · rfl
    · rfl
    · rfl
    · rfl
    · exact isSpace_of_hex (hdigits c hc)
  simp only [parseWebhookSignatureHeader, hstrip, String.toList_ofList,
    stripeMatch_combined hshown_ne hdigits, intOfText_repr ht, hshown.lower_eq hlower hhex]

/-- The verification returns `t` inside the window of `t`, and nothing else. -/
def ReturnsInWindow (result : Except SignatureFailure ℤ) (t toleranceSeconds now : ℤ) : Prop :=
  ∀ u, result = .ok u ↔ u = t ∧ |now - t| ≤ toleranceSeconds

section

variable {crypto : Crypto} {secret : String}

lemma verifyTimestamped_returnsInWindow (hhex : HexDigests crypto) (hsecret : secret ≠ "")
    {t : ℤ} {payload : List UInt8} {signature header : String} {timestamp headerTimestamp : Option ℤ}
    (hsignature : computeTimestampedHmacSignature crypto t payload secret = some signature)
    (hparse : parseWebhookSignatureHeader crypto header = .ok (headerTimestamp, signature))
    (ht : timestamp.or headerTimestamp = some t) (toleranceSeconds now : ℤ) :
    ReturnsInWindow (verifyTimestampedHmacSignature crypto payload header timestamp secret
      toleranceSeconds now) t toleranceSeconds now := by
  have hascii : isAscii signature = true := by
    obtain ⟨message, -, rfl⟩ := Option.map_eq_some_iff.1 hsignature
    exact isAscii_of_hex fun c hc => isHexDigit_of_lower ((hhex secret message).2 c hc)
  intro u
  rcases lt_or_ge toleranceSeconds |now - t| with hwindow | hwindow
  · rw [verifyTimestamped_outside hsecret hparse ht hwindow]
    exact iff_of_false (by simp) fun h => absurd h.2 (not_le.2 hwindow)
  · rw [verifyTimestamped_compared hsecret hparse ht hwindow hsignature, if_pos hascii,
      if_pos rfl, Except.ok.injEq, and_iff_left hwindow]
    exact eq_comm

/-- **A signed webhook verifies exactly, in both header formats.** -/
theorem signedWebhook_verifies_exactly (hhex : HexDigests crypto) (hlower : LowersLatin1 crypto)
    (hsecret : secret ≠ "") :
    (∀ t : ℤ, 0 ≤ t → ∀ payload signature,
      computeTimestampedHmacSignature crypto t payload secret = some signature →
      ∀ toleranceSeconds now header,
        (PlainHeader signature header → ∀ text, TimestampHeader t text →
          ReturnsInWindow (verifyTimestampedHmacSignature crypto payload header (some t) secret
            toleranceSeconds now) t toleranceSeconds now ∧
          ReturnsInWindow (verifyInboundWebhookSignature crypto payload (some header) (some text)
            secret toleranceSeconds now) t toleranceSeconds now) ∧
        (CombinedHeader t signature header →
          ReturnsInWindow (verifyTimestampedHmacSignature crypto payload header none secret
            toleranceSeconds now) t toleranceSeconds now ∧
          ReturnsInWindow (verifyInboundWebhookSignature crypto payload (some header) none secret
            toleranceSeconds now) t toleranceSeconds now)) ∧
    (∀ t t' payload payload' message,
      buildTimestampedSigningMessage t payload = some message →
      buildTimestampedSigningMessage t' payload' = some message → t = t' ∧ payload = payload') ∧
    (Function.Injective (crypto.hmac secret) →
      ∀ t t' payload payload' header header' timestamp timestamp' toleranceSeconds
        toleranceSeconds' now now',
      (parseWebhookSignatureHeader crypto header).map Prod.snd =
        (parseWebhookSignatureHeader crypto header').map Prod.snd →
      verifyTimestampedHmacSignature crypto payload header timestamp secret toleranceSeconds now =
        .ok t →
      verifyTimestampedHmacSignature crypto payload' header' timestamp' secret toleranceSeconds'
        now' = .ok t' → t = t' ∧ payload = payload') := by
  refine ⟨?_, fun t t' payload payload' message => buildTimestampedSigningMessage_inj, ?_⟩
  · intro t ht payload signature hsignature toleranceSeconds now header
    obtain ⟨t, rfl⟩ := Int.eq_ofNat_of_zero_le ht
    obtain ⟨message, hmessage, rfl⟩ := Option.map_eq_some_iff.1 hsignature
    obtain ⟨hne, hdigits⟩ := hhex secret message
    have hstr : (strOfInt (t : ℤ)).isSome := by
      obtain ⟨text, htext, -⟩ := Option.map_eq_some_iff.1 hmessage
      simp [htext]
    constructor
    · intro hplain text htext
      have hreturns : ReturnsInWindow (verifyTimestampedHmacSignature crypto payload header
          (some (t : ℤ)) secret toleranceSeconds now) t toleranceSeconds now :=
        verifyTimestamped_returnsInWindow hhex hsecret hsignature
          (parse_plain hlower hdigits hplain) rfl toleranceSeconds now
      have hint : intOfText (PyText.strip text) = some (t : ℤ) := by
        rw [htext.strip_eq isSpace_of_repr, String.ofList_toList]
        exact intOfText_repr hstr
      refine ⟨hreturns, ?_⟩
      simp only [verifyInboundWebhookSignature, hint]
      exact hreturns
    · intro hcombined
      have hreturns : ReturnsInWindow (verifyTimestampedHmacSignature crypto payload header none
          secret toleranceSeconds now) t toleranceSeconds now :=
        verifyTimestamped_returnsInWindow hhex hsecret hsignature
          (parse_combined hlower hstr hne hdigits hcombined) rfl toleranceSeconds now
      exact ⟨hreturns, hreturns⟩
  · intro hinj t t' payload payload' header header' timestamp timestamp' toleranceSeconds
      toleranceSeconds' now now' hsame hok hok'
    obtain ⟨-, parsed, hparse, -, hdigest⟩ := verifyTimestamped_eq_ok hok
    obtain ⟨-, parsed', hparse', -, hdigest'⟩ := verifyTimestamped_eq_ok hok'
    obtain ⟨message, hmessage, hhmac⟩ := Option.map_eq_some_iff.1 hdigest
    obtain ⟨message', hmessage', hhmac'⟩ := Option.map_eq_some_iff.1 hdigest'
    rw [hparse, hparse'] at hsame
    have hsignature : parsed.2 = parsed'.2 := Except.ok.inj hsame
    obtain rfl : message = message' := hinj (hhmac.trans (hsignature.trans hhmac'.symm))
    exact buildTimestampedSigningMessage_inj hmessage hmessage'

end

/-- The sample libraries, with `str.lower`. -/
def loweringCrypto : Crypto :=
  { sampleCrypto with lower := fun s => String.ofList (s.toList.map PyText.lowerLatin1) }

lemma loweringCrypto_lowers : LowersLatin1 loweringCrypto := fun _ _ => rfl

/-- The message that is signed for the sample delivery at the time 1000. -/
def sampleMessage : List UInt8 := "1000.".toUTF8.data.toList ++ sampleRequest.body

/-- A digest without collisions that is the HMAC of the sample delivery there. -/
def injectiveCrypto : Crypto :=
  { loweringCrypto with
    hmac := fun _ message =>
      if message = sampleMessage then
        "8025477bdbaa7135c7b6038e55640da3d39889864bfb3e65340fc7d49e5cac55"
      else "f" ++ (Encodable.encode (message.map UInt8.toNat)).repr }

lemma injectiveCrypto_hmac_injective (secret : String) :
    Function.Injective (injectiveCrypto.hmac secret) := by
  intro message message' h
  have hother : ∀ n : ℕ,
      "8025477bdbaa7135c7b6038e55640da3d39889864bfb3e65340fc7d49e5cac55" ≠ "f" ++ n.repr := by
    intro n hn
    have hhead := congrArg (fun s : String => s.toList.head?) hn
    simp at hhead
  simp only [injectiveCrypto] at h
  split at h <;> split at h
  · rename_i h₁ h₂
    exact h₁.trans h₂.symm
  · exact absurd h (hother _)
  · exact absurd h.symm (hother _)
  · have hrepr : ((Encodable.encode (message.map UInt8.toNat) : ℕ) : ℤ) =
        (Encodable.encode (message'.map UInt8.toNat) : ℕ) :=
      PyText.repr_injective ((String.append_right_inj "f").1 h)
    exact List.map_injective_iff.2 (fun _ _ => UInt8.toNat_inj.1)
      (Encodable.encode_injective (Int.ofNat_inj.1 hrepr))

lemma injectiveCrypto_hexDigests : HexDigests injectiveCrypto := by
  intro secret message
  simp only [injectiveCrypto]
  split
  · have hall : "8025477bdbaa7135c7b6038e55640da3d39889864bfb3e65340fc7d49e5cac55".toList.all
        (fun c => c.isDigit || decide ('a' ≤ c ∧ c ≤ 'f')) = true := by decide +kernel
    refine ⟨by decide, fun c hc => ?_⟩
    simpa using List.all_eq_true.1 hall c hc
  · refine ⟨by simp, fun c hc => ?_⟩
    rw [String.toList_append, List.mem_append] at hc
    rcases hc with hc | hc
    · have hf : c = 'f' := by simpa using hc
      exact .inr (by rw [hf]; decide)
    · rw [Nat.toList_repr] at hc
      exact .inl (Nat.isDigit_of_mem_toDigits (by norm_num) (by norm_num) hc)

theorem signedWebhook_verifies_sample :
    ReturnsInWindow (verifyInboundWebhookSignature injectiveCrypto sampleRequest.body
      (some " 8025477BDBAA7135C7B6038E55640DA3D39889864BFB3E65340FC7D49E5CAC55") (some "1000 ")
      sampleSettings.signatureSecret 300 1000) 1000 300 1000 ∧
    (∀ t payload header timestamp toleranceSeconds now,
      (parseWebhookSignatureHeader injectiveCrypto header).map Prod.snd =
        .ok "8025477bdbaa7135c7b6038e55640da3d39889864bfb3e65340fc7d49e5cac55" →
      verifyTimestampedHmacSignature injectiveCrypto payload header timestamp
        sampleSettings.signatureSecret toleranceSeconds now = .ok t →
      t = 1000 ∧ payload = sampleRequest.body) := by
  have hsecret : sampleSettings.signatureSecret ≠ "" := by decide
  have hexact := signedWebhook_verifies_exactly injectiveCrypto_hexDigests (fun _ _ => rfl) hsecret
  have hsignature : computeTimestampedHmacSignature injectiveCrypto 1000 sampleRequest.body
      sampleSettings.signatureSecret =
        some "8025477bdbaa7135c7b6038e55640da3d39889864bfb3e65340fc7d49e5cac55" := by
    decide +kernel
  have hparse : parseWebhookSignatureHeader injectiveCrypto
      "8025477bdbaa7135c7b6038e55640da3d39889864bfb3e65340fc7d49e5cac55" =
        .ok (none, "8025477bdbaa7135c7b6038e55640da3d39889864bfb3e65340fc7d49e5cac55") := by
    decide +kernel
  have hsigned := hexact.1 1000 (by norm_num) _ _ hsignature 300 1000
  refine ⟨((hsigned _).1
    ⟨"8025477BDBAA7135C7B6038E55640DA3D39889864BFB3E65340FC7D49E5CAC55".toList, ?_, [' '], [],
      by simp [PyText.isSpace], by simp, ?_⟩ "1000 "
    ⟨[], [' '], by simp, by simp [PyText.isSpace], ?_⟩).2, ?_⟩
  · unfold Spelled
    decide +kernel
  · decide +kernel
  · decide +kernel
  · intro t payload header timestamp toleranceSeconds now hsame hok
    have hsample : verifyTimestampedHmacSignature injectiveCrypto sampleRequest.body
        "8025477bdbaa7135c7b6038e55640da3d39889864bfb3e65340fc7d49e5cac55" (some 1000)
        sampleSettings.signatureSecret 300 1000 = .ok 1000 := by
      decide +kernel
    exact hexact.2.2 (injectiveCrypto_hmac_injective _) _ _ _ _ _ _ _ _ _ _ _ _
      (hsame.trans (congrArg (Except.map Prod.snd) hparse).symm) hok hsample

/-! ### What ends in another exception -/

/-- The combined format, with a timestamp that `int` does not read. -/
def OverlongTimestamp (signature : String) : Prop :=
  ∃ digits parsedSignature,
    stripeMatch (PyText.strip signature).toList = some (digits, parsedSignature) ∧
      4300 < digits.length

/-- A plain signature that `hmac.compare_digest` does not take, and that is compared. -/
def IncomparableSignature (signature : String) (timestamp : Option ℤ) (toleranceSeconds now : ℤ) :
    Prop :=
  stripeMatch (PyText.strip signature).toList = none ∧
    isAscii (PyText.strip signature) = false ∧
      ∃ t, timestamp = some t ∧ |now - t| ≤ toleranceSeconds

section

variable {crypto : Crypto} {payload : List UInt8} {signature : String} {timestamp : Option ℤ}
  {secret : String} {toleranceSeconds now : ℤ}

lemma computeTimestamped_eq_some {t : ℤ} (ht : (strOfInt t).isSome) :
    ∃ expected, computeTimestampedHmacSignature crypto t payload secret = some expected := by
  obtain ⟨text, htext⟩ := Option.isSome_iff_exists.1 ht
  rw [computeTimestampedHmacSignature, buildTimestampedSigningMessage, htext]
  exact ⟨_, rfl⟩

/-- Past its headers, a verification crashes on what it compares. -/
lemma verifyTimestamped_parsed_eq_crashes {header : Option ℤ × String} (hsecret : secret ≠ "")
    (hparse : parseWebhookSignatureHeader crypto signature = .ok header)
    (hstr : ∀ t ∈ timestamp.or header.1, (strOfInt t).isSome) :
    verifyTimestampedHmacSignature crypto payload signature timestamp secret toleranceSeconds now =
        .error .crashes ↔
      isAscii header.2 = false ∧ ∃ t, timestamp.or header.1 = some t ∧
        |now - t| ≤ toleranceSeconds := by
  cases ht : timestamp.or header.1 with
  | none =>
      rw [verifyTimestamped_untimed hsecret hparse ht]
      simp
  | some t =>
      rcases lt_or_ge toleranceSeconds |now - t| with hwindow | hwindow
      · rw [verifyTimestamped_outside hsecret hparse ht hwindow]
        simp [hwindow]
      · obtain ⟨expected, hexpected⟩ : ∃ expected,
            computeTimestampedHmacSignature crypto t payload secret = some expected :=
          computeTimestamped_eq_some (hstr t (by rw [ht]; rfl))
        rw [verifyTimestamped_compared hsecret hparse ht hwindow hexpected]
        cases hascii : isAscii header.2 with
        | false => simp [hwindow]
        | true => by_cases heq : expected = header.2 <;> simp [heq]

lemma verifyTimestamped_eq_crashes (hlower : LowersLatin1 crypto) (hsignature : IsLatin1 signature)
    (htimestamp : ∀ t ∈ timestamp, (strOfInt t).isSome) (hsecret : secret ≠ "") :
    verifyTimestampedHmacSignature crypto payload signature timestamp secret toleranceSeconds now =
        .error .crashes ↔
      OverlongTimestamp signature ∨
        IncomparableSignature signature timestamp toleranceSeconds now := by
  cases hmatch : stripeMatch (PyText.strip signature).toList with
  | none =>
      have hparse : parseWebhookSignatureHeader crypto signature =
          .ok (none, crypto.lower (PyText.strip signature)) := by
        simp only [parseWebhookSignatureHeader, hmatch]
      rw [verifyTimestamped_parsed_eq_crashes hsecret hparse (by simpa using htimestamp)]
      simp [OverlongTimestamp, IncomparableSignature, hmatch, isAscii_lower hlower hsignature.strip]
  | some found =>
      obtain ⟨digits, parsedSignature⟩ := found
      obtain ⟨hne, hdigits, hhex⟩ := stripeMatch_eq_some hmatch
      have hlong : OverlongTimestamp signature ↔ 4300 < digits.length := by
        simp [OverlongTimestamp, hmatch]
      have hplain : ¬ IncomparableSignature signature timestamp toleranceSeconds now := by
        simp [IncomparableSignature, hmatch]
      rw [hlong, or_iff_left hplain]
      cases hint : intOfText digits with
      | none =>
          have hparse : parseWebhookSignatureHeader crypto signature = .error .crashes := by
            simp only [parseWebhookSignatureHeader, hmatch, hint]
          rw [verifyTimestamped_unparsed hsecret hparse]
          have hdigits' := (intOfText_digits hne hdigits).not.1 (by simp [hint])
          simpa using hdigits'
      | some t =>
          have hshort : ¬ 4300 < digits.length :=
            not_lt.2 ((intOfText_digits hne hdigits).1 (by simp [hint]))
          rw [iff_false_right hshort]
          cases parsedSignature with
          | none =>
              have hparse : parseWebhookSignatureHeader crypto signature =
                  .error (.rejected "Webhook signature version is required") := by
                simp only [parseWebhookSignatureHeader, hmatch, hint]
              rw [verifyTimestamped_unparsed hsecret hparse]
              simp
          | some parsedSignature =>
              have hascii := isAscii_of_hex (hhex parsedSignature rfl)
              have hparse : parseWebhookSignatureHeader crypto signature =
                  .ok (some t, crypto.lower parsedSignature) := by
                simp only [parseWebhookSignatureHeader, hmatch, hint]
              rw [verifyTimestamped_parsed_eq_crashes hsecret hparse]
              · simp [isAscii_lower hlower (isLatin1_of_isAscii hascii), hascii]
              · intro u hu
                cases timestamp with
                | none => exact strOfInt_isSome (hint.trans hu)
                | some v => exact htimestamp u hu

end

/-- The timestamp header that `int` reads, or none. -/
def TimestampReadable (timestamp : Option String) : Prop :=
  ∀ text ∈ timestamp, (intOfText (PyText.strip text)).isSome

/-- The timestamp of the timestamp header. -/
def timestampHeader (timestamp : Option String) : Option ℤ :=
  timestamp.bind fun text => intOfText (PyText.strip text)

/-- A request whose headers end in an exception that is not a rejection: they reach the signature,
and it is one of the two kinds. -/
def UncaughtHeaders (signature timestamp : Option String) (secret : String)
    (toleranceSeconds now : ℤ) : Prop :=
  ∃ header, signature = some header ∧ TimestampReadable timestamp ∧ secret ≠ "" ∧
    (OverlongTimestamp header ∨
      IncomparableSignature header (timestampHeader timestamp) toleranceSeconds now)

/-- The verification returns, or answers with 401. -/
def ReturnsOrRejects (result : Except SignatureFailure ℤ) : Prop :=
  (∃ t, result = .ok t) ∨ ∃ message, result = .error (.rejected message)

lemma returnsOrRejects_iff {result : Except SignatureFailure ℤ} :
    ReturnsOrRejects result ↔ result ≠ .error .crashes := by
  rcases result with (_ | _) | _ <;> simp [ReturnsOrRejects]

/-- **A signature check fails only as 401, unless the headers are of two kinds**: a combined
header with a timestamp of more than 4300 digits, and a plain signature that is not ASCII, with a
timestamp in the window. -/
theorem verifyInbound_returnsOrRejects_iff {crypto : Crypto} {payload : List UInt8}
    {signature timestamp : Option String} {secret : String} {toleranceSeconds now : ℤ}
    (hlower : LowersLatin1 crypto) (hsignature : ∀ header ∈ signature, IsLatin1 header) :
    ReturnsOrRejects (verifyInboundWebhookSignature crypto payload signature timestamp secret
        toleranceSeconds now) ↔
      ¬ UncaughtHeaders signature timestamp secret toleranceSeconds now := by
  rw [returnsOrRejects_iff, not_iff_not]
  cases signature with
  | none => simp [verifyInboundWebhookSignature, UncaughtHeaders]
  | some header =>
      have hheader : IsLatin1 header := hsignature header rfl
      by_cases hsecret : secret = ""
      · subst hsecret
        refine iff_of_false ?_ (by simp [UncaughtHeaders])
        cases timestamp with
        | none => simp [verifyInboundWebhookSignature, verifyTimestampedHmacSignature]
        | some text =>
            cases hint : intOfText (PyText.strip text) <;>
              simp [verifyInboundWebhookSignature, verifyTimestampedHmacSignature, hint]
      · cases timestamp with
        | none =>
            rw [verifyInboundWebhookSignature, verifyTimestamped_eq_crashes hlower hheader
              (by simp) hsecret]
            simp [UncaughtHeaders, TimestampReadable, timestampHeader, hsecret]
        | some text =>
            simp only [verifyInboundWebhookSignature]
            cases hint : intOfText (PyText.strip text) with
            | none => simp [UncaughtHeaders, TimestampReadable, hint]
            | some t =>
                simp only []
                rw [verifyTimestamped_eq_crashes hlower hheader _ hsecret]
                · simp [UncaughtHeaders, TimestampReadable, timestampHeader, hsecret, hint]
                · rintro u ⟨⟩
                  exact strOfInt_isSome hint

theorem verifyInbound_returnsOrRejects_sample :
    ReturnsOrRejects (verifyInboundWebhookSignature loweringCrypto sampleRequest.body
        sampleRequest.signature sampleRequest.timestamp sampleSettings.signatureSecret 300 1000) ↔
      ¬ UncaughtHeaders sampleRequest.signature sampleRequest.timestamp
          sampleSettings.signatureSecret 300 1000 :=
  verifyInbound_returnsOrRejects_iff loweringCrypto_lowers (by
    rintro header ⟨⟩
    exact isLatin1_of_isAscii (by decide))

/-- A signature with one accented letter, and a timestamp of now. -/
theorem verifyInbound_accented_crashes :
    IsLatin1 "é" ∧
      ¬ ReturnsOrRejects (verifyInboundWebhookSignature loweringCrypto sampleRequest.body
        (some "é") (some "1000") sampleSettings.signatureSecret 300 1000) := by
  constructor
  · simp [IsLatin1]
  · rw [returnsOrRejects_iff, not_not]
    decide +kernel

end StarterBackend.Webhooks

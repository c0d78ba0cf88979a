/-
The keys of idempotency records: `build_scope_key` and `idempotency_lock_key`.

A key is the scope and the digest of the scope and the client's key, joined by a colon.  The
text under the digest can be read in several ways when the scope or the key has colons of its
own; the scope in front of the digest says which one is meant, because all digests have one
length.
-/
import StarterBackend.Webhooks.Inbound

namespace StarterBackend.Webhooks

open Lib App

variable {crypto : Crypto} {used : Set (List UInt8)} {scope scope' key key' : String}

/-- `build_scope_key`, with its check. -/
def checkedScopeKey (crypto : Crypto) (scope idempotencyKey : String) : Except AppError String :=
  if PyText.strip idempotencyKey = "" then .error (.badRequest "Idempotency-Key header is required")
  else .ok (buildScopeKey crypto scope idempotencyKey)

/-- What `build_scope_key` takes the digest of. -/
def scopeText (scope idempotencyKey : String) : List UInt8 :=
  (scope ++ ":" ++ PyText.strip idempotencyKey).toUTF8.data.toList

/-- The digests of some texts: they have one length, and no two of the texts share one. -/
structure Distinguishes (crypto : Crypto) (used : Set (List UInt8)) : Prop where
  length_eq : ∀ bytes, (crypto.sha256 bytes).length = 64
  injOn : Set.InjOn crypto.sha256 used

lemma checkedScopeKey_eq (h : PyText.strip key ≠ "") :
    checkedScopeKey crypto scope key = .ok (buildScopeKey crypto scope key) := if_neg h

/-- The route builds the key that the check lets through. -/
lemma checkedScopeKey_inbound {request : InboundRequest}
    (h : getIdempotencyKey request = some key) :
    checkedScopeKey crypto "webhooks:inbound" key = .ok (inboundScopeKey crypto key) := by
  obtain ⟨hkey, hne⟩ := Option.filter_eq_some_iff.1 h
  obtain ⟨header, -, rfl⟩ := Option.map_eq_some_iff.1 hkey
  refine checkedScopeKey_eq ?_
  rw [PyText.strip_strip]
  simpa using hne

lemma toUTF8_inj {s t : String} (h : s.toUTF8.data.toList = t.toUTF8.data.toList) : s = t := by
  refine String.toByteArray_inj.1 (ByteArray.ext ?_)
  exact Array.toList_inj.1 h

/-- Behind a known scope the text determines the key. -/
lemma strip_eq_of_scopeText (h : scopeText scope key = scopeText scope key') :
    PyText.strip key = PyText.strip key' := by
  exact (String.append_right_inj _).1 (toUTF8_inj h)

/-- A digest of fixed length is cut off from the scope in front of it. -/
lemma scope_and_digest (hlength : ∀ bytes, (crypto.sha256 bytes).length = 64)
    (h : buildScopeKey crypto scope key = buildScopeKey crypto scope' key') :
    scope = scope' ∧
      crypto.sha256 (scopeText scope key) = crypto.sha256 (scopeText scope' key') := by
  have htext := congrArg String.toList h
  simp only [buildScopeKey, String.toList_append] at htext
  obtain ⟨hscope, hdigest⟩ := List.append_inj' htext (by
    rw [String.length_toList, String.length_toList, hlength, hlength])
  exact ⟨String.toList_inj.1 (List.append_cancel_right hscope), String.toList_inj.1 hdigest⟩

/-- **A key names one scope and one key of a client.** -/
lemma buildScopeKey_eq_iff (hcrypto : Distinguishes crypto used) (h : scopeText scope key ∈ used)
    (h' : scopeText scope' key' ∈ used) :
    buildScopeKey crypto scope key = buildScopeKey crypto scope' key' ↔
      scope = scope' ∧ PyText.strip key = PyText.strip key' := by
  constructor
  · intro heq
    obtain ⟨rfl, hdigest⟩ := scope_and_digest hcrypto.length_eq heq
    exact ⟨rfl, strip_eq_of_scopeText (hcrypto.injOn h h' hdigest)⟩
  · rintro ⟨rfl, hstrip⟩
    rw [buildScopeKey, buildScopeKey, hstrip]

lemma idempotencyLockKey_inj {s t : String} : idempotencyLockKey s = idempotencyLockKey t ↔ s = t :=
  String.append_right_inj _

/-- Scope keys are unambiguous, and so are the keys of the locks: both are equal exactly for one
scope and one key of a client, whatever colons the scope and the key have of their own. -/
theorem scope_keys_unambiguous (crypto : Crypto) (used : Set (List UInt8))
    (hcrypto : Distinguishes crypto used) (scope scope' key key' : String)
    (hkey : PyText.strip key ≠ "") (hkey' : PyText.strip key' ≠ "")
    (h : scopeText scope key ∈ used) (h' : scopeText scope' key' ∈ used) :
    (checkedScopeKey crypto scope key = checkedScopeKey crypto scope' key' ↔
      scope = scope' ∧ PyText.strip key = PyText.strip key') ∧
    ((checkedScopeKey crypto scope key).map idempotencyLockKey =
        (checkedScopeKey crypto scope' key').map idempotencyLockKey ↔
      scope = scope' ∧ PyText.strip key = PyText.strip key') := by
  rw [checkedScopeKey_eq hkey, checkedScopeKey_eq hkey']
  constructor
  · rw [Except.ok.injEq]
    exact buildScopeKey_eq_iff hcrypto h h'
  · show Except.ok _ = Except.ok _ ↔ _
    rw [Except.ok.injEq, idempotencyLockKey_inj]
    exact buildScopeKey_eq_iff hcrypto h h'

/-- Hashing, with the digest of `a:b:c`. -/
def colonCrypto : Crypto :=
  { sampleCrypto with
    sha256 := fun _ => "b0ee04f880c4ff4261479e2e7822b7410aee4c7159f4185ad5b0d88a312b495e" }

/-- One text under the digest, read in two ways: the keys differ. -/
theorem scope_keys_unambiguous_colons :
    ¬ (checkedScopeKey colonCrypto "a" "b:c" = checkedScopeKey colonCrypto "a:b" "c") := by
  have hstrip : PyText.strip "b:c" = "b:c" ∧ PyText.strip "c" = "c" := by decide
  have htext : scopeText "a:b" "c" = scopeText "a" "b:c" := by
    rw [scopeText, scopeText, hstrip.1, hstrip.2]
    decide
  have hlength : (colonCrypto.sha256 []).length = 64 := by decide
  have hunambiguous := (scope_keys_unambiguous colonCrypto {scopeText "a" "b:c"}
    ⟨fun _ => hlength, Set.injOn_singleton _ _⟩ "a" "a:b" "b:c" "c" (by rw [hstrip.1]; decide)
    (by rw [hstrip.2]; decide) rfl htext).1
  rw [hunambiguous]
  exact fun h => absurd h.1 (by decide)

end StarterBackend.Webhooks

/-
The keys of stored objects: `build_object_key` and `ensure_object_key_belongs_to_owner`.

A key names the tenant, the owner, a fresh identifier and the filename.  The ids are
decimal numbers that end at the next slash, so a key belongs to one owner of one tenant;
the identifier is hexadecimal and ends at the first hyphen, so two identifiers never give
one key.
-/
import StarterBackend.Files.Validation

namespace StarterBackend.Files

open Lib App

/-! ### Identifiers -/

/-- The last `width` hexadecimal digits of a number. -/
def hexDigits : ℕ → ℕ → List Char
  | 0, _ => []
  | width + 1, n => hexDigits width (n / 16) ++ [Json.hexDigit (n % 16)]

/-- `uuid.UUID`. -/
structure Uuid where
  int : ℕ
  int_lt : int < 16 ^ 32

/-- `UUID.hex`. -/
def Uuid.hex (uuid : Uuid) : String := String.ofList (hexDigits 32 uuid.int)

lemma hexDigit_injOn : ∀ d < 16, ∀ e < 16, Json.hexDigit d = Json.hexDigit e → d = e := by decide

lemma hexDigits_inj {width n m : ℕ} (hn : n < 16 ^ width) (hm : m < 16 ^ width)
    (h : hexDigits width n = hexDigits width m) : n = m := by
  induction width generalizing n m with
  | zero =>
      rw [pow_zero] at hn hm
      omega
  | succ width ih =>
      obtain ⟨hinit, hlast⟩ := List.append_inj' h rfl
      rw [pow_succ] at hn hm
      have hdiv : n / 16 = m / 16 := ih (by omega) (by omega) hinit
      have hmod : n % 16 = m % 16 := hexDigit_injOn _ (Nat.mod_lt _ (by norm_num)) _
        (Nat.mod_lt _ (by norm_num)) (List.singleton_inj.1 hlast)
      omega

lemma mem_hexDigits {width n : ℕ} {c : Char} (hc : c ∈ hexDigits width n) :
    ∃ d < 16, c = Json.hexDigit d := by
  induction width generalizing n with
  | zero => nomatch hc
  | succ width ih =>
      rcases List.mem_append.1 hc with hc | hc
      · exact ih hc
      · exact ⟨n % 16, Nat.mod_lt _ (by norm_num), List.mem_singleton.1 hc⟩

/-- An identifier has no hyphen, and nothing that separates the parts of a path. -/
lemma Uuid.notMem_hex (uuid : Uuid) {c : Char} (hc : c = '-' ∨ c = '/' ∨ c = '\\') :
    c ∉ uuid.hex.toList := by
  intro hmem
  rw [Uuid.hex, String.toList_ofList] at hmem
  obtain ⟨d, hd, rfl⟩ := mem_hexDigits hmem
  have hnone : ∀ d < 16, ¬ (Json.hexDigit d = '-' ∨ Json.hexDigit d = '/' ∨
      Json.hexDigit d = '\\') := by decide
  exact hnone d hd hc

lemma Uuid.hex_injective : Function.Injective Uuid.hex := by
  rintro ⟨n, hn⟩ ⟨m, hm⟩ h
  obtain rfl := hexDigits_inj hn hm (String.ofList_injective h)
  rfl

/-! ### Keys -/

/-- `build_tenant_object_key_prefix`. -/
def buildTenantObjectKeyPrefix (tenantId : ℤ) : String := "tenants/" ++ tenantId.repr

/-- What the keys of an owner begin with. -/
def ownerPrefix (tenantId ownerId : ℤ) : String :=
  buildTenantObjectKeyPrefix tenantId ++ "/uploads/" ++ ownerId.repr ++ "/"

/-- The filename in a key. -/
def safeFilename (filename : String) : String :=
  PyText.replaceChar '\\' "_" (PyText.replaceChar '/' "_" filename)

/-- `build_object_key`, for a result of `uuid7`. -/
def buildObjectKey (tenantId ownerId : ℤ) (uuidHex filename : String) : String :=
  ownerPrefix tenantId ownerId ++ uuidHex ++ "-" ++ safeFilename filename

/-- `ensure_object_key_belongs_to_owner`. -/
def ensureObjectKeyBelongsToOwner (objectKey : String) (tenantId ownerId : ℤ) :
    Except AppError Unit :=
  if (ownerPrefix tenantId ownerId).toList.isPrefixOf objectKey.toList then .ok ()
  else .error (.badRequest "Invalid object key for current user")

section

variable {tenantId ownerId tenantId' ownerId' : ℤ} {objectKey filename name : String}

lemma belongs_iff : ensureObjectKeyBelongsToOwner objectKey tenantId ownerId = .ok () ↔
    (ownerPrefix tenantId ownerId).toList <+: objectKey.toList := by
  unfold ensureObjectKeyBelongsToOwner
  rw [← List.isPrefixOf_iff_prefix]
  split_ifs with h <;> simp [h]

/-- A number ends at the slash after it. -/
lemma slash_notMem_repr (n : ℤ) : '/' ∉ n.repr.toList := by
  intro hmem
  rcases PyText.mem_repr hmem with h | h
  · exact absurd h (by decide)
  · exact absurd h (by decide)

lemma toList_ownerPrefix : (ownerPrefix tenantId ownerId).toList =
    "tenants/".toList ++ (tenantId.repr.toList ++ '/' :: ("uploads/".toList ++
      (ownerId.repr.toList ++ ['/']))) := by
  have hsplit : "/uploads/".toList = '/' :: "uploads/".toList := by decide
  have hslash : "/".toList = ['/'] := by decide
  simp only [ownerPrefix, buildTenantObjectKeyPrefix, String.toList_append, hsplit, hslash,
    List.append_assoc, List.cons_append]

/-- **A key belongs to one owner of one tenant.** -/
lemma owner_unique (h : (ownerPrefix tenantId ownerId).toList <+: objectKey.toList)
    (h' : (ownerPrefix tenantId' ownerId').toList <+: objectKey.toList) :
    tenantId = tenantId' ∧ ownerId = ownerId' := by
  obtain ⟨rest, hrest⟩ := h
  obtain ⟨rest', hrest'⟩ := h'
  have heq := hrest.trans hrest'.symm
  simp only [toList_ownerPrefix, List.append_assoc, List.cons_append, List.append_cancel_left_eq]
    at heq
  obtain ⟨htenant, heq⟩ :=
    PyText.append_cons_inj (slash_notMem_repr _) (slash_notMem_repr _) heq
  obtain ⟨howner, -⟩ := PyText.append_cons_inj (slash_notMem_repr _) (slash_notMem_repr _)
    (List.append_cancel_left heq)
  exact ⟨PyText.repr_injective (String.toList_inj.1 htenant),
    PyText.repr_injective (String.toList_inj.1 howner)⟩

/-- What follows the owner in a key. -/
lemma toList_buildObjectKey (tenantId ownerId : ℤ) (uuidHex filename : String) :
    (buildObjectKey tenantId ownerId uuidHex filename).toList =
      (ownerPrefix tenantId ownerId).toList ++
        (uuidHex.toList ++ '-' :: (safeFilename filename).toList) := by
  have hhyphen : "-".toList = ['-'] := by decide
  simp only [buildObjectKey, String.toList_append, hhyphen, List.append_assoc, List.singleton_append]

lemma belongs_buildObjectKey (tenantId ownerId : ℤ) (uuidHex filename : String) :
    (ownerPrefix tenantId ownerId).toList <+:
      (buildObjectKey tenantId ownerId uuidHex filename).toList := by
  rw [toList_buildObjectKey]
  exact List.prefix_append ..

/-- Nothing is replaced in a filename without the character. -/
lemma replaceChar_eq_self {c : Char} {new s : String} (h : c ∉ s.toList) :
    PyText.replaceChar c new s = s := by
  have hall : s.toList.flatMap (fun d => if d = c then new.toList else [d]) =
      s.toList.flatMap fun d => [d] := by
    refine List.flatMap_congr fun d hd => ?_
    have hne : d ≠ c := by
      rintro rfl
      exact h hd
    rw [if_neg hne]
  rw [PyText.replaceChar, hall, List.flatMap_singleton', String.ofList_toList]

lemma safeFilename_of_accepted (h : validateUploadFilename filename = .ok name) :
    safeFilename name = name := by
  have hslash : '/' ∉ name.toList := notMem_of_accepted h (by decide)
  have hbackslash : '\\' ∉ name.toList := notMem_of_accepted h (by decide)
  rw [safeFilename, replaceChar_eq_self hslash, replaceChar_eq_self hbackslash]

end

/-- What is in no part of the rest of a key is not in it. -/
lemma notMem_rest {uuidHex name : String} {c : Char} (hhex : c ∉ uuidHex.toList)
    (hhyphen : c ∉ "-".toList) (hname : c ∉ name.toList) :
    c ∉ (uuidHex ++ "-" ++ name).toList := by
  simp only [String.toList_append, List.mem_append, not_or]
  exact ⟨⟨hhex, hhyphen⟩, hname⟩

/-- **The namespaces of object keys are disjoint.**  No key belongs to two owners; the key of a
filename that is accepted belongs to its own owner and to no other, and has no separator after
the owner; and two identifiers never give one key. -/
theorem objectKeys_disjoint :
    (∀ tenantId ownerId tenantId' ownerId' : ℤ, (tenantId, ownerId) ≠ (tenantId', ownerId') →
      ∀ objectKey, ¬ (ensureObjectKeyBelongsToOwner objectKey tenantId ownerId = .ok () ∧
        ensureObjectKeyBelongsToOwner objectKey tenantId' ownerId' = .ok ())) ∧
    (∀ (tenantId ownerId : ℤ) (uuid : Uuid) (filename name : String),
      validateUploadFilename filename = .ok name →
        (∀ tenantId' ownerId', ensureObjectKeyBelongsToOwner
            (buildObjectKey tenantId ownerId uuid.hex name) tenantId' ownerId' = .ok () ↔
          (tenantId', ownerId') = (tenantId, ownerId)) ∧
        ∃ rest : String, buildObjectKey tenantId ownerId uuid.hex name =
            ownerPrefix tenantId ownerId ++ rest ∧ '/' ∉ rest.toList ∧ '\\' ∉ rest.toList) ∧
    ∀ (tenantId ownerId tenantId' ownerId' : ℤ) (uuid uuid' : Uuid) (filename filename' : String),
      uuid ≠ uuid' → buildObjectKey tenantId ownerId uuid.hex filename ≠
        buildObjectKey tenantId' ownerId' uuid'.hex filename' := by
  refine ⟨?_, ?_, ?_⟩
  · rintro tenantId ownerId tenantId' ownerId' hne objectKey ⟨h, h'⟩
    obtain ⟨htenant, howner⟩ := owner_unique (belongs_iff.1 h) (belongs_iff.1 h')
    exact hne (Prod.ext htenant howner)
  · intro tenantId ownerId uuid filename name hname
    refine ⟨fun tenantId' ownerId' => ?_, uuid.hex ++ "-" ++ name, ?_, ?_, ?_⟩
    · rw [belongs_iff, Prod.mk.injEq]
      constructor
      · exact fun h => owner_unique h (belongs_buildObjectKey ..)
      · rintro ⟨rfl, rfl⟩
        exact belongs_buildObjectKey ..
    · rw [buildObjectKey, safeFilename_of_accepted hname, String.append_assoc, String.append_assoc,
        String.append_assoc]
    · exact notMem_rest (uuid.notMem_hex (.inr (.inl rfl))) (by decide)
        (notMem_of_accepted hname (by decide))
    · exact notMem_rest (uuid.notMem_hex (.inr (.inr rfl))) (by decide)
        (notMem_of_accepted hname (by decide))
  · intro tenantId ownerId tenantId' ownerId' uuid uuid' filename filename' hne heq
    have hbelongs := belongs_buildObjectKey tenantId ownerId uuid.hex filename
    rw [heq] at hbelongs
    obtain ⟨rfl, rfl⟩ : tenantId = tenantId' ∧ ownerId = ownerId' :=
      owner_unique hbelongs (belongs_buildObjectKey ..)
    have hlist := congrArg String.toList heq
    rw [toList_buildObjectKey, toList_buildObjectKey, List.append_cancel_left_eq] at hlist
    obtain ⟨hhex, -⟩ := PyText.append_cons_inj (uuid.notMem_hex (.inl rfl))
      (uuid'.notMem_hex (.inl rfl)) hlist
    exact hne (Uuid.hex_injective (String.toList_inj.1 hhex))

end StarterBackend.Files

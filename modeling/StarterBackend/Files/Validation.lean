/-
What is checked of an upload: `upload_metadata.py` and the checks of `file_validation.py`.
-/
import StarterBackend.App.Models
import StarterBackend.Lib.PyText
import Mathlib.Data.List.Infix

namespace StarterBackend.Files

open Lib App

/-! ### Names -/

def maxUploadFilenameLength : ℕ := 255

/-- What a filename must not contain. -/
def forbiddenParts : List String := ["\x00", "/", "\\", ".."]

/-- `validate_upload_filename`. -/
def validateUploadFilename (filename : String) : Except AppError String :=
  let normalizedFilename := PyText.strip filename
  if normalizedFilename = "" then .error (.badRequest "Filename is required")
  else if maxUploadFilenameLength < normalizedFilename.length then
    .error (.badRequest "Filename is too long")
  else if forbiddenParts.any fun part => decide (part.toList <:+: normalizedFilename.toList) then
    .error (.badRequest "Invalid filename")
  else .ok normalizedFilename

/-- What a filename that is accepted is like. -/
lemma validateUploadFilename_eq_ok {filename name : String}
    (h : validateUploadFilename filename = .ok name) :
    name = PyText.strip filename ∧ name ≠ "" ∧
      ∀ part ∈ forbiddenParts, ¬ part.toList <:+: name.toList := by
  unfold validateUploadFilename at h
  dsimp only at h
  split_ifs at h with hempty hlong hforbidden
  obtain rfl := Except.ok.inj h
  refine ⟨rfl, hempty, fun part hpart hinfix => hforbidden ?_⟩
  exact List.any_eq_true.2 ⟨part, hpart, decide_eq_true hinfix⟩

/-- A character that is forbidden is not in a filename that is accepted. -/
lemma notMem_of_accepted {filename name : String} (h : validateUploadFilename filename = .ok name)
    {c : Char} (hc : String.singleton c ∈ forbiddenParts) : c ∉ name.toList := fun hmem =>
  (validateUploadFilename_eq_ok h).2.2 _ hc (by
    rw [String.toList_singleton]
    exact (List.singleton_infix_iff c _).2 hmem)

/-! ### Content types -/

/-- `str.lower` of a character that `CONTENT_TYPE_PATTERN` can match afterwards: an ASCII letter, or
the Kelvin sign. -/
def lowerChar (c : Char) : Char := if c.toNat = 0x212A then 'k' else c.toLower

/-- `str.lower`, up to letters that it does not make ASCII. -/
def lower (s : String) : String := String.ofList (s.toList.map lowerChar)

/-- A character of one of the two parts in `CONTENT_TYPE_PATTERN`. -/
def isContentTypeChar (c : Char) : Bool :=
  c.isAlphanum || ['!', '#', '$', '&', '-', '^', '_', '.', '+'].elem c

/-- `CONTENT_TYPE_PATTERN.fullmatch`. -/
def contentTypeMatches (s : String) : Bool :=
  let type := s.toList.takeWhile isContentTypeChar
  let rest := s.toList.dropWhile isContentTypeChar
  !type.isEmpty &&
    match rest with
    | '/' :: subtype => !subtype.isEmpty && subtype.all isContentTypeChar
    | _ => false

/-- `validate_content_type_format`. -/
def validateContentTypeFormat (contentType : String) : Except AppError String :=
  let normalizedContentType := lower (PyText.strip contentType)
  if contentTypeMatches normalizedContentType then .ok normalizedContentType
  else .error (.badRequest "Invalid content type format")

/-- Where the characters of a content type are. -/
lemma toNat_of_isContentTypeChar {c : Char} (hc : isContentTypeChar c = true ∨ c = '/') :
    33 ≤ c.toNat ∧ c.toNat ≤ 122 ∧ c.toNat ≠ 59 := by
  rcases hc with hc | rfl
  · simp only [isContentTypeChar, Bool.or_eq_true, List.elem_eq_mem, decide_eq_true_eq,
      List.mem_cons, List.not_mem_nil, or_false, Char.isAlphanum, Char.isAlpha, Char.isUpper,
      Char.isLower, Char.isDigit, Bool.and_eq_true, UInt32.le_iff_toNat_le] at hc
    rcases hc with ((⟨hlow, hhigh⟩ | ⟨hlow, hhigh⟩) | ⟨hlow, hhigh⟩) |
      rfl | rfl | rfl | rfl | rfl | rfl | rfl | rfl | rfl
    · have hlow : 65 ≤ c.toNat := hlow
      have hhigh : c.toNat ≤ 90 := hhigh
      omega
    · have hlow : 97 ≤ c.toNat := hlow
      have hhigh : c.toNat ≤ 122 := hhigh
      omega
    · have hlow : 48 ≤ c.toNat := hlow
      have hhigh : c.toNat ≤ 57 := hhigh
      omega
    all_goals decide
  · decide

/-- The characters of a content type. -/
lemma isContentTypeChar_of_matches {s : String} (h : contentTypeMatches s = true) {c : Char}
    (hc : c ∈ s.toList) : isContentTypeChar c = true ∨ c = '/' := by
  simp only [contentTypeMatches, Bool.and_eq_true] at h
  rw [← List.takeWhile_append_dropWhile (p := isContentTypeChar) (l := s.toList),
    List.mem_append] at hc
  rcases hc with hc | hc
  · exact .inl (List.mem_takeWhile_imp hc)
  · have hrest := h.2
    split at hrest
    · rename_i subtype heq
      rw [heq, List.mem_cons] at hc
      rw [Bool.and_eq_true] at hrest
      rcases hc with rfl | hc
      · exact .inr rfl
      · exact .inl (List.all_eq_true.1 hrest.2 c hc)
    · nomatch hrest

/-- A capital letter moves out of the capital letters, and nothing else moves. -/
lemma toLower_cases (c : Char) : (¬ (65 ≤ c.toNat ∧ c.toNat ≤ 90) ∧ c.toLower = c) ∨
    (65 ≤ c.toNat ∧ c.toNat ≤ 90 ∧ c.toLower.toNat = c.toNat + 32) := by
  by_cases hupper : c.val ≥ 'A'.val ∧ c.val ≤ 'Z'.val
  · have hlow : 65 ≤ c.toNat := UInt32.le_iff_toNat_le.1 hupper.1
    have hhigh : c.toNat ≤ 90 := UInt32.le_iff_toNat_le.1 hupper.2
    refine .inr ⟨hlow, hhigh, ?_⟩
    rw [Char.toLower, dif_pos hupper]
    show (c.val + 32).toNat = c.val.toNat + 32
    have hval : c.val.toNat ≤ 90 := hhigh
    rw [UInt32.toNat_add]
    exact Nat.mod_eq_of_lt (by simp only [UInt32.reduceToNat]; omega)
  · refine .inl ⟨fun h => hupper ⟨UInt32.le_iff_toNat_le.2 h.1, UInt32.le_iff_toNat_le.2 h.2⟩, ?_⟩
    rw [Char.toLower, dif_neg hupper]

lemma lowerChar_lowerChar (c : Char) : lowerChar (lowerChar c) = lowerChar c := by
  by_cases hkelvin : c.toNat = 0x212A
  · have hc : lowerChar c = 'k' := if_pos hkelvin
    rw [hc]
    rfl
  · have hc : lowerChar c = c.toLower := if_neg hkelvin
    rw [hc]
    rcases toLower_cases c with ⟨-, heq⟩ | ⟨hlow, hhigh, heq⟩
    · rw [heq, hc, heq]
    · rw [lowerChar, if_neg (by omega)]
      rcases toLower_cases c.toLower with ⟨-, heq'⟩ | ⟨hlow', hhigh', -⟩
      · exact heq'
      · omega

lemma lower_lower (s : String) : lower (lower s) = lower s := by
  simp only [lower, String.toList_ofList, List.map_map, String.ofList_inj]
  exact List.map_congr_left fun c _ => lowerChar_lowerChar c

/-- What a content type that is accepted is like. -/
lemma validateContentTypeFormat_eq_ok {contentType type : String}
    (h : validateContentTypeFormat contentType = .ok type) :
    type = lower (PyText.strip contentType) ∧ contentTypeMatches type = true := by
  unfold validateContentTypeFormat at h
  dsimp only at h
  split_ifs at h with hmatches
  obtain rfl := Except.ok.inj h
  exact ⟨rfl, hmatches⟩

/-- `value.split(separator)`. -/
def split (separator : Char) (value : String) : List String :=
  (value.toList.splitOn separator).map String.ofList

/-- The content types of `settings.upload_allowed_content_types`. -/
def allowedContentTypes (setting : String) : List String :=
  ((split ',' setting).filter fun value => PyText.strip value ≠ "").map fun value =>
    lower (PyText.strip value)

/-- `validate_declared_content_type`. -/
def validateDeclaredContentType (setting contentType : String) : Except AppError String := do
  let normalizedContentType ← validateContentTypeFormat contentType
  if normalizedContentType ∈ allowedContentTypes setting then .ok normalizedContentType
  else .error (.badRequest "Unsupported file type")

/-! ### Contents -/

/-- `CONTENT_SIGNATURES`. -/
def contentSignatures : List (String × List (List UInt8)) :=
  [("application/pdf", [[0x25, 0x50, 0x44, 0x46]]),
    ("image/png", [[0x89, 0x50, 0x4E, 0x47, 0x0D, 0x0A, 0x1A, 0x0A]]),
    ("image/jpeg", [[0xFF, 0xD8, 0xFF]])]

/-- `sniff_content_type`. -/
def sniffContentType (body : List UInt8) : Option String :=
  (contentSignatures.find? fun entry => entry.2.any fun signature =>
    signature.isPrefixOf body).map Prod.fst

/-- `validate_content_sniff`. -/
def validateContentSniff (declaredContentType : String) (body : List UInt8) :
    Except AppError Unit :=
  if sniffContentType body = some declaredContentType then .ok ()
  else .error (.badRequest "File content does not match declared content type")

/-- `validate_file_size`. -/
def validateFileSize (maxSizeBytes : ℕ) (sizeBytes : ℤ) : Except AppError Unit :=
  if (maxSizeBytes : ℤ) < sizeBytes then .error (.payloadTooLarge "File too large") else .ok ()

end StarterBackend.Files

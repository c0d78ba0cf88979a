/-
The identifiers of `ids.py`.

The fallback of `uuid7` puts five fields into one word: the milliseconds of the clock, the
version, twelve random bits, the variant and sixty-two random bits.  As a word of bit fields
(`uuidInt_eq_word`) it is below the bound that `uuid.UUID` checks, its fields are read back
as they were written, and the clock decides the order of two identifiers.
-/
import StarterBackend.Lib.BitFields
import StarterBackend.Files.ObjectKeys

namespace StarterBackend.Files

open Lib BitFields

/-- `timestamp_ms`, for a reading of `time.time_ns()`. -/
def timestampMs (timeNs : ℤ) : ℕ := (Int.land (timeNs / 1000000) (1 <<< 48 - 1)).toNat

/-- `uuid_int`. -/
def uuidInt (timeNs : ℤ) (randomA : BitVec 12) (randomB : BitVec 62) : ℕ :=
  timestampMs timeNs <<< 80 ||| 0x7 <<< 76 ||| randomA.toNat <<< 64 ||| 0b10 <<< 62 |||
    randomB.toNat

/-- `uuid.UUID(int=int)`; `none` is its `ValueError`. -/
def Uuid.ofInt (int : ℕ) : Option Uuid := if h : int < 16 ^ 32 then some ⟨int, h⟩ else none

/-- `uuid7`, with the result of `uuid.uuid7` where the library has that function. -/
def Uuid.uuid7 (stdlibUuid7 : Option Uuid) (timeNs : ℤ) (randomA : BitVec 12) (randomB : BitVec 62) :
    Option Uuid :=
  match stdlibUuid7 with
  | some value => some value
  | none => Uuid.ofInt (uuidInt timeNs randomA randomB)

namespace Uuid

/-! ### The fields of an identifier -/

/-- The highest 48 bits. -/
def timestamp (uuid : Uuid) : ℕ := uuid.int >>> 80

/-- The field that `UUID.version` shows. -/
def versionField (uuid : Uuid) : ℕ := uuid.int >>> 76 % 2 ^ 4

/-- The 12 bits below the version. -/
def randA (uuid : Uuid) : ℕ := uuid.int >>> 64 % 2 ^ 12

/-- The two bits that `UUID.variant` reads first. -/
def variantBits (uuid : Uuid) : ℕ := uuid.int >>> 62 % 2 ^ 2

/-- The lowest 62 bits. -/
def randB (uuid : Uuid) : ℕ := uuid.int % 2 ^ 62

end Uuid

/-! ### The word -/

variable {timeNs : ℤ} {randomA : BitVec 12} {randomB : BitVec 62}

/-- The timestamp counts milliseconds, modulo its 48 bits. -/
lemma timestampMs_eq : (timestampMs timeNs : ℤ) = timeNs / 1000000 % 2 ^ 48 := by
  have hmask : (1 <<< 48 - 1 : ℤ) = 2 ^ 48 - 1 := by simp
  rw [timestampMs, hmask, land_mask, Int.toNat_of_nonneg (Int.emod_nonneg _ (by norm_num))]

lemma timestampMs_lt (timeNs : ℤ) : timestampMs timeNs < 2 ^ 48 := by
  have h := Int.emod_lt_of_pos (timeNs / 1000000) (show (0 : ℤ) < 2 ^ 48 by norm_num)
  rw [← timestampMs_eq] at h
  exact_mod_cast h

/-- The field of the clock. -/
def clockField (timeNs : ℤ) : BitField := ⟨48, timestampMs timeNs, timestampMs_lt timeNs⟩

/-- The fields below the clock. -/
def lowerFields (randomA : BitVec 12) (randomB : BitVec 62) : List BitField :=
  [⟨4, 0x7, by norm_num⟩, ⟨12, randomA.toNat, randomA.isLt⟩, ⟨2, 0b10, by norm_num⟩,
    ⟨62, randomB.toNat, randomB.isLt⟩]

lemma totalWidth_lowerFields : totalWidth (lowerFields randomA randomB) = 80 := rfl

/-- The shifts of the source are those of the five fields. -/
lemma uuidInt_eq_word : uuidInt timeNs randomA randomB =
    word (clockField timeNs :: lowerFields randomA randomB) := by
  simp [uuidInt, word, clockField, lowerFields, Nat.or_assoc]

lemma uuidInt_lt : uuidInt timeNs randomA randomB < 2 ^ 128 := by
  rw [uuidInt_eq_word]
  exact word_lt _

/-- The fallback gives an identifier. -/
lemma uuid7_none (timeNs : ℤ) (randomA : BitVec 12) (randomB : BitVec 62) :
    ∃ uuid, Uuid.uuid7 none timeNs randomA randomB = some uuid ∧
    uuid.int = word (clockField timeNs :: lowerFields randomA randomB) := by
  have hlt : uuidInt timeNs randomA randomB < 16 ^ 32 := uuidInt_lt.trans_eq (by norm_num)
  exact ⟨⟨_, hlt⟩, dif_pos hlt, uuidInt_eq_word⟩

/-- The identifiers of the fallback are well formed: the fields of an identifier are the clock,
version seven, the variant of the standard and the random bits that it was made of.  Of two
identifiers the one with the earlier clock is the smaller one. -/
theorem uuid7_fields_and_order :
    (∀ (timeNs : ℤ) (randomA : BitVec 12) (randomB : BitVec 62),
      ∃ uuid, Uuid.uuid7 none timeNs randomA randomB = some uuid ∧ uuid.int < 2 ^ 128 ∧
        uuid.versionField = 7 ∧ uuid.variantBits = 0b10 ∧
        (uuid.timestamp : ℤ) = timeNs / 1000000 % 2 ^ 48 ∧
        uuid.randA = randomA.toNat ∧ uuid.randB = randomB.toNat) ∧
    ∀ (timeNs timeNs' : ℤ) (randomA randomA' : BitVec 12) (randomB randomB' : BitVec 62)
      (uuid uuid' : Uuid), Uuid.uuid7 none timeNs randomA randomB = some uuid →
      Uuid.uuid7 none timeNs' randomA' randomB' = some uuid' →
      timeNs / 1000000 % 2 ^ 48 < timeNs' / 1000000 % 2 ^ 48 → uuid.int < uuid'.int := by
  constructor
  · intro timeNs randomA randomB
    obtain ⟨uuid, huuid, hint⟩ := uuid7_none timeNs randomA randomB
    refine ⟨uuid, huuid, ?_, ?_, ?_, ?_, ?_, ?_⟩
    · rw [hint]
      exact word_lt _
    · rw [Uuid.versionField, hint]
      exact word_read [clockField timeNs] _ (_ :: _)
    · rw [Uuid.variantBits, hint]
      exact word_read [clockField timeNs, _, _] _ (_ :: _)
    · rw [Uuid.timestamp, hint, ← timestampMs_eq, Nat.cast_inj]
      exact (word_shiftRight [clockField timeNs] _).trans word_singleton
    · rw [Uuid.randA, hint]
      exact word_read [clockField timeNs, _] _ (_ :: _)
    · rw [Uuid.randB, hint]
      exact (word_mod [clockField timeNs, _, _, _] _).trans word_singleton
  · intro timeNs timeNs' randomA randomA' randomB randomB' uuid uuid' h h' hlt
    obtain ⟨_, hfirst, hint⟩ := uuid7_none timeNs randomA randomB
    obtain ⟨_, hsecond, hint'⟩ := uuid7_none timeNs' randomA' randomB'
    obtain rfl := Option.some.inj (hfirst.symm.trans h)
    obtain rfl := Option.some.inj (hsecond.symm.trans h')
    rw [hint, hint']
    refine word_lt_word rfl ?_
    rw [← timestampMs_eq, ← timestampMs_eq] at hlt
    exact_mod_cast hlt

/-- The first millisecond with all random bits set, and the second one with none. -/
theorem uuid7_fields_and_order_two : ∃ uuid uuid', Uuid.uuid7 none 0 (-1) (-1) = some uuid ∧
    Uuid.uuid7 none 1999999 0 0 = some uuid' ∧ uuid.int < uuid'.int := by
  obtain ⟨uuid, huuid, -⟩ := uuid7_fields_and_order.1 0 (-1) (-1)
  obtain ⟨uuid', huuid', -⟩ := uuid7_fields_and_order.1 1999999 0 0
  exact ⟨uuid, uuid', huuid, huuid',
    uuid7_fields_and_order.2 _ _ _ _ _ _ _ _ huuid huuid' (by decide)⟩

end StarterBackend.Files

/-
Words that are put together from fields of bits, the highest field first.

A field carries the bound of its value, so no field reaches into the one above it: the
word of some fields is below the power of two of their widths (`word_lt`), each field is
read back by a shift and a mask (`word_read`), and of two words with the same layout the
one with the smaller first field is the smaller one (`word_lt_word`).
-/
import Mathlib.Data.Nat.Bitwise
import Mathlib.Data.Int.Bitwise
import Mathlib.Tactic

namespace StarterBackend.Lib.BitFields

/-- A field: the number of its bits, and its value. -/
structure BitField where
  width : ℕ
  value : ℕ
  value_lt : value < 2 ^ width

/-- The number of bits of some fields. -/
def totalWidth (fields : List BitField) : ℕ := (fields.map BitField.width).sum

/-- The fields, each shifted over the ones below it. -/
def word : List BitField → ℕ
  | [] => 0
  | f :: fields => f.value <<< totalWidth fields ||| word fields

variable {f g : BitField} {fields above below : List BitField}

@[simp] lemma totalWidth_nil : totalWidth [] = 0 := rfl

@[simp] lemma totalWidth_cons : totalWidth (f :: fields) = f.width + totalWidth fields := by
  simp [totalWidth]

@[simp] lemma totalWidth_append :
    totalWidth (above ++ below) = totalWidth above + totalWidth below := by
  simp [totalWidth]

/-- No field reaches over the others. -/
theorem word_lt (fields : List BitField) : word fields < 2 ^ totalWidth fields := by
  induction fields with
  | nil => simp [word]
  | cons f fields ih =>
      rw [word, totalWidth_cons]
      refine Nat.or_lt_two_pow ?_ (ih.trans_le (Nat.pow_le_pow_right two_pos (by omega)))
      rw [Nat.shiftLeft_eq, pow_add]
      exact Nat.mul_lt_mul_of_pos_right f.value_lt (by positivity)

/-- Shifted fields do not overlap, so their union is their sum. -/
lemma word_cons : word (f :: fields) = f.value * 2 ^ totalWidth fields + word fields := by
  rw [word, ← Nat.shiftLeft_add_eq_or_of_lt (word_lt fields), Nat.shiftLeft_eq]

lemma word_append :
    word (above ++ below) = word above * 2 ^ totalWidth below + word below := by
  induction above with
  | nil => simp [word]
  | cons f above ih =>
      rw [List.cons_append, word_cons, word_cons, ih, totalWidth_append, pow_add]
      ring

/-- A shift leaves the fields above. -/
lemma word_shiftRight (above below : List BitField) :
    word (above ++ below) >>> totalWidth below = word above := by
  rw [Nat.shiftRight_eq_div_pow, word_append, mul_comm, Nat.mul_add_div (by positivity),
    Nat.div_eq_of_lt (word_lt below), add_zero]

/-- A mask leaves the fields below. -/
lemma word_mod (above below : List BitField) :
    word (above ++ below) % 2 ^ totalWidth below = word below := by
  rw [word_append, Nat.mul_add_mod', Nat.mod_eq_of_lt (word_lt below)]

@[simp] lemma word_singleton : word [f] = f.value := by simp [word]

/-- **Each field is read back** by a shift over the fields below it and a mask. -/
theorem word_read (above : List BitField) (f : BitField) (below : List BitField) :
    word (above ++ f :: below) >>> totalWidth below % 2 ^ f.width = f.value := by
  have hsplit : above ++ f :: below = (above ++ [f]) ++ below := by simp
  have hwidth : f.width = totalWidth [f] := by simp
  rw [hsplit, word_shiftRight, hwidth, word_mod, word_singleton]

/-- **Words are ordered by their first field**, whatever stands below it. -/
theorem word_lt_word {fields' : List BitField} (hwidth : totalWidth fields = totalWidth fields')
    (hlt : f.value < g.value) : word (f :: fields) < word (g :: fields') := by
  calc word (f :: fields) < f.value * 2 ^ totalWidth fields + 2 ^ totalWidth fields := by
        rw [word_cons]
        exact Nat.add_lt_add_left (word_lt fields) _
    _ = (f.value + 1) * 2 ^ totalWidth fields := by ring
    _ ≤ g.value * 2 ^ totalWidth fields := Nat.mul_le_mul_right _ hlt
    _ ≤ word (g :: fields') := by
        rw [word_cons, hwidth]
        exact Nat.le_add_right _ _

/-! ### Masks of integers -/

lemma ldiff_mask (w m : ℕ) : Nat.ldiff (2 ^ w - 1) m = 2 ^ w - (m % 2 ^ w + 1) := by
  refine Nat.eq_of_testBit_eq fun i => ?_
  rw [Nat.testBit_ldiff, Nat.testBit_two_pow_sub_one,
    Nat.testBit_two_pow_sub_succ (Nat.mod_lt _ (by positivity)), Nat.testBit_mod_two_pow]
  by_cases h : i < w <;> simp [h]

/-- A mask of `w` bits is the remainder by `2 ^ w`, also of a negative number. -/
theorem land_mask (n : ℤ) (w : ℕ) : Int.land n (2 ^ w - 1) = n % 2 ^ w := by
  have hmask : (2 ^ w - 1 : ℤ) = ((2 ^ w - 1 : ℕ) : ℤ) := by
    rw [Nat.cast_sub Nat.one_le_two_pow]
    simp
  rw [hmask]
  cases n with
  | ofNat m =>
      show ((m &&& (2 ^ w - 1) : ℕ) : ℤ) = _
      rw [Nat.and_two_pow_sub_one_eq_mod]
      simp
  | negSucc m =>
      show ((Nat.ldiff (2 ^ w - 1) m : ℕ) : ℤ) = _
      rw [ldiff_mask, Int.negSucc_emod _ (by positivity),
        Nat.cast_sub (Nat.mod_lt _ (by positivity))]
      push_cast
      ring

end StarterBackend.Lib.BitFields

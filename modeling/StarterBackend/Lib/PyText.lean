/-
Texts as Python reads them: `str.strip` and `int(text)`.

`int` accepts blanks around a number, a sign, and single underscores between digits.
`parseInt_intRepr` says that it reads back what `str` writes.  Only the ASCII digits are
read as digits.
-/
import Mathlib.Data.List.DropRight
import Mathlib.Tactic.Ring
import Mathlib.Tactic.Common
import Mathlib.Data.Nat.Digits.Defs

namespace StarterBackend.Lib.PyText

/-- `str.isspace` of one character. -/
def isSpace (c : Char) : Bool :=
  let n := c.toNat
  (9 ≤ n && n ≤ 13) || (28 ≤ n && n ≤ 32) || n == 0x85 || n == 0xA0 || n == 0x1680 ||
    (0x2000 ≤ n && n ≤ 0x200A) || n == 0x2028 || n == 0x2029 || n == 0x202F || n == 0x205F ||
    n == 0x3000

/-- The characters without the blanks at both ends. -/
def stripped (cs : List Char) : List Char := (cs.dropWhile isSpace).rdropWhile isSpace

/-- `str.replace` of one character. -/
def replaceChar (old : Char) (new s : String) : String :=
  String.ofList (s.toList.flatMap fun c => if c = old then new.toList else [c])

/-- `str.strip`. -/
def strip (s : String) : String := String.ofList (stripped s.toList)

/-- `str.lower` of a Latin-1 character. -/
def lowerLatin1 (c : Char) : Char :=
  if ('A' ≤ c ∧ c ≤ 'Z') ∨ (0xC0 ≤ c.toNat ∧ c.toNat ≤ 0xDE ∧ c.toNat ≠ 0xD7) then
    Char.ofNat (c.toNat + 32)
  else c

/-- The digits that follow a digit, with the value read so far. -/
def readDigits : ℕ → List Char → Option ℕ
  | value, [] => some value
  | value, '_' :: c :: cs =>
      if c.isDigit then readDigits (10 * value + (c.toNat - '0'.toNat)) cs else none
  | value, c :: cs =>
      if c.isDigit then readDigits (10 * value + (c.toNat - '0'.toNat)) cs else none

/-- A nonnegative number without a sign. -/
def readNat : List Char → Option ℕ
  | [] => none
  | c :: cs => if c.isDigit then readDigits (c.toNat - '0'.toNat) cs else none

/-- A number with an optional sign. -/
def readInt : List Char → Option ℤ
  | '-' :: cs => (readNat cs).map fun n : ℕ => -(n : ℤ)
  | '+' :: cs => (readNat cs).map Int.ofNat
  | cs => (readNat cs).map Int.ofNat

/-- `int(text)`; `none` is the `ValueError`. -/
def parseInt (s : String) : Option ℤ := readInt (stripped s.toList)

lemma readDigits_eq_ofDigitChars {cs : List Char} (hcs : ∀ c ∈ cs, c.isDigit = true) (value : ℕ) :
    readDigits value cs = some (Nat.ofDigitChars 10 cs value) := by
  induction cs generalizing value with
  | nil => simp [readDigits]
  | cons c cs ih =>
      have hc : c.isDigit = true := hcs c (by simp)
      have hne : c ≠ '_' := by
        rintro rfl
        exact absurd hc (by decide)
      have hstep : readDigits value (c :: cs) =
          readDigits (10 * value + (c.toNat - '0'.toNat)) cs := by
        rw [readDigits, if_pos hc]
        rintro d ds rfl
        exact absurd rfl hne
      rw [hstep, ih fun d hd => hcs d (by simp [hd]), Nat.ofDigitChars_cons]

lemma isSpace_eq_false {c : Char} (hc : c.isDigit = true) : isSpace c = false := by
  have h : 48 ≤ c.toNat ∧ c.toNat ≤ 57 := by
    simp only [Char.isDigit, Bool.and_eq_true, decide_eq_true_eq, UInt32.le_iff_toNat_le] at hc
    exact ⟨hc.1, hc.2⟩
  simp only [isSpace, Bool.or_eq_false_iff, Bool.and_eq_false_iff, decide_eq_false_iff_not,
    beq_eq_false_iff_ne]
  omega

/-- Digits have no blanks around them. -/
lemma stripped_eq_self {cs : List Char} (hcs : ∀ c ∈ cs, isSpace c = false) : stripped cs = cs := by
  have hdrop : cs.dropWhile isSpace = cs := by
    cases cs with
    | nil => rfl
    | cons c cs => simp [hcs c (by simp)]
  rw [stripped, hdrop, List.rdropWhile_eq_self_iff]
  intro hne
  simp [hcs _ (List.getLast_mem hne)]

lemma readInt_digits {cs : List Char} (hcs : ∀ c ∈ cs, c.isDigit = true) :
    readInt cs = (readNat cs).map Int.ofNat := by
  unfold readInt
  split
  · exact absurd (hcs '-' (by simp)) (by decide)
  · exact absurd (hcs '+' (by simp)) (by decide)
  · rfl

/-- `strip` leaves nothing to strip. -/
lemma stripped_idem (cs : List Char) : stripped (stripped cs) = stripped cs := by
  have hdrop : (stripped cs).dropWhile isSpace = stripped cs := by
    rcases hcs : stripped cs with _ | ⟨c, tail⟩
    · rfl
    · have hinitial : c :: tail <+: cs.dropWhile isSpace := hcs ▸ List.rdropWhile_prefix ..
      obtain ⟨after, hafter⟩ := hinitial
      have hne : cs.dropWhile isSpace ≠ [] := by simp [← hafter]
      have hhead := List.head_dropWhile_not isSpace hne
      simp only [← hafter, List.cons_append, List.head_cons] at hhead
      exact List.dropWhile_cons_of_neg (by simp [hhead])
  conv_lhs => rw [stripped, hdrop]
  exact List.rdropWhile_idempotent ..

lemma strip_strip (s : String) : strip (strip s) = strip s := by
  rw [strip, strip, String.toList_ofList, stripped_idem]

/-- Blanks around a text without blanks at its ends. -/
lemma stripped_append {before cs after : List Char} (hbefore : ∀ c ∈ before, isSpace c = true)
    (hafter : ∀ c ∈ after, isSpace c = true) (hcs : ∀ c ∈ cs, isSpace c = false) :
    stripped (before ++ cs ++ after) = cs := by
  rw [stripped, List.append_assoc, List.dropWhile_append_of_pos hbefore]
  cases cs with
  | nil =>
      have h : after.dropWhile isSpace = [] := List.dropWhile_eq_nil_iff.2 hafter
      rw [List.nil_append, h]
      rfl
  | cons c cs =>
      rw [List.cons_append, List.dropWhile_cons_of_neg (by simp [hcs c (by simp)]),
        ← List.cons_append, List.rdropWhile, List.reverse_append,
        List.dropWhile_append_of_pos fun a ha => hafter a (List.mem_reverse.1 ha),
        ← List.rdropWhile, List.rdropWhile_eq_self_iff]
      intro hne
      simp [hcs _ (List.getLast_mem hne)]

lemma readNat_toDigits (n : ℕ) : readNat (Nat.toDigits 10 n) = some n := by
  have hdigit : ∀ c ∈ Nat.toDigits 10 n, c.isDigit = true := fun c hc =>
    Nat.isDigit_of_mem_toDigits (by norm_num) (by norm_num) hc
  obtain ⟨c, cs, hcs⟩ := List.exists_cons_of_ne_nil (Nat.toDigits_ne_nil (n := n) (b := 10))
  rw [hcs] at hdigit
  have hvalue : Nat.ofDigitChars 10 cs (c.toNat - '0'.toNat) = n := by
    have h := Nat.ofDigitChars_ten_toDigits (n := n)
    rw [hcs, Nat.ofDigitChars_cons] at h
    simpa using h
  rw [hcs, readNat, if_pos (hdigit c (by simp)),
    readDigits_eq_ofDigitChars (fun d hd => hdigit d (by simp [hd])), hvalue]

/-- The characters that `str` writes for an integer. -/
lemma mem_repr {n : ℤ} {c : Char} (hc : c ∈ n.repr.toList) : c = '-' ∨ c.isDigit = true := by
  cases n with
  | ofNat n =>
      rw [Int.repr, Nat.toList_repr] at hc
      exact .inr (Nat.isDigit_of_mem_toDigits (by norm_num) (by norm_num) hc)
  | negSucc n =>
      rw [Int.repr, String.toList_append, Nat.toList_repr] at hc
      rcases List.mem_append.1 hc with hc | hc
      · exact .inl (by simpa using hc)
      · exact .inr (Nat.isDigit_of_mem_toDigits (by norm_num) (by norm_num) hc)

theorem readInt_repr (n : ℤ) : readInt n.repr.toList = some n := by
  cases n with
  | ofNat n =>
      rw [Int.repr, Nat.toList_repr, readInt_digits fun c hc =>
        Nat.isDigit_of_mem_toDigits (by norm_num) (by norm_num) hc, readNat_toDigits]
      rfl
  | negSucc n =>
      rw [Int.repr, String.toList_append, Nat.toList_repr]
      have hcons : "-".toList = ['-'] := rfl
      rw [hcons, List.singleton_append, readInt, readNat_toDigits, Option.map_some,
        Int.negSucc_eq, Nat.succ_eq_add_one, Nat.cast_add, Nat.cast_one]

/-- **`int` reads back what `str` writes.** -/
theorem parseInt_intRepr (n : ℤ) : parseInt n.repr = some n := by
  rw [parseInt, stripped_eq_self, readInt_repr]
  intro c hc
  rcases mem_repr hc with rfl | hdigit
  · rfl
  · exact isSpace_eq_false hdigit

lemma parseInt_repr (n : ℕ) : parseInt n.repr = some (n : ℤ) := parseInt_intRepr n

lemma repr_injective : Function.Injective Int.repr := fun m n h => Option.some.inj
  ((parseInt_intRepr m).symm.trans ((congrArg parseInt h).trans (parseInt_intRepr n)))

/-! ### How long numbers are -/

lemma digit_lt {c : Char} (hc : c.isDigit = true) : c.toNat - '0'.toNat < 10 := by
  have h : 48 ≤ c.toNat ∧ c.toNat ≤ 57 := by
    simp only [Char.isDigit, Bool.and_eq_true, decide_eq_true_eq, UInt32.le_iff_toNat_le] at hc
    exact ⟨hc.1, hc.2⟩
  have hzero : '0'.toNat = 48 := rfl
  omega

/-- The number of digits bounds the number. -/
lemma readDigits_lt {cs : List Char} {value n : ℕ} (h : readDigits value cs = some n) :
    n < (value + 1) * 10 ^ (cs.filter Char.isDigit).length := by
  -- one more digit `d` makes the value `10 * value + d`, below `10 * (value + 1)`
  have hdigit : ∀ {value : ℕ} {c : Char} {cs : List Char}, c.isDigit = true →
      n < (10 * value + (c.toNat - '0'.toNat) + 1) * 10 ^ (cs.filter Char.isDigit).length →
      n < (value + 1) * 10 ^ ((c :: cs).filter Char.isDigit).length := by
    intro value c cs hc hlt
    rw [List.filter_cons_of_pos hc, List.length_cons, pow_succ']
    calc n < (10 * value + (c.toNat - '0'.toNat) + 1) * 10 ^ (cs.filter Char.isDigit).length := hlt
      _ ≤ (10 * (value + 1)) * 10 ^ (cs.filter Char.isDigit).length :=
          Nat.mul_le_mul_right _ (by have := digit_lt hc; omega)
      _ = (value + 1) * (10 * 10 ^ (cs.filter Char.isDigit).length) := by ring
  fun_induction readDigits value cs with
  | case1 value =>
      obtain rfl := Option.some.inj h
      simp
  | case2 value c cs hc ih =>
      rw [List.filter_cons_of_neg (by decide)]
      exact hdigit hc (ih h)
  | case3 => cases h
  | case4 value c cs hne hc ih => exact hdigit hc (ih h)
  | case5 => cases h

lemma readNat_lt {cs : List Char} {n : ℕ} (h : readNat cs = some n) :
    n < 10 ^ (cs.filter Char.isDigit).length := by
  cases cs with
  | nil => cases h
  | cons c cs =>
      rw [readNat] at h
      split at h
      · rename_i hc
        rw [List.filter_cons_of_pos hc, List.length_cons, pow_succ']
        exact (readDigits_lt h).trans_le (Nat.mul_le_mul_right _ (digit_lt hc))
      · cases h

lemma readInt_natAbs_lt {cs : List Char} {n : ℤ} (h : readInt cs = some n) :
    n.natAbs < 10 ^ (cs.filter Char.isDigit).length := by
  unfold readInt at h
  split at h <;> obtain ⟨m, hm, rfl⟩ := Option.map_eq_some_iff.1 h
  · rw [List.filter_cons_of_neg (by decide), Int.natAbs_neg, Int.natAbs_natCast]
    exact readNat_lt hm
  · rw [List.filter_cons_of_neg (by decide)]
    exact readNat_lt hm
  · exact readNat_lt hm

/-- `strip` takes characters away. -/
lemma stripped_sublist (cs : List Char) : (stripped cs).Sublist cs :=
  (List.rdropWhile_prefix ..).sublist.trans (List.dropWhile_sublist _)

lemma parseInt_natAbs_lt {s : String} {n : ℤ} (h : parseInt s = some n) :
    n.natAbs < 10 ^ (s.toList.filter Char.isDigit).length :=
  (readInt_natAbs_lt h).trans_le
    (Nat.pow_le_pow_right (by norm_num) ((stripped_sublist _).filter _).length_le)

/-- `str` writes no more digits than `int` has read. -/
lemma length_repr_le {s : String} {n : ℤ} {k : ℕ} (h : parseInt s = some n)
    (hk : (s.toList.filter Char.isDigit).length ≤ k) (hpos : 0 < k) :
    n.natAbs.repr.length ≤ k := by
  rw [← String.length_toList, Nat.toList_repr, Nat.length_toDigits_le_iff (by norm_num) hpos]
  exact (parseInt_natAbs_lt h).trans_le (Nat.pow_le_pow_right (by norm_num) hk)

/-! ### Separators -/

/-- What stands before the first separator and after it. -/
lemma append_cons_inj {α : Type*} {sep : α} {xs xs' ys ys' : List α} (hxs : sep ∉ xs)
    (hxs' : sep ∉ xs') (h : xs ++ sep :: ys = xs' ++ sep :: ys') : xs = xs' ∧ ys = ys' := by
  induction xs generalizing xs' with
  | nil =>
      cases xs' with
      | nil => exact ⟨rfl, (List.cons.inj h).2⟩
      | cons x xs' => exact absurd (by simp [(List.cons.inj h).1]) hxs'
  | cons x xs ih =>
      cases xs' with
      | nil => exact absurd (by simp [(List.cons.inj h).1]) hxs
      | cons x' xs' =>
          obtain ⟨rfl, htail⟩ := List.cons.inj h
          obtain ⟨rfl, rfl⟩ := ih (List.not_mem_of_not_mem_cons hxs)
            (List.not_mem_of_not_mem_cons hxs') htail
          exact ⟨rfl, rfl⟩

end StarterBackend.Lib.PyText

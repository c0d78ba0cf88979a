/-
JSON values, their text and its parser, as in the `json` module of the Python
standard library with its default settings.

* `dumps` writes a value: items are separated by a comma and a blank, keys are
  followed by a colon and a blank, and every character outside the printable ASCII
  range is escaped (as a surrogate pair when it does not fit in sixteen bits).
* `loads` reads a text: blanks are allowed between tokens, the escapes of a string
  are undone, adjacent surrogates are joined, and an object keeps the order of its
  keys, a key that comes twice keeping its first place and its last value.

The two main results are `loads_dumps` (reading what was written gives the value
back) and `dumps_injective`.  Both are about *well-formed* values, in which no object
has a key twice; a Python dictionary is always one.

A floating-point number is carried as its literal, which is not interpreted.
-/
import Mathlib

namespace StarterBackend.Lib

/-! ### Number literals -/

/-- The characters of a number literal. -/
def isNumChar (c : Char) : Bool :=
  c.isDigit || c == '-' || c == '+' || c == '.' || c == 'e' || c == 'E'

/-- The digits of a nonnegative integer without a leading zero. -/
def isNatText (cs : List Char) : Bool :=
  cs.all Char.isDigit && !cs.isEmpty && (cs.head? != some '0' || cs.length == 1)

/-- The text without its minus sign, if it has one. -/
def dropMinus : List Char → List Char
  | '-' :: cs => cs
  | cs => cs

/-- An integer literal. -/
def isIntText (cs : List Char) : Bool := isNatText (dropMinus cs)

/-- The exponent of a number literal, or nothing. -/
def isExponentText : List Char → Bool
  | [] => true
  | c :: cs =>
      (c == 'e' || c == 'E') &&
        (match cs with
          | '+' :: ds => ds.all Char.isDigit && !ds.isEmpty
          | '-' :: ds => ds.all Char.isDigit && !ds.isEmpty
          | ds => ds.all Char.isDigit && !ds.isEmpty)

/-- The fraction and the exponent of a number literal; not both are missing. -/
def isFractionText : List Char → Bool
  | [] => false
  | '.' :: cs =>
      !(cs.takeWhile Char.isDigit).isEmpty && isExponentText (cs.dropWhile Char.isDigit)
  | cs => isExponentText cs

/-- A floating-point literal. -/
def isFloatText (cs : List Char) : Bool :=
  cs.all isNumChar && isNatText ((dropMinus cs).takeWhile Char.isDigit) &&
    isFractionText ((dropMinus cs).dropWhile Char.isDigit)

/-- A floating-point literal. -/
def FloatLit : Type := { cs : List Char // isFloatText cs = true }

/-! ### Values -/

/-- A JSON value. -/
inductive Json where
  | null
  | bool (b : Bool)
  | num (n : ℤ)
  | float (lit : FloatLit)
  | str (s : String)
  | arr (items : List Json)
  | obj (fields : List (String × Json))

namespace Json

mutual

/-- No object in the value has a key twice. -/
def wf : Json → Bool
  | null => true
  | bool _ => true
  | num _ => true
  | float _ => true
  | str _ => true
  | arr items => wfItems items
  | obj fields => (decide (fields.map Prod.fst).Nodup) && wfFields fields

def wfItems : List Json → Bool
  | [] => true
  | v :: vs => v.wf && wfItems vs

def wfFields : List (String × Json) → Bool
  | [] => true
  | (_, v) :: fs => v.wf && wfFields fs

end

/-- The value of a key of an object, as in `data.get(key)`. -/
def lookup (key : String) : List (String × Json) → Option Json
  | [] => none
  | (k, v) :: fs => if k = key then some v else lookup key fs

/-! ### Writing -/

def quote : Char := Char.ofNat 34

def backslash : Char := Char.ofNat 92

def hexDigit (n : ℕ) : Char := if n < 10 then Char.ofNat (48 + n) else Char.ofNat (87 + n)

/-- The escape of a sixteen-bit unit. -/
def unitEscape (n : ℕ) : List Char :=
  [backslash, 'u', hexDigit (n / 4096 % 16), hexDigit (n / 256 % 16), hexDigit (n / 16 % 16),
    hexDigit (n % 16)]

/-- The sixteen-bit units of a character. -/
def charUnits (c : Char) : List ℕ :=
  if c.toNat < 0x10000 then [c.toNat]
  else [0xD800 + (c.toNat - 0x10000) / 0x400, 0xDC00 + (c.toNat - 0x10000) % 0x400]

/-- A character as it stands inside a string literal. -/
def escapeChar (c : Char) : List Char :=
  if c = quote then [backslash, quote]
  else if c = backslash then [backslash, backslash]
  else if c.toNat = 10 then [backslash, 'n']
  else if c.toNat = 13 then [backslash, 'r']
  else if c.toNat = 9 then [backslash, 't']
  else if c.toNat = 12 then [backslash, 'f']
  else if c.toNat = 8 then [backslash, 'b']
  else if 0x20 ≤ c.toNat ∧ c.toNat ≤ 0x7e then [c]
  else (charUnits c).flatMap unitEscape

/-- A string literal. -/
def stringText (s : String) : List Char := quote :: (s.toList.flatMap escapeChar ++ [quote])

mutual

/-- The text of a value. -/
def text : Json → List Char
  | null => ['n', 'u', 'l', 'l']
  | bool true => ['t', 'r', 'u', 'e']
  | bool false => ['f', 'a', 'l', 's', 'e']
  | num n => n.repr.toList
  | float lit => lit.1
  | str s => stringText s
  | arr [] => ['[', ']']
  | arr (v :: vs) => '[' :: (text v ++ itemsText vs)
  | obj [] => ['\x7b', '\x7d']
  | obj ((k, v) :: fs) => '\x7b' :: (stringText k ++ (':' :: ' ' :: (text v ++ fieldsText fs)))

/-- The text of the items of an array after the first one. -/
def itemsText : List Json → List Char
  | [] => [']']
  | v :: vs => ',' :: ' ' :: (text v ++ itemsText vs)

/-- The text of the fields of an object after the first one. -/
def fieldsText : List (String × Json) → List Char
  | [] => ['\x7d']
  | (k, v) :: fs => ',' :: ' ' :: (stringText k ++ (':' :: ' ' :: (text v ++ fieldsText fs)))

end

/-- `json.dumps(v)`. -/
def dumps (v : Json) : String := String.ofList v.text

/-! ### Reading -/

/-- Skip the blanks in front of a token. -/
def skipWs : List Char → List Char
  | ' ' :: cs => skipWs cs
  | '\t' :: cs => skipWs cs
  | '\n' :: cs => skipWs cs
  | '\r' :: cs => skipWs cs
  | cs => cs

def hexValue (c : Char) : Option ℕ :=
  if '0' ≤ c ∧ c ≤ '9' then some (c.toNat - 48)
  else if 'a' ≤ c ∧ c ≤ 'f' then some (c.toNat - 87)
  else if 'A' ≤ c ∧ c ≤ 'F' then some (c.toNat - 55)
  else none

def hexUnit (h₁ h₂ h₃ h₄ : Char) : Option ℕ := do
  let n₁ ← hexValue h₁
  let n₂ ← hexValue h₂
  let n₃ ← hexValue h₃
  let n₄ ← hexValue h₄
  pure (((n₁ * 16 + n₂) * 16 + n₃) * 16 + n₄)

/-- The character behind a short escape. -/
def unescape (c : Char) : Option ℕ :=
  if c = quote then some 34
  else if c = backslash then some 92
  else if c = '/' then some 47
  else if c = 'b' then some 8
  else if c = 'f' then some 12
  else if c = 'n' then some 10
  else if c = 'r' then some 13
  else if c = 't' then some 9
  else none

/-- The units of a string literal after its opening quote, up to the closing one. -/
def readUnits : List Char → Option (List ℕ × List Char)
  | [] => none
  | c :: cs =>
      if c = quote then some ([], cs)
      else if c = backslash then
        match cs with
        | 'u' :: h₁ :: h₂ :: h₃ :: h₄ :: ds =>
            (hexUnit h₁ h₂ h₃ h₄).bind fun n => (readUnits ds).map fun p => (n :: p.1, p.2)
        | e :: ds => (unescape e).bind fun n => (readUnits ds).map fun p => (n :: p.1, p.2)
        | [] => none
      else if c.toNat < 0x20 then none
      else (readUnits cs).map fun p => (c.toNat :: p.1, p.2)

def isHigh (n : ℕ) : Bool := 0xD800 ≤ n && n < 0xDC00

def isLow (n : ℕ) : Bool := 0xDC00 ≤ n && n < 0xE000

/-- The characters of a list of units.  A surrogate that stands alone is not a
character. -/
def joinUnits : List ℕ → Option (List Char)
  | [] => some []
  | n :: ns =>
      if isHigh n then
        match ns with
        | m :: ms =>
            if isLow m then
              (joinUnits ms).map
                (Char.ofNat (0x10000 + (n - 0xD800) * 0x400 + (m - 0xDC00)) :: ·)
            else none
        | [] => none
      else if isLow n then none
      else (joinUnits ns).map (Char.ofNat n :: ·)

/-- A string literal after its opening quote. -/
def readString (cs : List Char) : Option (String × List Char) :=
  (readUnits cs).bind fun p => (joinUnits p.1).map fun s => (String.ofList s, p.2)

/-- The value of a number literal. -/
def numberValue (cs : List Char) : Option Json :=
  if isIntText cs then
    some (num (if cs.head? = some '-' then -(Nat.ofDigitChars 10 (dropMinus cs) 0 : ℤ)
      else (Nat.ofDigitChars 10 cs 0 : ℤ)))
  else if h : isFloatText cs = true then some (float ⟨cs, h⟩)
  else none

def readNumber (cs : List Char) : Option (Json × List Char) :=
  (numberValue (cs.takeWhile isNumChar)).map fun v => (v, cs.dropWhile isNumChar)

/-- Set a key of a dictionary. -/
def dictSet (d : List (String × Json)) (k : String) (v : Json) : List (String × Json) :=
  if k ∈ d.map Prod.fst then d.map fun p => if p.1 = k then (k, v) else p
  else d ++ [(k, v)]

/-- The dictionary of a list of pairs, as `dict(pairs)`. -/
def dictOfPairs (pairs : List (String × Json)) : List (String × Json) :=
  pairs.foldl (fun d p => dictSet d p.1 p.2) []

mutual

/-- A value at the front of a text, and what is left of the text.  The first argument
bounds the depth of the recursion. -/
def readValue : ℕ → List Char → Option (Json × List Char)
  | 0, _ => none
  | n + 1, cs =>
      match skipWs cs with
      | 'n' :: 'u' :: 'l' :: 'l' :: ds => some (null, ds)
      | 't' :: 'r' :: 'u' :: 'e' :: ds => some (bool true, ds)
      | 'f' :: 'a' :: 'l' :: 's' :: 'e' :: ds => some (bool false, ds)
      | '[' :: ds =>
          match skipWs ds with
          | ']' :: es => some (arr [], es)
          | es => (readItems n es).map fun p => (arr p.1, p.2)
      | '\x7b' :: ds =>
          match skipWs ds with
          | '\x7d' :: es => some (obj [], es)
          | es => (readFields n es).map fun p => (obj (dictOfPairs p.1), p.2)
      | c :: ds =>
          if c = quote then (readString ds).map fun p => (str p.1, p.2) else readNumber (c :: ds)
      | [] => none

/-- The items of an array up to its closing bracket. -/
def readItems : ℕ → List Char → Option (List Json × List Char)
  | 0, _ => none
  | n + 1, cs =>
      match readValue n cs with
      | none => none
      | some (v, ds) =>
          match skipWs ds with
          | ',' :: es => (readItems n es).map fun p => (v :: p.1, p.2)
          | ']' :: es => some ([v], es)
          | _ => none

/-- The fields of an object up to its closing brace. -/
def readFields : ℕ → List Char → Option (List (String × Json) × List Char)
  | 0, _ => none
  | n + 1, cs =>
      match skipWs cs with
      | [] => none
      | q :: cs' =>
          if q = quote then
            match readString cs' with
            | none => none
            | some (k, ds) =>
                match skipWs ds with
                | ':' :: ds' =>
                    match readValue n ds' with
                    | none => none
                    | some (v, es) =>
                        match skipWs es with
                        | ',' :: es' => (readFields n es').map fun p => ((k, v) :: p.1, p.2)
                        | '\x7d' :: es' => some ([(k, v)], es')
                        | _ => none
                | _ => none
          else none

end

/-- `json.loads(s)`; `none` is a `JSONDecodeError`. -/
def loads (s : String) : Option Json :=
  match readValue (s.toList.length + 1) s.toList with
  | some (v, rest) => if skipWs rest = [] then some v else none
  | none => none

/-! ### Strings are read back -/

lemma hexValue_hexDigit : ∀ d < 16, hexValue (hexDigit d) = some d := by decide

lemma hexDigit_ne_quote : ∀ d < 16, hexDigit d ≠ quote := by decide

lemma hexUnit_hexDigits {n : ℕ} (hn : n < 0x10000) :
    hexUnit (hexDigit (n / 4096 % 16)) (hexDigit (n / 256 % 16)) (hexDigit (n / 16 % 16))
      (hexDigit (n % 16)) = some n := by
  have hmod : ∀ m : ℕ, m % 16 < 16 := fun m => Nat.mod_lt m (by norm_num)
  simp only [hexUnit, hexValue_hexDigit _ (hmod _), Option.pure_def, Option.bind_eq_bind,
    Option.bind_some, Option.some.injEq]
  omega

@[simp] lemma readUnits_quote (cs : List Char) : readUnits (quote :: cs) = some ([], cs) := by
  rw [readUnits.eq_def]
  simp

lemma readUnits_plain {c : Char} (hq : c ≠ quote) (hb : c ≠ backslash) (hc : ¬ c.toNat < 0x20)
    (cs : List Char) :
    readUnits (c :: cs) = (readUnits cs).map fun p => (c.toNat :: p.1, p.2) := by
  rw [readUnits.eq_def]
  simp [hq, hb, hc]

lemma readUnits_unitEscape {n : ℕ} (hn : n < 0x10000) (cs : List Char) :
    readUnits (unitEscape n ++ cs) = (readUnits cs).map fun p => (n :: p.1, p.2) := by
  have hb : backslash ≠ quote := by decide
  simp only [unitEscape, List.cons_append, List.nil_append, readUnits, if_neg hb, if_true,
    hexUnit_hexDigits hn, Option.bind_some]

lemma charUnits_lt (c : Char) : ∀ n ∈ charUnits c, n < 0x10000 := by
  have hval : c.toNat < 0xD800 ∨ 0xDFFF < c.toNat ∧ c.toNat < 0x110000 := c.valid
  intro n hn
  unfold charUnits at hn
  split at hn
  · simp only [List.mem_singleton] at hn
    omega
  · simp only [List.mem_cons, List.not_mem_nil, or_false] at hn
    omega

lemma readUnits_flatMap_unitEscape {ns : List ℕ} (hns : ∀ n ∈ ns, n < 0x10000)
    (cs : List Char) :
    readUnits (ns.flatMap unitEscape ++ cs) = (readUnits cs).map fun p => (ns ++ p.1, p.2) := by
  induction ns with
  | nil => simp
  | cons n ns ih =>
      rw [List.flatMap_cons, List.append_assoc, readUnits_unitEscape (hns n (by simp)),
        ih fun m hm => hns m (by simp [hm])]
      simp [Function.comp_def]

lemma readUnits_short {c e : Char} {n : ℕ} (he : unescape e = some n) (hu : e ≠ 'u')
    (hc : charUnits c = [n]) (cs : List Char) :
    readUnits ([backslash, e] ++ cs) = (readUnits cs).map fun p => (charUnits c ++ p.1, p.2) := by
  have hb : backslash ≠ quote := by decide
  rw [List.cons_append, List.cons_append, List.nil_append, readUnits.eq_3]
  · simp [hb, he, hc]
  · intro _ _ _ _ _ hu' _
    exact hu hu'

lemma readUnits_escapeChar (c : Char) (cs : List Char) :
    readUnits (escapeChar c ++ cs) = (readUnits cs).map fun p => (charUnits c ++ p.1, p.2) := by
  have key : ∀ m : ℕ, c.toNat = m → m < 0x10000 → charUnits c = [m] := by
    intro m hm hlt
    simp [charUnits, hm, hlt]
  unfold escapeChar
  split_ifs with h₁ h₂ h₃ h₄ h₅ h₆ h₇ h₈
  · exact readUnits_short (n := 34) (by decide) (by decide)
      (key 34 (by rw [h₁]; decide) (by norm_num)) cs
  · exact readUnits_short (n := 92) (by decide) (by decide)
      (key 92 (by rw [h₂]; decide) (by norm_num)) cs
  · exact readUnits_short (n := 10) (by decide) (by decide) (key 10 h₃ (by norm_num)) cs
  · exact readUnits_short (n := 13) (by decide) (by decide) (key 13 h₄ (by norm_num)) cs
  · exact readUnits_short (n := 9) (by decide) (by decide) (key 9 h₅ (by norm_num)) cs
  · exact readUnits_short (n := 12) (by decide) (by decide) (key 12 h₆ (by norm_num)) cs
  · exact readUnits_short (n := 8) (by decide) (by decide) (key 8 h₇ (by norm_num)) cs
  · have hlt : ¬ c.toNat < 0x20 := by omega
    rw [key c.toNat rfl (by omega)]
    simpa using readUnits_plain h₁ h₂ hlt cs
  · exact readUnits_flatMap_unitEscape (charUnits_lt c) cs

lemma readUnits_escaped (s cs : List Char) :
    readUnits (s.flatMap escapeChar ++ quote :: cs) = some (s.flatMap charUnits, cs) := by
  induction s with
  | nil => simp
  | cons c s ih =>
      rw [List.flatMap_cons, List.append_assoc, readUnits_escapeChar, ih]
      simp

lemma joinUnits_charUnits (c : Char) (ns : List ℕ) :
    joinUnits (charUnits c ++ ns) = (joinUnits ns).map (c :: ·) := by
  have hval : c.toNat < 0xD800 ∨ 0xDFFF < c.toNat ∧ c.toNat < 0x110000 := c.valid
  unfold charUnits
  split
  · have hhigh : isHigh c.toNat = false := by simp [isHigh]; omega
    have hlow : isLow c.toNat = false := by simp [isLow]; omega
    rw [List.cons_append, List.nil_append, joinUnits.eq_def]
    simp [hhigh, hlow]
  · have hhigh : isHigh (0xD800 + (c.toNat - 0x10000) / 0x400) = true := by
      simp [isHigh]; omega
    have hlow : isLow (0xDC00 + (c.toNat - 0x10000) % 0x400) = true := by
      simp [isLow]; omega
    have hc : 0x10000 + (0xD800 + (c.toNat - 0x10000) / 0x400 - 0xD800) * 0x400
        + (0xDC00 + (c.toNat - 0x10000) % 0x400 - 0xDC00) = c.toNat := by omega
    simp only [List.cons_append, List.nil_append, joinUnits, hhigh, hlow, if_true, hc,
      Char.ofNat_toNat]

lemma joinUnits_flatMap (s : List Char) : joinUnits (s.flatMap charUnits) = some s := by
  induction s with
  | nil => rfl
  | cons c s ih => rw [List.flatMap_cons, joinUnits_charUnits, ih]; rfl

lemma readString_text (s : String) (cs : List Char) :
    readString (s.toList.flatMap escapeChar ++ quote :: cs) = some (s, cs) := by
  simp [readString, readUnits_escaped, joinUnits_flatMap]

/-! ### Numbers are read back -/

/-- Nothing after a value continues a number literal. -/
def Boundary (cs : List Char) : Prop := ∀ c ∈ cs.head?, isNumChar c = false

lemma head?_toDigits_ne {n : ℕ} (hn : n ≠ 0) : (Nat.toDigits 10 n).head? ≠ some '0' := by
  induction n using Nat.strong_induction_on with
  | _ n ih =>
      rcases Nat.lt_or_ge n 10 with hlt | hge
      · rw [Nat.toDigits_of_lt_base hlt]
        have : ∀ m < 10, m ≠ 0 → [m.digitChar].head? ≠ some '0' := by decide
        exact this n hlt hn
      · rw [Nat.toDigits_of_base_le (by norm_num) hge, List.head?_append_of_ne_nil _
          Nat.toDigits_ne_nil]
        exact ih (n / 10) (by omega) (by omega)

lemma isNatText_toDigits (n : ℕ) : isNatText (Nat.toDigits 10 n) = true := by
  have hall : (Nat.toDigits 10 n).all Char.isDigit = true := by
    rw [List.all_eq_true]
    exact fun c hc => Nat.isDigit_of_mem_toDigits (by norm_num) (by norm_num) hc
  have hne : (Nat.toDigits 10 n).isEmpty = false := by simp
  have hhead : ((Nat.toDigits 10 n).head? != some '0' ||
      (Nat.toDigits 10 n).length == 1) = true := by
    rcases eq_or_ne n 0 with rfl | hn
    · decide
    · simp [head?_toDigits_ne hn]
  simp only [isNatText, hall, hne, hhead, Bool.not_false, Bool.and_self]

lemma isDigit_of_mem {n : ℕ} {c : Char} (hc : c ∈ Nat.toDigits 10 n) : c.isDigit = true :=
  Nat.isDigit_of_mem_toDigits (by norm_num) (by norm_num) hc

lemma dropMinus_toDigits (n : ℕ) : dropMinus (Nat.toDigits 10 n) = Nat.toDigits 10 n := by
  cases h : Nat.toDigits 10 n with
  | nil => rfl
  | cons c cs =>
      have hc : c.isDigit = true := isDigit_of_mem (n := n) (by rw [h]; simp)
      unfold dropMinus
      split
      · rename_i heq
        obtain ⟨rfl, -⟩ := List.cons.inj heq
        exact absurd hc (by decide)
      · rfl

lemma toList_repr_ofNat (m : ℕ) : (Int.ofNat m).repr.toList = Nat.toDigits 10 m :=
  Nat.toList_repr

lemma toList_repr_negSucc (m : ℕ) :
    (Int.negSucc m).repr.toList = '-' :: Nat.toDigits 10 (m + 1) := by
  have h : (Int.negSucc m).repr = "-" ++ (m + 1).repr := rfl
  rw [h, String.toList_append, Nat.toList_repr]
  rfl

lemma numberValue_repr (n : ℤ) : numberValue n.repr.toList = some (num n) := by
  cases n with
  | ofNat m =>
      have hhead : (Nat.toDigits 10 m).head? ≠ some '-' := by
        intro h
        exact absurd (isDigit_of_mem (List.mem_of_mem_head? h)) (by decide)
      rw [toList_repr_ofNat]
      simp [numberValue, isIntText, dropMinus_toDigits, isNatText_toDigits, hhead,
        Nat.ofDigitChars_ten_toDigits]
  | negSucc m =>
      rw [toList_repr_negSucc]
      simp [numberValue, isIntText, dropMinus, isNatText_toDigits, Nat.ofDigitChars_ten_toDigits,
        Int.negSucc_eq]

/-- A floating-point literal is no integer literal: it goes on after its digits. -/
lemma isIntText_float (lit : FloatLit) : isIntText lit.1 = false := by
  have hlit := lit.2
  by_contra hint
  simp only [isIntText, isNatText, Bool.and_eq_true, Bool.not_eq_false] at hint
  have hdrop : (dropMinus lit.1).dropWhile Char.isDigit = [] :=
    List.dropWhile_eq_nil_iff.2 (List.all_eq_true.1 hint.1.1)
  simp [isFloatText, hdrop, isFractionText] at hlit

lemma numberValue_float (lit : FloatLit) : numberValue lit.1 = some (float lit) := by
  rw [numberValue, isIntText_float, if_neg Bool.false_ne_true, dif_pos lit.2]
  rfl

lemma isNumChar_repr (n : ℤ) : ∀ c ∈ n.repr.toList, isNumChar c = true := by
  have hdig : ∀ m : ℕ, ∀ c ∈ Nat.toDigits 10 m, isNumChar c = true := by
    intro m c hc
    simp [isNumChar, isDigit_of_mem hc]
  cases n with
  | ofNat m =>
      rw [toList_repr_ofNat]
      exact hdig m
  | negSucc m =>
      rw [toList_repr_negSucc]
      intro c hc
      rcases List.mem_cons.1 hc with rfl | hc
      · decide
      · exact hdig (m + 1) c hc

lemma isNumChar_float (lit : FloatLit) : ∀ c ∈ lit.1, isNumChar c = true := by
  have hlit := lit.2
  simp only [isFloatText, Bool.and_eq_true, List.all_eq_true] at hlit
  exact hlit.1.1

lemma readNumber_append {t cs : List Char} {v : Json} (ht : ∀ c ∈ t, isNumChar c = true)
    (hv : numberValue t = some v) (hcs : Boundary cs) : readNumber (t ++ cs) = some (v, cs) := by
  have htake : cs.takeWhile isNumChar = [] := by
    cases cs with
    | nil => rfl
    | cons c cs => simp [hcs c (by simp)]
  have hdrop : cs.dropWhile isNumChar = cs := by
    cases cs with
    | nil => rfl
    | cons c cs => simp [hcs c (by simp)]
  rw [readNumber, List.takeWhile_append_of_pos ht, List.dropWhile_append_of_pos ht, htake, hdrop,
    List.append_nil, hv]
  rfl

/-! ### Dictionaries -/

lemma foldl_dictSet {pairs d : List (String × Json)}
    (h : ((d ++ pairs).map Prod.fst).Nodup) :
    pairs.foldl (fun d p => dictSet d p.1 p.2) d = d ++ pairs := by
  induction pairs generalizing d with
  | nil => simp
  | cons p pairs ih =>
      have hp : p.1 ∉ d.map Prod.fst := by
        rw [List.map_append, List.nodup_append] at h
        intro hmem
        exact h.2.2 p.1 hmem p.1 (by simp) rfl
      have hset : dictSet d p.1 p.2 = d ++ [p] := by simp [dictSet, hp]
      rw [List.foldl_cons, hset, ih (by simpa using h)]
      simp

/-- Pairs with different keys are a dictionary as they stand. -/
lemma dictOfPairs_eq_self {pairs : List (String × Json)} (h : (pairs.map Prod.fst).Nodup) :
    dictOfPairs pairs = pairs := by
  simpa [dictOfPairs] using foldl_dictSet (d := []) (by simpa using h)

/-! ### Values are read back -/

lemma skipWs_cons {c : Char} (hc : c ≠ ' ' ∧ c ≠ '\t' ∧ c ≠ '\n' ∧ c ≠ '\r') (cs : List Char) :
    skipWs (c :: cs) = c :: cs := by
  unfold skipWs
  split <;> simp_all

@[simp] lemma readValue_blank (n : ℕ) (cs : List Char) :
    readValue n (' ' :: cs) = readValue n cs := by
  cases n with
  | zero => rfl
  | succ n => rw [readValue.eq_def, readValue.eq_def]; simp [skipWs]

@[simp] lemma readItems_blank (n : ℕ) (cs : List Char) :
    readItems n (' ' :: cs) = readItems n cs := by
  cases n with
  | zero => rfl
  | succ n => rw [readItems, readItems, readValue_blank]

@[simp] lemma readFields_blank (n : ℕ) (cs : List Char) :
    readFields n (' ' :: cs) = readFields n cs := by
  cases n with
  | zero => rfl
  | succ n => rw [readFields.eq_def, readFields.eq_def]; simp [skipWs]

lemma readValue_number {t cs : List Char} {v : Json} (n : ℕ) (hne : t ≠ [])
    (ht : ∀ c ∈ t, isNumChar c = true) (hv : numberValue t = some v) (hcs : Boundary cs) :
    readValue (n + 1) (t ++ cs) = some (v, cs) := by
  have hread := readNumber_append ht hv hcs
  cases t with
  | nil => exact absurd rfl hne
  | cons c t =>
      have hc : isNumChar c = true := ht c (by simp)
      have hdiff : ∀ d : Char, isNumChar d = false → c ≠ d := by
        rintro d hd rfl
        simp [hc] at hd
      have hws : skipWs (c :: (t ++ cs)) = c :: (t ++ cs) :=
        skipWs_cons ⟨hdiff ' ' (by decide), hdiff '\t' (by decide), hdiff '\n' (by decide),
          hdiff '\r' (by decide)⟩ _
      rw [List.cons_append] at hread ⊢
      rw [readValue.eq_def]
      simp only [hws]
      split
      · rename_i heq; exact absurd (List.cons.inj heq).1 (hdiff _ (by decide))
      · rename_i heq; exact absurd (List.cons.inj heq).1 (hdiff _ (by decide))
      · rename_i heq; exact absurd (List.cons.inj heq).1 (hdiff _ (by decide))
      · rename_i heq; exact absurd (List.cons.inj heq).1 (hdiff _ (by decide))
      · rename_i heq; exact absurd (List.cons.inj heq).1 (hdiff _ (by decide))
      · rename_i heq
        obtain ⟨rfl, rfl⟩ := List.cons.inj heq
        rw [if_neg (hdiff quote (by decide)), hread]
      · rename_i heq; exact absurd heq (by simp)

lemma boundary_cons {c : Char} (hc : isNumChar c = false) (cs : List Char) :
    Boundary (c :: cs) := by
  intro d hd
  rw [List.head?_cons, Option.mem_some_iff] at hd
  exact hd ▸ hc

lemma readValue_quote (n : ℕ) (cs : List Char) :
    readValue (n + 1) (quote :: cs) = (readString cs).map fun p => (str p.1, p.2) := by
  simp [readValue, skipWs, quote]

lemma repr_ne_nil (k : ℤ) : k.repr.toList ≠ [] := by
  intro h
  have hk := numberValue_repr k
  rw [h] at hk
  exact absurd hk (by simp [numberValue, isIntText, isNatText, dropMinus, isFloatText])

lemma float_ne_nil (lit : FloatLit) : lit.1 ≠ [] := by
  intro h
  have hlit := lit.2
  rw [h] at hlit
  exact absurd hlit (by decide)

/-- The first character of a value is neither a blank nor the end of an array. -/
lemma text_cons (v : Json) :
    ∃ c t, v.text = c :: t ∧ (c ≠ ' ' ∧ c ≠ '\t' ∧ c ≠ '\n' ∧ c ≠ '\r') ∧ c ≠ ']' := by
  have hnum : ∀ cs : List Char, cs ≠ [] → (∀ c ∈ cs, isNumChar c = true) →
      ∃ c t, cs = c :: t ∧ (c ≠ ' ' ∧ c ≠ '\t' ∧ c ≠ '\n' ∧ c ≠ '\r') ∧ c ≠ ']' := by
    intro cs hne hcs
    obtain ⟨c, t, rfl⟩ := List.exists_cons_of_ne_nil hne
    have hc := hcs c (by simp)
    refine ⟨c, t, rfl, ⟨?_, ?_, ?_, ?_⟩, ?_⟩ <;> rintro rfl <;> exact absurd hc (by decide)
  cases v with
  | null => exact ⟨_, _, rfl, by decide⟩
  | bool b => cases b <;> exact ⟨_, _, rfl, by decide⟩
  | num k => exact hnum _ (repr_ne_nil k) (isNumChar_repr k)
  | float lit => exact hnum _ (float_ne_nil lit) (isNumChar_float lit)
  | str s => exact ⟨_, _, rfl, by decide⟩
  | arr items => cases items <;> exact ⟨_, _, rfl, by decide⟩
  | obj fields =>
      rcases fields with _ | ⟨⟨k, v⟩, fs⟩ <;> exact ⟨_, _, rfl, by decide⟩

lemma readValue_array (n : ℕ) (v : Json) (cs : List Char) :
    readValue (n + 1) ('[' :: (v.text ++ cs)) =
      (readItems n (v.text ++ cs)).map fun p => (arr p.1, p.2) := by
  obtain ⟨c, t, htext, hc, hne⟩ := text_cons v
  rw [htext, List.cons_append, readValue.eq_def]
  simp only [skipWs_cons (show '[' ≠ ' ' ∧ '[' ≠ '\t' ∧ '[' ≠ '\n' ∧ '[' ≠ '\r' by decide),
    skipWs_cons hc]
  split
  · rename_i heq
    exact absurd (List.cons.inj heq).1 hne
  · rfl

lemma readValue_object (n : ℕ) (k : String) (cs : List Char) :
    readValue (n + 1) ('\x7b' :: (stringText k ++ cs)) =
      (readFields n (stringText k ++ cs)).map fun p => (obj (dictOfPairs p.1), p.2) := by
  simp [readValue, skipWs, quote, stringText]

/-- A key with its colon is read back. -/
lemma readFields_key (n : ℕ) (k : String) (cs : List Char) :
    readFields (n + 1) (stringText k ++ (':' :: ' ' :: cs)) =
      match readValue n cs with
      | none => none
      | some (v, es) =>
          match skipWs es with
          | ',' :: es' => (readFields n es').map fun p => ((k, v) :: p.1, p.2)
          | '\x7d' :: es' => some ([(k, v)], es')
          | _ => none := by
  have hws : ∀ ds, skipWs (quote :: ds) = quote :: ds := fun ds => skipWs_cons (by decide) ds
  have hcolon : ∀ ds, skipWs (':' :: ds) = ':' :: ds := fun ds => skipWs_cons (by decide) ds
  rw [readFields.eq_def]
  simp only [stringText, List.cons_append, List.append_assoc, List.nil_append, hws, if_true,
    readString_text, hcolon, readValue_blank]

/-- Values whose text has at most `n` characters are read back at depth `n`. -/
def ReadsValues (n : ℕ) : Prop :=
  ∀ (v : Json) (cs : List Char), v.wf = true → v.text.length ≤ n → Boundary cs →
    readValue n (v.text ++ cs) = some (v, cs)

/-- The same for the items of an array. -/
def ReadsItems (n : ℕ) : Prop :=
  ∀ (v : Json) (vs : List Json) (cs : List Char), v.wf = true → wfItems vs = true →
    (v.text ++ itemsText vs).length ≤ n →
    readItems n (v.text ++ (itemsText vs ++ cs)) = some (v :: vs, cs)

/-- The same for the fields of an object. -/
def ReadsFields (n : ℕ) : Prop :=
  ∀ (k : String) (v : Json) (fs : List (String × Json)) (cs : List Char),
    v.wf = true → wfFields fs = true →
    (stringText k ++ (':' :: ' ' :: (v.text ++ fieldsText fs))).length ≤ n →
    readFields n (stringText k ++ (':' :: ' ' :: (v.text ++ (fieldsText fs ++ cs)))) =
      some ((k, v) :: fs, cs)

lemma readsValues_succ {n : ℕ} (hI : ReadsItems n) (hF : ReadsFields n) : ReadsValues (n + 1) := by
  intro v cs hv hn hcs
  cases v with
  | null => simp [text, readValue, skipWs]
  | bool b => cases b <;> simp [text, readValue, skipWs]
  | num k => exact readValue_number n (repr_ne_nil k) (isNumChar_repr k) (numberValue_repr k) hcs
  | float lit =>
      exact readValue_number n (float_ne_nil lit) (isNumChar_float lit) (numberValue_float lit) hcs
  | str s =>
      simp only [text, stringText, List.cons_append, List.append_assoc, List.nil_append]
      rw [readValue_quote, readString_text]
      rfl
  | arr items =>
      cases items with
      | nil => simp [text, readValue, skipWs]
      | cons v vs =>
          simp only [wf, wfItems, Bool.and_eq_true] at hv
          have hitems := hI v vs cs hv.1 hv.2 (by
            simp only [text, List.length_cons] at hn
            omega)
          simp only [text, List.cons_append, List.append_assoc]
          rw [readValue_array, hitems]
          rfl
  | obj fields =>
      rcases fields with _ | ⟨⟨k, v⟩, fs⟩
      · simp [text, readValue, skipWs]
      · simp only [wf, wfFields, Bool.and_eq_true, decide_eq_true_eq] at hv
        have hfields := hF k v fs cs hv.2.1 hv.2.2 (by
          simp only [text, List.length_cons, List.length_append] at hn ⊢
          omega)
        simp only [text, List.cons_append, List.append_assoc]
        rw [readValue_object, hfields]
        simp only [Option.map_some, dictOfPairs_eq_self hv.1]

lemma readsItems_succ {n : ℕ} (hV : ReadsValues n) (hI : ReadsItems n) : ReadsItems (n + 1) := by
  intro v vs cs hv hvs hn
  cases vs with
  | nil =>
      simp only [itemsText, List.length_append, List.length_cons, List.length_nil] at hn
      have hread := hV v (']' :: cs) hv (by omega) (boundary_cons (by decide) _)
      simp only [itemsText, List.cons_append, List.nil_append, readItems, hread]
      simp [skipWs]
  | cons w ws =>
      simp only [wfItems, Bool.and_eq_true] at hvs
      simp only [itemsText, List.length_append, List.length_cons] at hn
      have hread := hV v (',' :: ' ' :: (w.text ++ (itemsText ws ++ cs))) hv (by omega)
        (boundary_cons (by decide) _)
      have hrest := hI w ws cs hvs.1 hvs.2 (by simp only [List.length_append]; omega)
      simp only [itemsText, List.cons_append, List.append_assoc, readItems, hread]
      simp [skipWs, hrest]

lemma readsFields_succ {n : ℕ} (hV : ReadsValues n) (hF : ReadsFields n) :
    ReadsFields (n + 1) := by
  intro k v fs cs hv hfs hn
  rcases fs with _ | ⟨⟨l, w⟩, fs⟩
  · simp only [fieldsText, List.length_append, List.length_cons] at hn
    have hread := hV v ('\x7d' :: cs) hv (by omega) (boundary_cons (by decide) _)
    rw [readFields_key]
    simp only [fieldsText, List.cons_append, List.nil_append, hread]
    simp [skipWs]
  · simp only [wfFields, Bool.and_eq_true] at hfs
    simp only [fieldsText, List.length_append, List.length_cons] at hn
    have hread := hV v
      (',' :: ' ' :: (stringText l ++ (':' :: ' ' :: (w.text ++ (fieldsText fs ++ cs))))) hv
      (by omega) (boundary_cons (by decide) _)
    have hrest := hF l w fs cs hfs.1 hfs.2
      (by simp only [List.length_append, List.length_cons]; omega)
    rw [readFields_key]
    simp only [fieldsText, List.cons_append, List.append_assoc, hread]
    simp [skipWs, hrest]

theorem reads_text (n : ℕ) : ReadsValues n ∧ ReadsItems n ∧ ReadsFields n := by
  induction n with
  | zero =>
      refine ⟨fun v cs _ hn _ => ?_, fun v vs cs _ _ hn => ?_, fun k v fs cs _ _ hn => ?_⟩
      · obtain ⟨c, t, htext, -⟩ := text_cons v
        simp [htext] at hn
      · obtain ⟨c, t, htext, -⟩ := text_cons v
        simp [htext] at hn
      · simp [stringText] at hn
  | succ n ih =>
      obtain ⟨hV, hI, hF⟩ := ih
      exact ⟨readsValues_succ hI hF, readsItems_succ hV hI, readsFields_succ hV hF⟩

/-- **Reading what was written gives the value back.** -/
theorem loads_dumps {v : Json} (hv : v.wf = true) : loads (dumps v) = some v := by
  have hread := (reads_text (v.text.length + 1)).1 v [] hv (by omega) (fun c hc => by simp at hc)
  rw [List.append_nil] at hread
  simp [loads, dumps, hread, skipWs]

/-- The text of a well-formed value determines it. -/
theorem dumps_injective {v w : Json} (hv : v.wf = true) (hw : w.wf = true)
    (h : dumps v = dumps w) : v = w := by
  have hvw := loads_dumps hv
  rw [h, loads_dumps hw] at hvw
  exact (Option.some.inj hvw).symm

/-! ### What is read is well-formed -/

lemma wfItems_iff {vs : List Json} : wfItems vs = true ↔ ∀ v ∈ vs, v.wf = true := by
  induction vs with
  | nil => simp [wfItems]
  | cons v vs ih => simp [wfItems, ih]

lemma wfFields_iff {fs : List (String × Json)} :
    wfFields fs = true ↔ ∀ p ∈ fs, p.2.wf = true := by
  induction fs with
  | nil => simp [wfFields]
  | cons p fs ih => obtain ⟨k, v⟩ := p; simp [wfFields, ih]

/-- The values of a well-formed object are well-formed. -/
lemma wf_of_lookup {key : String} {fields : List (String × Json)} {v : Json}
    (hwf : wfFields fields = true) (h : lookup key fields = some v) : v.wf = true := by
  induction fields with
  | nil => cases h
  | cons p fields ih =>
      obtain ⟨k, w⟩ := p
      obtain ⟨hw, hfields⟩ := Bool.and_eq_true_iff.1 hwf
      rw [lookup] at h
      split at h
      · obtain rfl := Option.some.inj h
        exact hw
      · exact ih hfields h

lemma keys_dictSet (d : List (String × Json)) (k : String) (v : Json) :
    (dictSet d k v).map Prod.fst =
      if k ∈ d.map Prod.fst then d.map Prod.fst else d.map Prod.fst ++ [k] := by
  unfold dictSet
  split
  · rw [List.map_map]
    refine List.map_congr_left fun p _ => ?_
    by_cases hp : p.1 = k <;> simp [hp]
  · simp

lemma wf_dictSet {d : List (String × Json)} {k : String} {v : Json} (hv : v.wf = true)
    (hd : (d.map Prod.fst).Nodup ∧ ∀ p ∈ d, p.2.wf = true) :
    ((dictSet d k v).map Prod.fst).Nodup ∧ ∀ p ∈ dictSet d k v, p.2.wf = true := by
  constructor
  · rw [keys_dictSet]
    split
    · exact hd.1
    · rename_i hk
      exact List.nodup_append.2 ⟨hd.1, by simp, by rintro a ha b hb rfl; simp_all⟩
  · intro p hp
    unfold dictSet at hp
    split at hp
    · obtain ⟨q, hq, rfl⟩ := List.mem_map.1 hp
      split
      · exact hv
      · exact hd.2 q hq
    · rcases List.mem_append.1 hp with hp | hp
      · exact hd.2 p hp
      · rw [List.mem_singleton.1 hp]
        exact hv

lemma wf_dictOfPairs {pairs : List (String × Json)} (h : ∀ p ∈ pairs, p.2.wf = true) :
    (obj (dictOfPairs pairs)).wf = true := by
  have key : ∀ (ps d : List (String × Json)), (∀ p ∈ ps, p.2.wf = true) →
      ((d.map Prod.fst).Nodup ∧ ∀ p ∈ d, p.2.wf = true) →
      ((ps.foldl (fun d p => dictSet d p.1 p.2) d).map Prod.fst).Nodup ∧
        ∀ p ∈ ps.foldl (fun d p => dictSet d p.1 p.2) d, p.2.wf = true := by
    intro ps
    induction ps with
    | nil => intro d _ hd; exact hd
    | cons p ps ih =>
        intro d hps hd
        exact ih _ (fun q hq => hps q (by simp [hq])) (wf_dictSet (hps p (by simp)) hd)
  obtain ⟨hnodup, hwf⟩ := key pairs [] h (by simp)
  simp only [wf, Bool.and_eq_true, decide_eq_true_eq, wfFields_iff]
  exact ⟨hnodup, hwf⟩

lemma wf_readNumber {cs : List Char} {p : Json × List Char} (h : readNumber cs = some p) :
    p.1.wf = true := by
  simp only [readNumber, numberValue, Option.map_eq_some_iff] at h
  obtain ⟨v, hv, rfl⟩ := h
  split at hv
  · obtain rfl := Option.some.inj hv
    rfl
  · split at hv
    · obtain rfl := Option.some.inj hv
      rfl
    · exact absurd hv (by simp)

theorem wf_read (n : ℕ) :
    (∀ cs p, readValue n cs = some p → p.1.wf = true) ∧
      (∀ cs p, readItems n cs = some p → ∀ v ∈ p.1, v.wf = true) ∧
      (∀ cs p, readFields n cs = some p → ∀ q ∈ p.1, q.2.wf = true) := by
  induction n with
  | zero => simp [readValue, readItems, readFields]
  | succ n ih =>
      obtain ⟨ihV, ihI, ihF⟩ := ih
      refine ⟨fun cs p h => ?_, fun cs p h => ?_, fun cs p h => ?_⟩
      · rw [readValue.eq_def] at h
        simp only at h
        split at h
        · obtain rfl := Option.some.inj h; rfl
        · obtain rfl := Option.some.inj h; rfl
        · obtain rfl := Option.some.inj h; rfl
        · split at h
          · obtain rfl := Option.some.inj h; rfl
          · obtain ⟨q, hq, rfl⟩ := Option.map_eq_some_iff.1 h
            exact wfItems_iff.2 (ihI _ q hq)
        · split at h
          · obtain rfl := Option.some.inj h; rfl
          · obtain ⟨q, hq, rfl⟩ := Option.map_eq_some_iff.1 h
            exact wf_dictOfPairs (ihF _ q hq)
        · split at h
          · obtain ⟨q, -, rfl⟩ := Option.map_eq_some_iff.1 h
            rfl
          · exact wf_readNumber h
        · exact absurd h (by simp)
      · rw [readItems] at h
        split at h
        · exact absurd h (by simp)
        · rename_i v ds hv
          have hwf := ihV _ _ hv
          split at h
          · obtain ⟨q, hq, rfl⟩ := Option.map_eq_some_iff.1 h
            intro w hw
            rcases List.mem_cons.1 hw with rfl | hw
            · exact hwf
            · exact ihI _ q hq w hw
          · obtain rfl := Option.some.inj h
            intro w hw
            rw [List.mem_singleton.1 hw]
            exact hwf
          · exact absurd h (by simp)
      · rw [readFields.eq_def] at h
        simp only at h
        split at h
        · exact absurd h (by simp)
        · split at h
          · split at h
            · exact absurd h (by simp)
            · split at h
              · split at h
                · exact absurd h (by simp)
                · rename_i v es hv
                  have hwf := ihV _ _ hv
                  split at h
                  · obtain ⟨q, hq, rfl⟩ := Option.map_eq_some_iff.1 h
                    intro w hw
                    rcases List.mem_cons.1 hw with rfl | hw
                    · exact hwf
                    · exact ihF _ q hq w hw
                  · obtain rfl := Option.some.inj h
                    intro w hw
                    rw [List.mem_singleton.1 hw]
                    exact hwf
                  · exact absurd h (by simp)
              · exact absurd h (by simp)
          · exact absurd h (by simp)

/-- What the parser accepts is well-formed. -/
theorem wf_loads {s : String} {v : Json} (h : loads s = some v) : v.wf = true := by
  unfold loads at h
  split at h
  · rename_i w rest hread
    split at h
    · obtain rfl := Option.some.inj h
      exact (wf_read _).1 _ _ hread
    · exact absurd h (by simp)
  · exact absurd h (by simp)

end Json

end StarterBackend.Lib

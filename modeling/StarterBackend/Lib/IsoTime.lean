/-
UTC clock readings and their ISO 8601 text, as `datetime.isoformat` of the Python
standard library writes it and `datetime.fromisoformat` reads it.

A reading is a number of microseconds since the beginning of the year 1.  Its date is
computed in years that start on the first of March, so that the leap day is the last
day of a year and the lengths of the months follow one linear rule.

The text of a reading is `YYYY-MM-DDTHH:MM:SS`, a fraction of six digits when it is
not zero, and the offset `+00:00`.  The reader accepts these texts, without an offset
(a *naive* time) or with an offset of hours and minutes; the other forms of the
standard are not read.
-/
import Mathlib

namespace StarterBackend.Lib

/-! ### Dates -/

/-- The year of an era of 400 years, and the day of that year, of a day of the era. -/
def yearOfDay (doe : ℕ) : ℕ × ℕ :=
  let century := min 3 (doe / 36524)
  let doc := doe - century * 36524
  let year := min 3 (doc % 1461 / 365)
  (100 * century + 4 * (doc / 1461) + year, doc % 1461 - year * 365)

/-- The days of the years of an era before the given one. -/
def daysBeforeYear (yoe : ℕ) : ℕ := 365 * yoe + yoe / 4 - yoe / 100

lemma daysBeforeYear_eq {century quad year : ℕ} (hquad : quad ≤ 24) (hyear : year ≤ 3) :
    daysBeforeYear (100 * century + 4 * quad + year) =
      36524 * century + 1461 * quad + 365 * year := by
  have hfour : (100 * century + 4 * quad + year) / 4 = 25 * century + quad := by omega
  have hhundred : (100 * century + 4 * quad + year) / 100 = century := by omega
  rw [daysBeforeYear, hfour, hhundred]
  omega

lemma yearOfDay_spec {doe : ℕ} (h : doe < 146097) :
    (yearOfDay doe).1 < 400 ∧ (yearOfDay doe).2 < 366 ∧
      daysBeforeYear (yearOfDay doe).1 + (yearOfDay doe).2 = doe := by
  obtain ⟨century, hcentury⟩ : ∃ c, c = min 3 (doe / 36524) := ⟨_, rfl⟩
  obtain ⟨doc, hdoc⟩ : ∃ d, d = doe - century * 36524 := ⟨_, rfl⟩
  obtain ⟨year, hyear⟩ : ∃ y, y = min 3 (doc % 1461 / 365) := ⟨_, rfl⟩
  have hsplit : yearOfDay doe = (100 * century + 4 * (doc / 1461) + year,
      doc % 1461 - year * 365) := by
    subst hyear hdoc hcentury
    rfl
  have hdoc' : doc < 36525 ∧ century * 36524 + doc = doe ∧ century ≤ 3 := by omega
  have hyear' : year ≤ 3 ∧ year * 365 ≤ doc % 1461 ∧ doc % 1461 - year * 365 < 366 := by omega
  have hquad : doc / 1461 ≤ 24 := by omega
  rw [hsplit, daysBeforeYear_eq hquad hyear'.1]
  omega

/-- The month (counted from March) and the day of a day of the year. -/
def monthOfDay (doy : ℕ) : ℕ × ℕ :=
  ((5 * doy + 2) / 153, doy - (153 * ((5 * doy + 2) / 153) + 2) / 5)

lemma monthOfDay_spec {doy : ℕ} (h : doy < 366) :
    (monthOfDay doy).1 ≤ 11 ∧
      (153 * (monthOfDay doy).1 + 2) / 5 + (monthOfDay doy).2 = doy ∧ (monthOfDay doy).2 < 31 := by
  simp only [monthOfDay]
  omega

/-- A date: year, month and day. -/
structure Civil where
  year : ℕ
  month : ℕ
  day : ℕ
deriving DecidableEq, Repr

/-- The date of a day counted from the first of March of the year 0. -/
def civilOfDays (z : ℕ) : Civil :=
  let y := yearOfDay (z % 146097)
  let m := monthOfDay y.2
  if m.1 < 10 then ⟨z / 146097 * 400 + y.1, m.1 + 3, m.2 + 1⟩
  else ⟨z / 146097 * 400 + y.1 + 1, m.1 - 9, m.2 + 1⟩

/-- The day of a date, counted from the first of March of the year 0. -/
def daysOfCivil (date : Civil) : ℕ :=
  let year := if date.month ≤ 2 then date.year - 1 else date.year
  let mp := if date.month ≤ 2 then date.month + 9 else date.month - 3
  year / 400 * 146097 + (daysBeforeYear (year % 400) + ((153 * mp + 2) / 5 + (date.day - 1)))

/-- **A day is the day of its date.** -/
theorem daysOfCivil_civilOfDays (z : ℕ) : daysOfCivil (civilOfDays z) = z := by
  obtain ⟨hy, hd, hdays⟩ := yearOfDay_spec (Nat.mod_lt z (by norm_num : 146097 > 0))
  obtain ⟨hm, hmonth, -⟩ := monthOfDay_spec hd
  have hera : ∀ e : ℕ, (e * 400 + (yearOfDay (z % 146097)).1) / 400 = e ∧
      (e * 400 + (yearOfDay (z % 146097)).1) % 400 = (yearOfDay (z % 146097)).1 := by omega
  have hz := Nat.div_add_mod z 146097
  unfold civilOfDays
  dsimp only
  split
  · rename_i hlt
    have h2 : ¬ (monthOfDay (yearOfDay (z % 146097)).2).1 + 3 ≤ 2 := by omega
    simp only [daysOfCivil, if_neg h2, (hera _).1, (hera _).2, Nat.add_sub_cancel]
    omega
  · rename_i hge
    have h2 : (monthOfDay (yearOfDay (z % 146097)).2).1 - 9 ≤ 2 := by omega
    have hm' : (monthOfDay (yearOfDay (z % 146097)).2).1 - 9 + 9 =
        (monthOfDay (yearOfDay (z % 146097)).2).1 := by omega
    simp only [daysOfCivil, if_pos h2, Nat.add_sub_cancel, (hera _).1, (hera _).2, hm']
    omega

/-! ### Clock readings -/

/-- The microseconds of a day. -/
def dayMicros : ℕ := 86400000000

/-- The days from the first of March of the year 0 to the beginning of the year 1. -/
def yearOneDays : ℕ := 306

/-- A reading of a UTC clock: the microseconds since the beginning of the year 1, before
the end of the year 9999. -/
structure Datetime where
  micros : ℕ
  lt_max : micros < 3652059 * dayMicros
deriving DecidableEq

/-! ### Digits of fixed width -/

/-- The last `w` decimal digits of a number. -/
def digits : ℕ → ℕ → List Char
  | 0, _ => []
  | w + 1, n => (n / 10 ^ w % 10).digitChar :: digits w (n % 10 ^ w)

def digitValue (c : Char) : Option ℕ :=
  if c.isDigit then some (c.toNat - 48) else none

/-- Read `w` digits, continuing the number `acc`. -/
def readDigits : ℕ → ℕ → List Char → Option (ℕ × List Char)
  | 0, acc, cs => some (acc, cs)
  | _ + 1, _, [] => none
  | w + 1, acc, c :: cs => (digitValue c).bind fun d => readDigits w (10 * acc + d) cs

lemma digitValue_digitChar : ∀ d < 10, digitValue d.digitChar = some d := by decide

lemma readDigits_digits (w : ℕ) :
    ∀ {n : ℕ} (acc : ℕ) (cs : List Char), n < 10 ^ w →
      readDigits w acc (digits w n ++ cs) = some (acc * 10 ^ w + n, cs) := by
  induction w with
  | zero =>
      intro n acc cs hn
      have hn0 : n = 0 := by simpa using hn
      simp [digits, readDigits, hn0]
  | succ w ih =>
      intro n acc cs hn
      have hd : n / 10 ^ w < 10 := by
        rw [Nat.div_lt_iff_lt_mul (by positivity)]
        simpa [pow_succ, mul_comm] using hn
      have hmod : n % 10 ^ w < 10 ^ w := Nat.mod_lt n (by positivity)
      simp only [digits, List.cons_append, readDigits, Nat.mod_eq_of_lt hd,
        digitValue_digitChar _ hd, Option.bind_some, ih _ _ hmod, Option.some.injEq,
        Prod.mk.injEq, and_true]
      calc (10 * acc + n / 10 ^ w) * 10 ^ w + n % 10 ^ w
          = acc * 10 ^ (w + 1) + (10 ^ w * (n / 10 ^ w) + n % 10 ^ w) := by ring
        _ = acc * 10 ^ (w + 1) + n := by rw [Nat.div_add_mod]

/-! ### The text of a reading -/

namespace Datetime

def date (t : Datetime) : Civil := civilOfDays (t.micros / dayMicros + yearOneDays)

lemma date_year_lt (t : Datetime) : t.date.year < 10 ^ 4 := by
  have hdays : t.micros / dayMicros < 3652059 :=
    (Nat.div_lt_iff_lt_mul (by norm_num [dayMicros])).2 t.lt_max
  obtain ⟨z, hz⟩ : ∃ z, z = t.micros / dayMicros + yearOneDays := ⟨_, rfl⟩
  have hzlt : z < 3652365 := by
    rw [hz, yearOneDays]
    omega
  obtain ⟨hy, hd, hsum⟩ := yearOfDay_spec (Nat.mod_lt z (by norm_num : 146097 > 0))
  have hlast : (yearOfDay (z % 146097)).1 = 399 → 145731 + (yearOfDay (z % 146097)).2
      = z % 146097 := by
    intro h399
    rw [h399] at hsum
    simpa [daysBeforeYear] using hsum
  simp only [date, ← hz, civilOfDays, monthOfDay]
  split <;> simp only <;> omega

lemma date_month_day_lt (t : Datetime) : t.date.month < 10 ^ 2 ∧ t.date.day < 10 ^ 2 := by
  obtain ⟨-, hd, -⟩ := yearOfDay_spec
    (Nat.mod_lt (t.micros / dayMicros + yearOneDays) (by norm_num : 146097 > 0))
  obtain ⟨hm, -, hday⟩ := monthOfDay_spec hd
  simp only [date, civilOfDays]
  split <;> simp only <;> omega

end Datetime

/-- The text of a date. -/
def dateText (date : Civil) : List Char :=
  digits 4 date.year ++ ('-' :: (digits 2 date.month ++ ('-' :: digits 2 date.day)))

/-- The text of a time of day, without a fraction when that is zero. -/
def timeText (r : ℕ) : List Char :=
  digits 2 (r / 3600000000) ++ (':' :: (digits 2 (r / 60000000 % 60) ++ (':' ::
    (digits 2 (r / 1000000 % 60) ++
      (if r % 1000000 = 0 then [] else '.' :: digits 6 (r % 1000000))))))

/-- `datetime.isoformat` of a UTC reading. -/
def Datetime.isoformat (t : Datetime) : String :=
  String.ofList (dateText t.date ++ ('T' :: (timeText (t.micros % dayMicros) ++
    ['+', '0', '0', ':', '0', '0'])))

/-! ### Reading a time -/

/-- A time that was read: with an offset to UTC, or without one.  Both count the
microseconds since the beginning of the year 1. -/
inductive IsoTime where
  | naive (micros : ℤ)
  | aware (micros : ℤ)
deriving DecidableEq, Repr

/-- Read one given character. -/
def expectChar (c : Char) : List Char → Option (List Char)
  | d :: cs => if d = c then some cs else none
  | [] => none

/-- The date exists in the calendar, from the year 1 on. -/
def Civil.inCalendar (date : Civil) : Bool :=
  civilOfDays (daysOfCivil date) == date && decide (yearOneDays ≤ daysOfCivil date)

/-- A date of the calendar. -/
def readDate (cs : List Char) : Option (Civil × List Char) := do
  let (year, cs) ← readDigits 4 0 cs
  let cs ← expectChar '-' cs
  let (month, cs) ← readDigits 2 0 cs
  let cs ← expectChar '-' cs
  let (day, cs) ← readDigits 2 0 cs
  if (Civil.mk year month day).inCalendar then some (⟨year, month, day⟩, cs) else none

/-- The fraction of a second in microseconds, zero when there is none. -/
def readFraction : List Char → Option (ℕ × List Char)
  | '.' :: cs => readDigits 6 0 cs
  | cs => some (0, cs)

/-- A time of day in microseconds. -/
def readTime (cs : List Char) : Option (ℕ × List Char) := do
  let (hour, cs) ← readDigits 2 0 cs
  let cs ← expectChar ':' cs
  let (minute, cs) ← readDigits 2 0 cs
  let cs ← expectChar ':' cs
  let (second, cs) ← readDigits 2 0 cs
  let (fraction, cs) ← readFraction cs
  if hour < 24 ∧ minute < 60 ∧ second < 60 then
    some (hour * 3600000000 + minute * 60000000 + second * 1000000 + fraction, cs)
  else none

/-- The microseconds of an offset of hours and minutes. -/
def readOffset (cs : List Char) : Option ℤ := do
  let (hours, cs) ← readDigits 2 0 cs
  let cs ← expectChar ':' cs
  let (minutes, cs) ← readDigits 2 0 cs
  if cs = [] ∧ hours < 24 ∧ minutes < 60 then some ((hours * 60 + minutes : ℕ) * 60000000 : ℤ)
  else none

/-- The time of a local time and what follows it. -/
def withOffset (micros : ℤ) : List Char → Option IsoTime
  | [] => some (.naive micros)
  | '+' :: cs => (readOffset cs).map fun offset => .aware (micros - offset)
  | '-' :: cs => (readOffset cs).map fun offset => .aware (micros + offset)
  | _ => none

/-- `datetime.fromisoformat(s)`; `none` is a `ValueError`. -/
def fromisoformat (s : String) : Option IsoTime := do
  let (date, cs) ← readDate s.toList
  let cs ← expectChar 'T' cs
  let (time, cs) ← readTime cs
  withOffset (((daysOfCivil date - yearOneDays) * dayMicros + time : ℕ) : ℤ) cs

lemma Datetime.date_inCalendar (t : Datetime) : t.date.inCalendar = true := by
  have hdays : daysOfCivil t.date = t.micros / dayMicros + yearOneDays :=
    daysOfCivil_civilOfDays _
  have hdate : civilOfDays (daysOfCivil t.date) = t.date := by rw [hdays, Datetime.date]
  have hfrom : yearOneDays ≤ daysOfCivil t.date := hdays ▸ Nat.le_add_left _ _
  rw [Civil.inCalendar, hdate, beq_self_eq_true, decide_eq_true hfrom, Bool.and_self]

lemma readDate_text {date : Civil} (hyear : date.year < 10 ^ 4) (hmonth : date.month < 10 ^ 2)
    (hday : date.day < 10 ^ 2) (hcal : date.inCalendar = true) (cs : List Char) :
    readDate (dateText date ++ cs) = some (date, cs) := by
  have hdash : ∀ cs, expectChar '-' ('-' :: cs) = some cs := fun cs => by simp [expectChar]
  simp only [readDate, dateText, List.append_assoc, List.cons_append, Option.bind_eq_bind]
  rw [readDigits_digits 4 0 _ hyear, Option.bind_some]
  dsimp only
  rw [hdash, Option.bind_some, readDigits_digits 2 0 _ hmonth, Option.bind_some]
  dsimp only
  rw [hdash, Option.bind_some, readDigits_digits 2 0 _ hday, Option.bind_some]
  simp only [zero_mul, zero_add, hcal, if_true]

lemma readFraction_text {n : ℕ} (hn : n < 10 ^ 6) (cs : List Char) :
    readFraction ((if n = 0 then [] else '.' :: digits 6 n) ++ ('+' :: cs)) =
      some (n, '+' :: cs) := by
  split
  · rename_i h0
    simp [readFraction, h0]
  · simp only [List.cons_append, readFraction, readDigits_digits 6 0 _ hn]
    simp

lemma readTime_text {r : ℕ} (hr : r < dayMicros) (cs : List Char) :
    readTime (timeText r ++ ('+' :: cs)) = some (r, '+' :: cs) := by
  rw [dayMicros] at hr
  have hh : r / 3600000000 < 10 ^ 2 := by omega
  have hmi : r / 60000000 % 60 < 10 ^ 2 := by omega
  have hs : r / 1000000 % 60 < 10 ^ 2 := by omega
  have hf : r % 1000000 < 10 ^ 6 := by omega
  have hvalid : r / 3600000000 < 24 ∧ r / 60000000 % 60 < 60 ∧ r / 1000000 % 60 < 60 := by omega
  have hsum : r / 3600000000 * 3600000000 + r / 60000000 % 60 * 60000000
      + r / 1000000 % 60 * 1000000 + r % 1000000 = r := by omega
  simp only [readTime, timeText, List.append_assoc, List.cons_append, readDigits_digits _ _ _ hh,
    readDigits_digits _ _ _ hmi, readDigits_digits _ _ _ hs, readFraction_text hf, expectChar,
    if_true, zero_mul, zero_add, Option.bind_eq_bind, Option.bind_some, if_pos hvalid, hsum]

/-- **The text of a reading is read back as the reading.** -/
theorem fromisoformat_isoformat (t : Datetime) :
    fromisoformat t.isoformat = some (.aware t.micros) := by
  have hdays : daysOfCivil t.date = t.micros / dayMicros + yearOneDays :=
    daysOfCivil_civilOfDays _
  have hoffset : readOffset ['0', '0', ':', '0', '0'] = some 0 := by decide
  have hmod : t.micros % dayMicros < dayMicros := Nat.mod_lt _ (by norm_num [dayMicros])
  have hdate := readDate_text t.date_year_lt t.date_month_day_lt.1 t.date_month_day_lt.2
    t.date_inCalendar
  simp only [fromisoformat, Datetime.isoformat, String.toList_ofList, hdate,
    readTime_text hmod, expectChar, if_true, Option.bind_eq_bind, Option.bind_some, hdays,
    withOffset, hoffset, Option.map_some, sub_zero, Nat.add_sub_cancel, mul_comm _ dayMicros,
    Nat.div_add_mod]

end StarterBackend.Lib

import Bussard.Lib.FixedDigits
import Mathlib.Data.List.TakeWhile

/-! Times as UTC text: days as dates of the Gregorian calendar, timestamps that are read back, and
stamps that sort as text as the times they stand for. -/
namespace Bussard.Model

open Text FixedDigits

/-- A point in time, in nanoseconds since the start of 1970. -/
abbrev SystemTime := Int

structure Civil where
  year : Int
  month : Nat
  day : Nat
  hour : Nat
  minute : Nat
  second : Nat
  millis : Nat
  deriving DecidableEq

/-- Days since 1970 as year, month and day. -/
def civilFromDays (z : Int) : Int × Nat × Nat :=
  let z := z + 719468
  let era := (if z ≥ 0 then z else z - 146096).tdiv 146097
  let doe := z - era * 146097
  let yoe := (doe - doe.tdiv 1460 + doe.tdiv 36524 - doe.tdiv 146096).tdiv 365
  let y := yoe + era * 400
  let doy := doe - (365 * yoe + yoe.tdiv 4 - yoe.tdiv 100)
  let mp := (5 * doy + 2).tdiv 153
  let d := (doy - (153 * mp + 2).tdiv 5 + 1).toNat
  let m := (if mp < 10 then mp + 3 else mp - 9).toNat
  (if m ≤ 2 then y + 1 else y, m, d)

/-- A year, month and day as days since 1970. -/
def daysFromCivil (y : Int) (m d : Nat) : Int :=
  let y := if m ≤ 2 then y - 1 else y
  let era := (if y ≥ 0 then y else y - 399).tdiv 400
  let yoe := y - era * 400
  let doy := (153 * (if m > 2 then (m : Int) - 3 else m + 9) + 2).tdiv 5 + d - 1
  let doe := yoe * 365 + yoe.tdiv 4 - yoe.tdiv 100 + doy
  era * 146097 + doe - 719468

def toCivil (ts : SystemTime) : Civil :=
  let dur := ts.toNat
  let totalSecs : Int := (dur / 1000000000 : Nat)
  let days := totalSecs / 86400
  let secsOfDay := (totalSecs % 86400).toNat
  let (year, month, day) := civilFromDays days
  { year
    month
    day
    hour := secsOfDay / 3600
    minute := secsOfDay % 3600 / 60
    second := secsOfDay % 60
    millis := dur % 1000000000 / 1000000 }

/-- The date of a time, which is never before 1970. -/
def dateText (separator : String) (c : Civil) : String :=
  padded 4 c.year.toNat ++ separator ++ padded 2 c.month ++ separator ++ padded 2 c.day

def clockText (separator : String) (c : Civil) : String :=
  padded 2 c.hour ++ separator ++ padded 2 c.minute ++ separator ++ padded 2 c.second

/-- RFC 3339 with milliseconds. -/
def toRfc3339 (ts : SystemTime) : String :=
  let c := toCivil ts
  dateText "-" c ++ "T" ++ clockText ":" c ++ "." ++ padded 3 c.millis ++ "Z"

/-- RFC 3339 with seconds. -/
def rfc3339Utc (ts : SystemTime) : String :=
  let c := toCivil ts
  dateText "-" c ++ "T" ++ clockText ":" c ++ "Z"

/-- A compact stamp for the name of a directory. -/
def compactUtc (ts : SystemTime) : String :=
  let c := toCivil ts
  dateText "" c ++ "T" ++ clockText "" c ++ "Z"

/-- Up to three digits of a fraction, as milliseconds. -/
def fractionMillis (frac : String) : Nat :=
  let digits := (frac.toList.takeWhile Char.isDigit).take 3
  digits.zipIdx.foldl (fun m (ch, i) => m + (ch.toNat - '0'.toNat) * 10 ^ (2 - i)) 0

def parseRfc3339 (s : String) : Option SystemTime := do
  let (date, rest) ← splitOnce (trim s) "T"
  let time := if rest.toList.getLast? = some 'Z' then String.ofList rest.toList.dropLast else rest
  let dp := splitChar date '-'
  let year ← dp[0]?.bind parseI64
  let month ← dp[1]?.bind (parseUnsigned (2 ^ 32))
  let day ← dp[2]?.bind (parseUnsigned (2 ^ 32))
  let (hms, frac) := match splitOnce time "." with
    | some (hms, frac) => (hms, some frac)
    | none => (time, none)
  let tp := splitChar hms ':'
  let hour ← tp[0]?.bind (parseUnsigned (2 ^ 32))
  let minute ← tp[1]?.bind (parseUnsigned (2 ^ 32))
  let second ← tp[2]?.bind (parseUnsigned (2 ^ 32))
  let millis := (frac.map fractionMillis).getD 0
  let secs := daysFromCivil year month day * 86400 + hour * 3600 + minute * 60 + second
  if secs < 0 then some 0 else some (secs * 1000000000 + millis * 1000000)

/-- A text that is no timestamp is the start of 1970. -/
def fromRfc3339 (s : String) : SystemTime := (parseRfc3339 s).getD 0

/-- The days before the March of a year, from the March of year 0. -/
def yearStart (y : Int) : Int := 365 * y + y / 4 - y / 100 + y / 400

/-- The year of an era of 400 years, of a day of it. -/
def yearOfEra (doe : Int) : Int := (doe - doe / 1460 + doe / 36524 - doe / 146096) / 365

/-- A day of the era, by its century, its four years, its year of them and its day of the year. -/
theorem yearOfEra_day {c q r d : Int} (hc : 0 ≤ c ∧ c ≤ 3) (hq : 0 ≤ q ∧ q ≤ 24)
    (hr : 0 ≤ r ∧ r ≤ 3) (hd : 0 ≤ d ∧ (d ≤ 364 ∨ d = 365 ∧ r = 3 ∧ q ≤ 23)) :
    yearOfEra (36524 * c + 1461 * q + 365 * r + d) = 100 * c + 4 * q + r := by
  unfold yearOfEra
  have hCentury : (36524 * c + 1461 * q + 365 * r + d) / 36524 = c := by omega
  have hEra : (36524 * c + 1461 * q + 365 * r + d) / 146096 = 0 := by omega
  have hLeap : (36524 * c + 1461 * q + 365 * r + d) / 1460 = 25 * c + q ∧ d ≤ 364 ∨
      (36524 * c + 1461 * q + 365 * r + d) / 1460 = 25 * c + q + 1 ∧ 1 ≤ d := by omega
  rw [hCentury, hEra]
  omega

/-- A day of the era lies in its year of the era. -/
theorem yearOfEra_spec {doe : Int} (hLow : 0 ≤ doe) (hHigh : doe < 146097) :
    0 ≤ yearOfEra doe ∧ yearOfEra doe < 400 ∧
      365 * yearOfEra doe + yearOfEra doe / 4 - yearOfEra doe / 100 ≤ doe ∧
      (yearOfEra doe < 399 → doe < 365 * (yearOfEra doe + 1) + (yearOfEra doe + 1) / 4 -
        (yearOfEra doe + 1) / 100) := by
  by_cases hLast : doe = 146096
  · subst hLast
    decide
  · obtain ⟨c, q, r, d, hc, hq, hr, hd, rfl⟩ : ∃ c q r d : Int, (0 ≤ c ∧ c ≤ 3) ∧
        (0 ≤ q ∧ q ≤ 24) ∧ (0 ≤ r ∧ r ≤ 3) ∧
        (0 ≤ d ∧ (d ≤ 364 ∨ d = 365 ∧ r = 3 ∧ q ≤ 23)) ∧
        doe = 36524 * c + 1461 * q + 365 * r + d := by
      exact ⟨doe / 36524, doe % 36524 / 1461, min 3 (doe % 36524 % 1461 / 365),
        doe % 36524 % 1461 - 365 * min 3 (doe % 36524 % 1461 / 365),
        by omega, by omega, by omega, by omega, by omega⟩
    rw [yearOfEra_day hc hq hr hd]
    have hFour : (100 * c + 4 * q + r) / 4 = 25 * c + q := by omega
    have hHundred : (100 * c + 4 * q + r) / 100 = c := by omega
    have hNextFour : (100 * c + 4 * q + r + 1) / 4 = 25 * c + q ∧ r ≤ 2 ∨
        (100 * c + 4 * q + r + 1) / 4 = 25 * c + q + 1 ∧ r = 3 := by omega
    have hNextHundred : (100 * c + 4 * q + r + 1) / 100 = c ∨
        (100 * c + 4 * q + r + 1) / 100 = c + 1 ∧ q = 24 ∧ r = 3 := by omega
    rw [hFour, hHundred]
    exact ⟨by omega, by omega, by omega, fun _ => by omega⟩

/-- A day, the year it lies in counted from March, the month from March and the day of it. -/
structure Dated (z y mp d : Int) : Prop where
  day : z + 719468 = yearStart y + ((153 * mp + 2) / 5 + d - 1)
  inYear : z + 719468 < yearStart (y + 1)
  month : 0 ≤ mp ∧ mp < 12
  inMonth : 1 ≤ d ∧ (153 * mp + 2) / 5 + d - 1 < (153 * (mp + 1) + 2) / 5

theorem tdiv_eq {a b : Int} (h : 0 ≤ a) : a.tdiv b = a / b := Int.tdiv_eq_ediv_of_nonneg h

/-- Rounding down, as it is written for a division that rounds to zero. -/
theorem floor_eq (z : Int) {b : Int} (hb : 0 < b) :
    (if z ≥ 0 then z else z - (b - 1)).tdiv b = z / b := by
  by_cases hz : z ≥ 0
  · rw [if_pos hz, tdiv_eq hz]
  · have hNeg : z - (b - 1) = -(b - 1 - z) := by omega
    have hLow := Int.emod_nonneg z (Int.ne_of_gt hb)
    have hHigh := Int.emod_lt_of_pos z hb
    have hSplit : b - 1 - z = b - 1 - z % b + b * -(z / b) := by
      have hDivMod := Int.emod_add_mul_ediv z b
      rw [Int.mul_neg]
      omega
    rw [if_neg hz, hNeg, Int.neg_tdiv, tdiv_eq (by omega), hSplit,
      Int.add_mul_ediv_left _ _ (Int.ne_of_gt hb), Int.ediv_eq_zero_of_lt (by omega) (by omega)]
    omega

theorem yearStart_era {yoe : Int} (era : Int) (hLow : 0 ≤ yoe) (hHigh : yoe < 400) :
    yearStart (yoe + era * 400) = era * 146097 + (365 * yoe + yoe / 4 - yoe / 100) := by
  unfold yearStart
  omega

/-- The month, from March, of a day of the year that starts in March. -/
theorem month_spec {doy : Int} (hLow : 0 ≤ doy) (hHigh : doy ≤ 365) :
    (0 ≤ (5 * doy + 2) / 153 ∧ (5 * doy + 2) / 153 < 12) ∧
      1 ≤ doy - (153 * ((5 * doy + 2) / 153) + 2) / 5 + 1 ∧
      doy < (153 * ((5 * doy + 2) / 153 + 1) + 2) / 5 := by
  omega

/-- The computation of the year, the month and the day, step by step. -/
theorem civilFromDays_spec (z : Int) : ∃ y mp d, Dated z y mp d ∧
    civilFromDays z = (if mp < 10 then y else y + 1, (if mp < 10 then mp + 3 else mp - 9).toNat,
      d.toNat) := by
  obtain ⟨hLow, hHigh, hStart, hNext⟩ := @yearOfEra_spec ((z + 719468) % 146097)
    (Int.emod_nonneg _ (by decide)) (Int.emod_lt_of_pos _ (by decide))
  have hEra : (if z + 719468 ≥ 0 then z + 719468 else z + 719468 - 146096).tdiv 146097 =
      (z + 719468) / 146097 := floor_eq (z + 719468) (show (0 : Int) < 146097 by decide)
  have hDoe : z + 719468 - (z + 719468) / 146097 * 146097 = (z + 719468) % 146097 := by omega
  have hDoeLow := Int.emod_nonneg (z + 719468) (show (146097 : Int) ≠ 0 by decide)
  have hDoeHigh := Int.emod_lt_of_pos (z + 719468) (show (0 : Int) < 146097 by decide)
  generalize hE : (z + 719468) / 146097 = era at hEra hDoe
  generalize hD : (z + 719468) % 146097 = doe at *
  have hYoe : (doe - doe.tdiv 1460 + doe.tdiv 36524 - doe.tdiv 146096).tdiv 365 = yearOfEra doe := by
    rw [tdiv_eq hDoeLow, tdiv_eq hDoeLow, tdiv_eq hDoeLow, tdiv_eq (by omega), yearOfEra]
  generalize yearOfEra doe = yoe at *
  have hDoy : 0 ≤ doe - (365 * yoe + yoe / 4 - yoe / 100) := by omega
  have hDoyHigh : doe - (365 * yoe + yoe / 4 - yoe / 100) ≤ 365 := by
    by_cases hLast : yoe < 399
    · have hBound := hNext hLast
      omega
    · omega
  refine ⟨yoe + era * 400, (5 * (doe - (365 * yoe + yoe / 4 - yoe / 100)) + 2) / 153,
    doe - (365 * yoe + yoe / 4 - yoe / 100) -
      (153 * ((5 * (doe - (365 * yoe + yoe / 4 - yoe / 100)) + 2) / 153) + 2) / 5 + 1, ?_, ?_⟩
  · obtain ⟨hMonth, hDay, hMonthEnd⟩ := month_spec hDoy hDoyHigh
    constructor
    · rw [yearStart_era era hLow hHigh]
      omega
    · by_cases hLast : yoe < 399
      · have hBound := hNext hLast
        rw [show yoe + era * 400 + 1 = yoe + 1 + era * 400 by omega,
          yearStart_era era (by omega) (by omega)]
        omega
      · rw [show yoe + era * 400 + 1 = 0 + (era + 1) * 400 by omega,
          yearStart_era (era + 1) (by omega) (by omega)]
        omega
    · exact hMonth
    · exact ⟨hDay, by omega⟩
  · have hYear : 365 * yoe + yoe.tdiv 4 - yoe.tdiv 100 = 365 * yoe + yoe / 4 - yoe / 100 := by
      rw [tdiv_eq hLow, tdiv_eq hLow]
    simp only [civilFromDays, hEra, hDoe, hYoe, hYear]
    generalize doe - (365 * yoe + yoe / 4 - yoe / 100) = doy at *
    have hMonth : (5 * doy + 2).tdiv 153 = (5 * doy + 2) / 153 := tdiv_eq (by omega)
    have hDays : (153 * ((5 * doy + 2) / 153) + 2).tdiv 5 = (153 * ((5 * doy + 2) / 153) + 2) / 5 :=
      tdiv_eq (by omega)
    rw [hMonth, hDays]
    by_cases hFirst : (5 * doy + 2) / 153 < 10
    · rw [if_pos hFirst, if_pos hFirst, if_neg (by omega)]
    · rw [if_neg hFirst, if_neg hFirst, if_pos (by omega)]

/-- The days of a date, by its year and month from March. -/
theorem daysFromCivil_eq {y mp : Int} {m d : Nat} (hMonth : 0 ≤ mp ∧ mp < 12)
    (hm : m = (if mp < 10 then mp + 3 else mp - 9).toNat) :
    daysFromCivil (if mp < 10 then y else y + 1) m d =
      yearStart y + ((153 * mp + 2) / 5 + d - 1) - 719468 := by
  have hEra : (if y ≥ 0 then y else y - 399).tdiv 400 = y / 400 :=
    floor_eq y (show (0 : Int) < 400 by decide)
  have hYear : (if m ≤ 2 then (if mp < 10 then y else y + 1) - 1 else
      if mp < 10 then y else y + 1) = y := by
    by_cases hFirst : mp < 10
    · rw [if_pos hFirst, if_neg (by rw [if_pos hFirst] at hm; omega)]
    · rw [if_neg hFirst, if_pos (by rw [if_neg hFirst] at hm; omega)]
      omega
  have hFrom : (if m > 2 then (m : Int) - 3 else m + 9) = mp := by
    by_cases hFirst : mp < 10
    · rw [if_pos hFirst] at hm
      rw [if_pos (by omega)]
      omega
    · rw [if_neg hFirst] at hm
      rw [if_neg (by omega)]
      omega
  have hYoe : y - y / 400 * 400 = y % 400 := by omega
  have hDays : (153 * mp + 2).tdiv 5 = (153 * mp + 2) / 5 := tdiv_eq (by omega)
  have hLow := Int.emod_nonneg y (show (400 : Int) ≠ 0 by decide)
  simp only [daysFromCivil, hYear, hEra, hFrom, hYoe, hDays, tdiv_eq hLow]
  unfold yearStart
  omega

/-- A day is found again from its date. -/
theorem daysFromCivil_civilFromDays (z : Int) :
    daysFromCivil (civilFromDays z).1 (civilFromDays z).2.1 (civilFromDays z).2.2 = z := by
  obtain ⟨y, mp, d, hDated, hCivil⟩ := civilFromDays_spec z
  have hDay := hDated.day
  have hPositive := hDated.inMonth.1
  rw [hCivil]
  simp only
  rw [daysFromCivil_eq hDated.month rfl]
  omega

theorem yearStart_le {a b : Int} (hLe : a ≤ b) : yearStart a ≤ yearStart b := by
  have hFour : a / 4 ≤ b / 4 := Int.ediv_le_ediv (by decide) hLe
  have hEra : a / 400 ≤ b / 400 := Int.ediv_le_ediv (by decide) hLe
  have hCentury : b / 100 - a / 100 ≤ b - a := by omega
  unfold yearStart
  omega

/-- Of two days the earlier one has the earlier date. -/
theorem civilFromDays_lt {a b : Int} (hLt : a < b) :
    (civilFromDays a).1 < (civilFromDays b).1 ∨
      (civilFromDays a).1 = (civilFromDays b).1 ∧
        ((civilFromDays a).2.1 < (civilFromDays b).2.1 ∨
          (civilFromDays a).2.1 = (civilFromDays b).2.1 ∧
            (civilFromDays a).2.2 < (civilFromDays b).2.2) := by
  obtain ⟨y, mp, d, hDated, hCivil⟩ := civilFromDays_spec a
  obtain ⟨y', mp', d', hDated', hCivil'⟩ := civilFromDays_spec b
  obtain ⟨hDay, hInYear, hMonth, hInMonth⟩ := hDated
  obtain ⟨hDay', hInYear', hMonth', hInMonth'⟩ := hDated'
  rw [hCivil, hCivil']
  simp only
  have hYears : y ≤ y' := by
    by_contra hAfter
    have hStart := yearStart_le (show y' + 1 ≤ y by omega)
    omega
  by_cases hSame : y = y'
  · subst hSame
    have hMonths : mp < mp' ∨ mp = mp' ∧ d < d' := by omega
    by_cases hFirst : mp < 10
    · by_cases hSecond : mp' < 10
      · rw [if_pos hFirst, if_pos hFirst, if_pos hSecond, if_pos hSecond]
        omega
      · rw [if_pos hFirst, if_neg hSecond]
        omega
    · by_cases hSecond : mp' < 10
      · omega
      · rw [if_neg hFirst, if_neg hFirst, if_neg hSecond, if_neg hSecond]
        omega
  · by_cases hFirst : mp < 10
    · by_cases hSecond : mp' < 10
      · rw [if_pos hFirst, if_pos hSecond]
        omega
      · rw [if_pos hFirst, if_neg hSecond]
        omega
    · by_cases hSecond : mp' < 10
      · rw [if_neg hFirst, if_neg hFirst, if_pos hSecond, if_pos hSecond]
        omega
      · rw [if_neg hFirst, if_neg hSecond]
        omega

/-- The Gregorian rule. -/
def LeapYear (y : Int) : Prop := y % 4 = 0 ∧ (y % 100 ≠ 0 ∨ y % 400 = 0)

instance (y : Int) : Decidable (LeapYear y) :=
  inferInstanceAs (Decidable (y % 4 = 0 ∧ (y % 100 ≠ 0 ∨ y % 400 = 0)))

def monthLength (y : Int) (m : Nat) : Nat :=
  if m = 2 then if LeapYear y then 29 else 28
  else if m = 4 ∨ m = 6 ∨ m = 9 ∨ m = 11 then 30 else 31

structure GregorianDate (y : Int) (m d : Nat) : Prop where
  month : 1 ≤ m ∧ m ≤ 12
  day : 1 ≤ d ∧ d ≤ monthLength y m

theorem yearStart_succ (y : Int) :
    yearStart (y + 1) = yearStart y + if LeapYear (y + 1) then 366 else 365 := by
  by_cases hLeap : LeapYear (y + 1)
  · rw [if_pos hLeap]
    unfold yearStart
    unfold LeapYear at hLeap
    omega
  · rw [if_neg hLeap]
    unfold yearStart
    unfold LeapYear at hLeap
    omega

/-- A date has one form. -/
theorem Dated.unique {z y y' mp mp' d d' : Int} (h : Dated z y mp d) (h' : Dated z y' mp' d') :
    y = y' ∧ mp = mp' ∧ d = d' := by
  obtain ⟨hDay, hInYear, hMonth, hInMonth⟩ := h
  obtain ⟨hDay', hInYear', hMonth', hInMonth'⟩ := h'
  have hYears : y = y' := by
    by_contra hOther
    cases Int.lt_or_gt_of_ne hOther with
    | inl hLess =>
        have hStart := yearStart_le (show y + 1 ≤ y' by omega)
        omega
    | inr hMore =>
        have hStart := yearStart_le (show y' + 1 ≤ y by omega)
        omega
  subst hYears
  omega

/-- The last day of a month, counted from March. -/
theorem monthLength_eq {y mp : Int} (hMonth : 0 ≤ mp ∧ mp < 11) {m : Nat}
    (hm : m = (if mp < 10 then mp + 3 else mp - 9).toNat) :
    (monthLength y m : Int) = (153 * (mp + 1) + 2) / 5 - (153 * mp + 2) / 5 := by
  have hCases : mp = 0 ∨ mp = 1 ∨ mp = 2 ∨ mp = 3 ∨ mp = 4 ∨ mp = 5 ∨ mp = 6 ∨ mp = 7 ∨ mp = 8 ∨
      mp = 9 ∨ mp = 10 := by omega
  rcases hCases with rfl | rfl | rfl | rfl | rfl | rfl | rfl | rfl | rfl | rfl | rfl <;>
    (subst hm; rfl)

/-- The days of a year before and in its last month, February. -/
theorem february_eq (y : Int) : (monthLength (y + 1) 2 : Int) + 337 =
    yearStart (y + 1) - yearStart y := by
  rw [yearStart_succ]
  by_cases hLeap : LeapYear (y + 1)
  · simp only [monthLength, if_true, if_pos hLeap]
    omega
  · simp only [monthLength, if_true, if_neg hLeap]
    omega

/-- A date of the shifted year is one of the calendar. -/
theorem Dated.gregorian {z y mp d : Int} (h : Dated z y mp d) :
    GregorianDate (if mp < 10 then y else y + 1) (if mp < 10 then mp + 3 else mp - 9).toNat
      d.toNat := by
  obtain ⟨hDay, hInYear, hMonth, hInMonth⟩ := h
  constructor
  · by_cases hFirst : mp < 10
    · rw [if_pos hFirst]
      omega
    · rw [if_neg hFirst]
      omega
  · by_cases hLast : mp < 11
    · have hLength := @monthLength_eq (if mp < 10 then y else y + 1) mp ⟨hMonth.1, hLast⟩ _ rfl
      omega
    · have hFebruary := february_eq y
      have hEnd : mp = 11 := by omega
      subst hEnd
      have hTwo : (if (11 : Int) < 10 then (11 : Int) + 3 else 11 - 9).toNat = 2 := rfl
      rw [hTwo, if_neg (show ¬ (11 : Int) < 10 by decide)]
      omega

theorem civilFromDays_gregorian (z : Int) :
    GregorianDate (civilFromDays z).1 (civilFromDays z).2.1 (civilFromDays z).2.2 := by
  obtain ⟨y, mp, d, hDated, hCivil⟩ := civilFromDays_spec z
  rw [hCivil]
  exact hDated.gregorian

theorem monthLength_le (y : Int) (m : Nat) : monthLength y m ≤ 31 := by
  unfold monthLength
  split
  · split
    · decide
    · decide
  · split
    · decide
    · decide

/-- A separator of one character is found where it first stands. -/
theorem splitOnce_char {front back pattern : String} {c : Char} (hPattern : pattern.toList = [c])
    (hFree : c ∉ front.toList) :
    splitOnce (front ++ pattern ++ back) pattern = some (front, back) := by
  have hList : (front ++ pattern ++ back).toList = front.toList ++ c :: back.toList := by
    rw [String.toList_append, String.toList_append, hPattern, List.append_assoc,
      List.singleton_append]
  have hFind : (List.range ((front ++ pattern ++ back).toList.length + 1)).find? (fun i =>
      pattern.toList.isPrefixOf ((front ++ pattern ++ back).toList.drop i)) =
      some front.toList.length := by
    rw [List.find?_range_eq_some]
    refine ⟨?_, ?_, ?_⟩
    · rw [hList, List.drop_left, hPattern]
      simp [List.isPrefixOf]
    · rw [List.mem_range, hList, List.length_append]
      omega
    · intro j hj
      rw [Bool.not_eq_true', Bool.eq_false_iff]
      intro hPrefix
      rw [hList, List.drop_append_of_le_length (Nat.le_of_lt hj), List.isPrefixOf_iff_prefix,
        List.drop_eq_getElem_cons hj, hPattern] at hPrefix
      obtain ⟨rest, hRest⟩ := hPrefix
      have hHead : c = front.toList[j] := (List.cons.inj hRest).1
      exact hFree (by rw [hHead]; exact List.getElem_mem hj)
  have hDrop : (front.toList ++ c :: back.toList).drop (front.toList.length + 1) = back.toList := by
    rw [List.drop_append, List.drop_eq_nil_of_le (Nat.le_succ _)]
    simp
  rw [splitOnce, hFind, Option.map_some, hList, List.take_left, hPattern, List.length_singleton,
    hDrop, String.ofList_toList, String.ofList_toList]

theorem parseUnsigned_padded {limit width n : Nat} (hLimit : n < limit) :
    parseUnsigned limit (padded width n) = some n := by
  obtain ⟨c, rest, hText⟩ := List.exists_cons_of_ne_nil (padded_ne_nil width n)
  have hDigit : c.isDigit = true := @isDigit_of_mem_padded width n c (by rw [hText]; simp)
  have hValue := digitsValue_padded width n
  rw [hText] at hValue
  rw [parseUnsigned, hText]
  split
  · next hEq =>
      rw [(List.cons.inj hEq).1] at hDigit
      exact absurd hDigit (by decide)
  · next hEq => rw [← hEq, hValue, Option.filter_some, if_pos (decide_eq_true hLimit)]
  · next hEq => cases hEq

/-- Leading zeros do not change a number. -/
theorem parseI64_padded {width n : Nat} (hRange : n < 2 ^ 63) :
    parseI64 (padded width n) = some (n : Int) := by
  obtain ⟨c, rest, hText⟩ := List.exists_cons_of_ne_nil (padded_ne_nil width n)
  have hDigit : c.isDigit = true := @isDigit_of_mem_padded width n c (by rw [hText]; simp)
  have hValue := digitsValue_padded width n
  rw [hText] at hValue
  rw [parseI64, hText]
  split
  · next hEq =>
      rw [(List.cons.inj hEq).1] at hDigit
      exact absurd hDigit (by decide)
  · next hEq =>
      rw [(List.cons.inj hEq).1] at hDigit
      exact absurd hDigit (by decide)
  · next hEq =>
      rw [← hEq, hValue, Option.bind_some, inI64, if_pos (by omega)]
  · next hEq => cases hEq

theorem splitChar_three {a b c separator : String} {mark : Char}
    (hMark : separator.toList = [mark]) (ha : mark ∉ a.toList) (hb : mark ∉ b.toList)
    (hc : mark ∉ c.toList) :
    splitChar (a ++ separator ++ b ++ separator ++ c) mark = [a, b, c] := by
  have hList : (a ++ separator ++ b ++ separator ++ c).toList =
      a.toList ++ mark :: (b.toList ++ mark :: c.toList) := by
    simp [String.toList_append, hMark]
  rw [splitChar, hList, List.splitOn_append_cons_self, List.splitOn_append_cons_self,
    List.splitOn_eq_singleton ha, List.splitOn_eq_singleton hb, List.splitOn_eq_singleton hc]
  simp

/-- No digit is a mark. -/
theorem not_mem_padded {mark : Char} (hMark : mark.isDigit = false) (width n : Nat) :
    mark ∉ (padded width n).toList := by
  intro hMem
  rw [isDigit_of_mem_padded hMem] at hMark
  cases hMark

theorem mem_dateText {separator : String} {c : Civil} {x : Char}
    (hMem : x ∈ (dateText separator c).toList) : x.isDigit = true ∨ x ∈ separator.toList := by
  simp only [dateText, String.toList_append, List.mem_append] at hMem
  obtain (((hDigit | hSep) | hDigit) | hSep) | hDigit := hMem
  · exact .inl (isDigit_of_mem_padded hDigit)
  · exact .inr hSep
  · exact .inl (isDigit_of_mem_padded hDigit)
  · exact .inr hSep
  · exact .inl (isDigit_of_mem_padded hDigit)

theorem mem_clockText {separator : String} {c : Civil} {x : Char}
    (hMem : x ∈ (clockText separator c).toList) : x.isDigit = true ∨ x ∈ separator.toList := by
  simp only [clockText, String.toList_append, List.mem_append] at hMem
  obtain (((hDigit | hSep) | hDigit) | hSep) | hDigit := hMem
  · exact .inl (isDigit_of_mem_padded hDigit)
  · exact .inr hSep
  · exact .inl (isDigit_of_mem_padded hDigit)
  · exact .inr hSep
  · exact .inl (isDigit_of_mem_padded hDigit)

/-- Three digits are the milliseconds they write. -/
theorem fractionMillis_padded {millis : Nat} (hMillis : millis < 1000) :
    fractionMillis (padded 3 millis) = millis := by
  have hDigits : ∀ c ∈ (padded 3 millis).toList, c.isDigit = true :=
    fun c hMem => isDigit_of_mem_padded hMem
  have hLength := length_padded (show 0 < 3 by decide) (show millis < 10 ^ 3 by omega)
  have hValue := ofDigitChars_padded 3 millis
  rw [fractionMillis, List.takeWhile_eq_self_iff.mpr hDigits, List.take_of_length_le hLength.le]
  obtain ⟨a, b, c, hText⟩ := List.length_eq_three.mp hLength
  rw [hText] at hValue ⊢
  simp only [Nat.ofDigitChars_cons, Nat.ofDigitChars_nil] at hValue
  simp only [List.zipIdx_cons, List.zipIdx_nil, List.foldl_cons, List.foldl_nil]
  omega

/-- The clock of a time. -/
theorem toCivil_clock (ts : SystemTime) : (toCivil ts).hour < 24 ∧ (toCivil ts).minute < 60 ∧
    (toCivil ts).second < 60 ∧ (toCivil ts).millis < 1000 := by
  simp only [toCivil]
  omega

theorem toCivil_date (ts : SystemTime) : ((toCivil ts).year, (toCivil ts).month, (toCivil ts).day) =
    civilFromDays ((ts.toNat / 1000000000 : Nat) / 86400) := by
  rw [toCivil]

/-- The seconds of a time, put together from its fields. -/
theorem toCivil_secs (ts : SystemTime) :
    daysFromCivil (toCivil ts).year (toCivil ts).month (toCivil ts).day * 86400 +
        (toCivil ts).hour * 3600 + (toCivil ts).minute * 60 + (toCivil ts).second =
      (ts.toNat / 1000000000 : Nat) := by
  have hDays := daysFromCivil_civilFromDays (((ts.toNat / 1000000000 : Nat) : Int) / 86400)
  simp only [toCivil]
  rw [hDays]
  omega

/-- A day from 1970 on is in a year from 1970 on. -/
theorem year_bounds {z : Int} (hz : 0 ≤ z) :
    1970 ≤ (civilFromDays z).1 ∧ (civilFromDays z).1 ≤ z + 719469 := by
  have hEpoch : (civilFromDays 0).1 = 1970 := by decide
  have hLow : 1970 ≤ (civilFromDays z).1 := by
    rw [← hEpoch]
    by_cases hZero : z = 0
    · rw [hZero]
    · cases civilFromDays_lt (show 0 < z by omega) with
      | inl hLess => exact hLess.le
      | inr hSame => exact hSame.1.le
  refine ⟨hLow, ?_⟩
  obtain ⟨y, mp, d, hDated, hCivil⟩ := civilFromDays_spec z
  have hDay := hDated.day
  have hMonth := hDated.month
  have hPositive := hDated.inMonth.1
  rw [hCivil] at hLow ⊢
  simp only at hLow ⊢
  have hYear : y ≤ yearStart y := by
    have hFirst : 1969 ≤ y := by
      by_cases hMarch : mp < 10
      · rw [if_pos hMarch] at hLow
        omega
      · rw [if_neg hMarch] at hLow
        omega
    unfold yearStart
    omega
  by_cases hMarch : mp < 10
  · rw [if_pos hMarch]
    omega
  · rw [if_neg hMarch]
    omega

theorem toRfc3339_eq (ts : SystemTime) : toRfc3339 ts = dateText "-" (toCivil ts) ++ "T" ++
    (clockText ":" (toCivil ts) ++ "." ++ padded 3 (toCivil ts).millis ++ "Z") := by
  simp only [toRfc3339, String.append_assoc]

/-- A printed time has no blanks to trim. -/
theorem trim_toRfc3339 (ts : SystemTime) : trim (toRfc3339 ts) = toRfc3339 ts := by
  apply trim_visible
  intro c hMem
  have hMark : c.isDigit = true ∨ c ∈ ['-', 'T', ':', '.', 'Z'] := by
    rw [toRfc3339_eq] at hMem
    simp only [String.toList_append, List.mem_append] at hMem
    obtain (hDate | hT) | ((hClock | hPoint) | hMillis) | hZ := hMem
    · cases mem_dateText hDate with
      | inl hDigit => exact .inl hDigit
      | inr hDash => exact .inr (by rw [List.mem_singleton.mp hDash]; decide)
    · exact .inr (by rw [List.mem_singleton.mp hT]; decide)
    · cases mem_clockText hClock with
      | inl hDigit => exact .inl hDigit
      | inr hColon => exact .inr (by rw [List.mem_singleton.mp hColon]; decide)
    · exact .inr (by rw [List.mem_singleton.mp hPoint]; decide)
    · exact .inl (isDigit_of_mem_padded hMillis)
    · exact .inr (by rw [List.mem_singleton.mp hZ]; decide)
  cases hMark with
  | inl hDigit => exact isWhitespace_of_isDigit hDigit
  | inr hMark =>
      simp only [List.mem_cons, List.not_mem_nil, or_false] at hMark
      obtain rfl | rfl | rfl | rfl | rfl := hMark
      all_goals rfl

/-- A mark that is no digit and not the separator is not in a date. -/
theorem not_mem_dateText {mark : Char} {separator : String} (hDigit : mark.isDigit = false)
    (hOther : mark ∉ separator.toList) (c : Civil) : mark ∉ (dateText separator c).toList := by
  intro hMem
  cases mem_dateText hMem with
  | inl hTrue =>
      rw [hDigit] at hTrue
      cases hTrue
  | inr hSeparator => exact hOther hSeparator

theorem not_mem_clockText {mark : Char} {separator : String} (hDigit : mark.isDigit = false)
    (hOther : mark ∉ separator.toList) (c : Civil) : mark ∉ (clockText separator c).toList := by
  intro hMem
  cases mem_clockText hMem with
  | inl hTrue =>
      rw [hDigit] at hTrue
      cases hTrue
  | inr hSeparator => exact hOther hSeparator

/-- The date and the clock of a timestamp are read back as its fields. -/
theorem parseRfc3339_fields {c : Civil} {front : String} (hYear : 0 ≤ c.year)
    (hRange : c.year.toNat < 2 ^ 63) (hMonth : c.month < 2 ^ 32) (hDay : c.day < 2 ^ 32)
    (hHour : c.hour < 2 ^ 32) (hMinute : c.minute < 2 ^ 32) (hSecond : c.second < 2 ^ 32)
    (hMillis : c.millis < 1000) (hTrim : trim front = front)
    (hFront : front = dateText "-" c ++ "T" ++
      (clockText ":" c ++ "." ++ padded 3 c.millis ++ "Z"))
    (hSecs : 0 ≤ daysFromCivil c.year c.month c.day * 86400 + c.hour * 3600 + c.minute * 60 +
      c.second) : parseRfc3339 front =
      some ((daysFromCivil c.year c.month c.day * 86400 + c.hour * 3600 + c.minute * 60 +
        c.second) * 1000000000 + c.millis * 1000000) := by
  have hTime : (clockText ":" c ++ "." ++ padded 3 c.millis ++ "Z").toList =
      (clockText ":" c ++ "." ++ padded 3 c.millis).toList ++ ['Z'] := by
    rw [String.toList_append]
    rfl
  have hDate : splitChar (dateText "-" c) '-' =
      [padded 4 c.year.toNat, padded 2 c.month, padded 2 c.day] :=
    splitChar_three rfl (not_mem_padded rfl _ _) (not_mem_padded rfl _ _) (not_mem_padded rfl _ _)
  have hClock : splitChar (clockText ":" c) ':' =
      [padded 2 c.hour, padded 2 c.minute, padded 2 c.second] :=
    splitChar_three rfl (not_mem_padded rfl _ _) (not_mem_padded rfl _ _) (not_mem_padded rfl _ _)
  have hYearOf : ((c.year.toNat : Nat) : Int) = c.year := Int.toNat_of_nonneg hYear
  unfold parseRfc3339
  rw [hTrim, hFront, splitOnce_char rfl (not_mem_dateText rfl (by decide) c)]
  simp only [Option.bind_eq_bind, Option.bind_some, hTime, List.getLast?_append,
    List.getLast?_singleton, Option.some_or, if_true, List.dropLast_concat, String.ofList_toList]
  rw [splitOnce_char rfl (not_mem_clockText rfl (by decide) c)]
  simp only [hDate, hClock, List.getElem?_cons_zero, List.getElem?_cons_succ, Option.bind_some,
    parseI64_padded hRange, hYearOf, parseUnsigned_padded hMonth, parseUnsigned_padded hDay,
    parseUnsigned_padded hHour, parseUnsigned_padded hMinute, parseUnsigned_padded hSecond,
    Option.map_some, Option.getD_some, fractionMillis_padded hMillis]
  rw [if_neg (Int.not_lt.mpr hSecs)]

theorem toCivil_millis (ts : SystemTime) :
    (toCivil ts).millis = ts.toNat % 1000000000 / 1000000 := rfl

/-- The date of a time that a machine can hold fits the numbers a date is read as. -/
theorem toCivil_bounds {ts : SystemTime} (hRange : ts.toNat / 1000000000 < 2 ^ 63) :
    0 ≤ (toCivil ts).year ∧ (toCivil ts).year.toNat < 2 ^ 63 ∧ (toCivil ts).month < 2 ^ 32 ∧
      (toCivil ts).day < 2 ^ 32 := by
  have hFields := toCivil_date ts
  generalize ts.toNat / 1000000000 = secs at *
  obtain ⟨hLow, hHigh⟩ := @year_bounds ((secs : Int) / 86400) (by omega)
  obtain ⟨hMonth, hDay⟩ := civilFromDays_gregorian ((secs : Int) / 86400)
  have hDays := Nat.le_trans hDay.2 (monthLength_le _ _)
  rw [← hFields] at hLow hHigh hMonth hDays
  simp only at hLow hHigh hMonth hDays
  have hSmall (m : Nat) (hm : m ≤ 31) : m < 2 ^ 32 := Nat.lt_of_le_of_lt hm (by decide)
  exact ⟨by omega, by omega, hSmall _ (by omega), hSmall _ hDays⟩

/-- A timestamp is read back as the time it was written for, to the millisecond. -/
theorem parseRfc3339_toRfc3339 {ts : SystemTime} (hRange : ts.toNat / 1000000000 < 2 ^ 63) :
    parseRfc3339 (toRfc3339 ts) = some (((ts.toNat / 1000000 : Nat) : Int) * 1000000) := by
  obtain ⟨hHour, hMinute, hSecond, hMillis⟩ := toCivil_clock ts
  have hSecs := toCivil_secs ts
  obtain ⟨hYear, hYearRange, hMonth, hDay⟩ := toCivil_bounds hRange
  rw [parseRfc3339_fields hYear hYearRange hMonth hDay
    (Nat.lt_trans hHour (by decide)) (Nat.lt_trans hMinute (by decide))
    (Nat.lt_trans hSecond (by decide)) hMillis (trim_toRfc3339 ts) (toRfc3339_eq ts)
    (hSecs ▸ Int.natCast_nonneg _), hSecs, toCivil_millis]
  have hParts (n : Nat) : ((n / 1000000000 : Nat) : Int) * 1000000000 +
      ((n % 1000000000 / 1000000 : Nat) : Int) * 1000000 = ((n / 1000000 : Nat) : Int) * 1000000 := by
    omega
  exact congrArg some (hParts _)

/-- A time is read back to the millisecond; one before 1970 as the start of 1970. -/
theorem fromRfc3339_toRfc3339 {ts : SystemTime} (hRange : ts.toNat / 1000000000 < 2 ^ 63) :
    fromRfc3339 (toRfc3339 ts) = max ts 0 / 1000000 * 1000000 := by
  have hFloor (n : Int) : ((n.toNat / 1000000 : Nat) : Int) * 1000000 =
      max n 0 / 1000000 * 1000000 := by
    omega
  rw [fromRfc3339, parseRfc3339_toRfc3339 hRange, Option.getD_some]
  exact hFloor ts

theorem fromRfc3339_toRfc3339_after : fromRfc3339 (toRfc3339 1500000000) = 1500000000 :=
  fromRfc3339_toRfc3339 (by decide)

theorem toList_compactUtc (ts : SystemTime) : (compactUtc ts).toList =
    (padded 4 (toCivil ts).year.toNat).toList ++ ((padded 2 (toCivil ts).month).toList ++
      ((padded 2 (toCivil ts).day).toList ++ ('T' :: ((padded 2 (toCivil ts).hour).toList ++
        ((padded 2 (toCivil ts).minute).toList ++
          ((padded 2 (toCivil ts).second).toList ++ ['Z'])))))) := by
  have hNone : ("" : String).toList = [] := rfl
  have hT : ("T" : String).toList = ['T'] := rfl
  have hZ : ("Z" : String).toList = ['Z'] := rfl
  simp only [compactUtc, dateText, clockText, String.toList_append, hNone, hT, hZ, List.append_nil,
    List.append_assoc, List.cons_append, List.nil_append]

/-- The year of a day before the year 10000 has four digits. -/
theorem year_lt {z : Int} (hz : z < 2932897) : (civilFromDays z).1 < 10000 := by
  have hEnd : civilFromDays 2932897 = (10000, 1, 1) := by decide
  have hLt := civilFromDays_lt hz
  have hDate := civilFromDays_gregorian z
  rw [hEnd] at hLt
  simp only at hLt
  obtain ⟨hMonth, hDay⟩ := hDate
  omega

theorem toCivil_year_lt {ts : SystemTime} (hEnd : ts.toNat / 1000000000 < 253402300800) :
    (toCivil ts).year.toNat < 10 ^ 4 := by
  have hYear := congrArg Prod.fst (toCivil_date ts)
  generalize ts.toNat / 1000000000 = secs at *
  have hLt := @year_lt ((secs : Int) / 86400) (by omega)
  simp only at hYear
  rw [hYear]
  omega

/-- The stamps of two times of one second are the same. -/
theorem compactUtc_congr {a b : SystemTime} (h : a.toNat / 1000000000 = b.toNat / 1000000000) :
    compactUtc a = compactUtc b := by
  simp only [compactUtc, dateText, clockText, toCivil, h]

/-- The fields of a later second come later, the larger ones first. -/
theorem toCivil_lt {a b : SystemTime} (hLater : a.toNat / 1000000000 < b.toNat / 1000000000) :
    ((toCivil a).year < (toCivil b).year ∨ (toCivil a).year = (toCivil b).year ∧
      ((toCivil a).month < (toCivil b).month ∨ (toCivil a).month = (toCivil b).month ∧
        ((toCivil a).day < (toCivil b).day ∨ (toCivil a).day = (toCivil b).day ∧
          ((toCivil a).hour < (toCivil b).hour ∨ (toCivil a).hour = (toCivil b).hour ∧
            ((toCivil a).minute < (toCivil b).minute ∨ (toCivil a).minute = (toCivil b).minute ∧
              (toCivil a).second < (toCivil b).second))))) := by
  have ha := toCivil_date a
  have hb := toCivil_date b
  have hClock : ((a.toNat / 1000000000 : Nat) : Int) / 86400 = (b.toNat / 1000000000 : Nat) / 86400 →
      (toCivil a).hour < (toCivil b).hour ∨ (toCivil a).hour = (toCivil b).hour ∧
        ((toCivil a).minute < (toCivil b).minute ∨ (toCivil a).minute = (toCivil b).minute ∧
          (toCivil a).second < (toCivil b).second) := by
    simp only [toCivil]
    generalize a.toNat / 1000000000 = s at *
    generalize b.toNat / 1000000000 = t at *
    omega
  by_cases hSame : ((a.toNat / 1000000000 : Nat) : Int) / 86400 = (b.toNat / 1000000000 : Nat) / 86400
  · have hClockLt := hClock hSame
    rw [hSame, ← hb] at ha
    simp only [Prod.mk.injEq] at ha
    exact .inr ⟨ha.1, .inr ⟨ha.2.1, .inr ⟨ha.2.2, hClockLt⟩⟩⟩
  · have hDays : ((a.toNat / 1000000000 : Nat) : Int) / 86400 <
        (b.toNat / 1000000000 : Nat) / 86400 := by
      omega
    have hDate := civilFromDays_lt hDays
    rw [← ha, ← hb] at hDate
    obtain hYear | ⟨hYear, hMonth | ⟨hMonth, hDay⟩⟩ := hDate
    · exact .inl hYear
    · exact .inr ⟨hYear, .inl hMonth⟩
    · exact .inr ⟨hYear, .inr ⟨hMonth, .inl hDay⟩⟩

/-- The fields of a time have as many digits as a stamp gives them. -/
theorem toCivil_small {ts : SystemTime} (hEnd : ts.toNat / 1000000000 < 253402300800) :
    1970 ≤ (toCivil ts).year ∧ (toCivil ts).year.toNat < 10 ^ 4 ∧ (toCivil ts).month < 10 ^ 2 ∧
      (toCivil ts).day < 10 ^ 2 ∧ (toCivil ts).hour < 10 ^ 2 ∧ (toCivil ts).minute < 10 ^ 2 ∧
      (toCivil ts).second < 10 ^ 2 := by
  obtain ⟨hHour, hMinute, hSecond, -⟩ := toCivil_clock ts
  have hYear := toCivil_year_lt hEnd
  obtain ⟨hLow, -⟩ := @year_bounds ((ts.toNat / 1000000000 : Nat) / 86400) (by omega)
  obtain ⟨hMonth, hDay⟩ := civilFromDays_gregorian ((ts.toNat / 1000000000 : Nat) / 86400)
  have hDays := Nat.le_trans hDay.2 (monthLength_le _ _)
  rw [← toCivil_date] at hLow hMonth hDays
  simp only at hLow hMonth hDays
  exact ⟨hLow, hYear, by omega, by omega, by omega, by omega, by omega⟩

theorem length_compactUtc {ts : SystemTime} (hEnd : ts.toNat / 1000000000 < 253402300800) :
    (compactUtc ts).toList.length = 16 := by
  obtain ⟨-, hYear, hMonth, hDay, hHour, hMinute, hSecond⟩ := toCivil_small hEnd
  have hTwo : 0 < 2 := by decide
  rw [toList_compactUtc]
  simp only [List.length_append, List.length_cons, List.length_nil,
    length_padded (show 0 < 4 by decide) hYear, length_padded hTwo hMonth, length_padded hTwo hDay,
    length_padded hTwo hHour, length_padded hTwo hMinute, length_padded hTwo hSecond]

/-- Before the year 10000 the stamp of a later second comes later as text. -/
theorem compactUtc_lt {a b : SystemTime} (hLater : a.toNat / 1000000000 < b.toNat / 1000000000)
    (hEnd : b.toNat / 1000000000 < 253402300800) :
    (compactUtc a).toList < (compactUtc b).toList := by
  obtain ⟨hHigh, hYear, hMonth, hDay, hHour, hMinute, hSecond⟩ := toCivil_small hEnd
  have hTwo : 0 < 2 := by decide
  have hClock {s t : List Char} (h : s < t) : 'T' :: s < 'T' :: t :=
    List.cons_lt_cons_iff.mpr (.inr ⟨rfl, h⟩)
  rw [toList_compactUtc, toList_compactUtc]
  apply padded_append_lt (show 0 < 4 by decide) hYear
  have hPositive : 0 < (toCivil b).year := Int.lt_of_lt_of_le (by decide) hHigh
  apply (toCivil_lt hLater).imp (fun h => (Int.toNat_lt_toNat hPositive).mpr h)
  apply And.imp (congrArg Int.toNat)
  intro h
  apply padded_append_lt hTwo hMonth
  apply h.imp_right (And.imp_right _)
  intro h
  apply padded_append_lt hTwo hDay
  apply h.imp_right (And.imp_right _)
  intro h
  apply hClock
  apply padded_append_lt hTwo hHour
  apply h.imp_right (And.imp_right _)
  intro h
  apply padded_append_lt hTwo hMinute
  apply h.imp_right (And.imp_right _)
  intro h
  exact padded_append_lt hTwo hSecond (.inl h)

end Bussard.Model

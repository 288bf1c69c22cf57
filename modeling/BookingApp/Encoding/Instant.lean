import BookingApp.Encoding.Bytes
import Mathlib.Algebra.Order.Ring.Int

/-!
# Instants as texts

`Date.prototype.toISOString`, and `new Date` of a text in the form it gives to the years
of four digits. An instant is a number of milliseconds. Years and days are the ones
of ECMAScript: a day number is split at the first day of its year.
-/

set_option autoImplicit false

namespace Encoding

/-- The number of the first day of a year. -/
def dayFromYear (year : Int) : Int :=
  365 * (year - 1970) + (year - 1969) / 4 - (year - 1901) / 100 + (year - 1601) / 400

/-- The year a day is in. Years of 365.2425 days are off by one at most. -/
def yearFromDay (day : Int) : Int :=
  let year := 1970 + day * 400 / 146097
  if day < dayFromYear year then year - 1
  else if dayFromYear (year + 1) ≤ day then year + 1
  else year

def leapDays (year : Int) : Int :=
  dayFromYear (year + 1) - dayFromYear year - 365

/-- The days of a year before a month, which is counted from one. -/
def daysBefore (leap : Int) : Nat → Int
  | 1 => 0
  | 2 => 31
  | 3 => 59 + leap
  | 4 => 90 + leap
  | 5 => 120 + leap
  | 6 => 151 + leap
  | 7 => 181 + leap
  | 8 => 212 + leap
  | 9 => 243 + leap
  | 10 => 273 + leap
  | 11 => 304 + leap
  | _ => 334 + leap

/-- The month of a day of the year. -/
def monthFromDay (leap day : Int) : Nat :=
  if day < 31 then 1
  else if day < 59 + leap then 2
  else if day < 90 + leap then 3
  else if day < 120 + leap then 4
  else if day < 151 + leap then 5
  else if day < 181 + leap then 6
  else if day < 212 + leap then 7
  else if day < 243 + leap then 8
  else if day < 273 + leap then 9
  else if day < 304 + leap then 10
  else if day < 334 + leap then 11
  else 12

def digit (n : Nat) : Char :=
  Char.ofNat (48 + n % 10)

def two (n : Nat) : List Char :=
  [digit (n / 10), digit n]

def three (n : Nat) : List Char :=
  digit (n / 100) :: two n

def four (n : Nat) : List Char :=
  digit (n / 1000) :: three n

/-- Years that four digits do not do for have a sign and six. -/
def yearText (year : Int) : List Char :=
  if 0 ≤ year ∧ year ≤ 9999 then four year.toNat
  else (if year < 0 then '-' else '+') :: two (year.natAbs / 10000) ++ four year.natAbs

/-- The rest of an instant's text after its year. -/
def restText (month day time : Nat) : List Char :=
  '-' :: two month ++ '-' :: two day ++ 'T' :: two (time / 3600000) ++ ':' :: two (time / 60000 % 60) ++
    ':' :: two (time / 1000 % 60) ++ '.' :: three (time % 1000) ++ ['Z']

/-- `toISOString` -/
def toISOString (t : Int) : List Char :=
  let day := t / 86400000
  let year := yearFromDay day
  let leap := leapDays year
  let dayOfYear := day - dayFromYear year
  let month := monthFromDay leap dayOfYear
  yearText year ++ restText month (dayOfYear - daysBefore leap month + 1).toNat (t % 86400000).toNat

/-- The instants of the years 0 to 9999. -/
def FourDigitYear (t : Int) : Prop :=
  -62167219200000 ≤ t ∧ t < 253402300800000

instance : DecidablePred FourDigitYear := fun t =>
  inferInstanceAs (Decidable (-62167219200000 ≤ t ∧ t < 253402300800000))

/-- `/^\d{4}-\d{2}-\d{2}T\d{2}:\d{2}:\d{2}\.\d{3}Z$/` -/
def isIsoInstant (text : List Char) : Bool :=
  let form := ['d', 'd', 'd', 'd', '-', 'd', 'd', '-', 'd', 'd', 'T', 'd', 'd', ':', 'd', 'd', ':', 'd', 'd',
    '.', 'd', 'd', 'd', 'Z']
  decide (text.length = form.length) &&
    (form.zip text).all fun (f, c) => if f = 'd' then c.isDigit else decide (c = f)

/-- The number at a place of a text. -/
def numberAt (text : List Char) (start length : Nat) : Nat :=
  ((text.drop start).take length).foldl (fun n c => n * 10 + (c.toNat - 48)) 0

/-- `new Date` of a text of the form: a month has 31 days or runs on into the next one, and a day
may end at 24:00. -/
def dateOfIso (text : List Char) : Option Int :=
  let year : Int := numberAt text 0 4
  let month := numberAt text 5 2
  let day := numberAt text 8 2
  let hour := numberAt text 11 2
  let minute := numberAt text 14 2
  let second := numberAt text 17 2
  let millisecond := numberAt text 20 3
  if (1 ≤ month ∧ month ≤ 12 ∧ 1 ≤ day ∧ day ≤ 31) ∧
      (hour < 24 ∧ minute < 60 ∧ second < 60 ∨ hour = 24 ∧ minute = 0 ∧ second = 0 ∧ millisecond = 0) then
    some ((dayFromYear year + daysBefore (leapDays year) month + day - 1) * 86400000 + hour * 3600000 +
      minute * 60000 + second * 1000 + millisecond)
  else none

/-! ## Reading back -/

/-- Four hundred years are 146097 days, give or take. -/
theorem dayFromYear_bounds (year : Int) :
    146097 * (year - 1970) - 600 ≤ 400 * dayFromYear year ∧
      400 * dayFromYear year ≤ 146097 * (year - 1970) + 600 := by
  rw [dayFromYear]
  omega

theorem dayFromYear_yearFromDay (day : Int) :
    dayFromYear (yearFromDay day) ≤ day ∧ day < dayFromYear (yearFromDay day + 1) := by
  have hbefore := dayFromYear_bounds (1970 + day * 400 / 146097 - 1)
  have hafter := dayFromYear_bounds (1970 + day * 400 / 146097 + 2)
  rw [yearFromDay]
  split
  · rw [sub_add_cancel]
    omega
  split
  · have hnext : 1970 + day * 400 / 146097 + 1 + 1 = 1970 + day * 400 / 146097 + 2 := by omega
    rw [hnext]
    omega
  · omega

/-- The days of a year are counted from zero. -/
theorem leapDays_bounds (year : Int) : 0 ≤ leapDays year ∧ leapDays year ≤ 1 := by
  rw [leapDays, dayFromYear, dayFromYear]
  omega

theorem dayFromYear_le {y z : Int} (h : y ≤ z) : dayFromYear y ≤ dayFromYear z := by
  rcases h.eq_or_lt with rfl | h
  · exact le_rfl
  · have hleap := leapDays_bounds y
    have hnext := dayFromYear_bounds (y + 1)
    have hz := dayFromYear_bounds z
    rw [leapDays] at hleap
    omega

/-- A day of the year is a day of its month. -/
theorem monthFromDay_bounds {leap : Int} (hleap : 0 ≤ leap ∧ leap ≤ 1) (day : Int)
    (hday : 0 ≤ day ∧ day < 365 + leap) :
    (1 ≤ monthFromDay leap day ∧ monthFromDay leap day ≤ 12) ∧
      daysBefore leap (monthFromDay leap day) ≤ day ∧ day < daysBefore leap (monthFromDay leap day) + 31 := by
  unfold monthFromDay
  iterate 11
    apply iteInduction (motive := fun month => (1 ≤ month ∧ month ≤ 12) ∧ daysBefore leap month ≤ day ∧
      day < daysBefore leap month + 31) <;> intro hmonth
    · exact ⟨by decide, by simp only [daysBefore]; omega⟩
  exact ⟨by decide, by simp only [daysBefore]; omega⟩

end Encoding

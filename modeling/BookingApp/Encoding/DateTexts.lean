import BookingApp.Encoding.Timestamps

/-!
# Calendar dates as texts

A date is its number of days since 1970-01-01, and its text is `YYYY-MM-DD`. In the years that four
digits do for, the texts are ordered as the dates are.
-/

set_option autoImplicit false

namespace Encoding

def dayOfYear (day : Int) : Int :=
  day - dayFromYear (yearFromDay day)

def monthOfDay (day : Int) : Nat :=
  monthFromDay (leapDays (yearFromDay day)) (dayOfYear day)

def dayOfMonth (day : Int) : Nat :=
  (dayOfYear day - daysBefore (leapDays (yearFromDay day)) (monthOfDay day) + 1).toNat

/-- The `YYYY-MM-DD` of a day. -/
def dateText (day : Int) : List Char :=
  four (yearFromDay day).toNat ++ '-' :: two (monthOfDay day) ++ '-' :: two (dayOfMonth day)

/-- A year that four digits do for. -/
def FourDigits (year : Int) : Prop :=
  0 ≤ year ∧ year ≤ 9999

instance : DecidablePred FourDigits := fun year => inferInstanceAs (Decidable (0 ≤ year ∧ year ≤ 9999))

section Bounds

variable (day : Int)

theorem dayOfYear_bounds : 0 ≤ dayOfYear day ∧ dayOfYear day < 365 + leapDays (yearFromDay day) := by
  have hyear := dayFromYear_yearFromDay day
  unfold dayOfYear leapDays
  omega

theorem monthOfDay_bounds : 1 ≤ monthOfDay day ∧ monthOfDay day ≤ 12 :=
  (monthFromDay_bounds (leapDays_bounds _) _ (dayOfYear_bounds day)).1

theorem lt_daysBefore_add_monthLength {leap : Int} {ofYear : Int} (h : ofYear < 365 + leap) :
    ofYear < daysBefore leap (monthFromDay leap ofYear) + monthLength leap (monthFromDay leap ofYear) := by
  unfold monthFromDay
  iterate 11
    apply iteInduction (motive := fun month => ofYear < daysBefore leap month + monthLength leap month) <;>
      intro hmonth
    · simp only [daysBefore, monthLength]
      omega
  simp only [daysBefore, monthLength]
  omega

theorem dayOfMonth_bounds :
    1 ≤ dayOfMonth day ∧
      (dayOfMonth day : Int) ≤ monthLength (leapDays (yearFromDay day)) (monthOfDay day) := by
  have hbounds := dayOfYear_bounds day
  have hfirst := (monthFromDay_bounds (leapDays_bounds _) _ hbounds).2.1
  have hlast := lt_daysBefore_add_monthLength hbounds.2
  unfold dayOfMonth monthOfDay
  omega

end Bounds

/-- A day of a year of four digits, at midnight. -/
def Timestamp.ofDay (day : Int) (h : FourDigits (yearFromDay day)) : Timestamp where
  year := (yearFromDay day).toNat
  month := monthOfDay day
  day := dayOfMonth day
  hour := 0
  minute := 0
  seconds := none
  year_lt := by have hyear := h.2; omega
  month_bounds := monthOfDay_bounds day
  day_bounds := by
    rw [Int.toNat_of_nonneg h.1]
    exact dayOfMonth_bounds day
  hour_lt := by omega
  minute_lt := by omega

section Order

variable {a b : Int}

theorem Timestamp.minutes_ofDay (h : FourDigits (yearFromDay a)) : (Timestamp.ofDay a h).minutes = a * 1440 := by
  have hfirst := (dayOfMonth_bounds a).1
  have hyear : ((yearFromDay a).toNat : Int) = yearFromDay a := Int.toNat_of_nonneg h.1
  have hnumber : (Timestamp.ofDay a h).dayNumber = a := by
    change dayFromYear (yearFromDay a).toNat + daysBefore (leapDays (yearFromDay a).toNat) (monthOfDay a) +
      dayOfMonth a - 1 = a
    rw [hyear]
    unfold dayOfMonth at hfirst ⊢
    unfold dayOfYear at hfirst ⊢
    omega
  change (Timestamp.ofDay a h).dayNumber * 1440 + (0 : Nat) * 60 + (0 : Nat) = a * 1440
  rw [hnumber]
  omega

/-- Dates of years of four digits are ordered as their texts are. -/
theorem dateText_lt_iff (ha : FourDigits (yearFromDay a)) (hb : FourDigits (yearFromDay b)) :
    dateText a < dateText b ↔ a < b := by
  have hearlier : (Timestamp.ofDay a ha).Earlier (.ofDay b hb) ↔ a < b := by
    rw [Timestamp.earlier_iff, Timestamp.minutes_ofDay, Timestamp.minutes_ofDay]
    omega
  have hya : (yearFromDay a).toNat < 10000 := (Timestamp.ofDay a ha).year_lt
  have hyb : (yearFromDay b).toNat < 10000 := (Timestamp.ofDay b hb).year_lt
  have hma := monthOfDay_bounds a
  have hmb := monthOfDay_bounds b
  have hda := (dayOfMonth_bounds a).2
  have hdb := (dayOfMonth_bounds b).2
  have hla := monthLength_le (leapDays_bounds (yearFromDay a)).2 (monthOfDay a)
  have hlb := monthLength_le (leapDays_bounds (yearFromDay b)).2 (monthOfDay b)
  have hlast := two_append_lt (m := dayOfMonth a) (n := dayOfMonth b) (by omega) (by omega) [] []
  rw [List.append_nil, List.append_nil] at hlast
  rw [← hearlier, Timestamp.Earlier]
  simp only [dateText, List.append_assoc, List.cons_append, four_append_lt hya hyb, List.cons_lt_cons_iff,
    Char.lt_irrefl, false_or, true_and,
    two_append_lt (m := monthOfDay a) (n := monthOfDay b) (by omega) (by omega), hlast, List.lt_irrefl,
    Nat.lt_irrefl, and_false, or_false, Timestamp.ofDay]

end Order

end Encoding

import BookingApp.Encoding.Instant
import Mathlib.Tactic.IntervalCases

/-!
# Timestamps of a request

The texts `z.iso.datetime({ offset: false })` takes: a date of the calendar and a time to the
minute, then, if the sender likes, seconds, and then, if the sender likes, a fraction of any length.
`new Date` keeps three digits of a fraction. The text of a timestamp is read back to it, so that
what is proved of timestamps holds of the accepted texts; their order as texts is that of the
minutes where the minutes differ.
-/

set_option autoImplicit false

namespace Encoding

/-- The days of a month. -/
def monthLength (leap : Int) : Nat → Int
  | 2 => 28 + leap
  | 4 => 30
  | 6 => 30
  | 9 => 30
  | 11 => 30
  | _ => 31

/-- The seconds of a timestamp that has them. An empty fraction has no point either. -/
structure Seconds where
  second : Fin 60
  fraction : List (Fin 10)
  deriving DecidableEq

structure Timestamp where
  year : Nat
  month : Nat
  day : Nat
  hour : Nat
  minute : Nat
  seconds : Option Seconds
  year_lt : year < 10000
  month_bounds : 1 ≤ month ∧ month ≤ 12
  day_bounds : 1 ≤ day ∧ (day : Int) ≤ monthLength (leapDays year) month
  hour_lt : hour < 24
  minute_lt : minute < 60
  deriving DecidableEq

theorem monthLength_le {leap : Int} (h : leap ≤ 1) (month : Nat) : monthLength leap month ≤ 31 := by
  unfold monthLength
  split <;> omega

/-! ## Reading -/

def readDigit (c : Char) : Option (Fin 10) :=
  if h : 48 ≤ c.toNat ∧ c.toNat < 58 then some ⟨c.toNat - 48, by omega⟩ else none

def readTwo (a b : Char) : Option Nat := do
  let tens ← readDigit a
  let ones ← readDigit b
  return tens.val * 10 + ones.val

def readFour (a b c d : Char) : Option Nat := do
  let hundreds ← readTwo a b
  let ones ← readTwo c d
  return hundreds * 100 + ones

/-- Digits up to the `Z` at the end. -/
def readFraction : List Char → Option (List (Fin 10))
  | [] => none
  | ['Z'] => some []
  | c :: rest => do
    let d ← readDigit c
    let fraction ← readFraction rest
    return d :: fraction

/-- `(?:\.\d+)?Z`: a point is followed by a digit at least. -/
def readPoint : List Char → Option (List (Fin 10))
  | ['Z'] => some []
  | '.' :: rest => (readFraction rest).filter (!·.isEmpty)
  | _ => none

/-- `(?::[0-5]\d(?:\.\d+)?)?Z` -/
def readSeconds : List Char → Option (Option Seconds)
  | ['Z'] => some none
  | ':' :: a :: b :: rest => do
    let second ← readTwo a b
    let fraction ← readPoint rest
    if h : second < 60 then some (some ⟨⟨second, h⟩, fraction⟩) else none
  | _ => none

/-- `z.iso.datetime({ offset: false })` -/
def Timestamp.read : List Char → Option Timestamp
  | y₃ :: y₂ :: y₁ :: y₀ :: '-' :: m₁ :: m₀ :: '-' :: d₁ :: d₀ :: 'T' :: h₁ :: h₀ :: ':' :: n₁ :: n₀ :: rest => do
    let year ← readFour y₃ y₂ y₁ y₀
    let month ← readTwo m₁ m₀
    let day ← readTwo d₁ d₀
    let hour ← readTwo h₁ h₀
    let minute ← readTwo n₁ n₀
    let seconds ← readSeconds rest
    if h : year < 10000 ∧ (1 ≤ month ∧ month ≤ 12) ∧
        (1 ≤ day ∧ (day : Int) ≤ monthLength (leapDays year) month) ∧ hour < 24 ∧ minute < 60 then
      some ⟨year, month, day, hour, minute, seconds, h.1, h.2.1, h.2.2.1, h.2.2.2.1, h.2.2.2.2⟩
    else none
  | _ => none

/-! ## Writing -/

def fractionText (fraction : List (Fin 10)) : List Char :=
  fraction.map (fun d => digit d.val) ++ ['Z']

def pointText : List (Fin 10) → List Char
  | [] => ['Z']
  | fraction => '.' :: fractionText fraction

def secondsText : Option Seconds → List Char
  | none => ['Z']
  | some s => ':' :: (two s.second.val ++ pointText s.fraction)

namespace Timestamp

variable (i j : Timestamp)

/-- The date and the time to the minute. -/
def head : List Char :=
  four i.year ++ '-' :: (two i.month ++ '-' :: (two i.day ++ 'T' :: (two i.hour ++ ':' :: two i.minute)))

def text : List Char :=
  i.head ++ secondsText i.seconds

end Timestamp

/-- A digit is what is read of its character, and no other character is read. -/
theorem readDigit_iff {c : Char} {d : Fin 10} : readDigit c = some d ↔ c = digit d.val := by
  have hvalue : (digit d.val).toNat = 48 + d.val := by
    rw [digit, toNat_ofNat (by omega)]
    omega
  rw [readDigit]
  constructor
  · intro h
    split at h
    next hc =>
      have hd : c.toNat - 48 = d.val := congrArg Fin.val (Option.some.inj h)
      apply Char.toNat_inj.mp
      omega
    next => simp at h
  · rintro rfl
    rw [dif_pos (by omega)]
    congr 1
    apply Fin.ext
    show (digit d.val).toNat - 48 = d.val
    omega

theorem digit_mod (n : Nat) : digit (n % 10) = digit n := by
  rw [digit, digit, Nat.mod_mod]

theorem readTwo_iff {a b : Char} {n : Nat} : readTwo a b = some n ↔ n < 100 ∧ [a, b] = two n := by
  simp only [readTwo, Option.bind_eq_bind, Option.bind_eq_some_iff, readDigit_iff, Option.pure_def,
    Option.some.injEq, two, List.cons.injEq, and_true]
  constructor
  · rintro ⟨x, rfl, y, rfl, rfl⟩
    have hx : (x.val * 10 + y.val) / 10 = x.val := by omega
    have hy : (x.val * 10 + y.val) % 10 = y.val := by omega
    refine ⟨by omega, by rw [hx], by rw [← digit_mod (_ + _), hy]⟩
  · rintro ⟨hn, rfl, rfl⟩
    refine ⟨⟨n / 10, by omega⟩, rfl, ⟨n % 10, by omega⟩, (digit_mod n).symm, ?_⟩
    show n / 10 * 10 + n % 10 = n
    omega

theorem four_eq (n : Nat) : four n = two (n / 100) ++ two n := by
  have h : n / 100 / 10 = n / 1000 := by omega
  rw [two, h]
  rfl

theorem two_mod (n : Nat) : two (n % 100) = two n := by
  have htens : n % 100 / 10 = n / 10 % 10 := by omega
  have hones : n % 100 % 10 = n % 10 := by omega
  rw [two, htens, digit_mod, ← digit_mod (n % 100), hones, digit_mod, two]

theorem readFour_iff {a b c d : Char} {n : Nat} :
    readFour a b c d = some n ↔ n < 10000 ∧ [a, b, c, d] = four n := by
  have hsplit (x y : Nat) : [a, b, c, d] = two x ++ two y ↔ [a, b] = two x ∧ [c, d] = two y := by
    simp [two, and_assoc]
  simp only [readFour, Option.bind_eq_bind, Option.bind_eq_some_iff, readTwo_iff, Option.pure_def,
    Option.some.injEq, four_eq, hsplit]
  constructor
  · rintro ⟨x, ⟨hx, hab⟩, y, ⟨hy, hcd⟩, rfl⟩
    have hhigh : (x * 100 + y) / 100 = x := by omega
    have hlow : (x * 100 + y) % 100 = y := by omega
    refine ⟨by omega, by rw [hab, hhigh], by rw [hcd, ← two_mod (_ + _), hlow]⟩
  · rintro ⟨hn, hab, hcd⟩
    refine ⟨n / 100, ⟨by omega, hab⟩, n % 100, ⟨by omega, by rw [hcd, two_mod]⟩, by omega⟩

theorem digit_ne_end (d : Fin 10) : digit d.val ≠ 'Z' := by
  revert d
  decide

theorem readFraction_iff {s : List Char} {f : List (Fin 10)} : readFraction s = some f ↔ s = fractionText f := by
  fun_induction readFraction s generalizing f with
  | case1 => simp [fractionText]
  | case2 => cases f with
    | nil => simp [fractionText]
    | cons d f => simp [fractionText, (digit_ne_end d).symm]
  | case3 c rest hend ih =>
    simp only [Option.bind_eq_bind, Option.bind_eq_some_iff, readDigit_iff, ih, Option.pure_def,
      Option.some.injEq]
    constructor
    · rintro ⟨d, rfl, fraction, rfl, rfl⟩
      rfl
    · intro h
      cases f with
      | nil => exact absurd (List.cons.inj h).2 (hend (List.cons.inj h).1)
      | cons d f => exact ⟨d, (List.cons.inj h).1, f, (List.cons.inj h).2, rfl⟩

theorem readPoint_iff {s : List Char} {f : List (Fin 10)} : readPoint s = some f ↔ s = pointText f := by
  fun_cases readPoint s with
  | case1 => cases f <;> simp [pointText]
  | case2 rest =>
    cases f with
    | nil => simp [pointText, Option.filter_eq_some_iff]
    | cons d f => simp [pointText, Option.filter_eq_some_iff, readFraction_iff]
  | case3 _ hend hpoint =>
    have hne : s ≠ pointText f := by
      cases f with
      | nil => exact hend
      | cons d f => exact hpoint _
    simp [hne]

theorem readSeconds_iff {s : List Char} {seconds : Option Seconds} :
    readSeconds s = some seconds ↔ s = secondsText seconds := by
  fun_cases readSeconds s with
  | case1 => cases seconds <;> simp [secondsText]
  | case2 a b rest =>
    simp only [Option.bind_eq_bind, Option.bind_eq_some_iff, readTwo_iff, readPoint_iff]
    constructor
    · rintro ⟨n, ⟨-, htwo⟩, fraction, rfl, h⟩
      split at h
      next hn =>
        obtain rfl := Option.some.inj h
        rw [secondsText, ← htwo]
        rfl
      next => simp at h
    · intro h
      cases seconds with
      | none => simp [secondsText] at h
      | some v =>
        obtain ⟨ha, hb, hrest⟩ : a = digit (v.second.val / 10) ∧ b = digit v.second.val ∧
            rest = pointText v.fraction := by
          simpa [secondsText, two] using h
        refine ⟨v.second.val, ⟨by omega, by rw [ha, hb, two]⟩, v.fraction, hrest, ?_⟩
        rw [dif_pos v.second.isLt]
  | case3 _ hend hcolon =>
    have hne : s ≠ secondsText seconds := by
      cases seconds with
      | none => exact hend
      | some v => exact hcolon _ _ _
    simp [hne]

/-- The texts that are taken are the texts of timestamps, each of one timestamp. -/
theorem Timestamp.read_iff {s : List Char} {i : Timestamp} : Timestamp.read s = some i ↔ s = i.text := by
  fun_cases Timestamp.read s with
  | case1 y₃ y₂ y₁ y₀ m₁ m₀ d₁ d₀ h₁ h₀ n₁ n₀ rest =>
    simp only [Option.bind_eq_bind, Option.bind_eq_some_iff, readFour_iff, readTwo_iff, readSeconds_iff]
    constructor
    · rintro ⟨year, ⟨-, hyear⟩, month, ⟨-, hmonth⟩, day, ⟨-, hday⟩, hour, ⟨-, hhour⟩, minute, ⟨-, hminute⟩, seconds,
        rfl, h⟩
      split at h
      next =>
        obtain rfl := Option.some.inj h
        simp only [Timestamp.text, Timestamp.head, ← hyear, ← hmonth, ← hday, ← hhour, ← hminute]
        rfl
      next => simp at h
    · intro h
      obtain ⟨hyear, hmonth, hday, hhour, hminute, hrest⟩ :
          [y₃, y₂, y₁, y₀] = four i.year ∧ [m₁, m₀] = two i.month ∧ [d₁, d₀] = two i.day ∧
            [h₁, h₀] = two i.hour ∧ [n₁, n₀] = two i.minute ∧ rest = secondsText i.seconds := by
        simpa [Timestamp.text, Timestamp.head, four, three, two, and_assoc] using h
      have hmonths := i.month_bounds
      have hdays := i.day_bounds
      have hlong := monthLength_le (leapDays_bounds i.year).2 i.month
      refine ⟨i.year, ⟨i.year_lt, hyear⟩, i.month, ⟨by omega, hmonth⟩, i.day, ⟨by omega, hday⟩, i.hour,
        ⟨by have := i.hour_lt; omega, hhour⟩, i.minute, ⟨by have := i.minute_lt; omega, hminute⟩, i.seconds, hrest, ?_⟩
      rw [dif_pos ⟨i.year_lt, hmonths, hdays, i.hour_lt, i.minute_lt⟩]
  | case2 _ hform =>
    have hne : s ≠ i.text := by
      intro h
      exact hform _ _ _ _ _ _ _ _ _ _ _ _ _ h
    simp [hne]

/-! ## Instants -/

/-- What the first `k` digits of a fraction come to. -/
def digitsValue : Nat → List (Fin 10) → Nat
  | 0, _ => 0
  | _ + 1, [] => 0
  | k + 1, d :: fraction => d.val * 10 ^ k + digitsValue k fraction

/-- The milliseconds of a minute. -/
def Seconds.millis (s : Seconds) : Nat :=
  s.second.val * 1000 + digitsValue 3 s.fraction

namespace Timestamp

variable (i j : Timestamp)

def dayNumber : Int :=
  dayFromYear i.year + daysBefore (leapDays i.year) i.month + i.day - 1

def minutes : Int :=
  i.dayNumber * 1440 + i.hour * 60 + i.minute

def millis : Nat :=
  match i.seconds with
  | none => 0
  | some s => s.millis

/-- `new Date(text).getTime()` -/
def instant : Int :=
  i.minutes * 60000 + i.millis

end Timestamp

theorem digitsValue_lt (k : Nat) (f : List (Fin 10)) : digitsValue k f < 10 ^ k := by
  fun_induction digitsValue k f with
  | case1 => simp
  | case2 k => exact Nat.pow_pos (by omega)
  | case3 k d f ih =>
    rw [Nat.pow_succ]
    have hd : d.val * 10 ^ k ≤ 9 * 10 ^ k := Nat.mul_le_mul_right _ (by omega)
    omega

theorem Seconds.millis_lt (s : Seconds) : s.millis < 60000 := by
  have hfraction := digitsValue_lt 3 s.fraction
  rw [millis]
  omega

theorem Timestamp.millis_lt (i : Timestamp) : i.millis < 60000 := by
  rw [millis]
  split
  · omega
  · exact Seconds.millis_lt _

/-- The minute decides, where it differs. -/
theorem Timestamp.instant_lt_iff (i j : Timestamp) :
    i.instant < j.instant ↔ i.minutes < j.minutes ∨ i.minutes = j.minutes ∧ i.millis < j.millis := by
  have hi := i.millis_lt
  have hj := j.millis_lt
  rw [instant, instant]
  omega

/-! ## The order of the texts -/

theorem digit_lt_iff (d e : Fin 10) : digit d.val < digit e.val ↔ d < e := by
  revert d e
  decide

theorem digit_inj_iff (d e : Fin 10) : digit d.val = digit e.val ↔ d = e := by
  revert d e
  decide

/-- Of two digits the first decides, and the rest of the text only where both are the same. -/
theorem two_append_lt {m n : Nat} (hm : m < 100) (hn : n < 100) (s t : List Char) :
    two m ++ s < two n ++ t ↔ m < n ∨ m = n ∧ s < t := by
  have htens := digit_lt_iff ⟨m / 10, by omega⟩ ⟨n / 10, by omega⟩
  have htens' := digit_inj_iff ⟨m / 10, by omega⟩ ⟨n / 10, by omega⟩
  have hones := digit_lt_iff ⟨m % 10, by omega⟩ ⟨n % 10, by omega⟩
  have hones' := digit_inj_iff ⟨m % 10, by omega⟩ ⟨n % 10, by omega⟩
  simp only [digit_mod, Fin.mk_lt_mk, Fin.mk.injEq] at htens htens' hones hones'
  simp only [two, List.cons_append, List.nil_append, List.cons_lt_cons_iff, htens, htens', hones, hones']
  by_cases h : s < t
  · simp only [h, and_true]
    omega
  · simp only [h, and_false, or_false]
    omega

theorem four_append_lt {m n : Nat} (hm : m < 10000) (hn : n < 10000) (s t : List Char) :
    four m ++ s < four n ++ t ↔ m < n ∨ m = n ∧ s < t := by
  have hhigh := two_append_lt (m := m / 100) (n := n / 100) (by omega) (by omega) (two m ++ s) (two n ++ t)
  have hlow := two_append_lt (m := m % 100) (n := n % 100) (by omega) (by omega) s t
  rw [two_mod, two_mod] at hlow
  rw [four_eq, four_eq, List.append_assoc, List.append_assoc, hhigh, hlow]
  by_cases h : s < t
  · simp only [h, and_true]
    omega
  · simp only [h, and_false, or_false]
    omega

theorem daysBefore_succ (leap : Int) {month : Nat} (h : 1 ≤ month ∧ month < 12) :
    daysBefore leap (month + 1) = daysBefore leap month + monthLength leap month := by
  obtain ⟨hlow, hhigh⟩ := h
  interval_cases month <;> simp only [daysBefore, monthLength] <;> omega

/-- A month is over before a later one begins. -/
theorem daysBefore_add_monthLength_le {leap : Int} (hleap : 0 ≤ leap) {m n : Nat} (hm : 1 ≤ m) (hmn : m < n)
    (hn : n ≤ 12) : daysBefore leap m + monthLength leap m ≤ daysBefore leap n := by
  induction n, hmn using Nat.le_induction with
  | base => exact (daysBefore_succ leap ⟨hm, by omega⟩).ge
  | succ n hmn ih =>
    have hnext := @daysBefore_succ leap n ⟨by omega, by omega⟩
    have hlength : 0 ≤ monthLength leap n := by
      unfold monthLength
      split <;> omega
    have hbefore := ih (by omega)
    omega

theorem daysBefore_bounds {leap : Int} (hleap : 0 ≤ leap) {month : Nat} (h : 1 ≤ month ∧ month ≤ 12) :
    0 ≤ daysBefore leap month ∧ daysBefore leap month + monthLength leap month ≤ 365 + leap := by
  obtain ⟨hlow, hhigh⟩ := h
  interval_cases month <;> simp only [daysBefore, monthLength] <;> omega

namespace Timestamp

variable {i j : Timestamp}

/-- The first of the fields in which two timestamps differ is smaller. -/
def Earlier (i j : Timestamp) : Prop :=
  i.year < j.year ∨ i.year = j.year ∧ (i.month < j.month ∨ i.month = j.month ∧ (i.day < j.day ∨
    i.day = j.day ∧ (i.hour < j.hour ∨ i.hour = j.hour ∧ i.minute < j.minute)))

def SameMinute (i j : Timestamp) : Prop :=
  i.year = j.year ∧ i.month = j.month ∧ i.day = j.day ∧ i.hour = j.hour ∧ i.minute = j.minute

theorem head_append_lt (s t : List Char) :
    i.head ++ s < j.head ++ t ↔ i.Earlier j ∨ i.SameMinute j ∧ s < t := by
  have hi := i.month_bounds
  have hj := j.month_bounds
  have hdi := i.day_bounds
  have hdj := j.day_bounds
  have hli := monthLength_le (leapDays_bounds i.year).2 i.month
  have hlj := monthLength_le (leapDays_bounds j.year).2 j.month
  have hhi := i.hour_lt
  have hhj := j.hour_lt
  have hmi := i.minute_lt
  have hmj := j.minute_lt
  simp only [head, List.append_assoc, List.cons_append, four_append_lt i.year_lt j.year_lt, List.cons_lt_cons_iff,
    Char.lt_irrefl, false_or, true_and, two_append_lt (m := i.month) (n := j.month) (by omega) (by omega),
    two_append_lt (m := i.day) (n := j.day) (by omega) (by omega),
    two_append_lt (m := i.hour) (n := j.hour) (by omega) (by omega),
    two_append_lt (m := i.minute) (n := j.minute) (by omega) (by omega), Earlier, SameMinute]
  by_cases h : s < t
  · simp only [h, and_true]
    omega
  · simp only [h, and_false, or_false]

theorem minutes_lt_of_earlier (h : i.Earlier j) : i.minutes < j.minutes := by
  have hleap := leapDays_bounds i.year
  have hleap' := leapDays_bounds j.year
  have hdi := i.day_bounds
  have hdj := j.day_bounds
  have hbefore := daysBefore_bounds hleap.1 i.month_bounds
  have hbefore' := daysBefore_bounds hleap'.1 j.month_bounds
  have hhi := i.hour_lt
  have hmi := i.minute_lt
  rw [minutes, minutes]
  suffices i.dayNumber < j.dayNumber ∨ i.dayNumber = j.dayNumber ∧ (i.hour < j.hour ∨
      i.hour = j.hour ∧ i.minute < j.minute) by omega
  rw [dayNumber, dayNumber]
  rcases h with hyear | ⟨hyear, hmonth | ⟨hmonth, hday | ⟨hday, htime⟩⟩⟩
  · have hnext : dayFromYear (i.year + 1) ≤ dayFromYear j.year := dayFromYear_le (by omega)
    have hdays : leapDays i.year = dayFromYear (i.year + 1) - dayFromYear i.year - 365 := rfl
    omega
  · have hmonths := daysBefore_add_monthLength_le hleap.1 i.month_bounds.1 hmonth j.month_bounds.2
    rw [← hyear]
    omega
  · rw [← hyear, ← hmonth]
    omega
  · rw [← hyear, ← hmonth, ← hday]
    exact Or.inr ⟨rfl, htime⟩

theorem minutes_eq_of_same (h : i.SameMinute j) : i.minutes = j.minutes := by
  obtain ⟨hyear, hmonth, hday, hhour, hminute⟩ := h
  rw [minutes, minutes, dayNumber, dayNumber, hyear, hmonth, hday, hhour, hminute]

theorem earlier_trichotomy (i j : Timestamp) : i.Earlier j ∨ i.SameMinute j ∨ j.Earlier i := by
  rw [Earlier, SameMinute, Earlier]
  omega

theorem earlier_iff : i.Earlier j ↔ i.minutes < j.minutes := by
  refine ⟨minutes_lt_of_earlier, fun h => ?_⟩
  rcases earlier_trichotomy i j with hij | hsame | hji
  · exact hij
  · have heq := minutes_eq_of_same hsame
    omega
  · have hlt := minutes_lt_of_earlier hji
    omega

theorem sameMinute_iff : i.SameMinute j ↔ i.minutes = j.minutes := by
  refine ⟨minutes_eq_of_same, fun h => ?_⟩
  rcases earlier_trichotomy i j with hij | hsame | hji
  · have hlt := minutes_lt_of_earlier hij
    omega
  · exact hsame
  · have hlt := minutes_lt_of_earlier hji
    omega

/-- Texts of different minutes are ordered as the minutes are. -/
theorem text_lt_iff : i.text < j.text ↔
    i.minutes < j.minutes ∨ i.minutes = j.minutes ∧ secondsText i.seconds < secondsText j.seconds := by
  rw [text, text, head_append_lt, earlier_iff, sameMinute_iff]

end Timestamp

/-- Fractions whose texts are ordered as their first `k` digits are. -/
def fractionsInOrder : Nat → List (Fin 10) → List (Fin 10) → Bool
  | k, [], g => (g.take k).all (· == 0)
  | _, _ :: _, [] => false
  | k, d :: f, e :: g => if d = e then fractionsInOrder (k - 1) f g else decide (e < d ∨ 0 < k)

theorem digitsValue_eq_zero_iff {k : Nat} {f : List (Fin 10)} :
    digitsValue k f = 0 ↔ (f.take k).all (· == 0) = true := by
  fun_induction digitsValue k f with
  | case1 => simp
  | case2 => simp
  | case3 k d f ih =>
    have hpower : 10 ^ k ≠ 0 := (Nat.pow_pos (by omega)).ne'
    rw [Nat.add_eq_zero_iff, Nat.mul_eq_zero, or_iff_left hpower, ih, List.take_succ_cons, List.all_cons,
      Bool.and_eq_true, beq_iff_eq, Fin.ext_iff]
    rfl

theorem digit_lt_end (d : Fin 10) : digit d.val < 'Z' := by
  revert d
  decide

theorem fractionText_cons_lt (d e : Fin 10) (f g : List (Fin 10)) :
    fractionText (d :: f) < fractionText (e :: g) ↔ d < e ∨ d = e ∧ fractionText f < fractionText g := by
  rw [fractionText, fractionText, List.map_cons, List.map_cons, List.cons_append, List.cons_append,
    List.cons_lt_cons_iff, digit_lt_iff, digit_inj_iff, ← fractionText, ← fractionText]

/-- A fraction that goes on comes before one that ends. -/
theorem fractionText_lt_nil (d : Fin 10) (f : List (Fin 10)) : fractionText (d :: f) < fractionText [] :=
  List.Lex.rel (digit_lt_end d)

theorem not_nil_lt_fractionText (g : List (Fin 10)) : ¬fractionText [] < fractionText g := by
  cases g with
  | nil => exact List.lt_irrefl _
  | cons e g => exact List.lt_asymm (fractionText_lt_nil e g)

/-- What is left of two digits that differ decides nothing. -/
theorem digitsValue_cons_lt {k : Nat} {d e : Fin 10} (h : d < e) (f g : List (Fin 10)) :
    digitsValue (k + 1) (d :: f) < digitsValue (k + 1) (e :: g) := by
  have hrest := digitsValue_lt k f
  have hdigit : (d.val + 1) * 10 ^ k ≤ e.val * 10 ^ k := Nat.mul_le_mul_right _ h
  rw [digitsValue, digitsValue]
  rw [Nat.add_mul] at hdigit
  omega

theorem fractionsInOrder_iff (k : Nat) (f g : List (Fin 10)) :
    ((fractionText f < fractionText g) ↔ digitsValue k f < digitsValue k g) ↔ fractionsInOrder k f g = true := by
  fun_induction fractionsInOrder k f g with
  | case1 k g =>
    have hzero : digitsValue k [] = 0 := by cases k <;> rfl
    rw [← digitsValue_eq_zero_iff, hzero, iff_false_left (not_nil_lt_fractionText g)]
    omega
  | case2 k d f =>
    have hzero : digitsValue k [] = 0 := by cases k <;> rfl
    simp [fractionText_lt_nil, hzero]
  | case3 k d f g ih =>
    rw [← ih, fractionText_cons_lt]
    cases k with
    | zero => simp [digitsValue]
    | succ k => simp [digitsValue]
  | case4 k d f e g hne =>
    rw [fractionText_cons_lt]
    rcases Nat.eq_zero_or_pos k with rfl | hk
    · simp only [hne, false_and, or_false, digitsValue, lt_self_iff_false, iff_false, decide_eq_true_eq]
      omega
    · obtain ⟨k, rfl⟩ : ∃ n, k = n + 1 := ⟨k - 1, by omega⟩
      simp only [hne, false_and, or_false, decide_eq_true_eq, hk, or_true, iff_true]
      constructor
      · exact fun h => digitsValue_cons_lt h f g
      · intro h
        by_contra hde
        have hlt := digitsValue_cons_lt (k := k) (d := e) (e := d) (by omega) g f
        omega

/-- The point comes before the digits in both texts, or in the one that has a fraction. -/
theorem pointText_lt_iff (f g : List (Fin 10)) : pointText f < pointText g ↔ fractionText f < fractionText g := by
  cases f with
  | nil => cases g with
    | nil => rfl
    | cons e g =>
      have hpoint : ¬pointText [] < pointText (e :: g) := List.lt_asymm (List.Lex.rel (by decide))
      exact iff_of_false hpoint (not_nil_lt_fractionText _)
  | cons d f => cases g with
    | nil => exact iff_of_true (List.Lex.rel (by decide)) (fractionText_lt_nil d f)
    | cons e g => simp [pointText]

theorem secondsText_lt_iff (s t : Seconds) : secondsText (some s) < secondsText (some t) ↔
    s.second < t.second ∨ s.second = t.second ∧ fractionText s.fraction < fractionText t.fraction := by
  rw [secondsText, secondsText, List.cons_lt_cons_iff, two_append_lt (by omega) (by omega), pointText_lt_iff,
    Fin.lt_def, Fin.ext_iff]
  simp

/-- Without seconds a text comes last of its minute. -/
theorem secondsText_lt_none (s : Seconds) : secondsText (some s) < secondsText none :=
  List.Lex.rel (by decide)

end Encoding

import BookingApp.Encoding.DateTexts

/-!
# The day in the office calendar (`components/office/calendar-layout.ts`, `CalendarGrid.vue`)

A column shows the bookings and the blocked times of an employee as bands of wall-clock minutes.
Bookings are kept by the length of their band, blocked times by the dates of their edges, both of
which are inclusive (`draws_exactly_iff`).
-/

set_option autoImplicit false

namespace BookingApp.CalendarLayout

open Encoding

/-! ## The display zone -/

/-- Central European time. The clocks change at 01:00 UTC, and `summer` says of a day whether summer
time is kept from then until 01:00 UTC of the next. -/
structure DisplayZone where
  summer : Int → Bool

/-- The last Sunday of a month of 31 days. -/
def lastSunday (year : Int) (month : Nat) : Int :=
  let last := dayFromYear year + daysBefore (leapDays year) month + 30
  last - (last + 4) % 7

/-- `Europe/Berlin` -/
def DISPLAY_ZONE : DisplayZone where
  summer day :=
    let year := yearFromDay day
    decide (lastSunday year 3 ≤ day ∧ day < lastSunday year 10)

namespace DisplayZone

variable (z : DisplayZone)

/-- The minutes ahead of UTC of a day that begins at 01:00 UTC. -/
def ahead (day : Int) : Int :=
  if z.summer day then 120 else 60

/-- What the wall clock shows at an instant, in milliseconds. -/
def wallClock (instant : Int) : Int :=
  instant + z.ahead ((instant - 3600000) / 86400000) * 60000

/-- The local date of an instant. -/
def dateOf (instant : Int) : Int :=
  z.wallClock instant / 86400000

/-- The instant at which a date begins. -/
def midnight (day : Int) : Int :=
  day * 86400000 - z.ahead (day - 1) * 60000

end DisplayZone

/-- A date whose year is written with four digits. -/
def Written (day : Int) : Prop :=
  1000 ≤ yearFromDay day ∧ yearFromDay day ≤ 9999

instance : DecidablePred Written := fun day =>
  inferInstanceAs (Decidable (1000 ≤ yearFromDay day ∧ yearFromDay day ≤ 9999))

/-! ## The calendar response -/

/-- A span of whole minutes. -/
structure Span (z : DisplayZone) where
  startsAt : Int
  endsAt : Int
  startsAt_lt : startsAt < endsAt
  whole_minutes : startsAt % 60000 = 0 ∧ endsAt % 60000 = 0
  written : Written (z.dateOf startsAt) ∧ Written (z.dateOf endsAt)

structure CalendarBooking (z : DisplayZone) extends Span z where
  id : String
  employeeId : String
  blockStartsAt : Int
  blockEndsAt : Int

structure CalendarBlockedTime (z : DisplayZone) extends Span z where
  id : String
  employeeId : String
  reason : Option String

structure OfficeCalendarResponse (z : DisplayZone) where
  bookings : List (CalendarBooking z) := []
  blockedTimes : List (CalendarBlockedTime z) := []

/-- The date that is shown. -/
structure LocalDate where
  day : Int
  written : Written day

/-- `YYYY-MM-DD` -/
def LocalDate.text (date : LocalDate) : List Char :=
  dateText date.day

/-! ## Placing -/

/-- A block on the grid, in minutes from local midnight. -/
structure Placement where
  startMinute : Int
  endMinute : Int
  deriving DecidableEq, Repr

structure BookingPlacement (z : DisplayZone) extends Placement where
  booking : CalendarBooking z
  before : Option Placement
  after : Option Placement

structure BlockedPlacement extends Placement where
  id : String
  reason : Option String
  deriving DecidableEq, Repr

inductive Edge where
  | start
  | stop
  deriving DecidableEq, Repr

section Placing

variable (z : DisplayZone)

def minutesFromLocalMidnight (instant : Int) : Int :=
  z.wallClock instant % 86400000 / 60000

def localDateOf (instant : Int) : List Char :=
  dateText (z.dateOf instant)

/-- An instant as minutes into `date`, clamped to that day, for either edge. -/
def clampToDay (instant : Int) (date : List Char) (edge : Edge) : Int :=
  let on := localDateOf z instant
  if on < date then (if edge = .start then 0 else 0)
  else if date < on then (if edge = .start then 1440 else 1440)
  else minutesFromLocalMidnight z instant

variable {z}

def placeBooking (booking : CalendarBooking z) (date : List Char) : BookingPlacement z :=
  let startMinute := clampToDay z booking.startsAt date .start
  let endMinute := clampToDay z booking.endsAt date .stop
  let blockStart := clampToDay z booking.blockStartsAt date .start
  let blockEnd := clampToDay z booking.blockEndsAt date .stop
  { booking
    startMinute
    endMinute
    before := if blockStart < startMinute then some ⟨blockStart, startMinute⟩ else none
    after := if endMinute < blockEnd then some ⟨endMinute, blockEnd⟩ else none }

/-- The dates of both edges are included: neither is on the far side of `date`. -/
def overlapsDay (blocked : CalendarBlockedTime z) (date : List Char) : Bool :=
  !decide (date < localDateOf z blocked.startsAt) && !decide (localDateOf z blocked.endsAt < date)

def placeBlockedTime (blocked : CalendarBlockedTime z) (date : List Char) : BlockedPlacement where
  id := blocked.id
  reason := blocked.reason
  startMinute := clampToDay z blocked.startsAt date .start
  endMinute := clampToDay z blocked.endsAt date .stop

def placeBlockedTimes (calendar : OfficeCalendarResponse z) (employeeId : String) (date : List Char) :
    List BlockedPlacement :=
  ((calendar.blockedTimes.filter fun blocked => blocked.employeeId = employeeId).filter fun blocked =>
    overlapsDay blocked date).map fun blocked => placeBlockedTime blocked date

/-- The bookings of a column. -/
def columnBookings (calendar : OfficeCalendarResponse z) (employeeId : String) (date : List Char) :
    List (BookingPlacement z) :=
  ((calendar.bookings.filter fun booking => booking.employeeId = employeeId).map fun booking =>
    placeBooking booking date).filter fun placed => placed.startMinute < placed.endMinute

end Placing

/-! ## The local day -/

section Day

variable {z : DisplayZone} {instant day : Int}

theorem ahead_cases (day : Int) : z.ahead day = 60 ∨ z.ahead day = 120 := by
  unfold DisplayZone.ahead
  split
  · exact .inr rfl
  · exact .inl rfl

/-- The wall clock reaches a date at its midnight, and only then shows it. No change of the clocks is
near. -/
theorem wallClock_compare (instant day : Int) :
    (z.wallClock instant < day * 86400000 ↔ instant < z.midnight day) ∧
      (day * 86400000 < z.wallClock instant ↔ z.midnight day < instant) := by
  have hahead := ahead_cases (z := z) ((instant - 3600000) / 86400000)
  have hbefore := ahead_cases (z := z) (day - 1)
  unfold DisplayZone.wallClock DisplayZone.midnight
  by_cases hsame : (instant - 3600000) / 86400000 = day - 1
  · rw [hsame]
    omega
  · omega

theorem dateOf_lt_iff (instant day : Int) : z.dateOf instant < day ↔ instant < z.midnight day := by
  rw [← (wallClock_compare instant day).1, DisplayZone.dateOf]
  omega

theorem dateOf_eq_iff : z.dateOf instant = day ↔ z.midnight day ≤ instant ∧ instant < z.midnight (day + 1) := by
  have hlow := dateOf_lt_iff (z := z) instant day
  have hhigh := dateOf_lt_iff (z := z) instant (day + 1)
  omega

/-- The span has an instant on the day. -/
def Span.Intersects (span : Span z) (date : LocalDate) : Prop :=
  ∃ instant, span.startsAt ≤ instant ∧ instant < span.endsAt ∧ z.dateOf instant = date.day

theorem intersects_iff {span : Span z} {date : LocalDate} : span.Intersects date ↔
    span.startsAt < z.midnight (date.day + 1) ∧ z.midnight date.day < span.endsAt := by
  have hspan := span.startsAt_lt
  have hbefore := ahead_cases (z := z) (date.day - 1)
  have hafter := ahead_cases (z := z) (date.day + 1 - 1)
  constructor
  · rintro ⟨instant, hstart, hend, hdate⟩
    obtain ⟨hlow, hhigh⟩ := dateOf_eq_iff.mp hdate
    omega
  · rintro ⟨hstart, hend⟩
    refine ⟨max span.startsAt (z.midnight date.day), by omega, by omega, dateOf_eq_iff.mpr ?_⟩
    have hmidnights : z.midnight date.day < z.midnight (date.day + 1) := by
      unfold DisplayZone.midnight
      omega
    omega

instance (span : Span z) (date : LocalDate) : Decidable (span.Intersects date) :=
  decidable_of_iff _ intersects_iff.symm

end Day

/-! ## What is drawn -/

section Minutes

variable {z : DisplayZone} {instant : Int} {date : LocalDate}

theorem localDateOf_lt_iff (h : Written (z.dateOf instant)) :
    localDateOf z instant < date.text ↔ z.dateOf instant < date.day :=
  dateText_lt_iff ⟨by have := h.1; omega, h.2⟩ ⟨by have := date.written.1; omega, date.written.2⟩

theorem lt_localDateOf_iff (h : Written (z.dateOf instant)) :
    date.text < localDateOf z instant ↔ date.day < z.dateOf instant :=
  dateText_lt_iff ⟨by have := date.written.1; omega, date.written.2⟩ ⟨by have := h.1; omega, h.2⟩

/-- The minutes since the midnight of the date, held within the day. -/
theorem clampToDay_eq (h : Written (z.dateOf instant)) (edge : Edge) : clampToDay z instant date.text edge =
    max 0 (min 1440 ((z.wallClock instant - date.day * 86400000) / 60000)) := by
  unfold clampToDay minutesFromLocalMidnight
  simp only [localDateOf_lt_iff h, lt_localDateOf_iff h, ite_self]
  unfold DisplayZone.dateOf
  split
  · omega
  · split <;> omega

theorem clampToDay_bounds (instant : Int) (edge : Edge) (text : List Char) :
    0 ≤ clampToDay z instant text edge ∧ clampToDay z instant text edge ≤ 1440 := by
  unfold clampToDay minutesFromLocalMidnight
  simp only [ite_self]
  split
  · omega
  · split <;> omega

theorem wallClock_whole (h : instant % 60000 = 0) : z.wallClock instant % 60000 = 0 := by
  unfold DisplayZone.wallClock
  omega

/-- The end comes out below the start where the span misses the day, or ends no later on the wall clock
than it starts. -/
theorem clampToDay_lt_iff (span : Span z) : clampToDay z span.startsAt date.text .start <
    clampToDay z span.endsAt date.text .stop ↔
      span.Intersects date ∧ z.wallClock span.startsAt < z.wallClock span.endsAt := by
  have hstart := wallClock_whole (z := z) span.whole_minutes.1
  have hend := wallClock_whole (z := z) span.whole_minutes.2
  have hbefore := (wallClock_compare (z := z) span.startsAt (date.day + 1)).1
  have hafter := (wallClock_compare (z := z) span.endsAt date.day).2
  rw [clampToDay_eq span.written.1, clampToDay_eq span.written.2, intersects_iff, ← hbefore, ← hafter]
  omega

/-- A span that crosses an edge of the day ends later on the wall clock than it starts. -/
theorem wallClock_lt_of_edge (span : Span z) (hspan : span.Intersects date)
    (h : ¬(z.dateOf span.startsAt = date.day ∧ z.dateOf span.endsAt = date.day)) :
    z.wallClock span.startsAt < z.wallClock span.endsAt := by
  obtain ⟨hstart, hend⟩ := intersects_iff.mp hspan
  have hbefore := wallClock_compare (z := z) span.startsAt (date.day + 1)
  have hafter := wallClock_compare (z := z) span.endsAt date.day
  unfold DisplayZone.dateOf at h
  omega

/-- The edges' dates also admit a blocked time that ends when the day begins. -/
theorem overlapsDay_iff (blocked : CalendarBlockedTime z) :
    overlapsDay blocked date.text = true ↔
      blocked.Intersects date ∨ blocked.endsAt = z.midnight date.day := by
  have hspan := blocked.startsAt_lt
  have hbefore := ahead_cases (z := z) (date.day - 1)
  have hafter := ahead_cases (z := z) (date.day + 1 - 1)
  have hstart := dateOf_lt_iff (z := z) blocked.startsAt (date.day + 1)
  have hend := dateOf_lt_iff (z := z) blocked.endsAt date.day
  unfold overlapsDay
  rw [Bool.and_eq_true, Bool.not_eq_true', Bool.not_eq_true', decide_eq_false_iff_not, decide_eq_false_iff_not,
    lt_localDateOf_iff blocked.written.1, localDateOf_lt_iff blocked.written.2, intersects_iff]
  unfold DisplayZone.midnight at *
  omega

end Minutes

/-- A band of the day, of some length. -/
def Placement.InDay (placement : Placement) : Prop :=
  0 ≤ placement.startMinute ∧ placement.startMinute < placement.endMinute ∧ placement.endMinute ≤ 1440

section Drawn

variable {z : DisplayZone} (calendar : OfficeCalendarResponse z) (employeeId : String) (date : LocalDate)

/-- A column has the bookings of its employee that intersect the day, and so with the blocked times. Each
band lies in the day, and the bands of the buffers adjoin the one of their booking. -/
structure DrawsExactly : Prop where
  bookings : columnBookings calendar employeeId date.text =
    (calendar.bookings.filter fun booking => booking.employeeId = employeeId ∧ booking.Intersects date).map
      fun booking => placeBooking booking date.text
  blockedTimes : placeBlockedTimes calendar employeeId date.text =
    (calendar.blockedTimes.filter fun blocked => blocked.employeeId = employeeId ∧ blocked.Intersects date).map
      fun blocked => placeBlockedTime blocked date.text
  placed : ∀ placed ∈ columnBookings calendar employeeId date.text, placed.InDay ∧
    (∀ band ∈ placed.before, band.InDay ∧ band.endMinute = placed.startMinute) ∧
    ∀ band ∈ placed.after, band.InDay ∧ band.startMinute = placed.endMinute
  bands : ∀ band ∈ placeBlockedTimes calendar employeeId date.text, band.InDay

/-- If the span starts and ends on the date, it ends later on the wall clock. -/
def Span.EndsLater (span : Span z) : Prop :=
  z.dateOf span.startsAt = date.day → z.dateOf span.endsAt = date.day →
    z.wallClock span.startsAt < z.wallClock span.endsAt

/-- Nothing of the employee ends on the date at a wall clock that it started at or after, and no blocked
time ends with the midnight before. -/
structure Ordinary : Prop where
  bookings : ∀ booking ∈ calendar.bookings, booking.employeeId = employeeId → booking.EndsLater date
  blockedTimes : ∀ blocked ∈ calendar.blockedTimes, blocked.employeeId = employeeId →
    blocked.EndsLater date ∧ blocked.endsAt ≠ z.midnight date.day

variable {calendar employeeId date}

theorem Span.EndsLater.wallClock_lt {span : Span z} (h : span.EndsLater date) (hspan : span.Intersects date) :
    z.wallClock span.startsAt < z.wallClock span.endsAt := by
  by_cases hday : z.dateOf span.startsAt = date.day ∧ z.dateOf span.endsAt = date.day
  · exact h hday.1 hday.2
  · exact wallClock_lt_of_edge span hspan hday

theorem endsLater_of_clampToDay_lt {span : Span z} (h : span.Intersects date →
    clampToDay z span.startsAt date.text .start < clampToDay z span.endsAt date.text .stop) :
    span.EndsLater date := by
  intro hstart hend
  have hspan : span.Intersects date := ⟨span.startsAt, le_rfl, span.startsAt_lt, hstart⟩
  exact ((clampToDay_lt_iff span).mp (h hspan)).2

theorem mem_columnBookings {placed : BookingPlacement z} :
    placed ∈ columnBookings calendar employeeId date.text ↔
      ∃ booking ∈ calendar.bookings, booking.employeeId = employeeId ∧
        placeBooking booking date.text = placed ∧ placed.startMinute < placed.endMinute := by
  unfold columnBookings
  simp only [List.mem_filter, List.mem_map, decide_eq_true_iff]
  tauto

theorem mem_placeBlockedTimes {band : BlockedPlacement} :
    band ∈ placeBlockedTimes calendar employeeId date.text ↔
      ∃ blocked ∈ calendar.blockedTimes, blocked.employeeId = employeeId ∧
        overlapsDay blocked date.text = true ∧ placeBlockedTime blocked date.text = band := by
  unfold placeBlockedTimes
  simp only [List.mem_filter, List.mem_map, decide_eq_true_iff]
  tauto

/-- The bands of a booking that is kept, whatever the day. -/
theorem placeBooking_inDay {booking : CalendarBooking z} {text : List Char}
    (h : (placeBooking booking text).startMinute < (placeBooking booking text).endMinute) :
    (placeBooking booking text).InDay ∧
      (∀ band ∈ (placeBooking booking text).before, band.InDay ∧
        band.endMinute = (placeBooking booking text).startMinute) ∧
      ∀ band ∈ (placeBooking booking text).after, band.InDay ∧
        band.startMinute = (placeBooking booking text).endMinute := by
  have hstart := clampToDay_bounds (z := z) booking.startsAt .start text
  have hend := clampToDay_bounds (z := z) booking.endsAt .stop text
  have hblockStart := clampToDay_bounds (z := z) booking.blockStartsAt .start text
  have hblockEnd := clampToDay_bounds (z := z) booking.blockEndsAt .stop text
  refine ⟨⟨hstart.1, h, hend.2⟩, ?_, ?_⟩
  · intro band hband
    obtain ⟨hlt, hsome⟩ := Option.ite_none_right_eq_some.mp hband
    cases hsome
    exact ⟨⟨hblockStart.1, hlt, hstart.2⟩, rfl⟩
  · intro band hband
    obtain ⟨hlt, hsome⟩ := Option.ite_none_right_eq_some.mp hband
    cases hsome
    exact ⟨⟨hend.1, hlt, hblockEnd.2⟩, rfl⟩

theorem ordinary_of_drawsExactly (h : DrawsExactly calendar employeeId date) :
    Ordinary calendar employeeId date where
  bookings := by
    intro booking hbooking hemployee
    apply endsLater_of_clampToDay_lt
    intro hspan
    have hmem : placeBooking booking date.text ∈ columnBookings calendar employeeId date.text := by
      rw [h.bookings]
      exact List.mem_map_of_mem (List.mem_filter.mpr ⟨hbooking, decide_eq_true ⟨hemployee, hspan⟩⟩)
    exact (h.placed _ hmem).1.2.1
  blockedTimes := by
    intro blocked hblocked hemployee
    have hband (hoverlaps : overlapsDay blocked date.text = true) :
        (placeBlockedTime blocked date.text).InDay :=
      h.bands _ (mem_placeBlockedTimes.mpr ⟨blocked, hblocked, hemployee, hoverlaps, rfl⟩)
    constructor
    · apply endsLater_of_clampToDay_lt
      intro hspan
      exact (hband (overlapsDay_iff blocked |>.mpr (.inl hspan))).2.1
    · -- the band of one that ends with the midnight has no length
      intro hmidnight
      have hlength := (hband (overlapsDay_iff blocked |>.mpr (.inr hmidnight))).2.1
      have hspan := ((clampToDay_lt_iff blocked.toSpan).mp hlength).1
      exact absurd hmidnight (intersects_iff.mp hspan).2.ne'

theorem drawsExactly_of_ordinary (h : Ordinary calendar employeeId date) :
    DrawsExactly calendar employeeId date where
  bookings := by
    unfold columnBookings
    rw [List.filter_map, List.filter_filter]
    congr 1
    apply List.filter_congr
    intro booking hbooking
    rw [Bool.eq_iff_iff]
    simp only [Function.comp, Bool.and_eq_true, decide_eq_true_iff]
    constructor
    · rintro ⟨hlength, hemployee⟩
      exact ⟨hemployee, ((clampToDay_lt_iff booking.toSpan).mp hlength).1⟩
    · rintro ⟨hemployee, hspan⟩
      have hlater := (h.bookings booking hbooking hemployee).wallClock_lt hspan
      exact ⟨(clampToDay_lt_iff booking.toSpan).mpr ⟨hspan, hlater⟩, hemployee⟩
  blockedTimes := by
    unfold placeBlockedTimes
    rw [List.filter_filter]
    congr 1
    apply List.filter_congr
    intro blocked hblocked
    rw [Bool.eq_iff_iff]
    simp only [Bool.and_eq_true, decide_eq_true_iff, overlapsDay_iff]
    constructor
    · rintro ⟨hspan | hmidnight, hemployee⟩
      · exact ⟨hemployee, hspan⟩
      · exact absurd hmidnight (h.blockedTimes blocked hblocked hemployee).2
    · rintro ⟨hemployee, hspan⟩
      exact ⟨.inl hspan, hemployee⟩
  placed := by
    intro placed hplaced
    obtain ⟨booking, -, -, rfl, hlength⟩ := mem_columnBookings.mp hplaced
    exact placeBooking_inDay hlength
  bands := by
    intro band hband
    obtain ⟨blocked, hblocked, hemployee, hoverlaps, rfl⟩ := mem_placeBlockedTimes.mp hband
    obtain ⟨hlater, hmidnight⟩ := h.blockedTimes blocked hblocked hemployee
    have hspan := ((overlapsDay_iff blocked).mp hoverlaps).resolve_right hmidnight
    have hlength := (clampToDay_lt_iff blocked.toSpan).mpr ⟨hspan, hlater.wallClock_lt hspan⟩
    exact ⟨(clampToDay_bounds _ .start _).1, hlength, (clampToDay_bounds _ .stop _).2⟩

variable (calendar employeeId date)

/-- A column draws exactly what lies on the day, unless a blocked time ends with the midnight before it,
or something on the day ends, by the wall clock that was put back, no later than it started. -/
theorem draws_exactly_iff : DrawsExactly calendar employeeId date ↔ Ordinary calendar employeeId date :=
  ⟨ordinary_of_drawsExactly, drawsExactly_of_ordinary⟩

end Drawn

/-- From 22:00 on 13 August 2026 until midnight. -/
def CalendarBlockedTime.sample : CalendarBlockedTime DISPLAY_ZONE where
  startsAt := 1786651200000
  endsAt := 1786658400000
  startsAt_lt := by decide
  whole_minutes := by decide
  written := by decide
  id := "b1"
  employeeId := "e1"
  reason := some "Dentist"

/-- 14 August 2026. -/
def LocalDate.sample : LocalDate where
  day := 20679
  written := by decide

/-- On the day after a blocked time that ends with midnight there is a band for it, of no length. -/
theorem band_without_length : ¬∀ (calendar : OfficeCalendarResponse DISPLAY_ZONE) (employeeId : String)
    (date : LocalDate), DrawsExactly calendar employeeId date := by
  intro hall
  have hband := (hall { blockedTimes := [.sample] } "e1" .sample).bands
    { id := "b1", reason := some "Dentist", startMinute := 0, endMinute := 0 } (by decide)
  exact absurd hband.2.1 (by decide)

end BookingApp.CalendarLayout

import BookingApp.Domain.Interval
import BookingApp.Domain.LocalTime
import BookingApp.Table

/-!
# Slot generation (`domain/availability/engine.ts`, `types.ts`, `office-view.ts`)

The engine is a pure function of a snapshot. Durations and buffers are minutes,
instants milliseconds; local times that cannot be placed are reported, and a
scheduling interval that is not positive is an error, as in the source.
-/

set_option autoImplicit false

namespace BookingApp

structure AvailabilitySettings where
  schedulingIntervalMinutes : Int
  minimumNoticeHours : Int
  bookingHorizonDays : Int
  deriving DecidableEq, Repr

structure AvailabilityServiceSnapshot where
  id : String
  durationMinutes : Int
  prepBufferMinutes : Int
  cleanupBufferMinutes : Int
  deriving DecidableEq, Repr

structure BreakSnapshot where
  startMinute : MinuteOfDay
  endMinute : MinuteOfDay
  deriving DecidableEq, Repr

structure WorkingHoursSnapshot where
  weekday : Weekday
  startMinute : MinuteOfDay
  endMinute : MinuteOfDay
  breaks : List BreakSnapshot
  deriving DecidableEq, Repr

inductive AvailabilityExceptionKind where
  | EXTRA_HOURS
  | CLOSED
  deriving DecidableEq, Repr

structure AvailabilityExceptionSnapshot where
  date : Int
  kind : AvailabilityExceptionKind
  startMinute : Option MinuteOfDay
  endMinute : Option MinuteOfDay
  deriving DecidableEq, Repr

structure EmployeeSnapshot where
  employeeId : String
  workingHours : List WorkingHoursSnapshot
  exceptions : List AvailabilityExceptionSnapshot
  timeOffDates : List Int
  busy : List Interval
  deriving DecidableEq, Repr

instance : Keyed EmployeeSnapshot String :=
  ⟨EmployeeSnapshot.employeeId⟩

structure AvailabilitySnapshot where
  zone : Zone
  now : Int
  settings : AvailabilitySettings
  service : AvailabilityServiceSnapshot
  closedDates : List Int
  employees : List EmployeeSnapshot

structure Slot where
  startsAt : Int
  endsAt : Int
  employeeIds : List String
  deriving DecidableEq, Repr

structure DaySlots where
  date : Int
  slots : List Slot
  deriving DecidableEq, Repr

structure SkippedLocalTime where
  employeeId : String
  date : Int
  minute : MinuteOfDay
  reason : SkipReason
  deriving DecidableEq, Repr

structure AvailabilityResult where
  days : List DaySlots
  skipped : List SkippedLocalTime
  deriving DecidableEq, Repr

structure Segment where
  startMinute : MinuteOfDay
  endMinute : MinuteOfDay
  breaks : List BreakSnapshot
  deriving DecidableEq, Repr

/-- The employee's segments for one local date: none on a CLOSED exception, the extra hours if
there are any, and the weekday's recurring hours otherwise. -/
def segmentsFor (employee : EmployeeSnapshot) (date : Int) (zone : Zone) : List Segment :=
  let exceptions := employee.exceptions.filter fun e => decide (e.date = date)
  if exceptions.any fun e => decide (e.kind = .CLOSED) then []
  else
    let extraHours := exceptions.filterMap fun e =>
      match e.kind, e.startMinute, e.endMinute with
      | .EXTRA_HOURS, some startMinute, some endMinute => some ⟨startMinute, endMinute, []⟩
      | _, _, _ => none
    if extraHours.length > 0 then extraHours
    else
      let weekday := weekdayOf date zone
      (employee.workingHours.filter fun h => decide (h.weekday = weekday)).map fun h =>
        ⟨h.startMinute, h.endMinute, h.breaks⟩

/-- The loop of `gridMinutes`, which ends after at most `rounds` steps of a positive interval. -/
def gridMinutesFrom (endMinute : MinuteOfDay) (interval : Nat) : Nat → Nat → List MinuteOfDay
  | 0, _ => []
  | rounds + 1, minute =>
    if h : minute ≤ endMinute.val then
      ⟨minute, h.trans endMinute.property⟩ ::
        gridMinutesFrom endMinute interval rounds (minute + interval)
    else []

/-- Candidate start minutes, anchored at the segment start. -/
def gridMinutes (segment : Segment) (intervalMinutes : Int) : Except String (List MinuteOfDay) :=
  if intervalMinutes ≤ 0 then
    throw s!"Scheduling interval must be a positive integer, received {intervalMinutes}."
  else
    return gridMinutesFrom segment.endMinute intervalMinutes.toNat
      (segment.endMinute.val + 1 - segment.startMinute.val) segment.startMinute.val

/-- The report of a local time that `result` could not place. -/
def reportSkipped (employeeId : String) (date : Int) (minute : MinuteOfDay)
    (result : WallClockResult) : List SkippedLocalTime :=
  match result with
  | .ok _ => []
  | .skipped reason => [{ employeeId, date, minute, reason }]

/-- The block a booking at `startsAt` occupies, buffers included. -/
def AvailabilityServiceSnapshot.block (service : AvailabilityServiceSnapshot) (startsAt : Int) :
    Interval :=
  { start := startsAt - service.prepBufferMinutes * 60000,
    stop := startsAt + service.durationMinutes * 60000 + service.cleanupBufferMinutes * 60000 }

/-- The checks a placed candidate has to pass. -/
def acceptsStart (snapshot : AvailabilitySnapshot) (employee : EmployeeSnapshot)
    (earliestStart : Int) (pieces : List Interval) (startsAt : Int) : Bool :=
  let block := snapshot.service.block startsAt
  !decide (startsAt < earliestStart) &&
    pieces.any (fun piece => piece.contains block) &&
    !employee.busy.any fun busy => block.overlaps busy

/-- The slot a grid minute gives, if it can be placed and passes the checks. -/
def candidateStart (snapshot : AvailabilitySnapshot) (employee : EmployeeSnapshot) (date : Int)
    (earliestStart : Int) (pieces : List Interval) (minute : MinuteOfDay) : Option Int :=
  match wallClockToInstant date minute snapshot.zone with
  | .ok startsAt =>
    if acceptsStart snapshot employee earliestStart pieces startsAt then some startsAt else none
  | .skipped _ => none

/-- The breaks of a segment that can be placed, and the reports of those that cannot. -/
def placeBreaks (employeeId : String) (date : Int) (zone : Zone) (breaks : List BreakSnapshot) :
    List Interval × List SkippedLocalTime :=
  (breaks.filterMap fun rest =>
      match wallClockToInstant date rest.startMinute zone,
        wallClockToInstant date rest.endMinute zone with
      | .ok start, .ok stop => some ⟨start, stop⟩
      | _, _ => none,
    breaks.flatMap fun rest =>
      reportSkipped employeeId date rest.startMinute (wallClockToInstant date rest.startMinute zone) ++
        reportSkipped employeeId date rest.endMinute (wallClockToInstant date rest.endMinute zone))

/-- The slots of one segment, and the local times that could not be placed. -/
def segmentSlotsFor (snapshot : AvailabilitySnapshot) (employee : EmployeeSnapshot) (date : Int)
    (earliestStart : Int) (segment : Segment) : Except String (List Int × List SkippedLocalTime) :=
  let zone := snapshot.zone
  let report := reportSkipped employee.employeeId date
  match wallClockToInstant date segment.startMinute zone,
    wallClockToInstant date segment.endMinute zone with
  | .ok start, .ok stop =>
    let (breakIntervals, unplaceable) := placeBreaks employee.employeeId date zone segment.breaks
    if unplaceable.length > 0 then return ([], unplaceable)
    else do
      let pieces := Interval.subtract ⟨start, stop⟩ breakIntervals
      let minutes ← gridMinutes segment snapshot.settings.schedulingIntervalMinutes
      return (
        minutes.filterMap (candidateStart snapshot employee date earliestStart pieces),
        minutes.flatMap fun minute => report minute (wallClockToInstant date minute zone))
  | segmentStart, segmentEnd =>
    return ([], report segment.startMinute segmentStart ++ report segment.endMinute segmentEnd)

/-- Slots one employee can offer on one date. -/
def employeeSlotsFor (snapshot : AvailabilitySnapshot) (employee : EmployeeSnapshot) (date : Int)
    (earliestStart : Int) : Except String (List Int × List SkippedLocalTime) :=
  if employee.timeOffDates.contains date then return ([], [])
  else do
    let slots ← (segmentsFor employee date snapshot.zone).mapM
      (segmentSlotsFor snapshot employee date earliestStart)
    return (slots.flatMap Prod.fst, slots.flatMap Prod.snd)

/-- `employeesByStart` with one more employee at one start; a `Map` in insertion order. -/
def addEmployeeAt (employeesByStart : List (Int × List String)) (start : Int)
    (employeeId : String) : List (Int × List String) :=
  if employeesByStart.any fun entry => decide (entry.1 = start) then
    employeesByStart.map fun entry =>
      if entry.1 = start then
        (entry.1, if entry.2.contains employeeId then entry.2 else entry.2 ++ [employeeId])
      else entry
  else employeesByStart ++ [(start, [employeeId])]

/-- What an employee offers on a date, each start with the employee, and what was skipped. -/
def employeeOffersFor (snapshot : AvailabilitySnapshot) (date : Int) (earliestStart : Int)
    (employee : EmployeeSnapshot) : Except String (List (Int × String) × List SkippedLocalTime) := do
  let (starts, skipped) ← employeeSlotsFor snapshot employee date earliestStart
  return (starts.map fun start => (start, employee.employeeId), skipped)

/-- The slots of one date, merged across employees. -/
def daySlots (snapshot : AvailabilitySnapshot) (earliestStart : Int) (date : Int) :
    Except String (DaySlots × List SkippedLocalTime) :=
  if snapshot.closedDates.contains date then return ({ date, slots := [] }, [])
  else do
    let offers ← snapshot.employees.mapM (employeeOffersFor snapshot date earliestStart)
    let employeesByStart := (offers.flatMap Prod.fst).foldl
      (fun byStart offer => addEmployeeAt byStart offer.1 offer.2) []
    let slots := (employeesByStart.insertionSort fun left right => left.1 ≤ right.1).map fun entry =>
      { startsAt := entry.1,
        endsAt := entry.1 + snapshot.service.durationMinutes * 60000,
        employeeIds := entry.2.insertionSort (· ≤ ·) : Slot }
    return ({ date, slots }, offers.flatMap Prod.snd)

/-- The first instant that respects the minimum notice. -/
def AvailabilitySnapshot.earliestStart (snapshot : AvailabilitySnapshot) : Int :=
  snapshot.now + snapshot.settings.minimumNoticeHours * 3600000

def AvailabilitySnapshot.today (snapshot : AvailabilitySnapshot) : Int :=
  instantToLocalDate snapshot.now snapshot.zone

/-- The last date of the booking horizon. -/
def AvailabilitySnapshot.horizonEnd (snapshot : AvailabilitySnapshot) : Int :=
  addLocalDays snapshot.today snapshot.settings.bookingHorizonDays snapshot.zone

/-- Bookable slots for a local date range, clamped to the booking horizon. -/
def generateAvailability (snapshot : AvailabilitySnapshot) (first last : Int) :
    Except String AvailabilityResult := do
  let rangeStart := if first < snapshot.today then snapshot.today else first
  let rangeEnd := if last > snapshot.horizonEnd then snapshot.horizonEnd else last
  let days ← (eachLocalDate rangeStart rangeEnd snapshot.zone).mapM
    (daySlots snapshot snapshot.earliestStart)
  return { days := days.map Prod.fst, skipped := days.flatMap Prod.snd }

/-- Whether one employee can take one exact instant. -/
def isSlotBookable (snapshot : AvailabilitySnapshot) (employeeId : String) (startsAt : Int) :
    Except String Bool :=
  match Table.find employeeId snapshot.employees with
  | none => return false
  | some employee => do
    let date := instantToLocalDate startsAt snapshot.zone
    let result ← generateAvailability { snapshot with employees := [employee] } date date
    return ((result.days[0]?.map DaySlots.slots).getD []).any fun slot =>
      decide (slot.startsAt = startsAt)

/-- Ten years. -/
def OFFICE_HORIZON_DAYS : Int := 3650

/-- The snapshot as the office's rules see it. -/
def asOfficeSnapshot (snapshot : AvailabilitySnapshot) : AvailabilitySnapshot :=
  { snapshot with settings :=
      { snapshot.settings with minimumNoticeHours := 0, bookingHorizonDays := OFFICE_HORIZON_DAYS } }

end BookingApp

import BookingApp.Booking.Reservation
import BookingApp.Domain.Views
import BookingApp.ReadCommitted.Alone

/-!
# The snapshots of a range and of a slot (`public/availability-snapshot.service.ts`)

A list of offers is computed from the snapshot of a range of dates, a reservation is checked
against the snapshot of one employee on one day. Both read the same tables of the same state, the
second through a narrower window. On a date that lies in both windows the narrower one has all
there is to work with and no more in the way.
-/

set_option autoImplicit false

namespace BookingApp

open ReadCommitted Code

section Load

/-- What a snapshot is loaded for. Without an employee, for everyone who performs the service. -/
structure LoadInput where
  serviceId : String
  employeeId : Option String := none
  first : Int
  last : Int
  deriving DecidableEq, Repr

def AVAILABILITY_MAX_RANGE_DAYS : Nat := 31

/-- `orderBy: [{ employee: { displayOrder: 'asc' } }, { employeeId: 'asc' }]` -/
def displayedBefore (d : Db) (a b : EmployeeService) : Prop :=
  let order (link : EmployeeService) := (Table.find link.employeeId d.employees).map Employee.displayOrder
  (order a).getD 0 < (order b).getD 0 ∨ (order a).getD 0 = (order b).getD 0 ∧ a.employeeId ≤ b.employeeId

instance (d : Db) : DecidableRel (displayedBefore d) := fun a b => by
  unfold displayedBefore
  exact inferInstance

/-- Who performs a service and can be booked for it online. -/
def performers (api : Api) (serviceId : String) (employeeId : Option String) (d : Db) : List String :=
  ((d.employeeServices.filter fun link =>
    decide (link.organizationId = api.organizationId ∧ link.serviceId = serviceId ∧
      ∀ id ∈ employeeId, link.employeeId = id) &&
    (Table.find link.employeeId d.employees).any fun e =>
      decide (e.isBookableOnline = true ∧ e.archivedAt = none)).insertionSort (displayedBefore d)).map
    EmployeeService.employeeId

/-- `loadEmployeeIds`: a named employee has to perform the service. -/
def loadEmployeeIds (api : Api) (serviceId : String) (employeeId : Option String) : Tx (List String) := do
  let employeeIds ← read (performers api serviceId employeeId)
  ensure (S := store) (employeeId = none ∨ employeeIds ≠ []) serviceNotFound
  return employeeIds

/-- `AvailabilitySnapshotService.load`: the snapshot of a range of local dates. -/
def load (api : Api) (input : LoadInput) : Tx AvailabilitySnapshot := do
  let zone := api.timezone
  ensure (S := store) ((eachLocalDate input.first input.last zone).length ≤ AVAILABILITY_MAX_RANGE_DAYS)
    (.app {
      code := "VALIDATION_FAILED", status := some 400
      message := s!"Availability range must not exceed {AVAILABILITY_MAX_RANGE_DAYS} days." })
  let service ← loadService api input.serviceId
  let employeeIds ← loadEmployeeIds api input.serviceId input.employeeId
  if employeeIds = [] then do
    let instant ← now
    return {
      zone
      now := instant
      settings := api.settings.availability
      service := service.snapshot
      closedDates := []
      employees := [] }
  else do
    let window := snapshotWindow input.first input.last zone
    let workingHours ← read fun d => d.workingHours.filter fun h =>
      decide (h.organizationId = api.organizationId ∧ h.employeeId ∈ employeeIds)
    let exceptions ← read fun d => d.availabilityExceptions.filter fun e =>
      decide (e.organizationId = api.organizationId ∧ e.employeeId ∈ employeeIds) &&
        dateInWindow window e.exception.date
    let timeOff ← read fun d => d.timeOff.filter fun t =>
      decide (t.organizationId = api.organizationId ∧ t.employeeId ∈ employeeIds ∧
        t.status = .APPROVED ∧ localDateToDateColumn t.startDate < window.stop ∧
        window.start ≤ localDateToDateColumn t.endDate)
    let bookings ← read fun d => d.bookings.filter fun b =>
      decide (b.organizationId = api.organizationId ∧ b.employeeId ∈ employeeIds ∧ b.Blocks ∧
        b.blockStartsAt < window.stop ∧ window.start < b.blockEndsAt)
    let blocked ← read fun d => d.blockedTimes.filter fun t =>
      decide (t.organizationId = api.organizationId ∧ t.employeeId ∈ employeeIds ∧
        t.startsAt < window.stop ∧ window.start < t.endsAt)
    let closedDays ← read fun d => d.closedDays.filter fun c =>
      decide (c.organizationId = api.organizationId) && dateInWindow window c.date
    let instant ← now
    return {
      zone
      now := instant
      settings := api.settings.availability
      service := service.snapshot
      closedDates := closedDays.map ClosedDay.date
      employees := employeeIds.map fun employeeId => {
        employeeId
        workingHours := (workingHours.filter fun h => decide (h.employeeId = employeeId)).map WorkingHours.hours
        exceptions := (exceptions.filter fun e => decide (e.employeeId = employeeId)).map
          AvailabilityException.exception
        timeOffDates := (timeOff.filter fun t => decide (t.employeeId = employeeId)).flatMap fun t =>
          eachLocalDate t.startDate t.endDate zone
        busy := (bookings.filter fun b => decide (b.employeeId = employeeId)).map Booking.block ++
          (blocked.filter fun t => decide (t.employeeId = employeeId)).map BlockedTime.span } }

end Load

section Rows

variable (api : Api) (window : Interval) (d : Db)

/-- The closed dates of a window. -/
def closedIn : List Int :=
  (d.closedDays.filter fun c =>
    decide (c.organizationId = api.organizationId) && dateInWindow window c.date).map ClosedDay.date

/-- What a window shows of an employee. -/
def employeeIn (employeeId : String) : EmployeeSnapshot where
  employeeId
  workingHours := (d.workingHours.filter fun h =>
    decide (h.organizationId = api.organizationId ∧ h.employeeId = employeeId)).map WorkingHours.hours
  exceptions := (d.availabilityExceptions.filter fun e =>
    decide (e.organizationId = api.organizationId ∧ e.employeeId = employeeId) &&
      dateInWindow window e.exception.date).map AvailabilityException.exception
  timeOffDates := (d.timeOff.filter fun t =>
    decide (t.organizationId = api.organizationId ∧ t.employeeId = employeeId ∧
      t.status = .APPROVED ∧ localDateToDateColumn t.startDate < window.stop ∧
      window.start ≤ localDateToDateColumn t.endDate)).flatMap fun t =>
        eachLocalDate t.startDate t.endDate api.timezone
  busy := (busyBookings api employeeId window d).map Booking.block ++
    (busyBlockedTimes api employeeId window d).map BlockedTime.span

/-- What a window shows of several employees. -/
def snapshotIn (instant : Int) (service : Service) (employeeIds : List String) : AvailabilitySnapshot where
  zone := api.timezone
  now := instant
  settings := api.settings.availability
  service := service.snapshot
  closedDates := closedIn api window d
  employees := employeeIds.map (employeeIn api window d)

end Rows

/-- The services that are there have times that the constraints allow. -/
theorem Service.valid {d : Db} {service : Service} (hlegal : Legal d) (h : service ∈ d.services) :
    service.snapshot.Valid :=
  ⟨hlegal.calendar.services_duration_check service h,
    (hlegal.calendar.services_buffers_check service h).1,
    (hlegal.calendar.services_buffers_check service h).2⟩

section Loading

variable {api : Api} {s : Alone store} {service : Service} {serviceId : String}

theorem runAlone_read {α : Type} (f : Db → α) (s : Alone store) :
    (read f).runAlone s = (.ok (f s.view), s) := rfl

/-- The service that `loadService` finds. -/
def offeredService (api : Api) (serviceId : String) (d : Db) : Option Service :=
  (findIn Service.organizationId api.organizationId serviceId d.services).filter
    fun s => decide (s.archivedAt = none ∧ s.isBookableOnline = true)

theorem runAlone_loadService : (loadService api serviceId).runAlone s =
    ((offeredService api serviceId s.view).elim (.error serviceNotFound) .ok, s) := by
  unfold loadService
  rw [runAlone_bind_ok (runAlone_read ..), ← offeredService]
  cases offeredService api serviceId s.view with
  | none => rfl
  | some service => rfl

theorem runAlone_loadService_ok (h : offeredService api serviceId s.view = some service) :
    (loadService api serviceId).runAlone s = (.ok service, s) := by
  rw [runAlone_loadService, h]
  rfl

theorem offeredService_valid {d : Db} (hlegal : Legal d) (h : offeredService api serviceId d = some service) :
    service.snapshot.Valid := by
  obtain ⟨hfind, -⟩ := Option.filter_eq_some_iff.mp h
  obtain ⟨hfind, -⟩ := Option.filter_eq_some_iff.mp hfind
  exact Service.valid hlegal (Table.mem_of_find hfind)

theorem mem_performers {employeeId : Option String} {d : Db} {id : String} :
    id ∈ performers api serviceId employeeId d ↔ ∃ link ∈ d.employeeServices,
      (link.organizationId = api.organizationId ∧ link.serviceId = serviceId ∧ link.employeeId = id) ∧
      (∀ named ∈ employeeId, named = id) ∧
      ∃ e, Table.find id d.employees = some e ∧ e.isBookableOnline = true ∧ e.archivedAt = none := by
  simp only [performers, List.mem_map, List.mem_insertionSort, List.mem_filter, Bool.and_eq_true,
    decide_eq_true_eq, Option.any_eq_true]
  constructor
  · rintro ⟨link, ⟨hlink, ⟨ho, hs, hnamed⟩, e, he, honline⟩, rfl⟩
    exact ⟨link, hlink, ⟨ho, hs, rfl⟩, fun named h => (hnamed named h).symm, e, he, honline⟩
  · rintro ⟨link, hlink, ⟨ho, hs, rfl⟩, hnamed, e, he, honline⟩
    exact ⟨link, ⟨hlink, ⟨ho, hs, fun named h => (hnamed named h).symm⟩, e, he, honline⟩, rfl⟩

/-- Whoever is on the list performs the service. -/
theorem runAlone_loadEmployee {employeeId : Option String} {id : String}
    (h : id ∈ performers api serviceId employeeId s.view) :
    (loadEmployee api serviceId id).runAlone s = (.ok (), s) := by
  obtain ⟨link, hlink, hpairing, -, e, he, honline⟩ := mem_performers.mp h
  unfold loadEmployee
  rw [runAlone_bind_ok (runAlone_read ..), ensure, if_pos]
  · rfl
  · refine List.ne_nil_of_mem (List.mem_filter.mpr ⟨hlink, ?_⟩)
    rw [Bool.and_eq_true, Option.any_eq_true]
    exact ⟨decide_eq_true hpairing, e, he, decide_eq_true honline⟩

/-- The window of one slot. -/
def slotWindow (api : Api) (startsAt : Int) : Interval :=
  snapshotWindow (instantToLocalDate startsAt api.timezone) (instantToLocalDate startsAt api.timezone)
    api.timezone

theorem runAlone_loadForSlot (hservice : offeredService api serviceId s.view = some service)
    {employeeId : Option String} {id : String} (hid : id ∈ performers api serviceId employeeId s.view)
    (startsAt : Int) :
    (loadForSlot api serviceId id startsAt).runAlone s =
      (.ok (snapshotIn api (slotWindow api startsAt) s.view (s.answers 0).now service [id]), s.next) := by
  unfold loadForSlot
  rw [runAlone_bind_ok (runAlone_loadService_ok hservice), runAlone_bind_ok (runAlone_loadEmployee hid)]
  rfl

variable {input : LoadInput}

theorem runAlone_ensure_eq_ok {c : Prop} [Decidable c] {e : Failure} {s s' : Alone store} {u : Unit} :
    (ensure (S := store) c e).runAlone s = (.ok u, s') ↔ c ∧ s = s' := by
  unfold ensure
  by_cases hc : c
  · rw [if_pos hc]
    exact Iff.intro (fun h => And.intro hc (congrArg Prod.snd h)) fun h => by rw [h.2]; rfl
  · rw [if_neg hc]
    exact Iff.intro (fun h => (by cases h)) fun h => absurd h.1 hc

theorem runAlone_ensure_of {c : Prop} [Decidable c] (h : c) (e : Failure) (s : Alone store) :
    (ensure (S := store) c e).runAlone s = (.ok (), s) :=
  runAlone_ensure_eq_ok.mpr ⟨h, rfl⟩

/-- A short range is loaded, where nobody is named. -/
theorem runAlone_load (hservice : offeredService api input.serviceId s.view = some service)
    (hanyone : input.employeeId = none)
    (hrange : (eachLocalDate input.first input.last api.timezone).length ≤ AVAILABILITY_MAX_RANGE_DAYS) :
    ∃ snapshot s', (load api input).runAlone s = (.ok snapshot, s') := by
  have hids : (loadEmployeeIds api input.serviceId input.employeeId).runAlone s =
      (.ok (performers api input.serviceId input.employeeId s.view), s) := by
    unfold loadEmployeeIds
    rw [runAlone_bind_ok (runAlone_read ..), runAlone_bind_ok (runAlone_ensure_of (Or.inl hanyone) _ _)]
    rfl
  unfold load
  rw [runAlone_bind_ok (runAlone_ensure_of hrange _ _), runAlone_bind_ok (runAlone_loadService_ok hservice),
    runAlone_bind_ok hids]
  split
  · exact ⟨_, _, rfl⟩
  · exact ⟨_, _, rfl⟩

/-- Rows of some employees, of which those of one are picked. -/
theorem filter_employee {ρ : Type} {rows : List ρ} {employeeOf : ρ → String} {p q : ρ → Bool} {id : String}
    (h : ∀ r, employeeOf r = id → p r = q r) (hq : ∀ r, employeeOf r ≠ id → q r = false) :
    (rows.filter p).filter (fun r => decide (employeeOf r = id)) = rows.filter q := by
  rw [List.filter_filter]
  refine List.filter_congr fun r _ => ?_
  by_cases hr : employeeOf r = id
  · simp [hr, h r hr]
  · simp [hr, hq r hr]

/-- A range is loaded with the service there is and with everyone who performs it. -/
theorem load_snapshot {snapshot : AvailabilitySnapshot} {s' : Alone store}
    (h : (load api input).runAlone s = (.ok snapshot, s')) :
    ∃ service, offeredService api input.serviceId s.view = some service ∧ s' = s.next ∧
      let ids := performers api input.serviceId input.employeeId s.view
      let loaded := snapshotIn api (snapshotWindow input.first input.last api.timezone) s.view
        (s.answers 0).now service ids
      snapshot = if ids = [] then { loaded with closedDates := [] } else loaded := by
  obtain ⟨_, s₁, hrange, hrest⟩ := runAlone_bind_eq_ok.mp h
  obtain ⟨-, rfl⟩ := runAlone_ensure_eq_ok.mp hrange
  obtain ⟨service, s₂, hservice, hrest⟩ := runAlone_bind_eq_ok.mp hrest
  rw [runAlone_loadService] at hservice
  cases hfound : offeredService api input.serviceId s.view with
  | none =>
    rw [hfound] at hservice
    cases hservice
  | some found =>
    rw [hfound] at hservice
    cases hservice
    obtain ⟨ids, s₃, hids, hrest⟩ := runAlone_bind_eq_ok.mp hrest
    obtain ⟨ids', s₄, hread, hids⟩ := runAlone_bind_eq_ok.mp hids
    cases hread
    obtain ⟨_, s₅, hnamed, hids⟩ := runAlone_bind_eq_ok.mp hids
    obtain ⟨-, rfl⟩ := runAlone_ensure_eq_ok.mp hnamed
    cases hids
    refine ⟨service, rfl, ?_⟩
    dsimp only
    split at hrest
    next hempty =>
      cases hrest
      rw [if_pos hempty, hempty]
      exact ⟨rfl, rfl⟩
    next hsome =>
      rw [if_neg hsome]
      cases hrest
      refine ⟨rfl, congrArg (fun employees => { snapshotIn api _ s.view (s.answers 0).now service [] with
        employees }) (List.map_congr_left fun id hid => ?_)⟩
      unfold employeeIn busyBookings busyBlockedTimes
      congr 1
      · exact congrArg _ (filter_employee (fun r hr => by simp [hr, hid]) fun r hr => by simp [hr])
      · exact congrArg _ (filter_employee (fun r hr => by simp [hr, hid]) fun r hr => by simp [hr])
      · exact congrArg _ (filter_employee (fun r hr => by simp [hr, hid]) fun r hr => by simp [hr])
      · exact congrArg₂ _
          (congrArg _ (filter_employee (fun r hr => by simp [hr, hid]) fun r hr => by simp [hr]))
          (congrArg _ (filter_employee (fun r hr => by simp [hr, hid]) fun r hr => by simp [hr]))

theorem load_settings {snapshot : AvailabilitySnapshot} {s' : Alone store}
    (h : (load api input).runAlone s = (.ok snapshot, s')) : snapshot.settings = api.settings.availability := by
  obtain ⟨_, -, -, hsnapshot⟩ := load_snapshot h
  rw [hsnapshot]
  split <;> rfl

end Loading

section Narrowing

variable {s : AvailabilitySnapshot} {e e' : EmployeeSnapshot} {date t : Int}

/-- On a date the second employee has what the first has to work with and no more in the way. -/
structure EmployeeSnapshot.Eases (e e' : EmployeeSnapshot) (date : Int) : Prop where
  workingHours : e'.workingHours = e.workingHours
  exceptions : (e'.exceptions.filter fun x => decide (x.date = date)) =
    e.exceptions.filter fun x => decide (x.date = date)
  timeOffDates : e'.timeOffDates ⊆ e.timeOffDates
  busy : e'.busy ⊆ e.busy

theorem EmployeeSnapshot.Eases.segmentsFor (h : e.Eases e' date) (z : Zone) :
    BookingApp.segmentsFor e' date z = BookingApp.segmentsFor e date z := by
  unfold BookingApp.segmentsFor
  rw [h.exceptions, h.workingHours]

/-- What can be started with more in the way can be started. -/
theorem Offerable.eased {closedDates : List Int} (hclosed : closedDates ⊆ s.closedDates)
    (he : e.Eases e' date) (h : Offerable s e date t) (employees : List EmployeeSnapshot) :
    Offerable { s with closedDates, employees } e' date t := by
  obtain ⟨segment, hsegment, hinside, hbreaks, hgrid⟩ := h.segment
  refine ⟨fun hmem => h.open_ (hclosed hmem), fun hmem => h.present (he.timeOffDates hmem),
    ⟨segment, ?_, hinside, hbreaks, hgrid⟩, h.notice, fun busy hbusy => h.free busy (he.busy hbusy)⟩
  rw [he.segmentsFor]
  exact hsegment

/-- The engine goes through dates of the range, within the horizon. -/
theorem bounds_of_mem_listedDates {first last : Int} (h : date ∈ s.listedDates first last) :
    (first ≤ date ∧ date ≤ last) ∧ s.today ≤ date ∧ date ≤ s.horizonEnd := by
  obtain ⟨hfirst, hlast⟩ := bounds_of_mem_eachLocalDate h
  constructor
  · constructor
    · split at hfirst <;> omega
    · split at hlast <;> omega
  · constructor
    · split at hfirst <;> omega
    · split at hlast <;> omega

/-- For a date within the horizon the engine goes through this date alone. -/
theorem generateAvailability_date (hs : s.service.Valid) (hemployee : e ∈ s.employees)
    (htoday : s.today ≤ date) (hhorizon : date ≤ s.horizonEnd) (h : Offerable s e date t) :
    ∃ day skipped, generateAvailability s date date = .ok ⟨[day], skipped⟩ ∧
      ∃ slot ∈ day.slots, slot.startsAt = t := by
  obtain ⟨-, -, -, -, hinterval, -⟩ := h.segment
  obtain ⟨out, hout⟩ : ∃ out, daySlots s s.earliestStart date = .ok out :=
    daySlots_isOk hinterval s.earliestStart
  obtain ⟨slot, hslot, hstart, -⟩ := (mem_daySlots hs hout).2.mpr ⟨e, hemployee, rfl, h⟩
  refine ⟨out.1, out.2, ?_, slot, hslot, hstart⟩
  have hlisted : s.listedDates date date = [date] := by
    unfold AvailabilitySnapshot.listedDates
    rw [if_neg (not_lt.mpr htoday), if_neg (not_lt.mpr hhorizon), eachLocalDate_self]
  change (s.listedDates date date).mapM _ >>= _ = _
  rw [hlisted, List.mapM_cons, hout]
  simp [bind, Except.bind, pure, Except.pure]

/-- A start the rule offers within the horizon passes the booking-time check, whatever midnights
are skipped. -/
theorem isSlotBookable_of_offerable (hs : s.service.Valid) {id : String}
    (hfind : Table.find id s.employees = some e) (htoday : s.today ≤ date) (hhorizon : date ≤ s.horizonEnd)
    (h : Offerable s e date t) : isSlotBookable s id t = .ok true := by
  have hdate : instantToLocalDate t s.zone = date := h.dateOf_eq hs
  obtain ⟨day, skipped, hgenerated, slot, hslot, hstart⟩ :=
    generateAvailability_date (s := { s with employees := [e] }) hs (List.mem_singleton_self e) htoday hhorizon
      ((offerable_employees [e]).mpr h)
  unfold isSlotBookable
  rw [hfind]
  dsimp only
  rw [hdate, hgenerated]
  exact congrArg Except.ok (List.any_eq_true.mpr ⟨slot, hslot, decide_eq_true hstart⟩)

end Narrowing

section Windows

variable {api : Api} {z : Zone} {first last date : Int}

/-- The window of a date lies within the window of a range that it is in. -/
theorem snapshotWindow_narrow (hfirst : first ≤ date) (hlast : date ≤ last) :
    (snapshotWindow first last z).start ≤ (snapshotWindow date date z).start ∧
      (snapshotWindow date date z).stop ≤ (snapshotWindow first last z).stop := by
  have hearly := addLocalDays_bounds (z := z) first (-1)
  have hstart := addLocalDays_bounds (z := z) date (-1)
  have hstop := addLocalDays_bounds (z := z) date (1 + 1)
  have hlate := addLocalDays_bounds (z := z) last (1 + 1)
  simp only [snapshotWindow, WINDOW_PADDING_DAYS, localDateToDateColumn]
  constructor
  · rcases hfirst.eq_or_lt with rfl | hlt
    · exact le_rfl
    · omega
  · rcases hlast.eq_or_lt with rfl | hlt
    · exact le_rfl
    · omega

/-- The dates of a range lie in its window. -/
theorem dateInWindow_snapshotWindow (hfirst : first ≤ date) (hlast : date ≤ last) :
    dateInWindow (snapshotWindow first last z) date = true := by
  have hstart := addLocalDays_bounds (z := z) first (-1)
  have hstop := addLocalDays_bounds (z := z) last (1 + 1)
  unfold dateInWindow
  rw [Bool.and_eq_true, decide_eq_true_eq, decide_eq_true_eq]
  simp only [snapshotWindow, WINDOW_PADDING_DAYS, localDateToDateColumn]
  omega

variable {window narrow : Interval} {d : Db} (hstart : window.start ≤ narrow.start)
  (hstop : narrow.stop ≤ window.stop)

include hstart hstop

theorem dateInWindow_mono (h : dateInWindow narrow date = true) : dateInWindow window date = true := by
  simp only [dateInWindow, Bool.and_eq_true, decide_eq_true_eq] at h ⊢
  omega

theorem closedIn_subset : closedIn api narrow d ⊆ closedIn api window d := by
  intro c hc
  obtain ⟨row, hrow, rfl⟩ := List.mem_map.mp hc
  obtain ⟨hmem, hp⟩ := List.mem_filter.mp hrow
  rw [Bool.and_eq_true] at hp
  refine List.mem_map_of_mem (List.mem_filter.mpr ⟨hmem, ?_⟩)
  rw [Bool.and_eq_true]
  exact ⟨hp.1, dateInWindow_mono hstart hstop hp.2⟩

/-- Through a narrower window there is less in the way of an employee, and as much to work with on
the dates in it. -/
theorem employeeIn_eases (hin : dateInWindow narrow date = true) (id : String) :
    (employeeIn api window d id).Eases (employeeIn api narrow d id) date := by
  refine ⟨rfl, ?_, ?_, ?_⟩
  · unfold employeeIn
    rw [List.filter_map, List.filter_map, List.filter_filter, List.filter_filter]
    refine congrArg _ (List.filter_congr fun row _ => ?_)
    by_cases hdate : row.exception.date = date
    · simp [hdate, hin, dateInWindow_mono hstart hstop hin]
    · simp [hdate]
  · intro day hday
    obtain ⟨row, hrow, hmem⟩ := List.mem_flatMap.mp hday
    obtain ⟨htable, hp⟩ := List.mem_filter.mp hrow
    obtain ⟨ho, hid, happroved, hbefore, hafter⟩ := of_decide_eq_true hp
    refine List.mem_flatMap.mpr ⟨row, List.mem_filter.mpr ⟨htable, ?_⟩, hmem⟩
    exact decide_eq_true ⟨ho, hid, happroved, by omega, by omega⟩
  · intro busy hbusy
    rcases List.mem_append.mp hbusy with hbooking | hblocked
    · obtain ⟨row, hrow, rfl⟩ := List.mem_map.mp hbooking
      obtain ⟨htable, hp⟩ := List.mem_filter.mp hrow
      obtain ⟨ho, hid, hblocks, hbefore, hafter⟩ := of_decide_eq_true hp
      refine List.mem_append_left _ (List.mem_map_of_mem (List.mem_filter.mpr ⟨htable, ?_⟩))
      exact decide_eq_true ⟨ho, hid, hblocks, by omega, by omega⟩
    · obtain ⟨row, hrow, rfl⟩ := List.mem_map.mp hblocked
      obtain ⟨htable, hp⟩ := List.mem_filter.mp hrow
      obtain ⟨ho, hid, hbefore, hafter⟩ := of_decide_eq_true hp
      refine List.mem_append_right _ (List.mem_map_of_mem (List.mem_filter.mpr ⟨htable, ?_⟩))
      exact decide_eq_true ⟨ho, hid, by omega, by omega⟩

omit hstart hstop

/-- A start the rule offers is clear of all that the window of its date shows. -/
theorem Offerable.clear {s : AvailabilitySnapshot} {e : EmployeeSnapshot} {t : Int}
    (hsteady : s.zone.ChangesBelow 720) (h : Offerable s e date t) {i : Interval}
    (hbusy : i.start < (snapshotWindow date date s.zone).stop →
      (snapshotWindow date date s.zone).start < i.stop → i ∈ e.busy) :
    (s.service.block t).overlaps i = false := by
  have hbounds := h.block_bounds
  simp only [snapshotWindow, WINDOW_PADDING_DAYS, addLocalDays_eq_of_changesBelow hsteady,
    localDateToDateColumn] at hbusy
  -- what is outside of the window ends before the block, or starts after it
  by_cases hstart : i.start < (date + (1 + 1)) * 86400000
  · by_cases hstop : (date + -1) * 86400000 < i.stop
    · exact Interval.overlaps_eq_false_iff.mpr (h.free _ (hbusy hstart hstop))
    · rw [← Bool.not_eq_true, Interval.overlaps_iff]
      omega
  · rw [← Bool.not_eq_true, Interval.overlaps_iff]
    omega

end Windows

section Listed

variable {api : Api} {settings : AvailabilitySettings} {d : Db} {instant : Int} {service : Service}
  {ids : List String} {first last date t : Int} {id : String}

theorem find_employeeIn {window : Interval} (hid : id ∈ ids) :
    Table.find id (ids.map (employeeIn api window d)) = some (employeeIn api window d id) := by
  induction ids with
  | nil => cases hid
  | cons first ids ih =>
    unfold Table.find
    by_cases hfirst : first = id
    · rw [hfirst]
      exact List.find?_cons_of_pos (decide_eq_true rfl)
    · rw [List.map_cons, List.find?_cons_of_neg]
      · exact ih ((List.mem_cons.mp hid).resolve_left (Ne.symm hfirst))
      · intro hkey
        exact hfirst (of_decide_eq_true hkey)

/-- What is listed from the snapshot of a range can be started by the snapshot of the slot, and passes
the check made on it, whoever else is in it. -/
theorem bookable_of_lists (hvalid : service.snapshot.Valid) {result : AvailabilityResult}
    (h : generateAvailability { snapshotIn api (snapshotWindow first last api.timezone) d instant service ids with
      settings } first last = .ok result) (hlists : result.Lists date id t) :
    id ∈ ids ∧
      Offerable { snapshotIn api (slotWindow api t) d instant service [id] with settings }
        (employeeIn api (slotWindow api t) d id) date t ∧
      ∀ several, id ∈ several →
        isSlotBookable { snapshotIn api (slotWindow api t) d instant service several with settings } id t =
          .ok true := by
  obtain ⟨hdate, e, he, rfl, hopen, out, hout, ht⟩ := (lists_iff_canStart h).mp hlists
  obtain ⟨id, hid, rfl⟩ := List.mem_map.mp he
  have hoffer := (mem_employeeSlotsFor hvalid hopen hout).mp ht
  obtain ⟨⟨hfrom, hto⟩, htoday, hhorizon⟩ := bounds_of_mem_listedDates hdate
  have hslot : slotWindow api t = snapshotWindow date date api.timezone := by
    have hday : api.timezone.dateOf t = date := hoffer.dateOf_eq hvalid
    unfold slotWindow instantToLocalDate
    rw [hday]
  obtain ⟨hstart, hstop⟩ := snapshotWindow_narrow (z := api.timezone) hfrom hto
  have hclosed : closedIn api (snapshotWindow date date api.timezone) d ⊆
      closedIn api (snapshotWindow first last api.timezone) d := closedIn_subset hstart hstop
  have heased := hoffer.eased hclosed
    (employeeIn_eases hstart hstop (dateInWindow_snapshotWindow le_rfl le_rfl) id)
    [employeeIn api (snapshotWindow date date api.timezone) d id]
  rw [hslot]
  refine ⟨hid, heased, fun several hmem => ?_⟩
  have hamong := (offerable_employees (several.map (employeeIn api (snapshotWindow date date api.timezone) d))).mpr
    heased
  exact isSlotBookable_of_offerable hvalid (find_employeeIn hmem) htoday hhorizon hamong

/-- What is listed from a snapshot that was loaded, whatever the settings, is listed for somebody who
performs the service, and passes the check made on the snapshot of the slot. -/
theorem bookable_of_load {query : LoadInput} {a a' : Alone store} {snapshot : AvailabilitySnapshot}
    (hlegal : Legal a.view) (hload : (load api query).runAlone a = (.ok snapshot, a'))
    {result : AvailabilityResult}
    (h : generateAvailability { snapshot with settings } query.first query.last = .ok result)
    (hlists : result.Lists date id t) :
    ∃ service, offeredService api query.serviceId a.view = some service ∧
      id ∈ performers api query.serviceId query.employeeId a.view ∧
      Offerable { snapshotIn api (slotWindow api t) a.view (a.answers 0).now service [id] with settings }
        (employeeIn api (slotWindow api t) a.view id) date t ∧
      ∀ several, id ∈ several → isSlotBookable { snapshotIn api (slotWindow api t) a.view (a.answers 0).now service
        several with settings } id t = .ok true := by
  obtain ⟨service, hfound, -, hsnapshot⟩ := load_snapshot hload
  dsimp only at hsnapshot
  split at hsnapshot
  next hempty =>
    obtain ⟨-, e, he, -⟩ := (lists_iff_canStart h).mp hlists
    rw [hsnapshot, hempty] at he
    cases he
  next hsome =>
    rw [hsnapshot] at h
    exact ⟨service, hfound, bookable_of_lists (offeredService_valid hlegal hfound) h hlists⟩

end Listed

end BookingApp

import BookingApp.Booking.Holds
import Mathlib.Data.List.Dedup

/-!
# Reserving a slot (`reservation.service.ts`, `availability-snapshot.service.ts`, `calendar-lock.ts`)

Whoever writes into an employee's calendar takes its advisory lock first, reads
what occupies it, and only then inserts: a booking, or a blocked time
(`office/availability-admin.service.ts`).
-/

set_option autoImplicit false

namespace BookingApp

open ReadCommitted

/-- The advisory locks of several calendars, one after the other. -/
def lockCalendars : List String → Tx Unit
  | [] => return ()
  | employeeId :: rest => do
    readForUpdate (fun _ => [.calendar employeeId]) fun _ => ()
    lockCalendars rest

/-- Runs `fn` with the calendars of these employees locked, in a stable order. -/
def withCalendarLock {α : Type} (employeeIds : List String) (fn : Tx α) : Tx α := do
  lockCalendars (employeeIds.dedup.insertionSort (· ≤ ·))
  fn

/-- One extra day at each end, so that a slot's buffers cannot fall outside the window. -/
def WINDOW_PADDING_DAYS : Int := 1

/-- `AvailabilitySnapshotService.window`: the range that occupancy and calendar rows are read for. -/
def snapshotWindow (first last : Int) (zone : Zone) : Interval where
  start := localDateToDateColumn (addLocalDays first (-WINDOW_PADDING_DAYS) zone)
  stop := localDateToDateColumn (addLocalDays last (WINDOW_PADDING_DAYS + 1) zone)

def serviceNotFound : Failure :=
  .app { code := "NOT_FOUND", message := "Service not found." }

/-- The service, if it is bookable online and not archived. -/
def loadService (api : Api) (serviceId : String) : Tx Service := do
  match ← read fun d => (findIn Service.organizationId api.organizationId serviceId d.services).filter
      fun s => decide (s.archivedAt = none ∧ s.isBookableOnline = true) with
  | none => throw serviceNotFound
  | some service => return service

/-- `loadEmployeeIds` for a named employee, who has to perform the service. -/
def loadEmployee (api : Api) (serviceId employeeId : String) : Tx Unit := do
  let links ← read fun d => d.employeeServices.filter fun link =>
    decide (link.organizationId = api.organizationId ∧ link.serviceId = serviceId ∧
      link.employeeId = employeeId) &&
    (Table.find employeeId d.employees).any fun e =>
      decide (e.isBookableOnline = true ∧ e.archivedAt = none)
  ensure (S := store) (links ≠ []) serviceNotFound

/-- The blocking bookings of an employee whose block meets the window. -/
def busyBookings (api : Api) (employeeId : String) (window : Interval) (d : Db) : List Booking :=
  d.bookings.filter fun b => decide (b.organizationId = api.organizationId ∧
    b.employeeId = employeeId ∧ b.Blocks ∧ b.blockStartsAt < window.stop ∧
    window.start < b.blockEndsAt)

/-- The blocked times of an employee that meet the window. -/
def busyBlockedTimes (api : Api) (employeeId : String) (window : Interval) (d : Db) :
    List BlockedTime :=
  d.blockedTimes.filter fun t => decide (t.organizationId = api.organizationId ∧
    t.employeeId = employeeId ∧ t.startsAt < window.stop ∧ window.start < t.endsAt)

/-- Whether the column of a date lies in the window. -/
def dateInWindow (window : Interval) (date : Int) : Bool :=
  decide (window.start ≤ localDateToDateColumn date) &&
    decide (localDateToDateColumn date < window.stop)

/-- What the engine is told of a service. -/
def Service.snapshot (service : Service) : AvailabilityServiceSnapshot where
  id := service.id
  durationMinutes := service.durationMinutes
  prepBufferMinutes := service.prepBufferMinutes
  cleanupBufferMinutes := service.cleanupBufferMinutes

/-- The snapshot of one employee on one day, read through the caller's transaction. -/
def loadForSlot (api : Api) (serviceId employeeId : String) (startsAt : Int) :
    Tx AvailabilitySnapshot := do
  let zone := api.timezone
  let date := instantToLocalDate startsAt zone
  let window := snapshotWindow date date zone
  let service ← loadService api serviceId
  loadEmployee api serviceId employeeId
  let workingHours ← read fun d => d.workingHours.filter fun h =>
    decide (h.organizationId = api.organizationId ∧ h.employeeId = employeeId)
  let exceptions ← read fun d => d.availabilityExceptions.filter fun e =>
    decide (e.organizationId = api.organizationId ∧ e.employeeId = employeeId) &&
      dateInWindow window e.exception.date
  let timeOff ← read fun d => d.timeOff.filter fun t =>
    decide (t.organizationId = api.organizationId ∧ t.employeeId = employeeId ∧
      t.status = .APPROVED ∧ localDateToDateColumn t.startDate < window.stop ∧
      window.start ≤ localDateToDateColumn t.endDate)
  let bookings ← read (busyBookings api employeeId window)
  let blocked ← read (busyBlockedTimes api employeeId window)
  let closedDays ← read fun d => d.closedDays.filter fun c =>
    decide (c.organizationId = api.organizationId) && dateInWindow window c.date
  let instant ← now
  return {
    zone
    now := instant
    settings := api.settings.availability
    service := service.snapshot
    closedDates := closedDays.map ClosedDay.date
    employees := [{
      employeeId
      workingHours := workingHours.map WorkingHours.hours
      exceptions := exceptions.map AvailabilityException.exception
      timeOffDates := timeOff.flatMap fun t => eachLocalDate t.startDate t.endDate zone
      busy := bookings.map Booking.block ++ blocked.map BlockedTime.span }] }

def slotUnavailable (message : String) : Failure :=
  .app { code := "SLOT_UNAVAILABLE", message }

/-- The check that the engine makes of one slot. -/
def assertSlotBookable (snapshot : AvailabilitySnapshot) (employeeId : String) (startsAt : Int)
    (message : String) : Tx Unit := do
  let bookable ← ofExcept ((isSlotBookable snapshot employeeId startsAt).mapError Failure.error)
  ensure (S := store) (bookable = true) (slotUnavailable message)

/-- Who is booking. -/
inductive ReserveActor where
  | CUSTOMER
  | OFFICE (officeUserId : String)
  deriving DecidableEq, Repr

/-- The customer the booking is for is the row that the upsert of customers has found or made. -/
structure ReserveInput where
  serviceId : String
  employeeId : String
  startsAt : Int
  customerId : String
  locale : Locale
  customerNote : Option String := none
  origin : Option BookingOrigin := none
  actor : ReserveActor := .CUSTOMER
  idempotencyKey : Option String := none
  deriving DecidableEq, Repr

structure ReserveResult where
  booking : Booking
  employeeName : String
  price : Money
  managementToken : Option String := none
  deriving DecidableEq, Repr

/-- The snapshot as this actor's rules see it. -/
def forActor (snapshot : AvailabilitySnapshot) : ReserveActor → AvailabilitySnapshot
  | .CUSTOMER => snapshot
  | .OFFICE _ => asOfficeSnapshot snapshot

/-- Refuses a slot outside the bookable window before any lock is taken. -/
def assertWithinWindow (api : Api) (startsAt : Int) (message : String) : Tx Unit := do
  let instant ← now
  let settings := api.settings.availability
  ensure (S := store)
    (instant + settings.minimumNoticeHours * 3600000 ≤ startsAt ∧
      startsAt ≤ instant + settings.bookingHorizonDays * 86400000)
    (.app { code := "OUTSIDE_BOOKING_WINDOW", message })

/-- The window that holds for customers. The office may book at any time. -/
def assertWithinBookingWindow (api : Api) (actor : ReserveActor) (startsAt : Int) : Tx Unit :=
  match actor with
  | .CUSTOMER =>
    let settings := api.settings.availability
    assertWithinWindow api startsAt
      s!"Bookings need {settings.minimumNoticeHours} hours' notice and open {settings.bookingHorizonDays} days ahead."
  | .OFFICE _ => return ()

/-- What the pairing of an employee and a service costs. -/
def resolveEffectivePrice (service : Service) (link : EmployeeService) : Except Failure Money :=
  let cents := link.priceOverrideCents.getD service.priceCents
  if cents < 0 then throw (.app {
    code := "INVALID_MONEY", status := some 500
    message := s!"Service prices must be non-negative, received {cents} cents." })
  else Money.fromCents cents service.currency

/-- The pairing of an employee and a service, for this actor. -/
def findAssignment (api : Api) (input : ReserveInput) (d : Db) :
    Option (EmployeeService × Employee × Service) := do
  let link ← d.employeeServices.find? fun link =>
    decide (link.organizationId = api.organizationId ∧ link.serviceId = input.serviceId ∧
      link.employeeId = input.employeeId)
  let employee ← (Table.find link.employeeId d.employees).filter fun e =>
    decide (e.archivedAt = none ∧ (input.actor = .CUSTOMER → e.isBookableOnline = true))
  let service ← (Table.find link.serviceId d.services).filter fun s => decide (s.archivedAt = none)
  return (link, employee, service)

/-- The names and the price that the booking is made with. -/
structure Assignment where
  employeeName : String
  serviceName : String
  price : Money

def loadEffectiveAssignment (api : Api) (input : ReserveInput) : Tx Assignment := do
  match ← read (findAssignment api input) with
  | none => throw serviceNotFound
  | some (link, employee, service) =>
    let price ← ofExcept (resolveEffectivePrice service link)
    return { employeeName := employee.displayName, serviceName := service.name, price }

/-- The bookings that hold a key. -/
def bookingsWithKey (keyId : String) (d : Db) : List String :=
  (d.bookings.filter fun b => decide (b.idempotencyKeyId = some keyId)).map Booking.id

/-- The key of the request, taken from whichever booking still holds it. -/
def claimIdempotencyKey : Option String → Tx (Option String)
  | none => return none
  | some key => do
    match ← read fun d => d.idempotencyKeys.find? fun k =>
        decide (k.key = key ∧ k.scope = "booking.create" ∧ k.state = .IN_PROGRESS) with
    | none => throwApp "IDEMPOTENCY_KEY_REUSED" "Booking attempt is not claimable."
    | some claimed =>
      updateMany .booking (bookingsWithKey claimed.id) fun ids =>
        Db.onBookings (Table.update ids fun b => { b with idempotencyKeyId := none })
      return some claimed.id

/-- Binds the key to the booking. -/
def bindIdempotencyKey (keyId : Option String) (bookingId : String) : Tx Unit :=
  match keyId with
  | none => return ()
  | some id => do
    let row ← modify (S := store) .plain (fun _ => [.idempotencyKey id])
      (fun _ => Db.onIdempotencyKeys (Table.update [id] fun k => { k with bookingId := some bookingId }))
      fun d : Db => Table.find id d.idempotencyKeys
    discard (orThrow row)

/-- Arms the expiry of a hold. -/
def armExpiry (booking : Booking) : Tx Unit :=
  match booking.expiresAt with
  | none => return ()
  | some expiresAt => recordOutbox {
      organizationId := booking.organizationId
      aggregateType := "Booking"
      aggregateId := booking.id
      eventType := .BOOKING_EXPIRY_REQUESTED
      payload := [("organizationId", booking.organizationId), ("bookingId", booking.id)]
      availableAt := some expiresAt }

/-- The row that explains how a new booking got its status. -/
def ReserveActor.created (actor : ReserveActor) (booking : Booking) : BookingStatusHistory where
  organizationId := booking.organizationId
  bookingId := booking.id
  fromStatus := none
  toStatus := booking.status
  actorType := match actor with
    | .CUSTOMER => "CUSTOMER"
    | .OFFICE _ => "OFFICE_USER"
  actorOfficeUserId := match actor with
    | .CUSTOMER => none
    | .OFFICE officeUserId => some officeUserId

/-- What the webhook does on confirmation, for a booking that is confirmed from the start. -/
def announce (api : Api) (actor : ReserveActor) (booking : Booking) : Tx (Option String) :=
  match actor with
  | .CUSTOMER => return none
  | .OFFICE _ => do
    let token ← issueToken api booking.id booking.organizationId booking.endsAt
    recordOutbox {
      organizationId := booking.organizationId
      aggregateType := "Booking"
      aggregateId := booking.id
      eventType := .BOOKING_CONFIRMED
      payload := [("organizationId", booking.organizationId), ("bookingId", booking.id),
        ("managementToken", token)] }
    return some token

/-- The columns that depend on who is booking. -/
def ReserveActor.applyTo (actor : ReserveActor) (instant : Int) (b : Booking) : Booking :=
  match actor with
  | .CUSTOMER => b
  | .OFFICE officeUserId =>
    { b with
      origin := .OFFICE, status := .CONFIRMED, confirmedAt := some instant
      createdByOfficeUserId := some officeUserId }

/-- The row of a new booking. -/
def ReserveInput.toBooking (input : ReserveInput) (api : Api) (service : AvailabilityServiceSnapshot)
    (assignment : Assignment) (expiresAt : Option Int) (keyId : Option String) (instant : Int)
    (ids : Answer) : Booking :=
  let endsAt := input.startsAt + service.durationMinutes * 60000
  let base := input.actor.applyTo instant {
    id := ids.id
    reference := ids.random
    organizationId := api.organizationId
    origin := .ONLINE
    customerId := input.customerId
    employeeId := input.employeeId
    serviceId := input.serviceId
    startsAt := input.startsAt
    endsAt
    blockStartsAt := input.startsAt - service.prepBufferMinutes * 60000
    blockEndsAt := endsAt + service.cleanupBufferMinutes * 60000
    serviceNameSnapshot := assignment.serviceName
    durationMinutesSnapshot := service.durationMinutes
    prepBufferMinutesSnapshot := service.prepBufferMinutes
    cleanupBufferMinutesSnapshot := service.cleanupBufferMinutes
    priceCentsSnapshot := assignment.price.amountCents
    currency := assignment.price.currency
    status := .PENDING_PAYMENT
    expiresAt
    locale := input.locale
    idempotencyKeyId := keyId
    customerNote := input.customerNote }
  { base with origin := input.origin.getD base.origin }

/-- One attempt at the transaction: lock, re-check, insert, record. -/
def insertOnce (api : Api) (input : ReserveInput) (expiresAt : Option Int) : Tx ReserveResult :=
  withCalendarLock [input.employeeId] do
    let snapshot ← loadForSlot api input.serviceId input.employeeId input.startsAt
    assertSlotBookable (forActor snapshot input.actor) input.employeeId input.startsAt
      "That slot is no longer available."
    let assignment ← loadEffectiveAssignment api input
    let keyId ← claimIdempotencyKey input.idempotencyKey
    let instant ← now
    let ids ← answer
    let booking := input.toBooking api snapshot.service assignment expiresAt keyId instant ids
    assertTransition none booking.status
    insert (Db.onBookings (· ++ [booking]))
    bindIdempotencyKey keyId booking.id
    armExpiry booking
    recordHistory (input.actor.created booking)
    let managementToken ← announce api input.actor booking
    return {
      booking, managementToken
      employeeName := assignment.employeeName, price := assignment.price }

/-- How many references to try before giving up. -/
def REFERENCE_ATTEMPTS : Nat := 5

/-- The index a concurrent first-time booking collides on. -/
def CUSTOMER_EMAIL_CONSTRAINT : String :=
  "customers_organization_id_email_normalized_key"

/-- A collision that another attempt gets around. -/
def isCollision (error : Failure) : Bool :=
  isUniqueViolation error "reference" || isUniqueViolation error CUSTOMER_EMAIL_CONSTRAINT

/-- An exclusion violation, as the answer that the slot is gone. -/
def refuseOverlap {α : Type} (constraint message : String) (body : Tx α) : Tx α :=
  tryCatch body fun error : Failure =>
    if isExclusionViolation error constraint then throw (slotUnavailable message) else throw error

/-- `ReservationService.insert`, whose commit is labelled `p`. -/
def insertBooking (p : Point) (api : Api) (input : ReserveInput) (expiresAt : Option Int) :
    Tx ReserveResult :=
  refuseOverlap "bookings_no_overlap" "That slot is no longer available."
    (withRetry (S := store) isCollision (REFERENCE_ATTEMPTS - 1) fun _ =>
      transaction (S := store) p (insertOnce api input expiresAt))

/-- When the hold of a customer lapses. The office's bookings hold nothing. -/
def reservationExpiry (api : Api) : ReserveActor → Tx (Option Int)
  | .CUSTOMER => do return some ((← now) + api.settings.reservationTtlMinutes * 60000)
  | .OFFICE _ => return none

/-- Turns a slot request into a booking, with the commit labelled `p`. The employee is chosen
before. -/
def reserveAt (p : Point) (api : Api) (input : ReserveInput) : Tx ReserveResult := do
  discard (loadService api input.serviceId)
  assertWithinBookingWindow api input.actor input.startsAt
  let expiresAt ← reservationExpiry api input.actor
  withSerializationRetry fun _ => insertBooking p api input expiresAt

def reserve : Api → ReserveInput → Tx ReserveResult :=
  reserveAt .plain

inductive OfficeUserRole where
  | OWNER
  | ADMIN
  | EMPLOYEE
  deriving DecidableEq, Repr

structure OfficeSession where
  officeUserId : String
  organizationId : String
  role : OfficeUserRole
  employeeId : Option String
  deriving DecidableEq, Repr

structure CreateBlockedTimeRequest where
  employeeId : String
  startsAt : Int
  endsAt : Int
  reason : Option String := none
  deriving DecidableEq, Repr

/-- A blocking booking that occupies some of the time. -/
def clashingBooking (session : OfficeSession) (body : CreateBlockedTimeRequest) (d : Db) :
    Option Booking :=
  d.bookings.find? fun b => decide (b.organizationId = session.organizationId ∧
    b.employeeId = body.employeeId ∧ b.Blocks ∧ b.blockStartsAt < body.endsAt ∧
    body.startsAt < b.blockEndsAt)

/-- The transaction of `createBlockedTime`. -/
def createBlockedTimeOnce (session : OfficeSession) (body : CreateBlockedTimeRequest) :
    Tx BlockedTime :=
  withCalendarLock [body.employeeId] do
    match ← read (clashingBooking session body) with
    | some clash => throw (.app {
        code := "SLOT_UNAVAILABLE", message := "An appointment already occupies that time."
        details := [("bookingReference", clash.reference)] })
    | none =>
      let id ← freshId
      let row : BlockedTime := {
        id
        organizationId := session.organizationId
        employeeId := body.employeeId
        startsAt := body.startsAt
        endsAt := body.endsAt
        reason := body.reason
        createdByOfficeUserId := session.officeUserId }
      insert (Db.onBlockedTimes (· ++ [row]))
      return row

/-- Takes time off an employee's calendar. -/
def createBlockedTime (session : OfficeSession) (body : CreateBlockedTimeRequest) :
    Tx BlockedTime := do
  ensure (S := store) (session.role ≠ .EMPLOYEE ∨ session.employeeId = some body.employeeId)
    (.app { code := "NOT_FOUND", message := "Not found." })
  let employee ← read fun d =>
    findIn Employee.organizationId session.organizationId body.employeeId d.employees
  ensure (S := store) (employee ≠ none) (.app { code := "NOT_FOUND", message := "Employee not found." })
  refuseOverlap "blocked_times_no_overlap" "That time is already blocked."
    (transaction (S := store) .plain (createBlockedTimeOnce session body))

end BookingApp

import BookingApp.Booking.Endings
import BookingApp.Booking.Reservation

/-!
# Moving an appointment (`reschedule.service.ts`)

A customer asks for a new slot; an approval inserts the replacement and cancels
the original in one transaction, with the calendars of both employees locked.
The original is read without a lock on its row.
-/

set_option autoImplicit false

namespace BookingApp

open ReadCommitted

structure RequestRescheduleInput where
  bookingId : String
  requestedStartsAt : Int
  requestedEmployeeId : Option String := none
  reason : Option String := none
  deriving DecidableEq, Repr

structure DecideRescheduleInput where
  requestId : String
  officeUserId : String
  decision : Verdict
  note : Option String := none
  deriving DecidableEq, Repr

def notReschedulable (message : String) : Failure :=
  .app { code := "BOOKING_NOT_RESCHEDULABLE", message }

/-- The service as it was sold with the booking. -/
def Booking.sold (b : Booking) : AvailabilityServiceSnapshot where
  id := b.serviceId
  durationMinutes := b.durationMinutesSnapshot
  prepBufferMinutes := b.prepBufferMinutesSnapshot
  cleanupBufferMinutes := b.cleanupBufferMinutesSnapshot

/-- The snapshot, re-shaped to the appointment as it was sold. -/
def asSoldSnapshot (snapshot : AvailabilitySnapshot) (booking : Booking) : AvailabilitySnapshot :=
  { snapshot with service := { booking.sold with id := snapshot.service.id } }

/-- An availability check that holds nothing. -/
def assertPlausible (api : Api) (booking : Booking) (employeeId : String) (startsAt : Int) :
    Tx Unit := do
  let snapshot ← loadForSlot api booking.serviceId employeeId startsAt
  assertSlotBookable (asSoldSnapshot snapshot booking) employeeId startsAt
    "That slot is not available."

/-- The booking may still be moved. -/
def assertReschedulable (booking : Booking) : Tx Unit := do
  ensure (S := store) (booking.status = .CONFIRMED)
    (notReschedulable s!"A {booking.status.text} booking cannot be rescheduled.")
  let instant ← now
  ensure (S := store) (instant < booking.startsAt)
    (notReschedulable "This appointment has already started.")

/-- One attempt at opening a reschedule request. -/
def openRescheduleOnce (booking : Booking) (input : RequestRescheduleInput) : Tx String := do
  match ← lockRow (fun b => .booking b.id) fun d : Db =>
      findIn Booking.organizationId booking.organizationId booking.id d.bookings with
  | none => throw bookingNotFound
  | some locked =>
    assertReschedulable locked
    let id ← freshId
    insert (Db.onRescheduleRequests (· ++ [{
      id
      organizationId := booking.organizationId
      bookingId := booking.id
      requestedStartsAt := input.requestedStartsAt
      requestedEmployeeId := input.requestedEmployeeId
      reason := input.reason }]))
    return id

/-- Asks for a new slot. The booking is left alone. -/
def requestByCustomer (api : Api) (input : RequestRescheduleInput) : Tx String := do
  let booking ← loadCancellable api input.bookingId
  assertReschedulable booking
  let settings := api.settings.availability
  assertWithinWindow api input.requestedStartsAt
    s!"A new time needs {settings.minimumNoticeHours} hours' notice and must fall within {settings.bookingHorizonDays} days."
  assertPlausible api booking (input.requestedEmployeeId.getD booking.employeeId)
    input.requestedStartsAt
  tryCatch (withSerializationRetry fun _ =>
      transaction (S := store) .plain (openRescheduleOnce booking input))
    fun error : Failure =>
      if isUniqueViolation error "reschedule_requests_one_open" then
        throw (notReschedulable "A reschedule request for this booking is already open.")
      else throw error

def rescheduleRequestNotFound : Failure :=
  .app { code := "NOT_FOUND", message := "Reschedule request not found." }

/-- A reschedule request of the organization. -/
def findRescheduleRequest (api : Api) (requestId : String) (d : Db) : Option RescheduleRequest :=
  findIn RescheduleRequest.organizationId api.organizationId requestId d.rescheduleRequests

/-- `lockRequest`: the request, locked and still open. -/
def lockRescheduleRequest (api : Api) (requestId : String) : Tx RescheduleRequest := do
  match ← lockRow (fun r => .rescheduleRequest r.id) (findRescheduleRequest api requestId) with
  | none => throw rescheduleRequestNotFound
  | some locked =>
    ensure (S := store) (locked.decision = .PENDING) requestAlreadyDecided
    orThrow (← read (findRescheduleRequest api requestId))

/-- The columns of a decided request. -/
def DecideRescheduleInput.decided (input : DecideRescheduleInput) (decidedAt : Int)
    (resultingBookingId : Option String) (r : RescheduleRequest) : RescheduleRequest :=
  { r with
    decision := input.decision.toDecision
    decidedByOfficeUserId := some input.officeUserId
    decidedAt := some decidedAt
    decisionNote := input.note.or r.decisionNote
    resultingBookingId := resultingBookingId.or r.resultingBookingId }

def writeDecision (input : DecideRescheduleInput) (resultingBookingId : Option String) :
    Tx Unit := do
  let decidedAt ← now
  let row ← modify (S := store) .plain (fun _ => [.rescheduleRequest input.requestId])
    (fun _ => Db.onRescheduleRequests
      (Table.update [input.requestId] (input.decided decidedAt resultingBookingId)))
    fun d : Db => Table.find input.requestId d.rescheduleRequests
  discard (orThrow row)

/-- The replacement: a new slot, with everything else as it was sold. -/
def Booking.replacement (b : Booking) (employeeId : String) (startsAt confirmedAt : Int)
    (ids : Answer) : Booking :=
  let endsAt := startsAt + b.durationMinutesSnapshot * 60000
  { id := ids.id
    reference := ids.random
    organizationId := b.organizationId
    origin := b.origin
    customerId := b.customerId
    employeeId
    serviceId := b.serviceId
    startsAt
    endsAt
    blockStartsAt := startsAt - b.prepBufferMinutesSnapshot * 60000
    blockEndsAt := endsAt + b.cleanupBufferMinutesSnapshot * 60000
    serviceNameSnapshot := b.serviceNameSnapshot
    durationMinutesSnapshot := b.durationMinutesSnapshot
    prepBufferMinutesSnapshot := b.prepBufferMinutesSnapshot
    cleanupBufferMinutesSnapshot := b.cleanupBufferMinutesSnapshot
    priceCentsSnapshot := b.priceCentsSnapshot
    currency := b.currency
    status := .CONFIRMED
    confirmedAt := some confirmedAt
    customerNote := b.customerNote
    locale := b.locale
    rescheduledFromBookingId := some b.id
    financialRootBookingId := some (b.financialRootBookingId.getD b.id) }

/-- The two status changes of a move. -/
def movedHistory (b created : Booking) (officeUserId : String) : List BookingStatusHistory :=
  [{ organizationId := b.organizationId
     bookingId := b.id
     fromStatus := some b.status
     toStatus := .CANCELED_BY_BUSINESS
     actorType := "OFFICE"
     actorOfficeUserId := some officeUserId
     reason := some "RESCHEDULED" },
   { organizationId := b.organizationId
     bookingId := created.id
     fromStatus := none
     toStatus := .CONFIRMED
     actorType := "OFFICE"
     actorOfficeUserId := some officeUserId
     reason := some s!"rescheduled from {b.reference}" }]

/-- What became of a booking that was moved: its id, the one of its replacement, and its links
that were revoked. -/
structure Moved where
  bookingId : String
  newBookingId : String
  revoked : List String
  deriving DecidableEq, Repr

/-- `RescheduleService.approve` -/
def approveReschedule (api : Api) (request : RescheduleRequest) (input : DecideRescheduleInput) :
    Tx Moved := do
  let instant ← now
  let booking ← orThrow (← read fun d =>
    findIn Booking.organizationId request.organizationId request.bookingId d.bookings)
  ensure (S := store) (booking.status = .CONFIRMED)
    (notReschedulable s!"A {booking.status.text} booking cannot be rescheduled.")
  let employeeId := request.requestedEmployeeId.getD booking.employeeId
  let snapshot ← loadForSlot api booking.serviceId employeeId request.requestedStartsAt
  assertSlotBookable (asSoldSnapshot snapshot booking) employeeId request.requestedStartsAt
    "The requested slot is no longer available."
  assertTransition none .CONFIRMED
  let created := booking.replacement employeeId request.requestedStartsAt instant (← answer)
  insert (Db.onBookings (· ++ [created]))
  assertTransition (some booking.status) .CANCELED_BY_BUSINESS
  discard (updateBookingAt (.approval booking.id) booking.id (Ending.applyTo {
    status := .CANCELED_BY_BUSINESS, canceledAt := some instant
    canceledByOfficeUserId := some input.officeUserId
    cancellationReason := some "RESCHEDULED" }))
  insert (Db.onHistory (· ++ movedHistory booking created input.officeUserId))
  let (token, revoked) ← rotateToken api booking.id created.id booking.organizationId created.endsAt
  writeDecision input (some created.id)
  recordOutbox {
    organizationId := booking.organizationId
    aggregateType := "Booking"
    aggregateId := created.id
    eventType := .BOOKING_RESCHEDULED
    payload := [("organizationId", booking.organizationId), ("bookingId", created.id),
      ("previousBookingId", booking.id), ("managementToken", token),
      ("customerNotificationAlreadyQueued", "true")] }
  recordOutbox {
    organizationId := booking.organizationId
    aggregateType := "Booking"
    aggregateId := created.id
    eventType := .REMINDER_SCHEDULE
    payload := [("organizationId", booking.organizationId), ("bookingId", created.id)] }
  return { bookingId := booking.id, newBookingId := created.id, revoked }

/-- What a decision does once the calendars are locked. -/
def decideLocked (api : Api) (input : DecideRescheduleInput) : Tx (Option Moved) := do
  let request ← lockRescheduleRequest api input.requestId
  match input.decision with
  | .REJECTED =>
    writeDecision input none
    return none
  | .APPROVED => some <$> approveReschedule api request input

/-- The commit of a decision is the one of an operation that ends a booking, if it moves one. -/
def movePoint (requestId : String) (moved : Option Moved) : Point :=
  match moved with
  | some m => .leaving m.bookingId (some (.rescheduleRequest requestId)) m.revoked
  | none => .plain

/-- `decideOnce`: the request is read first to learn which calendars to lock. -/
def decideRescheduleOnce (api : Api) (input : DecideRescheduleInput) : Tx (Option String) := do
  match ← query fun d => (findRescheduleRequest api input.requestId d).bind fun request =>
      (Table.find request.bookingId d.bookings).map fun booking => (request, booking.employeeId) with
  | none => throw rescheduleRequestNotFound
  | some (request, employeeId) =>
    let moved ← refuseOverlap "bookings_no_overlap" "The requested slot is no longer available."
      (transactionBy (S := store) (movePoint input.requestId)
        (withCalendarLock [employeeId, request.requestedEmployeeId.getD employeeId]
          (decideLocked api input)))
    return moved.map Moved.newBookingId

/-- `RescheduleService.decide` -/
def decideReschedule (api : Api) (input : DecideRescheduleInput) : Tx (Option String) :=
  withSerializationRetry fun _ => decideRescheduleOnce api input

end BookingApp

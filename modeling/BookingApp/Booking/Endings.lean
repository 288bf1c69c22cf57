import BookingApp.Booking.Holds
import BookingApp.Payment.Refunds

/-!
# Ending an appointment (`cancellation.service.ts`, `attendance.service.ts`)

A customer cancels at once or asks to, the office decides what was asked or
cancels by itself, and an appointment that took place is closed out. Each of
these takes the booking out of CONFIRMED with its row locked.
-/

set_option autoImplicit false

namespace BookingApp

open ReadCommitted

def notCancellable (message : String) : Failure :=
  .app { code := "BOOKING_NOT_CANCELLABLE", message }

/-- `CancellationService.lock`: the status of a booking of the organization, whose row is locked. -/
def lockStatus (bookingId organizationId : String) : Tx BookingStatus := do
  match ← lockRow (fun b => .booking b.id) fun d : Db =>
      findIn Booking.organizationId organizationId bookingId d.bookings with
  | none => throw bookingNotFound
  | some row => return row.status

def loadCancellable (api : Api) (bookingId : String) : Tx Booking := do
  match ← read fun d => findIn Booking.organizationId api.organizationId bookingId d.bookings with
  | none => throw bookingNotFound
  | some booking => return booking

/-- Card payments that represent money the business received. -/
def RECEIVED_PAYMENT_STATUSES : List PaymentStatus :=
  [.SUCCEEDED, .PARTIALLY_REFUNDED, .REFUNDED]

/-- One more amount on a total. -/
def Money.addCents (total : Money) (amountCents : Int) (currency : String) : Except Failure Money := do
  total.plus (← Money.fromCents amountCents currency)

/-- Card and cash together. -/
def receivedFrom (payments : List Payment) (manualPayments : List ManualPayment) (currency : String) :
    Except Failure Money := do
  let card ← (payments.filter fun p => RECEIVED_PAYMENT_STATUSES.contains p.status).foldlM
    (fun total p => total.addCents p.amountCents p.currency) (Money.zero currency)
  manualPayments.foldlM (fun total p => total.addCents p.amountCents p.currency) card

/-- What the customer has handed over, read through the financial root. -/
def paidTotal (api : Api) (booking : Booking) : Tx Money := do
  let root ← rootBookingId api booking.id
  let payments ← read fun d => d.payments.filter fun p => decide (p.bookingId = root)
  let manualPayments ← read fun d => d.manualPayments.filter fun p => decide (p.bookingId = root)
  ofExcept (receivedFrom payments manualPayments booking.currency)

structure ReserveOptions where
  reason : RefundReason
  mayIssueRefunds : Bool
  officeUserId : Option String := none
  lenient : Bool := true
  deriving DecidableEq, Repr

/-- Reserves the refund that a cancellation implies. -/
def reserveRefund (api : Api) (booking : Booking) (amount : RefundAmount)
    (options : ReserveOptions) : Tx RefundReservationResult := do
  let reserved ← reserveInTransaction api {
    bookingId := booking.id, amount
    reason := options.reason
    officeUserId := options.officeUserId
    lenient := options.lenient }
  ensure (S := store) (reserved.additionalAmountCents ≤ 0 ∨ options.mayIssueRefunds = true)
    (.app { code := "FORBIDDEN_ROLE", message := "Your account may not perform this action." })
  return reserved

/-- The columns an ended booking is written with. -/
structure Ending where
  status : BookingStatus
  canceledAt : Option Int := none
  completedAt : Option Int := none
  cancellationReason : Option String := none
  canceledByOfficeUserId : Option String := none
  deriving DecidableEq, Repr

def Ending.applyTo (ending : Ending) (b : Booking) : Booking :=
  { b with
    status := ending.status
    canceledAt := ending.canceledAt.or b.canceledAt
    completedAt := ending.completedAt.or b.completedAt
    cancellationReason := ending.cancellationReason.or b.cancellationReason
    canceledByOfficeUserId := ending.canceledByOfficeUserId.or b.canceledByOfficeUserId }

/-- The event of a cancellation. -/
def recordCanceled (booking : Booking) (refundId : Option String) (extra : List (String × String)) :
    Tx Unit :=
  recordOutbox {
    organizationId := booking.organizationId
    aggregateType := "Booking"
    aggregateId := booking.id
    eventType := .BOOKING_CANCELED
    payload := [("organizationId", booking.organizationId), ("bookingId", booking.id)] ++
      refundId.toList.map (fun id => ("refundId", id)) ++ extra }

inductive CancelByCustomerResult where
  | CANCELED (refundId : Option String) (refundExpected : Money)
  | REQUESTED (requestId : String) (suggestedRetained : Money)
  deriving DecidableEq, Repr

/-- One attempt at cancelling now, with everything that was paid refunded. -/
def cancelOnce (api : Api) (booking : Booking) (paid : Money) (canceledAt : Int)
    (reason : Option String) : Tx CancelByCustomerResult := do
  let current ← lockStatus booking.id booking.organizationId
  ensure (S := store) (current = .CONFIRMED) (notCancellable "This booking is no longer cancellable.")
  assertTransition (some current) .CANCELED_BY_CUSTOMER
  discard (updateBooking booking.id (Ending.applyTo {
    status := .CANCELED_BY_CUSTOMER, canceledAt := some canceledAt, cancellationReason := reason }))
  recordHistory {
    organizationId := booking.organizationId
    bookingId := booking.id
    fromStatus := some current
    toStatus := .CANCELED_BY_CUSTOMER
    actorType := "CUSTOMER"
    reason }
  let reserved ← reserveRefund api booking (.CUMULATIVE_TARGET paid.amountCents) {
    reason := .CUSTOMER_CANCELLATION, mayIssueRefunds := true }
  recordCanceled booking reserved.refundId []
  let refundExpected ← ofExcept (Money.fromCents reserved.additionalAmountCents booking.currency)
  return .CANCELED reserved.refundId refundExpected

/-- Outside the fee window. -/
def cancelImmediately (api : Api) (booking : Booking) (paid : Money) (reason : Option String) :
    Tx CancelByCustomerResult := do
  let canceledAt ← now
  withSerializationRetry fun _ => transaction (S := store) (.leaving booking.id none [])
    (cancelOnce api booking paid canceledAt reason)

/-- One attempt at opening a request. -/
def openOnce (booking : Booking) (suggestedRetained : Money) (reason : Option String) :
    Tx CancelByCustomerResult := do
  let current ← lockStatus booking.id booking.organizationId
  ensure (S := store) (current = .CONFIRMED)
    (notCancellable s!"A {current.text} booking cannot be cancelled.")
  let id ← freshId
  insert (Db.onCancellationRequests (· ++ [{
    id, reason
    organizationId := booking.organizationId
    bookingId := booking.id
    suggestedRetainedAmountCents := suggestedRetained.amountCents }]))
  return .REQUESTED id suggestedRetained

/-- Inside the fee window: a request, and the booking is left alone. -/
def openRequest (booking : Booking) (suggestedRetained : Money) (reason : Option String) :
    Tx CancelByCustomerResult :=
  tryCatch (withSerializationRetry fun _ =>
      transaction (S := store) .plain (openOnce booking suggestedRetained reason))
    fun error : Failure =>
      if isUniqueViolation error "cancellation_requests_one_open" then
        throw (notCancellable "A cancellation request for this booking is already open.")
      else throw error

def cancelByCustomer (api : Api) (bookingId : String) (reason : Option String) :
    Tx CancelByCustomerResult := do
  let instant ← now
  let booking ← loadCancellable api bookingId
  ensure (S := store) (booking.status = .CONFIRMED)
    (notCancellable s!"A {booking.status.text} booking cannot be cancelled.")
  ensure (S := store) (instant < booking.startsAt)
    (notCancellable "This appointment has already started.")
  let paid ← paidTotal api booking
  let policy ← ofExcept
    (computeSuggestedRetainedAmount paid booking.startsAt instant api.settings.cancellationFees)
  if policy.feeApplies then openRequest booking policy.suggestedRetained reason
  else cancelImmediately api booking paid reason

/-- What the office may decide. -/
inductive Verdict where
  | APPROVED
  | REJECTED
  deriving DecidableEq, Repr

def Verdict.toDecision : Verdict → RequestDecision
  | APPROVED => .APPROVED
  | REJECTED => .REJECTED

structure DecideRequestInput where
  requestId : String
  officeUserId : String
  decision : Verdict
  retainedAmountCents : Option Int := none
  note : Option String := none
  mayIssueRefunds : Bool
  deriving DecidableEq, Repr

/-- The columns of a decided request. -/
def DecideRequestInput.decided (input : DecideRequestInput) (decidedAt : Int)
    (r : CancellationRequest) : CancellationRequest :=
  { r with
    decision := input.decision.toDecision
    decidedByOfficeUserId := some input.officeUserId
    decidedAt := some decidedAt
    decisionNote := input.note.or r.decisionNote }

def updateCancellationRequest (id : String) (f : CancellationRequest → CancellationRequest) :
    Tx Unit := do
  let row ← modify (S := store) .plain (fun _ => [.cancellationRequest id])
    (fun _ => Db.onCancellationRequests (Table.update [id] f))
    fun d : Db => Table.find id d.cancellationRequests
  discard (orThrow row)

/-- How much the retained amount may be, and what it is when unspecified. -/
def validateRetained (input : DecideRequestInput) (request : CancellationRequest) (paid : Money) :
    Except Failure Money :=
  let requested := input.retainedAmountCents.getD request.suggestedRetainedAmountCents
  if requested < 0 ∨ requested > paid.amountCents then throw (.app {
    code := "VALIDATION_FAILED"
    message := s!"Retained amount must be between 0 and {paid.amountCents}."
    details := [("paidAmountCents", toString paid.amountCents)] })
  else Money.fromCents requested paid.currency

/-- `CancellationService.approve`: cancels the booking behind the request, with a refund of what
is not retained. -/
def approveCancellation (api : Api) (booking : Booking) (paid retained : Money)
    (input : DecideRequestInput) : Tx RefundReservationResult := do
  let canceledAt ← now
  let current ← lockStatus booking.id booking.organizationId
  ensure (S := store) (current = .CONFIRMED)
    (notCancellable s!"A {current.text} booking cannot be cancelled.")
  assertTransition (some current) .CANCELED_BY_CUSTOMER
  discard (updateBooking booking.id (Ending.applyTo {
    status := .CANCELED_BY_CUSTOMER, canceledAt := some canceledAt
    cancellationReason := input.note }))
  recordHistory {
    organizationId := booking.organizationId
    bookingId := booking.id
    fromStatus := some current
    toStatus := .CANCELED_BY_CUSTOMER
    actorType := "OFFICE"
    actorOfficeUserId := some input.officeUserId
    reason := some "cancellation request approved" }
  let target ← ofExcept (paid.minus retained)
  let reserved ← reserveRefund api booking (.CUMULATIVE_TARGET target.amountCents) {
    reason := .CUSTOMER_CANCELLATION
    officeUserId := some input.officeUserId
    mayIssueRefunds := input.mayIssueRefunds }
  recordCanceled booking reserved.refundId [("customerNotificationAlreadyQueued", "true")]
  return reserved

def cancellationRequestNotFound : Failure :=
  .app { code := "NOT_FOUND", message := "Cancellation request not found." }

def requestAlreadyDecided : Failure :=
  .app { code := "REQUEST_ALREADY_DECIDED", message := "This request has already been decided." }

/-- A cancellation request of the organization. -/
def findCancellationRequest (api : Api) (requestId : String) (d : Db) : Option CancellationRequest :=
  findIn CancellationRequest.organizationId api.organizationId requestId d.cancellationRequests

/-- One attempt at a decision, which answers with the booking it ends, if it ends one. -/
def decideCancellationOnce (api : Api) (input : DecideRequestInput) : Tx (Option String) := do
  match ← read (findCancellationRequest api input.requestId) with
  | none => throw cancellationRequestNotFound
  | some target =>
    -- booking first: the order in which a business cancellation takes the two locks
    discard (lockStatus target.bookingId api.organizationId)
    match ← lockRow (fun r => .cancellationRequest r.id)
        (findCancellationRequest api input.requestId) with
    | none => throw cancellationRequestNotFound
    | some locked =>
      ensure (S := store) (locked.decision = .PENDING) requestAlreadyDecided
      let request ← orThrow (← read (findCancellationRequest api input.requestId))
      let booking ← orThrow (← read fun d =>
        findIn Booking.organizationId api.organizationId request.bookingId d.bookings)
      let paid ← paidTotal api booking
      let retained ← ofExcept (validateRetained input request paid)
      let decidedAt ← now
      match input.decision with
      | .REJECTED =>
        updateCancellationRequest request.id (input.decided decidedAt)
        return none
      | .APPROVED =>
        let reserved ← approveCancellation api booking paid retained input
        updateCancellationRequest request.id fun r =>
          { input.decided decidedAt r with
            retainedAmountCents := some retained.amountCents
            refundId := reserved.refundId.or r.refundId }
        return some booking.id

/-- The commit of a decision is the one of an operation that ends a booking, if it ends one. -/
def decisionPoint (request : Lock) (ended : Option String) : Point :=
  match ended with
  | some bookingId => .leaving bookingId (some request) []
  | none => .plain

/-- The office decides an open request. -/
def decideRequest (api : Api) (input : DecideRequestInput) : Tx Unit :=
  discard (withSerializationRetry fun _ =>
    transactionBy (S := store) (decisionPoint (.cancellationRequest input.requestId))
      (decideCancellationOnce api input))

/-- The open cancellation requests of a booking. -/
def openCancellationRequests (bookingId : String) (d : Db) : List String :=
  (d.cancellationRequests.filter fun r =>
    decide (r.bookingId = bookingId ∧ r.decision = .PENDING)).map CancellationRequest.id

/-- The open reschedule requests of a booking. -/
def openRescheduleRequests (bookingId : String) (d : Db) : List String :=
  (d.rescheduleRequests.filter fun r =>
    decide (r.bookingId = bookingId ∧ r.decision = .PENDING)).map RescheduleRequest.id

/-- Closes the requests that a business cancellation has overtaken. -/
def closeOpenRequests (bookingId officeUserId : String) : Tx Unit := do
  let decidedAt ← now
  updateMany .cancellationRequest (openCancellationRequests bookingId) fun ids =>
    Db.onCancellationRequests (Table.update ids fun r =>
      { r with
        decision := .APPROVED, decidedByOfficeUserId := some officeUserId
        decidedAt := some decidedAt, decisionNote := some "closed by business cancellation" })
  updateMany .rescheduleRequest (openRescheduleRequests bookingId) fun ids =>
    Db.onRescheduleRequests (Table.update ids fun r =>
      { r with
        decision := .REJECTED, decidedByOfficeUserId := some officeUserId
        decidedAt := some decidedAt, decisionNote := some "closed by business cancellation" })

structure CancelByBusinessInput where
  bookingId : String
  officeUserId : String
  reason : String
  mayIssueRefunds : Bool
  refundAmountCents : Option Int := none
  deriving DecidableEq, Repr

/-- The refund of a business cancellation, if the office names an amount. -/
def reserveBusinessRefund (api : Api) (booking : Booking) (input : CancelByBusinessInput) :
    Tx (Option String) :=
  match input.refundAmountCents with
  | none => return none
  | some amountCents =>
    RefundReservationResult.refundId <$> reserveRefund api booking (.ADDITIONAL amountCents) {
      reason := .BUSINESS_CANCELLATION
      officeUserId := some input.officeUserId
      mayIssueRefunds := input.mayIssueRefunds
      lenient := decide (amountCents ≤ 0) }

/-- One attempt at a business cancellation. -/
def cancelByBusinessOnce (api : Api) (input : CancelByBusinessInput) : Tx (Option String) := do
  let current ← lockStatus input.bookingId api.organizationId
  ensure (S := store) (current = .CONFIRMED)
    (notCancellable s!"A {current.text} booking cannot be cancelled.")
  let booking ← orThrow (← read fun d =>
    findIn Booking.organizationId api.organizationId input.bookingId d.bookings)
  assertTransition (some current) .CANCELED_BY_BUSINESS
  let canceledAt ← now
  discard (updateBooking input.bookingId (Ending.applyTo {
    status := .CANCELED_BY_BUSINESS, canceledAt := some canceledAt
    cancellationReason := some input.reason
    canceledByOfficeUserId := some input.officeUserId }))
  recordHistory {
    organizationId := booking.organizationId
    bookingId := booking.id
    fromStatus := some current
    toStatus := .CANCELED_BY_BUSINESS
    actorType := "OFFICE"
    actorOfficeUserId := some input.officeUserId
    reason := some input.reason }
  let refundId ← reserveBusinessRefund api booking input
  closeOpenRequests booking.id input.officeUserId
  recordCanceled booking refundId []
  return refundId

def cancelByBusiness (api : Api) (input : CancelByBusinessInput) : Tx (Option String) :=
  withSerializationRetry fun _ => transaction (S := store) .plain (cancelByBusinessOnce api input)

/-- What tells the two ways to close out an appointment apart. -/
structure Attendance where
  toStatus : BookingStatus
  guard : Booking → Int → Option String
  timestamp : Int → Option Int

/-- One attempt at closing out an appointment. -/
def settleAttendanceOnce (api : Api) (bookingId officeUserId : String) (attendance : Attendance) :
    Tx Unit := do
  let instant ← now
  match ← lockRow (fun b => .booking b.id) fun d : Db =>
      findIn Booking.organizationId api.organizationId bookingId d.bookings with
  | none => throw bookingNotFound
  | some current =>
    let booking ← orThrow (← read fun d =>
      findIn Booking.organizationId api.organizationId bookingId d.bookings)
    assertTransition (some current.status) attendance.toStatus
    match attendance.guard booking instant with
    | some refusal => throw (.app {
        code := "INVALID_STATUS_TRANSITION", status := some 422, message := refusal
        details := [("reason", "TIME_GUARD"), ("from", current.status.text),
          ("to", attendance.toStatus.text)] })
    | none =>
      discard (updateBooking bookingId (Ending.applyTo {
        status := attendance.toStatus, completedAt := attendance.timestamp instant }))
      recordHistory {
        organizationId := booking.organizationId
        bookingId
        fromStatus := some current.status
        toStatus := attendance.toStatus
        actorType := "OFFICE"
        actorOfficeUserId := some officeUserId }

/-- `AttendanceService.settle` -/
def settleAttendance (api : Api) (bookingId officeUserId : String) (attendance : Attendance) :
    Tx Unit :=
  withSerializationRetry fun _ => transaction (S := store) (.leaving bookingId none [])
    (settleAttendanceOnce api bookingId officeUserId attendance)

/-- The appointment took place, which it has once it is over. -/
def Attendance.completed : Attendance where
  toStatus := .COMPLETED
  guard booking instant :=
    if booking.endsAt ≤ instant then none else some "This appointment has not finished yet."
  timestamp := some

/-- The customer did not arrive, which is known once the appointment has started. -/
def Attendance.missed : Attendance where
  toStatus := .NO_SHOW
  guard booking instant :=
    if booking.startsAt ≤ instant then none else some "This appointment has not started yet."
  timestamp _ := none

def complete (api : Api) (bookingId officeUserId : String) : Tx Unit :=
  settleAttendance api bookingId officeUserId .completed

def markNoShow (api : Api) (bookingId officeUserId : String) : Tx Unit :=
  settleAttendance api bookingId officeUserId .missed

end BookingApp

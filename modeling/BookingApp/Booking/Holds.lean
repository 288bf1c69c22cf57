import BookingApp.Booking.Status

/-!
# Unpaid holds (`booking-confirmation.service.ts`, `expiry.service.ts`, `booking-checkout.service.ts`)

What becomes of a hold: its checkout session is attached, a payment confirms it,
a failed payment or the expiry saga ends it. Every path locks the row of the
booking and looks at its status again before it writes.
-/

set_option autoImplicit false

namespace BookingApp

open ReadCommitted

/-- `SELECT … WHERE id = … FOR UPDATE` -/
def lockBooking (bookingId : String) : Tx (Option Booking) :=
  lockRow (fun b => .booking b.id) fun d => Table.find bookingId d.bookings

def bookingNotFound : Failure :=
  .app { code := "NOT_FOUND", message := "Booking not found." }

/-- How long a link outlives the appointment. -/
def MANAGEMENT_TOKEN_GRACE_DAYS : Int := 14

/-- `ManagementTokenService.issue` -/
def issueToken (api : Api) (bookingId organizationId : String) (endsAt : Int) : Tx String := do
  let token := (← answer).random
  insert (Db.onTokens (· ++ [{
    organizationId, bookingId
    tokenHash := api.hashManagementToken token
    expiresAt := endsAt + MANAGEMENT_TOKEN_GRACE_DAYS * 86400000 }]))
  return token

/-- The links of a booking that still work. -/
def liveTokens (bookingId : String) (d : Db) : List String :=
  (d.managementTokens.filter fun t => decide (t.bookingId = bookingId ∧ t.revokedAt = none)).map
    ManagementToken.tokenHash

/-- The links of a booking that still work, revoked: the ones it has found. -/
def revokeTokens (bookingId : String) : Tx (List String) := do
  let revokedAt ← now
  modify (S := store) .plain (fun view => (liveTokens bookingId view).map Lock.managementToken)
    (fun view => Db.onTokens
      (Table.update (liveTokens bookingId view) fun t => { t with revokedAt := some revokedAt }))
    (liveTokens bookingId)

/-- `ManagementTokenService.rotate`: the new link, and the ones that were revoked. -/
def rotateToken (api : Api) (oldBookingId newBookingId organizationId : String) (endsAt : Int) :
    Tx (String × List String) := do
  let revoked ← revokeTokens oldBookingId
  let token ← issueToken api newBookingId organizationId endsAt
  return (token, revoked)

inductive ConfirmationKind where
  | WEBHOOK
  | EXPIRY_SAGA
  deriving DecidableEq, Repr

structure ConfirmationCause where
  kind : ConfirmationKind
  reference : String
  deriving DecidableEq, Repr

/-- The reason written into the history. -/
def ConfirmationCause.reason (cause : ConfirmationCause) : String :=
  match cause.kind with
  | .WEBHOOK => s!"WEBHOOK:{cause.reference}"
  | .EXPIRY_SAGA => s!"EXPIRY_SAGA:{cause.reference}"

structure ConfirmPaidInput where
  bookingId : String
  sessionId : String
  stripeAccountId : Option String := none
  paymentIntentId : Option String := none
  chargeId : Option String := none
  amountTotalCents : Int
  paymentMethodType : Option String := none
  paidAt : Int
  cause : ConfirmationCause
  deriving DecidableEq, Repr

inductive ConfirmOutcome where
  | CONFIRMED
  | ALREADY_CONFIRMED
  | PAID_AFTER_TERMINAL
  deriving DecidableEq, Repr

/-- The payment row of a checkout session. -/
def paymentOfSession (sessionId : String) (d : Db) : Option Payment :=
  d.payments.find? fun p => decide (p.stripeCheckoutSessionId = some sessionId)

/-- The columns that a confirmation writes into a payment. -/
def ConfirmPaidInput.paid (input : ConfirmPaidInput) (p : Payment) : Payment :=
  { p with
    status := .SUCCEEDED
    amountCents := input.amountTotalCents
    paidAt := some input.paidAt
    stripePaymentIntentId := input.paymentIntentId.or p.stripePaymentIntentId
    stripeChargeId := input.chargeId.or p.stripeChargeId
    paymentMethodType := input.paymentMethodType.or p.paymentMethodType }

/-- Brings the payment row of the session up to date, or adds it. -/
def upsertPayment (booking : Booking) (input : ConfirmPaidInput) : Tx Unit := do
  let id ← freshId
  let createdAt ← now
  modify (S := store) .plain
    (fun view => ((paymentOfSession input.sessionId view).toList.map fun p => .payment p.id))
    (fun view => match paymentOfSession input.sessionId view with
      | some p => Db.onPayments (Table.update [p.id] input.paid)
      | none => Db.onPayments (· ++ [input.paid {
          id, createdAt
          organizationId := booking.organizationId
          bookingId := booking.id
          stripeCheckoutSessionId := some input.sessionId
          stripeAccountId := input.stripeAccountId
          amountCents := input.amountTotalCents
          currency := booking.currency
          status := .SUCCEEDED }]))
    fun _ => ()

/-- One attempt at a confirmation. An amount that differs from the price is logged only. -/
def confirmOnce (api : Api) (input : ConfirmPaidInput) : Tx ConfirmOutcome := do
  let confirmedAt ← now
  transaction (S := store) (.confirmation input.bookingId input.chargeId) do
    match ← lockBooking input.bookingId with
    | none => throw bookingNotFound
    | some current =>
      if current.status = .CONFIRMED then return .ALREADY_CONFIRMED
      else if isTerminal current.status then return .PAID_AFTER_TERMINAL
      else
        let booking ← orThrow (← read fun d => Table.find input.bookingId d.bookings)
        assertTransition (some current.status) .CONFIRMED
        discard (updateBooking booking.id fun b =>
          { b with
            status := .CONFIRMED, confirmedAt := some confirmedAt, expiresAt := none
            stripeCheckoutSessionId := some input.sessionId })
        upsertPayment booking input
        let managementToken ← issueToken api booking.id booking.organizationId booking.endsAt
        recordHistory {
          organizationId := booking.organizationId
          bookingId := booking.id
          fromStatus := some current.status
          toStatus := .CONFIRMED
          actorType := "SYSTEM"
          reason := some input.cause.reason }
        recordOutbox {
          organizationId := booking.organizationId
          aggregateType := "Booking"
          aggregateId := booking.id
          eventType := .BOOKING_CONFIRMED
          payload := [("organizationId", booking.organizationId), ("bookingId", booking.id),
            ("managementToken", managementToken)] }
        return .CONFIRMED

/-- Moves a paid booking to CONFIRMED. -/
def confirmPaid (api : Api) (input : ConfirmPaidInput) : Tx ConfirmOutcome :=
  withSerializationRetry fun _ => confirmOnce api input

structure MarkPaymentFailedInput where
  bookingId : String
  failureCode : Option String := none
  failureMessage : Option String := none
  cause : ConfirmationCause
  deriving DecidableEq, Repr

/-- The payments of a booking that are still pending. -/
def pendingPayments (bookingId : String) (d : Db) : List String :=
  (d.payments.filter fun p => decide (p.bookingId = bookingId ∧ p.status = .PENDING)).map Payment.id

/-- The columns that a failure writes into a payment. -/
def MarkPaymentFailedInput.failed (input : MarkPaymentFailedInput) (p : Payment) : Payment :=
  { p with
    status := .FAILED
    failureCode := input.failureCode.or p.failureCode
    failureMessage := input.failureMessage.or p.failureMessage }

/-- Records that payment failed. Only a hold that no one has begun to expire can fail. -/
def markPaymentFailed (input : MarkPaymentFailedInput) : Tx Unit :=
  withSerializationRetry fun _ => transaction (S := store) (.failure input.bookingId) do
    match ← lockBooking input.bookingId with
    | none => return ()
    | some current =>
      if current.status ≠ .PENDING_PAYMENT then return ()
      else
        let booking ← orThrow (← read fun d => Table.find input.bookingId d.bookings)
        assertTransition (some current.status) .PAYMENT_FAILED
        discard (updateBooking input.bookingId fun b =>
          { b with status := .PAYMENT_FAILED, expiresAt := none })
        updateMany .payment (pendingPayments input.bookingId) fun ids =>
          Db.onPayments (Table.update ids input.failed)
        recordHistory {
          organizationId := booking.organizationId
          bookingId := input.bookingId
          fromStatus := some current.status
          toStatus := .PAYMENT_FAILED
          actorType := "SYSTEM"
          reason := some input.cause.reason }
        recordOutbox {
          organizationId := booking.organizationId
          aggregateType := "Booking"
          aggregateId := input.bookingId
          eventType := .BOOKING_PAYMENT_FAILED
          payload := [("organizationId", booking.organizationId), ("bookingId", input.bookingId)] }

inductive BeginExpiryOutcome where
  | BEGAN
  | NOT_DUE
  | NOT_APPLICABLE
  deriving DecidableEq, Repr

/-- Claims the expiry of a hold that is due, without releasing its slot. -/
def beginExpiry (bookingId : String) : Tx BeginExpiryOutcome :=
  withSerializationRetry fun _ => do
    let instant ← now
    transaction (S := store) .plain do
      match ← lockBooking bookingId with
      | none => return .NOT_APPLICABLE
      | some current =>
        if current.status ≠ .PENDING_PAYMENT then return .NOT_APPLICABLE
        else if current.expiresAt.all fun due => decide (due > instant) then return .NOT_DUE
        else
          let booking ← orThrow (← read fun d => Table.find bookingId d.bookings)
          assertTransition (some current.status) .EXPIRING
          discard (updateBooking bookingId fun b => { b with status := .EXPIRING })
          recordHistory {
            organizationId := booking.organizationId
            bookingId
            fromStatus := some current.status
            toStatus := .EXPIRING
            actorType := "SYSTEM"
            reason := some "reservation lapsed" }
          recordOutbox {
            organizationId := booking.organizationId
            aggregateType := "Booking"
            aggregateId := bookingId
            eventType := .BOOKING_EXPIRY_REQUESTED
            payload := [("organizationId", booking.organizationId), ("bookingId", bookingId)] }
          return .BEGAN

inductive CompleteExpiryOutcome where
  | EXPIRED
  | CONFIRMED
  | NOT_APPLICABLE
  deriving DecidableEq, Repr

/-- EXPIRING → EXPIRED, releasing the slot. A booking confirmed in the meantime is left alone. The
caller has read that it names `sessionId`. -/
def release (bookingId : String) (sessionId : Option String) (reason : String) :
    Tx CompleteExpiryOutcome := do
  withSerializationRetry fun _ => transaction (S := store) (.release bookingId sessionId) do
    match ← lockBooking bookingId with
    | none => return ()
    | some current =>
      if current.status ≠ .EXPIRING then return ()
      else
        let booking ← orThrow (← read fun d => Table.find bookingId d.bookings)
        assertTransition (some current.status) .EXPIRED
        discard (updateBooking bookingId fun b => { b with status := .EXPIRED, expiresAt := none })
        recordHistory {
          organizationId := booking.organizationId
          bookingId
          fromStatus := some current.status
          toStatus := .EXPIRED
          actorType := "SYSTEM"
          reason := some reason }
  return .EXPIRED

/-- The account a checkout session was opened on. -/
def accountOfSession (sessionId : String) : Tx (Option String) :=
  read fun d => (paymentOfSession sessionId d).bind Payment.stripeAccountId

/-- The customer paid after all. -/
def confirmInstead (api : Api) (bookingId sessionId organizationId : String) :
    Tx CompleteExpiryOutcome := do
  api.require organizationId
  let stripeAccountId ← accountOfSession sessionId
  let choice := (← answer).choice
  let session ← ofExcept (api.payments.retrieveCheckoutSession stripeAccountId sessionId choice)
  let paidAt ← now
  discard (confirmPaid api {
    bookingId, sessionId, stripeAccountId
    paymentIntentId := session.paymentIntentId
    chargeId := session.chargeId
    amountTotalCents := session.amountTotalCents
    paymentMethodType := session.paymentMethodType
    paidAt
    cause := { kind := .EXPIRY_SAGA, reference := sessionId } })
  return .CONFIRMED

/-- Asks the provider whether anyone can still pay, then settles. -/
def completeExpiry (api : Api) (bookingId : String) : Tx CompleteExpiryOutcome := do
  match ← read fun d => Table.find bookingId d.bookings with
  | none => return .NOT_APPLICABLE
  | some booking =>
    if booking.status = .CONFIRMED then return .CONFIRMED
    else if booking.status = .EXPIRED then return .EXPIRED
    else if booking.status ≠ .EXPIRING then return .NOT_APPLICABLE
    else
      match booking.stripeCheckoutSessionId with
      | none => release bookingId none "no checkout session"
      | some sessionId =>
        api.require booking.organizationId
        let stripeAccountId ← accountOfSession sessionId
        match ← callProvider (api.payments.expireCheckoutSession stripeAccountId sessionId) with
        | .EXPIRED => release bookingId sessionId "checkout session expired"
        | .ALREADY_COMPLETE paymentStatus =>
          if paymentStatus = "paid" then
            confirmInstead api bookingId sessionId booking.organizationId
          else release bookingId sessionId s!"session complete but {paymentStatus}"

def internalError (message : String) : Failure :=
  .app { code := "INTERNAL_ERROR", message }

/-- Sets the session of a booking that has none yet. -/
def nameSession (current : Booking) (sessionId : String) : Tx Unit :=
  if current.stripeCheckoutSessionId = none then
    discard (updateBooking current.id fun b => { b with stripeCheckoutSessionId := some sessionId })
  else return ()

/-- `createMany` with `skipDuplicates`: a pending payment, unless the session has one. -/
def openPayment (booking : Booking) (sessionId : String) (stripeAccountId : Option String) :
    Tx Unit := do
  let paymentId ← freshId
  let createdAt ← now
  modify (S := store) .plain (fun _ => [])
    (fun view => if (paymentOfSession sessionId view).isSome then id else Db.onPayments (· ++ [{
      id := paymentId, createdAt, stripeAccountId
      organizationId := booking.organizationId
      bookingId := booking.id
      stripeCheckoutSessionId := some sessionId
      amountCents := booking.priceCentsSnapshot
      currency := booking.currency
      status := .PENDING }]))
    fun _ => ()

/-- Names the session on the booking and opens a pending payment for it. -/
def attach (booking : Booking) (sessionId : String) (stripeAccountId : Option String) : Tx Unit :=
  withSerializationRetry fun _ => transaction (S := store) (.attachment booking.id sessionId) do
    discard (lockBooking booking.id)
    let current ← orThrow (← read fun d => Table.find booking.id d.bookings)
    ensure (S := store)
      (current.stripeCheckoutSessionId = none ∨ current.stripeCheckoutSessionId = some sessionId)
      (internalError "Booking already has another Checkout session.")
    nameSession current sessionId
    openPayment booking sessionId stripeAccountId
    let payment ← orThrow (← read (paymentOfSession sessionId))
    ensure (S := store)
      (payment.bookingId = booking.id ∧ payment.amountCents = booking.priceCentsSnapshot ∧
        payment.currency = booking.currency)
      (internalError "Checkout session is already attached to a different payment.")

end BookingApp

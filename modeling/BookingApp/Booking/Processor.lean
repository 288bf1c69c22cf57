import BookingApp.Booking.Holds
import BookingApp.Payment.Refunds

/-!
# Stored Stripe events (`processors/stripe-event.processor.ts`, `messaging/inbox`)

An event is recorded once and then turned into a decision about a booking. It
becomes processed when that goes through, and stays for a retry when it fails.
-/

set_option autoImplicit false

namespace BookingApp

open ReadCommitted

/-- A string that is there and not empty. -/
def readString (value : Option String) : Option String :=
  value.filter fun text => decide (text ≠ "")

/-- Stripe's `created`, in unix seconds, as an instant. -/
def eventTime (created : Option Int) : Option Int :=
  created.map (· * 1000)

inductive RecordOutcome where
  | RECORDED
  | DUPLICATE
  deriving DecidableEq, Repr

/-- `InboxRecorder.recordStripe` -/
def recordStripe (stripeEventId type : String) (payload : StripeEventObject) : Tx RecordOutcome :=
  tryCatch (transaction (S := store) .plain do
      insert (Db.onEvents (· ++ [{ stripeEventId := stripeEventId, type, payload }]))
      return .RECORDED)
    fun error : Failure =>
      if isUniqueViolation error "stripeEventId" then return .DUPLICATE else throw error

/-- Marks an event handled, unless it is marked already. -/
def markProcessed (stripeEventId : String) : Tx Unit := do
  let instant ← now
  transaction (S := store) .plain
    (updateMany .stripeEvent
      (fun d => (d.stripeWebhookEvents.filter fun e =>
        decide (e.stripeEventId = stripeEventId ∧ e.processedAt = none)).map
          StripeWebhookEvent.stripeEventId)
      fun ids => Db.onEvents (Table.update ids fun e => { e with processedAt := some instant }))

/-- Records a failed attempt, leaving the event unprocessed. -/
def markFailed (stripeEventId : String) (error : Failure) : Tx Unit :=
  transaction (S := store) .plain
    (updateMany .stripeEvent (fun _ => [stripeEventId])
      fun ids => Db.onEvents (Table.update ids fun e =>
        { e with
          attempts := e.attempts + 1
          lastError := some (String.ofList (error.message.toList.take 1000)) }))

/-- The booking an event is about: by its session, then by the reference the session was opened
with. -/
def findBooking (sessionId : String) (clientReferenceId : Option String) : Tx (Option String) := do
  match ← read fun d =>
      d.bookings.find? fun b => decide (b.stripeCheckoutSessionId = some sessionId) with
  | some booking => return some booking.id
  | none =>
    match readString clientReferenceId with
    | none => return none
    | some bookingId => Option.map Booking.id <$> read fun d => Table.find bookingId d.bookings

def resolveBooking (sessionId : String) (clientReferenceId : Option String) : Tx String := do
  match ← findBooking sessionId clientReferenceId with
  | none => throwApp "NOT_FOUND" s!"Paid session {sessionId} matches no booking."
  | some bookingId => return bookingId

/-- Whether an event may speak for this booking's money. -/
def eventIsFromTheBookingsAccount (bookingId sessionId : String) (account : Option String) :
    Tx Bool := do
  match ← read (paymentOfSession sessionId) with
  | some payment => return decide (account = payment.stripeAccountId)
  | none =>
    let organizationAccount ← read fun d =>
      (Table.find bookingId d.bookings).bind fun booking =>
        (Table.find booking.organizationId d.organizations).bind Organization.stripeAccountId
    return decide (account = none ∨ account = organizationAccount)

/-- What a paid session says of its payment. -/
def StripeEventObject.confirmation (object : StripeEventObject)
    (bookingId sessionId eventId : String) (amountTotalCents paidAt : Int) : ConfirmPaidInput where
  bookingId := bookingId
  sessionId := sessionId
  stripeAccountId := readString object.account
  paymentIntentId := readString object.paymentIntent
  chargeId := readString object.latestCharge
  amountTotalCents := amountTotalCents
  paymentMethodType := readString object.paymentMethodType
  paidAt := paidAt
  cause := { kind := .WEBHOOK, reference := eventId }

/-- Confirms, but only on evidence of payment. A payment after the end is logged only. -/
def confirmIfPaid (api : Api) (object : StripeEventObject) (eventId : String) : Tx Unit := do
  let sessionId ← match readString object.id with
    | none => throw (internalError "Session event carries no session id.")
    | some sessionId => pure sessionId
  if object.paymentStatus ≠ some "paid" then return ()
  else
    let amountTotalCents ← match object.amountTotal with
      | none => throw (internalError s!"Paid session {sessionId} carries no amount_total.")
      | some amountTotal => pure amountTotal
    let bookingId ← resolveBooking sessionId object.clientReferenceId
    if ← eventIsFromTheBookingsAccount bookingId sessionId (readString object.account) then
      let instant ← now
      discard (confirmPaid api (object.confirmation bookingId sessionId eventId amountTotalCents
        ((eventTime object.created).getD instant)))
    else return ()

/-- What a failed session or intent says of its booking. -/
def StripeEventObject.failure (object : StripeEventObject) (bookingId eventId : String) :
    MarkPaymentFailedInput where
  bookingId := bookingId
  failureCode := readString object.lastPaymentErrorCode
  failureMessage := readString object.lastPaymentErrorMessage
  cause := { kind := .WEBHOOK, reference := eventId }

def failSession (object : StripeEventObject) (eventId : String) : Tx Unit :=
  match readString object.id with
  | none => return ()
  | some sessionId => do
    match ← findBooking sessionId object.clientReferenceId with
    | none => return ()
    | some bookingId => markPaymentFailed (object.failure bookingId eventId)

/-- Fails the booking behind a PaymentIntent, which is found through its payment. -/
def failByPaymentIntent (object : StripeEventObject) (eventId : String) : Tx Unit :=
  match readString object.id with
  | none => return ()
  | some paymentIntentId => do
    let payment ← read fun d =>
      d.payments.find? fun p => decide (p.stripePaymentIntentId = some paymentIntentId)
    match (payment.map Payment.bookingId).or (readString object.clientReferenceId) with
    | none => return ()
    | some bookingId => markPaymentFailed (object.failure bookingId eventId)

/-- What an event asks for. -/
inductive StripeEventKind where
  | REFUND
  | PAID
  | FAILED
  | INTENT_FAILED
  | OTHER
  deriving DecidableEq, Repr

/-- The types that are acted on. An account update writes columns that are not modelled. -/
def stripeEventKind (type : String) : StripeEventKind :=
  if type ∈ ["refund.created", "refund.updated", "refund.failed"] then .REFUND
  else if type ∈ ["checkout.session.completed", "checkout.session.async_payment_succeeded"] then .PAID
  else if type ∈ ["checkout.session.expired", "checkout.session.async_payment_failed"] then .FAILED
  else if type = "payment_intent.payment_failed" then .INTENT_FAILED
  else .OTHER

/-- The refund that an event carries. -/
def StripeEventObject.refund (object : StripeEventObject) : RefundObject where
  id := readString object.id
  status := object.status.getD ""
  metadataIdempotencyKey := readString object.metadataIdempotencyKey

def dispatch (api : Api) (type : String) (object : StripeEventObject) (eventId : String) : Tx Unit :=
  match stripeEventKind type with
  | .REFUND => handleRefund object.refund
  | .PAID => confirmIfPaid api object eventId
  | .FAILED => failSession object eventId
  | .INTENT_FAILED => failByPaymentIntent object eventId
  | .OTHER => return ()

/-- `StripeEventProcessor.handle` -/
def handleStripeEvent (api : Api) (stripeEventId : String) : Tx Unit := do
  match ← read fun d => Table.find stripeEventId d.stripeWebhookEvents with
  | none => return ()
  | some event =>
    if event.processedAt ≠ none then return ()
    else
      tryCatch (do
          dispatch api event.type event.payload stripeEventId
          markProcessed stripeEventId)
        fun error : Failure => do
          markFailed stripeEventId error
          throw error

end BookingApp

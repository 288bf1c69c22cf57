import BookingApp.Store.Session
import BookingApp.ReadCommitted.Alone
import Mathlib.Data.List.Sort

/-!
# Refunds (`payment/refund.service.ts`, `payment/refund-webhook.handler.ts`)

A refund is reserved against a payment, submitted to the provider outside every
transaction, and settled by whoever hears of its outcome first.
-/

set_option autoImplicit false

namespace BookingApp

open ReadCommitted

/-- What "refund this" means: so much more now, or so much in total. -/
inductive RefundAmount where
  | ADDITIONAL (amountCents : Int)
  | CUMULATIVE_TARGET (targetAmountCents : Int)
  deriving DecidableEq, Repr

structure ReserveRefundInput where
  bookingId : String
  amount : RefundAmount
  reason : RefundReason
  officeUserId : Option String := none
  lenient : Bool := false
  deriving DecidableEq, Repr

structure RefundReservationResult where
  refundId : Option String
  additionalAmountCents : Int
  refundableAmountCents : Int
  deriving DecidableEq, Repr

/-- The booking the money is on. -/
def rootBookingId (api : Api) (bookingId : String) : Tx String := do
  match ← read fun d => findIn Booking.organizationId api.organizationId bookingId d.bookings with
  | none => throwApp "NOT_FOUND" "Booking not found."
  | some booking => return booking.financialRootBookingId.getD booking.id

theorem runAlone_rootBookingId {api : Api} {bookingId : String} {booking : Booking} {s : Alone store}
    (h : findIn Booking.organizationId api.organizationId bookingId s.view.bookings = some booking) :
    (rootBookingId api bookingId).runAlone s = (.ok (booking.financialRootBookingId.getD booking.id), s) := by
  unfold rootBookingId
  rw [Code.runAlone_bind]
  simp only [read, Code.runAlone_select, h]
  rfl

/-- The row condition of `lockPayment`. -/
def Payment.settledFor (p : Payment) (bookingId : String) : Bool :=
  decide (p.bookingId = bookingId) &&
    (decide (p.status = .SUCCEEDED) || decide (p.status = .PARTIALLY_REFUNDED))

/-- The rows `lockPayment` finds, the oldest first. -/
def settledPayments (bookingId : String) (d : Db) : List String :=
  ((d.payments.filter fun p => p.settledFor bookingId).insertionSort
    fun p q => p.createdAt ≤ q.createdAt).map Payment.id

/-- `LIMIT 1 FOR UPDATE` over the rows found: the first one that still satisfies the condition
once its lock is held. -/
def lockFirst (bookingId : String) : List String → Tx (Option String)
  | [] => return none
  | id :: rest => do
    let current ← readForUpdate (fun _ => [.payment id]) fun d => Table.find id d.payments
    if current.any fun p => p.settledFor bookingId then return some id
    else lockFirst bookingId rest

/-- The payment behind a booking, locked. -/
def lockPayment (bookingId : String) (lenient : Bool) : Tx (Option Payment) := do
  match ← lockFirst bookingId (← read (settledPayments bookingId)) with
  | none =>
    if lenient then return none
    else throwApp "PAYMENT_NOT_REFUNDABLE" "This booking has no settled payment to refund."
  | some id => some <$> (orThrow (← read fun d => Table.find id d.payments))

/-- The refunds of a payment in one status, added up. -/
def refundTotal (paymentId : String) (status : RefundStatus) (refunds : List Refund) : Int :=
  Table.total (fun r => decide (r.paymentId = paymentId) && decide (r.status = status))
    Refund.amountCents refunds

/-- How much a reservation moves. -/
def additionalFor (amount : RefundAmount) (reserved refundable : Money) : Except Failure Money :=
  match amount with
  | .ADDITIONAL amountCents => Money.fromCents amountCents refundable.currency
  | .CUMULATIVE_TARGET targetAmountCents => do
    let outstanding ← (← Money.fromCents targetAmountCents reserved.currency).minus reserved
    if outstanding.amountCents ≤ 0 then return Money.zero refundable.currency
    else return if ← outstanding.lessThan refundable then outstanding else refundable

def notRefundable (refundableCents : Int) : Failure :=
  .app {
    code := "PAYMENT_NOT_REFUNDABLE"
    message := s!"Only {refundableCents} cents remain refundable on this booking."
    details := [("refundableAmountCents", toString refundableCents)] }

/-- What a reservation comes to, given the payment and the refunds pending on it: the cents it
moves, if any, and the cents that were left. -/
def reservationFor (input : ReserveRefundInput) (payment : Payment) (pendingCents : Int) :
    Except Failure (Option Int × Int) := do
  let reserved ← (← Money.fromCents payment.refundedAmountCents payment.currency).plus
    (← Money.fromCents pendingCents payment.currency)
  let refundable ← (← Money.fromCents payment.amountCents payment.currency).minus reserved
  let additional ← additionalFor input.amount reserved refundable
  if additional.amountCents ≤ 0 then
    match input.amount, input.lenient with
    | .ADDITIONAL _, false => throw (notRefundable refundable.amountCents)
    | _, _ => return (none, refundable.amountCents)
  else if additional.amountCents > refundable.amountCents then
    throw (notRefundable refundable.amountCents)
  else return (some additional.amountCents, refundable.amountCents)

/-- Reserves part of a payment's remaining balance, inside the caller's transaction. -/
def reserveInTransaction (api : Api) (input : ReserveRefundInput) : Tx RefundReservationResult := do
  let root ← rootBookingId api input.bookingId
  match ← lockPayment root input.lenient with
  | none => return { refundId := none, additionalAmountCents := 0, refundableAmountCents := 0 }
  | some payment =>
    let pendingCents ← read fun d => refundTotal payment.id .PENDING d.refunds
    match ← ofExcept (reservationFor input payment pendingCents) with
    | (none, refundableCents) =>
      return {
        refundId := none, additionalAmountCents := 0, refundableAmountCents := refundableCents }
    | (some additionalCents, refundableCents) =>
      let idempotencyKey := (← answer).random
      let id ← freshId
      let refund : Refund := {
        id, idempotencyKey
        organizationId := payment.organizationId
        bookingId := input.bookingId
        paymentId := payment.id
        amountCents := additionalCents
        currency := payment.currency
        status := .PENDING
        reason := input.reason
        issuedByOfficeUserId := input.officeUserId }
      insert (Db.onRefunds (· ++ [refund]))
      recordOutbox {
        organizationId := payment.organizationId
        aggregateType := "Refund"
        aggregateId := id
        eventType := .REFUND_REQUESTED
        payload := [("organizationId", payment.organizationId), ("refundId", id)] }
      return {
        refundId := some id, additionalAmountCents := additionalCents
        refundableAmountCents := refundableCents }

structure RequestRefundInput where
  bookingId : String
  amountCents : Int
  reason : RefundReason
  officeUserId : Option String := none
  deriving DecidableEq, Repr

/-- Records the intention to refund. -/
def requestRefund (api : Api) (input : RequestRefundInput) : Tx String :=
  withSerializationRetry fun _ => transaction (S := store) .plain do
    let reserved ← reserveInTransaction api {
      bookingId := input.bookingId, amount := .ADDITIONAL input.amountCents
      reason := input.reason, officeUserId := input.officeUserId }
    match reserved.refundId with
    | none => throwApp "PAYMENT_NOT_REFUNDABLE" "There is nothing left to refund on this booking."
    | some id => return id

/-- What the payment's status becomes once `refundedCents` has been recomputed. -/
def paymentStatusFor (amountCents refundedCents : Int) (current : PaymentStatus) : PaymentStatus :=
  if refundedCents ≤ 0 then if current = .FAILED then current else .SUCCEEDED
  else if refundedCents ≥ amountCents then .REFUNDED else .PARTIALLY_REFUNDED

/-- Recomputes the refunded total of a payment from the refunds themselves. -/
def recomputePaymentTotals (site : Site) (paymentId : String) : Tx Unit := do
  let payment ← orThrow
    (← select (S := store) (.settlement site) fun d : Db => Table.find paymentId d.payments)
  let refunded ← select (S := store) (.settlement site) fun d : Db =>
    refundTotal paymentId .SUCCEEDED d.refunds
  discard (updatePaymentAt (.totals site paymentId) paymentId fun p =>
    { p with
      refundedAmountCents := refunded
      status := paymentStatusFor payment.amountCents refunded payment.status })

structure SettlementInput where
  refundId : String
  status : RefundStatus
  stripeRefundId : Option String := none
  failureReason : Option String := none
  deriving DecidableEq, Repr

/-- The columns a settlement writes. -/
def SettlementInput.applyTo (input : SettlementInput) (settledAt : Option Int) (r : Refund) :
    Refund :=
  { r with
    status := input.status
    stripeRefundId := input.stripeRefundId.or r.stripeRefundId
    failureReason :=
      (input.failureReason.map fun text => String.ofList (text.toList.take 1000)).or r.failureReason
    settledAt := settledAt.or r.settledAt }

/-- The instant a refund settles with this status, if it does. -/
def settlementTime (status : RefundStatus) : Tx (Option Int) :=
  if status = .PENDING then pure none else some <$> now

/-- One attempt at a settlement: nothing, if the refund has settled already. -/
def settleOnce (site : Site) (input : SettlementInput) : Tx Unit := do
  let current ← selectForUpdate (S := store) (.settlement site) (fun _ => [.refund input.refundId])
    fun d : Db => Table.find input.refundId d.refunds
  match current with
  | none => return ()
  | some current =>
    if current.status ≠ .PENDING then return ()
    else
      let settledAt ← settlementTime input.status
      let row ← modify (S := store) (.settlement site) (fun _ => [.refund input.refundId])
        (fun _ => Db.onRefunds (Table.update [input.refundId] (input.applyTo settledAt)))
        fun d : Db => Table.find input.refundId d.refunds
      let refund ← orThrow row
      recomputePaymentTotals site refund.paymentId
      if input.status = .SUCCEEDED then
        recordOutboxAt (.settlement site) {
          organizationId := refund.organizationId
          aggregateType := "Refund"
          aggregateId := refund.id
          eventType := .REFUND_SUCCEEDED
          payload := [("organizationId", refund.organizationId), ("refundId", refund.id)] }

/-- The one place where a refund's outcome is written. -/
def applySettlement (site : Nat → Site) (input : SettlementInput) : Tx Unit :=
  withSerializationRetry fun left =>
    transaction (S := store) (.settlement (site left)) (settleOnce (site left) input)

/-- A settlement by a caller that was told of the outcome. -/
def settleReported : SettlementInput → Tx Unit :=
  applySettlement fun _ => .reported

/-- `PROVIDER_STATUS` -/
def RefundStatusValue.toRefundStatus : RefundStatusValue → RefundStatus
  | succeeded => .SUCCEEDED
  | pending => .PENDING
  | failed => .FAILED
  | canceled => .CANCELED

/-- The call of the provider. It is outside every transaction. -/
def createRefund (api : Api) (input : CreateRefundInput) : Tx RefundResult := do
  let choice := (← answer).choice
  let before : Db ← Code.call (S := store)
    (Db.onProvider fun state => (api.payments.createRefund input choice state).1) .ret
  ofExcept (api.payments.createRefund input choice before.provider).2

inductive ExecuteOutcome where
  | SUCCEEDED
  | FAILED
  deriving DecidableEq, Repr

/-- Asks the provider to move the money, then records what happened. A failure taken to be
transient is rethrown, so that the job runs again; any other is recorded as a rejection. -/
def submitRefund (api : Api) (refund : Refund) (stripeAccountId : Option String)
    (chargeId : String) : Tx ExecuteOutcome :=
  tryCatch (do
    let amount ← ofExcept (Money.fromCents refund.amountCents refund.currency)
    let result ← createRefund api {
      organizationId := api.organizationId, stripeAccountId, chargeId, amount
      idempotencyKey := refund.idempotencyKey }
    applySettlement .accepted {
      refundId := refund.id, status := result.status.toRefundStatus
      stripeRefundId := some result.refundId }
    return if result.status = .succeeded then .SUCCEEDED else .FAILED)
  fun error : Failure =>
    if isRetryableStripeError error then throw error
    else do
      settleReported { refundId := refund.id, status := .FAILED, failureReason := some error.message }
      return .FAILED

/-- `RefundService.execute` -/
def executeRefund (api : Api) (refundId : String) : Tx ExecuteOutcome := do
  let row ← read fun d => (Table.find refundId d.refunds).map fun refund =>
    (refund, Table.find refund.paymentId d.payments)
  match row with
  | none => throwApp "NOT_FOUND" "Refund not found."
  | some (refund, payment) =>
    if refund.status ≠ .PENDING then
      return if refund.status = .SUCCEEDED then .SUCCEEDED else .FAILED
    else
      match payment.bind Payment.stripeChargeId with
      | none =>
        settleReported {
          refundId := refund.id, status := .FAILED
          failureReason := some "The payment has no charge to refund against." }
        return .FAILED
      | some chargeId =>
        api.require refund.organizationId
        submitRefund api refund (payment.bind Payment.stripeAccountId) chargeId

structure ProviderUpdate where
  stripeRefundId : String
  idempotencyKey : Option String
  status : RefundStatusValue
  deriving DecidableEq, Repr

/-- Whether an update is about this refund. -/
def ProviderUpdate.concerns (input : ProviderUpdate) (r : Refund) : Bool :=
  decide (r.stripeRefundId = some input.stripeRefundId) ||
    input.idempotencyKey.any fun key => decide (r.idempotencyKey = key)

/-- Applies what a webhook says about a refund. -/
def applyProviderUpdate (input : ProviderUpdate) : Tx Unit := do
  match ← read fun d => d.refunds.find? input.concerns with
  | none => return ()
  | some refund =>
    settleReported {
      refundId := refund.id, status := input.status.toRefundStatus
      stripeRefundId := some input.stripeRefundId }

/-- The fields read of a refund object. -/
structure RefundObject where
  id : Option String
  status : String
  metadataIdempotencyKey : Option String
  deriving DecidableEq, Repr

/-- A status that is not recognised counts as pending. -/
def normaliseStatus (value : String) : RefundStatusValue :=
  if value = "succeeded" then .succeeded
  else if value = "failed" then .failed
  else if value = "canceled" then .canceled
  else .pending

/-- `RefundWebhookHandler.handle` -/
def handleRefund (object : RefundObject) : Tx Unit :=
  match object.id with
  | none => return ()
  | some stripeRefundId => applyProviderUpdate {
      stripeRefundId, idempotencyKey := object.metadataIdempotencyKey
      status := normaliseStatus object.status }

/-- One more status reported for the refund `id`. -/
def ProviderState.report (id : String) (status : RefundStatusValue) (s : ProviderState) :
    ProviderState :=
  { s with
    refunds := Table.update [id] (fun r => { r with reported := r.reported ++ [status] }) s.refunds }

/-- The provider reports a status of one of its refunds, in an event that reaches the handler. The
key in its metadata is the one the refund was created with. -/
def refundEvent (stripeRefundId status : String) : Tx Unit := do
  let before : Db ← Code.call (S := store)
    (Db.onProvider (ProviderState.report stripeRefundId (normaliseStatus status))) .ret
  match Table.find stripeRefundId before.provider.refunds with
  | none => return ()
  | some refund => handleRefund {
      id := some refund.id, status, metadataIdempotencyKey := refund.idempotencyKey }

end BookingApp

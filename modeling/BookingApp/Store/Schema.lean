import BookingApp.Domain.Engine
import BookingApp.Errors
import BookingApp.Table
import BookingApp.Money
import Mathlib.Tactic.Simps.Basic

/-!
# The schema (`prisma/schema.prisma` and the migrations)

The tables the booking services read and write, with the columns they use, and
the constraints that the database checks (`Legal`). Ids are strings, instants
milliseconds, and dates days, as in the availability engine.
-/

set_option autoImplicit false

namespace BookingApp

inductive BookingOrigin where
  | ONLINE
  | OFFICE
  deriving DecidableEq, Repr

inductive BookingStatus where
  | PENDING_PAYMENT
  | EXPIRING
  | EXPIRED
  | CONFIRMED
  | PAYMENT_FAILED
  | CANCELED_BY_CUSTOMER
  | CANCELED_BY_BUSINESS
  | COMPLETED
  | NO_SHOW
  deriving DecidableEq, Repr

inductive PaymentStatus where
  | PENDING
  | SUCCEEDED
  | FAILED
  | REFUNDED
  | PARTIALLY_REFUNDED
  deriving DecidableEq, Repr

inductive RefundStatus where
  | PENDING
  | SUCCEEDED
  | FAILED
  | CANCELED
  deriving DecidableEq, Repr

inductive RefundReason where
  | CUSTOMER_CANCELLATION
  | BUSINESS_CANCELLATION
  | GOODWILL
  | DUPLICATE_PAYMENT
  deriving DecidableEq, Repr

inductive RequestDecision where
  | PENDING
  | APPROVED
  | REJECTED
  deriving DecidableEq, Repr

inductive TimeOffStatus where
  | REQUESTED
  | APPROVED
  | REJECTED
  deriving DecidableEq, Repr

inductive Locale where
  | de
  | en
  deriving DecidableEq, Repr

/-- The jobs that the modelled services record in the outbox. -/
inductive JobName where
  | BOOKING_CONFIRMED
  | BOOKING_CANCELED
  | BOOKING_RESCHEDULED
  | BOOKING_PAYMENT_FAILED
  | BOOKING_EXPIRY_REQUESTED
  | REMINDER_SCHEDULE
  | REFUND_REQUESTED
  | REFUND_SUCCEEDED
  | NOTIFICATION_SEND
  deriving DecidableEq, Repr

/-- The centre of the system: an unpaid hold, an appointment, or what became of one. -/
structure Booking where
  id : String
  organizationId : String
  reference : String
  origin : BookingOrigin
  customerId : String
  employeeId : String
  serviceId : String
  startsAt : Int
  endsAt : Int
  blockStartsAt : Int
  blockEndsAt : Int
  serviceNameSnapshot : String
  durationMinutesSnapshot : Int
  prepBufferMinutesSnapshot : Int
  cleanupBufferMinutesSnapshot : Int
  priceCentsSnapshot : Int
  currency : String
  status : BookingStatus
  expiresAt : Option Int := none
  confirmedAt : Option Int := none
  canceledAt : Option Int := none
  completedAt : Option Int := none
  stripeCheckoutSessionId : Option String := none
  idempotencyKeyId : Option String := none
  customerNote : Option String := none
  locale : Locale
  rescheduledFromBookingId : Option String := none
  financialRootBookingId : Option String := none
  createdByOfficeUserId : Option String := none
  canceledByOfficeUserId : Option String := none
  cancellationReason : Option String := none
  deriving DecidableEq, Repr

/-- The append-only transition log, one row for each status change. -/
structure BookingStatusHistory where
  organizationId : String
  bookingId : String
  fromStatus : Option BookingStatus
  toStatus : BookingStatus
  actorType : String
  actorOfficeUserId : Option String := none
  reason : Option String := none
  deriving DecidableEq, Repr

structure ManagementToken where
  organizationId : String
  bookingId : String
  tokenHash : String
  expiresAt : Int
  revokedAt : Option Int := none
  deriving DecidableEq, Repr

inductive NotificationChannel where
  | EMAIL
  | SMS
  deriving DecidableEq, Repr

/-- A reminder of an appointment, which carries a link to it. The other kinds are not modelled. -/
structure Notification where
  id : String
  organizationId : String
  bookingId : String
  channel : NotificationChannel
  dedupeKey : String
  managementToken : String
  deriving DecidableEq, Repr

structure Payment where
  id : String
  organizationId : String
  bookingId : String
  stripePaymentIntentId : Option String := none
  stripeCheckoutSessionId : Option String := none
  stripeChargeId : Option String := none
  stripeAccountId : Option String := none
  amountCents : Int
  currency : String
  status : PaymentStatus
  paymentMethodType : Option String := none
  refundedAmountCents : Int := 0
  failureCode : Option String := none
  failureMessage : Option String := none
  paidAt : Option Int := none
  createdAt : Int
  deriving DecidableEq, Repr

structure ManualPayment where
  bookingId : String
  amountCents : Int
  currency : String
  deriving DecidableEq, Repr

structure Refund where
  id : String
  organizationId : String
  bookingId : String
  paymentId : String
  stripeRefundId : Option String := none
  amountCents : Int
  currency : String
  status : RefundStatus
  reason : RefundReason
  idempotencyKey : String
  issuedByOfficeUserId : Option String := none
  failureReason : Option String := none
  settledAt : Option Int := none
  deriving DecidableEq, Repr

structure CancellationRequest where
  id : String
  organizationId : String
  bookingId : String
  reason : Option String := none
  decision : RequestDecision := .PENDING
  decidedByOfficeUserId : Option String := none
  decidedAt : Option Int := none
  decisionNote : Option String := none
  suggestedRetainedAmountCents : Int
  retainedAmountCents : Option Int := none
  refundId : Option String := none
  deriving DecidableEq, Repr

structure RescheduleRequest where
  id : String
  organizationId : String
  bookingId : String
  requestedStartsAt : Int
  requestedEmployeeId : Option String := none
  reason : Option String := none
  decision : RequestDecision := .PENDING
  decidedByOfficeUserId : Option String := none
  decidedAt : Option Int := none
  decisionNote : Option String := none
  resultingBookingId : Option String := none
  deriving DecidableEq, Repr

structure OutboxEvent where
  organizationId : String
  aggregateType : String
  aggregateId : String
  eventType : JobName
  payload : List (String × String)
  availableAt : Option Int := none
  deriving DecidableEq, Repr

structure Employee where
  id : String
  organizationId : String
  displayName : String
  displayOrder : Int
  isBookableOnline : Bool
  archivedAt : Option Int := none
  deriving DecidableEq, Repr

structure Service where
  id : String
  organizationId : String
  name : String
  durationMinutes : Int
  prepBufferMinutes : Int
  cleanupBufferMinutes : Int
  priceCents : Int
  currency : String
  isBookableOnline : Bool
  archivedAt : Option Int := none
  deriving DecidableEq, Repr

structure EmployeeService where
  organizationId : String
  employeeId : String
  serviceId : String
  priceOverrideCents : Option Int := none
  deriving DecidableEq, Repr

structure WorkingHours where
  organizationId : String
  employeeId : String
  hours : WorkingHoursSnapshot
  deriving DecidableEq, Repr

structure AvailabilityException where
  organizationId : String
  employeeId : String
  exception : AvailabilityExceptionSnapshot
  deriving DecidableEq, Repr

/-- Both dates are days the employee is away. -/
structure TimeOff where
  id : String
  organizationId : String
  employeeId : String
  startDate : Int
  endDate : Int
  status : TimeOffStatus
  reason : Option String := none
  decidedByOfficeUserId : Option String := none
  decidedAt : Option Int := none
  deriving DecidableEq, Repr

structure ClosedDay where
  organizationId : String
  date : Int
  deriving DecidableEq, Repr

structure BlockedTime where
  id : String
  organizationId : String
  employeeId : String
  startsAt : Int
  endsAt : Int
  reason : Option String := none
  createdByOfficeUserId : String
  deriving DecidableEq, Repr

inductive IdempotencyState where
  | IN_PROGRESS
  | COMPLETED
  deriving DecidableEq, Repr

structure IdempotencyKey where
  id : String
  key : String
  organizationId : Option String := none
  scope : String
  requestHash : String := ""
  responseSnapshot : Option String := none
  statusCode : Option Nat := none
  bookingId : Option String := none
  state : IdempotencyState := .IN_PROGRESS
  expiresAt : Int := 0
  deriving DecidableEq, Repr

/-- What happens to the attempts at idempotency keys, and what their clients are told: no table,
but what one sees who watches them all. An attempt is called by the place of its beginning among
these notes. A completion names the scope and the hash of the row it was stored in, if it was. -/
inductive AttemptEvent where
  | begun (key scope requestHash : String)
  | granted (attempt : Nat) (key scope requestHash : String) (time expiresAt : Int)
  | completed (attempt : Nat) (key : String) (statusCode : Nat) (body : String)
      (stored : Option (String × String))
  | abandoned (attempt : Nat) (key : String)
  | recorded (attempt : Nat) (key : String)
  | replayed (key scope requestHash : String) (statusCode : Nat) (body : String)
  | retired (key : String)
  deriving DecidableEq, Repr

/-- What the processor reads of a stored Stripe event. -/
structure StripeEventObject where
  created : Option Int := none
  account : Option String := none
  id : Option String := none
  clientReferenceId : Option String := none
  paymentStatus : Option String := none
  amountTotal : Option Int := none
  paymentIntent : Option String := none
  latestCharge : Option String := none
  lastPaymentErrorCode : Option String := none
  lastPaymentErrorMessage : Option String := none
  paymentMethodType : Option String := none
  status : Option String := none
  metadataIdempotencyKey : Option String := none
  deriving DecidableEq, Repr

structure StripeWebhookEvent where
  stripeEventId : String
  type : String
  payload : StripeEventObject
  processedAt : Option Int := none
  attempts : Nat := 0
  lastError : Option String := none
  deriving DecidableEq, Repr

structure Organization where
  id : String
  stripeAccountId : Option String := none
  deriving DecidableEq, Repr

inductive RefundStatusValue where
  | succeeded
  | pending
  | failed
  | canceled
  deriving DecidableEq, Repr

/-- A refund at the provider, with every status the provider has reported for it. -/
structure ProviderRefund where
  id : String
  idempotencyKey : Option String
  reported : List RefundStatusValue
  deriving DecidableEq, Repr

/-- A checkout session at the provider. It is payable until it is paid or expired. -/
structure ProviderSession where
  id : String
  idempotencyKey : Option String
  payable : Bool
  deriving DecidableEq, Repr

/-- What the provider remembers: of refunds the ones it accepted, and the keys of the requests it
refused; and the checkout sessions. It is no table of the database; calls change it at once. -/
structure ProviderState where
  refunds : List ProviderRefund := []
  refused : List String := []
  sessions : List ProviderSession := []
  deriving DecidableEq, Repr

instance : Keyed Booking String := ⟨Booking.id⟩
instance : Keyed Payment String := ⟨Payment.id⟩
instance : Keyed Refund String := ⟨Refund.id⟩
instance : Keyed CancellationRequest String := ⟨CancellationRequest.id⟩
instance : Keyed RescheduleRequest String := ⟨RescheduleRequest.id⟩
instance : Keyed Employee String := ⟨Employee.id⟩
instance : Keyed Service String := ⟨Service.id⟩
instance : Keyed BlockedTime String := ⟨BlockedTime.id⟩
instance : Keyed TimeOff String := ⟨TimeOff.id⟩
instance : Keyed IdempotencyKey String := ⟨IdempotencyKey.id⟩
instance : Keyed StripeWebhookEvent String := ⟨StripeWebhookEvent.stripeEventId⟩
instance : Keyed ManagementToken String := ⟨ManagementToken.tokenHash⟩
instance : Keyed Organization String := ⟨Organization.id⟩
instance : Keyed ProviderRefund String := ⟨ProviderRefund.id⟩
instance : Keyed ProviderSession String := ⟨ProviderSession.id⟩

/-- The tables, what the provider remembers, the clock, what was noted of the attempts, and the
bookings with the checkout sessions whose links clients were given for them. -/
structure Db where
  bookings : List Booking := []
  bookingStatusHistory : List BookingStatusHistory := []
  managementTokens : List ManagementToken := []
  notifications : List Notification := []
  payments : List Payment := []
  manualPayments : List ManualPayment := []
  refunds : List Refund := []
  cancellationRequests : List CancellationRequest := []
  rescheduleRequests : List RescheduleRequest := []
  outboxEvents : List OutboxEvent := []
  organizations : List Organization := []
  employees : List Employee := []
  services : List Service := []
  employeeServices : List EmployeeService := []
  workingHours : List WorkingHours := []
  availabilityExceptions : List AvailabilityException := []
  timeOff : List TimeOff := []
  closedDays : List ClosedDay := []
  blockedTimes : List BlockedTime := []
  idempotencyKeys : List IdempotencyKey := []
  stripeWebhookEvents : List StripeWebhookEvent := []
  provider : ProviderState := {}
  clock : Int := 0
  attempts : List AttemptEvent := []
  checkouts : List (String × String) := []

namespace Db

/-! The tables that the services write, one at a time. -/

@[simps] def onBookings (f : List Booking → List Booking) (d : Db) : Db :=
  { d with bookings := f d.bookings }

@[simps] def onHistory (f : List BookingStatusHistory → List BookingStatusHistory) (d : Db) : Db :=
  { d with bookingStatusHistory := f d.bookingStatusHistory }

@[simps] def onTokens (f : List ManagementToken → List ManagementToken) (d : Db) : Db :=
  { d with managementTokens := f d.managementTokens }

@[simps] def onNotifications (f : List Notification → List Notification) (d : Db) : Db :=
  { d with notifications := f d.notifications }

@[simps] def onPayments (f : List Payment → List Payment) (d : Db) : Db :=
  { d with payments := f d.payments }

@[simps] def onRefunds (f : List Refund → List Refund) (d : Db) : Db :=
  { d with refunds := f d.refunds }

@[simps] def onCancellationRequests (f : List CancellationRequest → List CancellationRequest) (d : Db) : Db :=
  { d with cancellationRequests := f d.cancellationRequests }

@[simps] def onRescheduleRequests (f : List RescheduleRequest → List RescheduleRequest) (d : Db) : Db :=
  { d with rescheduleRequests := f d.rescheduleRequests }

@[simps] def onOutbox (f : List OutboxEvent → List OutboxEvent) (d : Db) : Db :=
  { d with outboxEvents := f d.outboxEvents }

@[simps] def onBlockedTimes (f : List BlockedTime → List BlockedTime) (d : Db) : Db :=
  { d with blockedTimes := f d.blockedTimes }

@[simps] def onTimeOff (f : List TimeOff → List TimeOff) (d : Db) : Db :=
  { d with timeOff := f d.timeOff }

@[simps] def onIdempotencyKeys (f : List IdempotencyKey → List IdempotencyKey) (d : Db) : Db :=
  { d with idempotencyKeys := f d.idempotencyKeys }

@[simps] def onEvents (f : List StripeWebhookEvent → List StripeWebhookEvent) (d : Db) : Db :=
  { d with stripeWebhookEvents := f d.stripeWebhookEvents }

@[simps] def onManualPayments (f : List ManualPayment → List ManualPayment) (d : Db) : Db :=
  { d with manualPayments := f d.manualPayments }

@[simps] def onClock (f : Int → Int) (d : Db) : Db :=
  { d with clock := f d.clock }

/-- What is noted of an attempt, at the time it is. -/
@[simps] def noting (f : Int → List AttemptEvent) (d : Db) : Db :=
  { d with attempts := d.attempts ++ f d.clock }

@[simps] def onCheckouts (f : List (String × String) → List (String × String)) (d : Db) : Db :=
  { d with checkouts := f d.checkouts }

@[simps] def onProvider (f : ProviderState → ProviderState) (d : Db) : Db :=
  { d with provider := f d.provider }

end Db

/-- Statuses that occupy an employee. -/
def BLOCKING_BOOKING_STATUSES : List BookingStatus :=
  [.PENDING_PAYMENT, .EXPIRING, .CONFIRMED]

/-- The block of a booking, buffers included. -/
def Booking.block (b : Booking) : Interval :=
  ⟨b.blockStartsAt, b.blockEndsAt⟩

/-- A booking that occupies its employee. -/
def Booking.Blocks (b : Booking) : Prop :=
  b.status ∈ BLOCKING_BOOKING_STATUSES

instance (b : Booking) : Decidable b.Blocks :=
  inferInstanceAs (Decidable (_ ∈ _))

/-- The span of a blocked time. -/
def BlockedTime.span (t : BlockedTime) : Interval :=
  ⟨t.startsAt, t.endsAt⟩

end BookingApp

import BookingApp.Store.Schema
import Mathlib.Tactic.MkIffOfInductiveProp

/-!
# The constraints of the database

Keys, checks and exclusion constraints, as a property of a committed state that
can be evaluated. A commit that would break one of them fails.
-/

set_option autoImplicit false

namespace BookingApp

open Keyed

/-- `bookings_no_overlap` and the other constraints on bookings. -/
@[mk_iff]
structure BookingsLegal (d : Db) : Prop where
  pkey : (d.bookings.map key).Nodup
  reference : (d.bookings.map fun b => (b.organizationId, b.reference)).Nodup
  checkoutSession : (d.bookings.filterMap Booking.stripeCheckoutSessionId).Nodup
  idempotencyKey : (d.bookings.filterMap Booking.idempotencyKeyId).Nodup
  rescheduledFrom : (d.bookings.filterMap fun b =>
    b.rescheduledFromBookingId.map fun id => (b.organizationId, id)).Nodup
  block_range_check : ∀ b ∈ d.bookings, b.blockStartsAt < b.blockEndsAt
  customer_range_check : ∀ b ∈ d.bookings, b.startsAt < b.endsAt
  expires_at_matches_status : ∀ b ∈ d.bookings,
    b.status ∉ [.PENDING_PAYMENT, .EXPIRING] ∨ b.expiresAt ≠ none
  no_overlap : d.bookings.Pairwise fun a b =>
    ¬ (a.organizationId = b.organizationId ∧ a.employeeId = b.employeeId ∧ a.Blocks ∧ b.Blocks ∧
      a.block.overlaps b.block = true)
  employee_fkey : ∀ b ∈ d.bookings, ∃ e ∈ d.employees,
    e.organizationId = b.organizationId ∧ e.id = b.employeeId
  history_fkey : ∀ h ∈ d.bookingStatusHistory, ∃ b ∈ d.bookings,
    b.organizationId = h.organizationId ∧ b.id = h.bookingId
  token_hash : (d.managementTokens.map key).Nodup
  notification_dedupe : (d.notifications.map Notification.dedupeKey).Nodup

@[mk_iff]
structure PaymentsLegal (d : Db) : Prop where
  pkey : (d.payments.map key).Nodup
  paymentIntent : (d.payments.filterMap Payment.stripePaymentIntentId).Nodup
  checkoutSession : (d.payments.filterMap Payment.stripeCheckoutSessionId).Nodup
  charge : (d.payments.filterMap Payment.stripeChargeId).Nodup
  booking_fkey : ∀ p ∈ d.payments, ∃ b ∈ d.bookings,
    b.organizationId = p.organizationId ∧ b.id = p.bookingId
  amount_check : ∀ p ∈ d.payments, 0 < p.amountCents
  refunded_check : ∀ p ∈ d.payments,
    0 ≤ p.refundedAmountCents ∧ p.refundedAmountCents ≤ p.amountCents
  manual_amount_check : ∀ p ∈ d.manualPayments, p.amountCents ≠ 0

@[mk_iff]
structure RefundsLegal (d : Db) : Prop where
  pkey : (d.refunds.map key).Nodup
  stripeRefund : (d.refunds.filterMap Refund.stripeRefundId).Nodup
  idempotencyKey : (d.refunds.map Refund.idempotencyKey).Nodup
  payment_fkey : ∀ r ∈ d.refunds, ∃ p ∈ d.payments,
    p.organizationId = r.organizationId ∧ p.id = r.paymentId
  booking_fkey : ∀ r ∈ d.refunds, ∃ b ∈ d.bookings,
    b.organizationId = r.organizationId ∧ b.id = r.bookingId
  amount_check : ∀ r ∈ d.refunds, 0 < r.amountCents
  amount_int4 : ∀ r ∈ d.refunds, r.amountCents ≤ 2147483647

@[mk_iff]
structure RequestsLegal (d : Db) : Prop where
  cancellation_pkey : (d.cancellationRequests.map key).Nodup
  cancellation_one_open :
    ((d.cancellationRequests.filter fun r => decide (r.decision = .PENDING)).map
      CancellationRequest.bookingId).Nodup
  cancellation_fkey : ∀ r ∈ d.cancellationRequests, ∃ b ∈ d.bookings,
    b.organizationId = r.organizationId ∧ b.id = r.bookingId
  reschedule_pkey : (d.rescheduleRequests.map key).Nodup
  reschedule_one_open :
    ((d.rescheduleRequests.filter fun r => decide (r.decision = .PENDING)).map
      RescheduleRequest.bookingId).Nodup
  reschedule_fkey : ∀ r ∈ d.rescheduleRequests, ∃ b ∈ d.bookings,
    b.organizationId = r.organizationId ∧ b.id = r.bookingId
  event_id : (d.stripeWebhookEvents.map key).Nodup
  idempotency_pkey : (d.idempotencyKeys.map key).Nodup
  idempotency_key : (d.idempotencyKeys.map IdempotencyKey.key).Nodup

@[mk_iff]
structure CalendarLegal (d : Db) : Prop where
  employees_pkey : (d.employees.map key).Nodup
  services_pkey : (d.services.map key).Nodup
  services_duration_check : ∀ s ∈ d.services, 5 ≤ s.durationMinutes ∧ s.durationMinutes ≤ 480
  services_buffers_check : ∀ s ∈ d.services,
    (0 ≤ s.prepBufferMinutes ∧ s.prepBufferMinutes ≤ 120) ∧
      0 ≤ s.cleanupBufferMinutes ∧ s.cleanupBufferMinutes ≤ 120
  services_price_check : ∀ s ∈ d.services, 0 ≤ s.priceCents
  price_override_check : ∀ s ∈ d.employeeServices, ∀ cents ∈ s.priceOverrideCents, 0 ≤ cents
  time_off_pkey : (d.timeOff.map key).Nodup
  time_off_range_check : ∀ t ∈ d.timeOff, t.startDate ≤ t.endDate
  blocked_times_pkey : (d.blockedTimes.map key).Nodup
  blocked_times_range_check : ∀ t ∈ d.blockedTimes, t.startsAt < t.endsAt
  blocked_times_no_overlap : d.blockedTimes.Pairwise fun a b =>
    ¬ (a.organizationId = b.organizationId ∧ a.employeeId = b.employeeId ∧
      a.span.overlaps b.span = true)

/-- Every constraint holds. -/
@[mk_iff]
structure Legal (d : Db) : Prop where
  bookings : BookingsLegal d
  payments : PaymentsLegal d
  refunds : RefundsLegal d
  requests : RequestsLegal d
  calendar : CalendarLegal d

instance (d : Db) : Decidable (BookingsLegal d) := decidable_of_iff' _ (bookingsLegal_iff d)
instance (d : Db) : Decidable (PaymentsLegal d) := decidable_of_iff' _ (paymentsLegal_iff d)
instance (d : Db) : Decidable (RefundsLegal d) := decidable_of_iff' _ (refundsLegal_iff d)
instance (d : Db) : Decidable (RequestsLegal d) := decidable_of_iff' _ (requestsLegal_iff d)
instance (d : Db) : Decidable (CalendarLegal d) := decidable_of_iff' _ (calendarLegal_iff d)
instance (d : Db) : Decidable (Legal d) := decidable_of_iff' _ (legal_iff d)

/-- No constraint is about the provider, the clock, the notes or the links that were given. -/
theorem Legal.elsewhere {d : Db} (h : Legal d) (provider : ProviderState) (clock : Int)
    (attempts : List AttemptEvent) (checkouts : List (String × String)) :
    Legal { d with provider, clock, attempts, checkouts } where
  bookings := { h.bookings with }
  payments := { h.payments with }
  refunds := { h.refunds with }
  requests := { h.requests with }
  calendar := { h.calendar with }

theorem Legal.onProvider {d : Db} (h : Legal d) (f : ProviderState → ProviderState) :
    Legal (d.onProvider f) :=
  h.elsewhere (f d.provider) d.clock d.attempts d.checkouts

theorem Legal.onClock {d : Db} (h : Legal d) (f : Int → Int) : Legal (d.onClock f) :=
  h.elsewhere d.provider (f d.clock) d.attempts d.checkouts

theorem Legal.noting {d : Db} (h : Legal d) (f : Int → List AttemptEvent) : Legal (d.noting f) :=
  h.elsewhere d.provider d.clock (d.attempts ++ f d.clock) d.checkouts

theorem Legal.onCheckouts {d : Db} (h : Legal d)
    (f : List (String × String) → List (String × String)) : Legal (d.onCheckouts f) :=
  h.elsewhere d.provider d.clock d.attempts (f d.checkouts)

end BookingApp

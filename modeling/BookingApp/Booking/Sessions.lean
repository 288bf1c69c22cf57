import BookingApp.Booking.Checkout
import BookingApp.Messaging.Idempotency

/-!
# Creating a booking (`public-bookings.controller.ts`, `booking-checkout.service.ts`)

An attempt resumes what an earlier one has reserved under its key, or reserves. The
checkout session is opened at the provider between two transactions: the reservation
has committed, and the session is attached to it afterwards. Then the customer is
given its link.
-/

set_option autoImplicit false

namespace BookingApp

open ReadCommitted

/-- Creates the session and attaches it to the booking. What it answers is the session whose link
the customer is given. -/
def createSessionForReservation (api : Api) (organization : ChargeOrganization) (booking : Booking)
    (body : CheckoutBody) (idempotencyKey : Option String) : Tx String := do
  ensure (S := store) (booking.expiresAt ≠ none)
    (internalError "A reservation without an expiry cannot open a checkout session.")
  let stripeAccountId ← ofExcept (accountForNewCharge organization)
  let input ← ofExcept (checkoutInput booking body idempotencyKey)
  let instant ← now
  let sessionId ← callProvider (api.payments.createCheckoutSession
    (input.request { organizationId := organization.id, stripeAccountId } instant))
  attach booking sessionId stripeAccountId
  Code.call (S := store) (Db.onCheckouts (· ++ [(booking.id, sessionId)])) fun _ => .ret sessionId

/-- At the provider a session is paid, or expires by itself. -/
def endSession (sessionId : String) : Tx Unit :=
  Code.call (S := store) (Db.onProvider (ProviderState.closeSession sessionId)) fun _ => .ret ()

/-- The booking that a key is bound to. -/
def boundBooking (key : String) (d : Db) : Option String :=
  (d.idempotencyKeys.find? fun k =>
    decide (k.key = key ∧ k.scope = "booking.create" ∧ k.bookingId ≠ none)).bind
      IdempotencyKey.bookingId

/-- A hold that has not lapsed at `instant`. -/
def Booking.Resumable (b : Booking) (instant : Int) : Prop :=
  b.status = .PENDING_PAYMENT ∧ ∃ expiresAt ∈ b.expiresAt, instant < expiresAt

instance (b : Booking) (instant : Int) : Decidable (b.Resumable instant) :=
  inferInstanceAs (Decidable (_ ∧ ∃ _ ∈ _, _))

/-- `ReservationService.resume`: the reservation that a previous attempt at this key has made, if it
is still live. It is told which booking the key was found to be bound to. -/
def resume (api : Api) (bound : Option String) : Tx (Option Booking) :=
  match bound with
  | none => return none
  | some bookingId => do
    let instant ← clockNow
    query fun d => (findIn Booking.organizationId api.organizationId bookingId d.bookings).filter
      fun b => decide (b.Resumable instant)

/-- `PublicBookingsController.create`, as the handler of an attempt at a key. -/
def createBooking (api : Api) (organization : ChargeOrganization) (input : ReserveInput)
    (body : CheckoutBody) (key : String) : Tx Response := do
  ensure (S := store) (organization.paymentsMode = .CONNECT →
      organization.stripeChargesEnabled = true ∧ organization.stripeAccountId ≠ none) (.app {
    code := "ORGANIZATION_ONBOARDING_INCOMPLETE"
    message := "This organizer has not finished setting up payments yet." })
  let input : ReserveInput :=
    { input with actor := .CUSTOMER, origin := none, idempotencyKey := some key }
  let bound ← query (boundBooking key)
  let booking ← match ← resume api bound with
    | some booking => pure booking
    | none => ReserveResult.booking <$> reserveAt (.reservation key bound) api input
  let sessionId ← createSessionForReservation api organization booking body (some key)
  ensure (S := store) (booking.expiresAt ≠ none) (internalError "Reservation has no expiry.")
  return { body := s!"{booking.id} {booking.reference} {sessionId}", bookingId := some booking.id }

end BookingApp

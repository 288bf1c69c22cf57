import BookingApp.Booking.FollowUps
import BookingApp.Booking.Leave

/-!
# The operations on bookings

What clients run: reservations and their checkout, what becomes of a hold, the ways an
appointment ends or moves, blocked times and leave, reminders, and the stored events. Each keeps to
the protocol (`BookingOperation.safe`), so what every change keeps holds in every state
that is reached.
-/

set_option autoImplicit false

namespace BookingApp

open ReadCommitted ReadCommitted.Proto

/-- The operations that change bookings, or money that was paid for them. -/
inductive BookingOperation (rules : BookingRules) : Tx Unit → Prop where
  | reserve (api : Api) (input : ReserveInput) (hapi : rules.Admits api) :
      BookingOperation rules (discard (reserve api input))
  | createBooking (api : Api) (organization : ChargeOrganization) (input : ReserveInput)
      (body : CheckoutBody) (key : String) (hapi : rules.Admits api) :
      BookingOperation rules (discard (createBooking api organization input body key))
  | endSession (sessionId : String) : BookingOperation rules (endSession sessionId)
  | confirmPaid (api : Api) (input : ConfirmPaidInput)
      (hcaptures : rules.captures input.sessionId input.amountTotalCents) :
      BookingOperation rules (discard (confirmPaid api input))
  | markPaymentFailed (input : MarkPaymentFailedInput) : BookingOperation rules (markPaymentFailed input)
  | beginExpiry (bookingId : String) : BookingOperation rules (discard (beginExpiry bookingId))
  | completeExpiry (api : Api) (bookingId : String) (hapi : rules.Admits api) :
      BookingOperation rules (discard (completeExpiry api bookingId))
  | cancelByCustomer (api : Api) (bookingId : String) (reason : Option String) :
      BookingOperation rules (discard (cancelByCustomer api bookingId reason))
  | decideRequest (api : Api) (input : DecideRequestInput) :
      BookingOperation rules (decideRequest api input)
  | cancelByBusiness (api : Api) (input : CancelByBusinessInput) :
      BookingOperation rules (discard (cancelByBusiness api input))
  | complete (api : Api) (bookingId officeUserId : String) :
      BookingOperation rules (complete api bookingId officeUserId)
  | markNoShow (api : Api) (bookingId officeUserId : String) :
      BookingOperation rules (markNoShow api bookingId officeUserId)
  | requestByCustomer (api : Api) (input : RequestRescheduleInput) :
      BookingOperation rules (discard (requestByCustomer api input))
  | decideReschedule (api : Api) (input : DecideRescheduleInput) (hapi : rules.Admits api) :
      BookingOperation rules (discard (decideReschedule api input))
  | createBlockedTime (session : OfficeSession) (body : CreateBlockedTimeRequest) :
      BookingOperation rules (discard (createBlockedTime session body))
  | createTimeOff (api : Api) (session : OfficeSession) (body : CreateTimeOffRequest)
      (hsession : session.organizationId = api.organizationId) (hapi : rules.Admits api) :
      BookingOperation rules (discard (createTimeOff api session body))
  | updateTimeOff (api : Api) (session : OfficeSession) (id : String) (body : UpdateTimeOffRequest)
      (hsession : session.organizationId = api.organizationId) (hapi : rules.Admits api) :
      BookingOperation rules (discard (updateTimeOff api session id body))
  | fire (api : Api) (input : FireInput) : BookingOperation rules (discard (fire api input))
  | recordStripe (stripeEventId type : String) (payload : StripeEventObject)
      (hreports : rules.Reports payload) :
      BookingOperation rules (discard (recordStripe stripeEventId type payload))
  | handleStripeEvent (api : Api) (stripeEventId : String) (hallowed : rules.refunds)
      (hapi : rules.Admits api) : BookingOperation rules (handleStripeEvent api stripeEventId)
  | requestRefund (api : Api) (input : RequestRefundInput) (hallowed : rules.refunds) :
      BookingOperation rules (discard (requestRefund api input))
  | executeRefund (api : Api) (refundId : String) (hallowed : rules.refunds) :
      BookingOperation rules (discard (executeRefund api refundId))

variable {rules : BookingRules}

theorem BookingOperation.safe (hrules : rules.Sound) (hhandles : rules.refunds → rules.Handles) (c : Tx Unit)
    (h : BookingOperation rules c) : (lifecycle rules).Safe c := by
  intro d _
  have hdone : ∀ {α : Type} {c : Tx α} {Q : α → List Lock → (Db → Db) → Db → Prop},
      Runs (lifecycle rules) c Q [] id d →
      Runs (lifecycle rules) (discard c) (fun _ _ _ _ => True) [] id d :=
    fun h => .discard (.mono h fun _ _ _ _ _ => trivial)
  cases h with
  | reserve api input hapi => exact hdone (runs_reserveAt hrules hapi)
  | createBooking api organization input body key hapi => exact hdone (runs_createBooking hrules hapi)
  | endSession sessionId => exact runs_endSession hrules
  | confirmPaid api input hcaptures => exact hdone (runs_confirmPaid hrules hcaptures)
  | markPaymentFailed input => exact runs_markPaymentFailed hrules
  | beginExpiry bookingId => exact hdone (runs_beginExpiry hrules)
  | completeExpiry api bookingId hapi => exact hdone (runs_completeExpiry hrules hapi)
  | cancelByCustomer api bookingId reason => exact hdone (runs_cancelByCustomer hrules)
  | decideRequest api input => exact runs_decideRequest hrules
  | cancelByBusiness api input => exact hdone (runs_cancelByBusiness hrules)
  | complete api bookingId officeUserId => exact runs_complete hrules
  | markNoShow api bookingId officeUserId => exact runs_markNoShow hrules
  | requestByCustomer api input => exact hdone (runs_requestByCustomer hrules)
  | decideReschedule api input hapi => exact hdone (runs_decideReschedule hrules hapi)
  | createBlockedTime session body => exact hdone (runs_createBlockedTime hrules)
  | createTimeOff api session body hsession hapi => exact hdone (runs_createTimeOff hrules hapi hsession)
  | updateTimeOff api session id body hsession hapi => exact hdone (runs_updateTimeOff hrules hapi hsession)
  | fire api input => exact hdone (runs_fire hrules)
  | recordStripe stripeEventId type payload hreports => exact hdone (runs_recordStripe hrules hreports)
  | handleStripeEvent api stripeEventId hallowed hapi =>
    exact runs_handleStripeEvent hrules (hhandles hallowed) hapi
  | requestRefund api input hallowed => exact hdone (runs_requestRefund hrules hallowed)
  | executeRefund api refundId hallowed => exact hdone (runs_executeRefund hrules hallowed)

section Runs

variable {d : Db} {s s' : Sys store}

/-- In every state of a run the clients keep to the protocol. -/
theorem BookingOperation.good (hrules : rules.Sound) (hhandles : rules.refunds → rules.Handles)
    (hd : (lifecycle rules).Inv d)
    (hrun : Sys.Reach (BookingOperation rules) rules.conditions { db := d } s) :
    (lifecycle rules).Good s :=
  (Sys.Reach.induct (M := fun _ => True) (BookingOperation.safe hrules hhandles) (Sys.good_init hd)
    trivial (fun _ _ _ _ _ _ _ => trivial) hrun).1

/-- What every change keeps holds in every state of a run. -/
theorem BookingOperation.invariant (hrules : rules.Sound) (hhandles : rules.refunds → rules.Handles)
    {J : Db → Prop} (hJ : ∀ d d', Commit rules d d' → J d → J d') (hd : (lifecycle rules).Inv d)
    (h : J d) (hrun : Sys.Reach (BookingOperation rules) rules.conditions { db := d } s) : J s.db :=
  (Sys.Reach.invariant (P := lifecycle rules) (BookingOperation.safe hrules hhandles)
    (fun _ _ _ _ hcommit => hJ _ _ hcommit) hd h hrun).2

/-- What every change does happens between two states of a run. -/
theorem BookingOperation.evolves (hrules : rules.Sound) (hhandles : rules.refunds → rules.Handles)
    {T : Db → Db → Prop} (hrefl : ∀ d, T d d) (htrans : ∀ d₁ d₂ d₃, T d₁ d₂ → T d₂ d₃ → T d₁ d₃)
    (hT : ∀ d d', Commit rules d d' → T d d') (hd : (lifecycle rules).Inv d)
    (hrun : Sys.Reach (BookingOperation rules) rules.conditions { db := d } s)
    (hrun' : Sys.Reach (BookingOperation rules) rules.conditions s s') : T s.db s'.db :=
  Sys.Reach.evolves (P := lifecycle rules) (BookingOperation.safe hrules hhandles) hrefl htrans
    (fun _ _ _ _ hcommit => hT _ _ hcommit) (BookingOperation.good hrules hhandles hd hrun) hrun'

/-- The next action of a run commits one change at most. -/
theorem BookingOperation.next (hrules : rules.Sound) (hhandles : rules.refunds → rules.Handles)
    (hd : (lifecycle rules).Inv d)
    (hrun : Sys.Reach (BookingOperation rules) rules.conditions { db := d } s) {a : Action store}
    (hstart : Sys.Starts (BookingOperation rules) a) (hstep : s.step a = some s')
    (hallowed : Sys.Allowed rules.conditions s a s') : s'.db = s.db ∨ Commit rules s.db s'.db :=
  Sys.Reach.next (P := lifecycle rules) (BookingOperation.safe hrules hhandles) hd hrun hstart hstep
    hallowed

end Runs

end BookingApp

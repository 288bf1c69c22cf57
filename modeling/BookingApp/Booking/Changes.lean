import BookingApp.Booking.Life
import BookingApp.Booking.Processor
import BookingApp.Booking.Reminders
import BookingApp.Booking.Reschedule
import BookingApp.Booking.Sessions
import BookingApp.Domain.Offers
import BookingApp.Payment.Ledger

/-!
# What the services change

One committed change of the services, with what the service knew of the rows when it
committed (`Change`). What becomes of a single booking follows from it
(`Change.life`). Each claim about bookings is a case analysis over these changes. A
change says under which condition on the run it was made.
-/

set_option autoImplicit false

namespace BookingApp

open ReadCommitted ReadCommitted.Proto

/-- The refunds are refunds of money that was received. -/
def RefundsReceived (d : Db) : Prop :=
  ∀ r ∈ d.refunds, ∀ p, Table.find r.paymentId d.payments = some p → p.status ∈ RECEIVED_PAYMENT_STATUSES

/-- The appointments were sold with times that a service can have. -/
def SoldTerms (d : Db) : Prop :=
  ∀ b ∈ d.bookings, b.sold.Valid

namespace BookingRules

def anyZone (_ : Zone) : Prop := True

def anyState (_ : Db) : Prop := True

theorem untracked (invariant : Db → Prop) : False → ∀ d, invariant d → RefundsReceived d :=
  fun h => h.elim

theorem unsteady (zone : Zone → Prop) : False → ∀ z, zone z → z.ChangesBelow 720 :=
  fun h => h.elim

theorem unsold (invariant : Db → Prop) : False → ∀ d, invariant d → SoldTerms d :=
  fun h => h.elim

theorem unplaced (invariant : Db → Prop) :
    (none : Option (String → Zone)) ≠ none → ∀ d, invariant d → SoldTerms d :=
  fun h => absurd rfl h

end BookingRules

/-- The rules that a group of runs is under: the conditions on them, the time zones there are, and
what the provider captures on a session. What holds in every state besides the constraints is the
`invariant`, and an event becomes processed in a state in which it is `handled`. Refunds are
requested and settled where `refunds` says so, and known to be of money that was received where
`tracks` does. Where `clears` does, a booking is known to be clear of the blocked times; where the
`zones` of the organizations are given, of the leave of its employee. -/
structure BookingRules where
  conditions : Conditions store
  zone : Zone → Prop := BookingRules.anyZone
  captures : String → Int → Prop := fun _ _ => True
  invariant : Db → Prop := BookingRules.anyState
  handled : StripeWebhookEvent → Db → Prop := fun _ _ => True
  refunds : Prop := False
  tracks : Prop := False
  received : tracks → ∀ d, invariant d → RefundsReceived d := by exact BookingRules.untracked _
  clears : Prop := False
  steady : clears → ∀ z, zone z → z.ChangesBelow 720 := by exact BookingRules.unsteady _
  sold : clears → ∀ d, invariant d → SoldTerms d := by exact BookingRules.unsold _
  zones : Option (String → Zone) := none
  known : zones ≠ none → ∀ d, invariant d → SoldTerms d := by exact BookingRules.unplaced _

/-- An organization in one of the time zones, which is its own, whose provider captures what it
should. -/
structure BookingRules.Admits (rules : BookingRules) (api : Api) : Prop where
  zone : rules.zone api.timezone
  zones : ∀ zoneOf ∈ rules.zones, api.timezone = zoneOf api.organizationId := by exact nofun
  captures : ∀ sessionId, rules.captures sessionId (api.payments.amountTotal sessionId)

/-- What an event says of the amount of a paid session. -/
def BookingRules.Reports (rules : BookingRules) (object : StripeEventObject) : Prop :=
  ∀ sessionId amount, readString object.id = some sessionId → object.paymentStatus = some "paid" →
    object.amountTotal = some amount → rules.captures sessionId amount

/-- The statuses with which an appointment ends. -/
def ENDINGS : List BookingStatus :=
  [.CANCELED_BY_CUSTOMER, .CANCELED_BY_BUSINESS, .COMPLETED, .NO_SHOW]

/-- A new booking, with the row of its history, its links and its events. -/
structure Created (b : Booking) (row : BookingStatusHistory) (tokens : List ManagementToken)
    (events : List OutboxEvent) : Prop where
  status : canTransition none b.status = true
  history : row.bookingId = b.id ∧ row.fromStatus = none ∧ row.toStatus = b.status
  tokens : ∀ t ∈ tokens, t.bookingId = b.id
  announced : announcements events = [] ∨ announcements events = [b.id] ∧ b.status = .CONFIRMED
  session : b.stripeCheckoutSessionId = none

/-- A booking whose status becomes another, with the row of its history and its events. -/
structure Moves (b : Booking) (f : Booking → Booking) (row : BookingStatusHistory)
    (events : List OutboxEvent) (d : Db) : Prop where
  found : Table.find b.id d.bookings = some b
  id : ∀ x, (f x).id = x.id
  terms : (f b).terms = b.terms
  status : canTransition (some b.status) (f b).status = true
  history : row.bookingId = b.id ∧ row.fromStatus = some b.status ∧ row.toStatus = (f b).status
  announced : announcements events = [] ∨ announcements events = [b.id] ∧ (f b).status = .CONFIRMED

/-- No blocked time of the employee meets the booking. -/
def Clear (b : Booking) (d : Db) : Prop :=
  ∀ t ∈ d.blockedTimes, t.organizationId = b.organizationId → t.employeeId = b.employeeId →
    b.block.overlaps t.span = false

/-- The booking lies within one local day, which no approved leave of the employee lists. -/
structure OnDuty (z : Zone) (b : Booking) (d : Db) : Prop where
  day : ∀ t, b.blockStartsAt ≤ t → t < b.blockEndsAt → z.dateOf t = z.dateOf b.startsAt
  leave : ∀ t ∈ d.timeOff, t.organizationId = b.organizationId → t.employeeId = b.employeeId →
    t.status = .APPROVED → t.startDate ≤ z.dateOf b.startsAt → z.dateOf b.startsAt ≤ t.endDate →
    z.dateOf b.startsAt ∉ eachLocalDate t.startDate t.endDate z

/-- What is known of the time of a new booking, as far as the rules look at it. -/
structure BookingRules.Vacant (rules : BookingRules) (b : Booking) (d : Db) : Prop where
  clear : rules.clears → Clear b d
  duty : ∀ zoneOf ∈ rules.zones, OnDuty (zoneOf b.organizationId) b d

/-- No blocking booking of the employee starts on the days of the leave. -/
def Vacated (z : Zone) (t : TimeOff) (d : Db) : Prop :=
  ∃ first last, wallClockToInstant t.startDate ⟨0, MinuteOfDay.midnight_le⟩ z = .ok first ∧
    wallClockToInstant (addLocalDays t.endDate 1 z) ⟨0, MinuteOfDay.midnight_le⟩ z = .ok last ∧
    ∀ b ∈ d.bookings, b.organizationId = t.organizationId → b.employeeId = t.employeeId → b.Blocks →
      ¬ (first ≤ b.startsAt ∧ b.startsAt < last)

/-- What a leave is about: the days of an employee. The other columns are its decision. -/
def TimeOff.days (t : TimeOff) : TimeOff :=
  { t with status := .REQUESTED, reason := none, decidedByOfficeUserId := none, decidedAt := none }

/-- `f` decides a cancellation request. -/
def DecidesCancellation (f : CancellationRequest → CancellationRequest) : Prop :=
  ∀ r, (f r).id = r.id ∧ (f r).bookingId = r.bookingId ∧ (f r).decision ≠ .PENDING

/-- `f` decides a reschedule request. -/
def DecidesReschedule (f : RescheduleRequest → RescheduleRequest) : Prop :=
  ∀ r, (f r).id = r.id ∧ (f r).bookingId = r.bookingId ∧ (f r).decision ≠ .PENDING

/-- The requests of a booking are among the ones decided here, unless the condition on the commit
takes care of the others. -/
def Closes (c : Conditions store) (bookingId : String) (cancellations reschedules : List String)
    (d : Db) : Prop :=
  (∃ own revoked, c.Assume (.leaving bookingId own revoked) d ∧
    (∀ id, own = some (.cancellationRequest id) → id ∈ cancellations) ∧
    ∀ id, own = some (.rescheduleRequest id) → id ∈ reschedules) ∨
  (∀ r ∈ d.cancellationRequests, r.bookingId = bookingId → r.decision = .PENDING → r.id ∈ cancellations) ∧
    ∀ r ∈ d.rescheduleRequests, r.bookingId = bookingId → r.decision = .PENDING → r.id ∈ reschedules

/-- What a confirmation does to the payments. -/
inductive Pays (input : ConfirmPaidInput) (bookingId : String) (payments : List Payment) :
    List Payment → Prop where
  | known (p : Payment) (hp : Table.find p.id payments = some p)
      (hsession : p.stripeCheckoutSessionId = some input.sessionId) :
      Pays input bookingId payments (Table.update [p.id] input.paid payments)
  | new (p : Payment) (hbooking : p.bookingId = bookingId)
      (hsession : p.stripeCheckoutSessionId = some input.sessionId) :
      Pays input bookingId payments (payments ++ [input.paid p])

/-- What the attachment of a session does to the bookings. -/
inductive Attaches (b : Booking) (sessionId : String) (bookings : List Booking) : List Booking → Prop where
  | again (hsession : b.stripeCheckoutSessionId = some sessionId) :
      Attaches b sessionId bookings bookings
  | first (hnone : b.stripeCheckoutSessionId = none) (hunpaid : b.status ∈ UNPAID_BOOKING_STATUSES) :
      Attaches b sessionId bookings (Table.update [b.id]
        (fun x => { x with stripeCheckoutSessionId := some sessionId }) bookings)

/-- What the attachment of a session does to the payments. -/
inductive Opens (sessionId bookingId : String) (payments : List Payment) : List Payment → Prop where
  | again : Opens sessionId bookingId payments payments
  | first (p : Payment) (hpending : p.status = .PENDING) (hcharge : p.stripeChargeId = none)
      (hsession : p.stripeCheckoutSessionId = some sessionId) (hbooking : p.bookingId = bookingId) :
      Opens sessionId bookingId payments (payments ++ [p])

/-- A refund that is reserved of a payment. -/
structure RefundReserved (r : Refund) (d : Db) : Prop where
  pending : r.status = .PENDING
  payment : ∃ p, Table.find r.paymentId d.payments = some p ∧
    (p.status = .SUCCEEDED ∨ p.status = .PARTIALLY_REFUNDED)

/-- A replacement is for the customer of the booking, in its currency, and has its money where the
booking has it. -/
structure Booking.Succeeds (created b : Booking) : Prop where
  root : created.financialRootBookingId = some (b.financialRootBookingId.getD b.id)
  organization : created.organizationId = b.organizationId
  customer : created.customerId = b.customerId
  currency : created.currency = b.currency

/-- The manual payments were there, or are recorded on the financial root of a booking. -/
def RecordsManual (manualPayments : List ManualPayment) (d : Db) : Prop :=
  ∀ m ∈ manualPayments, m ∈ d.manualPayments ∨
    ∃ b ∈ d.bookings, m.bookingId = b.financialRootBookingId.getD b.id

/-- One committed change of the services. -/
inductive Change (rules : BookingRules) (d d' : Db) : Prop where
  | quiet (keys : List IdempotencyKey) (notes : List AttemptEvent) (time : Int)
      (manualPayments : List ManualPayment) (hmanual : RecordsManual manualPayments d)
      (hd : d' = { d with
        idempotencyKeys := keys, attempts := notes, clock := time, manualPayments })
  | called (state : ProviderState) (hended : ∀ id, d.provider.Ended id → state.Ended id)
      (hd : d' = { d with provider := state })
  | handed (b : Booking) (sessionId : String) (hb : Table.find b.id d.bookings = some b)
      (hnamed : b.stripeCheckoutSessionId = some sessionId ∨ b.status ∉ UNPAID_BOOKING_STATUSES)
      (hd : d' = { d with checkouts := d.checkouts ++ [(b.id, sessionId)] })
  | reserved (b : Booking) (ids : List String) (keys : List IdempotencyKey)
      (row : BookingStatusHistory) (tokens : List ManagementToken) (events : List OutboxEvent)
      (hcreated : Created b row tokens events) (hsold : b.sold.Valid)
      (hclear : rules.Vacant b d) (hfirst : b.rescheduledFromBookingId = none)
      (hroot : b.financialRootBookingId = none)
      (hd : d' = { d with
        bookings := Table.update ids (fun x => { x with idempotencyKeyId := none }) d.bookings ++ [b]
        idempotencyKeys := keys
        bookingStatusHistory := d.bookingStatusHistory ++ [row]
        managementTokens := d.managementTokens ++ tokens
        outboxEvents := d.outboxEvents ++ events })
  | attached (b : Booking) (sessionId : String) (bookings : List Booking) (payments : List Payment)
      (hassume : rules.conditions.Assume (.attachment b.id sessionId) d)
      (hb : Table.find b.id d.bookings = some b)
      (hattaches : Attaches b sessionId d.bookings bookings)
      (hopens : Opens sessionId b.id d.payments payments)
      (hpayment : ∃ p ∈ payments, p.stripeCheckoutSessionId = some sessionId ∧ p.bookingId = b.id)
      (hd : d' = { d with bookings, payments })
  | confirmed (input : ConfirmPaidInput) (b : Booking) (f : Booking → Booking)
      (row : BookingStatusHistory) (token : ManagementToken) (event : OutboxEvent)
      (payments : List Payment)
      (hassume : rules.conditions.Assume (.confirmation b.id input.chargeId) d)
      (hmoves : Moves b f row [event] d) (hhold : Life.InHold b.status)
      (hstatus : (f b).status = .CONFIRMED)
      (hsession : (f b).stripeCheckoutSessionId = some input.sessionId)
      (htoken : token.bookingId = b.id)
      (hcaptures : rules.captures input.sessionId input.amountTotalCents)
      (hpays : Pays input b.id d.payments payments)
      (hd : d' = { d with
        bookings := Table.update [b.id] f d.bookings
        bookingStatusHistory := d.bookingStatusHistory ++ [row]
        managementTokens := d.managementTokens ++ [token]
        payments
        outboxEvents := d.outboxEvents ++ [event] })
  | failed (input : MarkPaymentFailedInput) (b : Booking) (f : Booking → Booking)
      (row : BookingStatusHistory) (event : OutboxEvent) (ids : List String)
      (hassume : rules.conditions.Assume (.failure b.id) d) (hmoves : Moves b f row [event] d)
      (hhold : b.status = .PENDING_PAYMENT) (hstatus : (f b).status = .PAYMENT_FAILED)
      (hsession : (f b).stripeCheckoutSessionId = b.stripeCheckoutSessionId)
      (hids : ∀ id ∈ ids, ∃ p, Table.find id d.payments = some p ∧ p.status = .PENDING)
      (hd : d' = { d with
        bookings := Table.update [b.id] f d.bookings
        bookingStatusHistory := d.bookingStatusHistory ++ [row]
        payments := Table.update ids input.failed d.payments
        outboxEvents := d.outboxEvents ++ [event] })
  | lapsing (b : Booking) (f : Booking → Booking) (row : BookingStatusHistory) (event : OutboxEvent)
      (hmoves : Moves b f row [event] d) (hhold : b.status = .PENDING_PAYMENT)
      (hstatus : (f b).status = .EXPIRING)
      (hsession : (f b).stripeCheckoutSessionId = b.stripeCheckoutSessionId)
      (hd : d' = { d with
        bookings := Table.update [b.id] f d.bookings
        bookingStatusHistory := d.bookingStatusHistory ++ [row]
        outboxEvents := d.outboxEvents ++ [event] })
  | released (b : Booking) (f : Booking → Booking) (row : BookingStatusHistory)
      (sessionId : Option String)
      (hassume : rules.conditions.Assume (.release b.id sessionId) d) (hmoves : Moves b f row [] d)
      (hhold : b.status = .EXPIRING) (hstatus : (f b).status = .EXPIRED)
      (hsession : (f b).stripeCheckoutSessionId = b.stripeCheckoutSessionId)
      (hended : ∀ id ∈ sessionId, b.stripeCheckoutSessionId = some id ∧ d.provider.Ended id)
      (hd : d' = { d with
        bookings := Table.update [b.id] f d.bookings
        bookingStatusHistory := d.bookingStatusHistory ++ [row] })
  | ended (b : Booking) (f : Booking → Booking) (row : BookingStatusHistory)
      (events : List OutboxEvent) (refunds : List Refund) (cancellations reschedules : List String)
      (g : CancellationRequest → CancellationRequest) (h : RescheduleRequest → RescheduleRequest)
      (hmoves : Moves b f row events d) (hstatus : b.status = .CONFIRMED)
      (hends : (f b).status ∈ ENDINGS)
      (hsession : (f b).stripeCheckoutSessionId = b.stripeCheckoutSessionId)
      (hrefunds : ∀ r ∈ refunds, r.bookingId = b.id ∧ RefundReserved r d) (hcancellations : DecidesCancellation g)
      (hreschedules : DecidesReschedule h)
      (hcloses : Closes rules.conditions b.id cancellations reschedules d)
      (hd : d' = { d with
        bookings := Table.update [b.id] f d.bookings
        bookingStatusHistory := d.bookingStatusHistory ++ [row]
        refunds := d.refunds ++ refunds
        cancellationRequests := Table.update cancellations g d.cancellationRequests
        rescheduleRequests := Table.update reschedules h d.rescheduleRequests
        outboxEvents := d.outboxEvents ++ events })
  | asked (b : Booking) (cancellations : List CancellationRequest) (reschedules : List RescheduleRequest)
      (hb : Table.find b.id d.bookings = some b) (hstatus : b.status = .CONFIRMED)
      (hcancellations : ∀ r ∈ cancellations, r.bookingId = b.id)
      (hreschedules : ∀ r ∈ reschedules, r.bookingId = b.id)
      (hd : d' = { d with
        cancellationRequests := d.cancellationRequests ++ cancellations
        rescheduleRequests := d.rescheduleRequests ++ reschedules })
  | decided (cancellations reschedules : List String) (g : CancellationRequest → CancellationRequest)
      (h : RescheduleRequest → RescheduleRequest) (hcancellations : DecidesCancellation g)
      (hreschedules : DecidesReschedule h)
      (hd : d' = { d with
        cancellationRequests := Table.update cancellations g d.cancellationRequests
        rescheduleRequests := Table.update reschedules h d.rescheduleRequests })
  | replaced (b created : Booking) (f : Booking → Booking) (canceled row : BookingStatusHistory)
      (requestId : String) (h : RescheduleRequest → RescheduleRequest) (revoked : List String)
      (revoke : ManagementToken → ManagementToken) (token : ManagementToken)
      (events : List OutboxEvent)
      (hb : Table.find b.id d.bookings = some b)
      (hread : ∃ d₀, rules.conditions.Assume (.approval b.id) d₀ ∧
        Table.find b.id d₀.bookings = some b)
      (hassume : rules.conditions.Assume
        (.leaving b.id (some (.rescheduleRequest requestId)) revoked) d)
      (hpaid : b.status ∉ UNPAID_BOOKING_STATUSES)
      (hid : ∀ x, (f x).id = x.id) (hterms : (f b).terms = b.terms)
      (hsession : (f b).stripeCheckoutSessionId = b.stripeCheckoutSessionId)
      (hstatus : (f b).status = .CANCELED_BY_BUSINESS)
      (hhistory : canceled.bookingId = b.id ∧ canceled.fromStatus = some .CONFIRMED ∧
        canceled.toStatus = .CANCELED_BY_BUSINESS)
      (hcreated : Created created row [token] events) (hsilent : announcements events = [])
      (hsold : created.sold = b.sold) (hclear : rules.Vacant created d)
      (hconfirmed : created.status = .CONFIRMED)
      (hreplaces : created.rescheduledFromBookingId = some b.id)
      (hdecides : DecidesReschedule h) (hrevoke : ∀ t, (revoke t).revokedAt ≠ none)
      (hsucceeds : created.Succeeds b)
      (hd : d' = { d with
        bookings := Table.update [b.id] f (d.bookings ++ [created])
        bookingStatusHistory := d.bookingStatusHistory ++ [canceled, row]
        managementTokens := Table.update revoked revoke d.managementTokens ++ [token]
        rescheduleRequests := Table.update [requestId] h d.rescheduleRequests
        outboxEvents := d.outboxEvents ++ events })
  | blocked (t : BlockedTime)
      (hclear : ∀ b ∈ d.bookings, t.organizationId = b.organizationId →
        t.employeeId = b.employeeId → b.Blocks → b.block.overlaps t.span = false)
      (hd : d' = { d with blockedTimes := d.blockedTimes ++ [t] })
  | leaveTaken (t : TimeOff) (hassume : rules.conditions.Assume (.leave t true) d)
      (hvacated : t.status = .APPROVED → ∀ zoneOf ∈ rules.zones, Vacated (zoneOf t.organizationId) t d)
      (hd : d' = { d with timeOff := d.timeOff ++ [t] })
  | leaveDecided (t : TimeOff) (f : TimeOff → TimeOff) (checked : Bool)
      (ht : Table.find t.id d.timeOff = some t) (hid : ∀ x, (f x).id = x.id)
      (hdays : ∀ x, (f x).days = x.days)
      (hassume : rules.conditions.Assume (.leave (f t) checked) d)
      (hvacated : checked = true → (f t).status = .APPROVED →
        ∀ zoneOf ∈ rules.zones, Vacated (zoneOf t.organizationId) t d)
      (hd : d' = { d with timeOff := Table.update [t.id] f d.timeOff })
  | heard (event : StripeWebhookEvent) (hopen : event.processedAt = none)
      (hreports : rules.Reports event.payload)
      (hd : d' = { d with stripeWebhookEvents := d.stripeWebhookEvents ++ [event] })
  | retried (ids : List String) (attempts : StripeWebhookEvent → Nat)
      (lastError : StripeWebhookEvent → Option String)
      (hd : d' = { d with
        stripeWebhookEvents := Table.update ids
          (fun e => { e with attempts := attempts e, lastError := lastError e })
          d.stripeWebhookEvents })
  | processed (ids : List String) (instant : Int)
      (hhandled : ∀ id ∈ ids, ∀ e, Table.find id d.stripeWebhookEvents = some e → rules.handled e d)
      (hd : d' = { d with
        stripeWebhookEvents := Table.update ids (fun e => { e with processedAt := some instant })
          d.stripeWebhookEvents })
  | requested (refunds : List Refund) (events : List OutboxEvent) (hallowed : rules.refunds)
      (hrefunds : ∀ r ∈ refunds, RefundReserved r d) (hsilent : announcements events = [])
      (hd : d' = { d with
        refunds := d.refunds ++ refunds, outboxEvents := d.outboxEvents ++ events })
  | settled (input : SettlementInput) (settledAt : Option Int) (paymentId : String)
      (amountCents refunded : Int) (current : PaymentStatus) (events : List OutboxEvent)
      (hallowed : rules.refunds) (hcurrent : rules.tracks → current ∈ RECEIVED_PAYMENT_STATUSES)
      (hrefunded : ∃ r ∈ d.refunds, r.paymentId = paymentId)
      (hsilent : announcements events = [])
      (hd : d' = { d with
        refunds := Table.update [input.refundId] (input.applyTo settledAt) d.refunds
        payments := Table.update [paymentId]
          (Payment.withTotals refunded (paymentStatusFor amountCents refunded current)) d.payments
        outboxEvents := d.outboxEvents ++ events })
  | reminded (bookingId : String) (tokens : List ManagementToken)
      (notifications : List Notification) (events : List OutboxEvent)
      (hassume : rules.conditions.Assume (.reminder bookingId) d)
      (hb : ∃ b, Table.find bookingId d.bookings = some b)
      (htokens : ∀ t ∈ tokens, t ∈ d.managementTokens ∨ t.bookingId = bookingId)
      (hnotifications : ∀ n ∈ notifications, n.bookingId = bookingId)
      (hsilent : announcements events = [])
      (hd : d' = { d with
        managementTokens := tokens
        notifications := d.notifications ++ notifications
        outboxEvents := d.outboxEvents ++ events })

section Life

variable {exact : Prop} {d d' : Db} {id : String}

theorem historyOf_append (t u : List BookingStatusHistory) :
    historyOf id (t ++ u) = historyOf id t ++ historyOf id u := by
  simp [historyOf]

theorem historyOf_of_ne {row : BookingStatusHistory} (h : row.bookingId ≠ id) :
    historyOf id [row] = [] := by
  simp [historyOf, h]

theorem historyOf_of_eq {row : BookingStatusHistory} (h : row.bookingId = id) :
    historyOf id [row] = [(row.fromStatus, row.toStatus)] := by
  simp [historyOf, h]

theorem announcements_append (t u : List OutboxEvent) :
    announcements (t ++ u) = announcements t ++ announcements u := by
  simp [announcements]

/-- Events that announce nothing. -/
theorem announced_of_silent {events : List OutboxEvent} (h : announcements events = [])
    (hevents : d'.outboxEvents = d.outboxEvents ++ events) :
    (lifeOf id d').announced = (lifeOf id d).announced := by
  simp [lifeOf, hevents, announcements_append, h]

/-- Events that announce at most the confirmation of one booking. -/
theorem announced_of_events {events : List OutboxEvent} {b : Booking}
    (h : announcements events = [] ∨ announcements events = [b.id] ∧ b.status = .CONFIRMED)
    (hevents : d'.outboxEvents = d.outboxEvents ++ events) :
    (lifeOf id d').announced = (lifeOf id d).announced ∨
      (lifeOf id d').announced = (lifeOf id d).announced + 1 ∧ b.id = id ∧ b.status = .CONFIRMED := by
  rcases h with h | ⟨h, hstatus⟩
  · exact .inl (announced_of_silent h hevents)
  · simp only [lifeOf, hevents, announcements_append, h, List.count_append, List.count_singleton]
    by_cases hid : b.id = id <;> simp [hid, hstatus]

/-- A booking whose row keeps its terms and its status, without a transition. -/
theorem LifeStep.of_map {f : Booking → Booking} (hf : ∀ b, (f b).terms = b.terms ∧ (f b).status = b.status)
    (hrow : Table.find id d'.bookings = (Table.find id d.bookings).map f)
    (hhistory : (lifeOf id d').history = (lifeOf id d).history)
    (hannounced : (lifeOf id d').announced = (lifeOf id d).announced) :
    LifeStep exact (lifeOf id d) (lifeOf id d') := by
  cases hb : Table.find id d.bookings with
  | none =>
    rw [hb, Option.map_none, ← hb] at hrow
    refine .absent hb ?_
    simp only [lifeOf, Life.mk.injEq] at hhistory hannounced ⊢
    exact ⟨hrow, hhistory, hannounced⟩
  | some b =>
    rw [hb, Option.map_some] at hrow
    exact .kept b (f b) hb hrow (hf b).1 (hf b).2 hhistory hannounced

/-- A change that is not about the life of the booking. -/
theorem LifeStep.of_eq (hrow : Table.find id d'.bookings = Table.find id d.bookings)
    (hhistory : (lifeOf id d').history = (lifeOf id d).history)
    (hannounced : (lifeOf id d').announced = (lifeOf id d).announced) :
    LifeStep exact (lifeOf id d) (lifeOf id d') :=
  .of_map (f := fun b => b) (fun _ => ⟨rfl, rfl⟩) (by simpa using hrow) hhistory hannounced

/-- A change that is not about the life of any booking. -/
theorem LifeStep.of_silent {events : List OutboxEvent} (hbookings : d'.bookings = d.bookings)
    (hhistory : d'.bookingStatusHistory = d.bookingStatusHistory)
    (hsilent : announcements events = []) (hevents : d'.outboxEvents = d.outboxEvents ++ events) :
    LifeStep exact (lifeOf id d) (lifeOf id d') :=
  .of_eq (by rw [hbookings]) (by simp [lifeOf, hhistory]) (announced_of_silent hsilent hevents)

theorem Moves.life {b : Booking} {f : Booking → Booking} {row : BookingStatusHistory}
    {events : List OutboxEvent} (h : Moves b f row events d)
    (hbookings : d'.bookings = Table.update [b.id] f d.bookings)
    (hhistory : d'.bookingStatusHistory = d.bookingStatusHistory ++ [row])
    (hevents : d'.outboxEvents = d.outboxEvents ++ events) :
    LifeStep exact (lifeOf id d) (lifeOf id d') := by
  have hannounced : (lifeOf id d').announced = (lifeOf id d).announced ∨
      (lifeOf id d').announced = (lifeOf id d).announced + 1 ∧ (f b).id = id ∧ (f b).status = .CONFIRMED :=
    announced_of_events (by rw [h.id]; exact h.announced) hevents
  rw [h.id] at hannounced
  by_cases hid : b.id = id
  · subst hid
    refine .moved b (f b) b.status h.found ?_ h.terms (.inl rfl) h.status ?_ ?_
    · simp [lifeOf, hbookings, Table.find_update_of_mem h.id, h.found]
    · simp [lifeOf, hhistory, historyOf_append, historyOf_of_eq h.history.1, h.history]
    · exact hannounced.imp_right fun h => ⟨h.1, h.2.2⟩
  · refine .of_eq ?_ ?_ (hannounced.resolve_right fun h => hid h.2.1)
    · rw [hbookings, Table.find_update_of_notMem h.id (by simpa using Ne.symm hid)]
    · simp [lifeOf, hhistory, historyOf_append, historyOf_of_ne (h.history.1.trans_ne hid)]

/-- What becomes of the others when a booking is created. -/
theorem Created.life {b : Booking} {row : BookingStatusHistory} {tokens : List ManagementToken}
    {events : List OutboxEvent} (h : Created b row tokens events)
    {f : Booking → Booking} {ids : List String}
    (hf : ∀ b, (f b).id = b.id ∧ (f b).terms = b.terms ∧ (f b).status = b.status)
    (hbookings : d'.bookings = Table.update ids f d.bookings ++ [b]) (hlegal : Legal d')
    (hhistory : d'.bookingStatusHistory = d.bookingStatusHistory ++ [row])
    (hevents : d'.outboxEvents = d.outboxEvents ++ events) :
    LifeStep exact (lifeOf id d) (lifeOf id d') := by
  have hannounced : (lifeOf id d').announced = (lifeOf id d).announced ∨
      (lifeOf id d').announced = (lifeOf id d).announced + 1 ∧ b.id = id ∧ b.status = .CONFIRMED :=
    announced_of_events h.announced hevents
  have hkey : ∀ x, Keyed.key (f x) = Keyed.key x := fun x => (hf x).1
  have hnew : Table.find b.id d.bookings = none := by
    have hnodup := hlegal.bookings.pkey
    rw [hbookings] at hnodup
    have hnone := Table.find_eq_none_of_nodup hnodup
    rwa [Table.find_update hkey, Option.map_eq_none_iff] at hnone
  by_cases hid : b.id = id
  · subst hid
    refine .created b hnew ?_ h.status ?_ ?_
    · have hlast : Table.find b.id [b] = some b := by simp [Table.find_cons, Keyed.key]
      simp [lifeOf, hbookings, Table.find_append, Table.find_update hkey, hnew, hlast]
    · simp [lifeOf, hhistory, historyOf_append, historyOf_of_eq h.history.1, h.history]
    · exact hannounced.imp_right fun h => ⟨h.1, h.2.2⟩
  · refine .of_map (f := fun x => if id ∈ ids then f x else x) (fun x => ?_) ?_ ?_
      (hannounced.resolve_right fun h => hid h.2.1)
    · split
      · exact (hf x).2
      · exact ⟨rfl, rfl⟩
    · have hlast : Table.find id [b] = none := by simp [Table.find_cons, Keyed.key, hid]
      rw [hbookings, Table.find_append, Table.find_update hkey, hlast, Option.or_none]
    · simp [lifeOf, hhistory, historyOf_append, historyOf_of_ne (h.history.1.trans_ne hid)]

theorem Attaches.life {b : Booking} {sessionId : String} {bookings : List Booking}
    (h : Attaches b sessionId d.bookings bookings) (hbookings : d'.bookings = bookings)
    (hhistory : d'.bookingStatusHistory = d.bookingStatusHistory)
    (hevents : d'.outboxEvents = d.outboxEvents) : LifeStep exact (lifeOf id d) (lifeOf id d') := by
  cases h with
  | again hsession => exact .of_eq (by rw [hbookings]) (by simp [lifeOf, hhistory]) (by simp [lifeOf, hevents])
  | first hnone hunpaid =>
    refine .of_map (f := fun x => if id ∈ [b.id] then { x with stripeCheckoutSessionId := some sessionId }
      else x) (fun x => ?_) ?_ (by simp [lifeOf, hhistory]) (by simp [lifeOf, hevents])
    · split <;> exact ⟨rfl, rfl⟩
    · rw [hbookings]
      exact Table.find_update fun _ => rfl

/-- What a replacement does to the lives of the two bookings. Whether the original was still
confirmed is the question. -/
theorem LifeStep.of_replaced {b created : Booking} {f : Booking → Booking}
    {canceled row : BookingStatusHistory} {tokens : List ManagementToken} {events : List OutboxEvent}
    (hb : Table.find b.id d.bookings = some b) (hexact : exact → b.status = .CONFIRMED)
    (hid : ∀ x, (f x).id = x.id) (hterms : (f b).terms = b.terms)
    (hstatus : (f b).status = .CANCELED_BY_BUSINESS)
    (hcanceled : canceled.bookingId = b.id ∧ canceled.fromStatus = some .CONFIRMED ∧
      canceled.toStatus = .CANCELED_BY_BUSINESS)
    (hcreated : Created created row tokens events) (hsilent : announcements events = [])
    (hbookings : d'.bookings = Table.update [b.id] f (d.bookings ++ [created])) (hlegal : Legal d')
    (hhistory : d'.bookingStatusHistory = d.bookingStatusHistory ++ [canceled, row])
    (hevents : d'.outboxEvents = d.outboxEvents ++ events) :
    LifeStep exact (lifeOf id d) (lifeOf id d') := by
  have hannounced : (lifeOf id d').announced = (lifeOf id d).announced :=
    announced_of_silent hsilent hevents
  have hnew : Table.find created.id d.bookings = none := by
    have hnodup := hlegal.bookings.pkey
    rw [hbookings, Table.map_key_update hid] at hnodup
    exact Table.find_eq_none_of_nodup hnodup
  have hne : created.id ≠ b.id := fun he => by simp [he, hb] at hnew
  have hlast : Table.find created.id [created] = some created := by
    simp [Table.find_cons, Keyed.key]
  have hpair : historyOf id [canceled, row] = historyOf id [canceled] ++ historyOf id [row] :=
    historyOf_append [canceled] [row]
  by_cases hidb : id = b.id
  · subst hidb
    refine .moved b (f b) .CONFIRMED hb ?_ hterms ?_ ?_ ?_ (.inl hannounced)
    · simp [lifeOf, hbookings, Table.find_update_of_mem hid, Table.find_append_of_some hb]
    · by_cases he : exact
      · exact .inl (hexact he).symm
      · exact .inr ⟨he, hstatus⟩
    · rw [hstatus]
      rfl
    · simp [lifeOf, hhistory, historyOf_append, hpair, historyOf_of_eq hcanceled.1,
        historyOf_of_ne (hcreated.history.1.trans_ne hne), hcanceled, hstatus]
  by_cases hidc : id = created.id
  · subst hidc
    refine .created created hnew ?_ hcreated.status ?_ (.inl hannounced)
    · simp [lifeOf, hbookings, Table.find_update_of_notMem hid, hne, Table.find_append, hnew, hlast]
    · simp [lifeOf, hhistory, historyOf_append, hpair, historyOf_of_eq hcreated.history.1,
        historyOf_of_ne (hcanceled.1.trans_ne hne.symm), hcreated.history]
  · refine .of_eq ?_ ?_ hannounced
    · have hother : Table.find id [created] = none := by
        simp [Table.find_cons, Keyed.key, Ne.symm hidc]
      rw [hbookings, Table.find_update_of_notMem hid (by simpa using hidb), Table.find_append, hother,
        Option.or_none]
    · simp [lifeOf, hhistory, historyOf_append, hpair,
        historyOf_of_ne (hcanceled.1.trans_ne (Ne.symm hidb)),
        historyOf_of_ne (hcreated.history.1.trans_ne (Ne.symm hidc))]

/-- What a change does to one booking. It is exact if approvals find the booking confirmed. -/
theorem Change.life {rules : BookingRules} (h : Change rules d d') (hlegal : Legal d')
    (hexact : exact → ∀ id d₀, rules.conditions.Assume (.approval id) d₀ →
      ∀ b, Table.find id d₀.bookings = some b → b.status = .CONFIRMED) (id : String) :
    LifeStep exact (lifeOf id d) (lifeOf id d') := by
  cases h with
  | reserved b ids keys row tokens events hcreated hsold hclear hfirst hroot hd =>
    exact hcreated.life (f := fun x => { x with idempotencyKeyId := none })
      (fun _ => ⟨rfl, rfl, rfl⟩) (by rw [hd]) hlegal (by rw [hd]) (by rw [hd])
  | attached b sessionId bookings payments hassume hb hattaches hopens hpayment hd =>
    refine hattaches.life (by rw [hd]) (by rw [hd]) (by rw [hd])
  | confirmed input b f row token event payments hassume hmoves hhold hstatus hsession htoken
      hcaptures hpays hd => exact hmoves.life (by rw [hd]) (by rw [hd]) (by rw [hd])
  | failed input b f row event ids hassume hmoves hhold hstatus hsession hids hd =>
    exact hmoves.life (by rw [hd]) (by rw [hd]) (by rw [hd])
  | lapsing b f row event hmoves hhold hstatus hsession hd =>
    exact hmoves.life (by rw [hd]) (by rw [hd]) (by rw [hd])
  | released b f row sessionId hassume hmoves hhold hstatus hsession hended hd =>
    exact hmoves.life (by rw [hd]) (by rw [hd]) (by simp [hd])
  | ended b f row events refunds cancellations reschedules g h hmoves hstatus hends hsession hrefunds
      hcancellations hreschedules hcloses hd =>
    exact hmoves.life (by rw [hd]) (by rw [hd]) (by rw [hd])
  | replaced b created f canceled row requestId h revoked revoke token events hb hread hassume hpaid hid
      hterms hsession hstatus hhistory hcreated hsilent hsold hclear hconfirmed hreplaces hdecides hrevoke
      hsucceeds hd =>
    obtain ⟨d₀, happroval, hb₀⟩ := hread
    exact .of_replaced hb (fun he => hexact he _ d₀ happroval b hb₀) hid hterms hstatus hhistory
      hcreated hsilent (by rw [hd]) hlegal (by rw [hd]) (by rw [hd])
  | requested refunds events hallowed hrefunds hsilent hd =>
    exact .of_silent (by rw [hd]) (by rw [hd]) hsilent (by rw [hd])
  | settled input settledAt paymentId amountCents refunded current events hallowed hcurrent
      hrefunded hsilent hd => exact .of_silent (by rw [hd]) (by rw [hd]) hsilent (by rw [hd])
  | reminded bookingId tokens notifications events hassume hb htokens hnotifications hsilent hd =>
    exact .of_silent (by rw [hd]) (by rw [hd]) hsilent (by rw [hd])
  | _ =>
    rename_i hd
    exact .of_eq (by rw [hd]) (by simp [lifeOf, hd]) (by simp [lifeOf, hd])

end Life

/-- What a change does to the row of a booking: its status, and the session it names. -/
inductive RowStep (rules : BookingRules) (d d' : Db) (b b' : Booking) : Prop where
  | kept (hstatus : b'.status = b.status)
      (hsession : b'.stripeCheckoutSessionId = b.stripeCheckoutSessionId) : RowStep rules d d' b b'
  | attached (sessionId : String) (hassume : rules.conditions.Assume (.attachment b.id sessionId) d)
      (hnone : b.stripeCheckoutSessionId = none) (hunpaid : b.status ∈ UNPAID_BOOKING_STATUSES)
      (hstatus : b'.status = b.status) (hsession : b'.stripeCheckoutSessionId = some sessionId) :
      RowStep rules d d' b b'
  | confirmed (input : ConfirmPaidInput)
      (hassume : rules.conditions.Assume (.confirmation b.id input.chargeId) d)
      (hhold : Life.InHold b.status) (hstatus : b'.status = .CONFIRMED)
      (hsession : b'.stripeCheckoutSessionId = some input.sessionId)
      (hcaptures : rules.captures input.sessionId input.amountTotalCents)
      (hpays : Pays input b.id d.payments d'.payments) : RowStep rules d d' b b'
  | failed (hassume : rules.conditions.Assume (.failure b.id) d) (hhold : b.status = .PENDING_PAYMENT)
      (hstatus : b'.status = .PAYMENT_FAILED)
      (hsession : b'.stripeCheckoutSessionId = b.stripeCheckoutSessionId) : RowStep rules d d' b b'
  | lapsing (hhold : b.status = .PENDING_PAYMENT) (hstatus : b'.status = .EXPIRING)
      (hsession : b'.stripeCheckoutSessionId = b.stripeCheckoutSessionId) : RowStep rules d d' b b'
  | released (sessionId : Option String)
      (hassume : rules.conditions.Assume (.release b.id sessionId) d) (hhold : b.status = .EXPIRING)
      (hstatus : b'.status = .EXPIRED)
      (hsession : b'.stripeCheckoutSessionId = b.stripeCheckoutSessionId)
      (hended : ∀ id ∈ sessionId, b.stripeCheckoutSessionId = some id ∧ d.provider.Ended id) :
      RowStep rules d d' b b'
  | ended (hconfirmed : b.status = .CONFIRMED) (hends : b'.status ∈ ENDINGS)
      (hsession : b'.stripeCheckoutSessionId = b.stripeCheckoutSessionId) : RowStep rules d d' b b'
  | replaced (hpaid : b.status ∉ UNPAID_BOOKING_STATUSES) (hstatus : b'.status = .CANCELED_BY_BUSINESS)
      (hsession : b'.stripeCheckoutSessionId = b.stripeCheckoutSessionId) : RowStep rules d d' b b'

/-- What a change does to the session that a booking names. -/
inductive SessionStep (b b' : Booking) : Prop where
  | kept (hsession : b'.stripeCheckoutSessionId = b.stripeCheckoutSessionId)
      (hunpaid : b.status ∈ UNPAID_BOOKING_STATUSES → b'.status ∈ UNPAID_BOOKING_STATUSES)
  | attached (sessionId : String) (hnone : b.stripeCheckoutSessionId = none)
      (hunpaid : b.status ∈ UNPAID_BOOKING_STATUSES) (hstatus : b'.status = b.status)
      (hsession : b'.stripeCheckoutSessionId = some sessionId)
  | confirmed (sessionId : String) (hhold : Life.InHold b.status) (hstatus : b'.status = .CONFIRMED)
      (hsession : b'.stripeCheckoutSessionId = some sessionId)

section Rows

variable {rules : BookingRules} {d d' : Db} {id : String} {b b' : Booking}

/-- A change that leaves the bookings alone. -/
theorem RowStep.of_eq (hb : Table.find id d.bookings = some b)
    (hb' : Table.find id d'.bookings = some b') (h : d'.bookings = d.bookings) : RowStep rules d d' b b' := by
  rw [h, hb] at hb'
  cases hb'
  exact .kept rfl rfl

/-- A change of one booking. -/
theorem RowStep.of_update {x : Booking} {f : Booking → Booking} {t : List Booking}
    (hb : Table.find id d.bookings = some b) (hb' : Table.find id d'.bookings = some b')
    (hx : Table.find x.id d.bookings = some x) (hf : ∀ y, (f y).id = y.id)
    (ht : ∀ {i y}, Table.find i d.bookings = some y → Table.find i t = some y)
    (h : d'.bookings = Table.update [x.id] f t) (hstep : RowStep rules d d' x (f x)) :
    RowStep rules d d' b b' := by
  rw [h, Table.find_update hf, ht hb, Option.map_some, Option.some.injEq] at hb'
  by_cases hid : id = x.id
  · subst hid
    obtain rfl := Option.some.inj (hb.symm.trans hx)
    rw [if_pos (by simp)] at hb'
    exact hb' ▸ hstep
  · rw [if_neg (by simpa using hid)] at hb'
    subst hb'
    exact .kept rfl rfl

/-- A booking that is there stays, and what becomes of it is one of these steps. -/
theorem Change.row (h : Change rules d d') (hb : Table.find id d.bookings = some b)
    (hb' : Table.find id d'.bookings = some b') : RowStep rules d d' b b' := by
  cases h with
  | reserved x ids keys row tokens events hcreated hsold hclear hfirst hroot hd =>
    rw [hd] at hb'
    rw [Table.find_append, Table.find_update (by exact fun _ => rfl), hb, Option.map_some, Option.some_or] at hb'
    cases hb'
    split <;> exact .kept rfl rfl
  | attached x sessionId bookings payments hassume hx hattaches hopens hpayment hd =>
    have hbookings : d'.bookings = bookings := by rw [hd]
    cases hattaches with
    | again hsession => exact .of_eq hb hb' hbookings
    | first hnone hunpaid =>
      exact .of_update hb hb' hx (by exact fun _ => rfl) (fun h => h) hbookings
        (.attached sessionId hassume hnone hunpaid rfl rfl)
  | confirmed input x f row token event payments hassume hmoves hhold hstatus hsession htoken
      hcaptures hpays hd =>
    exact .of_update hb hb' hmoves.found hmoves.id (fun h => h) (by rw [hd])
      (.confirmed input hassume hhold hstatus hsession hcaptures (by rwa [hd]))
  | failed input x f row event ids hassume hmoves hhold hstatus hsession hids hd =>
    exact .of_update hb hb' hmoves.found hmoves.id (fun h => h) (by rw [hd])
      (.failed hassume hhold hstatus hsession)
  | lapsing x f row event hmoves hhold hstatus hsession hd =>
    exact .of_update hb hb' hmoves.found hmoves.id (fun h => h) (by rw [hd])
      (.lapsing hhold hstatus hsession)
  | released x f row sessionId hassume hmoves hhold hstatus hsession hended hd =>
    exact .of_update hb hb' hmoves.found hmoves.id (fun h => h) (by rw [hd])
      (.released sessionId hassume hhold hstatus hsession hended)
  | ended x f row events refunds cancellations reschedules g h hmoves hstatus hends hsession hrefunds
      hcancellations hreschedules hcloses hd =>
    exact .of_update hb hb' hmoves.found hmoves.id (fun h => h) (by rw [hd]) (.ended hstatus hends hsession)
  | replaced x created f canceled row requestId h revoked revoke token events hx hread hassume hpaid
      hid hterms hsession hstatus hhistory hcreated hsilent hsold hclear hconfirmed hreplaces hdecides
      hrevoke hsucceeds hd =>
    exact .of_update hb hb' hx hid Table.find_append_of_some (by rw [hd])
      (.replaced hpaid hstatus hsession)
  | _ =>
    rename_i hd
    exact .of_eq hb hb' (by rw [hd])

theorem RowStep.session (h : RowStep rules d d' b b') : SessionStep b b' := by
  cases h with
  | kept hstatus hsession => exact .kept hsession fun h => hstatus ▸ h
  | attached sessionId hassume hnone hunpaid hstatus hsession =>
    exact .attached sessionId hnone hunpaid hstatus hsession
  | confirmed input hassume hhold hstatus hsession =>
    exact .confirmed input.sessionId hhold hstatus hsession
  | failed hassume hhold hstatus hsession => exact .kept hsession fun _ => by simp [hstatus, UNPAID_BOOKING_STATUSES]
  | lapsing hhold hstatus hsession => exact .kept hsession fun _ => by simp [hstatus, UNPAID_BOOKING_STATUSES]
  | released sessionId hassume hhold hstatus hsession =>
    exact .kept hsession fun _ => by simp [hstatus, UNPAID_BOOKING_STATUSES]
  | ended hconfirmed hends hsession =>
    exact .kept hsession fun h => by simp [hconfirmed, UNPAID_BOOKING_STATUSES] at h
  | replaced hpaid hstatus hsession => exact .kept hsession fun h => absurd h hpaid

theorem Change.session (h : Change rules d d') (hb : Table.find id d.bookings = some b)
    (hb' : Table.find id d'.bookings = some b') : SessionStep b b' :=
  (h.row hb hb').session

end Rows

/-- What a change does to a payment. -/
inductive PaymentStep (rules : BookingRules) (d : Db) (p : Payment) : Payment → Prop where
  | kept : PaymentStep rules d p p
  | paid (input : ConfirmPaidInput) (b : Booking) (hb : Table.find b.id d.bookings = some b)
      (hhold : Life.InHold b.status)
      (hassume : rules.conditions.Assume (.confirmation b.id input.chargeId) d)
      (hsession : p.stripeCheckoutSessionId = some input.sessionId)
      (hcaptures : rules.captures input.sessionId input.amountTotalCents) :
      PaymentStep rules d p (input.paid p)
  | failed (input : MarkPaymentFailedInput) (hpending : p.status = .PENDING) :
      PaymentStep rules d p (input.failed p)
  | settled (refunded : Int) (status : PaymentStatus) (hallowed : rules.refunds)
      (hstatus : rules.tracks → status ∈ RECEIVED_PAYMENT_STATUSES)
      (hrefunded : ∃ r ∈ d.refunds, r.paymentId = p.id) :
      PaymentStep rules d p (p.withTotals refunded status)

/-- A payment that a change opens or takes: on a booking that names a session already, or was not
paid for. -/
inductive NewPayment (rules : BookingRules) (d : Db) : Payment → Prop where
  | opened (p : Payment) (hpending : p.status = .PENDING) (hcharge : p.stripeChargeId = none)
      (b : Booking) (hb : Table.find b.id d.bookings = some b) (hbooking : p.bookingId = b.id)
      (hpayable : b.stripeCheckoutSessionId ≠ none ∨ b.status ∈ UNPAID_BOOKING_STATUSES) :
      NewPayment rules d p
  | paid (input : ConfirmPaidInput) (b : Booking) (p : Payment)
      (hb : Table.find b.id d.bookings = some b) (hhold : Life.InHold b.status)
      (hassume : rules.conditions.Assume (.confirmation b.id input.chargeId) d)
      (hsession : p.stripeCheckoutSessionId = some input.sessionId)
      (hcaptures : rules.captures input.sessionId input.amountTotalCents) (hbooking : p.bookingId = b.id) :
      NewPayment rules d (input.paid p)

section Payments

variable {rules : BookingRules} {d d' : Db} {id : String} {p p' : Payment}

/-- What stays of a payment. -/
theorem PaymentStep.stays (h : PaymentStep rules d p p') : p'.bookingId = p.bookingId ∧
    p'.stripeCheckoutSessionId = p.stripeCheckoutSessionId ∧
    p'.stripeAccountId = p.stripeAccountId := by
  cases h <;> exact ⟨rfl, rfl, rfl⟩

/-- A settlement leaves a payment received. -/
theorem paymentStatusFor_received {amountCents refundedCents : Int} {current : PaymentStatus}
    (h : current ∈ RECEIVED_PAYMENT_STATUSES) :
    paymentStatusFor amountCents refundedCents current ∈ RECEIVED_PAYMENT_STATUSES := by
  unfold paymentStatusFor
  split
  · split
    · exact h
    · decide
  · split <;> decide

/-- Payments stay, and what becomes of one is one of these steps. -/
theorem Change.payment (h : Change rules d d') (hp : Table.find id d.payments = some p) :
    ∃ p', Table.find id d'.payments = some p' ∧ PaymentStep rules d p p' := by
  have hkept : d'.payments = d.payments →
      ∃ p', Table.find id d'.payments = some p' ∧ PaymentStep rules d p p' :=
    fun he => ⟨p, by rw [he]; exact hp, .kept⟩
  -- an update of some rows makes the step where it reaches the row
  have hupdate : ∀ (ids : List String) (f : Payment → Payment), (∀ q, Keyed.key (f q) = Keyed.key q) →
      d'.payments = Table.update ids f d.payments → (id ∈ ids → PaymentStep rules d p (f p)) →
      ∃ p', Table.find id d'.payments = some p' ∧ PaymentStep rules d p p' := by
    intro ids f hf he hstep
    rw [he, Table.find_update hf, hp]
    refine ⟨_, rfl, ?_⟩
    split
    · exact hstep ‹_›
    · exact .kept
  cases h with
  | attached b sessionId bookings payments hassume hb hattaches hopens hpayment hd =>
    have hpayments : d'.payments = payments := by rw [hd]
    cases hopens with
    | again => exact hkept hpayments
    | first q => exact ⟨p, by rw [hpayments]; exact Table.find_append_of_some hp, .kept⟩
  | confirmed input b f row token event payments hassume hmoves hhold hstatus hsession htoken
      hcaptures hpays hd =>
    have hpayments : d'.payments = payments := by rw [hd]
    cases hpays with
    | known q hq hqsession =>
      refine hupdate [q.id] input.paid (fun _ => rfl) hpayments fun hid => ?_
      rw [List.mem_singleton.mp hid, hq, Option.some.injEq] at hp
      exact hp ▸ .paid input b hmoves.found hhold hassume hqsession hcaptures
    | new q => exact ⟨p, by rw [hpayments]; exact Table.find_append_of_some hp, .kept⟩
  | failed input b f row event ids hassume hmoves hhold hstatus hsession hids hd =>
    refine hupdate ids input.failed (fun _ => rfl) (by rw [hd]) fun hid => ?_
    obtain ⟨q, hq, hpending⟩ := hids id hid
    exact .failed input (Option.some.inj (hp.symm.trans hq) ▸ hpending)
  | settled input settledAt paymentId amountCents refunded current events hallowed hcurrent
      hrefunded hsilent hd =>
    refine hupdate [paymentId] _ (key_withTotals _ _) (by rw [hd]) fun hid => ?_
    obtain ⟨r, hr, hpay⟩ := hrefunded
    have hkey : p.id = id := Table.key_of_find hp
    refine .settled refunded _ hallowed (fun ht => paymentStatusFor_received (hcurrent ht)) ⟨r, hr, ?_⟩
    rw [hpay, hkey, List.mem_singleton.mp hid]
  | _ =>
    rename_i hd
    exact hkept (by rw [hd])

/-- A payment that was not there is a new one. -/
theorem Change.new_payment (h : Change rules d d') (hp' : p' ∈ d'.payments)
    (hnew : ∀ q ∈ d.payments, q.id ≠ p'.id) : NewPayment rules d p' := by
  have hupdate : ∀ {t : List Payment} {ids : List String} {f : Payment → Payment},
      (∀ q, (f q).id = q.id) → t = Table.update ids f d.payments → p' ∉ t := by
    intro t ids f hf ht hmem
    obtain ⟨q, hq, rfl⟩ := Table.mem_update.mp (ht ▸ hmem)
    refine hnew q hq ?_
    split
    · exact (hf q).symm
    · rfl
  cases h with
  | attached b sessionId bookings payments hassume hb hattaches hopens hpayment hd =>
    replace hp' : p' ∈ payments := by rwa [hd] at hp'
    cases hopens with
    | again => exact absurd rfl (hnew p' hp')
    | first q hpending hcharge hsession hbooking =>
      rcases List.mem_append.mp hp' with hold | hlast
      · exact absurd rfl (hnew p' hold)
      · refine List.mem_singleton.mp hlast ▸ .opened q hpending hcharge b hb hbooking ?_
        cases hattaches with
        | again hnamed => exact .inl (by rw [hnamed]; exact Option.some_ne_none _)
        | first hnone hunpaid => exact .inr hunpaid
  | confirmed input b f row token event payments hassume hmoves hhold hstatus hsession htoken
      hcaptures hpays hd =>
    replace hp' : p' ∈ payments := by rwa [hd] at hp'
    cases hpays with
    | known q hq hqsession => exact absurd hp' (hupdate (f := input.paid) (fun _ => rfl) rfl)
    | new q hbooking hqsession =>
      rcases List.mem_append.mp hp' with hold | hlast
      · exact absurd rfl (hnew p' hold)
      · exact List.mem_singleton.mp hlast ▸
          .paid input b q hmoves.found hhold hassume hqsession hcaptures hbooking
  | failed input b f row event ids hassume hmoves hhold hstatus hsession hids hd =>
    exact absurd hp' (hupdate (f := input.failed) (fun _ => rfl) (by rw [hd]))
  | settled input settledAt paymentId amountCents refunded current events hallowed hcurrent
      hrefunded hsilent hd => exact absurd hp' (hupdate (key_withTotals _ _) (by rw [hd]))
  | _ =>
    rename_i hd
    replace hp' : p' ∈ d.payments := by rwa [hd] at hp'
    exact absurd rfl (hnew p' hp')

end Payments

/-- A booking that a change creates. -/
inductive NewBooking (rules : BookingRules) (d d' : Db) (b : Booking) : Prop where
  | reserved (hstatus : canTransition none b.status = true) (hsold : b.sold.Valid)
      (hclear : rules.Vacant b d) (hfirst : b.rescheduledFromBookingId = none)
      (hsession : b.stripeCheckoutSessionId = none) (hroot : b.financialRootBookingId = none)
  | replaced (old : Booking) (hold : Table.find old.id d.bookings = some old)
      (hread : ∃ d₀, rules.conditions.Assume (.approval old.id) d₀ ∧
        Table.find old.id d₀.bookings = some old)
      (hcanceled : ∃ old', Table.find old.id d'.bookings = some old' ∧ old'.status = .CANCELED_BY_BUSINESS)
      (hconfirmed : b.status = .CONFIRMED) (hsold : b.sold = old.sold)
      (hclear : rules.Vacant b d) (hreplaces : b.rescheduledFromBookingId = some old.id)
      (hsession : b.stripeCheckoutSessionId = none)
      (hlinks : ∃ requestId revoked,
        rules.conditions.Assume (.leaving old.id (some (.rescheduleRequest requestId)) revoked) d ∧
        ∀ t ∈ d'.managementTokens, t.bookingId = old.id → t.revokedAt = none →
          t ∈ d.managementTokens ∧ t.tokenHash ∉ revoked)
      (hsucceeds : b.Succeeds old)

/-- Where a refund comes from. -/
inductive RefundStep (rules : BookingRules) (d d' : Db) (r' : Refund) : Prop where
  | kept (r : Refund) (hr : r ∈ d.refunds) (hbooking : r'.bookingId = r.bookingId)
      (hpayment : r'.paymentId = r.paymentId) : RefundStep rules d d' r'
  | canceled (b b' : Booking) (hb : Table.find b.id d.bookings = some b) (hstatus : b.status = .CONFIRMED)
      (hb' : Table.find b.id d'.bookings = some b') (hends : b'.status ∈ ENDINGS)
      (hbooking : r'.bookingId = b.id) (hreserved : RefundReserved r' d)
      (hold : ∀ x ∈ d'.bookings, Table.find x.id d.bookings ≠ none) : RefundStep rules d d' r'
  | requested (hallowed : rules.refunds) (hreserved : RefundReserved r' d) : RefundStep rules d d' r'

section New

variable {rules : BookingRules} {d d' : Db}

/-- A booking that was not there is a new one. -/
theorem Change.new_booking {b' : Booking} (h : Change rules d d') (hb' : b' ∈ d'.bookings)
    (hnew : Table.find b'.id d.bookings = none) : NewBooking rules d d' b' := by
  have hupdate : ∀ {t : List Booking} {ids : List String} {f : Booking → Booking},
      (∀ b, (f b).id = b.id) → t = Table.update ids f d.bookings → b' ∉ t := by
    intro t ids f hf ht hmem
    obtain ⟨b, hb, rfl⟩ := Table.mem_update.mp (ht ▸ hmem)
    have hid : (if Keyed.key b ∈ ids then f b else b).id = b.id := by
      split
      · exact hf b
      · rfl
    rw [hid] at hnew
    exact Table.find_eq_none.mp hnew b hb rfl
  cases h with
  | reserved b ids keys row tokens events hcreated hsold hclear hfirst hroot hd =>
    replace hb' : b' ∈ Table.update ids (fun x => { x with idempotencyKeyId := none }) d.bookings ++ [b] := by
      rwa [hd] at hb'
    rcases List.mem_append.mp hb' with hold | hlast
    · exact absurd hold (hupdate (by exact fun _ => rfl) rfl)
    · exact List.mem_singleton.mp hlast ▸
        .reserved hcreated.status hsold hclear hfirst hcreated.session hroot
  | attached b sessionId bookings payments hassume hb hattaches hopens hpayment hd =>
    replace hb' : b' ∈ bookings := by rwa [hd] at hb'
    cases hattaches with
    | again hsession => exact absurd rfl (Table.find_eq_none.mp hnew b' hb')
    | first hnone hunpaid => exact absurd hb' (hupdate (by exact fun _ => rfl) rfl)
  | confirmed input b f row token event payments hassume hmoves hhold hstatus hsession htoken
      hcaptures hpays hd => exact absurd hb' (hupdate hmoves.id (by rw [hd]))
  | failed input b f row event ids hassume hmoves hhold hstatus hsession hids hd =>
    exact absurd hb' (hupdate hmoves.id (by rw [hd]))
  | lapsing b f row event hmoves hhold hstatus hsession hd =>
    exact absurd hb' (hupdate hmoves.id (by rw [hd]))
  | released b f row sessionId hassume hmoves hhold hstatus hsession hended hd =>
    exact absurd hb' (hupdate hmoves.id (by rw [hd]))
  | ended b f row events refunds cancellations reschedules g h hmoves hstatus hends hsession hrefunds
      hcancellations hreschedules hcloses hd => exact absurd hb' (hupdate hmoves.id (by rw [hd]))
  | replaced b created f canceled row requestId h revoked revoke token events hb hread hassume hpaid hid
      hterms hsession hstatus hhistory hcreated hsilent hsold hclear hconfirmed hreplaces hdecides hrevoke
      hsucceeds hd =>
    have hbookings : d'.bookings = Table.update [b.id] f (d.bookings ++ [created]) := by rw [hd]
    have hcanceled : Table.find b.id d'.bookings = some (f b) := by
      rw [hbookings, Table.find_update_of_mem hid (by simp), Table.find_append_of_some hb]
      rfl
    rw [hbookings] at hb'
    obtain ⟨x, hx, rfl⟩ := Table.mem_update.mp hb'
    by_cases hkey : Keyed.key x ∈ [b.id]
    · have hxid : x.id = b.id := List.mem_singleton.mp hkey
      rw [if_pos hkey, hid, hxid, hb] at hnew
      cases hnew
    · rw [if_neg hkey] at hnew ⊢
      rcases List.mem_append.mp hx with hold | hlast
      · exact absurd rfl (Table.find_eq_none.mp hnew x hold)
      · obtain rfl := List.mem_singleton.mp hlast
        refine .replaced b hb hread ⟨f b, hcanceled, hstatus⟩ hconfirmed hsold hclear hreplaces
          hcreated.session ⟨requestId, revoked, hassume, fun t ht hid' hlive => ?_⟩ hsucceeds
        rw [hd] at ht
        rcases List.mem_append.mp ht with ht | ht
        · obtain ⟨t₀, ht₀, rfl⟩ := Table.mem_update.mp ht
          split at hlive
          · exact absurd hlive (hrevoke t₀)
          · rename_i hkept
            rw [if_neg hkept]
            exact ⟨ht₀, hkept⟩
        · refine absurd ?_ hkey
          rw [← hid', hcreated.tokens t ht]
          exact List.mem_singleton_self _
  | _ =>
    rename_i hd
    replace hb' : b' ∈ d.bookings := by rwa [hd] at hb'
    exact absurd rfl (Table.find_eq_none.mp hnew b' hb')

/-- Manual payments stay, and a new one is recorded on a financial root. -/
theorem Change.manualPayments (h : Change rules d d') : RecordsManual d'.manualPayments d := by
  cases h with
  | quiet keys notes time manualPayments hmanual hd =>
    rw [hd]
    exact hmanual
  | _ =>
    rename_i hd
    rw [hd]
    exact fun m hm => .inl hm

/-- A refund was there, or it is reserved now. -/
theorem Change.refund {r' : Refund} (h : Change rules d d') (hr' : r' ∈ d'.refunds) :
    RefundStep rules d d' r' := by
  have hold : r' ∈ d.refunds → RefundStep rules d d' r' := fun hr => .kept r' hr rfl rfl
  cases h with
  | ended b f row events refunds cancellations reschedules g h hmoves hstatus hends hsession hrefunds
      hcancellations hreschedules hcloses hd =>
    replace hr' : r' ∈ d.refunds ++ refunds := by rwa [hd] at hr'
    rcases List.mem_append.mp hr' with hr | hnew
    · exact hold hr
    · have hafter : Table.find b.id d'.bookings = some (f b) := by
        rw [hd, Table.find_update_of_mem hmoves.id (by simp), hmoves.found]
        rfl
      refine .canceled b (f b) hmoves.found hstatus hafter hends (hrefunds r' hnew).1 (hrefunds r' hnew).2
        fun x hx hnone => ?_
      rw [hd] at hx
      obtain ⟨x₀, hx₀, rfl⟩ := Table.mem_update.mp hx
      refine Table.find_eq_none.mp hnone x₀ hx₀ ?_
      split
      · exact (hmoves.id x₀).symm
      · rfl
  | requested refunds events hallowed hrefunds hsilent hd =>
    replace hr' : r' ∈ d.refunds ++ refunds := by rwa [hd] at hr'
    rcases List.mem_append.mp hr' with hr | hnew
    · exact hold hr
    · exact .requested hallowed (hrefunds r' hnew)
  | settled input settledAt paymentId amountCents refunded current events hallowed hcurrent
      hrefunded hsilent hd =>
    rw [hd] at hr'
    obtain ⟨r, hr, rfl⟩ := Table.mem_update.mp hr'
    refine .kept r hr ?_ ?_ <;> split <;> rfl
  | _ =>
    rename_i hd
    exact hold (by rwa [hd] at hr')

end New

end BookingApp

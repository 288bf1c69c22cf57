import BookingApp.ReadCommitted.Logic
import BookingApp.Store.Constraints

/-!
# Transactions on the schema

The schema as a READ COMMITTED store: its locks, the labels its statements carry,
what the clock, the id generators and the payment provider answer, and the
statements of the services in the form the client library issues them.
-/

set_option autoImplicit false

namespace BookingApp

open ReadCommitted

/-- Row locks, and the advisory lock of an employee's calendar. -/
inductive Lock where
  | booking (id : String)
  | payment (id : String)
  | refund (id : String)
  | cancellationRequest (id : String)
  | rescheduleRequest (id : String)
  | idempotencyKey (id : String)
  | stripeEvent (id : String)
  | timeOff (id : String)
  | managementToken (hash : String)
  | employee (id : String)
  | service (id : String)
  | employeeService (employeeId serviceId : String)
  | calendar (employeeId : String)
  deriving DecidableEq, Repr

/-- Who settles a refund: a caller that was told of it, or the one whose call the provider has
just accepted, with that many further attempts at the settlement left. -/
inductive Site where
  | reported
  | accepted (left : Nat)
  deriving DecidableEq, Repr

/-- What an attempt does to the row of its idempotency key, or under the protection of it. A
completion keeps the row until `expiresAt`. -/
inductive KeyOperation where
  | takeover
  | completion (expiresAt : Int)
  | abandonment
  | effect
  deriving DecidableEq, Repr

/-- What the office retires: an employee, a service, or an employee's links to services. -/
inductive Retired where
  | employee (id : String)
  | service (id : String)
  | links (employeeId : String) (serviceIds : List String)
  deriving DecidableEq, Repr

/-- The statements a condition on a run can be about: those of a settlement, among them the one
that writes the totals of a payment; the one with which an approval cancels the original; the
commit of an operation that ends a booking, having decided the request `own` if there is one and
revoked these links; the commits of what becomes of a hold and its checkout session; the commit
of a reminder; the commit of an employee's leave, with the row it writes, and whether it has looked
for appointments; the commit of a reservation under a key that was found to be bound to that booking;
the commits of an attempt at an idempotency key, and those of the sweep over the keys; those of a
retirement once it has looked for appointments, and its commit where it has locked the calendars. -/
inductive Point where
  | idle
  | plain
  | settlement (site : Site)
  | totals (site : Site) (paymentId : String)
  | approval (bookingId : String)
  | leaving (bookingId : String) (own : Option Lock) (revoked : List String)
  | confirmation (bookingId : String) (chargeId : Option String)
  | failure (bookingId : String)
  | release (bookingId : String) (sessionId : Option String)
  | attachment (bookingId sessionId : String)
  | reminder (bookingId : String)
  | leave (row : TimeOff) (checked : Bool)
  | reservation (key : String) (bound : Option String)
  | keyed (operation : KeyOperation) (attempt : Nat) (key scope requestHash : String)
  | keySweep (ids : List String)
  | retirement (organizationId : String) (retired : Retired) (locked : Bool)
  deriving DecidableEq, Repr

/-- What the surroundings answer: the time, a fresh id, random text, and which of its answers a
call of the provider gets. -/
structure Answer where
  now : Int := 0
  id : String := ""
  random : String := ""
  choice : Nat := 0
  deriving DecidableEq, Repr

abbrev store : Store where
  Db := Db
  Lock := Lock
  Point := Point
  Err := Failure
  Answer := Answer
  idle := .idle
  legal d := decide (Legal d)
  decLock := inferInstance

abbrev Tx : Type → Type := Code store

section Statements

variable {α : Type}

/-- A plain read. -/
def read (f : Db → α) : Tx α :=
  select (S := store) .plain f

/-- A read outside of every transaction, which sees nothing but what has committed. -/
def query (f : Db → α) : Tx α :=
  .reset (read f)

/-- A read that locks rows. -/
def readForUpdate (rows : Db → List Lock) (f : Db → α) : Tx α :=
  selectForUpdate (S := store) .plain rows f

/-- An `INSERT`, at the statement labelled `p`. -/
def insertAt (p : Point) (change : Db → Db) : Tx Unit :=
  modify (S := store) p (fun _ => []) (fun _ => change) fun _ => ()

def insert : (Db → Db) → Tx Unit :=
  insertAt .plain

/-- `this.clock.now()`, where nothing depends on how the answers of several clients relate. -/
def now : Tx Int :=
  Answer.now <$> answer

/-- `this.clock.now()`, for the clients that share the clock. -/
def clockNow : Tx Int :=
  Db.clock <$> Code.call (S := store) id .ret

/-- A fresh id. -/
def freshId : Tx String :=
  Answer.id <$> answer

/-- The value of a computation that can fail. -/
def ofExcept : Except Failure α → Tx α
  | .ok a => pure a
  | .error e => throw e

/-- The row, which has to be there. -/
def orThrow (row : Option α) : Tx α :=
  match row with
  | some a => pure a
  | none => throw recordNotFound

def throwApp (code message : String) : Tx α :=
  throw (.app { code, message })

/-- An `UPDATE` of the booking `id`, at the statement labelled `p`. -/
def updateBookingAt (p : Point) (id : String) (f : Booking → Booking) : Tx Booking := do
  let row ← modify (S := store) p (fun _ => [.booking id])
    (fun _ => Db.onBookings (Table.update [id] f))
    fun d => Table.find id d.bookings
  orThrow (row.map f)

def updateBooking : String → (Booking → Booking) → Tx Booking :=
  updateBookingAt .plain

/-- An `UPDATE` of the payment `id`, at the statement labelled `p`. -/
def updatePaymentAt (p : Point) (id : String) (f : Payment → Payment) : Tx Payment := do
  let row ← modify (S := store) p (fun _ => [.payment id])
    (fun _ => Db.onPayments (Table.update [id] f))
    fun d => Table.find id d.payments
  orThrow (row.map f)

/-- `OutboxRecorder.record`, at the statement labelled `p`. -/
def recordOutboxAt (p : Point) (event : OutboxEvent) : Tx Unit :=
  insertAt p (Db.onOutbox (· ++ [event]))

def recordOutbox : OutboxEvent → Tx Unit :=
  recordOutboxAt .plain

/-- `tx.bookingStatusHistory.create` -/
def recordHistory (row : BookingStatusHistory) : Tx Unit :=
  insert (Db.onHistory (· ++ [row]))

/-- Up to three attempts, as long as they end in a serialization failure or a deadlock. -/
def withSerializationRetry (operation : Nat → Tx α) : Tx α :=
  withRetry (S := store) isSerializationFailure 2 operation

end Statements

/-- `SELECT … FOR UPDATE` of one row, if it is there. -/
def lockRow {ρ : Type} (lock : ρ → Lock) (row : Db → Option ρ) : Tx (Option ρ) :=
  readForUpdate (fun d => (row d).toList.map lock) row

/-- `updateMany`: the rows that `ids` finds are locked and changed. -/
def updateMany (lock : String → Lock) (ids : Db → List String) (change : List String → Db → Db) :
    Tx Unit :=
  modify (S := store) .plain (fun view => (ids view).map lock) (fun view => change (ids view))
    fun _ => ()

/-- The row with this id, if it is the organization's. -/
def findIn {ρ : Type} [Keyed ρ String] (organizationOf : ρ → String) (organizationId id : String)
    (t : List ρ) : Option ρ :=
  (Table.find id t).filter fun r => decide (organizationOf r = organizationId)

structure CreateRefundInput where
  organizationId : String
  stripeAccountId : Option String
  chargeId : String
  amount : Money
  idempotencyKey : String
  deriving DecidableEq, Repr

structure RefundResult where
  refundId : String
  status : RefundStatusValue
  deriving DecidableEq, Repr

inductive ExpireResult where
  | EXPIRED
  | ALREADY_COMPLETE (paymentStatus : String)
  deriving DecidableEq, Repr

structure RetrievedSession where
  paymentIntentId : Option String
  chargeId : Option String
  amountTotalCents : Int
  paymentMethodType : Option String
  deriving DecidableEq, Repr

/-- The parameters of `checkout.sessions.create` and its request options. -/
structure CheckoutSessionRequest where
  mode : String := "payment"
  paymentMethodTypes : List String := ["card"]
  clientReferenceId : String
  customerEmail : String
  locale : Locale
  expiresAt : Int
  successUrl : String
  cancelUrl : String
  quantity : Nat := 1
  currency : String
  unitAmount : Int
  productName : String
  metadata : List (String × String)
  paymentIntentMetadata : List (String × String)
  stripeContext : Option String
  idempotencyKey : Option String
  deriving DecidableEq, Repr

/-- The session is not payable any more. -/
def ProviderState.closeSession (id : String) (s : ProviderState) : ProviderState :=
  { s with sessions := Table.update [id] (fun session => { session with payable := false }) s.sessions }

/-- The provider knows the session with this id, and it is not payable any more. -/
structure ProviderState.Ended (s : ProviderState) (id : String) : Prop where
  known : ∃ session ∈ s.sessions, session.id = id
  closed : ∀ session ∈ s.sessions, session.id = id → session.payable = false

/-- What the provider does with the request for a session: it opens one (and its answer may be
lost on the way), answers with the one it knows by the key, or fails. -/
inductive CreateSessionOutcome (request : CheckoutSessionRequest) (state : ProviderState) :
    ProviderState → Except Failure String → Prop where
  | opened (id : String) (result : Except Failure String)
      (hid : ∀ session ∈ state.sessions, session.id ≠ id)
      (hresult : result = .ok id ∨ ∃ e, result = .error e) :
      CreateSessionOutcome request state
        { state with sessions := state.sessions ++
          [{ id, idempotencyKey := request.idempotencyKey, payable := true }] } result
  | replayed (session : ProviderSession) (hsession : session ∈ state.sessions)
      (hkey : request.idempotencyKey ≠ none) (hsame : session.idempotencyKey = request.idempotencyKey) :
      CreateSessionOutcome request state state (.ok session.id)
  | failed (e : Failure) : CreateSessionOutcome request state state (.error e)

/-- What the provider does when asked to expire a session: it does (and its answer may be lost), it
says that the session is complete, or it fails. -/
inductive ExpireSessionOutcome (sessionId : String) (state : ProviderState) :
    ProviderState → Except Failure ExpireResult → Prop where
  | expired (result : Except Failure ExpireResult)
      (hknown : ∃ session ∈ state.sessions, session.id = sessionId)
      (hresult : result = .ok .EXPIRED ∨ ∃ e, result = .error e) :
      ExpireSessionOutcome sessionId state (state.closeSession sessionId) result
  | complete (paymentStatus : String) (hended : state.Ended sessionId) :
      ExpireSessionOutcome sessionId state state (.ok (.ALREADY_COMPLETE paymentStatus))
  | failed (e : Failure) : ExpireSessionOutcome sessionId state state (.error e)

/-- What the provider does with the request for a refund: it accepts it (and its answer may be
lost on the way), answers as it did before for a key it knows, refuses it for good, or is not
reached. A key is refused or accepted once and for all. -/
inductive CreateRefundOutcome (input : CreateRefundInput) (state : ProviderState) :
    ProviderState → Except Failure RefundResult → Prop where
  | accepted (id : String) (status : RefundStatusValue) (result : Except Failure RefundResult)
      (hkey : ∀ r ∈ state.refunds, r.idempotencyKey ≠ some input.idempotencyKey)
      (hid : ∀ r ∈ state.refunds, r.id ≠ id) (hopen : input.idempotencyKey ∉ state.refused)
      (hresult : result = .ok { refundId := id, status } ∨
        ∃ e, result = .error e ∧ isRetryableStripeError e = true) :
      CreateRefundOutcome input state
        { state with refunds := state.refunds ++
          [{ id, idempotencyKey := some input.idempotencyKey, reported := [status] }] } result
  | replayed (r : ProviderRefund) (status : RefundStatusValue) (hr : r ∈ state.refunds)
      (hkey : r.idempotencyKey = some input.idempotencyKey) (hstatus : status ∈ r.reported) :
      CreateRefundOutcome input state state (.ok { refundId := r.id, status })
  | refused (e : Failure) (he : isRetryableStripeError e = false)
      (hkey : ∀ r ∈ state.refunds, r.idempotencyKey ≠ some input.idempotencyKey) :
      CreateRefundOutcome input state
        { state with refused := input.idempotencyKey :: state.refused } (.error e)
  | unreached (e : Failure) (he : isRetryableStripeError e = true) :
      CreateRefundOutcome input state state (.error e)

/-- The payment provider. Which of its answers a call gets is not the caller's to choose. -/
structure PaymentProvider where
  createRefund : CreateRefundInput → Nat → ProviderState → ProviderState × Except Failure RefundResult
  createRefund_outcome : ∀ input choice state, CreateRefundOutcome input state
    (createRefund input choice state).1 (createRefund input choice state).2
  createCheckoutSession : CheckoutSessionRequest → Nat → ProviderState →
    ProviderState × Except Failure String
  createCheckoutSession_outcome : ∀ request choice state, CreateSessionOutcome request state
    (createCheckoutSession request choice state).1 (createCheckoutSession request choice state).2
  expireCheckoutSession : Option String → String → Nat → ProviderState →
    ProviderState × Except Failure ExpireResult
  expireCheckoutSession_outcome : ∀ stripeAccountId sessionId choice state,
    ExpireSessionOutcome sessionId state
      (expireCheckoutSession stripeAccountId sessionId choice state).1
      (expireCheckoutSession stripeAccountId sessionId choice state).2
  retrieveCheckoutSession : Option String → String → Nat → Except Failure RetrievedSession
  /-- What a session captures once it is paid. -/
  amountTotal : String → Int
  retrieve_amountTotal : ∀ stripeAccountId sessionId choice session,
    retrieveCheckoutSession stripeAccountId sessionId choice = .ok session →
      session.amountTotalCents = amountTotal sessionId

/-- A provider that accepts every new key of a refund and is not reached about the ones it knows.
It opens a session for every key it does not know, and expires the sessions that are payable. -/
def PaymentProvider.willing : PaymentProvider where
  createRefund input _ state :=
    if input.idempotencyKey ∉ state.refused ∧ ∀ r ∈ state.refunds,
        r.idempotencyKey ≠ some input.idempotencyKey ∧ r.id ≠ input.idempotencyKey then
      ({ state with refunds := state.refunds ++ [{
          id := input.idempotencyKey, idempotencyKey := some input.idempotencyKey
          reported := [.succeeded] }] },
        .ok { refundId := input.idempotencyKey, status := .succeeded })
    else (state, .error (.stripe .StripeConnectionError "connection error"))
  createRefund_outcome input _ state := by
    split
    · rename_i h
      exact .accepted _ _ _ (fun r hr => (h.2 r hr).1) (fun r hr => (h.2 r hr).2) h.1 (.inl rfl)
    · exact .unreached _ rfl
  createCheckoutSession request _ state :=
    let id := request.idempotencyKey.getD ""
    if ∀ session ∈ state.sessions, session.id ≠ id then
      ({ state with sessions := state.sessions ++
          [{ id, idempotencyKey := request.idempotencyKey, payable := true }] }, .ok id)
    else (state, .error (.stripe .StripeConnectionError "connection error"))
  createCheckoutSession_outcome request _ state := by
    dsimp only
    split
    · exact .opened _ _ ‹_› (.inl rfl)
    · exact .failed _
  expireCheckoutSession _ sessionId _ state :=
    if (Table.find sessionId state.sessions).any ProviderSession.payable then
      (state.closeSession sessionId, .ok .EXPIRED)
    else (state, .error (.stripe .StripeInvalidRequestError "not open"))
  expireCheckoutSession_outcome _ sessionId _ state := by
    split
    · rename_i h
      obtain ⟨session, hfind, -⟩ := (Option.any_eq_true _ _).mp h
      exact .expired _ ⟨session, Table.mem_of_find hfind, Table.key_of_find hfind⟩ (.inl rfl)
    · exact .failed _
  retrieveCheckoutSession _ sessionId _ := .ok {
    paymentIntentId := some ("pi_" ++ sessionId), chargeId := some ("ch_" ++ sessionId)
    amountTotalCents := 100, paymentMethodType := none }
  amountTotal _ := 100
  retrieve_amountTotal _ _ _ _ h := by cases h; rfl

/-- A call of the provider: its answer, and what it remembers afterwards. -/
def callProvider {α : Type} (call : Nat → ProviderState → ProviderState × Except Failure α) : Tx α := do
  let choice := (← answer).choice
  let before : Db ← Code.call (S := store) (Db.onProvider fun state => (call choice state).1) .ret
  ofExcept (call choice before.provider).2

structure OrganizationSettings where
  availability : AvailabilitySettings
  reservationTtlMinutes : Int
  cancellationFees : CancellationFeeSettings
  reminderOffsetsMinutes : List Int := []
  smsRemindersEnabled : Bool := false
  deriving DecidableEq, Repr

/-- What a request or a job runs with: the organization it was resolved to, the provider, and
the hash that management tokens are stored under. -/
structure Api where
  organizationId : String
  timezone : Zone
  settings : OrganizationSettings
  payments : PaymentProvider
  hashManagementToken : String → String

/-- An organization "o" in the zone UTC, with a fee-free cancellation at any time. -/
def Api.sample : Api where
  organizationId := "o"
  timezone := .utc
  settings := {
    availability := {
      schedulingIntervalMinutes := 30, minimumNoticeHours := 0, bookingHorizonDays := 30 }
    reservationTtlMinutes := 15
    cancellationFees := {
      freeCancellationHours := 0, cancellationFeePolicy := .NONE
      cancellationFeeAmountCents := 0, cancellationFeePercent := 0 } }
  payments := .willing
  hashManagementToken token := token

/-- A confirmed booking of the employee "e" for an hour. -/
def Booking.sample : Booking where
  id := "b"
  organizationId := "o"
  reference := "R1"
  origin := .ONLINE
  customerId := "c"
  employeeId := "e"
  serviceId := "s"
  startsAt := 36000000
  endsAt := 39600000
  blockStartsAt := 36000000
  blockEndsAt := 39600000
  serviceNameSnapshot := "Cut"
  durationMinutesSnapshot := 60
  prepBufferMinutesSnapshot := 0
  cleanupBufferMinutesSnapshot := 0
  priceCentsSnapshot := 100
  currency := "EUR"
  status := .CONFIRMED
  locale := .en

/-- The employee "e", with the bookings given. -/
def Db.sample (bookings : List Booking) : Db where
  bookings
  employees := [{
    id := "e", organizationId := "o", displayName := "Eva", displayOrder := 0
    isBookableOnline := true }]

/-- `OrganizationContextService.require` -/
def Api.require (api : Api) (organizationId : String) : Tx Unit :=
  ensure (S := store) (api.organizationId = organizationId) (.app {
    code := "UNSCOPED_TENANT_QUERY", status := some 500,
    message := s!"A job for organization {organizationId} ran with {api.organizationId} in context. Resolve the organization from the job payload before calling tenant-scoped code.",
    details := [("expected", organizationId), ("resolved", api.organizationId)] })

end BookingApp

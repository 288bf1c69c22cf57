import BookingApp.Booking.Reminded
import BookingApp.Payment.Financials
import BookingApp.ReadCommitted.Adequacy

/-!
# Messages about bookings (`booking-event.processor.ts`, `request-notification.service.ts`)

The jobs of the outbox are delivered at least once, at any time and by any number of
workers. Each of them queues its messages in one transaction, under keys that are unique;
a message that is there stays, and is the only one of its kind. What is queued together
is there together, and a job that has come to its end has queued what it stands for.
-/

set_option autoImplicit false

namespace BookingApp.Messages

open ReadCommitted Erasure Encoding
open Sending (NotificationKind)

/-- The tables the messages are composed from. -/
structure Tables extends Books where
  customers : List Erasure.Customer
  offices : List (String × Office)
  refunds_pkey : (refunds.map fun r => r.id).Nodup
  bookings_customer_fkey : ∀ b ∈ bookings, ∃ c ∈ customers, c.id = b.customerId

/-- What the worker hands to `BookingEventProcessor`. -/
inductive Event where
  | confirmed (bookingId : String) (managementToken : Option String)
  | canceled (bookingId : String) (customerNotificationAlreadyQueued : Bool)
  | rescheduled (bookingId previousBookingId : String) (managementToken : Option String)
      (customerNotificationAlreadyQueued : Bool)
  | refundSucceeded (refundId : String)
  | paymentFailed (bookingId : String)
  deriving DecidableEq, Repr

structure Job where
  organizationId : String
  event : Event
  deriving DecidableEq, Repr

/-- The database, and the jobs that the queue has as completed. -/
structure Db where
  tables : Tables
  notifications : List Erasure.Notification := []
  outbox : List OutboxEvent := []
  completed : List Job := []

/-- What the unique index makes an insert wait for. -/
inductive Lock where
  | dedupeKey (key : String)
  deriving DecidableEq, Repr

/-- The surroundings answer with an id, the time, and what a call of another service ends in. -/
structure Answer where
  id : String := ""
  now : Int := 0
  failure : Option Failure := none

abbrev store : Store where
  Db := Db
  Lock := Lock
  Point := Unit
  Err := Failure
  Answer := Answer
  idle := ()
  legal d := decide (d.notifications.map Erasure.Notification.id).Nodup
  decLock := inferInstance

abbrev Tx : Type → Type := Code store

def Db.keys (d : Db) : List String :=
  d.notifications.map Erasure.Notification.dedupeKey

/-- A read outside of every transaction. -/
def query {α : Type} (f : Db → α) : Tx α :=
  .reset (select (S := store) () f)

/-! ## Queueing -/

def QueueInput.key (input : QueueInput) : String :=
  dedupeKey input.kind input.channel input.bookingId input.dedupeDiscriminator

/-- The row of a message. -/
def QueueInput.row (organizationId : String) (drawn : Answer) (input : QueueInput) : Erasure.Notification where
  id := drawn.id
  organizationId := organizationId
  bookingId := input.bookingId
  customerId := input.customerId
  kind := input.kind
  channel := input.channel
  locale := input.locale
  recipient := input.recipient
  dedupeKey := QueueInput.key input
  payload := .obj input.data
  createdAt := drawn.now
  updatedAt := drawn.now

/-- The event that has a notification sent. -/
def sendEvent (n : Erasure.Notification) : OutboxEvent where
  organizationId := n.organizationId
  aggregateType := "Notification"
  aggregateId := n.id
  eventType := .NOTIFICATION_SEND
  payload := [("organizationId", n.organizationId), ("notificationId", n.id)]

/-- `createManyAndReturn` with `skipDuplicates`: `ON CONFLICT DO NOTHING` waits for a transaction that
has inserted the key. -/
def insertNotification (row : Erasure.Notification) : Tx Bool :=
  modify (S := store) () (fun _ => [.dedupeKey row.dedupeKey])
    (fun view d => if row.dedupeKey ∈ view.keys then d
      else { d with notifications := d.notifications ++ [row] })
    fun view => decide (row.dedupeKey ∉ Db.keys view)

/-- `OutboxRecorder.record` -/
def recordOutbox (event : OutboxEvent) : Tx Unit :=
  modify (S := store) () (fun _ => []) (fun _ d => { d with outbox := d.outbox ++ [event] }) fun _ => ()

/-- `NotificationService.queue` -/
def queue (organizationId : String) (input : QueueInput) : Tx (Option String) := do
  let row := QueueInput.row organizationId (← answer) input
  if ← insertNotification row then
    recordOutbox (sendEvent row)
    return some row.id
  else return none

def queueAll (organizationId : String) : List QueueInput → Tx Unit
  | [] => pure ()
  | input :: rest => do
    discard (queue organizationId input)
    queueAll organizationId rest

/-! ## What the messages are composed from -/

structure BookingRow where
  booking : Booking
  customer : Erasure.Customer
  financials : BookingFinancials

/-- The booking and its customer. -/
def findBooking (organizationId bookingId : String) (d : Db) : Option (Booking × Erasure.Customer) := do
  let booking ← findIn Booking.organizationId organizationId bookingId d.tables.bookings
  let customer ← Table.find booking.customerId d.tables.customers
  return (booking, customer)

/-- `BookingNotificationData.load`, with the reads of the transaction or those of the root client. -/
def load (read : ∀ {α : Type}, (Db → α) → Tx α) (organizationId bookingId : String) : Tx (Option BookingRow) := do
  match ← read (findBooking organizationId bookingId) with
  | none => return none
  | some (booking, customer) =>
    match ← read fun d => BookingFinancialsService.load d.tables.toBooks organizationId bookingId with
    | .ok financials => return some { booking, customer, financials }
    | .error (.app e) => if e.code = "NOT_FOUND" then return none else throw (.app e)
    | .error e => throw e

/-- `receivedFrom` of what is on the root. -/
def BookingRow.paidTotal (row : BookingRow) : Except Failure Money :=
  row.financials.received row.booking.currency

/-- Money already returned or reserved as part of the cancellation promise. -/
def BookingRow.promisedRefunds (row : BookingRow) : Except Failure Money := do
  let amounts ← (row.financials.refunds.filter fun r => decide (r.status = .PENDING ∨ r.status = .SUCCEEDED)).mapM
    fun r => Money.fromCents r.amountCents row.booking.currency
  amounts.foldlM Money.plus (Money.zero row.booking.currency)

/-! ## The messages of an event -/

/-- A message to the customer about their booking. -/
def toCustomer (office : Office) (row : BookingRow) (kind : NotificationKind)
    (data : List (String × Json String)) (discriminator : Option String := none) : QueueInput where
  kind := kind
  channel := .EMAIL
  locale := row.booking.locale
  recipient := row.customer.email
  bookingId := some row.booking.id
  customerId := some row.customer.id
  dedupeDiscriminator := discriminator
  data := appointmentData office row.booking row.customer ++ data

def canceledMessages (office : Office) (row : BookingRow) : Except Failure QueueInput := do
  let refunded ← row.promisedRefunds
  if row.booking.status = .CANCELED_BY_BUSINESS then
    return toCustomer office row .BOOKING_CANCELED_BY_BUSINESS
      [("reasonCode", .str "SEE_MESSAGE"), ("refundedCents", .num refunded.amountCents)]
  else
    let retained ← (← row.paidTotal).minus refunded
    return toCustomer office row .BOOKING_CANCELED_BY_CUSTOMER
      [("refundedCents", .num refunded.amountCents), ("retainedCents", .num retained.amountCents)]

def rescheduledMessage (office : Office) (managementToken : Option String) (row previous : BookingRow) : QueueInput :=
  toCustomer office row .BOOKING_RESCHEDULED
    [("manageUrl", .str (manageUrl office managementToken)), ("previousStartsAt", isoText previous.booking.startsAt)]

/-- The id of the refund tells the messages of two partial refunds apart. -/
def refundMessage (office : Office) (row : BookingRow) (refund : RefundRow) : QueueInput :=
  toCustomer office row .REFUND_ISSUED [("refundedCents", .num refund.amountCents)] (some refund.id)

def paymentFailedMessage (office : Office) (row : BookingRow) : QueueInput :=
  toCustomer office row .BOOKING_CANCELED_BY_BUSINESS
    [("reasonCode", .str "PAYMENT_FAILED"), ("refundedCents", .num 0)]

/-- The messages of one event, in one transaction. -/
def notify (organizationId : String) (messages : List QueueInput) : Tx Unit :=
  withRetry isSerializationFailure 2 fun _ => transaction (S := store) () (queueAll organizationId messages)

/-- `ReminderService.schedule` and `cancelFor`, which change the queue of reminders only. -/
def reminders : Tx Unit := do
  match (← answer).failure with
  | none => pure ()
  | some e => throw e

/-- `runWithOrganization` -/
def runWithOrganization (organizationId : String) (fn : Office → Tx Unit) : Tx Unit := do
  match ← query fun d => d.tables.offices.lookup organizationId with
  | none => throw recordNotFound
  | some office => fn office

section Processor

variable (organizationId : String)

def confirmed (bookingId : String) (managementToken : Option String) : Tx Unit :=
  runWithOrganization organizationId fun office => do
    match ← load query organizationId bookingId with
    | none => pure ()
    | some row => do
      notify row.booking.organizationId
        ((confirmedMessages office managementToken row.booking row.customer).map Prod.snd)
      reminders

def canceled (bookingId : String) (customerNotificationAlreadyQueued : Bool) : Tx Unit :=
  runWithOrganization organizationId fun office => do
    if customerNotificationAlreadyQueued then reminders
    else
      match ← load query organizationId bookingId with
      | none => pure ()
      | some row =>
        match canceledMessages office row with
        | .error e => throw e
        | .ok message => do
          notify row.booking.organizationId [message]
          reminders

def rescheduled (bookingId previousBookingId : String) (managementToken : Option String)
    (customerNotificationAlreadyQueued : Bool) : Tx Unit :=
  runWithOrganization organizationId fun office => do
    let booking ← load query organizationId bookingId
    let previous ← load query organizationId previousBookingId
    match booking, previous with
    | some row, some previous => do
      if customerNotificationAlreadyQueued = false then
        notify row.booking.organizationId [rescheduledMessage office managementToken row previous]
      reminders
      reminders
    | _, _ => pure ()

def refundSucceeded (refundId : String) : Tx Unit :=
  runWithOrganization organizationId fun office => do
    match ← query fun d => d.tables.refunds.find? fun r => decide (r.id = refundId) with
    | none => pure ()
    | some refund =>
      match ← load query organizationId refund.bookingId with
      | none => pure ()
      | some row => notify row.booking.organizationId [refundMessage office row refund]

def paymentFailed (bookingId : String) : Tx Unit :=
  runWithOrganization organizationId fun office => do
    match ← load query organizationId bookingId with
    | none => pure ()
    | some row => do
      notify row.booking.organizationId [paymentFailedMessage office row]
      reminders

end Processor

/-- The handler of an event's job. -/
def handle (job : Job) : Tx Unit :=
  match job.event with
  | .confirmed bookingId token => confirmed job.organizationId bookingId token
  | .canceled bookingId already => canceled job.organizationId bookingId already
  | .rescheduled bookingId previous token already =>
    rescheduled job.organizationId bookingId previous token already
  | .refundSucceeded refundId => refundSucceeded job.organizationId refundId
  | .paymentFailed bookingId => paymentFailed job.organizationId bookingId

/-- One delivery of a job: the queue has it as completed when its handler returns. -/
def deliver (job : Job) : Tx Unit := do
  handle job
  Code.call (fun d : Db => { d with completed := d.completed ++ [job] }) fun _ => pure ()

/-! ## The messages of a request -/

/-- What `RequestNotificationService` is asked to tell. -/
inductive RequestNews where
  | cancellationReceived (suggestedRetainedCents : Int) (reason : Option String)
  | rescheduleReceived (requestedStartsAt : Int)
  | cancellationDecided (approved : Bool) (retainedCents refundedCents : Int) (note : Option String)
  | rescheduleDecided (approved : Bool) (managementToken note : Option String)
  deriving DecidableEq, Repr

def customerName (customer : Erasure.Customer) : String :=
  s!"{customer.firstName} {customer.lastName}"

def text (value : Option String) : Json String :=
  orNull (value.map .str)

def requestMessages (office : Office) (requestId : String) (row : BookingRow) : RequestNews → List QueueInput
  | .cancellationReceived suggested reason =>
    [toCustomer office row .CANCELLATION_REQUEST_RECEIVED [("suggestedRetainedCents", .num suggested)]
        (some s!"{requestId}:customer"),
      { kind := .OFFICE_CANCELLATION_REQUEST
        channel := .EMAIL
        locale := office.defaultLocale
        recipient := office.officeNotificationEmail
        bookingId := some row.booking.id
        dedupeDiscriminator := some s!"{requestId}:office"
        data := appointmentData office row.booking row.customer ++
          [("customerName", .str (customerName row.customer)), ("suggestedRetainedCents", .num suggested),
            ("reason", text reason)] }]
  | .rescheduleReceived requestedStartsAt =>
    [toCustomer office row .RESCHEDULE_REQUEST_RECEIVED [("requestedStartsAt", isoText requestedStartsAt)]
      (some s!"{requestId}:customer")]
  | .cancellationDecided approved retained refunded note =>
    [toCustomer office row .CANCELLATION_REQUEST_DECIDED
      [("approved", .bool approved), ("retainedCents", .num retained), ("refundedCents", .num refunded),
        ("note", text note)] (some s!"{requestId}:decision")]
  | .rescheduleDecided approved token note =>
    [toCustomer office row .RESCHEDULE_REQUEST_DECIDED
      [("approved", .bool approved),
        ("manageUrl", if approved then .str (manageUrl office token) else .null), ("note", text note)]
      (some s!"{requestId}:decision")]

/-- `queueCancellationReceived`, `queueRescheduleReceived`, `queueCancellationDecided` and
`queueRescheduleDecided`, in the transaction of their caller. -/
def queueRequest (office : Office) (organizationId requestId bookingId : String) (news : RequestNews) : Tx Unit := do
  match ← load (select (S := store) ()) organizationId bookingId with
  | none => pure ()
  | some row => queueAll row.booking.organizationId (requestMessages office requestId row news)

/-! ## The runs -/

/-- Bookings and refunds are never deleted, and stay with their organization and their booking. -/
structure Persist (t t' : Tables) : Prop where
  bookings : ∀ b ∈ t.bookings, ∃ b' ∈ t'.bookings, b'.id = b.id ∧ b'.organizationId = b.organizationId
  refunds : ∀ r ∈ t.refunds, ∃ r' ∈ t'.refunds, r'.id = r.id ∧ r'.bookingId = r.bookingId

/-- Any other change of the tables. -/
structure Elsewhere (f : Db → Db) : Prop where
  notifications : ∀ d, (f d).notifications = d.notifications
  outbox : ∀ d, (f d).outbox = d.outbox
  completed : ∀ d, (f d).completed = d.completed
  persist : ∀ d, Persist d.tables (f d).tables

/-- What the clients run: a delivery of a job, a transaction about a request with what else its caller
writes, the reminders and the links of a new password, and what leaves the messages alone. -/
inductive MessageOp : Tx Unit → Prop where
  | deliver (job : Job) : MessageOp (deliver job)
  | request (office : Office) (organizationId requestId bookingId : String) (news : RequestNews) (f : Db → Db)
      (hf : Elsewhere f) :
      MessageOp (transaction (S := store) () do
        modify (S := store) () (fun _ => []) (fun _ => f) fun _ => ()
        queueRequest office organizationId requestId bookingId news)
  | others (organizationId : String) (messages : List QueueInput)
      (hkind : ∀ m ∈ messages, m.kind = .REMINDER_24H ∨ m.kind = .OFFICE_PASSWORD_RESET) :
      MessageOp (transaction (S := store) () (queueAll organizationId messages))
  | elsewhere (f : Db → Db) (hf : Elsewhere f) : MessageOp (.call f fun _ => .ret ())

/-- The kinds of which a booking gets one at most over each channel. -/
def oncePerBooking : NotificationKind → Bool
  | .BOOKING_CONFIRMATION | .BOOKING_CANCELED_BY_CUSTOMER | .BOOKING_CANCELED_BY_BUSINESS
  | .BOOKING_RESCHEDULED | .OFFICE_NEW_BOOKING => true
  | _ => false

/-- The message has a key of its own kind, channel and booking, with nothing else in it where there is one
of the kind for each booking. -/
def Formed (n : Erasure.Notification) : Prop :=
  ∃ discriminator, n.dedupeKey = dedupeKey n.kind n.channel n.bookingId discriminator ∧
    (oncePerBooking n.kind = true → discriminator = none ∧ ∃ bookingId, n.bookingId = some bookingId)

/-- There is a mail of the kind about the booking. -/
def Db.Has (d : Db) (kind : NotificationKind) (bookingId : String) : Prop :=
  ∃ n ∈ d.notifications, n.kind = kind ∧ n.channel = .EMAIL ∧ n.bookingId = some bookingId

/-- The booking is the organization's. -/
def Tables.Holds (t : Tables) (organizationId bookingId : String) : Prop :=
  ∃ b ∈ t.bookings, b.id = bookingId ∧ b.organizationId = organizationId

/-- What a job stands for is queued, if it was about bookings of its organization. -/
def Told (t : Tables) (d : Db) (job : Job) : Prop :=
  match job.event with
  | .confirmed bookingId _ => t.Holds job.organizationId bookingId →
    d.Has .BOOKING_CONFIRMATION bookingId ∧ d.Has .OFFICE_NEW_BOOKING bookingId
  | .canceled bookingId already => already = false → t.Holds job.organizationId bookingId →
    d.Has .BOOKING_CANCELED_BY_BUSINESS bookingId ∨ d.Has .BOOKING_CANCELED_BY_CUSTOMER bookingId
  | .rescheduled bookingId previous _ already => already = false → t.Holds job.organizationId bookingId →
    t.Holds job.organizationId previous → d.Has .BOOKING_RESCHEDULED bookingId
  | .refundSucceeded refundId => ∀ r ∈ t.refunds, r.id = refundId → t.Holds job.organizationId r.bookingId →
    dedupeKey .REFUND_ISSUED .EMAIL (some r.bookingId) (some refundId) ∈ d.keys
  | .paymentFailed bookingId => t.Holds job.organizationId bookingId → d.Has .BOOKING_CANCELED_BY_BUSINESS bookingId

/-- Keys that are queued together: those of a confirmation and of the office's copy, and those of a request
to cancel and of what the office is told of it. -/
inductive Paired : String → String → Prop where
  | confirmed (bookingId : String) : Paired (dedupeKey .BOOKING_CONFIRMATION .EMAIL (some bookingId) none)
      (dedupeKey .OFFICE_NEW_BOOKING .EMAIL (some bookingId) none)
  | requested (bookingId requestId : String) :
    Paired (dedupeKey .CANCELLATION_REQUEST_RECEIVED .EMAIL (some bookingId) (some s!"{requestId}:customer"))
      (dedupeKey .OFFICE_CANCELLATION_REQUEST .EMAIL (some bookingId) (some s!"{requestId}:office"))

/-- What every committed state satisfies, in runs from the tables `t`. -/
structure Kept (t : Tables) (d : Db) : Prop where
  keys : d.keys.Nodup
  sends : d.outbox = d.notifications.map sendEvent
  formed : ∀ n ∈ d.notifications, Formed n
  paired : ∀ k k', Paired k k' → (k ∈ d.keys ↔ k' ∈ d.keys)
  told : ∀ job ∈ d.completed, Told t d job
  persist : Persist t d.tables

/-! ## Keys -/

section Keys

variable {kind kind' : NotificationKind} {channel channel' : NotificationChannel}
  {bookingId bookingId' discriminator discriminator' : Option String}

theorem toList_key : (dedupeKey kind channel bookingId discriminator).toList =
    (kindText kind).toList ++ ':' :: ((channelText channel).toList ++ ':' ::
      ((bookingId.getD "-").toList ++ ':' :: (discriminator.getD "-").toList)) := by
  unfold dedupeKey
  simp only [String.toList_intercalate, List.map_cons, List.map_nil]
  simp [List.intercalate]

/-- A key tells the kind and the channel, and what stands behind them. -/
theorem key_parts
    (h : dedupeKey kind channel bookingId discriminator = dedupeKey kind' channel' bookingId' discriminator') :
    kind = kind' ∧ channel = channel' ∧
      (bookingId.getD "-").toList ++ ':' :: (discriminator.getD "-").toList =
        (bookingId'.getD "-").toList ++ ':' :: (discriminator'.getD "-").toList := by
  have hkind : ∀ kind, ':' ∉ (kindText kind).toList := by
    intro kind
    cases kind <;> decide
  have hchannel : ∀ channel, ':' ∉ (channelText channel).toList := by
    intro channel
    cases channel <;> decide
  have hlists := congrArg String.toList h
  rw [toList_key, toList_key] at hlists
  obtain ⟨hk, hrest⟩ := Rebuild.cut (hkind kind) (hkind kind') hlists
  obtain ⟨hc, hrest⟩ := Rebuild.cut (hchannel channel) (hchannel channel') hrest
  refine ⟨?_, ?_, hrest⟩
  · revert hk
    cases kind <;> cases kind' <;> decide
  · revert hc
    cases channel <;> cases channel' <;> decide

/-- A key without a discriminator tells the booking, too. -/
theorem key_booking {b b' : String}
    (h : dedupeKey kind channel (some b) none = dedupeKey kind' channel' (some b') none) : b = b' := by
  obtain ⟨-, -, hrest⟩ := key_parts h
  exact String.toList_injective (List.append_cancel_right hrest)

/-- What stands behind the kind and the channel decides the rest of the key. -/
theorem key_congr (kind : NotificationKind) (channel : NotificationChannel)
    (h : (bookingId.getD "-").toList ++ ':' :: (discriminator.getD "-").toList =
      (bookingId'.getD "-").toList ++ ':' :: (discriminator'.getD "-").toList) :
    dedupeKey kind channel bookingId discriminator = dedupeKey kind channel bookingId' discriminator' := by
  apply String.toList_injective
  rw [toList_key, toList_key, h]

/-- The rest of a request's key but for whom it is for. -/
theorem rest_of_request {b b' r r' s : String} (s' : String)
    (h : ((some b).getD "-").toList ++ ':' :: ((some (r ++ s)).getD "-").toList =
      ((some b').getD "-").toList ++ ':' :: ((some (r' ++ s)).getD "-").toList) :
    ((some b).getD "-").toList ++ ':' :: ((some (r ++ s')).getD "-").toList =
      ((some b').getD "-").toList ++ ':' :: ((some (r' ++ s')).getD "-").toList := by
  simp only [Option.getD_some, String.toList_append, ← List.cons_append, ← List.append_assoc] at h ⊢
  rw [List.append_cancel_right h]

variable {key : String}

theorem Paired.of_left (h : Paired (dedupeKey kind channel bookingId discriminator) key) :
    channel = .EMAIL ∧ (kind = .BOOKING_CONFIRMATION ∧
        key = dedupeKey .OFFICE_NEW_BOOKING .EMAIL bookingId discriminator ∨
      kind = .CANCELLATION_REQUEST_RECEIVED ∧ ∀ b r : String, bookingId = some b → discriminator = some s!"{r}:customer" →
        key = dedupeKey .OFFICE_CANCELLATION_REQUEST .EMAIL (some b) (some s!"{r}:office")) := by
  generalize hk : dedupeKey kind channel bookingId discriminator = k at h
  cases h with
  | confirmed b' =>
    obtain ⟨rfl, rfl, hrest⟩ := key_parts hk
    exact ⟨rfl, .inl ⟨rfl, key_congr _ _ hrest.symm⟩⟩
  | requested b' r' =>
    obtain ⟨rfl, rfl, hrest⟩ := key_parts hk
    refine ⟨rfl, .inr ⟨rfl, ?_⟩⟩
    rintro b r rfl rfl
    exact key_congr _ _ (rest_of_request ":office" hrest.symm)

theorem Paired.of_right (h : Paired key (dedupeKey kind channel bookingId discriminator)) :
    channel = .EMAIL ∧ (kind = .OFFICE_NEW_BOOKING ∧
        key = dedupeKey .BOOKING_CONFIRMATION .EMAIL bookingId discriminator ∨
      kind = .OFFICE_CANCELLATION_REQUEST ∧ ∀ b r : String, bookingId = some b → discriminator = some s!"{r}:office" →
        key = dedupeKey .CANCELLATION_REQUEST_RECEIVED .EMAIL (some b) (some s!"{r}:customer")) := by
  generalize hk : dedupeKey kind channel bookingId discriminator = k at h
  cases h with
  | confirmed b' =>
    obtain ⟨rfl, rfl, hrest⟩ := key_parts hk
    exact ⟨rfl, .inl ⟨rfl, key_congr _ _ hrest.symm⟩⟩
  | requested b' r' =>
    obtain ⟨rfl, rfl, hrest⟩ := key_parts hk
    refine ⟨rfl, .inr ⟨rfl, ?_⟩⟩
    rintro b r rfl rfl
    exact key_congr _ _ (rest_of_request ":customer" hrest.symm)

end Keys

/-- With each of these messages there is the one it is paired with. -/
def Together (messages : List QueueInput) : Prop :=
  ∀ m ∈ messages, ∀ key, Paired (QueueInput.key m) key ∨ Paired key (QueueInput.key m) →
    key ∈ messages.map QueueInput.key

theorem together_nil : Together [] :=
  fun _ hm => absurd hm List.not_mem_nil

/-- The kinds that are queued with another. -/
def isPaired : NotificationKind → Bool
  | .BOOKING_CONFIRMATION | .OFFICE_NEW_BOOKING | .CANCELLATION_REQUEST_RECEIVED | .OFFICE_CANCELLATION_REQUEST => true
  | _ => false

/-- A message that is paired with none is no matter. -/
theorem together_of_isPaired {messages : List QueueInput} (h : ∀ m ∈ messages, isPaired m.kind = false) :
    Together messages := by
  intro m hm key hkey
  have hkind := h m hm
  rcases hkey with hkey | hkey
  · obtain ⟨-, ⟨hk, -⟩ | ⟨hk, -⟩⟩ := hkey.of_left
    · simp [hk, isPaired] at hkind
    · simp [hk, isPaired] at hkind
  · obtain ⟨-, ⟨hk, -⟩ | ⟨hk, -⟩⟩ := hkey.of_right
    · simp [hk, isPaired] at hkind
    · simp [hk, isPaired] at hkind

theorem together_request {office : Office} {requestId : String} {row : BookingRow} (news : RequestNews) :
    Together (requestMessages office requestId row news) := by
  cases news with
  | cancellationReceived suggested reason =>
    intro m hm key hkey
    simp only [requestMessages, List.mem_cons, List.not_mem_nil, or_false] at hm
    rcases hm with rfl | rfl
    · rcases hkey with hkey | hkey
      · obtain ⟨-, ⟨hk, -⟩ | ⟨-, hrest⟩⟩ := hkey.of_left
        · cases hk
        · rw [hrest row.booking.id requestId rfl rfl]
          simp [requestMessages, QueueInput.key]
      · obtain ⟨-, ⟨hk, -⟩ | ⟨hk, -⟩⟩ := hkey.of_right
        · cases hk
        · cases hk
    · rcases hkey with hkey | hkey
      · obtain ⟨-, ⟨hk, -⟩ | ⟨hk, -⟩⟩ := hkey.of_left
        · cases hk
        · cases hk
      · obtain ⟨-, ⟨hk, -⟩ | ⟨-, hrest⟩⟩ := hkey.of_right
        · cases hk
        · rw [hrest row.booking.id requestId rfl rfl]
          simp [requestMessages, QueueInput.key, toCustomer]
  | rescheduleReceived requestedStartsAt =>
    exact together_of_isPaired fun m hm => by rw [List.mem_singleton.mp hm]; rfl
  | cancellationDecided approved retained refunded note =>
    exact together_of_isPaired fun m hm => by rw [List.mem_singleton.mp hm]; rfl
  | rescheduleDecided approved token note =>
    exact together_of_isPaired fun m hm => by rw [List.mem_singleton.mp hm]; rfl

/-- The messages of a confirmed booking, without the numbers of their rows. -/
def confirmedInputs (office : Office) (managementToken : Option String) (row : BookingRow) : List QueueInput :=
  (confirmedMessages office managementToken row.booking row.customer).map Prod.snd

/-- They are a mail to the customer, one to the office, and texts. -/
theorem confirmedInputs_spec (office : Office) (managementToken : Option String) (row : BookingRow) :
    (∀ m ∈ confirmedInputs office managementToken row, m.bookingId = some row.booking.id ∧
      m.dedupeDiscriminator = none ∧
      (m.kind = .BOOKING_CONFIRMATION ∨ m.kind = .OFFICE_NEW_BOOKING ∧ m.channel = .EMAIL)) ∧
    (∃ m ∈ confirmedInputs office managementToken row, m.kind = .BOOKING_CONFIRMATION ∧ m.channel = .EMAIL) ∧
    ∃ m ∈ confirmedInputs office managementToken row, m.kind = .OFFICE_NEW_BOOKING ∧ m.channel = .EMAIL := by
  unfold confirmedInputs confirmedMessages
  dsimp only
  split
  · simp [confirmation, officeCopy]
  · simp [confirmation, officeCopy]

theorem together_confirmed (office : Office) (managementToken : Option String) (row : BookingRow) :
    Together (confirmedInputs office managementToken row) := by
  obtain ⟨hall, ⟨c, hc, hckind, hcchannel⟩, o, ho, hokind, hochannel⟩ :=
    confirmedInputs_spec office managementToken row
  intro m hm key hkey
  obtain ⟨hbooking, hdiscriminator, hkinds⟩ := hall m hm
  rcases hkey with hkey | hkey
  · obtain ⟨-, ⟨-, rfl⟩ | ⟨hk, -⟩⟩ := hkey.of_left
    · refine List.mem_map.mpr ⟨o, ho, ?_⟩
      rw [QueueInput.key, hokind, hochannel, (hall o ho).1, (hall o ho).2.1, hbooking, hdiscriminator]
    · simp [hk] at hkinds
  · obtain ⟨-, ⟨-, rfl⟩ | ⟨hk, -⟩⟩ := hkey.of_right
    · refine List.mem_map.mpr ⟨c, hc, ?_⟩
      rw [QueueInput.key, hckind, hcchannel, (hall c hc).1, (hall c hc).2.1, hbooking, hdiscriminator]
    · simp [hk] at hkinds

/-! ## The protocol -/

section Growing

variable {t t' t'' : Tables} {d d' d'' : Db}

theorem Persist.refl : Persist t t :=
  ⟨fun b hb => ⟨b, hb, rfl, rfl⟩, fun r hr => ⟨r, hr, rfl, rfl⟩⟩

theorem Persist.trans (h : Persist t t') (h' : Persist t' t'') : Persist t t'' := by
  constructor
  · intro b hb
    obtain ⟨b', hb', hid, horganization⟩ := h.bookings b hb
    obtain ⟨b'', hb'', hid', horganization'⟩ := h'.bookings b' hb'
    exact ⟨b'', hb'', hid'.trans hid, horganization'.trans horganization⟩
  · intro r hr
    obtain ⟨r', hr', hid, hbooking⟩ := h.refunds r hr
    obtain ⟨r'', hr'', hid', hbooking'⟩ := h'.refunds r' hr'
    exact ⟨r'', hr'', hid'.trans hid, hbooking'.trans hbooking⟩

theorem Persist.holds (h : Persist t t') {organizationId bookingId : String}
    (hb : t.Holds organizationId bookingId) : t'.Holds organizationId bookingId := by
  obtain ⟨b, hmem, hid, horganization⟩ := hb
  obtain ⟨b', hmem', hid', horganization'⟩ := h.bookings b hmem
  exact ⟨b', hmem', hid'.trans hid, horganization'.trans horganization⟩

/-- What one change does to the messages: it adds some. -/
structure Grows (d d' : Db) : Prop where
  notifications : d.notifications <+: d'.notifications
  persist : Persist d.tables d'.tables

theorem Grows.refl : Grows d d :=
  ⟨List.prefix_rfl, Persist.refl⟩

theorem Grows.trans (h : Grows d d') (h' : Grows d' d'') : Grows d d'' :=
  ⟨h.notifications.trans h'.notifications, h.persist.trans h'.persist⟩

theorem Grows.keys (h : Grows d d') {key : String} (hkey : key ∈ d.keys) : key ∈ d'.keys :=
  List.map_subset _ h.notifications.subset hkey

theorem Grows.has (h : Grows d d') {kind : NotificationKind} {bookingId : String} (hn : d.Has kind bookingId) :
    d'.Has kind bookingId := by
  obtain ⟨n, hmem, hrest⟩ := hn
  exact ⟨n, h.notifications.subset hmem, hrest⟩

theorem Grows.told (h : Grows d d') {job : Job} (hjob : Told t d job) : Told t d' job := by
  revert hjob
  unfold Told
  cases job.event with
  | confirmed bookingId token => exact fun hjob hb => ⟨h.has (hjob hb).1, h.has (hjob hb).2⟩
  | canceled bookingId already => exact fun hjob ha hb => (hjob ha hb).imp h.has h.has
  | rescheduled bookingId previous token already => exact fun hjob ha hb hp => h.has (hjob ha hb hp)
  | refundSucceeded refundId => exact fun hjob r hr hid hb => h.keys (hjob r hr hid hb)
  | paymentFailed bookingId => exact fun hjob hb => h.has (hjob hb)

/-- The rules of the messages: the holder of a key can count on its being there or not. -/
def protocol (t : Tables) : Proto store where
  toConditions := .none
  Inv := Kept t
  Act := Grows
  Same l d d' := match l with
    | .dedupeKey key => key ∈ d.keys ↔ key ∈ d'.keys
  same_refl l d := by
    cases l with
    | dedupeKey key => exact Iff.rfl
  same_trans {l d₁ d₂ d₃} h₁ h₂ := by
    cases l with
    | dedupeKey key => exact Iff.trans (b := key ∈ d₂.keys) h₁ h₂

theorem grows_of_rely {held : List Lock} (h : (protocol t).Rely () held d d') : Grows d d' :=
  h.lift (T := Grows) (fun _ => .refl) (fun _ _ _ h h' => h.trans h') fun _ _ h => h.1

end Growing

/-! ## One transaction -/

section Writing

variable {t : Tables} {d d' : Db} {held : List Lock} {δ : Db → Db} {more : List Erasure.Notification}

/-- What a transaction has written, with the locks of its keys. -/
structure Writing (held : List Lock) (δ : Db → Db) (d : Db) (more : List Erasure.Notification) : Prop where
  notifications : ∀ x, (δ x).notifications = x.notifications ++ more
  outbox : ∀ x, (δ x).outbox = x.outbox ++ more.map sendEvent
  completed : ∀ x, (δ x).completed = x.completed
  persist : ∀ x, Persist x.tables (δ x).tables
  fresh : ∀ n ∈ more, Lock.dedupeKey n.dedupeKey ∈ held ∧ n.dedupeKey ∉ d.keys
  nodup : (more.map Erasure.Notification.dedupeKey).Nodup

theorem Writing.keys (h : Writing held δ d more) (x : Db) :
    (δ x).keys = x.keys ++ more.map Erasure.Notification.dedupeKey := by
  rw [Db.keys, h.notifications, List.map_append]
  rfl

/-- Nobody else inserts a key whose lock is held. -/
theorem Writing.rely (h : Writing held δ d more) (hrely : (protocol t).Rely () held d d') :
    Writing held δ d' more :=
  { h with fresh := fun n hn =>
      ⟨(h.fresh n hn).1, fun hmem => (h.fresh n hn).2 ((hrely.same (h.fresh n hn).1).mpr hmem)⟩ }

theorem writing_of_elsewhere {f : Db → Db} (hf : Elsewhere f) : Writing held f d [] where
  notifications x := by rw [hf.notifications, List.append_nil]
  outbox x := by rw [hf.outbox, List.map_nil, List.append_nil]
  completed := hf.completed
  persist := hf.persist
  fresh n hn := absurd hn List.not_mem_nil
  nodup := List.nodup_nil

theorem elsewhere_id : Elsewhere id :=
  ⟨fun _ => rfl, fun _ => rfl, fun _ => rfl, fun _ => Persist.refl⟩

/-- Each message is the row of one of these. -/
def From (messages : List QueueInput) (more : List Erasure.Notification) : Prop :=
  ∀ n ∈ more, ∃ m ∈ messages, ∃ organizationId drawn, n = QueueInput.row organizationId drawn m

theorem from_nil : From [] [] :=
  fun _ hn => absurd hn List.not_mem_nil

/-- What is queued has been there, or is written. -/
def Seen (messages : List QueueInput) (δ : Db → Db) (d : Db) : Prop :=
  ∀ m ∈ messages, QueueInput.key m ∈ (δ d).keys

theorem seen_nil : Seen [] δ d :=
  fun _ hm => absurd hm List.not_mem_nil

theorem Writing.seen (h : Writing held δ d more) {messages : List QueueInput} (hseen : Seen messages δ d)
    (hgrows : Grows d d') : Seen messages δ d' := by
  intro m hm
  have hkey := hseen m hm
  rw [h.keys, List.mem_append] at hkey ⊢
  exact hkey.imp hgrows.keys id

/-- What a message is queued as. -/
def QueueInput.Formed (m : QueueInput) : Prop :=
  oncePerBooking m.kind = true → m.dedupeDiscriminator = none ∧ ∃ bookingId, m.bookingId = some bookingId

theorem formed_nil : ∀ m ∈ [], QueueInput.Formed m :=
  fun _ hm => absurd hm List.not_mem_nil

theorem formed_row {organizationId : String} {drawn : Answer} {m : QueueInput} (h : QueueInput.Formed m) :
    Formed (QueueInput.row organizationId drawn m) :=
  ⟨m.dedupeDiscriminator, rfl, h⟩

/-- The commit of a transaction that has queued its messages. -/
theorem guarantee_commit (hd : Kept t d) (hw : Writing held δ d more) {messages : List QueueInput}
    (hfrom : From messages more) (hformed : ∀ m ∈ messages, QueueInput.Formed m) (htogether : Together messages)
    (hseen : Seen messages δ d) : (protocol t).Guarantee held d (δ d) := by
  have hgrows : Grows d (δ d) := ⟨hw.notifications d ▸ List.prefix_append _ _, hw.persist d⟩
  have hkey : ∀ key ∈ (δ d).keys, key ∈ d.keys ∨ ∃ m ∈ messages, QueueInput.key m = key := by
    intro key hmem
    rw [hw.keys, List.mem_append] at hmem
    refine hmem.imp id fun hmore => ?_
    obtain ⟨n, hn, rfl⟩ := List.mem_map.mp hmore
    obtain ⟨m, hm, organizationId, drawn, rfl⟩ := hfrom n hn
    exact ⟨m, hm, rfl⟩
  have hthere : ∀ key ∈ messages.map QueueInput.key, key ∈ (δ d).keys := by
    intro key hmem
    obtain ⟨m, hm, rfl⟩ := List.mem_map.mp hmem
    exact hseen m hm
  refine ⟨hgrows, ⟨?_, ?_, ?_, ?_, ?_, ?_⟩, ?_⟩
  · rw [hw.keys]
    refine hd.keys.append hw.nodup fun key hkey hmore => ?_
    obtain ⟨n, hn, rfl⟩ := List.mem_map.mp hmore
    exact (hw.fresh n hn).2 hkey
  · rw [hw.outbox, hw.notifications, List.map_append, hd.sends]
  · intro n hn
    rw [hw.notifications, List.mem_append] at hn
    rcases hn with hn | hn
    · exact hd.formed n hn
    · obtain ⟨m, hm, organizationId, drawn, rfl⟩ := hfrom n hn
      exact formed_row (hformed m hm)
  · intro k k' hpaired
    constructor
    · intro hk
      rcases hkey k hk with hk | ⟨m, hm, rfl⟩
      · exact hgrows.keys ((hd.paired k k' hpaired).mp hk)
      · exact hthere k' (htogether m hm k' (.inl hpaired))
    · intro hk
      rcases hkey k' hk with hk | ⟨m, hm, rfl⟩
      · exact hgrows.keys ((hd.paired k k' hpaired).mpr hk)
      · exact hthere k (htogether m hm k (.inr hpaired))
  · intro job hjob
    rw [hw.completed] at hjob
    exact hgrows.told (hd.told job hjob)
  · exact hd.persist.trans (hw.persist d)
  · intro l hl
    cases l with
    | dedupeKey key =>
      refine ⟨hgrows.keys, fun hmem => ?_⟩
      rw [hw.keys, List.mem_append] at hmem
      refine hmem.resolve_right fun hmore => ?_
      obtain ⟨n, hn, rfl⟩ := List.mem_map.mp hmore
      exact hl (hw.fresh n hn).1

end Writing

/-! ## The clients -/

section Programs

variable {t : Tables} {d : Db} {held : List Lock} {δ : Db → Db} {more : List Erasure.Notification}
  {organizationId : String}

theorem wp_query {α : Type} {f : Db → α} {Q : α → List Lock → (Db → Db) → Db → Prop}
    (h : ∀ d', Kept t d' → Q (f d') [] id d') : (protocol t).wp (query f) Q (fun _ _ => True) held δ d :=
  fun _ _ _ => Proto.wp_select (fun _ _ _ => trivial) fun d' _ hinv _ => h d' hinv

/-- A message is queued, unless its key is there. -/
theorem wp_queue {messages : List QueueInput} {m : QueueInput} (hw : Writing held δ d more)
    (hfrom : From messages more) (hseen : Seen messages δ d) :
    (protocol t).wp (queue organizationId m)
      (fun _ held δ d => ∃ more, Writing held δ d more ∧ From (messages ++ [m]) more ∧ Seen (messages ++ [m]) δ d)
      (fun _ _ => True) held δ d := by
  refine (Proto.wp_bind _ _).mpr (Proto.wp_answer fun d₁ hrely₁ _ drawn => ?_)
  refine (Proto.wp_bind _ _).mpr (Proto.wp_modify (fun _ _ _ => trivial) fun d₂ hrely₂ _ _ => ?_)
  have hrely := hrely₁.trans hrely₂
  have hw₂ := hw.rely hrely
  have hseen₂ := hw.seen hseen (grows_of_rely hrely)
  have hall : ∀ {δ : Db → Db} {d : Db}, Seen messages δ d → QueueInput.key m ∈ (δ d).keys →
      Seen (messages ++ [m]) δ d := by
    intro δ d hseen hm m' hm'
    rcases List.mem_append.mp hm' with hm' | hm'
    · exact hseen m' hm'
    · rw [List.mem_singleton.mp hm']
      exact hm
  have hfrom' : From (messages ++ [m]) more := fun n hn => by
    obtain ⟨m', hm', hrow⟩ := hfrom n hn
    exact ⟨m', List.mem_append_left _ hm', hrow⟩
  by_cases hkey : QueueInput.key m ∈ (δ d₂).keys
  · simp only [QueueInput.row, hkey, not_true_eq_false, decide_false, Bool.false_eq_true, if_false, if_true]
    refine ⟨more, ?_, hfrom', hall hseen₂ hkey⟩
    exact { hw₂ with fresh := fun n hn => ⟨List.mem_append_left _ (hw₂.fresh n hn).1, (hw₂.fresh n hn).2⟩ }
  · simp only [QueueInput.row, hkey, not_false_eq_true, decide_true, if_false, if_true]
    refine (Proto.wp_bind _ _).mpr (Proto.wp_modify (fun _ _ _ => trivial) fun d₃ hrely₃ _ _ => ?_)
    have hnone : QueueInput.key m ∉ d₂.keys ∧ QueueInput.key m ∉ more.map Erasure.Notification.dedupeKey := by
      rw [hw₂.keys, List.mem_append, not_or] at hkey
      exact hkey
    have hlock : Lock.dedupeKey (QueueInput.key m) ∈ held ++ [Lock.dedupeKey (QueueInput.key m)] :=
      List.mem_append_right _ (List.mem_singleton.mpr rfl)
    have hw₃ := hw₂.rely (hrely₃.weaken fun _ => List.mem_append_left _)
    have hsame : QueueInput.key m ∈ d₂.keys ↔ QueueInput.key m ∈ d₃.keys := hrely₃.same hlock
    refine ⟨more ++ [QueueInput.row organizationId drawn m], ⟨fun x => ?_, fun x => ?_, fun x => ?_, fun x => ?_,
      fun n hn => ?_, ?_⟩, fun n hn => ?_, ?_⟩
    · show (δ x).notifications ++ _ = _
      rw [hw₃.notifications, List.append_assoc]
      rfl
    · show (δ x).outbox ++ _ = _
      rw [hw₃.outbox, List.append_assoc, List.map_append]
      rfl
    · exact hw₃.completed x
    · exact hw₃.persist x
    · rcases List.mem_append.mp hn with hn | hn
      · exact ⟨List.mem_append_left _ (List.mem_append_left _ (hw₂.fresh n hn).1), (hw₃.fresh n hn).2⟩
      · rw [List.mem_singleton.mp hn]
        exact ⟨List.mem_append_left _ hlock, mt hsame.mpr hnone.1⟩
    · rw [List.map_append]
      refine hw₃.nodup.append (List.nodup_singleton _) ?_
      rw [List.map_singleton, List.disjoint_singleton]
      exact hnone.2
    · rcases List.mem_append.mp hn with hn | hn
      · exact hfrom' n hn
      · exact ⟨m, by simp, organizationId, drawn, List.mem_singleton.mp hn⟩
    · have hgrows := grows_of_rely (hrely₃)
      refine hall (fun m' hm' => ?_) ?_
      · have hmem := hw₂.seen hseen₂ hgrows m' hm'
        rw [hw₃.keys] at hmem
        show QueueInput.key m' ∈ ((δ d₃).notifications ++ _).map _
        rw [hw₃.notifications, List.map_append, List.mem_append]
        rw [List.map_append]
        exact .inl hmem
      · show QueueInput.key m ∈ ((δ d₃).notifications ++ _).map _
        rw [List.map_append]
        exact List.mem_append_right _ (List.mem_singleton.mpr rfl)

/-- So are several. -/
theorem wp_queueAll {done messages : List QueueInput} (hw : Writing held δ d more) (hfrom : From done more)
    (hseen : Seen done δ d) :
    (protocol t).wp (queueAll organizationId messages)
      (fun _ held δ d => ∃ more, Writing held δ d more ∧ From (done ++ messages) more ∧
        Seen (done ++ messages) δ d) (fun _ _ => True) held δ d := by
  induction messages generalizing done held δ d more with
  | nil =>
    rw [List.append_nil]
    exact ⟨more, hw, hfrom, hseen⟩
  | cons m rest ih =>
    refine (Proto.wp_bind _ _).mpr ((Proto.wp_map _ _).mpr (Proto.wp_mono (wp_queue hw hfrom hseen) ?_
      fun _ _ _ => trivial))
    rintro _ held δ d ⟨more, hw, hfrom, hseen⟩
    have h := ih hw hfrom hseen
    rwa [List.append_assoc] at h

/-- A transaction that has queued its messages is committed with all of them. -/
theorem commits_queued {messages : List QueueInput} (hformed : ∀ m ∈ messages, QueueInput.Formed m)
    (htogether : Together messages) {held : List Lock} {δ : Db → Db} {d : Db} {more : List Erasure.Notification}
    (hw : Writing held δ d more) (hfrom : From messages more) (hseen : Seen messages δ d) :
    (protocol t).Commits () (fun (_ : Unit) _ _ d => Kept t d ∧ ∀ m ∈ messages, QueueInput.key m ∈ d.keys) ()
      held δ d := by
  intro d' hrely hinv _ _
  have hseen' := hw.seen hseen (grows_of_rely hrely)
  have hcommit := guarantee_commit hinv (hw.rely hrely) hfrom hformed htogether hseen'
  exact ⟨hcommit, hcommit.2.1, hseen'⟩

theorem writing_nil : Writing held id d [] :=
  writing_of_elsewhere elsewhere_id

theorem wp_transaction {body : Tx Unit} {Q : Unit → List Lock → (Db → Db) → Db → Prop}
    (h : ∀ d', (protocol t).wp body ((protocol t).Commits () Q) (fun _ _ => True) [] id d') :
    (protocol t).wp (transaction (S := store) () body) Q (fun _ _ => True) held δ d :=
  Proto.wp_transaction (fun _ _ _ => trivial) (fun _ _ _ _ _ => trivial) fun d' _ _ => h d'

theorem wp_queued {messages : List QueueInput} (hformed : ∀ m ∈ messages, QueueInput.Formed m)
    (htogether : Together messages) :
    (protocol t).wp (transaction (S := store) () (queueAll organizationId messages))
      (fun _ _ _ d => Kept t d ∧ ∀ m ∈ messages, QueueInput.key m ∈ d.keys) (fun _ _ => True) held δ d := by
  refine wp_transaction fun d' => Proto.wp_mono (wp_queueAll writing_nil from_nil seen_nil) ?_
    fun _ _ _ => trivial
  rintro ⟨⟩ held δ d ⟨more, hw, hfrom, hseen⟩
  exact commits_queued hformed htogether hw hfrom hseen

theorem wp_notify {messages : List QueueInput} (hformed : ∀ m ∈ messages, QueueInput.Formed m)
    (htogether : Together messages) :
    (protocol t).wp (notify organizationId messages)
      (fun _ _ _ d => Kept t d ∧ ∀ m ∈ messages, QueueInput.key m ∈ d.keys) (fun _ _ => True) held δ d :=
  Proto.wp_withRetry (J := fun _ => True) (fun _ _ _ h => h)
    (fun _ _ _ _ _ => Proto.wp_mono (wp_queued hformed htogether) (fun _ _ _ _ h => h) fun _ _ _ => .inr trivial)
    2 trivial

/-- What the queue of reminders does is no matter to what has been queued. -/
theorem wp_reminders {J : Db → Prop} (hJ : ∀ d d', Grows d d' → J d → J d') (hd : J d) :
    (protocol t).wp reminders (fun _ _ _ d => J d) (fun _ _ => True) held δ d := by
  refine (Proto.wp_bind _ _).mpr (Proto.wp_answer fun d' hrely _ drawn => ?_)
  cases drawn.failure with
  | none => exact hJ d d' (grows_of_rely hrely) hd
  | some e => trivial

/-- A booking of the organization is found, with its customer. -/
theorem findBooking_holds {bookingId : String} (h : d.tables.Holds organizationId bookingId) :
    findBooking organizationId bookingId d ≠ none := by
  obtain ⟨b, hb, rfl, rfl⟩ := h
  have hfind : findIn Booking.organizationId b.organizationId b.id d.tables.bookings = some b := by
    have hmem : Table.find b.id d.tables.bookings = some b := Table.find_of_mem d.tables.bookings_pkey hb
    simp [findIn, hmem]
  obtain ⟨c, hc, hid⟩ := d.tables.bookings_customer_fkey b hb
  have hcustomer : Table.find b.customerId d.tables.customers ≠ none := by
    intro hnone
    exact Table.find_eq_none.mp hnone c hc hid
  obtain ⟨customer, hsome⟩ := Option.ne_none_iff_exists'.mp hcustomer
  simp [findBooking, hfind, hsome]

theorem findBooking_some {bookingId : String} {booking : Booking} {customer : Erasure.Customer}
    (h : findBooking organizationId bookingId d = some (booking, customer)) :
    booking.id = bookingId ∧ booking.organizationId = organizationId := by
  obtain ⟨b, hb, h⟩ := Option.bind_eq_some_iff.mp h
  obtain ⟨c, hc, h⟩ := Option.bind_eq_some_iff.mp h
  cases h
  obtain ⟨hfind, horganization⟩ := Option.filter_eq_some_iff.mp hb
  exact ⟨Table.key_of_find hfind, of_decide_eq_true horganization⟩

/-- What `load` finds is the booking, and it finds those of the organization. -/
theorem wp_load {bookingId : String} :
    (protocol t).wp (load query organizationId bookingId)
      (fun found _ _ _ => (∀ row, found = some row → row.booking.id = bookingId) ∧
        (t.Holds organizationId bookingId → found ≠ none)) (fun _ _ => True) held δ d := by
  refine (Proto.wp_bind _ _).mpr (wp_query fun d₁ hd₁ => ?_)
  cases hfound : findBooking organizationId bookingId d₁ with
  | none =>
    refine ⟨fun row hrow => (by cases hrow), fun hb => ?_⟩
    exact absurd hfound (findBooking_holds (hd₁.persist.holds hb))
  | some found =>
    obtain ⟨booking, customer⟩ := found
    refine (Proto.wp_bind _ _).mpr (wp_query fun d₂ hd₂ => ?_)
    cases hload : BookingFinancialsService.load d₂.tables.toBooks organizationId bookingId with
    | ok financials =>
      refine ⟨fun row hrow => ?_, fun _ => by simp⟩
      cases hrow
      exact (findBooking_some hfound).1
    | error e =>
      have hnone : ¬ t.Holds organizationId bookingId := by
        intro hb
        obtain ⟨b, hmem, rfl, rfl⟩ := hd₂.persist.holds hb
        rw [load_recordedOn hmem] at hload
        cases hload
      cases e with
      | app e =>
        show (protocol t).wp (if e.code = "NOT_FOUND" then pure none else throw (.app e)) _ _ _ _ _
        split
        · exact ⟨fun row hrow => (by cases hrow), fun hb => absurd hb hnone⟩
        · trivial
      | database e => trivial
      | stripe kind message => trivial
      | error message => trivial

/-- A key of a kind that a booking has one of is that of a mail about it. -/
theorem has_of_key {kind : NotificationKind} {bookingId : String} (hd : Kept t d) (honce : oncePerBooking kind = true)
    (h : dedupeKey kind .EMAIL (some bookingId) none ∈ d.keys) : d.Has kind bookingId := by
  obtain ⟨n, hn, hkey⟩ := List.mem_map.mp h
  obtain ⟨discriminator, hformed, hrest⟩ := hd.formed n hn
  rw [hformed] at hkey
  obtain ⟨hkind, hchannel, -⟩ := key_parts hkey
  obtain ⟨rfl, b, hb⟩ := hrest (hkind ▸ honce)
  refine ⟨n, hn, hkind, hchannel, ?_⟩
  rw [hb] at hkey ⊢
  rw [key_booking hkey]

/-- The one message of a job is queued. -/
theorem wp_notify_one {m : QueueInput} (hformed : QueueInput.Formed m) (hpaired : isPaired m.kind = false) :
    (protocol t).wp (notify organizationId [m]) (fun _ _ _ d => Kept t d ∧ QueueInput.key m ∈ d.keys)
      (fun _ _ => True) held δ d := by
  refine Proto.wp_mono (wp_notify ?_ ?_) (fun _ _ _ d h => ⟨h.1, h.2 m (List.mem_singleton.mpr rfl)⟩)
    fun _ _ _ => trivial
  · intro m' hm'
    rw [List.mem_singleton.mp hm']
    exact hformed
  · apply together_of_isPaired
    intro m' hm'
    rw [List.mem_singleton.mp hm']
    exact hpaired

theorem formed_toCustomer {office : Office} {row : BookingRow} {kind : NotificationKind}
    {data : List (String × Json String)} : QueueInput.Formed (toCustomer office row kind data) :=
  fun _ => ⟨rfl, row.booking.id, rfl⟩

/-- A scope that is opened, or an error. -/
theorem wp_runWithOrganization {fn : Office → Tx Unit} {Q : Unit → List Lock → (Db → Db) → Db → Prop}
    (h : ∀ office d, (protocol t).wp (fn office) Q (fun _ _ => True) [] id d) :
    (protocol t).wp (runWithOrganization organizationId fn) Q (fun _ _ => True) held δ d := by
  refine (Proto.wp_bind _ _).mpr (wp_query fun d' _ => ?_)
  cases d'.tables.offices.lookup organizationId with
  | none => trivial
  | some office => exact h office d'

theorem wp_confirmed (bookingId : String) (managementToken : Option String) :
    (protocol t).wp (confirmed organizationId bookingId managementToken)
      (fun _ _ _ d => Told t d { organizationId, event := .confirmed bookingId managementToken })
      (fun _ _ => True) held δ d := by
  apply wp_runWithOrganization
  intro office d
  refine (Proto.wp_bind _ _).mpr (Proto.wp_mono wp_load ?_ fun _ _ _ => trivial)
  rintro (_ | row) held δ d ⟨hid, hfound⟩
  · exact fun hb => absurd rfl (hfound hb)
  · have hrow := hid row rfl
    obtain ⟨hall, ⟨c, hc, hckind, hcchannel⟩, o, ho, hokind, hochannel⟩ :=
      confirmedInputs_spec office managementToken row
    have hkey : ∀ {m d}, Kept t d → m ∈ confirmedInputs office managementToken row → m.channel = .EMAIL →
        oncePerBooking m.kind = true → QueueInput.key m ∈ d.keys → d.Has m.kind bookingId := by
      intro m d hd hm hchannel honce hkey
      rw [QueueInput.key, hchannel, (hall m hm).1, (hall m hm).2.1, hrow] at hkey
      exact has_of_key hd honce hkey
    refine (Proto.wp_bind _ _).mpr (Proto.wp_mono (wp_notify (fun m hm _ => ?_)
      (together_confirmed office managementToken row)) ?_ fun _ _ _ => trivial)
    · exact ⟨(hall m hm).2.1, _, (hall m hm).1⟩
    · rintro _ held δ d ⟨hd, hkeys⟩
      refine wp_reminders (fun _ _ hgrows h => hgrows.told h) fun _ => ⟨?_, ?_⟩
      · rw [← hckind]
        exact hkey hd hc hcchannel (by rw [hckind]; rfl) (hkeys c hc)
      · rw [← hokind]
        exact hkey hd ho hochannel (by rw [hokind]; rfl) (hkeys o ho)

theorem canceledMessages_kind {office : Office} {row : BookingRow} {m : QueueInput}
    (h : canceledMessages office row = .ok m) :
    QueueInput.Formed m ∧ isPaired m.kind = false ∧
      (QueueInput.key m = dedupeKey .BOOKING_CANCELED_BY_BUSINESS .EMAIL (some row.booking.id) none ∨
        QueueInput.key m = dedupeKey .BOOKING_CANCELED_BY_CUSTOMER .EMAIL (some row.booking.id) none) := by
  obtain ⟨refunded, -, h⟩ := bind_eq_ok.mp h
  split at h
  · cases h
    exact ⟨formed_toCustomer, rfl, .inl rfl⟩
  · obtain ⟨paid, -, h⟩ := bind_eq_ok.mp h
    obtain ⟨retained, -, h⟩ := bind_eq_ok.mp h
    cases h
    exact ⟨formed_toCustomer, rfl, .inr rfl⟩

theorem wp_canceled (bookingId : String) (already : Bool) :
    (protocol t).wp (canceled organizationId bookingId already)
      (fun _ _ _ d => Told t d { organizationId, event := .canceled bookingId already })
      (fun _ _ => True) held δ d := by
  apply wp_runWithOrganization
  intro office d
  cases already with
  | true =>
    refine wp_reminders (fun _ _ hgrows h => hgrows.told h) fun hfalse => ?_
    cases hfalse
  | false =>
    refine (Proto.wp_bind _ _).mpr (Proto.wp_mono wp_load ?_ fun _ _ _ => trivial)
    rintro (_ | row) held δ d ⟨hid, hfound⟩
    · exact fun _ hb => absurd rfl (hfound hb)
    · have hrow := hid row rfl
      show (protocol t).wp (match canceledMessages office row with
        | .error e => throw e
        | .ok message => _) _ _ _ _ _
      cases hmessage : canceledMessages office row with
      | error e => trivial
      | ok m =>
        obtain ⟨hformed, hpaired, hkey⟩ := canceledMessages_kind hmessage
        refine (Proto.wp_bind _ _).mpr (Proto.wp_mono (wp_notify_one hformed hpaired) ?_ fun _ _ _ => trivial)
        rintro _ held δ d ⟨hd, hmem⟩
        refine wp_reminders (fun _ _ hgrows h => hgrows.told h) fun _ _ => ?_
        rw [hrow] at hkey
        rcases hkey with hkey | hkey
        · exact .inl (has_of_key hd rfl (hkey ▸ hmem))
        · exact .inr (has_of_key hd rfl (hkey ▸ hmem))

theorem wp_rescheduled (bookingId previous : String) (managementToken : Option String) (already : Bool) :
    (protocol t).wp (rescheduled organizationId bookingId previous managementToken already)
      (fun _ _ _ d => Told t d {
        organizationId, event := .rescheduled bookingId previous managementToken already })
      (fun _ _ => True) held δ d := by
  apply wp_runWithOrganization
  intro office d
  refine (Proto.wp_bind _ _).mpr (Proto.wp_mono wp_load ?_ fun _ _ _ => trivial)
  rintro found held δ d ⟨hid, hfound⟩
  refine (Proto.wp_bind _ _).mpr (Proto.wp_mono wp_load ?_ fun _ _ _ => trivial)
  rintro foundPrevious held δ d ⟨-, hprevious⟩
  cases found with
  | none => exact fun _ hb _ => absurd rfl (hfound hb)
  | some row =>
    cases foundPrevious with
    | none => exact fun _ _ hp => absurd rfl (hprevious hp)
    | some before =>
      have hrow := hid row rfl
      have hreminders : ∀ {held δ d}, Told t d {
            organizationId, event := .rescheduled bookingId previous managementToken already } →
          (protocol t).wp (do reminders; reminders) (fun _ _ _ d => Told t d {
            organizationId, event := .rescheduled bookingId previous managementToken already })
            (fun _ _ => True) held δ d := by
        intro held δ d htold
        refine (Proto.wp_bind _ _).mpr (Proto.wp_mono
          (wp_reminders (fun _ _ hgrows h => hgrows.told h) htold) ?_ fun _ _ _ => trivial)
        intro _ held δ d htold
        exact wp_reminders (fun _ _ hgrows h => hgrows.told h) htold
      cases already with
      | true => exact hreminders fun hfalse => by cases hfalse
      | false =>
        refine (Proto.wp_bind _ _).mpr (Proto.wp_mono
          (wp_notify_one formed_toCustomer (rfl : isPaired .BOOKING_RESCHEDULED = false)) ?_ fun _ _ _ => trivial)
        rintro _ held δ d ⟨hd, hmem⟩
        refine hreminders fun _ _ _ => has_of_key hd rfl ?_
        rw [← hrow]
        exact hmem

theorem wp_paymentFailed (bookingId : String) :
    (protocol t).wp (paymentFailed organizationId bookingId)
      (fun _ _ _ d => Told t d { organizationId, event := .paymentFailed bookingId })
      (fun _ _ => True) held δ d := by
  apply wp_runWithOrganization
  intro office d
  refine (Proto.wp_bind _ _).mpr (Proto.wp_mono wp_load ?_ fun _ _ _ => trivial)
  rintro (_ | row) held δ d ⟨hid, hfound⟩
  · exact fun hb => absurd rfl (hfound hb)
  · have hrow := hid row rfl
    refine (Proto.wp_bind _ _).mpr (Proto.wp_mono
      (wp_notify_one formed_toCustomer (rfl : isPaired .BOOKING_CANCELED_BY_BUSINESS = false)) ?_
      fun _ _ _ => trivial)
    rintro _ held δ d ⟨hd, hmem⟩
    refine wp_reminders (fun _ _ hgrows h => hgrows.told h) fun _ => has_of_key hd rfl ?_
    rw [← hrow]
    exact hmem

/-- A refund is read with the booking it has always been on. -/
theorem refund_found {d : Db} (hd : Kept t d) {refundId : String} :
    ∀ r ∈ t.refunds, r.id = refundId → ∃ r', d.tables.refunds.find? (fun r => decide (r.id = refundId)) = some r' ∧
      r'.id = refundId ∧ r'.bookingId = r.bookingId := by
  rintro r hr rfl
  obtain ⟨r', hr', hid, hbooking⟩ := hd.persist.refunds r hr
  cases hfind : d.tables.refunds.find? (fun x => decide (x.id = r.id)) with
  | none => exact absurd hid (by simpa using List.find?_eq_none.mp hfind r' hr')
  | some x =>
    have hx : x.id = r.id := by simpa using List.find?_some hfind
    have hsame := List.inj_on_of_nodup_map d.tables.refunds_pkey (List.mem_of_find?_eq_some hfind) hr'
      (hx.trans hid.symm)
    exact ⟨x, rfl, hx, by rw [hsame]; exact hbooking⟩

theorem wp_refundSucceeded (refundId : String) :
    (protocol t).wp (refundSucceeded organizationId refundId)
      (fun _ _ _ d => Told t d { organizationId, event := .refundSucceeded refundId })
      (fun _ _ => True) held δ d := by
  apply wp_runWithOrganization
  intro office d
  refine (Proto.wp_bind _ _).mpr (wp_query fun d₁ hd₁ => ?_)
  cases hfind : d₁.tables.refunds.find? (fun r => decide (r.id = refundId)) with
  | none =>
    intro r hr hid
    obtain ⟨r', hr', -⟩ := refund_found hd₁ r hr hid
    rw [hfind] at hr'
    cases hr'
  | some refund =>
    have hrefund : ∀ r ∈ t.refunds, r.id = refundId → refund.id = refundId ∧ refund.bookingId = r.bookingId := by
      intro r hr hid
      obtain ⟨r', hr', hrest⟩ := refund_found hd₁ r hr hid
      rw [hfind] at hr'
      cases hr'
      exact hrest
    refine (Proto.wp_bind _ _).mpr (Proto.wp_mono wp_load ?_ fun _ _ _ => trivial)
    rintro (_ | row) held δ d ⟨hid, hfound⟩
    · intro r hr hrid hb
      rw [← (hrefund r hr hrid).2] at hb
      exact absurd rfl (hfound hb)
    · refine Proto.wp_mono (wp_notify_one (m := refundMessage office row refund) (fun hfalse => by cases hfalse) rfl)
        ?_ fun _ _ _ => trivial
      rintro _ held δ d ⟨hd, hmem⟩ r hr hrid hb
      obtain ⟨hrefundId, hbooking⟩ := hrefund r hr hrid
      rw [← hbooking, ← hid row rfl, ← hrefundId]
      exact hmem

theorem wp_handle (job : Job) :
    (protocol t).wp (handle job) (fun _ _ _ d => Told t d job) (fun _ _ => True) held δ d := by
  obtain ⟨organizationId, event⟩ := job
  cases event with
  | confirmed bookingId token => exact wp_confirmed bookingId token
  | canceled bookingId already => exact wp_canceled bookingId already
  | rescheduled bookingId previous token already => exact wp_rescheduled bookingId previous token already
  | refundSucceeded refundId => exact wp_refundSucceeded refundId
  | paymentFailed bookingId => exact wp_paymentFailed bookingId

/-- A job that is completed has queued what it stands for. -/
theorem safe_deliver (job : Job) : (protocol t).Safe (deliver job) := by
  intro d _
  refine (Proto.wp_bind _ _).mpr (Proto.wp_mono (wp_handle job) ?_ fun _ _ _ => trivial)
  intro _ held δ d htold d' hrely hd'
  have htold' : Told t d' job := (grows_of_rely hrely).told htold
  have hgrows : Grows d' { d' with completed := d'.completed ++ [job] } := ⟨List.prefix_rfl, Persist.refl⟩
  refine ⟨⟨hgrows, ⟨hd'.keys, hd'.sends, hd'.formed, hd'.paired, ?_, hd'.persist⟩, ?_⟩, trivial⟩
  · intro done hdone
    rcases List.mem_append.mp hdone with hdone | hdone
    · exact hgrows.told (hd'.told done hdone)
    · rw [List.mem_singleton.mp hdone]
      exact hgrows.told htold'
  · intro l _
    cases l with
    | dedupeKey key => exact Iff.rfl

theorem safe_elsewhere {f : Db → Db} (hf : Elsewhere f) : (protocol t).Safe (.call f fun _ => .ret ()) := by
  intro d _ d' _ hd'
  have hw : Writing [] f d' [] := writing_of_elsewhere hf
  refine ⟨?_, trivial⟩
  obtain ⟨hgrows, hkept, hsame⟩ := guarantee_commit hd' hw from_nil formed_nil together_nil seen_nil
  exact ⟨hgrows, hkept, fun l _ => hsame l List.not_mem_nil⟩

theorem formed_request {office : Office} {requestId : String} {row : BookingRow} (news : RequestNews) :
    ∀ m ∈ requestMessages office requestId row news, QueueInput.Formed m := by
  intro m hm honce
  cases news with
  | cancellationReceived suggested reason =>
    simp only [requestMessages, List.mem_cons, List.not_mem_nil, or_false] at hm
    rcases hm with rfl | rfl <;> cases honce
  | rescheduleReceived requestedStartsAt =>
    rw [List.mem_singleton.mp hm] at honce
    cases honce
  | cancellationDecided approved retained refunded note =>
    rw [List.mem_singleton.mp hm] at honce
    cases honce
  | rescheduleDecided approved token note =>
    rw [List.mem_singleton.mp hm] at honce
    cases honce

/-- A read in a transaction leaves it as it is. -/
theorem wp_loadIn {bookingId : String} (hw : Writing held δ d more) :
    (protocol t).wp (load (select (S := store) ()) organizationId bookingId)
      (fun _ held δ d => Writing held δ d more) (fun _ _ => True) held δ d := by
  refine (Proto.wp_bind _ _).mpr (Proto.wp_select (fun _ _ _ => trivial) fun d₁ hrely₁ _ _ => ?_)
  cases findBooking organizationId bookingId (δ d₁) with
  | none => exact hw.rely hrely₁
  | some found =>
    refine (Proto.wp_bind _ _).mpr (Proto.wp_select (fun _ _ _ => trivial) fun d₂ hrely₂ _ _ => ?_)
    cases BookingFinancialsService.load (δ d₂).tables.toBooks organizationId bookingId with
    | ok financials => exact (hw.rely hrely₁).rely hrely₂
    | error e =>
      cases e with
      | app e =>
        show (protocol t).wp (if e.code = "NOT_FOUND" then pure none else throw (.app e)) _ _ _ _ _
        split
        · exact (hw.rely hrely₁).rely hrely₂
        · trivial
      | database e => trivial
      | stripe kind message => trivial
      | error message => trivial

theorem safe_request {f : Db → Db} (hf : Elsewhere f) (office : Office) (requestId bookingId : String)
    (news : RequestNews) :
    (protocol t).Safe (transaction (S := store) () do
      modify (S := store) () (fun _ => []) (fun _ => f) fun _ => ()
      queueRequest office organizationId requestId bookingId news) := by
  intro d _
  refine Proto.wp_mono (wp_transaction (Q := fun _ _ _ _ => True) fun d₁ => ?_) (fun _ _ _ _ _ => trivial)
    fun _ _ _ => trivial
  refine (Proto.wp_bind _ _).mpr (Proto.wp_modify (fun _ _ _ => trivial) fun d₂ _ _ _ => ?_)
  have hnone : ∀ {held δ d}, Writing held δ d [] →
      (protocol t).Commits () (fun _ _ _ _ => True) () held δ d := by
    intro held δ d hw d' hrely hinv hassume hlegal
    have hcommit := commits_queued formed_nil together_nil hw from_nil seen_nil d' hrely hinv hassume
      hlegal
    exact ⟨hcommit.1, trivial⟩
  refine (Proto.wp_bind _ _).mpr (Proto.wp_mono (wp_loadIn (writing_of_elsewhere hf)) ?_ fun _ _ _ => trivial)
  rintro (_ | row) held δ d hw
  · exact hnone hw
  · refine Proto.wp_mono (wp_queueAll hw from_nil seen_nil) ?_ fun _ _ _ => trivial
    rintro ⟨⟩ held δ d ⟨more, hw, hfrom, hseen⟩ d' hrely hinv hassume hlegal
    have hcommit := commits_queued (formed_request news) (together_request news) hw hfrom hseen d' hrely hinv
      hassume hlegal
    exact ⟨hcommit.1, trivial⟩

theorem MessageOp.safe {c : Tx Unit} (h : MessageOp c) : (protocol t).Safe c := by
  cases h with
  | deliver job => exact safe_deliver job
  | request office organizationId requestId bookingId news f hf =>
    exact safe_request hf office requestId bookingId news
  | others organizationId messages hkind =>
    intro d _
    refine Proto.wp_mono (wp_queued (fun m hm honce => ?_) (together_of_isPaired fun m hm => ?_))
      (fun _ _ _ _ _ => trivial) fun _ _ _ => trivial
    · rcases hkind m hm with hm | hm <;> rw [hm] at honce <;> cases honce
    · rcases hkind m hm with hm | hm <;> rw [hm] <;> rfl
  | elsewhere f hf => exact safe_elsewhere hf

end Programs

/-! ## Every run -/

/-- A database without messages. -/
def Db.start (t : Tables) : Db := { tables := t }

theorem unpaid_amount_check : ∀ p ∈ ([] : List Payment), 0 < p.amountCents :=
  List.forall_mem_nil _

theorem unpaid_amount_int4 : ∀ p ∈ ([] : List Payment), p.amountCents ≤ 2147483647 :=
  List.forall_mem_nil _

theorem unpaid_manual_check : ∀ m ∈ ([] : List ManualPaymentRow), m.amountCents ≠ 0 :=
  List.forall_mem_nil _

theorem unpaid_manual_int4 :
    ∀ m ∈ ([] : List ManualPaymentRow), -2147483648 ≤ m.amountCents ∧ m.amountCents ≤ 2147483647 :=
  List.forall_mem_nil _

/-- A customer with a booking. -/
def Tables.sample : Tables where
  bookings := [{ Booking.sample with id := "b", customerId := "c", organizationId := "o" }]
  payments := []
  manualPayments := []
  refunds := []
  customers := [.sample "Ada" "ada@example.org"]
  offices := [("o", .sample)]
  bookings_pkey := List.nodup_singleton _
  payments_pkey := List.nodup_nil
  manual_payments_pkey := List.nodup_nil
  refunds_pkey := List.nodup_nil
  financial_root_fkey b hb root hroot := by
    rw [List.mem_singleton.mp hb] at hroot
    cases hroot
  payments_booking_fkey _ h := absurd h List.not_mem_nil
  manual_payments_booking_fkey _ h := absurd h List.not_mem_nil
  payments_amount_check := unpaid_amount_check
  payments_amount_int4 := unpaid_amount_int4
  manual_payments_amount_check := unpaid_manual_check
  manual_payments_amount_int4 := unpaid_manual_int4
  bookings_customer_fkey b hb := by
    rw [List.mem_singleton.mp hb]
    exact ⟨_, List.mem_singleton.mpr rfl, rfl⟩

def Job.sample : Job where
  organizationId := "o"
  event := .confirmed "b" none

end BookingApp.Messages

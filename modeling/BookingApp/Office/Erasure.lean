import BookingApp.Encoding.Instant
import BookingApp.Messaging.Fingerprint
import BookingApp.Notification.Sending
import BookingApp.Store.Session
import BookingApp.Table
import BookingApp.Errors
import Mathlib.Data.Rat.Defs

/-!
# Erasure of a customer (`office/customers.service.ts`, `notification.reconciler.ts`)

What is known of a customer stands in their own row, and in what other services have
copied from it: the note of a booking, the recipient, subject and frozen data of a
message, the snapshots of the audit trail. Erasure overwrites the row, and the redaction
of old messages their recipient and subject. Two states that differ in nothing but one
customer's data are equal afterwards when and only when the other copies are.
-/

set_option autoImplicit false

namespace BookingApp.Erasure

open Encoding Sending

structure Customer where
  id : String
  organizationId : String
  email : String
  emailNormalized : String
  firstName : String
  lastName : String
  phone : Option String := none
  locale : Locale := .de
  marketingConsentAt : Option Int := none
  internalNote : Option String := none
  archivedAt : Option Int := none
  createdAt : Int
  updatedAt : Int
  deriving DecidableEq, Repr

instance : Keyed Customer String := ⟨Customer.id⟩

structure Notification where
  id : String
  organizationId : String
  bookingId : Option String := none
  customerId : Option String := none
  kind : NotificationKind
  channel : NotificationChannel
  locale : Locale
  recipient : String
  subject : Option String := none
  status : NotificationStatus := .PENDING
  attempts : Nat := 0
  lastError : Option String := none
  dedupeKey : String
  payload : Json String
  createdAt : Int
  updatedAt : Int

inductive AuditAction where
  | BOOKING_CREATED_MANUALLY | BOOKING_CANCELED | BOOKING_RESCHEDULED | BOOKING_MARKED_NO_SHOW
  | BOOKING_MARKED_COMPLETED | CANCELLATION_REQUEST_DECIDED | RESCHEDULE_REQUEST_DECIDED
  | MANUAL_PAYMENT_RECORDED | REFUND_ISSUED | SETTINGS_UPDATED | EMPLOYEE_CREATED | EMPLOYEE_UPDATED
  | EMPLOYEE_ARCHIVED | SERVICE_CREATED | SERVICE_UPDATED | SERVICE_ARCHIVED | OFFICE_USER_CREATED
  | OFFICE_USER_UPDATED | OFFICE_USER_ARCHIVED | WORKING_HOURS_REPLACED | EMPLOYEE_SERVICES_REPLACED
  | AVAILABILITY_EXCEPTION_CREATED | AVAILABILITY_EXCEPTION_DELETED | TIME_OFF_CREATED | TIME_OFF_UPDATED
  | BLOCKED_TIME_CREATED | BLOCKED_TIME_DELETED | CLOSED_DAY_CREATED | CLOSED_DAY_DELETED
  | SERVICE_CATEGORY_CREATED | SERVICE_CATEGORY_UPDATED | SERVICE_CATEGORY_ARCHIVED | CUSTOMER_UPDATED
  | CUSTOMER_ERASED | ORGANIZATION_ONBOARDING_LINK_REQUESTED | ORGANIZATION_DOMAIN_ADDED
  | ORGANIZATION_DOMAIN_REMOVED
  deriving DecidableEq, Repr

structure AuditLog where
  id : String
  organizationId : String
  officeUserId : Option String := none
  action : AuditAction
  entityType : String
  entityId : String
  summary : String
  before : Option (Json String) := none
  after : Option (Json String) := none
  correlationId : Option String := none
  createdAt : Int

/-- The tables that know of customers. -/
structure Records where
  customers : List Customer := []
  bookings : List Booking := []
  payments : List Payment := []
  refunds : List Refund := []
  notifications : List Notification := []
  auditLogs : List AuditLog := []

/-- A request: its time, the organization it is of, and the ids of what it inserts. -/
structure Request where
  now : Int
  organizationId : String
  ids : Nat → String
  correlationId : Option String := none

/-! ## The audit trail -/

/-- The fields that the paths of the log redaction end in. -/
def REDACTED_FIELDS : List String :=
  ["authorization", "cookie", "set-cookie", "idempotency-key", "password", "newPassword", "currentPassword",
    "token", "tokenHash", "idempotencyKey", "managementToken", "onboardingLink", "email", "phone",
    "emailNormalized", "customerNote"]

mutual

/-- The value with the fields censored that the trail must not store. -/
def redact : Json String → Json String
  | .arr items => .arr (redactItems items)
  | .obj fields => .obj (redactFields fields)
  | value => value

def redactItems : List (Json String) → List (Json String)
  | [] => []
  | item :: rest => redact item :: redactItems rest

def redactFields : List (String × Json String) → List (String × Json String)
  | [] => []
  | (key, item) :: rest =>
    (key, if key ∈ REDACTED_FIELDS then .str "[Redacted]" else redact item) :: redactFields rest

end

structure AuditEntry where
  organizationId : String
  officeUserId : Option String
  action : AuditAction
  entityType : String
  entityId : String
  summary : String
  before : Option (Json String) := none
  after : Option (Json String) := none

/-- `AuditService.record` -/
def recordAudit (request : Request) (entry : AuditEntry) (σ : Records) : Records :=
  { σ with auditLogs := σ.auditLogs ++ [{
      id := request.ids 0
      organizationId := entry.organizationId
      officeUserId := entry.officeUserId
      action := entry.action
      entityType := entry.entityType
      entityId := entry.entityId
      summary := entry.summary
      before := entry.before.map redact
      after := entry.after.map redact
      correlationId := request.correlationId
      createdAt := request.now }] }

/-! ## Customers -/

def customerNotFound : Failure :=
  .app { code := "NOT_FOUND", message := "Customer not found." }

def load (request : Request) (id : String) (σ : Records) : Except Failure Customer :=
  match (Table.find id σ.customers).filter fun c => decide (c.organizationId = request.organizationId) with
  | none => throw customerNotFound
  | some customer => return customer

def addressInUse : Failure :=
  .app {
    code := "VALIDATION_FAILED"
    message := "Another customer already uses that address."
    details := [("issues.0.path.0", "email"), ("issues.0.message", "already in use"),
      ("issues.0.code", "duplicate")] }

/-- Writes a row of which only one may have its address in an organization. -/
def write (request : Request) (customer : Customer) (change : Customer → Customer) (σ : Records) :
    Except Failure (Customer × Records) :=
  let updated := { change customer with updatedAt := request.now }
  if ∃ other ∈ σ.customers, other.id ≠ customer.id ∧ other.organizationId = updated.organizationId ∧
      other.emailNormalized = updated.emailNormalized then
    throw addressInUse
  else return (updated,
    { σ with customers := Table.update [customer.id] (fun _ => updated) σ.customers })

def isoText (t : Int) : Json String :=
  .str (String.ofList (toISOString t))

def orNull : Option (Json String) → Json String
  | some value => value
  | none => .null

def localeText : Locale → String
  | .de => "de"
  | .en => "en"

def toDto (customer : Customer) : Json String :=
  .obj [("id", .str customer.id), ("firstName", .str customer.firstName), ("lastName", .str customer.lastName),
    ("email", .str customer.email), ("phone", orNull (customer.phone.map .str)),
    ("locale", .str (localeText customer.locale)), ("internalNote", orNull (customer.internalNote.map .str)),
    ("marketingConsentAt", orNull (customer.marketingConsentAt.map isoText)),
    ("archivedAt", orNull (customer.archivedAt.map isoText)), ("createdAt", isoText customer.createdAt)]

structure UpdateCustomerRequest where
  firstName : Option String := none
  lastName : Option String := none
  email : Option String := none
  phone : Option (Option String) := none
  locale : Option Locale := none
  internalNote : Option (Option String) := none

def UpdateCustomerRequest.apply (patch : UpdateCustomerRequest) (customer : Customer) : Customer :=
  { customer with
    firstName := patch.firstName.getD customer.firstName
    lastName := patch.lastName.getD customer.lastName
    email := patch.email.getD customer.email
    emailNormalized := (patch.email.map normaliseText).getD customer.emailNormalized
    phone := patch.phone.getD customer.phone
    locale := patch.locale.getD customer.locale
    internalNote := patch.internalNote.getD customer.internalNote }

def update (request : Request) (id officeUserId : String) (patch : UpdateCustomerRequest) (σ : Records) :
    Except Failure (Json String × Records) := do
  let before ← load request id σ
  let (customer, σ) ← write request before patch.apply σ
  return (toDto customer, recordAudit request {
    organizationId := customer.organizationId
    officeUserId := some officeUserId
    action := .CUSTOMER_UPDATED
    entityType := "Customer"
    entityId := customer.id
    summary := s!"customer {customer.id} updated"
    before := some (toDto before)
    after := some (toDto customer) } σ)

/-- The bookings of a customer, by id. -/
def bookingIdsOf (id : String) (σ : Records) : List String :=
  (σ.bookings.filter fun b => decide (b.customerId = id)).map Booking.id

def unsettledPayments (organizationId id : String) (σ : Records) : Nat :=
  σ.payments.countP fun p => decide (p.organizationId = organizationId ∧ p.status = .PENDING ∧
    p.bookingId ∈ bookingIdsOf id σ)

def unsettledRefunds (organizationId id : String) (σ : Records) : Nat :=
  σ.refunds.countP fun r => decide (r.organizationId = organizationId ∧ r.status = .PENDING ∧
    r.bookingId ∈ bookingIdsOf id σ)

def pseudonym (id : String) : String :=
  s!"erased-{id}@erased.invalid"

/-- What an erased customer is called. -/
def Customer.erased (now : Int) (customer : Customer) : Customer :=
  { customer with
    firstName := "Erased"
    lastName := "Customer"
    email := pseudonym customer.id
    emailNormalized := pseudonym customer.id
    phone := none
    internalNote := none
    marketingConsentAt := none
    archivedAt := some now }

structure EraseCustomerResponse where
  customerId : String
  erasedAt : Int
  bookingsRetained : Nat
  deriving DecidableEq, Repr

/-- Pseudonymises a customer, and keeps the bookings. -/
def erase (request : Request) (id officeUserId : String) (σ : Records) :
    Except Failure (EraseCustomerResponse × Records) := do
  let customer ← load request id σ
  let organizationId := customer.organizationId
  let unsettledPayments := unsettledPayments organizationId id σ
  let unsettledRefunds := unsettledRefunds organizationId id σ
  if unsettledPayments + unsettledRefunds > 0 then
    throw (.app {
      code := "PAYMENT_NOT_REFUNDABLE"
      message := "Settle the outstanding payment or refund before erasing this customer."
      details := [("unsettledPayments", toString unsettledPayments),
        ("unsettledRefunds", toString unsettledRefunds)] })
  let bookingsRetained := σ.bookings.countP fun b =>
    decide (b.organizationId = organizationId ∧ b.customerId = id)
  let (_, σ) ← write request customer (Customer.erased request.now) σ
  return ({ customerId := id, erasedAt := request.now, bookingsRetained }, recordAudit request {
    organizationId
    officeUserId := some officeUserId
    action := .CUSTOMER_ERASED
    entityType := "Customer"
    entityId := id
    summary := s!"customer {id} pseudonymised, {bookingsRetained} booking(s) retained"
    after := some (.obj [("erasedAt", isoText request.now), ("bookingsRetained", .num bookingsRetained)]) } σ)

/-! ## Notifications -/

def REDACTED : String :=
  "[redacted]"

def NOTIFICATION_REDACT_AFTER_DAYS : Int :=
  90

/-- The rows that are redacted at a time. -/
def Notification.Due (now : Int) (n : Notification) : Prop :=
  n.createdAt < now - NOTIFICATION_REDACT_AFTER_DAYS * 86400000 ∧ n.recipient ≠ REDACTED

instance (now : Int) (n : Notification) : Decidable (n.Due now) :=
  inferInstanceAs (Decidable (_ ∧ _))

def Notification.redacted (now : Int) (n : Notification) : Notification :=
  if n.Due now then { n with recipient := REDACTED, subject := none, updatedAt := now } else n

/-- Clears recipient and subject of what is older than ninety days. -/
def redactOld (now : Int) (σ : Records) : Nat × Records :=
  (σ.notifications.countP fun n => decide (n.Due now),
    { σ with notifications := σ.notifications.map (Notification.redacted now) })

/-- What the tenant's settings and the other tables say that a message shows. -/
structure Office where
  name : String
  contactPhone : String
  addressLine1 : String
  postalCode : String
  city : String
  contactEmail : String
  defaultLocale : Locale
  freeCancellationHours : Int
  smsConfirmationsEnabled : Bool
  officeNotificationEmail : String
  publicWebOrigin : String
  displayNameOf : String → String

structure QueueInput where
  kind : NotificationKind
  channel : NotificationChannel
  locale : Locale
  recipient : String
  bookingId : Option String := none
  customerId : Option String := none
  dedupeDiscriminator : Option String := none
  data : List (String × Json String)

def kindText : NotificationKind → String
  | .BOOKING_CONFIRMATION => "BOOKING_CONFIRMATION"
  | .BOOKING_CANCELED_BY_CUSTOMER => "BOOKING_CANCELED_BY_CUSTOMER"
  | .BOOKING_CANCELED_BY_BUSINESS => "BOOKING_CANCELED_BY_BUSINESS"
  | .BOOKING_RESCHEDULED => "BOOKING_RESCHEDULED"
  | .REMINDER_24H => "REMINDER_24H"
  | .CANCELLATION_REQUEST_RECEIVED => "CANCELLATION_REQUEST_RECEIVED"
  | .CANCELLATION_REQUEST_DECIDED => "CANCELLATION_REQUEST_DECIDED"
  | .RESCHEDULE_REQUEST_RECEIVED => "RESCHEDULE_REQUEST_RECEIVED"
  | .RESCHEDULE_REQUEST_DECIDED => "RESCHEDULE_REQUEST_DECIDED"
  | .REFUND_ISSUED => "REFUND_ISSUED"
  | .OFFICE_NEW_BOOKING => "OFFICE_NEW_BOOKING"
  | .OFFICE_CANCELLATION_REQUEST => "OFFICE_CANCELLATION_REQUEST"
  | .OFFICE_PASSWORD_RESET => "OFFICE_PASSWORD_RESET"

def channelText : NotificationChannel → String
  | .EMAIL => "EMAIL"
  | .SMS => "SMS"

def dedupeKey (kind : NotificationKind) (channel : NotificationChannel) (bookingId discriminator : Option String) :
    String :=
  ":".intercalate [kindText kind, channelText channel, bookingId.getD "-", discriminator.getD "-"]

/-- Inserts a message unless it is there. The data are frozen in the row. -/
def queue (request : Request) (row : Nat) (input : QueueInput) (σ : Records) : Records :=
  let key := dedupeKey input.kind input.channel input.bookingId input.dedupeDiscriminator
  if ∃ n ∈ σ.notifications, n.dedupeKey = key then σ
  else { σ with notifications := σ.notifications ++ [{
      id := request.ids row
      organizationId := request.organizationId
      bookingId := input.bookingId
      customerId := input.customerId
      kind := input.kind
      channel := input.channel
      locale := input.locale
      recipient := input.recipient
      dedupeKey := key
      payload := .obj input.data
      createdAt := request.now
      updatedAt := request.now }] }

def appointmentData (office : Office) (booking : Booking) (customer : Customer) : List (String × Json String) :=
  [("businessName", .str office.name), ("businessPhone", .str office.contactPhone),
    ("addressLine", .str s!"{office.addressLine1}, {office.postalCode} {office.city}"),
    ("businessEmail", .str office.contactEmail), ("reference", .str booking.reference),
    ("serviceName", .str booking.serviceNameSnapshot),
    ("employeeName", .str (office.displayNameOf booking.employeeId)), ("startsAt", isoText booking.startsAt),
    ("endsAt", isoText booking.endsAt), ("priceCents", .num booking.priceCentsSnapshot),
    ("currency", .str booking.currency), ("customerFirstName", .str customer.firstName)]

def manageUrl (office : Office) : Option String → String
  | none => s!"{office.publicWebOrigin}/manage"
  | some token => s!"{office.publicWebOrigin}/manage#{token}"

/-- The confirmation, to an address or to a number. -/
def confirmation (office : Office) (managementToken : Option String) (booking : Booking) (customer : Customer)
    (channel : NotificationChannel) (recipient : String) (freeCancellationUntil : Json String) : QueueInput where
  kind := .BOOKING_CONFIRMATION
  channel := channel
  locale := booking.locale
  recipient := recipient
  bookingId := some booking.id
  customerId := some customer.id
  data := appointmentData office booking customer ++
    [("manageUrl", .str (manageUrl office managementToken)), ("freeCancellationUntil", freeCancellationUntil)]

/-- What the office is told. -/
def officeCopy (office : Office) (booking : Booking) (customer : Customer) : QueueInput where
  kind := .OFFICE_NEW_BOOKING
  channel := .EMAIL
  locale := office.defaultLocale
  recipient := office.officeNotificationEmail
  bookingId := some booking.id
  data := appointmentData office booking customer ++
    [("customerName", .str s!"{customer.firstName} {customer.lastName}"), ("customerEmail", .str customer.email),
      ("customerPhone", orNull (customer.phone.map .str)), ("customerNote", orNull (booking.customerNote.map .str))]

def freeCancellationUntil (office : Office) (booking : Booking) : Json String :=
  if office.freeCancellationHours > 0 then isoText (booking.startsAt - office.freeCancellationHours * 3600000)
  else .null

/-- The messages of a confirmed booking: to the customer, by text, too, where they have a number and
the business wants it, and to the office. -/
def confirmedMessages (office : Office) (managementToken : Option String) (booking : Booking) (customer : Customer) :
    List (Nat × QueueInput) :=
  let email := confirmation office managementToken booking customer .EMAIL customer.email
    (freeCancellationUntil office booking)
  let copy := officeCopy office booking customer
  match customer.phone.filter fun _ => office.smsConfirmationsEnabled with
  | some phone => [(0, email), (1, confirmation office managementToken booking customer .SMS phone .null), (2, copy)]
  | none => [(0, email), (2, copy)]

def queueAll (request : Request) (messages : List (Nat × QueueInput)) (σ : Records) : Records :=
  messages.foldl (fun σ m => queue request m.1 m.2 σ) σ

/-- The booking of an event and its customer. -/
def bookingOf (request : Request) (bookingId : String) (σ : Records) : Option (Booking × Customer) := do
  let booking ← σ.bookings.find? fun b => decide (b.id = bookingId ∧ b.organizationId = request.organizationId)
  let customer ← Table.find booking.customerId σ.customers
  return (booking, customer)

/-- Queues the messages of a confirmed booking. -/
def confirmed (request : Request) (office : Office) (bookingId : String) (managementToken : Option String)
    (σ : Records) : Records :=
  match bookingOf request bookingId σ with
  | none => σ
  | some (booking, customer) => queueAll request (confirmedMessages office managementToken booking customer) σ

/-! ## Two states that differ in one customer's data -/

def Customer.without (customer : Customer) : Customer :=
  { customer with
    email := "", emailNormalized := "", firstName := "", lastName := "", phone := none, internalNote := none }

def Notification.without (n : Notification) : Notification :=
  { n with recipient := "", subject := none, lastError := none, payload := .null }

def AuditLog.without (entry : AuditLog) : AuditLog :=
  { entry with before := none, after := none }

/-- The messages about a customer or about a booking of theirs. -/
def Notification.About (id : String) (σ : Records) (n : Notification) : Prop :=
  n.customerId = some id ∨ ∃ bookingId ∈ bookingIdsOf id σ, n.bookingId = some bookingId

/-- The states differ in nothing but one customer's name, address, phone and notes, in their row and
where these can have been copied to. -/
structure DifferOnly (id : String) (σ τ : Records) : Prop where
  customers : List.Forall₂ (fun c c' => c = c' ∨ c.id = id ∧ c.without = c'.without) σ.customers τ.customers
  bookings : List.Forall₂ (fun b b' => b = b' ∨ b.customerId = id ∧
    { b with customerNote := none } = { b' with customerNote := none }) σ.bookings τ.bookings
  payments : σ.payments = τ.payments
  refunds : σ.refunds = τ.refunds
  notifications : List.Forall₂ (fun n n' => n = n' ∨ n.About id σ ∧ n.without = n'.without)
    σ.notifications τ.notifications
  auditLogs : List.Forall₂ (fun a a' => a.without = a'.without) σ.auditLogs τ.auditLogs

/-- The marker, the subject and the last change of a row that is redacted already. -/
def Notification.leftover (n : Notification) : Option (Option String × Int) :=
  if n.recipient = REDACTED then some (n.subject, n.updatedAt) else none

/-- The copies that neither erasure nor redaction writes agree. -/
structure SameCopies (σ τ : Records) : Prop where
  notes : σ.bookings.map Booking.customerNote = τ.bookings.map Booking.customerNote
  messages : σ.notifications.map (fun n => (n.payload, n.lastError, n.leftover)) =
    τ.notifications.map fun n => (n.payload, n.lastError, n.leftover)
  snapshots : σ.auditLogs.map (fun a => (a.before, a.after)) = τ.auditLogs.map fun a => (a.before, a.after)

section Rows

variable {α β γ : Type} {R : α → α → Prop} {l m : List α}

/-- Row by row, two functions tell the same rows apart. -/
theorem map_eq_map_iff {f : α → β} {g : α → γ} (h : List.Forall₂ R l m)
    (hfg : ∀ r ∈ l, ∀ s, R r s → (f r = f s ↔ g r = g s)) : l.map f = m.map f ↔ l.map g = m.map g := by
  induction h with
  | nil => simp
  | cons hrs _ ih =>
    rw [List.forall_mem_cons] at hfg
    simp only [List.map_cons, List.cons.injEq, hfg.1 _ hrs, ih hfg.2]

theorem map_eq_map {f : α → β} (h : List.Forall₂ R l m) (hf : ∀ r s, R r s → f r = f s) : l.map f = m.map f := by
  induction h with
  | nil => rfl
  | cons hrs _ ih => rw [List.map_cons, List.map_cons, hf _ _ hrs, ih]

/-- What is the same for corresponding rows, where it holds, is there on both sides. -/
theorem exists_mem_iff {p : α → Prop} (h : List.Forall₂ R l m) (hp : ∀ r s, R r s → (p r ↔ p s)) :
    (∃ r ∈ l, p r) ↔ ∃ s ∈ m, p s := by
  induction h with
  | nil => simp
  | cons hrs _ ih => simp only [List.exists_mem_cons_iff, hp _ _ hrs, ih]

/-- What is found by something that is the same for corresponding rows corresponds. -/
theorem find?_rel {p : α → Bool} (h : List.Forall₂ R l m) (hp : ∀ r s, R r s → p r = p s) :
    Option.Rel R (l.find? p) (m.find? p) := by
  induction h with
  | nil => exact .none
  | @cons r s _ _ hrs _ ih =>
    rw [List.find?_cons, List.find?_cons, hp r s hrs]
    split
    · exact .some hrs
    · exact ih

end Rows

variable {request : Request} {id officeUserId : String} {σ τ : Records}

theorem DifferOnly.bare (h : DifferOnly id σ τ) :
    σ.bookings.map (fun b => { b with customerNote := none }) =
      τ.bookings.map fun b => { b with customerNote := none } := by
  refine map_eq_map h.bookings fun b b' hb => ?_
  rcases hb with rfl | ⟨-, hb⟩
  · rfl
  · exact hb

theorem DifferOnly.bookingIdsOf (h : DifferOnly id σ τ) : bookingIdsOf id σ = bookingIdsOf id τ := by
  have hids (ρ : Records) : Erasure.bookingIdsOf id ρ =
      ((ρ.bookings.map fun b => { b with customerNote := none }).filter fun b =>
        decide (b.customerId = id)).map Booking.id := by
    rw [List.filter_map, List.map_map]
    rfl
  rw [hids, hids, h.bare]

theorem DifferOnly.retained (h : DifferOnly id σ τ) (organizationId : String) :
    (σ.bookings.countP fun b => decide (b.organizationId = organizationId ∧ b.customerId = id)) =
      τ.bookings.countP fun b => decide (b.organizationId = organizationId ∧ b.customerId = id) := by
  have hcount (ρ : Records) :
      (ρ.bookings.countP fun b => decide (b.organizationId = organizationId ∧ b.customerId = id)) =
        (ρ.bookings.map fun b => { b with customerNote := none }).countP fun b =>
          decide (b.organizationId = organizationId ∧ b.customerId = id) := by
    rw [List.countP_map]
    rfl
  rw [hcount, hcount, h.bare]

theorem DifferOnly.unsettledPayments (h : DifferOnly id σ τ) (organizationId : String) :
    unsettledPayments organizationId id σ = unsettledPayments organizationId id τ := by
  rw [Erasure.unsettledPayments, Erasure.unsettledPayments, h.payments, h.bookingIdsOf]

theorem DifferOnly.unsettledRefunds (h : DifferOnly id σ τ) (organizationId : String) :
    unsettledRefunds organizationId id σ = unsettledRefunds organizationId id τ := by
  rw [Erasure.unsettledRefunds, Erasure.unsettledRefunds, h.refunds, h.bookingIdsOf]

theorem load_eq_ok {customer : Customer} : load request id σ = .ok customer ↔
    Table.find id σ.customers = some customer ∧ customer.organizationId = request.organizationId := by
  rw [load]
  cases hfind : Table.find id σ.customers with
  | none => simp
  | some c =>
    by_cases horg : c.organizationId = request.organizationId
    · simp only [Option.filter, horg, decide_true, if_true, Option.some.injEq]
      constructor
      · rintro ⟨rfl⟩
        exact ⟨rfl, horg⟩
      · rintro ⟨rfl, -⟩
        rfl
    · simp only [Option.filter, horg, decide_false]
      constructor
      · rintro ⟨⟩
      · rintro ⟨heq, h⟩
        rw [Option.some.inj heq] at horg
        exact absurd h horg

theorem id_of_without {c c' : Customer} (h : c.without = c'.without) : c.id = c'.id := by
  have hid := congrArg Customer.id h
  exact hid

theorem organizationId_of_without {c c' : Customer} (h : c.without = c'.without) :
    c.organizationId = c'.organizationId := by
  have horg := congrArg Customer.organizationId h
  exact horg

theorem DifferOnly.find (h : DifferOnly id σ τ) :
    (Table.find id σ.customers).map Customer.without = (Table.find id τ.customers).map Customer.without := by
  have hrows := h.customers
  generalize σ.customers = l at hrows ⊢
  generalize τ.customers = m at hrows ⊢
  induction hrows with
  | nil => rfl
  | @cons c c' _ _ hrow _ ih =>
    have hwithout : c.without = c'.without := by
      rcases hrow with rfl | ⟨-, hrow⟩
      · rfl
      · exact hrow
    have hkey : Keyed.key c = Keyed.key c' := id_of_without hwithout
    rw [Table.find_cons, Table.find_cons, hkey]
    split
    · rw [Option.map_some, Option.map_some, hwithout]
    · exact ih

/-- Other customers are the same. -/
theorem DifferOnly.find_of_ne (h : DifferOnly id σ τ) {other : String} (hother : other ≠ id) :
    Table.find other σ.customers = Table.find other τ.customers := by
  have hrows := h.customers
  generalize σ.customers = l at hrows ⊢
  generalize τ.customers = m at hrows ⊢
  induction hrows with
  | nil => rfl
  | @cons c c' _ _ hrow _ ih =>
    rw [Table.find_cons, Table.find_cons, ih]
    rcases hrow with rfl | ⟨hid, hwithout⟩
    · rfl
    · have hkey : Keyed.key c ≠ other := fun he => hother (he.symm.trans hid)
      have hkey' : Keyed.key c' ≠ other :=
        fun he => hother (he.symm.trans ((id_of_without hwithout).symm.trans hid))
      rw [if_neg hkey, if_neg hkey']

/-- The customer is there in both states, and is the same but for their data. -/
theorem DifferOnly.load (h : DifferOnly id σ τ) {customer : Customer} (hload : load request id σ = .ok customer) :
    ∃ customer', load request id τ = .ok customer' ∧ customer.without = customer'.without := by
  obtain ⟨hfind, horg⟩ := load_eq_ok.mp hload
  have hboth := h.find
  rw [hfind, Option.map_some, eq_comm, Option.map_eq_some_iff] at hboth
  obtain ⟨customer', hfind', hwithout⟩ := hboth
  refine ⟨customer', load_eq_ok.mpr ⟨hfind', ?_⟩, hwithout.symm⟩
  rw [organizationId_of_without hwithout, horg]

/-- Erasure leaves nothing of a customer's data in the row. -/
theorem erased_without (now : Int) (customer : Customer) : customer.without.erased now = customer.erased now :=
  rfl

/-- The rows of the other customers are the same. -/
theorem DifferOnly.taken (h : DifferOnly id σ τ) (organizationId address : String) :
    (∃ other ∈ σ.customers, other.id ≠ id ∧ other.organizationId = organizationId ∧
      other.emailNormalized = address) ↔
    ∃ other ∈ τ.customers, other.id ≠ id ∧ other.organizationId = organizationId ∧
      other.emailNormalized = address := by
  refine exists_mem_iff h.customers fun c c' hrow => ?_
  rcases hrow with rfl | ⟨hid, hwithout⟩
  · rfl
  · have hid' : c'.id = id := (id_of_without hwithout).symm.trans hid
    simp [hid, hid']

/-- Once the row is overwritten the customers are the same. -/
theorem DifferOnly.overwritten (h : DifferOnly id σ τ) (row : Customer) :
    Table.update [id] (fun _ => row) σ.customers = Table.update [id] (fun _ => row) τ.customers := by
  refine map_eq_map h.customers fun c c' hrow => ?_
  rcases hrow with rfl | ⟨hid, hwithout⟩
  · rfl
  · have hid' : c'.id = id := (id_of_without hwithout).symm.trans hid
    have hkey : Keyed.key c = id := hid
    have hkey' : Keyed.key c' = id := hid'
    rw [if_pos (by simp [hkey]), if_pos (by simp [hkey'])]

theorem write_eq_ok {customer row : Customer} {change : Customer → Customer} {σ' : Records} :
    write request customer change σ = .ok (row, σ') ↔
      (¬ ∃ other ∈ σ.customers, other.id ≠ customer.id ∧ other.organizationId = (change customer).organizationId ∧
        other.emailNormalized = (change customer).emailNormalized) ∧
      row = { change customer with updatedAt := request.now } ∧
      σ' = { σ with customers := Table.update [customer.id] (fun _ => row) σ.customers } := by
  rw [write]
  split
  · rename_i htaken
    constructor
    · rintro ⟨⟩
    · rintro ⟨hfree, -⟩
      exact absurd htaken hfree
  · rename_i hfree
    constructor
    · rintro ⟨⟩
      exact ⟨hfree, rfl, rfl⟩
    · rintro ⟨-, rfl, rfl⟩
      rfl

/-- What an erasure that succeeds has done, and that it does the same to any state that differs in
the customer's data only. -/
theorem DifferOnly.erase (h : DifferOnly id σ τ) {response : EraseCustomerResponse} {σ' : Records}
    (herase : erase request id officeUserId σ = .ok (response, σ')) :
    ∃ customers entry,
      σ' = { σ with customers, auditLogs := σ.auditLogs ++ [entry] } ∧
      erase request id officeUserId τ =
        .ok (response, { τ with customers, auditLogs := τ.auditLogs ++ [entry] }) := by
  rw [Erasure.erase] at herase
  obtain ⟨customer, hload, herase⟩ := bind_eq_ok.mp herase
  obtain ⟨customer', hload', hwithout⟩ := h.load hload
  have hid : customer.id = id := Table.key_of_find (load_eq_ok.mp hload).1
  have hid' : customer'.id = id := (id_of_without hwithout).symm.trans hid
  have horg := organizationId_of_without hwithout
  dsimp only at herase
  split at herase
  · cases herase
  rename_i hsettled
  obtain ⟨⟨row, σ₁⟩, hwrite, hret⟩ := bind_eq_ok.mp herase
  obtain ⟨hfree, hrow, rfl⟩ := write_eq_ok.mp hwrite
  have hsame : customer'.erased request.now = customer.erased request.now := by
    rw [← erased_without, ← hwithout, erased_without]
  have hwrite' : write request customer' (Customer.erased request.now) τ = .ok (row,
      { τ with customers := Table.update [id] (fun _ => row) σ.customers }) := by
    rw [hid] at hfree
    refine write_eq_ok.mpr ⟨?_, by rw [hsame, hrow], by rw [hid', h.overwritten]⟩
    rw [hid', hsame]
    exact fun htaken => hfree ((h.taken _ _).mpr htaken)
  rw [hid] at hret
  cases hret
  refine ⟨_, _, rfl, ?_⟩
  rw [h.unsettledPayments, h.unsettledRefunds, horg] at hsettled
  rw [Erasure.erase]
  refine bind_eq_ok.mpr ⟨customer', hload', ?_⟩
  dsimp only
  rw [if_neg hsettled]
  refine bind_eq_ok.mpr ⟨_, hwrite', ?_⟩
  rw [horg, h.retained]
  rfl

/-- Two messages are the same, or differ in what they show of the customer. -/
def QueueInput.Like (id : String) (σ : Records) (input input' : QueueInput) : Prop :=
  input = input' ∨
    (input.customerId = some id ∨ ∃ bookingId ∈ Erasure.bookingIdsOf id σ, input.bookingId = some bookingId) ∧
    { input with recipient := "", data := [] } = { input' with recipient := "", data := [] }

/-- Queueing a message copies nothing into other places than those. -/
theorem DifferOnly.queue (h : DifferOnly id σ τ) (row : Nat) {input input' : QueueInput}
    (hinput : input.Like id σ input') :
    DifferOnly id (queue request row input σ) (queue request row input' τ) := by
  have hkey : dedupeKey input.kind input.channel input.bookingId input.dedupeDiscriminator =
      dedupeKey input'.kind input'.channel input'.bookingId input'.dedupeDiscriminator := by
    rcases hinput with rfl | ⟨-, hsame⟩
    · rfl
    · simp only [QueueInput.mk.injEq] at hsame
      obtain ⟨hkind, hchannel, -, -, hbooking, -, hdiscriminator, -⟩ := hsame
      rw [hkind, hchannel, hbooking, hdiscriminator]
  have hqueued (key : String) :
      (∃ n ∈ σ.notifications, n.dedupeKey = key) ↔ ∃ n ∈ τ.notifications, n.dedupeKey = key := by
    refine exists_mem_iff h.notifications fun n n' hrow => ?_
    rcases hrow with rfl | ⟨-, hrow⟩
    · rfl
    · have hsame : n.dedupeKey = n'.dedupeKey := (congrArg Notification.dedupeKey hrow :)
      rw [hsame]
  rw [Erasure.queue, Erasure.queue, hkey]
  simp only [hqueued]
  split
  · exact h
  · refine ⟨h.customers, h.bookings, h.payments, h.refunds, List.rel_append h.notifications (.cons ?_ .nil),
      h.auditLogs⟩
    rcases hinput with rfl | ⟨habout, hsame⟩
    · exact .inl rfl
    · simp only [QueueInput.mk.injEq] at hsame
      obtain ⟨hkind, hchannel, hlocale, -, hbooking, hcustomer, -, -⟩ := hsame
      refine .inr ⟨habout, ?_⟩
      simp only [Notification.without, hkind, hchannel, hlocale, hbooking, hcustomer]

theorem bookings_queue (row : Nat) (input : QueueInput) : (queue request row input σ).bookings = σ.bookings := by
  rw [queue]
  split <;> rfl

/-- Nor does queueing several. -/
theorem DifferOnly.queueAll (h : DifferOnly id σ τ) {messages messages' : List (Nat × QueueInput)}
    (hmessages : List.Forall₂ (fun m m' => m.1 = m'.1 ∧ m.2.Like id σ m'.2) messages messages') :
    DifferOnly id (queueAll request messages σ) (queueAll request messages' τ) := by
  induction messages generalizing messages' σ τ with
  | nil =>
    cases hmessages
    exact h
  | cons m messages ih =>
    cases hmessages with
    | @cons _ m' _ messages' hm hrest =>
      obtain ⟨hrow, hlike⟩ := hm
      have hnext : DifferOnly id (Erasure.queue request m.1 m.2 σ) (Erasure.queue request m'.1 m'.2 τ) := by
        rw [← hrow]
        exact h.queue m.1 hlike
      refine ih hnext (hrest.imp fun x y hxy => ⟨hxy.1, ?_⟩)
      rw [QueueInput.Like, Erasure.bookingIdsOf, bookings_queue]
      exact hxy.2

section Confirmed

variable {b b' : Booking} {c c' : Customer}

theorem confirmation_like (office : Office) (managementToken : Option String) (hc : c.id = id)
    (hbooking : { b with customerNote := none } = { b' with customerNote := none })
    (hcustomer : c.without = c'.without) (channel : NotificationChannel) (recipient recipient' : String)
    (free free' : Json String) :
    (confirmation office managementToken b c channel recipient free).Like id σ
      (confirmation office managementToken b' c' channel recipient' free') := by
  have hbid : b.id = b'.id := (congrArg Booking.id hbooking :)
  have hlocale : b.locale = b'.locale := (congrArg Booking.locale hbooking :)
  refine .inr ⟨.inl (congrArg some hc), ?_⟩
  simp only [confirmation, hbid, hlocale, id_of_without hcustomer]

theorem officeCopy_like (office : Office) (hb : b ∈ σ.bookings) (hid : b.customerId = id)
    (hbooking : { b with customerNote := none } = { b' with customerNote := none }) :
    (officeCopy office b c).Like id σ (officeCopy office b' c') := by
  have hown : b.id ∈ bookingIdsOf id σ := List.mem_map.mpr ⟨b, List.mem_filter.mpr ⟨hb, decide_eq_true hid⟩, rfl⟩
  have hbid : b.id = b'.id := (congrArg Booking.id hbooking :)
  refine .inr ⟨.inr ⟨b.id, hown, rfl⟩, ?_⟩
  simp only [officeCopy, hbid]

/-- The messages of a booking differ in what they show of its customer. -/
theorem confirmedMessages_like (office : Office) (managementToken : Option String) (hb : b ∈ σ.bookings)
    (hid : b.customerId = id) (hc : c.id = id)
    (hbooking : { b with customerNote := none } = { b' with customerNote := none })
    (hcustomer : c.without = c'.without) (hphone : c.phone.isSome = c'.phone.isSome) :
    List.Forall₂ (fun m m' => m.1 = m'.1 ∧ m.2.Like id σ m'.2)
      (confirmedMessages office managementToken b c) (confirmedMessages office managementToken b' c') := by
  have hmessage := @confirmation_like id σ b b' c c' office managementToken hc hbooking hcustomer
  have hcopy := @officeCopy_like id σ b b' c c' office hb hid hbooking
  have hsms : (c.phone.filter fun _ => office.smsConfirmationsEnabled).isSome =
      (c'.phone.filter fun _ => office.smsConfirmationsEnabled).isSome := by
    cases hc : c.phone with
    | none =>
      rw [hc, Option.isSome_none, eq_comm, Option.isSome_eq_false_iff, Option.isNone_iff_eq_none] at hphone
      rw [hphone]
    | some phone =>
      rw [hc, Option.isSome_some, eq_comm, Option.isSome_iff_exists] at hphone
      obtain ⟨phone', hc'⟩ := hphone
      rw [hc']
      cases h : office.smsConfirmationsEnabled <;> simp [Option.filter]
  rw [confirmedMessages, confirmedMessages]
  cases hp : c.phone.filter fun _ => office.smsConfirmationsEnabled with
  | none =>
    rw [hp, Option.isSome_none, eq_comm, Option.isSome_eq_false_iff, Option.isNone_iff_eq_none] at hsms
    rw [hsms]
    exact .cons ⟨rfl, hmessage _ _ _ _ _⟩ (.cons ⟨rfl, hcopy⟩ .nil)
  | some phone =>
    rw [hp, Option.isSome_some, eq_comm, Option.isSome_iff_exists] at hsms
    obtain ⟨phone', hp'⟩ := hsms
    rw [hp']
    exact .cons ⟨rfl, hmessage _ _ _ _ _⟩ (.cons ⟨rfl, hmessage _ _ _ _ _⟩ (.cons ⟨rfl, hcopy⟩ .nil))

/-- An event finds the same booking and customer, but for what is known of the customer. -/
theorem DifferOnly.bookingOf (h : DifferOnly id σ τ) (bookingId : String) :
    bookingOf request bookingId σ = bookingOf request bookingId τ ∨
      ∃ b c b' c', bookingOf request bookingId σ = some (b, c) ∧ bookingOf request bookingId τ = some (b', c') ∧
        b ∈ σ.bookings ∧ b.customerId = id ∧ Table.find id σ.customers = some c ∧
        Table.find id τ.customers = some c' ∧
        { b with customerNote := none } = { b' with customerNote := none } ∧ c.without = c'.without := by
  have hbooking := find?_rel (p := fun b : Booking =>
      decide (b.id = bookingId ∧ b.organizationId = request.organizationId)) h.bookings fun b b' hrow => by
    rcases hrow with rfl | ⟨-, hrow⟩
    · rfl
    · have hid : b.id = b'.id := (congrArg Booking.id hrow :)
      have horg : b.organizationId = b'.organizationId := (congrArg Booking.organizationId hrow :)
      rw [hid, horg]
  rw [Erasure.bookingOf, Erasure.bookingOf]
  generalize hσ : (σ.bookings.find? _) = found at hbooking ⊢
  generalize (τ.bookings.find? _) = found' at hbooking ⊢
  cases hbooking with
  | none => exact .inl rfl
  | @some b b' hrow =>
    by_cases hid : b.customerId = id
    · have hbare : { b with customerNote := none } = { b' with customerNote := none } := by
        rcases hrow with rfl | ⟨-, hrow⟩
        · rfl
        · exact hrow
      have hid' : b'.customerId = id := (congrArg Booking.customerId hbare :).symm.trans hid
      have hcustomer := h.find
      rw [Option.bind_eq_bind, Option.bind_some, Option.bind_eq_bind, Option.bind_some, hid, hid']
      generalize Table.find id σ.customers = customer at hcustomer ⊢
      generalize Table.find id τ.customers = customer' at hcustomer ⊢
      cases customer with
      | none =>
        cases customer' with
        | none => exact .inl rfl
        | some c' => cases hcustomer
      | some c =>
        cases customer' with
        | none => cases hcustomer
        | some c' => exact .inr ⟨b, c, b', c', rfl, rfl, List.mem_of_find?_eq_some hσ, hid, rfl, rfl, hbare,
            Option.some.inj hcustomer⟩
    · left
      rcases hrow with rfl | ⟨hid', -⟩
      · rw [Option.bind_eq_bind, Option.bind_some, Option.bind_eq_bind, Option.bind_some, h.find_of_ne hid]
      · exact absurd hid' hid

theorem like_refl (messages : List (Nat × QueueInput)) :
    List.Forall₂ (fun m m' => m.1 = m'.1 ∧ m.2.Like id σ m'.2) messages messages :=
  List.forall₂_same.mpr fun _ _ => ⟨rfl, .inl rfl⟩

/-- The messages of a confirmed booking copy nothing into other places than those. -/
theorem DifferOnly.confirmed (h : DifferOnly id σ τ) (office : Office) (bookingId : String)
    (managementToken : Option String)
    (hphone : (Table.find id σ.customers).map (fun c => c.phone.isSome) =
      (Table.find id τ.customers).map fun c => c.phone.isSome) :
    DifferOnly id (confirmed request office bookingId managementToken σ)
      (confirmed request office bookingId managementToken τ) := by
  rw [Erasure.confirmed, Erasure.confirmed]
  have hfound := @DifferOnly.bookingOf request id σ τ h bookingId
  rcases hfound with hsame | ⟨b, c, b', c', hσ, hτ, hb, hid, hc, hc', hbare, hwithout⟩
  · rw [hsame]
    split
    · exact h
    · exact h.queueAll (like_refl _)
  · rw [hσ, hτ]
    rw [hc, hc', Option.map_some, Option.map_some, Option.some.injEq] at hphone
    exact h.queueAll
      (confirmedMessages_like office managementToken hb hid (Table.key_of_find hc) hbare hwithout hphone)

end Confirmed

theorem bookings_eq_iff (h : DifferOnly id σ τ) :
    σ.bookings = τ.bookings ↔ σ.bookings.map Booking.customerNote = τ.bookings.map Booking.customerNote := by
  have hrows := map_eq_map_iff (f := fun b => b) (g := Booking.customerNote) h.bookings fun b _ b' hb => by
    constructor
    · rintro rfl
      rfl
    · intro hnote
      rcases hb with rfl | ⟨-, hb⟩
      · rfl
      · have hbare : { b with customerNote := b.customerNote } = { b' with customerNote := b.customerNote } :=
          congrArg (fun x : Booking => { x with customerNote := b.customerNote }) hb
        rw [hnote] at hbare
        exact hbare
  rwa [List.map_id', List.map_id'] at hrows

theorem auditLogs_eq_iff (h : DifferOnly id σ τ) :
    σ.auditLogs = τ.auditLogs ↔
      σ.auditLogs.map (fun a => (a.before, a.after)) = τ.auditLogs.map fun a => (a.before, a.after) := by
  have hrows := map_eq_map_iff (f := fun a => a) (g := fun a => (a.before, a.after)) h.auditLogs
    fun a _ a' ha => by
      constructor
      · rintro rfl
        rfl
      · intro hsnapshots
        have hbefore : a.before = a'.before := congrArg Prod.fst hsnapshots
        have hafter : a.after = a'.after := congrArg Prod.snd hsnapshots
        have hrow : { a with before := a.before, after := a.after } =
            { a' with before := a.before, after := a.after } :=
          congrArg (fun x : AuditLog => { x with before := a.before, after := a.after }) ha
        rw [hbefore, hafter] at hrow
        exact hrow
  rwa [List.map_id', List.map_id'] at hrows

theorem redacted_of_marked {now : Int} {n : Notification} (h : n.recipient = REDACTED) : n.redacted now = n :=
  if_neg fun hdue => hdue.2 h

theorem redacted_of_due {now : Int} {n : Notification} (h : n.Due now) :
    n.redacted now = { n with recipient := REDACTED, subject := none, updatedAt := now } :=
  if_pos h

/-- What redaction leaves of a message that was last changed before. -/
theorem redacted_eq_iff {now : Int} {n n' : Notification}
    (hpast : n.createdAt < now - NOTIFICATION_REDACT_AFTER_DAYS * 86400000 ∧ n.updatedAt < now)
    (h : n.without = n'.without) :
    n.redacted now = n'.redacted now ↔
      (n.payload, n.lastError, n.leftover) = (n'.payload, n'.lastError, n'.leftover) := by
  obtain ⟨hcreated, hupdated⟩ := hpast
  have hcreated' : n'.createdAt = n.createdAt := (congrArg Notification.createdAt h :).symm
  have hupdated' : n'.updatedAt = n.updatedAt := (congrArg Notification.updatedAt h :).symm
  have hrow : n' = { n.without with
      recipient := n'.recipient, subject := n'.subject, lastError := n'.lastError, payload := n'.payload } := by
    rw [h]
    rfl
  by_cases hmarked : n.recipient = REDACTED
  · have hleft : n.leftover = some (n.subject, n.updatedAt) := if_pos hmarked
    by_cases hmarked' : n'.recipient = REDACTED
    · have hleft' : n'.leftover = some (n'.subject, n'.updatedAt) := if_pos hmarked'
      rw [redacted_of_marked hmarked, redacted_of_marked hmarked', hleft, hleft']
      constructor
      · rintro rfl
        rfl
      · intro hsame
        simp only [Prod.mk.injEq, Option.some.injEq] at hsame
        obtain ⟨hpayload, herror, hsubject, -⟩ := hsame
        rw [hrow, hmarked', ← hmarked, ← hpayload, ← herror, ← hsubject]
        rfl
    · have hleft' : n'.leftover = none := if_neg hmarked'
      rw [redacted_of_marked hmarked, redacted_of_due ⟨by omega, hmarked'⟩, hleft, hleft']
      constructor
      · intro hsame
        have htime : n.updatedAt = now := congrArg Notification.updatedAt hsame
        omega
      · intro hsame
        simp at hsame
  · have hleft : n.leftover = none := if_neg hmarked
    by_cases hmarked' : n'.recipient = REDACTED
    · have hleft' : n'.leftover = some (n'.subject, n'.updatedAt) := if_pos hmarked'
      rw [redacted_of_due ⟨hcreated, hmarked⟩, redacted_of_marked hmarked', hleft, hleft']
      constructor
      · intro hsame
        have htime : now = n'.updatedAt := congrArg Notification.updatedAt hsame
        omega
      · intro hsame
        simp at hsame
    · have hleft' : n'.leftover = none := if_neg hmarked'
      rw [redacted_of_due ⟨hcreated, hmarked⟩, redacted_of_due ⟨by omega, hmarked'⟩, hleft, hleft']
      constructor
      · intro hsame
        have hpayload : n.payload = n'.payload := (congrArg Notification.payload hsame :)
        have herror : n.lastError = n'.lastError := (congrArg Notification.lastError hsame :)
        rw [hpayload, herror]
      · intro hsame
        simp only [Prod.mk.injEq] at hsame
        rw [hrow, ← hsame.1, ← hsame.2.1]
        rfl

/-- After an erasure and a redaction past its cut-off, two states that differ in nothing but the
data of the customer are equal when, and only when, the copies agree that neither of them writes:
the notes of bookings, the frozen data of messages and the snapshots of the audit trail. -/
theorem erasure_complete_iff (h : DifferOnly id σ τ) {response : EraseCustomerResponse} {σ' : Records}
    (herase : erase request id officeUserId σ = .ok (response, σ')) {later : Int}
    (hpast : ∀ n ∈ σ.notifications,
      n.createdAt < later - NOTIFICATION_REDACT_AFTER_DAYS * 86400000 ∧ n.updatedAt < later) :
    ∃ τ', erase request id officeUserId τ = .ok (response, τ') ∧
      ((redactOld later σ').2 = (redactOld later τ').2 ↔ SameCopies σ τ) := by
  obtain ⟨customers, entry, rfl, herase'⟩ := h.erase herase
  refine ⟨_, herase', ?_⟩
  have hnotifications : σ.notifications.map (Notification.redacted later) =
      τ.notifications.map (Notification.redacted later) ↔
      σ.notifications.map (fun n => (n.payload, n.lastError, n.leftover)) =
        τ.notifications.map fun n => (n.payload, n.lastError, n.leftover) := by
    refine map_eq_map_iff h.notifications fun n hn n' hrow => redacted_eq_iff (hpast n hn) ?_
    rcases hrow with rfl | ⟨-, hrow⟩
    · rfl
    · exact hrow
  have hcopies : SameCopies σ τ ↔ σ.bookings = τ.bookings ∧
      σ.notifications.map (Notification.redacted later) = τ.notifications.map (Notification.redacted later) ∧
      σ.auditLogs = τ.auditLogs := by
    rw [bookings_eq_iff h, auditLogs_eq_iff h, hnotifications]
    exact ⟨fun hsame => ⟨hsame.notes, hsame.messages, hsame.snapshots⟩,
      fun ⟨hnotes, hmessages, hsnapshots⟩ => ⟨hnotes, hmessages, hsnapshots⟩⟩
  rw [hcopies]
  simp only [redactOld, Records.mk.injEq, List.append_cancel_right_eq, h.payments, h.refunds, true_and]

/-- The trail of an update tells the names and the note that a customer had. -/
theorem update_remembers {patch : UpdateCustomerRequest} {dto : Json String} {σ' : Records}
    (h : update request id officeUserId patch σ = .ok (dto, σ')) :
    ∃ customer entry before, load request id σ = .ok customer ∧ entry ∈ σ'.auditLogs ∧ entry.before = some before ∧
      before.field "firstName" = some (.str customer.firstName) ∧
      before.field "lastName" = some (.str customer.lastName) ∧
      (before.field "internalNote").bind Json.text = customer.internalNote := by
  rw [update] at h
  obtain ⟨customer, hload, h⟩ := bind_eq_ok.mp h
  obtain ⟨⟨row, σ₁⟩, hwrite, h⟩ := bind_eq_ok.mp h
  cases h
  refine ⟨customer, _, redact (toDto customer), hload, List.mem_append_right _ (List.mem_singleton_self _), rfl, ?_⟩
  refine ⟨rfl, rfl, ?_⟩
  have hnote : (redact (toDto customer)).field "internalNote" =
      some (redact (orNull (customer.internalNote.map .str))) := rfl
  rw [hnote]
  cases customer.internalNote <;> rfl

section Sample

def Office.sample : Office where
  name := "Studio"
  contactPhone := "+49301"
  addressLine1 := "Weg 1"
  postalCode := "10115"
  city := "Berlin"
  contactEmail := "studio@example.org"
  defaultLocale := .de
  freeCancellationHours := 72
  smsConfirmationsEnabled := false
  officeNotificationEmail := "studio@example.org"
  publicWebOrigin := "https://studio.example.org"
  displayNameOf _ := "Kim"

def Request.sample (now : Int) : Request where
  now := now
  organizationId := "o"
  ids row := if row = 0 then "x" else "y"

def Customer.sample (firstName email : String) : Customer where
  id := "c"
  organizationId := "o"
  email := email
  emailNormalized := email
  firstName := firstName
  lastName := "Lovelace"
  createdAt := 0
  updatedAt := 0

/-- A customer with a booking. -/
def Records.sample (customer : Customer) : Records where
  customers := [customer]
  bookings := [{ Booking.sample with id := "b", customerId := "c", organizationId := "o" }]

theorem differOnly_sample (firstName firstName' email email' : String) :
    DifferOnly "c" (.sample (.sample firstName email)) (.sample (.sample firstName' email')) where
  customers := .cons (.inr ⟨rfl, rfl⟩) .nil
  bookings := .cons (.inl rfl) .nil
  payments := rfl
  refunds := rfl
  notifications := .nil
  auditLogs := .nil

def Records.confirmationOf (customer : Customer) : QueueInput :=
  confirmation .sample none { Booking.sample with id := "b", customerId := "c", organizationId := "o" } customer .EMAIL
    customer.email .null

/-- A customer that changes nothing but their address has left no trace of it in a confirmation. -/
theorem erasure_complete_iff_sample :
    ∃ response σ' τ',
      erase (.sample 0) "c" "u" (queue (.sample 0) 0 (Records.confirmationOf (.sample "Ada" "ada@example.org"))
        (.sample (.sample "Ada" "ada@example.org"))) = .ok (response, σ') ∧
      erase (.sample 0) "c" "u" (queue (.sample 0) 0 (Records.confirmationOf (.sample "Ada" "lovelace@example.org"))
        (.sample (.sample "Ada" "lovelace@example.org"))) = .ok (response, τ') ∧
      (redactOld (100 * 86400000) σ').2 = (redactOld (100 * 86400000) τ').2 := by
  have hdiffer : DifferOnly "c" (queue (.sample 0) 0 (Records.confirmationOf (.sample "Ada" "ada@example.org"))
      (.sample (.sample "Ada" "ada@example.org")))
      (queue (.sample 0) 0 (Records.confirmationOf (.sample "Ada" "lovelace@example.org"))
        (.sample (.sample "Ada" "lovelace@example.org"))) :=
    (differOnly_sample "Ada" "Ada" _ _).queue 0 (confirmation_like _ _ rfl rfl rfl _ _ _ _ _)
  obtain ⟨τ', hτ, hiff⟩ := @erasure_complete_iff (.sample 0) "c" "u" _ _ hdiffer _ _ rfl (100 * 86400000) (by decide)
  exact ⟨_, _, τ', rfl, hτ, hiff.mpr ⟨rfl, rfl, rfl⟩⟩

/-- Once a booking is confirmed the office has a message with the address of the customer, which an
erasure and a redaction a hundred days later leave as it is. -/
theorem erasure_incomplete :
    ∃ σ τ response σ' τ', DifferOnly "c" σ τ ∧
      erase (.sample 86400000) "c" "u" σ = .ok (response, σ') ∧
      erase (.sample 86400000) "c" "u" τ = .ok (response, τ') ∧
      (∀ n ∈ σ'.notifications ++ τ'.notifications,
        n.createdAt < 100 * 86400000 - NOTIFICATION_REDACT_AFTER_DAYS * 86400000) ∧
      (redactOld (100 * 86400000) σ').2 ≠ (redactOld (100 * 86400000) τ').2 := by
  have hdiffer := @DifferOnly.confirmed (.sample 0) "c" _ _
    (differOnly_sample "Ada" "Bob" "ada@example.org" "bob@example.org") .sample "b" none rfl
  refine ⟨_, _, _, _, _, hdiffer, rfl, rfl, by decide, fun h => ?_⟩
  have haddresses := congrArg (fun ρ : Records =>
    ρ.notifications.map fun n => (n.payload.field "customerEmail").bind Json.text) h
  revert haddresses
  decide

end Sample

end BookingApp.Erasure

import BookingApp.Booking.Holds
import BookingApp.Messaging.Fingerprint

/-!
# Checkout requests (`booking-checkout.service.ts`, `stripe-payment.provider.ts`)

What a create attempt sends to the provider for a reservation: fields of the row,
of the organization and of the request body, and an expiry that the provider's
limits tie to the clock. A retry sends the same request exactly when it comes
within the same second, with the same spelling of the email and the same account
to charge on (`checkoutRequest_eq_iff`).
-/

set_option autoImplicit false

namespace BookingApp

open Encoding

inductive PaymentsMode where
  | PLATFORM
  | CONNECT
  deriving DecidableEq, Repr

/-- The organization of a request, as far as charges go. -/
structure ChargeOrganization where
  id : String
  paymentsMode : PaymentsMode
  stripeAccountId : Option String
  stripeChargesEnabled : Bool
  deriving DecidableEq, Repr

/-- The account a new charge for this organization must be created on. -/
def accountForNewCharge (organization : ChargeOrganization) : Except Failure (Option String) :=
  if organization.paymentsMode = .PLATFORM then return none
  else if organization.stripeAccountId = none ∨ organization.stripeChargesEnabled = false then
    throw (.app {
      code := "ORGANIZATION_ONBOARDING_INCOMPLETE"
      message := "This organizer has not finished setting up payments yet." })
  else return organization.stripeAccountId

/-- The checks of the schema library on a text: what it is read as, if it is accepted. -/
structure TextSchemas where
  url : String → Option String
  email : String → Option String

/-- What the checkout reads of `createBookingRequestSchema.parse(rawBody)`. -/
structure CheckoutBody where
  successUrl : String
  cancelUrl : String
  customerEmail : String
  deriving DecidableEq, Repr

def parseCheckoutBody (schemas : TextSchemas) (body : Json Text) : Option CheckoutBody := do
  let successUrl ← schemas.url (toText (← (body.field (ofString "successUrl")).bind Json.text))
  let cancelUrl ← schemas.url (toText (← (body.field (ofString "cancelUrl")).bind Json.text))
  let customer ← body.field (ofString "customer")
  let customerEmail ← schemas.email (toText (← (customer.field (ofString "email")).bind Json.text))
  return { successUrl, cancelUrl, customerEmail }

structure CreateCheckoutSessionInput where
  bookingId : String
  clientReferenceId : String
  amount : Money
  description : String
  customerEmail : String
  successUrl : String
  cancelUrl : String
  locale : Locale
  expiresAt : Int
  idempotencyKey : Option String
  deriving DecidableEq, Repr

structure PaymentAccountContext where
  organizationId : String
  stripeAccountId : Option String
  deriving DecidableEq, Repr

def STRIPE_MIN_SESSION_TTL_MINUTES : Int := 30

def STRIPE_MAX_SESSION_TTL_MINUTES : Int := 24 * 60

/-- `Math.ceil(instant / 1000)` -/
def ceilSeconds (instant : Int) : Int :=
  -(-instant / 1000)

/-- The requested expiry, within the limits of the provider at this time. -/
def expiresAtEpochSeconds (requested now : Int) : Int :=
  let earliest := now + STRIPE_MIN_SESSION_TTL_MINUTES * 60000
  let latest := now + STRIPE_MAX_SESSION_TTL_MINUTES * 60000
  ceilSeconds (min (max requested earliest) latest)

def metadataFor (context : PaymentAccountContext) (bookingId : String) : List (String × String) :=
  [("bookingId", bookingId), ("organizationId", context.organizationId)]

/-- What `StripePaymentProvider.createCheckoutSession` sends. -/
def CreateCheckoutSessionInput.request (input : CreateCheckoutSessionInput)
    (context : PaymentAccountContext) (now : Int) : CheckoutSessionRequest where
  clientReferenceId := input.clientReferenceId
  customerEmail := input.customerEmail
  locale := input.locale
  expiresAt := expiresAtEpochSeconds input.expiresAt now
  successUrl := input.successUrl
  cancelUrl := input.cancelUrl
  currency := input.amount.currency.map Char.toLower
  unitAmount := input.amount.amountCents
  productName := input.description
  metadata := metadataFor context input.bookingId
  paymentIntentMetadata := metadataFor context input.bookingId
  stripeContext := context.stripeAccountId
  idempotencyKey := input.idempotencyKey

/-- The input that `createSessionForReservation` composes. -/
def checkoutInput (booking : Booking) (body : CheckoutBody) (idempotencyKey : Option String) :
    Except Failure CreateCheckoutSessionInput :=
  match booking.expiresAt with
  | none => throw (.app {
      code := "INTERNAL_ERROR"
      message := "A reservation without an expiry cannot open a checkout session." })
  | some expiresAt => do
    let amount ← Money.fromCents booking.priceCentsSnapshot booking.currency
    return {
      bookingId := booking.id
      clientReferenceId := booking.id
      amount
      description := booking.serviceNameSnapshot
      customerEmail := body.customerEmail
      successUrl := body.successUrl
      cancelUrl := body.cancelUrl
      locale := booking.locale
      expiresAt
      idempotencyKey }

/-- One attempt at creating a booking: the organization it is resolved to, the request, and the
time at which the provider is called. -/
structure CheckoutAttempt where
  organization : ChargeOrganization
  body : Json Text
  routeParams : Json Text
  idempotencyKey : String
  now : Int

/-- The request of an attempt for a reservation, if the attempt gets as far as the provider. -/
def checkoutRequest (schemas : TextSchemas) (booking : Booking) (attempt : CheckoutAttempt) :
    Option CheckoutSessionRequest := do
  let body ← parseCheckoutBody schemas attempt.body
  let stripeAccountId ← (accountForNewCharge attempt.organization).toOption
  let input ← (checkoutInput booking body (some attempt.idempotencyKey)).toOption
  return input.request { organizationId := attempt.organization.id, stripeAccountId } attempt.now

/-- The email an attempt names, as the schema reads it. -/
def CheckoutAttempt.email (schemas : TextSchemas) (attempt : CheckoutAttempt) : Option String :=
  (parseCheckoutBody schemas attempt.body).map CheckoutBody.customerEmail

/-- The second in which an instant ends, shifted by whole seconds. -/
theorem ceilSeconds_add (instant seconds : Int) :
    ceilSeconds (instant + seconds * 1000) = ceilSeconds instant + seconds := by
  unfold ceilSeconds
  omega

/-- A hold is no longer than the provider's least expiry, so the clock alone decides. -/
theorem expiresAtEpochSeconds_of_hold {createdAt ttl now : Int} (httl : ttl ≤ 30)
    (hafter : createdAt ≤ now) :
    expiresAtEpochSeconds (createdAt + ttl * 60000) now = ceilSeconds now + 1800 := by
  have hclamped : min (max (createdAt + ttl * 60000) (now + 30 * 60000)) (now + 24 * 60 * 60000) =
      now + 1800 * 1000 := by omega
  rw [← ceilSeconds_add, ← hclamped]
  rfl

/-- The links of two bodies with the same fingerprint are the same. -/
theorem parseCheckoutBody_links {toLowerCase : Text → Text} {schemas : TextSchemas}
    {body routeParams body' routeParams' : Json Text} {parsed parsed' : CheckoutBody}
    (hsame : SameFingerprint toLowerCase body routeParams body' routeParams')
    (h : parseCheckoutBody schemas body = some parsed)
    (h' : parseCheckoutBody schemas body' = some parsed') :
    parsed'.successUrl = parsed.successUrl ∧ parsed'.cancelUrl = parsed.cancelUrl := by
  have hsuccess := hsame.text (by decide +kernel : ofString "successUrl" ∉ NORMALISED_FIELDS)
  have hcancel := hsame.text (by decide +kernel : ofString "cancelUrl" ∉ NORMALISED_FIELDS)
  simp only [parseCheckoutBody, Option.bind_eq_bind, Option.bind_eq_some_iff, Option.pure_def,
    Option.some.injEq] at h h'
  obtain ⟨success, hs, url, hurl, cancel, hc, link, hlink, -, -, -, -, -, -, rfl⟩ := h
  obtain ⟨success', hs', url', hurl', cancel', hc', link', hlink', -, -, -, -, -, -, rfl⟩ := h'
  rw [Option.bind_eq_some_iff.mpr hs, Option.bind_eq_some_iff.mpr hs', Option.some.injEq] at hsuccess
  rw [Option.bind_eq_some_iff.mpr hc, Option.bind_eq_some_iff.mpr hc', Option.some.injEq] at hcancel
  subst hsuccess hcancel
  exact ⟨Option.some.inj (hurl'.symm.trans hurl), Option.some.inj (hlink'.symm.trans hlink)⟩

/-- What an attempt that reaches the provider has read. -/
theorem checkoutRequest_eq_some {schemas : TextSchemas} {booking : Booking}
    {attempt : CheckoutAttempt} {request : CheckoutSessionRequest}
    (h : checkoutRequest schemas booking attempt = some request) :
    ∃ body account input, parseCheckoutBody schemas attempt.body = some body ∧
      accountForNewCharge attempt.organization = .ok account ∧
      checkoutInput booking body (some attempt.idempotencyKey) = .ok input ∧
      request = input.request
        { organizationId := attempt.organization.id, stripeAccountId := account } attempt.now := by
  simp only [checkoutRequest, Option.bind_eq_bind, Option.bind_eq_some_iff, Option.pure_def,
    Option.some.injEq] at h
  obtain ⟨body, hbody, account, haccount, input, hinput, rfl⟩ := h
  refine ⟨body, account, input, hbody, ?_, ?_, rfl⟩
  · cases hx : accountForNewCharge attempt.organization <;> simp_all [Except.toOption]
  · cases hx : checkoutInput booking body (some attempt.idempotencyKey) <;>
      simp_all [Except.toOption]

/-- A retry for a hold sends the request that the first attempt sent exactly when it comes within
the same second, spells the email as the first one did, and charges on the same account. -/
theorem checkoutRequest_eq_iff {toLowerCase : Text → Text} {schemas : TextSchemas} {booking : Booking}
    {first retry : CheckoutAttempt} {request request' : CheckoutSessionRequest} {createdAt ttl : Int}
    (hhold : booking.expiresAt = some (createdAt + ttl * 60000)) (httl : 3 ≤ ttl ∧ ttl ≤ 30)
    (hfirst : createdAt ≤ first.now ∧ first.now < createdAt + ttl * 60000)
    (hretry : createdAt ≤ retry.now ∧ retry.now < createdAt + ttl * 60000)
    (horganization : retry.organization.id = first.organization.id)
    (hkey : retry.idempotencyKey = first.idempotencyKey)
    (hsame : SameFingerprint toLowerCase first.body first.routeParams retry.body retry.routeParams)
    (h : checkoutRequest schemas booking first = some request)
    (h' : checkoutRequest schemas booking retry = some request') :
    request' = request ↔
      ceilSeconds retry.now = ceilSeconds first.now ∧ retry.email schemas = first.email schemas ∧
        accountForNewCharge retry.organization = accountForNewCharge first.organization := by
  obtain ⟨body, account, input, hbody, haccount, hinput, rfl⟩ := checkoutRequest_eq_some h
  obtain ⟨body', account', input', hbody', haccount', hinput', rfl⟩ := checkoutRequest_eq_some h'
  obtain ⟨hsuccess, hcancel⟩ := parseCheckoutBody_links hsame hbody hbody'
  simp only [checkoutInput, hhold] at hinput hinput'
  obtain ⟨amount, hamount, hinput⟩ := bind_eq_ok.mp hinput
  obtain ⟨amount', hamount', hinput'⟩ := bind_eq_ok.mp hinput'
  obtain rfl : amount = amount' := Except.ok.inj (hamount.symm.trans hamount')
  obtain rfl := (Except.ok.inj hinput)
  obtain rfl := (Except.ok.inj hinput')
  have hexpiry := expiresAtEpochSeconds_of_hold httl.2 hfirst.1
  have hexpiry' := expiresAtEpochSeconds_of_hold httl.2 hretry.1
  simp only [CreateCheckoutSessionInput.request, CheckoutSessionRequest.mk.injEq, hexpiry, hexpiry',
    hsuccess, hcancel, hkey, horganization, metadataFor, CheckoutAttempt.email, hbody, hbody',
    haccount, haccount', Option.map_some, Option.some.injEq, Except.ok.injEq, true_and, and_true]
  constructor
  · rintro ⟨hemail, hseconds, haccounts⟩
    exact ⟨by omega, hemail, haccounts⟩
  · rintro ⟨hseconds, hemail, haccounts⟩
    exact ⟨hemail, by omega, haccounts⟩

/-- A hold of fifteen minutes that was made at time 0. -/
def Booking.held : Booking :=
  { Booking.sample with status := .PENDING_PAYMENT, expiresAt := some (0 + 15 * 60000) }

/-- A schema that accepts every text as it is. -/
def TextSchemas.plain : TextSchemas where
  url := some
  email := some

/-- A platform organization's customer asks for the hold at this time. -/
def CheckoutAttempt.sample (now : Int) : CheckoutAttempt where
  organization := {
    id := "o", paymentsMode := .PLATFORM, stripeAccountId := none, stripeChargesEnabled := false }
  body := .obj [(ofString "successUrl", .str (ofString "https://a/ok")),
    (ofString "cancelUrl", .str (ofString "https://a/no")),
    (ofString "customer", .obj [(ofString "email", .str (ofString "a@b.c"))])]
  routeParams := .obj []
  idempotencyKey := "k"
  now

/-- The request of `CheckoutAttempt.sample` for a session that ends at this second. -/
def CheckoutSessionRequest.sample (expiresAt : Int) : CheckoutSessionRequest where
  clientReferenceId := "b"
  customerEmail := "a@b.c"
  locale := .en
  expiresAt
  successUrl := "https://a/ok"
  cancelUrl := "https://a/no"
  currency := "eur"
  unitAmount := 100
  productName := "Cut"
  metadata := [("bookingId", "b"), ("organizationId", "o")]
  paymentIntentMetadata := [("bookingId", "b"), ("organizationId", "o")]
  stripeContext := none
  idempotencyKey := some "k"

theorem checkoutRequest_eq_iff_sample :
    CheckoutSessionRequest.sample 1801 = CheckoutSessionRequest.sample 1801 ↔
      ceilSeconds 900 = ceilSeconds 100 ∧
        (CheckoutAttempt.sample 900).email .plain = (CheckoutAttempt.sample 100).email .plain ∧
        accountForNewCharge (CheckoutAttempt.sample 900).organization =
          accountForNewCharge (CheckoutAttempt.sample 100).organization :=
  @checkoutRequest_eq_iff id .plain .held (.sample 100) (.sample 900) (.sample 1801) (.sample 1801) 0 15
    rfl (by decide) (by decide) (by decide) rfl rfl rfl (by decide +kernel) (by decide +kernel)

/-- Two seconds later the same attempt sends another expiry. -/
theorem checkoutRequest_changes : ¬ ∀ (toLowerCase : Text → Text) (schemas : TextSchemas) (booking : Booking)
    (first retry : CheckoutAttempt) (request request' : CheckoutSessionRequest) (createdAt ttl : Int),
    booking.expiresAt = some (createdAt + ttl * 60000) → 3 ≤ ttl ∧ ttl ≤ 30 →
    createdAt ≤ first.now ∧ first.now < createdAt + ttl * 60000 →
    createdAt ≤ retry.now ∧ retry.now < createdAt + ttl * 60000 →
    retry.organization = first.organization → retry.idempotencyKey = first.idempotencyKey →
    SameFingerprint toLowerCase first.body first.routeParams retry.body retry.routeParams →
    checkoutRequest schemas booking first = some request →
    checkoutRequest schemas booking retry = some request' → request' = request := by
  intro h
  have hsame := h id .plain .held (.sample 100) (.sample 2100) (.sample 1801) (.sample 1803) 0 15 rfl
    (by decide) (by decide) (by decide) rfl rfl rfl (by decide +kernel) (by decide +kernel)
  revert hsame
  decide

end BookingApp

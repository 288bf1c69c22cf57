import BookingApp.Booking.Selection

/-!
# Paying for a reservation (`domain/pricing/pricing.ts`, `booking-checkout.service.ts`)

A service, or an employee who performs it, may cost nothing: the contracts, the checks on the
catalogue and the rule for the effective price all admit it. A payment of nothing is one that the
checks on payments refuse, so a reservation can be paid for unless it is free.
-/

set_option autoImplicit false

namespace BookingApp

open ReadCommitted

section Transactions

/-- The transaction of `attach`. -/
def attachOnce (booking : Booking) (sessionId : String) (stripeAccountId : Option String) : Tx Unit := do
  discard (lockBooking booking.id)
  let current ← orThrow (← read fun d => Table.find booking.id d.bookings)
  ensure (S := store)
    (current.stripeCheckoutSessionId = none ∨ current.stripeCheckoutSessionId = some sessionId)
    (internalError "Booking already has another Checkout session.")
  nameSession current sessionId
  openPayment booking sessionId stripeAccountId
  let payment ← orThrow (← read (paymentOfSession sessionId))
  ensure (S := store)
    (payment.bookingId = booking.id ∧ payment.amountCents = booking.priceCentsSnapshot ∧
      payment.currency = booking.currency)
    (internalError "Checkout session is already attached to a different payment.")

theorem attach_eq (booking : Booking) (sessionId : String) (account : Option String) :
    attach booking sessionId account = withSerializationRetry fun _ =>
    transaction (S := store) (.attachment booking.id sessionId) (attachOnce booking sessionId account) := rfl

/-- The columns that a confirmation writes into the booking. -/
def ConfirmPaidInput.confirmed (input : ConfirmPaidInput) (confirmedAt : Int) (b : Booking) : Booking :=
  { b with
    status := .CONFIRMED, confirmedAt := some confirmedAt, expiresAt := none
    stripeCheckoutSessionId := some input.sessionId }

/-- The row of the history that a confirmation adds. -/
def ConfirmPaidInput.recorded (input : ConfirmPaidInput) (booking : Booking) : BookingStatusHistory where
  organizationId := booking.organizationId
  bookingId := booking.id
  fromStatus := some booking.status
  toStatus := .CONFIRMED
  actorType := "SYSTEM"
  reason := some input.cause.reason

/-- The event that announces a confirmation. -/
def Booking.confirmation (booking : Booking) (managementToken : String) : OutboxEvent where
  organizationId := booking.organizationId
  aggregateType := "Booking"
  aggregateId := booking.id
  eventType := .BOOKING_CONFIRMED
  payload := [("organizationId", booking.organizationId), ("bookingId", booking.id),
    ("managementToken", managementToken)]

/-- What `confirmOnce` writes for a booking that is not settled yet. -/
def confirmRow (api : Api) (input : ConfirmPaidInput) (confirmedAt : Int) (current booking : Booking) :
    Tx ConfirmOutcome := do
  assertTransition (some current.status) .CONFIRMED
  discard (updateBooking booking.id (input.confirmed confirmedAt))
  upsertPayment booking input
  let managementToken ← issueToken api booking.id booking.organizationId booking.endsAt
  recordHistory { input.recorded booking with fromStatus := some current.status }
  recordOutbox (booking.confirmation managementToken)
  return .CONFIRMED

/-- The transaction of `confirmOnce`. -/
def confirmInTransaction (api : Api) (input : ConfirmPaidInput) (confirmedAt : Int) : Tx ConfirmOutcome := do
  match ← lockBooking input.bookingId with
  | none => throw bookingNotFound
  | some current =>
    if current.status = .CONFIRMED then return .ALREADY_CONFIRMED
    else if isTerminal current.status then return .PAID_AFTER_TERMINAL
    else
      let booking ← orThrow (← read fun d => Table.find input.bookingId d.bookings)
      confirmRow api input confirmedAt current booking

theorem confirmOnce_eq (api : Api) (input : ConfirmPaidInput) : confirmOnce api input = (do
    let confirmedAt ← now
    transaction (S := store) (.confirmation input.bookingId input.chargeId)
      (confirmInTransaction api input confirmedAt)) := rfl

end Transactions

open Code

section Reserved

variable {api : Api} {α : Type} {f : Db → α}

/-- Who performs what, the employees and the services. -/
def Db.catalogue (d : Db) : List EmployeeService × List Employee × List Service :=
  (d.employeeServices, d.employees, d.services)

theorem findAssignment_congr {d d' : Db} (h : d'.catalogue = d.catalogue) (input : ReserveInput) :
    findAssignment api input d' = findAssignment api input d := by
  obtain ⟨hlinks, hrest⟩ := Prod.mk.inj h
  obtain ⟨hemployees, hservices⟩ := Prod.mk.inj hrest
  unfold findAssignment
  rw [hlinks, hemployees, hservices]

theorem frames_read {β : Type} (g : Db → β) : Frames (S := store) f (read g) :=
  fun _ => rfl

theorem frames_now : Frames (S := store) f now :=
  frames_answer.map _

theorem frames_insert {change : Db → Db} (h : ∀ d, f (change d) = f d) :
    Frames (S := store) f (insert change) :=
  frames_modify h

theorem frames_claimIdempotencyKey (h : ∀ g d, f (Db.onBookings g d) = f d) (key : Option String) :
    Frames (S := store) f (claimIdempotencyKey key) := by
  cases key with
  | none => exact frames_pure none
  | some key =>
    refine (frames_read _).bind fun found => ?_
    cases found with
    | none => exact frames_throw _
    | some claimed => exact (frames_modify fun d => h _ d).bind fun _ => frames_pure _

theorem frames_bindIdempotencyKey (h : ∀ g d, f (Db.onIdempotencyKeys g d) = f d)
    (keyId : Option String) (bookingId : String) :
    Frames (S := store) f (bindIdempotencyKey keyId bookingId) := by
  cases keyId with
  | none => exact frames_pure ()
  | some id =>
    refine (frames_modify fun d => h _ d).bind fun row => ?_
    cases row with
    | none => exact fun _ => rfl
    | some row => exact (frames_pure row).map _

theorem frames_armExpiry (h : ∀ g d, f (Db.onOutbox g d) = f d) (booking : Booking) :
    Frames (S := store) f (armExpiry booking) := by
  unfold armExpiry
  split
  · exact frames_pure ()
  · exact frames_insert (h _)

/-- What a customer has reserved: a booking at the effective price of the pairing. -/
structure Reserved (api : Api) (input : ReserveInput) (r : ReserveResult) (d : Db) : Prop where
  priced : ∃ link employee service, findAssignment api input d = some (link, employee, service) ∧
    resolveEffectivePrice service link = .ok r.price
  price : r.booking.priceCentsSnapshot = r.price.amountCents
  employee : r.booking.employeeId = input.employeeId
  held : r.booking.status = .PENDING_PAYMENT
  unnamed : r.booking.stripeCheckoutSessionId = none
  stored : r.booking ∈ d.bookings

theorem runAlone_loadEffectiveAssignment_eq_ok {input : ReserveInput} {assignment : Assignment}
    {s s' : Alone store} (h : (loadEffectiveAssignment api input).runAlone s = (.ok assignment, s')) :
    s' = s ∧ ∃ link employee service,
      findAssignment api input s.view = some (link, employee, service) ∧
        resolveEffectivePrice service link = .ok assignment.price := by
  unfold loadEffectiveAssignment at h
  rw [runAlone_bind_ok (runAlone_read ..)] at h
  cases hfound : findAssignment api input s.view with
  | none =>
    rw [hfound] at h
    cases h
  | some pairing =>
    obtain ⟨link, employee, service⟩ := pairing
    rw [hfound] at h
    obtain ⟨price, s₁, hprice, h⟩ := runAlone_bind_eq_ok.mp h
    rw [runAlone_ofExcept, Prod.mk.injEq] at hprice
    obtain ⟨hprice, rfl⟩ := hprice
    cases h
    exact ⟨rfl, link, employee, service, rfl, hprice⟩

/-- One attempt at a customer's reservation makes it at the effective price. -/
theorem reserved_of_insertOnce {input : ReserveInput} (hactor : input.actor = .CUSTOMER)
    {expiresAt : Option Int} {r : ReserveResult} {s s' : Alone store}
    (h : (insertOnce api input expiresAt).runAlone s = (.ok r, s')) : Reserved api input r s'.view := by
  unfold insertOnce withCalendarLock at h
  rw [runAlone_bind_ok (runAlone_lockCalendars _)] at h
  obtain ⟨snapshot, s₁, -, h⟩ := runAlone_bind_eq_ok.mp h
  obtain ⟨_, s₂, -, h⟩ := runAlone_bind_eq_ok.mp h
  obtain ⟨assignment, s₃, hassignment, h⟩ := runAlone_bind_eq_ok.mp h
  obtain ⟨keyId, s₄, hkey, h⟩ := runAlone_bind_eq_ok.mp h
  obtain ⟨instant, s₅, hnow, h⟩ := runAlone_bind_eq_ok.mp h
  obtain ⟨ids, s₆, hids, h⟩ := runAlone_bind_eq_ok.mp h
  obtain ⟨_, s₇, hcreatable, h⟩ := runAlone_bind_eq_ok.mp h
  obtain ⟨_, s₈, hinserted, h⟩ := runAlone_bind_eq_ok.mp h
  obtain ⟨_, s₉, hbound, h⟩ := runAlone_bind_eq_ok.mp h
  obtain ⟨_, s₁₀, harmed, h⟩ := runAlone_bind_eq_ok.mp h
  obtain ⟨_, s₁₁, hrecorded, h⟩ := runAlone_bind_eq_ok.mp h
  rw [hactor] at h
  cases h
  obtain ⟨rfl, link, employee, service, hfound, hprice⟩ :=
    runAlone_loadEffectiveAssignment_eq_ok hassignment
  -- what the rest of the transaction writes is no part of the catalogue
  have hcatalogue : s'.view.catalogue = s₃.view.catalogue := calc
    s'.view.catalogue = s₁₀.view.catalogue := (frames_insert (by exact fun _ => rfl)).runAlone hrecorded
    _ = s₉.view.catalogue := (frames_armExpiry (fun _ _ => rfl) _).runAlone harmed
    _ = s₈.view.catalogue := (frames_bindIdempotencyKey (fun _ _ => rfl) _ _).runAlone hbound
    _ = s₇.view.catalogue := (frames_insert (by exact fun _ => rfl)).runAlone hinserted
    _ = s₆.view.catalogue := (frames_ensure _ _).runAlone hcreatable
    _ = s₅.view.catalogue := frames_answer.runAlone hids
    _ = s₄.view.catalogue := frames_now.runAlone hnow
    _ = s₃.view.catalogue := (frames_claimIdempotencyKey (fun _ _ => rfl) _).runAlone hkey
  have hbookings : s'.view.bookings = s₈.view.bookings := calc
    s'.view.bookings = s₁₀.view.bookings := (frames_insert (by exact fun _ => rfl)).runAlone hrecorded
    _ = s₉.view.bookings := (frames_armExpiry (fun _ _ => rfl) _).runAlone harmed
    _ = s₈.view.bookings := (frames_bindIdempotencyKey (fun _ _ => rfl) _ _).runAlone hbound
  have hcolumns : ∀ b : Booking, ReserveActor.CUSTOMER.applyTo instant b = b := fun _ => rfl
  refine {
    priced := ⟨link, employee, service, by rw [findAssignment_congr hcatalogue, hfound], hprice⟩
    price := ?_, employee := ?_, held := ?_, unnamed := ?_, stored := ?_ }
  · simp only [ReserveInput.toBooking, hactor, hcolumns]
  · simp only [ReserveInput.toBooking, hactor, hcolumns]
  · simp only [ReserveInput.toBooking, hactor, hcolumns]
  · simp only [ReserveInput.toBooking, hactor, hcolumns]
  · cases hinserted
    rw [hbookings]
    exact List.mem_append_right _ (List.mem_singleton_self _)

/-- The attempt whose commit is a reservation, and the employee it was for. -/
theorem attempt_of_reserveWith {employeeId : Option String} {input : ReserveInput} {r : ReserveResult}
    {s s' : Alone store} (h : (reserveWith api employeeId input).runAlone s = (.ok r, s')) :
    ∃ chosen expiresAt s₁ s₂,
      (insertOnce api { input with employeeId := chosen } expiresAt).runAlone s₁ = (.ok r, s₂) ∧
        s'.db = s₂.view ∧ Legal s'.db := by
  obtain ⟨_, s₁, -, h⟩ := runAlone_bind_eq_ok.mp h
  obtain ⟨_, s₂, -, h⟩ := runAlone_bind_eq_ok.mp h
  obtain ⟨chosen, s₃, -, h⟩ := runAlone_bind_eq_ok.mp h
  obtain ⟨expiresAt, s₄, -, h⟩ := runAlone_bind_eq_ok.mp h
  obtain ⟨_, s₅, h⟩ := runAlone_withRetry_eq_ok h
  unfold insertBooking refuseOverlap at h
  rw [runAlone_tryCatch] at h
  split at h
  · next b s₆ hattempts =>
    cases h
    obtain ⟨_, s₇, hattempt⟩ := runAlone_withRetry_eq_ok hattempts
    obtain ⟨s₈, hinsert, hlegal, rfl⟩ := runAlone_transactionBy_eq_ok _ hattempt
    exact ⟨chosen, expiresAt, _, s₈, hinsert, rfl, of_decide_eq_true hlegal⟩
  · split at h
    · cases h
    · cases h

/-- A reservation that succeeds has been committed. -/
theorem reserved_of_reserveWith {employeeId : Option String} {input : ReserveInput}
    (hactor : input.actor = .CUSTOMER) {r : ReserveResult} {s s' : Alone store}
    (h : (reserveWith api employeeId input).runAlone s = (.ok r, s')) :
    Reserved api { input with employeeId := r.booking.employeeId } r s'.db ∧ Legal s'.db := by
  obtain ⟨chosen, expiresAt, s₁, s₂, hinsert, hdb, hlegal⟩ := attempt_of_reserveWith h
  have hreserved := @reserved_of_insertOnce api { input with employeeId := chosen } hactor _ _ _ _ hinsert
  have hemployee : r.booking.employeeId = chosen := hreserved.employee
  rw [← hdb] at hreserved
  rw [hemployee]
  exact ⟨hreserved, hlegal⟩

end Reserved

section Constraints

variable {d : Db}

/-- Two versions of a booking with the same keys, employee and times. -/
structure Booking.Placed (b b' : Booking) : Prop where
  id : b'.id = b.id
  organizationId : b'.organizationId = b.organizationId
  reference : b'.reference = b.reference
  idempotencyKeyId : b'.idempotencyKeyId = b.idempotencyKeyId
  rescheduledFromBookingId : b'.rescheduledFromBookingId = b.rescheduledFromBookingId
  employeeId : b'.employeeId = b.employeeId
  startsAt : b'.startsAt = b.startsAt
  endsAt : b'.endsAt = b.endsAt
  block : b'.block = b.block

/-- A booking that stays in its place, blocks no more than before and takes a session that no booking
has breaks no constraint. -/
theorem Legal.nameSession (h : Legal d) {id sessionId : String} {f : Booking → Booking}
    (hplaced : ∀ b : Booking, b.Placed (f b)) (hnamed : ∀ b, (f b).stripeCheckoutSessionId = some sessionId)
    (hfree : ∀ b ∈ d.bookings, b.stripeCheckoutSessionId ≠ some sessionId)
    (hblocks : ∀ b ∈ d.bookings, b.id = id → (f b).Blocks → b.Blocks)
    (hexpires : ∀ b ∈ d.bookings, b.id = id →
      (f b).status ∉ [.PENDING_PAYMENT, .EXPIRING] ∨ (f b).expiresAt ≠ none) :
    Legal (d.onBookings (Table.update [id] f)) := by
  have hlegal := h.bookings
  have hthere : ∀ {organizationId bookingId : String},
      (∃ b ∈ d.bookings, b.organizationId = organizationId ∧ b.id = bookingId) →
      ∃ b ∈ Table.update [id] f d.bookings, b.organizationId = organizationId ∧ b.id = bookingId := by
    intro organizationId bookingId hbooking
    refine Table.exists_update (fun b hb => ?_) hbooking
    rwa [(hplaced b).organizationId, (hplaced b).id]
  have hreference : ∀ b, ((f b).organizationId, (f b).reference) = (b.organizationId, b.reference) :=
    fun b => by rw [(hplaced b).organizationId, (hplaced b).reference]
  have hrescheduled : ∀ b, ((f b).rescheduledFromBookingId.map fun x => ((f b).organizationId, x)) =
      b.rescheduledFromBookingId.map fun x => (b.organizationId, x) :=
    fun b => by rw [(hplaced b).organizationId, (hplaced b).rescheduledFromBookingId]
  have hrange : ∀ b, b.blockStartsAt < b.blockEndsAt → (f b).blockStartsAt < (f b).blockEndsAt := by
    intro b hb
    obtain ⟨hstart, hstop⟩ := (Interval.mk.injEq ..).mp (hplaced b).block
    rwa [hstart, hstop]
  exact {
    bookings := {
      pkey := Table.nodup_map_update hlegal.pkey fun b => (hplaced b).id
      reference := Table.nodup_map_update hlegal.reference hreference
      checkoutSession := Table.nodup_filterMap_update_one hlegal.pkey hlegal.checkoutSession hnamed
        fun b hb hsession => absurd hsession (hfree b hb)
      idempotencyKey := Table.nodup_filterMap_update hlegal.idempotencyKey
        fun b => (hplaced b).idempotencyKeyId
      rescheduledFrom := Table.nodup_filterMap_update hlegal.rescheduledFrom hrescheduled
      block_range_check := Table.forall_update hrange hlegal.block_range_check
      customer_range_check := Table.forall_update
        (fun b hb => by rwa [(hplaced b).startsAt, (hplaced b).endsAt]) hlegal.customer_range_check
      expires_at_matches_status := by
        intro b' hb'
        obtain ⟨b, hb, rfl⟩ := Table.mem_update.mp hb'
        split
        · exact hexpires b hb (List.mem_singleton.mp ‹_›)
        · exact hlegal.expires_at_matches_status b hb
      no_overlap := by
        refine List.pairwise_map.mpr (hlegal.no_overlap.imp_of_mem fun {x y} hx hy hxy => ?_)
        have hrow : ∀ b ∈ d.bookings, ∀ b', b' = (if Keyed.key b ∈ [id] then f b else b) →
            b'.organizationId = b.organizationId ∧ b'.employeeId = b.employeeId ∧ b'.block = b.block ∧
              (b'.Blocks → b.Blocks) := by
          rintro b hb b' rfl
          split
          · exact ⟨(hplaced b).organizationId, (hplaced b).employeeId, (hplaced b).block,
              hblocks b hb (List.mem_singleton.mp ‹_›)⟩
          · exact ⟨rfl, rfl, rfl, fun h => h⟩
        obtain ⟨horganization, hemployee, hblock, hbusy⟩ := hrow x hx _ rfl
        obtain ⟨horganization', hemployee', hblock', hbusy'⟩ := hrow y hy _ rfl
        rw [horganization, horganization', hemployee, hemployee', hblock, hblock']
        rintro ⟨ho, he, hbx, hby, hoverlaps⟩
        exact hxy ⟨ho, he, hbusy hbx, hbusy' hby, hoverlaps⟩
      employee_fkey := Table.forall_update
        (fun b hb => by rwa [(hplaced b).organizationId, (hplaced b).employeeId]) hlegal.employee_fkey
      history_fkey := fun x hx => hthere (hlegal.history_fkey x hx)
      token_hash := hlegal.token_hash
      notification_dedupe := hlegal.notification_dedupe }
    payments := { h.payments with
      booking_fkey := fun p hp => hthere (h.payments.booking_fkey p hp) }
    refunds := { h.refunds with
      booking_fkey := fun r hr => hthere (h.refunds.booking_fkey r hr) }
    requests := { h.requests with
      cancellation_fkey := fun r hr => hthere (h.requests.cancellation_fkey r hr)
      reschedule_fkey := fun r hr => hthere (h.requests.reschedule_fkey r hr) }
    calendar := { h.calendar with } }

/-- A unique column stays unique with a row whose value, if any, no other row has. -/
theorem nodup_filterMap_append {ρ κ : Type} {t : List ρ} {r : ρ} {g : ρ → Option κ}
    (h : (t.filterMap g).Nodup) (hfree : ∀ q ∈ t, ∀ k, g r = some k → g q ≠ some k) :
    ((t ++ [r]).filterMap g).Nodup := by
  rw [List.filterMap_append]
  refine List.Nodup.append h ?_ ?_
  · cases hr : g r with
    | none => simp [hr]
    | some k => simp [hr]
  · intro k hk hk'
    obtain ⟨q, hq, hqk⟩ := List.mem_filterMap.mp hk
    obtain ⟨r', hr', hrk⟩ := List.mem_filterMap.mp hk'
    obtain rfl := List.mem_singleton.mp hr'
    exact hfree q hq k hrk hqk

/-- A payment whose booking is there and whose keys no other payment has. -/
structure Payment.NewIn (p : Payment) (d : Db) : Prop where
  id : ∀ q ∈ d.payments, q.id ≠ p.id
  paymentIntent : ∀ q ∈ d.payments, ∀ intent, p.stripePaymentIntentId = some intent →
    q.stripePaymentIntentId ≠ some intent
  checkoutSession : ∀ q ∈ d.payments, ∀ session, p.stripeCheckoutSessionId = some session →
    q.stripeCheckoutSessionId ≠ some session
  charge : ∀ q ∈ d.payments, ∀ charge, p.stripeChargeId = some charge → q.stripeChargeId ≠ some charge
  booking : ∃ b ∈ d.bookings, b.organizationId = p.organizationId ∧ b.id = p.bookingId

/-- The checks on a row of payments: it is a payment of something, and refunded within it. -/
def Payment.Checked (p : Payment) : Prop :=
  0 < p.amountCents ∧ 0 ≤ p.refundedAmountCents ∧ p.refundedAmountCents ≤ p.amountCents

/-- A new payment is let in exactly when it passes the checks. -/
theorem Legal.addPayment_iff (h : Legal d) {p : Payment} (hnew : p.NewIn d) :
    Legal (d.onPayments (· ++ [p])) ↔ p.Checked := by
  have hlast : p ∈ d.payments ++ [p] := List.mem_append_right _ (List.mem_singleton_self p)
  constructor
  · intro hlegal
    exact ⟨hlegal.payments.amount_check p hlast, hlegal.payments.refunded_check p hlast⟩
  · rintro ⟨hamount, hrefunded⟩
    have hpaid := h.payments
    exact {
      bookings := { h.bookings with }
      payments := {
        pkey := by
          rw [Db.onPayments_payments, List.map_append]
          refine List.Nodup.append hpaid.pkey (List.nodup_singleton _) fun id hid hid' => ?_
          obtain ⟨q, hq, rfl⟩ := List.mem_map.mp hid
          exact hnew.id q hq (List.mem_singleton.mp hid')
        paymentIntent := nodup_filterMap_append hpaid.paymentIntent hnew.paymentIntent
        checkoutSession := nodup_filterMap_append hpaid.checkoutSession hnew.checkoutSession
        charge := nodup_filterMap_append hpaid.charge hnew.charge
        booking_fkey := List.forall_mem_append.mpr
          ⟨hpaid.booking_fkey, List.forall_mem_singleton.mpr hnew.booking⟩
        amount_check := List.forall_mem_append.mpr
          ⟨hpaid.amount_check, List.forall_mem_singleton.mpr hamount⟩
        refunded_check := List.forall_mem_append.mpr
          ⟨hpaid.refunded_check, List.forall_mem_singleton.mpr hrefunded⟩
        manual_amount_check := hpaid.manual_amount_check }
      refunds := { h.refunds with
        payment_fkey := fun r hr => by
          obtain ⟨q, hq, hkeys⟩ := h.refunds.payment_fkey r hr
          exact ⟨q, List.mem_append_left _ hq, hkeys⟩ }
      requests := { h.requests with }
      calendar := { h.calendar with } }

/-- A link with a new hash, a row of the history of a booking that is there, and an event are let in. -/
theorem Legal.announced (h : Legal d) {token : ManagementToken} {row : BookingStatusHistory}
    (event : OutboxEvent) (htoken : ∀ t ∈ d.managementTokens, t.tokenHash ≠ token.tokenHash)
    (hrow : ∃ b ∈ d.bookings, b.organizationId = row.organizationId ∧ b.id = row.bookingId) :
    Legal (Db.onOutbox (· ++ [event]) (Db.onHistory (· ++ [row]) (Db.onTokens (· ++ [token]) d))) where
  bookings := { h.bookings with
    history_fkey := List.forall_mem_append.mpr
      ⟨h.bookings.history_fkey, List.forall_mem_singleton.mpr hrow⟩
    token_hash := by
      change ((d.managementTokens ++ [token]).map Keyed.key).Nodup
      rw [List.map_append]
      refine List.Nodup.append h.bookings.token_hash (List.nodup_singleton _) fun hash hold hnew => ?_
      obtain ⟨t, ht, rfl⟩ := List.mem_map.mp hold
      exact htoken t ht (List.mem_singleton.mp hnew) }
  payments := { h.payments with }
  refunds := { h.refunds with }
  requests := { h.requests with }
  calendar := { h.calendar with }

end Constraints

section Attachment

variable {booking : Booking} {sessionId : String} {account : Option String} {d : Db} {s : Alone store}

/-- A booking that can take this session: it is there and has no session yet, and neither a booking
nor a payment has this one. -/
structure Awaits (booking : Booking) (sessionId : String) (d : Db) : Prop where
  legal : Legal d
  booked : ∃ row, Table.find booking.id d.bookings = some row ∧
    row.organizationId = booking.organizationId ∧ row.stripeCheckoutSessionId = none
  unnamed : ∀ b ∈ d.bookings, b.stripeCheckoutSessionId ≠ some sessionId
  unpaid : ∀ p ∈ d.payments, p.stripeCheckoutSessionId ≠ some sessionId

theorem Awaits.paymentOfSession (h : Awaits booking sessionId d) : paymentOfSession sessionId d = none := by
  refine List.find?_eq_none.mpr fun p hp => ?_
  simpa using h.unpaid p hp

/-- The payment that `openPayment` adds. -/
def Booking.pending (booking : Booking) (sessionId : String) (account : Option String) (id : String)
    (createdAt : Int) : Payment where
  id
  createdAt
  stripeAccountId := account
  organizationId := booking.organizationId
  bookingId := booking.id
  stripeCheckoutSessionId := some sessionId
  amountCents := booking.priceCentsSnapshot
  currency := booking.currency
  status := .PENDING

/-- A booking with its session, and the payment that is pending for it. -/
def Db.attached (booking : Booking) (sessionId : String) (p : Payment) (d : Db) : Db :=
  Db.onPayments (· ++ [p])
    (Db.onBookings (Table.update [booking.id] fun b => { b with stripeCheckoutSessionId := some sessionId }) d)

theorem runAlone_updateBooking {id : String} {f : Booking → Booking} {row : Booking}
    (hfind : Table.find id s.view.bookings = some row) :
    Code.runAlone (discard (updateBooking id f)) s =
      (.ok (), s.write fun _ => Db.onBookings (Table.update [id] f)) := by
  have hupdate : (updateBooking id f).runAlone s =
      (.ok (f row), s.write fun _ => Db.onBookings (Table.update [id] f)) := by
    unfold updateBooking updateBookingAt
    rw [runAlone_bind_ok (runAlone_modify ..), hfind]
    rfl
  change (updateBooking id f >>= fun _ => pure ()).runAlone s = _
  exact runAlone_bind_ok hupdate

theorem runAlone_openPayment (h : paymentOfSession sessionId s.view = none) : ∃ s',
    (openPayment booking sessionId account).runAlone s = (.ok (), s') ∧ s'.db = s.db ∧
      s'.view = Db.onPayments
        (· ++ [booking.pending sessionId account (s.answers 0).id (s.answers 1).now]) s.view := by
  refine ⟨_, rfl, rfl, ?_⟩
  change (if (paymentOfSession sessionId s.view).isSome then id else _) s.view = _
  rw [h]
  rfl

theorem runAlone_attachOnce (h : Awaits booking sessionId s.view) : ∃ s',
    (attachOnce booking sessionId account).runAlone s = (.ok (), s') ∧ s'.db = s.db ∧
      s'.view = s.view.attached booking sessionId
        (booking.pending sessionId account (s.answers 0).id (s.answers 1).now) := by
  obtain ⟨row, hfind, -, hnone⟩ := h.booked
  have hid : row.id = booking.id := Table.key_of_find hfind
  have hread : (read fun d => Table.find booking.id d.bookings).runAlone s = (.ok (some row), s) :=
    congrArg (fun found => (Except.ok found, s)) hfind
  have hlocked : Code.runAlone (discard (lockBooking booking.id)) s = (.ok (), s) := rfl
  have hnamed : (nameSession row sessionId).runAlone s = (.ok (), s.write fun _ => Db.onBookings
      (Table.update [booking.id] fun b => { b with stripeCheckoutSessionId := some sessionId })) := by
    unfold nameSession
    rw [if_pos hnone, hid]
    exact runAlone_updateBooking hfind
  generalize hs₁ : (s.write fun _ => Db.onBookings
    (Table.update [booking.id] fun b => { b with stripeCheckoutSessionId := some sessionId })) = s₁ at hnamed
  have hfree : paymentOfSession sessionId s₁.view = none := by
    rw [← hs₁]
    exact h.paymentOfSession
  obtain ⟨s₂, hopened, hdb, hview⟩ := @runAlone_openPayment booking sessionId account s₁ hfree
  have hpayment : paymentOfSession sessionId s₂.view =
      some (booking.pending sessionId account (s₁.answers 0).id (s₁.answers 1).now) := by
    rw [hview]
    unfold paymentOfSession at hfree ⊢
    rw [Db.onPayments_payments, List.find?_append, hfree, Option.none_or]
    exact List.find?_cons_of_pos (decide_eq_true rfl)
  have hfound : (read (paymentOfSession sessionId)).runAlone s₂ = (.ok (some _), s₂) :=
    congrArg (fun found => (Except.ok found, s₂)) hpayment
  refine ⟨s₂, ?_, ?_, ?_⟩
  · unfold attachOnce
    rw [runAlone_bind_ok hlocked, runAlone_bind_ok hread, orThrow, runAlone_bind_ok (runAlone_pure s row),
      runAlone_bind_ok (runAlone_ensure_of (.inl hnone) _ _), runAlone_bind_ok hnamed,
      runAlone_bind_ok hopened, runAlone_bind_ok hfound, orThrow, runAlone_bind_ok (runAlone_pure s₂ _)]
    exact runAlone_ensure_of ⟨rfl, rfl, rfl⟩ _ _
  · rw [hdb, ← hs₁]
    rfl
  · rw [hview, ← hs₁]
    rfl

/-- What `attach` writes breaks no constraint, if its payment passes the checks. -/
theorem Awaits.attached (h : Awaits booking sessionId d) {id : String} {createdAt : Int}
    (hid : ∀ p ∈ d.payments, p.id ≠ id) :
    Legal (d.attached booking sessionId (booking.pending sessionId account id createdAt)) ↔
      0 < booking.priceCentsSnapshot := by
  obtain ⟨row, hfind, horganization, -⟩ := h.booked
  have hnamed : Legal (Db.onBookings
      (Table.update [booking.id] fun b => { b with stripeCheckoutSessionId := some sessionId }) d) :=
    h.legal.nameSession (fun _ => ⟨rfl, rfl, rfl, rfl, rfl, rfl, rfl, rfl, rfl⟩) (fun _ => rfl) h.unnamed
      (fun _ _ _ hblocks => hblocks) fun b hb _ => h.legal.bookings.expires_at_matches_status b hb
  have hnew : (booking.pending sessionId account id createdAt).NewIn (Db.onBookings
      (Table.update [booking.id] fun b => { b with stripeCheckoutSessionId := some sessionId }) d) := {
    id := hid
    paymentIntent := fun _ _ intent hintent => absurd hintent (by simp [Booking.pending])
    checkoutSession := by
      rintro p hp session ⟨⟩
      exact h.unpaid p hp
    charge := fun _ _ charge hcharge => absurd hcharge (by simp [Booking.pending])
    booking := Table.exists_update (fun _ hb => hb)
      ⟨row, Table.mem_of_find hfind, horganization, Table.key_of_find hfind⟩ }
  refine (hnamed.addPayment_iff hnew).trans ⟨fun hchecked => hchecked.1, fun hprice => ?_⟩
  exact ⟨hprice, le_refl 0, le_of_lt hprice⟩

/-- A payment of nothing is in no legal state. -/
theorem not_legal_attached (h : booking.priceCentsSnapshot ≤ 0) (id : String) (createdAt : Int) :
    ¬Legal (d.attached booking sessionId (booking.pending sessionId account id createdAt)) := by
  intro hlegal
  have hamount := hlegal.payments.amount_check _ (List.mem_append_right _ (List.mem_singleton_self _))
  exact absurd hamount (not_lt.mpr h)

/-- The session of a booking that awaits it is attached exactly when there is something to pay. -/
theorem attach_iff (h : Awaits booking sessionId s.db)
    (hid : ∀ p ∈ s.db.payments, p.id ≠ (s.answers 0).id) :
    (∃ s', (attach booking sessionId account).runAlone s = (.ok (), s')) ↔
      0 < booking.priceCentsSnapshot := by
  rw [attach_eq]
  constructor
  · rintro ⟨s', hrun⟩
    by_contra hprice
    have hfails : ∀ (n : Nat) (a : Alone store), a.db = s.db → ∃ e a',
        (transaction (S := store) (.attachment booking.id sessionId)
          (attachOnce booking sessionId account)).runAlone a = (.error e, a') ∧ a'.db = s.db := by
      intro _ a ha
      obtain ⟨a', hbody, hdb, hview⟩ := @runAlone_attachOnce booking sessionId account (a.idleIn a.db)
        (by exact ha ▸ h)
      rw [runAlone_transaction_ok a hbody, hview, if_neg]
      · exact ⟨_, _, rfl, hdb.trans ha⟩
      · rw [decide_eq_true_eq]
        exact not_legal_attached (not_lt.mp hprice) _ _
    obtain ⟨e, a', hfailed, -⟩ := runAlone_withRetry_error hfails 2 s rfl
    rw [withSerializationRetry, hfailed] at hrun
    cases hrun
  · intro hprice
    obtain ⟨a, hbody, -, hview⟩ := @runAlone_attachOnce booking sessionId account (s.idleIn s.db) h
    have hlegal : Legal a.view := by
      rw [hview]
      exact (h.attached hid).mpr hprice
    refine ⟨a.idleIn a.view, runAlone_withRetry_ok s ?_⟩
    rw [runAlone_transaction_ok s hbody, if_pos (decide_eq_true hlegal)]

end Attachment

section Confirmation

variable {api : Api} {booking row : Booking} {input : ConfirmPaidInput} {d : Db} {s : Alone store}

/-- A hold that a payment of this session confirms: the session is not known yet, neither are what was
captured and the link that will be given, and what was captured is the price. -/
structure Capturable (api : Api) (booking : Booking) (input : ConfirmPaidInput) (link paymentId : String)
    (d : Db) : Prop where
  awaits : Awaits booking input.sessionId d
  bookingId : input.bookingId = booking.id
  amount : input.amountTotalCents = booking.priceCentsSnapshot
  held : ∀ row, Table.find booking.id d.bookings = some row →
    row.status = .PENDING_PAYMENT ∨ row.status = .EXPIRING
  paymentIntent : ∀ p ∈ d.payments, ∀ intent, input.paymentIntentId = some intent →
    p.stripePaymentIntentId ≠ some intent
  charge : ∀ p ∈ d.payments, ∀ charge, input.chargeId = some charge → p.stripeChargeId ≠ some charge
  payment : ∀ p ∈ d.payments, p.id ≠ paymentId
  token : ∀ t ∈ d.managementTokens, t.tokenHash ≠ api.hashManagementToken link

/-- The payment that `upsertPayment` adds. -/
def ConfirmPaidInput.captured (input : ConfirmPaidInput) (booking : Booking) (id : String) (createdAt : Int) :
    Payment :=
  input.paid {
    id, createdAt
    organizationId := booking.organizationId
    bookingId := booking.id
    stripeCheckoutSessionId := some input.sessionId
    stripeAccountId := input.stripeAccountId
    amountCents := input.amountTotalCents
    currency := booking.currency
    status := .SUCCEEDED }

/-- The management link that a confirmation gives. -/
def Api.linkTo (api : Api) (booking : Booking) (token : String) : ManagementToken where
  organizationId := booking.organizationId
  bookingId := booking.id
  tokenHash := api.hashManagementToken token
  expiresAt := booking.endsAt + MANAGEMENT_TOKEN_GRACE_DAYS * 86400000

/-- A booking that is confirmed, with the payment that confirmed it and the link it gives. -/
def Db.confirmed (api : Api) (input : ConfirmPaidInput) (booking : Booking) (confirmedAt : Int) (p : Payment)
    (token : String) (d : Db) : Db :=
  Db.onOutbox (· ++ [booking.confirmation token]) (Db.onHistory (· ++ [input.recorded booking])
    (Db.onTokens (· ++ [api.linkTo booking token]) (Db.onPayments (· ++ [p])
      (Db.onBookings (Table.update [booking.id] (input.confirmed confirmedAt)) d))))

theorem runAlone_upsertPayment (h : paymentOfSession input.sessionId s.view = none) : ∃ s',
    (upsertPayment booking input).runAlone s = (.ok (), s') ∧ s'.db = s.db ∧
      s'.answers 0 = s.answers 2 ∧ s'.view = Db.onPayments
        (· ++ [input.captured booking (s.answers 0).id (s.answers 1).now]) s.view := by
  refine ⟨_, rfl, rfl, rfl, ?_⟩
  have hnext : paymentOfSession input.sessionId s.next.next.view = none := h
  rw [Alone.view_write, hnext]
  rfl

/-- The transaction goes through to its commit. -/
theorem runAlone_confirmInTransaction {link paymentId : String} (confirmedAt : Int)
    (h : Capturable api booking input link paymentId s.view)
    (hfind : Table.find booking.id s.view.bookings = some row) : ∃ s',
    (confirmInTransaction api input confirmedAt).runAlone s = (.ok .CONFIRMED, s') ∧ s'.db = s.db ∧
      s'.view = s.view.confirmed api input row confirmedAt
        (input.captured row (s.answers 0).id (s.answers 1).now) (s.answers 2).random := by
  have hread : (read fun d => Table.find input.bookingId d.bookings).runAlone s = (.ok (some row), s) := by
    rw [h.bookingId]
    exact congrArg (fun found => (Except.ok found, s)) hfind
  have hlocked : (lockBooking input.bookingId).runAlone s = (.ok (some row), s) := hread
  obtain ⟨hunconfirmed, hlive, hlawful⟩ : row.status ≠ .CONFIRMED ∧ isTerminal row.status = false ∧
      canTransition (some row.status) .CONFIRMED = true := by
    rcases h.held row hfind with hstatus | hstatus <;> rw [hstatus] <;> decide
  have htransition : (assertTransition (some row.status) .CONFIRMED).runAlone s = (.ok (), s) :=
    runAlone_ensure_of hlawful _ _
  have hupdated : Code.runAlone (discard (updateBooking row.id (input.confirmed confirmedAt))) s = (.ok (),
      s.write fun _ => Db.onBookings (Table.update [row.id] (input.confirmed confirmedAt))) :=
    runAlone_updateBooking (Table.key_of_find hfind ▸ hfind)
  generalize hs₁ : (s.write fun _ => Db.onBookings (Table.update [row.id] (input.confirmed confirmedAt))) = s₁
    at hupdated
  have hfree : paymentOfSession input.sessionId s₁.view = none := by
    rw [← hs₁]
    exact h.awaits.paymentOfSession
  obtain ⟨s₂, hpaid, hdb, hanswer, hview⟩ := @runAlone_upsertPayment row input s₁ hfree
  have hissued : (issueToken api row.id row.organizationId row.endsAt).runAlone s₂ = (.ok (s₂.answers 0).random,
      s₂.next.write fun _ => Db.onTokens (· ++ [api.linkTo row (s₂.answers 0).random])) := rfl
  refine ⟨((s₂.next.write fun _ => Db.onTokens (· ++ [api.linkTo row (s₂.answers 0).random])).write
    fun _ => Db.onHistory (· ++ [input.recorded row])).write
    fun _ => Db.onOutbox (· ++ [row.confirmation (s₂.answers 0).random]), ?_, ?_, ?_⟩
  · unfold confirmInTransaction
    rw [runAlone_bind_ok hlocked]
    dsimp only
    rw [if_neg hunconfirmed, hlive, if_neg Bool.false_ne_true, runAlone_bind_ok hread, orThrow,
      runAlone_bind_ok (runAlone_pure s row)]
    unfold confirmRow
    rw [runAlone_bind_ok htransition, runAlone_bind_ok hupdated, runAlone_bind_ok hpaid,
      runAlone_bind_ok hissued]
    rfl
  · exact hdb.trans (by rw [← hs₁]; rfl)
  · have hkept : s₂.next.view = s₂.view := rfl
    rw [Alone.view_write, Alone.view_write, Alone.view_write, hkept, hanswer, hview, ← hs₁]
    rfl

/-- What a confirmation writes breaks no constraint, if its payment passes the checks. -/
theorem Capturable.confirmed {link paymentId : String} (h : Capturable api booking input link paymentId d)
    (hfind : Table.find booking.id d.bookings = some row) (confirmedAt createdAt : Int) :
    Legal (d.confirmed api input row confirmedAt (input.captured row paymentId createdAt) link) ↔
      0 < booking.priceCentsSnapshot := by
  have hid : row.id = booking.id := Table.key_of_find hfind
  have hblocks : row.Blocks := by
    unfold Booking.Blocks
    rcases h.held row hfind with hstatus | hstatus <;> rw [hstatus] <;> decide
  have hsettled : BookingStatus.CONFIRMED ∉ [.PENDING_PAYMENT, .EXPIRING] := by decide
  have hnamed : Legal (Db.onBookings (Table.update [row.id] (input.confirmed confirmedAt)) d) := by
    refine h.awaits.legal.nameSession (fun _ => ⟨rfl, rfl, rfl, rfl, rfl, rfl, rfl, rfl, rfl⟩) (fun _ => rfl)
      h.awaits.unnamed (fun b hb hkey _ => ?_) fun _ _ _ => .inl hsettled
    have hfound : Table.find row.id d.bookings = some b :=
      hkey ▸ Table.find_of_mem h.awaits.legal.bookings.pkey hb
    rw [hid, hfind] at hfound
    exact Option.some.inj hfound ▸ hblocks
  have hthere : ∃ b ∈ (Db.onBookings (Table.update [row.id] (input.confirmed confirmedAt)) d).bookings,
      b.organizationId = row.organizationId ∧ b.id = row.id :=
    Table.exists_update (fun _ hb => hb) ⟨row, Table.mem_of_find hfind, rfl, rfl⟩
  have hnew : (input.captured row paymentId createdAt).NewIn
      (Db.onBookings (Table.update [row.id] (input.confirmed confirmedAt)) d) := {
    id := h.payment
    paymentIntent := fun p hp intent hintent => h.paymentIntent p hp intent
      ((Option.or_none).symm.trans hintent)
    checkoutSession := by
      rintro p hp session ⟨⟩
      exact h.awaits.unpaid p hp
    charge := fun p hp charge hcharge => h.charge p hp charge ((Option.or_none).symm.trans hcharge)
    booking := hthere }
  rw [← h.amount]
  constructor
  · intro hlegal
    exact hlegal.payments.amount_check _ (List.mem_append_right _ (List.mem_singleton_self _))
  · intro hprice
    have hpaid := (hnamed.addPayment_iff hnew).mpr ⟨hprice, le_refl 0, le_of_lt hprice⟩
    exact hpaid.announced (row.confirmation link) h.token hthere

/-- A payment confirms the hold that it is for exactly when there was something to pay. -/
theorem confirmPaid_iff
    (h : Capturable api booking input (s.answers 3).random (s.answers 1).id s.db) :
    (∃ s', (confirmPaid api input).runAlone s = (.ok .CONFIRMED, s')) ↔
      0 < booking.priceCentsSnapshot := by
  obtain ⟨row, hfind, -⟩ := h.awaits.booked
  have hnow : ∀ a : Alone store, now.runAlone a = (.ok (a.answers 0).now, a.next) := fun _ => rfl
  constructor
  · rintro ⟨s', hrun⟩
    by_contra hprice
    have hfails : ∀ (n : Nat) (a : Alone store), a.db = s.db → ∃ e a',
        (confirmOnce api input).runAlone a = (.error e, a') ∧ a'.db = s.db := by
      intro _ a ha
      have hview : (a.next.idleIn a.next.db).view = s.db := ha
      obtain ⟨a', hbody, hdb, hview'⟩ := @runAlone_confirmInTransaction api booking row input
        (a.next.idleIn a.next.db) _ _ (a.answers 0).now (by rw [hview]; exact h) (by rw [hview]; exact hfind)
      rw [confirmOnce_eq, runAlone_bind_ok (hnow a), runAlone_transaction_ok a.next hbody, hview', if_neg]
      · exact ⟨_, _, rfl, hdb.trans ha⟩
      · rw [decide_eq_true_eq]
        intro hlegal
        have hamount := hlegal.payments.amount_check _ (List.mem_append_right _ (List.mem_singleton_self _))
        exact hprice (h.amount ▸ hamount)
    obtain ⟨e, a', hfailed, -⟩ := runAlone_withRetry_error hfails 2 s rfl
    rw [confirmPaid, withSerializationRetry, hfailed] at hrun
    cases hrun
  · intro hprice
    obtain ⟨a, hbody, -, hview⟩ := @runAlone_confirmInTransaction api booking row input
      (s.next.idleIn s.db) _ _ (s.answers 0).now h hfind
    have hlegal : Legal a.view := by
      rw [hview]
      exact (h.confirmed hfind _ _).mpr hprice
    refine ⟨a.idleIn a.view, runAlone_withRetry_ok s ?_⟩
    rw [confirmOnce_eq, runAlone_bind_ok (hnow s), runAlone_transaction_ok s.next hbody,
      if_pos (decide_eq_true hlegal)]

end Confirmation

section Payable

variable {api : Api}

/-- What a pairing costs when it costs something. -/
theorem resolveEffectivePrice_eq_ok {service : Service} {link : EmployeeService} {price : Money}
    (h : resolveEffectivePrice service link = .ok price) :
    price.amountCents = link.priceOverrideCents.getD service.priceCents ∧ 0 ≤ price.amountCents := by
  unfold resolveEffectivePrice at h
  dsimp only at h
  split at h
  · cases h
  · unfold Money.fromCents at h
    split at h
    · cases h
      exact ⟨rfl, not_lt.mp ‹_›⟩
    · cases h

/-- A booking that a customer has reserved is there at the effective price of its pairing. Its session
can be attached, and a payment that comes before that can confirm it, exactly when that price is not
zero. -/
theorem reserved_payable_iff {employeeId : Option String} {input : ReserveInput}
    (hactor : input.actor = .CUSTOMER) {r : ReserveResult} {s s' : Alone store}
    (hrun : (reserveWith api employeeId input).runAlone s = (.ok r, s')) :
    ∃ link employee service,
      findAssignment api { input with employeeId := r.booking.employeeId } s'.db =
        some (link, employee, service) ∧
      resolveEffectivePrice service link = .ok r.price ∧
      (Legal s'.db ∧ Table.find r.booking.id s'.db.bookings = some r.booking ∧
        r.booking.stripeCheckoutSessionId = none) ∧
      (∀ (t : Alone store) (sessionId : String) (account : Option String),
        Awaits r.booking sessionId t.db → (∀ p ∈ t.db.payments, p.id ≠ (t.answers 0).id) →
        ((∃ t', (attach r.booking sessionId account).runAlone t = (.ok (), t')) ↔
          link.priceOverrideCents.getD service.priceCents ≠ 0)) ∧
      ∀ (t : Alone store) (payment : ConfirmPaidInput),
        Capturable api r.booking payment (t.answers 3).random (t.answers 1).id t.db →
        ((∃ t', (confirmPaid api payment).runAlone t = (.ok .CONFIRMED, t')) ↔
          link.priceOverrideCents.getD service.priceCents ≠ 0) := by
  obtain ⟨hreserved, hlegal⟩ := reserved_of_reserveWith hactor hrun
  obtain ⟨link, employee, service, hfound, hprice⟩ := hreserved.priced
  obtain ⟨hcents, hnonneg⟩ := resolveEffectivePrice_eq_ok hprice
  have hsome : 0 < r.booking.priceCentsSnapshot ↔ link.priceOverrideCents.getD service.priceCents ≠ 0 := by
    rw [hreserved.price, ← hcents]
    omega
  refine ⟨link, employee, service, hfound, hprice,
    ⟨hlegal, Table.find_of_mem hlegal.bookings.pkey hreserved.stored, hreserved.unnamed⟩, ?_, ?_⟩
  · intro t sessionId account hawaits hid
    exact (attach_iff hawaits hid).trans hsome
  · intro t payment hcapturable
    exact (confirmPaid_iff hcapturable).trans hsome

/-- Thursday, where the service costs this much. -/
def Db.thursdayAt (priceCents : Int) : Db :=
  { Db.thursday with services := Db.thursday.services.map fun service => { service with priceCents } }

/-- A client that is given new ids, in the state `d`. -/
def Alone.numbered (d : Db) : Alone store where
  answers n := { id := s!"id{n}", random := s!"random{n}" }
  refusal _ := recordNotFound
  db := d

/-- A customer who names nobody reserves eleven, at no price or at another. -/
theorem reserve_thursdayAt {priceCents : Int} (h : priceCents = 0 ∨ priceCents = 100) : ∃ r s',
    (reserveWith .sample none .eleven).runAlone (Alone.numbered (.thursdayAt priceCents)) = (.ok r, s') ∧
      Awaits r.booking "cs" s'.db ∧ (∀ p ∈ s'.db.payments, p.id ≠ (s'.answers 0).id) ∧
      r.price.amountCents = priceCents ∧ r.booking.priceCentsSnapshot = priceCents := by
  rcases h with rfl | rfl
  · exact ⟨_, _, rfl, ⟨by decide, ⟨_, rfl, rfl, rfl⟩, by decide, by decide⟩, by decide, rfl, rfl⟩
  · exact ⟨_, _, rfl, ⟨by decide, ⟨_, rfl, rfl, rfl⟩, by decide, by decide⟩, by decide, rfl, rfl⟩

/-- At a price, its session is attached. -/
theorem reserved_payable_thursday : ∃ r s', (reserveWith .sample none .eleven).runAlone
    (Alone.numbered (.thursdayAt 100)) = (.ok r, s') ∧
      ∃ t', (attach r.booking "cs" none).runAlone s' = (.ok (), t') := by
  obtain ⟨r, s', hrun, hawaits, hid, hamount, -⟩ := reserve_thursdayAt (.inr rfl)
  obtain ⟨link, -, service, -, hprice, -, hattach, -⟩ := reserved_payable_iff rfl hrun
  obtain ⟨hcents, -⟩ := resolveEffectivePrice_eq_ok hprice
  refine ⟨r, s', hrun, (hattach s' "cs" none hawaits hid).mpr ?_⟩
  rw [← hcents, hamount]
  decide

/-- Free of charge it is reserved, and its session is never attached. -/
theorem free_not_payable : ¬ ∀ (api : Api) (input : ReserveInput) (r : ReserveResult) (s s' : Alone store)
    (sessionId : String) (account : Option String), input.actor = .CUSTOMER →
    (reserveWith api none input).runAlone s = (.ok r, s') → Awaits r.booking sessionId s'.db →
    (∀ p ∈ s'.db.payments, p.id ≠ (s'.answers 0).id) →
    ∃ t', (attach r.booking sessionId account).runAlone s' = (.ok (), t') := by
  intro h
  obtain ⟨r, s', hrun, hawaits, hid, -, hprice⟩ := reserve_thursdayAt (.inl rfl)
  have hattached := h .sample .eleven r _ s' "cs" none rfl hrun hawaits hid
  rw [attach_iff hawaits hid, hprice] at hattached
  exact absurd hattached (lt_irrefl 0)

end Payable

end BookingApp

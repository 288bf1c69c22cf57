import BookingApp.Booking.Histories

/-!
# Money that was captured

What a paid session captured is recorded in its payment, and stays recorded, as long as the
booking still waits for the payment when the event is handled. A session that is paid for
after its booking has left the hold is logged only.
-/

set_option autoImplicit false

namespace BookingApp

open ReadCommitted ReadCommitted.Proto

/-- What a change does to a stored event. -/
inductive EventStep (rules : BookingRules) (d : Db) (e' : StripeWebhookEvent) : Prop where
  | kept (e : StripeWebhookEvent) (he : Table.find e'.stripeEventId d.stripeWebhookEvents = some e)
      (htype : e'.type = e.type) (hpayload : e'.payload = e.payload)
      (hprocessed : e'.processedAt = e.processedAt ∨ rules.handled e d) : EventStep rules d e'
  | heard (hopen : e'.processedAt = none) (hreports : rules.Reports e'.payload) : EventStep rules d e'

section Steps

variable {rules : BookingRules} {d d' : Db} {id : String}

/-- Where a stored event comes from. -/
theorem Commit.event (h : Commit rules d d') {e' : StripeWebhookEvent} (he' : e' ∈ d'.stripeWebhookEvents) :
    EventStep rules d e' := by
  have hfind : ∀ {e}, e ∈ d.stripeWebhookEvents →
      Table.find e.stripeEventId d.stripeWebhookEvents = some e :=
    fun he => Table.find_of_mem h.before.requests.event_id he
  have hold : e' ∈ d.stripeWebhookEvents → EventStep rules d e' :=
    fun he => .kept e' (hfind he) rfl rfl (.inl rfl)
  cases h.change with
  | heard event hopen hreports hd =>
    rw [hd] at he'
    rcases List.mem_append.mp he' with he' | he'
    · exact hold he'
    · obtain rfl := List.mem_singleton.mp he'
      exact .heard hopen hreports
  | retried ids attempts lastError hd =>
    rw [hd] at he'
    obtain ⟨e, he, rfl⟩ := Table.mem_update.mp he'
    split <;> exact .kept e (hfind he) rfl rfl (.inl rfl)
  | processed ids instant hhandled hd =>
    rw [hd] at he'
    obtain ⟨e, he, rfl⟩ := Table.mem_update.mp he'
    split
    · exact .kept e (hfind he) rfl rfl (.inr (hhandled e.stripeEventId ‹_› e (hfind he)))
    · exact .kept e (hfind he) rfl rfl (.inl rfl)
  | _ =>
    rename_i hd
    exact hold (by rwa [hd] at he')

/-- A payment that was received stays so. -/
theorem PaymentStep.received {p p' : Payment} (h : PaymentStep rules d p p') (ht : rules.tracks)
    (hp : p.status ∈ RECEIVED_PAYMENT_STATUSES) : p'.status ∈ RECEIVED_PAYMENT_STATUSES := by
  cases h with
  | kept => exact hp
  | paid input b hb hhold hassume hsession hcaptures => simp [ConfirmPaidInput.paid, RECEIVED_PAYMENT_STATUSES]
  | failed input hpending =>
    rw [hpending] at hp
    simp [RECEIVED_PAYMENT_STATUSES] at hp
  | settled refunded status hallowed hstatus hrefunded => exact hstatus ht

/-- Refunds are refunds of money that was received. -/
theorem Commit.refundsReceived (h : Commit rules d d') (ht : rules.tracks) (hr : RefundsReceived d) :
    RefundsReceived d' := by
  intro r' hr' p' hp'
  have hbefore : ∀ p, Table.find r'.paymentId d.payments = some p → p.status ∈ RECEIVED_PAYMENT_STATUSES →
      p'.status ∈ RECEIVED_PAYMENT_STATUSES := by
    intro p hp hreceived
    obtain ⟨p₁, hp₁, hstep⟩ := h.change.payment hp
    obtain rfl := Option.some.inj (hp'.symm.trans hp₁)
    exact hstep.received ht hreceived
  have hreserved : RefundReserved r' d → p'.status ∈ RECEIVED_PAYMENT_STATUSES := by
    rintro ⟨-, p, hp, hstatus⟩
    refine hbefore p hp ?_
    rcases hstatus with hstatus | hstatus <;> simp [hstatus, RECEIVED_PAYMENT_STATUSES]
  cases h.change.refund hr' with
  | kept r hmem hbooking hpayment =>
    obtain ⟨p, hp, -, hid⟩ := h.before.refunds.payment_fkey r hmem
    have hfind : Table.find r.paymentId d.payments = some p := hid ▸ Table.find_of_mem h.before.payments.pkey hp
    exact hbefore p (hpayment ▸ hfind) (hr r hmem p hfind)
  | canceled b b' hb hstatus hb' hends hbooking hres hold => exact hreserved hres
  | requested hallowed hres => exact hreserved hres

/-- Money that was recorded stays recorded. -/
theorem Commit.received (h : Commit rules d d') (ht : rules.tracks) (hr : Received rules id d) :
    Received rules id d' := by
  obtain ⟨p, hp, hsession, hstatus, hcaptures⟩ := hr
  obtain ⟨p', hp', hstep⟩ := h.change.payment (Table.find_of_mem h.before.payments.pkey hp)
  obtain ⟨-, hsession', -⟩ := hstep.stays
  refine ⟨p', Table.mem_of_find hp', hsession'.trans hsession, hstep.received ht hstatus, ?_⟩
  cases hstep with
  | kept => exact hcaptures
  | paid input b hb hhold hassume hof hamount =>
    obtain rfl := Option.some.inj (hsession.symm.trans hof)
    exact hamount
  | failed input hpending =>
    rw [hpending] at hstatus
    simp [RECEIVED_PAYMENT_STATUSES] at hstatus
  | settled refunded status hallowed hreceived hrefunded => exact hcaptures

end Steps

/-- A paid session of this account is what the event reports. -/
structure StripeWebhookEvent.ReportsPaid (e : StripeWebhookEvent) (sessionId : String)
    (account : Option String) : Prop where
  kind : stripeEventKind e.type = .PAID
  session : readString e.payload.id = some sessionId
  paid : e.payload.paymentStatus = some "paid"
  account : readString e.payload.account = account

section Session

variable (bookingId sessionId : String) (account : Option String) (amounts : String → Int)

/-- The session is the one of the booking, with a payment on this account. -/
structure AttachedTo (d : Db) : Prop where
  named : Names bookingId sessionId d
  payment : ∃ p ∈ d.payments, p.stripeCheckoutSessionId = some sessionId ∧ p.bookingId = bookingId ∧
    p.stripeAccountId = account

/-- What the session captured is recorded in its payment. -/
def Recorded (d : Db) : Prop :=
  ∃ p ∈ d.payments, p.stripeCheckoutSessionId = some sessionId ∧ p.bookingId = bookingId ∧
    p.status ∈ RECEIVED_PAYMENT_STATUSES ∧ p.amountCents = amounts sessionId

/-- The stored events report what the sessions captured. -/
def ReportedRight (d : Db) : Prop :=
  ∀ e ∈ d.stripeWebhookEvents, ∀ id cents, readString e.payload.id = some id →
    e.payload.paymentStatus = some "paid" → e.payload.amountTotal = some cents → cents = amounts id

/-- The rules under which sessions capture these amounts, and an event that reports the session
of the booking paid is handled by recording its payment or by finding the booking out of its hold. -/
def captureRules : BookingRules where
  conditions := .none
  captures id cents := cents = amounts id
  invariant d := AttachedTo bookingId sessionId account d ∧ RefundsReceived d ∧ ReportedRight amounts d
  handled e d := e.ReportsPaid sessionId account →
    LeftHold bookingId d ∨ Recorded bookingId sessionId amounts d
  refunds := True
  tracks := True
  received _ _ h := h.2.1

variable {bookingId sessionId account amounts} {d d' : Db}

theorem AttachedTo.commit {rules : BookingRules} (ha : AttachedTo bookingId sessionId account d)
    (h : Commit rules d d') : AttachedTo bookingId sessionId account d' := by
  obtain ⟨p, hp, hsession, hbooking, haccount⟩ := ha.payment
  obtain ⟨p', hp', hstep⟩ := h.change.payment (Table.find_of_mem h.before.payments.pkey hp)
  obtain ⟨hbooking', hsession', haccount'⟩ := hstep.stays
  exact ⟨h.names ha.named, p', Table.mem_of_find hp', hsession'.trans hsession,
    hbooking'.trans hbooking, haccount'.trans haccount⟩

/-- One session has one payment, and names one booking. -/
theorem eq_of_session {ρ : Type} {f : ρ → Option String} {t : List ρ} (h : (t.filterMap f).Nodup) {x y : ρ}
    (hx : x ∈ t) (hy : y ∈ t) {key : String} (hkey : f x = some key) (hkey' : f y = some key) : x = y := by
  induction t with
  | nil => cases hx
  | cons z t ih =>
    have hnot : ∀ w ∈ t, f z = some key → f w ≠ some key := by
      intro w hw hz hw'
      rw [List.filterMap_cons_some hz] at h
      exact (List.nodup_cons.mp h).1 (List.mem_filterMap.mpr ⟨w, hw, hw'⟩)
    have htail : (t.filterMap f).Nodup := by
      cases hz : f z with
      | none => rwa [List.filterMap_cons_none hz] at h
      | some k =>
        rw [List.filterMap_cons_some hz] at h
        exact (List.nodup_cons.mp h).2
    rcases List.mem_cons.mp hx with rfl | hx'
    · rcases List.mem_cons.mp hy with rfl | hy'
      · rfl
      · exact absurd hkey' (hnot y hy' hkey)
    · rcases List.mem_cons.mp hy with rfl | hy'
      · exact absurd hkey (hnot x hx' hkey')
      · exact ih htail hx' hy'

theorem AttachedTo.recorded_iff (ha : AttachedTo bookingId sessionId account d) (hlegal : Legal d) :
    Recorded bookingId sessionId amounts d ↔
      Received (captureRules bookingId sessionId account amounts) sessionId d := by
  constructor
  · rintro ⟨p, hp, hsession, -, hstatus, hamount⟩
    exact ⟨p, hp, hsession, hstatus, hamount⟩
  · rintro ⟨p, hp, hsession, hstatus, hamount⟩
    obtain ⟨q, hq, hqsession, hbooking, -⟩ := ha.payment
    obtain rfl : p = q := eq_of_session hlegal.payments.checkoutSession hp hq hsession hqsession
    exact ⟨p, hp, hsession, hbooking, hstatus, hamount⟩

theorem Commit.recorded (h : Commit (captureRules bookingId sessionId account amounts) d d')
    (ha : AttachedTo bookingId sessionId account d) (hr : Recorded bookingId sessionId amounts d) :
    Recorded bookingId sessionId amounts d' :=
  ((ha.commit h).recorded_iff h.after).mpr (h.received trivial ((ha.recorded_iff h.before).mp hr))

end Session

/-- A hold whose customer was given a session, and the event that it was paid. -/
def Db.paidSession (status : BookingStatus) (expiresAt : Option Int) : Db :=
  { Db.sample [{ Booking.held with status, expiresAt, stripeCheckoutSessionId := some "cs" }] with
    payments := [{
      id := "p", organizationId := "o", bookingId := "b", stripeCheckoutSessionId := some "cs"
      amountCents := 100, currency := "EUR", status := .PENDING, createdAt := 0 }]
    stripeWebhookEvents := [{
      stripeEventId := "evt", type := "checkout.session.async_payment_succeeded"
      payload := {
        id := some "cs", paymentStatus := some "paid", amountTotal := some 100
        paymentIntent := some "pi" } }] }

/-- The event is handled. -/
def someEvent : Tx Unit :=
  handleStripeEvent .sample "evt"

/-- It is handled while the booking waits. -/
def handledInTime : List (Action store) :=
  [.start someEvent, .run 0, .run 0, .run 0, .answer 0 {}, .answer 0 {}] ++ .replicate 4 (.run 0) ++
    [.answer 0 {}, .answer 0 {}, .run 0, .answer 0 {}] ++ .replicate 4 (.run 0) ++
    [.answer 0 {}, .run 0, .run 0, .run 0]

section Samples

variable (status : BookingStatus) (expiresAt : Option Int)

theorem refundsReceived_paidSession : RefundsReceived (.paidSession status expiresAt) := by
  intro r hr
  cases hr

end Samples

end BookingApp

import BookingApp.Booking.Captures

/-!
# Charges to refund against

A payment that was received names the charge that a refund of it needs, as long as whoever
confirms a booking that waits was told the charge. The expiry saga reads it at the provider;
the events of a session do not carry it.
-/

set_option autoImplicit false

namespace BookingApp

open ReadCommitted ReadCommitted.Proto

instance (status : BookingStatus) : Decidable (Life.InHold status) :=
  inferInstanceAs (Decidable (_ ∨ _))

/-- The booking that a confirmation commits for, if it was told no charge. -/
def Point.uncharged : Point → Option String
  | .confirmation bookingId none => some bookingId
  | _ => none

/-- A confirmation that was told no charge finds the booking out of its hold, so that it changes
nothing. -/
def chargedConfirmations : Conditions store where
  Assume p d := ∀ id ∈ p.uncharged, ∀ b ∈ Table.find id d.bookings, ¬ Life.InHold b.status
  Stable _ _ _ := True
  Fault _ _ := True

instance : chargedConfirmations.Checkable where
  assume p d := inferInstanceAs (Decidable
    (∀ id ∈ p.uncharged, ∀ b ∈ Table.find id d.bookings, ¬ Life.InHold b.status))
  stable _ _ _ := .isTrue trivial
  fault _ _ := .isTrue trivial

/-- The rules under which charges are looked at. -/
def chargeRules : BookingRules where
  conditions := chargedConfirmations
  invariant := RefundsReceived
  refunds := True
  tracks := True
  received _ _ h := h

/-- No event says anything of an amount under these rules, so every event reports it right. -/
theorem chargeRules_sound : chargeRules.Sound where
  kept _ _ h hr := h.refundsReceived trivial hr
  reports _ _ _ _ _ _ _ _ _ := trivial

theorem chargeRules_handles (h : chargeRules.refunds) : chargeRules.Handles :=
  .of_forall chargeRules_sound h fun _ _ => trivial

/-- What was received names a charge, a booking that was paid for by a session has what was received on
that session, and what is refunded was received. -/
structure Charged (d : Db) : Prop where
  payments : ∀ p ∈ d.payments, p.status ∈ RECEIVED_PAYMENT_STATUSES → p.stripeChargeId ≠ none
  confirmed : ∀ b ∈ d.bookings, b.status ∉ UNPAID_BOOKING_STATUSES →
    ∀ sessionId ∈ b.stripeCheckoutSessionId, ∃ p ∈ d.payments,
      p.stripeCheckoutSessionId = some sessionId ∧ p.status ∈ RECEIVED_PAYMENT_STATUSES
  refunds : RefundsReceived d

/-- The payment of a paid session, and the payment of a refund, name the charge to refund against. -/
structure Refundable (d : Db) : Prop where
  confirmed : ∀ b ∈ d.bookings, b.status = .CONFIRMED → ∀ sessionId ∈ b.stripeCheckoutSessionId,
    ∃ p, paymentOfSession sessionId d = some p ∧ p.stripeChargeId ≠ none
  refunds : ∀ r ∈ d.refunds, ∃ p, Table.find r.paymentId d.payments = some p ∧ p.stripeChargeId ≠ none

variable {d d' : Db}

theorem Charged.refundable (h : Charged d) (hlegal : Legal d) : Refundable d where
  confirmed b hb hconfirmed sessionId hsession := by
    obtain ⟨p, hp, hpsession, hstatus⟩ :=
      h.confirmed b hb (by simp [hconfirmed, UNPAID_BOOKING_STATUSES]) sessionId hsession
    have hsome : (paymentOfSession sessionId d).isSome :=
      List.find?_isSome.mpr ⟨p, hp, by simpa using hpsession⟩
    obtain ⟨q, hq⟩ := Option.isSome_iff_exists.mp hsome
    obtain ⟨hfind, hqsession⟩ := find_of_paymentOfSession hlegal hq
    obtain rfl : q = p :=
      eq_of_session hlegal.payments.checkoutSession (Table.mem_of_find hfind) hp hqsession hpsession
    exact ⟨q, hq, h.payments q hp hstatus⟩
  refunds r hr := by
    obtain ⟨p, hp, -, hid⟩ := hlegal.refunds.payment_fkey r hr
    have hfind : Table.find r.paymentId d.payments = some p :=
      hid ▸ Table.find_of_mem hlegal.payments.pkey hp
    exact ⟨p, hfind, h.payments p hp (h.refunds r hr p hfind)⟩

/-- Who confirms a booking that waits was told a charge. -/
theorem charge_of_confirmation {id : String} {chargeId : Option String} {b : Booking}
    (h : chargeRules.conditions.Assume (.confirmation id chargeId) d)
    (hb : Table.find id d.bookings = some b) (hhold : Life.InHold b.status) : chargeId ≠ none := by
  rintro rfl
  exact h id rfl b hb hhold

/-- A confirmation writes the charge that it was told. -/
theorem charge_of_paid {input : ConfirmPaidInput} (hcharge : input.chargeId ≠ none) (p : Payment) :
    (input.paid p).stripeChargeId ≠ none := by
  obtain ⟨chargeId, hsome⟩ := Option.ne_none_iff_exists'.mp hcharge
  simp [ConfirmPaidInput.paid, hsome]

theorem Charged.commit (hc : Charged d) (h : Commit chargeRules d d') : Charged d' where
  refunds := h.refundsReceived trivial hc.refunds
  payments p' hp' hstatus := by
    by_cases hold : ∃ q ∈ d.payments, q.id = p'.id
    · obtain ⟨p, hp, hid⟩ := hold
      have hfind : Table.find p.id d.payments = some p := Table.find_of_mem h.before.payments.pkey hp
      obtain ⟨p₁, hp₁, hstep⟩ := h.change.payment hfind
      have hfind' : Table.find p.id d'.payments = some p' :=
        hid ▸ Table.find_of_mem h.after.payments.pkey hp'
      obtain rfl := Option.some.inj (hfind'.symm.trans hp₁)
      cases hstep with
      | kept => exact hc.payments p' hp hstatus
      | paid input b hb hhold hassume hsession hcaptures =>
        exact charge_of_paid (charge_of_confirmation hassume hb hhold) p
      | failed input hpending => simp [MarkPaymentFailedInput.failed, RECEIVED_PAYMENT_STATUSES] at hstatus
      | settled refunded status hallowed hreceived hrefunded =>
        -- a payment that is settled has a refund, so it was received before
        obtain ⟨r, hr, hpayment⟩ := hrefunded
        exact hc.payments p hp (hc.refunds r hr p (hpayment ▸ hfind))
    · have hnew := h.change.new_payment hp' fun q hq hid => hold ⟨q, hq, hid⟩
      cases hnew with
      | opened p hpending hcharge =>
        rw [hpending] at hstatus
        simp [RECEIVED_PAYMENT_STATUSES] at hstatus
      | paid input b p hb hhold hassume hsession hcaptures =>
        exact charge_of_paid (charge_of_confirmation hassume hb hhold) p
  confirmed b' hb' hpaid sessionId hsession := by
    have hreceived : ∀ {b : Booking}, b ∈ d.bookings → b.status ∉ UNPAID_BOOKING_STATUSES →
        b.stripeCheckoutSessionId = some sessionId → Received chargeRules sessionId d' := by
      intro b hb hstatus hsome
      obtain ⟨p, hp, hpsession, hpstatus⟩ := hc.confirmed b hb hstatus sessionId hsome
      exact h.received trivial ⟨p, hp, hpsession, hpstatus, trivial⟩
    suffices hreceived : Received chargeRules sessionId d' by
      obtain ⟨p, hp, hpsession, hpstatus, -⟩ := hreceived
      exact ⟨p, hp, hpsession, hpstatus⟩
    rcases h.booking hb' with ⟨b, hb, hid⟩ | hnew
    · have hfind : Table.find b.id d.bookings = some b := Table.find_of_mem h.before.bookings.pkey hb
      have hfind' : Table.find b.id d'.bookings = some b' :=
        hid ▸ Table.find_of_mem h.after.bookings.pkey hb'
      cases h.change.row hfind hfind' with
      | kept hstatus hsame => exact hreceived hb (hstatus ▸ hpaid) (hsame.symm.trans hsession)
      | attached other hassume hnone hunpaid hstatus => exact absurd (hstatus ▸ hunpaid) hpaid
      | confirmed input hassume hhold hstatus hnamed hcaptures hpays =>
        obtain rfl : input.sessionId = sessionId := Option.some.inj (hnamed.symm.trans hsession)
        exact hpays.received trivial
      | failed hassume hhold hstatus => simp [hstatus, UNPAID_BOOKING_STATUSES] at hpaid
      | lapsing hhold hstatus => simp [hstatus, UNPAID_BOOKING_STATUSES] at hpaid
      | released other hassume hhold hstatus => simp [hstatus, UNPAID_BOOKING_STATUSES] at hpaid
      | ended hconfirmed hends hsame =>
        exact hreceived hb (by simp [hconfirmed, UNPAID_BOOKING_STATUSES]) (hsame.symm.trans hsession)
      | replaced hwas hstatus hsame => exact hreceived hb hwas (hsame.symm.trans hsession)
    · cases hnew with
      | reserved _ _ _ _ hnone => cases hnone.symm.trans hsession
      | replaced _ _ _ _ _ _ _ _ hnone => cases hnone.symm.trans hsession

/-- Every payment of a confirmed booking names the charge to refund against, and so does the payment of
every refund, in every run in which whoever confirms a booking that waits was told the charge. -/
theorem charged_refundable {d : Db} (hd : Legal d) (hc : Charged d) {s : Sys store}
    (hrun : Sys.Reach (BookingOperation chargeRules) chargedConfirmations { db := d } s) :
    Refundable s.db := by
  have hinv : Legal s.db ∧ Charged s.db :=
    BookingOperation.invariant (J := fun d => Legal d ∧ Charged d) chargeRules_sound chargeRules_handles
      (fun _ _ h hc => ⟨h.after, hc.2.commit h⟩) ⟨hd, hc.refunds⟩ ⟨hd, hc⟩ hrun
  exact hinv.2.refundable hinv.1

theorem charged_held : Charged .held where
  payments p hp := by cases hp
  confirmed b hb hpaid := by
    obtain rfl := List.mem_singleton.mp hb
    simp [Booking.held, UNPAID_BOOKING_STATUSES] at hpaid
  refunds r hr := by cases hr

theorem charged_refundable_sample : ∃ s : Sys store,
    s.db.bookings.map Booking.status = [.CONFIRMED] ∧
      s.db.payments.map Payment.stripeChargeId = [some "ch"] ∧ Refundable s.db := by
  have hexec : (Sys.exec chargedConfirmations { db := Db.held } reportedTwice).map (fun s =>
      (s.db.bookings.map Booking.status, s.db.payments.map Payment.stripeChargeId)) =
      some ([.CONFIRMED], [some "ch"]) := by rfl
  obtain ⟨s, hs, he⟩ := Option.map_eq_some_iff.mp hexec
  obtain ⟨hstatus, hcharge⟩ := Prod.mk.inj he
  refine ⟨s, hstatus, hcharge, charged_refundable (by decide) charged_held ?_⟩
  refine .exec (fun _ _ => trivial) .refl ?_ hs
  have hpaid : BookingOperation chargeRules (discard (confirmPaid .sample someReport)) :=
    .confirmPaid .sample someReport trivial
  simp [reportedTwice, Sys.Starts, hpaid]

/-- The office gives back a part of what was paid. -/
def someRefund : Tx Unit :=
  discard (requestRefund .sample { bookingId := "b", amountCents := 40, reason := .GOODWILL })

/-- Once the event is handled, a refund is requested and executed. -/
def refundedAfterEvent : List (Action store) :=
  handledInTime ++ [.start someRefund] ++ .replicate 6 (.run 1) ++
    [.answer 1 { random := "k" }, .answer 1 { id := "r" }, .run 1, .run 1, .run 1] ++
    [.start (discard (executeRefund .sample "r")), .run 2, .run 2, .run 2, .answer 2 {}] ++
    .replicate 5 (.run 2)

theorem charged_paidSession : Charged (.paidSession .PENDING_PAYMENT (some 900000)) where
  payments p hp hstatus := by
    obtain rfl := List.mem_singleton.mp hp
    simp [RECEIVED_PAYMENT_STATUSES] at hstatus
  confirmed b hb hpaid := by
    obtain rfl := List.mem_singleton.mp hb
    simp [UNPAID_BOOKING_STATUSES] at hpaid
  refunds := refundsReceived_paidSession _ _

/-- An event confirms the booking, and the refund that is then asked for fails, as the event did not
carry the charge. -/
theorem charged_fails : ¬ ∀ (d : Db) (s : Sys store), Legal d → Charged d →
    (∀ e ∈ d.stripeWebhookEvents, e.payload.latestCharge = none) →
    Sys.Reach (BookingOperation chargeRules) .none { db := d } s → Refundable s.db ∧
      ∀ r ∈ s.db.refunds, r.failureReason ≠ some "The payment has no charge to refund against." := by
  intro h
  have hexec : (Sys.exec .none { db := Db.paidSession .PENDING_PAYMENT (some 900000) }
      refundedAfterEvent).map (fun s =>
        (s.db.bookings.map Booking.status, s.db.refunds.map fun r => (r.status, r.failureReason))) =
      some ([.CONFIRMED], [(.FAILED, some "The payment has no charge to refund against.")]) := by rfl
  obtain ⟨s, hs, he⟩ := Option.map_eq_some_iff.mp hexec
  obtain ⟨-, hrefunds⟩ := Prod.mk.inj he
  have hstarts : ∀ a ∈ refundedAfterEvent, Sys.Starts (BookingOperation chargeRules) a := by
    have hadmits : chargeRules.Admits .sample := ⟨trivial, nofun, fun _ => trivial⟩
    have hevent : BookingOperation chargeRules someEvent := .handleStripeEvent .sample "evt" trivial hadmits
    have hrequest : BookingOperation chargeRules someRefund := .requestRefund .sample _ trivial
    have hexecute : BookingOperation chargeRules (discard (executeRefund .sample "r")) :=
      .executeRefund .sample "r" trivial
    simp [refundedAfterEvent, handledInTime, Sys.Starts, hevent, hrequest, hexecute]
  have hcharge : ∀ e ∈ (Db.paidSession .PENDING_PAYMENT (some 900000)).stripeWebhookEvents,
      e.payload.latestCharge = none := by
    intro e he
    obtain rfl := List.mem_singleton.mp he
    rfl
  have hkept := (h _ s (by decide) charged_paidSession hcharge
    (.exec (fun _ _ => trivial) .refl hstarts hs)).2
  have hmem : (RefundStatus.FAILED, some "The payment has no charge to refund against.") ∈
      s.db.refunds.map fun r => (r.status, r.failureReason) := by
    rw [hrefunds]
    exact List.mem_singleton_self _
  obtain ⟨r, hr, hreason⟩ := List.mem_map.mp hmem
  exact hkept r hr (Prod.mk.inj hreason).2

end BookingApp

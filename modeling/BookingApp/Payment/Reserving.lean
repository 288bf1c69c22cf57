import BookingApp.Payment.Refunds
import BookingApp.Store.Rules

/-!
# What a reservation does

The lock on a payment covers the payment and its refunds (`SamePayment`). A
reservation ends holding it, having inserted at most one refund for which the
payment still has room (`wp_reserveInTransaction`).
-/

set_option autoImplicit false

namespace BookingApp

open ReadCommitted ReadCommitted.Proto

/-- The refunds of a payment. -/
def refundsOf (paymentId : String) (d : Db) : List Refund :=
  d.refunds.filter fun r => decide (r.paymentId = paymentId)

/-- A payment that exists stays as it is, and so do its refunds. -/
def SamePayment (id : String) (d d' : Db) : Prop :=
  ∀ p, Table.find id d.payments = some p →
    Table.find id d'.payments = some p ∧ refundsOf id d' = refundsOf id d

/-- A refund that exists stays as it is. -/
def SameRefund (id : String) (d d' : Db) : Prop :=
  ∀ r, Table.find id d.refunds = some r → Table.find id d'.refunds = some r

theorem SamePayment.refl (id : String) (d : Db) : SamePayment id d d :=
  fun _ hp => ⟨hp, rfl⟩

theorem SamePayment.trans {id : String} {d₁ d₂ d₃ : Db} (h₁ : SamePayment id d₁ d₂)
    (h₂ : SamePayment id d₂ d₃) : SamePayment id d₁ d₃ := by
  intro p hp
  obtain ⟨hp₂, hr₂⟩ := h₁ p hp
  obtain ⟨hp₃, hr₃⟩ := h₂ p hp₂
  exact ⟨hp₃, hr₃.trans hr₂⟩

theorem SameRefund.refl (id : String) (d : Db) : SameRefund id d d :=
  fun _ hr => hr

theorem SameRefund.trans {id : String} {d₁ d₂ d₃ : Db} (h₁ : SameRefund id d₁ d₂)
    (h₂ : SameRefund id d₂ d₃) : SameRefund id d₁ d₃ :=
  fun r hr => h₂ r (h₁ r hr)

/-- The total of a payment's refunds in one status depends on its refunds alone. -/
theorem refundTotal_eq (id : String) (status : RefundStatus) (d : Db) :
    refundTotal id status d.refunds =
      Table.total (fun r => decide (r.status = status)) Refund.amountCents (refundsOf id d) := by
  simp only [refundTotal, Table.total, refundsOf, List.filter_filter]
  congr 3
  funext r
  exact Bool.and_comm _ _

theorem SamePayment.refundTotal {id : String} {d d' : Db} {p : Payment} (h : SamePayment id d d')
    (hp : Table.find id d.payments = some p) (status : RefundStatus) :
    refundTotal id status d'.refunds = refundTotal id status d.refunds := by
  rw [refundTotal_eq, refundTotal_eq, (h p hp).2]

/-- A reservation that moves money stays within the room the payment has. -/
theorem reservationFor_eq_some {input : ReserveRefundInput} {payment : Payment} {pending n m : Int}
    (h : reservationFor input payment pending = .ok (some n, m)) :
    0 < n ∧ payment.refundedAmountCents + pending + n ≤ payment.amountCents := by
  unfold reservationFor at h
  obtain ⟨refunded, hrefunded, h⟩ := bind_eq_ok.mp h
  obtain ⟨pendingMoney, hpending, h⟩ := bind_eq_ok.mp h
  obtain ⟨reserved, hreserved, h⟩ := bind_eq_ok.mp h
  obtain ⟨amount, hamount, h⟩ := bind_eq_ok.mp h
  obtain ⟨refundable, hrefundable, h⟩ := bind_eq_ok.mp h
  obtain ⟨additional, _, h⟩ := bind_eq_ok.mp h
  have hreserved := (Money.plus_eq_ok hreserved).1
  have hrefundable := (Money.minus_eq_ok hrefundable).1
  rw [Money.fromCents_eq_ok hrefunded, Money.fromCents_eq_ok hpending] at hreserved
  rw [Money.fromCents_eq_ok hamount] at hrefundable
  split at h
  · split at h
    · cases h
    · simp [pure, Except.pure] at h
  · split at h
    · cases h
    · simp only [pure, Except.pure, Except.ok.injEq, Prod.mk.injEq, Option.some.injEq] at h
      simp only at hreserved hrefundable
      omega

/-- The refund `r` that the reservation `input` makes of the payment `p`. -/
structure Reserves (input : ReserveRefundInput) (p : Payment) (r : Refund) (d : Db) : Prop where
  found : Table.find p.id d.payments = some p
  settled : p.status = .SUCCEEDED ∨ p.status = .PARTIALLY_REFUNDED
  pending : r.status = .PENDING
  payment : r.paymentId = p.id
  booking : r.bookingId = input.bookingId
  reason : r.reason = input.reason
  unsent : r.stripeRefundId = none
  positive : 0 < r.amountCents
  room : p.refundedAmountCents + refundTotal p.id .PENDING d.refunds + r.amountCents ≤ p.amountCents

/-- A reservation stays one as long as the payment and its refunds stay. -/
theorem Reserves.same {input : ReserveRefundInput} {p : Payment} {r : Refund} {d d' : Db}
    (h : Reserves input p r d) (hsame : SamePayment p.id d d') : Reserves input p r d' :=
  { h with
    found := (hsame p h.found).1
    room := by rw [hsame.refundTotal h.found]; exact h.room }

section Reserve

variable {P : Proto store} {R : Failure → Db → Prop}

/-- Each attempt at a payment may leave its lock behind; the last one left the lock of a payment
that is settled. -/
theorem wp_lockFirst {root : String} {Q : Option String → List Lock → (Db → Db) → Db → Prop}
    {δ : Db → Db} (hR : ∀ e d, R e d) (ids : List String) {held : List Lock} {d : Db}
    (hnone : ∀ held' d', held ⊆ held' → P.Elapse held d d' → Q none held' δ d')
    (hsome : ∀ id held' d', held ⊆ held' → P.Elapse held d d' → .payment id ∈ held' →
      ((Table.find id (δ d').payments).any fun p => p.settledFor root) = true →
      Q (some id) held' δ d') :
    P.wp (lockFirst root ids) Q R held δ d := by
  induction ids generalizing held d with
  | nil => exact hnone held d (fun _ hl => hl) .refl
  | cons id rest ih =>
    refine (wp_bind _ _).mpr (wp_readForUpdate (fun e d _ => hR e d) fun d₁ r₁ _ => ?_)
    split
    · exact hsome id _ d₁ (by simp) r₁.elapse (by simp) ‹_›
    · refine ih (fun held' d' hsub r => ?_) fun id' held' d' hsub r => ?_
      · exact hnone held' d' (fun l hl => hsub (by simp [hl]))
          (r₁.elapse.trans (r.weaken (by simp +contextual)))
      · exact hsome id' held' d' (fun l hl => hsub (by simp [hl]))
          (r₁.elapse.trans (r.weaken (by simp +contextual)))

/-- A transaction that has not touched the payments and refunds it sees. -/
def KeepsPayments (δ : Db → Db) : Prop :=
  ∀ x, (δ x).payments = x.payments ∧ (δ x).refunds = x.refunds

theorem wp_lockPayment (hsame : ∀ id d d', P.Same (.payment id) d d' → SamePayment id d d')
    {root : String} {lenient : Bool} {Q : Option Payment → List Lock → (Db → Db) → Db → Prop}
    {δ : Db → Db} (hR : ∀ e d, R e d) (hδ : KeepsPayments δ) {held : List Lock} {d : Db}
    (hnone : ∀ held' d', held ⊆ held' → P.Elapse held d d' → Q none held' δ d')
    (hsome : ∀ p held' d', held ⊆ held' → P.Elapse held d d' → .payment p.id ∈ held' →
      Table.find p.id d'.payments = some p → p.settledFor root = true → Q (some p) held' δ d') :
    P.wp (lockPayment root lenient) Q R held δ d := by
  refine (wp_bind _ _).mpr (wp_read (fun e d _ => hR e d) fun d₁ r₁ _ => ?_)
  refine (wp_bind _ _).mpr (wp_lockFirst hR _ (fun held₂ d₂ hsub₂ r₂ => ?_)
    fun id held₂ d₂ hsub₂ r₂ hlock hset => ?_)
  · dsimp only
    split
    · exact hnone held₂ d₂ hsub₂ (r₁.elapse.trans r₂)
    · exact hR _ _
  · refine (wp_bind _ _).mpr (wp_read (fun e d _ => hR e d) fun d₃ r₃ _ => ?_)
    refine (wp_map _ _).mpr (wp_orThrow (fun p hp => ?_) fun _ => hR _ _)
    rw [(hδ d₃).1] at hp
    rw [(hδ d₂).1, Option.any_eq_true] at hset
    obtain ⟨q, hq, hset⟩ := hset
    obtain ⟨hq₃, -⟩ := hsame id d₂ d₃ (r₃.same hlock) q hq
    obtain rfl : q = p := Option.some.inj (hq₃.symm.trans hp)
    have hid : q.id = id := Table.key_of_find hp
    rw [← hid] at hlock hp
    exact hsome q held₂ d₃ hsub₂ (r₁.elapse.trans (r₂.trans (r₃.elapse.weaken hsub₂))) hlock hp hset

/-- A reservation inserts nothing, or one pending refund of a payment whose lock it holds and
that has room for it. -/
theorem wp_reserveInTransaction
    (hsame : ∀ id d d', P.Same (.payment id) d d' → SamePayment id d d')
    {api : Api} {input : ReserveRefundInput}
    {Q : RefundReservationResult → List Lock → (Db → Db) → Db → Prop} {δ : Db → Db}
    (hR : ∀ e d, R e d) (hδ : KeepsPayments δ) {held : List Lock} {d : Db}
    (hnone : ∀ m held' d', held ⊆ held' → P.Elapse held d d' →
      Q { refundId := none, additionalAmountCents := 0, refundableAmountCents := m } held' δ d')
    (hsome : ∀ (p : Payment) (r : Refund) (e : OutboxEvent) (id : String) (n m : Int) held' d',
      held ⊆ held' → P.Elapse held d d' → .payment p.id ∈ held' → Reserves input p r d' →
      e.eventType = .REFUND_REQUESTED →
      Q { refundId := some id, additionalAmountCents := n, refundableAmountCents := m }
        held' (fun x => ((δ x).onRefunds (· ++ [r])).onOutbox (· ++ [e])) d') :
    P.wp (reserveInTransaction api input) Q R held δ d := by
  refine (wp_bind _ _).mpr ((wp_bind _ _).mpr (wp_read (fun e d _ => hR e d) fun d₁ r₁ _ => ?_))
  split
  · exact hR _ _
  refine (wp_bind _ _).mpr (wp_lockPayment hsame hR hδ (fun held₂ d₂ hsub r₂ => ?_)
    fun p held₂ d₂ hsub r₂ hlock hp hset => ?_)
  · exact hnone 0 held₂ d₂ hsub (r₁.elapse.trans r₂)
  dsimp only
  refine (wp_bind _ _).mpr (wp_read (fun e d _ => hR e d) fun d₃ r₃ _ => ?_)
  rw [(hδ d₃).2]
  refine (wp_bind _ _).mpr (wp_ofExcept (fun decided hdecided => ?_) fun _ _ => hR _ _)
  have r₁₃ : P.Elapse held d d₃ := r₁.elapse.trans (r₂.trans (r₃.elapse.weaken hsub))
  obtain ⟨_ | n, m⟩ := decided
  · exact hnone m held₂ d₃ hsub r₁₃
  dsimp only
  obtain ⟨hpos, hroom⟩ := reservationFor_eq_some hdecided
  refine (wp_bind _ _).mpr (wp_answer fun d₄ r₄ _ key => ?_)
  refine (wp_bind _ _).mpr (wp_freshId fun d₅ r₅ _ id => ?_)
  refine (wp_bind _ _).mpr (wp_insertAt (fun e d _ => hR e d) fun d₆ r₆ _ => ?_)
  refine (wp_bind _ _).mpr (wp_insertAt (fun e d _ => hR e d) fun d₇ r₇ _ => ?_)
  have r₂₇ : P.Elapse held₂ d₃ d₇ :=
    r₄.elapse.trans (r₅.elapse.trans (r₆.elapse.trans r₇.elapse))
  -- the payment and its refunds are the ones that were added up, as its lock is held since
  have hp₃ := (hsame p.id d₂ d₃ (r₃.same hlock) p hp).1
  have hsame₇ := hsame p.id d₃ d₇ (r₂₇.same hlock)
  rw [← hsame₇.refundTotal hp₃] at hroom
  refine hsome p _ _ id n m held₂ d₇ hsub (r₁₃.trans (r₂₇.weaken hsub)) hlock ?_ ?_
  · exact {
      found := (hsame₇ p hp₃).1
      settled := by simpa [Payment.settledFor] using (Bool.and_eq_true_iff.mp hset).2
      pending := rfl
      payment := rfl
      booking := rfl
      reason := rfl
      unsent := rfl
      positive := hpos
      room := hroom }
  · rfl

end Reserve

end BookingApp

import BookingApp.Payment.Acceptance
import BookingApp.ReadCommitted.Alone

/-!
# Reports of a refund, one after the other (`refund.service.ts`, `refund-webhook.handler.ts`)

The answer of the API call and the `refund.*` events are processed in any order and any
number of times. What comes of them depends on which reports there were only
(`reports_confluent`).
-/

set_option autoImplicit false

namespace BookingApp

open ReadCommitted

/-- What is reported of one refund: the answer of the API call, its rejection for good, or the
status in an event. -/
inductive RefundReport where
  | result (status : RefundStatusValue)
  | rejection (message : String)
  | event (status : String)
  deriving DecidableEq, Repr

namespace RefundReport

def status : RefundReport → RefundStatus
  | result status => status.toRefundStatus
  | rejection _ => .FAILED
  | event status => (normaliseStatus status).toRefundStatus

/-- What runs for a report of the refund `r`, which the provider knows as `stripeRefundId`. The
events carry the key in their metadata. -/
def processed (r : Refund) (stripeRefundId : String) : RefundReport → Tx Unit
  | result status => applySettlement .accepted {
      refundId := r.id, status := status.toRefundStatus, stripeRefundId := some stripeRefundId }
  | rejection message => settleReported {
      refundId := r.id, status := .FAILED, failureReason := some message }
  | event status => handleRefund {
      id := some stripeRefundId, status, metadataIdempotencyKey := some r.idempotencyKey }

end RefundReport

/-- A report that is processed, and what its processing is answered. -/
structure Delivery where
  report : RefundReport
  answers : Nat → Answer
  refusal : Db → Failure

/-- The state after a report of `r` has been processed. -/
def Delivery.process (r : Refund) (stripeRefundId : String) (d : Db) (x : Delivery) : Db :=
  ((x.report.processed r stripeRefundId).runAlone
    { answers := x.answers, refusal := x.refusal, db := d }).2.db

/-- The state after the reports have been processed one after the other. -/
def deliver (r : Refund) (stripeRefundId : String) (d : Db) (xs : List Delivery) : Db :=
  xs.foldl (Delivery.process r stripeRefundId) d

/-- The status of a refund. -/
def refundStatus (id : String) (d : Db) : Option RefundStatus :=
  (Table.find id d.refunds).map Refund.status

/-- The total that a payment is said to have been refunded. -/
def refundedCents (id : String) (d : Db) : Option Int :=
  (Table.find id d.payments).map Payment.refundedAmountCents

/-- What is written to the outbox when the refund has succeeded. -/
def refundSucceeded (r : Refund) : OutboxEvent where
  organizationId := r.organizationId
  aggregateType := "Refund"
  aggregateId := r.id
  eventType := .REFUND_SUCCEEDED
  payload := [("organizationId", r.organizationId), ("refundId", r.id)]

/-- The state with the refund `r` of the payment `p` settled. -/
def Db.settle (d : Db) (input : SettlementInput) (settledAt : Option Int) (r : Refund) (p : Payment) :
    Db :=
  let refunds := Table.update [input.refundId] (input.applyTo settledAt) d.refunds
  let refunded := refundTotal r.paymentId .SUCCEEDED refunds
  { d with
    refunds
    payments := Table.update [r.paymentId]
      (Payment.withTotals refunded (paymentStatusFor p.amountCents refunded p.status)) d.payments
    outboxEvents :=
      if input.status = .SUCCEEDED then d.outboxEvents ++ [refundSucceeded r] else d.outboxEvents }

section Runs

variable {site : Site} {input : SettlementInput} {d : Db} {r : Refund} {p : Payment}

theorem runAlone_orThrow {α : Type} (s : Alone store) (row : α) :
    (orThrow (some row)).runAlone s = (.ok row, s) := rfl

theorem runAlone_settlementTime (s : Alone store) (status : RefundStatus) :
    ∃ settledAt s', (settlementTime status).runAlone s = (.ok settledAt, s') ∧ s'.db = s.db ∧
      s'.delta = s.delta ∧ s'.refusal = s.refusal := by
  unfold settlementTime
  split
  · exact ⟨none, s, rfl, rfl, rfl, rfl⟩
  · exact ⟨some (s.answers 0).now, s.next, rfl, rfl, rfl, rfl⟩

theorem runAlone_recomputePaymentTotals (site : Site) (s : Alone store) {id : String}
    (hp : Table.find id s.view.payments = some p) :
    ∃ s', (recomputePaymentTotals site id).runAlone s = (.ok (), s') ∧ s'.db = s.db ∧
      s'.view = s.view.onPayments (Table.update [id]
        (Payment.withTotals (refundTotal id .SUCCEEDED s.view.refunds)
          (paymentStatusFor p.amountCents (refundTotal id .SUCCEEDED s.view.refunds) p.status))) := by
  have hrun : (recomputePaymentTotals site id).runAlone s =
      (.ok (), s.write fun _ => Db.onPayments (Table.update [id]
        (Payment.withTotals (refundTotal id .SUCCEEDED s.view.refunds)
          (paymentStatusFor p.amountCents (refundTotal id .SUCCEEDED s.view.refunds) p.status)))) := by
    unfold recomputePaymentTotals
    simp only [Code.runAlone_bind, Code.runAlone_select, hp, runAlone_orThrow]
    change (updatePaymentAt _ _ _ >>= fun _ => pure ()).runAlone s = _
    unfold updatePaymentAt
    simp only [Code.runAlone_bind, Code.runAlone_modify, hp, Option.map_some, runAlone_orThrow]
    rfl
  exact ⟨_, hrun, rfl, rfl⟩

/-- One attempt at a settlement, on a refund that is open. -/
theorem runAlone_settleOnce (site : Site) (s : Alone store) (hdb : s.db = d) (hdelta : s.delta = id)
    (hr : Table.find input.refundId d.refunds = some r) (hopen : r.status = .PENDING)
    (hp : Table.find r.paymentId d.payments = some p) :
    ∃ settledAt s', (settleOnce site input).runAlone s = (.ok (), s') ∧ s'.db = d ∧
      s'.view = d.settle input settledAt r p := by
  obtain ⟨settledAt, s₁, htime, hdb₁, hdelta₁, -⟩ := runAlone_settlementTime s input.status
  have hview : s.view = d := by rw [Alone.view, hdelta, hdb]; rfl
  have hview₁ : s₁.view = d := by rw [Alone.view, hdelta₁, hdb₁, hdelta, hdb]; rfl
  have hp₁ : Table.find r.paymentId (s₁.write fun _ => Db.onRefunds
      (Table.update [input.refundId] (input.applyTo settledAt))).view.payments = some p := by
    rw [Alone.view_write, hview₁]
    exact hp
  obtain ⟨s₂, htotals, hdb₂, hview₂⟩ := runAlone_recomputePaymentTotals site _ hp₁
  rw [Alone.view_write, hview₁] at hview₂
  unfold settleOnce
  simp only [Code.runAlone_bind, Code.runAlone_selectForUpdate, hview, hr, hopen, ne_eq,
    not_true_eq_false, if_false, htime, Code.runAlone_modify, hview₁, runAlone_orThrow, htotals]
  by_cases hsucceeded : input.status = .SUCCEEDED
  · refine ⟨settledAt, _, by rw [if_pos hsucceeded]; rfl, ?_, ?_⟩
    · rw [Alone.db_write, hdb₂, Alone.db_write, hdb₁, hdb]
    · rw [Alone.view_write, hview₂]
      simp only [Db.settle, if_pos hsucceeded]
      rfl
  · refine ⟨settledAt, s₂, by rw [if_neg hsucceeded]; rfl, ?_, ?_⟩
    · rw [hdb₂, Alone.db_write, hdb₁, hdb]
    · rw [hview₂]
      simp only [Db.settle, if_neg hsucceeded]
      rfl

/-- On a refund that is not there or has settled, it does nothing. -/
theorem runAlone_settleOnce_closed (s : Alone store) (hdelta : s.delta = id)
    (hclosed : ∀ r, Table.find input.refundId s.db.refunds = some r → r.status ≠ .PENDING) :
    (settleOnce site input).runAlone s = (.ok (), s) := by
  have hview : s.view = s.db := by rw [Alone.view, hdelta]; rfl
  unfold settleOnce
  simp only [Code.runAlone_bind, Code.runAlone_selectForUpdate, hview]
  cases hr : Table.find input.refundId s.db.refunds with
  | none => rfl
  | some r =>
    dsimp only
    rw [if_pos (hclosed r hr)]
    rfl

end Runs

/-- What a refund of this amount adds to the total in a status. -/
def earnedCents (amountCents : Int) (status : RefundStatus) : Int :=
  if status = .SUCCEEDED then amountCents else 0

section Settles

variable {input : SettlementInput} {settledAt : Option Int} {d : Db} {r : Refund} {p : Payment}

/-- The total of the payment once an open refund is settled. -/
theorem refundTotal_settle_open (settledAt : Option Int) (hlegal : Legal d)
    (hr : Table.find input.refundId d.refunds = some r)
    (hopen : r.status = .PENDING) :
    refundTotal r.paymentId .SUCCEEDED (Table.update [input.refundId] (input.applyTo settledAt) d.refunds) =
      refundTotal r.paymentId .SUCCEEDED d.refunds + earnedCents r.amountCents input.status := by
  rw [refundTotal_settle hlegal hr]
  simp [countedCents, hopen, SettlementInput.applyTo, earnedCents]

/-- What a settlement leaves of the payment. -/
theorem find_payment_settle (input : SettlementInput) (settledAt : Option Int)
    (hp : Table.find r.paymentId d.payments = some p) :
    ∃ p', Table.find r.paymentId (d.settle input settledAt r p).payments = some p' ∧
      p'.amountCents = p.amountCents ∧ p'.refundedAmountCents = refundTotal r.paymentId .SUCCEEDED
        (Table.update [input.refundId] (input.applyTo settledAt) d.refunds) := by
  unfold Db.settle
  dsimp only
  rw [Table.find_update_of_mem (key_withTotals _ _) (List.mem_singleton_self _), hp]
  exact ⟨_, rfl, rfl, rfl⟩

theorem find_refund_settle (hr : Table.find input.refundId d.refunds = some r) :
    Table.find input.refundId (d.settle input settledAt r p).refunds =
      some (input.applyTo settledAt r) := by
  unfold Db.settle
  dsimp only
  rw [Table.find_update_of_mem (key_applyTo _ _) (List.mem_singleton_self _), hr]
  rfl

theorem refundTotal_nonneg (hlegal : Legal d) (id : String) (status : RefundStatus) :
    0 ≤ refundTotal id status d.refunds :=
  Table.total_nonneg fun r hr _ => (hlegal.refunds.amount_check r hr).le

/-- The rows of refunds stay legal when one of them is settled under an id of its own. -/
theorem RefundsLegal.settle (hlegal : Legal d)
    (hunique : ∀ id ∈ input.stripeRefundId, ∀ q ∈ d.refunds, q.stripeRefundId = some id →
      q.id = input.refundId) (refunded : Int) (status : PaymentStatus) (paymentId : String) :
    RefundsLegal { d with
      refunds := Table.update [input.refundId] (input.applyTo settledAt) d.refunds
      payments := Table.update [paymentId] (Payment.withTotals refunded status) d.payments } := by
  have hrefunds := hlegal.refunds
  refine {
    pkey := Table.nodup_map_update hrefunds.pkey fun _ => rfl
    stripeRefund := ?_
    idempotencyKey := Table.nodup_map_update hrefunds.idempotencyKey fun _ => rfl
    payment_fkey := Table.forall_update (fun _ h => h) fun r hr =>
      Table.exists_update (fun _ h => h) (hrefunds.payment_fkey r hr)
    booking_fkey := Table.forall_update (fun _ h => h) hrefunds.booking_fkey
    amount_check := Table.forall_update (fun _ h => h) hrefunds.amount_check
    amount_int4 := Table.forall_update (fun _ h => h) hrefunds.amount_int4 }
  cases hid : input.stripeRefundId with
  | none =>
    refine Table.nodup_filterMap_update hrefunds.stripeRefund fun r => ?_
    simp [SettlementInput.applyTo, hid]
  | some id =>
    refine Table.nodup_filterMap_update_one hrefunds.pkey hrefunds.stripeRefund (b := id)
      (fun r => ?_) (hunique id (by simp [hid]))
    simp [SettlementInput.applyTo, hid]

/-- A settlement can be committed exactly when the payment covers the total. -/
theorem legal_settle_iff (settledAt : Option Int) (hlegal : Legal d) (hr : Table.find input.refundId d.refunds = some r)
    (hopen : r.status = .PENDING) (hp : Table.find r.paymentId d.payments = some p)
    (hunique : ∀ id ∈ input.stripeRefundId, ∀ q ∈ d.refunds, q.stripeRefundId = some id →
      q.id = input.refundId) :
    Legal (d.settle input settledAt r p) ↔
      refundTotal r.paymentId .SUCCEEDED d.refunds + earnedCents r.amountCents input.status ≤
        p.amountCents := by
  have htotal := refundTotal_settle_open settledAt hlegal hr hopen
  constructor
  · intro h
    obtain ⟨p', hp', hamount, hrefunded⟩ := find_payment_settle input settledAt hp
    have hcheck := (h.payments.refunded_check p' (Table.mem_of_find hp')).2
    rwa [hrefunded, hamount, htotal] at hcheck
  · intro hfits
    have hpaid := hlegal.payments
    refine {
      bookings := { hlegal.bookings with }
      payments := {
        pkey := Table.nodup_map_update hpaid.pkey fun _ => rfl
        paymentIntent := Table.nodup_filterMap_update hpaid.paymentIntent fun _ => rfl
        checkoutSession := Table.nodup_filterMap_update hpaid.checkoutSession fun _ => rfl
        charge := Table.nodup_filterMap_update hpaid.charge fun _ => rfl
        booking_fkey := Table.forall_update (fun _ h => h) hpaid.booking_fkey
        amount_check := Table.forall_update (fun _ h => h) hpaid.amount_check
        refunded_check := fun q hq => ?_
        manual_amount_check := hpaid.manual_amount_check }
      refunds := { RefundsLegal.settle hlegal hunique _ _ _ with }
      requests := { hlegal.requests with }
      calendar := { hlegal.calendar with } }
    obtain ⟨q₀, hq₀, rfl⟩ := Table.mem_update.mp hq
    split
    · next hkey =>
      have hfound := Table.find_of_mem hpaid.pkey hq₀
      rw [List.mem_singleton.mp hkey, hp, Option.some.injEq] at hfound
      subst hfound
      change 0 ≤ refundTotal _ _ _ ∧ refundTotal _ _ _ ≤ p.amountCents
      rw [htotal]
      have hnonneg := refundTotal_nonneg hlegal r.paymentId .SUCCEEDED
      have hamount := hlegal.refunds.amount_check r (Table.mem_of_find hr)
      refine ⟨?_, hfits⟩
      unfold earnedCents
      split <;> omega
    · exact hpaid.refunded_check q₀ hq₀

/-- What each attempt leaves behind unless it fails, the settlement leaves behind. -/
theorem runAlone_applySettlement {site : Nat → Site} {P : Db → Prop}
    (h : ∀ left (s : Alone store), s.db = d → Code.Leaves s (transaction (S := store)
      (.settlement (site left)) (settleOnce (site left) input)) P) (s : Alone store) (hs : s.db = d) :
    P ((applySettlement site input).runAlone s).2.db := by
  unfold applySettlement withSerializationRetry
  exact Code.runAlone_withRetry h 2 s hs

/-- A settlement that the payment covers is committed, and any other leaves the state alone. -/
theorem applySettlement_db (site : Nat → Site) (hlegal : Legal d)
    (hr : Table.find input.refundId d.refunds = some r) (hopen : r.status = .PENDING)
    (hp : Table.find r.paymentId d.payments = some p)
    (hunique : ∀ id ∈ input.stripeRefundId, ∀ q ∈ d.refunds, q.stripeRefundId = some id →
      q.id = input.refundId) (s : Alone store) (hs : s.db = d) :
    if refundTotal r.paymentId .SUCCEEDED d.refunds + earnedCents r.amountCents input.status ≤
        p.amountCents then
      ∃ settledAt, ((applySettlement site input).runAlone s).2.db = d.settle input settledAt r p
    else ((applySettlement site input).runAlone s).2.db = d := by
  revert s hs
  refine runAlone_applySettlement (P := fun d' => if refundTotal r.paymentId .SUCCEEDED d.refunds +
      earnedCents r.amountCents input.status ≤ p.amountCents then
    ∃ settledAt, d' = d.settle input settledAt r p else d' = d) fun left s hs => ?_
  obtain ⟨settledAt, s', hbody, hdb, hview⟩ :=
    runAlone_settleOnce (site left) (s.idleIn s.db) hs rfl hr hopen hp
  have hiff := legal_settle_iff settledAt hlegal hr hopen hp hunique
  rw [Code.Leaves, Code.runAlone_transaction_ok s hbody]
  by_cases hfits : refundTotal r.paymentId .SUCCEEDED d.refunds +
      earnedCents r.amountCents input.status ≤ p.amountCents
  · have hl : store.legal s'.view = true := by
      rw [hview]
      exact decide_eq_true (hiff.mpr hfits)
    rw [if_pos hl]
    exact (if_pos hfits).mpr ⟨settledAt, hview⟩
  · have hl : ¬ store.legal s'.view = true := by
      rw [hview]
      exact fun h => hfits (hiff.mp (of_decide_eq_true h))
    rw [if_neg hl]
    exact ⟨hdb.trans hs.symm, (if_neg hfits).mpr hs⟩

/-- On a refund that is not there or has settled, a settlement leaves the state alone. -/
theorem applySettlement_db_closed {site : Nat → Site}
    (hclosed : ∀ r, Table.find input.refundId d.refunds = some r → r.status ≠ .PENDING)
    (s : Alone store) (hs : s.db = d) :
    ((applySettlement site input).runAlone s).2.db = d := by
  revert s hs
  refine runAlone_applySettlement (P := fun d' => d' = d) fun left s hs => ?_
  have hbody : (settleOnce (site left) input).runAlone (s.idleIn s.db) = (.ok (), s.idleIn s.db) := by
    refine runAlone_settleOnce_closed _ rfl fun r hr => hclosed r ?_
    rw [← hs]
    exact hr
  rw [Code.Leaves, Code.runAlone_transaction_ok s hbody]
  by_cases hl : store.legal (s.idleIn s.db).view = true
  · rw [if_pos hl]
    exact hs
  · rw [if_neg hl]
    exact ⟨rfl, hs⟩

end Settles

/-! ## A refund under its reports -/

/-- Where the refund `r` of a payment stands: its status, what the payment of `amountCents` is said
to have been refunded, and what its other refunds add up to. No other row has its provider id. -/
structure Standing (r : Refund) (stripeRefundId : String) (amountCents others : Int)
    (status : RefundStatus) (refunded : Int) (d : Db) : Prop where
  legal : Legal d
  unique : ∀ q ∈ d.refunds, q.stripeRefundId = some stripeRefundId → q.id = r.id
  refund : ∃ q, Table.find r.id d.refunds = some q ∧ q.status = status ∧ q.paymentId = r.paymentId ∧
    q.amountCents = r.amountCents ∧ q.idempotencyKey = r.idempotencyKey
  payment : ∃ p, Table.find r.paymentId d.payments = some p ∧ p.amountCents = amountCents ∧
    p.refundedAmountCents = refunded
  others : status = .PENDING → refundTotal r.paymentId .SUCCEEDED d.refunds = others

/-- What a report settles the refund with. -/
def RefundReport.input (r : Refund) (stripeRefundId : String) (report : RefundReport) :
    SettlementInput where
  refundId := r.id
  status := report.status
  stripeRefundId := match report with
    | .rejection _ => none
    | _ => some stripeRefundId
  failureReason := match report with
    | .rejection message => some message
    | _ => none

section Reports

variable {r : Refund} {stripeRefundId : String} {amountCents others refunded : Int}
  {status : RefundStatus} {d : Db}

/-- An event is matched to the refund by the id or by the key. -/
theorem Standing.find_concerns (h : Standing r stripeRefundId amountCents others status refunded d)
    (reported : RefundStatusValue) :
    ∃ q, d.refunds.find? (ProviderUpdate.concerns {
      stripeRefundId, idempotencyKey := some r.idempotencyKey, status := reported }) = some q ∧
      q.id = r.id := by
  obtain ⟨row, hrow, -, -, -, hkey⟩ := h.refund
  cases hfind : d.refunds.find? (ProviderUpdate.concerns {
      stripeRefundId, idempotencyKey := some r.idempotencyKey, status := reported }) with
  | none =>
    have hnot := List.find?_eq_none.mp hfind row (Table.mem_of_find hrow)
    simp [ProviderUpdate.concerns, hkey] at hnot
  | some q =>
    refine ⟨q, rfl, ?_⟩
    have hq := List.mem_of_find?_eq_some hfind
    have hconcerns := List.find?_some hfind
    simp only [ProviderUpdate.concerns, Option.any_some, Bool.or_eq_true, decide_eq_true_eq] at hconcerns
    rcases hconcerns with hid | hsame
    · exact h.unique q hq hid
    · have heq : q = row := List.inj_on_of_nodup_map h.legal.refunds.idempotencyKey hq
        (Table.mem_of_find hrow) (hsame.trans hkey.symm)
      rw [heq]
      exact Table.key_of_find hrow

/-- Whoever brings the report, it is settled in the one place. -/
theorem Standing.processed (h : Standing r stripeRefundId amountCents others status refunded d)
    (report : RefundReport) : ∃ site, ∀ s : Alone store, s.db = d → s.delta = id →
      ((report.processed r stripeRefundId).runAlone s).2.db =
        ((applySettlement site (report.input r stripeRefundId)).runAlone s).2.db := by
  cases report with
  | result reported => exact ⟨.accepted, fun s _ _ => rfl⟩
  | rejection message => exact ⟨fun _ => .reported, fun s _ _ => rfl⟩
  | event text =>
    refine ⟨fun _ => .reported, fun s hdb hdelta => ?_⟩
    obtain ⟨q, hfind, hid⟩ := h.find_concerns (normaliseStatus text)
    have hview : s.view = d := by rw [Alone.view, hdelta, hdb]; rfl
    have hrun : ((RefundReport.event text).processed r stripeRefundId).runAlone s =
        (settleReported {
          refundId := q.id, status := (normaliseStatus text).toRefundStatus
          stripeRefundId := some stripeRefundId }).runAlone s := by
      simp only [RefundReport.processed, handleRefund, applyProviderUpdate, read, Code.runAlone_bind,
        Code.runAlone_select, hview, hfind]
    rw [hrun, hid]
    rfl

/-- What a report makes of the status and the refunded total of a payment of `amountCents`, whose
other refunds add up to `others`. -/
def settleStep (amountCents others cents : Int) (standing : RefundStatus × Int)
    (reported : RefundStatus) : RefundStatus × Int :=
  if standing.1 = .PENDING ∧ others + earnedCents cents reported ≤ amountCents then
    (reported, others + earnedCents cents reported)
  else standing

/-- How many events a refund in this status can still cause. -/
def pendingEvents (status : RefundStatus) : Nat :=
  if status = .PENDING then 1 else 0

theorem Standing.settle (h : Standing r stripeRefundId amountCents others .PENDING refunded d)
    (site : Nat → Site) {input : SettlementInput} (hinput : input.refundId = r.id)
    (hid : ∀ id ∈ input.stripeRefundId, id = stripeRefundId) (s : Alone store)
    (hs : s.db = d) :
    if others + earnedCents r.amountCents input.status ≤ amountCents then
      Standing r stripeRefundId amountCents others input.status
          (others + earnedCents r.amountCents input.status)
          ((applySettlement site input).runAlone s).2.db ∧
        ∃ events, ((applySettlement site input).runAlone s).2.db.outboxEvents = d.outboxEvents ++ events ∧
          events.length + pendingEvents input.status ≤ 1
    else ((applySettlement site input).runAlone s).2.db = d := by
  obtain ⟨q, hq, hopen, hpayment, hamount, hkey⟩ := h.refund
  obtain ⟨p, hp, hcents, -⟩ := h.payment
  rw [← hinput] at hq
  have hp' : Table.find q.paymentId d.payments = some p := by rw [hpayment, hp]
  have hunique : ∀ id ∈ input.stripeRefundId, ∀ x ∈ d.refunds, x.stripeRefundId = some id →
      x.id = input.refundId := by
    intro id hmem x hx hxid
    rw [hinput]
    exact h.unique x hx (by rw [hxid, hid id hmem])
  have hothers : refundTotal q.paymentId .SUCCEEDED d.refunds = others := by
    rw [hpayment, h.others rfl]
  have hdb := applySettlement_db site h.legal hq hopen hp' hunique s hs
  rw [hothers, hamount, hcents] at hdb
  split at hdb
  · next hfits =>
    obtain ⟨settledAt, hdb⟩ := hdb
    rw [if_pos hfits, hdb]
    have htotal := refundTotal_settle_open settledAt h.legal hq hopen
    rw [hothers, hamount] at htotal
    refine ⟨{
      legal := (legal_settle_iff settledAt h.legal hq hopen hp' hunique).mpr
        (by rw [hothers, hamount, hcents]; exact hfits)
      unique := fun x hx hxid => ?_
      refund := ⟨input.applyTo settledAt q, ?_, rfl, hpayment, hamount, hkey⟩
      payment := ?_
      others := fun hpending => ?_ }, ?_⟩
    · obtain ⟨x₀, hx₀, rfl⟩ := Table.mem_update.mp hx
      split at hxid
      · next hkey₀ =>
        rw [if_pos hkey₀, ← hinput]
        exact List.mem_singleton.mp hkey₀
      · next hkey₀ =>
        rw [if_neg hkey₀]
        exact h.unique x₀ hx₀ hxid
    · rw [← hinput]
      exact find_refund_settle hq
    · obtain ⟨p', hfind, hcents', hrefunded⟩ := find_payment_settle input settledAt hp'
      rw [hpayment] at hfind
      exact ⟨p', hfind, hcents'.trans hcents, hrefunded.trans htotal⟩
    · rw [← hpayment]
      refine htotal.trans ?_
      simp [hpending, earnedCents]
    · by_cases hsucceeded : input.status = .SUCCEEDED
      · exact ⟨[refundSucceeded q], by simp [Db.settle, hsucceeded], by simp [pendingEvents, hsucceeded]⟩
      · refine ⟨[], by simp [Db.settle, hsucceeded], ?_⟩
        unfold pendingEvents
        split <;> simp
  · next hfits =>
    rw [if_neg hfits]
    exact hdb

/-- One report moves the refund by one step. -/
theorem Standing.process (h : Standing r stripeRefundId amountCents others status refunded d)
    (x : Delivery) :
    Standing r stripeRefundId amountCents others
        (settleStep amountCents others r.amountCents (status, refunded) x.report.status).1
        (settleStep amountCents others r.amountCents (status, refunded) x.report.status).2
        (x.process r stripeRefundId d) ∧
      ∃ events, (x.process r stripeRefundId d).outboxEvents = d.outboxEvents ++ events ∧
        events.length + pendingEvents
          (settleStep amountCents others r.amountCents (status, refunded) x.report.status).1 ≤
            pendingEvents status := by
  obtain ⟨site, hprocessed⟩ := h.processed x.report
  unfold Delivery.process
  rw [hprocessed _ rfl rfl]
  by_cases hopen : status = .PENDING
  · subst hopen
    have hid : ∀ id ∈ (x.report.input r stripeRefundId).stripeRefundId, id = stripeRefundId := by
      cases x.report <;> simp [RefundReport.input]
    have hsettle := h.settle site rfl hid { answers := x.answers, refusal := x.refusal, db := d } rfl
    unfold settleStep
    by_cases hfits : others + earnedCents r.amountCents x.report.status ≤ amountCents
    · rw [if_pos ⟨rfl, hfits⟩]
      exact (if_pos hfits).mp hsettle
    · rw [if_neg fun hboth => hfits hboth.2, (if_neg hfits).mp hsettle]
      exact ⟨h, [], by simp, by simp⟩
  · have hstill : (settleStep amountCents others r.amountCents (status, refunded) x.report.status) =
        (status, refunded) := if_neg fun hboth => hopen hboth.1
    have hclosed : ∀ q, Table.find (x.report.input r stripeRefundId).refundId d.refunds = some q →
        q.status ≠ .PENDING := by
      intro q hq
      obtain ⟨q', hq', hstatus, -⟩ := h.refund
      cases hq'.symm.trans hq
      rwa [hstatus]
    rw [hstill, applySettlement_db_closed hclosed _ rfl]
    exact ⟨h, [], by simp, by simp⟩

/-- A run of reports. -/
theorem Standing.deliver (xs : List Delivery) : ∀ {status : RefundStatus} {refunded : Int} {d : Db},
    Standing r stripeRefundId amountCents others status refunded d →
      Standing r stripeRefundId amountCents others
          ((xs.map fun x => x.report.status).foldl (settleStep amountCents others r.amountCents)
            (status, refunded)).1
          ((xs.map fun x => x.report.status).foldl (settleStep amountCents others r.amountCents)
            (status, refunded)).2
          (deliver r stripeRefundId d xs) ∧
        ∃ events, (BookingApp.deliver r stripeRefundId d xs).outboxEvents = d.outboxEvents ++ events ∧
          events.length ≤ pendingEvents status := by
  induction xs with
  | nil => exact fun h => ⟨h, [], by simp [BookingApp.deliver], Nat.zero_le _⟩
  | cons x xs ih =>
    intro status refunded d h
    obtain ⟨hnext, first, hfirst, hle⟩ := h.process x
    obtain ⟨hlast, rest, hrest, hle'⟩ := ih hnext
    refine ⟨hlast, first ++ rest, ?_, ?_⟩
    · rw [← List.append_assoc, ← hfirst]
      exact hrest
    · rw [List.length_append]
      omega

end Reports

section Steps

variable {amountCents others cents : Int}

/-- A status that is terminal is left alone. -/
theorem foldl_settleStep_closed {status : RefundStatus} (hclosed : status ≠ .PENDING) (refunded : Int)
    (reports : List RefundStatus) :
    reports.foldl (settleStep amountCents others cents) (status, refunded) = (status, refunded) := by
  induction reports with
  | nil => rfl
  | cons reported reports ih => rw [List.foldl_cons, settleStep, if_neg fun h => hclosed h.1, ih]

/-- Reports that agree lead where their set leads. -/
theorem foldl_settleStep {final : RefundStatus} : ∀ {reports : List RefundStatus} {refunded : Int},
    (∀ reported ∈ reports, reported = .PENDING ∨ reported = final) →
      reports.foldl (settleStep amountCents others cents) (.PENDING, refunded) =
        if final ∈ reports ∧ others + earnedCents cents final ≤ amountCents then
          (final, others + earnedCents cents final)
        else if .PENDING ∈ reports ∧ others ≤ amountCents then (.PENDING, others)
        else (.PENDING, refunded)
  | [], _, _ => by simp
  | reported :: reports, refunded, hagree => by
    have hrest := fun x hx => hagree x (List.mem_cons_of_mem _ hx)
    have hpending : earnedCents cents .PENDING = 0 := rfl
    rw [List.foldl_cons, settleStep]
    by_cases hfits : others + earnedCents cents reported ≤ amountCents
    · rw [if_pos ⟨rfl, hfits⟩]
      rcases hagree reported List.mem_cons_self with rfl | rfl
      · rw [hpending, Int.add_zero] at hfits ⊢
        rw [foldl_settleStep hrest]
        by_cases hfinal : final = .PENDING
        · subst hfinal
          simp [hpending, hfits]
        · simp [hfinal, hfits]
      · by_cases hfinal : reported = .PENDING
        · subst hfinal
          rw [hpending, Int.add_zero] at hfits ⊢
          rw [foldl_settleStep hrest]
          simp [hpending, hfits]
        · rw [foldl_settleStep_closed hfinal]
          simp [hfits]
    · rw [if_neg fun h => hfits h.2, foldl_settleStep hrest]
      rcases hagree reported List.mem_cons_self with rfl | rfl
      · rw [hpending, Int.add_zero] at hfits
        by_cases hfinal : final = .PENDING
        · subst hfinal
          simp [hpending, hfits]
        · simp [hfinal, hfits]
      · by_cases hfinal : reported = .PENDING
        · subst hfinal
          rw [hpending, Int.add_zero] at hfits
          simp [hpending, hfits]
        · simp [hfits, Ne.symm hfinal]

end Steps

/-- How a refund of a legal state stands. -/
theorem Standing.of_legal {d : Db} (hlegal : Legal d) {r : Refund} (hr : r ∈ d.refunds)
    {stripeRefundId : String}
    (hunique : ∀ q ∈ d.refunds, q.stripeRefundId = some stripeRefundId → q.id = r.id) :
    ∃ amountCents others refunded,
      Standing r stripeRefundId amountCents others r.status refunded d := by
  obtain ⟨p, hp⟩ := exists_payment hlegal hr
  refine ⟨p.amountCents, refundTotal r.paymentId .SUCCEEDED d.refunds, p.refundedAmountCents, {
    legal := hlegal, unique := hunique, refund := ?_, payment := ⟨p, hp, rfl, rfl⟩
    others := fun _ => rfl }⟩
  exact ⟨r, Table.find_of_mem hlegal.refunds.pkey hr, rfl, rfl, rfl, rfl⟩

section Confluence

variable {r : Refund} {stripeRefundId : String} {amountCents others refunded : Int}
  {status : RefundStatus} {d : Db}

theorem Standing.refundStatus_eq (h : Standing r stripeRefundId amountCents others status refunded d) :
    refundStatus r.id d = some status := by
  obtain ⟨q, hq, hstatus, -⟩ := h.refund
  rw [refundStatus, hq, Option.map_some, hstatus]

theorem Standing.refundedCents_eq (h : Standing r stripeRefundId amountCents others status refunded d) :
    refundedCents r.paymentId d = some refunded := by
  obtain ⟨p, hp, -, hrefunded⟩ := h.payment
  rw [refundedCents, hp, Option.map_some, hrefunded]

/-- Runs of the same reports, of which the terminal ones agree, end alike. -/
theorem Standing.deliver_congr (h : Standing r stripeRefundId amountCents others status refunded d)
    {xs ys : List Delivery} {final : RefundStatus}
    (hagree : ∀ x ∈ xs, x.report.status = .PENDING ∨ x.report.status = final)
    (hsame : ∀ report, report ∈ xs.map Delivery.report ↔ report ∈ ys.map Delivery.report) :
    refundStatus r.id (BookingApp.deliver r stripeRefundId d xs) =
        refundStatus r.id (BookingApp.deliver r stripeRefundId d ys) ∧
      refundedCents r.paymentId (BookingApp.deliver r stripeRefundId d xs) =
        refundedCents r.paymentId (BookingApp.deliver r stripeRefundId d ys) := by
  have hstatuses : ∀ (zs : List Delivery) (reported : RefundStatus),
      reported ∈ zs.map (fun x => x.report.status) ↔
        ∃ report ∈ zs.map Delivery.report, report.status = reported := by simp
  have hfold : (xs.map fun x => x.report.status).foldl (settleStep amountCents others r.amountCents)
      (status, refunded) = (ys.map fun x => x.report.status).foldl
        (settleStep amountCents others r.amountCents) (status, refunded) := by
    by_cases hopen : status = .PENDING
    · subst hopen
      have hxs : ∀ reported ∈ xs.map (fun x => x.report.status),
          reported = .PENDING ∨ reported = final := by simpa using hagree
      have hmem : ∀ reported, reported ∈ xs.map (fun x => x.report.status) ↔
          reported ∈ ys.map (fun x => x.report.status) := by
        intro reported
        rw [hstatuses, hstatuses]
        exact exists_congr fun report => and_congr_left fun _ => hsame report
      rw [foldl_settleStep hxs, foldl_settleStep fun x hx => hxs x ((hmem x).mpr hx)]
      simp only [hmem]
    · rw [foldl_settleStep_closed hopen, foldl_settleStep_closed hopen]
  have hx := (h.deliver xs).1
  have hy := (h.deliver ys).1
  rw [← hfold] at hy
  exact ⟨hx.refundStatus_eq.trans hy.refundStatus_eq.symm,
    hx.refundedCents_eq.trans hy.refundedCents_eq.symm⟩

theorem Standing.deliver_closed (h : Standing r stripeRefundId amountCents others status refunded d)
    (hclosed : status ≠ .PENDING) (xs : List Delivery) :
    refundStatus r.id (BookingApp.deliver r stripeRefundId d xs) = some status := by
  have hlast := (h.deliver xs).1
  rw [foldl_settleStep_closed hclosed] at hlast
  exact hlast.refundStatus_eq

end Confluence

/-- Whatever reports of a refund are processed one after the other: if the terminal ones agree, where
the refund and the total of its payment end depends on which reports there were only; a terminal
status stays whatever follows; and one event at most is written. -/
theorem reports_confluent {d : Db} (hlegal : Legal d) {r : Refund} (hr : r ∈ d.refunds)
    {stripeRefundId : String}
    (hunique : ∀ q ∈ d.refunds, q.stripeRefundId = some stripeRefundId → q.id = r.id) :
    (∀ (xs ys : List Delivery) (final : RefundStatus),
      (∀ x ∈ xs, x.report.status = .PENDING ∨ x.report.status = final) →
      (∀ report, report ∈ xs.map Delivery.report ↔ report ∈ ys.map Delivery.report) →
      refundStatus r.id (deliver r stripeRefundId d xs) =
          refundStatus r.id (deliver r stripeRefundId d ys) ∧
        refundedCents r.paymentId (deliver r stripeRefundId d xs) =
          refundedCents r.paymentId (deliver r stripeRefundId d ys)) ∧
    (∀ xs more : List Delivery,
      refundStatus r.id (deliver r stripeRefundId d xs) ≠ some .PENDING →
        refundStatus r.id (deliver r stripeRefundId d (xs ++ more)) =
          refundStatus r.id (deliver r stripeRefundId d xs)) ∧
    ∀ xs : List Delivery, ∃ events,
      (deliver r stripeRefundId d xs).outboxEvents = d.outboxEvents ++ events ∧
        events.length ≤ 1 := by
  obtain ⟨amountCents, others, refunded, h⟩ := Standing.of_legal hlegal hr hunique
  refine ⟨fun xs ys final hagree hsame => h.deliver_congr hagree hsame, fun xs more hclosed => ?_,
    fun xs => ?_⟩
  · obtain ⟨hlast, -⟩ := h.deliver xs
    rw [hlast.refundStatus_eq] at hclosed ⊢
    rw [deliver, List.foldl_append]
    exact hlast.deliver_closed (fun heq => hclosed (by rw [heq])) more
  · obtain ⟨-, events, hevents, hle⟩ := h.deliver xs
    refine ⟨events, hevents, hle.trans ?_⟩
    unfold pendingEvents
    split <;> simp

/-- A report that is processed at the time 0. -/
def Delivery.of (report : RefundReport) : Delivery where
  report
  answers _ := {}
  refusal _ := recordNotFound

/-- The answer that the refund is pending, then the event that it has succeeded. -/
def answerFirst : List Delivery :=
  [.of (.result .pending), .of (.event "succeeded")]

/-- The event, the answer, and the event again. -/
def eventFirst : List Delivery :=
  [.of (.event "succeeded"), .of (.result .pending), .of (.event "succeeded")]

theorem reports_confluent_sample : ∃ r ∈ Db.oneRefund.refunds,
    refundStatus r.id (deliver r "re" .oneRefund answerFirst) = some .SUCCEEDED ∧
      refundStatus r.id (deliver r "re" .oneRefund eventFirst) =
        refundStatus r.id (deliver r "re" .oneRefund answerFirst) ∧
      refundedCents r.paymentId (deliver r "re" .oneRefund eventFirst) =
        refundedCents r.paymentId (deliver r "re" .oneRefund answerFirst) := by
  have hunique : ∀ q ∈ Db.oneRefund.refunds, q.stripeRefundId = some "re" → q.id = "r" := by decide
  refine ⟨_, List.mem_singleton_self _, rfl, ?_⟩
  refine (reports_confluent legal_oneRefund (List.mem_singleton_self _) hunique).1
    eventFirst answerFirst .SUCCEEDED ?_ ?_
  · simp [eventFirst, Delivery.of, RefundReport.status, normaliseStatus, RefundStatusValue.toRefundStatus]
  · intro report
    simp [eventFirst, answerFirst, Delivery.of]
    tauto

end BookingApp

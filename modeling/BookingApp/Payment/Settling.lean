import BookingApp.Payment.Ledger

/-!
# What a settlement does

A settlement holds the lock of its refund from the start and the lock of the
payment from the moment it writes the totals. What it commits is one move of the
ledger (`wp_settleOnce`).
-/

set_option autoImplicit false

namespace BookingApp

open ReadCommitted ReadCommitted.Proto

variable {rules : LedgerRules}

/-- What one row adds to the total of a payment in one status. -/
def countedCents (paymentId : String) (status : RefundStatus) (r : Refund) : Int :=
  if r.paymentId = paymentId ∧ r.status = status then r.amountCents else 0

theorem refundTotal_append (id : String) (status : RefundStatus) (t : List Refund) (r : Refund) :
    refundTotal id status (t ++ [r]) = refundTotal id status t + countedCents id status r := by
  rw [refundTotal, Table.total_append, Table.total_cons, Table.total_nil]
  simp [refundTotal, countedCents]

/-- A total after one row has been settled. -/
theorem refundTotal_settle {d : Db} (hlegal : Legal d) {input : SettlementInput}
    {settledAt : Option Int} {r : Refund} (hr : Table.find input.refundId d.refunds = some r)
    (id : String) (status : RefundStatus) :
    refundTotal id status (Table.update [input.refundId] (input.applyTo settledAt) d.refunds) =
      refundTotal id status d.refunds - countedCents id status r +
        countedCents id status (input.applyTo settledAt r) := by
  rw [refundTotal, Table.total_update hlegal.refunds.pkey hr]
  simp [refundTotal, countedCents]

/-- Settling a refund of one payment leaves the refunds of the others alone. -/
theorem refundsOf_settle {d d' : Db} (hlegal : Legal d) {input : SettlementInput}
    {settledAt : Option Int} {r : Refund} (hr : Table.find input.refundId d.refunds = some r)
    (hd' : d'.refunds = Table.update [input.refundId] (input.applyTo settledAt) d.refunds)
    {id : String} (hid : r.paymentId ≠ id) : refundsOf id d' = refundsOf id d := by
  have hrow : ∀ q ∈ d.refunds, Keyed.key q ∈ [input.refundId] → q.paymentId ≠ id := by
    intro q hq hkey
    have hfind := Table.find_of_mem hlegal.refunds.pkey hq
    rw [List.mem_singleton.mp hkey, hr, Option.some.injEq] at hfind
    exact hfind ▸ hid
  rw [refundsOf, refundsOf, hd', Table.update]
  revert hrow
  induction d.refunds with
  | nil => exact fun _ => rfl
  | cons q t ih =>
    intro hrow
    rw [List.map_cons, List.filter_cons, List.filter_cons,
      ih fun q' hq' => hrow q' (List.mem_cons_of_mem q hq')]
    by_cases hkey : Keyed.key q ∈ [input.refundId]
    · have hq := hrow q List.mem_cons_self hkey
      have hq' : (input.applyTo settledAt q).paymentId ≠ id := hq
      rw [if_pos hkey, if_neg (by simpa using hq'), if_neg (by simpa using hq)]
    · rw [if_neg hkey]

/-- The move that a settlement commits, and the locks it needs for it. -/
theorem guarantee_settle {held : List Lock} {d d' : Db} (hinv : (ledger rules).Inv d)
    {input : SettlementInput} {settledAt : Option Int} {r : Refund} {p : Payment} {refunded : Int}
    {current : PaymentStatus} (hr : Table.find input.refundId d.refunds = some r)
    (hopen : r.status = .PENDING) (hp : Table.find r.paymentId d.payments = some p)
    (hsource : rules.recorded → Source input r d)
    (hrefunds : d'.refunds = Table.update [input.refundId] (input.applyTo settledAt) d.refunds)
    (htotal : rules.totals → refunded = refundTotal r.paymentId .SUCCEEDED d'.refunds)
    (hpayments : d'.payments = Table.update [r.paymentId]
      (Payment.withTotals refunded (paymentStatusFor p.amountCents refunded current)) d.payments)
    (hprovider : d'.provider = d.provider) (hlegal : Legal d')
    (hheld : .refund input.refundId ∈ held) (hheld' : .payment r.paymentId ∈ held) :
    (ledger rules).Guarantee held d d' := by
  refine ledger_guarantee hinv (.settled input settledAt r p refunded current hr hopen hp hsource
    hrefunds htotal hpayments hprovider) hlegal (fun id hid q hq => ?_) fun id hid q hq => ?_
  · have hne : r.paymentId ≠ id := fun he => hid (he ▸ hheld')
    refine ⟨?_, refundsOf_settle hinv.1 hr hrefunds hne⟩
    rw [hpayments, Table.find_update_of_notMem (by simp) (by simpa using hne.symm)]
    exact hq
  · have hne : input.refundId ≠ id := fun he => hid (he ▸ hheld)
    rw [hrefunds, Table.find_update_of_notMem (by simp) (by simpa using hne.symm)]
    exact hq

/-- The errors of a settlement's own statements end in `R`. -/
def SettlementFaults (rules : LedgerRules) (site : Site) (R : Failure → Db → Prop) : Prop :=
  ∀ e d, (rules.conditions.Fault (.settlement site) e ∨
    ∃ id, rules.conditions.Fault (.totals site id) e) → R e d

section Settle

variable {site : Site} {R : Failure → Db → Prop} {input : SettlementInput}

/-- The payment of a refund is there, as the rows of a legal state have their references. -/
theorem exists_payment {d : Db} (hlegal : Legal d) {r : Refund} (hr : r ∈ d.refunds) :
    ∃ p, Table.find r.paymentId d.payments = some p := by
  obtain ⟨p, hp, -, hid⟩ := hlegal.refunds.payment_fkey r hr
  exact ⟨p, hid ▸ Table.find_of_mem hlegal.payments.pkey hp⟩

/-- Between the sum and the update of a payment no total changes, if the rules say so; after the
update the lock of the payment sees to it. -/
theorem wp_recomputePaymentTotals {settledAt : Option Int} {r : Refund} {held : List Lock} {d : Db}
    (hR : SettlementFaults rules site R) (hheld : .refund input.refundId ∈ held)
    (hr : Table.find input.refundId d.refunds = some r)
    {Q : Unit → List Lock → (Db → Db) → Db → Prop}
    (h : ∀ d' p refunded current, (ledger rules).Elapse held d d' → (ledger rules).Inv d' →
      Table.find r.paymentId d'.payments = some p →
      (rules.totals → refunded = refundTotal r.paymentId .SUCCEEDED
        (Table.update [input.refundId] (input.applyTo settledAt) d'.refunds)) →
      Q () (held ++ [.payment r.paymentId])
        (fun x => (x.onRefunds (Table.update [input.refundId] (input.applyTo settledAt))).onPayments
          (Table.update [r.paymentId]
            (Payment.withTotals refunded (paymentStatusFor p.amountCents refunded current)))) d') :
    (ledger rules).wp (recomputePaymentTotals site r.paymentId) Q R held
      (fun x => x.onRefunds (Table.update [input.refundId] (input.applyTo settledAt))) d := by
  -- the refund is locked, so it stays, and its payment is there because it is
  have hfound : ∀ {d'}, (ledger rules).Elapse held d d' → (ledger rules).Inv d' →
      Table.find input.refundId d'.refunds = some r ∧
        ∃ p, Table.find r.paymentId d'.payments = some p := by
    intro d' r' i'
    have hr' : Table.find input.refundId d'.refunds = some r := ledger_sameRefund r' hheld r hr
    exact ⟨hr', exists_payment i'.1 (Table.mem_of_find hr')⟩
  have hfault : ∀ e d, rules.conditions.Fault (.settlement site) e → R e d :=
    fun e d he => hR e d (.inl he)
  refine (wp_bind _ _).mpr (wp_select hfault fun d₁ r₁ i₁ _ => ?_)
  obtain ⟨-, p₁, hp₁⟩ := hfound r₁.elapse i₁
  refine (wp_bind _ _).mpr (wp_orThrow (fun p hp => ?_) fun hnone => ?_)
  case refine_2 => simp [hp₁] at hnone
  obtain rfl : p₁ = p := Option.some.inj (hp₁.symm.trans hp)
  refine (wp_bind _ _).mpr (wp_select hfault fun d₂ r₂ i₂ _ => ?_)
  obtain ⟨hr₂, p₂, hp₂⟩ := hfound (r₁.elapse.trans r₂.elapse) i₂
  refine (wp_map (fun _ => PUnit.unit) _).mpr (wp_updatePaymentAt
    (fun e d he => hR e d (.inr ⟨_, he⟩)) (fun d₃ r₃ i₃ hnone => ?_) fun d₃ r₃ i₃ p₃ hp₃ => ?_)
  · obtain ⟨-, p, hp⟩ := hfound (r₁.elapse.trans (r₂.elapse.trans r₃.elapse)) i₃
    simp [hp] at hnone
  have hr₃ := (hfound (r₁.elapse.trans (r₂.elapse.trans r₃.elapse)) i₃).1
  have hamount : p₁.amountCents = p₃.amountCents := by
    obtain ⟨p, hp, hamount, -⟩ :=
      (ledger_elapse (r₂.elapse.trans r₃.elapse)).payments.find _ _ hp₁
    rw [← hamount, Option.some.inj (hp.symm.trans hp₃)]
  rw [hamount]
  refine h d₃ p₃ _ _ (r₁.elapse.trans (r₂.elapse.trans r₃.elapse)) i₃ hp₃ fun ht => ?_
  have hstable : refundTotal r.paymentId .SUCCEEDED d₃.refunds =
      refundTotal r.paymentId .SUCCEEDED d₂.refunds :=
    r₃.lift (T := fun x y : Db => refundTotal r.paymentId .SUCCEEDED y.refunds =
        refundTotal r.paymentId .SUCCEEDED x.refunds) (fun _ => rfl)
      (fun _ _ _ h₁ h₂ => h₂.trans h₁) fun _ _ hi => rules.stable ht hi.2.1
  rw [refundTotal_settle i₃.1 hr₃, hstable, ← refundTotal_settle i₂.1 hr₂]
  rfl

theorem wp_settlementTime {status : RefundStatus} {held : List Lock} {δ : Db → Db} {d : Db}
    {P : Proto store} {Q : Option Int → List Lock → (Db → Db) → Db → Prop}
    (h : ∀ d', P.Elapse held d d' → ∀ t, Q t held δ d') :
    P.wp (settlementTime status) Q R held δ d := by
  unfold settlementTime
  split
  · exact h d .refl none
  · exact (wp_map _ _).mpr (wp_now fun d' r _ t => h d' r.elapse (some t))

/-- One attempt at a settlement changes nothing, or commits one settlement. -/
theorem wp_settleOnce {d : Db} (hR : SettlementFaults rules site R)
    (hsource : rules.recorded → ∀ d', LedgerEvolves d d' → ∀ r,
      Table.find input.refundId d'.refunds = some r → Source input r d') :
    (ledger rules).wp (settleOnce site input)
      ((ledger rules).Commits (.settlement site) fun _ _ _ _ => True) R [] id d := by
  have hfault : ∀ e d, rules.conditions.Fault (.settlement site) e → R e d :=
    fun e d he => hR e d (.inl he)
  refine (wp_bind _ _).mpr (wp_selectForUpdate hfault fun d₁ r₁ i₁ _ => ?_)
  have hidle : ∀ (held : List Lock) (d : Db), (ledger rules).Commits (.settlement site)
      (fun _ _ _ _ => True) () held id d := fun held d d' _ i' _ hl =>
    ⟨ledger_guarantee_of_eq i' (.unchanged rfl rfl rfl) (of_decide_eq_true hl) rfl rfl, trivial⟩
  split
  · exact hidle _ _
  · rename_i r hr
    split
    · exact hidle _ _
    have hopen : r.status = .PENDING := not_not.mp ‹_›
    refine (wp_bind _ _).mpr (wp_settlementTime fun d₂ r₂ settledAt => ?_)
    refine (wp_bind _ _).mpr (wp_modify hfault fun d₃ r₃ i₃ _ => ?_)
    have hr₃ : Table.find input.refundId d₃.refunds = some r :=
      ledger_sameRefund (r₂.trans r₃.elapse) (by simp) r hr
    refine (wp_bind _ _).mpr (wp_orThrow (fun q hq => ?_) fun hnone => ?_)
    case refine_2 => simp [hr₃] at hnone
    obtain rfl : r = q := Option.some.inj (hr₃.symm.trans hq)
    refine (wp_bind _ _).mpr (wp_recomputePaymentTotals hR (by simp) hr₃
      fun d₄ p refunded current r₄ i₄ hp htotal => ?_)
    -- both rows are locked by now, so the commit finds them as they were
    have hcommit : ∀ (held : List Lock) (δ : Db → Db) (d₅ : Db),
        (ledger rules).Elapse held d₄ d₅ →
        [.refund input.refundId, .payment r.paymentId] ⊆ held →
        (∀ x, (δ x).refunds = Table.update [input.refundId] (input.applyTo settledAt) x.refunds) →
        (∀ x, (δ x).payments = Table.update [r.paymentId]
          (Payment.withTotals refunded (paymentStatusFor p.amountCents refunded current))
          x.payments) → (∀ x, (δ x).provider = x.provider) →
        (ledger rules).Commits (.settlement site) (fun _ _ _ _ => True) () held δ d₅ := by
      intro held δ d₅ r₅ hheld hrefunds hpayments hprovider d₆ r₆ i₆ _ hl
      have r₄₆ := r₅.trans r₆.elapse
      have hr₄ : Table.find input.refundId d₄.refunds = some r :=
        ledger_sameRefund r₄ (by simp) r hr₃
      have hr₆ : Table.find input.refundId d₆.refunds = some r :=
        ledger_sameRefund r₄₆ (hheld (by simp)) r hr₄
      have hsame : SamePayment r.paymentId d₄ d₆ := ledger_samePayment r₄₆ (hheld (by simp))
      refine ⟨guarantee_settle i₆ hr₆ hopen (hsame p hp).1 (fun hrec => ?_) (hrefunds d₆)
        (fun ht => ?_) (hpayments d₆) (hprovider d₆) (of_decide_eq_true hl) (hheld (by simp))
        (hheld (by simp)), trivial⟩
      · have r₁₄ := r₁.elapse.trans ((r₂.weaken (by simp)).trans
          ((r₃.elapse.weaken (by simp)).trans (r₄.weaken (by simp))))
        exact hsource hrec d₆ ((ledger_elapse r₁₄).trans (ledger_elapse r₄₆)) r hr₆
      · rw [hrefunds, refundTotal_settle i₆.1 hr₆, hsame.refundTotal hp,
          ← refundTotal_settle i₄.1 hr₄]
        exact htotal ht
    split
    · exact wp_insertAt hfault fun d₅ r₅ _ => hcommit _ _ d₅ r₅.elapse (by simp) (fun _ => rfl)
        (fun _ => rfl) fun _ => rfl
    · exact hcommit _ _ d₄ .refl (by simp) (fun _ => rfl) (fun _ => rfl) fun _ => rfl

end Settle

/-- A settlement fails only in errors that none of its attempts survives. -/
theorem wp_applySettlement {site : Nat → Site} {R : Failure → Prop} {input : SettlementInput}
    {held : List Lock} {δ : Db → Db} {d : Db}
    (hR : ∀ left, SettlementFaults rules (site left) fun e _ =>
      (0 < left ∧ isSerializationFailure e = true) ∨ R e)
    (hsource : rules.recorded → ∀ d', LedgerEvolves d d' → ∀ r,
      Table.find input.refundId d'.refunds = some r → Source input r d') :
    (ledger rules).wp (applySettlement site input) (fun _ _ _ _ => True) (fun e _ => R e)
      held δ d := by
  refine wp_withSerializationRetry (J := LedgerEvolves d) (fun _ _ h hd => hd.trans h.evolves)
    (fun left held δ d₁ hd₁ => ?_) (.refl d)
  refine wp_transaction (fun e d he => hR left e d (.inl he)) (fun _ _ _ he _ => he)
    fun d₂ r₂ _ => wp_settleOnce (hR left) fun hrec d₃ h₃ => ?_
  exact hsource hrec d₃ (hd₁.trans ((ledger_elapse r₂.elapse).trans h₃))

/-- Whoever was told of an outcome may settle it, if it says what the provider said. -/
theorem wp_settleReported {input : SettlementInput} {held : List Lock} {δ : Db → Db} {d : Db}
    (hsource : rules.recorded → ∀ d', LedgerEvolves d d' → ∀ r,
      Table.find input.refundId d'.refunds = some r → Source input r d') :
    (ledger rules).wp (settleReported input) (fun _ _ _ _ => True) (fun _ _ => True) held δ d :=
  wp_applySettlement (fun _ _ _ _ => .inr trivial) hsource

end BookingApp

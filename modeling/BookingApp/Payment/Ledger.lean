import BookingApp.Payment.Reserving

/-!
# The protocol of the refund ledger

What one committed change does to payments, refunds and the provider
(`LedgerMove`), what never changes about them (`LedgerEvolves`), and how the local
rows relate to what the provider knows (`Reconciled`).
-/

set_option autoImplicit false

namespace BookingApp

open ReadCommitted ReadCommitted.Proto

/-- An error that a settlement with `left` further attempts survives: the job is retried, or the
settlement is. -/
def Recoverable (left : Nat) (e : Failure) : Prop :=
  isRetryableStripeError e = true ∨ (0 < left ∧ isSerializationFailure e = true)

/-- The conditions that the runs of a ledger are under. Under `totals` no commit changes the
succeeded refunds of a payment while a settlement is about to write their sum; under `recorded`
the settlement of a refund that the provider has just accepted fails with recoverable errors only,
and each settlement says what the provider said. -/
structure LedgerRules where
  conditions : Conditions store
  totals : Prop
  recorded : Prop
  stable : totals → ∀ {site : Site} {id : String} {d d' : Db},
    conditions.Stable (.totals site id) d d' →
      refundTotal id .SUCCEEDED d'.refunds = refundTotal id .SUCCEEDED d.refunds
  fault : recorded → ∀ {left : Nat} {e : Failure},
    (conditions.Fault (.settlement (.accepted left)) e → Recoverable left e) ∧
      ∀ id, conditions.Fault (.totals (.accepted left) id) e → Recoverable left e

/-- The provider did not, or did not for good, pay out the refund with this key: it refused the
key, or it reported the refund failed or cancelled, or there is no charge to refund against. -/
def NotPaidOut (key paymentId : String) (d : Db) : Prop :=
  key ∈ d.provider.refused ∨
    (∃ s ∈ d.provider.refunds, s.idempotencyKey = some key ∧
      (.failed ∈ s.reported ∨ .canceled ∈ s.reported)) ∨
    ∀ p ∈ d.payments, p.id = paymentId → p.stripeChargeId = none

/-- The provider knows a refund under this id and with this key. -/
def KnownAs (stripeRefundId key : String) (d : Db) : Prop :=
  ∃ s ∈ d.provider.refunds, s.id = stripeRefundId ∧ s.idempotencyKey = some key

/-- What a settlement records of a refund is what the provider said of it. -/
structure Source (input : SettlementInput) (r : Refund) (d : Db) : Prop where
  known : ∀ id ∈ input.stripeRefundId, KnownAs id r.idempotencyKey d
  unpaid : input.status = .FAILED ∨ input.status = .CANCELED →
    NotPaidOut r.idempotencyKey r.paymentId d

/-- The columns of a payment that a settlement writes. -/
def Payment.withTotals (refunded : Int) (status : PaymentStatus) (p : Payment) : Payment :=
  { p with refundedAmountCents := refunded, status }

/-- One committed change of the ledger. -/
inductive LedgerMove (rules : LedgerRules) (d d' : Db) : Prop where
  | unchanged (hrefunds : d'.refunds = d.refunds) (hpayments : d'.payments = d.payments)
      (hprovider : d'.provider = d.provider)
  | reserved (input : ReserveRefundInput) (p : Payment) (r : Refund)
      (hreserves : Reserves input p r d)
      (hrefunds : d'.refunds = d.refunds ++ [r]) (hpayments : d'.payments = d.payments)
      (hprovider : d'.provider = d.provider)
  | settled (input : SettlementInput) (settledAt : Option Int) (r : Refund) (p : Payment)
      (refunded : Int) (current : PaymentStatus)
      (hr : Table.find input.refundId d.refunds = some r) (hopen : r.status = .PENDING)
      (hp : Table.find r.paymentId d.payments = some p)
      (hsource : rules.recorded → Source input r d)
      (hrefunds : d'.refunds = Table.update [input.refundId] (input.applyTo settledAt) d.refunds)
      (htotal : rules.totals → refunded = refundTotal r.paymentId .SUCCEEDED d'.refunds)
      (hpayments : d'.payments = Table.update [r.paymentId]
        (Payment.withTotals refunded (paymentStatusFor p.amountCents refunded current)) d.payments)
      (hprovider : d'.provider = d.provider)
  | called (input : CreateRefundInput) (r : Refund) (p : Payment)
      (result : Except Failure RefundResult)
      (hr : r ∈ d.refunds) (hkey : r.idempotencyKey = input.idempotencyKey)
      (hp : Table.find r.paymentId d.payments = some p) (hcharge : p.stripeChargeId ≠ none)
      (houtcome : CreateRefundOutcome input d.provider d'.provider result)
      (hrefunds : d'.refunds = d.refunds) (hpayments : d'.payments = d.payments)
  | reported (id : String) (status : RefundStatusValue)
      (hprovider : d'.provider = d.provider.report id status)
      (hrefunds : d'.refunds = d.refunds) (hpayments : d'.payments = d.payments)

/-- Refunds stay, with their payment and their key. -/
def RefundsStay (t t' : List Refund) : Prop :=
  ∀ id r, Table.find id t = some r → ∃ r', Table.find id t' = some r' ∧
    r'.paymentId = r.paymentId ∧ r'.idempotencyKey = r.idempotencyKey

/-- Payments stay, with their amount and their charge, and no others appear. -/
structure PaymentsStay (t t' : List Payment) : Prop where
  find : ∀ id p, Table.find id t = some p → ∃ p', Table.find id t' = some p' ∧
    p'.amountCents = p.amountCents ∧ p'.stripeChargeId = p.stripeChargeId
  mem : ∀ p' ∈ t', ∃ p ∈ t, p.id = p'.id ∧ p'.stripeChargeId = p.stripeChargeId

/-- The provider forgets no refund, no refusal and no report. -/
structure ProviderRemembers (s s' : ProviderState) : Prop where
  refused : ∀ key ∈ s.refused, key ∈ s'.refused
  refunds : ∀ r ∈ s.refunds, ∃ r' ∈ s'.refunds, r'.id = r.id ∧
    r'.idempotencyKey = r.idempotencyKey ∧ ∀ status ∈ r.reported, status ∈ r'.reported

/-- What stays of the rows and of what the provider said. -/
structure LedgerEvolves (d d' : Db) : Prop where
  refunds : RefundsStay d.refunds d'.refunds
  payments : PaymentsStay d.payments d'.payments
  provider : ProviderRemembers d.provider d'.provider

theorem RefundsStay.refl (t : List Refund) : RefundsStay t t :=
  fun _ r hr => ⟨r, hr, rfl, rfl⟩

theorem PaymentsStay.refl (t : List Payment) : PaymentsStay t t where
  find _ p hp := ⟨p, hp, rfl, rfl⟩
  mem p hp := ⟨p, hp, rfl, rfl⟩

theorem ProviderRemembers.refl (s : ProviderState) : ProviderRemembers s s where
  refused _ h := h
  refunds r hr := ⟨r, hr, rfl, rfl, fun _ h => h⟩

theorem RefundsStay.trans {t₁ t₂ t₃ : List Refund} (h₁ : RefundsStay t₁ t₂)
    (h₂ : RefundsStay t₂ t₃) : RefundsStay t₁ t₃ := by
  intro id r hr
  obtain ⟨r₂, hr₂, hpay₂, hkey₂⟩ := h₁ id r hr
  obtain ⟨r₃, hr₃, hpay₃, hkey₃⟩ := h₂ id r₂ hr₂
  exact ⟨r₃, hr₃, hpay₃.trans hpay₂, hkey₃.trans hkey₂⟩

theorem PaymentsStay.trans {t₁ t₂ t₃ : List Payment} (h₁ : PaymentsStay t₁ t₂)
    (h₂ : PaymentsStay t₂ t₃) : PaymentsStay t₁ t₃ where
  find id p hp := by
    obtain ⟨p₂, hp₂, hamount₂, hcharge₂⟩ := h₁.find id p hp
    obtain ⟨p₃, hp₃, hamount₃, hcharge₃⟩ := h₂.find id p₂ hp₂
    exact ⟨p₃, hp₃, hamount₃.trans hamount₂, hcharge₃.trans hcharge₂⟩
  mem p₃ hp₃ := by
    obtain ⟨p₂, hp₂, hid₂, hcharge₂⟩ := h₂.mem p₃ hp₃
    obtain ⟨p₁, hp₁, hid₁, hcharge₁⟩ := h₁.mem p₂ hp₂
    exact ⟨p₁, hp₁, hid₁.trans hid₂, hcharge₂.trans hcharge₁⟩

theorem ProviderRemembers.trans {s₁ s₂ s₃ : ProviderState} (h₁ : ProviderRemembers s₁ s₂)
    (h₂ : ProviderRemembers s₂ s₃) : ProviderRemembers s₁ s₃ where
  refused key h := h₂.refused key (h₁.refused key h)
  refunds r hr := by
    obtain ⟨r₂, hr₂, hid₂, hkey₂, hrep₂⟩ := h₁.refunds r hr
    obtain ⟨r₃, hr₃, hid₃, hkey₃, hrep₃⟩ := h₂.refunds r₂ hr₂
    exact ⟨r₃, hr₃, hid₃.trans hid₂, hkey₃.trans hkey₂, fun x hx => hrep₃ x (hrep₂ x hx)⟩

namespace LedgerEvolves

theorem refl (d : Db) : LedgerEvolves d d :=
  ⟨.refl _, .refl _, .refl _⟩

theorem trans {d₁ d₂ d₃ : Db} (h₁ : LedgerEvolves d₁ d₂) (h₂ : LedgerEvolves d₂ d₃) :
    LedgerEvolves d₁ d₃ :=
  ⟨h₁.refunds.trans h₂.refunds, h₁.payments.trans h₂.payments, h₁.provider.trans h₂.provider⟩

variable {d d' : Db} {key paymentId id : String}

theorem notPaidOut (h : LedgerEvolves d d') (hn : NotPaidOut key paymentId d) :
    NotPaidOut key paymentId d' := by
  rcases hn with hrefused | ⟨s, hs, hkey, hrep⟩ | hcharge
  · exact .inl (h.provider.refused key hrefused)
  · obtain ⟨s', hs', -, hkey', hrep'⟩ := h.provider.refunds s hs
    exact .inr (.inl ⟨s', hs', hkey'.trans hkey, hrep.imp (hrep' _) (hrep' _)⟩)
  · refine .inr (.inr fun p' hp' hid => ?_)
    obtain ⟨p, hp, hid', hc⟩ := h.payments.mem p' hp'
    rw [hc]
    exact hcharge p hp (hid'.trans hid)

theorem knownAs (h : LedgerEvolves d d') (hk : KnownAs id key d) : KnownAs id key d' := by
  obtain ⟨s, hs, hid, hkey⟩ := hk
  obtain ⟨s', hs', hid', hkey', -⟩ := h.provider.refunds s hs
  exact ⟨s', hs', hid'.trans hid, hkey'.trans hkey⟩

end LedgerEvolves

@[simp] theorem key_withTotals (refunded : Int) (status : PaymentStatus) (p : Payment) :
    Keyed.key (p.withTotals refunded status) = Keyed.key p := rfl

@[simp] theorem key_applyTo (input : SettlementInput) (settledAt : Option Int) (r : Refund) :
    Keyed.key (input.applyTo settledAt r) = Keyed.key r := rfl

theorem RefundsStay.append (t u : List Refund) : RefundsStay t (t ++ u) :=
  fun _ r hr => ⟨r, Table.find_append_of_some hr, rfl, rfl⟩

theorem RefundsStay.update (input : SettlementInput) (settledAt : Option Int) (ids : List String)
    (t : List Refund) : RefundsStay t (Table.update ids (input.applyTo settledAt) t) := by
  intro id r hr
  rw [Table.find_update (key_applyTo input settledAt), hr]
  refine ⟨_, rfl, ?_⟩
  split <;> exact ⟨rfl, rfl⟩

theorem PaymentsStay.update (refunded : Int) (status : PaymentStatus) (ids : List String)
    (t : List Payment) : PaymentsStay t (Table.update ids (Payment.withTotals refunded status) t) where
  find id p hp := by
    rw [Table.find_update (key_withTotals refunded status), hp]
    refine ⟨_, rfl, ?_⟩
    split <;> exact ⟨rfl, rfl⟩
  mem p' hp' := by
    obtain ⟨p, hp, rfl⟩ := Table.mem_update.mp hp'
    refine ⟨p, hp, ?_⟩
    split <;> exact ⟨rfl, rfl⟩

theorem CreateRefundOutcome.remembers {input : CreateRefundInput} {state state' : ProviderState}
    {result : Except Failure RefundResult} (h : CreateRefundOutcome input state state' result) :
    ProviderRemembers state state' := by
  cases h with
  | accepted id status result hkey hid hopen hresult =>
    exact ⟨fun _ h => h, fun s hs => ⟨s, List.mem_append_left _ hs, rfl, rfl, fun _ h => h⟩⟩
  | replayed s status hs hkey hstatus => exact .refl _
  | refused e he hkey =>
    exact ⟨fun _ h => List.mem_cons_of_mem _ h, (ProviderRemembers.refl _).refunds⟩
  | unreached e he => exact .refl _

theorem ProviderState.remembers_report (id : String) (status : RefundStatusValue)
    (s : ProviderState) : ProviderRemembers s (s.report id status) where
  refused _ h := h
  refunds r hr := by
    refine ⟨_, Table.mem_update.mpr ⟨r, hr, rfl⟩, ?_⟩
    split <;> simp +contextual

variable {rules : LedgerRules} {d d' : Db}

theorem LedgerMove.evolves (h : LedgerMove rules d d') : LedgerEvolves d d' := by
  cases h with
  | unchanged hrefunds hpayments hprovider =>
    exact ⟨hrefunds ▸ .refl _, hpayments ▸ .refl _, hprovider ▸ .refl _⟩
  | reserved input p r hreserves hrefunds hpayments hprovider =>
    exact ⟨hrefunds ▸ .append _ _, hpayments ▸ .refl _, hprovider ▸ .refl _⟩
  | settled input settledAt r p refunded current hr hopen hp hsource hrefunds htotal hpayments
      hprovider =>
    exact ⟨hrefunds ▸ .update _ _ _ _, hpayments ▸ .update _ _ _ _, hprovider ▸ .refl _⟩
  | called input r p result hr hkey hp hcharge houtcome hrefunds hpayments =>
    exact ⟨hrefunds ▸ .refl _, hpayments ▸ .refl _, houtcome.remembers⟩
  | reported id status hprovider hrefunds hpayments =>
    exact ⟨hrefunds ▸ .refl _, hpayments ▸ .refl _, hprovider ▸ ProviderState.remembers_report _ _ _⟩

/-- How the provider's refunds are identified among each other. -/
structure ProviderState.Distinct (s : ProviderState) : Prop where
  ids : ∀ r ∈ s.refunds, ∀ r' ∈ s.refunds, r.id = r'.id → r = r'
  keys : ∀ r ∈ s.refunds, ∀ r' ∈ s.refunds, ∀ key, r.idempotencyKey = some key →
    r'.idempotencyKey = some key → r = r'
  refused : ∀ key ∈ s.refused, ∀ r ∈ s.refunds, r.idempotencyKey ≠ some key

/-- The rows agree with what the provider knows: each key it knows is the key of a row, the ids
that rows carry are its ids, what it accepted has a charge behind it, and what is closed without
success was not paid out. -/
structure Reconciled (d : Db) : Prop where
  distinct : d.provider.Distinct
  requested : ∀ s ∈ d.provider.refunds, ∀ key ∈ s.idempotencyKey,
    ∃ r ∈ d.refunds, r.idempotencyKey = key
  linked : ∀ r ∈ d.refunds, ∀ id ∈ r.stripeRefundId, KnownAs id r.idempotencyKey d
  charged : ∀ r ∈ d.refunds, ∀ s ∈ d.provider.refunds, s.idempotencyKey = some r.idempotencyKey →
    ∀ p ∈ d.payments, p.id = r.paymentId → p.stripeChargeId ≠ none
  unpaid : ∀ r ∈ d.refunds, r.status = .FAILED ∨ r.status = .CANCELED →
    NotPaidOut r.idempotencyKey r.paymentId d

theorem CreateRefundOutcome.distinct {input : CreateRefundInput} {state state' : ProviderState}
    {result : Except Failure RefundResult} (h : CreateRefundOutcome input state state' result)
    (hd : state.Distinct) : state'.Distinct := by
  cases h with
  | accepted id status result hkey hid hopen hresult =>
    refine ⟨fun r hr r' hr' he => ?_, fun r hr r' hr' key he he' => ?_, fun key hk r hr he => ?_⟩
    · rcases List.mem_append.mp hr with hr | hr <;> rcases List.mem_append.mp hr' with hr' | hr'
      · exact hd.ids r hr r' hr' he
      · exact absurd (he.trans (congrArg _ (List.mem_singleton.mp hr'))) (hid r hr)
      · exact absurd (he.symm.trans (congrArg _ (List.mem_singleton.mp hr))) (hid r' hr')
      · exact (List.mem_singleton.mp hr).trans (List.mem_singleton.mp hr').symm
    · rcases List.mem_append.mp hr with hr | hr <;> rcases List.mem_append.mp hr' with hr' | hr'
      · exact hd.keys r hr r' hr' key he he'
      · rw [List.mem_singleton.mp hr', ← he] at he'
        exact absurd he'.symm (hkey r hr)
      · rw [List.mem_singleton.mp hr, ← he'] at he
        exact absurd he.symm (hkey r' hr')
      · exact (List.mem_singleton.mp hr).trans (List.mem_singleton.mp hr').symm
    · rcases List.mem_append.mp hr with hr | hr
      · exact hd.refused key hk r hr he
      · rw [List.mem_singleton.mp hr, Option.some.injEq] at he
        exact hopen (he ▸ hk)
  | replayed s status hs hkey hstatus => exact hd
  | refused e he hkey =>
    refine ⟨hd.ids, hd.keys, fun key hk r hr => ?_⟩
    rcases List.mem_cons.mp hk with rfl | hk
    · exact hkey r hr
    · exact hd.refused key hk r hr
  | unreached e he => exact hd

theorem ProviderState.mem_report {id : String} {status : RefundStatusValue} {s : ProviderState}
    {r' : ProviderRefund} (h : r' ∈ (s.report id status).refunds) :
    ∃ r ∈ s.refunds, r'.id = r.id ∧ r'.idempotencyKey = r.idempotencyKey ∧
      r' = if r.id = id then { r with reported := r.reported ++ [status] } else r := by
  obtain ⟨r, hr, rfl⟩ := Table.mem_update.mp h
  have hkey : Keyed.key r = r.id := rfl
  simp only [hkey, List.mem_singleton]
  refine ⟨r, hr, ?_, ?_, rfl⟩ <;> split <;> rfl

theorem ProviderState.Distinct.report {s : ProviderState} (hd : s.Distinct) (id : String)
    (status : RefundStatusValue) : (s.report id status).Distinct := by
  refine ⟨fun r' hr' q' hq' he => ?_, fun r' hr' q' hq' key he he' => ?_, fun key hk r' hr' => ?_⟩
  · obtain ⟨r, hr, hid, -, rfl⟩ := mem_report hr'
    obtain ⟨q, hq, hid', -, rfl⟩ := mem_report hq'
    rw [hd.ids r hr q hq (hid.symm.trans (he.trans hid'))]
  · obtain ⟨r, hr, -, hkey, rfl⟩ := mem_report hr'
    obtain ⟨q, hq, -, hkey', rfl⟩ := mem_report hq'
    rw [hd.keys r hr q hq key (hkey.symm.trans he) (hkey'.symm.trans he')]
  · obtain ⟨r, hr, -, hkey, -⟩ := mem_report hr'
    rw [hkey]
    exact hd.refused key hk r hr

/-- The refunds that the provider has accepted come with their charge, whoever asked for them. -/
theorem CreateRefundOutcome.charged {input : CreateRefundInput} {state' : ProviderState}
    {result : Except Failure RefundResult} {d : Db} {r : Refund} {p : Payment}
    (h : CreateRefundOutcome input d.provider state' result) (hlegal : Legal d)
    (hd : Reconciled d) (hr : r ∈ d.refunds) (hkey : r.idempotencyKey = input.idempotencyKey)
    (hp : Table.find r.paymentId d.payments = some p) (hcharge : p.stripeChargeId ≠ none) :
    ∀ q ∈ d.refunds, ∀ s ∈ state'.refunds, s.idempotencyKey = some q.idempotencyKey →
      ∀ p ∈ d.payments, p.id = q.paymentId → p.stripeChargeId ≠ none := by
  cases h with
  | accepted id status result hkey' hid hopen hresult =>
    intro q hq s hs he p' hp' hpid
    rcases List.mem_append.mp hs with hs | hs
    · exact hd.charged q hq s hs he p' hp' hpid
    · rw [List.mem_singleton.mp hs, Option.some.injEq, ← hkey] at he
      obtain rfl := List.inj_on_of_nodup_map hlegal.refunds.idempotencyKey hr hq he
      have hfind := Table.find_of_mem hlegal.payments.pkey hp'
      rw [show Keyed.key p' = r.paymentId from hpid, hp, Option.some.injEq] at hfind
      exact hfind ▸ hcharge
  | replayed s status hs hkey' hstatus => exact hd.charged
  | refused e he hkey' => exact hd.charged
  | unreached e he => exact hd.charged

theorem CreateRefundOutcome.requested {input : CreateRefundInput} {state' : ProviderState}
    {result : Except Failure RefundResult} {d : Db} {r : Refund}
    (h : CreateRefundOutcome input d.provider state' result) (hd : Reconciled d)
    (hr : r ∈ d.refunds) (hkey : r.idempotencyKey = input.idempotencyKey) :
    ∀ s ∈ state'.refunds, ∀ key ∈ s.idempotencyKey, ∃ r ∈ d.refunds, r.idempotencyKey = key := by
  cases h with
  | accepted id status result hkey' hid hopen hresult =>
    intro s hs key he
    rcases List.mem_append.mp hs with hs | hs
    · exact hd.requested s hs key he
    · rw [List.mem_singleton.mp hs, Option.mem_some_iff] at he
      exact ⟨r, hr, hkey.trans he⟩
  | replayed s status hs hkey' hstatus => exact hd.requested
  | refused e he hkey' => exact hd.requested
  | unreached e he => exact hd.requested

/-- What a change of the ledger keeps, when each settlement says what the provider said. -/
theorem Reconciled.move (hd : Reconciled d) (hlegal : Legal d) (hlegal' : Legal d')
    (hrecorded : rules.recorded) (h : LedgerMove rules d d') : Reconciled d' := by
  have hev := h.evolves
  cases h with
  | unchanged hrefunds hpayments hprovider =>
    refine ⟨hprovider ▸ hd.distinct, ?_, ?_, ?_, ?_⟩
    · rw [hrefunds, hprovider]
      exact hd.requested
    · rw [hrefunds]
      exact fun r hr id hid => hev.knownAs (hd.linked r hr id hid)
    · rw [hrefunds, hpayments, hprovider]
      exact hd.charged
    · rw [hrefunds]
      exact fun r hr hs => hev.notPaidOut (hd.unpaid r hr hs)
  | reserved input p r hreserves hrefunds hpayments hprovider =>
    have hsplit : ∀ q ∈ d'.refunds, q ∈ d.refunds ∨ q = r := by simp [hrefunds]
    -- the key is fresh among the rows, and the provider knows keys of rows only
    have hfresh : ∀ q ∈ d.refunds, q.idempotencyKey ≠ r.idempotencyKey := by
      have hnodup := hlegal'.refunds.idempotencyKey
      rw [hrefunds, List.map_append, List.nodup_append] at hnodup
      exact fun q hq => hnodup.2.2 _ (List.mem_map_of_mem hq) _ (by simp)
    refine ⟨hprovider ▸ hd.distinct, fun s hs key he => ?_, fun q hq id hid => ?_,
      fun q hq s hs he p' hp' hpid => ?_, fun q hq hstatus => ?_⟩
    · rw [hprovider] at hs
      obtain ⟨q, hq, hkey⟩ := hd.requested s hs key he
      exact ⟨q, by simp [hrefunds, hq], hkey⟩
    · rcases hsplit q hq with hq | rfl
      · exact hev.knownAs (hd.linked q hq id hid)
      · rw [hreserves.unsent] at hid
        cases hid
    · rw [hprovider] at hs
      rw [hpayments] at hp'
      rcases hsplit q hq with hq | rfl
      · exact hd.charged q hq s hs he p' hp' hpid
      · obtain ⟨q', hq', hkey⟩ := hd.requested s hs _ he
        exact absurd hkey (hfresh q' hq')
    · rcases hsplit q hq with hq | rfl
      · exact hev.notPaidOut (hd.unpaid q hq hstatus)
      · rw [hreserves.pending] at hstatus
        simp at hstatus
  | settled input settledAt r p refunded current hr hopen hp hsource hrefunds htotal hpayments
      hprovider =>
    have hsource := hsource hrecorded
    -- a row afterwards is the settled one or one of the others
    have hback : ∀ q' ∈ d'.refunds, q' = input.applyTo settledAt r ∨ q' ∈ d.refunds := by
      intro q' hq'
      rw [hrefunds] at hq'
      obtain ⟨q, hq, rfl⟩ := Table.mem_update.mp hq'
      by_cases hid : Keyed.key q ∈ [input.refundId]
      · rw [if_pos hid]
        have hfind := Table.find_of_mem hlegal.refunds.pkey hq
        rw [List.mem_singleton.mp hid, hr, Option.some.injEq] at hfind
        exact .inl (by rw [hfind])
      · rw [if_neg hid]
        exact .inr hq
    have hmem := Table.mem_of_find hr
    refine ⟨hprovider ▸ hd.distinct, fun s hs key he => ?_, fun q' hq' id hid => ?_,
      fun q' hq' s hs he p' hp' hpid => ?_, fun q' hq' hstatus => ?_⟩
    · rw [hprovider] at hs
      obtain ⟨q, hq, rfl⟩ := hd.requested s hs key he
      refine ⟨_, hrefunds ▸ Table.mem_update.mpr ⟨q, hq, rfl⟩, ?_⟩
      split <;> rfl
    · rcases hback q' hq' with rfl | hq
      · have hid : input.stripeRefundId.or r.stripeRefundId = some id := hid
        rcases Option.or_eq_some_iff.mp hid with hid | ⟨-, hid⟩
        · exact hev.knownAs (hsource.known id hid)
        · exact hev.knownAs (hd.linked r hmem id hid)
      · exact hev.knownAs (hd.linked q' hq id hid)
    · obtain ⟨p₀, hp₀, hid₀, hc₀⟩ := hev.payments.mem p' hp'
      rw [hc₀]
      rw [hprovider] at hs
      rcases hback q' hq' with rfl | hq
      · exact hd.charged r hmem s hs he p₀ hp₀ (hid₀.trans hpid)
      · exact hd.charged q' hq s hs he p₀ hp₀ (hid₀.trans hpid)
    · rcases hback q' hq' with rfl | hq
      · exact hev.notPaidOut (hsource.unpaid hstatus)
      · exact hev.notPaidOut (hd.unpaid q' hq hstatus)
  | called input r p result hr hkey hp hcharge houtcome hrefunds hpayments =>
    refine ⟨houtcome.distinct hd.distinct, ?_, ?_, ?_, ?_⟩
    · rw [hrefunds]
      exact houtcome.requested hd hr hkey
    · rw [hrefunds]
      exact fun r hr id hid => hev.knownAs (hd.linked r hr id hid)
    · rw [hrefunds, hpayments]
      exact houtcome.charged hlegal hd hr hkey hp hcharge
    · rw [hrefunds]
      exact fun r hr hs => hev.notPaidOut (hd.unpaid r hr hs)
  | reported id status hprovider hrefunds hpayments =>
    refine ⟨hprovider ▸ hd.distinct.report id status, ?_, ?_, ?_, ?_⟩
    · rw [hrefunds, hprovider]
      intro s' hs' key he
      obtain ⟨s, hs, -, hkey, -⟩ := ProviderState.mem_report hs'
      exact hd.requested s hs key (hkey ▸ he)
    · rw [hrefunds]
      exact fun r hr id hid => hev.knownAs (hd.linked r hr id hid)
    · rw [hrefunds, hpayments, hprovider]
      intro r hr s' hs' he
      obtain ⟨s, hs, -, hkey, -⟩ := ProviderState.mem_report hs'
      exact hd.charged r hr s hs (hkey ▸ he)
    · rw [hrefunds]
      exact fun r hr hs => hev.notPaidOut (hd.unpaid r hr hs)

/-- The protocol of the ledger: the lock of a payment covers it and its refunds, the lock of a
refund covers that row. -/
def ledger (rules : LedgerRules) : Proto store where
  toConditions := rules.conditions
  Inv d := Legal d ∧ (rules.recorded → Reconciled d)
  Act := LedgerMove rules
  Same l := match l with
    | .payment id => SamePayment id
    | .refund id => SameRefund id
    | _ => fun _ _ => True
  same_refl l d := by
    cases l with
    | payment id => exact SamePayment.refl id d
    | refund id => exact SameRefund.refl id d
    | _ => trivial
  same_trans {l _ _ _} := by
    cases l with
    | payment id => exact SamePayment.trans
    | refund id => exact SameRefund.trans
    | _ => exact fun _ _ => trivial

/-- A change of the ledger respects the protocol when it touches what is locked only. -/
theorem ledger_guarantee {held : List Lock} (hinv : (ledger rules).Inv d)
    (hmove : LedgerMove rules d d') (hlegal : Legal d')
    (hpayment : ∀ id, .payment id ∉ held → SamePayment id d d')
    (hrefund : ∀ id, .refund id ∉ held → SameRefund id d d') :
    (ledger rules).Guarantee held d d' := by
  refine ⟨hmove, ⟨hlegal, fun hr => (hinv.2 hr).move hinv.1 hlegal hr hmove⟩, fun l hl => ?_⟩
  cases l with
  | payment id => exact hpayment id hl
  | refund id => exact hrefund id hl
  | _ => trivial

/-- A change that leaves payments and refunds alone is covered by no lock of the ledger. -/
theorem ledger_guarantee_of_eq {held : List Lock} (hinv : (ledger rules).Inv d)
    (hmove : LedgerMove rules d d') (hlegal : Legal d') (hrefunds : d'.refunds = d.refunds)
    (hpayments : d'.payments = d.payments) : (ledger rules).Guarantee held d d' :=
  ledger_guarantee hinv hmove hlegal
    (fun id _ p hp => ⟨by rw [hpayments]; exact hp, by rw [refundsOf, hrefunds]; rfl⟩)
    fun id _ r hr => by rw [hrefunds]; exact hr

theorem ledger_elapse {held : List Lock} (r : (ledger rules).Elapse held d d') :
    LedgerEvolves d d' :=
  r.lift LedgerEvolves.refl (fun _ _ _ => LedgerEvolves.trans) fun _ _ h => h.evolves

theorem ledger_sameRefund {held : List Lock} {id : String} (r : (ledger rules).Elapse held d d')
    (h : .refund id ∈ held) : SameRefund id d d' :=
  r.same h

theorem ledger_samePayment {held : List Lock} {id : String} (r : (ledger rules).Elapse held d d')
    (h : .payment id ∈ held) : SamePayment id d d' :=
  r.same h

end BookingApp

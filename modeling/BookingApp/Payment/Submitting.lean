import BookingApp.Payment.Settling

/-!
# What submitting a refund and hearing of it do

Every settlement with a source in what the provider said is a move of the ledger.
The settlements of `executeRefund` and of the webhook have one
(`executeRefund_safe`, `refundEvent_safe`), the first provided that an accepted
call is not taken for a refusal when its settlement fails.
-/

set_option autoImplicit false

namespace BookingApp

open ReadCommitted ReadCommitted.Proto

/-- The provider has reported this status of the refund it knows under this id and key. -/
def ReportedAs (id : String) (key : Option String) (status : RefundStatusValue) (d : Db) : Prop :=
  ∃ s ∈ d.provider.refunds, s.id = id ∧ s.idempotencyKey = key ∧ status ∈ s.reported

theorem ReportedAs.evolves {id : String} {key : Option String} {status : RefundStatusValue}
    {d d' : Db} (h : ReportedAs id key status d) (hev : LedgerEvolves d d') :
    ReportedAs id key status d' := by
  obtain ⟨s, hs, hid, hkey, hrep⟩ := h
  obtain ⟨s', hs', hid', hkey', hrep'⟩ := hev.provider.refunds s hs
  exact ⟨s', hs', hid'.trans hid, hkey'.trans hkey, hrep' _ hrep⟩

/-- Recording a reported status is recording what the provider said. -/
theorem ReportedAs.source {id refundId : String} {status : RefundStatusValue} {r : Refund} {d : Db}
    (h : ReportedAs id (some r.idempotencyKey) status d) :
    Source { refundId, status := status.toRefundStatus, stripeRefundId := some id } r d := by
  obtain ⟨s, hs, hid, hkey, hrep⟩ := h
  refine ⟨fun id' he => ?_, fun hstatus => .inr (.inl ⟨s, hs, hkey, ?_⟩)⟩
  · exact ⟨s, hs, hid.trans (Option.some.inj he), hkey⟩
  · cases status with
    | succeeded => simp [RefundStatusValue.toRefundStatus] at hstatus
    | pending => simp [RefundStatusValue.toRefundStatus] at hstatus
    | failed => exact .inl hrep
    | canceled => exact .inr hrep

theorem CreateRefundOutcome.reported {input : CreateRefundInput} {d d' : Db} {result : RefundResult}
    (h : CreateRefundOutcome input d.provider d'.provider (.ok result)) :
    ReportedAs result.refundId (some input.idempotencyKey) result.status d' := by
  generalize hstate : d'.provider = state' at h
  generalize hanswer : Except.ok result = answer at h
  cases h with
  | accepted id status answer hkey hid hopen hresult =>
    rw [← hanswer] at hresult
    rcases hresult with he | ⟨e, he, -⟩
    · cases he
      exact ⟨_, by rw [hstate]; exact List.mem_append_right _ (List.mem_singleton_self _), rfl, rfl,
        List.mem_singleton_self _⟩
    · cases he
  | replayed s status hs hkey hstatus =>
    cases hanswer
    exact ⟨s, hstate ▸ hs, rfl, hkey, hstatus⟩
  | refused e he hkey => cases hanswer
  | unreached e he => cases hanswer

/-- A call that fails for good leaves the key refused. -/
theorem CreateRefundOutcome.rejected {input : CreateRefundInput} {state state' : ProviderState}
    {e : Failure} (h : CreateRefundOutcome input state state' (.error e)) :
    isRetryableStripeError e = true ∨ input.idempotencyKey ∈ state'.refused := by
  generalize hanswer : Except.error e = answer at h
  cases h with
  | accepted id status answer hkey hid hopen hresult =>
    rw [← hanswer] at hresult
    rcases hresult with he | ⟨e', he, hretry⟩
    · cases he
    · cases he
      exact .inl hretry
  | replayed s status hs hkey hstatus => cases hanswer
  | refused e he hkey => exact .inr List.mem_cons_self
  | unreached e he =>
    cases hanswer
    exact .inl he

/-- The row an update is found to be about has the key of the refund that the update reports. -/
theorem ReportedAs.concerned {input : ProviderUpdate} {r : Refund} {d : Db}
    (h : ReportedAs input.stripeRefundId input.idempotencyKey input.status d) (hd : Reconciled d)
    (hr : r ∈ d.refunds) (hconcerns : input.concerns r = true) :
    ReportedAs input.stripeRefundId (some r.idempotencyKey) input.status d := by
  obtain ⟨s, hs, hid, hkey, hrep⟩ := h
  refine ⟨s, hs, hid, ?_, hrep⟩
  rcases Bool.or_eq_true_iff.mp hconcerns with hlinked | hmetadata
  · obtain ⟨s', hs', hid', hkey'⟩ := hd.linked r hr _ (of_decide_eq_true hlinked)
    rw [hd.distinct.ids s hs s' hs' (hid.trans hid'.symm), hkey']
  · obtain ⟨key, hk, he⟩ := (Option.any_eq_true _ _).mp hmetadata
    rw [hkey, hk, of_decide_eq_true he]

section Submit

variable {rules : LedgerRules} {held : List Lock} {δ : Db → Db} {d : Db}

/-- The call is a move of the ledger; what it answers is what the provider recorded. -/
theorem wp_createRefund {api : Api} {input : CreateRefundInput} {refund : Refund} {p : Payment}
    (hr : Table.find refund.id d.refunds = some refund)
    (hp : Table.find refund.paymentId d.payments = some p) (hcharge : p.stripeChargeId ≠ none)
    (hkey : refund.idempotencyKey = input.idempotencyKey)
    {Q : RefundResult → List Lock → (Db → Db) → Db → Prop} {R : Failure → Db → Prop}
    (hok : ∀ d' result, LedgerEvolves d d' →
      ReportedAs result.refundId (some input.idempotencyKey) result.status d' → Q result held δ d')
    (herr : ∀ d' e, LedgerEvolves d d' →
      isRetryableStripeError e = true ∨ input.idempotencyKey ∈ d'.provider.refused → R e d') :
    (ledger rules).wp (createRefund api input) Q R held δ d := by
  refine (wp_bind _ _).mpr (wp_answer fun d₁ r₁ _ a => ?_)
  refine (wp_bind _ _).mpr (wp_call fun d₂ r₂ i₂ => ?_)
  have hev : LedgerEvolves d d₂ := (ledger_elapse r₁.elapse).trans (ledger_elapse r₂.elapse)
  have houtcome := api.payments.createRefund_outcome input a.choice d₂.provider
  -- the row and its payment are the ones read before, as far as the call depends on them
  obtain ⟨r', hr', hpay, hkey'⟩ := hev.refunds _ _ hr
  obtain ⟨p', hp', -, hcharge'⟩ := hev.payments.find _ _ hp
  have hmove : LedgerMove rules d₂
      (d₂.onProvider fun state => (api.payments.createRefund input a.choice state).1) :=
    .called input r' p' _ (Table.mem_of_find hr') (hkey'.trans hkey) (hpay ▸ hp')
      (hcharge' ▸ hcharge) houtcome rfl rfl
  refine ⟨ledger_guarantee_of_eq i₂ hmove (i₂.1.onProvider _) rfl rfl, ?_⟩
  refine wp_ofExcept (fun result hresult => ?_) fun e he => ?_
  · rw [hresult] at houtcome
    exact hok _ result (hev.trans hmove.evolves) houtcome.reported
  · rw [he] at houtcome
    exact herr _ e (hev.trans hmove.evolves) houtcome.rejected

/-- A refund that was read pending may be submitted: what fails without being retried was refused. -/
theorem wp_submitRefund {api : Api} {refund : Refund} {p : Payment} {account : Option String}
    {chargeId : String} (hlegal : Legal d)
    (hr : Table.find refund.id d.refunds = some refund)
    (hp : Table.find refund.paymentId d.payments = some p) (hcharge : p.stripeChargeId ≠ none) :
    (ledger rules).wp (submitRefund api refund account chargeId)
      (fun _ _ _ _ => True) (fun _ _ => True) held δ d := by
  have hmem := Table.mem_of_find hr
  have hamount : Money.fromCents refund.amountCents refund.currency =
      .ok { amountCents := refund.amountCents, currency := refund.currency } := by
    have hpos := hlegal.refunds.amount_check refund hmem
    have hint4 := hlegal.refunds.amount_int4 refund hmem
    exact Money.fromCents_of_range (by omega) (by omega)
  refine wp_tryCatch (wp_mono (wp_frame (P := ledger rules) (J := LedgerEvolves d)
    (Q := fun _ _ _ _ => True) (R := fun e (d' : Db) => rules.recorded →
      isRetryableStripeError e = true ∨ refund.idempotencyKey ∈ d'.provider.refused)
    (fun _ _ h hd => hd.trans (LedgerMove.evolves h)) (.refl d) ?_) (fun _ _ _ _ _ => trivial)
    fun _ _ h => h) fun e held δ d₁ he => ?_
  · refine (wp_bind _ _).mpr (wp_ofExcept (fun amount _ => ?_) fun e he => ?_)
    case refine_2 => cases hamount.symm.trans he
    refine (wp_bind _ _).mpr (wp_createRefund hr hp hcharge rfl (fun d₂ result hev hrep => ?_)
      fun d₂ e _ he _ => he)
    refine (wp_bind _ _).mpr (wp_mono (wp_applySettlement
      (R := fun e => rules.recorded → isRetryableStripeError e = true) (fun left e _ he => ?_)
      fun hrec d₃ h₃ r₃ hr₃ => ?_) (fun _ _ _ _ _ => trivial) fun e _ he hrec => .inl (he hrec))
    · by_cases hrec : rules.recorded
      · have hrecoverable : Recoverable left e := he.elim (rules.fault hrec).1 fun ⟨id, h⟩ =>
          (rules.fault hrec).2 id h
        exact hrecoverable.symm.imp_right fun h _ => h
      · exact .inr fun h => absurd h hrec
    · obtain ⟨r', hr', -, hkey⟩ := (hev.trans h₃).refunds _ _ hr
      obtain rfl : r' = r₃ := Option.some.inj (hr'.symm.trans hr₃)
      refine ReportedAs.source ?_
      rw [hkey]
      exact hrep.evolves h₃
  · split
    · trivial
    · refine (wp_bind _ _).mpr (wp_mono (wp_settleReported fun hrec d₂ h₂ r₂ hr₂ => ?_)
        (fun _ _ _ _ _ => trivial) fun _ _ h => h)
      obtain ⟨r', hr', hpay, hkey⟩ := (he.2.trans h₂).refunds _ _ hr
      obtain rfl : r' = r₂ := Option.some.inj (hr'.symm.trans hr₂)
      refine ⟨fun _ h => by simp at h, fun _ => .inl ?_⟩
      rw [hkey]
      exact h₂.provider.refused _ ((he.1 hrec).resolve_left ‹_›)

theorem executeRefund_safe (api : Api) (refundId : String) :
    (ledger rules).Safe (discard (executeRefund api refundId)) := by
  refine fun d _ => (wp_map _ _).mpr ((wp_bind _ _).mpr
    (wp_read (fun _ _ _ => trivial) fun d₁ _ i₁ => ?_))
  split
  · trivial
  rename_i refund payment hrow
  obtain ⟨r, hr, he⟩ := Option.map_eq_some_iff.mp hrow
  cases he
  obtain rfl : refund.id = refundId := Table.key_of_find hr
  obtain ⟨p, hp⟩ := exists_payment i₁.1 (Table.mem_of_find hr)
  split
  · trivial
  dsimp only [id_eq]
  rw [hp, Option.bind_some]
  split
  · refine (wp_bind _ _).mpr (wp_settleReported fun _ d₂ h₂ r₂ hr₂ => ?_)
    obtain ⟨r', hr', hpay, -⟩ := h₂.refunds _ _ hr
    obtain rfl : r' = r₂ := Option.some.inj (hr'.symm.trans hr₂)
    -- the charge is looked up on the payment read before, which has none
    refine ⟨fun _ h => by simp at h, fun _ => .inr (.inr fun q hq hid => ?_)⟩
    obtain ⟨q₁, hq₁, hid₁, hcharge⟩ := h₂.payments.mem q hq
    have hfind := Table.find_of_mem i₁.1.payments.pkey hq₁
    rw [show Keyed.key q₁ = refund.paymentId from hid₁.trans (hid.trans hpay), hp,
      Option.some.injEq] at hfind
    rw [hcharge, ← hfind]
    assumption
  · refine (wp_bind _ _).mpr (wp_ensure (fun _ => ?_) fun _ => trivial)
    exact wp_submitRefund i₁.1 hr hp (by simp_all)

/-- An update that says what the provider said is applied to the refund it is about. -/
theorem wp_applyProviderUpdate {input : ProviderUpdate}
    (hheard : rules.recorded → ReportedAs input.stripeRefundId input.idempotencyKey input.status d) :
    (ledger rules).wp (applyProviderUpdate input) (fun _ _ _ _ => True) (fun _ _ => True)
      held id d := by
  refine (wp_bind _ _).mpr (wp_read (fun _ _ _ => trivial) fun d₁ r₁ i₁ => ?_)
  split
  · trivial
  rename_i refund hfound
  refine wp_settleReported fun hrec d₂ h₂ r₂ hr₂ => ?_
  have hmem := List.mem_of_find?_eq_some hfound
  have hreported := ((hheard hrec).evolves (ledger_elapse r₁.elapse)).concerned (i₁.2 hrec) hmem
    (List.find?_some hfound)
  obtain ⟨r', hr', -, hkey⟩ := h₂.refunds _ _ (Table.find_of_mem i₁.1.refunds.pkey hmem)
  obtain rfl : r' = r₂ := Option.some.inj (hr'.symm.trans hr₂)
  refine ReportedAs.source ?_
  rw [hkey]
  exact hreported.evolves h₂

theorem refundEvent_safe (stripeRefundId status : String) :
    (ledger rules).Safe (refundEvent stripeRefundId status) := by
  refine fun d _ => (wp_bind _ _).mpr (wp_call fun d₁ _ i₁ => ?_)
  have hmove : LedgerMove rules d₁
      (d₁.onProvider (ProviderState.report stripeRefundId (normaliseStatus status))) :=
    .reported stripeRefundId (normaliseStatus status) rfl rfl rfl
  refine ⟨ledger_guarantee_of_eq i₁ hmove (i₁.1.onProvider _) rfl rfl, ?_⟩
  split
  · trivial
  rename_i s hs
  obtain rfl : s.id = stripeRefundId := Table.key_of_find hs
  refine wp_applyProviderUpdate fun _ => ?_
  refine ⟨_, Table.mem_update.mpr ⟨s, Table.mem_of_find hs, rfl⟩, ?_⟩
  simp [Keyed.key]

/-- The move that a reservation commits, and the lock it needs for it. -/
theorem guarantee_reserve {d d' : Db} (hinv : (ledger rules).Inv d) {input : ReserveRefundInput}
    {p : Payment} {r : Refund} (hreserves : Reserves input p r d)
    (hrefunds : d'.refunds = d.refunds ++ [r]) (hpayments : d'.payments = d.payments)
    (hprovider : d'.provider = d.provider) (hlegal : Legal d') (hheld : .payment p.id ∈ held) :
    (ledger rules).Guarantee held d d' := by
  refine ledger_guarantee hinv (.reserved input p r hreserves hrefunds hpayments hprovider) hlegal
    (fun id hid q hq => ⟨hpayments ▸ hq, ?_⟩) fun id _ q hq => ?_
  · have hne : r.paymentId ≠ id := fun he => hid (he ▸ hreserves.payment ▸ hheld)
    simp [refundsOf, hrefunds, hne]
  · rw [hrefunds]
    exact Table.find_append_of_some hq

/-- A reservation may end its transaction. -/
theorem wp_reserve {api : Api} {input : ReserveRefundInput} :
    (ledger rules).wp (reserveInTransaction api input)
      ((ledger rules).Commits .plain fun _ _ _ _ => True) (fun _ _ => True) [] id d := by
  refine wp_reserveInTransaction (fun _ _ _ h => h) (fun _ _ => trivial) (fun _ => ⟨rfl, rfl⟩)
    (fun m held d₁ _ _ d₂ _ i₂ _ hl => ?_)
    fun p r e id n m held d₁ _ _ hlock hreserves he d₂ r₂ i₂ _ hl => ?_
  · exact ⟨ledger_guarantee_of_eq i₂ (.unchanged rfl rfl rfl) (of_decide_eq_true hl) rfl rfl, trivial⟩
  · exact ⟨guarantee_reserve i₂ (hreserves.same (ledger_samePayment r₂.elapse hlock)) rfl rfl rfl
      (of_decide_eq_true hl) hlock, trivial⟩

/-- A reservation alone, with the transaction around it. -/
theorem reserve_safe (api : Api) (input : ReserveRefundInput) :
    (ledger rules).Safe
      (transaction (S := store) .plain (discard (reserveInTransaction api input))) := by
  refine fun d _ => wp_transaction (fun _ _ _ => trivial) (fun _ _ _ _ _ => trivial) fun d₁ _ _ => ?_
  exact (wp_map _ _).mpr wp_reserve

theorem requestRefund_safe (api : Api) (input : RequestRefundInput) :
    (ledger rules).Safe (discard (requestRefund api input)) := by
  refine fun d _ => (wp_map _ _).mpr (wp_withSerializationRetry (J := fun _ => True)
    (fun _ _ _ h => h) (fun left held δ d₁ _ => ?_) trivial)
  refine wp_transaction (fun _ _ _ => .inr trivial) (fun _ _ _ _ _ => .inr trivial) fun d₂ _ _ => ?_
  refine (wp_bind _ _).mpr (wp_mono wp_reserve (fun reserved held δ d₃ h => ?_)
    fun _ _ _ => .inr trivial)
  split
  · exact .inr trivial
  · exact h

theorem settleReported_safe (h : ¬ rules.recorded) (input : SettlementInput) :
    (ledger rules).Safe (settleReported input) :=
  fun _ _ => wp_settleReported fun hrec => absurd hrec h

theorem handleRefund_safe (h : ¬ rules.recorded) (object : RefundObject) :
    (ledger rules).Safe (handleRefund object) := by
  refine fun d _ => ?_
  unfold handleRefund
  split
  · trivial
  · exact wp_applyProviderUpdate fun hrec => absurd hrec h

end Submit

/-- What runs on the ledger when each settlement says what the provider said: reservations,
submissions, and the events in which the provider reports a status. -/
inductive SubmissionOperation : Tx Unit → Prop where
  | request (api : Api) (input : RequestRefundInput) :
      SubmissionOperation (discard (requestRefund api input))
  | reserve (api : Api) (input : ReserveRefundInput) : SubmissionOperation
      (transaction (S := store) .plain (discard (reserveInTransaction api input)))
  | execute (api : Api) (refundId : String) :
      SubmissionOperation (discard (executeRefund api refundId))
  | event (stripeRefundId status : String) :
      SubmissionOperation (refundEvent stripeRefundId status)

/-- What runs on the ledger at all: settlements and webhooks may also say anything. -/
inductive RefundOperation : Tx Unit → Prop where
  | submission {c : Tx Unit} (h : SubmissionOperation c) : RefundOperation c
  | settle (input : SettlementInput) : RefundOperation (settleReported input)
  | webhook (object : RefundObject) : RefundOperation (handleRefund object)

theorem SubmissionOperation.safe {rules : LedgerRules} {c : Tx Unit} (h : SubmissionOperation c) :
    (ledger rules).Safe c := by
  cases h with
  | request api input => exact requestRefund_safe api input
  | reserve api input => exact reserve_safe api input
  | execute api refundId => exact executeRefund_safe api refundId
  | event stripeRefundId status => exact refundEvent_safe stripeRefundId status

theorem RefundOperation.safe {rules : LedgerRules} (hrules : ¬ rules.recorded) {c : Tx Unit}
    (h : RefundOperation c) : (ledger rules).Safe c := by
  cases h with
  | submission h => exact h.safe
  | settle input => exact settleReported_safe hrules input
  | webhook object => exact handleRefund_safe hrules object

end BookingApp

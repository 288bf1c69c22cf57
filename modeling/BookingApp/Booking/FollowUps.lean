import BookingApp.Booking.Moving
import BookingApp.Payment.Settling

/-!
# What follows up on a booking keeps to the protocol

Reminders are queued for a booking that was read confirmed some time before. A refund is
requested and settled with its payment locked. A stored event becomes processed once what
it asks for has gone through.
-/

set_option autoImplicit false

namespace BookingApp

open ReadCommitted ReadCommitted.Proto

variable {rules : BookingRules} {held : List Lock} {δ : Db → Db} {d : Db}

section Reminders

/-- A reminder that is queued is one of the booking, and announces nothing. -/
theorem runs_queueReminder {booking : Booking} {offsetMinutes : Int} {managementToken : String}
    {channel : NotificationChannel} {Q : Bool → List Lock → (Db → Db) → Db → Prop}
    (h : ∀ d' fresh notifications events, (lifecycle rules).Elapse held d d' →
      (∀ n ∈ notifications, n.bookingId = booking.id) → announcements events = [] →
      Q fresh held
        (fun x => ((δ x).onNotifications (· ++ notifications)).onOutbox (· ++ events)) d') :
    Runs (lifecycle rules) (queueReminder booking offsetMinutes managementToken channel) Q held δ d := by
  refine .freshId fun d₁ r₁ _ id => .bind (wp_modify (fun _ _ _ => trivial) fun d₂ r₂ _ _ => ?_)
  rw [List.append_nil]
  have r := r₁.trans r₂.elapse
  split
  · rename_i hfresh
    rw [if_neg (of_decide_eq_true hfresh)]
    refine .insertAt fun d₃ r₃ _ => .ret (h d₃ _ [_] [_] (r.trans r₃) (fun n hn => ?_) rfl)
    rw [List.mem_singleton.mp hn]
  · rename_i hfresh
    rw [if_pos (by simpa using hfresh), Bool.eq_false_iff.mpr hfresh]
    have hend := h d₂ false [] [] r (by simp) rfl
    simp only [List.append_nil] at hend
    exact .ret hend

/-- The commit of a reminder. -/
theorem guarantee_reminded (hrules : rules.Sound) (hinv : (lifecycle rules).Inv d) {d' : Db}
    {bookingId : String} {notifications : List Notification} {events : List OutboxEvent}
    (hnotifications : d'.notifications = d.notifications ++ notifications)
    (hevents : d'.outboxEvents = d.outboxEvents ++ events)
    (hrest : d' = { d with
      managementTokens := d'.managementTokens, notifications := d'.notifications
      outboxEvents := d'.outboxEvents })
    (hassume : rules.conditions.Assume (.reminder bookingId) d) (hexists : Exists bookingId d)
    (htokens : ∀ t ∈ d'.managementTokens, t ∈ d.managementTokens ∨ t.bookingId = bookingId)
    (hqueued : ∀ n ∈ notifications, n.bookingId = bookingId) (hsilent : announcements events = [])
    (hlegal : Legal d') : (lifecycle rules).Guarantee held d d' := by
  refine lifecycle_guarantee hrules hinv (.reminded bookingId d'.managementTokens notifications events
    hassume hexists htokens hqueued hsilent ?_) hlegal ?_
  · rw [hrest, hnotifications, hevents]
  · rw [hrest]
    exact {}

/-- What a reminder has written before it decides whether anybody was sent its link. -/
structure Reminds (bookingId : String) (δ : Db → Db) (token : ManagementToken)
    (notifications : List Notification) (events : List OutboxEvent) : Prop where
  view : ∀ x, δ x = { x with
    managementTokens := x.managementTokens ++ [token]
    notifications := x.notifications ++ notifications
    outboxEvents := x.outboxEvents ++ events }
  token : token.bookingId = bookingId
  queued : ∀ n ∈ notifications, n.bookingId = bookingId
  silent : announcements events = []

/-- The link comes first. -/
theorem Reminds.link {bookingId : String} {token : ManagementToken} (h : token.bookingId = bookingId) :
    Reminds bookingId (fun x => x.onTokens (· ++ [token])) token [] [] where
  view x := by simp [Db.onTokens]
  token := h
  queued := by simp
  silent := rfl

/-- Another reminder over the same link. -/
theorem Reminds.more {bookingId : String} {token : ManagementToken}
    {notifications others : List Notification} {events further : List OutboxEvent}
    (h : Reminds bookingId δ token notifications events) (hqueued : ∀ n ∈ others, n.bookingId = bookingId)
    (hsilent : announcements further = []) :
    Reminds bookingId (fun x => ((δ x).onNotifications (· ++ others)).onOutbox (· ++ further)) token
      (notifications ++ others) (events ++ further) where
  view x := by simp [h.view, Db.onNotifications, Db.onOutbox]
  token := h.token
  queued n hn := (List.mem_append.mp hn).elim (h.queued n) (hqueued n)
  silent := by rw [announcements_append, h.silent, hsilent, List.append_nil]

/-- A link that nobody was sent is deleted again. -/
theorem runs_deleteUnsent (hrules : rules.Sound) {bookingId : String} {token : ManagementToken}
    {notifications : List Notification} {events : List OutboxEvent}
    (h : Reminds bookingId δ token notifications events) (hexists : Exists bookingId d)
    {unsent : Prop} [Decidable unsent] {tokenHash : String} :
    Runs (lifecycle rules) (if unsent then deleteToken tokenHash else pure ())
      ((lifecycle rules).Commits (.reminder bookingId) fun _ _ _ _ => True) held δ d := by
  have htoken : ∀ (x : Db), ∀ t ∈ (δ x).managementTokens, t ∈ x.managementTokens ∨ t.bookingId = bookingId := by
    intro x t ht
    rw [h.view] at ht
    refine (List.mem_append.mp ht).imp_right fun hnew => ?_
    rw [List.mem_singleton.mp hnew]
    exact h.token
  split
  · refine wp_modify (fun _ _ _ => trivial) fun d₁ r₁ _ _ d' r i ha hl => ?_
    have hexists' := elapse_exists (r₁.elapse.trans (r.elapse.weaken fun _ hl =>
      List.mem_append_left _ hl)) hexists
    refine ⟨guarantee_reminded hrules i ?_ ?_ ?_ ha hexists' (fun t ht => ?_) h.queued h.silent
      (of_decide_eq_true hl), trivial⟩
    · simp [Db.onTokens, h.view]
    · simp [Db.onTokens, h.view]
    · simp [Db.onTokens, h.view]
    · exact htoken d' t (List.mem_filter.mp ht).1
  · refine .ret fun d' r i ha hl => ⟨guarantee_reminded hrules i ?_ ?_ ?_ ha
      (elapse_exists r.elapse hexists) (htoken d') h.queued h.silent (of_decide_eq_true hl), trivial⟩
    · simp [h.view]
    · simp [h.view]
    · simp [h.view]

theorem runs_fireOnce (hrules : rules.Sound) {api : Api} {input : FireInput} {booking : Booking}
    (hexists : Exists booking.id d) :
    Runs (lifecycle rules) (fireOnce api input booking)
      ((lifecycle rules).Commits (.reminder booking.id) fun _ _ _ _ => True) [] id d := by
  refine .bind (.answer fun d₁ r₁ _ token => .insertAt fun d₂ r₂ _ => .ret ?_)
  refine .bind (runs_queueReminder fun d₃ email mails mailed r₃ hmails hmailed => ?_)
  refine .answer fun d₄ r₄ _ phone => ?_
  have hexists' := elapse_exists (r₁.trans (r₂.trans (r₃.trans r₄))) hexists
  dsimp only
  split
  · refine .bind (runs_queueReminder fun d₅ sms texts texted r₅ htexts htexted => ?_)
    exact runs_deleteUnsent hrules (((Reminds.link (by exact rfl)).more hmails hmailed).more htexts htexted)
      (elapse_exists r₅ hexists')
  · refine .bind (.ret ?_)
    exact runs_deleteUnsent hrules ((Reminds.link (by exact rfl)).more hmails hmailed) hexists'

theorem runs_fire (hrules : rules.Sound) {api : Api} {input : FireInput} :
    Runs (lifecycle rules) (fire api input) (fun _ _ _ _ => True) held δ d := by
  refine .query fun d₁ _ _ => ?_
  split
  · exact .ret trivial
  rename_i booking hfind
  obtain ⟨hfind, -⟩ := Option.filter_eq_some_iff.mp hfind
  have hid : booking.id = input.bookingId := Table.key_of_find hfind
  have hexists : Exists booking.id d₁ := ⟨booking, hid ▸ hfind⟩
  split
  · exact .ret trivial
  split
  · exact .ret trivial
  split
  · exact .ret trivial
  · exact .bind (.mono (.withSerializationRetry fun _ _ _ d₂ r₂ => .transaction fun d₃ r₃ _ =>
      runs_fireOnce hrules (elapse_exists (r₂.trans r₃) hexists)) fun _ _ _ _ _ => .ret trivial)

end Reminders

section Refunds

theorem runs_requestRefund (hrules : rules.Sound) (hallowed : rules.refunds) {api : Api}
    {input : RequestRefundInput} :
    Runs (lifecycle rules) (requestRefund api input) (fun _ _ _ _ => True) held δ d := by
  refine .withSerializationRetry fun _ _ _ _ _ => .transaction fun d₁ _ _ => .bind
    (wp_reserveInTransaction (fun _ _ _ h => h) (fun _ _ => trivial) (by exact fun _ => ⟨rfl, rfl⟩)
      (fun _ _ _ _ _ => .fail) fun p r e id n m held' d₂ _ r₂ hlock hreserves hevent => ?_)
  refine .ret fun d' r' i _ hl => ?_
  have hreserved := refundReserved_of_reserves hreserves (locked_payment r'.elapse hlock)
  refine ⟨lifecycle_guarantee hrules i (.requested [r] [e] hallowed (fun q hq => ?_) ?_ rfl)
    (of_decide_eq_true hl) ?_, trivial⟩
  · exact List.mem_singleton.mp hq ▸ hreserved
  · simp [announcements, hevent]
  · exact {
      payment := fun id hnot q hq => by
        have hne : r.paymentId ≠ id := fun he => hnot (he ▸ hreserves.payment ▸ hlock)
        exact ⟨hq, by simp [refundsOf, Db.onRefunds, Db.onOutbox, hne]⟩
      refund := fun id _ => sameRow_append id rfl }

/-- The totals of a payment are written from what was read of it before it was locked. -/
theorem runs_recomputePaymentTotals (hδ : ∀ x, (δ x).payments = x.payments) {site : Site}
    {paymentId : String} {Q : Unit → List Lock → (Db → Db) → Db → Prop}
    (h : ∀ d₁ d' p refunded, (lifecycle rules).Elapse held d d₁ → (lifecycle rules).Inv d₁ →
      Table.find paymentId d₁.payments = some p → (lifecycle rules).Elapse held d₁ d' →
      Q () (held ++ [.payment paymentId]) (fun x => (δ x).onPayments (Table.update [paymentId]
        (Payment.withTotals refunded (paymentStatusFor p.amountCents refunded p.status)))) d') :
    Runs (lifecycle rules) (recomputePaymentTotals site paymentId) Q held δ d := by
  refine .bind (wp_select (fun _ _ _ => trivial) fun d₁ r₁ i₁ _ => .orThrow fun p hp => ?_)
  refine .bind (wp_select (fun _ _ _ => trivial) fun d₂ r₂ _ _ => .discard (wp_updatePaymentAt
    (fun _ _ _ => trivial) (fun _ _ _ _ => trivial) fun d₃ r₃ _ _ _ => ?_))
  rw [hδ] at hp
  exact h d₁ d₃ p _ r₁.elapse i₁ hp (r₂.elapse.trans r₃.elapse)

/-- The commit of a settlement, which holds the locks of the refund and of its payment. -/
theorem guarantee_settled (hrules : rules.Sound) (hinv : (lifecycle rules).Inv d) {d' : Db}
    {input : SettlementInput} {settledAt : Option Int} {r : Refund} {p : Payment} {refunded : Int}
    {events : List OutboxEvent}
    (hrefunds : d'.refunds = Table.update [input.refundId] (input.applyTo settledAt) d.refunds)
    (hpayments : d'.payments = Table.update [r.paymentId]
      (Payment.withTotals refunded (paymentStatusFor p.amountCents refunded p.status)) d.payments)
    (hevents : d'.outboxEvents = d.outboxEvents ++ events)
    (hrest : d' = { d with
      refunds := d'.refunds, payments := d'.payments, outboxEvents := d'.outboxEvents })
    (hallowed : rules.refunds) (hcurrent : rules.tracks → p.status ∈ RECEIVED_PAYMENT_STATUSES)
    (hr : Table.find input.refundId d.refunds = some r) (hsilent : announcements events = [])
    (hlegal : Legal d') (hrefund : .refund input.refundId ∈ held)
    (hpayment : .payment r.paymentId ∈ held) : (lifecycle rules).Guarantee held d d' := by
  refine lifecycle_guarantee hrules hinv (.settled input settledAt r.paymentId p.amountCents refunded
    p.status events hallowed hcurrent ⟨r, Table.mem_of_find hr, rfl⟩ hsilent ?_) hlegal ?_
  · rw [hrest, hrefunds, hpayments, hevents]
  · exact {
      booking := fun _ _ _ hx => by rw [hrest]; exact hx
      created := fun x hx => .inl ⟨x, by rw [hrest] at hx; exact hx, rfl⟩
      blockedTimes := fun t ht => .inl (by rw [hrest] at ht; exact ht)
      timeOff := fun t ht => .inl (by rw [hrest] at ht; exact ht)
      openCancellations := fun q hq _ => .inl (by rw [hrest] at hq; exact hq)
      openReschedules := fun q hq _ => .inl (by rw [hrest] at hq; exact hq)
      payment := fun id hid q hq => by
        have hne : r.paymentId ≠ id := fun he => hid (he ▸ hpayment)
        refine ⟨?_, refundsOf_settle hinv.1 hr hrefunds hne⟩
        rw [hpayments, Table.find_update_of_notMem (by simp) (by simpa using hne.symm)]
        exact hq
      refund := fun id hid => sameRow_update (by exact fun _ => rfl) hrefunds
        fun he => hid (List.mem_singleton.mp he ▸ hrefund)
      cancellation := fun _ _ _ hq => by rw [hrest]; exact hq
      reschedule := fun _ _ _ hq => by rw [hrest]; exact hq }

theorem runs_settleOnce (hrules : rules.Sound) (hallowed : rules.refunds) {site : Site}
    {input : SettlementInput} :
    Runs (lifecycle rules) (settleOnce site input)
      ((lifecycle rules).Commits (.settlement site) fun _ _ _ _ => True) [] id d := by
  refine .bind (wp_selectForUpdate (fun _ _ _ => trivial) fun d₁ _ _ _ => ?_)
  split
  · exact .unchanged hrules fun _ _ => trivial
  rename_i r hr
  split
  · exact .unchanged hrules fun _ _ => trivial
  refine .bind (wp_settlementTime fun d₂ r₂ settledAt => .bind (wp_modify (fun _ _ _ => trivial)
    fun d₃ r₃ _ _ => .orThrow fun q hq => ?_))
  have hr₃ := locked_refund (r₂.trans r₃.elapse) (by simp) r hr
  obtain rfl : r = q := Option.some.inj (hr₃.symm.trans hq)
  refine .bind (runs_recomputePaymentTotals (by exact fun _ => rfl)
    fun d₄ d₅ p refunded r₄ i₄ hp r₅ => ?_)
  have hr₄ := locked_refund r₄ (by simp) r hr₃
  have hr₅ := locked_refund r₅ (by simp) r hr₄
  have hcurrent : rules.tracks → p.status ∈ RECEIVED_PAYMENT_STATUSES := fun ht =>
    rules.received ht d₄ i₄.2 r (Table.mem_of_find hr₄) p hp
  split
  · refine wp_insertAt (fun _ _ _ => trivial) fun d₆ r₆ _ d' r₇ i _ hl => ?_
    have hr' := locked_refund (r₆.elapse.trans r₇.elapse) (by simp) r hr₅
    exact ⟨guarantee_settled hrules i rfl rfl rfl rfl hallowed hcurrent hr' rfl (of_decide_eq_true hl)
      (by simp) (by simp), trivial⟩
  · refine .ret fun d' r₇ i _ hl => ?_
    have hr' := locked_refund r₇.elapse (by simp) r hr₅
    exact ⟨guarantee_settled hrules i rfl rfl (List.append_nil _).symm rfl hallowed hcurrent hr' rfl
      (of_decide_eq_true hl) (by simp) (by simp), trivial⟩

theorem runs_applySettlement (hrules : rules.Sound) (hallowed : rules.refunds) {site : Nat → Site}
    {input : SettlementInput} :
    Runs (lifecycle rules) (applySettlement site input) (fun _ _ _ _ => True) held δ d :=
  .withSerializationRetry fun _ _ _ _ _ => .transaction fun _ _ _ => runs_settleOnce hrules hallowed

theorem CreateRefundOutcome.ended {input : CreateRefundInput} {id : String} {state state' : ProviderState}
    {result : Except Failure RefundResult} (h : CreateRefundOutcome input state state' result)
    (he : state.Ended id) : state'.Ended id := by
  cases h with
  | accepted refundId status result => exact ⟨he.known, he.closed⟩
  | replayed r status => exact he
  | refused e => exact ⟨he.known, he.closed⟩
  | unreached e => exact he

theorem createRefund_eq (api : Api) (input : CreateRefundInput) :
    createRefund api input = callProvider (api.payments.createRefund input) := rfl

theorem runs_submitRefund (hrules : rules.Sound) (hallowed : rules.refunds) {api : Api} {refund : Refund}
    {stripeAccountId : Option String} {chargeId : String} :
    Runs (lifecycle rules) (submitRefund api refund stripeAccountId chargeId) (fun _ _ _ _ => True)
      held δ d := by
  refine .tryCatch (.ofExcept fun amount _ => ?_) fun e held δ d => ?_
  · rw [createRefund_eq]
    exact runs_callProvider hrules (fun choice state id he =>
      (api.payments.createRefund_outcome _ choice state).ended he) fun d₁ choice result _ _ =>
        .bind (.mono (runs_applySettlement hrules hallowed) fun _ _ _ _ _ => .ret trivial)
  · split
    · exact .fail
    · exact .bind (.mono (runs_applySettlement hrules hallowed) fun _ _ _ _ _ => .ret trivial)

theorem runs_executeRefund (hrules : rules.Sound) (hallowed : rules.refunds) {api : Api}
    {refundId : String} :
    Runs (lifecycle rules) (executeRefund api refundId) (fun _ _ _ _ => True) held δ d := by
  refine .read fun d₁ _ _ => ?_
  split
  · exact .fail
  split
  · exact .ret trivial
  split
  · exact .bind (.mono (runs_applySettlement hrules hallowed) fun _ _ _ _ _ => .ret trivial)
  · exact .ensure fun _ => runs_submitRefund hrules hallowed

theorem runs_handleRefund (hrules : rules.Sound) (hallowed : rules.refunds) {object : RefundObject} :
    Runs (lifecycle rules) (handleRefund object) (fun _ _ _ _ => True) held δ d := by
  unfold handleRefund
  split
  · exact .ret trivial
  refine .read fun d₁ _ _ => ?_
  split
  · exact .ret trivial
  · exact runs_applySettlement hrules hallowed

end Refunds

section Events

/-- An event is stored with what it really says of its session. -/
theorem runs_recordStripe (hrules : rules.Sound) {stripeEventId type : String}
    {payload : StripeEventObject} (hreports : rules.Reports payload) :
    Runs (lifecycle rules) (recordStripe stripeEventId type payload) (fun _ _ _ _ => True) held δ d := by
  refine .tryCatch (.transaction fun d₁ _ _ => .insertAt fun d₂ _ _ => .ret fun d' r i _ hl => ?_)
    fun e held δ d => ?_
  · exact ⟨lifecycle_guarantee hrules i (.heard _ rfl hreports rfl) (of_decide_eq_true hl) {}, trivial⟩
  · split
    · exact .ret trivial
    · exact .fail

/-- An event may be marked once it was handled. -/
theorem runs_markProcessed (hrules : rules.Sound) {stripeEventId : String}
    (h : ∀ d' e, (lifecycle rules).Elapse [] d d' →
      Table.find stripeEventId d'.stripeWebhookEvents = some e → rules.handled e d') :
    Runs (lifecycle rules) (markProcessed stripeEventId) (fun _ _ _ _ => True) held δ d := by
  refine .now fun d₁ r₁ _ instant => .transaction fun d₂ r₂ _ =>
    wp_updateMany (fun _ _ _ => trivial) fun d₃ r₃ _ d' r i _ hl => ?_
  have r' := (r₁.weaken (by simp)).trans (r₂.trans (r₃.elapse.trans (r.elapse.weaken (by simp))))
  refine ⟨lifecycle_guarantee hrules i (.processed _ instant (fun id hid e he => ?_) rfl)
    (of_decide_eq_true hl) {}, trivial⟩
  obtain ⟨e₀, hmem, rfl⟩ := List.mem_map.mp hid
  rw [(of_decide_eq_true (List.mem_filter.mp hmem).2).1] at he
  exact h d' e r' he

theorem runs_markFailed (hrules : rules.Sound) {stripeEventId : String} {error : Failure} :
    Runs (lifecycle rules) (markFailed stripeEventId error) (fun _ _ _ _ => True) held δ d :=
  .transaction fun d₁ _ _ => wp_updateMany (fun _ _ _ => trivial) fun d₂ _ _ d' r i _ hl =>
    ⟨lifecycle_guarantee hrules i (.retried _ (fun e => e.attempts + 1) _ rfl) (of_decide_eq_true hl) {},
      trivial⟩

/-- The booking that an event is found to be about: the one that names the session, if one does. -/
def NamedBy (sessionId bookingId : String) (d : Db) : Prop :=
  ∀ b, d.bookings.find? (fun b => decide (b.stripeCheckoutSessionId = some sessionId)) = some b →
    b.id = bookingId

theorem runs_findBooking {sessionId : String} {clientReferenceId : Option String}
    {Q : Option String → List Lock → (Db → Db) → Db → Prop}
    (h : ∀ d₁ d' found, (lifecycle rules).Elapse held d d₁ → (lifecycle rules).Inv d₁ →
      (lifecycle rules).Elapse held d₁ d' → (∀ id ∈ found, NamedBy sessionId id d₁) →
      Q found held id d') :
    Runs (lifecycle rules) (findBooking sessionId clientReferenceId) Q held id d := by
  refine .read fun d₁ r₁ i₁ => ?_
  split
  · rename_i b hb
    refine .ret (h d₁ d₁ _ r₁ i₁ .refl fun id hid x hx => ?_)
    cases hid
    exact congrArg Booking.id (Option.some.inj (hx.symm.trans hb))
  · rename_i hnone
    have hnamed : ∀ found : Option String, ∀ id ∈ found, NamedBy sessionId id d₁ :=
      fun _ _ _ x hx => by cases hx.symm.trans hnone
    split
    · exact .ret (h d₁ d₁ none r₁ i₁ .refl (hnamed none))
    · exact .map (wp_read (fun _ _ _ => trivial) fun d₂ r₂ _ => h d₁ d₂ _ r₁ i₁ r₂.elapse (hnamed _))

/-- What a paid session leads to: its payment is recorded or the booking has left its hold, unless the
event speaks for another account. -/
theorem runs_confirmIfPaid (hrules : rules.Sound) {api : Api} {object : StripeEventObject}
    {eventId : String} (hreports : rules.Reports object) {Q : Unit → List Lock → (Db → Db) → Db → Prop}
    (hunpaid : object.paymentStatus ≠ some "paid" → Q () held id d)
    (hforeign : ∀ sessionId d₁ d', (lifecycle rules).Elapse held d d₁ → (lifecycle rules).Inv d₁ →
      (lifecycle rules).Elapse held d₁ d' → readString object.id = some sessionId →
      (∀ p, paymentOfSession sessionId d₁ = some p → readString object.account ≠ p.stripeAccountId) →
      Q () held id d')
    (hpaid : ∀ sessionId bookingId d₁ held' δ' d', (lifecycle rules).Elapse held d d₁ →
      (lifecycle rules).Inv d₁ → (lifecycle rules).Elapse [] d₁ d' →
      readString object.id = some sessionId → NamedBy sessionId bookingId d₁ →
      Received rules sessionId d' ∨ LeftHold bookingId d' → Q () held' δ' d') :
    Runs (lifecycle rules) (confirmIfPaid api object eventId) Q held id d := by
  unfold confirmIfPaid
  cases hsession : readString object.id with
  | none => exact .fail
  | some sessionId =>
    refine .bind (.ret ?_)
    split
    · exact .ret (hunpaid ‹_›)
    rename_i hstatus
    cases hamount : object.amountTotal with
    | none => exact .fail
    | some amountTotal =>
      refine .bind (.ret (.bind (.bind (runs_findBooking fun d₁ d₂ found r₁ i₁ r₂ hnamed => ?_))))
      cases found with
      | none => exact .fail
      | some bookingId =>
        have hcaptures : rules.captures sessionId amountTotal :=
          hreports sessionId amountTotal hsession (not_not.mp hstatus) hamount
        have hconfirm : ∀ d₃, (lifecycle rules).Elapse held d₂ d₃ → Runs (lifecycle rules) (do
            let instant ← now
            discard (confirmPaid api (object.confirmation bookingId sessionId eventId amountTotal
              ((eventTime object.created).getD instant)))) Q held id d₃ := by
          intro d₃ r₃
          refine .now fun d₄ r₄ _ instant => .discard (.mono (.since (runs_confirmPaid hrules hcaptures))
            fun _ held' δ' d' h => hpaid sessionId bookingId d₁ held' δ' d' r₁ i₁ ?_ hsession
              (hnamed _ rfl) h.1)
          exact ((r₂.trans (r₃.trans r₄)).weaken (by simp)).trans h.2
        refine .ret (.bind (.read fun d₃ r₃ i₃ => ?_))
        split
        · rename_i payment hpayment
          refine .ret ?_
          split
          · exact hconfirm d₃ r₃
          · rename_i haccount
            refine .ret (hforeign sessionId d₃ d₃ (r₁.trans (r₂.trans r₃)) i₃ .refl hsession fun p hp => ?_)
            cases hp.symm.trans hpayment
            simpa using haccount
        · rename_i hnone
          refine .read fun d₄ r₄ _ => .ret ?_
          split
          · exact hconfirm d₄ (r₃.trans r₄)
          · refine .ret (hforeign sessionId d₃ d₄ (r₁.trans (r₂.trans r₃)) i₃ r₄ hsession fun p hp => ?_)
            cases hp.symm.trans hnone

theorem runs_failSession (hrules : rules.Sound) {object : StripeEventObject} {eventId : String} :
    Runs (lifecycle rules) (failSession object eventId) (fun _ _ _ _ => True) held id d := by
  unfold failSession
  split
  · exact .ret trivial
  refine .bind (runs_findBooking fun _ d₁ found _ _ _ _ => ?_)
  cases found with
  | none => exact .ret trivial
  | some bookingId => exact runs_markPaymentFailed hrules

theorem runs_failByPaymentIntent (hrules : rules.Sound) {object : StripeEventObject} {eventId : String} :
    Runs (lifecycle rules) (failByPaymentIntent object eventId) (fun _ _ _ _ => True) held δ d := by
  unfold failByPaymentIntent
  split
  · exact .ret trivial
  refine .read fun d₁ _ _ => ?_
  split
  · exact .ret trivial
  · exact runs_markPaymentFailed hrules

/-- What an event leads to, as far as it is about a paid session. -/
theorem runs_dispatch (hrules : rules.Sound) (hallowed : rules.refunds) {api : Api} {type : String}
    {object : StripeEventObject} {eventId : String} {Q : Unit → List Lock → (Db → Db) → Db → Prop}
    (hother : stripeEventKind type ≠ .PAID → ∀ held δ d, Q () held δ d)
    (hpaid : stripeEventKind type = .PAID →
      Runs (lifecycle rules) (confirmIfPaid api object eventId) Q held id d) :
    Runs (lifecycle rules) (dispatch api type object eventId) Q held id d := by
  unfold dispatch
  cases hkind : stripeEventKind type with
  | REFUND =>
    exact .mono (runs_handleRefund hrules hallowed) fun _ _ _ _ _ => hother (by simp [hkind]) _ _ _
  | PAID => exact hpaid hkind
  | FAILED => exact .mono (runs_failSession hrules) fun _ _ _ _ _ => hother (by simp [hkind]) _ _ _
  | INTENT_FAILED =>
    exact .mono (runs_failByPaymentIntent hrules) fun _ _ _ _ _ => hother (by simp [hkind]) _ _ _
  | OTHER => exact .ret (hother (by simp [hkind]) _ _ _)

/-- What an event asks for leaves it handled, as the rules understand it. -/
def BookingRules.Handles (rules : BookingRules) : Prop :=
  ∀ api, rules.Admits api → ∀ event held d, (lifecycle rules).Inv d →
    Table.find event.stripeEventId d.stripeWebhookEvents = some event →
    Runs (lifecycle rules) (dispatch api event.type event.payload event.stripeEventId)
      (fun _ _ _ d' => ∀ d'' e, (lifecycle rules).Elapse [] d' d'' →
        Table.find event.stripeEventId d''.stripeWebhookEvents = some e → rules.handled e d'') held id d

/-- Rules that ask nothing of an event that was handled. -/
theorem BookingRules.Handles.of_forall (hrules : rules.Sound) (hallowed : rules.refunds)
    (h : ∀ e d, rules.handled e d) : rules.Handles := by
  intro api _ event held d i hevent
  have hreports : rules.Reports event.payload := hrules.reports d i.2 event (Table.mem_of_find hevent)
  refine runs_dispatch hrules hallowed (fun _ _ _ d' d'' e _ _ => h e d'') fun _ => ?_
  exact runs_confirmIfPaid hrules hreports (fun _ d'' e _ _ => h e d'')
    (fun _ _ _ _ _ _ _ _ d'' e _ _ => h e d'') fun _ _ _ _ _ _ _ _ _ _ _ _ d'' e _ _ => h e d''

theorem runs_handleStripeEvent (hrules : rules.Sound) (hhandles : rules.Handles) {api : Api}
    (hapi : rules.Admits api) {stripeEventId : String} :
    Runs (lifecycle rules) (handleStripeEvent api stripeEventId) (fun _ _ _ _ => True) held id d := by
  refine .read fun d₁ _ i₁ => ?_
  split
  · exact .ret trivial
  rename_i event hevent
  split
  · exact .ret trivial
  obtain rfl : event.stripeEventId = stripeEventId := Table.key_of_find hevent
  refine .tryCatch (.bind (.mono (hhandles api hapi event held d₁ i₁ hevent) fun _ held δ d₂ h =>
    runs_markProcessed hrules h)) fun e held δ d₂ => ?_
  exact .bind (.mono (runs_markFailed hrules) fun _ _ _ _ _ => .fail)

end Events

end BookingApp

import BookingApp.Booking.Protocol

/-!
# What becomes of a hold keeps to the protocol

Every path that confirms a hold, fails it or lets it lapse locks the row of the booking
and looks at its status again, so the status it writes from is the one the row has.
-/

set_option autoImplicit false

namespace BookingApp

open ReadCommitted ReadCommitted.Proto

variable {rules : BookingRules}

/-- The payment of the session was received, with an amount that is captured on it. -/
def Received (rules : BookingRules) (sessionId : String) (d : Db) : Prop :=
  ∃ p ∈ d.payments, p.stripeCheckoutSessionId = some sessionId ∧
    p.status ∈ RECEIVED_PAYMENT_STATUSES ∧ rules.captures sessionId p.amountCents

/-- The booking does not wait for its payment any more. -/
def LeftHold (bookingId : String) (d : Db) : Prop :=
  ∃ b, Table.find bookingId d.bookings = some b ∧ ¬ Life.InHold b.status

/-- A hold that is confirmed was not final. -/
theorem inHold_of_not_final {status : BookingStatus} (hconfirmed : status ≠ .CONFIRMED)
    (hfinal : ¬ isTerminal status = true) : Life.InHold status := by
  revert hconfirmed hfinal
  cases status <;> simp [Life.InHold, isTerminal, TERMINAL_BOOKING_STATUSES]

theorem not_inHold_of_final {status : BookingStatus} (hfinal : isTerminal status = true) :
    ¬ Life.InHold status := by
  revert hfinal
  cases status <;> simp [Life.InHold, isTerminal, TERMINAL_BOOKING_STATUSES]

theorem key_paid (input : ConfirmPaidInput) (p : Payment) : Keyed.key (input.paid p) = Keyed.key p := rfl

theorem Pays.received {input : ConfirmPaidInput} {bookingId : String} {d d' : Db}
    (h : Pays input bookingId d.payments d'.payments)
    (hcaptures : rules.captures input.sessionId input.amountTotalCents) :
    Received rules input.sessionId d' := by
  have hreceived : ∀ p, (input.paid p).status ∈ RECEIVED_PAYMENT_STATUSES := fun _ => by
    simp [ConfirmPaidInput.paid, RECEIVED_PAYMENT_STATUSES]
  generalize hpayments : d'.payments = payments at h
  cases h with
  | known p hp hsession =>
    refine ⟨input.paid p, ?_, hsession, hreceived p, hcaptures⟩
    rw [hpayments]
    refine Table.mem_update.mpr ⟨p, Table.mem_of_find hp, ?_⟩
    rw [if_pos (by simp [Keyed.key])]
  | new p hbooking hsession =>
    refine ⟨input.paid p, ?_, hsession, hreceived p, hcaptures⟩
    rw [hpayments]
    simp

/-- The payment of a session is a row of the table. -/
theorem find_of_paymentOfSession {d : Db} (hlegal : Legal d) {sessionId : String} {p : Payment}
    (h : paymentOfSession sessionId d = some p) :
    Table.find p.id d.payments = some p ∧ p.stripeCheckoutSessionId = some sessionId :=
  ⟨Table.find_of_mem hlegal.payments.pkey (List.mem_of_find?_eq_some h),
    by simpa using List.find?_some h⟩

theorem samePayment_update {d d' : Db} {ids : List String} {f : Payment → Payment}
    (hf : ∀ p, Keyed.key (f p) = Keyed.key p) (hpayments : d'.payments = Table.update ids f d.payments)
    (hrefunds : d'.refunds = d.refunds) {id : String} (hid : id ∉ ids) : SamePayment id d d' :=
  fun p hp => ⟨by rw [hpayments, Table.find_update_of_notMem hf hid]; exact hp,
    by rw [refundsOf, hrefunds, refundsOf]⟩

theorem samePayment_append {d d' : Db} {more : List Payment} (id : String)
    (hpayments : d'.payments = d.payments ++ more) (hrefunds : d'.refunds = d.refunds) :
    SamePayment id d d' :=
  fun p hp => ⟨by rw [hpayments]; exact Table.find_append_of_some hp,
    by rw [refundsOf, hrefunds, refundsOf]⟩

/-- The payment that a confirmation finds is locked, so it is there at the commit. -/
theorem runs_upsertPayment {booking : Booking} {input : ConfirmPaidInput} {held : List Lock}
    {δ : Db → Db} {d : Db} (hδ : ∀ x, (δ x).payments = x.payments)
    {Q : Unit → List Lock → (Db → Db) → Db → Prop}
    (h : ∀ d' pay more, (lifecycle rules).Elapse held d d' →
      (∀ d'', (lifecycle rules).Elapse (held ++ more) d' d'' →
        Pays input booking.id d''.payments (pay d''.payments) ∧
          ∀ id, .payment id ∉ held ++ more → SamePayment id d'' (d''.onPayments pay)) →
      Q () (held ++ more) (fun x => (δ x).onPayments pay) d') :
    Runs (lifecycle rules) (upsertPayment booking input) Q held δ d := by
  refine .freshId fun d₁ r₁ _ id => .now fun d₂ r₂ _ createdAt =>
    wp_modify (fun _ _ _ => trivial) fun d₃ r₃ i₃ _ => ?_
  have hview : paymentOfSession input.sessionId (δ d₃) = paymentOfSession input.sessionId d₃ := by
    rw [paymentOfSession, hδ, paymentOfSession]
  have r := r₁.trans (r₂.trans r₃.elapse)
  cases hp : paymentOfSession input.sessionId d₃ with
  | none =>
    rw [hview, hp]
    refine h d₃ _ [] r fun d₄ r₄ => ⟨.new _ rfl rfl, fun id _ => ?_⟩
    exact samePayment_append id rfl rfl
  | some p =>
    rw [hview, hp]
    refine h d₃ _ [.payment p.id] r fun d₄ r₄ => ⟨?_, fun id hid => ?_⟩
    · obtain ⟨hfind, hsession⟩ := find_of_paymentOfSession i₃.1 hp
      exact .known p (locked_payment r₄ (by simp) p hfind).1 hsession
    · have hne : id ∉ [p.id] := fun he => hid (by simp [List.mem_singleton.mp he])
      exact samePayment_update (key_paid input) (by rfl) (by rfl) hne

theorem runs_confirmOnce (hrules : rules.Sound) {api : Api} {input : ConfirmPaidInput}
    (hcaptures : rules.captures input.sessionId input.amountTotalCents) {held : List Lock}
    {δ : Db → Db} {d : Db} :
    Runs (lifecycle rules) (confirmOnce api input)
      (fun _ _ _ d' => Received rules input.sessionId d' ∨ LeftHold input.bookingId d') held δ d := by
  refine .now fun d₀ _ _ confirmedAt => .transaction fun d₁ _ _ =>
    .lockRow (fun _ _ _ _ => .fail) fun d₂ b _ i₂ hb => ?_
  dsimp only
  have hid : b.id = input.bookingId := Table.key_of_find hb
  rw [← hid] at hb
  have hleft : ¬ Life.InHold b.status → ∀ d', (lifecycle rules).Elapse [.booking b.id] d₂ d' →
      LeftHold input.bookingId d' := fun h d' r =>
    ⟨b, hid ▸ (locked_booking r (by simp)).row b hb, h⟩
  split
  · exact .unchanged hrules fun d' r => .inr (hleft (by simp [Life.InHold, *]) d' r)
  split
  · exact .unchanged hrules fun d' r => .inr (hleft (not_inHold_of_final ‹_›) d' r)
  have hhold := inHold_of_not_final ‹_› ‹_›
  refine .read fun d₃ r₃ _ => .orThrow fun row hrow => ?_
  have hb₃ := (locked_booking r₃ (by simp)).row b hb
  obtain rfl : b = row := Option.some.inj (hb₃.symm.trans (hid ▸ hrow))
  refine .ensure fun htransition => .updateBookingAt fun d₄ r₄ _ _ _ _ => ?_
  refine .bind (runs_upsertPayment ?_ fun d₅ pay more r₅ hpay => ?_)
  · exact fun _ => rfl
  refine .bind (.answer fun d₆ r₆ _ token => .insertAt fun d₇ r₇ _ => .ret ?_)
  refine .insertAt fun d₈ r₈ _ => .insertAt fun d₉ r₉ _ => .ret fun d' r i ha hl => ?_
  have r₅' := r₆.trans (r₇.trans (r₈.trans (r₉.trans r.elapse)))
  obtain ⟨hpays, hframe⟩ := hpay d' r₅'
  have hb₄ := (locked_booking r₄ (by simp)).row b hb₃
  have hb₅ := (locked_booking r₅ (by simp)).row b hb₄
  have hb' := (locked_booking r₅' (by simp)).row b hb₅
  refine ⟨lifecycle_guarantee hrules i (.confirmed input b _ _ _ _ (pay d'.payments) (hid ▸ ha) ?_
    hhold ?_ ?_ ?_ hcaptures hpays rfl) (of_decide_eq_true hl) ?_, .inl ?_⟩
  · exact {
      found := hb'
      id := fun _ => rfl
      terms := rfl
      status := htransition
      history := ⟨rfl, rfl, rfl⟩
      announced := .inr ⟨rfl, rfl⟩ }
  · rfl
  · rfl
  · rfl
  · exact {
      booking := frame_booking rfl (fun _ => rfl) (by simp)
      created := frame_created rfl fun _ => rfl
      payment := hframe }
  · exact hpays.received hcaptures

theorem runs_confirmPaid (hrules : rules.Sound) {api : Api} {input : ConfirmPaidInput}
    (hcaptures : rules.captures input.sessionId input.amountTotalCents) {held : List Lock}
    {δ : Db → Db} {d : Db} :
    Runs (lifecycle rules) (confirmPaid api input)
      (fun _ _ _ d' => Received rules input.sessionId d' ∨ LeftHold input.bookingId d') held δ d :=
  .withSerializationRetry fun _ _ _ _ _ => runs_confirmOnce hrules hcaptures

theorem key_failed (input : MarkPaymentFailedInput) (p : Payment) :
    Keyed.key (input.failed p) = Keyed.key p := rfl

/-- The pending payments of a booking are rows of the table. -/
theorem find_of_pendingPayments {d : Db} (hlegal : Legal d) {bookingId id : String}
    (h : id ∈ pendingPayments bookingId d) :
    ∃ p, Table.find id d.payments = some p ∧ p.status = .PENDING := by
  obtain ⟨p, hp, rfl⟩ := List.mem_map.mp h
  obtain ⟨hmem, hpending⟩ := List.mem_filter.mp hp
  exact ⟨p, Table.find_of_mem hlegal.payments.pkey hmem, (of_decide_eq_true hpending).2⟩

theorem runs_markPaymentFailed (hrules : rules.Sound) {input : MarkPaymentFailedInput}
    {held : List Lock} {δ : Db → Db} {d : Db} :
    Runs (lifecycle rules) (markPaymentFailed input) (fun _ _ _ _ => True) held δ d := by
  obtain ⟨bookingId, failureCode, failureMessage, cause⟩ := input
  refine .withSerializationRetry fun _ _ _ _ _ => .transaction fun d₁ _ _ =>
    .lockRow (fun _ _ _ _ => .unchanged hrules fun _ _ => trivial) fun d₂ b _ _ hb => ?_
  obtain rfl : b.id = bookingId := Table.key_of_find hb
  dsimp only
  split
  · exact .unchanged hrules fun _ _ => trivial
  have hhold : b.status = .PENDING_PAYMENT := not_not.mp ‹_›
  refine .read fun d₃ r₃ _ => .orThrow fun row hrow => ?_
  have hb₃ := (locked_booking r₃ (by simp)).row b hb
  obtain rfl : b = row := Option.some.inj (hb₃.symm.trans hrow)
  refine .ensure fun htransition => .updateBookingAt fun d₄ r₄ _ _ _ _ => ?_
  refine .updateMany fun d₅ r₅ i₅ => .insertAt fun d₆ r₆ _ => ?_
  refine wp_insertAt (fun _ _ _ => trivial) fun d₇ r₇ _ d' r i ha hl => ?_
  have r₅' := r₆.trans (r₇.elapse.trans r.elapse)
  have hb₅ := (locked_booking (r₄.trans (r₅.weaken (by simp))) (by simp)).row b hb₃
  have hb' := (locked_booking r₅' (by simp)).row b hb₅
  refine ⟨lifecycle_guarantee hrules i (.failed _ b _ _ _ (pendingPayments b.id d₅) ha ?_ hhold ?_ ?_
    (fun id hmem => ?_) rfl) (of_decide_eq_true hl) ?_, trivial⟩
  · exact {
      found := hb'
      id := fun _ => rfl
      terms := rfl
      status := hhold ▸ htransition
      history := ⟨rfl, rfl, rfl⟩
      announced := .inl rfl }
  · rfl
  · rfl
  · obtain ⟨p, hp, hpending⟩ := find_of_pendingPayments i₅.1 hmem
    exact ⟨p, (locked_payment r₅' (List.mem_append_right _ (List.mem_map_of_mem hmem)) p hp).1, hpending⟩
  · exact {
      booking := frame_booking rfl (fun _ => rfl) (by simp)
      created := frame_created rfl fun _ => rfl
      payment := fun id hnot => samePayment_update (key_failed _) (by rfl) (by rfl) fun hmem =>
        hnot (List.mem_append_right _ (List.mem_map_of_mem hmem)) }

theorem runs_beginExpiry (hrules : rules.Sound) {bookingId : String} {held : List Lock}
    {δ : Db → Db} {d : Db} :
    Runs (lifecycle rules) (beginExpiry bookingId) (fun _ _ _ _ => True) held δ d := by
  refine .withSerializationRetry fun _ _ _ _ _ => .now fun d₁ _ _ instant => .transaction
    fun d₂ _ _ => .lockRow (fun _ _ _ _ => .unchanged hrules fun _ _ => trivial) fun d₃ b _ _ hb => ?_
  obtain rfl : b.id = bookingId := Table.key_of_find hb
  dsimp only
  split
  · exact .unchanged hrules fun _ _ => trivial
  have hhold : b.status = .PENDING_PAYMENT := not_not.mp ‹_›
  split
  · exact .unchanged hrules fun _ _ => trivial
  refine .read fun d₄ r₄ _ => .orThrow fun row hrow => ?_
  have hb₄ := (locked_booking r₄ (by simp)).row b hb
  obtain rfl : b = row := Option.some.inj (hb₄.symm.trans hrow)
  refine .ensure fun htransition => .updateBookingAt fun d₅ r₅ _ _ _ _ => ?_
  refine .insertAt fun d₆ r₆ _ => .insertAt fun d₇ r₇ _ => .ret fun d' r i ha hl => ?_
  have hb₅ := (locked_booking r₅ (by simp)).row b hb₄
  have hb' := (locked_booking (r₆.trans (r₇.trans r.elapse)) (by simp)).row b hb₅
  refine ⟨lifecycle_guarantee hrules i (.lapsing b _ _ _ ?_ hhold ?_ ?_ rfl)
    (of_decide_eq_true hl) ?_, trivial⟩
  · exact {
      found := hb'
      id := fun _ => rfl
      terms := rfl
      status := htransition
      history := ⟨rfl, rfl, rfl⟩
      announced := .inl rfl }
  · rfl
  · rfl
  · exact {
      booking := frame_booking rfl (fun _ => rfl) (by simp)
      created := frame_created rfl fun _ => rfl }

/-- A hold is released when its session has ended, or when it was found to name none. -/
theorem runs_release (hrules : rules.Sound) {bookingId reason : String} {sessionId : Option String}
    {held : List Lock} {δ : Db → Db} {d : Db}
    (hnamed : ∀ id ∈ sessionId, Names bookingId id d ∧ d.provider.Ended id) :
    Runs (lifecycle rules) (release bookingId sessionId reason) (fun _ _ _ _ => True) held δ d := by
  refine .bind (.withSerializationRetry fun _ _ _ d₁ r₁ => .transaction fun d₂ r₂ _ =>
    .lockRow (fun _ _ _ _ => .unchanged hrules fun _ _ => trivial) fun d₃ b r₃ _ hb => ?_)
  obtain rfl : b.id = bookingId := Table.key_of_find hb
  dsimp only
  split
  · exact .unchanged hrules fun _ _ => trivial
  have hexpiring : b.status = .EXPIRING := not_not.mp ‹_›
  refine .read fun d₄ r₄ _ => .orThrow fun row hrow => ?_
  have hb₄ := (locked_booking r₄ (by simp)).row b hb
  obtain rfl : b = row := Option.some.inj (hb₄.symm.trans hrow)
  refine .ensure fun htransition => .updateBookingAt fun d₅ r₅ _ _ _ _ => ?_
  refine wp_insertAt (fun _ _ _ => trivial) fun d₆ r₆ _ d' r i ha hl => ?_
  have hb₅ := (locked_booking r₅ (by simp)).row b hb₄
  have hb' := (locked_booking (r₆.elapse.trans r.elapse) (by simp)).row b hb₅
  have rall : (lifecycle rules).Elapse [] d d' := r₁.trans (r₂.trans (r₃.trans
    ((r₄.weaken (by simp)).trans ((r₅.weaken (by simp)).trans
      ((r₆.elapse.weaken (by simp)).trans (r.elapse.weaken (by simp)))))))
  refine ⟨lifecycle_guarantee hrules i (.released b _ _ sessionId ha ?_ hexpiring ?_ ?_
    (fun id hid => ?_) rfl) (of_decide_eq_true hl) ?_, trivial⟩
  · exact {
      found := hb'
      id := fun _ => rfl
      terms := rfl
      status := htransition
      history := ⟨rfl, rfl, rfl⟩
      announced := .inl rfl }
  · rfl
  · rfl
  · obtain ⟨⟨x, hx, hsession⟩, hended⟩ :=
      And.intro (elapse_names rall (hnamed id hid).1) (elapse_ended rall (hnamed id hid).2)
    obtain rfl : b = x := Option.some.inj (hb'.symm.trans hx)
    exact ⟨hsession.resolve_right (by simp [hexpiring, UNPAID_BOOKING_STATUSES]), hended⟩
  · exact {
      booking := frame_booking rfl (fun _ => rfl) (by simp)
      created := frame_created rfl fun _ => rfl }

/-- A call of the provider, which keeps the sessions that have ended. -/
theorem runs_callProvider (hrules : rules.Sound) {α β : Type}
    {call : Nat → ProviderState → ProviderState × Except Failure α}
    (hended : ∀ choice state id, state.Ended id → (call choice state).1.Ended id) {k : α → Tx β}
    {Q : β → List Lock → (Db → Db) → Db → Prop} {held : List Lock} {δ : Db → Db} {d : Db}
    (h : ∀ d' choice a, (lifecycle rules).Elapse held d d' → (call choice d'.provider).2 = .ok a →
      Runs (lifecycle rules) (k a) Q held δ (d'.onProvider fun state => (call choice state).1)) :
    Runs (lifecycle rules) (callProvider call >>= k) Q held δ d := by
  refine .bind (.answer fun d₁ r₁ _ a => .bind (.call fun d₂ r₂ i₂ => ⟨?_, .ret ?_⟩))
  · exact lifecycle_guarantee hrules i₂ (.called _ (hended a.choice d₂.provider) rfl)
      (i₂.1.onProvider _) {}
  · exact wp_ofExcept (fun result hresult => h d₂ a.choice result (r₁.trans r₂) hresult)
      fun _ _ => trivial

theorem ProviderState.Ended.closeSession {s : ProviderState} {id : String} (h : s.Ended id)
    (sessionId : String) : (s.closeSession sessionId).Ended id := by
  constructor
  · obtain ⟨session, hsession, hid⟩ := h.known
    refine ⟨_, Table.mem_update.mpr ⟨session, hsession, rfl⟩, ?_⟩
    split <;> exact hid
  · intro session hsession hid
    obtain ⟨before, hbefore, rfl⟩ := Table.mem_update.mp hsession
    split
    · rfl
    · rename_i hne
      rw [if_neg hne] at hid
      exact h.closed before hbefore hid

/-- A session that the provider knows has ended once it is closed. -/
theorem ProviderState.ended_closeSession {s : ProviderState} {id : String}
    (h : ∃ session ∈ s.sessions, session.id = id) : (s.closeSession id).Ended id := by
  constructor
  · obtain ⟨session, hsession, hid⟩ := h
    refine ⟨_, Table.mem_update.mpr ⟨session, hsession, rfl⟩, ?_⟩
    split <;> exact hid
  · intro session hsession hid
    obtain ⟨before, hbefore, rfl⟩ := Table.mem_update.mp hsession
    split
    · rfl
    · rename_i hne
      rw [if_neg hne] at hid
      exact absurd (by simpa [Keyed.key] using hid) hne

theorem ExpireSessionOutcome.ended {sessionId id : String} {state state' : ProviderState}
    {result : Except Failure ExpireResult} (h : ExpireSessionOutcome sessionId state state' result)
    (he : state.Ended id) : state'.Ended id := by
  cases h with
  | expired result hknown hresult => exact he.closeSession sessionId
  | complete paymentStatus hended => exact he
  | failed e => exact he

/-- When the provider answers, the session has ended. -/
theorem ExpireSessionOutcome.ended_of_ok {sessionId : String} {state state' : ProviderState}
    {answer : ExpireResult} (h : ExpireSessionOutcome sessionId state state' (.ok answer)) :
    state'.Ended sessionId := by
  generalize hresult : Except.ok answer = result at h
  cases h with
  | expired result hknown => exact ProviderState.ended_closeSession hknown
  | complete paymentStatus hended => exact hended
  | failed e => cases hresult

theorem CreateSessionOutcome.ended {request : CheckoutSessionRequest} {id : String}
    {state state' : ProviderState} {result : Except Failure String}
    (h : CreateSessionOutcome request state state' result) (he : state.Ended id) : state'.Ended id := by
  cases h with
  | opened new result hnew hresult =>
    refine ⟨?_, fun session hsession hid => ?_⟩
    · obtain ⟨session, hsession, hid⟩ := he.known
      exact ⟨session, List.mem_append_left _ hsession, hid⟩
    · rcases List.mem_append.mp hsession with hold | hlast
      · exact he.closed session hold hid
      · obtain ⟨known, hknown, hsame⟩ := he.known
        rw [List.mem_singleton.mp hlast] at hid
        exact absurd (hsame.trans hid.symm) (hnew known hknown)
  | replayed session hsession hkey hsame => exact he
  | failed e => exact he

/-- What a retrieved session says of its amount is what the provider captures on it. -/
theorem runs_confirmInstead (hrules : rules.Sound) {api : Api} (hapi : rules.Admits api)
    {bookingId sessionId organizationId : String} {held : List Lock} {δ : Db → Db} {d : Db} :
    Runs (lifecycle rules) (confirmInstead api bookingId sessionId organizationId)
      (fun _ _ _ _ => True) held δ d := by
  refine .ensure fun _ => .read fun d₁ _ _ => .answer fun d₂ _ _ a => .ofExcept fun session hok => ?_
  refine .now fun d₃ _ _ paidAt => .bind (.discard (.mono (runs_confirmPaid hrules ?_)
    fun _ _ _ _ _ => .ret trivial))
  have hamount := api.payments.retrieve_amountTotal _ _ _ _ hok
  exact hamount ▸ hapi.captures sessionId

theorem runs_completeExpiry (hrules : rules.Sound) {api : Api} (hapi : rules.Admits api)
    {bookingId : String} {d : Db} :
    Runs (lifecycle rules) (completeExpiry api bookingId) (fun _ _ _ _ => True) [] id d := by
  refine .read fun d₁ r₁ i₁ => ?_
  split
  · exact .ret trivial
  rename_i b hb
  split
  · exact .ret trivial
  split
  · exact .ret trivial
  split
  · exact .ret trivial
  split
  · exact runs_release hrules (by simp)
  rename_i sessionId hsession
  refine .ensure fun _ => .read fun d₂ r₂ _ => ?_
  refine runs_callProvider hrules (fun choice state id he =>
    (api.payments.expireCheckoutSession_outcome _ _ choice state).ended he) fun d₃ choice answer r₃ hok => ?_
  have hnamed : Names bookingId sessionId d₃ := elapse_names (r₂.trans r₃) ⟨b, hb, .inl hsession⟩
  have houtcome := api.payments.expireCheckoutSession_outcome
    ((paymentOfSession sessionId (id d₂)).bind Payment.stripeAccountId) sessionId choice d₃.provider
  rw [hok] at houtcome
  have hended := houtcome.ended_of_ok
  split
  · exact runs_release hrules (by rintro id ⟨⟩; exact ⟨hnamed, hended⟩)
  · split
    · exact runs_confirmInstead hrules hapi
    · exact runs_release hrules (by rintro id ⟨⟩; exact ⟨hnamed, hended⟩)

end BookingApp

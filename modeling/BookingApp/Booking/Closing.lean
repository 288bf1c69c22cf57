import BookingApp.Booking.Outcomes

/-!
# Ending an appointment keeps to the protocol

Who ends an appointment has its row locked since before it looked at the status. The
requests it closes are locked too, and so is the payment that it reserves a refund of.
-/

set_option autoImplicit false

namespace BookingApp

open ReadCommitted ReadCommitted.Proto

variable {rules : BookingRules} {held : List Lock} {δ : Db → Db} {d : Db}

/-- The row of the booking is locked from here on. -/
theorem runs_lockStatus {bookingId organizationId : String}
    {Q : BookingStatus → List Lock → (Db → Db) → Db → Prop}
    (h : ∀ d' b, (lifecycle rules).Elapse held d d' → (lifecycle rules).Inv d' →
      Table.find b.id (δ d').bookings = some b → b.id = bookingId →
      Q b.status (held ++ [.booking b.id]) δ d') :
    Runs (lifecycle rules) (lockStatus bookingId organizationId) Q held δ d := by
  refine .lockRow (fun _ _ _ _ => .fail) fun d₁ b r₁ i₁ hb => .ret ?_
  obtain ⟨hb, -⟩ := Option.filter_eq_some_iff.mp hb
  have hid : b.id = bookingId := Table.key_of_find hb
  exact h d₁ b r₁ i₁ (hid ▸ hb) hid

/-- A refund of a locked payment stays one that may be reserved. -/
theorem refundReserved_of_reserves {input : ReserveRefundInput} {p : Payment} {r : Refund} {d d' : Db}
    (h : Reserves input p r d) (hsame : SamePayment p.id d d') : RefundReserved r d' :=
  ⟨h.pending, p, h.payment ▸ (hsame p h.found).1, h.settled⟩

/-- What a cancellation reserves: refunds of the booking, of payments that are locked. -/
theorem runs_reserveRefund (hδ : KeepsPayments δ) {api : Api} {booking : Booking}
    {amount : RefundAmount} {options : ReserveOptions}
    {Q : RefundReservationResult → List Lock → (Db → Db) → Db → Prop}
    (h : ∀ result refunds events held' d', held ⊆ held' → (lifecycle rules).Elapse held d d' →
      (∀ r ∈ refunds, .payment r.paymentId ∈ held') →
      (∀ d'', (lifecycle rules).Elapse held' d' d'' →
        ∀ r ∈ refunds, r.bookingId = booking.id ∧ RefundReserved r d'') →
      announcements events = [] →
      Q result held' (fun x => ((δ x).onRefunds (· ++ refunds)).onOutbox (· ++ events)) d') :
    Runs (lifecycle rules) (reserveRefund api booking amount options) Q held δ d := by
  refine .bind (wp_reserveInTransaction (fun _ _ _ h => h) (fun _ _ => trivial) hδ
    (fun m held' d₁ hsub r₁ => ?_) fun p r e id n m held' d₁ hsub r₁ hlock hreserves hevent => ?_)
  · have hend := h ⟨none, 0, m⟩ [] [] held' d₁ hsub r₁ (by simp) (by simp) rfl
    simp only [List.append_nil] at hend
    exact .ensure fun _ => .ret hend
  · refine .ensure fun _ => .ret (h _ [r] [e] held' d₁ hsub r₁ ?_ ?_ ?_)
    · exact fun r' hr' => List.mem_singleton.mp hr' ▸ hreserves.payment ▸ hlock
    · intro d₂ r₂ r' hr'
      rw [List.mem_singleton.mp hr']
      exact ⟨hreserves.booking, refundReserved_of_reserves hreserves (locked_payment r₂ hlock)⟩
    · simp [announcements, hevent]

/-- An appointment that is confirmed may end in each of these ways. -/
theorem canTransition_ending {status : BookingStatus} (h : status ∈ ENDINGS) :
    canTransition (some .CONFIRMED) status = true := by
  revert h
  cases status <;> decide

/-- The commit of an operation that ends a booking and closes requests. -/
theorem guarantee_ended (hrules : rules.Sound) (hinv : (lifecycle rules).Inv d) {d' : Db} {b : Booking}
    {id : String} {ending : Ending} {row : BookingStatusHistory} {events : List OutboxEvent}
    {refunds : List Refund} {cancellations reschedules : List String}
    {g : CancellationRequest → CancellationRequest} {h : RescheduleRequest → RescheduleRequest}
    (hbookings : d'.bookings = Table.update [id] ending.applyTo d.bookings)
    (hhistory : d'.bookingStatusHistory = d.bookingStatusHistory ++ [row])
    (hrefunds : d'.refunds = d.refunds ++ refunds)
    (hcancellations : d'.cancellationRequests = Table.update cancellations g d.cancellationRequests)
    (hreschedules : d'.rescheduleRequests = Table.update reschedules h d.rescheduleRequests)
    (hevents : d'.outboxEvents = d.outboxEvents ++ events)
    (hrest : d' = { d with
      bookings := d'.bookings, bookingStatusHistory := d'.bookingStatusHistory
      refunds := d'.refunds, cancellationRequests := d'.cancellationRequests
      rescheduleRequests := d'.rescheduleRequests, outboxEvents := d'.outboxEvents })
    (hid : b.id = id) (hb : Table.find b.id d.bookings = some b) (hstatus : b.status = .CONFIRMED)
    (hends : ending.status ∈ ENDINGS)
    (hrow : row.bookingId = id ∧ row.fromStatus = some b.status ∧ row.toStatus = ending.status)
    (hsilent : announcements events = [])
    (hreserved : ∀ r ∈ refunds, r.bookingId = id ∧ RefundReserved r d)
    (hg : DecidesCancellation g) (hh : DecidesReschedule h)
    (hcloses : Closes rules.conditions id cancellations reschedules d)
    (hlegal : Legal d') (hbooking : .booking id ∈ held) (hpaid : ∀ r ∈ refunds, .payment r.paymentId ∈ held)
    (hcanceled : ∀ id ∈ cancellations, .cancellationRequest id ∈ held)
    (hmoved : ∀ id ∈ reschedules, .rescheduleRequest id ∈ held) :
    (lifecycle rules).Guarantee held d d' := by
  subst hid
  have hmoves : Moves b ending.applyTo row events d := {
    found := hb
    id := fun _ => rfl
    terms := rfl
    status := hstatus ▸ canTransition_ending hends
    history := hrow
    announced := .inl hsilent }
  refine lifecycle_guarantee hrules hinv (.ended b ending.applyTo row events refunds cancellations
    reschedules g h hmoves hstatus hends rfl hreserved hg hh hcloses ?_) hlegal ?_
  · rw [hrest, hbookings, hhistory, hrefunds, hcancellations, hreschedules, hevents]
  · exact {
      booking := frame_booking hbookings (fun _ => rfl) hbooking
      created := frame_created hbookings fun _ => rfl
      blockedTimes := fun t ht => .inl (by rw [hrest] at ht; exact ht)
      timeOff := fun t ht => .inl (by rw [hrest] at ht; exact ht)
      openCancellations := fun r hr hopen => .inl (cancellation_of_update hg (hcancellations ▸ hr) hopen).1
      openReschedules := fun r hr hopen => .inl (reschedule_of_update hh (hreschedules ▸ hr) hopen).1
      payment := fun id hnot p hp => by
        refine ⟨by rw [hrest]; exact hp, ?_⟩
        have hnone : refunds.filter (fun r => decide (r.paymentId = id)) = [] := by
          simp only [List.filter_eq_nil_iff, decide_eq_true_eq]
          exact fun r hr he => hnot (he ▸ hpaid r hr)
        simp [refundsOf, hrefunds, hnone]
      refund := fun id _ => sameRow_append id hrefunds
      cancellation := fun id hnot => sameRow_update (fun r => (hg r).1) hcancellations
        fun he => hnot (hcanceled id he)
      reschedule := fun id hnot => sameRow_update (fun r => (hh r).1) hreschedules
        fun he => hnot (hmoved id he) }

/-- The commit of an operation that ends a booking and leaves its requests alone. -/
theorem guarantee_left (hrules : rules.Sound) (hinv : (lifecycle rules).Inv d) {d' : Db} {b : Booking}
    {id : String} {ending : Ending} {row : BookingStatusHistory} {events : List OutboxEvent}
    {refunds : List Refund}
    (hbookings : d'.bookings = Table.update [id] ending.applyTo d.bookings)
    (hhistory : d'.bookingStatusHistory = d.bookingStatusHistory ++ [row])
    (hrefunds : d'.refunds = d.refunds ++ refunds)
    (hevents : d'.outboxEvents = d.outboxEvents ++ events)
    (hrest : d' = { d with
      bookings := d'.bookings, bookingStatusHistory := d'.bookingStatusHistory
      refunds := d'.refunds, outboxEvents := d'.outboxEvents })
    (hid : b.id = id) (hb : Table.find b.id d.bookings = some b) (hstatus : b.status = .CONFIRMED)
    (hends : ending.status ∈ ENDINGS)
    (hrow : row.bookingId = id ∧ row.fromStatus = some b.status ∧ row.toStatus = ending.status)
    (hsilent : announcements events = [])
    (hreserved : ∀ r ∈ refunds, r.bookingId = id ∧ RefundReserved r d)
    (hassume : rules.conditions.Assume (.leaving id none []) d)
    (hlegal : Legal d') (hbooking : .booking id ∈ held)
    (hpaid : ∀ r ∈ refunds, .payment r.paymentId ∈ held) : (lifecycle rules).Guarantee held d d' := by
  have hcancellations : d'.cancellationRequests = d.cancellationRequests := by rw [hrest]
  have hreschedules : d'.rescheduleRequests = d.rescheduleRequests := by rw [hrest]
  refine guarantee_ended hrules hinv hbookings hhistory hrefunds
    (g := fun r => { r with decision := .APPROVED }) (h := fun r => { r with decision := .REJECTED })
    (hcancellations.trans Table.update_none.symm) (hreschedules.trans Table.update_none.symm) hevents ?_
    hid hb hstatus hends hrow hsilent hreserved (fun _ => ⟨rfl, rfl, nofun⟩) (fun _ => ⟨rfl, rfl, nofun⟩)
    (.inl ⟨none, [], hassume, by simp, by simp⟩) hlegal hbooking hpaid (by simp) (by simp)
  rw [hcancellations, hreschedules]
  exact hrest

theorem runs_cancelOnce (hrules : rules.Sound) {api : Api} {booking : Booking} {paid : Money}
    {canceledAt : Int} {reason : Option String} :
    Runs (lifecycle rules) (cancelOnce api booking paid canceledAt reason)
      ((lifecycle rules).Commits (.leaving booking.id none []) fun _ _ _ _ => True) [] id d := by
  refine .bind (runs_lockStatus fun d₁ b r₁ _ hb hid => .ensure fun hstatus => .ensure fun htransition => ?_)
  refine .updateBookingAt fun d₂ r₂ _ _ _ _ => .insertAt fun d₃ r₃ _ => ?_
  refine .bind (runs_reserveRefund (by exact fun _ => ⟨rfl, rfl⟩)
    fun result refunds events held' d₄ hsub r₄ hlocked hrefunds hsilent => ?_)
  refine .insertAt fun d₅ r₅ _ => .ofExcept fun expected _ => .ret fun d' r i ha hl => ?_
  have r₄' := r₅.trans r.elapse
  have hb₂ := (locked_booking r₂ (by simp)).row b hb
  have hb₄ := (locked_booking (r₃.trans r₄) (by simp)).row b hb₂
  have hb' := (locked_booking r₄' (hsub (by simp))).row b hb₄
  refine ⟨guarantee_left hrules i rfl rfl rfl (List.append_assoc _ _ _) rfl hid hb' hstatus (by simp [ENDINGS])
    ⟨rfl, rfl, rfl⟩ ?_ (hrefunds d' r₄') ha (of_decide_eq_true hl) (hsub (by simp)) hlocked, trivial⟩
  rw [announcements_append, hsilent]
  rfl

/-- The commit of a request, for a booking that is locked and confirmed. -/
theorem guarantee_asked (hrules : rules.Sound) (hinv : (lifecycle rules).Inv d) {d' : Db} {b : Booking}
    {id : String} {cancellations : List CancellationRequest} {reschedules : List RescheduleRequest}
    (hcancellations : d'.cancellationRequests = d.cancellationRequests ++ cancellations)
    (hreschedules : d'.rescheduleRequests = d.rescheduleRequests ++ reschedules)
    (hrest : d' = { d with
      cancellationRequests := d'.cancellationRequests, rescheduleRequests := d'.rescheduleRequests })
    (hid : b.id = id) (hb : Table.find b.id d.bookings = some b) (hstatus : b.status = .CONFIRMED)
    (hcanceled : ∀ r ∈ cancellations, r.bookingId = id)
    (hmoved : ∀ r ∈ reschedules, r.bookingId = id) (hlegal : Legal d')
    (hbooking : .booking id ∈ held) : (lifecycle rules).Guarantee held d d' := by
  subst hid
  refine lifecycle_guarantee hrules hinv
    (.asked b cancellations reschedules hb hstatus hcanceled hmoved ?_) hlegal ?_
  · rw [hrest, hcancellations, hreschedules]
  · exact {
      booking := fun _ _ _ hr => by rw [hrest]; exact hr
      created := fun x hx => .inl ⟨x, by rw [hrest] at hx; exact hx, rfl⟩
      blockedTimes := fun t ht => .inl (by rw [hrest] at ht; exact ht)
      timeOff := fun t ht => .inl (by rw [hrest] at ht; exact ht)
      openCancellations := fun r hr _ => by
        rw [hcancellations] at hr
        exact (List.mem_append.mp hr).imp_right fun hnew => hcanceled r hnew ▸ hbooking
      openReschedules := fun r hr _ => by
        rw [hreschedules] at hr
        exact (List.mem_append.mp hr).imp_right fun hnew => hmoved r hnew ▸ hbooking
      payment := fun _ _ _ hp => by rw [hrest]; exact ⟨hp, rfl⟩
      refund := fun _ _ _ hr => by rw [hrest]; exact hr
      cancellation := fun id _ => sameRow_append id hcancellations
      reschedule := fun id _ => sameRow_append id hreschedules }

theorem runs_openOnce (hrules : rules.Sound) {booking : Booking} {suggestedRetained : Money}
    {reason : Option String} :
    Runs (lifecycle rules) (openOnce booking suggestedRetained reason)
      ((lifecycle rules).Commits .plain fun _ _ _ _ => True) [] id d := by
  refine .bind (runs_lockStatus fun d₁ b r₁ _ hb hid => .ensure fun hstatus => .freshId fun d₂ r₂ _ id => ?_)
  refine .insertAt fun d₃ r₃ _ => .ret fun d' r i _ hl => ?_
  have hb' := (locked_booking (r₂.trans (r₃.trans r.elapse)) (by simp)).row b hb
  refine ⟨guarantee_asked hrules i rfl (List.append_nil _).symm rfl hid hb' hstatus (fun r hr => ?_)
    (by simp) (of_decide_eq_true hl) (by simp [hid]), trivial⟩
  rw [List.mem_singleton.mp hr]

/-- What was paid is only read. -/
theorem runs_paidTotal {api : Api} {booking : Booking} {Q : Money → List Lock → (Db → Db) → Db → Prop}
    (h : ∀ d' paid, (lifecycle rules).Elapse held d d' → Q paid held δ d') :
    Runs (lifecycle rules) (paidTotal api booking) Q held δ d := by
  refine .bind (.read fun d₁ r₁ _ => ?_)
  split
  · exact .fail
  · refine .ret (.read fun d₂ r₂ _ => .read fun d₃ r₃ _ => ?_)
    exact wp_ofExcept (fun paid _ => h d₃ paid (r₁.trans (r₂.trans r₃))) fun _ _ => trivial

theorem runs_cancelByCustomer (hrules : rules.Sound) {api : Api} {bookingId : String}
    {reason : Option String} :
    Runs (lifecycle rules) (cancelByCustomer api bookingId reason) (fun _ _ _ _ => True) held δ d := by
  refine .now fun d₁ _ _ instant => .bind (.read fun d₂ _ _ => ?_)
  split
  · exact .fail
  refine .ret (.ensure fun _ => .ensure fun _ => .bind (runs_paidTotal fun d₃ paid _ => ?_))
  refine .ofExcept fun policy _ => ?_
  split
  · refine .tryCatch (.withSerializationRetry fun _ _ _ _ _ => .transaction fun _ _ _ =>
      runs_openOnce hrules) fun e held δ d => ?_
    split <;> exact .fail
  · exact .now fun d₄ _ _ canceledAt => .withSerializationRetry fun _ _ _ _ _ =>
      .transaction fun _ _ _ => runs_cancelOnce hrules

theorem runs_updateCancellationRequest {id : String} {f : CancellationRequest → CancellationRequest}
    {Q : Unit → List Lock → (Db → Db) → Db → Prop}
    (h : ∀ d', (lifecycle rules).Elapse held d d' →
      Q () (held ++ [.cancellationRequest id])
        (fun x => (δ x).onCancellationRequests (Table.update [id] f)) d') :
    Runs (lifecycle rules) (updateCancellationRequest id f) Q held δ d :=
  .modify fun d₁ r₁ _ _ => .discard (wp_orThrow (fun _ _ => h d₁ r₁) fun _ => trivial)

theorem DecideRequestInput.decides (input : DecideRequestInput) (decidedAt : Int) :
    DecidesCancellation (input.decided decidedAt) := by
  intro r
  refine ⟨rfl, rfl, ?_⟩
  unfold DecideRequestInput.decided
  cases input.decision <;> simp [Verdict.toDecision]

/-- The commit of a decision that ends no booking. -/
theorem guarantee_decided (hrules : rules.Sound) (hinv : (lifecycle rules).Inv d) {d' : Db}
    {cancellations reschedules : List String} {g : CancellationRequest → CancellationRequest}
    {h : RescheduleRequest → RescheduleRequest}
    (hcancellations : d'.cancellationRequests = Table.update cancellations g d.cancellationRequests)
    (hreschedules : d'.rescheduleRequests = Table.update reschedules h d.rescheduleRequests)
    (hrest : d' = { d with
      cancellationRequests := d'.cancellationRequests, rescheduleRequests := d'.rescheduleRequests })
    (hg : DecidesCancellation g) (hh : DecidesReschedule h) (hlegal : Legal d')
    (hcanceled : ∀ id ∈ cancellations, .cancellationRequest id ∈ held)
    (hmoved : ∀ id ∈ reschedules, .rescheduleRequest id ∈ held) :
    (lifecycle rules).Guarantee held d d' := by
  refine lifecycle_guarantee hrules hinv (.decided cancellations reschedules g h hg hh ?_) hlegal ?_
  · rw [hrest, hcancellations, hreschedules]
  · exact {
      booking := fun _ _ _ hr => by rw [hrest]; exact hr
      created := fun x hx => .inl ⟨x, by rw [hrest] at hx; exact hx, rfl⟩
      blockedTimes := fun t ht => .inl (by rw [hrest] at ht; exact ht)
      timeOff := fun t ht => .inl (by rw [hrest] at ht; exact ht)
      openCancellations := fun r hr hopen => .inl (cancellation_of_update hg (hcancellations ▸ hr) hopen).1
      openReschedules := fun r hr hopen => .inl (reschedule_of_update hh (hreschedules ▸ hr) hopen).1
      payment := fun _ _ _ hp => by rw [hrest]; exact ⟨hp, rfl⟩
      refund := fun _ _ _ hr => by rw [hrest]; exact hr
      cancellation := fun id hnot => sameRow_update (fun r => (hg r).1) hcancellations
        fun he => hnot (hcanceled id he)
      reschedule := fun id hnot => sameRow_update (fun r => (hh r).1) hreschedules
        fun he => hnot (hmoved id he) }

theorem runs_decideCancellationOnce (hrules : rules.Sound) {api : Api} {input : DecideRequestInput} :
    Runs (lifecycle rules) (decideCancellationOnce api input)
      ((lifecycle rules).CommitsBy (decisionPoint (.cancellationRequest input.requestId))
        fun _ _ _ _ => True) [] id d := by
  refine .read fun d₁ _ _ => ?_
  split
  · exact .fail
  rename_i target _
  refine .bind (.discard (runs_lockStatus fun d₂ b₂ _ _ _ _ => .lockRow (fun _ _ _ _ => .fail)
    fun d₃ locked r₃ _ hlocked => .ensure fun hpending => .read fun d₄ r₄ _ => .orThrow
      fun request hrequest => .read fun d₅ r₅ _ => .orThrow fun booking hbooking => ?_))
  have hid : request.id = input.requestId :=
    Table.key_of_find (Option.filter_eq_some_iff.mp hrequest).1
  refine .bind (runs_paidTotal fun d₆ paid r₆ => .ofExcept fun retained _ => .now
    fun d₇ r₇ _ decidedAt => ?_)
  split
  · refine .bind (runs_updateCancellationRequest fun d₈ r₈ => .ret fun d' r i _ hl => ?_)
    refine ⟨guarantee_decided hrules i (h := fun r => { r with decision := .REJECTED }) rfl
      Table.update_none.symm rfl (input.decides decidedAt) (fun _ => ⟨rfl, rfl, nofun⟩)
      (of_decide_eq_true hl) (by simp) (by simp), trivial⟩
  · refine .bind (.now fun d₈ r₈ _ canceledAt => .bind (runs_lockStatus fun d₉ b r₉ _ hb hbid =>
      .ensure fun hstatus => .ensure fun htransition => ?_))
    refine .updateBookingAt fun d₁₀ r₁₀ _ _ _ _ => .insertAt fun d₁₁ r₁₁ _ => .ofExcept fun amount _ => ?_
    refine .bind (runs_reserveRefund (by exact fun _ => ⟨rfl, rfl⟩)
      fun result refunds events held' d₁₂ hsub r₁₂ hlocked hrefunds hsilent => ?_)
    refine .insertAt fun d₁₃ r₁₃ _ => .ret (.bind (runs_updateCancellationRequest
      fun d₁₄ r₁₄ => .ret fun d' r i ha hl => ?_))
    have r₁₂' := r₁₃.trans (r₁₄.trans (r.elapse.weaken (by simp +contextual)))
    have hb₁₀ := (locked_booking r₁₀ (by simp)).row b hb
    have hb₁₂ := (locked_booking (r₁₁.trans r₁₂) (by simp)).row b hb₁₀
    have hb' := (locked_booking r₁₂' (hsub (by simp))).row b hb₁₂
    have hheld : held' ⊆ held' ++ [.cancellationRequest request.id] := List.subset_append_left _ _
    refine ⟨guarantee_ended hrules i (h := fun r => { r with decision := .REJECTED }) rfl rfl rfl rfl
      Table.update_none.symm (List.append_assoc _ _ _) rfl hbid hb' hstatus (by simp [ENDINGS])
      ⟨rfl, rfl, rfl⟩ ?_ (hrefunds d' r₁₂') (input.decides decidedAt) (fun _ => ⟨rfl, rfl, nofun⟩)
      (.inl ⟨_, _, ha, fun id he => ?_, nofun⟩) (of_decide_eq_true hl) (hheld (hsub (by simp)))
      (fun r hr => hheld (hlocked r hr)) (by simp) (by simp), trivial⟩
    · rw [announcements_append, hsilent]
      rfl
    · rw [hid]
      simp at he
      simp [he]

theorem runs_decideRequest (hrules : rules.Sound) {api : Api} {input : DecideRequestInput} :
    Runs (lifecycle rules) (decideRequest api input) (fun _ _ _ _ => True) held δ d :=
  .discard (.withSerializationRetry fun _ _ _ _ _ => .transactionBy fun _ _ _ =>
    runs_decideCancellationOnce hrules)

theorem runs_reserveBusinessRefund (hδ : KeepsPayments δ) {api : Api} {booking : Booking}
    {input : CancelByBusinessInput} {Q : Option String → List Lock → (Db → Db) → Db → Prop}
    (h : ∀ result refunds events held' d', held ⊆ held' → (lifecycle rules).Elapse held d d' →
      (∀ r ∈ refunds, .payment r.paymentId ∈ held') →
      (∀ d'', (lifecycle rules).Elapse held' d' d'' →
        ∀ r ∈ refunds, r.bookingId = booking.id ∧ RefundReserved r d'') →
      announcements events = [] →
      Q result held' (fun x => ((δ x).onRefunds (· ++ refunds)).onOutbox (· ++ events)) d') :
    Runs (lifecycle rules) (reserveBusinessRefund api booking input) Q held δ d := by
  unfold reserveBusinessRefund
  split
  · have hend := h none [] [] held d (fun _ hl => hl) .refl (by simp) (by simp) rfl
    simp only [List.append_nil] at hend
    exact .ret hend
  · exact .map (runs_reserveRefund hδ fun result => h result.refundId)

/-- Whoever cancels for the business closes every open request of the booking. -/
theorem runs_cancelByBusinessOnce (hrules : rules.Sound) {api : Api} {input : CancelByBusinessInput} :
    Runs (lifecycle rules) (cancelByBusinessOnce api input)
      ((lifecycle rules).Commits .plain fun _ _ _ _ => True) [] id d := by
  refine .bind (runs_lockStatus fun d₁ b r₁ _ hb hid => .ensure fun hstatus => .read fun d₂ r₂ _ =>
    .orThrow fun booking hbooking => .ensure fun htransition => .now fun d₃ r₃ _ canceledAt => ?_)
  have hbid : booking.id = input.bookingId := Table.key_of_find (Option.filter_eq_some_iff.mp hbooking).1
  refine .updateBookingAt fun d₄ r₄ _ _ _ _ => .insertAt fun d₅ r₅ _ => ?_
  refine .bind (runs_reserveBusinessRefund (by exact fun _ => ⟨rfl, rfl⟩)
    fun result refunds events held' d₆ hsub r₆ hlocked hrefunds hsilent => ?_)
  refine .bind (.now fun d₇ r₇ _ decidedAt => .updateMany fun d₈ r₈ _ =>
    wp_updateMany (fun _ _ _ => trivial) fun d₉ r₉ _ => .insertAt fun d₁₀ r₁₀ _ => .ret fun d' r i _ hl => ?_)
  have r₉' := r₁₀.trans r.elapse
  have r₈' := (r₉.elapse.trans (r₉'.weaken fun _ hl => List.mem_append_left _ hl)).weaken
    fun _ hl => List.mem_append_left _ hl
  have r₆' := r₇.trans (r₈.trans r₈')
  have hb₃ := (locked_booking (r₂.trans (r₃.trans r₄)) (by simp)).row b hb
  have hb₆ := (locked_booking (r₅.trans r₆) (by simp)).row b hb₃
  have hb' := (locked_booking r₆' (hsub (by simp))).row b hb₆
  have hlock : .booking b.id ∈ held' := hsub (by simp)
  refine ⟨guarantee_ended hrules i rfl rfl rfl rfl rfl (List.append_assoc _ _ _) rfl hid hb' hstatus
    (by simp [ENDINGS]) ⟨hbid, rfl, rfl⟩ ?_ ?_ (fun _ => ⟨rfl, rfl, nofun⟩) (fun _ => ⟨rfl, rfl, nofun⟩)
    (.inr ⟨fun r hr he hopen => ?_, fun r hr he hopen => ?_⟩) (of_decide_eq_true hl) ?_ ?_ ?_ ?_, trivial⟩
  · rw [announcements_append, hsilent]
    rfl
  · exact hbid ▸ hrefunds d' r₆'
  · have hmem := (locked_booking r₈' hlock).cancellations r hr (he.trans hid.symm) hopen
    refine List.mem_map_of_mem (List.mem_filter.mpr ⟨hmem, decide_eq_true ⟨he.trans hbid.symm, hopen⟩⟩)
  · have hlock' := List.mem_append_left (openCancellationRequests booking.id d₈ |>.map .cancellationRequest) hlock
    have hmem := (locked_booking r₉' (List.mem_append_left _ hlock')).reschedules r hr (he.trans hid.symm) hopen
    refine List.mem_map_of_mem (List.mem_filter.mpr ⟨hmem, decide_eq_true ⟨he.trans hbid.symm, hopen⟩⟩)
  · exact List.mem_append_left _ (List.mem_append_left _ (hid ▸ hlock))
  · exact fun r hr => List.mem_append_left _ (List.mem_append_left _ (hlocked r hr))
  · exact fun id hmem => List.mem_append_left _ (List.mem_append_right _ (List.mem_map_of_mem hmem))
  · exact fun id hmem => List.mem_append_right _ (List.mem_map_of_mem hmem)

theorem runs_cancelByBusiness (hrules : rules.Sound) {api : Api} {input : CancelByBusinessInput} :
    Runs (lifecycle rules) (cancelByBusiness api input) (fun _ _ _ _ => True) held δ d :=
  .withSerializationRetry fun _ _ _ _ _ => .transaction fun _ _ _ => runs_cancelByBusinessOnce hrules

/-- An appointment is closed out from CONFIRMED only. -/
theorem confirmed_of_closedOut {status toStatus : BookingStatus}
    (hto : toStatus = .COMPLETED ∨ toStatus = .NO_SHOW)
    (h : canTransition (some status) toStatus = true) : status = .CONFIRMED := by
  rcases hto with rfl | rfl <;> revert h <;> cases status <;> decide

theorem runs_settleAttendanceOnce (hrules : rules.Sound) {api : Api} {bookingId officeUserId : String}
    {attendance : Attendance} (hto : attendance.toStatus = .COMPLETED ∨ attendance.toStatus = .NO_SHOW) :
    Runs (lifecycle rules) (settleAttendanceOnce api bookingId officeUserId attendance)
      ((lifecycle rules).Commits (.leaving bookingId none []) fun _ _ _ _ => True) [] id d := by
  refine .now fun d₁ _ _ instant => .lockRow (fun _ _ _ _ => .fail) fun d₂ b _ _ hb => ?_
  obtain ⟨hb, -⟩ := Option.filter_eq_some_iff.mp hb
  have hid : b.id = bookingId := Table.key_of_find hb
  rw [← hid] at hb
  refine .read fun d₃ r₃ _ => .orThrow fun booking hbooking => .ensure fun htransition => ?_
  split
  · exact .fail
  refine .updateBookingAt fun d₄ r₄ _ _ _ _ => wp_insertAt (fun _ _ _ => trivial)
    fun d₅ r₅ _ d' r i ha hl => ?_
  have hb₄ := (locked_booking (r₃.trans r₄) (by simp)).row b hb
  have hb' := (locked_booking (r₅.elapse.trans r.elapse) (by simp)).row b hb₄
  refine ⟨guarantee_left hrules i rfl rfl (List.append_nil _).symm (List.append_nil _).symm rfl hid hb'
    (confirmed_of_closedOut hto htransition) ?_ ⟨rfl, rfl, rfl⟩ rfl (by simp) ha (of_decide_eq_true hl)
    (by simp) (by simp), trivial⟩
  rcases hto with h | h <;> simp [ENDINGS, h]

theorem runs_settleAttendance (hrules : rules.Sound) {api : Api} {bookingId officeUserId : String}
    {attendance : Attendance} (hto : attendance.toStatus = .COMPLETED ∨ attendance.toStatus = .NO_SHOW) :
    Runs (lifecycle rules) (settleAttendance api bookingId officeUserId attendance)
      (fun _ _ _ _ => True) held δ d :=
  .withSerializationRetry fun _ _ _ _ _ => .transaction fun _ _ _ => runs_settleAttendanceOnce hrules hto

theorem runs_complete (hrules : rules.Sound) {api : Api} {bookingId officeUserId : String} :
    Runs (lifecycle rules) (complete api bookingId officeUserId) (fun _ _ _ _ => True) held δ d :=
  runs_settleAttendance hrules (.inl rfl)

theorem runs_markNoShow (hrules : rules.Sound) {api : Api} {bookingId officeUserId : String} :
    Runs (lifecycle rules) (markNoShow api bookingId officeUserId) (fun _ _ _ _ => True) held δ d :=
  runs_settleAttendance hrules (.inr rfl)

end BookingApp

import BookingApp.Booking.Histories
import BookingApp.ReadCommitted.Solo

/-!
# Events of foreign accounts

An event of a session is looked up by the session and by the reference its sender gave. A
paid session speaks for a booking only from the booking's account; a failed one is not
asked. So an event leaves the bookings alone when it is `Spared`, and else a failure
changes the booking that it was not about.
-/

set_option autoImplicit false

namespace BookingApp

open ReadCommitted ReadCommitted.Proto

/-- The booking that an event of the session is found to be about. -/
def foundBooking (sessionId : String) (clientReferenceId : Option String) (d : Db) : Option Booking :=
  (d.bookings.find? fun b => decide (b.stripeCheckoutSessionId = some sessionId)).or
    ((readString clientReferenceId).bind fun bookingId => Table.find bookingId d.bookings)

/-- Whether an event of this account may speak for the booking's money. -/
def speaksFor (booking : Booking) (sessionId : String) (account : Option String) (d : Db) : Bool :=
  match paymentOfSession sessionId d with
  | some payment => decide (account = payment.stripeAccountId)
  | none => decide (account = none ∨
      account = (Table.find booking.organizationId d.organizations).bind Organization.stripeAccountId)

/-- A failure is about no booking that waits for its payment, and a paid session about no hold that its
account speaks for. -/
def Spared (type : String) (object : StripeEventObject) (d : Db) : Prop :=
  ∀ sessionId ∈ readString object.id, ∀ b ∈ foundBooking sessionId object.clientReferenceId d,
    (stripeEventKind type = .FAILED → b.status ≠ .PENDING_PAYMENT) ∧
    (stripeEventKind type = .PAID → object.paymentStatus = some "paid" → object.amountTotal ≠ none →
      speaksFor b sessionId (readString object.account) d = true → ¬ Life.InHold b.status)

/-- The bookings, their history, their payments and the outbox are as they were. -/
structure Untouched (d d' : Db) : Prop where
  bookings : d'.bookings = d.bookings
  history : d'.bookingStatusHistory = d.bookingStatusHistory
  payments : d'.payments = d.payments
  outbox : d'.outboxEvents = d.outboxEvents

/-- What is left alone while an event is handled: the tables, the organizations, and what the event
says. -/
structure Kept (event : StripeWebhookEvent) (d d' : Db) : Prop extends Untouched d d' where
  organizations : d'.organizations = d.organizations
  event : ∀ e ∈ Table.find event.stripeEventId d'.stripeWebhookEvents,
    e.type = event.type ∧ e.payload = event.payload ∧ (event.processedAt ≠ none → e.processedAt ≠ none)

/-- The clients that handle an event, and leave alone what they should. -/
def handling (event : StripeWebhookEvent) (d : Db) : Proto store where
  toConditions := .none
  Inv := Kept event d
  Act _ _ := True
  Same _ _ _ := True
  same_refl _ _ := trivial
  same_trans _ _ := trivial

section Handling

variable {event : StripeWebhookEvent} {d d' x : Db} {held : List Lock} {δ : Db → Db}

/-- A transaction that writes nothing. -/
theorem handling_unchanged {α : Type} {a : α} {label : α → Point} :
    Runs (handling event d) (pure a) ((handling event d).CommitsBy label fun _ _ _ _ => True) held id x :=
  .ret fun _ _ hinv _ _ => ⟨⟨trivial, hinv, fun _ _ => trivial⟩, trivial⟩

/-- A booking that is locked is the one that was there. -/
theorem handling_confirmPaid {api : Api} {input : ConfirmPaidInput}
    (hleft : ∀ b, Table.find input.bookingId d.bookings = some b → ¬ Life.InHold b.status) :
    Runs (handling event d) (confirmPaid api input) (fun _ _ _ _ => True) held δ x := by
  refine .withSerializationRetry fun _ _ _ _ _ => .now fun _ _ _ _ => .transaction fun _ _ _ =>
    .lockRow (fun _ _ _ _ => .fail) fun y b _ hy hb => ?_
  have hnot := hleft b (hy.bookings ▸ hb)
  dsimp only
  split
  · exact handling_unchanged
  split
  · exact handling_unchanged
  · exact absurd (inHold_of_not_final ‹_› ‹_›) hnot

theorem handling_markPaymentFailed {input : MarkPaymentFailedInput}
    (hleft : ∀ b, Table.find input.bookingId d.bookings = some b → b.status ≠ .PENDING_PAYMENT) :
    Runs (handling event d) (markPaymentFailed input) (fun _ _ _ _ => True) held δ x := by
  refine .withSerializationRetry fun _ _ _ _ _ => .transaction fun _ _ _ =>
    .lockRow (fun _ _ _ _ => handling_unchanged) fun y b _ hy hb => ?_
  dsimp only
  split
  · exact handling_unchanged
  · exact absurd (not_not.mp ‹_›) (hleft b (hy.bookings ▸ hb))

/-- An update of events that leaves alone what they say. -/
theorem handling_updateEvents {ids : Db → List String} {f : StripeWebhookEvent → StripeWebhookEvent}
    (hid : ∀ e, (f e).stripeEventId = e.stripeEventId)
    (hf : ∀ e, (f e).type = e.type ∧ (f e).payload = e.payload ∧
      (e.processedAt ≠ none → (f e).processedAt ≠ none)) :
    Runs (handling event d) (transaction (S := store) .plain (updateMany .stripeEvent ids fun ids =>
      Db.onEvents (Table.update ids f))) (fun _ _ _ _ => True) held δ x := by
  refine .transaction fun _ _ _ => wp_updateMany (fun _ _ _ => trivial) fun y _ _ z _ hz _ _ =>
    ⟨⟨trivial, ⟨{ hz.toUntouched with }, hz.organizations, fun e he => ?_⟩, fun _ _ => trivial⟩, trivial⟩
  obtain ⟨e₀, he₀, hsame⟩ := Option.map_eq_some_iff.mp ((Table.find_update hid).symm.trans he)
  obtain ⟨htype, hpayload, hprocessed⟩ := hz.event e₀ he₀
  obtain ⟨htype', hpayload', hprocessed'⟩ := hf e₀
  subst hsame
  split
  · exact ⟨htype'.trans htype, hpayload'.trans hpayload, fun h => hprocessed' (hprocessed h)⟩
  · exact ⟨htype, hpayload, hprocessed⟩

/-- What is found is what was to be found before. -/
theorem handling_findBooking {sessionId : String} {clientReferenceId : Option String}
    {Q : Option String → List Lock → (Db → Db) → Db → Prop}
    (h : ∀ y, Kept event d y → Q ((foundBooking sessionId clientReferenceId d).map Booking.id) held id y) :
    Runs (handling event d) (findBooking sessionId clientReferenceId) Q held id x := by
  refine .read fun y _ hy => ?_
  dsimp only [id]
  rw [hy.bookings]
  cases hsession : d.bookings.find? (fun b => decide (b.stripeCheckoutSessionId = some sessionId)) with
  | some b =>
    refine .ret ?_
    simpa [foundBooking, hsession] using h y hy
  | none =>
    cases hreference : readString clientReferenceId with
    | none =>
      refine .ret ?_
      simpa [foundBooking, hsession, hreference] using h y hy
    | some bookingId =>
      refine .map (wp_read (fun _ _ _ => trivial) fun z _ hz => ?_)
      dsimp only [id]
      rw [hz.bookings]
      simpa [foundBooking, hsession, hreference] using h z hz

/-- A booking that is found is there. -/
theorem find_of_foundBooking (hlegal : Legal d) {sessionId : String} {clientReferenceId : Option String}
    {b : Booking} (h : foundBooking sessionId clientReferenceId d = some b) :
    Table.find b.id d.bookings = some b := by
  rcases Option.or_eq_some_iff.mp h with h | ⟨-, h⟩
  · exact Table.find_of_mem hlegal.bookings.pkey (List.mem_of_find?_eq_some h)
  · obtain ⟨bookingId, -, h⟩ := Option.bind_eq_some_iff.mp h
    rwa [show b.id = bookingId from Table.key_of_find h]

theorem handling_failSession (hlegal : Legal d) {object : StripeEventObject} {eventId : String}
    (hspared : ∀ sessionId ∈ readString object.id,
      ∀ b ∈ foundBooking sessionId object.clientReferenceId d, b.status ≠ .PENDING_PAYMENT) :
    Runs (handling event d) (failSession object eventId) (fun _ _ _ _ => True) held id x := by
  unfold failSession
  split
  · exact .ret trivial
  rename_i sessionId hsession
  refine .bind (handling_findBooking fun y _ => ?_)
  cases hfound : foundBooking sessionId object.clientReferenceId d with
  | none => exact .ret trivial
  | some b =>
    refine handling_markPaymentFailed fun c hc => ?_
    obtain rfl := Option.some.inj ((find_of_foundBooking hlegal hfound).symm.trans hc)
    exact hspared sessionId hsession b hfound

/-- What the event's account is compared with is what was there before. -/
theorem handling_account {b : Booking} (hb : Table.find b.id d.bookings = some b) {sessionId : String}
    {account : Option String} {Q : Bool → List Lock → (Db → Db) → Db → Prop}
    (h : ∀ y, Q (speaksFor b sessionId account d) held id y) :
    Runs (handling event d) (eventIsFromTheBookingsAccount b.id sessionId account) Q held id x := by
  refine .read fun y _ hy => ?_
  have hpayment : paymentOfSession sessionId (id y) = paymentOfSession sessionId d := by
    rw [id, paymentOfSession, hy.payments, paymentOfSession]
  rw [hpayment]
  cases hfound : paymentOfSession sessionId d with
  | some payment =>
    refine .ret ?_
    simpa [speaksFor, hfound] using h y
  | none =>
    refine .read fun z _ hz => .ret ?_
    rw [id, hz.bookings, hb, Option.bind_some, hz.organizations]
    simpa [speaksFor, hfound] using h z

theorem handling_confirmIfPaid (hlegal : Legal d) {api : Api} {object : StripeEventObject} {eventId : String}
    (hspared : ∀ sessionId ∈ readString object.id, ∀ b ∈ foundBooking sessionId object.clientReferenceId d,
      object.paymentStatus = some "paid" → object.amountTotal ≠ none →
        speaksFor b sessionId (readString object.account) d = true → ¬ Life.InHold b.status) :
    Runs (handling event d) (confirmIfPaid api object eventId) (fun _ _ _ _ => True) held id x := by
  unfold confirmIfPaid
  cases hsession : readString object.id with
  | none => exact .fail
  | some sessionId =>
    refine .bind (.ret ?_)
    split
    · exact .ret trivial
    rename_i hpaid
    cases hamount : object.amountTotal with
    | none => exact .fail
    | some amountTotal =>
      refine .bind (.ret (.bind (.bind (handling_findBooking fun y hy => ?_))))
      cases hfound : foundBooking sessionId object.clientReferenceId d with
      | none => exact .fail
      | some b =>
        have hb := find_of_foundBooking hlegal hfound
        refine .ret (.bind (handling_account hb fun z => ?_))
        cases hspeaks : speaksFor b sessionId (readString object.account) d with
        | false => exact .ret trivial
        | true =>
          refine .now fun _ _ _ instant => .discard (.mono (handling_confirmPaid fun c hc => ?_)
            fun _ _ _ _ _ => trivial)
          obtain rfl := Option.some.inj (hb.symm.trans hc)
          exact hspared sessionId hsession b hfound (not_not.mp hpaid) (by simp [hamount]) hspeaks

/-- An event of a session that spares the bookings, or that was processed before, leaves them alone,
whoever handles it. -/
theorem handling_safe (hlegal : Legal d) {api : Api} (hkind : stripeEventKind event.type ∈ [.PAID, .FAILED])
    (hspared : event.processedAt ≠ none ∨ Spared event.type event.payload d) :
    (handling event d).Safe (handleStripeEvent api event.stripeEventId) := by
  intro x _
  show Runs (handling event d) _ _ [] id x
  refine .read fun y _ hy => ?_
  dsimp only [id]
  cases he : Table.find event.stripeEventId y.stripeWebhookEvents with
  | none => exact .ret trivial
  | some e =>
    obtain ⟨htype, hpayload, hprocessed⟩ := hy.event e he
    dsimp only
    split
    · exact .ret trivial
    rename_i hopen
    replace hspared := hspared.resolve_left fun h => hopen (hprocessed h)
    have hdispatch : Runs (handling event d) (dispatch api e.type e.payload event.stripeEventId)
        (fun _ _ _ _ => True) [] id y := by
      rw [htype, hpayload]
      unfold dispatch
      rcases List.mem_cons.mp hkind with hkind | hkind
      · rw [hkind]
        exact handling_confirmIfPaid hlegal fun sessionId hs b hb hpaid hamount hspeaks =>
          (hspared sessionId hs b hb).2 hkind hpaid hamount hspeaks
      · rw [List.mem_singleton.mp hkind]
        exact handling_failSession hlegal fun sessionId hs b hb =>
          (hspared sessionId hs b hb).1 (List.mem_singleton.mp hkind)
    refine .tryCatch (.bind (.mono hdispatch fun _ _ _ _ _ => ?_)) fun error _ _ _ =>
      .bind (.mono (handling_updateEvents (by exact fun _ => rfl) fun _ => ⟨rfl, rfl, fun h => h⟩)
        fun _ _ _ _ _ => .fail)
    exact .now fun _ _ _ instant => handling_updateEvents (by exact fun _ => rfl) fun _ =>
      ⟨rfl, rfl, fun _ => by simp⟩

end Handling

section Failure

variable {d : Db}

/-- No constraint is about whether an event was processed. -/
theorem Legal.processed (h : Legal d) (ids : List String) (instant : Int) :
    Legal (d.onEvents (Table.update ids fun e => { e with processedAt := some instant })) where
  bookings := { h.bookings with }
  payments := { h.payments with }
  refunds := { h.refunds with }
  requests := { h.requests with
    event_id := Table.nodup_map_update h.requests.event_id fun _ => rfl }
  calendar := { h.calendar with }

/-- What a failure of the payment does to a hold. -/
def Booking.paymentFailed (b : Booking) : Booking :=
  { b with status := .PAYMENT_FAILED, expiresAt := none }

/-- A failed payment breaks no constraint. -/
theorem Legal.failed (h : Legal d) {booking : Booking} (hb : Table.find booking.id d.bookings = some booking)
    (input : MarkPaymentFailedInput) (ids : List String) (row : BookingStatusHistory) (event : OutboxEvent)
    (hrow : row.organizationId = booking.organizationId ∧ row.bookingId = booking.id) :
    Legal { d with
      bookings := Table.update [booking.id] Booking.paymentFailed d.bookings
      bookingStatusHistory := d.bookingStatusHistory ++ [row]
      payments := Table.update ids input.failed d.payments
      outboxEvents := d.outboxEvents ++ [event] } := by
  have hnamed : ∀ {organizationId id : String},
      (∃ b ∈ d.bookings, b.organizationId = organizationId ∧ b.id = id) →
      ∃ b ∈ Table.update [booking.id] Booking.paymentFailed d.bookings,
        b.organizationId = organizationId ∧ b.id = id := fun h => Table.exists_update (fun _ h => h) h
  have hlegal := h.bookings
  have hpaid := h.payments
  refine {
    bookings := {
      pkey := Table.nodup_map_update hlegal.pkey fun _ => rfl
      reference := Table.nodup_map_update hlegal.reference fun _ => rfl
      checkoutSession := Table.nodup_filterMap_update hlegal.checkoutSession fun _ => rfl
      idempotencyKey := Table.nodup_filterMap_update hlegal.idempotencyKey fun _ => rfl
      rescheduledFrom := Table.nodup_filterMap_update hlegal.rescheduledFrom fun _ => rfl
      block_range_check := Table.forall_update (fun _ h => h) hlegal.block_range_check
      customer_range_check := Table.forall_update (fun _ h => h) hlegal.customer_range_check
      expires_at_matches_status := Table.forall_update (fun _ _ => .inl (by simp [Booking.paymentFailed]))
        hlegal.expires_at_matches_status
      no_overlap := ?_
      employee_fkey := Table.forall_update (fun _ h => h) hlegal.employee_fkey
      history_fkey := fun x hx => ?_
      token_hash := hlegal.token_hash
      notification_dedupe := hlegal.notification_dedupe }
    payments := {
      pkey := Table.nodup_map_update hpaid.pkey fun _ => rfl
      paymentIntent := Table.nodup_filterMap_update hpaid.paymentIntent fun _ => rfl
      checkoutSession := Table.nodup_filterMap_update hpaid.checkoutSession fun _ => rfl
      charge := Table.nodup_filterMap_update hpaid.charge fun _ => rfl
      booking_fkey := Table.forall_update (fun _ h => h) fun p hp => hnamed (hpaid.booking_fkey p hp)
      amount_check := Table.forall_update (fun _ h => h) hpaid.amount_check
      refunded_check := Table.forall_update (fun _ h => h) hpaid.refunded_check
      manual_amount_check := hpaid.manual_amount_check }
    refunds := { h.refunds with
      payment_fkey := fun r hr => Table.exists_update (fun _ h => h) (h.refunds.payment_fkey r hr)
      booking_fkey := fun r hr => hnamed (h.refunds.booking_fkey r hr) }
    requests := { h.requests with
      cancellation_fkey := fun r hr => hnamed (h.requests.cancellation_fkey r hr)
      reschedule_fkey := fun r hr => hnamed (h.requests.reschedule_fkey r hr) }
    calendar := { h.calendar with } }
  · -- a booking that failed blocks nothing
    have hblocks : ∀ r : Booking, ¬ r.paymentFailed.Blocks := by
      simp [Booking.Blocks, Booking.paymentFailed, BLOCKING_BOOKING_STATUSES]
    refine List.pairwise_map.mpr (hlegal.no_overlap.imp fun {x y} hxy => ?_)
    split <;> split <;> rintro ⟨horg, hemployee, hx, hy, hover⟩
    · exact hblocks _ hx
    · exact hblocks _ hx
    · exact hblocks _ hy
    · exact hxy ⟨horg, hemployee, hx, hy, hover⟩
  · rcases List.mem_append.mp hx with hx | hx
    · exact hnamed (hlegal.history_fkey x hx)
    · rw [List.mem_singleton.mp hx, hrow.1, hrow.2]
      exact hnamed ⟨booking, Table.mem_of_find hb, rfl, rfl⟩

section Statements

variable {α β : Type} {Q : β → List Lock → (Db → Db) → Db → Prop} {held : List Lock} {δ : Db → Db}

theorem solo_read {f : Db → α} {k : α → Tx β} (h : (k (f (δ d))).Solo Q held δ d) :
    (read f >>= k).Solo Q held δ d := h

theorem solo_lockRow {ρ : Type} {lock : ρ → Lock} {row : Db → Option ρ} {k : Option ρ → Tx β}
    (h : ∀ held, (k (row (δ d))).Solo Q held δ d) : (lockRow lock row >>= k).Solo Q held δ d :=
  h _

theorem solo_orThrow {row : Option α} {a : α} {k : α → Tx β} (hrow : row = some a)
    (h : (k a).Solo Q held δ d) : (orThrow row >>= k).Solo Q held δ d := by
  rw [hrow]
  exact h

theorem solo_ensure {c : Prop} [Decidable c] {e : Failure} {k : Unit → Tx β} (hc : c)
    (h : (k ()).Solo Q held δ d) : (ensure (S := store) c e >>= k).Solo Q held δ d := by
  rw [ensure, if_pos hc]
  exact h

theorem solo_insertAt {p : Point} {change : Db → Db} {k : Unit → Tx β}
    (h : ∀ held, (k ()).Solo Q held (fun x => change (δ x)) d) : (insertAt p change >>= k).Solo Q held δ d :=
  h _

theorem solo_updateMany {lock : String → Lock} {ids : Db → List String} {change : List String → Db → Db}
    {k : Unit → Tx β} (h : ∀ held, (k ()).Solo Q held (fun x => change (ids (δ d)) (δ x)) d) :
    (updateMany lock ids change >>= k).Solo Q held δ d :=
  h _

theorem solo_updateBooking {id : String} {f : Booking → Booking} {b : Booking} {k : Unit → Tx β}
    (hb : Table.find id (δ d).bookings = some b)
    (h : ∀ held, (k ()).Solo Q held (fun x => (δ x).onBookings (Table.update [id] f)) d) :
    (discard (updateBooking id f) >>= k).Solo Q held δ d := by
  refine Code.solo_bind (Code.solo_bind (Code.solo_bind ?_))
  change Code.Solo (orThrow (Option.map f (Table.find id (δ d).bookings))) _ _ _ _
  rw [hb]
  exact h _

end Statements

/-- A failure changes a booking that waits for its payment. -/
theorem solo_markPaymentFailed (h : Legal d) {input : MarkPaymentFailedInput} {b : Booking}
    (hb : Table.find input.bookingId d.bookings = some b) (hhold : b.status = .PENDING_PAYMENT)
    {Q : Unit → List Lock → (Db → Db) → Db → Prop} {held : List Lock} {δ : Db → Db}
    (hQ : ∀ d', Legal d' → d'.bookings = Table.update [input.bookingId] Booking.paymentFailed d.bookings →
      d'.stripeWebhookEvents = d.stripeWebhookEvents → Q () [] id d') :
    (markPaymentFailed input).Solo Q held δ d := by
  obtain ⟨bookingId, failureCode, failureMessage, cause⟩ := input
  obtain rfl : b.id = bookingId := Table.key_of_find hb
  refine Code.solo_withRetry (Code.solo_transaction (solo_lockRow fun held => ?_))
  dsimp only [id]
  rw [hb]
  dsimp only
  rw [if_neg (by simp [hhold])]
  refine solo_read (solo_orThrow hb (solo_ensure (by rw [hhold]; rfl) (solo_updateBooking hb fun held => ?_)))
  refine solo_updateMany fun held => solo_insertAt fun held => solo_insertAt (k := fun _ => pure ()) fun held => ?_
  have hlegal := h.failed hb ⟨b.id, failureCode, failureMessage, cause⟩ (pendingPayments b.id d)
    { organizationId := b.organizationId, bookingId := b.id, fromStatus := some b.status
      toStatus := .PAYMENT_FAILED, actorType := "SYSTEM", reason := some cause.reason }
    { organizationId := b.organizationId, aggregateType := "Booking", aggregateId := b.id
      eventType := .BOOKING_PAYMENT_FAILED
      payload := [("organizationId", b.organizationId), ("bookingId", b.id)] } ⟨rfl, rfl⟩
  exact ⟨decide_eq_true hlegal, hQ _ hlegal rfl rfl⟩

theorem solo_findBooking {sessionId : String} {clientReferenceId : Option String}
    {Q : Option String → List Lock → (Db → Db) → Db → Prop} {held : List Lock}
    (h : Q ((foundBooking sessionId clientReferenceId d).map Booking.id) held id d) :
    (findBooking sessionId clientReferenceId).Solo Q held id d := by
  refine solo_read ?_
  dsimp only [id]
  cases hsession : d.bookings.find? (fun b => decide (b.stripeCheckoutSessionId = some sessionId)) with
  | some b =>
    have hQ : Q (some b.id) held id d := by simpa [foundBooking, hsession] using h
    exact hQ
  | none =>
    cases hreference : readString clientReferenceId with
    | none =>
      have hQ : Q none held id d := by simpa [foundBooking, hsession, hreference] using h
      exact hQ
    | some bookingId =>
      have hQ : Q ((Table.find bookingId d.bookings).map Booking.id) held id d := by
        simpa [foundBooking, hsession, hreference] using h
      exact hQ

/-- An event of a failed session, from whatever account, changes a booking that waits. -/
theorem solo_failed (hlegal : Legal d) {api : Api} {event : StripeWebhookEvent}
    (hevent : Table.find event.stripeEventId d.stripeWebhookEvents = some event)
    (hopen : event.processedAt = none) (hkind : stripeEventKind event.type = .FAILED) {sessionId : String}
    (hsession : readString event.payload.id = some sessionId) {b : Booking}
    (hfound : foundBooking sessionId event.payload.clientReferenceId d = some b)
    (hhold : b.status = .PENDING_PAYMENT) :
    (handleStripeEvent api event.stripeEventId).Solo
      (fun _ _ _ d' => d'.bookings = Table.update [b.id] Booking.paymentFailed d.bookings) [] id d := by
  refine solo_read ?_
  dsimp only [id]
  rw [hevent]
  dsimp only
  rw [if_neg (by simp [hopen])]
  refine Code.solo_tryCatch (Code.solo_bind ?_)
  unfold dispatch
  rw [hkind]
  dsimp only
  unfold failSession
  rw [hsession]
  refine Code.solo_bind (solo_findBooking ?_)
  rw [hfound]
  refine solo_markPaymentFailed hlegal (find_of_foundBooking hlegal hfound) hhold
    fun d' hlegal' hbookings hevents => ?_
  refine ⟨{}, Code.solo_transaction ?_⟩
  exact ⟨decide_eq_true (hlegal'.processed _ 0), hbookings⟩

end Failure

/-- The event is handled, by any number of clients. -/
def HandlesEvent (api : Api) (event : StripeWebhookEvent) (c : Tx Unit) : Prop :=
  c = handleStripeEvent api event.stripeEventId

/-- An event of a session leaves everything alone if it was processed before or spares the bookings; and a
failure leaves everything alone only then. -/
theorem event_untouched {d : Db} (hlegal : Legal d) {api : Api} {event : StripeWebhookEvent}
    (hevent : Table.find event.stripeEventId d.stripeWebhookEvents = some event)
    (hkind : stripeEventKind event.type ∈ [.PAID, .FAILED]) :
    (event.processedAt ≠ none ∨ Spared event.type event.payload d →
      ∀ s : Sys store, Sys.Reach (HandlesEvent api event) .none { db := d } s → Untouched d s.db) ∧
    (stripeEventKind event.type = .FAILED →
      (∀ s : Sys store, Sys.Reach (HandlesEvent api event) .none { db := d } s → Untouched d s.db) →
      event.processedAt ≠ none ∨ Spared event.type event.payload d) := by
  refine ⟨fun hspared s hrun => ?_, fun hfailed hall => ?_⟩
  · have hkept : Kept event d d := {
      bookings := rfl
      history := rfl
      payments := rfl
      outbox := rfl
      organizations := rfl
      event := fun e he => by
        obtain rfl := Option.some.inj (hevent.symm.trans he)
        exact ⟨rfl, rfl, fun h => h⟩ }
    exact (Sys.Reach.invariant (P := handling event d) (I := fun _ => True)
      (fun c (hc : c = _) => hc ▸ handling_safe hlegal hkind hspared) (fun _ _ _ _ _ _ => trivial) hkept trivial
      hrun).1.toUntouched
  · by_cases hopen : event.processedAt = none
    · refine .inr fun sessionId hsession b hfound => ⟨fun _ hhold => ?_, fun hpaid => ?_⟩
      · have hhandles : HandlesEvent api event (handleStripeEvent api event.stripeEventId) := rfl
        obtain ⟨s, hrun, hbookings⟩ :=
          Sys.Reach.solo hhandles (solo_failed hlegal hevent hopen hfailed hsession hfound hhold)
        have hb := find_of_foundBooking hlegal hfound
        have hsame : Table.find b.id s.db.bookings = some b := by rw [(hall s hrun).bookings, hb]
        rw [hbookings, Table.find_update_of_mem (by exact fun _ => rfl) (by simp), hb] at hsame
        have hstatus := congrArg Booking.status (Option.some.inj hsame)
        rw [hhold] at hstatus
        cases hstatus
      · rw [hfailed] at hpaid
        cases hpaid
    · exact .inl hopen

/-- The account is neither one that the booking was paid on nor, if nothing was paid on any, the one of its
organization. -/
structure ForeignTo (b : Booking) (account : String) (d : Db) : Prop where
  payments : ∀ p ∈ d.payments, p.bookingId = b.id → p.stripeAccountId ≠ some account
  organization : (∀ p ∈ d.payments, p.bookingId ≠ b.id) →
    (Table.find b.organizationId d.organizations).bind Organization.stripeAccountId ≠ some account

/-- A session of another account has failed, which was opened with the reference "b". -/
def StripeWebhookEvent.foreign : StripeWebhookEvent where
  stripeEventId := "evt"
  type := "checkout.session.expired"
  payload := { id := some "cs_2", clientReferenceId := some "b", account := some "acct_2" }

/-- A booking in its hold or after it, of an organization with an account of its own. -/
def Db.owned (booking : Booking) : Db :=
  { Db.sample [booking] with
    organizations := [{ id := "o", stripeAccountId := some "acct_1" }]
    stripeWebhookEvents := [.foreign] }

/-- The event finds the booking confirmed. -/
theorem event_untouched_sample : ¬∃ s : Sys store,
    Sys.Reach (HandlesEvent .sample .foreign) .none { db := Db.owned .sample } s ∧
      ¬ Untouched (.owned .sample) s.db := by
  rintro ⟨s, hs, hnot⟩
  refine hnot ((event_untouched (by decide) rfl (by decide)).1 (.inr fun sessionId hsession b hb => ?_) s hs)
  obtain rfl : "cs_2" = sessionId := Option.some.inj hsession
  obtain rfl : Booking.sample = b := Option.some.inj hb
  exact ⟨fun _ => by simp [Booking.sample], fun hpaid => by cases hpaid⟩

/-- The event finds the booking waiting for its payment: it fails. -/
theorem foreign_event_touches : ¬ ∀ (d : Db) (api : Api) (event : StripeWebhookEvent) (sessionId : String)
    (b : Booking) (account : String), Legal d →
    Table.find event.stripeEventId d.stripeWebhookEvents = some event →
    stripeEventKind event.type ∈ [.PAID, .FAILED] → readString event.payload.id = some sessionId →
    foundBooking sessionId event.payload.clientReferenceId d = some b →
    readString event.payload.account = some account → ForeignTo b account d →
    ∀ s : Sys store, Sys.Reach (HandlesEvent api event) .none { db := d } s → Untouched d s.db := by
  intro h
  have hlegal : Legal (.owned .held) := by decide
  have hforeign : ForeignTo .held "acct_2" (.owned .held) := by
    refine ⟨fun p hp => ?_, fun _ => by decide⟩
    cases hp
  have hhandles : HandlesEvent .sample .foreign (handleStripeEvent .sample "evt") := rfl
  obtain ⟨s, hrun, hbookings⟩ := Sys.Reach.solo hhandles
    (@solo_failed _ hlegal _ .foreign rfl rfl (by decide) _ rfl _ rfl rfl)
  have hsame := (h (.owned .held) .sample .foreign "cs_2" .held "acct_2" hlegal rfl (by decide) rfl rfl rfl
    hforeign s hrun).bookings
  rw [hbookings] at hsame
  revert hsame
  decide

end BookingApp

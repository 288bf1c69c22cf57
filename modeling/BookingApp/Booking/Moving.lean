import BookingApp.Booking.Closing
import BookingApp.Booking.Occupying

/-!
# Moving an appointment keeps to the protocol

An approval holds the calendars of both employees and the row of the request, but it
reads the original without a lock: the status it found may be gone when it cancels it.
-/

set_option autoImplicit false

namespace BookingApp

open ReadCommitted ReadCommitted.Proto

variable {rules : BookingRules} {held : List Lock} {δ : Db → Db} {d : Db}

theorem runs_assertReschedulable {P : Proto store} {booking : Booking} {β : Type} {k : Unit → Tx β}
    {Q : β → List Lock → (Db → Db) → Db → Prop}
    (h : ∀ d', P.Elapse held d d' → booking.status = .CONFIRMED →
      Runs P (k ()) Q held δ d') :
    Runs P (assertReschedulable booking >>= k) Q held δ d :=
  .bind (.ensure fun hstatus => .now fun d₁ r₁ _ _ => wp_ensure (fun _ => h d₁ r₁ hstatus)
    fun _ => trivial)

theorem runs_openRescheduleOnce (hrules : rules.Sound) {booking : Booking}
    {input : RequestRescheduleInput} :
    Runs (lifecycle rules) (openRescheduleOnce booking input)
      ((lifecycle rules).Commits .plain fun _ _ _ _ => True) [] id d := by
  refine .lockRow (fun _ _ _ _ => .fail) fun d₁ b _ _ hb => ?_
  obtain ⟨hb, -⟩ := Option.filter_eq_some_iff.mp hb
  have hid : b.id = booking.id := Table.key_of_find hb
  rw [← hid] at hb
  refine runs_assertReschedulable fun d₂ r₂ hstatus => .freshId fun d₃ r₃ _ id => ?_
  refine .insertAt fun d₄ r₄ _ => .ret fun d' r i _ hl => ?_
  have hb' := (locked_booking (r₂.trans (r₃.trans (r₄.trans r.elapse))) (by simp)).row b hb
  refine ⟨guarantee_asked hrules i (List.append_nil _).symm rfl rfl hid hb' hstatus (by simp)
    (fun q hq => ?_) (of_decide_eq_true hl) (by simp [hid]), trivial⟩
  rw [List.mem_singleton.mp hq]

theorem runs_requestByCustomer (hrules : rules.Sound) {api : Api} {input : RequestRescheduleInput} :
    Runs (lifecycle rules) (requestByCustomer api input) (fun _ _ _ _ => True) held id d := by
  refine .bind (.read fun d₁ _ _ => ?_)
  split
  · exact .fail
  refine .ret (runs_assertReschedulable fun d₂ _ _ => .bind (runs_assertWithinWindow fun d₃ _ => ?_))
  refine .bind (runs_loadForSlot fun d₄ _ d₅ snapshot _ _ _ _ => .ofExcept fun bookable _ =>
    wp_ensure (fun _ => ?_) fun _ => trivial)
  refine .tryCatch (.withSerializationRetry fun _ _ _ _ _ => .transaction fun _ _ _ =>
    runs_openRescheduleOnce hrules) fun e held δ d => ?_
  split <;> exact .fail

theorem runs_lockRescheduleRequest {api : Api} {requestId : String}
    {Q : RescheduleRequest → List Lock → (Db → Db) → Db → Prop}
    (h : ∀ d' q, (lifecycle rules).Elapse held d d' → Table.find requestId d'.rescheduleRequests = some q →
      q.id = requestId → q.organizationId = api.organizationId → q.decision = .PENDING →
      Q q (held ++ [.rescheduleRequest requestId]) id d') :
    Runs (lifecycle rules) (lockRescheduleRequest api requestId) Q held id d := by
  refine .lockRow (fun _ _ _ _ => .fail) fun d₁ locked r₁ _ hlocked => .ensure fun hopen =>
    .read fun d₂ r₂ _ => wp_orThrow (fun q hq => ?_) fun _ => trivial
  obtain ⟨hlocked, -⟩ := Option.filter_eq_some_iff.mp hlocked
  obtain ⟨hq, horganization⟩ := Option.filter_eq_some_iff.mp hq
  have hid : locked.id = requestId := Table.key_of_find hlocked
  have hsame : SameRow Db.rescheduleRequests locked.id d₁ d₂ := locked_reschedule r₂ (by simp)
  obtain rfl : locked = q := Option.some.inj ((hid ▸ hsame locked (hid ▸ hlocked)).symm.trans hq)
  have hend := h d₂ locked (r₁.trans (r₂.weaken fun _ hl => List.mem_append_left _ hl)) hq hid
    (of_decide_eq_true horganization) hopen
  rwa [hid]

theorem runs_writeDecision {P : Proto store} {input : DecideRescheduleInput} {resultingBookingId : Option String}
    {Q : Unit → List Lock → (Db → Db) → Db → Prop}
    (h : ∀ d' decidedAt, P.Elapse held d d' →
      Q () (held ++ [.rescheduleRequest input.requestId]) (fun x => (δ x).onRescheduleRequests
        (Table.update [input.requestId] (input.decided decidedAt resultingBookingId))) d') :
    Runs P (writeDecision input resultingBookingId) Q held δ d :=
  .now fun _ r₁ _ decidedAt => .modify fun d₂ r₂ _ _ => .discard (wp_orThrow
    (fun _ _ => h d₂ decidedAt (r₁.trans r₂)) fun _ => trivial)

theorem DecideRescheduleInput.decides (input : DecideRescheduleInput) (decidedAt : Int)
    (resultingBookingId : Option String) : DecidesReschedule (input.decided decidedAt resultingBookingId) := by
  intro r
  refine ⟨rfl, rfl, ?_⟩
  unfold DecideRescheduleInput.decided
  cases input.decision <;> simp [Verdict.toDecision]

/-- The links that are revoked, and the one that is new. -/
theorem runs_rotateToken {P : Proto store} {api : Api} {oldBookingId newBookingId organizationId : String}
    {endsAt : Int}
    {Q : String × List String → List Lock → (Db → Db) → Db → Prop}
    (h : ∀ d' token revoked revoke new more, P.Elapse held d d' →
      (∀ t, (revoke t).revokedAt ≠ none) → new.bookingId = newBookingId →
      Q (token, revoked) (held ++ more)
        (fun x => ((δ x).onTokens (Table.update revoked revoke)).onTokens (· ++ [new])) d') :
    Runs P (rotateToken api oldBookingId newBookingId organizationId endsAt) Q held δ d := by
  refine .bind (.now fun d₁ r₁ _ _ => wp_modify (fun _ _ _ => trivial) fun d₂ r₂ _ _ => ?_)
  refine .bind (.answer fun d₃ r₃ _ token => .insertAt fun d₄ r₄ _ => .ret (.ret ?_))
  refine h d₄ _ _ _ _ _ (r₁.trans (r₂.elapse.trans ((r₃.trans r₄).weaken fun _ hl =>
    List.mem_append_left _ hl))) (fun _ => by simp) rfl

/-- The commit of an approval: the original was read confirmed, and the replacement is clear. -/
theorem guarantee_replaced (hrules : rules.Sound) (hinv : (lifecycle rules).Inv d) {d' : Db}
    {b created : Booking} {id requestId : String} {ending : Ending} {canceled row : BookingStatusHistory}
    {h : RescheduleRequest → RescheduleRequest} {revoked : List String}
    {revoke : ManagementToken → ManagementToken} {token : ManagementToken} {events : List OutboxEvent}
    (hbookings : d'.bookings = Table.update [id] ending.applyTo (d.bookings ++ [created]))
    (hhistory : d'.bookingStatusHistory = d.bookingStatusHistory ++ [canceled, row])
    (htokens : d'.managementTokens = Table.update revoked revoke d.managementTokens ++ [token])
    (hreschedules : d'.rescheduleRequests = Table.update [requestId] h d.rescheduleRequests)
    (hevents : d'.outboxEvents = d.outboxEvents ++ events)
    (hrest : d' = { d with
      bookings := d'.bookings, bookingStatusHistory := d'.bookingStatusHistory
      managementTokens := d'.managementTokens, rescheduleRequests := d'.rescheduleRequests
      outboxEvents := d'.outboxEvents })
    (hid : b.id = id) (hb : Table.find b.id d.bookings = some b)
    (hread : ∃ d₀, rules.conditions.Assume (.approval id) d₀ ∧ Table.find id d₀.bookings = some b)
    (hassume : rules.conditions.Assume (.leaving id (some (.rescheduleRequest requestId)) revoked) d)
    (hpaid : b.status ∉ UNPAID_BOOKING_STATUSES) (hends : ending.status = .CANCELED_BY_BUSINESS)
    (hcanceled : canceled.bookingId = id ∧ canceled.fromStatus = some .CONFIRMED ∧
      canceled.toStatus = .CANCELED_BY_BUSINESS)
    (hcreated : Created created row [token] events) (hsilent : announcements events = [])
    (hsold : created.sold = b.sold) (hclear : rules.Vacant created d)
    (hconfirmed : created.status = .CONFIRMED) (hreplaces : created.rescheduledFromBookingId = some id)
    (hdecides : DecidesReschedule h) (hrevoke : ∀ t, (revoke t).revokedAt ≠ none)
    (hsucceeds : created.Succeeds b) (hlegal : Legal d')
    (hbooking : .booking id ∈ held) (hcalendar : .calendar created.employeeId ∈ held)
    (hrequest : .rescheduleRequest requestId ∈ held) : (lifecycle rules).Guarantee held d d' := by
  subst hid
  refine lifecycle_guarantee hrules hinv (.replaced b created ending.applyTo canceled row requestId h
    revoked revoke token events hb hread hassume hpaid (fun _ => rfl) rfl rfl hends hcanceled hcreated
    hsilent hsold hclear hconfirmed hreplaces hdecides hrevoke hsucceeds ?_) hlegal ?_
  · rw [hrest, hbookings, hhistory, htokens, hreschedules, hevents]
  · exact {
      booking := fun i hi x hx => by
        have hne : i ∉ [b.id] := fun he => hi (List.mem_singleton.mp he ▸ hbooking)
        rw [hbookings, Table.find_update_of_notMem (by exact fun _ => rfl) hne]
        exact Table.find_append_of_some hx
      created := fun x hx => by
        rw [hbookings] at hx
        obtain ⟨x₀, hx₀, rfl⟩ := Table.mem_update.mp hx
        rcases List.mem_append.mp hx₀ with hold | hnew
        · refine .inl ⟨x₀, hold, ?_⟩
          split <;> rfl
        · obtain rfl := List.mem_singleton.mp hnew
          refine .inr ?_
          split <;> exact hcalendar
      blockedTimes := fun t ht => .inl (by rw [hrest] at ht; exact ht)
      timeOff := fun t ht => .inl (by rw [hrest] at ht; exact ht)
      openCancellations := fun r hr _ => .inl (by rw [hrest] at hr; exact hr)
      openReschedules := fun r hr hopen =>
        .inl (reschedule_of_update hdecides (hreschedules ▸ hr) hopen).1
      payment := fun _ _ _ hp => by rw [hrest]; exact ⟨hp, rfl⟩
      refund := fun _ _ _ hr => by rw [hrest]; exact hr
      cancellation := fun _ _ _ hr => by rw [hrest]; exact hr
      reschedule := fun i hi => sameRow_update (fun r => (hdecides r).1) hreschedules
        fun he => hi (List.mem_singleton.mp he ▸ hrequest) }

/-- The replacement stands where the slot was found free. -/
theorem block_replacement (b : Booking) (snapshot : AvailabilitySnapshot) (employeeId : String)
    (startsAt confirmedAt : Int) (ids : Answer) :
    (b.replacement employeeId startsAt confirmedAt ids).block =
      (asSoldSnapshot snapshot b).service.block startsAt := rfl

/-- What was sold is one of the terms. -/
theorem sold_of_terms {b b' : Booking} (h : b.terms = b'.terms) : b.sold = b'.sold := by
  change b.terms.sold = b'.terms.sold
  rw [h]

/-- A replacement succeeds the row it was read from, and every later one. -/
theorem succeeds_replacement {b b' : Booking} (h : b.terms = b'.terms) {employeeId : String}
    {startsAt confirmedAt : Int} {ids : Answer} :
    (b.replacement employeeId startsAt confirmedAt ids).Succeeds b' where
  root := congrArg some (rootId_of_terms h)
  organization := by
    change b.terms.organizationId = b'.terms.organizationId
    rw [h]
  customer := by
    change b.terms.customerId = b'.terms.customerId
    rw [h]
  currency := by
    change b.terms.currency = b'.terms.currency
    rw [h]

theorem asSoldSnapshot_valid {booking : Booking} (h : booking.sold.Valid)
    (snapshot : AvailabilitySnapshot) : (asSoldSnapshot snapshot booking).service.Valid :=
  ⟨h.duration, h.prep, h.cleanup⟩

/-- A decision, once the calendars of the request that was read are locked. -/
theorem runs_decideLocked (hrules : rules.Sound) {api : Api} (hapi : rules.Admits api)
    {input : DecideRescheduleInput} {q : RescheduleRequest} {b₀ : Booking} {before : Db}
    (hbefore : (lifecycle rules).Elapse [] before d)
    (hq : Table.find input.requestId before.rescheduleRequests = some q)
    (hb₀ : Table.find q.bookingId before.bookings = some b₀)
    (hcalendar : .calendar (q.requestedEmployeeId.getD b₀.employeeId) ∈ held) :
    Runs (lifecycle rules) (decideLocked api input)
      ((lifecycle rules).CommitsBy (movePoint input.requestId) fun _ _ _ _ => True) held id d := by
  refine .bind (runs_lockRescheduleRequest fun d₁ q' r₁ hq' _ horganization hopen => ?_)
  have hsince := hbefore.trans (r₁.weaken (by simp))
  obtain rfl := elapse_open hsince hq hq' hopen
  split
  · refine .bind (runs_writeDecision fun d₂ decidedAt r₂ => .ret fun d' r i _ hl => ?_)
    exact ⟨guarantee_decided hrules i (g := fun r => { r with decision := .REJECTED })
      Table.update_none.symm rfl rfl (fun _ => ⟨rfl, rfl, by simp⟩) (input.decides decidedAt none)
      (of_decide_eq_true hl) (by simp) (by simp), trivial⟩
  refine .map (.now fun d₂ r₂ _ instant => .read fun d₃ r₃ i₃ => .orThrow fun booking hbooking =>
    .ensure fun hstatus => runs_loadForSlot fun d₀ d₁' d₄ snapshot r₄ hleave hseen hview =>
      runs_assertSlotBookable fun hbookable => .ensure fun htransition => .answer fun d₅ r₅ _ ids => ?_)
  dsimp only
  obtain ⟨hfind, howner⟩ := Option.filter_eq_some_iff.mp hbooking
  have hid : booking.id = q'.bookingId := Table.key_of_find hfind
  rw [← hid] at hb₀ hfind
  have horganization' : booking.organizationId = api.organizationId :=
    (of_decide_eq_true howner).trans horganization
  have hheld : held ⊆ held ++ [.rescheduleRequest input.requestId] := List.subset_append_left _ _
  -- the calendar of the slot was locked for the employee that the booking had before
  obtain ⟨x, hx, hterms⟩ := elapse_terms (hsince.trans ((r₂.trans r₃).weaken (by simp))) hb₀
  obtain rfl : booking = x := Option.some.inj (hfind.symm.trans hx)
  rw [← (sameCalendar_of_terms hterms).2.1] at hcalendar
  refine .insertAt fun d₆ r₆ _ => .ensure fun _ => .updateBookingAt fun d₇ r₇ _ happroval b hb => ?_
  refine .insertAt fun d₈ r₈ _ => .bind (runs_rotateToken fun d₉ token revoked revoke new more r₉
    hrevoke hnew => ?_)
  refine .bind (runs_writeDecision fun d₁₀ decidedAt r₁₀ => .insertAt fun d₁₁ r₁₁ _ =>
    .insertAt fun d₁₂ r₁₂ _ => .ret fun d' r i ha hl => ?_)
  have r₃' := r₄.trans (r₅.trans (r₆.trans r₇))
  have r₉' := r₁₀.trans ((r₁₁.trans (r₁₂.trans r.elapse)).weaken fun _ hl => List.mem_append_left _ hl)
  have r₇' := r₈.trans (r₉.trans (r₉'.weaken fun _ hl => List.mem_append_left _ hl))
  -- the row that is canceled is the one that was read, but for what happened in between
  obtain ⟨x, hx, hterms'⟩ := elapse_terms r₃' hfind
  obtain rfl : b = x := Option.some.inj (hb.symm.trans (Table.find_append_of_some hx))
  have hbid : b.id = booking.id := Table.key_of_find hx
  have hpaid := elapse_paid r₃' hfind hx (by simp [hstatus, UNPAID_BOOKING_STATUSES])
  have hb' := (locked_booking r₇' (by simp)).row b hx
  have hclear : rules.Vacant (booking.replacement (q'.requestedEmployeeId.getD booking.employeeId)
      q'.requestedStartsAt instant ids) d' := {
    clear := fun hclears t ht ho hemployee => by
      have hsold : booking.sold.Valid := rules.sold hclears d₃ i₃.2 booking (Table.mem_of_find hfind)
      have hsame := locked_calendar (hseen.trans ((r₅.trans (r₆.trans r₇)).trans
        (r₇'.weaken fun _ hl => List.mem_append_left _ hl))) (hheld hcalendar)
      rw [block_replacement booking snapshot]
      exact hview.clear (rules.steady hclears _ hapi.zone) (by rfl) (by rfl)
        (asSoldSnapshot_valid hsold snapshot) hbookable t (hsame.blockedTimes t ht hemployee)
        (ho.trans horganization') hemployee
    duty := fun zoneOf hzones => by
      have hsold : booking.sold.Valid := rules.known (by rw [hzones]; exact Option.some_ne_none _) d₃ i₃.2 booking
        (Table.mem_of_find hfind)
      have hsame := locked_calendar (hleave.trans ((r₅.trans (r₆.trans r₇)).trans
        (r₇'.weaken fun _ hl => List.mem_append_left _ hl))) (hheld hcalendar)
      have hzone : zoneOf booking.organizationId = api.timezone := by
        rw [horganization', hapi.zones zoneOf hzones]
      exact hzone ▸ hview.duty (by rfl) (by rfl) (asSoldSnapshot_valid hsold snapshot) hbookable rfl
        (block_replacement booking snapshot _ _ _ _) horganization' rfl hsame.timeOff }
  refine ⟨guarantee_replaced hrules i rfl (by exact rfl) rfl rfl (List.append_assoc _ _ _) rfl hbid
    (hbid ▸ hb') ⟨d₇, happroval, hx⟩ ha hpaid rfl ⟨rfl, congrArg some hstatus, rfl⟩ ?_ rfl ?_ hclear rfl rfl
    (input.decides decidedAt _) hrevoke (succeeds_replacement hterms'.symm) (of_decide_eq_true hl)
    (by simp) ?_ (by simp), trivial⟩
  · exact {
      status := htransition
      history := ⟨rfl, rfl, rfl⟩
      tokens := fun t ht => List.mem_singleton.mp ht ▸ hnew
      announced := .inl rfl
      session := rfl }
  · have hsold : booking.sold = b.sold := sold_of_terms hterms'.symm
    exact hsold
  · exact List.mem_append_left _ (List.mem_append_left _ (List.mem_append_left _ (hheld hcalendar)))

/-- The request that is read first names the calendars that the decision needs. -/
theorem runs_decideRescheduleOnce (hrules : rules.Sound) {api : Api} (hapi : rules.Admits api)
    {input : DecideRescheduleInput} :
    Runs (lifecycle rules) (decideRescheduleOnce api input) (fun _ _ _ _ => True) held δ d := by
  refine .query fun d₁ _ _ => ?_
  split
  · exact .fail
  rename_i request employeeId hread
  obtain ⟨q, hq, hread⟩ := Option.bind_eq_some_iff.mp hread
  obtain ⟨b, hb, he⟩ := Option.map_eq_some_iff.mp hread
  cases he
  obtain ⟨hq, -⟩ := Option.filter_eq_some_iff.mp hq
  refine .bind (.refuseOverlap (.transactionBy fun d₂ r₂ _ => .withCalendarLock
    fun d₃ held' r₃ hcalendar => ?_))
  refine .mono (runs_decideLocked hrules hapi (r₂.trans r₃) hq hb (hcalendar _ (by simp)))
    fun moved held δ d hcommit d' r i ha hl => ⟨(hcommit d' r i ha hl).1, .ret trivial⟩

theorem runs_decideReschedule (hrules : rules.Sound) {api : Api} (hapi : rules.Admits api)
    {input : DecideRescheduleInput} :
    Runs (lifecycle rules) (decideReschedule api input) (fun _ _ _ _ => True) held δ d :=
  .withSerializationRetry fun _ _ _ _ _ => runs_decideRescheduleOnce hrules hapi

end BookingApp

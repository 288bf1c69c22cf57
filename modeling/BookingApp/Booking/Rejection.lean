import BookingApp.Booking.Endings
import BookingApp.ReadCommitted.Alone

/-!
# Rejecting a cancellation request (`cancellation.service.ts`)

A rejection closes the request and leaves the appointment as it was. The source
checks the amount to retain before it looks at the verdict, so a rejection, too,
needs that amount to lie within the money received by then.
-/

set_option autoImplicit false

namespace BookingApp

open ReadCommitted Code

section Received

/-- Every amount is a safe integer. -/
theorem Money.safe_of_fromCents {n : Int} {currency : String} {m : Money}
    (h : Money.fromCents n currency = .ok m) : Money.isSafeInteger m.amountCents = true := by
  unfold Money.fromCents at h
  split at h
  · cases h
    assumption
  · cases h

theorem Money.safe_of_addCents {total m : Money} {cents : Int} {currency : String}
    (h : total.addCents cents currency = .ok m) : Money.isSafeInteger m.amountCents = true := by
  obtain ⟨amount, -, h⟩ := bind_eq_ok.mp h
  unfold Money.plus at h
  obtain ⟨-, -, h⟩ := bind_eq_ok.mp h
  exact Money.safe_of_fromCents h

theorem Money.safe_of_foldlM {ρ : Type} {cents : ρ → Int} {currency : ρ → String} (rows : List ρ) :
    ∀ {total m : Money}, Money.isSafeInteger total.amountCents = true →
      rows.foldlM (fun total r => total.addCents (cents r) (currency r)) total = .ok m →
      Money.isSafeInteger m.amountCents = true := by
  induction rows with
  | nil =>
    intro total m htotal h
    cases h
    exact htotal
  | cons r rows ih =>
    intro total m _ h
    rw [List.foldlM_cons] at h
    obtain ⟨next, hnext, h⟩ := bind_eq_ok.mp h
    exact ih (Money.safe_of_addCents hnext) h

theorem receivedFrom_safe {payments : List Payment} {manualPayments : List ManualPayment}
    {currency : String} {m : Money} (h : receivedFrom payments manualPayments currency = .ok m) :
    Money.isSafeInteger m.amountCents = true := by
  obtain ⟨card, hcard, h⟩ := bind_eq_ok.mp h
  exact Money.safe_of_foldlM _ (Money.safe_of_foldlM _ rfl hcard) h

/-- The money received for a booking: what is recorded on its financial root. -/
def receivedFor (booking : Booking) (d : Db) : Except Failure Money :=
  let root := booking.financialRootBookingId.getD booking.id
  receivedFrom (d.payments.filter fun p => decide (p.bookingId = root))
    (d.manualPayments.filter fun p => decide (p.bookingId = root)) booking.currency

variable {api : Api}

theorem runAlone_ofExcept {α : Type} (result : Except Failure α) (s : Alone store) :
    (ofExcept result).runAlone s = (result, s) := by
  cases result <;> rfl

theorem runAlone_paidTotal {booking : Booking} {id : String} {s : Alone store}
    (h : findIn Booking.organizationId api.organizationId id s.view.bookings = some booking) :
    (paidTotal api booking).runAlone s = (receivedFor booking s.view, s) := by
  have hid : booking.id = id := Table.key_of_find (Option.filter_eq_some_iff.mp h).1
  unfold paidTotal
  rw [runAlone_bind, runAlone_rootBookingId (hid ▸ h)]
  dsimp only
  rw [runAlone_bind]
  simp only [read, runAlone_select]
  rw [runAlone_bind]
  simp only [runAlone_select, runAlone_ofExcept]
  rfl

end Received

section Decision

/-- The amount to retain that a decision stands for: the one it names, or else the suggestion. -/
def DecideRequestInput.asked (input : DecideRequestInput) (request : CancellationRequest) : Int :=
  input.retainedAmountCents.getD request.suggestedRetainedAmountCents

theorem validateRetained_isOk_iff {input : DecideRequestInput} {request : CancellationRequest}
    {paid : Money} (hsafe : Money.isSafeInteger paid.amountCents = true) :
    (∃ retained, validateRetained input request paid = .ok retained) ↔
      0 ≤ input.asked request ∧ input.asked request ≤ paid.amountCents := by
  simp only [Money.isSafeInteger, Bool.and_eq_true, decide_eq_true_eq] at hsafe
  unfold validateRetained DecideRequestInput.asked
  dsimp only
  split
  · rename_i hout
    constructor
    · rintro ⟨retained, h⟩
      cases h
    · omega
  · rename_i hin
    refine ⟨fun _ => by omega, fun _ => ⟨_, Money.fromCents_of_range (by omega) (by omega)⟩⟩

/-- Closing a request breaks no constraint. -/
theorem Legal.closeCancellationRequest {d : Db} (h : Legal d) {ids : List String}
    {f : CancellationRequest → CancellationRequest}
    (hf : ∀ r, (f r).id = r.id ∧ (f r).organizationId = r.organizationId ∧
      (f r).bookingId = r.bookingId ∧ (f r).decision ≠ .PENDING) :
    Legal (d.onCancellationRequests (Table.update ids f)) where
  bookings := { h.bookings with }
  payments := { h.payments with }
  refunds := { h.refunds with }
  requests := { h.requests with
    cancellation_pkey := Table.nodup_map_update h.requests.cancellation_pkey fun r => (hf r).1
    cancellation_one_open := by
      refine List.Sublist.nodup (List.Sublist.map _ ?_) h.requests.cancellation_one_open
      rw [Db.onCancellationRequests_cancellationRequests]
      induction d.cancellationRequests with
      | nil => exact List.Sublist.refl _
      | cons r rest ih =>
        rw [Table.update_cons]
        split
        · rw [List.filter_cons_of_neg (by simpa using (hf r).2.2.2)]
          exact ih.trans ((List.sublist_cons_self r rest).filter _)
        · rw [List.filter_cons, List.filter_cons]
          split
          · exact ih.cons_cons r
          · exact ih
    cancellation_fkey := Table.forall_update (fun r hr => by rw [(hf r).2.1, (hf r).2.2.1]; exact hr)
      h.requests.cancellation_fkey }
  calendar := { h.calendar with }

variable {api : Api} {input : DecideRequestInput} {s : Alone store} {r : CancellationRequest}
  {b : Booking}

theorem runAlone_discard_lockStatus {id : String}
    (h : findIn Booking.organizationId api.organizationId id s.view.bookings = some b) :
    Code.runAlone (discard (lockStatus id api.organizationId)) s = (.ok (), s) := by
  have hrow : (lockRow (fun b : Booking => .booking b.id) fun d : Db =>
      findIn Booking.organizationId api.organizationId id d.bookings).runAlone s = (.ok (some b), s) := by
    rw [← h]
    rfl
  change Code.runAlone (lockStatus id api.organizationId >>= fun _ => pure ()) s = _
  exact runAlone_bind_ok (runAlone_bind_ok hrow)

theorem runAlone_updateCancellationRequest {f : CancellationRequest → CancellationRequest}
    (h : Table.find r.id s.view.cancellationRequests = some r) :
    (updateCancellationRequest r.id f).runAlone s =
      (.ok (), s.write fun _ => Db.onCancellationRequests (Table.update [r.id] f)) := by
  unfold updateCancellationRequest
  rw [runAlone_bind_ok (runAlone_modify ..), h]
  rfl

/-- One attempt at a rejection: the amount is checked, then the request is closed. -/
theorem runAlone_reject
    (hrequest : findCancellationRequest api input.requestId s.view = some r)
    (hpending : r.decision = .PENDING)
    (hbooking : findIn Booking.organizationId api.organizationId r.bookingId s.view.bookings = some b)
    (hreject : input.decision = .REJECTED) :
    (decideCancellationOnce api input).runAlone s =
      match receivedFor b s.view >>= validateRetained input r with
      | .error e => (.error e, s)
      | .ok _ => (.ok none, s.next.write fun _ =>
          Db.onCancellationRequests (Table.update [r.id] (input.decided (s.answers 0).now))) := by
  have hread : (read (findCancellationRequest api input.requestId)).runAlone s = (.ok (some r), s) := by
    rw [← hrequest]
    rfl
  have hlocked : (lockRow (fun r : CancellationRequest => .cancellationRequest r.id)
      (findCancellationRequest api input.requestId)).runAlone s = (.ok (some r), s) := hread
  have hreadBooking : (read fun d : Db =>
      findIn Booking.organizationId api.organizationId r.bookingId d.bookings).runAlone s =
      (.ok (some b), s) := by
    rw [← hbooking]
    rfl
  have hfind : Table.find r.id s.view.cancellationRequests = some r := by
    have hfound := (Option.filter_eq_some_iff.mp hrequest).1
    rwa [← Table.key_of_find hfound] at hfound
  unfold decideCancellationOnce
  rw [runAlone_bind_ok hread]
  dsimp only
  rw [runAlone_bind_ok (runAlone_discard_lockStatus hbooking), runAlone_bind_ok hlocked]
  dsimp only
  rw [ensure, if_pos hpending, runAlone_bind_ok (runAlone_pure s ()), runAlone_bind_ok hread,
    orThrow, runAlone_bind_ok (runAlone_pure s r), runAlone_bind_ok hreadBooking, orThrow,
    runAlone_bind_ok (runAlone_pure s b)]
  cases hpaid : receivedFor b s.view with
  | error e => exact runAlone_bind_error ((runAlone_paidTotal hbooking).trans (by rw [hpaid]))
  | ok paid =>
    rw [runAlone_bind_ok ((runAlone_paidTotal hbooking).trans (by rw [hpaid]))]
    rw [show (Except.ok paid >>= validateRetained input r) = validateRetained input r paid from rfl]
    cases hretained : validateRetained input r paid with
    | error e => exact runAlone_bind_error (runAlone_ofExcept (.error e) s)
    | ok retained =>
      have hnow : now.runAlone s = (.ok (s.answers 0).now, s.next) := rfl
      rw [runAlone_bind_ok (runAlone_ofExcept (.ok retained) s), runAlone_bind_ok hnow, hreject]
      exact runAlone_bind_ok (runAlone_updateCancellationRequest (s := s.next) hfind)

/-- The request of `input` in the state `d`, undecided, and the booking it is about. -/
structure OpenRequest (api : Api) (input : DecideRequestInput) (d : Db) (r : CancellationRequest)
    (b : Booking) : Prop where
  request : findCancellationRequest api input.requestId d = some r
  pending : r.decision = .PENDING
  booking : findIn Booking.organizationId api.organizationId r.bookingId d.bookings = some b
  confirmed : b.status = .CONFIRMED

/-- When a rejection goes through, changing the decision of the request and nothing else: when the
amount to retain, which a rejection does not retain, is within what has been received. Otherwise it
fails and nothing changes. -/
theorem rejection_stands_iff (hlegal : Legal s.db) (hopen : OpenRequest api input s.db r b)
    (hreject : input.decision = .REJECTED) :
    ((∃ s', (decideRequest api input).runAlone s = (.ok (), s') ∧ s'.db = s.db.onCancellationRequests
        (Table.update [r.id] (input.decided (s.answers 0).now))) ↔
      ∃ paid, receivedFor b s.db = .ok paid ∧
        0 ≤ input.asked r ∧ input.asked r ≤ paid.amountCents) ∧
    ((¬∃ paid, receivedFor b s.db = .ok paid ∧
        0 ≤ input.asked r ∧ input.asked r ≤ paid.amountCents) →
      ∃ e s', (decideRequest api input).runAlone s = (.error e, s') ∧ s'.db = s.db) := by
  have hchecked : (∃ retained, (receivedFor b s.db >>= validateRetained input r) = .ok retained) ↔
      ∃ paid, receivedFor b s.db = .ok paid ∧
        0 ≤ input.asked r ∧ input.asked r ≤ paid.amountCents := by
    cases hpaid : receivedFor b s.db with
    | error e => simp [bind, Except.bind]
    | ok paid =>
      simpa [bind, Except.bind] using
        @validateRetained_isOk_iff input r paid (receivedFrom_safe hpaid)
  have hattempt : ∀ a : Alone store, a.db = s.db →
      (decideCancellationOnce api input).runAlone (a.idleIn a.db) =
        match receivedFor b s.db >>= validateRetained input r with
        | .error e => (.error e, a.idleIn a.db)
        | .ok _ => (.ok none, (a.idleIn a.db).next.write fun _ => Db.onCancellationRequests
            (Table.update [r.id] (input.decided (a.answers 0).now))) := by
    intro a ha
    have hview : (a.idleIn a.db).view = s.db := ha
    have hrun := @runAlone_reject api input (a.idleIn a.db) r b (by rw [hview]; exact hopen.request)
      hopen.pending (by rw [hview]; exact hopen.booking) hreject
    rwa [hview] at hrun
  have hfails : (¬∃ paid, receivedFor b s.db = .ok paid ∧
        0 ≤ input.asked r ∧ input.asked r ≤ paid.amountCents) →
      ∃ e s', (decideRequest api input).runAlone s = (.error e, s') ∧ s'.db = s.db := by
    intro hnot
    rw [← hchecked] at hnot
    obtain ⟨e, he⟩ : ∃ e, (receivedFor b s.db >>= validateRetained input r) = .error e := by
      cases hres : receivedFor b s.db >>= validateRetained input r with
      | error e => exact ⟨e, rfl⟩
      | ok retained => exact absurd ⟨retained, hres⟩ hnot
    have hattempts : ∀ (_ : Nat) (a : Alone store), a.db = s.db → ∃ e s',
        (transactionBy (S := store) (decisionPoint (.cancellationRequest input.requestId))
          (decideCancellationOnce api input)).runAlone a = (.error e, s') ∧ s'.db = s.db := by
      intro _ a ha
      have hbody := hattempt a ha
      rw [he] at hbody
      exact ⟨e, _, runAlone_transactionBy_error a hbody, ha⟩
    obtain ⟨e', s', hrun, hdb⟩ := runAlone_withRetry_error hattempts 2 s rfl
    exact ⟨e', s', runAlone_bind_error hrun, hdb⟩
  refine ⟨⟨fun ⟨s', hrun, _⟩ => ?_, fun hstands => ?_⟩, hfails⟩
  · by_contra hnot
    obtain ⟨e, s'', hfailed, -⟩ := hfails hnot
    rw [hrun] at hfailed
    cases hfailed
  · obtain ⟨retained, hok⟩ := hchecked.mpr hstands
    have hbody := hattempt s rfl
    rw [hok] at hbody
    have hclosed : Legal (s.db.onCancellationRequests
        (Table.update [r.id] (input.decided (s.answers 0).now))) :=
      hlegal.closeCancellationRequest fun q => ⟨rfl, rfl, rfl, by
        show input.decision.toDecision ≠ _
        rw [hreject]
        decide⟩
    have hcommit := runAlone_transactionBy_ok (p := decisionPoint (.cancellationRequest input.requestId))
      s hbody
    have hclosed' := hcommit.trans (if_pos (decide_eq_true hclosed))
    exact ⟨_, runAlone_bind_ok (runAlone_withRetry_ok s hclosed'), rfl⟩

/-- A request that suggests to retain 50.00. -/
def CancellationRequest.sample : CancellationRequest where
  id := "r"
  organizationId := "o"
  bookingId := "b"
  suggestedRetainedAmountCents := 5000

/-- The sample booking with this request, and the cash given. -/
def Db.asking (cash : List Int) : Db :=
  { Db.sample [.sample] with
    manualPayments := cash.map fun amountCents => { bookingId := "b", amountCents, currency := "EUR" }
    cancellationRequests := [.sample] }

/-- The office rejects the request. -/
def DecideRequestInput.reject : DecideRequestInput where
  requestId := "r"
  officeUserId := "u"
  decision := .REJECTED
  mayIssueRefunds := true

/-- A client at noon, in the state `d`. -/
def aloneIn (d : Db) : Alone store where
  answers _ := { now := 43200000 }
  refusal _ := recordNotFound
  db := d

theorem openRequest_asking (cash : List Int) :
    OpenRequest .sample .reject (.asking cash) .sample .sample :=
  ⟨rfl, rfl, rfl, rfl⟩

/-- With the 50.00 in the till the request is rejected. -/
theorem rejection_stands_paid : ∃ s', (decideRequest .sample .reject).runAlone (aloneIn (.asking [5000])) =
    (.ok (), s') ∧ s'.db = (Db.asking [5000]).onCancellationRequests
      (Table.update ["r"] (DecideRequestInput.decided .reject 43200000)) :=
  (rejection_stands_iff (s := aloneIn (.asking [5000])) (by decide) (openRequest_asking [5000]) rfl).1.mpr
    ⟨⟨5000, "EUR"⟩, rfl, by decide, by decide⟩

/-- The 50.00 were a typing error, which the office has corrected, and the request that was opened
in between can no longer be rejected. -/
theorem rejection_refused :
    Legal (.asking [5000, -5000]) ∧
    OpenRequest .sample .reject (.asking [5000, -5000]) .sample .sample ∧
    ((decideRequest .sample .reject).runAlone (aloneIn (.asking [5000, -5000]))).1 = .error (.app {
      code := "VALIDATION_FAILED", message := "Retained amount must be between 0 and 0."
      details := [("paidAmountCents", "0")] }) :=
  ⟨by decide, openRequest_asking _, rfl⟩

end Decision

end BookingApp

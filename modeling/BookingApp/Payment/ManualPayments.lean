import BookingApp.Booking.Histories
import BookingApp.Messaging.Idempotency

/-!
# What moves money (`payment/manual-payment.service.ts`)

Money that did not come through the provider is recorded on the financial root of the booking
the office looks at. The root is read before the transaction that inserts the row, which does
no harm: a booking keeps its root.
-/

set_option autoImplicit false

namespace BookingApp

open ReadCommitted

/-- The root that was read is still the one of the booking when the row is inserted. -/
theorem runs_recordManualPayment {rules : BookingRules} (hrules : rules.Sound) {api : Api}
    {attempt : Attempt} {bookingId : String} {input : CreateManualPaymentRequest} {held : List Lock}
    {δ : Db → Db} {d : Db} :
    Runs (lifecycle rules) (recordManualPayment api attempt bookingId input) (fun _ _ _ _ => True) held δ d := by
  refine .query fun d₁ _ _ => ?_
  split
  · exact .fail
  split
  · exact .fail
  refine .ofExcept fun amount _ => .bind (.read fun d₂ _ _ => ?_)
  split
  · exact .fail
  rename_i row hrow
  obtain ⟨hrow, -⟩ := Option.filter_eq_some_iff.mp hrow
  refine .ret (.freshId fun d₃ r₃ _ id => .bind (.transaction fun d₄ r₄ _ => ?_))
  refine wp_insertAt (fun _ _ _ => trivial) fun d₅ r₅ _ d' r i _ hl => ?_
  obtain ⟨b, hb, hterms⟩ := elapse_terms (r₃.trans (r₄.trans (r₅.elapse.trans r.elapse))) hrow
  have hrecords : RecordsManual (d'.manualPayments ++ [{
      bookingId := row.financialRootBookingId.getD row.id
      amountCents := amount.amountCents, currency := amount.currency }]) d' := by
    intro m hm
    rcases List.mem_append.mp hm with hold | hlast
    · exact .inl hold
    · rw [List.mem_singleton.mp hlast]
      exact .inr ⟨b, Table.mem_of_find hb, rootId_of_terms hterms.symm⟩
  constructor
  · exact lifecycle_guarantee hrules i (.quiet d'.idempotencyKeys _ d'.clock _ hrecords rfl)
      (of_decide_eq_true hl) {}
  · exact .ret trivial

/-- What clients run: the operations on bookings, and the office that records manual payments. -/
inductive FinancialOperation : Tx Unit → Prop where
  | booking (c : Tx Unit) (h : BookingOperation everyRun c) : FinancialOperation c
  | recordManualPayment (api : Api) (attempt : Attempt) (bookingId : String)
      (input : CreateManualPaymentRequest) :
      FinancialOperation (discard (recordManualPayment api attempt bookingId input))

theorem FinancialOperation.safe (c : Tx Unit) (h : FinancialOperation c) : (lifecycle everyRun).Safe c := by
  cases h with
  | booking c h => exact BookingOperation.safe everyRun_sound everyRun_handles c h
  | recordManualPayment api attempt bookingId input =>
    exact fun d _ => Runs.discard (runs_recordManualPayment everyRun_sound)

end BookingApp

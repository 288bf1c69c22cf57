import BookingApp.Payment.Submitting

/-!
# When a refund is recorded as failed

A refund that the provider accepted is recorded as failed only if the provider
reported that it failed, as long as a settlement that follows an accepted call
fails with errors that are taken to be transient (`failed_of_recoverable`). Any
other error of that settlement is taken for a refusal by the provider
(`failed_though_accepted`).
-/

set_option autoImplicit false

namespace BookingApp

open ReadCommitted ReadCommitted.Proto

/-- Every error of a settlement that follows an accepted call is recoverable: the job that made
the call is run again, or the settlement is. -/
def recoverableSettlements : Conditions store where
  Assume _ _ := True
  Stable _ _ _ := True
  Fault p e := match p with
    | .settlement (.accepted left) | .totals (.accepted left) _ => Recoverable left e
    | _ => True

/-- The ledger under `recoverableSettlements`. -/
def recordedRules : LedgerRules where
  conditions := recoverableSettlements
  totals := False
  recorded := True
  stable h := h.elim
  fault _ _ _ := ⟨fun h => h, fun _ h => h⟩

/-- A refund recorded as failed was not accepted, or was reported failed or cancelled since. -/
def FailedIfUnpaid (d : Db) : Prop :=
  ∀ r ∈ d.refunds, r.status = .FAILED → ∀ s ∈ d.provider.refunds,
    s.idempotencyKey = some r.idempotencyKey → .failed ∈ s.reported ∨ .canceled ∈ s.reported

/-- The provider never refuses a key that it accepted, nor accepts one without a charge. -/
theorem Reconciled.failedIfUnpaid {d : Db} (hd : Reconciled d) (hlegal : Legal d) :
    FailedIfUnpaid d := by
  intro r hr hstatus s hs hkey
  rcases hd.unpaid r hr (.inl hstatus) with hrefused | ⟨s', hs', hkey', hreported⟩ | hcharge
  · exact absurd hkey (hd.distinct.refused _ hrefused s hs)
  · obtain rfl := hd.distinct.keys s hs s' hs' _ hkey hkey'
    exact hreported
  · obtain ⟨p, hp, -, hid⟩ := hlegal.refunds.payment_fkey r hr
    exact absurd (hcharge p hp hid) (hd.charged r hr s hs hkey p hp hid)

/-- In every run in which the settlements of accepted refunds fail recoverably. -/
theorem failed_of_recoverable {d : Db} (hd : Legal d) (hrec : Reconciled d) {s : Sys store}
    (hrun : Sys.Reach SubmissionOperation recoverableSettlements { db := d } s) :
    FailedIfUnpaid s.db := by
  have hinv := (Sys.Reach.invariant (P := ledger recordedRules) (I := fun _ => True)
    (fun _ h => h.safe) (fun _ _ _ _ _ _ => trivial) ⟨hd, fun _ => hrec⟩ trivial hrun).1
  exact (hinv.2 trivial).failedIfUnpaid hinv.1

/-- A payment with one pending refund of 40. -/
def Db.oneRefund : Db :=
  { Db.sample [.sample] with
    payments := [{
      id := "p", organizationId := "o", bookingId := "b", stripeChargeId := some "ch"
      amountCents := 100, currency := "EUR", status := .SUCCEEDED, createdAt := 0 }]
    refunds := [{
      id := "r", organizationId := "o", bookingId := "b", paymentId := "p", amountCents := 40
      currency := "EUR", status := .PENDING, reason := .GOODWILL, idempotencyKey := "k" }] }

theorem legal_oneRefund : Legal .oneRefund := by decide

theorem reconciled_oneRefund : Reconciled .oneRefund := by
  refine ⟨⟨?_, ?_, ?_⟩, ?_, ?_, ?_, ?_⟩ <;> simp [Db.oneRefund, Db.sample]

instance (left : Nat) (e : Failure) : Decidable (Recoverable left e) :=
  inferInstanceAs (Decidable (_ ∨ _))

instance : recoverableSettlements.Checkable where
  assume _ _ := .isTrue trivial
  stable _ _ _ := .isTrue trivial
  fault p e := match p with
    | .settlement (.accepted left) | .totals (.accepted left) _ =>
      inferInstanceAs (Decidable (Recoverable left e))
    | .settlement .reported | .totals .reported _ => .isTrue trivial
    | .idle | .plain | .approval _ | .leaving _ _ _ | .confirmation _ _ | .failure _ | .release _ _
    | .attachment _ _ | .reminder _ | .leave _ _ | .reservation _ _ | .keyed _ _ _ _ _ | .keySweep _
    | .retirement _ _ _ => .isTrue trivial

/-- The refund is submitted and accepted, and the first statement of its settlement fails. -/
def submittedInVain (e : Failure) : List (Action store) :=
  [.start (discard (executeRefund .sample "r")), .run 0, .answer 0 {}, .run 0, .run 0, .fail 0 e]

/-- From there the transaction is undone and a settlement is attempted. -/
def settledAfterwards : List (Action store) :=
  [.run 0, .run 0, .run 0, .answer 0 {}, .run 0, .run 0, .run 0, .run 0, .run 0]

/-- The database is gone in the middle of the settlement. -/
def connectionReset : Failure :=
  .error "read ECONNRESET"

/-- The budget of the transaction is used up. -/
def transactionTimeout : Failure :=
  .error "Transaction already closed: the timeout for this transaction was 15000 ms"

theorem failed_of_recoverable_sample : ∃ s : Sys store,
    s.db.provider.refunds.map ProviderRefund.id = ["k"] ∧ FailedIfUnpaid s.db := by
  have hexec : (Sys.exec recoverableSettlements { db := Db.oneRefund }
      (submittedInVain connectionReset)).map (fun s =>
        s.db.provider.refunds.map ProviderRefund.id) = some ["k"] := by rfl
  obtain ⟨s, hs, hid⟩ := Option.map_eq_some_iff.mp hexec
  refine ⟨s, hid, failed_of_recoverable legal_oneRefund reconciled_oneRefund ?_⟩
  refine .exec (fun _ _ => trivial) .refl ?_ hs
  simp [submittedInVain, Sys.Starts, SubmissionOperation.execute]

/-- The provider accepted the refund and never reported a failure of it, but its settlement did
not go through. -/
theorem failed_though_accepted : ¬ ∀ (d : Db) (s : Sys store), Legal d → Reconciled d →
    Sys.Reach SubmissionOperation .none { db := d } s → FailedIfUnpaid s.db := by
  intro h
  have hexec : (Sys.exec .none { db := Db.oneRefund }
      (submittedInVain transactionTimeout ++ settledAfterwards)).map (fun s =>
        (s.db.refunds.map fun r => (r.status, r.idempotencyKey), s.db.provider.refunds)) =
      some ([(.FAILED, "k")], [{ id := "k", idempotencyKey := some "k", reported := [.succeeded] }]) := by
    rfl
  obtain ⟨s, hs, he⟩ := Option.map_eq_some_iff.mp hexec
  obtain ⟨hrefunds, hprovider⟩ := Prod.mk.inj he
  have hmem : (RefundStatus.FAILED, "k") ∈ s.db.refunds.map fun r => (r.status, r.idempotencyKey) := by
    simp [hrefunds]
  obtain ⟨r, hr, hrow⟩ := List.mem_map.mp hmem
  obtain ⟨hstatus, hkey⟩ := Prod.mk.inj hrow
  have hstarts : ∀ a ∈ submittedInVain transactionTimeout ++ settledAfterwards,
      Sys.Starts SubmissionOperation a := by
    simp [submittedInVain, settledAfterwards, Sys.Starts, SubmissionOperation.execute]
  have hrun := Sys.Reach.exec (fun _ _ => trivial) .refl hstarts hs
  have := h _ s legal_oneRefund reconciled_oneRefund hrun r hr hstatus
    { id := "k", idempotencyKey := some "k", reported := [.succeeded] } (by simp [hprovider])
    (by rw [hkey])
  simp at this

end BookingApp

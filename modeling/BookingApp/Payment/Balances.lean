import BookingApp.Payment.Submitting

/-!
# The balance of a payment

What a settlement writes into a payment is right as long as no other settlement of
that payment commits between its sum and its update. Then the totals of a payment
are those of its refunds (`Balanced`), and what is refunded or about to be stays
within what was captured (`Covered`). Without it a refund can get lost in the total
(`balanced_fails`), and the room it leaves is given away twice (`covered_fails`).
-/

set_option autoImplicit false

namespace BookingApp

open ReadCommitted ReadCommitted.Proto

/-- What a payment says has been refunded is the sum of its succeeded refunds. -/
def Summed (id : String) (d : Db) : Prop :=
  ∀ p, Table.find id d.payments = some p →
    p.refundedAmountCents = refundTotal id .SUCCEEDED d.refunds

/-- The totals of a payment are those of its refunds. -/
structure Balanced (id : String) (d : Db) : Prop where
  summed : Summed id d
  status : ∀ p, Table.find id d.payments = some p →
    p.status = paymentStatusFor p.amountCents p.refundedAmountCents p.status

/-- What has been refunded of a payment, or is about to be, is no more than what it captured. -/
def Covered (id : String) (d : Db) : Prop :=
  ∀ p, Table.find id d.payments = some p →
    refundTotal id .PENDING d.refunds + refundTotal id .SUCCEEDED d.refunds ≤ p.amountCents

theorem paymentStatusFor_idem (amountCents refundedCents : Int) (current : PaymentStatus) :
    paymentStatusFor amountCents refundedCents (paymentStatusFor amountCents refundedCents current) =
      paymentStatusFor amountCents refundedCents current := by
  unfold paymentStatusFor
  grind

/-- What a move does to one payment: nothing, and then at most one reservation is made of it; or
its totals are written, with one of its refunds settled. -/
theorem LedgerMove.payment {rules : LedgerRules} {d d' : Db} (h : LedgerMove rules d d')
    (hlegal : Legal d) {id : String} {p' : Payment} (hp' : Table.find id d'.payments = some p') :
    (Table.find id d.payments = some p' ∧
      refundTotal id .SUCCEEDED d'.refunds = refundTotal id .SUCCEEDED d.refunds ∧
      (refundTotal id .PENDING d'.refunds = refundTotal id .PENDING d.refunds ∨
        p'.refundedAmountCents + refundTotal id .PENDING d'.refunds ≤ p'.amountCents)) ∨
    ∃ p refunded current, Table.find id d.payments = some p ∧
      p' = p.withTotals refunded (paymentStatusFor p.amountCents refunded current) ∧
      (rules.totals → refunded = refundTotal id .SUCCEEDED d'.refunds) ∧
      refundTotal id .PENDING d'.refunds + refundTotal id .SUCCEEDED d'.refunds ≤
        refundTotal id .PENDING d.refunds + refundTotal id .SUCCEEDED d.refunds := by
  cases h with
  | unchanged hrefunds hpayments hprovider =>
    exact .inl ⟨hpayments ▸ hp', by rw [hrefunds], .inl (by rw [hrefunds])⟩
  | reserved input p r hreserves hrefunds hpayments hprovider =>
    rw [hpayments] at hp'
    have hsucceeded : countedCents id .SUCCEEDED r = 0 := by
      simp [countedCents, hreserves.pending]
    refine .inl ⟨hp', by rw [hrefunds, refundTotal_append, hsucceeded, Int.add_zero], ?_⟩
    rw [hrefunds, refundTotal_append]
    by_cases hid : p.id = id
    · subst hid
      obtain rfl : p = p' := Option.some.inj (hreserves.found.symm.trans hp')
      have hroom := hreserves.room
      simp only [countedCents, hreserves.payment, hreserves.pending, and_self, if_true]
      omega
    · simp [countedCents, hreserves.payment, hid]
  | settled input settledAt r p refunded current hr hopen hp hsource hrefunds htotal hpayments
      hprovider =>
    rw [hpayments, Table.find_update (key_withTotals _ _)] at hp'
    by_cases hid : r.paymentId = id
    · subst hid
      rw [hp] at hp'
      refine .inr ⟨p, refunded, current, hp, by simpa using hp'.symm, htotal, ?_⟩
      have hpos := hlegal.refunds.amount_check r (Table.mem_of_find hr)
      simp only [hrefunds, refundTotal_settle hlegal hr, countedCents, SettlementInput.applyTo, hopen]
      grind
    · have hother : ∀ status, countedCents id status r = 0 ∧
          countedCents id status (input.applyTo settledAt r) = 0 := by
        simp [countedCents, SettlementInput.applyTo, hid]
      have hsame : ∀ status, refundTotal id status d'.refunds = refundTotal id status d.refunds := by
        intro status
        rw [hrefunds, refundTotal_settle hlegal hr, (hother status).1, (hother status).2]
        omega
      refine .inl ⟨?_, hsame .SUCCEEDED, .inl (hsame .PENDING)⟩
      simpa [Ne.symm hid] using hp'
  | called input r p result hr hkey hp hcharge houtcome hrefunds hpayments =>
    exact .inl ⟨hpayments ▸ hp', by rw [hrefunds], .inl (by rw [hrefunds])⟩
  | reported id status hprovider hrefunds hpayments =>
    exact .inl ⟨hpayments ▸ hp', by rw [hrefunds], .inl (by rw [hrefunds])⟩

/-- No commit changes the succeeded refunds of a payment while a settlement stands between the sum
it has read of them and the update that writes it. -/
def undisturbedTotals : Conditions store where
  Assume _ _ := True
  Stable p d d' := match p with
    | .totals _ id => refundTotal id .SUCCEEDED d'.refunds = refundTotal id .SUCCEEDED d.refunds
    | _ => True
  Fault _ _ := True

/-- The ledger under `undisturbedTotals`. -/
def totalsRules : LedgerRules where
  conditions := undisturbedTotals
  totals := True
  recorded := False
  stable _ _ _ _ _ h := h
  fault h := h.elim

section Move

variable {d d' : Db} {id : String}

theorem Summed.move (hs : Summed id d) (hlegal : Legal d) (h : LedgerMove totalsRules d d') :
    Summed id d' := by
  intro p' hp'
  obtain ⟨hp, hsucceeded, -⟩ | ⟨p, refunded, current, hp, rfl, htotal, -⟩ := h.payment hlegal hp'
  · exact (hs p' hp).trans hsucceeded.symm
  · exact htotal trivial

theorem Balanced.move (hb : Balanced id d) (hlegal : Legal d) (h : LedgerMove totalsRules d d') :
    Balanced id d' := by
  refine ⟨hb.summed.move hlegal h, fun p' hp' => ?_⟩
  obtain ⟨hp, -, -⟩ | ⟨p, refunded, current, hp, rfl, -, -⟩ := h.payment hlegal hp'
  · exact hb.status p' hp
  · exact (paymentStatusFor_idem _ _ _).symm

/-- A reservation finds its room in the refunded total, so that has to be right. -/
theorem Covered.move (hc : Covered id d) (hs : Summed id d) (hlegal : Legal d)
    (h : LedgerMove totalsRules d d') : Covered id d' := by
  intro p' hp'
  obtain ⟨hp, hsucceeded, hpending | hroom⟩ | ⟨p, refunded, current, hp, rfl, -, hless⟩ :=
    h.payment hlegal hp'
  · rw [hpending, hsucceeded]
    exact hc p' hp
  · rw [hsucceeded, ← hs p' hp]
    omega
  · exact hless.trans (hc p hp)

end Move

theorem RefundOperation.safe_totals (c : Tx Unit) (h : RefundOperation c) :
    (ledger totalsRules).Safe c :=
  h.safe fun h => h

/-- A payment of 100 with two refunds of 40 that the provider is yet to report. -/
def Db.twoRefunds : Db :=
  { Db.sample [.sample] with
    payments := [{
      id := "p", organizationId := "o", bookingId := "b", stripeChargeId := some "ch"
      amountCents := 100, currency := "EUR", status := .SUCCEEDED, createdAt := 0 }]
    refunds := ["r1", "r2"].map fun id => {
      id, organizationId := "o", bookingId := "b", paymentId := "p", amountCents := 40
      currency := "EUR", status := .PENDING, reason := .GOODWILL, idempotencyKey := id } }

theorem legal_twoRefunds : Legal .twoRefunds := by decide

theorem balanced_twoRefunds : Balanced "p" .twoRefunds :=
  ⟨fun p hp => by cases hp; rfl, fun p hp => by cases hp; rfl⟩

theorem covered_twoRefunds : Covered "p" .twoRefunds :=
  fun p hp => by cases hp; decide

/-- The settlement of the refund `id` as succeeded. -/
def succeed (id : String) : Tx Unit :=
  settleReported { refundId := id, status := .SUCCEEDED }

/-- The client `i` settles, up to the update of the payment. -/
def settlesUntilUpdate (i : Nat) : List (Action store) :=
  [.run i, .run i, .answer i {}, .run i, .run i, .run i]

/-- The client `i` settles, from the update of the payment on. -/
def settlesFromUpdate (i : Nat) : List (Action store) :=
  [.run i, .run i, .run i]

instance : undisturbedTotals.Checkable where
  assume _ _ := .isTrue trivial
  stable p _ _ := match p with
    | .totals _ _ => inferInstanceAs (Decidable (_ = _))
    | .idle | .plain | .settlement _ | .approval _ | .leaving _ _ _ | .confirmation _ _ | .failure _
    | .release _ _ | .attachment _ _ | .reminder _ | .leave _ _ | .reservation _ _ | .keyed _ _ _ _ _
    | .keySweep _ | .retirement _ _ _ => .isTrue trivial
  fault _ _ := .isTrue trivial

/-- Two settlements, one after the other. -/
def settledInTurn : List (Action store) :=
  [.start (succeed "r1"), .start (succeed "r2")] ++ settlesUntilUpdate 0 ++ settlesFromUpdate 0 ++
    settlesUntilUpdate 1 ++ settlesFromUpdate 1

theorem starts_settledInTurn : ∀ a ∈ settledInTurn, Sys.Starts RefundOperation a := by
  simp [settledInTurn, settlesUntilUpdate, settlesFromUpdate, Sys.Starts, succeed,
    RefundOperation.settle]

/-- Two settlements, the second of which adds up before the first has committed. -/
def settledTogether : List (Action store) :=
  [.start (succeed "r1"), .start (succeed "r2")] ++ settlesUntilUpdate 0 ++ settlesUntilUpdate 1 ++
    settlesFromUpdate 0 ++ settlesFromUpdate 1

/-- In every run in which no sum is disturbed, the totals of a payment stay those of its refunds. -/
theorem balanced_of_undisturbed {d : Db} (hd : Legal d) {id : String} (hb : Balanced id d)
    {s : Sys store} (hrun : Sys.Reach RefundOperation undisturbedTotals { db := d } s) :
    Balanced id s.db :=
  (Sys.Reach.invariant (P := ledger totalsRules) (I := Balanced id) RefundOperation.safe_totals
    (fun _ _ hinv _ hmove hb => hb.move hinv.1 hmove) ⟨hd, fun h => h.elim⟩ hb hrun).2

theorem balanced_of_undisturbed_sample : ∃ s : Sys store, s.finished = true ∧
    s.db.payments.map Payment.refundedAmountCents = [80] ∧ Balanced "p" s.db := by
  have hexec : (Sys.exec undisturbedTotals { db := Db.twoRefunds } settledInTurn).map (fun s =>
      (s.finished, s.db.payments.map Payment.refundedAmountCents)) = some (true, [80]) := by rfl
  obtain ⟨s, hs, he⟩ := Option.map_eq_some_iff.mp hexec
  obtain ⟨hfinished, hrefunded⟩ := Prod.mk.inj he
  refine ⟨s, hfinished, hrefunded, balanced_of_undisturbed legal_twoRefunds balanced_twoRefunds ?_⟩
  exact .exec (fun _ _ => trivial) .refl starts_settledInTurn hs

/-- Two settlements of one payment read each other's sums before either has committed. -/
theorem balanced_fails : ¬ ∀ (d : Db) (id : String) (s : Sys store), Legal d → Balanced id d →
    Sys.Reach (fun c => ∃ input, c = settleReported input) .none { db := d } s →
    s.finished = true → Balanced id s.db := by
  intro h
  have hexec : (Sys.exec .none { db := Db.twoRefunds } settledTogether).map (fun s =>
      (s.finished, (Table.find "p" s.db.payments).map Payment.refundedAmountCents,
        refundTotal "p" .SUCCEEDED s.db.refunds)) = some (true, some 40, 80) := by rfl
  obtain ⟨s, hs, he⟩ := Option.map_eq_some_iff.mp hexec
  simp only [Prod.mk.injEq] at he
  obtain ⟨hfinished, hrefunded, htotal⟩ := he
  obtain ⟨p, hp, hrefunded⟩ := Option.map_eq_some_iff.mp hrefunded
  have hstarts : ∀ a ∈ settledTogether, Sys.Starts (fun c => ∃ input, c = settleReported input) a := by
    simp [settledTogether, settlesUntilUpdate, settlesFromUpdate, Sys.Starts, succeed]
  have hrun := Sys.Reach.exec (fun _ _ => trivial) .refl hstarts hs
  have hbalanced := h _ "p" s legal_twoRefunds balanced_twoRefunds hrun hfinished
  have := hbalanced.summed p hp
  omega

/-- In every run in which no sum is disturbed, refunds stay within what was captured. -/
theorem covered_of_undisturbed {d : Db} (hd : Legal d) {id : String} (hs : Summed id d)
    (hc : Covered id d) {s : Sys store}
    (hrun : Sys.Reach RefundOperation undisturbedTotals { db := d } s) : Covered id s.db :=
  (Sys.Reach.invariant (P := ledger totalsRules) (I := fun d => Summed id d ∧ Covered id d)
    RefundOperation.safe_totals
    (fun _ _ hinv _ hmove hsc => ⟨hsc.1.move hinv.1 hmove, hsc.2.move hsc.1 hinv.1 hmove⟩)
    ⟨hd, fun h => h.elim⟩ ⟨hs, hc⟩ hrun).2.2

theorem covered_of_undisturbed_sample : ∃ s : Sys store, s.finished = true ∧
    s.db.payments.map Payment.refundedAmountCents = [80] ∧ Covered "p" s.db := by
  have hexec : (Sys.exec undisturbedTotals { db := Db.twoRefunds } settledInTurn).map (fun s =>
      (s.finished, s.db.payments.map Payment.refundedAmountCents)) = some (true, [80]) := by rfl
  obtain ⟨s, hs, he⟩ := Option.map_eq_some_iff.mp hexec
  obtain ⟨hfinished, hrefunded⟩ := Prod.mk.inj he
  refine ⟨s, hfinished, hrefunded, covered_of_undisturbed legal_twoRefunds
    balanced_twoRefunds.summed covered_twoRefunds ?_⟩
  exact .exec (fun _ _ => trivial) .refl starts_settledInTurn hs

/-- Reservations and settlements, and nothing else. -/
inductive ReservesOrSettles : Tx Unit → Prop where
  | reserve (api : Api) (input : ReserveRefundInput) : ReservesOrSettles
      (transaction (S := store) .plain (discard (reserveInTransaction api input)))
  | settle (input : SettlementInput) : ReservesOrSettles (settleReported input)

/-- The reservation of a further 60. -/
def reserveSixty : Tx Unit :=
  transaction (S := store) .plain (discard (reserveInTransaction .sample {
    bookingId := "b", amount := .ADDITIONAL 60, reason := .GOODWILL }))

def reservedTwice : List (Action store) :=
  settledTogether ++ [.start reserveSixty, .run 2, .run 2, .run 2, .run 2, .run 2, .run 2,
    .answer 2 { random := "k" }, .answer 2 { id := "r3" }, .run 2, .run 2, .run 2]

theorem starts_reservedTwice : ∀ a ∈ reservedTwice, Sys.Starts ReservesOrSettles a := by
  simp [reservedTwice, settledTogether, settlesUntilUpdate, settlesFromUpdate, Sys.Starts, succeed,
    reserveSixty, ReservesOrSettles.reserve, ReservesOrSettles.settle]

/-- After a refund got lost in the total, its amount is refunded once more. -/
theorem covered_fails : ¬ ∀ (d : Db) (id : String) (s : Sys store), Legal d → Summed id d →
    Covered id d → Sys.Reach ReservesOrSettles .none { db := d } s → Covered id s.db := by
  intro h
  have hexec : (Sys.exec .none { db := Db.twoRefunds } reservedTwice).map (fun s =>
      ((Table.find "p" s.db.payments).map Payment.amountCents,
        refundTotal "p" .PENDING s.db.refunds, refundTotal "p" .SUCCEEDED s.db.refunds)) =
      some (some 100, 60, 80) := by rfl
  obtain ⟨s, hs, he⟩ := Option.map_eq_some_iff.mp hexec
  simp only [Prod.mk.injEq] at he
  obtain ⟨hamount, hpending, hsucceeded⟩ := he
  obtain ⟨p, hp, hamount⟩ := Option.map_eq_some_iff.mp hamount
  have hrun : Sys.Reach ReservesOrSettles .none { db := Db.twoRefunds } s :=
    .exec (fun _ _ => trivial) .refl starts_reservedTwice hs
  have := h _ "p" s legal_twoRefunds balanced_twoRefunds.summed covered_twoRefunds hrun p hp
  omega

end BookingApp

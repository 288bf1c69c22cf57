import BookingApp.Payment.Acceptance
import BookingApp.ReadCommitted.Alone

/-!
# What a reservation reserves

What a payment has reserved is what was refunded and what is pending. A target moves it
up to the target as far as the payment goes, however often it is asked for; an additional
amount moves it by exactly that, or not at all.
-/

set_option autoImplicit false

namespace BookingApp

open ReadCommitted ReadCommitted.Code

/-- The reserved amount of a payment: what was refunded, and what is pending. -/
def reservedCents (p : Payment) (d : Db) : Int :=
  p.refundedAmountCents + refundTotal p.id .PENDING d.refunds

/-- The payment that the money of a booking is given back from. -/
def chargeOf (api : Api) (bookingId : String) (d : Db) : Option Payment :=
  (findIn Booking.organizationId api.organizationId bookingId d.bookings).bind fun booking =>
    ((d.payments.filter fun p => p.settledFor (booking.financialRootBookingId.getD booking.id)).insertionSort
      fun p q => p.createdAt ≤ q.createdAt).head?

/-- What a reservation comes to, in cents. -/
def reservationCents (input : ReserveRefundInput) (reserved captured : Int) : Except Failure (Option Int) :=
  match input.amount with
  | .CUMULATIVE_TARGET target =>
    if max reserved (min target captured) = reserved then .ok none
    else .ok (some (max reserved (min target captured) - reserved))
  | .ADDITIONAL amount =>
    if amount ≤ 0 then
      if input.lenient then .ok none else .error (notRefundable (captured - reserved))
    else if amount > captured - reserved then .error (notRefundable (captured - reserved))
    else .ok (some amount)

/-- The amount of a reservation is a number of cents that `Money` represents. -/
def RefundAmount.Safe : RefundAmount → Prop
  | .ADDITIONAL amount | .CUMULATIVE_TARGET amount =>
    -9007199254740991 ≤ amount ∧ amount ≤ 9007199254740991

theorem additionalFor_additional {amount : Int} {reserved refundable : Money}
    (hsafe : (RefundAmount.ADDITIONAL amount).Safe) :
    additionalFor (.ADDITIONAL amount) reserved refundable =
      .ok { amountCents := amount, currency := refundable.currency } :=
  Money.fromCents_of_range hsafe.1 hsafe.2

/-- The part of a target that is outstanding, as far as the payment goes. -/
theorem additionalFor_target {target reserved captured : Int} {currency : String} (ht : 0 ≤ target)
    (hsafe : target ≤ 9007199254740991) (hreserved : 0 ≤ reserved) (hroom : reserved ≤ captured)
    (hint4 : captured ≤ 2147483647) :
    ∃ moved : Money, additionalFor (.CUMULATIVE_TARGET target)
        { amountCents := reserved, currency } { amountCents := captured - reserved, currency } = .ok moved ∧
      max 0 moved.amountCents = max reserved (min target captured) - reserved := by
  have htarget : Money.fromCents target currency = .ok { amountCents := target, currency } :=
    Money.fromCents_of_range (by omega) hsafe
  have hminus : Money.minus { amountCents := target, currency } { amountCents := reserved, currency } =
      .ok { amountCents := target - reserved, currency } := by
    simp only [Money.minus, Money.assertSameCurrency, if_true]
    exact Money.fromCents_of_range (by omega) (by omega)
  have hless : Money.lessThan { amountCents := target - reserved, currency }
      { amountCents := captured - reserved, currency } =
        .ok (decide (target - reserved < captured - reserved)) := by
    simp [Money.lessThan, Money.assertSameCurrency, bind, Except.bind, pure, Except.pure]
  unfold additionalFor
  simp only [htarget, hminus, hless, bind, Except.bind, pure, Except.pure]
  by_cases houtstanding : target - reserved ≤ 0
  · rw [if_pos houtstanding]
    exact ⟨_, rfl, by simp only [Money.zero]; omega⟩
  · rw [if_neg houtstanding]
    by_cases hlt : target - reserved < captured - reserved
    · simp only [hlt, decide_true, if_true]
      exact ⟨_, rfl, by dsimp only; omega⟩
    · simp only [hlt, decide_false, if_false, Bool.false_eq_true]
      exact ⟨_, rfl, by dsimp only; omega⟩

/-- The amount is one a caller may ask for: a target is not negative. -/
def RefundAmount.Asked : RefundAmount → Prop
  | .ADDITIONAL _ => True
  | .CUMULATIVE_TARGET target => 0 ≤ target

theorem reservationFor_eq {input : ReserveRefundInput} {p : Payment} {pending : Int}
    (hsafe : input.amount.Safe) (hasked : input.amount.Asked) (hrefunded : 0 ≤ p.refundedAmountCents)
    (hpending : 0 ≤ pending) (hroom : p.refundedAmountCents + pending ≤ p.amountCents)
    (hint4 : p.amountCents ≤ 2147483647) :
    reservationFor input p pending =
      (reservationCents input (p.refundedAmountCents + pending) p.amountCents).map fun moved =>
        (moved, p.amountCents - (p.refundedAmountCents + pending)) := by
  have hfrom : ∀ n, 0 ≤ n → n ≤ 2147483647 →
      Money.fromCents n p.currency = .ok { amountCents := n, currency := p.currency } :=
    fun n hlo hhi => Money.fromCents_of_range (by omega) (by omega)
  have hplus : Money.plus { amountCents := p.refundedAmountCents, currency := p.currency }
      { amountCents := pending, currency := p.currency } =
        .ok { amountCents := p.refundedAmountCents + pending, currency := p.currency } := by
    simp only [Money.plus, Money.assertSameCurrency, if_true]
    exact hfrom _ (by omega) (by omega)
  have hminus : Money.minus { amountCents := p.amountCents, currency := p.currency }
      { amountCents := p.refundedAmountCents + pending, currency := p.currency } =
        .ok { amountCents := p.amountCents - (p.refundedAmountCents + pending), currency := p.currency } := by
    simp only [Money.minus, Money.assertSameCurrency, if_true]
    exact hfrom _ (by omega) (by omega)
  unfold reservationFor reservationCents
  simp only [hfrom _ hrefunded (by omega), hfrom pending hpending (by omega),
    hfrom p.amountCents (by omega) hint4, hplus, hminus, bind, Except.bind]
  cases hamount : input.amount with
  | ADDITIONAL amount =>
    rw [hamount] at hsafe
    simp only [additionalFor_additional hsafe]
    by_cases hpositive : amount ≤ 0
    · simp only [if_pos hpositive]
      cases input.lenient with
      | false => rfl
      | true => rfl
    · by_cases hover : amount > p.amountCents - (p.refundedAmountCents + pending)
      · simp only [if_neg hpositive, if_pos hover]
        rfl
      · simp only [if_neg hpositive, if_neg hover]
        rfl
  | CUMULATIVE_TARGET target =>
    rw [hamount] at hsafe hasked
    have hreserved : 0 ≤ p.refundedAmountCents + pending := by omega
    obtain ⟨moved, hmoved, hcents⟩ :=
      @additionalFor_target target _ p.amountCents p.currency hasked hsafe.2 hreserved hroom hint4
    simp only [hmoved]
    by_cases hnothing : moved.amountCents ≤ 0
    · rw [if_pos hnothing, if_pos (by omega)]
      rfl
    · rw [if_neg hnothing, if_neg (by omega), if_neg (by omega)]
      have heq : moved.amountCents = max (p.refundedAmountCents + pending) (min target p.amountCents) -
          (p.refundedAmountCents + pending) := by omega
      rw [heq]
      rfl

/-- On its own, `lockPayment` finds the payment of the booking. -/
theorem runAlone_lockPayment {root : String} {lenient : Bool} {s : Alone store} {p : Payment}
    (hpkey : (s.view.payments.map Payment.id).Nodup)
    (hp : ((s.view.payments.filter fun p => p.settledFor root).insertionSort
      fun p q => p.createdAt ≤ q.createdAt).head? = some p) :
    (lockPayment root lenient).runAlone s = (.ok (some p), s) := by
  obtain ⟨rest, hsorted⟩ := List.head?_eq_some_iff.mp hp
  have hmem : p ∈ s.view.payments.filter fun p => p.settledFor root :=
    (List.mem_insertionSort _).mp (hsorted ▸ List.mem_cons_self)
  obtain ⟨hpayment, hsettled⟩ := List.mem_filter.mp hmem
  have hfind : Table.find p.id s.view.payments = some p := Table.find_of_mem hpkey hpayment
  have hids : settledPayments root s.view = p.id :: rest.map Payment.id := by
    unfold settledPayments
    rw [hsorted]
    rfl
  have hfirst : (lockFirst root (p.id :: rest.map Payment.id)).runAlone s = (.ok (some p.id), s) := by
    unfold lockFirst
    rw [runAlone_bind]
    simp only [readForUpdate, runAlone_selectForUpdate, hfind, Option.any_some, hsettled, if_true]
    rfl
  unfold lockPayment
  rw [runAlone_bind]
  simp only [read, runAlone_select, hids]
  rw [runAlone_bind, hfirst]
  dsimp only
  rw [runAlone_bind, runAlone_select]
  dsimp only
  rw [runAlone_map, hfind]
  rfl

/-- What a reservation on its own answers and leaves. -/
inductive Reservation (input : ReserveRefundInput) (p : Payment) (s : Alone store) :
    Except Failure RefundReservationResult × Alone store → Prop where
  | refused (e : Failure)
      (h : reservationFor input p (refundTotal p.id .PENDING s.view.refunds) = .error e) :
      Reservation input p s (.error e, s)
  | nothing (m : Int)
      (h : reservationFor input p (refundTotal p.id .PENDING s.view.refunds) = .ok (none, m)) :
      Reservation input p s
        (.ok { refundId := none, additionalAmountCents := 0, refundableAmountCents := m }, s)
  | reserved (id : String) (n m : Int) (r : Refund) (e : OutboxEvent) (s' : Alone store)
      (h : reservationFor input p (refundTotal p.id .PENDING s.view.refunds) = .ok (some n, m))
      (hamount : r.amountCents = n) (hpayment : r.paymentId = p.id) (hpending : r.status = .PENDING)
      (hview : s'.view = (s.view.onRefunds (· ++ [r])).onOutbox (· ++ [e])) :
      Reservation input p s
        (.ok { refundId := some id, additionalAmountCents := n, refundableAmountCents := m }, s')

theorem runAlone_reserveInTransaction {api : Api} {input : ReserveRefundInput} {s : Alone store}
    {p : Payment} (hp : chargeOf api input.bookingId s.view = some p)
    (hpkey : (s.view.payments.map Payment.id).Nodup) :
    Reservation input p s ((reserveInTransaction api input).runAlone s) := by
  obtain ⟨booking, hbooking, hhead⟩ := Option.bind_eq_some_iff.mp hp
  have hlock := @runAlone_lockPayment _ input.lenient s p hpkey hhead
  unfold reserveInTransaction
  rw [runAlone_bind, runAlone_rootBookingId hbooking]
  dsimp only
  rw [runAlone_bind, hlock]
  dsimp only
  rw [runAlone_bind]
  simp only [read, runAlone_select]
  rw [runAlone_bind]
  cases hdecided : reservationFor input p (refundTotal p.id .PENDING s.view.refunds) with
  | error e => exact .refused e hdecided
  | ok decided =>
    obtain ⟨_ | n, m⟩ := decided
    · exact .nothing m hdecided
    · exact .reserved _ n m _ _ _ hdecided rfl rfl rfl rfl

/-- What holds of the payment of a booking whenever it is reserved from. -/
structure HasRoom (p : Payment) (d : Db) : Prop where
  pkey : (d.payments.map Payment.id).Nodup
  refunded : 0 ≤ p.refundedAmountCents
  positive : ∀ r ∈ d.refunds, 0 < r.amountCents
  room : reservedCents p d ≤ p.amountCents
  int4 : p.amountCents ≤ 2147483647

theorem HasRoom.pending {p : Payment} {d : Db} (h : HasRoom p d) :
    0 ≤ refundTotal p.id .PENDING d.refunds :=
  Table.total_nonneg fun r hr _ => (h.positive r hr).le

theorem HasRoom.reservationFor_eq {p : Payment} {d : Db} (h : HasRoom p d) {input : ReserveRefundInput}
    (hsafe : input.amount.Safe) (hasked : input.amount.Asked) :
    reservationFor input p (refundTotal p.id .PENDING d.refunds) =
      (reservationCents input (reservedCents p d) p.amountCents).map fun moved =>
        (moved, p.amountCents - reservedCents p d) :=
  BookingApp.reservationFor_eq hsafe hasked h.refunded h.pending h.room h.int4

/-- A reservation adds what it moves. -/
theorem reservedCents_after {p : Payment} {r : Refund} {e : OutboxEvent} {d d' : Db}
    (hpayment : r.paymentId = p.id) (hpending : r.status = .PENDING)
    (hd' : d' = (d.onRefunds (· ++ [r])).onOutbox (· ++ [e])) :
    reservedCents p d' = reservedCents p d + r.amountCents := by
  subst hd'
  have htotal : refundTotal p.id .PENDING (d.refunds ++ [r]) =
      refundTotal p.id .PENDING d.refunds + r.amountCents := by
    unfold refundTotal
    rw [Table.total_append, Table.total_cons]
    simp [hpayment, hpending, Table.total]
  change p.refundedAmountCents + refundTotal p.id .PENDING (d.refunds ++ [r]) = _
  rw [htotal, reservedCents, Int.add_assoc]

/-- The same request for another amount. -/
def ReserveRefundInput.asking (input : ReserveRefundInput) (amount : RefundAmount) : ReserveRefundInput :=
  { input with amount }

/-- What a reservation of a target does: it moves the reserved amount up to the target, as far as the
payment goes. -/
theorem reserve_target {api : Api} {input : ReserveRefundInput} {s : Alone store} {p : Payment}
    {target : Int} (hp : chargeOf api input.bookingId s.view = some p) (hroom : HasRoom p s.view)
    (ht : 0 ≤ target) (hsafe : target ≤ 9007199254740991) :
    ∃ result s', (reserveInTransaction api (input.asking (.CUMULATIVE_TARGET target))).runAlone s =
        (.ok result, s') ∧
      reservedCents p s'.view = max (reservedCents p s.view) (min target p.amountCents) ∧
      result.additionalAmountCents = reservedCents p s'.view - reservedCents p s.view ∧
      (result.additionalAmountCents = 0 → result.refundId = none ∧ s'.view = s.view) ∧
      chargeOf api input.bookingId s'.view = some p ∧ HasRoom p s'.view := by
  have hdecided := @HasRoom.reservationFor_eq p s.view hroom (input.asking (.CUMULATIVE_TARGET target))
    ⟨by omega, hsafe⟩ ht
  have hroomle := hroom.room
  have hrun := @runAlone_reserveInTransaction api (input.asking (.CUMULATIVE_TARGET target)) s p hp
    hroom.pkey
  generalize (reserveInTransaction api (input.asking (.CUMULATIVE_TARGET target))).runAlone s = run at hrun
  simp only [reservationCents, ReserveRefundInput.asking] at hdecided
  cases hrun with
  | refused e h =>
    rw [ReserveRefundInput.asking, hdecided] at h
    split at h <;> cases h
  | nothing m h =>
    refine ⟨_, s, rfl, ?_, by simp, fun _ => ⟨rfl, rfl⟩, hp, hroom⟩
    rw [ReserveRefundInput.asking, hdecided] at h
    split at h
    · exact Eq.symm ‹_›
    · cases h
  | reserved id n m r e s' h hamount hpayment hpending hview =>
    have hafter := reservedCents_after hpayment hpending hview
    have hcharge : chargeOf api input.bookingId s'.view = chargeOf api input.bookingId s.view := by
      rw [hview]
      rfl
    have hpayments : s'.view.payments = s.view.payments := by
      rw [hview]
      rfl
    rw [ReserveRefundInput.asking, hdecided] at h
    split at h
    · cases h
    · rename_i hne
      have hn : max (reservedCents p s.view) (min target p.amountCents) - reservedCents p s.view = n :=
        Option.some.inj (Prod.mk.inj (Except.ok.inj h)).1
      refine ⟨_, s', rfl, by omega, by dsimp only; omega, fun hzero => ?_, hcharge.trans hp, ?_⟩
      · dsimp only at hzero
        omega
      · refine ⟨hpayments ▸ hroom.pkey, hroom.refunded, fun q hq => ?_, by omega, hroom.int4⟩
        rw [hview] at hq
        rcases List.mem_append.mp hq with hq | hq
        · exact hroom.positive q hq
        · rw [List.mem_singleton.mp hq]
          omega

theorem RefundAmount.safe_of_fromCents {amount : Int} {currency : String} {m : Money}
    (h : Money.fromCents amount currency = .ok m) : (RefundAmount.ADDITIONAL amount).Safe := by
  unfold Money.fromCents at h
  split at h
  · rename_i hsafe
    simpa [Money.isSafeInteger, RefundAmount.Safe] using hsafe
  · cases h

/-- An amount that is no safe integer is refused. -/
theorem reservationFor_notSafe {input : ReserveRefundInput} {p : Payment} {pending amount : Int}
    (hamount : input.amount = .ADDITIONAL amount) (hbad : ¬(RefundAmount.ADDITIONAL amount).Safe) :
    ∃ e, reservationFor input p pending = .error e := by
  cases hdecided : reservationFor input p pending with
  | error e => exact ⟨e, rfl⟩
  | ok decided =>
    exfalso
    unfold reservationFor at hdecided
    obtain ⟨refunded, _, hdecided⟩ := bind_eq_ok.mp hdecided
    obtain ⟨pendingMoney, _, hdecided⟩ := bind_eq_ok.mp hdecided
    obtain ⟨reserved, _, hdecided⟩ := bind_eq_ok.mp hdecided
    obtain ⟨captured, _, hdecided⟩ := bind_eq_ok.mp hdecided
    obtain ⟨refundable, _, hdecided⟩ := bind_eq_ok.mp hdecided
    obtain ⟨moved, hmoved, _⟩ := bind_eq_ok.mp hdecided
    rw [hamount] at hmoved
    exact hbad (RefundAmount.safe_of_fromCents hmoved)

/-- A decision to refuse is the outcome of the call. -/
theorem Reservation.of_error {input : ReserveRefundInput} {p : Payment} {s : Alone store}
    {run : Except Failure RefundReservationResult × Alone store} (h : Reservation input p s run)
    {e : Failure}
    (hdecided : reservationFor input p (refundTotal p.id .PENDING s.view.refunds) = .error e) :
    run = (.error e, s) := by
  cases h with
  | refused e' h => rw [Except.error.inj (h.symm.trans hdecided)]
  | nothing m h => rw [hdecided] at h; cases h
  | reserved id n m r e' s' h => rw [hdecided] at h; cases h

theorem Reservation.of_none {input : ReserveRefundInput} {p : Payment} {s : Alone store}
    {run : Except Failure RefundReservationResult × Alone store} (h : Reservation input p s run)
    {m : Int}
    (hdecided : reservationFor input p (refundTotal p.id .PENDING s.view.refunds) = .ok (none, m)) :
    ∃ result, run = (.ok result, s) := by
  cases h with
  | refused e h => rw [hdecided] at h; cases h
  | nothing m' h => exact ⟨_, rfl⟩
  | reserved id n m' r e s' h => rw [hdecided] at h; cases h

theorem Reservation.of_some {input : ReserveRefundInput} {p : Payment} {s : Alone store}
    {run : Except Failure RefundReservationResult × Alone store} (h : Reservation input p s run)
    {n m : Int}
    (hdecided : reservationFor input p (refundTotal p.id .PENDING s.view.refunds) = .ok (some n, m)) :
    ∃ result s', run = (.ok result, s') ∧ reservedCents p s'.view = reservedCents p s.view + n := by
  cases h with
  | refused e h => rw [hdecided] at h; cases h
  | nothing m' h => rw [hdecided] at h; cases h
  | reserved id n' m' r e s' h hamount hpayment hpending hview =>
    have hn : n' = n := Option.some.inj (Prod.mk.inj (Except.ok.inj (h.symm.trans hdecided))).1
    refine ⟨_, s', rfl, ?_⟩
    rw [reservedCents_after hpayment hpending hview, hamount, hn]

/-- What a reservation of an additional amount does: exactly that, or it is refused; and a lenient
one that asks for nothing does nothing. -/
theorem reserve_additional {api : Api} {input : ReserveRefundInput} {s : Alone store} {p : Payment}
    (amount : Int) (hp : chargeOf api input.bookingId s.view = some p) (hroom : HasRoom p s.view) :
    ((∃ result s', (reserveInTransaction api (input.asking (.ADDITIONAL amount))).runAlone s =
        (.ok result, s')) ↔ amount ≤ p.amountCents - reservedCents p s.view ∧
          (0 < amount ∨ input.lenient = true ∧ (RefundAmount.ADDITIONAL amount).Safe)) ∧
      ∀ result s', (reserveInTransaction api (input.asking (.ADDITIONAL amount))).runAlone s =
        (.ok result, s') → reservedCents p s'.view = reservedCents p s.view + max 0 amount := by
  have hrun := @runAlone_reserveInTransaction api (input.asking (.ADDITIONAL amount)) s p hp hroom.pkey
  generalize (reserveInTransaction api (input.asking (.ADDITIONAL amount))).runAlone s = run at hrun
  have hroomle := hroom.room
  have hreserved : 0 ≤ reservedCents p s.view := Int.add_nonneg hroom.refunded hroom.pending
  have hint4 := hroom.int4
  by_cases hsafe : (RefundAmount.ADDITIONAL amount).Safe
  · have hdecided := @HasRoom.reservationFor_eq p s.view hroom (input.asking (.ADDITIONAL amount))
      hsafe trivial
    by_cases hpositive : amount ≤ 0
    · cases hlenient : input.lenient with
      | true =>
        have hcents : reservationCents (input.asking (.ADDITIONAL amount)) (reservedCents p s.view)
            p.amountCents = .ok none := by
          simp [reservationCents, ReserveRefundInput.asking, hpositive, hlenient]
        rw [hcents] at hdecided
        obtain ⟨result, rfl⟩ := hrun.of_none hdecided
        refine ⟨⟨fun _ => ⟨by omega, .inr ⟨rfl, hsafe⟩⟩, fun _ => ⟨_, _, rfl⟩⟩, fun _ _ hok => ?_⟩
        obtain ⟨-, rfl⟩ := Prod.mk.inj hok
        omega
      | false =>
        have hcents : reservationCents (input.asking (.ADDITIONAL amount)) (reservedCents p s.view)
            p.amountCents = .error (notRefundable (p.amountCents - reservedCents p s.view)) := by
          simp [reservationCents, ReserveRefundInput.asking, hpositive, hlenient]
        rw [hcents] at hdecided
        obtain rfl := hrun.of_error hdecided
        refine ⟨⟨fun ⟨_, _, hok⟩ => (by cases hok), fun ⟨_, hask⟩ => ?_⟩, fun _ _ hok => (by cases hok)⟩
        rcases hask with hpos | ⟨hlenient, -⟩
        · omega
        · cases hlenient
    · by_cases hover : amount > p.amountCents - reservedCents p s.view
      · have hcents : reservationCents (input.asking (.ADDITIONAL amount)) (reservedCents p s.view)
            p.amountCents = .error (notRefundable (p.amountCents - reservedCents p s.view)) := by
          simp only [reservationCents, ReserveRefundInput.asking, if_neg hpositive, if_pos hover]
        rw [hcents] at hdecided
        obtain rfl := hrun.of_error hdecided
        refine ⟨⟨fun ⟨_, _, hok⟩ => (by cases hok), fun ⟨hle, _⟩ => ?_⟩, fun _ _ hok => (by cases hok)⟩
        omega
      · have hcents : reservationCents (input.asking (.ADDITIONAL amount)) (reservedCents p s.view)
            p.amountCents = .ok (some amount) := by
          simp only [reservationCents, ReserveRefundInput.asking, if_neg hpositive, if_neg hover]
        rw [hcents] at hdecided
        obtain ⟨result, s', rfl, hafter⟩ := hrun.of_some hdecided
        refine ⟨⟨fun _ => ⟨by omega, .inl (by omega)⟩, fun _ => ⟨_, _, rfl⟩⟩, fun _ _ hok => ?_⟩
        obtain ⟨-, rfl⟩ := Prod.mk.inj hok
        omega
  · obtain ⟨e, hbad⟩ := @reservationFor_notSafe (input.asking (.ADDITIONAL amount)) p
      (refundTotal p.id .PENDING s.view.refunds) amount rfl hsafe
    obtain rfl := hrun.of_error hbad
    refine ⟨⟨fun ⟨_, _, hok⟩ => (by cases hok), fun ⟨hle, hask⟩ => ?_⟩, fun _ _ hok => (by cases hok)⟩
    refine absurd ?_ hsafe
    rcases hask with hpos | ⟨-, hsafe'⟩
    · exact ⟨by omega, by omega⟩
    · exact hsafe'

/-- The laws of a reservation from the payment `p` of a booking. -/
structure ReservationLaw (api : Api) (input : ReserveRefundInput) (p : Payment) (s : Alone store) :
    Prop where
  target : ∀ target, 0 ≤ target → target ≤ 9007199254740991 → ∃ result s',
    (reserveInTransaction api (input.asking (.CUMULATIVE_TARGET target))).runAlone s = (.ok result, s') ∧
      reservedCents p s'.view = max (reservedCents p s.view) (min target p.amountCents) ∧
      ∃ again s'', (reserveInTransaction api (input.asking (.CUMULATIVE_TARGET target))).runAlone s' =
          (.ok again, s'') ∧
        again.refundId = none ∧ again.additionalAmountCents = 0 ∧ s''.view = s'.view
  monotone : ∀ target target' result result' s' s'', 0 ≤ target → target ≤ target' →
    target' ≤ 9007199254740991 →
    (reserveInTransaction api (input.asking (.CUMULATIVE_TARGET target))).runAlone s = (result, s') →
    (reserveInTransaction api (input.asking (.CUMULATIVE_TARGET target'))).runAlone s = (result', s'') →
      reservedCents p s'.view ≤ reservedCents p s''.view
  additional : ∀ amount, (∃ result s',
      (reserveInTransaction api (input.asking (.ADDITIONAL amount))).runAlone s = (.ok result, s')) ↔
    amount ≤ p.amountCents - reservedCents p s.view ∧
      (0 < amount ∨ input.lenient = true ∧ (RefundAmount.ADDITIONAL amount).Safe)
  added : ∀ amount result s',
    (reserveInTransaction api (input.asking (.ADDITIONAL amount))).runAlone s = (.ok result, s') →
      reservedCents p s'.view = reservedCents p s.view + max 0 amount
  refused : ∀ amount e s', (reserveInTransaction api (input.asking amount)).runAlone s = (.error e, s') →
    s'.view = s.view

theorem reservation_law (api : Api) (input : ReserveRefundInput) {s : Alone store} {p : Payment}
    (hlegal : Legal s.view) (hp : chargeOf api input.bookingId s.view = some p)
    (hint4 : p.amountCents ≤ 2147483647) (hroom : reservedCents p s.view ≤ p.amountCents) :
    ReservationLaw api input p s := by
  have hmem : p ∈ s.view.payments := by
    obtain ⟨booking, -, hhead⟩ := Option.bind_eq_some_iff.mp hp
    obtain ⟨rest, hsorted⟩ := List.head?_eq_some_iff.mp hhead
    have hsome := (List.mem_insertionSort _).mp (hsorted ▸ List.mem_cons_self : p ∈ _)
    exact (List.mem_filter.mp hsome).1
  have hroom : HasRoom p s.view :=
    { pkey := hlegal.payments.pkey
      refunded := (hlegal.payments.refunded_check p hmem).1
      positive := hlegal.refunds.amount_check
      room := hroom
      int4 := hint4 }
  refine ⟨fun target ht hsafe => ?_, fun t t' result result' s' s'' ht hle hsafe hrun hrun' => ?_,
    fun amount => (reserve_additional amount hp hroom).1,
    fun amount => (reserve_additional amount hp hroom).2, fun amount e s' hrun => ?_⟩
  · obtain ⟨result, s', hrun, hafter, -, -, hp', hroom'⟩ := reserve_target hp hroom ht hsafe
    obtain ⟨again, s'', hagain, hafter', hmoved, hnothing, -⟩ := reserve_target hp' hroom' ht hsafe
    have hzero : again.additionalAmountCents = 0 := by omega
    exact ⟨result, s', hrun, hafter, again, s'', hagain, (hnothing hzero).1, hzero, (hnothing hzero).2⟩
  · obtain ⟨_, s₁, hrun₁, hafter₁, -⟩ := reserve_target hp hroom ht (hle.trans hsafe)
    obtain ⟨_, s₂, hrun₂, hafter₂, -⟩ := reserve_target hp hroom (ht.trans hle) hsafe
    obtain rfl : s₁ = s' := (Prod.mk.inj (hrun₁.symm.trans hrun)).2
    obtain rfl : s₂ = s'' := (Prod.mk.inj (hrun₂.symm.trans hrun')).2
    omega
  · have hresult := @runAlone_reserveInTransaction api (input.asking amount) s p hp hroom.pkey
    rw [hrun] at hresult
    cases hresult with
    | refused e h => rfl

/-- A payment of 100 with 40 pending. -/
def aloneOneRefund : Alone store where
  answers _ := {}
  refusal _ := recordNotFound
  db := .oneRefund

def lenientReservation : ReserveRefundInput where
  bookingId := "b"
  amount := .ADDITIONAL 0
  reason := .GOODWILL
  lenient := true

theorem reservation_law_sample : ∃ p, chargeOf .sample "b" Db.oneRefund = some p ∧
    reservedCents p .oneRefund = 40 ∧ p.amountCents = 100 ∧
    ReservationLaw .sample lenientReservation p aloneOneRefund := by
  refine ⟨_, rfl, by decide, rfl, ?_⟩
  exact @reservation_law .sample lenientReservation aloneOneRefund _ legal_oneRefund rfl (by decide) (by decide)

/-- A lenient reservation of nothing succeeds. -/
theorem reserve_lenient_nothing :
    ¬∀ (input : ReserveRefundInput) (s : Alone store) (p : Payment) (amount : Int), Legal s.view →
      chargeOf .sample input.bookingId s.view = some p → reservedCents p s.view ≤ p.amountCents →
      ((∃ result s', (reserveInTransaction .sample (input.asking (.ADDITIONAL amount))).runAlone s =
        (.ok result, s')) ↔ 0 < amount ∧ amount ≤ p.amountCents - reservedCents p s.view) := by
  intro hall
  have hiff := hall lenientReservation aloneOneRefund _ 0 legal_oneRefund rfl (by decide)
  exact absurd (hiff.mp ⟨_, _, rfl⟩).1 (by decide)

end BookingApp

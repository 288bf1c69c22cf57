import BookingApp.Payment.Financials

/-!
# The dashboard's money (`office/dashboard.service.ts`)

One statement of SQL sums today's takings and counts the appointments that are still owed
something. It is a second reader of what was received, besides `receivedFrom` over the
financials of a booking, and the two agree.
-/

set_option autoImplicit false

namespace BookingApp.DashboardService

structure Window where
  startOfToday : Int
  startOfTomorrow : Int
  unpaidSince : Int
  deriving DecidableEq, Repr

structure MoneyFigures where
  todayRevenueCents : Int
  unpaidConfirmedBookings : Nat
  deriving DecidableEq, Repr

/-- `SUM`, which is null of no rows. A sum of integer columns is a bigint. -/
def sum (amounts : List Int) : Option Int :=
  if amounts = [] then none else some amounts.sum

/-- `COALESCE(SUM(..), 0)` -/
def coalesceSum (amounts : List Int) : Int :=
  (sum amounts).getD 0

variable (books : Books) (organizationId : String) (visible : Option (List String)) (window : Window)

/-- `AND b.employee_id IN (..)`, or nothing for a role that sees all employees. -/
def employees (b : Booking) : Bool :=
  visible.all fun ids => decide (b.employeeId ∈ ids)

def paidToday (paidAt : Option Int) : Bool :=
  paidAt.any fun t => decide (window.startOfToday ≤ t ∧ t < window.startOfTomorrow)

/-- The bookings that a row with a `booking_id` is joined with, the employees' ones. -/
def joined (bookingId : String) : List Booking :=
  books.bookings.filter fun b => decide (b.id = bookingId) && employees visible b

def todayRevenue : Int :=
  coalesceSum (books.payments.flatMap fun p =>
      if p.organizationId = organizationId ∧ p.isReceived ∧ paidToday window p.paidAt then
        (joined books visible p.bookingId).map fun _ => p.amountCents
      else []) +
    coalesceSum (books.manualPayments.flatMap fun m =>
      if m.organizationId = organizationId ∧ paidToday window (some m.paidAt) then
        (joined books visible m.bookingId).map fun _ => m.amountCents
      else [])

/-- The appointments that the count is about. -/
def isCandidate (b : Booking) : Bool :=
  decide (b.organizationId = organizationId ∧ b.status = .CONFIRMED ∧ window.unpaidSince ≤ b.startsAt) &&
    employees visible b

/-- What is summed for an appointment: the rows on its financial root. -/
def receivedOnRoot (b : Booking) : Int :=
  let root := b.financialRootBookingId.getD b.id
  coalesceSum ((books.payments.filter fun p => decide (p.bookingId = root) && p.isReceived).map
      Payment.amountCents) +
    coalesceSum ((books.manualPayments.filter fun m => decide (m.bookingId = root)).map
      fun m => m.amountCents)

/-- The statement. The bigints of its row are narrowed to numbers, which is exact for the number of
rows that a table holds. -/
def moneyFigures : MoneyFigures where
  todayRevenueCents := todayRevenue books organizationId visible window
  unpaidConfirmedBookings := (books.bookings.filter fun b =>
    isCandidate organizationId visible window b &&
      decide (receivedOnRoot books b < b.priceCentsSnapshot)).length

/-- What was received for a booking by the other reader. -/
def receivedFor (b : Booking) : Except Failure Money := do
  let financials ← BookingFinancialsService.load books b.organizationId b.id
  financials.received b.currency

/-- The money received is below the price. -/
def isOwed (b : Booking) : Bool :=
  match receivedFor books b with
  | .ok received => decide (received.amountCents < b.priceCentsSnapshot)
  | .error _ => false

/-- The appointments that the count is about. -/
def candidates : List Booking :=
  books.bookings.filter (isCandidate organizationId visible window)

/-! ## Agreement -/

/-- All rows of the organization are in one currency. -/
structure OneCurrency (currency : String) : Prop where
  bookings : ∀ b ∈ books.bookings, b.organizationId = organizationId → b.currency = currency
  payments : ∀ p ∈ books.payments, p.organizationId = organizationId → p.currency = currency
  manualPayments : ∀ m ∈ books.manualPayments, m.organizationId = organizationId → m.currency = currency

/-- The financial roots of the organization's bookings are its bookings too. -/
def RootsWithin : Prop :=
  ∀ b ∈ books.bookings, b.organizationId = organizationId →
    ∀ r ∈ books.bookings, r.id = b.financialRoot → r.organizationId = organizationId

/-- How many rows of money are recorded on the root of a booking. -/
def rowsOnRoot (b : Booking) : Nat :=
  (books.payments.filter fun p => decide (p.bookingId = b.financialRoot)).length +
    (books.manualPayments.filter fun m => decide (m.bookingId = b.financialRoot)).length

variable {books organizationId visible window}

@[simp] theorem coalesceSum_eq (amounts : List Int) : coalesceSum amounts = amounts.sum := by
  unfold coalesceSum sum
  split
  · rename_i h
    rw [h]
    rfl
  · rfl

theorem mem_candidates {b : Booking} (h : b ∈ candidates books organizationId visible window) :
    b ∈ books.bookings ∧ b.organizationId = organizationId := by
  obtain ⟨hb, hcandidate⟩ := List.mem_filter.mp h
  exact ⟨hb, (of_decide_eq_true (Bool.and_eq_true_iff.mp hcandidate).1).1⟩

/-- What the other reader returns is the sum of the statement. -/
theorem receivedOnRoot_eq {b : Booking} {m : Money} (hb : b ∈ books.bookings)
    (h : receivedFor books b = .ok m) : m.amountCents = receivedOnRoot books b := by
  unfold receivedFor at h
  rw [load_recordedOn hb] at h
  rw [received_recordedOn books b.financialRoot h]
  unfold receivedOn receivedOnRoot Table.total
  dsimp only
  rw [coalesceSum_eq, coalesceSum_eq]
  rfl

/-- Money of one currency is received from fewer than `2 ^ 22` rows. -/
theorem receivedFor_isOk {currency : String} {b : Booking} (hcurrency : OneCurrency books organizationId currency)
    (hroots : RootsWithin books organizationId) (hb : b ∈ books.bookings)
    (horganization : b.organizationId = organizationId) (hrows : rowsOnRoot books b < 4194304) :
    ∃ m, receivedFor books b = .ok m := by
  obtain ⟨f, hload, hpayments, hmanual⟩ := load_eq hb
  have hcard : ∀ p ∈ f.payments, p ∈ books.payments ∧ p.bookingId = b.financialRoot := by
    intro p hp
    rw [hpayments] at hp
    simpa using List.mem_filter.mp ((List.mem_insertionSort _).mp hp)
  have hcash : ∀ m ∈ f.manualPayments, m ∈ books.manualPayments ∧ m.bookingId = b.financialRoot := by
    intro m hm
    rw [hmanual] at hm
    simpa using List.mem_filter.mp ((List.mem_insertionSort _).mp hm)
  have hlength : f.payments.length + (f.manualPayments.map ManualPaymentRow.toManualPayment).length < 4194304 := by
    rw [hpayments, hmanual, List.length_map, List.length_insertionSort, List.length_insertionSort]
    exact hrows
  suffices h : (∀ p ∈ f.payments, p.currency = b.currency) ∧
      (∀ m ∈ f.manualPayments.map ManualPaymentRow.toManualPayment, m.currency = b.currency) ∧
      (∀ p ∈ f.payments, -2147483648 ≤ p.amountCents ∧ p.amountCents ≤ 2147483647) ∧
      ∀ m ∈ f.manualPayments.map ManualPaymentRow.toManualPayment,
        -2147483648 ≤ m.amountCents ∧ m.amountCents ≤ 2147483647 by
    obtain ⟨hcardCurrency, hcashCurrency, hcardBound, hcashBound⟩ := h
    obtain ⟨m, hm, -⟩ := receivedFrom_isOk hcardCurrency hcashCurrency hcardBound hcashBound hlength
    unfold receivedFor
    rw [hload]
    exact ⟨m, hm⟩
  refine ⟨?_, ?_, ?_, ?_⟩
  · intro p hp
    obtain ⟨hpayment, hroot⟩ := hcard p hp
    obtain ⟨r, hr, hrorganization, hrid⟩ := books.payments_booking_fkey p hpayment
    rw [hcurrency.bookings b hb horganization]
    apply hcurrency.payments p hpayment
    rw [← hrorganization]
    exact hroots b hb horganization r hr (hrid.trans hroot)
  · intro m hm
    obtain ⟨row, hrow, rfl⟩ := List.mem_map.mp hm
    obtain ⟨hpayment, hroot⟩ := hcash row hrow
    obtain ⟨r, hr, hrorganization, hrid⟩ := books.manual_payments_booking_fkey row hpayment
    rw [hcurrency.bookings b hb horganization]
    apply hcurrency.manualPayments row hpayment
    rw [← hrorganization]
    exact hroots b hb horganization r hr (hrid.trans hroot)
  · intro p hp
    have hpositive := books.payments_amount_check p (hcard p hp).1
    have hint4 := books.payments_amount_int4 p (hcard p hp).1
    omega
  · intro m hm
    obtain ⟨row, hrow, rfl⟩ := List.mem_map.mp hm
    exact books.manual_payments_amount_int4 row (hcash row hrow).1

/-- The count is the number of bookings that the other reader says are owed something, where it
answers for each of them; and it does, while no root has `2 ^ 22` rows of money. -/
theorem unpaid_agrees {currency : String} (hcurrency : OneCurrency books organizationId currency) :
    (RootsWithin books organizationId →
      ∀ b ∈ candidates books organizationId visible window, rowsOnRoot books b < 4194304 →
        ∃ m, receivedFor books b = .ok m) ∧
    ((∀ b ∈ candidates books organizationId visible window, ∃ m, receivedFor books b = .ok m) →
      (moneyFigures books organizationId visible window).unpaidConfirmedBookings =
        ((candidates books organizationId visible window).filter (isOwed books)).length) := by
  constructor
  · intro hroots b hb hrows
    obtain ⟨hmem, horganization⟩ := mem_candidates hb
    exact receivedFor_isOk hcurrency hroots hmem horganization hrows
  · intro hreceived
    unfold moneyFigures candidates
    dsimp only
    rw [List.filter_filter]
    congr 1
    refine List.filter_congr fun b hb => ?_
    by_cases hcandidate : isCandidate organizationId visible window b = true
    · obtain ⟨m, hm⟩ := hreceived b (List.mem_filter.mpr ⟨hb, hcandidate⟩)
      have howed : isOwed books b = decide (receivedOnRoot books b < b.priceCentsSnapshot) := by
        unfold isOwed
        rw [hm, ← receivedOnRoot_eq hb hm]
      rw [hcandidate, howed, Bool.true_and, Bool.and_true]
    · rw [Bool.eq_false_of_not_eq_true hcandidate, Bool.false_and, Bool.and_false]

/-! ## Corrections past the safe integers -/

section Corrections

/-- An appointment of the organization, at a price of 100. -/
def appointment (id : String) (status : BookingStatus) (financialRoot : Option String) : Booking where
  id
  organizationId := "org"
  reference := id
  origin := .ONLINE
  customerId := "customer"
  employeeId := "employee"
  serviceId := "service"
  startsAt := 3600000
  endsAt := 7200000
  blockStartsAt := 3600000
  blockEndsAt := 7200000
  serviceNameSnapshot := "Massage"
  durationMinutesSnapshot := 60
  prepBufferMinutesSnapshot := 0
  cleanupBufferMinutesSnapshot := 0
  priceCentsSnapshot := 10000
  currency := "EUR"
  status
  locale := .de
  financialRootBookingId := financialRoot

def rowId (i : Nat) : String :=
  String.ofList (List.replicate i 'm')

theorem rowId_injective : Function.Injective rowId := by
  intro i j h
  have hlength := congrArg String.length h
  simpa [rowId] using hlength

/-- The `i`th of the payments: `n` that are as great as a column holds, then their corrections. -/
def payment (n i : Nat) : ManualPaymentRow where
  bookingId := "b"
  amountCents := if i < n then 2147483647 else -2147483647
  currency := "EUR"
  id := rowId i
  organizationId := "org"
  paidAt := if i < n then 0 else 1

/-- One appointment with `n` payments and as many corrections. -/
def corrected (n : Nat) : Books where
  bookings := [appointment "b" .CONFIRMED none]
  payments := []
  manualPayments := (List.range (n + n)).map (payment n)
  refunds := []
  bookings_pkey := List.nodup_singleton _
  payments_pkey := List.nodup_nil
  manual_payments_pkey := by
    rw [List.map_map]
    exact List.Nodup.map rowId_injective List.nodup_range
  financial_root_fkey := by simp [appointment]
  payments_booking_fkey := by simp
  manual_payments_booking_fkey := by simp [payment, appointment]
  payments_amount_check := by simp
  payments_amount_int4 := by simp
  manual_payments_amount_check := by
    intro m hm
    obtain ⟨i, -, rfl⟩ := List.mem_map.mp hm
    unfold payment
    dsimp only
    split <;> omega
  manual_payments_amount_int4 := by
    intro m hm
    obtain ⟨i, -, rfl⟩ := List.mem_map.mp hm
    unfold payment
    dsimp only
    split <;> omega

theorem range_split (n : Nat) :
    (List.range (n + n)).map (payment n) =
      (List.range n).map (payment n) ++ (List.range n).map fun i => payment n (n + i) := by
  rw [List.range_add, List.map_append, List.map_map]
  rfl

theorem sum_payments (n : Nat) :
    (((List.range n).map (payment n)).map fun m => m.amountCents).sum = n * 2147483647 := by
  have hconst : ((List.range n).map (payment n)).map (fun m => m.amountCents) =
      (List.range n).map fun _ => (2147483647 : Int) := by
    rw [List.map_map]
    refine List.map_congr_left fun i hi => ?_
    exact if_pos (List.mem_range.mp hi)
  rw [hconst, List.map_const', List.sum_replicate, List.length_range]
  simp

theorem sum_corrections (n : Nat) :
    (((List.range n).map fun i => payment n (n + i)).map fun m => m.amountCents).sum = -(n * 2147483647) := by
  have hconst : ((List.range n).map fun i => payment n (n + i)).map (fun m => m.amountCents) =
      (List.range n).map fun _ => (-2147483647 : Int) := by
    rw [List.map_map]
    refine List.map_congr_left fun i _ => ?_
    exact if_neg (by omega)
  rw [hconst, List.map_const', List.sum_replicate, List.length_range]
  simp

theorem filter_payments (n : Nat) :
    ((corrected n).manualPayments.filter fun m => decide (m.bookingId = "b")) =
      (List.range (n + n)).map (payment n) := by
  refine List.filter_eq_self.mpr fun m hm => ?_
  obtain ⟨i, -, rfl⟩ := List.mem_map.mp hm
  rfl

theorem insertionSort_payments (n : Nat) :
    ((List.range (n + n)).map (payment n)).insertionSort (fun m m' => m.paidAt ≤ m'.paidAt) =
      (List.range (n + n)).map (payment n) := by
  refine List.Pairwise.insertionSort_eq (List.pairwise_map.mpr ?_)
  refine List.pairwise_lt_range.imp fun {i j} hij => ?_
  unfold payment
  dsimp only
  split <;> split <;> omega

/-- The running total of the payments leaves the safe integers, and there is no answer. -/
theorem receivedFor_corrected {n : Nat} (hn : 9007199254740991 < (n : Int) * 2147483647) (m : Money) :
    receivedFor (corrected n) (appointment "b" .CONFIRMED none) ≠ .ok m := by
  intro h
  obtain ⟨f, hload, hcard, hcash⟩ := @load_eq (corrected n) _ List.mem_cons_self
  unfold receivedFor at h
  rw [hload] at h
  have hreceived : receivedFrom f.payments (f.manualPayments.map ManualPaymentRow.toManualPayment) "EUR" = .ok m := h
  have hpayments : f.payments = [] := hcard
  have hmanual : f.manualPayments =
      (List.range n).map (payment n) ++ (List.range n).map fun i => payment n (n + i) := by
    rw [← range_split, ← insertionSort_payments, ← filter_payments]
    exact hcash
  unfold receivedFrom at hreceived
  rw [hpayments, hmanual, List.map_append] at hreceived
  have hsafe := @Money.safe_of_foldlM_append ManualPayment ManualPayment.amountCents ManualPayment.currency
    _ _ (Money.zero "EUR") m rfl hreceived
  have hsum : (((List.range n).map (payment n)).map (ManualPayment.amountCents ∘
      ManualPaymentRow.toManualPayment)).sum = n * 2147483647 := sum_payments n
  rw [List.map_map, hsum] at hsafe
  have hbound := of_decide_eq_true (Bool.and_eq_true_iff.mp hsafe).2
  simp only [Money.zero] at hbound
  omega

/-- The corrections bring the sum of the statement back to nothing. -/
theorem receivedOnRoot_corrected (n : Nat) :
    receivedOnRoot (corrected n) (appointment "b" .CONFIRMED none) = 0 := by
  unfold receivedOnRoot
  dsimp only
  rw [coalesceSum_eq, coalesceSum_eq]
  show (0 : Int) + (((corrected n).manualPayments.filter fun m => decide (m.bookingId = "b")).map
    fun m => m.amountCents).sum = 0
  rw [filter_payments, range_split, List.map_append, List.sum_append, sum_payments, sum_corrections]
  omega

def today : Window where
  startOfToday := 0
  startOfTomorrow := 86400000
  unpaidSince := -7776000000

theorem oneCurrency_corrected (n : Nat) : OneCurrency (corrected n) "org" "EUR" := by
  constructor
  · intro b hb _
    rw [List.mem_singleton.mp hb]
    rfl
  · intro p hp
    cases hp
  · intro m hm _
    obtain ⟨i, -, rfl⟩ := List.mem_map.mp hm
    rfl

theorem isCandidate_appointment : isCandidate "org" none today (appointment "b" .CONFIRMED none) = true := rfl

theorem moneyFigures_corrected (n : Nat) :
    (moneyFigures (corrected n) "org" none today).unpaidConfirmedBookings = 1 := by
  have hcounted : decide (receivedOnRoot (corrected n) (appointment "b" .CONFIRMED none) <
      (appointment "b" .CONFIRMED none).priceCentsSnapshot) = true := by
    rw [receivedOnRoot_corrected]
    rfl
  show ([appointment "b" .CONFIRMED none].filter fun b => isCandidate "org" none today b &&
    decide (receivedOnRoot (corrected n) b < b.priceCentsSnapshot)).length = 1
  rw [List.filter_cons_of_pos (by rw [isCandidate_appointment, hcounted]; rfl), List.filter_nil]
  rfl

theorem owed_corrected {n : Nat} (hn : 9007199254740991 < (n : Int) * 2147483647) :
    (candidates (corrected n) "org" none today).filter (isOwed (corrected n)) = [] := by
  refine List.filter_eq_nil_iff.mpr fun b hb => ?_
  rw [List.mem_singleton.mp (List.mem_filter.mp hb).1]
  unfold isOwed
  split
  · rename_i m hm
    exact absurd hm (receivedFor_corrected hn m)
  · exact Bool.false_ne_true

/-- An appointment is counted, although the other reader does not say that it is owed anything. -/
theorem unpaid_disagrees :
    OneCurrency (corrected 4194305) "org" "EUR" ∧
      (moneyFigures (corrected 4194305) "org" none today).unpaidConfirmedBookings = 1 ∧
      ((candidates (corrected 4194305) "org" none today).filter (isOwed (corrected 4194305))).length = 0 :=
  ⟨oneCurrency_corrected _, moneyFigures_corrected _, congrArg List.length (owed_corrected (by norm_num))⟩

end Corrections

section Moved

/-- An appointment that was paid in part and moved: the money stays on the first row. -/
def moved : Books where
  bookings := [appointment "a" .CANCELED_BY_BUSINESS none, appointment "b" .CONFIRMED (some "a"),
    appointment "c" .CONFIRMED (some "a")]
  payments := [{
    id := "p", organizationId := "org", bookingId := "a", amountCents := 9000, currency := "EUR",
    status := .PARTIALLY_REFUNDED, paidAt := some 0, createdAt := 0 }]
  manualPayments := []
  refunds := []
  bookings_pkey := by decide
  payments_pkey := by decide
  manual_payments_pkey := by decide
  financial_root_fkey := by decide
  payments_booking_fkey := by decide
  manual_payments_booking_fkey := by decide
  payments_amount_check := by decide
  payments_amount_int4 := by decide
  manual_payments_amount_check := by decide
  manual_payments_amount_int4 := by decide

theorem moved_unpaid :
    (moneyFigures moved "org" none today).unpaidConfirmedBookings =
      ((candidates moved "org" none today).filter (isOwed moved)).length :=
  (@unpaid_agrees moved "org" none today "EUR" (by constructor <;> decide)).2 (by
    intro b hb
    refine (@unpaid_agrees moved "org" none today "EUR" (by constructor <;> decide)).1 ?_ b hb ?_
    · unfold RootsWithin
      decide
    · revert b
      decide)

end Moved

end BookingApp.DashboardService

import BookingApp.Payment.Financials
import BookingApp.Payment.Roots

/-!
# What a customer has paid (`office/customers.service.ts`)

Every booking of an appointment that was moved reports the same money. The page of a customer
puts the financials of all their bookings into a map by root, and adds up the map, so that the
money of a root is counted once.
-/

set_option autoImplicit false

namespace BookingApp

open ReadCommitted

/-- `Map.set`: a key that is there keeps its place. -/
def mapSet {ν : Type} (key : String) (value : ν) (map : List (String × ν)) : List (String × ν) :=
  if key ∈ map.map Prod.fst then map.map fun entry => if entry.1 = key then (key, value) else entry
  else map ++ [(key, value)]

/-- A booking on the page of its customer. -/
structure OfficeCustomerBooking where
  id : String
  reference : String
  status : BookingStatus
  startsAt : Int
  serviceName : String
  employeeId : String
  price : Money
  deriving DecidableEq, Repr

/-- The page of a customer, without the columns of the customer. -/
structure OfficeCustomerDetail where
  bookings : List OfficeCustomerBooking
  lifetimeValue : Money
  deriving DecidableEq, Repr

namespace CustomersService

open BookingFinancialsService

variable (books : Books) (organizationId : String)

/-- The bookings of a customer, the latest first. -/
def bookingsOf (customerId : String) : List Booking :=
  (books.bookings.filter fun b => decide (b.customerId = customerId ∧ b.organizationId = organizationId)).insertionSort
    fun a b => b.startsAt ≤ a.startsAt

/-- The financials by root: every link of a chain of reschedules has the same ones. -/
def byRoot (financials : List (String × BookingFinancials)) : List (String × BookingFinancials) :=
  financials.foldl (fun roots entry => mapSet entry.2.rootBookingId entry.2 roots) []

/-- What was paid on the roots, net of the refunds that have settled. -/
def lifetimeValue (currency : String) (roots : List (String × BookingFinancials)) : Except Failure Money :=
  roots.foldlM (fun total entry => do
    let total ← total.plus (← entry.2.received currency)
    total.minus (← entry.2.refunded currency)) (Money.zero currency)

def toListed (b : Booking) : OfficeCustomerBooking where
  id := b.id
  reference := b.reference
  status := b.status
  startsAt := b.startsAt
  serviceName := b.serviceNameSnapshot
  employeeId := b.employeeId
  price := { amountCents := b.priceCentsSnapshot, currency := b.currency }

/-- `CustomersService.detail`, for a customer that is there. The currency is the organization's. -/
def detail (currency customerId : String) : Except Failure OfficeCustomerDetail := do
  let bookings := bookingsOf books organizationId customerId
  let financials ← loadMany books organizationId (bookings.map Booking.id)
  let value ← lifetimeValue currency (byRoot financials)
  return { bookings := bookings.map toListed, lifetimeValue := value }

end CustomersService

section Roots

open CustomersService BookingFinancialsService

variable {books : Books} {organizationId customerId currency : String}

/-- Setting a key of a map whose values follow from their keys. -/
theorem mapSet_graph {ν : Type} (value : String → ν) (key : String) (keys : List String) :
    mapSet key (value key) (keys.map fun k => (k, value k)) =
      (if key ∈ keys then keys else keys ++ [key]).map fun k => (k, value k) := by
  have hkeys : (keys.map fun k => (k, value k)).map Prod.fst = keys := by
    simp [Function.comp_def]
  unfold mapSet
  rw [hkeys]
  by_cases hkey : key ∈ keys
  · rw [if_pos hkey, if_pos hkey, List.map_map]
    refine List.map_congr_left fun k _ => ?_
    by_cases hk : k = key
    · simp [hk]
    · simp [hk]
  · rw [if_neg hkey, if_neg hkey, List.map_append]
    rfl

/-- The map has the root of every booking, once. -/
theorem byRoot_graph (root : String → String) (ids : List String) : ∃ keys : List String, keys.Nodup ∧
    (∀ k, k ∈ keys ↔ ∃ id ∈ ids, root id = k) ∧
    byRoot (ids.map fun id => (id, recordedOn books (root id))) = keys.map fun k => (k, recordedOn books k) := by
  induction ids using List.reverseRecOn with
  | nil => exact ⟨[], List.nodup_nil, fun _ => by simp, rfl⟩
  | append_singleton ids id ih =>
    obtain ⟨keys, hnodup, hmem, hkeys⟩ := ih
    have hroots : ∀ k, (∃ i ∈ ids ++ [id], root i = k) ↔ k ∈ keys ∨ root id = k := by
      intro k
      simp only [hmem, List.mem_append, List.mem_singleton, or_and_right, exists_or, exists_eq_left]
    refine ⟨if root id ∈ keys then keys else keys ++ [root id], ?_, fun k => ?_, ?_⟩
    · split
      · exact hnodup
      · rename_i hnew
        exact hnodup.append (List.nodup_singleton _) (List.disjoint_singleton.mpr hnew)
    · rw [hroots]
      split
      · rename_i hold
        constructor
        · exact .inl
        · rintro (hk | rfl)
          · exact hk
          · exact hold
      · rw [List.mem_append, List.mem_singleton, eq_comm (a := k)]
    · unfold byRoot at hkeys ⊢
      rw [List.map_append, List.foldl_append, hkeys]
      exact mapSet_graph (recordedOn books) (root id) keys

/-- A value that is returned is the sum over the map. -/
theorem lifetimeValue_eq (keys : List String) : ∀ {total m : Money},
    (keys.map fun k => (k, recordedOn books k)).foldlM (fun total entry => do
        let total ← total.plus (← entry.2.received currency)
        total.minus (← entry.2.refunded currency)) total = .ok m →
      m.amountCents = total.amountCents + (keys.map fun k => receivedOn books k - refundedOn books k).sum := by
  induction keys with
  | nil =>
    intro total m h
    cases h
    simp
  | cons k keys ih =>
    intro total m h
    rw [List.map_cons, List.foldlM_cons] at h
    obtain ⟨next, hnext, h⟩ := bind_eq_ok.mp h
    obtain ⟨received, hreceived, hnext⟩ := bind_eq_ok.mp hnext
    obtain ⟨sum, hsum, hnext⟩ := bind_eq_ok.mp hnext
    obtain ⟨refunded, hrefunded, hnext⟩ := bind_eq_ok.mp hnext
    rw [ih h, (Money.minus_eq_ok hnext).1, (Money.plus_eq_ok hsum).1, received_recordedOn books k hreceived,
      refunded_recordedOn books k hrefunded, List.map_cons, List.sum_cons]
    omega

/-- The rows of money on a root. -/
def BookingFinancials.rows (f : BookingFinancials) : Nat :=
  f.payments.length + f.manualPayments.length + f.refunds.length

/-- The money on a root is in one currency. -/
structure BookingFinancials.InCurrency (f : BookingFinancials) (currency : String) : Prop where
  payments : ∀ p ∈ f.payments, p.currency = currency
  manualPayments : ∀ m ∈ f.manualPayments, m.currency = currency
  refunds : ∀ r ∈ f.refunds, r.currency = currency

/-- The value is returned for money of one currency in fewer than `2 ^ 22` rows. -/
theorem lifetimeValue_isOk (hint4 : ∀ r ∈ books.refunds, 0 < r.amountCents ∧ r.amountCents ≤ 2147483647)
    (keys : List String) : ∀ {total : Money} {n : Int},
    (∀ k ∈ keys, (recordedOn books k).InCurrency currency) → total.currency = currency →
    -2147483648 * n ≤ total.amountCents → total.amountCents ≤ 2147483648 * n →
    0 ≤ n → n + (keys.map fun k => (recordedOn books k).rows).sum < 4194304 →
    ∃ m, (keys.map fun k => (k, recordedOn books k)).foldlM (fun total entry => do
        let total ← total.plus (← entry.2.received currency)
        total.minus (← entry.2.refunded currency)) total = .ok m := by
  induction keys with
  | nil => exact fun {total n} _ _ _ _ _ _ => ⟨total, rfl⟩
  | cons k keys ih =>
    intro total n hin htotal hlo hhi hn hrows
    obtain ⟨hk, hin⟩ := List.forall_mem_cons.mp hin
    rw [List.map_cons, List.sum_cons] at hrows
    have hlength : (recordedOn books k).rows = (recordedOn books k).payments.length +
        (recordedOn books k).manualPayments.length + (recordedOn books k).refunds.length := rfl
    have hcard : ∀ p ∈ (recordedOn books k).payments, -2147483648 ≤ p.amountCents ∧ p.amountCents ≤ 2147483647 := by
      intro p hp
      obtain ⟨hp, -⟩ := List.mem_filter.mp ((List.mem_insertionSort _).mp hp)
      have hpositive := books.payments_amount_check p hp
      exact ⟨by omega, books.payments_amount_int4 p hp⟩
    have hcash : ∀ m ∈ (recordedOn books k).manualPayments.map ManualPaymentRow.toManualPayment,
        m.currency = currency ∧ -2147483648 ≤ m.amountCents ∧ m.amountCents ≤ 2147483647 := by
      intro m hm
      obtain ⟨row, hrow, rfl⟩ := List.mem_map.mp hm
      have hbound := books.manual_payments_amount_int4 row
        (List.mem_filter.mp ((List.mem_insertionSort _).mp hrow)).1
      exact ⟨hk.manualPayments row hrow, hbound⟩
    have hback : ∀ r ∈ (recordedOn books k).refunds.map RefundRow.toRefund,
        r.currency = currency ∧ 0 < r.amountCents ∧ r.amountCents ≤ 2147483647 := by
      intro r hr
      obtain ⟨row, hrow, rfl⟩ := List.mem_map.mp hr
      have hmem := (List.mem_filter.mp ((List.mem_insertionSort _).mp hrow)).1
      exact ⟨hk.refunds row hrow, hint4 row hmem⟩
    obtain ⟨received, hreceived, hreceivedCurrency, hreceivedLo, hreceivedHi⟩ :=
      receivedFrom_isOk hk.payments (fun m hm => (hcash m hm).1) hcard (fun m hm => (hcash m hm).2)
        (by rw [List.length_map]; omega)
    obtain ⟨refunded, hrefunded, hrefundedCurrency, hrefundedLo, hrefundedHi⟩ :=
      refundedFrom_isOk (fun r hr => (hback r hr).1) (fun r hr => (hback r hr).2)
        (by rw [List.length_map]; omega)
    rw [List.length_map] at hreceivedLo hreceivedHi hrefundedLo hrefundedHi
    have hplus : total.plus received =
        .ok { amountCents := total.amountCents + received.amountCents, currency := total.currency } := by
      unfold Money.plus Money.assertSameCurrency
      rw [if_pos (hreceivedCurrency.trans htotal.symm)]
      exact Money.fromCents_of_range (by omega) (by omega)
    have hminus : Money.minus { amountCents := total.amountCents + received.amountCents, currency := total.currency }
        refunded = .ok {
          amountCents := total.amountCents + received.amountCents - refunded.amountCents
          currency := total.currency } := by
      unfold Money.minus Money.assertSameCurrency
      rw [if_pos (hrefundedCurrency.trans htotal.symm)]
      exact Money.fromCents_of_range (by dsimp only; omega) (by dsimp only; omega)
    obtain ⟨m, hm⟩ := @ih {
        amountCents := total.amountCents + received.amountCents - refunded.amountCents
        currency := total.currency } (n + (recordedOn books k).rows) hin htotal (by dsimp only; omega)
      (by dsimp only; omega) (by omega) (by omega)
    refine ⟨m, ?_⟩
    rw [List.map_cons, List.foldlM_cons]
    dsimp only
    rw [BookingFinancials.received, hreceived]
    change (total.plus received >>= fun total => (recordedOn books k).refunded currency >>= total.minus) >>= _ = _
    rw [hplus, BookingFinancials.refunded, hrefunded]
    change Money.minus _ refunded >>= _ = _
    rw [hminus]
    exact hm

/-- The books are the tables of a state, with the columns that the financial readers need besides. -/
structure Books.Shows (books : Books) (d : Db) : Prop where
  bookings : books.bookings = d.bookings
  payments : books.payments = d.payments
  manualPayments : books.manualPayments.map ManualPaymentRow.toManualPayment = d.manualPayments
  refunds : books.refunds.map RefundRow.toRefund = d.refunds

/-- The bookings of a customer that are their own roots. -/
def customerRoots (books : Books) (organizationId customerId : String) : List Booking :=
  books.bookings.filter fun b => decide (b.customerId = customerId ∧ b.organizationId = organizationId ∧
    b.financialRootBookingId = none)

variable {d : Db}

/-- The roots of a customer's bookings are the customer's. -/
theorem root_iff_customerRoots (hd : Legal d) (hr : Rooted d) (hs : books.Shows d) (k : String) :
    (∃ id ∈ (bookingsOf books organizationId customerId).map Booking.id, rootOf books id = k) ↔
      k ∈ (customerRoots books organizationId customerId).map Booking.id := by
  simp only [List.mem_map, exists_exists_and_eq_and]
  constructor
  · rintro ⟨b, hb, rfl⟩
    obtain ⟨hb, hp⟩ := List.mem_filter.mp ((List.mem_insertionSort _).mp hb)
    obtain ⟨hcustomer, horganization⟩ := of_decide_eq_true hp
    obtain ⟨r, hfind, hroot⟩ := hr.root_of_mem hd (hs.bookings ▸ hb)
    refine ⟨r, List.mem_filter.mpr ⟨hs.bookings ▸ Table.mem_of_find hfind, decide_eq_true ?_⟩, ?_⟩
    · exact ⟨hroot.customer.trans hcustomer, hroot.organization.trans horganization, hroot.root⟩
    · rw [rootOf_eq hb]
      exact Table.key_of_find hfind
  · rintro ⟨r, hr, rfl⟩
    obtain ⟨hmem, hp⟩ := List.mem_filter.mp hr
    obtain ⟨hcustomer, horganization, hroot⟩ := of_decide_eq_true hp
    refine ⟨r, (List.mem_insertionSort _).mpr (List.mem_filter.mpr ⟨hmem, ?_⟩), ?_⟩
    · exact decide_eq_true ⟨hcustomer, horganization⟩
    · rw [rootOf_eq hmem, Booking.financialRoot, hroot]
      rfl

/-- What is added up on the page of a customer. -/
theorem detail_roots (hd : Legal d) (hr : Rooted d) (hs : books.Shows d) : ∃ keys : List String,
    keys.Perm ((customerRoots books organizationId customerId).map Booking.id) ∧
    detail books organizationId currency customerId =
      (lifetimeValue currency (keys.map fun k => (k, recordedOn books k))).map fun value =>
        { bookings := (bookingsOf books organizationId customerId).map toListed, lifetimeValue := value } := by
  obtain ⟨keys, hnodup, hmem, hkeys⟩ :=
    @byRoot_graph books (rootOf books) ((bookingsOf books organizationId customerId).map Booking.id)
  refine ⟨keys, ?_, ?_⟩
  · refine (List.perm_ext_iff_of_nodup hnodup ?_).mpr fun k => ?_
    · exact books.bookings_pkey.sublist (List.filter_sublist.map _)
    · rw [hmem, root_iff_customerRoots hd hr hs]
  · have hknown : ∀ id ∈ (bookingsOf books organizationId customerId).map Booking.id,
        Known books organizationId id := by
      intro id hid
      obtain ⟨b, hb, rfl⟩ := List.mem_map.mp hid
      obtain ⟨hb, hp⟩ := List.mem_filter.mp ((List.mem_insertionSort _).mp hb)
      exact ⟨b, hb, rfl, (of_decide_eq_true hp).2⟩
    unfold detail
    dsimp only
    rw [loadMany_eq hknown]
    change (lifetimeValue currency (byRoot _) >>= _) = _
    rw [hkeys]
    cases lifetimeValue currency (keys.map fun k => (k, recordedOn books k)) <;> rfl

/-- What holds of the money of bookings, for every chain of reschedules. -/
structure FinancialRootLaw (d : Db) : Prop where
  root : ∀ first b, Succession d.bookings first b →
    first.financialRootBookingId = none ∧ b.financialRoot = first.id
  payments : ∀ p ∈ d.payments, ∃ b ∈ d.bookings, b.id = p.bookingId ∧ b.financialRootBookingId = none
  manualPayments : ∀ m ∈ d.manualPayments, ∃ b ∈ d.bookings, b.id = m.bookingId ∧ b.financialRootBookingId = none
  load : ∀ books : Books, books.Shows d → ∀ first b, Succession d.bookings first b →
    ∃ f, BookingFinancialsService.load books first.organizationId first.id = .ok f ∧
      BookingFinancialsService.load books b.organizationId b.id = .ok f ∧
      f.rootBookingId = first.id ∧ b.currency = first.currency ∧
      (∀ m, f.received b.currency = .ok m → m.amountCents = receivedOn books first.id) ∧
      ∀ m, f.refunded b.currency = .ok m → m.amountCents = refundedOn books first.id
  loadMany : ∀ books : Books, books.Shows d → ∀ organizationId ids,
    ((∃ loaded, loadMany books organizationId ids = .ok loaded) ↔
      ∀ id ∈ ids, ∃ f, BookingFinancialsService.load books organizationId id = .ok f) ∧
    ∀ loaded, loadMany books organizationId ids = .ok loaded → ∀ id ∈ ids, ∃ f,
      loaded.lookup id = some f ∧ BookingFinancialsService.load books organizationId id = .ok f
  lifetimeValue : ∀ books : Books, books.Shows d → ∀ organizationId customerId currency x,
    detail books organizationId currency customerId = .ok x →
    x.lifetimeValue.amountCents = ((customerRoots books organizationId customerId).map fun r =>
      receivedOn books r.id - refundedOn books r.id).sum
  answers : ∀ books : Books, books.Shows d → ∀ organizationId customerId currency,
    (∀ r ∈ customerRoots books organizationId customerId, (recordedOn books r.id).InCurrency currency) →
    ((customerRoots books organizationId customerId).map fun r => (recordedOn books r.id).rows).sum < 4194304 →
    ∃ x, detail books organizationId currency customerId = .ok x

/-- A booking is loaded if and only if it is the organization's. -/
theorem load_iff_known {id : String} :
    (∃ f, BookingFinancialsService.load books organizationId id = .ok f) ↔ Known books organizationId id := by
  constructor
  · rintro ⟨f, hf⟩
    by_contra hunknown
    unfold BookingFinancialsService.load at hf
    rw [loadMany_unknown fun hknown => hunknown (hknown id List.mem_cons_self)] at hf
    cases hf
  · rintro ⟨b, hb, rfl, rfl⟩
    exact ⟨_, load_recordedOn hb⟩

theorem FinancialRootLaw.of_rooted (hd : Legal d) (hr : Rooted d) : FinancialRootLaw d where
  root first b h := ⟨(h.root hd hr).2.1, (h.root hd hr).2.2.1⟩
  payments p hp := by
    obtain ⟨b, hfind, hroot⟩ := hr.payments p hp
    exact ⟨b, Table.mem_of_find hfind, Table.key_of_find hfind, hroot⟩
  manualPayments m hm := by
    obtain ⟨b, hfind, hroot⟩ := hr.manualPayments m hm
    exact ⟨b, Table.mem_of_find hfind, Table.key_of_find hfind, hroot⟩
  load books hs first b h := by
    obtain ⟨hb, hfirst, hroot, -, hcurrency⟩ := h.root hd hr
    have hrootFirst : first.financialRoot = first.id := by rw [Booking.financialRoot, hfirst]; rfl
    have hload := load_recordedOn (hs.bookings.symm ▸ h.first_mem : first ∈ books.bookings)
    have hload' := load_recordedOn (hs.bookings.symm ▸ hb : b ∈ books.bookings)
    rw [hrootFirst] at hload
    rw [Booking.financialRoot, hroot] at hload'
    exact ⟨_, hload, hload', rfl, hcurrency, fun m => received_recordedOn books first.id,
      fun m => refunded_recordedOn books first.id⟩
  loadMany books hs organizationId ids := by
    simp only [load_iff_known]
    by_cases hknown : ∀ id ∈ ids, Known books organizationId id
    · rw [loadMany_eq hknown]
      refine ⟨⟨fun _ => hknown, fun _ => ⟨_, rfl⟩⟩, fun loaded hloaded id hid => ?_⟩
      obtain ⟨b, hb, rfl, rfl⟩ := hknown id hid
      cases hloaded
      refine ⟨_, List.lookup_graph (fun id => recordedOn books (rootOf books id)) hid, ?_⟩
      rw [rootOf_eq hb]
      exact load_recordedOn hb
    · rw [loadMany_unknown hknown]
      exact ⟨⟨fun ⟨_, h⟩ => (by cases h), fun h => absurd h hknown⟩, fun _ h => (by cases h)⟩
  lifetimeValue books hs organizationId customerId currency x h := by
    obtain ⟨keys, hperm, hdetail⟩ := @detail_roots books organizationId customerId currency d hd hr hs
    rw [hdetail] at h
    cases hvalue : CustomersService.lifetimeValue currency (keys.map fun k => (k, recordedOn books k)) with
    | error e =>
      rw [hvalue] at h
      cases h
    | ok value =>
      rw [hvalue] at h
      cases h
      rw [lifetimeValue_eq keys hvalue, (hperm.map _).sum_eq, List.map_map]
      exact Int.zero_add _
  answers books hs organizationId customerId currency hin hrows := by
    obtain ⟨keys, hperm, hdetail⟩ := @detail_roots books organizationId customerId currency d hd hr hs
    have hint4 : ∀ r ∈ books.refunds, 0 < r.amountCents ∧ r.amountCents ≤ 2147483647 := by
      intro r hmem
      have hrow : r.toRefund ∈ d.refunds := hs.refunds ▸ List.mem_map_of_mem hmem
      exact ⟨hd.refunds.amount_check _ hrow, hd.refunds.amount_int4 _ hrow⟩
    have hkeys : ∀ k ∈ keys, (recordedOn books k).InCurrency currency := by
      intro k hk
      obtain ⟨r, hmem, rfl⟩ := List.mem_map.mp (hperm.mem_iff.mp hk)
      exact hin r hmem
    have hsum : (keys.map fun k => (recordedOn books k).rows).sum =
        ((customerRoots books organizationId customerId).map fun r => (recordedOn books r.id).rows).sum := by
      rw [(hperm.map _).sum_eq, List.map_map]
      rfl
    obtain ⟨value, hvalue⟩ := @lifetimeValue_isOk books currency hint4 keys (Money.zero currency) 0 hkeys rfl
      (by simp [Money.zero]) (by simp [Money.zero]) le_rfl (by omega)
    rw [hdetail]
    exact ⟨_, congrArg (Except.map _) hvalue⟩

/-- However often appointments are moved, and whatever is paid, recorded and given back in between: all
bookings of a chain have one root, which is the first of them, the money is on roots only, every
booking of the chain is loaded with all of it, by itself or with others, and a customer's lifetime
value has the money of each root once. -/
theorem financial_root (hd : Legal d) (hr : Rooted d) {s : Sys store}
    (hrun : Sys.Reach FinancialOperation .none { db := d } s) : FinancialRootLaw s.db := by
  obtain ⟨hlegal, hrooted⟩ := rooted_of_reach hd hr hrun
  exact .of_rooted hlegal hrooted

/-- Money that is on a booking which nothing was moved to. -/
theorem rooted_moving : Rooted .moving where
  first := by decide
  replaces b hb id hid := by
    obtain rfl := List.mem_singleton.mp hb
    cases hid
  root b hb id hid := by
    obtain rfl := List.mem_singleton.mp hb
    cases hid
  settled := by decide
  payments p hp := by
    obtain rfl := List.mem_singleton.mp hp
    exact ⟨.sample, rfl, rfl⟩
  manualPayments _ hm := by cases hm

/-- The appointment was paid for, and is moved. -/
theorem financial_root_sample : ∃ (s : Sys store) (first b : Booking),
    Succession s.db.bookings first b ∧ first.id = "b" ∧ b.id = "b'" ∧ b.financialRoot = "b" ∧
      s.db.payments.map Payment.bookingId = ["b"] ∧ FinancialRootLaw s.db := by
  have hexec : (Sys.exec .none { db := Db.moving } (replacedFirst ++ replacedThen)).map (fun s =>
      (s.db.bookings.map fun b => (b.id, b.rescheduledFromBookingId), s.db.payments.map Payment.bookingId)) =
    some ([("b", none), ("b'", some "b")], ["b"]) := by rfl
  obtain ⟨s, hs, he⟩ := Option.map_eq_some_iff.mp hexec
  obtain ⟨hbookings, hpayments⟩ := Prod.mk.inj he
  have hrun : Sys.Reach FinancialOperation .none { db := Db.moving } s := by
    refine .exec (fun _ _ => trivial) .refl (fun a ha => ?_) hs
    have hstarts := @starts_someMove everyRun ⟨trivial, nofun, fun _ => trivial⟩ a ha
    cases a with
    | start c => exact .booking c hstarts
    | _ => trivial
  have hlaw := financial_root legal_moving rooted_moving hrun
  obtain ⟨first, rest, hlist, hfirst, hrest⟩ := List.map_eq_cons_iff.mp hbookings
  obtain ⟨b, rest', hlist', hb, -⟩ := List.map_eq_cons_iff.mp hrest
  obtain ⟨hid, hnone⟩ := Prod.mk.inj hfirst
  obtain ⟨hid', hreplaces⟩ := Prod.mk.inj hb
  have hchain : Succession s.db.bookings first b := by
    refine .next first b (.first ?_ hnone) ?_ (hid ▸ hreplaces) <;> simp [hlist, hlist']
  exact ⟨s, first, b, hchain, hid, hid', (hlaw.root first b hchain).2.trans hid, hpayments, hlaw⟩

end Roots

end BookingApp

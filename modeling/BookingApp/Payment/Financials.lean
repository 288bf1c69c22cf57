import BookingApp.Booking.Rejection
import BookingApp.Rearrange

/-!
# What has been paid on a booking (`payment/booking-financials.service.ts`, `office/received.ts`)

The money of a rescheduled booking stays on the row it was paid on, the financial root. The
service answers for a list of bookings what is recorded on their roots, in one read of each
table whose rows are then sorted onto the roots.
-/

set_option autoImplicit false

namespace BookingApp

structure ManualPaymentRow extends ManualPayment where
  id : String
  organizationId : String
  paidAt : Int
  deriving DecidableEq, Repr

structure RefundRow extends Refund where
  requestedAt : Int
  deriving DecidableEq, Repr

/-- The tables that financial readers read, with the constraints of the database on them. A
financial root is a booking, of whichever organization. -/
structure Books where
  bookings : List Booking
  payments : List Payment
  manualPayments : List ManualPaymentRow
  refunds : List RefundRow
  bookings_pkey : (bookings.map Booking.id).Nodup
  payments_pkey : (payments.map Payment.id).Nodup
  manual_payments_pkey : (manualPayments.map ManualPaymentRow.id).Nodup
  financial_root_fkey : ∀ b ∈ bookings, ∀ root ∈ b.financialRootBookingId, ∃ r ∈ bookings, r.id = root
  payments_booking_fkey : ∀ p ∈ payments, ∃ b ∈ bookings, b.organizationId = p.organizationId ∧ b.id = p.bookingId
  manual_payments_booking_fkey :
    ∀ m ∈ manualPayments, ∃ b ∈ bookings, b.organizationId = m.organizationId ∧ b.id = m.bookingId
  payments_amount_check : ∀ p ∈ payments, 0 < p.amountCents
  payments_amount_int4 : ∀ p ∈ payments, p.amountCents ≤ 2147483647
  manual_payments_amount_check : ∀ m ∈ manualPayments, m.amountCents ≠ 0
  manual_payments_amount_int4 :
    ∀ m ∈ manualPayments, -2147483648 ≤ m.amountCents ∧ m.amountCents ≤ 2147483647

structure BookingFinancials where
  rootBookingId : String
  payments : List Payment
  manualPayments : List ManualPaymentRow
  refunds : List RefundRow
  deriving DecidableEq, Repr

def emptyFinancials (rootBookingId : String) : BookingFinancials where
  rootBookingId
  payments := []
  manualPayments := []
  refunds := []

/-- The booking the money is on. -/
def Booking.financialRoot (b : Booking) : String :=
  b.financialRootBookingId.getD b.id

/-- `receivedFrom` of what is recorded on a root. -/
def BookingFinancials.received (f : BookingFinancials) (currency : String) : Except Failure Money :=
  receivedFrom f.payments (f.manualPayments.map ManualPaymentRow.toManualPayment) currency

/-- Refunds that have settled, which is the only money that has actually gone back. -/
def refundedFrom (refunds : List Refund) (currency : String) : Except Failure Money :=
  (refunds.filter fun r => decide (r.status = .SUCCEEDED)).foldlM
    (fun total r => total.addCents r.amountCents r.currency) (Money.zero currency)

/-- `refundedFrom` of what is recorded on a root. -/
def BookingFinancials.refunded (f : BookingFinancials) (currency : String) : Except Failure Money :=
  refundedFrom (f.refunds.map RefundRow.toRefund) currency

namespace BookingFinancialsService

variable (books : Books)

/-- `byRoot.get(key)?` with a row pushed onto one of its lists. -/
def pushTo (key : String) (push : BookingFinancials → BookingFinancials)
    (byRoot : List (String × BookingFinancials)) : List (String × BookingFinancials) :=
  byRoot.map fun entry => if entry.1 = key then (entry.1, push entry.2) else entry

/-- The booking that the payment of a refund is on. -/
def paidBooking (refund : RefundRow) : Option String :=
  (books.payments.find? fun p => decide (p.id = refund.paymentId)).map Payment.bookingId

/-- One read of each table, grouped back onto the roots its rows belong to. -/
def readRoots (rootIds : List String) : List (String × BookingFinancials) :=
  let payments := (books.payments.filter fun p => decide (p.bookingId ∈ rootIds)).insertionSort
    fun p q => p.createdAt ≤ q.createdAt
  let manualPayments := (books.manualPayments.filter fun m => decide (m.bookingId ∈ rootIds)).insertionSort
    fun m n => m.paidAt ≤ n.paidAt
  let refunds := (books.refunds.filter fun r => (paidBooking books r).any fun id =>
    decide (id ∈ rootIds)).insertionSort fun r s => r.requestedAt ≤ s.requestedAt
  let byRoot := rootIds.map fun id => (id, emptyFinancials id)
  let byRoot := payments.foldl (fun byRoot p =>
    pushTo p.bookingId (fun f => { f with payments := f.payments ++ [p] }) byRoot) byRoot
  let byRoot := manualPayments.foldl (fun byRoot m =>
    pushTo m.bookingId (fun f => { f with manualPayments := f.manualPayments ++ [m] }) byRoot) byRoot
  refunds.foldl (fun byRoot r =>
    match paidBooking books r with
    | none => byRoot
    | some id => pushTo id (fun f => { f with refunds := f.refunds ++ [r] }) byRoot) byRoot

/-- Every requested booking's financials; an id that is unknown or another organization's is an
error. Entries with one key are equal, as those of a map are. -/
def loadMany (organizationId : String) (bookingIds : List String) :
    Except Failure (List (String × BookingFinancials)) :=
  let requested := bookingIds.eraseDups
  let bookings := books.bookings.filter fun b => decide (b.id ∈ requested ∧ b.organizationId = organizationId)
  if requested.length = 0 then return []
  else if bookings.length ≠ requested.length then throw bookingNotFound
  else
    let rootByBooking := bookings.map fun b => (b.id, b.financialRoot)
    let rootIds := (rootByBooking.map Prod.snd).eraseDups
    let byRoot := readRoots books rootIds
    bookingIds.mapM fun id =>
      match rootByBooking.lookup id with
      | none => throw bookingNotFound
      | some root => return (id, (byRoot.lookup root).getD (emptyFinancials root))

def load (organizationId bookingId : String) : Except Failure BookingFinancials := do
  match (← loadMany books organizationId [bookingId]).lookup bookingId with
  | none => throw bookingNotFound
  | some financials => return financials

end BookingFinancialsService

/-! ## Rows in order -/

section Sorting

variable {ρ : Type} (time : ρ → Int) (p : ρ → Bool)

theorem orderedInsert_of_forall {r : ρ} {rows : List ρ} (h : ∀ s ∈ rows, time r ≤ time s) :
    rows.orderedInsert (fun r s => time r ≤ time s) r = r :: rows := by
  cases rows with
  | nil => rfl
  | cons s rows => rw [List.orderedInsert_cons, if_pos (h s List.mem_cons_self)]

theorem filter_orderedInsert {r : ρ} : ∀ {rows : List ρ}, (rows.Pairwise fun r s => time r ≤ time s) →
    (rows.orderedInsert (fun r s => time r ≤ time s) r).filter p =
      if p r = true then (rows.filter p).orderedInsert (fun r s => time r ≤ time s) r else rows.filter p := by
  intro rows
  induction rows with
  | nil => intro _; by_cases hp : p r = true <;> simp [hp]
  | cons s rows ih =>
    intro hsorted
    have hrest := List.pairwise_cons.mp hsorted
    by_cases hle : time r ≤ time s
    · rw [List.orderedInsert_cons, if_pos hle, List.filter_cons]
      split
      · refine (orderedInsert_of_forall time fun t ht => ?_).symm
        rcases List.mem_cons.mp (List.mem_filter.mp ht).1 with rfl | hmem
        · exact hle
        · exact hle.trans (hrest.1 t hmem)
      · rfl
    · rw [List.orderedInsert_cons, if_neg hle, List.filter_cons, ih hrest.2, List.filter_cons]
      by_cases hs : p s = true
      · simp only [hs, if_true]
        split
        · rw [List.orderedInsert_cons, if_neg hle]
        · rfl
      · simp only [hs, if_false, Bool.false_eq_true]

/-- The order of rows at one time is kept, so it is the same if some are left out before. -/
theorem filter_insertionSort : ∀ rows : List ρ,
    (rows.insertionSort fun r s => time r ≤ time s).filter p =
      (rows.filter p).insertionSort fun r s => time r ≤ time s := by
  intro rows
  have htotal : Std.Total fun r s : ρ => time r ≤ time s := ⟨fun r s => le_total (time r) (time s)⟩
  have htrans : IsTrans ρ fun r s => time r ≤ time s := ⟨fun _ _ _ => le_trans⟩
  induction rows with
  | nil => rfl
  | cons r rows ih =>
    rw [List.insertionSort_cons, filter_orderedInsert time p (List.pairwise_insertionSort _ _), ih,
      List.filter_cons]
    split
    · rw [List.insertionSort_cons]
    · rfl

end Sorting

/-! ## What is loaded -/

section Loading

open BookingFinancialsService

variable {ρ : Type}

theorem lookup_pushTo (key id : String) (push : BookingFinancials → BookingFinancials)
    (byRoot : List (String × BookingFinancials)) :
    (pushTo key push byRoot).lookup id =
      (byRoot.lookup id).map fun f => if id = key then push f else f := by
  induction byRoot with
  | nil => rfl
  | cons entry rest ih =>
    obtain ⟨k, f⟩ := entry
    unfold pushTo at ih ⊢
    rw [List.map_cons]
    by_cases hid : id = k
    · subst hid
      by_cases hkey : id = key
      · simp [hkey]
      · simp [hkey]
    · have hne : (id == k) = false := beq_eq_false_iff_ne.mpr hid
      by_cases hkey : k = key
      · rw [if_pos hkey, List.lookup_cons, List.lookup_cons, hne, ih]
      · rw [if_neg hkey, List.lookup_cons, List.lookup_cons, hne, ih]

/-- The loop over the rows of a table: each is pushed onto its root. -/
theorem lookup_foldl_pushTo (key : ρ → Option String) (add : List ρ → BookingFinancials → BookingFinancials)
    {step : List (String × BookingFinancials) → ρ → List (String × BookingFinancials)}
    (hstep : ∀ byRoot r, step byRoot r = (key r).elim byRoot fun k => pushTo k (add [r]) byRoot)
    (hnil : ∀ f, add [] f = f) (hcons : ∀ r rows f, add rows (add [r] f) = add (r :: rows) f)
    (root : String) (rows : List ρ) : ∀ byRoot : List (String × BookingFinancials),
    (rows.foldl step byRoot).lookup root =
      (byRoot.lookup root).map (add (rows.filter fun r => decide (key r = some root))) := by
  induction rows with
  | nil =>
    intro byRoot
    have hadd : add [] = id := funext hnil
    simp [hadd]
  | cons r rows ih =>
    intro byRoot
    rw [List.foldl_cons, ih, hstep]
    cases hkey : key r with
    | none => simp [hkey]
    | some k =>
      rw [Option.elim_some, lookup_pushTo, Option.map_map]
      by_cases hroot : root = k
      · subst hroot
        simp [hkey, Function.comp_def, hcons]
      · have hne : k ≠ root := fun h => hroot h.symm
        simp [hkey, hroot, hne, Function.comp_def]

theorem lookup_emptyFinancials {id : String} {rootIds : List String} (h : id ∈ rootIds) :
    (rootIds.map fun id => (id, emptyFinancials id)).lookup id = some (emptyFinancials id) := by
  induction rootIds with
  | nil => cases h
  | cons root rootIds ih =>
    rw [List.map_cons, List.lookup_cons]
    by_cases hid : id = root
    · rw [hid, beq_self_eq_true]
    · rw [beq_eq_false_iff_ne.mpr hid]
      exact ih ((List.mem_cons.mp h).resolve_left hid)

/-- What is recorded on a root, the oldest rows first. -/
def recordedOn (books : Books) (root : String) : BookingFinancials where
  rootBookingId := root
  payments := (books.payments.filter fun p => decide (p.bookingId = root)).insertionSort
    fun p q => p.createdAt ≤ q.createdAt
  manualPayments := (books.manualPayments.filter fun m => decide (m.bookingId = root)).insertionSort
    fun m n => m.paidAt ≤ n.paidAt
  refunds := (books.refunds.filter fun r => decide (paidBooking books r = some root)).insertionSort
    fun r s => r.requestedAt ≤ s.requestedAt

variable {books : Books}

/-- The rows of one root, among those that were read for several. -/
theorem filter_rows_of_roots {root : String} {rootIds : List String} (h : root ∈ rootIds)
    (key : ρ → Option String) (time : ρ → Int) (t : List ρ) :
    ((t.filter fun r => (key r).any fun id => decide (id ∈ rootIds)).insertionSort
        fun r s => time r ≤ time s).filter (fun r => decide (key r = some root)) =
      (t.filter fun r => decide (key r = some root)).insertionSort fun r s => time r ≤ time s := by
  rw [filter_insertionSort, List.filter_filter]
  refine congrArg _ (List.filter_congr fun r _ => ?_)
  by_cases hr : key r = some root
  · simp [hr, h]
  · simp [hr]

theorem lookup_readRoots {root : String} {rootIds : List String} (h : root ∈ rootIds) :
    (readRoots books rootIds).lookup root = some (recordedOn books root) := by
  unfold readRoots
  dsimp only
  rw [lookup_foldl_pushTo (fun r => paidBooking books r)
      (fun rows f => { f with refunds := f.refunds ++ rows }),
    lookup_foldl_pushTo (fun m => some m.bookingId)
      (fun rows f => { f with manualPayments := f.manualPayments ++ rows }),
    lookup_foldl_pushTo (fun p => some p.bookingId)
      (fun rows f => { f with payments := f.payments ++ rows }),
    lookup_emptyFinancials h]
  · have hcard := filter_rows_of_roots h (fun p : Payment => some p.bookingId) Payment.createdAt books.payments
    have hcash := filter_rows_of_roots h (fun m : ManualPaymentRow => some m.bookingId)
      ManualPaymentRow.paidAt books.manualPayments
    have hback := filter_rows_of_roots h (paidBooking books) RefundRow.requestedAt books.refunds
    simp only [Option.any_some, Option.some.injEq] at hcard hcash
    simp only [Option.map_some, emptyFinancials, List.nil_append, Option.some.injEq, hcard, hcash, hback,
      recordedOn]
  · exact fun _ _ => rfl
  · exact fun f => by simp
  · exact fun p rows f => by simp
  · exact fun _ _ => rfl
  · exact fun f => by simp
  · exact fun m rows f => by simp
  · intro byRoot r
    cases paidBooking books r <;> rfl
  · exact fun f => by simp
  · exact fun r rows f => by simp

theorem nodup_eraseDups : ∀ (n : Nat) (ids : List String), ids.length ≤ n → ids.eraseDups.Nodup := by
  intro n
  induction n with
  | zero =>
    intro ids hlength
    rw [List.length_eq_zero_iff.mp (Nat.le_zero.mp hlength)]
    exact List.nodup_nil
  | succ n ih =>
    intro ids hlength
    cases ids with
    | nil => exact List.nodup_nil
    | cons id ids =>
      rw [List.eraseDups_cons, List.nodup_cons, List.mem_eraseDups, List.mem_filter]
      constructor
      · simp
      · refine ih _ ((List.length_filter_le _ _).trans ?_)
        rw [List.length_cons] at hlength
        omega

/-- The booking is the organization's. -/
def Known (books : Books) (organizationId id : String) : Prop :=
  ∃ b ∈ books.bookings, b.id = id ∧ b.organizationId = organizationId

/-- As many bookings are found as are asked for if and only if all are known. -/
theorem length_found_iff {organizationId : String} {requested : List String} (h : requested.Nodup) :
    (books.bookings.filter fun b => decide (b.id ∈ requested ∧ b.organizationId = organizationId)).length =
      requested.length ↔ ∀ id ∈ requested, Known books organizationId id := by
  generalize hfound : (books.bookings.filter fun b =>
    decide (b.id ∈ requested ∧ b.organizationId = organizationId)) = found
  have hnodup : (found.map Booking.id).Nodup :=
    List.Nodup.sublist (hfound ▸ List.filter_sublist.map _) books.bookings_pkey
  have hsubset : found.map Booking.id ⊆ requested := by
    intro id hid
    obtain ⟨b, hb, rfl⟩ := List.mem_map.mp hid
    rw [← hfound] at hb
    exact (of_decide_eq_true (List.mem_filter.mp hb).2).1
  have hmem : ∀ id ∈ requested, id ∈ found.map Booking.id ↔ Known books organizationId id := by
    intro id hid
    rw [← hfound, List.mem_map]
    constructor
    · rintro ⟨b, hb, rfl⟩
      obtain ⟨hb, hp⟩ := List.mem_filter.mp hb
      exact ⟨b, hb, rfl, (of_decide_eq_true hp).2⟩
    · rintro ⟨b, hb, rfl, ho⟩
      exact ⟨b, List.mem_filter.mpr ⟨hb, decide_eq_true ⟨hid, ho⟩⟩, rfl⟩
  rw [← List.length_map (f := Booking.id)]
  constructor
  · intro hlength id hid
    have hperm := (List.subperm_of_subset hnodup hsubset).perm_of_length_le hlength.ge
    exact (hmem id hid).mp (hperm.mem_iff.mpr hid)
  · intro hknown
    refine le_antisymm (List.subperm_of_subset hnodup hsubset).length_le ?_
    exact (List.subperm_of_subset h fun id hid => (hmem id hid).mpr (hknown id hid)).length_le

/-- The root of a booking with this id. -/
def rootOf (books : Books) (id : String) : String :=
  ((books.bookings.find? fun b => decide (b.id = id)).map Booking.financialRoot).getD id

theorem rootOf_eq {b : Booking} (hb : b ∈ books.bookings) : rootOf books b.id = b.financialRoot := by
  have hfind : Table.find b.id books.bookings = some b := Table.find_of_mem books.bookings_pkey hb
  unfold Table.find at hfind
  exact congrArg (fun row => (Option.map Booking.financialRoot row).getD b.id) hfind

theorem lookup_roots {b : Booking} {found : List Booking} (hnodup : (found.map Booking.id).Nodup)
    (hb : b ∈ found) :
    (found.map fun b => (b.id, b.financialRoot)).lookup b.id = some b.financialRoot := by
  induction found with
  | nil => cases hb
  | cons c found ih =>
    rw [List.map_cons, List.nodup_cons] at hnodup
    rw [List.map_cons, List.lookup_cons]
    rcases List.mem_cons.mp hb with rfl | hmem
    · rw [beq_self_eq_true]
    · have hne : b.id ≠ c.id := fun hid => hnodup.1 (hid ▸ List.mem_map_of_mem hmem)
      rw [beq_eq_false_iff_ne.mpr hne]
      exact ih hnodup.2 hmem

/-- Every booking of a list is answered with what is recorded on its root. -/
theorem loadMany_eq {organizationId : String} {ids : List String}
    (hknown : ∀ id ∈ ids, Known books organizationId id) :
    loadMany books organizationId ids = .ok (ids.map fun id => (id, recordedOn books (rootOf books id))) := by
  have hrequested : ids.eraseDups.Nodup := nodup_eraseDups _ ids le_rfl
  unfold loadMany
  dsimp only
  by_cases hnone : ids.eraseDups.length = 0
  · have hids : ids = [] := by
      rw [List.eq_nil_iff_forall_not_mem]
      intro id hid
      rw [← List.mem_eraseDups, List.length_eq_zero_iff.mp hnone] at hid
      cases hid
    rw [if_pos hnone, hids]
    rfl
  · rw [if_neg hnone, if_neg (not_not.mpr ((length_found_iff hrequested).mpr fun id hid =>
      hknown id (List.mem_eraseDups.mp hid)))]
    generalize hfound : (books.bookings.filter fun b =>
      decide (b.id ∈ ids.eraseDups ∧ b.organizationId = organizationId)) = found
    have hnodup : (found.map Booking.id).Nodup :=
      List.Nodup.sublist (hfound ▸ List.filter_sublist.map _) books.bookings_pkey
    refine mapM_eq_ok.mpr (List.forall₂_map_right_iff.mpr (List.forall₂_same.mpr fun id hid => ?_))
    obtain ⟨b, hb, rfl, ho⟩ := hknown id hid
    have hmem : b ∈ found := by
      rw [← hfound]
      exact List.mem_filter.mpr ⟨hb, decide_eq_true ⟨List.mem_eraseDups.mpr hid, ho⟩⟩
    have hroot : b.financialRoot ∈ ((found.map fun b => (b.id, b.financialRoot)).map Prod.snd).eraseDups :=
      List.mem_eraseDups.mpr (List.mem_map_of_mem (List.mem_map_of_mem hmem))
    rw [lookup_roots hnodup hmem, rootOf_eq hb]
    dsimp only
    rw [lookup_readRoots hroot]
    rfl

/-- A list with a booking that is not known is refused. -/
theorem loadMany_unknown {organizationId : String} {ids : List String}
    (hunknown : ¬∀ id ∈ ids, Known books organizationId id) :
    loadMany books organizationId ids = .error bookingNotFound := by
  unfold loadMany
  dsimp only
  rw [if_neg, if_pos]
  · rfl
  · rw [Ne, length_found_iff (nodup_eraseDups _ ids le_rfl)]
    exact fun hknown => hunknown fun id hid => hknown id (List.mem_eraseDups.mpr hid)
  · intro hnone
    refine hunknown fun id hid => ?_
    rw [← List.mem_eraseDups, List.length_eq_zero_iff.mp hnone] at hid
    cases hid

/-- A booking is loaded with what is recorded on its root. -/
theorem load_recordedOn {b : Booking} (hb : b ∈ books.bookings) :
    BookingFinancialsService.load books b.organizationId b.id = .ok (recordedOn books b.financialRoot) := by
  unfold BookingFinancialsService.load
  rw [loadMany_eq fun id hid => ⟨b, hb, (List.mem_singleton.mp hid).symm, rfl⟩]
  simp [rootOf_eq hb, bind, Except.bind, pure, Except.pure]

theorem load_eq {b : Booking} (hb : b ∈ books.bookings) :
    ∃ f, BookingFinancialsService.load books b.organizationId b.id = .ok f ∧
      f.payments = (books.payments.filter fun p => decide (p.bookingId = b.financialRoot)).insertionSort
        (fun p q => p.createdAt ≤ q.createdAt) ∧
      f.manualPayments = (books.manualPayments.filter fun m =>
        decide (m.bookingId = b.financialRoot)).insertionSort fun m n => m.paidAt ≤ n.paidAt :=
  ⟨_, load_recordedOn hb, rfl, rfl⟩

end Loading

/-! ## What has been received -/

section Received

variable {ρ : Type} {cents : ρ → Int} {currency : ρ → String}

theorem Money.addCents_eq_ok {total m : Money} {amountCents : Int} {currency : String}
    (h : total.addCents amountCents currency = .ok m) :
    m.amountCents = total.amountCents + amountCents ∧ m.currency = total.currency := by
  obtain ⟨amount, hamount, h⟩ := bind_eq_ok.mp h
  obtain ⟨hsum, hcurrency⟩ := Money.plus_eq_ok h
  rw [Money.fromCents_eq_ok hamount] at hsum
  exact ⟨hsum, hcurrency⟩

/-- A total that is returned is the sum. -/
theorem Money.amountCents_of_foldlM (rows : List ρ) : ∀ {total m : Money},
    rows.foldlM (fun total r => total.addCents (cents r) (currency r)) total = .ok m →
      m.amountCents = total.amountCents + (rows.map cents).sum := by
  induction rows with
  | nil =>
    intro total m h
    cases h
    simp
  | cons r rows ih =>
    intro total m h
    rw [List.foldlM_cons] at h
    obtain ⟨next, hnext, h⟩ := bind_eq_ok.mp h
    rw [ih h, (Money.addCents_eq_ok hnext).1, List.map_cons, List.sum_cons]
    omega

/-- Amounts of one currency that fit an integer column add up, as long as there are fewer than
`2 ^ 22` of them. -/
theorem Money.foldlM_isOk (rows : List ρ) : ∀ {total : Money} {n : Int},
    (∀ r ∈ rows, currency r = total.currency) →
    (∀ r ∈ rows, -2147483648 ≤ cents r ∧ cents r ≤ 2147483647) →
    -2147483648 * n ≤ total.amountCents → total.amountCents ≤ 2147483648 * n →
    n + rows.length < 4194304 →
    ∃ m, rows.foldlM (fun total r => total.addCents (cents r) (currency r)) total = .ok m ∧
      m.currency = total.currency ∧ -2147483648 * (n + rows.length) ≤ m.amountCents ∧
      m.amountCents ≤ 2147483648 * (n + rows.length) := by
  induction rows with
  | nil =>
    intro total n _ _ hlo hhi _
    exact ⟨total, rfl, rfl, by simpa using hlo, by simpa using hhi⟩
  | cons r rows ih =>
    intro total n hcurrency hbound hlo hhi hlength
    rw [List.forall_mem_cons] at hcurrency hbound
    rw [List.length_cons] at hlength
    obtain ⟨⟨hr₀, hr₁⟩, hbound⟩ := hbound
    have hnext : total.addCents (cents r) (currency r) =
        .ok { amountCents := total.amountCents + cents r, currency := total.currency } := by
      unfold Money.addCents Money.plus
      rw [Money.fromCents_of_range (by omega) (by omega)]
      simp only [Money.assertSameCurrency, hcurrency.1, bind, Except.bind, if_true, pure, Except.pure]
      exact Money.fromCents_of_range (by omega) (by omega)
    obtain ⟨m, hm, hmcurrency, hmlo, hmhi⟩ :=
      @ih { amountCents := total.amountCents + cents r, currency := total.currency } (n + 1)
        hcurrency.2 hbound (by dsimp only; omega) (by dsimp only; omega) (by omega)
    refine ⟨m, ?_, hmcurrency, ?_, ?_⟩
    · rw [List.foldlM_cons, hnext]
      exact hm
    · rw [List.length_cons]
      omega
    · rw [List.length_cons]
      omega

/-- A running total that is returned has stayed within the safe integers. -/
theorem Money.safe_of_foldlM_append {rows rest : List ρ} {total m : Money}
    (hsafe : Money.isSafeInteger total.amountCents = true)
    (h : (rows ++ rest).foldlM (fun total r => total.addCents (cents r) (currency r)) total = .ok m) :
    Money.isSafeInteger (total.amountCents + (rows.map cents).sum) = true := by
  rw [List.foldlM_append] at h
  obtain ⟨middle, hmiddle, -⟩ := bind_eq_ok.mp h
  rw [← Money.amountCents_of_foldlM rows hmiddle]
  exact Money.safe_of_foldlM rows hsafe hmiddle

/-- A card payment that counts. -/
def Payment.isReceived (p : Payment) : Bool :=
  RECEIVED_PAYMENT_STATUSES.contains p.status

/-- The cents of the card payments that count and of the manual payments. -/
def receivedCents (payments : List Payment) (manualPayments : List ManualPayment) : Int :=
  ((payments.filter Payment.isReceived).map Payment.amountCents).sum +
    (manualPayments.map ManualPayment.amountCents).sum

theorem receivedCents_of_receivedFrom {payments : List Payment} {manualPayments : List ManualPayment}
    {currency : String} {m : Money} (h : receivedFrom payments manualPayments currency = .ok m) :
    m.amountCents = receivedCents payments manualPayments := by
  obtain ⟨card, hcard, h⟩ := bind_eq_ok.mp h
  have hcents := Money.amountCents_of_foldlM _ hcard
  rw [Money.amountCents_of_foldlM _ h, hcents]
  simp only [Money.zero, Int.zero_add, receivedCents]
  rfl

/-- Money is received in one currency, from fewer than `2 ^ 22` rows. -/
theorem receivedFrom_isOk {payments : List Payment} {manualPayments : List ManualPayment} {currency : String}
    (hcard : ∀ p ∈ payments, p.currency = currency) (hcash : ∀ m ∈ manualPayments, m.currency = currency)
    (hcardBound : ∀ p ∈ payments, -2147483648 ≤ p.amountCents ∧ p.amountCents ≤ 2147483647)
    (hcashBound : ∀ m ∈ manualPayments, -2147483648 ≤ m.amountCents ∧ m.amountCents ≤ 2147483647)
    (hlength : payments.length + manualPayments.length < 4194304) :
    ∃ m, receivedFrom payments manualPayments currency = .ok m ∧ m.currency = currency ∧
      -2147483648 * (payments.length + manualPayments.length : Int) ≤ m.amountCents ∧
      m.amountCents ≤ 2147483648 * (payments.length + manualPayments.length : Int) := by
  have hfilter : (payments.filter fun p => RECEIVED_PAYMENT_STATUSES.contains p.status).length ≤ payments.length :=
    List.length_filter_le _ _
  obtain ⟨card, hcardTotal, hcurrency, hlo, hhi⟩ :=
    @Money.foldlM_isOk Payment Payment.amountCents Payment.currency
      (payments.filter fun p => RECEIVED_PAYMENT_STATUSES.contains p.status)
      (Money.zero currency) 0 (fun p hp => hcard p (List.mem_filter.mp hp).1)
      (fun p hp => hcardBound p (List.mem_filter.mp hp).1) (by simp [Money.zero]) (by simp [Money.zero])
      (by omega)
  obtain ⟨m, hm, hmcurrency, hmlo, hmhi⟩ :=
    @Money.foldlM_isOk ManualPayment ManualPayment.amountCents ManualPayment.currency manualPayments
      card _ (fun m hm => (hcash m hm).trans hcurrency.symm) hcashBound hlo hhi (by omega)
  refine ⟨m, ?_, hmcurrency.trans hcurrency, by omega, by omega⟩
  unfold receivedFrom
  rw [hcardTotal]
  exact hm

theorem refundedFrom_isOk {refunds : List Refund} {currency : String}
    (hcurrency : ∀ r ∈ refunds, r.currency = currency)
    (hbound : ∀ r ∈ refunds, 0 < r.amountCents ∧ r.amountCents ≤ 2147483647)
    (hlength : refunds.length < 4194304) :
    ∃ m, refundedFrom refunds currency = .ok m ∧ m.currency = currency ∧
      -2147483648 * (refunds.length : Int) ≤ m.amountCents ∧ m.amountCents ≤ 2147483648 * (refunds.length : Int) := by
  have hfilter : (refunds.filter fun r => decide (r.status = .SUCCEEDED)).length ≤ refunds.length :=
    List.length_filter_le _ _
  obtain ⟨m, hm, hmcurrency, hlo, hhi⟩ :=
    @Money.foldlM_isOk Refund Refund.amountCents Refund.currency
      (refunds.filter fun r => decide (r.status = .SUCCEEDED)) (Money.zero currency) 0
      (fun r hr => hcurrency r (List.mem_filter.mp hr).1)
      (fun r hr => by have := hbound r (List.mem_filter.mp hr).1; omega) (by simp [Money.zero])
      (by simp [Money.zero]) (by omega)
  exact ⟨m, hm, hmcurrency, by omega, by omega⟩

variable (books : Books) (root : String)

/-- What was received on a root: each row of it is counted once. -/
def receivedOn : Int :=
  Table.total (fun p => decide (p.bookingId = root) && p.isReceived) Payment.amountCents books.payments +
    Table.total (fun m => decide (m.bookingId = root)) (fun m => m.amountCents) books.manualPayments

/-- What has gone back of the payments on a root. -/
def refundedOn : Int :=
  Table.total
    (fun r => decide (BookingFinancialsService.paidBooking books r = some root) && decide (r.status = .SUCCEEDED))
    (fun r => r.amountCents) books.refunds

/-- Rows that are picked again after they were put in order. -/
theorem sum_filter_insertionSort (time amount : ρ → Int) (p q : ρ → Bool) (rows : List ρ) :
    ((((rows.filter p).insertionSort fun r s => time r ≤ time s).filter q).map amount).sum =
      Table.total (fun r => p r && q r) amount rows := by
  have hperm := ((List.perm_insertionSort (fun r s => time r ≤ time s) (rows.filter p)).filter q).map amount
  rw [hperm.sum_eq, List.filter_filter]
  unfold Table.total
  refine congrArg _ (congrArg _ (List.filter_congr fun r _ => ?_))
  exact Bool.and_comm _ _

theorem received_recordedOn {currency : String} {m : Money}
    (h : (recordedOn books root).received currency = .ok m) : m.amountCents = receivedOn books root := by
  rw [receivedCents_of_receivedFrom h]
  unfold receivedCents receivedOn recordedOn
  dsimp only
  rw [sum_filter_insertionSort, List.map_map, ((List.perm_insertionSort _ _).map _).sum_eq]
  rfl

theorem refunded_recordedOn {currency : String} {m : Money}
    (h : (recordedOn books root).refunded currency = .ok m) : m.amountCents = refundedOn books root := by
  have hcents := Money.amountCents_of_foldlM _ h
  unfold refundedOn recordedOn at *
  dsimp only at hcents
  rw [List.filter_map, List.map_map] at hcents
  rw [hcents, ← sum_filter_insertionSort RefundRow.requestedAt]
  exact Int.zero_add _

end Received

end BookingApp

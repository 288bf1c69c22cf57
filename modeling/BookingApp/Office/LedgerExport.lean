import BookingApp.Merging
import BookingApp.Office.Csv
import BookingApp.Office.Cursor
import BookingApp.Store.Schema

/-!
# The ledger export (`office/exports.service.ts`)

Every movement of money in a period: card payments, manual payments, settled refunds and
pending ones. Each of the four is read in pages by its own key, and a merge takes the
earliest entry of the four at a time. The merge ends, and has each entry once, in the
order of time.
-/

set_option autoImplicit false

namespace BookingApp

def PaymentStatus.text : PaymentStatus → String
  | .PENDING => "PENDING"
  | .SUCCEEDED => "SUCCEEDED"
  | .FAILED => "FAILED"
  | .REFUNDED => "REFUNDED"
  | .PARTIALLY_REFUNDED => "PARTIALLY_REFUNDED"

def RefundStatus.text : RefundStatus → String
  | .PENDING => "PENDING"
  | .SUCCEEDED => "SUCCEEDED"
  | .FAILED => "FAILED"
  | .CANCELED => "CANCELED"

def RefundReason.text : RefundReason → String
  | .CUSTOMER_CANCELLATION => "CUSTOMER_CANCELLATION"
  | .BUSINESS_CANCELLATION => "BUSINESS_CANCELLATION"
  | .GOODWILL => "GOODWILL"
  | .DUPLICATE_PAYMENT => "DUPLICATE_PAYMENT"

namespace LedgerExport

open Encoding

inductive ManualPaymentMethod where
  | CASH
  | CARD
  | BANK_TRANSFER
  | OTHER
  deriving DecidableEq, Repr

inductive LedgerKind where
  | MANUAL
  | REFUND
  | STRIPE
  deriving DecidableEq, Repr

def LedgerKind.text : LedgerKind → String
  | MANUAL => "MANUAL"
  | REFUND => "REFUND"
  | STRIPE => "STRIPE"

def ManualPaymentMethod.text : ManualPaymentMethod → String
  | CASH => "CASH"
  | CARD => "CARD"
  | BANK_TRANSFER => "BANK_TRANSFER"
  | OTHER => "OTHER"

/-- What an entry tells of its booking. -/
structure BookingLabel where
  reference : String
  serviceNameSnapshot : String
  deriving DecidableEq, Repr

structure CardLedgerRow where
  id : String
  organizationId : String
  amountCents : Int
  currency : String
  status : PaymentStatus
  paymentMethodType : Option String
  paidAt : Option Int
  booking : BookingLabel
  deriving DecidableEq, Repr

structure ManualLedgerRow where
  id : String
  organizationId : String
  amountCents : Int
  currency : String
  method : ManualPaymentMethod
  paidAt : Int
  note : Option String
  booking : BookingLabel
  deriving DecidableEq, Repr

structure RefundLedgerRow where
  id : String
  organizationId : String
  amountCents : Int
  currency : String
  status : RefundStatus
  reason : RefundReason
  requestedAt : Int
  settledAt : Option Int
  booking : BookingLabel
  deriving DecidableEq, Repr

/-- The tables that the export reads. -/
structure Ledger where
  payments : List CardLedgerRow
  manualPayments : List ManualLedgerRow
  refunds : List RefundLedgerRow
  payments_pkey : (payments.map CardLedgerRow.id).Nodup
  manual_payments_pkey : (manualPayments.map ManualLedgerRow.id).Nodup
  refunds_pkey : (refunds.map RefundLedgerRow.id).Nodup

structure LedgerCursor where
  occurredAt : Int
  id : String
  deriving DecidableEq, Repr

structure LedgerEntry extends LedgerCursor where
  kind : LedgerKind
  cells : List CsvCell

/-- What a pager reads: the rows of a table that pass a filter, by a column of instants. -/
structure LedgerSource (ρ : Type) where
  table : List ρ
  passes : ρ → Bool
  column : ρ → Option Int
  id : ρ → String
  entry : ρ → Option LedgerEntry
  cursor : ρ → Option LedgerCursor

/-- The entries of one page, and where the next one starts; the pager returns where none does. -/
structure LedgerPage where
  entries : List LedgerEntry
  upcoming : Option LedgerCursor

/-- A generator between two entries: those of the page at hand, and what it does after them. -/
structure Pager where
  page : Option LedgerCursor → LedgerPage
  entries : List LedgerEntry
  upcoming : Option (Option LedgerCursor)

section Pages

variable {ρ : Type} (source : LedgerSource ρ) (pageSize : Nat)

/-- Past the cursor: later, or at the same instant and with a greater id. -/
def LedgerSource.isPast (cursor : Option LedgerCursor) (row : ρ) : Bool :=
  cursor.all fun c => (source.column row).any (fun t => decide (c.occurredAt < t)) ||
    (decide (source.column row = some c.occurredAt) && decide (c.id < source.id row))

/-- The order by the column and the id; the rows that are read have an instant in the column. -/
def LedgerSource.findMany (cursor : Option LedgerCursor) : List ρ :=
  ((source.table.filter fun row => source.passes row && source.isPast cursor row).insertionSort
    (keysetOrderBy (fun row => (source.column row).getD 0) source.id .asc)).take pageSize

def LedgerSource.readPage (cursor : Option LedgerCursor) : LedgerPage :=
  let rows := source.findMany pageSize cursor
  { entries := rows.filterMap source.entry
    upcoming := if rows.length < pageSize then none else rows.getLast?.bind source.cursor }

def LedgerSource.pager : Pager where
  page := source.readPage pageSize
  entries := []
  upcoming := some none

end Pages

/-- The next entry of a pager. It reads pages until there is one, or the last page is used up; there
is no answer when the rounds do not suffice. -/
def Pager.next : Nat → Pager → Option (Option LedgerEntry × Pager)
  | 0, _ => none
  | rounds + 1, pager =>
    match pager.entries with
    | entry :: rest => some (some entry, { pager with entries := rest })
    | [] =>
      match pager.upcoming with
      | none => some (none, pager)
      | some cursor =>
        let page := pager.page cursor
        Pager.next rounds { pager with entries := page.entries, upcoming := page.upcoming.map some }

/-- The parameters of an export: whose, of which period, how instants are written, and how the
platform compares texts. -/
structure ExportSettings where
  organizationId : String
  start : Int
  stop : Int
  csvInstant : Int → List CodeUnit
  localeCompare : String → String → Int
  pageSize : Nat

namespace ExportSettings

variable (settings : ExportSettings) (ledger : Ledger)

/-- `{ gte: from, lt: to }` -/
def inPeriod (t : Int) : Bool :=
  decide (settings.start ≤ t ∧ t < settings.stop)

def cell (text : String) : CsvCell :=
  .text (ofString text)

def optionalCell (text : Option String) : CsvCell :=
  text.elim .missing cell

def cardEntry (payment : CardLedgerRow) : Option LedgerEntry :=
  payment.paidAt.map fun paidAt => {
    kind := .STRIPE
    id := payment.id
    occurredAt := paidAt
    cells := [cell "STRIPE", cell payment.id, cell payment.booking.reference, cell payment.booking.serviceNameSnapshot,
      .text (settings.csvInstant paidAt), .text (csvAmount payment.amountCents), cell payment.currency,
      cell payment.status.text, optionalCell payment.paymentMethodType, cell ""] }

def cardEntries : LedgerSource CardLedgerRow where
  table := ledger.payments
  passes payment := decide (payment.organizationId = settings.organizationId) && payment.paidAt.any settings.inPeriod
  column := CardLedgerRow.paidAt
  id := CardLedgerRow.id
  entry := settings.cardEntry
  cursor payment := payment.paidAt.map fun paidAt => { occurredAt := paidAt, id := payment.id }

def manualEntry (payment : ManualLedgerRow) : LedgerEntry where
  kind := .MANUAL
  id := payment.id
  occurredAt := payment.paidAt
  cells := [cell "MANUAL", cell payment.id, cell payment.booking.reference, cell payment.booking.serviceNameSnapshot,
    .text (settings.csvInstant payment.paidAt), .text (csvAmount payment.amountCents), cell payment.currency,
    cell "RECORDED", cell payment.method.text, optionalCell payment.note]

def manualEntries : LedgerSource ManualLedgerRow where
  table := ledger.manualPayments
  passes payment := decide (payment.organizationId = settings.organizationId) && settings.inPeriod payment.paidAt
  column payment := some payment.paidAt
  id := ManualLedgerRow.id
  entry payment := some (settings.manualEntry payment)
  cursor payment := some { occurredAt := payment.paidAt, id := payment.id }

inductive RefundState where
  | PENDING
  | SETTLED
  deriving DecidableEq, Repr

/-- When a refund occurred, by what is asked for. -/
def occurredAt (state : RefundState) (refund : RefundLedgerRow) : Int :=
  match state with
  | .SETTLED => refund.settledAt.getD refund.requestedAt
  | .PENDING => refund.requestedAt

def refundEntry (state : RefundState) (refund : RefundLedgerRow) : LedgerEntry where
  kind := .REFUND
  id := refund.id
  occurredAt := occurredAt state refund
  cells := [cell "REFUND", cell refund.id, cell refund.booking.reference, cell refund.booking.serviceNameSnapshot,
    .text (settings.csvInstant (occurredAt state refund)), .text (csvAmount (-refund.amountCents)),
    cell refund.currency, cell refund.status.text, cell refund.reason.text, cell ""]

def refundEntries (state : RefundState) : LedgerSource RefundLedgerRow where
  table := ledger.refunds
  passes refund := decide (refund.organizationId = settings.organizationId) &&
    match state with
    | .SETTLED => decide (refund.status = .SUCCEEDED) && refund.settledAt.any settings.inPeriod
    | .PENDING => decide (refund.status = .PENDING) && settings.inPeriod refund.requestedAt
  column refund :=
    match state with
    | .SETTLED => refund.settledAt
    | .PENDING => some refund.requestedAt
  id := RefundLedgerRow.id
  entry refund := some (settings.refundEntry state refund)
  cursor refund := some { occurredAt := occurredAt state refund, id := refund.id }

/-- `-1`, `0` or `1` and the like: the instants, then the ids, then the kinds. -/
def compareLedgerEntries (left right : LedgerEntry) : Int :=
  if left.occurredAt - right.occurredAt ≠ 0 then left.occurredAt - right.occurredAt
  else if settings.localeCompare left.id right.id ≠ 0 then settings.localeCompare left.id right.id
  else settings.localeCompare left.kind.text right.kind.text

def pagers : List Pager :=
  [(settings.cardEntries ledger).pager settings.pageSize, (settings.manualEntries ledger).pager settings.pageSize,
    (settings.refundEntries ledger .SETTLED).pager settings.pageSize,
    (settings.refundEntries ledger .PENDING).pager settings.pageSize]

/-- Merge sorted sources while holding only one current row from each source. -/
def mergeLedgerEntries (rounds : Nat) : Option (List LedgerEntry) := do
  let heads ← (settings.pagers ledger).mapM (Pager.next rounds)
  Merging.merge (Pager.next rounds) (fun x y => decide (settings.compareLedgerEntries x y < 0)) rounds heads

end ExportSettings

/-! ## Reading a source to its end -/

section Reading

variable {ρ : Type} {source : LedgerSource ρ} {pageSize : Nat} {rounds : Nat}

/-- The place of a row in the order of its source. -/
def LedgerSource.key (source : LedgerSource ρ) : ρ → Position .asc :=
  positionOf (fun row => (source.column row).getD 0) source.id .asc

/-- The rows that a source reads, whichever page they are on. -/
def LedgerSource.rows (source : LedgerSource ρ) : List ρ :=
  source.table.filter source.passes

def LedgerCursor.position (cursor : LedgerCursor) : Position .asc where
  value := cursor.occurredAt
  id := cursor.id

/-- The rows of a source have an instant, and their entries and cursors are of that instant. -/
structure LedgerSource.Dated (source : LedgerSource ρ) : Prop where
  ids : (source.table.map source.id).Nodup
  row : ∀ row ∈ source.rows, ∃ t entry, source.column row = some t ∧ source.entry row = some entry ∧
    entry.occurredAt = t ∧ source.cursor row = some { occurredAt := t, id := source.id row }

theorem LedgerSource.Dated.nodup (h : source.Dated) : (source.rows.map source.key).Nodup := by
  have hids : (source.rows.map source.id).Nodup := h.ids.sublist (List.filter_sublist.map _)
  apply List.Nodup.of_map Position.id
  rw [List.map_map]
  exact hids

/-- Past a cursor is after its key. -/
theorem isPast_eq {row : ρ} {t : Int} (h : source.column row = some t) (cursor : Option LedgerCursor) :
    source.isPast cursor row = (cursor.map LedgerCursor.position).all fun k => decide (k < source.key row) := by
  cases cursor with
  | none => rfl
  | some c =>
    rw [Bool.eq_iff_iff]
    simp only [LedgerSource.isPast, Option.all_some, Option.map_some, h, Option.any_some, Option.some.injEq,
      Bool.or_eq_true, Bool.and_eq_true, decide_eq_true_eq, Position.lt_asc, LedgerSource.key, positionOf,
      Option.getD_some, LedgerCursor.position]
    rw [eq_comm (a := t)]

/-- A page is one by key. -/
theorem findMany_eq_page (pageSize : Nat) (h : source.Dated) (cursor : Option LedgerCursor) :
    source.findMany pageSize cursor =
      Keyset.page source.key pageSize (cursor.map LedgerCursor.position) source.rows := by
  rw [LedgerSource.findMany, insertionSort_keysetOrderBy, Keyset.page]
  congr 2
  rw [Keyset.after, LedgerSource.rows, List.filter_filter]
  apply List.filter_congr
  intro row hrow
  cases hpasses : source.passes row with
  | false => simp
  | true =>
    obtain ⟨t, -, hcolumn, -⟩ := h.row row (List.mem_filter.mpr ⟨hrow, hpasses⟩)
    rw [isPast_eq hcolumn, Bool.and_comm]

theorem next_mono {rounds' : Nat} (hrounds : rounds ≤ rounds') {pager : Pager} {head : Option LedgerEntry × Pager}
    (h : Pager.next rounds pager = some head) : Pager.next rounds' pager = some head := by
  induction rounds generalizing rounds' pager with
  | zero => cases h
  | succ rounds ih =>
    obtain ⟨rounds', rfl⟩ := Nat.exists_eq_succ_of_ne_zero (show rounds' ≠ 0 by omega)
    obtain ⟨page, entries, upcoming⟩ := pager
    cases entries with
    | cons entry rest => exact h
    | nil =>
      cases upcoming with
      | none => exact h
      | some cursor =>
        rw [Pager.next] at h ⊢
        exact ih (by omega) h

section Pager

variable {page : Option LedgerCursor → LedgerPage} {upcoming : Option (Option LedgerCursor)} {items : List LedgerEntry}

/-- The entries of a page come before what the pager gives after them. -/
theorem yields_entries (hrounds : 0 < rounds) (h : Merging.Yields (Pager.next rounds) ⟨page, [], upcoming⟩ items)
    (entries : List LedgerEntry) : Merging.Yields (Pager.next rounds) ⟨page, entries, upcoming⟩ (entries ++ items) := by
  obtain ⟨rounds, rfl⟩ := Nat.exists_eq_succ_of_ne_zero (Nat.ne_of_gt hrounds)
  induction entries with
  | nil => exact h
  | cons entry rest ih => exact .item rfl ih

theorem yields_done (hrounds : 0 < rounds) : Merging.Yields (Pager.next rounds) ⟨page, [], none⟩ [] := by
  obtain ⟨rounds, rfl⟩ := Nat.exists_eq_succ_of_ne_zero (Nat.ne_of_gt hrounds)
  exact .done rfl

/-- A pager that reads a page gives what it does with the page at hand: a page has an entry, or it is
the last one. -/
theorem yields_read {cursor : Option LedgerCursor} (hrounds : 1 < rounds)
    (hpage : (page cursor).entries ≠ [] ∨ (page cursor).upcoming = none)
    (h : Merging.Yields (Pager.next rounds) ⟨page, (page cursor).entries, (page cursor).upcoming.map some⟩ items) :
    Merging.Yields (Pager.next rounds) ⟨page, [], some cursor⟩ items := by
  obtain ⟨rounds, rfl⟩ : ∃ n, rounds = n + 2 := ⟨rounds - 2, by omega⟩
  have hnext : Pager.next (rounds + 2) ⟨page, [], some cursor⟩ =
      Pager.next (rounds + 2) ⟨page, (page cursor).entries, (page cursor).upcoming.map some⟩ := by
    rw [Pager.next]
    dsimp only
    rcases hpage with hpage | hpage
    · obtain ⟨entry, rest, heq⟩ := List.exists_cons_of_ne_nil hpage
      rw [heq, Pager.next, Pager.next]
    · rw [hpage]
      cases (page cursor).entries with
      | nil => rfl
      | cons entry rest => rfl
  cases h with
  | done h => exact .done (hnext.trans h)
  | item h hrest => exact .item (hnext.trans h) hrest

end Pager

/-- A page is the last one and has all that is left, or the next one starts after its last row. -/
theorem readPage_cases (h : source.Dated) (hsize : 0 < pageSize) (cursor : Option LedgerCursor) :
    (source.readPage pageSize cursor).upcoming = none ∧
        source.findMany pageSize cursor =
          Keyset.sorted source.key (Keyset.after source.key (cursor.map LedgerCursor.position) source.rows) ∨
      ∃ last c, (source.findMany pageSize cursor).getLast? = some last ∧ c.position = source.key last ∧
        (source.readPage pageSize cursor).upcoming = some c := by
  have hpage := findMany_eq_page pageSize h cursor
  by_cases hshort : (source.findMany pageSize cursor).length < pageSize
  · left
    constructor
    · exact if_pos hshort
    · rw [hpage]
      apply Keyset.page_eq_sorted
      rw [hpage, Keyset.page, List.length_take, Keyset.length_sorted] at hshort
      omega
  · right
    have hne : source.findMany pageSize cursor ≠ [] := by
      intro hnil
      rw [hnil, List.length_nil] at hshort
      omega
    have hlast := List.getLast?_eq_some_getLast hne
    have hmem := List.getLast_mem hne
    generalize (source.findMany pageSize cursor).getLast hne = last at hlast hmem
    rw [hpage] at hmem
    obtain ⟨t, -, hcolumn, -, -, hcursor⟩ := h.row last (Keyset.mem_after.mp (Keyset.mem_page hmem)).1
    refine ⟨last, { occurredAt := t, id := source.id last }, hlast, ?_, (if_neg hshort).trans ?_⟩
    · rw [LedgerCursor.position, LedgerSource.key, positionOf, hcolumn]
      rfl
    · rw [hlast]
      exact hcursor

theorem filterMap_entry_ne_nil (h : source.Dated) {rows : List ρ} (hrows : ∀ row ∈ rows, row ∈ source.rows)
    (hne : rows ≠ []) : rows.filterMap source.entry ≠ [] := by
  obtain ⟨row, rest, rfl⟩ := List.exists_cons_of_ne_nil hne
  obtain ⟨-, entry, -, hentry, -⟩ := h.row row (hrows row (List.mem_cons_self ..))
  rw [List.filterMap_cons_some hentry]
  exact List.cons_ne_nil _ _

/-- A pager gives the entries of its rows in their order, each once, and ends. -/
theorem yields_from (h : source.Dated) (hsize : 0 < pageSize) (hrounds : 1 < rounds) (cursor : Option LedgerCursor) :
    Merging.Yields (Pager.next rounds) ⟨source.readPage pageSize, [], some cursor⟩
      ((Keyset.sorted source.key (Keyset.after source.key (cursor.map LedgerCursor.position) source.rows)).filterMap
        source.entry) := by
  induction hn : (Keyset.after source.key (cursor.map LedgerCursor.position) source.rows).length
    using Nat.strongRecOn generalizing cursor with
  | ind n ih =>
    have hpos : 0 < rounds := by omega
    rcases readPage_cases h hsize cursor with ⟨hlast, hall⟩ | ⟨last, c, hlast, hposition, hmore⟩
    · apply yields_read hrounds (.inr hlast)
      rw [← hall, ← List.append_nil (List.filterMap _ _), hlast]
      exact yields_entries hpos (yields_done hpos) _
    · have hpage := findMany_eq_page pageSize h cursor
      rw [hpage] at hlast
      have hsplit := Keyset.page_append h.nodup hlast
      have hmem := List.mem_of_getLast? hlast
      -- fewer rows are left after the page
      have hfewer : (Keyset.after source.key (some (source.key last)) source.rows).length < n := by
        have hlength := congrArg List.length hsplit
        have hone := List.length_pos_of_mem hmem
        rw [List.length_append, Keyset.length_sorted, Keyset.length_sorted] at hlength
        omega
      have hrest := ih _ hfewer (some c) (by rw [Option.map_some, hposition])
      have hentries : (source.readPage pageSize cursor).entries ≠ [] := by
        apply filterMap_entry_ne_nil h
        · intro row hrow
          rw [hpage] at hrow
          exact (Keyset.mem_after.mp (Keyset.mem_page hrow)).1
        · rw [hpage]
          exact List.ne_nil_of_mem hmem
      apply yields_read hrounds (.inl hentries)
      rw [← hsplit, List.filterMap_append, ← hpage, hmore]
      rw [Option.map_some, hposition] at hrest
      exact yields_entries hpos hrest _

/-- The entries of a source in the order of their instants. -/
theorem pairwise_entries (h : source.Dated) :
    ((Keyset.sorted source.key source.rows).filterMap source.entry).Pairwise fun x y => x.occurredAt ≤ y.occurredAt := by
  have hsorted : (Keyset.sorted source.key source.rows).Pairwise fun r s =>
      r ∈ source.rows ∧ s ∈ source.rows ∧ source.key r ≤ source.key s :=
    List.Pairwise.imp_of_mem
      (fun hr hs hle => ⟨Keyset.mem_sorted.mp hr, Keyset.mem_sorted.mp hs, hle⟩) Keyset.pairwise_sorted_le
  apply List.Pairwise.filterMap _ _ hsorted
  rintro r s ⟨hr, hs, hle⟩ x hx y hy
  obtain ⟨t, entry, hcolumn, hentry, rfl, -⟩ := h.row r hr
  obtain ⟨t', entry', hcolumn', hentry', rfl, -⟩ := h.row s hs
  obtain rfl := Option.some.inj (hentry.symm.trans hx)
  obtain rfl := Option.some.inj (hentry'.symm.trans hy)
  rw [LedgerSource.key, Position.le_asc] at hle
  simp only [positionOf, hcolumn, hcolumn', Option.getD_some] at hle
  omega

end Reading

namespace ExportSettings

theorem cardEntries_dated (settings : ExportSettings) (ledger : Ledger) : (settings.cardEntries ledger).Dated where
  ids := ledger.payments_pkey
  row := by
    intro payment hrow
    have hpasses := (Bool.and_eq_true_iff.mp (List.mem_filter.mp hrow).2).2
    obtain ⟨t, ht, -⟩ := (Option.any_eq_true _ _).mp hpasses
    have hpaid : payment.paidAt = some t := ht
    have hentry : ∃ entry, settings.cardEntry payment = some entry ∧ entry.occurredAt = t := by
      rw [cardEntry, hpaid, Option.map_some]
      exact ⟨_, rfl, rfl⟩
    obtain ⟨entry, hentry, hoccurred⟩ := hentry
    refine ⟨t, entry, hpaid, hentry, hoccurred, ?_⟩
    show payment.paidAt.map _ = some _
    rw [hpaid]
    rfl

theorem manualEntries_dated (settings : ExportSettings) (ledger : Ledger) : (settings.manualEntries ledger).Dated where
  ids := ledger.manual_payments_pkey
  row payment _ := ⟨payment.paidAt, _, rfl, rfl, rfl, rfl⟩

theorem refundEntries_dated (settings : ExportSettings) (ledger : Ledger) (state : RefundState) :
    (settings.refundEntries ledger state).Dated where
  ids := ledger.refunds_pkey
  row := by
    intro refund hrow
    cases state with
    | PENDING => exact ⟨refund.requestedAt, _, rfl, rfl, rfl, rfl⟩
    | SETTLED =>
      have hpasses := (Bool.and_eq_true_iff.mp (List.mem_filter.mp hrow).2).2
      obtain ⟨t, ht, -⟩ := (Option.any_eq_true _ _).mp (Bool.and_eq_true_iff.mp hpasses).2
      have hoccurred : occurredAt .SETTLED refund = t := by
        rw [occurredAt, ht, Option.getD_some]
      refine ⟨t, _, ht, rfl, hoccurred, ?_⟩
      show some (LedgerCursor.mk (occurredAt .SETTLED refund) refund.id) = _
      rw [hoccurred]
      rfl

/-- The entries that an export is to have: those of the four kinds, each of its period. -/
def due (settings : ExportSettings) (ledger : Ledger) : List LedgerEntry :=
  (settings.cardEntries ledger).rows.filterMap settings.cardEntry ++
    ((settings.manualEntries ledger).rows.map settings.manualEntry ++
      ((settings.refundEntries ledger .SETTLED).rows.map (settings.refundEntry .SETTLED) ++
        (settings.refundEntries ledger .PENDING).rows.map (settings.refundEntry .PENDING)))

/-- A row of each source, with its entries in order. -/
def listed {ρ : Type} (source : LedgerSource ρ) : List LedgerEntry :=
  (Keyset.sorted source.key source.rows).filterMap source.entry

theorem listed_perm {ρ : Type} (source : LedgerSource ρ) : (listed source).Perm (source.rows.filterMap source.entry) :=
  Keyset.perm_sorted.filterMap _

/-- The heads of the pagers, and what they are to give. -/
def allListed (settings : ExportSettings) (ledger : Ledger) : List (List LedgerEntry) :=
  [listed (settings.cardEntries ledger), listed (settings.manualEntries ledger),
    listed (settings.refundEntries ledger .SETTLED), listed (settings.refundEntries ledger .PENDING)]

theorem perm_due (settings : ExportSettings) (ledger : Ledger) :
    (settings.allListed ledger).flatten.Perm (settings.due ledger) := by
  simp only [allListed, List.flatten_cons, List.flatten_nil, List.append_nil, due, ← List.filterMap_eq_map]
  exact (listed_perm _).append ((listed_perm _).append ((listed_perm _).append (listed_perm _)))

theorem pager_pending {ρ : Type} {source : LedgerSource ρ} {pageSize rounds : Nat} (h : source.Dated)
    (hsize : 0 < pageSize) (hrounds : 1 < rounds) :
    ∃ head, Pager.next rounds (source.pager pageSize) = some head ∧
      Merging.Pending (Pager.next rounds) head (listed source) := by
  have hyields := yields_from h hsize hrounds none
  rw [Option.map_none, Keyset.after_none] at hyields
  exact hyields.pending

/-- The first entries of the four pagers. -/
theorem heads_pending {settings : ExportSettings} (ledger : Ledger) (hsize : 0 < settings.pageSize)
    {rounds : Nat} (hrounds : 1 < rounds) :
    ∃ heads, (settings.pagers ledger).mapM (Pager.next rounds) = some heads ∧
      List.Forall₂ (Merging.Pending (Pager.next rounds)) heads (settings.allListed ledger) := by
  obtain ⟨card, hcard, hcards⟩ := pager_pending (cardEntries_dated settings ledger) hsize hrounds
  obtain ⟨manual, hmanual, hmanuals⟩ := pager_pending (manualEntries_dated settings ledger) hsize hrounds
  obtain ⟨settled, hsettled, hsettleds⟩ := pager_pending (refundEntries_dated settings ledger .SETTLED) hsize hrounds
  obtain ⟨pending, hpending, hpendings⟩ := pager_pending (refundEntries_dated settings ledger .PENDING) hsize hrounds
  refine ⟨[card, manual, settled, pending], ?_, .cons hcards (.cons hmanuals (.cons hsettleds (.cons hpendings .nil)))⟩
  simp [pagers, hcard, hmanual, hsettled, hpending]

theorem mapM_mono {σ τ : Type} {f g : σ → Option τ} (hmono : ∀ s x, f s = some x → g s = some x) {list : List σ}
    {results : List τ} (h : list.mapM f = some results) : list.mapM g = some results := by
  induction list generalizing results with
  | nil => exact h
  | cons s rest ih =>
    rw [List.mapM_cons] at h ⊢
    obtain ⟨x, hx, h⟩ := Option.bind_eq_some_iff.mp h
    obtain ⟨xs, hxs, h⟩ := Option.bind_eq_some_iff.mp h
    rw [hmono s x hx, Option.bind_eq_bind, Option.bind_some, ih hxs]
    exact h

/-- Whatever the size of a page, the merge ends and has each entry once, in the order of time. -/
theorem ledger_complete (settings : ExportSettings) (ledger : Ledger) (hsize : 0 < settings.pageSize) :
    ∃ entries, (∃ enough, ∀ rounds, enough ≤ rounds → settings.mergeLedgerEntries ledger rounds = some entries) ∧
      entries.Perm (settings.due ledger) ∧ entries.Pairwise fun x y => x.occurredAt ≤ y.occurredAt := by
  obtain ⟨heads, hheads, hpending⟩ := heads_pending ledger hsize (Nat.lt_add_one 1)
  have hbefore : ∀ x y : LedgerEntry, decide (settings.compareLedgerEntries x y < 0) = true →
      x.occurredAt ≤ y.occurredAt := by
    intro x y h
    have hlt := of_decide_eq_true h
    unfold compareLedgerEntries at hlt
    split at hlt <;> omega
  have hnot : ∀ x y : LedgerEntry, decide (settings.compareLedgerEntries x y < 0) = false →
      y.occurredAt ≤ x.occurredAt := by
    intro x y h
    have hle := of_decide_eq_false h
    unfold compareLedgerEntries at hle
    split at hle <;> omega
  have hsorted : ∀ l ∈ settings.allListed ledger, l.Pairwise fun x y => x.occurredAt ≤ y.occurredAt := by
    intro l hl
    simp only [allListed, List.mem_cons, List.not_mem_nil, or_false] at hl
    rcases hl with rfl | rfl | rfl | rfl
    · exact pairwise_entries (cardEntries_dated settings ledger)
    · exact pairwise_entries (manualEntries_dated settings ledger)
    · exact pairwise_entries (refundEntries_dated settings ledger .SETTLED)
    · exact pairwise_entries (refundEntries_dated settings ledger .PENDING)
  obtain ⟨entries, hmerge, hperm, hpairwise⟩ := Merging.merge_perm hbefore hnot hpending hsorted
  refine ⟨entries, ⟨(settings.allListed ledger).flatten.length + 2, ?_⟩,
    hperm.trans (perm_due settings ledger), hpairwise⟩
  intro rounds hrounds
  have hnext : ∀ s head, Pager.next (1 + 1) s = some head → Pager.next rounds s = some head :=
    fun _ _ => next_mono (by omega)
  rw [mergeLedgerEntries, mapM_mono hnext hheads, Option.bind_eq_bind, Option.bind_some]
  exact Merging.merge_mono hnext (Nat.le_of_succ_le hrounds) (hmerge _ (Nat.lt_add_one _))

/-- Two card payments of one instant, a cash payment between them by its id, and a refund that is
pending. -/
def someLedger : Ledger where
  payments := [
    { id := "p2", organizationId := "o", amountCents := 4500, currency := "EUR", status := .SUCCEEDED,
      paymentMethodType := some "card", paidAt := some 10, booking := ⟨"A", "Cut"⟩ },
    { id := "p1", organizationId := "o", amountCents := 3000, currency := "EUR", status := .PARTIALLY_REFUNDED,
      paymentMethodType := none, paidAt := some 10, booking := ⟨"B", "Cut"⟩ },
    { id := "p3", organizationId := "o", amountCents := 3000, currency := "EUR", status := .PENDING,
      paymentMethodType := none, paidAt := none, booking := ⟨"C", "Cut"⟩ }]
  manualPayments := [
    { id := "p1m", organizationId := "o", amountCents := -500, currency := "EUR", method := .CASH, paidAt := 10,
      note := some "returned", booking := ⟨"A", "Cut"⟩ }]
  refunds := [
    { id := "r", organizationId := "o", amountCents := 1000, currency := "EUR", status := .PENDING,
      reason := .GOODWILL, requestedAt := 12, settledAt := none, booking := ⟨"B", "Cut"⟩ }]
  payments_pkey := by decide
  manual_payments_pkey := by decide
  refunds_pkey := by decide

/-- Pages of one row each. -/
def someSettings : ExportSettings where
  organizationId := "o"
  start := 0
  stop := 20
  csvInstant _ := []
  localeCompare a b := if a < b then -1 else if b < a then 1 else 0
  pageSize := 1

theorem ledger_complete_sample :
    ∃ entries, (∃ enough, ∀ rounds, enough ≤ rounds →
        someSettings.mergeLedgerEntries someLedger rounds = some entries) ∧
      entries.Perm (someSettings.due someLedger) ∧ entries.Pairwise fun x y => x.occurredAt ≤ y.occurredAt :=
  ledger_complete someSettings someLedger (by decide)

example : (someSettings.mergeLedgerEntries someLedger 8).map (List.map fun entry => entry.id) =
    some ["p1", "p1m", "p2", "r"] := by decide +kernel

end ExportSettings

end LedgerExport

end BookingApp

import BookingApp.Booking.Leave
import BookingApp.Office.Cursor

/-!
# The list of bookings (`office/office-bookings.service.ts`)

The office reads its bookings in pages, with filters and in one of four orders. Rows
may come and go between two pages; who follows the cursors to the end has seen every
row that was there all the time, once, and all rows in order.
-/

set_option autoImplicit false

namespace BookingApp.OfficeBookings

open Encoding

structure Customer where
  firstName : String
  lastName : String
  emailNormalized : String
  deriving DecidableEq, Repr

/-- A row of the list: the booking, when it was created, and its customer. -/
structure ListRow where
  booking : Booking
  createdAt : Int
  customer : Customer
  deriving DecidableEq, Repr

inductive BookingSort where
  | startsAtAsc
  | startsAtDesc
  | createdAtAsc
  | createdAtDesc
  deriving DecidableEq, Repr

structure OfficeBookingListQuery where
  limit : Nat := 25
  cursor : Option String := none
  status : Option (List BookingStatus) := none
  employeeId : Option String := none
  serviceId : Option String := none
  customerId : Option String := none
  fromDate : Option Int := none
  toDate : Option Int := none
  q : Option String := none
  sort : BookingSort := .startsAtDesc
  deriving DecidableEq, Repr

/-- What is asked of the database and of its client: whether a text has another in it, case apart
or not, and which instant a text is. -/
structure Client where
  containsInsensitive : String → String → Bool
  contains : String → String → Bool
  toLowerCase : String → String
  readDateTime : String → Option Int

/-- `startsAt` or `createdAt` -/
def BookingSort.field : BookingSort → ListRow → Int
  | startsAtAsc, row => row.booking.startsAt
  | startsAtDesc, row => row.booking.startsAt
  | createdAtAsc, row => row.createdAt
  | createdAtDesc, row => row.createdAt

def BookingSort.direction : BookingSort → SortDirection
  | startsAtAsc => .asc
  | startsAtDesc => .desc
  | createdAtAsc => .asc
  | createdAtDesc => .desc

def ListRow.id (row : ListRow) : String :=
  row.booking.id

def assertMayAccessEmployee (session : OfficeSession) (employeeId : String) : Except Failure Unit :=
  if session.role ≠ .EMPLOYEE ∨ session.employeeId = some employeeId then return ()
  else throw (.app { code := "NOT_FOUND", message := "Not found." })

/-- The employees a session may see, or all of them. -/
def visibleEmployeeIds (session : OfficeSession) : Except Failure (Option (List String)) :=
  if session.role ≠ .EMPLOYEE then return none
  else
    match session.employeeId with
    | none => throw (.app {
        code := "FORBIDDEN_ROLE"
        message := "This account has the employee role but is not linked to an employee." })
    | some employeeId => return some [employeeId]

/-- The instants of a range of local dates. -/
def dateRange (fromDate toDate : Option Int) (zone : Zone) : Except Failure (ListRow → Bool) := do
  let first ← fromDate.mapM fun date => startOfDay date zone
  let last ← toDate.mapM fun date => startOfDay (addLocalDays date 1 zone) zone
  return fun row => first.all (fun t => decide (t ≤ row.booking.startsAt)) &&
    last.all fun t => decide (row.booking.startsAt < t)

/-- The reference, the names or the address. -/
def search (client : Client) (q : Option String) (row : ListRow) : Bool :=
  q.all fun q => client.containsInsensitive row.booking.reference q ||
    client.containsInsensitive row.customer.lastName q ||
    client.containsInsensitive row.customer.firstName q ||
    client.contains row.customer.emailNormalized (client.toLowerCase q)

/-- The employees of a query: the one it names, or those that the session may see. -/
def employeesOf (session : OfficeSession) : Option String → Except Failure (Option (List String))
  | none => visibleEmployeeIds session
  | some employeeId => do
    assertMayAccessEmployee session employeeId
    return some [employeeId]

/-- The rows that a query is about, its page apart. -/
def filter (api : Api) (client : Client) (session : OfficeSession) (query : OfficeBookingListQuery) :
    Except Failure (ListRow → Bool) := do
  let employees ← employeesOf session query.employeeId
  let inRange ← dateRange query.fromDate query.toDate api.timezone
  return fun row =>
    decide (row.booking.organizationId = session.organizationId) &&
    employees.all (fun ids => decide (row.booking.employeeId ∈ ids)) &&
    query.status.all (fun statuses => decide (row.booking.status ∈ statuses)) &&
    query.serviceId.all (fun id => decide (row.booking.serviceId = id)) &&
    query.customerId.all (fun id => decide (row.booking.customerId = id)) &&
    inRange row && search client query.q row

/-- The rows of the pages that are left. -/
def fromCursor (client : Client) (sort : BookingSort) : Option String → Except Failure (ListRow → Bool)
  | none => return fun _ => true
  | some raw => do
    keysetWhere sort.field ListRow.id sort.direction client.readDateTime (← decodeCursor raw)

/-- One page of the bookings as they are. -/
def list (api : Api) (client : Client) (session : OfficeSession) (query : OfficeBookingListQuery)
    (bookings : List ListRow) : Except Failure (Page ListRow) := do
  let wanted ← filter api client session query
  let later ← fromCursor client query.sort query.cursor
  let rows := ((bookings.filter fun row => wanted row && later row).insertionSort
    (keysetOrderBy query.sort.field ListRow.id query.sort.direction)).take (query.limit + 1)
  return toPage ListRow.id rows query.limit fun row => toISOString (query.sort.field row)

/-- The rows of the pages one after the other, each of the bookings as they are by then, and whether
the last page was reached. -/
def follow (api : Api) (client : Client) (session : OfficeSession) (query : OfficeBookingListQuery) :
    Option String → List (List ListRow) → Except Failure (List ListRow × Bool)
  | _, [] => return ([], false)
  | cursor, bookings :: later => do
    let page ← list api client session { query with cursor } bookings
    match page.nextCursor with
    | none => return (page.items, true)
    | some next =>
      let (items, ended) ← follow api client session query (some next) later
      return (page.items ++ items, ended)

/-- Rows as the table has them: ids are unique, and instants have years of four digits, as the
instants of every request do. -/
structure Listable (bookings : List ListRow) : Prop where
  ids : (bookings.map ListRow.id).Nodup
  startsAt : ∀ row ∈ bookings, FourDigitYear row.booking.startsAt
  createdAt : ∀ row ∈ bookings, FourDigitYear row.createdAt

variable {api : Api} {client : Client} {session : OfficeSession} {query : OfficeBookingListQuery}
  {wanted : ListRow → Bool} {bookings : List ListRow}

/-- The place of a row in the order of a sort. -/
abbrev BookingSort.position (sort : BookingSort) : ListRow → Position sort.direction :=
  positionOf sort.field ListRow.id sort.direction

/-- No two rows are in one place. -/
theorem Listable.nodup (h : Listable bookings) (sort : BookingSort) :
    ((bookings.filter wanted).map sort.position).Nodup := by
  have hids : ((bookings.filter wanted).map ListRow.id).Nodup := h.ids.sublist (List.filter_sublist.map _)
  refine List.Nodup.of_map Position.id ?_
  rwa [List.map_map]

def ListRow.sample (id : String) : ListRow where
  booking := { Booking.sample with id }
  createdAt := 0
  customer := { firstName := "Ada", lastName := "Lovelace", emailNormalized := "ada@example.org" }

def Client.sample : Client where
  containsInsensitive text q := includes (text.toList.map Char.toLower) (q.toList.map Char.toLower)
  contains text q := includes text.toList q.toList
  toLowerCase := String.toLower
  readDateTime _ := none

end BookingApp.OfficeBookings

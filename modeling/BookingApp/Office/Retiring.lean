import BookingApp.Booking.Reschedule
import BookingApp.ReadCommitted.Guarded

/-!
# Retiring employees, services and pairings (`office/employees.service.ts`, `office/catalog.service.ts`)

Each of the three looks for appointments that somebody still has to keep and then writes, in a
transaction of its own and without the lock of a calendar. What they answer is left out but for
the rows it is made of.
-/

set_option autoImplicit false

namespace BookingApp

open ReadCommitted

/-- A booking that somebody still has to keep: it occupies its employee and has not ended. -/
def Booking.Ahead (b : Booking) (now : Int) : Prop :=
  b.Blocks ∧ now < b.endsAt

instance (b : Booking) (now : Int) : Decidable (b.Ahead now) :=
  inferInstanceAs (Decidable (_ ∧ _))

/-- A transaction of a client that is in none: there is nothing to give up when it begins, so that
it takes no step of its own. `transaction` begins like this once it has given up everything. -/
def outermost {α : Type} (p : Point) (body : Tx α) : Tx α :=
  tryCatch (do
    let a ← body
    statement (S := store) p .commit fun _ => a) fun e : Failure => .reset (.throw e)

def employeeHasFutureBookings (message : String) (details : List (String × String)) : Failure :=
  .app { code := "EMPLOYEE_HAS_FUTURE_BOOKINGS", message, details }

namespace EmployeesService

/-- The employee, or a 404 that does not distinguish "absent" from "another tenant's". -/
def load (session : OfficeSession) (id : String) : Tx Employee := do
  match ← query fun d => findIn Employee.organizationId session.organizationId id d.employees with
  | none => throw (.app { code := "NOT_FOUND", message := "Employee not found." })
  | some employee => return employee

/-- The columns of an employee that is archived. -/
def archived (session : OfficeSession) (id : String) (now : Int) (e : Employee) : Employee :=
  if e.id = id ∧ e.organizationId = session.organizationId then { e with archivedAt := some now } else e

/-- `archive`: unless there are appointments left to keep. -/
def archive (session : OfficeSession) (id : String) : Tx Employee := do
  let employee ← load session id
  if employee.archivedAt ≠ none then return employee
  else
    let instant ← clockNow
    let bookingCount ← query fun d => (d.bookings.filter fun b => decide
      (b.organizationId = session.organizationId ∧ b.employeeId = id ∧ b.Ahead instant)).length
    ensure (S := store) (bookingCount = 0) (employeeHasFutureBookings
      "This employee still has appointments ahead of them." [("bookingCount", toString bookingCount)])
    let p := Point.retirement session.organizationId (.employee id) false
    outermost p do
      let row ← modify (S := store) p (fun _ => [.employee id])
        (fun view d => { d with employees := d.employees.map (archived session id view.clock) })
        fun d : Db => (findIn Employee.organizationId session.organizationId id d.employees).map
          (archived session id d.clock)
      orThrow row

structure Assignment where
  serviceId : String
  priceOverrideCents : Option Int := none
  deriving DecidableEq, Repr

/-- `new Map(assignments)`: the last price of a service counts, in the place of its first. -/
def wantedMap (assignments : List Assignment) : List Assignment :=
  assignments.foldl (fun wanted a =>
    if wanted.any (·.serviceId = a.serviceId) then
      wanted.map fun w => if w.serviceId = a.serviceId then a else w
    else wanted ++ [a]) []

/-- An employee's links to some services. -/
def linksTo (session : OfficeSession) (employeeId : String) (serviceIds : List String)
    (link : EmployeeService) : Prop :=
  link.organizationId = session.organizationId ∧ link.employeeId = employeeId ∧ link.serviceId ∈ serviceIds

instance (session : OfficeSession) (employeeId : String) (serviceIds : List String) (link : EmployeeService) :
    Decidable (linksTo session employeeId serviceIds link) :=
  inferInstanceAs (Decidable (_ ∧ _ ∧ _))

/-- `tx.employeeService.upsert` -/
def upsertLink (session : OfficeSession) (employeeId : String) (a : Assignment)
    (links : List EmployeeService) : List EmployeeService :=
  if links.any fun link => decide (link.employeeId = employeeId ∧ link.serviceId = a.serviceId) then
    links.map fun link => if link.employeeId = employeeId ∧ link.serviceId = a.serviceId then
      { link with priceOverrideCents := a.priceOverrideCents } else link
  else links ++ [{
    organizationId := session.organizationId, employeeId, serviceId := a.serviceId
    priceOverrideCents := a.priceOverrideCents }]

/-- The links that are wanted, one after the other. -/
def upsertLinks (session : OfficeSession) (employeeId : String) (p : Point) : List Assignment → Tx Unit
  | [] => return ()
  | a :: wanted => do
    modify (S := store) p (fun _ => [.employeeService employeeId a.serviceId])
      (fun _ d => { d with employeeServices := upsertLink session employeeId a d.employeeServices })
      fun _ => ()
    upsertLinks session employeeId p wanted

/-- The links that are removed. -/
def deleteLinks (session : OfficeSession) (employeeId : String) (p : Point) (removed : List String) :
    Tx Unit :=
  if removed = [] then return ()
  else modify (S := store) p (fun _ => removed.map (.employeeService employeeId))
    (fun _ d => { d with
      employeeServices := d.employeeServices.filter fun link =>
        !decide (linksTo session employeeId removed link) })
    fun _ => ()

/-- How many appointments are ahead for each of the services. The database promises no order of
these groups. -/
def groupByService (session : OfficeSession) (employeeId : String) (serviceIds : List String)
    (now : Int) (d : Db) : List (String × Nat) :=
  (serviceIds.map fun serviceId => (serviceId, (d.bookings.filter fun b => decide
    (b.organizationId = session.organizationId ∧ b.employeeId = employeeId ∧ b.serviceId = serviceId ∧
      b.Ahead now)).length)).filter fun group => group.2 ≠ 0

/-- No appointment is left for a service that is removed. -/
def assertNoneBooked (session : OfficeSession) (employeeId : String) (removed : List String) : Tx Unit :=
  if removed = [] then return ()
  else do
    let instant ← clockNow
    let blocking ← query (groupByService session employeeId removed instant)
    match blocking with
    | [] => return ()
    | first :: _ => throw (employeeHasFutureBookings
        "This employee still has appointments for a service you are removing."
        [("bookingCount", toString first.2), ("serviceId", first.1)])

/-- The links of an employee. -/
def listServices (session : OfficeSession) (employeeId : String) : Tx (List EmployeeService) := do
  discard (load session employeeId)
  query fun d => d.employeeServices.filter fun link =>
    decide (link.organizationId = session.organizationId ∧ link.employeeId = employeeId)

/-- `replaceServices`: the whole set of assignments. Removing a pairing that somebody is booked for is
refused. -/
def replaceServices (session : OfficeSession) (employeeId : String) (assignments : List Assignment) :
    Tx (List EmployeeService) := do
  discard (load session employeeId)
  let wanted := wantedMap assignments
  let wantedIds := wanted.map Assignment.serviceId
  let existing ← query fun d => (d.employeeServices.filter fun link =>
    decide (link.organizationId = session.organizationId ∧ link.employeeId = employeeId)).map
      EmployeeService.serviceId
  let removed := existing.filter fun serviceId => decide (serviceId ∉ wantedIds)
  assertNoneBooked session employeeId removed
  let p := Point.retirement session.organizationId (.links employeeId removed) false
  let services ← select (S := store) p fun d : Db => (d.services.filter fun s =>
    decide (s.organizationId = session.organizationId ∧ s.id ∈ wantedIds)).length
  ensure (S := store) (services = wanted.length)
    (.app { code := "NOT_FOUND", message := "One of those services does not exist." })
  outermost p do
    deleteLinks session employeeId p removed
    upsertLinks session employeeId p wanted
  listServices session employeeId

end EmployeesService

namespace CatalogService

/-- `loadService` -/
def load (session : OfficeSession) (id : String) : Tx Service := do
  match ← query fun d => findIn Service.organizationId session.organizationId id d.services with
  | none => throw (.app { code := "NOT_FOUND", message := "Service not found." })
  | some service => return service

/-- The columns of a service that is archived. -/
def archived (id : String) (now : Int) (s : Service) : Service :=
  if s.id = id then { s with archivedAt := some now } else s

/-- `archiveService`: refused while appointments that still have to happen reference it. -/
def archiveService (session : OfficeSession) (id : String) : Tx Service := do
  let service ← load session id
  if service.archivedAt ≠ none then return service
  else
    let instant ← clockNow
    let bookingCount ← query fun d => (d.bookings.filter fun b => decide
      (b.organizationId = session.organizationId ∧ b.serviceId = id ∧ b.Ahead instant)).length
    ensure (S := store) (bookingCount = 0) (.app {
      code := "SERVICE_HAS_FUTURE_BOOKINGS", message := "Appointments for this service are still to come."
      details := [("bookingCount", toString bookingCount)] })
    let p := Point.retirement session.organizationId (.service id) false
    outermost p do
      let row ← modify (S := store) p (fun _ => [.service id])
        (fun view d => { d with services := d.services.map (archived id view.clock) })
        fun d : Db => (Table.find id d.services).map (archived id d.clock)
      orThrow row

end CatalogService

end BookingApp

import BookingApp.Store.Session

/-!
# The status machine of a booking (`booking/booking-status.machine.ts`)

Every service asserts a transition before it writes a status, against the status
it has read. Whether that is the status the row still has is up to the service.
-/

set_option autoImplicit false

namespace BookingApp

open ReadCommitted

/-- No transition leaves a terminal status. -/
def TERMINAL_BOOKING_STATUSES : List BookingStatus :=
  [.EXPIRED, .PAYMENT_FAILED, .CANCELED_BY_CUSTOMER, .CANCELED_BY_BUSINESS, .COMPLETED, .NO_SHOW]

/-- Permitted transitions. -/
def TRANSITIONS : BookingStatus → List BookingStatus
  | .PENDING_PAYMENT => [.EXPIRING, .CONFIRMED, .PAYMENT_FAILED]
  | .EXPIRING => [.EXPIRED, .CONFIRMED]
  | .CONFIRMED => [.CANCELED_BY_CUSTOMER, .CANCELED_BY_BUSINESS, .COMPLETED, .NO_SHOW]
  | .EXPIRED => []
  | .PAYMENT_FAILED => []
  | .CANCELED_BY_CUSTOMER => []
  | .CANCELED_BY_BUSINESS => []
  | .COMPLETED => []
  | .NO_SHOW => []

/-- Statuses a booking may be created in directly. -/
def CREATABLE : List BookingStatus :=
  [.PENDING_PAYMENT, .CONFIRMED]

def isTerminal (status : BookingStatus) : Bool :=
  TERMINAL_BOOKING_STATUSES.contains status

def canTransition (fromStatus : Option BookingStatus) (toStatus : BookingStatus) : Bool :=
  match fromStatus with
  | none => CREATABLE.contains toStatus
  | some status => (TRANSITIONS status).contains toStatus

def BookingStatus.text : BookingStatus → String
  | PENDING_PAYMENT => "PENDING_PAYMENT"
  | EXPIRING => "EXPIRING"
  | EXPIRED => "EXPIRED"
  | CONFIRMED => "CONFIRMED"
  | PAYMENT_FAILED => "PAYMENT_FAILED"
  | CANCELED_BY_CUSTOMER => "CANCELED_BY_CUSTOMER"
  | CANCELED_BY_BUSINESS => "CANCELED_BY_BUSINESS"
  | COMPLETED => "COMPLETED"
  | NO_SHOW => "NO_SHOW"

def assertTransition (fromStatus : Option BookingStatus) (toStatus : BookingStatus) : Tx Unit :=
  let shown := fromStatus.map BookingStatus.text
  let origin := shown.getD "(new)"
  ensure (S := store) (canTransition fromStatus toStatus = true) (.app {
    code := "INVALID_STATUS_TRANSITION", status := some 422
    message := s!"Cannot move a booking from {origin} to {toStatus.text}."
    details := [("from", shown.getD "null"), ("to", toStatus.text)] })

/-- The two readings of a final status agree. -/
theorem isTerminal_iff (status : BookingStatus) :
    isTerminal status = true ↔ TRANSITIONS status = [] := by
  cases status <;> decide

/-- No transition leads back to a status that occupies the employee. -/
theorem blocking_of_canTransition {fromStatus toStatus : BookingStatus}
    (h : canTransition (some fromStatus) toStatus = true)
    (hto : toStatus ∈ BLOCKING_BOOKING_STATUSES) : fromStatus ∈ BLOCKING_BOOKING_STATUSES := by
  revert h hto
  cases fromStatus <;> cases toStatus <;> decide

end BookingApp

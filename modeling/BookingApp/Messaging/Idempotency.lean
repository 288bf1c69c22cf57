import BookingApp.Booking.Reservation
import BookingApp.Payment.Refunds

/-!
# Idempotency keys (`messaging/idempotency`, `payment/manual-payment.service.ts`)

An attempt claims its key, runs its handler, and records the response or gives the
key up. The row knows when its lease ends, but not to whom it was given. Each call
is a transaction of its own, and what it does to the attempt is noted with it.
-/

set_option autoImplicit false

namespace BookingApp

open ReadCommitted

/-- How long a completed key replays for. -/
def IDEMPOTENCY_TTL_MS : Int := 24 * 60 * 60000

/-- How long an in-flight attempt holds the key. -/
def IDEMPOTENCY_LEASE_MS : Int := 2 * 60000

/-- Maximum rows deleted in one statement. -/
def IDEMPOTENCY_SWEEP_BATCH_SIZE : Nat := 500

inductive BeginResult where
  | NEW
  | REPLAY (statusCode : Nat) (body : String)
  | IN_PROGRESS
  | MISMATCH
  deriving DecidableEq, Repr

/-- What a request claims its key with. -/
structure KeyedRequest where
  key : String
  scope : String
  requestHash : String
  deriving DecidableEq, Repr

/-- An attempt at a request, which the notes call by its name. -/
structure Attempt extends KeyedRequest where
  name : Nat
  deriving DecidableEq, Repr

/-- The statement with which an attempt does this to its key. -/
def Attempt.at (attempt : Attempt) (operation : KeyOperation) : Point :=
  .keyed operation attempt.name attempt.key attempt.scope attempt.requestHash

def Attempt.granted (attempt : Attempt) (expiresAt time : Int) : List AttemptEvent :=
  [.granted attempt.name attempt.key attempt.scope attempt.requestHash time expiresAt]

/-- The row of a key. -/
def rowOfKey (key : String) (d : Db) : Option IdempotencyKey :=
  d.idempotencyKeys.find? fun k => decide (k.key = key)

/-- The rows that satisfy a condition. -/
def keysWhere (p : IdempotencyKey → Bool) (d : Db) : List String :=
  (d.idempotencyKeys.filter p).map IdempotencyKey.id

/-- A single `updateMany` or `deleteMany` of keys, which answers with the rows it has changed. -/
def changeKeys (p : Point) (condition : IdempotencyKey → Bool) (change : List String → Db → Db) :
    Tx (List String) :=
  transaction (S := store) p
    (modify (S := store) .plain (fun view => (keysWhere condition view).map Lock.idempotencyKey)
      (fun view => change (keysWhere condition view)) (keysWhere condition))

/-- The rows with these ids, deleted. -/
def deleteKeys (ids : List String) : Db → Db :=
  Db.onIdempotencyKeys (List.filter fun k => !ids.contains k.id)

/-- The completed keys among these rows, which are free again once the rows are deleted. -/
def retiredKeys (ids : List String) (d : Db) : List AttemptEvent :=
  (d.idempotencyKeys.filter fun k => ids.contains k.id && decide (k.state = .COMPLETED)).map
    fun k => .retired k.key

/-- A completed key whose replay window has elapsed, deleted. -/
def retireKey (key : String) (instant : Int) : Tx (List String) :=
  changeKeys .plain (fun k => decide (k.key = key ∧ k.state = .COMPLETED ∧ k.expiresAt ≤ instant))
    fun ids d => (deleteKeys ids d).noting fun _ => retiredKeys ids d

/-- A key whose lease has run out, taken over. -/
def takeOverExpiredLease (attempt : Attempt) (instant : Int) : Tx BeginResult := do
  let expiresAt := instant + IDEMPOTENCY_LEASE_MS
  let taken ← changeKeys (attempt.at .takeover)
    (fun k => decide (k.key = attempt.key ∧ k.state = .IN_PROGRESS ∧ k.expiresAt ≤ instant))
    fun ids d => (d.onIdempotencyKeys (Table.update ids fun k => { k with expiresAt })).noting
      fun time => if ids = [] then [] else attempt.granted expiresAt time
  return if taken = [] then .IN_PROGRESS else .NEW

/-- Decide what an existing row means for this attempt, which begins `again` if it has retired
the row. -/
def inspectKey (attempt : Attempt) (instant : Int) (again : Tx BeginResult) : Tx BeginResult := do
  match ← query (rowOfKey attempt.key) with
  | none => return .IN_PROGRESS
  | some row =>
    if row.state = .COMPLETED ∧ row.expiresAt ≤ instant then
      if (← retireKey attempt.key instant) = [] then return .IN_PROGRESS else again
    else if row.scope ≠ attempt.scope ∨ row.requestHash ≠ attempt.requestHash then
      return .MISMATCH
    else if row.state = .COMPLETED then
      return .REPLAY (row.statusCode.getD 200) (row.responseSnapshot.getD "null")
    else if row.expiresAt > instant then return .IN_PROGRESS
    else takeOverExpiredLease attempt instant

/-- The row of a key that has not been used. -/
def claimKey (attempt : Attempt) (instant : Int) : Tx BeginResult := do
  let id ← freshId
  let expiresAt := instant + IDEMPOTENCY_LEASE_MS
  transaction (S := store) .plain (insert fun d =>
    (d.onIdempotencyKeys (· ++ [{
      id, expiresAt
      key := attempt.key
      scope := attempt.scope
      requestHash := attempt.requestHash }])).noting (attempt.granted expiresAt))
  return .NEW

/-- Claim a key, or report what the existing row says. Claiming starts over after an expired row
has been retired; an attempt that has done so `rounds` times is one that has crashed. -/
def begin (attempt : Attempt) : Nat → Tx BeginResult
  | 0 => throw (.error "crashed")
  | rounds + 1 => do
    let instant ← clockNow
    tryCatch (claimKey attempt instant) fun error : Failure =>
      if isUniqueViolation error "key" then inspectKey attempt instant (begin attempt rounds)
      else throw error

/-- What a handler answers with: the rendered body, and the booking id in it. -/
structure Response where
  body : String
  bookingId : Option String := none
  deriving DecidableEq, Repr

/-- The scope and the hash of the row in progress that a completion finds. -/
def storedFor (ids : List String) (d : Db) : Option (String × String) :=
  (d.idempotencyKeys.find? fun k => ids.contains k.id).map fun k => (k.scope, k.requestHash)

/-- Store the response so that the next identical request replays it. -/
def completeKey (api : Api) (attempt : Attempt) (statusCode : Nat) (response : Response) :
    Tx Unit := do
  let instant ← clockNow
  discard (changeKeys (attempt.at (.completion (instant + IDEMPOTENCY_TTL_MS)))
    (fun k => decide (k.key = attempt.key ∧ k.state = .IN_PROGRESS))
    fun ids d => (d.onIdempotencyKeys (Table.update ids fun k =>
      { k with
        state := .COMPLETED
        statusCode := some statusCode
        responseSnapshot := some response.body
        organizationId := some api.organizationId
        bookingId := response.bookingId.or k.bookingId
        expiresAt := instant + IDEMPOTENCY_TTL_MS })).noting
      fun _ => [.completed attempt.name attempt.key statusCode response.body (storedFor ids d)])

/-- Release a key without storing a response: an unbound key is deleted, a bound one only gives up
its lease. -/
def abandonKey (attempt : Attempt) : Tx Unit := do
  let instant ← clockNow
  transaction (S := store) (attempt.at .abandonment) do
    let unbound : IdempotencyKey → Bool := fun k =>
      decide (k.key = attempt.key ∧ k.state = .IN_PROGRESS ∧ k.bookingId = none)
    let bound : IdempotencyKey → Bool := fun k =>
      decide (k.key = attempt.key ∧ k.state = .IN_PROGRESS ∧ k.bookingId ≠ none)
    updateMany .idempotencyKey (keysWhere unbound) deleteKeys
    updateMany .idempotencyKey (keysWhere bound) fun ids d =>
      (d.onIdempotencyKeys (Table.update ids fun k => { k with expiresAt := instant })).noting
        fun _ => [.abandoned attempt.name attempt.key]

/-- One batch of the sweep: the ids it has selected, and whether there may be more. -/
def sweepKeysBatch (instant : Int) : Tx Bool := do
  let selected ← query fun d =>
    (keysWhere (fun k => decide (k.expiresAt < instant)) d).take IDEMPOTENCY_SWEEP_BATCH_SIZE
  let expired : IdempotencyKey → Bool := fun k =>
    selected.contains k.id && decide (k.expiresAt < instant)
  if selected = [] then return false
  else
    discard (transactionBy (S := store) Point.keySweep (modify (S := store) .plain
      (fun view => (keysWhere expired view).map Lock.idempotencyKey)
      (fun view d => (deleteKeys (keysWhere expired view) d).noting
        fun _ => retiredKeys (keysWhere expired view) d)
      (keysWhere expired)))
    return decide (selected.length = IDEMPOTENCY_SWEEP_BATCH_SIZE)

def sweepBatches (instant : Int) : Nat → Tx Unit
  | 0 => return ()
  | batches + 1 => do
    if ← sweepKeysBatch instant then sweepBatches instant batches else return ()

/-- Delete keys past their expiry, `batches` batches of them at most. -/
def sweepKeys (batches : Nat) : Tx Unit := do
  sweepBatches (← clockNow) batches

/-- Notes what the clients are told. -/
def note (event : AttemptEvent) : Tx Unit :=
  Code.call (S := store) (Db.noting fun _ => [event]) fun _ => .ret ()

/-- An attempt begins, under a name that no other has. -/
def enter (request : KeyedRequest) : Tx Attempt :=
  Code.call (S := store) (Db.noting fun _ => [.begun request.key request.scope request.requestHash])
    fun d => .ret { request with name := d.attempts.length }

/-- `IdempotencyInterceptor.intercept`, around the handler of a route. -/
def intercept (api : Api) (request : KeyedRequest) (rounds statusCode : Nat)
    (handler : Attempt → Tx Response) : Tx String := do
  let attempt ← enter request
  match ← begin attempt rounds with
  | .REPLAY statusCode body =>
    note (.replayed attempt.key attempt.scope attempt.requestHash statusCode body)
    return body
  | .MISMATCH =>
    throwApp "IDEMPOTENCY_KEY_REUSED"
      "This Idempotency-Key was already used for a different request. Use a new key, or retry the original request unchanged."
  | .IN_PROGRESS =>
    throwApp "IDEMPOTENT_REQUEST_IN_PROGRESS"
      "A request with this Idempotency-Key is still being processed."
  | .NEW =>
    let response ← tryCatch (handler attempt) fun error : Failure => do
      abandonKey attempt
      throw error
    completeKey api attempt statusCode response
    return response.body

/-- What a handler may do to its key: bind it to a booking. -/
def someBinding (attempt : Attempt) : Tx Unit := do
  let choice ← answer
  if choice.choice = 0 then return ()
  else
    transaction (S := store) .plain do
      let keyId ← claimIdempotencyKey (some attempt.key)
      bindIdempotencyKey keyId choice.id

/-- What a handler may end in. -/
def someResponse : Tx Response := do
  let choice ← answer
  if choice.choice = 0 then return { body := choice.random }
  else throw (.error choice.random)

/-- A handler of which nothing else is known: it takes its time, and answers something or fails. -/
def someHandler (attempt : Attempt) : Tx Response := do
  someBinding attempt
  someResponse

structure CreateManualPaymentRequest where
  amountCents : Int
  deriving DecidableEq, Repr

/-- `ManualPaymentService.record`, called by an attempt. -/
def recordManualPayment (api : Api) (attempt : Attempt) (bookingId : String)
    (input : CreateManualPaymentRequest) : Tx Response := do
  match ← query fun d => findIn Booking.organizationId api.organizationId bookingId d.bookings with
  | none => throwApp "NOT_FOUND" "Booking not found."
  | some booking =>
    if booking.status = .EXPIRED ∨ booking.status = .PAYMENT_FAILED then
      throwApp "INVALID_STATUS_TRANSITION"
        "That booking never took place, so money cannot be recorded against it."
    else
      let amount ← ofExcept (Money.fromCents input.amountCents booking.currency)
      let root ← rootBookingId api booking.id
      let id ← freshId
      transaction (S := store) (attempt.at .effect) (insert fun d =>
        (d.onManualPayments (· ++ [{
          bookingId := root, amountCents := amount.amountCents, currency := amount.currency }])).noting
          fun _ => [.recorded attempt.name attempt.key])
      return { body := id }

/-- `POST …/manual-payments` -/
def createManualPayment (api : Api) (request : KeyedRequest) (rounds : Nat) (bookingId : String)
    (input : CreateManualPaymentRequest) : Tx String :=
  intercept api request rounds 201 fun attempt => recordManualPayment api attempt bookingId input

/-- Time passes. -/
def tick (milliseconds : Nat) : Tx Unit :=
  Code.call (S := store) (Db.onClock (· + (milliseconds : Int))) fun _ => .ret ()

end BookingApp

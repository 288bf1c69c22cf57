import Mathlib.Data.List.Infix

/-!
# Errors (`common/errors`, `common/prisma-errors`, `providers/payment/stripe.errors.ts`)

What a statement or a provider call fails with, and the predicates the services
branch on. They look at the class of an error, at its SQLSTATE and at its text.
-/

set_option autoImplicit false

namespace BookingApp

/-- `AppError`. Without a status of its own an error has the documented one of its code. -/
structure AppError where
  code : String
  message : String
  status : Option Nat := none
  details : List (String × String) := []
  deriving DecidableEq, Repr

/-- An error of the database driver: the SQLSTATE behind it, if there is one, the columns and
the index of the constraint it names, and the message of the server. -/
structure DatabaseError where
  sqlState : Option String
  message : String
  fields : List String := []
  index : String := ""
  deriving DecidableEq, Repr

/-- The classes of Stripe's errors that are told apart. -/
inductive StripeErrorClass where
  | StripeConnectionError
  | StripeRateLimitError
  | StripeAPIError
  | StripeInvalidRequestError
  | StripeCardError
  deriving DecidableEq, Repr

inductive Failure where
  | app (error : AppError)
  | database (error : DatabaseError)
  | stripe (kind : StripeErrorClass) (message : String)
  | error (message : String)
  deriving DecidableEq, Repr

/-- `error.message` -/
def Failure.message : Failure → String
  | app e => e.message
  | database e => e.message
  | stripe _ message => message
  | error message => message

/-- Whether `part` is a substring. -/
def includes (text part : List Char) : Bool :=
  text.tails.any part.isPrefixOf

/-- `([a-z0-9])([A-Z])` replaced by `$1_$2`. -/
def splitCamel : List Char → List Char
  | a :: b :: rest =>
    if (a.isLower || a.isDigit) && b.isUpper then a :: '_' :: splitCamel (b :: rest)
    else a :: splitCamel (b :: rest)
  | text => text

def toSnakeCase (value : List Char) : List Char :=
  (splitCamel value).map Char.toLower

def sqlState : Failure → Option String
  | .database e => e.sqlState
  | _ => none

/-- A serialization failure or a deadlock. -/
def isSerializationFailure (e : Failure) : Bool :=
  decide (sqlState e = some "40001") || decide (sqlState e = some "40P01")

def isExclusionViolation (e : Failure) (constraintName : String) : Bool :=
  decide (sqlState e = some "23P01") && includes e.message.toList constraintName.toList

/-- A unique violation that names the column, the index or the field `target`. -/
def isUniqueViolation (e : Failure) (target : String) : Bool :=
  match e with
  | .database cause =>
    let snake := toSnakeCase target.toList
    let haystack := cause.index.toList ++ [' '] ++ cause.message.toList
    decide (cause.sqlState = some "23505") &&
      (cause.fields.any (fun field => decide (field = target) || decide (field.toList = snake)) ||
        includes haystack target.toList || includes haystack snake)
  | _ => false

/-- `/ECONNRESET|ETIMEDOUT|EAI_AGAIN|ENOTFOUND|socket hang up/i` -/
def mentionsSocket (message : String) : Bool :=
  let text := message.toList.map Char.toLower
  ["econnreset", "etimedout", "eai_again", "enotfound", "socket hang up"].any fun word =>
    includes text word.toList

/-- The failures that are taken to be transient. -/
def isRetryableStripeError : Failure → Bool
  | .stripe .StripeConnectionError _ => true
  | .stripe .StripeRateLimitError _ => true
  | .stripe .StripeAPIError _ => true
  | .stripe _ _ => false
  | e => mentionsSocket e.message

/-- What Prisma raises when a row that has to be there is not. -/
def recordNotFound : Failure :=
  .database { sqlState := none, message := "An operation failed because it depends on one or more records that were required but not found." }

/-- A composed computation succeeds when both of its parts do. -/
theorem bind_eq_ok {ε α β : Type} {x : Except ε α} {f : α → Except ε β} {b : β} :
    x >>= f = .ok b ↔ ∃ a, x = .ok a ∧ f a = .ok b := by
  cases x with
  | ok a => simp [bind, Except.bind]
  | error e => simp [bind, Except.bind]

end BookingApp

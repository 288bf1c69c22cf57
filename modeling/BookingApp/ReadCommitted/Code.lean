import Mathlib.Data.List.Basic

/-!
# Transaction code over a READ COMMITTED store

A client of the database is a tree of statements (`Code`). Each statement sees
what had committed before it began together with the client's own uncommitted
writes, may take row locks it keeps until its transaction ends, and may fail.
Failing hands an error to the code's own handler. Nothing here fixes the
tables, the locks or the errors: they are the fields of `Store`.
-/

set_option autoImplicit false

namespace ReadCommitted

/-- What the code runs over: committed states, lock names, statement labels,
errors, and what the environment answers (clock, fresh ids, other services).
`legal` is the conjunction of the constraints checked when a transaction commits. -/
structure Store where
  Db : Type
  Lock : Type
  Point : Type
  Err : Type
  Answer : Type
  idle : Point
  legal : Db → Bool
  decLock : DecidableEq Lock

instance (S : Store) : DecidableEq S.Lock := S.decLock

/-- One statement. `lock rows` is `SELECT … FOR UPDATE` (or an advisory lock):
it waits for the locks of the rows it finds. `write rows change` is an `INSERT`
or `UPDATE`: the change is fixed from the client's view when the statement runs,
after the wait for the locks of the rows it names. -/
inductive Stmt (S : Store) where
  | read
  | lock (rows : S.Db → List S.Lock)
  | write (rows : S.Db → List S.Lock) (change : S.Db → S.Db → S.Db)
  | commit

/-- Code that ends in an `α`. A statement `stmt p s k h` carries its label `p`,
what follows on the view it ran against (`k`) and what follows an error (`h`);
`call` changes the world outside the transaction at once, and `reset` gives up every lock
and uncommitted write, as opening and aborting a transaction do. -/
inductive Code (S : Store) (α : Type) where
  | ret (a : α)
  | throw (e : S.Err)
  | ask (k : S.Answer → Code S α)
  | call (effect : S.Db → S.Db) (k : S.Db → Code S α)
  | reset (k : Code S α)
  | stmt (p : S.Point) (s : Stmt S) (k : S.Db → Code S α) (h : S.Err → Code S α)

namespace Code

variable {S : Store} {α β : Type}

protected def bind : Code S α → (α → Code S β) → Code S β
  | ret a, f => f a
  | throw e, _ => .throw e
  | ask k, f => .ask fun a => (k a).bind f
  | call c k, f => .call c fun d => (k d).bind f
  | reset k, f => .reset (k.bind f)
  | stmt p s k h, f => .stmt p s (fun d => (k d).bind f) fun e => (h e).bind f

/-- `c`, with its errors handled by `f`. -/
protected def tryCatch : Code S α → (S.Err → Code S α) → Code S α
  | ret a, _ => .ret a
  | throw e, f => f e
  | ask k, f => .ask fun a => (k a).tryCatch f
  | call c k, f => .call c fun d => (k d).tryCatch f
  | reset k, f => .reset (k.tryCatch f)
  | stmt p s k h, f => .stmt p s (fun d => (k d).tryCatch f) fun e => (h e).tryCatch f

instance : Monad (Code S) where
  pure := .ret
  bind := Code.bind

instance : MonadExcept S.Err (Code S) where
  throw := .throw
  tryCatch := .tryCatch

/-- The label of the statement the code stands at. -/
def point : Code S α → S.Point
  | stmt p _ _ _ => p
  | _ => S.idle

end Code

section Statements

variable {S : Store} {α : Type}

/-- One statement whose errors are not handled here. -/
def statement (p : S.Point) (s : Stmt S) (f : S.Db → α) : Code S α :=
  .stmt p s (fun d => .ret (f d)) .throw

/-- `SELECT`: `f` of the view. -/
def select (p : S.Point) (f : S.Db → α) : Code S α :=
  statement p .read f

/-- `SELECT … FOR UPDATE`: `f` of the view once the locks of `rows` are held. -/
def selectForUpdate (p : S.Point) (rows : S.Db → List S.Lock) (f : S.Db → α) : Code S α :=
  statement p (.lock rows) f

/-- `INSERT` or `UPDATE`, answering with `f` of the view it was fixed from. -/
def modify (p : S.Point) (rows : S.Db → List S.Lock) (change : S.Db → S.Db → S.Db)
    (f : S.Db → α) : Code S α :=
  statement p (.write rows change) f

/-- What the environment answers next. -/
def answer : Code S S.Answer :=
  .ask .ret

/-- Goes on when `c` holds, and raises `e` otherwise. -/
def ensure (c : Prop) [Decidable c] (e : S.Err) : Code S Unit :=
  if c then pure () else throw e

/-- `body` in one transaction, whose commit is labelled by what the body ends in. Any error
aborts it. -/
def transactionBy (p : α → S.Point) (body : Code S α) : Code S α :=
  .reset (tryCatch (do
    let a ← body
    statement (p a) .commit fun _ => a) fun e => .reset (.throw e))

/-- `body` in one transaction, whose commit is labelled `p`. -/
def transaction (p : S.Point) (body : Code S α) : Code S α :=
  transactionBy (fun _ => p) body

/-- `c`, run again on the errors `retry` accepts. It is told how many attempts are left after
the one it makes. -/
def withRetry (retry : S.Err → Bool) : Nat → (Nat → Code S α) → Code S α
  | 0, c => c 0
  | left + 1, c =>
    tryCatch (c (left + 1)) fun e => if retry e then withRetry retry left c else throw e

end Statements

end ReadCommitted

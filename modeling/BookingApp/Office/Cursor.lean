import BookingApp.Encoding.Instant
import BookingApp.Encoding.Json
import BookingApp.Errors
import BookingApp.Keyset
import Mathlib.Data.Prod.Lex
import Mathlib.Data.String.Basic

/-!
# Cursors (`office/cursor.ts`)

A cursor carries the sort value of the last row of a page and its id. The rows of the
next page come strictly after it in the order of the column and then of the id, both
in one direction. Texts of the database compare by code points.
-/

set_option autoImplicit false

namespace BookingApp

open Encoding

structure Cursor where
  value : List CodeUnit
  id : List CodeUnit
  deriving DecidableEq, Repr

inductive SortDirection where
  | asc
  | desc
  deriving DecidableEq, Repr

def encodeCursor (cursor : Cursor) : String :=
  String.ofList (base64urlEncode (utf8Encode
    (Encoding.stringify [(ofString "value", cursor.value), (ofString "id", cursor.id)])))

def invalidCursor : Failure :=
  .app {
    code := "VALIDATION_FAILED"
    message := "That cursor is not valid. Start from the first page."
    details := [("issues.0.path.0", "cursor"), ("issues.0.message", "malformed"),
      ("issues.0.code", "invalid_cursor")] }

/-- Refuses what is not one of ours. -/
def decodeCursor (raw : String) : Except Failure Cursor :=
  match parse (utf8Decode (base64urlDecode raw.toList)) with
  | none => throw invalidCursor
  | some parsed =>
    match parsed.member (ofString "value"), parsed.member (ofString "id") with
    | some (.string value), some (.string id) => return { value, id }
    | _, _ => throw invalidCursor

/-- What a row's column is compared with: a date, which may be an invalid one, or a text. -/
inductive Boundary where
  | date (instant : Option Int)
  | text (value : String)
  deriving DecidableEq, Repr

def Cursor.boundary (cursor : Cursor) : Boundary :=
  if isIsoInstant (codePoints cursor.value) then .date (dateOfIso (codePoints cursor.value))
  else .text (toText cursor.value)

/-- `gt` or `lt` -/
def SortDirection.past {α : Type} [LT α] [DecidableLT α] (direction : SortDirection) (boundary x : α) : Bool :=
  match direction with
  | .asc => decide (boundary < x)
  | .desc => decide (x < boundary)

/-- The instant that a column of instants is compared with. A text is read by the client library,
which refuses what it takes for no date. -/
def Boundary.instant (readDateTime : String → Option Int) : Boundary → Except Failure Int
  | .date (some t) => .ok t
  | .date none => .error (.error "PrismaClientValidationError")
  | .text value => (readDateTime value).elim (.error (.error "PrismaClientValidationError")) .ok

section Rows

variable {ρ : Type} (field : ρ → Int) (id : ρ → String) (direction : SortDirection)

/-- Strictly after the row of the cursor: past its value, or level with it and past its id. -/
def keysetWhere (readDateTime : String → Option Int) (cursor : Cursor) : Except Failure (ρ → Bool) := do
  let boundary ← cursor.boundary.instant readDateTime
  return fun row => direction.past boundary (field row) ||
    (decide (field row = boundary) && direction.past (toText cursor.id) (id row))

/-- The column, then the id. -/
def keysetOrderBy (r s : ρ) : Prop :=
  match direction with
  | .asc => field r < field s ∨ field r = field s ∧ id r ≤ id s
  | .desc => field s < field r ∨ field s = field r ∧ id s ≤ id r

instance : DecidableRel (keysetOrderBy field id direction) := fun r s =>
  match direction with
  | .asc => inferInstanceAs (Decidable (field r < field s ∨ field r = field s ∧ id r ≤ id s))
  | .desc => inferInstanceAs (Decidable (field s < field r ∨ field s = field r ∧ id s ≤ id r))

end Rows

structure Page (ρ : Type) where
  items : List ρ
  nextCursor : Option String

/-- A page of rows that were read with one more than the limit. -/
def toPage {ρ : Type} (id : ρ → String) (rows : List ρ) (limit : Nat) (sortValue : ρ → List Char) : Page ρ :=
  let hasMore := decide (rows.length > limit)
  let items := if hasMore then rows.take limit else rows
  { items
    nextCursor :=
      match hasMore, items.getLast? with
      | true, some last => some (encodeCursor { value := (sortValue last).flatMap units, id := ofString (id last) })
      | _, _ => none }

/-- A place in the order of a column and the id. -/
structure Position (direction : SortDirection) where
  value : Int
  id : String
  deriving DecidableEq

namespace Position

variable {direction : SortDirection}

def toPair (p : Position direction) : Int ×ₗ String :=
  toLex (p.value, p.id)

theorem toPair_injective : Function.Injective (@toPair direction) := by
  rintro ⟨value, id⟩ ⟨value', id'⟩ h
  cases toLex.injective h
  rfl

/-- Positions are ordered in the direction that is asked for. -/
instance : LinearOrder (Position direction) :=
  match direction with
  | .asc => LinearOrder.lift' toPair toPair_injective
  | .desc => LinearOrder.lift' (fun p => OrderDual.toDual (toPair p))
      (OrderDual.toDual.injective.comp toPair_injective)

theorem lt_asc {p q : Position .asc} : p < q ↔ p.value < q.value ∨ p.value = q.value ∧ p.id < q.id :=
  Prod.Lex.toLex_lt_toLex

theorem le_asc {p q : Position .asc} : p ≤ q ↔ p.value < q.value ∨ p.value = q.value ∧ p.id ≤ q.id :=
  Prod.Lex.toLex_le_toLex

theorem le_desc {p q : Position .desc} : p ≤ q ↔ q.value < p.value ∨ q.value = p.value ∧ q.id ≤ p.id :=
  Prod.Lex.toLex_le_toLex

end Position

section Reading

variable {ρ : Type} {field : ρ → Int} {id : ρ → String} {direction : SortDirection}

/-- The place of a row. -/
def positionOf (field : ρ → Int) (id : ρ → String) (direction : SortDirection) (row : ρ) : Position direction where
  value := field row
  id := id row

theorem keysetOrderBy_iff {r s : ρ} :
    keysetOrderBy field id direction r s ↔ positionOf field id direction r ≤ positionOf field id direction s := by
  cases direction with
  | asc =>
    rw [Position.le_asc]
    rfl
  | desc =>
    rw [Position.le_desc]
    rfl

/-- The order of a query is the order of positions. -/
theorem insertionSort_keysetOrderBy (rows : List ρ) :
    rows.insertionSort (keysetOrderBy field id direction) =
      Keyset.sorted (positionOf field id direction) rows := by
  have h : keysetOrderBy field id direction =
      fun r s => positionOf field id direction r ≤ positionOf field id direction s := by
    funext r s
    exact propext keysetOrderBy_iff
  unfold Keyset.sorted
  congr!

end Reading

end BookingApp

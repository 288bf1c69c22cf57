import BookingApp.Office.BookingList

/-!
# Cursors that clients make up (`office/cursor.ts`)

A cursor is any text a client sends. What is no JSON object with two texts is refused.
The rest is taken for the place of a row: its value is not asked to be one of the
column, and what the client library or the database makes of it comes later.
-/

set_option autoImplicit false

namespace BookingApp

open Encoding

/-- Which texts and instants the database takes as parameters of a statement. -/
structure Parameters where
  takesText : String → Bool
  takesInstant : Int → Bool

/-- The error of a parameter that the database does not take. -/
def invalidParameter : Failure :=
  .database { sqlState := some "22000", message := "invalid parameter" }

/-- The place that a cursor names, handed to the database as parameters. -/
def Parameters.bind (parameters : Parameters) (readDateTime : String → Option Int) (cursor : Cursor) :
    Except Failure (Int × String) := do
  let boundary ← cursor.boundary.instant readDateTime
  if parameters.takesInstant boundary && parameters.takesText (toText cursor.id) then
    return (boundary, toText cursor.id)
  else throw invalidParameter

/-- The rows of a listing that come after the cursor. -/
def rowsAfter {ρ : Type} (parameters : Parameters) (readDateTime : String → Option Int) (field : ρ → Int)
    (id : ρ → String) (direction : SortDirection) (raw : String) : Except Failure (ρ → Bool) := do
  let cursor ← decodeCursor raw
  let later ← keysetWhere field id direction readDateTime cursor
  discard (parameters.bind readDateTime cursor)
  return later

/-- The row comes strictly after an instant and an id, in this order. -/
def past {ρ : Type} (field : ρ → Int) (id : ρ → String) (direction : SortDirection) (t : Int) (i : String)
    (row : ρ) : Bool :=
  direction.past t (field row) || (decide (field row = t) && direction.past i (id row))

section Cursors

variable {ρ : Type} {field : ρ → Int} {id : ρ → String} {direction : SortDirection} {parameters : Parameters}
  {readDateTime : String → Option Int} {raw : String} {cursor : Cursor}

/-- The list of bookings asks for these rows, whichever its order. -/
theorem rowsAfter_fromCursor {client : OfficeBookings.Client} {sort : OfficeBookings.BookingSort}
    {rows : OfficeBookings.ListRow → Bool}
    (h : rowsAfter parameters client.readDateTime sort.field OfficeBookings.ListRow.id sort.direction raw = .ok rows) :
    OfficeBookings.fromCursor client sort (some raw) = .ok rows := by
  obtain ⟨cursor, hcursor, hrest⟩ := bind_eq_ok.mp h
  obtain ⟨later, hlater, hbound⟩ := bind_eq_ok.mp hrest
  obtain ⟨-, -, hpure⟩ := bind_eq_ok.mp hbound
  obtain rfl := Except.ok.inj hpure
  exact bind_eq_ok.mpr ⟨cursor, hcursor, hlater⟩

end Cursors

/-- The cursor of a row that is sorted by its name. -/
def Cursor.named : Cursor where
  value := ofString "Ada"
  id := ofString "b"

/-- The database takes the texts without a zero character and the instants from the year 1 on. -/
def Parameters.sample : Parameters where
  takesText text := !text.toList.contains (Char.ofNat 0)
  takesInstant t := decide (-62135596800000 ≤ t)

end BookingApp

import Mathlib.Data.Rat.Defs
import BookingApp.Encoding.Bytes
import BookingApp.Encoding.Rfc4180

/-!
# CSV for German Excel (`office/csv.ts`)

The rows of an export as text. A cell that a spreadsheet might execute is defused first,
numbers excepted, and quoted after that where it needs to be. Read by the grammar of
RFC 4180 the text gives the defused cells back, and none of these is a formula.
-/

set_option autoImplicit false

namespace BookingApp

open Encoding Rfc4180

/-- Excel's list separator on a German machine. -/
def CSV_DELIMITER : CodeUnit := codeUnit 0x3B

def CSV_QUOTE : CodeUnit := codeUnit 0x22

/-- RFC 4180's line terminator. -/
def CSV_NEWLINE : List CodeUnit := [codeUnit 0x0D, codeUnit 0x0A]

/-- A cell needs quoting when it contains the delimiter, a quote, or a line break. -/
def NEEDS_QUOTING (value : List CodeUnit) : Bool :=
  value.any fun u => decide (u ∈ [CSV_DELIMITER, CSV_QUOTE, codeUnit 0x0D, codeUnit 0x0A])

/-- A leading character a spreadsheet may read as the start of a formula: one of `=+-@`, a tabulator
or a carriage return. -/
def FORMULA_LEAD (value : List CodeUnit) : Bool :=
  value.head?.any fun u => decide (u.val ∈ [0x3D, 0x2B, 0x2D, 0x40, 0x09, 0x0D])

/-- `\d` -/
def isDecimal (u : CodeUnit) : Bool :=
  decide (0x30 ≤ u.val ∧ u.val ≤ 0x39)

/-- What follows the whole part of a plain number. -/
def isFraction : List CodeUnit → Bool
  | [] => true
  | mark :: digits => decide (mark.val = 0x2E ∨ mark.val = 0x2C) && !digits.isEmpty && digits.all isDecimal

def isUnsigned (value : List CodeUnit) : Bool :=
  !(value.takeWhile isDecimal).isEmpty && isFraction (value.dropWhile isDecimal)

/-- A plain number, which no spreadsheet parses as a formula: `/^-?\d+([.,]\d+)?$/`. -/
def PLAIN_NUMBER (value : List CodeUnit) : Bool :=
  isUnsigned (if value.head?.any (fun u => decide (u.val = 0x2D)) then value.tail else value)

/-- Defuse a cell a spreadsheet might execute. -/
def neutralise (value : List CodeUnit) : List CodeUnit :=
  if PLAIN_NUMBER value then value
  else if FORMULA_LEAD value then codeUnit 0x27 :: value
  else value

/-- What a row is made of; `null` and `undefined` are missing. -/
inductive CsvCell where
  | missing
  | number (value : Rat)
  | text (value : List CodeUnit)

section Rows

variable (stringOf : Rat → List CodeUnit)

/-- The text of a cell before it is quoted. -/
def CsvCell.value : CsvCell → List CodeUnit
  | missing => []
  | number value => neutralise (stringOf value)
  | text value => neutralise value

/-- `value.replaceAll('"', '""')` -/
def doubleQuotes (value : List CodeUnit) : List CodeUnit :=
  value.flatMap fun u => if u = CSV_QUOTE then [CSV_QUOTE, CSV_QUOTE] else [u]

def toCsvCell (cell : CsvCell) : List CodeUnit :=
  match cell with
  | .missing => []
  | cell =>
    let value := cell.value stringOf
    if NEEDS_QUOTING value then CSV_QUOTE :: doubleQuotes value ++ [CSV_QUOTE] else value

/-- One row, escaped and joined. -/
def toCsvRow (cells : List CsvCell) : List CodeUnit :=
  List.intercalate [CSV_DELIMITER] (cells.map (toCsvCell stringOf))

/-- A row plus its terminator, which is what a stream actually pushes. -/
def csvLine (cells : List CsvCell) : List CodeUnit :=
  toCsvRow stringOf cells ++ CSV_NEWLINE

end Rows

/-- The marks of the export among the code units. -/
def csvMarks : Marks CodeUnit where
  separator := CSV_DELIMITER
  quote := CSV_QUOTE
  cr := codeUnit 0x0D
  lf := codeUnit 0x0A
  distinct := by decide

section Survives

variable {stringOf : Rat → List CodeUnit}

theorem isText_of_notQuoted {value : List CodeUnit} (h : NEEDS_QUOTING value = false) :
    ∀ u ∈ value, csvMarks.IsText u := by
  intro u hu
  have hno := List.any_eq_false.mp h u hu
  simpa [Marks.IsText, csvMarks] using hno

/-- A cell is written as a field of the grammar. -/
theorem toCsvCell_field (cell : CsvCell) : Field csvMarks (cell.value stringOf) (toCsvCell stringOf cell) := by
  have hquoted : ∀ value, Field csvMarks value
      (if NEEDS_QUOTING value then CSV_QUOTE :: doubleQuotes value ++ [CSV_QUOTE] else value) := by
    intro value
    cases hneeds : NEEDS_QUOTING value with
    | true => exact .escaped value
    | false => exact .plain (isText_of_notQuoted hneeds)
  cases cell with
  | missing => exact .plain fun u hu => absurd hu List.not_mem_nil
  | number value => exact hquoted _
  | text value => exact hquoted _

theorem toCsvRow_record {cells : List CsvCell} (h : cells ≠ []) :
    Record csvMarks (cells.map (CsvCell.value stringOf)) (toCsvRow stringOf cells) := by
  apply record_intercalate
  · rw [List.forall₂_map_left_iff, List.forall₂_map_right_iff]
    exact List.forall₂_same.mpr fun cell _ => toCsvCell_field cell
  · simpa using h

/-- The rows are read back, cell by cell. -/
theorem parse_csvLine (stringOf : Rat → List CodeUnit) (rows : List (List CsvCell)) (h : ∀ row ∈ rows, row ≠ []) :
    parse csvMarks (rows.flatMap (csvLine stringOf)) = some (rows.map fun row => row.map (CsvCell.value stringOf)) := by
  have hrecords : List.Forall₂ (Record csvMarks) (rows.map fun row => row.map (CsvCell.value stringOf))
      (rows.map (toCsvRow stringOf)) := by
    rw [List.forall₂_map_left_iff, List.forall₂_map_right_iff]
    exact List.forall₂_same.mpr fun row hrow => toCsvRow_record (h row hrow)
  have hfile := file_flatMap hrecords
  rw [List.flatMap_map] at hfile
  exact parse_of_file hfile

/-! ## No formula is written -/

/-- A cell begins as a formula does only where it is a plain number. -/
theorem plainNumber_of_formulaLead {value : List CodeUnit} (h : FORMULA_LEAD (neutralise value) = true) :
    PLAIN_NUMBER (neutralise value) = true := by
  unfold neutralise at h ⊢
  split
  · assumption
  · next hplain =>
    rw [if_neg hplain] at h
    split at h
    · have hquote : FORMULA_LEAD (codeUnit 0x27 :: value) = false := rfl
      rw [hquote] at h
      exact Bool.noConfusion h
    · next hlead => exact absurd h hlead

/-- The digits of a number. -/
def decimal (n : Nat) : List CodeUnit :=
  (Nat.toDigits 10 n).map fun c => codeUnit c.toNat

/-- Cents as a decimal string with a comma, which is what German Excel reads as a number. -/
def csvAmount (amountCents : Int) : List CodeUnit :=
  let sign := if amountCents < 0 then [codeUnit 0x2D] else []
  let absolute := amountCents.natAbs
  sign ++ decimal (absolute / 100) ++ codeUnit 0x2C :: (decimal (absolute % 100)).leftpad 2 (codeUnit 0x30)

theorem isDecimal_of_mem_decimal {n : Nat} {u : CodeUnit} (h : u ∈ decimal n) : isDecimal u = true := by
  obtain ⟨c, hc, rfl⟩ := List.mem_map.mp h
  have hdigit := Nat.isDigit_of_mem_toDigits (by decide) (by decide) hc
  have hrange : 0x30 ≤ c.toNat ∧ c.toNat ≤ 0x39 := by
    simp only [Char.isDigit, Bool.and_eq_true, decide_eq_true_eq] at hdigit
    exact ⟨UInt32.le_iff_toNat_le.mp hdigit.1, UInt32.le_iff_toNat_le.mp hdigit.2⟩
  rw [isDecimal, val_codeUnit (by omega)]
  exact decide_eq_true hrange

theorem isUnsigned_amount (whole cents : Nat) :
    isUnsigned (decimal whole ++ codeUnit 0x2C :: (decimal cents).leftpad 2 (codeUnit 0x30)) = true := by
  have hmark : isDecimal (codeUnit 0x2C) = false := by decide
  have hcents : ∀ u ∈ (decimal cents).leftpad 2 (codeUnit 0x30), isDecimal u = true := by
    intro u hu
    rcases List.mem_append.mp hu with hu | hu
    · rw [(List.mem_replicate.mp hu).2]
      decide
    · exact isDecimal_of_mem_decimal hu
  have hne : (decimal cents).leftpad 2 (codeUnit 0x30) ≠ [] := by
    apply List.append_ne_nil_of_right_ne_nil
    simp [decimal]
  have hwhole : decimal whole ≠ [] := by simp [decimal]
  generalize (decimal cents).leftpad 2 (codeUnit 0x30) = digits at hcents hne ⊢
  rw [isUnsigned, List.takeWhile_append_of_pos fun u hu => isDecimal_of_mem_decimal hu,
    List.dropWhile_append_of_pos fun u hu => isDecimal_of_mem_decimal hu, List.takeWhile_cons, List.dropWhile_cons,
    hmark]
  simp [isFraction, hwhole, hne, List.all_eq_true.mpr hcents, val_codeUnit]

theorem plainNumber_of_isUnsigned {value : List CodeUnit} (h : isUnsigned value = true) :
    PLAIN_NUMBER value = true := by
  cases value with
  | nil => cases h
  | cons u rest =>
    have hne : u.val ≠ 0x2D := by
      intro hminus
      have hdigit : isDecimal u = false := by simp [isDecimal, hminus]
      simp [isUnsigned, hdigit] at h
    rw [PLAIN_NUMBER, List.head?_cons, Option.any_some, if_neg (by simpa using hne)]
    exact h

/-- Amounts are plain numbers, so the export leaves them as they are. -/
theorem neutralise_csvAmount (amountCents : Int) : neutralise (csvAmount amountCents) = csvAmount amountCents := by
  have hplain : PLAIN_NUMBER (csvAmount amountCents) = true := by
    have hunsigned := isUnsigned_amount (amountCents.natAbs / 100) (amountCents.natAbs % 100)
    unfold PLAIN_NUMBER csvAmount
    dsimp only
    split
    · exact hunsigned
    · exact plainNumber_of_isUnsigned hunsigned
  exact if_pos hplain

/-- The defused cells of rows of texts. -/
def neutralised (rows : List (List (List CodeUnit))) : List (List (List CodeUnit)) :=
  rows.map fun row => row.map neutralise

/-- The text of rows of texts. -/
def csvText (stringOf : Rat → List CodeUnit) (rows : List (List (List CodeUnit))) : List CodeUnit :=
  rows.flatMap fun row => csvLine stringOf (row.map CsvCell.text)

/-- Rows of texts survive, defused, and no cell that is read back is a formula. -/
theorem csvText_survives (stringOf : Rat → List CodeUnit) (rows : List (List (List CodeUnit)))
    (h : ∀ row ∈ rows, row ≠ []) :
    parse csvMarks (csvText stringOf rows) = some (neutralised rows) ∧
      ∀ row ∈ neutralised rows, ∀ cell ∈ row, FORMULA_LEAD cell = true → PLAIN_NUMBER cell = true := by
  constructor
  · have hcells : ∀ row ∈ rows.map (List.map CsvCell.text), row ≠ [] := by
      intro row hrow
      obtain ⟨texts, htexts, rfl⟩ := List.mem_map.mp hrow
      simpa using h texts htexts
    have hparse := parse_csvLine stringOf _ hcells
    rw [List.flatMap_map, List.map_map] at hparse
    rw [csvText, hparse, neutralised]
    simp [CsvCell.value]
  · intro row hrow cell hcell
    obtain ⟨texts, -, rfl⟩ := List.mem_map.mp hrow
    obtain ⟨text, -, rfl⟩ := List.mem_map.mp hcell
    exact plainNumber_of_formulaLead

/-- A name that is a formula, with a quote and a line break, next to an amount. -/
theorem csvText_survives_sample :
    parse csvMarks (csvText (fun _ => []) [[ofString "=\"a\";\r\n", ofString "-45,00"], [[]]]) =
      some [[ofString "'=\"a\";\r\n", ofString "-45,00"], [[]]] := by
  have h := (csvText_survives (fun _ => []) [[ofString "=\"a\";\r\n", ofString "-45,00"], [[]]] (by decide)).1
  rw [h]
  decide

end Survives

end BookingApp

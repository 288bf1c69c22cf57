import Mathlib.Data.List.Sort
import Mathlib.Data.List.Infix
import Mathlib.Data.List.Lex
import Mathlib.Data.Rat.Defs
import BookingApp.Encoding.Bytes

/-!
# Request fingerprints (`messaging/idempotency/request-hash.ts`)

A fingerprint is the hash of a canonical form of the parsed body and of the route
target. The order of names and the spelling of an email carry no meaning, and all
else does. Rendering the canonical form and hashing it lose nothing, so two
fingerprints agree when the canonical forms do (`SameFingerprint`).
-/

set_option autoImplicit false

namespace BookingApp

open Encoding

/-- A text as JavaScript has it. -/
abbrev Text : Type := List CodeUnit

/-- A JSON value over texts of some kind. The fields of an object are in the order in which they
are listed. -/
inductive Json (τ : Type) where
  | null
  | bool (value : Bool)
  | num (value : Rat)
  | str (value : τ)
  | arr (items : List (Json τ))
  | obj (fields : List (τ × Json τ))

namespace Json

variable {τ : Type}

/-- The value under a name, which only an object has. -/
def field [BEq τ] (name : τ) : Json τ → Option (Json τ)
  | obj fields => fields.lookup name
  | _ => none

/-- The text of a value that is one. -/
def text : Json τ → Option τ
  | str value => some value
  | _ => none

end Json

/-- Field names whose value is compared case- and whitespace-insensitively. -/
def NORMALISED_FIELDS : List Text :=
  [ofString "email"]

/-- `value.trim().toLowerCase()` -/
def normaliseText (value : String) : String :=
  let trimmed := (value.toList.dropWhile Char.isWhitespace).reverse.dropWhile Char.isWhitespace
  String.ofList (trimmed.reverse.map Char.toLower)

/-- The blanks and the line terminators of ECMAScript. -/
def isBlank (u : CodeUnit) : Bool :=
  decide (u.val ∈ [0x09, 0x0A, 0x0B, 0x0C, 0x0D, 0x20, 0xA0, 0x1680, 0x2028, 0x2029, 0x202F, 0x205F, 0x3000,
    0xFEFF]) || decide (0x2000 ≤ u.val ∧ u.val ≤ 0x200A)

/-- `value.trim()` -/
def trim (value : Text) : Text :=
  ((value.dropWhile isBlank).reverse.dropWhile isBlank).reverse

/-- Code-unit order, not locale order. -/
def compareKeys {α : Type} (a b : Text × α) : Prop :=
  a.1 ≤ b.1

instance {α : Type} : DecidableRel (@compareKeys α) := fun a b => inferInstanceAs (Decidable (a.1 ≤ b.1))

/-- The array index that a name is. -/
def arrayIndex (name : Text) : Option Nat :=
  let digits := name.map fun u => u.val - 48
  if name.all (fun u => decide (48 ≤ u.val ∧ u.val ≤ 57)) && (digits.head?.any (0 < ·) || decide (digits = [0])) then
    let index := digits.foldl (fun n d => n * 10 + d) 0
    if index < 4294967295 then some index else none
  else none

def compareIndices {α : Type} (a b : Text × α) : Prop :=
  (arrayIndex a.1).getD 0 ≤ (arrayIndex b.1).getD 0

instance {α : Type} : DecidableRel (@compareIndices α) := fun a b =>
  inferInstanceAs (Decidable ((arrayIndex a.1).getD 0 ≤ (arrayIndex b.1).getD 0))

/-- The order in which an object lists the fields it is made of: array indices first. -/
def fromEntries {α : Type} (entries : List (Text × α)) : List (Text × α) :=
  (entries.filter fun entry => (arrayIndex entry.1).isSome).insertionSort compareIndices ++
    entries.filter fun entry => (arrayIndex entry.1).isNone

section Canonicalise

variable (toLowerCase : Text → Text)

mutual

/-- The value with object keys in a fixed order and emails normalised. -/
def canonicalise (key : Option Text) : Json Text → Json Text
  | .str value => if key.any NORMALISED_FIELDS.contains then .str (toLowerCase (trim value)) else .str value
  | .arr items => .arr (canonicaliseItems items)
  | .obj fields => .obj (fromEntries ((canonicaliseFields fields).insertionSort compareKeys))
  | .null => .null
  | .bool value => .bool value
  | .num value => .num value

/-- Arrays keep their order. -/
def canonicaliseItems : List (Json Text) → List (Json Text)
  | [] => []
  | item :: rest => canonicalise none item :: canonicaliseItems rest

def canonicaliseFields : List (Text × Json Text) → List (Text × Json Text)
  | [] => []
  | (name, item) :: rest => (name, canonicalise (some name) item) :: canonicaliseFields rest

end

/-- What the fingerprint of a request is taken of. -/
def fingerprinted (body routeParams : Json Text) : Json Text :=
  .obj [(ofString "body", body), (ofString "routeParams", routeParams)]

/-- Two requests with the same `canonicalRequestHash`. -/
def SameFingerprint (body routeParams body' routeParams' : Json Text) : Prop :=
  canonicalise toLowerCase none (fingerprinted body routeParams) =
    canonicalise toLowerCase none (fingerprinted body' routeParams')

end Canonicalise

section Lookup

variable {α : Type} (name : Text)

/-- An entry passes others of its name on no way through a list that is sorted by names. -/
theorem lookup_orderedInsert {r : Text × α → Text × α → Prop} [DecidableRel r]
    (hr : ∀ a b, a.1 = b.1 → r a b) (entry : Text × α) (fields : List (Text × α)) :
    (fields.orderedInsert r entry).lookup name = (entry :: fields).lookup name := by
  induction fields with
  | nil => rfl
  | cons head rest ih =>
    rw [List.orderedInsert_cons]
    split
    · rfl
    · next hnot =>
      have hne : entry.1 ≠ head.1 := fun he => hnot (hr _ _ he)
      rw [List.lookup_cons, ih, List.lookup_cons, List.lookup_cons, List.lookup_cons]
      by_cases hentry : name = entry.1
      · have hhead : (entry.1 == head.1) = false := by simpa using hne
        simp [hentry, hhead]
      · have hno : (name == entry.1) = false := by simpa using hentry
        simp [hno]

theorem lookup_insertionSort {r : Text × α → Text × α → Prop} [DecidableRel r]
    (hr : ∀ a b, a.1 = b.1 → r a b) (fields : List (Text × α)) :
    (fields.insertionSort r).lookup name = fields.lookup name := by
  induction fields with
  | nil => rfl
  | cons entry rest ih =>
    rw [List.insertionSort_cons, lookup_orderedInsert name hr, List.lookup_cons, List.lookup_cons, ih]

/-- The entries of a kind that goes by the name. -/
theorem lookup_filter (p : Text → Bool) (fields : List (Text × α)) :
    (fields.filter fun entry => p entry.1).lookup name = if p name then fields.lookup name else none := by
  induction fields with
  | nil => simp
  | cons entry rest ih =>
    rw [List.filter_cons]
    by_cases hname : name = entry.1
    · subst hname
      by_cases hp : p entry.1 = true
      · rw [if_pos hp, if_pos hp, List.lookup_cons_self, List.lookup_cons_self]
      · rw [if_neg hp, if_neg hp, ih, if_neg hp]
    · have hno : (name == entry.1) = false := by simpa using hname
      split
      · rw [List.lookup_cons, ih, List.lookup_cons, hno]
      · rw [ih, List.lookup_cons, hno]

theorem lookup_fromEntries (entries : List (Text × α)) : (fromEntries entries).lookup name = entries.lookup name := by
  have hindex : ∀ a b : Text × α, a.1 = b.1 → compareIndices a b := by
    intro a b h
    rw [compareIndices, h]
  rw [fromEntries, List.lookup_append, lookup_insertionSort name hindex,
    lookup_filter name (fun n => (arrayIndex n).isSome), lookup_filter name (fun n => (arrayIndex n).isNone)]
  cases arrayIndex name <;> simp

end Lookup

variable {toLowerCase : Text → Text}

theorem lookup_canonicaliseFields (name : Text) (fields : List (Text × Json Text)) :
    (canonicaliseFields toLowerCase fields).lookup name =
      (fields.lookup name).map (canonicalise toLowerCase (some name)) := by
  induction fields with
  | nil => rfl
  | cons entry rest ih =>
    obtain ⟨key, item⟩ := entry
    rw [canonicaliseFields, List.lookup_cons, List.lookup_cons]
    by_cases h : name = key
    · simp [h]
    · have hne : (name == key) = false := by simpa using h
      rw [hne, ih]

/-- The fields of the canonical form are the canonical forms of the fields. -/
theorem field_canonicalise (key : Option Text) (name : Text) (value : Json Text) :
    (canonicalise toLowerCase key value).field name =
      (value.field name).map (canonicalise toLowerCase (some name)) := by
  cases value with
  | obj fields =>
    have hkeys : ∀ a b : Text × Json Text, a.1 = b.1 → compareKeys a b := by
      intro a b h
      rw [compareKeys, h]
    rw [canonicalise, Json.field, lookup_fromEntries, lookup_insertionSort _ hkeys, lookup_canonicaliseFields,
      Json.field]
  | str value =>
    rw [canonicalise]
    split <;> rfl
  | null => rfl
  | bool value => rfl
  | num value => rfl
  | arr items => rfl

/-- A text that is not normalised is its own canonical form, and the one of no other value. -/
theorem text_canonicalise {name : Text} (h : name ∉ NORMALISED_FIELDS) (value : Json Text) :
    (canonicalise toLowerCase (some name) value).text = value.text := by
  cases value with
  | str value =>
    have hname : (some name).any NORMALISED_FIELDS.contains = false := by simpa using h
    rw [canonicalise, hname]
    rfl
  | null => rfl
  | bool value => rfl
  | num value => rfl
  | arr items => rfl
  | obj fields => rfl

section SameFingerprint

variable {body routeParams body' routeParams' : Json Text}

theorem SameFingerprint.canonicalise_body (h : SameFingerprint toLowerCase body routeParams body' routeParams') :
    canonicalise toLowerCase (some (ofString "body")) body =
      canonicalise toLowerCase (some (ofString "body")) body' := by
  have hbody : ∀ value params, (fingerprinted value params).field (ofString "body") = some value := by
    intro value params
    rw [fingerprinted, Json.field, List.lookup_cons_self]
  have hfield := congrArg (Json.field (ofString "body")) h
  rw [field_canonicalise, field_canonicalise, hbody, hbody] at hfield
  exact Option.some.inj hfield

/-- Requests with the same fingerprint agree in every text of their bodies but the emails. -/
theorem SameFingerprint.text (h : SameFingerprint toLowerCase body routeParams body' routeParams')
    {name : Text} (hname : name ∉ NORMALISED_FIELDS) :
    (body.field name).bind Json.text = (body'.field name).bind Json.text := by
  have hread : ∀ value : Json Text, (value.field name).bind Json.text =
      ((canonicalise toLowerCase (some (ofString "body")) value).field name).bind Json.text := by
    intro value
    rw [field_canonicalise, Option.bind_map]
    congr 1
    funext item
    exact (text_canonicalise hname item).symm
  rw [hread body, hread body', h.canonicalise_body]

end SameFingerprint

end BookingApp

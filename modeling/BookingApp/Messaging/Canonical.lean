import Mathlib.Data.List.Perm.Basic
import BookingApp.Encoding.Json
import BookingApp.Messaging.Fingerprint

/-!
# Equal fingerprints (`messaging/idempotency/request-hash.ts`)

The text of a canonical form is read in one way only, so two requests share it exactly
when their canonical forms are one. These are one when the requests differ in the order
of names and in the spelling of emails at most (`Same`).
-/

set_option autoImplicit false

namespace BookingApp

open Encoding

theorem Json.induct {τ : Type} {motive : Json τ → Prop} (null : motive .null) (bool : ∀ value, motive (.bool value))
    (num : ∀ value, motive (.num value)) (str : ∀ value, motive (.str value))
    (arr : ∀ items, (∀ item ∈ items, motive item) → motive (.arr items))
    (obj : ∀ fields, (∀ entry ∈ fields, motive entry.2) → motive (.obj fields)) (value : Json τ) : motive value :=
  @Json.rec τ motive (fun items => ∀ item ∈ items, motive item) (fun fields => ∀ entry ∈ fields, motive entry.2)
    (fun entry => motive entry.2) null bool num str arr obj (List.forall_mem_nil _)
    (fun _ _ hitem hrest => List.forall_mem_cons.mpr ⟨hitem, hrest⟩) (List.forall_mem_nil _)
    (fun _ _ hentry hrest => List.forall_mem_cons.mpr ⟨hentry, hrest⟩) (fun _ _ h => h) value

/-! ## The text of a value -/

/-- The characters of the text of a number. -/
def isNumeric (c : Char) : Bool :=
  c.isDigit || c = '-' || c = '+' || c = '.' || c = 'e'

/-- `JSON.stringify` of finite numbers. -/
structure NumberText where
  print : Rat → List Char
  injective : Function.Injective print
  nonempty : ∀ value, print value ≠ []
  numeric : ∀ value, ∀ c ∈ print value, isNumeric c = true

/-- `parts.join(',')` -/
def joined : List (List Char) → List Char :=
  List.intercalate [',']

section Stringify

variable (number : NumberText)

mutual

/-- `JSON.stringify` -/
def stringify : Json Text → List Char
  | .null => ['n', 'u', 'l', 'l']
  | .bool true => ['t', 'r', 'u', 'e']
  | .bool false => ['f', 'a', 'l', 's', 'e']
  | .num value => number.print value
  | .str value => quote value
  | .arr items => '[' :: joined (stringifyItems items) ++ [']']
  | .obj fields => '{' :: joined (stringifyFields fields) ++ ['}']

def stringifyItems : List (Json Text) → List (List Char)
  | [] => []
  | item :: rest => stringify item :: stringifyItems rest

def stringifyFields : List (Text × Json Text) → List (List Char)
  | [] => []
  | (name, item) :: rest => (quote name ++ ':' :: stringify item) :: stringifyFields rest

end

/-- The canonical JSON form. -/
def canonicalRequestJson (toLowerCase : Text → Text) (body : Json Text) : List Char :=
  stringify number (canonicalise toLowerCase none body)

end Stringify

theorem isNumeric_of_mem_toDigits {n : Nat} {c : Char} (h : c ∈ Nat.toDigits 10 n) : isNumeric c = true ∧ c ≠ '.' := by
  have hdigit := Nat.isDigit_of_mem_toDigits (by decide) (by decide) h
  constructor
  · simp [isNumeric, hdigit]
  · rintro rfl
    exact absurd hdigit (by decide)

theorem toDigits_injective : Function.Injective (Nat.toDigits 10) := by
  intro m n h
  have hread := congrArg (fun digits => Nat.ofDigitChars 10 digits 0) h
  simpa only [Nat.ofDigitChars_ten_toDigits] using hread

/-- The digits of an integer after its sign. -/
def signed : Int → List Char
  | .ofNat n => Nat.toDigits 10 n
  | .negSucc n => '-' :: Nat.toDigits 10 (n + 1)

theorem isNumeric_of_mem_signed {n : Int} {c : Char} (h : c ∈ signed n) : isNumeric c = true ∧ c ≠ '.' := by
  cases n with
  | ofNat n => exact isNumeric_of_mem_toDigits h
  | negSucc n =>
    rcases List.mem_cons.mp h with rfl | h
    · decide
    · exact isNumeric_of_mem_toDigits h

theorem signed_injective : Function.Injective signed := by
  have hsign : ∀ m n : Nat, Nat.toDigits 10 m ≠ '-' :: Nat.toDigits 10 n := by
    intro m n h
    have hmem : '-' ∈ Nat.toDigits 10 m := h ▸ List.mem_cons_self ..
    exact absurd (Nat.isDigit_of_mem_toDigits (by decide) (by decide) hmem) (by decide)
  intro m n h
  cases m with
  | ofNat m =>
    cases n with
    | ofNat n => exact congrArg Int.ofNat (toDigits_injective h)
    | negSucc n => exact absurd h (hsign _ _)
  | negSucc m =>
    cases n with
    | ofNat n => exact absurd h.symm (hsign _ _)
    | negSucc n => exact congrArg Int.negSucc (Nat.succ.inj (toDigits_injective (List.cons.inj h).2))

/-- The part of the text of a ratio that follows its numerator. -/
def denominator (value : Rat) : List Char :=
  if value.den = 1 then [] else '.' :: Nat.toDigits 10 value.den

theorem takeWhile_numerator (value : Rat) :
    (signed value.num ++ denominator value).takeWhile (fun c => decide (c ≠ '.')) = signed value.num := by
  rw [List.takeWhile_append_of_pos fun c hc => decide_eq_true (isNumeric_of_mem_signed hc).2, denominator]
  split <;> simp

/-- Integers as they are written, and other numbers by the digits of their ratios. -/
def ratioText (value : Rat) : List Char :=
  signed value.num ++ denominator value

theorem ratioText_injective : Function.Injective ratioText := by
  intro x y h
  unfold ratioText at h
  have hnum : signed x.num = signed y.num := by
    rw [← takeWhile_numerator x, ← takeWhile_numerator y, h]
  rw [hnum] at h
  have hden := List.append_cancel_left h
  apply Rat.ext (signed_injective hnum)
  unfold denominator at hden
  split at hden
  · split at hden
    · omega
    · cases hden
  · split at hden
    · cases hden
    · exact toDigits_injective (List.cons.inj hden).2

theorem ratioText_nonempty (value : Rat) : ratioText value ≠ [] := by
  intro h
  have hnum := (List.append_eq_nil_iff.mp h).1
  revert hnum
  cases value.num with
  | ofNat n => exact Nat.toDigits_ne_nil
  | negSucc n => exact List.cons_ne_nil _ _

theorem isNumeric_of_mem_ratioText {value : Rat} {c : Char} (h : c ∈ ratioText value) : isNumeric c = true := by
  rcases List.mem_append.mp h with h | h
  · exact (isNumeric_of_mem_signed h).1
  · unfold denominator at h
    split at h
    · cases h
    · rcases List.mem_cons.mp h with rfl | h
      · rfl
      · exact (isNumeric_of_mem_toDigits h).1

def NumberText.ratios : NumberText where
  print := ratioText
  injective := ratioText_injective
  nonempty := ratioText_nonempty
  numeric _ _ := isNumeric_of_mem_ratioText

/-! ## The text is read in one way -/

/-- What can follow a value inside of a text. -/
def Ends (rest : List Char) : Prop :=
  ∀ c ∈ rest.head?, c = ',' ∨ c = ']' ∨ c = '}'

theorem Ends.cons {c : Char} {rest : List Char} (h : c = ',' ∨ c = ']' ∨ c = '}') : Ends (c :: rest) := by
  intro c' hc'
  obtain rfl := Option.mem_some_iff.mp hc'
  exact h

/-- The text of a value cannot be taken for the one of another value, wherever it ends. -/
def Readable {α : Type} (text : α → List Char) (x : α) : Prop :=
  ∀ y rest rest', Ends rest → Ends rest' → text x ++ rest = text y ++ rest' → x = y ∧ rest = rest'

section Joined

variable {α : Type} {text : α → List Char} {close : Char}

theorem joined_cons (part : List Char) (parts : List (List Char)) :
    joined (part :: parts) = part ++ parts.flatMap (List.cons ',') := by
  induction parts generalizing part with
  | nil => simp [joined]
  | cons next parts ih =>
    rw [joined, List.intercalate_cons_cons, ← joined, ih, List.flatMap_cons, List.append_assoc]
    rfl

/-- What follows a part ends it: a comma, or the bracket. -/
theorem ends_parts (hclose : close = ']' ∨ close = '}') (parts : List (List Char)) (rest : List Char) :
    Ends (parts.flatMap (List.cons ',') ++ close :: rest) := by
  cases parts with
  | nil => exact Ends.cons (.inr hclose)
  | cons part parts => exact Ends.cons (.inl rfl)

theorem parts_readable (hclose : close = ']' ∨ close = '}') {xs : List α} (hread : ∀ x ∈ xs, Readable text x)
    {ys : List α} {rest rest' : List Char}
    (h : (xs.map text).flatMap (List.cons ',') ++ close :: rest =
      (ys.map text).flatMap (List.cons ',') ++ close :: rest') : xs = ys ∧ rest = rest' := by
  have hcomma : ',' ≠ close := by
    rintro rfl
    exact absurd hclose (by decide)
  induction xs generalizing ys with
  | nil =>
    cases ys with
    | nil => exact ⟨rfl, (List.cons.inj h).2⟩
    | cons y ys => exact absurd (List.cons.inj h).1.symm hcomma
  | cons x xs ih =>
    cases ys with
    | nil => exact absurd (List.cons.inj h).1 hcomma
    | cons y ys =>
      rw [List.map_cons, List.map_cons, List.flatMap_cons, List.flatMap_cons, List.append_assoc, List.append_assoc] at h
      obtain ⟨rfl, hparts⟩ := hread x (List.mem_cons_self ..) y _ _ (ends_parts hclose _ _) (ends_parts hclose _ _)
        (List.cons.inj h).2
      obtain ⟨rfl, hrest⟩ := ih (fun x hx => hread x (List.mem_cons_of_mem _ hx)) hparts
      exact ⟨rfl, hrest⟩

/-- The parts between the brackets are read one by one. -/
theorem joined_readable (hclose : close = ']' ∨ close = '}') (hhead : ∀ y rest, (text y ++ rest).head? ≠ some close)
    {xs : List α} (hread : ∀ x ∈ xs, Readable text x) {ys : List α} {rest rest' : List Char}
    (h : joined (xs.map text) ++ close :: rest = joined (ys.map text) ++ close :: rest') : xs = ys ∧ rest = rest' := by
  have hno : ∀ (y : α) (ys : List α) rest rest',
      close :: rest ≠ joined ((y :: ys).map text) ++ close :: rest' := by
    intro y ys rest rest' heq
    rw [List.map_cons, joined_cons, List.append_assoc] at heq
    exact hhead y _ (congrArg List.head? heq).symm
  cases xs with
  | nil =>
    cases ys with
    | nil => exact ⟨rfl, (List.cons.inj h).2⟩
    | cons y ys => exact absurd h (hno y ys _ _)
  | cons x xs =>
    cases ys with
    | nil => exact absurd h.symm (hno x xs _ _)
    | cons y ys =>
      rw [List.map_cons, List.map_cons, joined_cons, joined_cons, List.append_assoc, List.append_assoc] at h
      obtain ⟨rfl, hparts⟩ := hread x (List.mem_cons_self ..) y _ _ (ends_parts hclose _ _) (ends_parts hclose _ _) h
      obtain ⟨rfl, hrest⟩ := parts_readable hclose (fun x hx => hread x (List.mem_cons_of_mem _ hx)) hparts
      exact ⟨rfl, hrest⟩

end Joined

section Read

variable {number : NumberText}

theorem stringifyItems_eq_map (items : List (Json Text)) :
    stringifyItems number items = items.map (stringify number) := by
  induction items with
  | nil => rfl
  | cons item rest ih => rw [stringifyItems, ih, List.map_cons]

/-- A field of an object: its name, a colon and its value. -/
def stringifyField (number : NumberText) (entry : Text × Json Text) : List Char :=
  quote entry.1 ++ ':' :: stringify number entry.2

theorem stringifyFields_eq_map (fields : List (Text × Json Text)) :
    stringifyFields number fields = fields.map (stringifyField number) := by
  induction fields with
  | nil => rfl
  | cons entry rest ih => rw [stringifyFields, ih, List.map_cons, stringifyField]

/-- Which kind of value begins with a character. -/
def kindOf (c : Char) : Nat :=
  if c = 'n' then 0 else if c = 't' || c = 'f' then 1 else if c = '"' then 2 else if c = '[' then 3
  else if c = '{' then 4 else 5

def Json.kind : Json Text → Nat
  | .null => 0
  | .bool _ => 1
  | .str _ => 2
  | .arr _ => 3
  | .obj _ => 4
  | .num _ => 5

theorem kindOf_numeric {c : Char} (h : isNumeric c = true) : kindOf c = 5 := by
  have hnot : ∀ d ∈ ['n', 't', 'f', '"', '[', '{'], c ≠ d := by
    rintro d hd rfl
    have hnone : (['n', 't', 'f', '"', '[', '{'].all fun d => !isNumeric d) = true := by decide
    have hc := List.all_eq_true.mp hnone c hd
    rw [h] at hc
    exact Bool.noConfusion hc
  simp only [List.mem_cons, List.not_mem_nil, or_false, forall_eq_or_imp, forall_eq] at hnot
  simp [kindOf, hnot]

theorem stringify_head (number : NumberText) (value : Json Text) :
    ∃ c rest, stringify number value = c :: rest ∧ kindOf c = value.kind := by
  cases value with
  | null => exact ⟨_, _, rfl, rfl⟩
  | bool value => cases value <;> exact ⟨_, _, rfl, rfl⟩
  | num value =>
    obtain ⟨c, rest, hprint⟩ := List.exists_cons_of_ne_nil (number.nonempty value)
    exact ⟨c, rest, hprint, kindOf_numeric (number.numeric value c (by simp [hprint]))⟩
  | str value => exact ⟨_, _, rfl, rfl⟩
  | arr items => exact ⟨_, _, rfl, rfl⟩
  | obj fields => exact ⟨_, _, rfl, rfl⟩

theorem kind_eq {a b : Json Text} {rest rest' : List Char}
    (h : stringify number a ++ rest = stringify number b ++ rest') : a.kind = b.kind := by
  obtain ⟨c, texta, ha, hkinda⟩ := stringify_head number a
  obtain ⟨d, textb, hb, hkindb⟩ := stringify_head number b
  rw [ha, hb, List.cons_append, List.cons_append] at h
  rw [← hkinda, ← hkindb, (List.cons.inj h).1]

theorem takeWhile_numeric {text rest : List Char} (htext : ∀ c ∈ text, isNumeric c = true) (hrest : Ends rest) :
    (text ++ rest).takeWhile isNumeric = text := by
  rw [List.takeWhile_append_of_pos htext]
  cases rest with
  | nil => simp
  | cons c rest =>
    have hno : isNumeric c = false := by
      rcases hrest c rfl with rfl | rfl | rfl <;> decide
    simp [hno]

theorem quote_readable {s s' : Text} {rest rest' : List Char} (h : quote s ++ rest = quote s' ++ rest') :
    s = s' ∧ rest = rest' := by
  rw [quote_append, quote_append] at h
  have hread := congrArg unquote (List.cons.inj h).2
  rw [unquote_quoteBody, unquote_quoteBody] at hread
  exact Prod.mk.inj (Option.some.inj hread)

theorem stringify_head_ne {close : Char} (h : kindOf close = 5 ∧ isNumeric close = false) (value : Json Text)
    (rest : List Char) : (stringify number value ++ rest).head? ≠ some close := by
  obtain ⟨c, text, htext, hkind⟩ := stringify_head number value
  rw [htext, List.cons_append, List.head?_cons]
  rintro hc
  obtain rfl := Option.some.inj hc
  cases value with
  | num value =>
    have hnumeric := number.numeric value c (by simp only [stringify] at htext; simp [htext])
    rw [hnumeric] at h
    exact Bool.noConfusion h.2
  | _ => cases h.1.symm.trans hkind

theorem stringifyField_readable {entry : Text × Json Text} (h : Readable (stringify number) entry.2) :
    Readable (stringifyField number) entry := by
  intro entry' rest rest' hrest hrest' htext
  rw [stringifyField, stringifyField, List.append_assoc, List.append_assoc] at htext
  obtain ⟨hname, hvalue⟩ := quote_readable htext
  obtain ⟨hitem, hends⟩ := h _ _ _ hrest hrest' (List.cons.inj hvalue).2
  exact ⟨Prod.ext hname hitem, hends⟩

/-- The text of a value cannot be taken for the one of another value. -/
theorem stringify_readable (value : Json Text) : Readable (stringify number) value := by
  induction value using Json.induct with
  | null =>
    intro b rest rest' _ _ h
    have hkind := kind_eq h
    cases b with
    | null => exact ⟨rfl, List.append_cancel_left h⟩
    | _ => cases hkind
  | bool value =>
    intro b rest rest' _ _ h
    have hkind := kind_eq h
    cases b with
    | bool value' => cases value <;> cases value' <;> simp_all [stringify]
    | _ => cases hkind
  | num value =>
    intro b rest rest' hrest hrest' h
    have hkind := kind_eq h
    cases b with
    | num value' =>
      have hprint := congrArg (List.takeWhile isNumeric) h
      rw [stringify, stringify, takeWhile_numeric (number.numeric value) hrest,
        takeWhile_numeric (number.numeric value') hrest'] at hprint
      obtain rfl := number.injective hprint
      exact ⟨rfl, List.append_cancel_left h⟩
    | _ => cases hkind
  | str value =>
    intro b rest rest' _ _ h
    have hkind := kind_eq h
    cases b with
    | str value' =>
      obtain ⟨rfl, hrest⟩ := quote_readable h
      exact ⟨rfl, hrest⟩
    | _ => cases hkind
  | arr items ih =>
    intro b rest rest' _ _ h
    have hkind := kind_eq h
    cases b with
    | arr items' =>
      rw [stringify, stringify, stringifyItems_eq_map, stringifyItems_eq_map] at h
      simp only [List.cons_append, List.append_assoc, List.nil_append] at h
      obtain ⟨rfl, hrest⟩ := joined_readable (.inl rfl) (fun y rest => stringify_head_ne (by decide) y rest) ih
        (List.cons.inj h).2
      exact ⟨rfl, hrest⟩
    | _ => cases hkind
  | obj fields ih =>
    intro b rest rest' _ _ h
    have hkind := kind_eq h
    cases b with
    | obj fields' =>
      rw [stringify, stringify, stringifyFields_eq_map, stringifyFields_eq_map] at h
      simp only [List.cons_append, List.append_assoc, List.nil_append] at h
      have hhead : ∀ (entry : Text × Json Text) rest, (stringifyField number entry ++ rest).head? ≠ some '\x7d' := by
        intro entry rest
        rw [stringifyField, List.append_assoc, quote_append]
        simp
      obtain ⟨rfl, hrest⟩ := joined_readable (.inr rfl) hhead (fun entry h => stringifyField_readable (ih entry h))
        (List.cons.inj h).2
      exact ⟨rfl, hrest⟩
    | _ => cases hkind

theorem stringify_injective : Function.Injective (stringify number) := by
  intro a b h
  have hends : Ends [] := by
    intro c hc
    cases hc
  exact (stringify_readable a b [] [] hends hends (by rw [h])).1

end Read

/-! ## The same request -/

/-- No object has two fields of one name, as nothing that was parsed does. -/
inductive Json.Distinct {τ : Type} : Json τ → Prop
  | null : Distinct .null
  | bool (value : Bool) : Distinct (.bool value)
  | num (value : Rat) : Distinct (.num value)
  | str (value : τ) : Distinct (.str value)
  | arr {items : List (Json τ)} (h : ∀ item ∈ items, Distinct item) : Distinct (.arr items)
  | obj {fields : List (τ × Json τ)} (hnames : (fields.map Prod.fst).Nodup)
      (h : ∀ entry ∈ fields, Distinct entry.2) : Distinct (.obj fields)

/-- A body that was parsed. -/
abbrev JsonBody : Type := { body : Json Text // body.Distinct }

section Same

variable (toLowerCase : Text → Text)

mutual

/-- The values are equal up to the order of the names at every depth, and up to the spelling of
the texts under the name of an email. -/
def Same (key : Option Text) : Json Text → Json Text → Prop
  | .null, .null => True
  | .bool value, .bool value' => value = value'
  | .num value, .num value' => value = value'
  | .str value, .str value' =>
    value = value' ∨ key = some (ofString "email") ∧ toLowerCase (trim value) = toLowerCase (trim value')
  | .arr items, .arr items' => SameItems items items'
  | .obj fields, .obj fields' => ∃ listed, listed.Perm fields' ∧ SameFields fields listed
  | _, _ => False

def SameItems : List (Json Text) → List (Json Text) → Prop
  | [], [] => True
  | item :: rest, item' :: rest' => Same none item item' ∧ SameItems rest rest'
  | _, _ => False

/-- The fields one by one. -/
def SameFields : List (Text × Json Text) → List (Text × Json Text) → Prop
  | [], [] => True
  | (name, item) :: rest, (name', item') :: rest' =>
    name = name' ∧ Same (some name) item item' ∧ SameFields rest rest'
  | _, _ => False

end

variable {toLowerCase} {key : Option Text}

theorem sameItems_iff {items items' : List (Json Text)} :
    SameItems toLowerCase items items' ↔ List.Forall₂ (Same toLowerCase none) items items' := by
  induction items generalizing items' with
  | nil => cases items' <;> simp [SameItems]
  | cons item rest ih => cases items' <;> simp [SameItems, ih]

theorem sameFields_iff {fields fields' : List (Text × Json Text)} :
    SameFields toLowerCase fields fields' ↔
      List.Forall₂ (fun entry entry' => entry.1 = entry'.1 ∧ Same toLowerCase (some entry.1) entry.2 entry'.2)
        fields fields' := by
  induction fields generalizing fields' with
  | nil => cases fields' <;> simp [SameFields]
  | cons entry rest ih => cases fields' <;> simp [SameFields, ih, and_assoc]

theorem canonicaliseItems_eq_map (items : List (Json Text)) :
    canonicaliseItems toLowerCase items = items.map (canonicalise toLowerCase none) := by
  induction items with
  | nil => rfl
  | cons item rest ih => rw [canonicaliseItems, ih, List.map_cons]

/-- A field with the canonical form of its value. -/
def canonicaliseField (toLowerCase : Text → Text) (entry : Text × Json Text) : Text × Json Text :=
  (entry.1, canonicalise toLowerCase (some entry.1) entry.2)

theorem canonicaliseFields_eq_map (fields : List (Text × Json Text)) :
    canonicaliseFields toLowerCase fields = fields.map (canonicaliseField toLowerCase) := by
  induction fields with
  | nil => rfl
  | cons entry rest ih => rw [canonicaliseFields, ih, List.map_cons, canonicaliseField]

theorem kind_canonicalise (value : Json Text) : (canonicalise toLowerCase key value).kind = value.kind := by
  cases value with
  | str value =>
    rw [canonicalise]
    split <;> rfl
  | _ => rfl

theorem canonicalise_str_eq_iff {value value' : Text} :
    canonicalise toLowerCase key (.str value) = canonicalise toLowerCase key (.str value') ↔
      Same toLowerCase key (.str value) (.str value') := by
  rw [canonicalise, canonicalise, Same]
  by_cases hkey : key = some (ofString "email")
  · have hnormal : key.any NORMALISED_FIELDS.contains = true := by simp [hkey, NORMALISED_FIELDS]
    rw [if_pos hnormal, if_pos hnormal, Json.str.injEq]
    constructor
    · exact fun h => .inr ⟨hkey, h⟩
    · rintro (rfl | ⟨-, h⟩)
      · rfl
      · exact h
  · have hplain : ¬ key.any NORMALISED_FIELDS.contains = true := by
      cases key with
      | none => simp
      | some name =>
        intro hname
        exact hkey (congrArg some (by simpa [NORMALISED_FIELDS] using hname))
    rw [if_neg hplain, if_neg hplain, Json.str.injEq]
    constructor
    · exact .inl
    · rintro (h | ⟨h, -⟩)
      · exact h
      · exact absurd h hkey

theorem fromEntries_perm {α : Type} (entries : List (Text × α)) : (fromEntries entries).Perm entries := by
  have hparts : (entries.filter fun entry => !(arrayIndex entry.1).isSome) =
      entries.filter fun entry => (arrayIndex entry.1).isNone := by
    apply List.filter_congr
    intro entry _
    exact Option.not_isSome _
  rw [fromEntries, ← hparts]
  exact ((List.perm_insertionSort _ _).append_right _).trans (List.filter_append_perm _ _)

/-- Fields with distinct names have one order. -/
theorem insertionSort_compareKeys {α : Type} {fields fields' : List (Text × α)} (hperm : fields.Perm fields')
    (hnames : (fields.map Prod.fst).Nodup) : fields.insertionSort compareKeys = fields'.insertionSort compareKeys := by
  have htotal : Std.Total (@compareKeys α) := ⟨fun a b => le_total a.1 b.1⟩
  have htrans : IsTrans (Text × α) compareKeys := ⟨fun _ _ _ hab hbc => le_trans hab hbc⟩
  apply List.Perm.eq_of_pairwise
  · intro a b ha hb hab hba
    have ha' := (List.perm_insertionSort _ _).mem_iff.mp ha
    have hb' := hperm.mem_iff.mpr ((List.perm_insertionSort _ _).mem_iff.mp hb)
    exact List.inj_on_of_nodup_map hnames ha' hb' (le_antisymm hab hba)
  · exact List.pairwise_insertionSort _ _
  · exact List.pairwise_insertionSort _ _
  · exact ((List.perm_insertionSort _ _).trans hperm).trans (List.perm_insertionSort _ _).symm

/-- What holds of the entries of two lists, one by one. -/
theorem forall₂_of_mem {α β : Type} {R S : α → β → Prop} {xs : List α} {ys : List β} (h : List.Forall₂ R xs ys)
    (himp : ∀ x ∈ xs, ∀ y ∈ ys, R x y → S x y) : List.Forall₂ S xs ys := by
  induction h with
  | nil => exact .nil
  | cons hxy _ ih =>
    apply List.Forall₂.cons
    · exact himp _ (List.mem_cons_self ..) _ (List.mem_cons_self ..) hxy
    · exact ih fun x hx y hy => himp x (List.mem_cons_of_mem _ hx) y (List.mem_cons_of_mem _ hy)

theorem canonicalise_obj (fields : List (Text × Json Text)) : canonicalise toLowerCase key (.obj fields) =
    .obj (fromEntries ((fields.map (canonicaliseField toLowerCase)).insertionSort compareKeys)) := by
  rw [canonicalise, canonicaliseFields_eq_map]

theorem kind_eq_of_canonicalise_eq {value value' : Json Text}
    (h : canonicalise toLowerCase key value = canonicalise toLowerCase key value') : value.kind = value'.kind := by
  have hkinds := congrArg Json.kind h
  rwa [kind_canonicalise, kind_canonicalise] at hkinds

/-- Fields with one canonical form are the same, in some order. -/
theorem exists_listed_of_perm {fields fields' : List (Text × Json Text)}
    (h : (fields.map (canonicaliseField toLowerCase)).Perm (fields'.map (canonicaliseField toLowerCase))) :
    ∃ listed, listed.Perm fields' ∧
      List.Forall₂ (fun entry entry' => canonicaliseField toLowerCase entry = canonicaliseField toLowerCase entry')
        fields listed := by
  have hforms : List.Forall₂ (fun form entry => form = canonicaliseField toLowerCase entry)
      (fields'.map (canonicaliseField toLowerCase)) fields' :=
    List.forall₂_map_left_iff.mpr (List.forall₂_same.mpr fun _ _ => rfl)
  obtain ⟨listed, hlisted, hperm⟩ := List.perm_comp_forall₂ h hforms
  exact ⟨listed, hperm, List.forall₂_map_left_iff.mp hlisted⟩

/-- Values with one canonical form are the same request. -/
theorem same_of_canonicalise_eq (value : Json Text) : ∀ (key : Option Text) (value' : Json Text),
    canonicalise toLowerCase key value = canonicalise toLowerCase key value' → Same toLowerCase key value value' := by
  induction value using Json.induct with
  | null =>
    intro key value' h
    have hkind := kind_eq_of_canonicalise_eq h
    cases value' with
    | null => trivial
    | _ => cases hkind
  | bool value =>
    intro key value' h
    have hkind := kind_eq_of_canonicalise_eq h
    cases value' with
    | bool value' => exact Json.bool.inj h
    | _ => cases hkind
  | num value =>
    intro key value' h
    have hkind := kind_eq_of_canonicalise_eq h
    cases value' with
    | num value' => exact Json.num.inj h
    | _ => cases hkind
  | str value =>
    intro key value' h
    have hkind := kind_eq_of_canonicalise_eq h
    cases value' with
    | str value' => exact canonicalise_str_eq_iff.mp h
    | _ => cases hkind
  | arr items ih =>
    intro key value' h
    have hkind := kind_eq_of_canonicalise_eq h
    cases value' with
    | arr items' =>
      rw [canonicalise, canonicalise, Json.arr.injEq, canonicaliseItems_eq_map, canonicaliseItems_eq_map,
        ← List.forall₂_eq_eq_eq, List.forall₂_map_left_iff, List.forall₂_map_right_iff] at h
      rw [Same, sameItems_iff]
      exact forall₂_of_mem h fun item hitem item' _ heq => ih item hitem none item' heq
    | _ => cases hkind
  | obj fields ih =>
    intro key value' h
    have hkind := kind_eq_of_canonicalise_eq h
    cases value' with
    | obj fields' =>
      rw [canonicalise_obj, canonicalise_obj, Json.obj.injEq] at h
      have hsorted : ∀ forms : List (Text × Json Text), (fromEntries (forms.insertionSort compareKeys)).Perm forms :=
        fun forms => (fromEntries_perm _).trans (List.perm_insertionSort _ _)
      have hright := hsorted (fields'.map (canonicaliseField toLowerCase))
      rw [← h] at hright
      obtain ⟨listed, hlisted, hforms⟩ := exists_listed_of_perm ((hsorted _).symm.trans hright)
      rw [Same]
      refine ⟨listed, hlisted, sameFields_iff.mpr ?_⟩
      apply forall₂_of_mem hforms
      rintro ⟨name, item⟩ hentry ⟨name', item'⟩ - heq
      obtain ⟨rfl, heq⟩ := Prod.mk.inj heq
      exact ⟨rfl, ih _ hentry _ _ heq⟩
    | _ => cases hkind

/-- The same request, its names listed once, has one canonical form. -/
theorem canonicalise_eq_of_same (value : Json Text) : ∀ (key : Option Text) (value' : Json Text),
    value.Distinct → value'.Distinct → Same toLowerCase key value value' →
      canonicalise toLowerCase key value = canonicalise toLowerCase key value' := by
  induction value using Json.induct with
  | null =>
    intro key value' _ _ h
    cases value' with
    | null => rfl
    | _ => exact h.elim
  | bool value =>
    intro key value' _ _ h
    cases value' with
    | bool value' => exact congrArg Json.bool h
    | _ => exact h.elim
  | num value =>
    intro key value' _ _ h
    cases value' with
    | num value' => exact congrArg Json.num h
    | _ => exact h.elim
  | str value =>
    intro key value' _ _ h
    cases value' with
    | str value' => exact canonicalise_str_eq_iff.mpr h
    | _ => exact h.elim
  | arr items ih =>
    intro key value' hdistinct hdistinct' h
    cases value' with
    | arr items' =>
      cases hdistinct with
      | arr hitems =>
      cases hdistinct' with
      | arr hitems' =>
      rw [Same, sameItems_iff] at h
      rw [canonicalise, canonicalise, Json.arr.injEq, canonicaliseItems_eq_map, canonicaliseItems_eq_map,
        ← List.forall₂_eq_eq_eq, List.forall₂_map_left_iff, List.forall₂_map_right_iff]
      exact forall₂_of_mem h fun item hitem item' hitem' hsame =>
        ih item hitem none item' (hitems item hitem) (hitems' item' hitem') hsame
    | _ => exact h.elim
  | obj fields ih =>
    intro key value' hdistinct hdistinct' h
    cases value' with
    | obj fields' =>
      cases hdistinct with
      | obj hnames hitems =>
      cases hdistinct' with
      | obj hnames' hitems' =>
      rw [Same] at h
      obtain ⟨listed, hlisted, hsame⟩ := h
      have hforms : fields.map (canonicaliseField toLowerCase) = listed.map (canonicaliseField toLowerCase) := by
        rw [← List.forall₂_eq_eq_eq, List.forall₂_map_left_iff, List.forall₂_map_right_iff]
        apply forall₂_of_mem (sameFields_iff.mp hsame)
        rintro ⟨name, item⟩ hentry ⟨name', item'⟩ hentry' ⟨rfl, hitem⟩
        have heq := ih _ hentry _ _ (hitems _ hentry) (hitems' _ (hlisted.mem_iff.mp hentry')) hitem
        rw [canonicaliseField, canonicaliseField, heq]
      have hperm := hlisted.map (canonicaliseField toLowerCase)
      have hfirst : ((fields.map (canonicaliseField toLowerCase)).map Prod.fst).Nodup := by
        rw [List.map_map]
        exact hnames
      rw [canonicalise_obj, canonicalise_obj, insertionSort_compareKeys (hforms ▸ hperm) hfirst]
    | _ => exact h.elim

end Same

/-- The fingerprints of two requests agree exactly when their canonical texts do. -/
theorem sameFingerprint_iff (number : NumberText) {toLowerCase : Text → Text}
    {body routeParams body' routeParams' : Json Text} :
    SameFingerprint toLowerCase body routeParams body' routeParams' ↔
      canonicalRequestJson number toLowerCase (fingerprinted body routeParams) =
        canonicalRequestJson number toLowerCase (fingerprinted body' routeParams') :=
  stringify_injective.eq_iff.symm

/-- Two bodies share their canonical text exactly when they are the same request. -/
theorem canonicalRequestJson_eq_iff (number : NumberText) (toLowerCase : Text → Text) (a b : JsonBody) :
    canonicalRequestJson number toLowerCase a = canonicalRequestJson number toLowerCase b ↔
      Same toLowerCase none a.val b.val := by
  constructor
  · intro h
    exact same_of_canonicalise_eq _ _ _ (stringify_injective h)
  · intro h
    exact congrArg (stringify number) (canonicalise_eq_of_same _ _ _ a.property b.property h)

end BookingApp

import Mathlib.Data.List.TakeWhile
import Mathlib.Tactic.Common

/-!
# Texts as code units and as bytes

UTF-16 as JavaScript has its texts, UTF-8 as the WHATWG decoder reads it (which
replaces what is not well formed and never fails), and base64url without padding,
which is read leniently. Writing and reading back gives what was written.
-/

set_option autoImplicit false

namespace Encoding

abbrev CodeUnit := Fin 65536

abbrev Byte := Fin 256

/-! ## UTF-16 -/

/-- `n` as a code unit. -/
def codeUnit (n : Nat) : CodeUnit :=
  Fin.ofNat _ n

def IsLead (u : CodeUnit) : Prop := 0xD800 ≤ u.val ∧ u.val ≤ 0xDBFF

def IsTrail (u : CodeUnit) : Prop := 0xDC00 ≤ u.val ∧ u.val ≤ 0xDFFF

instance : DecidablePred IsLead := fun u => inferInstanceAs (Decidable (0xD800 ≤ u.val ∧ u.val ≤ 0xDBFF))

instance : DecidablePred IsTrail := fun u => inferInstanceAs (Decidable (0xDC00 ≤ u.val ∧ u.val ≤ 0xDFFF))

/-- The one or two code units of a code point. -/
def units (c : Char) : List CodeUnit :=
  let n := c.toNat
  if n < 0x10000 then [codeUnit n]
  else [codeUnit (0xD800 + (n - 0x10000) / 0x400), codeUnit (0xDC00 + (n - 0x10000) % 0x400)]

/-- The code point of a pair of surrogates. -/
def paired (lead trail : CodeUnit) : Char :=
  Char.ofNat (0x10000 + (lead.val - 0xD800) * 0x400 + (trail.val - 0xDC00))

/-- A code unit on its own; a lone surrogate is replaced. -/
def unpaired (u : CodeUnit) : Char :=
  if IsLead u ∨ IsTrail u then Char.ofNat 0xFFFD else Char.ofNat u.val

/-- The code points of code units. -/
def codePoints : List CodeUnit → List Char
  | [] => []
  | [u] => [unpaired u]
  | u :: v :: rest =>
    if IsLead u ∧ IsTrail v then paired u v :: codePoints rest
    else unpaired u :: codePoints (v :: rest)

def ofString (s : String) : List CodeUnit :=
  s.toList.flatMap units

/-- The text a database is sent for code units. -/
def toText (s : List CodeUnit) : String :=
  String.ofList (codePoints s)

theorem toNat_ofNat {n : Nat} (h : n < 0xD800 ∨ 0xDFFF < n ∧ n < 0x110000) : (Char.ofNat n).toNat = n := by
  rw [Char.ofNat, dif_pos h]
  rfl

theorem ofNat_eq {w n : Nat} {u : Fin (w + 1)} (h : n = u.val) : Fin.ofNat (w + 1) n = u := by
  rw [h, Fin.ofNat_val_eq_self]

theorem codeUnit_eq {n : Nat} {u : CodeUnit} (h : n = u.val) : codeUnit n = u :=
  ofNat_eq h

theorem val_codeUnit {n : Nat} (h : n < 65536) : (codeUnit n).val = n :=
  Nat.mod_eq_of_lt h

theorem units_paired {u v : CodeUnit} (hu : IsLead u) (hv : IsTrail v) : units (paired u v) = [u, v] := by
  rw [IsLead] at hu
  rw [IsTrail] at hv
  have h : (paired u v).toNat = 0x10000 + (u.val - 0xD800) * 0x400 + (v.val - 0xDC00) :=
    toNat_ofNat (by omega)
  have hlead : 0xD800 + ((paired u v).toNat - 0x10000) / 0x400 = u.val := by omega
  have htrail : 0xDC00 + ((paired u v).toNat - 0x10000) % 0x400 = v.val := by omega
  rw [units, if_neg (by omega), codeUnit_eq hlead, codeUnit_eq htrail]

theorem units_ofNat {u : CodeUnit} (hu : ¬ IsLead u) (hv : ¬ IsTrail u) : units (Char.ofNat u.val) = [u] := by
  have hlt := u.isLt
  rw [IsLead] at hu
  rw [IsTrail] at hv
  rw [units, toNat_ofNat (by omega), if_pos hlt]
  rw [codeUnit_eq rfl]

def utf8Char (c : Char) : List Byte :=
  let n := c.toNat
  if n < 0x80 then [Fin.ofNat _ n]
  else if n < 0x800 then [Fin.ofNat _ (0xC0 + n / 64), Fin.ofNat _ (0x80 + n % 64)]
  else if n < 0x10000 then
    [Fin.ofNat _ (0xE0 + n / 4096), Fin.ofNat _ (0x80 + n / 64 % 64), Fin.ofNat _ (0x80 + n % 64)]
  else
    [Fin.ofNat _ (0xF0 + n / 262144), Fin.ofNat _ (0x80 + n / 4096 % 64), Fin.ofNat _ (0x80 + n / 64 % 64),
      Fin.ofNat _ (0x80 + n % 64)]

def utf8Encode (text : List Char) : List Byte :=
  text.flatMap utf8Char

/-- How far the decoder is with a code point: the bytes it needs, what it has read, and the range
the next byte has to be in. -/
structure Pending where
  needed : Nat := 0
  codePoint : Nat := 0
  lower : Nat := 0x80
  upper : Nat := 0xBF

/-- The first byte of a code point. -/
def utf8Start (b : Byte) : List Char × Pending :=
  if b.val < 0x80 then ([Char.ofNat b.val], {})
  else if 0xC2 ≤ b.val ∧ b.val ≤ 0xDF then ([], { needed := 1, codePoint := b.val - 0xC0 })
  else if 0xE0 ≤ b.val ∧ b.val ≤ 0xEF then
    ([], {
      needed := 2
      codePoint := b.val - 0xE0
      lower := if b.val = 0xE0 then 0xA0 else 0x80
      upper := if b.val = 0xED then 0x9F else 0xBF })
  else if 0xF0 ≤ b.val ∧ b.val ≤ 0xF4 then
    ([], {
      needed := 3
      codePoint := b.val - 0xF0
      lower := if b.val = 0xF0 then 0x90 else 0x80
      upper := if b.val = 0xF4 then 0x8F else 0xBF })
  else ([Char.ofNat 0xFFFD], {})

/-- One byte: what it completes, and where the decoder is then. A byte that cannot go on a code
point starts another. -/
def utf8Step (p : Pending) (b : Byte) : List Char × Pending :=
  match p.needed with
  | 0 => utf8Start b
  | needed + 1 =>
    if p.lower ≤ b.val ∧ b.val ≤ p.upper then
      let codePoint := p.codePoint * 64 + (b.val - 0x80)
      if needed = 0 then ([Char.ofNat codePoint], {}) else ([], { needed, codePoint })
    else (Char.ofNat 0xFFFD :: (utf8Start b).1, (utf8Start b).2)

def utf8From (p : Pending) : List Byte → List Char
  | [] => if p.needed = 0 then [] else [Char.ofNat 0xFFFD]
  | b :: rest => (utf8Step p b).1 ++ utf8From (utf8Step p b).2 rest

def utf8Decode (bytes : List Byte) : List Char :=
  utf8From {} bytes

/-- `A` to `Z`, `a` to `z`, `0` to `9`, `-` and `_`. -/
def base64Digit (n : Fin 64) : Char :=
  if n.val < 26 then Char.ofNat (65 + n.val)
  else if n.val < 52 then Char.ofNat (71 + n.val)
  else if n.val < 62 then Char.ofNat (n.val - 4)
  else if n.val = 62 then '-'
  else '_'

/-- Both alphabets are read. -/
def base64Value (c : Char) : Option (Fin 64) :=
  if c.isUpper then some (Fin.ofNat _ (c.toNat - 65))
  else if c.isLower then some (Fin.ofNat _ (c.toNat - 71))
  else if c.isDigit then some (Fin.ofNat _ (c.toNat + 4))
  else if c = '-' ∨ c = '+' then some 62
  else if c = '_' ∨ c = '/' then some 63
  else none

/-- Three bytes are four digits. -/
def sextets : List Byte → List (Fin 64)
  | [] => []
  | [a] => [Fin.ofNat _ (a.val / 4), Fin.ofNat _ (a.val % 4 * 16)]
  | [a, b] => [Fin.ofNat _ (a.val / 4), Fin.ofNat _ (a.val % 4 * 16 + b.val / 16), Fin.ofNat _ (b.val % 16 * 4)]
  | a :: b :: c :: rest =>
    Fin.ofNat _ (a.val / 4) :: Fin.ofNat _ (a.val % 4 * 16 + b.val / 16) ::
      Fin.ofNat _ (b.val % 16 * 4 + c.val / 64) :: Fin.ofNat _ (c.val % 64) :: sextets rest

/-- The whole bytes of digits. -/
def octets : List (Fin 64) → List Byte
  | a :: b :: c :: d :: rest =>
    Fin.ofNat _ (a.val * 4 + b.val / 16) :: Fin.ofNat _ (b.val % 16 * 16 + c.val / 4) ::
      Fin.ofNat _ (c.val % 4 * 64 + d.val) :: octets rest
  | [a, b, c] => [Fin.ofNat _ (a.val * 4 + b.val / 16), Fin.ofNat _ (b.val % 16 * 16 + c.val / 4)]
  | [a, b] => [Fin.ofNat _ (a.val * 4 + b.val / 16)]
  | _ => []

def base64urlEncode (bytes : List Byte) : List Char :=
  (sextets bytes).map base64Digit

/-- Padding is the end, and what is no digit is passed over. -/
def base64urlDecode (text : List Char) : List Byte :=
  octets ((text.takeWhile fun c => decide (c ≠ '=')).filterMap base64Value)

end Encoding

import Mathlib.Data.Option.Basic
import BookingApp.Encoding.Bytes

/-!
# JSON texts

`JSON.parse` over code points, and `JSON.stringify` of an object whose members are
texts. A number is read for its form, and its value is not kept. Parsing is bounded by
a number of rounds that the length of the text suffices for.
-/

set_option autoImplicit false

namespace Encoding

inductive Json where
  | null
  | boolean (value : Bool)
  | number
  | string (value : List CodeUnit)
  | array (items : List Json)
  | object (members : List (List CodeUnit × Json))

/-- The value of a member of an object; the last one of its name counts. -/
def Json.member (name : List CodeUnit) : Json → Option Json
  | object members => (members.reverse.find? fun m => decide (m.1 = name)).map Prod.snd
  | _ => none

def hexDigit (n : Nat) : Char :=
  if n < 10 then Char.ofNat (48 + n) else Char.ofNat (87 + n)

def hexValue (c : Char) : Option Nat :=
  if c.isDigit then some (c.toNat - 48)
  else if 'a' ≤ c ∧ c ≤ 'f' then some (c.toNat - 87)
  else if 'A' ≤ c ∧ c ≤ 'F' then some (c.toNat - 55)
  else none

/-- The characters with an escape of their own, as code units. -/
def escapes : List (Nat × Char) :=
  [(0x08, 'b'), (0x09, 't'), (0x0A, 'n'), (0x0C, 'f'), (0x0D, 'r'), (0x22, '"'), (0x5C, '\\')]

/-- A code unit that is no part of a pair. -/
def quoteUnit (u : CodeUnit) : List Char :=
  match escapes.find? fun e => decide (e.1 = u.val) with
  | some e => ['\\', e.2]
  | none =>
    if u.val < 0x20 ∨ IsLead u ∨ IsTrail u then
      ['\\', 'u', hexDigit (u.val / 4096), hexDigit (u.val / 256 % 16), hexDigit (u.val / 16 % 16),
        hexDigit (u.val % 16)]
    else [Char.ofNat u.val]

/-- The characters of a text between its quotes. -/
def quoteBody : List CodeUnit → List Char
  | [] => []
  | [u] => quoteUnit u
  | u :: v :: rest =>
    if IsLead u ∧ IsTrail v then paired u v :: quoteBody rest
    else quoteUnit u ++ quoteBody (v :: rest)

def quote (s : List CodeUnit) : List Char :=
  '"' :: quoteBody s ++ ['"']

def stringifyMembers : List (List CodeUnit × List CodeUnit) → List Char
  | [] => []
  | [m] => quote m.1 ++ ':' :: quote m.2
  | m :: rest => quote m.1 ++ ':' :: quote m.2 ++ ',' :: stringifyMembers rest

/-- `JSON.stringify` of an object of texts. -/
def stringify (members : List (List CodeUnit × List CodeUnit)) : List Char :=
  '{' :: stringifyMembers members ++ ['}']

def escaped (c : Char) : Option CodeUnit :=
  if c = '/' then some (codeUnit 0x2F)
  else (escapes.find? fun e => decide (e.2 = c)).map fun e => codeUnit e.1

/-- The rest of a text that a quote has opened, and what follows the quote that closes it. -/
def unquote : List Char → Option (List CodeUnit × List Char)
  | [] => none
  | '"' :: rest => some ([], rest)
  | '\\' :: 'u' :: a :: b :: c :: d :: rest => do
    let n := (← hexValue a) * 4096 + (← hexValue b) * 256 + (← hexValue c) * 16 + (← hexValue d)
    let (s, rest) ← unquote rest
    return (codeUnit n :: s, rest)
  | '\\' :: c :: rest => do
    let u ← escaped c
    let (s, rest) ← unquote rest
    return (u :: s, rest)
  | c :: rest => do
    guard (c ≠ '\\' ∧ 0x20 ≤ c.toNat)
    let (s, rest) ← unquote rest
    return (units c ++ s, rest)

def isSpace (c : Char) : Bool :=
  c = ' ' || c = '\t' || c = '\n' || c = '\r'

def skip (text : List Char) : List Char :=
  text.dropWhile isSpace

def exponent : List Char → Option (List Char)
  | c :: rest =>
    if c = 'e' ∨ c = 'E' then
      let rest := match rest with
        | '+' :: rest => rest
        | '-' :: rest => rest
        | rest => rest
      if rest.head?.any Char.isDigit then some (rest.dropWhile Char.isDigit) else none
    else some (c :: rest)
  | [] => some []

def fraction : List Char → Option (List Char)
  | '.' :: rest =>
    if rest.head?.any Char.isDigit then exponent (rest.dropWhile Char.isDigit) else none
  | rest => exponent rest

/-- What follows a number. -/
def number (text : List Char) : Option (List Char) :=
  let text := match text with
    | '-' :: text => text
    | text => text
  match text with
  | '0' :: rest => fraction rest
  | c :: rest => if c.isDigit then fraction (rest.dropWhile Char.isDigit) else none
  | [] => none

section Composite

variable (value : List Char → Option (Json × List Char))

/-- The items of an array after its bracket. -/
def elements : Nat → List Char → Option (List Json × List Char)
  | 0, _ => none
  | rounds + 1, text => do
    let (item, rest) ← value text
    match skip rest with
    | ',' :: rest =>
      let (items, rest) ← elements rounds rest
      return (item :: items, rest)
    | ']' :: rest => return ([item], rest)
    | _ => none

/-- The members of an object after its brace. -/
def members : Nat → List Char → Option (List (List CodeUnit × Json) × List Char)
  | 0, _ => none
  | rounds + 1, text => do
    match skip text with
    | '"' :: rest =>
      let (name, rest) ← unquote rest
      match skip rest with
      | ':' :: rest =>
        let (item, rest) ← value rest
        match skip rest with
        | ',' :: rest =>
          let (items, rest) ← members rounds rest
          return ((name, item) :: items, rest)
        | '}' :: rest => return ([(name, item)], rest)
        | _ => none
      | _ => none
    | _ => none

end Composite

/-- A value, and what follows it. -/
def value : Nat → List Char → Option (Json × List Char)
  | 0, _ => none
  | rounds + 1, text =>
    match skip text with
    | 'n' :: 'u' :: 'l' :: 'l' :: rest => some (.null, rest)
    | 't' :: 'r' :: 'u' :: 'e' :: rest => some (.boolean true, rest)
    | 'f' :: 'a' :: 'l' :: 's' :: 'e' :: rest => some (.boolean false, rest)
    | '"' :: rest => (unquote rest).map fun p => (.string p.1, p.2)
    | '[' :: rest =>
      match skip rest with
      | ']' :: rest => some (.array [], rest)
      | _ => (elements (value rounds) rounds rest).map fun p => (.array p.1, p.2)
    | '{' :: rest =>
      match skip rest with
      | '}' :: rest => some (.object [], rest)
      | _ => (members (value rounds) rounds rest).map fun p => (.object p.1, p.2)
    | text => (number text).map fun rest => (.number, rest)

/-- `JSON.parse` -/
def parse (text : List Char) : Option Json := do
  let (json, rest) ← value (text.length + 1) text
  guard (skip rest = [])
  return json

/-! ## Reading back -/

theorem hexValue_hexDigit {n : Nat} (h : n < 16) : hexValue (hexDigit n) = some n := by
  have hall : ∀ m : Fin 16, hexValue (hexDigit m.val) = some m.val := by decide
  exact hall ⟨n, h⟩

variable {rest : List Char} {c : Char} {u v : CodeUnit}

/-- Before the rest of a text, some code units of it. -/
def before (first : List CodeUnit) (p : List CodeUnit × List Char) : List CodeUnit × List Char :=
  (first ++ p.1, p.2)

theorem unquote_plain (hquote : c ≠ '"') (hescape : c ≠ '\\') (h : 0x20 ≤ c.toNat) :
    unquote (c :: rest) = (unquote rest).map (before (units c)) := by
  rw [unquote]
  · rw [guard, if_pos ⟨hescape, h⟩]
    cases unquote rest <;> rfl
  · exact hquote
  · intro _ _ _ _ _ hc
    exact absurd hc hescape
  · intro _ _ hc
    exact absurd hc hescape

theorem unquote_hex (rest : List Char) {n : Nat} (h : n < 65536) :
    unquote ('\\' :: 'u' :: hexDigit (n / 4096) :: hexDigit (n / 256 % 16) :: hexDigit (n / 16 % 16) ::
      hexDigit (n % 16) :: rest) = (unquote rest).map (before [codeUnit n]) := by
  have hsum : n / 4096 * 4096 + n / 256 % 16 * 256 + n / 16 % 16 * 16 + n % 16 = n := by omega
  rw [unquote, hexValue_hexDigit (by omega), hexValue_hexDigit (by omega), hexValue_hexDigit (by omega),
    hexValue_hexDigit (by omega)]
  cases unquote rest <;> simp [before, hsum]

theorem unquote_escape (rest : List Char) {e : Nat × Char} (he : e ∈ escapes) :
    unquote ('\\' :: e.2 :: rest) = (unquote rest).map (before [codeUnit e.1]) := by
  have hescaped : ∀ e ∈ escapes, e.2 ≠ 'u' ∧ escaped e.2 = some (codeUnit e.1) := by decide
  obtain ⟨hne, hvalue⟩ := hescaped e he
  rw [unquote, hvalue]
  · cases unquote rest <;> simp [before]
  · intro _ _ _ _ _ hc
    exact absurd hc hne

/-- What the escapes leave is read as it is. -/
theorem toNat_of_notEscaped (h : escapes.find? (fun e => decide (e.1 = u.val)) = none) :
    u.val ≠ 0x22 ∧ u.val ≠ 0x5C := by
  have hnone := List.find?_eq_none.mp h
  exact ⟨fun hu => hnone (0x22, '"') (by decide) (by simp [hu]),
    fun hu => hnone (0x5C, '\\') (by decide) (by simp [hu])⟩

theorem unquote_quoteUnit : unquote (quoteUnit u ++ rest) = (unquote rest).map (before [u]) := by
  have hlt := u.isLt
  rw [quoteUnit]
  split
  · rename_i e he
    have heq : e.1 = u.val := by simpa using List.find?_some he
    have hread := unquote_escape rest (List.mem_of_find?_eq_some he)
    rwa [codeUnit_eq heq] at hread
  · rename_i he
    obtain ⟨hquote, hescape⟩ := toNat_of_notEscaped he
    split
    · have hread := unquote_hex rest hlt
      rwa [codeUnit_eq rfl] at hread
    · rename_i hplain
      obtain ⟨hlow, hlead, htrail⟩ := not_or.mp hplain |>.imp_right not_or.mp
      have hval : (Char.ofNat u.val).toNat = u.val := by
        rw [IsLead] at hlead
        rw [IsTrail] at htrail
        exact toNat_ofNat (by omega)
      rw [List.singleton_append, unquote_plain _ _ (by omega), units_ofNat hlead htrail]
      · rintro hc
        rw [hc] at hval
        exact hquote hval.symm
      · rintro hc
        rw [hc] at hval
        exact hescape hval.symm

theorem unquote_paired (hu : IsLead u) (hv : IsTrail v) :
    unquote (paired u v :: rest) = (unquote rest).map (before [u, v]) := by
  have hlow : 0x10000 ≤ (paired u v).toNat := by
    rw [IsLead] at hu
    rw [IsTrail] at hv
    rw [paired, toNat_ofNat (by omega)]
    omega
  have hquote : ('"' : Char).toNat < 0x10000 := by decide
  have hescape : ('\\' : Char).toNat < 0x10000 := by decide
  rw [unquote_plain (fun hc => by rw [hc] at hlow; omega) (fun hc => by rw [hc] at hlow; omega) (by omega),
    units_paired hu hv]

/-- A text is read back up to its closing quote. -/
theorem unquote_quoteBody (s : List CodeUnit) : unquote (quoteBody s ++ '"' :: rest) = some (s, rest) := by
  fun_induction quoteBody s with
  | case1 => rw [List.nil_append, unquote]
  | case2 u => rw [unquote_quoteUnit, unquote]; rfl
  | case3 u v s h ih => rw [List.cons_append, unquote_paired h.1 h.2, ih]; rfl
  | case4 u v s h ih => rw [List.append_assoc, unquote_quoteUnit, ih]; rfl

theorem quote_append (s : List CodeUnit) : quote s ++ rest = '"' :: (quoteBody s ++ '"' :: rest) := by
  simp [quote]

end Encoding

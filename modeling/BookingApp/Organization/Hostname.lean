import BookingApp.Messaging.Fingerprint

/-!
# Hostnames of organizers (`organization/hostname.ts`)

`normalizeHostname` gives the one spelling under which a hostname is stored,
`hostnameFromRequest` what a request asks for. Each spelling of a stored hostname in a
request comes to the stored one (`hostname_stable`).
-/

set_option autoImplicit false

namespace BookingApp

open Encoding

/-- The lower case of an ASCII letter. -/
def asciiLower (u : CodeUnit) : CodeUnit :=
  if 65 ≤ u.val ∧ u.val ≤ 90 then codeUnit (u.val + 32) else u

/-- What the runtime is relied on for: the lower case of ASCII texts, and the host of
`new URL("https://" + value)`. The host parser writes an ASCII host in lower case, reads what it has
written as it stands, keeps a final dot without reading the rest otherwise, and writes brackets around
an IPv6 address only. -/
structure Platform where
  isIP : Text → Nat
  toLowerCase : Text → Text
  hostname : Text → Option Text
  toLowerCase_ascii : ∀ value, (∀ u ∈ value, u.val < 128) → toLowerCase value = value.map asciiLower
  hostname_hostname : ∀ value host, hostname value = some host → hostname host = some host
  hostname_lower : ∀ value host, hostname value = some host →
    ∀ u ∈ host, u.val < 128 ∧ asciiLower u = u ∧ isBlank u = false
  hostname_root : ∀ value host, hostname value = some (host ++ ofString ".") → host ≠ [] →
    hostname host = some host
  hostname_bracket : ∀ value host, hostname value = some (ofString "[" ++ host) → codeUnit 58 ∈ host

/-- RFC 1035 wire-format limit, minus the root label. -/
def MAX_HOSTNAME_LENGTH : Nat := 253

/-- `[a-z0-9]` -/
def isAlphanumeric (u : CodeUnit) : Bool :=
  decide (97 ≤ u.val ∧ u.val ≤ 122 ∨ 48 ≤ u.val ∧ u.val ≤ 57)

/-- One DNS label: 1–63 chars, alphanumeric with inner hyphens. -/
def LABEL_PATTERN : Text → Bool
  | [] => false
  | first :: rest =>
    isAlphanumeric first && (rest.isEmpty ||
      decide (rest.dropLast.length ≤ 61) && rest.dropLast.all (fun u => isAlphanumeric u || u == codeUnit 45) &&
        rest.getLast?.any isAlphanumeric)

/-- What follows `/^https?:\/\//i` in a value, or all of it if it names no other scheme. -/
def afterScheme (value : Text) : Option Text :=
  if (value.take 8).map asciiLower = ofString "https://" then some (value.drop 8)
  else if (value.take 7).map asciiLower = ofString "http://" then some (value.drop 7)
  else if ofString "//" <:+: value then none
  else some value

/-- A single trailing slash is what an address bar copies. -/
def stripSlash (value : Text) : Text :=
  if (ofString "/").isSuffixOf value then value.dropLast else value

def stripBrackets (host : Text) : Text :=
  if (ofString "[").isPrefixOf host && (ofString "]").isSuffixOf host then host.tail.dropLast else host

def stripRoot (host : Text) : Text :=
  if (ofString ".").isSuffixOf host then host.dropLast else host

namespace Platform

variable (p : Platform)

/-- The decorations a host can arrive with are brackets and a trailing dot. -/
def stripDecorations (value : Text) : Text :=
  stripRoot (stripBrackets (p.toLowerCase (trim value)))

/-- A syntactically valid DNS name. -/
def validDnsName (host : Text) : Option Text :=
  if host = [] ∨ MAX_HOSTNAME_LENGTH < host.length then none
  else if p.isIP host ≠ 0 then none
  else if (host.splitOn (codeUnit 46)).any fun label => !LABEL_PATTERN label then none
  else some host

/-- The canonical stored form of a hostname. What is not a text has none. -/
def normalizeHostname (raw : Option Text) : Option Text := do
  let raw ← raw
  let value := trim raw
  if value = [] ∨ value.any isBlank then none
  else
    let value ← afterScheme value
    let value := stripSlash value
    if value.any (ofString "/?#@").contains then none
    else
      let hostname ← p.hostname value
      p.validDnsName (p.stripDecorations hostname)

end Platform

/-- A request's spelling of a hostname: in other letter case, between blanks, with a trailing dot. -/
def Spells (request hostname : Text) : Prop :=
  ∃ before name root after : Text, request = before ++ (name ++ root) ++ after ∧
    (∀ u ∈ before, isBlank u = true) ∧ (∀ u ∈ after, isBlank u = true) ∧
    name.map asciiLower = hostname ∧ (root = [] ∨ root = ofString ".")

section Trim

variable {before value after : Text}

theorem trim_eq (hbefore : ∀ u ∈ before, isBlank u = true) (hafter : ∀ u ∈ after, isBlank u = true)
    (hvalue : ∀ u ∈ value, isBlank u = false) : trim (before ++ value ++ after) = value := by
  have hself : ∀ text : Text, (∀ u ∈ text, isBlank u = false) → text.dropWhile isBlank = text := by
    intro text htext
    apply List.dropWhile_eq_self_iff.mpr
    intro hpos
    simp [htext _ (List.getElem_mem hpos)]
  have hrest : (value ++ after).dropWhile isBlank = value ++ after ∨
      value = [] ∧ (value ++ after).dropWhile isBlank = [] := by
    cases value with
    | nil => exact .inr ⟨rfl, List.dropWhile_eq_nil_iff.mpr hafter⟩
    | cons u rest => exact .inl (by simp [hvalue u List.mem_cons_self])
  rw [trim, List.append_assoc, List.dropWhile_append_of_pos hbefore]
  rcases hrest with hrest | ⟨rfl, hrest⟩
  · rw [hrest, List.reverse_append, List.dropWhile_append_of_pos (by simpa using hafter),
      hself value.reverse (by simpa using hvalue), List.reverse_reverse]
  · rw [hrest]
    rfl

theorem trim_eq_self (hvalue : ∀ u ∈ value, isBlank u = false) : trim value = value := by
  have h : trim ([] ++ value ++ []) = value := trim_eq (by simp) (by simp) hvalue
  simpa using h

end Trim

/-! ## Names -/

/-- The characters of a name in either case: letters, digits, hyphens and dots. -/
def IsNameUnit (u : CodeUnit) : Prop :=
  u.val = 45 ∨ u.val = 46 ∨ (48 ≤ u.val ∧ u.val ≤ 57) ∨ (65 ≤ u.val ∧ u.val ≤ 90) ∨
    (97 ≤ u.val ∧ u.val ≤ 122)

instance : DecidablePred IsNameUnit := fun u => inferInstanceAs (Decidable (u.val = 45 ∨ u.val = 46 ∨
  (48 ≤ u.val ∧ u.val ≤ 57) ∨ (65 ≤ u.val ∧ u.val ≤ 90) ∨ (97 ≤ u.val ∧ u.val ≤ 122)))

section Units

variable {u : CodeUnit}

theorem asciiLower_val : (asciiLower u).val = if 65 ≤ u.val ∧ u.val ≤ 90 then u.val + 32 else u.val := by
  unfold asciiLower codeUnit
  split
  · simp only [Fin.ofNat]
    omega
  · rfl

theorem isNameUnit_asciiLower : IsNameUnit (asciiLower u) ↔ IsNameUnit u := by
  unfold IsNameUnit
  rw [asciiLower_val]
  split <;> omega

theorem IsNameUnit.lt (h : IsNameUnit u) : u.val < 128 := by
  unfold IsNameUnit at h
  omega

theorem IsNameUnit.not_blank (h : IsNameUnit u) : isBlank u = false := by
  unfold IsNameUnit at h
  simp [isBlank]
  omega

theorem isNameUnit_of_isAlphanumeric (h : isAlphanumeric u = true) : IsNameUnit u ∧ asciiLower u = u := by
  have hval : 97 ≤ u.val ∧ u.val ≤ 122 ∨ 48 ≤ u.val ∧ u.val ≤ 57 := of_decide_eq_true h
  constructor
  · unfold IsNameUnit
    omega
  · apply if_neg
    omega

end Units

section Labels

variable {label : Text} {p : Platform} {host : Text}

/-- A label is not empty, and consists of the characters of names other than the dot. -/
theorem units_of_LABEL_PATTERN (h : LABEL_PATTERN label = true) :
    label ≠ [] ∧ ∀ u ∈ label, IsNameUnit u ∧ asciiLower u = u := by
  cases label with
  | nil => cases h
  | cons first rest =>
    refine ⟨List.cons_ne_nil first rest, fun u hu => ?_⟩
    simp only [LABEL_PATTERN, Bool.and_eq_true, Bool.or_eq_true, List.isEmpty_iff, List.all_eq_true] at h
    obtain ⟨hfirst, hrest⟩ := h
    rcases List.mem_cons.mp hu with rfl | hu
    · exact isNameUnit_of_isAlphanumeric hfirst
    · rcases hrest with rfl | ⟨⟨-, hinner⟩, hlast⟩
      · cases hu
      · obtain ⟨last, hgetLast, hlast⟩ := (Option.any_eq_true _ _).mp hlast
        rw [← List.dropLast_append_getLast? last hgetLast] at hu
        rcases List.mem_append.mp hu with hu | hu
        · rcases hinner u hu with halnum | hhyphen
          · exact isNameUnit_of_isAlphanumeric halnum
          · rw [beq_iff_eq] at hhyphen
            subst hhyphen
            exact ⟨.inl rfl, rfl⟩
        · rw [List.mem_singleton.mp hu]
          exact isNameUnit_of_isAlphanumeric hlast

theorem mem_intercalate {u separator : CodeUnit} {labels : List Text} (hu : u ∈ [separator].intercalate labels) :
    u = separator ∨ ∃ label ∈ labels, u ∈ label := by
  induction labels with
  | nil => cases hu
  | cons label rest ih =>
    cases rest with
    | nil => exact .inr ⟨label, List.mem_cons_self, by simpa using hu⟩
    | cons next rest =>
      rw [List.intercalate_cons_cons] at hu
      simp only [List.mem_append, List.mem_singleton] at hu
      rcases hu with (hu | hu) | hu
      · exact .inr ⟨label, List.mem_cons_self, hu⟩
      · exact .inl hu
      · exact (ih hu).imp_right fun ⟨found, hfound, hmem⟩ => ⟨found, List.mem_cons_of_mem label hfound, hmem⟩

/-- What a valid name consists of. It does not end in a dot. -/
structure IsName (host : Text) : Prop where
  ne_nil : host ≠ []
  units : ∀ u ∈ host, IsNameUnit u ∧ asciiLower u = u
  no_root : ¬ofString "." <:+ host

theorem isName_of_labels (hne : host ≠ [])
    (h : ∀ label ∈ host.splitOn (codeUnit 46), LABEL_PATTERN label = true) : IsName host where
  ne_nil := hne
  units u hu := by
    have hjoined : [codeUnit 46].intercalate (host.splitOn (codeUnit 46)) = host :=
      List.intercalate_splitOn (codeUnit 46)
    rw [← hjoined] at hu
    rcases mem_intercalate hu with rfl | ⟨label, hlabel, hu⟩
    · exact ⟨.inr (.inl rfl), rfl⟩
    · exact (units_of_LABEL_PATTERN (h label hlabel)).2 u hu
  no_root := by
    rintro ⟨before, rfl⟩
    -- the label after the dot would be empty
    have hsplit : (before ++ ofString ".").splitOn (codeUnit 46) = before.splitOn (codeUnit 46) ++ [[]] :=
      List.splitOn_append_cons_self before []
    have hlast := h [] (by rw [hsplit]; exact List.mem_append_right _ List.mem_cons_self)
    cases hlast

theorem validDnsName_eq_some {found : Text} (h : p.validDnsName host = some found) :
    found = host ∧ IsName host := by
  unfold Platform.validDnsName at h
  split at h
  · cases h
  · split at h
    · cases h
    · split at h
      · cases h
      · rename_i hempty _ hlabels
        refine ⟨(Option.some.inj h).symm, isName_of_labels (fun hnil => hempty (.inl hnil)) ?_⟩
        simpa using hlabels

end Labels

section Strip

variable {p : Platform} {value host : Text}

theorem stripRoot_concat (name : Text) : stripRoot (name ++ ofString ".") = name := by
  unfold stripRoot
  rw [if_pos (List.isSuffixOf_iff_suffix.mpr (List.suffix_append name _))]
  exact List.dropLast_concat

theorem stripRoot_eq_self (h : ¬ofString "." <:+ host) : stripRoot host = host :=
  if_neg fun hsuffix => h (List.isSuffixOf_iff_suffix.mp hsuffix)

theorem eq_stripRoot_or (host : Text) : host = stripRoot host ∨ host = stripRoot host ++ ofString "." := by
  by_cases h : ofString "." <:+ host
  · obtain ⟨name, rfl⟩ := h
    rw [stripRoot_concat]
    exact .inr rfl
  · exact .inl (stripRoot_eq_self h).symm

/-- Brackets are either not there or around what is left. -/
theorem eq_stripBrackets_or (host : Text) :
    host = stripBrackets host ∨ host = ofString "[" ++ (stripBrackets host ++ ofString "]") := by
  unfold stripBrackets
  split
  · rename_i h
    obtain ⟨hopen, hclose⟩ := Bool.and_eq_true_iff.mp h
    obtain ⟨rest, rfl⟩ := List.isPrefixOf_iff_prefix.mp hopen
    right
    rcases List.suffix_cons_iff.mp (List.isSuffixOf_iff_suffix.mp hclose) with hone | ⟨inner, rfl⟩
    · have hsame : codeUnit 93 = codeUnit 91 := List.head_eq_of_cons_eq hone
      exact absurd hsame (by decide)
    · have hinner : (ofString "[" ++ (inner ++ ofString "]")).tail.dropLast = inner := List.dropLast_concat
      rw [hinner]
  · exact .inl rfl

theorem stripBrackets_of_isName (hhost : IsName host) (root : Text) :
    stripBrackets (host ++ root) = host ++ root := by
  apply if_neg
  intro h
  obtain ⟨rest, hrest⟩ := List.isPrefixOf_iff_prefix.mp (Bool.and_eq_true_iff.mp h).1
  cases host with
  | nil => exact hhost.ne_nil rfl
  | cons first others =>
    have hfirst : codeUnit 91 = first := List.head_eq_of_cons_eq hrest
    have hbracket : IsNameUnit (codeUnit 91) := hfirst ▸ (hhost.units first List.mem_cons_self).1
    simp [IsNameUnit, codeUnit] at hbracket

/-- A spelling of a name loses its decorations. -/
theorem stripDecorations_of_spells (hhost : IsName host) (h : Spells value host) :
    p.stripDecorations value = host := by
  obtain ⟨before, name, root, after, rfl, hbefore, hafter, hname, hroot⟩ := h
  have hunits : ∀ u ∈ name ++ root, IsNameUnit u := by
    intro u hu
    rcases List.mem_append.mp hu with hu | hu
    · apply isNameUnit_asciiLower.mp
      exact (hhost.units _ (hname ▸ List.mem_map_of_mem hu)).1
    · rcases hroot with rfl | rfl
      · cases hu
      · rw [List.mem_singleton.mp hu]
        exact .inr (.inl rfl)
  have hlower : (name ++ root).map asciiLower = host ++ root := by
    rw [List.map_append, hname]
    rcases hroot with rfl | rfl <;> rfl
  unfold Platform.stripDecorations
  rw [trim_eq hbefore hafter fun u hu => (hunits u hu).not_blank,
    p.toLowerCase_ascii _ fun u hu => (hunits u hu).lt, hlower, stripBrackets_of_isName hhost]
  rcases hroot with rfl | rfl
  · rw [List.append_nil]
    exact stripRoot_eq_self hhost.no_root
  · exact stripRoot_concat host

theorem map_asciiLower_eq_self (h : ∀ u ∈ value, asciiLower u = u) : value.map asciiLower = value := by
  calc value.map asciiLower = value.map id := List.map_congr_left h
    _ = value := List.map_id value

theorem spells_self (hhost : IsName host) : Spells host host := by
  refine ⟨[], host, [], [], by simp, by simp, by simp, ?_, .inl rfl⟩
  exact map_asciiLower_eq_self fun u hu => (hhost.units u hu).2

/-- The host parser's host loses at most a final dot on the way to a name: between brackets is an
address. -/
theorem hostname_of_stripDecorations (hhost : p.hostname value = some host)
    (hname : IsName (p.stripDecorations host)) :
    p.hostname (p.stripDecorations host) = some (p.stripDecorations host) := by
  have hlower := p.hostname_lower value host hhost
  unfold Platform.stripDecorations at hname ⊢
  rw [trim_eq_self fun u hu => (hlower u hu).2.2, p.toLowerCase_ascii host fun u hu => (hlower u hu).1,
    map_asciiLower_eq_self fun u hu => (hlower u hu).2.1] at hname ⊢
  rcases eq_stripBrackets_or host with hsame | hbracket
  · rw [← hsame] at hname ⊢
    rcases eq_stripRoot_or host with hroot | hroot
    · rw [← hroot]
      exact p.hostname_hostname value host hhost
    · exact p.hostname_root value _ (hroot ▸ hhost) hname.ne_nil
  · exfalso
    have hcolon := p.hostname_bracket value _ (hbracket ▸ hhost)
    have hinner : codeUnit 58 ∈ stripBrackets host :=
      (List.mem_append.mp hcolon).resolve_right fun h => absurd (List.mem_singleton.mp h) (by decide)
    have hunit : IsNameUnit (codeUnit 58) := by
      rcases eq_stripRoot_or (stripBrackets host) with hroot | hroot
      · exact (hname.units _ (hroot ▸ hinner)).1
      · rw [hroot] at hinner
        have hmem := (List.mem_append.mp hinner).resolve_right fun h =>
          absurd (List.mem_singleton.mp h) (by decide)
        exact (hname.units _ hmem).1
    simp [IsNameUnit, codeUnit] at hunit

end Strip

/-! ## What is stored, and what a request asks for -/

section Stored

variable {p : Platform} {host : Text}

/-- A hostname as it is stored: a valid name that the host parser reads as it stands. -/
structure Platform.Stored (p : Platform) (host : Text) : Prop where
  valid : p.validDnsName host = some host
  hostname : p.hostname host = some host

theorem Platform.Stored.isName (h : p.Stored host) : IsName host :=
  (validDnsName_eq_some h.valid).2

theorem normalizeHostname_some (raw : Text) : p.normalizeHostname (some raw) =
    if trim raw = [] ∨ (trim raw).any isBlank = true then none
    else (afterScheme (trim raw)).bind fun value =>
      if (stripSlash value).any (ofString "/?#@").contains then none
      else (p.hostname (stripSlash value)).bind fun hostname =>
        p.validDnsName (p.stripDecorations hostname) := rfl

theorem stored_of_normalizeHostname {raw : Option Text} (h : p.normalizeHostname raw = some host) :
    p.Stored host := by
  cases raw with
  | none => cases h
  | some raw =>
    rw [normalizeHostname_some] at h
    split at h
    · cases h
    · obtain ⟨value, -, h⟩ := Option.bind_eq_some_iff.mp h
      split at h
      · cases h
      · obtain ⟨parsed, hparsed, hvalid⟩ := Option.bind_eq_some_iff.mp h
        obtain ⟨rfl, hname⟩ := validDnsName_eq_some hvalid
        exact ⟨hvalid, hostname_of_stripDecorations hparsed hname⟩

namespace IsName

variable (h : IsName host)
include h

theorem not_mem {u : CodeUnit} (hu : ¬IsNameUnit u) : u ∉ host :=
  fun hmem => hu (h.units u hmem).1

theorem trim_eq : trim host = host :=
  trim_eq_self fun u hu => (h.units u hu).1.not_blank

/-- A name has no colon, which a scheme has. -/
theorem take_ne {n : Nat} {start : Text} (hstart : codeUnit 58 ∈ start) :
    (host.take n).map asciiLower ≠ start := by
  rintro rfl
  obtain ⟨u, hu, hcolon⟩ := List.mem_map.mp hstart
  rw [(h.units u (List.mem_of_mem_take hu)).2] at hcolon
  exact h.not_mem (by simp [IsNameUnit, codeUnit]) (hcolon ▸ List.mem_of_mem_take hu)

theorem afterScheme_eq : afterScheme host = some host := by
  unfold afterScheme
  rw [if_neg (h.take_ne (by decide)), if_neg (h.take_ne (by decide)), if_neg]
  intro hslashes
  have hslash : codeUnit 47 ∈ host := hslashes.subset List.mem_cons_self
  exact h.not_mem (by simp [IsNameUnit, codeUnit]) hslash

theorem stripSlash_eq : stripSlash host = host := by
  apply if_neg
  intro hsuffix
  have hslash : codeUnit 47 ∈ host := (List.isSuffixOf_iff_suffix.mp hsuffix).subset List.mem_cons_self
  exact h.not_mem (by simp [IsNameUnit, codeUnit]) hslash

theorem not_any_delimiter : host.any (ofString "/?#@").contains = false := by
  apply List.any_eq_false.mpr
  intro u hu hcontains
  have hunit := (h.units u hu).1
  have hmem : u ∈ [codeUnit 47, codeUnit 63, codeUnit 35, codeUnit 64] := List.contains_iff_mem.mp hcontains
  simp only [List.mem_cons, List.not_mem_nil, or_false] at hmem
  rcases hmem with rfl | rfl | rfl | rfl <;> simp [IsNameUnit, codeUnit] at hunit

end IsName

/-- A stored hostname is its own canonical form. -/
theorem Platform.Stored.normalizeHostname (h : p.Stored host) : p.normalizeHostname (some host) = some host := by
  have hname := h.isName
  have hblank : ¬(host = [] ∨ host.any isBlank = true) := by
    rintro (hnil | hblank)
    · exact hname.ne_nil hnil
    · obtain ⟨u, hu, hblank⟩ := List.any_eq_true.mp hblank
      rw [(hname.units u hu).1.not_blank] at hblank
      cases hblank
  rw [normalizeHostname_some, hname.trim_eq, if_neg hblank, hname.afterScheme_eq, Option.bind_some,
    hname.stripSlash_eq, if_neg (by simp [hname.not_any_delimiter]), h.hostname, Option.bind_some,
    stripDecorations_of_spells hname (spells_self hname), h.valid]

end Stored

/-- A host parser of plain names, with a port or without. -/
def plainHostname (value : Text) : Option Text :=
  let host := (value.takeWhile fun u => u != codeUnit 58).map asciiLower
  if host ≠ [] ∧ host.all (fun u => decide (IsNameUnit u ∧ asciiLower u = u)) then some host else none

section Plain

variable {value host : Text}

theorem plainHostname_eq_some (h : plainHostname value = some host) :
    host ≠ [] ∧ ∀ u ∈ host, IsNameUnit u ∧ asciiLower u = u := by
  unfold plainHostname at h
  dsimp only at h
  split at h
  · rename_i hplain
    rw [Option.some.inj h] at hplain
    exact ⟨hplain.1, fun u hu => of_decide_eq_true (List.all_eq_true.mp hplain.2 u hu)⟩
  · cases h

theorem plainHostname_self (hne : host ≠ []) (hunits : ∀ u ∈ host, IsNameUnit u ∧ asciiLower u = u) :
    plainHostname host = some host := by
  have htake : (host.takeWhile fun u => u != codeUnit 58) = host := by
    apply List.takeWhile_eq_self_iff.mpr
    intro u hu
    apply bne_iff_ne.mpr
    rintro rfl
    exact absurd (hunits _ hu).1 (by decide)
  unfold plainHostname
  rw [htake, map_asciiLower_eq_self fun u hu => (hunits u hu).2]
  exact if_pos ⟨hne, List.all_eq_true.mpr fun u hu => decide_eq_true (hunits u hu)⟩

end Plain

/-- A runtime that knows plain hosts only. -/
def Platform.plain : Platform where
  isIP _ := 0
  toLowerCase value := value.map asciiLower
  hostname := plainHostname
  toLowerCase_ascii _ _ := rfl
  hostname_hostname _ _ h :=
    plainHostname_self (plainHostname_eq_some h).1 (plainHostname_eq_some h).2
  hostname_lower _ _ h u hu :=
    have hunit := (plainHostname_eq_some h).2 u hu
    ⟨hunit.1.lt, hunit.2, hunit.1.not_blank⟩
  hostname_root _ _ h hne :=
    plainHostname_self hne fun u hu => (plainHostname_eq_some h).2 u (List.mem_append_left _ hu)
  hostname_bracket _ _ h :=
    absurd ((plainHostname_eq_some h).2 (codeUnit 91) List.mem_cons_self).1 (by decide)

end BookingApp

import Mathlib.Data.List.Chain
import Mathlib.Data.List.DropRight
import BookingApp.Organization.Hostname

/-!
# Slugs (`organization/slug.ts`)

The slug of a display name is empty, or it consists of words of letters and digits with
single hyphens between them; these texts are exactly those that are their own slugs.
-/

set_option autoImplicit false

namespace BookingApp

open Encoding

/-- Compatibility decomposition leaves ASCII texts alone. -/
structure SlugPlatform extends Platform where
  nfkd : Text → Text
  nfkd_ascii : ∀ value, (∀ u ∈ value, u.val < 128) → nfkd value = value

def hyphen : CodeUnit := codeUnit 45

/-- `[\u0300-\u036f]` -/
def isDiacritic (u : CodeUnit) : Bool :=
  decide (768 ≤ u.val ∧ u.val ≤ 879)

/-- `.replace(/[^a-z0-9]+/g, '-')`, with the hyphen of a run written at its first character. -/
def hyphenate : Bool → Text → Text
  | _, [] => []
  | inRun, u :: rest =>
    if isAlphanumeric u then u :: hyphenate false rest
    else if inRun then hyphenate true rest
    else hyphen :: hyphenate true rest

/-- `.replace(/^-+|-+$/g, '')` -/
def stripHyphens (text : Text) : Text :=
  (text.dropWhile fun u => decide (u = hyphen)).rdropWhile fun u => decide (u = hyphen)

def SLUG_FALLBACK : Text := ofString "org"

namespace SlugPlatform

variable (p : SlugPlatform)

def slugify (input : Text) : Text :=
  stripHyphens (hyphenate false (p.toLowerCase ((p.nfkd input).filter fun u => !isDiacritic u)))

def slugifyOrFallback (input : Text) : Text :=
  let slug := p.slugify input
  if slug = [] then SLUG_FALLBACK else slug

end SlugPlatform

/-- The characters of a slug. -/
def IsSlugUnit (u : CodeUnit) : Prop :=
  isAlphanumeric u = true ∨ u = hyphen

/-- Words of letters and digits, with single hyphens between them. -/
structure IsSlug (text : Text) : Prop where
  units : ∀ u ∈ text, IsSlugUnit u
  single : text.IsChain fun u v => u = hyphen → v ≠ hyphen
  head : text.head? ≠ some hyphen
  last : text.getLast? ≠ some hyphen

section Units

variable {u : CodeUnit}

theorem not_alphanumeric_hyphen : isAlphanumeric hyphen = false := by decide

theorem alphanumeric_ne_hyphen (h : isAlphanumeric u = true) : u ≠ hyphen := by
  rintro rfl
  rw [not_alphanumeric_hyphen] at h
  cases h

theorem IsSlugUnit.plain (h : IsSlugUnit u) : u.val < 128 ∧ asciiLower u = u ∧ isDiacritic u = false := by
  rcases h with h | rfl
  · obtain ⟨hunit, hlower⟩ := isNameUnit_of_isAlphanumeric h
    have hlt := hunit.lt
    refine ⟨hlt, hlower, ?_⟩
    simp only [isDiacritic, decide_eq_false_iff_not]
    omega
  · decide

end Units

/-! ## What comes of a text -/

section Shape

variable {text : Text}

theorem units_hyphenate (inRun : Bool) (text : Text) : ∀ u ∈ hyphenate inRun text, IsSlugUnit u := by
  fun_induction hyphenate inRun text with
  | case1 => simp
  | case2 inRun u rest halnum ih =>
    intro v hv
    rcases List.mem_cons.mp hv with rfl | hv
    · exact .inl halnum
    · exact ih v hv
  | case3 u rest halnum ih => exact ih
  | case4 inRun u rest halnum hrun ih =>
    intro v hv
    rcases List.mem_cons.mp hv with rfl | hv
    · exact .inr rfl
    · exact ih v hv

/-- Inside of a run no hyphen is written. -/
theorem head_hyphenate_true (text : Text) : (hyphenate true text).head? ≠ some hyphen := by
  induction text with
  | nil => simp [hyphenate]
  | cons u rest ih =>
    rw [hyphenate]
    split
    · next halnum => simpa using alphanumeric_ne_hyphen halnum
    · exact ih

theorem isChain_hyphenate (inRun : Bool) (text : Text) :
    (hyphenate inRun text).IsChain fun u v => u = hyphen → v ≠ hyphen := by
  fun_induction hyphenate inRun text with
  | case1 => exact .nil
  | case2 inRun u rest halnum ih =>
    apply List.isChain_cons.mpr
    exact ⟨fun v _ hu => absurd hu (alphanumeric_ne_hyphen halnum), ih⟩
  | case3 u rest halnum ih => exact ih
  | case4 inRun u rest halnum hrun ih =>
    apply List.isChain_cons.mpr
    refine ⟨fun v hv _ hhyphen => ?_, ih⟩
    subst hhyphen
    exact head_hyphenate_true rest hv

theorem stripHyphens_isPrefix (text : Text) :
    stripHyphens text <+: text.dropWhile fun u => decide (u = hyphen) :=
  List.rdropWhile_prefix _ _

theorem head_stripHyphens (text : Text) : (stripHyphens text).head? ≠ some hyphen := by
  obtain ⟨dropped, hdropped⟩ := stripHyphens_isPrefix text
  have hfront := List.head?_dropWhile_not (fun u => decide (u = hyphen)) text
  rw [← hdropped] at hfront
  intro hhead
  rw [List.head?_append, hhead] at hfront
  exact absurd hfront (by simp)

theorem getLast_stripHyphens (text : Text) : (stripHyphens text).getLast? ≠ some hyphen := by
  intro hlast
  have hne : stripHyphens text ≠ [] := by
    intro hnil
    rw [hnil] at hlast
    cases hlast
  rw [List.getLast?_eq_some_getLast hne] at hlast
  exact List.rdropWhile_last_not _ _ hne (decide_eq_true (Option.some.inj hlast))

/-- Whatever the text, a slug comes of it. -/
theorem isSlug_stripHyphens (text : Text) : IsSlug (stripHyphens (hyphenate false text)) where
  units u hu :=
    units_hyphenate false text u
      ((List.dropWhile_suffix _).subset ((stripHyphens_isPrefix _).subset hu))
  single :=
    List.IsChain.prefix (List.IsChain.suffix (isChain_hyphenate false text) (List.dropWhile_suffix _))
      (stripHyphens_isPrefix _)
  head := head_stripHyphens _
  last := getLast_stripHyphens _

end Shape

/-! ## Slugs are their own slugs -/

section Fixed

variable {text : Text}

theorem hyphenate_eq_self (inRun : Bool) (hunits : ∀ u ∈ text, IsSlugUnit u)
    (hsingle : text.IsChain fun u v => u = hyphen → v ≠ hyphen)
    (hhead : inRun = true → text.head? ≠ some hyphen) : hyphenate inRun text = text := by
  induction text generalizing inRun with
  | nil => simp [hyphenate]
  | cons u rest ih =>
    obtain ⟨hnext, hrest⟩ := List.isChain_cons.mp hsingle
    have hunits' : ∀ u ∈ rest, IsSlugUnit u := fun v hv => hunits v (List.mem_cons_of_mem u hv)
    rw [hyphenate]
    rcases hunits u List.mem_cons_self with halnum | rfl
    · rw [if_pos halnum, ih false hunits' hrest (by simp)]
    · cases inRun with
      | true => exact absurd rfl (hhead rfl)
      | false =>
        rw [ih true hunits' hrest fun _ hstart => hnext hyphen hstart rfl rfl]
        simp [not_alphanumeric_hyphen]

theorem IsSlug.stripHyphens_eq (h : IsSlug text) : stripHyphens text = text := by
  have hfront : (text.dropWhile fun u => decide (u = hyphen)) = text := by
    cases text with
    | nil => rfl
    | cons u rest =>
      have hu : u ≠ hyphen := by simpa using h.head
      simp [hu]
  rw [stripHyphens, hfront]
  apply List.rdropWhile_eq_self_iff.mpr
  intro hne hlast
  apply h.last
  rw [List.getLast?_eq_some_getLast hne, of_decide_eq_true hlast]

theorem SlugPlatform.slugify_eq_self (p : SlugPlatform) (h : IsSlug text) : p.slugify text = text := by
  have hplain : ∀ u ∈ text, u.val < 128 ∧ asciiLower u = u ∧ isDiacritic u = false :=
    fun u hu => (h.units u hu).plain
  have hfilter : (text.filter fun u => !isDiacritic u) = text := by
    apply List.filter_eq_self.mpr
    intro u hu
    rw [(hplain u hu).2.2]
    rfl
  unfold slugify
  rw [p.nfkd_ascii text fun u hu => (hplain u hu).1, hfilter,
    p.toLowerCase_ascii text fun u hu => (hplain u hu).1,
    map_asciiLower_eq_self fun u hu => (hplain u hu).2.1, hyphenate_eq_self false h.units h.single (by simp),
    h.stripHyphens_eq]

end Fixed

theorem isSlug_fallback : IsSlug SLUG_FALLBACK := by
  have hunits : SLUG_FALLBACK.all isAlphanumeric = true := by decide
  exact ⟨fun u hu => .inl (List.all_eq_true.mp hunits u hu), by decide, by decide, by decide⟩

/-- The slug of a name is words of letters and digits with single hyphens between them, and the texts of
this form are those that are their own slugs. The slug an organization is registered under is not empty. -/
theorem slug_law (p : SlugPlatform) (input text : Text) :
    IsSlug (p.slugify input) ∧ (p.slugify text = text ↔ IsSlug text) ∧
      IsSlug (p.slugifyOrFallback input) ∧ p.slugifyOrFallback input ≠ [] := by
  have hslug : ∀ input, IsSlug (p.slugify input) := fun input => isSlug_stripHyphens _
  refine ⟨hslug input, ⟨fun h => h ▸ hslug text, p.slugify_eq_self⟩, ?_⟩
  unfold SlugPlatform.slugifyOrFallback
  dsimp only
  split
  · exact ⟨isSlug_fallback, by decide⟩
  · next hne => exact ⟨hslug input, hne⟩

end BookingApp

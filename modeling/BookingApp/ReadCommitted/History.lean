import Mathlib.Data.List.Induction

/-!
# Histories

A history is a list that grows at its end. `Lawful p` says that every entry is
allowed by `p`, given the entries before it; a run keeps it if each of its appends
does (`lawful_append`). `last f` is what the last entry that `f` reads says.
-/

set_option autoImplicit false

namespace History

variable {ε : Type}

/-- Every entry is one that `p` allows after the entries before it. -/
def Lawful (p : List ε → ε → Prop) (h : List ε) : Prop :=
  ∀ before e after, h = before ++ e :: after → p before e

variable {p q : List ε → ε → Prop} {h t : List ε} {e : ε}

theorem lawful_nil : Lawful p ([] : List ε) := by
  intro before e after he
  simp at he

theorem lawful_concat : Lawful p (h ++ [e]) ↔ Lawful p h ∧ p h e := by
  constructor
  · intro hl
    refine ⟨fun before x after hx => ?_, hl h e [] rfl⟩
    exact hl before x (after ++ [e]) (by rw [hx, List.append_assoc, List.cons_append])
  · rintro ⟨hl, he⟩ before x after hx
    rcases List.eq_nil_or_concat after with rfl | ⟨rest, y, rfl⟩
    · obtain ⟨rfl, hlast⟩ := List.append_inj' hx rfl
      obtain rfl := List.head_eq_of_cons_eq hlast
      exact he
    · rw [List.concat_eq_append, ← List.cons_append, ← List.append_assoc] at hx
      obtain ⟨hfirst, -⟩ := List.append_inj' hx rfl
      exact hl before x rest hfirst

/-- Several entries at the end, each allowed after the ones before it. -/
theorem lawful_append : Lawful p (h ++ t) ↔
    Lawful p h ∧ Lawful (fun before e => p (h ++ before) e) t := by
  induction t using List.reverseRecOn with
  | nil => simp [lawful_nil]
  | append_singleton t e ih =>
    rw [← List.append_assoc, lawful_concat, lawful_concat, ih, and_assoc]

theorem Lawful.mono (hl : Lawful p h) (hpq : ∀ before e, p before e → q before e) : Lawful q h :=
  fun before e after he => hpq before e (hl before e after he)

/-- A kind of entry that no further one is: the law says nothing about them. -/
theorem Lawful.append_of_forall (hl : Lawful p h) (ht : ∀ e ∈ t, ∀ before, p before e) :
    Lawful p (h ++ t) := by
  refine lawful_append.mpr ⟨hl, fun before e after he => ht e ?_ (h ++ before)⟩
  rw [he]
  simp

variable {β : Type} {f : ε → Option β} {b : β}

/-- What `f` reads in the last entry in which it reads anything. -/
def last (f : ε → Option β) (h : List ε) : Option β :=
  (h.filterMap f).getLast?

theorem last_append : last f (h ++ t) = (last f t).or (last f h) := by
  rw [last, List.filterMap_append, List.getLast?_append, last, last]

theorem last_eq_none : last f h = none ↔ ∀ e ∈ h, f e = none := by
  simp [last]

/-- Entries in which `f` reads nothing do not matter. -/
theorem last_append_of_forall (ht : ∀ e ∈ t, f e = none) : last f (h ++ t) = last f h := by
  rw [last_append, last_eq_none.mpr ht, Option.none_or]

theorem last_concat_of_some (he : f e = some b) : last f (h ++ [e]) = some b := by
  simp [last, he]

/-- What the last entry says, an entry says. -/
theorem exists_mem_of_last (h' : last f h = some b) : ∃ e ∈ h, f e = some b :=
  List.mem_filterMap.mp (List.mem_of_getLast? h')

/-- An entry in which `f` reads something else is followed by the last one. -/
theorem exists_of_last_eq_some {before after : List ε} (hlast : last f h = some b)
    (hh : h = before ++ e :: after) (he : (f e).isSome = true) (hne : f e ≠ some b) :
    ∃ between x rest, after = between ++ x :: rest ∧ f x = some b := by
  rw [hh, last_append, Option.or_eq_some_iff] at hlast
  have hrest : last f after = some b := by
    obtain hlast | ⟨hnone, -⟩ := hlast
    · rw [← List.singleton_append, last_append, Option.or_eq_some_iff] at hlast
      obtain hlast | ⟨-, hself⟩ := hlast
      · exact hlast
      · cases hfe : f e with
        | none => simp [hfe] at he
        | some c => simp [last, hfe] at hself hne; exact absurd hself hne
    · rw [last_eq_none] at hnone
      simp [hnone e List.mem_cons_self] at he
  obtain ⟨x, hx, hfx⟩ := exists_mem_of_last hrest
  obtain ⟨between, rest, rfl⟩ := List.append_of_mem hx
  exact ⟨between, x, rest, rfl, hfx⟩

end History

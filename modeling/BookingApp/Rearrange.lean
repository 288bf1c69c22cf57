import Mathlib.Data.List.Forall2
import Mathlib.Data.List.Perm.Basic

/-!
# Traversals of rearranged lists

What a traversal in `Except` makes of a list, and of one whose members are those of
another up to a relation, in any order: the same error, or results that are
rearranged in turn. A traversal stops at the first error, so the order only does
not matter where every error is the same.
-/

set_option autoImplicit false

namespace BookingApp

variable {ε α β γ δ : Type}

section Traversal

variable {f : α → Except ε β}

/-- A traversal succeeds with the pointwise results. -/
theorem mapM_eq_ok {l : List α} {out : List β} :
    l.mapM f = .ok out ↔ List.Forall₂ (fun a b => f a = .ok b) l out := by
  induction l generalizing out with
  | nil => simp [pure, Except.pure, eq_comm]
  | cons a l ih =>
    rw [List.mapM_cons, List.forall₂_cons_left_iff]
    cases ha : f a with
    | error e => simp [bind, Except.bind]
    | ok b =>
      cases hl : l.mapM f with
      | error e =>
        simp only [bind, Except.bind, reduceCtorEq, Except.ok.injEq, false_iff, not_exists, not_and]
        rintro b' out' - hrest -
        rw [ih.mpr hrest] at hl
        cases hl
      | ok bs =>
        simp only [bind, Except.bind, pure, Except.pure, Except.ok.injEq]
        constructor
        · rintro rfl
          exact ⟨b, bs, rfl, ih.mp hl, rfl⟩
        · rintro ⟨b', bs', rfl, hrest, rfl⟩
          rw [ih.mpr hrest] at hl
          cases hl
          rfl

theorem exists_mapM_eq_ok {l : List α} (h : ∀ a ∈ l, ∃ b, f a = .ok b) :
    ∃ out, l.mapM f = .ok out := by
  induction l with
  | nil => exact ⟨[], rfl⟩
  | cons a l ih =>
    obtain ⟨b, hb⟩ := h a List.mem_cons_self
    obtain ⟨out, hout⟩ := ih fun a ha => h a (List.mem_cons_of_mem _ ha)
    exact ⟨b :: out, by rw [List.mapM_cons, hb, hout]; rfl⟩

theorem exists_mem_of_mapM_eq_ok {l : List α} {out : List β} (h : l.mapM f = .ok out) {p : β → Prop} :
    (∃ b ∈ out, p b) ↔ ∃ a ∈ l, ∃ b, f a = .ok b ∧ p b := by
  replace h := mapM_eq_ok.mp h
  induction h with
  | nil => simp
  | @cons a b l out hab _ ih =>
    simp only [List.exists_mem_cons_iff, ih, hab, Except.ok.injEq, exists_eq_left']

theorem exists_ok_of_mapM_eq_ok {l : List α} {out : List β} (h : l.mapM f = .ok out) {a : α}
    (ha : a ∈ l) : ∃ b, f a = .ok b := by
  replace h := mapM_eq_ok.mp h
  induction h with
  | nil => cases ha
  | cons hab _ ih =>
    rcases List.mem_cons.mp ha with rfl | ha
    · exact ⟨_, hab⟩
    · exact ih ha

end Traversal

/-- The members of `l'` are those of `l` up to `R`, in any order. -/
def Rearranges (R : α → β → Prop) (l : List α) (l' : List β) : Prop :=
  ∃ m, List.Forall₂ R l m ∧ m.Perm l'

/-- Both fail with the same error, or succeed with related results. -/
inductive Alike (R : α → β → Prop) : Except ε α → Except ε β → Prop where
  | ok {a : α} {b : β} (h : R a b) : Alike R (.ok a) (.ok b)
  | error (e : ε) : Alike R (.error e) (.error e)

namespace Rearranges

variable {R : α → β → Prop} {l : List α} {l' : List β}

theorem of_perm {R : α → α → Prop} (hrefl : ∀ a, R a a) {l l' : List α} (h : l.Perm l') :
    Rearranges R l l' :=
  ⟨l, List.forall₂_same.mpr fun a _ => hrefl a, h⟩

theorem of_forall₂ (h : List.Forall₂ R l l') : Rearranges R l l' :=
  ⟨l', h, .refl l'⟩

theorem filter {p : α → Bool} {q : β → Bool} (h : Rearranges R l l') (hpq : ∀ a b, R a b → p a = q b) :
    Rearranges R (l.filter p) (l'.filter q) := by
  obtain ⟨m, hm, hperm⟩ := h
  refine ⟨m.filter q, ?_, hperm.filter q⟩
  clear hperm
  induction hm with
  | nil => exact .nil
  | @cons a b l m hab hm ih =>
    rw [List.filter_cons, List.filter_cons, hpq a b hab]
    split
    · exact .cons hab ih
    · exact ih

theorem map {Q : γ → δ → Prop} {f : α → γ} {g : β → δ} (h : Rearranges R l l')
    (hfg : ∀ a b, R a b → Q (f a) (g b)) : Rearranges Q (l.map f) (l'.map g) := by
  obtain ⟨m, hm, hperm⟩ := h
  refine ⟨m.map g, ?_, hperm.map g⟩
  rw [List.forall₂_map_left_iff, List.forall₂_map_right_iff]
  exact hm.imp fun a b => hfg a b

theorem flatMap {f : α → List γ} {g : β → List γ} (h : Rearranges R l l')
    (hfg : ∀ a b, R a b → (f a).Perm (g b)) : (l.flatMap f).Perm (l'.flatMap g) := by
  obtain ⟨m, hm, hperm⟩ := h
  refine List.Perm.trans ?_ (hperm.flatMap_right g)
  clear hperm
  induction hm with
  | nil => exact .refl _
  | @cons a b l m hab hm ih =>
    rw [List.flatMap_cons, List.flatMap_cons]
    exact (hfg a b hab).append ih

end Rearranges

namespace Alike

variable {R : α → β → Prop} {x : Except ε α} {y : Except ε β}

theorem bind {Q : γ → δ → Prop} {f : α → Except ε γ} {g : β → Except ε δ} (h : Alike R x y)
    (hfg : ∀ a b, R a b → Alike Q (f a) (g b)) : Alike Q (x >>= f) (y >>= g) := by
  cases h with
  | ok h => exact hfg _ _ h
  | error e => exact .error e

theorem refl {R : α → α → Prop} (hrefl : ∀ a, R a a) (x : Except ε α) : Alike R x x := by
  cases x with
  | ok a => exact .ok (hrefl a)
  | error e => exact .error e

theorem trans {R Q T : α → α → Prop} {x y z : Except ε α} (h : Alike R x y) (h' : Alike Q y z)
    (hT : ∀ a b c, R a b → Q b c → T a c) : Alike T x z := by
  cases h with
  | ok h =>
    cases h' with
    | ok h' => exact .ok (hT _ _ _ h h')
  | error e =>
    cases h' with
    | error => exact .error e

/-- Traversals that go alike at each member. -/
theorem mapM_forall₂ {P : α → β → Prop} {Q : γ → δ → Prop} {f : α → Except ε γ} {g : β → Except ε δ}
    (hfg : ∀ a b, P a b → Alike Q (f a) (g b)) {l : List α} {l' : List β} (h : List.Forall₂ P l l') :
    Alike (List.Forall₂ Q) (l.mapM f) (l'.mapM g) := by
  induction h with
  | nil => exact .ok .nil
  | cons hab _ ih =>
    rw [List.mapM_cons, List.mapM_cons]
    exact (hfg _ _ hab).bind fun _ _ hq => ih.bind fun _ _ hqs => .ok (.cons hq hqs)

/-- An error of a traversal is the error of a member. -/
theorem exists_of_mapM_error {f : α → Except ε β} {l : List α} {e : ε} (h : l.mapM f = .error e) :
    ∃ a ∈ l, f a = .error e := by
  induction l with
  | nil => cases h
  | cons a l ih =>
    rw [List.mapM_cons] at h
    cases hfa : f a with
    | error e' =>
      rw [hfa] at h
      cases h
      exact ⟨a, List.mem_cons_self, hfa⟩
    | ok b =>
      rw [hfa] at h
      cases hrest : l.mapM f with
      | error e' =>
        rw [hrest] at h
        cases h
        obtain ⟨a', ha', hfa'⟩ := ih hrest
        exact ⟨a', List.mem_cons_of_mem a ha', hfa'⟩
      | ok out =>
        rw [hrest] at h
        cases h

/-- A traversal whose only error is `e`, in another order. -/
theorem mapM_perm {e : ε} {f : α → Except ε β} {l l' : List α} (h : l.Perm l')
    (hf : ∀ a ∈ l, ∀ e', f a = .error e' → e' = e) :
    Alike List.Perm (l.mapM f) (l'.mapM f) := by
  induction h with
  | nil => exact .ok .nil
  | cons a _ ih =>
    rw [List.mapM_cons, List.mapM_cons]
    have hrest := ih fun b hb => hf b (List.mem_cons_of_mem a hb)
    exact (refl (fun _ => rfl) (f a)).bind fun b _ hb => hrest.bind fun _ _ hbs => by
      subst hb
      exact .ok (hbs.cons b)
  | swap a b l =>
    have ha := hf a (by simp)
    have hb := hf b (by simp)
    simp only [List.mapM_cons]
    cases hfa : f a with
    | error e₁ =>
      rw [hfa] at ha
      rw [ha e₁ rfl]
      cases hfb : f b with
      | error e₂ =>
        rw [hfb] at hb
        rw [hb e₂ rfl]
        exact .error e
      | ok _ => exact .error e
    | ok x =>
      cases hfb : f b with
      | error e₂ => exact .error e₂
      | ok y =>
        cases l.mapM f with
        | error e₃ => exact .error e₃
        | ok out => exact .ok (.swap x y out)
  | trans h₁ _ ih₁ ih₂ =>
    exact (ih₁ hf).trans (ih₂ fun a ha => hf a (h₁.mem_iff.mpr ha)) fun _ _ _ => List.Perm.trans

/-- Traversals of rearranged lists that go alike at each member and have one error only. -/
theorem mapM {P : α → β → Prop} {Q : γ → δ → Prop} {f : α → Except ε γ} {g : β → Except ε δ} {e : ε}
    (hfg : ∀ a b, P a b → Alike Q (f a) (g b)) (hg : ∀ b e', g b = .error e' → e' = e)
    {l : List α} {l' : List β} (h : Rearranges P l l') :
    Alike (Rearranges Q) (l.mapM f) (l'.mapM g) := by
  obtain ⟨m, hm, hperm⟩ := h
  have hmembers := mapM_forall₂ hfg hm
  have horder := mapM_perm hperm fun b _ => hg b
  generalize l.mapM f = out at hmembers
  generalize m.mapM g = mid at hmembers horder
  generalize l'.mapM g = out' at horder
  cases hmembers with
  | ok h =>
    cases horder with
    | ok h' => exact .ok ⟨_, h, h'⟩
  | error e =>
    cases horder with
    | error => exact .error e

end Alike

end BookingApp

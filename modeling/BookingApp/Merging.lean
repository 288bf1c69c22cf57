import Mathlib.Data.List.Forall2
import Mathlib.Data.List.Perm.Basic
import Mathlib.Order.Basic
import Mathlib.Tactic.Common

/-!
# Merging iterators

Iterators that are asked for one item after the other, and a merge that holds one item
of each at a time and passes on the first that no other comes before. The merge ends
when all iterators have, and it gives each item of each of them once. Where every
iterator is in order, so is the merge.
-/

set_option autoImplicit false

namespace Merging

variable {σ α κ : Type} (next : σ → Option (Option α × σ)) (before : α → α → Bool)

/-- Asked again and again, the iterator gives these items, and then it is done. -/
inductive Yields : σ → List α → Prop
  | done {s s' : σ} (h : next s = some (none, s')) : Yields s []
  | item {s s' : σ} {x : α} {items : List α} (h : next s = some (some x, s')) (hrest : Yields s' items) :
      Yields s (x :: items)

/-- The first item that no other comes before, with the place of its iterator. -/
def earliest (best : Option (Nat × α)) : Nat → List (Option α × σ) → Option (Nat × α)
  | _, [] => best
  | i, (none, _) :: heads => earliest best (i + 1) heads
  | i, (some x, _) :: heads =>
    earliest (if best.all fun b => before x b.2 then some (i, x) else best) (i + 1) heads

/-- The items of the merge; there is none when the rounds do not suffice, or an iterator has no answer. -/
def merge : Nat → List (Option α × σ) → Option (List α)
  | 0, _ => none
  | rounds + 1, heads =>
    match earliest before none 0 heads with
    | none => some []
    | some (i, x) =>
      match heads[i]? with
      | none => some [x]
      | some (_, s) => do
        let head ← next s
        let items ← merge rounds (heads.set i head)
        return x :: items

/-- What a head and its iterator still have to give. -/
inductive Pending : Option α × σ → List α → Prop
  | done (s : σ) : Pending (none, s) []
  | item {s : σ} {items : List α} (x : α) (h : Yields next s items) : Pending (some x, s) (x :: items)

variable {next} {before}

/-! ## The item that is chosen -/

section Earliest

variable {rank : α → κ} [Preorder κ] {heads : List (Option α × σ)} {best : Option (Nat × α)} {i : Nat}

/-- Where something is chosen it is the best so far, or the head of an iterator. -/
theorem earliest_place {j : Nat} {x : α} (h : earliest before best i heads = some (j, x)) :
    best = some (j, x) ∨ i ≤ j ∧ ∃ s, heads[j - i]? = some (some x, s) := by
  induction heads generalizing best i with
  | nil => exact .inl h
  | cons head heads ih =>
    have hlater : i + 1 ≤ j → ∀ s, heads[j - (i + 1)]? = some (some x, s) →
        i ≤ j ∧ ∃ s, (head :: heads)[j - i]? = some (some x, s) := by
      intro hle s hs
      refine ⟨by omega, s, ?_⟩
      have hplace : j - i = j - (i + 1) + 1 := by omega
      rw [hplace, List.getElem?_cons_succ]
      exact hs
    rcases head with ⟨- | y, s⟩
    · rcases ih h with hbest | ⟨hle, t, ht⟩
      · exact .inl hbest
      · exact .inr (hlater hle t ht)
    · rcases ih h with hbest | ⟨hle, t, ht⟩
      · split at hbest
        · obtain ⟨rfl, rfl⟩ := Prod.mk.inj (Option.some.inj hbest)
          refine .inr ⟨Nat.le_refl _, s, ?_⟩
          simp
        · exact .inl hbest
      · exact .inr (hlater hle t ht)

/-- Nothing is chosen only where there is nothing. -/
theorem earliest_eq_none (h : earliest before best i heads = none) :
    best = none ∧ ∀ head ∈ heads, head.1 = none := by
  induction heads generalizing best i with
  | nil => exact ⟨h, fun head hmem => absurd hmem List.not_mem_nil⟩
  | cons head heads ih =>
    rcases head with ⟨- | y, s⟩
    · obtain ⟨hbest, hrest⟩ := ih h
      exact ⟨hbest, List.forall_mem_cons.mpr ⟨rfl, hrest⟩⟩
    · obtain ⟨hbest, -⟩ := ih h
      cases best with
      | none => simp at hbest
      | some b => split at hbest <;> cases hbest

/-- No head is of a lower rank than the one that is chosen. -/
theorem earliest_le (hbefore : ∀ x y, before x y = true → rank x ≤ rank y)
    (hnot : ∀ x y, before x y = false → rank y ≤ rank x) {j : Nat} {x : α}
    (h : earliest before best i heads = some (j, x)) :
    (∀ b ∈ best, rank x ≤ rank b.2) ∧ ∀ y s, (some y, s) ∈ heads → rank x ≤ rank y := by
  induction heads generalizing best i with
  | nil =>
    obtain rfl : best = some (j, x) := h
    refine ⟨?_, fun y s hmem => absurd hmem List.not_mem_nil⟩
    rintro b hb
    obtain rfl := Option.some.inj hb
    exact le_refl _
  | cons head heads ih =>
    rcases head with ⟨- | z, t⟩
    · obtain ⟨hbest, hrest⟩ := ih h
      refine ⟨hbest, fun y s hmem => ?_⟩
      rcases List.mem_cons.mp hmem with heq | hmem
      · cases heq
      · exact hrest y s hmem
    · obtain ⟨hbest, hrest⟩ := ih h
      have hhead : rank x ≤ rank z ∧ ∀ b ∈ best, rank x ≤ rank b.2 := by
        split at hbest
        · next hall =>
          have hz := hbest _ rfl
          refine ⟨hz, fun b hb => hz.trans (hbefore z b.2 ?_)⟩
          obtain rfl := hb
          exact hall
        · next hno =>
          refine ⟨?_, hbest⟩
          cases best with
          | none => exact absurd rfl hno
          | some b =>
            have hz : before z b.2 = false := by simpa using hno
            exact (hbest b rfl).trans (hnot z b.2 hz)
      refine ⟨hhead.2, fun y s hmem => ?_⟩
      rcases List.mem_cons.mp hmem with heq | hmem
      · cases heq
        exact hhead.1
      · exact hrest y s hmem

end Earliest

/-! ## The merge -/

/-- An entry of two lists that belong together, and another pair in its place. -/
theorem forall₂_at {β γ : Type} {R : β → γ → Prop} {xs : List β} {ys : List γ} (h : List.Forall₂ R xs ys) {i : Nat}
    {x : β} (hi : xs[i]? = some x) :
    ∃ y, ys[i]? = some y ∧ R x y ∧ ∀ x' y', R x' y' → List.Forall₂ R (xs.set i x') (ys.set i y') := by
  induction h generalizing i with
  | nil => simp at hi
  | @cons a b xs ys hab hrest ih =>
    cases i with
    | zero =>
      obtain rfl : a = x := by simpa using hi
      exact ⟨b, rfl, hab, fun x' y' hxy => .cons hxy hrest⟩
    | succ i =>
      obtain ⟨y, hy, hxy, hset⟩ := ih (by simpa using hi)
      exact ⟨y, by simpa using hy, hxy, fun x' y' h' => .cons hab (hset x' y' h')⟩

/-- The first item of one of several lists is taken out. -/
theorem perm_flatten_set {lists : List (List α)} {i : Nat} {x : α} {items : List α}
    (h : lists[i]? = some (x :: items)) : lists.flatten.Perm (x :: (lists.set i items).flatten) := by
  induction lists generalizing i with
  | nil => simp at h
  | cons l lists ih =>
    cases i with
    | zero =>
      obtain rfl : l = x :: items := by simpa using h
      exact .refl _
    | succ i =>
      have hrest := ih (by simpa using h)
      rw [List.flatten_cons, List.set_cons_succ, List.flatten_cons]
      exact (hrest.append_left l).trans List.perm_middle

theorem Yields.pending {s : σ} {items : List α} (h : Yields next s items) :
    ∃ head, next s = some head ∧ Pending next head items := by
  cases h with
  | done h => exact ⟨_, h, .done _⟩
  | item h hrest => exact ⟨_, h, .item _ hrest⟩

theorem Pending.head_eq {x : α} {s : σ} {l : List α} (h : Pending next (some x, s) l) :
    ∃ items, l = x :: items ∧ Yields next s items := by
  cases h with
  | item _ h => exact ⟨_, rfl, h⟩

section Merge

variable {rank : α → κ} [Preorder κ] {heads : List (Option α × σ)} {lists : List (List α)}

theorem flatten_eq_nil_of_done (h : List.Forall₂ (Pending next) heads lists)
    (hdone : ∀ head ∈ heads, head.1 = none) : lists.flatten = [] := by
  induction h with
  | nil => rfl
  | cons hpending hrest ih =>
    rw [List.forall_mem_cons] at hdone
    cases hpending with
    | done s => exact ih hdone.2
    | item x h => cases hdone.1

/-- A head is of no higher rank than all that is left. -/
theorem head_le_of_mem_flatten (h : List.Forall₂ (Pending next) heads lists)
    (hsorted : ∀ l ∈ lists, l.Pairwise fun x y => rank x ≤ rank y) {x : α}
    (hx : ∀ y s, (some y, s) ∈ heads → rank x ≤ rank y) : ∀ y ∈ lists.flatten, rank x ≤ rank y := by
  induction h with
  | nil => exact fun y hy => absurd hy List.not_mem_nil
  | cons hpending hrest ih =>
    rw [List.forall_mem_cons] at hsorted
    have hlater := ih hsorted.2 fun y s hmem => hx y s (List.mem_cons_of_mem _ hmem)
    intro y hy
    rw [List.flatten_cons, List.mem_append] at hy
    rcases hy with hy | hy
    · cases hpending with
      | done s => cases hy
      | @item s items z h =>
        have hz : rank x ≤ rank z := hx z s (List.mem_cons_self ..)
        rcases List.mem_cons.mp hy with rfl | hy
        · exact hz
        · exact hz.trans (List.rel_of_pairwise_cons hsorted.1 hy)
    · exact hlater y hy

/-- The merge ends, and gives what was left of every iterator; in order, if each of them is. -/
theorem merge_perm (hbefore : ∀ x y, before x y = true → rank x ≤ rank y)
    (hnot : ∀ x y, before x y = false → rank y ≤ rank x) (h : List.Forall₂ (Pending next) heads lists)
    (hsorted : ∀ l ∈ lists, l.Pairwise fun x y => rank x ≤ rank y) :
    ∃ items, (∀ rounds, lists.flatten.length < rounds → merge next before rounds heads = some items) ∧
      items.Perm lists.flatten ∧ items.Pairwise fun x y => rank x ≤ rank y := by
  induction hn : lists.flatten.length using Nat.strongRecOn generalizing heads lists with
  | ind n ih =>
    cases hbest : earliest before none 0 heads with
    | none =>
      have hnil := flatten_eq_nil_of_done h (earliest_eq_none hbest).2
      refine ⟨[], ?_, hnil ▸ .refl _, .nil⟩
      intro rounds hrounds
      obtain ⟨rounds, rfl⟩ := Nat.exists_eq_succ_of_ne_zero (Nat.ne_of_gt (Nat.lt_of_le_of_lt (Nat.zero_le _) hrounds))
      rw [merge, hbest]
    | some place =>
      obtain ⟨i, x⟩ := place
      -- the iterator that the item is of, and what it gives after it
      obtain ⟨-, s, hs⟩ := (earliest_place hbest).resolve_left (Option.some_ne_none _).symm
      rw [Nat.sub_zero] at hs
      obtain ⟨l, hl, hpending, hset⟩ := forall₂_at h hs
      obtain ⟨rest, rfl, hyields⟩ := hpending.head_eq
      obtain ⟨head, hnext, hhead⟩ := hyields.pending
      have hperm := perm_flatten_set hl
      have hlength := hperm.length_eq
      rw [List.length_cons] at hlength
      have hsorted' : ∀ l ∈ lists.set i rest, l.Pairwise fun x y => rank x ≤ rank y := by
        intro l' hl'
        rcases List.mem_or_eq_of_mem_set hl' with hl' | rfl
        · exact hsorted l' hl'
        · exact (hsorted _ (List.mem_of_getElem? hl)).of_cons
      obtain ⟨items, hmerge, hitems, hpairwise⟩ := ih _ (by omega) (hset head rest hhead) hsorted' rfl
      refine ⟨x :: items, ?_, (hitems.cons x).trans hperm.symm, List.pairwise_cons.mpr ⟨?_, hpairwise⟩⟩
      · intro rounds hrounds
        obtain ⟨rounds, rfl⟩ := Nat.exists_eq_succ_of_ne_zero (show rounds ≠ 0 by omega)
        rw [merge, hbest]
        simp only [hs, hnext, hmerge rounds (by omega), Option.bind_eq_bind, Option.bind_some, Option.pure_def]
      · intro y hy
        have hmem : y ∈ lists.flatten := hperm.mem_iff.mpr (List.mem_cons_of_mem _ (hitems.mem_iff.mp hy))
        exact head_le_of_mem_flatten h hsorted (earliest_le hbefore hnot hbest).2 y hmem

end Merge

/-- More rounds, and iterators that answer more often, do not change the merge. -/
theorem merge_mono {next' : σ → Option (Option α × σ)} (hnext : ∀ s head, next s = some head → next' s = some head)
    {rounds rounds' : Nat} (hrounds : rounds ≤ rounds') {heads : List (Option α × σ)} {items : List α}
    (h : merge next before rounds heads = some items) : merge next' before rounds' heads = some items := by
  induction rounds generalizing rounds' heads items with
  | zero => cases h
  | succ rounds ih =>
    obtain ⟨rounds', rfl⟩ := Nat.exists_eq_succ_of_ne_zero (show rounds' ≠ 0 by omega)
    rw [merge] at h ⊢
    cases hbest : earliest before none 0 heads with
    | none =>
      rw [hbest] at h
      exact h
    | some place =>
      obtain ⟨i, x⟩ := place
      rw [hbest] at h
      dsimp only at h ⊢
      cases hat : heads[i]? with
      | none =>
        rw [hat] at h
        exact h
      | some head =>
        rw [hat] at h
        obtain ⟨head', hhead, h⟩ := Option.bind_eq_some_iff.mp h
        obtain ⟨rest, hrest, h⟩ := Option.bind_eq_some_iff.mp h
        dsimp only
        rw [hnext _ _ hhead, Option.bind_eq_bind, Option.bind_some, ih (by omega) hrest]
        exact h

end Merging

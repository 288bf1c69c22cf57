import Mathlib.Data.List.Chain
import Mathlib.Order.Lattice

/-!
# Half-open spans on a line

Items of any kind with a start and an end in a linear order. In a list that is ordered by
the starts, items of positive length are pairwise apart as soon as neighbours are.
-/

set_option autoImplicit false

namespace Spans

variable {α β : Type} [LinearOrder β] (start stop : α → β)

/-- The spans share a point. -/
def Meets (a b : α) : Prop :=
  start a < stop b ∧ start b < stop a

/-- One span ends before the other begins. -/
def Apart (a b : α) : Prop :=
  stop a ≤ start b ∨ stop b ≤ start a

variable {start stop} {a b : α} {l : List α}

theorem not_meets_iff : ¬Meets start stop a b ↔ Apart start stop a b := by
  unfold Meets Apart
  rw [not_and_or, not_lt, not_lt]
  exact or_comm

theorem Apart.symm (h : Apart start stop a b) : Apart start stop b a :=
  Or.symm h

/-- Of two spans of positive length that are apart, the one that starts first ends before the other
begins. -/
theorem Apart.stop_le (h : Apart start stop a b) (hb : start b < stop b) (hab : start a ≤ start b) :
    stop a ≤ start b := by
  rcases h with h | h
  · exact h
  · exact absurd (hb.trans_le h) (not_lt.mpr hab)

/-- Where neighbours are apart, every span ends before any later one begins. -/
theorem pairwise_of_isChain (hpos : ∀ x ∈ l, start x < stop x) (h : l.IsChain fun a b => stop a ≤ start b) :
    l.Pairwise fun a b => stop a ≤ start b := by
  induction l with
  | nil => exact .nil
  | cons a rest ih =>
    have hrest := ih (fun x hx => hpos x (List.mem_cons_of_mem a hx)) h.tail
    refine List.pairwise_cons.mpr ⟨fun b hb => ?_, hrest⟩
    cases rest with
    | nil => cases hb
    | cons next rest =>
      have hnext : stop a ≤ start next := h.rel
      rcases List.mem_cons.mp hb with rfl | hb
      · exact hnext
      · -- the neighbour has a positive length, and ends before `b` begins
        have hlength := hpos next (List.mem_cons_of_mem a List.mem_cons_self)
        exact hnext.trans (hlength.le.trans ((List.pairwise_cons.mp hrest).1 b hb))

/-- In the order of their starts, spans of positive length are pairwise apart exactly when
neighbours are. -/
theorem isChain_iff_pairwise_apart (hpos : ∀ x ∈ l, start x < stop x)
    (hsorted : l.Pairwise fun a b => start a ≤ start b) :
    (l.IsChain fun a b => stop a ≤ start b) ↔ l.Pairwise (Apart start stop) := by
  constructor
  · exact fun h => (pairwise_of_isChain hpos h).imp Or.inl
  · intro h
    have hboth := List.pairwise_and_iff.mpr ⟨hsorted, h⟩
    refine (hboth.imp_of_mem fun {a b} _ hb hab => ?_).isChain
    exact hab.2.stop_le (hpos b hb) hab.1

/-- Spans are pairwise apart exactly when no two of them, at different places of the list, meet. -/
theorem pairwise_apart_iff : l.Pairwise (Apart start stop) ↔
    ¬∃ (i j : Nat) (a b : α), i < j ∧ l[i]? = some a ∧ l[j]? = some b ∧ Meets start stop a b := by
  rw [List.pairwise_iff_getElem]
  constructor
  · rintro h ⟨i, j, a, b, hij, ha, hb, hmeets⟩
    obtain ⟨hi, rfl⟩ := List.getElem?_eq_some_iff.mp ha
    obtain ⟨hj, rfl⟩ := List.getElem?_eq_some_iff.mp hb
    exact not_meets_iff.mpr (h i j hi hj hij) hmeets
  · intro h i j hi hj hij
    refine not_meets_iff.mp fun hmeets => h ⟨i, j, _, _, hij, ?_, ?_, hmeets⟩
    · exact List.getElem?_eq_getElem hi
    · exact List.getElem?_eq_getElem hj

end Spans

import Mathlib.Data.List.Sort
import Mathlib.Data.List.Nodup
import Mathlib.Tactic.Common

/-!
# Pages by key

A list of rows is read in pages of a few rows each. A page starts after the key that
the one before ended with, so that rows may come and go between two pages. The keys
are linearly ordered, and no two rows of a table have the same.
-/

set_option autoImplicit false

namespace Keyset

variable {ρ κ : Type} [LinearOrder κ] (key : ρ → κ)

/-- The rows in the order of their keys. -/
def sorted (rows : List ρ) : List ρ :=
  rows.insertionSort fun r s => key r ≤ key s

/-- The rows after a key, or all of them. -/
def after (start : Option κ) (rows : List ρ) : List ρ :=
  rows.filter fun r => start.all fun k => decide (k < key r)

/-- The first rows after a key, in order. -/
def page (limit : Nat) (start : Option κ) (rows : List ρ) : List ρ :=
  (sorted key (after key start rows)).take limit

/-- The rows of one page after the other, each read from the table as it is by then, and whether
a page was the last. -/
def follow (limit : Nat) : Option κ → List (List ρ) → List ρ × Bool
  | _, [] => ([], false)
  | start, rows :: tables =>
    let items := page key limit start rows
    match items.getLast? with
    | none => (items, true)
    | some last =>
      if limit < (after key start rows).length then
        let rest := follow limit (some (key last)) tables
        (items ++ rest.1, rest.2)
      else (items, true)

variable {key} {limit : Nat} {start : Option κ} {rows : List ρ} {r : ρ} {k : κ}

theorem mem_after : r ∈ after key start rows ↔ r ∈ rows ∧ ∀ k ∈ start, k < key r := by
  cases start <;> simp [after]

@[simp] theorem after_none : after key none rows = rows := by
  simp [after]

/-- What is after a key and after a later one, too, is after the later one. -/
theorem after_after (h : ∀ j ∈ start, j ≤ k) : after key (some k) (after key start rows) = after key (some k) rows := by
  rw [after, after, after, List.filter_filter]
  refine List.filter_congr fun r _ => ?_
  cases start with
  | none => simp
  | some j =>
    have hj : j ≤ k := h j rfl
    by_cases hk : k < key r
    · simp [hk, hj.trans_lt hk]
    · simp [hk]

theorem perm_sorted : (sorted key rows).Perm rows :=
  List.perm_insertionSort _ rows

theorem mem_sorted : r ∈ sorted key rows ↔ r ∈ rows :=
  perm_sorted.mem_iff

theorem length_sorted : (sorted key rows).length = rows.length :=
  perm_sorted.length_eq

theorem pairwise_sorted_le : (sorted key rows).Pairwise fun r s => key r ≤ key s :=
  haveI : Std.Total fun r s : ρ => key r ≤ key s := ⟨fun r s => le_total (key r) (key s)⟩
  haveI : IsTrans ρ fun r s => key r ≤ key s := ⟨fun _ _ _ h h' => le_trans h h'⟩
  List.pairwise_insertionSort _ rows

/-- Distinct keys are in strict order. -/
theorem pairwise_sorted (h : (rows.map key).Nodup) :
    (sorted key rows).Pairwise fun r s => key r < key s := by
  have hnodup : ((sorted key rows).map key).Nodup := (perm_sorted.map key).nodup_iff.mpr h
  rw [List.Nodup, List.pairwise_map] at hnodup
  exact (pairwise_sorted_le.and hnodup).imp fun ⟨hle, hne⟩ => lt_of_le_of_ne hle hne

/-- The rows of a table in the one order that there is. -/
theorem eq_sorted {items : List ρ} (hperm : items.Perm rows)
    (hitems : items.Pairwise fun r s => key r < key s) : items = sorted key rows := by
  have hnodup : (rows.map key).Nodup := by
    refine (hperm.map key).nodup_iff.mp ?_
    rw [List.Nodup, List.pairwise_map]
    exact hitems.imp ne_of_lt
  exact (hperm.trans perm_sorted.symm).eq_of_pairwise (fun r s _ _ h h' => absurd h (lt_asymm h')) hitems
    (pairwise_sorted hnodup)

/-- What follows the last row of an initial part is the rest. -/
theorem after_getLast {first rest : List ρ} {last : ρ}
    (h : (first ++ rest).Pairwise fun r s => key r < key s) (hlast : first.getLast? = some last) :
    after key (some (key last)) (first ++ rest) = rest := by
  obtain ⟨init, rfl⟩ := List.getLast?_eq_some_iff.mp hlast
  obtain ⟨hfirst, -, hrest⟩ := List.pairwise_append.mp h
  rw [after, List.filter_append, List.filter_eq_nil_iff.mpr, List.nil_append, List.filter_eq_self]
  · intro s hs
    simpa using hrest last (by simp) s hs
  · intro r hr
    rcases List.mem_append.mp hr with hr | hr
    · simpa using ((List.pairwise_append.mp hfirst).2.2 r hr last (by simp)).le
    · rw [List.mem_singleton.mp hr]
      simp

theorem nodup_after (start : Option κ) (h : (rows.map key).Nodup) : ((after key start rows).map key).Nodup :=
  h.sublist (List.filter_sublist.map key)

/-- A page and the rows after its end. -/
theorem page_append (h : (rows.map key).Nodup) {last : ρ}
    (hlast : (page key limit start rows).getLast? = some last) :
    page key limit start rows ++ sorted key (after key (some (key last)) rows) =
      sorted key (after key start rows) := by
  have hsorted := pairwise_sorted (nodup_after start h)
  have hsplit : page key limit start rows ++ (sorted key (after key start rows)).drop limit =
      sorted key (after key start rows) := List.take_append_drop _ _
  have hmem : last ∈ after key start rows :=
    mem_sorted.mp (List.mem_of_mem_take (List.mem_of_getLast? hlast))
  have hrest : after key (some (key last)) (sorted key (after key start rows)) =
      (sorted key (after key start rows)).drop limit := by
    have := after_getLast (hsplit.symm ▸ hsorted) hlast
    rwa [hsplit] at this
  refine Eq.trans (congrArg _ (eq_sorted ?_ (hsorted.sublist (List.drop_sublist _ _))).symm) hsplit
  have hlater : after key (some (key last)) (after key start rows) = after key (some (key last)) rows :=
    after_after fun j hj => ((mem_after.mp hmem).2 j hj).le
  rw [← hrest, ← hlater]
  exact perm_sorted.filter _

/-- The last page has all that is left. -/
theorem page_eq_sorted (h : (after key start rows).length ≤ limit) :
    page key limit start rows = sorted key (after key start rows) :=
  List.take_of_length_le (by rwa [length_sorted])

theorem mem_page (h : r ∈ page key limit start rows) : r ∈ after key start rows :=
  mem_sorted.mp (List.mem_of_mem_take h)

variable {tables : List (List ρ)}

end Keyset

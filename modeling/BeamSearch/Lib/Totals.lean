import Mathlib.Algebra.BigOperators.Group.Finset.Piecewise
import Mathlib.Algebra.Order.BigOperators.Group.List
import Mathlib.Algebra.Order.Ring.Nat

/-
  Sums over a table when one place of it changes.

  Main declarations:
    * `sum_range_update`
    * `sum_map_set`
    * `eq_of_sum_eq`
-/

namespace Totals

----------------
-- Functions
----------------

/- The sum after one change. -/
theorem sum_range_update
    (f : Nat → Nat)
    {i n : Nat}
    (hi : i < n)
    (x : Nat) :
    (∑ j ∈ Finset.range n, Function.update f i x j) + f i =
      (∑ j ∈ Finset.range n, f j) + x := by
  have hMem : i ∈ Finset.range n := Finset.mem_range.mpr hi
  have hNew := Finset.sum_update_of_mem hMem f x
  have hOld := Finset.sum_update_of_mem hMem f (f i)
  rw [Function.update_eq_self] at hOld
  omega

/- The new place is behind the sum. -/
theorem sum_range_update_self
    (f : Nat → Nat)
    (n x : Nat) :
    (∑ j ∈ Finset.range (n + 1), Function.update f n x j) =
      (∑ j ∈ Finset.range n, f j) + x := by
  rw [Finset.sum_range_succ, Function.update_self,
    Finset.sum_update_of_notMem Finset.notMem_range_self]

----------------
-- Lists
----------------

/- The same of a list. -/
theorem sum_map_set
    {α : Type}
    (g : α → Nat)
    (x : α) :
    ∀ (xs : List α) (i : Nat) (old : α),
      xs[i]? = some old →
      ((xs.set i x).map g).sum + g old = (xs.map g).sum + g x
  | [], _, _, hOld => nomatch hOld
  | y :: ys, 0, old, hOld => by
      cases hOld
      rw [List.set_cons_zero, List.map_cons, List.map_cons,
        List.sum_cons, List.sum_cons]
      omega
  | y :: ys, i + 1, old, hOld => by
      have hRest := sum_map_set g x ys i old hOld
      rw [List.set_cons_succ, List.map_cons, List.map_cons,
        List.sum_cons, List.sum_cons]
      omega

/- The sum of a range. -/
theorem sum_map_range
    (f : Nat → Nat)
    (n : Nat) :
    ((List.range n).map f).sum = ∑ i ∈ Finset.range n, f i := by
  induction n with
  | zero => rfl
  | succ n ih =>
      rw [List.range_succ, List.map_append, List.sum_append, ih,
        Finset.sum_range_succ, List.map_singleton,
        List.sum_singleton]

/- Smaller places with the same sum are the same places. -/
theorem eq_of_sum_eq
    {xs ys : List Nat}
    (hLe : List.Forall₂ (· ≤ ·) xs ys)
    (hSum : xs.sum = ys.sum) :
    xs = ys := by
  induction hLe with
  | nil => rfl
  | cons hHead hTail ih =>
      have hRest := hTail.sum_le_sum
      rw [List.sum_cons, List.sum_cons] at hSum
      rw [ih (by omega)]
      congr 1
      omega

end Totals

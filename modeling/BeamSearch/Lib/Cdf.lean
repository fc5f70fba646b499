import Mathlib.Algebra.BigOperators.Group.Finset.Basic
import Mathlib.Algebra.Order.BigOperators.Group.Finset
import Mathlib.Algebra.BigOperators.Intervals
import Mathlib.Data.List.Count

/-
  Cumulative histograms.

  A histogram is a function from bins to counts. `cdf h s`
  counts the bins up to and including `s`. The pointwise
  difference of the larger of two cumulative histograms is a
  lower bound for the histogram of a union, and `crossing?`
  scans for the first bin whose cumulative count reaches a
  given width.

  Main declarations:
    * `cdf`
    * `crossing?`
    * `conservativeUnion`
    * `cdf_conservativeUnion`
    * `cdf_histogram`
-/

namespace Cdf

open Finset

universe u

----------------
-- Cumulative Counts
----------------

/- The number of entries in the bins below `n`. -/
def below (h : Nat → Nat) (n : Nat) : Nat :=
  ∑ i ∈ range n, h i

/- The number of entries in the bins up to `s`. -/
def cdf (h : Nat → Nat) (s : Nat) : Nat :=
  below h (s + 1)

/- Nothing is below the first bin. -/
@[simp] theorem below_zero (h : Nat → Nat) :
    below h 0 = 0 := by
  simp [below]

/- One bin more. -/
theorem below_succ (h : Nat → Nat) (n : Nat) :
    below h (n + 1) = below h n + h n :=
  sum_range_succ h n

/- The sum grows with the bins. -/
theorem below_mono
    (h : Nat → Nat)
    {m n : Nat}
    (hLe : m ≤ n) :
    below h m ≤ below h n :=
  sum_le_sum_of_subset (range_mono hLe)

/- The sum of two functions. -/
theorem below_add
    (f g : Nat → Nat)
    (n : Nat) :
    below (fun i => f i + g i) n = below f n + below g n :=
  sum_add_distrib

/- One bin is part of the sum. -/
theorem below_add_le
    (f : Nat → Nat)
    {i n : Nat}
    (hLt : i < n) :
    below f i + f i ≤ below f n := by
  rw [← below_succ]
  exact below_mono f hLt

/- The sum of the greater function is the greater. -/
theorem below_le_below
    {f g : Nat → Nat}
    {n : Nat}
    (hLe : ∀ i < n, f i ≤ g i) :
    below f n ≤ below g n := by
  apply sum_le_sum
  intro i hMem
  exact hLe i (mem_range.mp hMem)

/- The sum of bounded bins is bounded. -/
theorem below_le_mul
    {h : Nat → Nat}
    {n capacity : Nat}
    (hLe : ∀ i < n, h i ≤ capacity) :
    below h n ≤ n * capacity := by
  have hConst : below (fun _ => capacity) n = n * capacity := by
    rw [below, sum_const_nat fun _ _ => rfl, card_range]
  rw [← hConst]
  exact below_le_below hLe

/- The sum reads the bins below only. -/
theorem below_congr
    {g h : Nat → Nat}
    {n : Nat}
    (hEq : ∀ i < n, g i = h i) :
    below g n = below h n :=
  sum_congr rfl fun i hMem => hEq i (mem_range.mp hMem)

/- Cumulative counts of a sum of histograms add up. -/
theorem cdf_sum
    {ι : Type u}
    (domains : Finset ι)
    (h : ι → Nat → Nat)
    (s : Nat) :
    cdf (fun i => ∑ d ∈ domains, h d i) s =
      ∑ d ∈ domains, cdf (h d) s := by
  unfold cdf below
  exact sum_comm

----------------
-- The First Crossing
----------------

/-
  Scan bins in order, adding their counts, and stop at the
  first one that brings the cumulative count to `width`.
-/
def crossingLoop
    (h : Nat → Nat)
    (width : Nat) : List Nat → Nat → Option Nat
  | [], _ => none
  | s :: rest, cumulative =>
      if width ≤ cumulative + h s then
        some s
      else
        crossingLoop h width rest (cumulative + h s)

/-
  The first value at which the sum reaches the width, if any.
-/
def crossing? (h : Nat → Nat) (width bins : Nat) : Option Nat :=
  crossingLoop h width (List.range bins) 0

/-
  What the loop finds from any start; the induction is on the
  bins that are left.
-/
theorem crossingLoop_range'
    (h : Nat → Nat)
    (width start count : Nat) :
    match
      crossingLoop h width (List.range' start count)
        (below h start)
    with
    | some s =>
        start ≤ s ∧ s < start + count ∧ width ≤ cdf h s ∧
          ∀ r, start ≤ r → r < s → cdf h r < width
    | none =>
        ∀ r, start ≤ r → r < start + count →
          cdf h r < width := by
  induction count generalizing start with
  | zero =>
      intro r hLow hHigh
      omega
  | succ count ih =>
      rw [List.range'_succ, crossingLoop, ← below_succ]
      by_cases hReached : width ≤ below h (start + 1)
      · rw [if_pos hReached]
        refine ⟨le_rfl, by omega, hReached, ?_⟩
        intro r hLow hHigh
        omega
      · rw [if_neg hReached]
        have hStart : cdf h start < width := not_le.mp hReached
        have hRest := ih (start + 1)
        cases hLoop :
            crossingLoop h width (List.range' (start + 1) count)
              (below h (start + 1)) with
        | none =>
            rw [hLoop] at hRest
            intro r hLow hHigh
            rcases Nat.eq_or_lt_of_le hLow with hEq | hLt
            · exact hEq ▸ hStart
            · exact hRest r hLt (by omega)
        | some s =>
            rw [hLoop] at hRest
            rcases hRest with ⟨hFrom, hTo, hWidth, hBelow⟩
            refine ⟨by omega, by omega, hWidth, ?_⟩
            intro r hLow hHigh
            rcases Nat.eq_or_lt_of_le hLow with hEq | hLt
            · exact hEq ▸ hStart
            · exact hBelow r hLt hHigh

/- The crossing is the first value that reaches the width. -/
theorem crossing?_eq_some
    {h : Nat → Nat}
    {width bins s : Nat}
    (hCross : crossing? h width bins = some s) :
    s < bins ∧ width ≤ cdf h s ∧
      ∀ r < s, cdf h r < width := by
  have hLoop := crossingLoop_range' h width 0 bins
  rw [below_zero, ← List.range_eq_range'] at hLoop
  change crossingLoop h width (List.range bins) 0 = some s
    at hCross
  rw [hCross] at hLoop
  rcases hLoop with ⟨-, hTo, hWidth, hBelow⟩
  refine ⟨by omega, hWidth, ?_⟩
  intro r hLt
  exact hBelow r (Nat.zero_le r) hLt

/- Without a crossing no value reaches it. -/
theorem crossing?_eq_none
    {h : Nat → Nat}
    {width bins : Nat}
    (hCross : crossing? h width bins = none) :
    ∀ r < bins, cdf h r < width := by
  have hLoop := crossingLoop_range' h width 0 bins
  rw [below_zero, ← List.range_eq_range'] at hLoop
  change crossingLoop h width (List.range bins) 0 = none
    at hCross
  rw [hCross] at hLoop
  intro r hLt
  exact hLoop r (Nat.zero_le r) (by omega)

/- The first value that reaches the width is the crossing. -/
theorem crossing?_eq_some_of
    {h : Nat → Nat}
    {width bins s : Nat}
    (hBin : s < bins)
    (hReach : width ≤ cdf h s)
    (hBelow : ∀ r < s, cdf h r < width) :
    crossing? h width bins = some s := by
  cases hCross : crossing? h width bins with
  | none =>
      have hNone := crossing?_eq_none hCross s hBin
      omega
  | some r =>
      rcases crossing?_eq_some hCross with ⟨-, hReachR, hBelowR⟩
      rcases Nat.lt_trichotomy r s with hLt | hEq | hGt
      · have hNot := hBelow r hLt
        omega
      · rw [hEq]
      · have hNot := hBelowR s hGt
        omega

/- Scanning one more bin only matters when nothing was found before. -/
theorem crossing?_succ
    (h : Nat → Nat)
    (width bins : Nat) :
    crossing? h width (bins + 1) =
      match crossing? h width bins with
      | some s => some s
      | none =>
          if width ≤ below h (bins + 1) then some bins
          else none := by
  cases hCross : crossing? h width bins with
  | some s =>
      rcases crossing?_eq_some hCross with
        ⟨hBin, hReach, hBelow⟩
      exact crossing?_eq_some_of (by omega) hReach hBelow
  | none =>
      have hNone := crossing?_eq_none hCross
      by_cases hReach : width ≤ below h (bins + 1)
      · simp only [if_pos hReach]
        exact crossing?_eq_some_of (Nat.lt_succ_self bins)
          hReach hNone
      · simp only [if_neg hReach]
        cases hNext : crossing? h width (bins + 1) with
        | none => rfl
        | some s =>
            rcases crossing?_eq_some hNext with
              ⟨hBin, hReachS, -⟩
            have hMono :=
              below_mono h (show s + 1 ≤ bins + 1 by omega)
            unfold cdf at hReachS
            omega

----------------
-- The Conservative Union
----------------

/-
  The histogram whose cumulative counts are the larger of the
  two given ones. Taking the larger of each bin is not safe.
-/
def conservativeUnion (a b : Nat → Nat) (s : Nat) : Nat :=
  max (cdf a s) (cdf b s) - max (below a s) (below b s)

/- The union's sums are the greater ones. -/
theorem below_conservativeUnion (a b : Nat → Nat) (n : Nat) :
    below (conservativeUnion a b) n =
      max (below a n) (below b n) := by
  induction n with
  | zero => simp
  | succ n ih =>
      have hA := below_mono a (Nat.le_add_right n 1)
      have hB := below_mono b (Nat.le_add_right n 1)
      rw [below_succ, ih, conservativeUnion, cdf, cdf]
      omega

/- The same of the sums up to a value. -/
theorem cdf_conservativeUnion (a b : Nat → Nat) (s : Nat) :
    cdf (conservativeUnion a b) s =
      max (cdf a s) (cdf b s) :=
  below_conservativeUnion a b (s + 1)

----------------
-- Histograms Of Lists
----------------

section Lists

variable {α : Type u}

/- How many items fall into a bin. -/
def histogram (bin : α → Nat) (xs : List α) (s : Nat) : Nat :=
  xs.countP fun a => bin a = s

/- One value more is counted. -/
theorem countP_lt_succ
    (bin : α → Nat)
    (xs : List α)
    (n : Nat) :
    xs.countP (fun a => bin a < n + 1) =
      xs.countP (fun a => bin a < n) +
        xs.countP (fun a => bin a = n) := by
  induction xs with
  | nil => rfl
  | cons a xs ih =>
      simp only [List.countP_cons, ih, decide_eq_true_eq]
      split_ifs <;> omega

/- The bins below a value count the items below it. -/
theorem below_histogram
    (bin : α → Nat)
    (xs : List α)
    (n : Nat) :
    below (histogram bin xs) n =
      xs.countP fun a => bin a < n := by
  induction n with
  | zero => simp
  | succ n ih =>
      rw [below_succ, ih, countP_lt_succ, histogram]

/- The bins up to a value count the items up to it. -/
theorem cdf_histogram
    (bin : α → Nat)
    (xs : List α)
    (s : Nat) :
    cdf (histogram bin xs) s =
      xs.countP fun a => bin a ≤ s := by
  rw [cdf, below_histogram]
  simp only [Nat.lt_succ_iff]

/- Two lists are counted apart. -/
theorem histogram_append
    (bin : α → Nat)
    (xs ys : List α)
    (s : Nat) :
    histogram bin (xs ++ ys) s =
      histogram bin xs s + histogram bin ys s :=
  List.countP_append

end Lists

end Cdf

import Mathlib.Tactic.Common

/-
  The point where a list turns from one side to the other.

  A search halves the open positions and reads one row for every
  step. It stops when no position is open, and on a list whose
  low rows come first it never reads outside the open positions.

  Main declarations:
    * `pointLoop`, `partitionPoint`
    * `partitionPoint_spec`
-/

namespace PartitionPoint

universe u

variable {α : Type u}

/- The positions from `first` to `last` are open. -/
def pointLoop
    (low : α → Bool)
    (xs : List α)
    (first last : Nat) : Option Nat :=
  if first < last then
    let mid := first + (last - first) / 2
    match xs[mid]? with
    | none => none
    | some a =>
        if low a = true then
          pointLoop low xs (mid + 1) last
        else
          pointLoop low xs first mid
  else
    some first
termination_by last - first

/- The number of low rows; `none` is a read outside the list. -/
def partitionPoint (low : α → Bool) (xs : List α) : Option Nat :=
  pointLoop low xs 0 xs.length

/- The low rows are those before the point. -/
structure IsPoint
    (low : α → Bool)
    (xs : List α)
    (point : Nat) : Prop where
  inside : point ≤ xs.length
  before :
    ∀ (i : Nat) (hLt : i < xs.length),
      i < point → low xs[i] = true
  behind :
    ∀ (i : Nat) (hLt : i < xs.length),
      point ≤ i → low xs[i] = false

/- The loop halves the span; both ends stay on their sides. -/
theorem pointLoop_spec
    {low : α → Bool}
    {xs : List α}
    (hLow :
      xs.Pairwise fun a b => low b = true → low a = true)
    (first last : Nat)
    (hOrder : first ≤ last)
    (hInside : last ≤ xs.length)
    (hBefore :
      ∀ (i : Nat) (hLt : i < xs.length),
        i < first → low xs[i] = true)
    (hBehind :
      ∀ (i : Nat) (hLt : i < xs.length),
        last ≤ i → low xs[i] = false) :
    ∃ point,
      pointLoop low xs first last = some point ∧
        IsPoint low xs point := by
  have hDown := List.pairwise_iff_getElem.mp hLow
  induction first, last using pointLoop.induct low xs with
  | case1 first last hOpen mid hNone =>
      have hMid : mid < xs.length := by
        dsimp only [mid]
        omega
      rw [List.getElem?_eq_getElem hMid] at hNone
      cases hNone
  | case2 first last hOpen mid a hRead hLowMid ih =>
      rcases List.getElem?_eq_some_iff.mp hRead with
        ⟨hMid, hRow⟩
      have hNext :=
        ih (by dsimp only [mid]; omega) hInside
          (fun i hLt hI => by
            by_cases hSame : i = mid
            · subst hSame
              rw [hRow]
              exact hLowMid
            · exact
                hDown i mid hLt hMid (by omega)
                  (hRow ▸ hLowMid))
          hBehind
      rw [pointLoop, if_pos hOpen]
      dsimp only
      rw [hRead]
      dsimp only
      rw [if_pos hLowMid]
      exact hNext
  | case3 first last hOpen mid a hRead hHigh ih =>
      rcases List.getElem?_eq_some_iff.mp hRead with
        ⟨hMid, hRow⟩
      have hHighMid : low xs[mid] = false := by
        rw [hRow]
        exact Bool.eq_false_iff.mpr hHigh
      have hNext :=
        ih (by dsimp only [mid]; omega) (by omega) hBefore
          (fun i hLt hI => by
            by_cases hSame : mid = i
            · subst hSame
              exact hHighMid
            · refine Bool.eq_false_iff.mpr fun hLowRow => ?_
              have hLowMid :=
                hDown mid i hMid hLt (by omega) hLowRow
              rw [hHighMid] at hLowMid
              cases hLowMid)
      rw [pointLoop, if_pos hOpen]
      dsimp only
      rw [hRead]
      dsimp only
      rw [if_neg hHigh]
      exact hNext
  | case4 first last hClosed =>
      rw [pointLoop, if_neg hClosed]
      exact
        ⟨first, rfl, Nat.le_trans hOrder hInside, hBefore,
          fun i hLt hI => hBehind i hLt (by omega)⟩

/- The search finds the point, whatever the length. -/
theorem partitionPoint_spec
    {low : α → Bool}
    {xs : List α}
    (hLow :
      xs.Pairwise fun a b => low b = true → low a = true) :
    ∃ point,
      partitionPoint low xs = some point ∧
        IsPoint low xs point :=
  pointLoop_spec hLow 0 xs.length (Nat.zero_le _) (Nat.le_refl _)
    (fun i _ hI => absurd hI (Nat.not_lt_zero i))
    (fun _ hLt hI => absurd hLt (Nat.not_lt.mpr hI))

end PartitionPoint

import Mathlib.Algebra.Order.Floor.Div
import Mathlib.Tactic.Ring
import BeamSearch.Core.Errors
import BeamSearch.Lib.Word
import BeamSearch.Memory.RuntimeConfig

/-
  A count scaled by parts per million in 64 bits.

  Both factors are split at a million, so that a product may
  exceed 64 bits as long as the scaled count does not.

  Main declarations:
    * `checkedProduct`
    * `scaledRoundUp`
    * `scaledRoundUp_eq`
-/

namespace BeamSearch

open Word

namespace Memory

----------------
-- Checked Products
----------------

/- The quotient is asked before the product is formed. -/
def checkedProduct
    (a b : Nat)
    (context : String) : Checked Exception Nat :=
  if b ≠ 0 then do
    let most ← div uint64Limit b
    if a > most then
      throwing (.overflowError (context ++ " exceeds uint64"))
    else
      mul 64 a b
  else
    mul 64 a b

/- The greatest word, written out. -/
theorem uint64Limit_eq : uint64Limit = 2 ^ 64 - 1 :=
  rfl

/- The quotient's test is that of the product. -/
theorem checkedProduct_eq (a b : Nat) (context : String) :
    checkedProduct a b context =
      if a * b < 2 ^ 64 then .ok (a * b)
      else
        throwing
          (.overflowError (context ++ " exceeds uint64")) := by
  rw [checkedProduct]
  split_ifs with hZero hFits hFits
  · have hPos : 0 < b := Nat.pos_of_ne_zero hZero
    have hMost : ¬a > uint64Limit / b := by
      rw [gt_iff_lt, Nat.div_lt_iff_lt_mul hPos, uint64Limit_eq]
      omega
    rw [div_eq hPos, ok_bind, if_neg hMost, mul_eq hFits]
  · have hPos : 0 < b := Nat.pos_of_ne_zero hZero
    have hMost : a > uint64Limit / b := by
      rw [gt_iff_lt, Nat.div_lt_iff_lt_mul hPos, uint64Limit_eq]
      omega
    rw [div_eq hPos, ok_bind, if_pos hMost]
  · exact mul_eq hFits
  · have hB : b = 0 := not_not.mp hZero
    rw [hB, Nat.mul_zero] at hFits
    exact absurd (by decide) hFits

----------------
-- Scaled Counts
----------------

/- A million parts. -/
def ppmScale : Nat :=
  1000000

/- What the source throws where the scale overflows. -/
def ppmOverflow : Exception :=
  .overflowError "PPM scale exceeds uint64"

/- The sum of the parts, each compared with the room left. -/
def addParts
    (whole tailWhole tailFraction : Nat) :
    Checked Exception Nat := do
  let room ← sub uint64Limit whole
  if tailWhole > room then
    throwing ppmOverflow
  else do
    let rest ← sub room tailWhole
    if tailFraction > rest then
      throwing ppmOverflow
    else do
      let sum ← add 64 whole tailWhole
      add 64 sum tailFraction

/- The product by parts, each of them checked. -/
def scaledRoundUp (value ppm : Nat) : Checked Exception Nat := do
  let quotient ← div value ppmScale
  let whole ← checkedProduct quotient ppm "PPM scale"
  let remainder := value % ppmScale
  let high ← div ppm ppmScale
  let tailWhole ← checkedProduct remainder high "PPM scale"
  let tailProduct ← mul 64 remainder (ppm % ppmScale)
  let tailQuotient ← div tailProduct ppmScale
  let tailFraction ←
    add 64 tailQuotient
      (if tailProduct % ppmScale ≠ 0 then 1 else 0)
  addParts whole tailWhole tailFraction

/- The two tests of the sum are one. -/
theorem addParts_eq
    {whole : Nat}
    (tailWhole tailFraction : Nat)
    (hWhole : whole < 2 ^ 64) :
    addParts whole tailWhole tailFraction =
      if whole + tailWhole + tailFraction < 2 ^ 64 then
        .ok (whole + tailWhole + tailFraction)
      else throwing ppmOverflow := by
  have hRoom : whole ≤ uint64Limit := by
    rw [uint64Limit_eq]
    omega
  rw [addParts, sub_eq hRoom, ok_bind]
  by_cases hTail : tailWhole > uint64Limit - whole
  · have hOver : ¬whole + tailWhole + tailFraction < 2 ^ 64 := by
      rw [uint64Limit_eq] at hTail
      omega
    rw [if_pos hTail, if_neg hOver]
  · rw [if_neg hTail, sub_eq (Nat.not_lt.mp hTail), ok_bind]
    rw [uint64Limit_eq] at *
    split_ifs with hFraction hFits hFits
    · omega
    · rfl
    · have hSum : whole + tailWhole < 2 ^ 64 := by
        omega
      rw [add_eq hSum, ok_bind, add_eq hFits]
    · omega

/- The quotient of a product rounded up, part by part. -/
theorem ceilDiv_parts (n : Nat) :
    n ⌈/⌉ ppmScale =
      n / ppmScale + (if n % ppmScale ≠ 0 then 1 else 0) := by
  rw [Nat.ceilDiv_eq_add_pred_div, ppmScale]
  split_ifs with hRest <;> omega

/- The product, taken apart at the scale. -/
theorem product_parts (value ppm : Nat) :
    value * ppm =
      value % ppmScale * (ppm % ppmScale) +
        ppmScale *
          (value / ppmScale * ppm +
            value % ppmScale * (ppm / ppmScale)) := by
  have hValue := Nat.div_add_mod value ppmScale
  have hPpm := Nat.div_add_mod ppm ppmScale
  calc
    value * ppm =
        (ppmScale * (value / ppmScale) + value % ppmScale) *
          ppm := by
      rw [hValue]
    _ = ppmScale * (value / ppmScale * ppm) +
          value % ppmScale * ppm := by
      ring
    _ = ppmScale * (value / ppmScale * ppm) +
          value % ppmScale *
            (ppmScale * (ppm / ppmScale) + ppm % ppmScale) := by
      rw [hPpm]
    _ = _ := by
      ring

/-
  So its quotient is a sum of parts; only the last one is
  rounded.
-/
theorem ceilDiv_product (value ppm : Nat) :
    (value * ppm) ⌈/⌉ ppmScale =
      value / ppmScale * ppm +
          value % ppmScale * (ppm / ppmScale) +
        (value % ppmScale * (ppm % ppmScale)) ⌈/⌉ ppmScale := by
  have hPos : 0 < ppmScale := by
    decide
  rw [ceilDiv_parts, ceilDiv_parts, product_parts value ppm,
    Nat.add_mul_div_left _ _ hPos, Nat.add_mul_mod_self_left]
  omega

/- The exact rounded quotient, or an overflow; nothing wraps. -/
theorem scaledRoundUp_eq (value ppm : UInt64) :
    scaledRoundUp value.toNat ppm.toNat =
      if (value.toNat * ppm.toNat) ⌈/⌉ 1000000 < 2 ^ 64 then
        .ok ((value.toNat * ppm.toNat) ⌈/⌉ 1000000)
      else throwing ppmOverflow := by
  have hPpm : ppm.toNat < 2 ^ 64 := ppm.toNat_lt
  generalize value.toNat = v
  generalize ppm.toNat = p at *
  have hPos : 0 < ppmScale := by
    decide
  have hSum := ceilDiv_product v p
  have hRemainder : v % ppmScale < ppmScale :=
    Nat.mod_lt _ hPos
  have hLow : p % ppmScale < ppmScale := Nat.mod_lt _ hPos
  -- The products of the remainders stay far below 64 bits.
  have hTailWhole :
      v % ppmScale * (p / ppmScale) < 2 ^ 64 := by
    have hHigh : p / ppmScale ≤ (2 ^ 64 - 1) / ppmScale :=
      Nat.div_le_div_right (by omega)
    calc
      v % ppmScale * (p / ppmScale) ≤
          (ppmScale - 1) * ((2 ^ 64 - 1) / ppmScale) :=
        Nat.mul_le_mul (by omega) hHigh
      _ < 2 ^ 64 := by decide
  have hTail :
      v % ppmScale * (p % ppmScale) < ppmScale * ppmScale :=
    Nat.mul_lt_mul'' hRemainder hLow
  have hTailFits : v % ppmScale * (p % ppmScale) < 2 ^ 64 :=
    hTail.trans (by decide)
  have hFraction :
      v % ppmScale * (p % ppmScale) / ppmScale < ppmScale :=
    Nat.div_lt_of_lt_mul hTail
  have hFractionFits :
      v % ppmScale * (p % ppmScale) / ppmScale +
          (if v % ppmScale * (p % ppmScale) % ppmScale ≠ 0
            then 1 else 0) <
        2 ^ 64 := by
    have hScale : ppmScale = 1000000 := rfl
    split_ifs <;> omega
  have hScale : 1000000 = ppmScale := rfl
  rw [scaledRoundUp, div_eq hPos, ok_bind, checkedProduct_eq,
    hScale, hSum, ceilDiv_parts (v % ppmScale * (p % ppmScale))]
  by_cases hWhole : v / ppmScale * p < 2 ^ 64
  · rw [if_pos hWhole, ok_bind, div_eq hPos, ok_bind,
      checkedProduct_eq, if_pos hTailWhole, ok_bind,
      mul_eq hTailFits, ok_bind, div_eq hPos, ok_bind,
      add_eq hFractionFits, ok_bind, addParts_eq _ _ hWhole]
  · have hOver :
        ¬v / ppmScale * p + v % ppmScale * (p / ppmScale) +
            (v % ppmScale * (p % ppmScale) / ppmScale +
              (if v % ppmScale * (p % ppmScale) % ppmScale ≠ 0
                then 1 else 0)) <
          2 ^ 64 := by
      intro hSmall
      apply hWhole
      rw [Nat.add_assoc] at hSmall
      exact lt_of_le_of_lt (Nat.le_add_right _ _) hSmall
    rw [if_neg hWhole, if_neg hOver]
    rfl

end Memory

end BeamSearch

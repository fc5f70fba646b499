import Mathlib.Data.List.Sort
import BeamSearch.Lib.Print

/-
  Arithmetic of double precision numbers.

  A result is the double nearest to the exact one, ties to even,
  and infinite where that would be too large. There is one NaN,
  the largest number of the total order.

  Main declarations:
    * `add`, `sub`, `mul`, `div`
    * `less`, `lessEqual`, `place`
    * `isFinite_of_add`
-/

namespace Text

namespace Double

/- Plus zero. -/
def zero : Double :=
  .finite false 0

/- The nearest double to a natural number. -/
def ofNat (n : Nat) : Double :=
  ofDecimal false n 1

/- The double next to an integer. -/
def ofInt : Int → Double
  | .ofNat n => ofNat n
  | .negSucc n => ofDecimal true (n + 1) 1

----------------
-- Operations
----------------

/- The sign is turned, also that of zero. -/
def neg : Double → Double
  | .nan => .nan
  | .infinite negative => .infinite (!negative)
  | .finite negative units => .finite (!negative) units

/- The sign is dropped. -/
def abs : Double → Double
  | .nan => .nan
  | .infinite _ => .infinite false
  | .finite _ units => .finite false units

/- An exact zero is negative only if both terms are. -/
def add : Double → Double → Double
  | .nan, _ => .nan
  | _, .nan => .nan
  | .infinite s, .infinite t => if s = t then .infinite s else .nan
  | .infinite s, .finite _ _ => .infinite s
  | .finite _ _, .infinite t => .infinite t
  | .finite s a, .finite t b =>
      let total := signedUnits s a + signedUnits t b
      if total = 0 then .finite (s && t) 0
      else ofDecimal (decide (total < 0)) total.natAbs oneUnits

/- A difference is a sum. -/
def sub (a b : Double) : Double :=
  add a (neg b)

/- Zero times infinity is no number. -/
def mul : Double → Double → Double
  | .nan, _ => .nan
  | _, .nan => .nan
  | .infinite s, .infinite t => .infinite (s != t)
  | .infinite s, .finite t b =>
      if b = 0 then .nan else .infinite (s != t)
  | .finite s a, .infinite t =>
      if a = 0 then .nan else .infinite (s != t)
  | .finite s a, .finite t b =>
      ofDecimal (s != t) (a * b) (oneUnits * oneUnits)

/- Zero by zero, and infinity by infinity, are no numbers. -/
def div : Double → Double → Double
  | .nan, _ => .nan
  | _, .nan => .nan
  | .infinite _, .infinite _ => .nan
  | .infinite s, .finite t _ => .infinite (s != t)
  | .finite s _, .infinite t => .finite (s != t) 0
  | .finite s a, .finite t b =>
      if b = 0 then
        if a = 0 then .nan else .infinite (s != t)
      else ofDecimal (s != t) a b

instance : Add Double := ⟨add⟩

instance : Sub Double := ⟨sub⟩

instance : Mul Double := ⟨mul⟩

instance : Div Double := ⟨div⟩

----------------
-- Comparisons
----------------

/- Where a number lies on the line; NaN lies nowhere. -/
def level : Double → Option Int
  | .nan => none
  | .infinite negative =>
      some (signedUnits negative overflowUnits)
  | .finite negative units => some (signedUnits negative units)

/- Nothing is less than NaN, nor is it less than anything. -/
def less (a b : Double) : Bool :=
  match level a, level b with
  | some x, some y => decide (x < y)
  | _, _ => false

/- The same with equality; the two zeros are equal. -/
def lessEqual (a b : Double) : Bool :=
  match level a, level b with
  | some x, some y => decide (x ≤ y)
  | _, _ => false

/- The place in the total order; minus zero is before zero. -/
def place : Double → Int
  | .nan => (overflowUnits : Int) + 1
  | .infinite false => overflowUnits
  | .infinite true => -(overflowUnits : Int) - 1
  | .finite false units => units
  | .finite true units => -(units : Int) - 1

/- Sorted in the total order. -/
def sort (values : List Double) : List Double :=
  values.insertionSort fun a b => place a ≤ place b

----------------
-- Finite Results
----------------

/- A sum is finite only if both of its terms are. -/
theorem isFinite_of_add
    {a b : Double}
    (hSum : (a + b).isFinite = true) :
    a.isFinite = true ∧ b.isFinite = true := by
  change (add a b).isFinite = true at hSum
  cases a with
  | nan => simp [add, isFinite] at hSum
  | infinite s =>
      cases b with
      | nan => simp [add, isFinite] at hSum
      | infinite t =>
          by_cases hSame : s = t <;>
            simp [add, hSame, isFinite] at hSum
      | finite t b => simp [add, isFinite] at hSum
  | finite s a =>
      cases b with
      | nan => simp [add, isFinite] at hSum
      | infinite t => simp [add, isFinite] at hSum
      | finite t b => exact ⟨rfl, rfl⟩

/- A finite number less itself is plus zero. -/
theorem sub_self
    {a : Double}
    (hFinite : a.isFinite = true) :
    a - a = zero := by
  change sub a a = zero
  cases a with
  | nan => simp [isFinite] at hFinite
  | infinite s => simp [isFinite] at hFinite
  | finite s units =>
      have hTotal :
          signedUnits s units + signedUnits (!s) units = 0 := by
        cases s with
        | false => exact Int.add_right_neg _
        | true => exact Int.add_left_neg _
      rw [sub, neg, add]
      simp only [if_pos hTotal, Bool.and_not_self, zero]

/- Finite and without a sign. -/
def isUnsigned : Double → Bool
  | .finite false _ => true
  | _ => false

/- A magnitude has no sign. -/
theorem isUnsigned_abs
    {a : Double}
    (hFinite : a.isFinite = true) :
    a.abs.isUnsigned = true := by
  cases a with
  | nan => cases hFinite
  | infinite negative => cases hFinite
  | finite negative units => rfl

/- A number without a sign is its units. -/
theorem eq_finite_of_isUnsigned
    {a : Double}
    (hUnsigned : a.isUnsigned = true) :
    ∃ units, a = .finite false units := by
  cases a with
  | nan => cases hUnsigned
  | infinite negative => cases hUnsigned
  | finite negative units =>
      cases negative with
      | false => exact ⟨units, rfl⟩
      | true => cases hUnsigned

/- The greater of two such numbers is one. -/
theorem isUnsigned_max
    {a b : Double}
    (hA : a.isUnsigned = true)
    (hB : b.isUnsigned = true) :
    (max a b).isUnsigned = true := by
  rcases eq_finite_of_isUnsigned hA with ⟨m, rfl⟩
  rcases eq_finite_of_isUnsigned hB with ⟨n, rfl⟩
  simp only [max, signedUnits, Bool.false_eq_true, if_false]
  split_ifs with hLess
  · rfl
  · rfl

/- A fraction without a sign is not below zero. -/
theorem zero_lessEqual_ofDecimal (num den : Nat) :
    lessEqual zero (ofDecimal false num den) = true := by
  rw [ofDecimal]
  split_ifs with hFits
  · exact decide_eq_true (Int.natCast_nonneg (nearest num den))
  · exact decide_eq_true (Int.natCast_nonneg overflowUnits)

/- Nothing is negative about a product of unsigned numbers. -/
theorem zero_lessEqual_mul
    {a b : Double}
    (hA : a.isUnsigned = true)
    (hB : b.isUnsigned = true) :
    lessEqual zero (a * b) = true := by
  rcases eq_finite_of_isUnsigned hA with ⟨m, rfl⟩
  rcases eq_finite_of_isUnsigned hB with ⟨n, rfl⟩
  change
    lessEqual zero (mul (.finite false m) (.finite false n)) =
      true
  rw [mul, bne_self_eq_false]
  exact zero_lessEqual_ofDecimal _ _

example :
    ofDecimal false 1 10 + ofDecimal false 2 10 =
      ofDecimal false 30000000000000004 100000000000000000 := by
  decide +kernel

end Double

end Text

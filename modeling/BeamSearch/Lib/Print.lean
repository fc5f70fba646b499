import BeamSearch.Lib.Double
import Mathlib.Data.Nat.Log
import Mathlib.Tactic.Linarith
import Mathlib.Tactic.Ring

/-
  Numbers printed as text.

  A whole number is printed in decimal. A double is printed with
  six significant digits, as a stream does by default: in fixed
  notation while the exponent of ten is small, else in
  scientific notation, and without zeros at the end of the
  fraction. What is printed is read back as a number of the same
  kind.

  Main declarations:
    * `decimal`, `parseUnsigned_decimal`, `numeral`
    * `sixDigits`, `printDouble`
    * `parseDouble_printDouble`
-/

namespace Text

variable {units : Nat} {digits fraction : Text}

----------------
-- Whole Numbers
----------------

/- The decimal digits. -/
def decimal (n : Nat) : Text :=
  Nat.toDigits 10 n

/- A decimal has digits only. -/
theorem all_isDigit_decimal (n : Nat) :
    (decimal n).all Char.isDigit = true :=
  List.all_eq_true.mpr fun _ hMem =>
    Nat.isDigit_of_mem_toDigits (by decide) (by decide) hMem

/- A number has a digit. -/
theorem decimal_ne_nil (n : Nat) : decimal n ≠ [] :=
  Nat.toDigits_ne_nil

/- So its text is one of digits. -/
theorem allDigits_decimal (n : Nat) :
    allDigits (decimal n) = true := by
  simp [allDigits, decimal_ne_nil, all_isDigit_decimal]

/- The digits spell the number. -/
@[simp] theorem spelled_decimal (n : Nat) :
    spelled (decimal n) = n :=
  Nat.ofDigitChars_ten_toDigits

/- What was printed is read. -/
theorem parseUnsigned_decimal
    {bits n : Nat}
    (hFits : n < 2 ^ bits) :
    parseUnsigned bits (decimal n) = some n := by
  rw [parseUnsigned_of_digits bits (allDigits_decimal n),
    spelled_decimal, if_pos hFits]

/- Two numbers are printed apart. -/
theorem decimal_injective : Function.Injective decimal :=
  Function.LeftInverse.injective spelled_decimal

/- A whole number as a string. -/
def numeral (n : Nat) : String :=
  String.ofList (decimal n)

/- A text of digits, if its number is a 64-bit word. -/
def parseU64 (text : String) : Option Nat :=
  parseUnsigned 64 text.toList

/- The same of strings. -/
theorem parseU64_numeral
    {n : Nat}
    (hFits : n < 2 ^ 64) :
    parseU64 (numeral n) = some n := by
  rw [parseU64, numeral, String.toList_ofList]
  exact parseUnsigned_decimal hFits

/- Two numerals are apart. -/
theorem numeral_injective : Function.Injective numeral := by
  intro m n hSame
  apply decimal_injective
  have hTexts := congrArg String.toList hSame
  simpa only [numeral, String.toList_ofList] using hTexts

----------------
-- Doubles
----------------

/- The units of the number one. -/
def oneUnits : Nat :=
  2 ^ 1074

/- With it every positive double is above one. -/
def printScale : Nat :=
  10 ^ 400

/- The decimal place of the leading digit, above the scale. -/
def leadingPlace (units : Nat) : Nat :=
  Nat.log 10 (units * printScale / oneUnits)

/-
  The digits above a place, rounded to the even one at a tie.
-/
def roundedAt (units places : Nat) : Nat :=
  halfEven (units * printScale) (oneUnits * 10 ^ (places - 5))

/- Six significant digits and the exponent of the first one. -/
def sixDigits (units : Nat) : Nat × Int :=
  let places := leadingPlace units
  let rounded := roundedAt units places
  if rounded < 10 ^ 6 then (rounded, (places : Int) - 400)
  else (10 ^ 5, (places : Int) - 399)

/- Zeros at the end of a fraction are not written. -/
def dropZeros (digits : Text) : Text :=
  digits.rdropWhile fun c => c == '0'

/- Neither is the point before nothing. -/
def dotted (fraction : Text) : Text :=
  if fraction = [] then [] else '.' :: fraction

/- The sign of an exponent is always written. -/
def exponentSign (exponent : Int) : Char :=
  if exponent < 0 then '-' else '+'

/- The digits of an exponent, at least two. -/
def exponentDigits (exponent : Int) : Text :=
  let digits := decimal exponent.natAbs
  if digits.length < 2 then '0' :: digits else digits

/- The exponent as text. -/
def exponentText (exponent : Int) : Text :=
  'e' :: exponentSign exponent :: exponentDigits exponent

/-
  The shorter of the two forms: the exponent is written only
  where it is small or large.
-/
def printDigits (digits : Text) (exponent : Int) : Text :=
  if exponent < -4 ∨ 6 ≤ exponent then
    digits.take 1 ++ dotted (dropZeros (digits.drop 1)) ++
      exponentText exponent
  else if exponent < 0 then
    ['0'] ++
      dotted
        (dropZeros
          (List.replicate (-exponent - 1).toNat '0' ++ digits))
  else
    digits.take (exponent.toNat + 1) ++
      dotted (dropZeros (digits.drop (exponent.toNat + 1)))

/- A number of units as text. -/
def printUnits (units : Nat) : Text :=
  if units = 0 then ['0']
  else
    printDigits (decimal (sixDigits units).1) (sixDigits units).2

/- The sign is written where it is minus. -/
def signed (negative : Bool) (text : Text) : Text :=
  if negative then '-' :: text else text

/- The text of any double. -/
def printDouble : Double → Text
  | .nan => "nan".toList
  | .infinite negative => signed negative "inf".toList
  | .finite negative units => signed negative (printUnits units)

----------------
-- Six Digits
----------------

/- The largest double, rounded to six digits. -/
def maxPrinted : Nat :=
  179769 * 10 ^ 303

/- The printed numbers stay below the greatest one. -/
theorem le_maxPrinted
    {n a b : Nat}
    (hDigits : n ≤ 10 ^ a)
    (hSum : a + b ≤ 308) :
    n * 10 ^ b ≤ maxPrinted := by
  have hTop : 10 ^ 308 ≤ maxPrinted := by decide
  refine le_trans (Nat.mul_le_mul_right _ hDigits) ?_
  rw [← pow_add]
  exact (Nat.pow_le_pow_right (by decide) hSum).trans hTop

/- Rounding goes up by one at most. -/
theorem halfEven_le_div (a b : Nat) :
    halfEven a b ≤ a / b + 1 := by
  unfold halfEven
  split <;> omega

/- Rounding never goes below the quotient. -/
theorem div_le_halfEven (a b : Nat) :
    a / b ≤ halfEven a b := by
  unfold halfEven
  split <;> omega

/- Nothing is rounded above the middle. -/
theorem halfEven_le
    {a b k : Nat}
    (hMiddle : 2 * a < (2 * k + 1) * b) :
    halfEven a b ≤ k := by
  have hSplit : b * (a / b) + a % b = a := Nat.div_add_mod a b
  have hBound : a / b ≤ k := by
    refine Nat.le_of_lt_succ (Nat.div_lt_of_lt_mul ?_)
    nlinarith
  rcases Nat.lt_or_eq_of_le hBound with hLess | hEqual
  · exact (halfEven_le_div a b).trans hLess
  · unfold halfEven
    rw [if_pos]
    · exact hBound
    · left
      rw [hEqual] at hSplit
      nlinarith

/- How the bounds on doubles stand to each other. -/
theorem scale_bounds :
    maxPrinted * 2 ^ 1074 < 2 ^ 2098 ∧
      maxPrinted * 2 ^ 1074 + 2 ^ 2045 < overflowUnits ∧
      10 ^ 5 * oneUnits ≤ printScale ∧
      overflowUnits * printScale < 10 ^ 709 * oneUnits ∧
      2 * (overflowUnits * printScale) <
        (2 * 179769 + 1) * (oneUnits * 10 ^ (708 - 5)) := by
  decide +kernel

/-
  A number below the greatest printed one does not round to
  infinity.
-/
theorem nearest_lt_overflow
    {num den : Nat}
    (hBound : num ≤ den * maxPrinted) :
    nearest num den < overflowUnits := by
  let whole := num * 2 ^ 1074 / den
  let unit := 2 ^ (Nat.log2 whole - 52)
  have hWhole : whole ≤ maxPrinted * 2 ^ 1074 := by
    refine Nat.div_le_of_le_mul ?_
    calc num * 2 ^ 1074
        ≤ den * maxPrinted * 2 ^ 1074 :=
          Nat.mul_le_mul_right _ hBound
      _ = den * (maxPrinted * 2 ^ 1074) := Nat.mul_assoc _ _ _
  have hUnit : unit ≤ 2 ^ 2045 := by
    refine Nat.pow_le_pow_right (by decide) ?_
    by_cases hZero : whole = 0
    · rw [hZero]
      decide
    · have hLog : Nat.log2 whole < 2098 :=
        (Nat.log2_lt hZero).mpr
          (hWhole.trans_lt scale_bounds.1)
      omega
  have hPositive : 0 < unit := Nat.pow_pos (by decide)
  calc nearest num den
      = halfEven (num * 2 ^ 1074) (den * unit) * unit := rfl
    _ ≤ (num * 2 ^ 1074 / (den * unit) + 1) * unit :=
        Nat.mul_le_mul_right _ (halfEven_le_div _ _)
    _ = whole / unit * unit + unit := by
        rw [← Nat.div_div_eq_div_mul, Nat.succ_mul]
    _ ≤ maxPrinted * 2 ^ 1074 + 2 ^ 2045 :=
        Nat.add_le_add
          ((Nat.div_mul_le_self whole unit).trans hWhole) hUnit
    _ < overflowUnits := scale_bounds.2.1

theorem oneUnits_pos : 0 < oneUnits :=
  Nat.pow_pos (by decide)

/- Where the leading digit of a positive double stands. -/
theorem leadingPlace_spec
    (hPositive : 0 < units) :
    5 ≤ leadingPlace units ∧
      10 ^ leadingPlace units * oneUnits ≤ units * printScale ∧
      units * printScale <
        10 ^ (leadingPlace units + 1) * oneUnits := by
  have hLarge : 10 ^ 5 ≤ units * printScale / oneUnits := by
    rw [Nat.le_div_iff_mul_le oneUnits_pos]
    calc 10 ^ 5 * oneUnits ≤ printScale := scale_bounds.2.2.1
      _ ≤ units * printScale :=
          Nat.le_mul_of_pos_left _ hPositive
  have hNonzero : units * printScale / oneUnits ≠ 0 := by omega
  refine ⟨?_, ?_, ?_⟩
  · exact (Nat.le_log_iff_pow_le (by decide) hNonzero).mpr hLarge
  · rw [← Nat.le_div_iff_mul_le oneUnits_pos]
    exact Nat.pow_log_le_self 10 hNonzero
  · rw [← Nat.div_lt_iff_lt_mul oneUnits_pos]
    exact Nat.lt_pow_succ_log_self (by decide) _

/- The leading place of a finite number is bounded. -/
theorem leadingPlace_lt
    {top : Nat}
    (hTop : overflowUnits * printScale < 10 ^ top * oneUnits)
    (hNonzero : top ≠ 0)
    (hFits : units < overflowUnits) :
    leadingPlace units < top := by
  refine Nat.log_lt_of_lt_pow' hNonzero ?_
  rw [Nat.div_lt_iff_lt_mul oneUnits_pos]
  exact (Nat.mul_le_mul_right _ hFits.le).trans_lt hTop

/- By this number of places. -/
theorem leadingPlace_le
    (hFits : units < overflowUnits) :
    leadingPlace units ≤ 708 := by
  have hLess : leadingPlace units < 709 :=
    leadingPlace_lt scale_bounds.2.2.2.1 (by decide) hFits
  omega

/-
  Six digits: the rounded number has six of them, or is the
  next power.
-/
theorem roundedAt_bounds
    (hPositive : 0 < units) :
    10 ^ 5 ≤ roundedAt units (leadingPlace units) ∧
      roundedAt units (leadingPlace units) ≤ 10 ^ 6 := by
  rcases leadingPlace_spec hPositive with
    ⟨hPlaces, hLower, hUpper⟩
  let den := oneUnits * 10 ^ (leadingPlace units - 5)
  have hDen : 0 < den :=
    Nat.mul_pos oneUnits_pos (Nat.pow_pos (by decide))
  have hSplit :
      10 ^ leadingPlace units * oneUnits = 10 ^ 5 * den := by
    calc 10 ^ leadingPlace units * oneUnits
        = 10 ^ (5 + (leadingPlace units - 5)) * oneUnits := by
          rw [Nat.add_sub_cancel' hPlaces]
      _ = 10 ^ 5 * den := by
          rw [pow_add, Nat.mul_assoc,
            Nat.mul_comm _ oneUnits]
  constructor
  · refine le_trans ?_ (div_le_halfEven _ _)
    rw [Nat.le_div_iff_mul_le hDen, ← hSplit]
    exact hLower
  · refine (halfEven_le_div _ _).trans ?_
    refine Nat.div_lt_of_lt_mul ?_
    calc units * printScale
        < 10 ^ (leadingPlace units + 1) * oneUnits := hUpper
      _ = 10 * (10 ^ leadingPlace units * oneUnits) := by
          rw [pow_succ]
          ring
      _ = den * 10 ^ 6 := by
          rw [hSplit]
          ring

/- At the top the digits stay below those of the largest
double. -/
theorem roundedAt_top
    (hFits : units < overflowUnits) :
    roundedAt units 708 ≤ 179769 := by
  refine halfEven_le ?_
  calc 2 * (units * printScale)
      ≤ 2 * (overflowUnits * printScale) :=
        Nat.mul_le_mul_left _ (Nat.mul_le_mul_right _ hFits.le)
    _ < (2 * 179769 + 1) * (oneUnits * 10 ^ (708 - 5)) :=
        scale_bounds.2.2.2.2

/- There are six digits, and what they spell is not above the
largest double rounded. -/
theorem sixDigits_bounds
    (hPositive : 0 < units)
    (hFits : units < overflowUnits) :
    10 ^ 5 ≤ (sixDigits units).1 ∧
      (sixDigits units).1 < 10 ^ 6 ∧
      (sixDigits units).1 * 10 ^ ((sixDigits units).2 - 5).toNat ≤
        maxPrinted := by
  rcases roundedAt_bounds hPositive with ⟨hLower, hUpper⟩
  have hPlaces := leadingPlace_le hFits
  by_cases hCarry : roundedAt units (leadingPlace units) < 10 ^ 6
  · have hDigits :
        sixDigits units =
          (roundedAt units (leadingPlace units),
            (leadingPlace units : Int) - 400) := by
      simp only [sixDigits, if_pos hCarry]
    rw [hDigits]
    dsimp only
    refine ⟨hLower, hCarry, ?_⟩
    rcases Nat.lt_or_eq_of_le hPlaces with hBelow | hTop
    · exact le_maxPrinted hUpper (by omega)
    · rw [hTop]
      exact Nat.mul_le_mul_right (10 ^ 303) (roundedAt_top hFits)
  · have hDigits :
        sixDigits units =
          (10 ^ 5, (leadingPlace units : Int) - 399) := by
      simp only [sixDigits, if_neg hCarry]
    have hBelow : leadingPlace units < 708 := by
      rcases Nat.lt_or_eq_of_le hPlaces with hBelow | hTop
      · exact hBelow
      · rw [hTop] at hCarry
        have hDigitsTop := roundedAt_top hFits
        omega
    rw [hDigits]
    dsimp only
    refine ⟨le_refl _, by decide, ?_⟩
    exact le_maxPrinted (le_refl _) (by omega)

----------------
-- Reading Back
----------------

theorem spelled_replicate_zero (n : Nat) :
    spelled (List.replicate n '0') = 0 := by
  rw [spelled, Nat.ofDigitChars_replicate_zero, Nat.mul_zero]

/- A digit is no other character. -/
theorem ne_of_isDigit
    {c d : Char}
    (hDigit : c.isDigit = true)
    (hOther : d.isDigit = false) :
    c ≠ d := by
  rintro rfl
  rw [hDigit] at hOther
  cases hOther

/- A text of digits has no other character. -/
theorem not_mem_of_digits
    {d : Char}
    (hDigits : digits.all Char.isDigit = true)
    (hOther : d.isDigit = false) :
    d ∉ digits := fun hMem =>
  ne_of_isDigit (List.all_eq_true.mp hDigits d hMem) hOther rfl

/- A digit has no lower case. -/
theorem toLower_of_isDigit
    {c : Char}
    (hDigit : c.isDigit = true) :
    c.toLower = c := by
  have hNine : c.val ≤ '9'.val := by
    simp only [Char.isDigit, Bool.and_eq_true,
      decide_eq_true_eq] at hDigit
    exact hDigit.2
  refine dif_neg fun hUpper => ?_
  exact
    absurd (UInt32.le_trans hUpper.1 hNine) (by decide)

theorem lowerCase_append (a b : Text) :
    lowerCase (a ++ b) = lowerCase a ++ lowerCase b :=
  List.map_append

theorem lowerCase_digits
    (hDigits : digits.all Char.isDigit = true) :
    lowerCase digits = digits :=
  (List.map_congr_left fun c hMem =>
    toLower_of_isDigit (List.all_eq_true.mp hDigits c hMem)).trans
    (List.map_id digits)

/- A fraction has no upper case. -/
theorem lowerCase_dotted
    (hFraction : fraction.all Char.isDigit = true) :
    lowerCase (dotted fraction) = dotted fraction := by
  unfold dotted
  split
  · rfl
  · exact
      congrArg (List.cons '.') (lowerCase_digits hFraction)

/- The digits of an exponent spell it. -/
theorem exponentDigits_spec (exponent : Int) :
    allDigits (exponentDigits exponent) = true ∧
      spelled (exponentDigits exponent) = exponent.natAbs := by
  unfold exponentDigits
  have hAll := all_isDigit_decimal exponent.natAbs
  dsimp only
  split
  · refine ⟨?_, ?_⟩
    · simp [allDigits, hAll]
    · exact
        (spelled_append ['0'] _).trans
          (by simp [spelled, Nat.ofDigitChars_cons])
  · exact ⟨allDigits_decimal _, spelled_decimal _⟩

/- What may stand behind the digits. -/
def exponentPart : Option Int → Text
  | none => []
  | some exponent => exponentText exponent

/- What stands behind the letter, sign and digits. -/
def exponentTail : Option Int → Option Text
  | none => none
  | some exponent =>
      some (exponentSign exponent :: exponentDigits exponent)

/- An exponent is printed in lower case. -/
theorem lowerCase_exponentPart (exponent : Option Int) :
    lowerCase (exponentPart exponent) = exponentPart exponent := by
  cases exponent with
  | none => rfl
  | some e =>
      have hDigits :
          (exponentDigits e).all Char.isDigit = true := by
        have hAll := (exponentDigits_spec e).1
        simp only [allDigits, Bool.and_eq_true] at hAll
        exact hAll.2
      have hSign :
          (exponentSign e).toLower = exponentSign e := by
        unfold exponentSign
        split <;> decide
      calc lowerCase (exponentText e)
          = 'e' :: (exponentSign e).toLower ::
              lowerCase (exponentDigits e) := rfl
        _ = exponentText e := by
            rw [hSign, lowerCase_digits hDigits]
            rfl

/- A printed exponent is read. -/
theorem parseExponent_tail (exponent : Option Int) :
    parseExponent (exponentTail exponent) =
      some (exponent.getD 0) := by
  cases exponent with
  | none => rfl
  | some e =>
      rcases exponentDigits_spec e with ⟨hAll, hSpelled⟩
      by_cases hNegative : e < 0
      · simp only [exponentTail, exponentSign, if_pos hNegative,
          parseExponent, splitSign, hAll, hSpelled,
          Option.getD_some, if_true]
        congr 1
        omega
      · simp only [exponentTail, exponentSign, if_neg hNegative,
          parseExponent, splitSign, hAll, hSpelled,
          Option.getD_some, if_true]
        congr 1
        simp
        omega

/- A printed number is taken apart where it was put together. -/
theorem splitExponent_parts
    {whole : Text}
    (exponent : Option Int)
    (hWhole : whole.all Char.isDigit = true)
    (hFraction : fraction.all Char.isDigit = true) :
    splitExponent (whole ++ dotted fraction ++ exponentPart exponent) =
      (whole ++ dotted fraction, exponentTail exponent) := by
  have hLower :
      lowerCase
          (whole ++ dotted fraction ++ exponentPart exponent) =
        whole ++ dotted fraction ++ exponentPart exponent := by
    rw [lowerCase_append, lowerCase_append,
      lowerCase_digits hWhole, lowerCase_dotted hFraction,
      lowerCase_exponentPart]
  have hAbsent : 'e' ∉ whole ++ dotted fraction := by
    rw [List.mem_append, not_or]
    refine ⟨not_mem_of_digits hWhole (by decide), ?_⟩
    unfold dotted
    split
    · exact List.not_mem_nil
    · rw [List.mem_cons, not_or]
      exact
        ⟨by decide, not_mem_of_digits hFraction (by decide)⟩
  rw [splitExponent, hLower]
  cases exponent with
  | none =>
      rw [exponentPart, List.append_nil,
        splitOnce_of_not_mem hAbsent]
      rfl
  | some e =>
      have hSplit :=
        splitOnce_append
          (exponentSign e :: exponentDigits e) hAbsent
      have hPart :
          exponentPart (some e) =
            'e' :: (exponentSign e :: exponentDigits e) :=
        rfl
      rw [hPart, hSplit]
      rfl

/- A printed mantissa is read. -/
theorem parseMantissa_parts
    {whole : Text}
    (hWhole : allDigits whole = true)
    (hFraction : fraction.all Char.isDigit = true) :
    parseMantissa (whole ++ dotted fraction) =
      some (whole, fraction) := by
  simp only [allDigits, Bool.and_eq_true, bne_iff_ne, ne_eq]
    at hWhole
  have hAll : allDigits (whole ++ fraction) = true := by
    simp [allDigits, hWhole.1, hWhole.2, hFraction]
  have hAbsent : '.' ∉ whole :=
    not_mem_of_digits hWhole.2 (by decide)
  unfold parseMantissa dotted
  by_cases hEmpty : fraction = []
  · subst hEmpty
    rw [if_pos rfl, List.append_nil,
      splitOnce_of_not_mem hAbsent]
    exact if_pos hAll
  · rw [if_neg hEmpty, splitOnce_append fraction hAbsent]
    exact if_pos hAll

/- A printed sign is read. -/
theorem splitSign_signed
    {c : Char}
    (negative : Bool)
    (text : Text)
    (hDigit : c.isDigit = true) :
    splitSign (signed negative (c :: text)) =
      (negative, c :: text) := by
  cases negative with
  | true => rfl
  | false =>
      unfold splitSign signed
      split
      · next heq =>
          cases heq
          exact absurd hDigit (by decide)
      · next heq =>
          cases heq
          exact absurd hDigit (by decide)
      · rfl

/- What a text in the form of a printed double is read as. -/
theorem parseDouble_parts
    {whole : Text}
    (negative : Bool)
    (exponent : Option Int)
    (hWhole : allDigits whole = true)
    (hFraction : fraction.all Char.isDigit = true) :
    parseDouble
        (signed negative
          (whole ++ dotted fraction ++ exponentPart exponent)) =
      some
        (ofDecimal negative
          (spelled (whole ++ fraction) *
            10 ^ (exponent.getD 0 - fraction.length).toNat)
          (10 ^ (-(exponent.getD 0 - fraction.length)).toNat)) := by
  have hDigits : whole.all Char.isDigit = true := by
    simp only [allDigits, Bool.and_eq_true] at hWhole
    exact hWhole.2
  have hNumber :
      parseNumber negative
          (whole ++ dotted fraction ++ exponentPart exponent) =
        some
          (ofDecimal negative
            (spelled (whole ++ fraction) *
              10 ^ (exponent.getD 0 - fraction.length).toNat)
            (10 ^ (-(exponent.getD 0 - fraction.length)).toNat)) := by
    rw [parseNumber, splitExponent_parts exponent hDigits hFraction,
      parseMantissa_parts hWhole hFraction, parseExponent_tail]
  cases whole with
  | nil => exact absurd hWhole (by decide)
  | cons c whole =>
      have hDigit : c.isDigit = true :=
        List.all_eq_true.mp hDigits c List.mem_cons_self
      have hHead :
          ∀ (d : Char) (name rest : Text),
            d.isDigit = false →
              lowerCase (c :: rest) ≠ d :: name := by
        intro d name rest hOther hEqual
        have hSame := (List.cons.inj hEqual).1
        rw [toLower_of_isDigit hDigit] at hSame
        exact ne_of_isDigit hDigit hOther hSame
      rw [parseDouble, List.cons_append, List.cons_append,
        splitSign_signed negative _ hDigit]
      rw [if_neg, if_neg]
      · exact hNumber
      · exact hHead 'n' _ _ (by decide)
      · rintro (hName | hName)
        · exact hHead 'i' _ _ (by decide) hName
        · exact hHead 'i' _ _ (by decide) hName

----------------
-- Printed Doubles
----------------

/- The zeros that are dropped are at the end. -/
theorem dropZeros_append (digits : Text) :
    ∃ k,
      digits = dropZeros digits ++ List.replicate k '0' := by
  refine
    ⟨(digits.rtakeWhile fun c => c == '0').length, ?_⟩
  have hZeros :
      digits.rtakeWhile (fun c => c == '0') =
        List.replicate
          (digits.rtakeWhile fun c => c == '0').length '0' :=
    List.eq_replicate_of_mem fun c hMem => by
      have hZero := List.mem_rtakeWhile_imp hMem
      exact beq_iff_eq.mp hZero
  rw [← hZeros]
  exact List.rdropWhile_append_rtakeWhile.symm

theorem all_dropZeros
    {p : Char → Bool}
    (hDigits : digits.all p = true) :
    (dropZeros digits).all p = true :=
  List.all_eq_true.mpr fun c hMem =>
    List.all_eq_true.mp hDigits c
      ((List.rdropWhile_prefix _ _).subset hMem)

/- The zeros that are dropped only scale the digits. -/
theorem spelled_dropZeros (whole digits : Text) :
    (dropZeros digits).length ≤ digits.length ∧
      spelled (whole ++ digits) =
        spelled (whole ++ dropZeros digits) *
          10 ^ (digits.length - (dropZeros digits).length) := by
  rcases dropZeros_append digits with ⟨k, hSplit⟩
  have hLength : digits.length = (dropZeros digits).length + k := by
    have hSame := congrArg List.length hSplit
    rwa [List.length_append, List.length_replicate] at hSame
  refine ⟨by omega, ?_⟩
  have hZeros :=
    spelled_append (whole ++ dropZeros digits)
      (List.replicate k '0')
  rw [spelled_replicate_zero, List.length_replicate,
    List.append_assoc, ← hSplit] at hZeros
  rw [hZeros, hLength, Nat.add_sub_cancel_left, Nat.add_zero]

/- A number of such parts is read as a finite one. -/
theorem finite_of_parts
    (whole : Text)
    (exponent : Option Int)
    (negative : Bool)
    (hWhole : allDigits whole = true)
    (hFraction : fraction.all Char.isDigit = true)
    (hBound :
      spelled (whole ++ fraction) *
          10 ^ (exponent.getD 0 - fraction.length).toNat ≤
        maxPrinted) :
    ∃ units,
      parseDouble
          (signed negative
            (whole ++ dotted fraction ++
              exponentPart exponent)) =
        some (.finite negative units) := by
  rw [parseDouble_parts negative exponent hWhole hFraction]
  have hDen :
      0 < 10 ^ (-(exponent.getD 0 - fraction.length)).toNat :=
    Nat.pow_pos (by decide)
  exact
    ⟨_, congrArg some
      (if_pos
        (nearest_lt_overflow
          (hBound.trans (Nat.le_mul_of_pos_left _ hDen))))⟩

/- Both printed forms are read as finite numbers. -/
theorem finite_printDigits
    {exponent : Int}
    (negative : Bool)
    (hDigits : digits.all Char.isDigit = true)
    (hLength : digits.length = 6)
    (hBound :
      spelled digits * 10 ^ (exponent - 5).toNat ≤ maxPrinted) :
    ∃ units,
      parseDouble (signed negative (printDigits digits exponent)) =
        some (.finite negative units) := by
  have hTake :
      ∀ n, (digits.take (n + 1)).all Char.isDigit = true ∧
        allDigits (digits.take (n + 1)) = true := by
    intro n
    have hAll : (digits.take (n + 1)).all Char.isDigit = true :=
      List.all_eq_true.mpr fun c hMem =>
        List.all_eq_true.mp hDigits c (List.mem_of_mem_take hMem)
    refine ⟨hAll, ?_⟩
    have hNonempty : digits.take (n + 1) ≠ [] := by
      intro hNil
      have hZero := congrArg List.length hNil
      rw [List.length_take, List.length_nil] at hZero
      omega
    simp [allDigits, hAll, hNonempty]
  have hDrop :
      ∀ n, (digits.drop n).all Char.isDigit = true := fun n =>
    List.all_eq_true.mpr fun c hMem =>
      List.all_eq_true.mp hDigits c (List.mem_of_mem_drop hMem)
  have hSmall : spelled digits ≤ maxPrinted :=
    (Nat.le_mul_of_pos_right _ (Nat.pow_pos (by decide))).trans
      hBound
  unfold printDigits
  split
  · -- Scientific notation.
    rcases spelled_dropZeros (digits.take 1) (digits.drop 1) with
      ⟨hShort, hSpelled⟩
    rw [List.take_append_drop] at hSpelled
    rw [List.length_drop, hLength] at hShort hSpelled
    refine
      finite_of_parts _ (some exponent) negative
        (hTake 0).2 (all_dropZeros (hDrop 1)) ?_
    refine le_trans ?_ hBound
    rw [hSpelled, Nat.mul_assoc, ← pow_add]
    refine
      Nat.mul_le_mul_left _
        (Nat.pow_le_pow_right (by decide) ?_)
    rw [Option.getD_some]
    omega
  · split
    · -- Zeros after the dot.
      let zeros := List.replicate (-exponent - 1).toNat '0'
      have hAll : (zeros ++ digits).all Char.isDigit = true := by
        rw [List.all_append, hDigits, Bool.and_true]
        exact
          List.all_eq_true.mpr fun c hMem => by
            rw [List.eq_of_mem_replicate hMem]
            decide
      have hValue : spelled (['0'] ++ (zeros ++ digits)) =
          spelled digits := by
        rw [← List.append_assoc, spelled_append,
          spelled_append ['0'] zeros, spelled_replicate_zero]
        simp [spelled, Nat.ofDigitChars_cons]
      rcases spelled_dropZeros ['0'] (zeros ++ digits) with
        ⟨-, hSpelled⟩
      have hPart :=
        finite_of_parts ['0'] none negative (by decide) (all_dropZeros hAll) ?_
      · rwa [exponentPart, List.append_nil] at hPart
      · rw [Option.getD_none, zero_sub, Int.toNat_neg_natCast,
          pow_zero, Nat.mul_one]
        refine le_trans ?_ hSmall
        rw [← hValue, hSpelled]
        exact Nat.le_mul_of_pos_right _ (Nat.pow_pos (by decide))
    · -- The dot among the digits.
      let n := exponent.toNat
      rcases spelled_dropZeros (digits.take (n + 1))
          (digits.drop (n + 1)) with
        ⟨-, hSpelled⟩
      rw [List.take_append_drop] at hSpelled
      have hPart :=
        finite_of_parts _ none negative
          (hTake n).2 (all_dropZeros (hDrop (n + 1))) ?_
      · rwa [exponentPart, List.append_nil] at hPart
      · rw [Option.getD_none, zero_sub, Int.toNat_neg_natCast,
          pow_zero, Nat.mul_one]
        refine le_trans ?_ hSmall
        rw [hSpelled]
        exact Nat.le_mul_of_pos_right _ (Nat.pow_pos (by decide))

/- So a positive finite number is read as one. -/
theorem finite_printUnits
    (negative : Bool)
    (hPositive : 0 < units)
    (hFits : units < overflowUnits) :
    ∃ read,
      parseDouble (signed negative (printUnits units)) =
        some (.finite negative read) := by
  rcases sixDigits_bounds hPositive hFits with
    ⟨hLower, hUpper, hBound⟩
  rw [printUnits, if_neg hPositive.ne']
  refine
    finite_printDigits negative (all_isDigit_decimal _) ?_ ?_
  · refine le_antisymm ?_ ?_
    · exact
        (Nat.length_toDigits_le_iff (by decide) (by decide)).mpr
          hUpper
    · refine Nat.lt_of_not_le fun hShort => ?_
      have hFew :=
        (Nat.length_toDigits_le_iff (by decide) (by decide)).mp
          hShort
      exact absurd (hLower.trans_lt hFew) (lt_irrefl _)
  · rw [spelled_decimal]
    exact hBound

/- A double of the type, not a number or infinity included. -/
def Double.InRange : Double → Prop
  | .finite _ units => units < overflowUnits
  | _ => True

/- What a stream prints for a time is read as a time. -/
theorem parseDouble_printDouble
    {number : Double}
    (hRange : number.InRange)
    (hFinite : number.isFinite = true)
    (hTime : number.isNegative = false) :
    ∃ read,
      parseDouble (printDouble number) = some read ∧
        read.isFinite = true ∧ read.isNegative = false := by
  cases number with
  | nan => cases hFinite
  | infinite negative => cases hFinite
  | finite negative units =>
      rcases Nat.eq_zero_or_pos units with hZero | hPositive
      · subst hZero
        cases negative with
        | false =>
            exact ⟨.finite false 0, by decide +kernel, rfl, rfl⟩
        | true =>
            exact ⟨.finite true 0, by decide +kernel, rfl, rfl⟩
      · have hPlain : negative = false := by
          simpa [Double.isNegative, hPositive] using hTime
        subst hPlain
        rcases finite_printUnits false hPositive hRange with
          ⟨read, hRead⟩
        exact ⟨.finite false read, hRead, rfl, rfl⟩

theorem all_isPlain_of_digits
    (hDigits : digits.all Char.isDigit = true) :
    digits.all isPlain = true :=
  List.all_eq_true.mpr fun c hMem =>
    isPlain_of_isDigit (List.all_eq_true.mp hDigits c hMem)

theorem all_isPlain_decimal (n : Nat) :
    (decimal n).all isPlain = true :=
  all_isPlain_of_digits (all_isDigit_decimal n)

theorem all_isPlain_dotted
    (hDigits : digits.all isPlain = true) :
    (dotted (dropZeros digits)).all isPlain = true := by
  unfold dotted
  split
  · rfl
  · rw [List.all_cons, all_dropZeros hDigits]
    decide

theorem all_isPlain_exponentText (exponent : Int) :
    (exponentText exponent).all isPlain = true := by
  have hDigits := (exponentDigits_spec exponent).1
  simp only [allDigits, Bool.and_eq_true] at hDigits
  have hSign : isPlain (exponentSign exponent) = true := by
    unfold exponentSign
    split <;> decide
  rw [exponentText, List.all_cons, List.all_cons, hSign,
    all_isPlain_of_digits hDigits.2]
  decide

theorem all_isPlain_printDigits
    (exponent : Int)
    (hDigits : digits.all isPlain = true) :
    (printDigits digits exponent).all isPlain = true := by
  have hTake : ∀ n, (digits.take n).all isPlain = true := fun n =>
    List.all_eq_true.mpr fun c hMem =>
      List.all_eq_true.mp hDigits c (List.mem_of_mem_take hMem)
  have hDrop : ∀ n, (digits.drop n).all isPlain = true := fun n =>
    List.all_eq_true.mpr fun c hMem =>
      List.all_eq_true.mp hDigits c (List.mem_of_mem_drop hMem)
  unfold printDigits
  split
  · rw [List.all_append, List.all_append, hTake,
      all_isPlain_dotted (hDrop 1), all_isPlain_exponentText]
    rfl
  · split
    · rw [List.all_append, all_isPlain_dotted]
      · decide
      · rw [List.all_append, hDigits, Bool.and_true]
        exact
          List.all_eq_true.mpr fun c hMem => by
            rw [List.eq_of_mem_replicate hMem]
            decide
    · rw [List.all_append, hTake, all_isPlain_dotted (hDrop _)]
      rfl

theorem all_isPlain_signed
    {text : Text}
    (negative : Bool)
    (hText : text.all isPlain = true) :
    (signed negative text).all isPlain = true := by
  unfold signed
  split
  · rw [List.all_cons, hText]
    decide
  · exact hText

/- The text of a double has no space and no equal sign. -/
theorem all_isPlain_printDouble (number : Double) :
    (printDouble number).all isPlain = true := by
  have hUnits :
      ∀ units, (printUnits units).all isPlain = true := by
    intro units
    unfold printUnits
    split
    · decide
    · exact all_isPlain_printDigits _ (all_isPlain_decimal _)
  unfold printDouble
  split
  · decide
  · exact all_isPlain_signed _ (by decide)
  · exact all_isPlain_signed _ (hUnits _)

example :
    [printDouble (.finite false (3725 * oneUnits / 1000)),
        printDouble (.finite false (oneUnits / 1000000)),
        printDouble (.finite false (123456789 * oneUnits)),
        printDouble (.finite true 0)] =
      ["3.725".toList, "1e-06".toList, "1.23457e+08".toList,
        "-0".toList] := by
  decide +kernel

end Text

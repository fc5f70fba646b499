import BeamSearch.Lib.Text

/-
  Double precision numbers read from text.

  A finite double is a multiple of the least positive one. A
  decimal is read as the nearest double, ties to even, and as
  infinite from the place on where that would be too large.

  Main declarations:
    * `Double`
    * `nearest`
    * `parseDouble`
-/

namespace Text

/- `units` counts multiples of 2 ^ -1074. -/
inductive Double where
  | nan
  | infinite (negative : Bool)
  | finite (negative : Bool) (units : Nat)
deriving DecidableEq, Repr

namespace Double

/- A number on the line. -/
def isFinite : Double → Bool
  | .finite _ _ => true
  | _ => false

/- Minus zero is not negative. -/
def isNegative : Double → Bool
  | .finite negative units => negative && decide (0 < units)
  | .infinite negative => negative
  | .nan => false

/- The units with their sign. -/
def signedUnits (negative : Bool) (units : Nat) : Int :=
  if negative then -(units : Int) else units

/- A number wins over no number. -/
def max : Double → Double → Double
  | .nan, b => b
  | a, .nan => a
  | .infinite true, b => b
  | a, .infinite true => a
  | .infinite false, _ => .infinite false
  | _, .infinite false => .infinite false
  | .finite negative a, .finite negative' b =>
      if signedUnits negative a < signedUnits negative' b then
        .finite negative' b
      else .finite negative a

end Double

/- The nearest integer to `a / b`, a tie to the even one. -/
def halfEven (a b : Nat) : Nat :=
  if 2 * (a % b) < b ∨ 2 * (a % b) = b ∧ a / b % 2 = 0 then
    a / b
  else a / b + 1

/- The multiple of 2 ^ -1074 with 53 bits next to `num / den`. -/
def nearest (num den : Nat) : Nat :=
  let scaled := num * 2 ^ 1074
  let unit := 2 ^ (Nat.log2 (scaled / den) - 52)
  halfEven scaled (den * unit) * unit

/- From here on a number rounds to infinity. -/
def overflowUnits : Nat :=
  2 ^ (1024 + 1074)

/- The double of a fraction, or infinity. -/
def ofDecimal (negative : Bool) (num den : Nat) : Double :=
  if nearest num den < overflowUnits then
    .finite negative (nearest num den)
  else .infinite negative

/- The text in lower case; digits stay. -/
def lowerCase (text : Text) : Text :=
  text.map Char.toLower

/- A minus sign, a plus sign, or none. -/
def splitSign : Text → Bool × Text
  | '-' :: text => (true, text)
  | '+' :: text => (false, text)
  | text => (false, text)

/- The exponent of ten; none is zero. -/
def parseExponent : Option Text → Option Int
  | none => some 0
  | some text =>
      let signed := splitSign text
      if allDigits signed.2 then
        some
          (if signed.1 then -(spelled signed.2 : Int)
            else spelled signed.2)
      else none

/- Digits with at most one dot, and at least one digit. -/
def parseMantissa (text : Text) : Option (Text × Text) :=
  let parts := (splitOnce '.' text).getD (text, [])
  if allDigits (parts.1 ++ parts.2) then some parts else none

/- The text before and behind the exponent's letter. -/
def splitExponent (text : Text) : Text × Option Text :=
  match splitOnce 'e' (lowerCase text) with
  | none => (text, none)
  | some parts => (parts.1, some parts.2)

/-
  A number without its sign: mantissa and exponent must both
  parse.
-/
def parseNumber (negative : Bool) (text : Text) :
    Option Double :=
  let parts := splitExponent text
  match parseMantissa parts.1, parseExponent parts.2 with
  | some digits, some exponent =>
      let places := exponent - digits.2.length
      some
        (ofDecimal negative
          (spelled (digits.1 ++ digits.2) * 10 ^ places.toNat)
          (10 ^ (-places).toNat))
  | _, _ => none

/- Names of infinity and of no number, in any case. -/
def parseDouble (text : Text) : Option Double :=
  let signed := splitSign text
  let name := lowerCase signed.2
  if name = "inf".toList ∨ name = "infinity".toList then
    some (.infinite signed.1)
  else if name = "nan".toList then some .nan
  else parseNumber signed.1 signed.2

example :
    parseDouble "1.5e-3".toList =
      some (ofDecimal false 15 10000) := by
  decide +kernel

end Text

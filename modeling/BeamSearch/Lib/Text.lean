import Mathlib.Algebra.GroupWithZero.Nat
import Mathlib.Data.List.DropRight

/-
  Text as a list of characters.

  The operations are those of a string slice: white space
  tokens, a split at the first separator, the first place of a
  pattern, and decimal numbers of a bounded width.

  Main declarations:
    * `splitWhitespace`, `splitOnce`
    * `fromFirst`, `beforeFirst`
    * `parseUnsigned`
-/

namespace Text

/- A text is a list of characters. -/
abbrev Text : Type :=
  List Char

instance : LawfulBEq Text :=
  inferInstanceAs (LawfulBEq (List Char))

----------------
-- White Space
----------------

/- The characters with the property White_Space. -/
def isWhitespace (c : Char) : Bool :=
  (9 ≤ c.toNat && c.toNat ≤ 13) || c.toNat == 32 ||
    c.toNat == 0x85 || c.toNat == 0xA0 || c.toNat == 0x1680 ||
    (0x2000 ≤ c.toNat && c.toNat ≤ 0x200A) ||
    c.toNat == 0x2028 || c.toNat == 0x2029 ||
    c.toNat == 0x202F || c.toNat == 0x205F ||
    c.toNat == 0x3000

/- A character of a key or of a value. -/
def isPlain (c : Char) : Bool :=
  !isWhitespace c && c != '='

/- The words of a text. -/
def splitWhitespace (text : Text) : List Text :=
  (text.splitOnP isWhitespace).filter fun token => token != []

/- The text without the space around it. -/
def trim (text : Text) : Text :=
  (text.dropWhile isWhitespace).rdropWhile isWhitespace

----------------
-- Separators And Patterns
----------------

/- What stands before and after the first `separator`. -/
def splitOnce (separator : Char) : Text → Option (Text × Text)
  | [] => none
  | c :: text =>
      if c = separator then some ([], text)
      else
        (splitOnce separator text).map
          fun parts => (c :: parts.1, parts.2)

/- What follows the pattern, where the text starts with it. -/
def stripPrefix (pattern text : Text) : Option Text :=
  if pattern.isPrefixOf text then
    some (text.drop pattern.length)
  else none

/- The text from the first place of the pattern on. -/
def fromFirst (pattern : Text) : Text → Option Text
  | [] => if pattern = [] then some [] else none
  | c :: text =>
      if pattern.isPrefixOf (c :: text) then some (c :: text)
      else fromFirst pattern text

/- The text up to the first place of the pattern. -/
def beforeFirst (pattern : Text) : Text → Text
  | [] => []
  | c :: text =>
      if pattern.isPrefixOf (c :: text) then []
      else c :: beforeFirst pattern text

/- Whether the pattern is anywhere in the text. -/
def contains (pattern text : Text) : Bool :=
  (fromFirst pattern text).isSome

----------------
-- Numbers
----------------

/- At least one digit and nothing else. -/
def allDigits (text : Text) : Bool :=
  text != [] && text.all Char.isDigit

/- The number a row of digits spells. -/
def spelled (digits : Text) : Nat :=
  Nat.ofDigitChars 10 digits 0

/- One leading plus is read over. -/
def dropPlus : Text → Text
  | '+' :: text => text
  | text => text

/- An unsigned number may have a plus sign. -/
def parseUnsigned (bits : Nat) (text : Text) : Option Nat :=
  let digits := dropPlus text
  if allDigits digits && decide (spelled digits < 2 ^ bits) then
    some (spelled digits)
  else none

----------------
-- Facts
----------------

/- A digit is plain. -/
theorem isPlain_of_isDigit
    {c : Char}
    (hDigit : c.isDigit = true) :
    isPlain c = true := by
  have hRange : 48 ≤ c.toNat ∧ c.toNat ≤ 57 := by
    simp only [Char.isDigit, Bool.and_eq_true,
      decide_eq_true_eq] at hDigit
    exact ⟨hDigit.1, hDigit.2⟩
  have hEquals : c ≠ '=' := by
    rintro rfl
    exact absurd hRange.2 (by decide)
  simp only [isPlain, isWhitespace, Bool.and_eq_true,
    Bool.not_eq_true', Bool.or_eq_false_iff,
    Bool.and_eq_false_iff, decide_eq_false_iff_not,
    beq_eq_false_iff_ne, bne_iff_ne]
  exact ⟨by omega, hEquals⟩

/- The text is the pattern and the rest. -/
theorem stripPrefix_eq_some
    {pattern text rest : Text}
    (hStrip : stripPrefix pattern text = some rest) :
    text = pattern ++ rest := by
  rw [stripPrefix] at hStrip
  split_ifs at hStrip with hPrefix
  cases hStrip
  exact
    (List.prefix_iff_eq_append.mp
      (List.isPrefixOf_iff_prefix.mp hPrefix)).symm

/- Without the separator nothing is split. -/
theorem splitOnce_of_not_mem
    {separator : Char}
    {text : Text}
    (hAbsent : separator ∉ text) :
    splitOnce separator text = none := by
  induction text with
  | nil => rfl
  | cons c text ih =>
      rw [List.mem_cons, not_or] at hAbsent
      rw [splitOnce, if_neg (Ne.symm hAbsent.1), ih hAbsent.2]
      rfl

/- The text is split at the first separator. -/
theorem splitOnce_append
    {separator : Char}
    {before : Text}
    (after : Text)
    (hAbsent : separator ∉ before) :
    splitOnce separator (before ++ separator :: after) =
      some (before, after) := by
  induction before with
  | nil => exact if_pos rfl
  | cons c before ih =>
      rw [List.mem_cons, not_or] at hAbsent
      rw [List.cons_append, splitOnce,
        if_neg (Ne.symm hAbsent.1), ih hAbsent.2]
      rfl

/- The digits of two parts. -/
theorem spelled_append (a b : Text) :
    spelled (a ++ b) = spelled a * 10 ^ b.length + spelled b := by
  rw [spelled, Nat.ofDigitChars_append,
    Nat.ofDigitChars_eq_ofDigitChars_zero, Nat.mul_comm]
  rfl

/- A text of digits has no sign. -/
theorem dropPlus_of_allDigits
    {text : Text}
    (hDigits : allDigits text = true) :
    dropPlus text = text := by
  unfold dropPlus
  split
  · simp [allDigits] at hDigits
  · rfl

/- A text of digits is read where it fits. -/
theorem parseUnsigned_of_digits
    {text : Text}
    (bits : Nat)
    (hDigits : allDigits text = true) :
    parseUnsigned bits text =
      if spelled text < 2 ^ bits then some (spelled text)
      else none := by
  rw [parseUnsigned, dropPlus_of_allDigits hDigits, hDigits,
    Bool.true_and]
  by_cases hLt : spelled text < 2 ^ bits
  · rw [if_pos (decide_eq_true hLt), if_pos hLt]
  · rw [if_neg (by simpa using hLt), if_neg hLt]

end Text

import Mathlib.Algebra.GroupWithZero.Nat
import Mathlib.Tactic.Common
import Mathlib.Order.Lattice

/-
  Files of bytes and arrays that are overwritten in place.

  A write replaces the cells from its start on; every other
  cell stays. Numbers are stored with the low byte first, and
  records of one width lie behind each other.

  Main declarations:
    * `overwrite`
    * `File`, `writeAll`, `readExact`
    * `ofLeBytes_leBytes`
    * `readExact_records`
-/

namespace ByteFile

----------------
-- Overwriting
----------------

variable {α β : Type}

/- The items replace the cells from `start` on. -/
def overwrite
    (cells : Nat → α)
    (start : Nat)
    (xs : List α) : Nat → α :=
  fun i =>
    if start ≤ i then (xs[i - start]?).getD (cells i)
    else cells i

/- Before the start nothing changes. -/
theorem overwrite_of_lt
    (cells : Nat → α)
    {start i : Nat}
    (xs : List α)
    (hLt : i < start) :
    overwrite cells start xs i = cells i :=
  if_neg (Nat.not_le.mpr hLt)

/- Behind the items nothing changes. -/
theorem overwrite_of_ge
    (cells : Nat → α)
    {start i : Nat}
    {xs : List α}
    (hGe : start + xs.length ≤ i) :
    overwrite cells start xs i = cells i := by
  rw [overwrite, if_pos (by omega),
    List.getElem?_eq_none (by omega), Option.getD_none]

/- At its place an item is read. -/
theorem overwrite_at
    (cells : Nat → α)
    (start : Nat)
    {xs : List α}
    {i : Nat}
    (hi : i < xs.length) :
    overwrite cells start xs (start + i) = xs[i] := by
  rw [overwrite, if_pos (Nat.le_add_right start i),
    Nat.add_sub_cancel_left, List.getElem?_eq_getElem hi,
    Option.getD_some]

/- Two writes behind each other are one. -/
theorem overwrite_append
    (cells : Nat → α)
    (start : Nat)
    (xs ys : List α) :
    overwrite (overwrite cells start xs) (start + xs.length)
        ys =
      overwrite cells start (xs ++ ys) := by
  funext i
  by_cases hBefore : i < start + xs.length
  · rw [overwrite_of_lt _ _ hBefore]
    by_cases hStart : start ≤ i
    · rw [overwrite, overwrite, if_pos hStart, if_pos hStart,
        List.getElem?_append_left (by omega)]
    · rw [overwrite_of_lt _ _ (by omega),
        overwrite_of_lt _ _ (by omega)]
  · have hSub : i - (start + xs.length) =
        i - start - xs.length := by
      omega
    rw [overwrite, if_pos (by omega),
      overwrite_of_ge _ (by omega), overwrite,
      if_pos (by omega), List.getElem?_append_right (by omega),
      hSub]

----------------
-- Files
----------------

/-
  A file: a length and its bytes, which mean nothing beyond
  it.
-/
structure File where
  size : Nat
  bytes : Nat → UInt8

/- The file of length zero. -/
def emptyFile : File where
  size := 0
  bytes _ := 0

/- A file whose room is reserved; the bytes are zero. -/
def reservedFile (size : Nat) : File where
  size := size
  bytes _ := 0

/-
  A write may make the file longer. What lies between is left
  as it was.
-/
def writeAll
    (file : File)
    (position : Nat)
    (data : List UInt8) : File where
  size := max file.size (position + data.length)
  bytes := overwrite file.bytes position data

/- A read that does not fit reads nothing. -/
def readExact
    (file : File)
    (position count : Nat) :
    Option (List UInt8) :=
  if position + count ≤ file.size then
    some
      ((List.range count).map fun i => file.bytes (position + i))
  else
    none

/- Two writes to a file behind each other are one. -/
theorem writeAll_append
    (file : File)
    (position : Nat)
    (xs ys : List UInt8) :
    writeAll (writeAll file position xs)
        (position + xs.length) ys =
      writeAll file position (xs ++ ys) := by
  rw [writeAll, writeAll, writeAll, overwrite_append,
    List.length_append]
  congr 1
  dsimp only
  omega

/- Equal bytes in a range that both files have read the same. -/
theorem readExact_congr
    {file file' : File}
    {position count : Nat}
    (hSize : position + count ≤ file.size)
    (hSize' : position + count ≤ file'.size)
    (hBytes :
      ∀ i, position ≤ i → i < position + count →
        file'.bytes i = file.bytes i) :
    readExact file' position count =
      readExact file position count := by
  rw [readExact, readExact, if_pos hSize, if_pos hSize']
  refine congrArg some (List.map_congr_left fun i hMem => ?_)
  have hi := List.mem_range.mp hMem
  exact hBytes _ (by omega) (by omega)

----------------
-- Records
----------------

/- The length of records of one width. -/
theorem length_flatMap_of_width
    {width : Nat}
    {encode : β → List UInt8}
    (hWidth : ∀ b, (encode b).length = width)
    (xs : List β) :
    (xs.flatMap encode).length = xs.length * width := by
  induction xs with
  | nil => simp
  | cons x xs ih =>
      rw [List.flatMap_cons, List.length_append, hWidth, ih,
        List.length_cons, Nat.succ_mul, Nat.add_comm]

/- A byte of records of one width. -/
theorem getElem?_flatMap_of_width
    {width : Nat}
    {encode : β → List UInt8}
    (hWidth : ∀ b, (encode b).length = width)
    (xs : List β)
    {i j : Nat}
    (hi : i < xs.length)
    (hj : j < width) :
    (xs.flatMap encode)[i * width + j]? =
      (encode xs[i])[j]? := by
  induction xs generalizing i with
  | nil => cases hi
  | cons x xs ih =>
      cases i with
      | zero =>
          rw [List.flatMap_cons, Nat.zero_mul, Nat.zero_add,
            List.getElem?_append_left (by rw [hWidth]; exact hj)]
          rfl
      | succ i =>
          have hShift :
              (i + 1) * width + j - (encode x).length =
                i * width + j := by
            rw [hWidth, Nat.succ_mul]
            omega
          rw [List.flatMap_cons,
            List.getElem?_append_right
              (by rw [hWidth, Nat.succ_mul]; omega),
            hShift]
          exact ih (Nat.lt_of_succ_lt_succ hi)

/- A record that was written reads back. -/
theorem readExact_records
    {width : Nat}
    {encode : β → List UInt8}
    (hWidth : ∀ b, (encode b).length = width)
    (file : File)
    (position : Nat)
    {xs : List β}
    {i : Nat}
    (hi : i < xs.length) :
    readExact (writeAll file position (xs.flatMap encode))
        (position + i * width) width =
      some (encode xs[i]) := by
  have hLength := length_flatMap_of_width hWidth xs
  have hEnd : (i + 1) * width ≤ xs.length * width :=
    Nat.mul_le_mul_right width hi
  rw [Nat.succ_mul] at hEnd
  have hSize :
      position + i * width + width ≤
        (writeAll file position (xs.flatMap encode)).size :=
    le_trans (by rw [hLength]; omega) (Nat.le_max_right _ _)
  rw [readExact, if_pos hSize]
  refine congrArg some (List.ext_getElem (by simp [hWidth]) ?_)
  intro j hj _
  have hj' : j < width := by simpa using hj
  have hIn : i * width + j < (xs.flatMap encode).length := by
    omega
  have hGet :=
    getElem?_flatMap_of_width hWidth xs hi hj'
  rw [List.getElem?_eq_getElem hIn,
    List.getElem?_eq_getElem (by rw [hWidth]; exact hj')] at hGet
  rw [List.getElem_map, List.getElem_range, Nat.add_assoc]
  exact
    (overwrite_at file.bytes position hIn).trans
      (Option.some.inj hGet)

----------------
-- Numbers
----------------

/- The low `count` bytes of a number, the lowest first. -/
def leBytes : (count n : Nat) → List UInt8
  | 0, _ => []
  | count + 1, n =>
      UInt8.ofNat (n % 256) :: leBytes count (n / 256)

/- The number of some bytes, the low byte first. -/
def ofLeBytes : List UInt8 → Nat
  | [] => 0
  | byte :: bytes => byte.toNat + 256 * ofLeBytes bytes

@[simp] theorem length_leBytes (count n : Nat) :
    (leBytes count n).length = count := by
  induction count generalizing n with
  | zero => rfl
  | succ count ih => rw [leBytes, List.length_cons, ih]

/- The bytes of a number are read as that number. -/
theorem ofLeBytes_leBytes
    (count : Nat)
    {n : Nat}
    (hn : n < 256 ^ count) :
    ofLeBytes (leBytes count n) = n := by
  induction count generalizing n with
  | zero =>
      rw [Nat.pow_zero] at hn
      rw [leBytes, ofLeBytes]
      omega
  | succ count ih =>
      rw [Nat.pow_succ] at hn
      have hByte :
          (UInt8.ofNat (n % 256)).toNat = n % 256 := by
        rw [UInt8.toNat_ofNat']
        omega
      rw [leBytes, ofLeBytes, hByte, ih (by omega)]
      omega

end ByteFile

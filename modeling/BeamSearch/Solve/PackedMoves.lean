import BeamSearch.Solve.Reconstruct
import Mathlib.Data.Nat.Digits.Lemmas

/-
  Moves packed into one word.

  A word holds up to twelve moves of five bits. It is the number
  whose digits to the base 32 are the moves, the first of them
  lowest, so that a move is put in front by a shift and behind
  by a shifted move.

  Main declarations:
    * `prependSuffixMove`, `appendSuffixMove`
    * `Packs`
    * `Packs.append_packed`
    * `Packs.prepend`, `Packs.append`
-/

namespace BeamSearch

namespace Solve

----------------
-- Adding A Move
----------------

/- A move before the others; twelve fit. -/
def prependSuffixMove
    (moveCount : Nat)
    (suffix : PackedSuffix)
    (move : Nat) : Except Exception PackedSuffix :=
  if move ≥ moveCount then
    .error (.runtimeError "suffix move exceeds MOVE_COUNT")
  else if suffix.len ≥ 12 then
    .error
      (.runtimeError
        "solved neighborhood suffix packing supports radius <= 12")
  else
    .ok ⟨suffix.moves <<< 5 ||| UInt64.ofNat move, suffix.len + 1⟩

/- A move behind the others; twelve fit. -/
def appendSuffixMove
    (moveCount : Nat)
    (suffix : PackedSuffix)
    (move : Nat) : Except Exception PackedSuffix :=
  if move ≥ moveCount then
    .error (.runtimeError "suffix move exceeds MOVE_COUNT")
  else if suffix.len ≥ 12 then
    .error
      (.runtimeError
        "stream2 suffix packing supports radius <= 12")
  else
    .ok
      ⟨suffix.moves |||
          UInt64.ofNat move <<< UInt64.ofNat (5 * suffix.len.toNat),
        suffix.len + 1⟩

----------------
-- Moves As Digits
----------------

/- The word and the length say the moves, five bits each. -/
structure Packs
    (suffix : PackedSuffix)
    (moves : List Nat) : Prop where
  digits : suffix.moves.toNat = Nat.ofDigits 32 moves
  length : suffix.len.toNat = moves.length
  fits : moves.length ≤ 12
  small : ∀ move ∈ moves, move < 32

theorem packs_nil : Packs ⟨0, 0⟩ [] where
  digits := rfl
  length := rfl
  fits := Nat.zero_le _
  small := fun _ hMem => absurd hMem List.not_mem_nil

variable {suffix next : PackedSuffix} {moves : List Nat}

theorem Packs.lt
    (hPacks : Packs suffix moves) :
    suffix.moves.toNat < 2 ^ (5 * moves.length) := by
  have hLt :=
    Nat.ofDigits_lt_base_pow_length (by decide) hPacks.small
  rw [hPacks.digits, pow_mul]
  exact hLt

theorem Packs.packedMove
    (hPacks : Packs suffix moves)
    {i : Nat}
    (hi : i < moves.length) :
    packedMove suffix i = moves[i] := by
  have hTail : Nat.ofDigits 32 moves / 32 ^ i =
      Nat.ofDigits 32 (moves.drop i) :=
    Nat.ofDigits_div_pow_eq_ofDigits_drop i (by decide) moves
      hPacks.small
  have hBase : (2 : Nat) ^ (5 * i) = 32 ^ i :=
    pow_mul 2 5 i
  have hSmall := hPacks.small moves[i] (List.getElem_mem hi)
  rw [Solve.packedMove, hPacks.digits, Nat.shiftRight_eq_div_pow,
    hBase, hTail, List.drop_eq_getElem_cons hi,
    Nat.ofDigits_cons, Nat.add_mul_mod_self_left]
  exact Nat.mod_eq_of_lt hSmall

/- Unpacking reads the moves back in order. -/
theorem Packs.append_packed
    (hPacks : Packs suffix moves)
    (before : List Nat) :
    appendPackedSuffix before suffix = before ++ moves := by
  rw [appendPackedSuffix, hPacks.length]
  congr 1
  refine List.ext_getElem (by simp) fun i hi hi' => ?_
  rw [List.getElem_map, List.getElem_range]
  exact hPacks.packedMove hi'

theorem len_lt_of_packs
    (hPacks : Packs suffix moves) :
    ¬ suffix.len ≥ 12 ↔ moves.length < 12 := by
  have hLength := hPacks.length
  rw [ge_iff_le, UInt8.le_iff_toNat_le]
  simp only [UInt8.toNat_ofNat]
  omega

theorem len_add_one
    (hPacks : Packs suffix moves)
    (hShort : moves.length < 12) :
    (suffix.len + 1).toNat = moves.length + 1 := by
  have hLength := hPacks.length
  rw [UInt8.toNat_add, UInt8.toNat_one]
  omega

theorem Packs.prepend
    (hPacks : Packs suffix moves)
    {moveCount move : Nat}
    (hCount : moveCount ≤ 32)
    (hAdd : prependSuffixMove moveCount suffix move = .ok next) :
    Packs next (move :: moves) := by
  rw [prependSuffixMove] at hAdd
  split_ifs at hAdd with hMove hLong
  cases hAdd
  have hShort := (len_lt_of_packs hPacks).mp hLong
  have hSmall : move < 32 := by omega
  have hLt := hPacks.lt
  have hBound : suffix.moves.toNat * 2 ^ 5 < 2 ^ 64 := by
    have hPow : 2 ^ (5 * moves.length) ≤ 2 ^ 55 :=
      Nat.pow_le_pow_right (by decide) (by omega)
    omega
  refine
    ⟨?_, len_add_one hPacks hShort, by
      rw [List.length_cons]
      omega, ?_⟩
  · dsimp only
    rw [UInt64.toNat_or, UInt64.toNat_shiftLeft,
      UInt64.toNat_ofNat', Nat.ofDigits_cons, ← hPacks.digits,
      Nat.mod_eq_of_lt (a := move) (by omega)]
    have hFive : (5 : UInt64).toNat % 64 = 5 := rfl
    rw [hFive, Nat.shiftLeft_eq, Nat.mod_eq_of_lt hBound,
      ← Nat.shiftLeft_eq,
      ← Nat.shiftLeft_add_eq_or_of_lt (by omega),
      Nat.shiftLeft_eq]
    omega
  · intro other hMem
    rcases List.mem_cons.mp hMem with rfl | hOld
    · exact hSmall
    · exact hPacks.small other hOld

theorem Packs.append
    (hPacks : Packs suffix moves)
    {moveCount move : Nat}
    (hCount : moveCount ≤ 32)
    (hAdd : appendSuffixMove moveCount suffix move = .ok next) :
    Packs next (moves ++ [move]) := by
  rw [appendSuffixMove] at hAdd
  split_ifs at hAdd with hMove hLong
  cases hAdd
  have hShort := (len_lt_of_packs hPacks).mp hLong
  have hSmall : move < 32 := by omega
  have hLength : (moves ++ [move]).length = moves.length + 1 := by
    rw [List.length_append, List.length_singleton]
  have hPow : 2 ^ (5 * moves.length) ≤ 2 ^ 55 :=
    Nat.pow_le_pow_right (by decide) (by omega)
  have hShift :
      (UInt64.ofNat (5 * suffix.len.toNat)).toNat % 64 =
        5 * moves.length := by
    rw [UInt64.toNat_ofNat', hPacks.length]
    omega
  have hBound : move * 2 ^ (5 * moves.length) < 2 ^ 64 := by
    have hLe := Nat.mul_le_mul hSmall.le hPow
    omega
  have hBase : 2 ^ (5 * moves.length) = 32 ^ moves.length :=
    pow_mul 2 5 moves.length
  refine
    ⟨?_, (len_add_one hPacks hShort).trans hLength.symm, by omega,
      ?_⟩
  · dsimp only
    rw [UInt64.toNat_or, UInt64.toNat_shiftLeft, hShift,
      UInt64.toNat_ofNat', Nat.mod_eq_of_lt (a := move) (by omega),
      Nat.shiftLeft_eq, Nat.mod_eq_of_lt hBound,
      ← Nat.shiftLeft_eq, Nat.or_comm,
      ← Nat.shiftLeft_add_eq_or_of_lt hPacks.lt,
      Nat.shiftLeft_eq, Nat.ofDigits_append, ← hPacks.digits,
      Nat.ofDigits_singleton, hBase, Nat.mul_comm move,
      Nat.add_comm]
  · intro other hMem
    rcases List.mem_append.mp hMem with hOld | hSame
    · exact hPacks.small other hOld
    · rw [List.mem_singleton.mp hSame]
      exact hSmall

end Solve

end BeamSearch

import BeamSearch.Core.RankPlans
import BeamSearch.Final.Routing
import BeamSearch.Lib.Word

/-
  How many frontier states every rank holds.

  The device sends a global index to a rank and a slot there,
  the host asks for the frontier size of a rank, and the
  planning crate lists the sizes of all ranks. Each has its own
  formula, all in machine words.

  Main declarations:
    * `finalTarget`
    * `logicalRankFrontier`
    * `rankFrontierCounts`
    * `rankQuotas_agree`
-/

namespace BeamSearch

open Word

namespace Final

variable {ε : Type}

----------------
-- The Device
----------------

/- The division of the device, with every sum checked. -/
def ceilDivU64FinalDevice (a b : Nat) : Checked ε Nat :=
  if b = 0 then
    pure 0
  else do
    let sum ← add 64 a b
    let top ← sub sum 1
    div top b

/- The rank of a global index before the clamp. -/
def unclampedTargetRank
    (globalIdx globalCount worldSize : Nat) :
    Checked ε Nat := do
  let product ← mul 64 globalIdx worldSize
  let quotient ← div product globalCount
  return quotient % 2 ^ 32

/- The target of a row, with every product checked. -/
def targetRankForGlobalFinalDevice
    (globalIdx globalCount worldSize : Nat) :
    Checked ε Nat := do
  let target ←
    unclampedTargetRank globalIdx globalCount worldSize
  if target ≥ worldSize then sub worldSize 1 else return target

/-
  The rank and the slot of a global index, as the load balancer
  and the materialiser compute them. A request holds the low 32
  bits of the slot.
-/
def finalTarget
    (globalIdx globalCount worldSize : Nat) :
    Checked ε (Nat × Nat) := do
  let targetRank ←
    targetRankForGlobalFinalDevice globalIdx globalCount
      worldSize
  let product ← mul 64 targetRank globalCount
  let targetBegin ← ceilDivU64FinalDevice product worldSize
  let targetLocalIdx ← sub globalIdx targetBegin
  return (targetRank, targetLocalIdx % 2 ^ 32)

/- The same pair in exact arithmetic, with the slot as it is. -/
def exactTarget
    (globalCount worldSize globalIdx : Nat) :
    Nat × Nat :=
  let targetRank := globalIdx * worldSize / globalCount
  (targetRank,
    globalIdx - ceilDiv (targetRank * globalCount) worldSize)

/- The global indices the load balancer counts for a rank. -/
def finalSendRange
    (balanceKeepCount worldSize rank : Nat) :
    Checked ε (Nat × Nat) := do
  let beginProduct ← mul 64 rank balanceKeepCount
  let rankBegin ← ceilDivU64FinalDevice beginProduct worldSize
  let next ← add 32 rank 1
  let endProduct ← mul 64 next balanceKeepCount
  let rankEnd ← ceilDivU64FinalDevice endProduct worldSize
  return (rankBegin, rankEnd)

----------------
-- The Host
----------------

/- How many of the first `r` ranks hold a remainder state. -/
def remainderBoundary
    (world remainder r : Nat) :
    Checked ε Nat := do
  let product ← mul 64 r remainder
  let quotient ← div product world
  add 64 quotient (if product % world ≠ 0 then 1 else 0)

/- The rows of a rank's frontier, as the plan has them. -/
def logicalRankFrontier
    (width world rank : Nat) :
    Checked Exception Nat :=
  if world = 0 ∨ rank ≥ world then
    throwing (.invalidArgument "invalid frontier rank")
  else do
    let remainder := width % world
    let next ← add 64 rank 1
    let upper ← remainderBoundary world remainder next
    let lower ← remainderBoundary world remainder rank
    let sum ← add 64 (width / world) upper
    sub sum lower

----------------
-- The Planning Crate
----------------

/- Division rounding up, by quotient and remainder. -/
def divCeil (a b : Nat) : Checked ε Nat := do
  let quotient ← div a b
  if a % b > 0 then add 128 quotient 1 else return quotient

/- The rows of a rank, as the device has them. -/
def rankFrontierCount
    (world requested rank : Nat) :
    Checked ε Nat := do
  let next ← add 128 rank 1
  let upperProduct ← mul 128 next requested
  let upper ← divCeil upperProduct world
  let lowerProduct ← mul 128 rank requested
  let lower ← divCeil lowerProduct world
  let count ← sub upper lower
  return count % 2 ^ 64

/- The counts of all ranks, after their plans were compared. -/
def rankFrontierCounts
    (plans : List RankPlan)
    (requested : Nat) :
    Checked ContractError (List Nat) :=
  match validateRankPlans plans requested with
  | .error error => throwing error
  | .ok () =>
      (List.range plans.length).mapM
        (rankFrontierCount plans.length requested)

----------------
-- Division Rounding Up
----------------

/- Rounding up, by the rest. -/
theorem ceilDiv_eq_div_add
    (a : Nat)
    {b : Nat}
    (hPos : 0 < b) :
    ceilDiv a b = a / b + if a % b ≠ 0 then 1 else 0 := by
  have hParts : b * (a / b) + a % b = a := Nat.div_add_mod a b
  have hRest : a % b < b := Nat.mod_lt a hPos
  rw [ceilDiv, if_neg (Nat.ne_of_gt hPos), Nat.div_eq_iff hPos,
    Nat.add_mul, Nat.mul_comm (a / b)]
  split_ifs <;> omega

/- A multiple comes out of the rounding. -/
theorem ceilDiv_add_mul
    (a c : Nat)
    {b : Nat}
    (hPos : 0 < b) :
    ceilDiv (c * b + a) b = c + ceilDiv a b := by
  rw [ceilDiv_eq_div_add _ hPos, ceilDiv_eq_div_add a hPos,
    Nat.mul_add_mod_self_right, Nat.add_comm (c * b),
    Nat.add_mul_div_right _ _ hPos]
  omega

/- Every rank before `rank` holds `count / worldSize` states. -/
theorem targetBegin_eq_add
    (count rank : Nat)
    {worldSize : Nat}
    (hPos : 0 < worldSize) :
    targetBegin count worldSize rank =
      rank * (count / worldSize) +
        ceilDiv (rank * (count % worldSize)) worldSize := by
  rw [targetBegin, ← ceilDiv_add_mul _ _ hPos, Nat.mul_assoc,
    ← Nat.mul_add, Nat.mul_comm (count / worldSize),
    Nat.div_add_mod]

/- The boundary moves by at most one state a rank. -/
theorem ceilDiv_remainder_step
    {worldSize remainder : Nat}
    (rank : Nat)
    (hLt : remainder < worldSize) :
    ceilDiv (rank * remainder) worldSize ≤
        ceilDiv ((rank + 1) * remainder) worldSize ∧
      ceilDiv ((rank + 1) * remainder) worldSize ≤
        ceilDiv (rank * remainder) worldSize + 1 := by
  have hPos : 0 < worldSize := by omega
  have hSucc : (rank + 1) * remainder =
      rank * remainder + remainder := Nat.succ_mul _ _
  constructor
  · rw [ceilDiv_le_iff hPos]
    have hSelf :=
      (ceilDiv_le_iff (a := (rank + 1) * remainder) hPos).mp
        le_rfl
    omega
  · rw [ceilDiv_le_iff hPos, hSucc, Nat.succ_mul]
    have hSelf :=
      (ceilDiv_le_iff (a := rank * remainder) hPos).mp le_rfl
    omega

/- A quota is the quotient, and one more for some ranks. -/
theorem localTargetCount_eq_add
    (count rank : Nat)
    {worldSize : Nat}
    (hPos : 0 < worldSize) :
    localTargetCount count worldSize rank =
      count / worldSize +
          ceilDiv ((rank + 1) * (count % worldSize))
            worldSize -
        ceilDiv (rank * (count % worldSize)) worldSize := by
  have hSucc : (rank + 1) * (count / worldSize) =
      rank * (count / worldSize) + count / worldSize :=
    Nat.succ_mul _ _
  rw [localTargetCount, targetBegin_eq_add _ _ hPos,
    targetBegin_eq_add _ _ hPos]
  omega

/- A rank holds the mean, rounded down or up. -/
theorem localTargetCount_floor_or_ceil
    (count rank : Nat)
    {worldSize : Nat}
    (hPos : 0 < worldSize) :
    localTargetCount count worldSize rank =
        count / worldSize ∨
      localTargetCount count worldSize rank =
        ceilDiv count worldSize := by
  have hRest := Nat.mod_lt count hPos
  have hMean : 0 ≤ count / worldSize := Nat.zero_le _
  rcases ceilDiv_remainder_step rank hRest with ⟨hLow, hHigh⟩
  rw [localTargetCount_eq_add _ _ hPos,
    ceilDiv_eq_div_add count hPos]
  split_ifs with hZero
  · omega
  · have hNone : count % worldSize = 0 := not_not.mp hZero
    rw [hNone, Nat.mul_zero, Nat.mul_zero]
    omega

/- The quotas add up to the count. -/
theorem sum_localTargetCount
    (count : Nat)
    {worldSize : Nat}
    (hPos : 0 < worldSize) :
    ∑ rank ∈ Finset.range worldSize,
        localTargetCount count worldSize rank =
      count := by
  have hTelescope :=
    Finset.sum_range_tsub
      (f := targetBegin count worldSize)
      (fun _ _ hLe => targetBegin_mono count hPos hLe)
      worldSize
  have hZero : targetBegin count worldSize 0 = 0 := by
    rw [targetBegin_eq_add _ _ hPos]
    simp [ceilDiv_eq_div_add _ hPos]
  rw [targetBegin_worldSize count hPos, hZero] at hTelescope
  exact hTelescope

----------------
-- Targets Of The Device
----------------

/- The division of the device is exact where the sum fits. -/
theorem ceilDivU64FinalDevice_eq
    {a b : Nat}
    (hPos : 0 < b)
    (hFits : a + b < 2 ^ 64) :
    (ceilDivU64FinalDevice a b : Checked ε Nat) =
      .ok (ceilDiv a b) := by
  rw [ceilDivU64FinalDevice, if_neg (Nat.ne_of_gt hPos),
    add_eq hFits, ok_bind, sub_eq (by omega), ok_bind,
    div_eq hPos, ceilDiv, if_neg (Nat.ne_of_gt hPos)]

/- The target is a rank. -/
theorem target_lt
    {globalIdx globalCount worldSize : Nat}
    (hPos : 0 < worldSize)
    (hIdx : globalIdx < globalCount) :
    globalIdx * worldSize / globalCount < worldSize := by
  rw [Nat.div_lt_iff_lt_mul (by omega), Nat.mul_comm worldSize]
  exact Nat.mul_lt_mul_of_pos_right hIdx hPos

/- The quotient is a rank, so the clamp has nothing to do. -/
theorem unclampedTargetRank_eq
    {globalIdx globalCount worldSize : Nat}
    (hPos : 0 < worldSize)
    (hRanks : worldSize ≤ 65535)
    (hProduct : globalCount * worldSize < 2 ^ 64)
    (hIdx : globalIdx < globalCount) :
    (unclampedTargetRank globalIdx globalCount worldSize :
        Checked ε Nat) =
      .ok (globalIdx * worldSize / globalCount) := by
  have hLess := Nat.mul_lt_mul_of_pos_right hIdx hPos
  have hTarget := target_lt hPos hIdx
  rw [unclampedTargetRank, mul_eq (by omega), ok_bind,
    div_eq (by omega), ok_bind, pure_eq,
    Nat.mod_eq_of_lt (by omega)]

/- The begin of a rank stays inside a word. -/
theorem targetProduct_fits
    (globalCount : Nat)
    {worldSize rank : Nat}
    (hRanks : worldSize ≤ 65535)
    (hProduct : globalCount * worldSize < 2 ^ 64)
    (hRank : rank < worldSize) :
    rank * globalCount + worldSize < 2 ^ 64 := by
  have hMul : (rank + 1) * globalCount ≤
      worldSize * globalCount :=
    Nat.mul_le_mul_right globalCount hRank
  rw [Nat.succ_mul, Nat.mul_comm worldSize] at hMul
  by_cases hWide : worldSize ≤ globalCount
  · omega
  · have hSmall : rank * globalCount ≤ 65535 * 65535 :=
      Nat.mul_le_mul (by omega) (by omega)
    omega

/-
  The device computes the exact target where the product fits.
-/
theorem finalTarget_eq
    {globalIdx globalCount worldSize : Nat}
    (hPos : 0 < worldSize)
    (hRanks : worldSize ≤ 65535)
    (hProduct : globalCount * worldSize < 2 ^ 64)
    (hIdx : globalIdx < globalCount) :
    (finalTarget globalIdx globalCount worldSize :
        Checked ε (Nat × Nat)) =
      .ok
        ((exactTarget globalCount worldSize globalIdx).1,
          (exactTarget globalCount worldSize globalIdx).2 %
            2 ^ 32) := by
  have hTarget := target_lt hPos hIdx
  have hFits :=
    targetProduct_fits globalCount hRanks hProduct hTarget
  have hBegin :
      ceilDiv
          (globalIdx * worldSize / globalCount * globalCount)
          worldSize ≤
        globalIdx :=
    (ceilDiv_le_iff hPos).mpr (Nat.div_mul_le_self _ _)
  rw [finalTarget, targetRankForGlobalFinalDevice,
    unclampedTargetRank_eq hPos hRanks hProduct hIdx, ok_bind,
    if_neg (by omega), pure_eq, ok_bind, mul_eq (by omega),
    ok_bind, ceilDivU64FinalDevice_eq hPos hFits, ok_bind,
    sub_eq hBegin, ok_bind, pure_eq]
  rfl

/-
  The end of the last rank adds the world to the whole product,
  so it needs that much room above it.
-/
theorem finalSendRange_eq
    {balanceKeepCount worldSize rank : Nat}
    (hRanks : worldSize ≤ 65535)
    (hProduct :
      balanceKeepCount * worldSize + worldSize < 2 ^ 64)
    (hRank : rank < worldSize) :
    (finalSendRange balanceKeepCount worldSize rank :
        Checked ε (Nat × Nat)) =
      .ok
        (targetBegin balanceKeepCount worldSize rank,
          targetBegin balanceKeepCount worldSize
            (rank + 1)) := by
  have hPos : 0 < worldSize := by omega
  have hFits :=
    targetProduct_fits balanceKeepCount hRanks (by omega) hRank
  have hMul : (rank + 1) * balanceKeepCount ≤
      worldSize * balanceKeepCount :=
    Nat.mul_le_mul_right balanceKeepCount hRank
  rw [Nat.mul_comm worldSize] at hMul
  rw [finalSendRange, mul_eq (by omega), ok_bind,
    ceilDivU64FinalDevice_eq hPos hFits, ok_bind,
    add_eq (by omega), ok_bind, mul_eq (by omega), ok_bind,
    ceilDivU64FinalDevice_eq hPos (by omega), ok_bind, pure_eq]
  rfl

/- A rank gets the rows of its range. -/
theorem exactTarget_fst_eq_iff
    {globalCount worldSize globalIdx : Nat}
    (rank : Nat)
    (hPos : 0 < worldSize)
    (hIdx : globalIdx < globalCount) :
    (exactTarget globalCount worldSize globalIdx).1 = rank ↔
      targetBegin globalCount worldSize rank ≤ globalIdx ∧
        globalIdx <
          targetBegin globalCount worldSize (rank + 1) := by
  have hInside := target_lt hPos hIdx
  have hSame :
      targetRankForGlobal globalIdx globalCount worldSize =
        (exactTarget globalCount worldSize globalIdx).1 :=
    if_neg (not_le.mpr hInside)
  rw [← hSame]
  exact targetRankForGlobal_eq_iff rank hPos hIdx

/- The place in a rank starts at its range. -/
theorem exactTarget_snd
    (globalCount worldSize globalIdx : Nat) :
    (exactTarget globalCount worldSize globalIdx).2 =
      globalIdx -
        targetBegin globalCount worldSize
          (exactTarget globalCount worldSize globalIdx).1 :=
  rfl

/- Every slot of every rank receives exactly one global index. -/
theorem exactTarget_bijOn
    {globalCount worldSize : Nat}
    (hPos : 0 < worldSize) :
    Set.BijOn
      (exactTarget globalCount worldSize)
      {globalIdx | globalIdx < globalCount}
      {slot |
        slot.1 < worldSize ∧
          slot.2 <
            localTargetCount globalCount worldSize slot.1} := by
  refine ⟨?_, ?_, ?_⟩
  · intro globalIdx hIdx
    rcases (exactTarget_fst_eq_iff _ hPos hIdx).mp rfl with
      ⟨hLow, hHigh⟩
    refine ⟨target_lt hPos hIdx, ?_⟩
    rw [exactTarget_snd, localTargetCount]
    omega
  · intro a hA b hB hEq
    rcases (exactTarget_fst_eq_iff _ hPos hA).mp rfl with
      ⟨hLowA, -⟩
    rcases (exactTarget_fst_eq_iff _ hPos hB).mp rfl with
      ⟨hLowB, -⟩
    have hSlot := congrArg Prod.snd hEq
    rw [exactTarget_snd, exactTarget_snd, hEq] at hSlot
    rw [hEq] at hLowA
    omega
  · rintro ⟨rank, slot⟩ ⟨hRank, hSlot⟩
    dsimp only at hRank hSlot
    rw [localTargetCount] at hSlot
    have hEnd :
        targetBegin globalCount worldSize (rank + 1) ≤
          globalCount := by
      have hMono := targetBegin_mono globalCount hPos hRank
      rwa [targetBegin_worldSize globalCount hPos] at hMono
    have hIdx :
        targetBegin globalCount worldSize rank + slot <
          globalCount := by
      omega
    have hTarget :=
      (exactTarget_fst_eq_iff rank hPos hIdx).mpr
        ⟨by omega, by omega⟩
    refine
      ⟨targetBegin globalCount worldSize rank + slot, hIdx,
        Prod.ext hTarget ?_⟩
    rw [exactTarget_snd, hTarget]
    exact Nat.add_sub_cancel_left ..

----------------
-- Counts Of The Host And Of The Crate
----------------

/- The boundary of a rank is exact where its product fits. -/
theorem remainderBoundary_eq
    {world remainder r : Nat}
    (hPos : 0 < world)
    (hFits : r * remainder + 1 < 2 ^ 64) :
    (remainderBoundary world remainder r : Checked ε Nat) =
      .ok (ceilDiv (r * remainder) world) := by
  have hQuotient := Nat.div_le_self (r * remainder) world
  rw [remainderBoundary, mul_eq (by omega), ok_bind,
    div_eq hPos, ok_bind, ceilDiv_eq_div_add _ hPos]
  apply add_eq
  split_ifs <;> omega

/- The plan's frontier is the quota. -/
theorem logicalRankFrontier_eq
    {width world rank : Nat}
    (hRanks : world ≤ 65535)
    (hWidth : width < 2 ^ 64)
    (hRank : rank < world) :
    logicalRankFrontier width world rank =
      .ok (localTargetCount width world rank) := by
  have hPos : 0 < world := by omega
  have hRest := Nat.mod_lt width hPos
  have hStep := ceilDiv_remainder_step rank hRest
  have hUpperProduct :
      (rank + 1) * (width % world) ≤ 65535 * 65535 :=
    Nat.mul_le_mul (by omega) (by omega)
  have hLowerProduct :
      rank * (width % world) ≤ 65535 * 65535 :=
    Nat.mul_le_mul (by omega) (by omega)
  have hUpper :
      ceilDiv ((rank + 1) * (width % world)) world ≤
        width % world := by
    rw [ceilDiv_le_iff hPos, Nat.mul_comm (width % world)]
    exact Nat.mul_le_mul_right _ hRank
  have hParts : world * (width / world) + width % world = width :=
    Nat.div_add_mod width world
  have hMean : width / world ≤ world * (width / world) :=
    Nat.le_mul_of_pos_left _ hPos
  have hNonneg : 0 ≤ width / world := Nat.zero_le _
  rw [logicalRankFrontier, if_neg (by omega)]
  dsimp only
  rw [add_eq (by omega), ok_bind,
    remainderBoundary_eq hPos (by omega), ok_bind,
    remainderBoundary_eq hPos (by omega), ok_bind,
    add_eq (by omega), ok_bind, sub_eq (by omega),
    localTargetCount_eq_add _ _ hPos]

/- The division of the planner is exact. -/
theorem divCeil_eq
    {a b : Nat}
    (hPos : 0 < b)
    (hFits : a + 1 < 2 ^ 128) :
    (divCeil a b : Checked ε Nat) = .ok (ceilDiv a b) := by
  have hQuotient := Nat.div_le_self a b
  rw [divCeil, div_eq hPos, ok_bind, ceilDiv_eq_div_add _ hPos,
    add_eq (by omega)]
  split_ifs <;> first | rfl | omega

/- No quota is above the count. -/
theorem localTargetCount_le
    (count : Nat)
    {worldSize rank : Nat}
    (hRank : rank < worldSize) :
    localTargetCount count worldSize rank ≤ count := by
  have hPos : 0 < worldSize := by omega
  have hMono := targetBegin_mono count hPos hRank
  rw [targetBegin_worldSize count hPos] at hMono
  exact (Nat.sub_le _ _).trans hMono

/- The device's count is the quota. -/
theorem rankFrontierCount_eq
    {world requested rank : Nat}
    (hRanks : world ≤ 65535)
    (hProduct : requested * world < 2 ^ 64)
    (hRank : rank < world) :
    (rankFrontierCount world requested rank :
        Checked ε Nat) =
      .ok (localTargetCount requested world rank) := by
  have hPos : 0 < world := by omega
  have hMul : (rank + 1) * requested ≤ world * requested :=
    Nat.mul_le_mul_right requested hRank
  rw [Nat.mul_comm world] at hMul
  have hSucc : (rank + 1) * requested =
      rank * requested + requested := Nat.succ_mul _ _
  have hSelf : requested ≤ requested * world :=
    Nat.le_mul_of_pos_right _ hPos
  have hMono :=
    targetBegin_mono requested hPos (Nat.le_succ rank)
  have hEnd :=
    localTargetCount_le requested hRank
  rw [targetBegin, targetBegin] at hMono
  rw [rankFrontierCount, add_eq (by omega), ok_bind,
    mul_eq (by omega), ok_bind, divCeil_eq hPos (by omega),
    ok_bind, mul_eq (by omega), ok_bind,
    divCeil_eq hPos (by omega), ok_bind, sub_eq hMono, ok_bind,
    pure_eq]
  exact congrArg Except.ok
    (Nat.mod_eq_of_lt (hEnd.trans_lt (by omega)))

/- The crate lists the counts of the plans it accepts. -/
theorem rankFrontierCounts_eq
    {plans : List RankPlan}
    {requested : Nat}
    (hPlans : validateRankPlans plans requested = .ok ())
    (hRanks : plans.length ≤ 65535)
    (hProduct : requested * plans.length < 2 ^ 64) :
    rankFrontierCounts plans requested =
      .ok
        ((List.range plans.length).map
          (localTargetCount requested plans.length)) := by
  rw [rankFrontierCounts, hPlans]
  apply mapM_eq_ok_map
  intro rank hMem
  exact rankFrontierCount_eq hRanks hProduct
    (List.mem_range.mp hMem)

----------------
-- Agreement
----------------

/-
  Every slot of every rank is named by one global index below
  the width, and by nothing else.
-/
def FillsQuotas (width world : Nat) : Prop :=
  Set.BijOn
    (fun globalIdx =>
      (finalTarget globalIdx width world :
        Checked Exception (Nat × Nat)))
    {globalIdx | globalIdx < width}
    {target |
      ∃ rank slot,
        target = .ok (rank, slot) ∧
          rank < world ∧
          slot < localTargetCount width world rank}

/- No quota exceeds the mean, rounded up. -/
theorem localTargetCount_le_ceil
    (count rank : Nat)
    {worldSize : Nat}
    (hPos : 0 < worldSize) :
    localTargetCount count worldSize rank ≤
      ceilDiv count worldSize := by
  have hFloor : count / worldSize ≤ ceilDiv count worldSize := by
    rw [ceilDiv_eq_div_add count hPos]
    exact Nat.le_add_right _ _
  rcases localTargetCount_floor_or_ceil count rank hPos with
    hEq | hEq
  · exact hEq.trans_le hFloor
  · exact hEq.le

/- A quota of 32 bits keeps every slot as it is. -/
theorem finalTarget_eq_exact
    {globalIdx width world : Nat}
    (hWorld : 0 < world)
    (hRanks : world ≤ 65535)
    (hProduct : width * world < 2 ^ 64)
    (hQuota : ceilDiv width world < 2 ^ 32)
    (hIdx : globalIdx < width) :
    (finalTarget globalIdx width world :
        Checked ε (Nat × Nat)) =
      .ok (exactTarget width world globalIdx) := by
  have hSlot :=
    ((exactTarget_bijOn hWorld).mapsTo hIdx).2
  have hMost :=
    localTargetCount_le_ceil width
      (exactTarget width world globalIdx).1 hWorld
  rw [finalTarget_eq hWorld hRanks hProduct hIdx,
    Nat.mod_eq_of_lt (by omega)]

/- Every quota is filled, place by place. -/
theorem fillsQuotas
    {width world : Nat}
    (hWorld : 0 < world)
    (hRanks : world ≤ 65535)
    (hProduct : width * world < 2 ^ 64)
    (hQuota : ceilDiv width world < 2 ^ 32) :
    FillsQuotas width world := by
  have hEq :
      ∀ globalIdx < width,
        (finalTarget globalIdx width world :
            Checked Exception (Nat × Nat)) =
          .ok (exactTarget width world globalIdx) :=
    fun _ hIdx =>
      finalTarget_eq_exact hWorld hRanks hProduct hQuota hIdx
  rcases @exactTarget_bijOn width world hWorld with
    ⟨hMaps, hInjective, hOnto⟩
  refine ⟨?_, ?_, ?_⟩
  · intro globalIdx hIdx
    have hSlot := hMaps hIdx
    exact ⟨_, _, hEq globalIdx hIdx, hSlot.1, hSlot.2⟩
  · intro a hA b hB hSame
    refine hInjective hA hB ?_
    dsimp only at hSame
    rw [hEq a hA, hEq b hB] at hSame
    exact Except.ok.inj hSame
  · intro target hTarget
    rcases hTarget with ⟨rank, slot, hOk, hRank, hSlot⟩
    have hSome :
        (rank, slot) ∈
          {slot : Nat × Nat |
            slot.1 < world ∧
              slot.2 < localTargetCount width world slot.1} :=
      ⟨hRank, hSlot⟩
    rcases hOnto hSome with ⟨globalIdx, hIdx, hExact⟩
    refine ⟨globalIdx, hIdx, ?_⟩
    dsimp only
    rw [hEq globalIdx hIdx, hExact, hOk]

/-
  With every product inside 64 bits the device computes the rank
  and the slot of a global index, the slot within 32 bits, and
  the three formulas give the same quota to every rank. If the
  quotas have 32 bits, the device fills each with one global
  index a slot.
-/
theorem rankQuotas_agree
    (width world : Nat)
    (hWidth : 1 ≤ width)
    (hWorld : 1 ≤ world)
    (hRanks : world ≤ 65535)
    (hProduct : width * world < 2 ^ 64) :
    (∀ globalIdx < width,
      (unclampedTargetRank globalIdx width world :
          Checked Exception Nat) =
        .ok (exactTarget width world globalIdx).1 ∧
      (exactTarget width world globalIdx).1 < world ∧
      (finalTarget globalIdx width world :
          Checked Exception (Nat × Nat)) =
        .ok
          ((exactTarget width world globalIdx).1,
            (exactTarget width world globalIdx).2 %
              2 ^ 32)) ∧
    ((width + world - 1) / world < 2 ^ 32 →
      FillsQuotas width world ∧
      (∀ globalIdx < width,
        (finalTarget globalIdx width world :
            Checked Exception (Nat × Nat)) =
          .ok (exactTarget width world globalIdx)) ∧
      ∀ rank < world,
        (finalSendRange width world rank :
            Checked Exception (Nat × Nat)) =
          .ok
            (targetBegin width world rank,
              targetBegin width world rank +
                localTargetCount width world rank) ∧
        localTargetCount width world rank < 2 ^ 32) ∧
    (∀ rank < world,
      logicalRankFrontier width world rank =
        .ok (localTargetCount width world rank)) ∧
    (∀ plans : List RankPlan,
      plans.length = world →
      validateRankPlans plans width = .ok () →
        rankFrontierCounts plans width =
          .ok
            ((List.range world).map
              (localTargetCount width world))) ∧
    ∑ rank ∈ Finset.range world,
        localTargetCount width world rank =
      width ∧
    ∀ rank < world,
      localTargetCount width world rank = width / world ∨
        localTargetCount width world rank =
          (width + world - 1) / world := by
  have hCeil : ceilDiv width world =
      (width + world - 1) / world :=
    if_neg (by omega)
  have hSelf : width ≤ width * world :=
    Nat.le_mul_of_pos_right _ hWorld
  refine ⟨?_, ?_, ?_, ?_, sum_localTargetCount width hWorld, ?_⟩
  · intro globalIdx hIdx
    exact
      ⟨unclampedTargetRank_eq hWorld hRanks hProduct hIdx,
        target_lt hWorld hIdx,
        finalTarget_eq hWorld hRanks hProduct hIdx⟩
  · intro hQuota
    rw [← hCeil] at hQuota
    refine ⟨fillsQuotas hWorld hRanks hProduct hQuota,
      fun globalIdx hIdx =>
        finalTarget_eq_exact hWorld hRanks hProduct hQuota hIdx,
      ?_⟩
    intro rank hRank
    have hMono :=
      targetBegin_mono width hWorld (Nat.le_succ rank)
    have hEnd :
        targetBegin width world (rank + 1) =
          targetBegin width world rank +
            localTargetCount width world rank :=
      (Nat.add_sub_cancel' hMono).symm
    -- A 32-bit quota on 16-bit many ranks leaves room.
    have hWide : width ≤ 65535 * 4294967295 := by
      have hBound := (ceilDiv_le_iff hWorld).mp
        (Nat.le_of_lt_succ hQuota)
      have hScale := Nat.mul_le_mul_left 4294967295 hRanks
      omega
    have hRoom := Nat.mul_le_mul hWide hRanks
    refine ⟨?_, ?_⟩
    · rw [← hEnd]
      exact finalSendRange_eq hRanks (by omega) hRank
    · have hMost := localTargetCount_le_ceil width rank hWorld
      omega
  · intro rank hRank
    exact logicalRankFrontier_eq hRanks (by omega) hRank
  · rintro plans rfl hPlans
    exact rankFrontierCounts_eq hPlans hRanks hProduct
  · intro rank _
    rw [← hCeil]
    exact localTargetCount_floor_or_ceil width rank hWorld

/- Five states on three ranks: all bounds hold. -/
theorem rankQuotas_agree_threeRanks :
    FillsQuotas 5 3 ∧
      rankFrontierCounts
          (List.replicate 3
            { globalBeamWidth := 5
              beamAlignment := 1
              shards := 1
              outerBatch := 1
              world := 3
              batchAlignment := 1
              rank := none
              requiredBytes := 1
              budgetBytes := 1 })
          5 =
        .ok [2, 2, 1] := by
  have hAgree :=
    rankQuotas_agree 5 3 (by decide) (by decide) (by decide)
      (by decide)
  exact
    ⟨(hAgree.2.1 (by decide)).1,
      hAgree.2.2.2.1 _ rfl (by decide)⟩

/-
  On one rank with more than 2 ^ 32 states the first state and
  the one 2 ^ 32 behind it are sent to the same slot.
-/
theorem finalTarget_wide :
    (2 ^ 32 + 1) * 1 < 2 ^ 64 ∧
      (finalTarget (2 ^ 32) (2 ^ 32 + 1) 1 :
          Checked Exception (Nat × Nat)) =
        finalTarget 0 (2 ^ 32 + 1) 1 ∧
      ¬ FillsQuotas (2 ^ 32 + 1) 1 := by
  have hSame :
      (finalTarget (2 ^ 32) (2 ^ 32 + 1) 1 :
          Checked Exception (Nat × Nat)) =
        finalTarget 0 (2 ^ 32 + 1) 1 := by
    decide
  refine ⟨by decide, hSame, fun hFills => ?_⟩
  have hEqual : 2 ^ 32 = 0 :=
    hFills.injOn (Nat.lt_succ_self _) (Nat.succ_pos _) hSame
  exact absurd hEqual (by decide)

end Final

end BeamSearch

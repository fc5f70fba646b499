import BeamSearch.Core.Errors
import BeamSearch.Final.Select

/-
  The host side of the final selection, over all ranks.

  The exact threshold comes from the summed histograms; every
  rank derives its prefixes and the global number of rows to
  keep from the gathered counts. Together the ranks keep the
  rows below the threshold and the first rows at it.

  Main declarations:
    * `committedThreshold`
    * `finalizeSelect`
    * `gatherSelect_spec`
    * `committedThreshold_room`
    * `finalizeSelect_keeps_topK`
-/

namespace BeamSearch

open Cdf Compaction

namespace Final

----------------
-- The Exact Threshold
----------------

/- One rank's exact histogram: the sum over its shards. -/
def localScoreHist
    (banks : SurvivorBanks)
    (score : Nat) : Nat :=
  ∑ shard ∈ Finset.range banks.shardCount,
    scoreHistogram (banks.shardRows shard) score

/- The histogram every rank holds after the all-reduce. -/
def globalScoreHist
    (worldSize : Nat)
    (banks : Nat → SurvivorBanks)
    (score : Nat) : Nat :=
  ∑ rank ∈ Finset.range worldSize,
    localScoreHist (banks rank) score

/- The threshold that all ranks read after the update. -/
def committedThreshold
    (worldSize beamWidth : Nat)
    (banks : Nat → SurvivorBanks)
    (slots : ThresholdSlots) : UInt32 :=
  (thresholdSelect (globalScoreHist worldSize banks) beamWidth
    slots).active

----------------
-- Prefixes And Checks On The Host
----------------

/- The sums over the ranks, and those before this one. -/
structure PhaseSums where
  lessPrefix : Nat
  equalPrefix : Nat
  globalLess : Nat
  globalEqual : Nat

/- One rank more; the prefixes take the lower ranks only. -/
def sumPhasesStep
    (lessCounts equalCounts : Nat → Nat)
    (localRank : Nat)
    (sums : PhaseSums)
    (rank : Nat) : PhaseSums :=
  { lessPrefix :=
      if rank < localRank then sums.lessPrefix + lessCounts rank
      else sums.lessPrefix
    equalPrefix :=
      if rank < localRank then
        sums.equalPrefix + equalCounts rank
      else
        sums.equalPrefix
    globalLess := sums.globalLess + lessCounts rank
    globalEqual := sums.globalEqual + equalCounts rank }

/- The loop over the ranks. -/
def sumPhases
    (lessCounts equalCounts : Nat → Nat)
    (localRank worldSize : Nat) : PhaseSums :=
  (List.range worldSize).foldl
    (sumPhasesStep lessCounts equalCounts localRank)
    { lessPrefix := 0
      equalPrefix := 0
      globalLess := 0
      globalEqual := 0 }

/- The ranks the host's control arrays have room for. -/
def kFinalExchangeMaxWorldSize : Nat :=
  128

/- What the loop over the selected counts carries. -/
structure SelectedLoop where
  runningEqualPrefix : Nat
  maxSelectedCount : Nat

/- The rows of the threshold's score that still fit. -/
def equalRoom (globalKeepCount equalGlobalBegin : Nat) : Nat :=
  if globalKeepCount > equalGlobalBegin then
    globalKeepCount - equalGlobalBegin
  else
    0

/- One rank of the loop that looks for the largest selection. -/
def maxSelectedStep
    (lessCounts equalCounts : Nat → Nat)
    (globalLess globalKeepCount : Nat)
    (loop : SelectedLoop)
    (rank : Nat) : Except Exception SelectedLoop :=
  let equalGlobalBegin := globalLess + loop.runningEqualPrefix
  let selectedEqual :=
    min (equalCounts rank)
      (equalRoom globalKeepCount equalGlobalBegin)
  let selectedForRank := lessCounts rank + selectedEqual
  if selectedForRank > uint32Max.toNat then
    .error
      (.runtimeError "final selected count exceeds uint32 range")
  else
    .ok
      { runningEqualPrefix :=
          loop.runningEqualPrefix + equalCounts rank
        maxSelectedCount :=
          max loop.maxSelectedCount selectedForRank }

/- What a rank has after the selection. -/
structure Selected where
  buffer : Nat → CandidateMeta
  count : Nat
  globalKeepCount : Nat
  maxSelectedCount : Nat

/-
  The selection on one rank, from the gathered phase counts of
  all ranks. The capacity is narrowed to 32 bits.
-/
def selectLocal
    (worldSize beamWidth : Nat)
    (lessCounts equalCounts : Nat → Nat)
    (banks : SurvivorBanks)
    (finalThreshold : UInt32)
    (localRank : Nat)
    (scratch : FinalScratch)
    (buffer : Nat → CandidateMeta) :
    Except Exception Selected :=
  let sums :=
    sumPhases lessCounts equalCounts localRank worldSize
  let totalAvailable := sums.globalLess + sums.globalEqual
  let globalKeepCount := min beamWidth totalAvailable
  let candidateCapacity := min beamWidth banks.items % 2 ^ 32
  let filtered :=
    finalFilterLoadBalanceExact banks finalThreshold
      sums.lessPrefix (sums.globalLess + sums.equalPrefix)
      globalKeepCount candidateCapacity
      { scratch := scratch, buffer := buffer, count := 0 }
  if filtered.count > candidateCapacity then
    .error
      (.runtimeError
        "final selected count exceeds candidate capacity")
  else
    match
      (List.range worldSize).foldlM
        (maxSelectedStep lessCounts equalCounts sums.globalLess
          globalKeepCount)
        { runningEqualPrefix := 0, maxSelectedCount := 0 }
    with
    | .error fault => .error fault
    | .ok loop =>
        if filtered.count ≠
            lessCounts localRank +
              min (equalCounts localRank)
                (equalRoom globalKeepCount
                  (sums.globalLess + sums.equalPrefix)) then
          .error
            (.runtimeError
              "final selected count does not match score phase counts")
        else
          .ok
            { buffer := filtered.buffer
              count := filtered.count
              globalKeepCount := globalKeepCount
              maxSelectedCount := loop.maxSelectedCount }

/- Every rank counts both phases before the counts are gathered. -/
def gatherSelect
    (worldSize beamWidth : Nat)
    (banks : Nat → SurvivorBanks)
    (scratches : Nat → FinalScratch)
    (finalThreshold : UInt32)
    (localRank : Nat)
    (buffer : Nat → CandidateMeta) :
    Except Exception Selected :=
  let lessPhase := fun rank =>
    finalCountScorePhase (banks rank) finalThreshold .less
      (scratches rank)
  let equalPhase := fun rank =>
    finalCountScorePhase (banks rank) finalThreshold .equal
      (lessPhase rank).1
  selectLocal worldSize beamWidth
    (fun rank => (lessPhase rank).2)
    (fun rank => (equalPhase rank).2)
    (banks localRank) finalThreshold localRank
    (equalPhase localRank).1 buffer

/-
  The selection of one rank. More ranks than the exchange has
  room for are refused.
-/
def finalizeSelect
    (worldSize beamWidth : Nat)
    (banks : Nat → SurvivorBanks)
    (scratches : Nat → FinalScratch)
    (finalThreshold : UInt32)
    (localRank : Nat)
    (buffer : Nat → CandidateMeta) :
    Except Exception Selected :=
  if worldSize > kFinalExchangeMaxWorldSize then
    .error
      (.runtimeError
        "WORLD_SIZE exceeds static final exchange control capacity")
  else
    gatherSelect worldSize beamWidth banks scratches
      finalThreshold localRank buffer

----------------
-- Host Lemmas
----------------

/- The loop sums all ranks and those before this one. -/
theorem sumPhases_spec
    (lessCounts equalCounts : Nat → Nat)
    (localRank worldSize : Nat) :
    sumPhases lessCounts equalCounts localRank worldSize =
      { lessPrefix := below lessCounts (min worldSize localRank)
        equalPrefix :=
          below equalCounts (min worldSize localRank)
        globalLess := below lessCounts worldSize
        globalEqual := below equalCounts worldSize } := by
  induction worldSize with
  | zero => simp [sumPhases]
  | succ worldSize ih =>
      have hSucc :
          sumPhases lessCounts equalCounts localRank
              (worldSize + 1) =
            sumPhasesStep lessCounts equalCounts localRank
              (sumPhases lessCounts equalCounts localRank
                worldSize)
              worldSize := by
        simp [sumPhases, List.range_succ]
      rw [hSucc, ih, sumPhasesStep]
      by_cases hLt : worldSize < localRank
      · have hNow : min worldSize localRank = worldSize := by
          omega
        have hNext :
            min (worldSize + 1) localRank = worldSize + 1 := by
          omega
        simp only [if_pos hLt, hNow, hNext, below_succ]
      · have hSame :
            min (worldSize + 1) localRank =
              min worldSize localRank := by
          omega
        simp only [if_neg hLt, hSame, below_succ]

/- The room for equal rows, without the test. -/
theorem equalRoom_eq (keep start : Nat) :
    equalRoom keep start = keep - start := by
  unfold equalRoom
  split_ifs <;> omega

/- The loop passes when no rank selects more than 32 bits can count. -/
theorem maxSelectedLoop_spec
    (lessCounts equalCounts : Nat → Nat)
    (globalLess keep worldSize : Nat)
    (hFits :
      ∀ rank < worldSize,
        lessCounts rank + equalCounts rank ≤ uint32Max.toNat) :
    ∃ loop,
      (List.range worldSize).foldlM
          (maxSelectedStep lessCounts equalCounts globalLess
            keep)
          { runningEqualPrefix := 0, maxSelectedCount := 0 } =
        Except.ok loop ∧
      loop.runningEqualPrefix = below equalCounts worldSize ∧
      ∀ rank < worldSize,
        lessCounts rank +
            min (equalCounts rank)
              (keep - (globalLess + below equalCounts rank)) ≤
          loop.maxSelectedCount := by
  induction worldSize with
  | zero =>
      refine ⟨_, rfl, by simp, ?_⟩
      intro rank hLt
      omega
  | succ worldSize ih =>
      rcases ih fun rank hLt => hFits rank (by omega) with
        ⟨loop, hRun, hRunning, hMax⟩
      have hFit := hFits worldSize (Nat.lt_succ_self worldSize)
      have hGuard :
          ¬ lessCounts worldSize +
              min (equalCounts worldSize)
                (equalRoom keep
                  (globalLess + loop.runningEqualPrefix)) >
            uint32Max.toNat := by
        omega
      have hStep :
          (List.range (worldSize + 1)).foldlM
              (maxSelectedStep lessCounts equalCounts globalLess
                keep)
              { runningEqualPrefix := 0
                maxSelectedCount := 0 } =
            maxSelectedStep lessCounts equalCounts globalLess
              keep loop worldSize := by
        rw [List.range_succ, List.foldlM_append, hRun]
        exact bind_pure
          (maxSelectedStep lessCounts equalCounts globalLess
            keep loop worldSize)
      rw [hStep, maxSelectedStep]
      refine ⟨_, if_neg hGuard, ?_, ?_⟩
      · simp only [hRunning, below_succ]
      · intro rank hLt
        simp only [hRunning, equalRoom_eq]
        by_cases hLast : rank = worldSize
        · subst hLast
          exact le_max_right _ _
        · exact (hMax rank (by omega)).trans (le_max_left _ _)

----------------
-- Counting Rows Against The Threshold
----------------

/- The histogram of a rank counts its rows. -/
theorem below_localScoreHist
    (banks : SurvivorBanks)
    {n : Nat}
    (hBins : n ≤ scoreBinCount) :
    below (localScoreHist banks) n =
      banks.rows.countP fun c => c.scoreKey.toNat < n := by
  have hShard : ∀ shard,
      below (scoreHistogram (banks.shardRows shard)) n =
        (banks.shardRows shard).countP
          fun c => c.scoreKey.toNat < n := by
    intro shard
    rw [← below_histogram
      fun c : CandidateMeta => c.scoreKey.toNat]
    apply below_congr
    intro score hLt
    rw [scoreHistogram, if_pos (by omega)]
  have hSwap :
      below (localScoreHist banks) n =
        ∑ shard ∈ Finset.range banks.shardCount,
          below (scoreHistogram (banks.shardRows shard)) n := by
    unfold below localScoreHist
    exact Finset.sum_comm
  rw [hSwap, List.countP_eq_length_filter,
    SurvivorBanks.rows, filter_flatMap_range,
    length_flatMap_range]
  apply Finset.sum_congr rfl
  intro shard _
  rw [hShard, List.countP_eq_length_filter]

/- The histogram of all ranks counts all rows. -/
theorem below_globalScoreHist
    (worldSize : Nat)
    (banks : Nat → SurvivorBanks)
    {n : Nat}
    (hBins : n ≤ scoreBinCount) :
    below (globalScoreHist worldSize banks) n =
      below
        (fun rank =>
          (banks rank).rows.countP
            fun c => c.scoreKey.toNat < n)
        worldSize := by
  have hSwap :
      below (globalScoreHist worldSize banks) n =
        ∑ rank ∈ Finset.range worldSize,
          below (localScoreHist (banks rank)) n := by
    unfold below globalScoreHist
    exact Finset.sum_comm
  rw [hSwap]
  apply Finset.sum_congr rfl
  intro rank _
  exact below_localScoreHist (banks rank) hBins

/- The better rows are those below the threshold. -/
theorem length_phaseRows_less
    (banks : SurvivorBanks)
    (threshold : UInt32) :
    (banks.phaseRows threshold .less).length =
      banks.rows.countP
        fun c => c.scoreKey.toNat < threshold.toNat := by
  rw [SurvivorBanks.phaseRows, ← List.countP_eq_length_filter]
  apply List.countP_congr
  intro c _
  simp [ScorePhase.isMatch, UInt32.lt_iff_toNat_lt]

/- The equal rows are those at the threshold. -/
theorem length_phaseRows_equal
    (banks : SurvivorBanks)
    (threshold : UInt32) :
    (banks.phaseRows threshold .equal).length =
      banks.rows.countP
        fun c => c.scoreKey.toNat = threshold.toNat := by
  rw [SurvivorBanks.phaseRows, ← List.countP_eq_length_filter]
  apply List.countP_congr
  intro c _
  simp [ScorePhase.isMatch, UInt32.toNat_inj]

/- Both are rows of the rank. -/
theorem length_phaseRows_add_le
    (banks : SurvivorBanks)
    (threshold : UInt32) :
    (banks.phaseRows threshold .less).length +
        (banks.phaseRows threshold .equal).length ≤
      banks.rows.length := by
  rw [length_phaseRows_less, length_phaseRows_equal,
    ← countP_lt_succ fun c : CandidateMeta => c.scoreKey.toNat]
  exact List.countP_le_length

/- Every row has a bin of the histogram. -/
theorem below_globalScoreHist_all
    (worldSize : Nat)
    (banks : Nat → SurvivorBanks) :
    below (globalScoreHist worldSize banks) scoreBinCount =
      below (fun rank => (banks rank).rows.length) worldSize := by
  rw [below_globalScoreHist worldSize banks le_rfl]
  apply below_congr
  intro rank _
  rw [List.countP_eq_length]
  intro c hMem
  exact decide_eq_true (score_lt_of_mem_rows (banks rank) hMem)

/- The rows below a threshold are those of the lower bins. -/
theorem below_phaseRows_less
    (worldSize : Nat)
    (banks : Nat → SurvivorBanks)
    {threshold : UInt32}
    (hBin : threshold.toNat ≤ scoreBinCount) :
    below
        (fun rank =>
          ((banks rank).phaseRows threshold .less).length)
        worldSize =
      below (globalScoreHist worldSize banks)
        threshold.toNat := by
  rw [below_globalScoreHist worldSize banks hBin]
  apply below_congr
  intro rank _
  exact length_phaseRows_less (banks rank) threshold

/- With the rows equal to it they are the bins up to it. -/
theorem below_phaseRows_add
    (worldSize : Nat)
    (banks : Nat → SurvivorBanks)
    {threshold : UInt32}
    (hBin : threshold.toNat < scoreBinCount) :
    below
          (fun rank =>
            ((banks rank).phaseRows threshold .less).length)
          worldSize +
        below
          (fun rank =>
            ((banks rank).phaseRows threshold .equal).length)
          worldSize =
      cdf (globalScoreHist worldSize banks) threshold.toNat := by
  rw [cdf, below_globalScoreHist worldSize banks hBin,
    ← below_add]
  apply below_congr
  intro rank _
  rw [countP_lt_succ]
  exact congrArg₂ (· + ·)
    (length_phaseRows_less (banks rank) threshold)
    (length_phaseRows_equal (banks rank) threshold)

/- Below the largest score every row is less. -/
theorem below_phaseRows_uint32Max
    (worldSize : Nat)
    (banks : Nat → SurvivorBanks) :
    below
        (fun rank =>
          ((banks rank).phaseRows uint32Max .less).length)
        worldSize =
      below (fun rank => (banks rank).rows.length) worldSize := by
  apply below_congr
  intro rank _
  rw [length_phaseRows_less, List.countP_eq_length]
  intro c hMem
  have hScore := score_lt_of_mem_rows (banks rank) hMem
  rw [scoreBinCount_eq] at hScore
  rw [toNat_uint32Max, decide_eq_true_iff]
  omega

/-
  Fewer rows than the width lie below the exact threshold, and
  the rows up to it fill the width unless there are too few.
-/
theorem committedThreshold_room
    (worldSize beamWidth : Nat)
    (banks : Nat → SurvivorBanks)
    (slots : ThresholdSlots) :
    let threshold :=
      committedThreshold worldSize beamWidth banks slots
    let less := fun rank =>
      ((banks rank).phaseRows threshold .less).length
    let equal := fun rank =>
      ((banks rank).phaseRows threshold .equal).length
    let total :=
      below (fun rank => (banks rank).rows.length) worldSize
    below less worldSize ≤ beamWidth ∧
      min beamWidth
          (below less worldSize + below equal worldSize) =
        min beamWidth total ∧
      (total < beamWidth → threshold = uint32Max) := by
  intro threshold less equal total
  have hThreshold :
      threshold =
        selectedKey
          (crossing? (globalScoreHist worldSize banks)
            beamWidth scoreBinCount) :=
    ThresholdSlots.publish_active _ _ _
  have hAll :
      below (globalScoreHist worldSize banks) scoreBinCount =
        total :=
    below_globalScoreHist_all worldSize banks
  have hSumLe :
      below less worldSize + below equal worldSize ≤ total := by
    rw [← below_add]
    exact below_le_below fun rank _ =>
      length_phaseRows_add_le (banks rank) threshold
  cases hCross :
      crossing? (globalScoreHist worldSize banks) beamWidth
        scoreBinCount with
  | none =>
      rw [hCross] at hThreshold
      have hMax : threshold = uint32Max := hThreshold
      have hBins : 0 < scoreBinCount := by
        rw [scoreBinCount_eq]
        omega
      have hTotal : total < beamWidth := by
        rw [← hAll]
        have hLast :=
          crossing?_eq_none hCross (scoreBinCount - 1) (by omega)
        rw [cdf, Nat.sub_add_cancel hBins] at hLast
        exact hLast
      have hLess : below less worldSize = total := by
        unfold less
        rw [hMax]
        exact below_phaseRows_uint32Max worldSize banks
      refine ⟨by omega, by omega, fun _ => hMax⟩
  | some score =>
      rw [hCross] at hThreshold
      rcases crossing?_eq_some hCross with
        ⟨hBin, hReach, hBelow⟩
      have hScore : threshold.toNat = score := by
        rw [hThreshold]
        exact toNat_ofNat_of_lt hBin
      have hBound : threshold.toNat < scoreBinCount := by
        rwa [hScore]
      have hLess :
          below less worldSize =
            below (globalScoreHist worldSize banks) score := by
        rw [← hScore]
        exact below_phaseRows_less worldSize banks hBound.le
      have hUpTo :
          below less worldSize + below equal worldSize =
            cdf (globalScoreHist worldSize banks) score := by
        rw [← hScore]
        exact below_phaseRows_add worldSize banks hBound
      have hRoom : below less worldSize ≤ beamWidth := by
        rw [hLess]
        rcases Nat.eq_zero_or_pos score with hZero | hPos
        · rw [hZero, below_zero]
          exact Nat.zero_le _
        · have hBefore := hBelow (score - 1) (by omega)
          rw [cdf, Nat.sub_add_cancel hPos] at hBefore
          exact hBefore.le
      refine ⟨hRoom, by omega, ?_⟩
      intro hFew
      omega

----------------
-- The Selection
----------------

/-
  The room of one rank: `less` and `equal` rows behind prefixes,
  within the totals over all ranks.
-/
theorem rank_room
    {less equal lessPrefix equalPrefix globalLess globalEqual
      beamWidth items : Nat}
    (hLess : lessPrefix + less ≤ globalLess)
    (hEqual : equalPrefix + equal ≤ globalEqual)
    (hRoom : globalLess ≤ beamWidth)
    (hItems : less + equal ≤ items) :
    let keep := min beamWidth (globalLess + globalEqual)
    min less (keep - lessPrefix) = less ∧
      less ≤ keep - lessPrefix ∧
      less + min equal (keep - (globalLess + equalPrefix)) ≤
        min beamWidth items := by
  intro keep
  have hKeep : globalLess ≤ keep := by omega
  refine ⟨by omega, by omega, by omega⟩

/- The scratch of a rank after both of its counts. -/
def countedScratch
    (banks : Nat → SurvivorBanks)
    (scratches : Nat → FinalScratch)
    (threshold : UInt32)
    (localRank : Nat) : FinalScratch :=
  (finalCountScorePhase (banks localRank) threshold .equal
    (finalCountScorePhase (banks localRank) threshold .less
      (scratches localRank)).1).1

/- The counts that a rank gathers are those of the phases' rows. -/
theorem gatherSelect_eq
    (worldSize beamWidth : Nat)
    (banks : Nat → SurvivorBanks)
    (scratches : Nat → FinalScratch)
    (threshold : UInt32)
    (localRank : Nat)
    (buffer : Nat → CandidateMeta) :
    gatherSelect worldSize beamWidth banks scratches threshold
        localRank buffer =
      selectLocal worldSize beamWidth
        (fun rank =>
          ((banks rank).phaseRows threshold .less).length)
        (fun rank =>
          ((banks rank).phaseRows threshold .equal).length)
        (banks localRank) threshold localRank
        (countedScratch banks scratches threshold localRank)
        buffer := by
  simp only [gatherSelect, finalCountScorePhase_count]
  rfl

/- A rank that keeps all its rows needs room for them. -/
theorem gatherSelect_overflow
    {worldSize beamWidth : Nat}
    {banks : Nat → SurvivorBanks}
    (scratches : Nat → FinalScratch)
    {threshold : UInt32}
    {localRank : Nat}
    (buffer : Nat → CandidateMeta)
    (hRank : localRank < worldSize)
    (hAll :
      below
            (fun rank =>
              ((banks rank).phaseRows threshold .less).length)
            worldSize +
          below
            (fun rank =>
              ((banks rank).phaseRows threshold .equal).length)
            worldSize ≤
        beamWidth)
    (hOver :
      min beamWidth (banks localRank).items % 2 ^ 32 <
        ((banks localRank).phaseRows threshold .less).length +
          ((banks localRank).phaseRows threshold .equal).length) :
    gatherSelect worldSize beamWidth banks scratches threshold
        localRank buffer =
      .error
        (.runtimeError
          "final selected count exceeds candidate capacity") := by
  let less := fun rank =>
    ((banks rank).phaseRows threshold .less).length
  let equal := fun rank =>
    ((banks rank).phaseRows threshold .equal).length
  have hLess :
      below less localRank + less localRank ≤
        below less worldSize :=
    below_add_le less hRank
  have hEqual :
      below equal localRank + equal localRank ≤
        below equal worldSize :=
    below_add_le equal hRank
  have hPrefix : min worldSize localRank = localRank := by
    omega
  have hKeep :
      min beamWidth (below less worldSize + below equal worldSize) =
        below less worldSize + below equal worldSize :=
    min_eq_right hAll
  have hCount :
      min (less localRank)
            (below less worldSize + below equal worldSize -
              below less localRank) +
          min (equal localRank)
            (below less worldSize + below equal worldSize -
              (below less worldSize + below equal localRank)) =
        less localRank + equal localRank := by
    omega
  rw [gatherSelect_eq]
  unfold selectLocal
  simp only [sumPhases_spec, hPrefix]
  refine if_pos ?_
  rw [finalFilterLoadBalanceExact_count, hKeep]
  exact hOver.trans_eq hCount.symm

/-
  One rank keeps its less rows and the equal rows that the ranks
  before it leave room for. None of the checks fires.
-/
theorem gatherSelect_spec
    {worldSize beamWidth : Nat}
    {banks : Nat → SurvivorBanks}
    (scratches : Nat → FinalScratch)
    {threshold : UInt32}
    {localRank : Nat}
    (buffer : Nat → CandidateMeta)
    (hRank : localRank < worldSize)
    (hCapacity :
      min beamWidth (banks localRank).items < 2 ^ 32)
    (hRoom :
      below
          (fun rank =>
            ((banks rank).phaseRows threshold .less).length)
          worldSize ≤
        beamWidth) :
    let less := fun rank =>
      (banks rank).phaseRows threshold .less
    let equal := fun rank =>
      (banks rank).phaseRows threshold .equal
    let globalLess :=
      below (fun rank => (less rank).length) worldSize
    let globalEqual :=
      below (fun rank => (equal rank).length) worldSize
    let keep := min beamWidth (globalLess + globalEqual)
    ∃ selected,
      gatherSelect worldSize beamWidth banks scratches
          threshold localRank buffer = .ok selected ∧
        firstN selected.buffer selected.count =
          less localRank ++
            (equal localRank).take
              (keep - globalLess -
                below (fun rank => (equal rank).length)
                  localRank) ∧
        selected.globalKeepCount = keep ∧
        selected.count ≤ selected.maxSelectedCount := by
  intro less equal globalLess globalEqual keep
  let scratch := countedScratch banks scratches threshold localRank
  have hSelect :=
    gatherSelect_eq worldSize beamWidth banks scratches threshold
      localRank buffer
  have hPrefix : min worldSize localRank = localRank := by
    omega
  have hLessRank :=
    below_add_le (fun rank => (less rank).length) hRank
  have hEqualRank :=
    below_add_le (fun rank => (equal rank).length) hRank
  have hPhases : ∀ rank,
      (less rank).length + (equal rank).length ≤
        (banks rank).rows.length := fun rank =>
    length_phaseRows_add_le (banks rank) threshold
  have hTotals : ∀ rank, (banks rank).rows.length < 2 ^ 32 := by
    intro rank
    rw [length_rows]
    exact (banks rank).total_lt
  have hItems :=
    (hPhases localRank).trans (length_rows_le (banks localRank))
  have hSmall :
      min beamWidth (banks localRank).items % 2 ^ 32 =
        min beamWidth (banks localRank).items :=
    Nat.mod_eq_of_lt hCapacity
  have hRankRoom :=
    rank_room hLessRank hEqualRank hRoom hItems
  rcases hRankRoom with ⟨hTakeLess, hAllLess, hRows⟩
  have hFilter :=
    finalFilterLoadBalanceExact_spec (banks localRank)
      threshold
      (below (fun rank => (less rank).length) localRank)
      (globalLess +
        below (fun rank => (equal rank).length) localRank)
      keep (min beamWidth (banks localRank).items)
      { scratch := scratch, buffer := buffer, count := 0 }
      ((congrArg (· + _) hTakeLess).trans_le hRows)
  rcases hFilter with ⟨hCount, hKept⟩
  have hCount := hCount.trans (congrArg (· + _) hTakeLess)
  rcases maxSelectedLoop_spec
      (fun rank => (less rank).length)
      (fun rank => (equal rank).length) globalLess keep
      worldSize
      (by
        intro rank _
        have hPhase := hPhases rank
        have hTotal := hTotals rank
        rw [toNat_uint32Max]
        omega) with
    ⟨loop, hLoop, -, hMax⟩
  rw [hSelect]
  unfold selectLocal
  simp only [sumPhases_spec, hPrefix, hSmall]
  rw [if_neg (Nat.not_lt.mpr (hCount.trans_le hRows)),
    hLoop]
  simp only
  rw [if_neg (by rw [equalRoom_eq, not_not]; exact hCount)]
  refine ⟨_, rfl, ?_, rfl, ?_⟩
  · refine Eq.trans hKept ?_
    rw [List.take_of_length_le hAllLess, Nat.sub_sub]
  · exact hCount.trans_le (hMax localRank hRank)

/-
  Together the ranks keep the `min W total` best survivors: all
  rows below the exact threshold and the first rows at it in
  rank, shard and position order. No rank's checks fire, as long
  as the host has room for the ranks and the narrowed capacity
  is the capacity.
-/
theorem finalizeSelect_keeps_topK
    (worldSize beamWidth : Nat)
    (banks : Nat → SurvivorBanks)
    (scratches : Nat → FinalScratch)
    (slots : ThresholdSlots)
    (buffer : Nat → Nat → CandidateMeta)
    (hWorld : worldSize ≤ 128)
    (hCapacity :
      ∀ rank < worldSize,
        min beamWidth (banks rank).items < 2 ^ 32) :
    let threshold :=
      committedThreshold worldSize beamWidth banks slots
    let less := fun rank =>
      (banks rank).phaseRows threshold .less
    let equal := fun rank =>
      (banks rank).phaseRows threshold .equal
    let total :=
      below (fun rank => (banks rank).rows.length) worldSize
    let keep := min beamWidth total
    let globalLess :=
      below (fun rank => (less rank).length) worldSize
    let chosen := fun rank =>
      (equal rank).take
        (keep - globalLess -
          below (fun j => (equal j).length) rank)
    (∀ rank < worldSize,
      ∃ selected,
        finalizeSelect worldSize beamWidth banks scratches
            threshold rank (buffer rank) = .ok selected ∧
          firstN selected.buffer selected.count =
            less rank ++ chosen rank ∧
          selected.globalKeepCount = keep) ∧
      (List.range worldSize).flatMap chosen =
        ((List.range worldSize).flatMap equal).take
          (keep - globalLess) ∧
      globalLess ≤ keep ∧
      below
          (fun rank => (less rank ++ chosen rank).length)
          worldSize =
        keep ∧
      (total < beamWidth → threshold = uint32Max) := by
  intro threshold less equal total keep globalLess chosen
  let globalEqual :=
    below (fun rank => (equal rank).length) worldSize
  have hThreshold :
      globalLess ≤ beamWidth ∧
        min beamWidth (globalLess + globalEqual) = keep ∧
        (total < beamWidth → threshold = uint32Max) :=
    committedThreshold_room worldSize beamWidth banks slots
  rcases hThreshold with ⟨hRoom, hKeep, hFew⟩
  have hChosen :
      (List.range worldSize).flatMap chosen =
        ((List.range worldSize).flatMap equal).take
          (keep - globalLess) :=
    flatMap_take_range equal (keep - globalLess) worldSize
  refine ⟨?_, hChosen, ?_, ?_, hFew⟩
  · intro rank hRank
    rcases gatherSelect_spec scratches (buffer rank) hRank
        (hCapacity rank hRank) hRoom with
      ⟨selected, hRun, hRows, hCount, -⟩
    refine ⟨selected, ?_, hRows.trans ?_, hCount.trans hKeep⟩
    · unfold finalizeSelect kFinalExchangeMaxWorldSize
      rw [if_neg (Nat.not_lt.mpr hWorld)]
      exact hRun
    · simp only [chosen, ← hKeep]
      rfl
  · omega
  · have hLength := congrArg List.length hChosen
    rw [length_flatMap_range, List.length_take,
      length_flatMap_range] at hLength
    change _ = min (keep - globalLess) globalEqual at hLength
    simp only [List.length_append]
    rw [below_add, hLength]
    change globalLess + _ = keep
    omega

----------------
-- Ranks With One Survivor
----------------

/- A row of score zero. -/
def loneSurvivor : CandidateMeta :=
  { hash := { lo := 0, hi := 0 }
    parentIdx := 0
    scoreKey := 0
    routePacked := 0 }

/- One shard of so many slots, the first one filled. -/
def loneBanks
    (slots : Nat)
    (hSome : 1 ≤ slots)
    (hGrid : (1 * slots + 255) / 256 < 2 ^ 32) :
    SurvivorBanks where
  shardCount := 1
  shardCapacity := slots
  survivor := fun _ => loneSurvivor
  cleanCount := fun _ => 1
  clean_le := fun _ _ => hSome
  score_lt := fun _ _ _ _ => by
    rw [scoreBinCount_eq]
    decide
  total_lt := by
    rw [below_succ, below_zero]
    decide
  grid_lt := hGrid

/- A scratch of zeros. -/
def loneScratch : FinalScratch :=
  { keepFlags := fun _ => 0
    blockCounts := fun _ => 0
    blockOffsets := fun _ => 0 }

/- A threshold that was never published. -/
def loneSlots : ThresholdSlots :=
  { currentThreshold := fun _ => 0
    thresholdInitialized := fun _ => false
    activeIndex := false }

/- Two slots hold the survivor of each of two ranks. -/
def smallBanks (_ : Nat) : SurvivorBanks :=
  loneBanks 2 (by decide) (by decide)

/- Two ranks have room for one of their two survivors. -/
theorem finalizeSelect_keeps_topK_twoRanks :
    ∃ selected,
      finalizeSelect 2 1 smallBanks (fun _ => loneScratch)
          (committedThreshold 2 1 smallBanks loneSlots) 0
          (fun _ => loneSurvivor) =
        .ok selected ∧
        selected.globalKeepCount = 1 := by
  have hCapacity :
      ∀ rank < 2, min 1 (smallBanks rank).items < 2 ^ 32 := by
    intro rank _
    have hItems : (smallBanks rank).items = 2 := rfl
    rw [hItems]
    decide
  have hKeeps :=
    finalizeSelect_keeps_topK 2 1 smallBanks
      (fun _ => loneScratch) loneSlots
      (fun _ _ => loneSurvivor) (by decide) hCapacity
  rcases hKeeps.1 0 (by decide) with ⟨selected, hRun, -, hCount⟩
  exact ⟨selected, hRun, hCount.trans (by decide)⟩

/- So many slots that the narrowed capacity is zero. -/
def wideBanks (_ : Nat) : SurvivorBanks :=
  loneBanks (2 ^ 32) (by decide) (by decide)

/- The wide banks have one row each. -/
theorem length_phaseRows_wideBanks
    (rank : Nat)
    (threshold : UInt32)
    (phase : ScorePhase) :
    ((wideBanks rank).phaseRows threshold phase).length =
      if phase.isMatch threshold 0 = true then 1 else 0 := by
  have hRows : (wideBanks rank).rows = [loneSurvivor] := rfl
  have hKey : loneSurvivor.scoreKey = 0 := rfl
  rw [SurvivorBanks.phaseRows, hRows, List.filter_cons, hKey]
  by_cases hMatch : phase.isMatch threshold 0 = true
  · rw [if_pos hMatch, if_pos hMatch]
    rfl
  · rw [if_neg hMatch, if_neg hMatch]
    rfl

/-
  With 129 ranks nothing is selected. With 2 ^ 32 slots on a
  rank and a width as large, the capacity is narrowed to zero
  and the one survivor of the rank exceeds it.
-/
theorem finalizeSelect_rejects :
    finalizeSelect 129 1 smallBanks
        (fun _ => loneScratch)
        (committedThreshold 129 1 smallBanks loneSlots)
        0 (fun _ => loneSurvivor) =
      .error
        (.runtimeError
          "WORLD_SIZE exceeds static final exchange control capacity") ∧
      finalizeSelect 2 (2 ^ 32) wideBanks
          (fun _ => loneScratch)
          (committedThreshold 2 (2 ^ 32) wideBanks
            loneSlots)
          0 (fun _ => loneSurvivor) =
        .error
          (.runtimeError
            "final selected count exceeds candidate capacity") := by
  have hTooMany : 129 > kFinalExchangeMaxWorldSize := by
    decide
  have hFew : ¬ 2 > kFinalExchangeMaxWorldSize := by
    decide
  unfold finalizeSelect
  refine ⟨if_pos hTooMany, ?_⟩
  have hThreshold :
      committedThreshold 2 (2 ^ 32) wideBanks loneSlots =
        uint32Max := by
    refine
      (committedThreshold_room 2 (2 ^ 32) wideBanks
        loneSlots).2.2 ?_
    have hRows : ∀ rank, (wideBanks rank).rows.length = 1 :=
      fun _ => rfl
    simp only [hRows, below_succ, below_zero]
    decide
  have hLess :
      ∀ rank,
        ((wideBanks rank).phaseRows uint32Max .less).length = 1 :=
    fun rank => length_phaseRows_wideBanks rank uint32Max .less
  have hEqual :
      ∀ rank,
        ((wideBanks rank).phaseRows uint32Max .equal).length = 0 :=
    fun rank => length_phaseRows_wideBanks rank uint32Max .equal
  have hItems : (wideBanks 0).items = 2 ^ 32 := Nat.one_mul _
  rw [if_neg hFew, hThreshold]
  refine
    gatherSelect_overflow (fun _ => loneScratch)
      (fun _ => loneSurvivor) (by decide) ?_ ?_
  · simp only [hLess, hEqual, below_succ, below_zero]
    decide
  · rw [hLess, hEqual, hItems]
    decide

end Final

end BeamSearch

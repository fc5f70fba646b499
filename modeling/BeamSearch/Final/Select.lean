import BeamSearch.Lib.Compaction
import BeamSearch.Threshold.Rules

/-
  The multi-rank final selection.

  Every rank counts its survivors below and at the final
  threshold, the counts are gathered, and the exact filter keeps
  the rows below the threshold and as many rows at it as the
  global room allows, in rank, shard and position order.

  Main declarations:
    * `SurvivorBanks`
    * `finalFilterLoadBalanceExact`
    * `finalFilterLoadBalanceExact_spec`
-/

namespace BeamSearch

open Cdf Compaction

namespace Final

----------------
-- Survivor Arenas
----------------

/-
  The clean survivors of one rank. Score keys are quantised into
  the histogram's bins, the rows fit the 32-bit counters, and so
  does the number of blocks of a launch over all slots.
-/
structure SurvivorBanks where
  shardCount : Nat
  shardCapacity : Nat
  survivor : Nat → CandidateMeta
  cleanCount : Nat → Nat
  clean_le :
    ∀ shard < shardCount, cleanCount shard ≤ shardCapacity
  score_lt :
    ∀ shard < shardCount, ∀ position < cleanCount shard,
      (survivor
        (shard * shardCapacity + position)).scoreKey.toNat <
        scoreBinCount
  total_lt : below cleanCount shardCount < 2 ^ 32
  grid_lt : (shardCount * shardCapacity + 255) / 256 < 2 ^ 32

namespace SurvivorBanks

/- All places of the survivors. -/
def items (banks : SurvivorBanks) : Nat :=
  banks.shardCount * banks.shardCapacity

/- The blocks of 256 that cover them. -/
def blocks (banks : SurvivorBanks) : Nat :=
  (banks.items + 255) / 256

/- The clean rows of one shard. -/
def shardRows
    (banks : SurvivorBanks)
    (shard : Nat) : List CandidateMeta :=
  firstN
    (fun position =>
      banks.survivor (shard * banks.shardCapacity + position))
    (banks.cleanCount shard)

/- All survivors in shard and position order. -/
def rows (banks : SurvivorBanks) : List CandidateMeta :=
  (List.range banks.shardCount).flatMap banks.shardRows

end SurvivorBanks

----------------
-- The Filter Kernels
----------------

/-
  The selection has two phases: the better rows, then those of
  the threshold's score.
-/
inductive ScorePhase where
  | less
  | equal
deriving DecidableEq, Repr

/- Whether a score belongs to the phase. -/
def ScorePhase.isMatch
    (phase : ScorePhase)
    (threshold scoreKey : UInt32) : Bool :=
  match phase with
  | .less => scoreKey < threshold
  | .equal => scoreKey = threshold

/- The scratch of a phase. -/
structure FinalScratch where
  keepFlags : Nat → Nat
  blockCounts : Nat → Nat
  blockOffsets : Nat → Nat

/- The flag of a place: a clean row of the phase. -/
def finalMark
    (banks : SurvivorBanks)
    (threshold : UInt32)
    (phase : ScorePhase)
    (i : Nat) : Nat :=
  if i < banks.items then
    let shard := i / banks.shardCapacity
    let position := i - shard * banks.shardCapacity
    if position < banks.cleanCount shard ∧
        phase.isMatch threshold (banks.survivor i).scoreKey =
          true then
      1
    else
      0
  else
    0

/- Flag all places and count them by block. -/
def finalMarkCounts
    (banks : SurvivorBanks)
    (threshold : UInt32)
    (phase : ScorePhase)
    (scratch : FinalScratch) : FinalScratch :=
  let mark := finalMark banks threshold phase
  { scratch with
    keepFlags := fun i =>
      if i < banks.items then mark i else scratch.keepFlags i
    blockCounts := fun block =>
      if block < banks.blocks then blockCount mark block
      else scratch.blockCounts block }

/- Where a phase writes. The first one has no base. -/
def finalPhaseBase (outputBase : Option Nat) : Nat :=
  match outputBase with
  | none => 0
  | some base => base

/- The scan's offsets and the candidate count it writes. -/
def finalScanBlockCountsPhase
    (outputBase : Option Nat)
    (blocks phaseGlobalPrefix globalKeepCount : Nat)
    (scratch : FinalScratch) : FinalScratch × Nat :=
  let scan :=
    scanBlockCounts scratch.blockCounts scratch.blockOffsets
      blocks
  let base := finalPhaseBase outputBase
  ({ scratch with blockOffsets := scan.offsets },
    if globalKeepCount = 0 ∨
        phaseGlobalPrefix ≥ globalKeepCount then
      base
    else
      let remaining := globalKeepCount - phaseGlobalPrefix
      base +
        (if scan.running < remaining then scan.running
          else remaining))

/- The flag a scattering thread reads. -/
def finalLoadKeep
    (banks : SurvivorBanks)
    (scratch : FinalScratch)
    (i : Nat) : Nat :=
  if i < banks.items then scratch.keepFlags i else 0

/- Whether a thread gets past the early returns of the scatter. -/
def finalWrites
    (keep localOut globalIdx finalCandidateCount finalCapacity
      globalKeepCount : Nat) : Nat :=
  if keep = 0 ∨ finalCandidateCount > finalCapacity ∨
      globalKeepCount = 0 then
    0
  else if localOut ≥ finalCandidateCount then
    0
  else if globalIdx ≥ globalKeepCount then
    0
  else
    1

/-
  Write the flagged rows. Beyond the capacity, or beyond what
  all ranks keep, nothing is written.
-/
def finalScatterExactPhase
    (banks : SurvivorBanks)
    (outputBase : Option Nat)
    (finalCandidateCount phaseGlobalPrefix globalKeepCount
      finalCapacity : Nat)
    (scratch : FinalScratch)
    (buffer : Nat → CandidateMeta) : Nat → CandidateMeta :=
  let keep := finalLoadKeep banks scratch
  let phaseLocal := fun i =>
    scratch.blockOffsets (i / 256) + blockInclusive keep i - 1
  let localOut := fun i =>
    finalPhaseBase outputBase + phaseLocal i
  scatter
    (fun i =>
      finalWrites (keep i) (localOut i)
        (phaseGlobalPrefix + phaseLocal i) finalCandidateCount
        finalCapacity globalKeepCount)
    localOut banks.survivor buffer (256 * banks.blocks)

/- Count one score phase: nothing is capped. -/
def finalCountScorePhase
    (banks : SurvivorBanks)
    (threshold : UInt32)
    (phase : ScorePhase)
    (scratch : FinalScratch) : FinalScratch × Nat :=
  finalScanBlockCountsPhase none banks.blocks 0 uint64Max.toNat
    (finalMarkCounts banks threshold phase scratch)

/- What a phase leaves to the next. -/
structure FilterState where
  scratch : FinalScratch
  buffer : Nat → CandidateMeta
  count : Nat

/- Mark, scan and scatter one score phase behind `outputBase` rows. -/
def finalFilterPhase
    (banks : SurvivorBanks)
    (threshold : UInt32)
    (phase : ScorePhase)
    (outputBase : Option Nat)
    (phaseGlobalPrefix globalKeepCount finalCapacity : Nat)
    (state : FilterState) : FilterState :=
  let scratch :=
    finalMarkCounts banks threshold phase state.scratch
  let scanned :=
    finalScanBlockCountsPhase outputBase banks.blocks
      phaseGlobalPrefix globalKeepCount scratch
  { scratch := scanned.1
    buffer :=
      finalScatterExactPhase banks outputBase scanned.2
        phaseGlobalPrefix globalKeepCount finalCapacity
        scanned.1 state.buffer
    count := scanned.2 }

/- Both phases; the equal rows start at the saved count of the less rows. -/
def finalFilterLoadBalanceExact
    (banks : SurvivorBanks)
    (threshold : UInt32)
    (lessPrefixForRank equalPrefixAdjustedForRank
      globalKeepCount finalCapacity : Nat)
    (state : FilterState) : FilterState :=
  let state :=
    finalFilterPhase banks threshold .less none
      lessPrefixForRank globalKeepCount finalCapacity state
  let phaseBaseCount := state.count
  finalFilterPhase banks threshold .equal (some phaseBaseCount)
    equalPrefixAdjustedForRank globalKeepCount finalCapacity
    state

----------------
-- The Rows A Phase Marks
----------------

/- The survivors of one phase in shard and position order. -/
def SurvivorBanks.phaseRows
    (banks : SurvivorBanks)
    (threshold : UInt32)
    (phase : ScorePhase) : List CandidateMeta :=
  banks.rows.filter fun c => phase.isMatch threshold c.scoreKey

/- A flag is zero or one. -/
theorem finalMark_le_one
    (banks : SurvivorBanks)
    (threshold : UInt32)
    (phase : ScorePhase)
    (i : Nat) :
    finalMark banks threshold phase i ≤ 1 := by
  unfold finalMark
  simp only
  split_ifs <;> omega

/- The flag of a place in a shard. -/
theorem finalMark_shard
    (banks : SurvivorBanks)
    (threshold : UInt32)
    (phase : ScorePhase)
    {shard position : Nat}
    (hShard : shard < banks.shardCount)
    (hPosition : position < banks.shardCapacity) :
    finalMark banks threshold phase
        (shard * banks.shardCapacity + position) ≠ 0 ↔
      position < banks.cleanCount shard ∧
        phase.isMatch threshold
          (banks.survivor
            (shard * banks.shardCapacity + position)).scoreKey =
          true := by
  have hInside :
      shard * banks.shardCapacity + position < banks.items := by
    have hNext :
        (shard + 1) * banks.shardCapacity ≤
          banks.shardCount * banks.shardCapacity :=
      Nat.mul_le_mul_right _ hShard
    rw [Nat.add_mul, Nat.one_mul] at hNext
    unfold SurvivorBanks.items
    omega
  have hDiv :
      (shard * banks.shardCapacity + position) /
          banks.shardCapacity = shard := by
    rw [Nat.mul_comm, Nat.mul_add_div (by omega),
      Nat.div_eq_of_lt hPosition, Nat.add_zero]
  unfold finalMark
  simp only [if_pos hInside, hDiv, Nat.add_sub_cancel_left]
  split_ifs with hKeep
  · simpa using hKeep
  · simpa using hKeep

/- The flagged rows, shard by shard. -/
theorem kept_finalMark_shards
    (banks : SurvivorBanks)
    (threshold : UInt32)
    (phase : ScorePhase)
    (shards : Nat)
    (hShards : shards ≤ banks.shardCount) :
    kept (finalMark banks threshold phase) banks.survivor
        (shards * banks.shardCapacity) =
      ((List.range shards).flatMap banks.shardRows).filter
        fun c => phase.isMatch threshold c.scoreKey := by
  induction shards with
  | zero => simp [kept]
  | succ shards ih =>
      have hShard : shards < banks.shardCount := by omega
      rw [Nat.add_mul, Nat.one_mul, kept_add, ih (by omega),
        List.range_succ, List.flatMap_append, List.filter_append,
        List.flatMap_singleton]
      congr 1
      unfold SurvivorBanks.shardRows
      apply kept_eq_filter (banks.clean_le shards hShard)
      intro position hLt
      exact finalMark_shard banks threshold phase hShard hLt

/- The marks of a phase keep its rows. -/
theorem kept_finalMark
    (banks : SurvivorBanks)
    (threshold : UInt32)
    (phase : ScorePhase) :
    kept (finalMark banks threshold phase) banks.survivor
        (256 * banks.blocks) =
      banks.phaseRows threshold phase := by
  have hSplit :
      256 * banks.blocks =
        banks.items + (256 * banks.blocks - banks.items) := by
    unfold SurvivorBanks.blocks
    omega
  have hBeyond :
      kept
          (fun i =>
            finalMark banks threshold phase (banks.items + i))
          (fun i => banks.survivor (banks.items + i))
          (256 * banks.blocks - banks.items) = [] := by
    apply kept_eq_nil
    intro i _
    rw [finalMark, if_neg (by omega)]
  rw [hSplit, kept_add, hBeyond, List.append_nil]
  exact kept_finalMark_shards banks threshold phase
    banks.shardCount le_rfl

/- There are as many flags as rows of the phase. -/
theorem below_finalMark
    (banks : SurvivorBanks)
    (threshold : UInt32)
    (phase : ScorePhase) :
    below (finalMark banks threshold phase)
        (256 * banks.blocks) =
      (banks.phaseRows threshold phase).length := by
  rw [← kept_finalMark]
  exact (length_kept banks.survivor (256 * banks.blocks)
    fun i _ => finalMark_le_one banks threshold phase i).symm

/- The clean rows of all shards. -/
theorem length_rows (banks : SurvivorBanks) :
    banks.rows.length =
      below banks.cleanCount banks.shardCount := by
  unfold SurvivorBanks.rows
  rw [length_flatMap_range]
  apply below_congr
  intro shard _
  rw [SurvivorBanks.shardRows, length_firstN]

/- They fit in the survivors. -/
theorem length_rows_le (banks : SurvivorBanks) :
    banks.rows.length ≤ banks.items := by
  have hSum :
      below banks.cleanCount banks.shardCount ≤
        ∑ _shard ∈ Finset.range banks.shardCount,
          banks.shardCapacity := by
    apply Finset.sum_le_sum
    intro shard hMem
    exact banks.clean_le shard (Finset.mem_range.mp hMem)
  rw [Finset.sum_const, Finset.card_range] at hSum
  rw [length_rows]
  exact hSum

/- The score of a row has a bin. -/
theorem score_lt_of_mem_rows
    (banks : SurvivorBanks)
    {c : CandidateMeta}
    (hMem : c ∈ banks.rows) :
    c.scoreKey.toNat < scoreBinCount := by
  rcases List.mem_flatMap.mp hMem with ⟨shard, hShard, hRow⟩
  rcases mem_firstN_iff.mp hRow with ⟨position, hLt, rfl⟩
  exact banks.score_lt shard (List.mem_range.mp hShard)
    position hLt

----------------
-- One Phase
----------------

/- The scan's total is the number of rows of the phase. -/
theorem scan_finalMarkCounts
    (banks : SurvivorBanks)
    (threshold : UInt32)
    (phase : ScorePhase)
    (scratch : FinalScratch) :
    let marked := finalMarkCounts banks threshold phase scratch
    let scan :=
      scanBlockCounts marked.blockCounts marked.blockOffsets
        banks.blocks
    scan.running = (banks.phaseRows threshold phase).length ∧
      ∀ i < 256 * banks.blocks,
        compactDest (finalMark banks threshold phase)
            scan.offsets i =
          below (finalMark banks threshold phase) i := by
  intro marked scan
  have hCounts :
      ∀ block < banks.blocks,
        marked.blockCounts block =
          blockCount (finalMark banks threshold phase) block :=
    fun block hLt => if_pos hLt
  constructor
  · rw [← below_finalMark,
      ← below_blockCount _ marked.blockCounts _ hCounts]
    exact (scanBlockCounts_spec _ _ _).1
  · intro i hLt
    exact compactDest_eq _ _ _ hLt hCounts

/- A marked thread's place behind the scanned offsets. -/
theorem phaseLocal_eq
    (banks : SurvivorBanks)
    (threshold : UInt32)
    (phase : ScorePhase)
    (scratch : FinalScratch)
    {i : Nat}
    (hLt : i < 256 * banks.blocks)
    (hMark : finalMark banks threshold phase i ≠ 0) :
    let marked := finalMarkCounts banks threshold phase scratch
    let scan :=
      scanBlockCounts marked.blockCounts marked.blockOffsets
        banks.blocks
    scan.offsets (i / 256) +
          blockInclusive (finalMark banks threshold phase) i =
        below (finalMark banks threshold phase) i + 1 ∧
      below (finalMark banks threshold phase) i <
        (banks.phaseRows threshold phase).length := by
  intro marked scan
  have hLe := finalMark_le_one banks threshold phase i
  have hOne : finalMark banks threshold phase i = 1 := by
    omega
  have hAt :=
    (scan_finalMarkCounts banks threshold phase scratch).2 i hLt
  have hInclusive :=
    blockInclusive_add_below
      (finalMark banks threshold phase) i
  have hBlock :=
    below_mono (finalMark banks threshold phase)
      (show 256 * (i / 256) ≤ i by omega)
  have hAll :=
    below_mono (finalMark banks threshold phase)
      (show i + 1 ≤ 256 * banks.blocks by omega)
  rw [below_succ, hOne] at hInclusive
  rw [below_succ, below_finalMark] at hAll
  unfold compactDest at hAt
  rw [hOne] at hAt
  constructor
  · change scan.offsets (i / 256) + _ = _ at hAt
    omega
  · omega

/- The scattering threads read the flags of the marks. -/
theorem finalLoadKeep_marked
    (banks : SurvivorBanks)
    (threshold : UInt32)
    (phase : ScorePhase)
    (scratch : FinalScratch)
    (offsets : Nat → Nat) :
    finalLoadKeep banks
        { finalMarkCounts banks threshold phase scratch with
          blockOffsets := offsets } =
      finalMark banks threshold phase := by
  funext i
  unfold finalLoadKeep
  by_cases hLt : i < banks.items
  · rw [if_pos hLt]
    exact if_pos hLt
  · rw [if_neg hLt]
    exact (if_neg hLt).symm

/- The count of a phase is that of its rows. -/
theorem finalCountScorePhase_count
    (banks : SurvivorBanks)
    (threshold : UInt32)
    (phase : ScorePhase)
    (scratch : FinalScratch) :
    (finalCountScorePhase banks threshold phase scratch).2 =
      (banks.phaseRows threshold phase).length := by
  have hScan :=
    (scan_finalMarkCounts banks threshold phase scratch).1
  have hRows := length_rows banks
  have hFilter :=
    List.length_filter_le
      (fun c : CandidateMeta =>
        phase.isMatch threshold c.scoreKey)
      banks.rows
  have hTotal := banks.total_lt
  have hShort :
      (banks.phaseRows threshold phase).length <
        uint64Max.toNat := by
    rw [toNat_uint64Max]
    unfold SurvivorBanks.phaseRows
    omega
  have hGuard : ¬ (uint64Max.toNat = 0 ∨ 0 ≥ uint64Max.toNat) := by
    rw [toNat_uint64Max]
    omega
  unfold finalCountScorePhase finalScanBlockCountsPhase
  simp only [if_neg hGuard, hScan, Nat.sub_zero, if_pos hShort,
    finalPhaseBase, Nat.zero_add]

/- The write guards let exactly the rows with global room through. -/
theorem finalWrites_ne_zero_iff
    {base count capacity globalPrefix keepCount rows keep
      position : Nat}
    (hCount :
      count = base + min rows (keepCount - globalPrefix))
    (hCapacity : count ≤ capacity)
    (hRow : keep ≠ 0 → position < rows) :
    finalWrites keep (base + position) (globalPrefix + position)
        count capacity keepCount ≠ 0 ↔
      keep ≠ 0 ∧ position < keepCount - globalPrefix := by
  unfold finalWrites
  by_cases hKeep : keep = 0
  · simp [hKeep]
  · have hPosition := hRow hKeep
    split_ifs <;> omega

/- The scatter of a phase, written with the marks' prefix counts. -/
theorem finalScatterExactPhase_eq
    {banks : SurvivorBanks}
    {outputBase : Option Nat}
    {count globalPrefix keepCount capacity rows : Nat}
    {scratch : FinalScratch}
    {mark : Nat → Nat}
    (buffer : Nat → CandidateMeta)
    (hKeep : finalLoadKeep banks scratch = mark)
    (hLocal :
      ∀ i < 256 * banks.blocks, mark i ≠ 0 →
        scratch.blockOffsets (i / 256) +
            blockInclusive mark i - 1 =
          below mark i)
    (hBelow :
      ∀ i < 256 * banks.blocks, mark i ≠ 0 →
        below mark i < rows)
    (hCount :
      count =
        finalPhaseBase outputBase +
          min rows (keepCount - globalPrefix))
    (hCapacity : count ≤ capacity) :
    finalScatterExactPhase banks outputBase count globalPrefix
        keepCount capacity scratch buffer =
      scatter (cappedMark mark (keepCount - globalPrefix))
        (fun i => finalPhaseBase outputBase + below mark i)
        banks.survivor buffer (256 * banks.blocks) := by
  unfold finalScatterExactPhase
  simp only [hKeep]
  apply scatter_congr
  · intro i hLt
    have hRow : mark i ≠ 0 →
        scratch.blockOffsets (i / 256) +
            blockInclusive mark i - 1 <
          rows := by
      intro hMark
      rw [hLocal i hLt hMark]
      exact hBelow i hLt hMark
    rw [finalWrites_ne_zero_iff hCount hCapacity hRow]
    unfold cappedMark
    by_cases hMark : mark i ≠ 0
    · rw [hLocal i hLt hMark]
      split_ifs with hCap
      · simpa using hCap
      · simpa using hCap
    · simp [not_not.mp hMark]
  · intro i hLt hWrites
    have hMark : mark i ≠ 0 := by
      intro hZero
      simp [finalWrites, hZero] at hWrites
    rw [hLocal i hLt hMark]

/- A phase counts its rows up to the room, whatever the capacity. -/
theorem finalFilterPhase_count
    (banks : SurvivorBanks)
    (threshold : UInt32)
    (phase : ScorePhase)
    (outputBase : Option Nat)
    (phaseGlobalPrefix globalKeepCount finalCapacity : Nat)
    (state : FilterState) :
    (finalFilterPhase banks threshold phase outputBase
        phaseGlobalPrefix globalKeepCount finalCapacity
        state).count =
      finalPhaseBase outputBase +
        min (banks.phaseRows threshold phase).length
          (globalKeepCount - phaseGlobalPrefix) := by
  have hRunning :=
    (scan_finalMarkCounts banks threshold phase
      state.scratch).1
  unfold finalFilterPhase finalScanBlockCountsPhase
  dsimp only
  rw [hRunning]
  split_ifs <;> omega

/-
  One phase appends its first rows, up to the global room left
  behind its prefix, to the rows already in the buffer.
-/
theorem finalFilterPhase_spec
    (banks : SurvivorBanks)
    (threshold : UInt32)
    (phase : ScorePhase)
    (outputBase : Option Nat)
    (phaseGlobalPrefix globalKeepCount finalCapacity : Nat)
    (state : FilterState)
    (hCapacity :
      finalPhaseBase outputBase +
          min (banks.phaseRows threshold phase).length
            (globalKeepCount - phaseGlobalPrefix) ≤
        finalCapacity) :
    let out :=
      finalFilterPhase banks threshold phase outputBase
        phaseGlobalPrefix globalKeepCount finalCapacity state
    out.count =
        finalPhaseBase outputBase +
          min (banks.phaseRows threshold phase).length
            (globalKeepCount - phaseGlobalPrefix) ∧
      firstN out.buffer out.count =
        firstN state.buffer (finalPhaseBase outputBase) ++
          (banks.phaseRows threshold phase).take
            (globalKeepCount - phaseGlobalPrefix) := by
  intro out
  let marked :=
    finalMarkCounts banks threshold phase state.scratch
  let scanned :=
    finalScanBlockCountsPhase outputBase banks.blocks
      phaseGlobalPrefix globalKeepCount marked
  have hCount :
      out.count =
        finalPhaseBase outputBase +
          min (banks.phaseRows threshold phase).length
            (globalKeepCount - phaseGlobalPrefix) :=
    finalFilterPhase_count banks threshold phase outputBase
      phaseGlobalPrefix globalKeepCount finalCapacity state
  refine ⟨hCount, ?_⟩
  have hKeep :
      finalLoadKeep banks scanned.1 =
        finalMark banks threshold phase :=
    finalLoadKeep_marked banks threshold phase state.scratch _
  have hPlace : ∀ i < 256 * banks.blocks,
      finalMark banks threshold phase i ≠ 0 →
      scanned.1.blockOffsets (i / 256) +
            blockInclusive (finalMark banks threshold phase) i =
          below (finalMark banks threshold phase) i + 1 ∧
        below (finalMark banks threshold phase) i <
          (banks.phaseRows threshold phase).length :=
    fun i hLt hMark =>
      phaseLocal_eq banks threshold phase state.scratch hLt
        hMark
  have hBuffer :
      out.buffer =
        finalScatterExactPhase banks outputBase out.count
          phaseGlobalPrefix globalKeepCount finalCapacity
          scanned.1 state.buffer :=
    rfl
  rw [hBuffer,
    finalScatterExactPhase_eq state.buffer hKeep
      (fun i hLt hMark =>
        Nat.sub_eq_of_eq_add (hPlace i hLt hMark).1)
      (fun i hLt hMark => (hPlace i hLt hMark).2)
      hCount (hCount.le.trans hCapacity),
    hCount, ← below_finalMark,
    ← kept_finalMark banks threshold phase]
  exact firstN_scatter_capped banks.survivor state.buffer
    (finalPhaseBase outputBase)
    (globalKeepCount - phaseGlobalPrefix) (256 * banks.blocks)
    fun i _ => finalMark_le_one banks threshold phase i

/- The count of both phases. -/
theorem finalFilterLoadBalanceExact_count
    (banks : SurvivorBanks)
    (threshold : UInt32)
    (lessPrefix equalPrefix keep capacity : Nat)
    (state : FilterState) :
    (finalFilterLoadBalanceExact banks threshold lessPrefix
        equalPrefix keep capacity state).count =
      min (banks.phaseRows threshold .less).length
          (keep - lessPrefix) +
        min (banks.phaseRows threshold .equal).length
          (keep - equalPrefix) := by
  unfold finalFilterLoadBalanceExact
  dsimp only
  rw [finalFilterPhase_count, finalPhaseBase,
    finalFilterPhase_count, finalPhaseBase, Nat.zero_add]

/- The exact filter lists the less rows before the equal rows. -/
theorem finalFilterLoadBalanceExact_spec
    (banks : SurvivorBanks)
    (threshold : UInt32)
    (lessPrefix equalPrefix keep capacity : Nat)
    (state : FilterState)
    (hCapacity :
      min (banks.phaseRows threshold .less).length
            (keep - lessPrefix) +
          min (banks.phaseRows threshold .equal).length
            (keep - equalPrefix) ≤
        capacity) :
    let out :=
      finalFilterLoadBalanceExact banks threshold lessPrefix
        equalPrefix keep capacity state
    out.count =
        min (banks.phaseRows threshold .less).length
            (keep - lessPrefix) +
          min (banks.phaseRows threshold .equal).length
            (keep - equalPrefix) ∧
      firstN out.buffer out.count =
        (banks.phaseRows threshold .less).take
            (keep - lessPrefix) ++
          (banks.phaseRows threshold .equal).take
            (keep - equalPrefix) := by
  intro out
  let first :=
    finalFilterPhase banks threshold .less none lessPrefix keep
      capacity state
  have hFirst :=
    finalFilterPhase_spec banks threshold .less none lessPrefix
      keep capacity state
      (by simp only [finalPhaseBase]; omega)
  rcases hFirst with ⟨hFirstCount, hFirstRows⟩
  simp only [finalPhaseBase, Nat.zero_add] at hFirstCount
  have hBase : finalPhaseBase (some first.count) =
      min (banks.phaseRows threshold .less).length
        (keep - lessPrefix) :=
    hFirstCount
  have hSecond :=
    finalFilterPhase_spec banks threshold .equal
      (some first.count) equalPrefix keep capacity first
      (by rw [hBase]; exact hCapacity)
  rcases hSecond with ⟨hCount, hRows⟩
  rw [hBase] at hCount hRows
  refine ⟨hCount, hRows.trans ?_⟩
  congr 1
  rw [← hFirstCount]
  refine hFirstRows.trans ?_
  simp [finalPhaseBase, firstN]

end Final

end BeamSearch

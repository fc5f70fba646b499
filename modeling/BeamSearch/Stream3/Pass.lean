import BeamSearch.Stream3.Oracle

/-
  The Stream 3 GPU pass computes its host oracle.

  The compactions filter, the padded sort and reduction leave
  the least packed value of every hash in hash order, and the
  values name the positions the candidates are restored from.
  Padding shares the sentinel hash with real rows but its value
  is above every real one. The split writes every peer's part
  before the rank's own rows move up over the scratch.

  Main declarations:
    * `liveCandidates`
    * `packThreshold_unique`
    * `SplitMatches`
    * `stream3Pass_eq_oracle`
-/

namespace BeamSearch

open Cdf Compaction KeyedMin KeySplit SegmentedReduce

namespace Stream3

variable {rows : List (Hash128 × UInt64)} {batch worldSize count : Nat}
    {scratch : Stream3Scratch} {localRank : UInt16} {split : Stream3Split}
    {unique : List CandidateMeta}

----------------
-- Packed Values And Routes
----------------

theorem toNat_packStream3Val
    (scoreKey payloadId : UInt32) :
    (packStream3Val scoreKey payloadId).toNat =
      scoreKey.toNat * 2 ^ 32 + payloadId.toNat := by
  have hScore := scoreKey.toNat_lt
  have hPayload := payloadId.toNat_lt
  have hWidth : UInt64.toNat 32 % 64 = 32 := rfl
  have hShift :
      (scoreKey.toUInt64 <<< 32).toNat =
        2 ^ 32 * scoreKey.toNat := by
    rw [UInt64.toNat_shiftLeft, UInt32.toNat_toUInt64, hWidth,
      Nat.shiftLeft_eq, Nat.mod_eq_of_lt (by omega),
      Nat.mul_comm]
  unfold packStream3Val
  rw [UInt64.toNat_or, hShift, UInt32.toNat_toUInt64,
    ← Nat.two_pow_add_eq_or_of_lt hPayload, Nat.mul_comm]

/- The score is read back from the packed value. -/
theorem scoreKeyOf_packStream3Val
    (scoreKey payloadId : UInt32) :
    scoreKeyOf (packStream3Val scoreKey payloadId) =
      scoreKey := by
  have hScore := scoreKey.toNat_lt
  have hPayload := payloadId.toNat_lt
  have hWidth : UInt64.toNat 32 % 64 = 32 := rfl
  apply UInt32.toNat_inj.mp
  unfold scoreKeyOf
  rw [UInt64.toNat_toUInt32, UInt64.toNat_shiftRight,
    toNat_packStream3Val, hWidth, Nat.shiftRight_eq_div_pow]
  omega

/- So is the payload. -/
theorem payloadIdOf_packStream3Val
    (scoreKey payloadId : UInt32) :
    payloadIdOf (packStream3Val scoreKey payloadId) =
      payloadId := by
  have hPayload := payloadId.toNat_lt
  have hLow : UInt64.toNat 0xffffffff = 2 ^ 32 - 1 := rfl
  apply UInt32.toNat_inj.mp
  unfold payloadIdOf
  rw [UInt64.toNat_toUInt32, UInt64.toNat_and,
    toNat_packStream3Val, hLow, Nat.and_two_pow_sub_one_eq_mod]
  omega

theorem toNat_packRoute
    (sourceRank : UInt16)
    (owner move : UInt8) :
    (packRoute sourceRank owner move).toNat =
      sourceRank.toNat * 2 ^ 16 + owner.toNat * 2 ^ 8 +
        move.toNat := by
  have hSource := sourceRank.toNat_lt
  have hOwner := owner.toNat_lt
  have hMove := move.toNat_lt
  have hSourceShift :
      (sourceRank.toUInt32 <<< 16).toNat =
        2 ^ 16 * sourceRank.toNat := by
    have hWidth : UInt32.toNat 16 % 32 = 16 := rfl
    rw [UInt32.toNat_shiftLeft, UInt16.toNat_toUInt32, hWidth,
      Nat.shiftLeft_eq, Nat.mod_eq_of_lt (by omega),
      Nat.mul_comm]
  have hOwnerShift :
      (owner.toUInt32 <<< 8).toNat = 2 ^ 8 * owner.toNat := by
    have hWidth : UInt32.toNat 8 % 32 = 8 := rfl
    rw [UInt32.toNat_shiftLeft, UInt8.toNat_toUInt32, hWidth,
      Nat.shiftLeft_eq, Nat.mod_eq_of_lt (by omega),
      Nat.mul_comm]
  unfold packRoute
  rw [UInt32.toNat_or, UInt32.toNat_or, hSourceShift,
    hOwnerShift, UInt8.toNat_toUInt32, Nat.or_assoc,
    ← Nat.two_pow_add_eq_or_of_lt hMove,
    ← Nat.two_pow_add_eq_or_of_lt (by omega)]
  omega

/- The owner is read back from the packed route. -/
theorem unpackOwner_packRoute
    (sourceRank : UInt16)
    (owner move : UInt8) :
    unpackOwner (packRoute sourceRank owner move) = owner := by
  have hOwner := owner.toNat_lt
  have hMove := move.toNat_lt
  have hWidth : UInt32.toNat 8 % 32 = 8 := rfl
  have hLow : UInt32.toNat 0xff = 2 ^ 8 - 1 := rfl
  apply UInt8.toNat_inj.mp
  unfold unpackOwner
  rw [UInt32.toNat_toUInt8, UInt32.toNat_and,
    UInt32.toNat_shiftRight, toNat_packRoute, hWidth, hLow,
    Nat.and_two_pow_sub_one_eq_mod, Nat.shiftRight_eq_div_pow]
  omega

----------------
-- The Candidates Of A Ring
----------------

/- What the host calls the candidate at a position. -/
def Stream3Ring.candidateInput
    (ring : Stream3Ring)
    (i : Nat) : Stream3CandidateInput :=
  { hash := ring.hashRing i
    scoreKey := ring.scoreRing i
    payloadId := UInt32.ofNat i
    parentIdx := ring.parentIdx i
    move := UInt8.ofNat (i % ring.moveCount) }

/- The rows with a parent. -/
def liveCandidates
    (ring : Stream3Ring) : List Stream3CandidateInput :=
  ((List.range ring.batchCandidates).filter fun i =>
    ring.IsLive i).map ring.candidateInput

/- The pair a kept thread writes. -/
def Stream3Ring.row
    (ring : Stream3Ring)
    (i : Nat) : Hash128 × UInt64 :=
  (ring.hashRing i,
    packStream3Val (ring.scoreRing i) (UInt32.ofNat i))

/- The places that pass the threshold. -/
def keptPositions
    (ring : Stream3Ring)
    (threshold : UInt32) : List Nat :=
  (List.range ring.batchCandidates).filter fun i =>
    ring.IsLive i ∧ ring.scoreRing i ≤ threshold

/- The rows at those places. -/
def selectedRows
    (ring : Stream3Ring)
    (threshold : UInt32) : List (Hash128 × UInt64) :=
  (keptPositions ring threshold).map ring.row

theorem length_selectedRows_le
    (ring : Stream3Ring)
    (threshold : UInt32) :
    (selectedRows ring threshold).length ≤
      ring.batchCandidates := by
  unfold selectedRows keptPositions
  rw [List.length_map]
  exact
    (List.length_filter_le _ _).trans
      (List.length_range).le

----------------
-- Compactions
----------------

theorem le_blocksFor (items : Nat) :
    items ≤ 256 * blocksFor items := by
  unfold blocksFor
  omega

theorem blocksFor_pos
    {items : Nat}
    (hPositive : 0 < items) :
    0 < blocksFor items := by
  unfold blocksFor
  omega

/- Scattering keys and values scatters the pairs. -/
theorem scatter_pair
    {α β : Type}
    (mark dest : Nat → Nat)
    (key keyOut : Nat → α)
    (value valueOut : Nat → β)
    (n i : Nat) :
    (scatter mark dest key keyOut n i,
        scatter mark dest value valueOut n i) =
      scatter mark dest (fun i => (key i, value i))
        (fun i => (keyOut i, valueOut i)) n i := by
  induction n with
  | zero => rfl
  | succ n ih =>
      rw [scatter_succ, scatter_succ, scatter_succ]
      by_cases hMark : mark n ≠ 0
      · rw [if_pos hMark, if_pos hMark, if_pos hMark]
        by_cases hHere : i = dest n
        · rw [hHere, Function.update_self, Function.update_self,
            Function.update_self]
        · rw [Function.update_of_ne hHere,
            Function.update_of_ne hHere,
            Function.update_of_ne hHere]
          exact ih
      · rw [if_neg hMark, if_neg hMark, if_neg hMark]
        exact ih

/- Counted marks, once scanned, compact to what they keep. -/
theorem firstN_scanned
    {α : Type}
    {mark : Nat → Nat}
    {blocks : Nat}
    (scratch : Stream3Scratch)
    (value output : Nat → α)
    (hBlocks : 0 < blocks)
    (hMark : ∀ i, mark i ≤ 1)
    (hCounts :
      ∀ block < blocks,
        scratch.blockCounts block = blockCount mark block) :
    let scanned := stream3ScanBlockCounts blocks scratch
    scanned.uniqueCount =
        (kept mark value (256 * blocks)).length ∧
      firstN
          (scatter mark (compactDest mark scanned.blockOffsets)
            value output (256 * blocks))
          scanned.uniqueCount =
        kept mark value (256 * blocks) := by
  intro scanned
  have hCompact :=
    firstN_compact scratch.blockCounts scratch.blockOffsets value
      output hMark hCounts
  have hScan :=
    scanBlockCounts_spec scratch.blockCounts
      scratch.blockOffsets blocks
  have hTotal :
      scanned.uniqueCount =
        (scanBlockCounts scratch.blockCounts
          scratch.blockOffsets blocks).running := by
    change
      (scanBlockCounts scratch.blockCounts scratch.blockOffsets
          blocks).offsets (blocks - 1) +
        scratch.blockCounts (blocks - 1) = _
    rw [hScan.1, hScan.2 _ (by omega), ← below_succ]
    congr 1
    omega
  rw [hTotal, hCompact.1]
  exact ⟨rfl, hCompact.2⟩

theorem keepMark_le
    (ring : Stream3Ring)
    (threshold : UInt32)
    (i : Nat) :
    keepMark ring threshold i ≤ 1 := by
  unfold keepMark
  split_ifs
  · exact le_rfl
  · exact Nat.zero_le _
  · exact Nat.zero_le _

/- The entries that are kept are the selected rows. -/
theorem kept_keepMark
    (ring : Stream3Ring)
    (threshold : UInt32) :
    kept (keepMark ring threshold) ring.row
        (256 * blocksFor ring.batchCandidates) =
      selectedRows ring threshold := by
  have hPositions :
      kept (keepMark ring threshold) (fun i => i)
          (256 * blocksFor ring.batchCandidates) =
        keptPositions ring threshold := by
    have hFilter :
        kept (keepMark ring threshold) (fun i => i)
            (256 * blocksFor ring.batchCandidates) =
          (firstN (fun i => i) ring.batchCandidates).filter
            fun i =>
              ring.IsLive i ∧ ring.scoreRing i ≤ threshold := by
      apply kept_eq_filter (le_blocksFor _)
      intro i _
      unfold keepMark
      rw [decide_eq_true_iff]
      split_ifs with hBatch hKeep
      · exact iff_of_true Nat.one_ne_zero ⟨hBatch, hKeep⟩
      · exact
          iff_of_false (not_not.mpr rfl) fun hBoth =>
            hKeep hBoth.2
      · exact
          iff_of_false (not_not.mpr rfl) fun hBoth =>
            hBatch hBoth.1
    rw [hFilter]
    unfold firstN keptPositions
    rw [List.map_id']
  rw [selectedRows, ← hPositions]
  unfold kept
  rw [List.map_map]
  rfl

/- What a compaction leaves: a count and the pairs before it. -/
structure Holds
    (key : Nat → Hash128)
    (value : Nat → UInt64)
    (count : Nat)
    (rows : List (Hash128 × UInt64)) : Prop where
  count : count = rows.length
  pairs : firstN (fun i => (key i, value i)) rows.length = rows

/- After the compaction the selected rows stand in front. -/
theorem compact_holds
    (ring : Stream3Ring)
    (threshold : UInt32)
    (scratch : Stream3Scratch)
    (hBatch : 0 < ring.batchCandidates) :
    let compacted :=
      stream3Compact ring
        (stream3ScanBlockCounts (blocksFor ring.batchCandidates)
          (stream3MarkCounts ring threshold scratch))
    Holds compacted.compactKey compacted.compactVal
      compacted.uniqueCount (selectedRows ring threshold) := by
  intro compacted
  let marked := stream3MarkCounts ring threshold scratch
  let scanned :=
    stream3ScanBlockCounts (blocksFor ring.batchCandidates) marked
  have hKeep :
      loadFlag scanned ring.batchCandidates =
        keepMark ring threshold := by
    funext i
    unfold loadFlag
    split_ifs with hLt
    · exact if_pos hLt
    · exact (if_neg hLt).symm
  have hCompact :=
    firstN_scanned marked ring.row
      (fun i => (scratch.compactKey i, scratch.compactVal i))
      (blocksFor_pos hBatch) (keepMark_le ring threshold)
      fun block hLt => if_pos hLt
  rw [kept_keepMark] at hCompact
  refine ⟨hCompact.1, ?_⟩
  have hPairs := hCompact.2
  rw [hCompact.1] at hPairs
  refine Eq.trans (firstN_congr fun i _ => ?_) hPairs
  change
    (scatter (loadFlag scanned ring.batchCandidates)
        (compactDest (loadFlag scanned ring.batchCandidates)
          scanned.blockOffsets)
        ring.hashRing scratch.compactKey
        (256 * blocksFor ring.batchCandidates) i,
      scatter (loadFlag scanned ring.batchCandidates)
        (compactDest (loadFlag scanned ring.batchCandidates)
          scanned.blockOffsets)
        (fun i =>
          packStream3Val (ring.scoreRing i) (UInt32.ofNat i))
        scratch.compactVal
        (256 * blocksFor ring.batchCandidates) i) = _
  rw [hKeep, scatter_pair]
  rfl

----------------
-- Sort And Reduction Of The Padded Rows
----------------

/- The rows and the padding behind them. -/
def padded
    (rows : List (Hash128 × UInt64))
    (padding : Nat) : List (Hash128 × UInt64) :=
  rows ++ List.replicate padding (sentinelHash, uint64Max)

/- The row is not the padding's. -/
def isValid (row : Hash128 × UInt64) : Bool :=
  row.2 ≠ uint64Max

/- The batch, sorted and reduced with its padding. -/
def reducedPadded
    (cub : Stream3Cub)
    (rows : List (Hash128 × UInt64))
    (padding : Nat) : List (Hash128 × UInt64) :=
  cub.hashReduceByKey.run
    (cub.hashSortPairs.run (padded rows padding))

/- What is left without the padding. -/
def validOutputs
    (cub : Stream3Cub)
    (rows : List (Hash128 × UInt64))
    (padding : Nat) : List (Hash128 × UInt64) :=
  (reducedPadded cub rows padding).filter isValid

theorem length_padded
    (hFits : rows.length ≤ batch) :
    (padded rows (batch - rows.length)).length = batch := by
  unfold padded
  rw [List.length_append, List.length_replicate]
  omega

theorem length_reducedPadded_le
    (cub : Stream3Cub)
    (hFits : rows.length ≤ batch) :
    (reducedPadded cub rows (batch - rows.length)).length ≤
      batch := by
  have hLe :=
    (cub.hashReduceByKey.reduces
      (cub.hashSortPairs.run
        (padded rows (batch - rows.length)))).length_le
  rw [SortPairs.length_run, length_padded hFits] at hLe
  exact hLe

/- Behind the rows the tail is filled up to a batch. -/
theorem fillSortTail_pairs
    (hHolds :
      Holds scratch.compactKey scratch.compactVal
        scratch.uniqueCount rows)
    (hFits : rows.length ≤ batch) :
    firstN
        (fun i =>
          ((stream3FillSortTail batch scratch).compactKey i,
            (stream3FillSortTail batch scratch).compactVal i))
        batch =
      padded rows (batch - rows.length) := by
  have hSplit : batch = rows.length + (batch - rows.length) := by
    omega
  have hFront :
      firstN
          (fun i =>
            ((stream3FillSortTail batch scratch).compactKey i,
              (stream3FillSortTail batch scratch).compactVal i))
          rows.length =
        rows := by
    refine Eq.trans (firstN_congr fun i hLt => ?_) hHolds.pairs
    have hNot : ¬ (scratch.uniqueCount ≤ i ∧ i < batch) := by
      rw [hHolds.count]
      omega
    unfold stream3FillSortTail
    dsimp only
    rw [if_neg hNot, if_neg hNot]
  have hBack :
      firstN
          (fun i =>
            ((stream3FillSortTail batch scratch).compactKey
                (rows.length + i),
              (stream3FillSortTail batch scratch).compactVal
                (rows.length + i)))
          (batch - rows.length) =
        List.replicate (batch - rows.length)
          (sentinelHash, uint64Max) := by
    rw [← firstN_const]
    apply firstN_congr
    intro i hLt
    have hPad :
        scratch.uniqueCount ≤ rows.length + i ∧
          rows.length + i < batch := by
      rw [hHolds.count]
      omega
    unfold stream3FillSortTail
    dsimp only
    rw [if_pos hPad, if_pos hPad]
  have hAdd :=
    firstN_add
      (fun i =>
        ((stream3FillSortTail batch scratch).compactKey i,
          (stream3FillSortTail batch scratch).compactVal i))
      rows.length (batch - rows.length)
  rw [← hSplit, hFront, hBack] at hAdd
  exact hAdd

theorem hashSort_pairs
    (cub : Stream3Cub)
    {pairs : List (Hash128 × UInt64)}
    (hPairs :
      firstN
          (fun i =>
            (scratch.compactKey i, scratch.compactVal i))
          batch = pairs) :
    firstN
        (fun i =>
          ((stream3HashSort cub batch scratch).compactKey i,
            (stream3HashSort cub batch scratch).compactVal i))
        batch =
      cub.hashSortPairs.run pairs := by
  have hLength :
      (cub.hashSortPairs.run pairs).length = batch := by
    rw [SortPairs.length_run, ← hPairs, length_firstN]
  have hRead :=
    firstN_writeFirst_pairs (cub.hashSortPairs.run pairs)
      scratch.compactKey scratch.compactVal
  rw [hLength] at hRead
  unfold stream3HashSort
  rw [hPairs]
  exact hRead

/- The reduction leaves one entry for each hash. -/
theorem hashReduce_holds
    (cub : Stream3Cub)
    {pairs : List (Hash128 × UInt64)}
    (hPairs :
      firstN
          (fun i =>
            (scratch.compactKey i, scratch.compactVal i))
          batch = pairs) :
    Holds (stream3HashReduce cub batch scratch).reduceKey
      (stream3HashReduce cub batch scratch).reduceVal
      (stream3HashReduce cub batch scratch).uniqueCount
      (cub.hashReduceByKey.run pairs) := by
  unfold stream3HashReduce
  rw [hPairs]
  exact ⟨rfl, firstN_writeFirst_pairs _ _ _⟩

theorem validMark_le
    (scratch : Stream3Scratch)
    (i : Nat) :
    validMark scratch i ≤ 1 := by
  unfold validMark
  split_ifs
  · exact le_rfl
  · exact Nat.zero_le _
  · exact Nat.zero_le _

/- The second compaction keeps the valid rows of the reduction. -/
theorem compactValid_holds
    (hHolds :
      Holds scratch.reduceKey scratch.reduceVal
        scratch.uniqueCount rows)
    (hBatch : 0 < batch)
    (hFits : rows.length ≤ batch) :
    let compacted :=
      stream3CompactValidUnique batch
        (stream3ScanBlockCounts (blocksFor batch)
          (stream3MarkValidUniqueCounts batch scratch))
    Holds compacted.uniqueKey compacted.uniqueVal
      compacted.uniqueCount (rows.filter isValid) := by
  intro compacted
  let marked := stream3MarkValidUniqueCounts batch scratch
  let scanned := stream3ScanBlockCounts (blocksFor batch) marked
  have hCover := le_blocksFor batch
  have hCount := hHolds.count
  have hKeep : loadFlag scanned batch = validMark scratch := by
    funext i
    unfold loadFlag
    by_cases hIn : i < scratch.uniqueCount
    · rw [if_pos (by omega)]
      exact if_pos ⟨hIn, by omega⟩
    · have hZero : validMark scratch i = 0 := if_neg hIn
      rw [hZero]
      split_ifs with hLt
      · exact
          (if_neg fun hBoth => hIn hBoth.1).trans (if_pos hLt)
      · rfl
  have hKept :
      kept (validMark scratch)
          (fun i => (scratch.reduceKey i, scratch.reduceVal i))
          (256 * blocksFor batch) =
        rows.filter isValid := by
    rw [← hHolds.pairs]
    apply kept_eq_filter (by omega)
    intro i _
    unfold validMark isValid
    rw [hCount, decide_eq_true_iff]
    split_ifs with hLt hValid
    · exact iff_of_true Nat.one_ne_zero ⟨hLt, hValid⟩
    · exact
        iff_of_false (not_not.mpr rfl) fun hBoth =>
          hValid hBoth.2
    · exact
        iff_of_false (not_not.mpr rfl) fun hBoth => hLt hBoth.1
  have hCompact :=
    firstN_scanned marked
      (fun i => (scratch.reduceKey i, scratch.reduceVal i))
      (fun i => (scratch.uniqueKey i, scratch.uniqueVal i))
      (blocksFor_pos hBatch) (validMark_le scratch)
      fun block hLt => if_pos hLt
  rw [hKept] at hCompact
  refine ⟨hCompact.1, ?_⟩
  have hPairs := hCompact.2
  rw [hCompact.1] at hPairs
  refine Eq.trans (firstN_congr fun i _ => ?_) hPairs
  change
    (scatter (loadFlag scanned batch)
        (compactDest (loadFlag scanned batch)
          scanned.blockOffsets)
        scratch.reduceKey scratch.uniqueKey
        (256 * blocksFor batch) i,
      scatter (loadFlag scanned batch)
        (compactDest (loadFlag scanned batch)
          scanned.blockOffsets)
        scratch.reduceVal scratch.uniqueVal
        (256 * blocksFor batch) i) = _
  rw [hKeep, scatter_pair]

/- The unique rows of a pass are the valid outputs of the
reduction of the selected rows. -/
theorem packThreshold_holds
    (cub : Stream3Cub)
    (ring : Stream3Ring)
    (threshold : Stream3Threshold)
    (scratch : Stream3Scratch)
    (hBatch : 0 < ring.batchCandidates) :
    let packed := stream3PackThreshold cub ring threshold scratch
    let rows := selectedRows ring threshold.current
    Holds packed.uniqueKey packed.uniqueVal packed.uniqueCount
      (validOutputs cub rows
        (ring.batchCandidates - rows.length)) := by
  intro packed rows
  have hFits := length_selectedRows_le ring threshold.current
  have hSelected :=
    compact_holds ring threshold.current scratch hBatch
  have hSorted :=
    hashSort_pairs cub (fillSortTail_pairs hSelected hFits)
  have hReduced := hashReduce_holds cub hSorted
  exact
    compactValid_holds hReduced hBatch
      (length_reducedPadded_le cub hFits)

----------------
-- The Unique Rows Of The Oracle
----------------

/- The packed row of a pair of the ring. -/
def packedOf
    (ring : Stream3Ring)
    (row : Hash128 × UInt64) : Packed :=
  let payloadId := (payloadIdOf row.2).toNat
  { hash := row.1
    val := row.2
    parentIdx := ring.parentIdx payloadId
    move :=
      UInt8.ofNat (ring.localIndex payloadId % ring.moveCount) }

/- The rows in the order of the oracle. -/
def sortRows
    (ring : Stream3Ring)
    (rows : List (Hash128 × UInt64)) :
    List (Hash128 × UInt64) :=
  rows.insertionSort fun p q =>
    packedLess (packedOf ring q) (packedOf ring p) = false

/- The first row of each hash in that order. -/
def uniqueRows
    (ring : Stream3Ring)
    (rows : List (Hash128 × UInt64)) :
    List (Hash128 × UInt64) :=
  firstOfRuns Prod.fst (sortRows ring rows)

theorem not_packedLess_iff (a b : Packed) :
    packedLess b a = false ↔
      a.hash < b.hash ∨
        (a.hash = b.hash ∧ a.val.toNat ≤ b.val.toNat) := by
  unfold packedLess
  by_cases hHash : b.hash = a.hash
  · rw [if_neg fun hBoth => hBoth.2 hHash,
      if_neg (not_not.mpr hHash), decide_eq_false_iff_not,
      UInt64.lt_iff_toNat_lt, not_lt, hHash]
    constructor
    · exact fun hLe => Or.inr ⟨rfl, hLe⟩
    · intro hEither
      rcases hEither with hLt | ⟨-, hLe⟩
      · exact absurd hLt (lt_irrefl _)
      · exact hLe
  · have hNe : a.hash ≠ b.hash := fun hEq => hHash hEq.symm
    have hRight :
        (a.hash < b.hash ∨
            (a.hash = b.hash ∧ a.val.toNat ≤ b.val.toNat)) ↔
          a.hash < b.hash :=
      or_iff_left fun hBoth => hNe hBoth.1
    rw [hRight]
    by_cases hLess : hashLess b.hash a.hash = false
    · rw [if_pos ⟨hLess, hHash⟩]
      refine iff_of_true rfl ?_
      rw [Bool.eq_false_iff, ne_eq, hashLess_iff, not_lt]
        at hLess
      exact lt_of_le_of_ne hLess hNe
    · rw [if_neg fun hBoth => hLess hBoth.1, if_pos hHash]
      refine iff_of_false Bool.true_eq_false_eq_False ?_
      rw [Bool.not_eq_false, hashLess_iff] at hLess
      exact hLess.not_gt

theorem sortRows_pairwise
    (ring : Stream3Ring)
    (rows : List (Hash128 × UInt64)) :
    (sortRows ring rows).Pairwise fun p q =>
      p.1 < q.1 ∨ (p.1 = q.1 ∧ p.2.toNat ≤ q.2.toNat) := by
  have hTotal :
      Std.Total fun p q : Hash128 × UInt64 =>
        packedLess (packedOf ring q) (packedOf ring p) =
          false :=
    ⟨fun p q => by
      rw [not_packedLess_iff, not_packedLess_iff]
      change
        (p.1 < q.1 ∨ (p.1 = q.1 ∧ p.2.toNat ≤ q.2.toNat)) ∨
          (q.1 < p.1 ∨ (q.1 = p.1 ∧ q.2.toNat ≤ p.2.toNat))
      rcases lt_trichotomy p.1 q.1 with hLt | hEq | hGt
      · exact Or.inl (Or.inl hLt)
      · rcases Nat.le_total p.2.toNat q.2.toNat with hLe | hGe
        · exact Or.inl (Or.inr ⟨hEq, hLe⟩)
        · exact Or.inr (Or.inr ⟨hEq.symm, hGe⟩)
      · exact Or.inr (Or.inl hGt)⟩
  have hTrans :
      IsTrans (Hash128 × UInt64) fun p q =>
        packedLess (packedOf ring q) (packedOf ring p) =
          false :=
    ⟨fun p q r hFirst hSecond => by
      rw [not_packedLess_iff] at hFirst hSecond ⊢
      rcases hFirst with hPq | ⟨hPq, hLePq⟩
      · rcases hSecond with hQr | ⟨hQr, -⟩
        · exact Or.inl (hPq.trans hQr)
        · exact Or.inl (hQr ▸ hPq)
      · rcases hSecond with hQr | ⟨hQr, hLeQr⟩
        · exact Or.inl (hPq ▸ hQr)
        · exact Or.inr ⟨hPq.trans hQr, hLePq.trans hLeQr⟩⟩
  unfold sortRows
  exact
    (List.pairwise_insertionSort
      (fun p q : Hash128 × UInt64 =>
        packedLess (packedOf ring q) (packedOf ring p) = false)
      rows).imp fun hSorted => (not_packedLess_iff _ _).mp hSorted

/- The least packed value of its hash. -/
abbrev IsLeast
    (rows : List (Hash128 × UInt64))
    (row : Hash128 × UInt64) : Prop :=
  IsWinner Prod.fst (fun p => p.2.toNat) (fun _ => True) rows row

theorem uniqueRows_pairwise
    (ring : Stream3Ring)
    (rows : List (Hash128 × UInt64)) :
    (uniqueRows ring rows).Pairwise fun p q => p.1 < q.1 := by
  apply firstOfRuns_pairwise
  refine (sortRows_pairwise ring rows).imp ?_
  intro p q hSorted
  rcases hSorted with hLt | ⟨hEq, -⟩
  · exact hLt.le
  · exact hEq.le

/- The oracle keeps the least row of each hash. -/
theorem mem_uniqueRows_iff
    (ring : Stream3Ring)
    (rows : List (Hash128 × UInt64))
    (row : Hash128 × UInt64) :
    row ∈ uniqueRows ring rows ↔ IsLeast rows row := by
  have hSeparates :
      RankSeparates (Prod.fst : Hash128 × UInt64 → Hash128)
        fun p => p.2.toNat :=
    fun _ _ hKey hRank =>
      Prod.ext hKey (UInt64.toNat_inj.mp hRank)
  have hRuns :
      Reduces Prod.fst (fun p => p.2.toNat) (fun _ => True)
        (uniqueRows ring rows) (sortRows ring rows) := by
    apply firstOfRuns_reduces
    refine (sortRows_pairwise ring rows).imp ?_
    intro p q hSorted hEq
    rcases hSorted with hLt | ⟨-, hLe⟩
    · exact absurd hEq hLt.ne
    · exact hLe
  have hReduces :
      Reduces Prod.fst (fun p => p.2.toNat) (fun _ => True)
        (uniqueRows ring rows) rows :=
    hRuns.trans (fun _ _ _ _ => trivial)
      (Reduces.of_mem_iff fun _ => List.mem_insertionSort _)
  rw [mem_iff_isWinner_of_pairwise
    (fun p : Hash128 × UInt64 => p.2.toNat)
    (uniqueRows_pairwise ring rows) (fun _ _ => trivial)]
  exact
    hReduces.isWinner_iff (fun _ _ _ _ => trivial) hSeparates row

----------------
-- The Valid Outputs Are The Unique Rows
----------------

theorem stream3MinValue_selects (a b : UInt64) :
    (stream3MinValue a b = a ∧ a.toNat ≤ b.toNat) ∨
      (stream3MinValue a b = b ∧ b.toNat ≤ a.toNat) := by
  unfold stream3MinValue
  split_ifs with hLt
  · rw [UInt64.lt_iff_toNat_lt] at hLt
    exact Or.inl ⟨rfl, hLt.le⟩
  · rw [UInt64.lt_iff_toNat_lt, not_lt] at hLt
    exact Or.inr ⟨rfl, hLt⟩

/- Output keys increase, every output is a least padded row of
its hash, and every padded row's hash has an output. -/
theorem reducedPadded_spec
    (cub : Stream3Cub)
    (rows : List (Hash128 × UInt64))
    (padding : Nat) :
    ((reducedPadded cub rows padding).Pairwise
        fun p q => p.1 < q.1) ∧
      (∀ p ∈ reducedPadded cub rows padding,
        p ∈ padded rows padding ∧
          ∀ value, (p.1, value) ∈ padded rows padding →
            p.2.toNat ≤ value.toNat) ∧
      ∀ p ∈ padded rows padding, ∃ value,
        (p.1, value) ∈ reducedPadded cub rows padding := by
  have hPerm := cub.hashSortPairs.perm (padded rows padding)
  have hRuns :=
    (cub.hashReduceByKey.reduces _).of_sorted
      (cub.hashSortPairs.sorted (padded rows padding))
  rcases hRuns with ⟨hStrict, hFolds, hCovers⟩
  refine ⟨hStrict, ?_, ?_⟩
  · intro p hMem
    rcases (hFolds p hMem).least stream3MinValue_selects with
      ⟨hValue, hLeast⟩
    refine ⟨hPerm.mem_iff.mp (mem_valuesOf_iff.mp hValue), ?_⟩
    intro value hIn
    exact
      hLeast value (mem_valuesOf_iff.mpr (hPerm.mem_iff.mpr hIn))
  · intro p hMem
    exact hCovers p (hPerm.mem_iff.mpr hMem)

theorem mem_padded
    {padding : Nat}
    {p : Hash128 × UInt64}
    (hMem : p ∈ padded rows padding) :
    p ∈ rows ∨ p.2 = uint64Max := by
  rcases List.mem_append.mp hMem with hRow | hPad
  · exact Or.inl hRow
  · rw [List.eq_of_mem_replicate hPad]
    exact Or.inr rfl

/- So does the pass, whose padding is not valid. -/
theorem mem_validOutputs_iff
    (cub : Stream3Cub)
    (padding : Nat)
    (hValid : ∀ p ∈ rows, p.2.toNat < uint64Max.toNat)
    (p : Hash128 × UInt64) :
    p ∈ validOutputs cub rows padding ↔ IsLeast rows p := by
  rcases reducedPadded_spec cub rows padding with
    ⟨-, hLeast, hCovers⟩
  constructor
  · intro hMem
    rcases List.mem_filter.mp hMem with ⟨hOut, hIsValid⟩
    rcases hLeast p hOut with ⟨hPadded, hLe⟩
    rcases mem_padded hPadded with hRow | hPad
    · refine ⟨hRow, trivial, ?_⟩
      intro q hQ hKey
      apply hLe q.2
      rw [← hKey]
      exact List.mem_append_left _ hQ
    · exact absurd hPad (of_decide_eq_true hIsValid)
  · intro hWinner
    rcases hWinner with ⟨hRow, -, hLeastRow⟩
    have hPadded : p ∈ padded rows padding :=
      List.mem_append_left _ hRow
    have hBelow := hValid p hRow
    rcases hCovers p hPadded with ⟨value, hOut⟩
    rcases hLeast _ hOut with ⟨hIn, hLe⟩
    have hUpper : value.toNat ≤ p.2.toNat := hLe p.2 hPadded
    rcases mem_padded hIn with hOld | hPad
    · have hLower : p.2.toNat ≤ value.toNat :=
        hLeastRow _ hOld rfl
      have hEq : (p.1, value) = p :=
        Prod.ext rfl
          (UInt64.toNat_inj.mp (Nat.le_antisymm hUpper hLower))
      rw [hEq] at hOut
      refine List.mem_filter.mpr ⟨hOut, decide_eq_true ?_⟩
      intro hMax
      rw [hMax] at hBelow
      exact absurd hBelow (lt_irrefl _)
    · have hMax : value = uint64Max := hPad
      rw [hMax] at hUpper
      exact absurd hBelow (not_lt.mpr hUpper)

/- So both keep the same rows in the same order. -/
theorem validOutputs_eq
    (cub : Stream3Cub)
    (ring : Stream3Ring)
    (padding : Nat)
    (hValid : ∀ p ∈ rows, p.2.toNat < uint64Max.toNat) :
    validOutputs cub rows padding = uniqueRows ring rows := by
  have hIrrefl :
      Std.Irrefl fun p q : Hash128 × UInt64 => p.1 < q.1 :=
    ⟨fun p => lt_irrefl p.1⟩
  have hAntisymm :
      Std.Antisymm fun p q : Hash128 × UInt64 => p.1 < q.1 :=
    ⟨fun _ _ hLt hGt => absurd hLt hGt.not_gt⟩
  have hStrict :
      (validOutputs cub rows padding).Pairwise
        fun p q => p.1 < q.1 :=
    (reducedPadded_spec cub rows padding).1.filter _
  refine
    hStrict.eq_of_mem_iff (uniqueRows_pairwise ring rows) ?_
  intro p
  rw [mem_validOutputs_iff cub padding hValid,
    mem_uniqueRows_iff]

----------------
-- Restored Candidates
----------------

/- Positions survive the packed value, and slots are whole
multiples of the moves. -/
theorem packed_candidateInput
    (ring : Stream3Ring)
    {i : Nat}
    (hLt : i < 2 ^ 32) :
    (ring.candidateInput i).packed =
      packedOf ring (ring.row i) := by
  have hPayload :
      (payloadIdOf (ring.row i).2).toNat = i := by
    have hWord : (UInt32.ofNat i).toNat = i :=
      UInt32.toNat_ofNat_of_lt hLt
    exact
      (congrArg UInt32.toNat
        (payloadIdOf_packStream3Val _ _)).trans hWord
  unfold packedOf
  rw [hPayload]
  dsimp only
  unfold Stream3Ring.localIndex Stream3Ring.candidatesPerSlot
  rw [Nat.mod_mul_left_mod]
  rfl

/- The rows that are compacted are those of the oracle. -/
theorem compacted_eq
    (ring : Stream3Ring)
    (threshold : UInt32)
    (hWord : ring.batchCandidates < 2 ^ 31) :
    ((liveCandidates ring).filter fun item =>
          item.scoreKey ≤ threshold).map
        Stream3CandidateInput.packed =
      (selectedRows ring threshold).map (packedOf ring) := by
  unfold liveCandidates selectedRows keptPositions
  rw [List.filter_map, List.filter_filter, List.map_map,
    List.map_map]
  have hSame :
      ((List.range ring.batchCandidates).filter fun i =>
          decide (ring.IsLive i) &&
            decide (ring.scoreRing i ≤ threshold)) =
        (List.range ring.batchCandidates).filter fun i =>
          ring.IsLive i ∧ ring.scoreRing i ≤ threshold := by
    apply List.filter_congr
    intro i _
    rw [Bool.decide_and]
  have hFilter :
      ((List.range ring.batchCandidates).filter fun i =>
          ((fun item : Stream3CandidateInput =>
              decide (item.scoreKey ≤ threshold)) ∘
                ring.candidateInput) i &&
            decide (ring.IsLive i)) =
        (List.range ring.batchCandidates).filter fun i =>
          ring.IsLive i ∧ ring.scoreRing i ≤ threshold := by
    rw [← hSame]
    apply List.filter_congr
    intro i _
    exact Bool.and_comm _ _
  rw [hFilter]
  apply List.map_congr_left
  intro i hMem
  have hRange := List.mem_range.mp (List.mem_filter.mp hMem).1
  exact packed_candidateInput ring (by omega)

/- The candidate of a unique row. -/
def candidateOf
    (ring : Stream3Ring)
    (localRank : UInt16)
    (worldSize : Nat)
    (row : Hash128 × UInt64) : CandidateMeta :=
  restoreCandidate ring localRank
    (UInt8.ofNat (ownerFromHash128 row.1 worldSize)) row.1 row.2

/- What the oracle keeps of a ring. -/
def uniqueCandidates
    (ring : Stream3Ring)
    (threshold : UInt32)
    (localRank : UInt16)
    (worldSize : Nat) : List CandidateMeta :=
  (uniqueRows ring (selectedRows ring threshold)).map
    (candidateOf ring localRank worldSize)

/- The oracle splits its unique rows by owner. -/
theorem oracle_eq_split
    (ring : Stream3Ring)
    (threshold : UInt32)
    (localRank : UInt16)
    (worldSize : Nat)
    (hWord : ring.batchCandidates < 2 ^ 31) :
    stream3ThresholdDedupSplit (liveCandidates ring) threshold
        localRank worldSize =
      splitByOwner localRank worldSize
        (uniqueCandidates ring threshold localRank worldSize) := by
  have hSort :
      sortPacked
          ((selectedRows ring threshold).map (packedOf ring)) =
        (sortRows ring (selectedRows ring threshold)).map
          (packedOf ring) :=
    (List.map_insertionSort
      (fun p q =>
        packedLess (packedOf ring q) (packedOf ring p) = false)
      (fun a b => packedLess b a = false) (packedOf ring) _
      fun _ _ _ _ => Iff.rfl).symm
  unfold stream3ThresholdDedupSplit
  dsimp only
  rw [compacted_eq ring threshold hWord, hSort, foldl_pushUnique,
    firstOfRuns_map, List.map_map]
  rfl

/- The owner of a row follows from its hash. -/
theorem ownerOf_candidateOf
    (ring : Stream3Ring)
    (localRank : UInt16)
    (row : Hash128 × UInt64)
    (hWorld : 0 < worldSize)
    (hByte : worldSize ≤ 256) :
    ownerOf (candidateOf ring localRank worldSize row) =
      ownerFromHash128 row.1 worldSize := by
  have hLt : ownerFromHash128 row.1 worldSize < worldSize :=
    Nat.mod_lt _ hWorld
  unfold ownerOf candidateOf restoreCandidate
  dsimp only
  rw [unpackOwner_packRoute]
  exact UInt8.toNat_ofNat_of_lt (hLt.trans_le hByte)

theorem ownerOf_lt
    {ring : Stream3Ring}
    {threshold : UInt32}
    (hWorld : 0 < worldSize)
    (hByte : worldSize ≤ 256) :
    ∀ c ∈ uniqueCandidates ring threshold localRank worldSize,
      ownerOf c < worldSize := by
  intro c hMem
  rcases List.mem_map.mp hMem with ⟨row, -, rfl⟩
  rw [ownerOf_candidateOf ring localRank row hWorld hByte]
  exact Nat.mod_lt _ hWorld

/- Scores below the largest keep packed values off the
padding's. -/
theorem selectedRows_valid
    (ring : Stream3Ring)
    (threshold : UInt32)
    (hScores :
      ∀ i < ring.batchCandidates, ring.scoreRing i < uint32Max) :
    ∀ p ∈ selectedRows ring threshold,
      p.2.toNat < uint64Max.toNat := by
  intro p hMem
  rcases List.mem_map.mp hMem with ⟨i, hKept, rfl⟩
  have hRange := List.mem_range.mp (List.mem_filter.mp hKept).1
  have hScore := hScores i hRange
  rw [UInt32.lt_iff_toNat_lt, toNat_uint32Max] at hScore
  have hPayload := (UInt32.ofNat i).toNat_lt
  rw [toNat_uint64Max]
  change
    (packStream3Val (ring.scoreRing i) (UInt32.ofNat i)).toNat <
      _
  rw [toNat_packStream3Val]
  omega

/- The unique rows a pass hands to the split. -/
theorem packThreshold_unique
    (cub : Stream3Cub)
    (ring : Stream3Ring)
    (threshold : Stream3Threshold)
    (scratch : Stream3Scratch)
    (hBatch : 0 < ring.batchCandidates)
    (hScores :
      ∀ i < ring.batchCandidates, ring.scoreRing i < uint32Max) :
    let packed := stream3PackThreshold cub ring threshold scratch
    Holds packed.uniqueKey packed.uniqueVal packed.uniqueCount
        (uniqueRows ring (selectedRows ring threshold.current)) ∧
      packed.uniqueCount ≤ ring.batchCandidates := by
  intro packed
  have hHolds :=
    packThreshold_holds cub ring threshold scratch hBatch
  have hFits := length_selectedRows_le ring threshold.current
  have hLength :=
    (List.length_filter_le isValid
      (reducedPadded cub (selectedRows ring threshold.current)
        (ring.batchCandidates -
          (selectedRows ring threshold.current).length))).trans
      (length_reducedPadded_le cub hFits)
  have hValid :=
    selectedRows_valid ring threshold.current hScores
  refine ⟨?_, ?_⟩
  · rw [← validOutputs_eq cub ring _ hValid]
    exact hHolds
  · rw [hHolds.count]
    exact hLength

----------------
-- Marks Of Owners
----------------

theorem remoteCount_eq
    (localRank : UInt16)
    (unique : List CandidateMeta)
    (peer : Nat) :
    remoteCount localRank unique peer =
      if peer = localRank.toNat then 0
      else unique.countP fun c => ownerOf c = peer := by
  unfold remoteCount remoteRows
  rw [List.countP_filter]
  split_ifs with hLocal
  · rw [List.countP_eq_zero]
    intro c _ hBoth
    rw [Bool.and_eq_true, decide_eq_true_iff,
      decide_eq_true_iff] at hBoth
    exact hBoth.2 (hBoth.1.trans hLocal)
  · apply List.countP_congr
    intro c _
    rw [Bool.and_eq_true, decide_eq_true_iff,
      decide_eq_true_iff]
    exact
      and_iff_left_of_imp fun hPeer hSame =>
        hLocal (hPeer.symm.trans hSame)

/- A peer's rows among the rows to be sent. -/
theorem filter_remoteRows
    (localRank : UInt16)
    (unique : List CandidateMeta)
    {peer : Nat}
    (hPeer : peer ≠ localRank.toNat) :
    ((remoteRows localRank unique).filter fun c =>
        ownerOf c = peer) =
      unique.filter fun c => ownerOf c = peer := by
  unfold remoteRows
  rw [List.filter_filter]
  apply List.filter_congr
  intro c _
  rw [Bool.eq_iff_iff, Bool.and_eq_true, decide_eq_true_iff,
    decide_eq_true_iff]
  exact
    and_iff_left_of_imp fun hSame hLocal =>
      hPeer (hSame.symm.trans hLocal)

theorem ownerMark_le
    (split : Stream3Split)
    (count peer i : Nat) :
    ownerMark split count peer i ≤ 1 := by
  unfold ownerMark
  split_ifs
  · exact le_rfl
  · exact Nat.zero_le _

/- The scratch the split reads: the unique candidates and their
owners. -/
structure Restored
    (split : Stream3Split)
    (count : Nat)
    (unique : List CandidateMeta) : Prop where
  rows : firstN split.localPendingBuffer count = unique
  owners :
    ∀ i < count,
      split.ownerScratch i = ownerOf (split.localPendingBuffer i)

theorem kept_ownerMark
    (peer : Nat)
    (hRestored : Restored split count unique) :
    kept (ownerMark split count peer) split.localPendingBuffer
        (256 * blocksFor count) =
      unique.filter fun c => ownerOf c = peer := by
  rw [← hRestored.rows]
  apply kept_eq_filter (le_blocksFor count)
  intro i _
  unfold ownerMark
  rw [decide_eq_true_iff]
  split_ifs with hBoth
  · refine iff_of_true Nat.one_ne_zero ⟨hBoth.1, ?_⟩
    rw [← hRestored.owners i hBoth.1]
    exact hBoth.2
  · refine iff_of_false (not_not.mpr rfl) ?_
    intro hSame
    apply hBoth
    rw [hRestored.owners i hSame.1]
    exact hSame

theorem below_ownerMark
    (peer : Nat)
    (hRestored : Restored split count unique) :
    below (ownerMark split count peer) (256 * blocksFor count) =
      unique.countP fun c => ownerOf c = peer := by
  have hLength :=
    length_kept split.localPendingBuffer (256 * blocksFor count)
      fun i _ => ownerMark_le split count peer i
  rw [kept_ownerMark peer hRestored,
    ← List.countP_eq_length_filter] at hLength
  exact hLength.symm

/- A thread that has not loaded does not match. -/
theorem loadCandidate_of_mark
    {peer i : Nat}
    (buffer : Nat → CandidateMeta)
    (hMark : ownerMark split count peer i ≠ 0) :
    loadCandidate count buffer i = buffer i := by
  unfold ownerMark at hMark
  split_ifs at hMark with hBoth
  · exact if_pos hBoth.1
  · exact absurd rfl hMark

----------------
-- Counting And Scattering
----------------

/- After the counts and the scan. -/
structure Counted
    (split : Stream3Split)
    (localRank : UInt16)
    (worldSize : Nat)
    (unique : List CandidateMeta) : Prop where
  localCount :
    split.localPendingCount =
      unique.countP fun c => ownerOf c = localRank.toNat
  counts :
    ∀ peer < worldSize,
      split.sendCount peer = remoteCount localRank unique peer
  offsets :
    ∀ peer ≤ worldSize,
      split.sendOffset peer =
        below (remoteCount localRank unique) peer

/- The counts and offsets of the rows sent. -/
theorem countOwner_counted
    (hRestored : Restored split count unique)
    (hRank : localRank.toNat < worldSize) :
    Counted
      (stream3ScanSendCounts worldSize
        (stream3CountOwner localRank worldSize count split))
      localRank worldSize unique := by
  have hTotal :
      ∀ peer,
        treeReduce 8
            (stridedSum (ownerMark split count peer)
              (blocksFor count))
            0 =
          unique.countP fun c => ownerOf c = peer := by
    intro peer
    rw [treeReduce_zero]
    exact
      (below_stridedSum _ _).trans (below_ownerMark peer hRestored)
  have hCounts :
      ∀ peer < worldSize,
        (stream3CountOwner localRank worldSize count
            split).sendCount peer =
          remoteCount localRank unique peer := by
    intro peer hLt
    rw [remoteCount_eq, ← hTotal peer]
    exact if_pos hLt
  refine ⟨?_, hCounts, ?_⟩
  · exact (if_pos hRank).trans (hTotal localRank.toNat)
  · intro peer hLe
    have hScan :=
      (prefixOffsets_spec
        (stream3CountOwner localRank worldSize count
          split).sendCount
        (stream3CountOwner localRank worldSize count
          split).sendOffset
        worldSize).2 peer hLe
    refine hScan.trans (below_congr fun k hLt => ?_)
    exact hCounts k (by omega)

/- The remote blocks change nothing but the send buffer. -/
theorem foldl_scatterPeer_frame
    (localRank : UInt16)
    (count n : Nat)
    (split : Stream3Split) :
    (List.range n).foldl (scatterPeer localRank count) split =
      { split with
        remoteSendBuffer :=
          ((List.range n).foldl (scatterPeer localRank count)
            split).remoteSendBuffer } := by
  induction n with
  | zero => rfl
  | succ n ih =>
      rw [List.range_succ, List.foldl_append, List.foldl_cons,
        List.foldl_nil, ih]
      unfold scatterPeer
      split_ifs
      · rfl
      · rfl

/- After the blocks of the first peers their parts stand in the
send buffer. -/
theorem foldl_scatterPeer_parts
    (hRestored : Restored split count unique)
    (hCounted : Counted split localRank worldSize unique)
    (n : Nat)
    (hWorld : n ≤ worldSize) :
    ∀ k < n,
      firstN
          (fun j =>
            ((List.range n).foldl (scatterPeer localRank count)
                split).remoteSendBuffer
              (below (remoteCount localRank unique) k + j))
          (remoteCount localRank unique k) =
        (remoteRows localRank unique).filter fun c =>
          ownerOf c = k := by
  induction n with
  | zero => exact fun k hLt => absurd hLt (Nat.not_lt_zero k)
  | succ n ih =>
      intro k hLt
      have hBefore := ih (by omega)
      let sent :=
        (List.range n).foldl (scatterPeer localRank count) split
      have hFrame := foldl_scatterPeer_frame localRank count n split
      have hNext :
          (List.range (n + 1)).foldl
              (scatterPeer localRank count) split =
            scatterPeer localRank count sent n := by
        rw [List.range_succ, List.foldl_append]
        rfl
      rw [hNext]
      by_cases hLocal : n = localRank.toNat
      · have hSame :
            scatterPeer localRank count sent n = sent :=
          if_pos hLocal
        rw [hSame]
        by_cases hLast : k = n
        · have hNone : remoteCount localRank unique k = 0 := by
            rw [remoteCount_eq, if_pos (hLast.trans hLocal)]
          have hNil :
              ((remoteRows localRank unique).filter fun c =>
                ownerOf c = k) = [] := by
            rw [← List.length_eq_zero_iff,
              ← List.countP_eq_length_filter]
            exact hNone
          rw [hNone, hNil]
          rfl
        · exact hBefore k (by omega)
      · have hWritten :
            (scatterPeer localRank count sent n).remoteSendBuffer =
              (compactTiles (ownerMark split count n)
                (fun _ =>
                  loadCandidate count split.localPendingBuffer)
                (split.sendOffset n) (blocksFor count)
                sent.remoteSendBuffer).array := by
          unfold scatterPeer
          rw [if_neg hLocal, show sent = _ from hFrame]
          rfl
        have hTiles :=
          compactTiles_spec
            (loadCandidate count split.localPendingBuffer)
            sent.remoteSendBuffer (split.sendOffset n)
            (blocksFor count) (ownerMark_le split count n)
        have hLoaded :
            kept (ownerMark split count n)
                (loadCandidate count split.localPendingBuffer)
                (256 * blocksFor count) =
              unique.filter fun c => ownerOf c = n := by
          rw [← kept_ownerMark n hRestored]
          exact
            kept_congr fun i _ hMark =>
              loadCandidate_of_mark _ hMark
        have hSize :
            remoteCount localRank unique n =
              unique.countP fun c => ownerOf c = n := by
          rw [remoteCount_eq, if_neg hLocal]
        rw [hWritten]
        rw [hLoaded, below_ownerMark n hRestored, ← hSize,
          hCounted.offsets n (by omega)] at hTiles
        rcases hTiles with ⟨hPart, hOther⟩
        by_cases hLast : k = n
        · rw [hLast, filter_remoteRows localRank unique hLocal,
            hCounted.offsets n (by omega)]
          exact hPart
        · rw [hCounted.offsets n (by omega), ← hBefore k (by omega)]
          apply firstN_congr
          intro j hJ
          have hApart :=
            below_add_le (remoteCount localRank unique)
              (show k < n by omega)
          exact hOther _ (Or.inl (by omega))

----------------
-- The Whole Pass
----------------

/- The buffers and counts a pass leaves are the oracle's. -/
structure SplitMatches
    (split : Stream3Split)
    (worldSize : Nat)
    (result : Stream3SplitResult) : Prop where
  localPending :
    firstN split.localPendingBuffer split.localPendingCount =
      result.localPending
  remoteSend :
    firstN split.remoteSendBuffer (split.sendOffset worldSize) =
      result.remoteSend
  sendCount : firstN split.sendCount worldSize = result.sendCount
  sendOffset :
    firstN split.sendOffset (worldSize + 1) = result.sendOffset

/- The candidates of the unique rows are restored. -/
theorem restore_restored
    {ring : Stream3Ring}
    (split : Stream3Split)
    (hWorld : 0 < worldSize)
    (hByte : worldSize ≤ 256)
    (hHolds :
      Holds scratch.uniqueKey scratch.uniqueVal
        scratch.uniqueCount rows)
    (hFits : scratch.uniqueCount ≤ ring.batchCandidates) :
    Restored
      (stream3RestoreOwnerSplit ring localRank worldSize
        ring.batchCandidates scratch split)
      scratch.uniqueCount
      (rows.map (candidateOf ring localRank worldSize)) := by
  have hCover := le_blocksFor ring.batchCandidates
  have hBuffer :
      ∀ i < scratch.uniqueCount,
        (stream3RestoreOwnerSplit ring localRank worldSize
            ring.batchCandidates scratch
            split).localPendingBuffer i =
          candidateOf ring localRank worldSize
            (scratch.uniqueKey i, scratch.uniqueVal i) :=
    fun i hLt => if_pos ⟨by omega, hLt⟩
  constructor
  · rw [firstN_congr hBuffer, ← hHolds.pairs, map_firstN,
      hHolds.count]
  · intro i hLt
    rw [hBuffer i hLt,
      ownerOf_candidateOf ring localRank _ hWorld hByte]
    exact if_pos ⟨by omega, hLt⟩

/- Splitting restored candidates matches the oracle's split. -/
theorem split_matches
    (hRestored : Restored split count unique)
    (hRank : localRank.toNat < worldSize)
    (hOwners : ∀ c ∈ unique, ownerOf c < worldSize) :
    let counted :=
      stream3ScanSendCounts worldSize
        (stream3CountOwner localRank worldSize count split)
    SplitMatches
      (stream3ScatterLocal localRank count
        (stream3ScatterRemote localRank worldSize count counted))
      worldSize (splitByOwner localRank worldSize unique) := by
  intro counted
  have hCounted := countOwner_counted hRestored hRank
  have hHere : Restored counted count unique :=
    ⟨hRestored.rows, hRestored.owners⟩
  have hParts :=
    foldl_scatterPeer_parts hHere hCounted worldSize le_rfl
  have hFrame :=
    foldl_scatterPeer_frame localRank count worldSize counted
  have hTiles :=
    compactTiles_inPlace counted.localPendingBuffer
      (blocksFor count)
      (ownerMark_le counted count localRank.toNat)
      fun held i hMark => loadCandidate_of_mark held hMark
  have hSegments :
      firstN
          (stream3ScatterRemote localRank worldSize count
            counted).remoteSendBuffer
          (below (remoteCount localRank unique) worldSize) =
        (List.range worldSize).flatMap fun peer =>
          (remoteRows localRank unique).filter fun c =>
            ownerOf c = peer := by
    have hLength :
        remoteCount localRank unique =
          fun k =>
            ((remoteRows localRank unique).filter fun c =>
              ownerOf c = k).length := by
      funext k
      exact List.countP_eq_length_filter
    rw [hLength]
    apply firstN_segments
    intro k hLt
    have hPart := hParts k hLt
    rw [hLength] at hPart
    exact hPart
  rw [splitByOwner_eq hOwners]
  unfold stream3ScatterLocal stream3ScatterRemote at *
  rw [hFrame]
  refine ⟨?_, ?_, ?_, ?_⟩
  · dsimp only
    rw [hCounted.localCount,
      ← below_ownerMark localRank.toNat hHere,
      ← kept_ownerMark localRank.toNat hHere]
    exact hTiles.1
  · dsimp only
    rw [hCounted.offsets worldSize le_rfl]
    exact hSegments
  · exact firstN_congr hCounted.counts
  · exact
      firstN_congr fun k hLt =>
        hCounted.offsets k (Nat.lt_succ_iff.mp hLt)

/- With one rank there is nothing to send. -/
theorem single_matches
    {ring : Stream3Ring}
    (split : Stream3Split)
    (hRank : localRank.toNat < 1)
    (hHolds :
      Holds scratch.uniqueKey scratch.uniqueVal
        scratch.uniqueCount rows)
    (hFits : scratch.uniqueCount ≤ ring.batchCandidates) :
    SplitMatches
      (stream3RestoreSingleOwner ring localRank
        ring.batchCandidates scratch split)
      1
      (splitByOwner localRank 1
        (rows.map (candidateOf ring localRank 1))) := by
  have hCover := le_blocksFor ring.batchCandidates
  have hZero : localRank = 0 :=
    UInt16.toNat_inj.mp (Nat.lt_one_iff.mp hRank)
  subst hZero
  have hOwner :
      ∀ c ∈ rows.map (candidateOf ring 0 1), ownerOf c = 0 := by
    intro c hMem
    rcases List.mem_map.mp hMem with ⟨row, -, rfl⟩
    rw [ownerOf_candidateOf ring 0 row Nat.one_pos (by omega)]
    exact Nat.mod_one _
  have hRemote :
      remoteRows 0 (rows.map (candidateOf ring 0 1)) = [] := by
    unfold remoteRows
    rw [List.filter_eq_nil_iff]
    intro c hMem hSent
    exact of_decide_eq_true hSent (hOwner c hMem)
  have hCount :
      remoteCount 0 (rows.map (candidateOf ring 0 1)) =
        fun _ => 0 := by
    funext peer
    unfold remoteCount
    rw [hRemote]
    rfl
  rw [splitByOwner_eq fun c hMem => by
    rw [hOwner c hMem]
    exact Nat.one_pos]
  rw [hRemote, hCount]
  have hOwn :
      ((rows.map (candidateOf ring 0 1)).filter fun c =>
          ownerOf c = UInt16.toNat 0) =
        rows.map (candidateOf ring 0 1) :=
    List.filter_eq_self.mpr fun c hMem =>
      decide_eq_true (hOwner c hMem)
  refine ⟨?_, rfl, rfl, rfl⟩
  rw [hOwn, ← hHolds.pairs, map_firstN, ← hHolds.count]
  apply firstN_congr
  intro i hIndex
  have hLt : i < scratch.uniqueCount := hIndex
  have hHash :
      ownerFromHash128 (scratch.uniqueKey i) 1 = 0 :=
    Nat.mod_one _
  unfold candidateOf
  rw [hHash]
  exact if_pos ⟨by omega, hLt⟩

theorem stream3Pass_eq_oracle
    (cub : Stream3Cub)
    (ring : Stream3Ring)
    (threshold : Stream3Threshold)
    (localRank : UInt16)
    (worldSize : Nat)
    (scratch : Stream3Scratch)
    (split : Stream3Split)
    (hBatch : 0 < ring.batchCandidates)
    (hWord : ring.batchCandidates < 2 ^ 31)
    (hScores :
      ∀ i < ring.batchCandidates, ring.scoreRing i < uint32Max)
    (hByte : worldSize ≤ 256)
    (hRank : localRank.toNat < worldSize) :
    SplitMatches
      (stream3Pass cub ring threshold localRank worldSize scratch
        split)
      worldSize
      (stream3ThresholdDedupSplit (liveCandidates ring)
        threshold.current localRank worldSize) := by
  have hWorld : 0 < worldSize :=
    (Nat.zero_le _).trans_lt hRank
  rcases packThreshold_unique cub ring threshold scratch hBatch
      hScores with
    ⟨hHolds, hFits⟩
  rw [oracle_eq_split ring threshold.current localRank worldSize
    hWord]
  unfold stream3Pass stream3RestoreOwnerSplitCuda
  split_ifs with hSingle
  · subst hSingle
    exact single_matches split hRank hHolds hFits
  · exact
      split_matches
        (restore_restored split hWorld hByte hHolds hFits) hRank
        (ownerOf_lt hWorld hByte)

/-
  Two slots of two parents and two moves. The second slot has
  one parent only, one row is above the threshold, one hash
  comes twice and one row has the padding's hash.
-/
def smallRing : Stream3Ring :=
  { scoreRing := fun i => [5, 3, 9, 4, 3, 2, 1, 1].getD i 0
    hashRing := fun i =>
      [⟨1, 0⟩, ⟨2, 0⟩, ⟨3, 0⟩, sentinelHash, ⟨1, 0⟩, ⟨7, 7⟩,
        ⟨8, 8⟩, ⟨9, 9⟩].getD i ⟨0, 0⟩
    count := some fun slot => if slot = 0 then 2 else 1
    parentBase := some fun slot => UInt64.ofNat (10 * slot)
    bMicro := 2
    moveCount := 2
    batchCandidates := 8 }

theorem stream3Pass_eq_oracle_smallRing :
    SplitMatches
        (stream3Pass hostStream3Cub smallRing ⟨none, none, 8⟩ 1 2
          zeroStream3Scratch emptySplit)
        2
        (stream3ThresholdDedupSplit (liveCandidates smallRing) 8 1
          2) ∧
      (selectedRows smallRing 8).length = 5 := by
  refine ⟨?_, by decide⟩
  exact
    stream3Pass_eq_oracle hostStream3Cub smallRing
      ⟨none, none, 8⟩ 1 2 zeroStream3Scratch emptySplit
      (by decide) (by decide) (by decide) (by decide) (by decide)

end Stream3

end BeamSearch

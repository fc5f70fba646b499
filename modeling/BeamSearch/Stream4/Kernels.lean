import BeamSearch.Core.Types
import BeamSearch.Lib.Compaction
import BeamSearch.Lib.SegmentedReduce
import BeamSearch.Threshold.Rules

/-
  The Stream 4 kernels and the two shard jobs.

  A pass marks the rows within the threshold, compacts them,
  pads with invalid rows, sorts by hash, reduces every hash to
  its best candidate, drops the padding and publishes a score
  histogram. The sorts and reductions are device primitives
  given by what they promise.

  Main declarations:
    * `Stream4Scratch`
    * `Stream4Cub`
    * `stream4ShardJob`
    * `stream4ShardJobDeviceThreshold`
-/

namespace BeamSearch

open Compaction SegmentedReduce

namespace Stream4

----------------
-- Operators And Scratch
----------------

/- The better of two rows of a hash; fields in turn. -/
def stream4BestCandidate (a b : CandidateMeta) : CandidateMeta :=
  if a.scoreKey ≠ b.scoreKey then
    if a.scoreKey < b.scoreKey then a else b
  else if a.parentIdx ≠ b.parentIdx then
    if a.parentIdx < b.parentIdx then a else b
  else
    if a.routePacked ≤ b.routePacked then a else b

/- The key of the padding. -/
def sentinelHash : Hash128 :=
  { lo := uint64Max, hi := uint64Max }

/- The row of the padding. -/
def stream4InvalidCandidate : CandidateMeta :=
  { hash := sentinelHash
    parentIdx := uint64Max
    scoreKey := uint32Max
    routePacked := uint32Max }

/- The scratch arrays of a sort slot. -/
structure Stream4Scratch where
  sortKey : Nat → Hash128
  reduceKey : Nat → Hash128
  sortValue : Nat → CandidateMeta
  reduceValue : Nat → CandidateMeta
  scoreKeyA : Nat → Nat
  scoreKeyB : Nat → Nat
  scoreCountA : Nat → Nat
  scoreCountB : Nat → Nat
  keepFlags : Nat → Nat
  blockCounts : Nat → Nat
  blockOffsets : Nat → Nat
  scratchCount : Nat

/-
  The device-wide sorts and reductions a pass launches. They take
  their number of items as an `int`: the temporary bytes of a
  capacity beyond it are never planned, so that no pass has one.
-/
structure Stream4Cub where
  hashSortPairs : SortPairs Hash128 CandidateMeta
  hashReduceByKey :
    ReduceByKey Hash128 CandidateMeta stream4BestCandidate
  scoreSortPairs : SortPairs Nat Nat
  scoreReduceByKey : ReduceByKey Nat Nat (· + ·)

/- Reference primitives that keep the promises. -/
def hostCub : Stream4Cub :=
  { hashSortPairs := insertionSortPairs
    hashReduceByKey := foldRunsByKey stream4BestCandidate
    scoreSortPairs := insertionSortPairs
    scoreReduceByKey := foldRunsByKey (· + ·) }

/- Scratch memory before its first use. -/
def zeroScratch : Stream4Scratch :=
  { sortKey := fun _ => sentinelHash
    reduceKey := fun _ => sentinelHash
    sortValue := fun _ => stream4InvalidCandidate
    reduceValue := fun _ => stream4InvalidCandidate
    scoreKeyA := fun _ => 0
    scoreKeyB := fun _ => 0
    scoreCountA := fun _ => 0
    scoreCountB := fun _ => 0
    keepFlags := fun _ => 0
    blockCounts := fun _ => 0
    blockOffsets := fun _ => 0
    scratchCount := 0 }

/- The number of 256-thread blocks that cover `items` entries. -/
def blocksFor (items : Nat) : Nat :=
  items / 256 + if items % 256 ≠ 0 then 1 else 0

----------------
-- Marking, Scanning And Compacting
----------------

/- The flag of a row: its score is within the threshold. -/
def thresholdMark
    (input : Nat → CandidateMeta)
    (inputCount : Nat)
    (threshold : UInt32)
    (capacity : Nat)
    (i : Nat) : Nat :=
  if i < capacity then
    if i < inputCount ∧ (input i).scoreKey ≤ threshold then 1
    else 0
  else
    0

/- The kernels write the flags of their entries and one count per block. -/
def storeMarks
    (mark : Nat → Nat)
    (capacity blocks : Nat)
    (scratch : Stream4Scratch) : Stream4Scratch :=
  { scratch with
    keepFlags := fun i =>
      if i < capacity then mark i else scratch.keepFlags i
    blockCounts := fun block =>
      if block < blocks then blockCount mark block
      else scratch.blockCounts block }

/- Flag the rows of both parts and count them by block. -/
def stream4MarkThresholdCounts
    (input : Nat → CandidateMeta)
    (cleanCount dirtyCount : Nat)
    (threshold : UInt32)
    (capacity : Nat) : Stream4Scratch → Stream4Scratch :=
  storeMarks
    (thresholdMark input (cleanCount + dirtyCount) threshold
      capacity)
    capacity (blocksFor capacity)

/- The offsets of the blocks, and the total. -/
def stream4ScanBlockCounts
    (blocks : Nat)
    (scratch : Stream4Scratch) : Stream4Scratch :=
  let scan :=
    scanBlockCounts scratch.blockCounts scratch.blockOffsets
      blocks
  { scratch with
    blockOffsets := scan.offsets
    scratchCount := scan.running }

/- The flag a compacting thread reads; threads past the end keep nothing. -/
def loadMark
    (scratch : Stream4Scratch)
    (capacity : Nat)
    (i : Nat) : Nat :=
  if i < capacity then scratch.keepFlags i else 0

/- Move the flagged rows to the front. -/
def stream4CompactThreshold
    (input : Nat → CandidateMeta)
    (capacity : Nat)
    (scratch : Stream4Scratch) : Stream4Scratch :=
  let keep := loadMark scratch capacity
  let out := compactDest keep scratch.blockOffsets
  let threads := 256 * blocksFor capacity
  { scratch with
    sortKey :=
      scatter keep out (fun i => (input i).hash)
        scratch.sortKey threads
    sortValue :=
      scatter keep out input scratch.sortValue threads }

/- Pad the batch with sentinels. -/
def stream4FillSortTail
    (capacity : Nat)
    (scratch : Stream4Scratch) : Stream4Scratch :=
  { scratch with
    sortKey := fun i =>
      if scratch.scratchCount ≤ i ∧ i < capacity then
        sentinelHash
      else
        scratch.sortKey i
    sortValue := fun i =>
      if scratch.scratchCount ≤ i ∧ i < capacity then
        stream4InvalidCandidate
      else
        scratch.sortValue i }

----------------
-- Sorting And Reducing By Hash
----------------

/- Sort the batch by hash. -/
def stream4HashSort
    (cub : Stream4Cub)
    (items : Nat)
    (scratch : Stream4Scratch) : Stream4Scratch :=
  let sorted :=
    cub.hashSortPairs.run
      (firstN
        (fun i => (scratch.sortKey i, scratch.sortValue i))
        items)
  { scratch with
    sortKey := writeFirst (sorted.map Prod.fst) scratch.sortKey
    sortValue :=
      writeFirst (sorted.map Prod.snd) scratch.sortValue }

/- One row a hash: the best. -/
def stream4HashReduce
    (cub : Stream4Cub)
    (items : Nat)
    (scratch : Stream4Scratch) : Stream4Scratch :=
  let reduced :=
    cub.hashReduceByKey.run
      (firstN
        (fun i => (scratch.sortKey i, scratch.sortValue i))
        items)
  { scratch with
    reduceKey :=
      writeFirst (reduced.map Prod.fst) scratch.reduceKey
    reduceValue :=
      writeFirst (reduced.map Prod.snd) scratch.reduceValue
    scratchCount := reduced.length }

/- The flag of a run: its row is not the padding's. -/
def validMark
    (reducedValue : Nat → CandidateMeta)
    (reducedCount : Nat)
    (i : Nat) : Nat :=
  if i < reducedCount then
    if (reducedValue i).scoreKey ≠ uint32Max then 1 else 0
  else
    0

/- Flag the runs and count them by block. -/
def stream4MarkValidUniqueCounts
    (capacity : Nat)
    (scratch : Stream4Scratch) : Stream4Scratch :=
  storeMarks
    (validMark scratch.reduceValue scratch.scratchCount)
    capacity (blocksFor capacity) scratch

/- The survivors written over the output array; their number is the scan's total. -/
def stream4CompactValidUnique
    (capacity : Nat)
    (scratch : Stream4Scratch)
    (output : Nat → CandidateMeta) : Nat → CandidateMeta :=
  let keep := loadMark scratch capacity
  scatter keep (compactDest keep scratch.blockOffsets)
    scratch.reduceValue output (256 * blocksFor capacity)

/-
  Everything between the first compaction and the survivors:
  padding up to `tailItems`, the sort and reduction of
  `sortItems`, and the second compaction over `validItems`.
-/
def stream4SortReduce
    (cub : Stream4Cub)
    (tailItems sortItems validItems : Nat)
    (scratch : Stream4Scratch) : Stream4Scratch :=
  let scratch := stream4FillSortTail tailItems scratch
  let scratch := stream4HashSort cub sortItems scratch
  let scratch := stream4HashReduce cub sortItems scratch
  let scratch := stream4MarkValidUniqueCounts validItems scratch
  stream4ScanBlockCounts (blocksFor validItems) scratch

----------------
-- The Shard Histogram
----------------

/- The bins that are not read are cleared. -/
def stream4ClearInactiveHistogram
    (hist : BankHistogram) : BankHistogram :=
  { hist with
    slot :=
      Function.update hist.slot (!hist.activeIndex) fun i =>
        if i < scoreBinCount then 0
        else hist.slot (!hist.activeIndex) i }

/- A pair for each clean row that has a bin. -/
def stream4FillScoreHistogramPairs
    (survivor : Nat → CandidateMeta)
    (cleanCount capacity : Nat)
    (scratch : Stream4Scratch) : Stream4Scratch :=
  { scratch with
    scoreKeyA := fun i =>
      if i < capacity then
        if i < cleanCount ∧
            (survivor i).scoreKey.toNat < scoreBinCount then
          (survivor i).scoreKey.toNat
        else
          scoreBinCount
      else
        scratch.scoreKeyA i
    scoreCountA := fun i =>
      if i < capacity then
        if i < cleanCount ∧
            (survivor i).scoreKey.toNat < scoreBinCount then
          1
        else
          0
      else
        scratch.scoreCountA i }

/- Sort the pairs by score. -/
def stream4ScoreSort
    (cub : Stream4Cub)
    (capacity : Nat)
    (scratch : Stream4Scratch) : Stream4Scratch :=
  let sorted :=
    cub.scoreSortPairs.run
      (firstN
        (fun i => (scratch.scoreKeyA i, scratch.scoreCountA i))
        capacity)
  { scratch with
    scoreKeyB :=
      writeFirst (sorted.map Prod.fst) scratch.scoreKeyB
    scoreCountB :=
      writeFirst (sorted.map Prod.snd) scratch.scoreCountB }

/- One pair a score, with its count. -/
def stream4ScoreReduce
    (cub : Stream4Cub)
    (capacity : Nat)
    (scratch : Stream4Scratch) : Stream4Scratch :=
  let reduced :=
    cub.scoreReduceByKey.run
      (firstN
        (fun i => (scratch.scoreKeyB i, scratch.scoreCountB i))
        capacity)
  { scratch with
    scoreKeyA :=
      writeFirst (reduced.map Prod.fst) scratch.scoreKeyA
    scoreCountA :=
      writeFirst (reduced.map Prod.snd) scratch.scoreCountA
    scratchCount := reduced.length }

/- Counts are narrowed to the 32 bits of a histogram bin. -/
def stream4ScatterScoreHistogram
    (capacity : Nat)
    (scratch : Stream4Scratch)
    (hist : BankHistogram) : BankHistogram :=
  let mark := fun i =>
    if i < capacity ∧ i < scratch.scratchCount ∧
        scratch.scoreKeyA i < scoreBinCount then
      1
    else
      0
  { hist with
    slot :=
      Function.update hist.slot (!hist.activeIndex)
        (scatter mark scratch.scoreKeyA
          (fun i => scratch.scoreCountA i % 2 ^ 32)
          (hist.slot (!hist.activeIndex))
          (256 * blocksFor capacity)) }

/- The bins that were written are read from now on. -/
def stream4FinalizeScoreHistogram
    (hist : BankHistogram) : BankHistogram :=
  { hist with activeIndex := !hist.activeIndex }

/- The histogram of a bank: written aside, then published. -/
def stream4WriteShardHistogram
    (cub : Stream4Cub)
    (survivor : Nat → CandidateMeta)
    (cleanCount capacity : Nat)
    (scratch : Stream4Scratch)
    (hist : BankHistogram) : Stream4Scratch × BankHistogram :=
  let hist := stream4ClearInactiveHistogram hist
  let scratch :=
    stream4FillScoreHistogramPairs survivor cleanCount capacity
      scratch
  let scratch := stream4ScoreSort cub capacity scratch
  let scratch := stream4ScoreReduce cub capacity scratch
  let hist := stream4ScatterScoreHistogram capacity scratch hist
  (scratch, stream4FinalizeScoreHistogram hist)

----------------
-- The Shard Jobs
----------------

/- A bank with its rows, counts and histogram. -/
structure ShardBank where
  survivorShard : Nat → CandidateMeta
  cleanCount : Nat
  dirtyCount : Nat
  processingFlag : Bool
  scoreHist : BankHistogram

/- The clean and dirty rows of a bank, in memory order. -/
def ShardBank.rows (bank : ShardBank) : List CandidateMeta :=
  firstN bank.survivorShard (bank.cleanCount + bank.dirtyCount)

/- The faults of a pass. -/
inductive Stream4Error where
  | zeroCapacity
  | unionScratch
  | unionSortBound
  | trap
deriving DecidableEq, Repr

/- Threshold and first compaction, common to both jobs. -/
def stream4Select
    (threshold : UInt32)
    (capacity : Nat)
    (scratch : Stream4Scratch)
    (bank : ShardBank) : Stream4Scratch :=
  let scratch :=
    stream4MarkThresholdCounts bank.survivorShard
      bank.cleanCount bank.dirtyCount threshold capacity scratch
  let scratch :=
    stream4ScanBlockCounts (blocksFor capacity) scratch
  stream4CompactThreshold bank.survivorShard capacity scratch

/- The rest of a job over the first `sortItems` entries. -/
def stream4Finish
    (cub : Stream4Cub)
    (sortItems : Nat)
    (scratch : Stream4Scratch)
    (bank : ShardBank) : Stream4Scratch × ShardBank :=
  let scratch :=
    stream4SortReduce cub sortItems sortItems sortItems scratch
  let survivor :=
    stream4CompactValidUnique sortItems scratch
      bank.survivorShard
  let cleanCount := scratch.scratchCount
  let published :=
    stream4WriteShardHistogram cub survivor cleanCount sortItems
      scratch bank.scoreHist
  (published.1,
    { survivorShard := survivor
      cleanCount := cleanCount
      dirtyCount := 0
      processingFlag := false
      scoreHist := published.2 })

/- A pass over one bank, with a threshold of the host. -/
def stream4ShardJob
    (cub : Stream4Cub)
    (threshold : UInt32)
    (capacity : Nat)
    (scratch : Stream4Scratch)
    (bank : ShardBank) :
    Except Stream4Error (Stream4Scratch × ShardBank) :=
  if capacity = 0 then
    .error .zeroCapacity
  else
    let scratch := stream4Select threshold capacity scratch bank
    .ok (stream4Finish cub capacity scratch bank)

/- The sort body chosen on the device from the compacted count. -/
def stream4ChooseSortBody
    (count capacity : Nat) : Except Stream4Error Nat :=
  let quarter :=
    capacity / 4 + if capacity % 4 ≠ 0 then 1 else 0
  let half :=
    capacity / 2 + if capacity % 2 ≠ 0 then 1 else 0
  if count > capacity then
    .error .trap
  else if count ≤ quarter then
    .ok quarter
  else if count ≤ half then
    .ok half
  else
    .ok capacity

/- The same with the threshold that the device has. -/
def stream4ShardJobDeviceThreshold
    (cub : Stream4Cub)
    (boundedSort : Bool)
    (slots : ThresholdSlots)
    (capacity : Nat)
    (scratch : Stream4Scratch)
    (bank : ShardBank) :
    Except Stream4Error (Stream4Scratch × ShardBank) :=
  if capacity = 0 then
    .error .zeroCapacity
  else
    let scratch :=
      stream4Select slots.active capacity scratch bank
    if boundedSort then
      match stream4ChooseSortBody scratch.scratchCount capacity with
      | .error fault => .error fault
      | .ok sortItems =>
          .ok (stream4Finish cub sortItems scratch bank)
    else
      .ok (stream4Finish cub capacity scratch bank)

end Stream4

end BeamSearch

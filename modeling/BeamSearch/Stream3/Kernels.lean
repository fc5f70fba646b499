import BeamSearch.Lib.KeySplit
import BeamSearch.Stream3.Partition

/-
  The Stream 3 kernels.

  A pass marks the live candidates of a ring within the
  threshold, compacts them as (hash, packed value) pairs, pads
  them to the batch, sorts and reduces them by hash, drops the
  padding, restores the candidates and splits them by owner:
  rows of other ranks go to the send buffer, the rank's own are
  compacted in place. The batch is a positive multiple of the
  candidates of a slot and an int to the device primitives, so
  no 32-bit count wraps.

  Main declarations:
    * `Stream3Ring`
    * `Stream3Cub`
    * `stream3PackThreshold`
    * `stream3RestoreOwnerSplitCuda`
    * `stream3Pass`
-/

namespace BeamSearch

open Cdf Compaction KeySplit SegmentedReduce

namespace Stream3

----------------
-- Routes And Packed Values
----------------

/-
  The route of a row: its source rank, its owner and its move,
  in fields of 16, 8 and 8 bits.
-/
def packRoute
    (sourceRank : UInt16)
    (owner move : UInt8) : UInt32 :=
  (sourceRank.toUInt32 <<< 16) ||| (owner.toUInt32 <<< 8) |||
    move.toUInt32

/- The middle field of the route. -/
def unpackOwner (routePacked : UInt32) : UInt8 :=
  ((routePacked >>> 8) &&& 0xff).toUInt8

/-
  The value that is sorted with a hash: its score above its
  place in the ring, so that the least value is the best row.
-/
def packStream3Val (scoreKey payloadId : UInt32) : UInt64 :=
  (scoreKey.toUInt64 <<< 32) ||| payloadId.toUInt64

/- The score in the upper half. -/
def scoreKeyOf (value : UInt64) : UInt32 :=
  (value >>> 32).toUInt32

/- The place in the lower half. -/
def payloadIdOf (value : UInt64) : UInt32 :=
  (value &&& 0xffffffff).toUInt32

/-
  The key of the padding. A row could have this hash too; the
  value tells the two apart.
-/
def sentinelHash : Hash128 :=
  { lo := uint64Max, hi := uint64Max }

/- The operator that the reduction is given. -/
def stream3MinValue (a b : UInt64) : UInt64 :=
  if a < b then a else b

----------------
-- The Ring
----------------

/- What a pass reads; a missing count means full slots and a
missing parent base means zero. -/
structure Stream3Ring where
  scoreRing : Nat → UInt32
  hashRing : Nat → Hash128
  count : Option (Nat → Nat)
  parentBase : Option (Nat → UInt64)
  bMicro : Nat
  moveCount : Nat
  batchCandidates : Nat

namespace Stream3Ring

/- A slot has a row for each parent and move. -/
def candidatesPerSlot (ring : Stream3Ring) : Nat :=
  ring.bMicro * ring.moveCount

/- The slot of a row. -/
def ringSlot (ring : Stream3Ring) (i : Nat) : Nat :=
  i / ring.candidatesPerSlot

/- The place of a row inside its slot. -/
def localIndex (ring : Stream3Ring) (i : Nat) : Nat :=
  i % ring.candidatesPerSlot

/- The parent of a row inside its slot. -/
def parentLocal (ring : Stream3Ring) (i : Nat) : Nat :=
  ring.localIndex i / ring.moveCount

/-
  The parents that a slot has. Without counts every slot is
  full.
-/
def parentCount (ring : Stream3Ring) (slot : Nat) : Nat :=
  match ring.count with
  | none => ring.bMicro
  | some count => count slot

/-
  The parent in the frontier. Without bases they count from
  zero.
-/
def parentIdx (ring : Stream3Ring) (i : Nat) : UInt64 :=
  let base :=
    match ring.parentBase with
    | none => 0
    | some parentBase => parentBase (ring.ringSlot i)
  base + UInt64.ofNat (ring.parentLocal i)

/- The position's parent is one of its slot's. -/
def IsLive (ring : Stream3Ring) (i : Nat) : Prop :=
  ring.parentLocal i < ring.parentCount (ring.ringSlot i)

instance (ring : Stream3Ring) : DecidablePred ring.IsLive :=
  fun i =>
    inferInstanceAs
      (Decidable
        (ring.parentLocal i <
          ring.parentCount (ring.ringSlot i)))

end Stream3Ring

/- A threshold on the device, by its active slot, or a value. -/
structure Stream3Threshold where
  device : Option (Nat → UInt32)
  activeIndex : Option Nat
  value : UInt32

/-
  The kernel reads the published threshold, and of the two
  slots the active one. Without either it takes the value
  given.
-/
def Stream3Threshold.current
    (threshold : Stream3Threshold) : UInt32 :=
  match threshold.device with
  | none => threshold.value
  | some slots =>
      match threshold.activeIndex with
      | none => slots 0
      | some index => slots (index % 2)

----------------
-- Scratch And Primitives
----------------

/- The scratch arrays of the pass. -/
structure Stream3Scratch where
  compactKey : Nat → Hash128
  compactVal : Nat → UInt64
  reduceKey : Nat → Hash128
  reduceVal : Nat → UInt64
  uniqueKey : Nat → Hash128
  uniqueVal : Nat → UInt64
  keepFlags : Nat → Nat
  blockCounts : Nat → Nat
  blockOffsets : Nat → Nat
  uniqueCount : Nat

/- The two calls of CUB, as parameters. -/
structure Stream3Cub where
  hashSortPairs : SortPairs Hash128 UInt64
  hashReduceByKey : ReduceByKey Hash128 UInt64 stream3MinValue

/- The calls as the host would make them. -/
def hostStream3Cub : Stream3Cub :=
  { hashSortPairs := insertionSortPairs
    hashReduceByKey := foldRunsByKey stream3MinValue }

/- The scratch before any pass. -/
def zeroStream3Scratch : Stream3Scratch :=
  { compactKey := fun _ => { lo := 0, hi := 0 }
    compactVal := fun _ => 0
    reduceKey := fun _ => { lo := 0, hi := 0 }
    reduceVal := fun _ => 0
    uniqueKey := fun _ => { lo := 0, hi := 0 }
    uniqueVal := fun _ => 0
    keepFlags := fun _ => 0
    blockCounts := fun _ => 0
    blockOffsets := fun _ => 0
    uniqueCount := 0 }

/- The number of 256-thread blocks that cover `items` entries. -/
def blocksFor (items : Nat) : Nat :=
  (items + 255) / 256

----------------
-- Threshold And Compaction
----------------

/-
  The flag of a row: it has a parent and its score is within
  the threshold.
-/
def keepMark
    (ring : Stream3Ring)
    (threshold : UInt32)
    (i : Nat) : Nat :=
  if i < ring.batchCandidates then
    if ring.IsLive i ∧ ring.scoreRing i ≤ threshold then 1
    else 0
  else 0

/- Flag the rows and count them by block. -/
def stream3MarkCounts
    (ring : Stream3Ring)
    (threshold : UInt32)
    (scratch : Stream3Scratch) : Stream3Scratch :=
  let mark := keepMark ring threshold
  { scratch with
    keepFlags := fun i =>
      if i < ring.batchCandidates then mark i
      else scratch.keepFlags i
    blockCounts := fun block =>
      if block < blocksFor ring.batchCandidates then
        blockCount mark block
      else scratch.blockCounts block }

/- An exclusive sum of the block counts; the count is the last
offset and the last block count. -/
def stream3ScanBlockCounts
    (blocks : Nat)
    (scratch : Stream3Scratch) : Stream3Scratch :=
  let offsets :=
    (scanBlockCounts scratch.blockCounts scratch.blockOffsets
      blocks).offsets
  { scratch with
    blockOffsets := offsets
    uniqueCount :=
      offsets (blocks - 1) + scratch.blockCounts (blocks - 1) }

/- The flag a compacting thread reads; threads past the end keep
nothing. -/
def loadFlag
    (scratch : Stream3Scratch)
    (batch i : Nat) : Nat :=
  if i < batch then scratch.keepFlags i else 0

/- Write the flagged rows to the places that the scan gave. -/
def stream3Compact
    (ring : Stream3Ring)
    (scratch : Stream3Scratch) : Stream3Scratch :=
  let batch := ring.batchCandidates
  let keep := loadFlag scratch batch
  let out := compactDest keep scratch.blockOffsets
  let threads := 256 * blocksFor batch
  { scratch with
    compactKey :=
      scatter keep out ring.hashRing scratch.compactKey threads
    compactVal :=
      scatter keep out
        (fun i =>
          packStream3Val (ring.scoreRing i) (UInt32.ofNat i))
        scratch.compactVal threads }

/- Pad the batch with sentinels, so that it is sorted whole. -/
def stream3FillSortTail
    (batch : Nat)
    (scratch : Stream3Scratch) : Stream3Scratch :=
  { scratch with
    compactKey := fun i =>
      if scratch.uniqueCount ≤ i ∧ i < batch then sentinelHash
      else scratch.compactKey i
    compactVal := fun i =>
      if scratch.uniqueCount ≤ i ∧ i < batch then uint64Max
      else scratch.compactVal i }

----------------
-- Sorting And Reducing By Hash
----------------

/- Sort the batch by hash. -/
def stream3HashSort
    (cub : Stream3Cub)
    (batch : Nat)
    (scratch : Stream3Scratch) : Stream3Scratch :=
  let sorted :=
    cub.hashSortPairs.run
      (firstN
        (fun i => (scratch.compactKey i, scratch.compactVal i))
        batch)
  { scratch with
    compactKey :=
      writeFirst (sorted.map Prod.fst) scratch.compactKey
    compactVal :=
      writeFirst (sorted.map Prod.snd) scratch.compactVal }

/- One value a hash: the least. -/
def stream3HashReduce
    (cub : Stream3Cub)
    (batch : Nat)
    (scratch : Stream3Scratch) : Stream3Scratch :=
  let reduced :=
    cub.hashReduceByKey.run
      (firstN
        (fun i => (scratch.compactKey i, scratch.compactVal i))
        batch)
  { scratch with
    reduceKey :=
      writeFirst (reduced.map Prod.fst) scratch.reduceKey
    reduceVal :=
      writeFirst (reduced.map Prod.snd) scratch.reduceVal
    uniqueCount := reduced.length }

/- The flag of a run: it is not the padding's. -/
def validMark (scratch : Stream3Scratch) (i : Nat) : Nat :=
  if i < scratch.uniqueCount then
    if scratch.reduceVal i ≠ uint64Max then 1 else 0
  else 0

/-
  Flag the runs and count them by block. Beyond the runs the
  flags are cleared.
-/
def stream3MarkValidUniqueCounts
    (batch : Nat)
    (scratch : Stream3Scratch) : Stream3Scratch :=
  let mark := validMark scratch
  { scratch with
    keepFlags := fun i =>
      if i < scratch.uniqueCount ∧ i < 256 * blocksFor batch then
        mark i
      else if i < batch then 0
      else scratch.keepFlags i
    blockCounts := fun block =>
      if block < blocksFor batch then blockCount mark block
      else scratch.blockCounts block }

/- Move the runs that are flagged to the front. -/
def stream3CompactValidUnique
    (batch : Nat)
    (scratch : Stream3Scratch) : Stream3Scratch :=
  let keep := loadFlag scratch batch
  let out := compactDest keep scratch.blockOffsets
  let threads := 256 * blocksFor batch
  { scratch with
    uniqueKey :=
      scatter keep out scratch.reduceKey scratch.uniqueKey
        threads
    uniqueVal :=
      scatter keep out scratch.reduceVal scratch.uniqueVal
        threads }

/- Both entry points, with a threshold value and with one on the
device. -/
def stream3PackThreshold
    (cub : Stream3Cub)
    (ring : Stream3Ring)
    (threshold : Stream3Threshold)
    (scratch : Stream3Scratch) : Stream3Scratch :=
  let batch := ring.batchCandidates
  let blocks := blocksFor batch
  let scratch :=
    stream3MarkCounts ring threshold.current scratch
  let scratch := stream3ScanBlockCounts blocks scratch
  let scratch := stream3Compact ring scratch
  let scratch := stream3FillSortTail batch scratch
  let scratch := stream3HashSort cub batch scratch
  let scratch := stream3HashReduce cub batch scratch
  let scratch := stream3MarkValidUniqueCounts batch scratch
  let scratch := stream3ScanBlockCounts blocks scratch
  stream3CompactValidUnique batch scratch

----------------
-- Restoring Candidates And Splitting By Owner
----------------

/-
  What the pass leaves: the rows that stay and the rows to
  send, with their counts by owner.
-/
structure Stream3Split where
  localPendingBuffer : Nat → CandidateMeta
  localPendingCount : Nat
  remoteSendBuffer : Nat → CandidateMeta
  sendCount : Nat → Nat
  sendOffset : Nat → Nat
  ownerScratch : Nat → Nat

/- The outputs before any pass. -/
def emptySplit : Stream3Split :=
  { localPendingBuffer := fun _ => emptyCandidate
    localPendingCount := 0
    remoteSendBuffer := fun _ => emptyCandidate
    sendCount := fun _ => 0
    sendOffset := fun _ => 0
    ownerScratch := fun _ => 0 }

/-
  The row back from its hash and value. The place gives the
  parent and the move.
-/
def restoreCandidate
    (ring : Stream3Ring)
    (localRank : UInt16)
    (owner : UInt8)
    (hash : Hash128)
    (value : UInt64) : CandidateMeta :=
  let payloadId := (payloadIdOf value).toNat
  let move :=
    UInt8.ofNat (ring.localIndex payloadId % ring.moveCount)
  { hash := hash
    parentIdx := ring.parentIdx payloadId
    scoreKey := scoreKeyOf value
    routePacked := packRoute localRank owner move }

/- With one rank every row stays. -/
def stream3RestoreSingleOwner
    (ring : Stream3Ring)
    (localRank : UInt16)
    (maxCandidates : Nat)
    (scratch : Stream3Scratch)
    (split : Stream3Split) : Stream3Split :=
  { split with
    localPendingBuffer := fun i =>
      if i < 256 * blocksFor maxCandidates ∧
          i < scratch.uniqueCount then
        restoreCandidate ring localRank localRank.toUInt8
          (scratch.uniqueKey i) (scratch.uniqueVal i)
      else split.localPendingBuffer i
    localPendingCount := scratch.uniqueCount
    sendCount := Function.update split.sendCount 0 0
    sendOffset :=
      Function.update (Function.update split.sendOffset 0 0) 1 0 }

/- The owner of each row, by its hash. -/
def stream3RestoreOwnerSplit
    (ring : Stream3Ring)
    (localRank : UInt16)
    (worldSize maxCandidates : Nat)
    (scratch : Stream3Scratch)
    (split : Stream3Split) : Stream3Split :=
  let owner := fun i =>
    ownerFromHash128 (scratch.uniqueKey i) worldSize
  { split with
    ownerScratch := fun i =>
      if i < 256 * blocksFor maxCandidates ∧
          i < scratch.uniqueCount then
        owner i
      else split.ownerScratch i
    localPendingBuffer := fun i =>
      if i < 256 * blocksFor maxCandidates ∧
          i < scratch.uniqueCount then
        restoreCandidate ring localRank (UInt8.ofNat (owner i))
          (scratch.uniqueKey i) (scratch.uniqueVal i)
      else split.localPendingBuffer i }

/- The flag of a row of one owner. -/
def ownerMark
    (split : Stream3Split)
    (count peer i : Nat) : Nat :=
  if i < count ∧ split.ownerScratch i = peer then 1 else 0

/- One block a peer: strided sums, then the tree. -/
def stream3CountOwner
    (localRank : UInt16)
    (worldSize count : Nat)
    (split : Stream3Split) : Stream3Split :=
  let total := fun peer =>
    treeReduce 8
      (stridedSum (ownerMark split count peer)
        (blocksFor count))
      0
  { split with
    localPendingCount :=
      if localRank.toNat < worldSize then total localRank.toNat
      else split.localPendingCount
    sendCount := fun peer =>
      if peer < worldSize then
        if peer = localRank.toNat then 0 else total peer
      else split.sendCount peer }

/- The offsets of the owners in the buffer to send. -/
def stream3ScanSendCounts
    (worldSize : Nat)
    (split : Stream3Split) : Stream3Split :=
  { split with
    sendOffset :=
      (prefixOffsets split.sendCount split.sendOffset
        worldSize).offsets }

/- A thread past the count loads nothing. -/
def loadCandidate
    (count : Nat)
    (buffer : Nat → CandidateMeta)
    (i : Nat) : CandidateMeta :=
  if i < count then buffer i else emptyCandidate

/- The block of one remote peer. -/
def scatterPeer
    (localRank : UInt16)
    (count : Nat)
    (split : Stream3Split)
    (peer : Nat) : Stream3Split :=
  if peer = localRank.toNat then split
  else
    { split with
      remoteSendBuffer :=
        (compactTiles (ownerMark split count peer)
          (fun _ => loadCandidate count split.localPendingBuffer)
          (split.sendOffset peer) (blocksFor count)
          split.remoteSendBuffer).array }

/- The rows of each peer, one peer after the other. -/
def stream3ScatterRemote
    (localRank : UInt16)
    (worldSize count : Nat)
    (split : Stream3Split) : Stream3Split :=
  (List.range worldSize).foldl (scatterPeer localRank count)
    split

/- The local pass: one block, over the buffer it reads. -/
def stream3ScatterLocal
    (localRank : UInt16)
    (count : Nat)
    (split : Stream3Split) : Stream3Split :=
  { split with
    localPendingBuffer :=
      (compactTiles (ownerMark split count localRank.toNat)
        (loadCandidate count) 0 (blocksFor count)
        split.localPendingBuffer).array }

/-
  With one rank the rows stay; else they are counted, scanned
  and scattered by owner.
-/
def stream3RestoreOwnerSplitCuda
    (ring : Stream3Ring)
    (localRank : UInt16)
    (worldSize maxCandidates : Nat)
    (scratch : Stream3Scratch)
    (split : Stream3Split) : Stream3Split :=
  if worldSize = 1 then
    stream3RestoreSingleOwner ring localRank maxCandidates
      scratch split
  else
    let count := scratch.uniqueCount
    let split :=
      stream3RestoreOwnerSplit ring localRank worldSize
        maxCandidates scratch split
    let split := stream3CountOwner localRank worldSize count split
    let split := stream3ScanSendCounts worldSize split
    let split :=
      stream3ScatterRemote localRank worldSize count split
    stream3ScatterLocal localRank count split

/- One pass: threshold, dedup and the split by owner. -/
def stream3Pass
    (cub : Stream3Cub)
    (ring : Stream3Ring)
    (threshold : Stream3Threshold)
    (localRank : UInt16)
    (worldSize : Nat)
    (scratch : Stream3Scratch)
    (split : Stream3Split) : Stream3Split :=
  stream3RestoreOwnerSplitCuda ring localRank worldSize
    ring.batchCandidates
    (stream3PackThreshold cub ring threshold scratch) split

end Stream3

end BeamSearch

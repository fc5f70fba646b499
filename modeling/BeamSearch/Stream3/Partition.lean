import BeamSearch.Core.Domain
import BeamSearch.Lib.SegmentedReduce

/-
  Stream 3's partition of rows over the two banks of every
  logical shard.

  Rows are sorted by logical shard and counted by runs. Every
  shard's rows go to one bank: the first one in rotation that
  takes all of them, else the one with the most room. Rows that
  do not fit raise the double-buffer overflow.

  Main declarations:
    * `Banks`
    * `partitionGroups`
    * `partitionAppend`
-/

namespace BeamSearch

open SegmentedReduce

namespace Stream3

----------------
-- Banks
----------------

/- A shard has two banks. -/
def shardBufferCount : Nat :=
  2

/- The shards of a rank and their room. -/
structure ShardGeometry where
  shardCount : Nat
  shardCapacity : Nat
deriving DecidableEq, Repr

/- All banks of a rank. -/
def ShardGeometry.storageShardCount
    (geometry : ShardGeometry) : Nat :=
  geometry.shardCount * shardBufferCount

/- The bank of a shard and a buffer. -/
def physicalShard (shard buffer : Nat) : Nat :=
  shard * shardBufferCount + buffer

/- The shard of a bank. -/
def logicalShard (physical : Nat) : Nat :=
  physical / shardBufferCount

/-
  The counts and flags the device holds for every bank. The
  counts are 32-bit words, and so is their sum.
-/
structure Banks where
  cleanCount : Nat → Nat
  dirtyCount : Nat → Nat
  processingFlag : Nat → Nat
  writeBufferIndex : Nat → Nat

namespace Banks

/- The rows of a bank; the sum is a 32-bit word. -/
def existing (banks : Banks) (physical : Nat) : Nat :=
  (banks.cleanCount physical + banks.dirtyCount physical) %
    2 ^ 32

/- The room of a bank. A bank that is being sorted has none. -/
def available
    (banks : Banks)
    (shardCapacity physical : Nat) : Nat :=
  if banks.processingFlag physical = 0 ∧
      banks.existing physical < shardCapacity then
    shardCapacity - banks.existing physical
  else
    0

end Banks

----------------
-- Sorting Rows By Shard
----------------

/- The sort and the reduction of the partition. -/
structure PartitionCub where
  sortPairs : SortPairs Nat CandidateMeta
  reduceByKey : ReduceByKey Nat Nat (· + ·)

/- A sort and a reduction that keep their promises. -/
def foldPartitionCub : PartitionCub :=
  { sortPairs := insertionSortPairs
    reduceByKey := foldRunsByKey (· + ·) }

/- A row of zeros. -/
def emptyCandidate : CandidateMeta :=
  { hash := { lo := 0, hi := 0 }
    parentIdx := 0
    scoreKey := 0
    routePacked := 0 }

/- The pair one thread of the fill kernel writes. -/
def partitionFill
    (input : Nat → CandidateMeta)
    (inputCount shardCount i : Nat) : Nat × CandidateMeta :=
  if i < inputCount then
    (shardFromHash128 (input i).hash shardCount, input i)
  else
    (shardCount, emptyCandidate)

/-
  The rows with their shards; behind the rows comes the
  padding.
-/
def partitionPairs
    (input : Nat → CandidateMeta)
    (inputCount maxCandidates shardCount : Nat) :
    List (Nat × CandidateMeta) :=
  (List.range maxCandidates).map
    (partitionFill input inputCount shardCount)

/- Every shard that occurs, with its number of rows. -/
def partitionGroups
    (cub : PartitionCub)
    (pairs : List (Nat × CandidateMeta)) : List (Nat × Nat) :=
  cub.reduceByKey.run
    ((cub.sortPairs.run pairs).map fun p => (p.1, 1))

----------------
-- Choosing A Bank
----------------

/- The bank that was chosen, and its room. -/
structure BestBuffer where
  buffer : Nat
  available : Nat
deriving DecidableEq, Repr

/- The search through the rotation, with its early exit. -/
def bestBufferLoop
    (available : Nat → Nat)
    (currentBuffer rawCount : Nat) :
    List Nat → BestBuffer → BestBuffer
  | [], best => best
  | step :: steps, best =>
      let candidate := (currentBuffer + step) % shardBufferCount
      if available candidate ≥ rawCount then
        { buffer := candidate, available := available candidate }
      else if available candidate > best.available then
        bestBufferLoop available currentBuffer rawCount steps
          { buffer := candidate
            available := available candidate }
      else
        bestBufferLoop available currentBuffer rawCount steps
          best

/-
  The bank that is written to keeps the group where it fits;
  else the one with more room.
-/
def bestBuffer
    (geometry : ShardGeometry)
    (banks : Banks)
    (shard rawCount : Nat) : BestBuffer :=
  let currentBuffer :=
    banks.writeBufferIndex shard % shardBufferCount
  let available := fun buffer =>
    banks.available geometry.shardCapacity
      (physicalShard shard buffer)
  bestBufferLoop available currentBuffer rawCount
    (List.range shardBufferCount)
    { buffer := currentBuffer
      available := available currentBuffer }

----------------
-- Counts, Offsets And The Scatter
----------------

/-
  What is known after some groups: their counts and offsets,
  and where the banks are written.
-/
structure PartitionCounts where
  shardCounts : Nat → Nat
  shardOffsets : Nat → Nat
  sourceRunning : Nat
  writeBufferIndex : Nat → Nat
  doubleBufferOverflow : Bool

/- One group more. -/
def preparePartitionGroup
    (geometry : ShardGeometry)
    (banks : Banks)
    (counts : PartitionCounts)
    (group : Nat × Nat) : PartitionCounts :=
  let shard := group.1
  let rawCount := group.2
  if shard ≥ geometry.shardCount then
    counts
  else
    let best := bestBuffer geometry banks shard rawCount
    let writeCount := min rawCount best.available
    { shardCounts :=
        Function.update counts.shardCounts shard writeCount
      shardOffsets :=
        Function.update counts.shardOffsets shard
          counts.sourceRunning
      sourceRunning := counts.sourceRunning + rawCount
      writeBufferIndex :=
        Function.update counts.writeBufferIndex shard best.buffer
      doubleBufferOverflow :=
        counts.doubleBufferOverflow ||
          decide (rawCount - writeCount ≠ 0) }

/- The groups in their order. -/
def preparePartitionCounts
    (geometry : ShardGeometry)
    (banks : Banks)
    (groups : List (Nat × Nat)) : PartitionCounts :=
  groups.foldl (preparePartitionGroup geometry banks)
    { shardCounts := fun _ => 0
      shardOffsets := fun _ => 0
      sourceRunning := 0
      writeBufferIndex := banks.writeBufferIndex
      doubleBufferOverflow := false }

/- The bank the scatter writes a shard's rows to. -/
def PartitionCounts.target
    (counts : PartitionCounts)
    (shard : Nat) : Nat :=
  physicalShard shard
    (counts.writeBufferIndex shard % shardBufferCount)

/- The rows of a group are counted to its bank. -/
def scatterGroup
    (geometry : ShardGeometry)
    (counts : PartitionCounts)
    (dirtyCount : Nat → Nat)
    (group : Nat × Nat) : Nat → Nat :=
  let shard := group.1
  if shard ≥ geometry.shardCount then
    dirtyCount
  else
    Function.update dirtyCount (counts.target shard)
      ((dirtyCount (counts.target shard) +
          counts.shardCounts shard) %
        2 ^ 32)

/- The survivor positions the scatter writes for one group. -/
def scatterWrites
    (geometry : ShardGeometry)
    (banks : Banks)
    (counts : PartitionCounts)
    (group : Nat × Nat) : List (Nat × Nat) :=
  let shard := group.1
  if shard ≥ geometry.shardCount then
    []
  else
    let dirtyBase := banks.existing (counts.target shard)
    (List.range group.2).filterMap fun index =>
      if index < counts.shardCounts shard then
        some (counts.target shard, dirtyBase + index)
      else
        none

/-
  What an append leaves: the banks, the places written and the
  flag.
-/
structure AppendResult where
  banks : Banks
  writes : List (Nat × Nat)
  fatal : Bool

/-
  One append. `fatal` is the sticky fatal flag; the scatter
  returns early once it is set.
-/
def partitionAppend
    (geometry : ShardGeometry)
    (banks : Banks)
    (groups : List (Nat × Nat))
    (fatal : Bool) : AppendResult :=
  let counts := preparePartitionCounts geometry banks groups
  let fatal := fatal || counts.doubleBufferOverflow
  if fatal = true then
    { banks :=
        { banks with
          writeBufferIndex := counts.writeBufferIndex }
      writes := []
      fatal := true }
  else
    { banks :=
        { banks with
          writeBufferIndex := counts.writeBufferIndex
          dirtyCount :=
            groups.foldl (scatterGroup geometry counts)
              banks.dirtyCount }
      writes :=
        groups.flatMap (scatterWrites geometry banks counts)
      fatal := false }

----------------
-- Groups Count The Rows
----------------

/-
  The groups' shards increase, and a group counts the pairs of
  its shard.
-/
theorem partitionGroups_spec
    (cub : PartitionCub)
    (pairs : List (Nat × CandidateMeta)) :
    let groups := partitionGroups cub pairs
    (groups.Pairwise fun a b => a.1 < b.1) ∧
      ∀ group ∈ groups,
        group.2 = pairs.countP fun p => p.1 = group.1 := by
  intro groups
  let ones :=
    (cub.sortPairs.run pairs).map fun p => (p.1, 1)
  have hSorted :
      ones.Pairwise fun (p q : Nat × Nat) => p.1 ≤ q.1 :=
    List.pairwise_map.mpr (cub.sortPairs.sorted pairs)
  rcases (cub.reduceByKey.reduces ones).of_sorted hSorted with
    ⟨hStrict, hFolds, -⟩
  refine ⟨hStrict, ?_⟩
  intro group hGroup
  have hValues :
      valuesOf ones group.1 =
        ((cub.sortPairs.run pairs).filter
          fun p => p.1 = group.1).map fun _ => 1 := by
    simp only [valuesOf, ones, List.filter_map, List.map_map]
    rfl
  have hSum := (hFolds group hGroup).sum_eq
  rw [hValues, List.map_const', List.sum_replicate_nat,
    Nat.mul_one, ← List.countP_eq_length_filter] at hSum
  rw [hSum]
  exact (cub.sortPairs.perm pairs).countP_eq _

end Stream3

end BeamSearch

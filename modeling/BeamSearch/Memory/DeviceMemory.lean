import BeamSearch.Memory.StaticLayout

/-
  Carving the device allocation.

  The allocation holds the current frontier, the solved arrays
  and one scratch pool. Pointer cursors place the arrays of each
  phase in the pool, from the plan's counts. Two checks compare
  what was carved with what was planned.

  Main declarations:
    * `DeviceArray`
    * `DevicePointer`
    * `StaticDeviceMemory`
    * `allocateStaticDeviceMemory`
-/

namespace BeamSearch

open Arena

namespace Memory

----------------
-- Arrays
----------------

/-
  The arrays of the static allocation, by the names of the
  source.
-/
inductive DeviceArray where
  | currentFrontierStates
  | solvedFlag
  | stopFlag
  | solvedCount
  | solvedOverflow
  | globalStopFlag
  | solvedMetaList
  | solvedDepthList
  | solvedSuffixList
  | currentDepth
  | unionKeyA
  | unionKeyB
  | unionValueA
  | unionValueB
  | unionScoreA
  | unionScoreB
  | unionScoreCountA
  | unionScoreCountB
  | unionKeep
  | unionBlocks
  | unionOffsets
  | unionCount
  | unionDirty
  | unionProcessing
  | unionCubTemp
  | scoreRing
  | hashRing
  | parentBase
  | count
  | stream3KeyA
  | stream3KeyB
  | stream3ValA
  | stream3ValB
  | stream3KeepFlags
  | stream3BlockCounts
  | stream3BlockOffsets
  | stream3Owner
  | stream3ShardCounts
  | stream3ShardOffsets
  | stream3SpillCounts
  | stream3SpillOffsets
  | stream3ReadyFlag
  | stream3ReadyShardList
  | stream3ReadyCount
  | stream3WriteBufferIndex
  | stream3PartitionKeyA
  | stream3PartitionKeyB
  | stream3PartitionValA
  | stream3PartitionValB
  | stream3PartitionUniqueShard
  | stream3PartitionUniqueCounts
  | stream3PartitionUniqueCount
  | stream3ScoreKeyA
  | stream3ScoreKeyB
  | stream3ScoreCountA
  | stream3ScoreCountB
  | stream3ScoreUniqueCount
  | stream3ScoreHist
  | stream3CubTemp
  | uniqueKey
  | uniqueVal
  | uniqueCount
  | stream3ThresholdPassCountByRing
  | stream3UniqueCountByRing
  | localPendingBuffer
  | localPendingCount
  | remoteSendBuffer
  | remoteRecvBuffer
  | sendCount
  | sendOffset
  | recvCount
  | recvOffset
  | stream5LocalRoundCount
  | stream5GlobalRoundCount
  | stream4KeyA
  | stream4KeyB
  | stream4ValA
  | stream4ValB
  | stream4ScoreKeyA
  | stream4ScoreKeyB
  | stream4ScoreCountA
  | stream4ScoreCountB
  | stream4KeepFlags
  | stream4BlockCounts
  | stream4BlockOffsets
  | stream4Count
  | stream4CubTemp
  | dirtyCount
  | processingFlag
  | globalSpillBufferA
  | globalSpillBufferB
  | globalSpillCount
  | globalSpillActiveIndex
  | fatalErrorFlag
  | fatalErrorTrace
  | survivorShard
  | cleanCount
  | shardScoreHistA
  | shardScoreHistB
  | shardScoreHistActiveIndex
  | thresholdHistActiveSnapshot
  | localScoreHist
  | globalScoreHist
  | currentThreshold
  | thresholdInitialized
  | currentThresholdActiveIndex
  | thresholdRequestLocal
  | thresholdRequestGlobal
  | finalSelectedBuffer
  | finalCandidateBuffer
  | finalRequestBuffer
  | finalCandidateCount
  | finalRequestCount
  | finalValidationError
  | finalSendCount
  | finalSendOffset
  | finalRecvCount
  | finalRecvOffset
  | finalKeepFlags
  | finalBlockCounts
  | finalBlockOffsets
  | nextFrontierStatesTmp
  | finalMatKeyA
  | finalMatKeyB
  | finalMatRequestA
  | finalMatRequestB
  | finalMatRequestRecv
  | finalMatResponseSend
  | finalMatResponseRecv
  | finalMatHistorySend
  | finalMatHistoryRecv
  | finalMatCubTemp
deriving DecidableEq, Repr

section Arrays

variable {build : BuildConstants}

/- An array with its name. -/
abbrev NamedTake (build : BuildConstants) : Type :=
  DeviceArray × Take build

/- The current frontier. -/
def frontierArray (plan : DevicePlan) : NamedTake build :=
  (.currentFrontierStates, take256 .state128 plan.frontierStates)

/- The solved results. -/
def solvedArrays
    (plan : DevicePlan) : List (NamedTake build) :=
  let capacity := plan.config.solvedResultCapacity
  [(.solvedFlag, take .uint32 1),
    (.stopFlag, take .uint32 1),
    (.solvedCount, take .uint32 1),
    (.solvedOverflow, take .uint32 1),
    (.globalStopFlag, take .uint32 1),
    (.solvedMetaList, take .candidateMeta capacity),
    (.solvedDepthList, take .uint32 capacity),
    (.solvedSuffixList, take .uint32 capacity),
    (.currentDepth, take .uint32 1)]

/- The union of two banks. -/
def unionArrays (plan : DevicePlan) : List (NamedTake build) :=
  let capacity := unionCapacity plan.config
  [(.unionKeyA, take .hash128 capacity),
    (.unionKeyB, take .hash128 capacity),
    (.unionValueA, take .candidateMeta capacity),
    (.unionValueB, take .candidateMeta capacity),
    (.unionScoreA, take .uint32 capacity),
    (.unionScoreB, take .uint32 capacity),
    (.unionScoreCountA, take .uint64 capacity),
    (.unionScoreCountB, take .uint64 capacity),
    (.unionKeep, take .uint32 capacity),
    (.unionBlocks, take .uint32 ((capacity + 255) / 256)),
    (.unionOffsets, take .uint32 ((capacity + 255) / 256)),
    (.unionCount, take .uint32 1),
    (.unionDirty, take .uint32 2),
    (.unionProcessing, take .uint32 2),
    (.unionCubTemp, takeBytes plan.unionCubTempBytes)]

/- The rings. -/
def ringArrays (plan : DevicePlan) : List (NamedTake build) :=
  [(.scoreRing, take .uint32 plan.scoreRingCount),
    (.hashRing, take .hash128 plan.hashRingCount),
    (.parentBase, take .uint64 plan.parentBaseCount),
    (.count, take .uint32 plan.ringCountCount)]

/- The local dedup and the partition. -/
def stream3Arrays (plan : DevicePlan) : List (NamedTake build) :=
  let stream3 := plan.stream3Count
  let shards := plan.config.shardCount
  let stream3Blocks := (stream3 + 255) / 256
  let partitionCount :=
    max plan.stream3Count plan.config.globalSpillCapacity
  [(.stream3KeyA, take .hash128 stream3),
    (.stream3KeyB, take .hash128 stream3),
    (.stream3ValA, take .uint64 stream3),
    (.stream3ValB, take .uint64 stream3),
    (.stream3KeepFlags, take .uint32 stream3),
    (.stream3BlockCounts, take .uint32 stream3Blocks),
    (.stream3BlockOffsets, take .uint32 stream3Blocks),
    (.stream3Owner, take .uint32 stream3),
    (.stream3ShardCounts, take .uint32 shards),
    (.stream3ShardOffsets, take .uint32 shards),
    (.stream3SpillCounts, take .uint32 shards),
    (.stream3SpillOffsets, take .uint32 shards),
    (.stream3ReadyFlag, take .uint32 plan.storageShardCount),
    (.stream3ReadyShardList,
      take .uint32 plan.storageShardCount),
    (.stream3ReadyCount, take .uint32 1),
    (.stream3WriteBufferIndex, take .uint32 shards),
    (.stream3PartitionKeyA, take .uint32 partitionCount),
    (.stream3PartitionKeyB, take .uint32 partitionCount),
    (.stream3PartitionValA, take .candidateMeta partitionCount),
    (.stream3PartitionValB, take .candidateMeta partitionCount),
    (.stream3PartitionUniqueShard, take .uint32 (shards + 1)),
    (.stream3PartitionUniqueCounts, take .uint32 (shards + 1)),
    (.stream3PartitionUniqueCount, take .uint32 1),
    (.stream3ScoreKeyA, take .uint32 stream3),
    (.stream3ScoreKeyB, take .uint32 stream3),
    (.stream3ScoreCountA, take .uint64 stream3),
    (.stream3ScoreCountB, take .uint64 stream3),
    (.stream3ScoreUniqueCount, take .uint32 1),
    (.stream3ScoreHist, take .uint64 scoreBinCount),
    (.stream3CubTemp, takeBytes plan.stream3CubTempBytes),
    (.uniqueKey, take .hash128 stream3),
    (.uniqueVal, take .uint64 stream3),
    (.uniqueCount, take .uint32 1)]

/- The counters of the trace, where the build has it. -/
def traceArrays (plan : DevicePlan) : List (NamedTake build) :=
  if build.depthFlowTrace then
    [(.stream3ThresholdPassCountByRing,
        take .uint32 plan.config.ringCount),
      (.stream3UniqueCountByRing,
        take .uint32 plan.config.ringCount)]
  else
    []

/- The exchange. -/
def stream5Arrays
    (word : Nat → Nat)
    (plan : DevicePlan) : List (NamedTake build) :=
  let ranks := plan.config.worldSize
  [(.localPendingBuffer, take .candidateMeta plan.stream3Count),
    (.localPendingCount, take .uint32 1),
    (.remoteSendBuffer,
      take .candidateMeta
        (word
          (plan.stream5SlotCount *
            plan.stream5SendSlotCapacity))),
    (.remoteRecvBuffer,
      take .candidateMeta
        (word
          (plan.stream5SlotCount *
            plan.stream5RecvSlotCapacity))),
    (.sendCount, take .uint32 ranks),
    (.sendOffset, take .uint32 (ranks + 1)),
    (.recvCount, take .uint32 ranks),
    (.recvOffset, take .uint32 (ranks + 1)),
    (.stream5LocalRoundCount, take .uint64 1),
    (.stream5GlobalRoundCount, take .uint64 1)]

/- The sort slots. -/
def stream4Arrays
    (word : Nat → Nat)
    (plan : DevicePlan) : List (NamedTake build) :=
  let stream4Capacity := plan.config.shardCapacityCandidates
  let stream4Slots := plan.config.stream4ActiveSortSlots
  let slotItems := stream4Slots * stream4Capacity
  let blocksPerSlot := (stream4Capacity + 255) / 256
  [(.stream4KeyA, take .hash128 slotItems),
    (.stream4KeyB, take .hash128 slotItems),
    (.stream4ValA, take .candidateMeta slotItems),
    (.stream4ValB, take .candidateMeta slotItems),
    (.stream4ScoreKeyA, take .uint32 slotItems),
    (.stream4ScoreKeyB, take .uint32 slotItems),
    (.stream4ScoreCountA, take .uint64 slotItems),
    (.stream4ScoreCountB, take .uint64 slotItems),
    (.stream4KeepFlags, take .uint32 slotItems),
    (.stream4BlockCounts,
      take .uint32 (stream4Slots * blocksPerSlot)),
    (.stream4BlockOffsets,
      take .uint32 (stream4Slots * blocksPerSlot)),
    (.stream4Count, take .uint32 stream4Slots),
    (.stream4CubTemp,
      takeBytes
        (word (stream4Slots * plan.stream4CubTempBytes)))]

/- The counts of the banks and the spill. -/
def spillArrays (plan : DevicePlan) : List (NamedTake build) :=
  let spill := plan.config.globalSpillCapacity
  [(.dirtyCount, take .uint32 plan.storageShardCount),
    (.processingFlag, take .uint32 plan.storageShardCount),
    (.globalSpillBufferA, take .candidateMeta spill),
    (.globalSpillBufferB, take .candidateMeta spill),
    (.globalSpillCount, take .uint32 2),
    (.globalSpillActiveIndex, take .uint32 1),
    (.fatalErrorFlag, take .uint32 1),
    (.fatalErrorTrace, take .uint64 streamFatalTraceWords)]

/- All arrays of the streams, in the order they are carved. -/
def transientArrays
    (word : Nat → Nat)
    (plan : DevicePlan) : List (NamedTake build) :=
  ringArrays plan ++ stream3Arrays plan ++ traceArrays plan ++
    stream5Arrays word plan ++ stream4Arrays word plan ++
    spillArrays plan

/-
  What the final phases still read: the survivors, their
  histograms and the thresholds.
-/
def persistentArrays
    (plan : DevicePlan) : List (NamedTake build) :=
  let storageShards := plan.storageShardCount
  let shardHistItems := plan.storageShardCount * scoreBinCount
  [(.survivorShard, take .candidateMeta plan.survivorCount),
    (.cleanCount, take .uint32 storageShards),
    (.shardScoreHistA, take .uint32 shardHistItems),
    (.shardScoreHistB, take .uint32 shardHistItems),
    (.shardScoreHistActiveIndex, take .uint32 storageShards),
    (.thresholdHistActiveSnapshot, take .uint32 storageShards),
    (.localScoreHist, take .uint64 scoreBinCount),
    (.globalScoreHist, take .uint64 scoreBinCount),
    (.currentThreshold, take .uint32 2),
    (.thresholdInitialized, take .uint32 2),
    (.currentThresholdActiveIndex, take .uint32 1),
    (.thresholdRequestLocal, take .uint32 1),
    (.thresholdRequestGlobal, take .uint32 1)]

/- What both final phases use. -/
def finalCommonArrays
    (plan : DevicePlan) : List (NamedTake build) :=
  let ranks := plan.config.worldSize
  (if plan.config.worldSize > 1 then
      [(.finalSelectedBuffer,
        take .candidateMeta
          plan.finalSelectedCandidateCapacity)]
    else
      [(.finalCandidateBuffer,
          take .candidateMeta plan.frontierStates),
        (.finalRequestBuffer,
          take .finalRequest plan.frontierStates)]) ++
    [(.finalCandidateCount, take .uint32 1),
      (.finalRequestCount, take .uint32 1),
      (.finalValidationError,
        take .finalRequestValidationError 1),
      (.finalSendCount, take256 .uint32 ranks),
      (.finalSendOffset, take256 .uint32 (ranks + 1)),
      (.finalRecvCount, take256 .uint32 ranks),
      (.finalRecvOffset, take256 .uint32 (ranks + 1))]

/- The selection. -/
def finalSelectArrays
    (plan : DevicePlan) : List (NamedTake build) :=
  let finalSurvivorBlocks := (plan.survivorCount + 255) / 256
  [(.finalKeepFlags, take .uint32 plan.survivorCount),
    (.finalBlockCounts, take .uint32 finalSurvivorBlocks),
    (.finalBlockOffsets, take .uint32 finalSurvivorBlocks)]

/- The materialization. -/
def finalMaterializeArrays
    (plan : DevicePlan) : List (NamedTake build) :=
  let slotItems :=
    plan.finalMaterializeSlotCount *
      plan.finalMaterializeExchangeCapacity
  let historySendItems :=
    plan.finalMaterializeSlotCount *
      plan.finalMaterializeChunkCapacity
  (if plan.config.worldSize > 1 then
      [(.finalCandidateBuffer,
        take .candidateMeta plan.frontierStates)]
    else
      []) ++
    [(.nextFrontierStatesTmp,
      take .state128 plan.frontierStates)] ++
    if plan.config.worldSize > 1 then
      [(.finalMatKeyA, take256 .uint32 slotItems),
        (.finalMatKeyB, take256 .uint32 slotItems),
        (.finalMatRequestA, take .finalRequest slotItems),
        (.finalMatRequestB, take .finalRequest slotItems),
        (.finalMatRequestRecv, take .finalRequest slotItems),
        (.finalMatResponseSend, take .finalResponse slotItems),
        (.finalMatResponseRecv, take .finalResponse slotItems),
        (.finalMatHistorySend,
          take .finalHistoryRecord historySendItems),
        (.finalMatHistoryRecv,
          take .finalHistoryRecord slotItems),
        (.finalMatCubTemp,
          takeBytes plan.finalMaterializeCubTempBytes)]
    else
      []

----------------
-- Pointers
----------------

/- An array with its bytes, counted from the allocation. -/
structure DevicePointer where
  name : DeviceArray
  element : ElementType
  span : Span

/- Place arrays from an offset of a cursor with a base. -/
def carveArrays
    (word : Nat → Nat)
    (base offset : Nat)
    (arrays : List (NamedTake build)) : List DevicePointer :=
  (carve word offset
      (arrays.map fun named => (named, named.2.request))).map
    fun placed =>
      { name := placed.1.1
        element := placed.1.2.element
        span := placed.2.shift base }

/- The offset of the cursor behind the arrays. -/
def arraysEnd
    (word : Nat → Nat)
    (offset : Nat)
    (arrays : List (NamedTake build)) : Nat :=
  extent word offset (requests build (arrays.map Prod.snd))

end Arrays

/-
  The allocation: one base, the sizes, and the arrays of each
  layout.
-/
structure StaticDeviceMemory where
  allocationBytes : Nat
  scratchPool : Nat
  scratchPoolBytes : Nat
  root : List DevicePointer
  finalUnion : List DevicePointer
  transient : List DevicePointer
  persistent : List DevicePointer
  finalCommon : List DevicePointer
  finalSelect : List DevicePointer
  finalMaterialize : List DevicePointer

/- What the allocator asserts of its own layouts. -/
inductive LayoutError where
  | unionExceedsPlannedExtent
  | streamsExceedPlannedExtent
deriving DecidableEq, Repr

/-
  One allocation; the layouts of the scratch start at the same
  byte and are used in turn.
-/
def allocateStaticDeviceMemory
    (build : BuildConstants)
    (word : Nat → Nat)
    (plan : DevicePlan) :
    Except LayoutError StaticDeviceMemory :=
  let frontier : List (NamedTake build) := [frontierArray plan]
  let solved : List (NamedTake build) := solvedArrays plan
  let frontierEnd :=
    alignUp word (arraysEnd word 0 frontier) 256
  let scratchPool :=
    alignUp word (arraysEnd word frontierEnd solved) 256
  let union : List (NamedTake build) :=
    if plan.layoutUnionBytes ≠ 0 then unionArrays plan else []
  let transient : List (NamedTake build) :=
    transientArrays word plan
  let persistent : List (NamedTake build) :=
    persistentArrays plan
  let persistentOffset :=
    max (arraysEnd word 0 transient)
      plan.layoutFinalBudgetBytes
  let streamsEnd := arraysEnd word persistentOffset persistent
  let common : List (NamedTake build) := finalCommonArrays plan
  let commonBytes :=
    alignUp word (arraysEnd word 0 common) 256
  let select : List (NamedTake build) := finalSelectArrays plan
  let materialize : List (NamedTake build) :=
    finalMaterializeArrays plan
  if plan.layoutUnionBytes ≠ 0 ∧
      arraysEnd word 0 union > plan.layoutUnionBytes then
    .error .unionExceedsPlannedExtent
  else if streamsEnd > plan.layoutPhase1StreamsBytes ∨
      streamsEnd > plan.scratchPoolBytes then
    .error .streamsExceedPlannedExtent
  else
    .ok
      { allocationBytes := plan.totalDeviceBytes
        scratchPool := scratchPool
        scratchPoolBytes := plan.scratchPoolBytes
        root :=
          carveArrays word 0 0 frontier ++
            carveArrays word 0 frontierEnd solved
        finalUnion := carveArrays word scratchPool 0 union
        transient := carveArrays word scratchPool 0 transient
        persistent :=
          carveArrays word scratchPool persistentOffset
            persistent
        finalCommon := carveArrays word scratchPool 0 common
        finalSelect :=
          carveArrays word scratchPool commonBytes select
        finalMaterialize :=
          carveArrays word scratchPool commonBytes
            materialize }

end Memory

end BeamSearch

import Mathlib.Data.Nat.Size
import BeamSearch.Lib.Arena
import BeamSearch.Memory.RuntimeConfig

/-
  The byte layout of the static plan.

  Every phase of the search has a layout in one scratch pool. The
  plan runs a size cursor over each phase's arrays; the streams
  layout leaves room for the final phases in front of the
  survivors, which the final phases still read. Byte counts are
  64-bit words; `word` is what such a word stores of a number.

  Main declarations:
    * `BuildConstants`
    * `CubQueries`
    * `bytesStreams`
    * `DevicePlan`
    * `planDeviceMemory`
-/

namespace BeamSearch

open Arena

namespace Memory

----------------
-- Element Types
----------------

/- What the build fixes, with the assertions on it. -/
structure BuildConstants where
  moveCount : Nat
  stateStorageLen : Nat
  stateAlignment : Nat
  depthFlowTrace : Bool
  movePos : 0 < moveCount
  alignment_eq :
    stateAlignment = 16 ∨ stateAlignment = 32 ∨
      stateAlignment = 64

/- The element types of the arrays that the arena holds. -/
inductive ElementType where
  | byte
  | uint32
  | uint64
  | hash128
  | candidateMeta
  | state128
  | finalRequest
  | finalResponse
  | finalHistoryRecord
  | finalRequestValidationError
deriving DecidableEq, Repr

namespace BuildConstants

/-
  The sizes are those the headers assert with `static_assert`;
  only a state depends on the build.
-/
def sizeof (build : BuildConstants) : ElementType → Nat
  | .byte => 1
  | .uint32 => 4
  | .uint64 => 8
  | .hash128 => 16
  | .candidateMeta => 32
  | .state128 => build.stateStorageLen
  | .finalRequest => 16
  | .finalResponse => build.stateStorageLen
  | .finalHistoryRecord => 64
  | .finalRequestValidationError => 48

/- A record that is read as one vector is aligned to it. -/
def alignof (build : BuildConstants) : ElementType → Nat
  | .byte => 1
  | .uint32 => 4
  | .uint64 => 8
  | .hash128 => 16
  | .candidateMeta => 32
  | .state128 => build.stateAlignment
  | .finalRequest => 16
  | .finalResponse => build.stateAlignment
  | .finalHistoryRecord => 32
  | .finalRequestValidationError => 16

/-
  The arena starts at 256 bytes, so every element type can be
  aligned in it.
-/
theorem alignof_dvd
    (build : BuildConstants)
    (element : ElementType) :
    build.alignof element ∣ 256 := by
  have hState : build.stateAlignment ∣ 256 := by
    rcases build.alignment_eq with h | h | h <;> rw [h] <;> decide
  cases element <;> simp only [alignof]
  case state128 => exact hState
  case finalResponse => exact hState
  all_goals decide

end BuildConstants

/- One array of a layout: its alignment covers its elements'. -/
structure Take (build : BuildConstants) where
  element : ElementType
  count : Nat
  alignment : Nat
  covers : build.alignof element ∣ alignment
  divides : alignment ∣ 256

namespace Take

variable {build : BuildConstants}

theorem positive (take : Take build) : 0 < take.alignment :=
  Nat.pos_of_dvd_of_pos take.divides (by decide)

/- What the arena is asked for: a take without its element. -/
def request (take : Take build) : Request :=
  { count := take.count
    size := build.sizeof take.element
    alignment := take.alignment
    positive := take.positive }

end Take

section Layouts

variable {build : BuildConstants}

/- A take at the alignment of its element. -/
def take (element : ElementType) (count : Nat) : Take build :=
  { element := element
    count := count
    alignment := build.alignof element
    covers := Nat.dvd_refl _
    divides := build.alignof_dvd element }

/- A take at the 256 bytes that CUB and the peers read at. -/
def take256 (element : ElementType) (count : Nat) : Take build :=
  { element := element
    count := count
    alignment := 256
    covers := build.alignof_dvd element
    divides := Nat.dvd_refl _ }

/- Raw bytes, for the scratch of CUB. -/
def takeBytes (bytes : Nat) : Take build :=
  take256 .byte bytes

/- The requests of a layout, in the order they are taken. -/
def requests
    (build : BuildConstants)
    (takes : List (Take build)) : List Request :=
  takes.map Take.request

----------------
-- Temporary Storage Of Primitives
----------------

/- The temporary bytes the primitives ask for, by item count. -/
structure CubQueries where
  hashSortValues : Nat → Nat
  reduceMinValues : Nat → Nat
  exclusiveSum : Nat → Nat
  scoreSort : Nat → Nat
  scoreReduce : Nat → Nat
  partitionSort : Nat → Nat → Nat
  partitionReduce : Nat → Nat
  hashSortCandidates : Nat → Nat
  reduceBestCandidates : Nat → Nat
  stream4Scan : Nat → Nat
  requestSort : Nat → Nat

/- The bits that CUB sorts a shard key by; at least one. -/
def shardKeyBits (shardCount : Nat) : Nat :=
  if shardCount.size = 0 then 1 else shardCount.size

/-
  One scratch serves all calls of the pass, so it holds the
  greatest of them.
-/
def stream3CubTempBytes
    (word : Nat → Nat)
    (cub : CubQueries)
    (items : Nat) : Nat :=
  alignUp word
    (max
      (max (max (cub.hashSortValues items)
        (cub.reduceMinValues items))
        (cub.exclusiveSum ((items + 255) / 256)))
      (max (cub.scoreSort items) (cub.scoreReduce items)))
    256

/- The scratch of the sort and the count by shard. -/
def stream3PartitionCubTempBytes
    (word : Nat → Nat)
    (cub : CubQueries)
    (items shardCount : Nat) : Nat :=
  alignUp word
    (max (cub.partitionSort items (shardKeyBits shardCount))
      (cub.partitionReduce items))
    256

/-
  The scratch of a sort slot: its scan, its two sorts and its
  two reductions.
-/
def stream4CubTempBytes
    (word : Nat → Nat)
    (cub : CubQueries)
    (items : Nat) : Nat :=
  alignUp word
    (max (cub.stream4Scan items)
      (max
        (max (cub.hashSortCandidates items)
          (cub.reduceBestCandidates items))
        (max (cub.scoreSort items) (cub.scoreReduce items))))
    256

/- The scratch of the sort of requests by rank. -/
def finalMaterializeCubTempBytes
    (word : Nat → Nat)
    (cub : CubQueries)
    (items : Nat) : Nat :=
  alignUp word (cub.requestSort items) 256

/- The larger of the two sorts that share one scratch array. -/
def stream3ScratchBytes
    (word : Nat → Nat)
    (cub : CubQueries)
    (config : RuntimeConfig) : Nat :=
  max
    (stream3CubTempBytes word cub config.stream3BatchCandidates)
    (stream3PartitionCubTempBytes word cub
      (stream3PartitionCount config) config.shardCount)

----------------
-- The Union Layout
----------------

/-
  The union is formed of two banks; with one bank a shard
  there is none to form.
-/
def unionCapacity (config : RuntimeConfig) : Nat :=
  if config.shardBufferCount = 1 then 0
  else 2 * config.shardCapacityCandidates

/- The arrays of the union, in the order of the source. -/
def unionLayout (capacity cubBytes : Nat) : List (Take build) :=
  [take .hash128 capacity, take .hash128 capacity,
    take .candidateMeta capacity, take .candidateMeta capacity,
    take .uint32 capacity, take .uint32 capacity,
    take .uint64 capacity, take .uint64 capacity,
    take .uint32 capacity,
    take .uint32 ((capacity + 255) / 256),
    take .uint32 ((capacity + 255) / 256),
    take .uint32 1, take .uint32 2, take .uint32 2,
    takeBytes cubBytes]

/- The bytes of the union arena: none where there is none. -/
def bytesUnion
    (build : BuildConstants)
    (word : Nat → Nat)
    (cub : CubQueries)
    (config : RuntimeConfig) : Nat :=
  let capacity := unionCapacity config
  if capacity = 0 then
    0
  else
    alignUp word
      (extent word 0
        (requests build
          (unionLayout capacity
            (stream4CubTempBytes word cub capacity))))
      256

----------------
-- The Streams Layout
----------------

/- The ring slots of all rings. -/
def ringSlots
    (config : RuntimeConfig)
    (derived : DerivedConfig) : Nat :=
  config.ringCount * derived.ringSlotCount

/-
  The children that all ring slots hold. Both products are of
  64-bit words and wrap.
-/
def ringCandidates
    (build : BuildConstants)
    (word : Nat → Nat)
    (config : RuntimeConfig)
    (derived : DerivedConfig) : Nat :=
  word
    (word (ringSlots config derived * config.bMicro) *
      build.moveCount)

/- A shard has a bank for each of its buffers. -/
def storageShardCount (config : RuntimeConfig) : Nat :=
  config.shardCount * config.shardBufferCount

/- The rows that all banks hold. -/
def survivorCount (config : RuntimeConfig) : Nat :=
  storageShardCount config * config.shardCapacityCandidates

/- The arrays of the rings. -/
def ringLayout
    (word : Nat → Nat)
    (config : RuntimeConfig)
    (derived : DerivedConfig) : List (Take build) :=
  [take .uint32 (ringCandidates build word config derived),
    take .hash128 (ringCandidates build word config derived),
    take .uint64 (ringSlots config derived),
    take .uint32 (ringSlots config derived)]

/-
  The arrays of the local dedup and of the partition by shard.
-/
def stream3Layout
    (word : Nat → Nat)
    (cub : CubQueries)
    (config : RuntimeConfig) : List (Take build) :=
  let stream3 := config.stream3BatchCandidates
  let stream3Blocks := (stream3 + 255) / 256
  let stream3Partition := stream3PartitionCount config
  [take .hash128 stream3, take .hash128 stream3,
    take .uint64 stream3, take .uint64 stream3,
    take .uint32 stream3,
    take .uint32 stream3Blocks, take .uint32 stream3Blocks,
    take .uint32 stream3,
    take .uint32 config.shardCount,
    take .uint32 config.shardCount,
    take .uint32 config.shardCount,
    take .uint32 config.shardCount,
    take .uint32 (storageShardCount config),
    take .uint32 (storageShardCount config),
    take .uint32 1,
    take .uint32 config.shardCount,
    take .uint32 stream3Partition,
    take .uint32 stream3Partition,
    take .candidateMeta stream3Partition,
    take .candidateMeta stream3Partition,
    take .uint32 (config.shardCount + 1),
    take .uint32 (config.shardCount + 1),
    take .uint32 1,
    take .uint32 stream3, take .uint32 stream3,
    take .uint64 stream3, take .uint64 stream3,
    take .uint32 1,
    take .uint64 scoreBinCount,
    takeBytes (stream3ScratchBytes word cub config),
    take .hash128 stream3, take .uint64 stream3,
    take .uint32 1]

/- The counters of a traced build. -/
def traceLayout (config : RuntimeConfig) : List (Take build) :=
  if build.depthFlowTrace then
    [take .uint32 config.ringCount,
      take .uint32 config.ringCount]
  else
    []

/- The arrays of the exchange; its rows are slots of a round. -/
def stream5Layout
    (word : Nat → Nat)
    (config : RuntimeConfig) : List (Take build) :=
  let stream3 := config.stream3BatchCandidates
  let stream5Slots := stream5SlotCount config
  [take .candidateMeta stream3,
    take .uint32 1,
    take .candidateMeta (word (stream3 * stream5Slots)),
    take .candidateMeta
      (word (stream5RecvSlotCapacity config * stream5Slots)),
    take .uint32 config.worldSize,
    take .uint32 (config.worldSize + 1),
    take .uint32 config.worldSize,
    take .uint32 (config.worldSize + 1),
    take .uint64 1,
    take .uint64 1]

/-
  The arrays of the sort slots: rows, scores and counts of
  each.
-/
def stream4Layout
    (word : Nat → Nat)
    (cub : CubQueries)
    (config : RuntimeConfig) : List (Take build) :=
  let stream4Slots := config.stream4ActiveSortSlots
  let stream4Capacity := config.shardCapacityCandidates
  let stream4SlotItems := stream4Slots * stream4Capacity
  let stream4Blocks := (stream4Capacity + 255) / 256
  [take .hash128 stream4SlotItems,
    take .hash128 stream4SlotItems,
    take .candidateMeta stream4SlotItems,
    take .candidateMeta stream4SlotItems,
    take .uint32 stream4SlotItems,
    take .uint32 stream4SlotItems,
    take .uint64 stream4SlotItems,
    take .uint64 stream4SlotItems,
    take .uint32 stream4SlotItems,
    take .uint32 (stream4Slots * stream4Blocks),
    take .uint32 (stream4Slots * stream4Blocks),
    take .uint32 stream4Slots,
    takeBytes
      (word
        (stream4Slots *
          stream4CubTempBytes word cub stream4Capacity))]

/- The words of the trace that a fatal stop leaves. -/
def streamFatalTraceWords : Nat :=
  26

/- The counts of the banks, the spill and the fatal trace. -/
def spillLayout (config : RuntimeConfig) : List (Take build) :=
  [take .uint32 (storageShardCount config),
    take .uint32 (storageShardCount config),
    take .candidateMeta config.globalSpillCapacity,
    take .candidateMeta config.globalSpillCapacity,
    take .uint32 2,
    take .uint32 1,
    take .uint32 1,
    take .uint64 streamFatalTraceWords]

/- The arrays that the final phases overlay. -/
def transientLayout
    (word : Nat → Nat)
    (cub : CubQueries)
    (config : RuntimeConfig)
    (derived : DerivedConfig) : List (Take build) :=
  ringLayout word config derived ++
    stream3Layout word cub config ++
    traceLayout config ++
    stream5Layout word config ++
    stream4Layout word cub config ++
    spillLayout config

/- The survivors, their histograms and the threshold words. -/
def persistentLayout
    (config : RuntimeConfig) : List (Take build) :=
  let storageShards := storageShardCount config
  let shardHistItems := storageShards * scoreBinCount
  [take .candidateMeta (survivorCount config),
    take .uint32 storageShards,
    take .uint32 shardHistItems,
    take .uint32 shardHistItems,
    take .uint32 storageShards,
    take .uint32 storageShards,
    take .uint64 scoreBinCount,
    take .uint64 scoreBinCount,
    take .uint32 2,
    take .uint32 2,
    take .uint32 1,
    take .uint32 1,
    take .uint32 1]

----------------
-- The Final Layouts
----------------

/-
  The lengths that the final layouts are made of, named once
  for both.
-/
structure FinalLayoutShape where
  frontier : Nat
  requests : Nat
  finalChunk : Nat
  finalExchange : Nat
  finalSlots : Nat
  survivors : Nat
  selectedCapacity : Nat
  survivorBlocks : Nat

/-
  A chunk and an exchange are cut to what the source allows;
  what is selected is no more than what survives.
-/
def makeFinalLayoutShape
    (config : RuntimeConfig)
    (derived : DerivedConfig) : FinalLayoutShape :=
  let frontier := planFrontierStates config derived
  let finalChunk := finalChunkCapacity config frontier
  let survivors := survivorCount config
  { frontier := frontier
    requests := frontier
    finalChunk := finalChunk
    finalExchange := finalExchangeCapacity config finalChunk
    finalSlots := finalMaterializeSlots
    survivors := survivors
    selectedCapacity :=
      min derived.globalBeamWidthEffective survivors
    survivorBlocks := (survivors + 255) / 256 }

/-
  The arrays that both final layouts share. One rank alone
  materializes requests and exchanges nothing.
-/
def finalCommonLayout
    (config : RuntimeConfig)
    (shape : FinalLayoutShape) : List (Take build) :=
  (if config.worldSize > 1 then
      [take .candidateMeta shape.selectedCapacity]
    else
      [take .candidateMeta shape.frontier,
        take .finalRequest shape.requests]) ++
    [take .uint32 1,
      take .uint32 1,
      take .finalRequestValidationError 1,
      take256 .uint32 config.worldSize,
      take256 .uint32 (config.worldSize + 1),
      take256 .uint32 config.worldSize,
      take256 .uint32 (config.worldSize + 1)]

/-
  The arrays of the selection: the marks and the counts of
  their blocks.
-/
def finalSelectLayout
    (shape : FinalLayoutShape) : List (Take build) :=
  [take .uint32 shape.survivors,
    take .uint32 shape.survivorBlocks,
    take .uint32 shape.survivorBlocks]

/-
  The arrays of the materialization. Only several ranks send
  rows to each other.
-/
def finalMaterializeLayout
    (word : Nat → Nat)
    (cub : CubQueries)
    (config : RuntimeConfig)
    (shape : FinalLayoutShape) : List (Take build) :=
  let slotItems := shape.finalSlots * shape.finalExchange
  (if config.worldSize > 1 then
      [take .candidateMeta shape.frontier]
    else
      []) ++
    [take .state128 shape.frontier] ++
    if config.worldSize > 1 then
      [take256 .uint32 slotItems,
        take256 .uint32 slotItems,
        take .finalRequest slotItems,
        take .finalRequest slotItems,
        take .finalRequest slotItems,
        take .finalResponse slotItems,
        take .finalResponse slotItems,
        take .finalHistoryRecord
          (shape.finalSlots * shape.finalChunk),
        take .finalHistoryRecord slotItems,
        takeBytes
          (finalMaterializeCubTempBytes word cub
            (shape.finalExchange % 2 ^ 32))]
    else
      []

/-
  The shared arrays end at 256 bytes, and what follows starts
  there.
-/
def finalCommonBytes
    (build : BuildConstants)
    (word : Nat → Nat)
    (common : List (Take build)) : Nat :=
  alignUp word (extent word 0 (requests build common)) 256

/- A phase's arrays start aligned behind the common ones. -/
def bytesFinal
    (build : BuildConstants)
    (word : Nat → Nat)
    (common phase : List (Take build)) : Nat :=
  alignUp word
    (extent word (finalCommonBytes build word common)
      (requests build phase))
    256

/- The bytes of the final selection. -/
def bytesFinalSelect
    (build : BuildConstants)
    (word : Nat → Nat)
    (config : RuntimeConfig)
    (derived : DerivedConfig) : Nat :=
  let shape := makeFinalLayoutShape config derived
  bytesFinal build word (finalCommonLayout config shape)
    (finalSelectLayout shape)

/- The bytes of the final materialization. -/
def bytesFinalMaterialize
    (build : BuildConstants)
    (word : Nat → Nat)
    (cub : CubQueries)
    (config : RuntimeConfig)
    (derived : DerivedConfig) : Nat :=
  let shape := makeFinalLayoutShape config derived
  bytesFinal build word (finalCommonLayout config shape)
    (finalMaterializeLayout word cub config shape)

/- The largest phase that overlays the transient arrays. -/
def finalLayoutBudget
    (build : BuildConstants)
    (word : Nat → Nat)
    (cub : CubQueries)
    (config : RuntimeConfig)
    (derived : DerivedConfig) : Nat :=
  max
    (max (bytesFinalSelect build word config derived)
      (bytesFinalMaterialize build word cub config derived))
    (bytesUnion build word cub config)

/-
  The bytes of the streams. The final budget is the same
  scratch, so the greater of both counts.
-/
def bytesStreams
    (build : BuildConstants)
    (word : Nat → Nat)
    (cub : CubQueries)
    (config : RuntimeConfig)
    (derived : DerivedConfig) : Nat :=
  let offset :=
    extent word 0
      (requests build (transientLayout word cub config derived))
  let offset :=
    max offset
      (finalLayoutBudget build word cub config derived)
  alignUp word
    (extent word offset
      (requests build (persistentLayout config)))
    256

/-
  The arrays of the solved results: flags, counters and the
  list.
-/
def solvedLayout (config : RuntimeConfig) : List (Take build) :=
  [take .uint32 1,
    take .uint32 1,
    take .uint32 1,
    take .uint32 1,
    take .uint32 1,
    take .candidateMeta config.solvedResultCapacity,
    take .uint32 config.solvedResultCapacity,
    take .uint32 config.solvedResultCapacity,
    take .uint32 1]

/- The bytes of the solved results. -/
def bytesSolved
    (build : BuildConstants)
    (word : Nat → Nat)
    (config : RuntimeConfig) : Nat :=
  extent word 0 (requests build (solvedLayout config))

end Layouts

----------------
-- The Planned Bytes
----------------

/- The static plan with the sizes of its device memory. -/
structure DevicePlan extends StaticMemoryPlan where
  scoreRingCount : Nat
  hashRingCount : Nat
  parentBaseCount : Nat
  ringCountCount : Nat
  stream3CubTempBytes : Nat
  stream4CubTempBytes : Nat
  layoutUnionBytes : Nat
  unionCubTempBytes : Nat
  finalMaterializeCubTempBytes : Nat
  currentFrontierBytes : Nat
  solvedBytes : Nat
  layoutPhase1StreamsBytes : Nat
  layoutPhase2SelectBytes : Nat
  layoutPhase3MaterializeBytes : Nat
  layoutFinalBudgetBytes : Nat
  scratchPoolBytes : Nat
  totalDeviceBytes : Nat

/-
  The scratch is used in turn, so it holds the greatest of its
  users.
-/
def scratchPoolBytes
    (build : BuildConstants)
    (word : Nat → Nat)
    (cub : CubQueries)
    (config : RuntimeConfig)
    (derived : DerivedConfig) : Nat :=
  max
    (max (bytesStreams build word cub config derived)
      (bytesFinalSelect build word config derived))
    (max (bytesFinalMaterialize build word cub config derived)
      config.solveBucketGatherScratchBytes)

/- The bytes of the current frontier. -/
def currentFrontierBytes
    (build : BuildConstants)
    (word : Nat → Nat)
    (config : RuntimeConfig)
    (derived : DerivedConfig) : Nat :=
  word
    (planFrontierStates config derived *
      build.sizeof .state128)

/-
  The device holds the frontier, the solved results and the
  scratch, each rounded up to 256 bytes.
-/
def totalDeviceBytes
    (build : BuildConstants)
    (word : Nat → Nat)
    (cub : CubQueries)
    (config : RuntimeConfig)
    (derived : DerivedConfig) : Nat :=
  word
    (word
        (alignUp word
            (currentFrontierBytes build word config derived)
            256 +
          alignUp word (bytesSolved build word config) 256) +
      alignUp word
        (scratchPoolBytes build word cub config derived) 256)

/- The byte sizes beside the counts of a static plan. -/
def withDeviceBytes
    (build : BuildConstants)
    (word : Nat → Nat)
    (cub : CubQueries)
    (config : RuntimeConfig)
    (plan : StaticMemoryPlan) : DevicePlan :=
  let derived := plan.derived
  let ringCandidates :=
    ringCandidates build word config derived
  let capacity := unionCapacity config
  { plan with
    scoreRingCount := ringCandidates
    hashRingCount := ringCandidates
    parentBaseCount := ringSlots config derived
    ringCountCount := ringSlots config derived
    stream3CubTempBytes := stream3ScratchBytes word cub config
    stream4CubTempBytes :=
      stream4CubTempBytes word cub
        config.shardCapacityCandidates
    layoutUnionBytes := bytesUnion build word cub config
    unionCubTempBytes :=
      if capacity ≠ 0 then
        stream4CubTempBytes word cub capacity
      else
        0
    finalMaterializeCubTempBytes :=
      finalMaterializeCubTempBytes word cub
        (plan.finalMaterializeExchangeCapacity % 2 ^ 32)
    currentFrontierBytes :=
      currentFrontierBytes build word config derived
    solvedBytes := bytesSolved build word config
    layoutPhase1StreamsBytes :=
      bytesStreams build word cub config derived
    layoutPhase2SelectBytes :=
      bytesFinalSelect build word config derived
    layoutPhase3MaterializeBytes :=
      bytesFinalMaterialize build word cub config derived
    layoutFinalBudgetBytes :=
      finalLayoutBudget build word cub config derived
    scratchPoolBytes :=
      scratchPoolBytes build word cub config derived
    totalDeviceBytes :=
      totalDeviceBytes build word cub config derived }

/-
  The plan with its bytes, or the fault that the checks of the
  configuration found.
-/
def planDeviceMemory
    (build : BuildConstants)
    (word : Nat → Nat)
    (cub : CubQueries)
    (config : RuntimeConfig) : Except ConfigError DevicePlan :=
  match makeStaticMemoryPlan build.moveCount config with
  | .error fault => .error fault
  | .ok plan =>
      .ok (withDeviceBytes build word cub config plan)

/- The total without the overflow of any word. -/
def exactDeviceBytes
    (build : BuildConstants)
    (cub : CubQueries)
    (config : RuntimeConfig) : Nat :=
  match planDeviceMemory build id cub config with
  | .error _ => 0
  | .ok plan => plan.totalDeviceBytes

end Memory

end BeamSearch

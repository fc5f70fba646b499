import BeamSearch.Core.Types

/-
  The runtime configuration and the static memory plan.

  A plan fixes the element count of every device array once and
  for all; the dispatcher and the kernels later index the arrays
  by counts that come from elsewhere.

  Main declarations:
    * `RuntimeConfig`
    * `StaticMemoryPlan`
    * `makeStaticMemoryPlan`
    * `buildManualRuntimeConfig`
-/

namespace BeamSearch

namespace Memory

----------------
-- Configurations
----------------

/-
  The configuration of the runtime, by the names of the
  source.
-/
structure RuntimeConfig where
  bMicro : Nat
  inferenceParallelism : Nat
  stream3BatchCandidates : Nat
  stream4BatchCandidates : Nat
  stream4TriggerCandidates : Nat
  stream4BatchAlignment : Nat
  stream4ActiveSortSlots : Nat
  ringCount : Nat
  worldSize : Nat
  localRank : Nat
  shardCount : Nat
  shardBufferCount : Nat
  shardCapacityCandidates : Nat
  shardCapacityScalePpm : Nat
  globalSpillCapacity : Nat
  globalSpillScalePpm : Nat
  stream5RecvCapacityScalePpm : Nat
  finalMaterializeChunkCandidates : Nat
  finalMaterializeExchangeScalePpm : Nat
  userGlobalBeamWidth : Nat
  globalThresholdUpdatePeriodShards : Nat
  solvedResultCapacity : Nat
  solveBucketGatherScratchBytes : Nat
deriving DecidableEq, Repr

/- The checks that a configuration may fail. -/
inductive ConfigError where
  | candidatesPerSlotOverflow
  | stream3BatchNotDivisible
  | stream1Concurrency
  | beamAlignmentOverflow
  | zeroSizedDimension
  | frontierExceedsUint32
  | storageShardCount
  | cubCountRange
  | unionCapacity
  | missingEnv
  | envExceedsUint32
  | rowBudgetTooSmall
  | alignedSizeOverflow
  | divisionByZero
  | invalidScale
  | stream4Alignment
  | stream4Trigger
  | shardCapacityBelowLogical
  | exceedsShardCapacity
  | shardBufferCount
  | ringCount
  | estimateOverflow
  | exceedsBudget
deriving DecidableEq, Repr

/- The greatest 32-bit word, as a number. -/
def uint32Limit : Nat :=
  uint32Max.toNat

/- The greatest 64-bit word, as a number. -/
def uint64Limit : Nat :=
  uint64Max.toNat

/- The largest item count of the sort and reduce primitives. -/
def cubIntMax : Nat :=
  2 ^ 31 - 1

/- What is derived from the configuration. -/
structure DerivedConfig where
  ringSlotCount : Nat
  beamWidthAlignment : Nat
  globalBeamWidthEffective : Nat
deriving DecidableEq, Repr

/- The checks and divisions in the order of the source. -/
def deriveConfig
    (moveCount : Nat)
    (config : RuntimeConfig) :
    Except ConfigError DerivedConfig :=
  let candidatesPerSlot := config.bMicro * moveCount
  let shardDomains := config.worldSize * config.shardCount
  let ringSlotCount :=
    config.stream3BatchCandidates / candidatesPerSlot
  if candidatesPerSlot > uint32Limit then
    .error .candidatesPerSlotOverflow
  else if candidatesPerSlot = 0 ∨
      config.stream3BatchCandidates % candidatesPerSlot ≠ 0 then
    .error .stream3BatchNotDivisible
  else if config.inferenceParallelism = 0 ∨
      config.inferenceParallelism > ringSlotCount then
    .error .stream1Concurrency
  else if config.stream4BatchAlignment ≠ 0 ∧
      shardDomains >
        uint64Limit / config.stream4BatchAlignment then
    .error .beamAlignmentOverflow
  else
    .ok
      { ringSlotCount := ringSlotCount
        beamWidthAlignment :=
          shardDomains * config.stream4BatchAlignment
        globalBeamWidthEffective := config.userGlobalBeamWidth }

----------------
-- The Static Plan
----------------

/- The static plan: the lengths of its arrays. -/
structure StaticMemoryPlan where
  config : RuntimeConfig
  derived : DerivedConfig
  frontierStates : Nat
  stream3Count : Nat
  stream5SlotCount : Nat
  stream5SendSlotCapacity : Nat
  stream5RecvSlotCapacity : Nat
  finalMaterializeSlotCount : Nat
  finalMaterializeChunkCapacity : Nat
  finalMaterializeExchangeCapacity : Nat
  storageShardCount : Nat
  survivorCount : Nat
  finalSelectedCandidateCapacity : Nat
  stream3PartitionCount : Nat
deriving DecidableEq, Repr

/- A count scaled by parts per million, rounded up. -/
def scalePpm (count ppm : Nat) : Nat :=
  (count * ppm + 999999) / 1000000

/-
  A receive slot holds a batch, or more where the scale says
  so.
-/
def stream5RecvSlotCapacity (config : RuntimeConfig) : Nat :=
  max config.stream3BatchCandidates
    (scalePpm config.stream3BatchCandidates
      config.stream5RecvCapacityScalePpm)

/- A rank alone has one slot. -/
def stream5SlotCount (config : RuntimeConfig) : Nat :=
  if config.worldSize > 1 then config.ringCount else 1

/- The element count of the partition arrays, and of their sort. -/
def stream3PartitionCount (config : RuntimeConfig) : Nat :=
  max config.stream3BatchCandidates config.globalSpillCapacity

/- The slots of the materialization. -/
def finalMaterializeSlots : Nat :=
  3

/- A chunk is one state at least and the frontier at most. -/
def finalChunkCapacity
    (config : RuntimeConfig)
    (frontierStates : Nat) : Nat :=
  let requested :=
    if config.finalMaterializeChunkCandidates = 0 then
      config.stream3BatchCandidates
    else
      config.finalMaterializeChunkCandidates
  max 1 (min frontierStates requested)

/-
  An exchange holds a chunk, or more where the scale says so.
-/
def finalExchangeCapacity
    (config : RuntimeConfig)
    (chunkCapacity : Nat) : Nat :=
  max chunkCapacity
    (scalePpm chunkCapacity
      config.finalMaterializeExchangeScalePpm)

/- Two banks of one logical shard form one arena of the final union. -/
def unionCapacityValid (config : RuntimeConfig) : Bool :=
  config.shardBufferCount = 1 ∨
    (config.shardBufferCount = 2 ∧
      config.shardCapacityCandidates ≠ 0 ∧
      config.shardCapacityCandidates ≤ cubIntMax / 2)

/- The frontier of one rank; the rounding sum is a 64-bit one. -/
def planFrontierStates
    (config : RuntimeConfig)
    (derived : DerivedConfig) : Nat :=
  (derived.globalBeamWidthEffective + config.worldSize - 1) %
      2 ^ 64 /
    config.worldSize

/- The plan, or the check that fails first. -/
def makeStaticMemoryPlan
    (moveCount : Nat)
    (config : RuntimeConfig) :
    Except ConfigError StaticMemoryPlan :=
  match deriveConfig moveCount config with
  | .error fault => .error fault
  | .ok derived =>
      let width := derived.globalBeamWidthEffective
      let frontierStates := planFrontierStates config derived
      let chunkCapacity :=
        finalChunkCapacity config frontierStates
      let exchangeCapacity :=
        finalExchangeCapacity config chunkCapacity
      let storageShardCount :=
        config.shardCount * config.shardBufferCount
      let survivorCount :=
        storageShardCount * config.shardCapacityCandidates
      let partitionCount := stream3PartitionCount config
      if config.bMicro = 0 ∨ config.ringCount = 0 ∨
          derived.ringSlotCount = 0 ∨ config.worldSize = 0 ∨
          config.shardCount = 0 ∨
          config.stream4ActiveSortSlots = 0 ∨
          config.shardCapacityCandidates = 0 ∨ width = 0 then
        .error .zeroSizedDimension
      else if frontierStates > uint32Limit then
        .error .frontierExceedsUint32
      else if storageShardCount = 0 ∨
          storageShardCount > uint32Limit then
        .error .storageShardCount
      else if config.stream3BatchCandidates > cubIntMax ∨
          partitionCount > cubIntMax ∨
          config.shardCapacityCandidates > cubIntMax then
        .error .cubCountRange
      else if unionCapacityValid config = false then
        .error .unionCapacity
      else if exchangeCapacity % 2 ^ 32 > cubIntMax then
        .error .cubCountRange
      else
        .ok
          { config := config
            derived := derived
            frontierStates := frontierStates
            stream3Count := config.stream3BatchCandidates
            stream5SlotCount := stream5SlotCount config
            stream5SendSlotCapacity :=
              config.stream3BatchCandidates
            stream5RecvSlotCapacity :=
              stream5RecvSlotCapacity config
            finalMaterializeSlotCount := finalMaterializeSlots
            finalMaterializeChunkCapacity := chunkCapacity
            finalMaterializeExchangeCapacity := exchangeCapacity
            storageShardCount := storageShardCount
            survivorCount := survivorCount
            finalSelectedCandidateCapacity :=
              min width survivorCount
            stream3PartitionCount := partitionCount }

/- What a plan says about the configuration it was made from. -/
theorem makeStaticMemoryPlan_spec
    {moveCount : Nat}
    {config : RuntimeConfig}
    {plan : StaticMemoryPlan}
    (hPlan : makeStaticMemoryPlan moveCount config = .ok plan) :
    plan.config = config ∧
      plan.stream5RecvSlotCapacity =
        stream5RecvSlotCapacity config ∧
      plan.stream3PartitionCount =
        stream3PartitionCount config ∧
      plan.stream3PartitionCount ≤ cubIntMax ∧
      0 < config.worldSize ∧
      plan.frontierStates ≤ uint32Limit := by
  unfold makeStaticMemoryPlan at hPlan
  cases hDerived : deriveConfig moveCount config with
  | error fault => simp [hDerived] at hPlan
  | ok derived =>
      simp only [hDerived] at hPlan
      split_ifs at hPlan with hZero hFrontier hStorage hCub hUnion
        hExchange
      injection hPlan with hPlan
      subst hPlan
      refine ⟨rfl, rfl, rfl, ?_, ?_, ?_⟩
      · change stream3PartitionCount config ≤ cubIntMax
        omega
      · omega
      · change planFrontierStates config derived ≤ uint32Limit
        omega

----------------
-- Manual Configurations
----------------

/- The numeric environment variables of a manual configuration. -/
inductive EnvVar where
  | bMicro
  | stream4BatchAlignment
  | stream4BatchCandidatesPerShardUnit
  | stream4ActiveSortSlots
  | stream1Concurrency
  | shardBufferCount
  | shardCapacityScalePpm
  | globalSpillScalePpm
  | stream5RecvCapacityScalePpm
  | finalMaterializeChunkCandidates
  | finalMaterializeExchangeScalePpm
  | globalThresholdUpdatePeriodShards
  | solvedResultCapacity
  | solveBucketGatherScratchBytes
  | gpuHeadroomBytes
  | stream3RingSlots
  | shardCount
  | stream4BatchCandidates
  | stream4TriggerCandidates
  | shardCapacityCandidates
  | globalSpillCapacity
  | stream3BatchCandidates
  | ringCount
  | ringCountLimit
  | minStream4JobsPerShard
  | targetStream4JobsPerShard
  | targetShardsPerSortSlot
  | stream4FlowScalePpm
deriving DecidableEq, Repr

/- The value of every variable that is set. -/
abbrev Env : Type :=
  EnvVar → Option Nat

/- A 32-bit variable, or its default. -/
def envU32
    (env : Env)
    (name : EnvVar)
    (defaultValue : Nat) : Except ConfigError Nat :=
  match env name with
  | none => .ok defaultValue
  | some value =>
      if value > uint32Limit then .error .envExceedsUint32
      else .ok value

/- A 64-bit variable, or its default. -/
def envU64
    (env : Env)
    (name : EnvVar)
    (defaultValue : Nat) : Nat :=
  (env name).getD defaultValue

/- A variable without a default. -/
def requiredEnvU32
    (env : Env)
    (name : EnvVar) : Except ConfigError Nat :=
  match env name with
  | none => .error .missingEnv
  | some _ => envU32 env name 0

/- The next multiple, refused where it overflows. -/
def roundUp (value alignment : Nat) : Except ConfigError Nat :=
  if alignment = 0 then
    .ok value
  else
    let remainder := value % alignment
    let increment :=
      if remainder = 0 then 0 else alignment - remainder
    if increment > uint64Limit - value then
      .error .alignedSizeOverflow
    else
      .ok (value + increment)

/- Rounded up, refused for a zero denominator. -/
def ceilDivU64
    (numerator denominator : Nat) : Except ConfigError Nat :=
  if denominator = 0 then
    .error .divisionByZero
  else
    .ok
      (numerator / denominator +
        (if numerator % denominator ≠ 0 then 1 else 0))

/- The rows of one rank, after the beam was aligned. -/
def localFrontierCapacity
    (config : RuntimeConfig) : Except ConfigError Nat := do
  let alignment :=
    config.worldSize * config.shardCount *
      config.stream4BatchAlignment
  if alignment > uint64Limit then
    .error .beamAlignmentOverflow
  else
    let width ← roundUp config.userGlobalBeamWidth alignment
    ceilDivU64 width config.worldSize

/- The rows of one shard. -/
def logicalShardSizeFor
    (config : RuntimeConfig) : Except ConfigError Nat := do
  let capacity ← localFrontierCapacity config
  ceilDivU64 capacity config.shardCount

/- The batch of some ring slots, checked as a 32-bit word. -/
def setStream3BatchFromRingSlots
    (moveCount ringSlotCount : Nat)
    (config : RuntimeConfig) :
    Except ConfigError RuntimeConfig :=
  let stream3Batch :=
    ringSlotCount * (config.bMicro * moveCount)
  if ringSlotCount = 0 ∨ stream3Batch = 0 ∨
      stream3Batch > uint32Limit then
    .error .stream3BatchNotDivisible
  else
    .ok { config with stream3BatchCandidates := stream3Batch }

/- A batch that is no whole number of slots is refused. -/
def setStream3BatchFromCandidates
    (moveCount stream3Batch : Nat)
    (config : RuntimeConfig) :
    Except ConfigError RuntimeConfig :=
  let slotCandidates := config.bMicro * moveCount
  if stream3Batch = 0 ∨ slotCandidates = 0 ∨
      stream3Batch % slotCandidates ≠ 0 then
    .error .stream3BatchNotDivisible
  else
    .ok { config with stream3BatchCandidates := stream3Batch }

/- Physical rings for the logical staging, unless a limit is set. -/
def setRingCountFromLogicalShard
    (env : Env)
    (stagingRingSlots : Nat)
    (config : RuntimeConfig) :
    Except ConfigError RuntimeConfig := do
  let logicalShardSize ← logicalShardSizeFor config
  let rings ←
    ceilDivU64 (logicalShardSize * max 1 stagingRingSlots)
      config.stream3BatchCandidates
  let limit ← envU32 env .ringCountLimit 16
  let rings :=
    if (env .ringCountLimit).isSome then min rings limit
    else rings
  if rings = 0 ∨ rings > uint32Limit then
    .error .ringCount
  else
    .ok { config with ringCount := rings }

/- The part of the configuration both modes read first. -/
def baseRuntimeConfig
    (env : Env)
    (moveCount rowsPerParent : Nat)
    (beam worldSize localRank : Nat) :
    Except ConfigError RuntimeConfig := do
  let rowBudget ← envU32 env .bMicro 8192
  let alignment ←
    if (env .stream4BatchAlignment).isSome then
      envU32 env .stream4BatchAlignment 1024
    else
      envU32 env .stream4BatchCandidatesPerShardUnit 1024
  let sortSlots ← envU32 env .stream4ActiveSortSlots 4
  let concurrency ← envU32 env .stream1Concurrency 1
  let buffers ← envU32 env .shardBufferCount 2
  let capacityScale ← envU32 env .shardCapacityScalePpm 1250000
  let spillScale ← envU32 env .globalSpillScalePpm 2000000
  let recvScale ←
    envU32 env .stream5RecvCapacityScalePpm 2000000
  let chunk ← envU32 env .finalMaterializeChunkCandidates 0
  let exchangeScale ←
    envU32 env .finalMaterializeExchangeScalePpm
      (if worldSize > uint32Limit / 1000000 then uint32Limit
        else worldSize * 1000000)
  let period ←
    envU32 env .globalThresholdUpdatePeriodShards 64
  let solved ← envU32 env .solvedResultCapacity 1024
  if rowBudget < rowsPerParent then
    .error .rowBudgetTooSmall
  else if rowBudget / rowsPerParent = 0 ∨ concurrency = 0 ∨
      alignment = 0 ∨ sortSlots = 0 ∨ buffers ≠ 2 ∨
      capacityScale = 0 ∨ spillScale = 0 ∨ recvScale = 0 ∨
      exchangeScale = 0 then
    .error .invalidScale
  else
    .ok
      { bMicro := rowBudget / rowsPerParent
        inferenceParallelism := concurrency
        stream3BatchCandidates := 256 * moveCount
        stream4BatchCandidates := 65536
        stream4TriggerCandidates := 65536
        stream4BatchAlignment := alignment
        stream4ActiveSortSlots := sortSlots
        ringCount := 4
        worldSize := worldSize
        localRank := localRank
        shardCount := 64
        shardBufferCount := buffers
        shardCapacityCandidates := 131072
        shardCapacityScalePpm := capacityScale
        globalSpillCapacity := 1048576
        globalSpillScalePpm := spillScale
        stream5RecvCapacityScalePpm := recvScale
        finalMaterializeChunkCandidates := chunk
        finalMaterializeExchangeScalePpm := exchangeScale
        userGlobalBeamWidth := beam
        globalThresholdUpdatePeriodShards := period
        solvedResultCapacity := solved
        solveBucketGatherScratchBytes :=
          envU64 env .solveBucketGatherScratchBytes 0 }

/- The Stream 4 scales, read in both modes; none may be zero. -/
def stream4FlowScale (env : Env) : Except ConfigError Nat := do
  let minJobs ← envU32 env .minStream4JobsPerShard 1
  let targetJobs ← envU32 env .targetStream4JobsPerShard 4
  let targetShards ← envU32 env .targetShardsPerSortSlot 4
  let flowScale ← envU32 env .stream4FlowScalePpm 2500000
  if minJobs = 0 ∨ targetJobs = 0 ∨ targetShards = 0 ∨
      flowScale = 0 then
    .error .invalidScale
  else
    .ok flowScale

/- The least exponent whose power is not below the value. -/
def ceilLog2U64 (value : Nat) : Nat :=
  if value ≤ 1 then 0 else Nat.log2 (value - 1) + 1

/- The estimates of a configuration are computed with checked products. -/
def checkEstimates
    (moveCount flowScale : Nat)
    (config : RuntimeConfig) : Except ConfigError Unit := do
  let capacity ← localFrontierCapacity config
  let gross := capacity * moveCount
  let stream4Input := scalePpm gross flowScale
  let stream3Work :=
    gross * max 1 (ceilLog2U64 config.stream3BatchCandidates)
  let stream4Work :=
    stream4Input *
      max 1 (ceilLog2U64 config.stream4BatchCandidates)
  if gross > uint64Limit ∨ stream4Input > uint64Limit ∨
      stream3Work > uint64Limit ∨ stream4Work > uint64Limit then
    .error .estimateOverflow
  else
    .ok ()

/- The configuration the manual mode reads, before its checks. -/
def readManualRuntimeConfig
    (env : Env)
    (moveCount rowsPerParent : Nat)
    (beam worldSize localRank : Nat) :
    Except ConfigError RuntimeConfig := do
  let base ←
    baseRuntimeConfig env moveCount rowsPerParent beam worldSize
      localRank
  let ringSlots ← requiredEnvU32 env .stream3RingSlots
  let shardCount ← requiredEnvU32 env .shardCount
  let buffers ← envU32 env .shardBufferCount 2
  let stream4Batch ← requiredEnvU32 env .stream4BatchCandidates
  let trigger ←
    envU32 env .stream4TriggerCandidates stream4Batch
  let shardCapacity ←
    requiredEnvU32 env .shardCapacityCandidates
  let spill ←
    if buffers > 1 then envU32 env .globalSpillCapacity 0
    else requiredEnvU32 env .globalSpillCapacity
  let config :=
    { base with
      shardCount := shardCount
      shardBufferCount := buffers
      stream4BatchCandidates := stream4Batch
      stream4TriggerCandidates := trigger
      shardCapacityCandidates := shardCapacity
      globalSpillCapacity := spill }
  let config ←
    if (env .stream3BatchCandidates).isSome then do
      let batch ← requiredEnvU32 env .stream3BatchCandidates
      setStream3BatchFromCandidates moveCount batch config
    else
      setStream3BatchFromRingSlots moveCount ringSlots config
  let effectiveRingSlots :=
    config.stream3BatchCandidates / (config.bMicro * moveCount)
  if config.inferenceParallelism > effectiveRingSlots then
    .error .stream1Concurrency
  else if (env .ringCount).isSome then do
    let rings ← envU32 env .ringCount 1
    .ok { config with ringCount := rings }
  else
    setRingCountFromLogicalShard env ringSlots config

/- The checks of a configuration that was set by hand. -/
def checkManualRuntimeConfig
    (config : RuntimeConfig) : Except ConfigError Unit := do
  let logicalShardSize ← logicalShardSizeFor config
  if config.stream4BatchCandidates %
      config.stream4BatchAlignment ≠ 0 then
    .error .stream4Alignment
  else if config.stream4TriggerCandidates = 0 then
    .error .stream4Trigger
  else if config.shardCapacityCandidates <
      logicalShardSize then
    .error .shardCapacityBelowLogical
  else if config.stream4BatchCandidates >
        config.shardCapacityCandidates ∨
      config.stream4TriggerCandidates >
        config.shardCapacityCandidates ∨
      config.stream3BatchCandidates >
        config.shardCapacityCandidates then
    .error .exceedsShardCapacity
  else if config.shardBufferCount ≠ 2 then
    .error .shardBufferCount
  else if config.ringCount = 0 then
    .error .ringCount
  else
    .ok ()

/-
  A manual configuration, accepted when its plan fits the
  budget. `requiredDeviceBytes` is the byte size of a
  configuration's layout and of the read-only tables.
-/
def buildManualRuntimeConfig
    (requiredDeviceBytes : RuntimeConfig → Nat)
    (env : Env)
    (moveCount rowsPerParent : Nat)
    (beam worldSize localRank freeBeforeBytes : Nat) :
    Except ConfigError StaticMemoryPlan := do
  let flowScale ← stream4FlowScale env
  let headroom := envU64 env .gpuHeadroomBytes 805306368
  let config ←
    readManualRuntimeConfig env moveCount rowsPerParent beam
      worldSize localRank
  checkManualRuntimeConfig config
  let plan ← makeStaticMemoryPlan moveCount config
  checkEstimates moveCount flowScale config
  if requiredDeviceBytes config > freeBeforeBytes - headroom then
    .error .exceedsBudget
  else
    .ok plan

/- A configuration that passes every check is accepted within the budget. -/
theorem buildManualRuntimeConfig_eq_ok
    {requiredDeviceBytes : RuntimeConfig → Nat}
    {env : Env}
    {moveCount rowsPerParent beam worldSize localRank
      freeBeforeBytes flowScale : Nat}
    {config : RuntimeConfig}
    {plan : StaticMemoryPlan}
    (hFlow : stream4FlowScale env = .ok flowScale)
    (hRead :
      readManualRuntimeConfig env moveCount rowsPerParent beam
          worldSize localRank =
        .ok config)
    (hCheck : checkManualRuntimeConfig config = .ok ())
    (hPlan : makeStaticMemoryPlan moveCount config = .ok plan)
    (hEstimates :
      checkEstimates moveCount flowScale config = .ok ())
    (hBudget :
      requiredDeviceBytes config ≤
        freeBeforeBytes -
          envU64 env .gpuHeadroomBytes 805306368) :
    buildManualRuntimeConfig requiredDeviceBytes env moveCount
        rowsPerParent beam worldSize localRank freeBeforeBytes =
      .ok plan := by
  unfold buildManualRuntimeConfig
  simp only [hFlow, hRead, hCheck, hPlan, hEstimates, bind,
    Except.bind]
  exact if_neg (Nat.not_lt.mpr hBudget)

end Memory

end BeamSearch

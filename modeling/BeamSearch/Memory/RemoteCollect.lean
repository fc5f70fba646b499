import BeamSearch.Memory.RuntimeConfig
import BeamSearch.Stream3.Partition

/-
  Collecting the received rows through the partition scratch.

  The partition arrays hold one Stream 3 batch or one global
  spill, whichever is larger. The rows a rank may receive are
  bounded by the receive slot instead, which is scaled from the
  batch.

  Main declarations:
    * `checkRecvCounts`
    * `collectRemoteRecv`
    * `collectRemoteRecv_inside_iff`
-/

namespace BeamSearch

open SegmentedReduce Stream3

namespace Memory

----------------
-- The Received Total
----------------

/- The two checks of the receive loop. -/
inductive ExchangeError where
  | recvExceedsUint32
  | recvExceedsSlotCapacity
deriving DecidableEq, Repr

/- One peer more; the sum is checked before it is used. -/
def recvTotalStep
    (recvCount : Nat → Nat)
    (total peer : Nat) : Except ExchangeError Nat :=
  if total + recvCount peer > uint32Limit then
    .error .recvExceedsUint32
  else
    .ok (total + recvCount peer)

/- The host's check of the counts a round receives. -/
def checkRecvCounts
    (plan : StaticMemoryPlan)
    (recvCount : Nat → Nat) : Except ExchangeError Nat :=
  match
    (List.range plan.config.worldSize).foldlM
      (recvTotalStep recvCount) 0
  with
  | .error fault => .error fault
  | .ok total =>
      if total > plan.stream5RecvSlotCapacity then
        .error .recvExceedsSlotCapacity
      else
        .ok total

----------------
-- What The Launch Touches
----------------

/- The arrays of the partition. -/
inductive PartitionArray where
  | keyA
  | keyB
  | valA
  | valB
deriving DecidableEq, Repr

/- A place of an array that is read or written. -/
abbrev Access : Type :=
  PartitionArray × Nat

/- The array elements a launch reads or writes, and its sorts. -/
structure CollectTrace where
  accesses : List Access
  sortItems : List Nat

/-
  The threads inside the count read and write their own place.
-/
def fillAccesses (maxCandidates : Nat) : List Access :=
  let grid := (maxCandidates + 255) / 256
  (List.range (grid * 256)).flatMap fun i =>
    if i ≥ maxCandidates then [] else [(.keyA, i), (.valA, i)]

/- The sort works on all its places, in both buffers. -/
def sortAccesses (items : Nat) : List Access :=
  (List.range items).flatMap fun i =>
    [(.keyA, i), (.valA, i), (.keyB, i), (.valB, i)]

/- The count reads the sorted keys. -/
def reduceAccesses (items : Nat) : List Access :=
  (List.range items).map fun i => (.keyB, i)

/- A group's rows are read from its offset on. -/
def scatterAccesses
    (geometry : ShardGeometry)
    (counts : PartitionCounts)
    (group : Nat × Nat) : List Access :=
  if group.1 ≥ geometry.shardCount then
    []
  else
    (List.range group.2).map fun index =>
      (.valB, counts.shardOffsets group.1 + index)

/- The collection with the trace of its accesses. -/
def stream3CollectRemoteRecv
    (cub : PartitionCub)
    (geometry : ShardGeometry)
    (banks : Banks)
    (fatal : Bool)
    (remoteRecvBuffer : Nat → CandidateMeta)
    (recvTotal maxCandidates : Nat) : CollectTrace :=
  let pairs :=
    partitionPairs remoteRecvBuffer recvTotal maxCandidates
      geometry.shardCount
  let groups := partitionGroups cub pairs
  let counts := preparePartitionCounts geometry banks groups
  let fatal := fatal || counts.doubleBufferOverflow
  { accesses :=
      fillAccesses maxCandidates ++
        sortAccesses maxCandidates ++
        reduceAccesses maxCandidates ++
        (if fatal = true then []
          else groups.flatMap (scatterAccesses geometry counts))
    sortItems := [maxCandidates] }

/- The collection of one exchange; nothing is launched for no rows. -/
def collectRemoteRecv
    (cub : PartitionCub)
    (plan : StaticMemoryPlan)
    (banks : Banks)
    (fatal : Bool)
    (remoteRecvBuffer : Nat → CandidateMeta)
    (recvTotal : Nat) : CollectTrace :=
  if recvTotal ≠ 0 then
    stream3CollectRemoteRecv cub
      { shardCount := plan.config.shardCount
        shardCapacity := plan.config.shardCapacityCandidates }
      banks fatal remoteRecvBuffer recvTotal
      (recvTotal % 2 ^ 32)
  else
    { accesses := [], sortItems := [] }

/- Every access is inside the planned arrays, and every sort in its scratch. -/
def CollectTrace.Inside
    (trace : CollectTrace)
    (plan : StaticMemoryPlan) : Prop :=
  (∀ access ∈ trace.accesses,
    access.2 < plan.stream3PartitionCount) ∧
    ∀ items ∈ trace.sortItems,
      items ≤ plan.stream3PartitionCount

----------------
-- Offsets Stay Below The Item Count
----------------

/- The rows of the groups lie inside the received ones. -/
theorem prepare_offsets_le
    (geometry : ShardGeometry)
    (banks : Banks)
    (groups : List (Nat × Nat))
    (hStrict : groups.Pairwise fun a b => a.1 < b.1) :
    let counts := preparePartitionCounts geometry banks groups
    counts.sourceRunning ≤ (groups.map Prod.snd).sum ∧
      ∀ group ∈ groups, group.1 < geometry.shardCount →
        counts.shardOffsets group.1 + group.2 ≤
          counts.sourceRunning := by
  induction groups using List.reverseRecOn with
  | nil => simp [preparePartitionCounts]
  | append_singleton groups last ih =>
      rw [List.pairwise_append] at hStrict
      rcases hStrict with ⟨hGroups, -, hLast⟩
      have hCounts :
          preparePartitionCounts geometry banks
              (groups ++ [last]) =
            preparePartitionGroup geometry banks
              (preparePartitionCounts geometry banks groups)
              last := by
        simp only [preparePartitionCounts, List.foldl_append,
          List.foldl_cons, List.foldl_nil]
      simp only [hCounts]
      generalize preparePartitionCounts geometry banks groups =
        before at ih
      rcases ih hGroups with ⟨hRunning, hOffsets⟩
      have hSum :
          ((groups ++ [last]).map Prod.snd).sum =
            (groups.map Prod.snd).sum + last.2 := by
        simp
      rw [hSum]
      unfold preparePartitionGroup
      by_cases hPadding : last.1 ≥ geometry.shardCount
      · simp only [if_pos hPadding]
        refine ⟨by omega, ?_⟩
        intro group hGroup hShard
        rcases List.mem_append.mp hGroup with hOld | hNew
        · exact hOffsets group hOld hShard
        · rw [List.mem_singleton.mp hNew] at hShard
          omega
      · simp only [if_neg hPadding]
        refine ⟨by omega, ?_⟩
        intro group hGroup hShard
        rcases List.mem_append.mp hGroup with hOld | hNew
        · have hNe : group.1 ≠ last.1 :=
            (hLast group hOld last (List.mem_singleton_self _)).ne
          have hAt := hOffsets group hOld hShard
          rw [Function.update_of_ne hNe]
          omega
        · rw [List.mem_singleton.mp hNew, Function.update_self]

/- The groups have all pairs. -/
theorem sum_partitionGroups
    (cub : PartitionCub)
    (pairs : List (Nat × CandidateMeta)) :
    ((partitionGroups cub pairs).map Prod.snd).sum =
      pairs.length := by
  unfold partitionGroups
  rw [(cub.reduceByKey.reduces _).sum_eq, List.map_map]
  have hOnes :
      (cub.sortPairs.run pairs).map
          (Prod.snd ∘ fun p => (p.1, 1)) =
        List.replicate pairs.length 1 := by
    rw [← cub.sortPairs.length_run pairs]
    exact List.map_const'
  rw [hOnes, List.sum_replicate_nat, Nat.mul_one]

----------------
-- The Bound
----------------

/- All accesses of a launch lie below its item count. -/
theorem stream3CollectRemoteRecv_accesses_lt
    (cub : PartitionCub)
    (geometry : ShardGeometry)
    (banks : Banks)
    (fatal : Bool)
    (remoteRecvBuffer : Nat → CandidateMeta)
    (recvTotal maxCandidates : Nat) :
    ∀ access ∈
      (stream3CollectRemoteRecv cub geometry banks fatal
        remoteRecvBuffer recvTotal maxCandidates).accesses,
      access.2 < maxCandidates := by
  intro access hAccess
  rcases List.mem_append.mp hAccess with hRest | hScatter
  · rcases List.mem_append.mp hRest with hRest | hReduce
    · rcases List.mem_append.mp hRest with hFill | hSort
      · rcases List.mem_flatMap.mp hFill with ⟨i, -, hI⟩
        split_ifs at hI with hGuard
        · exact absurd hI List.not_mem_nil
        · simp only [List.mem_cons, List.not_mem_nil,
            or_false] at hI
          rcases hI with rfl | rfl <;> exact Nat.not_le.mp hGuard
      · rcases List.mem_flatMap.mp hSort with ⟨i, hLt, hI⟩
        have hLt := List.mem_range.mp hLt
        simp only [List.mem_cons, List.not_mem_nil,
          or_false] at hI
        rcases hI with rfl | rfl | rfl | rfl <;> exact hLt
    · rcases List.mem_map.mp hReduce with ⟨i, hLt, rfl⟩
      exact List.mem_range.mp hLt
  · split_ifs at hScatter with hFatal
    · exact absurd hScatter List.not_mem_nil
    · rcases List.mem_flatMap.mp hScatter with
        ⟨group, hGroup, hIn⟩
      unfold scatterAccesses at hIn
      split_ifs at hIn with hPadding
      · exact absurd hIn List.not_mem_nil
      · rcases List.mem_map.mp hIn with ⟨index, hIndex, rfl⟩
        have hIndex := List.mem_range.mp hIndex
        have hLength :
            (partitionPairs remoteRecvBuffer recvTotal
              maxCandidates geometry.shardCount).length =
              maxCandidates := by
          simp [partitionPairs]
        rcases prepare_offsets_le geometry banks _
            (partitionGroups_spec cub
              (partitionPairs remoteRecvBuffer recvTotal
                maxCandidates geometry.shardCount)).1 with
          ⟨hRunning, hOffsets⟩
        have hAt :=
          hOffsets group hGroup (Nat.not_le.mp hPadding)
        rw [sum_partitionGroups, hLength] at hRunning
        change _ + index < maxCandidates
        omega

/- A total that passed the checks is a 32-bit word. -/
theorem recvTotal_le
    {recvCount : Nat → Nat}
    {worldSize total : Nat}
    (hTotal :
      (List.range worldSize).foldlM (recvTotalStep recvCount) 0 =
        Except.ok total) :
    total ≤ uint32Limit := by
  cases worldSize with
  | zero =>
      have hZero : total = 0 := by
        simpa [pure, Except.pure] using hTotal.symm
      omega
  | succ worldSize =>
      rw [List.range_succ, List.foldlM_append] at hTotal
      cases hBefore :
          (List.range worldSize).foldlM
            (recvTotalStep recvCount) 0 with
      | error fault =>
          rw [hBefore] at hTotal
          exact absurd hTotal (by simp [bind, Except.bind])
      | ok before =>
          rw [hBefore] at hTotal
          have hLast :
              recvTotalStep recvCount before worldSize =
                .ok total :=
            (bind_pure
              (recvTotalStep recvCount before
                worldSize)).symm.trans hTotal
          unfold recvTotalStep at hLast
          split_ifs at hLast with hGuard
          injection hLast with hLast
          omega

/-
  The collection stays inside the planned scratch exactly when
  the received rows fit one Stream 3 batch or the global spill.
-/
theorem collectRemoteRecv_inside_iff
    {moveCount : Nat}
    {config : RuntimeConfig}
    {plan : StaticMemoryPlan}
    {recvCount : Nat → Nat}
    {recvTotal : Nat}
    (cub : PartitionCub)
    (banks : Banks)
    (fatal : Bool)
    (remoteRecvBuffer : Nat → CandidateMeta)
    (hPlan : makeStaticMemoryPlan moveCount config = .ok plan)
    (hCheck : checkRecvCounts plan recvCount = .ok recvTotal) :
    (collectRemoteRecv cub plan banks fatal remoteRecvBuffer
        recvTotal).Inside plan ↔
      recvTotal ≤
        max config.stream3BatchCandidates
          config.globalSpillCapacity := by
  rcases makeStaticMemoryPlan_spec hPlan with
    ⟨-, -, hCount, -⟩
  have hSmall : recvTotal % 2 ^ 32 = recvTotal := by
    unfold checkRecvCounts at hCheck
    cases hTotal :
        (List.range plan.config.worldSize).foldlM
          (recvTotalStep recvCount) 0 with
    | error fault =>
        rw [hTotal] at hCheck
        cases hCheck
    | ok total =>
        rw [hTotal] at hCheck
        simp only at hCheck
        split_ifs at hCheck with hGuard
        injection hCheck with hEq
        have hLe := recvTotal_le hTotal
        rw [uint32Limit, toNat_uint32Max] at hLe
        omega
  unfold CollectTrace.Inside collectRemoteRecv
  rw [hCount, hSmall]
  change _ ↔ recvTotal ≤ stream3PartitionCount config
  by_cases hRows : recvTotal ≠ 0
  · simp only [if_pos hRows]
    constructor
    · intro hInside
      exact hInside.2 recvTotal (List.mem_singleton_self _)
    · intro hFits
      constructor
      · intro access hAccess
        exact (stream3CollectRemoteRecv_accesses_lt cub _ banks
          fatal remoteRecvBuffer recvTotal recvTotal access
          hAccess).trans_le hFits
      · intro items hItems
        rw [List.mem_singleton.mp hItems]
        exact hFits
  · rw [not_not.mp hRows]
    simp

----------------
-- Skewed Traffic
----------------

/- Four ranks with one slot of four candidates and no global spill. -/
def skewedEnv : Env
  | .bMicro => some 1
  | .stream4BatchAlignment => some 1
  | .stream3RingSlots => some 1
  | .shardCount => some 1
  | .stream4BatchCandidates => some 1
  | .shardCapacityCandidates => some 64
  | .ringCount => some 1
  | _ => none

/-
  A configuration whose receive slots are larger than a batch.
-/
def skewedConfig : RuntimeConfig :=
  { bMicro := 1
    inferenceParallelism := 1
    stream3BatchCandidates := 4
    stream4BatchCandidates := 1
    stream4TriggerCandidates := 1
    stream4BatchAlignment := 1
    stream4ActiveSortSlots := 4
    ringCount := 1
    worldSize := 4
    localRank := 0
    shardCount := 1
    shardBufferCount := 2
    shardCapacityCandidates := 64
    shardCapacityScalePpm := 1250000
    globalSpillCapacity := 0
    globalSpillScalePpm := 2000000
    stream5RecvCapacityScalePpm := 2000000
    finalMaterializeChunkCandidates := 0
    finalMaterializeExchangeScalePpm := 4000000
    userGlobalBeamWidth := 8
    globalThresholdUpdatePeriodShards := 64
    solvedResultCapacity := 1024
    solveBucketGatherScratchBytes := 0 }

/- Its plan. -/
def skewedPlan : StaticMemoryPlan :=
  { config := skewedConfig
    derived :=
      { ringSlotCount := 1
        beamWidthAlignment := 4
        globalBeamWidthEffective := 8 }
    frontierStates := 2
    stream3Count := 4
    stream5SlotCount := 1
    stream5SendSlotCapacity := 4
    stream5RecvSlotCapacity := 8
    finalMaterializeSlotCount := 3
    finalMaterializeChunkCapacity := 2
    finalMaterializeExchangeCapacity := 8
    storageShardCount := 2
    survivorCount := 128
    finalSelectedCandidateCapacity := 8
    stream3PartitionCount := 4 }

/- Rank 0 receives three, three and two rows. -/
def skewedRecvCount (peer : Nat) : Nat :=
  if peer = 0 then 0 else if peer = 3 then 2 else 3

/- Banks without rows. -/
def emptyBanks : Banks :=
  { cleanCount := fun _ => 0
    dirtyCount := fun _ => 0
    processingFlag := fun _ => 0
    writeBufferIndex := fun _ => 0 }

/- Whatever the byte sizes are, a large enough device accepts the plan. -/
theorem buildManualRuntimeConfig_skewed
    (requiredDeviceBytes : RuntimeConfig → Nat) :
    buildManualRuntimeConfig requiredDeviceBytes skewedEnv 4 1 8
        4 0 (requiredDeviceBytes skewedConfig + 805306368) =
      .ok skewedPlan := by
  have hBudget :
      requiredDeviceBytes skewedConfig ≤
        requiredDeviceBytes skewedConfig + 805306368 -
          envU64 skewedEnv .gpuHeadroomBytes 805306368 :=
    (Nat.add_sub_cancel _ _).ge
  exact buildManualRuntimeConfig_eq_ok
    (show stream4FlowScale skewedEnv = .ok 2500000 from rfl)
    (show readManualRuntimeConfig skewedEnv 4 1 8 4 0 =
      .ok skewedConfig from rfl)
    (show checkManualRuntimeConfig skewedConfig = .ok ()
      from rfl)
    (show makeStaticMemoryPlan 4 skewedConfig = .ok skewedPlan
      from rfl)
    (show checkEstimates 4 2500000 skewedConfig = .ok ()
      from rfl)
    hBudget

/- The iff at the skewed plan: five rows are too many. -/
theorem collectRemoteRecv_inside_iff_skewed :
    (collectRemoteRecv foldPartitionCub skewedPlan emptyBanks
        false (fun _ => emptyCandidate) 8).Inside skewedPlan ↔
      8 ≤ max 4 0 :=
  collectRemoteRecv_inside_iff foldPartitionCub emptyBanks false
    (fun _ => emptyCandidate)
    (show makeStaticMemoryPlan 4 skewedConfig = .ok skewedPlan
      from rfl)
    (show checkRecvCounts skewedPlan skewedRecvCount = .ok 8
      from rfl)

/-
  An accepted configuration and accepted receive counts whose
  collection writes past the partition arrays and sorts more
  items than its scratch was sized for.
-/
theorem collectRemoteRecv_outside_skewed :
    (∀ requiredDeviceBytes : RuntimeConfig → Nat,
      buildManualRuntimeConfig requiredDeviceBytes skewedEnv 4 1
          8 4 0
          (requiredDeviceBytes skewedConfig + 805306368) =
        .ok skewedPlan) ∧
      checkRecvCounts skewedPlan skewedRecvCount = .ok 8 ∧
      (PartitionArray.keyA, 7) ∈
        (collectRemoteRecv foldPartitionCub skewedPlan
          emptyBanks false (fun _ => emptyCandidate)
          8).accesses ∧
      ¬ 7 < skewedPlan.stream3PartitionCount ∧
      8 ∈
        (collectRemoteRecv foldPartitionCub skewedPlan
          emptyBanks false (fun _ => emptyCandidate)
          8).sortItems ∧
      ¬ 8 ≤ skewedPlan.stream3PartitionCount := by
  refine ⟨?_, rfl, ?_, by decide, by decide, by decide⟩
  · exact buildManualRuntimeConfig_skewed
  · refine List.mem_append_left _ (List.mem_append_left _
      (List.mem_append_left _ ?_))
    exact List.mem_flatMap.mpr
      ⟨7, List.mem_range.mpr (by decide), by decide⟩

end Memory

end BeamSearch

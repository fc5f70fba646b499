import BeamSearch.Memory.DeviceMemory

/-
  The plan and the carving agree.

  Both run a cursor over the same arrays: the carved names ask
  for what the plan counted. While the exact total fits a word
  no intermediate byte count overflows.

  Main declarations:
    * `transientArrays_takes`
    * `bytesStreams_word`
    * `totalFits_of_lt`
    * `totalDeviceBytes_word`
-/

namespace BeamSearch

open Arena

namespace Memory

----------------
-- What A Plan Says
----------------

/- The counts that follow from a configuration. -/
def staticPlanOf
    (config : RuntimeConfig)
    (derived : DerivedConfig) : StaticMemoryPlan :=
  let shape := makeFinalLayoutShape config derived
  { config := config
    derived := derived
    frontierStates := shape.frontier
    stream3Count := config.stream3BatchCandidates
    stream5SlotCount := stream5SlotCount config
    stream5SendSlotCapacity := config.stream3BatchCandidates
    stream5RecvSlotCapacity := stream5RecvSlotCapacity config
    finalMaterializeSlotCount := shape.finalSlots
    finalMaterializeChunkCapacity := shape.finalChunk
    finalMaterializeExchangeCapacity := shape.finalExchange
    storageShardCount := storageShardCount config
    survivorCount := shape.survivors
    finalSelectedCandidateCapacity := shape.selectedCapacity
    stream3PartitionCount := stream3PartitionCount config }

/- A plan is that of its configuration. -/
theorem makeStaticMemoryPlan_eq_ok
    {moveCount : Nat}
    {config : RuntimeConfig}
    {plan : StaticMemoryPlan}
    (hPlan : makeStaticMemoryPlan moveCount config = .ok plan) :
    ∃ derived, plan = staticPlanOf config derived := by
  unfold makeStaticMemoryPlan at hPlan
  cases hDerived : deriveConfig moveCount config with
  | error fault => simp [hDerived] at hPlan
  | ok derived =>
      simp only [hDerived] at hPlan
      split_ifs at hPlan
      injection hPlan with hPlan
      exact ⟨derived, hPlan.symm⟩

/- So is a plan with its bytes. -/
theorem planDeviceMemory_eq_ok
    {build : BuildConstants}
    {word : Nat → Nat}
    {cub : CubQueries}
    {config : RuntimeConfig}
    {plan : DevicePlan}
    (hPlan :
      planDeviceMemory build word cub config = .ok plan) :
    ∃ derived,
      plan =
          withDeviceBytes build word cub config
            (staticPlanOf config derived) ∧
        exactDeviceBytes build cub config =
          totalDeviceBytes build id cub config derived := by
  unfold planDeviceMemory at hPlan
  cases hStatic :
      makeStaticMemoryPlan build.moveCount config with
  | error fault => simp [hStatic] at hPlan
  | ok static =>
      simp only [hStatic] at hPlan
      rcases makeStaticMemoryPlan_eq_ok hStatic with
        ⟨derived, hDerived⟩
      subst hDerived
      refine ⟨derived, (Except.ok.inj hPlan).symm, ?_⟩
      unfold exactDeviceBytes planDeviceMemory
      rw [hStatic]
      rfl

section Agreement

variable {build : BuildConstants}
variable {word : Nat → Nat}
variable {cub : CubQueries}
variable {config : RuntimeConfig}
variable {derived : DerivedConfig}

/- The plan that the words `word` compute. -/
abbrev planned
    (build : BuildConstants)
    (word : Nat → Nat)
    (cub : CubQueries)
    (config : RuntimeConfig)
    (derived : DerivedConfig) : DevicePlan :=
  withDeviceBytes build word cub config
    (staticPlanOf config derived)

----------------
-- Carved And Planned Sequences
----------------

/- The frontier is carved as it was planned. -/
theorem frontierArrays_takes :
    List.map Prod.snd
        [(frontierArray
          (planned build word cub config derived) :
          NamedTake build)] =
      [take256 .state128
        (planFrontierStates config derived)] :=
  rfl

/- So are the solved results. -/
theorem solvedArrays_takes :
    (solvedArrays (planned build word cub config derived) :
        List (NamedTake build)).map Prod.snd =
      solvedLayout config :=
  rfl

/- So is the union, where there is one. -/
theorem unionArrays_takes
    (hCapacity : unionCapacity config ≠ 0) :
    (unionArrays (planned build word cub config derived) :
        List (NamedTake build)).map Prod.snd =
      unionLayout (unionCapacity config)
        (stream4CubTempBytes word cub
          (unionCapacity config)) := by
  have hBytes :
      (planned build word cub config
          derived).unionCubTempBytes =
        stream4CubTempBytes word cub (unionCapacity config) :=
    if_pos hCapacity
  unfold unionArrays unionLayout
  rw [hBytes]
  rfl

/- So are the counters of the trace. -/
theorem traceArrays_takes :
    (traceArrays (planned build word cub config derived) :
        List (NamedTake build)).map Prod.snd =
      traceLayout config := by
  unfold traceArrays traceLayout
  split_ifs <;> rfl

/- So is the exchange. -/
theorem stream5Arrays_takes :
    (stream5Arrays word
          (planned build word cub config derived) :
        List (NamedTake build)).map Prod.snd =
      stream5Layout word config := by
  unfold stream5Arrays stream5Layout
  simp only [List.map_cons, List.map_nil, withDeviceBytes,
    staticPlanOf, Nat.mul_comm]

/- So are all arrays of the streams. -/
theorem transientArrays_takes :
    (transientArrays word
          (planned build word cub config derived) :
        List (NamedTake build)).map Prod.snd =
      transientLayout word cub config derived := by
  unfold transientArrays transientLayout
  simp only [List.map_append, traceArrays_takes,
    stream5Arrays_takes]
  rfl

/- So are the survivors. -/
theorem persistentArrays_takes :
    (persistentArrays (planned build word cub config derived) :
        List (NamedTake build)).map Prod.snd =
      persistentLayout config :=
  rfl

/- So is what the final phases share. -/
theorem finalCommonArrays_takes :
    (finalCommonArrays (planned build word cub config derived) :
        List (NamedTake build)).map Prod.snd =
      finalCommonLayout config
        (makeFinalLayoutShape config derived) := by
  unfold finalCommonArrays finalCommonLayout
  rw [List.map_append]
  congr 1
  exact apply_ite (List.map Prod.snd) _ _ _

/- So is the selection. -/
theorem finalSelectArrays_takes :
    (finalSelectArrays (planned build word cub config derived) :
        List (NamedTake build)).map Prod.snd =
      finalSelectLayout (makeFinalLayoutShape config derived) :=
  rfl

/- So is the materialization. -/
theorem finalMaterializeArrays_takes :
    (finalMaterializeArrays
          (planned build word cub config derived) :
        List (NamedTake build)).map Prod.snd =
      finalMaterializeLayout word cub config
        (makeFinalLayoutShape config derived) := by
  unfold finalMaterializeArrays finalMaterializeLayout
  dsimp only
  rw [List.map_append, List.map_append]
  refine congrArg₂ (· ++ ·) (congrArg₂ (· ++ ·) ?_ rfl) ?_
  · exact apply_ite (List.map Prod.snd) _ _ _
  · exact apply_ite (List.map Prod.snd) _ _ _

end Agreement

----------------
-- No Word Overflows
----------------

section Exact

variable {build : BuildConstants}
variable {word : Nat → Nat}
variable {bound : Nat}
variable {cub : CubQueries}
variable {config : RuntimeConfig}
variable {derived : DerivedConfig}

/- A planned array has no more elements than its layout bytes. -/
theorem count_lt_of_mem
    {takes : List (Take build)}
    (element : ElementType)
    {count : Nat}
    (offset : Nat)
    (hMem : take element count ∈ takes)
    (hSize : 0 < build.sizeof element)
    (hFits :
      extent id offset (requests build takes) < bound) :
    count < bound :=
  (count_le_extent offset (List.mem_map_of_mem hMem)
    hSize).trans_lt hFits

/- Scratch inside an extent that fits is a word. -/
theorem bytes_lt_of_mem
    {takes : List (Take build)}
    {bytes : Nat}
    (offset : Nat)
    (hMem : takeBytes bytes ∈ takes)
    (hFits :
      extent id offset (requests build takes) < bound) :
    bytes < bound :=
  (count_le_extent offset
    (List.mem_map_of_mem hMem) Nat.one_pos).trans_lt hFits

/- The rows of the rings are a word. -/
theorem ringCandidates_word
    (hWord : Fixes word bound)
    (hFits : ringCandidates build id config derived < bound) :
    ringCandidates build word config derived =
      ringCandidates build id config derived := by
  have hInner :
      ringSlots config derived * config.bMicro ≤
        ringSlots config derived * config.bMicro *
          build.moveCount :=
    Nat.le_mul_of_pos_right _ build.movePos
  change
    ringSlots config derived * config.bMicro *
        build.moveCount < bound at hFits
  unfold ringCandidates
  rw [hWord (ringSlots config derived * config.bMicro)
      (hInner.trans_lt hFits),
    hWord _ hFits]
  rfl

/- The scratch of the pass is a word. -/
theorem stream3ScratchBytes_word
    (hWord : Fixes word bound)
    (hFits : stream3ScratchBytes id cub config < bound) :
    stream3ScratchBytes word cub config =
      stream3ScratchBytes id cub config := by
  have hBoth := max_lt_iff.mp hFits
  exact congrArg₂ max (alignUp_word hWord hBoth.1)
    (alignUp_word hWord hBoth.2)

/- A product of words is exact when the exact product fits. -/
theorem mul_alignUp_word
    (hWord : Fixes word bound)
    {factor value alignment : Nat}
    (hFits : factor * alignUp id value alignment < bound) :
    word (factor * alignUp word value alignment) =
      factor * alignUp id value alignment := by
  rcases Nat.eq_zero_or_pos factor with hZero | hPos
  · subst hZero
    rw [Nat.zero_mul] at hFits
    rw [Nat.zero_mul, Nat.zero_mul, hWord 0 hFits]
  · have hInner :
        alignUp id value alignment < bound :=
      (Nat.le_mul_of_pos_left _ hPos).trans_lt hFits
    rw [alignUp_word hWord hInner, hWord _ hFits]

/- The layout of the streams computes with words that fit. -/
theorem transientLayout_word
    (hWord : Fixes word bound)
    (hFits :
      extent id 0
          (requests build
            (transientLayout id cub config derived)) <
        bound) :
    (transientLayout word cub config derived :
        List (Take build)) =
      transientLayout id cub config derived := by
  let stream3 := config.stream3BatchCandidates
  let stream5Slots := stream5SlotCount config
  let cubBytes :=
    stream4CubTempBytes id cub config.shardCapacityCandidates
  have hRing : ringCandidates build id config derived < bound := by
    refine count_lt_of_mem .uint32 0 ?_ (Nat.succ_pos _) hFits
    simp [transientLayout, ringLayout]
  have hScratch : stream3ScratchBytes id cub config < bound := by
    refine bytes_lt_of_mem 0 ?_ hFits
    simp [transientLayout, stream3Layout]
  have hSend : stream3 * stream5Slots < bound := by
    refine count_lt_of_mem .candidateMeta 0 ?_
      (Nat.succ_pos _) hFits
    simp [transientLayout, stream5Layout, stream3,
      stream5Slots]
  have hRecv :
      stream5RecvSlotCapacity config * stream5Slots < bound := by
    refine count_lt_of_mem .candidateMeta 0 ?_
      (Nat.succ_pos _) hFits
    simp [transientLayout, stream5Layout, stream5Slots]
  have hCub : config.stream4ActiveSortSlots * cubBytes < bound := by
    refine bytes_lt_of_mem 0 ?_ hFits
    simp [transientLayout, stream4Layout, cubBytes]
  have hRingLayout :
      (ringLayout word config derived : List (Take build)) =
        ringLayout id config derived := by
    unfold ringLayout
    rw [ringCandidates_word hWord hRing]
  have hStream3Layout :
      (stream3Layout word cub config : List (Take build)) =
        stream3Layout id cub config := by
    unfold stream3Layout
    rw [stream3ScratchBytes_word hWord hScratch]
  have hStream5Layout :
      (stream5Layout word config : List (Take build)) =
        stream5Layout id config := by
    unfold stream5Layout
    dsimp only
    rw [hWord _ hSend, hWord _ hRecv]
    rfl
  have hStream4Layout :
      (stream4Layout word cub config : List (Take build)) =
        stream4Layout id cub config := by
    unfold stream4Layout
    dsimp only
    rw [show
      word
          (config.stream4ActiveSortSlots *
            stream4CubTempBytes word cub
              config.shardCapacityCandidates) =
        config.stream4ActiveSortSlots * cubBytes from
      mul_alignUp_word hWord hCub]
    rfl
  unfold transientLayout
  rw [hRingLayout, hStream3Layout, hStream5Layout,
    hStream4Layout]

/- So does that of the materialization. -/
theorem finalMaterializeLayout_word
    (hWord : Fixes word bound)
    {shape : FinalLayoutShape}
    (offset : Nat)
    (hFits :
      extent id offset
          (requests build
            (finalMaterializeLayout id cub config shape)) <
        bound) :
    (finalMaterializeLayout word cub config shape :
        List (Take build)) =
      finalMaterializeLayout id cub config shape := by
  unfold finalMaterializeLayout at hFits ⊢
  dsimp only at hFits ⊢
  split_ifs at hFits ⊢ with hRanks
  · have hCub :
        finalMaterializeCubTempBytes id cub
            (shape.finalExchange % 2 ^ 32) <
          bound := by
      refine bytes_lt_of_mem offset ?_ hFits
      simp
    have hSame :
        finalMaterializeCubTempBytes word cub
            (shape.finalExchange % 2 ^ 32) =
          finalMaterializeCubTempBytes id cub
            (shape.finalExchange % 2 ^ 32) :=
      alignUp_word hWord hCub
    rw [hSame]
  · rfl

----------------
-- Byte Counts
----------------

/- The shared part ends before the phase starts. -/
theorem extent_le_finalCommonBytes
    (common : List (Take build)) :
    extent id 0 (requests build common) ≤
      finalCommonBytes build id common :=
  le_alignUp _ (by omega)

/- The phase ends inside its bytes. -/
theorem extent_le_bytesFinal
    (common phase : List (Take build)) :
    extent id (finalCommonBytes build id common)
        (requests build phase) ≤
      bytesFinal build id common phase :=
  le_alignUp _ (by omega)

/- The words compute the shared part. -/
theorem finalCommonBytes_word
    (hWord : Fixes word bound)
    {common phase : List (Take build)}
    (hFits : bytesFinal build id common phase < bound) :
    finalCommonBytes build word common =
      finalCommonBytes build id common := by
  have hPhase :
      extent id (finalCommonBytes build id common)
          (requests build phase) <
        bound :=
    (extent_le_bytesFinal common phase).trans_lt hFits
  have hCommon : finalCommonBytes build id common < bound :=
    (le_extent _ _).trans_lt hPhase
  unfold finalCommonBytes at hCommon ⊢
  rw [extent_word hWord
    ((extent_le_finalCommonBytes common).trans_lt hCommon)]
  exact alignUp_word hWord hCommon

/- The words compute the phase. -/
theorem bytesFinal_word
    (hWord : Fixes word bound)
    {common phase : List (Take build)}
    (hFits : bytesFinal build id common phase < bound) :
    bytesFinal build word common phase =
      bytesFinal build id common phase := by
  have hPhase :
      extent id (finalCommonBytes build id common)
          (requests build phase) <
        bound :=
    (extent_le_bytesFinal common phase).trans_lt hFits
  rw [bytesFinal, finalCommonBytes_word hWord hFits,
    extent_word hWord hPhase]
  exact alignUp_word hWord hFits

/- The words compute the materialization. -/
theorem bytesFinalMaterialize_word
    (hWord : Fixes word bound)
    (hFits :
      bytesFinalMaterialize build id cub config derived <
        bound) :
    bytesFinalMaterialize build word cub config derived =
      bytesFinalMaterialize build id cub config derived := by
  unfold bytesFinalMaterialize at hFits ⊢
  dsimp only at hFits ⊢
  rw [finalMaterializeLayout_word hWord _
    ((extent_le_bytesFinal _ _).trans_lt hFits)]
  exact bytesFinal_word hWord hFits

/- The union ends inside its bytes. -/
theorem unionExtent_le_bytesUnion
    (hCapacity : unionCapacity config ≠ 0) :
    extent id 0
        (requests build
          (unionLayout (unionCapacity config)
            (stream4CubTempBytes id cub
              (unionCapacity config)))) ≤
      bytesUnion build id cub config := by
  unfold bytesUnion
  dsimp only
  rw [if_neg hCapacity]
  exact le_alignUp _ (by omega)

/- The scratch of the union is a word. -/
theorem unionCub_word
    (hWord : Fixes word bound)
    (hCapacity : unionCapacity config ≠ 0)
    (hFits : bytesUnion build id cub config < bound) :
    stream4CubTempBytes word cub (unionCapacity config) =
      stream4CubTempBytes id cub (unionCapacity config) := by
  have hExtent :=
    (unionExtent_le_bytesUnion hCapacity).trans_lt hFits
  refine alignUp_word hWord (bytes_lt_of_mem 0 ?_ hExtent)
  simp [unionLayout, stream4CubTempBytes]

/- The words compute the union. -/
theorem bytesUnion_word
    (hWord : Fixes word bound)
    (hFits : bytesUnion build id cub config < bound) :
    bytesUnion build word cub config =
      bytesUnion build id cub config := by
  by_cases hCapacity : unionCapacity config = 0
  · unfold bytesUnion
    dsimp only
    rw [if_pos hCapacity, if_pos hCapacity]
  · have hCub := unionCub_word hWord hCapacity hFits
    have hExtent :=
      (unionExtent_le_bytesUnion hCapacity).trans_lt hFits
    unfold bytesUnion at hFits ⊢
    dsimp only at hFits ⊢
    rw [if_neg hCapacity] at hFits ⊢
    rw [if_neg hCapacity, hCub, extent_word hWord hExtent]
    exact alignUp_word hWord hFits

/- The offset at which the survivors start. -/
def persistentOffset
    (build : BuildConstants)
    (word : Nat → Nat)
    (cub : CubQueries)
    (config : RuntimeConfig)
    (derived : DerivedConfig) : Nat :=
  max
    (extent word 0
      (requests build
        (transientLayout word cub config derived)))
    (finalLayoutBudget build word cub config derived)

/- The survivors end inside the streams. -/
theorem streamsEnd_le_bytesStreams :
    extent id (persistentOffset build id cub config derived)
        (requests build (persistentLayout config)) ≤
      bytesStreams build id cub config derived :=
  le_alignUp _ (by omega)

theorem persistentOffset_le_bytesStreams :
    persistentOffset build id cub config derived ≤
      bytesStreams build id cub config derived :=
  (le_extent _ _).trans streamsEnd_le_bytesStreams

theorem budget_le_bytesStreams :
    finalLayoutBudget build id cub config derived ≤
      bytesStreams build id cub config derived :=
  (le_max_right _ _).trans persistentOffset_le_bytesStreams

/- The words compute the final budget. -/
theorem finalLayoutBudget_word
    (hWord : Fixes word bound)
    (hFits :
      finalLayoutBudget build id cub config derived < bound) :
    finalLayoutBudget build word cub config derived =
      finalLayoutBudget build id cub config derived := by
  have hBoth := max_lt_iff.mp hFits
  have hFinal := max_lt_iff.mp hBoth.1
  exact congrArg₂ max
    (congrArg₂ max (bytesFinal_word hWord hFinal.1)
      (bytesFinalMaterialize_word hWord hFinal.2))
    (bytesUnion_word hWord hBoth.2)

/- The words compute where the survivors start. -/
theorem persistentOffset_word
    (hWord : Fixes word bound)
    (hFits :
      bytesStreams build id cub config derived < bound) :
    persistentOffset build word cub config derived =
      persistentOffset build id cub config derived := by
  have hOffset :=
    max_lt_iff.mp
      (persistentOffset_le_bytesStreams.trans_lt hFits)
  unfold persistentOffset
  rw [transientLayout_word hWord hOffset.1,
    extent_word hWord hOffset.1,
    finalLayoutBudget_word hWord hOffset.2]

/- The words compute the streams. -/
theorem bytesStreams_word
    (hWord : Fixes word bound)
    (hFits :
      bytesStreams build id cub config derived < bound) :
    bytesStreams build word cub config derived =
      bytesStreams build id cub config derived := by
  have hEnd :=
    streamsEnd_le_bytesStreams.trans_lt hFits
  change
    alignUp word
        (extent word
          (persistentOffset build word cub config derived)
          (requests build (persistentLayout config)))
        256 = _
  rw [persistentOffset_word hWord hFits,
    extent_word hWord hEnd]
  exact alignUp_word hWord hFits

/- The total in plain numbers. -/
theorem totalDeviceBytes_id :
    totalDeviceBytes build id cub config derived =
      alignUp id
            (currentFrontierBytes build id config derived) 256 +
          alignUp id (bytesSolved build id config) 256 +
        alignUp id
          (scratchPoolBytes build id cub config derived) 256 := by
  have hSum : ∀ a b c : Nat, id (id (a + b) + c) = a + b + c :=
    fun _ _ _ => rfl
  unfold totalDeviceBytes
  exact hSum _ _ _

/- The pool is as large as each of its phases. -/
theorem streams_le_scratchPool :
    bytesStreams build id cub config derived ≤
      scratchPoolBytes build id cub config derived :=
  (le_max_left _ _).trans (le_max_left _ _)

theorem select_le_scratchPool :
    bytesFinalSelect build id config derived ≤
      scratchPoolBytes build id cub config derived :=
  (le_max_right _ _).trans (le_max_left _ _)

theorem materialize_le_scratchPool :
    bytesFinalMaterialize build id cub config derived ≤
      scratchPoolBytes build id cub config derived :=
  (le_max_left _ _).trans (le_max_right _ _)

/- The words compute the scratch pool. -/
theorem scratchPoolBytes_word
    (hWord : Fixes word bound)
    (hFits :
      scratchPoolBytes build id cub config derived < bound) :
    scratchPoolBytes build word cub config derived =
      scratchPoolBytes build id cub config derived := by
  have hSelect :
      bytesFinalSelect build word config derived =
        bytesFinalSelect build id config derived :=
    bytesFinal_word hWord
      (select_le_scratchPool.trans_lt hFits)
  unfold scratchPoolBytes
  rw [bytesStreams_word hWord
      (streams_le_scratchPool.trans_lt hFits),
    bytesFinalMaterialize_word hWord
      (materialize_le_scratchPool.trans_lt hFits),
    hSelect]

/- What fits when the exact total does. -/
structure TotalFits
    (build : BuildConstants)
    (cub : CubQueries)
    (config : RuntimeConfig)
    (derived : DerivedConfig)
    (bound : Nat) : Prop where
  frontier : currentFrontierBytes build id config derived < bound
  solved : bytesSolved build id config < bound
  streams : bytesStreams build id cub config derived < bound
  select : bytesFinalSelect build id config derived < bound
  materialize :
    bytesFinalMaterialize build id cub config derived < bound
  union : bytesUnion build id cub config < bound
  scratch : scratchPoolBytes build id cub config derived < bound

/- Where the total fits, each of its parts does. -/
theorem totalFits_of_lt
    (hFits :
      totalDeviceBytes build id cub config derived < bound) :
    TotalFits build cub config derived bound := by
  rw [totalDeviceBytes_id] at hFits
  have hFrontier :=
    le_alignUp (currentFrontierBytes build id config derived)
      (show 0 < 256 by omega)
  have hSolved :=
    le_alignUp (bytesSolved build id config)
      (show 0 < 256 by omega)
  have hScratch :=
    le_alignUp (scratchPoolBytes build id cub config derived)
      (show 0 < 256 by omega)
  have hPool :
      scratchPoolBytes build id cub config derived < bound := by
    omega
  have hStreams :
      bytesStreams build id cub config derived < bound :=
    streams_le_scratchPool.trans_lt hPool
  exact
    { frontier := by omega
      solved := by omega
      streams := hStreams
      select := select_le_scratchPool.trans_lt hPool
      materialize := materialize_le_scratchPool.trans_lt hPool
      union :=
        ((le_max_right _ _).trans
          budget_le_bytesStreams).trans_lt hStreams
      scratch := hPool }

/- So the words compute the total. -/
theorem totalDeviceBytes_word
    (hWord : Fixes word bound)
    (hFits :
      totalDeviceBytes build id cub config derived < bound) :
    totalDeviceBytes build word cub config derived =
      totalDeviceBytes build id cub config derived := by
  have hParts := totalFits_of_lt hFits
  have hSum : ∀ a b c, a + b + c < bound →
      word (word (a + b) + c) = a + b + c := by
    intro a b c hLt
    rw [hWord (a + b) (by omega), hWord _ hLt]
  rw [totalDeviceBytes_id] at hFits ⊢
  have hFrontier :
      currentFrontierBytes build word config derived =
        currentFrontierBytes build id config derived :=
    hWord _ hParts.frontier
  have hSolved :
      bytesSolved build word config =
        bytesSolved build id config :=
    extent_word hWord hParts.solved
  unfold totalDeviceBytes
  rw [hFrontier, hSolved,
    scratchPoolBytes_word hWord hParts.scratch,
    alignUp_word hWord (by omega),
    alignUp_word hWord (by omega),
    alignUp_word hWord (by omega)]
  exact hSum _ _ _ hFits

end Exact

end Memory

end BeamSearch

import BeamSearch.Final.Delivery
import BeamSearch.Final.GlobalSelect

/-
  The finalisation on one GPU.

  One rank needs no gathered counts. The filter writes the rows
  below the threshold and then rows at it, saves the count of
  the first phase in the request counter, and writes a request
  beside every candidate. The next frontier is materialised from
  the requests and copied over the current one. The result is
  that of the multi-rank finalisation on one rank.

  Main declarations:
    * `finalFilterLoadBalance`
    * `finalizeSingleGpu`
    * `finalFilterLoadBalance_spec`
    * `finalizeSingleGpu_eq_multiRank`
-/

namespace BeamSearch

open Cdf Compaction Exchange SegmentedReduce

namespace Final

----------------
-- The Load Balancing Filter
----------------

/- What the host passes to the filter's kernels. -/
structure LoadBalance where
  localRank : Nat
  worldSize : Nat
  globalPrefixForRank : Nat
  globalKeepCount : Nat
  finalCapacity : Nat

/-
  What the two phases leave: the rows, the requests and their
  counts.
-/
structure LoadBalanceState where
  scratch : FinalScratch
  buffer : Nat → CandidateMeta
  requests : Nat → FinalRequest
  candidateCount : Nat
  requestCount : Nat
  sendCount : Nat → Nat
  sendOffset : Nat → Nat

/- The scan caps the count behind the base, not the phase. -/
def finalScanBlockCounts
    (outputBase : Option Nat)
    (blocks globalPrefixForRank globalKeepCount : Nat)
    (scratch : FinalScratch) : FinalScratch × Nat :=
  let scan :=
    scanBlockCounts scratch.blockCounts scratch.blockOffsets
      blocks
  let base := finalPhaseBase outputBase
  ({ scratch with blockOffsets := scan.offsets },
    if globalKeepCount = 0 ∨
        globalPrefixForRank ≥ globalKeepCount then
      0
    else if base ≥ globalKeepCount - globalPrefixForRank then
      base
    else
      let remaining :=
        globalKeepCount - globalPrefixForRank - base
      base +
        (if scan.running < remaining then scan.running
          else remaining))

/-
  What is divided among the ranks: with one rank what was
  found, else what all keep.
-/
def balanceKeepCount
    (launch : LoadBalance)
    (finalCandidateCount : Nat) : Nat :=
  if launch.worldSize = 1 then finalCandidateCount
  else launch.globalKeepCount

/- Whether a thread gets past the early returns of the scatter. -/
def loadBalanceWrites
    (launch : LoadBalance)
    (finalCandidateCount keep localOut : Nat) : Nat :=
  if keep = 0 ∨ finalCandidateCount > launch.finalCapacity ∨
      balanceKeepCount launch finalCandidateCount = 0 ∨
      launch.worldSize = 0 then
    0
  else if localOut ≥ finalCandidateCount then
    0
  else
    1

/- The target of a row. -/
def loadBalanceTarget
    (launch : LoadBalance)
    (finalCandidateCount globalIdx : Nat) : Nat :=
  targetRankForGlobal globalIdx
    (balanceKeepCount launch finalCandidateCount)
    launch.worldSize

/-
  The request for a row's state. The casts are those of the
  source.
-/
def loadBalanceRequest
    (launch : LoadBalance)
    (finalCandidateCount globalIdx : Nat)
    (candidate : CandidateMeta) : FinalRequest :=
  let targetRank :=
    loadBalanceTarget launch finalCandidateCount globalIdx
  { parentIdx := candidate.parentIdx.toNat
    targetLocalIdx :=
      (globalIdx -
          targetBegin
            (balanceKeepCount launch finalCandidateCount)
            launch.worldSize targetRank) %
        2 ^ 32
    returnRank := targetRank % 2 ^ 16
    move := unpackMove candidate.routePacked }

/- The output index of a scattering thread. -/
def loadBalanceLocalOut
    (banks : SurvivorBanks)
    (outputBase : Option Nat)
    (scratch : FinalScratch)
    (i : Nat) : Nat :=
  finalPhaseBase outputBase + scratch.blockOffsets (i / 256) +
      blockInclusive (finalLoadKeep banks scratch) i -
    1

/- Candidates go to the buffer, requests only to the own rank. -/
def finalScatterLoadBalance
    (banks : SurvivorBanks)
    (launch : LoadBalance)
    (outputBase : Option Nat)
    (state : LoadBalanceState) : LoadBalanceState :=
  let localOut :=
    loadBalanceLocalOut banks outputBase state.scratch
  let globalIdx := fun i =>
    launch.globalPrefixForRank + localOut i
  let writes := fun i =>
    loadBalanceWrites launch state.candidateCount
      (finalLoadKeep banks state.scratch i) (localOut i)
  let request := fun i =>
    loadBalanceRequest launch state.candidateCount (globalIdx i)
      (banks.survivor i)
  { state with
    buffer :=
      scatter writes localOut banks.survivor state.buffer
        (256 * banks.blocks)
    requests :=
      scatter
        (fun i =>
          if loadBalanceTarget launch state.candidateCount
                (globalIdx i) =
              launch.localRank then
            writes i
          else
            0)
        (fun i => (request i).targetLocalIdx) request
        state.requests (256 * banks.blocks) }

/- Mark, scan and scatter one score phase. -/
def loadBalancePhase
    (banks : SurvivorBanks)
    (threshold : UInt32)
    (phase : ScorePhase)
    (launch : LoadBalance)
    (outputBase : Option Nat)
    (state : LoadBalanceState) : LoadBalanceState :=
  let marked :=
    finalMarkCounts banks threshold phase state.scratch
  let scanned :=
    finalScanBlockCounts outputBase banks.blocks
      launch.globalPrefixForRank launch.globalKeepCount marked
  finalScatterLoadBalance banks launch outputBase
    { state with
      scratch := scanned.1
      candidateCount := scanned.2 }

/- How many rows of this rank a target rank takes. -/
def sendRange
    (launch : LoadBalance)
    (localKeepTotal rank : Nat) : Nat :=
  let balance := balanceKeepCount launch localKeepTotal
  let localBegin := launch.globalPrefixForRank
  let localEnd := launch.globalPrefixForRank + localKeepTotal
  let rankBegin := targetBegin balance launch.worldSize rank
  let rankEnd :=
    targetBegin balance launch.worldSize (rank + 1)
  let first :=
    if localBegin > rankBegin then localBegin else rankBegin
  let last := if localEnd < rankEnd then localEnd else rankEnd
  if last > first then last - first else 0

/-
  The ranges of the requests by rank; all zero where nothing
  is sent.
-/
def finalInitSendRanges
    (launch : LoadBalance)
    (state : LoadBalanceState) : LoadBalanceState :=
  if launch.globalKeepCount = 0 ∨ launch.worldSize = 0 ∨
      state.candidateCount > launch.finalCapacity then
    { state with
      requestCount := 0
      sendCount := fun rank =>
        if rank < launch.worldSize then 0
        else state.sendCount rank
      sendOffset := fun rank =>
        if rank ≤ launch.worldSize then 0
        else state.sendOffset rank }
  else
    let sent := sendRange launch state.candidateCount
    { state with
      requestCount :=
        if launch.localRank < launch.worldSize then
          sent launch.localRank
        else
          0
      sendCount := fun rank =>
        if rank < launch.worldSize then sent rank
        else state.sendCount rank
      sendOffset := fun rank =>
        if rank ≤ launch.worldSize then below sent rank
        else state.sendOffset rank }

/-
  The request counter holds the first phase's count until the
  send ranges overwrite it.
-/
def finalFilterLoadBalance
    (banks : SurvivorBanks)
    (threshold : UInt32)
    (launch : LoadBalance)
    (state : LoadBalanceState) : LoadBalanceState :=
  let less :=
    loadBalancePhase banks threshold .less launch none state
  let saved := { less with requestCount := less.candidateCount }
  let equal :=
    loadBalancePhase banks threshold .equal launch
      (some saved.requestCount) saved
  finalInitSendRanges launch equal

----------------
-- Materialisation And The Whole Tail
----------------

/- The state one thread builds for its request. -/
def materializeOne
    (layout : StateLayout)
    (generators : Nat → Nat → Nat)
    (frontier : Nat → State)
    (request : FinalRequest) : State :=
  setTargetLocalIdx layout request.targetLocalIdx
    (applyMove layout (frontier request.parentIdx)
      (generators request.move))

/- Every thread writes to the index it reads back. -/
def finalMaterializeStates
    (layout : StateLayout)
    (generators : Nat → Nat → Nat)
    (frontier : Nat → State)
    (requests : Nat → FinalRequest)
    (requestCount : Nat)
    (next : Nat → State) : Nat → State :=
  let response := fun i =>
    materializeOne layout generators frontier (requests i)
  scatter (fun _ => 1)
    (fun i => getTargetLocalIdx layout (response i))
    (fun i => clearStatePadding layout (response i)) next
    requestCount

/- The static sizes and tables of one GPU. -/
structure SingleGpu where
  beamWidth : Nat
  frontierStates : Nat
  layout : StateLayout
  generators : Nat → Nat → Nat

/- The arrays of the whole step. -/
structure SingleGpuArrays where
  filter : LoadBalanceState
  frontier : Nat → State
  next : Nat → State

/- The one fault of the step. -/
inductive SingleGpuError where
  | countExceedsCapacity
deriving DecidableEq, Repr

/- What the step returns. -/
structure SingleGpuResult where
  arrays : SingleGpuArrays
  nextFrontierSize : Nat
  finalGlobalKeepCount : Nat
  finalCandidateCount : Nat
  finalRequestCount : Nat

/-
  The launch for one rank. The capacity is narrowed to 32
  bits, as in the source.
-/
def SingleGpu.launch (gpu : SingleGpu) : LoadBalance :=
  { localRank := 0
    worldSize := 1
    globalPrefixForRank := 0
    globalKeepCount := gpu.beamWidth
    finalCapacity := gpu.frontierStates % 2 ^ 32 }

/- Materialise into the temporary frontier and copy it back. -/
def materializeFrontier
    (gpu : SingleGpu)
    (arrays : SingleGpuArrays) : SingleGpuArrays :=
  let requestCount := arrays.filter.requestCount
  if requestCount ≠ 0 then
    let next :=
      finalMaterializeStates gpu.layout gpu.generators
        arrays.frontier arrays.filter.requests requestCount
        arrays.next
    { arrays with
      frontier := fun i =>
        if i < requestCount then next i else arrays.frontier i
      next := next }
  else
    arrays

/- The single-rank tail of the finalisation of a depth. -/
def finalizeSingleGpu
    (gpu : SingleGpu)
    (banks : SurvivorBanks)
    (finalThreshold : UInt32)
    (arrays : SingleGpuArrays) :
    Except SingleGpuError SingleGpuResult :=
  let filter :=
    finalFilterLoadBalance banks finalThreshold gpu.launch
      arrays.filter
  if filter.candidateCount > gpu.frontierStates ∨
      filter.requestCount > gpu.frontierStates then
    .error .countExceedsCapacity
  else
    .ok
      { arrays :=
          materializeFrontier gpu
            { arrays with filter := filter }
        nextFrontierSize := filter.requestCount
        finalGlobalKeepCount := filter.requestCount
        finalCandidateCount := filter.candidateCount
        finalRequestCount := filter.requestCount }

----------------
-- One Phase On One GPU
----------------

/- The request beside the candidate at an index. -/
def singleRequest
    (candidate : CandidateMeta)
    (index : Nat) : FinalRequest :=
  { parentIdx := candidate.parentIdx.toNat
    targetLocalIdx := index
    returnRank := 0
    move := unpackMove candidate.routePacked }

/- The child a request of the only rank asks for. -/
def singleChild
    (gpu : SingleGpu)
    (frontier : Nat → State)
    (candidate : CandidateMeta) : State :=
  clearStatePadding gpu.layout
    (applyMove gpu.layout
      (frontier candidate.parentIdx.toNat)
      (gpu.generators (unpackMove candidate.routePacked)))

theorem targetBegin_one (globalCount : Nat) :
    targetBegin globalCount 1 0 = 0 := by
  simp [targetBegin, ceilDiv]

theorem targetBegin_one_one (globalCount : Nat) :
    targetBegin globalCount 1 1 = globalCount := by
  simp [targetBegin, ceilDiv]

theorem targetRankForGlobal_one
    {index globalCount : Nat}
    (hIndex : index < globalCount) :
    targetRankForGlobal index globalCount 1 = 0 := by
  unfold targetRankForGlobal
  rw [Nat.mul_one, Nat.div_eq_of_lt hIndex]
  simp

section OneGpu

variable {gpu : SingleGpu}

theorem loadBalanceTarget_one
    {count index : Nat}
    (hIndex : index < count) :
    loadBalanceTarget gpu.launch count index = 0 :=
  targetRankForGlobal_one hIndex

theorem loadBalanceRequest_one
    {count index : Nat}
    (candidate : CandidateMeta)
    (hIndex : index < count)
    (hCount : count ≤ 2 ^ 32) :
    loadBalanceRequest gpu.launch count index candidate =
      singleRequest candidate index := by
  have hTarget :
      loadBalanceTarget gpu.launch count index = 0 :=
    loadBalanceTarget_one hIndex
  have hBegin :
      targetBegin (balanceKeepCount gpu.launch count)
          gpu.launch.worldSize 0 =
        0 :=
    targetBegin_one _
  unfold loadBalanceRequest
  simp only [hTarget, hBegin, Nat.sub_zero,
    Nat.mod_eq_of_lt (hIndex.trans_le hCount)]
  rfl

/- The rows one phase keeps behind a base. -/
def keptRows
    (gpu : SingleGpu)
    (banks : SurvivorBanks)
    (threshold : UInt32)
    (phase : ScorePhase)
    (base : Nat) : List CandidateMeta :=
  (banks.phaseRows threshold phase).take (gpu.beamWidth - base)

/- The write guards let exactly the rows with room through. -/
theorem loadBalanceWrites_ne_zero_iff
    {base count rows keep position : Nat}
    (hCount :
      count = base + min rows (gpu.beamWidth - base))
    (hCapacity : count ≤ gpu.launch.finalCapacity)
    (hRow : keep ≠ 0 → position < rows) :
    loadBalanceWrites gpu.launch count keep
          (base + position) ≠
        0 ↔
      keep ≠ 0 ∧ position < gpu.beamWidth - base := by
  have hBalance : balanceKeepCount gpu.launch count = count :=
    if_pos rfl
  have hWorld : gpu.launch.worldSize ≠ 0 := Nat.one_ne_zero
  unfold loadBalanceWrites
  rw [hBalance]
  by_cases hKeep : keep = 0
  · simp [hKeep]
  · have hPosition := hRow hKeep
    split_ifs <;> omega

/- What the marking and the scan of a phase leave. -/
def phaseScan
    (gpu : SingleGpu)
    (banks : SurvivorBanks)
    (threshold : UInt32)
    (phase : ScorePhase)
    (outputBase : Option Nat)
    (scratch : FinalScratch) : FinalScratch × Nat :=
  finalScanBlockCounts outputBase banks.blocks 0 gpu.beamWidth
    (finalMarkCounts banks threshold phase scratch)

section OnePhase

variable {banks : SurvivorBanks}
variable {threshold : UInt32}
variable {phase : ScorePhase}
variable {outputBase : Option Nat}

theorem phaseScan_count
    (scratch : FinalScratch)
    (hWidth : 0 < gpu.beamWidth) :
    (phaseScan gpu banks threshold phase outputBase scratch).2 =
      finalPhaseBase outputBase +
        min (banks.phaseRows threshold phase).length
          (gpu.beamWidth - finalPhaseBase outputBase) := by
  have hRunning :=
    (scan_finalMarkCounts banks threshold phase scratch).1
  simp only [phaseScan, finalScanBlockCounts]
  rw [hRunning]
  split_ifs <;> omega

/- A marked thread writes behind the base and the earlier marks. -/
theorem localOut_marked
    (scratch : FinalScratch)
    {i : Nat}
    (hLt : i < 256 * banks.blocks)
    (hMark : finalMark banks threshold phase i ≠ 0) :
    loadBalanceLocalOut banks outputBase
          (phaseScan gpu banks threshold phase outputBase
            scratch).1 i =
        finalPhaseBase outputBase +
          below (finalMark banks threshold phase) i ∧
      below (finalMark banks threshold phase) i <
        (banks.phaseRows threshold phase).length := by
  rcases phaseLocal_eq banks threshold phase scratch hLt
      hMark with
    ⟨hPlace, hRow⟩
  refine ⟨?_, hRow⟩
  have hKeep :
      finalLoadKeep banks
          (phaseScan gpu banks threshold phase outputBase
            scratch).1 =
        finalMark banks threshold phase :=
    finalLoadKeep_marked banks threshold phase scratch _
  unfold loadBalanceLocalOut
  rw [hKeep]
  change
    (phaseScan gpu banks threshold phase outputBase
          scratch).1.blockOffsets (i / 256) + _ =
      _ at hPlace
  omega

/-
  The scatter of a phase, written with the marks' prefix counts:
  the capped marks write candidates and requests to the same
  places.
-/
theorem loadBalancePhase_scatters
    (state : LoadBalanceState)
    (hWidth : 0 < gpu.beamWidth)
    (hFits : gpu.frontierStates < 2 ^ 32)
    (hCapacity :
      finalPhaseBase outputBase +
          min (banks.phaseRows threshold phase).length
            (gpu.beamWidth - finalPhaseBase outputBase) ≤
        gpu.frontierStates) :
    let out :=
      loadBalancePhase banks threshold phase gpu.launch
        outputBase state
    let base := finalPhaseBase outputBase
    let mark := finalMark banks threshold phase
    let capped := cappedMark mark (gpu.beamWidth - base)
    out.buffer =
        scatter capped (fun i => base + below mark i)
          banks.survivor state.buffer (256 * banks.blocks) ∧
      out.requests =
        scatter capped (fun i => base + below mark i)
          (fun i =>
            singleRequest (banks.survivor i)
              (base + below mark i))
          state.requests (256 * banks.blocks) := by
  intro out base mark capped
  let count :=
    base +
      min (banks.phaseRows threshold phase).length
        (gpu.beamWidth - base)
  let scanned :=
    phaseScan gpu banks threshold phase outputBase state.scratch
  let localOut :=
    loadBalanceLocalOut banks outputBase scanned.1
  have hScanned : scanned.2 = count :=
    phaseScan_count state.scratch hWidth
  have hKeep : finalLoadKeep banks scanned.1 = mark :=
    finalLoadKeep_marked banks threshold phase state.scratch _
  have hLaunch : count ≤ gpu.launch.finalCapacity :=
    hCapacity.trans_eq (Nat.mod_eq_of_lt hFits).symm
  have hLocal : ∀ i < 256 * banks.blocks, mark i ≠ 0 →
      localOut i = base + below mark i ∧
        below mark i <
          (banks.phaseRows threshold phase).length :=
    fun i hLt hMark => localOut_marked state.scratch hLt hMark
  have hWrites : ∀ i < 256 * banks.blocks,
      loadBalanceWrites gpu.launch count (mark i) (localOut i) ≠
          0 ↔
        capped i ≠ 0 := by
    intro i hLt
    by_cases hMark : mark i = 0
    · simp [loadBalanceWrites, capped, cappedMark, hMark]
    · rcases hLocal i hLt hMark with ⟨hAt, hRow⟩
      rw [hAt,
        loadBalanceWrites_ne_zero_iff rfl hLaunch fun _ => hRow]
      simp only [capped, cappedMark]
      split_ifs with hCap
      · simpa using hCap
      · simpa using hCap
  have hCapped : ∀ i < 256 * banks.blocks, capped i ≠ 0 →
      localOut i = base + below mark i ∧ localOut i < count := by
    intro i hLt hCap
    have hBoth :
        mark i ≠ 0 ∧ below mark i < gpu.beamWidth - base := by
      by_contra hNot
      exact hCap (if_neg hNot)
    rcases hLocal i hLt hBoth.1 with ⟨hAt, hRow⟩
    refine ⟨hAt, ?_⟩
    simp only [hAt, count]
    omega
  constructor
  · change
      scatter
          (fun i =>
            loadBalanceWrites gpu.launch scanned.2
              (finalLoadKeep banks scanned.1 i) (localOut i))
          localOut banks.survivor state.buffer _ = _
    rw [hScanned, hKeep]
    apply scatter_congr
    · exact hWrites
    · intro i hLt hWrite
      exact (hCapped i hLt ((hWrites i hLt).mp hWrite)).1
  · change
      scatter
          (fun i =>
            if loadBalanceTarget gpu.launch scanned.2
                  (0 + localOut i) =
                0 then
              loadBalanceWrites gpu.launch scanned.2
                (finalLoadKeep banks scanned.1 i) (localOut i)
            else
              0)
          (fun i =>
            (loadBalanceRequest gpu.launch scanned.2
              (0 + localOut i)
              (banks.survivor i)).targetLocalIdx)
          (fun i =>
            loadBalanceRequest gpu.launch scanned.2
              (0 + localOut i) (banks.survivor i))
          state.requests _ = _
    simp only [hScanned, hKeep, Nat.zero_add]
    -- every thread that writes finds the only rank as its target
    have hOwn : ∀ i < 256 * banks.blocks,
        (if loadBalanceTarget gpu.launch count (localOut i) =
              0 then
            loadBalanceWrites gpu.launch count (mark i)
              (localOut i)
          else
            0) ≠ 0 ↔
          capped i ≠ 0 := by
      intro i hLt
      rw [← hWrites i hLt]
      constructor
      · intro hOwn
        split_ifs at hOwn with hTarget
        · exact hOwn
        · exact absurd rfl hOwn
      · intro hWrite
        have hInside :=
          (hCapped i hLt ((hWrites i hLt).mp hWrite)).2
        rw [if_pos (loadBalanceTarget_one hInside)]
        exact hWrite
    have hCountLe : count ≤ 2 ^ 32 := hCapacity.trans hFits.le
    refine (scatter_congr _ _ _ hOwn ?_).trans
      (scatter_value_congr _ _ ?_)
    · intro i hLt hWrite
      rcases hCapped i hLt ((hOwn i hLt).mp hWrite) with
        ⟨hAt, hInside⟩
      rw [loadBalanceRequest_one _ hInside hCountLe]
      exact hAt
    · intro i hLt hCap
      rcases hCapped i hLt hCap with ⟨hAt, hInside⟩
      rw [loadBalanceRequest_one _ hInside hCountLe, hAt]

/-
  One phase appends its first rows, up to the room left behind
  the base, and a request beside each of them.
-/
theorem loadBalancePhase_spec
    (state : LoadBalanceState)
    (hWidth : 0 < gpu.beamWidth)
    (hFits : gpu.frontierStates < 2 ^ 32)
    (hCapacity :
      finalPhaseBase outputBase +
          min (banks.phaseRows threshold phase).length
            (gpu.beamWidth - finalPhaseBase outputBase) ≤
        gpu.frontierStates) :
    let out :=
      loadBalancePhase banks threshold phase gpu.launch
        outputBase state
    let base := finalPhaseBase outputBase
    let rows := keptRows gpu banks threshold phase base
    out.candidateCount =
        base +
          min (banks.phaseRows threshold phase).length
            (gpu.beamWidth - base) ∧
      firstN out.buffer out.candidateCount =
        firstN state.buffer base ++ rows ∧
      firstN out.requests out.candidateCount =
        firstN state.requests base ++
          ((rows.zipIdx base).map fun p =>
            singleRequest p.1 p.2) ∧
      ∀ i ≥ out.candidateCount,
        out.buffer i = state.buffer i := by
  intro out base rows
  let mark := finalMark banks threshold phase
  have hCount :
      out.candidateCount =
        base +
          min (banks.phaseRows threshold phase).length
            (gpu.beamWidth - base) :=
    phaseScan_count state.scratch hWidth
  have hMarkLe : ∀ i < 256 * banks.blocks, mark i ≤ 1 :=
    fun i _ => finalMark_le_one banks threshold phase i
  have hKept :
      kept mark banks.survivor (256 * banks.blocks) =
        banks.phaseRows threshold phase :=
    kept_finalMark banks threshold phase
  have hBelow :
      below mark (256 * banks.blocks) =
        (banks.phaseRows threshold phase).length :=
    below_finalMark banks threshold phase
  rcases loadBalancePhase_scatters state hWidth hFits
      hCapacity with
    ⟨hBuffer, hRequests⟩
  refine ⟨hCount, ?_, ?_, ?_⟩
  · rw [hCount, hBuffer, ← hBelow,
      firstN_scatter_capped banks.survivor state.buffer base
        (gpu.beamWidth - base) (256 * banks.blocks) hMarkLe,
      hKept]
    rfl
  · rw [hCount, hRequests, ← hBelow,
      firstN_scatter_capped _ state.requests base
        (gpu.beamWidth - base) (256 * banks.blocks) hMarkLe,
      kept_placed banks.survivor singleRequest base _ hMarkLe,
      hKept, ← List.map_take, take_zipIdx]
    rfl
  · intro i hBehind
    rw [hBuffer]
    apply scatter_of_not_dest
    intro j hLt hCap
    have hBoth :
        mark j ≠ 0 ∧ below mark j < gpu.beamWidth - base := by
      by_contra hNot
      exact hCap (if_neg hNot)
    have hRow : below mark j <
        (banks.phaseRows threshold phase).length :=
      (phaseLocal_eq banks threshold phase state.scratch hLt
        hBoth.1).2
    change base + below mark j ≠ i
    omega

end OnePhase

----------------
-- The Filter And The Tail On One GPU
----------------

theorem sendRange_one (count : Nat) :
    sendRange gpu.launch count 0 = count := by
  have hBalance : balanceKeepCount gpu.launch count = count :=
    if_pos rfl
  have hFirst :
      targetBegin count gpu.launch.worldSize 0 = 0 :=
    targetBegin_one count
  have hLast :
      targetBegin count gpu.launch.worldSize (0 + 1) = count :=
    targetBegin_one_one count
  have hPrefix : gpu.launch.globalPrefixForRank = 0 := rfl
  unfold sendRange
  simp only [hBalance, hFirst, hLast, hPrefix]
  split_ifs <;> omega

/- The rows one GPU keeps: below the threshold, then at it. -/
def chosenRows
    (gpu : SingleGpu)
    (banks : SurvivorBanks)
    (threshold : UInt32) : List CandidateMeta :=
  banks.phaseRows threshold .less ++
    (banks.phaseRows threshold .equal).take
      (gpu.beamWidth -
        (banks.phaseRows threshold .less).length)

/- Both phases list the chosen rows with their requests. -/
theorem finalFilterLoadBalance_spec
    (banks : SurvivorBanks)
    (threshold : UInt32)
    (state : LoadBalanceState)
    (hWidth : 0 < gpu.beamWidth)
    (hFits : gpu.frontierStates < 2 ^ 32)
    (hRoom :
      (banks.phaseRows threshold .less).length ≤ gpu.beamWidth)
    (hCapacity :
      (chosenRows gpu banks threshold).length ≤
        gpu.frontierStates) :
    let out :=
      finalFilterLoadBalance banks threshold gpu.launch state
    let chosen := chosenRows gpu banks threshold
    out.candidateCount = chosen.length ∧
      out.requestCount = chosen.length ∧
      firstN out.buffer chosen.length = chosen ∧
      firstN out.requests chosen.length =
        (chosen.zipIdx.map fun p => singleRequest p.1 p.2) ∧
      ∀ i ≥ chosen.length, out.buffer i = state.buffer i := by
  intro out chosen
  let less := banks.phaseRows threshold .less
  let equal := banks.phaseRows threshold .equal
  have hLength :
      chosen.length =
        less.length +
          min equal.length (gpu.beamWidth - less.length) := by
    simp only [chosen, chosenRows, List.length_append,
      List.length_take]
    rw [Nat.min_comm]
  have hCapacity : chosen.length ≤ gpu.frontierStates :=
    hCapacity
  let first :=
    loadBalancePhase banks threshold .less gpu.launch none state
  have hAll :
      min less.length (gpu.beamWidth - 0) = less.length :=
    Nat.min_eq_left hRoom
  have hFirstCapacity :
      finalPhaseBase none +
          min (banks.phaseRows threshold .less).length
            (gpu.beamWidth - finalPhaseBase none) ≤
        gpu.frontierStates := by
    change 0 + min less.length (gpu.beamWidth - 0) ≤ _
    omega
  rcases loadBalancePhase_spec state hWidth hFits hFirstCapacity with
    ⟨hFirstCount, hFirstRows, hFirstRequests, hFirstRest⟩
  have hFirstCount : first.candidateCount = less.length := by
    refine hFirstCount.trans ?_
    change 0 + min less.length (gpu.beamWidth - 0) = _
    omega
  have hLessRows :
      keptRows gpu banks threshold .less 0 = less :=
    List.take_of_length_le hRoom
  change
    firstN first.buffer first.candidateCount =
      firstN state.buffer 0 ++
        keptRows gpu banks threshold .less 0 at hFirstRows
  change
    firstN first.requests first.candidateCount =
      firstN state.requests 0 ++
        ((keptRows gpu banks threshold .less 0).zipIdx 0).map
          fun p => singleRequest p.1 p.2 at hFirstRequests
  rw [hLessRows, hFirstCount] at hFirstRows hFirstRequests
  let saved := { first with requestCount := first.candidateCount }
  let second :=
    loadBalancePhase banks threshold .equal gpu.launch
      (some saved.requestCount) saved
  have hBase :
      finalPhaseBase (some saved.requestCount) = less.length :=
    hFirstCount
  have hSecondCapacity :
      finalPhaseBase (some saved.requestCount) +
          min (banks.phaseRows threshold .equal).length
            (gpu.beamWidth -
              finalPhaseBase (some saved.requestCount)) ≤
        gpu.frontierStates := by
    rw [hBase]
    exact hLength.ge.trans hCapacity
  rcases loadBalancePhase_spec saved hWidth hFits
      hSecondCapacity with
    ⟨hCount, hRows, hRequests, hRest⟩
  rw [hBase] at hCount hRows hRequests
  have hCount : second.candidateCount = chosen.length :=
    hCount.trans hLength.symm
  change firstN second.buffer second.candidateCount = _ at hRows
  change
    firstN second.requests second.candidateCount = _
      at hRequests
  have hSecondRows :
      keptRows gpu banks threshold .equal less.length =
        equal.take (gpu.beamWidth - less.length) :=
    rfl
  rw [hCount] at hRows hRequests
  have hGuard :
      ¬ (gpu.launch.globalKeepCount = 0 ∨
        gpu.launch.worldSize = 0 ∨
        second.candidateCount > gpu.launch.finalCapacity) := by
    have hMod :
        gpu.launch.finalCapacity = gpu.frontierStates :=
      Nat.mod_eq_of_lt hFits
    have hKeep :
        gpu.launch.globalKeepCount = gpu.beamWidth := rfl
    have hWorld : gpu.launch.worldSize = 1 := rfl
    rw [hMod, hKeep, hWorld, hCount]
    omega
  have hOut :
      out.candidateCount = second.candidateCount ∧
        out.buffer = second.buffer ∧
        out.requests = second.requests ∧
        out.requestCount =
          sendRange gpu.launch second.candidateCount 0 := by
    change
      (finalInitSendRanges gpu.launch second).candidateCount =
          _ ∧
        (finalInitSendRanges gpu.launch second).buffer = _ ∧
        (finalInitSendRanges gpu.launch second).requests = _ ∧
        (finalInitSendRanges gpu.launch second).requestCount = _
    unfold finalInitSendRanges
    rw [if_neg hGuard]
    exact ⟨rfl, rfl, rfl, rfl⟩
  rcases hOut with ⟨hOutCount, hOutRows, hOutRequests, hSent⟩
  refine ⟨hOutCount.trans hCount, ?_, ?_, ?_, ?_⟩
  · rw [hSent, sendRange_one, hCount]
  · rw [hOutRows, hRows, hSecondRows]
    exact congrArg (· ++ _) (hFirstRows.trans (List.nil_append _))
  · rw [hOutRequests, hRequests, hSecondRows]
    change
      firstN first.requests less.length ++ _ =
        (less ++
          equal.take (gpu.beamWidth - less.length)).zipIdx.map _
    rw [hFirstRequests, List.zipIdx_append, List.map_append,
      Nat.zero_add]
    rfl
  · intro i hBehind
    have hSecondRest : second.buffer i = first.buffer i :=
      hRest i (hCount.trans_le hBehind)
    have hFirstRest : first.buffer i = state.buffer i :=
      hFirstRest i (hFirstCount.trans_le (by omega))
    rw [hOutRows, hSecondRest, hFirstRest]

/- Requests for distinct own slots fill them with the children. -/
theorem finalMaterializeStates_at
    {layout : StateLayout}
    {generators : Nat → Nat → Nat}
    {frontier : Nat → State}
    {requests : Nat → FinalRequest}
    {requestCount : Nat}
    (next : Nat → State)
    (hCount : requestCount ≤ 2 ^ 32)
    (hTarget :
      ∀ i < requestCount, (requests i).targetLocalIdx = i)
    {i : Nat}
    (hLt : i < requestCount) :
    finalMaterializeStates layout generators frontier requests
        requestCount next i =
      clearStatePadding layout
        (applyMove layout (frontier (requests i).parentIdx)
          (generators (requests i).move)) := by
  have hDest : ∀ j < requestCount,
      getTargetLocalIdx layout
          (materializeOne layout generators frontier
            (requests j)) =
        j := by
    intro j hJ
    rw [materializeOne, hTarget j hJ]
    exact getTargetLocalIdx_set layout (hJ.trans_le hCount) _
  have hAt :
      finalMaterializeStates layout generators frontier requests
          requestCount next
          (getTargetLocalIdx layout
            (materializeOne layout generators frontier
              (requests i))) =
        clearStatePadding layout
          (materializeOne layout generators frontier
            (requests i)) :=
    scatter_at_dest _ next hLt Nat.one_ne_zero
      fun j hJ _ hEq =>
        (hDest j hJ).symm.trans (hEq.trans (hDest i hLt))
  rw [hDest i hLt] at hAt
  refine hAt.trans ?_
  exact clearStatePadding_set layout _ _

/- The single-rank tail keeps the chosen rows and their children. -/
theorem finalizeSingleGpu_spec
    (banks : SurvivorBanks)
    (threshold : UInt32)
    (arrays : SingleGpuArrays)
    (hWidth : 0 < gpu.beamWidth)
    (hFits : gpu.frontierStates < 2 ^ 32)
    (hRoom :
      (banks.phaseRows threshold .less).length ≤ gpu.beamWidth)
    (hCapacity :
      (chosenRows gpu banks threshold).length ≤
        gpu.frontierStates) :
    let chosen := chosenRows gpu banks threshold
    ∃ result,
      finalizeSingleGpu gpu banks threshold arrays =
          .ok result ∧
        result.finalCandidateCount = chosen.length ∧
        result.finalRequestCount = chosen.length ∧
        result.nextFrontierSize = chosen.length ∧
        firstN result.arrays.filter.buffer chosen.length =
          chosen ∧
        firstN result.arrays.filter.requests chosen.length =
          (chosen.zipIdx.map fun p => singleRequest p.1 p.2) ∧
        (∀ i ≥ chosen.length,
          result.arrays.filter.buffer i =
            arrays.filter.buffer i) ∧
        firstN result.arrays.frontier chosen.length =
          chosen.map (singleChild gpu arrays.frontier) := by
  intro chosen
  let filter :=
    finalFilterLoadBalance banks threshold gpu.launch
      arrays.filter
  rcases finalFilterLoadBalance_spec banks threshold
      arrays.filter hWidth hFits hRoom hCapacity with
    ⟨hCount, hRequestCount, hRows, hRequests, hRest⟩
  change filter.candidateCount = chosen.length at hCount
  change filter.requestCount = chosen.length at hRequestCount
  change firstN filter.buffer chosen.length = chosen at hRows
  change
    firstN filter.requests chosen.length =
      chosen.zipIdx.map (fun p => singleRequest p.1 p.2)
      at hRequests
  have hGuard :
      ¬ (filter.candidateCount > gpu.frontierStates ∨
        filter.requestCount > gpu.frontierStates) := by
    rw [hCount, hRequestCount, or_self]
    exact Nat.not_lt.mpr hCapacity
  have hRequestAt : ∀ i < chosen.length,
      ∃ candidate, chosen[i]? = some candidate ∧
        filter.requests i = singleRequest candidate i := by
    intro i hLt
    refine ⟨chosen[i], List.getElem?_eq_getElem hLt, ?_⟩
    have hAt := congrArg (fun xs => xs[i]?) hRequests
    simp only [getElem?_firstN filter.requests hLt,
      List.getElem?_map, List.getElem?_zipIdx,
      List.getElem?_eq_getElem hLt, Option.map_some] at hAt
    rw [Nat.zero_add] at hAt
    exact Option.some.inj hAt
  have hTarget : ∀ i < filter.requestCount,
      (filter.requests i).targetLocalIdx = i := by
    intro i hLt
    rcases hRequestAt i (hLt.trans_eq hRequestCount) with
      ⟨candidate, -, hRequest⟩
    rw [hRequest]
    rfl
  let arrays' :=
    materializeFrontier gpu { arrays with filter := filter }
  have hFilter : arrays'.filter = filter := by
    simp only [arrays', materializeFrontier]
    split_ifs <;> rfl
  have hFrontier : ∀ i < chosen.length,
      ∃ candidate, chosen[i]? = some candidate ∧
        arrays'.frontier i =
          singleChild gpu arrays.frontier candidate := by
    intro i hLt
    rcases hRequestAt i hLt with ⟨candidate, hSome, hRequest⟩
    refine ⟨candidate, hSome, ?_⟩
    have hPositive : filter.requestCount ≠ 0 := by omega
    have hNext :
        finalMaterializeStates gpu.layout gpu.generators
            arrays.frontier filter.requests filter.requestCount
            arrays.next i =
          clearStatePadding gpu.layout
            (applyMove gpu.layout
              (arrays.frontier (filter.requests i).parentIdx)
              (gpu.generators (filter.requests i).move)) :=
      finalMaterializeStates_at arrays.next
        (hRequestCount.le.trans (hCapacity.trans hFits.le))
        hTarget (hLt.trans_eq hRequestCount.symm)
    simp only [arrays', materializeFrontier]
    rw [if_pos hPositive]
    change (if i < filter.requestCount then _ else _) = _
    rw [if_pos (hLt.trans_eq hRequestCount.symm)]
    refine hNext.trans ?_
    rw [hRequest]
    rfl
  refine ⟨_, if_neg hGuard, hCount, hRequestCount,
    hRequestCount, ?_, ?_, ?_, firstN_eq_map hFrontier⟩
  · exact (congrArg (fun f => firstN f.buffer _) hFilter).trans
      hRows
  · exact
      (congrArg (fun f => firstN f.requests _) hFilter).trans
        hRequests
  · intro i hBehind
    exact (congrArg (fun f => f.buffer i) hFilter).trans
      (hRest i hBehind)

end OneGpu

----------------
-- The Multi-Rank Finalisation On One Rank
----------------

/- The chunks and the exchange buffers of the materialisation. -/
structure ChunkSizes where
  chunkCapacity : Nat
  exchangeCapacity : Nat
  chunk_pos : 0 < chunkCapacity
  chunk_le : chunkCapacity ≤ exchangeCapacity

/- What the selection hands to the chunked materialisation. -/
def oneRankInput
    (gpu : SingleGpu)
    (banks : SurvivorBanks)
    (threshold : UInt32)
    (sizes : ChunkSizes)
    (sortRequests : SortPairs Nat FinalRequest)
    (frontier : Nat → State)
    (globalKeepCount : Nat) : MaterializeInput :=
  { worldSize := 1
    chunkCapacity := sizes.chunkCapacity
    exchangeCapacity := sizes.exchangeCapacity
    frontierStates := gpu.frontierStates
    layout := gpu.layout
    lessRows := fun _ => banks.phaseRows threshold .less
    equalRows := fun _ => banks.phaseRows threshold .equal
    globalKeepCount := globalKeepCount
    frontier := fun _ => frontier
    generators := gpu.generators
    sortRequests := sortRequests }

theorem below_one (f : Nat → Nat) : below f 1 = f 0 := by
  rw [below_succ, below_zero, Nat.zero_add]

theorem flatMap_range_one
    {α : Type}
    (f : Nat → List α) :
    (List.range 1).flatMap f = f 0 := by
  simp

section OneRank

variable {gpu : SingleGpu}
variable {banks : SurvivorBanks}
variable {threshold : UInt32}

theorem length_chosenRows :
    (chosenRows gpu banks threshold).length =
      (banks.phaseRows threshold .less).length +
        min (banks.phaseRows threshold .equal).length
          (gpu.beamWidth -
            (banks.phaseRows threshold .less).length) := by
  rw [chosenRows, List.length_append, List.length_take,
    Nat.min_comm]

/- Cutting the equal rows at the kept count chooses the same rows. -/
theorem less_append_take :
    banks.phaseRows threshold .less ++
        (banks.phaseRows threshold .equal).take
          ((chosenRows gpu banks threshold).length -
            (banks.phaseRows threshold .less).length) =
      chosenRows gpu banks threshold := by
  rw [length_chosenRows, chosenRows]
  congr 1
  rw [List.take_eq_take_iff]
  omega

theorem mem_rows_of_mem_chosenRows
    {candidate : CandidateMeta}
    (hMem : candidate ∈ chosenRows gpu banks threshold) :
    candidate ∈ banks.rows := by
  rcases List.mem_append.mp hMem with hLess | hEqual
  · exact List.mem_of_mem_filter hLess
  · exact List.mem_of_mem_filter (List.mem_of_mem_take hEqual)

/-
  The chunked materialisation of one rank puts every chosen row
  and its child at the row's index, for any chunk size.
-/
theorem materializeOneRank_spec
    (sizes : ChunkSizes)
    (sortRequests : SortPairs Nat FinalRequest)
    (frontier : Nat → State)
    (hFits : gpu.frontierStates < 2 ^ 32)
    (hCapacity :
      (chosenRows gpu banks threshold).length ≤
        gpu.frontierStates)
    (hRoutes :
      ∀ candidate ∈ banks.rows,
        unpackSourceRank candidate.routePacked = 0) :
    let chosen := chosenRows gpu banks threshold
    let input :=
      oneRankInput gpu banks threshold sizes sortRequests
        frontier chosen.length
    input.selected 0 = chosen ∧
      ∃ ranks,
        finalMaterialize input = .ok ranks ∧
          (∀ states,
            firstN
                (applyWrites (ranks 0).nextFrontierWrites
                  states)
                chosen.length =
              chosen.map (singleChild gpu frontier)) ∧
          ∀ candidates,
            firstN
                (applyWrites (ranks 0).candidateWrites
                  candidates)
                chosen.length =
              chosen := by
  intro chosen input
  have hLess :
      input.globalLess =
        (banks.phaseRows threshold .less).length :=
    below_one fun _ => (banks.phaseRows threshold .less).length
  have hEqual :
      input.globalEqual =
        (banks.phaseRows threshold .equal).length :=
    below_one fun _ => (banks.phaseRows threshold .equal).length
  have hLength :
      chosen.length =
        (banks.phaseRows threshold .less).length +
          min (banks.phaseRows threshold .equal).length
            (gpu.beamWidth -
              (banks.phaseRows threshold .less).length) :=
    length_chosenRows
  have hSelected : input.selected 0 = chosen := by
    unfold MaterializeInput.selected
    rw [hLess]
    exact less_append_take
  have hRows : input.globalRows = chosen := by
    unfold MaterializeInput.globalRows
    rw [hLess]
    change
      (List.range 1).flatMap _ ++
        ((List.range 1).flatMap _).take _ = _
    rw [flatMap_range_one, flatMap_range_one]
    exact less_append_take
  have hTargets : localTargetCount chosen.length 1 0 =
      chosen.length := by
    rw [localTargetCount, targetBegin_one, Nat.sub_zero]
    exact targetBegin_one_one chosen.length
  have hValid : input.Valid := by
    refine ⟨Nat.one_pos, ?_, ?_, ?_, hFits⟩
    · change input.globalLess ≤ chosen.length
      omega
    · change
        chosen.length ≤ input.globalLess + input.globalEqual
      omega
    · intro rank hRank candidate hMem
      have hZero : rank = 0 := Nat.lt_one_iff.mp hRank
      subst hZero
      rw [hSelected] at hMem
      rw [hRoutes candidate (mem_rows_of_mem_chosenRows hMem)]
      exact Nat.one_pos
  have hAdmitted : input.Admitted := by
    refine ⟨by change 1 ≤ 128; omega, sizes.chunk_pos, ?_⟩
    intro rank hRank
    have hZero : rank = 0 := Nat.lt_one_iff.mp hRank
    subst hZero
    exact hTargets.trans_le hCapacity
  have hExchange :
      input.worldSize * input.chunkCapacity ≤
        input.exchangeCapacity :=
    (Nat.one_mul _).trans_le sizes.chunk_le
  rcases finalMaterialize_delivers input hValid with
    ⟨-, -, hReturns, hDelivers⟩
  rcases hReturns hAdmitted hExchange with ⟨ranks, hRanks⟩
  have hAt : ∀ i < chosen.length,
      ∃ candidate, chosen[i]? = some candidate ∧
        (∀ states,
          applyWrites (ranks 0).nextFrontierWrites states i =
            singleChild gpu frontier candidate) ∧
        ∀ candidates,
          applyWrites (ranks 0).candidateWrites candidates i =
            candidate := by
    intro i hLt
    rcases (hDelivers ranks hRanks).2 i hLt with
      ⟨candidate, hSome, hDelivered⟩
    have hTarget :
        targetRankForGlobal i input.globalKeepCount
            input.worldSize =
          0 :=
      targetRankForGlobal_one hLt
    have hBegin :
        targetBegin input.globalKeepCount input.worldSize 0 =
          0 :=
      targetBegin_one _
    rw [hRows] at hSome
    simp only [hTarget, hBegin, Nat.sub_zero] at hDelivered
    exact ⟨candidate, hSome, hDelivered⟩
  refine ⟨hSelected, ranks, hRanks, ?_, ?_⟩
  · intro states
    apply firstN_eq_map
    intro i hLt
    rcases hAt i hLt with ⟨candidate, hSome, hState, -⟩
    exact ⟨candidate, hSome, hState states⟩
  · intro candidates
    have hFirst :
        firstN
            (applyWrites (ranks 0).candidateWrites candidates)
            chosen.length =
          chosen.map id := by
      apply firstN_eq_map
      intro i hLt
      rcases hAt i hLt with ⟨candidate, hSome, -, hRow⟩
      exact ⟨candidate, hSome, hRow candidates⟩
    rw [hFirst, List.map_id]

end OneRank

/-
  One GPU keeps the `min W total` best survivors: all rows below
  the exact threshold and the first rows at it in shard and
  position order, a request beside each and its child in the
  next frontier. The multi-rank selection and materialisation on
  one rank give the same rows and states.
-/
theorem finalizeSingleGpu_eq_multiRank
    (gpu : SingleGpu)
    (banks : SurvivorBanks)
    (slots : ThresholdSlots)
    (arrays : SingleGpuArrays)
    (scratch : FinalScratch)
    (buffer : Nat → CandidateMeta)
    (sizes : ChunkSizes)
    (sortRequests : SortPairs Nat FinalRequest)
    (hWidth : 0 < gpu.beamWidth)
    (hFrontier : gpu.beamWidth ≤ gpu.frontierStates)
    (hFits : gpu.frontierStates < 2 ^ 32)
    (hRoutes :
      ∀ candidate ∈ banks.rows,
        unpackSourceRank candidate.routePacked = 0) :
    let threshold :=
      committedThreshold 1 gpu.beamWidth (fun _ => banks) slots
    let less := banks.phaseRows threshold .less
    let equal := banks.phaseRows threshold .equal
    let kept := min gpu.beamWidth banks.rows.length
    let chosen := less ++ equal.take (kept - less.length)
    chosen.length = kept ∧
      less.length ≤ kept ∧
      (∃ result,
        finalizeSingleGpu gpu banks threshold arrays =
            .ok result ∧
          result.finalCandidateCount = kept ∧
          result.finalRequestCount = kept ∧
          result.nextFrontierSize = kept ∧
          firstN result.arrays.filter.buffer kept = chosen ∧
          firstN result.arrays.filter.requests kept =
            (chosen.zipIdx.map fun p =>
              singleRequest p.1 p.2) ∧
          (∀ i ≥ kept,
            result.arrays.filter.buffer i =
              arrays.filter.buffer i) ∧
          firstN result.arrays.frontier kept =
            chosen.map (singleChild gpu arrays.frontier)) ∧
      ∃ selected,
        gatherSelect 1 gpu.beamWidth (fun _ => banks)
            (fun _ => scratch) threshold 0 buffer =
            .ok selected ∧
          firstN selected.buffer selected.count = chosen ∧
          let input :=
            oneRankInput gpu banks threshold sizes sortRequests
              arrays.frontier selected.globalKeepCount
          input.selected 0 = chosen ∧
            ∃ ranks,
              finalMaterialize input = .ok ranks ∧
                (∀ states,
                  firstN
                      (applyWrites
                        (ranks 0).nextFrontierWrites states)
                      kept =
                    chosen.map
                      (singleChild gpu arrays.frontier)) ∧
                ∀ candidates,
                  firstN
                      (applyWrites (ranks 0).candidateWrites
                        candidates)
                      kept =
                    chosen := by
  intro threshold less equal kept chosen
  rcases committedThreshold_room 1 gpu.beamWidth
      (fun _ => banks) slots with
    ⟨hRoom, hTotal, -⟩
  simp only [below_one] at hRoom hTotal
  have hRoom : less.length ≤ gpu.beamWidth := hRoom
  have hTotal :
      min gpu.beamWidth (less.length + equal.length) = kept :=
    hTotal
  have hLength :
      (chosenRows gpu banks threshold).length =
        less.length +
          min equal.length (gpu.beamWidth - less.length) :=
    length_chosenRows
  have hKept :
      (chosenRows gpu banks threshold).length = kept := by
    omega
  have hChosen : chosenRows gpu banks threshold = chosen := by
    refine less_append_take.symm.trans ?_
    rw [hKept]
  have hCapacity :
      (chosenRows gpu banks threshold).length ≤
        gpu.frontierStates := by
    omega
  have hSingle :=
    finalizeSingleGpu_spec banks threshold arrays hWidth hFits
      hRoom hCapacity
  have hMulti :=
    materializeOneRank_spec sizes sortRequests arrays.frontier
      hFits hCapacity hRoutes
  rw [hChosen] at hSingle hMulti hKept
  simp only [hKept] at hSingle hMulti
  have hWidthFits :
      min gpu.beamWidth banks.items < 2 ^ 32 := by
    omega
  have hRoomOne :
      below (fun _ => less.length) 1 ≤ gpu.beamWidth :=
    (below_one _).trans_le hRoom
  rcases gatherSelect_spec (fun _ => scratch) buffer
      Nat.one_pos hWidthFits hRoomOne with
    ⟨selected, hRun, hRows, hCount, -⟩
  simp only [below_one, below_zero, Nat.sub_zero] at hRows hCount
  have hCount : selected.globalKeepCount = kept :=
    hCount.trans hTotal
  have hRows : firstN selected.buffer selected.count = chosen := by
    refine hRows.trans ?_
    exact congrArg (fun n => less ++ equal.take (n - less.length))
      hTotal
  refine ⟨hKept, by omega, hSingle, selected, hRun, hRows, ?_⟩
  rw [hCount]
  exact hMulti

/- Two shards with three survivors, two of them at score five. -/
def twoShards : SurvivorBanks :=
  { shardCount := 2
    shardCapacity := 2
    survivor := fun i =>
      { hash := { lo := UInt64.ofNat i, hi := 0 }
        parentIdx := UInt64.ofNat i
        scoreKey := if i = 1 then 3 else 5
        routePacked := 0 }
    cleanCount := fun shard => if shard = 0 then 2 else 1
    clean_le := by decide
    score_lt := by
      rw [scoreBinCount_eq]
      decide
    total_lt := by decide
    grid_lt := by decide }

/- Two states of a frontier. -/
def twoStates : SingleGpu :=
  { beamWidth := 2
    frontierStates := 2
    layout := twoRanks.layout
    generators := fun _ position => position }

/- The arrays before the step. -/
def clearedArrays : SingleGpuArrays :=
  { filter :=
      { scratch :=
          { keepFlags := fun _ => 0
            blockCounts := fun _ => 0
            blockOffsets := fun _ => 0 }
        buffer := twoShards.survivor
        requests := fun _ => singleRequest (twoShards.survivor 0) 0
        candidateCount := 0
        requestCount := 0
        sendCount := fun _ => 0
        sendOffset := fun _ => 0 }
    frontier := fun _ _ => 1
    next := fun _ _ => 0 }

theorem finalizeSingleGpu_eq_multiRank_twoShards :
    ∃ result,
      finalizeSingleGpu twoStates twoShards
          (committedThreshold 1 2 (fun _ => twoShards)
            ThresholdSlots.reset)
          clearedArrays =
          .ok result ∧
        result.finalCandidateCount = 2 ∧
        result.nextFrontierSize = 2 := by
  have hBoth :=
    finalizeSingleGpu_eq_multiRank twoStates twoShards
      ThresholdSlots.reset clearedArrays
      clearedArrays.filter.scratch clearedArrays.filter.buffer
      { chunkCapacity := 1
        exchangeCapacity := 1
        chunk_pos := by decide
        chunk_le := by decide }
      insertionSortPairs (by decide) (by decide) (by decide)
      (by decide)
  rcases hBoth with
    ⟨-, -, ⟨result, hRun, hCount, -, hSize, -⟩, -⟩
  exact ⟨result, hRun, hCount, hSize⟩

end Final

end BeamSearch

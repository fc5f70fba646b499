import BeamSearch.Final.Materialize

/-
  Where the rows of a chunk travel.

  Every selected row has a global index; the rows of all ranks
  carry each index below the kept count once. A chunk's rows lie
  in index order, so the host's ranges are the device's history
  segments, and sorting by rank makes the request and response
  segments the rows of every rank.

  Main declarations:
    * `MaterializeInput.Valid`
    * `targetRankForGlobal_eq_iff`
    * `globalItems_perm`
    * `sendPart_fillTargetPlan`
    * `sendPart_countSortedRankKeys`
-/

namespace BeamSearch

open Cdf Compaction Exchange SegmentedReduce

namespace Final

variable {worldSize rank : Nat} {input : MaterializeInput}

----------------
-- Targets
----------------

/- A rounded quotient is bounded by what its product is. -/
theorem ceilDiv_le_iff
    {a b c : Nat}
    (hPos : 0 < b) :
    ceilDiv a b ≤ c ↔ a ≤ c * b := by
  rw [ceilDiv, if_neg (Nat.ne_of_gt hPos), ← Nat.lt_succ_iff,
    Nat.div_lt_iff_lt_mul hPos, Nat.succ_mul]
  omega

/- The other side of it. -/
theorem lt_ceilDiv_iff
    {a b c : Nat}
    (hPos : 0 < b) :
    c < ceilDiv a b ↔ c * b < a := by
  rw [← not_le, ceilDiv_le_iff hPos, not_le]

/- A global index belongs to the rank whose interval holds it. -/
theorem targetRankForGlobal_eq_iff
    {index count : Nat}
    (rank : Nat)
    (hPos : 0 < worldSize)
    (hIndex : index < count) :
    targetRankForGlobal index count worldSize = rank ↔
      targetBegin count worldSize rank ≤ index ∧
        index < targetBegin count worldSize (rank + 1) := by
  have hCount : 0 < count := by omega
  have hInside : index * worldSize / count < worldSize := by
    rw [Nat.div_lt_iff_lt_mul hCount, Nat.mul_comm worldSize]
    exact Nat.mul_lt_mul_of_pos_right hIndex hPos
  have hTarget :
      targetRankForGlobal index count worldSize =
        index * worldSize / count := by
    rw [targetRankForGlobal]
    exact if_neg (not_le.mpr hInside)
  rw [hTarget, targetBegin, targetBegin, ceilDiv_le_iff hPos,
    lt_ceilDiv_iff hPos, Nat.div_eq_iff hCount]
  have hSucc : (rank + 1) * count = rank * count + count :=
    Nat.succ_mul rank count
  omega

/- The target is a rank. -/
theorem targetRankForGlobal_lt
    {index count : Nat}
    (hPos : 0 < worldSize) :
    targetRankForGlobal index count worldSize < worldSize := by
  rw [targetRankForGlobal]
  split_ifs <;> omega

/- Later rows go to later ranks. -/
theorem targetRankForGlobal_mono
    {a b : Nat}
    (count worldSize : Nat)
    (hLe : a ≤ b) :
    targetRankForGlobal a count worldSize ≤
      targetRankForGlobal b count worldSize := by
  have hDiv :
      a * worldSize / count ≤ b * worldSize / count :=
    Nat.div_le_div_right (Nat.mul_le_mul_right _ hLe)
  rw [targetRankForGlobal, targetRankForGlobal]
  split_ifs <;> omega

/- The ranges begin in the order of the ranks. -/
theorem targetBegin_mono
    {a b : Nat}
    (count : Nat)
    (hPos : 0 < worldSize)
    (hLe : a ≤ b) :
    targetBegin count worldSize a ≤
      targetBegin count worldSize b := by
  rw [targetBegin, ceilDiv_le_iff hPos]
  have hSelf :=
    (ceilDiv_le_iff (a := b * count) hPos).mp le_rfl
  exact (Nat.mul_le_mul_right count hLe).trans hSelf

/- The last range ends at the count. -/
theorem targetBegin_worldSize
    (count : Nat)
    (hPos : 0 < worldSize) :
    targetBegin count worldSize worldSize = count := by
  have hUpper : targetBegin count worldSize worldSize ≤ count := by
    rw [targetBegin, ceilDiv_le_iff hPos, Nat.mul_comm]
  have hLower : count ≤ targetBegin count worldSize worldSize := by
    have hSelf :=
      (ceilDiv_le_iff (a := worldSize * count) hPos).mp le_rfl
    rw [Nat.mul_comm worldSize count] at hSelf
    have hLe := Nat.le_of_mul_le_mul_right hSelf hPos
    rwa [Nat.mul_comm count] at hLe
  exact Nat.le_antisymm hUpper hLower

----------------
-- Valid Inputs
----------------

/-
  What the selection promises: it keeps every row below the
  threshold, cuts inside the rows at it, and every row names a
  source rank. A frontier fits 32-bit indices.
-/
structure MaterializeInput.Valid
    (input : MaterializeInput) : Prop where
  worldPos : 0 < input.worldSize
  lessKept : input.globalLess ≤ input.globalKeepCount
  keptRows :
    input.globalKeepCount ≤ input.globalLess + input.globalEqual
  sourceRank :
    ∀ rank < input.worldSize, ∀ candidate ∈ input.selected rank,
      unpackSourceRank candidate.routePacked < input.worldSize
  frontierStates : input.frontierStates < 2 ^ 32

/- The kept rows in the order of their global indices. -/
def MaterializeInput.globalRows
    (input : MaterializeInput) : List CandidateMeta :=
  (List.range input.worldSize).flatMap input.lessRows ++
    ((List.range input.worldSize).flatMap input.equalRows).take
      (input.globalKeepCount - input.globalLess)

/- A row with its global index. -/
abbrev GlobalRow : Type :=
  CandidateMeta × Nat

/- The selected buffer of a rank with the global indices. -/
def globalItems
    (input : MaterializeInput)
    (rank : Nat) : List GlobalRow :=
  (input.lessRows rank).zipIdx (input.lessPrefix rank) ++
    ((input.equalRows rank).take
      (input.globalKeepCount - input.globalLess -
        input.equalPrefix rank)).zipIdx
      (input.globalLess + input.equalPrefix rank)

/- The rows of one chunk. -/
def roundItems
    (input : MaterializeInput)
    (round rank : Nat) : List GlobalRow :=
  ((globalItems input rank).drop
      (round * input.chunkCapacity)).take
    input.chunkCapacity

/- The chunk row of a selected row. -/
def GlobalRow.item
    (input : MaterializeInput)
    (row : GlobalRow) : ChunkItem :=
  chunkItem input row.1 row.2

/- Where it goes. -/
def GlobalRow.target
    (input : MaterializeInput)
    (row : GlobalRow) : Nat :=
  targetRankForGlobal row.2 input.globalKeepCount
    input.worldSize

/- Whose parent it has. -/
def GlobalRow.source (row : GlobalRow) : Nat :=
  unpackSourceRank row.1.routePacked

/- A rank selects as many rows as it was told. -/
theorem length_selected
    (input : MaterializeInput)
    (rank : Nat) :
    (input.selected rank).length =
      input.selectedForRank rank := by
  rw [MaterializeInput.selected,
    MaterializeInput.selectedForRank, List.length_append,
    List.length_take, Nat.sub_sub, min_comm]

/- Each of them has a place in the whole. -/
theorem length_globalItems
    (input : MaterializeInput)
    (rank : Nat) :
    (globalItems input rank).length =
      (input.selected rank).length := by
  simp [globalItems, MaterializeInput.selected]

/- The kernel numbers the selected buffer with the global indices. -/
theorem map_globalIdx_selected
    (input : MaterializeInput)
    (rank : Nat) :
    (input.selected rank).zipIdx.map
        (fun p => (p.1, globalIdx input rank p.2)) =
      globalItems input rank := by
  rw [MaterializeInput.selected, List.zipIdx_append,
    List.map_append, globalItems]
  congr 1
  · rw [← Nat.add_zero (input.lessPrefix rank),
      ← List.map_snd_add_zipIdx_eq_zipIdx]
    apply List.map_congr_left
    rintro ⟨candidate, i⟩ hMem
    have hLt := List.snd_lt_add_of_mem_zipIdx hMem
    rw [globalIdx, if_pos (by simpa using hLt)]
    simp [Nat.add_comm]
  · rw [Nat.zero_add,
      ← Nat.add_zero (input.globalLess + _),
      ← List.map_snd_add_zipIdx_eq_zipIdx,
      ← Nat.add_zero (input.lessRows rank).length,
      ← List.map_snd_add_zipIdx_eq_zipIdx, List.map_map]
    apply List.map_congr_left
    rintro ⟨candidate, i⟩ _
    simp [globalIdx, Nat.add_comm]

/- All ranks together number the kept rows. -/
theorem globalItems_perm
    (input : MaterializeInput) :
    ((List.range input.worldSize).flatMap
        (globalItems input)).Perm
      input.globalRows.zipIdx := by
  have hLess :
      ((List.range input.worldSize).flatMap fun rank =>
          (input.lessRows rank).zipIdx
            (input.lessPrefix rank)) =
        ((List.range input.worldSize).flatMap
          input.lessRows).zipIdx := by
    have hNumber :=
      flatMap_zipIdx_range input.lessRows 0 input.worldSize
    simp only [Nat.zero_add] at hNumber
    exact hNumber
  have hEqual :
      ((List.range input.worldSize).flatMap fun rank =>
          ((input.equalRows rank).take
            (input.globalKeepCount - input.globalLess -
              input.equalPrefix rank)).zipIdx
            (input.globalLess + input.equalPrefix rank)) =
        (((List.range input.worldSize).flatMap
          input.equalRows).take
            (input.globalKeepCount -
              input.globalLess)).zipIdx input.globalLess := by
    have hTake :=
      flatMap_take_range
        (fun rank =>
          (input.equalRows rank).zipIdx
            (input.globalLess + input.equalPrefix rank))
        (input.globalKeepCount - input.globalLess)
        input.worldSize
    simp only [List.length_zipIdx, take_zipIdx] at hTake
    have hNumber :=
      flatMap_zipIdx_range input.equalRows input.globalLess
        input.worldSize
    rw [← take_zipIdx, ← hNumber]
    exact hTake
  have hSplit :=
    List.flatMap_append_perm (List.range input.worldSize)
      (fun rank =>
        (input.lessRows rank).zipIdx (input.lessPrefix rank))
      (fun rank =>
        ((input.equalRows rank).take
          (input.globalKeepCount - input.globalLess -
            input.equalPrefix rank)).zipIdx
          (input.globalLess + input.equalPrefix rank))
  rw [hLess, hEqual] at hSplit
  have hBase :
      input.globalLess =
        0 + ((List.range input.worldSize).flatMap
          input.lessRows).length := by
    rw [length_flatMap_range, Nat.zero_add]
    rfl
  rw [MaterializeInput.globalRows, List.zipIdx_append, ← hBase]
  exact hSplit.symm

/- The whole selection has the count that was asked for. -/
theorem length_globalRows
    (hValid : input.Valid) :
    input.globalRows.length = input.globalKeepCount := by
  have hLess := hValid.lessKept
  have hRows := hValid.keptRows
  rw [MaterializeInput.globalRows, List.length_append,
    List.length_take, length_flatMap_range,
    length_flatMap_range]
  change
    input.globalLess +
      min (input.globalKeepCount - input.globalLess)
        input.globalEqual = _
  omega

----------------
-- Chunks
----------------

/- The rows of a round, without the test. -/
theorem chunkCount_eq
    (input : MaterializeInput)
    (rank round : Nat) :
    chunkCount input rank round =
      min input.chunkCapacity
        ((input.selected rank).length -
          round * input.chunkCapacity) := by
  rw [chunkCount]
  split_ifs <;> omega

/- The chunk of the source is the items of the round. -/
theorem buildMaterializeChunk_eq
    (input : MaterializeInput)
    (rank round : Nat) :
    buildMaterializeChunk input rank round =
      (roundItems input round rank).map
        (GlobalRow.item input) := by
  have hTake :
      ((input.selected rank).zipIdx.drop
          (round * input.chunkCapacity)).take
          (chunkCount input rank round) =
        ((input.selected rank).zipIdx.drop
          (round * input.chunkCapacity)).take
          input.chunkCapacity := by
    rw [List.take_eq_take_iff, chunkCount_eq,
      List.length_drop, List.length_zipIdx]
    omega
  rw [buildMaterializeChunk, hTake, roundItems,
    ← map_globalIdx_selected, ← List.map_drop, ← List.map_take,
    List.map_map]
  rfl

/- A round is no longer than a chunk. -/
theorem length_roundItems_le
    (input : MaterializeInput)
    (round rank : Nat) :
    (roundItems input round rank).length ≤
      input.chunkCapacity :=
  List.length_take_le _ _

/- An item of a round is one of the rank's. -/
theorem mem_globalItems_of_mem_roundItems
    {round : Nat}
    {row : GlobalRow}
    (hMem : row ∈ roundItems input round rank) :
    row ∈ globalItems input rank :=
  List.mem_of_mem_drop (List.mem_of_mem_take hMem)

/- A row of any rank lies below the kept count. -/
theorem index_lt_of_mem_globalItems
    (hValid : input.Valid)
    (hRank : rank < input.worldSize)
    {row : GlobalRow}
    (hMem : row ∈ globalItems input rank) :
    row.2 < input.globalKeepCount := by
  have hAll :
      row ∈ (List.range input.worldSize).flatMap
        (globalItems input) :=
    List.mem_flatMap.mpr
      ⟨rank, List.mem_range.mpr hRank, hMem⟩
  have hNumbered :=
    (globalItems_perm input).mem_iff.mp hAll
  have hLt := List.snd_lt_add_of_mem_zipIdx hNumbered
  rw [length_globalRows hValid] at hLt
  omega

/- The parents of a row are on a rank. -/
theorem source_lt_of_mem_globalItems
    (hValid : input.Valid)
    (hRank : rank < input.worldSize)
    {row : GlobalRow}
    (hMem : row ∈ globalItems input rank) :
    GlobalRow.source row < input.worldSize := by
  rw [← map_globalIdx_selected] at hMem
  rcases List.mem_map.mp hMem with ⟨⟨candidate, i⟩, hZip, rfl⟩
  exact hValid.sourceRank rank hRank candidate
    (List.fst_mem_of_mem_zipIdx hZip)

/- Places increase along a list. -/
theorem pairwise_zipIdx
    (xs : List CandidateMeta)
    (base : Nat) :
    (xs.zipIdx base).Pairwise fun p q => p.2 < q.2 := by
  have hRange :
      (List.range' base xs.length).Pairwise (· < ·) :=
    List.pairwise_lt_range'
  rw [← List.zipIdx_map_snd base xs] at hRange
  exact List.pairwise_map.mp hRange

/- A chunk lies in index order, also across the two phases. -/
theorem globalItems_sorted
    (input : MaterializeInput)
    (hRank : rank < input.worldSize) :
    (globalItems input rank).Pairwise
      fun p q => p.2 < q.2 := by
  rw [globalItems, List.pairwise_append]
  refine ⟨pairwise_zipIdx _ _, pairwise_zipIdx _ _, ?_⟩
  intro p hP q hQ
  have hLt := List.snd_lt_add_of_mem_zipIdx hP
  have hLe := List.le_snd_of_mem_zipIdx hQ
  have hPrefix :
      input.lessPrefix rank + (input.lessRows rank).length ≤
        input.globalLess :=
    below_add_le _ hRank
  omega

/- Inside a round the targets increase. -/
theorem roundItems_sorted
    (input : MaterializeInput)
    (round : Nat)
    (hRank : rank < input.worldSize) :
    (roundItems input round rank).Pairwise
      fun p q =>
        GlobalRow.target input p ≤ GlobalRow.target input q := by
  have hSorted :
      (roundItems input round rank).Pairwise
        fun p q => p.2 < q.2 :=
    ((globalItems_sorted input hRank).drop).take
  apply hSorted.imp
  intro p q hLt
  exact targetRankForGlobal_mono _ _ (Nat.le_of_lt hLt)

----------------
-- History Segments
----------------

/- The overlap of two ranges. -/
theorem rangeOverlap_eq
    (input : MaterializeInput)
    (first last rank : Nat) :
    rangeOverlap input first last rank =
      min
          (targetBegin input.globalKeepCount input.worldSize
            (rank + 1))
          last -
        max
          (targetBegin input.globalKeepCount input.worldSize
            rank)
          first := by
  simp only [rangeOverlap]
  split_ifs <;> omega

/- The host's two ranges against the rows of a chunk. -/
theorem chunk_overlap
    (lower upper lessBase equalBase begin_ capacity less equal :
      Nat) :
    let chunkEnd :=
      begin_ + min capacity (less + equal - begin_)
    (if begin_ < less then
        min upper (lessBase + min chunkEnd less) -
          max lower (lessBase + begin_)
      else
        0) +
      (if chunkEnd > less then
        min upper (equalBase + (chunkEnd - less)) -
          max lower (equalBase + (max begin_ less - less))
      else
        0) =
      (min upper
          (lessBase + begin_ + min capacity (less - begin_)) -
        max lower (lessBase + begin_)) +
      (min upper
          (equalBase + (begin_ - less) +
            min (capacity - (less - begin_))
              (equal - (begin_ - less))) -
        max lower (equalBase + (begin_ - less))) := by
  intro chunkEnd
  have hNone :
      ∀ base, min upper (base + 0) - max lower base = 0 := by
    intro base
    omega
  by_cases hLess : begin_ < less
  · have hZero : begin_ - less = 0 := by omega
    have hMax : max begin_ less - less = 0 := by omega
    have hFirst :
        lessBase + min chunkEnd less =
          lessBase + begin_ + min capacity (less - begin_) := by
      omega
    rw [if_pos hLess, hZero, hMax, hFirst]
    congr 1
    by_cases hEqual : chunkEnd > less
    · have hSecond :
          chunkEnd - less =
            min (capacity - (less - begin_)) (equal - 0) := by
        omega
      rw [if_pos hEqual, hSecond, Nat.add_zero]
    · have hSecond :
          min (capacity - (less - begin_)) (equal - 0) = 0 := by
        omega
      rw [if_neg hEqual, hSecond]
      exact (hNone (equalBase + 0)).symm
  · have hZero : less - begin_ = 0 := by omega
    have hMax : max begin_ less - less = begin_ - less := by omega
    rw [if_neg hLess, hZero, hMax, Nat.min_zero, hNone,
      Nat.sub_zero]
    congr 1
    by_cases hEqual : chunkEnd > less
    · have hSecond :
          chunkEnd - less =
            begin_ - less +
              min capacity (equal - (begin_ - less)) := by
        omega
      rw [if_pos hEqual, hSecond, Nat.add_assoc]
    · have hSecond :
          min capacity (equal - (begin_ - less)) = 0 := by
        omega
      rw [if_neg hEqual, hSecond, hNone]

/- The host counts the rows of a chunk for every target. -/
theorem targetCountsForChunk_eq
    (hValid : input.Valid)
    (round target : Nat)
    (hRank : rank < input.worldSize) :
    targetCountsForChunk input rank round target =
      (roundItems input round rank).countP fun row =>
        GlobalRow.target input row = target := by
  have hInterval :
      ((roundItems input round rank).countP fun row =>
          GlobalRow.target input row = target) =
        (roundItems input round rank).countP fun row =>
          decide
              (targetBegin input.globalKeepCount
                input.worldSize target ≤ row.2) &&
            decide
              (row.2 <
                targetBegin input.globalKeepCount
                  input.worldSize (target + 1)) := by
    apply List.countP_congr
    intro row hMem
    have hIndex :=
      index_lt_of_mem_globalItems hValid hRank
        (mem_globalItems_of_mem_roundItems hMem)
    have hIff :=
      targetRankForGlobal_eq_iff target hValid.worldPos hIndex
    simp only [Bool.and_eq_true, decide_eq_true_eq]
    exact hIff
  have hLength :
      (input.selected rank).length =
        (input.lessRows rank).length +
          ((input.equalRows rank).take
            (input.globalKeepCount - input.globalLess -
              input.equalPrefix rank)).length := by
    rw [MaterializeInput.selected, List.length_append]
  rw [hInterval, roundItems, globalItems, List.drop_append,
    List.take_append, List.countP_append, drop_zipIdx,
    drop_zipIdx, take_zipIdx, take_zipIdx, countP_zipIdx,
    countP_zipIdx, List.length_zipIdx, List.length_zipIdx,
    List.length_take, List.length_take, List.length_drop,
    List.length_drop]
  simp only [targetCountsForChunk, rangeOverlap_eq,
    chunkCount_eq, hLength]
  exact chunk_overlap _ _ _ _ _ _ _ _

/- A history segment holds the chunk's rows of its target. -/
theorem sendPart_fillTargetPlan
    (hValid : input.Valid)
    (round target : Nat)
    (hRank : rank < input.worldSize) :
    sendPart (fillTargetPlanForChunk input rank round)
        (historySend input round rank) target =
      ((roundItems input round rank).filter fun row =>
        GlobalRow.target input row = target).map fun row =>
          (GlobalRow.item input row).history := by
  have hOffset :
      (fillTargetPlanForChunk input rank round).offset target =
        (roundItems input round rank).countP fun row =>
          GlobalRow.target input row < target := by
    rw [← below_countP]
    apply below_congr
    intro peer _
    exact targetCountsForChunk_eq hValid round peer hRank
  rw [historySend, buildMaterializeChunk_eq, List.map_map,
    sendPart_map,
    sendPart_eq_filter (roundItems_sorted input round hRank)
      (targetCountsForChunk_eq hValid round target hRank)
      hOffset]
  rfl

/- The plan sends every row of the round. -/
theorem total_fillTargetPlan
    (hValid : input.Valid)
    (round : Nat)
    (hRank : rank < input.worldSize) :
    (fillTargetPlanForChunk input rank round).total =
      (roundItems input round rank).length := by
  have hCounts :
      (fillTargetPlanForChunk input rank round).total =
        (roundItems input round rank).countP fun row =>
          GlobalRow.target input row < input.worldSize := by
    rw [← below_countP]
    apply below_congr
    intro peer _
    exact targetCountsForChunk_eq hValid round peer hRank
  rw [hCounts, List.countP_eq_length]
  intro row _
  exact decide_eq_true (targetRankForGlobal_lt hValid.worldPos)

----------------
-- Segments Of Sorted Requests
----------------

/- The counts of sorted keys. -/
theorem count_countSortedRankKeys
    {sorted : List (Nat × FinalRequest)}
    (hSorted : sorted.Pairwise fun p q => p.1 ≤ q.1)
    (rank : Nat) :
    (countSortedRankKeys sorted).count rank =
      sorted.countP fun p => p.1 = rank := by
  have hFirst :=
    lowerBound_eq_countP hSorted (rank + 1)
  have hSecond :=
    lowerBound_eq_countP hSorted rank
  have hSucc := countP_lt_succ Prod.fst sorted rank
  change
    lowerBound _ sorted.length (rank + 1) -
      lowerBound _ sorted.length rank = _
  rw [hFirst, hSecond]
  omega

/- The binary search cuts the sorted requests at the ranks. -/
theorem sendPart_countSortedRankKeys
    {sorted : List (Nat × FinalRequest)}
    (hSorted : sorted.Pairwise fun p q => p.1 ≤ q.1)
    (rank : Nat) :
    sendPart (countSortedRankKeys sorted) sorted rank =
      sorted.filter fun p => p.1 = rank := by
  have hOffset :
      (countSortedRankKeys sorted).offset rank =
        sorted.countP fun p => p.1 < rank := by
    rw [← below_countP]
    apply below_congr
    intro peer _
    exact count_countSortedRankKeys hSorted peer
  exact sendPart_eq_filter hSorted
    (count_countSortedRankKeys hSorted rank) hOffset

/- What is kept is not sent. -/
theorem sendPart_withoutLocal
    {α : Type}
    (plan : ExchangePlan)
    (buffer : List α)
    (rank peer : Nat) :
    sendPart (withoutLocal plan rank) buffer peer =
      if rank = peer then [] else sendPart plan buffer peer := by
  by_cases hLocal : rank = peer
  · subst hLocal
    simp [sendPart, withoutLocal]
  · have hNe : peer ≠ rank := Ne.symm hLocal
    simp [sendPart, withoutLocal, hLocal, hNe]

/- The kept own rows and the received rows are all senders' rows. -/
theorem local_append_recvBuffer_perm
    {α : Type}
    (plans : Nat → ExchangePlan)
    (buffers : Nat → List α)
    (hRank : rank < worldSize) :
    (sendPart (plans rank) (buffers rank) rank ++
        recvBuffer worldSize
          (fun peer => withoutLocal (plans peer) peer) buffers
          rank).Perm
      ((List.range worldSize).flatMap fun sender =>
        sendPart (plans sender) (buffers sender) rank) := by
  simp only [recvBuffer, sendPart_withoutLocal]
  exact own_append_others_perm
    (fun sender => sendPart (plans sender) (buffers sender) rank)
    hRank

/- Without what is kept a rank receives no more. -/
theorem recvTotal_withoutLocal_le
    (plans : Nat → ExchangePlan)
    (worldSize rank : Nat) :
    recvTotal worldSize
        (fun peer => withoutLocal (plans peer) peer) rank ≤
      recvTotal worldSize plans rank := by
  apply below_le_below
  intro sender _
  by_cases hLocal : rank = sender
  · subst hLocal
    simp [withoutLocal]
  · simp [withoutLocal, hLocal]

/- A sorted buffer's rows of one rank, before the sort. -/
theorem filter_sortRequests_perm
    {ρ : Type}
    (sort : SortPairs Nat FinalRequest)
    (key : ρ → Nat)
    (request : ρ → FinalRequest)
    (rows : List ρ)
    (rank : Nat) :
    ((sort.run (rows.map fun row => (key row, request row))).filter
        fun p => p.1 = rank).Perm
      ((rows.filter fun row => key row = rank).map fun row =>
        (key row, request row)) := by
  have hPerm :=
    (sort.perm (rows.map fun row => (key row, request row))).filter
      fun p => decide (p.1 = rank)
  rw [List.filter_map] at hPerm
  exact hPerm

----------------
-- Requests
----------------

/- The rows whose parents one rank holds. -/
def workItems
    (input : MaterializeInput)
    (round rank : Nat) : List GlobalRow :=
  (List.range input.worldSize).flatMap fun sender =>
    (roundItems input round sender).filter fun row =>
      GlobalRow.source row = rank

/- The requests that a rank receives from its peers. -/
def requestRecv
    (input : MaterializeInput)
    (round rank : Nat) : List (Nat × FinalRequest) :=
  recvBuffer input.worldSize
    (fun peer => withoutLocal (requestPlan input round peer) peer)
    (sortedRequests input round) rank

/- The requests of a round, sorted by rank. -/
theorem sortedRequests_eq
    (input : MaterializeInput)
    (round rank : Nat) :
    sortedRequests input round rank =
      input.sortRequests.run
        ((roundItems input round rank).map fun row =>
          (GlobalRow.source row,
            (GlobalRow.item input row).request)) := by
  rw [sortedRequests, buildMaterializeChunk_eq, List.map_map]
  rfl

theorem sortedRequests_sorted
    (input : MaterializeInput)
    (round rank : Nat) :
    (sortedRequests input round rank).Pairwise
      fun p q => p.1 ≤ q.1 :=
  input.sortRequests.sorted _

/- What a rank sends to another are its rows from there. -/
theorem sendPart_requestPlan_perm
    (input : MaterializeInput)
    (round sender rank : Nat) :
    (sendPart (requestPlan input round sender)
        (sortedRequests input round sender) rank).Perm
      (((roundItems input round sender).filter fun row =>
        GlobalRow.source row = rank).map fun row =>
          (GlobalRow.source row,
            (GlobalRow.item input row).request)) := by
  rw [requestPlan,
    sendPart_countSortedRankKeys
      (sortedRequests_sorted input round sender),
    sortedRequests_eq]
  exact filter_sortRequests_perm _ _ _ _ _

/- And as many of them. -/
theorem count_requestPlan
    (input : MaterializeInput)
    (round sender rank : Nat) :
    (requestPlan input round sender).count rank =
      ((roundItems input round sender).filter fun row =>
        GlobalRow.source row = rank).length := by
  have hSorted := sortedRequests_sorted input round sender
  have hPerm :=
    sendPart_requestPlan_perm input round sender rank
  rw [requestPlan, sendPart_countSortedRankKeys hSorted] at hPerm
  rw [requestPlan, count_countSortedRankKeys hSorted,
    List.countP_eq_length_filter, hPerm.length_eq,
    List.length_map]

/- A rank works on exactly the rows whose parents it holds. -/
theorem responseWork_perm
    (input : MaterializeInput)
    (round : Nat)
    (hRank : rank < input.worldSize) :
    (responseWork input round rank
        (requestRecv input round rank)).Perm
      ((workItems input round rank).map fun row =>
        (GlobalRow.item input row).request) := by
  have hRows :=
    local_append_recvBuffer_perm (requestPlan input round)
      (sortedRequests input round) hRank
  have hSenders :
      ((List.range input.worldSize).flatMap fun sender =>
          sendPart (requestPlan input round sender)
            (sortedRequests input round sender) rank).Perm
        ((workItems input round rank).map fun row =>
          (GlobalRow.source row,
            (GlobalRow.item input row).request)) := by
    rw [workItems, List.map_flatMap]
    apply List.Perm.flatMap_left
    intro sender _
    exact sendPart_requestPlan_perm input round sender rank
  have hWork := (hRows.trans hSenders).map Prod.snd
  rw [List.map_map] at hWork
  exact hWork

end Final

end BeamSearch

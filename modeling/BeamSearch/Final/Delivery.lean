import BeamSearch.Final.Routing

/-
  What a whole materialisation delivers.

  The states of a round reach the rank their index belongs to,
  directly or through one of the three slots, and its history
  records reach the same rank. After the last round and the last
  drain every frontier slot was written once by a state and once
  by a record of the same candidate.

  Main declarations:
    * `RoundInvariant`
    * `materializeRound_preserves`
    * `finalMaterialize_delivers`
-/

namespace BeamSearch

open Cdf Compaction Exchange SegmentedReduce

namespace Final

variable {input : MaterializeInput} {ranks : Nat → MaterializeRank} {rank : Nat}

----------------
-- Responses
----------------

/- The rank's slot a row is written to. -/
def GlobalRow.localIdx
    (input : MaterializeInput)
    (row : GlobalRow) : Nat :=
  row.2 -
    targetBegin input.globalKeepCount input.worldSize
      (GlobalRow.target input row)

/- The child of a candidate, with cleared padding. -/
def childState
    (input : MaterializeInput)
    (candidate : CandidateMeta) : State :=
  clearStatePadding input.layout
    (applyMove input.layout
      (input.frontier (unpackSourceRank candidate.routePacked)
        candidate.parentIdx.toNat)
      (input.generators (unpackMove candidate.routePacked)))

/- The write of a row's state to the frontier. -/
def frontierWrite
    (input : MaterializeInput)
    (row : GlobalRow) : Nat × State :=
  (GlobalRow.localIdx input row, childState input row.1)

/- The write of its record. -/
def candidateWrite
    (input : MaterializeInput)
    (row : GlobalRow) : Nat × CandidateMeta :=
  (GlobalRow.localIdx input row, row.1)

/- The two parts of a word do not meet, so they add. -/
theorem or_shiftLeft_eq_add
    {low shift : Nat}
    (high : Nat)
    (hLow : low < 2 ^ shift) :
    low ||| high <<< shift = low + high * 2 ^ shift := by
  rw [Nat.or_comm, ← Nat.shiftLeft_add_eq_or_of_lt hLow,
    Nat.shiftLeft_eq, Nat.add_comm]

/- Four bytes read back a 32-bit number. -/
theorem getTargetLocalIdx_set
    (layout : StateLayout)
    {index : Nat}
    (hIndex : index < 2 ^ 32)
    (response : State) :
    getTargetLocalIdx layout
        (setTargetLocalIdx layout index response) = index := by
  have hBytes :
      getTargetLocalIdx layout
          (setTargetLocalIdx layout index response) =
        index % 2 ^ 8 ||| (index >>> 8 % 256) <<< 8 |||
            (index >>> 16 % 256) <<< 16 |||
          (index >>> 24 % 256) <<< 24 := by
    simp [getTargetLocalIdx, setTargetLocalIdx]
  have hTwo :
      index % 2 ^ 8 ||| (index >>> 8 % 256) <<< 8 =
        index % 2 ^ 16 := by
    rw [or_shiftLeft_eq_add _ (by omega),
      Nat.shiftRight_eq_div_pow]
    omega
  have hThree :
      index % 2 ^ 16 ||| (index >>> 16 % 256) <<< 16 =
        index % 2 ^ 24 := by
    rw [or_shiftLeft_eq_add _ (by omega),
      Nat.shiftRight_eq_div_pow]
    omega
  have hFour :
      index % 2 ^ 24 ||| (index >>> 24 % 256) <<< 24 = index := by
    rw [or_shiftLeft_eq_add _ (by omega),
      Nat.shiftRight_eq_div_pow]
    omega
  rw [hBytes, hTwo, hThree, hFour]

/- The index bytes lie in the padding. -/
theorem clearStatePadding_set
    (layout : StateLayout)
    (index : Nat)
    (response : State) :
    clearStatePadding layout
        (setTargetLocalIdx layout index response) =
      clearStatePadding layout response := by
  funext p
  have hRoom := layout.room
  simp only [clearStatePadding, setTargetLocalIdx]
  split_ifs <;> first | rfl | omega

/- What the host checks before the first round. -/
structure MaterializeInput.Admitted
    (input : MaterializeInput) : Prop where
  worldMax : input.worldSize ≤ 128
  chunkPos : 0 < input.chunkCapacity
  targetFits :
    ∀ rank < input.worldSize,
      localTargetCount input.globalKeepCount input.worldSize
          rank ≤
        input.frontierStates

/- The place of a row is one of its rank's. -/
theorem localIdx_lt
    (hValid : input.Valid)
    {row : GlobalRow}
    (hRow : row.2 < input.globalKeepCount) :
    GlobalRow.localIdx input row <
      localTargetCount input.globalKeepCount input.worldSize
        (GlobalRow.target input row) := by
  have hInside :=
    (targetRankForGlobal_eq_iff (GlobalRow.target input row)
      hValid.worldPos hRow).mp rfl
  rw [GlobalRow.localIdx, localTargetCount]
  omega

section Admitted

variable {row : GlobalRow}

/- So the cast to 32 bits changes nothing. -/
theorem localIdx_mod
    (hValid : input.Valid)
    (hAdmitted : input.Admitted)
    (hRow : row.2 < input.globalKeepCount) :
    GlobalRow.localIdx input row % 2 ^ 32 =
      GlobalRow.localIdx input row := by
  have hLt := localIdx_lt hValid hRow
  have hFits :=
    hAdmitted.targetFits (GlobalRow.target input row)
      (targetRankForGlobal_lt hValid.worldPos)
  have hMax := hValid.frontierStates
  exact Nat.mod_eq_of_lt (by omega)

/- The history record says the write of its row. -/
theorem historyWrite_item
    (hValid : input.Valid)
    (hAdmitted : input.Admitted)
    (hRow : row.2 < input.globalKeepCount) :
    historyWrite (GlobalRow.item input row).history =
      candidateWrite input row := by
  have hMod := localIdx_mod hValid hAdmitted hRow
  exact Prod.ext hMod rfl

/- The cast of the rank to 16 bits changes nothing either. -/
theorem returnRank_item
    (hValid : input.Valid)
    (hAdmitted : input.Admitted)
    (row : GlobalRow) :
    (GlobalRow.item input row).request.returnRank =
      GlobalRow.target input row := by
  have hLt :
      GlobalRow.target input row < input.worldSize :=
    targetRankForGlobal_lt hValid.worldPos
  have hMax := hAdmitted.worldMax
  have hNarrow : GlobalRow.target input row < 2 ^ 16 := by omega
  exact Nat.mod_eq_of_lt hNarrow

/- The source rank answers a request with the child state. -/
theorem scatterResponse_item
    (hValid : input.Valid)
    (hAdmitted : input.Admitted)
    (hRow : row.2 < input.globalKeepCount) :
    scatterResponse input.layout
        (materializeResponse input (GlobalRow.source row)
          (GlobalRow.item input row).request) =
      frontierWrite input row := by
  have hMod := localIdx_mod hValid hAdmitted hRow
  have hIndex :
      (GlobalRow.item input row).request.targetLocalIdx =
        GlobalRow.localIdx input row :=
    hMod
  have hLt : GlobalRow.localIdx input row < 2 ^ 32 := by
    rw [← hMod]
    exact Nat.mod_lt _ (Nat.two_pow_pos 32)
  rw [scatterResponse, materializeResponse, hIndex,
    getTargetLocalIdx_set input.layout hLt,
    clearStatePadding_set]
  rfl

----------------
-- One Round
----------------

/- The rows of one round that belong to one rank. -/
def deliveredItems
    (input : MaterializeInput)
    (round rank : Nat) : List GlobalRow :=
  (List.range input.worldSize).flatMap fun sender =>
    (roundItems input round sender).filter fun row =>
      GlobalRow.target input row = rank

/- The history records that a rank receives in a round. -/
def historyRecv
    (input : MaterializeInput)
    (round rank : Nat) : List FinalHistoryRecord :=
  recvBuffer input.worldSize
    (fun peer => fillTargetPlanForChunk input peer round)
    (historySend input round) rank

/-
  The requests that a rank works on in a round: its own and
  those it received.
-/
def roundWork
    (input : MaterializeInput)
    (round rank : Nat) : List FinalRequest :=
  responseWork input round rank (requestRecv input round rank)

/- The counts of the states that it answers with. -/
def responsePlan
    (input : MaterializeInput)
    (round rank : Nat) : ExchangePlan :=
  countSortedRankKeys
    (sortedWork input (roundWork input round rank))

/- The states that it receives. -/
def responseRecv
    (input : MaterializeInput)
    (round rank : Nat) : List State :=
  recvBuffer input.worldSize
    (fun peer => withoutLocal (responsePlan input round peer) peer)
    (fun peer =>
      responseSend input peer (roundWork input round peer))
    rank

/- A delivered row is one of the selection. -/
theorem index_lt_of_mem_deliveredItems
    (hValid : input.Valid)
    {round rank : Nat}
    (hMem : row ∈ deliveredItems input round rank) :
    row.2 < input.globalKeepCount := by
  rcases List.mem_flatMap.mp hMem with ⟨sender, hSender, hRow⟩
  exact index_lt_of_mem_globalItems hValid
    (List.mem_range.mp hSender)
    (mem_globalItems_of_mem_roundItems
      (List.mem_of_mem_filter hRow))

/- Every row with a held parent is a row of some sender. -/
theorem mem_workItems
    (hValid : input.Valid)
    {round rank : Nat}
    (hMem : row ∈ workItems input round rank) :
    GlobalRow.source row = rank ∧
      row.2 < input.globalKeepCount := by
  rcases List.mem_flatMap.mp hMem with ⟨sender, hSender, hRow⟩
  rcases List.mem_filter.mp hRow with ⟨hRound, hSource⟩
  refine ⟨of_decide_eq_true hSource, ?_⟩
  exact index_lt_of_mem_globalItems hValid
    (List.mem_range.mp hSender)
    (mem_globalItems_of_mem_roundItems hRound)

/-
  The received history says the writes of the delivered rows.
-/
theorem historyRecv_writes
    (hValid : input.Valid)
    (hAdmitted : input.Admitted)
    (round rank : Nat) :
    (historyRecv input round rank).map historyWrite =
      (deliveredItems input round rank).map
        (candidateWrite input) := by
  have hRecv :
      historyRecv input round rank =
        (deliveredItems input round rank).map fun row =>
          (GlobalRow.item input row).history := by
    rw [historyRecv, deliveredItems, recvBuffer,
      List.map_flatMap]
    apply List.flatMap_congr
    intro sender hSender
    exact sendPart_fillTargetPlan hValid round rank
      (List.mem_range.mp hSender)
  rw [hRecv, List.map_map]
  apply List.map_congr_left
  intro row hMem
  exact historyWrite_item hValid hAdmitted
    (index_lt_of_mem_deliveredItems hValid hMem)

/- The work is sorted by rank. -/
theorem sortedWork_sorted
    (input : MaterializeInput)
    (work : List FinalRequest) :
    (sortedWork input work).Pairwise fun p q => p.1 ≤ q.1 :=
  input.sortRequests.sorted _

/- A rank's requests of one return rank are its rows of that target. -/
theorem sendPart_responsePlan_perm
    (hValid : input.Valid)
    (hAdmitted : input.Admitted)
    (round rank : Nat)
    {sender : Nat}
    (hSender : sender < input.worldSize) :
    ((sendPart (responsePlan input round sender)
        (sortedWork input (roundWork input round sender))
        rank).map Prod.snd).Perm
      (((workItems input round sender).filter fun row =>
        GlobalRow.target input row = rank).map fun row =>
          (GlobalRow.item input row).request) := by
  have hSorted :=
    filter_sortRequests_perm input.sortRequests
      FinalRequest.returnRank id
      (roundWork input round sender) rank
  have hWork :=
    (responseWork_perm input round hSender).filter
      fun request => decide (request.returnRank = rank)
  rw [List.filter_map] at hWork
  have hKeys :
      (fun request : FinalRequest =>
          decide (request.returnRank = rank)) ∘
          (fun row => (GlobalRow.item input row).request) =
        fun row => decide (GlobalRow.target input row = rank) := by
    funext row
    simp only [Function.comp_apply,
      returnRank_item hValid hAdmitted]
  rw [hKeys] at hWork
  have hValues := hSorted.map Prod.snd
  rw [List.map_map] at hValues
  rw [responsePlan,
    sendPart_countSortedRankKeys (sortedWork_sorted input _)]
  have hIds :
      (((roundWork input round sender).filter fun request =>
          request.returnRank = rank).map
        (Prod.snd ∘ fun request =>
          (FinalRequest.returnRank request, id request))) =
        (roundWork input round sender).filter fun request =>
          request.returnRank = rank :=
    List.map_id _
  rw [hIds] at hValues
  exact hValues.trans hWork

/- A held parent's children go to the rows' targets. -/
theorem sendPart_responseSend_perm
    (hValid : input.Valid)
    (hAdmitted : input.Admitted)
    (round rank : Nat)
    {sender : Nat}
    (hSender : sender < input.worldSize) :
    ((sendPart (responsePlan input round sender)
        (responseSend input sender
          (roundWork input round sender))
        rank).map (scatterResponse input.layout)).Perm
      (((workItems input round sender).filter fun row =>
        GlobalRow.target input row = rank).map
          (frontierWrite input)) := by
  have hRequests :=
    (sendPart_responsePlan_perm hValid hAdmitted round rank
      hSender).map fun request =>
        scatterResponse input.layout
          (materializeResponse input sender request)
  rw [List.map_map, List.map_map] at hRequests
  have hWrites :
      ((workItems input round sender).filter fun row =>
          GlobalRow.target input row = rank).map
            ((fun request =>
              scatterResponse input.layout
                (materializeResponse input sender request)) ∘
              fun row => (GlobalRow.item input row).request) =
        ((workItems input round sender).filter fun row =>
          GlobalRow.target input row = rank).map
            (frontierWrite input) := by
    apply List.map_congr_left
    intro row hMem
    rcases mem_workItems hValid (List.mem_of_mem_filter hMem)
      with ⟨hSource, hRow⟩
    have hItem := scatterResponse_item hValid hAdmitted hRow
    rw [hSource] at hItem
    exact hItem
  rw [hWrites] at hRequests
  rw [responseSend, sendPart_map, List.map_map]
  exact hRequests

/- The rows of a target, through the ranks that hold the parents. -/
theorem workItems_target_perm
    (hValid : input.Valid)
    (round rank : Nat) :
    ((List.range input.worldSize).flatMap fun holder =>
        (workItems input round holder).filter fun row =>
          GlobalRow.target input row = rank).Perm
      (deliveredItems input round rank) := by
  simp only [workItems, filter_flatMap_range]
  refine (flatMap_comm_perm _ _ _).trans ?_
  rw [deliveredItems]
  apply List.Perm.flatMap_left
  intro sender hSender
  have hAll :
      (((roundItems input round sender).filter fun row =>
          GlobalRow.target input row = rank).filter fun row =>
            GlobalRow.source row < input.worldSize) =
        (roundItems input round sender).filter fun row =>
          GlobalRow.target input row = rank := by
    rw [List.filter_eq_self]
    intro row hMem
    have hGlobal :=
      mem_globalItems_of_mem_roundItems
        (List.mem_of_mem_filter hMem)
    exact decide_eq_true
      (source_lt_of_mem_globalItems hValid
        (List.mem_range.mp hSender) hGlobal)
  have hHolders :=
    flatMap_filter_perm GlobalRow.source
      ((roundItems input round sender).filter fun row =>
        GlobalRow.target input row = rank)
      input.worldSize
  rw [hAll] at hHolders
  simp only [List.filter_filter] at hHolders ⊢
  simp only [Bool.and_comm] at hHolders ⊢
  exact hHolders

/- Local and received states together are the rank's rows. -/
theorem responses_perm
    (hValid : input.Valid)
    (hAdmitted : input.Admitted)
    (round : Nat)
    {rank : Nat}
    (hRank : rank < input.worldSize) :
    (localReturns input rank (roundWork input round rank) ++
        (responseRecv input round rank).map
          (scatterResponse input.layout)).Perm
      ((deliveredItems input round rank).map
        (frontierWrite input)) := by
  have hLocal :
      localReturns input rank (roundWork input round rank) =
        (sendPart (responsePlan input round rank)
          (responseSend input rank (roundWork input round rank))
          rank).map (scatterResponse input.layout) := by
    rw [localReturns, responseSend, sendPart_map, List.map_map]
    rfl
  have hRows :=
    (local_append_recvBuffer_perm (responsePlan input round)
      (fun peer =>
        responseSend input peer (roundWork input round peer))
      hRank).map (scatterResponse input.layout)
  rw [List.map_append, ← hLocal, List.map_flatMap] at hRows
  have hHolders :
      ((List.range input.worldSize).flatMap fun sender =>
          (sendPart (responsePlan input round sender)
            (responseSend input sender
              (roundWork input round sender))
            rank).map (scatterResponse input.layout)).Perm
        ((List.range input.worldSize).flatMap fun sender =>
          ((workItems input round sender).filter fun row =>
            GlobalRow.target input row = rank).map
              (frontierWrite input)) := by
    apply List.Perm.flatMap_left
    intro sender hSender
    exact sendPart_responseSend_perm hValid hAdmitted round rank
      (List.mem_range.mp hSender)
  refine (hRows.trans hHolders).trans ?_
  rw [← List.map_flatMap]
  exact (workItems_target_perm hValid round rank).map _

end Admitted

----------------
-- Rounds That Return
----------------

/- What one round makes of the ranks. -/
def roundResult
    (input : MaterializeInput)
    (ranks : Nat → MaterializeRank)
    (round : Nat) : Nat → MaterializeRank :=
  fun rank =>
    finishRound input (round % 3) rank
      (historyRecv input round rank)
      (roundWork input round rank)
      (responseRecv input round rank)
      (drainResponseSlot input.layout (round % 3) (ranks rank))

/- A round that went through has the result of its plans. -/
theorem materializeRound_eq_ok
    {result : Nat → MaterializeRank}
    {round : Nat}
    (hRound : materializeRound input ranks round = .ok result) :
    result = roundResult input ranks round := by
  unfold materializeRound at hRound
  dsimp only at hRound
  split at hRound
  · exact nomatch hRound
  · rename_i history hHistory
    split at hRound
    · exact nomatch hRound
    · rename_i requests hRequests
      rw [exchange_eq_ok hHistory, exchange_eq_ok hRequests]
        at hRound
      split_ifs at hRound
      split at hRound
      · exact nomatch hRound
      · rename_i responses hResponses
        rw [exchange_eq_ok hResponses] at hRound
        exact (Except.ok.inj hRound).symm

/- No round fails at the count checks of the receivers. -/
theorem materializeRound_fault
    {round : Nat}
    {fault : MaterializeError}
    (hRound :
      materializeRound input ranks round = .error fault) :
    fault ≠ .historyRecvCount ∧ fault ≠ .responseRecvCount := by
  unfold materializeRound at hRound
  dsimp only at hRound
  split at hRound
  · cases hRound
    exact ⟨nofun, nofun⟩
  · split at hRound
    · cases hRound
      exact ⟨nofun, nofun⟩
    · split_ifs at hRound
      · cases hRound
        exact ⟨nofun, nofun⟩
      · split at hRound
        · cases hRound
          exact ⟨nofun, nofun⟩
        · exact nomatch hRound

/- A part of a chunk is no longer than a chunk. -/
theorem length_filter_roundItems_le
    (input : MaterializeInput)
    (keep : GlobalRow → Bool)
    (round sender : Nat) :
    ((roundItems input round sender).filter keep).length ≤
      input.chunkCapacity :=
  (List.length_filter_le _ _).trans
    (length_roundItems_le input round sender)

/- A rank receives a chunk from each rank at most. -/
theorem length_deliveredItems_le
    (input : MaterializeInput)
    (round rank : Nat) :
    (deliveredItems input round rank).length ≤
      input.worldSize * input.chunkCapacity := by
  rw [deliveredItems, length_flatMap_range]
  exact below_le_mul fun sender _ =>
    length_filter_roundItems_le input _ round sender

/- It works on as many rows at most. -/
theorem length_roundWork_le
    (input : MaterializeInput)
    (round : Nat)
    (hRank : rank < input.worldSize) :
    (roundWork input round rank).length ≤
      input.worldSize * input.chunkCapacity := by
  have hPerm := responseWork_perm input round hRank
  rw [roundWork, hPerm.length_eq, List.length_map, workItems,
    length_flatMap_range]
  exact below_le_mul fun sender _ =>
    length_filter_roundItems_le input _ round sender

section Capacity

/- The history that it receives is bounded so. -/
theorem recvTotal_history_le
    (hValid : input.Valid)
    (round rank : Nat) :
    recvTotal input.worldSize
        (fun peer => fillTargetPlanForChunk input peer round)
        rank ≤
      input.worldSize * input.chunkCapacity := by
  apply below_le_mul
  intro sender hSender
  have hCount :
      (fillTargetPlanForChunk input sender round).count rank =
        _ :=
    targetCountsForChunk_eq hValid round rank hSender
  rw [hCount]
  exact List.countP_le_length.trans
    (length_roundItems_le input round sender)

/- So are the requests. -/
theorem recvTotal_request_le
    (round rank : Nat) :
    recvTotal input.worldSize
        (fun peer =>
          withoutLocal (requestPlan input round peer) peer)
        rank ≤
      input.worldSize * input.chunkCapacity := by
  refine (recvTotal_withoutLocal_le _ _ _).trans ?_
  apply below_le_mul
  intro sender _
  rw [count_requestPlan]
  exact length_filter_roundItems_le input _ round sender

/- So are the answers. -/
theorem recvTotal_response_le
    (hValid : input.Valid)
    (hAdmitted : input.Admitted)
    (round rank : Nat) :
    recvTotal input.worldSize
        (fun peer =>
          withoutLocal (responsePlan input round peer) peer)
        rank ≤
      input.worldSize * input.chunkCapacity := by
  refine (recvTotal_withoutLocal_le _ _ _).trans ?_
  have hCounts :
      recvTotal input.worldSize (responsePlan input round) rank =
        (deliveredItems input round rank).length := by
    rw [← (workItems_target_perm hValid round rank).length_eq,
      length_flatMap_range]
    apply below_congr
    intro sender hSender
    have hPart :=
      (sendPart_responsePlan_perm hValid hAdmitted round rank
        hSender).length_eq
    rw [List.length_map, List.length_map, responsePlan,
      sendPart_countSortedRankKeys (sortedWork_sorted input _)]
      at hPart
    rw [responsePlan,
      count_countSortedRankKeys (sortedWork_sorted input _),
      List.countP_eq_length_filter, hPart]
  rw [hCounts]
  exact length_deliveredItems_le input round rank

/- A round returns when the exchange buffers hold all chunks. -/
theorem materializeRound_of_fits
    (hValid : input.Valid)
    (hAdmitted : input.Admitted)
    (hFits :
      input.worldSize * input.chunkCapacity ≤
        input.exchangeCapacity)
    (ranks : Nat → MaterializeRank)
    (round : Nat) :
    materializeRound input ranks round =
      .ok (roundResult input ranks round) := by
  have hChunk :
      input.chunkCapacity ≤
        input.worldSize * input.chunkCapacity :=
    Nat.le_mul_of_pos_left _ hValid.worldPos
  have hHistory :=
    exchange_of_fits (historySend input round)
      (fun rank hRank =>
        (total_fillTargetPlan hValid round hRank).trans_le
          (length_roundItems_le input round rank))
      (fun rank _ =>
        (recvTotal_history_le hValid round rank).trans hFits)
  have hSorted :
      ∀ rank < input.worldSize,
        (withoutLocal (requestPlan input round rank) rank).total ≤
          input.exchangeCapacity := by
    intro rank _
    change (sortedRequests input round rank).length ≤ _
    rw [sortedRequests_eq, SortPairs.length_run, List.length_map]
    exact ((length_roundItems_le input round rank).trans
      hChunk).trans hFits
  have hRequests :=
    exchange_of_fits (sortedRequests input round) hSorted
      (fun rank _ =>
        (recvTotal_request_le round rank).trans hFits)
  have hWork :
      ∀ rank < input.worldSize,
        (roundWork input round rank).length ≤
          input.exchangeCapacity :=
    fun rank hRank =>
      (length_roundWork_le input round hRank).trans hFits
  have hNoExcess :
      ((List.range input.worldSize).any fun rank =>
        decide
          ((roundWork input round rank).length >
            input.exchangeCapacity)) = false := by
    rw [List.any_eq_false]
    intro rank hMem
    have hLe := hWork rank (List.mem_range.mp hMem)
    simpa using hLe
  have hTotal :
      ∀ rank < input.worldSize,
        (withoutLocal (responsePlan input round rank) rank).total ≤
          input.exchangeCapacity := by
    intro rank hRank
    have hLength :
        (sortedWork input (roundWork input round rank)).length =
          (roundWork input round rank).length := by
      rw [sortedWork, SortPairs.length_run, List.length_map]
    exact hLength.trans_le (hWork rank hRank)
  have hResponses :=
    exchange_of_fits
      (fun rank =>
        responseSend input rank (roundWork input round rank))
      hTotal
      (fun rank _ =>
        (recvTotal_response_le hValid hAdmitted round rank).trans
          hFits)
  unfold materializeRound
  dsimp only
  rw [hHistory]
  dsimp only
  rw [hRequests]
  dsimp only
  change
    (if ((List.range input.worldSize).any fun rank =>
        decide
          ((roundWork input round rank).length >
            input.exchangeCapacity)) = true then _ else _) = _
  rw [hNoExcess, if_neg Bool.false_ne_true]
  split
  · next fault hFault =>
      cases hFault.symm.trans hResponses
  · next sent hSent =>
      cases hSent.symm.trans hResponses
      rfl

end Capacity

----------------
-- Slots And Rounds
----------------

/- The writes that still wait in the slots. -/
def slotWrites
    (layout : StateLayout)
    (responses : Nat → List State) : List (Nat × State) :=
  (List.range 3).flatMap fun slot =>
    (responses slot).map (scatterResponse layout)

/- The rows of a rank in the rounds so far. -/
def doneItems
    (input : MaterializeInput)
    (rounds rank : Nat) : List GlobalRow :=
  (List.range rounds).flatMap fun round =>
    deliveredItems input round rank

/-
  After some rounds: the records are written, the states are
  written or wait in a slot, and the totals count the writes.
-/
structure RoundInvariant
    (input : MaterializeInput)
    (rounds rank : Nat)
    (state : MaterializeRank) : Prop where
  candidates :
    state.candidateWrites.Perm
      ((doneItems input rounds rank).map (candidateWrite input))
  states :
    (state.nextFrontierWrites ++
        slotWrites input.layout state.slotResponses).Perm
      ((doneItems input rounds rank).map (frontierWrite input))
  historyTotal :
    state.historyRecvTotal = state.candidateWrites.length
  responseTotal :
    state.responseRecvTotal = state.nextFrontierWrites.length
  idle :
    ∀ slot,
      state.slotPending slot = false →
        state.slotResponses slot = []

/- The waiting writes are those of one slot and of the others. -/
theorem slotWrites_update
    (layout : StateLayout)
    (responses : Nat → List State)
    {slot : Nat}
    (hSlot : slot < 3)
    (xs : List State) :
    (slotWrites layout
        (Function.update responses slot xs)).Perm
      (xs.map (scatterResponse layout) ++
        slotWrites layout
          (Function.update responses slot [])) := by
  have hOwn :=
    own_append_others_perm
      (fun i =>
        (Function.update responses slot xs i).map
          (scatterResponse layout))
      hSlot
  have hOthers :
      ((List.range 3).flatMap fun i =>
          if i = slot then []
          else
            (Function.update responses slot xs i).map
              (scatterResponse layout)) =
        slotWrites layout
          (Function.update responses slot []) := by
    apply List.flatMap_congr
    intro i _
    by_cases hSame : i = slot
    · subst hSame
      simp
    · simp [hSame]
  rw [hOthers, Function.update_self] at hOwn
  exact hOwn.symm

/- Before the rounds nothing was done. -/
theorem initialRank_invariant
    (input : MaterializeInput)
    (rank : Nat) :
    RoundInvariant input 0 rank initialRank where
  candidates := by simp [initialRank, doneItems]
  states := by simp [initialRank, doneItems, slotWrites]
  historyTotal := rfl
  responseTotal := rfl
  idle := fun _ _ => rfl

/- A drain empties its slot and keeps what was delivered. -/
theorem drainResponseSlot_preserves
    {rounds slot : Nat}
    {state : MaterializeRank}
    (hInv : RoundInvariant input rounds rank state)
    (hSlot : slot < 3) :
    RoundInvariant input rounds rank
        (drainResponseSlot input.layout slot state) ∧
      (drainResponseSlot input.layout slot state).slotResponses =
        Function.update state.slotResponses slot [] := by
  by_cases hPending : state.slotPending slot = false
  · rw [drainResponseSlot, if_pos hPending]
    refine ⟨hInv, ?_⟩
    rw [← hInv.idle slot hPending, Function.update_eq_self]
  · rw [drainResponseSlot, if_neg hPending]
    have hOwn :=
      slotWrites_update input.layout state.slotResponses hSlot
        (state.slotResponses slot)
    rw [Function.update_eq_self] at hOwn
    refine ⟨?_, rfl⟩
    constructor
    case candidates => exact hInv.candidates
    case states =>
      dsimp only
      rw [List.append_assoc]
      exact (hOwn.symm.append_left _).trans hInv.states
    case historyTotal => exact hInv.historyTotal
    case responseTotal =>
      dsimp only
      rw [List.length_append, List.length_map,
        hInv.responseTotal]
    case idle =>
      intro other hOther
      dsimp only at hOther ⊢
      by_cases hSame : other = slot
      · rw [hSame, Function.update_self]
      · rw [Function.update_of_ne hSame] at hOther ⊢
        exact hInv.idle other hOther

/- One round delivers its rows. -/
theorem materializeRound_preserves
    (hValid : input.Valid)
    (hAdmitted : input.Admitted)
    {round : Nat}
    (hRank : rank < input.worldSize)
    (hInv : RoundInvariant input round rank (ranks rank)) :
    RoundInvariant input (round + 1) rank
      (roundResult input ranks round rank) := by
  have hSlot : round % 3 < 3 := Nat.mod_lt _ (by decide)
  rcases drainResponseSlot_preserves hInv hSlot with
    ⟨hDrained, hSlots⟩
  have hDone :
      doneItems input (round + 1) rank =
        doneItems input round rank ++
          deliveredItems input round rank := by
    simp [doneItems, List.range_succ]
  have hRound := responses_perm hValid hAdmitted round hRank
  constructor
  case candidates =>
    rw [hDone, List.map_append]
    change
      ((drainResponseSlot input.layout (round % 3)
          (ranks rank)).candidateWrites ++
        (historyRecv input round rank).map historyWrite).Perm _
    rw [historyRecv_writes hValid hAdmitted]
    exact hDrained.candidates.append_right _
  case states =>
    rw [hDone, List.map_append]
    change
      ((drainResponseSlot input.layout (round % 3)
            (ranks rank)).nextFrontierWrites ++
          localReturns input rank (roundWork input round rank) ++
        slotWrites input.layout
          (Function.update
            (drainResponseSlot input.layout (round % 3)
              (ranks rank)).slotResponses
            (round % 3) (responseRecv input round rank))).Perm _
    have hWaiting :=
      slotWrites_update input.layout
        (drainResponseSlot input.layout (round % 3)
          (ranks rank)).slotResponses
        hSlot (responseRecv input round rank)
    have hSame :
        Function.update
            (drainResponseSlot input.layout (round % 3)
              (ranks rank)).slotResponses
            (round % 3) [] =
          (drainResponseSlot input.layout (round % 3)
            (ranks rank)).slotResponses := by
      rw [hSlots, Function.update_idem]
    rw [hSame] at hWaiting
    refine (hWaiting.append_left _).trans ?_
    refine List.Perm.trans ?_ (hDrained.states.append hRound)
    rw [List.append_assoc, List.append_assoc]
    apply List.Perm.append_left
    rw [← List.append_assoc]
    exact List.perm_append_comm
  case historyTotal =>
    change
      (drainResponseSlot input.layout (round % 3)
            (ranks rank)).historyRecvTotal +
          (historyRecv input round rank).length =
        ((drainResponseSlot input.layout (round % 3)
            (ranks rank)).candidateWrites ++
          (historyRecv input round rank).map
            historyWrite).length
    rw [List.length_append, List.length_map,
      hDrained.historyTotal]
  case responseTotal =>
    change
      (drainResponseSlot input.layout (round % 3)
            (ranks rank)).responseRecvTotal +
          (localReturns input rank
            (roundWork input round rank)).length =
        ((drainResponseSlot input.layout (round % 3)
            (ranks rank)).nextFrontierWrites ++
          localReturns input rank
            (roundWork input round rank)).length
    rw [List.length_append, hDrained.responseTotal]
  case idle =>
    intro other hOther
    simp only [roundResult, finishRound] at hOther ⊢
    by_cases hSame : other = round % 3
    · rw [hSame, Function.update_self] at hOther
      exact nomatch hOther
    · rw [Function.update_of_ne hSame] at hOther ⊢
      exact hDrained.idle other hOther

/- All rounds together. -/
theorem materializeRounds_preserve
    (hValid : input.Valid)
    (hAdmitted : input.Admitted)
    (rounds : Nat)
    (hRun :
      (List.range rounds).foldlM (materializeRound input)
          (fun _ => initialRank) =
        .ok ranks) :
    ∀ rank < input.worldSize,
      RoundInvariant input rounds rank (ranks rank) := by
  induction rounds generalizing ranks with
  | zero =>
      cases hRun
      exact fun rank _ => initialRank_invariant input rank
  | succ rounds ih =>
      rw [List.range_succ, List.foldlM_append] at hRun
      cases hBefore :
          (List.range rounds).foldlM (materializeRound input)
            (fun _ => initialRank) with
      | error fault =>
          rw [hBefore] at hRun
          exact nomatch hRun
      | ok before =>
          rw [hBefore] at hRun
          have hRound :
              materializeRound input before rounds = .ok ranks := by
            rw [← hRun]
            exact (bind_pure _).symm
          intro rank hRank
          rw [materializeRound_eq_ok hRound]
          exact materializeRound_preserves hValid hAdmitted hRank
            (ih hBefore rank hRank)

/- The last drains leave no state behind. -/
theorem drainAllSlots_preserves
    {rounds : Nat}
    {state : MaterializeRank}
    (hInv : RoundInvariant input rounds rank state) :
    let drained := drainAllSlots input.layout state
    RoundInvariant input rounds rank drained ∧
      slotWrites input.layout drained.slotResponses = [] := by
  rcases drainResponseSlot_preserves hInv
      (show 0 < 3 by decide) with ⟨hFirst, hSlotsFirst⟩
  rcases drainResponseSlot_preserves hFirst
      (show 1 < 3 by decide) with ⟨hSecond, hSlotsSecond⟩
  rcases drainResponseSlot_preserves hSecond
      (show 2 < 3 by decide) with ⟨hThird, hSlotsThird⟩
  refine ⟨hThird, ?_⟩
  change
    slotWrites input.layout
      (drainResponseSlot input.layout 2
        (drainResponseSlot input.layout 1
          (drainResponseSlot input.layout 0
            state))).slotResponses = []
  rw [hSlotsThird, hSlotsSecond, hSlotsFirst]
  rfl

----------------
-- Every Kept Row Once
----------------

/- The greatest count is no less than any. -/
theorem le_foldl_max
    (f : Nat → Nat)
    {i n : Nat}
    (hLt : i < n) :
    f i ≤ (List.range n).foldl (fun m r => max m (f r)) 0 := by
  induction n with
  | zero => omega
  | succ n ih =>
      rw [List.range_succ, List.foldl_append, List.foldl_cons,
        List.foldl_nil]
      rcases Nat.lt_succ_iff_lt_or_eq.mp hLt with hOld | hLast
      · exact (ih hOld).trans (le_max_left _ _)
      · rw [hLast]
        exact le_max_right _ _

/- The rounds reach the end of every rank's selected buffer. -/
theorem length_globalItems_le
    (hPos : 0 < input.chunkCapacity)
    (hRank : rank < input.worldSize) :
    (globalItems input rank).length ≤
      input.globalChunkRounds * input.chunkCapacity := by
  have hMax :
      input.selectedForRank rank ≤ input.maxSelectedCount :=
    le_foldl_max input.selectedForRank hRank
  have hRounds :
      input.globalChunkRounds =
        ceilDiv input.maxSelectedCount input.chunkCapacity := by
    rw [ceilDiv, if_neg (Nat.ne_of_gt hPos)]
    rfl
  have hCeil :
      input.maxSelectedCount ≤
        input.globalChunkRounds * input.chunkCapacity := by
    rw [hRounds]
    exact (ceilDiv_le_iff hPos).mp le_rfl
  rw [length_globalItems, length_selected]
  exact hMax.trans hCeil

/- All rounds deliver to a rank the kept rows of its interval. -/
theorem doneItems_perm
    (hPos : 0 < input.chunkCapacity)
    (rank : Nat) :
    (doneItems input input.globalChunkRounds rank).Perm
      (input.globalRows.zipIdx.filter fun row =>
        GlobalRow.target input row = rank) := by
  have hGlobal :=
    (globalItems_perm input).filter fun row =>
      decide (GlobalRow.target input row = rank)
  rw [filter_flatMap_range] at hGlobal
  refine List.Perm.trans ?_ hGlobal
  simp only [doneItems, deliveredItems]
  refine (flatMap_comm_perm _ _ _).trans (List.Perm.of_eq ?_)
  apply List.flatMap_congr
  intro sender hSender
  have hAll :
      (globalItems input sender).take
          (input.globalChunkRounds * input.chunkCapacity) =
        globalItems input sender :=
    List.take_of_length_le
      (length_globalItems_le hPos (List.mem_range.mp hSender))
  rw [← filter_flatMap_range
    (fun row => decide (GlobalRow.target input row = rank))]
  simp only [roundItems]
  rw [flatMap_chunks, hAll]

/- A row of the selection has its index. -/
theorem mem_zipIdx_globalRows
    (hValid : input.Valid)
    {row : GlobalRow}
    (hMem : row ∈ input.globalRows.zipIdx) :
    row.2 < input.globalKeepCount := by
  have hLt := List.snd_lt_add_of_mem_zipIdx hMem
  rw [length_globalRows hValid] at hLt
  omega

/- A rank's kept rows name its slots once each. -/
theorem map_localIdx_perm
    (hValid : input.Valid)
    (hRank : rank < input.worldSize) :
    ((input.globalRows.zipIdx.filter fun row =>
        GlobalRow.target input row = rank).map
          (GlobalRow.localIdx input)).Perm
      (List.range
        (localTargetCount input.globalKeepCount
          input.worldSize rank)) := by
  have hLast :
      targetBegin input.globalKeepCount input.worldSize
          (rank + 1) ≤
        input.globalKeepCount := by
    have hMono :=
      targetBegin_mono input.globalKeepCount hValid.worldPos
        (show rank + 1 ≤ input.worldSize by omega)
    rwa [targetBegin_worldSize _ hValid.worldPos] at hMono
  have hInside :
      ∀ row ∈ input.globalRows.zipIdx.filter (fun row =>
          decide (GlobalRow.target input row = rank)),
        GlobalRow.target input row = rank ∧
          targetBegin input.globalKeepCount input.worldSize
              rank ≤ row.2 ∧
            row.2 <
              targetBegin input.globalKeepCount input.worldSize
                (rank + 1) := by
    intro row hMem
    rcases List.mem_filter.mp hMem with ⟨hZip, hTarget⟩
    have hEq := of_decide_eq_true hTarget
    exact ⟨hEq,
      (targetRankForGlobal_eq_iff rank hValid.worldPos
        (mem_zipIdx_globalRows hValid hZip)).mp hEq⟩
  rw [List.perm_ext_iff_of_nodup _ List.nodup_range]
  · intro slot
    rw [List.mem_map, List.mem_range, localTargetCount]
    constructor
    · rintro ⟨row, hMem, rfl⟩
      rcases hInside row hMem with ⟨hEq, hLower, hUpper⟩
      rw [GlobalRow.localIdx, hEq]
      omega
    · intro hSlot
      let index :=
        targetBegin input.globalKeepCount input.worldSize rank +
          slot
      have hIndex :
          targetBegin input.globalKeepCount input.worldSize
                rank ≤ index ∧
            index <
              targetBegin input.globalKeepCount input.worldSize
                (rank + 1) := by
        omega
      have hKept : index < input.globalKeepCount := by omega
      have hLength : index < input.globalRows.length := by
        rw [length_globalRows hValid]
        exact hKept
      have hTarget :
          targetRankForGlobal index input.globalKeepCount
              input.worldSize =
            rank :=
        (targetRankForGlobal_eq_iff rank hValid.worldPos
          hKept).mpr hIndex
      refine ⟨(input.globalRows[index], index), ?_, ?_⟩
      · refine List.mem_filter.mpr ⟨?_, decide_eq_true hTarget⟩
        exact List.mem_zipIdx_iff_getElem?.mpr
          (List.getElem?_eq_getElem hLength)
      · rw [GlobalRow.localIdx, GlobalRow.target]
        dsimp only
        rw [hTarget]
        omega
  · apply List.Nodup.map_on
    · intro p hP q hQ hSame
      rcases hInside p hP with ⟨hEqP, hLowerP, -⟩
      rcases hInside q hQ with ⟨hEqQ, hLowerQ, -⟩
      rw [GlobalRow.localIdx, GlobalRow.localIdx, hEqP, hEqQ]
        at hSame
      have hIndex : p.2 = q.2 := by omega
      have hRowP :=
        List.mem_zipIdx_iff_getElem?.mp (List.mem_of_mem_filter hP)
      have hRowQ :=
        List.mem_zipIdx_iff_getElem?.mp (List.mem_of_mem_filter hQ)
      rw [hIndex, hRowQ] at hRowP
      exact Prod.ext (Option.some.inj hRowP).symm hIndex
    · apply List.Nodup.filter
      apply List.Nodup.of_map Prod.snd
      rw [List.zipIdx_map_snd]
      exact List.nodup_range'

----------------
-- The Whole Materialisation
----------------

/- The rounds do not fail at those checks. -/
theorem materializeRounds_fault
    (rounds : Nat)
    {fault : MaterializeError}
    (hRun :
      (List.range rounds).foldlM (materializeRound input)
          (fun _ => initialRank) =
        .error fault) :
    fault ≠ .historyRecvCount ∧ fault ≠ .responseRecvCount := by
  induction rounds with
  | zero => exact nomatch hRun
  | succ rounds ih =>
      rw [List.range_succ, List.foldlM_append] at hRun
      cases hBefore :
          (List.range rounds).foldlM (materializeRound input)
            (fun _ => initialRank) with
      | error before =>
          rw [hBefore] at hRun
          cases hRun
          exact ih hBefore
      | ok before =>
          rw [hBefore] at hRun
          have hRound :
              materializeRound input before rounds =
                .error fault := by
            rw [← hRun]
            exact (bind_pure _).symm
          exact materializeRound_fault hRound

/- Where the exchange is large enough all rounds go through. -/
theorem materializeRounds_of_fits
    (hValid : input.Valid)
    (hAdmitted : input.Admitted)
    (hFits :
      input.worldSize * input.chunkCapacity ≤
        input.exchangeCapacity)
    (rounds : Nat) :
    ∃ ranks,
      (List.range rounds).foldlM (materializeRound input)
          (fun _ => initialRank) =
        .ok ranks := by
  induction rounds with
  | zero => exact ⟨_, rfl⟩
  | succ rounds ih =>
      rcases ih with ⟨before, hBefore⟩
      refine ⟨roundResult input before rounds, ?_⟩
      rw [List.range_succ, List.foldlM_append, hBefore]
      have hRound :=
        materializeRound_of_fits hValid hAdmitted hFits before
          rounds
      rw [← hRound]
      exact bind_pure (materializeRound input before rounds)

/- After the last drain a rank's slots are written once each. -/
theorem drained_writes
    (hValid : input.Valid)
    (hAdmitted : input.Admitted)
    (hRun :
      (List.range input.globalChunkRounds).foldlM
          (materializeRound input) (fun _ => initialRank) =
        .ok ranks)
    (hRank : rank < input.worldSize) :
    let drained := drainAllSlots input.layout (ranks rank)
    let rows :=
      input.globalRows.zipIdx.filter fun row =>
        GlobalRow.target input row = rank
    drained.nextFrontierWrites.Perm
        (rows.map (frontierWrite input)) ∧
      drained.candidateWrites.Perm
        (rows.map (candidateWrite input)) ∧
      drained.historyRecvTotal = rows.length ∧
      drained.responseRecvTotal = rows.length := by
  intro drained rows
  have hInv :=
    materializeRounds_preserve hValid hAdmitted
      input.globalChunkRounds hRun rank hRank
  rcases drainAllSlots_preserves hInv with ⟨hDrained, hNone⟩
  have hRows := doneItems_perm hAdmitted.chunkPos rank
  have hStates := hDrained.states
  rw [hNone, List.append_nil] at hStates
  have hFrontier := hStates.trans (hRows.map _)
  have hCandidates := hDrained.candidates.trans (hRows.map _)
  refine ⟨hFrontier, hCandidates, ?_, ?_⟩
  · rw [hDrained.historyTotal, hCandidates.length_eq,
      List.length_map]
  · rw [hDrained.responseTotal, hFrontier.length_eq,
      List.length_map]

/- A rank gets its quota of rows. -/
theorem length_filter_target
    (hValid : input.Valid)
    (hRank : rank < input.worldSize) :
    (input.globalRows.zipIdx.filter fun row =>
        GlobalRow.target input row = rank).length =
      localTargetCount input.globalKeepCount input.worldSize
        rank := by
  have hLength := (map_localIdx_perm hValid hRank).length_eq
  rwa [List.length_map, List.length_range] at hLength

/- A check that holds nowhere stops nothing. -/
theorem any_range_eq_false
    {check : Nat → Prop}
    [DecidablePred check]
    {n : Nat}
    (hNone : ∀ i < n, ¬ check i) :
    ((List.range n).any fun i => decide (check i)) = false := by
  rw [List.any_eq_false]
  intro i hMem
  simpa using hNone i (List.mem_range.mp hMem)

/- The counts agree whenever the rounds return. -/
theorem finalMaterialize_of_rounds
    (hValid : input.Valid)
    (hAdmitted : input.Admitted)
    (hExchange : 0 < input.exchangeCapacity)
    (hRun :
      (List.range input.globalChunkRounds).foldlM
          (materializeRound input) (fun _ => initialRank) =
        .ok ranks) :
    finalMaterialize input =
      .ok fun rank =>
        drainAllSlots input.layout (ranks rank) := by
  have hFits :
      ((List.range input.worldSize).any fun rank =>
        decide
          (localTargetCount input.globalKeepCount
              input.worldSize rank >
            input.frontierStates)) = false :=
    any_range_eq_false fun rank hRank =>
      not_lt.mpr (hAdmitted.targetFits rank hRank)
  have hHistory :
      ((List.range input.worldSize).any fun rank =>
        decide
          ((drainAllSlots input.layout
              (ranks rank)).historyRecvTotal ≠
            localTargetCount input.globalKeepCount
              input.worldSize rank)) = false := by
    apply any_range_eq_false
    intro rank hRank hNe
    rcases drained_writes hValid hAdmitted hRun hRank with
      ⟨-, -, hTotal, -⟩
    exact hNe (hTotal.trans (length_filter_target hValid hRank))
  have hResponse :
      ((List.range input.worldSize).any fun rank =>
        decide
          ((drainAllSlots input.layout
              (ranks rank)).responseRecvTotal ≠
            localTargetCount input.globalKeepCount
              input.worldSize rank)) = false := by
    apply any_range_eq_false
    intro rank hRank hNe
    rcases drained_writes hValid hAdmitted hRun hRank with
      ⟨-, -, -, hTotal⟩
    exact hNe (hTotal.trans (length_filter_target hValid hRank))
  have hWorld : ¬ input.worldSize > 128 :=
    not_lt.mpr hAdmitted.worldMax
  have hLayout :
      ¬ (input.chunkCapacity = 0 ∨
        input.exchangeCapacity = 0) := by
    have hChunk := hAdmitted.chunkPos
    omega
  unfold finalMaterialize
  dsimp only
  rw [if_neg hWorld, hFits, if_neg Bool.false_ne_true,
    if_neg hLayout, hRun]
  dsimp only
  rw [hHistory, if_neg Bool.false_ne_true, hResponse,
    if_neg Bool.false_ne_true]

/- A materialisation stops at a check or runs all rounds. -/
theorem finalMaterialize_cases
    (hValid : input.Valid) :
    (∃ fault,
      finalMaterialize input = .error fault ∧
        fault ≠ .historyRecvCount ∧
        fault ≠ .responseRecvCount) ∨
      ∃ ranks,
        input.Admitted ∧
          (List.range input.globalChunkRounds).foldlM
              (materializeRound input) (fun _ => initialRank) =
            .ok ranks ∧
          finalMaterialize input =
            .ok fun rank =>
              drainAllSlots input.layout (ranks rank) := by
  by_cases hWorld : input.worldSize > 128
  · exact .inl ⟨.worldSize, by
      unfold finalMaterialize
      rw [if_pos hWorld], nofun, nofun⟩
  by_cases hFits :
      ((List.range input.worldSize).any fun rank =>
        decide
          (localTargetCount input.globalKeepCount
              input.worldSize rank >
            input.frontierStates)) = true
  · exact .inl ⟨.targetExceedsFrontier, by
      unfold finalMaterialize
      dsimp only
      rw [if_neg hWorld, if_pos hFits], nofun, nofun⟩
  by_cases hLayout :
      input.chunkCapacity = 0 ∨ input.exchangeCapacity = 0
  · exact .inl ⟨.slotLayout, by
      unfold finalMaterialize
      dsimp only
      rw [if_neg hWorld, if_neg hFits, if_pos hLayout],
      nofun, nofun⟩
  have hAdmitted : input.Admitted := by
    refine ⟨not_lt.mp hWorld, by omega, ?_⟩
    intro rank hRank
    rw [Bool.not_eq_true, List.any_eq_false] at hFits
    have hNot := hFits rank (List.mem_range.mpr hRank)
    simpa using hNot
  cases hRun :
      (List.range input.globalChunkRounds).foldlM
        (materializeRound input) (fun _ => initialRank) with
  | error fault =>
      have hFault := materializeRounds_fault _ hRun
      refine .inl ⟨fault, ?_, hFault⟩
      unfold finalMaterialize
      dsimp only
      rw [if_neg hWorld, if_neg hFits, if_neg hLayout, hRun]
  | ok ranks =>
      exact .inr ⟨ranks, hAdmitted, rfl,
        finalMaterialize_of_rounds hValid hAdmitted (by omega)
          hRun⟩

/-
  The two count checks never fail, and exchange buffers for a
  chunk of every rank suffice. Whenever the materialisation
  returns, every slot of every rank was written once by a state
  and once by a record, and both are those of the kept row whose
  index owns the slot.
-/
theorem finalMaterialize_delivers
    (input : MaterializeInput)
    (hValid : input.Valid) :
    finalMaterialize input ≠ .error .historyRecvCount ∧
      finalMaterialize input ≠ .error .responseRecvCount ∧
      (input.Admitted →
        input.worldSize * input.chunkCapacity ≤
            input.exchangeCapacity →
          ∃ ranks, finalMaterialize input = .ok ranks) ∧
      ∀ ranks,
        finalMaterialize input = .ok ranks →
          (∀ rank < input.worldSize,
            ((ranks rank).nextFrontierWrites.map Prod.fst).Perm
                (List.range
                  (localTargetCount input.globalKeepCount
                    input.worldSize rank)) ∧
              ((ranks rank).candidateWrites.map Prod.fst).Perm
                (List.range
                  (localTargetCount input.globalKeepCount
                    input.worldSize rank))) ∧
            ∀ index < input.globalKeepCount,
              ∃ candidate,
                input.globalRows[index]? = some candidate ∧
                  let target :=
                    targetRankForGlobal index
                      input.globalKeepCount input.worldSize
                  let slot :=
                    index -
                      targetBegin input.globalKeepCount
                        input.worldSize target
                  (∀ states,
                    applyWrites (ranks target).nextFrontierWrites
                        states slot =
                      childState input candidate) ∧
                    ∀ candidates,
                      applyWrites (ranks target).candidateWrites
                          candidates slot =
                        candidate := by
  rcases finalMaterialize_cases hValid with
    ⟨fault, hFault, hHistory, hResponse⟩ |
      ⟨before, hAdmitted, hRun, hDone⟩
  · rw [hFault]
    refine ⟨fun hEq => hHistory (Except.error.inj hEq),
      fun hEq => hResponse (Except.error.inj hEq), ?_, nofun⟩
    intro hAdmitted hFits
    rcases materializeRounds_of_fits hValid hAdmitted hFits
        input.globalChunkRounds with ⟨before, hRun⟩
    have hExchange : 0 < input.exchangeCapacity :=
      (Nat.mul_pos hValid.worldPos hAdmitted.chunkPos).trans_le
        hFits
    rw [finalMaterialize_of_rounds hValid hAdmitted hExchange
      hRun] at hFault
    exact nomatch hFault
  · rw [hDone]
    refine ⟨nofun, nofun, fun _ _ => ⟨_, rfl⟩, ?_⟩
    intro ranks hRanks
    rw [← Except.ok.inj hRanks]
    have hIndices :
        ∀ rank < input.worldSize,
          ((drainAllSlots input.layout
              (before rank)).nextFrontierWrites.map
                Prod.fst).Perm
              (List.range
                (localTargetCount input.globalKeepCount
                  input.worldSize rank)) ∧
            ((drainAllSlots input.layout
              (before rank)).candidateWrites.map
                Prod.fst).Perm
              (List.range
                (localTargetCount input.globalKeepCount
                  input.worldSize rank)) := by
      intro rank hRank
      rcases drained_writes hValid hAdmitted hRun hRank with
        ⟨hStates, hCandidates, -, -⟩
      have hSlots := map_localIdx_perm hValid hRank
      have hStateSlots := hStates.map Prod.fst
      have hCandidateSlots := hCandidates.map Prod.fst
      rw [List.map_map] at hStateSlots hCandidateSlots
      exact ⟨hStateSlots.trans hSlots,
        hCandidateSlots.trans hSlots⟩
    refine ⟨hIndices, ?_⟩
    intro index hIndex
    have hLength : index < input.globalRows.length := by
      rw [length_globalRows hValid]
      exact hIndex
    refine ⟨input.globalRows[index],
      List.getElem?_eq_getElem hLength, ?_⟩
    intro target slot
    have hTarget : target < input.worldSize :=
      targetRankForGlobal_lt hValid.worldPos
    have hRow :
        ((input.globalRows[index], index) : GlobalRow) ∈
          input.globalRows.zipIdx.filter fun row =>
            GlobalRow.target input row = target := by
      refine List.mem_filter.mpr ⟨?_, decide_eq_true rfl⟩
      exact List.mem_zipIdx_iff_getElem?.mpr
        (List.getElem?_eq_getElem hLength)
    rcases drained_writes hValid hAdmitted hRun hTarget with
      ⟨hStates, hCandidates, -, -⟩
    rcases hIndices target hTarget with
      ⟨hStateSlots, hCandidateSlots⟩
    constructor
    · intro states
      exact applyWrites_of_mem states
        (hStateSlots.nodup_iff.mpr List.nodup_range)
        (hStates.mem_iff.mpr (List.mem_map_of_mem hRow))
    · intro candidates
      exact applyWrites_of_mem candidates
        (hCandidateSlots.nodup_iff.mpr List.nodup_range)
        (hCandidates.mem_iff.mpr (List.mem_map_of_mem hRow))

/-
  Two ranks with a less and an equal row each. Three rows are
  kept, and every row's parent lies on the other rank.
-/
def twoRanks : MaterializeInput :=
  let row := fun (hash : UInt64) (source : UInt32) =>
    { hash := { lo := hash, hi := 0 }
      parentIdx := 0
      scoreKey := 0
      routePacked := source <<< 16 : CandidateMeta }
  { worldSize := 2
    chunkCapacity := 1
    exchangeCapacity := 2
    frontierStates := 2
    layout := { stateLen := 1, storageLen := 8, room := by decide }
    lessRows := fun rank =>
      if rank = 0 then [row 1 1] else [row 2 0]
    equalRows := fun rank =>
      if rank = 0 then [row 3 1] else [row 4 0]
    globalKeepCount := 3
    frontier := fun rank _ _ => UInt8.ofNat rank
    generators := fun _ position => position
    sortRequests := insertionSortPairs }

theorem finalMaterialize_delivers_twoRanks :
    ∃ ranks,
      finalMaterialize twoRanks = .ok ranks ∧
        ((ranks 0).nextFrontierWrites.map Prod.fst).Perm
          (List.range 2) ∧
        ((ranks 1).candidateWrites.map Prod.fst).Perm
          (List.range 1) := by
  have hValid : twoRanks.Valid :=
    ⟨by decide, by decide, by decide, by decide, by decide⟩
  have hAdmitted : twoRanks.Admitted :=
    ⟨by decide, by decide, by decide⟩
  rcases finalMaterialize_delivers twoRanks hValid with
    ⟨-, -, hReturns, hDelivers⟩
  rcases hReturns hAdmitted (by decide) with ⟨ranks, hRanks⟩
  rcases hDelivers ranks hRanks with ⟨hSlots, -⟩
  exact ⟨ranks, hRanks, (hSlots 0 (by decide)).1,
    (hSlots 1 (by decide)).2⟩

end Final

end BeamSearch

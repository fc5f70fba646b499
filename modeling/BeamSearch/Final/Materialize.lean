import BeamSearch.Core.Types
import BeamSearch.Lib.Exchange
import BeamSearch.Lib.SegmentedReduce

/-
  The multi-rank materialisation.

  Every rank walks its selected candidates in chunks. A chunk's
  history records go to the target ranks; its requests go to the
  source ranks, which apply the moves and return the states to
  the target ranks. Received states wait in one of three slots
  until the slot is used again.

  Main declarations:
    * `MaterializeInput`
    * `materializeRound`
    * `finalMaterialize`
-/

namespace BeamSearch

open Cdf Compaction Exchange SegmentedReduce

namespace Final

----------------
-- States And Messages
----------------

/- The bytes of a stored state. -/
abbrev State : Type :=
  Nat → UInt8

/-
  A state of the domain in its storage; the padding has room
  for a target index.
-/
structure StateLayout where
  stateLen : Nat
  storageLen : Nat
  room : stateLen + 4 ≤ storageLen

/-
  What a rank asks for: the child of a parent and where it
  goes.
-/
structure FinalRequest where
  parentIdx : Nat
  targetLocalIdx : Nat
  returnRank : Nat
  move : Nat
deriving DecidableEq, Repr

/- A record and where it goes. -/
structure FinalHistoryRecord where
  record : CandidateMeta
  targetLocalIdx : Nat
deriving DecidableEq, Repr

/- The child of a parent. Beyond the storage nothing is read. -/
def applyMove
    (layout : StateLayout)
    (parent : State)
    (generator : Nat → Nat) : State :=
  fun p => if p < layout.storageLen then parent (generator p) else 0

/- The padding is zero. -/
def clearStatePadding
    (layout : StateLayout)
    (state : State) : State :=
  fun p =>
    if layout.stateLen ≤ p ∧ p < layout.storageLen then 0
    else state p

/- The target index travels in the padding, lowest byte first. -/
def setTargetLocalIdx
    (layout : StateLayout)
    (targetLocalIdx : Nat)
    (response : State) : State :=
  fun p =>
    if p = layout.stateLen then
      UInt8.ofNat targetLocalIdx
    else if p = layout.stateLen + 1 then
      UInt8.ofNat (targetLocalIdx >>> 8)
    else if p = layout.stateLen + 2 then
      UInt8.ofNat (targetLocalIdx >>> 16)
    else if p = layout.stateLen + 3 then
      UInt8.ofNat (targetLocalIdx >>> 24)
    else
      response p

/-
  The target index is read from four bytes of the padding, the
  low byte first.
-/
def getTargetLocalIdx
    (layout : StateLayout)
    (response : State) : Nat :=
  (response layout.stateLen).toNat |||
      (response (layout.stateLen + 1)).toNat <<< 8 |||
      (response (layout.stateLen + 2)).toNat <<< 16 |||
    (response (layout.stateLen + 3)).toNat <<< 24

/- The rank of the parent, in the upper half of the route. -/
def unpackSourceRank (routePacked : UInt32) : Nat :=
  (routePacked >>> 16).toNat % 2 ^ 16

/- The move, in the lowest byte of the route. -/
def unpackMove (routePacked : UInt32) : Nat :=
  (routePacked &&& 0xff).toNat % 2 ^ 8

----------------
-- Targets
----------------

/- Rounded up; a division by zero is zero, as in the source. -/
def ceilDiv (a b : Nat) : Nat :=
  if b = 0 then 0 else (a + b - 1) / b

/-
  The rank that a row of the whole selection goes to, in the
  order of the ranks.
-/
def targetRankForGlobal
    (globalIdx globalCount worldSize : Nat) : Nat :=
  let target := globalIdx * worldSize / globalCount
  if target ≥ worldSize then worldSize - 1 else target

/- The first global index of a rank. -/
def targetBegin
    (globalCount worldSize rank : Nat) : Nat :=
  ceilDiv (rank * globalCount) worldSize

/- The rows that a rank gets. -/
def localTargetCount
    (globalCount worldSize rank : Nat) : Nat :=
  targetBegin globalCount worldSize (rank + 1) -
    targetBegin globalCount worldSize rank

----------------
-- The Input Of All Ranks
----------------

/-
  What the selection leaves on every rank, the frontiers and the
  static sizes. `lessRows` and `equalRows` are the rows of the
  two score phases before the cut at `globalKeepCount`.
-/
structure MaterializeInput where
  worldSize : Nat
  chunkCapacity : Nat
  exchangeCapacity : Nat
  frontierStates : Nat
  layout : StateLayout
  lessRows : Nat → List CandidateMeta
  equalRows : Nat → List CandidateMeta
  globalKeepCount : Nat
  frontier : Nat → Nat → State
  generators : Nat → Nat → Nat
  sortRequests : SortPairs Nat FinalRequest

namespace MaterializeInput

/- The better rows of the ranks before this one. -/
def lessPrefix (input : MaterializeInput) (rank : Nat) : Nat :=
  below (fun r => (input.lessRows r).length) rank

/-
  The rows of the threshold's score of the ranks before this
  one.
-/
def equalPrefix (input : MaterializeInput) (rank : Nat) : Nat :=
  below (fun r => (input.equalRows r).length) rank

/- The better rows of all ranks. -/
def globalLess (input : MaterializeInput) : Nat :=
  input.lessPrefix input.worldSize

/- The rows of the threshold's score of all ranks. -/
def globalEqual (input : MaterializeInput) : Nat :=
  input.equalPrefix input.worldSize

/- The selected buffer of one rank. -/
def selected
    (input : MaterializeInput)
    (rank : Nat) : List CandidateMeta :=
  input.lessRows rank ++
    (input.equalRows rank).take
      (input.globalKeepCount - input.globalLess -
        input.equalPrefix rank)

/- The host's count of the selected rows of a rank. -/
def selectedForRank
    (input : MaterializeInput)
    (rank : Nat) : Nat :=
  (input.lessRows rank).length +
    min (input.equalRows rank).length
      (input.globalKeepCount -
        (input.globalLess + input.equalPrefix rank))

/-
  The greatest count of a rank; no rank stops earlier than
  another.
-/
def maxSelectedCount (input : MaterializeInput) : Nat :=
  (List.range input.worldSize).foldl
    (fun largest rank => max largest (input.selectedForRank rank))
    0

/- The rounds that all ranks make. -/
def globalChunkRounds (input : MaterializeInput) : Nat :=
  (input.maxSelectedCount + input.chunkCapacity - 1) /
    input.chunkCapacity

end MaterializeInput

----------------
-- Building A Chunk
----------------

/-
  A row of a chunk: the request for its state and the record
  for its history.
-/
structure ChunkItem where
  sourceRankKey : Nat
  request : FinalRequest
  history : FinalHistoryRecord
deriving DecidableEq, Repr

/- The rows of a round: a full chunk, the rest, or none. -/
def chunkCount
    (input : MaterializeInput)
    (rank round : Nat) : Nat :=
  let chunkBegin := round * input.chunkCapacity
  let selectedCount := (input.selected rank).length
  if chunkBegin < selectedCount then
    min input.chunkCapacity (selectedCount - chunkBegin)
  else
    0

/-
  The place of a row in the whole selection: all better rows
  come before those of the threshold's score.
-/
def globalIdx
    (input : MaterializeInput)
    (rank localOut : Nat) : Nat :=
  let localLessCount := (input.lessRows rank).length
  if localOut < localLessCount then
    input.lessPrefix rank + localOut
  else
    input.globalLess + input.equalPrefix rank +
      (localOut - localLessCount)

/-
  The target of a row and what is asked for it. The casts to
  32 and 16 bits are those of the source.
-/
def chunkItem
    (input : MaterializeInput)
    (candidate : CandidateMeta)
    (globalIdx : Nat) : ChunkItem :=
  let targetRank :=
    targetRankForGlobal globalIdx input.globalKeepCount
      input.worldSize
  let targetLocalIdx :=
    (globalIdx -
        targetBegin input.globalKeepCount input.worldSize
          targetRank) %
      2 ^ 32
  { sourceRankKey := unpackSourceRank candidate.routePacked
    request :=
      { parentIdx := candidate.parentIdx.toNat
        targetLocalIdx := targetLocalIdx
        returnRank := targetRank % 2 ^ 16
        move := unpackMove candidate.routePacked }
    history :=
      { record := candidate, targetLocalIdx := targetLocalIdx } }

/- The chunk one rank builds in one round, in buffer order. -/
def buildMaterializeChunk
    (input : MaterializeInput)
    (rank round : Nat) : List ChunkItem :=
  (((input.selected rank).zipIdx.drop
      (round * input.chunkCapacity)).take
    (chunkCount input rank round)).map
      fun p => chunkItem input p.1 (globalIdx input rank p.2)

----------------
-- Exchange Plans
----------------

/- The offsets of the counts. -/
def makeFinalExchangePlan
    (counts : Nat → Nat)
    (worldSize : Nat) : ExchangePlan :=
  { count := counts
    offset := fun rank => below counts rank
    total := below counts worldSize }

/- How much of a range of global indices belongs to one rank. -/
def rangeOverlap
    (input : MaterializeInput)
    (first last rank : Nat) : Nat :=
  if last ≤ first then
    0
  else
    let rankBegin :=
      targetBegin input.globalKeepCount input.worldSize rank
    let rankEnd :=
      targetBegin input.globalKeepCount input.worldSize
        (rank + 1)
    let overlapBegin := max first rankBegin
    let overlapEnd := min last rankEnd
    if overlapEnd > overlapBegin then
      overlapEnd - overlapBegin
    else
      0

/- The host's count of a chunk's records for every target rank. -/
def targetCountsForChunk
    (input : MaterializeInput)
    (rank round target : Nat) : Nat :=
  let chunkBegin := round * input.chunkCapacity
  let chunkEnd := chunkBegin + chunkCount input rank round
  let localLessCount := (input.lessRows rank).length
  let fromLess :=
    if chunkBegin < localLessCount then
      rangeOverlap input
        (input.lessPrefix rank + chunkBegin)
        (input.lessPrefix rank + min chunkEnd localLessCount)
        target
    else
      0
  let fromEqual :=
    if chunkEnd > localLessCount then
      let equalBegin := max chunkBegin localLessCount
      rangeOverlap input
        (input.globalLess + input.equalPrefix rank +
          (equalBegin - localLessCount))
        (input.globalLess + input.equalPrefix rank +
          (chunkEnd - localLessCount))
        target
    else
      0
  fromLess + fromEqual

/- What a rank sends to each target in a round. -/
def fillTargetPlanForChunk
    (input : MaterializeInput)
    (rank round : Nat) : ExchangePlan :=
  makeFinalExchangePlan (targetCountsForChunk input rank round)
    input.worldSize

/- Counts and offsets of sorted rank keys, by binary search. -/
def countSortedRankKeys
    (sorted : List (Nat × FinalRequest)) : ExchangePlan :=
  let keys := fun i => (sorted.map Prod.fst).getD i 0
  let counts := fun rank =>
    lowerBound keys sorted.length (rank + 1) -
      lowerBound keys sorted.length rank
  { count := counts
    offset := fun rank => below counts rank
    total := sorted.length }

/- The plan without the rank's own rows, which stay on the device. -/
def withoutLocal
    (plan : ExchangePlan)
    (rank : Nat) : ExchangePlan :=
  { plan with count := Function.update plan.count rank 0 }

----------------
-- Ranks And Slots
----------------

/-
  What a rank has done: the writes to its frontier and its
  records, and what waits in its slots.
-/
structure MaterializeRank where
  nextFrontierWrites : List (Nat × State)
  candidateWrites : List (Nat × CandidateMeta)
  slotResponses : Nat → List State
  slotPending : Nat → Bool
  historyRecvTotal : Nat
  responseRecvTotal : Nat
  requestWorkTotal : Nat

/- Nothing was done. -/
def initialRank : MaterializeRank :=
  { nextFrontierWrites := []
    candidateWrites := []
    slotResponses := fun _ => []
    slotPending := fun _ => false
    historyRecvTotal := 0
    responseRecvTotal := 0
    requestWorkTotal := 0 }

/- What one thread of the response scatter writes. -/
def scatterResponse
    (layout : StateLayout)
    (response : State) : Nat × State :=
  (getTargetLocalIdx layout response,
    clearStatePadding layout response)

/-
  What waits in a slot is written and the slot is free again.
-/
def drainResponseSlot
    (layout : StateLayout)
    (slot : Nat)
    (rank : MaterializeRank) : MaterializeRank :=
  if rank.slotPending slot = false then
    rank
  else
    { rank with
      nextFrontierWrites :=
        rank.nextFrontierWrites ++
          (rank.slotResponses slot).map (scatterResponse layout)
      responseRecvTotal :=
        rank.responseRecvTotal + (rank.slotResponses slot).length
      slotResponses := Function.update rank.slotResponses slot []
      slotPending := Function.update rank.slotPending slot false }

/- The state a request asks for, with its target index. -/
def materializeResponse
    (input : MaterializeInput)
    (rank : Nat)
    (request : FinalRequest) : State :=
  setTargetLocalIdx input.layout request.targetLocalIdx
    (applyMove input.layout
      (input.frontier rank request.parentIdx)
      (input.generators request.move))

/- A received record goes to its place. -/
def historyWrite
    (history : FinalHistoryRecord) : Nat × CandidateMeta :=
  (history.targetLocalIdx, history.record)

----------------
-- One Round
----------------

/- The faults of the materialization. -/
inductive MaterializeError where
  | worldSize
  | targetExceedsFrontier
  | slotLayout
  | exchangeFault (fault : ExchangeFault)
  | workExceedsCapacity
  | historyRecvCount
  | responseRecvCount
deriving DecidableEq, Repr

/-
  The history records that a rank sends, in the order of the
  chunk.
-/
def historySend
    (input : MaterializeInput)
    (round rank : Nat) : List FinalHistoryRecord :=
  (buildMaterializeChunk input rank round).map
    ChunkItem.history

/- The requests of a chunk, sorted by source rank. -/
def sortedRequests
    (input : MaterializeInput)
    (round rank : Nat) : List (Nat × FinalRequest) :=
  input.sortRequests.run
    ((buildMaterializeChunk input rank round).map
      fun item => (item.sourceRankKey, item.request))

/- The counts of the requests, by source rank. -/
def requestPlan
    (input : MaterializeInput)
    (round rank : Nat) : ExchangePlan :=
  countSortedRankKeys (sortedRequests input round rank)

/- The requests a rank serves itself, in front of the received ones. -/
def responseWork
    (input : MaterializeInput)
    (round rank : Nat)
    (received : List (Nat × FinalRequest)) :
    List FinalRequest :=
  (sendPart (requestPlan input round rank)
      (sortedRequests input round rank) rank ++
    received).map Prod.snd

/- The work of a rank, sorted by return rank. -/
def sortedWork
    (input : MaterializeInput)
    (work : List FinalRequest) : List (Nat × FinalRequest) :=
  input.sortRequests.run
    (work.map fun request => (request.returnRank, request))

/- The answers, in the order of the sorted work. -/
def responseSend
    (input : MaterializeInput)
    (rank : Nat)
    (work : List FinalRequest) : List State :=
  (sortedWork input work).map
    fun p => materializeResponse input rank p.2

/- The states a rank materialises for itself. -/
def localReturns
    (input : MaterializeInput)
    (rank : Nat)
    (work : List FinalRequest) : List (Nat × State) :=
  (sendPart (countSortedRankKeys (sortedWork input work))
    (sortedWork input work) rank).map
      fun p =>
        scatterResponse input.layout
          (materializeResponse input rank p.2)

/- What a round leaves on one rank. -/
def finishRound
    (input : MaterializeInput)
    (slot index : Nat)
    (historyRecv : List FinalHistoryRecord)
    (work : List FinalRequest)
    (responseRecv : List State)
    (rank : MaterializeRank) : MaterializeRank :=
  { nextFrontierWrites :=
      rank.nextFrontierWrites ++ localReturns input index work
    candidateWrites :=
      rank.candidateWrites ++ historyRecv.map historyWrite
    slotResponses :=
      Function.update rank.slotResponses slot responseRecv
    slotPending := Function.update rank.slotPending slot true
    historyRecvTotal :=
      rank.historyRecvTotal + historyRecv.length
    responseRecvTotal :=
      rank.responseRecvTotal +
        (localReturns input index work).length
    requestWorkTotal := rank.requestWorkTotal + work.length }

/- One round of all ranks; each exchange is a barrier. -/
def materializeRound
    (input : MaterializeInput)
    (ranks : Nat → MaterializeRank)
    (round : Nat) :
    Except MaterializeError (Nat → MaterializeRank) :=
  let slot := round % 3
  let drained := fun rank =>
    drainResponseSlot input.layout slot (ranks rank)
  match
    exchange input.worldSize input.chunkCapacity
      input.exchangeCapacity
      (fun rank => fillTargetPlanForChunk input rank round)
      (historySend input round)
  with
  | .error fault => .error (.exchangeFault fault)
  | .ok historyRecv =>
      match
        exchange input.worldSize input.exchangeCapacity
          input.exchangeCapacity
          (fun rank =>
            withoutLocal (requestPlan input round rank) rank)
          (sortedRequests input round)
      with
      | .error fault => .error (.exchangeFault fault)
      | .ok requestRecv =>
          let work := fun rank =>
            responseWork input round rank (requestRecv rank)
          if (List.range input.worldSize).any fun rank =>
              decide
                ((work rank).length >
                  input.exchangeCapacity) then
            .error .workExceedsCapacity
          else
            match
              exchange input.worldSize input.exchangeCapacity
                input.exchangeCapacity
                (fun rank =>
                  withoutLocal
                    (countSortedRankKeys
                      (sortedWork input (work rank)))
                    rank)
                (fun rank => responseSend input rank (work rank))
            with
            | .error fault => .error (.exchangeFault fault)
            | .ok responseRecv =>
                .ok fun rank =>
                  finishRound input slot rank (historyRecv rank)
                    (work rank) (responseRecv rank)
                    (drained rank)

----------------
-- The Whole Materialisation
----------------

/- At the end all three slots are drained. -/
def drainAllSlots
    (layout : StateLayout)
    (rank : MaterializeRank) : MaterializeRank :=
  (List.range 3).foldl
    (fun rank slot => drainResponseSlot layout slot rank) rank

/-
  The whole materialization: the checks before it, its rounds,
  and the last drain.
-/
def finalMaterialize
    (input : MaterializeInput) :
    Except MaterializeError (Nat → MaterializeRank) :=
  let targetCount :=
    localTargetCount input.globalKeepCount input.worldSize
  if input.worldSize > 128 then
    .error .worldSize
  else if (List.range input.worldSize).any fun rank =>
      decide (targetCount rank > input.frontierStates) then
    .error .targetExceedsFrontier
  else if input.chunkCapacity = 0 ∨
      input.exchangeCapacity = 0 then
    .error .slotLayout
  else
    match
      (List.range input.globalChunkRounds).foldlM
        (materializeRound input) fun _ => initialRank
    with
    | .error fault => .error fault
    | .ok ranks =>
        let ranks := fun rank =>
          drainAllSlots input.layout (ranks rank)
        if (List.range input.worldSize).any fun rank =>
            decide
              ((ranks rank).historyRecvTotal ≠
                targetCount rank) then
          .error .historyRecvCount
        else if (List.range input.worldSize).any fun rank =>
            decide
              ((ranks rank).responseRecvTotal ≠
                targetCount rank) then
          .error .responseRecvCount
        else
          .ok ranks

end Final

end BeamSearch

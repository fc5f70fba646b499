import BeamSearch.Lib.NextK
import BeamSearch.Solve.Reconstruct

/-
  The solve bucket: collecting every solution of a depth.

  All ranks repeat one step. They learn how many solutions rank
  zero has accepted, gather the next records behind their
  cursor, and reconstruct them one by one. Rank zero keeps the
  paths that are new. Collective calls that do not match between
  the ranks are a fault of the run.

  Main declarations:
    * `SolveBucketRecord`, `solveBucketRecordLess`
    * `gatherSolveBucketRecordBatch`
    * `processRecord`
    * `collectLoop`, `collectDepth`
-/

namespace BeamSearch

open NextK Text

namespace Solve

open Final

----------------
-- Records
----------------

/- A hit with its rank and its depth in all. -/
structure SolveBucketRecord where
  ownerRank : UInt32
  totalDepth : UInt32
  hit : SolvedHit
deriving DecidableEq, Repr

/- The order of the records: the fields in turn. -/
def solveBucketRecordLess (a b : SolveBucketRecord) : Bool :=
  let x := a.hit.candidate
  let y := b.hit.candidate
  if a.totalDepth ≠ b.totalDepth then
    a.totalDepth < b.totalDepth
  else if a.ownerRank ≠ b.ownerRank then
    a.ownerRank < b.ownerRank
  else if a.hit.depth ≠ b.hit.depth then
    a.hit.depth < b.hit.depth
  else if x.parentIdx ≠ y.parentIdx then
    x.parentIdx < y.parentIdx
  else if x.routePacked ≠ y.routePacked then
    x.routePacked < y.routePacked
  else if x.hash.lo ≠ y.hash.lo then x.hash.lo < y.hash.lo
  else if x.hash.hi ≠ y.hash.hi then x.hash.hi < y.hash.hi
  else a.hit.suffix < b.hit.suffix

/-
  How a gather ends without its records: an exception, ranks
  that call apart, or a loop that goes on.
-/
inductive Fault where
  | thrown (exception : Exception)
  | collectiveMismatch
  | running
deriving DecidableEq, Repr

/- A result, or a fault. -/
abbrev Outcome : Type → Type :=
  Except Fault

/- A result, or the exception. -/
def orThrow {α : Type} : Except Exception α → Outcome α
  | .ok a => .ok a
  | .error exception => .error (.thrown exception)

/- What the source throws as a `std::runtime_error`. -/
def throwRuntime {α : Type} (what : String) : Outcome α :=
  .error (.thrown (.runtimeError what))

----------------
-- One Rank's Next Records
----------------

/- The greatest batch of records. -/
def maxSelectionBatchRecords : Nat :=
  65536

/- The greatest chunk that is copied to the host. -/
def maxHostRecordsPerChunk : Nat :=
  65536

/- What is the same on all ranks. -/
structure BucketConfig where
  worldSize : UInt32
  capacity : Nat
  maxSolutions : Nat
  scratchAvailable : Bool
  scratchWords : Nat
  tables : SuffixTables
  puzzle : Puzzle

/- The records of a chunk, by the words of the scratch. -/
def gatherRecordsPerChunk
    (scratchWords : Nat)
    (worldSize : UInt32) : Except Exception Nat :=
  if worldSize = 0 then
    .error
      (.invalidArgument
        "solve bucket gather world_size must be positive")
  else
    .ok
      (min (scratchWords / (8 * (worldSize.toNat + 1)))
        maxHostRecordsPerChunk)

/- The record of a hit; its depth counts the suffixes. -/
def makeRecord
    (tables : SuffixTables)
    (rank : UInt32)
    (hit : SolvedHit) : Except Exception SolveBucketRecord := do
  let totalDepth ← hit.totalDepth tables
  .ok ⟨rank, totalDepth, hit⟩

/- The record is behind the last one that was seen. -/
def behindCursor
    (cursor : Option SolveBucketRecord)
    (record : SolveBucketRecord) : Bool :=
  match cursor with
  | none => true
  | some last => solveBucketRecordLess last record

/- One hit more for the batch. -/
def selectLocalStep
    (tables : SuffixTables)
    (rank : UInt32)
    (cursor : Option SolveBucketRecord)
    (batchLimit : Nat)
    (selected : List SolveBucketRecord)
    (hit : SolvedHit) :
    Except Exception (List SolveBucketRecord) := do
  let record ← makeRecord tables rank hit
  .ok
    (if behindCursor cursor record then
      insertBounded solveBucketRecordLess batchLimit selected
        record
    else selected)

/- The hits are copied to the host a chunk at a time. -/
def hostChunks (hits : List SolvedHit) : List (List SolvedHit) :=
  let size := maxHostRecordsPerChunk
  (List.range ((hits.length + size - 1) / size)).map fun k =>
    (hits.drop (k * size)).take size

/- The batch of a rank: its first records behind the cursor. -/
def selectLocalRecords
    (tables : SuffixTables)
    (rank : UInt32)
    (cursor : Option SolveBucketRecord)
    (batchLimit : Nat)
    (hits : List SolvedHit) :
    Except Exception (List SolveBucketRecord) :=
  (hostChunks hits).foldlM
    (fun selected chunk =>
      chunk.foldlM
        (selectLocalStep tables rank cursor batchLimit) selected)
    []

----------------
-- Gathering
----------------

/- A record as a packet. -/
def packRecord (record : SolveBucketRecord) : Packet :=
  packHit record.ownerRank record.hit

/- The packet of a rank that has no record left. -/
def noPacket : Packet :=
  emptyPacket 0

/- The packets of one rank, chunk after chunk. -/
def sendChunks
    (config : BucketConfig)
    (chunkRecords batchLimit : Nat)
    (selected : List SolveBucketRecord) :
    Outcome (List (List Packet)) :=
  (List.range ((batchLimit + chunkRecords - 1) / chunkRecords)).mapM
    fun k =>
      let base := k * chunkRecords
      let count := min chunkRecords (batchLimit - base)
      let sendWords := count * 8
      let recvWords := sendWords * config.worldSize.toNat
      if sendWords + recvWords > config.scratchWords then
        throwRuntime
          ("solve bucket distributed gather chunk exceeds " ++
            "fixed scratch")
      else
        .ok
          ((List.range count).map fun offset =>
            match selected[base + offset]? with
            | none => noPacket
            | some record => packRecord record)

/- All ranks send chunks of the same sizes. -/
def allGather
    (worldSize : Nat)
    (sends : Nat → List (List Packet)) :
    Outcome (List (List Packet)) :=
  if (List.range worldSize).all fun rank =>
      decide
        ((sends rank).map List.length =
          (sends 0).map List.length) then
    .ok
      ((List.range (sends 0).length).map fun k =>
        (List.range worldSize).flatMap fun peer =>
          ((sends peer)[k]?).getD [])
  else .error .collectiveMismatch

/- The record of a packet. -/
def unpackRecord
    (tables : SuffixTables)
    (packet : Packet) : Except Exception SolveBucketRecord :=
  makeRecord tables packet.ownerRank.toUInt32 (unpackHit packet)

/- One packet more. -/
def receiveStep
    (tables : SuffixTables)
    (batchLimit : Nat)
    (selected : List SolveBucketRecord)
    (packet : Packet) :
    Except Exception (List SolveBucketRecord) :=
  if packet.present = 0 then .ok selected
  else do
    let record ← unpackRecord tables packet
    .ok
      (insertBounded solveBucketRecordLess batchLimit selected
        record)

/- The records of all ranks, merged to one batch. -/
def receiveRecords
    (tables : SuffixTables)
    (batchLimit : Nat)
    (received : List (List Packet)) :
    Except Exception (List SolveBucketRecord) :=
  received.foldlM
    (fun selected chunk =>
      chunk.foldlM (receiveStep tables batchLimit) selected)
    []

/- A batch, and whether another may follow. -/
structure SolveBucketRecordBatch where
  records : List SolveBucketRecord
  mayHaveMore : Bool

/- The stored hits of a rank. -/
def storedHits
    (config : BucketConfig)
    (memory : SolvedMemory) : List SolvedHit :=
  let header := readSolvedSnapshotHeader memory
  memory.hits.take (min header.count config.capacity)

/- What a rank brings to one gathering. -/
structure GatherCall where
  cursor : Option SolveBucketRecord
  batchLimit : Nat

/- The checks of a gather, the same on all ranks. -/
def checkGather
    (config : BucketConfig)
    (call : GatherCall) : Outcome Nat :=
  if call.batchLimit = 0 ∨
      call.batchLimit > maxSelectionBatchRecords then
    .error
      (.thrown
        (.invalidArgument
          ("solve bucket selection batch limit must be in " ++
            "[1,65536]")))
  else if config.scratchAvailable = false then
    throwRuntime
      ("solve bucket distributed gather scratch buffer is " ++
        "unavailable")
  else do
    let chunkRecords ←
      orThrow
        (gatherRecordsPerChunk config.scratchWords
          config.worldSize)
    if chunkRecords = 0 then
      throwRuntime
        ("solve bucket distributed gather scratch cannot fit " ++
          "one record chunk")
    else .ok chunkRecords

/- A rank's checks and its own selection. -/
def prepareGather
    (config : BucketConfig)
    (memory : SolvedMemory)
    (rank : Nat)
    (call : GatherCall) :
    Outcome (Nat × List SolveBucketRecord) := do
  let chunkRecords ← checkGather config call
  let selected ←
    orThrow
      (selectLocalRecords config.tables (UInt32.ofNat rank)
        call.cursor call.batchLimit (storedHits config memory))
  .ok (chunkRecords, selected)

/- A full batch may have a next one. -/
def makeBatch
    (batchLimit : Nat)
    (records : List SolveBucketRecord) :
    SolveBucketRecordBatch where
  records := records
  mayHaveMore := decide (records.length = batchLimit)

/- One collective call on all ranks. -/
def gatherSolveBucketRecordBatch
    (config : BucketConfig)
    (memory : Nat → SolvedMemory)
    (calls : Nat → GatherCall) :
    Outcome (List SolveBucketRecordBatch) := do
  let worldSize := config.worldSize.toNat
  let prepared ←
    (List.range worldSize).mapM fun rank =>
      prepareGather config (memory rank) rank (calls rank)
  if worldSize ≤ 1 then
    .ok
      (prepared.zipIdx.map fun p =>
        makeBatch (calls p.2).batchLimit p.1.2)
  else do
    let sends ←
      prepared.zipIdx.mapM fun p =>
        sendChunks config p.1.1 (calls p.2).batchLimit p.1.2
    let received ←
      allGather worldSize fun rank => (sends[rank]?).getD []
    (List.range worldSize).mapM fun rank => do
      let records ←
        orThrow
          (receiveRecords config.tables (calls rank).batchLimit
            received)
      .ok (makeBatch (calls rank).batchLimit records)

----------------
-- Accepted Solutions
----------------

/- A row of the result, as rank zero prints it. -/
structure SolveRow where
  depthIndex : Nat
  foundDepth : UInt32
  totalDepth : UInt32
  ownerRank : UInt32
  path : Text
deriving DecidableEq, Repr

/- What rank zero keeps over all depths of a task. -/
structure Controller where
  uniquePaths : List Text
  recordCount : Nat
  rows : List SolveRow
  solutionLength : Option UInt32
  solutionPath : Text
  countsByLength : UInt32 → Nat

/- The collection before the search. -/
def Controller.new : Controller where
  uniquePaths := []
  recordCount := 0
  rows := []
  solutionLength := none
  solutionPath := []
  countsByLength := fun _ => 0

/- A depth of the task, with every rank's buffers and history. -/
structure DepthInput where
  depthIndex : Nat
  memory : Nat → SolvedMemory
  histories : Nat → HistoryView

/- The hit of one record, on the rank that owns it. -/
def localRecord
    (records : Nat → SolveBucketRecord)
    (rank : Nat) : Option SolvedHit :=
  if (records rank).ownerRank.toNat = rank then
    some (records rank).hit
  else none

/- The moves of the record in rank zero's turn. -/
def reconstructRecord
    (config : BucketConfig)
    (histories : Nat → HistoryView)
    (records : Nat → SolveBucketRecord) :
    Except Exception ReconstructedSolution :=
  if config.worldSize.toNat > 1 then do
    let result ←
      reconstructSolutionDistributed config.tables
        config.worldSize.toNat config.scratchWords histories
        (localRecord records)
    match result with
    | none =>
        .error
          (.runtimeError
            ("solve bucket reconstruction did not receive " ++
              "selected record"))
    | some found => .ok found.2
  else do
    let hit := (records 0).hit
    let solution ←
      reconstructSolutionFromHistory (histories 0) hit.candidate
        hit.depth.toNat
    appendSolutionSuffixes config.tables solution hit.suffix
      hit.candidate.hash

/- The path must lead from the start to the target. -/
def validatePath
    (puzzle : Puzzle)
    (solution : ReconstructedSolution) :
    Except Exception (Text × UInt32) := do
  let final ← applySolutionMoves puzzle solution.moves
  if statesEqualStorage puzzle.layout final puzzle.target = false
  then
    .error
      (.runtimeError
        "solve bucket CPU solution validation failed")
  else do
    let path ← movesToPathText puzzle.names solution.moves
    .ok (path, UInt32.ofNat solution.moves.length)

/-
  A record is counted; its path is kept where it is new and
  there is room.
-/
def acceptRecord
    (config : BucketConfig)
    (depthIndex : Nat)
    (controller : Controller)
    (record : SolveBucketRecord)
    (path : Text)
    (totalDepth : UInt32) : Controller :=
  let uniqueRecord := decide (path ∉ controller.uniquePaths)
  let capacityAvailable :=
    decide
      (config.maxSolutions = 0 ∨
        controller.recordCount < config.maxSolutions)
  let controller :=
    if uniqueRecord then
      { controller with
        uniquePaths := controller.uniquePaths ++ [path] }
    else controller
  if uniqueRecord && capacityAvailable then
    let shorter :=
      match controller.solutionLength with
      | none => true
      | some length => decide (totalDepth < length)
    { controller with
      rows :=
        controller.rows ++
          [⟨depthIndex, record.hit.depth, totalDepth,
            record.ownerRank, path⟩]
      solutionLength :=
        if shorter then some totalDepth
        else controller.solutionLength
      solutionPath :=
        if shorter then path else controller.solutionPath
      recordCount := controller.recordCount + 1
      countsByLength :=
        Function.update controller.countsByLength totalDepth
          (controller.countsByLength totalDepth + 1) }
  else controller

/- One record: all ranks reconstruct it, rank zero judges it. -/
def processRecord
    (config : BucketConfig)
    (depth : DepthInput)
    (controller : Controller)
    (records : Nat → SolveBucketRecord) :
    Except Exception Controller := do
  let solution ←
    reconstructRecord config depth.histories records
  let path ← validatePath config.puzzle solution
  .ok
    (acceptRecord config depth.depthIndex controller (records 0)
      path.1 path.2)

----------------
-- The Loop
----------------

/- A rank's variables, and the batches it has gone through. -/
structure RankScan where
  cursor : Option SolveBucketRecord
  more : Bool
  synchronized : Nat
  foundAny : Bool
  firstFoundDepth : Nat
  batches : List (List SolveBucketRecord)

/- The ranks and the collection of the first one. -/
structure World where
  ranks : Nat → RankScan
  controller : Controller

/- Rank zero's count on every rank. -/
def synchronizeAcceptedCount
    (config : BucketConfig)
    (world : World) : Outcome World :=
  if config.worldSize.toNat > 1 ∧
      config.scratchAvailable = false then
    throwRuntime
      ("solve bucket accepted-count broadcast scratch is " ++
        "unavailable")
  else
    .ok
      { world with
        ranks := fun rank =>
          { world.ranks rank with
            synchronized := world.controller.recordCount } }

/- The scan is over, by its records or by the limit. -/
def stopsScan (config : BucketConfig) (scan : RankScan) : Bool :=
  !scan.more ||
    decide
      (config.maxSolutions ≠ 0 ∧
        scan.synchronized ≥ config.maxSolutions)

/- The next batch a rank asks for. -/
def gatherCall
    (config : BucketConfig)
    (scan : RankScan) : GatherCall where
  cursor := scan.cursor
  batchLimit :=
    min
      (if config.maxSolutions = 0 then maxSelectionBatchRecords
      else config.maxSolutions - scan.synchronized)
      maxSelectionBatchRecords

/- The cursor goes behind the last record. -/
def advanceScan
    (depthIndex : Nat)
    (scan : RankScan)
    (batch : SolveBucketRecordBatch) : RankScan :=
  match batch.records.getLast? with
  | none => { scan with more := false }
  | some last =>
      { scan with
        cursor := some last
        more := batch.mayHaveMore
        foundAny := true
        firstFoundDepth :=
          if scan.foundAny then scan.firstFoundDepth
          else depthIndex
        batches := scan.batches ++ [batch.records] }

/-
  The first rank keeps the records; all ranks must agree on
  how many.
-/
def processBatches
    (config : BucketConfig)
    (depth : DepthInput)
    (batches : List SolveBucketRecordBatch)
    (controller : Controller) : Outcome Controller :=
  let own rank := ((batches[rank]?).map
    SolveBucketRecordBatch.records).getD []
  if (List.range batches.length).all fun rank =>
      decide ((own rank).length = (own 0).length) then
    (List.range (own 0).length).foldlM
      (fun controller i =>
        orThrow
          (processRecord config depth controller fun rank =>
            ((own rank)[i]?).getD
              ⟨0, 0, ⟨⟨⟨0, 0⟩, 0, 0, 0⟩, 0, 0⟩⟩))
      controller
  else .error .collectiveMismatch

/- Every rank moves on by its batch. -/
def advanceWorld
    (depthIndex : Nat)
    (world : World)
    (batches : List SolveBucketRecordBatch)
    (controller : Controller) : World where
  ranks rank :=
    match batches[rank]? with
    | none => world.ranks rank
    | some batch => advanceScan depthIndex (world.ranks rank) batch
  controller := controller

/- One batch of all ranks. -/
def scanStep
    (config : BucketConfig)
    (depth : DepthInput)
    (world : World) : Outcome World := do
  let batches ←
    gatherSolveBucketRecordBatch config depth.memory fun rank =>
      gatherCall config (world.ranks rank)
  let controller ←
    processBatches config depth batches world.controller
  .ok (advanceWorld depth.depthIndex world batches controller)

/- All ranks leave the loop together, or none does. -/
def collectLoop
    (config : BucketConfig)
    (depth : DepthInput) :
    (fuel : Nat) → World → Outcome World
  | 0, _ => .error .running
  | fuel + 1, world => do
      let world ← synchronizeAcceptedCount config world
      let stops rank := stopsScan config (world.ranks rank)
      if (List.range config.worldSize.toNat).all fun rank =>
          stops rank == stops 0 then
        if stops 0 then .ok world
        else do
          let next ← scanStep config depth world
          collectLoop config depth fuel next
      else .error .collectiveMismatch

/- The largest value of a flag on any rank. -/
def anyRank (worldSize : Nat) (flag : Nat → Bool) : Bool :=
  (List.range worldSize).any flag

/- A scan starts at each depth anew. -/
def startScan (solved : Bool) (scan : RankScan) : RankScan :=
  { scan with
    cursor := none
    more := solved
    synchronized := 0
    batches := [] }

/-
  A depth: scan where a rank has a hit, and stop where a list
  ran over.
-/
def collectDepth
    (config : BucketConfig)
    (fuel : Nat)
    (depth : DepthInput)
    (world : World) : Outcome World :=
  let worldSize := config.worldSize.toNat
  let solved :=
    anyRank worldSize fun rank => (depth.memory rank).flag
  let overflow :=
    anyRank worldSize fun rank =>
      decide
        ((readSolvedSnapshotHeader (depth.memory rank)).overflow ≠
          0)
  if solved && overflow then
    throwRuntime
      ("solve bucket overflow: increase " ++
        "BEAM_SOLVED_RESULT_CAPACITY for this run")
  else
    collectLoop config depth fuel
      { world with
        ranks := fun rank => startScan solved (world.ranks rank) }

/- A rank before the search. -/
def RankScan.new : RankScan where
  cursor := none
  more := false
  synchronized := 0
  foundAny := false
  firstFoundDepth := 0
  batches := []

/- All ranks before the search. -/
def World.new : World where
  ranks := fun _ => RankScan.new
  controller := Controller.new

end Solve

end BeamSearch

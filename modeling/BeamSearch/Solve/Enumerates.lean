import BeamSearch.Solve.Gather

/-
  The solve bucket enumerates the records of a depth.

  The records that were visited are those up to the cursor, on
  every rank. A batch is never larger than what rank zero may
  still accept, so the accepted rows are the records with a new
  path, in order, until the bucket is full.

  Main declarations:
    * `solutionOf`, `freshRecords`
    * `ScanInv`, `scanStep_spec`
    * `collectLoop_spec`
    * `solveBucket_enumerates`
-/

namespace BeamSearch

open NextK Text

namespace Solve

variable {records visited : List SolveBucketRecord} {record a b : SolveBucketRecord}
    {config : BucketConfig} {depth : DepthInput} {controller earlier : Controller}
    {world : World} {cursor : Option SolveBucketRecord} {batchLimit : Nat}

----------------
-- One Record
----------------

/- The path and length rank zero finds for a record. -/
def solutionOf
    (config : BucketConfig)
    (depth : DepthInput)
    (record : SolveBucketRecord) :
    Except Exception (Text × UInt32) := do
  let solution ←
    reconstructRecord config depth.histories fun _ => record
  validatePath config.puzzle solution

/- The path and depth of a record; those of a valid one. -/
def solvedPath
    (config : BucketConfig)
    (depth : DepthInput)
    (record : SolveBucketRecord) : Text × UInt32 :=
  (solutionOf config depth record).toOption.getD ([], 0)

/- The row of a record. -/
def rowOf
    (config : BucketConfig)
    (depth : DepthInput)
    (record : SolveBucketRecord) : SolveRow where
  depthIndex := depth.depthIndex
  foundDepth := record.hit.depth
  totalDepth := (solvedPath config depth record).2
  ownerRank := record.ownerRank
  path := (solvedPath config depth record).1

/- Records that agree at the goal make the same packets. -/
theorem packHit_congr
    {a b : SolvedHit}
    (rank : UInt32)
    (hSame : a.atGoal = b.atGoal) :
    packHit rank a = packHit rank b := by
  change packHit rank a.atGoal = packHit rank b.atGoal
  rw [hSame]

theorem gatherPackets_congr
    {worldSize : Nat}
    {records : Nat → SolveBucketRecord}
    (hSame :
      ∀ rank < worldSize,
        orderKey (records rank) = orderKey record) :
    gatherPackets worldSize (localRecord records) =
      gatherPackets worldSize (localRecord fun _ => record) := by
  refine List.map_congr_left fun rank hRank => ?_
  rcases orderKey_eq_iff.mp
      (hSame rank (List.mem_range.mp hRank)) with
    ⟨hOwner, -, hHit⟩
  rw [localRecord, localRecord, hOwner]
  split_ifs
  · exact congrArg (Prod.mk rank) (packHit_congr _ hHit)
  · rfl

/- Ranks that hold the same record reconstruct that record. -/
theorem reconstructRecord_congr
    {records : Nat → SolveBucketRecord}
    (histories : Nat → HistoryView)
    (hWorld : 0 < config.worldSize.toNat)
    (hSame :
      ∀ rank < config.worldSize.toNat,
        orderKey (records rank) = orderKey record) :
    reconstructRecord config histories records =
      reconstructRecord config histories fun _ => record := by
  rw [reconstructRecord, reconstructRecord]
  by_cases hMany : config.worldSize.toNat > 1
  · rw [if_pos hMany, if_pos hMany,
      reconstructSolutionDistributed,
      reconstructSolutionDistributed, gatherPackets_congr hSame]
  · rw [if_neg hMany, if_neg hMany]
    have hHit :=
      (orderKey_eq_iff.mp (hSame 0 hWorld)).2.2
    change
      (do
        let solution ←
          reconstructSolutionFromHistory (histories 0)
            (records 0).hit.atGoal.candidate
            (records 0).hit.atGoal.depth.toNat
        appendSolutionSuffixes config.tables solution
          (records 0).hit.atGoal.suffix
          (records 0).hit.atGoal.candidate.hash) = _
    rw [hHit]
    rfl

/- The solution of a record depends on its key. -/
theorem solutionOf_congr
    (depth : DepthInput)
    (hWorld : 0 < config.worldSize.toNat)
    (hSame : orderKey a = orderKey b) :
    solutionOf config depth a = solutionOf config depth b := by
  rw [solutionOf, solutionOf,
    reconstructRecord_congr depth.histories hWorld
      fun _ _ => hSame]

theorem solvedPath_congr
    (depth : DepthInput)
    (hWorld : 0 < config.worldSize.toNat)
    (hSame : orderKey a = orderKey b) :
    solvedPath config depth a = solvedPath config depth b := by
  rw [solvedPath, solvedPath,
    solutionOf_congr depth hWorld hSame]

/- So does its row. -/
theorem rowOf_congr
    (depth : DepthInput)
    (hWorld : 0 < config.worldSize.toNat)
    (hSame : orderKey a = orderKey b) :
    rowOf config depth a = rowOf config depth b := by
  rcases orderKey_eq_iff.mp hSame with ⟨hOwner, -, hHit⟩
  have hDepth := congrArg SolvedHit.depth hHit
  change a.hit.depth = b.hit.depth at hDepth
  rw [rowOf, rowOf, solvedPath_congr depth hWorld hSame, hOwner,
    hDepth]

----------------
-- New Paths
----------------

/- The first record of every path that is not there yet. -/
def freshRecords
    (path : SolveBucketRecord → Text) :
    List Text → List SolveBucketRecord → List SolveBucketRecord
  | _, [] => []
  | seen, record :: records =>
      if path record ∈ seen then freshRecords path seen records
      else
        record ::
          freshRecords path (seen ++ [path record]) records

/- The fresh records of two lists. -/
theorem freshRecords_append
    (path : SolveBucketRecord → Text)
    (seen : List Text)
    (xs ys : List SolveBucketRecord) :
    freshRecords path seen (xs ++ ys) =
      freshRecords path seen xs ++
        freshRecords path
          (seen ++ (freshRecords path seen xs).map path) ys := by
  induction xs generalizing seen with
  | nil => simp [freshRecords]
  | cons x xs ih =>
      rw [List.cons_append, freshRecords, freshRecords]
      split_ifs with hSeen
      · exact ih seen
      · rw [ih, List.cons_append, List.map_cons,
          List.append_assoc, List.singleton_append]

/- Only the paths and rows of the records matter. -/
theorem map_freshRecords_congr
    {path : SolveBucketRecord → Text}
    {row : SolveBucketRecord → SolveRow}
    (hPath :
      ∀ a b, orderKey a = orderKey b → path a = path b)
    (hRow : ∀ a b, orderKey a = orderKey b → row a = row b)
    (seen : List Text)
    {xs ys : List SolveBucketRecord}
    (hSame : xs.map orderKey = ys.map orderKey) :
    (freshRecords path seen xs).map row =
      (freshRecords path seen ys).map row := by
  induction xs generalizing seen ys with
  | nil =>
      have hNil : ys = [] :=
        List.map_eq_nil_iff.mp hSame.symm
      rw [hNil]
  | cons x xs ih =>
      cases ys with
      | nil => cases hSame
      | cons y ys =>
          rw [List.map_cons, List.map_cons, List.cons.injEq]
            at hSame
          rw [freshRecords, freshRecords, hPath x y hSame.1]
          split_ifs
          · exact ih seen hSame.2
          · rw [List.map_cons, List.map_cons,
              hRow x y hSame.1, ih _ hSame.2]

----------------
-- Accepting Records
----------------

/- The controller's variables say the same. -/
structure Coherent
    (maxSolutions : Nat)
    (controller : Controller) : Prop where
  paths :
    controller.uniquePaths = controller.rows.map SolveRow.path
  count : controller.recordCount = controller.rows.length
  room :
    maxSolutions ≠ 0 → controller.recordCount ≤ maxSolutions

theorem coherent_new (maxSolutions : Nat) :
    Coherent maxSolutions Controller.new :=
  ⟨rfl, rfl, fun _ => Nat.zero_le _⟩

/- A record is accepted with its path. -/
def acceptSolved
    (config : BucketConfig)
    (depth : DepthInput)
    (controller : Controller)
    (record : SolveBucketRecord) : Controller :=
  acceptRecord config depth.depthIndex controller record
    (solvedPath config depth record).1
    (solvedPath config depth record).2

/- A path seen before changes nothing. -/
theorem acceptSolved_old
    (hOld :
      (solvedPath config depth record).1 ∈
        controller.uniquePaths) :
    acceptSolved config depth controller record = controller := by
  simp [acceptSolved, acceptRecord, hOld]

/- A new path is counted and gets its row. -/
theorem acceptSolved_new
    (hCoherent : Coherent config.maxSolutions controller)
    (hNew :
      (solvedPath config depth record).1 ∉
        controller.uniquePaths)
    (hRoom :
      config.maxSolutions ≠ 0 →
        controller.recordCount < config.maxSolutions) :
    Coherent config.maxSolutions
        (acceptSolved config depth controller record) ∧
      (acceptSolved config depth controller record).rows =
        controller.rows ++ [rowOf config depth record] ∧
      (acceptSolved config depth controller record).recordCount =
        controller.recordCount + 1 := by
  have hCapacity :
      config.maxSolutions = 0 ∨
        controller.recordCount < config.maxSolutions := by
    by_cases hZero : config.maxSolutions = 0
    · exact Or.inl hZero
    · exact Or.inr (hRoom hZero)
  have hRows :
      (acceptSolved config depth controller record).rows =
        controller.rows ++ [rowOf config depth record] := by
    simp [acceptSolved, acceptRecord, hNew, hCapacity, rowOf]
  have hCount :
      (acceptSolved config depth controller record).recordCount =
        controller.recordCount + 1 := by
    simp [acceptSolved, acceptRecord, hNew, hCapacity]
  have hPaths :
      (acceptSolved config depth controller record).uniquePaths =
        controller.uniquePaths ++
          [(solvedPath config depth record).1] := by
    simp [acceptSolved, acceptRecord, hNew, hCapacity]
  refine ⟨⟨?_, ?_, ?_⟩, hRows, hCount⟩
  · rw [hPaths, hRows, hCoherent.paths, List.map_append]
    rfl
  · rw [hCount, hRows, hCoherent.count, List.length_append]
    rfl
  · intro hLimit
    rw [hCount]
    exact hRoom hLimit

/- While there is room, every new path is accepted. -/
theorem foldl_acceptSolved
    (depth : DepthInput)
    (records : List SolveBucketRecord)
    (hCoherent : Coherent config.maxSolutions controller)
    (hRoom :
      config.maxSolutions ≠ 0 →
        controller.recordCount + records.length ≤
          config.maxSolutions) :
    Coherent config.maxSolutions
        (records.foldl (acceptSolved config depth) controller) ∧
      (records.foldl (acceptSolved config depth)
          controller).rows =
        controller.rows ++
          (freshRecords
              (fun record => (solvedPath config depth record).1)
              (controller.rows.map SolveRow.path) records).map
            (rowOf config depth) := by
  induction records generalizing controller with
  | nil => exact ⟨hCoherent, by simp [freshRecords]⟩
  | cons record records ih =>
      rw [List.foldl_cons, freshRecords, ← hCoherent.paths]
      by_cases hOld :
          (solvedPath config depth record).1 ∈
            controller.uniquePaths
      · rw [acceptSolved_old hOld, if_pos hOld,
          hCoherent.paths]
        refine ih hCoherent fun hLimit => ?_
        have hFits := hRoom hLimit
        rw [List.length_cons] at hFits
        omega
      · have hFree :
            config.maxSolutions ≠ 0 →
              controller.recordCount < config.maxSolutions := by
          intro hLimit
          have hFits := hRoom hLimit
          rw [List.length_cons] at hFits
          omega
        rcases acceptSolved_new hCoherent hOld hFree with
          ⟨hNext, hRows, hCount⟩
        rcases ih hNext fun hLimit => by
            have hFits := hRoom hLimit
            rw [List.length_cons] at hFits
            omega with
          ⟨hLast, hAll⟩
        refine ⟨hLast, ?_⟩
        rw [if_neg hOld, hAll, hRows, List.map_append,
          ← hCoherent.paths, List.append_assoc]
        rfl

----------------
-- One Batch
----------------

/- All ranks see the record of the first one. -/
theorem processRecord_eq
    {records : Nat → SolveBucketRecord}
    (depth : DepthInput)
    (controller : Controller)
    (hWorld : 0 < config.worldSize.toNat)
    (hSame :
      ∀ rank < config.worldSize.toNat,
        records rank = records 0) :
    processRecord config depth controller records =
      (solutionOf config depth (records 0)).map fun found =>
        acceptRecord config depth.depthIndex controller
          (records 0) found.1 found.2 := by
  rw [processRecord,
    reconstructRecord_congr depth.histories hWorld
      fun rank hRank => congrArg orderKey (hSame rank hRank),
    solutionOf]
  cases reconstructRecord config depth.histories
      fun _ => records 0 with
  | error exception => rfl
  | ok solution =>
      change
        (validatePath config.puzzle solution >>= _) =
          (validatePath config.puzzle solution).map _
      cases validatePath config.puzzle solution with
      | error exception => rfl
      | ok found => rfl

theorem foldlM_range_getD
    {ε β : Type}
    (step : β → SolveBucketRecord → Except ε β)
    (default : SolveBucketRecord)
    (records : List SolveBucketRecord)
    (b : β) :
    (List.range records.length).foldlM
        (fun b i => step b ((records[i]?).getD default)) b =
      records.foldlM step b := by
  have hList :
      (List.range records.length).map
          (fun i => (records[i]?).getD default) =
        records := by
    refine List.ext_getElem (by simp) fun i hi hi' => ?_
    rw [List.getElem_map, List.getElem_range,
      List.getElem?_eq_getElem hi', Option.getD_some]
  conv_rhs => rw [← hList, List.foldlM_map]

/- Rank zero goes through the batch, or a record fails. -/
theorem processBatches_cases
    (depth : DepthInput)
    (batchLimit : Nat)
    (records : List SolveBucketRecord)
    (controller : Controller)
    (hWorld : 0 < config.worldSize.toNat) :
    (∃ record ∈ records, ∃ exception,
        solutionOf config depth record = .error exception ∧
          processBatches config depth
              ((List.range config.worldSize.toNat).map fun _ =>
                makeBatch batchLimit records)
              controller =
            .error (.thrown exception)) ∨
      (∀ record ∈ records, ∃ found,
          solutionOf config depth record = .ok found) ∧
        processBatches config depth
            ((List.range config.worldSize.toNat).map fun _ =>
              makeBatch batchLimit records)
            controller =
          .ok
            (records.foldl (acceptSolved config depth)
              controller) := by
  have hOwn :
      ∀ rank < config.worldSize.toNat,
        ((((List.range config.worldSize.toNat).map fun _ =>
              makeBatch batchLimit records)[rank]?).map
            SolveBucketRecordBatch.records).getD [] =
          records := by
    intro rank hRank
    rw [List.getElem?_map, List.getElem?_range hRank]
    rfl
  have hLengths :
      ((List.range
          ((List.range config.worldSize.toNat).map fun _ =>
            makeBatch batchLimit records).length).all fun rank =>
        decide
          ((((((List.range config.worldSize.toNat).map fun _ =>
                  makeBatch batchLimit records)[rank]?).map
                SolveBucketRecordBatch.records).getD []).length =
            (((((List.range config.worldSize.toNat).map fun _ =>
                  makeBatch batchLimit records)[0]?).map
                SolveBucketRecordBatch.records).getD
              []).length)) =
        true := by
    rw [List.all_eq_true]
    intro rank hRank
    rw [List.mem_range, List.length_map, List.length_range]
      at hRank
    rw [decide_eq_true_iff, hOwn rank hRank, hOwn 0 hWorld]
  have hRun :
      processBatches config depth
          ((List.range config.worldSize.toNat).map fun _ =>
            makeBatch batchLimit records)
          controller =
        records.foldlM
          (fun controller record =>
            orThrow
              ((solutionOf config depth record).map fun found =>
                acceptRecord config depth.depthIndex controller
                  record found.1 found.2))
          controller := by
    rw [processBatches]
    dsimp only
    rw [if_pos hLengths, hOwn 0 hWorld,
      ← foldlM_range_getD _ ⟨0, 0, ⟨⟨⟨0, 0⟩, 0, 0, 0⟩, 0, 0⟩⟩
        records]
    refine foldlM_congr (fun c i _ => ?_) controller
    rw [processRecord_eq depth c hWorld fun rank hRank => by
        rw [hOwn rank hRank, hOwn 0 hWorld],
      hOwn 0 hWorld]
  rw [hRun]
  clear hRun hLengths hOwn
  induction records generalizing controller with
  | nil => exact Or.inr ⟨fun _ hIn => (nomatch hIn), rfl⟩
  | cons record records ih =>
      rw [List.foldlM_cons]
      cases hSolution : solutionOf config depth record with
      | error exception =>
          exact
            Or.inl
              ⟨record, List.mem_cons_self, exception, hSolution,
                rfl⟩
      | ok found =>
          have hAccept :
              acceptRecord config depth.depthIndex controller
                  record found.1 found.2 =
                acceptSolved config depth controller record := by
            rw [acceptSolved, solvedPath, hSolution]
            rfl
          change
            (∃ _ ∈ _, ∃ _, _ ∧
                records.foldlM _
                    (acceptRecord config depth.depthIndex
                      controller record found.1 found.2) =
                  _) ∨
              _ ∧
                records.foldlM _
                    (acceptRecord config depth.depthIndex
                      controller record found.1 found.2) =
                  _
          rw [hAccept]
          rcases ih (acceptSolved config depth controller record)
            with
            ⟨later, hLater, exception, hError, hFails⟩ |
              ⟨hAll, hDone⟩
          · exact
              Or.inl
                ⟨later, List.mem_cons_of_mem record hLater,
                  exception, hError, hFails⟩
          · refine Or.inr ⟨fun other hOther => ?_, hDone⟩
            rcases List.mem_cons.mp hOther with rfl | hOther
            · exact ⟨found, hSolution⟩
            · exact hAll other hOther

----------------
-- The Scan
----------------

/- The checks of the scratch pass. -/
structure BucketConfig.Accepted (config : BucketConfig) : Prop where
  scratch : config.scratchAvailable = true
  chunk :
    ∃ chunkRecords,
      gatherRecordsPerChunk config.scratchWords
          config.worldSize =
        .ok chunkRecords ∧
      0 < chunkRecords

theorem BucketConfig.Accepted.worldSize_pos
    (hAccepted : config.Accepted) :
    0 < config.worldSize.toNat := by
  rcases hAccepted.chunk with ⟨chunkRecords, hChunk, -⟩
  rw [gatherRecordsPerChunk] at hChunk
  split_ifs at hChunk with hZero
  rw [Nat.pos_iff_ne_zero]
  intro hToNat
  exact hZero (UInt32.toNat_inj.mp hToNat)

/- A stored record without a valid path. -/
def LacksSolution
    (config : BucketConfig)
    (depth : DepthInput)
    (exception : Exception) : Prop :=
  ∃ record ∈ storedRecords config depth.memory,
    solutionOf config depth record = .error exception

/-
  All ranks have gone through the same records: those up to the
  cursor. The rows are the new paths among them.
-/
structure ScanInv
    (config : BucketConfig)
    (depth : DepthInput)
    (earlier : Controller)
    (world : World)
    (visited : List SolveBucketRecord) : Prop where
  uniform :
    ∀ rank < config.worldSize.toNat,
      world.ranks rank = world.ranks 0
  batches : (world.ranks 0).batches.flatten = visited
  cursor : (world.ranks 0).cursor = visited.getLast?
  sorted : (visited.map orderKey).Pairwise (· < ·)
  stored :
    ∀ record ∈ visited,
      ∃ other ∈ storedRecords config depth.memory,
        orderKey record = orderKey other
  lower :
    ∀ k ∈ storedKeys config depth.memory,
      ∀ record ∈ visited, k ≤ orderKey record →
        k ∈ visited.map orderKey
  all :
    (world.ranks 0).more = false →
      ∀ k ∈ storedKeys config depth.memory,
        k ∈ visited.map orderKey
  solved :
    ∀ record ∈ visited,
      ∃ found, solutionOf config depth record = .ok found
  coherent : Coherent config.maxSolutions world.controller
  rows :
    world.controller.rows =
      earlier.rows ++
        (freshRecords
            (fun record => (solvedPath config depth record).1)
            (earlier.rows.map SolveRow.path) visited).map
          (rowOf config depth)

/- What is left to do. -/
def scanMeasure
    (config : BucketConfig)
    (depth : DepthInput)
    (world : World)
    (visited : List SolveBucketRecord) : Nat :=
  ((storedKeys config depth.memory).card - visited.length) +
    if (world.ranks 0).more then 1 else 0

/- The scan ends after all keys that are stored. -/
theorem scanMeasure_le
    (config : BucketConfig)
    (depth : DepthInput)
    (world : World)
    (visited : List SolveBucketRecord) :
    scanMeasure config depth world visited ≤
      (storedKeys config depth.memory).card + 1 := by
  rw [scanMeasure]
  split_ifs <;> omega

theorem mem_storedKeys_of_mem
    {memory : Nat → SolvedMemory}
    (hMember : record ∈ storedRecords config memory) :
    orderKey record ∈ storedKeys config memory :=
  List.mem_toFinset.mpr (List.mem_map_of_mem hMember)

/- A scan has visited each key once. -/
theorem ScanInv.length_le
    (hInv : ScanInv config depth earlier world visited) :
    visited.length ≤ (storedKeys config depth.memory).card := by
  have hNodup : (visited.map orderKey).Nodup :=
    hInv.sorted.imp ne_of_lt
  rw [← List.length_map (f := orderKey),
    ← List.toFinset_card_of_nodup hNodup]
  refine Finset.card_le_card fun k hk => ?_
  rw [List.mem_toFinset, List.mem_map] at hk
  rcases hk with ⟨record, hRecord, rfl⟩
  rcases hInv.stored record hRecord with ⟨other, hOther, hKey⟩
  rw [hKey]
  exact mem_storedKeys_of_mem hOther

/- Visited keys are at most the cursor's. -/
theorem ScanInv.le_cursor
    (hInv : ScanInv config depth earlier world visited)
    {last : SolveBucketRecord}
    (hLast : visited.getLast? = some last)
    (hRecord : record ∈ visited) :
    orderKey record ≤ orderKey last := by
  rcases List.getLast?_eq_some_iff.mp hLast with ⟨before, rfl⟩
  have hSorted := hInv.sorted
  rw [List.map_append, List.pairwise_append] at hSorted
  rcases List.mem_append.mp hRecord with hBefore | hHere
  · exact
      le_of_lt
        (hSorted.2.2 _ (List.mem_map_of_mem hBefore) _
          (List.mem_map_of_mem List.mem_cons_self))
  · rw [List.mem_singleton.mp hHere]

/- What is not behind the cursor has been visited. -/
theorem ScanInv.visited_or_later
    (hInv : ScanInv config depth earlier world visited)
    {k : RecordKey}
    (hStored : k ∈ storedKeys config depth.memory) :
    k ∈ visited.map orderKey ∨
      k ∈ laterKeys (world.ranks 0).cursor
        (storedKeys config depth.memory) := by
  rw [hInv.cursor, mem_laterKeys]
  cases hLast : visited.getLast? with
  | none => exact Or.inr ⟨hStored, fun _ hNone => (nomatch hNone)⟩
  | some last =>
      by_cases hLate : orderKey last < k
      · refine Or.inr ⟨hStored, fun other hOther => ?_⟩
        rw [Option.mem_some_iff.mp hOther] at hLate
        exact hLate
      · exact
          Or.inl
            (hInv.lower k hStored last
              (List.mem_of_getLast? hLast) (not_lt.mp hLate))

/- The next records of a scan, as a gathering returns them. -/
structure NextRecords
    (config : BucketConfig)
    (depth : DepthInput)
    (cursor : Option SolveBucketRecord)
    (batchLimit : Nat)
    (records : List SolveBucketRecord) : Prop where
  positive : 0 < batchLimit
  keys :
    records.map orderKey =
      (firstK batchLimit
        (laterKeys cursor (storedKeys config depth.memory))).sort
  stored :
    ∀ record ∈ records,
      ∃ other ∈ storedRecords config depth.memory,
        orderKey record = orderKey other
  solved :
    ∀ record ∈ records,
      ∃ found, solutionOf config depth record = .ok found

/- The next records are the first ones behind the cursor. -/
theorem NextRecords.mem_iff
    (hNext : NextRecords config depth cursor batchLimit records)
    (k : RecordKey) :
    k ∈ records.map orderKey ↔
      k ∈
        firstK batchLimit
          (laterKeys cursor (storedKeys config depth.memory)) := by
  rw [hNext.keys, Finset.mem_sort]

/- Fewer than a batch come only at the end. -/
theorem NextRecords.length_eq
    (hNext : NextRecords config depth cursor batchLimit records) :
    records.length =
      min batchLimit
        (laterKeys cursor
          (storedKeys config depth.memory)).card := by
  rw [← List.length_map (f := orderKey), hNext.keys,
    Finset.length_sort, card_firstK]

/- A short batch is the last one. -/
theorem NextRecords.complete
    (hNext : NextRecords config depth cursor batchLimit records)
    (hShort : records.length ≠ batchLimit)
    {k : RecordKey}
    (hLater :
      k ∈
        laterKeys cursor (storedKeys config depth.memory)) :
    k ∈ records.map orderKey := by
  have hLength := hNext.length_eq
  have hCard :
      (laterKeys cursor (storedKeys config depth.memory)).card ≤
        batchLimit := by
    omega
  rw [hNext.mem_iff, firstK_eq_self hCard]
  exact hLater

theorem advanceScan_nil
    (depthIndex : Nat)
    (scan : RankScan)
    (batchLimit : Nat) :
    advanceScan depthIndex scan (makeBatch batchLimit []) =
      { scan with more := false } :=
  rfl

theorem advanceScan_last
    {last : SolveBucketRecord}
    (depthIndex : Nat)
    (scan : RankScan)
    (batchLimit : Nat)
    (hLast : records.getLast? = some last) :
    advanceScan depthIndex scan (makeBatch batchLimit records) =
      { scan with
        cursor := some last
        more := decide (records.length = batchLimit)
        foundAny := true
        firstFoundDepth :=
          if scan.foundAny then scan.firstFoundDepth
          else depthIndex
        batches := scan.batches ++ [records] } := by
  simp only [advanceScan, makeBatch, hLast]

/- One step visits the next records on all ranks. -/
theorem ScanInv.advance
    {next : World}
    (hInv : ScanInv config depth earlier world visited)
    (hWorld : 0 < config.worldSize.toNat)
    (hNext :
      NextRecords config depth (world.ranks 0).cursor batchLimit
        records)
    (hRoom :
      config.maxSolutions ≠ 0 →
        world.controller.recordCount + batchLimit ≤
          config.maxSolutions)
    (hRanks :
      ∀ rank < config.worldSize.toNat,
        next.ranks rank =
          advanceScan depth.depthIndex (world.ranks rank)
            (makeBatch batchLimit records))
    (hController :
      next.controller =
        records.foldl (acceptSolved config depth)
          world.controller) :
    ScanInv config depth earlier next (visited ++ records) := by
  have hZero := hRanks 0 hWorld
  have hLength := hNext.length_eq
  rcases foldl_acceptSolved depth records
      hInv.coherent fun hLimit => by
        have hFits := hRoom hLimit
        omega with
    ⟨hCoherent, hRows⟩
  have hVisited :
      ∀ k ∈ storedKeys config depth.memory,
        k ∉ visited.map orderKey →
          k ∈
            laterKeys (world.ranks 0).cursor
              (storedKeys config depth.memory) :=
    fun k hk hNot => (hInv.visited_or_later hk).resolve_left hNot
  constructor
  case uniform =>
    intro rank hRank
    rw [hRanks rank hRank, hZero, hInv.uniform rank hRank]
  case batches =>
    rw [hZero]
    cases hLast : records.getLast? with
    | none =>
        rw [List.getLast?_eq_none_iff.mp hLast, advanceScan_nil,
          List.append_nil]
        exact hInv.batches
    | some last =>
        rw [advanceScan_last _ _ _ hLast]
        simp [hInv.batches]
  case cursor =>
    rw [hZero]
    cases hLast : records.getLast? with
    | none =>
        rw [List.getLast?_eq_none_iff.mp hLast, advanceScan_nil,
          List.append_nil]
        exact hInv.cursor
    | some last =>
        rw [advanceScan_last _ _ _ hLast, List.getLast?_append,
          hLast]
        rfl
  case sorted =>
    rw [List.map_append, List.pairwise_append]
    refine ⟨hInv.sorted, ?_, fun a hA b hB => ?_⟩
    · rw [hNext.keys]
      exact (Finset.sortedLT_sort _).pairwise
    · rw [List.mem_map] at hA
      rcases hA with ⟨record, hRecord, rfl⟩
      have hLater :=
        mem_laterKeys.mp
          (firstK_subset _ _ ((hNext.mem_iff b).mp hB))
      rw [hInv.cursor] at hLater
      cases hLast : visited.getLast? with
      | none =>
          rw [List.getLast?_eq_none_iff.mp hLast] at hRecord
          exact (List.not_mem_nil hRecord).elim
      | some last =>
          exact
            (hInv.le_cursor hLast hRecord).trans_lt
              (hLater.2 last hLast)
  case stored =>
    intro record hRecord
    rcases List.mem_append.mp hRecord with hOld | hNew
    · exact hInv.stored record hOld
    · exact hNext.stored record hNew
  case lower =>
    intro k hk record hRecord hLe
    rw [List.map_append, List.mem_append]
    by_cases hIn : k ∈ visited.map orderKey
    · exact Or.inl hIn
    · have hLater := hVisited k hk hIn
      rcases List.mem_append.mp hRecord with hOld | hNew
      · exact absurd (hInv.lower k hk record hOld hLe) hIn
      · refine Or.inr ?_
        have hFirst :=
          (hNext.mem_iff _).mp (List.mem_map_of_mem hNew)
        rw [hNext.mem_iff]
        rcases eq_or_lt_of_le hLe with rfl | hLt
        · exact hFirst
        · exact firstK_lower _ _ _ hFirst k hLater hLt
  case all =>
    intro hDone k hk
    rw [List.map_append, List.mem_append]
    by_cases hIn : k ∈ visited.map orderKey
    · exact Or.inl hIn
    · refine Or.inr (hNext.complete ?_ (hVisited k hk hIn))
      rw [hZero] at hDone
      have hPositive := hNext.positive
      cases hLast : records.getLast? with
      | none =>
          rw [List.getLast?_eq_none_iff.mp hLast,
            List.length_nil]
          omega
      | some last =>
          rw [advanceScan_last _ _ _ hLast] at hDone
          exact of_decide_eq_false hDone
  case solved =>
    intro record hRecord
    rcases List.mem_append.mp hRecord with hOld | hNew
    · exact hInv.solved record hOld
    · exact hNext.solved record hNew
  case coherent =>
    rw [hController]
    exact hCoherent
  case rows =>
    rw [hController, hRows, freshRecords_append, hInv.rows,
      List.map_append, List.append_assoc, List.map_append,
      List.map_map]
    rfl

/- Each batch brings the scan nearer its end. -/
theorem scanMeasure_advance
    {next : World}
    (hMore : (world.ranks 0).more = true)
    (hInv :
      ScanInv config depth earlier next (visited ++ records))
    (hRank :
      next.ranks 0 =
        advanceScan depth.depthIndex (world.ranks 0)
          (makeBatch batchLimit records)) :
    scanMeasure config depth next (visited ++ records) <
      scanMeasure config depth world visited := by
  have hLength := hInv.length_le
  rw [List.length_append] at hLength
  rw [scanMeasure, scanMeasure, hMore, if_pos rfl,
    List.length_append]
  cases hLast : records.getLast? with
  | none =>
      cases List.getLast?_eq_none_iff.mp hLast
      rw [advanceScan_nil] at hRank
      rw [hRank]
      simp
  | some last =>
      have hSome : 0 < records.length :=
        List.length_pos_of_mem (List.mem_of_getLast? hLast)
      split_ifs <;> omega

/- The gather passes its check on a configuration accepted. -/
theorem checkGather_eq
    {call : GatherCall}
    {chunkRecords : Nat}
    (hAccepted : config.Accepted)
    (hChunk :
      gatherRecordsPerChunk config.scratchWords
          config.worldSize =
        .ok chunkRecords)
    (hPos : 0 < chunkRecords)
    (hLimit : 0 < call.batchLimit)
    (hMax : call.batchLimit ≤ maxSelectionBatchRecords) :
    checkGather config call = .ok chunkRecords := by
  rw [checkGather, if_neg (by omega), hAccepted.scratch,
    if_neg (by decide), hChunk]
  change (if chunkRecords = 0 then _ else _) = _
  rw [if_neg (by omega)]

/- A key without a solution names a stored record without one. -/
theorem lacksSolution_of_record
    {other : SolveBucketRecord}
    {exception : Exception}
    (hWorld : 0 < config.worldSize.toNat)
    (hOther : other ∈ storedRecords config depth.memory)
    (hKey : orderKey record = orderKey other)
    (hError :
      solutionOf config depth record = .error exception) :
    LacksSolution config depth exception :=
  ⟨other, hOther, by
    rw [← solutionOf_congr depth hWorld hKey, hError]⟩

/- A hit or a record of the depth makes the run fail. -/
def Fails
    (config : BucketConfig)
    (depth : DepthInput)
    (run : Outcome World) : Prop :=
  ∃ exception,
    (LacksSuffix config depth.memory exception ∨
      LacksSolution config depth exception) ∧
    run = .error (.thrown exception)

/- One pass of the loop behind the synchronisation. -/
theorem scanStep_spec
    (hAccepted : config.Accepted)
    (hInv : ScanInv config depth earlier world visited)
    (hSynchronized :
      (world.ranks 0).synchronized =
        world.controller.recordCount)
    (hGo : stopsScan config (world.ranks 0) = false) :
    Fails config depth (scanStep config depth world) ∨
      ∃ next records,
        scanStep config depth world = .ok next ∧
          ScanInv config depth earlier next
            (visited ++ records) ∧
          scanMeasure config depth next (visited ++ records) <
            scanMeasure config depth world visited := by
  have hWorld := hAccepted.worldSize_pos
  rcases hAccepted.chunk with ⟨chunkRecords, hChunk, hPos⟩
  rw [stopsScan, Bool.or_eq_false_iff, Bool.not_eq_false',
    decide_eq_false_iff_not, not_and, not_le,
    hSynchronized] at hGo
  rcases hGo with ⟨hMore, hFree⟩
  have hLimit :
      0 < (gatherCall config (world.ranks 0)).batchLimit := by
    rw [gatherCall, hSynchronized, maxSelectionBatchRecords]
    by_cases hZero : config.maxSolutions = 0
    · simp [hZero]
    · have hLess := hFree hZero
      rw [if_neg hZero]
      exact Nat.lt_min.mpr ⟨by omega, by decide⟩
  have hRoom :
      config.maxSolutions ≠ 0 →
        world.controller.recordCount +
            (gatherCall config (world.ranks 0)).batchLimit ≤
          config.maxSolutions := by
    intro hBounded
    have hLess := hFree hBounded
    rw [gatherCall, hSynchronized, if_neg hBounded]
    dsimp only
    omega
  have hCheck :
      checkGather config (gatherCall config (world.ranks 0)) =
        .ok chunkRecords :=
    checkGather_eq hAccepted hChunk hPos hLimit
      (Nat.min_le_right _ _)
  rw [scanStep]
  have hCalls :
      ∀ rank < config.worldSize.toNat,
        gatherCall config (world.ranks rank) =
          gatherCall config (world.ranks 0) :=
    fun rank hRank => by rw [hInv.uniform rank hRank]
  rcases gatherSolveBucketRecordBatch_spec hWorld hCheck hChunk
      hPos depth.memory hCalls with
    ⟨exception, hLacks, hFails⟩ |
      ⟨records, hGather, hKeys, hStored⟩
  · refine Or.inl ⟨exception, Or.inl hLacks, ?_⟩
    rw [hFails]
    rfl
  · rw [hGather]
    rcases processBatches_cases depth
        (gatherCall config (world.ranks 0)).batchLimit records
        world.controller hWorld with
      ⟨record, hRecord, exception, hError, hFails⟩ |
        ⟨hSolved, hDone⟩
    · rcases hStored record hRecord with ⟨other, hOther, hKey⟩
      refine
        Or.inl
          ⟨exception,
            Or.inr
              (lacksSolution_of_record hWorld hOther hKey
                hError),
            ?_⟩
      change (processBatches _ _ _ _ >>= _) = _
      rw [hFails]
      rfl
    · refine
        Or.inr
          ⟨advanceWorld depth.depthIndex world
              ((List.range config.worldSize.toNat).map fun _ =>
                makeBatch
                  (gatherCall config (world.ranks 0)).batchLimit
                  records)
              (records.foldl (acceptSolved config depth)
                world.controller),
            records, ?_, ?_⟩
      · change (processBatches _ _ _ _ >>= _) = _
        rw [hDone]
        rfl
      · have hRanks :
            ∀ rank < config.worldSize.toNat,
              (advanceWorld depth.depthIndex world
                  ((List.range config.worldSize.toNat).map
                    fun _ =>
                      makeBatch
                        (gatherCall config
                          (world.ranks 0)).batchLimit
                        records)
                  (records.foldl (acceptSolved config depth)
                    world.controller)).ranks rank =
                advanceScan depth.depthIndex (world.ranks rank)
                  (makeBatch
                    (gatherCall config
                      (world.ranks 0)).batchLimit
                    records) := by
          intro rank hRank
          rw [advanceWorld]
          dsimp only
          rw [List.getElem?_map, List.getElem?_range hRank]
          rfl
        have hAdvance :=
          hInv.advance hWorld
            ⟨hLimit, hKeys, hStored, hSolved⟩ hRoom hRanks rfl
        exact
          ⟨hAdvance,
            scanMeasure_advance hMore hAdvance
              (hRanks 0 hWorld)⟩

/- Synchronising the count leaves the scan as it is. -/
theorem ScanInv.synchronize
    (hAccepted : config.Accepted)
    (hInv : ScanInv config depth earlier world visited) :
    ∃ next,
      synchronizeAcceptedCount config world = .ok next ∧
      ScanInv config depth earlier next visited ∧
      scanMeasure config depth next visited =
        scanMeasure config depth world visited ∧
      next.controller = world.controller ∧
      ∀ rank < config.worldSize.toNat,
        (next.ranks rank).synchronized =
          next.controller.recordCount := by
  refine
    ⟨_, if_neg (fun hBoth => by
      rw [hAccepted.scratch] at hBoth
      exact nomatch hBoth.2),
      ?_, rfl, rfl, fun _ _ => rfl⟩
  exact
    { hInv with
      uniform := fun rank hRank => by
        simp only [hInv.uniform rank hRank] }

/- The loop ends with everything visited, or a full bucket. -/
theorem collectLoop_spec
    (hAccepted : config.Accepted)
    (fuel : Nat)
    (hInv : ScanInv config depth earlier world visited) :
    Fails config depth (collectLoop config depth fuel world) ∨
      (collectLoop config depth fuel world = .error .running ∧
        fuel ≤ scanMeasure config depth world visited) ∨
      ∃ final last,
        collectLoop config depth fuel world = .ok final ∧
          ScanInv config depth earlier final last ∧
          ((final.ranks 0).more = false ∨
            config.maxSolutions ≠ 0 ∧
              final.controller.recordCount =
                config.maxSolutions) := by
  induction fuel generalizing world visited with
  | zero => exact Or.inr (Or.inl ⟨rfl, Nat.zero_le _⟩)
  | succ fuel ih =>
      have hWorld := hAccepted.worldSize_pos
      rcases hInv.synchronize hAccepted with
        ⟨synced, hSync, hSynced, hMeasure, -, hCount⟩
      have hAgree :
          ((List.range config.worldSize.toNat).all fun rank =>
              stopsScan config (synced.ranks rank) ==
                stopsScan config (synced.ranks 0)) =
            true := by
        rw [List.all_eq_true]
        intro rank hRank
        rw [hSynced.uniform rank (List.mem_range.mp hRank)]
        exact beq_self_eq_true _
      have hLoop :
          collectLoop config depth (fuel + 1) world =
            if stopsScan config (synced.ranks 0) then .ok synced
            else
              scanStep config depth synced >>=
                collectLoop config depth fuel := by
        rw [collectLoop, hSync]
        exact if_pos hAgree
      rw [hLoop]
      cases hStop : stopsScan config (synced.ranks 0) with
      | true =>
          refine Or.inr (Or.inr ⟨synced, visited, rfl, hSynced, ?_⟩)
          rw [stopsScan, Bool.or_eq_true, Bool.not_eq_true',
            decide_eq_true_iff, hCount 0 hWorld] at hStop
          refine hStop.imp_right fun hFull => ⟨hFull.1, ?_⟩
          exact
            Nat.le_antisymm (hSynced.coherent.room hFull.1)
              hFull.2
      | false =>
          rcases scanStep_spec hAccepted hSynced
              (hCount 0 hWorld) hStop with
            ⟨exception, hWhy, hFails⟩ |
              ⟨next, records, hStep, hNext, hLess⟩
          · refine Or.inl ⟨exception, hWhy, ?_⟩
            rw [if_neg Bool.false_ne_true, hFails]
            rfl
          · rw [if_neg Bool.false_ne_true, hStep]
            change
              Fails config depth
                  (collectLoop config depth fuel next) ∨
                (collectLoop config depth fuel next = _ ∧ _) ∨
                ∃ final last,
                  collectLoop config depth fuel next = _ ∧ _
            rcases ih hNext with
              hFails | ⟨hRunning, hFuel⟩ | hDone
            · exact Or.inl hFails
            · refine Or.inr (Or.inl ⟨hRunning, ?_⟩)
              omega
            · exact Or.inr (Or.inr hDone)

----------------
-- Depths
----------------

/- The states of a task between two depths. -/
inductive Reached (config : BucketConfig) : World → Prop
  | start : Reached config World.new
  | depth
      {fuel : Nat}
      {input : DepthInput}
      {world next : World}
      (hReached : Reached config world)
      (hRun : collectDepth config fuel input world = .ok next) :
      Reached config next

/- A rank that solved nothing stores nothing. -/
theorem storedHits_of_unsolved
    {memory : SolvedMemory}
    (hFlag : memory.flag = false) :
    storedHits config memory = [] := by
  simp [storedHits, readSolvedSnapshotHeader, hFlag]

theorem storedKeys_of_unsolved
    {memory : Nat → SolvedMemory}
    (hUnsolved :
      anyRank config.worldSize.toNat
          (fun rank => (memory rank).flag) =
        false) :
    storedKeys config memory = ∅ := by
  rw [Finset.eq_empty_iff_forall_notMem]
  intro k hk
  rcases mem_storedKeys.mp hk with ⟨rank, hRank, hIn⟩
  rw [anyRank, List.any_eq_false] at hUnsolved
  have hFlag : (memory rank).flag = false :=
    Bool.eq_false_iff.mpr
      (hUnsolved rank (List.mem_range.mpr hRank))
  rw [rankKeys, rankRecords, storedHits_of_unsolved hFlag] at hIn
  simp at hIn

/- A scan starts with nothing visited. -/
theorem scanInv_start
    (depth : DepthInput)
    (hUniform :
      ∀ rank < config.worldSize.toNat,
        world.ranks rank = world.ranks 0)
    (hCoherent :
      Coherent config.maxSolutions world.controller) :
    ScanInv config depth world.controller
      { world with
        ranks := fun rank =>
          startScan
            (anyRank config.worldSize.toNat fun rank =>
              (depth.memory rank).flag)
            (world.ranks rank) }
      [] where
  uniform rank hRank := by simp only [hUniform rank hRank]
  batches := rfl
  cursor := rfl
  sorted := List.Pairwise.nil
  stored _ hRecord := nomatch hRecord
  lower _ _ _ hRecord := nomatch hRecord
  all hDone k hk := by
    rw [storedKeys_of_unsolved hDone] at hk
    exact absurd hk (Finset.notMem_empty k)
  solved _ hRecord := nomatch hRecord
  coherent := hCoherent
  rows := by simp [freshRecords]

/- In a reached world all ranks agree. -/
theorem Reached.sound
    (hAccepted : config.Accepted)
    (hReached : Reached config world) :
    (∀ rank < config.worldSize.toNat,
        world.ranks rank = world.ranks 0) ∧
      Coherent config.maxSolutions world.controller := by
  induction hReached with
  | start => exact ⟨fun _ _ => rfl, coherent_new _⟩
  | depth hReached hRun ih =>
      rename_i fuel input world next
      rw [collectDepth] at hRun
      split_ifs at hRun
      · cases hRun
      · rcases collectLoop_spec hAccepted fuel
            (scanInv_start input ih.1 ih.2) with
          ⟨exception, -, hFails⟩ | ⟨hRunning, -⟩ |
            ⟨final, last, hDone, hInv, -⟩
        · rw [hFails] at hRun
          cases hRun
        · rw [hRunning] at hRun
          cases hRun
        · rw [hDone] at hRun
          cases hRun
          exact ⟨hInv.uniform, hInv.coherent⟩

----------------
-- Enumeration
----------------

/- The distinct stored records, in increasing order. -/
structure ListsStored
    (config : BucketConfig)
    (memory : Nat → SolvedMemory)
    (sorted : List SolveBucketRecord) : Prop where
  increasing :
    sorted.Pairwise fun a b => solveBucketRecordLess a b = true
  stored : ∀ record ∈ sorted, record ∈ storedRecords config memory
  complete :
    ∀ record ∈ storedRecords config memory,
      ∃ other ∈ sorted,
        solveBucketRecordLess record other = false ∧
          solveBucketRecordLess other record = false

/- As many as the bucket still takes. -/
def withinRoom
    (config : BucketConfig)
    (earlier : Controller)
    (records : List SolveBucketRecord) :
    List SolveBucketRecord :=
  if config.maxSolutions = 0 then records
  else records.take (config.maxSolutions - earlier.recordCount)

/-
  All ranks went through the same batches; together they are the
  first records of the order, in that order. The rows are those
  of the first records with new paths.
-/
structure Enumerates
    (config : BucketConfig)
    (depth : DepthInput)
    (earlier final : World)
    (visited unvisited : List SolveBucketRecord) : Prop where
  listed : ListsStored config depth.memory (visited ++ unvisited)
  agree :
    ∀ rank < config.worldSize.toNat,
      final.ranks rank = final.ranks 0
  visits :
    (final.ranks 0).batches.flatten.map orderKey =
      visited.map orderKey
  ended :
    unvisited = [] ∨
      config.maxSolutions ≠ 0 ∧
        final.controller.recordCount = config.maxSolutions
  solved :
    ∀ record ∈ visited,
      ∃ found, solutionOf config depth record = .ok found
  rows :
    final.controller.rows =
      earlier.controller.rows ++
        (withinRoom config earlier.controller
          (freshRecords
            (fun record => (solvedPath config depth record).1)
            (earlier.controller.rows.map SolveRow.path)
            (visited ++ unvisited))).map
          (rowOf config depth)

/- The stored records can be listed in order. -/
theorem exists_listsStored
    (config : BucketConfig)
    (memory : Nat → SolvedMemory) :
    ∃ sorted,
      ListsStored config memory sorted ∧
      sorted.map orderKey = (storedKeys config memory).sort := by
  let sorted :=
    nextK solveBucketRecordLess
      (storedRecords config memory).length
      (storedRecords config memory)
  have hKeys :
      sorted.map orderKey = (storedKeys config memory).sort := by
    rw [map_nextK solveBucketRecordLess_ordersBy,
      firstK_eq_self]
    · rfl
    · refine (List.toFinset_card_le _).trans ?_
      rw [List.length_map]
  refine ⟨sorted, ⟨?_, fun _ => mem_of_mem_nextK, ?_⟩, hKeys⟩
  · have hSorted : (sorted.map orderKey).Pairwise (· < ·) := by
      rw [hKeys]
      exact (Finset.sortedLT_sort _).pairwise
    rw [List.pairwise_map] at hSorted
    exact
      hSorted.imp fun hLt =>
        (solveBucketRecordLess_ordersBy _ _).mpr hLt
  · intro record hRecord
    have hIn : orderKey record ∈ sorted.map orderKey := by
      rw [hKeys, Finset.mem_sort]
      exact mem_storedKeys_of_mem hRecord
    rcases List.mem_map.mp hIn with ⟨other, hOther, hKey⟩
    refine ⟨other, hOther, ?_, ?_⟩
    · rw [Bool.eq_false_iff, Ne, solveBucketRecordLess_ordersBy,
        hKey]
      exact lt_irrefl _
    · rw [Bool.eq_false_iff, Ne, solveBucketRecordLess_ordersBy,
        hKey]
      exact lt_irrefl _

/- What has been visited is the front of the sorted records. -/
theorem ScanInv.front
    {sorted : List SolveBucketRecord}
    (hInv : ScanInv config depth earlier world visited)
    (hSorted :
      sorted.map orderKey =
        (storedKeys config depth.memory).sort) :
    ∃ front rest,
      sorted = front ++ rest ∧
      visited.map orderKey = front.map orderKey ∧
      ((world.ranks 0).more = false → rest = []) := by
  let keys := (visited.map orderKey).toFinset
  have hKeys : visited.map orderKey = keys.sort :=
    eq_sort_of_pairwise hInv.sorted fun _ => List.mem_toFinset.symm
  have hSubset : keys ⊆ storedKeys config depth.memory := by
    intro k hk
    rw [List.mem_toFinset, List.mem_map] at hk
    rcases hk with ⟨record, hRecord, rfl⟩
    rcases hInv.stored record hRecord with ⟨other, hOther, hKey⟩
    rw [hKey]
    exact mem_storedKeys_of_mem hOther
  have hSplit :=
    sort_eq_append hSubset fun x hx y hy hLt => by
      rw [List.mem_toFinset, List.mem_map] at hx
      rcases hx with ⟨record, hRecord, rfl⟩
      exact
        List.mem_toFinset.mpr
          (hInv.lower y hy record hRecord (le_of_lt hLt))
  rw [← hSorted, ← hKeys] at hSplit
  have hFront :
      (sorted.take visited.length).map orderKey =
        visited.map orderKey := by
    rw [List.map_take, hSplit]
    exact List.take_left' (List.length_map _)
  refine
    ⟨sorted.take visited.length, sorted.drop visited.length,
      (List.take_append_drop _ _).symm, hFront.symm, ?_⟩
  intro hDone
  have hEmpty : storedKeys config depth.memory \ keys = ∅ := by
    rw [Finset.sdiff_eq_empty_iff_subset]
    exact fun k hk => List.mem_toFinset.mpr (hInv.all hDone k hk)
  rw [hEmpty, Finset.sort_empty, List.append_nil] at hSplit
  rw [List.drop_eq_nil_iff, ← List.length_map (f := orderKey),
    hSplit, List.length_map]

/- The visited rows are all the rows there is room for. -/
theorem ScanInv.enumerates
    {earlier final : World}
    {sorted : List SolveBucketRecord}
    (hAccepted : config.Accepted)
    (hInv :
      ScanInv config depth earlier.controller final visited)
    (hEarlier : Coherent config.maxSolutions earlier.controller)
    (hEnd :
      (final.ranks 0).more = false ∨
        config.maxSolutions ≠ 0 ∧
          final.controller.recordCount = config.maxSolutions)
    (hListed : ListsStored config depth.memory sorted)
    (hSorted :
      sorted.map orderKey =
        (storedKeys config depth.memory).sort) :
    ∃ front rest,
      Enumerates config depth earlier final front rest := by
  have hWorld := hAccepted.worldSize_pos
  rcases hInv.front hSorted with ⟨front, rest, rfl, hFront, hRest⟩
  have hRows := hInv.rows
  rw [map_freshRecords_congr
    (fun a b hSame => by rw [solvedPath_congr depth hWorld hSame])
    (fun a b => rowOf_congr depth hWorld) _ hFront] at hRows
  have hCount := congrArg List.length hRows
  rw [← hInv.coherent.count, List.length_append, List.length_map,
    ← hEarlier.count] at hCount
  refine ⟨front, rest, hListed, hInv.uniform, ?_, ?_, ?_, ?_⟩
  · rw [hInv.batches]
    exact hFront
  · exact hEnd.imp_left hRest
  · intro record hRecord
    have hIn : orderKey record ∈ visited.map orderKey := by
      rw [hFront]
      exact List.mem_map_of_mem hRecord
    rcases List.mem_map.mp hIn with ⟨other, hOther, hKey⟩
    rw [← solutionOf_congr depth hWorld hKey]
    exact hInv.solved other hOther
  · rw [hRows, freshRecords_append]
    congr 2
    rw [withinRoom]
    rcases hEnd with hDone | ⟨hBounded, hFull⟩
    · rw [hRest hDone, freshRecords, List.append_nil]
      split_ifs with hZero
      · rfl
      · have hRoom := hInv.coherent.room hZero
        exact (List.take_of_length_le (by omega)).symm
    · rw [if_neg hBounded]
      exact (List.take_left' (by omega)).symm

/-
  From any state of a task: the ranks visit the distinct records
  of a depth once each and in order until none is left or the
  bucket is full, or a record has no valid path. No chunk
  exceeds the scratch.
-/
theorem solveBucket_enumerates
    (config : BucketConfig)
    (hAccepted : config.Accepted)
    (world : World)
    (hReached : Reached config world)
    (depth : DepthInput)
    (hOverflow :
      ∀ rank < config.worldSize.toNat,
        (readSolvedSnapshotHeader
            (depth.memory rank)).overflow =
          0)
    (fuel : Nat)
    (hFuel :
      (storedRecords config depth.memory).length + 2 ≤ fuel) :
    (Fails config depth (collectDepth config fuel depth world) ∨
        ∃ final visited unvisited,
          collectDepth config fuel depth world = .ok final ∧
          Enumerates config depth world final visited
            unvisited) ∧
      ∀ call chunkRecords selected,
        checkGather config call = .ok chunkRecords →
          ∃ chunks,
            sendChunks config chunkRecords call.batchLimit
                selected =
              .ok chunks := by
  rcases hReached.sound hAccepted with ⟨hUniform, hCoherent⟩
  rcases exists_listsStored config depth.memory with
    ⟨sorted, hListed, hSorted⟩
  have hNoOverflow :
      (anyRank config.worldSize.toNat fun rank =>
          decide
            ((readSolvedSnapshotHeader
                (depth.memory rank)).overflow ≠
              0)) =
        false := by
    rw [anyRank, List.any_eq_false]
    intro rank hRank
    rw [hOverflow rank (List.mem_range.mp hRank)]
    decide
  have hStart := scanInv_start depth hUniform hCoherent
  have hRun :
      collectDepth config fuel depth world =
        collectLoop config depth fuel
          { world with
            ranks := fun rank =>
              startScan
                (anyRank config.worldSize.toNat fun rank =>
                  (depth.memory rank).flag)
                (world.ranks rank) } := by
    rw [collectDepth, hNoOverflow, Bool.and_false]
    rfl
  constructor
  · rw [hRun]
    rcases collectLoop_spec hAccepted fuel hStart with
      hFails | ⟨-, hShort⟩ | ⟨final, last, hDone, hInv, hEnd⟩
    · exact Or.inl hFails
    · have hCard :
          (storedKeys config depth.memory).card ≤
            (storedRecords config depth.memory).length := by
        refine (List.toFinset_card_le _).trans ?_
        rw [List.length_map]
      have hMeasure := hShort.trans (scanMeasure_le _ _ _ _)
      omega
    · rcases hInv.enumerates hAccepted hCoherent hEnd hListed
          hSorted with
        ⟨front, rest, hEnumerates⟩
      exact Or.inr ⟨final, front, rest, hDone, hEnumerates⟩
  · intro call chunkRecords selected hCheck
    refine ⟨_, sendChunks_eq ?_ call.batchLimit selected⟩
    rw [checkGather] at hCheck
    split_ifs at hCheck
    · cases hCheck
    · rcases except_bind_eq_ok hCheck with ⟨n, hChunk, hRest⟩
      cases hGather :
          gatherRecordsPerChunk config.scratchWords
            config.worldSize with
      | error exception =>
          rw [hGather] at hChunk
          cases hChunk
      | ok count =>
          rw [hGather] at hChunk
          cases hChunk
          split_ifs at hRest
          · cases hRest
          · cases hRest
            rfl

/- Two ranks one swap before the target; two names for it. -/
def swapPuzzle : Puzzle where
  layout := ⟨2, 6, by decide⟩
  moveCount := 2
  generators _ p := if p = 0 then 1 else if p = 1 then 0 else p
  initial p := if p = 0 then 1 else 0
  target p := if p = 1 then 1 else 0
  names := [['a'], ['b']]

/- Two ranks that keep two solutions. -/
def swapConfig : BucketConfig where
  worldSize := 2
  capacity := 4
  maxSolutions := 2
  scratchAvailable := true
  scratchWords := 30
  tables := ⟨⟨false, []⟩, ⟨[]⟩⟩
  puzzle := swapPuzzle

/- A hit that is told by its route. -/
def swapHit (route : UInt32) : SolvedHit :=
  ⟨⟨⟨0, 0⟩, 0, 0, route⟩, 1, 0⟩

/- Rank one repeats a path of rank zero, and a hit. -/
def swapDepth : DepthInput where
  depthIndex := 0
  memory rank :=
    if rank = 0 then ⟨true, 1, 0, [swapHit 0]⟩
    else
      ⟨true, 3, 0, [swapHit 0x10001, swapHit 0x10000,
        swapHit 0x10001]⟩
  histories _ := ⟨0, fun _ _ => .ok ⟨0, 0, 0⟩⟩

theorem solveBucket_enumerates_twoRanks :
    ∃ final visited unvisited,
      collectDepth swapConfig 6 swapDepth World.new = .ok final ∧
      final.controller.rows.map SolveRow.path = [['a'], ['b']] ∧
      Enumerates swapConfig swapDepth World.new final visited
        unvisited := by
  have hPaths :
      (collectDepth swapConfig 6 swapDepth
            World.new).toOption.map
          (fun final =>
            final.controller.rows.map SolveRow.path) =
        some [['a'], ['b']] := by
    decide
  have hAccepted : swapConfig.Accepted :=
    ⟨rfl, 1, by decide, by decide⟩
  rcases (solveBucket_enumerates swapConfig hAccepted World.new
      Reached.start swapDepth (by decide) 6
      (by decide)).1 with
    ⟨exception, -, hFails⟩ |
      ⟨final, visited, unvisited, hRun, hEnumerates⟩
  · rw [hFails] at hPaths
    cases hPaths
  · rw [hRun] at hPaths
    exact
      ⟨final, visited, unvisited, hRun, Option.some.inj hPaths,
        hEnumerates⟩

end Solve

end BeamSearch

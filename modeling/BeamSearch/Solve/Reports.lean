import BeamSearch.Solve.Enumerates

/-
  What rank zero has to report of a solve bucket.

  Every row is the path of a record that was found valid, with
  its length and the depth it was found at. The paths differ,
  the best one is a row, and all ranks know if there is a row.

  Main declarations:
    * `solutionOf_moves`
    * `Controller.Kept`, `acceptSolved_kept`
    * `scanStep_reads`
    * `Reached.reports`
-/

namespace BeamSearch

open NextK Text

namespace Solve

variable {solution : ReconstructedSolution} {tables : SuffixTables}
    {record : SolveBucketRecord} {config : BucketConfig} {depth : DepthInput}
    {found : Text × UInt32} {controller : Controller} {world : World}

----------------
-- Moves Of A Record
----------------

theorem length_of_walkHistory
    {read : Nat → History.Entry → Except Exception History.Entry}
    {n : Nat}
    {cursor : History.Entry}
    (hWalk : walkHistory read n cursor = .ok solution) :
    solution.moves.length = n + 1 := by
  induction n generalizing cursor solution with
  | zero =>
      cases hWalk
      rfl
  | succ n ih =>
      rw [walkHistory] at hWalk
      rcases except_bind_eq_ok hWalk with ⟨next, -, hRest⟩
      rcases except_bind_eq_ok hRest with
        ⟨before, hBefore, hLast⟩
      cases hLast
      rw [List.length_append, ih hBefore]
      rfl

theorem length_le_of_appendSolutionSuffixes
    {whole : ReconstructedSolution}
    {suffixId : UInt32}
    {hash : Hash128}
    (hAppend :
      appendSolutionSuffixes tables solution suffixId hash =
        .ok whole) :
    solution.moves.length ≤ whole.moves.length := by
  have hTail :
      ∀ moves : List Nat,
        solution.moves.length ≤ moves.length →
          (if tables.neighborhood.enabled = false then
              .ok { solution with moves := moves }
            else do
              let suffix ← tables.neighborhood.suffixFor hash
              .ok
                { solution with
                  moves := appendPackedSuffix moves suffix }) =
            (Except.ok whole :
              Except Exception ReconstructedSolution) →
          solution.moves.length ≤ whole.moves.length := by
    intro moves hFirst hRest
    split_ifs at hRest
    · cases hRest
      exact hFirst
    · rcases except_bind_eq_ok hRest with ⟨suffix, -, hLast⟩
      cases hLast
      refine hFirst.trans ?_
      simp [appendPackedSuffix]
  rw [appendSolutionSuffixes] at hAppend
  by_cases hZero : suffixId = 0
  · rw [if_pos hZero] at hAppend
    exact hTail solution.moves (le_refl _) hAppend
  · rw [if_neg hZero] at hAppend
    rcases except_bind_eq_ok hAppend with ⟨moves, hMoves, hRest⟩
    refine hTail moves ?_ hRest
    cases hSuffix : tables.stream2.suffixFor suffixId with
    | error exception =>
        rw [hSuffix] at hMoves
        cases hMoves
    | ok suffix =>
        rw [hSuffix] at hMoves
        cases hMoves
        simp [appendPackedSuffix]

/- The hit that is chosen came in a packet. -/
theorem chooseHit_mem
    {packets : List (Nat × Packet)}
    {best : ChosenHit}
    (hChoose : chooseHit tables packets = .ok (some best)) :
    ∃ peer ∈ packets,
      peer.2.present ≠ 0 ∧ best.hit = unpackHit peer.2 := by
  let Sent (seen : List (Nat × Packet))
      (chosen : Option ChosenHit) : Prop :=
    ∀ best : ChosenHit, chosen = some best →
      ∃ peer ∈ seen,
        peer.2.present ≠ 0 ∧ best.hit = unpackHit peer.2
  have hStart : Sent [] none := fun best hNone => by cases hNone
  have hKept :=
    foldlM_eq_ok (J := Sent)
      (fun seen chosen peer next hSeen hStep => ?_) hStart hChoose
  · exact hKept best rfl
  · intro best hBest
    subst hBest
    have hLater :
        (∃ peer ∈ seen,
            peer.2.present ≠ 0 ∧
              best.hit = unpackHit peer.2) →
          ∃ other ∈ seen ++ [peer],
            other.2.present ≠ 0 ∧
              best.hit = unpackHit other.2 := by
      rintro ⟨other, hOther, hRest⟩
      exact ⟨other, List.mem_append_left _ hOther, hRest⟩
    rw [chooseStep] at hStep
    split_ifs at hStep with hAbsent
    · cases hStep
      exact hLater (hSeen best rfl)
    · rcases except_bind_eq_ok hStep with ⟨depth, -, hRest⟩
      have hHere :
          best = ⟨peer.1, depth, unpackHit peer.2⟩ →
            ∃ other ∈ seen ++ [peer],
              other.2.present ≠ 0 ∧
                best.hit = unpackHit other.2 := by
        rintro rfl
        exact
          ⟨peer, List.mem_append_right _ (List.mem_singleton_self _),
            hAbsent, rfl⟩
      cases chosen with
      | none =>
          cases hRest
          exact hHere rfl
      | some incumbent =>
          dsimp only at hRest
          split_ifs at hRest
          · cases hRest
            exact hHere rfl
          · cases hRest
            exact hLater (hSeen best rfl)

/- Only the owner of a record sends its hit. -/
theorem depth_of_chosenRecord
    {worldSize : Nat}
    {best : ChosenHit}
    (hChoose :
      chooseHit tables
          (gatherPackets worldSize
            (localRecord fun _ => record)) =
        .ok (some best)) :
    best.hit.depth = record.hit.depth := by
  rcases chooseHit_mem hChoose with
    ⟨peer, hPeer, hPresent, hHit⟩
  rcases List.mem_map.mp hPeer with ⟨rank, -, rfl⟩
  rw [localRecord] at hPresent hHit
  split_ifs at hPresent hHit
  · rw [hHit, unpackHit_packHit]
    rfl
  · exact absurd rfl hPresent

theorem reconstructRecord_length
    {histories : Nat → HistoryView}
    (hRun :
      reconstructRecord config histories (fun _ => record) =
        .ok solution) :
    record.hit.depth.toNat ≤ solution.moves.length := by
  rw [reconstructRecord] at hRun
  split_ifs at hRun
  · rcases except_bind_eq_ok hRun with ⟨result, hResult, hSome⟩
    cases result with
    | none => cases hSome
    | some found =>
        cases hSome
        rw [reconstructSolutionDistributed] at hResult
        split_ifs at hResult
        rcases except_bind_eq_ok hResult with
          ⟨chosen, hChoose, hRest⟩
        cases chosen with
        | none => cases hRest
        | some best =>
            dsimp only at hRest
            split_ifs at hRest with hZero
            rcases except_bind_eq_ok hRest with
              ⟨walked, hWalk, hTail⟩
            rcases except_bind_eq_ok hTail with
              ⟨whole, hWhole, hLast⟩
            cases hLast
            have hPositive : best.hit.depth.toNat ≠ 0 := by
              intro hToNat
              exact hZero (UInt32.toNat_inj.mp hToNat)
            have hLength := length_of_walkHistory hWalk
            have hMore :=
              length_le_of_appendSolutionSuffixes hWhole
            rw [← depth_of_chosenRecord hChoose]
            dsimp only
            omega
  · rcases except_bind_eq_ok hRun with ⟨walked, hWalked, hWhole⟩
    rw [reconstructSolutionFromHistory] at hWalked
    split_ifs at hWalked with hZero
    have hLength := length_of_walkHistory hWalked
    have hMore := length_le_of_appendSolutionSuffixes hWhole
    omega

/- The path of a record names moves, at least as many as the
depth it was found at. -/
theorem solutionOf_moves
    (hSolution : solutionOf config depth record = .ok found) :
    ∃ moves,
      movesToPathText config.puzzle.names moves = .ok found.1 ∧
        found.2 = UInt32.ofNat moves.length ∧
        record.hit.depth.toNat ≤ moves.length := by
  rw [solutionOf] at hSolution
  rcases except_bind_eq_ok hSolution with
    ⟨solution, hRecord, hValid⟩
  rw [validatePath] at hValid
  rcases except_bind_eq_ok hValid with ⟨final, -, hRest⟩
  split_ifs at hRest
  rcases except_bind_eq_ok hRest with ⟨path, hPath, hLast⟩
  cases hLast
  exact
    ⟨solution.moves, hPath, rfl, reconstructRecord_length hRecord⟩

----------------
-- What Is Kept
----------------

/- A row of a record that was found valid. -/
def SolvedRow (config : BucketConfig) (row : SolveRow) : Prop :=
  ∃ moves,
    movesToPathText config.puzzle.names moves = .ok row.path ∧
      row.totalDepth = UInt32.ofNat moves.length ∧
      row.foundDepth.toNat ≤ moves.length

/- What the collection holds after every record. -/
structure Controller.Kept
    (config : BucketConfig)
    (controller : Controller) : Prop where
  count : controller.recordCount = controller.rows.length
  distinct : controller.uniquePaths.Nodup
  listed :
    (controller.rows.map SolveRow.path).Sublist
      controller.uniquePaths
  any : controller.uniquePaths ≠ [] → controller.rows ≠ []
  solved : ∀ row ∈ controller.rows, SolvedRow config row
  unsolved : controller.solutionLength = none → controller.rows = []
  best :
    ∀ length, controller.solutionLength = some length →
      ∃ row ∈ controller.rows,
        row.totalDepth = length ∧
          row.path = controller.solutionPath

theorem kept_new (config : BucketConfig) :
    Controller.new.Kept config where
  count := rfl
  distinct := List.nodup_nil
  listed := List.Sublist.refl _
  any hPaths := absurd rfl hPaths
  solved _ hRow := nomatch hRow
  unsolved _ := rfl
  best _ hLength := nomatch hLength

/- A new path without room is only remembered. -/
theorem Controller.Kept.remember
    {path : Text}
    (hKept : controller.Kept config)
    (hNew : path ∉ controller.uniquePaths)
    (hFull : 0 < controller.recordCount) :
    Controller.Kept config
      { controller with
        uniquePaths := controller.uniquePaths ++ [path] } :=
  { hKept with
    distinct :=
      List.nodup_append.mpr
        ⟨hKept.distinct, List.nodup_singleton path,
          fun a hA b hB hSame => by
            rw [List.mem_singleton] at hB
            rw [hB] at hSame
            exact hNew (hSame ▸ hA)⟩
    listed :=
      hKept.listed.trans (List.sublist_append_left _ _)
    any := fun _ hRows => by
      rw [hKept.count, hRows] at hFull
      exact absurd hFull (lt_irrefl 0) }

/- A new path with room becomes a row. -/
theorem Controller.Kept.accept
    (hKept : controller.Kept config)
    (hNew :
      (solvedPath config depth record).1 ∉
        controller.uniquePaths)
    (hRoom :
      config.maxSolutions = 0 ∨
        controller.recordCount < config.maxSolutions)
    (hRow : SolvedRow config (rowOf config depth record)) :
    (acceptSolved config depth controller record).Kept config ∧
      (acceptSolved config depth controller record).rows ≠ [] := by
  let next := acceptSolved config depth controller record
  have hPaths :
      next.uniquePaths =
        controller.uniquePaths ++
          [(rowOf config depth record).path] := by
    simp [next, acceptSolved, acceptRecord, hNew, hRoom, rowOf]
  have hRows :
      next.rows =
        controller.rows ++ [rowOf config depth record] := by
    simp [next, acceptSolved, acceptRecord, hNew, hRoom, rowOf]
  have hCount : next.recordCount = controller.recordCount + 1 := by
    simp [next, acceptSolved, acceptRecord, hNew, hRoom]
  have hBest :
      (next.solutionLength =
            some (rowOf config depth record).totalDepth ∧
          next.solutionPath = (rowOf config depth record).path) ∨
        next.solutionLength = controller.solutionLength ∧
          next.solutionLength ≠ none ∧
          next.solutionPath = controller.solutionPath := by
    cases hLength : controller.solutionLength with
    | none =>
        simp [next, acceptSolved, acceptRecord, hNew, hRoom,
          hLength, rowOf]
    | some length =>
        by_cases hShorter :
            (solvedPath config depth record).2 < length
        · simp [next, acceptSolved, acceptRecord, hNew, hRoom,
            hLength, hShorter, rowOf]
        · simp [next, acceptSolved, acceptRecord, hNew, hRoom,
            hLength, hShorter]
  have hAny : next.rows ≠ [] := by
    rw [hRows]
    simp
  have hOwn : rowOf config depth record ∈ next.rows := by
    rw [hRows]
    exact List.mem_append_right _ (List.mem_singleton_self _)
  refine ⟨⟨?_, ?_, ?_, fun _ => hAny, ?_, ?_, ?_⟩, hAny⟩
  · change next.recordCount = next.rows.length
    rw [hCount, hRows, hKept.count, List.length_append]
    rfl
  · change next.uniquePaths.Nodup
    rw [hPaths]
    refine
      List.nodup_append.mpr
        ⟨hKept.distinct, List.nodup_singleton _, ?_⟩
    rintro a hA b hB rfl
    rw [List.mem_singleton.mp hB] at hA
    exact hNew hA
  · change
      (next.rows.map SolveRow.path).Sublist next.uniquePaths
    rw [hRows, hPaths, List.map_append]
    exact hKept.listed.append (List.Sublist.refl _)
  · intro row hMem
    change row ∈ next.rows at hMem
    rw [hRows, List.mem_append, List.mem_singleton] at hMem
    rcases hMem with hMem | rfl
    · exact hKept.solved row hMem
    · exact hRow
  · intro hNone
    change next.solutionLength = none at hNone
    rcases hBest with ⟨hSome, -⟩ | ⟨-, hSome, -⟩
    · rw [hSome] at hNone
      cases hNone
    · exact absurd hNone hSome
  · intro length hLength
    change next.solutionLength = some length at hLength
    rcases hBest with ⟨hSome, hPath⟩ | ⟨hSame, -, hPath⟩
    · rw [hSome] at hLength
      cases hLength
      exact ⟨_, hOwn, rfl, hPath.symm⟩
    · rw [hSame] at hLength
      rcases hKept.best length hLength with
        ⟨row, hMem, hDepth, hOld⟩
      refine ⟨row, ?_, hDepth, hOld.trans hPath.symm⟩
      change row ∈ next.rows
      rw [hRows]
      exact List.mem_append_left _ hMem

theorem solvedRow_rowOf
    (hSolution : solutionOf config depth record = .ok found) :
    SolvedRow config (rowOf config depth record) := by
  have hPath : solvedPath config depth record = found := by
    rw [solvedPath, hSolution]
    rfl
  rw [SolvedRow, rowOf, hPath]
  exact solutionOf_moves hSolution

theorem acceptSolved_kept
    (hKept : controller.Kept config)
    (hSolution : solutionOf config depth record = .ok found) :
    (acceptSolved config depth controller record).Kept config ∧
      (acceptSolved config depth controller record).rows ≠ [] := by
  by_cases hOld :
      (solvedPath config depth record).1 ∈ controller.uniquePaths
  · rw [acceptSolved_old hOld]
    exact ⟨hKept, hKept.any (List.ne_nil_of_mem hOld)⟩
  · by_cases hRoom :
        config.maxSolutions = 0 ∨
          controller.recordCount < config.maxSolutions
    · exact
        hKept.accept hOld hRoom (solvedRow_rowOf hSolution)
    · have hFull : 0 < controller.recordCount := by
        rw [not_or, not_lt] at hRoom
        omega
      have hRemember :
          acceptSolved config depth controller record =
            { controller with
              uniquePaths :=
                controller.uniquePaths ++
                  [(solvedPath config depth record).1] } := by
        simp [acceptSolved, acceptRecord, hOld, hRoom]
      rw [hRemember]
      have hNext := hKept.remember hOld hFull
      exact ⟨hNext, hNext.any (by simp)⟩

theorem foldl_acceptSolved_kept
    (records : List SolveBucketRecord)
    (hKept : controller.Kept config)
    (hSolved :
      ∀ record ∈ records,
        ∃ found, solutionOf config depth record = .ok found) :
    (records.foldl (acceptSolved config depth)
          controller).Kept config ∧
      ((records.foldl (acceptSolved config depth)
            controller).rows ≠ [] ↔
        controller.rows ≠ [] ∨ records ≠ []) := by
  induction records generalizing controller with
  | nil => simpa using hKept
  | cons record records ih =>
      rcases hSolved record List.mem_cons_self with
        ⟨found, hFound⟩
      rcases acceptSolved_kept hKept hFound with ⟨hNext, hAny⟩
      rcases ih hNext fun other hOther =>
          hSolved other (List.mem_cons_of_mem record hOther) with
        ⟨hLast, hRows⟩
      refine ⟨hLast, ?_⟩
      rw [List.foldl_cons, hRows]
      simp [hAny]

----------------
-- One Pass
----------------

theorem checkGather_ok
    {call : GatherCall}
    {chunkRecords : Nat}
    (hCheck : checkGather config call = .ok chunkRecords) :
    gatherRecordsPerChunk config.scratchWords config.worldSize =
        .ok chunkRecords ∧
      0 < chunkRecords := by
  rw [checkGather] at hCheck
  split_ifs at hCheck
  · cases hCheck
  · rcases except_bind_eq_ok hCheck with ⟨size, hSize, hRest⟩
    split_ifs at hRest with hZero
    · cases hRest
    · cases hRest
      cases hChunk :
          gatherRecordsPerChunk config.scratchWords
            config.worldSize with
      | error exception =>
          rw [hChunk] at hSize
          cases hSize
      | ok chunk =>
          rw [hChunk] at hSize
          cases hSize
          exact ⟨rfl, Nat.pos_of_ne_zero hZero⟩

/- A pass that did not fail read the same valid records on all
ranks. -/
theorem scanStep_reads
    {next : World}
    (hWorld : 0 < config.worldSize.toNat)
    (hUniform :
      ∀ rank < config.worldSize.toNat,
        world.ranks rank = world.ranks 0)
    (hStep : scanStep config depth world = .ok next) :
    ∃ batchLimit records,
      (∀ record ∈ records,
          ∃ found, solutionOf config depth record = .ok found) ∧
        next.controller =
          records.foldl (acceptSolved config depth)
            world.controller ∧
        ∀ rank < config.worldSize.toNat,
          next.ranks rank =
            advanceScan depth.depthIndex (world.ranks 0)
              (makeBatch batchLimit records) := by
  have hCalls :
      ∀ rank < config.worldSize.toNat,
        gatherCall config (world.ranks rank) =
          gatherCall config (world.ranks 0) :=
    fun rank hRank => by rw [hUniform rank hRank]
  rw [scanStep] at hStep
  rcases except_bind_eq_ok hStep with
    ⟨batches, hGather, hRest⟩
  rcases except_bind_eq_ok hRest with
    ⟨controller, hProcess, hLast⟩
  cases hLast
  have hCheck :
      ∃ chunkRecords,
        checkGather config (gatherCall config (world.ranks 0)) =
          .ok chunkRecords := by
    rw [gatherSolveBucketRecordBatch] at hGather
    rcases except_bind_eq_ok hGather with ⟨prepared, hAll, -⟩
    rcases mapM_cases
        (fun rank =>
          prepareGather config (depth.memory rank) rank
            (gatherCall config (world.ranks rank)))
        (List.range config.worldSize.toNat) with
      ⟨rank, -, fault, -, hFails⟩ | hEach
    · rw [hFails] at hAll
      cases hAll
    · rcases hEach 0 (List.mem_range.mpr hWorld) with
        ⟨first, hFirst⟩
      rw [prepareGather] at hFirst
      rcases except_bind_eq_ok hFirst with ⟨chunk, hChunk, -⟩
      exact ⟨chunk, hChunk⟩
  rcases hCheck with ⟨chunkRecords, hCheck⟩
  rcases checkGather_ok hCheck with ⟨hChunk, hPos⟩
  rcases gatherSolveBucketRecordBatch_spec hWorld hCheck hChunk
      hPos depth.memory hCalls with
    ⟨exception, -, hFails⟩ | ⟨records, hOk, -, -⟩
  · rw [hFails] at hGather
    cases hGather
  · rw [hOk] at hGather
    cases hGather
    rcases processBatches_cases depth
        (gatherCall config (world.ranks 0)).batchLimit records
        world.controller hWorld with
      ⟨-, -, exception, -, hFails⟩ | ⟨hSolved, hDone⟩
    · rw [hFails] at hProcess
      cases hProcess
    · rw [hDone] at hProcess
      cases hProcess
      refine
        ⟨(gatherCall config (world.ranks 0)).batchLimit, records,
          hSolved, rfl, fun rank hRank => ?_⟩
      rw [advanceWorld]
      dsimp only
      rw [List.getElem?_map, List.getElem?_range hRank,
        hUniform rank hRank]
      rfl

----------------
-- Runs
----------------

/- All ranks agree, and they know if there is a row. -/
structure Reports
    (config : BucketConfig)
    (world : World) : Prop where
  uniform :
    ∀ rank < config.worldSize.toNat,
      world.ranks rank = world.ranks 0
  found :
    (world.ranks 0).foundAny = true ↔ world.controller.rows ≠ []
  kept : world.controller.Kept config

theorem foundAny_advanceScan
    (depthIndex batchLimit : Nat)
    (scan : RankScan)
    (records : List SolveBucketRecord) :
    (advanceScan depthIndex scan
            (makeBatch batchLimit records)).foundAny = true ↔
      scan.foundAny = true ∨ records ≠ [] := by
  rw [advanceScan, makeBatch]
  cases hLast : records.getLast? with
  | none =>
      have hEmpty := List.getLast?_eq_none_iff.mp hLast
      simp [hEmpty]
  | some last =>
      have hNonempty : records ≠ [] := by
        rintro rfl
        cases hLast
      simp [hNonempty]

theorem Reports.step
    {next : World}
    (hWorld : 0 < config.worldSize.toNat)
    (hReports : Reports config world)
    (hStep : scanStep config depth world = .ok next) :
    Reports config next := by
  rcases scanStep_reads hWorld hReports.uniform hStep with
    ⟨batchLimit, records, hSolved, hController, hRanks⟩
  rcases foldl_acceptSolved_kept records hReports.kept hSolved with
    ⟨hKept, hRows⟩
  refine ⟨fun rank hRank => ?_, ?_, ?_⟩
  · rw [hRanks rank hRank, hRanks 0 hWorld]
  · rw [hRanks 0 hWorld, foundAny_advanceScan, hController, hRows,
      hReports.found]
  · rw [hController]
    exact hKept

theorem Reports.loop
    {final : World}
    (fuel : Nat)
    (hWorld : 0 < config.worldSize.toNat)
    (hReports : Reports config world)
    (hRun : collectLoop config depth fuel world = .ok final) :
    Reports config final := by
  induction fuel generalizing world with
  | zero => cases hRun
  | succ fuel ih =>
      rw [collectLoop] at hRun
      rcases except_bind_eq_ok hRun with ⟨synced, hSync, hRest⟩
      have hSynced : Reports config synced := by
        rw [synchronizeAcceptedCount] at hSync
        split_ifs at hSync
        · cases hSync
        · cases hSync
          exact
            { hReports with
              uniform := fun rank hRank => by
                simp only [hReports.uniform rank hRank] }
      dsimp only at hRest
      split_ifs at hRest
      · cases hRest
        exact hSynced
      · rcases except_bind_eq_ok hRest with
          ⟨next, hStep, hLoop⟩
        exact ih (hSynced.step hWorld hStep) hLoop

theorem Reached.reports
    (hWorld : 0 < config.worldSize.toNat)
    (hReached : Reached config world) :
    Reports config world := by
  induction hReached with
  | start =>
      exact
        ⟨fun _ _ => rfl, by simp [World.new, RankScan.new,
          Controller.new], kept_new config⟩
  | depth hReached hRun ih =>
      rw [collectDepth] at hRun
      split_ifs at hRun
      · cases hRun
      · refine Reports.loop _ hWorld ?_ hRun
        exact
          { ih with
            uniform := fun rank hRank => by
              simp only [ih.uniform rank hRank] }

end Solve

end BeamSearch

import BeamSearch.Solve.StepBudget
import BeamSearch.Stream2.Complete

/-
  Hits within the step budget.

  A forward search of as many depths as the budget leaves hits
  only children whose whole solution is within the steps. Every
  nonempty solution within the steps whose states the search
  keeps has a child in the neighborhood when the search ends.

  Main declarations:
    * `ForwardSearch`
    * `Kept`, `Recorded`
    * `searchBudget_bounds`
-/

namespace BeamSearch

open Distance Final Solve

namespace Stream2

variable {fixedBucketCount : UInt32} {host : HostSolvedNeighborhood}
    {backend : SuffixBackend}

----------------
-- Building Within The Budget
----------------

variable {puzzle : Puzzle} {zobrist : ZobristTable}
variable {maxSteps radius moves : UInt32} {maxEntries : UInt64}
variable {budget : SearchBudget}

theorem packBuckets_error
    {hashes : List Hash128}
    {fixed : Bool}
    {doublings bucketCount : Nat}
    {error : Exception}
    (hPack :
      packBuckets hashes fixed doublings bucketCount =
        .error error) :
    error =
        .runtimeError
          "solved neighborhood bucket count exceeds uint32 range" ∨
      error =
        .runtimeError
          "solved neighborhood does not fit stable fixed bucket arena" := by
  induction doublings generalizing bucketCount with
  | zero =>
      cases hPack
      exact Or.inl rfl
  | succ doublings ih =>
      rw [packBuckets] at hPack
      by_cases hRange : bucketCount > 2 ^ 32 - 1
      · rw [if_pos hRange] at hPack
        cases hPack
        exact Or.inl rfl
      rw [if_neg hRange] at hPack
      cases hPlace :
          hashes.foldlM
            (placeSolvedNeighborhoodEntry
              (UInt32.ofNat bucketCount))
            emptySlots with
      | some placed =>
          rw [hPlace] at hPack
          cases hPack
      | none =>
          rw [hPlace] at hPack
          dsimp only at hPack
          cases fixed with
          | true =>
              cases hPack
              exact Or.inr rfl
          | false => exact ih hPack

/- The layers of the budgeted radius, whatever the generators. -/
theorem budgeted_layers
    (zobrist : ZobristTable)
    (hBudget : Budgeted maxSteps radius moves maxEntries budget)
    (hMoves : puzzle.moveCount = moves.toNat) :
    ∃ last,
      searchLayers puzzle zobrist maxEntries.toNat
            budget.effectiveTouchBfsRadius.toNat
            (startLayers puzzle.layout zobrist puzzle.target) =
          .ok last ∧
        last.suffixByHash =
            last.allNodes.map SolvedNeighborhoodNode.entry ∧
          (hashesOf last.allNodes).Nodup ∧
            ∀ node ∈ last.allNodes,
              node.suffix.len.toNat ≤
                budget.effectiveTouchBfsRadius.toNat := by
  have hRadius := hBudget.radius
  have hEntries := hBudget.entries
  rw [← hMoves] at hEntries
  rw [← Nat.zero_add budget.effectiveTouchBfsRadius.toNat]
    at hRadius hEntries
  rcases searchLayers_sized zobrist hRadius hEntries
    (startLayers_sized zobrist puzzle) with
    ⟨last, hRun, hRest⟩
  rw [Nat.zero_add] at hRest
  exact ⟨last, hRun, hRest⟩

/- Neither the entry limit nor the packing stops the build. -/
theorem budgeted_build
    (hBudget : Budgeted maxSteps radius moves maxEntries budget)
    (hMoves : puzzle.moveCount = moves.toNat)
    {error : Exception}
    (hBuild :
      buildSolvedNeighborhoodHost puzzle zobrist
          budget.effectiveTouchBfsRadius.toNat maxEntries.toNat
          fixedBucketCount =
        .error error) :
    error ≠ exceededMaxEntries ∧
      error ≠
        .runtimeError
          "solved neighborhood suffix packing supports radius <= 12" := by
  have hRadius := hBudget.radius
  rcases budgeted_layers zobrist hBudget hMoves with
    ⟨last, hRun, -⟩
  rw [buildSolvedNeighborhoodHost] at hBuild
  by_cases hZero : budget.effectiveTouchBfsRadius.toNat = 0
  · rw [if_pos hZero] at hBuild
    cases hBuild
  rw [if_neg hZero, if_neg (by omega), hRun, except_ok_bind]
    at hBuild
  by_cases hPower : fixedBucketCount ≠ 0 ∧
      fixedBucketCount &&& (fixedBucketCount - 1) ≠ 0
  · rw [if_pos hPower] at hBuild
    cases hBuild
    exact ⟨by decide, by decide⟩
  rw [if_neg hPower] at hBuild
  dsimp only at hBuild
  cases hPack :
      packBuckets (last.allNodes.map fun node => node.hash)
        (fixedBucketCount != 0) 33
        (if fixedBucketCount = 0 then
          nextPowerOfTwo (max 1 last.allNodes.length)
        else fixedBucketCount.toNat) with
  | ok packed =>
      rw [hPack] at hBuild
      cases hBuild
  | error other =>
      rw [hPack] at hBuild
      cases hBuild
      rcases packBuckets_error hPack with rfl | rfl
      · exact ⟨by decide, by decide⟩
      · exact ⟨by decide, by decide⟩

/- A listed hash has a suffix of at most the budgeted radius. -/
theorem budgeted_suffix
    (hBudget : Budgeted maxSteps radius moves maxEntries budget)
    (hMoves : puzzle.moveCount = moves.toNat)
    (hBuild :
      buildSolvedNeighborhoodHost puzzle zobrist
          budget.effectiveTouchBfsRadius.toNat maxEntries.toNat
          fixedBucketCount =
        .ok host) :
    (∀ entry ∈ host.suffixByHash,
        entry.2.len.toNat ≤
          budget.effectiveTouchBfsRadius.toNat) ∧
      (host.deviceTable.enabled = false →
        host.runtime.enabled = false) ∧
        ∀ hash,
          solvedNeighborhoodContains host.deviceTable hash = true →
            ∃ suffix, host.runtime.suffixFor hash = .ok suffix ∧
              suffix.len.toNat ≤
                budget.effectiveTouchBfsRadius.toNat := by
  rcases budgeted_layers zobrist hBudget hMoves with
    ⟨last, hRun, hEntries, hNodup, hShort⟩
  by_cases hZero : budget.effectiveTouchBfsRadius.toNat = 0
  · rw [buildSolvedNeighborhoodHost, if_pos hZero] at hBuild
    cases hBuild
    exact
      ⟨fun _ hMem => absurd hMem List.not_mem_nil, fun _ => rfl,
        fun _ hIn => by cases hIn⟩
  · rcases buildSolvedNeighborhoodHost_neighborhood
      (Nat.pos_of_ne_zero hZero) hBuild with
      ⟨layers, hSame, hOf⟩
    rw [hRun] at hSame
    cases hSame
    have hHost := hOf hEntries hNodup
    refine ⟨?_, fun hOff => hOff, fun hash hIn => ?_⟩
    · intro entry hMem
      rw [hHost.entries] at hMem
      rcases List.mem_map.mp hMem with ⟨node, hNode, rfl⟩
      exact hShort node hNode
    · rcases hHost.suffixFor (hHost.contains_iff.mp hIn) with
        ⟨node, hNode, -, hSuffix⟩
      exact ⟨node.suffix, hSuffix, hShort node hNode⟩

----------------
-- Forward Searches
----------------

/- The launches of every depth with their jobs, on all devices. -/
abbrev ForwardSearch : Type :=
  Nat → List (Launch × Nat)

/- Every launch of a depth counts its children as one deeper. -/
structure ForwardSearch.RunsOver
    (search : ForwardSearch)
    (puzzle : Puzzle)
    (zobrist : ZobristTable)
    (host : HostSolvedNeighborhood)
    (backend : SuffixBackend)
    (limit : Nat) : Prop where
  samePuzzle : ∀ depth < limit, ∀ launch ∈ search depth,
    launch.1.puzzle = puzzle
  sameHash : ∀ depth < limit, ∀ launch ∈ search depth,
    launch.1.zobrist = zobrist
  sameTables : ∀ depth < limit, ∀ launch ∈ search depth,
    launch.1.tables = goalTables host (disabledSuffixes backend)
  counted : ∀ depth < limit, ∀ launch ∈ search depth,
    launch.1.solvedDepth.toNat = depth + 1
  cleanStates : ∀ depth < limit, ∀ launch ∈ search depth, ∀ i,
    Clean puzzle.layout (launch.1.currentFrontierStates i)

/-
  A state of the frontier with a thread for each of its moves.
  Every such child is checked: the depth is not stopped before
  all its launches have run.
-/
def ForwardSearch.Kept
    (search : ForwardSearch)
    (moveCount depth : Nat)
    (s : State) : Prop :=
  ∀ move < moveCount, ∃ launch ∈ search depth, ∃ candidate,
    launch.1.Live launch.2 candidate ∧
      launch.1.parent launch.2 candidate = s ∧
        launch.1.move candidate = move

/-
  The thread of this child takes an index and has a hit to write
  there. Whether the list has room for the index depends on its
  capacity alone (`stream2HashGoalKernel_complete`).
-/
def ForwardSearch.Recorded
    (search : ForwardSearch)
    (depth : Nat)
    (child : State) : Prop :=
  ∃ launch ∈ search depth, ∃ candidate hit,
    launch.1.Child launch.2 candidate child ∧
      launch.1.threadHit launch.2 candidate = some hit ∧
        hit.depth.toNat = depth + 1

/- Every hit before the limit has a total within the steps. -/
def ForwardSearch.StaysWithin
    (search : ForwardSearch)
    (tables : SuffixTables)
    (limit maxSteps : Nat) : Prop :=
  ∀ depth launch candidate hit,
    depth < limit → launch ∈ search depth →
      launch.1.threadHit launch.2 candidate = some hit →
        ∃ total, hit.totalDepth tables = .ok total ∧
          total.toNat ≤ maxSteps

/- A nonempty solution within the steps, whose states the search
keeps, has a child that is recorded before the limit. -/
def ForwardSearch.Finds
    (search : ForwardSearch)
    (puzzle : Puzzle)
    (limit maxSteps : Nat) : Prop :=
  ∀ start solution,
    solution ≠ [] → solution.length ≤ maxSteps →
      Path (Moves puzzle) start solution puzzle.target →
        (∀ depth s, depth < limit → depth < solution.length →
          Path (Moves puzzle) start (solution.take depth) s →
            search.Kept puzzle.moveCount depth s) →
          ∃ depth child, depth < limit ∧
            depth < solution.length ∧
              Path (Moves puzzle) start
                  (solution.take (depth + 1)) child ∧
                search.Recorded depth child

theorem threadHit_eq_some
    {launch : Launch}
    {job candidate : Nat}
    {hit : SolvedHit}
    (hHit : launch.threadHit job candidate = some hit) :
    ∃ found, (launch.check job candidate).hit = some found ∧
      launch.makeHit job candidate found = hit := by
  rw [Launch.threadHit] at hHit
  split_ifs at hHit
  exact Option.map_eq_some_iff.mp hHit

/- Without suffixes a hit is the child's own hash, found. -/
theorem hashGoal_hit_disabled
    {parent : State}
    {move : Nat}
    {found : Hash128 × UInt32}
    (hHit :
      (hashGoal puzzle zobrist
            (goalTables host (disabledSuffixes backend)) parent
            move).hit =
        some found) :
    found.2 = 0 ∧
      (host.deviceTable.enabled = false ∨
        solvedNeighborhoodContains host.deviceTable found.1 =
          true) := by
  rw [hashGoal] at hHit
  dsimp only at hHit
  rw [goalTables_suffix_enabled] at hHit
  split_ifs at hHit with hFound hOn
  · cases hHit
    refine ⟨rfl, ?_⟩
    rw [foundIn] at hFound
    split_ifs at hFound with hEnabled
    · exact Or.inr hFound
    · exact Or.inl (Bool.eq_false_iff.mpr hEnabled)
  · exact absurd hOn Bool.false_ne_true

/- The total of a hit is its depth plus the suffix of its hash. -/
theorem totalDepth_disabled
    {hit : SolvedHit}
    {suffix : PackedSuffix}
    (hId : hit.suffix = 0)
    (hSuffix :
      host.runtime.suffixFor hit.candidate.hash = .ok suffix) :
    hit.totalDepth
        (suffixTables host (disabledSuffixes backend)) =
      .ok (hit.depth + suffix.len.toUInt32) := by
  rw [SolvedHit.totalDepth, solvedTotalDepth, hId]
  have hLen :
      (suffixTables host
              (disabledSuffixes backend)).stream2.suffixLen 0 =
        .ok 0 :=
    if_pos ⟨rfl, rfl⟩
  rw [hLen, except_ok_bind, suffixTables, hSuffix, except_ok_bind]
  have hZero : hit.depth + (0 : UInt8).toUInt32 = hit.depth :=
    UInt32.add_zero _
  rw [hZero]

/- Every hit within the limit is within the steps. -/
theorem budgeted_total
    (hBudget : Budgeted maxSteps radius moves maxEntries budget)
    (hMoves : puzzle.moveCount = moves.toNat)
    {launch : Launch}
    {job candidate : Nat}
    {hit : SolvedHit}
    (hBuild :
      buildSolvedNeighborhoodHost puzzle zobrist
          budget.effectiveTouchBfsRadius.toNat maxEntries.toNat
          fixedBucketCount =
        .ok host)
    (hTables :
      launch.tables = goalTables host (disabledSuffixes backend))
    (hDepth :
      launch.solvedDepth.toNat ≤
        budget.nativeForwardDepthLimit.toNat)
    (hHit : launch.threadHit job candidate = some hit) :
    ∃ total,
      hit.totalDepth
            (suffixTables host (disabledSuffixes backend)) =
          .ok total ∧
        total.toNat ≤ maxSteps.toNat := by
  rcases threadHit_eq_some hHit with ⟨found, hFound, rfl⟩
  rw [Launch.check, hTables] at hFound
  rcases hashGoal_hit_disabled hFound with ⟨hId, hFoundIn⟩
  rcases budgeted_suffix hBudget hMoves hBuild with
    ⟨-, hDisabled, hListed⟩
  have hSplit := hBudget.split
  have hSuffix :
      ∃ suffix, host.runtime.suffixFor found.1 = .ok suffix ∧
        suffix.len.toNat ≤
          budget.effectiveTouchBfsRadius.toNat := by
    rcases hFoundIn with hOff | hIn
    · exact ⟨⟨0, 0⟩, if_pos (hDisabled hOff), Nat.zero_le _⟩
    · exact hListed _ hIn
  rcases hSuffix with ⟨suffix, hSuffix, hShort⟩
  have hBound := maxSteps.toNat_lt
  refine ⟨_, totalDepth_disabled hId hSuffix, ?_⟩
  have hSame :
      (launch.makeHit job candidate found).depth =
        launch.solvedDepth :=
    rfl
  rw [hSame, UInt32.toNat_add, UInt8.toNat_toUInt32]
  omega

/- Where the forward search ends, the target is near enough. -/
theorem budgeted_recorded
    (hBudget : Budgeted maxSteps radius moves maxEntries budget)
    (hMoves : puzzle.moveCount = moves.toNat)
    {search : ForwardSearch}
    {start : State}
    {solution : List Nat}
    (hPermutes : puzzle.Permutes)
    (hTarget : Clean puzzle.layout puzzle.target)
    (hHash :
      Set.InjOn (hashState puzzle.layout zobrist)
        (nearTarget puzzle budget.effectiveTouchBfsRadius.toNat))
    (hBuild :
      buildSolvedNeighborhoodHost puzzle zobrist
          budget.effectiveTouchBfsRadius.toNat maxEntries.toNat
          fixedBucketCount =
        .ok host)
    (hRuns :
      search.RunsOver puzzle zobrist host backend
        budget.nativeForwardDepthLimit.toNat)
    (hSome : solution ≠ [])
    (hSteps : solution.length ≤ maxSteps.toNat)
    (hPath : Path (Moves puzzle) start solution puzzle.target)
    (hKept : ∀ depth s,
      depth < budget.nativeForwardDepthLimit.toNat →
        depth < solution.length →
          Path (Moves puzzle) start (solution.take depth) s →
            search.Kept puzzle.moveCount depth s) :
    ∃ depth child,
      depth < budget.nativeForwardDepthLimit.toNat ∧
        depth < solution.length ∧
          Path (Moves puzzle) start (solution.take (depth + 1))
              child ∧
            search.Recorded depth child := by
  have hLength : 0 < solution.length :=
    List.length_pos_of_ne_nil hSome
  have hForward := hBudget.forward fun hZero => by
    rw [hZero] at hSteps
    exact absurd hSteps (by simpa using hSome)
  have hSplit := hBudget.split
  obtain ⟨depth, hDepth⟩ :
      ∃ depth, depth + 1 =
        min budget.nativeForwardDepthLimit.toNat
          solution.length :=
    ⟨min budget.nativeForwardDepthLimit.toNat
      solution.length - 1, by omega⟩
  have hIn : depth < solution.length := by omega
  have hWhole := hPath
  rw [← List.take_append_drop (depth + 1) solution,
    List.take_succ_eq_append_getElem hIn] at hWhole
  rcases path_append.mp hWhole with ⟨child, hPrefix, hRest⟩
  rcases path_append.mp hPrefix with
    ⟨parent, hBefore, last, hStep, hSame⟩
  have hLast : last = child := hSame
  subst hLast
  have hMove := (moves_iff.mp hStep).1
  rcases hKept depth parent (by omega) hIn hBefore _ hMove with
    ⟨launch, hLaunch, candidate, hLive, hParent, hMoved⟩
  have hLimit : depth < budget.nativeForwardDepthLimit.toNat := by
    omega
  have hPuzzle := hRuns.samePuzzle depth hLimit launch hLaunch
  have hZobrist := hRuns.sameHash depth hLimit launch hLaunch
  have hTables := hRuns.sameTables depth hLimit launch hLaunch
  have hNear :
      Within (Moves puzzle) puzzle.target
        budget.effectiveTouchBfsRadius.toNat last := by
    refine ⟨_, ?_, _, rfl, hRest⟩
    rw [List.length_drop]
    omega
  have hPrepared :
      Prepared puzzle zobrist budget.effectiveTouchBfsRadius.toNat
        0 host (disabledSuffixes backend)
        (nearTarget puzzle
          budget.effectiveTouchBfsRadius.toNat) := by
    refine ⟨hPermutes, ?_, hTarget, ⟨_, _, hBuild⟩,
      ⟨0, backend, rfl⟩, fun _ hIn => hIn, hHash⟩
    rcases hBudget.packing with hZero | hFew
    · exact Or.inl ⟨hZero, rfl⟩
    · exact Or.inr (hMoves ▸ hFew)
  have hClean : Clean puzzle.layout parent := by
    rw [← hParent]
    exact hRuns.cleanStates depth hLimit launch hLaunch _
  have hSpec := hPrepared.hashGoal_spec hClean hStep
    fun word u hShort hWord => by
      have hNil : word = [] :=
        List.eq_nil_of_length_eq_zero (by omega)
      subst hNil
      rw [← (hWord : last = u)]
      exact ⟨hStep.clean, hNear⟩
  rw [Nat.zero_add] at hSpec
  have hFound := hSpec.1.mpr hNear
  rcases Option.isSome_iff_exists.mp hFound with ⟨found, hHit⟩
  have hCheck :
      (launch.1.check launch.2 candidate).hit = some found := by
    rw [Launch.check, hPuzzle, hZobrist, hTables, hParent, hMoved]
    exact hHit
  refine ⟨depth, last, hLimit, hIn, ?_, launch, hLaunch, candidate,
    launch.1.makeHit launch.2 candidate found, ⟨hLive, ?_⟩, ?_,
    hRuns.counted depth hLimit launch hLaunch⟩
  · rw [List.take_succ_eq_append_getElem hIn]
    exact hPrefix
  · rw [hPuzzle, hParent, hMoved]
    exact hStep
  · rw [launch.1.threadHit_eq hLive, hCheck]
    rfl

/-
  With the radius and the entry limit of a returned budget, the
  neighborhood is built without hitting the limit or packing more
  than twelve moves. Hits within the depth limit are within the
  steps, and a nonempty solution within the steps that the search
  keeps is recorded no later than at the depth limit.
-/
theorem searchBudget_bounds
    (hBudget :
      searchBudget maxSteps radius moves maxEntries = .ok budget)
    (hMoves : puzzle.moveCount = moves.toNat)
    (zobrist : ZobristTable)
    (fixedBucketCount : UInt32) :
    (∀ error,
        buildSolvedNeighborhoodHost puzzle zobrist
              budget.effectiveTouchBfsRadius.toNat
              maxEntries.toNat fixedBucketCount =
            .error error →
          error ≠ exceededMaxEntries ∧
            error ≠
              .runtimeError
                "solved neighborhood suffix packing supports radius <= 12") ∧
      ∀ host,
        buildSolvedNeighborhoodHost puzzle zobrist
              budget.effectiveTouchBfsRadius.toNat
              maxEntries.toNat fixedBucketCount =
            .ok host →
          (∀ entry ∈ host.suffixByHash,
              entry.2.len.toNat ≤ 12) ∧
            ∀ (backend : SuffixBackend) (search : ForwardSearch),
              search.RunsOver puzzle zobrist host backend
                  budget.nativeForwardDepthLimit.toNat →
                search.StaysWithin
                    (suffixTables host (disabledSuffixes backend))
                    budget.nativeForwardDepthLimit.toNat
                    maxSteps.toNat ∧
                  (puzzle.Permutes →
                    Clean puzzle.layout puzzle.target →
                      Set.InjOn (hashState puzzle.layout zobrist)
                          (nearTarget puzzle
                            budget.effectiveTouchBfsRadius.toNat) →
                        search.Finds puzzle
                          budget.nativeForwardDepthLimit.toNat
                          maxSteps.toNat) := by
  have hBudgeted := searchBudget_eq_ok hBudget
  refine
    ⟨fun error hError => budgeted_build hBudgeted hMoves hError,
      fun host hBuild => ⟨fun entry hMem => ?_,
        fun backend search hRuns => ⟨?_, ?_⟩⟩⟩
  · exact
      ((budgeted_suffix hBudgeted hMoves hBuild).1 entry
        hMem).trans hBudgeted.radius
  · intro depth launch candidate hit hDepth hLaunch hHit
    refine budgeted_total hBudgeted hMoves hBuild
      (hRuns.sameTables depth hDepth launch hLaunch) ?_ hHit
    rw [hRuns.counted depth hDepth launch hLaunch]
    exact hDepth
  · intro hPermutes hTarget hHash start solution hSome hSteps hPath
      hKept
    exact budgeted_recorded hBudgeted hMoves hPermutes hTarget hHash
      hBuild hRuns hSome hSteps hPath hKept

/- The neighborhood that is built, or a disabled one. -/
def builtHost
    (puzzle : Puzzle)
    (zobrist : ZobristTable)
    (radius maxEntries : Nat) : HostSolvedNeighborhood :=
  match
    buildSolvedNeighborhoodHost puzzle zobrist radius maxEntries 0
  with
  | .ok host => host
  | .error _ => .disabled

theorem builtHost_eq
    {radius maxEntries : Nat}
    (hBuilt :
      (buildSolvedNeighborhoodHost puzzle zobrist radius maxEntries
          0).toOption.isSome = true) :
    buildSolvedNeighborhoodHost puzzle zobrist radius maxEntries 0 =
      .ok (builtHost puzzle zobrist radius maxEntries) := by
  rw [builtHost]
  cases hBuild :
      buildSolvedNeighborhoodHost puzzle zobrist radius maxEntries
        0 with
  | ok host => rfl
  | error error =>
      rw [hBuild] at hBuilt
      cases hBuilt

/- One depth with one parent, on one device. -/
def oneLaunch
    (puzzle : Puzzle)
    (zobrist : ZobristTable)
    (host : HostSolvedNeighborhood)
    (parent : State) : Launch where
  puzzle := puzzle
  zobrist := zobrist
  tables := goalTables host (disabledSuffixes .baseGenerators)
  currentFrontierStates := fun _ => parent
  parentBase := fun _ => 0
  count := fun _ => 1
  bMicro := 1
  depth := 1
  currentDepth := none
  localRank := 0
  capacity := 4
  stopOnFound := true

/- One depth with one job. -/
def oneSearch (launch : Launch) : ForwardSearch :=
  fun _ => [(launch, 0)]

theorem oneSearch_runsOver
    {parent : State}
    (hParent : Clean puzzle.layout parent) :
    (oneSearch (oneLaunch puzzle zobrist host parent)).RunsOver
      puzzle zobrist host .baseGenerators 1 := by
  have hOnly : ∀ depth,
      ∀ launch ∈ oneSearch (oneLaunch puzzle zobrist host parent)
        depth,
        launch = (oneLaunch puzzle zobrist host parent, 0) :=
    fun depth launch hMem => List.mem_singleton.mp hMem
  refine ⟨?_, ?_, ?_, ?_, ?_⟩
  · intro depth _ launch hMem
    rw [hOnly depth launch hMem]
    rfl
  · intro depth _ launch hMem
    rw [hOnly depth launch hMem]
    rfl
  · intro depth _ launch hMem
    rw [hOnly depth launch hMem]
    rfl
  · intro depth hDepth launch hMem
    rw [hOnly depth launch hMem, Nat.lt_one_iff.mp hDepth]
    rfl
  · intro depth _ launch hMem i
    rw [hOnly depth launch hMem]
    exact hParent

theorem oneSearch_kept
    {parent : State}
    (hCount : puzzle.moveCount < 2 ^ 32) :
    (oneSearch (oneLaunch puzzle zobrist host parent)).Kept
      puzzle.moveCount 0 parent := by
  intro move hMove
  refine ⟨_, List.mem_singleton_self _, move, ⟨?_, ?_⟩, rfl,
    Nat.mod_eq_of_lt hMove⟩
  · have hTotal :
        (oneLaunch puzzle zobrist host parent).total =
          puzzle.moveCount := by
      change (1 * UInt32.ofNat puzzle.moveCount).toNat = _
      rw [UInt32.one_mul, UInt32.toNat_ofNat']
      exact Nat.mod_eq_of_lt hCount
    dsimp only
    rw [hTotal]
    exact hMove
  · have hFirst :
        (oneLaunch puzzle zobrist host parent).parentLocal move =
          0 :=
      Nat.div_eq_of_lt hMove
    dsimp only
    rw [hFirst]
    exact (by decide : 0 < (1 : UInt32).toNat)

theorem searchBudget_bounds_flip :
    ∃ budget child,
      searchBudget 2 1 1 2 = .ok budget ∧
        (oneSearch
          (oneLaunch flipPuzzle flipZobrist
            (builtHost flipPuzzle flipZobrist 1 2)
            flipPuzzle.initial)).Recorded 0 child := by
  have hBudget :
      searchBudget 2 1 1 2 = .ok ⟨2, 1, 1, 1, 2, 2⟩ := by
    decide
  have hBuild :
      buildSolvedNeighborhoodHost flipPuzzle flipZobrist 1 2 0 =
        .ok (builtHost flipPuzzle flipZobrist 1 2) :=
    builtHost_eq (by decide +kernel)
  have hBounds :=
    (@searchBudget_bounds flipPuzzle 2 1 1 2 _ hBudget rfl
      flipZobrist 0).2 _ hBuild
  have hFinds := (hBounds.2 .baseGenerators _
    (oneSearch_runsOver flipPuzzle_clean.1)).2 flipPuzzle_permutes
    flipPuzzle_clean.2
    (hashState_flip_injOn.mono fun _ hIn => hIn.1)
  rcases hFinds flipPuzzle.initial [0] (by decide) (by decide)
    ⟨_, flipPuzzle_moves, rfl⟩ fun depth s hDepth _ hPath => by
      have hZero := Nat.lt_one_iff.mp hDepth
      subst hZero
      rw [← (hPath : flipPuzzle.initial = s)]
      exact oneSearch_kept (by decide) with
    ⟨depth, child, hDepth, -, -, hRecorded⟩
  have hZero := Nat.lt_one_iff.mp hDepth
  subst hZero
  exact ⟨_, child, hBudget, hRecorded⟩

/- A swap and a rotation of three places. -/
def spinPuzzle : Puzzle where
  layout := ⟨3, 7, by decide⟩
  moveCount := 2
  generators move p :=
    if move = 0 then
      if p = 0 then 1 else if p = 1 then 0 else p
    else
      if p = 0 then 2 else if p = 1 then 0
      else if p = 2 then 1 else p
  initial p := if p = 0 then 1 else if p = 1 then 2 else 0
  target p := if p = 1 then 1 else if p = 2 then 2 else 0
  names := [['a'], ['b']]

theorem spinPuzzle_path :
    Path (Moves spinPuzzle) spinPuzzle.initial [0, 0, 1]
      spinPuzzle.target := by
  refine ⟨_, moves_iff.mpr ⟨by decide, rfl⟩, _,
    moves_iff.mpr ⟨by decide, rfl⟩, _,
    moves_iff.mpr ⟨by decide, rfl⟩, ?_⟩
  refine Clean.ext (clearStatePadding_clean fun p hp =>
    if_neg (by omega)) ?_ fun p hp => ?_
  · intro p hp
    have hThree : 3 ≤ p := hp
    simp only [spinPuzzle]
    rw [if_neg (by omega), if_neg (by omega)]
  · have hThree : p < 3 := hp
    obtain rfl | rfl | rfl : p = 0 ∨ p = 1 ∨ p = 2 := by omega
    · rfl
    · rfl
    · rfl

/- A hash of the first byte only. -/
def firstByteZobrist : ZobristTable :=
  fun p v => if p = 0 then ⟨v.toUInt64, 0⟩ else ⟨0, 0⟩

/- A launch of the spinning puzzle. -/
def spinLaunch (host : HostSolvedNeighborhood) : Launch :=
  oneLaunch spinPuzzle firstByteZobrist host spinPuzzle.initial

/- The first child is the swapped one; the other starts with 0. -/
theorem spinLaunch_candidate
    (host : HostSolvedNeighborhood)
    {candidate : Nat}
    {child : State}
    (hChild : (spinLaunch host).Child 0 candidate child) :
    candidate = 0 ∨ child 0 = 0 := by
  have hTwo : candidate < 2 := hChild.1.1
  rcases Nat.le_one_iff_eq_zero_or_eq_one.mp
    (Nat.le_of_lt_succ hTwo) with hZero | hOne
  · exact Or.inl hZero
  · subst hOne
    have hStep : Moves spinPuzzle spinPuzzle.initial 1 child :=
      hChild.2
    exact Or.inr (hStep.apply (p := 0) (by decide))

theorem spinLaunch_missed :
    ((spinLaunch (builtHost spinPuzzle firstByteZobrist 2
        7)).threadHit 0 0).isSome = false := by
  decide +kernel

/-
  A solved start has a solution without moves, which is never
  recorded. Where hashes collide, a state may hide another one of
  its layer, and the solutions through that one are missed.
-/
theorem searchBudget_bounds_missed :
    (∃ budget,
        searchBudget 1 0 1 1 = .ok budget ∧
          Path (Moves flipPuzzle) flipPuzzle.target []
              flipPuzzle.target ∧
            ∀ depth child,
              depth < budget.nativeForwardDepthLimit.toNat →
                ¬ (oneSearch
                    (oneLaunch flipPuzzle flipZobrist .disabled
                      flipPuzzle.target)).Recorded depth child) ∧
      ∃ budget,
        searchBudget 3 2 2 7 = .ok budget ∧
          Path (Moves spinPuzzle) spinPuzzle.initial [0, 0, 1]
              spinPuzzle.target ∧
            ∀ depth child,
              depth < budget.nativeForwardDepthLimit.toNat →
                Path (Moves spinPuzzle) spinPuzzle.initial
                    (List.take (depth + 1) [0, 0, 1]) child →
                  ¬ (oneSearch
                      (spinLaunch
                        (builtHost spinPuzzle firstByteZobrist 2
                          7))).Recorded depth child := by
  constructor
  · refine ⟨⟨1, 1, 0, 0, 1, 1⟩, by decide, rfl, ?_⟩
    rintro depth child - ⟨launch, hLaunch, candidate, hit, hChild,
      hHit, -⟩
    rw [List.mem_singleton.mp hLaunch] at hChild hHit
    have hOne : candidate < 1 := hChild.1.1
    rw [Nat.lt_one_iff.mp hOne] at hHit
    have hNone :
        ((oneLaunch flipPuzzle flipZobrist .disabled
            flipPuzzle.target).threadHit 0 0).isSome = false := by
      decide
    rw [hHit] at hNone
    cases hNone
  · refine ⟨⟨3, 1, 2, 2, 7, 7⟩, by decide, ?_, ?_⟩
    · exact spinPuzzle_path
    · rintro depth child hDepth hPath ⟨launch, hLaunch, candidate,
        hit, hChild, hHit, -⟩
      have hZero := Nat.lt_one_iff.mp hDepth
      subst hZero
      rw [List.mem_singleton.mp hLaunch] at hChild hHit
      rcases hPath with ⟨u, hStep, hSame⟩
      rw [← (hSame : u = child)] at hChild
      rcases spinLaunch_candidate _ hChild with rfl | hOther
      · have hNone := spinLaunch_missed
        rw [hHit] at hNone
        cases hNone
      · have hFirst : u 0 = 2 :=
          hStep.apply (p := 0) (by decide)
        rw [hFirst] at hOther
        cases hOther

end Stream2

end BeamSearch

import BeamSearch.Solve.RepairRows

/-
  Cutting known solutions into repair tasks.

  Every accepted row is replayed from the initial state of its
  puzzle and cut into windows. A task knows the states at both
  ends of its window and the texts of the moves in front of it,
  in it and behind it. Step counters are 32-bit words.

  Main declarations:
    * `RepairTask`, `RepairSolutionAssembly`
    * `repairTasks`
    * `buildRepairSolutions`
    * `buildRepairSolutions_segmented`
-/

namespace BeamSearch

open Text

namespace Solve

open Final

----------------
-- Tasks
----------------

/- One window of a solution, to be solved again. -/
structure RepairTask where
  repairId : Nat
  solutionJobId : Nat
  puzzleId : Nat
  solutionIndex : Nat
  depthLimit : Nat
  window : Nat
  startStep : Nat
  targetStep : Nat
  oldSegmentLen : Nat
  originalLength : Nat
  startState : State
  targetState : State
  prefixPath : Text
  oldSegmentPath : Text
  suffixPath : Text
  originalPath : Text

/- A solution with all its windows. -/
structure RepairSolutionAssembly where
  solutionJobId : Nat
  puzzleId : Nat
  solutionIndex : Nat
  originalLength : Nat
  originalPath : Text
  tasks : List RepairTask

/- The states on the way, the first one included. -/
def statesAlongSolution
    (puzzle : Puzzle)
    (initial : State) :
    List Nat → Except Exception (List State)
  | [] => .ok [initial]
  | move :: moves => do
      let next ← applyMoveFlatHost puzzle initial move
      let states ← statesAlongSolution puzzle next moves
      pure (initial :: states)

/- The options of a repair. -/
structure RepairConfig where
  k1Radius : Nat
  searchDepth : Nat
  firstSolutionIndex : Nat
  maxSolutions : Nat
deriving DecidableEq, Repr

/- The width of a window; the sum wraps. -/
def RepairConfig.window (config : RepairConfig) : Nat :=
  (config.k1Radius + config.searchDepth) % 2 ^ 32

/- Where a window that starts at `startStep` ends. -/
def targetStep (window length startStep : Nat) : Nat :=
  min (length % 2 ^ 32) ((startStep + window) % 2 ^ 32)

/- The solution that tasks are cut from. -/
structure RepairSource where
  solutionJobId : Nat
  puzzleId : Nat
  originalPath : Text
  moves : List Nat
  states : List State

/- The task of a window, with the path before and behind it. -/
def repairTask
    (puzzle : Puzzle)
    (config : RepairConfig)
    (source : RepairSource)
    (repairId startStep targetStep : Nat) :
    Except Exception RepairTask := do
  let before ←
    movesToPathText puzzle.names (source.moves.take startStep)
  let segment ←
    movesToPathText puzzle.names
      ((source.moves.take targetStep).drop startStep)
  let behind ←
    movesToPathText puzzle.names (source.moves.drop targetStep)
  pure
    { repairId := repairId
      solutionJobId := source.solutionJobId
      puzzleId := source.puzzleId
      solutionIndex := 0
      depthLimit := config.searchDepth
      window := config.window
      startStep := startStep
      targetStep := targetStep
      oldSegmentLen := targetStep - startStep
      originalLength := source.moves.length % 2 ^ 32
      startState := source.states.getD startStep fun _ => 0
      targetState := source.states.getD targetStep fun _ => 0
      prefixPath := before
      oldSegmentPath := segment
      suffixPath := behind
      originalPath := source.originalPath }

/- The loop over windows; without fuel it would not end. -/
def repairTasks
    (puzzle : Puzzle)
    (config : RepairConfig)
    (source : RepairSource) :
    Nat → Nat → Nat → Except Exception (List RepairTask)
  | 0, _, _ => .error (.runtimeError "endless repair segmentation")
  | fuel + 1, repairId, startStep =>
      if startStep < source.moves.length then do
        let target :=
          targetStep config.window source.moves.length startStep
        let task ←
          repairTask puzzle config source repairId startStep
            target
        let rest ←
          repairTasks puzzle config source fuel (repairId + 1)
            target
        pure (task :: rest)
      else
        .ok []

----------------
-- Assemblies
----------------

/- The counters and the output of the loop over rows. -/
structure RepairProgress where
  seenSolutionRows : Nat
  solutionJobId : Nat
  repairId : Nat
  out : List RepairSolutionAssembly

/- One solution more. -/
def assemble
    (puzzle : Puzzle)
    (config : RepairConfig)
    (initial : State)
    (puzzleId : Nat)
    (originalPath : Text)
    (moves : List Nat)
    (progress : RepairProgress) :
    Except Exception RepairProgress := do
  let states ← statesAlongSolution puzzle initial moves
  let source : RepairSource :=
    { solutionJobId := progress.solutionJobId + 1
      puzzleId := puzzleId
      originalPath := originalPath
      moves := moves
      states := states }
  let tasks ←
    repairTasks puzzle config source (moves.length + 1)
      (progress.repairId + 1) 0
  pure
    { progress with
      solutionJobId := progress.solutionJobId + 1
      repairId := progress.repairId + tasks.length
      out :=
        progress.out ++
          [{ solutionJobId := progress.solutionJobId + 1
             puzzleId := puzzleId
             solutionIndex := 0
             originalLength := moves.length % 2 ^ 32
             originalPath := originalPath
             tasks := tasks }] }

/- The rows from the first index on, as many as are wanted. -/
def buildFromRows
    (puzzle : Puzzle)
    (initialStates : Nat → Option State)
    (config : RepairConfig) :
    List SolutionRow → RepairProgress →
      Except Exception (List RepairSolutionAssembly)
  | [], progress => .ok progress.out
  | row :: rows, progress =>
      let next : RepairProgress :=
        { progress with
          seenSolutionRows := progress.seenSolutionRows + 1 }
      if progress.seenSolutionRows <
          config.firstSolutionIndex then
        buildFromRows puzzle initialStates config rows next
      else if config.maxSolutions ≠ 0 ∧
          progress.out.length ≥ config.maxSolutions then
        .ok progress.out
      else
        let originalPath := trimAscii row.2
        if originalPath = [] then
          buildFromRows puzzle initialStates config rows next
        else
          match initialStates row.1 with
          | none =>
              .error
                (.runtimeError
                  ("repair puzzle_id not found in test csv: " ++
                    toString row.1))
          | some initial => do
              let moves ←
                parseSolutionPathText originalPath puzzle.names
              if moves = [] then
                buildFromRows puzzle initialStates config rows
                  next
              else do
                let next ←
                  assemble puzzle config initial row.1
                    originalPath moves next
                buildFromRows puzzle initialStates config rows
                  next

/- Descending puzzle ids; equal ids keep their order. -/
def descendingRows (rows : List SolutionRow) : List SolutionRow :=
  rows.mergeSort fun a b => decide (b.1 ≤ a.1)

/- All solutions of a file. -/
def buildRepairSolutions
    (puzzle : Puzzle)
    (initialStates : Nat → Option State)
    (config : RepairConfig)
    (fileText : Text) :
    Except Exception (List RepairSolutionAssembly) :=
  if config.window = 0 then
    .error (.runtimeError "repair window must be nonzero")
  else do
    let rows ← readSolutionRows fileText
    buildFromRows puzzle initialStates config
      (descendingRows rows)
      { seenSolutionRows := 0
        solutionJobId := 9200000
        repairId := 9100000
        out := [] }

----------------
-- What The Tasks Of A Solution Are
----------------

/- Windows from a step to the end; only the last may be short. -/
def CutInto (window length : Nat) :
    Nat → List RepairTask → Prop
  | step, [] => step = length
  | step, task :: rest =>
      task.startStep = step ∧
        step < task.targetStep ∧
        task.targetStep ≤ step + window ∧
        (rest ≠ [] → task.targetStep = step + window) ∧
        CutInto window length task.targetStep rest

theorem CutInto.le
    {window length step : Nat}
    {tasks : List RepairTask}
    (hCut : CutInto window length step tasks) :
    step ≤ length := by
  induction tasks generalizing step with
  | nil => exact Nat.le_of_eq hCut
  | cons task rest ih =>
      rcases hCut with ⟨-, hLt, -, -, hRest⟩
      exact hLt.le.trans (ih hRest)

theorem CutInto.lt_of_ne_nil
    {window length step : Nat}
    {tasks : List RepairTask}
    (hCut : CutInto window length step tasks)
    (hTasks : tasks ≠ []) :
    step < length := by
  cases tasks with
  | nil => exact absurd rfl hTasks
  | cons task rest =>
      rcases hCut with ⟨-, hLt, -, -, hRest⟩
      exact hLt.trans_le hRest.le

/- Every task starts in the state that the one before ends in. -/
def Chained (final : State) : State → List RepairTask → Prop
  | state, [] => state = final
  | state, task :: rest =>
      task.startState = state ∧
        Chained final task.targetState rest

/- An empty text is the empty path. -/
def readPath
    (names : List Text)
    (text : Text) : Except Exception (List Nat) :=
  if text = [] then .ok [] else parseSolutionPathText text names

/- The texts of a task split the path. -/
def Splits
    (names : List Text)
    (moves : List Nat)
    (task : RepairTask) : Prop :=
  ∃ before segment behind,
    readPath names task.prefixPath = .ok before ∧
      readPath names task.oldSegmentPath = .ok segment ∧
      readPath names task.suffixPath = .ok behind ∧
      before ++ segment ++ behind = moves

/-
  The windows of a solution cover it, in order and without a
  gap.
-/
structure Segmented
    (puzzle : Puzzle)
    (initial : State)
    (window : Nat)
    (moves : List Nat)
    (assembly : RepairSolutionAssembly) : Prop where
  length_eq : assembly.originalLength = moves.length
  cut : CutInto window moves.length 0 assembly.tasks
  chained :
    ∃ final,
      moves.foldlM (applyMoveFlatHost puzzle) initial =
          .ok final ∧
        Chained final initial assembly.tasks
  texts :
    ∀ task ∈ assembly.tasks, Splits puzzle.names moves task

/- Nonempty paths over the table are read back. -/
def RoundTrips (names : List Text) : Prop :=
  ∀ moves : List Nat,
    moves ≠ [] → (∀ move ∈ moves, move < names.length) →
      (movesToPathText names moves >>= fun pathText =>
          parseSolutionPathText pathText names) =
        .ok moves

----------------
-- Texts
----------------

section Segmentation

variable {puzzle : Puzzle}
variable {names : List Text}

theorem submitMoveName_ne_nil
    {name : Text}
    (hName : name ≠ []) :
    submitMoveName name ≠ [] := by
  unfold submitMoveName
  split_ifs
  · exact List.cons_ne_nil _ _
  · exact hName

theorem checkMoveNames_ne_nil
    {moveCount : Nat}
    (hNames : checkMoveNames moveCount names = .ok ()) :
    ∀ name ∈ names, name ≠ [] := by
  unfold checkMoveNames at hNames
  split_ifs at hNames with hLength hBad
  intro name hMem hNil
  apply hBad
  left
  rw [List.any_eq_true]
  exact ⟨name, hMem, decide_eq_true hNil⟩

/- A token that was parsed is the name of its move. -/
theorem parseMoveToken_spec
    {token : Text}
    {move : Nat}
    (hRun : parseMoveToken names token = .ok move) :
    move < names.length ∧
      ∃ name ∈ names, submitMoveName name = token := by
  unfold parseMoveToken at hRun
  cases hFind :
      (names.map submitMoveName).findIdx? (· = token) with
  | none => simp [hFind] at hRun
  | some found =>
      rw [hFind] at hRun
      injection hRun with hRun
      rcases List.findIdx?_eq_some_iff_getElem.mp hFind with
        ⟨hLt, hSame, -⟩
      rw [List.length_map] at hLt
      rw [List.getElem_map] at hSame
      refine ⟨?_, names[found], List.getElem_mem _,
        of_decide_eq_true hSame⟩
      have hLe := Nat.mod_le found 256
      omega

/- A parsed path has moves of the puzzle alone. -/
theorem parseSolutionPathText_range
    {text : Text}
    {moves : List Nat}
    (hRun : parseSolutionPathText text names = .ok moves) :
    moves ≠ [] ∧ ∀ move ∈ moves, move < names.length := by
  have hTokens := mapM_eq_ok hRun
  constructor
  · rintro rfl
    have hLength := hTokens.length_eq
    exact List.splitOn_ne_nil '.' text
      (List.length_eq_zero_iff.mp hLength)
  · intro move hMem
    rcases List.forall₂_iff_get.mp hTokens with ⟨hLength, hEach⟩
    rcases List.getElem_of_mem hMem with ⟨i, hLt, rfl⟩
    exact (parseMoveToken_spec
      (hEach i (by omega) hLt)).1

theorem parseSolutionPathText_nil
    (hNames : ∀ name ∈ names, name ≠ []) :
    ∀ moves, parseSolutionPathText [] names ≠ .ok moves := by
  intro moves hRun
  have hTokens := mapM_eq_ok hRun
  rw [List.splitOn_nil] at hTokens
  cases hTokens with
  | cons hFirst hRest =>
      rcases (parseMoveToken_spec hFirst).2 with
        ⟨name, hMem, hSame⟩
      exact submitMoveName_ne_nil (hNames name hMem) hSame

/- Any stretch of a path is written and read back. -/
theorem movesToPathText_readPath
    (hNames : ∀ name ∈ names, name ≠ [])
    (hTrips : RoundTrips names)
    {moves : List Nat}
    (hRange : ∀ move ∈ moves, move < names.length) :
    ∃ text,
      movesToPathText names moves = .ok text ∧
        readPath names text = .ok moves := by
  refine ⟨_, movesToPathText_eq hRange, ?_⟩
  unfold readPath
  by_cases hMoves : moves = []
  · subst hMoves
    rfl
  · have hTrip := hTrips moves hMoves hRange
    rw [movesToPathText_eq hRange, except_ok_bind] at hTrip
    split_ifs with hText
    · rw [hText] at hTrip
      exact absurd hTrip (parseSolutionPathText_nil hNames moves)
    · exact hTrip

----------------
-- States
----------------

/- The states are those after the first moves of the path. -/
theorem statesAlongSolution_spec
    {moves : List Nat}
    (hRange : ∀ move ∈ moves, move < puzzle.moveCount)
    (initial : State) :
    ∃ states,
      statesAlongSolution puzzle initial moves = .ok states ∧
        ∀ step ≤ moves.length,
          (moves.take step).foldlM (applyMoveFlatHost puzzle)
              initial =
            .ok (states.getD step fun _ => 0) := by
  induction moves generalizing initial with
  | nil =>
      refine ⟨[initial], rfl, ?_⟩
      intro step hStep
      have hZero : step = 0 := Nat.le_zero.mp hStep
      subst hZero
      rfl
  | cons move moves ih =>
      have hMove : move < puzzle.moveCount :=
        hRange move List.mem_cons_self
      let next : State :=
        clearStatePadding puzzle.layout
          (applyMove puzzle.layout initial
            (puzzle.generators move))
      have hNext :
          applyMoveFlatHost puzzle initial move = .ok next :=
        if_neg (Nat.not_le.mpr hMove)
      rcases ih (fun other hMem =>
          hRange other (List.mem_cons_of_mem _ hMem)) next with
        ⟨states, hStates, hReached⟩
      refine ⟨initial :: states, ?_, ?_⟩
      · unfold statesAlongSolution
        rw [hNext, except_ok_bind, hStates, except_ok_bind]
        rfl
      · intro step hStep
        cases step with
        | zero => rfl
        | succ step =>
            rw [List.take_succ_cons, List.foldlM_cons, hNext,
              except_ok_bind, List.getD_cons_succ]
            exact hReached step (Nat.le_of_succ_le_succ hStep)

----------------
-- The Loop Over Windows
----------------

variable {config : RepairConfig}
variable {source : RepairSource}

/-
  The step counters of a path are 32-bit words: neither the
  length nor a window start with the window added leaves them.
-/
def CountersFit (window length : Nat) : Prop :=
  length < 2 ^ 32 ∧
    ∀ step < length,
      window ∣ step → step + window < 2 ^ 32

/- A task ends a window later or at the end of the path. -/
theorem targetStep_eq
    {window length step : Nat}
    (hFits : CountersFit window length)
    (hStep : step < length)
    (hStart : window ∣ step) :
    targetStep window length step = min length (step + window) := by
  unfold targetStep
  rw [Nat.mod_eq_of_lt hFits.1,
    Nat.mod_eq_of_lt (hFits.2 step hStep hStart)]

/- A window ends at the next start or at the end of the path. -/
theorem targetStep_start
    {window length step : Nat}
    (hStart : window ∣ step) :
    min length (step + window) < length →
      window ∣ min length (step + window) := by
  intro hInside
  have hEnd : min length (step + window) = step + window := by
    omega
  rw [hEnd]
  exact Nat.dvd_add hStart (Nat.dvd_refl window)

/- The task of one window. -/
theorem repairTask_spec
    (hNames : ∀ name ∈ puzzle.names, name ≠ [])
    (hTrips : RoundTrips puzzle.names)
    (hRange : ∀ move ∈ source.moves, move < puzzle.names.length)
    (repairId : Nat)
    {step target : Nat}
    (hLe : step ≤ target) :
    ∃ task,
      repairTask puzzle config source repairId step target =
          .ok task ∧
        task.startStep = step ∧
        task.targetStep = target ∧
        (task.startState = source.states.getD step fun _ => 0) ∧
        (task.targetState =
          source.states.getD target fun _ => 0) ∧
        Splits puzzle.names source.moves task := by
  have hPart : ∀ part : List Nat,
      part.Sublist source.moves →
        ∀ move ∈ part, move < puzzle.names.length :=
    fun part hPart move hMem => hRange move (hPart.subset hMem)
  rcases movesToPathText_readPath hNames hTrips
      (hPart _ (List.take_sublist step _)) with
    ⟨before, hBefore, hReadBefore⟩
  rcases movesToPathText_readPath hNames hTrips
      (hPart _
        ((List.drop_sublist step _).trans
          (List.take_sublist target _))) with
    ⟨segment, hSegment, hReadSegment⟩
  rcases movesToPathText_readPath hNames hTrips
      (hPart _ (List.drop_sublist target _)) with
    ⟨behind, hBehind, hReadBehind⟩
  have hJoin :
      source.moves.take step ++
            (source.moves.take target).drop step ++
          source.moves.drop target =
        source.moves := by
    have hTake :
        source.moves.take step =
          (source.moves.take target).take step := by
      rw [List.take_take, Nat.min_eq_left hLe]
    rw [hTake, List.take_append_drop, List.take_append_drop]
  unfold repairTask
  rw [hBefore, except_ok_bind, hSegment, except_ok_bind,
    hBehind, except_ok_bind]
  exact ⟨_, rfl, rfl, rfl, rfl, rfl, _, _, _, hReadBefore,
    hReadSegment, hReadBehind, hJoin⟩

/- A path is cut into its windows. -/
theorem repairTasks_spec
    (hNames : ∀ name ∈ puzzle.names, name ≠ [])
    (hTrips : RoundTrips puzzle.names)
    (hRange : ∀ move ∈ source.moves, move < puzzle.names.length)
    (hWindow : 0 < config.window)
    (hFits : CountersFit config.window source.moves.length)
    {fuel repairId step : Nat}
    (hFuel : source.moves.length - step < fuel)
    (hStep : step ≤ source.moves.length)
    (hStart : step < source.moves.length → config.window ∣ step) :
    ∃ tasks,
      repairTasks puzzle config source fuel repairId step =
          .ok tasks ∧
        CutInto config.window source.moves.length step tasks ∧
        Chained
            (source.states.getD source.moves.length fun _ => 0)
            (source.states.getD step fun _ => 0) tasks ∧
        ∀ task ∈ tasks, Splits puzzle.names source.moves task := by
  induction fuel generalizing repairId step with
  | zero => exact absurd hFuel (Nat.not_lt_zero _)
  | succ fuel ih =>
      unfold repairTasks
      by_cases hOpen : step < source.moves.length
      · have hTarget := targetStep_eq hFits hOpen (hStart hOpen)
        rw [if_pos hOpen, hTarget]
        dsimp only
        rcases repairTask_spec hNames hTrips hRange repairId
            (show
              step ≤
                min source.moves.length
                  (step + config.window) by omega) with
          ⟨task, hTask, hFrom, hTo, hBegin, hEnd, hSplits⟩
        rcases @ih (repairId + 1)
            (min source.moves.length (step + config.window))
            (by omega) (Nat.min_le_left _ _)
            (targetStep_start (hStart hOpen)) with
          ⟨rest, hRest, hCut, hChained, hAll⟩
        refine ⟨task :: rest, ?_, ?_, ?_, ?_⟩
        · rw [hTask, except_ok_bind, hRest, except_ok_bind]
          rfl
        · rw [← hTo] at hCut
          refine ⟨hFrom, by omega, by omega, ?_, hCut⟩
          intro hMore
          have hLt := hCut.lt_of_ne_nil hMore
          omega
        · refine ⟨hBegin, ?_⟩
          rw [hEnd]
          exact hChained
        · intro other hMem
          rcases List.mem_cons.mp hMem with rfl | hMem
          · exact hSplits
          · exact hAll other hMem
      · have hEnd : step = source.moves.length := by omega
        rw [if_neg hOpen]
        subst hEnd
        exact ⟨[], rfl, rfl, rfl, fun _ hMem =>
          absurd hMem List.not_mem_nil⟩

----------------
-- The Loop Over Rows
----------------

variable {initialStates : Nat → Option State}

/-
  An empty path is skipped; any other one must replay, within
  the step counters.
-/
def AcceptedRow
    (puzzle : Puzzle)
    (initialStates : Nat → Option State)
    (window : Nat)
    (row : SolutionRow) : Prop :=
  trimAscii row.2 = [] ∨
    ∃ initial moves,
      initialStates row.1 = some initial ∧
        parseSolutionPathText (trimAscii row.2) puzzle.names =
            .ok moves ∧
          CountersFit window moves.length

/- The assembly of a row. -/
def AssemblyOf
    (puzzle : Puzzle)
    (initialStates : Nat → Option State)
    (window : Nat)
    (row : SolutionRow)
    (assembly : RepairSolutionAssembly) : Prop :=
  assembly.puzzleId = row.1 ∧
    assembly.originalPath = trimAscii row.2 ∧
    ∃ initial moves,
      initialStates row.1 = some initial ∧
        parseSolutionPathText assembly.originalPath
            puzzle.names =
            .ok moves ∧
          Segmented puzzle initial window moves assembly

/- Rows with a path, behind the skipped ones and up to the limit. -/
def chosenRows
    (firstRow maxRows : Nat)
    (rows : List SolutionRow) : List SolutionRow :=
  let paths :=
    (rows.drop firstRow).filter fun row =>
      decide (trimAscii row.2 ≠ [])
  if maxRows = 0 then paths else paths.take maxRows

/- A row is assembled into its tasks. -/
theorem assemble_spec
    (hNames :
      checkMoveNames puzzle.moveCount puzzle.names = .ok ())
    (hTrips : RoundTrips puzzle.names)
    (hWindow : 0 < config.window)
    (initial : State)
    {row : SolutionRow}
    {moves : List Nat}
    (hInitial : initialStates row.1 = some initial)
    (hParse :
      parseSolutionPathText (trimAscii row.2) puzzle.names =
        .ok moves)
    (hFits : CountersFit config.window moves.length)
    (progress : RepairProgress) :
    ∃ after assembly,
      assemble puzzle config initial row.1 (trimAscii row.2)
            moves progress =
          .ok after ∧
        after.seenSolutionRows = progress.seenSolutionRows ∧
        after.out = progress.out ++ [assembly] ∧
        AssemblyOf puzzle initialStates config.window row
          assembly := by
  have hLength := checkMoveNames_length hNames
  have hRange := (parseSolutionPathText_range hParse).2
  have hMoves : ∀ move ∈ moves, move < puzzle.moveCount := by
    rw [← hLength]
    exact hRange
  rcases statesAlongSolution_spec hMoves initial with
    ⟨states, hStates, hReached⟩
  let source : RepairSource :=
    { solutionJobId := progress.solutionJobId + 1
      puzzleId := row.1
      originalPath := trimAscii row.2
      moves := moves
      states := states }
  rcases @repairTasks_spec puzzle config source
      (checkMoveNames_ne_nil hNames) hTrips hRange hWindow hFits
      (moves.length + 1) (progress.repairId + 1) 0
      (Nat.lt_succ_self _) (Nat.zero_le _)
      (fun _ => Nat.dvd_zero _) with
    ⟨tasks, hTasks, hCut, hChained, hTexts⟩
  have hStart := hReached 0 (Nat.zero_le _)
  have hEnd := hReached moves.length le_rfl
  rw [List.take_zero, List.foldlM_nil] at hStart
  rw [List.take_length] at hEnd
  injection hStart with hStart
  unfold assemble
  rw [hStates, except_ok_bind]
  dsimp only
  rw [hTasks, except_ok_bind]
  refine ⟨_, _, rfl, rfl, rfl, rfl, rfl, initial, moves,
    hInitial, hParse, ?_⟩
  exact
    { length_eq := Nat.mod_eq_of_lt hFits.1
      cut := hCut
      chained := ⟨_, hEnd, by rw [hStart]; exact hChained⟩
      texts := hTexts }

/- What is left to choose once some assemblies are made. -/
def remainingRows
    (config : RepairConfig)
    (progress : RepairProgress)
    (rows : List SolutionRow) : List SolutionRow :=
  let paths :=
    (rows.drop
        (config.firstSolutionIndex -
          progress.seenSolutionRows)).filter fun row =>
      decide (trimAscii row.2 ≠ [])
  if config.maxSolutions = 0 then paths
  else paths.take (config.maxSolutions - progress.out.length)

/- A row before the first index is not chosen. -/
theorem remainingRows_skip
    {progress : RepairProgress}
    (hSkip : progress.seenSolutionRows < config.firstSolutionIndex)
    (row : SolutionRow)
    (rows : List SolutionRow) :
    remainingRows config progress (row :: rows) =
      remainingRows config
        { progress with
          seenSolutionRows := progress.seenSolutionRows + 1 }
        rows := by
  have hSucc :
      config.firstSolutionIndex - progress.seenSolutionRows =
        config.firstSolutionIndex -
            (progress.seenSolutionRows + 1) + 1 := by
    omega
  unfold remainingRows
  dsimp only
  rw [hSucc, List.drop_succ_cons]

/- Behind it every row with a path is left to choose. -/
theorem remainingRows_of_seen
    {progress : RepairProgress}
    (hSeen : config.firstSolutionIndex ≤ progress.seenSolutionRows)
    (rows : List SolutionRow) :
    remainingRows config progress rows =
      let paths :=
        rows.filter fun row => decide (trimAscii row.2 ≠ [])
      if config.maxSolutions = 0 then paths
      else
        paths.take (config.maxSolutions - progress.out.length) := by
  unfold remainingRows
  rw [Nat.sub_eq_zero_of_le hSeen, List.drop_zero]

/- With all the solutions wanted nothing is left to choose. -/
theorem remainingRows_full
    {progress : RepairProgress}
    (hMax : config.maxSolutions ≠ 0)
    (hFull : config.maxSolutions ≤ progress.out.length)
    (rows : List SolutionRow) :
    remainingRows config progress rows = [] := by
  unfold remainingRows
  rw [if_neg hMax, Nat.sub_eq_zero_of_le hFull, List.take_zero]

/- A row without a path is not chosen. -/
theorem remainingRows_blank
    {progress : RepairProgress}
    (hSeen : config.firstSolutionIndex ≤ progress.seenSolutionRows)
    {row : SolutionRow}
    (hBlank : trimAscii row.2 = [])
    (rows : List SolutionRow) :
    remainingRows config progress (row :: rows) =
      remainingRows config
        { progress with
          seenSolutionRows := progress.seenSolutionRows + 1 }
        rows := by
  rw [remainingRows_of_seen hSeen,
    remainingRows_of_seen (Nat.le_succ_of_le hSeen),
    List.filter_cons_of_neg (by simpa using hBlank)]

/- A row with a path is chosen while there is room for it. -/
theorem remainingRows_cons
    {progress after : RepairProgress}
    (hSeen : config.firstSolutionIndex ≤ progress.seenSolutionRows)
    (hRoom :
      ¬ (config.maxSolutions ≠ 0 ∧
        progress.out.length ≥ config.maxSolutions))
    {row : SolutionRow}
    (hPath : trimAscii row.2 ≠ [])
    (hAfter :
      progress.seenSolutionRows ≤ after.seenSolutionRows)
    (hOut : after.out.length = progress.out.length + 1)
    (rows : List SolutionRow) :
    remainingRows config progress (row :: rows) =
      row :: remainingRows config after rows := by
  rw [remainingRows_of_seen hSeen,
    remainingRows_of_seen (hSeen.trans hAfter),
    List.filter_cons_of_pos (by simpa using hPath)]
  dsimp only
  split_ifs with hMax
  · rfl
  · have hLeft :
        config.maxSolutions - progress.out.length =
          config.maxSolutions - after.out.length + 1 := by
      omega
    rw [hLeft, List.take_succ_cons]

/- The tasks of all rows chosen, row by row. -/
theorem buildFromRows_spec
    (hNames :
      checkMoveNames puzzle.moveCount puzzle.names = .ok ())
    (hTrips : RoundTrips puzzle.names)
    (hWindow : 0 < config.window)
    {rows : List SolutionRow}
    (hAccepted :
      ∀ row ∈ rows,
        AcceptedRow puzzle initialStates config.window row)
    (progress : RepairProgress) :
    ∃ made,
      buildFromRows puzzle initialStates config rows progress =
          .ok (progress.out ++ made) ∧
        List.Forall₂
          (AssemblyOf puzzle initialStates config.window)
          (remainingRows config progress rows) made := by
  induction rows generalizing progress with
  | nil =>
      refine ⟨[], ?_, ?_⟩
      · rw [List.append_nil]
        rfl
      · have hNone :
            remainingRows config progress [] = [] := by
          unfold remainingRows
          simp
        rw [hNone]
        exact List.Forall₂.nil
  | cons row rows ih =>
      have hRest : ∀ other ∈ rows,
          AcceptedRow puzzle initialStates config.window
            other :=
        fun other hMem =>
          hAccepted other (List.mem_cons_of_mem _ hMem)
      unfold buildFromRows
      dsimp only
      by_cases hSkip :
          progress.seenSolutionRows < config.firstSolutionIndex
      · rw [if_pos hSkip]
        rcases ih hRest
            { progress with
              seenSolutionRows :=
                progress.seenSolutionRows + 1 } with
          ⟨made, hMade, hEach⟩
        refine ⟨made, hMade, ?_⟩
        rw [remainingRows_skip hSkip]
        exact hEach
      rw [if_neg hSkip]
      have hSeen := Nat.le_of_not_lt hSkip
      by_cases hFull :
          config.maxSolutions ≠ 0 ∧
            progress.out.length ≥ config.maxSolutions
      · rw [if_pos hFull]
        refine ⟨[], by rw [List.append_nil], ?_⟩
        rw [remainingRows_full hFull.1 hFull.2]
        exact List.Forall₂.nil
      rw [if_neg hFull]
      by_cases hPath : trimAscii row.2 = []
      · rw [if_pos hPath]
        rcases ih hRest
            { progress with
              seenSolutionRows :=
                progress.seenSolutionRows + 1 } with
          ⟨made, hMade, hEach⟩
        refine ⟨made, hMade, ?_⟩
        rw [remainingRows_blank hSeen hPath]
        exact hEach
      rw [if_neg hPath]
      rcases hAccepted row List.mem_cons_self with
        hNil | ⟨initial, moves, hInitial, hParse, hFits⟩
      · exact absurd hNil hPath
      rw [hInitial]
      dsimp only
      rw [hParse, except_ok_bind,
        if_neg (parseSolutionPathText_range hParse).1]
      rcases @assemble_spec puzzle config initialStates hNames
          hTrips hWindow initial row moves hInitial hParse hFits
          { progress with
            seenSolutionRows :=
              progress.seenSolutionRows + 1 } with
        ⟨after, assembly, hAssemble, hAfter, hOut, hOf⟩
      rw [hAssemble, except_ok_bind]
      rcases ih hRest after with ⟨made, hMade, hEach⟩
      have hOne : after.out.length = progress.out.length + 1 := by
        rw [hOut, List.length_append, List.length_singleton]
      have hLater :
          progress.seenSolutionRows ≤ after.seenSolutionRows := by
        rw [hAfter]
        exact Nat.le_succ _
      refine ⟨assembly :: made, ?_, ?_⟩
      · rw [hMade, hOut, List.append_assoc]
        rfl
      · rw [remainingRows_cons hSeen hFull hPath hLater hOne]
        exact List.Forall₂.cons hOf hEach

/- Descending puzzle ids, with the order of the file among equals. -/
structure StableDescending
    (rows ordered : List SolutionRow) : Prop where
  perm : ordered.Perm rows
  descending : ordered.Pairwise fun a b => b.1 ≤ a.1
  stable :
    ∀ puzzleId,
      (ordered.filter fun row => row.1 = puzzleId) =
        rows.filter fun row => row.1 = puzzleId

/- The sort is stable and descending by puzzle. -/
theorem descendingRows_spec (rows : List SolutionRow) :
    StableDescending rows (descendingRows rows) := by
  have hTrans : ∀ a b c : SolutionRow,
      decide (b.1 ≤ a.1) = true → decide (c.1 ≤ b.1) = true →
        decide (c.1 ≤ a.1) = true := by
    intro a b c hFirst hSecond
    rw [decide_eq_true_eq] at hFirst hSecond ⊢
    exact hSecond.trans hFirst
  have hTotal : ∀ a b : SolutionRow,
      (decide (b.1 ≤ a.1) || decide (a.1 ≤ b.1)) = true := by
    intro a b
    rw [Bool.or_eq_true, decide_eq_true_eq, decide_eq_true_eq]
    exact Nat.le_total _ _
  refine
    { perm := List.mergeSort_perm rows _
      descending := ?_
      stable := ?_ }
  · refine (List.pairwise_mergeSort hTrans hTotal rows).imp ?_
    intro a b hLe
    exact of_decide_eq_true hLe
  · intro puzzleId
    let same : SolutionRow → Bool :=
      fun row => decide (row.1 = puzzleId)
    have hEqual :
        (rows.filter same).Pairwise fun a b =>
          decide (b.1 ≤ a.1) = true := by
      refine List.pairwise_of_forall_mem_list ?_
      intro a hA b hB
      have hFirst := of_decide_eq_true (List.mem_filter.mp hA).2
      have hSecond := of_decide_eq_true (List.mem_filter.mp hB).2
      rw [hFirst, hSecond]
      exact decide_eq_true le_rfl
    have hSub :
        (rows.filter same).Sublist (descendingRows rows) :=
      List.sublist_mergeSort hTrans hTotal hEqual
        List.filter_sublist
    have hAgain := hSub.filter same
    rw [List.filter_filter] at hAgain
    simp only [Bool.and_self] at hAgain
    have hLength :=
      ((List.mergeSort_perm rows
        fun a b => decide (b.1 ≤ a.1)).filter same).length_eq
    exact (hAgain.eq_of_length hLength.symm).symm

/-
  If all rows are accepted, there is one assembly for each chosen
  row, cut into windows that cover its path.
-/
theorem buildRepairSolutions_segmented
    {fileText : Text}
    {rows : List SolutionRow}
    (hRows : readSolutionRows fileText = .ok rows)
    (hWindow : 0 < config.k1Radius + config.searchDepth)
    (hWord : config.k1Radius + config.searchDepth < 2 ^ 32)
    (hNames :
      checkMoveNames puzzle.moveCount puzzle.names = .ok ())
    (hTrips : RoundTrips puzzle.names)
    (hAccepted :
      ∀ row ∈ rows,
        AcceptedRow puzzle initialStates
          (config.k1Radius + config.searchDepth) row) :
    ∃ made ordered,
      buildRepairSolutions puzzle initialStates config
            fileText =
          .ok made ∧
        StableDescending rows ordered ∧
        List.Forall₂
          (AssemblyOf puzzle initialStates
            (config.k1Radius + config.searchDepth))
          (chosenRows config.firstSolutionIndex
            config.maxSolutions ordered)
          made := by
  have hEq :
      config.window = config.k1Radius + config.searchDepth :=
    Nat.mod_eq_of_lt hWord
  have hOrdered := descendingRows_spec rows
  rw [← hEq] at hAccepted hWindow ⊢
  rcases @buildFromRows_spec puzzle config initialStates hNames
      hTrips hWindow (descendingRows rows)
      (fun row hMem =>
        hAccepted row (hOrdered.perm.mem_iff.mp hMem))
      { seenSolutionRows := 0
        solutionJobId := 9200000
        repairId := 9100000
        out := [] } with
    ⟨made, hMade, hEach⟩
  refine ⟨made, descendingRows rows, ?_, hOrdered, hEach⟩
  unfold buildRepairSolutions
  rw [if_neg (Nat.pos_iff_ne_zero.mp hWindow), hRows,
    except_ok_bind, hMade]
  rfl

end Segmentation

----------------
-- A Solution Of Three Moves
----------------

/- Two places and two moves that swap them. -/
def turnPuzzle : Puzzle :=
  { layout :=
      { stateLen := 2
        storageLen := 6
        room := le_rfl }
    moveCount := 2
    generators := fun _ p =>
      if p = 0 then 1 else if p = 1 then 0 else p
    initial := fun _ => 0
    target := fun _ => 0
    names := quarterTurns }

/- Windows of two moves. -/
def turnConfig : RepairConfig :=
  { k1Radius := 1
    searchDepth := 1
    firstSolutionIndex := 0
    maxSolutions := 0 }

/- The start of one puzzle. -/
def turnStates (puzzleId : Nat) : Option State :=
  if puzzleId = 7 then some fun p => if p = 0 then 1 else 0
  else none

/- A file with one solution. -/
def turnFile : Text :=
  "id,path\n7,r.-r.r\n".toList

/- Its row. -/
def turnRow : SolutionRow :=
  (7, ['r', '.', '-', 'r', '.', 'r'])

theorem turnFile_rows :
    readSolutionRows turnFile = .ok [turnRow] := by
  decide

theorem quarterTurns_roundTrips : RoundTrips quarterTurns := by
  intro moves hMoves hRange
  rw [movesToPathText_eq hRange, except_ok_bind]
  refine (parseSolutionPathText_join_iff (by decide) hMoves
    hRange).mpr ?_
  intro move hMem
  exact quarterTurns_apart (hRange move hMem)

theorem turnRow_accepted :
    ∀ row ∈ [turnRow], AcceptedRow turnPuzzle turnStates 2 row := by
  intro row hMem
  rw [List.mem_singleton] at hMem
  subst hMem
  refine .inr ⟨_, [0, 1, 0], rfl, by decide, by decide, ?_⟩
  intro step hStep _
  rw [List.length_cons, List.length_cons,
    List.length_singleton] at hStep
  omega

theorem buildRepairSolutions_segmented_turns :
    ∃ made ordered,
      buildRepairSolutions turnPuzzle turnStates turnConfig
            turnFile =
          .ok made ∧
        StableDescending [turnRow] ordered ∧
        List.Forall₂ (AssemblyOf turnPuzzle turnStates 2)
          (chosenRows 0 0 ordered) made :=
  buildRepairSolutions_segmented turnFile_rows (by decide)
    (by decide) (by decide) quarterTurns_roundTrips
    turnRow_accepted

/- The loop makes no progress once a window is empty. -/
theorem repairTasks_endless
    {puzzle : Puzzle}
    {config : RepairConfig}
    {source : RepairSource}
    (hNames : ∀ name ∈ puzzle.names, name ≠ [])
    (hTrips : RoundTrips puzzle.names)
    (hRange : ∀ move ∈ source.moves, move < puzzle.names.length)
    {step : Nat}
    (hStep : step < source.moves.length)
    (hStuck :
      targetStep config.window source.moves.length step = step)
    (fuel repairId : Nat) :
    repairTasks puzzle config source fuel repairId step =
      .error (.runtimeError "endless repair segmentation") := by
  induction fuel generalizing repairId with
  | zero => rfl
  | succ fuel ih =>
      rcases @repairTask_spec puzzle config source hNames hTrips
          hRange repairId step step le_rfl with
        ⟨task, hTask, -⟩
      unfold repairTasks
      rw [if_pos hStep, hStuck]
      dsimp only
      rw [hTask, except_ok_bind, ih]
      rfl

/- The texts in front of all windows, as the reader sees them. -/
def parsePrefixes
    (names : List Text)
    (made : List RepairSolutionAssembly) :
    Except Exception (List (List Nat)) :=
  (made.flatMap RepairSolutionAssembly.tasks).mapM fun task =>
    parseSolutionPathText task.prefixPath names

/-
  The text in front of the first window is empty, and the reader
  rejects the empty text. For 2 ^ 32 moves the first window is
  empty, and the loop over windows does not end.
-/
theorem buildRepairSolutions_firstPrefix :
    (buildRepairSolutions turnPuzzle turnStates turnConfig
          turnFile >>=
        parsePrefixes turnPuzzle.names) =
        .error
          (.runtimeError
            "tracked solution path contains unknown move token: ") ∧
      ∀ states fuel repairId,
        repairTasks turnPuzzle turnConfig
            { solutionJobId := 9200001
              puzzleId := 7
              originalPath := []
              moves := List.replicate (2 ^ 32) 0
              states := states }
            fuel repairId 0 =
          .error (.runtimeError "endless repair segmentation") := by
  constructor
  · have hOrder : descendingRows [turnRow] = [turnRow] :=
      List.mergeSort_singleton _
    unfold buildRepairSolutions
    rw [turnFile_rows, except_ok_bind, hOrder]
    decide
  · intro states fuel repairId
    have hNames : ∀ name ∈ turnPuzzle.names, name ≠ [] := by
      decide
    apply repairTasks_endless hNames quarterTurns_roundTrips
    · intro move hMem
      rw [List.eq_of_mem_replicate hMem]
      decide
    · rw [List.length_replicate]
      decide
    · rw [List.length_replicate]
      decide

end Solve

end BeamSearch

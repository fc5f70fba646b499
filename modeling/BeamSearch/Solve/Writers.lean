import BeamSearch.Lib.Print
import BeamSearch.Lib.Record
import BeamSearch.Solve.Reports

/-
  The lines a run prints about its outcome.

  A bucket's rows are printed by rank zero as they are accepted,
  then the reason it stopped, a summary and the best path. A
  single solution is printed by rank zero. A rank that knows of
  no solution says so itself.

  Main declarations:
    * `solutionLine`, `stopLines`, `summaryLine`
    * `solvedLine`, `unsolvedLine`
    * `TaskEnd`, `rankLines`
-/

namespace BeamSearch

open Text

namespace Solve

----------------
-- Names
----------------

/- The names of a puzzle without names of its own. -/
def syntheticName (move : Nat) : Text :=
  'm' :: decimal move

/- The names of moves that have none. -/
def syntheticNames (moveCount : Nat) : List Text :=
  (List.range moveCount).map syntheticName

----------------
-- Lines
----------------

/- A line of fields, in the order of the source. -/
def record (row : List (String × Text)) : Text :=
  spaced (row.map fun field => pair field.1.toList field.2)

/- What the lines of a task have in common. -/
structure TaskLabels where
  puzzleId : UInt32
  knownLength : UInt32
  stopDepth : UInt32
  extraDepths : UInt32
  resultPath : Text

/- The fields of a row's line. -/
def solutionFields
    (labels : TaskLabels)
    (row : SolveRow) : List (String × Text) :=
  [("solve_bucket_solution", ['1']),
    ("puzzle_id", decimal labels.puzzleId.toNat),
    ("depth_index", decimal row.depthIndex),
    ("found_depth", decimal row.foundDepth.toNat),
    ("solution_length", decimal row.totalDepth.toNat),
    ("owner_rank", decimal row.ownerRank.toNat),
    ("solution", row.path)]

/- The line of a row. -/
def solutionLine (labels : TaskLabels) (row : SolveRow) : Text :=
  record (solutionFields labels row)

/- How the loop over the depths of a bucket ended. -/
structure BucketStop where
  reason : UInt32
  depthIndex : Nat
  depthSeconds : Double

/- The reason of a stop by capacity. -/
def capacityReached : UInt32 :=
  2

/- The line of the status, where there is one. -/
def statusLines
    (labels : TaskLabels)
    (stop : BucketStop) : List Text :=
  if stop.reason = capacityReached then
    [record [("collection_status", "capacity_reached".toList)]]
  else if labels.stopDepth ≠ 0 then
    [record [("collection_status", "depth_reached".toList)]]
  else []

/- The fields of a stop's line. -/
def stopFields
    (labels : TaskLabels)
    (scan : RankScan)
    (stop : BucketStop) : List (String × Text) :=
  [("solve_bucket_stop", ['1']),
    ("puzzle_id", decimal labels.puzzleId.toNat),
    ("depth_index", decimal stop.depthIndex),
    ("first_found_depth_index", decimal scan.firstFoundDepth),
    ("extra_depths", decimal labels.extraDepths.toNat),
    ("records", decimal scan.synchronized),
    ("depth_sec", printDouble stop.depthSeconds)]

/- The line of a stop. -/
def stopLine
    (labels : TaskLabels)
    (scan : RankScan)
    (stop : BucketStop) : Text :=
  record (stopFields labels scan stop)

/- The loop may also run out of depths. -/
def stopLines
    (labels : TaskLabels)
    (scan : RankScan) : Option BucketStop → List Text
  | none => []
  | some stop =>
      statusLines labels stop ++ [stopLine labels scan stop]

/- The length of the best path, -1 without one. -/
def bestLength : Option UInt32 → Text
  | none => "-1".toList
  | some length => decimal length.toNat

/- The fields of the summary. -/
def summaryFields
    (labels : TaskLabels)
    (controller : Controller) : List (String × Text) :=
  [("solve_bucket_summary", ['1']),
    ("puzzle_id", decimal labels.puzzleId.toNat),
    ("records", decimal controller.recordCount),
    ("best_length", bestLength controller.solutionLength),
    ("known_length", decimal labels.knownLength.toNat)]

/- The path at the end is printed as it is. -/
def summaryLine
    (labels : TaskLabels)
    (controller : Controller) : Text :=
  record (summaryFields labels controller) ++
    ' ' :: pair "result_tsv".toList labels.resultPath

/- The lengths that were counted, in increasing order. -/
def countedLengths (controller : Controller) : List UInt32 :=
  (controller.rows.map SolveRow.totalDepth).dedup.insertionSort
    (· ≤ ·)

/- The fields of one length. -/
def lengthFields
    (labels : TaskLabels)
    (controller : Controller)
    (length : UInt32) : List (String × Text) :=
  [("puzzle_id", decimal labels.puzzleId.toNat),
    ("length", decimal length.toNat),
    ("count", decimal (controller.countsByLength length))]

/- Its line, behind a word of its own. -/
def lengthLine
    (labels : TaskLabels)
    (controller : Controller)
    (length : UInt32) : Text :=
  "solve_bucket_length_count".toList ++
    ' ' :: record (lengthFields labels controller length)

/- The fields of the best solution. -/
def bestFields
    (labels : TaskLabels)
    (seconds : Double)
    (length : UInt32)
    (path : Text) : List (String × Text) :=
  [("puzzle_solved", ['1']),
    ("puzzle_id", decimal labels.puzzleId.toNat),
    ("seconds", printDouble seconds),
    ("solution_length", decimal length.toNat),
    ("solution", path)]

/- Its line. -/
def bestLine
    (labels : TaskLabels)
    (seconds : Double)
    (length : UInt32)
    (path : Text) : Text :=
  record (bestFields labels seconds length path)

/- Nothing is told where nothing was found. -/
def bestLines
    (labels : TaskLabels)
    (seconds : Double)
    (controller : Controller) : List Text :=
  match controller.solutionLength with
  | none => []
  | some length =>
      [bestLine labels seconds length controller.solutionPath]

/- A single solution with its printed path. -/
structure SingleSolution (names : List Text) where
  moves : List Nat
  foundDepth : UInt32
  path : Text
  named : movesToPathText names moves = .ok path

/- The moves behind the depth at which the hit was found. -/
def touchDepth
    {names : List Text}
    (solution : SingleSolution names) : UInt64 :=
  UInt64.ofNat solution.moves.length -
    solution.foundDepth.toUInt64

/- The fields of a search that ends with its first hit. -/
def solvedFields
    {names : List Text}
    (labels : TaskLabels)
    (seconds : Double)
    (solution : SingleSolution names) : List (String × Text) :=
  [("puzzle_solved", ['1']),
    ("puzzle_id", decimal labels.puzzleId.toNat),
    ("seconds", printDouble seconds),
    ("solution_length", decimal solution.moves.length),
    ("found_depth", decimal solution.foundDepth.toNat),
    ("touch_depth", decimal (touchDepth solution).toNat),
    ("solution", solution.path)]

/- Its line. -/
def solvedLine
    {names : List Text}
    (labels : TaskLabels)
    (seconds : Double)
    (solution : SingleSolution names) : Text :=
  record (solvedFields labels seconds solution)

/- The fields of a search without a hit. -/
def unsolvedFields
    (labels : TaskLabels)
    (seconds : Double) : List (String × Text) :=
  [("puzzle_solved", ['0']),
    ("puzzle_id", decimal labels.puzzleId.toNat),
    ("seconds", printDouble seconds),
    ("solution_length", "-1".toList),
    ("solution", [])]

/- Its line. -/
def unsolvedLine (labels : TaskLabels) (seconds : Double) : Text :=
  record (unsolvedFields labels seconds)

----------------
-- Ranks
----------------

/- How a task ends, in its two modes. -/
inductive TaskEnd (config : BucketConfig) where
  | bucket
      (world : World)
      (reached : Reached config world)
      (stop : Option BucketStop)
  | single
      (solution : Option (SingleSolution config.puzzle.names))

namespace TaskEnd

variable {config : BucketConfig}

/- The rows that were accepted. -/
def rows : TaskEnd config → List SolveRow
  | .bucket world _ _ => world.controller.rows
  | .single _ => []

/- The path that is printed as the answer. -/
def printedPath : TaskEnd config → Option Text
  | .bucket world _ _ =>
      world.controller.solutionLength.map fun _ =>
        world.controller.solutionPath
  | .single solution => solution.map SingleSolution.path

/- The task collected its solutions. -/
def isBucket : TaskEnd config → Bool
  | .bucket _ _ _ => true
  | .single _ => false

end TaskEnd

/- What rank zero prints at the end of a bucket. -/
def bucketLines
    (labels : TaskLabels)
    (seconds : Double)
    (world : World)
    (stop : Option BucketStop) : List Text :=
  let controller := world.controller
  controller.rows.map (solutionLine labels) ++
    stopLines labels (world.ranks 0) stop ++
    [summaryLine labels controller] ++
    (countedLengths controller).map
      (lengthLine labels controller) ++
    bestLines labels seconds controller

/- All lines of one rank, in its order. -/
def rankLines
    {config : BucketConfig}
    (labels : TaskLabels)
    (seconds : Nat → Double)
    (ending : TaskEnd config)
    (rank : Nat) : List Text :=
  match ending with
  | .bucket world _ stop =>
      (if rank = 0 then
        bucketLines labels (seconds rank) world stop
      else []) ++
        if (world.ranks rank).foundAny then []
        else [unsolvedLine labels (seconds rank)]
  | .single (some solution) =>
      if rank = 0 then
        [solvedLine labels (seconds rank) solution]
      else []
  | .single none => [unsolvedLine labels (seconds rank)]

/-
  The lines of all ranks together. Every rank keeps its own
  order, and a line without an equals sign may stand anywhere.
-/
structure MergedLog
    (worldSize : Nat)
    (lines : Nat → List Text)
    (log : List (Nat × Text)) : Prop where
  ranks : ∀ entry ∈ log, entry.1 < worldSize
  order :
    ∀ rank < worldSize,
      (log.filter fun entry =>
            entry.1 == rank && entry.2.contains '=').map
          Prod.snd =
        lines rank

end Solve

end BeamSearch

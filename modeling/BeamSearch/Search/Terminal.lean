import BeamSearch.Core.Graph
import BeamSearch.Lib.Json
import Mathlib.Data.List.Lex

/-
  The parser of the native log.

  It reads the log line by line, whatever rank a line is from.
  A record is a row of fields `key=value`; a path in a record
  is replayed before it is believed.

  Main declarations:
    * `TerminalParser`
    * `fields`, `solution`
    * `line`, `finish`
-/

namespace BeamSearch

open Text

namespace Search

/- A result, or the contract that is broken. -/
abbrev Result (α : Type) : Type :=
  Except ContractError α

----------------
-- Records
----------------

/- A row of fields, in their order. -/
abbrev Row : Type :=
  List (Text × Text)

/-
  A token without an equal sign, or with a key that is there,
  is refused.
-/
def fieldsFrom : Row → List Text → Result Row
  | row, [] => .ok row
  | row, token :: tokens =>
      match splitOnce '=' token with
      | none =>
          .error (.invalid "malformed native terminal record")
      | some (key, value) =>
          if (row.lookup key).isSome then
            .error (.invalid "duplicate terminal field")
          else
            fieldsFrom (row ++ [(key, value)]) tokens

/- The fields of a text. -/
def fields (text : Text) : Result Row :=
  fieldsFrom [] (splitWhitespace text)

/- The value of a key. -/
def value (row : Row) (key : String) : Result Text :=
  match row.lookup key.toList with
  | none => .error (.invalid "missing native terminal field")
  | some text => .ok text

/- A field read by a parser of its type. -/
def parsed
    {α : Type}
    (parse : Text → Option α)
    (row : Row)
    (key : String) : Result α := do
  let text ← value row key
  match parse text with
  | none => .error (.invalid "native terminal number")
  | some number => .ok number

/- A field that is a 32-bit number. -/
def numberU32 : Row → String → Result Nat :=
  parsed (parseUnsigned 32)

/- A field that is a 64-bit number. -/
def numberU64 : Row → String → Result Nat :=
  parsed (parseUnsigned 64)

/- A field that is a double. -/
def numberF64 : Row → String → Result Double :=
  parsed parseDouble

----------------
-- Parser State
----------------

/- The batch sizes a rank reports. -/
inductive BatchKey where
  | bMicro
  | stream1RowsPerJob
  | stream3BatchCandidates
deriving DecidableEq, Repr

namespace BatchKey

/- The name of a key in the log. -/
def text : BatchKey → Text
  | bMicro => "B_MICRO".toList
  | stream1RowsPerJob => "STREAM1_ROWS_PER_JOB".toList
  | stream3BatchCandidates => "STREAM3_BATCH_CANDIDATES".toList

/- Its name in the result. -/
def name : BatchKey → String
  | bMicro => "observed_parent_batch"
  | stream1RowsPerJob => "observed_inference_rows"
  | stream3BatchCandidates =>
      "observed_stream3_batch_candidates"

/- All keys, in the order of the result. -/
def all : List BatchKey :=
  [bMicro, stream1RowsPerJob, stream3BatchCandidates]

/- The key of a name, if it is one. -/
def ofText (text : Text) : Option BatchKey :=
  all.find? fun key => key.text = text

end BatchKey

/- A collected row, as it is told. -/
structure Collected where
  path : List Nat
  solvedDepth : Nat
  touchDepth : Nat
  ownerRank : Nat
deriving DecidableEq, Repr

/- What the parser has read so far. -/
structure TerminalParser where
  graph : PermutationGraph
  start : List UInt8
  maxSteps : Option Nat
  path : Option (Option (List Nat))
  seconds : Double
  records : Nat
  effective : List Nat
  batches : BatchKey → List Nat
  collected : List Collected
  counts : List Nat
  status : Option Text

/- What a log tells in the end. -/
structure TerminalResult where
  path : Option (List Nat)
  effectiveBeamWidth : Option Nat
  metadata : Json.Fields

/- A set of numbers as its ascending list. -/
def insertNumber (n : Nat) : List Nat → List Nat
  | [] => [n]
  | m :: numbers =>
      if n < m then n :: m :: numbers
      else if n = m then m :: numbers
      else m :: insertNumber n numbers

namespace TerminalParser

/- The parser starts with a start it has checked. -/
def new
    (graph : PermutationGraph)
    (start : List UInt8)
    (maxSteps : Option Nat) : Result TerminalParser := do
  graph.validateStart start
  .ok
    { graph := graph
      start := start
      maxSteps := maxSteps
      path := none
      seconds := .finite false 0
      records := 0
      effective := []
      batches := fun _ => []
      collected := []
      counts := []
      status := none }

----------------
-- Paths
----------------

/- A synthetic move name is an `m` and digits. -/
def moveId (token : Text) : Result Nat :=
  match stripPrefix ['m'] token with
  | none => .error (.invalid "synthetic move name")
  | some digits =>
      if allDigits digits then
        match parseUnsigned 32 digits with
        | none => .error (.invalid "solution generator IDs")
        | some id => .ok id
      else .error (.invalid "synthetic move name")

/- The moves between the dots. An empty text has none. -/
def moveIds (text : Text) : Result (List Nat) :=
  if text = [] then .ok [] else (text.splitOn '.').mapM moveId

/-
  A solution must have the length it tells and lead to the
  centre.
-/
def solution
    (parser : TerminalParser)
    (row : Row) : Result (List Nat) := do
  let text ← value row "solution"
  let moves ← moveIds text
  let length ← numberU64 row "solution_length"
  if length ≠ moves.length then
    .error (.invalid "solution length")
  else if parser.maxSteps.any fun n => decide (length > n) then
    .error (.invalid "solution exceeds requested max_steps")
  else do
    let replayed ← parser.graph.replay parser.start moves
    if !replayed then
      .error (.invalid "solution independent replay")
    else .ok moves

----------------
-- Lines
----------------

/- The two spellings of the width. -/
def isWidthKey (name : Text) : Bool :=
  name == "GLOBAL_BEAM_WIDTH_EFFECTIVE".toList ||
    name == "global_beam_width_effective".toList

/- A token may report a width or a batch size. -/
def observe
    (parser : TerminalParser)
    (token : Text) : Result TerminalParser :=
  match splitOnce '=' token with
  | none => .ok parser
  | some (name, value) =>
      if isWidthKey name then
        match parseUnsigned 64 value with
        | none => .error (.invalid "effective beam width")
        | some width =>
            if width = 0 then
              .error (.invalid "effective beam width")
            else
              .ok
                { parser with
                  effective :=
                    insertNumber width parser.effective }
      else
        match BatchKey.ofText name with
        | none => .ok parser
        | some key =>
            match parseUnsigned 64 value with
            | none => .error (.invalid "observed native batch")
            | some size =>
                .ok
                  { parser with
                    batches :=
                      Function.update parser.batches key
                        (insertNumber size
                          (parser.batches key)) }

/- Only one puzzle is searched for. -/
def requirePuzzle (row : Row) : Result Unit := do
  let puzzle ← numberU32 row "puzzle_id"
  if puzzle ≠ 0 then .error (.invalid "collection puzzle")
  else .ok ()

/- A collected row with its path replayed. -/
def collectedRow
    (parser : TerminalParser)
    (line : Text) : Result Collected := do
  let row ← fields line
  requirePuzzle row
  let path ← parser.solution row
  let solvedDepth ← numberU32 row "found_depth"
  if path.length ≥ 2 ^ 32 ∨ path.length < solvedDepth then
    .error (.invalid "collection found depth")
  else do
    let ownerRank ← numberU32 row "owner_rank"
    .ok
      { path := path
        solvedDepth := solvedDepth
        touchDepth := path.length - solvedDepth
        ownerRank := ownerRank }

/- The start of a collection line. -/
def isCollection (line : Text) : Bool :=
  "solve_bucket_solution=1 ".toList.isPrefixOf line

/- A collection line adds its row. -/
def readCollection
    (parser : TerminalParser)
    (line : Text) : Result TerminalParser :=
  if isCollection line then do
    let row ← parser.collectedRow line
    .ok { parser with collected := parser.collected ++ [row] }
  else .ok parser

/- The path at the end of a summary is not part of it. -/
def summaryCount (line : Text) : Result Nat := do
  let row ← fields (beforeFirst " result_tsv=".toList line)
  requirePuzzle row
  numberU64 row "records"

/- The start of a summary line. -/
def isSummary (line : Text) : Bool :=
  "solve_bucket_summary=1 ".toList.isPrefixOf line

/- A summary line adds its count. -/
def readSummary
    (parser : TerminalParser)
    (line : Text) : Result TerminalParser :=
  if isSummary line then do
    let count ← summaryCount line
    .ok { parser with counts := parser.counts ++ [count] }
  else .ok parser

/- The latest status stays. -/
def readStatus
    (parser : TerminalParser)
    (line : Text) : TerminalParser :=
  match stripPrefix "collection_status=".toList line with
  | none => parser
  | some status => { parser with status := some (trim status) }

/- The answer of a record, `none` when nothing was found. -/
def answer
    (parser : TerminalParser)
    (solved : Nat)
    (row : Row) : Result (Option (List Nat)) :=
  if solved = 0 then do
    let length ← value row "solution_length"
    if length ≠ "-1".toList then
      .error (.invalid "inconsistent not-found path")
    else do
      let text ← value row "solution"
      if text ≠ [] then
        .error (.invalid "inconsistent not-found path")
      else .ok none
  else do
    let moves ← parser.solution row
    .ok (some moves)

/- The time and the answer of a terminal record. -/
def terminalRecord
    (parser : TerminalParser)
    (text : Text) : Result (Double × Option (List Nat)) := do
  let row ← fields text
  let solved ← numberU32 row "puzzle_solved"
  let seconds ← numberF64 row "seconds"
  let puzzle ← numberU32 row "puzzle_id"
  if puzzle ≠ 0 ∨ seconds.isFinite = false ∨
      seconds.isNegative = true ∨ solved > 1 then
    .error (.invalid "native puzzle/time/status")
  else do
    let path ← parser.answer solved row
    .ok (seconds, path)

/-
  The record starts at its key, wherever that is in the line.
-/
def recordText (line : Text) : Option Text :=
  fromFirst "puzzle_solved=".toList line

/- A second answer must be the first one. -/
def readTerminal
    (parser : TerminalParser)
    (line : Text) : Result TerminalParser :=
  match recordText line with
  | none => .ok parser
  | some text => do
      let record ← parser.terminalRecord text
      if parser.path.any fun previous =>
          decide (previous ≠ record.2) then
        .error (.invalid "contradictory terminal paths")
      else if parser.records + 1 ≥ 2 ^ 64 then
        .error (.overflow "terminal count")
      else
        .ok
          { parser with
            path := some record.2
            seconds := parser.seconds.max record.1
            records := parser.records + 1 }

/- All that one line may tell. -/
def line
    (parser : TerminalParser)
    (line : Text) : Result TerminalParser :=
  if contains "production_runner_error=".toList line then
    .error (.invalid "native error record")
  else do
    let parser ← (splitWhitespace line).foldlM observe parser
    let parser ← parser.readCollection line
    let parser ← parser.readSummary line
    (parser.readStatus line).readTerminal line

/- The lines of a log, in their order. -/
def lines
    (parser : TerminalParser)
    (log : List Text) : Result TerminalParser :=
  log.foldlM line parser

----------------
-- Result
----------------

/- Two neighbours are the same. -/
def adjacentEqual : List (List Nat) → Bool
  | a :: b :: paths => a == b || adjacentEqual (b :: paths)
  | _ => false

/- Sorted paths have equal ones side by side. -/
def hasDuplicate (paths : List (List Nat)) : Bool :=
  adjacentEqual (paths.insertionSort (· ≤ ·))

/- A path as the result shows it. -/
def pathJson (path : List Nat) : Json :=
  .array (path.map fun id => .integer id)

/- A row as the result shows it. -/
def collectedJson (row : Collected) : Json :=
  .object
    [("path", pathJson row.path),
      ("solved_depth", .integer row.solvedDepth),
      ("touch_depth", .integer row.touchDepth),
      ("owner_rank", .integer row.ownerRank)]

/- What the collection says, once it agrees with the answer. -/
def collectionFields
    (parser : TerminalParser)
    (path : Option (List Nat))
    (metadata : Json.Fields) : Result Json.Fields :=
  let paths := parser.collected.map Collected.path
  if parser.counts = [] ∧ parser.collected = [] then .ok metadata
  else if parser.counts ≠ [parser.collected.length] then
    .error (.invalid "collection summary/count mismatch")
  else if hasDuplicate paths then
    .error (.invalid "duplicate collected path")
  else if
      (!parser.collected.isEmpty) ≠ path.isSome ∨
        path.any fun p => !paths.contains p then
    .error (.invalid "collection and terminal disagree")
  else
    .ok
      (Json.insert "collection_status"
        (.string
          (String.ofList
            (parser.status.getD "depth_reached".toList)))
        (Json.insert "collected_solutions"
          (.array (parser.collected.map collectedJson))
          metadata))

/- The name of the list beside the one value. -/
def byRankKey (key : BatchKey) : String :=
  key.name ++ "_by_rank_values"

/- One value is told as it is, several in a list of their own. -/
def batchFields
    (parser : TerminalParser)
    (metadata : Json.Fields)
    (key : BatchKey) : Json.Fields :=
  let values := parser.batches key
  let first : Json :=
    match values with
    | [n] => .integer n
    | _ => .null
  let metadata := Json.insert key.name first metadata
  if values.length > 1 then
    Json.insert (byRankKey key)
      (.array (values.map fun n => .integer n)) metadata
  else metadata

/- The result, or why the log has none. -/
def finish (parser : TerminalParser) : Result TerminalResult :=
  match parser.path with
  | none =>
      .error
        (.invalid
          "native process returned without a terminal result")
  | some path =>
      if parser.effective.length > 1 then
        .error (.invalid "inconsistent effective beam widths")
      else do
        let metadata ←
          parser.collectionFields path
            [("native_seconds", .double parser.seconds),
              ("terminal_records", .integer parser.records)]
        .ok
          { path := path
            effectiveBeamWidth := parser.effective.head?
            metadata :=
              BatchKey.all.foldl parser.batchFields metadata }

end TerminalParser

/- A whole log through a new parser. -/
def parseLog
    (graph : PermutationGraph)
    (start : List UInt8)
    (maxSteps : Option Nat)
    (lines : List Text) : Result TerminalResult := do
  let parser ← TerminalParser.new graph start maxSteps
  let final ← parser.lines lines
  final.finish

end Search

end BeamSearch

import BeamSearch.Calibration.InferenceTuning

/-
  Cached inference evidence.

  A selection is kept as an object with the signature of what it
  was measured on. Before the object is used, its records are
  counted again and the estimate of its batch is made anew.

  Main declarations:
    * `Selection.toValue`, `evidence`
    * `normalize`
-/

namespace BeamSearch

namespace Calibration

open Text (Double numeral)
open Telemetry (doubleValue)

----------------
-- Writing A Selection
----------------

/- An estimate as it is stored. -/
def Estimate.toValue (value : Estimate) : Json :=
  .object
    [("profile", .string value.profile),
      ("median", doubleValue value.median),
      ("low", doubleValue value.low),
      ("high", doubleValue value.high),
      ("relative_mad", doubleValue value.relativeMad),
      ("repeats", .integer value.repeats)]

/- A measurement as it is stored. -/
def Measurement.toValue (row : Measurement) : Json :=
  .object
    [("profile", .string row.profile),
      ("parents", .integer row.parents),
      ("seconds_by_rank", .array (row.secondsByRank.map doubleValue)),
      ("correctness_passed", .bool row.correctnessPassed),
      ("memory_admitted", .bool row.memoryAdmitted),
      ("throttled", .bool row.throttled)]

namespace InferenceTuning

/- The reasons as they are stored. -/
def reasonsValue (reasons : Reasons) : Json :=
  .object (reasons.map fun entry => (entry.1, .string entry.2))

/- The batches as they are stored. -/
def batchesValue (batches : List Nat) : Json :=
  .array (batches.map fun batch => .integer batch)

namespace Selection

/- A selection as it is stored. -/
def toFields (selection : Selection) : Json.Fields :=
  [("search_policy", .string selection.searchPolicy),
    ("phase", .string selection.phase),
    ("parent_batch", .integer selection.parentBatch),
    ("reserve_bytes", .integer selection.reserveBytes),
    ("estimate", selection.estimate.toValue),
    ("records", .array selection.records),
    ("measurements",
      .array (selection.measurements.map Measurement.toValue)),
    ("rejected", reasonsValue selection.rejected),
    ("stat_rejected", reasonsValue selection.statRejected),
    ("gpu_telemetry",
      .object
        (selection.gpuTelemetry.map fun entry =>
          (entry.1, entry.2.toValue))),
    ("coarse_candidates", batchesValue selection.coarseCandidates),
    ("refinement_candidates",
      batchesValue selection.refinementCandidates),
    ("calibration_wall_seconds",
      doubleValue selection.calibrationWallSeconds),
    ("probe_process_starts",
      .integer selection.probeProcessStarts),
    ("capacity_limited_search",
      .bool selection.capacityLimitedSearch),
    ("shared_profile_validated",
      .bool selection.sharedProfileValidated),
    ("measured_candidates",
      batchesValue selection.measuredCandidates),
    ("pipeline_verified", .bool selection.pipelineVerified),
    ("cache_hit", .bool selection.cacheHit)]

end Selection

end InferenceTuning

----------------
-- Counting Evidence Again
----------------

namespace ProfileCache

open InferenceTuning
  (Selection validateRow timesOf peakOf measurementAt
    reserveMargin unwrap)

/- A selection with the signature of what was measured. -/
def evidence (selection : Selection) (signature : Json) : Json :=
  .object (Json.insert "signature" signature selection.toFields)

/- The one error of the cache. -/
def invalid : RuntimeError :=
  .message "invalid or incomplete cached inference evidence"

/- The devices seen, the highest peak, and the fewest times. -/
structure Cohort where
  seen : List Nat
  peak : Nat
  repeats : Option Nat

/- No row was counted. -/
def Cohort.empty : Cohort :=
  { seen := []
    peak := 0
    repeats := none }

/- A row is counted once for its device. -/
def countRow
    (world batch parents : Nat)
    (cohort : Cohort)
    (row : Json) : Except RuntimeError Cohort := do
  let rank ←
    okOr invalid ((device row).filter fun n => decide (n < world))
  if rank ∈ cohort.seen then .error invalid
  else do
    validateRow row rank batch parents
    let peak ← peakOf row
    let times ← timesOf row
    pure
      { seen := rank :: cohort.seen
        peak := max cohort.peak peak
        repeats :=
          some ((cohort.repeats.map fun n => min n times).getD
            times) }

/- The telemetry of a batch, if it is verified. -/
def readTelemetry
    (data : Json)
    (batch : Nat)
    (uuids : List String)
    (indices : List UInt32) : Except RuntimeError Unit := do
  let value :=
    Json.index (numeral batch) (Json.index "gpu_telemetry" data)
  let telemetry ← Telemetry.Receipt.fromValue value
  if Json.index "throttled" value ≠ .bool false ∨
      telemetry.verified uuids indices = false then
    .error invalid
  else .ok ()

/- The rows of a batch, one for each device. -/
def rowsOf
    (data : Json)
    (batch world : Nat) : Except RuntimeError (List Json) := do
  let records ← okOr invalid (Json.index "records" data).asArray
  let rows :=
    records.filter fun r =>
      decide ((Json.index "batch" r).asU64 = some batch)
  if rows.length ≠ world then .error invalid else .ok rows

/- The estimate that the rows of a batch give. -/
def summary
    (data : Json)
    (batch world : Nat)
    (rows : List Json) : Except RuntimeError Estimate := do
  let first ← okOr (.panicked "index out of bounds") rows.head?
  let parents ←
    okOr invalid
      ((Json.index "parents" first).asU64.filter fun n =>
        decide (0 < n))
  let global ← okOr invalid (checkedMul parents world)
  let cohort ←
    rows.foldlM (countRow world batch parents) Cohort.empty
  if (Json.index "reserve_bytes" data).asU64 ≠
      checkedAdd cohort.peak reserveMargin then
    .error invalid
  else do
    let measurements ←
      (List.range (cohort.repeats.getD (2 ^ 64 - 1))).mapM
        (measurementAt (numeral batch) global false rows)
    ofContract (estimate (numeral batch) measurements)

/- The devices that the signature names. -/
def readIndices
    (signature : Json) : Except RuntimeError (List UInt32) := do
  let indices ←
    readList (RankPlan.readUnsigned 32)
      (Json.index "device_indices" signature)
  pure (indices.map UInt32.ofNat)

/-
  A stored selection, with its samples and its estimate
  computed again.
-/
def normalize
    (data signature : Json)
    (maxBatch : Nat) : Except RuntimeError Json := do
  if Json.index "signature" data ≠ signature ∨
      Json.index "phase" data ≠ .string "inference_verified" then
    .error invalid
  else do
    let batch ←
      okOr invalid
        ((Json.index "parent_batch" data).asU64.filter fun n =>
          decide (0 < n ∧ n ≤ maxBatch))
    let world ←
      okOr invalid
        ((Json.index "world_size" signature).asU64.filter fun n =>
          decide (0 < n ∧ n ≤ 65535))
    let indices ← readIndices signature
    let uuids ←
      readList readString (Json.index "gpu_uuids" signature)
    if indices.length ≠ world then .error invalid
    else do
      readTelemetry data batch uuids indices
      let rows ← rowsOf data batch world
      let value ← summary data batch world rows
      let fields ←
        okOr (.panicked "cannot access key in JSON") data.asFields
      pure (.object (Json.insert "estimate" value.toValue fields))

end ProfileCache

end Calibration

end BeamSearch

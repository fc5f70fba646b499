import BeamSearch.Calibration.InferencePolicy
import BeamSearch.Calibration.InferencePool
import BeamSearch.Calibration.Telemetry

/-
  The tuning of an inference batch.

  A queue of candidate batches is measured one by one until the
  deadline. A shared batch goes first, a baseline that does not
  fit is replaced by smaller ones, and refined batches follow
  the coarse ones, or replace those left at a boundary in time.

  Main declarations:
    * `TuneConfig`, `Evaluator`, `Selection`
    * `recordProbe`
    * `tuneStep`, `tuneLoop`
    * `tune`
-/

namespace BeamSearch

namespace Calibration

namespace InferenceTuning

open Text (Double numeral ofDecimal parseU64)
open InferencePool (RankFailure)

----------------
-- Configurations And Probes
----------------

/- What the tuning is asked for. -/
structure TuneConfig where
  cap : Nat
  parents : Nat
  world : Nat
  capacityBootstrap : Bool
  sharedBatch : Option Nat
  deviceIndices : List UInt32
  gpuUuids : List String
deriving DecidableEq

/- What a probe gives: rows, failures and telemetry. -/
structure ProbeResult where
  rows : List Json
  failures : List RankFailure
  telemetry : Telemetry.Receipt

/- Answers may depend on all that was asked before. -/
structure Evaluator (σ : Type) where
  measure :
    (batch parents timeout : Nat) → σ →
      Except RuntimeError ProbeResult × σ
  capacity : σ → Nat

/- Readings of the clock in nanoseconds, and its last instant. -/
structure Clock where
  reading : Nat → Nat
  last : Nat

/- What the tuning returns. -/
structure Selection where
  searchPolicy : String
  phase : String
  parentBatch : Nat
  reserveBytes : Nat
  estimate : Estimate
  records : List Json
  measurements : List Measurement
  rejected : Reasons
  statRejected : Reasons
  gpuTelemetry : List (String × Telemetry.Receipt)
  coarseCandidates : List Nat
  refinementCandidates : List Nat
  calibrationWallSeconds : Double
  probeProcessStarts : Nat
  capacityLimitedSearch : Bool
  sharedProfileValidated : Bool
  measuredCandidates : List Nat
  pipelineVerified : Bool
  cacheHit : Bool

----------------
-- Durations
----------------

/- A second, in nanoseconds. -/
def second : Nat :=
  10 ^ 9

/- A duration as a double. -/
def asSecsF64 (duration : Nat) : Double :=
  Double.ofNat (duration / second) +
    Double.ofNat (duration % second) / Double.ofNat second

/- The nearest nanosecond; only a positive number has one. -/
def fromSecsF64 : Double → Nat
  | .finite false units =>
      Text.halfEven (units * second) Text.oneUnits
  | _ => 0

/- The part of the budget for the coarse search. -/
def sevenTenths (budget : Nat) : Nat :=
  fromSecsF64 (ofDecimal false 7 10 * asSecsF64 budget)

/- The measured seconds of a row, as far as they are numbers. -/
def rowSeconds (row : Json) : List Double :=
  ((Json.index "seconds" row).asArray.getD []).filterMap asF64

/- The time the next probe may need. -/
def probeAllowance (records : List Json) : Double :=
  (records.flatMap rowSeconds).foldl
    (fun limit seconds =>
      Double.max limit
        (Double.ofNat 10 * seconds + Double.ofNat 3))
    (Double.ofNat 12)

----------------
-- Rows
----------------

/- A row that is no object has no seconds. -/
def validateRow
    (row : Json)
    (rank batch parents : Nat) : Except RuntimeError Unit :=
  match row.asFields with
  | none => .error (.message "missing inference timing cohort")
  | some fields =>
      match
        InferencePool.validateReceipt fields rank batch parents
      with
      | .ok _ => .ok ()
      | .error text => .error (.message text)

/- A row must be a rank's own. -/
def checkRow
    (config : TuneConfig)
    (batch : Nat)
    (row : Json) : Except RuntimeError Unit := do
  let rank ←
    okOr (.message "invalid inference receipt rank")
      ((device row).filter fun r => decide (r < config.world))
  validateRow row rank batch config.parents

/- What an `unwrap` of nothing panics with. -/
def unwrap : RuntimeError :=
  .panicked "called Option::unwrap() on a None value"

/- How many times a row has. -/
def timesOf (row : Json) : Except RuntimeError Nat :=
  okOr unwrap ((Json.index "seconds" row).asArray.map List.length)

/- The time of one repetition. -/
def secondsAt
    (repetition : Nat)
    (row : Json) : Except RuntimeError Double := do
  let seconds ←
    okOr unwrap (Json.index "seconds" row).asArray
  let value ←
    okOr (.panicked "index out of bounds") seconds[repetition]?
  okOr unwrap (asF64 value)

/- The memory peak of a row. -/
def peakOf (row : Json) : Except RuntimeError Nat :=
  okOr unwrap (Json.index "torch_reserved_peak_bytes" row).asU64

/- The measurement of one repetition. -/
def measurementAt
    (name : String)
    (parents : Nat)
    (throttled : Bool)
    (rows : List Json)
    (repetition : Nat) : Except RuntimeError Measurement := do
  let seconds ← rows.mapM (secondsAt repetition)
  pure
    { profile := name
      parents
      secondsByRank := seconds
      correctnessPassed := true
      memoryAdmitted := true
      throttled }

/- The memory that stays free. -/
def reserveMargin : Nat :=
  512 * 2 ^ 20

----------------
-- Progress
----------------

/- The state of the loop over the batches. -/
structure Progress where
  candidates : List Nat
  index : Nat
  coarse : List Nat
  refined : List Nat
  refinementQueued : Bool
  samples : List Measurement
  records : List Json
  rejected : Reasons
  reserves : List (String × Nat)
  telemetryRecords : List (String × Telemetry.Receipt)
  capacityLimited : Bool
  sharedUsed : Bool

/- What stays the same while batches are measured. -/
structure Terms where
  config : TuneConfig
  baseline : String
  shared : Option Nat
  deadline : Nat
  coarseDeadline : Nat

section Recording

variable (terms : Terms)

/- A baseline that fits nowhere leaves the smaller batches. -/
def smallerOnly (batch : Nat) (progress : Progress) : Progress :=
  let later := progress.candidates.drop progress.index
  let smaller :=
    (later.filter fun b => decide (b < batch)).dedup.insertionSort
      (· ≥ ·)
  let candidates :=
    progress.candidates.take progress.index ++ smaller
  { progress with candidates, coarse := candidates }

/- The failures as one text. -/
def failureText (failures : List RankFailure) : String :=
  String.intercalate "; "
    (failures.map fun f =>
      "rank " ++ numeral f.rank ++ ": " ++ f.error)

/- Did every rank answer? -/
def isComplete (probe : ProbeResult) : Bool :=
  decide (probe.rows.length = terms.config.world) &&
    probe.failures.isEmpty

/- The telemetry of a probe was verified. -/
def isVerified (probe : ProbeResult) : Bool :=
  probe.telemetry.verified terms.config.gpuUuids
    terms.config.deviceIndices

/- The samples and the reserve of a batch all ranks measured. -/
def recordComplete
    (batch : Nat)
    (probe : ProbeResult)
    (progress : Progress) : Except RuntimeError Progress := do
  let name := numeral batch
  let verified := isVerified terms probe
  let times ← probe.rows.mapM timesOf
  let repeats ← okOr unwrap times.min?
  let samples ←
    (List.range repeats).mapM
      (measurementAt name
        (terms.config.parents * terms.config.world) (!verified)
        probe.rows)
  let peaks ← probe.rows.mapM peakOf
  let peak ← okOr unwrap peaks.max?
  let reserve ←
    okOr (.message "inference reserve size overflow")
      (checkedAdd peak reserveMargin)
  pure
    { progress with
      rejected :=
        if verified then progress.rejected
        else
          Environment.insert name
            "GPU telemetry missing, incomplete or throttled"
            progress.rejected
      samples := progress.samples ++ samples
      reserves := KeyedList.put name reserve progress.reserves }

/-
  A probe that is not complete: the baseline must be, another
  batch is put aside.
-/
def recordIncomplete
    (batch current : Nat)
    (probe : ProbeResult)
    (progress : Progress) : Except RuntimeError Progress :=
  if numeral batch = terms.baseline ∧
      ¬(current = 0 ∧ terms.shared.isSome = true) then
    if probe.failures = [] ∨
        (probe.failures.all RankFailure.capacity) = false then
      .error
        (.message
          "baseline inference calibration failed; inspect rank logs")
    else .ok (smallerOnly batch progress)
  else .ok progress

/- What is known of a probe before its rows are counted. -/
def noteProbe
    (batch : Nat)
    (probe : ProbeResult)
    (progress : Progress) : Progress :=
  { progress with
    rejected :=
      if probe.failures = [] then progress.rejected
      else
        Environment.insert (numeral batch)
          (failureText probe.failures) progress.rejected
    capacityLimited :=
      progress.capacityLimited ||
        probe.failures.any RankFailure.capacity
    telemetryRecords :=
      KeyedList.put (numeral batch) probe.telemetry
        progress.telemetryRecords }

/- What a probe adds to the progress. -/
def recordOutcome
    (batch current : Nat)
    (probe : ProbeResult)
    (progress : Progress) : Except RuntimeError Progress :=
  if isComplete terms probe then
    recordComplete terms batch probe progress
  else recordIncomplete terms batch current probe progress

/- A probe is checked before it is recorded. -/
def recordProbe
    (batch current : Nat)
    (probe : ProbeResult)
    (progress : Progress) : Except RuntimeError Progress := do
  probe.rows.forM (checkRow terms.config batch)
  if (probe.rows.filterMap device).dedup.length ≠
      probe.rows.length then
    .error (.message "duplicate inference receipt rank")
  else do
    let progress ←
      recordOutcome terms batch current probe
        (noteProbe batch probe progress)
    pure { progress with records := progress.records ++ probe.rows }

/- Batches around the winner follow those there are. -/
def refine
    (winner : Estimate)
    (progress : Progress) : Except RuntimeError Progress := do
  let batch ←
    okOr (.message "invalid selected inference batch")
      (parseU64 winner.profile)
  let refined ←
    ofContract
      (refinementBatches batch terms.config.cap progress.candidates)
  pure
    { progress with
      refined
      candidates := progress.candidates ++ refined
      refinementQueued := true }

/- Without a winner yet, nothing is refined. -/
def refineEarly
    (progress : Progress) : Except RuntimeError Progress :=
  if progress.refinementQueued then .ok progress
  else
    match selectInference progress.samples terms.baseline with
    | .error _ => .ok progress
    | .ok selected => refine terms selected.1 progress

/- The refinement that was put off is made up for. -/
def refineLate
    (progress : Progress) : Except RuntimeError Progress := do
  let selected ←
    ofContract (selectInference progress.samples terms.baseline)
  refine terms selected.1 progress

end Recording

----------------
-- The Loop
----------------

/- A measurement that was asked for, at what capacity. -/
structure Probe where
  batch : Nat
  capacity : Nat
  result : Except RuntimeError ProbeResult

/- The evaluator, the readings and the probes that were made. -/
structure Machine (σ : Type) where
  evaluator : σ
  readings : Nat
  probes : List Probe

/- An error of the tuning itself, or of its evaluator. -/
inductive Stop where
  | error (error : RuntimeError)
  | failed (error : RuntimeError)
  | unfinished
deriving DecidableEq

/- A tuning that asks an evaluator and reads a clock. -/
abbrev Tuning (σ α : Type) : Type :=
  EStateM Stop (Machine σ) α

/- Is the loop done? -/
inductive Turn where
  | done (progress : Progress)
  | more (progress : Progress)

section Run

variable {σ α : Type}

/- A result, or a stop. -/
def lift (result : Except RuntimeError α) : Tuning σ α :=
  fun machine =>
    match result with
    | .ok a => .ok a machine
    | .error error => .error (.error error) machine

variable (evaluator : Evaluator σ)
variable (clock : Clock)

/- A reading of the clock. -/
def now : Tuning σ Nat :=
  fun machine =>
    .ok (clock.reading machine.readings)
      { machine with readings := machine.readings + 1 }

/- What the evaluator can do now. -/
def capacity : Tuning σ Nat := do
  let machine ← get
  pure (evaluator.capacity machine.evaluator)

/- A probe, kept with what was known when it was made. -/
def measure (batch parents timeout : Nat) :
    Tuning σ ProbeResult :=
  fun machine =>
    let answer :=
      evaluator.measure batch parents timeout machine.evaluator
    let probe : Probe :=
      { batch
        capacity := evaluator.capacity machine.evaluator
        result := answer.1 }
    let machine :=
      { machine with
        evaluator := answer.2
        probes := machine.probes ++ [probe] }
    match answer.1 with
    | .ok result => .ok result machine
    | .error error => .error (.failed error) machine

variable (terms : Terms)

/- Is the time for coarse batches over? -/
def pastBoundary
    (current : Nat)
    (progress : Progress) : Tuning σ Bool :=
  if progress.samples = [] ∨ progress.coarse.length ≤ current ∨
      current = 0 then
    pure false
  else do
    let time ← now clock
    pure (decide (terms.coarseDeadline ≤ time))

/- Refined batches follow the last coarse one. -/
def afterProbe (progress : Progress) : Tuning σ Turn :=
  if progress.index = progress.coarse.length ∧
      progress.refinementQueued = false then do
    let time ← now clock
    if time < terms.deadline then do
      let progress ← lift (refineLate terms progress)
      pure (.more progress)
    else pure (.more progress)
  else pure (.more progress)

/- One batch: put aside, or probed and recorded. -/
def probeBatch
    (batch current remaining : Nat)
    (progress : Progress) : Tuning σ Turn := do
  let limit ← capacity evaluator
  if limit < batch then
    pure
      (.more
        { progress with
          rejected :=
            Environment.insert (numeral batch)
              "batch exceeds reduced inference capacity"
              progress.rejected
          capacityLimited := true })
  else do
    let probe ←
      measure evaluator batch terms.config.parents remaining
    let progress ←
      lift (recordProbe terms batch current probe progress)
    let isEstimated :=
      isComplete terms probe &&
        (Calibration.estimate (numeral batch)
          progress.samples).isOk
    if isEstimated && decide (current = 0) &&
        decide (terms.shared = some batch) then
      pure (.done { progress with sharedUsed := true })
    else if isEstimated && terms.config.capacityBootstrap then
      pure (.done progress)
    else afterProbe clock terms progress

/- One turn: the time that is left is asked first. -/
def tuneStep
    (batch current : Nat)
    (progress : Progress) : Tuning σ Turn := do
  let time ← now clock
  let remaining := terms.deadline - time
  if remaining = 0 ∨
      0 < current ∧
        Double.less (asSecsF64 remaining)
          (probeAllowance progress.records) = true then
    pure (.done progress)
  else do
    let late ← pastBoundary clock terms current progress
    if late then do
      let progress ← lift (refineEarly terms progress)
      -- No new coarse batch starts after the boundary.
      if progress.refinementQueued then pure (.more progress)
      else
        probeBatch evaluator clock terms batch current remaining
          progress
    else
      probeBatch evaluator clock terms batch current remaining
        progress

/- The turns, until no batch is left or the time is over. -/
def tuneLoop : Nat → Progress → Tuning σ Progress
  | 0, _ => throw .unfinished
  | fuel + 1, progress =>
      match progress.candidates[progress.index]? with
      | none => pure progress
      | some batch => do
          let turn ←
            tuneStep evaluator clock terms batch progress.index
              { progress with index := progress.index + 1 }
          match turn with
          | .done progress => pure progress
          | .more progress => tuneLoop fuel progress

----------------
-- The Tuning
----------------

/- The selection, from the samples of the loop. -/
def selectionOf
    (progress : Progress)
    (elapsed : Nat) : Except RuntimeError Selection := do
  let selected ←
    ofContract (selectInference progress.samples terms.baseline)
  let batch ←
    okOr (.message "invalid selected inference batch")
      (parseU64 selected.1.profile)
  let reserve ←
    okOr (.panicked "no entry found for key")
      (progress.reserves.lookup selected.1.profile)
  pure
    { searchPolicy := "rust-inference-v1-splitmix64"
      phase := "inference_verified"
      parentBatch := batch
      reserveBytes := reserve
      estimate := selected.1
      records := progress.records
      measurements := progress.samples
      rejected := progress.rejected
      statRejected := selected.2
      gpuTelemetry := progress.telemetryRecords
      coarseCandidates := progress.coarse
      refinementCandidates := progress.refined
      calibrationWallSeconds := asSecsF64 elapsed
      probeProcessStarts := 0
      capacityLimitedSearch := progress.capacityLimited
      sharedProfileValidated := progress.sharedUsed
      measuredCandidates :=
        (progress.samples.filterMap fun r =>
          parseU64 r.profile).dedup.insertionSort (· ≤ ·)
      pipelineVerified := false
      cacheHit := false }

/- The configurations that are refused. -/
def malformed
    (config : TuneConfig)
    (limit timeout : Nat) : Prop :=
  config.cap = 0 ∨ limit < config.cap ∨ 65536 < config.cap ∨
    config.parents < config.cap ∨ 2 ^ 32 - 1 < config.parents ∨
    config.world = 0 ∨ 65535 < config.world ∨
    config.deviceIndices.length ≠ config.world ∨ timeout = 0 ∨
    config.deviceIndices.dedup.length ≠ config.world

/- Whether a configuration is refused can be computed. -/
instance
    (config : TuneConfig)
    (limit timeout : Nat) :
    Decidable (malformed config limit timeout) :=
  inferInstanceAs (Decidable (_ ∨ _))

/- The candidates of a tuning, and the baseline among them. -/
def firstCandidates
    (config : TuneConfig) : Except RuntimeError (List Nat) :=
  if config.capacityBootstrap then
    .ok
      (config.cap ::
        [16, 8, 4, 2, 1].filter fun v => decide (v < config.cap))
  else ofContract (coarseBatches config.cap)

/- The batch that all ranks share, if it may be used. -/
def sharedOf (config : TuneConfig) : Option Nat :=
  config.sharedBatch.filter fun b =>
    !config.capacityBootstrap && decide (0 < b) &&
      decide (b ≤ config.cap)

/- A shared batch goes first. -/
def withShared
    (shared : Option Nat)
    (candidates : List Nat) : List Nat :=
  match shared with
  | none => candidates
  | some batch =>
      batch :: candidates.filter fun v => decide (v ≠ batch)

/- The progress before the first batch. -/
def Progress.start
    (config : TuneConfig)
    (candidates : List Nat) : Progress :=
  { candidates
    index := 0
    coarse := candidates
    refined := []
    refinementQueued := config.capacityBootstrap
    samples := []
    records := []
    rejected := []
    reserves := []
    telemetryRecords := []
    capacityLimited := false
    sharedUsed := false }

/- Every candidate, six refined ones, and the end of the list. -/
def turns (candidates : List Nat) : Nat :=
  candidates.length + 7

/-
  The tuning: the coarse batches, their refinement, and the
  selection.
-/
def tune
    (config : TuneConfig)
    (timeout : Nat) : Tuning σ Selection := do
  let limit ← capacity evaluator
  if malformed config limit timeout then
    throw
      (.error
        (.message "invalid inference tuning bounds/workload/devices"))
  else do
    let started ← now clock
    let budget :=
      if config.capacityBootstrap then min timeout (30 * second)
      else timeout
    if started + budget > clock.last then
      throw (.error (.message "inference deadline overflow"))
    else do
      let candidates ← lift (firstCandidates config)
      let baseline ←
        lift (okOr (.panicked "index out of bounds") candidates.head?)
      let terms : Terms :=
        { config
          baseline := numeral baseline
          shared := sharedOf config
          deadline := started + budget
          coarseDeadline := started + sevenTenths budget }
      let candidates := withShared terms.shared candidates
      let progress ←
        tuneLoop evaluator clock terms (turns candidates)
          (Progress.start config candidates)
      let time ← now clock
      lift (selectionOf terms progress (time - started))

end Run

end InferenceTuning

end Calibration

end BeamSearch

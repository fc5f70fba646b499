import BeamSearch.Calibration.ProfilePolicy
import BeamSearch.Calibration.Telemetry
import BeamSearch.Lib.Hoare

/-
  The tuning of the downstream components.

  The baseline is measured, once more if its times are unstable.
  Then every proposal is admitted and measured until the deadline
  passes; one that is refused is recorded with the reason. The
  winner is selected from the measured samples.

  The evaluator answers from a state of its own. The clock is a
  sequence of readings.

  Main declarations:
    * `ComponentTuning.TuneConfig`, `Trial`, `Selection`
    * `validateTrial`
    * `measureProfile`
    * `run`
-/

namespace BeamSearch

namespace Calibration

namespace ComponentTuning

open Text (Double ofDecimal numeral)

/- What the tuning is asked for. -/
structure TuneConfig where
  beam : Nat
  moves : Nat
  micro : Nat
  rowFactor : Nat
  inferenceSeconds : Double
  hardware : Hardware
  gpuUuids : List String
  deviceIndices : List UInt32

/-
  What a probe gives: the rows of the ranks and the telemetry.
-/
structure ComponentProbe where
  rows : List Json
  telemetry : Telemetry.Receipt

/-
  One profile that was tried, with what was measured or why it
  was refused.
-/
structure Trial where
  name : String
  environment : Environment
  plans : List Json
  rankMeasurements : List Json
  telemetry : Option Telemetry.Receipt
  estimate : Option ServiceEnvelope
  rejected : Option String
deriving DecidableEq

/- What the tuning returns. -/
structure Selection where
  phase : String
  environment : Environment
  requestedBeamEffective : Nat
  workloadParents : Nat
  measurementScope : String
  pipelineVerified : Bool
  cacheHit : Bool
  tested : List Trial
  selection : String
  estimate : ServiceEnvelope
  selectionRejections : Reasons
  selectionObjective : String
  searchPolicy : String
  searchComplete : Bool
  proposals : Proposals
  baselineRetry : String
  initialBaseline : Option Trial

/- A broken contract, with its reason. -/
def contract (reason : String) : RuntimeError :=
  .contract (.invalid reason)

----------------
-- Plans
----------------

/- The part of a plan on which all components agree. -/
def common (plan : ComponentPlan) : Nat × Nat × Nat × Nat × Nat :=
  (plan.frontierStateCapacity, plan.staging, plan.flush,
    plan.capacity, plan.sortSlots)

/- The plans of the ranks, compared with each other. -/
def checkedPlans
    (config : TuneConfig)
    (raw : List Json) :
    Except RuntimeError (List ComponentPlan) := do
  let plans ← raw.mapM ComponentPlan.fromValue
  ofContract
    (validateRankPlans (plans.map ComponentPlan.base) config.beam)
  match plans with
  | [] => .error (.panicked "index out of bounds")
  | first :: rest =>
      let plans := first :: rest
      let quantum := config.micro
      if config.deviceIndices.length ≠ plans.length ∨
          quantum = 0 ∨
          plans.zipIdx.any
            (fun entry =>
              entry.1.base.rank != some entry.2 ||
                common entry.1 != common first ||
                  entry.1.base.outerBatch % quantum != 0) ∨
          first.frontierStateCapacity <
            divCeil config.beam plans.length ∨
          [first.staging, first.flush, first.capacity,
            first.sortSlots].contains 0 then
        .error
          (contract "component admission rank cohort/geometry mismatch")
      else
        .ok plans

/- The first of the checked plans. -/
def firstPlan
    (config : TuneConfig)
    (raw : List Json) : Except RuntimeError ComponentPlan := do
  let plans ← checkedPlans config raw
  okOr (.panicked "index out of bounds") plans.head?

/- The environment with the values that the plans say. -/
def normalizedEnvironment
    (config : TuneConfig)
    (plans : List Json) : Except RuntimeError Environment := do
  let p ← firstPlan config plans
  let rows ←
    ofContract
      (okOr (.overflow "profile outer input rows")
        (checkedMul p.base.outerBatch config.rowFactor))
  let environment :=
    [(microKey, numeral config.micro), (outerKey, numeral rows),
      (shardsKey, numeral p.base.shards),
      (stagingKey, numeral p.staging),
      (lanesKey, numeral p.sortSlots),
      (batchKey, numeral p.flush)]
  ofContract (validateEnvironment environment config.micro)
  pure environment

----------------
-- Trials
----------------

/- The receipts of a trial and its first plan. -/
def evidence
    (config : TuneConfig)
    (trial : Trial) :
    Except RuntimeError
      (List ComponentReceipt × ComponentPlan) := do
  let plan ← firstPlan config trial.plans
  let rows ← trial.rankMeasurements.mapM ComponentReceipt.fromValue
  pure (rows, plan)

/- The service of a trial over all its repeats. -/
def fullService
    (config : TuneConfig)
    (trial : Trial) : Except RuntimeError ServiceEnvelope := do
  let found ← evidence config trial
  ofContract
    (serviceEnvelope found.1 found.2 config.moves
      config.inferenceSeconds none)

/- The measurement one repeat of a trial amounts to. -/
def measurementOf
    (config : TuneConfig)
    (trial : Trial)
    (rows : List ComponentReceipt)
    (plan : ComponentPlan)
    (i : Nat) : Except RuntimeError Measurement := do
  let service ←
    ofContract
      (serviceEnvelope rows plan config.moves
        config.inferenceSeconds (some i))
  pure
    { profile := trial.name
      parents := config.beam
      secondsByRank := [service.downstreamServiceWorkSeconds]
      correctnessPassed := true
      memoryAdmitted := true
      throttled := false }

/- A trial must still be what its parts say it is. -/
def validateTrial
    (config : TuneConfig)
    (trial : Trial) : Except RuntimeError (List Measurement) :=
  let mismatch :=
    contract "component profile/environment receipt mismatch"
  if trial.rejected ≠ none ∨ trial.name = "" then
    .error mismatch
  else do
    let environment ← normalizedEnvironment config trial.plans
    if trial.environment.same environment = false then
      .error mismatch
    else do
      let plans ← checkedPlans config trial.plans
      let rows ←
        trial.rankMeasurements.mapM ComponentReceipt.fromValue
      ofContract
        (Components.validateComponents rows plans config.beam
          config.moves)
      if trial.telemetry.any
          (fun r => r.verified config.gpuUuids config.deviceIndices)
      then do
        let plan ←
          okOr (.panicked "index out of bounds") plans.head?
        (List.range 5).mapM (measurementOf config trial rows plan)
      else
        .error
          (contract "component GPU telemetry missing or throttled")

----------------
-- The Run
----------------

/- Answers may depend on all that was asked before. -/
structure Evaluator (σ : Type) where
  admission :
    Environment → σ → Except RuntimeError (List Json) × σ
  measure :
    Environment → List Json → σ →
      Except RuntimeError ComponentProbe × σ

/- The evaluator and how often the clock was read. -/
structure Machine (σ : Type) where
  evaluator : σ
  readings : Nat

/- A tuning that asks an evaluator and reads a clock. -/
abbrev Tuning (σ α : Type) : Type :=
  EStateM RuntimeError (Machine σ) α

section Run

variable {σ α : Type}

/- A result, or a stop. -/
def lift (result : Except RuntimeError α) : Tuning σ α :=
  fun machine =>
    match result with
    | .ok a => .ok a machine
    | .error error => .error error machine

/- The program's result as a value. -/
def attempt
    (program : Tuning σ α) :
    Tuning σ (Except RuntimeError α) :=
  fun machine =>
    match program machine with
    | .ok a after => .ok (.ok a) after
    | .error error after => .ok (.error error) after

/- A reading of the clock. -/
def now (clock : Nat → Nat) : Tuning σ Nat :=
  fun machine =>
    .ok (clock machine.readings)
      { machine with readings := machine.readings + 1 }

/-
  A question to the evaluator; an error of its is the
  tuning's.
-/
def ask (question : σ → Except RuntimeError α × σ) :
    Tuning σ α :=
  fun machine =>
    let answer := question machine.evaluator
    lift answer.1 { machine with evaluator := answer.2 }

variable (evaluator : Evaluator σ)
variable (clock : Nat → Nat)
variable (deadline : Nat)
variable (config : TuneConfig)

/- A profile is planned, measured and estimated. -/
def measureProfile
    (name : String)
    (environment : Environment) : Tuning σ Trial := do
  lift (ofContract (validateEnvironment environment config.micro))
  let plans ← ask (evaluator.admission environment)
  let normalized ← lift (normalizedEnvironment config plans)
  let probe ← ask (evaluator.measure normalized plans)
  let trial : Trial :=
    { name := name
      environment := normalized
      plans := plans
      rankMeasurements := probe.rows
      telemetry := some probe.telemetry
      estimate := none
      rejected := none }
  let _ ← lift (validateTrial config trial)
  let service ← lift (fullService config trial)
  pure { trial with estimate := some service }

/- The baseline that counts, and the one before a retry. -/
structure Start where
  base : Trial
  samples : List Measurement
  initialBaseline : Option Trial
  baselineRetry : String

/- Unstable times are measured once more, before the deadline. -/
def settle
    (base : Trial)
    (samples : List Measurement) : Tuning σ Start :=
  match Calibration.estimate "baseline" samples with
  | .ok _ =>
      pure
        { base := base
          samples := samples
          initialBaseline := none
          baselineRetry := "not_needed" }
  | .error error =>
      if error ≠ .invalid "unstable timing samples" then
        throw (.contract error)
      else do
        let time ← now clock
        if deadline ≤ time then
          throw (.contract error)
        else do
          let retry ←
            measureProfile evaluator config "baseline"
              base.environment
          let retrySamples ← lift (validateTrial config retry)
          let _ ←
            lift
              (ofContract
                (Calibration.estimate "baseline" retrySamples))
          pure
            { base := retry
              samples := retrySamples
              initialBaseline := some base
              baselineRetry := "recovered_after_one_retry" }

/-
  The trials and samples of a walk, and whether it reached its
  end.
-/
structure Walk where
  tested : List Trial
  samples : List Measurement
  complete : Bool

/- What a refusal is recorded with; other errors end the run. -/
def refusal : RuntimeError → Option String
  | .capacityRejected reason =>
      some ("capacity rejected: " ++ reason)
  | .contract error => some error.text
  | _ => none

/- A profile that was refused, with its reason. -/
def rejectedTrial
    (name : String)
    (environment : Environment)
    (reason : String) : Trial :=
  { name := name
    environment := environment
    plans := []
    rankMeasurements := []
    telemetry := none
    estimate := none
    rejected := some reason }

/- The name of a trial of the walk. -/
def coarseName (proposal : ProposedProfile) : String :=
  "coarse-" ++ proposal.name

/- The proposals in turn, until the deadline. -/
def tryProposals : List ProposedProfile → Walk → Tuning σ Walk
  | [], walk => pure walk
  | proposal :: rest, walk => do
      let time ← now clock
      if deadline ≤ time then
        pure { walk with complete := false }
      else do
        let name := coarseName proposal
        let result ←
          attempt
            (measureProfile evaluator config name
              proposal.environment)
        match result with
        | .ok trial => do
            let more ← lift (validateTrial config trial)
            tryProposals rest
              { walk with
                tested := walk.tested ++ [trial]
                samples := walk.samples ++ more }
        | .error error =>
            match refusal error with
            | some reason =>
                tryProposals rest
                  { walk with
                    tested :=
                      walk.tested ++
                        [rejectedTrial name proposal.environment
                          reason] }
            | none => throw error

/- Why trials were rejected, over why estimates were. -/
def withRefusals (tested : List Trial) (rejections : Reasons) :
    Reasons :=
  tested.foldl
    (fun rejections trial =>
      match trial.rejected with
      | some reason =>
          Environment.insert trial.name reason rejections
      | none => rejections)
    rejections

/- The selection, from the samples of the walk. -/
def selectionOf
    (start : Start)
    (shortlist : Proposals)
    (walk : Walk) : Except RuntimeError Selection := do
  let selected ←
    ofContract (select walk.samples "baseline" (ofDecimal false 5 100))
  let best ←
    okOr (.panicked "selection from measured profiles")
      (walk.tested.find? fun r => r.name == selected.1.profile)
  let service ←
    okOr (.panicked "validated service estimate") best.estimate
  pure
    { phase := "component_calibrated"
      environment := best.environment
      requestedBeamEffective := config.beam
      workloadParents := config.beam
      measurementScope := "exact_admitted_component_capacities"
      pipelineVerified := false
      cacheHit := false
      tested := walk.tested
      selection := best.name
      estimate := service
      selectionRejections := withRefusals walk.tested selected.2
      selectionObjective :=
        "minimize summed downstream service work; proxy only, not full-step wall time"
      searchPolicy := policy
      searchComplete := walk.complete
      proposals := shortlist
      baselineRetry := start.baselineRetry
      initialBaseline := start.initialBaseline }

/- The configurations that are refused. -/
def malformed : Prop :=
  config.beam = 0 ∨ config.moves < 1 ∨ 255 < config.moves ∨
    config.deviceIndices = [] ∨
    65535 < config.deviceIndices.length ∨
    ¬config.deviceIndices.Nodup ∨
    (config.rowFactor ≠ 1 ∧ config.rowFactor ≠ config.moves) ∨
    config.inferenceSeconds.isFinite = false ∨
    Double.lessEqual config.inferenceSeconds Double.zero = true

/- Whether a configuration is refused can be computed. -/
instance : Decidable (malformed config) :=
  inferInstanceAs (Decidable (_ ∨ _))

/- The proposals around the baseline. -/
def proposalsFor
    (base : Trial) : Except RuntimeError Proposals := do
  let plan ← firstPlan config base.plans
  let service ←
    okOr (.panicked "validated service estimate") base.estimate
  ofContract
    (proposals
      { beam := config.beam
        world := plan.base.world
        moves := config.moves
        alignment := plan.base.batchAlignment
        rowFactor := config.rowFactor }
      base.environment config.hardware service false [])

/-
  The tuning: the baseline, then its proposals, then the
  selection.
-/
def run (baseline : Environment) : Tuning σ Selection :=
  let refused := contract "component tuning configuration/deadline"
  if malformed config then
    throw refused
  else do
    let time ← now clock
    if deadline ≤ time then
      throw refused
    else do
      let first ←
        measureProfile evaluator config "baseline" baseline
      let samples ← lift (validateTrial config first)
      let start ←
        settle evaluator clock deadline config first samples
      let shortlist ← lift (proposalsFor config start.base)
      let walk ←
        tryProposals evaluator clock deadline config
          shortlist.candidates
          { tested := [start.base]
            samples := start.samples
            complete := true }
      lift (selectionOf config start shortlist walk)

end Run

end ComponentTuning

end Calibration

end BeamSearch

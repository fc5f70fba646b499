import BeamSearch.Calibration.Statistics

/-
  Component receipts and the service envelope.

  A receipt holds the measured seconds of one rank's stages. The
  envelope scales them to a full frontier; it ranks schedules
  and says nothing about the time of a step.

  Main declarations:
    * `ComponentPlan`, `ComponentReceipt`
    * `Components.validateComponents`
    * `serviceEnvelope`
    * `isFinite_of_serviceEnvelope`
-/

namespace BeamSearch

namespace Calibration

open Text (Double ofDecimal)

/- A contract error is one of the runtime. -/
def ofContract
    {α : Type}
    (result : Except ContractError α) : Except RuntimeError α :=
  match result with
  | .ok a => .ok a
  | .error error => .error (.contract error)

theorem ofContract_eq_ok
    {α : Type}
    {result : Except ContractError α}
    {a : α} :
    ofContract result = .ok a ↔ result = .ok a := by
  cases result with
  | ok b => simp [ofContract]
  | error error => simp [ofContract]

/- Rounded up, for a positive divisor. -/
def divCeil (a b : Nat) : Nat :=
  (a + b - 1) / b

----------------
-- Reading Records
----------------

/- The fields of a record in order, by their names or as an array. -/
def recordValues
    (names : List String)
    (value : Json) : Except RuntimeError (List Json) :=
  match value with
  | .object fields =>
      .ok (names.map fun name => Json.index name (.object fields))
  | .array items =>
      if items.length = names.length then .ok items
      else .error .json
  | _ => .error .json

/- A field that is a truth value. -/
def readBool : Json → Except RuntimeError Bool
  | .bool value => .ok value
  | _ => .error .json

/- A field that is a string. -/
def readString : Json → Except RuntimeError String
  | .string value => .ok value
  | _ => .error .json

/- Whole numbers are doubles too. -/
def asF64 : Json → Option Double
  | .integer value => some (Double.ofInt value)
  | .double value => some value
  | _ => none

/- A field that is a number. -/
def readDouble (value : Json) : Except RuntimeError Double :=
  okOr .json (asF64 value)

/- A field that is a list. -/
def readList
    {α : Type}
    (read : Json → Except RuntimeError α)
    (value : Json) : Except RuntimeError (List α) :=
  match value with
  | .array items => items.mapM read
  | _ => .error .json

----------------
-- Plans And Receipts
----------------

/- A rank's plan with the sizes of its components. -/
structure ComponentPlan where
  base : RankPlan
  frontierStateCapacity : Nat
  staging : Nat
  flush : Nat
  capacity : Nat
  sortSlots : Nat
deriving DecidableEq, Repr

namespace ComponentPlan

/- The base plan's fields are among those of the object. -/
def fromValue (value : Json) :
    Except RuntimeError ComponentPlan :=
  match value with
  | .object fields => do
      let read := fun name =>
        RankPlan.readUnsigned 64 (Json.index name (.object fields))
      let base ← RankPlan.fromValue (.object fields)
      let frontierStateCapacity ← read "frontier_state_capacity"
      let staging ← read "STREAM3_RING_SLOTS"
      let flush ← read "STREAM4_BATCH_CANDIDATES"
      let capacity ← read "SHARD_CAPACITY_CANDIDATES"
      let sortSlots ← read "STREAM4_ACTIVE_SORT_SLOTS"
      pure
        { base := base
          frontierStateCapacity := frontierStateCapacity
          staging := staging
          flush := flush
          capacity := capacity
          sortSlots := sortSlots }
  | _ => .error .json

end ComponentPlan

/- The times of one transport size. -/
structure TransportReceipt where
  items : Nat
  seconds : List Double
deriving DecidableEq, Repr

namespace TransportReceipt

/- Its fields, read. -/
def fromValue (value : Json) :
    Except RuntimeError TransportReceipt :=
  match recordValues ["items", "seconds"] value with
  | .ok [items, seconds] => do
      let items ← RankPlan.readUnsigned 64 items
      let seconds ← readList readDouble seconds
      pure
        { items := items
          seconds := seconds }
  | _ => .error .json

end TransportReceipt

/- The measured row of a rank. -/
structure ComponentReceipt where
  componentCalibration : Bool
  correctnessPassed : Bool
  fullStepVerified : Bool
  rank : Nat
  outerCandidates : Nat
  shardCapacity : Nat
  sortJobsConcurrent : Nat
  stream3Seconds : List Double
  stream4GroupSeconds : List Double
  unionSeconds : List Double
  transport : List TransportReceipt
deriving DecidableEq, Repr

namespace ComponentReceipt

/- The names of its fields, in order. -/
def fieldNames : List String :=
  ["component_calibration", "correctness_passed",
    "full_step_verified", "rank", "outer_candidates",
    "shard_capacity", "sort_jobs_concurrent", "stream3_seconds",
    "stream4_group_seconds", "union_seconds", "transport"]

/- Its fields, read. -/
def fromValue (value : Json) :
    Except RuntimeError ComponentReceipt :=
  match recordValues fieldNames value with
  | .ok [calibration, correctness, fullStep, rank, outer, shard,
      jobs, stream3, stream4, union, transport] => do
      let calibration ← readBool calibration
      let correctness ← readBool correctness
      let fullStep ← readBool fullStep
      let rank ← RankPlan.readUnsigned 32 rank
      let outer ← RankPlan.readUnsigned 64 outer
      let shard ← RankPlan.readUnsigned 64 shard
      let jobs ← RankPlan.readUnsigned 64 jobs
      let stream3 ← readList readDouble stream3
      let stream4 ← readList readDouble stream4
      let union ← readList readDouble union
      let transport ← readList TransportReceipt.fromValue transport
      pure
        { componentCalibration := calibration
          correctnessPassed := correctness
          fullStepVerified := fullStep
          rank := rank
          outerCandidates := outer
          shardCapacity := shard
          sortJobsConcurrent := jobs
          stream3Seconds := stream3
          stream4GroupSeconds := stream4
          unionSeconds := union
          transport := transport }
  | _ => .error .json

end ComponentReceipt

----------------
-- Validation
----------------

namespace Components

/- The contract of a row. -/
def invalid : ContractError :=
  .invalid "component calibration contract"

/- At least five measured times, all finite and above zero. -/
def times (values : List Double) : Except ContractError Unit :=
  if values.length < 5 ∨
      values.any
        (fun v => !v.isFinite || Double.lessEqual v Double.zero)
  then
    .error invalid
  else
    .ok ()

/- Volumes grow up to `outer`; the last one is returned. -/
def volumes
    (outer : Nat) :
    Nat → List TransportReceipt → Except ContractError Nat
  | previous, [] => .ok previous
  | previous, volume :: rest =>
      if volume.items ≤ previous ∨ volume.items > outer then
        .error invalid
      else do
        times volume.seconds
        volumes outer volume.items rest

/- A row is checked against its rank's plan. -/
def validateRow
    (plan : ComponentPlan)
    (moves : Nat)
    (row : ComponentReceipt)
    (rank : Nat) : Except ContractError Unit := do
  let outer ←
    okOr (.overflow "component outer candidates")
      ((checkedMul plan.base.outerBatch plan.staging).bind
        fun n => checkedMul n moves)
  if moves < 1 ∨ 255 < moves ∨ plan.staging = 0 ∨
      plan.flush = 0 ∨ plan.capacity = 0 ∨ plan.sortSlots = 0 ∨
      plan.base.shards = 0 ∨ plan.frontierStateCapacity = 0 ∨
      row.componentCalibration = false ∨
      row.correctnessPassed = false ∨
      row.fullStepVerified = true ∨ row.rank ≠ rank ∨
      row.outerCandidates ≠ outer ∨
      row.shardCapacity ≠ plan.capacity ∨
      row.sortJobsConcurrent = 0 then
    .error invalid
  else do
    let buffers ←
      okOr (.overflow "physical component shard buffers")
        (checkedMul plan.base.shards 2)
    if row.sortJobsConcurrent ≠ min plan.sortSlots buffers then
      .error invalid
    else do
      times row.stream3Seconds
      times row.stream4GroupSeconds
      times row.unionSeconds
      let previous ← volumes outer 0 row.transport
      if plan.base.world > 1 ∧ previous ≠ outer ∨
          plan.base.world = 1 ∧ row.transport ≠ [] then
        .error invalid
      else
        .ok ()

/- The rows of all ranks, each against its own plan. -/
def validateComponents
    (rows : List ComponentReceipt)
    (plans : List ComponentPlan)
    (beam moves : Nat) : Except ContractError Unit := do
  validateRankPlans (plans.map ComponentPlan.base) beam
  if rows.length ≠ plans.length then
    .error invalid
  else
    (rows.zip plans).zipIdx.forM fun entry =>
      validateRow entry.1.2 moves entry.1.1 entry.2

/- One repeat of the values, or their median. -/
def sample
    (values : List Double)
    (index : Option Nat) : Except ContractError Double :=
  match index with
  | some i => okOr invalid values[i]?
  | none => .ok (median values)

end Components

----------------
-- The Service Envelope
----------------

/- The times of a round, by component. -/
structure ServiceEnvelope where
  serviceEnvelopeSeconds : Double
  serviceWorkSeconds : Double
  downstreamServiceWorkSeconds : Double
  inferenceSeconds : Double
  stream3Seconds : Double
  stream4Seconds : Double
  transportSeconds : Double
  unionSeconds : Double
  scope : String
deriving DecidableEq, Repr

namespace ServiceEnvelope

/- Its numbers, in the order they are compared. -/
def values (service : ServiceEnvelope) : List Double :=
  [service.serviceEnvelopeSeconds, service.serviceWorkSeconds,
    service.downstreamServiceWorkSeconds,
    service.inferenceSeconds, service.stream3Seconds,
    service.stream4Seconds, service.transportSeconds,
    service.unionSeconds]

end ServiceEnvelope

namespace Components

/- The slowest rank's time of one stage. -/
def slow
    (rows : List ComponentReceipt)
    (index : Option Nat)
    (get : ComponentReceipt → List Double) :
    Except ContractError Double :=
  rows.foldlM
    (fun slowest row => do
      let value ← sample (get row) index
      pure (Double.max slowest value))
    Double.zero

/- The slowest rank's transport of its share of `gross`. -/
def slowTransport
    (rows : List ComponentReceipt)
    (index : Option Nat)
    (gross : Nat) : Except ContractError Double :=
  rows.foldlM
    (fun slowest row =>
      match row.transport.getLast? with
      | none => pure slowest
      | some last => do
          let value ← sample last.seconds index
          pure
            (Double.max slowest
              (Double.ofNat (divCeil gross last.items) * value)))
    Double.zero

end Components

open Components in
/-
  The envelope of the rows; none is a negative or infinite
  time.
-/
def serviceEnvelope
    (rows : List ComponentReceipt)
    (plan : ComponentPlan)
    (moves : Nat)
    (inferenceSeconds : Double)
    (index : Option Nat) :
    Except ContractError ServiceEnvelope :=
  if !inferenceSeconds.isFinite ||
      Double.lessEqual inferenceSeconds Double.zero ||
      rows.length != plan.base.world then
    .error invalid
  else
    match rows with
    | [] => .error invalid
    | first :: _ => do
        rows.zipIdx.forM fun entry =>
          validateRow plan moves entry.1 entry.2
        let gross := plan.frontierStateCapacity * moves
        let shards := plan.base.shards
        let inference :=
          Double.ofNat plan.frontierStateCapacity *
            Double.ofNat plan.base.world * inferenceSeconds
        let stream3 ← slow rows index ComponentReceipt.stream3Seconds
        let s3 :=
          Double.ofNat (divCeil gross first.outerCandidates) *
            stream3
        let jobs :=
          shards *
            divCeil (divCeil gross shards)
              (min plan.flush plan.capacity)
        let stream4 ←
          slow rows index ComponentReceipt.stream4GroupSeconds
        let s4 :=
          Double.ofNat (divCeil jobs first.sortJobsConcurrent) *
            stream4
        let transport ← slowTransport rows index gross
        let unions ← slow rows index ComponentReceipt.unionSeconds
        let union := Double.ofNat shards * unions
        let downstream := s3 + s4 + transport + union
        let work := inference + downstream
        let envelope :=
          Double.max (Double.max (Double.max inference s3) s4)
            transport + union
        if !work.isFinite || !envelope.isFinite then
          .error (.overflow "service timing proxy")
        else
          .ok
            { serviceEnvelopeSeconds := envelope
              serviceWorkSeconds := work
              downstreamServiceWorkSeconds := downstream
              inferenceSeconds := inference
              stream3Seconds := s3
              stream4Seconds := s4
              transportSeconds := transport
              unionSeconds := union
              scope :=
                "isolated exact-capacity service envelope; not full-step timing" }

/- The work is finite, and it is a sum of all other numbers. -/
theorem isFinite_of_serviceEnvelope
    {rows : List ComponentReceipt}
    {plan : ComponentPlan}
    {moves : Nat}
    {inferenceSeconds : Double}
    {index : Option Nat}
    {service : ServiceEnvelope}
    (hService :
      serviceEnvelope rows plan moves inferenceSeconds index =
        .ok service) :
    ∀ value ∈ service.values, value.isFinite = true := by
  unfold serviceEnvelope at hService
  split_ifs at hService with hArguments
  cases rows with
  | nil => cases hService
  | cons first rest =>
      rcases except_bind_eq_ok hService with ⟨_, _, hService⟩
      rcases except_bind_eq_ok hService with ⟨_, _, hService⟩
      rcases except_bind_eq_ok hService with ⟨_, _, hService⟩
      rcases except_bind_eq_ok hService with ⟨_, _, hService⟩
      rcases except_bind_eq_ok hService with ⟨_, _, hService⟩
      dsimp only at hService
      split_ifs at hService with hOverflow
      simp only [Bool.or_eq_true, Bool.not_eq_true',
        not_or, Bool.not_eq_false] at hOverflow
      rcases hOverflow with ⟨hWork, hEnvelope⟩
      have hFields := Except.ok.inj hService
      rcases Double.isFinite_of_add hWork with
        ⟨hInference, hDownstream⟩
      rcases Double.isFinite_of_add hDownstream with
        ⟨hStages, hUnion⟩
      rcases Double.isFinite_of_add hStages with
        ⟨hStreams, hTransport⟩
      rcases Double.isFinite_of_add hStreams with ⟨hS3, hS4⟩
      rw [← hFields]
      simp only [ServiceEnvelope.values, List.forall_mem_cons]
      exact
        ⟨hEnvelope, hWork, hDownstream, hInference, hS3, hS4,
          hTransport, hUnion,
          fun _ hMem => absurd hMem List.not_mem_nil⟩

end Calibration

end BeamSearch

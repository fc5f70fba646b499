import BeamSearch.Core.RankPlans
import BeamSearch.Lib.Json

/-
  Rank plans as the runtime reads them.

  A native admission answers with one plan a rank, as JSON. A
  plan is read by its field names, or as an array in the order
  of the fields, and all ranks must agree on the protocol.

  Main declarations:
    * `RuntimeError`
    * `Environment`
    * `RankPlan.fromValue`
    * `validate`
-/

namespace BeamSearch

namespace Calibration

/- The errors of the runtime. -/
inductive RuntimeError where
  | capacityRejected (reason : String)
  | message (text : String)
  | json
  | contract (error : ContractError)
  | external (text : String)
  | panicked (text : String)
deriving DecidableEq, Repr

----------------
-- Environments
----------------

/- A map from variable names to their values. -/
abbrev Environment : Type :=
  List (String × String)

namespace Environment

/- A variable is set. -/
def insert
    (key value : String)
    (environment : Environment) : Environment :=
  KeyedList.put key value environment

end Environment

----------------
-- Rank Plans
----------------

namespace RankPlan

/- The fields of a plan, in the order they are read. -/
def fieldNames : List String :=
  ["GLOBAL_BEAM_WIDTH_EFFECTIVE", "BEAM_WIDTH_ALIGNMENT",
    "SHARD_COUNT", "B_MICRO", "WORLD_SIZE",
    "STREAM4_BATCH_ALIGNMENT", "LOCAL_RANK",
    "estimated_required_device_bytes", "gpu_budget_bytes"]

/- An unsigned number of so many bits. -/
def readUnsigned
    (bits : Nat)
    (value : Json) : Except RuntimeError Nat :=
  match value.asU64 with
  | some n => if n < 2 ^ bits then .ok n else .error .json
  | none => .error .json

/- A field that may be null. -/
def readOptional
    (bits : Nat)
    (value : Json) : Except RuntimeError (Option Nat) :=
  match value with
  | .null => .ok none
  | value =>
      match readUnsigned bits value with
      | .ok n => .ok (some n)
      | .error error => .error error

/- The values of the fields in their order. -/
def fieldValues (value : Json) : Except RuntimeError (List Json) :=
  match value with
  | .object fields =>
      .ok (fieldNames.map fun name => Json.index name (.object fields))
  | .array items =>
      if items.length = fieldNames.length then .ok items
      else .error .json
  | _ => .error .json

/- The plan of a value. -/
def fromValue (value : Json) : Except RuntimeError RankPlan :=
  match fieldValues value with
  | .ok [width, alignment, shards, outer, world, batch, rank,
      required, budget] => do
      let width ← readUnsigned 64 width
      let alignment ← readUnsigned 64 alignment
      let shards ← readUnsigned 64 shards
      let outer ← readUnsigned 64 outer
      let world ← readUnsigned 32 world
      let batch ← readUnsigned 64 batch
      let rank ← readOptional 32 rank
      let required ← readUnsigned 64 required
      let budget ← readUnsigned 64 budget
      pure
        { globalBeamWidth := width
          beamAlignment := alignment
          shards := shards
          outerBatch := outer
          world := world
          batchAlignment := batch
          rank := rank
          requiredBytes := required
          budgetBytes := budget }
  | _ => .error .json

end RankPlan

/- The plans are read, then compared. -/
def validate
    (plans : List Json)
    (beam : Nat) : Except RuntimeError Unit := do
  let typed ← plans.mapM RankPlan.fromValue
  match validateRankPlans typed beam with
  | .ok _ => .ok ()
  | .error error => .error (.contract error)

end Calibration

end BeamSearch

import BeamSearch.Calibration.Components

/-
  The telemetry of a measurement.

  A receipt holds samples of all GPUs. It is verified if every
  sample shows every expected GPU once and none throttled. A
  written receipt is read back as it was, as long as its interval
  is a number JSON can hold.

  Main declarations:
    * `Telemetry.Row`, `Telemetry.Receipt`
    * `Receipt.verified`
    * `Receipt.fromValue_toValue`
-/

namespace BeamSearch

namespace Calibration

namespace Telemetry

open Text (Double numeral)

/- What one device told in one sample. -/
structure Row where
  index : UInt32
  uuid : String
  temperature : Int32
  throttled : Bool
deriving DecidableEq

/- The samples of a probe. -/
structure Receipt where
  samples : List (List Row)
  errors : List String
  intervalSeconds : Double
deriving DecidableEq

----------------
-- Verification
----------------

/- The leading words of an identity are read over. -/
def trimGpu : Text.Text → Text.Text
  | 'g' :: 'p' :: 'u' :: '-' :: rest => trimGpu rest
  | text => text

/- A GPU's name in lower case, without its prefix. -/
def normalize (uuid : String) : String :=
  String.ofList (trimGpu (Text.lowerCase uuid.toList))

namespace Receipt

/- Some device was throttled in some sample. -/
def throttled (receipt : Receipt) : Bool :=
  receipt.samples.flatten.any Row.throttled

/- Are the GPUs named by identity, or by index? -/
def byUuid (uuids : List String) (indices : List UInt32) : Bool :=
  uuids.length == indices.length &&
    uuids.all fun s => s != "" && s != "unavailable"

/- The devices that must be in every sample. -/
def expected
    (uuids : List String)
    (indices : List UInt32) : List String :=
  if byUuid uuids indices then (uuids.map normalize).dedup
  else (indices.map fun index => numeral index.toNat).dedup

/- The name of a device, by its identity or its index. -/
def nameOf (identity : Bool) (row : Row) : String :=
  if identity then normalize row.uuid
  else numeral row.index.toNat

/- Each GPU once, every expected one, and that not throttled. -/
def complete
    (identity : Bool)
    (expected : List String)
    (sample : List Row) : Bool :=
  decide ((sample.map (nameOf identity)).Nodup) &&
    expected.all fun id =>
      sample.any fun row =>
        nameOf identity row == id && !row.throttled

/-
  The receipt covers the devices in every sample, without an
  error or a throttle.
-/
def verified
    (receipt : Receipt)
    (uuids : List String)
    (indices : List UInt32) : Bool :=
  receipt.errors.isEmpty && decide (2 ≤ receipt.samples.length) &&
    !indices.isEmpty && !receipt.throttled &&
      (expected uuids indices).length == indices.length &&
        receipt.samples.all
          (complete (byUuid uuids indices)
            (expected uuids indices))

theorem throttled_of_verified
    {receipt : Receipt}
    {uuids : List String}
    {indices : List UInt32}
    (hVerified : receipt.verified uuids indices = true) :
    receipt.throttled = false := by
  simp only [verified, Bool.and_eq_true,
    Bool.not_eq_true'] at hVerified
  exact hVerified.1.1.2

end Receipt

----------------
-- Writing And Reading
----------------

/- JSON has no infinities and no NaN; they become null. -/
def doubleValue (value : Double) : Json :=
  if value.isFinite then .double value else .null

namespace Row

/- A row as it is stored. -/
def toValue (row : Row) : Json :=
  .object
    [("index", .integer row.index.toNat),
      ("uuid", .string row.uuid),
      ("temperature", .integer row.temperature.toInt),
      ("throttled", .bool row.throttled)]

/- A signed number of 32 bits. -/
def readTemperature : Json → Except RuntimeError Int32
  | .integer value =>
      if -2 ^ 31 ≤ value ∧ value < 2 ^ 31 then
        .ok (Int32.ofInt value)
      else .error .json
  | _ => .error .json

/- A stored row, read. -/
def fromValue (value : Json) : Except RuntimeError Row :=
  match
    recordValues ["index", "uuid", "temperature", "throttled"]
      value
  with
  | .ok [index, uuid, temperature, throttled] => do
      let index ← RankPlan.readUnsigned 32 index
      let uuid ← readString uuid
      let temperature ← readTemperature temperature
      let throttled ← readBool throttled
      pure
        { index := UInt32.ofNat index
          uuid := uuid
          temperature := temperature
          throttled := throttled }
  | _ => .error .json

end Row

namespace Receipt

/- Two fields more than are read back. -/
def toValue (receipt : Receipt) : Json :=
  .object
    [("samples",
        .array
          (receipt.samples.map fun sample =>
            .array (sample.map Row.toValue))),
      ("errors", .array (receipt.errors.map Json.string)),
      ("interval_seconds", doubleValue receipt.intervalSeconds),
      ("throttled", .bool receipt.throttled),
      ("scope",
        .string
          "sampled visible GPUs; transient events may be missed")]

/- A stored receipt, read. -/
def fromValue (value : Json) : Except RuntimeError Receipt :=
  match
    recordValues ["samples", "errors", "interval_seconds"] value
  with
  | .ok [samples, errors, interval] => do
      let samples ← readList (readList Row.fromValue) samples
      let errors ← readList readString errors
      let interval ← readDouble interval
      pure
        { samples := samples
          errors := errors
          intervalSeconds := interval }
  | _ => .error .json

end Receipt

----------------
-- Round Trips
----------------

theorem readList_map
    {α : Type}
    {read : Json → Except RuntimeError α}
    {write : α → Json}
    (hEach : ∀ a, read (write a) = .ok a)
    (values : List α) :
    readList read (.array (values.map write)) = .ok values := by
  induction values with
  | nil => rfl
  | cons a rest ih =>
      change (rest.map write).mapM read = .ok rest at ih
      change (write a :: rest.map write).mapM read = _
      rw [List.mapM_cons, hEach, ih]
      rfl

theorem readUnsigned_toNat (n : UInt32) :
    RankPlan.readUnsigned 32 (.integer n.toNat) =
      .ok n.toNat := by
  change (if n.toNat < 2 ^ 32 then _ else _) = _
  rw [if_pos n.toNat_lt]

theorem readTemperature_toInt (temperature : Int32) :
    Row.readTemperature (.integer temperature.toInt) =
      .ok temperature := by
  have hLow : -2 ^ 31 ≤ temperature.toInt :=
    temperature.le_toInt
  have hHigh : temperature.toInt < 2 ^ 31 :=
    temperature.toInt_lt
  rw [Row.readTemperature, if_pos ⟨hLow, hHigh⟩,
    Int32.ofInt_toInt]

theorem Row.fromValue_toValue (row : Row) :
    Row.fromValue row.toValue = .ok row := by
  simp only [Row.fromValue, Row.toValue, recordValues, List.map,
    Json.index, List.lookup_cons, String.reduceBEq, Option.getD,
    beq_self_eq_true, readUnsigned_toNat, readString, readBool,
    readTemperature_toInt, except_ok_bind, UInt32.ofNat_toNat]
  rfl

theorem Receipt.fromValue_toValue
    {receipt : Receipt}
    (hFinite : receipt.intervalSeconds.isFinite = true) :
    Receipt.fromValue receipt.toValue = .ok receipt := by
  have hSamples :
      readList (readList Row.fromValue)
          (.array
            (receipt.samples.map fun sample =>
              .array (sample.map Row.toValue))) =
        .ok receipt.samples :=
    readList_map (readList_map Row.fromValue_toValue)
      receipt.samples
  have hErrors :
      readList readString
          (.array (receipt.errors.map Json.string)) =
        .ok receipt.errors :=
    @readList_map _ readString Json.string (fun _ => rfl)
      receipt.errors
  simp only [Receipt.fromValue, Receipt.toValue, recordValues,
    List.map_cons, List.map_nil, Json.index, List.lookup_cons,
    String.reduceBEq, Option.getD, beq_self_eq_true, hSamples,
    hErrors, except_ok_bind, doubleValue, hFinite, if_true,
    readDouble, asF64, okOr]
  rfl

/- One cool device, sampled twice. -/
def loneReceipt (intervalSeconds : Double) : Receipt :=
  let row : Row :=
    { index := 0
      uuid := "GPU-a"
      temperature := 40
      throttled := false }
  { samples := [[row], [row]]
    errors := []
    intervalSeconds := intervalSeconds }

end Telemetry

end Calibration

end BeamSearch

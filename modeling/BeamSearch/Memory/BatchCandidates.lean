import BeamSearch.Lib.Text
import BeamSearch.Memory.ScaledRoundUp
import Mathlib.Data.List.Sort

/-
  The Stream 4 batches the automatic configuration tries.

  The minimum, fractions of a logical shard, and doublings of
  the minimum are rounded up to the alignment, sorted, and cut to
  the range. The environment bounds the range; a minimum of zero
  is accepted and doubled for ever.

  Main declarations:
    * `BatchCandidates.envU64`
    * `stream4BatchCandidates`
    * `WellFormed`
    * `stream4BatchCandidates_iff`
-/

namespace BeamSearch

open Word

namespace Memory

namespace BatchCandidates

variable {unit value logicalShardSize minBatch maxBatch : Nat} {batches : List Nat}

----------------
-- The Environment
----------------

/- What a variable is set to. -/
abbrev Getenv : Type :=
  String → Option Text.Text

/- What the parser of the environment throws. -/
def invalidNumber (name : String) : Exception :=
  .invalidArgument ("invalid numeric argument: " ++ name)

/-
  The digits from the left; the caller's value grows by one
  digit a step.
-/
def parseDigits
    (name : String) :
    Nat → Text.Text → Checked Exception Nat
  | value, [] => .ok value
  | value, c :: rest =>
      if c < '0' ∨ '9' < c then
        throwing (invalidNumber name)
      else do
        let digit := c.toNat - '0'.toNat
        let room ← sub uint64Limit digit
        let most ← div room 10
        if value > most then
          throwing
            (.invalidArgument
              ("numeric argument exceeds uint64: " ++ name))
        else do
          let scaled ← mul 64 value 10
          let next ← add 64 scaled digit
          parseDigits name next rest

/- An empty text is no number. -/
def parseU64
    (text : Text.Text)
    (name : String) : Checked Exception Nat :=
  if text = [] then throwing (invalidNumber name)
  else parseDigits name 0 text

section Readers

variable (getenv : Getenv)

/- An empty variable counts as absent. -/
def envPresent (name : String) : Bool :=
  (getenv name).any fun text => !text.isEmpty

/- A 64-bit variable, or its default. -/
def envU64
    (name : String)
    (defaultValue : Nat) : Checked Exception Nat :=
  match getenv name with
  | none => .ok defaultValue
  | some text =>
      if text = [] then .ok defaultValue
      else parseU64 text name

/-
  A 32-bit variable, or its default; a greater value is
  refused.
-/
def envU32
    (name : String)
    (defaultValue : Nat) : Checked Exception Nat :=
  match getenv name with
  | none => .ok defaultValue
  | some text =>
      if text = [] then .ok defaultValue
      else do
        let parsed ← parseU64 text name
        if parsed > uint32Limit then
          throwing
            (.invalidArgument ("env value exceeds uint32: " ++ name))
        else
          .ok parsed

end Readers

----------------
-- Rounding
----------------

/- The next multiple, refused where it is no 64-bit word. -/
def roundUp64 (value alignment : Nat) : Checked Exception Nat :=
  if alignment = 0 then
    .ok value
  else do
    let remainder := value % alignment
    let increment ←
      (if remainder = 0 then .ok 0 else sub alignment remainder)
    let room ← sub uint64Limit value
    if increment > room then
      throwing
        (.overflowError "aligned size exceeds uint64 capacity")
    else
      add 64 value increment

/- The next multiple, refused where it is no 32-bit word. -/
def roundUpU32 (value alignment : Nat) : Checked Exception Nat := do
  let rounded ← roundUp64 value alignment
  if rounded > uint32Limit then
    throwing
      (.invalidArgument "value exceeds uint32: round_up_u32")
  else
    .ok rounded

/- Rounded up, refused for a zero denominator. -/
def ceilDivU64
    (numerator denominator : Nat) : Checked Exception Nat :=
  if denominator = 0 then
    throwing (.invalidArgument "ceil_div denominator is zero")
  else do
    let quotient ← div numerator denominator
    add 64 quotient
      (if numerator % denominator ≠ 0 then 1 else 0)

----------------
-- The Candidates
----------------

/- Zero is passed over, and a known batch is not added again. -/
def addUniqueBatch
    (unit : Nat)
    (batches : List Nat)
    (value : Nat) : Checked Exception (List Nat) :=
  if value = 0 then
    .ok batches
  else do
    let batch ← roundUpU32 value unit
    if batches.contains batch then .ok batches
    else .ok (batches ++ [batch])

/- The divisors that the source tries. -/
def divisors : List Nat :=
  [1, 2, 3, 4, 6, 8, 12, 16, 24, 32]

/- The minimum and the fractions of a logical shard. -/
def firstBatches
    (unit minBatch logicalShardSize : Nat) :
    Checked Exception (List Nat) := do
  let batches ← addUniqueBatch unit [] minBatch
  divisors.foldlM
    (fun batches divisor => do
      let part ← ceilDivU64 logicalShardSize divisor
      addUniqueBatch unit batches part)
    batches

/- The doublings; `none` while the loop still runs. -/
def doublings
    (unit limit : Nat) :
    Nat → Nat → List Nat → Option (Checked Exception (List Nat))
  | 0, _, _ => none
  | fuel + 1, batch, batches =>
      if batch ≤ limit then
        match addUniqueBatch unit batches batch with
        | .error fault => some (.error fault)
        | .ok batches =>
            match mul 64 batch 2 with
            | .error fault => some (.error fault)
            | .ok next => doublings unit limit fuel next batches
      else
        some (.ok batches)

/- The batches between both bounds, sorted. -/
def inRange
    (minBatch maxBatch : Nat)
    (batches : List Nat) : List Nat :=
  (batches.insertionSort (· ≤ ·)).filter fun batch =>
    !(decide (batch < minBatch) || decide (maxBatch < batch))

/- The variable of the lower bound. -/
def minName : String :=
  "BEAM_MIN_STREAM4_BATCH_CANDIDATES"

/- The variable of the upper bound. -/
def maxName : String :=
  "BEAM_MAX_STREAM4_BATCH_CANDIDATES"

/- The variable of a fixed batch. -/
def batchName : String :=
  "BEAM_STREAM4_BATCH_CANDIDATES"

/- The batch the environment asks for. -/
def fixedBatch
    (getenv : Getenv)
    (unit : Nat) : Checked Exception (List Nat) := do
  let batch ← envU32 getenv batchName 65536
  if batch = 0 then
    throwing
      (.invalidArgument
        "BEAM_STREAM4_BATCH_CANDIDATES must be nonzero")
  else if batch % unit ≠ 0 then
    throwing
      (.invalidArgument
        "BEAM_STREAM4_BATCH_CANDIDATES must be aligned to STREAM4_BATCH_ALIGNMENT")
  else
    .ok [batch]

/- The product is a 64-bit word and wraps. -/
def stream3Batch
    (moveCount : Nat)
    (base : RuntimeConfig)
    (ringSlotCount : Nat) : Nat :=
  ringSlotCount * (base.bMicro * moveCount) % 2 ^ 64

/- The largest batch is half of a 32-bit count. -/
def largestBatch : Nat :=
  (2 ^ 31 - 1) / 2

/- The range of the batches, from the environment. -/
def batchRange
    (getenv : Getenv)
    (moveCount : Nat)
    (base : RuntimeConfig)
    (logicalShardSize ringSlotCount : Nat) :
    Checked Exception (Nat × Nat) := do
  let minBatch ←
    envU64 getenv minName base.stream4BatchAlignment
  let maxBatch ←
    envU64 getenv maxName
      (max logicalShardSize
        (stream3Batch moveCount base ringSlotCount))
  .ok (minBatch, min maxBatch largestBatch)

/- The batches of a range; `none` while the loop still runs. -/
def batchesBetween
    (fuel unit minBatch maxBatch logicalShardSize : Nat) :
    Option (Checked Exception (List Nat)) :=
  if minBatch > maxBatch then
    some (.ok [])
  else
    match firstBatches unit minBatch logicalShardSize with
    | .error fault => some (.error fault)
    | .ok batches =>
        (doublings unit (maxBatch / 2) fuel minBatch batches).map
          fun result => result.map (inRange minBatch maxBatch)

/-
  A fixed batch goes before the candidates. Without enough
  fuel the loop of the source has not ended.
-/
def stream4BatchCandidates
    (getenv : Getenv)
    (moveCount : Nat)
    (base : RuntimeConfig)
    (logicalShardSize ringSlotCount fuel : Nat) :
    Option (Checked Exception (List Nat)) :=
  if envPresent getenv batchName then
    some (fixedBatch getenv base.stream4BatchAlignment)
  else
    match
      batchRange getenv moveCount base logicalShardSize
        ringSlotCount
    with
    | .error fault => some (.error fault)
    | .ok range =>
        batchesBetween fuel base.stream4BatchAlignment range.1
          range.2 logicalShardSize

----------------
-- Rounded Values
----------------

/- The least multiple of the unit that is not below the value. -/
def roundedUp (value unit : Nat) : Nat :=
  value ⌈/⌉ unit * unit

/- Rounding up never goes below. -/
theorem le_roundedUp
    (value : Nat)
    (hUnit : 0 < unit) :
    value ≤ roundedUp value unit := by
  rw [roundedUp, Nat.mul_comm]
  exact le_smul_ceilDiv hUnit

/- Rounding up keeps the order. -/
theorem roundedUp_mono
    {a b : Nat}
    (unit : Nat)
    (hLe : a ≤ b) :
    roundedUp a unit ≤ roundedUp b unit := by
  rw [roundedUp, roundedUp, Nat.ceilDiv_eq_add_pred_div,
    Nat.ceilDiv_eq_add_pred_div]
  exact
    Nat.mul_le_mul_right _ (Nat.div_le_div_right (by omega))

theorem dvd_roundedUp (value unit : Nat) :
    unit ∣ roundedUp value unit :=
  Dvd.intro_left _ rfl

/- The rounded value, as the source computes it. -/
theorem roundedUp_eq
    (value : Nat)
    (hUnit : 0 < unit) :
    roundedUp value unit =
      value +
        (if value % unit = 0 then 0 else unit - value % unit) := by
  have hParts := Nat.div_add_mod value unit
  have hRest := Nat.mod_lt value hUnit
  rw [roundedUp, Nat.ceilDiv_eq_add_pred_div]
  split_ifs with hZero
  · have hSame : (value + unit - 1) / unit = value / unit := by
      rw [Nat.div_eq_iff hUnit]
      constructor
      · rw [Nat.mul_comm]
        omega
      · rw [Nat.mul_comm (value / unit)]
        omega
    rw [hSame, Nat.mul_comm]
    omega
  · have hNext :
        (value + unit - 1) / unit = value / unit + 1 := by
      rw [Nat.div_eq_iff hUnit]
      constructor
      · rw [Nat.add_mul, Nat.mul_comm (value / unit)]
        omega
      · rw [Nat.add_mul, Nat.mul_comm (value / unit)]
        omega
    rw [hNext, Nat.add_mul, Nat.mul_comm (value / unit)]
    omega

/- The rounding fails only where the result is no word. -/
theorem roundUp64_eq
    (hUnit : 0 < unit)
    (hValue : value < 2 ^ 64) :
    roundUp64 value unit =
      if roundedUp value unit < 2 ^ 64 then
        .ok (roundedUp value unit)
      else
        throwing
          (.overflowError
            "aligned size exceeds uint64 capacity") := by
  have hRest := Nat.mod_lt value hUnit
  have hIncrement :
      (if value % unit = 0 then .ok 0
          else sub unit (value % unit) : Checked Exception Nat) =
        .ok
          (if value % unit = 0 then 0
            else unit - value % unit) := by
    split_ifs with hZero
    · rfl
    · exact sub_eq hRest.le
  have hRoom : value ≤ uint64Limit := by
    rw [uint64Limit_eq]
    omega
  rw [roundUp64, if_neg (Nat.ne_of_gt hUnit)]
  dsimp only
  rw [hIncrement, ok_bind, sub_eq hRoom, ok_bind,
    roundedUp_eq value hUnit]
  generalize
    (if value % unit = 0 then 0 else unit - value % unit) =
      increment
  rw [uint64Limit_eq]
  split_ifs with hOver hFits hFits
  · omega
  · rfl
  · exact add_eq hFits
  · omega

/- Rounding to 32 bits is exact where that fits, else it throws. -/
theorem roundUpU32_cases
    (hUnit : 0 < unit)
    (hValue : value < 2 ^ 64) :
    (roundedUp value unit < 2 ^ 32 ∧
        roundUpU32 value unit = .ok (roundedUp value unit)) ∨
      (2 ^ 32 ≤ roundedUp value unit ∧
        ∃ e, roundUpU32 value unit = throwing e) := by
  have hLimit : uint32Limit = 2 ^ 32 - 1 := rfl
  rw [roundUpU32, roundUp64_eq hUnit hValue]
  by_cases hWide : roundedUp value unit < 2 ^ 64
  · rw [if_pos hWide, ok_bind]
    by_cases hOver : roundedUp value unit > uint32Limit
    · rw [if_pos hOver]
      exact Or.inr ⟨by omega, _, rfl⟩
    · rw [if_neg hOver]
      exact Or.inl ⟨by omega, rfl⟩
  · rw [if_neg hWide]
    exact Or.inr ⟨by omega, _, rfl⟩

/- The quotient fits, as it is no greater than the dividend. -/
theorem ceilDivU64_eq
    {numerator denominator : Nat}
    (hPos : 0 < denominator)
    (hFits : numerator < 2 ^ 64) :
    ceilDivU64 numerator denominator =
      .ok (numerator ⌈/⌉ denominator) ∧
      numerator ⌈/⌉ denominator ≤ numerator := by
  have hCeil :
      numerator ⌈/⌉ denominator =
        numerator / denominator +
          (if numerator % denominator ≠ 0 then 1 else 0) := by
    have hParts := Nat.div_add_mod numerator denominator
    have hRest := Nat.mod_lt numerator hPos
    rw [Nat.ceilDiv_eq_add_pred_div]
    split_ifs with hZero
    · rw [Nat.div_eq_iff hPos, Nat.add_mul,
        Nat.mul_comm (numerator / denominator)]
      omega
    · rw [Nat.add_zero, Nat.div_eq_iff hPos,
        Nat.mul_comm (numerator / denominator)]
      omega
  have hLe : numerator ⌈/⌉ denominator ≤ numerator := by
    rw [ceilDiv_le_iff_le_mul hPos]
    exact Nat.le_mul_of_pos_left _ hPos
  refine ⟨?_, hLe⟩
  rw [ceilDivU64, if_neg (Nat.ne_of_gt hPos), div_eq hPos,
    ok_bind, hCeil, add_eq]
  rw [← hCeil]
  omega

----------------
-- The Kept Batches
----------------

/- Distinct multiples of the unit. -/
structure Aligned (unit : Nat) (batches : List Nat) : Prop where
  nodup : batches.Nodup
  multiples : ∀ batch ∈ batches, unit ∣ batch

/- What is kept for a value: everything before, and its rounding. -/
structure Extends
    (unit value : Nat)
    (batches next : List Nat) : Prop where
  aligned : Aligned unit next
  kept : ∀ batch ∈ batches, batch ∈ next
  rounded : value ≠ 0 → roundedUp value unit ∈ next

/- No batch was chosen yet. -/
theorem Aligned.nil (unit : Nat) : Aligned unit [] where
  nodup := List.nodup_nil
  multiples := fun _ hMem => absurd hMem List.not_mem_nil

/- One call of `add_unique_batch`, where rounding fits or not. -/
theorem addUniqueBatch_cases
    (hUnit : 0 < unit)
    (hValue : value < 2 ^ 64)
    (hAligned : Aligned unit batches) :
    (roundedUp value unit < 2 ^ 32 ∧
        ∃ next,
          addUniqueBatch unit batches value = .ok next ∧
            Extends unit value batches next) ∨
      (2 ^ 32 ≤ roundedUp value unit ∧
        ∃ e, addUniqueBatch unit batches value = throwing e) := by
  rw [addUniqueBatch]
  by_cases hZero : value = 0
  · rw [if_pos hZero, hZero, roundedUp, zero_ceilDiv, Nat.zero_mul]
    exact
      Or.inl
        ⟨by decide, batches, rfl, hAligned, fun _ hMem => hMem,
          fun hPos => absurd rfl hPos⟩
  · rw [if_neg hZero]
    rcases roundUpU32_cases hUnit hValue with
      ⟨hFits, hRound⟩ | ⟨hOver, e, hRound⟩
    · rw [hRound, ok_bind]
      refine Or.inl ⟨hFits, ?_⟩
      by_cases hOld : batches.contains (roundedUp value unit) = true
      · rw [if_pos hOld]
        exact
          ⟨batches, rfl, hAligned, fun _ hMem => hMem, fun _ =>
            List.contains_iff_mem.mp hOld⟩
      · rw [if_neg hOld]
        have hNew : roundedUp value unit ∉ batches :=
          fun hMem => hOld (List.contains_iff_mem.mpr hMem)
        refine
          ⟨_, rfl, ⟨?_, ?_⟩, fun batch hMem =>
            List.mem_append_left _ hMem, fun _ =>
            List.mem_append_right _ (List.mem_singleton.mpr rfl)⟩
        · exact
            List.nodup_append.mpr
              ⟨hAligned.nodup, List.nodup_singleton _,
                fun a hA b hB hSame =>
                  hNew (List.mem_singleton.mp hB ▸ hSame ▸ hA)⟩
        · intro batch hMem
          rcases List.mem_append.mp hMem with hMem | hMem
          · exact hAligned.multiples batch hMem
          · rw [List.mem_singleton.mp hMem]
            exact dvd_roundedUp value unit
    · rw [hRound]
      exact Or.inr ⟨hOver, e, rfl⟩

/- One value more. -/
theorem addUniqueBatch_returns
    (hUnit : 0 < unit)
    (hValue : value < 2 ^ 64)
    (hAligned : Aligned unit batches) :
    Returns (Extends unit value batches)
      (addUniqueBatch unit batches value) := by
  rcases addUniqueBatch_cases hUnit hValue hAligned with
    ⟨-, next, hRun, hNext⟩ | ⟨-, e, hRun⟩
  · exact Or.inl ⟨next, hRun, hNext⟩
  · exact Or.inr ⟨e, hRun⟩

/- The list grows: it stays aligned and loses nothing. -/
def Grows
    (unit : Nat)
    (batches next : List Nat) : Prop :=
  Aligned unit next ∧ ∀ batch ∈ batches, batch ∈ next

/- A list that was extended has grown. -/
theorem Extends.grows
    {next : List Nat}
    (hExtends : Extends unit value batches next) :
    Grows unit batches next :=
  ⟨hExtends.aligned, hExtends.kept⟩

/- One growth after the other. -/
theorem Grows.trans
    {a b c : List Nat}
    (hFirst : Grows unit a b)
    (hSecond : Grows unit b c) :
    Grows unit a c :=
  ⟨hSecond.1, fun batch hMem =>
    hSecond.2 batch (hFirst.2 batch hMem)⟩

/- The loop over the fractions of a shard. -/
theorem fractions_returns
    (hUnit : 0 < unit)
    (hLogical : logicalShardSize < 2 ^ 64)
    {parts : List Nat}
    (hParts : ∀ part ∈ parts, 0 < part)
    (hAligned : Aligned unit batches) :
    Returns (Grows unit batches)
      (parts.foldlM
        (fun batches divisor => do
          let part ← ceilDivU64 logicalShardSize divisor
          addUniqueBatch unit batches part)
        batches) := by
  induction parts generalizing batches with
  | nil => exact Returns.ok ⟨hAligned, fun _ hMem => hMem⟩
  | cons part parts ih =>
      rw [List.forall_mem_cons] at hParts
      rcases ceilDivU64_eq hParts.1 hLogical with ⟨hDiv, hLe⟩
      rw [List.foldlM_cons, hDiv, ok_bind]
      refine
        (addUniqueBatch_returns hUnit (by omega) hAligned).bind ?_
      intro next hNext
      rcases ih hParts.2 hNext.aligned with
        ⟨last, hRun, hLast⟩ | ⟨e, hRun⟩
      · exact Or.inl ⟨last, hRun, hNext.grows.trans hLast⟩
      · exact Or.inr ⟨e, hRun⟩

theorem divisors_pos : ∀ part ∈ divisors, 0 < part := by
  decide

/- The minimum and the fractions. -/
theorem firstBatches_returns
    (hUnit : 0 < unit)
    (hMin : minBatch < 2 ^ 64)
    (hLogical : logicalShardSize < 2 ^ 64) :
    Returns (Extends unit minBatch [])
      (firstBatches unit minBatch logicalShardSize) := by
  refine
    (addUniqueBatch_returns hUnit hMin (Aligned.nil unit)).bind ?_
  intro batches hFirst
  rcases
    fractions_returns hUnit hLogical divisors_pos
      hFirst.aligned with
    ⟨next, hRun, hNext⟩ | ⟨e, hRun⟩
  · exact
      Or.inl
        ⟨next, hRun, hNext.1,
          fun _ hMem => absurd hMem List.not_mem_nil,
          fun hPos => hNext.2 _ (hFirst.rounded hPos)⟩
  · exact Or.inr ⟨e, hRun⟩

----------------
-- The Doublings
----------------

/- A positive batch doubles past the limit before it can wrap. -/
theorem doublings_returns
    {limit : Nat}
    (hUnit : 0 < unit)
    (hLimit : limit < 2 ^ 63)
    {batch : Nat}
    (hPos : 0 < batch)
    (hAligned : Aligned unit batches) :
    ∃ fuel outcome,
      doublings unit limit fuel batch batches = some outcome ∧
        Returns (Grows unit batches) outcome := by
  induction hGap : limit + 1 - batch using Nat.strong_induction_on
    generalizing batch batches with
  | _ gap ih =>
      by_cases hMore : batch ≤ limit
      · have hFits : batch < 2 ^ 64 := by omega
        rcases addUniqueBatch_returns hUnit hFits hAligned with
          ⟨next, hRun, hNext⟩ | ⟨e, hRun⟩
        · have hDouble :
              (mul 64 batch 2 : Checked Exception Nat) =
                .ok (batch * 2) :=
            mul_eq (by omega)
          rcases
            ih (limit + 1 - batch * 2) (by omega) (by omega)
              hNext.aligned rfl with
            ⟨fuel, outcome, hRest, hOutcome⟩
          refine ⟨fuel + 1, outcome, ?_, ?_⟩
          · rw [doublings, if_pos hMore, hRun, hDouble]
            exact hRest
          · rcases hOutcome with ⟨last, hEq, hLast⟩ | hThrow
            · exact Or.inl ⟨last, hEq, hNext.grows.trans hLast⟩
            · exact Or.inr hThrow
        · refine ⟨1, throwing e, ?_, Returns.throw _ e⟩
          rw [doublings, if_pos hMore, hRun]
          rfl
      · refine
          ⟨1, .ok batches, ?_,
            Returns.ok ⟨hAligned, fun _ hMem => hMem⟩⟩
        rw [doublings, if_neg hMore]

/- Zero stays zero: the loop runs for ever. -/
theorem doublings_zero
    (unit limit fuel : Nat)
    (batches : List Nat) :
    doublings unit limit fuel 0 batches = none := by
  induction fuel with
  | zero => rfl
  | succ fuel ih =>
      rw [doublings, if_pos (Nat.zero_le limit), addUniqueBatch,
        if_pos rfl, mul_eq (by decide)]
      exact ih

/- Without a minimum only a logical shard too large to round throws. -/
theorem firstBatches_zero
    (hUnit : 0 < unit)
    (hLogical : logicalShardSize < 2 ^ 64) :
    (∃ batches,
        firstBatches unit 0 logicalShardSize = .ok batches) ↔
      roundedUp logicalShardSize unit < 2 ^ 32 := by
  have hStart :
      firstBatches unit 0 logicalShardSize =
        divisors.foldlM
          (fun batches divisor => do
            let part ← ceilDivU64 logicalShardSize divisor
            addUniqueBatch unit batches part)
          [] := by
    rw [firstBatches, addUniqueBatch, if_pos rfl, ok_bind]
  have hEach :
      ∀ part ∈ divisors,
        roundedUp logicalShardSize unit < 2 ^ 32 →
          ∀ batches, Aligned unit batches →
            ∃ next,
              (do
                let part ← ceilDivU64 logicalShardSize part
                addUniqueBatch unit batches part) = .ok next ∧
                Aligned unit next := by
    intro part hMem hFits batches hAligned
    rcases ceilDivU64_eq (divisors_pos part hMem) hLogical with
      ⟨hDiv, hLe⟩
    rw [hDiv, ok_bind]
    rcases
      addUniqueBatch_cases hUnit (lt_of_le_of_lt hLe hLogical)
        hAligned with
      ⟨-, next, hRun, hNext⟩ | ⟨hOver, -⟩
    · exact ⟨next, hRun, hNext.aligned⟩
    · have hMono := roundedUp_mono unit hLe
      omega
  rw [hStart]
  constructor
  · rintro ⟨batches, hRun⟩
    by_contra hOver
    rcases ceilDivU64_eq (Nat.succ_pos 0) hLogical with
      ⟨hDiv, hLe⟩
    have hOne : logicalShardSize ⌈/⌉ 1 = logicalShardSize :=
      ceilDiv_one _
    rcases
      addUniqueBatch_cases hUnit hLogical (Aligned.nil unit) with
      ⟨hFits, -⟩ | ⟨-, e, hThrow⟩
    · exact hOver hFits
    · rw [divisors, List.foldlM_cons, hDiv, hOne, ok_bind,
        hThrow] at hRun
      cases hRun
  · intro hFits
    have hRun :
        ∀ parts : List Nat, (∀ part ∈ parts, part ∈ divisors) →
          ∀ batches, Aligned unit batches →
            ∃ last,
              parts.foldlM
                (fun batches divisor => do
                  let part ← ceilDivU64 logicalShardSize divisor
                  addUniqueBatch unit batches part)
                batches = .ok last := by
      intro parts
      induction parts with
      | nil =>
          intro _ batches _
          exact ⟨batches, rfl⟩
      | cons part parts ih =>
          intro hSub batches hAligned
          rw [List.forall_mem_cons] at hSub
          rcases hEach part hSub.1 hFits batches hAligned with
            ⟨next, hRun, hNext⟩
          rw [List.foldlM_cons, hRun]
          exact ih hSub.2 next hNext
    exact hRun divisors (fun _ hMem => hMem) [] (Aligned.nil unit)

----------------
-- The Enumeration
----------------

/- What the enumeration promises of a range. -/
structure WellFormed
    (unit minBatch maxBatch : Nat)
    (batches : List Nat) : Prop where
  increasing : batches.Pairwise (· < ·)
  multiples : ∀ batch ∈ batches, unit ∣ batch
  bounds : ∀ batch ∈ batches, minBatch ≤ batch ∧ batch ≤ maxBatch
  nonempty : roundedUp minBatch unit ≤ maxBatch → batches ≠ []

/- What is between the bounds. -/
theorem mem_inRange
    {batch : Nat} :
    batch ∈ inRange minBatch maxBatch batches ↔
      batch ∈ batches ∧ minBatch ≤ batch ∧ batch ≤ maxBatch := by
  simp only [inRange, List.mem_filter, List.mem_insertionSort,
    Bool.not_eq_true', Bool.or_eq_false_iff, decide_eq_false_iff_not,
    Nat.not_lt]

/- Sorting distinct multiples and cutting them to the range. -/
theorem inRange_wellFormed
    (hUnit : 0 < unit)
    (hAligned : Aligned unit batches)
    (hMin : roundedUp minBatch unit ∈ batches) :
    WellFormed unit minBatch maxBatch
      (inRange minBatch maxBatch batches) where
  increasing := by
    have hSorted :=
      List.pairwise_insertionSort (· ≤ ·) batches
    have hNodup : (batches.insertionSort (· ≤ ·)).Nodup :=
      (List.perm_insertionSort _ batches).nodup_iff.mpr
        hAligned.nodup
    exact
      ((hSorted.and hNodup).imp fun hBoth =>
        lt_of_le_of_ne hBoth.1 hBoth.2).filter _
  multiples := fun batch hMem =>
    hAligned.multiples batch (mem_inRange.mp hMem).1
  bounds := fun _ hMem => (mem_inRange.mp hMem).2
  nonempty := fun hLe =>
    List.ne_nil_of_mem
      (mem_inRange.mpr ⟨hMin, le_roundedUp minBatch hUnit, hLe⟩)

/- Between bounds that cross there is nothing. -/
theorem WellFormed.nil
    (hUnit : 0 < unit)
    (hEmpty : maxBatch < minBatch) :
    WellFormed unit minBatch maxBatch [] where
  increasing := List.Pairwise.nil
  multiples := fun _ hMem => absurd hMem List.not_mem_nil
  bounds := fun _ hMem => absurd hMem List.not_mem_nil
  nonempty := fun hLe => by
    have hRound := le_roundedUp minBatch hUnit
    omega

/- The loop ends, and what it leaves is well formed. -/
theorem batchesBetween_returns
    (hUnit : 0 < unit)
    (hMost : maxBatch ≤ largestBatch)
    (hLogical : logicalShardSize < 2 ^ 64)
    (hPos : minBatch ≠ 0) :
    ∃ fuel outcome,
      batchesBetween fuel unit minBatch maxBatch
          logicalShardSize = some outcome ∧
        Returns (WellFormed unit minBatch maxBatch) outcome := by
  have hLargest : largestBatch < 2 ^ 30 := by decide
  by_cases hEmpty : minBatch > maxBatch
  · refine ⟨0, .ok [], ?_, Returns.ok (WellFormed.nil hUnit hEmpty)⟩
    rw [batchesBetween, if_pos hEmpty]
  · have hMin : minBatch < 2 ^ 64 := by omega
    rcases firstBatches_returns hUnit hMin hLogical with
      ⟨batches, hFirst, hKept⟩ | ⟨e, hThrow⟩
    · have hLimit : maxBatch / 2 < 2 ^ 63 := by omega
      rcases
        doublings_returns hUnit hLimit (Nat.pos_of_ne_zero hPos)
          hKept.aligned with
        ⟨fuel, outcome, hRun, hOutcome⟩
      refine
        ⟨fuel, outcome.map (inRange minBatch maxBatch), ?_, ?_⟩
      · rw [batchesBetween, if_neg hEmpty, hFirst]
        dsimp only
        rw [hRun]
        rfl
      · rcases hOutcome with ⟨last, rfl, hLast⟩ | ⟨e, rfl⟩
        · exact
            Returns.ok
              (inRange_wellFormed hUnit hLast.1
                (hLast.2 _ (hKept.rounded hPos)))
        · exact Returns.throw _ e
    · refine ⟨0, throwing e, ?_, Returns.throw _ e⟩
      rw [batchesBetween, if_neg hEmpty, hThrow]
      rfl

/- With a minimum of zero the loop runs on where rounding fits. -/
theorem batchesBetween_none
    (hUnit : 0 < unit)
    (hLogical : logicalShardSize < 2 ^ 64)
    (hFits : roundedUp logicalShardSize unit < 2 ^ 32)
    (fuel : Nat) :
    batchesBetween fuel unit 0 maxBatch logicalShardSize =
      none := by
  rcases (firstBatches_zero hUnit hLogical).mpr hFits with
    ⟨batches, hRun⟩
  rw [batchesBetween, if_neg (Nat.not_lt_zero maxBatch), hRun]
  dsimp only
  rw [doublings_zero]
  rfl

/- A minimum of zero ends only where the first rounding throws. -/
theorem batchesBetween_zero
    (hUnit : 0 < unit)
    (hLogical : logicalShardSize < 2 ^ 64) :
    (∃ fuel outcome,
        batchesBetween fuel unit 0 maxBatch logicalShardSize =
            some outcome ∧
          Returns (WellFormed unit 0 maxBatch) outcome) ↔
      2 ^ 32 ≤ roundedUp logicalShardSize unit := by
  constructor
  · rintro ⟨fuel, outcome, hOutcome, -⟩
    by_contra hOver
    rw [batchesBetween_none hUnit hLogical
      (Nat.lt_of_not_le hOver)] at hOutcome
    cases hOutcome
  · intro hOver
    rcases
      firstBatches_returns hUnit (Nat.two_pow_pos 64) hLogical with
      ⟨batches, hRun, -⟩ | ⟨e, hThrow⟩
    · have hFits :=
        (firstBatches_zero hUnit hLogical).mp ⟨batches, hRun⟩
      omega
    · refine ⟨0, throwing e, ?_, Returns.throw _ e⟩
      rw [batchesBetween, if_neg (Nat.not_lt_zero maxBatch), hThrow]
      rfl

/-
  Without a fixed batch the enumeration ends, without a wrap and
  with a well-formed list or an exception, if and only if the
  minimum is not zero or the logical shard is too large to round.
-/
theorem stream4BatchCandidates_iff
    (getenv : Getenv)
    (moveCount : Nat)
    (base : RuntimeConfig)
    (hUnit : base.stream4BatchAlignment ≠ 0)
    (logicalShardSize : Nat)
    (hLogical : logicalShardSize < 2 ^ 64)
    (ringSlotCount : Nat)
    (hUnset : envPresent getenv batchName = false)
    (minBatch limit : Nat)
    (hMin :
      envU64 getenv minName base.stream4BatchAlignment =
        .ok minBatch)
    (hLimit :
      envU64 getenv maxName
          (max logicalShardSize
            (stream3Batch moveCount base ringSlotCount)) =
        .ok limit) :
    (∃ fuel outcome,
        stream4BatchCandidates getenv moveCount base
            logicalShardSize ringSlotCount fuel = some outcome ∧
          Returns
            (WellFormed base.stream4BatchAlignment minBatch
              (min limit largestBatch))
            outcome) ↔
      minBatch ≠ 0 ∨
        2 ^ 32 ≤
          roundedUp logicalShardSize base.stream4BatchAlignment := by
  have hPos : 0 < base.stream4BatchAlignment :=
    Nat.pos_of_ne_zero hUnit
  have hRange :
      batchRange getenv moveCount base logicalShardSize
          ringSlotCount =
        .ok (minBatch, min limit largestBatch) := by
    rw [batchRange, hMin, ok_bind, hLimit, ok_bind]
  have hRun :
      ∀ fuel,
        stream4BatchCandidates getenv moveCount base
            logicalShardSize ringSlotCount fuel =
          batchesBetween fuel base.stream4BatchAlignment minBatch
            (min limit largestBatch) logicalShardSize := by
    intro fuel
    rw [stream4BatchCandidates, hUnset,
      if_neg Bool.false_ne_true, hRange]
  simp only [hRun]
  by_cases hZero : minBatch = 0
  · rw [hZero, batchesBetween_zero hPos hLogical]
    exact
      ⟨Or.inr, fun hCond => hCond.resolve_left fun hNe => hNe rfl⟩
  · exact
      iff_of_true
        (batchesBetween_returns hPos (Nat.min_le_right ..) hLogical
          hZero)
        (Or.inl hZero)

/- One bank of 65536 candidates in batches of 1024. -/
def shortConfig : RuntimeConfig where
  bMicro := 1024
  inferenceParallelism := 1
  stream3BatchCandidates := 1024
  stream4BatchCandidates := 1024
  stream4TriggerCandidates := 1024
  stream4BatchAlignment := 1024
  stream4ActiveSortSlots := 1
  ringCount := 1
  worldSize := 1
  localRank := 0
  shardCount := 1
  shardBufferCount := 1
  shardCapacityCandidates := 65536
  shardCapacityScalePpm := 1000000
  globalSpillCapacity := 65536
  globalSpillScalePpm := 1000000
  stream5RecvCapacityScalePpm := 1000000
  finalMaterializeChunkCandidates := 1024
  finalMaterializeExchangeScalePpm := 1000000
  userGlobalBeamWidth := 65536
  globalThresholdUpdatePeriodShards := 1
  solvedResultCapacity := 1
  solveBucketGatherScratchBytes := 1

/- An environment that sets only the minimum. -/
def minimumOf (text : String) : Getenv :=
  fun name => if name = minName then some text.toList else none

/- A run in which the condition holds by its first part. -/
theorem stream4BatchCandidates_iff_short :
    (∃ fuel outcome,
        stream4BatchCandidates (minimumOf "1") 24 shortConfig 65536
            1 fuel = some outcome ∧
          Returns (WellFormed 1024 1 65536) outcome) ↔
      1 ≠ 0 ∨ 2 ^ 32 ≤ roundedUp 65536 1024 :=
  stream4BatchCandidates_iff (minimumOf "1") 24 shortConfig
    (by decide) 65536 (by decide) 1 (by decide) 1 65536
    (by decide) (by decide)

/- A minimum of zero is accepted, and the doubling never ends. -/
theorem stream4BatchCandidates_diverges :
    envU64 (minimumOf "0") minName 1024 = .ok 0 ∧
      ∀ fuel,
        stream4BatchCandidates (minimumOf "0") 24 shortConfig 65536
          1 fuel = none := by
  refine ⟨by decide, fun fuel => ?_⟩
  have hRange :
      batchRange (minimumOf "0") 24 shortConfig 65536 1 =
        .ok (0, 65536) := by
    decide
  have hUnit : 0 < 1024 := by decide
  have hLogical : 65536 < 2 ^ 64 := by decide
  have hFits : roundedUp 65536 1024 < 2 ^ 32 := by decide
  rw [stream4BatchCandidates, if_neg (by decide), hRange]
  exact batchesBetween_none hUnit hLogical hFits fuel

end BatchCandidates

end Memory

end BeamSearch
